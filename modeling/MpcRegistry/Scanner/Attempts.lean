import MpcRegistry.Scanner.Uploads

/-!
# Leases and attempts of an upload

What every run of the scan workers keeps of each upload: its columns are those of the newest lease
taken of it, and its attempts count the leases that were not refunded.
-/
namespace MpcRegistry.Scanner
open Library Processes

variable {W : Type}

/-! ## The columns of an upload and its leases -/

/-- The leases taken less those refunded. -/
def attemptsOf (leases : List (Lease Instant W Bool)) : Int :=
  leases.length - leases.countP (·.released = some true)

/-- The columns of an upload are those its leases give it. -/
structure Tracks (options : W → ScanOptions) (clock : Instant)
    (leases : List (Lease Instant W Bool)) (u : Upload) : Prop where
  lease : Lease.Sound clock u.scanLeasedUntil leases
  attempts : u.scanAttempts = attemptsOf leases
  bounded : ∀ most : Nat, (∀ w, (options w).maxAttempts ≤ most) → u.scanAttempts ≤ most

structure Tracked (options : W → ScanOptions) (store : Store W) : Prop where
  known : ∀ id, store.leases id ≠ [] → ∃ u ∈ store.uploads, u.id = id
  tracks : ∀ u ∈ store.uploads, Tracks options store.clock (store.leases u.id) u

/-- A worker at work holds a lease that it has not released. -/
def Holds (w : W) (store : Store W) (row : LeasedUpload) : Prop :=
  ∃ lease ∈ store.leases row.id, lease.owner = w ∧ lease.start = row.takenAt ∧
    lease.expiry = row.leaseToken ∧ lease.released = none

def Relies (w : W) (store : Store W) (p : Point) : Prop := ∀ row, p.row = some row → Holds w store row

section Columns

variable {options : W → ScanOptions} {clock now until' : Instant} {u : Upload} {w : W}
  {leases : List (Lease Instant W Bool)} {lease : Lease Instant W Bool}

theorem attemptsOf_nonneg (leases : List (Lease Instant W Bool)) : 0 ≤ attemptsOf leases := by
  have hle := List.countP_le_length (p := fun lease : Lease Instant W Bool =>
    decide (lease.released = some true)) (l := leases)
  unfold attemptsOf
  omega

theorem attemptsOf_cons (hheld : lease.released = none) :
    attemptsOf (lease :: leases) = attemptsOf leases + 1 := by
  simp only [attemptsOf, List.length_cons, List.countP_cons, hheld, reduceCtorEq, decide_false]
  simp
  omega

theorem attemptsOf_released (hheld : lease.released = none) (refundAttempt : Bool) :
    attemptsOf ({ lease with released := some refundAttempt } :: leases) =
      attemptsOf (lease :: leases) - if refundAttempt then 1 else 0 := by
  rw [attemptsOf_cons hheld]
  cases refundAttempt with
  | false =>
    simp [attemptsOf]
    omega
  | true => simp [attemptsOf]

/-- Writes that leave the columns of the lease alone. -/
theorem Tracks.of_columns {v : Upload} (h : Tracks options clock leases u)
    (hlease : v.scanLeasedUntil = u.scanLeasedUntil) (hattempts : v.scanAttempts = u.scanAttempts) :
    Tracks options clock leases v where
  lease := hlease ▸ h.lease
  attempts := hattempts ▸ h.attempts
  bounded := hattempts ▸ h.bounded

theorem Tracks.later (h : Tracks options clock leases u) (hle : clock ≤ now) :
    Tracks options now leases u where
  lease := h.lease.later hle
  attempts := h.attempts
  bounded := h.bounded

theorem Tracks.take (h : Tracks options clock leases u) (hnow : clock < now)
    (huntil : now < until') (hselects : (options w).selects now u = true) :
    Tracks options now ({ owner := w, start := now, expiry := until', released := none } :: leases)
      (u.lease until') := by
  simp only [ScanOptions.selects, Bool.and_eq_true, decide_eq_true_eq, Option.all_eq_true] at hselects
  obtain ⟨⟨⟨-, -⟩, hattempts⟩, hfree⟩ := hselects
  constructor
  · exact h.lease.take w hnow huntil hfree
  · rw [attemptsOf_cons rfl, ← h.attempts]
    rfl
  · intro most hmost
    have hw := hmost w
    change u.scanAttempts + 1 ≤ most
    omega

theorem Tracks.release (h : Tracks options clock leases u) (hmem : lease ∈ leases)
    (hheld : lease.released = none) (hnote : u.scanLeasedUntil = some lease.expiry) (reason : Text)
    (refundAttempt : Bool) :
    Tracks options clock (Lease.release lease.start refundAttempt leases)
      (u.fail reason refundAttempt) := by
  constructor
  · exact h.lease.release hmem hheld hnote refundAttempt
  · obtain ⟨rest, hleases, hreleased⟩ := h.lease.release_eq hmem hheld hnote refundAttempt
    rw [hreleased, attemptsOf_released hheld, ← hleases, ← h.attempts]
    rfl
  · intro most hmost
    have hbounded := h.bounded most hmost
    change u.scanAttempts - (if refundAttempt then 1 else 0) ≤ most
    split <;> omega

end Columns

/-! ## What each statement does -/

section Statements

variable {options : W → ScanOptions} {store after : Store W} {w v : W} {now : Instant} {id : Uuid}
  {row other : LeasedUpload}

theorem leases_takeLease_self (until' : Instant) :
    (store.takeLease w now until' id).leases id =
      { owner := w, start := now, expiry := until', released := none } :: store.leases id :=
  Function.update_self ..

theorem leases_takeLease_of_ne (until' : Instant) {other : Uuid} (hne : other ≠ id) :
    (store.takeLease w now until' id).leases other = store.leases other :=
  Function.update_of_ne hne ..

theorem exists_of_leaseOne (h : store.leaseOne w (options w) now id = some (after, row)) :
    ∃ u ∈ store.uploads, ∃ until', u.id = id ∧ store.clock < now ∧ now < until' ∧
      (options w).selects now u = true ∧ row = u.leased now until' ∧
      after = store.takeLease w now until' id := by
  obtain ⟨u, hlookup, h⟩ := Option.bind_eq_some_iff.mp h
  obtain ⟨hu, hid⟩ := Table.lookup_eq_some.mp hlookup
  obtain ⟨⟨hclock, hselects⟩, h⟩ := Option.ite_none_right_eq_some.mp h
  obtain ⟨seconds, hseconds, h⟩ := Option.map_eq_some_iff.mp h
  have hpositive : 1 ≤ seconds := by
    obtain ⟨budget, -, rfl⟩ := Option.map_eq_some_iff.mp hseconds
    exact Nat.le_max_left _ _
  have hlasts : (0 : Int) < seconds * 1000000 := by omega
  cases h
  exact ⟨u, hu, now + seconds * 1000000, hid, hclock, Int.lt_add_of_pos_right now hlasts, hselects,
    rfl, rfl⟩

theorem Tracked.leaseOne (h : Tracked options store)
    (hlease : store.leaseOne w (options w) now id = some (after, row)) :
    Tracked options after ∧ Holds w after row := by
  obtain ⟨u, hu, until', rfl, hclock, huntil, hselects, rfl, rfl⟩ := exists_of_leaseOne hlease
  refine ⟨⟨?_, ?_⟩, ?_⟩
  · intro other hother
    have hknown : ∃ known ∈ store.uploads, known.id = other := by
      by_cases hsame : other = u.id
      · exact ⟨u, hu, hsame.symm⟩
      · rw [leases_takeLease_of_ne until' hsame] at hother
        exact h.known other hother
    exact (Table.exists_key_update (Upload.id_lease until')).mpr hknown
  · intro changed hchanged
    obtain ⟨u', hu', hid, hcase⟩ := Table.exists_of_mem_update (Upload.id_lease until') hchanged
    rcases hcase with rfl | ⟨hsame, rfl⟩
    · have hne : changed.id ≠ u.id := by
        intro hsame
        have heq := Table.eq_of_mem_update (Upload.id_lease until') hu' hchanged rfl
        rw [if_pos (decide_eq_true hsame)] at heq
        have hattempts := congrArg Upload.scanAttempts heq
        change changed.scanAttempts = changed.scanAttempts + 1 at hattempts
        omega
      rw [leases_takeLease_of_ne until' hne]
      exact (h.tracks changed hu').later hclock.le
    · have heq : u' = u := Table.eq_of_key hu' hu (of_decide_eq_true hsame)
      subst heq
      rw [Upload.id_lease, leases_takeLease_self]
      exact (h.tracks u' hu').take hclock huntil hselects
  · refine ⟨{ owner := w, start := now, expiry := until', released := none }, ?_, rfl, rfl, rfl, rfl⟩
    rw [Upload.leased, leases_takeLease_self]
    exact List.mem_cons_self

/-- A row that the conditions of a worker's update select is the one its lease is noted on. -/
theorem Holds.noted (hholds : Holds w store row) {u : Upload} (hguards : row.guards u = true) :
    ∃ lease ∈ store.leases u.id, u.id = row.id ∧ lease.start = row.takenAt ∧
      lease.released = none ∧ u.scanLeasedUntil = some lease.expiry ∧ lease.owner = w := by
  simp only [LeasedUpload.guards, Bool.and_eq_true, decide_eq_true_eq] at hguards
  obtain ⟨⟨⟨⟨hid, -⟩, -⟩, -⟩, hnote⟩ := hguards
  obtain ⟨lease, hlease, howner, hstart, hexpiry, hheld⟩ := hholds
  exact ⟨lease, hid ▸ hlease, hid, hstart, hheld, hexpiry ▸ hnote, howner⟩

theorem Tracked.recordFailure (h : Tracked options store) (hholds : Holds w store row) (reason : Text)
    (refundAttempt : Bool) : Tracked options (store.recordFailure row reason refundAttempt) := by
  by_cases hany : store.uploads.rows.any row.guards = true
  · obtain ⟨u, hu, hguards⟩ := List.any_eq_true.mp hany
    obtain ⟨lease, hlease, hid, hstart, hheld, hnote, -⟩ := hholds.noted hguards
    have hleases : (store.recordFailure row reason refundAttempt).leases =
        Function.update store.leases row.id
          (Lease.release row.takenAt refundAttempt (store.leases row.id)) := if_pos hany
    constructor
    · intro other hother
      have hknown : ∃ known ∈ store.uploads, known.id = other := by
        by_cases hsame : other = row.id
        · exact ⟨u, hu, hid.trans hsame.symm⟩
        · rw [hleases, Function.update_of_ne hsame] at hother
          exact h.known other hother
      exact (Table.exists_key_update (Upload.id_fail reason refundAttempt)).mpr hknown
    · intro changed hchanged
      obtain ⟨u', hu', hkey, hcase⟩ :=
        Table.exists_of_mem_update (Upload.id_fail reason refundAttempt) hchanged
      rw [hleases]
      rcases hcase with rfl | ⟨hguards', rfl⟩
      · have hne : changed.id ≠ row.id := by
          intro hsame
          obtain rfl : changed = u := Table.eq_of_key hu' hu (hsame.trans hid.symm)
          have heq := Table.eq_of_mem_update (Upload.id_fail reason refundAttempt) hu' hchanged rfl
          rw [if_pos hguards] at heq
          have hnone := congrArg Upload.scanLeasedUntil heq
          rw [hnote] at hnone
          cases hnone
        rw [Function.update_of_ne hne]
        exact h.tracks changed hu'
      · have hid' : u'.id = row.id := by
          simp only [LeasedUpload.guards, Bool.and_eq_true, decide_eq_true_eq] at hguards'
          exact hguards'.1.1.1.1
        obtain rfl : u' = u := Table.eq_of_key hu' hu (hid'.trans hid.symm)
        have hreleased := (h.tracks u' hu').release hlease hheld hnote reason refundAttempt
        change Tracks options store.clock (Function.update store.leases row.id _ u'.id) _
        rw [← hid', Function.update_self, ← hstart]
        exact hreleased
  · have hleases : (store.recordFailure row reason refundAttempt).leases = store.leases :=
      if_neg hany
    have huploads : (store.recordFailure row reason refundAttempt).uploads = store.uploads := by
      refine Table.update_of_none (Upload.id_fail reason refundAttempt) fun u hu => ?_
      rw [Bool.eq_false_iff]
      exact fun hguards => hany (List.any_eq_true.mpr ⟨u, hu, hguards⟩)
    constructor
    · rw [hleases, huploads]
      exact h.known
    · rw [hleases, huploads]
      exact h.tracks

/-- Writes that leave the columns of every lease alone. -/
theorem Tracked.of_columns (h : Tracked options store) (hclock : after.clock = store.clock)
    (hleases : after.leases = store.leases)
    (hkept : ∀ u ∈ store.uploads, ∃ u' ∈ after.uploads, u'.id = u.id)
    (hcolumns : ∀ u' ∈ after.uploads, ∃ u, Tracks options store.clock (store.leases u'.id) u ∧
      u'.scanLeasedUntil = u.scanLeasedUntil ∧ u'.scanAttempts = u.scanAttempts) :
    Tracked options after := by
  constructor
  · intro id hid
    rw [hleases] at hid
    obtain ⟨u, hu, rfl⟩ := h.known id hid
    exact hkept u hu
  · intro u' hu'
    obtain ⟨u, htracks, hlease, hattempts⟩ := hcolumns u' hu'
    rw [hclock, hleases]
    exact htracks.of_columns hlease hattempts

/-- An update of other columns. -/
theorem Tracked.update (h : Tracked options store) {selected : Upload → Bool} {change : Upload → Upload}
    (keeps : ∀ u, (change u).id = u.id)
    (hcolumns : ∀ u, (change u).scanLeasedUntil = u.scanLeasedUntil ∧
      (change u).scanAttempts = u.scanAttempts) :
    Tracked options { store with uploads := store.uploads.update selected change keeps } := by
  refine h.of_columns rfl rfl ?_ ?_
  · intro u hu
    exact (Table.exists_key_update keeps).mpr ⟨u, hu, rfl⟩
  · intro u' hu'
    obtain ⟨u, hu, hid, hcase⟩ := Table.exists_of_mem_update keeps hu'
    refine ⟨u, hid ▸ h.tracks u hu, ?_⟩
    rcases hcase with rfl | ⟨-, rfl⟩
    · exact ⟨rfl, rfl⟩
    · exact hcolumns u

theorem Tracked.write (h : Tracked options store) (write : Write) : Tracked options (store.write write) := by
  cases write with
  | insert id tenantId byteSize =>
    refine h.of_columns rfl rfl ?_ ?_
    · intro u hu
      exact ⟨u, Table.mem_insertIfAbsent_of_mem hu, rfl⟩
    · intro u' hu'
      rcases Table.mem_insertIfAbsent.mp hu' with hu | ⟨rfl, hfresh⟩
      · exact ⟨u', h.tracks u' hu, rfl, rfl⟩
      · have hnone : store.leases id = [] := by
          by_contra hsome
          obtain ⟨u, hu, hid⟩ := h.known id hsome
          exact hfresh u hu hid
        refine ⟨newUpload id tenantId byteSize, ?_, rfl, rfl⟩
        change Tracks options store.clock (store.leases id) _
        rw [hnone]
        exact ⟨Lease.sound_nil _, rfl, fun most _ => Int.natCast_nonneg most⟩
  | promote id => exact h.update _ fun u => ⟨rfl, rfl⟩
  | revoke id => exact h.update _ fun u => ⟨rfl, rfl⟩
  | editProfile id => exact h.update _ fun u => ⟨rfl, rfl⟩

/-! ## What the others rely on -/

theorem Holds.leaseOne (hholds : Holds v store other)
    (hlease : store.leaseOne w (options w) now id = some (after, row)) : Holds v after other := by
  obtain ⟨u, hu, until', rfl, -, -, -, -, rfl⟩ := exists_of_leaseOne hlease
  obtain ⟨lease, hmem, hrest⟩ := hholds
  refine ⟨lease, ?_, hrest⟩
  by_cases hsame : other.id = u.id
  · rw [hsame, leases_takeLease_self]
    exact List.mem_cons_of_mem _ (hsame ▸ hmem)
  · rw [leases_takeLease_of_ne until' hsame]
    exact hmem

theorem Holds.recordFailure (h : Tracked options store) (hholds : Holds v store other)
    (hrow : Holds w store row) (hne : v ≠ w) (reason : Text) (refundAttempt : Bool) :
    Holds v (store.recordFailure row reason refundAttempt) other := by
  obtain ⟨lease, hmem, howner, hrest⟩ := hholds
  refine ⟨lease, ?_, howner, hrest⟩
  change lease ∈ (if _ then _ else _ : Uuid → List (Lease Instant W Bool)) other.id
  split
  · next hany =>
    by_cases hsame : other.id = row.id
    · rw [hsame, Function.update_self]
      refine Lease.mem_release (hsame ▸ hmem) fun hstart => hne ?_
      obtain ⟨u, hu, hguards⟩ := List.any_eq_true.mp hany
      obtain ⟨mine, hmine, hid, hstart', -, -, howner'⟩ := hrow.noted hguards
      have heq := (h.tracks u hu).lease.eq_of_start (hid ▸ hsame ▸ hmem) hmine
        (hstart.trans hstart'.symm)
      rw [← howner, ← howner', heq]
    · rw [Function.update_of_ne hsame]
      exact hmem
  · exact hmem

end Statements

/-! ## Every run -/

section Runs

variable {options : W → ScanOptions}

theorem Relies.of_leases {w : W} {store after : Store W} {p : Point} (h : Relies w store p)
    (hleases : after.leases = store.leases) : Relies w after p := by
  intro row hrow
  obtain ⟨lease, hlease, hrest⟩ := h row hrow
  exact ⟨lease, hleases ▸ hlease, hrest⟩

/-- What a step of a worker does to the store: it leases, it records a failure, or it leaves the
uploads and their leases alone. -/
theorem scanOnce_cases {w : W} {store after : Store W} {p q : Point} {input : Input}
    (h : scanOnce options w store p input = some (after, q)) :
    (∃ now id row, p = .idle ∧ q = .scanning row ∧
      store.leaseOne w (options w) now id = some (after, row)) ∨
    (∃ row reason refundAttempt, p = .failing row reason refundAttempt ∧ q = .idle ∧
      after = store.recordFailure row reason refundAttempt) ∨
    (after.uploads = store.uploads ∧ after.clock = store.clock ∧ after.leases = store.leases ∧
      (q.row = none ∨ q.row = p.row)) := by
  cases p with
  | idle =>
    cases input with
    | lease now id =>
      obtain ⟨⟨leased, row⟩, hlease, heq⟩ := Option.map_eq_some_iff.mp h
      cases heq
      exact .inl ⟨now, id, row, rfl, rfl, hlease⟩
    | _ => cases h
  | scanning row =>
    cases input with
    | readFailed =>
      cases h
      exact .inr (.inr ⟨rfl, rfl, rfl, .inr rfl⟩)
    | missing =>
      cases h
      exact .inr (.inr ⟨rfl, rfl, rfl, .inr rfl⟩)
    | scanned byteLength verdict =>
      simp only [scanOnce] at h
      split at h
      · cases h
        exact .inr (.inr ⟨rfl, rfl, rfl, .inr rfl⟩)
      · cases h
        refine .inr (.inr ⟨rfl, rfl, rfl, .inr ?_⟩)
        cases verdict with
        | clean => rfl
        | infected signature => rfl
        | error reason unavailable => cases unavailable <;> rfl
    | _ => cases h
  | reporting row =>
    cases input with
    | reported =>
      cases h
      exact .inr (.inr ⟨rfl, rfl, rfl, .inl rfl⟩)
    | refused status error =>
      cases h
      exact .inr (.inr ⟨rfl, rfl, rfl, .inr rfl⟩)
    | _ => cases h
  | failing row reason refundAttempt =>
    cases input with
    | recorded =>
      cases h
      exact .inr (.inl ⟨row, reason, refundAttempt, rfl, rfl, rfl⟩)
    | lost =>
      cases h
      exact .inr (.inr ⟨rfl, rfl, rfl, .inl rfl⟩)
    | _ => cases h

theorem arrive_cases {store after : Store W} {input : Input} (h : arrive store input = some after) :
    (∃ report ∈ store.reports, input = .deliver report ∧ after = store.scanResult report) ∨
      ∃ write, input = .write write ∧ after = store.write write := by
  cases input with
  | deliver report =>
    obtain ⟨hsent, h⟩ := Option.ite_none_right_eq_some.mp h
    cases h
    exact .inl ⟨report, hsent, rfl, rfl⟩
  | write write =>
    cases h
    exact .inr ⟨write, rfl, rfl⟩
  | _ => cases h

theorem leases_write (store : Store W) (write : Write) : (store.write write).leases = store.leases := by
  cases write <;> rfl

theorem clock_write (store : Store W) (write : Write) : (store.write write).clock = store.clock := by
  cases write <;> rfl

theorem maintains : (program options).Maintains (fun _ _ => True) (Tracked options) Relies where
  idle w db _ row hrow := by cases hrow
  own s w input locked db q h _ ran := by
    have hrelies := h.relies w
    rcases scanOnce_cases ran with ⟨now, id, row, -, rfl, hlease⟩ |
      ⟨row, reason, refundAttempt, hpoint, rfl, rfl⟩ | ⟨huploads, hclock, hleases, hrow⟩
    · obtain ⟨hsound, hholds⟩ := h.store.leaseOne hlease
      refine ⟨hsound, ?_⟩
      intro held hheld
      cases hheld
      exact hholds
    · rw [hpoint] at hrelies
      refine ⟨h.store.recordFailure (hrelies row rfl) reason refundAttempt, ?_⟩
      intro held hheld
      cases hheld
    · refine ⟨?_, ?_⟩
      · refine h.store.of_columns hclock hleases ?_ ?_
        · intro u hu
          exact ⟨u, huploads ▸ hu, rfl⟩
        · intro u hu
          exact ⟨u, h.store.tracks u (huploads ▸ hu), rfl, rfl⟩
      · intro held hheld
        rcases hrow with hnone | hsame
        · rw [hnone] at hheld
          cases hheld
        · exact hrelies.of_leases hleases held (hsame ▸ hheld)
  stable s w v input locked db q h _ hne ran := by
    have hrelies := h.relies v
    rcases scanOnce_cases ran with ⟨now, id, row, -, -, hlease⟩ |
      ⟨row, reason, refundAttempt, hpoint, -, rfl⟩ | ⟨-, -, hleases, -⟩
    · intro other hother
      exact (hrelies other hother).leaseOne hlease
    · have hrow := h.relies w
      rw [hpoint] at hrow
      intro other hother
      exact (hrelies other hother).recordFailure h.store (hrow row rfl) hne reason refundAttempt
    · exact hrelies.of_leases hleases
  outside s input db h _ moved := by
    rcases arrive_cases moved with ⟨report, -, -, rfl⟩ | ⟨write, -, rfl⟩
    · exact ⟨h.store.update _ fun u => ⟨rfl, rfl⟩, fun w => h.relies w⟩
    · exact ⟨h.store.write write, fun w => (h.relies w).of_leases (leases_write _ _)⟩

theorem Fresh.sound {store : Store W} (h : Fresh store) : Tracked options store where
  known id hid := absurd (h.leases id) hid
  tracks u hu := by
    rw [h.leases u.id]
    refine ⟨?_, h.attempts u hu, ?_⟩
    · rw [h.unleased u hu]
      exact Lease.sound_nil _
    · intro most _
      rw [h.attempts u hu]
      exact Int.natCast_nonneg most

variable [DecidableEq W] {s t : State W (Store W) Point}

theorem sound_of_reachable (h : (scanLeases options).Reachable s) :
    (program options).Sound (Tracked options) Relies s :=
  maintains.reachable (fun _ => Fresh.sound) (h.restrict fun _ _ => trivial)

end Runs

end MpcRegistry.Scanner

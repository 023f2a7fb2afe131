import MpcRegistry.Outbox.Publisher

/-!
# Delivery is at least once

What every run of the publishing workers and replay commands keeps: a claimed
row is as it was read and in nobody else's hands, the handlers a worker has left
behind for it have their inbox rows, and no row is both published and
dead-lettered.
-/
namespace MpcRegistry.Outbox
open Library Processes

variable {W J ι : Type}

/-! ## What a step can do -/

/-- The event the process has claimed. -/
def Point.claimed : Point J ι → Option Claim
  | checking claim _ => some claim
  | running claim _ _ => some claim
  | recording claim _ _ => some claim
  | failing claim _ => some claim
  | _ => none

theorem Point.mem_holds_of_claimed {p : Point J ι} {claim : Claim} (h : p.claimed = some claim) :
    claim.row.id ∈ p.holds := by
  cases p <;> simp_all [claimed, holds]

/-- Everything a statement of a process can do, with what it found. -/
inductive Point.Moves (D : Deployment W J ι) (w : W) (locked : Uuid → Bool) (db : Db J)
    (given : Given ι) : Point J ι → Db J → Point J ι → Prop where
  | began : Moves D w locked db given .idle db (.polling [])
  | selected (selection : ReplaySelection) (options : ReplayOptions)
      (asked : given.task = .replay selection options) :
      Moves D w locked db given .idle db (.planning options [] (db.replayCandidates selection))
  | left (p : Point J ι) (free : ∀ handled row rest hook, p ≠ .settling handled row rest ∧
      p ≠ .hooking handled row hook rest) : Moves D w locked db given p db .idle
  | claimed (handled : List Uuid) (row : OutboxRow)
      (found : db.nextDue locked handled = some row) :
      Moves D w locked db given (.polling handled) db
        (.checking ⟨handled, row, db.now⟩ (relevant (D.handlers w) row))
  | published (claim : Claim) :
      Moves D w locked db given (.checking claim [])
        (db.publishRow claim.row.id claim.startedAt claim.attempt) (.polling claim.handledAfter)
  | skipped (claim : Claim) (handler : OutboxHandler J ι) (rest : List (OutboxHandler J ι))
      (processed : db.alreadyProcessed claim.row.id (handlerKey handler) = true) :
      Moves D w locked db given (.checking claim (handler :: rest)) db (.checking claim rest)
  | started (claim : Claim) (handler : OutboxHandler J ι) (rest : List (OutboxHandler J ι))
      (unprocessed : db.alreadyProcessed claim.row.id (handlerKey handler) = false) :
      Moves D w locked db given (.checking claim (handler :: rest)) db
        (.running claim handler rest)
  | handled (claim : Claim) (handler : OutboxHandler J ι) (rest : List (OutboxHandler J ι))
      (consumers : J)
      (ran : handler.handle claim.row db.now given.consumer db.consumers = (consumers, none)) :
      Moves D w locked db given (.running claim handler rest) { db with consumers }
        (.recording claim handler rest)
  | handlerThrew (claim : Claim) (handler : OutboxHandler J ι) (rest : List (OutboxHandler J ι))
      (consumers : J) (error : Thrown)
      (ran : handler.handle claim.row db.now given.consumer db.consumers =
        (consumers, some error)) :
      Moves D w locked db given (.running claim handler rest) { db with consumers }
        (.failing claim (handler.rethrow error))
  | recorded (claim : Claim) (handler : OutboxHandler J ι) (rest : List (OutboxHandler J ι)) :
      Moves D w locked db given (.recording claim handler rest)
        (db.claimEvent claim.row.id (handlerKey handler)) (.checking claim rest)
  | threw (p : Point J ι) (claim : Claim) (error : Thrown) (held : p.claimed = some claim) :
      Moves D w locked db given p db (.failing claim error)
  | failed (claim : Claim) (error : Thrown) (more : claim.attempt < D.maxAttempts w) :
      Moves D w locked db given (.failing claim error)
        (db.failRow claim.row.id claim.startedAt claim.attempt (D.backoffMs w) false error)
        (.polling claim.handledAfter)
  | deadLettered (claim : Claim) (error : Thrown) (exhausted : D.maxAttempts w ≤ claim.attempt) :
      Moves D w locked db given (.failing claim error)
        (db.failRow claim.row.id claim.startedAt claim.attempt (D.backoffMs w) true error)
        (.settling claim.handledAfter claim.row (relevant (D.handlers w) claim.row))
  | settled (handled : List Uuid) (row : OutboxRow) :
      Moves D w locked db given (.settling handled row []) db (.polling handled)
  | settleThrew (handled : List Uuid) (row : OutboxRow) (rest : List (OutboxHandler J ι))
      (thrown : given.thrown ≠ none) :
      Moves D w locked db given (.settling handled row rest) db (.polling handled)
  | passed (handled : List Uuid) (row : OutboxRow) (handler : OutboxHandler J ι)
      (rest : List (OutboxHandler J ι))
      (nothing : db.alreadyProcessed row.id (handlerKey handler) = true ∨
        handler.onDeadLetter = none) :
      Moves D w locked db given (.settling handled row (handler :: rest)) db
        (.settling handled row rest)
  | hooking (handled : List Uuid) (row : OutboxRow) (handler : OutboxHandler J ι)
      (rest : List (OutboxHandler J ι)) (hook : OutboxRow → Nat → ι → J → J × Option Thrown)
      (registered : handler.onDeadLetter = some hook) :
      Moves D w locked db given (.settling handled row (handler :: rest)) db
        (.hooking handled row hook rest)
  | hooked (handled : List Uuid) (row : OutboxRow) (rest : List (OutboxHandler J ι))
      (hook : OutboxRow → Nat → ι → J → J × Option Thrown) (consumers : J)
      (ran : hook row db.now given.consumer db.consumers = (consumers, none)) :
      Moves D w locked db given (.hooking handled row hook rest) { db with consumers }
        (.settling handled row rest)
  | hookThrew (handled : List Uuid) (row : OutboxRow) (rest : List (OutboxHandler J ι))
      (hook : OutboxRow → Nat → ι → J → J × Option Thrown) (consumers : J) (error : Thrown)
      (ran : hook row db.now given.consumer db.consumers = (consumers, some error)) :
      Moves D w locked db given (.hooking handled row hook rest) { db with consumers }
        (.polling handled)
  | planned (options : ReplayOptions) (done : List ReplayPlanItem) (row : OutboxRow)
      (rest : List OutboxRow) :
      Moves D w locked db given (.planning options done (row :: rest)) db
        (.planning options (done ++ [db.planItem (D.handlers w) options row]) rest)
  | applying (options : ReplayOptions) (done : List ReplayPlanItem) :
      Moves D w locked db given (.planning options done []) db (.replaying options db.now [] done)
  | locked (options : ReplayOptions) (startedAt : Nat) (done : List ReplayPlanItem)
      (item : ReplayPlanItem) (rest : List ReplayPlanItem) :
      Moves D w locked db given (.replaying options startedAt done (item :: rest)) db
        (.replaying options startedAt (done ++ [item]) rest)
  | replayed (options : ReplayOptions) (startedAt : Nat) (done : List ReplayPlanItem) :
      Moves D w locked db given (.replaying options startedAt done [])
        (db.replayRows (done.map (·.eventId)) startedAt options.skipHandlers) .idle

theorem Point.moves_of_next {D : Deployment W J ι} {w : W} {locked : Uuid → Bool} {db db' : Db J}
    {given : Given ι} {p q : Point J ι} (h : next D w locked db p given = some (db', q)) :
    Moves D w locked db given p db' q := by
  have hleft : ∀ p : Point J ι, (∀ handled row rest hook, p ≠ .settling handled row rest ∧
      p ≠ .hooking handled row hook rest) → Moves D w locked db given p db .idle :=
    fun p hp => .left p hp
  cases p with
  | idle =>
    simp only [next] at h
    split at h
    · cases h
      exact .began
    · next selection options hasked =>
      cases h
      unfold select
      split
      · exact hleft _ (by simp)
      · exact .selected _ _ hasked
  | polling handled =>
    cases hthrown : given.thrown <;> simp only [next, hthrown] at h <;> cases h
    · unfold poll
      split
      · split
        · exact hleft _ (by simp)
        · next row hfound => exact .claimed _ row hfound
      · exact hleft _ (by simp)
    · exact hleft _ (by simp)
  | checking claim rest =>
    cases rest with
    | nil =>
      cases hthrown : given.thrown <;> simp only [next, hthrown] at h <;> cases h
      · exact .published claim
      · exact hleft _ (by simp)
    | cons handler rest =>
      cases hthrown : given.thrown <;> simp only [next, hthrown] at h <;> cases h
      · split
        · next hprocessed => exact .skipped claim handler rest hprocessed
        · next hprocessed => exact .started claim handler rest (by simpa using hprocessed)
      · exact .threw _ claim _ rfl
  | running claim handler rest =>
    simp only [next] at h
    split at h
    · next consumers hran =>
      cases h
      exact .handled claim handler rest consumers hran
    · next consumers error hran =>
      cases h
      exact .handlerThrew claim handler rest consumers error hran
  | recording claim handler rest =>
    cases hthrown : given.thrown <;> simp only [next, hthrown] at h <;> cases h
    · exact .recorded claim handler rest
    · exact .threw _ claim _ rfl
  | failing claim error =>
    cases hthrown : given.thrown <;> simp only [next, hthrown] at h <;> cases h
    · by_cases hexhausted : D.maxAttempts w ≤ claim.attempt
      · simpa [hexhausted] using .deadLettered claim error hexhausted
      · simpa [hexhausted] using .failed claim error (Nat.lt_of_not_le hexhausted)
    · exact hleft _ (by simp)
  | settling handled row rest =>
    cases rest with
    | nil =>
      cases hthrown : given.thrown <;> simp only [next] at h <;> cases h <;>
        exact .settled handled row
    | cons handler rest =>
      cases hthrown : given.thrown <;> simp only [next, hthrown] at h <;> cases h
      · split
        · next hprocessed => exact .passed handled row handler rest (.inl hprocessed)
        · split
          · next hnone => exact .passed handled row handler rest (.inr hnone)
          · next hook hsome => exact .hooking handled row handler rest hook hsome
      · exact .settleThrew handled row _ (by simp [hthrown])
  | hooking handled row hook rest =>
    simp only [next] at h
    split at h
    · next consumers hran =>
      cases h
      exact .hooked handled row rest hook consumers hran
    · next consumers error hran =>
      cases h
      exact .hookThrew handled row rest hook consumers error hran
  | planning options done rest =>
    cases rest with
    | nil =>
      cases hthrown : given.thrown <;> simp only [next, hthrown] at h <;> cases h
      · split
        · exact hleft _ (by simp)
        · exact .applying options done
      · exact hleft _ (by simp)
    | cons row rest =>
      cases hthrown : given.thrown <;> simp only [next, hthrown] at h <;> cases h
      · exact .planned options done row rest
      · exact hleft _ (by simp)
  | replaying options startedAt done rest =>
    cases rest with
    | nil =>
      cases hthrown : given.thrown <;> simp only [next, hthrown] at h <;> cases h
      · exact .replayed options startedAt done
      · exact hleft _ (by simp)
    | cons item rest =>
      cases hthrown : given.thrown <;> simp only [next, hthrown] at h <;> cases h
      · exact .locked options startedAt done item rest
      · exact hleft _ (by simp)

/-! ## What a step leaves alone -/

/-- The columns of an event that nothing updates. -/
def OutboxRow.SameEvent (a b : OutboxRow) : Prop :=
  a.id = b.id ∧ a.tenantId = b.tenantId ∧ a.eventType = b.eventType ∧ a.exportId = b.exportId ∧
    a.occurredAt = b.occurredAt

theorem OutboxRow.SameEvent.refl (row : OutboxRow) : row.SameEvent row := ⟨rfl, rfl, rfl, rfl, rfl⟩

theorem OutboxRow.SameEvent.trans {a b c : OutboxRow} (hab : a.SameEvent b) (hbc : b.SameEvent c) :
    a.SameEvent c := by
  obtain ⟨hid, htenant, htype, hexport, hat⟩ := hab
  obtain ⟨hid', htenant', htype', hexport', hat'⟩ := hbc
  exact ⟨hid.trans hid', htenant.trans htenant', htype.trans htype', hexport.trans hexport',
    hat.trans hat'⟩

/-- No event is dropped, and what is not about the events `ids` is as it was. -/
structure Db.ChangesOnly (ids : List Uuid) (db db' : Db J) : Prop where
  kept : ∀ row ∈ db.outbox, row.id ∉ ids → row ∈ db'.outbox
  events : ∀ row ∈ db.outbox, ∃ row' ∈ db'.outbox, row'.SameEvent row
  inbox : ∀ entry ∈ db.inbox, entry ∈ db'.inbox
  entries : ∀ entry ∈ db'.inbox, entry.eventId ∉ ids → entry ∈ db.inbox

theorem Db.changesOnly_consumers (ids : List Uuid) (db : Db J) (consumers : J) :
    db.ChangesOnly ids { db with consumers } where
  kept _ h _ := h
  events row h := ⟨row, h, .refl row⟩
  inbox _ h := h
  entries _ h _ := h

theorem Db.ChangesOnly.refl (ids : List Uuid) (db : Db J) : db.ChangesOnly ids db :=
  db.changesOnly_consumers ids db.consumers

theorem Db.changesOnly_updateRow {db : Db J} {ids : List Uuid} {selected : Uuid → Bool}
    {change : OutboxRow → OutboxRow} {keeps : ∀ row, (change row).id = row.id}
    (hselected : ∀ id, selected id = true → id ∈ ids)
    (hsame : ∀ row, (change row).SameEvent row) :
    db.ChangesOnly ids (db.updateRow selected change keeps) where
  kept row hrow hid := by
    have hout : ¬ selected row.id = true := fun hin => hid (hselected _ hin)
    exact (Table.mem_update keeps).mpr ⟨row, hrow, if_neg hout⟩
  events row hrow := by
    refine ⟨_, Table.mem_update_of_mem keeps hrow, ?_⟩
    split
    · exact hsame row
    · exact .refl row
  inbox _ h := h
  entries _ h _ := h

theorem Db.changesOnly_claimEvent (db : Db J) (eventId : Uuid) (handlerVersion : Text) :
    db.ChangesOnly [eventId] (db.claimEvent eventId handlerVersion) where
  kept _ h _ := h
  events row h := ⟨row, h, .refl row⟩
  inbox _ h := Table.mem_insertIfAbsent_of_mem h
  entries entry h hid := by
    rcases Table.mem_insertIfAbsent.mp h with h | ⟨rfl, -⟩
    · exact h
    · simp at hid

theorem Db.eq_of_mem_updateRow {db : Db J} {selected : Uuid → Bool}
    {change : OutboxRow → OutboxRow} {keeps : ∀ row, (change row).id = row.id} {row row' : OutboxRow}
    (hrow : row ∈ db.outbox) (hrow' : row' ∈ (db.updateRow selected change keeps).outbox)
    (hid : row'.id = row.id) : row' = if selected row.id then change row else row :=
  Table.eq_of_mem_update keeps hrow hrow' hid

/-- A process changes nothing about events whose rows it has not locked. -/
theorem Point.Moves.changesOnly {D : Deployment W J ι} {w : W} {locked : Uuid → Bool}
    {db db' : Db J} {given : Given ι} {p q : Point J ι} (h : Moves D w locked db given p db' q) :
    db.ChangesOnly p.holds db' := by
  cases h with
  | published claim =>
    refine Db.changesOnly_updateRow (fun id hid => ?_) fun _ => ⟨rfl, rfl, rfl, rfl, rfl⟩
    simpa [holds] using hid
  | failed claim error more =>
    refine Db.changesOnly_updateRow (fun id hid => ?_) fun _ => ⟨rfl, rfl, rfl, rfl, rfl⟩
    simpa [holds] using hid
  | deadLettered claim error exhausted =>
    refine Db.changesOnly_updateRow (fun id hid => ?_) fun _ => ⟨rfl, rfl, rfl, rfl, rfl⟩
    simpa [holds] using hid
  | replayed options startedAt done =>
    refine Db.changesOnly_updateRow (fun id hid => ?_) fun _ => ⟨rfl, rfl, rfl, rfl, rfl⟩
    simpa [holds] using hid
  | recorded claim handler rest => exact Db.changesOnly_claimEvent _ _ _
  | handled => exact Db.changesOnly_consumers _ _ _
  | handlerThrew => exact Db.changesOnly_consumers _ _ _
  | hooked => exact Db.changesOnly_consumers _ _ _
  | hookThrew => exact Db.changesOnly_consumers _ _ _
  | _ => exact .refl _ _

theorem Db.changesOnly_request {db db' : Db J} {consumers : J} {events : List DomainEvent}
    (h : db.request consumers events = some db') : db.ChangesOnly [] db' := by
  induction events generalizing db with
  | nil =>
    cases h
    exact db.changesOnly_consumers _ _
  | cons event rest ih =>
    simp only [request] at h
    split at h
    · cases h
    · have hrest := ih h
      exact {
        kept := fun row hrow hid => hrest.kept row (Table.mem_insertIfAbsent_of_mem hrow) hid
        events := fun row hrow => hrest.events row (Table.mem_insertIfAbsent_of_mem hrow)
        inbox := hrest.inbox
        entries := hrest.entries }

theorem changesOnly_arrive {D : Deployment W J ι} {db db' : Db J} {given : Given ι}
    (h : arrive D db given = some db') : db.ChangesOnly [] db' := by
  obtain ⟨_, hrequest, rfl⟩ := Option.map_eq_some_iff.mp h
  obtain ⟨_, -, hrequest⟩ := Option.bind_eq_some_iff.mp hrequest
  exact { Db.changesOnly_request hrequest with }

/-! ## The invariant -/

/-- No event is both published and dead-lettered. -/
def Db.Apart (db : Db J) : Prop :=
  ∀ row ∈ db.outbox, row.publishedAt = none ∨ row.deadLetteredAt = none

/-- A claimed event: its row is as it was read and waits to be published, and the
handlers no longer to come have their inbox rows. -/
structure Claimed (D : Deployment W J ι) (w : W) (db : Db J) (claim : Claim)
    (rest : List (OutboxHandler J ι)) : Prop where
  row : claim.row ∈ db.outbox
  pending : claim.row.pending = true
  recorded : ∃ done, relevant (D.handlers w) claim.row = done ++ rest ∧
    ∀ handler ∈ done, InboxRow.mk claim.row.id (handlerKey handler) ∈ db.inbox

theorem Claimed.of_changesOnly {D : Deployment W J ι} {w : W} {db db' : Db J} {claim : Claim}
    {rest : List (OutboxHandler J ι)} {ids : List Uuid} (h : Claimed D w db claim rest)
    (change : db.ChangesOnly ids db') (apart : claim.row.id ∉ ids) :
    Claimed D w db' claim rest where
  row := change.kept _ h.row apart
  pending := h.pending
  recorded := by
    obtain ⟨done, hsplit, hdone⟩ := h.recorded
    exact ⟨done, hsplit, fun handler hmem => change.inbox _ (hdone handler hmem)⟩

/-- What a process relies on at each point. -/
def Relies (D : Deployment W J ι) (w : W) (db : Db J) : Point J ι → Prop
  | .checking claim rest => Claimed D w db claim rest
  | .running claim handler rest => Claimed D w db claim (handler :: rest) ∧
      InboxRow.mk claim.row.id (handlerKey handler) ∉ db.inbox
  | .recording claim handler rest => Claimed D w db claim (handler :: rest)
  | .failing claim _ => claim.row ∈ db.outbox ∧ claim.row.pending = true
  | _ => True

/-- What is relied on survives what others do. -/
theorem Relies.of_changesOnly {D : Deployment W J ι} {w : W} {db db' : Db J} {p : Point J ι}
    {ids : List Uuid} (h : Relies D w db p) (change : db.ChangesOnly ids db')
    (apart : ∀ id ∈ ids, id ∉ p.holds) : Relies D w db' p := by
  have hclaim : ∀ claim, p.claimed = some claim → claim.row.id ∉ ids := fun claim hclaimed hin =>
    apart _ hin (Point.mem_holds_of_claimed hclaimed)
  cases p with
  | checking claim rest => exact Claimed.of_changesOnly h change (hclaim claim rfl)
  | running claim handler rest =>
    have hid := hclaim claim rfl
    exact ⟨h.1.of_changesOnly change hid, fun hin => h.2 (change.entries _ hin hid)⟩
  | recording claim handler rest => exact Claimed.of_changesOnly h change (hclaim claim rfl)
  | failing claim error => exact ⟨change.kept _ h.1 (hclaim claim rfl), h.2⟩
  | _ => trivial

theorem Db.mem_inbox_of_alreadyProcessed {db : Db J} {eventId : Uuid} {handlerVersion : Text} :
    db.alreadyProcessed eventId handlerVersion = true ↔
      InboxRow.mk eventId handlerVersion ∈ db.inbox := by
  unfold alreadyProcessed
  constructor
  · intro h
    obtain ⟨entry, hfound⟩ := Option.isSome_iff_exists.mp h
    obtain ⟨hmem, rfl⟩ := Table.lookup_eq_some.mp hfound
    exact hmem
  · intro h
    rw [Option.isSome_iff_exists]
    exact ⟨_, Table.lookup_eq_some.mpr ⟨h, rfl⟩⟩

theorem Db.nextDue_eq_some {db : Db J} {locked : Uuid → Bool} {handled : List Uuid}
    {row : OutboxRow} (h : db.nextDue locked handled = some row) :
    row ∈ db.outbox ∧ row.due db.now handled = true ∧ locked row.id = false := by
  have hmem := List.mem_of_mem_head? h
  rw [List.mem_insertionSort, List.mem_filter, Bool.and_eq_true, Bool.not_eq_true'] at hmem
  exact hmem

/-- One more handler is behind. -/
theorem Claimed.next {D : Deployment W J ι} {w : W} {db : Db J} {claim : Claim}
    {handler : OutboxHandler J ι} {rest : List (OutboxHandler J ι)}
    (h : Claimed D w db claim (handler :: rest))
    (recorded : InboxRow.mk claim.row.id (handlerKey handler) ∈ db.inbox) :
    Claimed D w db claim rest where
  row := h.row
  pending := h.pending
  recorded := by
    obtain ⟨done, hsplit, hdone⟩ := h.recorded
    refine ⟨done ++ [handler], by simpa using hsplit, fun h hmem => ?_⟩
    rcases List.mem_append.mp hmem with hmem | hmem
    · exact hdone h hmem
    · rw [List.mem_singleton.mp hmem]
      exact recorded

theorem Db.mem_claimEvent (db : Db J) (eventId : Uuid) (handlerVersion : Text) :
    InboxRow.mk eventId handlerVersion ∈ (db.claimEvent eventId handlerVersion).inbox := by
  obtain ⟨entry, hmem, rfl⟩ := Table.exists_key_insertIfAbsent db.inbox ⟨eventId, handlerVersion⟩
  exact hmem

/-- A process that has a claim relies on its row. -/
theorem Relies.claimed {D : Deployment W J ι} {w : W} {db : Db J} {p : Point J ι} {claim : Claim}
    (h : Relies D w db p) (held : p.claimed = some claim) :
    claim.row ∈ db.outbox ∧ claim.row.pending = true := by
  cases p with
  | checking claim' rest =>
    cases held
    exact ⟨h.row, h.pending⟩
  | running claim' handler rest =>
    cases held
    exact ⟨h.1.row, h.1.pending⟩
  | recording claim' handler rest =>
    cases held
    exact ⟨h.row, h.pending⟩
  | failing claim' error =>
    cases held
    exact h
  | _ => cases held

/-- What a process relies on after its own step. -/
theorem Point.Moves.relies {D : Deployment W J ι} {w : W} {locked : Uuid → Bool}
    {db db' : Db J} {given : Given ι} {p q : Point J ι} (h : Moves D w locked db given p db' q)
    (before : Relies D w db p) : Relies D w db' q := by
  cases h with
  | claimed handled row found =>
    obtain ⟨hrow, hdue, -⟩ := Db.nextDue_eq_some found
    simp only [OutboxRow.due, Bool.and_eq_true] at hdue
    exact ⟨hrow, hdue.1.1, [], rfl, by simp⟩
  | skipped claim handler rest processed =>
    exact Claimed.next before (Db.mem_inbox_of_alreadyProcessed.mp processed)
  | started claim handler rest unprocessed =>
    refine ⟨before, fun hin => ?_⟩
    rw [Db.mem_inbox_of_alreadyProcessed.mpr hin] at unprocessed
    cases unprocessed
  | handled claim handler rest consumers ran =>
    exact before.1.of_changesOnly (Db.changesOnly_consumers [] db consumers) (by simp)
  | handlerThrew claim handler rest consumers error ran =>
    exact ⟨before.1.row, before.1.pending⟩
  | recorded claim handler rest =>
    have hclaim : Claimed D w (db.claimEvent claim.row.id (handlerKey handler)) claim
        (handler :: rest) := by
      obtain ⟨done, hsplit, hdone⟩ := before.recorded
      exact ⟨before.row, before.pending, done, hsplit, fun h hmem =>
        Table.mem_insertIfAbsent_of_mem (hdone h hmem)⟩
    exact hclaim.next (db.mem_claimEvent _ _)
  | threw p claim error held => exact before.claimed held
  | _ => trivial

/-- A step that writes an event leaves it published, dead-lettered or neither. -/
theorem Db.apart_updateRow {db : Db J} {selected : Uuid → Bool} {change : OutboxRow → OutboxRow}
    {keeps : ∀ row, (change row).id = row.id} (h : db.Apart)
    (hchange : ∀ row ∈ db.outbox, selected row.id = true →
      (change row).publishedAt = none ∨ (change row).deadLetteredAt = none) :
    (db.updateRow selected change keeps).Apart := by
  intro row' hrow'
  obtain ⟨row, hrow, -, rfl | ⟨hselected, rfl⟩⟩ := Table.exists_of_mem_update keeps hrow'
  · exact h _ hrow
  · exact hchange row hrow hselected

theorem OutboxRow.pending_iff {row : OutboxRow} :
    row.pending = true ↔ row.publishedAt = none ∧ row.deadLetteredAt = none := by
  simp [pending]

theorem Point.Moves.apart {D : Deployment W J ι} {w : W} {locked : Uuid → Bool}
    {db db' : Db J} {given : Given ι} {p q : Point J ι} (h : Moves D w locked db given p db' q)
    (before : Relies D w db p) (apart : db.Apart) : db'.Apart := by
  have hpending : ∀ claim, p.claimed = some claim → ∀ row ∈ db.outbox,
      decide (row.id = claim.row.id) = true → row.publishedAt = none ∧ row.deadLetteredAt = none := by
    intro claim hclaimed row hrow hid
    obtain ⟨hclaim, hclear⟩ := before.claimed hclaimed
    rw [Table.eq_of_key hrow hclaim (of_decide_eq_true hid)]
    exact OutboxRow.pending_iff.mp hclear
  cases h with
  | published claim =>
    exact Db.apart_updateRow apart fun row hrow hid => .inr (hpending claim rfl row hrow hid).2
  | failed claim error more =>
    exact Db.apart_updateRow apart fun row hrow hid => .inr rfl
  | deadLettered claim error exhausted =>
    exact Db.apart_updateRow apart fun row hrow hid => .inl (hpending claim rfl row hrow hid).1
  | replayed options startedAt done =>
    exact Db.apart_updateRow apart fun row hrow hid => .inl rfl
  | _ => exact apart

theorem Db.apart_request {db db' : Db J} {consumers : J} {events : List DomainEvent}
    (apart : db.Apart) (h : db.request consumers events = some db') : db'.Apart := by
  induction events generalizing db with
  | nil =>
    cases h
    exact apart
  | cons event rest ih =>
    simp only [request] at h
    split at h
    · cases h
    · refine ih (fun row hrow => ?_) h
      rcases Table.mem_insertIfAbsent.mp hrow with hrow | ⟨rfl, -⟩
      · exact apart row hrow
      · exact .inl rfl

/-- What a step can make of the row of an event. -/
inductive RowAfter (D : Deployment W J ι) (w : W) (p : Point J ι) (db db' : Db J)
    (row : OutboxRow) : OutboxRow → Prop where
  | same : RowAfter D w p db db' row row
  | published (claim : Claim) (point : p = .checking claim []) (locked : row = claim.row)
      (inbox : db'.inbox = db.inbox) :
      RowAfter D w p db db' row (row.publish claim.startedAt claim.attempt)
  | failed (claim : Claim) (error : Thrown) (locked : row = claim.row)
      (pending : row.pending = true) :
      RowAfter D w p db db' row
        (row.fail claim.startedAt claim.attempt (D.backoffMs w) false error)
  | deadLettered (claim : Claim) (error : Thrown) (point : p = .failing claim error)
      (locked : row = claim.row) (exhausted : D.maxAttempts w ≤ claim.attempt) :
      RowAfter D w p db db' row
        (row.fail claim.startedAt claim.attempt (D.backoffMs w) true error)
  | replayed (options : ReplayOptions) (startedAt : Nat) (done : List ReplayPlanItem)
      (point : p = .replaying options startedAt done [])
      (member : row.id ∈ done.map (·.eventId)) :
      RowAfter D w p db db' row (row.replay startedAt options.skipHandlers)

theorem Point.Moves.rowAfter {D : Deployment W J ι} {w : W} {locked : Uuid → Bool}
    {db db' : Db J} {given : Given ι} {p q : Point J ι} (h : Moves D w locked db given p db' q)
    (before : Relies D w db p) {row row' : OutboxRow} (hrow : row ∈ db.outbox)
    (hrow' : row' ∈ db'.outbox) (hid : row'.id = row.id) : RowAfter D w p db db' row row' := by
  have hclaimed : ∀ claim, p.claimed = some claim → decide (row.id = claim.row.id) = true →
      row = claim.row := fun claim held heq =>
    Table.eq_of_key hrow (before.claimed held).1 (of_decide_eq_true heq)
  cases h with
  | published claim =>
    rw [Db.eq_of_mem_updateRow hrow hrow' hid]
    split
    · next heq => exact .published claim rfl (hclaimed claim rfl heq) rfl
    · exact .same
  | failed claim error more =>
    rw [Db.eq_of_mem_updateRow hrow hrow' hid]
    split
    · next heq =>
      have hlocked := hclaimed claim rfl heq
      exact .failed claim error hlocked (hlocked ▸ (before.claimed rfl).2)
    · exact .same
  | deadLettered claim error exhausted =>
    rw [Db.eq_of_mem_updateRow hrow hrow' hid]
    split
    · next heq => exact .deadLettered claim error rfl (hclaimed claim rfl heq) exhausted
    · exact .same
  | replayed options startedAt done =>
    rw [Db.eq_of_mem_updateRow hrow hrow' hid]
    split
    · next heq => exact .replayed options startedAt done rfl (by simpa using heq)
    · exact .same
  | _ =>
    rw [Table.eq_of_key hrow' hrow hid]
    exact .same

/-- A domain transaction changes no event there is. -/
theorem eq_of_arrive {D : Deployment W J ι} {db db' : Db J} {given : Given ι}
    (h : arrive D db given = some db') {row row' : OutboxRow} (hrow : row ∈ db.outbox)
    (hrow' : row' ∈ db'.outbox) (hid : row'.id = row.id) : row' = row :=
  Table.eq_of_key hrow' ((changesOnly_arrive h).kept row hrow (by simp)) hid

section Run

variable [DecidableEq W] (D : Deployment W J ι)

def StartsEmpty (db : Db J) : Prop := ∃ consumers now, db = Db.empty consumers now

/-- Any number of processes over tables that start empty. -/
abbrev outboxSystem : System (State W (Db J) (Point J ι)) (Action W (Given ι)) :=
  (program D).system StartsEmpty

omit [DecidableEq W] in
theorem outbox_maintains (ok : State W (Db J) (Point J ι) → Action W (Given ι) → Prop) :
    (program D).Maintains ok Db.Apart (Relies D) where
  idle _ _ _ := trivial
  own s w input locked db q h _ ran := by
    have hmoves := Point.moves_of_next ran
    exact ⟨hmoves.apart (h.relies w) h.store, hmoves.relies (h.relies w)⟩
  stable s w v input locked db q h _ hne ran :=
    (h.relies v).of_changesOnly (Point.moves_of_next ran).changesOnly fun id hid =>
      h.exclusive w v hne.symm id hid
  outside s input db h _ moved := by
    have hchange := changesOnly_arrive moved
    obtain ⟨db₁, hrequest, rfl⟩ := Option.map_eq_some_iff.mp moved
    obtain ⟨_, -, hrequest⟩ := Option.bind_eq_some_iff.mp hrequest
    have hapart : db₁.Apart := Db.apart_request h.store hrequest
    exact ⟨hapart, fun w => (h.relies w).of_changesOnly hchange (by simp)⟩

variable {D} {s t : State W (Db J) (Point J ι)} {a : Action W (Given ι)}

theorem outbox_sound (reached : (outboxSystem D).Reachable s) :
    (program D).Sound Db.Apart (Relies D) s := by
  refine (outbox_maintains D fun _ _ => True).reachable ?_ (reached.restrict fun _ _ => trivial)
  rintro db ⟨consumers, now, rfl⟩ row hrow
  exact absurd hrow (Table.not_mem_empty row)

theorem changesOnly_of_step (taken : (outboxSystem D).step s a t) :
    ∃ ids, s.store.ChangesOnly ids t.store := by
  cases taken with
  | step _ ran _ => exact ⟨_, (Point.moves_of_next ran).changesOnly⟩
  | stop w => exact ⟨[], .refl _ _⟩
  | outside moved => exact ⟨[], changesOnly_arrive moved⟩

/-- Where an event stands. -/
inductive EventStatus where
  | pending | claimed | published | deadLettered

/-- What it is for an event of the table to stand somewhere. -/
def HasStatus (s : State W (Db J) (Point J ι)) (row : OutboxRow) : EventStatus → Prop
  | .pending => row.pending = true ∧ ∀ w claim, (s.point w).claimed = some claim →
      claim.row.id ≠ row.id
  | .claimed => row.pending = true ∧ ∃ w claim, (s.point w).claimed = some claim ∧
      claim.row.id = row.id
  | .published => row.publishedAt ≠ none
  | .deadLettered => row.deadLetteredAt ≠ none

/-- What at-least-once delivery asks of a state and of what follows it. -/
structure AtLeastOnce (D : Deployment W J ι) (s : State W (Db J) (Point J ι)) : Prop where
  /-- Only a worker whose handlers for the event all have their inbox rows publishes it. -/
  published : ∀ a t, (outboxSystem D).step s a t → ∀ row ∈ s.store.outbox, ∀ row' ∈ t.store.outbox,
    row'.id = row.id → row.publishedAt = none → row'.publishedAt ≠ none →
    ∃ w given, a = .step w given ∧ ∀ handler ∈ D.handlers w,
      handler.accepts row'.eventType = true → handler.name ∉ row'.skipHandlers →
        InboxRow.mk row'.id (handlerKey handler) ∈ t.store.inbox
  /-- No handler runs for an event it has an inbox row for. -/
  notRerun : ∀ w claim handler rest, s.point w = .running claim handler rest →
    InboxRow.mk claim.row.id (handlerKey handler) ∉ s.store.inbox
  claimedOnce : ∀ v w claim claim', (s.point v).claimed = some claim →
    (s.point w).claimed = some claim' → claim.row.id = claim'.row.id → v = w
  /-- Only a worker at its maximum of attempts gives an event up. -/
  deadLettered : ∀ a t, (outboxSystem D).step s a t → ∀ row ∈ s.store.outbox,
    ∀ row' ∈ t.store.outbox, row'.id = row.id → row.deadLetteredAt = none →
    row'.deadLetteredAt ≠ none →
    ∃ w given, a = .step w given ∧ D.maxAttempts w ≤ row'.attempts ∧
      row'.attempts = row.attempts + 1
  oneStatus : ∀ row ∈ s.store.outbox, ∃! status, HasStatus s row status
  neverDropped : ∀ labels t, (outboxSystem D).Run s labels t → ∀ row ∈ s.store.outbox,
    ∃ row' ∈ t.store.outbox, row'.SameEvent row

omit [DecidableEq W] in
theorem exists_unique_status (sound : (program D).Sound Db.Apart (Relies D) s) {row : OutboxRow}
    (hrow : row ∈ s.store.outbox) : ∃! status, HasStatus s row status := by
  by_cases hpending : row.pending = true
  · obtain ⟨hpublished, hdead⟩ := OutboxRow.pending_iff.mp hpending
    by_cases hclaimed : ∃ w claim, (s.point w).claimed = some claim ∧ claim.row.id = row.id
    · refine ⟨.claimed, ⟨hpending, hclaimed⟩, fun status hstatus => ?_⟩
      obtain ⟨w, claim, held, hid⟩ := hclaimed
      cases status with
      | pending => exact absurd hid (hstatus.2 w claim held)
      | claimed => rfl
      | published => exact absurd hpublished hstatus
      | deadLettered => exact absurd hdead hstatus
    · have hfree : ∀ w claim, (s.point w).claimed = some claim → claim.row.id ≠ row.id :=
        fun w claim held hid => hclaimed ⟨w, claim, held, hid⟩
      refine ⟨.pending, ⟨hpending, hfree⟩, fun status hstatus => ?_⟩
      cases status with
      | pending => rfl
      | claimed => exact absurd hstatus.2 hclaimed
      | published => exact absurd hpublished hstatus
      | deadLettered => exact absurd hdead hstatus
  · have hdone : row.publishedAt ≠ none ∨ row.deadLetteredAt ≠ none := by
      rw [OutboxRow.pending_iff] at hpending
      tauto
    rcases sound.store row hrow with hpublished | hdead
    · have hdead : row.deadLetteredAt ≠ none := hdone.resolve_left (not_not.mpr hpublished)
      refine ⟨.deadLettered, hdead, fun status hstatus => ?_⟩
      cases status with
      | pending => exact absurd hstatus.1 hpending
      | claimed => exact absurd hstatus.1 hpending
      | published => exact absurd hpublished hstatus
      | deadLettered => rfl
    · have hpublished : row.publishedAt ≠ none := hdone.resolve_right (not_not.mpr hdead)
      refine ⟨.published, hpublished, fun status hstatus => ?_⟩
      cases status with
      | pending => exact absurd hstatus.1 hpending
      | claimed => exact absurd hstatus.1 hpending
      | published => rfl
      | deadLettered => exact absurd hdead hstatus

/-- Along a run no event disappears. -/
theorem exists_sameEvent_of_run {labels : List (Action W (Given ι))}
    (run : (outboxSystem D).Run s labels t) :
    ∀ row ∈ s.store.outbox, ∃ row' ∈ t.store.outbox, row'.SameEvent row := by
  refine run.relates (I := fun _ => True)
    (R := fun u v => ∀ row ∈ u.store.outbox, ∃ row' ∈ v.store.outbox, row'.SameEvent row) trivial
    (fun _ _ _ _ _ => trivial) (fun u row hrow => ⟨row, hrow, .refl row⟩)
    (fun u v w huv hvw row hrow => ?_) fun u a v _ taken => ?_
  · obtain ⟨row', hrow', hsame⟩ := huv row hrow
    obtain ⟨row'', hrow'', hsame'⟩ := hvw row' hrow'
    exact ⟨row'', hrow'', hsame'.trans hsame⟩
  · obtain ⟨ids, hchange⟩ := changesOnly_of_step taken
    exact hchange.events

/-- Every reachable state of any number of publishing workers and replay commands,
which may stop or fail at any statement, delivers at least once. -/
theorem delivers_at_least_once (reached : (outboxSystem D).Reachable s) : AtLeastOnce D s := by
  have sound := outbox_sound reached
  constructor
  case published =>
    intro a t taken row hrow row' hrow' hid hbefore hafter
    cases taken with
    | stop w => exact absurd (Table.eq_of_key hrow' hrow hid ▸ hbefore) hafter
    | outside moved => exact absurd (eq_of_arrive moved hrow hrow' hid ▸ hbefore) hafter
    | @step w given _ _ _ others ran free =>
      have hrelies := sound.relies w
      cases (Point.moves_of_next ran).rowAfter hrelies hrow hrow' hid with
      | same => exact absurd hbefore hafter
      | failed => exact absurd hbefore hafter
      | deadLettered => exact absurd hbefore hafter
      | replayed => exact absurd rfl hafter
      | published claim point locked inbox =>
        refine ⟨w, given, rfl, fun handler hmem haccepts hskip => ?_⟩
        rw [point] at hrelies
        obtain ⟨done, hsplit, hdone⟩ := hrelies.recorded
        rw [List.append_nil] at hsplit
        rw [inbox, hid, locked]
        refine hdone handler (hsplit ▸ List.mem_filter.mpr ⟨hmem, ?_⟩)
        have hskip' : handler.name ∉ claim.row.skipHandlers := locked ▸ hskip
        have haccepts' : handler.accepts claim.row.eventType = true := locked ▸ haccepts
        simp [haccepts', hskip']
  case notRerun =>
    intro w claim handler rest hpoint
    have := sound.relies w
    rw [hpoint] at this
    exact this.2
  case claimedOnce =>
    intro v w claim claim' hv hw hid
    by_contra hne
    refine sound.exclusive v w hne _ (Point.mem_holds_of_claimed hv) ?_
    rw [hid]
    exact Point.mem_holds_of_claimed hw
  case deadLettered =>
    intro a t taken row hrow row' hrow' hid hbefore hafter
    cases taken with
    | stop w => exact absurd (Table.eq_of_key hrow' hrow hid ▸ hbefore) hafter
    | outside moved => exact absurd (eq_of_arrive moved hrow hrow' hid ▸ hbefore) hafter
    | @step w given _ _ _ others ran free =>
      cases (Point.moves_of_next ran).rowAfter (sound.relies w) hrow hrow' hid with
      | same => exact absurd hbefore hafter
      | published => exact absurd hbefore hafter
      | failed => exact absurd rfl hafter
      | replayed => exact absurd rfl hafter
      | deadLettered claim error point locked exhausted =>
        exact ⟨w, given, rfl, exhausted, by rw [locked]; rfl⟩
  case oneStatus => exact fun row hrow => exists_unique_status sound hrow
  case neverDropped => exact fun labels t run => exists_sameEvent_of_run run

end Run

section Logged

/-- The log consumer alone; domain transactions enqueue the events they are told of. -/
def logOnly : Deployment Nat Unit (List DomainEvent) where
  handlers _ := [logHandler]
  limit _ := 100
  maxAttempts _ := 5
  backoffMs _ := 5000
  request events _ consumers := some (consumers, events)

def logGiven (events : List DomainEvent) : Given (List DomainEvent) := ⟨.publish, none, events, 0⟩

/-- An event is enqueued, claimed, logged and published. -/
def logMoves : List (Program.Move (Given (List DomainEvent))) :=
  .outside (logGiven [⟨7, 1, units "project.registered", none⟩]) ::
    List.replicate 6 (.step (logGiven []))

theorem delivers_at_least_once_logged :
    ∃ s : State Nat (Db Unit) (Point Unit (List DomainEvent)), AtLeastOnce logOnly s ∧
      ∃ row ∈ s.store.outbox, row.publishedAt ≠ none ∧
        InboxRow.mk row.id (units "log@1") ∈ s.store.inbox := by
  have hrun : (((program logOnly).alone (fun _ _ => true) 0 (Db.empty () 0) .idle logMoves).any
      fun after => after.1.outbox.rows.any fun row => row.publishedAt ≠ none ∧
        InboxRow.mk row.id (units "log@1") ∈ after.1.inbox) = true := by
    decide +kernel
  obtain ⟨after, hafter, hpublished⟩ := Option.any_eq_true _ _ |>.mp hrun
  obtain ⟨row, hrow, hdone⟩ := List.any_eq_true.mp hpublished
  have hok := Program.permits_true (P := program logOnly) fun _ _ => true
  obtain ⟨labels, run⟩ := Program.run_alone StartsEmpty hok hafter
  have hstart : (outboxSystem logOnly).initial ((program logOnly).only (Db.empty () 0) 0 .idle) :=
    Program.initial_only ⟨(), 0, rfl⟩
  exact ⟨_, delivers_at_least_once ⟨_, labels, hstart, run.of_restrict⟩, row, hrow,
    of_decide_eq_true hdone⟩

end Logged

end MpcRegistry.Outbox

import MpcRegistry.Idempotency.Requests

/-!
# A key takes effect at most once

Of the requests that share a key at most one has the row of the key written but not
committed, and at most one has it reserved. No row names its owner; that a release deletes
only what its own request has reserved follows from the order of the moves alone.
-/
namespace MpcRegistry.Idempotency
open Library

variable {R ρ : Type}

/-! ## Moves -/

/-- The key is reserved by a request of this phase. -/
def Phase.owns : Phase ρ → Bool
  | calling => true
  | writing => true
  | completed _ _ => true
  | failed => true
  | releasing _ => true
  | _ => false

/-- Neither under way nor at an end with a response. -/
def Phase.Over (phase : Phase ρ) : Prop := phase = .crashed ∨ ∃ refusal, phase = .refused refusal

section Moves

variable {request : Request} {row row' : Option (KeyRow ρ)} {phase next : Phase ρ} {move : Move ρ}
  {done : Option ρ}

/-- The moves, by what becomes of the row. -/
inductive Acts (request : Request) (row : Option (KeyRow ρ)) :
    Phase ρ → Move ρ → Phase ρ → Option (KeyRow ρ) → Option ρ → Prop where
  | answer (phase : Phase ρ) (move : Move ρ) (previous : KeyRow ρ) (found : row = some previous) :
      Acts request row phase move (answerFrom request.requestHash previous) row none
  | checkFree : Acts request row .idle .check .checked row none
  | insert (absent : row = none) : Acts request row .checked .insert .working row none
  | workDone (response : ρ) :
      Acts request row .working (.workDone response) (.settled response) row none
  | settle (response : ρ) (move : Move ρ) (next : Phase ρ)
      (ends : next = .answered response ∨ next = .refused .failed) :
      Acts request row (.settled response) move next (some ⟨request.requestHash, some response⟩)
        (some response)
  | reserve (absent : row = none) : Acts request row .idle .reserve .inserted row none
  | conflict : Acts request row .idle .reserve .conflicted row none
  | take (move : Move ρ) (next : Phase ρ) (ends : next = .calling ∨ next = .refused .failed) :
      Acts request row .inserted move next (some ⟨request.requestHash, none⟩) none
  | callDone : Acts request row .calling .callDone .writing row none
  | complete (response : ρ) :
      Acts request row .writing (.complete response) (.completed response row.isSome) row none
  | finish (response : ρ) (found : Bool) (move : Move ρ) (next : Phase ρ)
      (ends : next = .answered response ∨ next = .failed) :
      Acts request row (.completed response found) move next
        (if found then row.map fun current => { current with responseSnapshot := some response }
          else row) (some response)
  | fail (phase : Phase ρ) (owned : phase = .calling ∨ phase = .writing ∨
      ∃ response found, phase = .completed response found) :
      Acts request row phase .fail .failed row none
  | delete : Acts request row .failed .delete
      (.releasing (row.any fun current => current.responseSnapshot.isNone)) row none
  | release (found : Bool) (move : Move ρ) (ends : move = .commit ∨ move = .commitLost) :
      Acts request row (.releasing found) move (.refused .failed) (if found then none else row) none
  | stop (phase : Phase ρ) (move : Move ρ) (next : Phase ρ) (stopped : next.Over) :
      Acts request row phase move next row none

theorem acts_of_act (h : act request row phase move = some (next, row', done)) :
    Acts request row phase move next row' done := by
  unfold act at h
  split at h
  case h_1 =>
    split at h
    · cases h
    · split at h
      · next previous =>
        cases h
        exact .answer _ _ previous rfl
      · cases h
        exact .checkFree
  case h_2 =>
    split at h
    · cases h
      exact .stop _ _ _ (.inr ⟨_, rfl⟩)
    · cases h
      exact .insert rfl
  case h_3 =>
    cases h
    exact .workDone _
  case h_4 =>
    cases h
    exact .settle _ _ _ (.inl rfl)
  case h_5 =>
    cases h
    exact .settle _ _ _ (.inr rfl)
  case h_6 =>
    split at h
    · cases h
    · split at h
      · cases h
        exact .conflict
      · cases h
        exact .reserve rfl
  case h_7 =>
    split at h
    · next previous =>
      cases h
      exact .answer _ _ previous rfl
    · cases h
      exact .stop _ _ _ (.inr ⟨_, rfl⟩)
  case h_8 =>
    cases h
    exact .take _ _ (.inl rfl)
  case h_9 =>
    cases h
    exact .take _ _ (.inr rfl)
  case h_10 =>
    cases h
    exact .callDone
  case h_11 =>
    cases h
    exact .complete _
  case h_12 =>
    cases h
    exact .finish _ _ _ _ (.inl rfl)
  case h_13 =>
    cases h
    exact .finish _ _ _ _ (.inr rfl)
  case h_14 =>
    cases h
    exact .delete
  case h_15 =>
    cases h
    exact .release _ _ (.inl rfl)
  case h_16 =>
    cases h
    exact .release _ _ (.inr rfl)
  case h_17 =>
    cases h
    exact .fail _ (.inl rfl)
  case h_18 =>
    cases h
    exact .fail _ (.inr (.inl rfl))
  case h_19 =>
    cases h
    exact .fail _ (.inr (.inr ⟨_, _, rfl⟩))
  case h_23 =>
    cases h
    exact .stop _ _ _ (.inr ⟨_, rfl⟩)
  case h_24 =>
    cases h
    exact .stop _ _ _ (.inl rfl)
  all_goals cases h

end Moves

/-! ## What every state keeps -/

/-- What the row of a key is, and the work committed under it, while a request is in a phase. -/
def Agrees (r : R) (requestHash : Text) (row : Option (KeyRow ρ)) (work : List (R × ρ)) : Phase ρ → Prop
  | .working => row = none
  | .settled _ => row = none
  | .inserted => row = none
  | .calling => row = some ⟨requestHash, none⟩
  | .writing => row = some ⟨requestHash, none⟩
  | .completed _ found => found = true ∧ row = some ⟨requestHash, none⟩
  | .failed => row = some ⟨requestHash, none⟩ ∨
      ∃ response, row = some ⟨requestHash, some response⟩ ∧ work = [(r, response)]
  | .releasing found => found = true ∧ row = some ⟨requestHash, none⟩ ∨
      found = false ∧ ∃ response, row = some ⟨requestHash, some response⟩ ∧ work = [(r, response)]
  | .answered response => row = some ⟨requestHash, some response⟩
  | _ => True

/-- A response is stored exactly when work has been committed, and it is that work's. -/
def Recorded (requests : R → Request) (row : Option (KeyRow ρ)) (work : List (R × ρ)) : Prop :=
  match row with
  | some ⟨requestHash, some response⟩ =>
    ∃ r, work = [(r, response)] ∧ (requests r).requestHash = requestHash
  | _ => work = []

/-- No response is stored. -/
def Open (row : Option (KeyRow ρ)) : Prop := ∀ current ∈ row, current.responseSnapshot = none

variable {requests : R → Request} {s t : State R ρ} {r other : R}

structure Inv (requests : R → Request) (s : State R ρ) : Prop where
  agrees : ∀ r, Agrees r (requests r).requestHash (s.rows (requests r).key)
    (s.workOn requests (requests r).key) (s.phase r)
  locks : ∀ r other, other ≠ r → (requests other).key = (requests r).key →
    (s.phase r).locks = true → (s.phase other).locks = false
  owns : ∀ r other, other ≠ r → (requests other).key = (requests r).key →
    (s.phase r).owns = true → (s.phase other).owns = false
  recorded : ∀ k, Recorded requests (s.rows k) (s.workOn requests k)

section Steps

variable {row row' : Option (KeyRow ρ)} {work work' : List (R × ρ)} {phase next : Phase ρ}
  {move : Move ρ} {done : Option ρ} {requestHash : Text}

theorem Agrees.some_of_owns (h : Agrees r requestHash row work phase) (owns : phase.owns = true) :
    row.isSome = true := by
  cases phase <;> simp_all [Phase.owns, Agrees]
  case failed => rcases h with h | ⟨response, h, -⟩ <;> simp [h]
  case releasing => rcases h with ⟨-, h⟩ | ⟨-, response, h, -⟩ <;> simp [h]

/-- A request that has not written or reserved an open key is not concerned. -/
theorem Agrees.of_open (h : Agrees r requestHash row work phase) (locks : phase.locks = false)
    (owns : phase.owns = false) (hopen : Open row) : Agrees r requestHash row' work' phase := by
  cases phase with
  | answered response =>
    rw [show row = some ⟨requestHash, some response⟩ from h] at hopen
    cases hopen _ rfl
  | _ => simp_all [Phase.locks, Phase.owns, Agrees]

theorem agrees_answerFrom {request : Request} {previous : KeyRow ρ} (found : row = some previous) :
    Agrees r request.requestHash row work (answerFrom request.requestHash previous) := by
  unfold answerFrom
  split
  · trivial
  · next hsame =>
    split
    · next response hresponse =>
      obtain ⟨requestHash, responseSnapshot⟩ := previous
      simp_all [Agrees]
    · trivial

theorem agrees_of_over (h : next.Over) : Agrees r requestHash row work next := by
  rcases h with rfl | ⟨refusal, rfl⟩ <;> trivial

theorem not_owns_of_over (h : next.Over) : next.owns = false := by
  rcases h with rfl | ⟨refusal, rfl⟩ <;> rfl

theorem answerFrom_owns {previous : KeyRow ρ} : (answerFrom requestHash previous).owns = false := by
  unfold answerFrom
  split
  · rfl
  · split <;> rfl

/-- What a move does to the row: nothing, or it changes an open row that its request has
written and, unless there was none, reserved. -/
theorem acts_row {request : Request} (h : Acts request row phase move next row' done)
    (agrees : Agrees r request.requestHash row work phase) :
    row' = row ∧ done = none ∨
      Open row ∧ phase.locks = true ∧ (phase.owns = true ∨ row = none) := by
  have hopen : row = some ⟨request.requestHash, none⟩ → Open row := by
    rintro rfl current hcurrent
    cases hcurrent
    rfl
  cases h with
  | settle response =>
    obtain rfl : row = none := agrees
    exact .inr ⟨by simp [Open], rfl, .inr rfl⟩
  | take =>
    obtain rfl : row = none := agrees
    exact .inr ⟨by simp [Open], rfl, .inr rfl⟩
  | finish response found =>
    obtain ⟨rfl, hrow⟩ := agrees
    exact .inr ⟨hopen hrow, rfl, .inl rfl⟩
  | release found =>
    rcases agrees with ⟨rfl, hrow⟩ | ⟨rfl, -⟩
    · exact .inr ⟨hopen hrow, rfl, .inl rfl⟩
    · exact .inl ⟨rfl, rfl⟩
  | _ => exact .inl ⟨rfl, rfl⟩

/-- The only move that removes a row. -/
theorem acts_removes {request : Request} {current : KeyRow ρ}
    (h : Acts request row phase move next row' done)
    (agrees : Agrees r request.requestHash row work phase) (found : row = some current)
    (removed : row' = none) : phase = .releasing true ∧ current.responseSnapshot = none := by
  have same : row' = row → False := by
    rintro rfl
    rw [found] at removed
    cases removed
  cases h with
  | settle => cases removed
  | take => cases removed
  | finish response found =>
    obtain ⟨rfl, hrow⟩ := agrees
    rw [hrow] at removed
    cases removed
  | release found =>
    rcases agrees with ⟨rfl, hrow⟩ | ⟨rfl, -⟩
    · rw [found] at hrow
      cases hrow
      exact ⟨rfl, rfl⟩
    · exact absurd rfl same
  | _ => exact absurd rfl same

/-- A key is reserved by who has it, or where there was none. -/
theorem acts_owns {request : Request} (h : Acts request row phase move next row' done)
    (agrees : Agrees r request.requestHash row work phase) (owns : next.owns = true) :
    phase.owns = true ∨ row = none := by
  cases h with
  | answer phase move previous =>
    rw [answerFrom_owns] at owns
    cases owns
  | settle response move next ends => rcases ends with rfl | rfl <;> cases owns
  | take => exact .inr agrees
  | fail phase owned => rcases owned with rfl | rfl | ⟨response, found, rfl⟩ <;> exact .inl rfl
  | stop phase move next stopped =>
    rw [not_owns_of_over stopped] at owns
    cases owns
  | callDone | complete | finish | delete => exact .inl rfl
  | _ => cases owns

/-- A move keeps what is said of its own request. -/
theorem acts_agrees (h : Acts (requests r) row phase move next row' done)
    (agrees : Agrees r (requests r).requestHash row work phase) (recorded : Recorded requests row work) :
    Agrees r (requests r).requestHash row' (work ++ (done.map (Prod.mk r)).toList) next ∧
      Recorded requests row' (work ++ (done.map (Prod.mk r)).toList) := by
  cases h with
  | answer phase move previous hfound =>
    have hagrees : Agrees r (requests r).requestHash row work
        (answerFrom (requests r).requestHash previous) := agrees_answerFrom hfound
    simpa using And.intro hagrees recorded
  | settle response move next ends =>
    obtain rfl : row = none := agrees
    obtain rfl : work = [] := recorded
    refine ⟨?_, r, rfl, rfl⟩
    rcases ends with rfl | rfl
    · rfl
    · trivial
  | take move next ends =>
    obtain rfl : row = none := agrees
    obtain rfl : work = [] := recorded
    refine ⟨?_, rfl⟩
    rcases ends with rfl | rfl
    · rfl
    · trivial
  | finish response found move next ends =>
    obtain ⟨rfl, rfl⟩ := agrees
    obtain rfl : work = [] := recorded
    refine ⟨?_, r, rfl, rfl⟩
    rcases ends with rfl | rfl
    · rfl
    · exact .inr ⟨response, rfl, rfl⟩
  | fail phase owned =>
    have hrow : row = some ⟨(requests r).requestHash, none⟩ := by
      rcases owned with rfl | rfl | ⟨response, found, rfl⟩
      · exact agrees
      · exact agrees
      · exact agrees.2
    exact ⟨.inl hrow, by simpa using recorded⟩
  | delete =>
    refine ⟨?_, by simpa using recorded⟩
    rcases agrees with rfl | ⟨response, rfl, rfl⟩
    · exact .inl ⟨rfl, rfl⟩
    · exact .inr ⟨rfl, response, rfl, rfl⟩
  | release found =>
    rcases agrees with ⟨rfl, rfl⟩ | ⟨rfl, response, rfl, rfl⟩
    · obtain rfl : work = [] := recorded
      exact ⟨trivial, rfl⟩
    · exact ⟨trivial, by simpa using recorded⟩
  | stop phase move next stopped => exact ⟨agrees_of_over stopped, by simpa using recorded⟩
  | complete response =>
    obtain rfl : row = some ⟨(requests r).requestHash, none⟩ := agrees
    exact ⟨⟨rfl, rfl⟩, by simpa using recorded⟩
  | insert habsent => exact ⟨habsent, by simpa using recorded⟩
  | reserve habsent => exact ⟨habsent, by simpa using recorded⟩
  | workDone response => exact ⟨agrees, by simpa using recorded⟩
  | callDone => exact ⟨agrees, by simpa using recorded⟩
  | _ => exact ⟨trivial, by simpa using recorded⟩

end Steps

section Runs

variable [DecidableEq R] {k : Key} {next : Phase ρ} {row : Option (KeyRow ρ)} {done : Option ρ}
  {move : Move ρ}

theorem workOn_after : (s.after requests r next row done).workOn requests (requests r).key =
    s.workOn requests (requests r).key ++ (done.map (Prod.mk r)).toList := by
  unfold State.workOn State.after
  rw [List.filter_append]
  cases done <;> simp

theorem workOn_after_other (hk : k ≠ (requests r).key) :
    (s.after requests r next row done).workOn requests k = s.workOn requests k := by
  unfold State.workOn State.after
  rw [List.filter_append]
  cases done <;> simp [Ne.symm hk]

theorem rows_after : (s.after requests r next row done).rows (requests r).key = row := by
  simp [State.after]

theorem rows_after_other (hk : k ≠ (requests r).key) :
    (s.after requests r next row done).rows k = s.rows k := by
  simp [State.after, hk]

theorem phase_after : (s.after requests r next row done).phase r = next := by
  simp [State.after]

theorem phase_after_other (hother : other ≠ r) :
    (s.after requests r next row done).phase other = s.phase other := by
  simp [State.after, hother]

theorem Inv.step (h : Inv requests s) (taken : Step requests s (r, move) t) : Inv requests t := by
  cases taken with
  | act _ _ next row done acts free =>
    have hacts := acts_of_act acts
    obtain ⟨hself, hrecorded⟩ := acts_agrees hacts (h.agrees r) (h.recorded _)
    have hrow := acts_row hacts (h.agrees r)
    have hnone : s.rows (requests r).key = none → ∀ other, (requests other).key = (requests r).key →
        (s.phase other).owns = false := by
      intro hnone other hkey
      by_contra howns
      have hsome := (h.agrees other).some_of_owns (by simpa using howns)
      rw [hkey, hnone] at hsome
      cases hsome
    have howns : next.owns = true → ∀ other, other ≠ r → (requests other).key = (requests r).key →
        (s.phase other).owns = false := by
      intro hnext other hother hkey
      rcases acts_owns hacts (h.agrees r) hnext with hbefore | habsent
      · exact h.owns r other hother hkey hbefore
      · exact hnone habsent other hkey
    constructor
    case agrees =>
      intro other
      by_cases hother : other = r
      · subst hother
        rw [rows_after, workOn_after, phase_after]
        exact hself
      · rw [phase_after_other hother]
        by_cases hkey : (requests other).key = (requests r).key
        · have hagrees := h.agrees other
          rw [hkey] at hagrees ⊢
          rw [rows_after, workOn_after]
          rcases hrow with ⟨rfl, rfl⟩ | ⟨hopen, hlocks, hbefore⟩
          · simpa using hagrees
          · refine hagrees.of_open (h.locks r other hother hkey hlocks) ?_ hopen
            exact hbefore.elim (h.owns r other hother hkey) (hnone · other hkey)
        · rw [rows_after_other hkey, workOn_after_other hkey]
          exact h.agrees other
    case locks =>
      intro first second hne hkey hlocks
      by_cases hfirst : first = r
      · subst hfirst
        rw [phase_after] at hlocks
        rw [phase_after_other hne]
        exact free hlocks second hne hkey
      · rw [phase_after_other hfirst] at hlocks
        by_cases hsecond : second = r
        · subst hsecond
          rw [phase_after]
          by_contra hnext
          rw [free (by simpa using hnext) first hfirst hkey.symm] at hlocks
          cases hlocks
        · rw [phase_after_other hsecond]
          exact h.locks first second hne hkey hlocks
    case owns =>
      intro first second hne hkey hfirstOwns
      by_cases hfirst : first = r
      · subst hfirst
        rw [phase_after] at hfirstOwns
        rw [phase_after_other hne]
        exact howns hfirstOwns second hne hkey
      · rw [phase_after_other hfirst] at hfirstOwns
        by_cases hsecond : second = r
        · subst hsecond
          rw [phase_after]
          by_contra hnext
          rw [howns (by simpa using hnext) first hfirst hkey.symm] at hfirstOwns
          cases hfirstOwns
        · rw [phase_after_other hsecond]
          exact h.owns first second hne hkey hfirstOwns
    case recorded =>
      intro k
      by_cases hk : k = (requests r).key
      · subst hk
        rw [rows_after, workOn_after]
        exact hrecorded
      · rw [rows_after_other hk, workOn_after_other hk]
        exact h.recorded k

theorem Inv.initial (h : (system requests).initial s) : Inv requests s := by
  obtain ⟨hrows, hphase, hwork⟩ := h
  constructor
  · intro r
    rw [hphase]
    trivial
  · intro r other _ _ hlocks
    rw [hphase] at hlocks
    cases hlocks
  · intro r other _ _ howns
    rw [hphase] at howns
    cases howns
  · intro k
    rw [hrows]
    simp [Recorded, State.workOn, hwork]

theorem inv_of_reachable (reached : (system requests).Reachable s) : Inv requests s :=
  reached.invariant (fun _ => Inv.initial) fun _ _ _ h taken => h.step taken

omit [DecidableEq R] in
/-- Committed work is the stored response, and the only work of its key. -/
theorem Inv.stored (h : Inv requests s) {worker : R} {response : ρ}
    (hwork : (worker, response) ∈ s.workOn requests k) :
    s.rows k = some ⟨(requests worker).requestHash, some response⟩ ∧
      s.workOn requests k = [(worker, response)] := by
  have hrecorded := h.recorded k
  unfold Recorded at hrecorded
  split at hrecorded
  · next requestHash stored hrow =>
    obtain ⟨r, hlist, hhash⟩ := hrecorded
    rw [hlist, List.mem_singleton] at hwork
    cases hwork
    exact ⟨by rw [hrow, hhash], hlist⟩
  · rw [hrecorded] at hwork
    cases hwork

theorem mem_workOn_step (taken : Step requests s (r, move) t) {entry : R × ρ}
    (hentry : entry ∈ s.workOn requests k) : entry ∈ t.workOn requests k := by
  cases taken with
  | act _ _ next row done acts free =>
    by_cases hk : k = (requests r).key
    · subst hk
      rw [workOn_after]
      exact List.mem_append_left _ hentry
    · rw [workOn_after_other hk]
      exact hentry

theorem Inv.run_stored (h : Inv requests s) {labels : List (R × Move ρ)}
    (run : (system requests).Run s labels t) {worker : R} {response : ρ}
    (hwork : (worker, response) ∈ s.workOn requests k) :
    Inv requests t ∧ (worker, response) ∈ t.workOn requests k := by
  refine run.preserves (I := fun u => Inv requests u ∧ (worker, response) ∈ u.workOn requests k)
    ⟨h, hwork⟩ ?_
  rintro u ⟨r, move⟩ v ⟨hu, hmem⟩ taken
  exact ⟨hu.step taken, mem_workOn_step taken hmem⟩

/-- Only the release of the request that has reserved a key removes its row. -/
theorem Inv.released (h : Inv requests s) (taken : Step requests s (r, move) t)
    {current : KeyRow ρ} (hrow : s.rows k = some current) (hnone : t.rows k = none) :
    (requests r).key = k ∧ s.phase r = .releasing true ∧ current.responseSnapshot = none ∧
      ∀ other, other ≠ r → (requests other).key = k → (s.phase other).owns = false := by
  cases taken with
  | act _ _ next row done acts free =>
    by_cases hk : k = (requests r).key
    · subst hk
      rw [rows_after] at hnone
      obtain ⟨hphase, hopen⟩ := acts_removes (acts_of_act acts) (h.agrees r) hrow hnone
      exact ⟨rfl, hphase, hopen, fun other hother hkey =>
        h.owns r other hother hkey (by rw [hphase]; rfl)⟩
    · rw [rows_after_other hk, hrow] at hnone
      cases hnone

/-- A request whose work was not committed leaves its key free when it is released. -/
theorem Inv.freed (h : Inv requests s) (taken : Step requests s (r, move) t) {found : Bool}
    (hphase : s.phase r = .releasing found) (commits : move = .commit ∨ move = .commitLost)
    (undone : ∀ response, (r, response) ∉ s.work) : t.rows (requests r).key = none := by
  cases taken with
  | act _ _ next row done acts free =>
    rw [rows_after]
    have hagrees := h.agrees r
    rw [hphase] at hagrees acts
    rcases hagrees with ⟨rfl, -⟩ | ⟨-, response, -, hwork⟩
    · rcases commits with rfl | rfl <;> cases acts <;> rfl
    · have hmem : (r, response) ∈ s.workOn requests (requests r).key := by simp [hwork]
      exact absurd (List.mem_filter.mp hmem).1 (undone response)

/-- What the row tells a request with another hash. -/
theorem refused_of_other (taken : Step requests s (r, move) t) {current : KeyRow ρ}
    (hrow : s.rows (requests r).key = some current) (hash : (requests r).requestHash ≠ current.requestHash)
    (asks : move = .check ∨ move = .read) (idle : s.phase r = .idle ∨ s.phase r = .conflicted) :
    t.phase r = .refused .idempotencyKeyReuse := by
  cases taken with
  | act _ _ next row done acts free =>
    rw [phase_after]
    rw [hrow] at acts
    rcases asks with rfl | rfl <;> rcases idle with hidle | hidle <;> rw [hidle] at acts
    · obtain ⟨-, acts⟩ := Option.ite_none_left_eq_some.mp acts
      cases acts
      exact if_pos hash.symm
    · cases acts
    · cases acts
    · cases acts
      exact if_pos hash.symm

/-- Of the requests that share a key, in every order of their moves: the work of at most one
is ever committed; from then on its response is stored, is what every request with its hash is
answered with, and a request with another hash is refused; a release removes the row only for
the request that has reserved it, and leaves the key free. -/
theorem requests_take_effect_once (reached : (system requests).Reachable s) :
    (∀ k, (s.workOn requests k).length ≤ 1) ∧
    (∀ k worker response, (worker, response) ∈ s.workOn requests k →
      ∀ labels t, (system requests).Run s labels t →
        t.rows k = some ⟨(requests worker).requestHash, some response⟩ ∧
        t.workOn requests k = [(worker, response)] ∧
        ∀ r, (requests r).key = k →
          (∀ answer, t.phase r = .answered answer →
            answer = response ∧ (requests r).requestHash = (requests worker).requestHash) ∧
          ((requests r).requestHash ≠ (requests worker).requestHash →
            ∀ move u, Step requests t (r, move) u → move = .check ∨ move = .read →
              t.phase r = .idle ∨ t.phase r = .conflicted →
                u.phase r = .refused .idempotencyKeyReuse)) ∧
    ∀ r move t, Step requests s (r, move) t →
      (∀ k current, s.rows k = some current → t.rows k = none →
        (requests r).key = k ∧ s.phase r = .releasing true ∧ current.responseSnapshot = none ∧
          ∀ other, other ≠ r → (requests other).key = k → (s.phase other).owns = false) ∧
      (∀ found, s.phase r = .releasing found → move = .commit ∨ move = .commitLost →
        (∀ response, (r, response) ∉ s.work) → t.rows (requests r).key = none) := by
  have hinv := inv_of_reachable reached
  refine ⟨fun k => ?_, fun k worker response hwork labels t run => ?_, fun r move t taken => ?_⟩
  · cases hlist : s.workOn requests k with
    | nil => simp
    | cons entry rest =>
      have hmem : entry ∈ s.workOn requests k := by simp [hlist]
      rw [← hlist, (hinv.stored hmem).2]
      simp
  · obtain ⟨hafter, hmem⟩ := hinv.run_stored run hwork
    obtain ⟨hrow, hlist⟩ := hafter.stored hmem
    refine ⟨hrow, hlist, fun r hkey => ⟨fun answer hanswer => ?_, fun hhash move u taken asks idle => ?_⟩⟩
    · have hagrees := hafter.agrees r
      rw [hanswer, hkey] at hagrees
      have hsame := hrow.symm.trans hagrees
      simp only [Option.some.injEq, KeyRow.mk.injEq] at hsame
      exact ⟨hsame.2.symm, hsame.1.symm⟩
    · exact refused_of_other taken (hkey ▸ hrow) hhash asks idle
  · exact ⟨fun k current hrow hnone => hinv.released taken hrow hnone,
      fun found hphase commits undone => hinv.freed taken hphase commits undone⟩

end Runs

/-! ## A request and its retry -/

def collect (_ : Bool) : Request := ⟨⟨[], []⟩, [], .reserveIdempotency⟩

/-- The request collects, and its retry is answered with what was stored. -/
theorem requests_take_effect_once_retried :
    ∃ s : State Bool Nat, s.workOn collect ⟨[], []⟩ = [(true, 7)] ∧ s.phase false = .answered 7 ∧
      ∀ answer, s.phase false = .answered answer → answer = 7 := by
  have only : ∀ {s : State Bool Nat} {r : Bool} {next : Phase Nat}, (s.phase !r).locks = false →
      next.locks = true → ∀ other, other ≠ r → (collect other).key = (collect r).key →
        (s.phase other).locks = false := by
    intro s r next hidle _ other hother _
    rw [Bool.eq_not.mpr hother]
    exact hidle
  have h0 : (system collect).Reachable ⟨fun _ => none, fun _ => (.idle : Phase Nat), []⟩ :=
    .of_initial ⟨fun _ => rfl, fun _ => rfl, rfl⟩
  have h1 := h0.step (.act _ true .reserve .inserted none none rfl (only rfl))
  have h2 := h1.step (.act _ true .commit .calling (some ⟨[], none⟩) none rfl (only rfl))
  have h3 := h2.step (.act _ true .callDone .writing (some ⟨[], none⟩) none rfl (only rfl))
  have h4 := h3.step (.act _ true (.complete 7) (.completed 7 true) (some ⟨[], none⟩) none rfl (only rfl))
  have h5 := h4.step (.act _ true .commit (.answered 7) (some ⟨[], some 7⟩) (some 7) rfl (only rfl))
  have h6 := h5.step (.act _ false .reserve .conflicted (some ⟨[], some 7⟩) none rfl (only rfl))
  have h7 := h6.step (.act _ false .read (.answered 7) (some ⟨[], some 7⟩) none rfl (only rfl))
  have honce := (requests_take_effect_once h7).2.1 ⟨[], []⟩ true 7 (by decide) [] _ (.nil _)
  exact ⟨_, honce.2.1, rfl, fun answer hanswer => ((honce.2.2 false rfl).1 answer hanswer).1⟩

end MpcRegistry.Idempotency

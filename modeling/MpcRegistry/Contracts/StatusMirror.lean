import MpcRegistry.Contracts.StatusReceiver

/-!
# What the status mirror shows over every run

The contract keeps one report per record. `history` is the list of all reports
it accepted for a record; the invariant ties the stored report to its end and
derives the order of any two of them from the guards against the last one.
-/
namespace MpcRegistry.Contracts.StatusReceiver

def acceptedReport (r : Receiver) (states : States) (c : Call) : List Report :=
  match onReport r states c with
  | .ok (next, _) => [next]
  | .error _ => []

/-- The accepted reports of a run, in its order. -/
def accepted (r : Receiver) : States → List Call → List Report
  | _, [] => []
  | states, c :: rest => acceptedReport r states c ++ accepted r (execute r states c) rest

/-- The reports accepted for one record since deployment. -/
def history (r : Receiver) (calls : List Call) (recordId : Bytes32) : List Report :=
  (accepted r deployed calls).filter (·.recordId = recordId)

theorem accepted_snoc (r : Receiver) (states : States) (calls : List Call) (c : Call) :
    accepted r states (calls ++ [c]) =
      accepted r states calls ++ acceptedReport r (executeAll r states calls) c := by
  induction calls generalizing states with
  | nil => simp [accepted, executeAll]
  | cons head tail ih =>
    simp only [List.cons_append, accepted, ih, List.append_assoc]
    rfl

theorem executeAll_snoc (r : Receiver) (states : States) (calls : List Call) (c : Call) :
    executeAll r states (calls ++ [c]) = execute r (executeAll r states calls) c := by
  simp [executeAll, List.foldl_append]

/-- A rejected call changes no record. -/
theorem execute_rejected {r : Receiver} {states : States} {c : Call} {reason : Revert}
    (h : onReport r states c = .error reason) : execute r states c = states := by
  simp [execute, h]

/-- An accepted one stores its report under its own record. -/
theorem execute_accepted {r : Receiver} {states : States} {c : Call} {next : Report}
    {event : Event} (h : onReport r states c = .ok (next, event)) :
    execute r states c = Function.update states next.recordId next := by
  simp [execute, h]

/-- The stored reports are the ends of chains of admitted reports. -/
structure Mirrors (r : Receiver) (log : List Report) (now : Nat) (states : States) : Prop where
  chain : ∀ recordId, (log.filter (·.recordId = recordId)).IsChain Follows
  last : ∀ recordId,
    states recordId = ((log.filter (·.recordId = recordId)).getLast?).getD Report.zero
  admitted : ∀ next ∈ log, ∃ timestamp : BitVec 256, timestamp.toNat ≤ now ∧
    Admitted r timestamp next

theorem deployed_mirrors (r : Receiver) (now : Nat) : Mirrors r [] now deployed where
  chain := fun _ => .nil
  last := fun _ => rfl
  admitted := by simp

/-- Appending an admitted report that follows the stored one. -/
theorem Mirrors.accept {r : Receiver} {log : List Report} {now : Nat} {states : States}
    (inv : Mirrors r log now states) {timestamp : BitVec 256} {next : Report}
    (later : timestamp.toNat ≤ now) (admitted : Admitted r timestamp next)
    (follows : Follows (states next.recordId) next) :
    Mirrors r (log ++ [next]) now (Function.update states next.recordId next) := by
  have own : ∀ recordId, (log ++ [next]).filter (·.recordId = recordId) =
      log.filter (·.recordId = recordId) ++ if next.recordId = recordId then [next] else [] := by
    intro recordId
    rw [List.filter_append]
    by_cases same : next.recordId = recordId <;> simp [same]
  refine ⟨?_, ?_, ?_⟩
  · intro recordId
    rw [own]
    by_cases same : next.recordId = recordId
    · rw [if_pos same, List.isChain_append]
      refine ⟨inv.chain recordId, .singleton next, ?_⟩
      intro previous isLast head isHead
      obtain rfl : next = head := by simpa using isHead
      have stored := inv.last recordId
      rw [Option.mem_def.mp isLast, Option.getD_some] at stored
      rwa [same, stored] at follows
    · rw [if_neg same, List.append_nil]
      exact inv.chain recordId
  · intro recordId
    rw [own]
    by_cases same : next.recordId = recordId
    · subst same
      simp
    · rw [if_neg same, List.append_nil, Function.update_of_ne (Ne.symm same)]
      exact inv.last recordId
  · intro report member
    rcases List.mem_append.mp member with old | new
    · exact inv.admitted report old
    · obtain rfl := List.mem_singleton.mp new
      exact ⟨timestamp, later, admitted⟩

theorem Mirrors.step {r : Receiver} {log : List Report} {now : Nat} {states : States}
    (inv : Mirrors r log now states) (c : Call) (later : c.timestamp.toNat ≤ now) :
    Mirrors r (log ++ acceptedReport r states c) now (execute r states c) := by
  cases h : onReport r states c with
  | error reason =>
    rw [execute_rejected h]
    simpa [acceptedReport, h] using inv
  | ok result =>
    obtain ⟨next, event⟩ := result
    obtain ⟨-, admitted, follows⟩ := onReport_ok h
    rw [execute_accepted h]
    simpa [acceptedReport, h] using inv.accept later admitted follows

theorem mirrors_executeAll (r : Receiver) (now : Nat) (calls : List Call)
    (earlier : ∀ c ∈ calls, c.timestamp.toNat ≤ now) :
    Mirrors r (accepted r deployed calls) now (executeAll r deployed calls) := by
  induction calls using List.reverseRecOn with
  | nil => exact deployed_mirrors r now
  | append_singleton calls c ih =>
    rw [accepted_snoc, executeAll_snoc]
    exact (ih fun c' member => earlier c' (by simp [member])).step c (earlier c (by simp))

/-- A mirror claim about one run: order of the accepted reports, the frame of
one more call, and what a positive answer stands for. -/
structure MirrorOrdered (r : Receiver) (calls : List Call) : Prop where
  ordered : ∀ recordId, (history r calls recordId).Pairwise Follows
  rejected : ∀ c reason, onReport r (executeAll r deployed calls) c = .error reason →
    ∀ recordId, getState (execute r (executeAll r deployed calls) c) recordId =
      getState (executeAll r deployed calls) recordId
  accepted : ∀ c next event, onReport r (executeAll r deployed calls) c = .ok (next, event) →
    ∀ recordId, recordId ≠ next.recordId →
      getState (execute r (executeAll r deployed calls) c) recordId =
        getState (executeAll r deployed calls) recordId
  current : ∀ recordId (t : BitVec 256), (∀ c ∈ calls, c.timestamp.toNat ≤ t.toNat) →
    isCurrent (executeAll r deployed calls) recordId t = true →
      ∃ next, (history r calls recordId).getLast? = some next ∧ next.status = CURRENT ∧
        next.observedAt.toNat ≤ t.toNat ∧
        t.toNat ≤ next.observedAt.toNat + r.maxReportTTL.toNat ∧
        next.chainId = r.chainId ∧ next.receiver = r.self

/-- A positive answer reads a stored report, so a report was accepted. -/
theorem Mirrors.current {r : Receiver} {log : List Report} {states : States} {t : BitVec 256}
    (inv : Mirrors r log t.toNat states) {recordId : Bytes32}
    (h : isCurrent states recordId t = true) :
    ∃ next, (log.filter (·.recordId = recordId)).getLast? = some next ∧ next.status = CURRENT ∧
      next.observedAt.toNat ≤ t.toNat ∧
      t.toNat ≤ next.observedAt.toNat + r.maxReportTTL.toNat ∧
      next.chainId = r.chainId ∧ next.receiver = r.self := by
  simp only [isCurrent, decide_eq_true_eq] at h
  obtain ⟨status, valid⟩ := h
  have stored := inv.last recordId
  cases isLast : (log.filter (·.recordId = recordId)).getLast? with
  | none =>
    rw [stored, isLast, Option.getD_none] at status
    exact absurd status (by decide)
  | some next =>
    rw [isLast, Option.getD_some] at stored
    rw [stored] at status valid
    have member := List.mem_of_getLast? isLast
    obtain ⟨timestamp, earlier, admitted⟩ := inv.admitted next (List.mem_filter.mp member).1
    have observed := admitted.observed
    have lifetime := admitted.lifetime
    exact ⟨next, rfl, status, by omega, by omega, admitted.chainId, admitted.receiver⟩

/-- The mirror keeps its order for every sequence of calls by anyone. -/
theorem status_mirror_ordered (r : Receiver) (calls : List Call) : MirrorOrdered r calls where
  ordered := fun recordId => by
    have bound : ∀ c ∈ calls, c.timestamp.toNat ≤ 2 ^ 256 := fun c _ =>
      Nat.le_of_lt c.timestamp.isLt
    exact ((mirrors_executeAll r (2 ^ 256) calls bound).chain recordId).pairwise
  rejected := fun c reason h recordId => by rw [execute_rejected h]
  accepted := fun c next event h recordId other => by
    rw [execute_accepted h]
    exact Function.update_of_ne other _ _
  current := fun recordId t earlier h => (mirrors_executeAll r t.toNat calls earlier).current h

end MpcRegistry.Contracts.StatusReceiver

import MpcRegistry.Contracts.RegistryAnchor
import MpcRegistry.Library.SuccessorChain

/-!
# Anchored history over every run of RegistryAnchorV1

Design constraints 1-6 of contracts/src/RegistryAnchorV1.sol:14-22 as
invariants of `execute`, from the constructor on. The mapping and the id list
are written separately, so their agreement is part of the invariant. The
existence test is a `uint64` stamp, so every statement is about calls whose
block timestamp is non-zero modulo 2^64.
-/
namespace MpcRegistry.Contracts.RegistryAnchor
open Library

variable {A ρ : Type}

/-- The link a reader follows from a batch. Zero means "not superseded". -/
def successor (s : State A) (batchId : Bytes32) : Option Bytes32 :=
  if (s.batches batchId).supersededBy = 0 then none else some (s.batches batchId).supersededBy

/-- How many listed batches carry a link. -/
def links (s : State A) : Nat :=
  s.batchIds.countP fun batchId => (s.batches batchId).supersededBy ≠ 0

/-- The mapping and the list agree, and nothing stored is blank. -/
structure WellFormed (s : State A) : Prop where
  unique : s.batchIds.Nodup
  listed : ∀ batchId, batchId ∈ s.batchIds ↔ Stored s batchId
  blank : ∀ batchId, ¬ Stored s batchId → s.batches batchId = Batch.zero
  filled : ∀ batchId, Stored s batchId →
    batchId ≠ 0 ∧ (s.batches batchId).root ≠ 0 ∧ (s.batches batchId).recordCount ≠ 0
  linked : ∀ batchId, (s.batches batchId).supersededBy ≠ 0 →
    Stored s (s.batches batchId).supersededBy
  ordered : Nonempty (LinkOrder (successor s) (links s))

theorem successor_eq_some (s : State A) (batchId next : Bytes32) :
    successor s batchId = some next ↔
      (s.batches batchId).supersededBy = next ∧ next ≠ 0 := by
  unfold successor
  split
  next h =>
    simp only [reduceCtorEq, false_iff, not_and, not_not]
    rintro rfl
    exact h
  next h =>
    simp only [Option.some.injEq]
    exact ⟨fun e => ⟨e, e ▸ h⟩, And.left⟩

theorem successor_eq_none (s : State A) (batchId : Bytes32) :
    successor s batchId = none ↔ (s.batches batchId).supersededBy = 0 := by
  unfold successor
  split <;> simp_all

/-- Writing one slot moves at most that slot's link. -/
theorem successor_update (s after : State A) (batchId : Bytes32) (batch : Batch)
    (h : after.batches = Function.update s.batches batchId batch) :
    successor after = Function.update (successor s) batchId
      (if batch.supersededBy = 0 then none else some batch.supersededBy) := by
  funext queried
  by_cases same : queried = batchId
  · subst same
    simp [successor, h]
  · simp [successor, h, Function.update_of_ne same]

/-- A slot keeps its link when the write keeps `supersededBy`. -/
theorem successor_update_same (s after : State A) (batchId : Bytes32) (batch : Batch)
    (h : after.batches = Function.update s.batches batchId batch)
    (same : batch.supersededBy = (s.batches batchId).supersededBy) :
    successor after = successor s := by
  rw [successor_update s after batchId batch h, same]
  exact Function.update_eq_self batchId (successor s)

theorem stored_update (s after : State A) (batchId queried : Bytes32) (batch : Batch)
    (h : after.batches = Function.update s.batches batchId batch) :
    Stored after queried ↔
      if queried = batchId then batch.submittedAt ≠ 0 else Stored s queried := by
  unfold Stored
  rw [h]
  by_cases same : queried = batchId
  · subst same
    simp
  · simp [same]

/-- Keeping the stamp of the written slot keeps what is stored. -/
theorem stored_update_same (s after : State A) (batchId queried : Bytes32) (batch : Batch)
    (h : after.batches = Function.update s.batches batchId batch)
    (same : batch.submittedAt = (s.batches batchId).submittedAt) :
    Stored after queried ↔ Stored s queried := by
  rw [stored_update s after batchId queried batch h]
  split
  · subst queried
    rw [same]
    exact Iff.rfl
  · exact Iff.rfl

private theorem countP_congr_off {α : Type} {p q : α → Bool} {ids : List α}
    (same : ∀ x ∈ ids, q x = p x) : ids.countP q = ids.countP p :=
  List.countP_congr fun x member => by rw [same x member]

/-- One element of a duplicate-free list starts to satisfy the predicate. -/
private theorem countP_single_change {α : Type} {p q : α → Bool} {a : α} {ids : List α}
    (unique : ids.Nodup) (member : a ∈ ids) (before : p a = false) (after : q a = true)
    (others : ∀ x, x ≠ a → q x = p x) : ids.countP q = ids.countP p + 1 := by
  induction ids with
  | nil => simp at member
  | cons head tail ih =>
    have nodup := List.nodup_cons.mp unique
    by_cases equal : head = a
    · subst equal
      have tailSame : tail.countP q = tail.countP p := countP_congr_off fun x belongs =>
        others x fun e => nodup.1 (e ▸ belongs)
      rw [List.countP_cons_of_pos after, List.countP_cons_of_neg (by simp [before]), tailSame]
    · have tailMember : a ∈ tail := by simpa [Ne.symm equal] using member
      have tailEffect := ih nodup.2 tailMember
      rw [List.countP_cons, List.countP_cons, tailEffect, others head equal]
      omega

/-- A call that moves no link and lists only unlinked ids keeps the count. -/
theorem links_eq (s after : State A) (fresh : List Bytes32)
    (listed : after.batchIds = s.batchIds ++ fresh)
    (linkless : ∀ batchId ∈ fresh, (s.batches batchId).supersededBy = 0)
    (same : successor after = successor s) : links after = links s := by
  have slot : ∀ batchId, (after.batches batchId).supersededBy = 0 ↔
      (s.batches batchId).supersededBy = 0 := fun batchId => by
    rw [← successor_eq_none, ← successor_eq_none, same]
  have none : fresh.countP (fun batchId => (after.batches batchId).supersededBy ≠ 0) = 0 := by
    rw [List.countP_eq_zero]
    intro batchId member
    simpa using (slot batchId).mpr (linkless batchId member)
  unfold links
  rw [listed, List.countP_append, none, Nat.add_zero]
  exact countP_congr_off fun batchId _ => decide_eq_decide.mpr (not_congr (slot batchId))

theorem deployed_wellFormed (access : A) : WellFormed (deployed access) where
  unique := List.nodup_nil
  listed := by simp [deployed, Stored, Batch.zero]
  blank := fun _ _ => rfl
  filled := by simp [deployed, Stored, Batch.zero]
  linked := by simp [deployed, Batch.zero]
  ordered := ⟨LinkOrder.empty.congr (by funext b; simp [successor, deployed, Batch.zero])⟩

section Step

variable {s after : State A} {msg : Msg}

/-- Storing a fresh id appends it and starts it without a link. -/
theorem WellFormed.submitted (inv : WellFormed s) {batchId : Bytes32} {batch : Batch}
    (fresh : ¬ Stored s batchId) (nonzero : batchId ≠ 0) (hasRoot : batch.root ≠ 0)
    (hasRecords : batch.recordCount ≠ 0) (stamped : batch.submittedAt ≠ 0)
    (head : batch.supersededBy = 0)
    (batches : after.batches = Function.update s.batches batchId batch)
    (batchIds : after.batchIds = s.batchIds ++ [batchId]) : WellFormed after := by
  have unlisted : batchId ∉ s.batchIds := fun h => fresh ((inv.listed batchId).mp h)
  have unlinked : (s.batches batchId).supersededBy = 0 := by rw [inv.blank batchId fresh]; rfl
  have stored : ∀ queried, Stored after queried ↔ queried = batchId ∨ Stored s queried := by
    intro queried
    rw [stored_update s after batchId queried batch batches]
    split <;> simp_all
  have sameLinks := successor_update_same s after batchId batch batches (head.trans unlinked.symm)
  have count := links_eq s after [batchId] batchIds (by simpa using unlinked) sameLinks
  refine ⟨?_, ?_, ?_, ?_, ?_, ?_⟩
  · rw [batchIds]
    exact List.nodup_append.mpr ⟨inv.unique, by simp, by
      intro x hx y hy e
      simp only [List.mem_singleton] at hy
      exact unlisted (hy ▸ e ▸ hx)⟩
  · intro queried
    rw [stored, batchIds, List.mem_append, List.mem_singleton, inv.listed, or_comm]
  · intro queried absent
    rw [stored, not_or] at absent
    rw [batches, Function.update_of_ne absent.1]
    exact inv.blank queried absent.2
  · intro queried present
    by_cases same : queried = batchId
    · subst same
      rw [batches, Function.update_self]
      exact ⟨nonzero, hasRoot, hasRecords⟩
    · rw [batches, Function.update_of_ne same]
      exact inv.filled queried (((stored queried).mp present).resolve_left same)
  · intro queried hasLink
    by_cases same : queried = batchId
    · subst same
      rw [batches, Function.update_self] at hasLink
      exact absurd head hasLink
    · rw [batches, Function.update_of_ne same] at hasLink ⊢
      exact (stored _).mpr (.inr (inv.linked queried hasLink))
  · rw [count]
    exact inv.ordered.map fun order => order.congr sameLinks

/-- Rewriting a stored slot without its stamp, root, count or link. -/
theorem WellFormed.rewritten (inv : WellFormed s) {batchId : Bytes32} {batch : Batch}
    (batches : after.batches = Function.update s.batches batchId batch)
    (batchIds : after.batchIds = s.batchIds) (stored : Stored s batchId)
    (root : batch.root = (s.batches batchId).root)
    (records : batch.recordCount = (s.batches batchId).recordCount)
    (stamp : batch.submittedAt = (s.batches batchId).submittedAt)
    (target : batch.supersededBy ≠ 0 → Stored s batch.supersededBy)
    (ordered : Nonempty (LinkOrder (successor after) (links after))) : WellFormed after := by
  have kept : ∀ queried, Stored after queried ↔ Stored s queried := fun queried =>
    stored_update_same s after batchId queried batch batches stamp
  refine ⟨batchIds ▸ inv.unique, ?_, ?_, ?_, ?_, ordered⟩
  · intro queried
    rw [kept, batchIds, inv.listed]
  · intro queried absent
    rw [kept] at absent
    have different : queried ≠ batchId := by
      rintro rfl
      exact absent stored
    rw [batches, Function.update_of_ne different]
    exact inv.blank queried absent
  · intro queried present
    have old := inv.filled queried ((kept queried).mp present)
    by_cases same : queried = batchId
    · subst same
      rw [batches, Function.update_self, root, records]
      exact old
    · rwa [batches, Function.update_of_ne same]
  · intro queried hasLink
    by_cases same : queried = batchId
    · subst same
      rw [batches, Function.update_self] at hasLink ⊢
      exact (kept _).mpr (target hasLink)
    · rw [batches, Function.update_of_ne same] at hasLink ⊢
      exact (kept _).mpr (inv.linked queried hasLink)

/-- The new link gets the next number: it starts and ends at unlinked batches. -/
theorem WellFormed.link_ordered (inv : WellFormed s) {batchId newBatchId : Bytes32}
    (different : batchId ≠ newBatchId) (stored : Stored s batchId)
    (head : (s.batches batchId).supersededBy = 0)
    (targetHead : (s.batches newBatchId).supersededBy = 0) (nonzero : newBatchId ≠ 0)
    (batches : after.batches = Function.update s.batches batchId
      { s.batches batchId with supersededBy := newBatchId })
    (batchIds : after.batchIds = s.batchIds) :
    Nonempty (LinkOrder (successor after) (links after)) := by
  obtain ⟨order⟩ := inv.ordered
  have moved : successor after = Function.update (successor s) batchId (some newBatchId) := by
    rw [successor_update s after batchId _ batches, if_neg nonzero]
  have count : links after = links s + 1 := by
    unfold links
    rw [batchIds, batches]
    apply countP_single_change inv.unique ((inv.listed batchId).mpr stored)
    · exact decide_eq_false (not_not.mpr head)
    · rw [Function.update_self]
      exact decide_eq_true nonzero
    · intro queried different
      rw [Function.update_of_ne different]
  rw [count]
  exact ⟨(order.link ((successor_eq_none s batchId).mpr head)
    ((successor_eq_none s newBatchId).mpr targetHead) different).congr moved⟩

/-- One accepted call keeps the invariant, if its timestamp leaves a stamp. -/
theorem WellFormed.change (inv : WellFormed s) {c : Call ρ}
    (stamped : msg.timestamp.setWidth 64 ≠ 0) (h : Change s msg c after) : WellFormed after := by
  cases h with
  | submitted batchId root manifestHash schemaVersion recordCount _ running nonzero fresh hasRoot
      hasRecords batches batchIds =>
    exact inv.submitted fresh nonzero hasRoot hasRecords stamped rfl batches batchIds
  | revoked batchId reasonCode _ running stored standing batches batchIds =>
    have sameLinks := successor_update_same s after batchId _ batches rfl
    have count := links_eq s after [] (by simpa using batchIds) (by simp) sameLinks
    exact inv.rewritten batches batchIds stored rfl rfl rfl (inv.linked batchId)
      (count ▸ inv.ordered.map fun order => order.congr sameLinks)
  | superseded batchId newBatchId _ running different stored head target targetHead batches
      batchIds =>
    exact inv.rewritten batches batchIds stored rfl rfl rfl (fun _ => target)
      (inv.link_ordered different stored head targetHead (inv.filled newBatchId target).1
        batches batchIds)
  | administered _ _ administrative batches batchIds =>
    obtain ⟨unique, listed, blank, filled, linked, ordered⟩ := inv
    have stored : ∀ queried, Stored after queried ↔ Stored s queried := fun queried => by
      unfold Stored
      rw [batches]
    have sameLinks : successor after = successor s := by
      unfold successor
      rw [batches]
    have count : links after = links s := by
      unfold links
      rw [batches, batchIds]
    refine ⟨batchIds ▸ unique, ?_, ?_, ?_, ?_, ?_⟩
    · simpa only [stored, batchIds] using listed
    · simpa only [stored, batches] using blank
    · simpa only [stored, batches] using filled
    · simpa only [stored, batches] using linked
    · rw [count]
      exact ordered.map fun order => order.congr sameLinks

/-- What one accepted call leaves of the history before it. -/
structure Extends (s t : State A) : Prop where
  stored : ∀ batchId, Stored s batchId → Stored t batchId
  root : ∀ batchId, Stored s batchId → (t.batches batchId).root = (s.batches batchId).root
  manifestHash : ∀ batchId, Stored s batchId →
    (t.batches batchId).manifestHash = (s.batches batchId).manifestHash
  recordCount : ∀ batchId, Stored s batchId →
    (t.batches batchId).recordCount = (s.batches batchId).recordCount
  submittedAt : ∀ batchId, Stored s batchId →
    (t.batches batchId).submittedAt = (s.batches batchId).submittedAt
  revoked : ∀ batchId, Stored s batchId →
    (s.batches batchId).revoked = true → (t.batches batchId).revoked = true
  supersededBy : ∀ batchId, Stored s batchId → (s.batches batchId).supersededBy ≠ 0 →
    (t.batches batchId).supersededBy = (s.batches batchId).supersededBy
  batchIds : s.batchIds <+: t.batchIds

theorem Extends.refl (s : State A) : Extends s s where
  stored := fun _ h => h
  root := fun _ _ => rfl
  manifestHash := fun _ _ => rfl
  recordCount := fun _ _ => rfl
  submittedAt := fun _ _ => rfl
  revoked := fun _ _ h => h
  supersededBy := fun _ _ _ => rfl
  batchIds := List.prefix_refl _

theorem Extends.trans {s t u : State A} (h₁ : Extends s t) (h₂ : Extends t u) : Extends s u where
  stored := fun b h => h₂.stored b (h₁.stored b h)
  root := fun b h => (h₂.root b (h₁.stored b h)).trans (h₁.root b h)
  manifestHash := fun b h => (h₂.manifestHash b (h₁.stored b h)).trans (h₁.manifestHash b h)
  recordCount := fun b h => (h₂.recordCount b (h₁.stored b h)).trans (h₁.recordCount b h)
  submittedAt := fun b h => (h₂.submittedAt b (h₁.stored b h)).trans (h₁.submittedAt b h)
  revoked := fun b h r => h₂.revoked b (h₁.stored b h) (h₁.revoked b h r)
  supersededBy := fun b h l => by
    have first := h₁.supersededBy b h l
    rw [h₂.supersededBy b (h₁.stored b h) (first ▸ l), first]
  batchIds := h₁.batchIds.trans h₂.batchIds

/-- A write to one slot extends the history if the slot was blank, or keeps
what it committed to and only adds a revocation or a first link. -/
theorem Extends.update {batchId : Bytes32} {batch : Batch}
    (batches : after.batches = Function.update s.batches batchId batch)
    (batchIds : s.batchIds <+: after.batchIds)
    (kept : Stored s batchId → batch.root = (s.batches batchId).root ∧
      batch.manifestHash = (s.batches batchId).manifestHash ∧
      batch.recordCount = (s.batches batchId).recordCount ∧
      batch.submittedAt = (s.batches batchId).submittedAt ∧
      ((s.batches batchId).revoked = true → batch.revoked = true) ∧
      ((s.batches batchId).supersededBy ≠ 0 →
        batch.supersededBy = (s.batches batchId).supersededBy)) : Extends s after := by
  have slot : ∀ queried, Stored s queried →
      after.batches queried = s.batches queried ∨
        (queried = batchId ∧ after.batches queried = batch) := by
    intro queried _
    by_cases same : queried = batchId
    · exact .inr ⟨same, by rw [same, batches, Function.update_self]⟩
    · exact .inl (by rw [batches, Function.update_of_ne same])
  refine ⟨?_, ?_, ?_, ?_, ?_, ?_, ?_, batchIds⟩
  all_goals
    intro queried stored
    rcases slot queried stored with unchanged | ⟨rfl, written⟩
  · unfold Stored
    rwa [unchanged]
  · obtain ⟨-, -, -, stamp, -, -⟩ := kept stored
    unfold Stored
    rw [written, stamp]
    exact stored
  · rw [unchanged]
  · rw [written, (kept stored).1]
  · rw [unchanged]
  · rw [written, (kept stored).2.1]
  · rw [unchanged]
  · rw [written, (kept stored).2.2.1]
  · rw [unchanged]
  · rw [written, (kept stored).2.2.2.1]
  · rw [unchanged]
    exact id
  · rw [written]
    exact (kept stored).2.2.2.2.1
  · rw [unchanged]
    exact fun _ => rfl
  · rw [written]
    exact (kept stored).2.2.2.2.2

theorem Change.extends {c : Call ρ} (h : Change s msg c after) : Extends s after := by
  cases h with
  | submitted batchId root manifestHash schemaVersion recordCount _ running nonzero fresh hasRoot
      hasRecords batches batchIds =>
    exact Extends.update batches (batchIds ▸ List.prefix_append _ _) fun stored =>
      absurd stored fresh
  | revoked batchId reasonCode _ running stored standing batches batchIds =>
    exact Extends.update batches (batchIds ▸ List.prefix_refl _) fun _ =>
      ⟨rfl, rfl, rfl, rfl, fun _ => rfl, fun _ => rfl⟩
  | superseded batchId newBatchId _ running different stored head target targetHead batches
      batchIds =>
    exact Extends.update batches (batchIds ▸ List.prefix_refl _) fun _ =>
      ⟨rfl, rfl, rfl, rfl, id, fun hasLink => absurd head hasLink⟩
  | administered _ _ administrative batches batchIds =>
    have same : Extends s { after with batches := s.batches, batchIds := s.batchIds } :=
      ⟨fun _ h => h, fun _ _ => rfl, fun _ _ => rfl, fun _ _ => rfl, fun _ _ => rfl,
        fun _ _ h => h, fun _ _ _ => rfl, List.prefix_refl _⟩
    rw [← batches, ← batchIds] at same
    exact same

end Step

section Runs

variable {rules : AccessControl A ρ} {s : State A}

/-- The calls of a run that leave a stamp, as a condition on its steps. -/
theorem stamped_run (s : State A) {txs : List (Tx ρ)} (stamped : ∀ tx ∈ txs, Stamped tx) :
    ((system rules).restrict fun _ tx => Stamped tx).Run s txs (executeAll rules s txs) :=
  (executeAll_run rules s txs).restrict fun tx member _ => stamped tx member

/-- The invariant holds after every run whose stamps are non-zero. -/
theorem WellFormed.executeAll (inv : WellFormed s) {txs : List (Tx ρ)}
    (stamped : ∀ tx ∈ txs, Stamped tx) : WellFormed (executeAll rules s txs) := by
  refine (stamped_run s stamped).preserves inv ?_
  rintro u tx v before ⟨stamp, rfl⟩
  rcases execute_cases rules u tx with ⟨-, change⟩ | ⟨-, unchanged⟩
  · exact before.change stamp change
  · rwa [unchanged]

theorem executeAll_extends (rules : AccessControl A ρ) (s : State A) (txs : List (Tx ρ)) :
    Extends s (executeAll rules s txs) := by
  refine (executeAll_run rules s txs).relates (I := fun _ => True) trivial (fun _ _ _ _ _ => trivial)
    Extends.refl (fun _ _ _ => Extends.trans) ?_
  rintro u tx v - rfl
  rcases execute_cases rules u tx with ⟨-, change⟩ | ⟨-, unchanged⟩
  · exact change.extends
  · rw [unchanged]
    exact Extends.refl u

/-- The id an accepted submission adds; nothing for any other call. -/
def accepted (rules : AccessControl A ρ) (s : State A) (tx : Tx ρ) : List Bytes32 :=
  match call rules s tx.1 tx.2, tx.2 with
  | .ok _, .submitRoot batchId _ _ _ _ => [batchId]
  | _, _ => []

/-- The ids of the accepted `submitRoot` calls of a run, in the run's order. -/
def submissions (rules : AccessControl A ρ) : State A → List (Tx ρ) → List Bytes32
  | _, [] => []
  | s, tx :: rest => accepted rules s tx ++ submissions rules (execute rules s tx) rest

theorem execute_batchIds (rules : AccessControl A ρ) (s : State A) (tx : Tx ρ) :
    (execute rules s tx).batchIds = s.batchIds ++ accepted rules s tx := by
  unfold accepted
  rcases execute_cases rules s tx with ⟨⟨result, ok⟩, change⟩ | ⟨⟨reason, refused⟩, unchanged⟩
  · rw [ok]
    obtain ⟨msg, c⟩ := tx
    cases change with
    | submitted _ _ _ _ _ _ _ _ _ _ _ _ batchIds => exact batchIds
    | revoked _ _ _ _ _ _ _ batchIds => simpa using batchIds
    | superseded _ _ _ _ _ _ _ _ _ _ batchIds => simpa using batchIds
    | administered _ _ administrative _ batchIds =>
      cases c with
      | submitRoot => exact administrative.elim
      | revokeBatch => exact administrative.elim
      | supersedeBatch => exact administrative.elim
      | pause => simpa using batchIds
      | unpause => simpa using batchIds
      | role => simpa using batchIds
  · rw [refused, unchanged]
    simp

theorem executeAll_batchIds (rules : AccessControl A ρ) (txs : List (Tx ρ)) (s : State A) :
    (executeAll rules s txs).batchIds = s.batchIds ++ submissions rules s txs := by
  induction txs generalizing s with
  | nil => simp [executeAll, submissions]
  | cons tx rest ih =>
    have first := execute_batchIds rules s tx
    change (executeAll rules (execute rules s tx) rest).batchIds = _
    rw [ih, first, List.append_assoc]
    rfl

/-- While paused, only pausing, unpausing and role calls get through. -/
theorem paused_frame (paused : s.paused = true) {tx : Tx ρ} (writes : ¬ tx.2.Administrative) :
    (execute rules s tx).batches = s.batches ∧ (execute rules s tx).batchIds = s.batchIds := by
  rcases execute_cases rules s tx with ⟨-, change⟩ | ⟨-, unchanged⟩
  · obtain ⟨msg, c⟩ := tx
    cases change with
    | submitted _ _ _ _ _ _ running => simp [paused] at running
    | revoked _ _ _ running => simp [paused] at running
    | superseded _ _ _ running => simp [paused] at running
    | administered _ _ administrative => exact absurd administrative writes
  · rw [unchanged]
    exact ⟨rfl, rfl⟩

theorem reverted_frame {tx : Tx ρ} {reason : Revert}
    (reverted : call rules s tx.1 tx.2 = .error reason) : execute rules s tx = s := by
  unfold execute
  rw [reverted]

end Runs

theorem links_le_batchCount (s : State A) : links s ≤ batchCount s := List.countP_le_length

/-- Design constraint 6: where following `supersededBy` can lead. -/
structure ChainsEnd (s : State A) : Prop where
  ends : ∀ batchId, Stored s batchId → ∃ steps, steps ≤ batchCount s ∧
    Stored s (follow (successor s) steps batchId) ∧
    (getBatch s (follow (successor s) steps batchId)).supersededBy = 0
  linked : ∀ batchId, (getBatch s batchId).supersededBy ≠ 0 →
    Stored s (getBatch s batchId).supersededBy
  acyclic : ∀ batchId, ¬ Relation.TransGen (fun a b => successor s a = some b) batchId batchId

theorem WellFormed.chainsEnd {s : State A} (inv : WellFormed s) : ChainsEnd s := by
  obtain ⟨order⟩ := inv.ordered
  refine ⟨?_, inv.linked, order.acyclic⟩
  intro batchId stored
  refine ⟨links s, links_le_batchCount s, ?_, ?_⟩
  · apply follow_property _ _ _ stored
    intro a b link
    obtain ⟨rfl, nonzero⟩ := (successor_eq_some s a b).mp link
    exact inv.linked a nonzero
  · exact (successor_eq_none s _).mp (order.chain_ends batchId)

/-- Supersede chains end at a stored head within `batchCount()` steps, after any
calls by anyone in any order. -/
theorem supersede_chains_end (rules : AccessControl A ρ) (access : A) (txs : List (Tx ρ))
    (stamped : ∀ tx ∈ txs, Stamped tx) :
    ChainsEnd (executeAll rules (deployed access) txs) :=
  ((deployed_wellFormed access).executeAll stamped).chainsEnd

/-- Roles held by everyone; role calls always accepted. -/
def openAccess : AccessControl Unit Unit where
  hasRole := fun _ _ _ => true
  roleCall := fun _ _ _ => some ()

/-- Two batches, the first replaced by the second, the second then revoked. -/
def replacement : List (Tx Unit) :=
  [(⟨7, 100⟩, .submitRoot 1 11 21 [49] 3), (⟨7, 101⟩, .submitRoot 2 12 22 [49] 4),
    (⟨7, 102⟩, .supersedeBatch 1 2), (⟨7, 103⟩, .revokeBatch 2 [])]

theorem supersede_chains_end_replacement :
    (∀ tx ∈ replacement, Stamped tx) ∧
      (getBatch (executeAll openAccess (deployed ()) replacement) 1).supersededBy = 2 ∧
      ChainsEnd (executeAll openAccess (deployed ()) replacement) :=
  ⟨by decide, by decide, supersede_chains_end openAccess () replacement (by decide)⟩

/-- Design constraints 1-5 at one reachable state `t`, looked at from an earlier
state `s` of the same run. -/
structure AppendOnly (rules : AccessControl A ρ) (ids : List Bytes32) (s t : State A) : Prop where
  kept : Extends s t
  unique : t.batchIds.Nodup
  listed : ∀ batchId, batchId ∈ t.batchIds ↔ (getBatch t batchId).submittedAt ≠ 0
  ordered : t.batchIds = ids
  reverted : ∀ tx reason, call rules t tx.1 tx.2 = .error reason →
    (execute rules t tx).batches = t.batches ∧ (execute rules t tx).batchIds = t.batchIds
  paused : ∀ tx : Tx ρ, t.paused = true → ¬ tx.2.Administrative →
    (execute rules t tx).batches = t.batches ∧ (execute rules t tx).batchIds = t.batchIds
  filled : ∀ batchId, Stored t batchId →
    batchId ≠ 0 ∧ (getBatch t batchId).root ≠ 0 ∧ (getBatch t batchId).recordCount ≠ 0

/-- What is anchored stays anchored, in submission order, whatever is called by
whom afterwards. -/
theorem anchored_history_append_only (rules : AccessControl A ρ) (access : A)
    (txs more : List (Tx ρ)) (stamped : ∀ tx ∈ txs ++ more, Stamped tx) :
    AppendOnly rules (submissions rules (deployed access) (txs ++ more))
      (executeAll rules (deployed access) txs)
      (executeAll rules (executeAll rules (deployed access) txs) more) := by
  have joined : executeAll rules (executeAll rules (deployed access) txs) more =
      executeAll rules (deployed access) (txs ++ more) := by
    simp [executeAll, List.foldl_append]
  have inv : WellFormed (executeAll rules (deployed access) (txs ++ more)) :=
    (deployed_wellFormed access).executeAll stamped
  have kept := executeAll_extends rules (executeAll rules (deployed access) txs) more
  rw [joined] at kept ⊢
  refine ⟨kept, inv.unique, inv.listed, ?_, ?_, fun _ paused writes => paused_frame paused writes,
    inv.filled⟩
  · simpa [deployed] using executeAll_batchIds rules (txs ++ more) (deployed access)
  · intro tx reason reverted
    rw [reverted_frame reverted]
    exact ⟨rfl, rfl⟩

/-- The replacement run, seen from the state with only its two submissions. -/
theorem anchored_history_append_only_replacement :
    (∀ tx ∈ replacement.take 2 ++ replacement.drop 2, Stamped tx) ∧
      AppendOnly openAccess (submissions openAccess (deployed ()) replacement)
        (executeAll openAccess (deployed ()) (replacement.take 2))
        (executeAll openAccess (executeAll openAccess (deployed ()) (replacement.take 2))
          (replacement.drop 2)) :=
  ⟨by decide, anchored_history_append_only openAccess () (replacement.take 2)
    (replacement.drop 2) (by decide)⟩

end MpcRegistry.Contracts.RegistryAnchor

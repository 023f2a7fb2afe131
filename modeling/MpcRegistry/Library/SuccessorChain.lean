import Mathlib

/-!
# Chains of successors in a partial function

`next : α → Option α` names at most one successor of each node. A `LinkOrder`
numbers the links so that along every chain the numbers grow: the order in
which the links were made is one, as long as each new link starts at a node
without a successor and points at another such node. From the numbering alone,
every chain ends within the number of links and no chain closes.
-/
namespace MpcRegistry.Library

variable {α : Type*}

/-- A numbering of the links by `1..links`, growing along every chain. -/
structure LinkOrder (next : α → Option α) (links : Nat) where
  made : α → Nat
  made_pos : ∀ a b, next a = some b → 0 < made a
  made_le : ∀ a b, next a = some b → made a ≤ links
  made_lt : ∀ a b c, next a = some b → next b = some c → made a < made b

namespace LinkOrder

/-- No links: nothing to number. -/
def empty : LinkOrder (fun _ : α => none) 0 where
  made := fun _ => 0
  made_pos := by simp
  made_le := by simp
  made_lt := by simp

/-- A new link from a head to another head takes the next number. No earlier
number changes. -/
def link [DecidableEq α] {next : α → Option α} {links : Nat} (order : LinkOrder next links)
    {a b : α} (ha : next a = none) (hb : next b = none) (hne : a ≠ b) :
    LinkOrder (Function.update next a (some b)) (links + 1) where
  made := Function.update order.made a (links + 1)
  made_pos := by
    intro x y hx
    by_cases hxa : x = a
    · subst hxa
      simp
    · simp only [Function.update_of_ne hxa] at hx ⊢
      exact order.made_pos x y hx
  made_le := by
    intro x y hx
    by_cases hxa : x = a
    · subst hxa
      simp
    · simp only [Function.update_of_ne hxa] at hx ⊢
      exact Nat.le_succ_of_le (order.made_le x y hx)
  made_lt := by
    intro x y z hx hy
    by_cases hxa : x = a
    · -- the new link points at `b`, which has no successor to continue with
      subst hxa
      simp only [Function.update_self, Option.some.injEq] at hx
      subst hx
      rw [Function.update_of_ne hne.symm, hb] at hy
      cases hy
    · rw [Function.update_of_ne hxa] at hx
      rw [Function.update_of_ne hxa]
      by_cases hya : y = a
      · subst hya
        rw [Function.update_self]
        exact Nat.lt_succ_of_le (order.made_le x _ hx)
      · rw [Function.update_of_ne hya] at hy ⊢
        exact order.made_lt x y z hx hy

/-- The numbering does not look at nodes, only at links. -/
def congr {next next' : α → Option α} {links : Nat} (order : LinkOrder next links)
    (h : next' = next) : LinkOrder next' links := h ▸ order

end LinkOrder

/-- `k` steps along the successors, stopping at a node without one. -/
def follow (next : α → Option α) : Nat → α → α
  | 0, a => a
  | k + 1, a => match next a with
    | none => a
    | some b => follow next k b

theorem follow_head {next : α → Option α} {a : α} (h : next a = none) (k : Nat) :
    follow next k a = a := by
  cases k <;> simp [follow, h]

theorem follow_succ {next : α → Option α} {a b : α} (h : next a = some b) (k : Nat) :
    follow next (k + 1) a = follow next k b := by
  simp [follow, h]

/-- What holds at the start and at the target of every link holds all along. -/
theorem follow_property {next : α → Option α} {P : α → Prop}
    (target : ∀ a b, next a = some b → P b) :
    ∀ (k : Nat) (a : α), P a → P (follow next k a)
  | 0, _, ha => ha
  | k + 1, a, ha => by
    cases h : next a with
    | none => rwa [follow_head h]
    | some b =>
      rw [follow_succ h]
      exact follow_property target k b (target a b h)

/-- The chain from a linked node ends within the links made since its own. -/
theorem LinkOrder.follow_ends {next : α → Option α} {links : Nat} (order : LinkOrder next links) :
    ∀ (k : Nat) (a : α), (∀ b, next a = some b → links < k + order.made a) →
      next (follow next k a) = none
  | 0, a, hk => by
    cases h : next a with
    | none => simpa [follow] using h
    | some b =>
      have := hk b h
      have := order.made_le a b h
      omega
  | k + 1, a, hk => by
    cases h : next a with
    | none => rwa [follow_head h]
    | some b =>
      rw [follow_succ h]
      apply LinkOrder.follow_ends order k b
      intro c hc
      have := hk b h
      have := order.made_lt a b c h hc
      omega

/-- Every chain ends within as many steps as there are links. -/
theorem LinkOrder.chain_ends {next : α → Option α} {links : Nat} (order : LinkOrder next links)
    (a : α) : next (follow next links a) = none := by
  apply order.follow_ends
  intro b hb
  have := order.made_pos a b hb
  omega

/-- Along a chain of links the numbers grow strictly up to the last link. -/
theorem LinkOrder.made_lt_of_chain {next : α → Option α} {links : Nat}
    (order : LinkOrder next links) {a b c : α}
    (chain : Relation.TransGen (fun x y => next x = some y) a b) (hc : next b = some c) :
    order.made a < order.made b := by
  induction chain generalizing c with
  | single h => exact order.made_lt _ _ _ h hc
  | tail _ last ih => exact Nat.lt_trans (ih last) (order.made_lt _ _ _ last hc)

/-- No chain of links returns to its start. -/
theorem LinkOrder.acyclic {next : α → Option α} {links : Nat} (order : LinkOrder next links)
    (a : α) : ¬ Relation.TransGen (fun x y => next x = some y) a a := by
  intro cycle
  obtain ⟨b, hb, _⟩ := Relation.TransGen.head'_iff.mp cycle
  exact Nat.lt_irrefl _ (order.made_lt_of_chain cycle hb)

end MpcRegistry.Library

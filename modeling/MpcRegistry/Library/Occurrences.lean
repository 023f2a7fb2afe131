import Mathlib

/-!
# Where a list stands in another, and lists with their gaps squeezed

The first occurrence of a list depends on nothing behind it. Squeezing runs of a list into single
separators makes no occurrence of a list without separators that was not there before.
-/
namespace MpcRegistry.Library

variable {α : Type}

/-- The first position at which `pattern` stands. -/
def indexOf [DecidableEq α] (pattern : List α) : List α → Option Nat
  | [] => if pattern = [] then some 0 else none
  | a :: rest => if pattern <+: a :: rest then some 0 else (indexOf pattern rest).map (· + 1)

/-- `pattern` stands at no position of `xs`, with `rest` behind `xs`. -/
def Absent (pattern xs rest : List α) : Prop :=
  ∀ m < xs.length, ¬ pattern <+: (xs ++ rest).drop m

section Occurrences

variable {pattern xs ys rest : List α}

theorem absent_cons {a : α} : Absent pattern (a :: xs) rest ↔
    ¬ pattern <+: a :: (xs ++ rest) ∧ Absent pattern xs rest := by
  constructor
  · intro h
    refine ⟨h 0 (Nat.succ_pos _), fun m hm => ?_⟩
    exact h (m + 1) (Nat.succ_lt_succ hm)
  · rintro ⟨hfirst, hrest⟩ m hm
    cases m with
    | zero => exact hfirst
    | succ m => exact hrest m (Nat.lt_of_succ_lt_succ hm)

theorem indexOf_append_of_absent [DecidableEq α] (h : Absent pattern xs (pattern ++ rest)) :
    indexOf pattern (xs ++ (pattern ++ rest)) = some xs.length := by
  induction xs with
  | nil =>
    cases hpattern : pattern ++ rest with
    | nil => simp [indexOf, (List.append_eq_nil_iff.mp hpattern).1]
    | cons a tail =>
      have hstarts : pattern <+: a :: tail := hpattern ▸ List.prefix_append _ _
      simp [indexOf, hstarts]
  | cons a xs ih =>
    obtain ⟨hfirst, hxs⟩ := absent_cons.mp h
    simp [indexOf, hfirst, ih hxs]

theorem indexOf_eq_some [DecidableEq α] {n : Nat} (h : indexOf pattern ys = some n) :
    ∃ xs rest, ys = xs ++ (pattern ++ rest) ∧ xs.length = n ∧
      Absent pattern xs (pattern ++ rest) := by
  induction ys generalizing n with
  | nil =>
    unfold indexOf at h
    split at h
    · next hnil => exact ⟨[], [], by simp [hnil], by simpa using h, fun m hm => by simp at hm⟩
    · cases h
  | cons a ys ih =>
    unfold indexOf at h
    split at h
    · next hstarts =>
      obtain ⟨rest, hrest⟩ := hstarts
      exact ⟨[], rest, hrest.symm, by simpa using h, fun m hm => by simp at hm⟩
    · next hfirst =>
      obtain ⟨m, hm, rfl⟩ := Option.map_eq_some_iff.mp h
      obtain ⟨xs, rest, rfl, hlength, habsent⟩ := ih hm
      exact ⟨a :: xs, rest, rfl, by simp [hlength], absent_cons.mpr ⟨hfirst, habsent⟩⟩

theorem indexOf_eq_none_iff [DecidableEq α] (hne : pattern ≠ []) :
    indexOf pattern xs = none ↔ Absent pattern xs [] := by
  induction xs with
  | nil => simp [indexOf, hne, Absent]
  | cons a xs ih =>
    rw [absent_cons, ← ih, List.append_nil]
    by_cases hstarts : pattern <+: a :: xs <;> simp [indexOf, hstarts]

theorem indexOf_singleton [DecidableEq α] (a : α) (xs : List α) :
    (indexOf [a] xs).getD xs.length = (xs.takeWhile (· ≠ a)).length := by
  induction xs with
  | nil => rfl
  | cons b xs ih =>
    by_cases hb : b = a
    · subst hb
      simp [indexOf]
    · have hstarts : ¬ [a] <+: b :: xs := by
        rw [List.cons_prefix_cons]
        exact fun h => hb h.1.symm
      rw [indexOf, if_neg hstarts, List.takeWhile_cons_of_pos (by simpa using hb), List.length_cons,
        List.length_cons, ← ih]
      cases indexOf [a] xs <;> rfl

/-- Up to the end of the first occurrence, nothing behind it counts. -/
theorem Absent.swap (h : Absent pattern xs (pattern ++ rest)) (rest' : List α) :
    Absent pattern xs (pattern ++ rest') := by
  intro m hm hstarts
  have hlong : pattern.length ≤ ((xs ++ pattern).drop m).length := by
    rw [List.length_drop, List.length_append]
    omega
  have hdrop : ∀ tail : List α,
      (xs ++ (pattern ++ tail)).drop m = (xs ++ pattern).drop m ++ tail := by
    intro tail
    rw [← List.append_assoc, List.drop_append_of_le_length (by simp; omega)]
  rw [hdrop, List.isPrefix_append_of_length hlong] at hstarts
  exact h m hm (by rwa [hdrop, List.isPrefix_append_of_length hlong])

end Occurrences

/-! ## Squeezed lists -/

/-- The second list is the first one with runs of units as single separators. The flag says that a
separator stands right before; then more units may be left out. -/
inductive Squeezed (space : α) : Bool → List α → List α → Prop
  | nil (b : Bool) : Squeezed space b [] []
  | keep {b c : Bool} {a : α} {xs ys : List α} :
      (c = true → a = space) → Squeezed space c xs ys → Squeezed space b (a :: xs) (a :: ys)
  | gap {b : Bool} {a : α} {xs ys : List α} :
      Squeezed space true xs ys → Squeezed space b (a :: xs) (space :: ys)
  | skip {a : α} {xs ys : List α} : Squeezed space true xs ys → Squeezed space true (a :: xs) ys

namespace Squeezed

variable {space : α} {b : Bool} {xs ys pattern : List α}

theorem append {xs' ys' : List α} (h : Squeezed space b xs ys)
    (hrest : ∀ c, Squeezed space c xs' ys') : Squeezed space b (xs ++ xs') (ys ++ ys') := by
  induction h with
  | nil b => exact hrest b
  | keep hflag _ ih => exact .keep hflag ih
  | gap _ ih => exact .gap ih
  | skip _ ih => exact .skip ih

/-- A list that is kept as it is, before a separator or the end of the list. -/
theorem keepAll (kept : List α) (h : Squeezed space false xs ys) (hne : kept ≠ []) :
    Squeezed space b (kept ++ xs) (kept ++ ys) := by
  induction kept generalizing b with
  | nil => exact absurd rfl hne
  | cons a kept ih =>
    cases kept with
    | nil => exact .keep (by simp) h
    | cons a' kept => exact .keep (c := false) (by simp) (ih (by simp))

theorem skipAll (skipped : List α) (h : Squeezed space true xs ys) :
    Squeezed space true (skipped ++ xs) ys := by
  induction skipped with
  | nil => exact h
  | cons a skipped ih => exact .skip ih

theorem gapAll {skipped : List α} (h : Squeezed space true xs ys) (hne : skipped ≠ []) :
    Squeezed space b (skipped ++ xs) (space :: ys) := by
  cases skipped with
  | nil => exact absurd rfl hne
  | cons a skipped => exact .gap (skipAll skipped h)

theorem head (h : Squeezed space false xs ys) :
    ys.head? = xs.head? ∨ ys.head? = some space := by
  cases h with
  | nil => exact .inl rfl
  | keep _ _ => exact .inl rfl
  | gap _ => exact .inr rfl

/-- What starts the squeezed list started the list, if no separator is in it. -/
theorem isPrefix (h : Squeezed space false xs ys) (hspace : space ∉ pattern) {rest : List α}
    (hstarts : pattern <+: ys ++ rest) : pattern <+: xs ++ rest := by
  induction pattern generalizing xs ys with
  | nil => exact List.nil_prefix
  | cons a pattern ih =>
    rw [List.mem_cons, not_or] at hspace
    cases h with
    | nil => exact hstarts
    | @keep _ c _ xs ys hflag h =>
      rw [List.cons_append, List.cons_prefix_cons] at hstarts
      obtain ⟨rfl, htail⟩ := hstarts
      have hc : c = false := by
        cases c with
        | false => rfl
        | true => exact absurd (hflag rfl).symm hspace.1
      subst hc
      rw [List.cons_append, List.cons_prefix_cons]
      exact ⟨rfl, ih h hspace.2 htail⟩
    | gap h =>
      rw [List.cons_append, List.cons_prefix_cons] at hstarts
      exact absurd hstarts.1.symm hspace.1

/-- Squeezing makes no occurrence of a list without separators. -/
theorem absent (h : Squeezed space b xs ys) (hne : pattern ≠ []) (hspace : space ∉ pattern)
    {rest : List α} (habsent : Absent pattern xs rest) : Absent pattern ys rest := by
  induction h with
  | nil => exact habsent
  | @keep _ c a xs ys hflag h ih =>
    obtain ⟨hfirst, hxs⟩ := absent_cons.mp habsent
    refine absent_cons.mpr ⟨fun hstarts => hfirst ?_, ih hxs⟩
    cases pattern with
    | nil => exact absurd rfl hne
    | cons p pattern =>
      rw [List.cons_prefix_cons] at hstarts
      obtain ⟨rfl, htail⟩ := hstarts
      rw [List.mem_cons, not_or] at hspace
      cases c with
      | false => exact List.cons_prefix_cons.mpr ⟨rfl, h.isPrefix hspace.2 htail⟩
      | true => exact absurd (hflag rfl).symm hspace.1
  | gap h ih =>
    obtain ⟨-, hxs⟩ := absent_cons.mp habsent
    refine absent_cons.mpr ⟨fun hstarts => ?_, ih hxs⟩
    cases pattern with
    | nil => exact hne rfl
    | cons p pattern =>
      rw [List.cons_prefix_cons] at hstarts
      exact hspace (hstarts.1 ▸ List.mem_cons_self)
  | skip h ih => exact ih (absent_cons.mp habsent).2

end Squeezed

end MpcRegistry.Library

import MpcRegistry.Ecma.BigInt

/-!
# Trimmed texts
-/
namespace MpcRegistry.Ecma
open Library Canonical

/-- Nothing but white space. -/
def Blank (text : Text) : Prop := ∀ u ∈ text, isWhiteSpace u = true

section Trim

variable {a b text : Text} {u : CodeUnit}

theorem rdropWhile_eq (text : Text) :
    text.rdropWhile isWhiteSpace = (text.reverse.dropWhile isWhiteSpace).reverse := rfl

theorem dropWhile_append_blank (h : Blank a) :
    (a ++ b).dropWhile isWhiteSpace = b.dropWhile isWhiteSpace := by
  induction a with
  | nil => rfl
  | cons u a ih =>
    rw [List.cons_append, List.dropWhile_cons_of_pos (h u List.mem_cons_self)]
    exact ih fun v hv => h v (List.mem_cons_of_mem _ hv)

/-- What follows a visible unit stays. -/
theorem dropWhile_append_visible (h : ¬ Blank a) :
    (a ++ b).dropWhile isWhiteSpace = a.dropWhile isWhiteSpace ++ b := by
  induction a with
  | nil => exact absurd (fun u hu => absurd hu List.not_mem_nil) h
  | cons u a ih =>
    cases hu : isWhiteSpace u with
    | true =>
      rw [List.cons_append, List.dropWhile_cons_of_pos hu, List.dropWhile_cons_of_pos hu]
      refine ih fun hblank => h fun v hv => ?_
      rcases List.mem_cons.mp hv with rfl | hv
      · exact hu
      · exact hblank v hv
    | false =>
      have hneg : ¬ isWhiteSpace u = true := by simp [hu]
      rw [List.cons_append, List.dropWhile_cons_of_neg hneg, List.dropWhile_cons_of_neg hneg,
        List.cons_append]

theorem blank_reverse : Blank text.reverse ↔ Blank text := by
  simp [Blank]

theorem rdropWhile_append_blank (h : Blank b) :
    (a ++ b).rdropWhile isWhiteSpace = a.rdropWhile isWhiteSpace := by
  rw [rdropWhile_eq, List.reverse_append, dropWhile_append_blank (blank_reverse.mpr h)]
  rfl

theorem rdropWhile_append_visible (h : ¬ Blank b) :
    (a ++ b).rdropWhile isWhiteSpace = a ++ b.rdropWhile isWhiteSpace := by
  rw [rdropWhile_eq, List.reverse_append,
    dropWhile_append_visible fun hblank => h (blank_reverse.mp hblank), List.reverse_append,
    List.reverse_reverse]
  rfl

theorem trim_blank (h : Blank text) : trim text = [] := by
  have hfront : text.dropWhile isWhiteSpace = [] := by
    simpa using dropWhile_append_blank (b := []) h
  rw [trim, hfront]
  rfl

/-- White space at the end makes no difference. -/
theorem trim_append_blank (h : Blank b) : trim (a ++ b) = trim a := by
  by_cases ha : Blank a
  · have hboth : Blank (a ++ b) := fun u hu => (List.mem_append.mp hu).elim (ha u) (h u)
    rw [trim_blank hboth, trim_blank ha]
  · rw [trim, dropWhile_append_visible ha, rdropWhile_append_blank h]
    rfl

theorem blank_of_dropWhile (h : Blank (text.dropWhile isWhiteSpace)) : Blank text := by
  intro u hu
  rw [← List.takeWhile_append_dropWhile (p := isWhiteSpace) (l := text), List.mem_append] at hu
  rcases hu with hu | hu
  · exact List.mem_takeWhile_imp hu
  · exact h u hu

theorem trim_eq_nil_iff : trim text = [] ↔ Blank text := by
  constructor
  · intro h
    rw [trim, rdropWhile_eq, List.reverse_eq_nil_iff, List.dropWhile_eq_nil_iff] at h
    exact blank_of_dropWhile (blank_reverse.mp h)
  · exact trim_blank

/-- A unit between visible ones stays. -/
theorem mem_trim_between (ha : ¬ Blank a) (hb : ¬ Blank b) : u ∈ trim (a ++ u :: b) := by
  have hrest : ¬ Blank (u :: b) := fun h => hb fun v hv => h v (List.mem_cons_of_mem _ hv)
  rw [trim, dropWhile_append_visible ha, rdropWhile_append_visible hrest,
    ← List.singleton_append, rdropWhile_append_visible hb]
  simp

theorem mem_of_mem_trim (h : u ∈ trim text) : u ∈ text := by
  rw [trim, rdropWhile_eq, List.mem_reverse] at h
  have hfront := (List.dropWhile_sublist _).subset h
  rw [List.mem_reverse] at hfront
  exact (List.dropWhile_sublist _).subset hfront

end Trim

end MpcRegistry.Ecma

import Mathlib

/-!
# Keyed tables

A database table as its rows in insertion order, no two of them with the same
key. The statements offered are the ones SQL gives: insertion that does nothing
on a conflicting key, an update of the selected rows that leaves keys alone,
lookup by key, and sums over the selected rows.
-/
namespace MpcRegistry.Library

/-- Rows whose keys are pairwise distinct. -/
structure Table {ρ κ : Type} (key : ρ → κ) where
  rows : List ρ
  distinct : (rows.map key).Nodup

namespace Table

variable {ρ κ : Type} {key : ρ → κ}

instance : Membership ρ (Table key) where
  mem t r := r ∈ t.rows

instance [DecidableEq ρ] (r : ρ) (t : Table key) : Decidable (r ∈ t) :=
  inferInstanceAs (Decidable (r ∈ t.rows))

theorem mem_rows {t : Table key} {r : ρ} : r ∈ t.rows ↔ r ∈ t := Iff.rfl

def empty : Table key := ⟨[], List.nodup_nil⟩

theorem not_mem_empty (r : ρ) : r ∉ (empty : Table key) := List.not_mem_nil

/-- Two rows of a table with the same key are the same row. -/
theorem eq_of_key {t : Table key} {r s : ρ} (hr : r ∈ t) (hs : s ∈ t) (h : key r = key s) :
    r = s :=
  List.inj_on_of_nodup_map t.distinct hr hs h

section Insert

variable [DecidableEq κ]

/-- `INSERT … ON CONFLICT DO NOTHING`. -/
def insertIfAbsent (t : Table key) (r : ρ) : Table key :=
  if absent : key r ∈ t.rows.map key then t
  else ⟨t.rows ++ [r], by
    rw [List.map_append, List.nodup_append]
    refine ⟨t.distinct, List.nodup_singleton _, ?_⟩
    intro k present k' added same
    rw [List.map_singleton, List.mem_singleton] at added
    exact absent (added ▸ same ▸ present)⟩

theorem mem_insertIfAbsent {t : Table key} {r s : ρ} :
    s ∈ t.insertIfAbsent r ↔ s ∈ t ∨ s = r ∧ ∀ q ∈ t, key q ≠ key r := by
  unfold insertIfAbsent
  split
  next conflict =>
    obtain ⟨q, hq, same⟩ := List.mem_map.mp conflict
    constructor
    · exact Or.inl
    · rintro (h | ⟨-, fresh⟩)
      · exact h
      · exact absurd same (fresh q hq)
  next absent =>
    have fresh : ∀ q ∈ t, key q ≠ key r := fun q hq same =>
      absent (List.mem_map.mpr ⟨q, hq, same⟩)
    rw [← mem_rows, List.mem_append, List.mem_singleton, mem_rows]
    simp only [and_iff_left fresh]

theorem mem_insertIfAbsent_of_mem {t : Table key} {r s : ρ} (h : s ∈ t) :
    s ∈ t.insertIfAbsent r :=
  mem_insertIfAbsent.mpr (Or.inl h)

theorem insertIfAbsent_of_taken {t : Table key} {r : ρ} (taken : ∃ q ∈ t, key q = key r) :
    t.insertIfAbsent r = t :=
  dif_pos (List.mem_map.mpr taken)

theorem rows_insertIfAbsent_of_fresh {t : Table key} {r : ρ} (fresh : ∀ q ∈ t, key q ≠ key r) :
    (t.insertIfAbsent r).rows = t.rows ++ [r] := by
  unfold insertIfAbsent
  rw [dif_neg fun taken => ?_]
  obtain ⟨q, hq, same⟩ := List.mem_map.mp taken
  exact fresh q hq same

/-- The insertion of another row leaves a selection as it is. -/
theorem filter_insertIfAbsent_of_not {t : Table key} {r : ρ} {p : ρ → Bool} (other : p r = false) :
    (t.insertIfAbsent r).rows.filter p = t.rows.filter p := by
  unfold insertIfAbsent
  split
  · rfl
  · simp [List.filter_append, other]

/-- Rows of new and different keys are all added, in their order. -/
theorem rows_foldl_insertIfAbsent {t : Table key} {rows : List ρ}
    (fresh : ∀ q ∈ t, ∀ r ∈ rows, key q ≠ key r) (apart : (rows.map key).Nodup) :
    (rows.foldl (fun t row => t.insertIfAbsent row) t).rows = t.rows ++ rows := by
  induction rows generalizing t with
  | nil => simp
  | cons row rows ih =>
    have hrow : ∀ q ∈ t, key q ≠ key row := fun q hq => fresh q hq row List.mem_cons_self
    rw [List.map_cons, List.nodup_cons] at apart
    rw [List.foldl_cons, ih ?_ apart.2, rows_insertIfAbsent_of_fresh hrow, List.append_assoc]
    · rfl
    · intro q hq r hr
      rcases mem_insertIfAbsent.mp hq with hq | ⟨rfl, -⟩
      · exact fresh q hq r (List.mem_cons_of_mem _ hr)
      · intro heq
        rw [heq] at apart
        exact apart.1 (List.mem_map_of_mem hr)

theorem mem_of_mem_foldl_insertIfAbsent {t : Table key} {rows : List ρ} {r : ρ}
    (h : r ∈ rows.foldl (fun t row => t.insertIfAbsent row) t) : r ∈ t ∨ r ∈ rows := by
  induction rows generalizing t with
  | nil => exact .inl h
  | cons row rows ih =>
    rcases ih h with h | h
    · rcases mem_insertIfAbsent.mp h with h | ⟨rfl, -⟩
      · exact .inl h
      · exact .inr List.mem_cons_self
    · exact .inr (List.mem_cons_of_mem _ h)

/-- After the insertion the key is taken, by the new row or an older one. -/
theorem exists_key_insertIfAbsent (t : Table key) (r : ρ) :
    ∃ s ∈ t.insertIfAbsent r, key s = key r := by
  by_cases taken : ∃ q ∈ t, key q = key r
  · obtain ⟨q, hq, same⟩ := taken
    exact ⟨q, mem_insertIfAbsent_of_mem hq, same⟩
  · exact ⟨r, mem_insertIfAbsent.mpr (Or.inr ⟨rfl, fun q hq same => taken ⟨q, hq, same⟩⟩), rfl⟩

/-- The row with a key, if the table has one. -/
def lookup (t : Table key) (k : κ) : Option ρ := t.rows.find? fun r => key r = k

theorem lookup_eq_some {t : Table key} {k : κ} {r : ρ} :
    t.lookup k = some r ↔ r ∈ t ∧ key r = k := by
  constructor
  · intro found
    exact ⟨List.mem_of_find?_eq_some found, by simpa using List.find?_some found⟩
  · rintro ⟨present, rfl⟩
    cases found : t.lookup (key r) with
    | none =>
      rw [lookup, List.find?_eq_none] at found
      exact absurd (decide_eq_true rfl) (found r present)
    | some s =>
      have same : key s = key r := by simpa using List.find?_some found
      rw [eq_of_key (List.mem_of_find?_eq_some found) present same]

theorem mem_iff_lookup {t : Table key} {r : ρ} : r ∈ t ↔ t.lookup (key r) = some r := by
  rw [lookup_eq_some, and_iff_left rfl]

theorem lookup_isSome_iff {t : Table key} {k : κ} : (t.lookup k).isSome ↔ ∃ r ∈ t, key r = k := by
  rw [Option.isSome_iff_exists]
  simp only [lookup_eq_some]

theorem lookup_insertIfAbsent (t : Table key) (r : ρ) (k : κ) :
    (t.insertIfAbsent r).lookup k = (t.lookup k).or (if key r = k then some r else none) := by
  by_cases taken : ∃ q ∈ t, key q = key r
  · rw [insertIfAbsent_of_taken taken]
    split
    next same =>
      obtain ⟨q, hq, hkey⟩ := taken
      rw [lookup_eq_some.mpr ⟨hq, hkey.trans same⟩]
      rfl
    next => rw [Option.or_none]
  · have fresh : ∀ q ∈ t, key q ≠ key r := fun q hq same => taken ⟨q, hq, same⟩
    unfold lookup
    rw [rows_insertIfAbsent_of_fresh fresh, List.find?_append]
    congr 1
    by_cases same : key r = k <;> simp [same]

/-- Of what is inserted in order under a key, the first counts, and none if the key is taken. -/
theorem lookup_foldl_insertIfAbsent (t : Table key) (rows : List ρ) (k : κ) :
    (rows.foldl (fun t row => t.insertIfAbsent row) t).lookup k =
      (t.lookup k).or (rows.find? fun r => key r = k) := by
  induction rows generalizing t with
  | nil => rw [List.foldl_nil, List.find?_nil, Option.or_none]
  | cons row rows ih =>
    rw [List.foldl_cons, ih, lookup_insertIfAbsent, Option.or_assoc, List.find?_cons]
    by_cases same : key row = k <;> simp [same]

end Insert

section Update

/-- `UPDATE … SET … WHERE`, for a change that leaves the key columns alone. -/
def update (t : Table key) (selected : ρ → Bool) (change : ρ → ρ)
    (keeps : ∀ r, key (change r) = key r) : Table key :=
  ⟨t.rows.map fun r => if selected r then change r else r, by
    have same : key ∘ (fun r => if selected r then change r else r) = key := by
      funext r
      simp only [Function.comp]
      split
      · exact keeps r
      · rfl
    rw [List.map_map, same]
    exact t.distinct⟩

variable {t : Table key} {selected : ρ → Bool} {change : ρ → ρ}
  (keeps : ∀ r, key (change r) = key r) {r s : ρ}

theorem mem_update :
    s ∈ t.update selected change keeps ↔
      ∃ r ∈ t, (if selected r then change r else r) = s :=
  List.mem_map

theorem mem_update_of_mem (h : r ∈ t) :
    (if selected r then change r else r) ∈ t.update selected change keeps :=
  (mem_update keeps).mpr ⟨r, h, rfl⟩

/-- Every row of the updated table comes from one with the same key. -/
theorem exists_of_mem_update (h : s ∈ t.update selected change keeps) :
    ∃ r ∈ t, key r = key s ∧ (s = r ∨ selected r = true ∧ s = change r) := by
  obtain ⟨r, hr, rfl⟩ := (mem_update keeps).mp h
  split
  next chosen => exact ⟨r, hr, (keeps r).symm, Or.inr ⟨chosen, rfl⟩⟩
  next => exact ⟨r, hr, rfl, Or.inl rfl⟩

/-- The row of a key after an update, by the row before it. -/
theorem eq_of_mem_update (hr : r ∈ t) (hs : s ∈ t.update selected change keeps)
    (hkey : key s = key r) : s = if selected r then change r else r := by
  refine eq_of_key hs (mem_update_of_mem keeps hr) (hkey.trans ?_)
  split
  · exact (keeps r).symm
  · rfl

/-- No key appears or disappears. -/
theorem exists_key_update {k : κ} :
    (∃ s ∈ t.update selected change keeps, key s = k) ↔ ∃ r ∈ t, key r = k := by
  constructor
  · rintro ⟨s, hs, rfl⟩
    obtain ⟨r, hr, same, -⟩ := exists_of_mem_update keeps hs
    exact ⟨r, hr, same⟩
  · rintro ⟨r, hr, rfl⟩
    refine ⟨_, mem_update_of_mem keeps hr, ?_⟩
    split
    · exact keeps r
    · rfl

theorem update_of_none (none : ∀ r ∈ t, selected r = false) :
    t.update selected change keeps = t := by
  have hrows : (t.update selected change keeps).rows = t.rows := by
    refine (List.map_congr_left fun r hr => ?_).trans (List.map_id t.rows)
    rw [none r hr]
    rfl
  cases t
  simpa [update] using hrows

/-- An update of other rows leaves a selection as it is. -/
theorem filter_update_of_not {p : ρ → Bool}
    (other : ∀ r, selected r = true → p r = false ∧ p (change r) = false) :
    (t.update selected change keeps).rows.filter p = t.rows.filter p := by
  change (t.rows.map fun r => if selected r then change r else r).filter p = _
  induction t.rows with
  | nil => rfl
  | cons r rest ih =>
    rw [List.map_cons]
    by_cases chosen : selected r = true
    · obtain ⟨hr, hchange⟩ := other r chosen
      rw [if_pos chosen, List.filter_cons_of_neg (by simp [hchange]),
        List.filter_cons_of_neg (by simp [hr]), ih]
    · rw [if_neg chosen]
      by_cases hr : p r = true
      · rw [List.filter_cons_of_pos hr, List.filter_cons_of_pos hr, ih]
      · rw [List.filter_cons_of_neg hr, List.filter_cons_of_neg hr, ih]

end Update

/-- `SUM(weight) … WHERE selected`. -/
def sum (t : Table key) (selected : ρ → Bool) (weight : ρ → Nat) : Nat :=
  ((t.rows.filter selected).map weight).sum

/-- A selected row's weight is part of the sum. -/
theorem le_sum {t : Table key} (selected : ρ → Bool) (weight : ρ → Nat) {r : ρ} (h : r ∈ t)
    (chosen : selected r = true) : weight r ≤ t.sum selected weight :=
  List.single_le_sum (fun _ _ => Nat.zero_le _) _
    (List.mem_map_of_mem (List.mem_filter.mpr ⟨h, chosen⟩))

/-- Selecting more rows sums to at least as much. -/
theorem sum_le_sum_of_imp (t : Table key) {fewer more : ρ → Bool} (weight : ρ → Nat)
    (h : ∀ r, fewer r = true → more r = true) : t.sum fewer weight ≤ t.sum more weight :=
  ((List.monotone_filter_right t.rows h).map weight).sum_le_sum fun _ _ => Nat.zero_le _

theorem sum_eq_zero {t : Table key} {selected : ρ → Bool} (weight : ρ → Nat)
    (none' : ∀ r ∈ t, selected r = false) : t.sum selected weight = 0 := by
  have empty : t.rows.filter selected = [] := List.filter_eq_nil_iff.mpr fun r hr => by
    simp [none' r hr]
  simp [sum, empty]

/-- A new selected row adds its weight. -/
theorem sum_insertIfAbsent [DecidableEq κ] {t : Table key} {r : ρ} (selected : ρ → Bool)
    (weight : ρ → Nat) (fresh : ∀ q ∈ t, key q ≠ key r) (chosen : selected r = true) :
    (t.insertIfAbsent r).sum selected weight = t.sum selected weight + weight r := by
  simp [sum, rows_insertIfAbsent_of_fresh fresh, List.filter_append, chosen]

end Table

/-- The row that `ORDER BY f DESC LIMIT 1` takes has the largest `f`. -/
theorem le_of_head?_descending {ρ κ : Type} [LinearOrder κ] (f : ρ → κ) {rows : List ρ}
    {first row : ρ} (h : (rows.insertionSort fun a b => f b ≤ f a).head? = some first)
    (hrow : row ∈ rows) : f row ≤ f first := by
  have : Std.Total fun a b : ρ => f b ≤ f a := ⟨fun a b => le_total (f b) (f a)⟩
  have : IsTrans ρ fun a b => f b ≤ f a := ⟨fun _ _ _ hab hbc => hbc.trans hab⟩
  have hsorted : (rows.insertionSort fun a b => f b ≤ f a).Pairwise fun a b => f b ≤ f a :=
    List.pairwise_insertionSort _ rows
  rw [← List.mem_insertionSort fun a b => f b ≤ f a] at hrow
  cases hrows : rows.insertionSort fun a b => f b ≤ f a with
  | nil => simp [hrows] at h
  | cons head rest =>
    rw [hrows] at h hrow hsorted
    obtain rfl : head = first := by simpa using h
    rcases List.mem_cons.mp hrow with rfl | hrest
    · exact le_refl _
    · exact (List.pairwise_cons.mp hsorted).1 row hrest

end MpcRegistry.Library

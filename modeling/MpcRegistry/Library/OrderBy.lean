import Mathlib

/-!
# Rows in the order of a key, in two runs

Rows of which an observer sees a view only, sorted by a key that the view need not show. Two runs
whose rows look alike show the same list when the keys compare alike, and, where the view names
each row, only then.
-/
namespace MpcRegistry.Library

variable {ρ κ ν ι : Type} [LinearOrder κ]

/-- `ORDER BY key`; rows of one key stay as they came. -/
def orderBy (key : ρ → κ) (rows : List ρ) : List ρ :=
  rows.insertionSort fun a b => key a ≤ key b

section Order

variable {key : ρ → κ} {rows : List ρ} {row : ρ}

@[simp] theorem mem_orderBy : row ∈ orderBy key rows ↔ row ∈ rows := List.mem_insertionSort _

theorem perm_orderBy (key : ρ → κ) (rows : List ρ) : (orderBy key rows).Perm rows :=
  List.perm_insertionSort _ _

theorem pairwise_orderBy (key : ρ → κ) (rows : List ρ) :
    (orderBy key rows).Pairwise fun a b => key a ≤ key b :=
  haveI : Std.Total fun a b : ρ => key a ≤ key b := ⟨fun a b => le_total (key a) (key b)⟩
  haveI : IsTrans ρ fun a b => key a ≤ key b := ⟨fun _ _ _ => le_trans⟩
  List.pairwise_insertionSort _ _

theorem map_orderBy {σ : Type} {other : σ → κ} (f : ρ → σ)
    (h : ∀ row ∈ rows, other (f row) = key row) :
    (orderBy key rows).map f = orderBy other (rows.map f) :=
  List.map_insertionSort _ _ f rows fun a ha b hb => by rw [h a ha, h b hb]

end Order

/-! ## Rows that look alike -/

section View

variable {view : ρ → ν} {xs ys : List ρ}

/-- Rows that look alike give the same items, when an item shows no more than the view does. -/
theorem map_of_view {σ : Type} {item : ρ → σ} {made : ν → σ} (h : xs.map view = ys.map view)
    (hitem : ∀ row, made (view row) = item row) : xs.map item = ys.map item := by
  have hitems : made ∘ view = item := funext hitem
  rw [← hitems, ← List.map_map, ← List.map_map, h]

theorem exists_pairs (h : xs.map view = ys.map view) :
    ∃ pairs : List (ρ × ρ), xs = pairs.map Prod.fst ∧ ys = pairs.map Prod.snd ∧
      ∀ pair ∈ pairs, view pair.1 = view pair.2 := by
  induction xs generalizing ys with
  | nil =>
    cases ys with
    | nil => exact ⟨[], rfl, rfl, by simp⟩
    | cons y ys => cases h
  | cons x xs ih =>
    cases ys with
    | nil => cases h
    | cons y ys =>
      rw [List.map_cons, List.map_cons, List.cons.injEq] at h
      obtain ⟨hhead, htail⟩ := h
      obtain ⟨pairs, rfl, rfl, hpairs⟩ := ih htail
      refine ⟨(x, y) :: pairs, rfl, rfl, fun pair hpair => ?_⟩
      rcases List.mem_cons.mp hpair with rfl | hpair
      · exact hhead
      · exact hpairs pair hpair

/-- What is selected and ordered by the view looks alike too. -/
theorem map_filter_orderBy {key : ρ → κ} {selected : ρ → Bool} {seen : ν → κ} {shown : ν → Bool}
    (hkey : ∀ row, seen (view row) = key row) (hselected : ∀ row, shown (view row) = selected row)
    (rows : List ρ) :
    (orderBy key (rows.filter selected)).map view =
      orderBy seen ((rows.map view).filter shown) := by
  have hsame : (fun row => shown (view row)) = selected := funext hselected
  rw [map_orderBy view fun row _ => hkey row, List.filter_map]
  exact congrArg (fun p => orderBy seen ((rows.filter p).map view)) hsame.symm

theorem map_filter_orderBy_of_view {σ : Type} {key : ρ → κ} {selected : ρ → Bool} {item : ρ → σ}
    {seen : ν → κ} {shown : ν → Bool} {made : ν → σ} (h : xs.map view = ys.map view)
    (hkey : ∀ row, seen (view row) = key row) (hselected : ∀ row, shown (view row) = selected row)
    (hitem : ∀ row, made (view row) = item row) :
    (orderBy key (xs.filter selected)).map item = (orderBy key (ys.filter selected)).map item := by
  refine map_of_view ?_ hitem
  rw [map_filter_orderBy hkey hselected, map_filter_orderBy hkey hselected, h]

/-- What is selected and ordered alike looks alike, whatever decides it. -/
theorem map_filter_orderBy_eq {key : ρ → κ} {selected : ρ → Bool} {pairs : List (ρ × ρ)}
    (hview : ∀ pair ∈ pairs, view pair.1 = view pair.2)
    (hselected : ∀ pair ∈ pairs, selected pair.1 = selected pair.2)
    (horder : ∀ a ∈ pairs, ∀ b ∈ pairs, selected a.1 = true → selected b.1 = true →
      (key a.1 ≤ key b.1 ↔ key a.2 ≤ key b.2)) :
    (orderBy key ((pairs.map Prod.fst).filter selected)).map view =
      (orderBy key ((pairs.map Prod.snd).filter selected)).map view := by
  let kept := pairs.filter fun pair => selected pair.1
  have hkept : ∀ pair ∈ kept, pair ∈ pairs ∧ selected pair.1 = true := by
    intro pair hpair
    exact List.mem_filter.mp hpair
  have hleft : (pairs.map Prod.fst).filter selected = kept.map Prod.fst := List.filter_map
  have hright : (pairs.map Prod.snd).filter selected = kept.map Prod.snd := by
    rw [List.filter_map]
    refine congrArg (List.map Prod.snd) (List.filter_congr fun pair hpair => ?_)
    exact (hselected pair hpair).symm
  have hfirst : (orderBy (fun pair : ρ × ρ => key pair.1) kept).map Prod.fst =
      orderBy key (kept.map Prod.fst) :=
    map_orderBy Prod.fst fun _ _ => rfl
  have hsecond : (orderBy (fun pair : ρ × ρ => key pair.1) kept).map Prod.snd =
      orderBy key (kept.map Prod.snd) :=
    List.map_insertionSort _ _ Prod.snd kept fun a ha b hb =>
      horder a (hkept a ha).1 b (hkept b hb).1 (hkept a ha).2 (hkept b hb).2
  rw [hleft, hright, ← hfirst, ← hsecond, List.map_map, List.map_map]
  refine List.map_congr_left fun pair hpair => ?_
  exact hview pair (hkept pair (mem_orderBy.mp hpair)).1

end View

/-! ## What the order tells -/

section Named

variable [DecidableEq ι] {key : ρ → κ} {name : ρ → ι} {rows : List ρ}

/-- Where the key tells rows of different names apart, the list of names tells how the keys of
any two rows compare. -/
theorem key_le_iff_idxOf (hnodup : (rows.map name).Nodup)
    (hkey : ∀ a ∈ rows, ∀ b ∈ rows, key a = key b → name a = name b) {a b : ρ} (ha : a ∈ rows)
    (hb : b ∈ rows) :
    key a ≤ key b ↔ ((orderBy key rows).map name).idxOf (name a) ≤
      ((orderBy key rows).map name).idxOf (name b) := by
  have hnames : ((orderBy key rows).map name).Nodup :=
    ((perm_orderBy key rows).map name).nodup_iff.mpr hnodup
  have hbefore : ∀ {c d : ρ}, c ∈ rows → d ∈ rows →
      ((orderBy key rows).map name).idxOf (name c) <
        ((orderBy key rows).map name).idxOf (name d) → key c ≤ key d := by
    intro c d hc hd hlt
    obtain ⟨i, hi, rfl⟩ := List.getElem_of_mem (mem_orderBy.mpr hc : c ∈ orderBy key rows)
    obtain ⟨j, hj, rfl⟩ := List.getElem_of_mem (mem_orderBy.mpr hd : d ∈ orderBy key rows)
    have hidx : ∀ (k : Nat) (hk : k < (orderBy key rows).length),
        ((orderBy key rows).map name).idxOf (name (orderBy key rows)[k]) = k := by
      intro k hk
      have hget := hnames.idxOf_getElem k (by rw [List.length_map]; exact hk)
      rwa [List.getElem_map] at hget
    rw [hidx i hi, hidx j hj] at hlt
    exact List.pairwise_iff_getElem.mp (pairwise_orderBy key rows) i j hi hj hlt
  constructor
  · intro hle
    by_contra hgt
    have hge := hbefore hb ha (by omega)
    have hsame := hkey a ha b hb (le_antisymm hle hge)
    rw [hsame] at hgt
    exact hgt le_rfl
  · intro hle
    rcases Nat.lt_or_eq_of_le hle with hlt | heq
    · exact hbefore ha hb hlt
    · have hmem : name a ∈ (orderBy key rows).map name :=
        List.mem_map_of_mem (mem_orderBy.mpr ha)
      have hname : name a = name b := (List.idxOf_inj hmem).mp heq
      have hrow : a = b := List.inj_on_of_nodup_map hnodup ha hb hname
      rw [hrow]

/-- Two lists of names that are equal were ordered alike. -/
theorem key_le_iff_of_names_eq {others : List ρ} (hnodup : (rows.map name).Nodup)
    (hnodup' : (others.map name).Nodup) (hkey : ∀ a b : ρ, key a = key b → name a = name b)
    (h : (orderBy key rows).map name = (orderBy key others).map name) {a b a' b' : ρ}
    (ha : a ∈ rows) (hb : b ∈ rows) (ha' : a' ∈ others) (hb' : b' ∈ others)
    (hnames : name a = name a' ∧ name b = name b') : key a ≤ key b ↔ key a' ≤ key b' := by
  rw [key_le_iff_idxOf hnodup (fun a _ b _ => hkey a b) ha hb,
    key_le_iff_idxOf hnodup' (fun a _ b _ => hkey a b) ha' hb', h, hnames.1, hnames.2]

end Named

end MpcRegistry.Library

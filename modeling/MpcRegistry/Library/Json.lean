import MpcRegistry.Library.Utf16

/-!
# JSON values up to the order of object keys

Objects keep their members in a list. Two values are the same up to key order
when arrays agree item by item and objects have as many members, each key of the
one being a key of the other with the same value; sorting every object by key
picks one value of each class.
-/
namespace MpcRegistry.Library

inductive Json where
  | null
  | bool (value : Bool)
  | number (lexeme : Text)
  | str (text : Text)
  | arr (items : List Json)
  | obj (members : List (Text × Json))

namespace Json

/-- Keys in ascending code unit order, each with its value. -/
def sortMembers {α : Type} (members : List (Text × α)) : List (Text × α) :=
  members.insertionSort fun a b => a.1 ≤ b.1

/-- No object in the value has a key twice. -/
inductive UniqueKeys : Json → Prop where
  | null : UniqueKeys .null
  | bool (value : Bool) : UniqueKeys (.bool value)
  | number (lexeme : Text) : UniqueKeys (.number lexeme)
  | str (text : Text) : UniqueKeys (.str text)
  | arr (items : List Json) (each : ∀ item ∈ items, UniqueKeys item) : UniqueKeys (.arr items)
  | obj (members : List (Text × Json)) (nodup : (members.map Prod.fst).Nodup)
      (each : ∀ member ∈ members, UniqueKeys member.2) : UniqueKeys (.obj members)

mutual

/-- Equal up to the order of object keys, at every level. -/
def Same : Json → Json → Prop
  | .null, .null => True
  | .bool a, .bool b => a = b
  | .number a, .number b => a = b
  | .str a, .str b => a = b
  | .arr items, .arr others => SameItems items others
  | .obj members, .obj others => members.length = others.length ∧ SameMembers members others
  | _, _ => False

def SameItems : List Json → List Json → Prop
  | [], [] => True
  | item :: items, other :: others => Same item other ∧ SameItems items others
  | _, _ => False

/-- Every member has a counterpart under its key, wherever it stands. -/
def SameMembers : List (Text × Json) → List (Text × Json) → Prop
  | [], _ => True
  | (key, value) :: members, others =>
    (∃ other, (key, other) ∈ others ∧ Same value other) ∧ SameMembers members others

end

mutual

/-- The value with the members of every object in key order. -/
def sorted : Json → Json
  | .arr items => .arr (sortedItems items)
  | .obj members => .obj (sortMembers (sortedMembers members))
  | value => value

def sortedItems : List Json → List Json
  | [] => []
  | item :: items => sorted item :: sortedItems items

def sortedMembers : List (Text × Json) → List (Text × Json)
  | [] => []
  | (key, value) :: members => (key, sorted value) :: sortedMembers members

end

section Members

variable {α β : Type}

theorem mem_sortMembers {members : List (Text × α)} {member : Text × α} :
    member ∈ sortMembers members ↔ member ∈ members :=
  List.mem_insertionSort _

theorem length_sortMembers (members : List (Text × α)) :
    (sortMembers members).length = members.length :=
  List.length_insertionSort _ _

theorem perm_sortMembers (members : List (Text × α)) : (sortMembers members).Perm members :=
  List.perm_insertionSort _ _

/-- Only keys decide the order, so a change of the values goes through it. -/
theorem map_sortMembers (change : Text × α → β) (members : List (Text × α)) :
    (sortMembers members).map (fun member => (member.1, change member)) =
      sortMembers (members.map fun member => (member.1, change member)) :=
  List.map_insertionSort _ _ _ _ fun _ _ _ _ => Iff.rfl

theorem map_fst_sortMembers (members : List (Text × α)) :
    (sortMembers members).map Prod.fst = (members.map Prod.fst).insertionSort (· ≤ ·) :=
  List.map_insertionSort _ _ _ _ fun _ _ _ _ => Iff.rfl

theorem pairwise_sortMembers (members : List (Text × α)) :
    (sortMembers members).Pairwise fun a b => a.1 ≤ b.1 :=
  List.pairwise_insertionSort (fun a b : Text × α => a.1 ≤ b.1) members

/-- With distinct keys a permutation of the members is sorted to the same list. -/
theorem sortMembers_congr {a b : List (Text × α)} (hkeys : (a.map Prod.fst).Nodup)
    (hperm : a.Perm b) : sortMembers a = sortMembers b := by
  refine List.Perm.eq_of_pairwise ?_ (pairwise_sortMembers a) (pairwise_sortMembers b)
    (((perm_sortMembers a).trans hperm).trans (perm_sortMembers b).symm)
  intro m n hm hn hmn hnm
  have hmem : n ∈ a := hperm.mem_iff.mpr (mem_sortMembers.mp hn)
  exact List.inj_on_of_nodup_map hkeys (mem_sortMembers.mp hm) hmem (le_antisymm hmn hnm)

end Members

theorem sortedItems_eq (items : List Json) : sortedItems items = items.map sorted := by
  induction items with
  | nil => rfl
  | cons item items ih => rw [sortedItems, ih, List.map_cons]

theorem sortedMembers_eq (members : List (Text × Json)) :
    sortedMembers members = members.map fun member => (member.1, member.2.sorted) := by
  induction members with
  | nil => rfl
  | cons member members ih => rw [sortedMembers, ih, List.map_cons]

@[simp] theorem sorted_arr (items : List Json) : (arr items).sorted = .arr (items.map sorted) := by
  rw [sorted, sortedItems_eq]

@[simp] theorem sorted_obj (members : List (Text × Json)) :
    (obj members).sorted =
      .obj (sortMembers (members.map fun member => (member.1, member.2.sorted))) := by
  rw [sorted, sortedMembers_eq]

theorem sameItems_iff {items others : List Json} :
    SameItems items others ↔ List.Forall₂ Same items others := by
  induction items generalizing others with
  | nil => cases others <;> simp [SameItems]
  | cons item items ih => cases others <;> simp [SameItems, ih]

theorem sameMembers_iff {members others : List (Text × Json)} :
    SameMembers members others ↔
      ∀ member ∈ members, ∃ other, (member.1, other) ∈ others ∧ Same member.2 other := by
  induction members with
  | nil => simp [SameMembers]
  | cons member members ih => simp [SameMembers, ih]

@[simp] theorem same_arr {items others : List Json} :
    Same (.arr items) (.arr others) ↔ List.Forall₂ Same items others := by
  rw [Same, sameItems_iff]

@[simp] theorem same_obj {members others : List (Text × Json)} :
    Same (.obj members) (.obj others) ↔ members.length = others.length ∧
      ∀ member ∈ members, ∃ other, (member.1, other) ∈ others ∧ Same member.2 other := by
  rw [Same, sameMembers_iff]

/-- Sorting its objects leaves a value the same up to key order. -/
theorem same_sorted {value : Json} (h : UniqueKeys value) : Same value value.sorted := by
  induction h with
  | null => trivial
  | bool b => rfl
  | number lexeme => rfl
  | str text => rfl
  | arr items _ ih =>
    rw [sorted_arr, same_arr, List.forall₂_map_right_iff]
    exact List.forall₂_same.mpr ih
  | obj members _ _ ih =>
    rw [sorted_obj, same_obj, length_sortMembers, List.length_map]
    refine ⟨rfl, fun member hmember => ⟨member.2.sorted, ?_, ih member hmember⟩⟩
    exact mem_sortMembers.mpr (List.mem_map_of_mem hmember)

/-- Objects with distinct keys are sorted to the same members exactly when they
have as many and each member of the one, its value sorted, is one of the other. -/
theorem sortMembers_sorted_eq_iff {members others : List (Text × Json)}
    (hkeys : (members.map Prod.fst).Nodup) :
    sortMembers (members.map fun m => (m.1, m.2.sorted)) =
        sortMembers (others.map fun m => (m.1, m.2.sorted)) ↔
      members.length = others.length ∧
        ∀ member ∈ members, ∃ other, (member.1, other) ∈ others ∧
          member.2.sorted = other.sorted := by
  have hkeys' : ((members.map fun m => (m.1, m.2.sorted)).map Prod.fst).Nodup := by
    rw [List.map_map]
    exact hkeys
  constructor
  · intro h
    have hperm : (members.map fun m => (m.1, m.2.sorted)).Perm
        (others.map fun m => (m.1, m.2.sorted)) :=
      (perm_sortMembers _).symm.trans (h ▸ perm_sortMembers _)
    refine ⟨by simpa using hperm.length_eq, fun member hmember => ?_⟩
    have hmem := hperm.subset (List.mem_map_of_mem hmember)
    obtain ⟨⟨key, value⟩, hother, heq⟩ := List.mem_map.mp hmem
    obtain ⟨rfl, hvalue⟩ := Prod.mk.inj heq
    exact ⟨value, hother, hvalue.symm⟩
  · rintro ⟨hlength, hmatch⟩
    have hsubset : (members.map fun m => (m.1, m.2.sorted)) ⊆
        others.map fun m => (m.1, m.2.sorted) := by
      intro entry hentry
      obtain ⟨member, hmember, rfl⟩ := List.mem_map.mp hentry
      obtain ⟨other, hother, heq⟩ := hmatch member hmember
      exact List.mem_map.mpr ⟨(member.1, other), hother, by rw [heq]⟩
    refine sortMembers_congr hkeys' ?_
    exact (List.subperm_of_subset hkeys'.of_map hsubset).perm_of_length_le (by simp [hlength])

/-- Sorting decides sameness up to key order among values with unique keys. -/
theorem same_iff_sorted_eq {a b : Json} (ha : UniqueKeys a) (hb : UniqueKeys b) :
    Same a b ↔ a.sorted = b.sorted := by
  induction ha generalizing b with
  | null => cases hb <;> simp [Same, sorted]
  | bool => cases hb <;> simp [Same, sorted]
  | number => cases hb <;> simp [Same, sorted]
  | str => cases hb <;> simp [Same, sorted]
  | arr items _ ih =>
    cases hb with
    | arr others hothers =>
      rw [same_arr, sorted_arr, sorted_arr, arr.injEq, ← List.forall₂_eq_eq_eq,
        List.forall₂_map_left_iff, List.forall₂_map_right_iff, List.forall₂_iff_zip,
        List.forall₂_iff_zip]
      refine and_congr_right fun _ => forall₂_congr fun item other => ?_
      refine forall_congr' fun hzip => ?_
      obtain ⟨hitem, hother⟩ := List.of_mem_zip hzip
      exact ih item hitem (hothers other hother)
    | _ => simp [Same, sorted]
  | obj members hnodup _ ih =>
    cases hb with
    | obj others _ hothers =>
      rw [same_obj, sorted_obj, sorted_obj, obj.injEq, sortMembers_sorted_eq_iff hnodup]
      refine and_congr_right fun _ => forall₂_congr fun member hmember => ?_
      refine exists_congr fun other => and_congr_right fun hother => ?_
      exact ih member hmember (hothers _ hother)
    | _ => simp [Same, sorted]

end Json

end MpcRegistry.Library

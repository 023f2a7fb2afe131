import MpcRegistry.Canonical.JcsRoundTrip
import MpcRegistry.Canonical.Hash

/-!
# Public projections and their content hash

Source: packages/canonical/src/leaf.ts:90-93, apps/api/src/routes/registry.ts:191-207.
A projection is stored as JSONB, which sorts the members of an object by the
length of their key in UTF-8 and then by its bytes. The hash does not see it.
-/
namespace MpcRegistry.Registry
open Library Library.Outcome Canonical

/-- No object in the value has two members with one key, as in every object of JavaScript. -/
inductive UniqueKeys : JsValue → Prop where
  | null : UniqueKeys .null
  | bool (value : Bool) : UniqueKeys (.bool value)
  | str (value : Text) : UniqueKeys (.str value)
  | number : UniqueKeys .number
  | array (ref : Nat) (items : List JsValue) (each : ∀ item ∈ items, UniqueKeys item) :
      UniqueKeys (.array ref items)
  | object (ref : Nat) (members : List (Text × JsValue)) (nodup : (members.map Prod.fst).Nodup)
      (each : ∀ member ∈ members, UniqueKeys member.2) : UniqueKeys (.object ref true members)

/-- A JSON object, as the column and the request body have it. -/
structure Projection where
  members : List (Text × JsValue)
  unique : UniqueKeys (.object 0 true members)

def Projection.value (projection : Projection) : JsValue := .object 0 true projection.members

/-- `projection[key]` -/
def Projection.read (projection : Projection) (key : Text) : Option JsValue :=
  projection.members.lookup key

section Spread

def setMember (key : Text) (value : JsValue) (members : List (Text × JsValue)) :
    List (Text × JsValue) :=
  if key ∈ members.map Prod.fst then
    members.map fun member => if member.1 = key then (key, value) else member
  else members ++ [(key, value)]

variable {key : Text} {value : JsValue} {members : List (Text × JsValue)}

theorem nodup_setMember (h : (members.map Prod.fst).Nodup) :
    ((setMember key value members).map Prod.fst).Nodup := by
  unfold setMember
  split
  · have hkeys : (members.map fun member => if member.1 = key then (key, value) else member).map
        Prod.fst = members.map Prod.fst := by
      rw [List.map_map]
      refine List.map_congr_left fun member _ => ?_
      by_cases heq : member.1 = key <;> simp [heq]
    rw [hkeys]
    exact h
  · next habsent =>
    rw [List.map_append, List.nodup_append]
    refine ⟨h, by simp, ?_⟩
    intro a ha b hb heq
    simp only [List.map_cons, List.map_nil, List.mem_singleton] at hb
    exact habsent (hb ▸ heq ▸ ha)

theorem mem_setMember {member : Text × JsValue} (h : member ∈ setMember key value members) :
    member ∈ members ∨ member = (key, value) := by
  unfold setMember at h
  split at h
  · obtain ⟨old, hold, heq⟩ := List.mem_map.mp h
    by_cases hkey : old.1 = key
    · rw [if_pos hkey] at heq
      exact .inr heq.symm
    · rw [if_neg hkey] at heq
      exact .inl (heq ▸ hold)
  · rcases List.mem_append.mp h with h | h
    · exact .inl h
    · exact .inr (List.mem_singleton.mp h)

end Spread

/-- `{ ...projection, status }` -/
def Projection.withStatus (projection : Projection) (status : Text) : Projection where
  members := setMember (units "status") (.str status) projection.members
  unique := by
    have hunique := projection.unique
    cases hunique with
    | object _ _ nodup each =>
      refine .object _ _ (nodup_setMember nodup) fun member hmember => ?_
      rcases mem_setMember hmember with h | rfl
      · exact each member h
      · exact .str status

/-! ## JSONB -/

/-- Shorter keys first, keys of one length by their bytes. -/
def keyOrder (a b : Text × JsValue) : Prop :=
  (Utf16.encodeUtf8 a.1).length < (Utf16.encodeUtf8 b.1).length ∨
    (Utf16.encodeUtf8 a.1).length = (Utf16.encodeUtf8 b.1).length ∧
      Utf16.encodeUtf8 a.1 ≤ Utf16.encodeUtf8 b.1

instance : DecidableRel keyOrder := fun _ _ => inferInstanceAs (Decidable (_ ∨ _ ∧ _))

mutual

def jsonb : JsValue → JsValue
  | .array ref items => .array ref (jsonbItems items)
  | .object ref plain members => .object ref plain ((jsonbMembers members).insertionSort keyOrder)
  | value => value

def jsonbItems : List JsValue → List JsValue
  | [] => []
  | item :: items => jsonb item :: jsonbItems items

def jsonbMembers : List (Text × JsValue) → List (Text × JsValue)
  | [] => []
  | (key, value) :: members => (key, jsonb value) :: jsonbMembers members

end

theorem jsonbItems_eq (items : List JsValue) : jsonbItems items = items.map jsonb := by
  induction items with
  | nil => rfl
  | cons item items ih => rw [jsonbItems, ih, List.map_cons]

theorem jsonbMembers_eq (members : List (Text × JsValue)) :
    jsonbMembers members = members.map fun member => (member.1, jsonb member.2) := by
  induction members with
  | nil => rfl
  | cons member members ih => rw [jsonbMembers, ih, List.map_cons]

theorem map_fst_jsonbMembers (members : List (Text × JsValue)) :
    (jsonbMembers members).map Prod.fst = members.map Prod.fst := by
  rw [jsonbMembers_eq, List.map_map]
  rfl

theorem uniqueKeys_jsonb {value : JsValue} (h : UniqueKeys value) : UniqueKeys (jsonb value) := by
  induction h with
  | null => exact .null
  | bool value => exact .bool value
  | str value => exact .str value
  | number => exact .number
  | array ref items _ ih =>
    rw [jsonb, jsonbItems_eq]
    refine .array ref _ fun item hitem => ?_
    obtain ⟨source, hsource, rfl⟩ := List.mem_map.mp hitem
    exact ih source hsource
  | object ref members nodup _ ih =>
    rw [jsonb]
    refine .object ref _ ?_ fun member hmember => ?_
    · have hperm := (List.perm_insertionSort keyOrder (jsonbMembers members)).map Prod.fst
      rw [map_fst_jsonbMembers] at hperm
      exact hperm.nodup_iff.mpr nodup
    · rw [List.mem_insertionSort, jsonbMembers_eq] at hmember
      obtain ⟨source, hsource, rfl⟩ := List.mem_map.mp hmember
      exact ih source hsource

/-- With unique keys the order of an association list does not matter. -/
theorem lookup_perm {α : Type} {xs ys : List (Text × α)} (hperm : xs.Perm ys)
    (hnodup : (xs.map Prod.fst).Nodup) (key : Text) : xs.lookup key = ys.lookup key := by
  induction hperm with
  | nil => rfl
  | cons x _ ih =>
    rw [List.map_cons, List.nodup_cons] at hnodup
    obtain ⟨name, value⟩ := x
    rw [List.lookup_cons, List.lookup_cons, ih hnodup.2]
  | swap x y rest =>
    have hne : y.1 ≠ x.1 := by
      intro heq
      rw [List.map_cons, List.map_cons, heq] at hnodup
      simp at hnodup
    obtain ⟨first, _⟩ := x
    obtain ⟨second, _⟩ := y
    rw [List.lookup_cons, List.lookup_cons, List.lookup_cons, List.lookup_cons]
    cases hfirst : key == first with
    | false => rfl
    | true =>
      have hsecond : (key == second) = false :=
        beq_eq_false_iff_ne.mpr fun heq => hne (heq ▸ eq_of_beq hfirst)
      simp only [hsecond]
  | trans hxy _ ih₁ ih₂ =>
    rw [ih₁ hnodup, ih₂ ((hxy.map Prod.fst).nodup_iff.mp hnodup)]

/-- An object is written by its sorted keys, so what counts of its members is what each key holds. -/
theorem serializeValue_object_perm {ref : Nat} {xs ys : List (Text × JsValue)} (hperm : xs.Perm ys)
    (hnodup : (xs.map Prod.fst).Nodup) (path : Text) (seen : List Nat) :
    serializeValue (.object ref true xs) path seen =
      serializeValue (.object ref true ys) path seen := by
  have hkeys := sortKeys_perm (hperm.map Prod.fst)
  have hmembers : (serializeMembers xs path (ref :: seen)).Perm
      (serializeMembers ys path (ref :: seen)) := by
    rw [serializeMembers_eq, serializeMembers_eq]
    exact hperm.map _
  have hfst : ((serializeMembers xs path (ref :: seen)).map Prod.fst).Nodup := by
    rw [serializeMembers_eq, List.map_map]
    exact hnodup
  simp only [serializeValue, hkeys, lookup_perm hmembers hfst]

theorem serializeItems_congr {xs : List JsValue} {f : JsValue → JsValue}
    (h : ∀ item ∈ xs, ∀ path seen, serializeValue (f item) path seen = serializeValue item path seen)
    (path : Text) (index : Nat) (seen : List Nat) :
    serializeItems (xs.map f) path index seen = serializeItems xs path index seen := by
  induction xs generalizing index with
  | nil => rfl
  | cons item items ih =>
    rw [List.map_cons, serializeItems, serializeItems, h item List.mem_cons_self,
      ih (fun other hother => h other (List.mem_cons_of_mem item hother))]

/-- What JSONB stores is serialized like what was stored. -/
theorem serializeValue_jsonb {value : JsValue} (h : UniqueKeys value) :
    ∀ path seen, serializeValue (jsonb value) path seen = serializeValue value path seen := by
  induction h with
  | null => exact fun _ _ => rfl
  | bool value => exact fun _ _ => rfl
  | str value => exact fun _ _ => rfl
  | number => exact fun _ _ => rfl
  | array ref items _ ih =>
    intro path seen
    rw [jsonb, jsonbItems_eq, serializeValue, serializeValue, serializeItems_congr ih]
  | object ref members nodup _ ih =>
    intro path seen
    have hnodup : ((jsonbMembers members).map Prod.fst).Nodup :=
      (map_fst_jsonbMembers members).symm ▸ nodup
    have hsorted := List.perm_insertionSort keyOrder (jsonbMembers members)
    have heach : serializeMembers (jsonbMembers members) path (ref :: seen) =
        serializeMembers members path (ref :: seen) := by
      rw [serializeMembers_eq, serializeMembers_eq, jsonbMembers_eq, List.map_map]
      refine List.map_congr_left fun member hmember => ?_
      rw [Function.comp_apply, ih member hmember]
    rw [jsonb, serializeValue_object_perm hsorted
      ((hsorted.map Prod.fst).nodup_iff.mpr hnodup)]
    simp only [serializeValue, map_fst_jsonbMembers, heach]

/-- The object as the column gives it back. -/
def Projection.stored (projection : Projection) : Projection where
  members := (jsonbMembers projection.members).insertionSort keyOrder
  unique := by simpa only [jsonb] using uniqueKeys_jsonb projection.unique

/-- `keccak256(canonicalBytes(value))` -/
def hashValue (keccak_256 : Bytes → Digest) (value : JsValue) : Except Thrown Text := do
  let text ← serializeValue value [] []
  .ok (keccak256 keccak_256 (Utf16.encodeUtf8 text))

def hashProjection (keccak_256 : Bytes → Digest) (projection : Projection) : Except Thrown Text :=
  hashValue keccak_256 projection.value

theorem hashProjection_stored (keccak_256 : Bytes → Digest) (projection : Projection) :
    hashProjection keccak_256 projection.stored = hashProjection keccak_256 projection := by
  have hvalue : projection.stored.value = jsonb projection.value := by
    rw [Projection.value, Projection.value, jsonb]
    rfl
  have htext := serializeValue_jsonb projection.unique [] []
  rw [hashProjection, hashProjection, hashValue, hashValue, hvalue, Projection.value, htext]

end MpcRegistry.Registry

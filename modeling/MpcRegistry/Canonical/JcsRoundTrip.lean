import MpcRegistry.Canonical.Jcs
import MpcRegistry.Library.Outcome

/-!
# Canonical text is a faithful encoding

`written` says what the text of a JSON value is, members in the order they have.
`serializeValue` fails on a canonical value exactly when one of its strings or
keys has an unpaired surrogate, and otherwise returns what is `written` of the
value with its keys sorted; a JSON parser reads that back. So two texts agree
exactly when the values do up to the order of object keys.
-/
namespace MpcRegistry.Canonical
open Library Library.Utf16 Library.Json Library.Outcome

theorem sortKeys_perm {xs ys : List Text} (hperm : xs.Perm ys) : sortKeys xs = sortKeys ys := by
  have hsorted := (List.perm_insertionSort (· ≤ ·) xs).trans
    (hperm.trans (List.perm_insertionSort (· ≤ ·) ys).symm)
  exact hsorted.eq_of_pairwise' (List.pairwise_insertionSort (· ≤ ·) xs)
    (List.pairwise_insertionSort (· ≤ ·) ys)

mutual

/-- The JSON value of a canonical value. A refused kind has none; the empty
lexeme, which no number has, stands in for it. -/
def JsValue.content : JsValue → Json
  | .null => .null
  | .bool value => .bool value
  | .str value => .str value
  | .number => .number []
  | .bigint => .number []
  | .unsupported _ => .number []
  | .array _ items => .arr (contentItems items)
  | .object _ _ members => .obj (contentMembers members)

def contentItems : List JsValue → List Json
  | [] => []
  | item :: items => item.content :: contentItems items

def contentMembers : List (Text × JsValue) → List (Text × Json)
  | [] => []
  | (key, value) :: members => (key, value.content) :: contentMembers members

end

/-- `text` is a string in the value or a key of an object in it. -/
inductive Occurs (text : Text) : JsValue → Prop where
  | str : Occurs text (.str text)
  | item (ref : Nat) (items : List JsValue) (item : JsValue) (mem : item ∈ items)
      (occurs : Occurs text item) : Occurs text (.array ref items)
  | key (ref : Nat) (plain : Bool) (members : List (Text × JsValue)) (value : JsValue)
      (mem : (text, value) ∈ members) : Occurs text (.object ref plain members)
  | value (ref : Nat) (plain : Bool) (members : List (Text × JsValue))
      (member : Text × JsValue) (mem : member ∈ members) (occurs : Occurs text member.2) :
      Occurs text (.object ref plain members)

/-- Some string or key of the value contains an unpaired surrogate. -/
def HasUnpaired (value : JsValue) : Prop := ∃ text, Occurs text value ∧ Unpaired text

theorem contentItems_eq (items : List JsValue) :
    contentItems items = items.map JsValue.content := by
  induction items with
  | nil => rfl
  | cons item items ih => rw [contentItems, ih, List.map_cons]

theorem contentMembers_eq (members : List (Text × JsValue)) :
    contentMembers members = members.map fun member => (member.1, member.2.content) := by
  induction members with
  | nil => rfl
  | cons member members ih => rw [contentMembers, ih, List.map_cons]

theorem serializeMembers_eq (members : List (Text × JsValue)) (path : Text) (seen : List Nat) :
    serializeMembers members path seen = members.map fun member =>
      (member.1, serializeValue member.2 (path ++ units "/" ++ pointerKey member.1) seen) := by
  induction members with
  | nil => rfl
  | cons member members ih => rw [serializeMembers, ih, List.map_cons]

@[simp] theorem hasUnpaired_str {text : Text} : HasUnpaired (.str text) ↔ Unpaired text := by
  constructor
  · rintro ⟨_, ⟨⟩, h⟩
    exact h
  · intro h
    exact ⟨text, .str, h⟩

@[simp] theorem hasUnpaired_array {ref : Nat} {items : List JsValue} :
    HasUnpaired (.array ref items) ↔ ∃ item ∈ items, HasUnpaired item := by
  constructor
  · rintro ⟨text, hoccurs, h⟩
    cases hoccurs with
    | item _ _ item hitem hoccurs => exact ⟨item, hitem, text, hoccurs, h⟩
  · rintro ⟨item, hitem, text, hoccurs, h⟩
    exact ⟨text, .item ref items item hitem hoccurs, h⟩

@[simp] theorem hasUnpaired_object {ref : Nat} {plain : Bool} {members : List (Text × JsValue)} :
    HasUnpaired (.object ref plain members) ↔
      ∃ member ∈ members, Unpaired member.1 ∨ HasUnpaired member.2 := by
  constructor
  · rintro ⟨text, hoccurs, h⟩
    cases hoccurs with
    | key _ _ _ value hmem => exact ⟨(text, value), hmem, .inl h⟩
    | value _ _ _ member hmem hoccurs => exact ⟨member, hmem, .inr ⟨text, hoccurs, h⟩⟩
  · rintro ⟨member, hmem, h | ⟨text, hoccurs, h⟩⟩
    · exact ⟨member.1, .key ref plain members member.2 hmem, h⟩
    · exact ⟨text, .value ref plain members member hmem hoccurs, h⟩

/-- A string between its quotes, every code unit escaped on its own. -/
def quoted (text : Text) : Text := quote :: (text.flatMap escapeUnit ++ [quote])

mutual

/-- The text of a value, its members in the order they have. -/
def written : Json → Text
  | .null => units "null"
  | .bool value => if value then units "true" else units "false"
  | .number lexeme => lexeme
  | .str text => quoted text
  | .arr items => openBracket :: (join comma (writtenItems items) ++ [closeBracket])
  | .obj members => openBrace :: (join comma (writtenMembers members) ++ [closeBrace])

def writtenItems : List Json → List Text
  | [] => []
  | item :: items => written item :: writtenItems items

def writtenMembers : List (Text × Json) → List Text
  | [] => []
  | (key, value) :: members =>
    (quoted key ++ colon :: written value) :: writtenMembers members

end

theorem writtenItems_eq (items : List Json) : writtenItems items = items.map written := by
  induction items with
  | nil => rfl
  | cons item items ih => rw [writtenItems, ih, List.map_cons]

theorem writtenMembers_eq (members : List (Text × Json)) :
    writtenMembers members =
      members.map fun member => quoted member.1 ++ colon :: written member.2 := by
  induction members with
  | nil => rfl
  | cons member members ih => rw [writtenMembers, ih, List.map_cons]

/-- The four digits after `\u` name the code again. -/
theorem hexUnit_leftpad : ∀ code : Fin 32,
    (match ((Nat.toDigits 16 code.val).leftpad 4 '0').map charUnit with
      | [a, b, c, d] => hexUnit a b c d
      | _ => none) = some (Fin.ofNat 65536 code.val) := by
  decide

theorem unicodeEscape_reads {code : CodeUnit} (h : code.val < 0x20) :
    ReadsInString
      (units "\\u" ++ ((Nat.toDigits 16 code.val).leftpad 4 '0').map charUnit) [code] := by
  have hunit := hexUnit_leftpad ⟨code.val, h⟩
  simp only at hunit
  split at hunit
  · next a b c d heq =>
    rw [heq]
    exact .hex (by simpa using hunit)
  · cases hunit

theorem shortEscape_reads {letter code unit : CodeUnit} (h : shortEscape letter = some unit)
    (hletter : letter ≠ 0x75) (hcode : code.val = unit.val) :
    ReadsInString [backslash, letter] [code] := by
  obtain rfl := Fin.ext hcode
  exact .short h hletter

/-- Nine kinds of code units: seven short escapes, the other controls, the rest. -/
theorem escapeUnit_reads {code : CodeUnit} : ReadsInString (escapeUnit code) [code] := by
  unfold escapeUnit
  split
  case h_8 hb ht hn hf hr hquote hslash =>
    by_cases hprint : code.val < 0x20
    · rw [if_pos hprint]
      exact unicodeEscape_reads hprint
    · rw [if_neg hprint]
      exact .plain (by rintro rfl; exact hquote rfl) (by rintro rfl; exact hslash rfl) hprint
  all_goals
    next heq => exact shortEscape_reads rfl (by decide) heq

/-- A surrogate half is written as it is. -/
theorem escapeUnit_surrogate {code : CodeUnit} (h : IsHigh code ∨ IsLow code) :
    escapeUnit code = [code] := by
  have hbig : 0xd800 ≤ code.val := by
    rcases h with h | h <;> · simp only [IsHigh, IsLow] at h; omega
  unfold escapeUnit
  split
  case h_8 => rw [if_neg (by omega)]
  all_goals omega

/-- Of an escape only ASCII units are written. -/
theorem escapeUnit_paired {code : CodeUnit} (hhigh : ¬ IsHigh code) (hlow : ¬ IsLow code) :
    ¬ Unpaired (escapeUnit code) := by
  have hdigits : ∀ code : Fin 32,
      (units "\\u" ++ ((Nat.toDigits 16 code.val).leftpad 4 '0').map charUnit).any isSurrogate =
        false := by
    decide
  refine not_unpaired_of_any ?_
  unfold escapeUnit
  split
  case h_8 =>
    by_cases hprint : code.val < 0x20
    · rw [if_pos hprint]
      exact hdigits ⟨code.val, hprint⟩
    · simp [if_neg hprint, isSurrogate, hhigh, hlow]
  all_goals rfl

/-- A string is read back whatever surrogates it has. -/
theorem flatMap_escapeUnit_reads (text : Text) : ReadsInString (text.flatMap escapeUnit) text := by
  induction text with
  | nil => exact .nil
  | cons u text ih => exact escapeUnit_reads.append ih

/-- The text is what is written of the value, without unpaired surrogates, and a
parser takes it for the value. -/
structure Encodes (text : Text) (value : Json) : Prop where
  eq : text = written value
  reads : Reads text value
  paired : ¬ Unpaired text

/-- A member of an object as text. -/
structure EncodesMember (text : Text) (member : Text × Json) : Prop where
  eq : text = quoted member.1 ++ colon :: written member.2
  reads : ReadsMember text member
  paired : ¬ Unpaired text

namespace Encodes

theorem str {text : Text} (h : ¬ Unpaired (quoted text)) : Encodes (quoted text) (.str text) where
  eq := by rw [written]
  reads := .str (flatMap_escapeUnit_reads text)
  paired := h

theorem member {key text : Text} {value : Json} (hkey : ¬ Unpaired (quoted key))
    (h : Encodes text value) : EncodesMember (quoted key ++ colon :: text) (key, value) where
  eq := by rw [h.eq]
  reads := by simpa [quoted] using ReadsMember.mk (flatMap_escapeUnit_reads key) h.reads
  paired := by
    refine not_unpaired_append hkey ?_
    rw [unpaired_cons_plain (by decide)]
    exact h.paired

theorem arr {texts : List Text} {items : List Json} (h : List.Forall₂ Encodes texts items) :
    Encodes (openBracket :: (join comma texts ++ [closeBracket])) (.arr items) where
  eq := by
    have heq : List.Forall₂ (fun text item => text = written item) texts items :=
      h.imp fun _ _ hencodes => hencodes.eq
    rw [← List.forall₂_map_right_iff, List.forall₂_eq_eq_eq] at heq
    rw [written, writtenItems_eq, heq]
  reads := .arr (h.imp fun _ _ hencodes => hencodes.reads)
  paired := by
    have hand := h.imp fun _ _ hencodes => And.intro hencodes.paired hencodes
    exact not_unpaired_between (by decide) (by decide)
      (not_unpaired_join (by decide) ((List.forall₂_and_left _ _).mp hand).1)

theorem obj {texts : List Text} {members : List (Text × Json)}
    (h : List.Forall₂ EncodesMember texts members) (hkeys : (members.map Prod.fst).Nodup) :
    Encodes (openBrace :: (join comma texts ++ [closeBrace])) (.obj members) where
  eq := by
    have heq : List.Forall₂ (fun text member => text = quoted member.1 ++ colon :: written member.2)
        texts members := h.imp fun _ _ hencodes => hencodes.eq
    rw [← List.forall₂_map_right_iff, List.forall₂_eq_eq_eq] at heq
    rw [written, writtenMembers_eq, heq]
  reads := .obj (h.imp fun _ _ hencodes => hencodes.reads) hkeys
  paired := by
    have hand := h.imp fun _ _ hencodes => And.intro hencodes.paired hencodes
    exact not_unpaired_between (by decide) (by decide)
      (not_unpaired_join (by decide) ((List.forall₂_and_left _ _).mp hand).1)

end Encodes

/-- The loop fails exactly at an unpaired surrogate. -/
theorem serializeUnits_spec (text path : Text) :
    FailsIff (Unpaired text) (serializeUnits text path)
      fun out => out = text.flatMap escapeUnit ∧ ¬ Unpaired out := by
  fun_induction serializeUnits text path with
  | case1 path => exact .returns [] not_unpaired_nil rfl ⟨rfl, not_unpaired_nil⟩
  | case2 code path hhigh => exact .fails _ (unpaired_of_high hhigh (by simp)) rfl
  | case3 code path hhigh next rest hnext =>
    refine .fails _ (unpaired_of_high hhigh ?_) rfl
    simp only [List.head?_cons, Option.some.injEq, forall_eq', IsLow]
    omega
  | case4 code path hhigh next rest hnext ih =>
    have hlow : IsLow next := by
      simp only [IsLow]
      omega
    rw [unpaired_cons_pair hhigh hlow]
    refine (ih.bind fun out hout => ?_).congr (or_iff_left id)
    refine FailsIff.ok ⟨?_, ?_⟩
    · rw [hout.1, List.flatMap_cons, List.flatMap_cons, escapeUnit_surrogate (.inl hhigh),
        escapeUnit_surrogate (.inr hlow)]
      rfl
    · rw [unpaired_cons_pair hhigh hlow]
      exact hout.2
  | case5 code rest path hhigh hlow => exact .fails _ (unpaired_of_low hlow rest) rfl
  | case6 code rest path hhigh hlow ih =>
    rw [unpaired_cons hhigh hlow]
    refine (ih.bind fun out hout => ?_).congr (or_iff_left id)
    refine FailsIff.ok ⟨?_, not_unpaired_append (escapeUnit_paired hhigh hlow) hout.2⟩
    rw [hout.1, List.flatMap_cons]

theorem serializeString_spec (text path : Text) :
    FailsIff (Unpaired text) (serializeString text path)
      fun out => out = quoted text ∧ ¬ Unpaired out := by
  refine ((serializeUnits_spec text path).bind fun out hout => ?_).congr (or_iff_left id)
  refine FailsIff.ok ⟨by rw [hout.1, quoted], ?_⟩
  exact not_unpaired_between (by decide) (by decide) hout.2

theorem serializeItems_spec {items : List JsValue} {seen : List Nat}
    (h : ∀ item ∈ items, ∀ path, FailsIff (HasUnpaired item) (serializeValue item path seen)
      (Encodes · item.content.sorted)) (path : Text) (index : Nat) :
    FailsIff (∃ item ∈ items, HasUnpaired item) (serializeItems items path index seen)
      (List.Forall₂ Encodes · (items.map fun item => item.content.sorted)) := by
  induction items generalizing index with
  | nil => exact .returns [] (by simp) rfl .nil
  | cons item items ih =>
    have htail := ih (fun other hother => h other (List.mem_cons_of_mem item hother)) (index + 1)
    have hsplit : HasUnpaired item ∨ (∃ other ∈ items, HasUnpaired other) ↔
        ∃ other ∈ item :: items, HasUnpaired other := by simp
    rw [serializeItems]
    refine ((h item List.mem_cons_self _).bind fun text htext => ?_).congr hsplit
    refine (htail.bind fun texts htexts => ?_).congr (or_iff_left id)
    exact FailsIff.ok (.cons htext htexts)

/-- `record[key]` is the value of the one member under the key. -/
theorem lookup_map_of_mem {α β : Type} {members : List (Text × α)} (f : Text × α → β)
    (hkeys : (members.map Prod.fst).Nodup) {member : Text × α} (hmem : member ∈ members) :
    (members.map fun m => (m.1, f m)).lookup member.1 = some (f member) := by
  induction members with
  | nil => cases hmem
  | cons head members ih =>
    rw [List.map_cons, List.nodup_cons] at hkeys
    rw [List.map_cons, List.lookup_cons]
    rcases List.mem_cons.mp hmem with rfl | hmem
    · simp
    · have hne : member.1 ≠ head.1 := fun heq => hkeys.1 (heq ▸ List.mem_map_of_mem hmem)
      simp [beq_eq_false_iff_ne.mpr hne, ih hkeys.2 hmem]

theorem serializeMember_spec {key path : Text} {value : JsValue} {encoded : Except Thrown Text}
    (h : FailsIff (HasUnpaired value) encoded (Encodes · value.content.sorted)) :
    FailsIff (Unpaired key ∨ HasUnpaired value)
      (do
        let encodedKey ← serializeString key path
        let encodedValue ← encoded
        .ok (encodedKey ++ colon :: encodedValue))
      (EncodesMember · (key, value.content.sorted)) := by
  refine (serializeString_spec key path).bind fun out hout => ?_
  obtain ⟨rfl, hpaired⟩ := hout
  refine (h.bind fun text htext => ?_).congr (or_iff_left id)
  exact FailsIff.ok (htext.member hpaired)

/-- The sorted keys pick each member once, so the entries are those of the
members sorted by key. -/
theorem serializeEntries_spec {members : List (Text × JsValue)} {seen : List Nat}
    (hkeys : (members.map Prod.fst).Nodup)
    (h : ∀ member ∈ members, ∀ path, FailsIff (HasUnpaired member.2)
      (serializeValue member.2 path seen) (Encodes · member.2.content.sorted))
    (path : Text) (absent : Text → Except Thrown Text) :
    FailsIff (∃ member ∈ members, Unpaired member.1 ∨ HasUnpaired member.2)
      ((sortKeys (members.map Prod.fst)).mapM fun key => do
        let encodedKey ← serializeString key path
        let encodedValue ← ((serializeMembers members path seen).lookup key).getD (absent key)
        .ok (encodedKey ++ colon :: encodedValue))
      (List.Forall₂ EncodesMember ·
        ((sortMembers members).map fun member => (member.1, member.2.content.sorted))) := by
  rw [sortKeys, ← map_fst_sortMembers, List.mapM_map]
  refine ((FailsIff.mapM (fun member => Unpaired member.1 ∨ HasUnpaired member.2)
    (fun member entry => EncodesMember entry (member.1, member.2.content.sorted))
    fun member hmember => ?_).mono fun entries hentries => ?_).congr ?_
  · have hmem := mem_sortMembers.mp hmember
    rw [Function.comp_apply, serializeMembers_eq, lookup_map_of_mem _ hkeys hmem]
    exact serializeMember_spec (h member hmem _)
  · exact List.forall₂_map_right_iff.mpr hentries.flip
  · simp only [mem_sortMembers]

/-- On a canonical value `serializeValue` fails exactly at an unpaired
surrogate, and otherwise writes the value with its keys sorted. -/
theorem serializeValue_spec {above : List Nat} {value : JsValue} (h : IsCanonical above value)
    (path : Text) :
    FailsIff (HasUnpaired value) (serializeValue value path above)
      (Encodes · value.content.sorted) := by
  induction h generalizing path with
  | null above =>
    exact .returns _ (by rintro ⟨_, ⟨⟩, _⟩) rfl ⟨rfl, .null, not_unpaired_of_any rfl⟩
  | bool above b =>
    refine .returns _ (by rintro ⟨_, ⟨⟩, _⟩) rfl ⟨rfl, .bool b, not_unpaired_of_any ?_⟩
    cases b <;> rfl
  | str above text =>
    rw [hasUnpaired_str, serializeValue]
    refine (serializeString_spec text path).mono fun out hout => ?_
    obtain ⟨rfl, hpaired⟩ := hout
    exact .str hpaired
  | array above ref items fresh each ih =>
    rw [hasUnpaired_array, serializeValue, if_neg fresh, JsValue.content, contentItems_eq,
      sorted_arr, List.map_map]
    have hitems := serializeItems_spec ih path 0
    refine (hitems.bind fun texts htexts => ?_).congr (or_iff_left id)
    exact FailsIff.ok (.arr htexts)
  | object above ref members fresh nodup each ih =>
    rw [hasUnpaired_object, serializeValue, if_neg fresh, JsValue.content, contentMembers_eq,
      sorted_obj, List.map_map]
    have hkeys : ((members.map fun member => (member.1, member.2.content.sorted)).map
        Prod.fst).Nodup := by
      rw [List.map_map]
      exact nodup
    refine ((serializeEntries_spec nodup ih path _).bind fun entries hentries => ?_).congr
      (or_iff_left id)
    rw [map_sortMembers] at hentries
    refine FailsIff.ok (.obj hentries ?_)
    exact ((perm_sortMembers _).map Prod.fst).nodup_iff.mpr hkeys

theorem IsCanonical.uniqueKeys {above : List Nat} {value : JsValue}
    (h : IsCanonical above value) : UniqueKeys value.content := by
  induction h with
  | null above => exact .null
  | bool above b => exact .bool b
  | str above text => exact .str text
  | array above ref items fresh each ih =>
    rw [JsValue.content, contentItems_eq]
    refine .arr _ fun item hitem => ?_
    obtain ⟨source, hsource, rfl⟩ := List.mem_map.mp hitem
    exact ih source hsource
  | object above ref members fresh nodup each ih =>
    rw [JsValue.content, contentMembers_eq]
    refine .obj _ (by rw [List.map_map]; exact nodup) fun member hmember => ?_
    obtain ⟨source, hsource, rfl⟩ := List.mem_map.mp hmember
    exact ih source hsource

theorem canonicalize_spec (value : CanonicalValue) :
    FailsIff (HasUnpaired value.value) (canonicalize value)
      (Encodes · value.value.content.sorted) :=
  serializeValue_spec value.canonical []

/-- Canonical serialization throws exactly on an unpaired surrogate. What it
returns is read back to the value, and tells two values apart exactly when they
differ in more than the order of object keys. -/
theorem canonicalize_faithful (v w : CanonicalValue) :
    ((∃ thrown, canonicalize v = .error thrown) ↔
      ∃ text, Occurs text v.value ∧ Unpaired text) ∧
    (∀ text, canonicalize v = .ok text →
      ∃ read, Json.parse text = some read ∧ Json.Same v.value.content read) ∧
    (∀ a b, canonicalize v = .ok a → canonicalize w = .ok b →
      (a = b ↔ Json.Same v.value.content w.value.content)) := by
  have huniqueV := v.canonical.uniqueKeys
  have huniqueW := w.canonical.uniqueKeys
  refine ⟨(canonicalize_spec v).exists_error_iff, fun text htext => ?_, fun a b ha hb => ?_⟩
  · have hencodes := (canonicalize_spec v).good_of_ok htext
    exact ⟨_, hencodes.reads.parse_eq, Json.same_sorted huniqueV⟩
  · have hencodesA := (canonicalize_spec v).good_of_ok ha
    have hencodesB := (canonicalize_spec w).good_of_ok hb
    rw [Json.same_iff_sorted_eq huniqueV huniqueW]
    constructor
    · rintro rfl
      exact Option.some.inj (hencodesA.reads.parse_eq.symm.trans hencodesB.reads.parse_eq)
    · intro hsorted
      rw [hencodesA.eq, hencodesB.eq, hsorted]

/-- Equal bytes are bytes of one canonical text. -/
theorem canonicalize_eq_of_bytes {v w : CanonicalValue} {bytes : List UInt8}
    (hv : canonicalBytes v = .ok bytes) (hw : canonicalBytes w = .ok bytes) :
    canonicalize v = canonicalize w := by
  obtain ⟨a, ha, hbytesA⟩ := bind_ok.mp hv
  obtain ⟨b, hb, hbytesB⟩ := bind_ok.mp hw
  have heq : encodeUtf8 a = encodeUtf8 b :=
    Except.ok.inj (hbytesA.trans hbytesB.symm)
  have hpairedA := ((canonicalize_spec v).good_of_ok ha).paired
  have hpairedB := ((canonicalize_spec w).good_of_ok hb).paired
  rw [ha, hb, encodeUtf8_injective hpairedA hpairedB heq]

end MpcRegistry.Canonical

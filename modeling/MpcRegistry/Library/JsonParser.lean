import MpcRegistry.Library.Json

/-!
# Reading JSON texts

A recursive descent parser over UTF-16 code units for the whole JSON grammar:
blanks between tokens, every escape, numbers kept as their lexeme, the last of
two members under one key. Writers are compared with it by composition: a text
`Reads` as a value when the parser takes exactly that text off any input.
-/
namespace MpcRegistry.Library.Json

def quote : CodeUnit := 0x22
def backslash : CodeUnit := 0x5c
def comma : CodeUnit := 0x2c
def colon : CodeUnit := 0x3a
def openBracket : CodeUnit := 0x5b
def closeBracket : CodeUnit := 0x5d
def openBrace : CodeUnit := 0x7b
def closeBrace : CodeUnit := 0x7d

/-- Tab, line feed, carriage return and space. -/
def isBlank (u : CodeUnit) : Bool := u = 0x09 || u = 0x0a || u = 0x0d || u = 0x20

@[simp] theorem isBlank_quote : isBlank quote = false := by decide

@[simp] theorem isBlank_comma : isBlank comma = false := by decide

@[simp] theorem isBlank_colon : isBlank colon = false := by decide

@[simp] theorem isBlank_closeBracket : isBlank closeBracket = false := by decide

@[simp] theorem isBlank_closeBrace : isBlank closeBrace = false := by decide

def skipBlank (input : Text) : Text := input.dropWhile isBlank

/-- The input after `u`, which must come next. -/
def expect (u : CodeUnit) (input : Text) : Option Text :=
  match skipBlank input with
  | [] => none
  | v :: rest => if v = u then some rest else none

def hexValue (u : CodeUnit) : Option Nat :=
  if 0x30 ≤ u ∧ u ≤ 0x39 then some (u.val - 0x30)
  else if 0x61 ≤ u ∧ u ≤ 0x66 then some (u.val - 0x61 + 10)
  else if 0x41 ≤ u ∧ u ≤ 0x46 then some (u.val - 0x41 + 10)
  else none

/-- The code unit four hexadecimal digits spell. -/
def hexUnit (a b c d : CodeUnit) : Option CodeUnit := do
  let a ← hexValue a
  let b ← hexValue b
  let c ← hexValue c
  let d ← hexValue d
  some (Fin.ofNat 65536 (((a * 16 + b) * 16 + c) * 16 + d))

/-- The code unit a one-letter escape stands for. -/
def shortEscape (u : CodeUnit) : Option CodeUnit :=
  if u = 0x22 ∨ u = 0x5c ∨ u = 0x2f then some u
  else if u = 0x62 then some 0x08
  else if u = 0x66 then some 0x0c
  else if u = 0x6e then some 0x0a
  else if u = 0x72 then some 0x0d
  else if u = 0x74 then some 0x09
  else none

/-- One more code unit in front of a string being read. -/
def prependUnit (u : CodeUnit) (tail : Option (Text × Text)) : Option (Text × Text) :=
  tail.map fun read => (u :: read.1, read.2)

/-- The rest of a string whose opening quote is read. -/
def readString : Text → Option (Text × Text)
  | [] => none
  | u :: rest =>
    if u = quote then some ([], rest)
    else if u = backslash then
      match rest with
      | [] => none
      | letter :: rest =>
        if letter = 0x75 then
          match rest with
          | a :: b :: c :: d :: rest =>
            (hexUnit a b c d).bind fun unit => prependUnit unit (readString rest)
          | _ => none
        else (shortEscape letter).bind fun unit => prependUnit unit (readString rest)
    else if u < 0x20 then none
    else prependUnit u (readString rest)

def isDigit (u : CodeUnit) : Bool := 0x30 ≤ u && u ≤ 0x39

/-- One digit or more. -/
def readDigits (input : Text) : Option (Text × Text) :=
  if input.takeWhile isDigit = [] then none
  else some (input.takeWhile isDigit, input.dropWhile isDigit)

def readSign (input : Text) : Text × Text :=
  if input.head? = some 0x2d then ([0x2d], input.tail) else ([], input)

/-- Digits without a leading zero. -/
def readWhole (input : Text) : Option (Text × Text) :=
  if input.head? = some 0x30 then some ([0x30], input.tail) else readDigits input

def readFraction (input : Text) : Option (Text × Text) :=
  if input.head? = some 0x2e then
    (readDigits input.tail).map fun read => (0x2e :: read.1, read.2)
  else some ([], input)

def readExponentSign (input : Text) : Text × Text :=
  if input.head? = some 0x2b then ([0x2b], input.tail) else readSign input

def readExponent (input : Text) : Option (Text × Text) :=
  match input with
  | [] => some ([], [])
  | e :: rest =>
    if e = 0x65 ∨ e = 0x45 then
      let sign := readExponentSign rest
      (readDigits sign.2).map fun read => (e :: sign.1 ++ read.1, read.2)
    else some ([], input)

def readNumber (input : Text) : Option (Json × Text) := do
  let sign := readSign input
  let whole ← readWhole sign.2
  let fraction ← readFraction whole.2
  let exponent ← readExponent fraction.2
  some (.number (sign.1 ++ whole.1 ++ fraction.1 ++ exponent.1), exponent.2)

def readWord (word : Text) (value : Json) (input : Text) : Option (Json × Text) :=
  if word.isPrefixOf input then some (value, input.drop word.length) else none

/-- A member read later replaces the value an earlier one gave its key. -/
def setMember (members : List (Text × Json)) (member : Text × Json) : List (Text × Json) :=
  if member.1 ∈ members.map Prod.fst then
    members.map fun earlier => if earlier.1 = member.1 then member else earlier
  else members ++ [member]

mutual

/-- One value at the front of the input. The fuel bounds the nesting and the
items; the length of the input is enough. -/
def readValue : Nat → Text → Option (Json × Text)
  | 0, _ => none
  | fuel + 1, input =>
    match skipBlank input with
    | [] => none
    | u :: rest =>
      if u = quote then (readString rest).map fun read => (.str read.1, read.2)
      else if u = openBracket then
        match expect closeBracket rest with
        | some rest => some (.arr [], rest)
        | none => (readItems fuel rest).map fun read => (.arr read.1, read.2)
      else if u = openBrace then
        match expect closeBrace rest with
        | some rest => some (.obj [], rest)
        | none =>
          (readMembers fuel rest).map fun read => (.obj (read.1.foldl setMember []), read.2)
      else
        readWord (units "null") .null (u :: rest) <|>
          readWord (units "true") (.bool true) (u :: rest) <|>
          readWord (units "false") (.bool false) (u :: rest) <|> readNumber (u :: rest)

/-- The items of an array up to its closing bracket, at least one. -/
def readItems : Nat → Text → Option (List Json × Text)
  | 0, _ => none
  | fuel + 1, input => do
    let item ← readValue fuel input
    match expect comma item.2 with
    | some rest => (readItems fuel rest).map fun read => (item.1 :: read.1, read.2)
    | none => (expect closeBracket item.2).map fun rest => ([item.1], rest)

/-- The members of an object up to its closing brace, at least one. -/
def readMembers : Nat → Text → Option (List (Text × Json) × Text)
  | 0, _ => none
  | fuel + 1, input => do
    let opened ← expect quote input
    let key ← readString opened
    let rest ← expect colon key.2
    let value ← readValue fuel rest
    match expect comma value.2 with
    | some rest => (readMembers fuel rest).map fun read => ((key.1, value.1) :: read.1, read.2)
    | none => (expect closeBrace value.2).map fun rest => ([(key.1, value.1)], rest)

end

/-- A text that is one value, with nothing but blanks after it. -/
def parse (text : Text) : Option Json :=
  match readValue (text.length + 1) text with
  | some (value, rest) => if skipBlank rest = [] then some value else none
  | none => none

/-- `separator` between every two texts. -/
def join (separator : CodeUnit) : List Text → Text
  | [] => []
  | [text] => text
  | text :: next :: texts => text ++ separator :: join separator (next :: texts)

/-- Joining by a plain unit leaves surrogates paired. -/
theorem not_unpaired_join {separator : CodeUnit} (hsep : Utf16.isSurrogate separator = false)
    {texts : List Text} (h : ∀ text ∈ texts, ¬ Utf16.Unpaired text) :
    ¬ Utf16.Unpaired (join separator texts) := by
  fun_induction join separator texts with
  | case1 => exact Utf16.not_unpaired_nil
  | case2 text => exact h text (by simp)
  | case3 text next texts ih =>
    refine Utf16.not_unpaired_append (h text (by simp)) ?_
    rw [Utf16.unpaired_cons_plain hsep]
    exact ih fun other hother => h other (List.mem_cons_of_mem _ hother)

/-- So does putting a text between two plain units. -/
theorem not_unpaired_between {first last : CodeUnit} (hfirst : Utf16.isSurrogate first = false)
    (hlast : Utf16.isSurrogate last = false) {text : Text} (h : ¬ Utf16.Unpaired text) :
    ¬ Utf16.Unpaired (first :: (text ++ [last])) := by
  rw [Utf16.unpaired_cons_plain hfirst]
  exact Utf16.not_unpaired_append h (Utf16.not_unpaired_of_any (by simp [hlast]))

/-- Inside a string, the parser takes `body` for `text`, whatever follows. -/
structure ReadsInString (body text : Text) : Prop where
  read : ∀ rest, readString (body ++ rest) =
    (readString rest).map fun read => (text ++ read.1, read.2)

namespace ReadsInString

theorem nil : ReadsInString [] [] := ⟨fun rest => by simp⟩

theorem append {a b s t : Text} (ha : ReadsInString a s) (hb : ReadsInString b t) :
    ReadsInString (a ++ b) (s ++ t) := by
  refine ⟨fun rest => ?_⟩
  rw [List.append_assoc, ha.read, hb.read, Option.map_map]
  simp [Function.comp_def]

/-- A code unit that needs no escape is read as itself. -/
theorem plain {u : CodeUnit} (hquote : u ≠ quote) (hslash : u ≠ backslash) (hprint : ¬ u < 0x20) :
    ReadsInString [u] [u] := by
  refine ⟨fun rest => ?_⟩
  rw [List.singleton_append, readString.eq_def]
  simp [hquote, hslash, hprint, prependUnit]

theorem short {letter u : CodeUnit} (h : shortEscape letter = some u) (hletter : letter ≠ 0x75) :
    ReadsInString [backslash, letter] [u] := by
  refine ⟨fun rest => ?_⟩
  rw [List.cons_append, List.singleton_append, readString.eq_def]
  simp [show backslash ≠ quote by decide, hletter, h, prependUnit]

theorem hex {a b c d u : CodeUnit} (h : hexUnit a b c d = some u) :
    ReadsInString [backslash, 0x75, a, b, c, d] [u] := by
  refine ⟨fun rest => ?_⟩
  simp only [List.cons_append, List.nil_append]
  rw [readString.eq_def]
  simp [show backslash ≠ quote by decide, h, prependUnit]

/-- The closing quote ends the string. -/
theorem closed {body text : Text} (h : ReadsInString body text) (rest : Text) :
    readString (body ++ quote :: rest) = some (text, rest) := by
  rw [h.read, readString.eq_def]
  simp

end ReadsInString

theorem skipBlank_cons {u : CodeUnit} (h : isBlank u = false) (rest : Text) :
    skipBlank (u :: rest) = u :: rest := by
  simp [skipBlank, h]

theorem expect_cons_self {u : CodeUnit} (h : isBlank u = false) (rest : Text) :
    expect u (u :: rest) = some rest := by
  simp [expect, skipBlank_cons h]

theorem expect_cons_other {u v : CodeUnit} (h : isBlank v = false) (hne : v ≠ u) (rest : Text) :
    expect u (v :: rest) = none := by
  simp [expect, skipBlank_cons h, hne]

theorem readValue_closeBracket (fuel : Nat) {input tail : Text}
    (h : skipBlank input = closeBracket :: tail) : readValue (fuel + 1) input = none := by
  rw [readValue, h]
  rfl

/-- The parser takes exactly `text` for `value` off any input that starts with
it; a unit of fuel for each code unit is enough. -/
structure Reads (text : Text) (value : Json) : Prop where
  read : ∀ fuel rest, text.length ≤ fuel → readValue fuel (text ++ rest) = some (value, rest)

/-- A member of an object: a string, a colon and a value. -/
inductive ReadsMember : Text → Text × Json → Prop where
  | mk {body key text : Text} {value : Json} (hkey : ReadsInString body key)
      (hvalue : Reads text value) :
      ReadsMember (quote :: (body ++ quote :: colon :: text)) (key, value)

namespace Reads

theorem parse_eq {text : Text} {value : Json} (h : Reads text value) :
    parse text = some value := by
  have hread := h.read (text.length + 1) [] (by omega)
  rw [List.append_nil] at hread
  simp [parse, hread, skipBlank]

theorem null : Reads (units "null") .null := by
  refine ⟨fun fuel rest hfuel => ?_⟩
  obtain ⟨fuel, rfl⟩ := Nat.exists_eq_add_one_of_ne_zero (Nat.ne_zero_of_lt hfuel)
  rfl

theorem bool (b : Bool) : Reads (if b then units "true" else units "false") (.bool b) := by
  refine ⟨fun fuel rest hfuel => ?_⟩
  cases b <;>
  · obtain ⟨fuel, rfl⟩ := Nat.exists_eq_add_one_of_ne_zero (Nat.ne_zero_of_lt hfuel)
    rfl

theorem str {body text : Text} (h : ReadsInString body text) :
    Reads (quote :: (body ++ [quote])) (.str text) := by
  refine ⟨fun fuel rest hfuel => ?_⟩
  obtain ⟨fuel, rfl⟩ := Nat.exists_eq_add_one_of_ne_zero (Nat.ne_zero_of_lt hfuel)
  have hclosed := h.closed rest
  simp only [List.cons_append, List.append_assoc, List.nil_append, readValue]
  rw [skipBlank_cons isBlank_quote]
  simp [hclosed]

/-- A value does not start with a closing bracket. -/
theorem expect_closeBracket {text : Text} {value : Json} (h : Reads text value) (rest : Text) :
    expect closeBracket (text ++ rest) = none := by
  have hread := h.read (text.length + 1) rest (by omega)
  unfold expect
  split
  · rfl
  · next v tail heq =>
    rw [if_neg]
    rintro rfl
    rw [readValue_closeBracket _ heq] at hread
    cases hread

theorem readItems_join {texts : List Text} {items : List Json}
    (h : List.Forall₂ Reads texts items) (hne : texts ≠ []) (fuel : Nat) (rest : Text)
    (hfuel : (join comma texts).length < fuel) :
    readItems fuel (join comma texts ++ closeBracket :: rest) = some (items, rest) := by
  induction h generalizing fuel with
  | nil => exact absurd rfl hne
  | @cons text item texts items hitem hitems ih =>
    obtain ⟨fuel, rfl⟩ := Nat.exists_eq_add_one_of_ne_zero (Nat.ne_zero_of_lt hfuel)
    cases hitems with
    | nil =>
      rw [readItems, join, hitem.read fuel _ (by simpa [join, Nat.lt_succ_iff] using hfuel)]
      simp [expect_cons_self, expect_cons_other, show closeBracket ≠ comma by decide]
    | @cons next item' texts items hnext hrest =>
      simp only [join, List.length_append, List.length_cons] at hfuel
      rw [readItems, join, List.append_assoc, hitem.read fuel _ (by omega)]
      have htail := ih (by simp) fuel (by omega)
      simp [expect_cons_self, htail]

theorem arr {texts : List Text} {items : List Json} (h : List.Forall₂ Reads texts items) :
    Reads (openBracket :: (join comma texts ++ [closeBracket])) (.arr items) := by
  refine ⟨fun fuel rest hfuel => ?_⟩
  obtain ⟨fuel, rfl⟩ := Nat.exists_eq_add_one_of_ne_zero (Nat.ne_zero_of_lt hfuel)
  simp only [List.length_cons, List.length_append, List.length_nil] at hfuel
  simp only [List.cons_append, List.append_assoc, List.nil_append, readValue]
  rw [skipBlank_cons (by decide)]
  cases h with
  | nil =>
    simp [join, expect_cons_self, show openBracket ≠ quote by decide]
  | @cons text item texts items hitem hitems =>
    have hitem' : expect closeBracket (join comma (text :: texts) ++ closeBracket :: rest) = none := by
      cases texts with
      | nil => exact hitem.expect_closeBracket _
      | cons next texts =>
        rw [join, List.append_assoc]
        exact hitem.expect_closeBracket _
    have hread := readItems_join (.cons hitem hitems) (by simp) fuel rest (by omega)
    simp [hitem', hread, show openBracket ≠ quote by decide]

theorem readMembers_join {texts : List Text} {members : List (Text × Json)}
    (h : List.Forall₂ ReadsMember texts members) (hne : texts ≠ []) (fuel : Nat) (rest : Text)
    (hfuel : (join comma texts).length < fuel) :
    readMembers fuel (join comma texts ++ closeBrace :: rest) = some (members, rest) := by
  induction h generalizing fuel with
  | nil => exact absurd rfl hne
  | @cons text member texts members hmember hmembers ih =>
    obtain ⟨fuel, rfl⟩ := Nat.exists_eq_add_one_of_ne_zero (Nat.ne_zero_of_lt hfuel)
    obtain ⟨hkey, hvalue⟩ := hmember
    cases hmembers with
    | nil =>
      simp only [join, List.length_cons, List.length_append] at hfuel
      have hread := hvalue.read fuel (closeBrace :: rest) (by omega)
      simp [readMembers, join, expect_cons_self, expect_cons_other, hkey.closed, hread,
        show closeBrace ≠ comma by decide]
    | @cons next member' texts members hnext hrest =>
      simp only [join, List.length_append, List.length_cons] at hfuel
      have hread := hvalue.read fuel
        (comma :: (join comma (next :: texts) ++ closeBrace :: rest)) (by omega)
      have htail := ih (by simp) fuel (by omega)
      simp [readMembers, join, expect_cons_self, hkey.closed, hread, htail]

/-- Distinct keys replace nothing: the object has its members as they were read. -/
theorem foldl_setMember {earlier members : List (Text × Json)}
    (h : ((earlier ++ members).map Prod.fst).Nodup) :
    members.foldl setMember earlier = earlier ++ members := by
  induction members generalizing earlier with
  | nil => simp
  | cons member members ih =>
    have hfresh : member.1 ∉ earlier.map Prod.fst := by
      simp only [List.map_append, List.map_cons, List.nodup_append, List.mem_cons] at h
      exact fun hmem => h.2.2 _ hmem _ (.inl rfl) rfl
    rw [List.foldl_cons, setMember, if_neg hfresh, ih (by simpa using h)]
    simp

theorem obj {texts : List Text} {members : List (Text × Json)}
    (h : List.Forall₂ ReadsMember texts members) (hkeys : (members.map Prod.fst).Nodup) :
    Reads (openBrace :: (join comma texts ++ [closeBrace])) (.obj members) := by
  refine ⟨fun fuel rest hfuel => ?_⟩
  obtain ⟨fuel, rfl⟩ := Nat.exists_eq_add_one_of_ne_zero (Nat.ne_zero_of_lt hfuel)
  simp only [List.length_cons, List.length_append, List.length_nil] at hfuel
  simp only [List.cons_append, List.append_assoc, List.nil_append, readValue]
  rw [skipBlank_cons (by decide)]
  have hfold : members.foldl setMember [] = members := foldl_setMember (by simpa using hkeys)
  cases h with
  | nil =>
    simp [join, expect_cons_self, show openBrace ≠ quote by decide,
      show openBrace ≠ openBracket by decide]
  | @cons text member texts members hmember hmembers =>
    have hopen : expect closeBrace (join comma (text :: texts) ++ closeBrace :: rest) = none := by
      obtain ⟨hkey, hvalue⟩ := hmember
      cases texts <;> exact expect_cons_other (by decide) (by decide) _
    have hread := readMembers_join (.cons hmember hmembers) (by simp) fuel rest (by omega)
    simp [hopen, hread, hfold, show openBrace ≠ quote by decide,
      show openBrace ≠ openBracket by decide]

end Reads

end MpcRegistry.Library.Json

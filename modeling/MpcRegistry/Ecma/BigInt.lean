import MpcRegistry.Canonical.Hash

/-!
# Integers in texts

`BigInt(text)` and `BigInt.prototype.toString` as ECMAScript defines them, and the
decimal texts that the packages' patterns let through.
-/
namespace MpcRegistry.Ecma
open Library Canonical

def trim (text : Text) : Text := (text.dropWhile isWhiteSpace).rdropWhile isWhiteSpace

def digitStep (radix value : Nat) (u : CodeUnit) : Option Nat :=
  (Json.hexValue u).bind fun digit => if digit < radix then some (value * radix + digit) else none

/-- The number that digits below `radix` write; no digits write none. -/
def digitsValue (radix : Nat) (digits : Text) : Option Nat :=
  if digits = [] then none else digits.foldlM (digitStep radix) 0

/-- `BigInt(text)`: blanks around a decimal with a sign, or around a hexadecimal, octal
or binary literal. A blank text is zero. -/
def parseBigInt (text : Text) : Option Int :=
  let literal := trim text
  match literal with
  | [] => some 0
  | 0x2b :: digits => (digitsValue 10 digits).map Int.ofNat
  | 0x2d :: digits => (digitsValue 10 digits).map fun value : Nat => -(value : Int)
  | _ =>
    if literal.take 2 = units "0x" ∨ literal.take 2 = units "0X" then
      (digitsValue 16 (literal.drop 2)).map Int.ofNat
    else if literal.take 2 = units "0o" ∨ literal.take 2 = units "0O" then
      (digitsValue 8 (literal.drop 2)).map Int.ofNat
    else if literal.take 2 = units "0b" ∨ literal.take 2 = units "0B" then
      (digitsValue 2 (literal.drop 2)).map Int.ofNat
    else (digitsValue 10 literal).map Int.ofNat

/-- `value.toString()` of an integer that is not negative. -/
def decimalText (value : Nat) : Text := (Nat.toDigits 10 value).map charUnit

/-- `/^[1-9][0-9]*$/` -/
def isPositiveDecimal (text : Text) : Bool :=
  match text with
  | [] => false
  | first :: rest => 0x31 ≤ first && first ≤ 0x39 && rest.all Json.isDigit

/-! ## Decimal digits -/

/-- The unit of a decimal digit. -/
def digitUnit (digit : Fin 10) : CodeUnit := Fin.ofNat 65536 (0x30 + digit)

theorem charUnit_digitChar (digit : Fin 10) : charUnit (Nat.digitChar digit) = digitUnit digit := by
  revert digit
  decide

theorem hexValue_digitUnit (digit : Fin 10) : Json.hexValue (digitUnit digit) = some digit.val := by
  revert digit
  decide

theorem not_isWhiteSpace_digitUnit (digit : Fin 10) : isWhiteSpace (digitUnit digit) = false := by
  revert digit
  decide

theorem isDigit_digitUnit (digit : Fin 10) : Json.isDigit (digitUnit digit) = true := by
  revert digit
  decide

theorem exists_digitUnit {u : CodeUnit} (h : Json.isDigit u = true) : ∃ digit, digitUnit digit = u := by
  simp only [Json.isDigit, Bool.and_eq_true, decide_eq_true_eq, Fin.le_def] at h
  change 0x30 ≤ u.val ∧ u.val ≤ 0x39 at h
  refine ⟨⟨u.val - 0x30, by omega⟩, Fin.ext ?_⟩
  simp only [digitUnit, Fin.ofNat]
  omega

theorem decimalText_digit (digit : Fin 10) : decimalText digit.val = [digitUnit digit] := by
  rw [decimalText, Nat.toDigits_of_lt_base digit.isLt, List.map_singleton, charUnit_digitChar]

theorem decimalText_append {value : Nat} (hpos : 0 < value) (digit : Fin 10) :
    decimalText (10 * value + digit.val) = decimalText value ++ [digitUnit digit] := by
  rw [← decimalText_digit]
  simp only [decimalText]
  rw [← Nat.toDigits_append_toDigits (by decide) hpos digit.isLt, List.map_append]

/-- A positive decimal is the text of its number. -/
theorem exists_decimalText {text : Text} (h : isPositiveDecimal text = true) :
    ∃ value, 0 < value ∧ text = decimalText value := by
  cases text with
  | nil => cases h
  | cons first rest =>
    simp only [isPositiveDecimal, Bool.and_eq_true, decide_eq_true_eq, Fin.le_def] at h
    obtain ⟨⟨hlow, hhigh⟩, hrest⟩ := h
    change 0x31 ≤ first.val at hlow
    change first.val ≤ 0x39 at hhigh
    induction rest using List.reverseRecOn with
    | nil =>
      refine ⟨first.val - 0x30, by omega, ?_⟩
      have hdigit := decimalText_digit ⟨first.val - 0x30, by omega⟩
      rw [hdigit]
      simp only [digitUnit, List.cons.injEq, and_true]
      apply Fin.ext
      simp only [Fin.ofNat]
      omega
    | append_singleton rest last ih =>
      simp only [List.all_append, Bool.and_eq_true, List.all_cons, List.all_nil] at hrest
      obtain ⟨value, hpos, heq⟩ := ih hrest.1
      obtain ⟨digit, rfl⟩ := exists_digitUnit hrest.2.1
      refine ⟨10 * value + digit.val, by omega, ?_⟩
      rw [decimalText_append hpos, ← heq, List.cons_append]

theorem foldlM_decimalText (value : Nat) :
    (decimalText value).foldlM (digitStep 10) 0 = some value := by
  induction value using Nat.strongRecOn with
  | ind value ih =>
    have hstep : ∀ front (digit : Fin 10),
        digitStep 10 front (digitUnit digit) = some (front * 10 + digit.val) := by
      intro front digit
      simp [digitStep, hexValue_digitUnit]
    by_cases hlt : value < 10
    · rw [decimalText_digit ⟨value, hlt⟩]
      simp [hstep]
    · have hfront : 0 < value / 10 := by omega
      have hsplit := decimalText_append hfront ⟨value % 10, by omega⟩
      rw [Nat.div_add_mod] at hsplit
      rw [hsplit, List.foldlM_append, ih (value / 10) (by omega)]
      simp only [Option.bind_eq_bind, Option.bind_some, List.foldlM_cons, hstep, List.foldlM_nil]
      simp only [Option.pure_def, Option.some.injEq]
      omega

theorem all_isDigit_decimalText (value : Nat) : (decimalText value).all Json.isDigit = true := by
  induction value using Nat.strongRecOn with
  | ind value ih =>
    by_cases hlt : value < 10
    · rw [decimalText_digit ⟨value, hlt⟩]
      simp [isDigit_digitUnit]
    · have hfront : 0 < value / 10 := by omega
      have hsplit := decimalText_append hfront ⟨value % 10, by omega⟩
      rw [Nat.div_add_mod] at hsplit
      rw [hsplit, List.all_append, ih (value / 10) (by omega)]
      simp [isDigit_digitUnit]

theorem decimalText_ne_nil (value : Nat) : decimalText value ≠ [] := by
  simp [decimalText, Nat.toDigits_ne_nil]

theorem trim_of_all_isDigit {text : Text} (h : text.all Json.isDigit = true) : trim text = text := by
  have hblank : ∀ u ∈ text, isWhiteSpace u = false := by
    intro u hu
    obtain ⟨digit, rfl⟩ := exists_digitUnit (List.all_eq_true.mp h u hu)
    exact not_isWhiteSpace_digitUnit digit
  have hfront : text.dropWhile isWhiteSpace = text := by
    cases text with
    | nil => rfl
    | cons u rest => rw [List.dropWhile_cons_of_neg (by simp [hblank u List.mem_cons_self])]
  rw [trim, hfront, List.rdropWhile_eq_self_iff]
  intro hne
  simp [hblank _ (List.getLast_mem hne)]

/-- A text of digits is read as a decimal, never as another literal. -/
theorem parseBigInt_of_all_isDigit {text : Text} (hne : text ≠ [])
    (h : text.all Json.isDigit = true) :
    parseBigInt text = (digitsValue 10 text).map Int.ofNat := by
  have hradix : ∀ letter : Text, letter.any (fun u => !Json.isDigit u) → text.take 2 ≠ letter := by
    rintro letter hletter rfl
    obtain ⟨u, hmem, hu⟩ := List.any_eq_true.mp hletter
    simp [List.all_eq_true.mp h u (List.mem_of_mem_take hmem)] at hu
  unfold parseBigInt
  rw [trim_of_all_isDigit h]
  dsimp only
  split
  · exact absurd rfl hne
  · next digits => simp [Json.isDigit] at h
  · next digits => simp [Json.isDigit] at h
  · rw [if_neg (not_or.mpr ⟨hradix _ (by decide), hradix _ (by decide)⟩),
      if_neg (not_or.mpr ⟨hradix _ (by decide), hradix _ (by decide)⟩),
      if_neg (not_or.mpr ⟨hradix _ (by decide), hradix _ (by decide)⟩)]

@[simp] theorem parseBigInt_decimalText (value : Nat) :
    parseBigInt (decimalText value) = some (value : Int) := by
  rw [parseBigInt_of_all_isDigit (decimalText_ne_nil value) (all_isDigit_decimalText value),
    digitsValue, if_neg (decimalText_ne_nil value), foldlM_decimalText]
  rfl

end MpcRegistry.Ecma

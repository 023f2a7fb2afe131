import MpcRegistry.Canonical.Jcs
import MpcRegistry.Library.Outcome

/-!
# Hex texts of byte strings

Source: packages/canonical/src/hash.ts:1-47. Keccak-256 is a dependency; here it
is a parameter that returns 32 bytes. `Number.parseInt` follows ECMAScript.
-/
namespace MpcRegistry.Canonical
open Library

abbrev Bytes := List UInt8

/-- What `keccak_256` returns. -/
abbrev Digest := { bytes : Bytes // bytes.length = 32 }

def hexChars : Text := units "0123456789abcdef"

/-- The two digits of one byte. -/
def hexPair (byte : UInt8) : Text :=
  [hexChars.getD (byte >>> 4).toNat 0, hexChars.getD (byte &&& 0x0f).toNat 0]

def bytesToHex (bytes : Bytes) : Text := units "0x" ++ bytes.flatMap hexPair

/-- ECMAScript's white space and line terminators. -/
def isWhiteSpace (u : CodeUnit) : Bool :=
  u ∈ [0x09, 0x0a, 0x0b, 0x0c, 0x0d, 0x20, 0xa0, 0x1680, 0x2028, 0x2029, 0x202f, 0x205f, 0x3000,
    0xfeff] || (0x2000 ≤ u && u ≤ 0x200a)

/-- The digits in front of the first other unit, as a number; none is NaN. -/
def parseDigits16 (text : Text) : Option Nat :=
  match text.map Json.hexValue |>.takeWhile Option.isSome with
  | [] => none
  | digits => some (digits.foldl (fun value digit => value * 16 + digit.getD 0) 0)

/-- `Number.parseInt(text, 16)`: blanks, a sign and `0x` may come first. -/
def parseInt16 (text : Text) : Option Int :=
  let text := text.dropWhile isWhiteSpace
  let negative := text.head? = some 0x2d
  let text := if negative ∨ text.head? = some 0x2b then text.tail else text
  let text := if text.take 2 = units "0x" ∨ text.take 2 = units "0X" then text.drop 2 else text
  (parseDigits16 text).map fun value => if negative then -(value : Int) else value

/-- One round of the loop: two units of the text `hex`, stored as a byte. -/
def hexByte (hex : Text) (high low : CodeUnit) : Except Thrown UInt8 :=
  (parseInt16 [high, low]).elim (.error (.error (units "Not hex: " ++ hex))) fun parsed =>
    .ok (UInt8.ofInt parsed)

/-- The loop, over units in pairs. -/
def hexPairs (hex : Text) : Text → Except Thrown Bytes
  | high :: low :: rest => do
    let byte ← hexByte hex high low
    let bytes ← hexPairs hex rest
    .ok (byte :: bytes)
  | _ => .ok []

def hexToBytes (hex : Text) : Except Thrown Bytes :=
  let body := if hex.take 2 = units "0x" then hex.drop 2 else hex
  if body.length % 2 ≠ 0 then .error (.error (units "Odd hex length: " ++ hex))
  else hexPairs hex body

def keccak256 (keccak_256 : Bytes → Digest) (input : Bytes) : Text :=
  bytesToHex (keccak_256 input).val

def isLowerHex (u : CodeUnit) : Bool := (0x30 ≤ u && u ≤ 0x39) || (0x61 ≤ u && u ≤ 0x66)

/-- `0x` and 64 lowercase hex digits, nothing before or after. -/
def isBytes32 (value : Text) : Bool :=
  value.take 2 = units "0x" && (value.drop 2).length = 64 && (value.drop 2).all isLowerHex

def assertBytes32 (value label : Text) : Except Thrown Unit :=
  if isBytes32 value then .ok ()
  else .error (.error (label ++ units " must be 32-byte lowercase hex: " ++ value))

theorem parseInt16_hexPair (byte : UInt8) :
    parseInt16 (hexPair byte) = some (byte.toFin.val : Int) := by
  have hall : ∀ n : Fin 256, parseInt16 (hexPair (UInt8.ofFin n)) = some (n.val : Int) := by
    decide +kernel
  have hbyte := hall byte.toFin
  rwa [UInt8.ofFin_toFin] at hbyte

/-- The two digits written for a byte are stored as that byte. -/
theorem hexByte_hexPair (hex : Text) (byte : UInt8) :
    hexByte hex (hexChars.getD (byte >>> 4).toNat 0) (hexChars.getD (byte &&& 0x0f).toNat 0) =
      .ok byte := by
  have hall : ∀ n : Fin 256, UInt8.ofInt (n.val : Int) = UInt8.ofFin n := by decide +kernel
  have hparsed := parseInt16_hexPair byte
  rw [hexPair] at hparsed
  rw [hexByte, hparsed, Option.elim_some, hall, UInt8.ofFin_toFin]

theorem hexPairs_flatMap (hex : Text) (bytes : Bytes) :
    hexPairs hex (bytes.flatMap hexPair) = .ok bytes := by
  induction bytes with
  | nil => rfl
  | cons byte bytes ih =>
    rw [List.flatMap_cons, hexPair, List.cons_append, List.singleton_append, hexPairs,
      hexByte_hexPair, ih]
    rfl

theorem length_flatMap_hexPair (bytes : Bytes) :
    (bytes.flatMap hexPair).length = 2 * bytes.length := by
  induction bytes with
  | nil => rfl
  | cons byte bytes ih =>
    rw [List.flatMap_cons, List.length_append, ih, hexPair, List.length_cons]
    simp
    omega

@[simp] theorem hexToBytes_bytesToHex (bytes : Bytes) :
    hexToBytes (bytesToHex bytes) = .ok bytes := by
  have htake : (bytesToHex bytes).take 2 = units "0x" := rfl
  have hdrop : (bytesToHex bytes).drop 2 = bytes.flatMap hexPair := rfl
  have heven : ¬ (bytes.flatMap hexPair).length % 2 ≠ 0 := by
    rw [length_flatMap_hexPair]
    omega
  rw [hexToBytes, if_pos htake, hdrop, if_neg heven, hexPairs_flatMap]

theorem bytesToHex_injective {a b : Bytes} (h : bytesToHex a = bytesToHex b) : a = b := by
  have hread := congrArg hexToBytes h
  simpa using hread

theorem all_isLowerHex_hexPair (byte : UInt8) : (hexPair byte).all isLowerHex = true := by
  have hall : ∀ n : Fin 256, (hexPair (UInt8.ofFin n)).all isLowerHex = true := by
    decide +kernel
  rw [← UInt8.ofFin_toFin byte]
  exact hall byte.toFin

theorem isBytes32_bytesToHex (digest : Digest) : isBytes32 (bytesToHex digest.val) = true := by
  have hdrop : (bytesToHex digest.val).drop 2 = digest.val.flatMap hexPair := rfl
  simp only [isBytes32, hdrop, length_flatMap_hexPair, digest.property, List.all_flatMap,
    all_isLowerHex_hexPair]
  simp [bytesToHex, units]

theorem exists_hexChar {u : CodeUnit} (h : isLowerHex u = true) :
    ∃ n : Fin 16, hexChars.getD n 0 = u := by
  have hdecimal : ∀ n : Fin 10, hexChars.getD n 0 = Fin.ofNat 65536 (0x30 + n) := by decide
  have hletter : ∀ n : Fin 6, hexChars.getD (10 + n) 0 = Fin.ofNat 65536 (0x61 + n) := by decide
  have hback : ∀ least, least ≤ u.val → Fin.ofNat 65536 (least + (u.val - least)) = u := by
    intro least hleast
    simp [Nat.add_sub_cancel' hleast]
  simp only [isLowerHex, Bool.or_eq_true, Bool.and_eq_true, decide_eq_true_eq, Fin.le_def] at h
  rcases h with ⟨hmin, hmax⟩ | ⟨hmin, hmax⟩
  · change 0x30 ≤ u.val at hmin
    change u.val ≤ 0x39 at hmax
    exact ⟨⟨u.val - 0x30, by omega⟩, (hdecimal ⟨u.val - 0x30, by omega⟩).trans (hback 0x30 hmin)⟩
  · change 0x61 ≤ u.val at hmin
    change u.val ≤ 0x66 at hmax
    exact ⟨⟨10 + (u.val - 0x61), by omega⟩,
      (hletter ⟨u.val - 0x61, by omega⟩).trans (hback 0x61 hmin)⟩

/-- Two lowercase hex digits are the digits of a byte. -/
theorem exists_hexPair {high low : CodeUnit} (hhigh : isLowerHex high = true)
    (hlow : isLowerHex low = true) : ∃ byte, hexPair byte = [high, low] := by
  have hpair : ∀ n m : Fin 16, hexPair (UInt8.ofNat (16 * n + m)) =
      [hexChars.getD n 0, hexChars.getD m 0] := by
    decide +kernel
  obtain ⟨n, rfl⟩ := exists_hexChar hhigh
  obtain ⟨m, rfl⟩ := exists_hexChar hlow
  exact ⟨_, hpair n m⟩

theorem exists_flatMap_hexPair (count : Nat) {text : Text} (hlength : text.length = 2 * count)
    (hall : text.all isLowerHex = true) :
    ∃ bytes : Bytes, bytes.length = count ∧ text = bytes.flatMap hexPair := by
  induction count generalizing text with
  | zero => exact ⟨[], rfl, List.length_eq_zero_iff.mp hlength⟩
  | succ count ih =>
    match text with
    | high :: low :: rest =>
      simp only [List.all_cons, Bool.and_eq_true] at hall
      obtain ⟨byte, hbyte⟩ := exists_hexPair hall.1 hall.2.1
      obtain ⟨bytes, hbytes, rfl⟩ := ih (by simp at hlength; omega) hall.2.2
      exact ⟨byte :: bytes, by simp [hbytes], by simp [hbyte]⟩
    | [_] => simp at hlength; omega
    | [] => simp at hlength

/-- A text of the right form is the hex text of a digest. -/
theorem exists_of_isBytes32 {value : Text} (h : isBytes32 value = true) :
    ∃ digest : Digest, value = bytesToHex digest.val := by
  simp only [isBytes32, Bool.and_eq_true, decide_eq_true_eq] at h
  obtain ⟨⟨htake, hlength⟩, hall⟩ := h
  obtain ⟨bytes, hbytes, hdrop⟩ := exists_flatMap_hexPair 32 hlength hall
  refine ⟨⟨bytes, hbytes⟩, ?_⟩
  rw [bytesToHex, ← htake, ← hdrop, List.take_append_drop]

end MpcRegistry.Canonical

import MpcRegistry.Library.Utf16

/-!
# Reading UTF-8

The decoder of ECMAScript hosts. Each longest part that starts a well-formed sequence and does not
complete it becomes one U+FFFD.
-/
namespace MpcRegistry.Library
namespace Utf16

def isContinuation (byte : UInt8) : Bool := 0x80 ≤ byte && byte ≤ 0xbf

/-- A second byte that some well-formed sequence has after the first one. -/
def isSecondByte (first second : UInt8) : Bool :=
  if first < 0xc2 || 0xf4 < first then false
  else if first = 0xe0 then 0xa0 ≤ second && second ≤ 0xbf
  else if first = 0xed then 0x80 ≤ second && second ≤ 0x9f
  else if first = 0xf0 then 0x90 ≤ second && second ≤ 0xbf
  else if first = 0xf4 then 0x80 ≤ second && second ≤ 0x8f
  else isContinuation second

/-- How many bytes one U+FFFD stands for. -/
def illFormedLength : List UInt8 → Nat
  | first :: second :: rest =>
    if isSecondByte first second = false then 1
    else if 0xf0 ≤ first && rest.head?.any isContinuation then 3
    else 2
  | _ => 1

/-- The fuel is the number of the bytes. -/
def decodeFrom : Nat → List UInt8 → List Char
  | 0, _ => []
  | _ + 1, [] => []
  | fuel + 1, byte :: bytes =>
    match (byte :: bytes).toByteArray.utf8DecodeChar? 0 with
    | some c => c :: decodeFrom fuel ((byte :: bytes).drop c.utf8Size)
    | none =>
      Char.ofNat 0xfffd :: decodeFrom fuel ((byte :: bytes).drop (illFormedLength (byte :: bytes)))

def decodeUtf8 (bytes : List UInt8) : Text := (decodeFrom bytes.length bytes).flatMap unitsOf

theorem utf8DecodeChar?_append (c : Char) (rest : List UInt8) :
    (String.utf8EncodeChar c ++ rest).toByteArray.utf8DecodeChar? 0 = some c := by
  rw [List.toByteArray_append, ← List.utf8Encode_singleton]
  exact List.utf8DecodeChar?_utf8Encode_singleton_append

theorem decodeFrom_encoded (cs : List Char) {fuel : Nat}
    (hfuel : (cs.flatMap String.utf8EncodeChar).length ≤ fuel) :
    decodeFrom fuel (cs.flatMap String.utf8EncodeChar) = cs := by
  induction cs generalizing fuel with
  | nil => cases fuel <;> rfl
  | cons c cs ih =>
    rw [List.flatMap_cons] at hfuel ⊢
    have hsize : (String.utf8EncodeChar c).length = c.utf8Size := String.length_utf8EncodeChar c
    have hpos := c.utf8Size_pos
    rw [List.length_append, hsize] at hfuel
    have hdrop : (String.utf8EncodeChar c ++ cs.flatMap String.utf8EncodeChar).drop c.utf8Size =
        cs.flatMap String.utf8EncodeChar := by
      rw [← hsize, List.drop_left]
    have hread := utf8DecodeChar?_append c (cs.flatMap String.utf8EncodeChar)
    cases fuel with
    | zero => omega
    | succ fuel =>
      cases hbytes : String.utf8EncodeChar c ++ cs.flatMap String.utf8EncodeChar with
      | nil => simp [← hsize, (List.append_eq_nil_iff.mp hbytes).1] at hpos
      | cons byte bytes =>
        rw [decodeFrom, ← hbytes, hread]
        dsimp only
        rw [hdrop, ih (by omega)]

/-- A text without unpaired surrogates is read back from its bytes. -/
theorem decodeUtf8_encodeUtf8 {text : Text} (h : ¬ Unpaired text) :
    decodeUtf8 (encodeUtf8 text) = text := by
  unfold decodeUtf8 encodeUtf8
  rw [decodeFrom_encoded _ (Nat.le_refl _), flatMap_unitsOf_scalars h]

end Utf16

end MpcRegistry.Library

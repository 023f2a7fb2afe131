import Mathlib

/-!
# UTF-16 texts and their UTF-8 bytes

A text is any list of code units. A surrogate without its partner beside it is
unpaired; a text without one is determined by its UTF-8 bytes.
-/
namespace MpcRegistry.Library

abbrev CodeUnit := Fin 65536

instance neZero_codeUnits : NeZero 65536 := ⟨by decide⟩

instance lawfulBEq_codeUnit : LawfulBEq CodeUnit := inferInstance

abbrev Text := List CodeUnit

instance lawfulBEq_text : LawfulBEq Text := inferInstance

/-- The code unit of a character below U+10000. -/
def charUnit (c : Char) : CodeUnit := Fin.ofNat 65536 c.toNat

/-- The code units of a literal whose characters are all below U+10000. -/
def units (literal : String) : Text := literal.toList.map charUnit

namespace Utf16

def IsHigh (u : CodeUnit) : Prop := 0xd800 ≤ u.val ∧ u.val ≤ 0xdbff

def IsLow (u : CodeUnit) : Prop := 0xdc00 ≤ u.val ∧ u.val ≤ 0xdfff

instance (u : CodeUnit) : Decidable (IsHigh u) := inferInstanceAs (Decidable (_ ∧ _))

instance (u : CodeUnit) : Decidable (IsLow u) := inferInstanceAs (Decidable (_ ∧ _))

theorem IsHigh.not_isLow {u : CodeUnit} (h : IsHigh u) : ¬ IsLow u := by
  simp only [IsHigh, IsLow] at *
  omega

theorem IsLow.not_isHigh {u : CodeUnit} (h : IsLow u) : ¬ IsHigh u :=
  fun hhigh => hhigh.not_isLow h

/-- The unit at `i` is a surrogate whose partner is not beside it: a high one
wants a low one after it, a low one wants a high one before it. -/
def UnpairedAt (text : Text) (i : Nat) : Prop :=
  (∃ u, text[i]? = some u ∧ IsHigh u ∧ ∀ next, text[i + 1]? = some next → ¬ IsLow next) ∨
  (∃ u, text[i]? = some u ∧ IsLow u ∧
    (0 < i → ∀ before, text[i - 1]? = some before → ¬ IsHigh before))

def Unpaired (text : Text) : Prop := ∃ i, UnpairedAt text i

theorem not_unpaired_nil : ¬ Unpaired [] := by
  rintro ⟨i, ⟨u, hu, -⟩ | ⟨u, hu, -⟩⟩ <;> simp at hu

/-- Past the unit after it, a unit put in front changes no verdict. -/
theorem unpairedAt_cons_past (u : CodeUnit) (rest : Text) (i : Nat) :
    UnpairedAt (u :: rest) (i + 2) ↔ UnpairedAt rest (i + 1) := by
  simp [UnpairedAt]

/-- A unit that is no high surrogate pairs with nothing after it. -/
theorem unpairedAt_cons_succ {u : CodeUnit} (hu : ¬ IsHigh u) (rest : Text) (i : Nat) :
    UnpairedAt (u :: rest) (i + 1) ↔ UnpairedAt rest i := by
  cases i with
  | zero => simp [UnpairedAt, hu]
  | succ i => exact unpairedAt_cons_past u rest i

/-- A unit outside both surrogate ranges adds no unpaired surrogate. -/
theorem unpaired_cons {u : CodeUnit} (hhigh : ¬ IsHigh u) (hlow : ¬ IsLow u) (rest : Text) :
    Unpaired (u :: rest) ↔ Unpaired rest := by
  constructor
  · rintro ⟨i, h⟩
    cases i with
    | zero => simp [UnpairedAt, hhigh, hlow] at h
    | succ i => exact ⟨i, (unpairedAt_cons_succ hhigh rest i).mp h⟩
  · rintro ⟨i, h⟩
    exact ⟨i + 1, (unpairedAt_cons_succ hhigh rest i).mpr h⟩

def isSurrogate (u : CodeUnit) : Bool := IsHigh u ∨ IsLow u

theorem unpaired_cons_plain {u : CodeUnit} (h : isSurrogate u = false) (rest : Text) :
    Unpaired (u :: rest) ↔ Unpaired rest := by
  simp only [isSurrogate, decide_eq_false_iff_not, not_or] at h
  exact unpaired_cons h.1 h.2 rest

/-- A text without surrogates has no unpaired one. -/
theorem not_unpaired_of_any {text : Text} (h : text.any isSurrogate = false) :
    ¬ Unpaired text := by
  induction text with
  | nil => exact not_unpaired_nil
  | cons u rest ih =>
    rw [List.any_cons, Bool.or_eq_false_iff] at h
    rw [unpaired_cons_plain h.1]
    exact ih h.2

/-- A high surrogate and the low one after it are a pair. -/
theorem unpaired_cons_pair {u v : CodeUnit} (hu : IsHigh u) (hv : IsLow v) (rest : Text) :
    Unpaired (u :: v :: rest) ↔ Unpaired rest := by
  have hulow : ¬ IsLow u := hu.not_isLow
  have hvhigh : ¬ IsHigh v := hv.not_isHigh
  constructor
  · rintro ⟨i, h⟩
    match i with
    | 0 => simp [UnpairedAt, hulow, hv] at h
    | 1 => simp [UnpairedAt, hvhigh, hu] at h
    | i + 2 =>
      exact ⟨i, (unpairedAt_cons_succ hvhigh rest i).mp ((unpairedAt_cons_past u _ i).mp h)⟩
  · rintro ⟨i, h⟩
    exact ⟨i + 2, (unpairedAt_cons_past u _ i).mpr ((unpairedAt_cons_succ hvhigh rest i).mpr h)⟩

/-- A high surrogate with no low one right after it is unpaired. -/
theorem unpaired_of_high {u : CodeUnit} (hu : IsHigh u) {rest : Text}
    (hrest : ∀ next, rest.head? = some next → ¬ IsLow next) : Unpaired (u :: rest) :=
  ⟨0, .inl ⟨u, rfl, hu, fun next hnext => hrest next (by simpa [List.head?_eq_getElem?] using hnext)⟩⟩

/-- A text does not start with a low surrogate unless it is unpaired. -/
theorem unpaired_of_low {u : CodeUnit} (hu : IsLow u) (rest : Text) : Unpaired (u :: rest) :=
  ⟨0, .inr ⟨u, rfl, hu, fun h => absurd h (by omega)⟩⟩

/-- Joining two texts without unpaired surrogates makes none. -/
theorem not_unpaired_append {a b : Text} (ha : ¬ Unpaired a) (hb : ¬ Unpaired b) :
    ¬ Unpaired (a ++ b) := by
  induction hn : a.length using Nat.strongRecOn generalizing a with
  | _ n ih =>
    subst hn
    match a with
    | [] => exact hb
    | u :: rest =>
      have hlow : ¬ IsLow u := fun h => ha (unpaired_of_low h rest)
      by_cases hhigh : IsHigh u
      · match rest with
        | [] => exact absurd (unpaired_of_high hhigh (by simp)) ha
        | v :: rest =>
          by_cases hv : IsLow v
          · rw [unpaired_cons_pair hhigh hv] at ha
            rw [List.cons_append, List.cons_append, unpaired_cons_pair hhigh hv]
            exact ih rest.length (by simp only [List.length_cons]; omega) ha rfl
          · exact absurd (unpaired_of_high hhigh (by simpa using hv)) ha
      · rw [unpaired_cons hhigh hlow] at ha
        rw [List.cons_append, unpaired_cons hhigh hlow]
        exact ih rest.length (by simp) ha rfl

/-- A lone code unit as a scalar value; a surrogate becomes U+FFFD. -/
def loneScalar (u : CodeUnit) : Char :=
  if IsHigh u ∨ IsLow u then Char.ofNat 0xfffd else Char.ofNat u.val

/-- The scalar value above U+FFFF that a surrogate pair stands for. -/
def pairScalar (high low : CodeUnit) : Char :=
  Char.ofNat (0x10000 + (high.val - 0xd800) * 0x400 + (low.val - 0xdc00))

/-- The scalar values of a text. -/
def scalars : Text → List Char
  | [] => []
  | [u] => [loneScalar u]
  | u :: v :: rest =>
    if IsHigh u ∧ IsLow v then pairScalar u v :: scalars rest
    else loneScalar u :: scalars (v :: rest)

/-- UTF-8, each unpaired surrogate replaced: what ECMAScript's TextEncoder writes. -/
def encodeUtf8 (text : Text) : List UInt8 := (scalars text).flatMap String.utf8EncodeChar

/-- The code units of one scalar value. -/
def unitsOf (c : Char) : Text :=
  if c.toNat < 0x10000 then [charUnit c]
  else [Fin.ofNat 65536 (0xd800 + (c.toNat - 0x10000) / 0x400),
    Fin.ofNat 65536 (0xdc00 + (c.toNat - 0x10000) % 0x400)]

theorem toNat_ofNat {n : Nat} (h : n.isValidChar) : (Char.ofNat n).toNat = n := by
  simp only [Char.ofNat, h, ↓reduceDIte]
  exact UInt32.toNat_ofNatLT ..

theorem unitsOf_loneScalar {u : CodeUnit} (hhigh : ¬ IsHigh u) (hlow : ¬ IsLow u) :
    unitsOf (loneScalar u) = [u] := by
  have hvalid : u.val.isValidChar := by
    simp only [IsHigh, IsLow] at hhigh hlow
    simp only [Nat.isValidChar]
    omega
  have hnat : (loneScalar u).toNat = u.val := by
    rw [loneScalar, if_neg (by simp [hhigh, hlow]), toNat_ofNat hvalid]
  rw [unitsOf, charUnit, hnat, if_pos u.isLt]
  simp

theorem unitsOf_pairScalar {high low : CodeUnit} (hhigh : IsHigh high) (hlow : IsLow low) :
    unitsOf (pairScalar high low) = [high, low] := by
  simp only [IsHigh, IsLow] at hhigh hlow
  have hnat : (pairScalar high low).toNat =
      0x10000 + (high.val - 0xd800) * 0x400 + (low.val - 0xdc00) :=
    toNat_ofNat (by simp only [Nat.isValidChar]; omega)
  have hhighVal : 0xd800 + ((high.val - 0xd800) * 0x400 + (low.val - 0xdc00)) / 0x400 = high.val := by
    omega
  have hlowVal : 0xdc00 + ((high.val - 0xd800) * 0x400 + (low.val - 0xdc00)) % 0x400 = low.val := by
    omega
  rw [unitsOf, hnat, if_neg (by omega), Nat.add_assoc, Nat.add_sub_cancel_left, hhighVal, hlowVal]
  simp

/-- A text without unpaired surrogates is read back from its scalar values. -/
theorem flatMap_unitsOf_scalars {text : Text} (h : ¬ Unpaired text) :
    (scalars text).flatMap unitsOf = text := by
  induction text using scalars.induct with
  | case1 => rfl
  | case2 u =>
    have hhigh : ¬ IsHigh u := fun hu => h (unpaired_of_high hu (by simp))
    have hlow : ¬ IsLow u := fun hu => h (unpaired_of_low hu [])
    simp [scalars, unitsOf_loneScalar hhigh hlow]
  | case3 u v rest hpair ih =>
    rw [unpaired_cons_pair hpair.1 hpair.2] at h
    simp [scalars, hpair, unitsOf_pairScalar hpair.1 hpair.2, ih h]
  | case4 u v rest hpair ih =>
    have hhigh : ¬ IsHigh u := fun hu =>
      h (unpaired_of_high hu (by simpa using fun hv => hpair ⟨hu, hv⟩))
    have hlow : ¬ IsLow u := fun hu => h (unpaired_of_low hu (v :: rest))
    rw [unpaired_cons hhigh hlow] at h
    simp only [scalars, hpair, ↓reduceIte, List.flatMap_cons, unitsOf_loneScalar hhigh hlow, ih h,
      List.singleton_append]

theorem flatMap_utf8EncodeChar_injective {a b : List Char}
    (h : a.flatMap String.utf8EncodeChar = b.flatMap String.utf8EncodeChar) : a = b := by
  have hbytes : a.utf8Encode = b.utf8Encode := congrArg List.toByteArray h
  have hread := congrArg ByteArray.utf8Decode? hbytes
  simp only [List.utf8Decode?_utf8Encode, Option.some.injEq] at hread
  simpa using congrArg Array.toList hread

/-- Among texts without unpaired surrogates the UTF-8 bytes tell which text it is. -/
theorem encodeUtf8_injective {a b : Text} (ha : ¬ Unpaired a) (hb : ¬ Unpaired b)
    (h : encodeUtf8 a = encodeUtf8 b) : a = b := by
  rw [← flatMap_unitsOf_scalars ha, ← flatMap_unitsOf_scalars hb,
    flatMap_utf8EncodeChar_injective h]

end Utf16

end MpcRegistry.Library

import Mathlib

/-!
# Leading bits of byte strings

The first bits of two byte strings agree if the whole bytes among them are equal and a mask of the
rest gives the same.
-/
namespace MpcRegistry.Library

abbrev Octet := Fin 256

/-- The bit at a position, the highest of each octet first. -/
def bitOf (octets : List Octet) (i : Nat) : Bool :=
  octets[i / 8]?.any fun octet => octet.val.testBit (7 - i % 8)

/-- The first `n` bits agree. -/
def AgreeOn (n : Nat) (xs ys : List Octet) : Prop := ∀ i < n, bitOf xs i = bitOf ys i

/-- The mask of the first `n` bits of an octet. -/
def leadingMask (n : Nat) : Nat := 0xff <<< (8 - n)

section Bits

variable {n r : Nat} {x y : Octet} {xs ys : List Octet}

theorem testBit_octet (x : Octet) {k : Nat} (hk : 8 ≤ k) : x.val.testBit k = false :=
  Nat.testBit_lt_two_pow (x.isLt.trans_le (Nat.pow_le_pow_right Nat.two_pos hk))

theorem testBit_leadingMask (n k : Nat) :
    (leadingMask n).testBit k = (decide (8 - n ≤ k) && decide (k - (8 - n) < 8)) := by
  unfold leadingMask
  rw [Nat.testBit_shiftLeft, show 0xff = 2 ^ 8 - 1 from rfl, Nat.testBit_two_pow_sub_one]

theorem mask_eq_iff (hr : r ≤ 8) : x.val &&& leadingMask r = y.val &&& leadingMask r ↔
    ∀ j < r, x.val.testBit (7 - j) = y.val.testBit (7 - j) := by
  constructor
  · intro h j hj
    have hbit := congrArg (Nat.testBit · (7 - j)) h
    have hlow : decide (8 - r ≤ 7 - j) = true := decide_eq_true (by omega)
    have hhigh : decide (7 - j - (8 - r) < 8) = true := decide_eq_true (by omega)
    simp only [Nat.testBit_and, testBit_leadingMask, hlow, hhigh, Bool.and_true] at hbit
    exact hbit
  · intro h
    refine Nat.eq_of_testBit_eq fun k => ?_
    rw [Nat.testBit_and, Nat.testBit_and, testBit_leadingMask]
    by_cases hk : k < 8
    · by_cases hlow : 8 - r ≤ k
      · have hbit := h (7 - k) (by omega)
        rw [show 7 - (7 - k) = k by omega] at hbit
        rw [hbit]
      · simp [hlow]
    · rw [testBit_octet x (by omega), testBit_octet y (by omega)]

theorem octet_eq_iff : x = y ↔ ∀ j < 8, x.val.testBit (7 - j) = y.val.testBit (7 - j) := by
  have hmask : ∀ z : Octet, z.val &&& leadingMask 8 = z.val := by
    intro z
    rw [show leadingMask 8 = 2 ^ 8 - 1 from rfl, Nat.and_two_pow_sub_one_eq_mod,
      Nat.mod_eq_of_lt z.isLt]
  rw [← mask_eq_iff (Nat.le_refl 8), hmask, hmask, Fin.val_inj]

theorem bitOf_octet {k j : Nat} (hk : k < xs.length) (hj : j < 8) :
    bitOf xs (8 * k + j) = xs[k].val.testBit (7 - j) := by
  unfold bitOf
  rw [show (8 * k + j) / 8 = k by omega, show (8 * k + j) % 8 = j by omega,
    List.getElem?_eq_getElem hk]
  rfl

/-- Whole octets first, then the leading bits of the next one. -/
theorem agreeOn_iff {k : Nat} (hr : r < 8) (hxs : 8 * k + r ≤ 8 * xs.length)
    (hlength : ys.length = xs.length) : AgreeOn (8 * k + r) xs ys ↔
      (∀ i < k, xs[i]? = ys[i]?) ∧ (r = 0 ∨
        (xs.getD k 0).val &&& leadingMask r = (ys.getD k 0).val &&& leadingMask r) := by
  have hoctet : ∀ i, i < xs.length → ∀ j < 8, (bitOf xs (8 * i + j) = bitOf ys (8 * i + j) ↔
      (xs.getD i 0).val.testBit (7 - j) = (ys.getD i 0).val.testBit (7 - j)) := by
    intro i hi j hj
    rw [bitOf_octet hi hj, bitOf_octet (hlength ▸ hi) hj]
    simp [hi, hlength ▸ hi]
  constructor
  · intro h
    refine ⟨fun i hi => ?_, ?_⟩
    · have hlt : i < xs.length := by omega
      have hlt' : i < ys.length := hlength ▸ hlt
      have heq : xs.getD i 0 = ys.getD i 0 := by
        rw [octet_eq_iff]
        intro j hj
        exact (hoctet i hlt j hj).mp (h (8 * i + j) (by omega))
      rw [List.getElem?_eq_getElem hlt, List.getElem?_eq_getElem hlt']
      simpa [hlt, hlt'] using heq
    · rcases Nat.eq_zero_or_pos r with hzero | hpos
      · exact .inl hzero
      · refine .inr ((mask_eq_iff (by omega)).mpr fun j hj => ?_)
        exact (hoctet k (by omega) j (by omega)).mp (h (8 * k + j) (by omega))
  · rintro ⟨hwhole, hrest⟩ i hi
    have hsplit : i = 8 * (i / 8) + i % 8 := by omega
    have hmod : i % 8 < 8 := Nat.mod_lt _ (by omega)
    rw [hsplit]
    by_cases hk : i / 8 < k
    · have hget := hwhole (i / 8) hk
      unfold bitOf
      rw [show (8 * (i / 8) + i % 8) / 8 = i / 8 by omega, hget]
    · have hlast : i / 8 = k := by omega
      rcases hrest with hzero | hmask
      · omega
      · rw [hlast, hoctet k (by omega) _ hmod]
        exact (mask_eq_iff (by omega)).mp hmask _ (by omega)

theorem bitOf_first (x : Octet) (xs : List Octet) {i : Nat} (hi : i < 8) :
    bitOf (x :: xs) i = x.val.testBit (7 - i) := by
  unfold bitOf
  rw [show i / 8 = 0 by omega, show i % 8 = i by omega]
  rfl

theorem bitOf_rest (x : Octet) (xs : List Octet) (i : Nat) :
    bitOf (x :: xs) (i + 8) = bitOf xs i := by
  unfold bitOf
  rw [show (i + 8) / 8 = i / 8 + 1 by omega, show (i + 8) % 8 = i % 8 by omega,
    List.getElem?_cons_succ]

/-- The leading bits of a first octet. -/
theorem agreeOn_head (_hpos : 0 < r) (hr : r < 8) : AgreeOn r (x :: xs) (y :: ys) ↔
    x.val &&& leadingMask r = y.val &&& leadingMask r := by
  rw [mask_eq_iff (Nat.le_of_lt hr)]
  constructor
  · intro h i hi
    rw [← bitOf_first x xs (hi.trans hr), ← bitOf_first y ys (hi.trans hr), h i hi]
  · intro h i hi
    rw [bitOf_first x xs (hi.trans hr), bitOf_first y ys (hi.trans hr), h i hi]

/-- A whole first octet, and the bits after it. -/
theorem agreeOn_cons : AgreeOn (n + 8) (x :: xs) (y :: ys) ↔ x = y ∧ AgreeOn n xs ys := by
  rw [octet_eq_iff]
  constructor
  · intro h
    constructor
    · intro i hi
      rw [← bitOf_first x xs hi, ← bitOf_first y ys hi, h i (by omega)]
    · intro i hi
      rw [← bitOf_rest x xs, ← bitOf_rest y ys, h (i + 8) (by omega)]
  · intro h i hi
    by_cases hfirst : i < 8
    · rw [bitOf_first x xs hfirst, bitOf_first y ys hfirst, h.1 i hfirst]
    · have hbit := h.2 (i - 8) (by omega)
      rw [← bitOf_rest x xs, ← bitOf_rest y ys, show i - 8 + 8 = i by omega] at hbit
      exact hbit

theorem agreeOn_zero : AgreeOn 0 xs ys := fun _ hi => absurd hi (Nat.not_lt_zero _)

end Bits

end MpcRegistry.Library

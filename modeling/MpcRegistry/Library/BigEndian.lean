import Mathlib

/-!
# Big-endian byte strings

The bytes of a number in a fixed width and the number that bytes spell, and words
of one width in a row.
-/
namespace MpcRegistry.Library.BigEndian

def bytes : Nat → Nat → List UInt8
  | 0, _ => []
  | width + 1, n => bytes width (n / 256) ++ [UInt8.ofNat n]

def value (octets : List UInt8) : Nat :=
  octets.foldl (fun accumulated octet => accumulated * 256 + octet.toNat) 0

@[simp] theorem length_bytes (width n : Nat) : (bytes width n).length = width := by
  induction width generalizing n with
  | zero => rfl
  | succ width ih => simp [bytes, ih]

@[simp] theorem value_concat (octets : List UInt8) (last : UInt8) :
    value (octets ++ [last]) = value octets * 256 + last.toNat := by
  simp [value]

theorem value_bytes (width n : Nat) : value (bytes width n) = n % 256 ^ width := by
  induction width generalizing n with
  | zero => simp [bytes, value, Nat.mod_one]
  | succ width ih =>
    have hlast : (UInt8.ofNat n).toNat = n % 256 := UInt8.toNat_ofNat'
    rw [bytes, value_concat, ih, hlast, Nat.pow_succ, Nat.mul_comm (256 ^ width) 256, Nat.mod_mul]
    omega

theorem value_bytes_of_lt {width n : Nat} (h : n < 256 ^ width) : value (bytes width n) = n := by
  rw [value_bytes, Nat.mod_eq_of_lt h]

theorem value_lt (octets : List UInt8) : value octets < 256 ^ octets.length := by
  induction octets using List.reverseRecOn with
  | nil => simp [value]
  | append_singleton octets last ih =>
    have hlast := last.toNat_lt
    rw [value_concat, List.length_append, List.length_singleton, Nat.pow_succ]
    omega

theorem bytes_value (octets : List UInt8) : bytes octets.length (value octets) = octets := by
  induction octets using List.reverseRecOn with
  | nil => rfl
  | append_singleton octets last ih =>
    have hlast := last.toNat_lt
    have hfront : (value octets * 256 + last.toNat) / 256 = value octets := by omega
    have hback : UInt8.ofNat (value octets * 256 + last.toNat) = last := by
      apply UInt8.toNat_inj.mp
      rw [UInt8.toNat_ofNat']
      omega
    rw [List.length_append, List.length_singleton, bytes, value_concat, hfront, hback, ih]

@[simp] theorem value_replicate_zero_append (count : Nat) (octets : List UInt8) :
    value (List.replicate count 0 ++ octets) = value octets := by
  have hzero : (List.replicate count (0 : UInt8)).foldl
      (fun accumulated octet => accumulated * 256 + octet.toNat) 0 = 0 := by
    induction count with
    | zero => rfl
    | succ count ih => simpa [List.replicate_succ] using ih
  simp only [value, List.foldl_append, hzero]

/-- The word at index `i` of a row of words of one width. -/
theorem take_drop_flatten {α : Type} {width : Nat} {words : List (List α)}
    (hwidth : ∀ word ∈ words, word.length = width) {i : Nat} (hi : i < words.length) :
    (words.flatten.drop (width * i)).take width = words[i] := by
  induction words generalizing i with
  | nil => exact absurd hi (Nat.not_lt_zero i)
  | cons word words ih =>
    have hword := hwidth word List.mem_cons_self
    have hrest := fun other hmem => hwidth other (List.mem_cons_of_mem word hmem)
    cases i with
    | zero => simp [← hword]
    | succ i =>
      have hskip : (word ++ words.flatten).drop (width * (i + 1)) =
          words.flatten.drop (width * i) := by
        have hsum : width * (i + 1) = word.length + width * i := by
          rw [hword, Nat.mul_succ, Nat.add_comm]
        rw [hsum, List.drop_length_add_append]
      rw [List.flatten_cons, hskip, ih hrest (Nat.lt_of_succ_lt_succ hi)]
      rfl

end MpcRegistry.Library.BigEndian

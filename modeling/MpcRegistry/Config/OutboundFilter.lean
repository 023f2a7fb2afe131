import MpcRegistry.Config.Spellings

/-!
# The outbound address filter

The verdict on an address is one on its octets, and a range holds the addresses that share its
leading bits.
-/
namespace MpcRegistry.Config
open Library

/-! ## The listed ranges -/

/-- A range of addresses: all that agree with the octets in so many leading bits. -/
structure Block where
  octets : List Octet
  bits : Nat

def Block.Holds (block : Block) (octets : List Octet) : Prop :=
  AgreeOn block.bits octets block.octets

/-- The listed ranges of IPv4 addresses. -/
def ipv4Blocks : List Block :=
  [⟨[0, 0, 0, 0], 8⟩, ⟨[10, 0, 0, 0], 8⟩, ⟨[127, 0, 0, 0], 8⟩, ⟨[224, 0, 0, 0], 3⟩,
    ⟨[192, 88, 99, 0], 24⟩, ⟨[169, 254, 0, 0], 16⟩, ⟨[172, 16, 0, 0], 12⟩, ⟨[192, 168, 0, 0], 16⟩,
    ⟨[100, 64, 0, 0], 10⟩, ⟨[192, 0, 0, 0], 16⟩, ⟨[198, 18, 0, 0], 15⟩]

def zeros (octets : List Octet) : List Octet := octets ++ List.replicate (16 - octets.length) 0

def mappedBlock : Block := ⟨zeros (mapped []), 96⟩

def sixToFourBlock : Block := ⟨zeros [0x20, 0x02], 16⟩

/-- 2000::/3 -/
def globalBlock : Block := ⟨zeros [0x20], 3⟩

/-- 2001::/23 -/
def assignmentsBlock : Block := ⟨zeros [0x20, 0x01], 23⟩

/-- 2001:db8::/32 -/
def documentationBlock : Block := ⟨zeros [0x20, 0x01, 0x0d, 0xb8], 32⟩

/-- The reserved ranges in 2000::/3 as the source lists them, 3fff::/20 the last. -/
def reservedBlocks : List Block :=
  [assignmentsBlock, documentationBlock, ⟨zeros [0x3f, 0xff], 20⟩]

/-- The part of 2001::/23 that the source tests, 2001::/31. -/
def testedAssignmentsBlock : Block := ⟨zeros [0x20, 0x01], 31⟩

/-- The reserved ranges as the source tests them: 3ff0::/12 for the last. -/
def testedBlocks : List Block :=
  [testedAssignmentsBlock, documentationBlock, ⟨zeros [0x3f, 0xf0], 12⟩]

def ListedIpv4 (quad : List Octet) : Prop := ∃ block ∈ ipv4Blocks, block.Holds quad

/-- The address is not public, with these ranges reserved in 2000::/3. -/
def Blocked (reserved : List Block) (octets : List Octet) : Prop :=
  (mappedBlock.Holds octets ∧ ListedIpv4 (octets.drop 12)) ∨
    (sixToFourBlock.Holds octets ∧ ListedIpv4 ((octets.drop 2).take 4)) ∨
    (¬ mappedBlock.Holds octets ∧ ¬ sixToFourBlock.Holds octets ∧
      (¬ globalBlock.Holds octets ∨ ∃ block ∈ reserved, block.Holds octets))

def Listed (octets : List Octet) : Prop := Blocked reservedBlocks octets

/-- In 2001::/23, but past its first two groups of sixteen bits. -/
def Missed (octets : List Octet) : Prop :=
  assignmentsBlock.Holds octets ∧ ¬ testedAssignmentsBlock.Holds octets

section Verdicts

/-! ## The verdict on octets -/

/-- The masks of the listed ranges, as bounds. -/
theorem masked_iff : ∀ b : Octet,
    (b.val &&& leadingMask 3 = 224 &&& leadingMask 3 ↔ 224 ≤ b.val) ∧
      (b.val &&& leadingMask 4 = 16 &&& leadingMask 4 ↔ 16 ≤ b.val ∧ b.val ≤ 31) ∧
        (b.val &&& leadingMask 2 = 64 &&& leadingMask 2 ↔ 64 ≤ b.val ∧ b.val ≤ 127) ∧
          (b.val &&& leadingMask 7 = 18 &&& leadingMask 7 ↔ 18 ≤ b.val ∧ b.val ≤ 19) := by
  decide +kernel

theorem isPrivateIpv4Bytes_iff (a b c d : Octet) :
    isPrivateIpv4Bytes [a, b, c, d] = true ↔ ListedIpv4 [a, b, c, d] := by
  obtain ⟨h224, -, -, -⟩ := masked_iff a
  obtain ⟨-, h16, h64, h18⟩ := masked_iff b
  have hlisted : ListedIpv4 [a, b, c, d] ↔ a = 0 ∨ a = 10 ∨ a = 127 ∨ 224 ≤ a.val ∨
      (a = 192 ∧ b = 88 ∧ c = 99) ∨ (a = 169 ∧ b = 254) ∨
        (a = 172 ∧ 16 ≤ b.val ∧ b.val ≤ 31) ∨ (a = 192 ∧ b = 168) ∨
          (a = 100 ∧ 64 ≤ b.val ∧ b.val ≤ 127) ∨ (a = 192 ∧ b = 0) ∨
            (a = 198 ∧ 18 ≤ b.val ∧ b.val ≤ 19) := by
    simp [ListedIpv4, ipv4Blocks, Block.Holds, agreeOn_cons, agreeOn_head, agreeOn_zero, h224,
      h16, h64, h18]
  have hpoint : ∀ k n : Nat, k ≤ n ∧ n ≤ k ↔ n = k := by omega
  rw [hlisted]
  simp [isPrivateIpv4Bytes, privateIpv4Ranges]
  simp only [Fin.ext_iff, Fin.coe_ofNat_eq_mod, Nat.reduceMod, or_assoc, and_assoc, hpoint]

/-- The masks of the source, within an octet. -/
theorem masks_eq : ∀ b : Octet, b.val &&& 0xe0 = b.val &&& leadingMask 3 ∧
    b.val &&& 0xf0 = b.val &&& leadingMask 4 ∧ b.val &&& 0xfe = b.val &&& leadingMask 7 := by
  decide +kernel

theorem val_iff : ∀ b : Octet, (b.val = 0x02 ↔ b = 0x02) ∧ (b.val = 0x20 ↔ b = 0x20) ∧
    (b.val = 0xff ↔ b = 0xff) ∧ (b.val = 0x01 ↔ b = 0x01) ∧ (b.val = 0x0d ↔ b = 0x0d) ∧
      (b.val = 0xb8 ↔ b = 0xb8) ∧ (b.val = 0x3f ↔ b = 0x3f) := by
  decide +kernel

theorem isReservedGlobalIpv6_iff (b0 b1 b2 b3 : Octet) (rest : List Octet) :
    isReservedGlobalIpv6 (b0 :: b1 :: b2 :: b3 :: rest) = true ↔
      ∃ block ∈ testedBlocks, block.Holds (b0 :: b1 :: b2 :: b3 :: rest) := by
  simp [isReservedGlobalIpv6, testedBlocks, testedAssignmentsBlock, documentationBlock,
    Block.Holds, zeros, agreeOn_cons, agreeOn_zero, List.replicate, agreeOn_head, and_assoc,
    masks_eq, val_iff]
  rfl

theorem isPrivateIpv6Bytes_iff {octets : List Octet} (hlength : octets.length = 16) :
    isPrivateIpv6Bytes octets = true ↔ Blocked testedBlocks octets := by
  match octets, hlength with
  | [b0, b1, b2, b3, b4, b5, b6, b7, b8, b9, b10, b11, b12, b13, b14, b15], _ =>
    have hmapped : mappedBlock.Holds
        [b0, b1, b2, b3, b4, b5, b6, b7, b8, b9, b10, b11, b12, b13, b14, b15] ↔
          b0 = 0 ∧ b1 = 0 ∧ b2 = 0 ∧ b3 = 0 ∧ b4 = 0 ∧ b5 = 0 ∧ b6 = 0 ∧ b7 = 0 ∧ b8 = 0 ∧
            b9 = 0 ∧ b10 = 0xff ∧ b11 = 0xff := by
      simp [mappedBlock, Block.Holds, zeros, mapped, agreeOn_cons, agreeOn_zero, List.replicate]
    have hsix : sixToFourBlock.Holds
        [b0, b1, b2, b3, b4, b5, b6, b7, b8, b9, b10, b11, b12, b13, b14, b15] ↔
          b0 = 0x20 ∧ b1 = 0x02 := by
      simp [sixToFourBlock, Block.Holds, zeros, agreeOn_cons, agreeOn_zero, List.replicate]
    have hglobal : globalBlock.Holds
        [b0, b1, b2, b3, b4, b5, b6, b7, b8, b9, b10, b11, b12, b13, b14, b15] ↔
          b0.val &&& 0xe0 = 0x20 := by
      simp [globalBlock, Block.Holds, zeros, agreeOn_head, List.replicate, masks_eq]
      rfl
    unfold Blocked
    rw [hmapped, hsix, hglobal, ← isReservedGlobalIpv6_iff]
    by_cases hm : b0 = 0 ∧ b1 = 0 ∧ b2 = 0 ∧ b3 = 0 ∧ b4 = 0 ∧ b5 = 0 ∧ b6 = 0 ∧ b7 = 0 ∧
        b8 = 0 ∧ b9 = 0 ∧ b10 = 0xff ∧ b11 = 0xff
    · obtain ⟨rfl, rfl, rfl, rfl, rfl, rfl, rfl, rfl, rfl, rfl, rfl, rfl⟩ := hm
      simp [isPrivateIpv6Bytes, isPrivateIpv4Bytes_iff]
    · by_cases hs : b0 = 0x20 ∧ b1 = 0x02
      · obtain ⟨rfl, rfl⟩ := hs
        simp [isPrivateIpv6Bytes, isPrivateIpv4Bytes_iff]
      · by_cases hg : b0.val &&& 0xe0 = 0x20
        · have hne : b0 ≠ 0 := fun hzero => absurd (hzero ▸ hg) (by decide)
          simp [isPrivateIpv6Bytes, hs, hg, hne, val_iff]
        · simp [isPrivateIpv6Bytes, hm, hs, hg, val_iff, and_assoc]

/-- Past the first two groups the source lets 2001::/23 through. -/
theorem blocked_of_missed {octets : List Octet} (hlength : octets.length = 16)
    (hmissed : Missed octets) : Listed octets ∧ ¬ Blocked testedBlocks octets := by
  match octets, hlength with
  | b0 :: b1 :: b2 :: b3 :: rest, _ =>
    obtain ⟨hin, hout⟩ := hmissed
    have hhead : b0 = 0x20 ∧ b1 = 0x01 ∧ b2.val &&& leadingMask 7 = 0 := by
      simpa [assignmentsBlock, Block.Holds, zeros, agreeOn_cons, agreeOn_head, List.replicate]
        using hin
    obtain ⟨rfl, rfl, hb2⟩ := hhead
    have hne : b2 ≠ 0x0d := fun heq => absurd (heq ▸ hb2) (by decide)
    have hmapped : ¬ mappedBlock.Holds (0x20 :: 0x01 :: b2 :: b3 :: rest) := by
      simp [mappedBlock, Block.Holds, zeros, mapped, agreeOn_cons, List.replicate]
    have hsix : ¬ sixToFourBlock.Holds (0x20 :: 0x01 :: b2 :: b3 :: rest) := by
      simp [sixToFourBlock, Block.Holds, zeros, agreeOn_cons, List.replicate]
    have hglobal : globalBlock.Holds (0x20 :: 0x01 :: b2 :: b3 :: rest) := by
      simp [globalBlock, Block.Holds, zeros, agreeOn_head, List.replicate]
    refine ⟨.inr (.inr ⟨hmapped, hsix, .inr ⟨assignmentsBlock, List.mem_cons_self, hin⟩⟩), ?_⟩
    rintro (⟨h, -⟩ | ⟨h, -⟩ | ⟨-, -, h | ⟨block, hblock, h⟩⟩)
    · exact hmapped h
    · exact hsix h
    · exact h hglobal
    · simp only [testedBlocks, List.mem_cons, List.not_mem_nil, or_false] at hblock
      rcases hblock with rfl | rfl | rfl
      · exact hout h
      · simp [documentationBlock, Block.Holds, zeros, agreeOn_cons, List.replicate, hne] at h
      · simp [Block.Holds, zeros, agreeOn_cons, List.replicate] at h

theorem blocked_of_listed {octets : List Octet} (hlisted : Listed octets)
    (hmissed : ¬ Missed octets) : Blocked testedBlocks octets := by
  rcases hlisted with h | h | ⟨hmapped, hsix, h⟩
  · exact .inl h
  · exact .inr (.inl h)
  · refine .inr (.inr ⟨hmapped, hsix, h.imp_right ?_⟩)
    rintro ⟨block, hblock, h⟩
    simp only [reservedBlocks, List.mem_cons, List.not_mem_nil, or_false] at hblock
    rcases hblock with rfl | rfl | rfl
    · exact ⟨testedAssignmentsBlock, by simp [testedBlocks],
        Classical.byContradiction fun hout => hmissed ⟨h, hout⟩⟩
    · exact ⟨documentationBlock, by simp [testedBlocks], h⟩
    · have hwide : ∀ i < 12, bitOf (zeros [0x3f, 0xff]) i = bitOf (zeros [0x3f, 0xf0]) i := by
        decide
      exact ⟨⟨zeros [0x3f, 0xf0], 12⟩, by simp [testedBlocks],
        fun i hi => (h i (Nat.lt_trans hi (by decide))).trans (hwide i hi)⟩

end Verdicts

/-! ## Texts -/

section Texts

variable {isIP : Text → Nat} {text : Text} {octets quad : List Octet}

theorem length_of_dotted (h : Dotted text quad) : quad.length = 4 := by
  obtain ⟨parts, hparts, -, hquad⟩ := h
  rw [← hquad.length_eq, hparts]

theorem length_of_spelled (h : Spelled6 text octets) : octets.length = 16 := by
  cases h with
  | whole _ hlength => exact hlength
  | compressed _ _ hlength =>
    rw [List.length_append, List.length_append, List.length_replicate]
    omega

/-- The verdict on a quad is the one on the address it is mapped to. -/
theorem blocked_mapped (hlength : quad.length = 4) :
    Blocked testedBlocks (mapped quad) ↔ isPrivateIpv4Bytes quad = true := by
  have hmapped : (mapped quad).length = 16 := by simp [mapped, hlength]
  rw [← isPrivateIpv6Bytes_iff hmapped]
  simp [isPrivateIpv6Bytes, mapped, List.replicate]

theorem isPrivateAddress_iff (h : Accepted isIP text octets) :
    isPrivateAddress isIP text = true ↔ Blocked testedBlocks octets := by
  unfold isPrivateAddress
  rcases h with ⟨hfamily, quad, hquad, rfl⟩ | ⟨hfamily, hspelled⟩
  · rw [if_pos hfamily, isPrivateIpv4, ipv4ToBytes_of_dotted hquad]
    exact (blocked_mapped (length_of_dotted hquad)).symm
  · rw [if_neg (by omega), if_pos hfamily, isPrivateIpv6, ipv6ToBytes_of_spelled hspelled]
    exact isPrivateIpv6Bytes_iff (length_of_spelled hspelled)

theorem length_of_accepted (h : Accepted isIP text octets) : octets.length = 16 := by
  rcases h with ⟨-, quad, hquad, rfl⟩ | ⟨-, hspelled⟩
  · simp [mapped, length_of_dotted hquad]
  · exact length_of_spelled hspelled

theorem ipToBytes_of_accepted (h : Accepted isIP text octets) :
    ipToBytes isIP text = some octets := by
  unfold ipToBytes
  rcases h with ⟨hfamily, quad, hquad, rfl⟩ | ⟨hfamily, hspelled⟩
  · rw [if_pos hfamily, ipv4ToBytes_of_dotted hquad]
    rfl
  · rw [if_neg (by omega), if_pos hfamily, ipv6ToBytes_of_spelled hspelled]

end Texts

/-! ## Ranges -/

section Ranges

variable {isIP : Text → Nat} {text value : Text} {octets bytes : List Octet} {range : CidrRange}

theorem length_partsToBytes {parts : List Text} (h : parts.mapM partToByte = some bytes) :
    bytes.length = parts.length := by
  induction parts generalizing bytes with
  | nil =>
    obtain rfl := Option.some.inj h
    rfl
  | cons part parts ih =>
    rw [List.mapM_cons] at h
    obtain ⟨byte, -, h⟩ := Option.bind_eq_some_iff.mp h
    obtain ⟨others, hothers, h⟩ := Option.bind_eq_some_iff.mp h
    obtain rfl := Option.some.inj h
    rw [List.length_cons, List.length_cons, ih hothers]

theorem length_ipv4ToBytes (h : ipv4ToBytes text = some bytes) : bytes.length = 4 := by
  unfold ipv4ToBytes at h
  dsimp only at h
  split at h
  · exact absurd h (by simp)
  · rename_i hparts
    rw [length_partsToBytes h]
    omega

theorem length_ipv6ToBytes (h : ipv6ToBytes text = some bytes) : bytes.length = 16 := by
  unfold ipv6ToBytes at h
  dsimp only at h
  split at h
  · exact absurd h (by simp)
  · split at h
    · simpa using (Option.filter_eq_some_iff.mp h).2
    · obtain ⟨head, -, h⟩ := Option.bind_eq_some_iff.mp h
      obtain ⟨tail, -, h⟩ := Option.bind_eq_some_iff.mp h
      split at h
      · exact absurd h (by simp)
      · obtain rfl := Option.some.inj h
        rw [List.length_append, List.length_append, List.length_replicate]
        omega
    · exact absurd h (by simp)

theorem length_ipToBytes (h : ipToBytes isIP text = some bytes) : bytes.length = 16 := by
  unfold ipToBytes at h
  split at h
  · obtain ⟨quad, hquad, rfl⟩ := Option.map_eq_some_iff.mp h
    simp [length_ipv4ToBytes hquad]
  · split at h
    · exact length_ipv6ToBytes h
    · exact absurd h (by simp)

/-- What a parsed range is made of. -/
theorem parseCidr_spec (h : parseCidr isIP value = some range) :
    ipToBytes isIP (((Ecma.trim value).splitOn 0x2f).headD []) = some range.bytes ∧
      range.prefixBits ≤ 128 := by
  unfold parseCidr at h
  dsimp only at h
  split at h
  · exact absurd h (by simp)
  · split at h
    · exact absurd h (by simp)
    · rename_i address rest hsplit
      obtain ⟨bytes, hbytes, h⟩ := Option.bind_eq_some_iff.mp h
      rw [hsplit, List.headD_cons]
      split at h
      · obtain rfl := Option.some.inj h
        exact ⟨hbytes, Nat.le_refl _⟩
      · rw [Option.ite_none_left_eq_some] at h
        obtain ⟨-, h⟩ := h
        rw [Option.ite_none_left_eq_some] at h
        obtain ⟨hdeclared, h⟩ := h
        obtain rfl := Option.some.inj h
        refine ⟨hbytes, ?_⟩
        dsimp only
        split at hdeclared <;> split <;> omega

theorem matchesCidr_iff (hrange : parseCidr isIP value = some range)
    (hbytes : ipToBytes isIP text = some octets) :
    matchesCidr isIP text range = true ↔ AgreeOn range.prefixBits octets range.bytes := by
  obtain ⟨hbase, hbits⟩ := parseCidr_spec hrange
  have hlength := length_ipToBytes hbytes
  have hbaseLength := length_ipToBytes hbase
  have hwhole : range.prefixBits >>> 3 = range.prefixBits / 8 :=
    Nat.shiftRight_eq_div_pow range.prefixBits 3
  have hrest : range.prefixBits &&& 7 = range.prefixBits % 8 :=
    Nat.and_two_pow_sub_one_eq_mod range.prefixBits 3
  have hsplit : range.prefixBits = 8 * (range.prefixBits / 8) + range.prefixBits % 8 := by omega
  have hmod : range.prefixBits % 8 < 8 := Nat.mod_lt _ (by decide)
  have hagree : AgreeOn (8 * (range.prefixBits / 8) + range.prefixBits % 8) octets range.bytes ↔
      _ := agreeOn_iff hmod (by omega) (by omega)
  unfold matchesCidr
  rw [hbytes]
  dsimp only
  rw [hwhole, hrest]
  conv_rhs => rw [hsplit]
  rw [hagree]
  simp [leadingMask]

end Ranges

/-! ## The filter -/

section Filter

variable {parseUrl : Text → Option Url} {isIP : Text → Nat}
  {resolve : Text → Option (List Text)} {endpoint : Text} {addresses : List Text}

/-- An address in place of a name passes the check of the endpoint's shape. -/
theorem assertEndpointShape_ok {url : Url}
    (h : assertEndpointShape parseUrl isIP endpoint = .ok url) :
    isIP (hostnameOf url) ≠ 0 → isPrivateAddress isIP (hostnameOf url) = false := by
  intro hfamily
  unfold assertEndpointShape at h
  split at h
  · exact absurd h (by simp)
  · rename_i url' _
    dsimp only at h
    split_ifs at h with _ _ hprivate
    obtain rfl := Except.ok.inj h
    simpa [hfamily] using hprivate

theorem assertEndpointReachable_ok
    (h : assertEndpointReachable parseUrl isIP resolve endpoint = .ok addresses) :
    addresses ≠ [] ∧ ∀ address ∈ addresses, isPrivateAddress isIP address = false := by
  unfold assertEndpointReachable at h
  cases hshape : assertEndpointShape parseUrl isIP endpoint with
  | error reason =>
    rw [hshape] at h
    exact absurd h (by simp [bind, Except.bind])
  | ok url =>
    rw [hshape] at h
    simp only [bind, Except.bind, pure, Except.pure] at h
    split at h
    · rename_i hfamily
      obtain rfl := Except.ok.inj h
      refine ⟨List.cons_ne_nil _ _, fun address hmem => ?_⟩
      obtain rfl := List.mem_singleton.mp hmem
      exact assertEndpointShape_ok hshape hfamily
    · split at h
      · exact absurd h (by simp)
      · rename_i answer _
        split_ifs at h with hnone hblocked
        obtain rfl := Except.ok.inj h
        refine ⟨fun heq => hnone (by rw [heq]; rfl), fun address hmem => ?_⟩
        have hempty : answer.filter (isPrivateAddress isIP) = [] :=
          List.eq_nil_of_length_eq_zero (Nat.eq_zero_of_not_pos hblocked)
        simpa using List.filter_eq_nil_iff.mp hempty address hmem

variable (parseUrl isIP resolve)

/-- The verdict is one on the octets, whatever the spelling. It lets nothing listed through but
part of 2001::/23. -/
theorem outbound_filter :
    (∀ text octets, Accepted isIP text octets →
      (((∀ other, Accepted isIP other octets →
          isPrivateAddress isIP other = isPrivateAddress isIP text) ∧
        (isPrivateAddress isIP text = false → ¬ Listed octets)) ↔ ¬ Missed octets)) ∧
      (∀ text other octets, Accepted isIP text octets → Accepted isIP other octets →
        isPrivateAddress isIP other = isPrivateAddress isIP text) ∧
      (∀ value range, parseCidr isIP value = some range →
        (∀ base, Accepted isIP (((Ecma.trim value).splitOn 0x2f).headD []) base →
          range.bytes = base) ∧
        ∀ text octets, Accepted isIP text octets →
          (matchesCidr isIP text range = true ↔
            AgreeOn range.prefixBits octets range.bytes)) ∧
      ∀ endpoint addresses,
        assertEndpointReachable parseUrl isIP resolve endpoint = .ok addresses →
          addresses ≠ [] ∧ ∀ address ∈ addresses, isPrivateAddress isIP address = false := by
  have hspelling : ∀ text other octets, Accepted isIP text octets →
      Accepted isIP other octets → isPrivateAddress isIP other = isPrivateAddress isIP text := by
    intro text other octets htext hother
    rw [Bool.eq_iff_iff, isPrivateAddress_iff htext, isPrivateAddress_iff hother]
  refine ⟨?_, hspelling, ?_, ?_⟩
  · intro text octets htext
    have hverdict : isPrivateAddress isIP text = false ↔ ¬ Blocked testedBlocks octets := by
      rw [← isPrivateAddress_iff htext, Bool.not_eq_true]
    constructor
    · rintro ⟨-, honly⟩ hmissed
      obtain ⟨hlisted, hpasses⟩ := blocked_of_missed (length_of_accepted htext) hmissed
      exact honly (hverdict.mpr hpasses) hlisted
    · intro hmissed
      refine ⟨fun other hother => hspelling text other octets htext hother, ?_⟩
      intro hpublic hlisted
      exact hverdict.mp hpublic (blocked_of_listed hlisted hmissed)
  · intro value range hrange
    constructor
    · intro base hbase
      have hbytes := ipToBytes_of_accepted hbase
      rw [(parseCidr_spec hrange).1] at hbytes
      exact Option.some.inj hbytes
    · intro text octets htext
      exact matchesCidr_iff hrange (ipToBytes_of_accepted htext)
  · intro endpoint addresses h
    exact assertEndpointReachable_ok h

end Filter

/-- An address of the benchmarking range 2001:2::/48, and two spellings of a private one. -/
def sampleIsIP (text : Text) : Nat :=
  if text = units "10.0.0.1" then 4
  else if text = units "2001:2::1" || text = units "::FFFF:a00:1" then 6
  else 0

def benchmarkOctets : List Octet := [0x20, 0x01, 0, 0x02] ++ List.replicate 10 0 ++ [0, 0x01]

theorem accepted_benchmark : Accepted sampleIsIP (units "2001:2::1") benchmarkOctets := by
  have hfirst : IsGroup (units "2001") 0x2001 :=
    ⟨by decide, List.all_eq_true.mp (by decide), by decide⟩
  have hsecond : IsGroup (units "2") 0x02 := ⟨by decide, List.all_eq_true.mp (by decide), by decide⟩
  have hlast : IsGroup (units "1") 0x01 := ⟨by decide, List.all_eq_true.mp (by decide), by decide⟩
  exact .inr ⟨by decide, .compressed (.cons hfirst (.cons hsecond .nil))
    (.groups (.cons hlast .nil)) (by decide)⟩

theorem accepted_quad : Accepted sampleIsIP (units "10.0.0.1") (mapped [10, 0, 0, 1]) := by
  have hten : IsDecOctet (units "10") 10 :=
    ⟨by decide, List.all_eq_true.mp (by decide), by decide, by decide⟩
  have hzero : IsDecOctet (units "0") 0 :=
    ⟨by decide, List.all_eq_true.mp (by decide), by decide, by decide⟩
  have hone : IsDecOctet (units "1") 1 :=
    ⟨by decide, List.all_eq_true.mp (by decide), by decide, by decide⟩
  exact .inl ⟨by decide, [10, 0, 0, 1], ⟨[units "10", units "0", units "0", units "1"], rfl,
    by decide, .cons hten (.cons hzero (.cons hzero (.cons hone .nil)))⟩, rfl⟩

theorem accepted_mapped : Accepted sampleIsIP (units "::FFFF:a00:1") (mapped [10, 0, 0, 1]) := by
  have hones : IsGroup (units "FFFF") 0xffff :=
    ⟨by decide, List.all_eq_true.mp (by decide), by decide⟩
  have hten : IsGroup (units "a00") 0x0a00 :=
    ⟨by decide, List.all_eq_true.mp (by decide), by decide⟩
  have hone : IsGroup (units "1") 0x01 := ⟨by decide, List.all_eq_true.mp (by decide), by decide⟩
  exact .inr ⟨by decide, .compressed .nil
    (.groups (.cons hones (.cons hten (.cons hone .nil)))) (by decide)⟩

/-- Both spellings of the private address get one verdict. -/
theorem outbound_filter_spellings :
    isPrivateAddress sampleIsIP (units "::FFFF:a00:1") =
      isPrivateAddress sampleIsIP (units "10.0.0.1") :=
  (outbound_filter (fun _ => none) sampleIsIP (fun _ => none)).2.1 _ _ _ accepted_quad
    accepted_mapped

/-- 2001:2::1 is in a listed range and passes. -/
theorem outbound_filter_benchmark :
    Accepted sampleIsIP (units "2001:2::1") benchmarkOctets ∧ Listed benchmarkOctets ∧
      isPrivateAddress sampleIsIP (units "2001:2::1") = false := by
  have hmissed : Missed benchmarkOctets := by
    constructor
    · unfold Block.Holds AgreeOn
      decide
    · intro h
      have hbit := h 30 (by decide)
      exact absurd hbit (by decide)
  refine ⟨accepted_benchmark, (blocked_of_missed (by decide) hmissed).1, by decide⟩

end MpcRegistry.Config

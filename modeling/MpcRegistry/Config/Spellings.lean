import MpcRegistry.Config.Endpoint

/-!
# Spellings of an address

The text forms of RFC 4291, section 2.2, and dotted decimals, each with the octets it stands for.
The parsers read every one of them.
-/
namespace MpcRegistry.Config
open Library
open Cre (toLowerCase)

/-! ## The grammar -/

/-- A decimal of at most 255 without leading zeros. -/
structure IsDecOctet (text : Text) (octet : Octet) : Prop where
  length : 1 ≤ text.length ∧ text.length ≤ 3
  digits : ∀ u ∈ text, isDigit u = true
  leading : text.head? = some 0x30 → text = [0x30]
  value : decimalValue text = octet.val

/-- Four decimals with dots between them. -/
def Dotted (text : Text) (quad : List Octet) : Prop :=
  ∃ parts : List Text, parts.length = 4 ∧ text = [0x2e].intercalate parts ∧
    List.Forall₂ IsDecOctet parts quad

/-- What hexadecimal digits of either case stand for. -/
def hexNumber (text : Text) : Nat :=
  text.foldl (fun value digit => value * 16 + (Json.hexValue digit).getD 0) 0

/-- One to four hexadecimal digits. -/
structure IsGroup (text : Text) (word : Nat) : Prop where
  length : 1 ≤ text.length ∧ text.length ≤ 4
  digits : ∀ u ∈ text, (Json.hexValue u).isSome = true
  value : hexNumber text = word

inductive Groups : List Text → List Octet → Prop
  | nil : Groups [] []
  | cons {text : Text} {word : Nat} {texts : List Text} {octets : List Octet} :
      IsGroup text word → Groups texts octets →
        Groups (text :: texts)
          (Fin.ofNat 256 (word / 256) :: Fin.ofNat 256 (word % 256) :: octets)

/-- Groups, the last two of them perhaps as a dotted decimal. -/
inductive Items : List Text → List Octet → Prop
  | groups {texts : List Text} {octets : List Octet} : Groups texts octets → Items texts octets
  | dotted {texts : List Text} {octets quad : List Octet} {text : Text} :
      Groups texts octets → Dotted text quad → Items (texts ++ [text]) (octets ++ quad)

/-- The items of eight groups, or items around two colons that stand for the zeros left out. -/
inductive Spelled6 : Text → List Octet → Prop
  | whole {texts : List Text} {octets : List Octet} : Items texts octets → octets.length = 16 →
      Spelled6 ([0x3a].intercalate texts) octets
  | compressed {before after : List Text} {head tail : List Octet} : Groups before head →
      Items after tail → head.length + tail.length < 16 →
        Spelled6 ([0x3a].intercalate before ++ (0x3a :: 0x3a :: [0x3a].intercalate after))
          (head ++ List.replicate (16 - tail.length - head.length) 0 ++ tail)

/-- The octets of an IPv4 address as an IPv6 one. -/
def mapped (quad : List Octet) : List Octet := List.replicate 10 0 ++ [0xff, 0xff] ++ quad

/-- The text is accepted as an address, and stands for the octets. -/
def Accepted (isIP : Text → Nat) (text : Text) (octets : List Octet) : Prop :=
  (isIP text = 4 ∧ ∃ quad, Dotted text quad ∧ octets = mapped quad) ∨
    (isIP text = 6 ∧ Spelled6 text octets)

/-! ## Joined texts -/

section Joined

variable {separator u : CodeUnit} {items : List Text}

theorem mem_intercalate (h : u ∈ [separator].intercalate items) :
    u = separator ∨ ∃ item ∈ items, u ∈ item := by
  induction items with
  | nil => simp at h
  | cons item items ih =>
    cases items with
    | nil => exact .inr ⟨item, by simp, by simpa using h⟩
    | cons next items =>
      rw [List.intercalate_cons_cons, List.mem_append, List.mem_append, List.mem_singleton] at h
      rcases h with (h | h) | h
      · exact .inr ⟨item, by simp, h⟩
      · exact .inl h
      · rcases ih h with h | ⟨item', hitem, hu⟩
        · exact .inl h
        · exact .inr ⟨item', List.mem_cons_of_mem _ hitem, hu⟩

theorem map_intercalate (f : CodeUnit → CodeUnit) (hf : f separator = separator) :
    ([separator].intercalate items).map f = [separator].intercalate (items.map (List.map f)) := by
  induction items with
  | nil => rfl
  | cons item items ih =>
    cases items with
    | nil => simp
    | cons next items =>
      rw [List.intercalate_cons_cons, List.map_append, List.map_append, ih]
      simp [List.intercalate_cons_cons, hf]

theorem intercalate_ne_nil (hne : items ≠ []) (hitems : ∀ item ∈ items, item ≠ []) :
    [separator].intercalate items ≠ [] := by
  cases items with
  | nil => exact absurd rfl hne
  | cons item items =>
    have hitem := hitems item List.mem_cons_self
    cases items with
    | nil => simpa using hitem
    | cons next items =>
      rw [List.intercalate_cons_cons]
      simp

theorem splitPairs_append {item : Text} (hitem : 0x3a ∉ item) (rest : Text) :
    splitPairs (item ++ rest) = (splitPairs rest).modifyHead (item ++ ·) := by
  induction item with
  | nil =>
    rw [List.nil_append]
    cases splitPairs rest <;> rfl
  | cons u item ih =>
    rw [List.mem_cons, not_or] at hitem
    have hu : u ≠ 0x3a := Ne.symm hitem.1
    have hcons : ∀ text : Text, splitPairs (u :: text) = (splitPairs text).modifyHead (u :: ·) := by
      intro text
      cases text with
      | nil => rfl
      | cons v text => simp [splitPairs, hu]
    rw [List.cons_append, hcons, ih hitem.2, List.modifyHead_modifyHead]
    rfl

/-- Items hold no two colons side by side. -/
theorem splitPairs_intercalate (hitems : ∀ item ∈ items, item ≠ [] ∧ 0x3a ∉ item) (rest : Text) :
    splitPairs ([0x3a].intercalate items ++ rest) =
      (splitPairs rest).modifyHead ([0x3a].intercalate items ++ ·) := by
  induction items with
  | nil =>
    change splitPairs rest = _
    cases splitPairs rest <;> rfl
  | cons item items ih =>
    obtain ⟨hne, hcolon⟩ := hitems item List.mem_cons_self
    have hrest := ih fun next hnext => hitems next (List.mem_cons_of_mem _ hnext)
    cases items with
    | nil => simpa using splitPairs_append hcolon rest
    | cons next items =>
      obtain ⟨hnext, hnextColon⟩ := hitems next (by simp)
      have hfirst : ∃ v text, [0x3a].intercalate (next :: items) ++ rest = v :: text ∧
          v ≠ 0x3a := by
        obtain ⟨v, next', rfl⟩ := List.exists_cons_of_ne_nil hnext
        rw [List.mem_cons, not_or] at hnextColon
        cases items with
        | nil => exact ⟨v, next' ++ rest, by simp, Ne.symm hnextColon.1⟩
        | cons third items =>
          exact ⟨v, _, by rw [List.intercalate_cons_cons]; rfl, Ne.symm hnextColon.1⟩
      obtain ⟨v, text, htext, hv⟩ := hfirst
      have hcolonCons : splitPairs (0x3a :: v :: text) =
          (splitPairs (v :: text)).modifyHead (0x3a :: ·) := by
        simp [splitPairs, hv]
      rw [List.intercalate_cons_cons, List.append_assoc, List.append_assoc,
        splitPairs_append hcolon, List.singleton_append, htext, hcolonCons, ← htext, hrest,
        List.modifyHead_modifyHead, List.modifyHead_modifyHead]
      congr 1
      funext text'
      simp [List.append_assoc]

end Joined

/-! ## The parsers -/

section Parsers

variable {text : Text} {octets quad : List Octet} {texts : List Text}

/-- The map of `toLowerCase`. -/
def lowerUnit (u : CodeUnit) : CodeUnit := if 0x41 ≤ u ∧ u ≤ 0x5a then u + 0x20 else u

theorem toLowerCase_eq (text : Text) : toLowerCase text = text.map lowerUnit := rfl

theorem lowerUnit_digit {u : CodeUnit} (h : isDigit u = true) : lowerUnit u = u := by
  unfold lowerUnit
  rw [if_neg]
  simp only [isDigit, Bool.and_eq_true, decide_eq_true_iff, Fin.le_def] at h ⊢
  simp at h ⊢
  omega

theorem lowerUnit_hex {u : CodeUnit} {digit : Nat} (h : Json.hexValue u = some digit) :
    isHexDigit (lowerUnit u) = true ∧
      (if isDigit (lowerUnit u) then (lowerUnit u).val - 0x30 else (lowerUnit u).val - 0x57) =
        digit := by
  obtain ⟨n, hn⟩ := u
  unfold Json.hexValue at h
  unfold lowerUnit
  simp only [isHexDigit, isDigit, Fin.le_def] at h ⊢
  split_ifs at h with hdigit hlower hupper
  · obtain rfl := Option.some.inj h
    rw [if_neg (by simp at hdigit ⊢; omega)]
    simp at hdigit ⊢
    simp [hdigit]
  · obtain rfl := Option.some.inj h
    rw [if_neg (by simp at hlower ⊢; omega)]
    simp at hlower ⊢
    simp [hlower]
    split <;> omega
  · obtain rfl := Option.some.inj h
    rw [if_pos (by simp at hupper ⊢; omega)]
    simp [Fin.val_add] at hupper ⊢
    have hmod : (n + 32) % 65536 = n + 32 := Nat.mod_eq_of_lt (by omega)
    rw [hmod]
    simp
    refine ⟨by omega, ?_⟩
    split <;> omega

theorem isDecimal_of_isDecOctet {octet : Octet} (h : IsDecOctet text octet) :
    isDecimal text = true := by
  obtain ⟨⟨hpos, hlong⟩, hdigits, hleading, -⟩ := h
  cases text with
  | nil => simp at hpos
  | cons first rest =>
    unfold isDecimal
    by_cases hzero : first = 0x30
    · have heq := hleading (by simp [hzero])
      simp [heq]
    · have hfirst := hdigits first List.mem_cons_self
      have hrest : rest.all isDigit = true :=
        List.all_eq_true.mpr fun u hu => hdigits u (List.mem_cons_of_mem _ hu)
      have hlength : rest.length ≤ 2 := Nat.succ_le_succ_iff.mp hlong
      simp [hfirst, hzero, hlength, hrest]

theorem partToByte_of_isDecOctet {octet : Octet} (h : IsDecOctet text octet) :
    partToByte text = some octet := by
  have hsmall : ¬ decimalValue text > 255 := by
    have hlt := octet.isLt
    rw [h.value]
    omega
  unfold partToByte
  rw [if_neg (by simp [isDecimal_of_isDecOctet h]), if_neg hsmall, h.value]
  exact congrArg some (Fin.ofNat_val_eq_self octet)

theorem parts_of_forall₂ {parts : List Text} (h : List.Forall₂ IsDecOctet parts quad) :
    parts.mapM partToByte = some quad ∧ ∀ part ∈ parts, ∀ u ∈ part, isDigit u = true := by
  induction h with
  | nil => exact ⟨rfl, by simp⟩
  | @cons part octet parts quad hpart _ ih =>
    refine ⟨by simp [partToByte_of_isDecOctet hpart, ih.1], fun other hother => ?_⟩
    rcases List.mem_cons.mp hother with rfl | hother
    · exact hpart.digits
    · exact ih.2 other hother

theorem ipv4ToBytes_of_dotted (h : Dotted text quad) : ipv4ToBytes text = some quad := by
  obtain ⟨parts, hlength, rfl, hparts⟩ := h
  obtain ⟨hbytes, hdigits⟩ := parts_of_forall₂ hparts
  have hdot : ∀ part ∈ parts, (0x2e : CodeUnit) ∉ part :=
    fun part hpart hmem => absurd (hdigits part hpart _ hmem) (by decide)
  have hne : parts ≠ [] := by
    rintro rfl
    simp at hlength
  unfold ipv4ToBytes
  rw [List.splitOn_intercalate _ hdot hne, if_neg (by simp [hlength]), hbytes]

theorem mem_dotted (h : Dotted text quad) {u : CodeUnit} (hu : u ∈ text) :
    u = 0x2e ∨ isDigit u = true := by
  obtain ⟨parts, -, rfl, hparts⟩ := h
  rcases mem_intercalate hu with hdot | ⟨part, hpart, hmem⟩
  · exact .inl hdot
  · exact .inr ((parts_of_forall₂ hparts).2 part hpart u hmem)

theorem toLowerCase_dotted (h : Dotted text quad) : toLowerCase text = text := by
  rw [toLowerCase_eq]
  conv_rhs => rw [← List.map_id text]
  refine List.map_congr_left fun u hu => ?_
  rcases mem_dotted h hu with rfl | hdigit
  · rfl
  · exact lowerUnit_digit hdigit

theorem dot_mem_dotted (h : Dotted text quad) : (0x2e : CodeUnit) ∈ text := by
  obtain ⟨parts, hlength, rfl, -⟩ := h
  match parts, hlength with
  | first :: second :: rest, _ =>
    rw [List.intercalate_cons_cons]
    simp

theorem isHexDigit_of_isDigit {u : CodeUnit} (h : isDigit u = true) : isHexDigit u = true := by
  simp [isHexDigit, h]

/-- An item in lower case is made of digits and dots. -/
def IsItem (item : Text) : Prop :=
  item ≠ [] ∧ ∀ u ∈ toLowerCase item, u = 0x2e ∨ isHexDigit u = true

theorem isItem_of_dotted (h : Dotted text quad) : IsItem text := by
  refine ⟨List.ne_nil_of_mem (dot_mem_dotted h), fun u hu => ?_⟩
  rw [toLowerCase_dotted h] at hu
  exact (mem_dotted h hu).imp_right isHexDigit_of_isDigit

section Group

variable {word : Nat}

theorem hexDigits_toLowerCase (h : ∀ u ∈ text, (Json.hexValue u).isSome = true) :
    hexDigits (toLowerCase text) = hexNumber text := by
  have hfold : ∀ value, (text.map lowerUnit).foldl (fun value digit =>
      value * 16 + if isDigit digit then digit.val - 0x30 else digit.val - 0x57) value =
        text.foldl (fun value digit => value * 16 + (Json.hexValue digit).getD 0) value := by
    induction text with
    | nil => exact fun _ => rfl
    | cons u text ih =>
      intro value
      obtain ⟨digit, hdigit⟩ := Option.isSome_iff_exists.mp (h u List.mem_cons_self)
      rw [List.map_cons, List.foldl_cons, List.foldl_cons, (lowerUnit_hex hdigit).2, hdigit,
        ih fun v hv => h v (List.mem_cons_of_mem _ hv)]
      rfl
  exact hfold 0

theorem isHexDigit_of_group (h : IsGroup text word) :
    ∀ u ∈ toLowerCase text, isHexDigit u = true := by
  intro u hu
  obtain ⟨v, hv, rfl⟩ := List.mem_map.mp hu
  obtain ⟨digit, hdigit⟩ := Option.isSome_iff_exists.mp (h.digits v hv)
  exact (lowerUnit_hex hdigit).1

theorem isItem_of_group (h : IsGroup text word) : IsItem text := by
  refine ⟨List.length_pos_iff.mp h.length.1, fun u hu => .inr (isHexDigit_of_group h u hu)⟩

theorem itemsToBytes_cons (h : IsGroup text word) (rest : List Text) :
    itemsToBytes (toLowerCase text :: rest) = (itemsToBytes rest).map
      ([Fin.ofNat 256 (word / 256), Fin.ofNat 256 (word % 256)] ++ ·) := by
  have hdot : (0x2e : CodeUnit) ∉ toLowerCase text :=
    fun hmem => absurd (isHexDigit_of_group h _ hmem) (by decide)
  have hlength : (toLowerCase text).length = text.length := List.length_map _
  have hall : (toLowerCase text).all isHexDigit = true :=
    List.all_eq_true.mpr (isHexDigit_of_group h)
  have hand : word &&& 0xff = word % 256 := Nat.and_two_pow_sub_one_eq_mod word 8
  have hshift : word >>> 8 = word / 256 := Nat.shiftRight_eq_div_pow word 8
  rw [itemsToBytes, if_neg hdot, if_pos (by simp [hlength, h.length, hall])]
  dsimp only
  rw [hexDigits_toLowerCase h.digits, h.value, hand, hshift]

end Group

theorem itemsToBytes_groups (h : Groups texts octets) {more : List Text} {tail : List Octet}
    (hmore : itemsToBytes more = some tail) :
    itemsToBytes (texts.map toLowerCase ++ more) = some (octets ++ tail) := by
  induction h with
  | nil => exact hmore
  | cons hgroup _ ih =>
    rw [List.map_cons, List.cons_append, itemsToBytes_cons hgroup, ih]
    rfl

theorem itemsToBytes_items (h : Items texts octets) :
    itemsToBytes (texts.map toLowerCase) = some octets := by
  cases h with
  | groups h => simpa using itemsToBytes_groups h (show itemsToBytes [] = some [] from rfl)
  | dotted h hquad =>
    rw [List.map_append]
    refine itemsToBytes_groups h ?_
    rw [List.map_singleton, toLowerCase_dotted hquad, itemsToBytes,
      if_pos (dot_mem_dotted hquad), if_neg (by simp), ipv4ToBytes_of_dotted hquad]

theorem isItem_of_groups (h : Groups texts octets) : ∀ item ∈ texts, IsItem item := by
  induction h with
  | nil => simp
  | cons hgroup _ ih =>
    intro item hitem
    rcases List.mem_cons.mp hitem with rfl | hitem
    · exact isItem_of_group hgroup
    · exact ih item hitem

theorem isItem_of_items (h : Items texts octets) : ∀ item ∈ texts, IsItem item := by
  cases h with
  | groups h => exact isItem_of_groups h
  | dotted h hquad =>
    intro item hitem
    rcases List.mem_append.mp hitem with hitem | hitem
    · exact isItem_of_groups h item hitem
    · rw [List.mem_singleton] at hitem
      exact hitem ▸ isItem_of_dotted hquad

/-! ### Joined items -/

theorem lower_items (h : ∀ item ∈ texts, IsItem item) :
    ∀ item ∈ texts.map toLowerCase, item ≠ [] ∧ (0x3a : CodeUnit) ∉ item ∧ 0x25 ∉ item := by
  intro item hitem
  obtain ⟨text, htext, rfl⟩ := List.mem_map.mp hitem
  obtain ⟨hne, hunits⟩ := h text htext
  have hout : ∀ u : CodeUnit, u ≠ 0x2e → isHexDigit u = false → u ∉ toLowerCase text := by
    intro u hu hhex hmem
    rcases hunits u hmem with heq | hhex'
    · exact hu heq
    · simp [hhex'] at hhex
  exact ⟨by simpa [toLowerCase_eq] using hne, hout _ (by decide) (by decide),
    hout _ (by decide) (by decide)⟩

theorem toLowerCase_join (texts : List Text) : toLowerCase ([0x3a].intercalate texts) =
    [0x3a].intercalate (texts.map toLowerCase) :=
  map_intercalate lowerUnit rfl

theorem halfToBytes_join {items : List Text} (h : ∀ item ∈ items, item ≠ [] ∧ 0x3a ∉ item) :
    halfToBytes ([0x3a].intercalate items) = itemsToBytes items := by
  unfold halfToBytes
  by_cases hne : items = []
  · subst hne
    rfl
  · rw [if_neg (intercalate_ne_nil hne fun item hitem => (h item hitem).1),
      List.splitOn_intercalate _ (fun item hitem => (h item hitem).2) hne]

theorem percent_not_mem {items : List Text} (h : ∀ item ∈ items, (0x25 : CodeUnit) ∉ item) :
    0x25 ∉ [0x3a].intercalate items := by
  intro hmem
  rcases mem_intercalate hmem with heq | ⟨item, hitem, hu⟩
  · exact absurd heq (by decide)
  · exact h item hitem hu

theorem ipv6ToBytes_of_spelled (h : Spelled6 text octets) : ipv6ToBytes text = some octets := by
  cases h with
  | @whole texts octets hitems hlength =>
    have hlower := lower_items (isItem_of_items hitems)
    have hpair := fun item hitem => (⟨(hlower item hitem).1, (hlower item hitem).2.1⟩ :
      item ≠ [] ∧ (0x3a : CodeUnit) ∉ item)
    have hsplit := splitPairs_intercalate hpair []
    rw [List.append_nil] at hsplit
    unfold ipv6ToBytes
    dsimp only
    rw [toLowerCase_join, if_neg (percent_not_mem fun item hitem => (hlower item hitem).2.2),
      hsplit]
    simp only [splitPairs, List.modifyHead_cons, List.append_nil]
    rw [halfToBytes_join hpair, itemsToBytes_items hitems]
    simp [hlength]
  | @compressed before after head tail hbefore hafter hlength =>
    have hlowerBefore := lower_items (isItem_of_groups hbefore)
    have hlowerAfter := lower_items (isItem_of_items hafter)
    have hpairBefore := fun item hitem => (⟨(hlowerBefore item hitem).1,
      (hlowerBefore item hitem).2.1⟩ : item ≠ [] ∧ (0x3a : CodeUnit) ∉ item)
    have hpairAfter := fun item hitem => (⟨(hlowerAfter item hitem).1,
      (hlowerAfter item hitem).2.1⟩ : item ≠ [] ∧ (0x3a : CodeUnit) ∉ item)
    have htext : toLowerCase ([0x3a].intercalate before ++
        (0x3a :: 0x3a :: [0x3a].intercalate after)) =
          [0x3a].intercalate (before.map toLowerCase) ++
            (0x3a :: 0x3a :: [0x3a].intercalate (after.map toLowerCase)) := by
      rw [← toLowerCase_join, ← toLowerCase_join, toLowerCase_eq, List.map_append]
      rfl
    have hpercent : (0x25 : CodeUnit) ∉ [0x3a].intercalate (before.map toLowerCase) ++
        (0x3a :: 0x3a :: [0x3a].intercalate (after.map toLowerCase)) := by
      rw [List.mem_append, List.mem_cons, List.mem_cons]
      rintro (hmem | hmem | hmem | hmem)
      · exact percent_not_mem (fun item hitem => (hlowerBefore item hitem).2.2) hmem
      · exact absurd hmem (by decide)
      · exact absurd hmem (by decide)
      · exact percent_not_mem (fun item hitem => (hlowerAfter item hitem).2.2) hmem
    have hsplitAfter := splitPairs_intercalate hpairAfter []
    rw [List.append_nil] at hsplitAfter
    have hhead : itemsToBytes (before.map toLowerCase) = some head := by
      simpa using itemsToBytes_groups hbefore (show itemsToBytes [] = some [] from rfl)
    unfold ipv6ToBytes
    dsimp only
    rw [htext, if_neg hpercent, splitPairs_intercalate hpairBefore]
    simp only [splitPairs, hsplitAfter, List.modifyHead_cons, List.append_nil, decide_true,
      Bool.and_self, if_true]
    rw [halfToBytes_join hpairBefore, halfToBytes_join hpairAfter, hhead,
      itemsToBytes_items hafter]
    simp only [Option.bind_some]
    rw [if_neg (by omega)]

end Parsers

end MpcRegistry.Config

import MpcRegistry.Worker.RedactUrls

/-!
# Configured secrets are covered

Where a part or a subdomain label stands in a text, and what the redactor leaves of the text
around it.
-/
namespace MpcRegistry.Worker.RedactUrls
open Library Utf16

/-! ## Occurrences -/

section Occurrences

variable (platform : Platform)

/-- `part` stands in the text from `start` on, up to case. -/
def OccursAt (part text : Text) (start : Nat) : Prop :=
  ∀ k u, part[k]? = some u →
    ∃ v, text[start + k]? = some v ∧ platform.canonicalize v = platform.canonicalize u

/-- No letter, digit or hyphen stands next to the range. -/
def IsWord (text : Text) (range : Range) : Prop :=
  (∀ u, 0 < range.start → text[range.start - 1]? = some u → isWordUnit platform u = false) ∧
  ∀ u, text[range.stop]? = some u → isWordUnit platform u = false

/-- A configured part, or a subdomain label as a whole word, takes up the range. -/
def IsSecret (configuration : Configuration) (text : Text) (range : Range) : Prop :=
  (∃ part ∈ configuration.parts, OccursAt platform part text range.start ∧
    range.stop = range.start + part.length) ∨
  ∃ label ∈ configuration.labels, OccursAt platform label text range.start ∧
    range.stop = range.start + label.length ∧ IsWord platform text range

variable {platform} {part text window : Text} {start n : Nat}

theorem OccursAt.stop_le (h : OccursAt platform part text start) (hne : part ≠ []) :
    start + part.length ≤ text.length := by
  have hpos := List.length_pos_iff.mpr hne
  obtain ⟨v, hv, -⟩ := h (part.length - 1) _ (List.getElem?_eq_getElem (by omega))
  obtain ⟨hbound, -⟩ := List.getElem?_eq_some_iff.mp hv
  omega

theorem OccursAt.take (h : OccursAt platform part text start) (hstop : start + part.length ≤ n) :
    OccursAt platform part (text.take n) start := by
  intro k u hu
  obtain ⟨hk, -⟩ := List.getElem?_eq_some_iff.mp hu
  obtain ⟨v, hv, hfold⟩ := h k u hu
  exact ⟨v, by rwa [List.getElem?_take_of_lt (by omega)], hfold⟩

theorem slice_getElem? (text : Text) (start length k : Nat) :
    (slice text start (start + length))[k]? = if k < length then text[start + k]? else none := by
  unfold slice
  rw [Nat.add_sub_cancel_left, List.getElem?_take, List.getElem?_drop]

theorem matchesText_iff : matchesText platform part window start ↔
    OccursAt platform part window start := by
  unfold matchesText OccursAt
  rw [decide_eq_true_iff]
  constructor
  · intro heq k u hu
    obtain ⟨hk, -⟩ := List.getElem?_eq_some_iff.mp hu
    have hat : ((slice window start (start + part.length)).map platform.canonicalize)[k]? =
        (part.map platform.canonicalize)[k]? := by rw [heq]
    rw [List.getElem?_map, List.getElem?_map, slice_getElem?, if_pos hk, hu] at hat
    exact Option.map_eq_some_iff.mp hat
  · intro h
    refine List.ext_getElem? fun k => ?_
    rw [List.getElem?_map, List.getElem?_map, slice_getElem?]
    by_cases hk : k < part.length
    · obtain ⟨v, hv, hfold⟩ := h k part[k] (List.getElem?_eq_getElem hk)
      rw [if_pos hk, hv, List.getElem?_eq_getElem hk]
      simp [hfold]
    · rw [if_neg hk, List.getElem?_eq_none (by omega), Option.map_none]

end Occurrences

/-! ## Patterns -/

theorem readPattern_cons {u : CodeUnit} (hu : u ≠ 0x5c) (rest : Text) :
    readPattern (u :: rest) = u :: readPattern rest := by
  cases rest with
  | nil => rfl
  | cons v rest => simp [readPattern, hu]

/-- Escaping a text makes a pattern for that text. -/
theorem readPattern_escapeRegExp (part : Text) : readPattern (escapeRegExp part) = part := by
  induction part with
  | nil => rfl
  | cons u rest ih =>
    unfold escapeRegExp at ih ⊢
    rw [List.flatMap_cons]
    by_cases hu : u ∈ syntaxUnits
    · rw [if_pos hu]
      simp [readPattern, ih]
    · have hne : u ≠ 0x5c := fun heq => hu (heq ▸ by decide)
      rw [if_neg hu, List.singleton_append, readPattern_cons hne, ih]

section Searching

variable {platform : Platform} {pattern : Pattern} {window : Text} {index lastIndex : Nat}

theorem exec_eq_some (h : exec platform pattern window lastIndex = some index) :
    index ≤ window.length ∧ lastIndex ≤ index ∧ matchesAt platform pattern window index = true ∧
      ∀ j, lastIndex ≤ j → matchesAt platform pattern window j = true → index ≤ j := by
  unfold exec at h
  rw [List.find?_range_eq_some] at h
  obtain ⟨hmatch, hmem, hfirst⟩ := h
  rw [Bool.and_eq_true, decide_eq_true_iff] at hmatch
  rw [List.mem_range] at hmem
  refine ⟨by omega, hmatch.1, hmatch.2, fun j hle hj => ?_⟩
  by_contra hlt
  have hnot := hfirst j (by omega)
  simp [hle, hj] at hnot

theorem exec_eq_none (h : exec platform pattern window lastIndex = none) (hle : lastIndex ≤ index)
    (hindex : index ≤ window.length) : matchesAt platform pattern window index = false := by
  unfold exec at h
  have hnot := List.find?_range_eq_none.mp h index (by omega)
  simpa [hle] using hnot

/-- Every match before the limit is found, one position after another. -/
theorem mem_patternRanges (hmatch : matchesAt platform pattern window index = true)
    (hindex : index ≤ window.length) (hlimit : index < maxInput) {rounds : Nat}
    (hle : lastIndex ≤ index) (hrounds : window.length + 1 < rounds + lastIndex) :
    ⟨index, index + (readPattern pattern.source).length⟩ ∈
      patternRanges platform pattern window rounds lastIndex := by
  induction rounds generalizing lastIndex with
  | zero => omega
  | succ rounds ih =>
    unfold patternRanges
    cases hexec : exec platform pattern window lastIndex with
    | none => simp [exec_eq_none hexec hle hindex] at hmatch
    | some first =>
      obtain ⟨-, hfrom, -, hleast⟩ := exec_eq_some hexec
      have hfirst := hleast index hle hmatch
      have hbefore : ¬ maxInput ≤ first := by omega
      simp only [hbefore, if_false]
      rcases Nat.eq_or_lt_of_le hfirst with rfl | hlater
      · exact List.mem_cons_self
      · exact List.mem_cons_of_mem _ (ih hlater (by omega))

/-- A range found starts before the limit and lies in the window. -/
structure InWindow (window : Text) (range : Range) : Prop where
  valid : range.start ≤ range.stop
  starts : range.start < maxInput
  stops : range.stop ≤ window.length

theorem stop_le_of_matchesAt (h : matchesAt platform pattern window index = true)
    (hindex : index ≤ window.length) :
    index + (readPattern pattern.source).length ≤ window.length := by
  unfold matchesAt at h
  have htext := matchesText_iff.mp (Bool.and_eq_true _ _ ▸ h).1
  by_cases hne : readPattern pattern.source = []
  · simpa [hne] using hindex
  · exact htext.stop_le hne

theorem inWindow_of_mem_patternRanges {rounds : Nat} {range : Range}
    (h : range ∈ patternRanges platform pattern window rounds lastIndex) :
    InWindow window range := by
  induction rounds generalizing lastIndex with
  | zero => cases h
  | succ rounds ih =>
    unfold patternRanges at h
    cases hexec : exec platform pattern window lastIndex with
    | none => simp [hexec] at h
    | some first =>
      obtain ⟨hindex, -, hmatch, -⟩ := exec_eq_some hexec
      rw [hexec] at h
      by_cases hlimit : maxInput ≤ first
      · simp [hlimit] at h
      · simp only [hlimit, if_false, List.mem_cons] at h
        rcases h with rfl | h
        · exact ⟨Nat.le_add_right _ _, Nat.lt_of_not_le hlimit,
            stop_le_of_matchesAt hmatch hindex⟩
        · exact ih h

end Searching

/-! ## What is configured -/

theorem length_le_of_mem_split {separator : CodeUnit} {text piece : Text}
    (h : piece ∈ split separator text) : piece.length ≤ text.length := by
  induction text generalizing piece with
  | nil =>
    obtain rfl : piece = [] := by simpa [split] using h
    exact Nat.le_refl _
  | cons u rest ih =>
    unfold split at h
    split at h
    · rcases List.mem_cons.mp h with rfl | h
      · exact Nat.zero_le _
      · exact (ih h).trans (Nat.le_succ _)
    · cases hsplit : split separator rest with
      | nil =>
        obtain rfl : piece = [u] := by simpa [hsplit] using h
        simp
      | cons first others =>
        rw [hsplit] at h
        rcases List.mem_cons.mp h with rfl | h
        · simpa using ih (show first ∈ split separator rest by simp [hsplit])
        · exact (ih (by simp [hsplit, h])).trans (Nat.le_succ _)

theorem le_foldl_max {lengths : List Nat} {n : Nat} (h : n ∈ lengths) : n ≤ lengths.foldl max 0 := by
  have hmax : ∀ (rest : List Nat) (start : Nat), start ≤ rest.foldl max start ∧
      ∀ m ∈ rest, m ≤ rest.foldl max start := by
    intro rest
    induction rest with
    | nil => simp
    | cons first rest ih =>
      intro start
      obtain ⟨hstart, hrest⟩ := ih (max start first)
      refine ⟨(Nat.le_max_left _ _).trans hstart, fun m hm => ?_⟩
      rcases List.mem_cons.mp hm with rfl | hm
      · exact (Nat.le_max_right _ _).trans hstart
      · exact hrest m hm
  exact (hmax lengths 0).2 n h

theorem mem_withEncoded {platform : Platform} {parts encoded : List Text} {part : Text}
    (h : withEncoded platform parts = some encoded) (hpart : part ∈ parts) : part ∈ encoded := by
  unfold withEncoded at h
  induction parts generalizing encoded with
  | nil => cases hpart
  | cons first rest ih =>
    simp only [List.mapM_cons, Option.map_eq_some_iff] at h
    obtain ⟨lists, hlists, rfl⟩ := h
    simp only [Option.bind_eq_bind, Option.bind_eq_some_iff, Option.map_eq_some_iff,
      Option.pure_def, Option.some.injEq] at hlists
    obtain ⟨pair, ⟨code, -, rfl⟩, others, hothers, rfl⟩ := hlists
    rcases List.mem_cons.mp hpart with rfl | hrest
    · simp
    · have hrestEncoded : (rest.mapM fun part => (platform.encodeURIComponent part).map
          fun encoded => [part, encoded]).map List.flatten = some others.flatten := by
        simp [hothers]
      simp [ih hrestEncoded hrest]

section Configured

variable {platform : Platform} {configured : List (Option Text)} {configuration : Configuration}

theorem nonempty_of_mem_parts (h : configure platform configured = some configuration)
    {part : Text} (hpart : part ∈ configuration.parts) : part ≠ [] := by
  unfold configure at h
  obtain ⟨encoded, -, rfl⟩ := Option.map_eq_some_iff.mp h
  simp only [List.mem_eraseDups, List.mem_filter, decide_eq_true_iff] at hpart
  exact hpart.2

theorem length_le_longest {part : Text} (hpart : part ∈ configuration.parts) :
    part.length ≤ configuration.longest :=
  le_foldl_max (List.mem_map_of_mem hpart)

/-- The hostname of a subdomain label is a part itself. -/
theorem exists_part_of_label (h : configure platform configured = some configuration)
    {label : Text} (hlabel : label ∈ configuration.labels) :
    label ≠ [] ∧ ∃ part ∈ configuration.parts, label.length ≤ part.length := by
  unfold configure at h
  obtain ⟨encoded, hencoded, rfl⟩ := Option.map_eq_some_iff.mp h
  simp only [List.mem_eraseDups, List.mem_flatMap] at hlabel
  obtain ⟨value, hvalue, hlabel⟩ := hlabel
  unfold subdomainLabels at hlabel
  cases hurl : platform.parseUrl value with
  | none => simp [hurl] at hlabel
  | some url =>
    simp only [hurl] at hlabel
    split at hlabel
    · rw [List.mem_filter, decide_eq_true_iff] at hlabel
      have hlong := length_le_of_mem_split (List.mem_of_mem_take hlabel.1)
      have hmin : minPart ≤ label.length := hlabel.2
      have hne : label ≠ [] := by
        rintro rfl
        exact absurd hmin (by decide)
      have hhost : url.hostname ≠ [] := by
        intro hnil
        rw [hnil] at hlong
        exact absurd (hmin.trans hlong) (by decide)
      refine ⟨hne, url.hostname, ?_, hlong⟩
      have hsecret : url.hostname ∈ secretParts platform value := by
        simp only [secretParts, hurl, List.mem_flatMap]
        exact ⟨url.hostname, by simp, by simp [withEscapedSlashes]⟩
      have hpiece : url.hostname ∈ pieces platform
          (configured.reduceOption.filter (· ≠ [])) := by
        unfold pieces
        refine List.mem_append_left _ (List.mem_filter.mpr ⟨?_, ?_⟩)
        · exact List.mem_flatMap.mpr ⟨value, hvalue, hsecret⟩
        · exact decide_eq_true (hmin.trans hlong)
      have hin := mem_withEncoded hencoded (List.mem_append_right _ hpiece)
      simp [hin, hhost]
    · cases hlabel

end Configured

/-! ## What is replaced -/

section Covering

variable {platform : Platform} {configured : List (Option Text)} {configuration : Configuration}
  {text window tail : Text} {patterns : List Pattern} {range : Range}

theorem inWindow_of_mem_configuredRanges
    (h : range ∈ configuredRanges platform window patterns) : InWindow window range := by
  have hspans := (Range.merges_mergeAll _).spans range h
  obtain ⟨r, hr, hstart, hle⟩ := hspans.start
  obtain ⟨t, ht, hstop⟩ := hspans.stop
  obtain ⟨p, -, hr⟩ := List.mem_flatMap.mp hr
  obtain ⟨q, -, ht⟩ := List.mem_flatMap.mp ht
  have hfirst := inWindow_of_mem_patternRanges hr
  have hlast := inWindow_of_mem_patternRanges ht
  refine ⟨?_, hstart ▸ hfirst.starts, hstop ▸ hlast.stops⟩
  have hvalid := hfirst.valid
  omega

theorem exists_configuredRange {pattern : Pattern} {index : Nat} (hpattern : pattern ∈ patterns)
    (hmatch : matchesAt platform pattern window index = true) (hindex : index ≤ window.length)
    (hlimit : index < maxInput) : ∃ m ∈ configuredRanges platform window patterns,
      m.Contains ⟨index, index + (readPattern pattern.source).length⟩ :=
  (Range.merges_mergeAll _).covered _ (List.mem_flatMap.mpr
    ⟨pattern, hpattern, mem_patternRanges hmatch hindex hlimit (Nat.zero_le _) (by omega)⟩)

theorem all_take {n k : Nat} {p : CodeUnit → Bool} (h : ∀ u, text[k]? = some u → p u = true) :
    ((text.take n)[k]?).all p = true := by
  rw [List.getElem?_take]
  split
  · cases hat : text[k]? with
    | none => rfl
    | some u => exact h u hat
  · rfl

theorem matchesAt_part {part : Text} {start : Nat} (h : OccursAt platform part window start) :
    matchesAt platform ⟨escapeRegExp part, false⟩ window start = true := by
  simp [matchesAt, readPattern_escapeRegExp, matchesText_iff.mpr h]

/-- Cutting a text behind a word leaves it a word. -/
theorem matchesAt_label {label : Text} {start n : Nat}
    (h : OccursAt platform label (text.take n) start)
    (hword : IsWord platform text ⟨start, start + label.length⟩) :
    matchesAt platform ⟨escapeRegExp label, true⟩ (text.take n) start = true := by
  have hbefore : start = 0 ∨ ((text.take n)[start - 1]?).all
      (fun u => !isWordUnit platform u) = true := by
    rcases Nat.eq_zero_or_pos start with hzero | hpos
    · exact .inl hzero
    · exact .inr (all_take fun u hu => by simp [hword.1 u hpos hu])
  have hafter : ((text.take n)[start + label.length]?).all
      (fun u => !isWordUnit platform u) = true :=
    all_take fun u hu => by simp [hword.2 u hu]
  simp [matchesAt, readPattern_escapeRegExp, matchesText_iff.mpr h, hbefore, hafter]

/-- A secret that starts before the limit lies in the window, and its pattern finds it. -/
theorem exists_range_of_secret (h : configure platform configured = some configuration)
    (hsecret : IsSecret platform configuration text range) (hlimit : range.start < maxInput) :
    ∃ m ∈ configuredRanges platform (text.take (maxInput + configuration.longest))
      configuration.patterns, m.Contains range := by
  obtain ⟨start, stop⟩ := range
  change start < maxInput at hlimit
  rcases hsecret with ⟨part, hpart, hat, hend⟩ | ⟨label, hlabel, hat, hend, hword⟩
  · obtain rfl : stop = start + part.length := hend
    change OccursAt platform part text start at hat
    have hlong := length_le_longest hpart
    have hwindow := hat.take (n := maxInput + configuration.longest) (by omega)
    have hstop := hwindow.stop_le (nonempty_of_mem_parts h hpart)
    have hmem : (⟨escapeRegExp part, false⟩ : Pattern) ∈ configuration.patterns :=
      List.mem_append_left _ (List.mem_map_of_mem hpart)
    have hfound := exists_configuredRange hmem (matchesAt_part hwindow)
      ((Nat.le_add_right _ _).trans hstop) hlimit
    rwa [readPattern_escapeRegExp] at hfound
  · obtain rfl : stop = start + label.length := hend
    change OccursAt platform label text start at hat
    obtain ⟨hne, part, hpart, hle⟩ := exists_part_of_label h hlabel
    have hlong := length_le_longest hpart
    have hwindow := hat.take (n := maxInput + configuration.longest) (by omega)
    have hstop := hwindow.stop_le hne
    have hmem : (⟨escapeRegExp label, true⟩ : Pattern) ∈ configuration.patterns :=
      List.mem_append_right _ (List.mem_map_of_mem hlabel)
    have hfound := exists_configuredRange hmem (matchesAt_label hwindow hword)
      ((Nat.le_add_right _ _).trans hstop) hlimit
    rwa [readPattern_escapeRegExp] at hfound

/-- The loop over the ranges writes out the segments around them. -/
theorem foldl_replaceRange (ranges : List Range) (redaction : Redaction) :
    ranges.foldl (replaceRange window) redaction =
      ⟨redaction.out ++ Segment.render window configuredPlaceholder
        (Segment.around redaction.pos ranges), Segment.endOf redaction.pos ranges⟩ := by
  induction ranges generalizing redaction with
  | nil => simp [Segment.around, Segment.render, Segment.endOf]
  | cons range rest ih =>
    rw [List.foldl_cons, ih]
    simp [replaceRange, Segment.around, Segment.render, Segment.endOf, slice]

theorem cutPrefix_le {part : Text} {hostnames : List Text} {truncated : Bool} {cut : Nat}
    (h : cutPrefix platform tail part hostnames truncated = some cut) : cut ≤ tail.length := by
  unfold cutPrefix at h
  obtain ⟨length, -, rfl⟩ := Option.map_eq_some_iff.mp h
  exact Nat.sub_le _ _

theorem cutTailAt_le {prefixes hostnames : List Text} {truncated : Bool} {cut : Nat}
    (h : cutTailAt platform tail prefixes hostnames truncated = some cut) : cut ≤ tail.length := by
  unfold cutTailAt at h
  refine List.foldlRecOn prefixes _ (motive := fun found => ∀ cut, found = some cut →
    cut ≤ tail.length) (by simp) (fun found hfound part _ => ?_) cut h
  cases hpart : cutPrefix platform tail part hostnames truncated with
  | none => exact hfound
  | some start =>
    intro cut hcut
    have hle := cutPrefix_le hpart
    obtain rfl := Option.some.inj hcut
    exact (Nat.min_le_right _ _).trans hle

/-- The rest of a text before the limit, up to its cut. -/
def cutTail (tail : Text) : Option Nat → Text
  | none => tail
  | some cut => tail.take cut ++ configuredPlaceholder

/-- What is done with the rest of a text before the limit. -/
def tailSegments (pos stop : Nat) : Option Nat → List Segment
  | none => [⟨⟨pos, stop⟩, false⟩]
  | some cut => [⟨⟨pos, pos + cut⟩, false⟩, ⟨⟨pos + cut, stop⟩, true⟩]

theorem tiled_tailSegments {pos stop : Nat} (hle : pos ≤ stop) {cut : Option Nat}
    (hcut : ∀ n, cut = some n → n ≤ stop - pos) :
    Segment.Tiled pos (tailSegments pos stop cut) stop := by
  cases cut with
  | none => exact ⟨rfl, hle, rfl⟩
  | some n =>
    have hn := hcut n rfl
    exact ⟨rfl, Nat.le_add_right _ _, rfl, by dsimp only; omega, rfl⟩

/-- The rest of a text is the same in the window, and ends with the text or at the limit. -/
theorem slice_window (text : Text) {pos n : Nat} (hn : maxInput ≤ n) :
    slice (text.take n) pos maxInput =
      (text.drop pos).take (min maxInput text.length - pos) := by
  unfold slice
  rw [List.drop_take, List.take_take, List.take_eq_take_iff, List.length_drop]
  omega

theorem render_tailSegments (text : Text) {pos n : Nat} (hn : maxInput ≤ n) (cut : Option Nat)
    (hcut : ∀ m, cut = some m → m ≤ (slice (text.take n) pos maxInput).length) :
    Segment.render text configuredPlaceholder
        (tailSegments pos (min maxInput text.length) cut) =
      cutTail (slice (text.take n) pos maxInput) cut := by
  cases cut with
  | none => simp [tailSegments, cutTail, Segment.render, slice_window text hn]
  | some m =>
    have hm := hcut m rfl
    rw [slice_window text hn, List.length_take] at hm
    rw [cutTail, slice_window text hn, List.take_take,
      Nat.min_eq_left (hm.trans (Nat.min_le_left _ _))]
    simp [tailSegments, Segment.render]

end Covering

/-! ## The theorem -/

/-- A redaction is the text in segments, hidden or kept, up to `stop`. Every secret that starts
before the limit lies in a hidden one and off the kept ones. -/
structure Covers (platform : Platform) (configuration : Configuration) (text out : Text)
    (segments : List Segment) (stop : Nat) : Prop where
  rendered : out = Segment.render text configuredPlaceholder segments
  tiled : Segment.Tiled 0 segments stop
  reaches : min maxInput text.length ≤ stop
  kept : ∀ s ∈ segments, s.hidden = false → s.stop ≤ maxInput ∧ s.stop ≤ text.length
  hides : ∀ range, IsSecret platform configuration text range → range.start < maxInput →
    ∃ s ∈ segments, s.hidden = true ∧ s.toRange.Contains range
  apart : ∀ s ∈ segments, s.hidden = false → ∀ range, IsSecret platform configuration text range →
    range.start < maxInput → s.stop ≤ range.start ∨ range.stop ≤ s.start

section Covers

variable {platform : Platform} {configured : List (Option Text)} {configuration : Configuration}
  {text out : Text} {segments : List Segment} {stop : Nat}

/-- What lies in a hidden segment is off the kept ones. -/
theorem apart_of_hides (htiled : Segment.Tiled 0 segments stop) {range : Range}
    (hhides : ∃ s ∈ segments, s.hidden = true ∧ s.toRange.Contains range) :
    ∀ s ∈ segments, s.hidden = false → s.stop ≤ range.start ∨ range.stop ≤ s.start := by
  intro s hs hkept
  obtain ⟨t, ht, hhidden, hstart, hstop⟩ := hhides
  have hne : s ≠ t := by
    rintro rfl
    simp [hkept] at hhidden
  rcases htiled.apart hs ht hne with hbefore | hbehind
  · exact .inl (hbefore.trans hstart)
  · exact .inr (hstop.trans hbehind)

section Segments

variable (platform : Platform) (configuration : Configuration) (text : Text)

def rangesOf : List Range :=
  configuredRanges platform (text.take (maxInput + configuration.longest)) configuration.patterns

/-- Where the last range ends. -/
def endOfRanges : Nat := Segment.endOf 0 (rangesOf platform configuration text)

def tailOf : Text :=
  slice (text.take (maxInput + configuration.longest)) (endOfRanges platform configuration text)
    maxInput

def cutOf : Option Nat :=
  cutTailAt platform (tailOf platform configuration text) configuration.prefixes
    configuration.hostnames (maxInput < text.length)

def endSegments : List Segment :=
  if endOfRanges platform configuration text < maxInput then
    tailSegments (endOfRanges platform configuration text) (min maxInput text.length)
      (cutOf platform configuration text)
  else []

def segmentsOf : List Segment :=
  Segment.around 0 (rangesOf platform configuration text) ++ endSegments platform configuration text

def stopOf : Nat :=
  if endOfRanges platform configuration text < maxInput then min maxInput text.length
  else endOfRanges platform configuration text

theorem inWindow_of_mem_rangesOf {range : Range} (h : range ∈ rangesOf platform configuration text) :
    range.start ≤ range.stop ∧ range.start < maxInput ∧ range.stop ≤ text.length := by
  obtain ⟨hvalid, hstarts, hstops⟩ := inWindow_of_mem_configuredRanges h
  rw [List.length_take] at hstops
  exact ⟨hvalid, hstarts, hstops.trans (Nat.min_le_right _ _)⟩

theorem endOfRanges_le : endOfRanges platform configuration text ≤ text.length := by
  unfold endOfRanges
  rcases Segment.endOf_eq 0 (rangesOf platform configuration text) with heq | ⟨r, hr, heq⟩
  · omega
  · have hin := inWindow_of_mem_rangesOf platform configuration text hr
    omega

theorem kept_around {s : Segment}
    (hs : s ∈ Segment.around 0 (rangesOf platform configuration text)) (hkept : s.hidden = false) :
    s.stop ≤ maxInput ∧ s.stop ≤ text.length := by
  obtain ⟨r, hr, heq⟩ := Segment.exists_range_of_kept hs hkept
  have hin := inWindow_of_mem_rangesOf platform configuration text hr
  omega

theorem cutOf_le {m : Nat} (h : cutOf platform configuration text = some m) :
    m ≤ (tailOf platform configuration text).length :=
  cutTailAt_le h

theorem tiled_endSegments :
    Segment.Tiled (endOfRanges platform configuration text)
      (endSegments platform configuration text) (stopOf platform configuration text) := by
  have hle := endOfRanges_le platform configuration text
  unfold endSegments stopOf
  split
  · next hbefore =>
    refine tiled_tailSegments (by omega) fun m hm => ?_
    have hcut := cutOf_le platform configuration text hm
    unfold tailOf at hcut
    rw [slice_window text (Nat.le_add_right _ _), List.length_take] at hcut
    exact hcut.trans (Nat.min_le_left _ _)
  · rfl

theorem tiled_segmentsOf :
    Segment.Tiled 0 (segmentsOf platform configuration text)
      (stopOf platform configuration text) := by
  have hin : ∀ r ∈ rangesOf platform configuration text, r.start ≤ r.stop :=
    fun r hr => (inWindow_of_mem_rangesOf platform configuration text hr).1
  have haround : Segment.Tiled 0 (Segment.around 0 (rangesOf platform configuration text))
      (endOfRanges platform configuration text) :=
    Segment.tiled_around hin (fun _ _ => Nat.zero_le _)
      (Range.merges_mergeAll _).apart
  exact haround.append (tiled_endSegments platform configuration text)

theorem kept_segmentsOf {s : Segment} (hs : s ∈ segmentsOf platform configuration text)
    (hkept : s.hidden = false) : s.stop ≤ maxInput ∧ s.stop ≤ text.length := by
  rcases List.mem_append.mp hs with hs | hs
  · exact kept_around platform configuration text hs hkept
  · have hbounds := (tiled_endSegments platform configuration text).bounds s hs
    unfold stopOf at hbounds
    unfold endSegments at hs
    split at hs
    · next hbefore =>
      rw [if_pos hbefore] at hbounds
      omega
    · cases hs

theorem redactConfigured_eq_cutTail : redactConfigured platform configuration text =
    let out := Segment.render (text.take (maxInput + configuration.longest)) configuredPlaceholder
      (Segment.around 0 (rangesOf platform configuration text))
    if endOfRanges platform configuration text < maxInput then
      out ++ cutTail (tailOf platform configuration text) (cutOf platform configuration text)
    else out := by
  unfold redactConfigured cutOf tailOf endOfRanges rangesOf
  dsimp only
  rw [foldl_replaceRange, List.nil_append]
  dsimp only
  congr 1
  split
  · next hcut =>
    rw [hcut]
    rfl
  · next hcut =>
    rw [hcut]
    rfl

/-- What the redactor writes is what the segments leave of the text. -/
theorem redactConfigured_eq : redactConfigured platform configuration text =
    Segment.render text configuredPlaceholder (segmentsOf platform configuration text) := by
  have haround : Segment.render (text.take (maxInput + configuration.longest))
        configuredPlaceholder (Segment.around 0 (rangesOf platform configuration text)) =
      Segment.render text configuredPlaceholder
        (Segment.around 0 (rangesOf platform configuration text)) :=
    Segment.render_take _ _ fun s hs hkept =>
      (kept_around platform configuration text hs hkept).1.trans (Nat.le_add_right _ _)
  unfold segmentsOf endSegments
  rw [redactConfigured_eq_cutTail, haround, Segment.render_append]
  dsimp only
  split
  · rw [render_tailSegments text (Nat.le_add_right maxInput configuration.longest) _
      (fun m hm => cutOf_le platform configuration text hm)]
    rfl
  · exact (List.append_nil _).symm

end Segments

/-- For the text before the generic masking of URLs. -/
theorem secrets_covered (h : configure platform configured = some configuration) (text : Text) :
    Covers platform configuration text (redactConfigured platform configuration text)
      (segmentsOf platform configuration text) (stopOf platform configuration text) := by
  have hhides : ∀ range, IsSecret platform configuration text range → range.start < maxInput →
      ∃ s ∈ segmentsOf platform configuration text,
        s.hidden = true ∧ s.toRange.Contains range := by
    intro range hsecret hlimit
    obtain ⟨m, hm, hcontains⟩ := exists_range_of_secret h hsecret hlimit
    exact ⟨⟨m, true⟩, List.mem_append_left _ (Segment.mem_around hm), rfl, hcontains⟩
  refine ⟨redactConfigured_eq platform configuration text,
    tiled_segmentsOf platform configuration text, ?_,
    fun s => kept_segmentsOf platform configuration text, hhides, ?_⟩
  · unfold stopOf
    split
    · exact Nat.le_refl _
    · omega
  · intro s hs hkept range hsecret hlimit
    exact apart_of_hides (tiled_segmentsOf platform configuration text)
      (hhides range hsecret hlimit) s hs hkept

/-! A URL with a key in its host. The platform is that of plain text and of this URL. -/

def keyedValue : Text := units "wss://k3y9.rpc.example"

def keyedUrl : Url where
  host := units "k3y9.rpc.example"
  hostname := units "k3y9.rpc.example"
  pathname := units "/"
  search := []
  username := []
  password := []

/-- What `encodeURIComponent` leaves as it is. -/
def unreserved : Text :=
  units "ABCDEFGHIJKLMNOPQRSTUVWXYZabcdefghijklmnopqrstuvwxyz0123456789-_.!~*'()"

def hexDigit (n : Nat) : Text := ((units "0123456789ABCDEF").drop n).take 1

def plainPlatform : Platform where
  parseUrl value := if value ∈ withEscapedSlashes keyedValue then some keyedUrl else none
  decodeURIComponent := some
  encodeURIComponent value := some (value.flatMap fun u =>
    if u ∈ unreserved then [u] else 0x25 :: hexDigit (u.val / 16) ++ hexDigit (u.val % 16))
  toLowerCase := List.map fun u => if 0x41 ≤ u ∧ u ≤ 0x5a then u + 0x20 else u
  canonicalize u := if 0x61 ≤ u ∧ u ≤ 0x7a then u - 0x20 else u

theorem secrets_covered_keyed : ∃ configuration,
    configure plainPlatform [none, some keyedValue] = some configuration ∧
      Covers plainPlatform configuration (units "wss://K3Y9.rpc.example: bad k3y9")
        (redactConfigured plainPlatform configuration (units "wss://K3Y9.rpc.example: bad k3y9"))
        (segmentsOf plainPlatform configuration (units "wss://K3Y9.rpc.example: bad k3y9"))
        (stopOf plainPlatform configuration (units "wss://K3Y9.rpc.example: bad k3y9")) := by
  have hconfigured : (configure plainPlatform [none, some keyedValue]).isSome = true := by
    decide +kernel
  obtain ⟨configuration, h⟩ := Option.isSome_iff_exists.mp hconfigured
  exact ⟨configuration, h, secrets_covered h _⟩

example : (configure plainPlatform [none, some keyedValue]).map
    (redactConfigured plainPlatform · (units "wss://K3Y9.rpc.example: bad k3y9")) =
      some (units "[rpc-url]: bad [rpc-url]") := by decide +kernel

end Covers

end MpcRegistry.Worker.RedactUrls

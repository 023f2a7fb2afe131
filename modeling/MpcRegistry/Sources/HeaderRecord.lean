import MpcRegistry.Ecma.Trim
import MpcRegistry.Sources.ObservedFields

/-!
# The header record of a file

The source cuts the text at its line breaks before it reads quotes. So it reads the header record
up to the first line feed, also where that stands in a field between quotes.
-/
namespace MpcRegistry.Sources
open Library Ecma
open Csv (Field Record IsBreak IsFile fieldsText doubled)
open Utf16 (decodeUtf8)

/-! ## What a file holds -/

/-- The text of the file, with or without a byte order mark. -/
def IsCsv (text : Text) (records : List Record) : Prop :=
  ∃ file, IsFile file records ∧
    (text = byteOrderMark :: file ∨ (text = file ∧ file.head? ≠ some byteOrderMark))

def isBlank (record : Record) : Bool := trim record.text = []

/-- The first record that is not blank. -/
def headerOf (records : List Record) : Option Record := records.find? (!isBlank ·)

/-- The trimmed texts that are not empty. -/
def named (values : List Text) : List Text := (values.map trim).filter (·.length > 0)

def headerFields (records : List Record) : List Text :=
  (headerOf records).elim [] fun header => named header.values

/-- The fields of the header record; none is a failure. -/
def observed (fields : List Text) : Option (List Text) := if fields = [] then none else some fields

/-- Past the first line feed in a field of the record there is only white space. -/
def OneLine (values : List Text) : Prop :=
  ∀ before first rest after, values = before ++ (first ++ Csv.lf :: rest) :: after →
    Blank rest ∧ ∀ later ∈ after, Blank later

/-- The fields up to the first line feed. -/
def firstLine : List Text → List Text
  | [] => []
  | value :: values =>
    if Csv.lf ∈ value then [value.takeWhile (· ≠ Csv.lf)] else value :: firstLine values

/-! ## Lines -/

/-- The first line. -/
def lineHead : Text → Text
  | [] => []
  | [u] => if u = Csv.lf then [] else [u]
  | u :: v :: rest =>
    if (u = Csv.cr && v = Csv.lf) || u = Csv.lf then [] else u :: lineHead (v :: rest)

section Lines

variable {u v : CodeUnit} {text rest lineBreak : Text}

theorem lineHead_lf (rest : Text) : lineHead (Csv.lf :: rest) = [] := by
  cases rest <;> rfl

theorem lineHead_break (h : IsBreak lineBreak) (rest : Text) : lineHead (lineBreak ++ rest) = [] := by
  cases h with
  | lf => exact lineHead_lf rest
  | crlf => rfl

theorem lineHead_cons (hlf : u ≠ Csv.lf) (hcr : u = Csv.cr → rest.head? ≠ some Csv.lf) :
    lineHead (u :: rest) = u :: lineHead rest := by
  cases rest with
  | nil => simp [lineHead, hlf]
  | cons v rest =>
    have hpair : ¬ (u = Csv.cr ∧ v = Csv.lf) := fun h => hcr h.1 (by simp [h.2])
    rw [lineHead, if_neg (by simpa [hlf] using hpair)]

theorem lineHead_plain (hlf : u ≠ Csv.lf) (hcr : u ≠ Csv.cr) :
    lineHead (u :: rest) = u :: lineHead rest :=
  lineHead_cons hlf fun h => absurd h hcr

theorem splitLines_cons (hlf : u ≠ Csv.lf) (hcr : u ≠ Csv.cr) :
    splitLines (u :: rest) = (splitLines rest).modifyHead (u :: ·) := by
  cases rest with
  | nil => simp [splitLines, hlf]
  | cons v rest => simp [splitLines, hlf, hcr]

theorem splitLines_head (text : Text) : (splitLines text).head? = some (lineHead text) := by
  induction text using splitLines.induct with
  | case1 => rfl
  | case2 => rfl
  | case3 u h => simp [splitLines, lineHead, h]
  | case4 u v rest h ih =>
    simp only [Bool.and_eq_true, decide_eq_true_iff] at h
    simp [splitLines, lineHead, h]
  | case5 v rest h ih =>
    rw [splitLines, if_neg h, if_pos rfl, lineHead_lf]
    rfl
  | case6 u v rest hpair hlf ih =>
    rw [splitLines, if_neg hpair, if_neg hlf, List.head?_modifyHead, ih,
      lineHead_cons hlf fun hcr => by simpa [hcr] using hpair]
    rfl

/-- A text without line breaks is a line of its own. -/
theorem splitLines_line (htext : ∀ u ∈ text, u ≠ Csv.cr ∧ u ≠ Csv.lf) (hbreak : IsBreak lineBreak)
    (rest : Text) : splitLines (text ++ lineBreak ++ rest) = text :: splitLines rest := by
  induction text with
  | nil =>
    cases hbreak with
    | lf => cases rest <;> rfl
    | crlf => rfl
  | cons u text ih =>
    obtain ⟨hcr, hlf⟩ := htext u List.mem_cons_self
    rw [List.cons_append, List.cons_append, splitLines_cons hlf hcr,
      ih fun v hv => htext v (List.mem_cons_of_mem _ hv)]
    rfl

theorem splitLines_last (htext : ∀ u ∈ text, u ≠ Csv.cr ∧ u ≠ Csv.lf) :
    splitLines text = [text] := by
  induction text with
  | nil => rfl
  | cons u text ih =>
    obtain ⟨hcr, hlf⟩ := htext u List.mem_cons_self
    rw [splitLines_cons hlf hcr, ih fun v hv => htext v (List.mem_cons_of_mem _ hv)]
    rfl

theorem lineHead_line (htext : ∀ u ∈ text, u ≠ Csv.cr ∧ u ≠ Csv.lf) (rest : Text) :
    lineHead (text ++ rest) = text ++ lineHead rest := by
  induction text with
  | nil => rfl
  | cons u text ih =>
    obtain ⟨hcr, hlf⟩ := htext u List.mem_cons_self
    rw [List.cons_append, lineHead_plain hlf hcr,
      ih fun v hv => htext v (List.mem_cons_of_mem _ hv)]
    rfl

end Lines

/-! ## The header up to its first line feed -/

section Header

variable {current value rest tail lineBreak : Text} {field : Field} {fields : List Field}

/-- What follows a field: a comma, a line break or nothing. -/
def Ends (rest : Text) : Prop := rest.head? ≠ some Csv.quote

theorem parseFrom_closing (h : Ends (lineHead rest)) :
    parseFrom true current (Csv.quote :: lineHead rest) = parseFrom false current (lineHead rest) := by
  cases hline : lineHead rest with
  | nil => rfl
  | cons next text =>
    rw [hline] at h
    have hnext : next ≠ Csv.quote := by simpa [Ends] using h
    simp [parseFrom, hnext]

/-- Between quotes, from any state of the loop. -/
theorem parseFrom_quoted (h : Ends (lineHead rest)) (current value : Text) :
    parseFrom true current (lineHead (doubled value ++ Csv.quote :: rest)) =
      if Csv.lf ∈ value then [trim (current ++ value.takeWhile (· ≠ Csv.lf))]
      else parseFrom false (current ++ value) (lineHead rest) := by
  have hquote : ∀ text, lineHead (Csv.quote :: text) = Csv.quote :: lineHead text :=
    fun text => lineHead_plain (by decide) (by decide)
  induction value generalizing current with
  | nil =>
    rw [show doubled [] = [] from rfl, List.nil_append, hquote, parseFrom_closing h]
    simp
  | cons u value ih =>
    rw [Csv.doubled_cons, List.append_assoc]
    by_cases hu : u = Csv.quote
    · subst hu
      rw [if_pos rfl, List.cons_append, List.singleton_append, hquote, hquote]
      have hstep : ∀ text, parseFrom true current (Csv.quote :: Csv.quote :: text) =
          parseFrom true (current ++ [Csv.quote]) text := by
        intro text
        simp [parseFrom]
      rw [hstep, ih]
      simp
    · rw [if_neg hu, List.singleton_append]
      by_cases hlf : u = Csv.lf
      · subst hlf
        rw [lineHead_lf]
        simp [parseFrom]
      · by_cases hpair : u = Csv.cr ∧ value.head? = some Csv.lf
        · -- The carriage return in front of the line feed goes with it.
          obtain ⟨rfl, hhead⟩ := hpair
          obtain ⟨value, rfl⟩ : ∃ text, value = Csv.lf :: text := by
            cases value with
            | nil => simp at hhead
            | cons v text => exact ⟨text, by simpa using hhead⟩
          have hblank : Blank [Csv.cr] := by simp [Blank, Canonical.isWhiteSpace]
          have htaken : (Csv.cr :: Csv.lf :: value).takeWhile (· ≠ Csv.lf) = [Csv.cr] := by simp
          rw [Csv.doubled_cons, if_neg (by decide), List.singleton_append, List.cons_append,
            if_pos (by simp), htaken, trim_append_blank hblank]
          rfl
        · have hnext : u = Csv.cr →
              (doubled value ++ Csv.quote :: rest).head? ≠ some Csv.lf := by
            intro hcr
            cases value with
            | nil => simp [doubled]
            | cons v value =>
              have hv : v ≠ Csv.lf := fun hv => hpair ⟨hcr, by simp [hv]⟩
              rw [Csv.doubled_cons]
              split <;> simp [hv]
          have hstep : ∀ text, parseFrom true current (u :: text) =
              parseFrom true (current ++ [u]) text := by
            intro text
            cases text <;> simp [parseFrom, hu]
          rw [lineHead_cons hlf hnext, hstep, ih]
          simp [Ne.symm hlf, hlf]

/-- Outside quotes. -/
theorem parseFrom_unquoted (hvalue : ∀ u ∈ value, Csv.isSpecial u = false) (rest : Text) :
    parseFrom false current (lineHead (value ++ rest)) =
      parseFrom false (current ++ value) (lineHead rest) := by
  induction value generalizing current with
  | nil => simp
  | cons u value ih =>
    have hu := hvalue u List.mem_cons_self
    simp only [Csv.isSpecial, Bool.or_eq_false_iff, decide_eq_false_iff_not] at hu
    obtain ⟨⟨⟨hquote, hcomma⟩, hcr⟩, hlf⟩ := hu
    have hstep : ∀ text, parseFrom false current (u :: text) =
        parseFrom false (current ++ [u]) text := by
      intro text
      cases text <;> simp [parseFrom, hquote, hcomma]
    rw [List.cons_append, lineHead_plain hlf hcr, hstep,
      ih fun v hv => hvalue v (List.mem_cons_of_mem _ hv)]
    simp

/-- One field and what follows it. -/
theorem parseFrom_field (field : Field) (h : Ends (lineHead rest)) :
    parseFrom false [] (lineHead (field.text ++ rest)) =
      if Csv.lf ∈ field.value then [trim (field.value.takeWhile (· ≠ Csv.lf))]
      else parseFrom false field.value (lineHead rest) := by
  cases hquoted : field.quoted with
  | true =>
    have htext : field.text ++ rest =
        Csv.quote :: (doubled field.value ++ Csv.quote :: rest) := by
      simp [Field.text, hquoted]
    have hstep : ∀ text, parseFrom false [] (Csv.quote :: text) = parseFrom true [] text := by
      intro text
      cases text <;> simp [parseFrom]
    rw [htext, lineHead_plain (by decide) (by decide), hstep, parseFrom_quoted h]
    simp
  | false =>
    have hplain := field.plain hquoted
    have hlf : Csv.lf ∉ field.value := fun hmem => absurd (hplain _ hmem) (by decide)
    rw [Field.text_of_unquoted hquoted, parseFrom_unquoted hplain, if_neg hlf, List.nil_append]

/-- The loop over the first line of a record and what follows it. -/
theorem parseFrom_record (first : Field) (others : List Field) (htail : lineHead tail = []) :
    parseFrom false [] (lineHead (fieldsText (first :: others) ++ tail)) =
      (firstLine ((first :: others).map Field.value)).map trim := by
  induction others generalizing first with
  | nil =>
    rw [show fieldsText [first] = first.text from rfl, parseFrom_field first (by simp [Ends, htail]),
      htail]
    simp only [List.map_cons, List.map_nil, firstLine, parseFrom]
    split <;> rfl
  | cons next others ih =>
    have hcomma : lineHead (Csv.comma :: (fieldsText (next :: others) ++ tail)) =
        Csv.comma :: lineHead (fieldsText (next :: others) ++ tail) :=
      lineHead_plain (by decide) (by decide)
    rw [Csv.fieldsText_cons, List.append_assoc, List.cons_append,
      parseFrom_field first (by simp [Ends, hcomma]), hcomma]
    have hstep : ∀ text, parseFrom false first.value (Csv.comma :: text) =
        trim first.value :: parseFrom false [] text := by
      intro text
      cases text <;> simp [parseFrom]
    rw [hstep, ih]
    conv_rhs => rw [List.map_cons, firstLine]
    split <;> rfl

end Header

/-! ## The header among the records -/

section Records

variable {text : Text} {record header : Record} {records : List Record} {tail : Text}

theorem isBlank_iff : isBlank record = true ↔ Blank record.text := by
  rw [isBlank, decide_eq_true_iff, trim_eq_nil_iff]

theorem not_blank_of_quote (h : Csv.quote ∈ text) : ¬ Blank text :=
  fun hblank => absurd (hblank _ h) (by decide)

theorem unquoted_of_blank (h : Blank record.text) :
    ∀ field ∈ record.fields, field.quoted = false := by
  intro field hfield
  cases hquoted : field.quoted with
  | false => rfl
  | true =>
    have hmem := Csv.mem_fieldsText hfield (Csv.quote_mem_text hquoted)
    exact absurd h (not_blank_of_quote hmem)

/-- The first quote of a record stands on its first line. -/
theorem quote_mem_lineHead {fields : List Field} (h : ∃ field ∈ fields, field.quoted = true) :
    Csv.quote ∈ lineHead (fieldsText fields ++ tail) := by
  have hfield : ∀ (field : Field) (rest : Text), field.quoted = true →
      Csv.quote ∈ lineHead (field.text ++ rest) := by
    intro field rest hquoted
    have htext : field.text = Csv.quote :: (doubled field.value ++ [Csv.quote]) := by
      simp [Field.text, hquoted]
    rw [htext, List.cons_append, lineHead_plain (by decide) (by decide)]
    exact List.mem_cons_self
  induction fields with
  | nil => simp at h
  | cons first fields ih =>
    cases fields with
    | nil =>
      obtain ⟨field, hmem, hquoted⟩ := h
      rw [List.mem_singleton] at hmem
      exact hmem ▸ hfield field tail hquoted
    | cons next fields =>
      rw [Csv.fieldsText_cons, List.append_assoc, List.cons_append]
      cases hquoted : first.quoted with
      | true => exact hfield first _ hquoted
      | false =>
        obtain ⟨field, hmem, hother⟩ := h
        rcases List.mem_cons.mp hmem with rfl | hmem
        · simp [hquoted] at hother
        · have hclean : ∀ u ∈ first.text, u ≠ Csv.cr ∧ u ≠ Csv.lf := by
            intro u hu
            have hmem : u ∈ fieldsText [first] := hu
            exact Csv.not_break_of_unquoted (by simpa using hquoted) hmem
          rw [lineHead_line hclean, lineHead_plain (by decide) (by decide), List.mem_append,
            List.mem_cons]
          exact .inr (.inr (ih ⟨field, hmem, hother⟩))

theorem not_blank_lineHead (h : ¬ Blank header.text) (htail : lineHead tail = []) :
    ¬ Blank (lineHead (header.text ++ tail)) := by
  by_cases hquoted : ∃ field ∈ header.fields, field.quoted = true
  · exact not_blank_of_quote (quote_mem_lineHead hquoted)
  · have hplain : ∀ field ∈ header.fields, field.quoted = false := by
      intro field hfield
      cases hq : field.quoted with
      | false => rfl
      | true => exact absurd ⟨field, hfield, hq⟩ hquoted
    have hclean : ∀ u ∈ header.text, u ≠ Csv.cr ∧ u ≠ Csv.lf :=
      fun u hu => Csv.not_break_of_unquoted hplain hu
    rw [lineHead_line hclean, htail, List.append_nil]
    exact h

/-- A line that the search stops at. -/
def isVisible (line : Text) : Bool := (trim line).length > 0

theorem isVisible_eq (line : Text) : isVisible line = true ↔ ¬ Blank line := by
  rw [isVisible, decide_eq_true_iff, ← trim_eq_nil_iff, gt_iff_lt, List.length_pos_iff]

theorem find_of_visible (h : ¬ Blank header.text) (htail : lineHead tail = []) :
    (splitLines (header.text ++ tail)).find? isVisible = some (lineHead (header.text ++ tail)) := by
  have hhead := splitLines_head (header.text ++ tail)
  cases hlines : splitLines (header.text ++ tail) with
  | nil => simp [hlines] at hhead
  | cons line lines =>
    rw [hlines, List.head?_cons, Option.some.injEq] at hhead
    rw [hhead, List.find?_cons_of_pos ((isVisible_eq _).mpr (not_blank_lineHead h htail))]

theorem find_of_blank (h : Blank record.text) {lineBreak : Text} (hbreak : IsBreak lineBreak)
    (rest : Text) : (splitLines (record.text ++ lineBreak ++ rest)).find? isVisible =
      (splitLines rest).find? isVisible := by
  have hclean : ∀ u ∈ record.text, u ≠ Csv.cr ∧ u ≠ Csv.lf :=
    fun u hu => Csv.not_break_of_unquoted (unquoted_of_blank h) hu
  have hline : ¬ isVisible record.text = true := fun hv => (isVisible_eq _).mp hv h
  rw [splitLines_line hclean hbreak, List.find?_cons_of_neg hline]

theorem headerOf_blank (h : Blank record.text) :
    headerOf (record :: records) = headerOf records := by
  rw [headerOf, List.find?_cons_of_neg (by simp [isBlank_iff.mpr h])]
  rfl

theorem headerOf_visible (h : ¬ Blank record.text) :
    headerOf (record :: records) = some record := by
  have hblank : isBlank record ≠ true := fun hb => h (isBlank_iff.mp hb)
  rw [headerOf, List.find?_cons_of_pos (by simpa using hblank)]

/-- The line that the search stops at is the first one of the header record. -/
theorem find_header (h : IsFile text records) :
    (headerOf records = none ∧ (splitLines text).find? isVisible = none) ∨
      ∃ header tail, headerOf records = some header ∧ lineHead tail = [] ∧
        (splitLines text).find? isVisible = some (lineHead (header.text ++ tail)) := by
  induction h with
  | last record =>
    by_cases hblank : Blank record.text
    · have hclean : ∀ u ∈ record.text, u ≠ Csv.cr ∧ u ≠ Csv.lf :=
        fun u hu => Csv.not_break_of_unquoted (unquoted_of_blank hblank) hu
      have hline : ¬ isVisible record.text = true := fun hv => (isVisible_eq _).mp hv hblank
      refine .inl ⟨headerOf_blank hblank, ?_⟩
      rw [splitLines_last hclean, List.find?_cons_of_neg hline, List.find?_nil]
    · have hfind := @find_of_visible record [] hblank rfl
      rw [List.append_nil] at hfind
      exact .inr ⟨record, [], headerOf_visible hblank, rfl, by rw [hfind, List.append_nil]⟩
  | @ended record lineBreak hbreak =>
    by_cases hblank : Blank record.text
    · have hfind := find_of_blank hblank hbreak []
      rw [List.append_nil] at hfind
      exact .inl ⟨headerOf_blank hblank, by rw [hfind]; decide⟩
    · have htail : lineHead lineBreak = [] := by
        simpa using lineHead_break hbreak []
      exact .inr ⟨record, lineBreak, headerOf_visible hblank, htail,
        find_of_visible hblank htail⟩
  | @cons record lineBreak text records hbreak _ ih =>
    by_cases hblank : Blank record.text
    · rw [headerOf_blank hblank, find_of_blank hblank hbreak]
      exact ih
    · have htail := lineHead_break hbreak text
      refine .inr ⟨record, lineBreak ++ text, headerOf_visible hblank, htail, ?_⟩
      rw [List.append_assoc]
      exact find_of_visible hblank htail

end Records

/-! ## The fields read -/

section Values

variable {value first rest : Text} {values : List Text}

theorem named_cons_blank (h : Blank value) : named (value :: values) = named values := by
  simp [named, trim_blank h]

theorem named_cons_visible (h : ¬ Blank value) :
    named (value :: values) = trim value :: named values := by
  have hne : trim value ≠ [] := fun heq => h (trim_eq_nil_iff.mp heq)
  simp [named, List.length_pos_iff.mpr hne]

theorem named_eq_nil_iff : named values = [] ↔ ∀ value ∈ values, Blank value := by
  induction values with
  | nil => simp [named]
  | cons value values ih =>
    by_cases h : Blank value
    · rw [named_cons_blank h, ih]
      simp [h]
    · rw [named_cons_visible h]
      simp [h]

theorem blank_split : Blank (first ++ Csv.lf :: rest) ↔ Blank first ∧ Blank rest := by
  have hlf : Canonical.isWhiteSpace Csv.lf = true := by decide
  simp [Blank, or_imp, forall_and, hlf]

theorem takeWhile_split (h : Csv.lf ∉ first) :
    (first ++ Csv.lf :: rest).takeWhile (· ≠ Csv.lf) = first := by
  rw [List.takeWhile_append_of_pos fun u hu => by simpa using fun heq : u = Csv.lf => h (heq ▸ hu)]
  simp

/-- A value cut at its first line feed reads the same only if nothing visible goes. -/
theorem trim_split_iff (h : Csv.lf ∉ first) (hfirst : ¬ Blank first) :
    trim first = trim (first ++ Csv.lf :: rest) ↔ Blank rest := by
  constructor
  · intro heq
    by_contra hrest
    have hmem : Csv.lf ∈ trim (first ++ Csv.lf :: rest) := mem_trim_between hfirst hrest
    rw [← heq] at hmem
    exact h (mem_of_mem_trim hmem)
  · intro hrest
    have hblank : Blank (Csv.lf :: rest) := by
      intro u hu
      rcases List.mem_cons.mp hu with rfl | hu
      · decide
      · exact hrest u hu
    exact (trim_append_blank hblank).symm

theorem oneLine_cons_plain (h : Csv.lf ∉ value) : OneLine (value :: values) ↔ OneLine values := by
  constructor
  · intro hone before first rest after heq
    exact hone (value :: before) first rest after (by rw [heq, List.cons_append])
  · intro hone before first rest after heq
    cases before with
    | nil =>
      obtain ⟨hvalue, -⟩ := List.cons.inj heq
      exact absurd (by rw [hvalue]; simp) h
    | cons _ before =>
      obtain ⟨-, hvalues⟩ := List.cons.inj heq
      exact hone before first rest after hvalues

theorem oneLine_cons_split (h : Csv.lf ∉ first) :
    OneLine ((first ++ Csv.lf :: rest) :: values) ↔
      Blank rest ∧ ∀ later ∈ values, Blank later := by
  constructor
  · intro hone
    exact hone [] first rest values rfl
  · rintro ⟨hrest, hlater⟩ before first' rest' after heq
    cases before with
    | nil =>
      obtain ⟨hvalue, rfl⟩ := List.cons.inj heq
      refine ⟨?_, hlater⟩
      have hbreak : Blank (Csv.lf :: rest) := (@blank_split [] rest).mpr ⟨by simp [Blank], hrest⟩
      rcases List.append_eq_append_iff.mp hvalue with ⟨middle, -, htail⟩ | ⟨middle, hsame, htail⟩
      · intro u hu
        refine hbreak u ?_
        rw [htail]
        simp [hu]
      · cases middle with
        | nil =>
          obtain ⟨-, rfl⟩ := List.cons.inj htail
          exact hrest
        | cons u middle =>
          obtain ⟨rfl, -⟩ := List.cons.inj htail
          exact absurd (by rw [hsame]; simp) h
    | cons _ before =>
      obtain ⟨-, hvalues⟩ := List.cons.inj heq
      have hblank := hlater (first' ++ Csv.lf :: rest') (by rw [hvalues]; simp)
      refine ⟨(blank_split.mp hblank).2, fun later hmem => hlater later ?_⟩
      rw [hvalues]
      simp [hmem]

theorem oneLine_of_plain (h : ∀ value ∈ values, Csv.lf ∉ value) : OneLine values := by
  intro before first rest after heq
  exact absurd (by simp) (h (first ++ Csv.lf :: rest) (by rw [heq]; simp))

/-- The first line of the record has the fields of all of it only if it has them all. -/
theorem named_firstLine_iff : named (firstLine values) = named values ↔ OneLine values := by
  induction values with
  | nil =>
    refine iff_of_true rfl fun before first rest after heq => ?_
    simp at heq
  | cons value values ih =>
    by_cases hlf : Csv.lf ∈ value
    · obtain ⟨first, rest, rfl, hfirst⟩ : ∃ first rest, value = first ++ Csv.lf :: rest ∧
          Csv.lf ∉ first := by
        obtain ⟨first, rest, hvalue, hfirst⟩ := List.eq_append_cons_of_mem hlf
        exact ⟨first, rest, hvalue, hfirst⟩
      rw [firstLine, if_pos hlf, takeWhile_split hfirst, oneLine_cons_split hfirst,
        ← named_eq_nil_iff]
      by_cases hblank : Blank first
      · rw [named_cons_blank hblank]
        by_cases hrest : Blank rest
        · rw [named_cons_blank (blank_split.mpr ⟨hblank, hrest⟩), named_eq_nil_iff.mpr (by simp)]
          exact ⟨fun heq => ⟨hrest, heq.symm⟩, fun h => h.2.symm⟩
        · rw [named_cons_visible fun hboth => hrest (blank_split.mp hboth).2]
          simp [hrest, named]
      · rw [named_cons_visible hblank,
          named_cons_visible fun hboth => hblank (blank_split.mp hboth).1, List.cons.injEq,
          trim_split_iff hfirst hblank, named_eq_nil_iff.mpr (by simp)]
        exact and_congr_right fun _ => eq_comm
    · rw [firstLine, if_neg hlf, oneLine_cons_plain hlf, ← ih]
      by_cases hblank : Blank value
      · rw [named_cons_blank hblank, named_cons_blank hblank]
      · rw [named_cons_visible hblank, named_cons_visible hblank, List.cons.injEq]
        simp

end Values

/-! ## The file -/

section File

variable {text : Text} {records : List Record} {bytes : List UInt8} {contentType : Text}

/-- The header record's text ends before the first visible unit after a line feed. -/
def HeaderOnOneLine (records : List Record) : Prop :=
  ∀ header, headerOf records = some header → OneLine header.values

/-- The fields on the first line of the header record. -/
def lineFields (records : List Record) : List Text :=
  (headerOf records).elim [] fun header => named (firstLine header.values)

theorem isFile_stripBom (h : IsCsv text records) : IsFile (stripBom text) records := by
  obtain ⟨file, hfile, rfl | ⟨rfl, hbom⟩⟩ := h
  · exact hfile
  · rw [stripBom, if_neg hbom]
    exact hfile

theorem extractCsvFields_eq (h : IsFile text records) :
    (extractCsvFields text).toOption = observed (lineFields records) := by
  unfold extractCsvFields lineFields
  rcases find_header h with ⟨hnone, hfind⟩ | ⟨header, tail, hheader, htail, hfind⟩
  · rw [hnone, show (splitLines text).find? (fun line => decide ((trim line).length > 0)) = none
      from hfind]
    rfl
  · have hfields : (parseCsvHeader (lineHead (header.text ++ tail))).filter (·.length > 0) =
        named (firstLine header.values) := by
      rw [named, Record.values, Record.fields, ← parseFrom_record header.first header.others htail]
      rfl
    rw [hheader, show (splitLines text).find? (fun line => decide ((trim line).length > 0)) =
      some (lineHead (header.text ++ tail)) from hfind]
    dsimp only
    rw [hfields, Option.elim_some, observed]
    by_cases hnil : named (firstLine header.values) = []
    · rw [if_pos (by simp [hnil]), if_pos hnil]
      rfl
    · rw [if_neg (by simpa using hnil), if_neg hnil]
      rfl

theorem headerOf_empty (h : IsFile [] records) : headerOf records = none := by
  rcases find_header h with ⟨hnone, -⟩ | ⟨header, tail, -, -, hfind⟩
  · exact hnone
  · exact absurd hfind (by simp [splitLines, isVisible, trim])

theorem extractObservedFields_eq (hsize : bytes.length ≤ maxBulkExtractBytes)
    (hmedia : mediaOf contentType ∈ csvMedia) (hcsv : IsCsv (decodeUtf8 bytes) records) :
    (extractObservedFields bytes contentType).toOption = observed (lineFields records) := by
  have hfile := isFile_stripBom hcsv
  unfold extractObservedFields
  by_cases hempty : bytes.length = 0
  · obtain rfl := List.eq_nil_of_length_eq_zero hempty
    rw [if_pos hempty, lineFields, headerOf_empty hfile]
    rfl
  · rw [if_neg hempty, if_neg (by omega)]
    dsimp only
    rw [if_pos hmedia, extractCsvFields_eq hfile]

theorem lineFields_eq_iff : lineFields records = headerFields records ↔ HeaderOnOneLine records := by
  unfold lineFields headerFields HeaderOnOneLine
  cases headerOf records with
  | none => simp
  | some header => simpa using named_firstLine_iff

theorem observed_inj {fields others : List Text} :
    observed fields = observed others ↔ fields = others := by
  constructor
  · intro h
    unfold observed at h
    split_ifs at h with hfields hothers
    · rw [hfields, hothers]
    · exact Option.some.inj h
  · intro h
    rw [h]

/-- The fields read are those of the header record exactly where it is on one line but for white
space. Two such files with the same header fields give the same list. -/
theorem observed_fields (hsize : bytes.length ≤ maxBulkExtractBytes)
    (hmedia : mediaOf contentType ∈ csvMedia) (hcsv : IsCsv (decodeUtf8 bytes) records) :
    ((extractObservedFields bytes contentType).toOption = observed (headerFields records) ↔
      HeaderOnOneLine records) ∧
      ∀ bytes' contentType' records', bytes'.length ≤ maxBulkExtractBytes →
        mediaOf contentType' ∈ csvMedia → IsCsv (decodeUtf8 bytes') records' →
          HeaderOnOneLine records → HeaderOnOneLine records' →
            headerFields records = headerFields records' →
              (extractObservedFields bytes contentType).toOption =
                (extractObservedFields bytes' contentType').toOption := by
  constructor
  · rw [extractObservedFields_eq hsize hmedia hcsv, observed_inj, lineFields_eq_iff]
  · intro bytes' contentType' records' hsize' hmedia' hcsv' hline hline' hsame
    rw [extractObservedFields_eq hsize hmedia hcsv, extractObservedFields_eq hsize' hmedia' hcsv',
      lineFields_eq_iff.mpr hline, lineFields_eq_iff.mpr hline', hsame]

end File

/-- A record of a plain field and one between quotes. -/
def recordOf (first : Field) (value : Text) : Record := ⟨first, [⟨value, true, nofun⟩]⟩

theorem isCsv_encoded {record : Record} (htext : record.text.any Utf16.isSurrogate = false)
    (hhead : record.text.head? ≠ some byteOrderMark) :
    IsCsv (decodeUtf8 (Utf16.encodeUtf8 record.text)) [record] := by
  rw [Utf16.decodeUtf8_encodeUtf8 (Utf16.not_unpaired_of_any htext)]
  exact ⟨record.text, .last record, .inr ⟨rfl, hhead⟩⟩

/-- `id,"name, first"` -/
def plainHeader : Record := recordOf (Field.bare (units "id") (by decide)) (units "name, first")

theorem observed_fields_plain :
    (extractObservedFields (Utf16.encodeUtf8 plainHeader.text) (units "text/csv")).toOption =
      some [units "id", units "name, first"] := by
  have hcsv := @isCsv_encoded plainHeader (by decide) (by decide)
  have hsize : (Utf16.encodeUtf8 plainHeader.text).length ≤ maxBulkExtractBytes := by decide
  have hline : HeaderOnOneLine [plainHeader] := by
    intro header hheader
    obtain rfl : plainHeader = header := Option.some.inj hheader
    exact oneLine_of_plain (by decide)
  exact (observed_fields hsize (by decide) hcsv).1.mpr hline

/-- `"id","first` and `name"` on the next line -/
def brokenHeader : Record := recordOf ⟨units "id", true, nofun⟩ (units "first\nname")

/-- The name of the second field is lost past its line break. -/
theorem observed_fields_broken :
    IsCsv (decodeUtf8 (Utf16.encodeUtf8 brokenHeader.text)) [brokenHeader] ∧
      headerFields [brokenHeader] = [units "id", units "first\nname"] ∧
      (extractObservedFields (Utf16.encodeUtf8 brokenHeader.text) (units "text/csv")).toOption =
        some [units "id", units "first"] := by
  have hcsv := @isCsv_encoded brokenHeader (by decide) (by decide)
  have hsize : (Utf16.encodeUtf8 brokenHeader.text).length ≤ maxBulkExtractBytes := by decide
  refine ⟨hcsv, by decide, ?_⟩
  rw [extractObservedFields_eq hsize (by decide) hcsv]
  decide

end MpcRegistry.Sources

import MpcRegistry.Library.Utf16

/-!
# Comma-separated values

The grammar of RFC 4180, over any code units: records end with a line feed, or a carriage return
and one, and a field between quotes may hold commas, quotes written twice and line breaks.
-/
namespace MpcRegistry.Library
namespace Csv

abbrev quote : CodeUnit := 0x22

abbrev comma : CodeUnit := 0x2c

abbrev cr : CodeUnit := 0x0d

abbrev lf : CodeUnit := 0x0a

@[simp] theorem quote_ne_lf : quote ≠ lf := by decide

@[simp] theorem lf_ne_quote : lf ≠ quote := by decide

@[simp] theorem cr_ne_lf : cr ≠ lf := by decide

@[simp] theorem comma_ne_quote : comma ≠ quote := by decide

/-- A unit that ends a field, a record or the text of a field outside quotes. -/
def isSpecial (u : CodeUnit) : Bool := u = quote || u = comma || u = cr || u = lf

/-- A field's value, and whether it stands between quotes. -/
structure Field where
  value : Text
  quoted : Bool
  plain : quoted = false → ∀ u ∈ value, isSpecial u = false

/-- A field outside quotes. -/
def Field.bare (value : Text) (h : value.any isSpecial = false) : Field :=
  ⟨value, false, fun _ u hu => Bool.eq_false_iff.mpr (List.any_eq_false.mp h u hu)⟩

/-- Quotes are written twice. -/
def doubled (value : Text) : Text := value.flatMap fun u => if u = quote then [quote, quote] else [u]

def Field.text (field : Field) : Text :=
  if field.quoted then quote :: (doubled field.value ++ [quote]) else field.value

/-- One field or more. -/
structure Record where
  first : Field
  others : List Field

def Record.fields (record : Record) : List Field := record.first :: record.others

def Record.values (record : Record) : List Text := record.fields.map Field.value

def fieldsText : List Field → Text
  | [] => []
  | [field] => field.text
  | field :: next :: fields => field.text ++ comma :: fieldsText (next :: fields)

def Record.text (record : Record) : Text := fieldsText record.fields

/-- What a record ends with. -/
inductive IsBreak : Text → Prop
  | lf : IsBreak [Csv.lf]
  | crlf : IsBreak [Csv.cr, Csv.lf]

/-- Records, with or without a break after the last one. -/
inductive IsFile : Text → List Record → Prop
  | last (record : Record) : IsFile record.text [record]
  | ended (record : Record) {lineBreak : Text} : IsBreak lineBreak →
      IsFile (record.text ++ lineBreak) [record]
  | cons (record : Record) {lineBreak text : Text} {records : List Record} : IsBreak lineBreak →
      IsFile text records → IsFile (record.text ++ lineBreak ++ text) (record :: records)

section Fields

variable {field : Field} {fields : List Field} {u : CodeUnit}

theorem doubled_cons (u : CodeUnit) (value : Text) :
    doubled (u :: value) = (if u = quote then [quote, quote] else [u]) ++ doubled value := rfl

/-- A field of text without special units is written as it is. -/
theorem Field.text_of_unquoted (h : field.quoted = false) : field.text = field.value := by
  simp [Field.text, h]

theorem fieldsText_cons (field next : Field) (fields : List Field) :
    fieldsText (field :: next :: fields) = field.text ++ comma :: fieldsText (next :: fields) := rfl

theorem quote_mem_text (h : field.quoted = true) : quote ∈ field.text := by
  simp [Field.text, h]

theorem mem_fieldsText (hfield : field ∈ fields) (hu : u ∈ field.text) : u ∈ fieldsText fields := by
  induction fields with
  | nil => simp at hfield
  | cons first fields ih =>
    cases fields with
    | nil =>
      rw [List.mem_singleton] at hfield
      exact hfield ▸ hu
    | cons next fields =>
      rw [fieldsText_cons, List.mem_append, List.mem_cons]
      rcases List.mem_cons.mp hfield with rfl | hfield
      · exact .inl hu
      · exact .inr (.inr (ih hfield))

/-- Without quotes a record has no line break. -/
theorem not_break_of_unquoted (h : ∀ field ∈ fields, field.quoted = false)
    (hu : u ∈ fieldsText fields) : u ≠ cr ∧ u ≠ lf := by
  have hvalue : ∀ field ∈ fields, u ∈ field.text → u ≠ cr ∧ u ≠ lf := by
    intro field hfield hmem
    rw [Field.text_of_unquoted (h field hfield)] at hmem
    have hplain := field.plain (h field hfield) u hmem
    simp only [isSpecial, Bool.or_eq_false_iff, decide_eq_false_iff_not] at hplain
    exact ⟨hplain.1.2, hplain.2⟩
  induction fields with
  | nil => simp [fieldsText] at hu
  | cons first fields ih =>
    cases fields with
    | nil => exact hvalue first List.mem_cons_self hu
    | cons next fields =>
      rw [fieldsText_cons, List.mem_append, List.mem_cons] at hu
      rcases hu with hu | rfl | hu
      · exact hvalue first List.mem_cons_self hu
      · decide
      · exact ih (fun field hfield => h field (List.mem_cons_of_mem _ hfield)) hu
          fun field hfield => hvalue field (List.mem_cons_of_mem _ hfield)

end Fields

end Csv

end MpcRegistry.Library

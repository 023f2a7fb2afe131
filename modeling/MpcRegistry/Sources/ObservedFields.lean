import MpcRegistry.Cre.Protocol
import MpcRegistry.Ecma.BigInt
import MpcRegistry.Library.Csv
import MpcRegistry.Library.Utf8

/-!
# The fields observed in a file

Source: apps/api/src/services/source-verification.ts, the bulk export. `toLowerCase` folds ASCII:
no other letter folds to one of the media types.
-/
namespace MpcRegistry.Sources
open Library Ecma
open Cre (toLowerCase)
open Utf16 (decodeUtf8)

def maxBulkExtractBytes : Nat := 32 * 1024 * 1024

structure VerificationFailure where
  reason : Text
  nextAction : Text
  deriving DecidableEq, Repr

abbrev FieldExtraction := Except VerificationFailure (List Text)

def byteOrderMark : CodeUnit := 0xfeff

def stripBom (value : Text) : Text :=
  if value.head? = some byteOrderMark then value.drop 1 else value

/-- The loop of `parseCsvHeader`, with the state it carries. -/
def parseFrom (quoted : Bool) (current : Text) : Text → List Text
  | [] => [trim current]
  | char :: rest =>
    if quoted then
      if char = Csv.quote then
        match rest with
        | next :: rest' =>
          if next = Csv.quote then parseFrom true (current ++ [Csv.quote]) rest'
          else parseFrom false current (next :: rest')
        | [] => parseFrom false current []
      else parseFrom true (current ++ [char]) rest
    else if char = Csv.quote then parseFrom true current rest
    else if char = Csv.comma then trim current :: parseFrom false [] rest
    else parseFrom false (current ++ [char]) rest

def parseCsvHeader (line : Text) : List Text := parseFrom false [] line

/-- `text.split(/\r?\n/)` -/
def splitLines : Text → List Text
  | [] => [[]]
  | [u] => if u = Csv.lf then [[], []] else [[u]]
  | u :: v :: rest =>
    if u = Csv.cr && v = Csv.lf then [] :: splitLines rest
    else if u = Csv.lf then [] :: splitLines (v :: rest)
    else (splitLines (v :: rest)).modifyHead (u :: ·)

/-- A canonical array index. -/
def arrayIndex (key : Text) : Option Nat :=
  if key.all Json.isDigit && (key = [0x30] || key.head?.any (· ≠ 0x30)) then
    let value := key.foldl (fun value digit => value * 10 + (digit.val - 0x30)) 0
    if value < 2 ^ 32 - 1 then some value else none
  else none

/-- `Object.keys`: array indices first, in ascending order. -/
def objectKeys (members : List (Text × Json)) : List Text :=
  let keys := members.map Prod.fst
  let isIndex (key : Text) : Bool := (arrayIndex key).isSome
  (keys.filter isIndex).insertionSort (fun a b => (arrayIndex a).getD 0 ≤ (arrayIndex b).getD 0) ++
    keys.filter (!isIndex ·)

def csvMedia : List Text :=
  [units "text/csv", units "text/plain", units "application/vnd.ms-excel"]

/-- `contentType.split(";")[0].trim().toLowerCase()` -/
def mediaOf (contentType : Text) : Text :=
  toLowerCase (trim (contentType.takeWhile (· ≠ 0x3b)))

def extractCsvFields (text : Text) : FieldExtraction :=
  match (splitLines text).find? (fun line => (trim line).length > 0) with
  | none =>
    .error ⟨units "No header line", units "Upload a file with column names on the first line"⟩
  | some header =>
    let fields := (parseCsvHeader header).filter (·.length > 0)
    if fields.length = 0 then
      .error ⟨units "Could not read column names from the header",
        units "Upload a file with column names on the first line"⟩
    else .ok fields

def extractJsonFields (text : Text) : FieldExtraction :=
  match Json.parse text with
  | none =>
    .error ⟨units "Not readable as JSON",
      units "Check that this is the file provided by the source"⟩
  | some parsed =>
    let record := match parsed with
      | .arr items => items.head?
      | value => some value
    match record with
    | some (.obj members) => .ok (objectKeys members)
    | _ =>
      .error ⟨units "Could not find a record object",
        units "Upload a file shaped as an array of records or an object"⟩

def extractObservedFields (bytes : List UInt8) (contentType : Text) : FieldExtraction :=
  if bytes.length = 0 then
    .error ⟨units "The schema cannot be read from an empty file",
      units "Re-upload the file provided by the source"⟩
  else if bytes.length > maxBulkExtractBytes then
    .error ⟨units "The file exceeds the cap for reading the schema (" ++
        decimalText maxBulkExtractBytes ++ units " bytes)",
      units "Upload it split into partial files that include the header, " ++
        units "or use the manual check path"⟩
  else
    let text := stripBom (decodeUtf8 bytes)
    let media := mediaOf contentType
    if media ∈ csvMedia then extractCsvFields text
    else if media = units "application/json" then extractJsonFields text
    else
      .error ⟨units "The schema cannot be read from this format: " ++ media,
        units "Upload the original received as CSV or JSON, or use the manual check path"⟩

end MpcRegistry.Sources

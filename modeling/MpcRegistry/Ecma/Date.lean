import MpcRegistry.Canonical.Jcs

/-!
# Dates as texts

`Date.prototype.toISOString` as ECMAScript defines it, of milliseconds since 1970 in the
proleptic Gregorian calendar. Years are counted from March, so that the leap day ends one.
-/
namespace MpcRegistry.Ecma
open Library Canonical

/-- Year, month and day of a day counted from 1970-01-01. -/
def civilDate (days : Int) : Int × Nat × Nat :=
  let era := (days + 719468) / 146097 -- of 400 years
  let dayOfEra := ((days + 719468) % 146097).toNat
  let yearOfEra := (dayOfEra - dayOfEra / 1460 + dayOfEra / 36524 - dayOfEra / 146096) / 365
  let dayOfYear := dayOfEra - (365 * yearOfEra + yearOfEra / 4 - yearOfEra / 100)
  let fromMarch := (5 * dayOfYear + 2) / 153
  let day := dayOfYear - (153 * fromMarch + 2) / 5 + 1
  let month := if fromMarch < 10 then fromMarch + 3 else fromMarch - 9
  (400 * era + yearOfEra + if month ≤ 2 then 1 else 0, month, day)

def padded (width value : Nat) : Text := (decimal value).leftpad width 0x30

/-- Four digits, or a sign and six. -/
def yearText (year : Int) : Text :=
  if 0 ≤ year ∧ year ≤ 9999 then padded 4 year.toNat
  else (if year < 0 then units "-" else units "+") ++ padded 6 year.natAbs

def toISOString (time : Int) : Text :=
  let (year, month, day) := civilDate (time / 86400000)
  let ofDay := (time % 86400000).toNat
  yearText year ++ units "-" ++ padded 2 month ++ units "-" ++ padded 2 day ++ units "T" ++
    padded 2 (ofDay / 3600000) ++ units ":" ++ padded 2 (ofDay / 60000 % 60) ++ units ":" ++
    padded 2 (ofDay / 1000 % 60) ++ units "." ++ padded 3 (ofDay % 1000) ++ units "Z"

example : toISOString 1709210096007 = units "2024-02-29T12:34:56.007Z" ∧
    toISOString (-62198755200001) = units "-000002-12-31T23:59:59.999Z" := by
  decide +kernel

end MpcRegistry.Ecma

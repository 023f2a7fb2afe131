import MpcRegistry.Cre.Protocol
import MpcRegistry.Ecma.BigInt
import MpcRegistry.Library.BitPrefix

/-!
# Addresses as bytes, and ranges of them

Source: packages/config/src/ip.ts. `isIP` of node:net is a parameter.
-/
namespace MpcRegistry.Config
open Library
open Cre (toLowerCase)

scoped instance neZero_octets : NeZero 256 := ⟨by decide⟩

def isDigit (u : CodeUnit) : Bool := 0x30 ≤ u && u ≤ 0x39

/-- `[0-9a-f]` -/
def isHexDigit (u : CodeUnit) : Bool := isDigit u || (0x61 ≤ u && u ≤ 0x66)

/-- `/^(0|[1-9][0-9]{0,2})$/` -/
def isDecimal (part : Text) : Bool :=
  match part with
  | [] => false
  | first :: rest =>
    part = [0x30] || (isDigit first && first ≠ 0x30 && rest.length ≤ 2 && rest.all isDigit)

/-- `Number`, of decimal digits -/
def decimalValue (digits : Text) : Nat :=
  digits.foldl (fun value digit => value * 10 + (digit.val - 0x30)) 0

/-- `Number.parseInt` with the radix 16, of lower-case digits -/
def hexDigits (digits : Text) : Nat :=
  digits.foldl (fun value digit =>
    value * 16 + if isDigit digit then digit.val - 0x30 else digit.val - 0x57) 0

/-- The body of the loop of `ipv4ToBytes`. -/
def partToByte (part : Text) : Option Octet :=
  if isDecimal part = false then none
  else
    let value := decimalValue part
    if value > 255 then none else some (Fin.ofNat 256 value)

def ipv4ToBytes (address : Text) : Option (List Octet) :=
  let parts := address.splitOn 0x2e
  if parts.length ≠ 4 then none else parts.mapM partToByte

/-- The loop over the items of a half. -/
def itemsToBytes : List Text → Option (List Octet)
  | [] => some []
  | item :: rest =>
    if 0x2e ∈ item then if rest ≠ [] then none else ipv4ToBytes item
    else if 1 ≤ item.length && item.length ≤ 4 && item.all isHexDigit then
      let word := hexDigits item
      (itemsToBytes rest).map ([Fin.ofNat 256 (word >>> 8), Fin.ofNat 256 (word &&& 0xff)] ++ ·)
    else none

/-- `toBytes` -/
def halfToBytes (segment : Text) : Option (List Octet) :=
  if segment = [] then some [] else itemsToBytes (segment.splitOn 0x3a)

/-- `value.split("::")` -/
def splitPairs : Text → List Text
  | [] => [[]]
  | [u] => [[u]]
  | u :: v :: rest =>
    if u = 0x3a && v = 0x3a then [] :: splitPairs rest
    else (splitPairs (v :: rest)).modifyHead (u :: ·)

def ipv6ToBytes (address : Text) : Option (List Octet) :=
  let value := toLowerCase address
  if 0x25 ∈ value then none
  else
    match splitPairs value with
    | [whole] => (halfToBytes whole).filter (·.length = 16)
    | [first, second] =>
      (halfToBytes first).bind fun head =>
        (halfToBytes second).bind fun tail =>
          if head.length + tail.length ≥ 16 then none
          else some (head ++ List.replicate (16 - tail.length - head.length) 0 ++ tail)
    | _ => none

section Ranges

variable (isIP : Text → Nat)

def ipToBytes (address : Text) : Option (List Octet) :=
  if isIP address = 4 then
    (ipv4ToBytes address).map (List.replicate 10 0 ++ [0xff, 0xff] ++ ·)
  else if isIP address = 6 then ipv6ToBytes address
  else none

structure CidrRange where
  bytes : List Octet
  prefixBits : Nat
  deriving DecidableEq, Repr

def parseCidr (value : Text) : Option CidrRange :=
  let trimmed := Ecma.trim value
  if trimmed = [] then none
  else
    match trimmed.splitOn 0x2f with
    | [] => none
    | address :: rest =>
      (ipToBytes isIP address).bind fun bytes =>
        match rest.head? with
        | none => some ⟨bytes, 128⟩
        | some bits =>
          if (1 ≤ bits.length && bits.length ≤ 3 && bits.all isDigit) = false then none
          else
            let declared := decimalValue bits
            if declared > (if isIP address = 4 then 32 else 128) then none
            else some ⟨bytes, if isIP address = 4 then declared + 96 else declared⟩

def matchesCidr (address : Text) (range : CidrRange) : Bool :=
  match ipToBytes isIP address with
  | none => false
  | some bytes =>
    let fullBytes := range.prefixBits >>> 3
    let remainingBits := range.prefixBits &&& 7
    (List.range fullBytes).all (fun index => bytes[index]? = range.bytes[index]?) &&
      (remainingBits = 0 ||
        (bytes.getD fullBytes 0).val &&& (0xff <<< (8 - remainingBits)) =
          (range.bytes.getD fullBytes 0).val &&& (0xff <<< (8 - remainingBits)))

end Ranges

end MpcRegistry.Config

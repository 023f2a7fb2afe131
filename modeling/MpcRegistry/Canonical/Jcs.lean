import MpcRegistry.Library.Json
import MpcRegistry.Library.JsonParser

/-!
# Canonical serialization

Source: packages/canonical/src/errors.ts:7-30, packages/canonical/src/jcs.ts:17-196.
A string is its UTF-16 code units. An object or array carries the identity the
`seen` set is about, over the tree its reads return; a set that is restored
before each return is passed down as a value. Object keys come in no fixed order.
-/
namespace MpcRegistry.Canonical
open Library Library.Utf16

inductive CanonicalErrorCode where
  | canonicalNumberForbidden | canonicalUnsupportedType | canonicalCircular
  | canonicalLoneSurrogate | canonicalNonPlainObject | merkleEmptyBatch | merkleDuplicateLeaf
  | merkleLeafNotFound | leafInvalidField
  deriving DecidableEq, Repr

/-- The message already names the path, when there is one. -/
structure CanonicalError where
  code : CanonicalErrorCode
  message : Text
  path : Text
  deriving DecidableEq, Repr

/-- A `CanonicalError`, a plain `Error`, or the one a typed array throws itself. -/
inductive Thrown where
  | canonicalError (error : CanonicalError)
  | error (message : Text)
  | rangeError
  deriving DecidableEq, Repr

def throwCanonical {α : Type} (code : CanonicalErrorCode) (message path : Text) :
    Except Thrown α :=
  .error (.canonicalError {
    code
    message := if path = [] then message else message ++ units " (at " ++ path ++ units ")"
    path })

inductive UnsupportedType where
  | undefined | function | symbol
  deriving DecidableEq, Repr

def UnsupportedType.typeof : UnsupportedType → Text
  | .undefined => units "undefined"
  | .function => units "function"
  | .symbol => units "symbol"

/-- What `serializeValue` tells apart. `plain` says that the prototype is
`Object.prototype` or null. -/
inductive JsValue where
  | null
  | bool (value : Bool)
  | str (value : Text)
  | number
  | bigint
  | unsupported (type : UnsupportedType)
  | array (ref : Nat) (items : List JsValue)
  | object (ref : Nat) (plain : Bool) (members : List (Text × JsValue))

/-- What the `switch` appends for a code unit outside surrogates. -/
def escapeUnit (code : CodeUnit) : Text :=
  match code.val with
  | 0x08 => units "\\b"
  | 0x09 => units "\\t"
  | 0x0a => units "\\n"
  | 0x0c => units "\\f"
  | 0x0d => units "\\r"
  | 0x22 => units "\\\""
  | 0x5c => units "\\\\"
  | _ =>
    if code.val < 0x20 then
      units "\\u" ++ ((Nat.toDigits 16 code.val).leftpad 4 '0').map charUnit
    else [code]

/-- The loop over the string, from one position to the end. -/
def serializeUnits : Text → Text → Except Thrown Text
  | [], _ => .ok []
  | code :: rest, path =>
    if IsHigh code then
      match rest with
      | [] => -- past the end `charCodeAt` is NaN
        throwCanonical .canonicalLoneSurrogate (units "String contains an unpaired surrogate") path
      | next :: rest =>
        if next.val < 0xdc00 ∨ next.val > 0xdfff then
          throwCanonical .canonicalLoneSurrogate (units "String contains an unpaired surrogate")
            path
        else do
          let out ← serializeUnits rest path
          .ok (code :: next :: out)
    else if IsLow code then
      throwCanonical .canonicalLoneSurrogate (units "String contains an unpaired low surrogate")
        path
    else do
      let out ← serializeUnits rest path
      .ok (escapeUnit code ++ out)

def serializeString (value path : Text) : Except Thrown Text := do
  let out ← serializeUnits value path
  .ok (Json.quote :: (out ++ [Json.quote]))

/-- Lists of code units are ordered as `<` orders the strings. -/
def sortKeys (keys : List Text) : List Text := keys.insertionSort (· ≤ ·)

/-- JSON Pointer escaping: `~` first, then `/`. -/
def pointerKey (key : Text) : Text :=
  (key.flatMap fun u => if u = 0x7e then units "~0" else [u]).flatMap fun u =>
    if u = 0x2f then units "~1" else [u]

def decimal (n : Nat) : Text := (Nat.toDigits 10 n).map charUnit

mutual

def serializeValue : JsValue → Text → List Nat → Except Thrown Text
  | .null, _, _ => .ok (units "null")
  | .str value, path, _ => serializeString value path
  | .bool value, _, _ => .ok (if value then units "true" else units "false")
  | .number, path, _ =>
    throwCanonical .canonicalNumberForbidden
      (units "JSON numbers are not allowed in a canonical payload. " ++
        units "Use a decimal string and a unit field") path
  | .bigint, path, _ =>
    throwCanonical .canonicalNumberForbidden
      (units "bigint is not allowed in a canonical payload. Use a decimal string") path
  | .unsupported type, path, _ =>
    throwCanonical .canonicalUnsupportedType
      (type.typeof ++ units " is not allowed in a canonical payload") path
  | .array ref items, path, seen =>
    if ref ∈ seen then
      throwCanonical .canonicalCircular (units "Circular references cannot be serialized") path
    else do
      let texts ← serializeItems items path 0 (ref :: seen)
      .ok (Json.openBracket :: (Json.join Json.comma texts ++ [Json.closeBracket]))
  | .object ref plain members, path, seen =>
    if ref ∈ seen then
      throwCanonical .canonicalCircular (units "Circular references cannot be serialized") path
    else if !plain then
      throwCanonical .canonicalNonPlainObject
        (units "Date, Map, Set, and class instances must be converted to plain structures " ++
          units "before serialization") path
    else do
      -- each value's outcome is at hand; the sorted keys read them in turn
      let encoded := serializeMembers members path (ref :: seen)
      let entries ← (sortKeys (members.map Prod.fst)).mapM fun key => do
        let encodedKey ← serializeString key path
        let encodedValue ← (encoded.lookup key).getD (throwCanonical .canonicalUnsupportedType
          (units "undefined is not allowed in a canonical payload")
          (path ++ units "/" ++ pointerKey key))
        .ok (encodedKey ++ Json.colon :: encodedValue)
      .ok (Json.openBrace :: (Json.join Json.comma entries ++ [Json.closeBrace]))

/-- The `map` over an array, from one index on. -/
def serializeItems : List JsValue → Text → Nat → List Nat → Except Thrown (List Text)
  | [], _, _, _ => .ok []
  | item :: items, path, index, seen => do
    let text ← serializeValue item (path ++ units "/" ++ decimal index) seen
    let texts ← serializeItems items path (index + 1) seen
    .ok (text :: texts)

/-- What `serializeValue(record[key], …)` does under each key of the record. -/
def serializeMembers : List (Text × JsValue) → Text → List Nat →
    List (Text × Except Thrown Text)
  | [], _, _ => []
  | (key, value) :: members, path, seen =>
    (key, serializeValue value (path ++ units "/" ++ pointerKey key) seen) ::
      serializeMembers members path seen

end

/-- A finite value of the exported type `CanonicalValue` below the objects
`above`: no refused kind, unique keys, and no object inside itself. Two places
may share one object. -/
inductive IsCanonical : List Nat → JsValue → Prop where
  | null (above : List Nat) : IsCanonical above .null
  | bool (above : List Nat) (value : Bool) : IsCanonical above (.bool value)
  | str (above : List Nat) (value : Text) : IsCanonical above (.str value)
  | array (above : List Nat) (ref : Nat) (items : List JsValue) (fresh : ref ∉ above)
      (each : ∀ item ∈ items, IsCanonical (ref :: above) item) :
      IsCanonical above (.array ref items)
  | object (above : List Nat) (ref : Nat) (members : List (Text × JsValue)) (fresh : ref ∉ above)
      (nodup : (members.map Prod.fst).Nodup)
      (each : ∀ member ∈ members, IsCanonical (ref :: above) member.2) :
      IsCanonical above (.object ref true members)

structure CanonicalValue where
  value : JsValue
  canonical : IsCanonical [] value

/-- No whitespace, sorted keys, no numbers. -/
def canonicalize (value : CanonicalValue) : Except Thrown Text :=
  serializeValue value.value [] []

example : serializeValue (.object 0 true [(units "b", .array 1 [.null, .str [0x01]]),
      (units "a", .object 1 true [])]) [] [] =
    .ok (units "\x7b\"a\":\x7b\x7d,\"b\":[null,\"\\u0001\"]\x7d") := by
  decide

example : serializeValue (.object 0 true [(units "self", .object 0 true [])]) [] [] =
    throwCanonical .canonicalCircular (units "Circular references cannot be serialized")
      (units "/self") := by
  decide

def canonicalBytes (value : CanonicalValue) : Except Thrown (List UInt8) := do
  let text ← canonicalize value
  .ok (encodeUtf8 text)

end MpcRegistry.Canonical

import MpcRegistry.Ecma.BigInt
import MpcRegistry.Library.Occurrences

/-!
# The text a migration's checksum is taken of

Source: packages/db/src/migrate.ts:58-162. A position in `sql` is the text before it and the text
from it on; an index counts from the position a function starts at.
-/
namespace MpcRegistry.Migrations
open Library Canonical

/-- `[A-Za-z0-9_]`, which is `\w` -/
def isWordUnit (u : CodeUnit) : Bool :=
  (0x41 ≤ u && u ≤ 0x5a) || (0x61 ≤ u && u ≤ 0x7a) || (0x30 ≤ u && u ≤ 0x39) || u = 0x5f

/-- `[A-Za-z_]` -/
def isWordStart (u : CodeUnit) : Bool :=
  (0x41 ≤ u && u ≤ 0x5a) || (0x61 ≤ u && u ≤ 0x7a) || u = 0x5f

/-- `^\$(?:…)?\$`, of a unit that may start the name and units that may go on with it -/
def tagMatch (isStart isPart : CodeUnit → Bool) : Text → Option Text
  | 0x24 :: rest =>
    let name := rest.takeWhile isPart
    if (rest.drop name.length).head? = some 0x24 && name.head?.all isStart then
      some (0x24 :: (name ++ [0x24]))
    else none
  | _ => none

def dollarTagAt (before rest : Text) : Option Text :=
  if before.getLast?.any isWordUnit then none else tagMatch isWordStart isWordUnit (rest.take 64)

/-- `backslashEscapes`, of a string that starts behind `before` -/
def backslashEscapes (before : Text) : Bool :=
  before.getLast?.any (fun u => u = 0x65 || u = 0x45) &&
    !before.dropLast.getLast?.any isWordUnit

/-- The loop of `endOfQuoted`: how much there is up to the end of the quoted token. -/
def quotedRest (escapes : Bool) (quote : CodeUnit) : Text → Nat
  | [] => 0
  | [_] => 1
  | ch :: next :: rest =>
    if escapes && ch = 0x5c then 2 + quotedRest escapes quote rest
    else if ch = quote then
      if next = quote then 2 + quotedRest escapes quote rest else 1
    else 1 + quotedRest escapes quote (next :: rest)

def endOfQuoted (before : Text) (quote : CodeUnit) (rest : Text) : Nat :=
  1 + quotedRest (quote = 0x27 && backslashEscapes before) quote rest

/-- The loop of `endOfBlockComment`. -/
def commentRest : Nat → Text → Nat
  | _, [] => 0
  | _, [_] => 1
  | depth, ch :: next :: rest =>
    if ch = 0x2f && next = 0x2a then 2 + commentRest (depth + 1) rest
    else if ch = 0x2a && next = 0x2f then
      if depth - 1 = 0 then 2 else 2 + commentRest (depth - 1) rest
    else 1 + commentRest depth (next :: rest)

def endOfBlockComment (rest : Text) : Nat := commentRest 0 rest

/-- `AS` or `DO` in any case -/
def isOpenerWord (first second : CodeUnit) : Bool :=
  ((first = 0x41 || first = 0x61) && (second = 0x53 || second = 0x73)) ||
    ((first = 0x44 || first = 0x64) && (second = 0x4f || second = 0x6f))

/-- `/(?:^|[^A-Za-z0-9_$])(?:AS|DO) ?$/i` -/
def isFunctionBodyOpener (out : Text) : Bool :=
  let words := if out.getLast? = some 0x20 then out.dropLast else out
  match words.reverse with
  | second :: first :: before =>
    isOpenerWord first second && before.head?.all fun u => !isWordUnit u && u ≠ 0x24
  | _ => false

/-- `space()` -/
def space (out : Text) : Text := if out.getLast? = some 0x20 then out else out ++ [0x20]

structure Quoted where
  text : Text
  stop : Nat

def normalizeDollarQuoted (normalizeCode : Text → Text) (text tag out : Text) : Quoted :=
  let close := (indexOf tag (text.drop tag.length)).map (tag.length + ·)
  let inner := (text.take (close.getD text.length)).drop tag.length
  let stop := (close.map (· + tag.length)).getD text.length
  { text :=
      if isFunctionBodyOpener out then
        tag ++ normalizeCode inner ++ (if close.isNone then [] else tag)
      else text.take stop
    stop }

/-- The loop of `normalizeCode`, for at most so many rounds. -/
def normalizeFrom : Nat → Text → Text → Text → Text
  | 0, _, _, out => out
  | _ + 1, _, [], out => out
  | rounds + 1, before, ch :: rest, out =>
    let text := ch :: rest
    let go (length : Nat) (out : Text) :=
      normalizeFrom rounds (before ++ text.take length) (text.drop length) out
    match if ch = 0x24 then dollarTagAt before text else none with
    | some tag =>
      let quoted := normalizeDollarQuoted (fun inner => normalizeFrom rounds [] inner []) text tag out
      go quoted.stop (out ++ quoted.text)
    | none =>
      if ch = 0x27 || ch = 0x22 then
        let stop := endOfQuoted before ch rest
        go stop (out ++ text.take stop)
      else if ch = 0x2d && rest.head? = some 0x2d then
        go ((indexOf [0x0a] text).getD text.length) (space out)
      else if ch = 0x2f && rest.head? = some 0x2a then go (endOfBlockComment text) (space out)
      else if isWhiteSpace ch then go 1 (space out)
      else go 1 (out ++ [ch])

def normalizeCode (sql : Text) : Text := normalizeFrom sql.length [] sql []

def normalizeMigrationSql (sql : Text) : Text := Ecma.trim (normalizeCode sql)

end MpcRegistry.Migrations

import MpcRegistry.Library.Ranges
import MpcRegistry.Library.Utf16

/-!
# Redaction of configured URLs

Source: apps/anchor-worker/src/redact-urls.ts:15, 51-57, 70-170, 204-333, up to the generic URL
masking. Parsing a URL, the percent codec, `toLowerCase` and the case folding of a regular
expression are the platform's.
-/
namespace MpcRegistry.Worker.RedactUrls
open Library Utf16

def configuredPlaceholder : Text := units "[rpc-url]"

def maxInput : Nat := 8192

def minPart : Nat := 4

structure Url where
  host : Text
  hostname : Text
  pathname : Text
  search : Text
  username : Text
  password : Text
  deriving DecidableEq, Repr

/-- A function that throws gives none. -/
structure Platform where
  /-- `new URL(value)` -/
  parseUrl : Text → Option Url
  decodeURIComponent : Text → Option Text
  encodeURIComponent : Text → Option Text
  toLowerCase : Text → Text
  /-- `Canonicalize` under the flag `i` without `u` -/
  canonicalize : CodeUnit → CodeUnit

/-! ## Strings -/

/-- `text.split(separator)`, of a single code unit -/
def split (separator : CodeUnit) : Text → List Text
  | [] => [[]]
  | u :: rest =>
    if u = separator then [] :: split separator rest
    else
      match split separator rest with
      | [] => [[u]]
      | first :: others => (u :: first) :: others

/-- `text.indexOf(unit)`; none is -1. -/
def indexOf (unit : CodeUnit) (text : Text) : Option Nat := text.findIdx? (· = unit)

/-- `text.replaceAll("/", "\\/")` -/
def escapeSlashes (text : Text) : Text := text.flatMap fun u => if u = 0x2f then [0x5c, 0x2f] else [u]

/-- `text.slice(start, stop)`, of positions -/
def slice (text : Text) (start stop : Nat) : Text := (text.drop start).take (stop - start)

/-! ## The parts of a configured URL -/

def safeDecode (platform : Platform) (value : Text) : Text :=
  (platform.decodeURIComponent value).getD value

/-- `[part, part.replaceAll("/", "\\/")]` -/
def withEscapedSlashes (part : Text) : List Text := [part, escapeSlashes part]

def secretParts (platform : Platform) (value : Text) : List Text :=
  match platform.parseUrl value with
  | none => []
  | some url =>
    let path := (if url.pathname = units "/" then [] else url.pathname) ++ url.search
    let trimmedPath :=
      if 1 < url.pathname.length ∧ url.pathname.getLast? = some 0x2f then
        url.pathname.dropLast ++ url.search
      else []
    let pathSegments := (split 0x2f url.pathname).filter (· ≠ [])
    let queryValues := (split 0x26 (url.search.drop 1)).map fun pair =>
      pair.drop ((indexOf 0x3d pair).elim 0 (· + 1))
    let segments := (pathSegments ++ queryValues).flatMap fun segment =>
      [segment, safeDecode platform segment]
    ([url.host, url.hostname, path, trimmedPath, url.username, url.password,
      safeDecode platform url.username, safeDecode platform url.password] ++ segments).flatMap
        withEscapedSlashes

/-- The pairs of a query that name a value. -/
def namedValues (platform : Platform) (search : Text) : List Text :=
  ((split 0x26 (search.drop 1)).filter fun pair =>
    (indexOf 0x3d pair).any (0 < ·) && pair.getLast? ≠ some 0x3d).flatMap fun pair =>
      let at' := (indexOf 0x3d pair).getD 0
      [pair, safeDecode platform (pair.take at') ++ units "=" ++
        safeDecode platform (pair.drop (at' + 1))]

def contextParts (platform : Platform) (value : Text) : List Text :=
  match platform.parseUrl value with
  | none => []
  | some url =>
    let userinfo :=
      if url.password = [] then []
      else [url.username, safeDecode platform url.username].flatMap fun user =>
        [url.password, safeDecode platform url.password].flatMap fun password =>
          [user ++ units ":" ++ password ++ units "@", units ":" ++ password ++ units "@"]
    (namedValues platform url.search ++ userinfo).flatMap withEscapedSlashes

def subdomainLabels (platform : Platform) (value : Text) : List Text :=
  match platform.parseUrl value with
  | none => []
  | some url =>
    let labels := split 0x2e url.hostname
    if 2 < labels.length then
      (labels.take (labels.length - 2)).filter fun label => minPart ≤ label.length
    else []

/-! ## Patterns -/

/-- `.*+?^${}()|[]\` -/
def syntaxUnits : Text :=
  [0x2e, 0x2a, 0x2b, 0x3f, 0x5e, 0x24, 0x7b, 0x7d, 0x28, 0x29, 0x7c, 0x5b, 0x5d, 0x5c]

def escapeRegExp (value : Text) : Text :=
  value.flatMap fun u => if u ∈ syntaxUnits then [0x5c, u] else [u]

/-- What a pattern of plain characters and escaped ones stands for. -/
def readPattern : Text → Text
  | [] => []
  | [u] => [u]
  | u :: v :: rest => if u = 0x5c then v :: readPattern rest else u :: readPattern (v :: rest)

/-- A regular expression with the flags `gi`: the source of its text, alone or between the two
assertions that no letter, digit or hyphen stands next to it. -/
structure Pattern where
  source : Text
  wholeWord : Bool
  deriving DecidableEq, Repr

/-- `[A-Za-z0-9-]` -/
def wordUnits : Text :=
  units "ABCDEFGHIJKLMNOPQRSTUVWXYZabcdefghijklmnopqrstuvwxyz0123456789-"

section Matching

variable (platform : Platform)

/-- A class matches what folds to the same unit as one of its members. -/
def isWordUnit (u : CodeUnit) : Bool :=
  wordUnits.any fun member => platform.canonicalize member = platform.canonicalize u

/-- The text of a pattern stands at a position. -/
def matchesText (literal window : Text) (index : Nat) : Bool :=
  (slice window index (index + literal.length)).map platform.canonicalize =
    literal.map platform.canonicalize

def matchesAt (pattern : Pattern) (window : Text) (index : Nat) : Bool :=
  let literal := readPattern pattern.source
  matchesText platform literal window index && (!pattern.wholeWord ||
    ((index = 0 || (window[index - 1]?).all fun u => !isWordUnit platform u) &&
      (window[index + literal.length]?).all fun u => !isWordUnit platform u))

/-- `pattern.exec(window)`: the first match from `lastIndex` on -/
def exec (pattern : Pattern) (window : Text) (lastIndex : Nat) : Option Nat :=
  (List.range (window.length + 1)).find? fun index =>
    lastIndex ≤ index && matchesAt platform pattern window index

/-- The inner loop, for at most so many matches. -/
def patternRanges (pattern : Pattern) (window : Text) : Nat → Nat → List Range
  | 0, _ => []
  | rounds + 1, lastIndex =>
    match exec platform pattern window lastIndex with
    | none => []
    | some index =>
      if maxInput ≤ index then []
      else ⟨index, index + (readPattern pattern.source).length⟩ ::
        patternRanges pattern window rounds (index + 1)

def configuredRanges (window : Text) (patterns : List Pattern) : List Range :=
  Range.mergeAll (patterns.flatMap fun pattern =>
    patternRanges platform pattern window (window.length + 2) 0)

/-! ## The end of a text -/

/-- `/[/\\@:=]$/` -/
def isUrlContext (text : Text) : Bool :=
  text.getLast?.any (· ∈ [0x2f, 0x5c, 0x40, 0x3a, 0x3d])

/-- `/[a-z0-9]/i` -/
def isTokenChar (u : CodeUnit) : Bool :=
  (units "abcdefghijklmnopqrstuvwxyz0123456789").any fun member =>
    platform.canonicalize member = platform.canonicalize u

def isDigit (u : CodeUnit) : Bool := 0x30 ≤ u && u ≤ 0x39

/-- The longest start of a part that the text ends in and that counts as a cut secret. -/
def cutPrefix (tail part : Text) (hostnames : List Text) (truncated : Bool) : Option Nat :=
  let lengths := (List.range (min (part.length - 1) tail.length + 1)).reverse.filter (minPart ≤ ·)
  let found := lengths.find? fun length =>
    (part.take length).isSuffixOf (platform.toLowerCase tail) &&
      (part ∉ hostnames || truncated || isUrlContext (tail.take (tail.length - length)) ||
        (part[length]?).any (isTokenChar platform) || (part.take length).any isDigit)
  found.map (tail.length - ·)

def cutTailAt (tail : Text) (prefixes hostnames : List Text) (truncated : Bool) : Option Nat :=
  prefixes.foldl (fun cut part =>
    match cutPrefix platform tail part hostnames truncated with
    | none => cut
    | some start => some (min (cut.getD start) start)) none

/-! ## The redactor -/

/-- What `createRedactor` builds of the configured values. -/
structure Configuration where
  parts : List Text
  labels : List Text
  prefixes : List Text
  hostnames : List Text
  deriving DecidableEq, Repr

namespace Configuration

def patterns (configuration : Configuration) : List Pattern :=
  configuration.parts.map (fun part => ⟨escapeRegExp part, false⟩) ++
    configuration.labels.map fun label => ⟨escapeRegExp label, true⟩

def longest (configuration : Configuration) : Nat := (configuration.parts.map List.length).foldl max 0

end Configuration

def pieces (values : List Text) : List Text :=
  (values.flatMap (secretParts platform)).filter (minPart ≤ ·.length) ++
    values.flatMap (contextParts platform)

/-- `[part, encodeURIComponent(part)]`, for each part -/
def withEncoded (parts : List Text) : Option (List Text) :=
  (parts.mapM fun part => (platform.encodeURIComponent part).map fun encoded =>
    [part, encoded]).map List.flatten

/-- `createRedactor(configured)`. It throws on a part that has no percent encoding. -/
def configure (configured : List (Option Text)) : Option Configuration :=
  let values := configured.reduceOption.filter (· ≠ [])
  let whole := values.flatMap withEscapedSlashes
  let labels := (values.flatMap (subdomainLabels platform)).eraseDups
  (withEncoded platform (whole ++ pieces platform values)).map fun encoded =>
    { parts := (encoded.filter (· ≠ [])).eraseDups
      labels
      prefixes := (pieces platform values ++ whole.filter (fun value =>
        minPart ≤ value.length && (platform.parseUrl value).isNone) ++ labels).map
          platform.toLowerCase
      hostnames := (values.flatMap fun value =>
        (platform.parseUrl value).elim [] fun url => [url.host, url.hostname]) ++ labels }

/-- `out` and `pos` -/
structure Redaction where
  out : Text
  pos : Nat

/-- The body of the loop over the configured ranges. -/
def replaceRange (window : Text) (redaction : Redaction) (range : Range) : Redaction where
  out := redaction.out ++ slice window redaction.pos range.start ++ configuredPlaceholder
  pos := range.stop

/-- The redacted text, before the generic masking of URLs. -/
def redactConfigured (configuration : Configuration) (text : Text) : Text :=
  let window := text.take (maxInput + configuration.longest)
  let redaction := (configuredRanges platform window configuration.patterns).foldl
    (replaceRange window) ⟨[], 0⟩
  if redaction.pos < maxInput then
    let tail := slice window redaction.pos maxInput
    match cutTailAt platform tail configuration.prefixes configuration.hostnames
        (maxInput < text.length) with
    | none => redaction.out ++ tail
    | some cut => redaction.out ++ (tail.take cut ++ configuredPlaceholder)
  else redaction.out

end Matching

end MpcRegistry.Worker.RedactUrls

import MpcRegistry.Ecma.BigInt
import MpcRegistry.Library.BigEndian
import MpcRegistry.Library.Transition
import MpcRegistry.Library.Utf8

/-!
# A scan by ClamAV

Source: apps/scan-worker/src/scanner.ts. Host, port and the lengths of the timeouts are left out:
a timeout may come at any moment. Whether the socket accepts a write is up to it.
-/
namespace MpcRegistry.Scanner
open Library Ecma
open Canonical (isWhiteSpace)
open Utf16 (decodeUtf8)

inductive ScanVerdict
  | clean
  | infected (signature : Text)
  | error (reason : Text) (unavailable : Bool)
  deriving DecidableEq, Repr

structure ScannerOptions where
  chunkBytes : Nat
  positive : 1 ≤ chunkBytes

def maxScanBytes : Nat := 2000 * 1024 * 1024

/-! ## The response -/

/-- `raw.replace(/\0+$/, "").trim()` -/
def responseLine (raw : Text) : Text := trim (raw.rdropWhile (· = 0))

def isLineTerminator (u : CodeUnit) : Bool := u ∈ [0x0a, 0x0d, 0x2028, 0x2029]

/-- `\s+FOUND$` -/
def endsInFound (rest : Text) : Bool :=
  let blanks := rest.takeWhile isWhiteSpace
  blanks ≠ [] && rest.drop blanks.length = units "FOUND"

/-- `(.+?)\s+FOUND$`, the shortest group. -/
def lazyGroup (rest : Text) : Option Text :=
  (List.range rest.length).findSome? fun count =>
    let group := rest.take (count + 1)
    if group.all (!isLineTerminator ·) && endsInFound (rest.drop (count + 1)) then some group
    else none

/-- `/^stream:\s*(.+?)\s+FOUND$/.exec(line)?.[1]`, as many blanks first as a match allows -/
def foundSignature (line : Text) : Option Text :=
  if (units "stream:").isPrefixOf line then
    let rest := line.drop (units "stream:").length
    let blanks := (rest.takeWhile isWhiteSpace).length
    (List.range (blanks + 1)).reverse.findSome? fun count => lazyGroup (rest.drop count)
  else none

def parseClamResponse (raw : Text) : ScanVerdict :=
  let line := responseLine raw
  if line = units "stream: OK" then .clean
  else
    match foundSignature line with
    | some signature => .infected signature
    | none => .error (if line = [] then units "empty response" else line) false

/-! ## The socket -/

def frame (chunk : List UInt8) : List UInt8 := BigEndian.bytes 4 chunk.length ++ chunk

/-- `zINSTREAM\0` -/
def command : List UInt8 := Utf16.encodeUtf8 (units "zINSTREAM") ++ [0]

def terminator : List UInt8 := List.replicate 4 0

/-- The variables of `scanBytes`, with what was written to the socket, call by call. -/
structure Scan where
  settled : Option ScanVerdict
  connected : Bool
  chunks : List (List UInt8)
  responseBytes : Nat
  offset : Nat
  terminated : Bool
  written : List (List UInt8)
  deriving DecidableEq, Repr

namespace Scan

def finish (s : Scan) (verdict : ScanVerdict) : Scan :=
  if s.settled.isSome then s else { s with settled := some verdict }

def transportError (s : Scan) (reason : Text) : ScanVerdict := .error reason (!s.connected)

def write (s : Scan) (chunk : List UInt8) : Scan := { s with written := s.written ++ [chunk] }

end Scan

/-- What the socket emits, and the deadline of the timer. -/
inductive Event
  | connect
  | drain
  | data (chunk : List UInt8)
  | end'
  | timeout
  | deadline
  | error (message : Text)
  deriving DecidableEq, Repr

section Scanning

variable (bytes : List UInt8) (options : ScannerOptions) (accepts : Nat → Bool)

/-- The loop of `writeChunks`. The socket answers each write by the number of those before it. -/
def writeFrames (s : Scan) : Scan :=
  if s.offset < bytes.length then
    let chunk := frame ((bytes.drop s.offset).take options.chunkBytes)
    let next := { s with offset := s.offset + options.chunkBytes }.write chunk
    if accepts s.written.length then writeFrames next else next
  else { s with terminated := true }.write terminator
termination_by bytes.length - s.offset
decreasing_by
  have hpositive := options.positive
  simp only [Scan.write]
  omega

def writeChunks (s : Scan) : Scan :=
  if s.settled.isSome || s.terminated then s else writeFrames bytes options accepts s

def deliver (s : Scan) : Event → Scan
  | .connect => writeChunks bytes options accepts ({ s with connected := true }.write command)
  | .drain => writeChunks bytes options accepts s
  | .data chunk =>
    if s.settled.isSome then s
    else
      let s := { s with responseBytes := s.responseBytes + chunk.length }
      if s.responseBytes > 4096 then
        s.finish (.error (units "scanner response exceeds 4096 bytes") false)
      else { s with chunks := s.chunks ++ [chunk] }
  | .end' => s.finish (parseClamResponse (decodeUtf8 s.chunks.flatten))
  | .timeout => s.finish (s.transportError (units "scan timeout"))
  | .deadline => s.finish (s.transportError (units "scan timeout"))
  | .error message => s.finish (s.transportError message)

/-- A file past the limit is refused without a socket. -/
def scanBytes : Scan :=
  ⟨if bytes.length > maxScanBytes then
    some (.error (units "file exceeds scanner size limit") false) else none,
    false, [], 0, 0, false, []⟩

/-- A socket connects once, and has nothing to drain before. -/
def Possible (s : Scan) : Event → Prop
  | .connect => s.connected = false
  | .drain => s.connected = true
  | _ => True

/-- The scan with every order of the events. -/
def scanSystem : System Scan Event :=
  (System.ofExec (· = scanBytes bytes) (deliver bytes options accepts)).restrict Possible

end Scanning

end MpcRegistry.Scanner

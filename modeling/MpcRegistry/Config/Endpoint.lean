import MpcRegistry.Config.Ip

/-!
# Outbound endpoints

Source: packages/config/src/endpoint.ts. `new URL`, `isIP` of node:net and the resolver are
parameters. A call that throws gives its reason.
-/
namespace MpcRegistry.Config
open Library
open Cre (toLowerCase)

def blockedHostnames : List Text := [units "localhost", units "metadata.google.internal"]

def blockedSuffixes : List Text :=
  [units ".localhost", units ".local", units ".internal", units ".home.arpa"]

/-- First octets and inclusive ranges of second ones. -/
def privateIpv4Ranges : List (Nat × Nat × Nat) :=
  [(169, 254, 254), (172, 16, 31), (192, 168, 168), (100, 64, 127), (192, 0, 0), (198, 18, 19)]

def isPrivateIpv4Bytes (bytes : List Octet) : Bool :=
  let a := (bytes.getD 0 0).val
  let b := (bytes.getD 1 0).val
  if a ∈ [0, 10, 127] || a ≥ 224 then true
  else if a = 192 && b = 88 && (bytes.getD 2 0).val = 99 then true
  else privateIpv4Ranges.any fun range =>
    a = range.1 && b ≥ range.2.1 && b ≤ range.2.2

def isPrivateIpv4 (address : Text) : Bool := (ipv4ToBytes address).elim true isPrivateIpv4Bytes

def isReservedGlobalIpv6 (bytes : List Octet) : Bool :=
  let byte (i : Nat) := (bytes.getD i 0).val
  if byte 0 = 0x20 && byte 1 = 0x01 && byte 2 = 0x00 && byte 3 &&& 0xfe = 0x00 then true
  else if byte 0 = 0x20 && byte 1 = 0x01 && byte 2 = 0x0d && byte 3 = 0xb8 then true
  else byte 0 = 0x3f && byte 1 &&& 0xf0 = 0xf0

def isPrivateIpv6Bytes (bytes : List Octet) : Bool :=
  let byte (i : Nat) := (bytes.getD i 0).val
  let zerosUpTo (count : Nat) := (bytes.take count).all (· = 0)
  if zerosUpTo 15 && (byte 15 = 0 || byte 15 = 1) then true
  else if zerosUpTo 10 && byte 10 = 0xff && byte 11 = 0xff then isPrivateIpv4Bytes (bytes.drop 12)
  else if zerosUpTo 12 then true
  else if byte 0 = 0x20 && byte 1 = 0x02 then isPrivateIpv4Bytes ((bytes.take 6).drop 2)
  else if byte 0 &&& 0xe0 ≠ 0x20 then true
  else isReservedGlobalIpv6 bytes

def isPrivateIpv6 (address : Text) : Bool := (ipv6ToBytes address).elim true isPrivateIpv6Bytes

def isPrivateAddress (isIP : Text → Nat) (address : Text) : Bool :=
  if isIP address = 4 then isPrivateIpv4 address
  else if isIP address = 6 then isPrivateIpv6 address
  else true

structure Url where
  protocol : Text
  hostname : Text
  deriving DecidableEq, Repr

/-- `.replace(/^\[|\]$/g, "").replace(/\.$/, "")` of the lower-case hostname -/
def hostnameOf (url : Url) : Text :=
  let host := toLowerCase url.hostname
  let host := if host.head? = some 0x5b then host.drop 1 else host
  let host := if host.getLast? = some 0x5d then host.dropLast else host
  if host.getLast? = some 0x2e then host.dropLast else host

section Endpoints

variable (parseUrl : Text → Option Url) (isIP : Text → Nat)

def assertEndpointShape (endpoint : Text) : Except Text Url :=
  match parseUrl endpoint with
  | none => .error (units "Endpoint is not a URL")
  | some url =>
    if url.protocol ≠ units "https:" then .error (units "Endpoint must be https")
    else
      let host := hostnameOf url
      if host ∈ blockedHostnames ∨ blockedSuffixes.any (·.isSuffixOf host) then
        .error (units "Internal hosts are not allowed: " ++ host)
      else if isIP host ≠ 0 && isPrivateAddress isIP host then
        .error (units "Private or reserved addresses are not allowed: " ++ host)
      else .ok url

/-- A resolver that fails answers nothing. -/
def assertEndpointReachable (resolve : Text → Option (List Text)) (endpoint : Text) :
    Except Text (List Text) := do
  let url ← assertEndpointShape parseUrl isIP endpoint
  let host := hostnameOf url
  if isIP host ≠ 0 then return [host]
  match resolve host with
  | none => .error (units "Cannot resolve name: " ++ host)
  | some addresses =>
    if addresses.length = 0 then .error (units "Name has no addresses: " ++ host)
    else if 0 < (addresses.filter (isPrivateAddress isIP)).length then
      .error (units "Resolves to a private or reserved address: " ++ host)
    else .ok addresses

end Endpoints

end MpcRegistry.Config

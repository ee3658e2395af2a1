import SamuraiFormal.Util.Text

/-!
# Internet addresses

`InetAddress`: the literal parser, the address classes and the constructor from a
string.  The system's `inet_pton` is given by its documented grammar: a dotted quad
of decimal octets without leading zeros, and the text forms of RFC 4291 for IPv6.

The source hands `std::string`s to it as C strings, so a literal ends at the first
NUL byte.
-/

namespace SamuraiFormal.Net

open Util

/-- The part of a `std::string` that its `c_str()` shows to C. -/
def cString (text : Bytes) : Bytes := text.takeWhile (· != 0)

/-- An address in network byte order. -/
abbrev Octets (width : Nat) : Type := { bytes : Bytes // bytes.length = width }

inductive IpAddress where
  | v4 (octets : Octets 4)
  | v6 (octets : Octets 16)
  deriving DecidableEq

def decimalDigit (c : UInt8) : Option Nat := if isDigit c then some (c.toNat - 48) else none

/-- The number that the digits spell in the given base. -/
def numeral (base : Nat) (digits : List Nat) : Nat :=
  digits.foldl (fun value digit => value * base + digit) 0

/-- One octet of a dotted quad: at most three digits, no leading zero, at most 255. -/
def decimalOctet (text : Bytes) : Option UInt8 :=
  match text.mapM decimalDigit with
  | none => none
  | some digits =>
    if digits = [] ∨ 3 < digits.length ∨ (digits.head? = some 0 ∧ digits ≠ [0]) ∨
        255 < numeral 10 digits then none
    else some (UInt8.ofNat (numeral 10 digits))

/-- `inet_pton(AF_INET, …)`. -/
def inetPton4 (text : Bytes) : Option (Octets 4) :=
  match (text.splitOn 46).mapM decimalOctet with
  | some [a, b, c, d] => some ⟨[a, b, c, d], rfl⟩
  | _ => none

/-- One group of an IPv6 literal: one to four hexadecimal digits. -/
def hexGroup (text : Bytes) : Option Bytes :=
  match text.mapM hexValue with
  | none => none
  | some digits =>
    if digits = [] ∨ 4 < digits.length then none
    else some [UInt8.ofNat (numeral 16 digits / 256), UInt8.ofNat (numeral 16 digits % 256)]

/-- The last group may be a dotted quad where the address ends. -/
def lastGroup (atEnd : Bool) (text : Bytes) : Option Bytes :=
  match hexGroup text with
  | some bytes => some bytes
  | none => if atEnd then (inetPton4 text).map Subtype.val else none

def groups (atEnd : Bool) : List Bytes → Option Bytes
  | [] => some []
  | [last] => lastGroup atEnd last
  | group :: next :: rest =>
    match hexGroup group, groups atEnd (next :: rest) with
    | some bytes, some more => some (bytes ++ more)
    | _, _ => none

/-- One side of the `::`, which may be empty. -/
def side (atEnd : Bool) (text : Bytes) : Option Bytes :=
  if text = [] then some [] else groups atEnd (text.splitOn 58)

/-- Cut at the first `::`. -/
def splitGap : Bytes → Option (Bytes × Bytes)
  | [] => none
  | 58 :: 58 :: rest => some ([], rest)
  | c :: rest => (splitGap rest).map fun (front, back) => (c :: front, back)

def octets16 (bytes : Bytes) : Option (Octets 16) :=
  if width : bytes.length = 16 then some ⟨bytes, width⟩ else none

/-- `inet_pton(AF_INET6, …)`: eight groups, or fewer with one `::` for the zeros. -/
def inetPton6 (text : Bytes) : Option (Octets 16) :=
  match splitGap text with
  | none => (groups true (text.splitOn 58)).bind octets16
  | some (front, back) =>
    match side false front, side true back with
    | some left, some right =>
      if 14 < left.length + right.length then none
      else octets16 (left ++ List.replicate (16 - left.length - right.length) 0 ++ right)
    | _, _ => none

def numberText (base value : Nat) : Bytes := (Nat.toDigits base value).map Char.toUInt8

def inetNtop4 (octets : Bytes) : Bytes :=
  [46].intercalate (octets.map fun octet => numberText 10 octet.toNat)

def groupValues : Bytes → List Nat
  | high :: low :: rest => (high.toNat * 256 + low.toNat) :: groupValues rest
  | _ => []

/-- The first of the longest runs of two or more zero groups: its start and length. -/
def longestGap (values : List Nat) : Option (Nat × Nat) :=
  (List.range values.length).foldl
    (fun best start =>
      let length := ((values.drop start).takeWhile (· == 0)).length
      if max 1 (best.elim 0 Prod.snd) < length then some (start, length) else best) none

def groupsText (values : List Nat) : Bytes := [58].intercalate (values.map (numberText 16))

def inetNtop6 (octets : Bytes) : Bytes :=
  let values := groupValues octets
  match longestGap values with
  | none => groupsText values
  | some (start, length) =>
    if start = 0 ∧ length = 6 then [58, 58] ++ inetNtop4 (octets.drop 12)
    else if start = 0 ∧ length = 5 ∧ values.getD 5 0 = 0xffff then
      ascii "::ffff:" ++ inetNtop4 (octets.drop 12)
    else
      groupsText (values.take start) ++ [58, 58] ++ groupsText (values.drop (start + length))

/-- The loop of `is_canonical_dotted_quad()`; `previous` is the character before. -/
def canonicalLoop (digits octets : Nat) (previous : UInt8) : Bytes → Bool
  | [] => 0 < digits && octets == 4
  | c :: rest =>
    if c = 46 then if digits = 0 then false else canonicalLoop 0 (octets + 1) c rest
    else if c < 48 ∨ 57 < c then false
    else if digits = 1 ∧ previous = 48 then false
    else if 3 < digits + 1 then false
    else canonicalLoop (digits + 1) octets c rest

def isCanonicalDottedQuad (text : Bytes) : Bool := canonicalLoop 0 1 0 text

def hasCanonicalEmbeddedIPv4 (text : Bytes) : Bool :=
  if find text 46 = none then true
  else
    match rfind text 58 with
    | none => isCanonicalDottedQuad text
    | some colon => isCanonicalDottedQuad (text.drop (colon + 1))

/-- The bracketed form used in URLs and by `toString()`. -/
def unbracket (text : Bytes) : Bytes :=
  if 2 < text.length ∧ text.head? = some 91 ∧ text.getLast? = some 93 then
    (text.drop 1).take (text.length - 2)
  else text

/-- `stringToAddress(IPv4, …)` of a C string. -/
def stringToAddress4 (address : Bytes) : Option (Octets 4) :=
  if address = [] then none
  else if !isCanonicalDottedQuad (unbracket address) then none
  else inetPton4 (unbracket address)

/-- `stringToAddress(IPv6, …)` of a C string. -/
def stringToAddress6 (address : Bytes) : Option (Octets 16) :=
  if address = [] then none
  else if !hasCanonicalEmbeddedIPv4 (unbracket address) then none
  else inetPton6 (unbracket address)

inductive ResolveState where
  | unresolved
  | resolved
  | resolveError
  deriving DecidableEq, Repr

/-- An address by name, by number, or both; without a number the version is
`Unspecified`. -/
structure InetAddress where
  hostname : Bytes
  ip : Option IpAddress
  resolveState : ResolveState
  deriving DecidableEq

/-- `InetAddress(const std::string&)`. -/
def InetAddress.ofString (address : Bytes) : InetAddress :=
  if address = [] then ⟨address, some (.v4 ⟨[0, 0, 0, 0], rfl⟩), .resolved⟩
  else
    match stringToAddress4 (cString address) with
    | some octets => ⟨address, some (.v4 octets), .resolved⟩
    | none =>
      match stringToAddress6 (cString address) with
      | some octets => ⟨address, some (.v6 octets), .resolved⟩
      | none => ⟨address, none, .unresolved⟩

theorem InetAddress.ofString_hostname (address : Bytes) :
    (InetAddress.ofString address).hostname = address := by
  unfold InetAddress.ofString
  split
  · rfl
  split
  · rfl
  · split <;> rfl

namespace IpAddress

/-- `getIPv4HostOrder()`: `ntohl` of the four octets. -/
def hostOrder (octets : Octets 4) : Nat :=
  octets.val.foldl (fun value octet => value * 256 + octet.toNat) 0

def octet (octets : Octets 16) (index : Nat) : UInt8 := octets.val.getD index 0

def isValid : IpAddress → Bool
  | .v4 octets =>
    hostOrder octets != 0 && hostOrder octets &&& 0xf0000000 != 0xf0000000
  | .v6 octets => octets.val.any (· != 0)

def isMulticast : IpAddress → Bool
  | .v4 octets => 0xe0000000 ≤ hostOrder octets && hostOrder octets < 0xf0000000
  | .v6 octets => octet octets 0 == 0xff

def isPrivate : IpAddress → Bool
  | .v4 octets =>
    hostOrder octets &&& 0xff000000 == 0x0a000000 ||
      hostOrder octets &&& 0xfff00000 == 0xac100000 ||
      hostOrder octets &&& 0xffff0000 == 0xc0a80000
  | .v6 octets => octet octets 0 &&& 0xfe == 0xfc

def isLinkLocal : IpAddress → Bool
  | .v4 octets => hostOrder octets &&& 0xffff0000 == 0xa9fe0000
  | .v6 octets => octet octets 0 == 0xfe && octet octets 1 &&& 0xc0 == 0x80

/-- `isLoopback()`; the words and shorts it tests are the octets before the last. -/
def isLoopback : IpAddress → Bool
  | .v4 octets => hostOrder octets &&& 0xff000000 == 0x7f000000
  | .v6 octets => (octets.val.take 15).all (· == 0) && octet octets 15 == 1

end IpAddress

/-- `getAddress()`. -/
def InetAddress.getAddress (address : InetAddress) : Bytes :=
  if address.resolveState ≠ .resolved then address.hostname
  else
    match address.ip with
    | some (.v4 octets) => inetNtop4 octets.val
    | some (.v6 octets) => inetNtop6 octets.val
    | none => []

/-- `isResolved()`. -/
def InetAddress.isResolved (address : InetAddress) : Bool :=
  address.ip.any IpAddress.isValid && address.resolveState == .resolved

end SamuraiFormal.Net

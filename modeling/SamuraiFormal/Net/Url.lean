import SamuraiFormal.Net.InetAddress
import SamuraiFormal.Util.Convert
import SamuraiFormal.Util.Percent

/-!
# URLs

`URL` keeps the text it was given, compares on it and hands it back; its other members
are what `parse()` makes of that text.  A `Url` is therefore its text, and the members
are functions of it: members that disagree with the text cannot be built.  A text that is
refused leaves the members that were set before the refusal, with `valid` off.
-/

namespace SamuraiFormal.Net

open Util

/-- The members of `URL` that `parse()` fills, but for the `InetAddress` of the host. -/
structure Components where
  scheme : Bytes := []
  hostname : Bytes := []
  zone : Bytes := []
  port : UInt16 := 0
  path : Bytes := []
  query : Bytes := []
  username : Bytes := []
  password : Bytes := []
  file : Bytes := []
  valid : Bool := false
  deriving DecidableEq, Repr

def isAlpha (c : UInt8) : Bool := (65 ≤ c && c ≤ 90) || (97 ≤ c && c ≤ 122)

def slash : UInt8 := 47

def colon : UInt8 := 58

/-- One of `/`, `?` and `#`, which end an authority. -/
def isDelimiter (c : UInt8) : Bool := c == 47 || c == 63 || c == 35

/-- A letter, and then letters, digits, `+`, `-` and `.`. -/
def isScheme : Bytes → Bool
  | [] => false
  | first :: rest =>
    isAlpha first &&
      rest.all fun c => isAlpha c || isDigit c || c == 43 || c == 45 || c == 46

/-- The text up to a byte, and what follows it if it is there. -/
def cutAt (text : Bytes) (c : UInt8) : Bytes × Option Bytes :=
  match splitOnce text c with
  | none => (text, none)
  | some (front, back) => (front, some back)

namespace Components

/-- What a refusal leaves. -/
abbrev Parsing : Type → Type := Except Components

/-- The user information is in front of the last `@`; what is behind it is returned. -/
def readUserinfo (parts : Components) (authority : Bytes) : Components × Bytes :=
  match rfind authority 64 with
  | none => (parts, authority)
  | some position =>
    let (username, password) := cutAt (authority.take position) colon
    ({ parts with username := username, password := password.getD [] },
      authority.drop (position + 1))

/-- A bracketed host, with its zone identifier split off. -/
def readZone (parts : Components) (text : Bytes) : Parsing Components :=
  match splitOnce text 37 with
  | none => .ok { parts with hostname := text }
  | some (hostname, encoded) =>
    if hostname = [] then .error { parts with hostname := hostname }
    else
      let escaped := if encoded.take 2 = ascii "25" then encoded.drop 2 else encoded
      let (zone, decoded) := percentDecode escaped
      let named := { parts with hostname := hostname, zone := zone }
      if !decoded ∨ zone = [] then .error named else .ok named

/-- The host, and the text of the port if there is one. -/
def readHost (parts : Components) (authority : Bytes) : Parsing (Components × Option Bytes) :=
  if authority.head? = some 91 then
    match find authority 93 with
    | none => .error parts
    | some close =>
      match readZone parts ((authority.drop 1).take (close - 1)) with
      | .error named => .error named
      | .ok named =>
        match authority.drop (close + 1) with
        | [] => .ok (named, none)
        | c :: port => if c = colon then .ok (named, some port) else .error named
  else
    match splitOnce authority colon with
    | none => .ok ({ parts with hostname := authority }, none)
    | some (hostname, port) =>
      let named := { parts with hostname := hostname }
      -- a second colon is an address that was not bracketed
      if colon ∈ port then .error named else .ok (named, some port)

/-- Port 0 is refused, and stands for every text that is not a port. -/
def readPort (parts : Components) : Option Bytes → Parsing Components
  | none => .ok parts
  | some text =>
    if toUInt16 text = 0 then .error parts else .ok { parts with port := toUInt16 text }

/-- What follows the authority. -/
def readPath (parts : Components) (rest : Bytes) : Components :=
  let (path, query) := cutAt (cutAt rest 35).1 63
  { parts with
    path := if path = [] then [slash] else path
    query := query.getD []
    file := if rest = [] then [slash] else rest
    valid := true }

/-- What follows `scheme://`. -/
def readAuthority (parts : Components) (text : Bytes) : Parsing Components :=
  let (known, authority) := parts.readUserinfo (text.takeWhile fun c => !isDelimiter c)
  match known.readHost authority with
  | .error named => .error named
  | .ok (named, port) =>
    match named.readPort port with
    | .error placed => .error placed
    | .ok placed => .ok (placed.readPath (text.dropWhile fun c => !isDelimiter c))

/-- `parse()`. -/
def parse (text : Bytes) : Components :=
  match splitOnce text colon with
  | none => {}
  | some (front, rest) =>
    let parts : Components := { scheme := front.map asciiLower }
    if !isScheme parts.scheme ∨ rest.take 2 ≠ ascii "//" then parts
    else
      match parts.readAuthority (rest.drop 2) with
      | .error refused => refused
      | .ok whole => whole

end Components

/-- A `URL`. -/
structure Url where
  text : Bytes
  deriving DecidableEq, Repr

namespace Url

def components (url : Url) : Components := Components.parse url.text

def isValid (url : Url) : Bool := url.components.valid

def getScheme (url : Url) : Bytes := url.components.scheme

def getHostname (url : Url) : Bytes := url.components.hostname

def getPort (url : Url) : UInt16 := url.components.port

def getPath (url : Url) : Bytes := url.components.path

def getFile (url : Url) : Bytes := url.components.file

def schemePorts : List (Bytes × UInt16) :=
  [(ascii "http", 80), (ascii "https", 443), (ascii "ftp", 21), (ascii "ws", 80),
    (ascii "wss", 443)]

def getDefaultPort (scheme : Bytes) : UInt16 :=
  match schemePorts.find? fun entry => iequals entry.1 scheme with
  | none => 0
  | some entry => entry.2

def getEffectivePort (url : Url) : UInt16 :=
  if !url.isValid then 0
  else if url.getPort ≠ 0 then url.getPort
  else getDefaultPort url.getScheme

/-- The segments that are kept, and whether a slash is to follow them. -/
def keepSegment (kept : List Bytes × Bool) (segment : Bytes) : List Bytes × Bool :=
  if segment = ascii "." then (kept.1, true)
  else if segment = ascii ".." then (kept.1.dropLast, true)
  else if segment = [] then (kept.1, true)
  else (kept.1 ++ [segment], false)

/-- `remove_dot_segments()`. -/
def removeDotSegments (path : Bytes) : Bytes :=
  let absolute := path.head? == some slash
  let segments := (if absolute then path.drop 1 else path).splitOn slash
  let (kept, trailingSlash) := segments.foldl keepSegment ([], false)
  (if absolute then [slash] else []) ++ [slash].intercalate kept ++
    (if trailingSlash ∧ ¬ (absolute ∧ kept = []) then [slash] else [])

/-- `merge_paths()`. -/
def mergePaths (basePath : Bytes) (baseHasAuthority : Bool) (reference : Bytes) : Bytes :=
  if baseHasAuthority ∧ basePath = [] then slash :: reference
  else
    match rfind basePath slash with
    | none => reference
    | some position => basePath.take (position + 1) ++ reference

/-- A reference with a scheme of its own. -/
def isAbsolute (reference : Bytes) : Bool :=
  match find reference colon with
  | none => false
  | some position =>
    !(reference.take position).any isDelimiter && isScheme (reference.take position)

/-- The authority, recomposed from what `parse()` kept. -/
def baseAuthority (parts : Components) : Bytes :=
  (if parts.username ≠ [] ∨ parts.password ≠ [] then
    parts.username ++ (if parts.password ≠ [] then colon :: parts.password else []) ++ [64]
  else []) ++
  (if colon ∈ parts.hostname then
    91 :: parts.hostname ++ (if parts.zone ≠ [] then ascii "%25" ++ parts.zone else []) ++ [93]
  else parts.hostname) ++
  (if parts.port ≠ 0 then colon :: numberText 10 parts.port.toNat else [])

/-- The parts that a resolved reference is put together from. -/
structure Target where
  authority : Option Bytes
  path : Bytes
  query : Option Bytes
  deriving DecidableEq, Repr

def Target.recompose (target : Target) (scheme : Bytes) : Bytes :=
  scheme ++ colon ::
    ((match target.authority with
      | none => []
      | some authority => ascii "//" ++ authority) ++
    target.path ++
    (match target.query with
      | none => []
      | some query => 63 :: query))

/-- The parts that a relative reference selects. -/
def selectTarget (base : Components) (reference : Bytes) : Target :=
  let (rest, refQuery) := cutAt (cutAt reference 35).1 63
  let hasAuthority := base.hostname ≠ []
  let authority := if hasAuthority then some (baseAuthority base) else none
  if rest.take 2 = ascii "//" then
    let network := rest.drop 2
    match find network slash with
    | none => ⟨some network, [], refQuery⟩
    | some position =>
      ⟨some (network.take position), removeDotSegments (network.drop position), refQuery⟩
  else if rest = [] then
    ⟨authority, base.path,
      refQuery.or (if base.query = [] then none else some base.query)⟩
  else if rest.head? = some slash then ⟨authority, removeDotSegments rest, refQuery⟩
  else
    ⟨authority, removeDotSegments (mergePaths base.path hasAuthority rest), refQuery⟩

/-- `resolve()`. -/
def resolve (url : Url) (reference : Bytes) : Url :=
  if !url.isValid then ⟨[]⟩
  else if isAbsolute reference then ⟨reference⟩
  else ⟨(selectTarget url.components reference).recompose url.getScheme⟩

example : (resolve ⟨ascii "http://a/b/c/d?q"⟩ (ascii "../g?x#f")).text =
    ascii "http://a/b/g?x" := by decide

example : ((Url.mk (ascii "HTTP://u:p@[fe80::1%25e]:81/x?y#z")).components).file =
    ascii "/x?y#z" := by decide

end Url

end SamuraiFormal.Net

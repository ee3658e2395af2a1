import SamuraiFormal.Util.Convert
import SamuraiFormal.Xml.RoundTrip

/-!
# SOAP requests and responses

`buildRequest()` writes an action's arguments into an envelope, and `parseResponse()` reads
an envelope.  A request that is read as a response gives back its arguments, stripped of
white space: nothing in a value can be taken for markup.
-/

namespace SamuraiFormal.Upnp

open Util
open Xml
open Library.Loops
open List

inductive Error where
  | none
  | noGateway
  | descriptionFailed
  | noService
  | network
  | badResponse
  | unsupported
  | cancelled
  | reentrant
  | device
  deriving DecidableEq, Repr

inductive DeviceError where
  | unknown
  | invalidAction
  | invalidArgs
  | actionFailed
  | argumentValueInvalid
  | argumentValueOutOfRange
  | optionalActionNotImplemented
  | outOfMemory
  | humanInterventionRequired
  | stringArgumentTooLong
  | actionNotAuthorized
  | signatureFailure
  | specifiedArrayIndexInvalid
  | noSuchEntryInArray
  | wildCardNotPermittedInSrcIP
  | wildCardNotPermittedInExtPort
  | conflictInMappingEntry
  | samePortValuesRequired
  | onlyPermanentLeasesSupported
  | remoteHostOnlySupportsWildcard
  | externalPortOnlySupportsWildcard
  | noPortMapsAvailable
  | conflictWithOtherMechanisms
  | wildCardNotPermittedInIntPort
  deriving DecidableEq, Repr

def toDeviceError : Nat → DeviceError
  | 401 => .invalidAction
  | 402 => .invalidArgs
  | 501 => .actionFailed
  | 600 => .argumentValueInvalid
  | 601 => .argumentValueOutOfRange
  | 602 => .optionalActionNotImplemented
  | 603 => .outOfMemory
  | 604 => .humanInterventionRequired
  | 605 => .stringArgumentTooLong
  | 606 => .actionNotAuthorized
  | 607 => .signatureFailure
  | 713 => .specifiedArrayIndexInvalid
  | 714 => .noSuchEntryInArray
  | 715 => .wildCardNotPermittedInSrcIP
  | 716 => .wildCardNotPermittedInExtPort
  | 718 => .conflictInMappingEntry
  | 724 => .samePortValuesRequired
  | 725 => .onlyPermanentLeasesSupported
  | 726 => .remoteHostOnlySupportsWildcard
  | 727 => .externalPortOnlySupportsWildcard
  | 728 => .noPortMapsAvailable
  | 729 => .conflictWithOtherMechanisms
  | 732 => .wildCardNotPermittedInIntPort
  | _ => .unknown

/-- `ActionFault`: the code is kept as it was sent. -/
structure ActionFault where
  error : DeviceError := .unknown
  code : Nat := 0
  description : Bytes := []
  deriving DecidableEq, Repr

/-- Name and value. -/
abbrev Argument : Type := Bytes × Bytes

variable {arguments : List Argument} {serviceType : Bytes}

namespace Soap

def buildArgument (argument : Argument) : Bytes :=
  ascii "<" ++ argument.1 ++ ascii ">" ++ xmlEscape argument.2 ++ ascii "</" ++ argument.1 ++
    ascii ">\r\n"

def buildRequest (serviceType action : Bytes) (arguments : List Argument) : Bytes :=
  ascii "<?xml version=\"1.0\"?>\r\n" ++
  (ascii "<s:Envelope xmlns:s=\"http://schemas.xmlsoap.org/soap/envelope/\"" ++
    ascii " s:encodingStyle=\"http://schemas.xmlsoap.org/soap/encoding/\">\r\n") ++
  ascii "<s:Body>\r\n" ++
  ascii "<u:" ++ action ++ ascii " xmlns:u=\"" ++ xmlEscape serviceType ++ ascii "\">\r\n" ++
  arguments.flatMap buildArgument ++
  ascii "</u:" ++ action ++ ascii ">\r\n" ++
  ascii "</s:Body>\r\n" ++
  ascii "</s:Envelope>\r\n"

/-- What `parseResponse()` returns and leaves in its two arguments. -/
structure Response where
  error : Error
  arguments : List Argument := []
  fault : Option ActionFault := none
  deriving DecidableEq, Repr

/-- The code of a fault, where there is one that can be read. -/
def faultCode (upnp : XmlElement) : Nat :=
  let code := upnp.getChildText (ascii "errorCode")
  if code = [] then 0
  else
    let value := toUInt64 code
    if value ≤ 0xffff then value else 0

def readFault (soapFault : XmlElement) : ActionFault :=
  let reported : ActionFault :=
    match soapFault.findDescendant (ascii "UPnPError") with
    | none => {}
    | some upnp =>
      { code := faultCode upnp
        error := toDeviceError (faultCode upnp)
        description := upnp.getChildText (ascii "errorDescription") }
  if reported.description = [] then
    { reported with description := soapFault.getChildText (ascii "faultstring") }
  else reported

/-- The single element under the body is the response, whatever its name. -/
def readArguments (soapBody : XmlElement) : Response :=
  match soapBody.children with
  | [response] =>
    { error := .none
      arguments := response.children.map fun argument => (argument.name, trim argument.text) }
  | _ => { error := .badResponse }

def readEnvelope (document : XmlDocument) : Response :=
  if document.error ≠ .ok then { error := .badResponse }
  else
    match document.root with
    | none => { error := .badResponse }
    | some root =>
      if root.name ≠ ascii "Envelope" then { error := .badResponse }
      else
        match root.findChild (ascii "Body") with
        | none => { error := .badResponse }
        | some soapBody =>
          match soapBody.findChild (ascii "Fault") with
          | some soapFault => { error := .device, fault := some (readFault soapFault) }
          | none => readArguments soapBody

def parseResponse (body : Bytes) : Option Response :=
  (XmlDocument.parse body {}).map readEnvelope

def lineBreak : Bytes := [carriageReturn, lineFeed]

/-- Arguments, with a line break in front of each and behind the last. -/
def argumentsContent : List Argument → Content
  | [] => .last lineBreak
  | argument :: rest =>
    .more lineBreak (.element [] argument.1 [] (.last argument.2)) (argumentsContent rest)

def actionNode (serviceType action : Bytes) (arguments : List Argument) : Node :=
  .element (ascii "u") action [⟨ascii "xmlns", ascii "u", serviceType⟩] (argumentsContent arguments)

def bodyNode (serviceType action : Bytes) (arguments : List Argument) : Node :=
  .element (ascii "s") (ascii "Body") []
    (.more lineBreak (actionNode serviceType action arguments) (.last lineBreak))

def envelopeAttributes : List Attribute :=
  [⟨ascii "xmlns", ascii "s", ascii "http://schemas.xmlsoap.org/soap/envelope/"⟩,
    ⟨ascii "s", ascii "encodingStyle", ascii "http://schemas.xmlsoap.org/soap/encoding/"⟩]

def envelope (serviceType action : Bytes) (arguments : List Argument) : Node :=
  .element (ascii "s") (ascii "Envelope") envelopeAttributes
    (.more lineBreak (bodyNode serviceType action arguments) (.last lineBreak))

def declaration : Bytes := ascii "<?xml version=\"1.0\"?>\r\n"

theorem xmlEscape_lineBreak : xmlEscape lineBreak = lineBreak := rfl

theorem lineBreak_blank : ∀ c ∈ lineBreak, isSpace c = true :=
  all_eq_true.mp (by decide)

theorem buildArgument_eq (argument : Argument) :
    buildArgument argument =
      (Node.element [] argument.1 [] (.last argument.2)).write ++ lineBreak := by
  rw [Node.write, Content.write, startTag, endTag, qualified, buildArgument,
    show ascii "<" = [lessThan] from rfl, show ascii ">" = [greaterThan] from rfl,
    show ascii "</" = [lessThan, 47] from rfl,
    show ascii ">\r\n" = greaterThan :: lineBreak from rfl]
  simp

theorem argumentsContent_write (arguments : List Argument) :
    (argumentsContent arguments).write = lineBreak ++ arguments.flatMap buildArgument := by
  induction arguments with
  | nil => rfl
  | cons argument rest ih =>
    rw [argumentsContent, Content.write, ih, flatMap_cons, buildArgument_eq,
      xmlEscape_lineBreak, append_assoc]

theorem envelope_startTag (rest : Bytes) :
    startTag (ascii "s") (ascii "Envelope") envelopeAttributes ++ (lineBreak ++ rest) =
      ascii "<s:Envelope xmlns:s=\"http://schemas.xmlsoap.org/soap/envelope/\"" ++
        (ascii " s:encodingStyle=\"http://schemas.xmlsoap.org/soap/encoding/\">\r\n" ++ rest) := by
  have literal : startTag (ascii "s") (ascii "Envelope") envelopeAttributes ++ lineBreak =
      ascii "<s:Envelope xmlns:s=\"http://schemas.xmlsoap.org/soap/envelope/\"" ++
        ascii " s:encodingStyle=\"http://schemas.xmlsoap.org/soap/encoding/\">\r\n" := by
    decide +kernel
  rw [← append_assoc, literal, append_assoc]

/-- The request is the envelope behind the declaration. -/
theorem buildRequest_eq (serviceType action : Bytes) (arguments : List Argument) :
    buildRequest serviceType action arguments =
      declaration ++ ((envelope serviceType action arguments).write ++ lineBreak) := by
  rw [envelope, Node.write, Content.write, bodyNode,
    Node.write, Content.write, Content.write, xmlEscape_lineBreak, actionNode, Node.write,
    argumentsContent_write, buildRequest]
  simp only [append_assoc]
  rw [envelope_startTag]
  simp only [startTag, endTag, append_assoc, cons_append, flatMap_cons, Attribute.write]
  rfl

/-- Every piece of a request within the default limits of a document. -/
structure PiecesFit (serviceType action : Bytes) (arguments : List Argument) : Prop where
  document : (buildRequest serviceType action arguments).length ≤ ({} : Limits).maxDocumentSize
  elements : arguments.length + 3 ≤ ({} : Limits).maxElements
  serviceType : serviceType.length ≤ ({} : Limits).maxTextLength
  action : (qualified (ascii "u") action).length ≤ ({} : Limits).maxNameLength
  names : ∀ argument ∈ arguments, argument.1.length ≤ ({} : Limits).maxNameLength
  values : ∀ argument ∈ arguments, argument.2.length ≤ ({} : Limits).maxTextLength

theorem argumentsContent_size (arguments : List Argument) :
    (argumentsContent arguments).size = arguments.length := by
  induction arguments with
  | nil => rfl
  | cons argument rest ih =>
    rw [argumentsContent, Content.size, Node.size, Content.size, length_cons]
    omega

/-- Line breaks and arguments keep to the limits, behind so much text. -/
theorem argumentsContent_fits {reported : Nat}
    (named : ∀ argument ∈ arguments, isName argument.1 = true)
    (short : ∀ argument ∈ arguments, argument.1.length ≤ ({} : Limits).maxNameLength)
    (values : ∀ argument ∈ arguments, argument.2.length ≤ ({} : Limits).maxTextLength)
    (room : reported + 2 * (arguments.length + 1) ≤ ({} : Limits).maxTextLength) :
    (argumentsContent arguments).Fits {} 3 reported := by
  induction arguments generalizing reported with
  | nil =>
    exact room
  | cons argument rest ih =>
    have first := named argument mem_cons_self
    have tag : TagFits {} 3 (reported + lineBreak.length) [] argument.1 [] := by
      refine ⟨rfl, first, ?_, by decide, Nat.zero_le _, nofun⟩
      exact short argument mem_cons_self
    rw [length_cons] at room
    have two : lineBreak.length = 2 := rfl
    rw [argumentsContent, Content.Fits, Node.Fits, Content.Fits]
    refine ⟨by omega, ⟨tag, ?_⟩, ?_⟩
    · rw [Nat.zero_add]
      exact values argument mem_cons_self
    · apply ih
      · exact fun other among => named other (mem_cons_of_mem _ among)
      · exact fun other among => short other (mem_cons_of_mem _ among)
      · exact fun other among => values other (mem_cons_of_mem _ among)
      · omega

theorem envelopeAttributes_fit : ∀ entry ∈ envelopeAttributes, entry.Fits {} 0 := by
  intro entry among
  rcases mem_cons.mp among with rfl | among
  · exact ⟨by decide, by decide, by decide, by decide⟩
  · rw [mem_singleton.mp among]
    exact ⟨by decide, by decide, by decide, by decide⟩

theorem envelope_tagFits : TagFits {} 0 0 (ascii "s") (ascii "Envelope") envelopeAttributes :=
  ⟨by decide, by decide, by decide, by decide, by decide, envelopeAttributes_fit⟩

theorem body_tagFits : TagFits {} 1 lineBreak.length (ascii "s") (ascii "Body") [] :=
  ⟨by decide, by decide, by decide, by decide, by decide, nofun⟩

/-- The envelope keeps to the limits if the line break in front of the action leaves room
for the service type. -/
theorem envelope_fits {action : Bytes} (named : isName action = true)
    (argumentsNamed : ∀ argument ∈ arguments, isName argument.1 = true)
    (pieces : PiecesFit serviceType action arguments)
    (room : lineBreak.length + serviceType.length ≤ ({} : Limits).maxTextLength) :
    (envelope serviceType action arguments).Fits {} 0 0 := by
  have inner : TagFits {} 2 (0 + lineBreak.length) (ascii "u") action
      [⟨ascii "xmlns", ascii "u", serviceType⟩] := by
    refine ⟨by decide, named, pieces.action, by decide, Nat.le_add_left 1 31, ?_⟩
    intro entry among
    rw [mem_singleton.mp among]
    exact ⟨rfl, rfl, Nat.le_add_left 7 249, by rwa [Nat.zero_add]⟩
  have many := pieces.elements
  have content := argumentsContent_fits argumentsNamed pieces.names pieces.values
    (by
      simp only at many ⊢
      omega : 0 + 2 * (arguments.length + 1) ≤ ({} : Limits).maxTextLength)
  simp only [envelope, bodyNode, Node.Fits, Content.Fits]
  exact ⟨envelope_tagFits, by decide, ⟨body_tagFits, by decide, ⟨inner, content⟩, by decide⟩,
    by decide⟩

/-! ## Reading a request back -/

/-- Arguments as elements of the tree. -/
theorem argumentsContent_children (arguments : List Argument) :
    (argumentsContent arguments).children = arguments.map fun argument =>
      { name := argument.1, text := argument.2 } := by
  induction arguments with
  | nil => rfl
  | cons argument rest ih =>
    rw [argumentsContent, Content.children, ih]
    rfl

/-- The response that is read from the tree of a request. -/
theorem readEnvelope_envelope {action : Bytes} (notFault : action ≠ ascii "Fault") (offset : Nat) :
    readEnvelope { root := some (envelope serviceType action arguments).tree
                   errorOffset := offset } =
      { error := .none
        arguments := arguments.map fun argument => (argument.1, trim argument.2) } := by
  have named : (envelope serviceType action arguments).tree.name = ascii "Envelope" := rfl
  have body : (envelope serviceType action arguments).tree.findChild (ascii "Body") =
      some (bodyNode serviceType action arguments).tree := rfl
  have children : (bodyNode serviceType action arguments).tree.children =
      [(actionNode serviceType action arguments).tree] := rfl
  have faultless : (bodyNode serviceType action arguments).tree.findChild (ascii "Fault") =
      none := by
    have other : ((actionNode serviceType action arguments).tree.name == ascii "Fault") = false :=
      beq_eq_false_iff_ne.mpr notFault
    rw [XmlElement.findChild, children, find?_cons, other, find?_nil]
  have inner : (actionNode serviceType action arguments).tree.children =
      (argumentsContent arguments).children := rfl
  rw [readEnvelope]
  dsimp only
  rw [if_neg (not_not.mpr named), body]
  dsimp only
  rw [faultless, readArguments, children]
  dsimp only
  rw [inner, argumentsContent_children, map_map]
  rfl

/-- The declaration in front of the envelope is skipped. -/
theorem reaches_declaration (limits : Limits) (rest : Bytes) :
    Reaches (XmlParser.turn handlerSink (declaration ++ rest) limits)
      (XmlParser.start (declaration ++ rest) []) { pos := declaration.length, sink := [] } := by
  have seen : At (declaration ++ rest) 0 (60 :: 63 :: (ascii "xml version=\"1.0\"" ++
      63 :: 62 :: (lineBreak ++ rest))) := rfl
  have found : findTextFrom (ascii "?>") (declaration ++ rest) 2 = some 19 := by
    rfl
  have misc : skipMisc (declaration ++ rest) 0 = .ok (true, 21) := by
    rw [skipMisc, show ascii "<!--" = 60 :: 33 :: ascii "--" from rfl,
      seen.lookingAt_second (by decide), if_neg Bool.false_ne_true,
      if_pos (show lookingAt (declaration ++ rest) 0 (ascii "<?") = true from rfl), found]
  have first : XmlParser.turn handlerSink (declaration ++ rest) limits { sink := [] } =
      some (.inl { pos := 21, sink := [] }) := by
    rw [XmlParser.turn, seen.here]
    dsimp only
    rw [if_neg (not_not.mpr rfl), XmlParser.markupTurn,
      show ascii "<![CDATA[" = 60 :: 33 :: ascii "[CDATA[" from rfl,
      seen.lookingAt_second (by decide), if_neg Bool.false_ne_true, misc]
  have blank : At (declaration ++ rest) 21 (lineBreak ++ rest) := rfl
  exact Relation.ReflTransGen.head first (reaches_blank limits { pos := 21, sink := [] }
    lineBreak_blank rfl blank)

/-- A request whose service type leaves room for the line break in front of the action is read
back as a response: the parser holds the service type against the text of the body. -/
theorem parseResponse_of_room {serviceType action : Bytes} {arguments : List Argument}
    (named : isName action = true) (notFault : action ≠ ascii "Fault")
    (argumentsNamed : ∀ argument ∈ arguments, isName argument.1 = true)
    (pieces : PiecesFit serviceType action arguments)
    (room : lineBreak.length + serviceType.length ≤ ({} : Limits).maxTextLength) :
    parseResponse (buildRequest serviceType action arguments) =
      some { error := .none
             arguments := arguments.map fun argument => (argument.1, trim argument.2) } := by
  have fits := envelope_fits named argumentsNamed pieces room
  have small := pieces.document
  have few : (envelope serviceType action arguments).size ≤ ({} : Limits).maxElements := by
    have many := pieces.elements
    simp only [envelope, bodyNode, actionNode, Node.size, Content.size, argumentsContent_size]
    omega
  rw [buildRequest_eq] at small ⊢
  obtain ⟨offset, parsed⟩ := Node.parse_eq small (reaches_declaration {} _) fits few
    lineBreak_blank
  rw [parseResponse, parsed, Option.map_some, readEnvelope_envelope notFault]

/-- How a request goes on up to the service type. -/
theorem buildRequest_front (serviceType action : Bytes) (arguments : List Argument) :
    ∃ rest, buildRequest serviceType action arguments =
      declaration ++ (startTag (ascii "s") (ascii "Envelope") envelopeAttributes ++
        (xmlEscape lineBreak ++ (startTag (ascii "s") (ascii "Body") [] ++
          (xmlEscape lineBreak ++ lessThan :: (qualified (ascii "u") action ++
            space :: (qualified (ascii "xmlns") (ascii "u") ++ equalsSign :: quotationMark ::
              (xmlEscape serviceType ++ quotationMark :: rest))))))) := by
  have inner : ∃ later, (actionNode serviceType action arguments).write =
      lessThan :: (qualified (ascii "u") action ++ space ::
        (qualified (ascii "xmlns") (ascii "u") ++
        equalsSign :: quotationMark :: (xmlEscape serviceType ++ quotationMark :: later))) := by
    rw [actionNode, Node.write, startTag, flatMap_singleton, Attribute.write]
    simp only [append_assoc, cons_append]
    exact ⟨_, rfl⟩
  obtain ⟨later, spelled⟩ := inner
  rw [buildRequest_eq]
  simp only [envelope, bodyNode, Node.write, Content.write]
  rw [spelled]
  simp only [append_assoc, cons_append]
  exact ⟨_, rfl⟩

/-- The attribute of an action whose value has no room behind the text of the body. -/
theorem parseAttributes_refused {text rest : Bytes} {reported pos : Nat}
    (some' : serviceType ≠ [])
    (long : ({} : Limits).maxTextLength < reported + serviceType.length)
    (seen : At text pos (space :: (qualified (ascii "xmlns") (ascii "u") ++
      equalsSign :: quotationMark :: (xmlEscape serviceType ++ quotationMark :: rest)))) :
    ∃ stop, parseAttributes text {} reported pos = some (.error (.sizeExceeded, stop)) := by
  have short : (qualified (ascii "xmlns") (ascii "u")).length ≤ ({} : Limits).maxNameLength := by
    decide
  obtain ⟨stop, value⟩ := parseValue_refused (.inl rfl) seen.next.skip.next.next some' long
  have entry : parseAttribute text {} reported (pos + 1) = _ :=
    parseAttribute_eq (.inl rfl) rfl rfl short seen.next
  rw [value] at entry
  have turned : attributeTurn text {} reported (pos, []) = _ := attributeTurn_eq rfl rfl seen
  rw [entry] at turned
  exact ⟨stop, loop_ends turned⟩

/-- A service type that has room in a value, but not behind the line break, makes the
request unreadable. -/
theorem parseResponse_refused {action : Bytes} (named : isName action = true)
    (pieces : PiecesFit serviceType action arguments)
    (long : ({} : Limits).maxTextLength < lineBreak.length + serviceType.length) :
    parseResponse (buildRequest serviceType action arguments) =
      some { error := .badResponse } := by
  have some' : serviceType ≠ [] := by
    rintro rfl
    exact absurd long (by decide)
  obtain ⟨rest, spelled⟩ := buildRequest_front serviceType action arguments
  have small : ¬ ({} : Limits).maxDocumentSize <
    (buildRequest serviceType action arguments).length := Nat.not_lt.mpr pieces.document
  generalize buildRequest serviceType action arguments = text at spelled small ⊢
  have prolog : Reaches (XmlParser.turn handlerSink text {}) (XmlParser.start text [])
      { pos := declaration.length, sink := [] } := by
    rw [spelled]
    exact reaches_declaration {} _
  obtain ⟨inEnvelope, toEnvelope, seenBody, one, envelopeStack⟩ := XmlParser.reaches_opening {}
    { pos := declaration.length, sink := [] } envelope_tagFits (by decide) (fun _ => rfl)
    (by decide) rfl (At.of_append spelled)
  have envelopeReported : inEnvelope.reported = lineBreak.length := by
    rw [XmlParser.reported, envelopeStack]
  obtain ⟨inBody, toBody, seenAction, two, bodyStack⟩ := XmlParser.reaches_opening {} inEnvelope
    (by
      rw [envelopeReported, envelopeStack]
      exact body_tagFits)
    (by rw [one]; decide)
    (by
      rw [envelopeStack]
      exact fun none => absurd none (cons_ne_nil _ _))
    (by decide) rfl seenBody
  have bodyReported : inBody.reported = lineBreak.length := by
    rw [XmlParser.reported, bodyStack]
  rw [← bodyReported] at long
  obtain ⟨stop, refused⟩ := parseAttributes_refused some' long seenAction.next.skip
  have last := XmlParser.turn_tag {} rfl named pieces.action
    (by rw [two, one]; decide) (by rw [bodyStack, envelopeStack]; decide)
    (by
      rw [bodyStack]
      exact fun none => absurd none (cons_ne_nil _ _))
    seenAction rfl
  rw [refused] at last
  obtain ⟨error, parser, returns, -⟩ := XmlParser.run_folds text {}
  rw [XmlParser.run, if_neg small] at returns
  have result := loop_of_reaches (prolog.trans (toEnvelope.trans toBody)) last returns
  rw [parseResponse, XmlDocument.parse_eq, XmlParser.run, if_neg small, result]
  rfl

/-- A request is read back as a response with the same arguments, each value stripped of
white space, just if the service type leaves room for the line break in front of the
action. -/
theorem parseResponse_buildRequest {serviceType action : Bytes} {arguments : List Argument}
    (named : isName action = true) (notFault : action ≠ ascii "Fault")
    (argumentsNamed : ∀ argument ∈ arguments, isName argument.1 = true)
    (pieces : PiecesFit serviceType action arguments) :
    parseResponse (buildRequest serviceType action arguments) =
        some { error := .none
               arguments := arguments.map fun argument => (argument.1, trim argument.2) } ↔
      lineBreak.length + serviceType.length ≤ ({} : Limits).maxTextLength := by
  refine ⟨fun read => ?_, parseResponse_of_room named notFault argumentsNamed pieces⟩
  by_contra long
  rw [parseResponse_refused named pieces (Nat.not_le.mp long)] at read
  cases read

theorem parseResponse_twoArguments :
    parseResponse (buildRequest (ascii "urn:a&b") (ascii "Get")
      [(ascii "A", ascii "</A><B>"), (ascii "B", ascii " 1 ")]) =
      some
        { error := .none
          arguments := [(ascii "A", ascii "</A><B>"), (ascii "B", ascii "1")] } :=
  (parseResponse_buildRequest (by decide) (by decide) (by decide)
    ⟨by decide +kernel, by decide, by decide, by decide, by decide, by decide⟩).mpr (by decide)

theorem piecesFit_of_length (plain : ∀ c ∈ serviceType, isSpecial c = false)
    (size : serviceType.length = 65535) : PiecesFit serviceType (ascii "A") [] := by
  refine ⟨?_, by decide, ?_, by decide, nofun, nofun⟩
  · rw [buildRequest, xmlEscape_of_plain plain]
    simp only [length_append, size]
    decide +kernel
  · rw [size]
    decide

/-- 65535 bytes, which is within the limit on a value. -/
def longServiceType : Bytes := List.replicate 65535 97

theorem parseResponse_longServiceType :
    isName (ascii "A") = true ∧ ascii "A" ≠ ascii "Fault" ∧
      PiecesFit longServiceType (ascii "A") [] ∧
      parseResponse (buildRequest longServiceType (ascii "A") []) =
        some { error := .badResponse } := by
  have plain : ∀ c ∈ longServiceType, isSpecial c = false := by
    intro c among
    rw [eq_of_mem_replicate among]
    rfl
  have size : longServiceType.length = 65535 := length_replicate
  have pieces := piecesFit_of_length plain size
  refine ⟨by decide, by decide, pieces, parseResponse_refused (by decide) pieces ?_⟩
  rw [size]
  decide

end Soap

end SamuraiFormal.Upnp

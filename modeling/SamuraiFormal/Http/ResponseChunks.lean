import SamuraiFormal.Http.ResponseFraming

/-!
# A body that is cut into chunks

The same body can be sent in few chunks or in many.  The limits on a chunk and on the body do
not see the difference, but `takeLine()` charges the size line in front of a chunk and the
line end behind it to the budget of the header block.  A chunked response is accepted exactly
if its head is, its body is within `maxBody` and all of its lines together are within
`maxHeaderBlock`.
-/

namespace SamuraiFormal.Http

open Util Encoding
open List

/-- A body in chunks, with no trailers behind it. -/
structure Chunked where
  chunks : List Chunk
  last : SizeLine

namespace Chunked

def body (chunked : Chunked) : Bytes := chunked.chunks.flatMap Chunk.data

def encode (chunked : Chunked) : Bytes :=
  chunked.chunks.flatMap Chunk.encode ++ (line chunked.last.text ++ crlf)

/-- The bytes of the lines around the chunks and behind them. -/
def lines (chunked : Chunked) : Nat :=
  (chunked.chunks.map ResponseParser.chunkLines).sum + (line chunked.last.text).length +
    crlf.length

/-- Each line announces its chunk, and no chunk is larger than the limit. -/
structure Valid (limits : Limits) (chunked : Chunked) : Prop where
  each : ∀ chunk ∈ chunked.chunks, chunk.data ≠ [] ∧ chunk.header.Announces chunk.data.length ∧
    chunk.data.length ≤ limits.maxChunkSize
  last : chunked.last.Announces 0

theorem encode_length (chunked : Chunked) :
    chunked.encode.length = chunked.body.length + chunked.lines := by
  rcases chunked with ⟨chunks, last⟩
  induction chunks with
  | nil => simp [encode, body, lines]
  | cons chunk chunks ih =>
    simp only [encode, body, lines, flatMap_cons, map_cons, sum_cons,
      length_append, ResponseParser.chunkLines, Chunk.encode] at ih ⊢
    omega

end Chunked

variable {parser : ResponseParser} {limits : Limits}

namespace ResponseParser

theorem takeLines_full (handle : Bytes → ResponseParser → Verdict ⊕ ResponseParser) {text : Bytes}
    (plain : lineFeed ∉ text) (short : parser.headerBytes + (line text).length < 2 ^ 64)
    (full : parser.limits.maxHeaderBlock < parser.headerBytes + (line text).length) (rest : Bytes) :
    (takeLines handle parser (line text ++ rest)).result = .error := by
  obtain ⟨shape, noFeed⟩ := line_append plain rest
  have length : (line text).length = (text ++ [carriageReturn]).length + 1 := by
    simp [line, crlf]
  rw [length] at short full
  rw [shape, takeLines_eq, takeLine_raw noFeed, Nat.mod_eq_of_lt short]
  by_cases long : parser.limits.maxHeaderBlock < (text ++ [carriageReturn]).length
  · rw [if_pos long]
    rfl
  rw [if_neg long]
  simp only [full]
  rfl

section Chunk

variable {parser : ResponseParser} {header : SizeLine} {size : Nat}

variable (state : parser.state = .bodyChunkSize)
include state

theorem pass_sizeLine_full (announces : header.Announces size)
    (short : parser.headerBytes + (line header.text).length < 2 ^ 64)
    (full : parser.limits.maxHeaderBlock < parser.headerBytes + (line header.text).length)
    (rest : Bytes) : (pass parser (line header.text ++ rest)).result = .error := by
  rw [pass, state]
  exact takeLines_full _ (lineFeed_not_mem_sizeLine announces) short full rest

theorem pass_sizeLine_large (announces : header.Announces size)
    (short : parser.response.body.length + size < 2 ^ 63)
    (large : parser.limits.maxBody < parser.response.body.length + size)
    (room : Room parser (line header.text).length) (rest : Bytes) :
    (pass parser (line header.text ++ rest)).result = .error := by
  have read := parseChunkSize_of_announces (by omega) announces
  have wraps : (parser.response.body.length + size) % 2 ^ 64 =
      parser.response.body.length + size := Nat.mod_eq_of_lt (by omega)
  have line := takeLines_line (fun line parser => .inl (chunkSizeLine line parser))
    (lineFeed_not_mem_sizeLine announces) room rest
  simp only [pass, state]
  rw [parseChunkSize, line]
  simp only [chunkSizeLine, read, counted, wraps]
  split
  · rfl
  · rfl

/-- A size line that is read leaves room for itself and for the chunk. -/
theorem pass_sizeLine_refused (announces : header.Announces size)
    (addressable : parser.limits.maxHeaderBlock < 2 ^ 64)
    (short : parser.response.body.length + size < 2 ^ 63)
    (few : parser.headerBytes + (line header.text).length < 2 ^ 64)
    (refused : ¬ (parser.response.body.length + size ≤ parser.limits.maxBody ∧
      parser.headerBytes + (line header.text).length ≤ parser.limits.maxHeaderBlock))
    (rest : Bytes) : (pass parser (line header.text ++ rest)).result = .error := by
  by_cases full : parser.headerBytes + (line header.text).length ≤ parser.limits.maxHeaderBlock
  · exact pass_sizeLine_large state announces short
      (Nat.not_le.mp fun fits => refused ⟨fits, full⟩) ⟨full, addressable⟩ rest
  · exact pass_sizeLine_full state announces few (Nat.not_le.mp full) rest

end Chunk

theorem parse_chunk_refused (fine : parser.status = .ok) (state : parser.state = .bodyChunkSize)
    {chunk : Chunk} (solid : chunk.data ≠ [])
    (announces : chunk.header.Announces chunk.data.length)
    (small : chunk.data.length ≤ parser.limits.maxChunkSize)
    (addressable : parser.limits.maxHeaderBlock < 2 ^ 64)
    (short : parser.response.body.length + chunk.data.length < 2 ^ 63)
    (few : parser.headerBytes + chunkLines chunk < 2 ^ 64)
    (refused : ¬ (parser.response.body.length + chunk.data.length ≤ parser.limits.maxBody ∧
      parser.headerBytes + chunkLines chunk ≤ parser.limits.maxHeaderBlock)) (rest : Bytes) :
    (parse parser (chunk.encode ++ rest)).result = .error := by
  have input : chunk.encode ++ rest =
      line chunk.header.text ++ (chunk.data ++ (line [] ++ rest)) := by
    simp [Chunk.encode, line]
  have both : chunkLines chunk = (line chunk.header.text).length + (line []).length := rfl
  rw [input]
  by_cases sized : parser.response.body.length + chunk.data.length ≤ parser.limits.maxBody ∧
      parser.headerBytes + (line chunk.header.text).length ≤ parser.limits.maxHeaderBlock
  · -- the size line and the data are read, so it is the line end that is too much
    have positive : chunk.data.length ≠ 0 := by simpa using solid
    have next := pass_sizeLine state announces small short sized.1 ⟨sized.2, addressable⟩
      (chunk.data ++ (line [] ++ rest))
    rw [if_neg positive] at next
    rw [parse_next fine next, parse_chunkData (by exact fine) rfl solid rfl]
    refine parse_error (by exact fine) (takeLines_full _ not_mem_nil ?_ ?_ rest)
    · show parser.headerBytes + (line chunk.header.text).length + (line []).length < 2 ^ 64
      omega
    · show parser.limits.maxHeaderBlock <
        parser.headerBytes + (line chunk.header.text).length + (line []).length
      omega
  · exact parse_error fine (pass_sizeLine_refused state announces addressable short (by omega)
      sized _)

theorem parse_last_refused (fine : parser.status = .ok) (state : parser.state = .bodyChunkSize)
    {last : SizeLine} (announces : last.Announces 0)
    (addressable : parser.limits.maxHeaderBlock < 2 ^ 64)
    (short : parser.response.body.length < 2 ^ 63)
    (few : parser.headerBytes + ((line last.text).length + crlf.length) < 2 ^ 64)
    (refused : ¬ (parser.response.body.length ≤ parser.limits.maxBody ∧
      parser.headerBytes + ((line last.text).length + crlf.length) ≤
        parser.limits.maxHeaderBlock)) (rest : Bytes) :
    (parse parser (line last.text ++ (crlf ++ rest))).result = .error := by
  have blank : crlf.length = (line []).length := rfl
  by_cases sized : parser.response.body.length ≤ parser.limits.maxBody ∧
      parser.headerBytes + (line last.text).length ≤ parser.limits.maxHeaderBlock
  · have next := pass_sizeLine state announces (Nat.zero_le _) short sized.1
      ⟨sized.2, addressable⟩ (crlf ++ rest)
    rw [parse_next fine next]
    refine parse_error (by exact fine) (takeLines_full _ not_mem_nil ?_ ?_ rest)
    · show parser.headerBytes + (line last.text).length + (line []).length < 2 ^ 64
      omega
    · show parser.limits.maxHeaderBlock <
        parser.headerBytes + (line last.text).length + (line []).length
      omega
  · exact parse_error fine (pass_sizeLine_refused state announces addressable short (by omega)
      sized _)

theorem refuses_chunks {chunked : Chunked} (valid : chunked.Valid limits)
    (bounds : parser.limits = limits) (fine : parser.status = .ok)
    (state : parser.state = .bodyChunkSize) (addressable : limits.maxHeaderBlock < 2 ^ 64)
    (short : parser.response.body.length + chunked.body.length < 2 ^ 63)
    (few : parser.headerBytes + chunked.lines < 2 ^ 64)
    (refused : ¬ (parser.response.body.length + chunked.body.length ≤ limits.maxBody ∧
      parser.headerBytes + chunked.lines ≤ limits.maxHeaderBlock)) (rest : Bytes) :
    (parse parser (chunked.encode ++ rest)).result = .error := by
  subst bounds
  rcases chunked with ⟨chunks, last⟩
  -- by induction on the chunks, for the parser that the chunks in front have left
  induction chunks generalizing parser with
  | nil =>
    simp only [Chunked.lines, Chunked.encode,
      map_nil, sum_nil, Nat.zero_add,
      append_assoc] at short few refused ⊢
    exact parse_last_refused fine state valid.last addressable short few refused rest
  | cons chunk chunks ih =>
    obtain ⟨solid, announces, small⟩ := valid.each chunk mem_cons_self
    have input : (Chunked.mk (chunk :: chunks) last).encode ++ rest =
        chunk.encode ++ ((Chunked.mk chunks last).encode ++ rest) := by
      simp [Chunked.encode]
    have body : (Chunked.mk (chunk :: chunks) last).body.length =
        chunk.data.length + (Chunked.mk chunks last).body.length := by
      simp [Chunked.body]
    have lines : (Chunked.mk (chunk :: chunks) last).lines =
        chunkLines chunk + (Chunked.mk chunks last).lines := by
      simp [Chunked.lines, Nat.add_assoc]
    rw [input]
    by_cases first : parser.response.body.length + chunk.data.length ≤ parser.limits.maxBody ∧
        parser.headerBytes + chunkLines chunk ≤ parser.limits.maxHeaderBlock
    · have grown : (parser.pastChunk chunk).response.body.length =
          parser.response.body.length + chunk.data.length := by
        simp [pastChunk, withBody, counted]
      have spent : (parser.pastChunk chunk).headerBytes =
          parser.headerBytes + chunkLines chunk := rfl
      have same : (parser.pastChunk chunk).limits = parser.limits := rfl
      rw [parse_chunk fine state solid announces small (by omega) first.1
        ⟨first.2, addressable⟩]
      refine ih (by exact fine) rfl addressable ?_ ?_ ?_ ?_
      · omega
      · omega
      · exact ⟨fun other member => valid.each other (mem_cons_of_mem _ member), valid.last⟩
      · rw [same]
        omega
    · exact parse_chunk_refused fine state solid announces small addressable (by omega)
        (by omega) first _

/-- A chunked body is accepted exactly if it and all of its lines are within the limits. -/
theorem complete_chunks_iff {chunked : Chunked} (valid : chunked.Valid limits)
    (bounds : parser.limits = limits) (fine : parser.status = .ok)
    (state : parser.state = .bodyChunkSize) (addressable : limits.maxHeaderBlock < 2 ^ 64)
    (short : parser.response.body.length + chunked.body.length < 2 ^ 63)
    (few : parser.headerBytes + chunked.lines < 2 ^ 64) (rest : Bytes) :
    (parse parser (chunked.encode ++ rest)).result = .complete ↔
      parser.response.body.length + chunked.body.length ≤ limits.maxBody ∧
        parser.headerBytes + chunked.lines ≤ limits.maxHeaderBlock := by
  constructor
  · intro complete
    by_contra refused
    rw [refuses_chunks valid bounds fine state addressable short few refused rest] at complete
    cases complete
  · rintro ⟨fits, lines⟩
    have input : chunked.encode ++ rest = chunked.chunks.flatMap Chunk.encode ++
        (line chunked.last.text ++ (([] : List Bytes).flatMap line ++ (crlf ++ rest))) := by
      simp [Chunked.encode]
    have delivered := @delivers_chunks limits parser [] chunked.chunks chunked.last valid.each
      valid.last nofun bounds fine state (by rw [length_append]; exact short)
      (by rw [length_append]; exact fits)
      ⟨by rw [bounds]; exact lines, by rw [bounds]; exact addressable⟩ rest
    rw [input]
    exact delivered.complete

theorem chooseBodyFraming_first_chunked
    (chunked : (codings parser.response.headers.fields).head? = some .chunked) :
    chooseBodyFraming parser =
      if Bodiless parser then complete parser else enter parser .bodyChunkSize := by
  rw [← get_transferEncoding, Option.map_eq_some_iff] at chunked
  obtain ⟨encoding, got, isChunked⟩ := chunked
  have named : iequals (trim encoding) (ascii "chunked") = true := by
    unfold coding at isChunked
    split at isChunked
    · next named => exact named
    split at isChunked
    · cases isChunked
    · cases isChunked
  unfold chooseBodyFraming
  simp only [got, if_pos named]
  rfl

/-- A response in chunks is accepted exactly if its head is and, unless it is not allowed a
body, its body and all of its lines are within the limits. -/
theorem complete_chunked_iff (limits : Limits) (noBody : Bool) {head : Head}
    (isHead : head.IsHead) (isChunked : (codings head.fields).head? = some .chunked)
    {chunked : Chunked} (valid : chunked.Valid limits)
    (addressable : limits.maxHeaderBlock < 2 ^ 64)
    (short : (head.encode ++ chunked.encode).length < 2 ^ 63) :
    (parse (fresh limits noBody) (head.encode ++ chunked.encode)).result = .complete ↔
      Reads limits head ∧ (head.AllowsBody noBody → chunked.body.length ≤ limits.maxBody ∧
        head.encode.length + chunked.lines ≤ limits.maxHeaderBlock) := by
  rw [length_append, Chunked.encode_length] at short
  rcases parse_head limits noBody isHead (by omega) chunked.encode with
    ⟨parser, input, after, accepts, parsed, block⟩ | ⟨refuses, error⟩
  · have start := afterStatus_spec after
    have reads : Reads limits head := (reads_iff noBody).mpr ⟨parser, after, accepts⟩
    have passed : pass parser input =
        (chooseBodyFraming (parser.afterBlock head.lines head.blank)).leaving chunked.encode := by
      rw [pass, start.state]
      exact block
    rw [chooseBodyFraming_first_chunked (by rw [afterBlock_fields after]; exact isChunked)]
      at passed
    rw [parsed, and_iff_right reads, Head.allowsBody_iff after]
    by_cases bodiless : Bodiless parser
    · rw [if_pos (by exact bodiless)] at passed
      rw [parse_complete start.fine passed]
      exact ⟨fun _ may => absurd bodiless may, fun _ => rfl⟩
    rw [if_neg (by exact bodiless)] at passed
    have body : (parser.afterBlock head.lines head.blank).response.body.length = 0 :=
      length_eq_zero_iff.mpr start.empty
    have bytes : (parser.afterBlock head.lines head.blank).headerBytes =
        head.encode.length := by
      rw [encode_length, ← start.bytes]
      rfl
    have chunks := @complete_chunks_iff
      { parser.afterBlock head.lines head.blank with state := .bodyChunkSize } limits chunked
      valid start.limits start.fine rfl addressable (by dsimp only; omega) (by dsimp only; omega) []
    rw [append_nil] at chunks
    rw [parse_next start.fine passed, forall_prop_of_true bodiless]
    refine chunks.trans ?_
    rw [body, bytes, Nat.zero_add]
  · rw [error]
    refine ⟨by simp, ?_⟩
    rintro ⟨reads, _⟩
    obtain ⟨parser, after, accepts⟩ := (reads_iff noBody).mp reads
    exact absurd accepts (refuses parser after)

end ResponseParser

open ResponseParser

/-- How a body is cut into chunks does not decide whether the response is accepted, exactly
if the chunks are not looked at, since the head is refused or allows no body, if the body is
too large, or if the lines of both encodings are within the header block's budget or those
of neither. -/
theorem chunking_irrelevant (limits : Limits) (noBody : Bool) {head : Head}
    (isHead : head.IsHead) (isChunked : (codings head.fields).head? = some .chunked)
    {first second : Chunked} (same : first.body = second.body)
    (valid : first.Valid limits ∧ second.Valid limits)
    (short : (head.encode ++ first.encode).length < 2 ^ 63 ∧
      (head.encode ++ second.encode).length < 2 ^ 63)
    (addressable : limits.maxHeaderBlock < 2 ^ 64) :
    ((parse (fresh limits noBody) (head.encode ++ first.encode)).result = .complete ↔
        (parse (fresh limits noBody) (head.encode ++ second.encode)).result = .complete) ↔
      (Reads limits head → head.AllowsBody noBody → first.body.length ≤ limits.maxBody →
        (head.encode.length + first.lines ≤ limits.maxHeaderBlock ↔
          head.encode.length + second.lines ≤ limits.maxHeaderBlock)) := by
  rw [complete_chunked_iff limits noBody isHead isChunked valid.1 addressable short.1,
    complete_chunked_iff limits noBody isHead isChunked valid.2 addressable short.2, ← same]
  tauto

/-- A size line of digits only. -/
def bareSize (digits : Bytes) : SizeLine := ⟨digits, [], none⟩

theorem bareSize_announces {digits : Bytes} {size : Nat} (isSize : IsHexadecimal digits size) :
    (bareSize digits).Announces size :=
  ⟨isSize, nofun, nofun⟩

/-- The body cut into single bytes. -/
def singleBytes (body : Bytes) : Chunked :=
  ⟨body.map fun byte => ⟨bareSize (ascii "1"), [byte]⟩, bareSize (ascii "0")⟩

/-- A body of six bytes as one chunk. -/
def oneChunk (body : Bytes) : Chunked := ⟨[⟨bareSize (ascii "6"), body⟩], bareSize (ascii "0")⟩

theorem singleBytes_valid (some' : 1 ≤ limits.maxChunkSize) (body : Bytes) :
    (singleBytes body).Valid limits := by
  have none' : IsHexadecimal (ascii "0") 0 := ⟨by decide, rfl⟩
  have one : IsHexadecimal (ascii "1") 1 := ⟨by decide, rfl⟩
  refine ⟨?_, bareSize_announces none'⟩
  intro chunk member
  obtain ⟨byte, _, rfl⟩ := mem_map.mp member
  exact ⟨cons_ne_nil _ _, bareSize_announces one, some'⟩

theorem oneChunk_valid {body : Bytes} (length : body.length = 6) (fits : 6 ≤ limits.maxChunkSize) :
    (oneChunk body).Valid limits := by
  have none' : IsHexadecimal (ascii "0") 0 := ⟨by decide, rfl⟩
  have six : IsHexadecimal (ascii "6") 6 := ⟨by decide, rfl⟩
  refine ⟨?_, bareSize_announces none'⟩
  intro chunk member
  have solid : body ≠ [] := ne_nil_of_length_pos (by omega)
  rw [← length] at six fits
  rw [mem_singleton.mp member]
  exact ⟨solid, bareSize_announces six, fits⟩

def chunkedExample : Head := exampleHead [ascii "Transfer-Encoding: chunked\r"]

theorem chunking_irrelevant_default :
    (parse (fresh {} false) (chunkedExample.encode ++
        (oneChunk (ascii "abcdef")).encode)).result = .complete ↔
      (parse (fresh {} false) (chunkedExample.encode ++
        (singleBytes (ascii "abcdef")).encode)).result = .complete :=
  (chunking_irrelevant {} false ⟨by decide, by decide, by decide⟩ (by decide) (by decide)
    ⟨oneChunk_valid (by decide) (by decide), singleBytes_valid (by decide) _⟩
    ⟨by decide, by decide⟩ (by decide)).mpr fun _ _ _ => by decide

/-- With a header block of sixty bytes, six bytes are accepted as one chunk and refused as
six, although each size line has three bytes. -/
theorem chunking_decides :
    let limits : Limits := { maxHeaderBlock := 60 }
    let first := oneChunk (ascii "abcdef")
    let second := singleBytes (ascii "abcdef")
    first.body = second.body ∧ first.Valid limits ∧ second.Valid limits ∧
      (parse (fresh limits false) (chunkedExample.encode ++ first.encode)).result = .complete ∧
      (parse (fresh limits false) (chunkedExample.encode ++ second.encode)).result = .error := by
  refine ⟨by decide, oneChunk_valid (by decide) (by decide),
    singleBytes_valid (by decide) _, ?_, ?_⟩
  · decide +kernel
  · decide +kernel

end SamuraiFormal.Http

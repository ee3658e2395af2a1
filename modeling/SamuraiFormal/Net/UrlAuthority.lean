import SamuraiFormal.Net.UrlParts

/-!
# The authority of a URL, written again

`resolve()` writes the authority of its base from the members and has the text parsed.
Exactly the authorities described here are read back as they were.
-/

namespace SamuraiFormal.Net

open Util
open List

variable {text rest : Bytes}

namespace Components

variable {parts : Components} {authority : Bytes}

/-! ## Writing the authority -/

/-- The members that `resolve()` can write so that they are read back. -/
def Rewritable (parts : Components) : Prop :=
  if colon ∈ parts.hostname then
    ∀ c ∈ parts.zone, isDelimiter c = false ∧ c ≠ 64 ∧ c ≠ 93 ∧ c ≠ 37
  else parts.zone = [] ∧ parts.hostname.head? ≠ some 91

instance (parts : Components) : Decidable parts.Rewritable :=
  inferInstanceAs (Decidable (if colon ∈ parts.hostname then _ else _))

/-- The user information, the host and the port as they are written. -/
def userText (parts : Components) : Bytes :=
  if parts.username ≠ [] ∨ parts.password ≠ [] then
    parts.username ++ (if parts.password ≠ [] then colon :: parts.password else []) ++ [64]
  else []

def hostText (parts : Components) : Bytes :=
  if colon ∈ parts.hostname then
    91 :: parts.hostname ++ (if parts.zone ≠ [] then ascii "%25" ++ parts.zone else []) ++ [93]
  else parts.hostname

def portText (parts : Components) : Bytes :=
  if parts.port ≠ 0 then colon :: numberText 10 parts.port.toNat else []

theorem baseAuthority_eq (parts : Components) :
    Url.baseAuthority parts = parts.userText ++ parts.hostText ++ parts.portText := rfl

theorem percentDecode_plain (plain : (37 : UInt8) ∉ text) : percentDecode text = (text, true) := by
  induction text with
  | nil => rfl
  | cons c rest ih =>
    have other : c ≠ 37 := fun same => plain (same ▸ mem_cons_self)
    have read := ih fun there => plain (mem_cons_of_mem _ there)
    rw [percentDecode_cons other, read]

theorem readPort_portText (target : Components) (port : UInt16) (zero : target.port = 0) :
    target.readPort (if port ≠ 0 then some (numberText 10 port.toNat) else none) =
      .ok { target with port := port } := by
  split
  case isTrue positive => rw [readPort, toUInt16_numberText, if_neg positive]
  case isFalse none =>
    have same : port = target.port := (not_not.mp none).trans zero.symm
    rw [same]
    rfl

theorem readHost_written (target : Components) (empty : target.zone = [])
    (recorded : parts.Recorded)
    (named : parts.hostname ≠ []) (rewritable : parts.Rewritable) :
    target.readHost (parts.hostText ++ parts.portText) =
      .ok ({ target with hostname := parts.hostname, zone := parts.zone },
        if parts.port ≠ 0 then some (numberText 10 parts.port.toNat) else none) := by
  rw [Rewritable] at rewritable
  have unzoned (none : parts.zone = []) :
      { target with hostname := parts.hostname, zone := parts.zone } =
        { target with hostname := parts.hostname } := by
    rw [none, ← empty]
  by_cases literal : colon ∈ parts.hostname
  · rw [if_pos literal] at rewritable
    obtain ⟨noClose, noPercent⟩ := recorded.bracketed (.inl literal)
    obtain ⟨inner, written, innerClear, zoned⟩ : ∃ inner,
        parts.hostText = 91 :: inner ++ [93] ∧ (93 : UInt8) ∉ inner ∧
          target.readZone inner =
            .ok { target with hostname := parts.hostname, zone := parts.zone } := by
      by_cases zone : parts.zone = []
      · refine ⟨parts.hostname, ?_, noClose, ?_⟩
        · rw [hostText, if_pos literal, if_neg (not_not.mpr zone), append_nil]
        · rw [readZone, splitOnce_eq_none.mpr noPercent, unzoned zone]
      have plain : (37 : UInt8) ∉ parts.zone := fun there => (rewritable _ there).2.2.2 rfl
      have closed : (93 : UInt8) ∉ parts.zone := fun there => (rewritable _ there).2.2.1 rfl
      refine ⟨parts.hostname ++ 37 :: (ascii "25" ++ parts.zone), ?_, ?_, ?_⟩
      · rw [hostText, if_pos literal, if_pos zone]
        rfl
      · rw [mem_append, mem_cons, mem_append]
        rintro (there | same | there | there)
        · exact noClose there
        · exact absurd same (by decide)
        · exact absurd there (by decide)
        · exact closed there
      · have front : (ascii "25" ++ parts.zone).take 2 = ascii "25" := rfl
        have back : (ascii "25" ++ parts.zone).drop 2 = parts.zone := rfl
        rw [readZone, splitOnce_append_cons noPercent]
        dsimp only
        rw [if_neg named, if_pos front, back, percentDecode_plain plain]
        simp [zone]
    have text : parts.hostText ++ parts.portText = (91 :: inner) ++ 93 :: parts.portText := by
      rw [written, append_assoc, singleton_append]
    have found : find ((91 :: inner) ++ 93 :: parts.portText) 93 = some (inner.length + 1) := by
      apply find_append_cons
      rw [mem_cons]
      rintro (same | there)
      · exact absurd same (by decide)
      · exact innerClear there
    have inside : (((91 :: inner) ++ 93 :: parts.portText).drop 1).take (inner.length + 1 - 1) =
        inner := take_left
    have behind : ((91 :: inner) ++ 93 :: parts.portText).drop (inner.length + 1 + 1) =
        parts.portText := by simp
    have opens : ((91 :: inner) ++ 93 :: parts.portText).head? = some 91 := rfl
    rw [text, readHost, if_pos opens, found]
    dsimp only
    rw [inside, zoned]
    rw [behind, portText]
    by_cases zero : parts.port = 0
    · simp only [zero, ne_eq, not_true_eq_false, if_false]
    · simp only [zero, ne_eq, not_false_eq_true, if_true]
  · rw [if_neg literal] at rewritable
    obtain ⟨c, more, host⟩ := exists_cons_of_ne_nil named
    have plain : (parts.hostname ++ parts.portText).head? ≠ some 91 := by
      rw [host] at rewritable ⊢
      exact rewritable.2
    rw [hostText, if_neg literal, readHost, if_neg plain, portText, unzoned rewritable.1]
    by_cases positive : parts.port ≠ 0
    · have digits : colon ∉ numberText 10 parts.port.toNat := fun there =>
        absurd (isDigit_of_mem_numberText there) (by decide)
      rw [if_pos positive, if_pos positive, splitOnce_append_cons literal]
      exact if_neg digits
    · rw [if_neg positive, if_neg positive, append_nil, splitOnce_eq_none.mpr literal]

theorem readUserinfo_written (target : Components) (empty : target.username = [])
    (empty' : target.password = []) (recorded : parts.Recorded) (outside : (64 : UInt8) ∉ rest) :
    target.readUserinfo (parts.userText ++ rest) =
      ({ target with username := parts.username, password := parts.password }, rest) := by
  rw [userText]
  split
  case isFalse none =>
    rw [not_or, not_not, not_not] at none
    have user : parts.username = target.username := none.1.trans empty.symm
    have secret : parts.password = target.password := none.2.trans empty'.symm
    rw [nil_append, readUserinfo, rfind_eq_none.mpr outside, user, secret]
  case isTrue =>
    obtain ⟨info, written, cut⟩ : ∃ info,
        parts.username ++ (if parts.password ≠ [] then colon :: parts.password else []) = info ∧
          (cutAt info colon).1 = parts.username ∧
          (cutAt info colon).2.getD [] = parts.password := by
      refine ⟨_, rfl, ?_⟩
      split
      case isTrue =>
        rw [cutAt_append_cons recorded.username.1]
        exact ⟨rfl, rfl⟩
      case isFalse none =>
        rw [append_nil, cutAt_of_notMem recorded.username.1]
        exact ⟨rfl, (not_not.mp none).symm⟩
    have behind : (info ++ 64 :: rest).drop (info.length + 1) = rest := by simp
    rw [written, append_assoc, singleton_append, readUserinfo, rfind_append_cons outside]
    dsimp only
    rw [take_left, behind, cut.1, cut.2]

/-- What is said of the bytes of a host and a port, from what is said of their parts. -/
theorem forall_mem_hostText (good : UInt8 → Prop) (host : ∀ c ∈ parts.hostname, good c)
    (zone : colon ∈ parts.hostname → ∀ c ∈ parts.zone, good c)
    (marks : ∀ c ∈ ascii "[]%25:", good c) (digits : ∀ c, isDigit c = true → good c) :
    ∀ c ∈ parts.hostText ++ parts.portText, good c := by
  have ported : ∀ c ∈ parts.portText, good c := by
    intro c among
    rw [portText] at among
    split at among
    · rcases mem_cons.mp among with rfl | there
      · exact marks colon (by decide)
      · exact digits c (isDigit_of_mem_numberText there)
    · cases among
  intro c among
  rcases mem_append.mp among with there | there
  · rw [hostText] at there
    split at there
    case isTrue literal =>
      rw [cons_append, cons_append, mem_cons, mem_append, mem_append,
        mem_singleton] at there
      rcases there with rfl | (there | there) | rfl
      · exact marks 91 (by decide)
      · exact host c there
      · split at there
        · rcases mem_append.mp there with mark | there
          · exact marks c (List.Subset.trans (by decide) (List.Subset.refl _) mark)
          · exact zone literal c there
        · cases there
      · exact marks 93 (by decide)
    case isFalse => exact host c there
  · exact ported c there

/-- A zone that is written neither ends the authority nor the user information. -/
def CleanZone (parts : Components) : Prop :=
  colon ∈ parts.hostname → ∀ c ∈ parts.zone, isDelimiter c = false ∧ c ≠ 64

theorem Rewritable.clean (rewritable : parts.Rewritable) : parts.CleanZone := by
  intro literal c among
  rw [Rewritable, if_pos literal] at rewritable
  exact ⟨(rewritable c among).1, (rewritable c among).2.1⟩

theorem noAt_hostText (recorded : parts.Recorded) (clean : parts.CleanZone) :
    (64 : UInt8) ∉ parts.hostText ++ parts.portText := by
  intro there
  refine forall_mem_hostText (fun c => c ≠ 64) ?_ (fun literal c among => (clean literal c among).2)
    (by decide) ?_ 64 there rfl
  · rintro c among rfl
    exact recorded.hostname.1 among
  · rintro c decimal rfl
    exact absurd decimal (by decide)

theorem noDelimiter_authority (recorded : parts.Recorded) (clean : parts.CleanZone) :
    NoDelimiter (Url.baseAuthority parts) := by
  intro c among
  rw [baseAuthority_eq, append_assoc] at among
  rcases mem_append.mp among with there | there
  · rw [userText] at there
    split at there
    · rw [mem_append, mem_append, mem_singleton] at there
      rcases there with (there | there) | rfl
      · exact recorded.username.2 c there
      · split at there
        · rcases mem_cons.mp there with rfl | there
          · rfl
          · exact recorded.password c there
        · cases there
      · rfl
    · cases there
  · refine forall_mem_hostText (fun c => isDelimiter c = false) recorded.hostname.2
      (fun literal c among => (clean literal c among).1) (by decide) ?_ c there
    intro c decimal
    by_contra delimiter
    rw [Bool.not_eq_false, isDelimiter, Bool.or_eq_true, Bool.or_eq_true, beq_iff_eq, beq_iff_eq,
      beq_iff_eq] at delimiter
    rcases delimiter with (rfl | rfl) | rfl <;> exact absurd decimal (by decide)

/-- The written authority ends where the path starts, and its user information is read back. -/
theorem front_written (recorded : parts.Recorded) (clean : parts.CleanZone) {tail : Bytes}
    (starts : tail.head? = some slash) :
    ({ scheme := parts.scheme } : Components).readUserinfo
        ((Url.baseAuthority parts ++ tail).takeWhile fun c => !isDelimiter c) =
      ({ scheme := parts.scheme, username := parts.username, password := parts.password },
        parts.hostText ++ parts.portText) ∧
      (Url.baseAuthority parts ++ tail).dropWhile (fun c => !isDelimiter c) = tail := by
  obtain ⟨rest, rfl⟩ : ∃ rest, tail = slash :: rest := by
    cases tail with
    | nil => cases starts
    | cons c rest =>
      cases starts
      exact ⟨rest, rfl⟩
  have pass : ∀ c ∈ Url.baseAuthority parts, (!isDelimiter c) = true := by
    intro c among
    rw [noDelimiter_authority recorded clean c among]
    rfl
  have front : (Url.baseAuthority parts ++ slash :: rest).takeWhile (fun c => !isDelimiter c) =
      Url.baseAuthority parts := by
    rw [takeWhile_append_of_pos pass]
    exact append_nil _
  have back : (Url.baseAuthority parts ++ slash :: rest).dropWhile (fun c => !isDelimiter c) =
      slash :: rest := by
    rw [dropWhile_append_of_pos pass]
    rfl
  have user := readUserinfo_written { scheme := parts.scheme } rfl rfl recorded
    (noAt_hostText recorded clean)
  rw [← append_assoc] at user
  rw [front]
  exact ⟨user, back⟩

theorem colon_notMem_scheme {scheme : Bytes} (shaped : isScheme scheme = true) :
    colon ∉ scheme := by
  intro there
  cases scheme with
  | nil => cases there
  | cons first rest =>
    rw [isScheme, Bool.and_eq_true, all_eq_true] at shaped
    rcases mem_cons.mp there with rfl | there
    · exact absurd shaped.1 (by decide)
    · exact absurd (shaped.2 colon there) (by decide)

/-- The scheme and the authority alone. -/
def bare (parts : Components) : Components where
  scheme := parts.scheme
  hostname := parts.hostname
  zone := parts.zone
  port := parts.port
  username := parts.username
  password := parts.password

/-- A URL with a scheme is what follows it is read as. -/
theorem parse_scheme {scheme : Bytes} (shaped : isScheme scheme = true)
    (lower : scheme.map asciiLower = scheme) {whole : Components}
    (read : ({ scheme := scheme } : Components).readAuthority text = .ok whole ∨
      ({ scheme := scheme } : Components).readAuthority text = .error whole) :
    parse (scheme ++ colon :: (ascii "//" ++ text)) = whole := by
  have slashes : (ascii "//" ++ text).take 2 = ascii "//" := rfl
  have behind : (ascii "//" ++ text).drop 2 = text := rfl
  have cut := splitOnce_append_cons (colon_notMem_scheme shaped) (ascii "//" ++ text)
  have passes : ¬((!true) = true ∨ ascii "//" ≠ ascii "//") := by decide
  rcases read with read | read
  all_goals simp only [parse, cut, lower, shaped, slashes, behind, if_neg passes, read]

/-- The authority that is written is the authority that is read. -/
theorem parse_written (recorded : parts.Recorded) (named : parts.hostname ≠ [])
    (rewritable : parts.Rewritable) {tail : Bytes} (starts : tail.head? = some slash) :
    parse (parts.scheme ++ colon :: (ascii "//" ++ Url.baseAuthority parts ++ tail)) =
      parts.bare.readPath tail := by
  obtain ⟨user, back⟩ := front_written recorded rewritable.clean starts
  have host := readHost_written
    { scheme := parts.scheme, username := parts.username, password := parts.password } rfl recorded
    named rewritable
  have port := readPort_portText { parts.bare with port := 0 } parts.port rfl
  have read : ({ scheme := parts.scheme } : Components).readAuthority
      (Url.baseAuthority parts ++ tail) = .ok (parts.bare.readPath tail) := by
    rw [readAuthority, user]
    dsimp only
    rw [host]
    dsimp only
    rw [bare] at port
    rw [port, back]
    rfl
  rw [append_assoc, parse_scheme recorded.scheme recorded.lower (.inl read)]

/-- The zone was in brackets, behind a percent sign. -/
theorem readHost_zoned {target named : Components} {port : Option Bytes}
    (read : target.readHost authority = .ok (named, port)) (empty : target.zone = [])
    (zoned : named.zone ≠ []) :
    ∃ encoded rest, authority = 91 :: named.hostname ++ 37 :: encoded ++ 93 :: rest ∧
      (93 : UInt8) ∉ encoded ∧
      percentDecode (if encoded.take 2 = ascii "25" then encoded.drop 2 else encoded) =
        (named.zone, true) := by
  have hosted := readHost_hosted target authority
  rw [read] at hosted
  cases hosted with
  | plain => exact absurd empty zoned
  | literal inner back noClose named =>
    cases named with
    | bare => exact absurd empty zoned
    | zone noPercent decoded =>
      exact ⟨_, _, rfl, fun there => noClose (mem_append_right _ (mem_cons_of_mem _ there)),
        decoded⟩

theorem percentDecode_length (text : Bytes) :
    (percentDecode text).1.length ≤ text.length ∧
      ((37 : UInt8) ∈ text → (percentDecode text).1.length < text.length) := by
  fun_induction percentDecode text with
  | case1 => exact ⟨Nat.le_refl _, by simp⟩
  | case2 high low rest hi lo readHigh readLow decoded fine eq ih =>
    rw [eq] at ih
    simp only [length_cons] at ih ⊢
    exact ⟨by omega, fun _ => by omega⟩
  | case3 | case4 => exact ⟨Nat.zero_le _, fun _ => Nat.succ_pos _⟩
  | case5 c rest _ other decoded fine eq ih =>
    rw [eq] at ih
    refine ⟨Nat.succ_le_succ ih.1, ?_⟩
    intro there
    rcases mem_cons.mp there with same | there
    · exact absurd same.symm other
    · exact Nat.succ_lt_succ (ih.2 there)

/-- What is read with a zone was written with it. -/
theorem readAuthority_zoned {target whole : Components} (empty : target.zone = [])
    (noName : target.username = []) (noPassword : target.password = [])
    (read : target.readAuthority text = .ok whole) (zoned : whole.zone ≠ []) :
    ∃ front encoded rest, text = front ++ (91 :: whole.hostname ++ 37 :: encoded ++ 93 :: rest) ∧
      UserForm whole.username whole.password front ∧ (93 : UInt8) ∉ encoded ∧
      (64 : UInt8) ∉ encoded ∧ NoDelimiter encoded ∧
      percentDecode (if encoded.take 2 = ascii "25" then encoded.drop 2 else encoded) =
        (whole.zone, true) := by
  obtain ⟨username, password, front, authority, named, port, number, split, outside, -, form, host,
    rfl⟩ := readAuthority_ok noName noPassword read
  have clear := (split ▸ noDelimiter_takeWhile text).subset (subset_append_right _ _)
  obtain ⟨encoded, rest, rfl, noClose, decoded⟩ := readHost_zoned host empty zoned
  have sub : encoded ⊆ 91 :: named.hostname ++ 37 :: encoded ++ 93 :: rest := fun c there =>
    mem_append_left _ (mem_append_right _ (mem_cons_of_mem _ there))
  obtain ⟨hostname, zone, rfl, -⟩ := readHost_spec outside clear host
  refine ⟨front, encoded, rest ++ text.dropWhile (fun c => !isDelimiter c), ?_, form, noClose,
    fun there => outside (sub there), clear.subset sub, decoded⟩
  calc text =
        text.takeWhile (fun c => !isDelimiter c) ++ text.dropWhile (fun c => !isDelimiter c) :=
        takeWhile_append_dropWhile.symm
    _ = front ++ (91 :: hostname ++ 37 :: encoded ++ 93 :: rest) ++
          text.dropWhile (fun c => !isDelimiter c) := congrArg (· ++ _) split
    _ = front ++ (91 :: hostname ++ 37 :: encoded ++
          93 :: (rest ++ text.dropWhile (fun c => !isDelimiter c))) := by
        simp only [append_assoc, cons_append]

/-- Where a bracket follows, there is one text for a user name and a password. -/
theorem userText_unique {front more : Bytes} (form : UserForm parts.username parts.password front)
    (same : front ++ 91 :: more = parts.userText ++ 91 :: rest) : front = parts.userText := by
  rw [userText] at same ⊢
  cases form with
  | absent noName noPassword => rw [noName, noPassword]; rfl
  | name noPassword =>
    rw [noPassword] at same ⊢
    by_cases noName : parts.username = []
    · rw [noName] at same
      cases same
    · rw [if_pos (.inl noName)]
      simp
  | both =>
    by_cases noPassword : parts.password = []
    · rw [noPassword] at same
      by_cases noName : parts.username = []
      · rw [noName] at same
        cases same
      rw [if_pos (.inl noName)] at same
      simp only [append_assoc,
        append_cancel_left_eq] at same
      cases same
    · rw [if_pos (.inr noPassword), if_pos noPassword]

/-- What ends at a byte it lacks ends no later than any other text in front of that byte. -/
theorem prefix_of_append_cons {encoded more : Bytes} {c : UInt8} (missing : c ∉ encoded)
    (same : encoded ++ c :: rest = text ++ c :: more) : encoded <+: text := by
  rcases append_eq_append_iff.mp same with ⟨back, split, -⟩ | ⟨back, split, tail⟩
  · exact ⟨back, split.symm⟩
  cases back with
  | nil =>
    rw [append_nil] at split
    exact ⟨[], by rw [split, append_nil]⟩
  | cons b back =>
    cases tail
    rw [split] at missing
    exact absurd (mem_append_right _ mem_cons_self) missing

/-- A zone that is read back as it was written has no byte that is taken for something else. -/
theorem zone_of_decoded {zone encoded more : Bytes} (zoned : zone ≠ [])
    (noClose : (93 : UInt8) ∉ encoded)
    (same : encoded ++ 93 :: rest = ascii "25" ++ zone ++ 93 :: more)
    (decoded : percentDecode (if encoded.take 2 = ascii "25" then encoded.drop 2 else encoded) =
      (zone, true)) : encoded = ascii "25" ++ zone ∧ (37 : UInt8) ∉ zone := by
  obtain ⟨back, whole⟩ := prefix_of_append_cons noClose same
  -- the closing bracket is not one of the first two bytes
  obtain ⟨kept, rfl⟩ : ∃ kept, encoded = ascii "25" ++ kept := by
    match encoded, whole, same with
    | [], _, same => cases same
    | [c], _, same => cases same
    | c :: d :: kept, whole, _ =>
      cases whole
      exact ⟨kept, rfl⟩
  have front : (ascii "25" ++ kept).take 2 = ascii "25" := rfl
  have tail : (ascii "25" ++ kept).drop 2 = kept := rfl
  rw [if_pos front, tail] at decoded
  rw [append_assoc, append_cancel_left_eq] at whole
  obtain ⟨short, shorter⟩ := percentDecode_length kept
  rw [decoded] at short shorter
  have size := congrArg List.length whole
  rw [length_append] at size
  have nothing : back = [] := length_eq_zero_iff.mp (by dsimp only at short; omega)
  rw [nothing, append_nil] at whole
  subst whole
  exact ⟨rfl, fun there => absurd (shorter there) (Nat.lt_irrefl _)⟩

/-- The scheme and the whole authority agree. -/
structure SameAuthority (parts other : Components) : Prop where
  scheme : parts.scheme = other.scheme
  username : parts.username = other.username
  password : parts.password = other.password
  hostname : parts.hostname = other.hostname
  zone : parts.zone = other.zone
  port : parts.port = other.port

instance (parts other : Components) : Decidable (SameAuthority parts other) :=
  decidable_of_iff (parts.scheme = other.scheme ∧ parts.username = other.username ∧
      parts.password = other.password ∧ parts.hostname = other.hostname ∧
      parts.zone = other.zone ∧ parts.port = other.port)
    ⟨fun ⟨scheme, username, password, hostname, zone, port⟩ =>
        ⟨scheme, username, password, hostname, zone, port⟩,
      fun same =>
        ⟨same.scheme, same.username, same.password, same.hostname, same.zone, same.port⟩⟩

/-- Whatever is read back as the same authority could be written. -/
theorem rewritable_of_read (recorded : parts.Recorded) (named : parts.hostname ≠ []) {tail : Bytes}
    (starts : tail.head? = some slash) {whole : Components}
    (read : parse (parts.scheme ++ colon ::
      (ascii "//" ++ Url.baseAuthority parts ++ tail)) = whole)
    (valid : whole.valid = true) (same : SameAuthority whole parts) : parts.Rewritable := by
  have accepted : ({ scheme := parts.scheme } : Components).readAuthority
      (Url.baseAuthority parts ++ tail) = .ok whole := by
    rw [append_assoc] at read
    cases result : ({ scheme := parts.scheme } : Components).readAuthority
        (Url.baseAuthority parts ++ tail) with
    | error refused =>
      rw [parse_scheme recorded.scheme recorded.lower (.inr result)] at read
      subst read
      rw [readAuthority_refused rfl rfl rfl result] at valid
      cases valid
    | ok other =>
      rw [parse_scheme recorded.scheme recorded.lower (.inl result)] at read
      rw [read]
  rw [Rewritable]
  split
  case isTrue literal =>
    by_cases zoned : parts.zone = []
    · rw [zoned]
      nofun
    obtain ⟨front, encoded, rest, text, form, noClose, noAt, clear, decoded⟩ :=
      readAuthority_zoned rfl rfl rfl accepted (by rwa [same.zone])
    rw [same.username, same.password] at form
    rw [same.hostname] at text
    rw [same.zone] at decoded
    have written : Url.baseAuthority parts ++ tail = parts.userText ++ 91 :: (parts.hostname ++
        37 :: (ascii "25" ++ parts.zone ++ 93 :: (parts.portText ++ tail))) := by
      rw [baseAuthority_eq, hostText, if_pos literal, if_pos zoned]
      simp only [append_assoc]
      rfl
    rw [written] at text
    simp only [append_assoc, cons_append] at text
    have front' := userText_unique form text.symm
    subst front'
    simp only [append_cancel_left_eq, List.cons.injEq, true_and] at text
    obtain ⟨rfl, noPercent⟩ := zone_of_decoded zoned noClose
      (by rw [append_assoc]; exact text.symm) decoded
    intro c there
    have there' := mem_append_right (ascii "25") there
    refine ⟨clear c there', ?_, ?_, ?_⟩
    · rintro rfl
      exact noAt there'
    · rintro rfl
      exact noClose there'
    · rintro rfl
      exact noPercent there
  case isFalse plain =>
    have bracket : parts.hostname.head? ≠ some 91 := by
      intro opened
      -- a bracket is opened that nothing closes
      have unclosed : (93 : UInt8) ∉ parts.hostname ++ parts.portText := by
        intro there
        rcases mem_append.mp there with there | there
        · exact (recorded.bracketed (.inr opened)).1 there
        rw [portText] at there
        split at there
        · rcases mem_cons.mp there with mark | there
          · exact absurd mark (by decide)
          · exact absurd (isDigit_of_mem_numberText there) (by decide)
        · cases there
      have opened' : (parts.hostname ++ parts.portText).head? = some 91 := by
        rw [head?_append, opened]
        rfl
      obtain ⟨user, -⟩ := front_written recorded (fun literal => absurd literal plain) starts
      have refused (target : Components) :
          target.readHost (parts.hostname ++ parts.portText) = .error target := by
        rw [readHost, if_pos opened', find_eq_none.mpr unclosed]
      simp only [readAuthority, user, hostText, if_neg plain, refused] at accepted
      cases accepted
    refine ⟨?_, bracket⟩
    have unzoned := @parse_written { parts with zone := [] }
      { scheme := recorded.scheme, lower := recorded.lower, username := recorded.username,
        password := recorded.password, hostname := recorded.hostname,
        bracketed := recorded.bracketed, path := recorded.path, query := recorded.query } named
      (by rw [Rewritable, if_neg plain]; exact ⟨rfl, bracket⟩) tail starts
    have written : Url.baseAuthority { parts with zone := [] } = Url.baseAuthority parts := by
      rw [baseAuthority_eq, baseAuthority_eq, hostText, hostText, if_neg plain, if_neg plain]
      rfl
    rw [written, read] at unzoned
    rw [← same.zone, unzoned]
    rfl

end Components

namespace Url

theorem removeDotSegments_head {path : Bytes} (rooted : path.head? = some slash) :
    (removeDotSegments path).head? = some slash := by
  rw [removeDotSegments, rooted]
  rfl

theorem mergePaths_head {basePath : Bytes} (rooted : basePath.head? = some slash) (authority : Bool)
    (reference : Bytes) : (mergePaths basePath authority reference).head? = some slash := by
  cases basePath with
  | nil => cases rooted
  | cons c rest =>
    cases rooted
    rw [mergePaths, if_neg (by simp)]
    cases last : rfind (slash :: rest) slash with
    | none => exact absurd mem_cons_self (rfind_eq_none.mp last)
    | some position => rfl

/-- What a reference selects that has no authority of its own. -/
theorem selectTarget_relative {base : Components} (recorded : base.Recorded)
    (named : base.hostname ≠ []) {reference : Bytes} (noNetwork : reference.take 2 ≠ ascii "//") :
    (selectTarget base reference).authority = some (baseAuthority base) ∧
      (selectTarget base reference).path.head? = some slash := by
  have start : (cutAt (cutAt reference 35).1 63).1.take 2 ≠ ascii "//" := by
    intro doubled
    obtain ⟨back, whole⟩ := (cutAt_front (cutAt reference 35).1 63).trans (cutAt_front reference 35)
    apply noNetwork
    have long : 2 ≤ (cutAt (cutAt reference 35).1 63).1.length := by
      have size := congrArg List.length doubled
      rw [length_take] at size
      have two : (ascii "//").length = 2 := rfl
      omega
    rw [← whole, take_append_of_le_length long, doubled]
  rw [selectTarget]
  dsimp only at start ⊢
  rw [if_neg start]
  split
  · exact ⟨rfl, recorded.path.1⟩
  split
  case isTrue rooted => exact ⟨rfl, removeDotSegments_head rooted⟩
  case isFalse => exact ⟨rfl, removeDotSegments_head (mergePaths_head recorded.path.1 _ _)⟩

/-- A reference without a scheme or an authority of its own stays with the authority of the
base, exactly if that one can be written. -/
theorem resolve_keeps_authority_iff (url : Url) (reference : Bytes) (valid : url.isValid = true)
    (named : url.getHostname ≠ []) (relative : isAbsolute reference = false)
    (noNetwork : reference.take 2 ≠ ascii "//") :
    ((url.resolve reference).isValid = true ∧
      Components.SameAuthority (url.resolve reference).components url.components) ↔
      url.components.Rewritable := by
  have recorded : url.components.Recorded := Components.recorded_of_valid valid
  obtain ⟨authority, rooted⟩ := selectTarget_relative recorded named noNetwork
  have written : url.resolve reference =
      ⟨(selectTarget url.components reference).recompose url.getScheme⟩ := by
    rw [resolve, valid, relative]
    rfl
  generalize selectTarget url.components reference = target at authority rooted written
  obtain ⟨tail, starts, text⟩ : ∃ tail, tail.head? = some slash ∧ target.recompose url.getScheme =
      url.components.scheme ++ colon :: (ascii "//" ++ baseAuthority url.components ++ tail) := by
    cases query : target.query with
    | none =>
      refine ⟨target.path, rooted, ?_⟩
      rw [Target.recompose, authority, query, append_nil]
      rfl
    | some query' =>
      refine ⟨target.path ++ 63 :: query', ?_, ?_⟩
      · rw [head?_append, rooted]
        rfl
      · rw [Target.recompose, authority, query, append_assoc]
        rfl
  have read : (url.resolve reference).components = Components.parse (url.components.scheme ++
      colon :: (ascii "//" ++ baseAuthority url.components ++ tail)) := by
    rw [written, components, text]
  constructor
  · rintro ⟨accepted, same⟩
    exact Components.rewritable_of_read recorded named starts read.symm accepted same
  · intro rewritable
    rw [Components.parse_written recorded named rewritable starts] at read
    rw [isValid, read]
    exact ⟨rfl, rfl, rfl, rfl, rfl, rfl, rfl⟩

theorem resolve_keeps_literal :
    Components.SameAuthority
      ((Url.mk (ascii "http://u@[fe80::1%25eth0]:81/a/b")).resolve (ascii "../c")).components
      (Url.mk (ascii "http://u@[fe80::1%25eth0]:81/a/b")).components :=
  ((resolve_keeps_authority_iff _ _ (by decide) (by decide) (by decide) (by decide)).mpr
    (by decide)).2

/-- A zone that was given with an escape is written without it. -/
theorem resolve_loses_zone :
    (Url.mk (ascii "http://[fe80::1%25a%2Fb]/x")).isValid = true ∧
      (Url.mk (ascii "http://[fe80::1%25a%2Fb]/x")).getHostname ≠ [] ∧
      isAbsolute (ascii "/y") = false ∧ (ascii "/y").take 2 ≠ ascii "//" ∧
      ((Url.mk (ascii "http://[fe80::1%25a%2Fb]/x")).resolve (ascii "/y")).isValid = false := by
  decide

end Url

end SamuraiFormal.Net

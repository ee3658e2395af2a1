import SamuraiFormal.Net.Url

/-!
# The parts of a URL

What the readers of `parse()` do with their texts, and what is known of the members of a URL
that is accepted.
-/

namespace SamuraiFormal.Net

open Util
open List

variable {text : Bytes} {c : UInt8}

theorem splitOnce_eq_none : splitOnce text c = none ↔ c ∉ text := by
  rw [splitOnce, Option.map_eq_none_iff, find_eq_none]

theorem splitOnce_append_cons {front : Bytes} (missing : c ∉ front) (back : Bytes) :
    splitOnce (front ++ c :: back) c = some (front, back) := by
  rw [splitOnce, find_append_cons missing]
  simp

/-- What a split says about the text. -/
theorem splitOnce_eq_some {front back : Bytes} (split : splitOnce text c = some (front, back)) :
    text = front ++ c :: back ∧ c ∉ front := by
  by_cases missing : c ∈ text
  · obtain ⟨before, after, rfl, first⟩ := eq_append_cons_of_mem missing
    rw [splitOnce_append_cons first] at split
    cases split
    exact ⟨rfl, first⟩
  · rw [splitOnce_eq_none.mpr missing] at split
    cases split

/-- A byte that is there has a last place. -/
theorem eq_append_cons_last (present : c ∈ text) :
    ∃ body back, text = body ++ c :: back ∧ c ∉ back := by
  obtain ⟨front, rest, split, first⟩ := eq_append_cons_of_mem (mem_reverse.mpr present)
  refine ⟨rest.reverse, front.reverse, ?_, by rwa [mem_reverse]⟩
  rw [← reverse_reverse text, split]
  simp

theorem cutAt_of_notMem (missing : c ∉ text) : cutAt text c = (text, none) := by
  rw [cutAt, splitOnce_eq_none.mpr missing]

theorem cutAt_append_cons {front : Bytes} (missing : c ∉ front) (back : Bytes) :
    cutAt (front ++ c :: back) c = (front, some back) := by
  rw [cutAt, splitOnce_append_cons missing]

/-- The first part of a cut lacks the byte, and both parts are of the text. -/
theorem cutAt_parts (text : Bytes) (c : UInt8) :
    c ∉ (cutAt text c).1 ∧ (cutAt text c).1 ⊆ text ∧ (cutAt text c).2.getD [] ⊆ text := by
  by_cases missing : c ∈ text
  · obtain ⟨before, after, rfl, first⟩ := eq_append_cons_of_mem missing
    rw [cutAt_append_cons first]
    exact ⟨first, subset_append_left _ _,
      fun _ among => mem_append_right _ (mem_cons_of_mem _ among)⟩
  · rw [cutAt_of_notMem missing]
    exact ⟨missing, List.Subset.refl _, nil_subset _⟩

theorem cutAt_front (text : Bytes) (c : UInt8) : (cutAt text c).1 <+: text := by
  by_cases missing : c ∈ text
  · obtain ⟨before, after, rfl, first⟩ := eq_append_cons_of_mem missing
    rw [cutAt_append_cons first]
    exact List.prefix_append _ _
  · exact ⟨[], by rw [cutAt_of_notMem missing, append_nil]⟩

theorem digit_toUInt8 {c : Char} (decimal : c.isDigit = true) :
    isDigit c.toUInt8 = true ∧ c.toUInt8.toNat = c.toNat := by
  rw [Char.isDigit, Bool.and_eq_true, decide_eq_true_iff, decide_eq_true_iff] at decimal
  have low : 48 ≤ c.val.toNat := decimal.1
  have high : c.val.toNat ≤ 57 := decimal.2
  have same : c.toUInt8.toNat = c.val.toNat := by
    rw [Char.toUInt8, UInt32.toNat_toUInt8]
    omega
  refine ⟨?_, same⟩
  rw [isDigit_iff, same]
  exact ⟨low, high⟩

theorem decimalFrom_map (digits : List Char) (decimal : ∀ c ∈ digits, c.isDigit = true)
    (value : Nat) :
    decimalFrom value (digits.map Char.toUInt8) = Nat.ofDigitChars 10 digits value := by
  induction digits generalizing value with
  | nil => rfl
  | cons c digits ih =>
    have same := (digit_toUInt8 (decimal c mem_cons_self)).2
    have zero : '0'.toNat = 48 := rfl
    have later := ih (forall_mem_of_forall_mem_cons decimal) (value * 10 + (c.toUInt8.toNat - 48))
    rw [map_cons, decimalFrom, foldl_cons, ← decimalFrom, later, Nat.ofDigitChars_cons, zero, same,
      Nat.mul_comm]

theorem isDigit_of_mem_numberText {value : Nat} (among : c ∈ numberText 10 value) :
    isDigit c = true := by
  obtain ⟨digit, there, rfl⟩ := mem_map.mp among
  exact (digit_toUInt8 (Nat.isDigit_of_mem_toDigits (by decide) (by decide) there)).1

theorem numberText_ne_nil (value : Nat) : numberText 10 value ≠ [] := by
  rw [numberText, Ne, map_eq_nil_iff]
  exact Nat.toDigits_ne_nil

theorem toUInt16_numberText (port : UInt16) : toUInt16 (numberText 10 port.toNat) = port := by
  have fits : port.toNat < 65536 := port.toNat_lt
  have value : decimalFrom 0 (numberText 10 port.toNat) = port.toNat := by
    rw [numberText, decimalFrom_map _ fun c => Nat.isDigit_of_mem_toDigits (by decide) (by decide)]
    exact Nat.ofDigitChars_ten_toDigits
  rw [toUInt16_eq, value, UInt16.ofNat_toNat, if_pos]
  exact ⟨numberText_ne_nil _, fun c => isDigit_of_mem_numberText, by omega⟩

def NoDelimiter (text : Bytes) : Prop := ∀ c ∈ text, isDelimiter c = false

theorem NoDelimiter.subset {part : Bytes} (clear : NoDelimiter text) (sub : part ⊆ text) :
    NoDelimiter part := fun c among => clear c (sub among)

namespace Components

/-- What is known of the members of a URL that has been accepted. -/
structure Recorded (parts : Components) : Prop where
  scheme : isScheme parts.scheme = true
  lower : parts.scheme.map asciiLower = parts.scheme
  username : colon ∉ parts.username ∧ NoDelimiter parts.username
  password : NoDelimiter parts.password
  hostname : (64 : UInt8) ∉ parts.hostname ∧ NoDelimiter parts.hostname
  /-- Only a bracketed host has a colon or starts with a bracket. -/
  bracketed : colon ∈ parts.hostname ∨ parts.hostname.head? = some 91 →
    (93 : UInt8) ∉ parts.hostname ∧ (37 : UInt8) ∉ parts.hostname
  path : parts.path.head? = some slash ∧ (63 : UInt8) ∉ parts.path ∧ (35 : UInt8) ∉ parts.path
  query : (35 : UInt8) ∉ parts.query

variable {parts : Components} {authority : Bytes}

/-- The texts that are read as a user name and a password. -/
inductive UserForm (username password : Bytes) : Bytes → Prop where
  | absent (noName : username = []) (noPassword : password = []) : UserForm username password []
  | name (noPassword : password = []) : UserForm username password (username ++ [64])
  | both : UserForm username password (username ++ colon :: password ++ [64])

theorem UserForm.subset {username password front : Bytes}
    (form : UserForm username password front) : username ⊆ front ∧ password ⊆ front := by
  cases form with
  | absent noName noPassword =>
    rw [noName, noPassword]
    exact ⟨nil_subset _, nil_subset _⟩
  | name noPassword =>
    rw [noPassword]
    exact ⟨subset_append_left _ _, nil_subset _⟩
  | both =>
    rw [append_assoc]
    exact ⟨subset_append_left _ _, fun _ among =>
      mem_append_right _ (mem_cons_of_mem _ (mem_append_left _ among))⟩

theorem readUserinfo_spec (noName : parts.username = []) (noPassword : parts.password = [])
    (authority : Bytes) :
    ∃ username password front, (parts.readUserinfo authority).1 =
        { parts with username := username, password := password } ∧
      authority = front ++ (parts.readUserinfo authority).2 ∧
      (64 : UInt8) ∉ (parts.readUserinfo authority).2 ∧ colon ∉ username ∧
      UserForm username password front := by
  by_cases present : (64 : UInt8) ∈ authority
  · obtain ⟨body, back, rfl, last⟩ := eq_append_cons_last present
    have behind : (body ++ 64 :: back).drop (body.length + 1) = back := by simp
    rw [readUserinfo, rfind_append_cons last]
    dsimp only
    rw [take_left, behind]
    refine ⟨_, _, body ++ [64], rfl, by rw [append_assoc, singleton_append], last,
      (cutAt_parts body colon).1, ?_⟩
    by_cases both : colon ∈ body
    · obtain ⟨username, password, rfl, first⟩ := eq_append_cons_of_mem both
      rw [cutAt_append_cons first]
      exact .both
    · rw [cutAt_of_notMem both]
      exact .name rfl
  · rw [readUserinfo, rfind_eq_none.mpr present]
    exact ⟨_, _, [], rfl, rfl, present, noName ▸ nofun, .absent noName noPassword⟩

/-- What is made of the text between the brackets. -/
inductive Zoned (parts : Components) : Bytes → Parsing Components → Prop where
  | refused {text : Bytes} {named : Components} (kept : named.valid = parts.valid) :
      Zoned parts text (.error named)
  | bare {hostname : Bytes} (noPercent : (37 : UInt8) ∉ hostname) :
      Zoned parts hostname (.ok { parts with hostname := hostname })
  | zone {hostname encoded zone : Bytes} (noPercent : (37 : UInt8) ∉ hostname)
      (decoded : percentDecode (if encoded.take 2 = ascii "25" then encoded.drop 2 else encoded) =
        (zone, true)) :
      Zoned parts (hostname ++ 37 :: encoded)
        (.ok { parts with hostname := hostname, zone := zone })

theorem readZone_zoned (parts : Components) (text : Bytes) :
    Zoned parts text (parts.readZone text) := by
  rw [readZone]
  cases split : splitOnce text 37 with
  | none => exact .bare (splitOnce_eq_none.mp split)
  | some halves =>
    obtain ⟨hostname, encoded⟩ := halves
    obtain ⟨rfl, first⟩ := splitOnce_eq_some split
    dsimp only
    split
    · exact .refused rfl
    generalize escapes : (if encoded.take 2 = ascii "25" then encoded.drop 2 else encoded) = escaped
    split
    · exact .refused rfl
    case isFalse kept =>
      subst escapes
      rw [not_or, Bool.not_eq_true', Bool.not_eq_false] at kept
      exact .zone first (Prod.ext rfl kept.1)

theorem Zoned.names {named : Components} (zoned : Zoned parts text (.ok named)) :
    ∃ hostname zone, named = { parts with hostname := hostname, zone := zone } ∧
      hostname ⊆ text ∧ (37 : UInt8) ∉ hostname := by
  cases zoned with
  | bare noPercent => exact ⟨text, parts.zone, rfl, List.Subset.refl _, noPercent⟩
  | zone noPercent => exact ⟨_, _, rfl, subset_append_left _ _, noPercent⟩

/-- What is made of the host and the port. -/
inductive Hosted (parts : Components) : Bytes → Parsing (Components × Option Bytes) → Prop where
  | refused {authority : Bytes} {named : Components} (kept : named.valid = parts.valid) :
      Hosted parts authority (.error named)
  | literal (inner back : Bytes) {named : Components} {port : Option Bytes}
      (noClose : (93 : UInt8) ∉ inner) (zoned : Zoned parts inner (.ok named)) :
      Hosted parts (91 :: inner ++ 93 :: back) (.ok (named, port))
  | plain {authority hostname : Bytes} {port : Option Bytes} (front : hostname <+: authority)
      (noColon : colon ∉ hostname) (opens : hostname.head? ≠ some 91) :
      Hosted parts authority (.ok ({ parts with hostname := hostname }, port))

theorem Hosted.kept {named : Components} (hosted : Hosted parts authority (.error named)) :
    named.valid = parts.valid := by
  cases hosted with
  | refused kept => exact kept

theorem readHost_hosted (parts : Components) (authority : Bytes) :
    Hosted parts authority (parts.readHost authority) := by
  rw [readHost]
  split
  case isTrue opened =>
    by_cases closed : (93 : UInt8) ∈ authority
    · obtain ⟨front, back, rfl, first⟩ := eq_append_cons_of_mem closed
      obtain ⟨inner, rfl⟩ : ∃ inner, front = 91 :: inner := by
        cases front with
        | nil => cases opened
        | cons c inner =>
          cases opened
          exact ⟨inner, rfl⟩
      have inside : ((91 :: inner ++ 93 :: back).drop 1).take ((91 :: inner).length - 1) = inner :=
        take_left
      have noClose : (93 : UInt8) ∉ inner := fun there => first (mem_cons_of_mem _ there)
      have zoned := readZone_zoned parts inner
      rw [find_append_cons first]
      dsimp only
      rw [inside]
      generalize parts.readZone inner = read at zoned
      cases read with
      | error named =>
        cases zoned with
        | refused kept => exact .refused kept
      | ok named =>
        dsimp only
        split
        · exact .literal inner back noClose zoned
        split
        · exact .literal inner back noClose zoned
        · obtain ⟨hostname, zone, rfl, -⟩ := zoned.names
          exact .refused rfl
    · rw [find_eq_none.mpr closed]
      exact .refused rfl
  case isFalse opens =>
    cases split : splitOnce authority colon with
    | none => exact .plain List.prefix_rfl (splitOnce_eq_none.mp split) opens
    | some halves =>
      obtain ⟨rfl, first⟩ := splitOnce_eq_some split
      dsimp only
      split
      · exact .refused rfl
      · refine .plain (List.prefix_append _ _) first fun opened => opens ?_
        rw [head?_append, opened]
        rfl

theorem readHost_spec (outside : (64 : UInt8) ∉ authority) (clear : NoDelimiter authority)
    {named : Components} {port : Option Bytes}
    (read : parts.readHost authority = .ok (named, port)) :
    ∃ hostname zone, named = { parts with hostname := hostname, zone := zone } ∧
      (64 : UInt8) ∉ hostname ∧ NoDelimiter hostname ∧
      (colon ∈ hostname ∨ hostname.head? = some 91 →
        (93 : UInt8) ∉ hostname ∧ (37 : UInt8) ∉ hostname) := by
  have hosted := readHost_hosted parts authority
  rw [read] at hosted
  cases hosted with
  | literal inner back noClose zoned =>
    obtain ⟨hostname, zone, rfl, sub, noPercent⟩ := zoned.names
    have inside := subset_append_of_subset_left (93 :: back) (subset_cons_of_subset 91 sub)
    exact ⟨hostname, zone, rfl, fun there => outside (inside there), clear.subset inside,
      fun _ => ⟨fun there => noClose (sub there), noPercent⟩⟩
  | plain front noColon opens =>
    exact ⟨_, parts.zone, rfl, fun there => outside (front.subset there),
      clear.subset front.subset, fun marked => (marked.elim noColon opens).elim⟩

theorem readPort_spec {port : Option Bytes} {placed : Components}
    (read : parts.readPort port = .ok placed) :
    ∃ number, placed = { parts with port := number } := by
  cases port with
  | none =>
    cases read
    exact ⟨parts.port, rfl⟩
  | some text =>
    rw [readPort] at read
    split at read
    · cases read
    · cases read
      exact ⟨_, rfl⟩

/-- What follows the authority is empty or starts with a delimiter. -/
theorem readPath_spec (parts : Components) {rest : Bytes}
    (starts : ∀ c ∈ rest.head?, isDelimiter c = true) :
    (parts.readPath rest).path.head? = some slash ∧ (63 : UInt8) ∉ (parts.readPath rest).path ∧
      (35 : UInt8) ∉ (parts.readPath rest).path ∧ (35 : UInt8) ∉ (parts.readPath rest).query := by
  obtain ⟨noHash, front, -⟩ := cutAt_parts rest 35
  obtain ⟨noMark, path, query⟩ := cutAt_parts (cutAt rest 35).1 63
  have eq : parts.readPath rest =
      { parts with
        path := if (cutAt (cutAt rest 35).1 63).1 = [] then [slash]
          else (cutAt (cutAt rest 35).1 63).1
        query := (cutAt (cutAt rest 35).1 63).2.getD []
        file := if rest = [] then [slash] else rest
        valid := true } := rfl
  rw [eq]
  dsimp only
  refine ⟨?_, ?_, ?_, fun there => noHash (query there)⟩
  · split
    · rfl
    case isFalse some' =>
      obtain ⟨c, more, text⟩ := exists_cons_of_ne_nil some'
      obtain ⟨back, whole⟩ := (cutAt_front _ 63).trans (cutAt_front rest 35)
      rw [text] at noMark path whole ⊢
      have delimiter : isDelimiter c = true := starts c (by rw [← whole]; rfl)
      have notMark : c ≠ 63 := fun same => noMark (same ▸ mem_cons_self)
      have notHash : c ≠ 35 := fun same => noHash (path (same ▸ mem_cons_self))
      simp only [isDelimiter, Bool.or_eq_true, beq_iff_eq, notMark, notHash, or_false] at delimiter
      rw [delimiter]
      rfl
  · split
    · decide
    · exact noMark
  · split
    · decide
    · exact fun there => noHash (path there)

theorem noDelimiter_takeWhile (text : Bytes) :
    NoDelimiter (text.takeWhile fun c => !isDelimiter c) := by
  intro c among
  simpa using mem_takeWhile_imp among

theorem head_dropWhile_delimiter (text : Bytes) :
    ∀ c ∈ (text.dropWhile fun c => !isDelimiter c).head?, isDelimiter c = true := by
  intro c first
  have stops := head?_dropWhile_not (fun c => !isDelimiter c) text
  rw [first] at stops
  simpa using stops

section Authority

variable (noName : parts.username = []) (noPassword : parts.password = [])

include noName noPassword

/-- A refusal leaves the URL invalid. -/
theorem readAuthority_refused {refused : Components} (invalid : parts.valid = false)
    (read : parts.readAuthority text = .error refused) : refused.valid = false := by
  obtain ⟨username, password, front, known, split, outside, -⟩ :=
    readUserinfo_spec noName noPassword (text.takeWhile fun c => !isDelimiter c)
  have clear := (split ▸ noDelimiter_takeWhile text).subset (subset_append_right _ _)
  have hosted := readHost_hosted (parts.readUserinfo (text.takeWhile fun c => !isDelimiter c)).1
    (parts.readUserinfo (text.takeWhile fun c => !isDelimiter c)).2
  rw [readAuthority] at read
  dsimp only at read
  split at read
  case h_1 host =>
    cases read
    rw [host] at hosted
    rw [hosted.kept, known]
    exact invalid
  case h_2 named port host =>
    obtain ⟨hostname, zone, rfl, -⟩ := readHost_spec outside clear host
    split at read
    case h_2 => cases read
    case h_1 placed refusal =>
      cases read
      cases port with
      | none => cases refusal
      | some text =>
        rw [readPort] at refusal
        split at refusal
        · cases refusal
          rw [known]
          exact invalid
        · cases refusal

/-- What is accepted was split at the last `@` and ends with the path. -/
theorem readAuthority_ok {whole : Components} (read : parts.readAuthority text = .ok whole) :
    ∃ username password front authority named port number,
      text.takeWhile (fun c => !isDelimiter c) = front ++ authority ∧
      (64 : UInt8) ∉ authority ∧ colon ∉ username ∧ UserForm username password front ∧
      { parts with username := username, password := password }.readHost authority =
        .ok (named, port) ∧
      whole = { named with port := number }.readPath (text.dropWhile fun c => !isDelimiter c) := by
  obtain ⟨username, password, front, known, split, outside, noColon, form⟩ :=
    readUserinfo_spec noName noPassword (text.takeWhile fun c => !isDelimiter c)
  rw [readAuthority] at read
  dsimp only at read
  split at read
  case h_1 => cases read
  case h_2 named port host =>
    split at read
    case h_1 => cases read
    case h_2 placed ported =>
      obtain ⟨number, rfl⟩ := readPort_spec ported
      cases read
      exact ⟨_, _, _, _, _, _, _, split, outside, noColon, form, known ▸ host, rfl⟩

theorem readAuthority_recorded {whole : Components} (scheme : isScheme parts.scheme = true)
    (lower : parts.scheme.map asciiLower = parts.scheme)
    (read : parts.readAuthority text = .ok whole) : whole.Recorded := by
  obtain ⟨username, password, front, authority, named, port, number, split, outside, noColon, form,
    host, rfl⟩ := readAuthority_ok noName noPassword read
  have clear := split ▸ noDelimiter_takeWhile text
  have inFront := clear.subset (subset_append_left _ _)
  obtain ⟨hostname, zone, rfl, noAt, hostClear, bracketed⟩ :=
    readHost_spec outside (clear.subset (subset_append_right _ _)) host
  obtain ⟨path, noMark, noHash, query⟩ := readPath_spec { parts with port := number }
    (head_dropWhile_delimiter text)
  exact ⟨scheme, lower, ⟨noColon, inFront.subset form.subset.1⟩, inFront.subset form.subset.2,
    ⟨noAt, hostClear⟩, bracketed, ⟨path, noMark, noHash⟩, query⟩

end Authority

theorem asciiLower_asciiLower (c : UInt8) : asciiLower (asciiLower c) = asciiLower c := by
  by_cases upper : 65 ≤ c ∧ c ≤ 90
  · have low : 65 ≤ c.toNat := UInt8.le_iff_toNat_le.mp upper.1
    have high : c.toNat ≤ 90 := UInt8.le_iff_toNat_le.mp upper.2
    have value : (c - 65 + 97).toNat = c.toNat + 32 := by
      rw [UInt8.toNat_add, UInt8.toNat_sub]
      simp only [UInt8.reduceToNat]
      omega
    have lowered : asciiLower c = c - 65 + 97 := if_pos upper
    rw [lowered, asciiLower, if_neg]
    rintro ⟨-, below⟩
    have bound : (c - 65 + 97).toNat ≤ 90 := UInt8.le_iff_toNat_le.mp below
    omega
  · have kept : asciiLower c = c := if_neg upper
    rw [kept, kept]

/-- A URL that is accepted has a scheme, and what follows is read without a refusal. -/
theorem readAuthority_of_valid (valid : (parse text).valid = true) :
    ∃ scheme rest, isScheme scheme = true ∧ scheme.map asciiLower = scheme ∧
      ({ scheme := scheme } : Components).readAuthority rest = .ok (parse text) := by
  rw [parse] at valid ⊢
  cases split : splitOnce text colon with
  | none =>
    simp only [split] at valid
    cases valid
  | some halves =>
    obtain ⟨front, rest⟩ := halves
    simp only [split] at valid ⊢
    split at valid
    case isTrue => cases valid
    case isFalse fine =>
      rw [if_neg fine]
      simp only [Bool.not_eq_true', not_or, Bool.not_eq_false] at fine
      have lower : (front.map asciiLower).map asciiLower = front.map asciiLower := by
        rw [map_map]
        exact map_congr_left fun c _ => asciiLower_asciiLower c
      cases read : ({ scheme := front.map asciiLower } : Components).readAuthority
        (rest.drop 2) with
      | error refused =>
        simp only [read, readAuthority_refused rfl rfl rfl read] at valid
        cases valid
      | ok whole => exact ⟨front.map asciiLower, rest.drop 2, fine.1, lower, read⟩

theorem recorded_of_valid (valid : (parse text).valid = true) : (parse text).Recorded := by
  obtain ⟨scheme, rest, shaped, lower, read⟩ := readAuthority_of_valid valid
  exact readAuthority_recorded rfl rfl shaped lower read

theorem readPath_of_valid (valid : (parse text).valid = true) :
    ∃ (placed : Components) (rest : Bytes), parse text = placed.readPath rest ∧
      ∀ c ∈ rest.head?, isDelimiter c = true := by
  obtain ⟨scheme, rest, -, -, read⟩ := readAuthority_of_valid valid
  obtain ⟨_, _, _, _, named, _, number, -, -, -, -, -, whole⟩ := readAuthority_ok rfl rfl read
  exact ⟨_, _, whole, head_dropWhile_delimiter rest⟩

end Components

end SamuraiFormal.Net

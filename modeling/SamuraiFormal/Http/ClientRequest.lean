import Mathlib.Data.List.Infix
import SamuraiFormal.Http.ClientMoves
import SamuraiFormal.Net.UrlParts

/-!
# The bytes of a request

What the client queues for sending, read as a server reads it: a request line, header lines up
to an empty one, and the body.  A request is framed as it was meant exactly if the URL and the
header lines are as described here.
-/

namespace SamuraiFormal.Http

open Util
open Net
open List

def lineBreak : Bytes := [13, 10]

/-- A line holds no line break. -/
def Whole (line : Bytes) : Prop := ¬lineBreak <:+: line

instance (line : Bytes) : Decidable (Whole line) := inferInstanceAs (Decidable (¬_))

/-- Lines up to the first empty one, and what follows it. -/
inductive Splits : Bytes → List Bytes → Bytes → Prop where
  | done (rest : Bytes) : Splits (lineBreak ++ rest) [] rest
  | line {line text rest : Bytes} {lines : List Bytes} (some' : line ≠ []) (whole : Whole line)
      (more : Splits text lines rest) : Splits (line ++ (lineBreak ++ text)) (line :: lines) rest

/-- A request line, header lines and a body. -/
structure Decomposes (text first : Bytes) (lines : List Bytes) (body : Bytes) : Prop where
  whole : Whole first
  splits : ∃ rest, text = first ++ (lineBreak ++ rest) ∧ Splits rest lines body

theorem whole_nil : Whole [] := by decide

/-- Text without a carriage return does not matter in front of a line. -/
theorem whole_append_left {front : Bytes} (noReturn : 13 ∉ front) (line : Bytes) :
    Whole (front ++ line) ↔ Whole line := by
  rw [Whole, Whole, not_iff_not]
  refine ⟨fun broken => ?_, fun broken => broken.trans (suffix_append front line).isInfix⟩
  induction front with
  | nil => exact broken
  | cons c front ih =>
    rw [mem_cons, not_or] at noReturn
    rcases infix_cons_iff.mp broken with starts | later
    · exact absurd (cons_prefix_cons.mp starts).1 noReturn.1
    · exact ih noReturn.2 later

/-- Text without a line feed does not matter behind it. -/
theorem whole_append_right {back : Bytes} (noFeed : 10 ∉ back) (line : Bytes) :
    Whole (line ++ back) ↔ Whole line := by
  rw [Whole, Whole, not_iff_not]
  refine ⟨fun broken => ?_, fun broken => broken.trans (prefix_append line back).isInfix⟩
  induction line with
  | nil => exact absurd (broken.subset (show 10 ∈ lineBreak by decide)) noFeed
  | cons c line ih =>
    rcases infix_cons_iff.mp broken with starts | later
    · obtain ⟨rfl, feed⟩ := cons_prefix_cons.mp starts
      cases line with
      | nil => exact absurd (feed.subset mem_cons_self) noFeed
      | cons d line =>
        cases (cons_prefix_cons.mp feed).1
        exact ⟨[], line, rfl⟩
    · exact (ih later).trans (suffix_cons c line).isInfix

/-- Nothing but the line itself stands in front of its line break. -/
theorem Whole.ends {line rest more rest' : Bytes} (whole : Whole (line ++ more))
    (same : lineBreak ++ rest = more ++ (lineBreak ++ rest')) : more = [] := by
  match more, same, whole with
  | [], _, _ => rfl
  | [c], same, _ => cases same
  | c :: d :: more, same, whole =>
    cases same
    exact absurd ⟨line, more, by simp [lineBreak]⟩ whole

/-- There is one first line. -/
theorem first_line_unique {line other rest rest' : Bytes} (whole : Whole line)
    (whole' : Whole other) (same : line ++ (lineBreak ++ rest) = other ++ (lineBreak ++ rest')) :
    line = other ∧ rest = rest' := by
  rcases append_eq_append_iff.mp same with ⟨more, rfl, tail⟩ | ⟨more, rfl, tail⟩
  · have nothing := whole'.ends tail
    subst nothing
    rw [nil_append, append_cancel_left_eq] at tail
    exact ⟨(append_nil _).symm, tail⟩
  · have nothing := whole.ends tail
    subst nothing
    rw [nil_append, append_cancel_left_eq] at tail
    exact ⟨append_nil _, tail.symm⟩

theorem Splits.unique {text rest rest' : Bytes} {lines lines' : List Bytes}
    (splits : Splits text lines rest) (splits' : Splits text lines' rest') :
    lines = lines' ∧ rest = rest' := by
  induction splits generalizing lines' rest' with
  | done rest =>
    generalize given : lineBreak ++ rest = text at splits'
    cases splits' with
    | done rest' =>
      rw [append_cancel_left_eq] at given
      exact ⟨rfl, given⟩
    | line some' whole more =>
      have same := first_line_unique whole_nil whole given
      exact absurd same.1.symm some'
  | @line line text rest lines some' whole more ih =>
    generalize given : line ++ (lineBreak ++ text) = whole' at splits'
    cases splits' with
    | done rest' =>
      have same := first_line_unique whole whole_nil given
      exact absurd same.1 some'
    | line some'' whole'' more' =>
      obtain ⟨rfl, rfl⟩ := first_line_unique whole whole'' given
      obtain ⟨rfl, rfl⟩ := ih more'
      exact ⟨rfl, rfl⟩

theorem Decomposes.unique {text first first' body body' : Bytes} {lines lines' : List Bytes}
    (decomposes : Decomposes text first lines body)
    (decomposes' : Decomposes text first' lines' body') :
    first = first' ∧ lines = lines' ∧ body = body' := by
  obtain ⟨whole, rest, rfl, splits⟩ := decomposes
  obtain ⟨whole', rest', same, splits'⟩ := decomposes'
  obtain ⟨rfl, rfl⟩ := first_line_unique whole whole' same
  exact ⟨rfl, splits.unique splits'⟩

/-- Lines that are written one after another are split again exactly if each is a line. -/
theorem splits_written_iff (lines : List Bytes) (body : Bytes) (some' : ∀ line ∈ lines, line ≠ []) :
    Splits (lines.flatMap (fun line => line ++ lineBreak) ++ (lineBreak ++ body)) lines body ↔
      ∀ line ∈ lines, Whole line := by
  induction lines with
  | nil => exact ⟨fun _ => nofun, fun _ => .done body⟩
  | cons line lines ih =>
    have tail := ih fun other among => some' other (mem_cons_of_mem _ among)
    rw [flatMap_cons, append_assoc, append_assoc, forall_mem_cons, ← tail]
    constructor
    · intro splits
      generalize given : line ++ (lineBreak ++ (lines.flatMap (fun line => line ++ lineBreak) ++
        (lineBreak ++ body))) = text at splits
      cases splits with
      | line some' whole more =>
        rw [append_cancel_left_eq, append_cancel_left_eq] at given
        rw [given]
        exact ⟨whole, more⟩
    · rintro ⟨whole, more⟩
      exact .line (some' line mem_cons_self) whole more

namespace Headers

/-- No two fields have the same name. -/
def Distinct (headers : Headers) : Prop :=
  headers.fields.Pairwise fun field other => iequals field.1 other.1 = false

theorem Distinct.set {headers : Headers} (distinct : headers.Distinct) (name value : Bytes) :
    (headers.set name value).Distinct := by
  rw [Distinct, Headers.set, add, pairwise_append]
  refine ⟨distinct.sublist filter_sublist, pairwise_singleton _ _, ?_⟩
  intro field among last given
  rw [mem_singleton.mp given]
  simpa using (mem_filter.mp among).2

/-- The last value set for a name is the one there is. -/
theorem get_set (headers : Headers) (name value other : Bytes) :
    (headers.set name value).get other =
      if iequals name other then some value else headers.get other := by
  rw [get, Headers.set, add, find?_append, find?_filter]
  split
  case isTrue same =>
    have none : headers.fields.find? (fun field =>
        decide ((!iequals field.1 name) = true ∧ iequals field.1 other = true)) = none := by
      rw [find?_eq_none]
      intro field _ matched
      rw [decide_eq_true_iff, Bool.not_eq_true'] at matched
      have through : iequals field.1 name = true := by
        rw [iequals_iff] at same ⊢
        exact (iequals_iff.mp matched.2).trans same.symm
      rw [matched.1] at through
      cases through
    rw [none, find?_singleton, if_pos same]
    rfl
  case isFalse apart =>
    have kept : (fun field : Bytes × Bytes =>
        decide ((!iequals field.1 name) = true ∧ iequals field.1 other = true)) =
        fun field => iequals field.1 other := by
      funext field
      rw [Bool.eq_iff_iff, decide_eq_true_iff, and_iff_right_iff_imp]
      intro matched
      rw [Bool.not_eq_true', ← Bool.not_eq_true]
      intro through
      rw [iequals_iff] at apart matched through
      exact apart (through.symm.trans matched)
    rw [kept, find?_singleton, if_neg apart, Option.or_none]
    rfl

theorem has_cons (field : Bytes × Bytes) (fields : List (Bytes × Bytes)) (name : Bytes) :
    has ⟨field :: fields⟩ name = (iequals field.1 name || has ⟨fields⟩ name) := by
  rw [has, has, get, get, find?_cons]
  cases iequals field.1 name <;> rfl

/-- The fields whose name does not come again. -/
def lasting : List (Bytes × Bytes) → List (Bytes × Bytes)
  | [] => []
  | field :: fields =>
    if has ⟨fields⟩ field.1 then lasting fields else field :: lasting fields

theorem lasting_sublist (fields : List (Bytes × Bytes)) : lasting fields <+ fields := by
  induction fields with
  | nil => exact .slnil
  | cons field fields ih =>
    rw [lasting]
    split
    · exact ih.cons field
    · exact ih.cons_cons field

/-- What is set one after the other replaces what was there. -/
theorem fields_foldl_set (fields : List (Bytes × Bytes)) (headers : Headers) :
    (fields.foldl (fun headers field => headers.set field.1 field.2) headers).fields =
      headers.fields.filter (fun field => !has ⟨fields⟩ field.1) ++ lasting fields := by
  induction fields generalizing headers with
  | nil => exact (filter_true _).symm.trans (append_nil _).symm
  | cons field fields ih =>
    have later : (fun other : Bytes × Bytes => !has ⟨fields⟩ other.1 && !iequals other.1 field.1) =
        fun other => !has ⟨field :: fields⟩ other.1 := by
      funext other
      rw [has_cons, iequals_comm field.1, Bool.not_or, Bool.and_comm]
    rw [foldl_cons, ih, Headers.set, add, filter_append, filter_filter, later, filter_singleton,
      append_assoc, lasting]
    cases has ⟨fields⟩ field.1 <;> rfl

/-- The last of the values that a list of fields gives to a name. -/
def lastOf (fields : List (Bytes × Bytes)) (name : Bytes) : Option Bytes :=
  (fields.reverse.find? fun field => iequals field.1 name).map Prod.snd

theorem foldl_set (fields : List (Bytes × Bytes)) (headers : Headers)
    (distinct : headers.Distinct) :
    (fields.foldl (fun headers field => headers.set field.1 field.2) headers).Distinct ∧
      ∀ name, (fields.foldl (fun headers field => headers.set field.1 field.2) headers).get name =
        (lastOf fields name).or (headers.get name) := by
  induction fields generalizing headers with
  | nil => exact ⟨distinct, fun name => rfl⟩
  | cons field fields ih =>
    obtain ⟨apart, values⟩ := ih (headers.set field.1 field.2) (distinct.set field.1 field.2)
    refine ⟨apart, ?_⟩
    intro name
    rw [foldl_cons, values, get_set, lastOf, lastOf, reverse_cons, find?_append,
      find?_singleton]
    cases fields.reverse.find? (fun field => iequals field.1 name) with
    | some found => rfl
    | none => cases iequals field.1 name <;> rfl

end Headers

namespace Request

theorem supplied_distinct (request : Request) (options : Options) :
    (request.supplied options).Distinct := by
  have named : ((Headers.set {} (ascii "Host") (hostHeader request.url)).set
      (ascii "Connection") (ascii "close")).Distinct :=
    Headers.Distinct.set (Headers.Distinct.set List.Pairwise.nil _ _) _ _
  unfold supplied
  split <;> split
  · exact (named.set _ _).set _ _
  · exact named.set _ _
  · exact named.set _ _
  · exact named

def headerLine (field : Bytes × Bytes) : Bytes := field.1 ++ ascii ": " ++ field.2

def requestLine (method : Method) (target : Bytes) : Bytes :=
  method.toString ++ space :: (target ++ ascii " HTTP/1.1")

/-- A byte that is no white space, no control byte and does not start a fragment. -/
def isTargetByte (c : UInt8) : Bool := 32 < c && c != 127 && c != 35

/-- The target that a URL has in a request line. -/
structure IsTarget (url : Url) (target : Bytes) : Prop where
  rooted : target.head? = some slash
  parts : (target = url.getPath ∧ url.components.query = []) ∨
    target = url.getPath ++ 63 :: url.components.query
  clean : ∀ c ∈ target, isTargetByte c = true

/-- The bytes are a request line for the URL, the header lines and the body, and nothing else
can be read in them. -/
def WellFramed (request : Request) (options : Options) (text : Bytes) : Prop :=
  ∃ target, IsTarget request.url target ∧
    Decomposes text (requestLine request.method target)
      ((request.headers options).fields.map headerLine) request.body ∧
    ∀ first lines body, Decomposes text first lines body →
      first = requestLine request.method target ∧
        lines = (request.headers options).fields.map headerLine ∧ body = request.body

/-- What is sent as the target is one; and neither the host name and the user agent, where
the caller does not replace them, nor the caller's own fields break a line. -/
structure Clean (request : Request) (options : Options) : Prop where
  rooted : request.url.getFile.head? = some slash
  target : ∀ c ∈ request.url.getFile, isTargetByte c = true
  host : request.extra.has (ascii "Host") = false → Whole request.url.getHostname
  agent : request.extra.has (ascii "User-Agent") = false → Whole options.userAgent
  extra : ∀ field ∈ Headers.lasting request.extra.fields, Whole (headerLine field)

theorem supplied_fields (request : Request) (options : Options) :
    (request.supplied options).fields =
      (ascii "Host", hostHeader request.url) :: (ascii "Connection", ascii "close") ::
        ((if options.userAgent ≠ [] then [(ascii "User-Agent", options.userAgent)] else []) ++
          if request.body ≠ [] ∨ request.method = .post then
            [(ascii "Content-Length", numberText 10 request.body.length)] else []) := by
  unfold supplied
  split <;> split <;> rfl

theorem notMem_numberText {c : UInt8} (other : isDigit c = false) (value : Nat) :
    c ∉ numberText 10 value := by
  intro among
  rw [isDigit_of_mem_numberText among] at other
  cases other

/-- The brackets and the port do not break a line. -/
theorem whole_hostHeader (url : Url) : Whole (hostHeader url) ↔ Whole url.getHostname := by
  rw [hostHeader, whole_append_right]
  · split
    · rw [cons_append, ← singleton_append, whole_append_left (by decide),
        whole_append_right (by decide)]
    · rfl
  · split
    · rw [mem_cons, not_or]
      exact ⟨by decide, notMem_numberText (by decide) _⟩
    · exact not_mem_nil

/-- The header lines are lines exactly if what the caller and the URL put into them is. -/
theorem lines_iff (request : Request) (options : Options) :
    (∀ field ∈ (request.headers options).fields, Whole (headerLine field)) ↔
      (request.extra.has (ascii "Host") = false → Whole request.url.getHostname) ∧
        (request.extra.has (ascii "User-Agent") = false → Whole options.userAgent) ∧
        ∀ field ∈ Headers.lasting request.extra.fields, Whole (headerLine field) := by
  have value {name : Bytes} (noReturn : 13 ∉ name ++ ascii ": ") (value : Bytes) :
      Whole (headerLine (name, value)) ↔ Whole value :=
    whole_append_left noReturn value
  have close : Whole (headerLine (ascii "Connection", ascii "close")) := by decide
  have length : Whole (headerLine (ascii "Content-Length",
      numberText 10 request.body.length)) := by
    rw [value (by decide)]
    intro broken
    exact notMem_numberText (by decide) _ (broken.subset mem_cons_self)
  rw [headers, Headers.fields_foldl_set, supplied_fields, forall_mem_append, ← and_assoc]
  refine and_congr_left' ?_
  simp only [mem_filter, and_imp, forall_mem_cons, forall_mem_append, Bool.not_eq_true', close,
    implies_true, true_and, value (show 13 ∉ ascii "Host" ++ ascii ": " by decide),
    whole_hostHeader]
  rw [and_congr_right_iff, and_iff_left]
  · intro _
    split
    · rw [forall_mem_singleton, value (by decide)]
    · next none =>
      rw [not_not.mp none]
      exact ⟨fun _ _ => whole_nil, fun _ => forall_mem_nil _⟩
  · intro field among _
    split at among
    · rw [mem_singleton.mp among]
      exact length
    · cases among

theorem text_eq (request : Request) (options : Options) :
    request.text options = requestLine request.method request.url.getFile ++ (lineBreak ++
      (((request.headers options).fields.map headerLine).flatMap (fun line => line ++ lineBreak) ++
        (lineBreak ++ request.body))) := by
  have broken : ascii " HTTP/1.1\r\n" = ascii " HTTP/1.1" ++ lineBreak := by decide
  have ended : ascii "\r\n" = lineBreak := by decide
  rw [text, broken, ended, requestLine, flatMap_map]
  simp only [headerLine, append_assoc, cons_append]

theorem headerLine_ne_nil (field : Bytes × Bytes) : headerLine field ≠ [] := by
  simp [headerLine, ascii]

theorem whole_requestLine (method : Method) {target : Bytes}
    (clean : ∀ c ∈ target, isTargetByte c = true) : Whole (requestLine method target) := by
  intro broken
  have there : (13 : UInt8) ∈ requestLine method target := broken.subset mem_cons_self
  rw [requestLine, mem_append, mem_cons, mem_append] at there
  rcases there with there | same | there | there
  · cases method <;> exact absurd there (by decide)
  · exact absurd same (by decide)
  · exact absurd (clean 13 there) (by decide)
  · exact absurd there (by decide)

/-- What a file is made of: the path, perhaps a query, perhaps a fragment. -/
theorem file_cases {url : Url} (valid : url.isValid = true) :
    (url.getFile = [slash] ∧ url.getPath = [slash] ∧ url.components.query = []) ∨
      (∃ c rest, url.getFile = c :: rest ∧ (c = 63 ∨ c = 35)) ∨
      ∃ query fragment : Bytes, url.getFile = url.getPath ++ (query ++ fragment) ∧
        (query = [] ∧ url.components.query = [] ∨ query = 63 :: url.components.query) ∧
        (fragment = [] ∨ fragment.head? = some 35) := by
  obtain ⟨placed, rest, read, starts⟩ := Components.readPath_of_valid valid
  have file : url.getFile = if rest = [] then [slash] else rest := by
    rw [Url.getFile, Url.components, read]
    rfl
  have path : url.getPath = if (cutAt (cutAt rest 35).1 63).1 = [] then [slash]
      else (cutAt (cutAt rest 35).1 63).1 := by
    rw [Url.getPath, Url.components, read]
    rfl
  have query : url.components.query = (cutAt (cutAt rest 35).1 63).2.getD [] := by
    rw [Url.components, read]
    rfl
  by_cases none : rest = []
  · subst none
    exact .inl ⟨file, path, query⟩
  right
  rw [if_neg none] at file
  obtain ⟨fragment, whole, marked⟩ : ∃ fragment, rest = (cutAt rest 35).1 ++ fragment ∧
      (fragment = [] ∨ fragment.head? = some 35) := by
    by_cases present : (35 : UInt8) ∈ rest
    · obtain ⟨front, back, rfl, first⟩ := eq_append_cons_of_mem present
      rw [cutAt_append_cons first]
      exact ⟨35 :: back, rfl, .inr rfl⟩
    · rw [cutAt_of_notMem present]
      exact ⟨[], (append_nil _).symm, .inl rfl⟩
  obtain ⟨asked, whole', kind⟩ : ∃ asked, (cutAt rest 35).1 =
      (cutAt (cutAt rest 35).1 63).1 ++ asked ∧
      (asked = [] ∧ url.components.query = [] ∨ asked = 63 :: url.components.query) := by
    rw [query]
    by_cases present : (63 : UInt8) ∈ (cutAt rest 35).1
    · obtain ⟨front, back, split, first⟩ := eq_append_cons_of_mem present
      rw [split, cutAt_append_cons first]
      exact ⟨63 :: back, rfl, .inr rfl⟩
    · rw [cutAt_of_notMem present]
      exact ⟨[], (append_nil _).symm, .inl ⟨rfl, rfl⟩⟩
  by_cases empty : (cutAt (cutAt rest 35).1 63).1 = []
  · -- nothing stands in front of the query or the fragment
    left
    obtain ⟨c, more, text⟩ := exists_cons_of_ne_nil none
    refine ⟨c, more, file.trans text, ?_⟩
    rw [empty] at whole'
    rw [whole'] at whole
    rcases kind with ⟨rfl, -⟩ | rfl
    · right
      subst whole
      rcases marked with nothing | marked
      · exact absurd nothing none
      · rw [text] at marked
        exact Option.some.inj marked
    · left
      rw [text] at whole
      cases whole
      rfl
  · right
    rw [if_neg empty] at path
    refine ⟨asked, fragment, ?_, kind, marked⟩
    rw [file, path, ← append_assoc, ← whole', ← whole]

/-- A file without a fragment that starts with a slash is a target. -/
theorem isTarget_file {url : Url} (valid : url.isValid = true)
    (rooted : url.getFile.head? = some slash)
    (clean : ∀ c ∈ url.getFile, isTargetByte c = true) : IsTarget url url.getFile := by
  refine ⟨rooted, ?_, clean⟩
  rcases file_cases valid with ⟨file, path, query⟩ | ⟨c, rest, file, mark⟩ |
    ⟨query, fragment, file, kind, marked⟩
  · exact .inl ⟨file.trans path.symm, query⟩
  · rw [file] at rooted
    cases rooted
    exact absurd mark (by decide)
  · have none : fragment = [] := by
      rcases marked with none | marked
      · exact none
      obtain ⟨more, text⟩ : ∃ more, fragment = 35 :: more := head?_eq_some_iff.mp marked
      have among : (35 : UInt8) ∈ url.getFile := by
        rw [file, text]
        simp
      exact absurd (clean 35 among) (by decide)
    rw [none, append_nil] at file
    rcases kind with ⟨rfl, query⟩ | rfl
    · exact .inl ⟨by rw [file, append_nil], query⟩
    · exact .inr file

/-- A blank does not start a fragment. -/
theorem fragment_eq_nil {fragment more rest : Bytes}
    (marked : fragment = [] ∨ fragment.head? = some 35)
    (same : space :: more = fragment ++ space :: rest) : fragment = [] := by
  rcases marked with none | marked
  · exact none
  · obtain ⟨tail, rfl⟩ := head?_eq_some_iff.mp marked
    cases same

/-- What is read as the target, where a blank follows, is the file. -/
theorem file_of_isTarget {url : Url} (valid : url.isValid = true) {target more rest : Bytes}
    (isTarget : IsTarget url target)
    (same : target ++ space :: more = url.getFile ++ space :: rest) :
    url.getFile = target := by
  rcases file_cases valid with ⟨file, path, query⟩ | ⟨c, back, file, mark⟩ |
    ⟨query, fragment, file, kind, marked⟩
  · rw [file] at same ⊢
    rcases isTarget.parts with ⟨given, -⟩ | given
    · rw [given, path]
    · rw [given, path] at same
      cases same
  · -- the target starts with a slash
    obtain ⟨tail, text⟩ : ∃ tail, target = slash :: tail := head?_eq_some_iff.mp isTarget.rooted
    rw [file, text, cons_append, cons_append, List.cons.injEq] at same
    rw [← same.1] at mark
    exact absurd mark (by decide)
  · rw [file, append_assoc, append_assoc] at same
    rw [file]
    rcases isTarget.parts with ⟨given, -⟩ | given
    · rw [given, append_cancel_left_eq] at same
      rcases kind with ⟨rfl, -⟩ | rfl
      · rw [fragment_eq_nil marked same, given, append_nil, append_nil]
      · cases same
    · rw [given, append_assoc, append_cancel_left_eq] at same
      rcases kind with ⟨rfl, -⟩ | rfl
      · rcases marked with rfl | marked
        · cases same
        · obtain ⟨tail, rfl⟩ := head?_eq_some_iff.mp marked
          cases same
      · rw [append_cancel_left_eq] at same
        rw [fragment_eq_nil marked same, given, append_nil]

theorem wellFramed_iff (request : Request) (options : Options)
    (valid : request.url.isValid = true) :
    request.WellFramed options (request.text options) ↔ request.Clean options := by
  have written := text_eq request options
  have lines := splits_written_iff ((request.headers options).fields.map headerLine) request.body
    (by
      intro line among
      obtain ⟨field, -, rfl⟩ := mem_map.mp among
      exact headerLine_ne_nil field)
  rw [forall_mem_map, lines_iff] at lines
  constructor
  · rintro ⟨target, isTarget, ⟨-, rest, split, splits⟩, -⟩
    rw [written, requestLine, requestLine] at split
    simp only [append_assoc, cons_append, append_cancel_left_eq, List.cons.injEq,
      true_and] at split
    have file : request.url.getFile = target := file_of_isTarget valid isTarget split.symm
    rw [file, append_cancel_left_eq, append_cancel_left_eq, append_cancel_left_eq]
      at split
    rw [← split] at splits
    obtain ⟨host, agent, extra⟩ := lines.mp splits
    exact ⟨file ▸ isTarget.rooted, file ▸ isTarget.clean, host, agent, extra⟩
  · intro clean
    have decomposes : Decomposes (request.text options)
        (requestLine request.method request.url.getFile)
        ((request.headers options).fields.map headerLine) request.body :=
      ⟨whole_requestLine request.method clean.target, _, written,
        lines.mpr ⟨clean.host, clean.agent, clean.extra⟩⟩
    refine ⟨request.url.getFile, isTarget_file valid clean.rooted clean.target, decomposes, ?_⟩
    intro first others body other
    exact other.unique decomposes

end Request

namespace Client.System

/-- A connection is opened in one place, for a usable URL and with the request queued. -/
theorem opened_of_start {system : System} {cause id index : Nat} {request : Request} {text : Bytes}
    (opens : Act.opened id index request text ∈ (system.start cause).2) :
    system.client.request.isUsable = true ∧
      (system.start cause).2 = [.opened system.current system.connections.length
        system.client.request (system.client.request.text system.client.options)] ∧
      (system.start cause).1.client.outgoing =
        system.client.request.text system.client.options := by
  have request' : system.restarted.client.request = system.client.request := by
    simp [restarted, withClient, teardown_client]
  have options : system.restarted.client.options = system.client.options := by
    simp [restarted, withClient, teardown_client]
  have count : system.restarted.connections.length = system.connections.length := by
    simp [restarted, withClient, teardown_length]
  have current : system.restarted.current = system.current := by
    simp [restarted, withClient]
  rcases start_cases system cause with ⟨why, message, failed⟩ | ⟨usable, -, begun⟩
  · rw [failed, fail] at opens
    split at opens <;> simp [quiet] at opens
  · rw [begun]
    refine ⟨usable, ?_, ?_⟩
    · simp only [openConnection, request', options, count, current]
    · simp only [openConnection, request', options]

/-- Where the client opens a connection, the bytes it has queued are the request, framed as it
was meant exactly if the target and the header lines are clean; and each header name is
there once, with the last value the caller gave it or else the one the client supplies. -/
theorem queued_wellFramed_iff (system : System) (cause id index : Nat) (request : Request)
    (text : Bytes) (opens : Act.opened id index request text ∈ (system.start cause).2) :
    request = system.client.request ∧ (system.start cause).1.client.outgoing = text ∧
      (request.headers system.client.options).Distinct ∧
      (∀ name, (request.headers system.client.options).get name =
        (Headers.lastOf request.extra.fields name).or
          ((request.supplied system.client.options).get name)) ∧
      (request.WellFramed system.client.options text ↔ request.Clean system.client.options) := by
  obtain ⟨usable, acts, queued⟩ := opened_of_start opens
  rw [acts] at opens
  cases mem_singleton.mp opens
  have valid : system.client.request.url.isValid = true := by
    rw [Request.isUsable, Bool.and_eq_true, Bool.and_eq_true] at usable
    exact usable.1.1
  obtain ⟨distinct, values⟩ := Headers.foldl_set system.client.request.extra.fields _
    (Request.supplied_distinct system.client.request system.client.options)
  exact ⟨rfl, queued, distinct, values,
    Request.wellFramed_iff system.client.request system.client.options valid⟩

/-- A request with a query and a header of the caller's that replaces one of the client's. -/
def sampleRequest : Request :=
  { url := ⟨ascii "http://h:81/a?q"⟩
    extra := ⟨[(ascii "connection", ascii "x")]⟩
    body := ascii "b" }

theorem sampleRequest_wellFramed :
    sampleRequest.WellFramed {} (sampleRequest.text {}) :=
  (queued_wellFramed_iff { client := { request := sampleRequest } } 0 0 0 sampleRequest
    (sampleRequest.text {}) (by decide)).2.2.2.2.mpr
    ⟨by decide, by decide, by decide, by decide, by decide⟩

/-- The fragment of a URL is sent to the server. -/
def fragmentRequest : Request := { url := ⟨ascii "http://h/a#f"⟩ }

theorem fragmentRequest_not_wellFramed :
    Act.opened 0 0 fragmentRequest (fragmentRequest.text {}) ∈
        (start { client := { request := fragmentRequest } } 0).2 ∧
      ¬fragmentRequest.WellFramed {} (fragmentRequest.text {}) := by
  refine ⟨by decide, ?_⟩
  intro framed
  have clean := (Request.wellFramed_iff fragmentRequest {} (by decide)).mp framed
  exact absurd (clean.target 35 (by decide)) (by decide)

end Client.System

end SamuraiFormal.Http

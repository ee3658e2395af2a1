import SamuraiFormal.Http.ClientReads
import SamuraiFormal.Http.ClientRequest

/-!
# The requests of a redirect chain

A call of `request()` puts one request on a socket, and one more for every redirect that is
followed.  `Chain` says what the requests of one call have to do with each other and with
the server's answers, which are read from the bytes that came in on their connections; it
holds in every run in which the options are not changed while a request is in flight,
whether or not the calls of `request()` overlap.
-/

namespace SamuraiFormal.Http

open Util
open Net
open Library.Traces
open List

variable {headers : Headers} {name : Bytes} {request : Request}

namespace Headers

/-- No field of this name. -/
def Lacks (headers : Headers) (name : Bytes) : Prop :=
  ∀ field ∈ headers.fields, iequals field.1 name = false

theorem lacks_remove (headers : Headers) (name : Bytes) : (headers.remove name).1.Lacks name := by
  intro field member
  simpa using (mem_filter.mp member).2

theorem Lacks.remove (lacks : headers.Lacks name) (other : Bytes) :
    (headers.remove other).1.Lacks name := by
  intro field member
  exact lacks field (mem_filter.mp member).1

end Headers

namespace Request

def contentType : Bytes := ascii "Content-Type"

/-- The client supplies no content type of its own. -/
theorem lacks_supplied (request : Request) (options : Options) :
    (request.supplied options).Lacks contentType := by
  rw [Headers.Lacks, supplied_fields]
  simp only [forall_mem_cons, forall_mem_append]
  refine ⟨by decide, by decide, ?_, ?_⟩
  · split
    · exact forall_mem_singleton.mpr
        (show iequals (ascii "User-Agent") contentType = false by decide)
    · exact forall_mem_nil _
  · split
    · exact forall_mem_singleton.mpr
        (show iequals (ascii "Content-Length") contentType = false by decide)
    · exact forall_mem_nil _

/-- A request without a content type among its own fields is sent without one. -/
theorem lacks_headers (lacks : request.extra.Lacks contentType) (options : Options) :
    (request.headers options).Lacks contentType := by
  rw [Headers.Lacks, headers, Headers.fields_foldl_set, forall_mem_append]
  exact ⟨fun field among => request.lacks_supplied options field (mem_filter.mp among).1,
    fun field among => lacks field ((Headers.lasting_sublist _).subset among)⟩

/-- A request that has lost its method and its body. -/
structure Stripped (request : Request) : Prop where
  method : request.method = .get
  body : request.body = []
  extra : request.extra.Lacks contentType

theorem stripped_redirected {code : Nat} (changes : request.changesMethod code = true)
    (next : Url) : (request.redirected code next).Stripped := by
  rw [redirected, if_pos changes]
  exact ⟨rfl, rfl, Headers.lacks_remove _ _⟩

/-- It stays so, whatever redirect comes next. -/
theorem Stripped.redirected (stripped : request.Stripped) (code : Nat) (next : Url) :
    (request.redirected code next).Stripped := by
  unfold Request.redirected
  split
  · exact ⟨rfl, rfl, stripped.extra.remove _⟩
  · exact ⟨stripped.method, stripped.body, stripped.extra⟩

@[simp] theorem redirected_url (request : Request) (code : Nat) (next : Url) :
    (request.redirected code next).url = next := by
  unfold redirected
  split
  · rfl
  · rfl

/-- Where a sequence of redirects leads. -/
def arrive (original : Request) (redirects : List (Nat × Bytes)) : Request :=
  redirects.foldl (fun request answer =>
    request.redirected answer.1 (request.url.resolve answer.2)) original

theorem arrive_append (original : Request) (redirects : List (Nat × Bytes)) (code : Nat)
    (location : Bytes) :
    original.arrive (redirects ++ [(code, location)]) =
      (original.arrive redirects).redirected code
        ((original.arrive redirects).url.resolve location) := by
  rw [arrive, foldl_append]
  rfl

theorem arrive_take_succ (original : Request) {redirects : List (Nat × Bytes)} {k code : Nat}
    {location : Bytes} (answer : redirects[k]? = some (code, location)) :
    original.arrive (redirects.take (k + 1)) =
      (original.arrive (redirects.take k)).redirected code
        ((original.arrive (redirects.take k)).url.resolve location) := by
  rw [take_add_one, answer]
  exact original.arrive_append _ code location

end Request

namespace Client

/-- The requests that were put on sockets for a call of `request()`. -/
def hops (id : Nat) (trace : List Act) : List Request :=
  trace.filterMap fun
    | .opened owner _ request _ => if owner = id then some request else none
    | _ => none

/-- The codes and the locations of the redirects that were followed for it. -/
def redirects (id : Nat) (trace : List Act) : List (Nat × Bytes) :=
  trace.filterMap fun
    | .redirected _ victim code location => if victim = id then some (code, location) else none
    | _ => none

/-- None of the first redirects turned its request into a `GET`. -/
def KeepsMethod (hops : List Request) (redirects : List (Nat × Bytes)) (count : Nat) : Prop :=
  ∀ k < count, ∀ hop code location, hops[k]? = some hop →
    redirects[k]? = some (code, location) → hop.changesMethod code = false

/-- The requests of one call of `request()`, against the redirects between them. -/
structure Chain (options : Options) (original : Request) (hops : List Request)
    (redirects : List (Nat × Bytes)) : Prop where
  count : hops.length ≤ options.maxRedirects + 1
  first : ∀ hop, hops[0]? = some hop → hop = original
  secure : original.isHttps = true → ∀ hop ∈ hops, hop.isHttps = true
  target : ∀ k hop next, hops[k]? = some hop → hops[k + 1]? = some next →
    ∃ code location, redirects[k]? = some (code, location) ∧ next.url = hop.url.resolve location
  kept : ∀ k hop, hops[k]? = some hop → KeepsMethod hops redirects k →
    hop.method = original.method ∧ hop.extra = original.extra ∧ hop.body = original.body
  changed : ∀ k hop, hops[k]? = some hop → ¬ KeepsMethod hops redirects k →
    hop.method = .get ∧ hop.body = [] ∧
      (hop.headers options).Lacks (ascii "Content-Type")

/-- The requests that a list of redirects leads to, in order. -/
structure Visits (options : Options) (original : Request) (hops : List Request)
    (redirects : List (Nat × Bytes)) : Prop where
  places : ∀ k hop, hops[k]? = some hop → hop = original.arrive (redirects.take k)
  answers : hops.length ≤ redirects.length + 1
  count : hops.length ≤ options.maxRedirects + 1
  secure : original.isHttps = true → ∀ hop ∈ hops, hop.isHttps = true

namespace Visits

variable {options : Options} {original : Request} {hops : List Request}
  {redirects : List (Nat × Bytes)}

theorem nil (options : Options) (original : Request) (redirects : List (Nat × Bytes)) :
    Visits options original [] redirects where
  places := by simp
  answers := Nat.zero_le _
  count := Nat.zero_le _
  secure := by simp

variable (visits : Visits options original hops redirects)
include visits

/-- Another redirect is followed. -/
theorem redirected (answer : Nat × Bytes) :
    Visits options original hops (redirects ++ [answer]) where
  places k hop place := by
    have inside : k < hops.length := (List.getElem?_eq_some_iff.mp place).1
    have within : k ≤ redirects.length := by
      have answers := visits.answers
      omega
    rw [take_append_of_le_length within]
    exact visits.places k hop place
  answers := by
    have answers := visits.answers
    rw [length_append]
    omega
  count := visits.count
  secure := visits.secure

/-- The request that the redirects lead to is put on a socket. -/
theorem opened (answered : hops.length = redirects.length)
    (fewer : redirects.length ≤ options.maxRedirects)
    (secure : original.isHttps = true → (original.arrive redirects).isHttps = true) :
    Visits options original (hops ++ [original.arrive redirects]) redirects where
  places k hop place := by
    rcases Nat.lt_or_ge k hops.length with earlier | last
    · rw [getElem?_append_left earlier] at place
      exact visits.places k hop place
    rw [getElem?_append_right last] at place
    obtain ⟨inside, same⟩ := List.getElem?_eq_some_iff.mp place
    have whole : redirects.length ≤ k := answered ▸ last
    rw [take_of_length_le whole, ← same, getElem_singleton]
  answers := by
    rw [length_append, length_singleton, answered]
  count := by
    rw [length_append, answered]
    exact Nat.succ_le_succ fewer
  secure https hop member := by
    rcases mem_append.mp member with earlier | last
    · exact visits.secure https hop earlier
    · rw [mem_singleton.mp last]
      exact secure https

/-- There is a hop before every hop but the first, and the redirect that left it. -/
theorem previous {k : Nat} {next : Request} (place : hops[k + 1]? = some next) :
    ∃ hop code location, hops[k]? = some hop ∧ redirects[k]? = some (code, location) ∧
      next = hop.redirected code (hop.url.resolve location) := by
  have inside : k + 1 < hops.length := (List.getElem?_eq_some_iff.mp place).1
  have answers := visits.answers
  obtain ⟨hop, found⟩ : ∃ hop, hops[k]? = some hop :=
    ⟨_, getElem?_eq_getElem (Nat.lt_of_succ_lt inside)⟩
  obtain ⟨⟨code, location⟩, answer⟩ : ∃ answer, redirects[k]? = some answer :=
    ⟨_, getElem?_eq_getElem (by omega)⟩
  refine ⟨hop, code, location, found, answer, ?_⟩
  rw [visits.places k hop found, visits.places (k + 1) next place]
  exact original.arrive_take_succ answer

/-- What a hop is like, by what the redirects before it did. -/
theorem hop_cases (k : Nat) (hop : Request) (place : hops[k]? = some hop) :
    (KeepsMethod hops redirects k → hop.method = original.method ∧ hop.extra = original.extra ∧
      hop.body = original.body) ∧
    (¬ KeepsMethod hops redirects k → hop.Stripped) := by
  induction k generalizing hop with
  | zero =>
    have start : hop = original := visits.places 0 hop place
    refine ⟨fun _ => by rw [start]; exact ⟨rfl, rfl, rfl⟩, fun changed => ?_⟩
    exact absurd (fun k below => absurd below (Nat.not_lt_zero k)) changed
  | succ k ih =>
    obtain ⟨before, code, location, found, answer, rfl⟩ := visits.previous place
    have earlier := ih before found
    constructor
    · intro keeps
      have same : before.changesMethod code = false :=
        keeps k (Nat.lt_succ_self k) before code location found answer
      rw [Request.redirected, if_neg (by simp [same])]
      exact earlier.1 fun j below => keeps j (Nat.lt_succ_of_lt below)
    · intro changed
      by_cases keeps : KeepsMethod hops redirects k
      · -- the last redirect is the first one to change the method
        apply Request.stripped_redirected
        by_contra same
        apply changed
        intro j below other otherCode otherLocation place' answer'
        rcases Nat.lt_succ_iff_lt_or_eq.mp below with less | rfl
        · exact keeps j less other otherCode otherLocation place' answer'
        rw [found] at place'
        rw [answer] at answer'
        cases place'
        cases answer'
        simpa using same
      · exact (earlier.2 keeps).redirected code _

theorem chain :
    Chain options original hops redirects where
  count := visits.count
  first hop place := visits.places 0 hop place
  secure := visits.secure
  target k hop next here there := by
    obtain ⟨before, code, location, found, answer, rfl⟩ := visits.previous there
    rw [here] at found
    cases found
    exact ⟨code, location, answer, Request.redirected_url _ _ _⟩
  kept k hop place := (visits.hop_cases k hop place).1
  changed k hop place changed := by
    have stripped := (visits.hop_cases k hop place).2 changed
    exact ⟨stripped.method, stripped.body, Request.lacks_headers stripped.extra options⟩

end Visits

/-! ## The chain of the request in hand -/

section Acts

variable {front back acts : List Act} {id : Nat}

theorem hops_append : hops id (front ++ back) = hops id front ++ hops id back :=
  filterMap_append

theorem redirects_append : redirects id (front ++ back) = redirects id front ++ redirects id back :=
  filterMap_append

/-- A redirect leads on from the last request that was put on a socket for its call. -/
def Leads (front : List Act) : Act → Prop
  | .redirected _ victim _ _ => (hops victim front).length = (redirects victim front).length + 1
  | _ => True

/-- Acts that no chain looks at. -/
def Act.isAside : Act → Bool
  | .requested _ _ _ => false
  | .opened _ _ _ _ => false
  | .redirected _ _ _ _ => false
  | _ => true

theorem Act.isAside_of_quiet {act : Act} (quiet : act.isQuiet = true) : act.isAside = true := by
  cases act with
  | fed index data => rfl
  | socket index act => rfl
  | _ => cases quiet

theorem Leads.of_aside {act : Act} (aside : act.isAside = true) : Leads front act := by
  cases act with
  | redirected => cases aside
  | _ => trivial

theorem hops_aside (aside : ∀ act ∈ acts, act.isAside = true) : hops id acts = [] := by
  apply filterMap_eq_nil_iff.mpr
  intro act member
  have known := aside act member
  cases act with
  | opened owner index request text => cases known
  | _ => rfl

theorem redirects_aside (aside : ∀ act ∈ acts, act.isAside = true) : redirects id acts = [] := by
  apply filterMap_eq_nil_iff.mpr
  intro act member
  have known := aside act member
  cases act with
  | redirected cause victim code location => cases known
  | _ => rfl

end Acts

/-- The request in hand is where the redirects of its chain have led. -/
structure Stands (view : View) (trace : List Act) (original : Request) (options : Options) :
    Prop where
  options : options = view.options
  request : view.request = original.arrive (redirects view.current trace)
  followed : (redirects view.current trace).length = view.redirectsFollowed
  fewer : view.redirectsFollowed ≤ view.options.maxRedirects
  secure : original.isHttps = true → view.request.isHttps = true

/-- The request in hand is about to be put on a socket. -/
def Waits (view : View) (trace : List Act) : Prop :=
  ∀ original options, .requested view.current original options ∈ trace →
    Stands view trace original options ∧
      (hops view.current trace).length = view.redirectsFollowed

/-- The requests of all chains so far. -/
structure Trail (view : View) (trace : List Act) : Prop where
  issued : ∀ id original options, .requested id original options ∈ trace → id < view.issued
  unused : ∀ id, view.issued ≤ id → hops id trace = [] ∧ redirects id trace = []
  visits : ∀ id original options, .requested id original options ∈ trace →
    Visits options original (hops id trace) (redirects id trace)
  texts : ∀ id original options index request text, .requested id original options ∈ trace →
    .opened id index request text ∈ trace → text = request.text options
  leads : Always Leads trace
  current : view.busy = true → ∃ original options, .requested view.current original options ∈ trace
  live : view.busy = true → ∀ original options, .requested view.current original options ∈ trace →
    Stands view trace original options ∧
      (hops view.current trace).length = view.redirectsFollowed + 1

/-- Two views with the same request in hand. -/
structure View.SameRequest (view next : View) : Prop where
  current : next.current = view.current
  request : next.request = view.request
  redirectsFollowed : next.redirectsFollowed = view.redirectsFollowed
  options : next.options = view.options

namespace Trail

variable {view next : View} {trace acts : List Act} {cause : Nat}

theorem mem_of_aside {act : Act} (aside : ∀ act ∈ acts, act.isAside = true)
    (chained : act.isAside = false) (member : act ∈ trace ++ acts) : act ∈ trace := by
  rcases mem_append.mp member with earlier | now
  · exact earlier
  have known := aside act now
  rw [chained] at known
  cases known

/-- Acts that no chain looks at, while the request in hand stays or ends. -/
theorem aside (trail : Trail view trace) (aside : ∀ act ∈ acts, act.isAside = true)
    (issued : next.issued = view.issued)
    (stays : next.busy = true → view.busy = true ∧ view.SameRequest next) :
    Trail next (trace ++ acts) := by
  have sameHops (id : Nat) : hops id (trace ++ acts) = hops id trace := by
    rw [hops_append, hops_aside aside, append_nil]
  have sameRedirects (id : Nat) : redirects id (trace ++ acts) = redirects id trace := by
    rw [redirects_append, redirects_aside aside, append_nil]
  constructor
  · intro id original options made
    rw [issued]
    exact trail.issued id original options (mem_of_aside aside rfl made)
  · intro id later
    rw [sameHops, sameRedirects]
    exact trail.unused id (issued ▸ later)
  · intro id original options made
    rw [sameHops, sameRedirects]
    exact trail.visits id original options (mem_of_aside aside rfl made)
  · intro id original options index request text made opened
    exact trail.texts id original options index request text (mem_of_aside aside rfl made)
      (mem_of_aside aside rfl opened)
  · apply trail.leads.append
    intro front act back split
    exact .of_aside (aside act (by simp [split]))
  · intro busy
    obtain ⟨was, same⟩ := stays busy
    obtain ⟨original, options, made⟩ := trail.current was
    exact ⟨original, options, mem_append_left _ (same.current ▸ made)⟩
  · intro busy original options made
    obtain ⟨was, same⟩ := stays busy
    rw [same.current] at made ⊢
    obtain ⟨stands, length⟩ := trail.live was original options (mem_of_aside aside rfl made)
    rw [sameHops, same.redirectsFollowed]
    refine ⟨?_, length⟩
    constructor
    · rw [same.options]
      exact stands.options
    · rw [same.current, same.request, sameRedirects]
      exact stands.request
    · rw [same.current, same.redirectsFollowed, sameRedirects]
      exact stands.followed
    · rw [same.redirectsFollowed, same.options]
      exact stands.fewer
    · rw [same.request]
      exact stands.secure

/-- A redirect is followed: the next request is in hand. -/
theorem redirected (trail : Trail view trace) (cause code : Nat) {location : Bytes}
    (busy : view.busy = true) (fewer : view.redirectsFollowed < view.options.maxRedirects)
    (secure : view.request.isHttps = true →
      iequals (view.request.url.resolve location).getScheme (ascii "https") = true) :
    let act : Act := .redirected cause view.current code location
    Trail { view.redirected code location with busy := false } (trace ++ [act]) ∧
      Waits (view.redirected code location) (trace ++ [act]) := by
  intro act
  obtain ⟨asked, given, known⟩ := trail.current busy
  have sameHops (id : Nat) : hops id (trace ++ [act]) = hops id trace := by
    rw [hops_append]
    exact append_nil _
  have others (id : Nat) (other : view.current ≠ id) :
      redirects id (trace ++ [act]) = redirects id trace := by
    simp [redirects, act, other]
  have mine : redirects view.current (trace ++ [act]) =
      redirects view.current trace ++ [(code, location)] := by
    simp [redirects, act]
  have earlier {other : Act} (differs : other ≠ act) (member : other ∈ trace ++ [act]) :
      other ∈ trace := by
    rcases mem_append.mp member with was | now
    · exact was
    · exact absurd (mem_singleton.mp now) differs
  refine ⟨?_, ?_⟩
  · constructor
    · intro id original options made
      exact trail.issued id original options (earlier nofun made)
    · intro id later
      have other : view.current ≠ id := Nat.ne_of_lt ((trail.issued _ _ _ known).trans_le later)
      rw [sameHops, others id other]
      exact trail.unused id later
    · intro id original options made
      have visits := trail.visits id original options (earlier nofun made)
      rw [sameHops]
      by_cases same : view.current = id
      · subst same
        rw [mine]
        exact visits.redirected _
      · rw [others id same]
        exact visits
    · intro id original options index request text made opened
      exact trail.texts id original options index request text (earlier nofun made)
        (earlier nofun opened)
    · obtain ⟨stands, length⟩ := trail.live busy asked given known
      exact always_snoc.mpr ⟨trail.leads, by rw [Leads, length, stands.followed]⟩
    · exact nofun
    · exact nofun
  · intro original options made
    obtain ⟨stands, length⟩ := trail.live busy original options (earlier nofun made)
    refine ⟨⟨stands.options, ?_, ?_, fewer, ?_⟩, ?_⟩
    · have arrived := original.arrive_append (redirects view.current trace) code location
      rw [← stands.request] at arrived
      exact (congrArg original.arrive mine).trans arrived |>.symm
    · have followed := stands.followed
      have length := congrArg List.length mine
      rw [length_append, followed] at length
      exact length
    · intro https
      have next := secure (stands.secure https)
      unfold View.redirected Request.isHttps
      rwa [Request.redirected_url]
    · exact (congrArg List.length (sameHops view.current)).trans length

/-- `internal_start()` for the request in hand. -/
theorem begins (trail : Trail { view with busy := false } trace) (waits : Waits view trace)
    {asked : Request} {given : Options} (known : .requested view.current asked given ∈ trace)
    (begins : Begins cause view acts next) : Trail next (trace ++ acts) := by
  cases begins with
  | refused why message =>
    exact trail.aside (by simp [Act.isAside]) rfl nofun
  | opened index kind =>
    have others (id : Nat) (other : view.current ≠ id) :
        hops id (trace ++ [.opened view.current index view.request
          (view.request.text view.options)]) = hops id trace := by
      simp [hops, other]
    have mine : hops view.current (trace ++ [.opened view.current index view.request
          (view.request.text view.options)]) =
        hops view.current trace ++ [view.request] := by
      simp [hops]
    have same (id : Nat) : redirects id (trace ++ [.opened view.current index view.request
        (view.request.text view.options)]) = redirects id trace := by
      rw [redirects_append]
      exact append_nil _
    have earlier {id : Nat} {original : Request} {options : Options}
        (member : .requested id original options ∈ trace ++ [.opened view.current index
          view.request (view.request.text view.options)]) :
        .requested id original options ∈ trace := by
      rcases mem_append.mp member with was | now
      · exact was
      · exact absurd (mem_singleton.mp now) nofun
    constructor
    · intro id original options made
      exact trail.issued id original options (earlier made)
    · intro id later
      have other : view.current ≠ id := Nat.ne_of_lt ((trail.issued _ _ _ known).trans_le later)
      rw [others id other, same]
      exact trail.unused id later
    · intro id original options made
      have visits := trail.visits id original options (earlier made)
      rw [same]
      by_cases own : view.current = id
      · subst own
        obtain ⟨stands, length⟩ := waits original options (earlier made)
        rw [mine, stands.request]
        apply visits.opened
        · rw [length, stands.followed]
        · rw [stands.followed, stands.options]
          exact stands.fewer
        · rw [← stands.request]
          exact stands.secure
      · rw [others id own]
        exact visits
    · intro id original options index' request text made opened
      rcases mem_append.mp opened with was | now
      · exact trail.texts id original options index' request text (earlier made) was
      · cases mem_singleton.mp now
        rw [(waits original options (earlier made)).1.options]
    · exact always_snoc.mpr ⟨trail.leads, trivial⟩
    · exact fun _ => ⟨asked, given, mem_append_left _ known⟩
    · intro _ original options made
      obtain ⟨stands, length⟩ := waits original options (earlier made)
      refine ⟨⟨stands.options, ?_, ?_, stands.fewer, stands.secure⟩, ?_⟩
      · exact stands.request.trans (congrArg original.arrive (same view.current).symm)
      · exact (congrArg List.length (same view.current)).trans stands.followed
      · have one := congrArg List.length mine
        rw [length_append, length] at one
        exact one

/-- A call of `request()`, whether or not its request becomes the one in hand. -/
theorem requested (trail : Trail view trace) (request : Request) (options : Options) :
    Trail { view with busy := false, issued := view.issued + 1 }
      (trace ++ [.requested view.issued request options]) := by
  have sameHops (id : Nat) :
      hops id (trace ++ [.requested view.issued request options]) = hops id trace := by
    rw [hops_append]
    exact append_nil _
  have sameRedirects (id : Nat) :
      redirects id (trace ++ [.requested view.issued request options]) = redirects id trace := by
    rw [redirects_append]
    exact append_nil _
  constructor
  · intro id original other made
    rcases mem_append.mp made with was | now
    · exact Nat.lt_succ_of_lt (trail.issued id original other was)
    · cases mem_singleton.mp now
      exact Nat.lt_succ_self _
  · intro id later
    rw [sameHops, sameRedirects]
    exact trail.unused id (Nat.le_of_succ_le later)
  · intro id original other made
    rw [sameHops, sameRedirects]
    rcases mem_append.mp made with was | now
    · exact trail.visits id original other was
    cases mem_singleton.mp now
    rw [(trail.unused view.issued (Nat.le_refl _)).1]
    exact Visits.nil options request _
  · intro id original other index sent text made opened
    have opened : .opened id index sent text ∈ trace := by
      rcases mem_append.mp opened with was | now
      · exact was
      · exact absurd (mem_singleton.mp now) nofun
    rcases mem_append.mp made with was | now
    · exact trail.texts id original other index sent text was opened
    -- nothing was opened under a number that was not given out
    cases mem_singleton.mp now
    have none := (trail.unused view.issued (Nat.le_refl _)).1
    have missing := filterMap_eq_nil_iff.mp none _ opened
    simp at missing
  · exact always_snoc.mpr ⟨trail.leads, trivial⟩
  · exact nofun
  · exact nofun

/-- A new request waits for its socket. -/
theorem waits_requested (trail : Trail view trace) (request : Request) :
    Waits { view with
        current := view.issued, issued := view.issued + 1, request := request
        redirectsFollowed := 0 }
      (trace ++ [.requested view.issued request view.options]) := by
  intro original options made
  have fresh : .requested view.issued original options ∉ trace := by
    intro was
    exact absurd (trail.issued _ _ _ was) (Nat.lt_irrefl _)
  have unused := trail.unused view.issued (Nat.le_refl _)
  have noHops : hops view.issued (trace ++ [.requested view.issued request view.options]) = [] := by
    rw [hops_append, unused.1]
    rfl
  have noRedirects :
      redirects view.issued (trace ++ [.requested view.issued request view.options]) = [] := by
    rw [redirects_append, unused.2]
    rfl
  rcases mem_append.mp made with was | now
  · exact absurd was fresh
  cases mem_singleton.mp now
  refine ⟨⟨rfl, ?_, ?_, Nat.zero_le _, id⟩, ?_⟩
  · exact (congrArg request.arrive noRedirects).symm
  · exact congrArg List.length noRedirects
  · exact congrArg List.length noHops

theorem turn (trail : Trail view trace) (active : view.reported = false → view.busy = true)
    (turn : Turn cause view acts next) : Trail next (trace ++ acts) := by
  cases turn with
  | still acts quiet =>
    apply trail.aside
    · intro act member
      exact Act.isAside_of_quiet (quiet act member)
    · rfl
    · intro busy
      exact ⟨busy, rfl, rfl, rfl, rfl⟩
  | failed front _ _ quiet | responded front _ _ quiet =>
    refine trail.aside (forall_mem_append.mpr ⟨?_, forall_mem_singleton.mpr rfl⟩) rfl nofun
    exact fun act first => Act.isAside_of_quiet (quiet act first)
  | redirected front back code location next quiet unreported fewer secure begins =>
    have busy := active unreported
    have read : Trail view (trace ++ front) :=
      trail.aside (fun act member => Act.isAside_of_quiet (quiet act member)) rfl
        fun busy => ⟨busy, rfl, rfl, rfl, rfl⟩
    obtain ⟨sent, waits⟩ := read.redirected cause code busy fewer secure
    obtain ⟨asked, given, known⟩ := read.current busy
    have started := sent.begins waits (mem_append_left _ known) begins
    simpa only [append_assoc, singleton_append] using started

end Trail

namespace System

variable {system : System}

/-- The options are not changed while a request is in flight. -/
def Fixed (system : System) : Label → Prop
  | .setOptions _ => system.client.busy = false
  | _ => True

instance (system : System) (label : Label) : Decidable (system.Fixed label) :=
  match label with
  | .setOptions _ => inferInstanceAs (Decidable (system.client.busy = false))
  | .resume _ | .back | .request _ | .abort | .setDefault _ | .deadline | .monitor _ _ | .timeout _
  | .found _ _ _ _ | .notFound _ _ => .isTrue trivial

theorem trail_step (sound : system.Sound) {trace acts : List Act} {label : Label} {next : System}
    (trail : Trail system.view trace) (fixed : system.Fixed label)
    (moves : system.step label = some (next, acts)) : Trail next.view (trace ++ acts) := by
  obtain ⟨_, turns⟩ := step_cases sound moves
  generalize next.view = after at turns
  cases turns with
  | code label cause active owns turn => exact trail.turn active turn
  | refused request why message busy =>
    have made := trail.requested request system.client.options
    have ended : Trail { system.view.ended with issued := system.issued + 1 }
        ((trace ++ [.requested system.issued request system.client.options]) ++
          [.error system.issued system.current why message]) :=
      made.aside (by simp [Act.isAside]) rfl nofun
    rw [append_assoc] at ended
    exact ended
  | begun request idle begins =>
    have made := trail.requested request system.client.options
    have ready : Trail { system.view with
        busy := false, current := system.issued, issued := system.issued + 1, request := request
        redirectsFollowed := 0 }
        (trace ++ [.requested system.issued request system.client.options]) :=
      ⟨made.issued, made.unused, made.visits, made.texts, made.leads, nofun, nofun⟩
    have started := Trail.begins ready (trail.waits_requested request)
      (mem_append_right _ (mem_singleton_self _)) begins
    rw [append_assoc] at started
    exact started
  | aborted =>
    refine trail.aside ?_ rfl nofun
    intro act member
    split at member
    · rw [mem_singleton.mp member]
      rfl
    · cases member
  | setOptions options =>
    refine trail.aside (forall_mem_nil _) rfl ?_
    intro busy
    have idle : system.client.busy = false := fixed
    have busy : system.client.busy = true := busy
    rw [idle] at busy
    cases busy
  | setDefault proxy =>
    rw [append_nil]
    exact trail

theorem Fresh.trail (fresh : system.Fresh) : Trail system.view [] := by
  have idle : system.view.busy = false := by
    rw [view, fresh.client]
  constructor
  · simp
  · intro id _
    exact ⟨rfl, rfl⟩
  · simp
  · simp
  · exact always_nil _
  · simp [idle]
  · simp

theorem run_trail {origin : System} {trace : List Act} (fresh : origin.Fresh)
    (run : Run step Fixed origin system trace) : system.Sound ∧ Trail system.view trace := by
  refine run.invariant (fun system trace => system.Sound ∧ Trail system.view trace)
    ⟨fresh.sound, fresh.trail⟩ ?_
  intro system next trace acts label holds fixed moves
  exact ⟨(step_cases holds.1 moves).1, trail_step holds.1 holds.2 fixed moves⟩

/-- Whatever the servers answer, the requests that one call of `request()` puts on sockets
form a chain, and their texts are those of its requests.  The redirect that leads on from a
request is the response that the parser makes of the bytes received on its connection. -/
theorem requests_chain {origin : System} {trace : List Act} (fresh : origin.Fresh)
    (run : Run step Fixed origin system trace) {id : Nat} {original : Request} {options : Options}
    (made : .requested id original options ∈ trace) :
    Chain options original (hops id trace) (redirects id trace) ∧
      (∀ index request text, .opened id index request text ∈ trace →
        text = request.text options) ∧
      ∀ front cause code location back,
        trace = front ++ .redirected cause id code location :: back →
          (hops id front).length = (redirects id front).length + 1 ∧
          ∃ index request limits, (openings front).getLast? = some (id, index, request) ∧
            Redirects (parsed limits request (received index front)).parser.response
              code location := by
  have trail := (run_trail fresh run).2
  refine ⟨(trail.visits id original options made).chain, ?_, ?_⟩
  · intro index request text opened
    exact trail.texts id original options index request text made opened
  · intro front cause code location back split
    exact ⟨trail.leads _ _ _ split, (run_reads fresh run).2.answers _ _ _ split⟩

def postRequest : Request where
  method := .post
  url := ⟨ascii "http://10.0.0.1/a"⟩
  extra := ⟨[(Request.contentType, ascii "text/xml")]⟩
  body := ascii "<a/>"

def seeOther : Bytes :=
  ascii "HTTP/1.1 303 See Other\r\nLocation: /b\r\nContent-Length: 0\r\n\r\n"

/-- The server answers a `POST` with 303. -/
def sentOn : List Label :=
  [.setOptions { maxRedirects := 1 }, .request postRequest] ++ connecting ++
    [.monitor 0 { write := true }] ++ List.replicate 6 (.resume { sent := .count 200 }) ++
    [.monitor 0 { read := true }] ++ List.replicate 5 (.resume { received := .data seeOther })

theorem sentOn_chains :
    hops 0 (played sentOn).2 = [postRequest, { url := ⟨ascii "http://10.0.0.1/b"⟩ }] ∧
    Chain { maxRedirects := 1 } postRequest (hops 0 (played sentOn).2)
      (redirects 0 (played sentOn).2) := by
  have run : Run step Fixed {} (played sentOn).1 (played sentOn).2 :=
    run_played (by decide +kernel) (by decide +kernel)
  have made : .requested 0 postRequest { maxRedirects := 1 } ∈ (played sentOn).2 := by
    decide +kernel
  exact ⟨by decide +kernel, (requests_chain ⟨rfl, rfl, rfl, rfl, rfl, rfl⟩ run made).1⟩

end System

end Client

end SamuraiFormal.Http

import SurfCam.Logic.PercentEncoding
import SurfCam.Logic.Trace
import SurfCam.Upload.Handles
import Mathlib.Data.List.DropRight
import Mathlib.Data.List.Infix

/-!
# The mock of the API

The handlers of `mock_api_server.py`, and the client against them.  A request target is a string of
bytes; so is what a handler reads of it, since it is compared with ASCII texts only.  Of libcurl and
of the JSON libraries no more is known than what they are documented to do: a transfer may fail, and
what `curl_easy_escape` hands out is a hypothesis.
-/

namespace SurfCam

open Interaction PercentEncoding

/-! ## What a client asks for -/

/-- `urlparse`: the path and the query, without the fragment. -/
def splitTarget (target : Str) : Str × Str :=
  let url := target.takeWhile (· ≠ '#')
  (splitFirst '?' url).getD (url, [])

/-- The requests and their replies. -/
def sent : Event Net → Option (Request × HttpReply)
  | ⟨.curlEasyPerform _ request, reply⟩ => some (request, reply)
  | _ => none

theorem performed_of_sent {events : List (Event Net)} {x : Request × HttpReply}
    (h : x ∈ events.filterMap sent) : ∃ curl, ⟨.curlEasyPerform curl x.1, x.2⟩ ∈ events := by
  obtain ⟨⟨c, r⟩, he, hx⟩ := List.mem_filterMap.mp h
  cases c with
  | curlEasyPerform curl request =>
    cases hx
    exact ⟨curl, he⟩
  | _ => cases hx

theorem sent_freeHeaders {list : Option Nat} {α : Type} {f : Unit → Prog Net α}
    {events : List (Event Net)} {o : Option α} (h : Exec (freeHeaders list >>= f) events o) :
    ∃ rest, events.filterMap sent = rest.filterMap sent ∧ rest ⊆ events ∧ Exec (f ()) rest o := by
  cases list with
  | none => exact ⟨events, rfl, List.Subset.refl _, h⟩
  | some list =>
    obtain ⟨_, rest, rfl, hrest⟩ := exec_call h
    exact ⟨rest, rfl, List.subset_cons_self _ _, hrest⟩

namespace ApiClient

def checkPath : Str := "/check-streaming-requested".toList

/-- The bytes that `curl_easy_escape` keeps. -/
def unreserved (c : Char) : Bool :=
  (48 ≤ c.toNat ∧ c.toNat ≤ 57) ∨ (65 ≤ c.toNat ∧ c.toNat ≤ 90) ∨
    (97 ≤ c.toNat ∧ c.toNat ≤ 122) ∨ c = '-' ∨ c = '.' ∨ c = '_' ∨ c = '~'

/-- What `curl_easy_escape` is documented to do: every other byte becomes `%XX`. -/
def Escaped : (c : NetCall) → c.Reply → Prop
  | .curlEasyEscape _ text, some (_, escaped) => Encodes unreserved text escaped
  | _, _ => True

section

variable {self : ApiClient} {spotId text escapedSpot : Str}

/-- What stands in an escaped string is printable. -/
theorem printable_escaped (h : Encodes unreserved text escapedSpot) {c : Char}
    (hc : c ∈ escapedSpot) : 33 ≤ c.toNat ∧ c.toNat ≤ 126 := by
  rcases h.mem hc with h | rfl | h
  · have h := of_decide_eq_true h
    rcases h with h | h | h | rfl | rfl | rfl | rfl
    · omega
    · omega
    · omega
    all_goals decide
  · decide
  · unfold hexValue at h
    by_cases hdigit : 48 ≤ c.toNat ∧ c.toNat ≤ 57
    · omega
    by_cases hupper : 65 ≤ c.toNat ∧ c.toNat ≤ 70
    · omega
    by_cases hlower : 97 ≤ c.toNat ∧ c.toNat ≤ 102
    · omega
    · rw [if_neg hdigit, if_neg hupper, if_neg hlower] at h
      contradiction

/-- It has none of the characters that have a meaning in a URL. -/
theorem not_mem_escaped (h : Encodes unreserved text escapedSpot) {x : Char}
    (hx : x ∈ ['#', '?', '&', '+', '=', ';', '/', '\x00']) : x ∉ escapedSpot := by
  intro hmem
  have hno : ∀ y ∈ ['#', '?', '&', '+', '=', ';', '/', '\x00'],
      ¬ (unreserved y = true ∨ y = '%' ∨ (hexValue y).isSome) := by simp [unreserved, hexValue]
  exact hno x hx (h.mem hmem)

/-- Characters that are not in a string do not end it. -/
theorem takeWhile_ne {x : Char} {s : Str} (h : x ∉ s) : s.takeWhile (· ≠ x) = s := by
  have hall : ∀ c ∈ s, decide (c ≠ x) = true := fun c hc => decide_eq_true fun he => h (he ▸ hc)
  rw [← List.append_nil s, List.takeWhile_append_of_pos hall, List.takeWhile_nil]

theorem not_mem_streamingUrl (h : Encodes unreserved text escapedSpot) {x : Char}
    (hx : x ∈ ['#', '\x00']) (hendpoint : x ∉ self.apiEndpoint_) :
    x ∉ self.streamingUrl escapedSpot := by
  have hescape : x ∉ escapedSpot := by
    apply not_mem_escaped h
    rcases List.mem_pair.mp hx with rfl | rfl <;> decide
  have hpath : ∀ y ∈ ['#', '\x00'], y ∉ "/check-streaming-requested?spot_id=".toList := by simp
  rw [streamingUrl, List.append_assoc, List.mem_append, List.mem_append]
  rintro (h | h | h)
  · exact hendpoint h
  · exact hpath x hx h
  · exact hescape h

theorem splitTarget_streamingUrl (h : Encodes unreserved text escapedSpot)
    (hendpoint : ∀ x ∈ ['#', '?', '\x00'], x ∉ self.apiEndpoint_) :
    splitTarget (cStr (self.streamingUrl escapedSpot)) =
      (self.apiEndpoint_ ++ checkPath, "spot_id=".toList ++ escapedSpot) := by
  have hfront : '?' ∉ self.apiEndpoint_ ++ checkPath := by
    rw [List.mem_append]
    rintro (h | h)
    · exact hendpoint '?' (by decide) h
    · exact absurd h (by decide)
  have hurl : self.streamingUrl escapedSpot =
      (self.apiEndpoint_ ++ checkPath) ++ '?' :: ("spot_id=".toList ++ escapedSpot) := by
    have hpath : "/check-streaming-requested?spot_id=".toList =
        checkPath ++ '?' :: "spot_id=".toList := by decide
    rw [streamingUrl, hpath]
    simp only [List.append_assoc, List.cons_append]
  rw [cStr, takeWhile_ne (not_mem_streamingUrl h (by decide) (hendpoint _ (by decide))),
    splitTarget, takeWhile_ne (not_mem_streamingUrl h (by decide) (hendpoint _ (by decide))),
    hurl, splitFirst_append hfront]
  rfl

theorem parseQuery_spot (h : Encodes unreserved text escapedSpot) :
    parseQuery ("spot_id=".toList ++ escapedSpot) =
      if text = [] then [] else [("spot_id".toList, text)] := by
  by_cases hempty : text = []
  · subst hempty
    cases h
    decide
  · rw [if_neg hempty]
    have hkeep : ∀ c ∈ ['%', '&', '+'], unreserved c = false := by simp [unreserved]
    have hname : ∀ c ∈ ['%', '&', '+', '='], c ∉ "spot_id".toList := by simp
    exact parseQuery_encoded hkeep hname h hempty

end

/-! ## The URL of the streaming check -/

section

variable {self : ApiClient} {parse : Str → Option Json} {spotId : Str} {events : List (Event Net)}
  {o : Option (Option Bool)}

/-- A request for the escaped spot id, and its reply. -/
structure Asked (client : ApiClient) (spotId : Str) (events : List (Event Net))
    (x : Request × HttpReply) : Prop where
  escaped : ∃ curl pointer escapedSpot,
    ⟨.curlEasyEscape curl (cStr spotId), some (pointer, escapedSpot)⟩ ∈ events ∧
      x.1.url = cStr (client.streamingUrl escapedSpot)
  get : x.1.body = .get
  timeout : x.1.timeout = 10

/-- A check makes one request at most, and returns what the response to it says. -/
theorem exec_isStreamingRequested
    (h : Exec (self.isStreamingRequested parse spotId) events o) :
    (events.filterMap sent = [] ∧ o = some none) ∨
      ∃ x, self.Asked spotId events x ∧ events.filterMap sent = [x] ∧
        o = some (streamRequested parse x.2) := by
  unfold isStreamingRequested at h
  obtain ⟨curl, _, rfl, hinit⟩ := exec_call h
  cases curl with
  | none =>
    obtain ⟨rfl, ho⟩ := exec_ret hinit
    exact .inl ⟨rfl, ho⟩
  | some curl =>
  obtain ⟨escaped, _, rfl, hescaped⟩ := exec_call hinit
  cases escaped with
  | none =>
    obtain ⟨_, _, rfl, hclean⟩ := exec_call hescaped
    obtain ⟨rfl, ho⟩ := exec_ret hclean
    exact .inl ⟨rfl, ho⟩
  | some escaped =>
  obtain ⟨pointer, escapedSpot⟩ := escaped
  obtain ⟨_, _, rfl, hfreed⟩ := exec_call hescaped
  obtain ⟨headers, _, rfl, happended⟩ := exec_call hfreed
  obtain ⟨reply, _, rfl, hperformed⟩ := exec_call happended
  obtain ⟨_, hsent, -, hrest⟩ := sent_freeHeaders hperformed
  obtain ⟨_, _, rfl, hclean⟩ := exec_call hrest
  obtain ⟨rfl, ho⟩ := exec_ret hclean
  refine .inr ⟨(⟨_, headers, .get, 10, 5⟩, reply),
    ⟨⟨curl, pointer, escapedSpot, ?_, rfl⟩, rfl, rfl⟩, ?_, ho⟩
  · exact List.mem_cons_of_mem _ List.mem_cons_self
  · show _ :: _ = _
    rw [hsent]
    rfl

/-- Whatever bytes a spot id consists of, and whatever the calls of a check are answered: a URL that
it asks for has the path of the check, its query is printable ASCII, and whoever decodes it finds
one field, `spot_id`, with the bytes of the id up to its first NUL (and no field if there are
none). -/
theorem spot_read_back (h : Exec (self.isStreamingRequested parse spotId) events o)
    (hescaped : ∀ e ∈ events, Escaped e.1 e.2)
    (hendpoint : ∀ x ∈ ['#', '?', '\x00'], x ∉ self.apiEndpoint_) :
    ∀ x ∈ events.filterMap sent, ∃ query,
      splitTarget x.1.url = (self.apiEndpoint_ ++ checkPath, query) ∧
      (∀ c ∈ query, 33 ≤ c.toNat ∧ c.toNat ≤ 126) ∧
      parseQuery query = if cStr spotId = [] then [] else [("spot_id".toList, cStr spotId)] := by
  intro x hx
  obtain ⟨hsent, -⟩ | ⟨y, hasked, hsent, -⟩ := exec_isStreamingRequested h
  · rw [hsent] at hx
    cases hx
  rw [hsent, List.mem_singleton] at hx
  subst hx
  obtain ⟨curl, pointer, escapedSpot, hmem, hurl⟩ := hasked.escaped
  have hencodes : Encodes unreserved (cStr spotId) escapedSpot := hescaped _ hmem
  rw [hurl]
  refine ⟨_, splitTarget_streamingUrl hencodes hendpoint, fun c hc => ?_, parseQuery_spot hencodes⟩
  rcases List.mem_append.mp hc with h | h
  · have hname : ∀ c ∈ "spot_id=".toList, 33 ≤ c.toNat ∧ c.toNat ≤ 126 := by simp
    exact hname c h
  · exact printable_escaped hencodes h

end

/-- libcurl as it answers when all goes well, for texts of bytes, with a server that refuses. -/
def escapes : Unit → (c : NetCall) → Option (c.Reply × Unit)
  | _, .curlEasyInit | _, .curlSlistAppend _ _ => some (some 1, ())
  | _, .curlEasyEscape _ text =>
    if text.all (·.toNat < 256) then some (some (1, encode unreserved text), ()) else none
  | _, .curlFree _ | _, .curlSlistFreeAll _ | _, .curlEasyCleanup _ => some ((), ())
  | _, .curlEasyPerform _ _ => some (⟨.ok, 404, []⟩, ())
  | _, _ => none

theorem escaped_of_escapes {s s' : Unit} {c : NetCall} {r : c.Reply}
    (h : escapes s c = some (r, s')) : Escaped c r := by
  cases c with
  | curlEasyEscape curl text =>
    rw [escapes] at h
    split at h
    next hbytes =>
      cases h
      exact encodes_encode (by simpa using hbytes)
    · cases h
  | _ => trivial

/-- An id that tries to add a parameter, a fragment and a header. -/
theorem spot_read_back_injection :
    ∃ (events : List (Event Net)) (x : Request × HttpReply) (query : Str),
      x ∈ events.filterMap sent ∧
      splitTarget x.1.url = ("https://api/check-streaming-requested".toList, query) ∧
      (∀ c ∈ query, 33 ≤ c.toNat ∧ c.toNat ≤ 126) ∧
      parseQuery query = [("spot_id".toList, "a&b=c#d\x0d\x0ae\xff".toList)] := by
  obtain ⟨events, o, h, hescaped, htest⟩ := replay_reaches_with escapes
    (fun _ _ _ _ => escaped_of_escapes)
    (isStreamingRequested ⟨"https://api".toList, "k".toList⟩ (fun _ => none)
      "a&b=c#d\x0d\x0ae\xff".toList) ()
    (fun (events, _) => (events.filterMap sent).length = 1) (by decide +kernel)
  obtain ⟨x, hx⟩ := List.length_eq_one_iff.mp (of_decide_eq_true htest)
  have hmem : x ∈ events.filterMap sent := by simp [hx]
  obtain ⟨query, hsplit, hprintable, hquery⟩ := spot_read_back h hescaped (by simp) x hmem
  refine ⟨events, x, query, hmem, ?_, hprintable, ?_⟩
  · rw [hsplit]
    rfl
  · rw [hquery]
    decide

end ApiClient

/-! ## The handlers -/

/-- What a handler does: it sleeps for so many seconds, and then answers. -/
structure MockReply where
  delay : Nat := 0
  status : Nat
  body : Str := []
  deriving DecidableEq

namespace MockServer

def notJson : Str := "not json \x7b".toList

def notRequested : Str := "\x7b\"stream_requested\":false\x7d".toList

/-- `qs.get("spot_id", [""])[0]` -/
def spotOf (query : Str) : Str := ((parseQuery query).lookup "spot_id".toList).getD []

def doGet (target : Str) : MockReply :=
  let (path, query) := splitTarget target
  if path = "/health".toList then { status := 200 }
  else if path ≠ ApiClient.checkPath then { status := 404 }
  else
    let spot := spotOf query
    if spot = "badjson_spot".toList then { status := 200, body := notJson }
    else
      { delay := if spot = "slow_spot".toList then 12 else 0
        status := 200
        body := notRequested }

section

variable (base : Str) (loads : Str → Option Json)

/-- `json.dumps` of the URL and no headers. -/
def presignAnswer : Str :=
  "\x7b\"url\": \"".toList ++ base ++ "/mock-put\", \"headers\": \x7b\x7d\x7d".toList

/-- `path.rstrip("/")` -/
def rstrip (path : Str) : Str := path.rdropWhile (· = '/')

def marker : Str := "PRESIGN_FAIL_MARKER".toList

/-- `"PRESIGN_FAIL_MARKER" in data.get("key", "")`; nothing where Python throws. -/
def marked (data : Json) : Option Bool :=
  match data with
  | .object members =>
    match (members.lookup "key".toList).getD (.string []) with
    | .string key => some (marker <:+: key)
    | .array elements => some (elements.any fun
      | .string element => element = marker
      | _ => false)
    | .object members => some (members.any fun member => member.1 = marker)
    | _ => none
  | _ => none

/-- No reply where the handler throws. -/
def doPost (target raw : Str) : Option MockReply :=
  if rstrip (splitTarget target).1 ≠ Config.HLS_PRESIGN_PATH then some { status := 404 }
  else
    match loads raw with
    | none => some { status := 400 }
    | some data =>
      match marked data with
      | none => none
      | some true => some { status := 500 }
      | some false => some { status := 200, body := presignAnswer base }

def doPut (target : Str) : MockReply :=
  if "/mock-put".toList <+: target then { status := 204 } else { status := 404 }

/-- What the handlers answer; the parts of a MIME body are no JSON. -/
def handled (target : Str) : RequestBody → Option MockReply
  | .get => some (doGet target)
  | .post payload => doPost base loads target payload
  | .mime _ =>
    some { status := if rstrip (splitTarget target).1 = Config.HLS_PRESIGN_PATH then 400 else 404 }
  | .upload _ _ => some (doPut target)

/-! ## What becomes of a request -/

/-- The statuses of `send_error`, which the handlers call, or `BaseHTTPRequestHandler` before them. -/
def refusals : List Nat := [400, 404, 414, 431, 501, 505]

/-- The transfer has failed, or the request was refused. -/
def Refused (reply : HttpReply) : Prop := reply.curl ≠ .ok ∨ reply.status ∈ refusals

/-- A reply to a request that a handler would answer so (not at all where it throws): it is refused,
or the answer has come within the timeout. -/
def Comes (timeout : Nat) (answer : Option MockReply) (reply : HttpReply) : Prop :=
  Refused reply ∨ ∃ r ∈ answer, r.delay ≤ timeout ∧ reply = ⟨.ok, r.status, r.body⟩

/-- A request to the mock is answered by its handlers, if at all; `base` is its scheme, host and
port. -/
def Answered : (c : NetCall) → c.Reply → Prop
  | .curlEasyPerform _ request, reply =>
    ∀ target, request.url = base ++ target →
      Comes request.timeout (handled base loads target request.body) reply
  | _, _ => True

/-- What one JSON library dumps the other one loads: an object with the members in order. -/
def Dumped : (c : NetCall) → c.Reply → Prop
  | .dump objectKey contentType, some payload =>
    loads payload = some (.object [("content_type".toList, .string contentType),
      ("key".toList, .string objectKey)])
  | _, _ => True

end

section

variable {base key : Str} {loads parse : Str → Option Json} {events : List (Event Net)}

theorem comes_of_sent (hanswered : ∀ e ∈ events, Answered base loads e.1 e.2)
    {x : Request × HttpReply} (hx : x ∈ events.filterMap sent) {target : Str}
    (hurl : x.1.url = base ++ target) :
    Comes x.1.timeout (handled base loads target x.1.body) x.2 := by
  obtain ⟨curl, he⟩ := performed_of_sent hx
  exact hanswered _ he target hurl

theorem cStr_base {path : Str} (hbase : '\x00' ∉ base) (hpath : '\x00' ∉ path) :
    cStr (base ++ path) = base ++ path :=
  ApiClient.takeWhile_ne (by simp [hbase, hpath])

/-! ## The streaming check -/

section

variable {spotId text escapedSpot : Str}

/-- The handler of a check reads the spot id. -/
theorem doGet_streaming (h : Encodes ApiClient.unreserved text escapedSpot) :
    doGet (ApiClient.streamingUrl ⟨[], key⟩ escapedSpot) =
      if text = "badjson_spot".toList then { status := 200, body := notJson }
      else
        { delay := if text = "slow_spot".toList then 12 else 0
          status := 200
          body := notRequested } := by
  have hendpoint : ∀ x ∈ ['#', '?', '\x00'], x ∉ (⟨[], key⟩ : ApiClient).apiEndpoint_ :=
    fun x _ => List.not_mem_nil
  have hsplit := ApiClient.splitTarget_streamingUrl h hendpoint
  have hspot : spotOf ("spot_id=".toList ++ escapedSpot) = text := by
    rw [spotOf, ApiClient.parseQuery_spot h]
    by_cases hempty : text = []
    · rw [if_pos hempty, hempty]
      rfl
    · rw [if_neg hempty]
      rfl
  rw [cStr, ApiClient.takeWhile_ne (ApiClient.not_mem_streamingUrl h (by decide)
    (hendpoint _ (by decide)))] at hsplit
  simp only [doGet, hsplit, hspot]
  rfl

theorem cStr_streamingUrl (h : Encodes ApiClient.unreserved text escapedSpot)
    (hbase : ∀ x ∈ ['#', '?', '\x00'], x ∉ base) :
    cStr (ApiClient.streamingUrl ⟨base, key⟩ escapedSpot) =
      base ++ ApiClient.streamingUrl ⟨[], key⟩ escapedSpot := by
  rw [cStr, ApiClient.takeWhile_ne (ApiClient.not_mem_streamingUrl h (by decide)
    (hbase _ (by decide)))]
  simp only [ApiClient.streamingUrl, List.nil_append, List.append_assoc]

/-- What the client makes of a reply: the answer comes too late for `slow_spot`. -/
theorem streamRequested_of_comes
    (hjson : parse notRequested = some (.object [("stream_requested".toList, .boolean false)]))
    (hnotJson : parse notJson = none) (h : Encodes ApiClient.unreserved text escapedSpot)
    {reply : HttpReply}
    (hcomes : Comes 10 (some (doGet (ApiClient.streamingUrl ⟨[], key⟩ escapedSpot))) reply) :
    ApiClient.streamRequested parse reply =
      if text = "badjson_spot".toList ∨ text = "slow_spot".toList ∨
        ¬ (reply.curl = .ok ∧ reply.status = 200) then none else some false := by
  by_cases hok : reply.curl = .ok ∧ reply.status = 200
  · obtain (hcurl | hstatus) | ⟨r, hr, htime, rfl⟩ := hcomes
    · exact absurd hok.1 hcurl
    · rw [hok.2] at hstatus
      exact absurd hstatus (by decide)
    rw [doGet_streaming h] at hr
    by_cases hbad : text = "badjson_spot".toList
    · rw [if_pos hbad] at hr
      rw [if_pos (.inl hbad), ← Option.some.inj hr]
      show ApiClient.streamRequested parse ⟨.ok, 200, notJson⟩ = none
      rw [ApiClient.streamRequested, if_pos ⟨rfl, rfl⟩, hnotJson]
      rfl
    rw [if_neg hbad] at hr
    rw [← Option.some.inj hr] at htime
    by_cases hslow : text = "slow_spot".toList
    · -- twelve seconds are no ten
      rw [if_pos hslow] at htime
      exact absurd htime (by decide)
    · rw [if_neg (not_or.mpr ⟨hbad, not_or.mpr ⟨hslow, not_not.mpr hok⟩⟩), ← Option.some.inj hr]
      show ApiClient.streamRequested parse ⟨.ok, 200, notRequested⟩ = some false
      rw [ApiClient.streamRequested, if_pos ⟨rfl, rfl⟩, hjson]
      rfl
  · rw [if_pos (.inr (.inr hok)), ApiClient.streamRequested, if_neg hok]

/-- Whatever spot id the client asks for, and whatever becomes of the request: a check against the
mock makes one request at most, and returns false where that is answered 200, but for the two ids
that stand for a failure; else it has no result. -/
theorem isStreamingRequested_answered {o : Option (Option Bool)}
    (h : Exec (ApiClient.isStreamingRequested ⟨base, key⟩ parse spotId) events o)
    (hescaped : ∀ e ∈ events, ApiClient.Escaped e.1 e.2)
    (hanswered : ∀ e ∈ events, Answered base loads e.1 e.2)
    (hbase : ∀ x ∈ ['#', '?', '\x00'], x ∉ base)
    (hjson : parse notRequested = some (.object [("stream_requested".toList, .boolean false)]))
    (hnotJson : parse notJson = none) :
    (events.filterMap sent).length ≤ 1 ∧
      o = some (if cStr spotId = "badjson_spot".toList ∨ cStr spotId = "slow_spot".toList ∨
        ∀ x ∈ events.filterMap sent, ¬ (x.2.curl = .ok ∧ x.2.status = 200) then none
        else some false) := by
  obtain ⟨hsent, rfl⟩ | ⟨x, hasked, hsent, rfl⟩ := ApiClient.exec_isStreamingRequested h
  · have hnone : ∀ x ∈ events.filterMap sent, ¬ (x.2.curl = .ok ∧ x.2.status = 200) := by
      simp [hsent]
    rw [if_pos (.inr (.inr hnone)), hsent]
    exact ⟨Nat.zero_le _, rfl⟩
  obtain ⟨curl, pointer, escapedSpot, hmem, hurl⟩ := hasked.escaped
  have hencodes : Encodes ApiClient.unreserved (cStr spotId) escapedSpot := hescaped _ hmem
  have hcomes := comes_of_sent hanswered (by simp [hsent])
    (hurl.trans (cStr_streamingUrl hencodes hbase))
  rw [hasked.get, hasked.timeout] at hcomes
  rw [hsent, streamRequested_of_comes hjson hnotJson hencodes hcomes]
  simp only [List.forall_mem_singleton]
  exact ⟨Nat.le_refl _, trivial⟩

end

end

/-! ## Runs -/

def dumped : Str := "\x7b\"content_type\":\"t\",\"key\":\"a/b\"\x7d".toList

def loadsDumped (raw : Str) : Option Json :=
  if raw = dumped then
    some (.object [("content_type".toList, .string "t".toList),
      ("key".toList, .string "a/b".toList)])
  else none

/-- The JSON library of the client, as far as the runs go. -/
def parseAnswers (body : Str) : Option Json :=
  if body = notRequested then some (.object [("stream_requested".toList, .boolean false)])
  else if body = presignAnswer "http://m".toList then
    some (.object [("headers".toList, .object []),
      ("url".toList, .string "http://m/mock-put".toList)])
  else none

/-- So many transfers fail, and the other requests are answered by the mock; all else goes well. -/
def ready (base : Str) : Nat → (c : NetCall) → Option (c.Reply × Nat)
  | n, .curlEasyInit | n, .curlSlistAppend _ _ => some (some 1, n)
  | n, .curlEasyEscape _ text =>
    if text.all (·.toNat < 256) then some (some (1, encode ApiClient.unreserved text), n) else none
  | n, .dump objectKey contentType =>
    if objectKey = "a/b".toList ∧ contentType = "t".toList then some (some dumped, n) else none
  | n, .fileSize _ => some (some 3, n)
  | n, .openBinary _ => some (some "abc".toList, n)
  | n, .curlFree _ | n, .curlSlistFreeAll _ | n, .curlEasyCleanup _ | n, .sleepFor _ => some ((), n)
  | n + 1, .curlEasyPerform _ _ => some (⟨.recvError, 0, []⟩, n)
  | 0, .curlEasyPerform _ request =>
    if base <+: request.url then
      ((handled base loadsDumped (request.url.drop base.length) request.body).filter
        (·.delay ≤ request.timeout)).map fun r => (⟨.ok, r.status, r.body⟩, 0)
    else none
  | _, _ => none

theorem ready_documented {base : Str} {s s' : Nat} {c : NetCall} {r : c.Reply}
    (h : ready base s c = some (r, s')) :
    ApiClient.Escaped c r ∧ Answered base loadsDumped c r ∧ Dumped loadsDumped c r := by
  cases c with
  | curlEasyEscape curl text =>
    rw [ready] at h
    split at h
    next hbytes =>
      cases h
      exact ⟨encodes_encode (by simpa using hbytes), trivial, trivial⟩
    · cases h
  | dump objectKey contentType =>
    rw [ready] at h
    split at h
    next hkey =>
      cases h
      obtain ⟨rfl, rfl⟩ := hkey
      exact ⟨trivial, trivial, rfl⟩
    · cases h
  | curlEasyPerform curl request =>
    refine ⟨trivial, fun target hurl => ?_, trivial⟩
    cases s with
    | succ n =>
      cases h
      exact .inl (.inl (by decide))
    | zero =>
      rw [ready, hurl, if_pos (List.prefix_append _ _), List.drop_left, Option.map_eq_some_iff] at h
      obtain ⟨answer, hanswer, hr⟩ := h
      obtain ⟨hanswer, hdelay⟩ := Option.filter_eq_some_iff.mp hanswer
      cases hr
      exact .inr ⟨answer, hanswer, of_decide_eq_true hdelay, rfl⟩
  | _ => exact ⟨trivial, trivial, trivial⟩

/-- An id that has to be escaped. -/
theorem isStreamingRequested_answered_escaped :
    ∃ events : List (Event Net),
      Exec (ApiClient.isStreamingRequested ⟨"http://m".toList, "k".toList⟩ parseAnswers
        "foo bar".toList) events (some (some false)) ∧
      events.filterMap sent =
        [(⟨"http://m/check-streaming-requested?spot_id=foo%20bar".toList, some 1, .get, 10, 5⟩,
          ⟨.ok, 200, notRequested⟩)] := by
  obtain ⟨events, o, h, hready, htest⟩ := replay_reaches_with (ready "http://m".toList)
    (fun _ _ _ _ => ready_documented)
    (ApiClient.isStreamingRequested ⟨"http://m".toList, "k".toList⟩ parseAnswers "foo bar".toList) 0
    (fun (events, _) => events.filterMap sent =
      [(⟨"http://m/check-streaming-requested?spot_id=foo%20bar".toList, some 1, .get, 10, 5⟩,
        ⟨.ok, 200, notRequested⟩)]) (by decide +kernel)
  have hsent := of_decide_eq_true htest
  obtain ⟨-, ho⟩ := isStreamingRequested_answered h (fun e he => (hready e he).1)
    (fun e he => (hready e he).2.1) (by simp) rfl (by decide)
  rw [hsent, if_neg (by decide)] at ho
  rw [ho] at h
  exact ⟨events, h, hsent⟩

end MockServer

end SurfCam

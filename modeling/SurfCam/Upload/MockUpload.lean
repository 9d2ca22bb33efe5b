import SurfCam.Upload.MockServer

/-!
# Uploads to the mock

What an upload sends to the mock of the API, and what it returns, whatever becomes of its calls.
-/

namespace SurfCam

open Interaction

namespace MockServer

section

variable {base key : Str} {loads parse : Str → Option Json} {events : List (Event Net)}

/-! ## An upload -/

/-- The URL that the mock presigns. -/
def putUrl (base : Str) : Str := base ++ "/mock-put".toList

/-- The request is a PUT. -/
def uploads (request : Request) : Bool :=
  match request.body with
  | .upload _ _ => true
  | _ => false

/-- The mock has refused the key, or stored the file. -/
def Final (reply : HttpReply) : Prop := reply.curl = .ok ∧ (reply.status = 500 ∨ reply.status = 204)

/-- A call of an upload that does not go well. -/
def Setback : (c : NetCall) → c.Reply → Prop
  | .fileSize _, size => size = none ∨ size = some 0
  | .curlEasyInit, curl => curl = none
  | .dump _ _, payload => payload = none
  | .openBinary _, file => file = none
  | .curlEasyPerform _ _, reply => Refused reply
  | _, _ => False

/-- A POST for a presigned URL. -/
def Presigns (base : Str) (request : Request) : Prop :=
  request.url = base ++ Config.HLS_PRESIGN_PATH ∧ ∃ payload, request.body = .post payload

/-- A PUT of `fsize` bytes of the file to the presigned URL, without headers. -/
def Puts (base filePath : Str) (fsize : Nat) (events : List (Event Net)) (request : Request) :
    Prop :=
  request.url = putUrl base ∧ request.httpHeader = none ∧
    ∃ file, ⟨.openBinary filePath, some file⟩ ∈ events ∧ request.body = .upload file fsize

/-- What has been sent, and whether it settles the result. -/
structure Tried (base objectKey filePath : Str) (fsize : Nat) (events : List (Event Net))
    (settled : Option Bool) : Prop where
  requests : ∀ x ∈ events.filterMap sent,
    Presigns base x.1 ∨ Puts base filePath fsize events x.1
  marked : marker <:+: objectKey →
    settled ≠ some true ∧ ∀ x ∈ events.filterMap sent, uploads x.1 = false
  stored : settled = some true ↔ ∃ x ∈ events.filterMap sent, uploads x.1 ∧ x.2.success
  last : ∀ x ∈ (events.filterMap sent).dropLast, ¬ Final x.2
  /-- Only then is there another attempt. -/
  again : settled = none → ∀ x ∈ events.filterMap sent, ¬ Final x.2
  setback : settled ≠ some true →
    marker <:+: objectKey ∨ ∃ e ∈ events, Setback e.1 e.2

theorem Puts.mono {filePath : Str} {fsize : Nat} {events' : List (Event Net)} {request : Request}
    (h : Puts base filePath fsize events request) (hsub : events ⊆ events') :
    Puts base filePath fsize events' request := by
  obtain ⟨hurl, hheader, file, hfile, hbody⟩ := h
  exact ⟨hurl, hheader, file, hsub hfile, hbody⟩

theorem uploads_of_presigns {request : Request} (h : Presigns base request) :
    uploads request = false := by
  obtain ⟨-, payload, hbody⟩ := h
  rw [uploads, hbody]

theorem not_final_of_transient {reply : HttpReply} (h : reply.transient = true) :
    ¬ Final reply := by
  rintro ⟨hcurl, hstatus⟩
  rw [HttpReply.transient, hcurl] at h
  rcases hstatus with hstatus | hstatus
  all_goals
    rw [hstatus] at h
    exact absurd h (by decide)

section

variable {objectKey contentType filePath : Str} {fsize : Nat} {settled : Option Bool}

/-- What comes to nothing without a request. -/
theorem Tried.unsent (hsent : events.filterMap sent = []) (he : ∃ e ∈ events, Setback e.1 e.2) :
    Tried base objectKey filePath fsize events (some false) where
  requests := by simp [hsent]
  marked := by simp [hsent]
  stored := by simp [hsent]
  last := by simp [hsent]
  again h := nomatch h
  setback _ := .inr he

/-- Only a URL was asked for. -/
theorem Tried.presigned {x : Request × HttpReply} (hsent : events.filterMap sent = [x])
    (hx : Presigns base x.1) (hsettled : settled ≠ some true)
    (hagain : settled = none → ¬ Final x.2)
    (he : marker <:+: objectKey ∨ ∃ e ∈ events, Setback e.1 e.2) :
    Tried base objectKey filePath fsize events settled where
  requests := by
    rw [hsent]
    exact List.forall_mem_singleton.mpr (.inl hx)
  marked _ := by
    rw [hsent]
    exact ⟨hsettled, List.forall_mem_singleton.mpr (uploads_of_presigns hx)⟩
  stored := by simp [hsent, hsettled, uploads_of_presigns hx]
  last := by simp [hsent]
  again h := by
    rw [hsent]
    exact List.forall_mem_singleton.mpr (hagain h)
  setback _ := he

/-- The file was sent too. -/
theorem Tried.put {x y : Request × HttpReply} (hsent : events.filterMap sent = [x, y])
    (hx : Presigns base x.1) (hfinal : ¬ Final x.2) (hkey : ¬ marker <:+: objectKey)
    (hy : Puts base filePath fsize events y.1)
    (hsettled : settled = if y.2.success then some true else if y.2.transient then none
      else some false)
    (he : y.2.success = false → ∃ e ∈ events, Setback e.1 e.2) :
    Tried base objectKey filePath fsize events settled where
  requests := by
    rw [hsent]
    exact List.forall_mem_cons.mpr ⟨.inl hx, List.forall_mem_singleton.mpr (.inr hy)⟩
  marked h := absurd h hkey
  stored := by
    obtain ⟨-, -, file, -, hbody⟩ := hy
    have huploads : uploads y.1 = true := by rw [uploads, hbody]
    rw [hsent, hsettled]
    cases hs : y.2.success <;> cases y.2.transient <;> simp [uploads_of_presigns hx, huploads, hs]
  last := by simp [hsent, hfinal]
  again h := by
    rw [hsent]
    refine List.forall_mem_cons.mpr ⟨hfinal, List.forall_mem_singleton.mpr ?_⟩
    rw [hsettled] at h
    split at h
    · cases h
    · split at h
      next ht => exact not_final_of_transient ht
      · cases h
  setback h := by
    refine .inr (he ?_)
    rw [← Bool.not_eq_true]
    intro hs
    rw [hsettled, if_pos hs] at h
    exact h rfl

/-- No attempt is left. -/
theorem Tried.given_up (h : Tried base objectKey filePath fsize events none) :
    Tried base objectKey filePath fsize events (some false) where
  requests := h.requests
  marked hkey := ⟨by simp, (h.marked hkey).2⟩
  stored := by simpa using h.stored
  last := h.last
  again hs := nomatch hs
  setback _ := h.setback (by simp)

/-- Calls in between that are no requests. -/
theorem Tried.behind {first : List (Event Net)} (hfirst : first.filterMap sent = [])
    (h : Tried base objectKey filePath fsize events settled) :
    Tried base objectKey filePath fsize (first ++ events) settled := by
  have hsent : (first ++ events).filterMap sent = events.filterMap sent := by
    rw [List.filterMap_append, hfirst, List.nil_append]
  refine ⟨?_, ?_, ?_, ?_, ?_, ?_⟩
  · rw [hsent]
    exact fun x hx => (h.requests x hx).imp id fun hput => hput.mono (List.subset_append_right _ _)
  · rw [hsent]
    exact h.marked
  · rw [hsent]
    exact h.stored
  · rw [hsent]
    exact h.last
  · rw [hsent]
    exact h.again
  · refine fun hs => (h.setback hs).imp id ?_
    rintro ⟨e, he, hback⟩
    exact ⟨e, List.mem_append_right _ he, hback⟩

/-- An attempt that settles nothing, and the ones behind it. -/
theorem Tried.append {first : List (Event Net)}
    (hfirst : Tried base objectKey filePath fsize first none)
    (h : Tried base objectKey filePath fsize events settled) :
    Tried base objectKey filePath fsize (first ++ events) settled where
  requests x hx := by
    rw [List.filterMap_append, List.mem_append] at hx
    rcases hx with hx | hx
    · exact (hfirst.requests x hx).imp id fun hput => hput.mono (List.subset_append_left _ _)
    · exact (h.requests x hx).imp id fun hput => hput.mono (List.subset_append_right _ _)
  marked hkey := by
    rw [List.filterMap_append]
    exact ⟨(h.marked hkey).1,
      List.forall_mem_append.mpr ⟨(hfirst.marked hkey).2, (h.marked hkey).2⟩⟩
  stored := by
    have hnone : ¬ ∃ x ∈ first.filterMap sent, uploads x.1 ∧ x.2.success :=
      fun hx => nomatch hfirst.stored.mpr hx
    rw [h.stored, List.filterMap_append]
    simp only [List.mem_append, or_and_right, exists_or, hnone, false_or]
  last := by
    rw [List.filterMap_append]
    cases hsent : events.filterMap sent with
    | nil =>
      rw [List.append_nil]
      exact hfirst.last
    | cons y rest =>
      rw [List.dropLast_append_of_ne_nil (List.cons_ne_nil _ _), ← hsent]
      exact List.forall_mem_append.mpr ⟨hfirst.again rfl, h.last⟩
  again hs := by
    rw [List.filterMap_append]
    exact List.forall_mem_append.mpr ⟨hfirst.again rfl, h.again hs⟩
  setback hs := by
    refine (h.setback hs).imp id ?_
    rintro ⟨e, he, hback⟩
    exact ⟨e, List.mem_append_right _ he, hback⟩

/-! ## The attempts -/

theorem sent_appendHeaders {lines : List Str} {list : Option Nat} {α : Type}
    {f : Option Nat → Prog Net α} {o : Option α}
    (h : Exec (appendHeaders lines list >>= f) events o) :
    ∃ list' rest, events.filterMap sent = rest.filterMap sent ∧ Exec (f list') rest o ∧
      (lines = [] → list' = list) := by
  induction lines generalizing list events with
  | nil => exact ⟨list, events, rfl, h, fun _ => rfl⟩
  | cons line lines ih =>
    have hfirst : Exec (net (.curlSlistAppend list line) >>= fun l =>
        appendHeaders lines l >>= f) events o := h
    obtain ⟨l, rest, rfl, hrest⟩ := exec_call hfirst
    obtain ⟨list', rest', hsent, hexec, -⟩ := ih hrest
    exact ⟨list', rest', hsent, hexec, fun hnil => nomatch hnil⟩

/-- The POST of an attempt, unless the dump throws. -/
theorem exec_postPresign {self : ApiClient} {curl : Nat} {r : Option Nat × Option HttpReply}
    (h : Exec (self.postPresign curl objectKey contentType) events (some r)) :
    (r.2 = none ∧ events.filterMap sent = [] ∧ ⟨.dump objectKey contentType, none⟩ ∈ events) ∨
      ∃ x payload, r.2 = some x.2 ∧ events.filterMap sent = [x] ∧
        ⟨.dump objectKey contentType, some payload⟩ ∈ events ∧
        x.1.url = cStr (self.apiEndpoint_ ++ Config.HLS_PRESIGN_PATH) ∧
        x.1.body = .post payload := by
  unfold ApiClient.postPresign at h
  obtain ⟨payload, _, rfl, hdumped⟩ := exec_call h
  cases payload with
  | none =>
    obtain ⟨rfl, hr⟩ := exec_ret hdumped
    rw [Option.some.inj hr]
    exact .inl ⟨rfl, rfl, List.mem_cons_self⟩
  | some payload =>
    obtain ⟨presignHeaders, _, hsent, happended, -⟩ := sent_appendHeaders hdumped
    obtain ⟨reply, _, rfl, hperformed⟩ := exec_call happended
    obtain ⟨rfl, hr⟩ := exec_ret hperformed
    rw [Option.some.inj hr]
    exact .inr ⟨(_, reply), payload, rfl, hsent, List.mem_cons_self, rfl, rfl⟩

/-- The PUT of an attempt, unless the file or a handle is missing. -/
theorem exec_putFile {url : Str}
    (h : Exec (ApiClient.putFile filePath url [] fsize) events (some settled)) :
    (settled = some false ∧ events.filterMap sent = [] ∧ ∃ e ∈ events, Setback e.1 e.2) ∨
      ∃ y file, events.filterMap sent = [y] ∧ y.1.url = cStr url ∧ y.1.httpHeader = none ∧
        ⟨.openBinary filePath, some file⟩ ∈ events ∧ y.1.body = .upload file fsize ∧
        settled = if y.2.success then some true else if y.2.transient then none
          else some false := by
  unfold ApiClient.putFile at h
  obtain ⟨file, _, rfl, hopened⟩ := exec_call h
  cases file with
  | none =>
    obtain ⟨rfl, hr⟩ := exec_ret hopened
    exact .inl ⟨Option.some.inj hr, rfl, _, List.mem_cons_self, rfl⟩
  | some file =>
  obtain ⟨put, _, rfl, hinit⟩ := exec_call hopened
  cases put with
  | none =>
    obtain ⟨rfl, hr⟩ := exec_ret hinit
    exact .inl ⟨Option.some.inj hr, rfl, _, List.mem_cons_of_mem _ List.mem_cons_self, rfl⟩
  | some put =>
  obtain ⟨putHeaders, _, hnone, happended, hheaders⟩ := sent_appendHeaders hinit
  obtain ⟨putReply, _, rfl, hperformed⟩ := exec_call happended
  obtain ⟨_, hfreed, -, hrest⟩ := sent_freeHeaders hperformed
  obtain ⟨_, rest, rfl, hdone⟩ := exec_call hrest
  have hsettled : rest = [] ∧ settled =
      if putReply.success then some true else if putReply.transient then none else some false := by
    by_cases hs : putReply.success = true
    · rw [if_pos hs] at hdone ⊢
      exact (exec_ret hdone).imp id Option.some.inj
    · rw [if_neg hs] at hdone ⊢
      exact (exec_ret hdone).imp id Option.some.inj
  obtain ⟨rfl, hsettled⟩ := hsettled
  refine .inr ⟨(⟨cStr url, putHeaders, .upload file fsize, Config.REQUEST_TIMEOUT, 10⟩, putReply),
    file, ?_, rfl, hheaders rfl, List.mem_cons_self, rfl, hsettled⟩
  refine hnone.trans ?_
  show _ :: List.filterMap sent _ = _
  rw [hfreed]
  rfl

/-- An attempt asks for a URL, unless it comes to nothing before, and goes on with the reply. -/
theorem exec_attempt {self : ApiClient}
    (h : Exec (self.attempt parse objectKey contentType filePath fsize) events (some settled)) :
    (settled = some false ∧ events.filterMap sent = [] ∧ ∃ e ∈ events, Setback e.1 e.2) ∨
      ∃ x payload rest, ⟨.dump objectKey contentType, some payload⟩ ∈ events ∧
        x.1.url = cStr (self.apiEndpoint_ ++ Config.HLS_PRESIGN_PATH) ∧
        x.1.body = .post payload ∧ events.filterMap sent = x :: rest.filterMap sent ∧
        rest ⊆ events ∧
        Exec (match ApiClient.presignResult parse x.2 with
          | none => return if x.2.transient then none else some false
          | some (presignUrl, presignResponseHeaders) =>
            ApiClient.putFile filePath presignUrl presignResponseHeaders fsize) rest
          (some settled) := by
  unfold ApiClient.attempt at h
  obtain ⟨curl, _, rfl, hinit⟩ := exec_call h
  cases curl with
  | none =>
    obtain ⟨rfl, hr⟩ := exec_ret hinit
    exact .inl ⟨Option.some.inj hr, rfl, _, List.mem_cons_self, rfl⟩
  | some curl =>
  obtain ⟨⟨presignHeaders, presignReply⟩, first, after, rfl, hposted, hrest⟩ := exec_bind hinit
  obtain ⟨_, hfreed, hsub, hrest⟩ := sent_freeHeaders hrest
  obtain ⟨_, rest, rfl, hdone⟩ := exec_call hrest
  have hsent : (first ++ after).filterMap sent = first.filterMap sent ++ rest.filterMap sent := by
    rw [List.filterMap_append, hfreed]
    rfl
  rcases exec_postPresign hposted with ⟨hnone, hfirst, hdump⟩ | ⟨x, payload, hreply, hfirst, hdump,
    hurl, hbody⟩
  · cases hnone
    obtain ⟨rfl, hr⟩ := exec_ret hdone
    rw [hfirst] at hsent
    exact .inl ⟨Option.some.inj hr, hsent, _, List.mem_cons_of_mem _ (List.mem_append_left _ hdump),
      rfl⟩
  · cases hreply
    rw [hfirst] at hsent
    refine .inr ⟨x, payload, rest, List.mem_cons_of_mem _ (List.mem_append_left _ hdump), hurl,
      hbody, hsent, fun e he => ?_, hdone⟩
    exact List.mem_cons_of_mem _ (List.mem_append_right _ (hsub (List.mem_cons_of_mem _ he)))

/-- The loop: an attempt, and what comes behind it if it settles nothing. -/
theorem exec_attempts {self : ApiClient} {number left : Nat} {result : Bool}
    (h : Exec (self.attempts parse objectKey contentType filePath fsize number (left + 1)) events
      (some result)) :
    ∃ before first rest settled, events = before ++ (first ++ rest) ∧
      before.filterMap sent = [] ∧
      Exec (self.attempt parse objectKey contentType filePath fsize) first (some settled) ∧
      (settled = some result ∧ rest = [] ∨ settled = none ∧
        Exec (self.attempts parse objectKey contentType filePath fsize (number + 1) left) rest
          (some result)) := by
  have hloop : ∀ {awake} {settle : Option Bool → Prog Net Bool},
      settle none = self.attempts parse objectKey contentType filePath fsize (number + 1) left →
      (∀ b, settle (some b) = .ret b) →
      Exec (self.attempt parse objectKey contentType filePath fsize >>= settle) awake
        (some result) → ∃ first rest settled, awake = first ++ rest ∧
      Exec (self.attempt parse objectKey contentType filePath fsize) first (some settled) ∧
      (settled = some result ∧ rest = [] ∨ settled = none ∧
        Exec (self.attempts parse objectKey contentType filePath fsize (number + 1) left) rest
          (some result)) := by
    intro awake settle hnone hsome hawake
    obtain ⟨settled, first, rest, rfl, hfirst, hrest⟩ := exec_bind hawake
    cases settled with
    | none =>
      rw [hnone] at hrest
      exact ⟨first, rest, none, rfl, hfirst, .inr ⟨rfl, hrest⟩⟩
    | some b =>
      rw [hsome] at hrest
      obtain ⟨rfl, hr⟩ := exec_ret hrest
      exact ⟨first, [], some b, rfl, hfirst, .inl ⟨hr.symm, rfl⟩⟩
  unfold ApiClient.attempts at h
  by_cases hnumber : number > 0
  · rw [if_pos hnumber] at h
    obtain ⟨_, awake, rfl, hawake⟩ := exec_call h
    obtain ⟨first, rest, settled, rfl, hexec⟩ := hloop rfl (fun _ => rfl) hawake
    exact ⟨[_], first, rest, settled, rfl, rfl, hexec⟩
  · rw [if_neg hnumber] at h
    obtain ⟨first, rest, settled, rfl, hexec⟩ := hloop rfl (fun _ => rfl) h
    exact ⟨[], first, rest, settled, rfl, rfl, hexec⟩

section

variable (hanswered : ∀ e ∈ events, Answered base loads e.1 e.2)
  (hdumped : ∀ e ∈ events, Dumped loads e.1 e.2) (hbase : '\x00' ∉ base)
  (hjson : parse (presignAnswer base) = some (.object [("headers".toList, .object []),
    ("url".toList, .string (putUrl base))]))

theorem doPost_presign (base : Str) {payload : Str}
    (h : Dumped loads (.dump objectKey contentType) (some payload)) :
    doPost base loads Config.HLS_PRESIGN_PATH payload = some (if marker <:+: objectKey then
      { status := 500 } else { status := 200, body := presignAnswer base }) := by
  have hpath : rstrip (splitTarget Config.HLS_PRESIGN_PATH).1 = Config.HLS_PRESIGN_PATH := by decide
  have hmarked : marked (.object [("content_type".toList, .string contentType),
      ("key".toList, .string objectKey)]) = some (decide (marker <:+: objectKey)) := rfl
  have hloads : loads payload = some (.object [("content_type".toList, .string contentType),
      ("key".toList, .string objectKey)]) := h
  simp only [doPost, hpath, hloads, hmarked]
  by_cases hkey : marker <:+: objectKey <;> simp [hkey]

include hjson in
/-- What the client makes of the reply to its POST. -/
theorem presignResult_of_comes {timeout : Nat} {reply : HttpReply}
    (h : Comes timeout (some (if marker <:+: objectKey then { status := 500 }
      else { status := 200, body := presignAnswer base })) reply) :
    (ApiClient.presignResult parse reply = none ∧ (marker <:+: objectKey ∨ Refused reply)) ∨
      (¬ marker <:+: objectKey ∧ ¬ Final reply ∧
        ApiClient.presignResult parse reply = some (putUrl base, [])) := by
  rcases h with h | ⟨r, hr, -, rfl⟩
  · refine .inl ⟨if_neg ?_, .inr h⟩
    rintro ⟨hcurl, hstatus⟩
    rcases h with h | h
    · exact h hcurl
    · rw [hstatus] at h
      exact absurd h (by decide)
  · rw [← Option.some.inj hr]
    by_cases hkey : marker <:+: objectKey
    · rw [if_pos hkey]
      exact .inl ⟨rfl, .inl hkey⟩
    · rw [if_neg hkey]
      have hne : putUrl base ≠ [] := by simp [putUrl]
      refine .inr ⟨hkey, by simp [Final], ?_⟩
      simp [ApiClient.presignResult, hjson, Json.member?, Json.stringMembers, hne, List.lookup_cons]

/-- What the mock makes of a PUT: it is stored, or refused. -/
theorem refused_of_comes {timeout : Nat} {reply : HttpReply} {body : RequestBody} {file : Str}
    (hbody : body = .upload file fsize)
    (h : Comes timeout (handled base loads "/mock-put".toList body) reply)
    (hs : reply.success = false) : Refused reply := by
  rcases h with h | ⟨r, hr, -, rfl⟩
  · exact h
  · rw [hbody] at hr
    have hput : handled base loads "/mock-put".toList (.upload file fsize) =
        some { status := 204 } := rfl
    rw [hput] at hr
    rw [← Option.some.inj hr] at hs
    exact absurd hs (by decide)

include hanswered hdumped hbase hjson in
theorem tried_attempt (h : Exec (ApiClient.attempt ⟨base, key⟩ parse objectKey contentType filePath
    fsize) events (some settled)) : Tried base objectKey filePath fsize events settled := by
  rcases exec_attempt h with ⟨rfl, hnone, he⟩ | ⟨x, payload, rest, hdump, hurl, hbody, hsent, hsub,
    hrest⟩
  · exact .unsent hnone he
  have hmem : x ∈ events.filterMap sent := hsent ▸ List.mem_cons_self
  have hpresigns : Presigns base x.1 := ⟨hurl.trans (cStr_base hbase (by decide)), payload, hbody⟩
  have hcomes := comes_of_sent hanswered hmem hpresigns.1
  have hpost := doPost_presign base (hdumped _ hdump)
  rw [hbody, handled, hpost] at hcomes
  rcases presignResult_of_comes hjson hcomes with ⟨hresult, hback⟩ | ⟨hkey, hfinal, hresult⟩
  · -- no URL: the key is refused, or the request
    rw [hresult] at hrest
    obtain ⟨rfl, hr⟩ := exec_ret hrest
    rw [Option.some.inj hr]
    refine .presigned hsent hpresigns ?_ ?_ (hback.imp id fun hrefused => ?_)
    · split <;> simp
    · intro hnone
      split at hnone
      next ht => exact not_final_of_transient ht
      · cases hnone
    · obtain ⟨curl, he⟩ := performed_of_sent hmem
      exact ⟨_, he, hrefused⟩
  · rw [hresult] at hrest
    rcases exec_putFile hrest with ⟨rfl, hnone, e, he, hback⟩ | ⟨y, file, hput, hurl, hheader,
      hfile, hbody, hsettled⟩
    · rw [hnone] at hsent
      exact .presigned hsent hpresigns (by simp) (by simp) (.inr ⟨e, hsub he, hback⟩)
    · rw [hput] at hsent
      have hputs : Puts base filePath fsize events y.1 :=
        ⟨hurl.trans (cStr_base hbase (by decide)), hheader, file, hsub hfile, hbody⟩
      refine .put hsent hpresigns hfinal hkey hputs hsettled fun hs => ?_
      have hsecond : y ∈ events.filterMap sent := by simp [hsent]
      obtain ⟨curl, he⟩ := performed_of_sent hsecond
      exact ⟨_, he, refused_of_comes hbody (comes_of_sent hanswered hsecond hputs.1) hs⟩

include hanswered hdumped hbase hjson in
theorem tried_attempts {number left : Nat} {result : Bool}
    (h : Exec (ApiClient.attempts ⟨base, key⟩ parse objectKey contentType filePath fsize number
      (left + 1)) events (some result)) :
    Tried base objectKey filePath fsize events (some result) := by
  induction left generalizing number events with
  | zero =>
    obtain ⟨before, first, rest, settled, rfl, hbefore, hfirst, hrest⟩ := exec_attempts h
    simp only [List.forall_mem_append] at hanswered hdumped
    have htried := tried_attempt hanswered.2.1 hdumped.2.1 hbase hjson hfirst
    apply Tried.behind hbefore
    rcases hrest with ⟨rfl, rfl⟩ | ⟨rfl, hrest⟩
    · rw [List.append_nil]
      exact htried
    · obtain ⟨rfl, hr⟩ := exec_ret hrest
      rw [List.append_nil, hr]
      exact htried.given_up
  | succ left ih =>
    obtain ⟨before, first, rest, settled, rfl, hbefore, hfirst, hrest⟩ := exec_attempts h
    simp only [List.forall_mem_append] at hanswered hdumped
    have htried := tried_attempt hanswered.2.1 hdumped.2.1 hbase hjson hfirst
    apply Tried.behind hbefore
    rcases hrest with ⟨rfl, rfl⟩ | ⟨rfl, hrest⟩
    · rw [List.append_nil]
      exact htried
    · exact htried.append (ih hanswered.2.2 hdumped.2.2 hrest)

/-- Whatever file is uploaded under whatever key, and whatever becomes of the calls: an upload to
the mock asks for URLs, and sends the file to the one that the mock presigns and nothing else;
nothing follows where the mock refuses the key or stores the file; the file is not sent under a key
with the marker; and the upload succeeds exactly if the file is stored, which fails only for a
marked key or through a call that does not go well. -/
theorem upload_answered {result : Bool}
    (h : Exec (ApiClient.upload ⟨base, key⟩ parse objectKey contentType filePath) events
      (some result))
    (hanswered : ∀ e ∈ events, Answered base loads e.1 e.2)
    (hdumped : ∀ e ∈ events, Dumped loads e.1 e.2) (hbase : '\x00' ∉ base)
    (hjson : parse (presignAnswer base) = some (.object [("headers".toList, .object []),
      ("url".toList, .string (putUrl base))])) :
    ∃ size : Option Nat, ⟨.fileSize filePath, size⟩ ∈ events ∧
      Tried base objectKey filePath (size.getD 0) events (some result) := by
  unfold ApiClient.upload at h
  obtain ⟨size, _, rfl, hsized⟩ := exec_call h
  refine ⟨size, List.mem_cons_self, ?_⟩
  cases size with
  | none =>
    obtain ⟨rfl, hr⟩ := exec_ret hsized
    rw [hr]
    exact .unsent rfl ⟨_, List.mem_cons_self, .inl rfl⟩
  | some fsize =>
    by_cases hempty : fsize = 0
    · simp only [if_pos hempty] at hsized
      obtain ⟨rfl, hr⟩ := exec_ret hsized
      rw [hr]
      exact .unsent rfl ⟨_, List.mem_cons_self, .inr (congrArg some hempty)⟩
    · simp only [if_neg hempty] at hsized
      rw [List.forall_mem_cons] at hanswered hdumped
      have hfirst : List.filterMap sent [⟨.fileSize filePath, some fsize⟩] = [] := rfl
      exact .behind hfirst (tried_attempts hanswered.2 hdumped.2 hbase hjson hsized)

end

end

end

/-- The first POST is lost, and the second attempt stores the file. -/
theorem upload_answered_retried :
    ∃ (events : List (Event Net)) (size : Option Nat),
      ⟨.fileSize "f".toList, size⟩ ∈ events ∧
      Tried "http://m".toList "a/b".toList "f".toList (size.getD 0) events (some true) ∧
      (events.filterMap sent).map (fun x => (x.1.url, x.2.status)) =
        [("http://m/hls/presign".toList, 0), ("http://m/hls/presign".toList, 200),
          ("http://m/mock-put".toList, 204)] := by
  obtain ⟨events, o, h, hready, htest⟩ := replay_reaches_with (ready "http://m".toList)
    (fun _ _ _ _ => ready_documented)
    (ApiClient.upload ⟨"http://m".toList, "k".toList⟩ parseAnswers "a/b".toList "t".toList
      "f".toList) 1
    (fun (events, o) => o = some true ∧
      (events.filterMap sent).map (fun x => (x.1.url, x.2.status)) =
        [("http://m/hls/presign".toList, 0), ("http://m/hls/presign".toList, 200),
          ("http://m/mock-put".toList, 204)]) (by decide +kernel)
  obtain ⟨rfl, hsent⟩ := of_decide_eq_true htest
  obtain ⟨size, hsize, htried⟩ := upload_answered h (fun e he => (hready e he).2.1)
    (fun e he => (hready e he).2.2) (by decide) rfl
  exact ⟨events, size, hsize, htried, hsent⟩

end MockServer

end SurfCam

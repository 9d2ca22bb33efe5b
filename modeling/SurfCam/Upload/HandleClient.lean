import SurfCam.Logic.Simulation
import SurfCam.Upload.Handles

/-!
# The handles behind an upload

The upload with its curl handles, header lists and streams does what the upload of
`uploadLocalFileWithPresign` does: the same requests with the same headers in the same order, with
the same result.  An append that fails loses the header list; that case is left out.
-/

namespace SurfCam

open Interaction Abstraction

namespace ApiClient

/-- The lines of the header lists, and what was dumped last. -/
structure Drafts where
  lines : Nat → List Str
  /-- the key, the content type, and the text that they were dumped to -/
  dumped : Str × Str × Str

namespace Drafts

def init : Drafts := ⟨fun _ => [], ([], [], [])⟩

/-- The lines of a list that may be empty. -/
def linesOf (v : Drafts) (list : Option Nat) : List Str := (list.map v.lines).getD []

def next : (c : NetCall) → c.Reply → Drafts → Drafts
  | .curlSlistAppend list line, some l, v =>
    { v with lines := Function.update v.lines l (v.linesOf list ++ [line]) }
  | .dump objectKey contentType, some payload, v =>
    { v with dumped := (objectKey, contentType, payload) }
  | _, _, v => v

end Drafts

section

variable (self : ApiClient)

/-- The POST that a dump which throws prevents. -/
def presignCall (objectKey contentType : Str) : HostCall :=
  .presignPost (cStr (self.apiEndpoint_ ++ Config.HLS_PRESIGN_PATH)) self.authHeader objectKey
    contentType

/-- A POST is that of `presignPost` if it has the two header lines and the payload that was dumped. -/
def shows : (c : NetCall) → c.Reply → Drafts → Option (Event Host)
  | .fileSize path, size, _ => some ⟨.fileSize path, size⟩
  | .sleepFor milliseconds, _, _ => some ⟨.sleepFor milliseconds, ()⟩
  | .curlEasyInit, curl, _ => some ⟨.curlEasyInit, curl.isSome⟩
  | .openBinary path, file, _ => some ⟨.openBinary path, file⟩
  | .dump objectKey contentType, none, _ => some ⟨self.presignCall objectKey contentType, none⟩
  | .curlEasyPerform _ request, reply, v =>
    match request.body with
    | .post payload =>
      match v.linesOf request.httpHeader with
      | [authHeader, contentTypeLine] =>
        if contentTypeLine = "Content-Type: application/json".toList ∧ payload = v.dumped.2.2 then
          some ⟨.presignPost request.url authHeader v.dumped.1 v.dumped.2.1, some reply⟩
        else none
      | _ => none
    | .upload file infileSize =>
      some ⟨.put request.url (v.linesOf request.httpHeader) file infileSize, reply⟩
    | _ => none
  | _, _, _ => none

/-- Every append succeeds. -/
def appends : (c : NetCall) → c.Reply → Bool
  | .curlSlistAppend _ _, list => list.isSome
  | _, _ => true

/-- From handles to requests. -/
def requests : Abstraction Net Host Drafts where
  allows := appends
  next := Drafts.next
  shows := self.shows

end

section

variable {self : ApiClient} {parse : Str → Option Json} {objectKey contentType filePath : Str}
  {v : Drafts}

/-- The lines are appended; nothing of it is seen. -/
theorem simulates_appendHeaders (lines : List Str) (list : Option Nat) :
    self.requests.Simulates (appendHeaders lines list) (.ret ())
      (fun l _ v' => v'.linesOf l = v.linesOf list ++ lines ∧ v'.dumped = v.dumped) v := by
  induction lines generalizing list v with
  | nil => exact simulates_ret (by simp)
  | cons line lines ih =>
    refine simulates_inside (fun _ => rfl) fun l hl => ?_
    obtain ⟨l, rfl⟩ := Option.isSome_iff_exists.mp hl
    have hnext : (Drafts.next (.curlSlistAppend list line) (some l) v).linesOf (some l) =
        v.linesOf list ++ [line] := by
      simp [Drafts.next, Drafts.linesOf]
    have hrest := @ih (Drafts.next (.curlSlistAppend list line) (some l) v) (some l)
    rw [hnext, List.append_assoc] at hrest
    exact hrest

theorem simulates_freeHeaders (list : Option Nat) :
    self.requests.Simulates (freeHeaders list) (.ret ()) (fun _ _ _ => True) v := by
  cases list with
  | none => exact simulates_ret trivial
  | some list => exact simulates_inside (fun _ => rfl) fun _ _ => simulates_ret trivial

theorem simulates_postPresign (presignCurl : Nat) :
    self.requests.Simulates (self.postPresign presignCurl objectKey contentType)
      (host (self.presignCall objectKey contentType)) (fun r b _ => r.2 = b) v := by
  intro payload _
  cases payload with
  | none =>
    -- nothing has been sent, and the call of the coarser program has failed
    refine ⟨nofun, fun c' r' hs => ?_⟩
    cases hs
    exact ⟨.ret, rfl, simulates_ret rfl⟩
  | some payload =>
    refine ⟨fun _ => ?_, nofun⟩
    refine (simulates_appendHeaders _ none).before fun presignHeaders v hv => ?_
    have hlines : v.linesOf presignHeaders =
        [self.authHeader, "Content-Type: application/json".toList] := hv.1
    have hdumped : v.dumped = (objectKey, contentType, payload) := hv.2
    rw [← bind_pure (host (self.presignCall objectKey contentType))]
    refine simulates_call some (fun reply => ?_) fun reply _ => simulates_ret rfl
    obtain ⟨lines, dumped⟩ := v
    subst hdumped
    simp only [requests, shows, hlines]
    exact if_pos ⟨trivial, trivial⟩

/-- What `transferAttempt` does with a presigned URL. -/
def transferPut (filePath presignUrl : Str) (presignResponseHeaders : List (Str × Str))
    (fsize : Nat) : Prog Host (Option Bool) := do
  match ← host (.openBinary filePath) with
  | none => return some false
  | some file =>
    if !(← host .curlEasyInit) then return some false
    let putReply ← host (.put (cStr presignUrl) (presignResponseHeaders.map headerLine) file fsize)
    if putReply.success then return some true
    return if putReply.transient then none else some false

theorem simulates_putFile (presignUrl : Str) (presignResponseHeaders : List (Str × Str))
    (fsize : Nat) :
    self.requests.Simulates (putFile filePath presignUrl presignResponseHeaders fsize)
      (transferPut filePath presignUrl presignResponseHeaders fsize) (fun a b _ => a = b) v := by
  refine simulates_call id (fun _ => rfl) fun file _ => ?_
  cases file with
  | none => exact simulates_ret rfl
  | some file =>
    refine simulates_call Option.isSome (fun _ => rfl) fun put _ => ?_
    cases put with
    | none => exact simulates_ret rfl
    | some put =>
      refine (simulates_appendHeaders _ none).before fun putHeaders v hv => ?_
      have hlines : v.linesOf putHeaders = presignResponseHeaders.map headerLine := hv.1
      refine simulates_call id (fun putReply => ?_) fun putReply _ => ?_
      · show some _ = some _
        rw [hlines]
        rfl
      · refine (simulates_freeHeaders putHeaders).before fun _ v _ => ?_
        refine simulates_inside (fun _ => rfl) fun _ _ => ?_
        show self.requests.Simulates (if putReply.success then _ else _)
          (if putReply.success then _ else _) _ _
        by_cases hs : putReply.success = true
        · rw [if_pos hs, if_pos hs]
          exact simulates_ret rfl
        · rw [if_neg hs, if_neg hs]
          exact simulates_ret rfl

theorem simulates_attempt (fsize : Nat) :
    self.requests.Simulates (self.attempt parse objectKey contentType filePath fsize)
      (self.transferAttempt parse objectKey contentType filePath fsize) (fun a b _ => a = b) v := by
  refine simulates_call Option.isSome (fun _ => rfl) fun presignCurl _ => ?_
  cases presignCurl with
  | none => exact simulates_ret rfl
  | some presignCurl =>
    refine (simulates_postPresign presignCurl).bind fun r answer v hr => ?_
    obtain ⟨presignHeaders, presignReply⟩ := r
    cases hr
    refine (simulates_freeHeaders presignHeaders).before fun _ v _ => ?_
    refine simulates_inside (fun _ => rfl) fun _ _ => ?_
    cases presignReply with
    | none => exact simulates_ret rfl
    | some presignReply =>
      dsimp only
      cases presignResult parse presignReply with
      | none => exact simulates_ret rfl
      | some target => exact simulates_putFile _ _ _

/-- The delay in front of an attempt is the same. -/
theorem simulates_delayed {p : Prog Net Bool} {q : Prog Host Bool} (number : Nat)
    (h : ∀ v, self.requests.Simulates p q (fun a b _ => a = b) v) :
    self.requests.Simulates
      (if number > 0 then net (.sleepFor (250 * number)) >>= fun _ => p else p)
      (if number > 0 then host (.sleepFor (250 * number)) >>= fun _ => q else q)
      (fun a b _ => a = b) v := by
  by_cases hnumber : number > 0
  · rw [if_pos hnumber, if_pos hnumber]
    exact simulates_call id (fun _ => rfl) fun _ _ => h v
  · rw [if_neg hnumber, if_neg hnumber]
    exact h v

theorem simulates_attempts (fsize number left : Nat) :
    self.requests.Simulates (self.attempts parse objectKey contentType filePath fsize number left)
      (self.transferAttempts parse objectKey contentType filePath fsize number left)
      (fun a b _ => a = b) v := by
  induction left generalizing number v with
  | zero => exact simulates_ret rfl
  | succ left ih =>
    rw [transferAttempts_succ]
    unfold attempts
    refine simulates_delayed number fun v => ?_
    refine (simulates_attempt fsize).bind fun outcome _ v houtcome => ?_
    cases houtcome
    cases outcome with
    | none => exact ih (number + 1)
    | some result => exact simulates_ret rfl

end

/-- However the calls are answered, as long as no append fails: with its handles an upload makes the
requests that `uploadLocalFileWithPresign` makes, with the same headers, and returns the same. -/
theorem upload_requests {self : ApiClient} {parse : Str → Option Json}
    {objectKey contentType filePath : Str} {events : List (Event Net)} {o : Option Bool}
    (h : Exec (self.upload parse objectKey contentType filePath) events o)
    (happends : ∀ e ∈ events, appends e.1 e.2 = true) :
    Exec (self.uploadLocalFileWithPresign parse objectKey contentType filePath)
      (self.requests.image Drafts.init events) o := by
  refine exec_image ?_ h happends
  refine simulates_call id (fun _ => rfl) fun fsize _ => ?_
  cases fsize with
  | none => exact simulates_ret rfl
  | some fsize =>
    show self.requests.Simulates (if fsize = 0 then _ else _) (if fsize = 0 then _ else _) _ _
    by_cases hsize : fsize = 0
    · rw [if_pos hsize, if_pos hsize]
      exact simulates_ret rfl
    · rw [if_neg hsize, if_neg hsize]
      exact simulates_attempts fsize 0 _

/-- The first POST is answered 503, the next ones 200; all else goes well. -/
def answered : Nat → (c : NetCall) → Option (c.Reply × Nat)
  | refusals, .curlEasyInit => some (some 1, refusals)
  | refusals, .curlSlistAppend _ _ => some (some 2, refusals)
  | refusals, .fileSize _ => some (some 3, refusals)
  | refusals, .dump _ _ => some (some "p".toList, refusals)
  | refusals, .openBinary _ => some (some "abc".toList, refusals)
  | refusals, .sleepFor _ | refusals, .curlSlistFreeAll _ | refusals, .curlEasyCleanup _ =>
    some ((), refusals)
  | 0, .curlEasyPerform _ _ => some (⟨.ok, 200, []⟩, 0)
  | refusals + 1, .curlEasyPerform _ _ => some (⟨.ok, 503, []⟩, refusals)
  | _, _ => none

/-- The second attempt stores the file. -/
theorem upload_requests_retried :
    ∃ events : List (Event Net),
      Exec (ApiClient.upload ⟨"e".toList, "k".toList⟩
        (fun _ => some (.object [("url".toList, .string "u".toList)])) "o".toList "t".toList
        "f".toList) events (some true) ∧
      Exec (ApiClient.uploadLocalFileWithPresign
        (fun _ => some (.object [("url".toList, .string "u".toList)])) ⟨"e".toList, "k".toList⟩
        "o".toList "t".toList "f".toList)
        ((ApiClient.requests ⟨"e".toList, "k".toList⟩).image Drafts.init events) (some true) ∧
      events.length = 20 := by
  obtain ⟨events, o, h, htest⟩ := replay_reaches answered
    (ApiClient.upload ⟨"e".toList, "k".toList⟩
      (fun _ => some (.object [("url".toList, .string "u".toList)])) "o".toList "t".toList
      "f".toList) 1
    (fun (events, o) => events.all (fun e => appends e.1 e.2) ∧ o = some true ∧ events.length = 20)
    (by decide +kernel)
  obtain ⟨happends, rfl, hlength⟩ := of_decide_eq_true htest
  exact ⟨events, h, upload_requests h (List.all_eq_true.mp happends), hlength⟩

end ApiClient

end SurfCam

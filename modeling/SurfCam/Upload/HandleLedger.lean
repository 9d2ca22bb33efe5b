import SurfCam.Logic.Resources
import SurfCam.Upload.Handles

/-!
# Who has which handle

Any number of threads make requests of an `ApiClient`, in any order.  Whatever libcurl, the file
system and the server answer, a thread uses and gives back only what it has been handed, and what it
has been handed is given back when the request returns, but for the header lists that are lost.
-/

namespace SurfCam

open Interaction Resources

/-- What libcurl and the system hand out. -/
inductive Handle where
  | easy (curl : Nat)
  | escaped (text : Nat)
  | headers (list : Nat)
  | mime (mime : Nat)
  | descriptor (fd : Nat)
  | mapping (addr : Nat)
  deriving DecidableEq

namespace Handle

def given : (c : NetCall) → c.Reply → Option Handle
  | .curlEasyInit, curl => curl.map easy
  | .curlEasyEscape _ _, text => text.map fun text => escaped text.1
  | .curlSlistAppend _ _, list => list.map headers
  | .curlMimeInit _, m => m.map mime
  | .openFile _, fd => fd.map descriptor
  | .mmap _ _, addr => addr.map mapping
  | _, _ => none

/-- What a call takes from its thread. -/
def taken : (c : NetCall) → c.Reply → Option Handle
  | .curlEasyCleanup curl, _ => some (easy curl)
  | .curlFree text, _ => some (escaped text)
  -- with a node more it is the list that is handed over
  | .curlSlistAppend list _, _ => list.map headers
  | .curlSlistFreeAll list, _ => some (headers list)
  | .curlMimeFree m, _ => some (mime m)
  | .close fd, _ => some (descriptor fd)
  | .munmap addr _, _ => some (mapping addr)
  | _, _ => none

/-- An append that fails frees nothing, and the code overwrites its pointer to the list. -/
def loses : (c : NetCall) → c.Reply → Bool
  | .curlSlistAppend _ _, list => list.isNone
  | _, _ => false

/-- The MIME handle of a request. -/
def ofBody : RequestBody → List Handle
  | .mime m => [mime m]
  | _ => []

/-- What a call is given, also to take it back. -/
@[simp] def used : NetCall → List Handle
  | .curlEasyEscape curl _ | .curlMimeInit curl | .curlEasyCleanup curl => [easy curl]
  | .curlFree text => [escaped text]
  | .curlSlistAppend list _ => (list.map headers).toList
  | .curlSlistFreeAll list => [headers list]
  | .curlMimeData m part =>
    match part.data with
    | .mapped addr _ => [mime m, mapping addr]
    | .text _ => [mime m]
  | .curlMimeFree m => [mime m]
  | .curlEasyPerform curl request =>
    easy curl :: (request.httpHeader.map headers).toList ++ ofBody request.body
  | .fstat fd | .mmap fd _ | .close fd => [descriptor fd]
  | .munmap addr _ => [mapping addr]
  | _ => []

theorem used_of_taken {c : NetCall} {r : c.Reply} {x : Handle} (h : taken c r = some x) :
    x ∈ used c := by
  cases c with
  | curlSlistAppend list line => exact Option.mem_toList.mpr h
  | curlEasyCleanup | curlFree | curlSlistFreeAll | curlMimeFree | close | munmap =>
    cases h
    exact List.mem_singleton_self _
  | _ => cases h

end Handle

/-- The resources of `ApiClient.cpp`. -/
@[reducible] def handles : Resources Net Handle where
  gives := Handle.given
  takes := Handle.taken
  loses := Handle.loses
  uses := Handle.used
  takes_uses := Handle.used_of_taken

namespace Handle

/-- Only header lists are lost. -/
theorem headers_of_lost {c : NetCall} {r : c.Reply} {x : Handle} (h : loses c r = true)
    (hx : taken c r = some x) : ∃ list, x = headers list := by
  cases c with
  | curlSlistAppend list line =>
    obtain ⟨list, -, rfl⟩ := Option.map_eq_some_iff.mp hx
    exact ⟨list, rfl⟩
  | _ => cases h

/-- The ledger of one thread. -/
abbrev Ledger : Local Net (List Handle) := handles.ledger

section

variable {v : List Handle} {α : Type} {Q : α → List Handle → Prop} {E : List Handle → Prop}

/-! ## Rules for the calls -/

theorem wlp_curlEasyInit {f : Option Nat → Prog Net α}
    (hnone : Ledger.wlp (f none) Q E v)
    (hsome : ∀ curl, easy curl ∉ v → Ledger.wlp (f (some curl)) Q E (easy curl :: v)) :
    Ledger.wlp (net .curlEasyInit >>= f) Q E v := by
  refine wlp_give (fun _ => rfl) (by simp) ?_ ?_
  · rintro (_ | curl) hr
    · exact hnone
    · cases hr
  · rintro (_ | curl) x hr hx
    · cases hr
    · cases hr
      exact hsome curl hx

theorem wlp_curlEasyEscape {curl : Nat} {text : Str} {f : Option (Nat × Str) → Prog Net α}
    (h : easy curl ∈ v) (hnone : Ledger.wlp (f none) Q E v)
    (hsome : ∀ pointer escapedText, escaped pointer ∉ v →
      Ledger.wlp (f (some (pointer, escapedText))) Q E (escaped pointer :: v)) :
    Ledger.wlp (net (.curlEasyEscape curl text) >>= f) Q E v := by
  refine wlp_give (fun _ => rfl) (by simpa using h) ?_ ?_
  · rintro (_ | escapedText) hr
    · exact hnone
    · cases hr
  · rintro (_ | ⟨pointer, escapedText⟩) x hr hx
    · cases hr
    · cases hr
      exact hsome pointer escapedText hx

theorem wlp_curlMimeInit {curl : Nat} {f : Option Nat → Prog Net α} (h : easy curl ∈ v)
    (hnone : Ledger.wlp (f none) Q E v)
    (hsome : ∀ m, mime m ∉ v → Ledger.wlp (f (some m)) Q E (mime m :: v)) :
    Ledger.wlp (net (.curlMimeInit curl) >>= f) Q E v := by
  refine wlp_give (fun _ => rfl) (by simpa using h) ?_ ?_
  · rintro (_ | m) hr
    · exact hnone
    · cases hr
  · rintro (_ | m) x hr hx
    · cases hr
    · cases hr
      exact hsome m hx

theorem wlp_openFile {path : Str} {f : Option Nat → Prog Net α}
    (hnone : Ledger.wlp (f none) Q E v)
    (hsome : ∀ fd, descriptor fd ∉ v → Ledger.wlp (f (some fd)) Q E (descriptor fd :: v)) :
    Ledger.wlp (net (.openFile path) >>= f) Q E v := by
  refine wlp_give (fun _ => rfl) (by simp) ?_ ?_
  · rintro (_ | fd) hr
    · exact hnone
    · cases hr
  · rintro (_ | fd) x hr hx
    · cases hr
    · cases hr
      exact hsome fd hx

theorem wlp_mmap {fd len : Nat} {f : Option Nat → Prog Net α} (h : descriptor fd ∈ v)
    (hnone : Ledger.wlp (f none) Q E v)
    (hsome : ∀ addr, mapping addr ∉ v → Ledger.wlp (f (some addr)) Q E (mapping addr :: v)) :
    Ledger.wlp (net (.mmap fd len) >>= f) Q E v := by
  refine wlp_give (fun _ => rfl) (by simpa using h) ?_ ?_
  · rintro (_ | addr) hr
    · exact hnone
    · cases hr
  · rintro (_ | addr) x hr hx
    · cases hr
    · cases hr
      exact hsome addr hx

theorem wlp_curlEasyCleanup {curl : Nat} {f : Unit → Prog Net α} (h : easy curl ∈ v)
    (hf : Ledger.wlp (f ()) Q E (v.erase (easy curl))) :
    Ledger.wlp (net (.curlEasyCleanup curl) >>= f) Q E v :=
  wlp_take (fun _ => rfl) (fun _ => rfl) (by simpa using h) fun _ => hf

theorem wlp_curlSlistFreeAll {list : Nat} {f : Unit → Prog Net α} (h : headers list ∈ v)
    (hf : Ledger.wlp (f ()) Q E (v.erase (headers list))) :
    Ledger.wlp (net (.curlSlistFreeAll list) >>= f) Q E v :=
  wlp_take (fun _ => rfl) (fun _ => rfl) (by simpa using h) fun _ => hf

theorem wlp_close {fd : Nat} {f : Unit → Prog Net α} (h : descriptor fd ∈ v)
    (hf : Ledger.wlp (f ()) Q E (v.erase (descriptor fd))) :
    Ledger.wlp (net (.close fd) >>= f) Q E v :=
  wlp_take (fun _ => rfl) (fun _ => rfl) (by simpa using h) fun _ => hf

theorem wlp_munmap {addr len : Nat} {f : Unit → Prog Net α} (h : mapping addr ∈ v)
    (hf : Ledger.wlp (f ()) Q E (v.erase (mapping addr))) :
    Ledger.wlp (net (.munmap addr len) >>= f) Q E v :=
  wlp_take (fun _ => rfl) (fun _ => rfl) (by simpa using h) fun _ => hf

theorem wlp_curlMimeFree {m : Nat} {f : Unit → Prog Net α} (h : mime m ∈ v)
    (hf : Ledger.wlp (f ()) Q E (v.erase (mime m))) :
    Ledger.wlp (net (.curlMimeFree m) >>= f) Q E v :=
  wlp_take (fun _ => rfl) (fun _ => rfl) (by simpa using h) fun _ => hf

theorem wlp_perform {curl : Nat} {request : Request} {f : HttpReply → Prog Net α}
    (h : ∀ x ∈ used (.curlEasyPerform curl request), x ∈ v)
    (hf : ∀ reply, Ledger.wlp (f reply) Q E v) :
    Ledger.wlp (net (.curlEasyPerform curl request) >>= f) Q E v :=
  wlp_use (fun _ => rfl) (fun _ => rfl) h hf

/-! ## FileMmap -/

/-- The mapping has been added, if there is one. -/
def Mapped (v : List Handle) (r : Option (Nat × Nat)) (v' : List Handle) : Prop :=
  v' = (r.map fun r => mapping r.1).toList ++ v

/-- The descriptor is closed on every way out; what is left is the mapping. -/
theorem wlp_map (path : Str) :
    Ledger.wlp (FileMmap.map path) (Mapped v) (fun _ => False) v := by
  refine wlp_openFile rfl fun fd hfd => ?_
  have hclosed : Ledger.wlp (net (.close fd) >>= fun _ => Prog.ret none) (Mapped v)
      (fun _ => False) (descriptor fd :: v) := by
    refine wlp_close (by simp) ?_
    rw [List.erase_cons_head]
    rfl
  refine wlp_use (fun _ => rfl) (fun _ => rfl) (by simp) fun size => ?_
  cases size with
  | none => exact hclosed
  | some size =>
    by_cases hsize : size ≤ 0
    · simp only [if_pos hsize]
      exact hclosed
    · simp only [if_neg hsize]
      refine wlp_mmap (by simp) hclosed fun addr haddr => ?_
      refine wlp_close (by simp) ?_
      rw [List.erase_cons_tail (by simp), List.erase_cons_head]
      rfl

/-! ## Header lists -/

/-- What the ledger says of a header list. -/
def listed (list : Option Nat) : List Handle := (list.map headers).toList

/-- Nothing but a list is taken off a list. -/
theorem erase_listed {x : Handle} (hx : ∀ list, x ≠ headers list) (list : Option Nat)
    (w : List Handle) : (listed list ++ w).erase x = listed list ++ w.erase x := by
  cases list with
  | none => rfl
  | some list =>
    rw [show listed (some list) = [headers list] from rfl, List.singleton_append,
      List.erase_cons_tail (by simpa using (hx list).symm), List.singleton_append]

theorem wlp_freeHeaders {list : Option Nat} {f : Unit → Prog Net α}
    (hf : Ledger.wlp (f ()) Q E v) :
    Ledger.wlp (freeHeaders list >>= f) Q E (listed list ++ v) := by
  cases list with
  | none => exact hf
  | some list =>
    refine wlp_curlSlistFreeAll (by simp [listed]) ?_
    rw [show (listed (some list) ++ v).erase (headers list) = v from List.erase_cons_head ..]
    exact hf

/-- An append hands the list on, or loses it. -/
theorem wlp_curlSlistAppend (list : Option Nat) {line : Str} {f : Option Nat → Prog Net α}
    (hf : ∀ list, Ledger.wlp (f list) Q E (listed list ++ v)) :
    Ledger.wlp (net (.curlSlistAppend list line) >>= f) Q E (listed list ++ v) := by
  have hrest : ∀ r, handles.rest (.curlSlistAppend list line) r (listed list ++ v) = v := by
    intro r
    cases list with
    | none => rfl
    | some list => exact List.erase_cons_head ..
  refine ⟨fun x hx => List.mem_append_left _ hx, fun r v' hs => ?_⟩
  simp only [ledger, hrest] at hs
  cases r with
  | none =>
    cases hs
    exact hf none
  | some l =>
    have hgiven : given (.curlSlistAppend list line) (some l) = some (headers l) := rfl
    simp only [hgiven] at hs
    by_cases hl : headers l ∈ v
    · rw [if_pos hl] at hs
      contradiction
    · rw [if_neg hl] at hs
      cases hs
      exact hf (some l)

theorem wlp_appendHeaders {lines : List Str} (list : Option Nat) {f : Option Nat → Prog Net α}
    (hf : ∀ list, Ledger.wlp (f list) Q E (listed list ++ v)) :
    Ledger.wlp (appendHeaders lines list >>= f) Q E (listed list ++ v) := by
  induction lines generalizing list with
  | nil => exact hf list
  | cons line lines ih => exact wlp_curlSlistAppend list fun list => ih list

/-! ## The requests -/

variable {self : ApiClient} {parse : Str → Option Json}

/-- The end of a request or of an attempt. -/
def Clean {α : Type} (p : Prog Net α) : Prop :=
  Ledger.wlp p (fun _ v => v = []) (fun _ => False) []

theorem Clean.bind {β : Type} {p : Prog Net α} {f : α → Prog Net β} (hp : Clean p)
    (hf : ∀ a, Clean (f a)) : Clean (p >>= f) :=
  Local.wlp_bind_of hp fun a v hv => by
    rw [hv]
    exact hf a

/-- The last handle is cleaned up. -/
theorem clean_curlEasyCleanup {curl : Nat} {a : α} :
    Ledger.wlp (net (.curlEasyCleanup curl) >>= fun _ => .ret a) (fun _ v => v = [])
      (fun _ => False) [easy curl] := by
  refine wlp_curlEasyCleanup (by simp) ?_
  exact List.erase_cons_head ..

/-- What a request uses: its handle, its header list and its body. -/
theorem used_of_request {curl : Nat} {request : Request} {w : List Handle}
    (hcurl : easy curl ∈ w) (hbody : ∀ x ∈ ofBody request.body, x ∈ w) :
    ∀ x ∈ used (.curlEasyPerform curl request), x ∈ listed request.httpHeader ++ w := by
  intro x hx
  simp only [used, List.mem_append, List.mem_cons] at hx
  rw [List.mem_append]
  rcases hx with (rfl | hx) | hx
  · exact .inr hcurl
  · exact .inl hx
  · exact .inr (hbody x hx)

theorem clean_isStreamingRequested (spotId : Str) :
    Clean (self.isStreamingRequested parse spotId) := by
  refine wlp_curlEasyInit rfl fun curl _ => ?_
  refine wlp_curlEasyEscape (by simp) clean_curlEasyCleanup fun pointer escapedSpot _ => ?_
  refine wlp_take (fun _ => rfl) (fun _ => rfl) (by simp) fun _ => ?_
  rw [List.erase_cons_head]
  refine wlp_curlSlistAppend none fun headers => ?_
  refine wlp_perform (used_of_request (by simp) (by simp [ofBody])) fun reply => ?_
  exact wlp_freeHeaders clean_curlEasyCleanup

theorem clean_uploadSnapshot (imagePath spotId : Str) :
    Clean (self.uploadSnapshot imagePath spotId) := by
  refine wlp_curlEasyInit rfl fun curl _ => ?_
  refine Local.wlp_bind_of (wlp_map imagePath) fun r v hv => ?_
  rw [show v = _ from hv]
  cases r with
  | none => exact clean_curlEasyCleanup
  | some r =>
  obtain ⟨addr, len⟩ := r
  have hunmap : ∀ success : Bool, Ledger.wlp (net (.munmap addr len) >>= fun _ => .ret success)
      (fun _ v => v = []) (fun _ => False) [mapping addr] := by
    intro success
    refine wlp_munmap (by simp) ?_
    exact List.erase_cons_head ..
  show Ledger.wlp _ _ _ [mapping addr, easy curl]
  refine wlp_curlMimeInit (by simp) ?_ fun m _ => ?_
  · refine wlp_curlEasyCleanup (by simp) ?_
    rw [List.erase_cons_tail (by simp), List.erase_cons_head]
    exact hunmap false
  refine wlp_use (fun _ => rfl) (fun _ => rfl) (by simp) fun stored => ?_
  cases stored with
  | false =>
    refine wlp_curlMimeFree (by simp) ?_
    rw [List.erase_cons_head]
    refine wlp_curlEasyCleanup (by simp) ?_
    rw [List.erase_cons_tail (by simp), List.erase_cons_head]
    exact hunmap false
  | true =>
  have hpost : Ledger.wlp (self.postSnapshot curl m spotId)
      (fun r v => v = listed r.1 ++ [mime m, mapping addr, easy curl]) (fun _ => False)
      [mime m, mapping addr, easy curl] := by
    refine wlp_use (fun _ => rfl) (fun _ => rfl) (by simp) fun timestamp => ?_
    refine wlp_use (fun _ => rfl) (fun _ => rfl) (by simp) fun _ => ?_
    refine wlp_use (fun _ => rfl) (fun _ => rfl) (by simp) fun _ => ?_
    refine wlp_curlSlistAppend none fun headers => ?_
    refine wlp_perform (used_of_request (by simp) (by simp [ofBody])) fun reply => ?_
    rfl
  refine Local.wlp_bind_of hpost fun r v hv => ?_
  rw [hv]
  obtain ⟨headers, success⟩ := r
  refine wlp_munmap (by simp) ?_
  rw [erase_listed (by simp), List.erase_cons_tail (by simp), List.erase_cons_head]
  refine wlp_curlMimeFree (by simp) ?_
  rw [erase_listed (by simp), List.erase_cons_head]
  exact wlp_freeHeaders clean_curlEasyCleanup

section

variable {objectKey contentType filePath : Str}

theorem clean_putFile (presignUrl : Str) (presignResponseHeaders : List (Str × Str))
    (fsize : Nat) :
    Clean (ApiClient.putFile filePath presignUrl presignResponseHeaders fsize) := by
  refine wlp_use (fun _ => rfl) (fun _ => rfl) (by simp) fun file => ?_
  cases file with
  | none => rfl
  | some file =>
    refine wlp_curlEasyInit rfl fun put _ => ?_
    refine wlp_appendHeaders none fun putHeaders => ?_
    refine wlp_perform (used_of_request (by simp) (by simp [ofBody])) fun putReply => ?_
    refine wlp_freeHeaders ?_
    by_cases hok : putReply.success = true
    · simp only [if_pos hok]
      exact clean_curlEasyCleanup
    · simp only [if_neg hok]
      exact clean_curlEasyCleanup

theorem wlp_postPresign {presignCurl : Nat} :
    Ledger.wlp (self.postPresign presignCurl objectKey contentType)
      (fun r v => v = listed r.1 ++ [easy presignCurl]) (fun _ => False) [easy presignCurl] := by
  refine wlp_use (fun _ => rfl) (fun _ => rfl) (by simp) fun payload => ?_
  cases payload with
  | none => rfl
  | some payload =>
    refine wlp_appendHeaders none fun presignHeaders => ?_
    refine wlp_perform (used_of_request (by simp) (by simp [ofBody])) fun reply => ?_
    rfl

theorem clean_attempt (fsize : Nat) :
    Clean (self.attempt parse objectKey contentType filePath fsize) := by
  refine wlp_curlEasyInit rfl fun presignCurl _ => ?_
  refine Local.wlp_bind_of wlp_postPresign fun r v hv => ?_
  rw [hv]
  obtain ⟨presignHeaders, presignReply⟩ := r
  refine wlp_freeHeaders ?_
  refine wlp_curlEasyCleanup (by simp) ?_
  rw [List.erase_cons_head]
  cases presignReply with
  | none => rfl
  | some presignReply =>
    dsimp only
    cases ApiClient.presignResult parse presignReply with
    | none => rfl
    | some target => exact clean_putFile _ _ _

/-- The delay in front of an attempt holds nothing. -/
theorem clean_delayed {p : Prog Net α} (hp : Clean p) (number : Nat) :
    Clean (if number > 0 then net (.sleepFor (250 * number)) >>= fun _ => p else p) := by
  by_cases hnumber : number > 0
  · rw [if_pos hnumber]
    exact wlp_use (fun _ => rfl) (fun _ => rfl) (by simp) fun _ => hp
  · rw [if_neg hnumber]
    exact hp

theorem clean_attempts (fsize number left : Nat) :
    Clean (self.attempts parse objectKey contentType filePath fsize number left) := by
  induction left generalizing number with
  | zero => rfl
  | succ left ih =>
    unfold ApiClient.attempts
    refine clean_delayed ((clean_attempt fsize).bind fun outcome => ?_) number
    cases outcome with
    | none => exact ih (number + 1)
    | some result => rfl

theorem clean_upload : Clean (self.upload parse objectKey contentType filePath) := by
  refine wlp_use (fun _ => rfl) (fun _ => rfl) (by simp) fun fsize => ?_
  cases fsize with
  | none => rfl
  | some fsize =>
    by_cases hsize : fsize = 0
    · simp only [if_pos hsize]
      rfl
    · simp only [if_neg hsize]
      exact clean_attempts fsize 0 _

end

theorem clean_clientBody : Clean (self.clientBody parse) := by
  refine wlp_use (fun _ => rfl) (fun _ => rfl) (by simp) fun request => ?_
  cases request with
  | uploadSnapshot imagePath spotId =>
    exact (clean_uploadSnapshot imagePath spotId).bind fun _ => rfl
  | isStreamingRequested spotId =>
    exact (clean_isStreamingRequested spotId).bind fun _ => rfl
  | uploadLocalFileWithPresign objectKey contentType filePath =>
    exact clean_upload.bind fun _ => rfl

end

end Handle

/-- The threads that share an `ApiClient`. -/
def clientCode (T : Type) (self : ApiClient) (parse : Str → Option Json) : Code Net T where
  Pc _ := Unit
  body _ _ := self.clientBody parse

def clientStart (T : Type) (self : ApiClient) (parse : Str → Option Json) :
    Config (clientCode T self parse) (Estate T Handle) where
  world := ⟨[], []⟩
  prog _ := .ret (some ())

/-- Any number of threads make requests in any order: each uses and gives back only what it has been
handed itself, nothing is in the hands of two threads, and a thread between two requests has nothing
in its hands, however the requests ended.  What has not been given back is a header list to which a
line could not be appended; nobody has it any more. -/
theorem ApiClient.handles_returned {T : Type} [DecidableEq T] {self : ApiClient}
    {parse : Str → Option Json} {cfg : Config (clientCode T self parse) (Estate T Handle)}
    (hrun : Run (handles.machine T) anyStep (clientStart T self parse) cfg) :
    (∀ t c, cfg.pending t = some c →
      (∀ r x, Handle.taken c r = some x → (t, x) ∈ cfg.world.held) ∧
        ∀ x ∈ Handle.used c, (t, x) ∈ cfg.world.held) ∧
    (cfg.world.held.map Prod.snd ++ cfg.world.lost).Nodup ∧
    (∀ x ∈ cfg.world.lost, ∃ list, x = .headers list) ∧
    ∀ t, cfg.reached t = some () → ∀ x, (t, x) ∉ cfg.world.held := by
  have hbody : ∀ t pc, handles.ledger.wlp ((clientCode T self parse).body t pc)
      (fun _ v => v = []) (fun _ => True) [] := fun _ _ =>
    Local.wlp_mono Handle.clean_clientBody (fun _ _ h => h) fun _ _ => trivial
  obtain ⟨hpre, hsound, hempty⟩ := run_owned hbody rfl (fun _ => ⟨_, rfl⟩) hrun
  have hused : ∀ t c, cfg.pending t = some c → ∀ x ∈ Handle.used c, (t, x) ∈ cfg.world.held :=
    fun t c hc x hx => mem_own.mp (hpre t c hc x hx)
  refine ⟨fun t c hc => ⟨fun r x hx => ?_, hused t c hc⟩, hsound.apart, fun x hx => ?_,
    fun t ht x hx => ?_⟩
  · exact hused t c hc x (Handle.used_of_taken hx)
  · obtain ⟨c, r, hloses, htaken⟩ := hsound.lost x hx
    exact Handle.headers_of_lost hloses htaken
  · have hmem := mem_own.mpr hx
    rw [hempty t () ht] at hmem
    contradiction

/-- Every call succeeds, and every pointer is `pointer`. -/
def Handle.granted (request : ApiRequest) (pointer : Nat) : (c : NetCall) → Option c.Reply
  | .curlEasyInit | .curlSlistAppend _ _ | .curlMimeInit _ | .openFile _ | .mmap _ _ =>
    some (some pointer)
  | .curlEasyEscape _ text => some (some (pointer, text))
  | .curlMimeData _ _ => some true
  | .curlEasyPerform _ _ => some { curl := .ok, status := 200, body := [] }
  | .fstat _ => some (some 4096)
  | .localTime => some []
  | .dump _ _ | .openBinary _ => some (some [])
  | .fileSize _ => some (some 4096)
  | .nextRequest => some request
  | .curlEasyCleanup _ | .curlFree _ | .curlSlistFreeAll _ | .curlMimeFree _ | .close _
  | .munmap _ _ | .sleepFor _ => some ()

/-- The same, but a second line cannot be appended. -/
def Handle.short (request : ApiRequest) (pointer : Nat) : (c : NetCall) → Option c.Reply
  | .curlSlistAppend (some _) _ => some none
  | c => granted request pointer c

/-- Thread 0 uploads a picture, thread 1 asks whether to stream, and thread 2 asks for a URL. -/
def Handle.threeRequests : List (Choice Net Nat (Estate Nat Handle) Empty) :=
  List.replicate 13 (.run 0 fun _ => granted (.uploadSnapshot "a".toList "s".toList) 1) ++
    List.replicate 6 (.run 1 fun _ => granted (.isStreamingRequested "s".toList) 2) ++
      List.replicate 7 (.run 2 fun _ =>
        short (.uploadLocalFileWithPresign "o".toList "t".toList "f".toList) 3)

/-- All wait for the server, with four handles, with two and with one; a header list is lost. -/
theorem ApiClient.handles_returned_waiting :
    ∃ cfg : Config (clientCode Nat ⟨"e".toList, "k".toList⟩ fun _ => none)
        (Estate Nat Handle),
      (cfg.world.held.map Prod.fst = [2, 1, 1, 0, 0, 0, 0] ∧ cfg.world.lost = [.headers 3]) ∧
        (∀ t c, cfg.pending t = some c →
          (∀ r x, Handle.taken c r = some x → (t, x) ∈ cfg.world.held) ∧
            ∀ x ∈ Handle.used c, (t, x) ∈ cfg.world.held) ∧
        (cfg.world.held.map Prod.snd ++ cfg.world.lost).Nodup ∧
        (∀ x ∈ cfg.world.lost, ∃ list, x = .headers list) ∧
        ∀ t, cfg.reached t = some () → ∀ x, (t, x) ∉ cfg.world.held := by
  obtain ⟨cfg, hrun, htest⟩ := exec_reaches (handles.machine Nat) (fun _ _ => true)
    (clientStart Nat ⟨"e".toList, "k".toList⟩ fun _ => none) Handle.threeRequests
    (fun cfg => cfg.world.held.map Prod.fst = [2, 1, 1, 0, 0, 0, 0] ∧
      cfg.world.lost = [.headers 3]) (by decide +kernel)
  exact ⟨cfg, of_decide_eq_true htest,
    ApiClient.handles_returned (hrun.mono fun _ _ _ => trivial)⟩

end SurfCam

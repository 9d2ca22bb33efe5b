import SurfCam.Logic.RelyGuarantee
import SurfCam.Upload.Client

/-!
# An upload of a file that is being replaced

`uploadLocalFileWithPresign` beside a writer that replaces the file at any moment.  The size is read
once, and every attempt opens the file anew.
-/

namespace SurfCam

open Interaction Contract

namespace Replaced

/-- How far the upload has come. -/
structure Progress where
  /-- what `file_size` has returned -/
  sized : Nat
  /-- the version behind the last stream -/
  opened : Option Str
  /-- the body of the last PUT that was answered 2xx -/
  body : Option Str
  deriving DecidableEq

structure World where
  file : Str
  /-- the contents that the file had during the call, the current one first -/
  versions : List Str
  progress : Progress
  deriving DecidableEq

/-- libcurl takes `infileSize` bytes from the callback, or the transfer fails. -/
def transferReply : (c : HostCall) → c.Reply → Bool
  | .put _ _ file infileSize, r => r.curl = .ok → infileSize ≤ file.length
  | _, _ => true

/-- What a reply about the file may be; there is no other file. -/
def fileReply (path file : Str) : (c : HostCall) → c.Reply → Bool
  | .fileSize p, r => r = none ∨ p = path ∧ r = some file.length
  | .openBinary p, r => r = none ∨ p = path ∧ r = some file
  | _, _ => true

def Progress.after (v : Progress) : (c : HostCall) → c.Reply → Progress
  | .fileSize _, some n => { v with sized := n }
  | .openBinary _, some file => { v with opened := some file }
  | .put _ _ file infileSize, r =>
    -- libcurl sends `infileSize` bytes of the stream, however long it is
    if r.success then { v with body := some (file.take infileSize) } else v
  | _, _ => v

/-- One upload of the file at `path`, beside the writer. -/
def machine (path : Str) : Machine Host Unit World Str where
  act _ c r w :=
    if fileReply path w.file c r && transferReply c r then
      some { w with progress := w.progress.after c r }
    else none
  env content w := some { w with file := content, versions := content :: w.versions }

/-- Where the upload is. -/
inductive Point where
  | start
  | returned (b : Bool)
  deriving DecidableEq

section

variable (parse : Str → Option Json) (self : ApiClient) (objectKey contentType path : Str)

abbrev uploadCode : Code Host Unit where
  Pc _ := Point
  body _
    | .start => do
      let b ← self.uploadLocalFileWithPresign parse objectKey contentType path
      return some (.returned b)
    | .returned _ => return none

/-- The call, while the file has the content `file`. -/
def uploadStart (file : Str) : Config (uploadCode parse self objectKey contentType path) World where
  world := ⟨file, [file], ⟨0, none, none⟩⟩
  prog _ := (uploadCode parse self objectKey contentType path).body () .start

end

/-- The body is the entire content of the version it was read from, one that the file had. -/
def SentWhole (w : World) : Prop :=
  ∃ v ∈ w.versions, w.progress.opened = some v ∧ w.progress.body = some v

/-- The version that was opened last is not longer than the one whose size was read. -/
def OpenedFits (w : World) : Prop :=
  ∀ v, w.progress.opened = some v → v.length ≤ w.progress.sized

/-! ## The upload alone -/

/-- What the upload does to its progress. -/
def uploading : Local Host Progress where
  step c r v := if transferReply c r then some (v.after c r) else none
  ok _ _ := True

variable {α : Type} {v : Progress} {w w' : World}

theorem wlp_uploading {c : HostCall} {f : c.Reply → Prog Host α} {Q : α → Progress → Prop}
    {X : Progress → Prop}
    (h : ∀ r, transferReply c r = true → uploading.wlp (f r) Q X (v.after c r)) :
    uploading.wlp (.call c .ret >>= f) Q X v := by
  refine ⟨trivial, fun r v' hs => ?_⟩
  obtain ⟨hr, rfl⟩ := guarded_eq_some.mp hs
  exact h r hr

theorem after_put_ok {url : Str} {headers : List Str} {file : Str} {n : Nat} {reply : HttpReply}
    (h : reply.success = true) :
    v.after (.put url headers file n) reply = { v with body := some (file.take n) } :=
  if_pos h

theorem after_put_failed {url : Str} {headers : List Str} {file : Str} {n : Nat} {reply : HttpReply}
    (h : ¬ reply.success = true) : v.after (.put url headers file n) reply = v :=
  if_neg h

/-- The body that was sent is what the recorded size takes of the version that was opened. -/
def Sent (v : Progress) : Prop :=
  ∃ file, v.opened = some file ∧ v.sized ≤ file.length ∧ v.body = some (file.take v.sized)

section

variable {parse : Str → Option Json} {self : ApiClient} {objectKey contentType path : Str}
  {fsize : Nat}

theorem wlp_transferAttempt (h : v.sized = fsize) :
    uploading.wlp (self.transferAttempt parse objectKey contentType path fsize)
      (fun result v => v.sized = fsize ∧ (result = some true → Sent v)) (fun _ => False) v := by
  have giveUp : ∀ {b : Bool}, (if b then none else some false : Option Bool) ≠ some true := by
    decide
  unfold ApiClient.transferAttempt
  refine wlp_uploading fun handle _ => ?_
  cases handle with
  | false => exact ⟨h, nofun⟩
  | true =>
  refine wlp_uploading fun answer _ => ?_
  cases answer with
  | none => exact ⟨h, nofun⟩
  | some answer =>
  cases hp : ApiClient.presignResult parse answer with
  | none =>
    simp only [hp]
    exact ⟨h, fun hr => absurd hr giveUp⟩
  | some p =>
  simp only [hp]
  refine wlp_uploading fun file _ => ?_
  cases file with
  | none => exact ⟨h, nofun⟩
  | some file =>
  refine wlp_uploading fun handle _ => ?_
  cases handle with
  | false => exact ⟨h, nofun⟩
  | true =>
  refine wlp_uploading fun reply hreply => ?_
  by_cases hs : reply.success = true
  · have hcurl : reply.curl = .ok := (of_decide_eq_true hs).1
    have hlen : fsize ≤ file.length := of_decide_eq_true hreply hcurl
    rw [after_put_ok hs]
    simp only [hs]
    rw [← h] at hlen ⊢
    exact ⟨rfl, fun _ => ⟨file, rfl, hlen, rfl⟩⟩
  · rw [after_put_failed hs]
    simp only [hs]
    exact ⟨h, fun hr => absurd hr giveUp⟩

theorem wlp_transferAttempts {attempt left : Nat} (h : v.sized = fsize) :
    uploading.wlp
      (self.transferAttempts parse objectKey contentType path fsize attempt left)
      (fun b v => b = true → Sent v) (fun _ => False) v := by
  induction left generalizing attempt v with
  | zero => exact fun hb => by cases hb
  | succ left ih =>
    rw [ApiClient.transferAttempts_succ]
    have hattempt : uploading.wlp
        (self.transferAttempt parse objectKey contentType path fsize >>= ApiClient.settle
          (self.transferAttempts parse objectKey contentType path fsize (attempt + 1) left))
        (fun b v => b = true → Sent v) (fun _ => False) v := by
      refine Local.wlp_bind_of (wlp_transferAttempt h) fun result v hv => ?_
      cases result with
      | none => exact ih hv.1
      | some b => exact fun hb => hv.2 (congrArg some hb)
    -- the pause before a repeated attempt
    by_cases ha : attempt > 0
    · rw [if_pos ha]
      exact wlp_uploading fun _ _ => hattempt
    · rw [if_neg ha]
      exact hattempt

/-- Where the upload returns true, it has sent what it should have sent of some version. -/
theorem wlp_uploadLocalFileWithPresign :
    uploading.wlp (self.uploadLocalFileWithPresign parse objectKey contentType path)
      (fun b v => b = true → Sent v) (fun _ => False) v := by
  unfold ApiClient.uploadLocalFileWithPresign
  refine wlp_uploading fun size _ => ?_
  cases size with
  | none => exact nofun
  | some fsize =>
    -- an empty file is refused
    by_cases hempty : fsize = 0
    · simp only [if_pos hempty]
      exact nofun
    · simp only [if_neg hempty]
      exact wlp_transferAttempts rfl

end

/-! ## Beside the writer -/

variable {path : Str}

theorem act_eq {c : HostCall} {r : c.Reply} (h : (machine path).act () c r w = some w') :
    fileReply path w.file c r = true ∧ transferReply c r = true ∧
      w' = { w with progress := w.progress.after c r } := by
  obtain ⟨hr, heq⟩ := guarded_eq_some.mp h
  obtain ⟨hfile, htransfer⟩ := Bool.and_eq_true_iff.mp hr
  exact ⟨hfile, htransfer, heq⟩

/-- The current content is a version, and so is what is open. -/
structure Known (w : World) : Prop where
  file : w.file ∈ w.versions
  opened : ∀ v, w.progress.opened = some v → v ∈ w.versions

/-- Opening finds the current content, and no other call opens anything. -/
theorem opened_after {c : HostCall} {r : c.Reply} {v : Progress} {file : Str}
    (hr : fileReply path file c r = true) :
    (v.after c r).opened = v.opened ∨ (v.after c r).opened = some file := by
  cases c with
  | openBinary p =>
    cases r with
    | none => exact .inl rfl
    | some content =>
      cases of_decide_eq_true hr with
      | inl hnone => cases hnone
      | inr hopen => exact .inr hopen.2
  | fileSize p => cases r <;> exact .inl rfl
  | put url headers content n =>
    by_cases hs : (r : HttpReply).success = true
    · rw [after_put_ok hs]
      exact .inl rfl
    · rw [after_put_failed hs]
      exact .inl rfl
  | _ => exact .inl rfl

/-- The writer leaves the progress alone. -/
def contract (path : Str) : Contract (machine path) anyStep where
  inv := Known
  pre _ _ _ := True
  rely _ w w' := w'.progress = w.progress
  rely_refl _ _ := rfl
  rely_trans h h' := h'.trans h
  inv_act {_ c r w w'} hw _ _ hact := by
    obtain ⟨hr, -, rfl⟩ := act_eq hact
    -- the call does not touch the file; what is opened is its current content
    refine ⟨hw.file, fun v hv => ?_⟩
    cases opened_after (v := w.progress) hr with
    | inl heq => exact hw.opened v (heq.symm.trans hv)
    | inr heq => exact Option.some.inj (heq.symm.trans hv) ▸ hw.file
  inv_env hw _ henv := by
    cases henv
    exact ⟨List.mem_cons_self, fun v hv => List.mem_cons_of_mem _ (hw.opened v hv)⟩
  rely_act h := (h rfl).elim
  rely_env _ _ henv := by
    cases henv
    rfl

/-- The progress is the upload's own. -/
def progressView (path : Str) : View (contract path) () uploading where
  own _ := True
  view := World.progress
  rely _ hr _ := ⟨trivial, hr⟩
  pre _ _ _ := trivial
  step _ _ _ _ hact := by
    obtain ⟨-, hr, rfl⟩ := act_eq hact
    exact ⟨trivial, if_pos hr⟩

section

variable (parse : Str → Option Json) (self : ApiClient) (objectKey contentType path : Str)

/-- Where the upload has returned true, it has sent what it should have sent of some version. -/
def uploadProof : Proof (contract path) (uploadCode parse self objectKey contentType path) where
  holds
    | _, .start, _ => True
    | _, .returned b, w => b = true → Sent w.progress
  body
    | _, .start, w, _, _ => by
      refine wp_bind_of (wp_mono ((progressView path).wp trivial wlp_uploadLocalFileWithPresign)
        (fun _ _ _ h => h.2) fun _ _ h => h.2.elim) fun b w _ hsent => ?_
      intro w' hr _ pc hpc
      cases hpc
      have hprogress : w'.progress = w.progress := hr
      show b = true → Sent w'.progress
      rw [hprogress]
      exact hsent
    | _, .returned b, _, _, _ => fun _ _ _ _ hpc => nomatch hpc

/-- Whenever the upload has returned true, the body that was answered 2xx is the entire content of
a version exactly when the version that the last attempt opened is not longer than the one whose
size was read at the start. -/
theorem sent_whole_iff {file : Str}
    {cfg : Config (uploadCode parse self objectKey contentType path) World}
    (hrun : Run (machine path) anyStep (uploadStart parse self objectKey contentType path file) cfg)
    (hreturned : cfg.reached () = some (.returned true)) :
    SentWhole cfg.world ↔ OpenedFits cfg.world := by
  have hknown : Known (uploadStart parse self objectKey contentType path file).world :=
    ⟨List.mem_cons_self, nofun⟩
  have hvalid := (uploadProof parse self objectKey contentType path).sound
    ⟨hknown, fun _ => (uploadProof parse self objectKey contentType path).body () .start _ hknown
      trivial⟩ hrun
  obtain ⟨v, hopened, -, hbody⟩ := hvalid.holds hreturned rfl
  have hv : v ∈ cfg.world.versions := hvalid.inv.opened v hopened
  constructor
  · intro h u hu
    obtain ⟨u', -, hu', hwhole⟩ := h
    have huv : u = v := Option.some.inj (hu.symm.trans hopened)
    have huv' : u' = v := Option.some.inj (hu'.symm.trans hopened)
    -- a body cut at the recorded size is the version only when the version is not longer
    rw [huv', hbody, Option.some.injEq] at hwhole
    rw [huv]
    calc v.length = (v.take cfg.world.progress.sized).length := congrArg List.length hwhole.symm
      _ ≤ cfg.world.progress.sized := List.length_take_le _ _
  · intro h
    rw [List.take_of_length_le (h v hopened)] at hbody
    exact ⟨v, hv, hopened, hbody⟩

end

/-! ## A longer version -/

def presignBody : Str := "\x7b\"url\":\"https://bucket/index\"\x7d".toList

def parsePresignBody (body : Str) : Option Json :=
  if body = presignBody then
    some (.object [("url".toList, .string "https://bucket/index".toList)])
  else none

def playlistPath : Str := pathAppend Config.HLS_OUTPUT_DIR Config.HLS_PLAYLIST_NAME

/-- Servers that accept everything. -/
def willingReply (w : World) : (c : HostCall) → Option c.Reply
  | .fileSize _ => some (some w.file.length)
  | .openBinary _ => some (some w.file)
  | .curlEasyInit => some true
  | .presignPost _ _ _ _ => some (some ⟨.ok, 200, presignBody⟩)
  | .put _ _ _ _ => some ⟨.ok, 200, []⟩
  | _ => none

abbrev playlistStart : Config (uploadCode parsePresignBody ⟨"https://api".toList, "key".toList⟩
    "A/index.m3u8".toList "application/vnd.apple.mpegurl".toList playlistPath) World :=
  uploadStart _ _ _ _ _ "a.ts".toList

/-- The size is read, then the writer puts `content` there, then the upload goes on to its end. -/
def schedule (content : Str) : List (Choice Host Unit World Str) :=
  .run () willingReply :: .env content :: List.replicate 5 (.run () fun w c => willingReply w c)

/-- A version of the same length is sent whole. -/
theorem sent_whole_iff_same_length :
    ∃ cfg, Run (machine playlistPath) anyStep playlistStart cfg ∧
      cfg.world.versions = ["b.ts".toList, "a.ts".toList] ∧
      (SentWhole cfg.world ↔ OpenedFits cfg.world) ∧
      cfg.world.progress.body = some "b.ts".toList := by
  obtain ⟨cfg, hrun, h⟩ := exec_reaches (machine playlistPath) (fun _ _ => true) playlistStart
    (schedule "b.ts".toList)
    (fun cfg => cfg.reached () = some (.returned true) ∧
      cfg.world.versions = ["b.ts".toList, "a.ts".toList] ∧
      cfg.world.progress.body = some "b.ts".toList) (by decide +kernel)
  obtain ⟨hreturned, hversions, hbody⟩ := of_decide_eq_true h
  have hrun : Run (machine playlistPath) anyStep playlistStart cfg := hrun.mono fun _ _ _ => trivial
  exact ⟨cfg, hrun, hversions, sent_whole_iff _ _ _ _ _ hrun hreturned, hbody⟩

/-- When the writer puts a longer version there after the size was read, the upload returns true
although what it has sent is no version of the file. -/
theorem truncated_version_is_sent :
    ∃ cfg body, Run (machine playlistPath) anyStep playlistStart cfg ∧
      cfg.reached () = some (.returned true) ∧ cfg.world.progress.body = some body ∧
        body ∉ cfg.world.versions := by
  obtain ⟨cfg, hrun, h⟩ := exec_reaches (machine playlistPath) (fun _ _ => true) playlistStart
    (schedule "b.ts c.ts".toList)
    (fun cfg => cfg.reached () = some (.returned true) ∧
      cfg.world.progress.body = some "b.ts".toList ∧
      cfg.world.versions = ["b.ts c.ts".toList, "a.ts".toList]) (by decide +kernel)
  obtain ⟨hreturned, hbody, hversions⟩ := of_decide_eq_true h
  refine ⟨cfg, _, hrun.mono fun _ _ _ => trivial, hreturned, hbody, ?_⟩
  rw [hversions]
  decide

end Replaced

end SurfCam

import SurfCam.App.Lifecycle
import SurfCam.App.Starts
import SurfCam.Logic.Watch

/-!
# The repair of the camera

`streamCheckWorker` takes a recovery request up, and with it the flag, before it tries to
reinitialize the camera.  An attempt that fails pauses the snapshots and leaves the next attempt to
an HLS worker that fails to start its stream.
-/

namespace SurfCam

open Interaction CameraManager Contract

namespace Recovery

/-- What has happened to the camera and its repair. -/
structure Past where
  /-- the last attempt to reinitialize the camera was refused -/
  failed : Bool
  /-- since the last request was taken up, an HLS worker has gone on from a `startVideoMode` that
  returned false -/
  reported : Bool
  starts : Starts

/-- The answers of libcamera that decide an attempt: true when it is refused. -/
def refusal : (c : SysCall) → c.Reply → Option Bool
  | .makeCameraManager, .ok => none
  | .makeCameraManager, _ => some true
  | .managerStart, .threw => some true
  | .managerCameras, none | .managerCameras, some 0 => some true
  | .acquire, r => some (r ≠ .ok)
  | _, _ => none

/-- The attempts are those of `streamCheckWorker`, which also takes the requests up. -/
def see (legacy : Bool) (_ : World) : Label Sys Tid Signal → Past → Past
  | .act .check c r, past =>
    { past with
      failed := (refusal c r).getD past.failed
      reported := past.reported && !decide (c = .exchange .cameraRecoveryNeeded false) }
  | .act (.hls n) c r, past =>
    { past with
      reported := past.reported || past.starts.failed n
      starts := past.starts.after legacy (.hls n) c r }
  | _, past => past

theorem starts_see {legacy : Bool} (w : World) {t : Tid} {c : SysCall} {r : c.Reply} {past : Past} :
    (see legacy w (.act t c r) past).starts = past.starts.after legacy t c r := by
  cases t <;> rfl

/-- The calls that write the flag `f`. -/
def writes (f : Flag) : SysCall → Bool
  | .store g _ | .exchange g _ => g = f
  | _ => false

theorem flag_after {f : Flag} {t : Tid} {c : SysCall} {r : c.Reply} {w : World}
    (hc : writes f c = false) : (w.after t c r).flag f = w.flag f := by
  apply World.flag_after
  · rintro value rfl
    exact of_decide_eq_false hc rfl
  · rintro value rfl
    exact of_decide_eq_false hc rfl

/-- `streamCheckWorker` is started by a call of its own. -/
theorem not_started_after {t : Tid} {c : SysCall} {r : c.Reply} {w : World}
    (hc : ∀ worker, c ≠ .spawnWorker worker) (h : w.threads.started .check = false) :
    (w.after t c r).threads.started .check = false := by
  have hset : ∀ u : Tid, u ≠ .check → Function.update w.threads.started u true .check = false :=
    fun _ hu => (Function.update_of_ne (Ne.symm hu) ..).trans h
  cases c with
  | spawnGstThread =>
    cases r with
    | ok => exact hset (.gst w.glib.loops) nofun
    | failed => exact h
    | threw => exact h
  | spawnStreamThread =>
    cases r with
    | ok => exact hset (.hls w.threads.hlsWorkers) nofun
    | failed => exact h
    | threw => exact h
  | spawnWorker worker => exact absurd rfl (hc worker)
  | _ => exact h

/-- `streamCheckWorker` has not been started. -/
def Early (x : World × Past) : Prop := x.1.threads.started .check = false

/-- Which thread pauses the snapshots, asks for a recovery and takes it up. -/
structure Allowed (t : Tid) (c : SysCall) (x : World × Past) : Prop where
  pause : writes .snapshotsPaused_ c = true →
    t = .check ∨ t = .main ∧ c = .store .snapshotsPaused_ false ∧ Early x
  request : writes .cameraRecoveryNeeded c = true →
    t = .check ∧ c = .exchange .cameraRecoveryNeeded false ∨
      ∃ n, t = .hls n ∧ c = .store .cameraRecoveryNeeded true ∧ x.2.starts.failed n = true
  begun : t = .check → c ≠ .threadBegin → ¬ Early x
  spawn : ∀ worker, c = .spawnWorker worker → t = .main
  report : ∀ n, t = .hls n → x.2.starts.failed n = true → c = .store .cameraRecoveryNeeded true

/-- What the others leave to `streamCheckWorker`, to `main` and to the HLS workers. -/
structure Left (t : Tid) (x x' : World × Past) : Prop where
  paused : t = .check → x'.1.flag .snapshotsPaused_ = x.1.flag .snapshotsPaused_
  failed : t = .check → x'.2.failed = x.2.failed
  started : x.1.threads.started .check = true → x'.1.threads.started .check = true
  early : t = .main → Early x → Early x'
  starts : ∀ n, t = .hls n → x'.2.starts n = x.2.starts n

theorem Left.refl (t : Tid) (x : World × Past) : Left t x x :=
  ⟨fun _ => rfl, fun _ => rfl, id, fun _ => id, fun _ _ => rfl⟩

theorem Left.trans {t : Tid} {x x' x'' : World × Past} (h : Left t x x') (h' : Left t x' x'') :
    Left t x x'' where
  paused ht := (h'.paused ht).trans (h.paused ht)
  failed ht := (h'.failed ht).trans (h.failed ht)
  started := h'.started ∘ h.started
  early ht := h'.early ht ∘ h.early ht
  starts n ht := (h'.starts n ht).trans (h.starts n ht)

/-- A recovery is needed when one was reported, and the snapshots are not paused before
`streamCheckWorker` is started. -/
structure Sound (x : World × Past) : Prop where
  needed : x.1.flag .cameraRecoveryNeeded = x.2.reported
  early : Early x → x.1.flag .snapshotsPaused_ = false

theorem early_of_after {t : Tid} {c : SysCall} {r : c.Reply} {x : World × Past}
    (h : (x.1.after t c r).threads.started .check = false) : Early x := by
  refine Bool.eq_false_iff.mpr fun hs => ?_
  exact Bool.noConfusion (h.symm.trans (World.started_mono hs))

variable {legacy : Bool}

theorem sound_after {t : Tid} {c : SysCall} {r : c.Reply} {x : World × Past} (hi : Sound x)
    (ha : Allowed t c x) : Sound (x.1.after t c r, see legacy x.1 (.act t c r) x.2) where
  needed := by
    by_cases hw : writes .cameraRecoveryNeeded c = true
    -- taken up: neither needed nor reported; reported: both
    · rcases ha.request hw with ⟨rfl, rfl⟩ | ⟨n, rfl, rfl, hfailed⟩
      · show Function.update x.1.flag .cameraRecoveryNeeded false .cameraRecoveryNeeded = _
        rw [Function.update_self]
        simp [see]
      · show Function.update x.1.flag .cameraRecoveryNeeded true .cameraRecoveryNeeded = _
        rw [Function.update_self]
        simp [see, hfailed]
    · have hw := Bool.eq_false_iff.mpr hw
      have hexchange : c ≠ .exchange .cameraRecoveryNeeded false := by
        rintro rfl
        cases hw
      rw [flag_after hw, hi.needed]
      cases t with
      | check => simp [see, hexchange]
      | hls n =>
        -- a failed start would be reported with this very call
        have hgone : x.2.starts.failed n = false := by
          apply Bool.eq_false_iff.mpr
          intro hfailed
          rw [ha.report n rfl hfailed] at hw
          cases hw
        simp [see, hgone]
      | _ => rfl
  early he := by
    have hearly := early_of_after he
    by_cases hw : writes .snapshotsPaused_ c = true
    · rcases ha.pause hw with rfl | ⟨-, rfl, -⟩
      · refine absurd hearly (ha.begun rfl ?_)
        rintro rfl
        cases hw
      · show Function.update x.1.flag .snapshotsPaused_ false .snapshotsPaused_ = false
        rw [Function.update_self]
    · rw [flag_after (Bool.eq_false_iff.mpr hw)]
      exact hi.early hearly

theorem left_after {t u : Tid} {c : SysCall} {r : c.Reply} {x : World × Past} (hne : t ≠ u)
    (hi : Sound x) (ha : Allowed u c x) :
    Left t x (x.1.after u c r, see legacy x.1 (.act u c r) x.2) where
  paused ht := by
    by_cases hw : writes .snapshotsPaused_ c = true
    · rcases ha.pause hw with rfl | ⟨-, rfl, hearly⟩
      · exact absurd ht hne
      -- nothing changes: the snapshots are not paused
      · show Function.update x.1.flag .snapshotsPaused_ false .snapshotsPaused_ = _
        rw [Function.update_self, hi.early hearly]
    · exact flag_after (Bool.eq_false_iff.mpr hw)
  failed ht := by
    subst ht
    cases u <;> first | rfl | exact absurd rfl hne
  started := World.started_mono
  early ht h := by
    refine not_started_after (fun worker hc => hne ?_) h
    rw [ht, ha.spawn worker hc]
  starts n ht := by
    rw [starts_see]
    exact Starts.after_of_ne fun hu => hne (ht.trans hu.symm)

def contract (legacy : Bool) : Contract (system.watched (see legacy)) anyStep where
  inv := Sound
  pre := Allowed
  rely := Left
  rely_refl := Left.refl
  rely_trans := Left.trans
  inv_act hi ha _ hact := by
    rcases watched_system_act.mp hact with ⟨-, rfl⟩
    exact sound_after hi ha
  inv_env hi _ henv := by
    rcases watched_env.mp henv with ⟨w, hsys, rfl⟩
    cases hsys
    exact ⟨hi.needed, hi.early⟩
  rely_act hne hi ha _ hact := by
    rcases watched_system_act.mp hact with ⟨-, rfl⟩
    exact left_after hne hi ha
  rely_env _ _ henv := by
    rcases watched_env.mp henv with ⟨w, hsys, rfl⟩
    cases hsys
    exact ⟨fun _ => rfl, fun _ => rfl, id, fun _ => id, fun _ _ => rfl⟩

/-! ## Code that has nothing to do with the repair -/

def spawnsWorker : SysCall → Bool
  | .spawnWorker _ => true
  | _ => false

/-- The calls that every thread may make. -/
structure Plain (c : SysCall) : Prop where
  pause : writes .snapshotsPaused_ c = false
  request : writes .cameraRecoveryNeeded c = false
  spawn : spawnsWorker c = false

theorem Plain.ne_spawnWorker {c : SysCall} (h : Plain c) (worker : WorkerThread) :
    c ≠ .spawnWorker worker := by
  rintro rfl
  cases h.spawn

/-- The calls that are not plain. -/
def loud : List SysCall :=
  [.store .snapshotsPaused_ true, .store .snapshotsPaused_ false, .exchange .snapshotsPaused_ true,
    .exchange .snapshotsPaused_ false, .store .cameraRecoveryNeeded true,
    .store .cameraRecoveryNeeded false, .exchange .cameraRecoveryNeeded true,
    .exchange .cameraRecoveryNeeded false, .spawnWorker .snapshotThread,
    .spawnWorker .checkStreamThread, .spawnWorker .monitorThread]

theorem plain_of_not_loud {c : SysCall} (hc : c ∉ loud) : Plain c := by
  cases c with
  | store f value =>
    refine ⟨decide_eq_false ?_, decide_eq_false ?_, rfl⟩ <;> rintro rfl <;> cases value <;>
      exact hc (by decide)
  | exchange f value =>
    refine ⟨decide_eq_false ?_, decide_eq_false ?_, rfl⟩ <;> rintro rfl <;> cases value <;>
      exact hc (by decide)
  | spawnWorker worker => cases worker <;> exact absurd (by decide) hc
  | _ => exact ⟨rfl, rfl, rfl⟩

/-- A kind of calls without these. -/
theorem plain_of {calls : SysCall → Bool} (h : ∀ c ∈ loud, calls c = false) {c : SysCall}
    (hc : calls c = true) : Plain c := plain_of_not_loud (not_mem_of h c hc)

theorem plain_of_modeCall {c : SysCall} : modeCall c = true → Plain c := plain_of (by decide)

theorem plain_of_acquireCall {c : SysCall} : acquireCall c = true → Plain c := plain_of (by decide)

theorem plain_of_workerCall {c : SysCall} : App.workerCall c = true → Plain c :=
  plain_of (by decide)

theorem plain_of_completionCall {c : SysCall} : completionCall c = true → Plain c :=
  plain_of (by decide)

theorem plain_of_gstCall {c : SysCall} : gstCall c = true → Plain c := plain_of (by decide)

theorem allowed_of_plain {t : Tid} {c : SysCall} {x : World × Past} (ht : t ≠ .check)
    (hstarts : ∀ n, t = .hls n → x.2.starts.failed n = false) (h : Plain c) : Allowed t c x where
  pause hw := Bool.noConfusion (h.pause.symm.trans hw)
  request hw := Bool.noConfusion (h.request.symm.trans hw)
  report n hn hfailed := Bool.noConfusion ((hstarts n hn).symm.trans hfailed)
  begun he := absurd he ht
  spawn worker hc := absurd hc (h.ne_spawnWorker worker)

theorem wp_plain {α : Type} {t : Tid} {p : Prog Sys α} {x : World × Past} (ht : t ≠ .check)
    (hhls : ∀ n, t ≠ .hls n) (hp : p.Built Plain Prog.noParts) :
    (contract legacy).wp t p (fun _ _ => True) (fun _ => True) x :=
  wp_of_built hp fun _ hc _ _ => allowed_of_plain ht (fun n hn => absurd hn (hhls n)) hc

theorem plain_body {t : Tid} (hmain : t ≠ .main) (hcheck : t ≠ .check) (hhls : ∀ n, t ≠ .hls n)
    (hcaller : ∀ n, t ≠ .caller n) (pc : t.Pc) :
    ((code legacy).body t pc).Built Plain Prog.noParts := by
  have hM : ∀ c, modeCall c = true → Plain c := fun _ => plain_of_modeCall
  have hW : ∀ c, App.workerCall c = true → Plain c := fun _ => plain_of_workerCall
  have hT : ∀ c, threadCall t c = true → Plain c := by
    intro c h
    cases c with
    | spawnWorker worker => exact absurd (of_decide_eq_true h) hmain
    | store f value =>
      rw [store_of_threadCall h]
      exact ⟨rfl, rfl, rfl⟩
    | exchange f value =>
      rw [exchange_of_threadCall h]
      exact ⟨rfl, rfl, rfl⟩
    | _ => exact ⟨rfl, rfl, rfl⟩
  exact built_appBody hW hT (fun ht => absurd ht hmain) (fun _ => built_photo hM)
    (fun ht => absurd ht hcheck) (fun n hn => absurd hn (hhls n))
    (fun _ _ => plain_of_completionCall) (fun _ _ _ => plain_of_gstCall) hcaller pc

/-! ## streamHlsWorker -/

theorem observed (n : Nat) :
    Starts.Observed (contract legacy) legacy (fun x => x.2.starts) n Plain where
  rely _ _ hr _ := hr.starts n rfl
  act {t c r x x'} hact := by
    obtain ⟨-, rfl⟩ := watched_system_act.mp hact
    exact starts_see x.1
  pre c x hc _ hfailed := by
    refine allowed_of_plain nofun (fun m hm => ?_) hc
    cases hm
    exact hfailed
  report x _ hfailed :=
    ⟨nofun, fun _ => .inr ⟨n, rfl, rfl, hfailed⟩, nofun, nofun, fun _ _ _ => rfl⟩

theorem wp_hlsBody {n : Nat} {pc : LoopPc} {x : World × Past} (h : x.2.starts.Apart n) :
    (contract legacy).wp (.hls n) (hlsBody legacy pc) (fun _ x => x.2.starts.Apart n)
      (fun _ => True) x :=
  Starts.wp_hlsBody (observed n) (fun _ => plain_of_modeCall) (fun _ => plain_of_workerCall)
    ⟨rfl, rfl, rfl⟩ ⟨rfl, rfl, rfl⟩ ⟨rfl, rfl, rfl⟩ ⟨rfl, rfl, rfl⟩ ⟨rfl, rfl, rfl⟩ h

/-! ## streamCheckWorker -/

/-- The calls whose answer can decide an attempt. -/
def decides : SysCall → Bool
  | .makeCameraManager | .managerStart | .managerCameras | .acquire => true
  | _ => false

theorem refusal_of_not_decides {c : SysCall} (hc : decides c = false) (r : c.Reply) :
    refusal c r = none := by
  cases c <;> first | rfl | cases hc

/-- `streamCheckWorker` runs, and `A` is true of whether the snapshots are paused and whether the
last attempt was refused. -/
structure Known (A : Bool → Bool → Prop) (x : World × Past) : Prop where
  started : x.1.threads.started .check = true
  known : A (x.1.flag .snapshotsPaused_) x.2.failed

/-- The calls of `streamCheckWorker`, apart from those that pause the snapshots. -/
def Serves (c : SysCall) : Prop := Plain c ∨ c = .exchange .cameraRecoveryNeeded false

section

variable {A : Bool → Bool → Prop} {x : World × Past}

theorem known_rely (x x' : World × Past) (hr : (contract legacy).rely .check x x')
    (_ : (contract legacy).inv x') (h : Known A x) : Known A x' := by
  refine ⟨hr.started h.started, ?_⟩
  rw [hr.paused rfl, hr.failed rfl]
  exact h.known

theorem allowed_of_known {c : SysCall} (h : Known A x) (hc : Serves c) : Allowed .check c x := by
  refine ⟨fun _ => .inl rfl, fun hw => ?_, fun _ _ he => ?_, fun worker hs => ?_, fun _ => nofun⟩
  · rcases hc with hc | rfl
    · exact Bool.noConfusion (hc.request.symm.trans hw)
    · exact .inl ⟨rfl, rfl⟩
  · exact Bool.noConfusion (h.started.symm.trans he)
  · rcases hc with hc | rfl
    · exact absurd hs (hc.ne_spawnWorker worker)
    · cases hs

theorem pause_of_serves {c : SysCall} (hc : Serves c) : writes .snapshotsPaused_ c = false := by
  rcases hc with hc | rfl
  · exact hc.pause
  · rfl

/-- After a call, the last attempt is as libcamera's answer says, or as it was. -/
theorem known_after {c : SysCall} {r : c.Reply} (hc : Serves c) (h : Known A x) :
    Known (fun paused failed => ∃ before, A paused before ∧ failed = (refusal c r).getD before)
      (x.1.after .check c r, see legacy x.1 (.act .check c r) x.2) where
  started := World.started_mono h.started
  known := ⟨x.2.failed, by rw [flag_after (pause_of_serves hc)]; exact h.known, rfl⟩

/-- Code that decides nothing. -/
theorem keeps_known {α : Type} {X : ∀ α : Type, Prog Sys α → Prop} {p : Prog Sys α}
    (hX : ∀ α p, X α p → (contract legacy).Keeps .check (Known A) p)
    (hp : p.Built (fun c => Serves c ∧ decides c = false) X) :
    (contract legacy).Keeps .check (Known A) p := by
  refine keeps_of_built known_rely (fun c hc x _ h => ?_) hX hp
  refine ⟨allowed_of_known h hc.1, fun r x' _ hact => ?_⟩
  rcases watched_system_act.mp hact with ⟨-, rfl⟩
  rcases known_after (r := r) hc.1 h with ⟨hstarted, before, hknown, hfailed⟩
  rw [refusal_of_not_decides hc.2] at hfailed
  exact ⟨hstarted, hfailed ▸ hknown⟩

/-- Code that decides nothing and throws nothing, in front of the rest. -/
theorem wp_known {α β : Type} {p : Prog Sys α} {f : α → Prog Sys β} {Q : β → World × Past → Prop}
    {X : World × Past → Prop} (hn : p.NoThrow)
    (hp : p.Built (fun c => Serves c ∧ decides c = false) Prog.noParts) (h : Known A x)
    (hf : ∀ a y, Known A y → (contract legacy).wp .check (f a) Q X y) :
    (contract legacy).wp .check (p >>= f) Q X x :=
  wp_bind_of (wp_of_returns hn (keeps_known (fun _ _ h => h.elim) hp x h))
    fun a y _ h => hf a y h.2

/-- A call whose answer may decide the attempt. -/
theorem wp_answer {β : Type} {c : SysCall} {f : c.Reply → Prog Sys β} {Q : β → World × Past → Prop}
    {X : World × Past → Prop} (hc : Plain c) (h : Known A x)
    (hf : ∀ r y, Known (fun _ failed => ∀ b, refusal c r = some b → failed = b) y →
      (contract legacy).wp .check (f r) Q X y) :
    (contract legacy).wp .check (sys c >>= f) Q X x := by
  refine wp_call_of known_rely h fun x _ h => ⟨allowed_of_known h (.inl hc), fun r x' _ hact => ?_⟩
  rcases watched_system_act.mp hact with ⟨-, rfl⟩
  rcases known_after (r := r) (.inl hc) h with ⟨hstarted, before, -, hfailed⟩
  refine hf r _ ⟨hstarted, fun b hb => ?_⟩
  rw [hfailed, hb]
  rfl

/-- The attempt is refused. -/
def Refused (x : World × Past) : Prop := Known (fun _ failed => failed = true) x

theorem wp_refused {β : Type} {Q : β → World × Past → Prop} (h : Refused x) :
    (contract legacy).wp .check (.throw : Prog Sys β) Q Refused x :=
  fun v hr hi => known_rely x v hr hi h

theorem serves_of_acquireCall {c : SysCall} (h : acquireCall c = true) (hd : decides c = false) :
    (sys c).Built (fun c => Serves c ∧ decides c = false) Prog.noParts :=
  .call ⟨.inl (plain_of_acquireCall h), hd⟩

/-- An attempt is refused unless the camera has been acquired. -/
theorem wp_acquireCamera (h : Known A x) :
    (contract legacy).wp .check acquireCamera (fun ok => Known fun _ failed => failed = !ok)
      Refused x := by
  refine wp_answer (plain_of_acquireCall rfl) h fun made x h => ?_
  cases made with
  | failed => exact wp_refused ⟨h.started, h.known true rfl⟩
  | threw => exact wp_refused ⟨h.started, h.known true rfl⟩
  | ok =>
  refine wp_known (p := sys (.assign .cameraManager_ true)) (.call _)
    (serves_of_acquireCall rfl rfl) h fun _ x h => ?_
  refine wp_answer (plain_of_acquireCall rfl) h fun started x h => ?_
  -- `start()` may throw, which refuses the attempt
  refine wp_bind_of (Q := fun _ => Known fun _ failed =>
    ∀ b, refusal .managerStart started = some b → failed = b) ?_ fun _ x _ h => ?_
  · cases started with
    | ok => exact fun v hr hi => known_rely x v hr hi h
    | failed => exact fun v hr hi => known_rely x v hr hi h
    | threw => exact wp_refused ⟨h.started, h.known true rfl⟩
  refine wp_answer (plain_of_acquireCall rfl) h fun cameras x h => ?_
  rcases cameras with _ | (_ | cameras)
  · exact wp_refused ⟨h.started, h.known true rfl⟩
  · exact fun v hr hi => known_rely x v hr hi ⟨h.started, h.known true rfl⟩
  · refine wp_known (.call _) (serves_of_acquireCall rfl rfl) h fun _ x h => ?_
    refine wp_answer (plain_of_acquireCall rfl) h fun acquired x h => ?_
    cases acquired with
    | ok => exact fun v hr hi => known_rely x v hr hi ⟨h.started, h.known false rfl⟩
    | failed => exact fun v hr hi => known_rely x v hr hi ⟨h.started, h.known true rfl⟩
    | threw => exact wp_refused ⟨h.started, h.known true rfl⟩

/-- The snapshots are paused as the last attempt was refused. -/
def Settled (x : World × Past) : Prop := Known (· = ·) x

/-- The end of an attempt. -/
theorem wp_pause {b result : Bool} {X : World × Past → Prop}
    (h : Known (fun _ failed => failed = b) x) :
    (contract legacy).wp .check (sys (.store .snapshotsPaused_ b) >>= fun _ => .ret result)
      (fun _ => Settled) X x := by
  refine wp_call_of known_rely h fun x _ h => ⟨?_, fun r x' _ hact => ?_⟩
  · exact ⟨fun _ => .inl rfl, nofun, fun _ _ he => Bool.noConfusion (h.started.symm.trans he), nofun,
      fun _ => nofun⟩
  · rcases watched_system_act.mp hact with ⟨-, rfl⟩
    refine fun v hr hi => known_rely _ v hr hi ⟨h.started, ?_⟩
    show Function.update x.1.flag .snapshotsPaused_ b .snapshotsPaused_ = x.2.failed
    rw [Function.update_self, h.known]

/-- An attempt pauses the snapshots exactly when it is refused. -/
theorem keeps_reinitializeCamera :
    (contract legacy).Keeps .check Settled (reinitializeCamera legacy) := by
  have hM : ∀ c, modeCall c = true → Serves c ∧ decides c = false := by
    intro c h
    refine ⟨.inl (plain_of_modeCall h), ?_⟩
    cases c <;> first | rfl | cases h
  have hA : ∀ c, acquireCall c = true → decides c = false → Serves c ∧ decides c = false :=
    fun _ h hd => ⟨.inl (plain_of_acquireCall h), hd⟩
  have hS : ∀ c, stopCall c = true → Serves c ∧ decides c = false :=
    fun c h => teardown_of_modeCall hM c (teardownCall_of_stopCall h)
  have hkeeps : ∀ {α : Type} {p : Prog Sys α},
      p.Built (fun c => Serves c ∧ decides c = false) Prog.noParts →
        (contract legacy).Keeps .check Settled p := fun hp => keeps_known (fun _ _ h => h.elim) hp
  intro x h
  refine wp_bind_of (hkeeps (.call (hM _ rfl)) x h) fun _ x _ h => wp_ensuring_of ?_
  have hunlock := hkeeps (.call (hM (.unlock .cameraOpsMutex_) rfl))
  refine wp_mono (Q := fun _ => Settled) (X := Settled) ?_ (fun _ x _ h => hunlock x h)
    fun x _ h => hunlock x h
  refine wp_bind_of (hkeeps (.call (hM _ rfl)) x h) fun on x _ h => ?_
  refine wp_bind_of (hkeeps (.when on (built_stopVideoModeUnlocked (teardown_of_modeCall hM)
    (built_shutdown hM))) x h) fun _ x _ h => ?_
  -- only an exception of the attempt itself comes to the handler: the camera is refused
  refine wp_tryCatch.mpr (wp_mono (X := Refused) ?_ (fun _ _ _ h => h) fun x _ h => wp_pause h)
  have hrelease : (releaseCamera legacy).Built (fun c => Serves c ∧ decides c = false)
      Prog.noParts :=
    .bind (.call (hA _ rfl rfl)) fun _ => .bind
      (.when _ <| .bind (built_stopCameraIfRunning hS) fun _ =>
        .bind (.call (hA _ rfl rfl)) fun _ => .call (hA _ rfl rfl))
      fun _ => .bind (.call (hA _ rfl rfl)) fun _ =>
        .when _ (.bind (.call (hA _ rfl rfl)) fun _ => .call (hA _ rfl rfl))
  refine wp_known noThrow_releaseCamera hrelease h fun _ x h => ?_
  refine wp_known (noThrow_lockGuard (.call _)) (built_resetAllocator (teardown_of_modeCall hM))
    h fun _ x h => ?_
  refine wp_known (noThrow_lockGuard noThrow_shutdownLocked) (built_shutdown hM) h fun _ x h => ?_
  refine wp_bind_of (wp_acquireCamera h) fun acquired x _ h => ?_
  cases acquired with
  | false => exact wp_pause h
  | true =>
    refine wp_known (.call _) (.call (hA _ rfl rfl)) h fun _ x h => ?_
    refine wp_known (.call _) (.call (hM _ rfl)) h fun _ x h => ?_
    refine wp_known (.call _) (.call (hM _ rfl)) h fun _ x h => ?_
    exact wp_pause h

/-- From one check to the next. -/
theorem keeps_checkLoop {m : StreamCheck.Memory} :
    (contract legacy).Keeps .check Settled (checkBody legacy (.loop m)) := by
  have hW : ∀ c, App.workerCall c = true → Serves c ∧ decides c = false := by
    intro c h
    refine ⟨.inl (plain_of_workerCall h), ?_⟩
    cases c <;> first | rfl | cases h
  have hplain : ∀ {c : SysCall}, Plain c → decides c = false → Serves c ∧ decides c = false :=
    fun hp hd => ⟨.inl hp, hd⟩
  have hjoin := hplain (c := .streamThreadJoin) ⟨rfl, rfl, rfl⟩ rfl
  refine keeps_known (X := Prog.onlyPart (reinitializeCamera legacy)) ?_ (built_checkBody legacy
    (hW _ rfl) (App.built_checkTurn hW (hplain ⟨rfl, rfl, rfl⟩ rfl) hjoin
      (hplain ⟨rfl, rfl, rfl⟩ rfl)
      (App.built_recoverCamera hW hjoin ⟨.inr rfl, rfl⟩ .self)
      (App.built_followDecision hW hjoin (hplain ⟨rfl, rfl, rfl⟩ rfl)
        (hplain ⟨rfl, rfl, rfl⟩ rfl))) (.loop m))
  rintro α p ⟨rfl, rfl⟩
  exact keeps_reinitializeCamera

/-- The first check is made with the snapshots not paused. -/
theorem wp_checkBegin (legacy : Bool) (h : x.1.flag .snapshotsPaused_ = x.2.failed) :
    (contract legacy).wp .check (checkBody legacy .begin)
      (fun next x => ∀ pc : CheckPc, next = some pc → Settled x) (fun _ => True) x := by
  refine wp_call_of (A := fun x => x.1.flag .snapshotsPaused_ = x.2.failed)
    (fun x x' hr _ h => (hr.paused rfl).trans (h.trans (hr.failed rfl).symm)) h
    fun x _ h => ⟨⟨nofun, nofun, fun _ hc => absurd rfl hc, nofun, fun _ => nofun⟩,
      fun r x' _ hact => ?_⟩
  rcases watched_system_act.mp hact with ⟨hanswer, rfl⟩
  have hstarted : x.1.threads.started .check = true := World.threads_of_answers hanswer
  exact fun v hr hi _ _ => known_rely _ v hr hi ⟨hstarted, h⟩

end

/-! ## main -/

section

variable {x : World × Past}

theorem early_rely (x x' : World × Past) (hr : (contract legacy).rely .main x x')
    (_ : (contract legacy).inv x') (h : Early x) : Early x' := hr.early rfl h

/-- The calls of `main` before it starts the workers. -/
def Initial (c : SysCall) : Prop := Plain c ∨ c = .store .snapshotsPaused_ false

theorem keeps_early {α : Type} {p : Prog Sys α} (hp : p.Built Initial Prog.noParts) :
    (contract legacy).Keeps .main Early p := by
  refine keeps_of_built early_rely (fun c hc x _ h => ?_) (fun _ _ h => h.elim) hp
  have hspawn : ∀ worker, c ≠ .spawnWorker worker := by
    rcases hc with hc | rfl
    · exact hc.ne_spawnWorker
    · exact fun _ => nofun
  refine ⟨?_, fun r x' _ hact => ?_⟩
  · refine ⟨fun hw => ?_, fun hw => ?_, nofun, fun worker he => absurd he (hspawn worker), fun _ =>
      nofun⟩
    · rcases hc with hc | rfl
      · exact Bool.noConfusion (hc.pause.symm.trans hw)
      · exact .inr ⟨rfl, rfl, h⟩
    · rcases hc with hc | rfl
      · exact Bool.noConfusion (hc.request.symm.trans hw)
      · cases hw
  · rcases watched_system_act.mp hact with ⟨-, rfl⟩
    exact not_started_after hspawn h

/-- Code of `main` before the workers are started, in front of the rest. -/
theorem wp_early {α β : Type} {p : Prog Sys α} {f : α → Prog Sys β} {Q : β → World × Past → Prop}
    (hp : p.Built Initial Prog.noParts) (h : Early x)
    (hf : ∀ a x, Early x → (contract legacy).wp .main (f a) Q (fun _ => True) x) :
    (contract legacy).wp .main (p >>= f) Q (fun _ => True) x :=
  (keeps_early hp).wp_bind (fun _ _ => trivial) h hf

theorem wp_spawnWorker {worker : WorkerThread} :
    (contract legacy).wp .main (sys (.spawnWorker worker)) (fun _ _ => True) (fun _ => True) x :=
  fun _ _ _ => ⟨⟨nofun, nofun, nofun, fun _ _ => rfl, fun _ => nofun⟩,
    fun _ _ _ _ _ _ _ => trivial⟩

/-- `main` goes round its first loop only with the workers not started. -/
theorem wp_mainInitTurn {retryDelay : Nat} (h : Early x) :
    (contract legacy).wp .main (App.mainInitTurn legacy retryDelay)
      (fun next x => next = none → Early x) (fun _ => True) x := by
  have hA : ∀ c, acquireCall c = true → Initial c := fun _ h => .inl (plain_of_acquireCall h)
  have hstart : ∀ x, Early x → (contract legacy).wp .main
      (do
        if !(← sys (.load .keepRunning)) then
          CameraManager.destroy legacy
          sys .threadEnd
          return some false
        sys (.spawnWorker .snapshotThread)
        sys (.spawnWorker .checkStreamThread)
        sys (.spawnWorker .monitorThread)
        return some true)
      (fun next x => next = none → Early x) (fun _ => True) x := by
    intro x h
    refine wp_early (.call (.inl ⟨rfl, rfl, rfl⟩)) h fun keepRunning x h => ?_
    cases keepRunning with
    | false =>
      refine wp_early (built_destroyed (fun _ h => .inl (plain_of_modeCall h)) hA) h fun _ x h => ?_
      refine wp_early (.call (.inl ⟨rfl, rfl, rfl⟩)) h fun _ x _ => ?_
      exact fun _ _ _ => nofun
    | true =>
      refine wp_bind_of wp_spawnWorker fun _ x _ _ => ?_
      refine wp_bind_of wp_spawnWorker fun _ x _ _ => ?_
      refine wp_bind_of wp_spawnWorker fun _ x _ _ => ?_
      exact fun _ _ _ => nofun
  refine wp_early (.call (.inl ⟨rfl, rfl, rfl⟩)) h fun keepRunning x h => ?_
  cases keepRunning with
  | false => exact hstart x h
  | true =>
  have hinit : initializeCamera.Built Initial Prog.noParts := built_initializeCamera hA
    (.inl (plain_of_modeCall rfl)) (.inl (plain_of_modeCall rfl)) (.inr rfl)
  refine wp_early (p := initializeCamera >>= fun ok => .ret !ok) (.bind hinit fun _ => .ret _)
    h fun retry x h => ?_
  cases retry with
  | false => exact hstart x h
  | true =>
    refine wp_early (.call (.inl ⟨rfl, rfl, rfl⟩)) h fun _ x h => ?_
    exact fun v hr hi _ => early_rely x v hr hi h

theorem wp_mainBody {pc : MainPc} (h : (∃ retryDelay, pc = .init retryDelay) → Early x) :
    (contract legacy).wp .main (mainBody legacy pc)
      (fun next x => ∀ pc : MainPc, next = some pc → (∃ retryDelay, pc = .init retryDelay) →
        Early x) (fun _ => True) x := by
  cases pc with
  | init retryDelay =>
    refine wp_bind_of (wp_mainInitTurn (h ⟨_, rfl⟩)) fun next x _ h => ?_
    rcases next with _ | (_ | _)
    · exact fun v hr hi _ _ _ => early_rely x v hr hi (h rfl)
    · intro v _ _ pc hnext
      cases hnext
    · rintro v _ _ _ ⟨⟩ ⟨_, ⟨⟩⟩
  | wait =>
    have hturn : (App.mainWaitTurn legacy).Built Plain Prog.noParts :=
      App.built_mainWaitTurn (fun _ => plain_of_workerCall) ⟨rfl, rfl, rfl⟩
        (built_destroyed (fun _ => plain_of_modeCall) fun _ => plain_of_acquireCall)
        ⟨rfl, rfl, rfl⟩ fun _ => ⟨rfl, rfl, rfl⟩
    refine wp_bind_of (wp_plain (by simp) (by simp) hturn) fun more x _ _ => ?_
    cases more with
    | false =>
      intro v _ _ pc hnext
      cases hnext
    | true => rintro v _ _ _ ⟨⟩ ⟨_, ⟨⟩⟩

end

/-- What holds at the loop heads. -/
def holds : (t : Tid) → t.Pc → World × Past → Prop
  | .main, pc, x => (∃ retryDelay, pc = .init retryDelay) → Early x
  | .check, .begin, x => x.1.flag .snapshotsPaused_ = x.2.failed
  | .check, .loop _, x => Settled x
  | .hls n, _, x => x.2.starts.Apart n
  | .caller _, _, _ => False
  | _, _, _ => True

theorem holds_of_settled {pc : CheckPc} {x : World × Past} (h : Settled x) : holds .check pc x := by
  cases pc with
  | begin => exact h.known
  | loop m => exact h

def proof (legacy : Bool) : (contract legacy).Proof (code legacy) where
  holds := holds
  body t pc x _ h := by
    have hbody : t ≠ .main → t ≠ .check → (∀ n, t ≠ .hls n) → (∀ n, t ≠ .caller n) →
        (contract legacy).wp t ((code legacy).body t pc) (fun _ _ => True) (fun _ => True) x :=
      fun hmain hcheck hhls hcaller =>
        wp_plain hcheck hhls (plain_body hmain hcheck hhls hcaller pc)
    cases t with
    | main => exact wp_mainBody h
    | check =>
      cases pc with
      | begin =>
        exact wp_mono (wp_checkBegin legacy h)
          (fun _ _ _ h pc hpc => holds_of_settled (h pc hpc)) fun _ _ h => h
      | loop m =>
        exact wp_mono (keeps_checkLoop x h) (fun _ _ _ h _ _ => holds_of_settled h)
          fun _ _ _ => trivial
    | hls n =>
      exact wp_mono (wp_hlsBody h) (fun _ _ _ h _ _ => h) fun _ _ _ => trivial
    | caller n => exact h.elim
    | _ =>
      exact wp_mono (hbody nofun nofun (fun _ => nofun) fun _ => nofun)
        (fun _ _ _ _ _ _ => trivial) fun _ _ h => h

/-- At the start nothing has happened. -/
def start : World × Past := (.init, ⟨false, false, fun _ => none⟩)

theorem valid_start (legacy : Bool) :
    (proof legacy).Valid ⟨start, (appStart legacy).prog⟩ := by
  apply valid_appStart
  · exact ⟨rfl, fun _ => rfl⟩
  · exact fun x hr _ _ => hr.early rfl rfl
  · exact fun _ _ _ => trivial
  · exact fun x hr _ => (hr.paused rfl).trans (hr.failed rfl).symm
  · exact fun _ _ _ => trivial
  · exact fun n _ hr _ => .inl (hr.starts n rfl)
  · exact fun _ _ _ => trivial
  · exact fun _ _ _ _ => trivial

end Recovery

/-- In every run, whenever a check begins: a recovery is pending if the snapshots are paused,
exactly when the last attempt was not refused, or an HLS worker has gone on from a failed start
since the last request was taken up. -/
theorem App.recovery_pending {legacy : Bool} {cfg : Config (code legacy) (World × Recovery.Past)}
    (hrun : Run (system.watched (Recovery.see legacy)) anyStep
      ⟨Recovery.start, (appStart legacy).prog⟩ cfg)
    {m : StreamCheck.Memory} (hcheck : cfg.reached .check = some (.loop m)) :
    (cfg.world.1.flag .snapshotsPaused_ = true → cfg.world.1.flag .cameraRecoveryNeeded = true) ↔
      (cfg.world.2.failed = true → cfg.world.2.reported = true) := by
  have hvalid := (Recovery.proof legacy).sound (Recovery.valid_start legacy) hrun
  have hsettled : Recovery.Settled cfg.world := hvalid.holds hcheck
  rw [hsettled.known, hvalid.inv.needed]

instance (legacy : Bool) : DecidableEq ((code legacy).Pc .check) :=
  inferInstanceAs (DecidableEq CheckPc)

/-- The replies of a camera that has come to be refused, when the stream is not requested any
more. -/
def Recovery.refuses (w : World) : (c : SysCall) → Option c.Reply
  | .configure _ | .acquire => some .failed
  | .isStreamingRequested => some (some (some false))
  | c => w.willing .takePicture c

/-- A session does not start, and the recovery that it asks for is refused. -/
def Recovery.refusedAttempt {W : Type} (world : W → World) : List (Choice Sys Tid W Signal) :=
  runsWith (fun w => (world w).willing .takePicture) .main 18 ++
    runsWith (fun w => (world w).willing .takePicture) .check 15 ++
      runsWith (fun w => refuses (world w)) (.hls 0) 14 ++
        runsWith (fun w => refuses (world w)) .check 41

theorem App.recovery_pending_refused :
    ∃ cfg : Config (code false) (World × Recovery.Past),
      (cfg.world.2.failed = true ∧ cfg.world.2.reported = false) ∧
        cfg.reached .check = some (.loop {}) ∧
          ((cfg.world.1.flag .snapshotsPaused_ = true →
              cfg.world.1.flag .cameraRecoveryNeeded = true) ↔
            (cfg.world.2.failed = true → cfg.world.2.reported = true)) := by
  obtain ⟨cfg, hrun, htest⟩ := exec_reaches (system.watched (Recovery.see false))
    (fun _ _ => true) ⟨Recovery.start, (appStart false).prog⟩ (Recovery.refusedAttempt Prod.fst)
    (fun cfg => (cfg.world.2.failed = true ∧ cfg.world.2.reported = false) ∧
      cfg.reached .check = some (.loop {}))
    (by decide +kernel)
  rcases of_decide_eq_true htest with ⟨hpast, hcheck⟩
  exact ⟨cfg, hpast, hcheck, App.recovery_pending (hrun.mono fun _ _ _ => trivial) hcheck⟩

/-- A check begins with the snapshots paused and no recovery pending. -/
theorem App.paused_without_recovery :
    ∃ cfg : Config (code false) World, Run system anyStep (appStart false) cfg ∧
      cfg.reached .check = some (.loop {}) ∧ cfg.world.flag .keepRunning = true ∧
        cfg.world.flag .snapshotsPaused_ = true ∧
          cfg.world.flag .cameraRecoveryNeeded = false := by
  obtain ⟨cfg, hrun, htest⟩ := exec_reaches system (fun _ _ => true) (appStart false)
    (Recovery.refusedAttempt id)
    (fun cfg => cfg.reached .check = some (.loop {}) ∧ cfg.world.flag .keepRunning = true ∧
      cfg.world.flag .snapshotsPaused_ = true ∧ cfg.world.flag .cameraRecoveryNeeded = false)
    (by decide +kernel)
  exact ⟨cfg, hrun.mono fun _ _ _ => trivial, of_decide_eq_true htest⟩

end SurfCam

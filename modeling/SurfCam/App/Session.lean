import SurfCam.App.Lifecycle

/-!
# A session and its video mode

While its HLS worker lives, video mode belongs to that worker, apart from `takePicture`, which turns
it off whenever it finds it on.
-/

namespace SurfCam

open Interaction CameraManager Contract Lifecycle

namespace Session

/-- The snapshot does not find video mode on. -/
def undisturbed (_ : World) : Label Sys Tid Signal → Bool
  | .act .snapshot (.load .isVideoMode_) on => !on
  | _ => true

/-- Video mode is on, and there is a pipeline. -/
def Video (w : World) : Prop := w.flag .isVideoMode_ = true ∧ w.ptr .pipeline_ = true

theorem video_after {t : Tid} {c : SysCall} {r : c.Reply} {w : World} (hc : touches c = false) :
    (w.after t c r).flag .isVideoMode_ = w.flag .isVideoMode_ ∧
      (w.after t c r).ptr .pipeline_ = w.ptr .pipeline_ := by
  cases c with
  | store f value =>
    exact ⟨Function.update_of_ne (Ne.symm (of_decide_eq_false hc)) .., rfl⟩
  | exchange f value =>
    exact ⟨Function.update_of_ne (Ne.symm (of_decide_eq_false hc)) .., rfl⟩
  | assign p value =>
    exact ⟨rfl, Function.update_of_ne (Ne.symm (of_decide_eq_false hc)) ..⟩
  | _ => exact ⟨rfl, rfl⟩

/-- What a worker that is alive counts on. -/
structure Kept (n : Nat) (w w' : World) : Prop where
  alive : Alive n w'
  flag : w'.flag .isVideoMode_ = w.flag .isVideoMode_
  ptr : w'.ptr .pipeline_ = w.ptr .pipeline_

/-- The steps of an undisturbed run, with what the lives of the workers say about its calls. -/
def ok (w : World) (l : Label Sys Tid Signal) : Prop :=
  undisturbed w l = true ∧ ∀ t c r, l = .act t c r → Allowed t c w

/-- Video mode is on in the upload loop, and the snapshot does not touch it. -/
def contract : Contract system ok where
  inv _ := True
  pre t c w :=
    (∀ n, t = .hls n → c = .pollAndUpload false → Video w) ∧ (t = .snapshot → touches c = false)
  rely t w w' := ∀ n, t = .hls n → Alive n w → Kept n w w'
  rely_refl _ _ _ _ ha := ⟨ha, rfl, rfl⟩
  rely_trans h h' n hn ha := by
    have hk := h n hn ha
    have hk' := h' n hn hk.alive
    exact ⟨hk'.alive, hk'.flag.trans hk.flag, hk'.ptr.trans hk.ptr⟩
  inv_act _ _ _ _ := trivial
  inv_env _ _ _ := trivial
  rely_act {t u c r w w'} hne _ hpre hok hact n hn ha := by
    rcases system_act.mp hact with ⟨-, rfl⟩
    have htouch : touches c = false := by
      refine Bool.eq_false_iff.mpr fun hon => ?_
      -- the snapshot finds video mode off, and nobody else touches it while a worker is alive
      by_cases hu : u = .snapshot
      · exact Bool.noConfusion ((hpre.2 hu).symm.trans hon)
      · exact (hok.2 u c r rfl).touch hon hu n (fun he => hne (hn.trans he.symm)) ha
    refine ⟨⟨World.started_mono ha.1, ?_⟩, (video_after htouch).1, (video_after htouch).2⟩
    exact (World.finished_after fun _ he => hne (hn.trans he.symm)).trans ha.2
  rely_env _ _ henv _ _ ha := by
    cases henv
    exact ⟨ha, rfl, rfl⟩

/-! ## streamHlsWorker -/

/-- The calls that a live HLS worker makes on its way through an operation. -/
def Inside (c : SysCall) : Prop := c ≠ .threadEnd ∧ c ≠ .pollAndUpload false

/-- Those of them that do not forget the pipeline. -/
def Holding (c : SysCall) : Prop := Inside c ∧ c ≠ .assign .pipeline_ false

/-- The worker is alive, and there is a pipeline. -/
def Piped (n : Nat) (w : World) : Prop := Alive n w ∧ w.ptr .pipeline_ = true

/-- The worker is alive, and video mode is on. -/
def Live (n : Nat) (w : World) : Prop := Alive n w ∧ Video w

/-- The worker is alive after an operation, and with its success there is `A`. -/
def Yields (n : Nat) (A : World → Prop) (result : Bool) (w : World) : Prop :=
  Alive n w ∧ (result = true → A w)

section

variable {n : Nat}

theorem alive_rely (w w' : World) (hr : contract.rely (.hls n) w w') (_ : contract.inv w')
    (h : Alive n w) : Alive n w' := (hr n rfl h).alive

theorem piped_rely (w w' : World) (hr : contract.rely (.hls n) w w') (_ : contract.inv w')
    (h : Piped n w) : Piped n w' := ⟨(hr n rfl h.1).alive, (hr n rfl h.1).ptr.trans h.2⟩

theorem live_rely (w w' : World) (hr : contract.rely (.hls n) w w') (_ : contract.inv w')
    (h : Live n w) : Live n w' := by
  have hk := hr n rfl h.1
  exact ⟨hk.alive, hk.flag.trans h.2.1, hk.ptr.trans h.2.2⟩

theorem alive_after {c : SysCall} {r : c.Reply} {w : World} (he : c ≠ .threadEnd)
    (h : Alive n w) : Alive n (w.after (.hls n) c r) :=
  ⟨World.started_mono h.1, (World.finished_after fun hc => absurd hc he).trans h.2⟩

theorem pre_of_inside {c : SysCall} {w : World} (hc : Inside c) :
    contract.pre (.hls n) c w := ⟨fun _ _ he => absurd he hc.2, nofun⟩

theorem keeps_alive {α : Type} {p : Prog Sys α} (hp : p.Built Inside Prog.noParts) :
    contract.Keeps (.hls n) (Alive n) p := by
  refine keeps_of_built alive_rely (fun c hc w _ h => ?_) (fun _ _ h => h.elim) hp
  refine ⟨pre_of_inside hc, fun r w' _ hact => ?_⟩
  rcases system_act.mp hact with ⟨-, rfl⟩
  exact alive_after hc.1 h

theorem keeps_piped {α : Type} {p : Prog Sys α} (hp : p.Built Holding Prog.noParts) :
    contract.Keeps (.hls n) (Piped n) p := by
  refine keeps_of_built piped_rely (fun c hc w _ h => ?_) (fun _ _ h => h.elim) hp
  rcases hc with ⟨hc, hassign⟩
  refine ⟨pre_of_inside hc, fun r w' _ hact => ?_⟩
  rcases system_act.mp hact with ⟨-, rfl⟩
  refine ⟨alive_after hc.1 h.1, ?_⟩
  cases c with
  | assign p value =>
    show Function.update w.ptr p value .pipeline_ = true
    rw [Function.update_apply]
    split
    · rename_i he
      subst he
      cases value with
      | true => rfl
      | false => exact absurd rfl hassign
    · exact h.2
  | _ => exact h.2

/-- Code of the live worker in front of the rest. -/
theorem wp_alive {α β : Type} {p : Prog Sys α} {f : α → Prog Sys β} {Q : β → World → Prop}
    {w : World} (hp : p.Built Inside Prog.noParts) (h : Alive n w)
    (hf : ∀ a w, Alive n w → contract.wp (.hls n) (f a) Q (Alive n) w) :
    contract.wp (.hls n) (p >>= f) Q (Alive n) w :=
  wp_bind_of (keeps_alive hp w h) fun a w _ h => hf a w h

/-- The same with a pipeline. -/
theorem wp_piped {α β : Type} {p : Prog Sys α} {f : α → Prog Sys β} {Q : β → World → Prop}
    {w : World} (hp : p.Built Holding Prog.noParts) (h : Piped n w)
    (hf : ∀ a w, Piped n w → contract.wp (.hls n) (f a) Q (Alive n) w) :
    contract.wp (.hls n) (p >>= f) Q (Alive n) w :=
  (keeps_piped hp).wp_bind (fun _ h => h.1) h hf

/-- An exit that returns false. -/
theorem wp_exit {p : Prog Sys Bool} {A : World → Prop} {w : World}
    (hp : p.Built Inside Prog.noParts) (he : p.Ends (· = false)) (h : Alive n w) :
    contract.wp (.hls n) p (Yields n A) (Alive n) w := by
  refine wp_mono (wp_of_ends he (keeps_alive hp w h)) ?_ fun _ _ h => h
  rintro _ w _ ⟨rfl, h⟩
  exact ⟨h, nofun⟩

theorem wp_false {A : World → Prop} {w : World} (h : Alive n w) :
    contract.wp (.hls n) (.ret false) (Yields n A) (Alive n) w :=
  wp_exit (.ret false) rfl h

end

/-! ### The pipeline -/

/-- A set of calls without the two that are not made inside an operation. -/
theorem inside_of {calls : SysCall → Bool} (he : calls .threadEnd = false)
    (hp : calls (.pollAndUpload false) = false) {c : SysCall} (h : calls c = true) : Inside c := by
  constructor
  · rintro rfl
    exact Bool.noConfusion (he.symm.trans h)
  · rintro rfl
    exact Bool.noConfusion (hp.symm.trans h)

theorem inside_of_modeCall {c : SysCall} : modeCall c = true → Inside c := inside_of rfl rfl

theorem built_shutdown : shutdownGstreamerPipeline.Built Inside Prog.noParts :=
  CameraManager.built_shutdown fun _ => inside_of_modeCall

section

variable {n : Nat} {w : World}

/-- A call on the way to a pipeline. -/
theorem built_holding {c : SysCall} (h : modeCall c = true) (hc : c ≠ .assign .pipeline_ false) :
    (sys c).Built Holding Prog.noParts := .call ⟨inside_of_modeCall h, hc⟩

theorem wp_startPipeline (h : Piped n w) :
    contract.wp (.hls n) startPipeline (Yields n fun w => w.ptr .pipeline_ = true) (Alive n) w := by
  refine wp_piped (built_holding rfl nofun) h fun _ w h => ?_
  refine wp_piped (built_holding rfl nofun) h fun _ w h => ?_
  refine wp_piped (built_holding rfl nofun) h fun _ w h => ?_
  refine wp_piped (built_holding rfl nofun) h fun _ w h => ?_
  refine wp_piped (built_holding rfl nofun) h fun _ w h => ?_
  refine wp_piped (built_holding rfl nofun) h fun spawned w h => ?_
  refine wp_piped (built_orThrow spawned) h fun _ w h => ?_
  refine wp_piped (built_holding rfl nofun) h fun playing w h => ?_
  cases playing with
  | false => exact wp_exit (.bind built_shutdown fun _ => .ret _) (.bind _ fun _ => rfl) h.1
  | true =>
    refine wp_piped (.call ⟨⟨nofun, nofun⟩, nofun⟩) h fun _ w h => ?_
    exact fun v hr hi => ⟨(piped_rely w v hr hi h).1, fun _ => (piped_rely w v hr hi h).2⟩

theorem wp_linkAndStart {width height fps : Nat} (h : Piped n w) :
    contract.wp (.hls n) (linkAndStart width height fps)
      (Yields n fun w => w.ptr .pipeline_ = true) (Alive n) w := by
  refine wp_piped (built_holding rfl nofun) h fun _ w h => ?_
  refine wp_piped (built_holding rfl nofun) h fun linked w h => ?_
  cases linked with
  | false => exact wp_exit (.bind built_shutdown fun _ => .ret _) (.bind _ fun _ => rfl) h.1
  | true =>
    refine wp_piped (built_holding rfl nofun) h fun set w h => ?_
    exact wp_piped (built_orThrow set) h fun _ w h => wp_startPipeline h

/-- The pipeline is there once the pointer has been checked. -/
theorem wp_buildPipeline {width height fps : Nat} (h : Alive n w) :
    contract.wp (.hls n) (buildPipeline width height fps)
      (Yields n fun w => w.ptr .pipeline_ = true) (Alive n) w := by
  have hG : ∀ c, pipelineCall c = true → Inside c :=
    pipeline_of_modeCall fun _ => inside_of_modeCall
  have hD : ∀ c, dropCall c = true → Inside c := fun c h => hG c (pipelineCall_of_dropCall h)
  refine wp_alive (.call (hG _ rfl)) h fun made w h => ?_
  refine wp_alive (.call (hG _ rfl)) h fun _ w h => ?_
  refine wp_call_of alive_rely h fun w hi h => ?_
  refine ⟨pre_of_inside ⟨nofun, nofun⟩, fun pipeline w' _ hact => ?_⟩
  rcases system_act.mp hact with ⟨hanswer, rfl⟩
  cases pipeline with
  | false => exact wp_false h
  | true =>
  -- the pointer stays as it was read, since the worker is alive
  have hpipeline : true = w.ptr .pipeline_ := of_decide_eq_true (World.shared_of_answers hanswer)
  have h : Piped n w := ⟨h, hpipeline.symm⟩
  refine wp_piped (built_holding rfl nofun) h fun appsrc w h => ?_
  refine wp_piped (built_holding rfl nofun) h fun _ w h => ?_
  refine wp_piped (built_holding rfl nofun) h fun convert w h => ?_
  have hencoder : makeEncoder.Built Holding Prog.noParts :=
    .bind (built_holding rfl nofun) fun _ => .ite (.ret _) <|
      .bind (built_holding rfl nofun) fun _ => .ite (.ret _) (built_holding rfl nofun)
  have hhlssink : makeHlssink.Built Holding Prog.noParts :=
    .bind (built_holding rfl nofun) fun _ => .bind (built_holding rfl nofun) fun _ =>
      .bind (built_holding rfl nofun) fun _ => .when _ <|
        .bind (built_holding rfl nofun) fun _ => built_holding rfl nofun
  refine wp_piped hencoder h fun h264enc w h => ?_
  cases h264enc with
  | false => exact wp_exit (built_dropWithoutEncoder hD convert) (ends_dropWithoutEncoder _) h.1
  | true =>
  refine wp_piped (built_holding rfl nofun) h fun h264parse w h => ?_
  refine wp_piped (built_holding rfl nofun) h fun queue w h => ?_
  refine wp_piped hhlssink h fun _ w h => ?_
  refine wp_piped (built_holding rfl nofun) h fun appsrc w h => ?_
  refine wp_piped (built_holding rfl nofun) h fun hlssink w h => ?_
  split
  · exact wp_exit (built_dropElements hD ..) (ends_dropElements convert true h264parse queue)
      h.1
  · exact wp_linkAndStart h

theorem wp_initializeGstreamerPipeline {width height fps : Nat} (h : Alive n w) :
    contract.wp (.hls n) (initializeGstreamerPipeline width height fps)
      (Yields n fun w => w.ptr .pipeline_ = true) (Alive n) w := by
  refine wp_tryCatch.mpr (wp_mono (X := Alive n) ?_ (fun _ _ _ h => h) fun w _ h =>
    wp_exit (.bind built_shutdown fun _ => .ret _) (.bind _ fun _ => rfl) h)
  refine wp_alive (.call (inside_of_modeCall rfl)) h fun r w h => ?_
  exact wp_alive (built_orThrow r) h fun _ w h => wp_buildPipeline h

/-! ### Video mode -/

/-- What an operation yields is about video mode and the pipeline only. -/
def AboutVideo (A : World → Prop) : Prop :=
  ∀ w w' : World, w'.flag .isVideoMode_ = w.flag .isVideoMode_ →
    w'.ptr .pipeline_ = w.ptr .pipeline_ → A w → A w'

theorem yields_rely {A : World → Prop} {b : Bool} (hA : AboutVideo A) (w w' : World)
    (hr : contract.rely (.hls n) w w') (h : Yields n A b w) : Yields n A b w' := by
  have hk := hr n rfl h.1
  exact ⟨hk.alive, fun hb => hA w w' hk.flag hk.ptr (h.2 hb)⟩

/-- The call of a destructor leaves what the operation yields. -/
theorem wp_cleanup {A : World → Prop} {b : Bool} {c : SysCall} (hA : AboutVideo A)
    (hc : Inside c) (ht : touches c = false) (h : Yields n A b w) :
    contract.wp (.hls n) (.call c fun _ => .ret ()) (fun _ => Yields n A b) (Alive n) w := by
  intro w' hr hi
  have h := yields_rely hA w w' hr h
  refine ⟨pre_of_inside hc, fun r w'' _ hact => ?_⟩
  rcases system_act.mp hact with ⟨-, rfl⟩
  refine fun v hr hi => yields_rely hA _ v hr ⟨alive_after hc.1 h.1, fun hb => ?_⟩
  exact hA _ _ (video_after ht).1 (video_after ht).2 (h.2 hb)

theorem wp_rollbackUnlocked {legacy : Bool} {A : World → Prop} (h : Alive n w) :
    contract.wp (.hls n) (rollbackUnlocked legacy) (Yields n A) (Alive n) w :=
  wp_exit (built_rollback fun _ => inside_of_modeCall) (.bind _ fun _ => .bind _ fun _ => rfl) h

theorem aboutVideo_pipeline : AboutVideo fun w => w.ptr .pipeline_ = true :=
  fun _ _ _ hp h => hp.trans h

theorem aboutVideo_video : AboutVideo Video := fun _ _ hf hp h => ⟨hf.trans h.1, hp.trans h.2⟩

/-- A request that cannot be queued ends the start; otherwise the pipeline stays. -/
theorem wp_queueBuffer {legacy : Bool} (h : Piped n w) :
    contract.wp (.hls n) (queueBuffer legacy) (Yields n fun w => w.ptr .pipeline_ = true)
      (Alive n) w := by
  refine wp_piped (built_holding rfl nofun) h fun reply w h => ?_
  cases reply with
  | null => exact wp_rollbackUnlocked h.1
  | threw => exact fun v hr hi => alive_rely w v hr hi h.1
  | request request =>
  have hdrop := inside_of_modeCall (c := .dropRequest request) rfl
  refine wp_ensuring_of (wp_mono (Q := Yields n fun w => w.ptr .pipeline_ = true)
    (X := Alive n) ?_ (fun _ w _ h => wp_cleanup aboutVideo_pipeline hdrop rfl h)
    fun w _ h => keeps_alive (.call hdrop) w h)
  refine wp_piped (built_holding rfl nofun) h fun added w h => ?_
  refine wp_piped (built_check added) h fun ok w h => ?_
  cases ok with
  | false => exact wp_rollbackUnlocked h.1
  | true =>
  refine wp_piped (built_holding rfl nofun) h fun queued w h => ?_
  refine wp_piped (built_check queued) h fun ok w h => ?_
  cases ok with
  | false => exact wp_rollbackUnlocked h.1
  | true =>
  have hkeep : (keepRequest request).Built Holding Prog.noParts :=
    built_lockGuard ⟨inside_of_modeCall rfl, nofun⟩ ⟨inside_of_modeCall rfl, nofun⟩
      (.bind (built_holding rfl nofun) fun _ => built_orThrow _)
  refine wp_piped hkeep h fun _ w h => ?_
  exact fun v hr hi => yields_rely aboutVideo_pipeline w v hr ⟨h.1, fun _ => h.2⟩

theorem wp_queueBuffers {legacy : Bool} (videoBuffers : List Bool) (h : Piped n w) :
    contract.wp (.hls n) (queueBuffers legacy videoBuffers)
      (Yields n fun w => w.ptr .pipeline_ = true) (Alive n) w := by
  induction videoBuffers generalizing w with
  | nil => exact fun v hr hi => yields_rely aboutVideo_pipeline w v hr ⟨h.1, fun _ => h.2⟩
  | cons bufferHolder rest ih =>
    cases bufferHolder with
    | false => exact ih h
    | true =>
      refine wp_bind_of (wp_queueBuffer h) fun queued w _ h => ?_
      cases queued with
      | false => exact wp_false h.1
      | true => exact ih ⟨h.1, h.2 rfl⟩

theorem holding_of_stopCall {c : SysCall} (h : stopCall c = true) : Holding c := by
  refine ⟨teardown_of_modeCall (fun _ => inside_of_modeCall) c (teardownCall_of_stopCall h), ?_⟩
  rintro rfl
  cases h

/-- Video mode is turned on with the pipeline there. -/
theorem wp_startStreams {legacy : Bool} {streams width height fps : Nat} (h : Alive n w) :
    contract.wp (.hls n) (startStreams legacy streams width height fps) (Yields n Video) (Alive n)
      w := by
  have hI : ∀ c, modeCall c = true → (sys c).Built Inside Prog.noParts :=
    fun c hc => .call (inside_of_modeCall hc)
  have hM : ∀ c, modeCall c = true → Inside c := fun _ => inside_of_modeCall
  refine wp_alive (hI _ rfl) h fun made w h => ?_
  refine wp_alive (built_orThrow made) h fun _ w h => ?_
  refine wp_alive (hI _ rfl) h fun _ w h => ?_
  refine wp_alive (built_allocateStreams (built_resetAllocator (teardown_of_modeCall hM)) (hM _ rfl)
    streams) h fun allocated w h => ?_
  cases allocated with
  | false => exact wp_false h
  | true =>
  refine wp_bind_of (wp_initializeGstreamerPipeline h) fun pipeline w _ h => ?_
  cases pipeline with
  | false => exact wp_rollbackUnlocked h.1
  | true =>
  have h : Piped n w := ⟨h.1, h.2 rfl⟩
  refine wp_piped (built_disconnectVideoRequestSlot fun _ => holding_of_stopCall) h fun _ w h => ?_
  refine wp_piped (built_holding rfl nofun) h fun connected w h => ?_
  refine wp_piped (built_orThrow connected) h fun _ w h => ?_
  refine wp_piped (built_holding rfl nofun) h fun _ w h => ?_
  refine wp_piped (built_holding rfl nofun) h fun started w h => ?_
  refine wp_piped (built_check started) h fun ok w h => ?_
  cases ok with
  | false => exact wp_rollbackUnlocked h.1
  | true =>
  refine wp_piped (built_holding rfl nofun) h fun buffers w h => ?_
  cases buffers with
  | none => exact fun v hr hi => alive_rely w v hr hi h.1
  | some videoBuffers =>
  refine wp_bind_of (wp_queueBuffers videoBuffers h) fun queued w _ h => ?_
  cases queued with
  | false => exact wp_false h.1
  | true =>
  -- the store of `isVideoMode_`, the last thing that can fail is behind it
  refine wp_call_of piped_rely ⟨h.1, h.2 rfl⟩ fun w hi h => ?_
  refine ⟨pre_of_inside ⟨nofun, nofun⟩, fun _ w' _ hact => ?_⟩
  have hvideo : Yields n Video true w' := by
    rcases system_act.mp hact with ⟨-, rfl⟩
    refine ⟨alive_after nofun h.1, fun _ => ⟨?_, h.2⟩⟩
    show Function.update w.flag .isVideoMode_ true .isVideoMode_ = true
    rw [Function.update_self]
  refine wp_bind_of (wp_cleanup aboutVideo_video ⟨nofun, nofun⟩ rfl hvideo) fun _ w _ h => ?_
  refine wp_bind_of (wp_cleanup aboutVideo_video ⟨nofun, nofun⟩ rfl h) fun _ w _ h => ?_
  exact fun v hr hi => yields_rely aboutVideo_video w v hr h

theorem wp_configureVideo {legacy : Bool} {width height fps : Nat} (h : Alive n w) :
    contract.wp (.hls n) (configureVideo legacy width height fps) (Yields n Video) (Alive n) w := by
  have hI : ∀ c, modeCall c = true → (sys c).Built Inside Prog.noParts :=
    fun c hc => .call (inside_of_modeCall hc)
  refine wp_alive (hI _ rfl) h fun configuration w h => ?_
  rcases configuration with _ | (_ | streams) | _
  · exact wp_alive (hI _ rfl) h fun _ w h => wp_alive (hI _ rfl) h nofun
  · exact wp_alive (hI _ rfl) h fun _ w h => wp_alive (hI _ rfl) h nofun
  · refine wp_alive (hI _ rfl) h fun _ w h => ?_
    refine wp_alive (hI _ rfl) h fun configured w h => ?_
    refine wp_alive (built_check configured) h fun ok w h => ?_
    cases ok with
    | false => exact wp_false h
    | true => exact wp_startStreams h
  · exact fun v hr hi => alive_rely w v hr hi h

/-- A session begins with video mode on, or it does not begin. -/
theorem wp_startVideoMode {legacy : Bool} {width height fps : Nat} (h : Alive n w) :
    contract.wp (.hls n) (startVideoMode legacy width height fps) (Yields n Video) (Alive n) w := by
  have hT : ∀ c, modeCall c = true → Inside c := fun _ => inside_of_modeCall
  refine wp_alive (.call (hT _ rfl)) h fun _ w h => ?_
  refine wp_ensuring_of (wp_mono (Q := Yields n Video) (X := Alive n) ?_
    (fun _ w _ h => wp_cleanup aboutVideo_video (hT _ rfl) rfl h)
    fun w _ h => keeps_alive (.call (hT _ rfl)) w h)
  refine wp_alive (built_cameraReady (hT _ rfl) (hT _ rfl)) h fun ready w h => ?_
  cases ready with
  | false => exact wp_false h
  | true =>
  refine wp_tryCatch.mpr (wp_mono (X := Alive n) ?_ (fun _ _ _ h => h)
    fun w _ h => wp_rollbackUnlocked h)
  refine wp_alive (built_leave hT) h fun left w h => ?_
  cases left with
  | false => exact wp_false h
  | true => exact wp_configureVideo h

/-! ### The worker -/

/-- The turns of the upload loop, with video mode on. -/
theorem keeps_hlsLoopTurn : contract.Keeps (.hls n) (Live n) App.hlsLoopTurn := by
  have hbuilt : App.hlsLoopTurn.Built
      (fun c : SysCall => touches c = false ∧ c ≠ .threadEnd) Prog.noParts := by
    refine App.built_hlsLoopTurn (fun c hc => ?_) ⟨rfl, nofun⟩ ⟨rfl, nofun⟩
    rcases owning_of_workerCall hc with h | rfl
    · exact ⟨h.2, h.1.2.1⟩
    · cases hc
  refine keeps_of_built live_rely (fun c hc w _ h => ?_) (fun _ _ h => h.elim) hbuilt
  refine ⟨⟨fun m hm _ => h.2, nofun⟩, fun r w' _ hact => ?_⟩
  rcases system_act.mp hact with ⟨-, rfl⟩
  refine ⟨alive_after hc.2 h.1, ?_⟩
  exact aboutVideo_video _ _ (video_after hc.1).1 (video_after hc.1).2 h.2

/-- Code that does not poll may be run anywhere. -/
theorem wp_of_quiet {α : Type} {p : Prog Sys α}
    (hp : p.Built (fun c : SysCall => c ≠ .pollAndUpload false) Prog.noParts) :
    contract.wp (.hls n) p (fun _ _ => True) (fun _ => True) w :=
  wp_of_built hp fun _ hc _ _ => ⟨fun _ _ he => absurd he hc, nofun⟩

theorem quiet_of_workerCall {c : SysCall} (h : App.workerCall c = true) :
    c ≠ .pollAndUpload false := by
  rintro rfl
  cases h

theorem wp_hlsWorkerEnd :
    contract.wp (.hls n) App.hlsWorkerEnd (fun _ _ => True) (fun _ => True) w :=
  wp_of_quiet (App.built_hlsWorkerEnd (fun _ => quiet_of_workerCall) nofun)

theorem wp_hlsWorkerFinish {legacy : Bool} :
    contract.wp (.hls n) (App.hlsWorkerFinish legacy) (fun _ _ => True) (fun _ => True) w := by
  have hstop : (stopVideoMode legacy).Built (fun c : SysCall => c ≠ .pollAndUpload false)
      Prog.noParts :=
    built_stop fun _ hc => (inside_of_modeCall hc).2
  exact wp_of_quiet (App.built_hlsWorkerFinish (fun _ => quiet_of_workerCall) nofun hstop)

/-- A worker comes to its loop with video mode on. -/
theorem wp_hlsWorkerBegin {legacy : Bool} :
    contract.wp (.hls n) (App.hlsWorkerBegin legacy) (fun b w => b = true → Live n w)
      (fun _ => True) w := by
  have hend : ∀ w, contract.wp (.hls n) (App.hlsWorkerEnd >>= fun _ => .ret false)
      (fun b w => b = true → Live n w) (fun _ => True) w := fun w =>
    wp_bind_of wp_hlsWorkerEnd fun _ _ _ _ _ _ _ => nofun
  refine wp_call_of true_rely trivial fun w _ _ => ⟨⟨fun _ _ => nofun, nofun⟩, fun _ w _ _ => ?_⟩
  refine wp_call_of true_rely trivial fun w _ _ =>
    ⟨⟨fun _ _ => nofun, nofun⟩, fun cleaned w' hok hact => ?_⟩
  have halive : Alive n w' := by
    rcases system_act.mp hact with ⟨-, rfl⟩
    exact alive_after nofun ((hok.2 _ _ _ rfl).own n rfl nofun)
  cases cleaned with
  | failed => exact hend w'
  | threw => exact hend w'
  | ok =>
  -- the worker exists: `cleaned` shows that it has begun
  refine wp_bind_of (wp_mono (wp_startVideoMode halive) (R := Yields n Video)
    (Y := fun _ => True) (fun _ _ _ h => h) fun _ _ _ => trivial) fun on w _ h => ?_
  cases on with
  | true => exact fun v hr hi _ => live_rely w v hr hi ⟨h.1, h.2 rfl⟩
  | false =>
    refine wp_bind_of (wp_of_quiet (.call ?_)) fun _ w _ _ => hend w
    exact nofun

theorem wp_hlsBody {legacy : Bool} {pc : LoopPc} (h : pc = .loop → Live n w) :
    contract.wp (.hls n) (hlsBody legacy pc)
      (fun next w => ∀ pc' : LoopPc, next = some pc' → pc' = .loop → Live n w) (fun _ => True)
      w := by
  cases pc with
  | begin =>
    refine wp_bind_of wp_hlsWorkerBegin fun on w _ h => ?_
    cases on with
    | false => exact fun _ _ _ _ => nofun
    | true => exact fun v hr hi _ _ _ => live_rely w v hr hi (h rfl)
  | loop =>
    refine keeps_hlsLoopTurn.wp_bind (fun _ _ => trivial) (h rfl) fun more w h => ?_
    cases more with
    | false => exact wp_bind_of wp_hlsWorkerFinish fun _ _ _ _ _ _ _ _ => nofun
    | true => exact fun v hr hi _ _ _ => live_rely w v hr hi h

end

/-! ## The other threads -/

/-- The snapshot finds video mode off, and leaves it alone. -/
theorem keeps_leaveVideoMode {legacy : Bool} :
    contract.Keeps .snapshot (fun _ => True) (leaveVideoMode legacy) := by
  intro w _
  refine wp_call_of true_rely trivial fun w _ _ => ?_
  -- the run condition: the snapshot has found video mode off
  refine ⟨⟨nofun, fun _ => rfl⟩, fun on w' hok _ => ?_⟩
  cases on with
  | true => cases hok.1
  | false => exact fun _ _ _ => trivial

/-- The calls of the threads other than the HLS workers. -/
def Other (t : Tid) (c : SysCall) : Prop := t = .snapshot → touches c = false

/-- The calls with which a picture is taken once video mode has been left. -/
theorem other_of_pictureCall {t : Tid} {c : SysCall}
    (h : photoCall c = true ∨ waitCall c = true ∨ requestCall c = true) : Other t c := by
  intro _
  cases c with
  | store f value => cases f <;> first | rfl | (rcases h with h | h | h <;> cases h)
  | _ => first | rfl | (rcases h with h | h | h <;> cases h)

theorem built_picture {legacy : Bool} {t : Tid} {X : ∀ α : Type, Prog Sys α → Prop}
    (hl : (leaveVideoMode legacy).Built (Other t) X) : (takePicture legacy).Built (Other t) X := by
  have hC : ∀ c, photoCall c = true → Other t c := fun _ h => other_of_pictureCall (.inl h)
  exact built_takePicture (fun _ => rfl) (fun _ => rfl) (fun _ => rfl)
    (built_cameraReady (fun _ => rfl) fun _ => rfl) hl
    (built_capturePhoto hC (built_photoRequest hC
      (built_awaitCompletion fun _ h => other_of_pictureCall (.inr (.inl h)))
      fun _ h => other_of_pictureCall (.inr (.inr h))))

theorem keeps_body {legacy : Bool} {t : Tid} (hhls : ∀ n, t ≠ .hls n) (hcaller : ∀ n, t ≠ .caller n)
    (pc : t.Pc) : contract.Keeps t (fun _ => True) ((code legacy).body t pc) := by
  have hother : ∀ u : Tid, u ≠ .snapshot → ∀ c, Other u c := fun _ hne _ he => absurd he hne
  have hW : ∀ c, App.workerCall c = true → Other t c := by
    intro c hc _
    rcases owning_of_workerCall hc with h | rfl
    · exact h.2
    · rfl
  have hbuilt : ((code legacy).body t pc).Built (Other t)
      (fun α p => t = .snapshot ∧ Prog.onlyPart (leaveVideoMode legacy) α p) := by
    refine built_appBody hW (fun c hc _ => ?_) ?_ ?_ ?_ (fun n hn => absurd hn (hhls n)) ?_
      (fun n hn c _ => hn ▸ hother (.gst n) nofun c) hcaller pc
    · cases c with
      | store f value =>
        rw [store_of_threadCall hc]
        rfl
      | exchange f value =>
        rw [exchange_of_threadCall hc]
        rfl
      | _ => first | rfl | cases hc
    · rintro rfl
      have hmain : ∀ c, Other .main c := hother .main nofun
      exact ⟨built_initializeCamera (fun c _ => hmain c) (hmain _) (hmain _) (hmain _),
        built_destroyed (fun c _ => hmain c) fun c _ => hmain c⟩
    · exact fun ht => built_picture (.part ⟨ht, rfl, rfl⟩)
    · rintro rfl
      have hcheck : ∀ c, Other .check c := hother .check nofun
      exact ⟨fun _ => rfl, App.built_recoverCamera hW (fun _ => rfl) (fun _ => rfl)
        (built_reinit (fun c _ => hcheck c) (fun c _ => hcheck c) fun _ => hcheck _)⟩
    · rintro rfl
      exact fun c _ => hother .callback nofun c
  refine keeps_of_built true_rely (fun c hc w _ _ => ?_) ?_ hbuilt
  · exact ⟨⟨fun n hn => absurd hn (hhls n), hc⟩, fun _ _ _ _ => trivial⟩
  · rintro α p ⟨rfl, rfl, rfl⟩
    exact keeps_leaveVideoMode

/-- In its loop, an HLS worker is alive with video mode on. -/
def holds (t : Tid) (pc : t.Pc) (w : World) : Prop :=
  match t, pc with
  | .hls n, pc => pc = LoopPc.loop → Live n w
  | .caller _, _ => False
  | _, _ => True

def proof (legacy : Bool) : contract.Proof (code legacy) where
  holds := holds
  body t pc w _ h := by
    have hbody : (∀ n, t ≠ .hls n) → (∀ n, t ≠ .caller n) →
        contract.wp t ((code legacy).body t pc) (fun _ _ => True) (fun _ => True) w :=
      fun hhls hcaller => keeps_body hhls hcaller pc w trivial
    cases t with
    | hls n => exact wp_hlsBody h
    | caller n => exact h.elim
    | _ =>
      exact wp_mono (hbody (fun _ => nofun) fun _ => nofun) (fun _ _ _ _ _ _ => trivial)
        fun _ _ h => h

theorem valid_start (legacy : Bool) : (proof legacy).Valid (appStart legacy) := by
  apply valid_appStart _ trivial
  case hhls => exact fun _ _ _ _ => nofun
  all_goals intros; trivial

/-- The steps of an undisturbed run agree with the lives of the workers. -/
theorem run_ok {legacy : Bool} {cfg : Config (code legacy) World}
    (hrun : Run system (fun w l => undisturbed w l = true) (appStart legacy) cfg) :
    Run system ok (appStart legacy) cfg :=
  (Lifecycle.proof legacy).run_pre (Lifecycle.valid_start legacy) (fun _ _ _ => trivial) hrun

end Session

/-- In every run in which no snapshot finds video mode on: whenever the upload loop polls, video
mode is on, and there is a pipeline. -/
theorem App.polls_with_video {legacy : Bool} {cfg : Config (code legacy) World}
    (hrun : Run system (fun w l => Session.undisturbed w l = true) (appStart legacy) cfg) {n : Nat}
    (hpoll : cfg.pending (.hls n) = some (.pollAndUpload false)) :
    cfg.world.flag .isVideoMode_ = true ∧ cfg.world.ptr .pipeline_ = true :=
  (((Session.proof legacy).sound (Session.valid_start legacy) (Session.run_ok hrun)).pre hpoll).1
    n rfl rfl

/-- A picture is taken, which finds video mode off. -/
def Session.picture : List (Choice Sys Tid World Signal) :=
  runs .snapshot .takePicture 24 ++ runs .callback .takePicture 6 ++ runs .snapshot .takePicture 16

/-- Then a session begins and polls for the first time. -/
def Session.polls : List (Choice Sys Tid World Signal) :=
  runs .check .takePicture 14 ++ runs (.hls 0) .takePicture 56 ++ runs (.gst 1) .takePicture 5 ++
    runs (.hls 0) .takePicture 4

/-- One request is that of the picture. -/
theorem App.polls_with_video_first :
    ∃ cfg : Config (code false) World, cfg.world.device.nextRequest = 2 ∧
      cfg.pending (.hls 0) = some (.pollAndUpload false) ∧
        cfg.world.flag .isVideoMode_ = true ∧ cfg.world.ptr .pipeline_ = true := by
  obtain ⟨cfg, hrun, htest⟩ := exec_reaches system Session.undisturbed (appStart false)
    (runs .main .takePicture 18 ++ Session.picture ++ Session.polls)
    (fun cfg => cfg.world.device.nextRequest = 2 ∧
      cfg.pending (.hls 0) = some (.pollAndUpload false)) (by decide +kernel)
  obtain ⟨hrequests, hpoll⟩ := of_decide_eq_true htest
  exact ⟨cfg, hrequests, hpoll, App.polls_with_video hrun hpoll⟩

/-- A snapshot is taken during the session, from its first call to its last: the worker goes on
polling, and video mode is off. -/
theorem App.polls_without_video :
    ∃ cfg : Config (code false) World, Run system anyStep (appStart false) cfg ∧
      cfg.pending (.hls 0) = some (.pollAndUpload false) ∧
        (∀ f, f = .streamShouldRun ∨ f = .keepRunning → cfg.world.flag f = true) ∧
          (∀ f, f = .emergencyStopHls ∨ f = .gstPipelineError_ → cfg.world.flag f = false) ∧
            cfg.world.flag .isVideoMode_ = false ∧ cfg.world.ptr .pipeline_ = false := by
  obtain ⟨cfg, hrun, htest⟩ := exec_reaches system (fun _ _ => true) (appStart false)
    (runs .main .takePicture 18 ++ Session.polls ++ runs .snapshot .takePicture 20 ++
      runs .callback .takePicture 3 ++ runs .snapshot .takePicture 12 ++
        runs (.gst 1) .takePicture 3 ++ runs .snapshot .takePicture 35 ++
          runs .callback .takePicture 6 ++ runs .snapshot .takePicture 16 ++
            runs (.hls 0) .takePicture 7)
    (fun cfg => cfg.pending (.hls 0) = some (.pollAndUpload false) ∧
      cfg.world.flag .streamShouldRun = true ∧ cfg.world.flag .keepRunning = true ∧
        cfg.world.flag .emergencyStopHls = false ∧ cfg.world.flag .gstPipelineError_ = false ∧
          cfg.world.flag .isVideoMode_ = false ∧ cfg.world.ptr .pipeline_ = false)
    (by decide +kernel)
  rcases of_decide_eq_true htest with ⟨hpoll, hshould, hkeep, hemergency, herror, hoff, hnone⟩
  refine ⟨cfg, hrun.mono fun _ _ _ => trivial, hpoll, ?_, ?_, hoff, hnone⟩
  · rintro f (rfl | rfl)
    · exact hshould
    · exact hkeep
  · rintro f (rfl | rfl)
    · exact hemergency
    · exact herror

end SurfCam

import SurfCam.Camera.Members

/-!
# On or idle

Every operation of `CameraManager`, run alone, leaves the camera in one of two modes: video mode is
on with everything it needs, or everything is idle.
-/

namespace SurfCam

open Interaction CameraManager

namespace Members

/-- The members with the whole pipeline there, or all of it gone. -/
def withPipeline (v : Members) (up : Bool) : Members :=
  { v with
    ptr := fun p => if p.ofPipeline then up else v.ptr p
    joinable := up }

/-- The members with the slot for video requests connected, or gone. -/
def withSlot (v : Members) (connected : Bool) : Members :=
  (v.setPtr .videoRequestSlot connected).setConnected connected

section

variable {α : Type} {Q : Unit → Members → Prop} {E : Members → Prop} {v : Members}

@[simp] theorem ptr_withPipeline {up : Bool} {p : Ptr} :
    (v.withPipeline up).ptr p = if p.ofPipeline then up else v.ptr p := rfl

theorem setPtr_self {p : Ptr} {b : Bool} (h : v.ptr p = b) : v.setPtr p b = v := by
  rcases h with rfl
  exact congrArg (fun ptr => { v with ptr := ptr }) (Function.update_eq_self p v.ptr)

@[simp] theorem wlp_ite {c : Prop} [Decidable c] {p q : Prog Sys α} {Q : α → Members → Prop} :
    semantics.wlp (if c then p else q) Q E v ↔
      if c then semantics.wlp p Q E v else semantics.wlp q Q E v := by
  split <;> rfl

/-- `if (member) { release(member); member = nullptr; }` -/
theorem wlp_unset {p : Ptr} {c : SysCall} [Nonempty c.Reply] (h : Ignores c = true) :
    semantics.wlp (Prog.when (v.ptr p) (.call c fun _ => sys (.assign p false))) Q E v ↔
      Q () (v.setPtr p false) := by
  cases hp : v.ptr p with
  | true => simp [h]
  | false => rw [setPtr_self hp]; rfl

theorem wlp_releasePipeline :
    semantics.wlp releasePipeline Q E v ↔
      Q () ((v.withPipeline false).setJoinable v.joinable) := by
  have heq : (((((v.setPtr .bus_ false).setPtr .pipeline_ false).setPtr .loop_ false).setPtr
      .appsrc_ false).setPtr .hlssink_ false) =
      ((v.withPipeline false).setJoinable v.joinable) := by
    ext p
    · rfl
    · cases p <;> simp [Ptr.ofPipeline]
    · rfl
    · rfl
    · rfl
  rw [← heq]
  simp (disch := decide) only [releasePipeline, Prog.call_bind, Prog.ret_bind, Local.wlp_bind,
    wlp_isSet, wlp_unset, wlp_assign, Local.wlp_ret]

theorem wlp_quitLoopIfRunning : semantics.wlp quitLoopIfRunning Q E v ↔ Q () v := by
  simp (disch := decide) [quitLoopIfRunning, Unique.forall_iff]

theorem wlp_joinGstThread :
    semantics.wlp joinGstThread Q E v ↔ Q () (v.setJoinable false) := by
  have heq : v.joinable = false → (v.setJoinable false) = v := fun h => h ▸ rfl
  simp (disch := decide) only [joinGstThread, Prog.call_bind, Prog.ret_bind,
    wlp_gstThreadJoinable, wlp_when, wlp_gstThreadJoin, Local.wlp_ret]
  split
  · rfl
  · rw [heq (Bool.eq_false_iff.mpr ‹_›)]

theorem wlp_shutdownGstreamerPipeline :
    semantics.wlp shutdownGstreamerPipeline Q E v ↔
      Q () (if v.ptr .pipeline_ then v.withPipeline false else v) := by
  simp (disch := decide) only [shutdownGstreamerPipeline, shutdownLocked, wlp_lockGuard, Prog.call_bind,
    Prog.ret_bind, Local.wlp_bind, Prog.pure_eq_ret, wlp_isSet, wlp_ite, wlp_ignored, Local.wlp_ret,
    wlp_quitLoopIfRunning, wlp_joinGstThread, wlp_releasePipeline, forall_const]
  cases v.ptr .pipeline_ <;> rfl

theorem wlp_cameraStop : semantics.wlp cameraStop Q E v ↔ Q () (v.setRunning false) := by
  simp (disch := decide) [cameraStop]

theorem wlp_stopCameraIfRunning {legacy : Bool} (h : v.ptr .camera_ = true) :
    semantics.wlp (stopCameraIfRunning legacy) Q E v ↔ Q () (v.setRunning false) := by
  have heq : v.running = false → v.setRunning false = v := fun h => h ▸ rfl
  cases legacy
  · simp (disch := decide) [stopCameraIfRunning, h, wlp_cameraStop]
    intro hr
    rw [heq hr]
  · simp (disch := decide) [stopCameraIfRunning, h, wlp_cameraStop]

theorem wlp_disconnectVideoRequestSlot {legacy : Bool} (h : v.ptr .camera_ = true)
    (hs : v.ptr .videoRequestSlot = v.connected) :
    semantics.wlp (disconnectVideoRequestSlot legacy) Q E v ↔ Q () (v.withSlot false) := by
  have heq : v.ptr .videoRequestSlot = false → v.withSlot false = v := by
    intro hp
    rw [withSlot, setPtr_self hp]
    exact hp.symm.trans hs ▸ rfl
  have hwhen : semantics.wlp (Prog.when (v.ptr .videoRequestSlot)
      (.call (.disconnect .video) fun _ => sys (.assign .videoRequestSlot false))) Q E v ↔
      Q () (v.withSlot false) := by
    rw [wlp_when, wlp_disconnect, wlp_assign]
    split
    · rfl
    · rw [heq (Bool.eq_false_iff.mpr ‹_›)]
  cases legacy
  · exact wlp_isSet.trans hwhen
  · rw [← hwhen]
    simp only [disconnectVideoRequestSlot, ↓reduceIte, Prog.call_bind, Prog.ret_bind, wlp_isSet, h,
      Bool.not_true, Bool.false_eq_true]

/-! ## The way down -/

/-- The members of the pipeline and its thread are all there, or all gone. -/
structure PipelineIs (v : Members) (up : Bool) : Prop where
  ptr : ∀ p, p.ofPipeline = true → v.ptr p = up
  gstThread_ : v.joinable = up

/-- Nothing of video mode is left. -/
structure Down (v : Members) : Prop where
  pipeline : v.PipelineIs false
  allocator_ : v.ptr .allocator_ = false
  slot : v.ptr .videoRequestSlot = false
  disconnected : v.connected = false
  stopped : v.running = false

/-- Everything is idle. -/
structure Idle (v : Members) : Prop extends v.Down where
  isVideoMode_ : v.flag .isVideoMode_ = false
  captureActive_ : v.flag .captureActive_ = false
  shuttingDown_ : v.flag .shuttingDown_ = false

/-- Video mode is on. -/
structure On (v : Members) : Prop where
  isVideoMode_ : v.flag .isVideoMode_ = true
  captureActive_ : v.flag .captureActive_ = true
  shuttingDown_ : v.flag .shuttingDown_ = false
  pipeline : v.PipelineIs true
  allocator_ : v.ptr .allocator_ = true
  slot : v.ptr .videoRequestSlot = true
  connected : v.connected = true
  running : v.running = true
  camera_ : v.ptr .camera_ = true

/-- Video mode is on, or everything is idle. -/
def Mode (v : Members) : Prop := v.On ∨ v.Idle

/-- What a teardown can deal with: the slot is as its member says, the pipeline is there as a whole
or not at all, and there is a camera. -/
structure Whole (v : Members) : Prop where
  pipeline : ∃ up, v.PipelineIs up
  slot : v.ptr .videoRequestSlot = v.connected
  camera_ : v.ptr .camera_ = true

theorem pipelineIs_withPipeline {up : Bool} : (v.withPipeline up).PipelineIs up :=
  ⟨fun _ hp => if_pos hp, rfl⟩

theorem PipelineIs.self {up : Bool} (h : v.PipelineIs up) : v.withPipeline up = v := by
  ext p
  · rfl
  · cases hp : p.ofPipeline with
    | true => exact (if_pos hp).trans (h.ptr p hp).symm
    | false => exact if_neg (Bool.eq_false_iff.mp hp)
  · rfl
  · rfl
  · exact h.gstThread_.symm

theorem PipelineIs.setPtr {up : Bool} {p : Ptr} {b : Bool} (h : v.PipelineIs up)
    (hp : p.ofPipeline = false) : (v.setPtr p b).PipelineIs up := by
  refine ⟨fun q hq => ?_, h.gstThread_⟩
  rw [ptr_setPtr, if_neg, h.ptr q hq]
  rintro rfl
  exact Bool.noConfusion (hp.symm.trans hq)

theorem On.whole (h : v.On) : v.Whole :=
  ⟨⟨true, h.pipeline⟩, h.slot.trans h.connected.symm, h.camera_⟩

theorem Idle.whole (h : v.Idle) (hc : v.ptr .camera_ = true) : v.Whole :=
  ⟨⟨false, h.pipeline⟩, h.slot.trans h.disconnected.symm, hc⟩

theorem Whole.setFlag {f : Flag} {b : Bool} (h : v.Whole) : (v.setFlag f b).Whole := by
  rcases h.pipeline with ⟨up, hup⟩
  exact ⟨⟨up, hup.ptr, hup.gstThread_⟩, h.slot, h.camera_⟩

theorem Whole.shutdown (h : v.Whole) :
    (if v.ptr .pipeline_ then v.withPipeline false else v) = v.withPipeline false := by
  rcases h.pipeline with ⟨up, hup⟩
  cases up
  · rw [hup.self, ite_self]
  · rw [hup.ptr .pipeline_ rfl]
    rfl

/-- The members with the slot gone and the camera stopped. -/
def quiet (v : Members) : Members := (v.withSlot false).setRunning false

theorem Whole.quiet (h : v.Whole) : v.quiet.Whole := by
  rcases h.pipeline with ⟨up, hup⟩
  have hslot := hup.setPtr (p := .videoRequestSlot) (b := false) rfl
  exact ⟨⟨up, hslot.ptr, hslot.gstThread_⟩, rfl, h.camera_⟩

/-- What a teardown makes of the members. -/
def tornDown (v : Members) : Members := (v.quiet.withPipeline false).setPtr .allocator_ false

theorem wlp_quiet {legacy : Bool} {rest : Prog Sys Unit} (h : v.Whole) :
    semantics.wlp (do
      disconnectVideoRequestSlot legacy
      stopCameraIfRunning legacy
      rest) Q E v ↔ semantics.wlp rest Q E v.quiet := by
  have hc : (v.withSlot false).ptr .camera_ = true := h.camera_
  rw [Local.wlp_bind, wlp_disconnectVideoRequestSlot h.camera_ h.slot, Local.wlp_bind,
    wlp_stopCameraIfRunning hc]
  rfl

theorem wlp_clearRequests : semantics.wlp clearRequests Q E v ↔ Q () v := by
  simp (disch := decide) [clearRequests, Unique.forall_iff]

theorem wlp_resetAllocator :
    semantics.wlp resetAllocator Q E v ↔ Q () (v.setPtr .allocator_ false) := by
  simp [resetAllocator]

theorem wlp_teardown {legacy : Bool} (h : v.Whole) :
    semantics.wlp (teardown legacy) Q E v ↔ Q () v.tornDown := by
  rw [teardown, wlp_quiet h, Local.wlp_bind, wlp_lockGuard, Local.wlp_bind, wlp_clearRequests,
    wlp_shutdownGstreamerPipeline, h.quiet.shutdown, wlp_resetAllocator]
  rfl

theorem wlp_rollbackFailedVideoStart {legacy : Bool} (h : v.Whole) :
    semantics.wlp (rollbackFailedVideoStart legacy) Q E v ↔
      Q () ((v.tornDown.setFlag .captureActive_ false).setFlag .shuttingDown_ false) := by
  rw [rollbackFailedVideoStart, wlp_lockGuard, wlp_quiet h, Local.wlp_bind, wlp_clearRequests,
    Local.wlp_bind, wlp_shutdownGstreamerPipeline, h.quiet.shutdown, Local.wlp_bind,
    wlp_resetAllocator]
  simp (disch := decide) only [Prog.call_bind, Prog.ret_bind, wlp_store, Local.wlp_ret]
  rfl

theorem Down.setFlag {f : Flag} {b : Bool} (h : v.Down) : (v.setFlag f b).Down :=
  ⟨⟨h.pipeline.ptr, h.pipeline.gstThread_⟩, h.allocator_, h.slot, h.disconnected, h.stopped⟩

theorem down_tornDown : v.tornDown.Down where
  pipeline := pipelineIs_withPipeline.setPtr rfl
  allocator_ := rfl
  slot := rfl
  disconnected := rfl
  stopped := rfl

theorem idle_of_rollback (h : v.flag .isVideoMode_ = false) :
    ((v.tornDown.setFlag .captureActive_ false).setFlag .shuttingDown_ false).Idle :=
  ⟨down_tornDown.setFlag.setFlag, h, rfl, rfl⟩

/-- An exit of `startVideoMode` with a rollback. -/
theorem wlp_rollbackUnlocked {legacy : Bool} {Q : Bool → Members → Prop} (h : v.Whole)
    (hv : v.flag .isVideoMode_ = false) (hQ : ∀ v, v.Idle → Q false v) :
    semantics.wlp (rollbackUnlocked legacy) Q E v := by
  simp (disch := decide) only [rollbackUnlocked, Prog.call_bind, Prog.ret_bind, wlp_ignored,
    Local.wlp_bind, Local.wlp_ensuring, wlp_rollbackFailedVideoStart h, Prog.pure_eq_ret,
    Local.wlp_ret]
  intro _ _
  exact hQ _ (idle_of_rollback hv)

/-- `stopVideoMode` ends idle, from either mode. -/
theorem wlp_stopVideoMode {legacy : Bool} (h : v.Mode) :
    semantics.wlp (stopVideoMode legacy) (fun _ => Idle) E v := by
  rw [stopVideoMode, wlp_lockGuard]
  simp (disch := decide) only [Prog.call_bind, Prog.ret_bind, wlp_load, wlp_ite]
  rcases h with h | h
  · -- the recovery is not reached: no step of the teardown throws
    have hwhole := (h.whole.setFlag (f := .captureActive_) (b := false)).setFlag
      (f := .shuttingDown_) (b := true)
    simp (disch := decide) only [h.isVideoMode_, Bool.not_true, Bool.false_eq_true, ↓reduceIte,
      Local.wlp_tryCatch, wlp_store, Local.wlp_bind,
      wlp_teardown hwhole, Prog.pure_eq_ret, Local.wlp_ret]
    exact ⟨down_tornDown.setFlag.setFlag, rfl, rfl, rfl⟩
  · simp only [h.isVideoMode_]
    exact h

theorem wlp_stopVideoModeUnlocked {legacy : Bool} (h : v.Mode) :
    semantics.wlp (stopVideoModeUnlocked legacy) (fun _ => Idle) E v := by
  simp (disch := decide) only [stopVideoModeUnlocked, Prog.call_bind, Prog.ret_bind, wlp_ignored,
    Local.wlp_bind]
  intro _
  exact Local.wlp_mono (wlp_stopVideoMode h) (fun _ _ h _ => h) fun _ h => h

/-- A camera that is ready is there. -/
theorem wlp_cameraReady {Q : Bool → Members → Prop}
    (hQ : ∀ b, (b = true → v.ptr .camera_ = true) → Q b v) : semantics.wlp cameraReady Q E v := by
  simp (disch := decide) only [cameraReady, Prog.call_bind, Prog.ret_bind, wlp_load, wlp_ite,
    wlp_isSet, Prog.pure_eq_ret, Local.wlp_ret]
  split
  · exact hQ false fun h => by cases h
  · exact hQ _ fun h => h

/-- Past `if (isVideoMode_)` everything is idle, and the camera is there. -/
theorem wlp_leaveVideoMode {legacy : Bool} (h : v.Mode) (hc : v.ptr .camera_ = true) :
    semantics.wlp (leaveVideoMode legacy)
      (fun b v => v.Idle ∧ (b = true → v.ptr .camera_ = true)) E v := by
  simp (disch := decide) only [leaveVideoMode, Prog.call_bind, Prog.ret_bind, wlp_load, wlp_ite,
    Prog.pure_eq_ret, Local.wlp_ret]
  split
  · rename_i hv
    rcases h with h | h
    · rw [h.isVideoMode_] at hv
      cases hv
    · exact ⟨h, fun _ => hc⟩
  · exact Local.wlp_bind_of (wlp_stopVideoModeUnlocked h) fun _ v hidle =>
      wlp_cameraReady fun b hb => ⟨hidle, hb⟩

/-! ## The way up -/

theorem withPipeline_setPtr {up : Bool} {p : Ptr} {b : Bool} (h : p.ofPipeline = true) :
    (v.setPtr p b).withPipeline up = v.withPipeline up := by
  ext q
  · rfl
  · simp only [ptr_withPipeline, ptr_setPtr]
    split
    · rfl
    · rw [if_neg]
      rintro rfl
      exact absurd h ‹_›
  · rfl
  · rfl
  · rfl

/-- `v` is `u` but for a part of the pipeline. -/
structure Building (u v : Members) : Prop where
  rest : v.withPipeline false = u
  pipeline_ : v.ptr .pipeline_ = true

theorem Building.setPtr {u : Members} {p : Ptr} {b : Bool} (h : Building u v)
    (hp : p.ofPipeline = true) (hne : p ≠ .pipeline_) : Building u (v.setPtr p b) :=
  ⟨(withPipeline_setPtr hp).trans h.rest, (Function.update_of_ne hne.symm ..).trans h.pipeline_⟩

theorem Building.setJoinable {u : Members} {b : Bool} (h : Building u v) :
    Building u (v.setJoinable b) := ⟨h.rest, h.pipeline_⟩

/-- A shutdown takes away what has been built. -/
theorem Building.shutdown {u : Members} (h : Building u v) :
    (if v.ptr .pipeline_ then v.withPipeline false else v) = u := by
  rw [if_pos h.pipeline_, h.rest]

/-- The other elements are there, so the pipeline is complete. -/
theorem wlp_startPipeline {u : Members} {Q : Bool → Members → Prop} (h : Building u v)
    (hj : v.joinable = false) (ha : v.ptr .appsrc_ = true) (hs : v.ptr .hlssink_ = true)
    (hfalse : Q false u) (htrue : Q true (u.withPipeline true)) (hE : ∀ v, Building u v → E v) :
    semantics.wlp startPipeline Q E v := by
  have hloop : Building u ((v.setPtr .bus_ true).setPtr .loop_ true) :=
    (h.setPtr (p := .bus_) rfl (by decide)).setPtr (p := .loop_) rfl (by decide)
  have hup : ((v.setPtr .bus_ true).setPtr .loop_ true).setJoinable true = u.withPipeline true := by
    rw [← h.rest]
    ext p
    · rfl
    · cases p <;> simp [Ptr.ofPipeline, h.pipeline_, ha, hs]
    · rfl
    · rfl
    · rfl
  have hbus : (v.setPtr .bus_ true).joinable = false := hj
  have hset : ((v.setPtr .bus_ true).setPtr .loop_ true).ptr .loop_ = true := rfl
  simp (disch := decide) only [startPipeline, Prog.call_bind, Prog.ret_bind, wlp_ignored, wlp_assign,
    wlp_mainLoopNew hbus, wlp_spawnGstThread hset, Local.wlp_bind, wlp_orThrow, wlp_ite,
    wlp_shutdownGstreamerPipeline, Prog.pure_eq_ret, Local.wlp_ret, ↓reduceIte, reduceCtorEq,
    hloop.setJoinable.shutdown]
  refine fun _ _ => ⟨fun r => ?_, hE _ hloop, hE _ hloop⟩
  split
  · exact hfalse
  · exact fun _ => hup ▸ htrue

theorem wlp_linkAndStart {u : Members} {width height fps : Nat} {Q : Bool → Members → Prop}
    (h : Building u v) (hj : v.joinable = false) (ha : v.ptr .appsrc_ = true)
    (hs : v.ptr .hlssink_ = true) (hfalse : Q false u) (htrue : Q true (u.withPipeline true))
    (hE : ∀ v, Building u v → E v) :
    semantics.wlp (linkAndStart width height fps) Q E v := by
  simp (disch := exact of_decide_eq_true rfl) only [linkAndStart, Prog.call_bind, Prog.ret_bind,
    wlp_ignored, Local.wlp_bind, wlp_orThrow, wlp_ite, wlp_shutdownGstreamerPipeline, Prog.pure_eq_ret,
    Local.wlp_ret, h.shutdown]
  intro _ linked
  split
  · exact hfalse
  · intro r
    split
    · exact wlp_startPipeline h hj ha hs hfalse htrue hE
    · exact hE v h

theorem wlp_makeEncoder {Q : Bool → Members → Prop} (hQ : ∀ b, Q b v) :
    semantics.wlp makeEncoder Q E v := by
  simp (disch := decide) only [makeEncoder, Prog.call_bind, Prog.ret_bind, wlp_ignored, wlp_ite,
    Prog.pure_eq_ret, Local.wlp_ret, hQ, ite_self, implies_true]

theorem wlp_unrefIf {made : Bool} {o : GstObject} :
    semantics.wlp (unrefIf made o) Q E v ↔ Q () v := by
  cases made
  · rfl
  · exact (wlp_ignored (c := .objectUnref o) rfl).trans Unique.forall_iff

theorem wlp_dropWithoutEncoder {convert : Bool} {Q : Bool → Members → Prop} :
    semantics.wlp (dropWithoutEncoder convert) Q E v ↔
      Q false ((v.setPtr .pipeline_ false).setPtr .appsrc_ false) := by
  simp (disch := decide) only [dropWithoutEncoder, Prog.call_bind, Prog.ret_bind, wlp_isSet,
    Local.wlp_bind, wlp_unrefIf, wlp_ignored, wlp_assign, Prog.pure_eq_ret, Local.wlp_ret,
    forall_const]

theorem wlp_dropElements {convert h264enc h264parse queue : Bool} {Q : Bool → Members → Prop} :
    semantics.wlp (dropElements convert h264enc h264parse queue) Q E v ↔
      Q false (((v.setPtr .pipeline_ false).setPtr .appsrc_ false).setPtr .hlssink_ false) := by
  simp (disch := decide) only [dropElements, Prog.call_bind, Prog.ret_bind, wlp_isSet,
    Local.wlp_bind, wlp_unrefIf, wlp_ignored, wlp_assign, Prog.pure_eq_ret, Local.wlp_ret,
    forall_const]

theorem setPtr_setPtr {p : Ptr} {a b : Bool} : (v.setPtr p a).setPtr p b = v.setPtr p b :=
  congrArg (fun ptr => { v with ptr := ptr }) (Function.update_idem ..)

theorem wlp_makeHlssink (hQ : ∀ b, Q () (v.setPtr .hlssink_ b)) :
    semantics.wlp makeHlssink Q E v := by
  simp (disch := decide) only [makeHlssink, Prog.call_bind, Prog.ret_bind, wlp_ignored, wlp_assign,
    wlp_isSet, wlp_when, Local.wlp_ret, setPtr_setPtr]
  intro hlssink
  split
  · exact fun hlssink2 => hQ hlssink2
  · exact hQ hlssink

theorem wlp_buildPipeline {u : Members} {width height fps : Nat} {Q : Bool → Members → Prop}
    (hu : u.PipelineIs false) (hfalse : Q false u) (htrue : Q true (u.withPipeline true))
    (hE : ∀ v, Building u v → E v) : semantics.wlp (buildPipeline width height fps) Q E u := by
  have hp : u.ptr .pipeline_ = false := hu.ptr _ rfl
  have ha : u.ptr .appsrc_ = false := hu.ptr _ rfl
  have hs : u.ptr .hlssink_ = false := hu.ptr _ rfl
  simp (disch := decide) only [buildPipeline, Prog.call_bind, Prog.ret_bind,
    wlp_pipelineNew hu.gstThread_ hp, wlp_ignored, wlp_assign, wlp_isSet, Local.wlp_bind, wlp_ite,
    Prog.pure_eq_ret, Local.wlp_ret, wlp_dropWithoutEncoder, wlp_dropElements]
  intro pipeline
  cases pipeline with
  | false =>
    rw [setPtr_self hp, hp]
    exact hfalse
  | true =>
    intro appsrc convert
    apply wlp_makeEncoder
    intro h264enc
    have hbuilding : Building u ((u.setPtr .pipeline_ true).setPtr .appsrc_ appsrc) :=
      ⟨(withPipeline_setPtr rfl).trans ((withPipeline_setPtr rfl).trans hu.self), rfl⟩
    cases h264enc with
    | false =>
      -- the pointers that were assigned are null again
      have hdrop : (((u.setPtr .pipeline_ true).setPtr .appsrc_ appsrc).setPtr .pipeline_
          false).setPtr .appsrc_ false = u := by
        ext p
        · rfl
        · cases p <;> simp [hp, ha]
        · rfl
        · rfl
        · rfl
      rw [hdrop]
      exact hfalse
    | true =>
      intro h264parse queue
      apply wlp_makeHlssink
      intro hlssink
      have hdrop : ((((u.setPtr .pipeline_ true).setPtr .appsrc_ appsrc).setPtr .hlssink_
          hlssink).setPtr .pipeline_ false).setPtr .appsrc_ false = u.setPtr .hlssink_ hlssink := by
        ext p
        · rfl
        · cases p <;> simp [hp, ha]
        · rfl
        · rfl
        · rfl
      split
      · rw [hdrop, setPtr_setPtr, setPtr_self hs]
        exact hfalse
      · rename_i hmade
        simp only [Bool.or_eq_true, not_or, Bool.not_eq_true', Bool.not_eq_false] at hmade
        have hbuilding := hbuilding.setPtr (p := .hlssink_) (b := hlssink) rfl (by decide)
        exact wlp_linkAndStart hbuilding hu.gstThread_ hmade.1.1.1.1.1 hmade.2 hfalse htrue hE

/-- `initializeGstreamerPipeline` builds all of the pipeline or nothing. -/
theorem wlp_initializeGstreamerPipeline {u : Members} {width height fps : Nat}
    {Q : Bool → Members → Prop} (hu : u.PipelineIs false) (hfalse : Q false u)
    (htrue : Q true (u.withPipeline true)) :
    semantics.wlp (initializeGstreamerPipeline width height fps) Q E u := by
  rw [initializeGstreamerPipeline, Local.wlp_tryCatch]
  simp (disch := decide) only [Prog.call_bind, Prog.ret_bind, wlp_ignored, Local.wlp_bind,
    wlp_orThrow, wlp_shutdownGstreamerPipeline, Prog.pure_eq_ret, Local.wlp_ret]
  intro r
  split
  · apply wlp_buildPipeline hu hfalse htrue
    intro v hv
    rw [hv.shutdown]
    exact hfalse
  · rw [hu.self, ite_self]
    exact hfalse

/-! ## startVideoMode -/

/-- Video mode is on after a start that returns true, and all is idle after one that does not. -/
def Started (b : Bool) (v : Members) : Prop := if b then v.On else v.Idle

theorem Started.mode {b : Bool} (h : Started b v) : v.Mode := by
  cases b with
  | true => exact .inl h
  | false => exact .inr h

/-- A start of video mode that may still fail: its rollback can deal with it. -/
structure Starting (v : Members) : Prop extends v.Whole where
  isVideoMode_ : v.flag .isVideoMode_ = false

theorem Idle.starting (h : v.Idle) (hc : v.ptr .camera_ = true) : v.Starting :=
  ⟨h.whole hc, h.isVideoMode_⟩

theorem Starting.rollback {legacy : Bool} {Q : Bool → Members → Prop} (h : v.Starting)
    (hQ : ∀ v, v.Idle → Q false v) : semantics.wlp (rollbackUnlocked legacy) Q E v :=
  wlp_rollbackUnlocked h.toWhole h.isVideoMode_ hQ

/-- A buffer that cannot be queued ends the start; else the members stay. -/
theorem Starting.queueBuffer {legacy : Bool} {Q : Bool → Members → Prop} (h : v.Starting)
    (htrue : Q true v) (hfalse : ∀ v, v.Idle → Q false v) (hE : E v) :
    semantics.wlp (queueBuffer legacy) Q E v := by
  simp (disch := decide) only [CameraManager.queueBuffer, Prog.call_bind, Prog.ret_bind, wlp_ignored]
  rintro (_ | request | _)
  · exact h.rollback hfalse
  · simp (disch := exact of_decide_eq_true rfl) only [Local.wlp_ensuring, wlp_ignored,
      Local.wlp_bind, wlp_check, wlp_ite, wlp_orThrow, wlp_lockGuard,
      Prog.pure_eq_ret, Local.wlp_ret, forall_const]
    rintro (_ | _ | _)
    · rintro (_ | _ | _)
      · rintro (_ | _ | _)
        · exact htrue
        · exact hE
        · exact hE
      · exact h.rollback hfalse
      · exact hE
    · exact h.rollback hfalse
    · exact hE
  · exact hE

theorem Starting.queueBuffers {legacy : Bool} {Q : Bool → Members → Prop} (h : v.Starting)
    (htrue : Q true v) (hfalse : ∀ v, v.Idle → Q false v) (hE : E v) (videoBuffers : List Bool) :
    semantics.wlp (queueBuffers legacy videoBuffers) Q E v := by
  induction videoBuffers with
  | nil => exact htrue
  | cons bufferHolder rest ih =>
    rw [CameraManager.queueBuffers, wlp_ite, Local.wlp_bind]
    split
    · exact ih
    · exact h.queueBuffer ih hfalse hE

theorem wlp_allocateStreams {Q : Bool → Members → Prop} (htrue : Q true v)
    (hfalse : Q false (v.setPtr .allocator_ false)) (hE : E v) (streams : Nat) :
    semantics.wlp (allocateStreams streams) Q E v := by
  induction streams with
  | zero => exact htrue
  | succ streams ih =>
    simp (disch := decide) only [allocateStreams, Prog.call_bind, Prog.ret_bind, wlp_ignored]
    rintro (_ | _ | _)
    · exact ih
    · rw [Local.wlp_bind, wlp_resetAllocator]
      exact hfalse
    · exact hE

theorem PipelineIs.setRunning {up b : Bool} (h : v.PipelineIs up) :
    (v.setRunning b).PipelineIs up := ⟨h.ptr, h.gstThread_⟩

theorem PipelineIs.withSlot {up b : Bool} (h : v.PipelineIs up) : (v.withSlot b).PipelineIs up := by
  have hslot := h.setPtr (p := .videoRequestSlot) (b := b) rfl
  exact ⟨hslot.ptr, hslot.gstThread_⟩

/-- The pipeline is there and the slot is connected. -/
def linked (v : Members) : Members :=
  (((v.withPipeline true).withSlot false).setConnected true).setPtr .videoRequestSlot true

theorem pipelineIs_linked : v.linked.PipelineIs true := by
  have hpipeline : (v.withPipeline true).PipelineIs true := pipelineIs_withPipeline
  have hslot := hpipeline.withSlot (b := false)
  exact PipelineIs.setPtr ⟨hslot.ptr, hslot.gstThread_⟩ rfl

/-- With the camera running, the requests are queued and the flags of video mode set. -/
theorem Starting.queued {legacy : Bool} (videoBuffers : List Bool)
    (h : (v.linked.setRunning true).Starting) (ha : v.ptr .allocator_ = true) :
    semantics.wlp (do
      if !(← CameraManager.queueBuffers legacy videoBuffers) then return false
      sys (.store .isVideoMode_ true)
      sys (.store .captureActive_ true)
      sys (.store .shuttingDown_ false)
      return true) Started Starting (v.linked.setRunning true) := by
  rw [Local.wlp_bind]
  apply h.queueBuffers _ _ h
  · simp (disch := decide) only [Bool.not_true, Bool.false_eq_true, ↓reduceIte, Prog.call_bind,
      Prog.ret_bind, wlp_store, Prog.pure_eq_ret, Local.wlp_ret]
    have hp := (pipelineIs_linked (v := v)).setRunning (b := true)
    exact ⟨rfl, rfl, rfl, ⟨hp.ptr, hp.gstThread_⟩, ha, rfl, rfl, rfl, h.camera_⟩
  · exact fun v hv => hv

theorem wlp_startStreams {legacy : Bool} {streams width height fps : Nat} (h : v.Idle)
    (hc : v.ptr .camera_ = true) :
    semantics.wlp (startStreams legacy streams width height fps) Started Starting v := by
  have hidle : ∀ v, Idle v → Started false v := fun v h => h
  -- the members at the exits, one after the other
  have hdown : (v.setPtr .allocator_ true).PipelineIs false := h.pipeline.setPtr rfl
  have hallocated : (v.setPtr .allocator_ true).Starting :=
    ⟨⟨⟨false, hdown⟩, h.slot.trans h.disconnected.symm, hc⟩, h.isVideoMode_⟩
  have hpipeline : ((v.setPtr .allocator_ true).withPipeline true).Whole :=
    ⟨⟨true, pipelineIs_withPipeline⟩, h.slot.trans h.disconnected.symm, hc⟩
  have hslot : (((v.setPtr .allocator_ true).withPipeline true).withSlot false).Starting :=
    ⟨⟨⟨true, pipelineIs_withPipeline.withSlot⟩, rfl, hc⟩, h.isVideoMode_⟩
  have hlinked : (v.setPtr .allocator_ true).linked.Starting :=
    ⟨⟨⟨true, pipelineIs_linked⟩, rfl, hc⟩, h.isVideoMode_⟩
  have hrunning : ((v.setPtr .allocator_ true).linked.setRunning true).Starting :=
    ⟨⟨⟨true, pipelineIs_linked.setRunning⟩, rfl, hc⟩, h.isVideoMode_⟩
  simp (disch := decide) only [startStreams, Prog.call_bind, Prog.ret_bind, wlp_ignored, wlp_assign,
    Local.wlp_bind, wlp_orThrow, wlp_ite]
  intro r
  split
  · apply wlp_allocateStreams
    · apply wlp_initializeGstreamerPipeline hdown
      · exact hallocated.rollback hidle
      · rw [wlp_disconnectVideoRequestSlot hpipeline.camera_ hpipeline.slot]
        simp (disch := decide) only [wlp_connect, Local.wlp_bind, wlp_orThrow, ↓reduceIte,
          reduceCtorEq, wlp_assign, wlp_cameraStart, wlp_check, wlp_ite, wlp_ignored, decide_true,
          decide_false, Bool.not_true, Bool.not_false, Bool.false_eq_true]
        refine ⟨⟨?_, hlinked.rollback hidle, hlinked⟩, hslot, hslot⟩
        rintro (_ | videoBuffers)
        · exact hrunning
        · exact hrunning.queued videoBuffers rfl
    · have hreset := hdown.setPtr (p := .allocator_) (b := false) rfl
      exact ⟨⟨hreset, rfl, h.slot, h.disconnected, h.stopped⟩,
        h.isVideoMode_, h.captureActive_, h.shuttingDown_⟩
    · exact hallocated
  · exact h.starting hc

/-- The camera, its manager and the configuration come and go: the modes do not mind. -/
theorem Idle.setPtr {p : Ptr} {b : Bool} (h : v.Idle)
    (hp : p = .cameraManager_ ∨ p = .camera_ ∨ p = .currentConfig_) : (v.setPtr p b).Idle := by
  have hpipeline : (v.setPtr p b).PipelineIs false := by
    apply h.pipeline.setPtr
    rcases hp with rfl | rfl | rfl <;> rfl
  have hother : ∀ q, q = .allocator_ ∨ q = .videoRequestSlot → (v.setPtr p b).ptr q = v.ptr q := by
    rintro q (rfl | rfl) <;> rcases hp with rfl | rfl | rfl <;> rfl
  exact ⟨⟨hpipeline, (hother _ (.inl rfl)).trans h.allocator_, (hother _ (.inr rfl)).trans h.slot,
    h.disconnected, h.stopped⟩, h.isVideoMode_, h.captureActive_, h.shuttingDown_⟩

theorem wlp_configureVideo {legacy : Bool} {width height fps : Nat} (h : v.Idle)
    (hc : v.ptr .camera_ = true) :
    semantics.wlp (configureVideo legacy width height fps) Started Starting v := by
  have hconfig : ∀ b, (v.setPtr .currentConfig_ b).Idle := fun b => h.setPtr (.inr (.inr rfl))
  simp (disch := decide) only [configureVideo, Prog.call_bind, Prog.ret_bind, wlp_ignored]
  rintro (_ | _ | _)
  · simp (disch := decide) only [wlp_assign, wlp_ignored]
    exact fun r => by cases r
  · rename_i streams
    cases streams with
    | zero =>
      simp (disch := decide) only [wlp_assign, wlp_ignored]
      exact fun r => by cases r
    | succ streams =>
      simp (disch := exact of_decide_eq_true rfl) only [wlp_assign, wlp_ignored, Local.wlp_bind,
        wlp_check, wlp_ite]
      rintro (_ | _ | _)
      · exact wlp_startStreams (hconfig true) hc
      · exact hconfig true
      · exact (hconfig true).starting hc
  · exact h.starting hc

/-- The scope of `cameraLock`, once the camera has been found ready. -/
theorem wlp_startReady {legacy : Bool} {width height fps : Nat} (h : v.Mode)
    (hc : v.ptr .camera_ = true) :
    semantics.wlp (Prog.tryCatch
      (do
        if !(← leaveVideoMode legacy) then return false
        configureVideo legacy width height fps)
      (rollbackUnlocked legacy)) Started E v := by
  rw [Local.wlp_tryCatch, Local.wlp_bind]
  apply Local.wlp_mono (wlp_leaveVideoMode h hc)
  · rintro (_ | _) v ⟨hidle, hc⟩
    · exact hidle
    · apply Local.wlp_mono (wlp_configureVideo hidle (hc rfl)) (fun _ _ hm => hm)
      exact fun v hv => hv.rollback fun v hidle => hidle
  · exact fun _ h => h

theorem wlp_startVideoMode {legacy : Bool} {width height fps : Nat} (h : v.Mode) :
    semantics.wlp (startVideoMode legacy width height fps) (fun _ => Mode) E v := by
  rw [startVideoMode, wlp_lockGuard, startVideoModeLocked, Local.wlp_bind]
  apply wlp_cameraReady
  rintro (_ | _) hb
  · exact h
  · exact Local.wlp_mono (wlp_startReady h (hb rfl)) (fun _ _ hs => hs.mode) fun _ h => h

/-! ## takePicture -/

/-- A picture is being taken: the camera may run, the rest is idle. -/
structure Capturing (v : Members) : Prop where
  idle : (v.setRunning false).Idle
  camera_ : v.ptr .camera_ = true

/-- Every exit of the wait, after a timeout with the camera stopped. -/
theorem wlp_awaitCompletion (h : v.Capturing) :
    semantics.wlp awaitCompletion (fun b v => if b then v.Capturing else v.Idle) E v := by
  simp (disch := decide) [awaitCompletion, waitForCompletion, Local.wlp_bind, wlp_cameraStop, h,
    h.idle]

/-- Every exit after the picture has been taken, with the camera stopped. -/
theorem wlp_saveImage {legacy : Bool} (h : v.Capturing) :
    semantics.wlp (saveImage legacy) (fun _ => Idle) Capturing v := by
  cases legacy <;>
    simp (disch := decide) [saveImage, Local.wlp_bind, Local.wlp_ensuring, wlp_cameraStop, h, h.idle]

theorem Idle.running (h : v.Idle) (hc : v.ptr .camera_ = true) :
    (v.setRunning true).Capturing := by
  have hstop : (v.setRunning true).setRunning false = v := h.stopped ▸ rfl
  exact ⟨hstop.symm ▸ h, hc⟩

theorem Idle.capturing (h : v.Idle) (hc : v.ptr .camera_ = true) : v.Capturing := by
  have hstop : v.setRunning false = v := h.stopped ▸ rfl
  exact ⟨hstop.symm ▸ h, hc⟩

/-- From the start of the camera on: every exit stops it again, or throws. -/
theorem wlp_capture {legacy : Bool} {request : Nat} (h : v.Idle) (hc : v.ptr .camera_ = true) :
    semantics.wlp (capture legacy request) (fun _ => Idle) Capturing v := by
  have hrunning := h.running hc
  simp (disch := exact of_decide_eq_true rfl) only [capture, Prog.call_bind, Prog.ret_bind,
    wlp_cameraStart, wlp_ignored, Local.wlp_bind, wlp_check, wlp_ite, ↓reduceIte, reduceCtorEq,
    decide_true, decide_false, Bool.not_true, Bool.not_false, Bool.false_eq_true, Prog.pure_eq_ret,
    Local.wlp_ret, wlp_cameraStop]
  refine ⟨fun _ => ?_, h, h.capturing hc⟩
  rintro (_ | _ | _)
  · apply Local.wlp_mono (wlp_awaitCompletion hrunning)
    · rintro (_ | _) v hv
      · exact hv
      · exact wlp_saveImage hv
    · exact fun _ h => h
  · exact hrunning.idle
  · exact hrunning

theorem wlp_captureWith {legacy : Bool} {request : Nat} (h : v.Idle) (hc : v.ptr .camera_ = true) :
    semantics.wlp (captureWith legacy request) (fun _ => Idle) Capturing v := by
  have hcapturing := h.capturing hc
  simp (disch := decide) only [captureWith, Prog.call_bind, Prog.ret_bind, wlp_ignored]
  rintro (_ | _ | _)
  · exact hcapturing
  · exact h
  · simp (disch := exact of_decide_eq_true rfl) only [wlp_ignored, Local.wlp_bind, wlp_check,
      wlp_ite, wlp_orThrow, Prog.pure_eq_ret, Local.wlp_ret, Local.wlp_ensuring, forall_const]
    rintro (_ | _ | _)
    · rintro (_ | _ | _)
      · exact wlp_capture h hc
      · exact hcapturing
      · exact hcapturing
    · exact h
    · exact hcapturing

theorem wlp_photoRequest {legacy : Bool} (h : v.Idle) (hc : v.ptr .camera_ = true) :
    semantics.wlp (photoRequest legacy) (fun _ => Idle) Capturing v := by
  simp (disch := decide) only [photoRequest, Prog.call_bind, Prog.ret_bind, wlp_ignored]
  rintro (_ | request | _)
  · exact h
  · simp (disch := exact of_decide_eq_true rfl) only [Local.wlp_ensuring, wlp_ignored,
      Local.wlp_ret, forall_const]
    exact wlp_captureWith h hc
  · exact h.capturing hc

theorem wlp_configurePhoto {legacy : Bool} (h : v.Idle) (hc : v.ptr .camera_ = true) :
    semantics.wlp (configurePhoto legacy) (fun _ => Idle) Capturing v := by
  have hcapturing := h.capturing hc
  simp (disch := decide) only [configurePhoto, Prog.call_bind, Prog.ret_bind, wlp_ignored]
  rintro (_ | (_ | streams) | _)
  · simp (disch := decide) only [wlp_ignored]
    exact fun r => by cases r
  · simp (disch := decide) only [wlp_ignored]
    exact fun r => by cases r
  · simp (disch := exact of_decide_eq_true rfl) only [wlp_ignored, Local.wlp_bind, wlp_check,
      wlp_ite, wlp_orThrow, Prog.pure_eq_ret, Local.wlp_ret, Local.wlp_ensuring, forall_const]
    rintro (_ | _ | _)
    · rintro (_ | _ | _)
      · rintro (_ | _ | _)
        · exact wlp_photoRequest h hc
        · exact h
        · exact hcapturing
      · exact hcapturing
      · exact hcapturing
    · exact h
    · exact hcapturing
  · exact hcapturing

theorem wlp_capturePhoto {legacy : Bool} (h : v.Idle) (hc : v.ptr .camera_ = true) :
    semantics.wlp (capturePhoto legacy) (fun _ => Idle) E v := by
  rw [capturePhoto]
  apply Local.wlp_tryCatch_of (wlp_configurePhoto h hc)
  intro v hv
  rw [Local.wlp_bind, wlp_stopCameraIfRunning hv.camera_]
  exact hv.idle

theorem wlp_takePicture {legacy : Bool} (h : v.Mode) :
    semantics.wlp (takePicture legacy) (fun _ => Mode) E v := by
  rw [takePicture, wlp_lockGuard]
  simp (disch := decide) only [Prog.call_bind, Prog.ret_bind, wlp_load, wlp_ite]
  split
  · exact h
  · rw [Local.wlp_bind]
    apply wlp_cameraReady
    rintro (_ | _) hb
    · exact h
    · show semantics.wlp (leaveVideoMode legacy >>= _) _ _ _
      apply Local.wlp_bind_of (wlp_leaveVideoMode h (hb rfl))
      rintro (_ | _) v ⟨hidle, hc⟩
      · exact .inr hidle
      · exact Local.wlp_mono (wlp_capturePhoto hidle (hc rfl)) (fun _ _ => .inr) fun _ h => h

/-! ## initialize and reinitialize -/

theorem On.setPtr {p : Ptr} (h : v.On) (hp : p = .cameraManager_ ∨ p = .camera_) :
    (v.setPtr p true).On := by
  have hpipeline : (v.setPtr p true).PipelineIs true := by
    apply h.pipeline.setPtr
    rcases hp with rfl | rfl <;> rfl
  have hother : ∀ q, v.ptr q = true → (v.setPtr p true).ptr q = true := by
    intro q hq
    rw [ptr_setPtr, hq, ite_self]
  exact ⟨h.isVideoMode_, h.captureActive_, h.shuttingDown_, hpipeline, hother _ h.allocator_,
    hother _ h.slot, h.connected, h.running, hother _ h.camera_⟩

theorem Mode.setPtr {p : Ptr} (h : v.Mode) (hp : p = .cameraManager_ ∨ p = .camera_) :
    (v.setPtr p true).Mode := by
  rcases h with h | h
  · exact .inl (h.setPtr hp)
  · exact .inr (h.setPtr (hp.imp id .inl))

theorem Idle.setFlag {f : Flag} {b : Bool} (h : v.Idle)
    (hf : f = .isInitialized_ ∨ f = .snapshotsPaused_) : (v.setFlag f b).Idle := by
  have hdown := h.toDown.setFlag (f := f) (b := b)
  rcases hf with rfl | rfl <;>
    exact ⟨hdown, h.isVideoMode_, h.captureActive_, h.shuttingDown_⟩

theorem Mode.setFlag {f : Flag} {b : Bool} (h : v.Mode)
    (hf : f = .isInitialized_ ∨ f = .snapshotsPaused_) : (v.setFlag f b).Mode := by
  rcases h with h | h
  · have hp : (v.setFlag f b).PipelineIs true := ⟨h.pipeline.ptr, h.pipeline.gstThread_⟩
    left
    rcases hf with rfl | rfl <;>
      exact ⟨h.isVideoMode_, h.captureActive_, h.shuttingDown_, hp, h.allocator_, h.slot,
        h.connected, h.running, h.camera_⟩
  · exact .inr (h.setFlag hf)

/-- The acquisition only sets the camera and its manager. -/
theorem wlp_acquireCamera {I : Members → Prop}
    (hI : ∀ v p, p = .cameraManager_ ∨ p = .camera_ → I v → I (v.setPtr p true)) (h : I v) :
    semantics.wlp acquireCamera (fun _ => I) I v := by
  have hmanager := hI v .cameraManager_ (.inl rfl) h
  simp (disch := decide) only [acquireCamera, Prog.call_bind, Prog.ret_bind, wlp_ignored,
    Local.wlp_bind, wlp_check, wlp_orThrow, wlp_assign]
  intro made
  split
  · intro started
    split
    · exact hmanager
    · rintro (_ | (_ | cameras))
      · exact hmanager
      · exact hmanager
      · have hcamera := hI _ .camera_ (.inr rfl) hmanager
        simp (disch := decide) only [wlp_assign, wlp_ignored, wlp_check, hcamera, ite_self,
          implies_true]
  · exact h

theorem wlp_initializeCamera (h : v.Mode) :
    semantics.wlp initializeCamera (fun _ => Mode) E v := by
  rw [initializeCamera, wlp_lockGuard, Local.wlp_tryCatch]
  apply Local.wlp_bind_of (wlp_acquireCamera (fun v p hp hv => hv.setPtr hp) h)
  rintro (_ | _) v hv
  · exact hv
  · simp (disch := decide) only [Prog.call_bind, Prog.ret_bind, wlp_store, Prog.pure_eq_ret,
      Local.wlp_ret, Bool.not_true, Bool.false_eq_true, ↓reduceIte]
    exact (hv.setFlag (.inl rfl)).setFlag (.inr rfl)

theorem wlp_releaseCamera {legacy : Bool} (h : v.Idle) :
    semantics.wlp (releaseCamera legacy) (fun _ => Idle) E v := by
  -- the second half, from wherever the first one ends
  have hmanager : ∀ v : Members, v.Idle → semantics.wlp (do
      Prog.when (← sys (.isSet .cameraManager_)) do
        sys .managerStop
        sys (.assign .cameraManager_ false)) (fun _ => Idle) E v := by
    intro v hv
    simp (disch := decide) only [Prog.call_bind, Prog.ret_bind, wlp_isSet, wlp_when, wlp_ignored,
      wlp_assign, Local.wlp_ret]
    split
    · exact fun _ => hv.setPtr (.inl rfl)
    · exact hv
  have hstop : v.setRunning false = v := h.stopped ▸ rfl
  show semantics.wlp (.call (.isSet .camera_) .ret >>= fun _ => _ >>= fun _ => _) _ _ _
  rw [Prog.call_bind, wlp_isSet, Prog.ret_bind, Local.wlp_bind, wlp_when]
  split
  · rw [Local.wlp_bind, wlp_stopCameraIfRunning ‹_›, hstop]
    simp (disch := decide) only [Prog.call_bind, Prog.ret_bind, wlp_ignored, wlp_assign, Local.wlp_ret]
    exact fun _ => hmanager _ (h.setPtr (.inr (.inl rfl)))
  · exact hmanager v h

/-- The operation ends idle, whether the camera is acquired again or not. -/
theorem wlp_reinitializeCamera {legacy : Bool} (h : v.Mode) :
    semantics.wlp (reinitializeCamera legacy) (fun _ => Idle) E v := by
  rw [reinitializeCamera, wlp_lockGuard]
  have hpaused : ∀ v : Members, v.Idle → semantics.wlp (do
      sys (.store .snapshotsPaused_ true)
      return false) (fun _ => Idle) E v := by
    intro v hv
    simp (disch := decide) only [Prog.call_bind, Prog.ret_bind, wlp_store, Prog.pure_eq_ret,
      Local.wlp_ret]
    exact hv.setFlag (.inr rfl)
  have hrest : ∀ v : Members, v.Idle → semantics.wlp (do
      releaseCamera legacy
      resetAllocator
      shutdownGstreamerPipeline
      if !(← acquireCamera) then
        sys (.store .snapshotsPaused_ true)
        return false
      sys (.store .isInitialized_ true)
      sys (.store .isVideoMode_ false)
      sys (.store .captureActive_ false)
      sys (.store .snapshotsPaused_ false)
      return true) (fun _ => Idle) Idle v := by
    intro v hv
    apply Local.wlp_bind_of (wlp_releaseCamera hv)
    intro _ v hv
    rw [Local.wlp_bind, wlp_resetAllocator, setPtr_self hv.allocator_, Local.wlp_bind,
      wlp_shutdownGstreamerPipeline, hv.pipeline.self, ite_self]
    apply Local.wlp_bind_of (wlp_acquireCamera (fun v p hp hv => hv.setPtr (hp.imp id .inl)) hv)
    rintro (_ | _) v hv
    · exact hpaused v hv
    · simp (disch := decide) only [Prog.call_bind, Prog.ret_bind, wlp_store, Prog.pure_eq_ret,
        Local.wlp_ret, Bool.not_true, Bool.false_eq_true, ↓reduceIte]
      have hdown := hv.toDown.setFlag (f := .isInitialized_) (b := true)
      exact ⟨hdown.setFlag.setFlag.setFlag, rfl, rfl, hv.shuttingDown_⟩
  have hboth : ∀ v : Members, v.Idle → semantics.wlp (Prog.tryCatch _ _) (fun _ => Idle) E v :=
    fun v hv => Local.wlp_tryCatch_of (hrest v hv) hpaused
  show semantics.wlp (.call (.load .isVideoMode_) .ret >>= fun _ => _ >>= fun _ => _) _ _ _
  rw [Prog.call_bind, wlp_load rfl, Prog.ret_bind, Local.wlp_bind, wlp_when]
  split
  · exact Local.wlp_mono (wlp_stopVideoModeUnlocked h) (fun _ => hboth) fun _ h => h
  · rename_i hoff
    rcases h with h | h
    · exact absurd h.isVideoMode_ hoff
    · exact hboth v h

/-- Every operation keeps the mode on or idle, and throws nothing. -/
theorem wlp_operate {legacy : Bool} (op : Operation) (h : v.Mode) :
    semantics.wlp (operate legacy op) (fun _ => Mode) E v := by
  cases op with
  | initializeCamera => exact wlp_initializeCamera h
  | takePicture => exact wlp_takePicture h
  | startVideoMode width height fps => exact wlp_startVideoMode h
  | stopVideoMode => exact Local.wlp_mono (wlp_stopVideoMode h) (fun _ _ => .inr) fun _ h => h
  | reinitializeCamera =>
    exact Local.wlp_mono (wlp_reinitializeCamera h) (fun _ _ => .inr) fun _ h => h

end

end Members

end SurfCam

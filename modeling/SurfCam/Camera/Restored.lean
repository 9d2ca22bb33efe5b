import SurfCam.Camera.Attempt

/-!
# After the failures

One caller whose calls have failed in any way, and fail no more: `reinitialize` brings the camera
back, and every operation after it does what it is for.
-/

namespace SurfCam

open Interaction CameraManager

/-- What an operation that succeeds makes of video mode. -/
def Operation.video : Operation → Bool → Bool
  | startVideoMode _ _ _, _ => true
  | initializeCamera, on => on
  | _, _ => false

/-- The operations one after the other. -/
def CameraManager.operateAll (legacy : Bool) : List Operation → Prog Sys (List Bool)
  | [] => return []
  | op :: ops => do
    let result ← operate legacy op
    return result :: (← operateAll legacy ops)

namespace Members

/-- The reply reports no failure. -/
@[simp] def good : (c : SysCall) → c.Reply → Bool
  | .makeCameraManager, r | .managerStart, r | .acquire, r | .configure _, r | .makeAllocator _, r
  | .allocate _, r | .addBuffer _, r | .queueRequest _, r | .pendingPush _, r | .connect _, r
  | .cameraStart, r | .mapPlane, r | .createDirectories, r | .setProperties _ _ _, r
  | .spawnGstThread, r | .openOutput, r => r = .ok
  | .pipelineNew, made | .elementFactoryMake _, made => made
  | .elementLinkMany, linked => linked
  | .setState .playing, changed => changed
  | .waitReacquire, completed => completed
  | .managerCameras, cameras => cameras.any (0 < ·)
  | .generateConfiguration _, .streams n => 0 < n
  | .generateConfiguration _, _ => false
  | .allocatorBuffers _, buffers => buffers.any (· ≠ [])
  | .createRequest, .request _ => true
  | .createRequest, _ => false
  | .planeCount, n => 0 < n
  | _, _ => true

/-- The members under the calls of one thread of operations, none of which fails. -/
def cooperative : Local Sys Members := semantics.given (· ≠ .undefinedBehaviour) good

/-- The members with no requirement on the calls. -/
def unchecked : Local Sys Members where
  step := step
  ok _ _ := True

theorem cooperative_eq :
    cooperative = unchecked.given (fun c => c ≠ SysCall.undefinedBehaviour) good := rfl

/-! ## The rules of the calls -/

section

variable {α β : Type} {Q : α → Members → Prop} {E : Members → Prop} {v : Members}

/-- A call with one outcome for each good reply. -/
theorem coop_call {c : SysCall} {k : c.Reply → Prog Sys α} {n : Members}
    (hu : c ≠ .undefinedBehaviour) (h : ∀ r, good c r = true → step c r v = some n) :
    cooperative.wlp (.call c k) Q E v ↔
      ∀ r, good c r = true → cooperative.wlp (k r) Q E n := by
  unfold cooperative
  rw [Local.wlp_given_call]
  constructor
  · exact fun hw r hr => hw.2 r hr n (h r hr)
  · intro hQ
    refine ⟨hu, fun r hr v' hs => ?_⟩
    cases (h r hr).symm.trans hs
    exact hQ r hr

theorem coop_ignored {c : SysCall} {k : c.Reply → Prog Sys α} (hu : c ≠ .undefinedBehaviour)
    (h : Ignores c = true) :
    cooperative.wlp (.call c k) Q E v ↔ ∀ r, good c r = true → cooperative.wlp (k r) Q E v :=
  coop_call hu fun r _ => step_of_ignores h r v

/-- A call that reads one of the members. -/
theorem coop_read {c : SysCall} {k : c.Reply → Prog Sys α} {a : c.Reply}
    (hu : c ≠ .undefinedBehaviour) (ha : good c a = true)
    (h : ∀ r v', step c r v = some v' ↔ r = a ∧ v' = v) :
    cooperative.wlp (.call c k) Q E v ↔ cooperative.wlp (k a) Q E v := by
  unfold cooperative
  rw [Local.wlp_given_call]
  constructor
  · exact fun hw => hw.2 a ha v ((h a v).mpr ⟨rfl, rfl⟩)
  · intro hQ
    refine ⟨hu, fun r _ v' hs => ?_⟩
    obtain ⟨rfl, rfl⟩ := (h r v').mp hs
    exact hQ

@[simp] theorem coop_isSet {p : Ptr} {k : Bool → Prog Sys α} :
    cooperative.wlp (.call (.isSet p) k) Q E v ↔ cooperative.wlp (k (v.ptr p)) Q E v :=
  coop_read (c := .isSet p) nofun rfl fun r v' => eq_of_guard r (v.ptr p) v'

@[simp] theorem coop_load {f : Flag} {k : Bool → Prog Sys α} (h : f.ofOperations = true) :
    cooperative.wlp (.call (.load f) k) Q E v ↔ cooperative.wlp (k (v.flag f)) Q E v := by
  apply coop_read (c := .load f) nofun rfl
  intro r v'
  rw [← eq_of_guard r (v.flag f) v']
  simp only [step, h, true_and, ne_eq, ite_not]

/-- A call that can only succeed. -/
theorem coop_succeeds {c : SysCall} {k : c.Reply → Prog Sys α} {a : c.Reply} {n : Members}
    (hu : c ≠ .undefinedBehaviour) (ha : ∀ r, good c r = true ↔ r = a) (h : step c a v = some n) :
    cooperative.wlp (.call c k) Q E v ↔ cooperative.wlp (k a) Q E n := by
  rw [coop_call hu fun r hr => (ha r).mp hr ▸ h]
  exact ⟨fun hw => hw a ((ha a).mpr rfl), fun hw r hr => (ha r).mp hr ▸ hw⟩

@[simp] theorem coop_store {f : Flag} {b : Bool} {k : Unit → Prog Sys α}
    (h : f.ofOperations = true) :
    cooperative.wlp (.call (.store f b) k) Q E v ↔ cooperative.wlp (k ()) Q E (v.setFlag f b) :=
  coop_succeeds (c := .store f b) nofun (fun _ => ⟨fun _ => rfl, fun _ => rfl⟩)
    (congrArg some (if_pos h))

@[simp] theorem coop_assign {p : Ptr} {b : Bool} {k : Unit → Prog Sys α} :
    cooperative.wlp (.call (.assign p b) k) Q E v ↔ cooperative.wlp (k ()) Q E (v.setPtr p b) :=
  coop_succeeds (c := .assign p b) nofun (fun _ => ⟨fun _ => rfl, fun _ => rfl⟩) rfl

@[simp] theorem coop_stopEnd {k : Unit → Prog Sys α} :
    cooperative.wlp (.call .stopEnd k) Q E v ↔ cooperative.wlp (k ()) Q E (v.setRunning false) :=
  coop_succeeds (c := .stopEnd) nofun (fun _ => ⟨fun _ => rfl, fun _ => rfl⟩) rfl

@[simp] theorem coop_cameraStart {k : Outcome → Prog Sys α} :
    cooperative.wlp (.call .cameraStart k) Q E v ↔
      cooperative.wlp (k .ok) Q E (v.setRunning true) :=
  coop_succeeds (c := .cameraStart) nofun (fun _ => decide_eq_true_iff) rfl

@[simp] theorem coop_connect {k : Outcome → Prog Sys α} :
    cooperative.wlp (.call (.connect .video) k) Q E v ↔
      cooperative.wlp (k .ok) Q E (v.setConnected true) :=
  coop_succeeds (c := .connect .video) nofun (fun _ => decide_eq_true_iff) rfl

@[simp] theorem coop_mainLoopNew {k : Unit → Prog Sys α} :
    cooperative.wlp (.call .mainLoopNew k) Q E v ↔ cooperative.wlp (k ()) Q E v :=
  coop_succeeds (c := .mainLoopNew) nofun (fun _ => ⟨fun _ => rfl, fun _ => rfl⟩) rfl

@[simp] theorem coop_pipelineNew {k : Bool → Prog Sys α} :
    cooperative.wlp (.call .pipelineNew k) Q E v ↔ cooperative.wlp (k true) Q E v :=
  coop_succeeds (c := .pipelineNew) nofun (fun _ => Iff.rfl) rfl

@[simp] theorem coop_spawnGstThread {k : Outcome → Prog Sys α} :
    cooperative.wlp (.call .spawnGstThread k) Q E v ↔
      cooperative.wlp (k .ok) Q E (v.setJoinable true) :=
  coop_succeeds (c := .spawnGstThread) nofun (fun _ => decide_eq_true_iff) rfl

@[simp] theorem coop_ite {c : Prop} [Decidable c] {p q : Prog Sys α} :
    cooperative.wlp (if c then p else q) Q E v ↔
      if c then cooperative.wlp p Q E v else cooperative.wlp q Q E v := by
  split <;> rfl

/-- A lock guard does not concern the members. -/
@[simp] theorem coop_lockGuard {m : Mutex} {p : Prog Sys α} :
    cooperative.wlp (lockGuard m p) Q E v ↔ cooperative.wlp p Q E v := by
  have hunlock : ∀ (P : Unit → Members → Prop) (F : Members → Prop) (v : Members),
      cooperative.wlp (sys (.unlock m)) P F v ↔ P () v := by
    intro P F v
    rw [coop_ignored (c := .unlock m) nofun rfl]
    exact ⟨fun h => h () rfl, fun h _ _ => h⟩
  show cooperative.wlp (.call (.lock m) fun _ => p.ensuring (sys (.unlock m))) Q E v ↔ _
  rw [coop_ignored (c := .lock m) nofun rfl, Local.wlp_ensuring]
  simp only [hunlock]
  exact ⟨fun h => h () rfl, fun h _ _ => h⟩

/-- A helper that throws nothing, and whose calls are none of undefined behaviour. -/
theorem coop_helper {p : Prog Sys α} (hp : p.Built (· ≠ SysCall.undefinedBehaviour) Prog.noParts)
    (hn : p.NoThrow) {f : α → Prog Sys β} {Q : β → Members → Prop}
    (hf : ∀ a w, cooperative.wlp (f a) Q E w) : cooperative.wlp (p >>= f) Q E v :=
  Local.wlp_bind_of (Local.wlp_given_of_built hp hn) fun a w _ => hf a w

/-! ## Acquiring the camera -/

theorem coop_acquireCamera {Q : Bool → Members → Prop}
    (h : Q true ((v.setPtr .cameraManager_ true).setPtr .camera_ true)) :
    cooperative.wlp acquireCamera Q E v := by
  simp (disch := exact of_decide_eq_true rfl) only [acquireCamera, Prog.call_bind, Prog.ret_bind,
    coop_ignored, good, decide_eq_true_eq, forall_eq, Outcome.orThrow, Outcome.check,
    Prog.pure_eq_ret, coop_assign]
  rintro (_ | _ | cameras) hcameras
  · cases hcameras
  · cases hcameras
  · simp (disch := exact of_decide_eq_true rfl) only [coop_assign, coop_ignored, good,
      decide_eq_true_eq, forall_eq, Local.wlp_ret, h]

/-! ## The way up -/

theorem coop_startPipeline {Q : Bool → Members → Prop} (hQ : ∀ w, Q true w) :
    cooperative.wlp startPipeline Q E v := by
  simp (disch := exact of_decide_eq_true rfl) only [startPipeline, Prog.call_bind, Prog.ret_bind,
    coop_ignored, coop_assign, coop_mainLoopNew, coop_spawnGstThread, good, forall_eq,
    Outcome.orThrow, Prog.pure_eq_ret, Local.wlp_ret, Bool.not_true, Bool.false_eq_true, ↓reduceIte,
    hQ, implies_true]

theorem coop_linkAndStart {width height fps : Nat} {Q : Bool → Members → Prop}
    (hQ : ∀ w, Q true w) : cooperative.wlp (linkAndStart width height fps) Q E v := by
  simp (disch := exact of_decide_eq_true rfl) only [linkAndStart, Prog.call_bind, Prog.ret_bind,
    coop_ignored, good, forall_eq, Outcome.orThrow, decide_eq_true_eq, Prog.pure_eq_ret,
    Bool.not_true, Bool.false_eq_true, ↓reduceIte, coop_startPipeline hQ, implies_true]

theorem coop_makeEncoder {Q : Bool → Members → Prop} (hQ : Q true v) :
    cooperative.wlp makeEncoder Q E v := by
  simp (disch := exact of_decide_eq_true rfl) only [makeEncoder, Prog.call_bind, Prog.ret_bind,
    coop_ignored, good, forall_eq, Prog.pure_eq_ret, ↓reduceIte, Local.wlp_ret, hQ]

theorem coop_makeHlssink {Q : Unit → Members → Prop} (hQ : Q () (v.setPtr .hlssink_ true)) :
    cooperative.wlp makeHlssink Q E v := by
  simp (disch := exact of_decide_eq_true rfl) only [makeHlssink, Prog.call_bind, Prog.ret_bind,
    coop_ignored, good, forall_eq, coop_assign, coop_isSet, ptr_setPtr, ↓reduceIte, Bool.not_true,
    Prog.when_false, Local.wlp_ret, hQ]

theorem coop_buildPipeline {width height fps : Nat} {Q : Bool → Members → Prop}
    (hQ : ∀ w, Q true w) : cooperative.wlp (buildPipeline width height fps) Q E v := by
  simp (disch := exact of_decide_eq_true rfl) only [buildPipeline, Prog.call_bind, Prog.ret_bind,
    coop_pipelineNew, coop_assign, coop_isSet, ptr_setPtr, ↓reduceIte, Bool.not_true,
    Bool.false_eq_true, coop_ignored, good, forall_eq, Local.wlp_bind]
  apply coop_makeEncoder
  simp (disch := exact of_decide_eq_true rfl) only [↓reduceIte, Bool.not_true, Bool.false_eq_true,
    coop_ignored, good, forall_eq, Local.wlp_bind]
  apply coop_makeHlssink
  simp only [coop_isSet, ptr_setPtr, ↓reduceIte, reduceCtorEq, Bool.not_true, Bool.or_false,
    Bool.false_eq_true]
  exact coop_linkAndStart hQ

theorem coop_initializeGstreamerPipeline {width height fps : Nat} {Q : Bool → Members → Prop}
    (hQ : ∀ w, Q true w) :
    cooperative.wlp (initializeGstreamerPipeline width height fps) Q E v := by
  rw [initializeGstreamerPipeline, Local.wlp_tryCatch]
  simp (disch := exact of_decide_eq_true rfl) only [Prog.call_bind, Prog.ret_bind, coop_ignored, good,
    decide_eq_true_eq, forall_eq, Outcome.orThrow, Prog.pure_eq_ret]
  exact coop_buildPipeline hQ

theorem coop_allocateStreams {Q : Bool → Members → Prop} (hQ : Q true v) (streams : Nat) :
    cooperative.wlp (allocateStreams streams) Q E v := by
  induction streams with
  | zero => exact hQ
  | succ streams ih =>
    simp (disch := exact of_decide_eq_true rfl) only [allocateStreams, Prog.call_bind,
      Prog.ret_bind, coop_ignored, good, decide_eq_true_eq, forall_eq, ih]

theorem coop_queueBuffer {legacy : Bool} {Q : Bool → Members → Prop} (hQ : Q true v) :
    cooperative.wlp (queueBuffer legacy) Q E v := by
  simp (disch := decide) only [queueBuffer, Prog.call_bind, Prog.ret_bind, coop_ignored]
  rintro (_ | request | _) hr
  · cases hr
  · simp (disch := exact of_decide_eq_true rfl) only [Local.wlp_ensuring, Local.wlp_bind,
      coop_ignored, coop_lockGuard, good, decide_eq_true_eq, forall_eq, Outcome.check,
      Outcome.orThrow, Prog.pure_eq_ret, Local.wlp_ret, Bool.not_true, Bool.false_eq_true,
      ↓reduceIte, hQ, implies_true]
  · cases hr

theorem coop_queueBuffers {legacy : Bool} {Q : Bool → Members → Prop} (hQ : Q true v)
    (videoBuffers : List Bool) : cooperative.wlp (queueBuffers legacy videoBuffers) Q E v := by
  induction videoBuffers with
  | nil => exact hQ
  | cons bufferHolder rest ih =>
    rw [queueBuffers, coop_ite, Local.wlp_bind]
    split
    · exact ih
    · exact coop_queueBuffer ih

theorem coop_startStreams {legacy : Bool} {streams width height fps : Nat}
    {Q : Bool → Members → Prop} (hQ : ∀ w, Q true w) :
    cooperative.wlp (startStreams legacy streams width height fps) Q E v := by
  have hslot : Prog.Built (· ≠ SysCall.undefinedBehaviour) Prog.noParts
      (disconnectVideoRequestSlot legacy) := built_dropSlot nofun
  simp (disch := exact of_decide_eq_true rfl) only [startStreams, Prog.call_bind, Prog.ret_bind,
    coop_ignored, good, decide_eq_true_eq, forall_eq, coop_assign, Outcome.orThrow,
    Prog.pure_eq_ret, Local.wlp_bind]
  apply coop_allocateStreams
  simp only [Bool.not_true, Bool.false_eq_true, ↓reduceIte, Local.wlp_bind]
  apply coop_initializeGstreamerPipeline
  intro w
  simp only [Bool.not_true, Bool.false_eq_true, ↓reduceIte]
  refine coop_helper hslot noThrow_disconnectVideoRequestSlot fun _ w => ?_
  simp (disch := exact of_decide_eq_true rfl) only [coop_connect, Prog.ret_bind, coop_assign,
    coop_cameraStart, Outcome.check, Prog.pure_eq_ret, Bool.not_true, Bool.false_eq_true,
    ↓reduceIte, coop_ignored]
  rintro (_ | videoBuffers) hbuffers
  · cases hbuffers
  · rw [Local.wlp_bind]
    apply coop_queueBuffers
    simp (disch := decide) only [Bool.not_true, Bool.false_eq_true, ↓reduceIte, coop_store,
      Local.wlp_ret, hQ]

theorem coop_configureVideo {legacy : Bool} {width height fps : Nat} {Q : Bool → Members → Prop}
    (hQ : ∀ w, Q true w) :
    cooperative.wlp (configureVideo legacy width height fps) Q E v := by
  simp (disch := decide) only [configureVideo, Prog.call_bind, Prog.ret_bind, coop_ignored]
  rintro (_ | (_ | streams) | _) hr
  · cases hr
  · cases hr
  · simp (disch := exact of_decide_eq_true rfl) only [coop_assign, coop_ignored, good,
      decide_eq_true_eq, forall_eq, Outcome.check, Prog.pure_eq_ret, Prog.ret_bind, Bool.not_true,
      Bool.false_eq_true, ↓reduceIte, coop_startStreams hQ]
  · cases hr

/-! ## Taking a picture -/

theorem coop_cameraStop {Q : Unit → Members → Prop} (hQ : ∀ w, Q () w) :
    cooperative.wlp cameraStop Q E v := by
  simp (disch := decide) only [cameraStop, Prog.call_bind, Prog.ret_bind, coop_ignored, coop_stopEnd,
    Local.wlp_ret, hQ, implies_true]

theorem coop_awaitCompletion {Q : Bool → Members → Prop} (hQ : Q true v) :
    cooperative.wlp awaitCompletion Q E v := by
  rw [awaitCompletion, coop_lockGuard]
  simp (disch := decide) only [waitForCompletion, Prog.call_bind, Prog.ret_bind, coop_ignored,
    Local.wlp_bind, coop_ite, good, forall_eq, Prog.pure_eq_ret, Local.wlp_ret, ↓reduceIte, hQ,
    ite_self, implies_true]

theorem coop_unmapIf {b : Bool} {Q : Unit → Members → Prop} (hQ : Q () v) :
    cooperative.wlp (Prog.when b (sys .unmapPlane)) Q E v := by
  cases b with
  | true => exact (coop_ignored (c := .unmapPlane) nofun rfl).mpr fun _ _ => hQ
  | false => exact hQ

theorem coop_saveImage {legacy : Bool} {Q : Bool → Members → Prop} (hQ : ∀ w, Q true w) :
    cooperative.wlp (saveImage legacy) Q E v := by
  have hsaved : cooperative.wlp (writeImage legacy) Q E v := by
    simp (disch := exact of_decide_eq_true rfl) only [writeImage, Prog.call_bind, Prog.ret_bind,
      coop_ignored, good, decide_eq_true_eq, forall_eq, Outcome.check, Prog.pure_eq_ret,
      Local.wlp_bind, Local.wlp_ensuring, Local.wlp_ret, Bool.not_true, Bool.false_eq_true,
      ↓reduceIte]
    exact fun _ _ _ _ => coop_unmapIf (coop_cameraStop fun w => coop_unmapIf (hQ w))
  cases legacy with
  | true => exact hsaved
  | false =>
    show cooperative.wlp (.call .planeCount fun planes => _) Q E v
    rw [coop_ignored (c := .planeCount) (by decide) rfl]
    intro planes hplanes
    cases planes with
    | zero => cases hplanes
    | succ _ => exact hsaved

theorem coop_capture {legacy : Bool} {request : Nat} {Q : Bool → Members → Prop}
    (hQ : ∀ w, Q true w) : cooperative.wlp (capture legacy request) Q E v := by
  simp (disch := exact of_decide_eq_true rfl) only [capture, Prog.call_bind, Prog.ret_bind,
    coop_cameraStart, coop_ignored, good, decide_eq_true_eq, forall_eq, Outcome.check,
    Prog.pure_eq_ret, Bool.not_true, Bool.false_eq_true, ↓reduceIte, Local.wlp_bind,
    Local.wlp_ret]
  intro _ _
  apply coop_awaitCompletion
  simp only [Bool.not_true, Bool.false_eq_true, ↓reduceIte]
  exact coop_saveImage hQ

theorem coop_photoRequest {legacy : Bool} {Q : Bool → Members → Prop} (hQ : ∀ w, Q true w) :
    cooperative.wlp (photoRequest legacy) Q E v := by
  simp (disch := decide) only [photoRequest, Prog.call_bind, Prog.ret_bind, coop_ignored]
  rintro (_ | request | _) hr
  · cases hr
  · simp (disch := exact of_decide_eq_true rfl) only [captureWith, Local.wlp_ensuring,
      Prog.call_bind, Prog.ret_bind, coop_ignored]
    rintro (_ | _ | _) hbuffers
    · cases hbuffers
    · cases hbuffers
    · simp (disch := exact of_decide_eq_true rfl) only [coop_ignored, good, decide_eq_true_eq,
        forall_eq, Outcome.check, Outcome.orThrow, Prog.pure_eq_ret, Prog.ret_bind, Bool.not_true,
        Bool.false_eq_true, ↓reduceIte, Local.wlp_ensuring]
      intro _ _
      apply coop_capture
      exact fun w _ _ _ _ => hQ w
  · cases hr

theorem coop_configurePhoto {legacy : Bool} {Q : Bool → Members → Prop} (hQ : ∀ w, Q true w) :
    cooperative.wlp (configurePhoto legacy) Q E v := by
  simp (disch := decide) only [configurePhoto, Prog.call_bind, Prog.ret_bind, coop_ignored]
  rintro (_ | (_ | streams) | _) hr
  · cases hr
  · cases hr
  · simp (disch := exact of_decide_eq_true rfl) only [coop_ignored, good, decide_eq_true_eq,
      forall_eq, Outcome.check, Outcome.orThrow, Prog.pure_eq_ret, Prog.ret_bind, Bool.not_true,
      Bool.false_eq_true, ↓reduceIte, Local.wlp_ensuring]
    exact coop_photoRequest fun w _ _ => hQ w
  · cases hr

/-! ## The camera at hand -/

/-- The camera has been acquired, and the snapshots are not paused. -/
structure Available (v : Members) : Prop where
  isInitialized_ : v.flag .isInitialized_ = true
  camera_ : v.ptr .camera_ = true
  snapshotsPaused_ : v.flag .snapshotsPaused_ = false

/-- The calls that leave the camera at hand. -/
def leavesCamera : SysCall → Bool
  | .store f _ | .exchange f _ => f ≠ .isInitialized_ ∧ f ≠ .snapshotsPaused_
  | .assign p _ => p ≠ .camera_
  | _ => true

theorem flag_of_step {c : SysCall} {r : c.Reply} {w : Members} {f : Flag}
    (h : step c r v = some w) (hf : ∀ value, c ≠ .store f value ∧ c ≠ .exchange f value) :
    w.flag f = v.flag f := by
  have hread : ∀ {P : Prop} [Decidable P], (if P then some v else none) = some w →
      w.flag f = v.flag f := by
    intro P _ hs
    split at hs <;> cases hs
    rfl
  have hwrite : ∀ {g : Flag} {value : Bool}, g ≠ f →
      (if g.ofOperations then v.setFlag g value else v).flag f = v.flag f := by
    intro g value hg
    split
    · exact Function.update_of_ne hg.symm ..
    · rfl
  cases c with
  | load g =>
    obtain ⟨-, hstep⟩ := Option.ite_none_left_eq_some.mp h
    rw [Option.some.inj hstep]
  | store g value =>
    cases h
    exact hwrite fun hg => (hf value).1 (hg ▸ rfl)
  | exchange g value =>
    cases h
    exact hwrite fun hg => (hf value).2 (hg ▸ rfl)
  | isSet p => exact hread h
  | cameraIsRunning => exact hread h
  | gstThreadJoinable => exact hread h
  | cameraStart => cases r <;> cases h <;> rfl
  | spawnGstThread => cases r <;> cases h <;> rfl
  | connect s => cases s <;> cases r <;> cases h <;> rfl
  | disconnect s => cases s <;> cases h <;> rfl
  | _ =>
    cases h
    rfl

theorem Available.step {c : SysCall} {r : c.Reply} {w : Members} (h : v.Available)
    (hc : leavesCamera c = true) (hs : step c r v = some w) : w.Available := by
  have hflag : ∀ f, f = .isInitialized_ ∨ f = .snapshotsPaused_ → w.flag f = v.flag f := by
    intro f hf
    apply flag_of_step hs
    intro value
    constructor <;> rintro rfl <;> rcases hf with rfl | rfl <;> cases hc
  refine ⟨(hflag _ (.inl rfl)).trans h.isInitialized_, ?_,
    (hflag _ (.inr rfl)).trans h.snapshotsPaused_⟩
  rw [ptr_of_step hs]
  cases c with
  | assign p value =>
    exact (Function.update_of_ne (of_decide_eq_true hc).symm ..).trans h.camera_
  | _ => exact h.camera_

theorem leavesCamera_of_modeCall {c : SysCall} (h : modeCall c = true) : leavesCamera c = true := by
  cases c with
  | store f value => cases f <;> first | rfl | (cases value <;> cases h)
  | exchange f value => cases h
  | assign p value => cases p <;> first | rfl | (cases value <;> cases h)
  | _ => rfl

/-- Code that leaves the camera at hand, beside what else is known of it. -/
theorem coop_kept {p : Prog Sys α} (hp : p.Built (fun c => leavesCamera c = true) Prog.noParts)
    (h : v.Available) (hw : cooperative.wlp p Q E v) :
    cooperative.wlp p (fun a w => w.Available ∧ Q a w) E v := by
  have hkept : unchecked.wlp p (fun _ => Available) Available v :=
    Local.wlp_of_built (fun c hc v hv => ⟨trivial, fun r w hs => hv.step hc hs⟩)
      (fun _ _ hx => hx.elim) hp h
  rw [cooperative_eq] at hw ⊢
  exact Local.wlp_mono (Local.wlp_given_and hkept hw) (fun _ _ h => h) fun _ h => h.2

/-- What holds of code with every reply. -/
theorem coop_and {p : Prog Sys α} {Q' : α → Members → Prop} {E' : Members → Prop}
    (h : semantics.wlp p Q' E' v) (hw : cooperative.wlp p Q E v) :
    cooperative.wlp p (fun a w => Q' a w ∧ Q a w) E v := by
  unfold cooperative at hw ⊢
  exact Local.wlp_mono (Local.wlp_given_and h hw) (fun _ _ h => h) fun _ h => h.2

/-! ## The operations -/

theorem built_defined_shutdown :
    Prog.Built (· ≠ SysCall.undefinedBehaviour) Prog.noParts shutdownGstreamerPipeline :=
  built_shutdownGstreamerPipeline (defined_of rfl) nofun nofun

theorem coop_stopVideoMode {legacy : Bool} {Q : Bool → Members → Prop} (hQ : ∀ w, Q true w) :
    cooperative.wlp (stopVideoMode legacy) Q E v := by
  have hreturns : (stopVideoMode legacy).Returns (· = true) := by
    refine .bind (Prog.NoThrow.call _) fun _ _ =>
      .ensuring (.bind (Prog.NoThrow.call _) fun on _ => ?_) (.call _)
    split
    · rfl
    · refine .tryCatch _ (.bind (Prog.NoThrow.call _) fun _ _ => .bind (Prog.NoThrow.call _)
        fun _ _ => .bind noThrow_teardown fun _ _ => ?_)
      exact .bind (Prog.NoThrow.call _) fun _ _ => .bind (Prog.NoThrow.call _) fun _ _ => rfl
  have hdefined : (stopVideoMode legacy).Built (· ≠ SysCall.undefinedBehaviour) Prog.noParts :=
    built_stopVideoMode (defined_of rfl) built_defined_shutdown
  have hw : cooperative.wlp (stopVideoMode legacy) (fun _ _ => True) (fun _ => True) v :=
    Local.wlp_given_of_built hdefined noThrow_stopVideoMode
  have htrue : cooperative.wlp (stopVideoMode legacy) (fun b _ => b = true ∧ True) E v :=
    Local.wlp_of_returns hreturns hw
  refine Local.wlp_mono htrue ?_ fun _ h => h
  rintro _ w ⟨rfl, -⟩
  exact hQ w

theorem coop_cameraReady {Q : Bool → Members → Prop} (h : v.Available) (hQ : Q true v) :
    cooperative.wlp cameraReady Q E v := by
  simp (disch := decide) only [cameraReady, Prog.call_bind, Prog.ret_bind, coop_load, coop_isSet,
    h.isInitialized_, h.camera_, Bool.not_true, Bool.false_eq_true, ↓reduceIte, Local.wlp_ret, hQ]

theorem coop_leaveVideoMode {legacy : Bool} {Q : Bool → Members → Prop} (h : v.Available)
    (hQ : ∀ w, Q true w) : cooperative.wlp (leaveVideoMode legacy) Q E v := by
  have hstop : cooperative.wlp (stopVideoModeUnlocked legacy)
      (fun _ w => w.Available ∧ True) E v := by
    refine coop_kept ?_ h (Local.wlp_given_of_built ?_ ?_)
    · exact built_stopVideoModeUnlocked
        (teardown_of_modeCall fun c => leavesCamera_of_modeCall)
        (built_shutdown fun c => leavesCamera_of_modeCall)
    · exact built_stopVideoModeUnlocked (defined_of rfl) built_defined_shutdown
    · exact .bind (.call _) fun _ => .bind noThrow_stopVideoMode fun _ => .call _
  simp (disch := decide) only [leaveVideoMode, Prog.call_bind, Prog.ret_bind, coop_load, coop_ite,
    Prog.pure_eq_ret, Local.wlp_ret, hQ]
  split
  · trivial
  · exact Local.wlp_bind_of hstop fun _ w hw => coop_cameraReady hw.1 (hQ w)

theorem coop_takePicture {legacy : Bool} {Q : Bool → Members → Prop} (h : v.Available)
    (hQ : ∀ w, Q true w) : cooperative.wlp (takePicture legacy) Q E v := by
  rw [takePicture, coop_lockGuard]
  simp (disch := decide) only [Prog.call_bind, Prog.ret_bind, coop_load, h.snapshotsPaused_,
    Bool.false_eq_true, ↓reduceIte, Local.wlp_bind]
  apply coop_cameraReady h
  simp only [Bool.not_true, Bool.false_eq_true, ↓reduceIte, Local.wlp_bind]
  apply coop_leaveVideoMode h
  intro w
  simp only [Bool.not_true, Bool.false_eq_true, ↓reduceIte, capturePhoto, Local.wlp_tryCatch]
  exact coop_configurePhoto hQ

theorem coop_startVideoMode {legacy : Bool} {width height fps : Nat} {Q : Bool → Members → Prop}
    (h : v.Available) (hQ : ∀ w, Q true w) :
    cooperative.wlp (startVideoMode legacy width height fps) Q E v := by
  rw [startVideoMode, coop_lockGuard, startVideoModeLocked, Local.wlp_bind]
  apply coop_cameraReady h
  simp only [Bool.not_true, Bool.false_eq_true, ↓reduceIte, Local.wlp_bind, Local.wlp_tryCatch]
  apply coop_leaveVideoMode h
  intro w
  simp only [Bool.not_true, Bool.false_eq_true, ↓reduceIte]
  exact coop_configureVideo hQ

theorem coop_initializeCamera {Q : Bool → Members → Prop} (hQ : ∀ w, w.Available → Q true w) :
    cooperative.wlp initializeCamera Q E v := by
  rw [initializeCamera, coop_lockGuard, Local.wlp_tryCatch, Local.wlp_bind]
  apply coop_acquireCamera
  simp (disch := decide) only [Bool.not_true, Bool.false_eq_true, ↓reduceIte, Prog.call_bind,
    Prog.ret_bind, coop_store, Prog.pure_eq_ret, Local.wlp_ret]
  exact hQ _ ⟨rfl, rfl, rfl⟩

theorem coop_reinitializeCamera {legacy : Bool} {Q : Bool → Members → Prop}
    (hQ : ∀ w, w.Available → Q true w) : cooperative.wlp (reinitializeCamera legacy) Q E v := by
  have hstop : ∀ on, Prog.Built (· ≠ SysCall.undefinedBehaviour) Prog.noParts
      (Prog.when on (stopVideoModeUnlocked legacy)) := fun on =>
    .when on (built_stopVideoModeUnlocked (defined_of rfl) built_defined_shutdown)
  have hstopped : ∀ on, (Prog.when on (stopVideoModeUnlocked legacy)).NoThrow := fun on =>
    .when on (.bind (.call _) fun _ => .bind noThrow_stopVideoMode fun _ => .call _)
  rw [reinitializeCamera, coop_lockGuard]
  simp (disch := decide) only [Prog.call_bind, Prog.ret_bind, coop_load]
  refine coop_helper (hstop _) (hstopped _) fun _ w => ?_
  rw [Local.wlp_tryCatch]
  refine coop_helper (built_releaseCamera (defined_of rfl) (built_stopCameraIfRunning
    (defined_of rfl))) noThrow_releaseCamera fun _ w => ?_
  refine coop_helper (built_resetAllocator (defined_of rfl)) noThrow_resetAllocator fun _ w => ?_
  refine coop_helper built_defined_shutdown noThrow_shutdownGstreamerPipeline fun _ w => ?_
  rw [Local.wlp_bind]
  apply coop_acquireCamera
  simp (disch := decide) only [Bool.not_true, Bool.false_eq_true, ↓reduceIte, coop_store,
    Prog.pure_eq_ret, Local.wlp_ret]
  exact hQ _ ⟨rfl, rfl, rfl⟩

/-! ## What the modes become -/

theorem started_iff {on : Bool} : Started on v ↔ v.Mode ∧ v.flag .isVideoMode_ = on := by
  constructor
  · intro h
    refine ⟨h.mode, ?_⟩
    cases on with
    | true => exact h.isVideoMode_
    | false => exact h.isVideoMode_
  · rintro ⟨hon | hidle, hv⟩
    · rw [← hv, hon.isVideoMode_]
      exact hon
    · rw [← hv, hidle.isVideoMode_]
      exact hidle

theorem wlp_initializeStarted {on : Bool} (h : Started on v) :
    semantics.wlp initializeCamera (fun _ => Started on) E v := by
  rw [initializeCamera, wlp_lockGuard, Local.wlp_tryCatch]
  have hacquire : semantics.wlp acquireCamera (fun _ => Started on) (Started on) v := by
    refine wlp_acquireCamera (fun w p hp hw => ?_) h
    obtain ⟨hmode, hv⟩ := started_iff.mp hw
    exact started_iff.mpr ⟨hmode.setPtr hp, hv⟩
  apply Local.wlp_bind_of hacquire
  rintro (_ | _) w hw
  · exact hw
  · obtain ⟨hmode, hv⟩ := started_iff.mp hw
    simp (disch := decide) only [Prog.call_bind, Prog.ret_bind, wlp_store, Prog.pure_eq_ret,
      Local.wlp_ret, Bool.not_true, Bool.false_eq_true, ↓reduceIte]
    exact started_iff.mpr ⟨(hmode.setFlag (.inl rfl)).setFlag (.inr rfl), hv⟩

theorem wlp_takeIdle {legacy : Bool} (h : v.Mode) (ha : v.Available) :
    semantics.wlp (takePicture legacy) (fun _ => Idle) E v := by
  rw [takePicture, wlp_lockGuard]
  simp (disch := decide) only [Prog.call_bind, Prog.ret_bind, wlp_load, ha.snapshotsPaused_,
    Bool.false_eq_true, ↓reduceIte]
  refine wlp_ready.mpr ?_
  rw [ha.isInitialized_, ha.camera_]
  refine Local.wlp_bind_of (wlp_leaveVideoMode h ha.camera_) fun left w hleft => ?_
  cases left with
  | false => exact hleft.1
  | true => exact wlp_capturePhoto hleft.1 (hleft.2 rfl)

theorem wlp_startStarted {legacy : Bool} {width height fps : Nat} (h : v.Mode) (ha : v.Available) :
    semantics.wlp (startVideoMode legacy width height fps) Started E v := by
  rw [startVideoMode, wlp_lockGuard, startVideoModeLocked]
  refine wlp_ready.mpr ?_
  rw [ha.isInitialized_, ha.camera_]
  exact wlp_startReady h ha.camera_

/-- The camera is at hand, and video mode is on or everything is idle. -/
structure Serves (on : Bool) (v : Members) : Prop extends v.Available where
  started : Started on v

/-- What is known of the modes, with a result of true and the camera at hand. -/
theorem coop_serves {p : Prog Sys Bool} {on : Bool}
    (hm : semantics.wlp p (fun b w => b = true → Started on w) (fun _ => True) v)
    (hw : cooperative.wlp p (fun b w => b = true ∧ w.Available) E v) :
    cooperative.wlp p (fun b w => b = true ∧ w.Serves on) E v := by
  refine Local.wlp_mono (coop_and hm hw) ?_ fun _ h => h
  rintro b w ⟨hstarted, hb, ha⟩
  exact ⟨hb, ha, hstarted hb⟩

/-- The same for code that leaves the camera at hand. -/
theorem coop_keeps {p : Prog Sys Bool} {on : Bool} (ha : v.Available)
    (hp : p.Built (fun c => leavesCamera c = true) Prog.noParts)
    (hm : semantics.wlp p (fun b w => b = true → Started on w) (fun _ => True) v)
    (hw : cooperative.wlp p (fun b _ => b = true) E v) :
    cooperative.wlp p (fun b w => b = true ∧ w.Serves on) E v := by
  refine coop_serves hm (Local.wlp_mono (coop_kept hp ha hw) ?_ fun _ h => h)
  exact fun b w h => ⟨h.2, h.1⟩

/-- `reinitialize` brings the camera back from either mode. -/
theorem coop_reinitialized {legacy : Bool} (h : v.Mode) :
    cooperative.wlp (reinitializeCamera legacy) (fun b w => b = true ∧ w.Serves false) E v :=
  coop_serves (Local.wlp_mono (wlp_reinitializeCamera h) (fun _ _ h _ => h) fun _ h => h)
    (coop_reinitializeCamera fun _ hw => ⟨rfl, hw⟩)

/-- Every operation returns true and does what it is for. -/
theorem coop_operate {legacy on : Bool} (op : Operation) (h : v.Serves on) :
    cooperative.wlp (operate legacy op) (fun b w => b = true ∧ w.Serves (op.video on)) E v := by
  have ha : v.Available := h.toAvailable
  have hm : v.Mode := h.started.mode
  have hleaves : ∀ c, modeCall c = true → leavesCamera c = true := fun c => leavesCamera_of_modeCall
  cases op with
  | initializeCamera =>
    apply coop_serves
    · exact Local.wlp_mono (wlp_initializeStarted h.started) (fun _ _ h _ => h) fun _ h => h
    · exact coop_initializeCamera fun _ hw => ⟨rfl, hw⟩
  | takePicture =>
    apply coop_keeps ha (built_photo hleaves)
    · exact Local.wlp_mono (wlp_takeIdle hm ha) (fun _ _ h _ => h) fun _ h => h
    · exact coop_takePicture ha fun _ => rfl
  | startVideoMode width height fps =>
    apply coop_keeps ha (built_start hleaves (built_pipeline hleaves rfl) width height fps)
    · apply Local.wlp_mono (wlp_startStarted hm ha) _ fun _ h => h
      rintro b w hs rfl
      exact hs
    · exact coop_startVideoMode ha fun _ => rfl
  | stopVideoMode =>
    apply coop_keeps ha (built_stop hleaves)
    · exact Local.wlp_mono (wlp_stopVideoMode hm) (fun _ _ h _ => h) fun _ h => h
    · exact coop_stopVideoMode fun _ => rfl
  | reinitializeCamera => exact coop_reinitialized hm

/-- The operations one after the other, by induction on their list. -/
theorem coop_operateAll {legacy on : Bool} (ops : List Operation) (h : v.Serves on) :
    cooperative.wlp (operateAll legacy ops)
      (fun results w => results = List.replicate ops.length true ∧
        w.Serves (ops.foldl (fun on op => op.video on) on)) E v := by
  induction ops generalizing v on with
  | nil => exact ⟨rfl, h⟩
  | cons op ops ih =>
    apply Local.wlp_bind_of (coop_operate op h)
    rintro b w ⟨rfl, hw⟩
    apply Local.wlp_bind_of (ih hw)
    rintro results w' ⟨rfl, hserves⟩
    exact ⟨rfl, hserves⟩

end

end Members

/-- Whatever has failed before: with `reinitialize` and no failure from then on, every operation
returns true, in any order, and video mode is on exactly when the last of them has switched it on. -/
theorem CameraManager.reinitialize_restores {legacy : Bool} {ops : List Operation} {v w : Members}
    {events : List (Event Sys)} {e : Front Sys (List Bool)} (hv : Members.Between legacy v)
    (h : Members.semantics.Leads (operateAll legacy (.reinitializeCamera :: ops)) v events e w)
    (hgood : ∀ ev ∈ events, Members.good ev.1 ev.2 = true)
    (hover : ∀ c, e = .calls c → c = .undefinedBehaviour) :
    e = .value (List.replicate (ops.length + 1) true) ∧
      w.Serves (ops.foldl (fun on op => op.video on) false) := by
  have hall : Members.cooperative.wlp (operateAll legacy (.reinitializeCamera :: ops))
      (fun results w => results = List.replicate (ops.length + 1) true ∧
        w.Serves (ops.foldl (fun on op => op.video on) false)) (fun _ => False) v := by
    apply Local.wlp_bind_of (Members.coop_reinitialized hv.mode)
    rintro b w ⟨rfl, hw⟩
    apply Local.wlp_bind_of (Members.coop_operateAll ops hw)
    rintro results w' ⟨rfl, hserves⟩
    exact ⟨rfl, hserves⟩
  have hpath : Members.cooperative.Leads (operateAll legacy (.reinitializeCamera :: ops)) v events
      e w := h.given hgood
  have hend := hpath.meets hall
  cases e with
  | value results => exact ⟨congrArg _ hend.1, hend.2⟩
  | exception => exact hend.elim
  | calls c => exact absurd (hover c rfl) hend

namespace Members

/-- The camera is not there any more, and the snapshots are paused. -/
def lost : Members where
  flag f := f = .isInitialized_ ∨ f = .snapshotsPaused_
  ptr p := p = .cameraManager_
  running := false
  connected := false
  joinable := false

/-- Libcamera finds no camera. -/
def unplugged (v : Members) : (c : SysCall) → Option c.Reply
  | .managerCameras => some (some 0)
  | c => replies [true] 1 v c

theorem between_lost : Between false lost := by
  have hfollow : ∃ x, (operate false .reinitializeCamera).follow semantics unplugged ready =
      some x ∧ x.2.1 = .value false ∧ x.2.2 = lost :=
    ⟨_, rfl, rfl, Members.ext (funext fun f => by cases f <;> rfl)
      (funext fun p => by cases p <;> rfl) rfl rfl rfl⟩
  obtain ⟨x, hx, hvalue, hlost⟩ := hfollow
  have hpath := leads_of_follow hx
  rw [hvalue, hlost] at hpath
  exact .after between_ready hpath

end Members

theorem CameraManager.reinitialize_restores_lost :
    ∃ (events : List (Event Sys)) (w : Members),
      Members.semantics.Leads
        (operateAll false [.reinitializeCamera, .takePicture, .startVideoMode 1280 720 30])
        .lost events (.value [true, true, true]) w ∧ w.On := by
  obtain ⟨events, e, w, hpath, htest⟩ := follow_reaches Members.semantics (Members.replies [true] 1)
    (operateAll false [.reinitializeCamera, .takePicture, .startVideoMode 1280 720 30]) .lost
    (fun x => x.2.1.result.isSome && x.1.all fun ev => Members.good ev.1 ev.2) (by decide +kernel)
  obtain ⟨hvalue, hall⟩ := Bool.and_eq_true_iff.mp htest
  obtain ⟨results, hresults⟩ := Option.isSome_iff_exists.mp hvalue
  have hover : ∀ c, e = .calls c → c = .undefinedBehaviour := by
    rintro c rfl
    cases hresults
  obtain ⟨rfl, hserves⟩ := CameraManager.reinitialize_restores Members.between_lost hpath
    (List.all_eq_true.mp hall) hover
  exact ⟨events, w, hpath, hserves.started⟩

end SurfCam

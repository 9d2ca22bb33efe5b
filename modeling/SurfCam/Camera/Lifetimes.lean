import SurfCam.Camera.Attempt

/-!
# Requests and the allocators of their buffers

Which requests are alive, where they are kept, and which allocator owns the buffer that was added to
them.  An allocator that is released while such a request is alive is released too early.
-/

namespace SurfCam

open Interaction CameraManager

def Operation.startsVideo : Operation → Bool
  | startVideoMode _ _ _ => true
  | _ => false

/-- A request is refused with an error return. -/
def refuses : (c : SysCall) → c.Reply → Bool
  | .queueRequest _, r => r = .failed
  | _, _ => false

/-- The requests that are alive and carry a buffer, each with the allocator that owns the buffer. -/
structure Holding where
  /-- `isVideoMode_` -/
  video : Bool
  /-- `allocator_` is set -/
  allocator : Bool
  /-- where the buffers at hand come from -/
  source : Allocator
  /-- those in a local variable -/
  loose : List (Nat × Allocator)
  /-- those in `pendingRequests_` -/
  pending : List (Nat × Allocator)
  /-- an allocator has been released before a request with one of its buffers -/
  early : Bool
  /-- a request has been refused -/
  refused : Bool

namespace Holding

/-- A request with a buffer of this allocator is alive. -/
def inUse (a : Allocator) (s : Holding) : Bool := (s.loose ++ s.pending).any fun x => x.2 = a

/-- The end of the life of a local variable. -/
def drop (request : Nat) (s : Holding) : Holding :=
  { s with loose := s.loose.filter fun x => x.1 ≠ request }

def see : (c : SysCall) → c.Reply → Holding → Holding
  | .store .isVideoMode_ value, _, s | .exchange .isVideoMode_ value, _, s =>
    { s with video := value }
  -- an assignment to a `unique_ptr` destroys what it held
  | .assign .allocator_ value, _, s =>
    { s with allocator := value, early := s.early || (s.allocator && s.inUse .video) }
  | .deleteAllocator, _, s => { s with early := s.early || s.inUse .photo }
  | .allocatorBuffers a, _, s => { s with source := a }
  | .addBuffer request, .ok, s => { s with loose := (request, s.source) :: s.loose }
  | .queueRequest request, r, s => { s with refused := s.refused || refuses (.queueRequest request) r }
  | .pendingPush request, .ok, s =>
    { s.drop request with pending := s.loose.filter (fun x => x.1 = request) ++ s.pending }
  | .dropRequest request, _, s => s.drop request
  | .pendingClear, _, s => { s with pending := [] }
  | _, _, s => s

def answers : (c : SysCall) → c.Reply → Holding → Bool
  | .load .isVideoMode_, r, s => r = s.video
  | _, _, _ => true

/-- Where undefined behaviour begins, no allocator has been released too early. -/
def semantics : Local Sys Holding where
  step c r s := if answers c r s then some (see c r s) else none
  ok c s := c = .undefinedBehaviour → s.early = false ∧ s.refused = false

/-- The calls that have nothing to do with the requests. -/
def still : SysCall → Bool
  | .load f => f ≠ .isVideoMode_
  | .store f _ | .exchange f _ => f ≠ .isVideoMode_
  | .assign p _ => p ≠ .allocator_
  | .deleteAllocator | .allocatorBuffers _ | .addBuffer _ | .queueRequest _ | .pendingPush _
  | .dropRequest _ | .pendingClear | .undefinedBehaviour => false
  | _ => true

theorem see_of_still {c : SysCall} (h : still c = true) (r : c.Reply) (s : Holding) :
    see c r s = s := by
  cases c with
  | store f value | exchange f value =>
    cases f with
    | isVideoMode_ => cases h
    | _ => rfl
  | assign p value =>
    cases p with
    | allocator_ => cases h
    | _ => rfl
  | deleteAllocator | allocatorBuffers | addBuffer | queueRequest | pendingPush | dropRequest
  | pendingClear => cases h
  | _ => rfl

section

variable {α β : Type} {Q : α → Holding → Prop} {E : Holding → Prop} {s : Holding}

theorem wlp_call_of {c : SysCall} {k : c.Reply → Prog Sys α}
    (hu : c = .undefinedBehaviour → s.early = false ∧ s.refused = false)
    (h : ∀ r, answers c r s = true → semantics.wlp (k r) Q E (see c r s)) :
    semantics.wlp (.call c k) Q E s := by
  refine ⟨hu, fun r s' hs => ?_⟩
  obtain ⟨ha, rfl⟩ := guarded_eq_some.mp hs
  exact h r ha

/-- Code that has nothing to do with the requests. -/
theorem wlp_still {p : Prog Sys α} (hp : p.Built (fun c => still c = true) Prog.noParts) :
    semantics.wlp p (fun _ x => x = s) (fun x => x = s) s := by
  refine Local.wlp_of_built (fun c hc x hx => ⟨?_, fun r x' hs => ?_⟩) (fun _ _ h => h.elim) hp rfl
  · rintro rfl
    cases hc
  · obtain ⟨-, rfl⟩ := guarded_eq_some.mp hs
    rw [see_of_still hc]
    exact hx

/-- The same where no exception comes from. -/
theorem wlp_calm {p : Prog Sys α} (hp : p.Built (fun c => still c = true) Prog.noParts)
    (hn : p.NoThrow) : semantics.wlp p (fun _ x => x = s) E s :=
  Local.wlp_mono (Local.wlp_of_returns hn (wlp_still hp)) (fun _ _ h => h.2) fun _ h => h

theorem wlp_part {p : Prog Sys β} {f : β → Prog Sys α}
    (hp : p.Built (fun c => still c = true) Prog.noParts) (hE : E s)
    (hf : ∀ b, semantics.wlp (f b) Q E s) : semantics.wlp (p >>= f) Q E s := by
  refine Local.wlp_bind_of_kept (wlp_still hp) ?_ ?_
  · rintro x rfl
    exact hE
  · rintro b x rfl
    exact hf b

theorem wlp_calmPart {p : Prog Sys β} {f : β → Prog Sys α}
    (hp : p.Built (fun c => still c = true) Prog.noParts) (hn : p.NoThrow)
    (hf : ∀ b, semantics.wlp (f b) Q E s) : semantics.wlp (p >>= f) Q E s := by
  refine Local.wlp_bind_of (wlp_calm hp hn) ?_
  rintro b x rfl
  exact hf b

theorem wlp_scope {p : Prog Sys α} {cleanup : Prog Sys Unit}
    (hc : cleanup.Built (fun c => still c = true) Prog.noParts) (hn : cleanup.NoThrow)
    (h : semantics.wlp p Q E s) : semantics.wlp (p.ensuring cleanup) Q E s := by
  refine Local.wlp_ensuring_of (fun P x hx => ?_) h
  refine Local.wlp_mono (wlp_calm hc hn) ?_ fun _ h => h
  rintro _ y rfl
  exact hx

theorem wlp_lockGuard {m : Mutex} {p : Prog Sys α} (h : semantics.wlp p Q E s) :
    semantics.wlp (lockGuard m p) Q E s :=
  wlp_calmPart (.call rfl) (.call _) fun _ => wlp_scope (.call rfl) (.call _) h

end

/-! ## Taking video mode down -/

/-- The kinds of calls that have nothing to do with the requests. -/
theorem still_of {calls : SysCall → Bool}
    (hrequest : ∀ request, calls (.addBuffer request) = false ∧ calls (.queueRequest request) = false ∧
      calls (.pendingPush request) = false ∧ calls (.dropRequest request) = false)
    (hother : ∀ c ∈ [SysCall.load .isVideoMode_, .store .isVideoMode_ true,
      .store .isVideoMode_ false, .exchange .isVideoMode_ true, .exchange .isVideoMode_ false,
      .assign .allocator_ true, .assign .allocator_ false, .deleteAllocator,
      .allocatorBuffers .photo, .allocatorBuffers .video, .pendingClear, .undefinedBehaviour],
      calls c = false) (c : SysCall) (hc : calls c = true) :
    still c = true := by
  have hne : ∀ c', calls c' = false → c ≠ c' := by
    rintro c' h rfl
    exact Bool.false_ne_true (h.symm.trans hc)
  cases c with
  | addBuffer request => exact absurd rfl (hne _ (hrequest request).1)
  | queueRequest request => exact absurd rfl (hne _ (hrequest request).2.1)
  | pendingPush request => exact absurd rfl (hne _ (hrequest request).2.2.1)
  | dropRequest request => exact absurd rfl (hne _ (hrequest request).2.2.2)
  | load f => cases f <;> first | rfl | exact absurd rfl (hne _ (hother _ (by decide)))
  | store f value | exchange f value =>
    cases f with
    | isVideoMode_ => cases value <;> exact absurd rfl (hne _ (hother _ (by decide)))
    | _ => rfl
  | assign p value =>
    cases p with
    | allocator_ => cases value <;> exact absurd rfl (hne _ (hother _ (by decide)))
    | _ => rfl
  | allocatorBuffers a => cases a <;> exact absurd rfl (hne _ (hother _ (by decide)))
  | deleteAllocator | pendingClear | undefinedBehaviour =>
    exact absurd rfl (hne _ (hother _ (by decide)))
  | _ => rfl

theorem built_shutdown :
    shutdownGstreamerPipeline.Built (fun c => still c = true) Prog.noParts :=
  built_shutdownGstreamerPipeline
    (still_of (fun _ => ⟨rfl, rfl, rfl, rfl⟩) (by decide)) rfl rfl

theorem built_cameraStop : cameraStop.Built (fun c => still c = true) Prog.noParts :=
  .bind (.call rfl) fun _ => .call rfl

section

variable {legacy : Bool}

theorem built_stopCamera :
    (stopCameraIfRunning legacy).Built (fun c => still c = true) Prog.noParts :=
  .bind (.call rfl) fun _ => .ite (.ret _) <| .ite built_cameraStop <|
    .bind (.call rfl) fun _ => .when _ built_cameraStop

theorem built_disconnect :
    (disconnectVideoRequestSlot legacy).Built (fun c => still c = true) Prog.noParts :=
  built_dropSlot (still_of (fun _ => ⟨rfl, rfl, rfl, rfl⟩) (by decide))

/-- Every teardown destroys the pending requests, and then the allocator. -/
def torn (s : Holding) : Holding := see (.assign .allocator_ false) () (see .pendingClear () s)

variable {α : Type} {Q : Unit → Holding → Prop} {E : Holding → Prop} {s : Holding}

theorem wlp_clearRequests (h : Q () (see .pendingClear () s)) :
    semantics.wlp clearRequests Q E s :=
  wlp_lockGuard (wlp_call_of nofun fun _ _ => h)

theorem wlp_resetAllocator (h : Q () (see (.assign .allocator_ false) () s)) :
    semantics.wlp resetAllocator Q E s :=
  wlp_lockGuard (wlp_call_of nofun fun _ _ => h)

theorem wlp_rollbackFailedVideoStart (h : Q () (torn s)) :
    semantics.wlp (rollbackFailedVideoStart legacy) Q E s := by
  refine wlp_lockGuard ?_
  refine wlp_calmPart built_disconnect noThrow_disconnectVideoRequestSlot fun _ => ?_
  refine wlp_calmPart built_stopCamera noThrow_stopCameraIfRunning fun _ => ?_
  refine (Local.wlp_bind _ _ _ _ _).mpr (wlp_clearRequests ?_)
  refine wlp_calmPart built_shutdown noThrow_shutdownGstreamerPipeline fun _ => ?_
  refine (Local.wlp_bind _ _ _ _ _).mpr (wlp_resetAllocator ?_)
  exact wlp_calmPart (.call rfl) (.call _) fun _ => wlp_call_of nofun fun _ _ => h

theorem wlp_teardown (h : Q () (torn s)) : semantics.wlp (teardown legacy) Q E s := by
  refine wlp_calmPart built_disconnect noThrow_disconnectVideoRequestSlot fun _ => ?_
  refine wlp_calmPart built_stopCamera noThrow_stopCameraIfRunning fun _ => ?_
  refine (Local.wlp_bind _ _ _ _ _).mpr (wlp_lockGuard ?_)
  refine (Local.wlp_bind _ _ _ _ _).mpr (wlp_clearRequests ?_)
  refine Local.wlp_mono (wlp_calm built_shutdown noThrow_shutdownGstreamerPipeline) ?_ fun _ h => h
  rintro _ x rfl
  exact wlp_resetAllocator h

end

/-- Between two operations the requests are those of video mode. -/
structure Rests (s : Holding) : Prop where
  loose : s.loose = []
  pending : s.video = false → s.pending = []

/-- A start of video mode may still fail: no request is in a local variable. -/
structure Begun (s : Holding) : Prop where
  loose : s.loose = []
  video : s.video = false
  early : s.early = false
  refused : s.refused = false

/-- There are no requests. -/
structure Fresh (s : Holding) : Prop extends Begun s where
  pending : s.pending = []

/-- The operation goes on with the allocator `allocator_`. -/
structure Loading (s : Holding) : Prop extends Begun s where
  allocator : s.allocator = true
  source : s.source = .video

/-- After a rollback no request is left, and one that has been refused has outlived the allocator. -/
structure RolledBack (s : Holding) : Prop where
  loose : s.loose = []
  pending : s.pending = []
  early : s.early = s.refused

section

variable {legacy : Bool} {s : Holding}

/-- With no request in a local variable, a teardown is in order. -/
theorem early_torn (h : s.loose = []) : s.torn.early = s.early := by
  show (s.early || (s.allocator && (s.loose ++ []).any fun x => x.2 = Allocator.video)) = s.early
  rw [h]
  exact (congrArg _ (Bool.and_false _)).trans (Bool.or_false _)

theorem Begun.torn (h : Begun s) : RolledBack s.torn :=
  ⟨h.loose, rfl, (early_torn h.loose).trans (h.early.trans h.refused.symm)⟩

theorem Rests.fresh (h : Rests s) (hv : s.video = false) (he : s.early = false)
    (hr : s.refused = false) : Fresh s :=
  ⟨⟨h.loose, hv, he, hr⟩, h.pending hv⟩

theorem fresh_torn (hl : s.loose = []) (he : s.early = false) (hr : s.refused = false) :
    Fresh { s.torn with video := false } :=
  ⟨⟨hl, rfl, (early_torn hl).trans he, hr⟩, rfl⟩

/-- A teardown that is repeated is in order, wherever the first one was left. -/
theorem wlp_bestEffort {E : Holding → Prop} (hl : s.loose = []) (he : s.early = false)
    (hr : s.refused = false) :
    semantics.wlp (bestEffortVideoTeardownWhileHoldingTeardownLock legacy) (fun _ => Fresh) E s := by
  refine wlp_calmPart (.call rfl) (.call _) fun _ => wlp_calmPart (.call rfl) (.call _) fun _ => ?_
  refine Local.wlp_bind_of (Q := fun _ x => x = s.torn) ?_ ?_
  · exact Local.wlp_tryCatch_of (F := fun _ => False) (wlp_teardown rfl) fun _ => False.elim
  · rintro _ x rfl
    exact wlp_call_of nofun fun _ _ => fresh_torn hl he hr

theorem wlp_stopVideoMode {E : Holding → Prop} (h : Rests s) (he : s.early = false)
    (hr : s.refused = false) :
    semantics.wlp (stopVideoMode legacy) (fun _ => Fresh) E s := by
  refine wlp_lockGuard (wlp_call_of nofun fun video hvideo => ?_)
  have hvideo : video = s.video := of_decide_eq_true hvideo
  cases video with
  | false => exact h.fresh hvideo.symm he hr
  | true =>
    refine Local.wlp_tryCatch_of
      (F := fun x => x.loose = [] ∧ x.early = false ∧ x.refused = false) ?_ fun x hx => ?_
    swap
    · refine Local.wlp_bind_of (wlp_bestEffort hx.1 hx.2.1 hx.2.2) fun _ x hx => ?_
      exact hx
    refine wlp_calmPart (.call rfl) (.call _) fun _ => wlp_calmPart (.call rfl) (.call _) fun _ => ?_
    refine (Local.wlp_bind _ _ _ _ _).mpr (wlp_teardown ?_)
    refine wlp_calmPart (.call rfl) (.call _) fun _ => wlp_call_of nofun fun _ _ => ?_
    exact fresh_torn h.loose he hr

theorem wlp_stopVideoModeUnlocked {E : Holding → Prop} (h : Rests s) (he : s.early = false)
    (hr : s.refused = false) :
    semantics.wlp (stopVideoModeUnlocked legacy) (fun _ => Fresh) E s := by
  refine wlp_calmPart (.call rfl) (.call _) fun _ => ?_
  refine Local.wlp_bind_of (wlp_stopVideoMode h he hr) fun _ s h => ?_
  exact wlp_call_of nofun fun _ _ => h

theorem noThrow_cameraReady : cameraReady.NoThrow := by
  refine .bind (.call _) fun initialized => ?_
  cases initialized with
  | false => trivial
  | true => exact .call _

/-- What both `startVideoMode` and `takePicture` begin with. -/
theorem wlp_leaveVideoMode {E : Holding → Prop} (h : Rests s) (he : s.early = false)
    (hr : s.refused = false) :
    semantics.wlp (leaveVideoMode legacy) (fun _ => Fresh) E s := by
  refine wlp_call_of nofun fun video hvideo => ?_
  have hvideo : video = s.video := of_decide_eq_true hvideo
  cases video with
  | false => exact h.fresh hvideo.symm he hr
  | true =>
    show semantics.wlp (stopVideoModeUnlocked legacy >>= fun _ => cameraReady) _ _ s
    refine Local.wlp_bind_of (wlp_stopVideoModeUnlocked h he hr) fun _ s h => ?_
    refine Local.wlp_mono (wlp_calm (built_cameraReady rfl rfl) noThrow_cameraReady) ?_ fun _ h => h
    rintro _ x rfl
    exact h

/-! ## startVideoMode -/

theorem wlp_rollbackUnlocked {Q : Bool → Holding → Prop} {E : Holding → Prop} (h : Q false s.torn) :
    semantics.wlp (rollbackUnlocked legacy) Q E s := by
  refine wlp_calmPart (.call rfl) (.call _) fun _ => ?_
  refine (Local.wlp_bind _ _ _ _ _).mpr (wlp_scope (.call rfl) (.call _) ?_)
  exact wlp_rollbackFailedVideoStart h

/-- The start goes on, or it has been rolled back. -/
def Going (b : Bool) (s : Holding) : Prop := if b then Loading s else RolledBack s

/-- The local variable of a request ends. -/
theorem wlp_dropped {request : Nat} {p : Prog Sys Bool} {Q : Bool → Holding → Prop}
    {E : Holding → Prop} (h : semantics.wlp p (fun b x => Q b (x.drop request))
      (fun x => E (x.drop request)) s) :
    semantics.wlp (p.ensuring (sys (.dropRequest request))) Q E s := by
  rw [Local.wlp_ensuring]
  exact Local.wlp_mono h (fun _ _ hq => wlp_call_of nofun fun _ _ => hq)
    fun _ he => wlp_call_of nofun fun _ _ => he

theorem drop_of_none (request : Nat) (h : s.loose = []) : s.drop request = s := by
  have hloose : s.loose.filter (fun x => x.1 ≠ request) = s.loose := by rw [h, List.filter_nil]
  rw [drop, hloose]

/-- A request with its first buffer. -/
def withBuffer (request : Nat) (s : Holding) : Holding :=
  { s with loose := (request, s.source) :: s.loose }

theorem filter_withBuffer (request : Nat) (h : s.loose = []) :
    ((request, s.source) :: s.loose).filter (fun x => x.1 ≠ request) = [] := by
  rw [h, List.filter_cons_of_neg (by simp), List.filter_nil]

theorem drop_withBuffer (request : Nat) (h : s.loose = []) :
    (s.withBuffer request).drop request = s := by
  show { s with loose := ((request, s.source) :: s.loose).filter fun x => x.1 ≠ request } = s
  rw [filter_withBuffer request h, ← h]

/-- A request that is refused outlives the allocator that owns its buffer: the rollback is run
inside the scope of its variable. -/
theorem rolledBack_refused (request : Nat) (h : Loading s) :
    RolledBack (({ s.withBuffer request with refused := true } : Holding).torn.drop request) := by
  refine ⟨filter_withBuffer request h.loose, rfl, ?_⟩
  show (s.early || (s.allocator && ((request, s.source) :: s.loose ++ []).any fun x =>
    x.2 = Allocator.video)) = true
  rw [h.allocator, h.source, h.loose, h.early]
  rfl

/-- The request moves from its variable into `pendingRequests_`. -/
theorem Loading.pushed (request : Nat) (h : Loading s) :
    Loading ((see (.pendingPush request) .ok (s.withBuffer request)).drop request) := by
  refine ⟨⟨?_, h.video, h.early, h.refused⟩, h.allocator, h.source⟩
  show (((request, s.source) :: s.loose).filter fun x => x.1 ≠ request).filter _ = []
  rw [filter_withBuffer request h.loose, List.filter_nil]

theorem wlp_queueBuffer (h : Loading s) :
    semantics.wlp (queueBuffer legacy) Going Begun s := by
  have hback : ∀ x, Begun x → semantics.wlp (rollbackUnlocked legacy) Going Begun x :=
    fun x hx => wlp_rollbackUnlocked hx.torn
  refine wlp_part (.call rfl) h.toBegun fun r => ?_
  cases r with
  | null => exact hback s h.toBegun
  | threw => exact h.toBegun
  | request request =>
  refine wlp_dropped (wlp_call_of nofun fun added _ => ?_)
  have hdrop : s.drop request = s := drop_of_none request h.loose
  cases added with
  | failed =>
    show semantics.wlp (rollbackUnlocked legacy) _ _ s
    refine wlp_rollbackUnlocked ?_
    have hnone : s.torn.drop request = s.torn := drop_of_none request h.loose
    rw [hnone]
    exact h.toBegun.torn
  | threw =>
    show Begun (s.drop request)
    rw [hdrop]
    exact h.toBegun
  | ok =>
  have hsame : Begun ((s.withBuffer request).drop request) := by
    rw [drop_withBuffer request h.loose]
    exact h.toBegun
  have hseen : ∀ r : Outcome, see (.queueRequest request) r (s.withBuffer request) =
      { s.withBuffer request with refused := s.refused || decide (r = .failed) } := fun _ => rfl
  refine wlp_call_of nofun fun r _ => ?_
  change semantics.wlp _ _ _ (see (.queueRequest request) r (s.withBuffer request))
  rw [hseen]
  cases r with
  | failed =>
    rw [decide_eq_true rfl, Bool.or_true]
    show semantics.wlp (rollbackUnlocked legacy) _ _ _
    exact wlp_rollbackUnlocked (rolledBack_refused request h)
  | threw =>
    rw [decide_eq_false (by decide), Bool.or_false]
    exact hsame
  | ok =>
    rw [decide_eq_false (by decide), Bool.or_false]
    show semantics.wlp (keepRequest request >>= fun _ => .ret true) _ _ (s.withBuffer request)
    refine (Local.wlp_bind _ _ _ _ _).mpr (wlp_lockGuard (wlp_call_of nofun fun kept _ => ?_))
    cases kept with
    | ok => exact h.pushed request
    | failed => exact hsame
    | threw => exact hsame

theorem wlp_queueBuffers (videoBuffers : List Bool) (h : Loading s) :
    semantics.wlp (queueBuffers legacy videoBuffers) Going Begun s := by
  induction videoBuffers generalizing s with
  | nil => exact h
  | cons bufferHolder rest ih =>
    rw [queueBuffers]
    cases bufferHolder with
    | false => exact ih h
    | true =>
      refine Local.wlp_bind_of (wlp_queueBuffer h) fun b s hgoing => ?_
      cases b with
      | true => exact ih hgoing
      | false => exact hgoing

theorem wlp_allocateStreams (streams : Nat) (h : Fresh s) (ha : s.allocator = true) :
    semantics.wlp (allocateStreams streams)
      (fun b x => if b then Fresh x ∧ x.allocator = true else RolledBack x) Begun s := by
  induction streams generalizing s with
  | zero => exact ⟨h, ha⟩
  | succ streams ih =>
    refine wlp_part (.call rfl) h.toBegun fun r => ?_
    cases r with
    | ok => exact ih h ha
    | threw => exact h.toBegun
    | failed =>
      refine (Local.wlp_bind _ _ _ _ _).mpr (wlp_resetAllocator ?_)
      have htorn : see (.assign .allocator_ false) () s = s.torn := by
        show _ = see (.assign .allocator_ false) () { s with pending := [] }
        rw [← h.pending]
      show RolledBack _
      rw [htorn]
      exact h.toBegun.torn

/-- A start ends in order, unless a request has been refused. -/
structure Ended (s : Holding) : Prop extends Rests s where
  early : s.early = s.refused

theorem RolledBack.ended (h : RolledBack s) : Ended s := ⟨⟨h.loose, fun _ => h.pending⟩, h.early⟩

theorem Fresh.ended (h : Fresh s) : Ended s :=
  ⟨⟨h.loose, fun _ => h.pending⟩, h.early.trans h.refused.symm⟩

theorem Fresh.inUse (h : Fresh s) (a : Allocator) : s.inUse a = false := by
  rw [Holding.inUse, h.loose, h.pending]
  rfl

/-- No request depends on what is assigned over. -/
theorem Fresh.assigned {value : Bool} (h : Fresh s) (r : Unit) :
    Fresh (see (.assign .allocator_ value) r s) := by
  refine ⟨⟨h.loose, h.video, ?_, h.refused⟩, h.pending⟩
  show (s.early || (s.allocator && s.inUse .video)) = false
  rw [h.early, h.inUse, Bool.and_false]
  rfl

theorem wlp_startStreams {streams width height fps : Nat} (h : Fresh s) :
    semantics.wlp (startStreams legacy streams width height fps) (fun _ => Ended) Begun s := by
  have hback : ∀ x, Begun x → semantics.wlp (rollbackUnlocked legacy) (fun _ => Ended) Begun x :=
    fun x hx => wlp_rollbackUnlocked hx.torn.ended
  refine wlp_part (.call rfl) h.toBegun fun made => ?_
  refine wlp_part (built_orThrow made) h.toBegun fun _ => ?_
  refine wlp_call_of nofun fun r _ => ?_
  show semantics.wlp (allocateStreams streams >>= _) _ _ _
  refine Local.wlp_bind_of (wlp_allocateStreams streams (h.assigned r) rfl)
    fun allocated s hallocated => ?_
  cases allocated with
  | false => exact RolledBack.ended hallocated
  | true =>
  obtain ⟨h, ha⟩ : Fresh s ∧ s.allocator = true := hallocated
  have hP : ∀ c, pipelineCall c = true → still c = true :=
    still_of (fun _ => ⟨rfl, rfl, rfl, rfl⟩) (by decide)
  refine wlp_part (built_initializeGstreamerPipeline hP built_shutdown
    (built_startPipeline hP built_shutdown rfl) width height fps) h.toBegun fun initialized => ?_
  cases initialized with
  | false => exact Local.wlp_bind_of (hback s h.toBegun) fun _ _ h => h
  | true =>
  refine wlp_part built_disconnect h.toBegun fun _ => ?_
  refine wlp_part (.call rfl) h.toBegun fun connected => ?_
  refine wlp_part (built_orThrow connected) h.toBegun fun _ => ?_
  refine wlp_part (.call rfl) h.toBegun fun _ => wlp_part (.call rfl) h.toBegun fun started => ?_
  refine wlp_part (built_check started) h.toBegun fun started => ?_
  cases started with
  | false => exact Local.wlp_bind_of (hback s h.toBegun) fun _ _ h => h
  | true =>
  refine wlp_call_of nofun fun buffers _ => ?_
  have hloading : Loading (see (.allocatorBuffers .video) buffers s) :=
    ⟨⟨h.loose, h.video, h.early, h.refused⟩, ha, rfl⟩
  cases buffers with
  | none => exact hloading.toBegun
  | some videoBuffers =>
  show semantics.wlp (queueBuffers legacy videoBuffers >>= _) _ _ _
  refine Local.wlp_bind_of (wlp_queueBuffers videoBuffers hloading) fun queued s hgoing => ?_
  cases queued with
  | false => exact RolledBack.ended hgoing
  | true =>
    have hgoing : Loading s := hgoing
    refine wlp_call_of nofun fun _ _ => wlp_call_of nofun fun _ _ => wlp_call_of nofun fun _ _ => ?_
    exact ⟨⟨hgoing.loose, nofun⟩, hgoing.early.trans hgoing.refused.symm⟩

theorem wlp_undefinedBehaviour {α : Type} {f : Empty → Prog Sys α} {Q : α → Holding → Prop}
    {E : Holding → Prop} (h : Begun s) : semantics.wlp (sys .undefinedBehaviour >>= f) Q E s :=
  wlp_call_of (fun _ => ⟨h.early, h.refused⟩) nofun

theorem wlp_configureVideo {width height fps : Nat} (h : Fresh s) :
    semantics.wlp (configureVideo legacy width height fps) (fun _ => Ended) Begun s := by
  refine wlp_part (.call rfl) h.toBegun fun r => ?_
  rcases r with _ | (_ | streams) | _
  · exact wlp_call_of nofun fun _ _ => wlp_undefinedBehaviour h.toBegun
  · exact wlp_call_of nofun fun _ _ => wlp_undefinedBehaviour h.toBegun
  · refine wlp_call_of nofun fun _ _ => ?_
    show semantics.wlp (sys (.configure ⟨width, height, .RGB888, 4⟩) >>= _) _ _ s
    refine wlp_part (.call rfl) h.toBegun fun configured => ?_
    refine wlp_part (built_check configured) h.toBegun fun configured => ?_
    cases configured with
    | false => exact h.ended
    | true => exact wlp_startStreams h
  · exact h.toBegun

theorem wlp_startVideoMode {E : Holding → Prop} {width height fps : Nat} (h : Rests s)
    (he : s.early = false) (hr : s.refused = false) :
    semantics.wlp (startVideoMode legacy width height fps) (fun _ => Ended) E s := by
  refine wlp_lockGuard (wlp_calmPart (built_cameraReady rfl rfl) noThrow_cameraReady fun ready => ?_)
  cases ready with
  | false => exact ⟨h, he.trans hr.symm⟩
  | true =>
  refine Local.wlp_tryCatch_of (F := Begun) ?_ fun x hx => wlp_rollbackUnlocked hx.torn.ended
  refine Local.wlp_bind_of (wlp_leaveVideoMode h he hr) fun left s h => ?_
  cases left with
  | false => exact h.ended
  | true => exact wlp_configureVideo h

/-! ## takePicture -/

/-- No request is left, and none has outlived its allocator. -/
structure Calm (s : Holding) : Prop where
  loose : s.loose = []
  pending : s.pending = []
  video : s.video = false
  early : s.early = false

theorem Fresh.calm (h : Fresh s) : Calm s := ⟨h.loose, h.pending, h.video, h.early⟩

theorem Calm.deleted (h : Calm s) : Calm (see .deleteAllocator () s) := by
  refine ⟨h.loose, h.pending, h.video, ?_⟩
  show (s.early || (s.loose ++ s.pending).any fun x => x.2 = Allocator.photo) = false
  rw [h.loose, h.pending, h.early]
  rfl

/-- The picture is written without a look at the requests. -/
theorem wlp_saveImage {Q : Bool → Holding → Prop} {E : Holding → Prop} (he : s.early = false)
    (hr : s.refused = false) (hQ : ∀ b, Q b s) (hE : E s) :
    semantics.wlp (saveImage legacy) Q E s := by
  have hbuilt : (saveImage legacy).Built (fun c => imageCall c = true) Prog.noParts :=
    built_saveImage fun _ h => h
  refine Local.wlp_mono (Local.wlp_of_built (A := fun x => x = s) ?_ (fun _ _ h => h.elim) hbuilt
    rfl) ?_ ?_
  · rintro c hc x rfl
    refine ⟨fun _ => ⟨he, hr⟩, fun r x' hs => ?_⟩
    obtain ⟨-, rfl⟩ := guarded_eq_some.mp hs
    cases c <;> first | rfl | cases hc
  · rintro b x rfl
    exact hQ b
  · rintro x rfl
    exact hE

/-- From the start of the camera on, with the request in its variable. -/
theorem wlp_capture {request : Nat} (hr : s.refused = false) (h : Calm (s.drop request)) :
    semantics.wlp (capture legacy request) (fun _ x => Calm (x.drop request))
      (fun x => Calm (x.drop request)) s := by
  refine wlp_part (.call rfl) h fun started => wlp_part (built_check started) h fun started => ?_
  cases started with
  | false => exact h
  | true =>
  refine wlp_part (.call rfl) h fun _ => wlp_call_of nofun fun queued _ => ?_
  have hqueued : Calm ((see (.queueRequest request) queued s).drop request) :=
    ⟨h.loose, h.pending, h.video, h.early⟩
  cases queued with
  | failed =>
    show semantics.wlp (cameraStop >>= fun _ => .ret false) _ _ _
    exact wlp_part built_cameraStop hqueued fun _ => hqueued
  | threw => exact hqueued
  | ok =>
  have hwait : awaitCompletion.Built (fun c => still c = true) Prog.noParts :=
    built_awaitCompletion (still_of (fun _ => ⟨rfl, rfl, rfl, rfl⟩) (by decide))
  show semantics.wlp (awaitCompletion >>= _) _ _ _
  refine wlp_part hwait hqueued fun completed => ?_
  cases completed with
  | false => exact hqueued
  | true => exact wlp_saveImage h.early ((Bool.or_false _).trans hr) (fun _ => hqueued) hqueued

theorem wlp_captureWith {request : Nat} (h : Fresh s) :
    semantics.wlp (captureWith legacy request) (fun _ x => Calm (x.drop request))
      (fun x => Calm (x.drop request)) s := by
  refine wlp_call_of nofun fun buffers _ => ?_
  have hfresh : Fresh (see (.allocatorBuffers .photo) buffers s) :=
    ⟨⟨h.loose, h.video, h.early, h.refused⟩, h.pending⟩
  have hcalm : Calm ((see (.allocatorBuffers .photo) buffers s).drop request) := by
    rw [drop_of_none request hfresh.loose]
    exact hfresh.calm
  rcases buffers with _ | (_ | ⟨holder, rest⟩)
  · exact hcalm
  · exact hcalm
  · refine wlp_call_of nofun fun added _ => ?_
    cases added with
    | failed => exact hcalm
    | threw => exact hcalm
    | ok =>
    have hadded : Calm (((see (.allocatorBuffers .photo) (some (holder :: rest)) s).withBuffer
        request).drop request) := by
      rw [drop_withBuffer request hfresh.loose]
      exact hfresh.calm
    show semantics.wlp (sys (.store .completed false) >>= _) _ _
      ((see (.allocatorBuffers .photo) (some (holder :: rest)) s).withBuffer request)
    refine wlp_part (.call rfl) hadded fun _ => wlp_part (.call rfl) hadded fun connected => ?_
    refine wlp_part (built_orThrow connected) hadded fun _ => ?_
    exact wlp_scope (.call rfl) (.call _) (wlp_capture hfresh.refused hadded)

theorem wlp_photoRequest (h : Fresh s) :
    semantics.wlp (photoRequest legacy) (fun _ => Calm) Calm s := by
  refine wlp_part (.call rfl) h.calm fun r => ?_
  cases r with
  | null => exact h.calm
  | threw => exact h.calm
  | request request => exact wlp_dropped (wlp_captureWith h)

/-- The request goes before the allocator. -/
theorem wlp_configurePhoto (h : Fresh s) :
    semantics.wlp (configurePhoto legacy) (fun _ => Calm) Calm s := by
  refine wlp_part (.call rfl) h.calm fun r => ?_
  rcases r with _ | (_ | streams) | _
  · exact wlp_undefinedBehaviour h.toBegun
  · exact wlp_undefinedBehaviour h.toBegun
  · show semantics.wlp (sys (.configure ⟨2592, 1944, .MJPEG, 1⟩) >>= _) _ _ s
    refine wlp_part (.call rfl) h.calm fun configured => ?_
    refine wlp_part (built_check configured) h.calm fun configured => ?_
    cases configured with
    | false => exact h.calm
    | true =>
    refine wlp_part (.call rfl) h.calm fun made => wlp_part (built_orThrow made) h.calm fun _ => ?_
    rw [Local.wlp_ensuring]
    refine Local.wlp_mono (Q := fun _ => Calm) (E := Calm) ?_
      (fun _ _ hx => wlp_call_of nofun fun _ _ => hx.deleted)
      fun _ hx => wlp_call_of nofun fun _ _ => hx.deleted
    refine wlp_part (.call rfl) h.calm fun allocated => ?_
    refine wlp_part (built_check allocated) h.calm fun allocated => ?_
    cases allocated with
    | false => exact h.calm
    | true => exact wlp_photoRequest h
  · exact h.calm

/-- An operation ends with no request released too late. -/
structure InOrder (s : Holding) : Prop extends Rests s where
  early : s.early = false

theorem Calm.inOrder (h : Calm s) : InOrder s := ⟨⟨h.loose, fun _ => h.pending⟩, h.early⟩

theorem wlp_takePicture {E : Holding → Prop} (h : Rests s) (he : s.early = false)
    (hr : s.refused = false) :
    semantics.wlp (takePicture legacy) (fun _ => InOrder) E s := by
  refine wlp_lockGuard (wlp_calmPart (.call rfl) (.call _) fun paused => ?_)
  cases paused with
  | true => exact ⟨h, he⟩
  | false =>
  refine wlp_calmPart (built_cameraReady rfl rfl) noThrow_cameraReady fun ready => ?_
  cases ready with
  | false => exact ⟨h, he⟩
  | true =>
  refine Local.wlp_bind_of (wlp_leaveVideoMode h he hr) fun left s h => ?_
  cases left with
  | false => exact h.calm.inOrder
  | true =>
  refine Local.wlp_tryCatch_of (Local.wlp_mono (wlp_configurePhoto h) (fun _ _ hx => hx.inOrder)
    fun _ hx => hx) fun x hx => ?_
  exact wlp_calmPart built_stopCamera noThrow_stopCameraIfRunning fun _ => hx.inOrder

/-! ## The other operations -/

theorem Fresh.inOrder (h : Fresh s) : InOrder s := h.calm.inOrder

theorem wlp_reinitializeCamera {E : Holding → Prop} (h : Rests s) (he : s.early = false)
    (hr : s.refused = false) :
    semantics.wlp (reinitializeCamera legacy) (fun _ => InOrder) E s := by
  refine wlp_lockGuard (wlp_call_of nofun fun video hvideo => ?_)
  have hvideo : video = s.video := of_decide_eq_true hvideo
  have hstop : semantics.wlp (Prog.when video (stopVideoModeUnlocked legacy)) (fun _ => Fresh) E s := by
    cases video with
    | false => exact h.fresh hvideo.symm he hr
    | true => exact wlp_stopVideoModeUnlocked h he hr
  show semantics.wlp (Prog.when video (stopVideoModeUnlocked legacy) >>= _) _ _ s
  refine Local.wlp_bind_of hstop fun _ s h => ?_
  have hpaused : ∀ {E : Holding → Prop} x, Fresh x → semantics.wlp (do
      sys (.store .snapshotsPaused_ true)
      return false) (fun _ => InOrder) E x :=
    fun x hx => wlp_call_of nofun fun _ _ => hx.inOrder
  have hA : ∀ c, acquireCall c = true → still c = true :=
    still_of (fun _ => ⟨rfl, rfl, rfl, rfl⟩) (by decide)
  refine Local.wlp_tryCatch_of (F := Fresh) ?_ hpaused
  refine wlp_part (built_releaseCamera hA built_stopCamera) h fun _ => ?_
  refine (Local.wlp_bind _ _ _ _ _).mpr (wlp_resetAllocator ?_)
  have h : Fresh (see (.assign .allocator_ false) () s) := h.assigned ()
  refine wlp_part built_shutdown h fun _ => wlp_part (built_acquireCamera hA) h fun acquired => ?_
  cases acquired with
  | false => exact hpaused _ h
  | true =>
    refine wlp_call_of nofun fun _ _ => wlp_call_of nofun fun _ _ => wlp_call_of nofun fun _ _ =>
      wlp_call_of nofun fun _ _ => ?_
    exact ⟨⟨h.loose, fun _ => h.pending⟩, h.early⟩

/-- How an operation leaves the requests. -/
structure After (op : Operation) (s : Holding) : Prop extends Rests s where
  early : s.early = (op.startsVideo && s.refused)

theorem wlp_operate (op : Operation) (h : Rests s) (he : s.early = false) (hr : s.refused = false) :
    semantics.wlp (operate legacy op) (fun _ => After op) (fun _ => True) s := by
  cases op with
  | initializeCamera =>
    have hA : ∀ c, acquireCall c = true → still c = true :=
      still_of (fun _ => ⟨rfl, rfl, rfl, rfl⟩) (by decide)
    refine Local.wlp_mono (wlp_still (built_initializeCamera hA rfl rfl rfl)) ?_ fun _ _ => trivial
    rintro _ x rfl
    exact ⟨h, he⟩
  | takePicture =>
    exact Local.wlp_mono (wlp_takePicture h he hr) (fun _ _ hx => ⟨hx.toRests, hx.early⟩)
      fun _ hx => hx
  | startVideoMode width height fps =>
    exact Local.wlp_mono (wlp_startVideoMode h he hr) (fun _ _ hx => ⟨hx.toRests, hx.early⟩)
      fun _ hx => hx
  | stopVideoMode =>
    exact Local.wlp_mono (wlp_stopVideoMode h he hr) (fun _ _ hx => ⟨hx.inOrder.toRests, hx.early⟩)
      fun _ hx => hx
  | reinitializeCamera =>
    exact Local.wlp_mono (wlp_reinitializeCamera h he hr) (fun _ _ hx => ⟨hx.toRests, hx.early⟩)
      fun _ hx => hx

end

end Holding

end SurfCam

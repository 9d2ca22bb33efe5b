import SurfCam.Camera.Serial
import SurfCam.Camera.SetUp

/-!
# What becomes of an attempt

`startVideoMode` and `takePicture` as attempts to get a request queued: after a reply that they do
not deal with they run into undefined behaviour or return true without a request, and after no other
one.
-/

namespace SurfCam

open Interaction CameraManager

/-- The guard at the beginning of such an operation. -/
def Operation.admits : Operation → Members → Bool
  | takePicture, v => !v.flag .snapshotsPaused_ && (v.flag .isInitialized_ && v.ptr .camera_)
  | _, v => v.flag .isInitialized_ && v.ptr .camera_

namespace Members

/-- The members that one caller can leave between two operations. -/
inductive Between (legacy : Bool) : Members → Prop where
  | initially : Between legacy World.init.members
  | after {op : Operation} {v w : Members} {events : List (Event Sys)} {result : Bool}
      (hv : Between legacy v)
      (h : semantics.Leads (operate legacy op) v events (.value result) w) : Between legacy w

theorem Between.mode {legacy : Bool} {v : Members} (h : Between legacy v) : v.Mode := by
  induction h with
  | initially => exact .inr Serial.idle_init
  | after _ h ih => exact h.meets (wlp_operate (E := fun _ => False) _ ih)

section

variable {legacy : Bool} {α : Type} {Q : α → Members → Prop} {E : Members → Prop} {v : Members}

theorem wlp_ready {f : Bool → Prog Sys α} :
    semantics.wlp (cameraReady >>= f) Q E v ↔
      semantics.wlp (f (v.flag .isInitialized_ && v.ptr .camera_)) Q E v := by
  simp (disch := decide) only [cameraReady, Prog.call_bind, Prog.ret_bind, Local.wlp_bind, wlp_load,
    wlp_ite, wlp_isSet, Prog.pure_eq_ret, Local.wlp_ret]
  cases v.flag .isInitialized_ <;> rfl

/-- An operation that is admitted and returns false has stopped the camera. -/
theorem wlp_admitted {op : Operation} (hop : op.setsUp = true) (h : v.Mode)
    (ha : op.admits v = true) :
    semantics.wlp (operate legacy op) (fun b w => b = false → w.running = false) E v := by
  cases op with
  | takePicture =>
    obtain ⟨hpaused, hready⟩ := Bool.and_eq_true_iff.mp ha
    have hc : v.ptr .camera_ = true := (Bool.and_eq_true_iff.mp hready).2
    show semantics.wlp (CameraManager.takePicture legacy) _ _ v
    rw [CameraManager.takePicture, wlp_lockGuard]
    simp (disch := decide) only [Prog.call_bind, Prog.ret_bind, wlp_load]
    rw [(Bool.not_eq_true' _).mp hpaused]
    refine wlp_ready.mpr ?_
    rw [hready]
    refine Local.wlp_bind_of (wlp_leaveVideoMode h hc) fun left w hleft => ?_
    cases left with
    | false => exact fun _ => hleft.1.stopped
    | true =>
      exact Local.wlp_mono (wlp_capturePhoto hleft.1 (hleft.2 rfl)) (fun _ _ h _ => h.stopped)
        fun _ h => h
  | startVideoMode width height fps =>
    have hc : v.ptr .camera_ = true := (Bool.and_eq_true_iff.mp ha).2
    show semantics.wlp (CameraManager.startVideoMode legacy width height fps) _ _ v
    rw [CameraManager.startVideoMode, wlp_lockGuard, startVideoModeLocked]
    refine wlp_ready.mpr ?_
    change (v.flag .isInitialized_ && v.ptr .camera_) = true at ha
    rw [ha]
    refine Local.wlp_mono (wlp_startReady h hc) (fun b w hs hb => ?_) fun _ h => h
    subst hb
    exact hs.stopped
  | _ => cases hop

end

/-! ## An operation that is not admitted -/

/-- The members, with undefined behaviour ruled out. -/
def defined : Local Sys Members where
  step := step
  ok c _ := c ≠ .undefinedBehaviour

section

variable {legacy : Bool} {α : Type} {Q : α → Members → Prop} {E : Members → Prop} {v : Members}

theorem leads_defined {p : Prog Sys α} {w : Members} {events : List (Event Sys)} {e : Front Sys α}
    (h : semantics.Leads p v events e w) : defined.Leads p v events e w := by
  induction h with
  | here p v => exact .here p v
  | call hs _ ih => exact .call hs ih

theorem load_of_step {f : Flag} {r : Bool} {v' : Members} (hf : f.ofOperations = true)
    (h : step (.load f) r v = some v') : r = v.flag f ∧ v' = v := by
  change (if f.ofOperations ∧ r ≠ v.flag f then none else some v) = some v' at h
  split at h
  · cases h
  · rename_i hr
    exact ⟨not_not.mp fun hne => hr ⟨hf, hne⟩, (Option.some.inj h).symm⟩

theorem defined_lockGuard {m : Mutex} {p : Prog Sys α} (h : defined.wlp p Q E v) :
    defined.wlp (lockGuard m p) Q E v := by
  have hunlock : ∀ (P : Members → Prop) v, P v →
      defined.wlp (sys (.unlock m)) (fun _ => P) E v := by
    refine fun P v hp => ⟨nofun, fun r v' hs => ?_⟩
    cases hs
    exact hp
  refine ⟨nofun, fun r v' hs => ?_⟩
  cases hs
  exact Local.wlp_ensuring_of hunlock h

theorem defined_notReady {f : Bool → Prog Sys α}
    (hready : (v.flag .isInitialized_ && v.ptr .camera_) = false)
    (h : defined.wlp (f false) Q E v) : defined.wlp (cameraReady >>= f) Q E v := by
  refine ⟨nofun, fun initialized v' hs => ?_⟩
  obtain ⟨hinitialized, rfl⟩ := load_of_step rfl hs
  cases initialized with
  | false => exact h
  | true =>
    refine ⟨nofun, fun camera v' hs => ?_⟩
    obtain ⟨hcamera, rfl⟩ := (eq_of_guard camera _ v').mp hs
    rw [← hinitialized, ← hcamera, Bool.true_and] at hready
    rw [hready]
    exact h

theorem defined_refused {op : Operation} (hop : op.setsUp = true) (ha : op.admits v = false) :
    defined.wlp (operate legacy op) (fun b w => b = false ∧ w = v) E v := by
  cases op with
  | takePicture =>
    refine defined_lockGuard ⟨nofun, fun paused v' hs => ?_⟩
    obtain ⟨hpaused, rfl⟩ := load_of_step rfl hs
    cases paused with
    | true => exact ⟨rfl, rfl⟩
    | false =>
      change (!v'.flag .snapshotsPaused_ && (v'.flag .isInitialized_ && v'.ptr .camera_)) = false
        at ha
      rw [← hpaused, Bool.not_false, Bool.true_and] at ha
      exact defined_notReady ha ⟨rfl, rfl⟩
  | startVideoMode width height fps => exact defined_lockGuard (defined_notReady ha ⟨rfl, rfl⟩)
  | _ => cases hop

end

/-! ## The replies along the way -/

theorem ptr_of_step {c : SysCall} {r : c.Reply} {v v' : Members} (h : step c r v = some v') :
    v'.ptr = SetUp.ptrAfter v.ptr c := by
  -- a reply that is read may be refused
  have hread : ∀ {P : Prop} [Decidable P], (if P then some v else none) = some v' →
      v'.ptr = v.ptr := by
    intro P _ hs
    split at hs <;> cases hs
    rfl
  cases c with
  | load f =>
    change (if f.ofOperations ∧ r ≠ v.flag f then none else some v) = some v' at h
    split at h <;> cases h
    rfl
  | store f value | exchange f value =>
    cases h
    split <;> rfl
  | isSet p => exact hread h
  | cameraIsRunning => exact hread h
  | gstThreadJoinable => exact hread h
  | cameraStart => cases r <;> cases h <;> rfl
  | spawnGstThread => cases r <;> cases h <;> rfl
  | connect s => cases s <;> cases r <;> cases h <;> rfl
  | disconnect s => cases s <;> cases h <;> rfl
  | _ =>
    cases h
    rfl

theorem answers_of_step {c : SysCall} {r : c.Reply} {v v' : Members} {s : SetUp}
    (h : step c r v = some v') (hs : s.ptr = v.ptr) : SetUp.answers c r s = true := by
  cases c with
  | isSet p =>
    obtain ⟨hr, -⟩ := (eq_of_guard r (v.ptr p) v').mp h
    exact decide_eq_true (hr.trans (congrFun hs p).symm)
  | _ => rfl

section

variable {legacy : Bool} {v w : Members} {events : List (Event Sys)} {e : Front Sys Bool}
  {p : Prog Sys Bool}

variable (legacy) in
/-- Along a path the replies that matter are known. -/
theorem leads_setUp (h : semantics.Leads p v events e w) :
    ∃ s, (SetUp.semantics legacy).Leads p ⟨v.ptr, false, false⟩ events e s ∧ s.ptr = w.ptr ∧
      s.queued = events.any (fun ev => queues ev.1 ev.2) ∧
      s.spoiled = events.any (fun ev => spoils ev.1 ev.2) := by
  obtain ⟨hpath, hptr⟩ := h.watched (M := SetUp.semantics legacy) (R := fun v s => s.ptr = v.ptr)
    (fun c r v v' s hs hstep => ⟨if_pos (answers_of_step hstep hs), by
      rw [ptr_of_step hstep, ← hs]
      rfl⟩) (o := ⟨v.ptr, false, false⟩) rfl
  exact ⟨_, hpath, hptr, observed_flag (fun _ _ _ => rfl) _ events,
    observed_flag (fun _ _ _ => rfl) _ events⟩

end

/-! ## What is expected -/

/-- The operation has ended, or has come to undefined behaviour. -/
def Over : Front Sys Bool → Prop
  | .calls c => c = .undefinedBehaviour
  | _ => True

/-- A request is queued and the operation returns true, or it returns false with the camera stopped,
and nothing is misused on the way. -/
structure Clean (legacy : Bool) (op : Operation) (v : Members) (events : List (Event Sys))
    (e : Front Sys Bool) (w : Members) : Prop where
  used : ∀ events' c w', events' <+: events →
    semantics.Leads (operate legacy op) v events' (.calls c) w' → ¬w'.Misused legacy c
  returned : (e = .value true ∧ ∃ ev ∈ events, queues ev.1 ev.2 = true) ∨
    (e = .value false ∧ w.running = false)

section

variable {legacy : Bool} {op : Operation} {v w : Members} {events : List (Event Sys)}
  {e : Front Sys Bool}

/-- Nothing is misused before a reply that spoils the operation. -/
theorem not_misused {c : SysCall} (hop : op.setsUp = true)
    (h : semantics.Leads (operate legacy op) v events (.calls c) w)
    (hr : ∀ ev ∈ events, spoils ev.1 ev.2 = false) : ¬w.Misused legacy c := by
  obtain ⟨s, hpath, hptr, -, hspoiled⟩ := leads_setUp legacy h
  obtain ⟨hundefined, hset⟩ := hpath.meets (SetUp.wlp_operate hop ⟨rfl, rfl⟩)
  rintro (hc | ⟨p, hp, hnull⟩)
  · obtain ⟨ev, hev, hspoils⟩ := List.any_eq_true.mp (hspoiled ▸ hundefined hc)
    exact Bool.false_ne_true ((hr ev hev).symm.trans hspoils)
  · rw [← hptr, hset p hp] at hnull
    cases hnull

theorem clean_iff (hop : op.setsUp = true) (hv : v.Mode) (ha : op.admits v = true)
    (h : semantics.Leads (operate legacy op) v events e w) (hover : Over e) :
    Clean legacy op v events e w ↔ ∀ ev ∈ events, spoils ev.1 ev.2 = false := by
  obtain ⟨s, hpath, -, hqueued, hspoiled⟩ := leads_setUp legacy h
  have hunspoiled : (∀ ev ∈ events, spoils ev.1 ev.2 = false) ↔ s.spoiled = false := by
    rw [hspoiled, List.any_eq_false]
    exact forall₂_congr fun _ _ => (Bool.not_eq_true _).symm.to_iff
  have hend := hpath.meets (SetUp.wlp_operate hop ⟨rfl, rfl⟩)
  have hstopped := h.meets (wlp_admitted (E := fun _ => False) hop hv ha)
  rw [hunspoiled]
  constructor
  · intro hclean
    rcases hclean.returned with ⟨rfl, hany⟩ | ⟨rfl, -⟩
    · have hqueue : s.queued = true := hqueued.trans (List.any_eq_true.mpr hany)
      exact hend.trans (by rw [hqueue]; rfl)
    · exact hend
  · intro hs
    refine ⟨fun events' c w' hfirst h' => not_misused hop h' fun ev hev => ?_, ?_⟩
    · exact hunspoiled.mpr hs ev (hfirst.subset hev)
    · cases e with
      | exception => exact hstopped.elim
      | calls c => exact absurd ((hend.1 hover).symm.trans hs) Bool.noConfusion
      | value b =>
        cases b with
        | false => exact .inr ⟨rfl, hstopped rfl⟩
        | true =>
          have hqueue : (!s.queued) = false := hend.symm.trans hs
          refine .inl ⟨rfl, List.any_eq_true.mp (hqueued.symm.trans ?_)⟩
          exact (Bool.not_eq_false' _).mp hqueue

end

end Members

/-- An attempt is clean if no reply on the way is one that spoils it, and only then; an operation
that is not admitted does nothing. -/
theorem CameraManager.attempt_clean_iff {legacy : Bool} {op : Operation} {v w : Members}
    {events : List (Event Sys)} {e : Front Sys Bool} (hop : op.setsUp = true)
    (hv : Members.Between legacy v)
    (h : Members.semantics.Leads (operate legacy op) v events e w) (hover : Members.Over e) :
    (op.admits v = true →
      (Members.Clean legacy op v events e w ↔ ∀ ev ∈ events, spoils ev.1 ev.2 = false)) ∧
    (op.admits v = false → e = .value false ∧ w = v) := by
  refine ⟨fun ha => Members.clean_iff hop hv.mode ha h hover, fun ha => ?_⟩
  have hrefused := (Members.leads_defined h).meets
    (Members.defined_refused (E := fun _ => False) hop ha)
  cases e with
  | value b => exact ⟨congrArg _ hrefused.1, hrefused.2⟩
  | exception => exact hrefused.elim
  | calls c => exact absurd hover hrefused

namespace Members

/-- A world with these members, for its replies. -/
def world (v : Members) : World :=
  { World.init with
    flag := v.flag
    ptr := v.ptr
    device := { Device.init with running := v.running, attached := fun _ => true }
    glib := { Glib.init with gstThread_ := if v.joinable then some 0 else none } }

/-- The camera has been acquired, and nothing else has been done. -/
def ready : Members where
  flag f := f = .isInitialized_
  ptr p := p = .cameraManager_ ∨ p = .camera_
  running := false
  connected := false
  joinable := false

/-- The replies when everything goes well, with so many planes and these buffers for the video. -/
def replies (videoBuffers : List Bool) (planes : Nat) (v : Members) : (c : SysCall) → Option c.Reply
  | .allocatorBuffers .video => some (some videoBuffers)
  | .planeCount => some planes
  | .waitReacquire => some true
  | c => v.world.willing .initializeCamera c

theorem between_ready : Between false ready := by
  have hfollow : ∃ x, (operate false .initializeCamera).follow semantics (replies [true] 1)
      World.init.members = some x ∧ x.2.1 = .value true ∧ x.2.2 = ready :=
    ⟨_, rfl, rfl, Members.ext (funext fun f => by cases f <;> rfl)
      (funext fun p => by cases p <;> rfl) rfl rfl rfl⟩
  obtain ⟨x, hx, hvalue, hready⟩ := hfollow
  have hpath := leads_of_follow hx
  rw [hvalue, hready] at hpath
  exact .after .initially hpath

/-- The operation has returned this result. -/
def returns (result : Bool) : Front Sys Bool → Bool
  | .value b => b == result
  | _ => false

theorem eq_of_returns {result : Bool} {e : Front Sys Bool} (h : returns result e = true) :
    e = .value result := by
  cases e with
  | value b => rw [eq_of_beq h]
  | _ => cases h

/-- The operation has come to undefined behaviour. -/
def undefined : Front Sys Bool → Bool
  | .calls c => c = .undefinedBehaviour
  | _ => false

theorem eq_of_undefined {e : Front Sys Bool} (h : undefined e = true) :
    e = .calls .undefinedBehaviour := by
  cases e with
  | calls c => rw [of_decide_eq_true h]
  | _ => cases h

end Members

theorem CameraManager.attempt_clean_when_willing :
    ∃ (events : List (Event Sys)) (w : Members),
      Members.semantics.Leads (operate false (.startVideoMode 1280 720 30)) .ready events
        (.value true) w ∧ (∀ ev ∈ events, spoils ev.1 ev.2 = false) ∧
        Members.Clean false (.startVideoMode 1280 720 30) .ready events (.value true) w := by
  obtain ⟨events, e, w, hpath, htest⟩ := follow_reaches Members.semantics (Members.replies [true] 1)
    (operate false (.startVideoMode 1280 720 30)) .ready
    (fun x => Members.returns true x.2.1 && x.1.all fun ev => !spoils ev.1 ev.2) (by decide +kernel)
  obtain ⟨hreturns, hall⟩ := Bool.and_eq_true_iff.mp htest
  obtain rfl := Members.eq_of_returns hreturns
  have hgood : ∀ ev ∈ events, spoils ev.1 ev.2 = false := fun ev hev =>
    (Bool.not_eq_true' _).mp (List.all_eq_true.mp hall ev hev)
  have hclean := CameraManager.attempt_clean_iff rfl Members.between_ready hpath trivial
  exact ⟨events, w, hpath, hgood, (hclean.1 rfl).mpr hgood⟩

/-- The camera allocates no buffer for the video: `startVideoMode` returns true and has queued
nothing.  The buffer of the picture has no plane: `takePicture` indexes an empty list. -/
theorem CameraManager.attempts_not_clean :
    (∃ (events : List (Event Sys)) (w : Members),
      Members.semantics.Leads (operate false (.startVideoMode 1280 720 30)) .ready events
        (.value true) w ∧ (∀ ev ∈ events, queues ev.1 ev.2 = false) ∧
      ¬Members.Clean false (.startVideoMode 1280 720 30) .ready events (.value true) w) ∧
    (∃ (events : List (Event Sys)) (w : Members),
      Members.semantics.Leads (operate false .takePicture) .ready events
        (.calls .undefinedBehaviour) w ∧
      ¬Members.Clean false .takePicture .ready events (.calls .undefinedBehaviour) w) := by
  constructor
  · obtain ⟨events, e, w, hpath, htest⟩ := follow_reaches Members.semantics (Members.replies [] 1)
      (operate false (.startVideoMode 1280 720 30)) .ready
      (fun x => Members.returns true x.2.1 && x.1.all fun ev => !queues ev.1 ev.2)
      (by decide +kernel)
    obtain ⟨hreturns, hall⟩ := Bool.and_eq_true_iff.mp htest
    obtain rfl := Members.eq_of_returns hreturns
    have hnone : ∀ ev ∈ events, queues ev.1 ev.2 = false := fun ev hev =>
      (Bool.not_eq_true' _).mp (List.all_eq_true.mp hall ev hev)
    refine ⟨events, w, hpath, hnone, fun hclean => ?_⟩
    rcases hclean.returned with ⟨-, ev, hev, hqueues⟩ | ⟨hfalse, -⟩
    · exact Bool.false_ne_true ((hnone ev hev).symm.trans hqueues)
    · cases hfalse
  · obtain ⟨events, e, w, hpath, htest⟩ := follow_reaches Members.semantics
      (Members.replies [true] 0) (operate false .takePicture) .ready
      (fun x => Members.undefined x.2.1) (by decide +kernel)
    obtain rfl := Members.eq_of_undefined htest
    refine ⟨events, w, hpath, fun hclean => ?_⟩
    rcases hclean.returned with ⟨hvalue, -⟩ | ⟨hvalue, -⟩ <;> cases hvalue

end SurfCam

import SurfCam.Camera.Footprint
import SurfCam.Camera.Modes
import SurfCam.Logic.Path

/-!
# Setting up the camera

`startVideoMode` and `takePicture`, whatever libcamera answers: which pointers they go through, and
what they have done when they return.
-/

namespace SurfCam

open Interaction CameraManager

/-- The operations that set the camera up. -/
def Operation.setsUp : Operation → Bool
  | takePicture | startVideoMode _ _ _ => true
  | _ => false

/-- The members that a call of the two operations goes through. -/
def SysCall.through (legacy : Bool) : SysCall → List Ptr
  | generateConfiguration _ | configure _ | createRequest | queueRequest _ | connect _
  | cameraStart | cameraIsRunning | stopBegin => [.camera_]
  | disconnect s => if legacy ∧ s = .video then [.camera_] else []
  -- the streams are those of the configuration
  | allocate a | allocatorBuffers a => if a = .video then [.allocator_, .currentConfig_] else []
  | _ => []

/-- A null pointer is dereferenced, or an empty list indexed. -/
def Members.Misused (legacy : Bool) (v : Members) (c : SysCall) : Prop :=
  c = .undefinedBehaviour ∨ ∃ p ∈ c.through legacy, v.ptr p = false

/-- The replies that the operations do not deal with: a configuration that is null or has no stream,
a buffer without planes, and no buffer to queue for a video. -/
def spoils : (c : SysCall) → c.Reply → Bool
  | .generateConfiguration _, r => r = .null ∨ r = .streams 0
  | .planeCount, planes => planes = 0
  | .allocatorBuffers .video, some videoBuffers => !videoBuffers.any id
  | _, _ => false

/-- A request is queued. -/
def queues : (c : SysCall) → c.Reply → Bool
  | .queueRequest _, r => r = .ok
  | _, _ => false

/-- The pointers, and what an operation has seen of the replies. -/
structure SetUp where
  ptr : Ptr → Bool
  queued : Bool
  spoiled : Bool

namespace SetUp

def ptrAfter (ptr : Ptr → Bool) : SysCall → Ptr → Bool
  | .assign p value => Function.update ptr p value
  | _ => ptr

def see (c : SysCall) (r : c.Reply) (s : SetUp) : SetUp where
  ptr := ptrAfter s.ptr c
  queued := s.queued || queues c r
  spoiled := s.spoiled || spoils c r

def answers : (c : SysCall) → c.Reply → SetUp → Bool
  | .isSet p, r, s => r = s.ptr p
  | _, _, _ => true

/-- The operations may misuse something after a reply that spoils them, and not before. -/
def semantics (legacy : Bool) : Local Sys SetUp where
  step c r s := if answers c r s then some (see c r s) else none
  ok c s := (c = .undefinedBehaviour → s.spoiled = true) ∧
    ∀ p ∈ c.through legacy, s.ptr p = true

/-- The calls that need the camera at most, and that change nothing here. -/
def quiet : SysCall → Bool
  | .assign _ _ | .queueRequest _ | .generateConfiguration _ | .planeCount | .undefinedBehaviour =>
    false
  | .allocate a | .allocatorBuffers a => a ≠ .video
  | _ => true

theorem see_of_quiet {c : SysCall} (h : quiet c = true) (r : c.Reply) (s : SetUp) :
    see c r s = s := by
  have hspoils : spoils c r = false := by
    cases c with
    | generateConfiguration => cases h
    | planeCount => cases h
    | allocatorBuffers a =>
      cases a with
      | photo => rfl
      | video => cases h
    | _ => rfl
  have hqueues : queues c r = false := by
    cases c with
    | queueRequest => cases h
    | _ => rfl
  have hptr : ptrAfter s.ptr c = s.ptr := by
    cases c with
    | assign => cases h
    | _ => rfl
  rw [see, hptr, hspoils, hqueues, Bool.or_false, Bool.or_false]

theorem through_of_quiet {legacy : Bool} {c : SysCall} (h : quiet c = true) :
    ∀ p ∈ c.through legacy, p = .camera_ := by
  intro p hp
  cases c with
  | allocate a =>
    cases a with
    | photo => cases hp
    | video => cases h
  | allocatorBuffers a =>
    cases a with
    | photo => cases hp
    | video => cases h
  | disconnect s =>
    simp only [SysCall.through] at hp
    split at hp
    · exact List.mem_singleton.mp hp
    · cases hp
  | generateConfiguration | configure | createRequest | queueRequest | connect | cameraStart
  | cameraIsRunning | stopBegin => exact List.mem_singleton.mp hp
  | _ => cases hp

section

variable {legacy : Bool} {s : SetUp} {α : Type} {Q : α → SetUp → Prop} {E : SetUp → Prop}

theorem wlp_call_of {c : SysCall} {k : c.Reply → Prog Sys α}
    (hu : c = .undefinedBehaviour → s.spoiled = true)
    (ht : ∀ p ∈ c.through legacy, s.ptr p = true)
    (h : ∀ r, answers c r s = true → (semantics legacy).wlp (k r) Q E (see c r s)) :
    (semantics legacy).wlp (.call c k) Q E s := by
  refine ⟨⟨hu, ht⟩, fun r s' hs => ?_⟩
  obtain ⟨ha, rfl⟩ := guarded_eq_some.mp hs
  exact h r ha

/-- A quiet call, of a camera that is there. -/
theorem wlp_quiet {c : SysCall} {k : c.Reply → Prog Sys α} (hq : quiet c = true)
    (hc : s.ptr .camera_ = true ∨ c.through legacy = [])
    (h : ∀ r, answers c r s = true → (semantics legacy).wlp (k r) Q E s) :
    (semantics legacy).wlp (.call c k) Q E s := by
  refine wlp_call_of ?_ ?_ fun r ha => ?_
  · rintro rfl
    cases hq
  · intro p hp
    cases hc with
    | inl hc =>
      rw [through_of_quiet hq p hp]
      exact hc
    | inr hnone =>
      rw [hnone] at hp
      cases hp
  · rw [see_of_quiet hq]
    exact h r ha

/-- A lock guard does not concern the set-up. -/
theorem wlp_lockGuard {m : Mutex} {p : Prog Sys α} (h : (semantics legacy).wlp p Q E s) :
    (semantics legacy).wlp (lockGuard m p) Q E s := by
  refine wlp_quiet rfl (.inr rfl) fun _ _ => ?_
  exact Local.wlp_ensuring_of (fun P s hp => wlp_quiet rfl (.inr rfl) fun _ _ => hp) h

theorem wlp_cameraReady {Q : Bool → SetUp → Prop}
    (hQ : ∀ b, (b = true → s.ptr .camera_ = true) → Q b s) :
    (semantics legacy).wlp cameraReady Q E s := by
  refine wlp_quiet rfl (.inr rfl) fun initialized _ => ?_
  cases initialized with
  | false => exact hQ false nofun
  | true =>
    refine wlp_quiet rfl (.inr rfl) fun set hset => hQ set fun h => ?_
    exact (of_decide_eq_true hset).symm.trans h

end

/-- The pointers in `l` are set, and so much has been seen of the replies. -/
structure Kept (l : List Ptr) (queued spoiled : Bool) (s : SetUp) : Prop where
  ptr : ∀ p ∈ l, s.ptr p = true
  queued : s.queued = queued
  spoiled : s.spoiled = spoiled

/-- The calls that leave the pointers in `l` alone. -/
def keeps (l : List Ptr) : SysCall → Bool
  | .assign p _ => p ∉ l
  | c => quiet c

theorem quiet_or_assign {l : List Ptr} {c : SysCall} (h : keeps l c = true) :
    quiet c = true ∨ ∃ p value, c = .assign p value ∧ p ∉ l := by
  cases c with
  | assign p value => exact .inr ⟨p, value, rfl, of_decide_eq_true h⟩
  | _ => exact .inl h

section

variable {legacy : Bool} {s : SetUp} {α : Type} {Q : α → SetUp → Prop} {E : SetUp → Prop}
  {l : List Ptr} {queued spoiled : Bool}

theorem Kept.mono {l' : List Ptr} (h : Kept l queued spoiled s) (hl : ∀ p ∈ l', p ∈ l) :
    Kept l' queued spoiled s :=
  ⟨fun p hp => h.ptr p (hl p hp), h.queued, h.spoiled⟩

theorem Kept.camera (h : Kept (.camera_ :: l) queued spoiled s) : s.ptr .camera_ = true :=
  h.ptr .camera_ List.mem_cons_self

/-- An assignment to a pointer that is set besides those of the list. -/
theorem Kept.assign {p : Ptr} {value : Bool} (h : Kept l queued spoiled s) (hp : p ∉ l) (r : Unit) :
    Kept l queued spoiled (see (.assign p value) r s) := by
  refine ⟨fun q hq => ?_, ?_, ?_⟩
  · show Function.update s.ptr p value q = true
    rw [Function.update_of_ne (ne_of_mem_of_not_mem hq hp)]
    exact h.ptr q hq
  · exact (Bool.or_false _).trans h.queued
  · exact (Bool.or_false _).trans h.spoiled

theorem Kept.assign_spoiled {p : Ptr} {value : Bool} (h : Kept l queued spoiled s) (r : Unit) :
    (see (.assign p value) r s).spoiled = spoiled :=
  (Bool.or_false _).trans h.spoiled

theorem Kept.assign_true {p : Ptr} (h : Kept l queued spoiled s) (hp : p ∉ l) (r : Unit) :
    Kept (l ++ [p]) queued spoiled (see (.assign p true) r s) := by
  have hkept : Kept l queued spoiled (see (.assign p true) r s) := h.assign hp r
  refine ⟨fun q hq => ?_, hkept.queued, hkept.spoiled⟩
  cases List.mem_append.mp hq with
  | inl hq => exact hkept.ptr q hq
  | inr hq =>
    rw [List.mem_singleton.mp hq]
    exact Function.update_self ..

theorem Kept.keeps {c : SysCall} (h : Kept (.camera_ :: l) queued spoiled s)
    (hc : SetUp.keeps (.camera_ :: l) c = true) (r : c.Reply) :
    Kept (.camera_ :: l) queued spoiled (see c r s) := by
  rcases quiet_or_assign hc with hquiet | ⟨p, value, rfl, hp⟩
  · rw [see_of_quiet hquiet]
    exact h
  · exact h.assign hp r

/-- Code that leaves the pointers alone, with its calls of a camera that is there. -/
theorem wlp_kept {p : Prog Sys α} (hp : p.Built (fun c => keeps (.camera_ :: l) c = true) Prog.noParts)
    (h : Kept (.camera_ :: l) queued spoiled s) :
    (semantics legacy).wlp p (fun _ => Kept (.camera_ :: l) queued spoiled)
      (Kept (.camera_ :: l) queued spoiled) s := by
  refine Local.wlp_of_built (fun c hkeeps s hs => ?_) (fun _ _ hx => hx.elim) hp h
  refine ⟨⟨?_, ?_⟩, fun r s' hstep => ?_⟩
  · rintro rfl
    cases hkeeps
  · intro q hq
    rcases quiet_or_assign hkeeps with hquiet | ⟨p, value, rfl, -⟩
    · rw [through_of_quiet hquiet q hq]
      exact hs.camera
    · cases hq
  · obtain ⟨-, rfl⟩ := guarded_eq_some.mp hstep
    exact hs.keeps hkeeps r

theorem wlp_part {β : Type} {p : Prog Sys β} {f : β → Prog Sys α}
    (hp : p.Built (fun c => keeps (.camera_ :: l) c = true) Prog.noParts)
    (h : Kept (.camera_ :: l) queued spoiled s)
    (hE : ∀ s, Kept (.camera_ :: l) queued spoiled s → E s)
    (hf : ∀ b s, Kept (.camera_ :: l) queued spoiled s → (semantics legacy).wlp (f b) Q E s) :
    (semantics legacy).wlp (p >>= f) Q E s :=
  Local.wlp_bind_of_kept (wlp_kept hp h) hE hf

/-- The kinds of calls that leave the pointers in `l` alone. -/
theorem keeps_of {calls : SysCall → Bool}
    (hassign : ∀ p ∈ l, ∀ value, calls (.assign p value) = false)
    (hqueue : ∀ request, calls (.queueRequest request) = false)
    (hother : ∀ c ∈ [SysCall.generateConfiguration .photo, .generateConfiguration .video,
      .planeCount, .undefinedBehaviour, .allocate .video, .allocatorBuffers .video], calls c = false)
    (c : SysCall) (hc : calls c = true) : keeps l c = true := by
  have hne : ∀ c', calls c' = false → c ≠ c' := by
    rintro c' h rfl
    exact Bool.false_ne_true (h.symm.trans hc)
  cases c with
  | assign p value => exact decide_eq_true fun hp => hne _ (hassign p hp value) rfl
  | queueRequest request => exact absurd rfl (hne _ (hqueue request))
  | generateConfiguration slot => cases slot <;> exact absurd rfl (hne _ (hother _ (by decide)))
  | allocate a =>
    cases a with
    | photo => rfl
    | video => exact absurd rfl (hne _ (hother _ (by decide)))
  | allocatorBuffers a =>
    cases a with
    | photo => rfl
    | video => exact absurd rfl (hne _ (hother _ (by decide)))
  | planeCount => exact absurd rfl (hne _ (hother _ (by decide)))
  | undefinedBehaviour => exact absurd rfl (hne _ (hother _ (by decide)))
  | _ => rfl

theorem keeps_teardown : ∀ c, teardownCall c = true → keeps [.camera_] c = true :=
  keeps_of (by decide) (fun _ => rfl) (by decide)

/-- Neither does a shutdown of the pipeline touch the camera, its configuration or the allocator. -/
theorem built_shutdown {l : List Ptr} (hl : ∀ p ∈ l, p.ofPipeline = false) :
    shutdownGstreamerPipeline.Built (fun c => keeps l c = true) Prog.noParts := by
  refine built_shutdownGstreamerPipeline (keeps_of (fun p hp value => ?_) (fun _ => rfl) (by decide))
    rfl rfl
  simp [shutdownCall, releaseCall, hl p hp]

end

/-! ## startVideoMode -/

/-- How an operation may return: with a request queued or a reply that spoils that, if it returns
true, and without such a reply otherwise. -/
def Ended (b : Bool) (s : SetUp) : Prop := s.spoiled = (b && !s.queued)

/-- An exception may be thrown to the handler. -/
structure Intact (s : SetUp) : Prop where
  camera : s.ptr .camera_ = true
  spoiled : s.spoiled = false

/-- The set-up goes on if `b` holds. -/
structure Going (l : List Ptr) (queued b : Bool) (s : SetUp) : Prop where
  spoiled : s.spoiled = false
  kept : b = true → Kept l queued false s

section

variable {legacy : Bool} {s : SetUp} {l : List Ptr} {queued : Bool}

theorem kept_camera {spoiled : Bool} (hc : s.ptr .camera_ = true) (hq : s.queued = queued)
    (hs : s.spoiled = spoiled) : Kept [.camera_] queued spoiled s :=
  ⟨fun _ hp => List.mem_singleton.mp hp ▸ hc, hq, hs⟩

theorem Kept.intact (h : Kept (.camera_ :: l) queued false s) : Intact s := ⟨h.camera, h.spoiled⟩

theorem Kept.going (h : Kept l queued false s) (b : Bool) : Going l queued b s :=
  ⟨h.spoiled, fun _ => h⟩

theorem going_false (h : s.spoiled = false) : Going l queued false s := ⟨h, nofun⟩

theorem Kept.ended (h : Kept l true false s) (b : Bool) : Ended b s := by
  rw [Ended, h.spoiled, h.queued, Bool.not_true, Bool.and_false]

theorem wlp_rollbackUnlocked {Q : Bool → SetUp → Prop} (h : Intact s)
    (hQ : ∀ s, s.spoiled = false → Q false s) :
    (semantics legacy).wlp (rollbackUnlocked legacy) Q Intact s := by
  have hkept : Kept [.camera_] s.queued false s := kept_camera h.camera rfl h.spoiled
  refine wlp_part (.call rfl) hkept (fun _ h => h.intact) fun _ s h => ?_
  refine wlp_part (.ensuring (built_rollbackFailedVideoStart keeps_teardown
    (built_shutdown (by decide))) (.call rfl)) h (fun _ h => h.intact) fun _ s h => ?_
  exact hQ s h.spoiled

section

variable {α : Type} {Q : α → SetUp → Prop} {E : SetUp → Prop}

/-- Undefined behaviour may follow a reply that spoils the operation. -/
theorem wlp_undefinedBehaviour {f : Empty → Prog Sys α} (h : s.spoiled = true) :
    (semantics legacy).wlp (sys .undefinedBehaviour >>= f) Q E s :=
  wlp_call_of (fun _ => h) nofun nofun

/-- The configuration is taken as it comes. -/
theorem wlp_generateConfiguration {slot : Slot} {f : ConfigReply → Prog Sys α}
    (h : Kept [.camera_] false false s)
    (hf : ∀ (r : ConfigReply) s, Kept [.camera_] false (spoils (.generateConfiguration slot) r) s →
      (semantics legacy).wlp (f r) Q E s) :
    (semantics legacy).wlp (sys (.generateConfiguration slot) >>= f) Q E s := by
  refine wlp_call_of nofun h.ptr fun r _ => hf r _ (kept_camera h.camera ?_ ?_)
  · exact (Bool.or_false _).trans h.queued
  · show (s.spoiled || _) = _
    rw [h.spoiled, Bool.false_or]

end

/-- A request that is queued counts. -/
theorem wlp_queueRequest {α : Type} {request : Nat} {f : Outcome → Prog Sys α}
    {Q : α → SetUp → Prop} {E : SetUp → Prop} (h : Kept [.camera_] queued false s)
    (hf : ∀ (r : Outcome) s, Kept [.camera_] (queued || r = .ok) false s →
      (semantics legacy).wlp (f r) Q E s) :
    (semantics legacy).wlp (sys (.queueRequest request) >>= f) Q E s := by
  refine wlp_call_of nofun h.ptr fun r _ => hf r _ (kept_camera h.camera ?_ ?_)
  · show (s.queued || decide (r = .ok)) = _
    rw [h.queued]
  · exact (Bool.or_false _).trans h.spoiled

theorem wlp_queueBuffer (h : Kept [.camera_] queued false s) :
    (semantics legacy).wlp (queueBuffer legacy) (Going [.camera_] true) Intact s := by
  refine wlp_part (.call rfl) h (fun _ h => h.intact) fun r s h => ?_
  cases r with
  | null => exact wlp_rollbackUnlocked h.intact fun _ => going_false
  | threw => exact h.intact
  | request request =>
  refine Local.wlp_ensuring_of (fun P s hp => wlp_quiet rfl (.inr rfl) fun _ _ => hp) ?_
  have hback : ∀ {queued s}, Kept [.camera_] queued false s →
      (semantics legacy).wlp (rollbackUnlocked legacy) (Going [.camera_] true) Intact s :=
    fun h => wlp_rollbackUnlocked h.intact fun _ => going_false
  refine wlp_part (.call rfl) h (fun _ h => h.intact) fun added s h => ?_
  refine wlp_part (built_check added) h (fun _ h => h.intact) fun added s h => ?_
  cases added with
  | false => exact hback h
  | true =>
  refine wlp_queueRequest h fun r s hqueued => ?_
  cases r with
  | failed => exact hback hqueued
  | threw => exact hqueued.intact
  | ok =>
  have hqueued : Kept [.camera_] true false s := ⟨hqueued.ptr, hqueued.queued.trans (Bool.or_true _),
    hqueued.spoiled⟩
  have hkeep : (keepRequest request).Built (fun c => keeps [.camera_] c = true) Prog.noParts :=
    built_lockGuard rfl rfl (.bind (.call rfl) fun _ => built_orThrow _)
  show (semantics legacy).wlp (keepRequest request >>= fun _ => .ret true) _ _ s
  exact wlp_part hkeep hqueued (fun _ h => h.intact) fun _ s h => h.going true

theorem wlp_queueBuffers (videoBuffers : List Bool) (h : Kept [.camera_] queued false s) :
    (semantics legacy).wlp (queueBuffers legacy videoBuffers)
      (Going [.camera_] (queued || videoBuffers.any id)) Intact s := by
  induction videoBuffers generalizing queued s with
  | nil =>
    rw [List.any_nil, Bool.or_false]
    exact h.going true
  | cons bufferHolder rest ih =>
    rw [List.any_cons, queueBuffers]
    cases bufferHolder with
    | false => exact ih h
    | true =>
      rw [id_eq, Bool.true_or, Bool.or_true]
      refine Local.wlp_bind_of (wlp_queueBuffer h) fun queued s hgoing => ?_
      cases queued with
      | false => exact going_false hgoing.spoiled
      | true =>
        have hrest := ih (hgoing.kept rfl)
        rw [Bool.true_or] at hrest
        exact hrest

/-- Where no holder has a buffer, no request is made. -/
theorem queueBuffers_of_none {videoBuffers : List Bool} (h : videoBuffers.any id = false) :
    queueBuffers legacy videoBuffers = return true := by
  induction videoBuffers with
  | nil => rfl
  | cons bufferHolder rest ih =>
    rw [List.any_cons, Bool.or_eq_false_iff] at h
    obtain ⟨rfl, hrest⟩ := h
    exact ih hrest

theorem wlp_allocateStreams (streams : Nat)
    (h : Kept [.camera_, .currentConfig_, .allocator_] false false s) :
    (semantics legacy).wlp (allocateStreams streams)
      (Going [.camera_, .currentConfig_, .allocator_] false) Intact s := by
  induction streams generalizing s with
  | zero => exact h.going true
  | succ streams ih =>
    have hmem : ∀ p ∈ [Ptr.allocator_, .currentConfig_],
        p ∈ [Ptr.camera_, .currentConfig_, .allocator_] := by decide
    have hset : ∀ p ∈ [Ptr.allocator_, .currentConfig_], s.ptr p = true :=
      fun p hp => h.ptr p (hmem p hp)
    refine wlp_call_of nofun hset fun r _ => ?_
    have hkept : see (.allocate .video) r s = s := by
      rw [see]
      show (⟨s.ptr, s.queued || false, s.spoiled || false⟩ : SetUp) = s
      rw [Bool.or_false, Bool.or_false]
    rw [hkept]
    cases r with
    | ok => exact ih h
    | threw => exact h.intact
    | failed =>
      have hcamera : Kept [.camera_] false false s := h.mono (by decide)
      show (semantics legacy).wlp (resetAllocator >>= fun _ => .ret false) _ _ s
      refine wlp_part (built_resetAllocator keeps_teardown) hcamera
        (fun _ h => h.intact) fun _ s h => ?_
      exact going_false h.spoiled

/-- With the camera running, the requests are queued, if there is a buffer to queue. -/
theorem wlp_queueVideo (h : Kept [.camera_, .currentConfig_, .allocator_] false false s) :
    (semantics legacy).wlp (do
      match ← sys (.allocatorBuffers .video) with
      | none => .throw
      | some videoBuffers =>
        if !(← queueBuffers legacy videoBuffers) then return false
        sys (.store .isVideoMode_ true)
        sys (.store .captureActive_ true)
        sys (.store .shuttingDown_ false)
        return true) Ended Intact s := by
  have hmem : ∀ p ∈ [Ptr.allocator_, .currentConfig_],
      p ∈ [Ptr.camera_, .currentConfig_, .allocator_] := by decide
  refine wlp_call_of nofun (fun p hp => h.ptr p (hmem p hp)) fun r _ => ?_
  have hkept : Kept [.camera_] false (spoils (.allocatorBuffers .video) r)
      (see (.allocatorBuffers .video) r s) := by
    refine kept_camera h.camera ((Bool.or_false _).trans h.queued) ?_
    show (s.spoiled || _) = _
    rw [h.spoiled, Bool.false_or]
  -- the flags of video mode are set at the end
  have hflags : ∀ {queued spoiled s}, Kept [.camera_] queued spoiled s → spoiled = !queued →
      (semantics legacy).wlp (do
        sys (.store .isVideoMode_ true)
        sys (.store .captureActive_ true)
        sys (.store .shuttingDown_ false)
        return true) Ended Intact s := by
    intro queued spoiled s h hboth
    refine wlp_quiet rfl (.inr rfl) fun _ _ => wlp_quiet rfl (.inr rfl) fun _ _ =>
      wlp_quiet rfl (.inr rfl) fun _ _ => ?_
    show s.spoiled = (true && !s.queued)
    rw [h.spoiled, h.queued, hboth, Bool.true_and]
  cases r with
  | none => exact hkept.intact
  | some videoBuffers =>
  change Kept [.camera_] false (!videoBuffers.any id) _ at hkept
  show (semantics legacy).wlp (queueBuffers legacy videoBuffers >>= _) _ _ _
  cases hany : videoBuffers.any id with
  | false =>
    rw [queueBuffers_of_none hany]
    rw [hany] at hkept
    exact hflags hkept rfl
  | true =>
    rw [hany] at hkept
    have hqueue : (semantics legacy).wlp (queueBuffers legacy videoBuffers) _ Intact _ :=
      wlp_queueBuffers videoBuffers hkept
    rw [hany, Bool.or_true] at hqueue
    refine Local.wlp_bind_of hqueue fun queued s hgoing => ?_
    cases queued with
    | false => exact hgoing.spoiled
    | true => exact hflags (hgoing.kept rfl) rfl

theorem wlp_startStreams {streams width height fps : Nat}
    (h : Kept [.camera_, .currentConfig_] false false s) :
    (semantics legacy).wlp (startStreams legacy streams width height fps) Ended Intact s := by
  have hback : ∀ {s}, Intact s →
      (semantics legacy).wlp (rollbackUnlocked legacy) Ended Intact s :=
    fun h => wlp_rollbackUnlocked h fun _ hs => hs
  refine wlp_part (.call rfl) h (fun _ h => h.intact) fun made s h => ?_
  refine wlp_part (built_orThrow made) h (fun _ h => h.intact) fun _ s h => ?_
  refine wlp_call_of nofun nofun fun r _ => ?_
  have h := h.assign_true (p := .allocator_) (by decide) r
  show (semantics legacy).wlp (allocateStreams streams >>= _) _ _ _
  refine Local.wlp_bind_of (wlp_allocateStreams streams h) fun allocated s hgoing => ?_
  cases allocated with
  | false => exact hgoing.spoiled
  | true =>
  have h := hgoing.kept rfl
  have hshutdown := built_shutdown (l := [.camera_, .currentConfig_, .allocator_]) (by decide)
  have hP : ∀ c, pipelineCall c = true →
      keeps [.camera_, .currentConfig_, .allocator_] c = true :=
    keeps_of (by decide) (fun _ => rfl) (by decide)
  refine wlp_part (built_initializeGstreamerPipeline hP hshutdown
    (built_startPipeline hP hshutdown rfl) width height fps) h (fun _ h => h.intact)
    fun initialized s h => ?_
  cases initialized with
  | false => exact Local.wlp_bind_of (hback h.intact) fun _ _ hs => hs
  | true =>
  have hdrop : ∀ c, dropSlotCall c = true →
      keeps [.camera_, .currentConfig_, .allocator_] c = true :=
    keeps_of (by decide) (fun _ => rfl) (by decide)
  refine wlp_part (built_dropSlot hdrop) h (fun _ h => h.intact) fun _ s h => ?_
  refine wlp_part (.call rfl) h (fun _ h => h.intact) fun connected s h => ?_
  refine wlp_part (built_orThrow connected) h (fun _ h => h.intact) fun _ s h => ?_
  refine wlp_part (.call rfl) h (fun _ h => h.intact) fun _ s h => ?_
  refine wlp_part (.call rfl) h (fun _ h => h.intact) fun started s h => ?_
  refine wlp_part (built_check started) h (fun _ h => h.intact) fun started s h => ?_
  cases started with
  | false => exact Local.wlp_bind_of (hback h.intact) fun _ _ hs => hs
  | true => exact wlp_queueVideo h

theorem wlp_configureVideo {width height fps : Nat} (h : Kept [.camera_] false false s) :
    (semantics legacy).wlp (configureVideo legacy width height fps) Ended Intact s := by
  refine wlp_generateConfiguration h fun r s h => ?_
  rcases r with _ | (_ | streams) | _
  · exact wlp_call_of nofun nofun fun r _ =>
      wlp_undefinedBehaviour (h.assign_spoiled r)
  · exact wlp_call_of nofun nofun fun r _ =>
      wlp_undefinedBehaviour (h.assign_spoiled r)
  · refine wlp_call_of nofun nofun fun r _ => ?_
    have h := h.assign_true (p := .currentConfig_) (by decide) r
    show (semantics legacy).wlp (sys (.configure ⟨width, height, .RGB888, 4⟩) >>= _) _ _ _
    refine wlp_part (.call rfl) h (fun _ h => h.intact) fun configured s h => ?_
    refine wlp_part (built_check configured) h (fun _ h => h.intact) fun configured s h => ?_
    cases configured with
    | false => exact h.spoiled
    | true => exact wlp_startStreams h
  · exact h.intact

/-- What both operations do first. -/
theorem wlp_begin {α : Type} {f : Bool → Prog Sys α} {Q : α → SetUp → Prop} {E : SetUp → Prop}
    (h : s.queued = false ∧ s.spoiled = false)
    (hf : ∀ b, (b = true → Kept [.camera_] false false s) → (semantics legacy).wlp (f b) Q E s) :
    (semantics legacy).wlp (cameraReady >>= f) Q E s :=
  (Local.wlp_bind _ _ Q E s).mpr <| wlp_cameraReady fun b hb =>
    hf b fun h' => kept_camera (hb h') h.1 h.2

theorem built_leave : (leaveVideoMode legacy).Built (fun c => keeps [.camera_] c = true)
    Prog.noParts :=
  built_leaveVideoMode (fun c h => keeps_teardown c (teardownCall_of_stopCall h))
    (built_stopVideoModeUnlocked keeps_teardown (built_shutdown (by decide)))

theorem wlp_startVideoMode {width height fps : Nat} (h : s.queued = false ∧ s.spoiled = false) :
    (semantics legacy).wlp (startVideoMode legacy width height fps) Ended Intact s := by
  refine wlp_lockGuard (wlp_begin h fun ready hready => ?_)
  cases ready with
  | false => exact h.2
  | true =>
  refine Local.wlp_tryCatch_of (F := Intact) ?_ fun s h => wlp_rollbackUnlocked h fun _ hs => hs
  refine wlp_part built_leave (hready rfl) (fun _ h => h.intact) fun left s h => ?_
  cases left with
  | false => exact h.spoiled
  | true => exact wlp_configureVideo h

/-! ## takePicture -/

/-- The image is written, if the buffer has a plane. -/
theorem wlp_saveImage (h : Kept [.camera_] true false s) :
    (semantics legacy).wlp (saveImage legacy) Ended Intact s := by
  have hbuilt : ∀ legacy, (writeImage legacy).Built (fun c => keeps [.camera_] c = true)
      Prog.noParts :=
    fun _ => built_writeImage (keeps_of (by decide) (fun _ => rfl) (by decide))
  have hwrite : ∀ {s}, Kept [.camera_] true false s →
      (semantics legacy).wlp (writeImage legacy) Ended Intact s := fun h =>
    Local.wlp_mono (wlp_kept (hbuilt legacy) h) (fun b _ h => h.ended b) fun _ h => h.intact
  cases legacy with
  | true => exact hwrite h
  | false =>
    refine wlp_call_of nofun nofun fun planes _ => ?_
    have hqueued : (s.queued || false) = true := (Bool.or_false _).trans h.queued
    have hspoiled : (s.spoiled || decide (planes = 0)) = decide (planes = 0) := by
      rw [h.spoiled, Bool.false_or]
    cases planes with
    | zero => exact wlp_undefinedBehaviour hspoiled
    | succ planes => exact hwrite (kept_camera h.camera hqueued hspoiled)

/-- From the start of the camera on. -/
theorem wlp_capture {request : Nat} (h : Kept [.camera_] false false s) :
    (semantics legacy).wlp (capture legacy request) Ended Intact s := by
  have hstop : cameraStop.Built (fun c => keeps [.camera_] c = true) Prog.noParts :=
    .bind (.call rfl) fun _ => .call rfl
  refine wlp_part (.call rfl) h (fun _ h => h.intact) fun started s h => ?_
  refine wlp_part (built_check started) h (fun _ h => h.intact) fun started s h => ?_
  cases started with
  | false => exact h.spoiled
  | true =>
  refine wlp_part (.call rfl) h (fun _ h => h.intact) fun _ s h => ?_
  refine wlp_queueRequest h fun r s h => ?_
  cases r with
  | failed =>
    show (semantics legacy).wlp (cameraStop >>= fun _ => .ret false) _ _ _
    exact wlp_part hstop h (fun _ h => h.intact) fun _ _ h => h.spoiled
  | threw => exact h.intact
  | ok =>
  have hwait : awaitCompletion.Built (fun c => keeps [.camera_] c = true) Prog.noParts :=
    built_awaitCompletion (keeps_of (by decide) (fun _ => rfl) (by decide))
  show (semantics legacy).wlp (awaitCompletion >>= _) _ _ _
  refine wlp_part hwait h (fun _ h => h.intact) fun completed s h => ?_
  cases completed with
  | false => exact h.spoiled
  | true => exact wlp_saveImage h

theorem wlp_captureWith {request : Nat} (h : Kept [.camera_] false false s) :
    (semantics legacy).wlp (captureWith legacy request) Ended Intact s := by
  refine wlp_part (.call rfl) h (fun _ h => h.intact) fun buffers s h => ?_
  rcases buffers with _ | (_ | _)
  · exact h.intact
  · exact h.spoiled
  · show (semantics legacy).wlp (sys (.addBuffer request) >>= _) _ _ _
    refine wlp_part (.call rfl) h (fun _ h => h.intact) fun added s h => ?_
    refine wlp_part (built_check added) h (fun _ h => h.intact) fun added s h => ?_
    cases added with
    | false => exact h.spoiled
    | true =>
    refine wlp_part (.call rfl) h (fun _ h => h.intact) fun _ s h => ?_
    refine wlp_part (.call rfl) h (fun _ h => h.intact) fun connected s h => ?_
    refine wlp_part (built_orThrow connected) h (fun _ h => h.intact) fun _ s h => ?_
    refine Local.wlp_ensuring_of (fun P s hp => wlp_quiet rfl (.inr ?_) fun _ _ => hp) (wlp_capture h)
    exact if_neg fun hphoto => nomatch hphoto.2

theorem wlp_photoRequest (h : Kept [.camera_] false false s) :
    (semantics legacy).wlp (photoRequest legacy) Ended Intact s := by
  refine wlp_part (.call rfl) h (fun _ h => h.intact) fun r s h => ?_
  cases r with
  | null => exact h.spoiled
  | threw => exact h.intact
  | request request =>
    exact Local.wlp_ensuring_of (fun P s hp => wlp_quiet rfl (.inr rfl) fun _ _ => hp) (wlp_captureWith h)

theorem wlp_configurePhoto (h : Kept [.camera_] false false s) :
    (semantics legacy).wlp (configurePhoto legacy) Ended Intact s := by
  refine wlp_generateConfiguration h fun r s h => ?_
  rcases r with _ | (_ | streams) | _
  · exact wlp_undefinedBehaviour h.spoiled
  · exact wlp_undefinedBehaviour h.spoiled
  · show (semantics legacy).wlp (sys (.configure ⟨2592, 1944, .MJPEG, 1⟩) >>= _) _ _ _
    refine wlp_part (.call rfl) h (fun _ h => h.intact) fun configured s h => ?_
    refine wlp_part (built_check configured) h (fun _ h => h.intact) fun configured s h => ?_
    cases configured with
    | false => exact h.spoiled
    | true =>
    refine wlp_part (.call rfl) h (fun _ h => h.intact) fun made s h => ?_
    refine wlp_part (built_orThrow made) h (fun _ h => h.intact) fun _ s h => ?_
    refine Local.wlp_ensuring_of (fun P s hp => wlp_quiet rfl (.inr rfl) fun _ _ => hp) ?_
    refine wlp_part (.call rfl) h (fun _ h => h.intact) fun allocated s h => ?_
    refine wlp_part (built_check allocated) h (fun _ h => h.intact) fun allocated s h => ?_
    cases allocated with
    | false => exact h.spoiled
    | true => exact wlp_photoRequest h
  · exact h.intact

theorem wlp_takePicture (h : s.queued = false ∧ s.spoiled = false) :
    (semantics legacy).wlp (takePicture legacy) Ended (fun s => s.spoiled = false) s := by
  refine wlp_lockGuard (wlp_quiet rfl (.inr rfl) fun paused _ => ?_)
  cases paused with
  | true => exact h.2
  | false =>
  refine wlp_begin h fun ready hready => ?_
  cases ready with
  | false => exact h.2
  | true =>
  refine wlp_part built_leave (hready rfl) (fun _ h => h.spoiled) fun left s h => ?_
  cases left with
  | false => exact h.spoiled
  | true =>
  refine Local.wlp_tryCatch_of (wlp_configurePhoto h) fun s h => ?_
  have hkept : Kept [.camera_] s.queued false s := kept_camera h.camera rfl h.spoiled
  have hS : ∀ c, stopCall c = true → keeps [.camera_] c = true :=
    fun c h => keeps_teardown c (teardownCall_of_stopCall h)
  exact wlp_part (built_stopCameraIfRunning hS) hkept (fun _ h => h.spoiled) fun _ _ h => h.spoiled

/-- Either operation, from a state in which nothing has been seen yet. -/
theorem wlp_operate {op : Operation} (hop : op.setsUp = true)
    (h : s.queued = false ∧ s.spoiled = false) :
    (semantics legacy).wlp (operate legacy op) Ended (fun s => s.spoiled = false) s := by
  cases op with
  | takePicture => exact wlp_takePicture h
  | startVideoMode width height fps =>
    exact Local.wlp_mono (wlp_startVideoMode h) (fun _ _ h => h) fun _ h => h.spoiled
  | _ => cases hop

end

end SetUp

end SurfCam

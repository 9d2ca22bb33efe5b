import SurfCam.App.Standing
import SurfCam.App.Undefined

/-!
# Members at hand

Whatever the threads of the application do at the same time: no call goes through a member that is
null, unless libcamera has just handed out no configuration; and `streamCheckWorker` gives `camera_`
up only when no other thread can be on its way through it.
-/

namespace SurfCam

open Interaction CameraManager Contract Lifecycle

namespace AtHand

/-! ## What the operations share -/

section

variable {legacy : Bool} {l : List Fact} {Y : ∀ α : Type, Prog Sys α → Prop}

theorem aside_of {calls : SysCall → Bool} (h : ∀ c ∈ loud, calls c = false)
    (hu : ∀ c, calls c = true → .camera_ ∉ c.uses legacy) (c : SysCall) (hc : calls c = true) :
    Aside legacy c := ⟨quiet_of h c hc, hu c hc⟩

theorem aside_of_shutdownCall (c : SysCall) (h : shutdownCall c = true) : Aside legacy c := by
  refine aside_of (by decide) (fun c h => ?_) c h
  cases c <;> first | exact of_decide_eq_true rfl | cases h

theorem built_shut : shutdownGstreamerPipeline.Built (Fits legacy l) Y :=
  built_shutdownGstreamerPipeline (fun c h => fits_of_aside (aside_of_shutdownCall c h))
    (fits_of_aside (aside rfl)) (fits_of_aside (aside rfl))

theorem built_clear : clearRequests.Built (Fits legacy l) Y :=
  built_lockGuard (fits_of_aside (aside rfl)) (fits_of_aside (aside rfl))
    (.call (fits_of_aside (aside rfl)))

theorem built_reset (h : Fits legacy l (.assign .allocator_ false)) :
    resetAllocator.Built (Fits legacy l) Y :=
  built_lockGuard (fits_of_aside (aside rfl)) (fits_of_aside (aside rfl)) (.call h)

section

variable (hl : l.any Fact.isCamera = true)
include hl

theorem built_slot : (disconnectVideoRequestSlot legacy).Built (Fits legacy l) Y :=
  built_dropSlot fun c h => fits_of_quiet (quiet_of (by decide) c h) hl

theorem built_halt : cameraStop.Built (Fits legacy l) Y :=
  .bind (.call (fits_of_quiet (by decide) hl)) fun _ => .call (fits_of_quiet (by decide) hl)

theorem built_halting : (stopCameraIfRunning legacy).Built (Fits legacy l) Y :=
  .bind (.call (fits_of_quiet (by decide) hl)) fun _ => .ite (.ret _) <|
    .ite (built_halt hl) <| .bind (.call (fits_of_quiet (by decide) hl)) fun _ =>
      .when _ (built_halt hl)

variable (hreset : Fits legacy l (.assign .allocator_ false))
include hreset

theorem built_tearing (hunlock : Fits legacy l (.unlock .cameraOpsMutex_)) :
    (teardown legacy).Built (Fits legacy l) Y :=
  .bind (built_slot hl) fun _ => .bind (built_halting hl) fun _ =>
    .bind (built_lockGuard (fits_of_aside (aside rfl)) hunlock
      (.bind built_clear fun _ => built_shut)) fun _ => built_reset hreset

theorem built_rolling (hunlock : Fits legacy l (.unlock .videoTeardownMutex_))
    (hops : Fits legacy l (.unlock .cameraOpsMutex_)) :
    (rollbackUnlocked legacy).Built (Fits legacy l) Y := by
  have hscope : (rollbackFailedVideoStart legacy).Built (Fits legacy l) Y :=
    built_lockGuard (fits_of_aside (aside rfl)) hunlock <|
      .bind (built_slot hl) fun _ => .bind (built_halting hl) fun _ => .bind built_clear fun _ =>
        .bind built_shut fun _ => .bind (built_reset hreset) fun _ =>
          .bind (.call (fits_of_aside (aside rfl))) fun _ => .call (fits_of_aside (aside rfl))
  exact .bind (.call hops) fun _ =>
    .bind (.ensuring hscope (.call (fits_of_aside (aside rfl)))) fun _ => .ret _

end

end

/-- What a thread knows by the result of an operation. -/
def either (yes no : List Fact) : Bool → List Fact
  | true => yes
  | false => no

section

variable {legacy : Bool} {t : Tid} {w : World} {l : List Fact} {X : World → Prop} {s : Standing}

/-- `camera_` is checked by a thread on whose ground it stays. -/
theorem wp_cameraReady (hs : s.holdsCamera = true) (hl : .has s ∈ l) (h : facts.Known l t w) :
    (contract legacy).wp t cameraReady
      (fun ready => facts.Known (either (.camera s :: l) l ready) t) X w := by
  refine wp_step (fits_of_aside (aside rfl)) h fun w initialized _ _ _ _ h => ?_
  cases initialized with
  | false => exact wp_known (K := either (.camera s :: l) l) h
  | true =>
    refine wp_step (f := .ret) (fits_of_aside (aside rfl)) h fun w set _ _ ha _ h => ?_
    have hset : set = w.ptr .camera_ := of_decide_eq_true (World.shared_of_answers ha)
    refine wp_known (K := either (.camera s :: l) l) ?_
    cases set with
    | false => exact h
    | true => exact h.learn ⟨hs, h _ hl, hset.symm⟩

end

/-! ## stopVideoMode -/

/-- What becomes known of video mode where it is found or switched off. -/
def Fact.settles : Fact → Option Fact
  | has s => if s.holdsMode then some (off s) else none
  | _ => none

abbrev settled (l : List Fact) : List Fact := l.filterMap Fact.settles ++ l

/-- What a thread knows while it tears video mode down. -/
abbrev tearing (l : List Fact) : List Fact :=
  .camera .engaged :: .has .engaged :: .has .teardown :: l

/-- What a thread that calls `stopVideoMode` may know throughout. -/
structure Calm (legacy : Bool) (l : List Fact) : Prop where
  ops : Fits legacy (tearing l) (.unlock .cameraOpsMutex_)
  reset : Fits legacy (tearing l) (.assign .allocator_ false)
  off : Fits legacy (.has .teardown :: l) (.store .isVideoMode_ false)
  teardown : Fits legacy (settled l) (.unlock .videoTeardownMutex_)

section

variable {legacy : Bool} {t : Tid} {w : World} {l : List Fact} {X : World → Prop}

theorem known_settled (hoff : w.flag .isVideoMode_ = false) (h : facts.Known l t w) :
    facts.Known (settled l) t w := by
  intro f hf
  cases List.mem_append.mp hf with
  | inr hf => exact h f hf
  | inl hf =>
    obtain ⟨g, hg, hsettles⟩ := List.mem_filterMap.mp hf
    cases g with
    | has s =>
      change (if s.holdsMode then some (Fact.off s) else none) = some f at hsettles
      split at hsettles
      · cases hsettles
        exact ⟨‹_›, h _ hg, hoff⟩
      · cases hsettles
    | _ => cases hsettles

/-- Video mode is torn down, with `camera_` at hand, and switched off. -/
theorem wp_endVideoMode (hl : Calm legacy l) (h : facts.Known (tearing l) t w) :
    (contract legacy).wp t (do
        sys (.store .captureActive_ false)
        sys (.store .shuttingDown_ true)
        teardown legacy
        sys (.store .shuttingDown_ false)
        sys (.store .isVideoMode_ false)
        return true)
      (fun _ => facts.Known (settled l) t) X w := by
  refine wp_of_noThrow (X := fun _ => True) (.bind (.call _) fun _ => .bind (.call _) fun _ =>
    .bind noThrow_teardown fun _ => .bind (.call _) fun _ => .bind (.call _) fun _ => trivial) ?_
  have hcall : ∀ value f, f = .captureActive_ ∨ f = .shuttingDown_ →
      (sys (.store f value)).Built (Fits legacy (tearing l)) Prog.noParts := by
    rintro value f (rfl | rfl) <;> cases value <;> exact .call (fits_of_aside (aside rfl))
  refine wp_first (hcall false _ (.inl rfl)) (fun _ _ => trivial) h fun _ w h => ?_
  refine wp_first (hcall true _ (.inr rfl)) (fun _ _ => trivial) h fun _ w h => ?_
  refine wp_first (built_tearing rfl hl.reset hl.ops) (fun _ _ => trivial) h fun _ w h => ?_
  refine wp_first (hcall false _ (.inr rfl)) (fun _ _ => trivial) h fun _ w h => ?_
  have hbefore : facts.Known (.has .teardown :: l) t w := fun f hf => h f (.tail _ (.tail _ hf))
  refine wp_step hl.off hbefore fun w r _ _ _ _ h => wp_known (K := fun _ => settled l) ?_
  refine known_settled ?_ fun f hf => h f (.tail _ hf)
  show Function.update w.flag .isVideoMode_ false .isVideoMode_ = false
  rw [Function.update_self]

/-- Whoever stops video mode, it is off afterwards if nobody else can switch it on. -/
theorem wp_stopVideoMode (hl : Calm legacy l) (h : facts.Known l t w) :
    (contract legacy).wp t (stopVideoMode legacy) (fun _ => facts.Known (settled l) t) X w := by
  refine wp_of_noThrow (X := facts.Known (settled l) t) noThrow_stopVideoMode ?_
  refine wp_scope (K := fun _ => settled l) h (fun w h howner => ?_) (fun _ => hl.teardown)
    hl.teardown
  have h : facts.Known (.has .teardown :: l) t w := h.learn howner
  refine wp_step (fits_of_aside (aside rfl)) h fun w on hi h ha _ hafter => ?_
  have hon : on = w.flag .isVideoMode_ := of_decide_eq_true (World.shared_of_answers ha)
  cases on with
  | false =>
    refine wp_known (K := fun _ => settled l) (known_settled hon.symm ?_)
    exact fun f hf => hafter f (.tail _ hf)
  | true =>
    have hengaged : Standing.engaged.Holds t w := ⟨h _ (.head _), hon.symm⟩
    have h : facts.Known (.has .engaged :: .has .teardown :: l) t w := h.learn hengaged
    have h : facts.Known (tearing l) t w := h.learn ⟨rfl, hengaged, hi.video hon.symm⟩
    have hload : Fits legacy (tearing l) (.load .isVideoMode_) := fits_of_aside (aside rfl)
    exact wp_tryCatch.mpr (wp_endVideoMode hl (known_after hload ha h))

end

/-! ## takePicture -/

/-- What the snapshot knows from its check of `camera_` on. -/
abbrev pictured : List Fact := [.camera .ops, .has .ops]

section

variable {legacy : Bool} {t : Tid} {w : World} {X : World → Prop}

theorem fits_of {l : List Fact} {calls : SysCall → Bool} (hl : l.any Fact.isCamera = true)
    (h : ∀ c ∈ table.strict l, calls c = false) (c : SysCall) (hc : calls c = true) :
    Fits legacy l c := ⟨not_mem_of h c hc, .inl hl⟩

theorem built_pictured : (capturePhoto legacy).Built (Fits legacy pictured) Prog.noParts := by
  have hP : ∀ c, photoCall c = true → Fits legacy pictured c := fits_of rfl (by decide)
  have hwait : awaitCompletion.Built (Fits legacy pictured) Prog.noParts :=
    built_awaitCompletion (fits_of rfl (by decide))
  exact built_capturePhoto hP (built_photoRequest hP hwait (fits_of rfl (by decide)))

/-- Video mode is left for the picture with `cameraOpsMutex_` given up in between; `camera_` is
checked again. -/
theorem wp_leaveForPicture (h : facts.Known pictured t w) :
    (contract legacy).wp t (leaveVideoMode legacy)
      (fun left => facts.Known (either pictured [] left) t) X w := by
  refine wp_step (fits_of_aside (aside rfl)) h fun w on _ _ _ _ h => ?_
  cases on with
  | false => exact wp_known (K := either pictured []) h
  | true =>
  refine wp_bind_of (Q := fun _ => facts.Known [.has .ops] t) ?_ fun _ w _ h => ?_
  · refine wp_step (fits rfl) (Facts.known_nil (t := t)) fun w _ _ _ _ _ h => ?_
    refine wp_bind_of (wp_stopVideoMode ⟨fits rfl, fits rfl, fits rfl, fits rfl⟩ h) fun _ w _ h => ?_
    refine wp_step (f := .ret) (fits rfl) h fun w _ _ _ _ _ h => ?_
    exact wp_known (K := fun _ => [.has .ops]) (h.learn World.owner_after_relock)
  · refine wp_mono (wp_cameraReady (s := .ops) rfl (.head _) h) (fun ready w _ h => ?_)
      fun _ _ h => h
    cases ready with
    | false => exact Facts.known_nil
    | true => exact h

theorem keeps_takePicture :
    (contract legacy).Keeps t (facts.Known [] t) (takePicture legacy) := by
  intro w h
  refine wp_scope (K := fun _ => []) h (fun w h howner => ?_) (fun _ => fits rfl) (fits rfl)
  have h : facts.Known [.has .ops] t w := h.learn howner
  have hnil : ∀ l w, facts.Known l t w → facts.Known [] t w := fun _ _ _ => Facts.known_nil
  refine wp_step (fits_of_aside (aside rfl)) h fun w paused _ _ _ _ h => ?_
  cases paused with
  | true => exact wp_known (K := fun _ => []) Facts.known_nil
  | false =>
  refine wp_bind_of (wp_cameraReady (s := .ops) rfl (.head _) h) fun ready w _ h => ?_
  cases ready with
  | false => exact wp_known (K := fun _ => []) Facts.known_nil
  | true =>
  refine wp_bind_of (wp_leaveForPicture h) fun left w _ h => ?_
  cases left with
  | false => exact wp_known (K := fun _ => []) Facts.known_nil
  | true =>
  exact wp_mono (wp_last built_pictured (hnil _) h) (fun _ w _ h => hnil _ w h) fun _ _ h => h

end

/-! ## startVideoMode -/

/-- What the HLS worker knows from its check of `camera_` on. -/
abbrev present : List Fact := [.camera .working, .has .working]

/-- And once video mode has been left. -/
abbrev starting : List Fact := .off .working :: present

abbrev configured : List Fact := .config :: starting

abbrev allocated : List Fact := .streams :: configured

section

variable {legacy : Bool} {t : Tid} {w : World}

theorem present_of_starting (h : facts.Known starting t w) : facts.Known present t w :=
  h.mono (List.subset_cons_self ..)

theorem present_of_configured (h : facts.Known configured t w) : facts.Known present t w :=
  present_of_starting (h.mono (List.subset_cons_self ..))

theorem present_of_allocated (h : facts.Known allocated t w) : facts.Known present t w :=
  present_of_configured (h.mono (List.subset_cons_self ..))

/-- The failed start is rolled back. -/
theorem wp_roll {X : World → Prop} (h : facts.Known present t w) :
    (contract legacy).wp t (rollbackUnlocked legacy) (fun _ => facts.Known present t) X w := by
  refine wp_safe (built_rolling rfl (fits rfl) (fits rfl) (fits rfl)) ?_ h
  exact .bind (.call _) fun _ =>
    .bind (.ensuring noThrow_rollbackFailedVideoStart (.call _)) fun _ => trivial

/-- Video mode is left for a new start. -/
theorem wp_leaveForStart {X : World → Prop} (h : facts.Known present t w) :
    (contract legacy).wp t (leaveVideoMode legacy)
      (fun left => facts.Known (either starting present left) t) X w := by
  refine wp_step (fits_of_aside (aside rfl)) h fun w on _ _ ha _ h => ?_
  have hon : on = w.flag .isVideoMode_ := of_decide_eq_true (World.shared_of_answers ha)
  cases on with
  | false =>
    refine wp_known (K := either starting present) (h.learn ⟨rfl, ?_, hon.symm⟩)
    exact h (.has .working) (by decide)
  | true =>
  refine wp_bind_of (Q := fun _ => facts.Known starting t) ?_ fun _ w _ h => ?_
  · refine wp_step (fits rfl) h fun w _ _ _ _ _ h => ?_
    refine wp_bind_of (wp_stopVideoMode ⟨fits rfl, fits rfl, fits rfl, fits rfl⟩ h) fun _ w _ h => ?_
    exact wp_safe (.call (fits rfl)) (.call _) h
  · refine wp_mono (wp_cameraReady (s := .working) rfl (by decide) h) (fun ready w _ h => ?_)
      fun _ _ h => h
    cases ready with
    | false => exact present_of_starting h
    | true => exact h.mono (List.subset_cons_self ..)

/-- The buffers of every stream, by induction on the streams: the allocator goes where one cannot
get its buffers. -/
theorem wp_allocateStreams (streams : Nat) (h : facts.Known allocated t w) :
    (contract legacy).wp t (allocateStreams streams)
      (fun done => facts.Known (either allocated configured done) t) (facts.Known present t) w := by
  induction streams generalizing w with
  | zero => exact wp_known (K := either allocated configured) h
  | succ streams ih =>
    refine wp_step (fits rfl) h fun w reply _ _ _ _ h => ?_
    cases reply with
    | ok => exact ih h
    | threw => exact fun v hr hi => known_rely _ v hr hi (present_of_allocated h)
    | failed =>
      have h : facts.Known configured t _ := h.mono (List.subset_cons_self ..)
      refine wp_first (built_reset (fits rfl)) (fun _ => present_of_configured) h fun _ w h => ?_
      exact wp_known (K := either allocated configured) h

theorem built_pipelining {l : List Fact} (hl : l.any Fact.isCamera = true) (width height fps : Nat) :
    (initializeGstreamerPipeline width height fps).Built (Fits legacy l) Prog.noParts := by
  have hG : ∀ c, pipelineCall c = true → Fits legacy l c :=
    fun c h => fits_of_quiet (quiet_of (by decide) c h) hl
  exact built_initializeGstreamerPipeline hG built_shut
    (built_startPipeline hG built_shut (fits_of_aside (aside rfl))) width height fps

theorem built_queueing (videoBuffers : List Bool) :
    (queueBuffers legacy videoBuffers).Built (Fits legacy present) Prog.noParts := by
  have hR : ∀ c, requestCall c = true → Fits legacy present c := fits_of rfl (by decide)
  refine built_queueBuffers (built_queueBuffer hR (fun request => ?_)
    (built_rolling rfl (fits rfl) (fits rfl) (fits rfl))) videoBuffers
  exact built_lockGuard (fits_of_aside (aside rfl)) (fits_of_aside (aside rfl))
    (.bind (.call (hR _ rfl)) fun _ => built_orThrow _)

/-- From the running camera on: the requests are queued, and video mode is on. -/
theorem wp_queueAndStart (h : facts.Known allocated t w) :
    (contract legacy).wp t (do
        match ← sys (.allocatorBuffers .video) with
        | none => .throw
        | some videoBuffers =>
          if !(← queueBuffers legacy videoBuffers) then return false
          sys (.store .isVideoMode_ true)
          sys (.store .captureActive_ true)
          sys (.store .shuttingDown_ false)
          return true)
      (fun _ => facts.Known present t) (facts.Known present t) w := by
  refine wp_step (fits rfl) h fun w buffers _ _ _ _ h => ?_
  have h : facts.Known present t _ := present_of_allocated h
  cases buffers with
  | none => exact fun v hr hi => known_rely _ v hr hi h
  | some videoBuffers =>
  refine wp_first (built_queueing videoBuffers) (fun _ => id) h fun queued w h => ?_
  cases queued with
  | false => exact wp_known (K := fun _ => present) h
  | true =>
  refine wp_first (.call (fits rfl)) (fun _ => id) h fun _ w h => ?_
  refine wp_first (.call (fits_of_aside (aside rfl))) (fun _ => id) h fun _ w h => ?_
  refine wp_first (.call (fits_of_aside (aside rfl))) (fun _ => id) h fun _ w h => ?_
  exact wp_known (K := fun _ => present) h

theorem wp_startStreams {streams width height fps : Nat} (h : facts.Known configured t w) :
    (contract legacy).wp t (startStreams legacy streams width height fps)
      (fun _ => facts.Known present t) (facts.Known present t) w := by
  have hX : ∀ w, facts.Known allocated t w → facts.Known present t w :=
    fun _ => present_of_allocated
  refine wp_first (.call (fits_of_aside (aside rfl))) (fun _ => present_of_configured) h
    fun made w h => ?_
  refine wp_first (built_orThrow made) (fun _ => present_of_configured) h fun _ w h => ?_
  refine wp_step (fits rfl) h fun w r _ _ _ _ h => ?_
  have h : facts.Known allocated t (w.after t (.assign .allocator_ true) r) := by
    obtain ⟨hworking, hset⟩ := h .config (.head _)
    have hoff : facts (.off .working) t _ := h (.off .working) (by decide)
    refine h.learn ⟨hworking, hoff.2.2, hset, ?_⟩
    show Function.update w.ptr .allocator_ true .allocator_ = true
    rw [Function.update_self]
  refine wp_bind_of (wp_allocateStreams streams h) fun allocated w _ h => ?_
  cases allocated with
  | false => exact wp_known (K := fun _ => present) (present_of_configured h)
  | true =>
  refine wp_first (built_pipelining rfl width height fps) hX h fun pipeline w h => ?_
  cases pipeline with
  | false => exact wp_roll (hX w h)
  | true =>
  refine wp_first (built_slot rfl) hX h fun _ w h => ?_
  refine wp_first (.call (fits rfl)) hX h fun connected w h => ?_
  refine wp_first (built_orThrow connected) hX h fun _ w h => ?_
  refine wp_first (.call (fits_of_aside (aside rfl))) hX h fun _ w h => ?_
  refine wp_first (.call (fits rfl)) hX h fun started w h => ?_
  refine wp_first (built_check started) hX h fun running w h => ?_
  cases running with
  | false => exact wp_roll (hX w h)
  | true => exact wp_queueAndStart h

theorem wp_configureVideo {width height fps : Nat} (h : facts.Known starting t w) :
    (contract legacy).wp t (configureVideo legacy width height fps)
      (fun _ => facts.Known present t) (facts.Known present t) w := by
  have hX : ∀ w, facts.Known starting t w → facts.Known present t w := fun _ => present_of_starting
  have hundefined : (sys .undefinedBehaviour).Built (Fits legacy starting) Prog.noParts :=
    .call (fits rfl)
  refine wp_first (.call (fits rfl)) hX h fun configuration w h => ?_
  rcases configuration with _ | (_ | streams) | _
  · refine wp_first (.call (fits rfl)) hX h fun _ w h => ?_
    exact wp_first hundefined hX h nofun
  · refine wp_first (.call (fits rfl)) hX h fun _ w h => ?_
    exact wp_first hundefined hX h nofun
  · refine wp_step (fits rfl) h fun w r _ _ _ _ h => ?_
    have h : facts.Known configured t (w.after t (.assign .currentConfig_ true) r) := by
      refine h.learn ⟨h (.has .working) (by decide), ?_⟩
      show Function.update w.ptr .currentConfig_ true .currentConfig_ = true
      rw [Function.update_self]
    refine wp_first (.call (fits rfl)) (fun _ => present_of_configured) h fun done w h => ?_
    refine wp_first (built_check done) (fun _ => present_of_configured) h fun ok w h => ?_
    cases ok with
    | false => exact wp_known (K := fun _ => present) (present_of_configured h)
    | true => exact wp_startStreams h
  · exact fun v hr hi => known_rely w v hr hi (hX w h)

theorem wp_startVideoMode {width height fps : Nat} (h : facts.Known [.has .working] t w) :
    (contract legacy).wp t (startVideoMode legacy width height fps)
      (fun _ => facts.Known [.has .working] t) (facts.Known [.has .working] t) w := by
  have hpresent : ∀ w, facts.Known present t w → facts.Known [.has .working] t w :=
    fun _ h => h.mono (List.subset_cons_self ..)
  refine wp_scope (K := fun _ => [.has .working]) h (fun w h _ => ?_) (fun _ => fits rfl) (fits rfl)
  refine wp_bind_of (wp_cameraReady (s := .working) rfl (.head _) h) fun ready w _ h => ?_
  cases ready with
  | false => exact wp_known (K := fun _ => [.has .working]) h
  | true =>
  refine wp_mono (Q := fun _ => facts.Known present t) (X := facts.Known present t) ?_
    (fun _ w _ h => hpresent w h) fun w _ h => hpresent w h
  refine wp_tryCatch.mpr (wp_mono (X := facts.Known present t) ?_ (fun _ _ _ h => h)
    fun _ _ h => wp_roll h)
  refine wp_bind_of (wp_leaveForStart h) fun left w _ h => ?_
  cases left with
  | false => exact wp_known (K := fun _ => present) h
  | true => exact wp_configureVideo h

end

/-! ## The keeper of the session -/

section

variable {legacy : Bool} {t : Tid} {w : World} {l : List Fact}

theorem keeper_of_sole (h : facts.Known [.has .sole] t w) : facts.Known [.has .keeper] t w :=
  Facts.known_nil.learn (h (.has .sole) (.head _)).1

/-- The keeper stops the session: afterwards there is no worker. -/
theorem wp_stopHlsStreamSession {X : World → Prop} (h : facts.Known [.has .keeper] t w) :
    (contract legacy).wp t App.stopHlsStreamSession (fun _ => facts.Known [.has .sole] t) X w := by
  refine wp_step (fits_of_aside (aside rfl)) h fun w _ _ _ _ _ h => ?_
  refine wp_step (fits_of_aside (aside rfl)) h fun w joinable _ _ ha _ h => ?_
  have hkeeper : Keeper t (w.after t .streamThreadJoinable joinable) := h (.has .keeper) (.head _)
  have hjoinable : joinable = w.threads.streamThread.isSome :=
    of_decide_eq_true (World.threads_of_answers ha)
  cases joinable with
  | false =>
    refine wp_known (K := fun _ => [.has .sole]) (Facts.known_nil.learn ⟨hkeeper, ?_⟩)
    exact Option.not_isSome_iff_eq_none.mp (Bool.eq_false_iff.mp hjoinable.symm)
  | true =>
    refine wp_step (f := .ret) (fits_of_aside (aside rfl)) h fun w _ _ _ _ _ h => ?_
    exact wp_known (K := fun _ => [.has .sole])
      (Facts.known_nil.learn ⟨h (.has .keeper) (.head _), rfl⟩)

/-! ### Acquiring and releasing -/

/-- What the keeper of a session without a worker has to know in order to acquire the camera. -/
structure Acquires (legacy : Bool) (l : List Fact) : Prop where
  sole : .has .sole ∈ l
  manager : Fits legacy l (.assign .cameraManager_ true)
  start : Fits legacy (.manager :: l) .managerStart
  cameras : Fits legacy (.manager :: l) .managerCameras

/-- The manager is at hand when it is started, and the camera when it is acquired. -/
theorem wp_acquireCamera (hl : Acquires legacy l) (h : facts.Known l t w) :
    (contract legacy).wp t acquireCamera (fun _ => facts.Known l t) (facts.Known l t) w := by
  have hX : ∀ w, facts.Known (.manager :: l) t w → facts.Known l t w :=
    fun _ h => h.mono (List.subset_cons_self ..)
  refine wp_first (.call (fits_of_aside (aside rfl))) (fun _ => id) h fun made w h => ?_
  refine wp_first (built_orThrow made) (fun _ => id) h fun _ w h => ?_
  refine wp_step hl.manager h fun w r _ _ _ _ h => ?_
  have h : facts.Known (.manager :: l) t (w.after t (.assign .cameraManager_ true) r) := by
    refine h.learn ⟨(h (.has .sole) hl.sole).1, ?_⟩
    show Function.update w.ptr .cameraManager_ true .cameraManager_ = true
    rw [Function.update_self]
  refine wp_first (.call hl.start) hX h fun started w h => ?_
  refine wp_first (built_check started) hX h fun _ w h => ?_
  refine wp_first (.call hl.cameras) hX h fun cameras w h => ?_
  rcases cameras with _ | (_ | cameras)
  · exact fun v hr hi => known_rely w v hr hi (hX w h)
  · exact wp_known (K := fun _ => l) (hX w h)
  · have h : facts.Known l t w := hX w h
    refine wp_step (fits_of_aside (aside rfl)) h fun w r _ _ _ _ h => ?_
    have hcamera : facts.Known (.camera .sole :: l) t (w.after t (.assign .camera_ true) r) := by
      refine h.learn ⟨rfl, h (.has .sole) hl.sole, ?_⟩
      show Function.update w.ptr .camera_ true .camera_ = true
      rw [Function.update_self]
    have hdone : ∀ w, facts.Known (.camera .sole :: l) t w → facts.Known l t w :=
      fun _ h => h.mono (List.subset_cons_self ..)
    refine wp_first (.call (fits_of_quiet (by decide) rfl)) hdone hcamera fun acquired w h => ?_
    exact wp_last (built_check acquired) (fun _ => id) (hdone w h)

/-- What `reinitialize` knows when it releases the camera. -/
abbrev releasing : List Fact := [.has .ops, .off .sole, .has .sole]

/-- The camera has been stopped when `streamCheckWorker` goes on to release it. -/
theorem wp_retire {X : World → Prop}
    (h : facts.Known (.camera .sole :: releasing) .check w) :
    (contract legacy).wp .check (stopCameraIfRunning legacy)
      (fun _ => facts.Known (.retired :: .camera .sole :: releasing) .check) X w := by
  have hretired : ∀ w, facts.Known (.camera .sole :: releasing) .check w →
      w.device.running = false →
      facts.Known (.retired :: .camera .sole :: releasing) .check w := by
    intro w h hstopped
    have hoff : facts (.off .sole) .check w := h (.off .sole) (by decide)
    exact h.learn ⟨rfl, h (.has .ops) (by decide), hoff.2.1, hoff.2.2, hstopped⟩
  have hstop : ∀ w, facts.Known (.camera .sole :: releasing) .check w →
      (contract legacy).wp .check cameraStop
        (fun _ => facts.Known (.retired :: .camera .sole :: releasing) .check) X w := by
    intro w h
    refine wp_step (fits_of_quiet (by decide) rfl) h fun w _ _ _ _ _ h => ?_
    refine wp_step (f := .ret) (fits_of_quiet (by decide) rfl) h fun w _ _ _ _ _ h => ?_
    exact wp_known (K := fun _ => .retired :: .camera .sole :: releasing) (hretired _ h rfl)
  refine wp_step (fits_of_aside (aside rfl)) h fun w camera _ hbefore ha _ h => ?_
  have hcamera : camera = w.ptr .camera_ := of_decide_eq_true (World.shared_of_answers ha)
  rw [(hbefore (.camera .sole) (.head _)).2.2] at hcamera
  subst hcamera
  cases legacy with
  | true => exact hstop _ h
  | false =>
    refine wp_step (fits_of_quiet (by decide) rfl) h fun w running _ _ ha _ h => ?_
    have hrunning : running = w.device.running := of_decide_eq_true (World.device_of_answers ha)
    cases running with
    | false =>
      exact wp_known (K := fun _ => .retired :: .camera .sole :: releasing)
        (hretired _ h hrunning.symm)
    | true => exact hstop _ h

/-- A member is checked, and not null from then on. -/
theorem wp_check {α : Type} {X : World → Prop} {Q : α → World → Prop} {f : Bool → Prog Sys α}
    {p : Ptr} (g : Fact) (hlearn : ∀ w, facts.Known l t w → w.ptr p = true → facts g t w)
    (hset : ∀ w, facts.Known (g :: l) t w → (contract legacy).wp t (f true) Q X w)
    (hunset : ∀ w, facts.Known l t w → (contract legacy).wp t (f false) Q X w)
    (h : facts.Known l t w) : (contract legacy).wp t (sys (.isSet p) >>= f) Q X w := by
  have hcall : Fits legacy l (.isSet p) := fits_of_aside ⟨by cases p <;> decide, nofun⟩
  refine wp_step hcall h fun w set _ _ ha _ h => ?_
  have hreply : set = w.ptr p := of_decide_eq_true (World.shared_of_answers ha)
  cases set with
  | false => exact hunset _ h
  | true => exact hset _ (h.learn (hlearn _ h hreply.symm))

theorem wp_checkManager {α : Type} {X : World → Prop} {Q : α → World → Prop}
    {f : Bool → Prog Sys α} (hsole : .has .sole ∈ l)
    (hset : ∀ w, facts.Known (.manager :: l) t w → (contract legacy).wp t (f true) Q X w)
    (hunset : ∀ w, facts.Known l t w → (contract legacy).wp t (f false) Q X w)
    (h : facts.Known l t w) :
    (contract legacy).wp t (sys (.isSet .cameraManager_) >>= f) Q X w :=
  wp_check .manager (fun _ h hset => ⟨(h _ hsole).1, hset⟩) hset hunset h

theorem wp_checkCamera {α : Type} {X : World → Prop} {Q : α → World → Prop}
    {f : Bool → Prog Sys α} (hsole : .has .sole ∈ l)
    (hset : ∀ w, facts.Known (.camera .sole :: l) t w → (contract legacy).wp t (f true) Q X w)
    (hunset : ∀ w, facts.Known l t w → (contract legacy).wp t (f false) Q X w)
    (h : facts.Known l t w) : (contract legacy).wp t (sys (.isSet .camera_) >>= f) Q X w :=
  wp_check (.camera .sole) (fun _ h hset => ⟨rfl, h _ hsole, hset⟩) hset hunset h

theorem wp_releaseCamera {X : World → Prop} (h : facts.Known releasing .check w) :
    (contract legacy).wp .check (releaseCamera legacy) (fun _ => facts.Known releasing .check) X w := by
  refine wp_of_noThrow (X := fun _ => True) noThrow_releaseCamera ?_
  have hmanager : ∀ w, facts.Known releasing .check w → (contract legacy).wp .check (do
      Prog.when (← sys (.isSet .cameraManager_)) do
        sys .managerStop
        sys (.assign .cameraManager_ false))
      (fun _ => facts.Known releasing .check) (fun _ => True) w := by
    intro w h
    apply wp_checkManager (by decide) _ _ h
    · intro w h
      refine wp_first (.call (fits rfl)) (fun _ _ => trivial) h fun _ w h => ?_
      exact wp_last (.call (fits rfl)) (fun _ _ => trivial) (h.mono (List.subset_cons_self ..))
    · exact fun w h => wp_known (K := fun _ => releasing) h
  refine wp_bind_of (Q := fun set w => facts.Known (either (.camera .sole :: releasing) releasing set)
    .check w) (wp_checkCamera (f := .ret) (by decide) ?_ ?_ h) fun set w _ h => ?_
  · exact fun w h => wp_known (K := either (.camera .sole :: releasing) releasing) h
  · exact fun w h => wp_known (K := either (.camera .sole :: releasing) releasing) h
  cases set with
  | false =>
    refine wp_bind_of (Q := fun _ => facts.Known releasing .check) ?_ fun _ w _ h => hmanager w h
    exact wp_known (K := fun _ => releasing) h
  | true =>
    refine wp_bind_of (Q := fun _ => facts.Known releasing .check) ?_ fun _ w _ h => hmanager w h
    refine wp_bind_of (wp_retire h) fun _ w _ h => ?_
    refine wp_first (.call (fits rfl)) (fun _ _ => trivial) h fun _ w h => ?_
    -- here `camera_` is given up
    have h : facts.Known (.retired :: releasing) .check w :=
      (h.mono fun f hf => .tail _ (.tail _ hf)).learn (h .retired (.head _))
    refine wp_mono (wp_last (X := fun _ => True) (.call (fits rfl)) (fun _ _ => trivial) h) ?_
      fun _ _ h => h
    exact fun _ w _ h => h.mono (List.subset_cons_self ..)

/-- `reinitialize`, where there is no worker. -/
theorem wp_reinitializeCamera (h : facts.Known [.has .sole] .check w) :
    (contract legacy).wp .check (reinitializeCamera legacy)
      (fun _ => facts.Known [.has .sole] .check) (facts.Known [.has .sole] .check) w := by
  have hsole : ∀ w, facts.Known releasing .check w → facts.Known [.has .sole] .check w :=
    fun _ h => h.mono fun f hf => .tail _ (.tail _ hf)
  refine wp_scope (K := fun _ => [.has .sole]) h (fun w h howner => ?_) (fun _ => fits rfl)
    (fits rfl)
  have h : facts.Known [.has .ops, .has .sole] .check w := h.learn howner
  refine wp_step (fits_of_aside (aside rfl)) h fun w on _ _ ha _ h => ?_
  have hon : on = w.flag .isVideoMode_ := of_decide_eq_true (World.shared_of_answers ha)
  refine wp_bind_of (Q := fun _ => facts.Known releasing .check) ?_ fun _ w _ h => ?_
  · cases on with
    | false =>
      have hops : facts (.has .ops) .check (w.after .check (.load .isVideoMode_) false) :=
        h (.has .ops) (.head _)
      have h : facts.Known [.has .sole] .check (w.after .check (.load .isVideoMode_) false) :=
        h.mono (List.subset_cons_self ..)
      have hoff : facts (.off .sole) .check (w.after .check (.load .isVideoMode_) false) :=
        ⟨rfl, h (.has .sole) (.head _), hon.symm⟩
      exact wp_known (K := fun _ => releasing) ((h.learn hoff).learn hops)
    | true =>
      have h : facts.Known [.has .sole] .check _ := h.mono (List.subset_cons_self ..)
      refine wp_step (fits rfl) h fun w _ _ _ _ _ h => ?_
      refine wp_bind_of (wp_stopVideoMode ⟨fits rfl, fits rfl, fits rfl, fits rfl⟩ h)
        fun _ w _ h => ?_
      refine wp_step (f := .ret) (fits rfl) h fun w _ _ _ _ _ h => ?_
      exact wp_known (K := fun _ => releasing) (h.learn World.owner_after_relock)
  refine wp_mono (Q := fun _ => facts.Known releasing .check) (X := facts.Known releasing .check) ?_
    (fun _ w _ h => hsole w h) fun w _ h => hsole w h
  refine wp_tryCatch.mpr (wp_mono (X := facts.Known releasing .check) ?_ (fun _ _ _ h => h) ?_)
  · refine wp_bind_of (wp_releaseCamera h) fun _ w _ h => ?_
    refine wp_first (built_reset (fits rfl)) (fun _ => id) h fun _ w h => ?_
    refine wp_first built_shut (fun _ => id) h fun _ w h => ?_
    refine wp_bind_of (wp_acquireCamera ⟨by decide, fits rfl, fits rfl, fits rfl⟩ h)
      fun acquired w _ h => ?_
    refine wp_last (.ite ?_ ?_) (fun _ => id) h
    · exact .bind (.call (fits rfl)) fun _ => .ret _
    · exact .bind (.call (fits rfl)) fun _ => .bind (.call (fits rfl)) fun _ =>
        .bind (.call (fits rfl)) fun _ => .bind (.call (fits rfl)) fun _ => .ret _
  · exact fun w _ h => wp_last (.bind (.call (fits rfl)) fun _ => .ret _) (fun _ => id) h

/-- `initialize`, as `main` calls it before it starts the workers. -/
theorem wp_initializeCamera (h : facts.Known [.has .sole] t w) :
    (contract legacy).wp t initializeCamera (fun _ => facts.Known [.has .sole] t)
      (facts.Known [.has .sole] t) w := by
  refine wp_scope (K := fun _ => [.has .sole]) h (fun w h _ => ?_) (fun _ => fits rfl) (fits rfl)
  refine wp_tryCatch.mpr (wp_mono (X := facts.Known [.has .sole] t) ?_ (fun _ _ _ h => h)
    fun w _ h => wp_known (K := fun _ => [.has .sole]) h)
  refine wp_bind_of (wp_acquireCamera ⟨by decide, fits rfl, fits rfl, fits rfl⟩ h)
    fun acquired w _ h => ?_
  refine wp_last (.ite (.ret _) ?_) (fun _ => id) h
  exact .bind (.call (fits rfl)) fun _ => .bind (.call (fits rfl)) fun _ => .ret _

/-- The destructor, with no other thread at work on the camera. -/
theorem wp_destroy {X : World → Prop} (h : facts.Known [.has .sole] t w) :
    (contract legacy).wp t (destroy legacy) (fun _ => facts.Known [] t) X w := by
  have hsole : ∀ f l w, facts.Known (f :: l) t w → facts.Known l t w :=
    fun _ _ _ h => h.mono (List.subset_cons_self ..)
  refine wp_tryCatch.mpr (wp_mono (Q := fun _ => facts.Known [.has .sole] t)
    (X := fun _ => True) ?_ (fun _ _ _ _ => Facts.known_nil) fun w _ _ =>
      wp_known (K := fun _ => []) Facts.known_nil)
  refine wp_first (.call (fits rfl)) (fun _ _ => trivial) h fun on w h => ?_
  refine wp_bind_of (Q := fun _ => facts.Known [.has .sole] t) ?_ fun _ w _ h => ?_
  · cases on with
    | false => exact wp_known (K := fun _ => [.has .sole]) h
    | true =>
      refine wp_bind_of (wp_stopVideoMode ⟨fits rfl, fits rfl, fits rfl, fits rfl⟩ h)
        fun _ w _ h => ?_
      exact wp_known (K := fun _ => [.has .sole]) (hsole _ _ _ h)
  have hend : ∀ w, facts.Known [.has .sole] t w → (contract legacy).wp t (do
      resetAllocator
      Prog.when (← sys (.isSet .cameraManager_)) (sys .managerStop)
      sys (.assign .cameraManager_ false)
      shutdownGstreamerPipeline)
      (fun _ => facts.Known [.has .sole] t) (fun _ => True) w := by
    intro w h
    have hlast : ∀ w, facts.Known [.has .sole] t w → (contract legacy).wp t (do
        sys (.assign .cameraManager_ false)
        shutdownGstreamerPipeline)
        (fun _ => facts.Known [.has .sole] t) (fun _ => True) w := fun w h =>
      wp_last (.bind (.call (fits rfl)) fun _ => built_shut) (fun _ _ => trivial) h
    refine wp_first (built_reset (fits rfl)) (fun _ _ => trivial) h fun _ w h => ?_
    apply wp_checkManager (.head _) _ _ h
    · intro w h
      refine wp_first (.call (fits rfl)) (fun _ _ => trivial) h fun _ w h => ?_
      exact hlast w (hsole _ _ _ h)
    · exact fun w h => wp_bind_of (wp_known (K := fun _ => [.has .sole]) h) fun _ w _ h => hlast w h
  apply wp_checkCamera (.head _) _ _ h
  · intro w h
    refine wp_first (.bind (built_halting rfl) fun _ => .call (fits rfl)) (fun _ _ => trivial) h
      fun _ w h => ?_
    exact hend w (hsole _ _ _ h)
  · exact fun w h => wp_bind_of (wp_known (K := fun _ => [.has .sole]) h) fun _ w _ h => hend w h

end

/-! ## The threads -/

section

variable {legacy : Bool} {w : World} {l : List Fact}

theorem fits_of_workerCall (c : SysCall) (h : App.workerCall c = true) : Fits legacy l c := by
  refine fits_of_aside (aside_of (by decide) (fun c h => ?_) c h)
  cases c <;> first | exact of_decide_eq_true rfl | cases h

/-! ### streamCheckWorker -/

theorem keeps_recoverCamera :
    (contract legacy).Keeps .check (facts.Known [.has .keeper] .check)
      (App.recoverCamera legacy) := by
  intro w h
  refine wp_first (.call (fits rfl)) (fun _ => id) h fun needed w h => ?_
  cases needed with
  | false => exact wp_known (K := fun _ => [.has .keeper]) h
  | true =>
  refine wp_first (.call (fits rfl)) (fun _ => id) h fun keepRunning w h => ?_
  cases keepRunning with
  | false => exact wp_known (K := fun _ => [.has .keeper]) h
  | true =>
  refine wp_bind_of (wp_stopHlsStreamSession h) fun _ w _ h => ?_
  refine wp_bind_of (wp_mono (wp_reinitializeCamera h) (fun _ _ _ h => h)
    fun w _ h => keeper_of_sole h) fun done w _ h => ?_
  exact wp_last (.when _ (.call (fits rfl))) (fun _ => id) (keeper_of_sole h)

theorem wp_checkTurn {m : StreamCheck.Memory} (h : facts.Known [.has .keeper] .check w) :
    (contract legacy).wp .check (App.checkTurn legacy m)
      (fun next w => next.isSome = true → facts.Known [.has .keeper] .check w)
      (fun _ => True) w := by
  refine wp_first (.call (fits rfl)) (fun _ _ => trivial) h fun keepRunning w h => ?_
  cases keepRunning with
  | false =>
    refine wp_first (.call (fits rfl)) (fun _ _ => trivial) (Facts.known_nil (t := Tid.check))
      fun _ w _ => ?_
    exact fun _ _ _ => nofun
  | true =>
  have hW : ∀ c, App.workerCall c = true → Fits legacy [.has .keeper] c := fits_of_workerCall
  have hserve : (contract legacy).Keeps .check (facts.Known [.has .keeper] .check)
      (App.serveRequests legacy m) := by
    refine keeps_of_fits (App.built_serveRequests hW (fits rfl) (fits rfl) .self m) ?_
    rintro α p ⟨rfl, rfl⟩
    exact keeps_recoverCamera
  refine wp_mono (X := facts.Known [.has .keeper] .check)
    (Q := fun _ => facts.Known [.has .keeper] .check) ?_ (fun _ _ _ h _ => h) fun _ _ _ => trivial
  refine wp_bind_of (hserve w h) fun m w _ h => ?_
  refine wp_last (.bind (App.built_checkStream hW (fun b => ?_) m) fun next => ?_) (fun _ => id) h
  · exact App.built_followDecision hW (fits rfl) (fits rfl) (fits rfl) b
  · exact .bind (.when _ (App.built_checkSleep hW _)) fun _ => .ret _

/-! ### main -/

/-- Where a turn of the initialization leads to: back to its beginning without a worker. -/
def started : Option Bool → List Fact
  | none => [.has .sole]
  | some _ => []

theorem wp_startWorkers (h : facts.Known [.has .sole] .main w) :
    (contract legacy).wp .main
      (do
        if !(← sys (.load .keepRunning)) then
          CameraManager.destroy legacy
          sys .threadEnd
          return some false
        sys (.spawnWorker .snapshotThread)
        sys (.spawnWorker .checkStreamThread)
        sys (.spawnWorker .monitorThread)
        return some true)
      (fun next => facts.Known (started next) .main) (fun _ => True) w := by
  refine wp_first (.call (fits rfl)) (fun _ _ => trivial) h fun keepRunning w h => ?_
  cases keepRunning with
  | false =>
    refine wp_bind_of (wp_destroy h) fun _ w _ h => ?_
    refine wp_first (.call (fits rfl)) (fun _ _ => trivial) h fun _ w h => ?_
    exact wp_known (K := started) h
  | true =>
    have hspawn : ∀ worker, (sys (.spawnWorker worker)).Built (Fits legacy []) Prog.noParts :=
      fun worker => .call (by cases worker <;> exact fits rfl)
    refine wp_first (hspawn _) (fun _ _ => trivial) (Facts.known_nil (t := Tid.main)) fun _ w h => ?_
    refine wp_first (hspawn _) (fun _ _ => trivial) h fun _ w h => ?_
    refine wp_first (hspawn _) (fun _ _ => trivial) h fun _ w h => ?_
    exact wp_known (K := started) h

theorem wp_mainInitTurn {retryDelay : Nat} (h : facts.Known [.has .sole] .main w) :
    (contract legacy).wp .main (App.mainInitTurn legacy retryDelay)
      (fun next => facts.Known (started next) .main) (fun _ => True) w := by
  refine wp_first (.call (fits rfl)) (fun _ _ => trivial) h fun keepRunning w h => ?_
  cases keepRunning with
  | false => exact wp_startWorkers h
  | true =>
  have hinit : (contract legacy).wp .main (initializeCamera >>= fun ok => .ret !ok)
      (fun _ => facts.Known [.has .sole] .main) (fun _ => True) w := by
    refine wp_bind_of (wp_mono (wp_initializeCamera h) (fun _ _ _ h => h) fun _ _ _ => trivial)
      fun done w _ h => ?_
    exact wp_known (K := fun _ => [.has .sole]) h
  refine wp_bind_of hinit fun retry w _ h => ?_
  cases retry with
  | false => exact wp_startWorkers h
  | true =>
    refine wp_first (.call (fits rfl)) (fun _ _ => trivial) h fun _ w h => ?_
    exact wp_known (K := started) h

/-- `main` keeps the session once `streamCheckWorker` has been joined. -/
theorem wp_mainWaitTurn :
    (contract legacy).wp .main (App.mainWaitTurn legacy) (fun _ _ => True) (fun _ => True) w := by
  have hnil : ∀ w, facts.Known [] .main w := fun _ => Facts.known_nil
  refine wp_first (l := []) (.call (fits rfl)) (fun _ _ => trivial) (hnil w) fun keepRunning w h => ?_
  cases keepRunning with
  | true =>
    refine wp_first (.call (fits rfl)) (fun _ _ => trivial) h fun _ w _ => ?_
    exact fun _ _ _ => trivial
  | false =>
  refine wp_first (.call (fits rfl)) (fun _ _ => trivial) h fun _ w h => ?_
  refine wp_first (.call (fits rfl)) (fun _ _ => trivial) h fun _ w h => ?_
  refine wp_step (fits rfl) h fun w r _ _ ha _ _ => ?_
  have hkeeper : Keeper .main (w.after .main (.joinWorker .checkStreamThread) r) :=
    .inr ⟨rfl, .inl (World.threads_of_answers ha)⟩
  have h : facts.Known [.has .keeper] .main _ := Facts.known_nil.learn hkeeper
  refine wp_first (.call (fits rfl)) (fun _ _ => trivial) h fun _ w h => ?_
  refine wp_bind_of (wp_stopHlsStreamSession h) fun _ w _ h => ?_
  refine wp_bind_of (wp_destroy h) fun _ w _ h => ?_
  refine wp_first (.call (fits rfl)) (fun _ _ => trivial) h fun _ w _ => ?_
  exact fun _ _ _ => trivial

/-! ### streamHlsWorker -/

theorem keeps_hlsWorkerBegin {n : Nat} :
    (contract legacy).Keeps (.hls n) (facts.Known [] (.hls n)) (App.hlsWorkerBegin legacy) := by
  intro w h
  have hW : ∀ c, App.workerCall c = true → Fits legacy [] c := fits_of_workerCall
  have hend : (App.hlsWorkerEnd >>= fun _ => .ret false).Built (Fits legacy []) Prog.noParts :=
    .bind (App.built_hlsWorkerEnd hW (fits rfl)) fun _ => .ret _
  refine wp_first (.call (fits rfl)) (fun _ => id) h fun _ w h => ?_
  refine wp_step (fits rfl) h fun w cleaned _ _ _ hl h => ?_
  cases cleaned with
  | failed => exact wp_last hend (fun _ => id) h
  | threw => exact wp_last hend (fun _ => id) h
  | ok =>
  -- a worker that makes a call is alive
  obtain ⟨hstarted, hlive⟩ := hl.own n rfl nofun
  have hkept : (w.after (.hls n) .cleanHlsDirectory .ok).threads.finished (.hls n) =
      w.threads.finished (.hls n) := World.finished_after nofun
  have halive : Standing.working.Holds (.hls n) (w.after (.hls n) .cleanHlsDirectory .ok) :=
    ⟨n, rfl, World.started_mono hstarted, hkept.trans hlive⟩
  refine wp_bind_of (wp_mono (wp_startVideoMode (Facts.known_nil.learn halive)) (fun _ _ _ h => h)
    fun _ _ _ => Facts.known_nil) fun on w _ _ => ?_
  refine wp_last (.ite (.bind (.call (fits rfl)) fun _ => hend) (.ret _)) (fun _ => id)
    Facts.known_nil

/-! ### The thread of libcamera -/

/-- A request that has come back is queued again, while its completion is delivered. -/
theorem keeps_recycleVideoRequest {request : Nat} {t : Tid} :
    (contract legacy).Keeps t (facts.Known [.has .delivering, .has .callback] t)
      (recycleVideoRequest legacy request) := by
  intro w h
  refine wp_first (.call (fits rfl)) (fun _ => id) h fun _ w h => ?_
  have hlearn : ∀ w, facts.Known [.has .delivering, .has .callback] t w → w.ptr .camera_ = true →
      facts (.camera .delivering) t w :=
    fun w h hset => ⟨rfl, h (.has .delivering) (.head _), hset⟩
  refine wp_check (.camera .delivering) hlearn (fun w h => ?_)
    (fun w h => wp_known (K := fun _ => [.has .delivering, .has .callback]) h) h
  have hqueue : ∀ running : Bool, Prog.Built (S := Sys)
      (Fits legacy [.camera .delivering, .has .delivering, .has .callback]) Prog.noParts (do
        if !running then return
        let _ ← sys (.queueRequest request)) := fun running =>
    .ite (.ret _) (.bind (.call (fits_of_quiet (of_decide_eq_true rfl) rfl)) fun _ => .ret _)
  refine wp_mono (wp_last (X := facts.Known [.camera .delivering, .has .delivering, .has .callback] t)
    (.ite (.ret _) <| .ite (.bind (.ret _) hqueue) <|
      .bind (.call (fits_of_quiet (by decide) rfl)) hqueue)
    (fun _ => id) h) (fun _ w _ h => ?_) fun w _ h => ?_
  · exact h.mono (List.subset_cons_self ..)
  · exact h.mono (List.subset_cons_self ..)

theorem keeps_completionTurn :
    (contract legacy).Keeps .callback (facts.Known [.has .callback] .callback)
      (completionTurn legacy) := by
  intro w h
  refine wp_step (fits rfl) h fun w completion _ _ _ _ h => ?_
  have h : facts.Known [.has .delivering, .has .callback] .callback
      (w.after .callback .nextCompletion completion) :=
    h.learn ⟨rfl, Option.some_ne_none completion⟩
  have hslots : (contract legacy).Keeps .callback
      (facts.Known [.has .delivering, .has .callback] .callback)
      (runSlots legacy completion.request completion.slots) := by
    refine keeps_of_fits (built_slots (fun c h => ?_) (fun c h => ?_) .self _) ?_
    · refine fits_of_aside (aside_of (by decide) (fun c h => ?_) c h)
      cases c <;> first | exact of_decide_eq_true rfl | cases h
    · refine fits_of_aside (aside_of (by decide) (fun c h => ?_) c h)
      cases c <;> first | exact of_decide_eq_true rfl | cases h
    · rintro α p ⟨rfl, rfl⟩
      exact keeps_recycleVideoRequest
  have hcallback : ∀ w, facts.Known [.has .delivering, .has .callback] .callback w →
      facts.Known [.has .callback] .callback w := fun _ h => h.mono (List.subset_cons_self ..)
  refine wp_bind_of (wp_mono (hslots _ h) (fun _ _ _ h => h) fun w _ h => hcallback w h)
    fun _ w _ h => ?_
  exact wp_last (.call (fits rfl)) (fun _ => id) (hcallback w h)

end

/-! ### All of them -/

/-- What holds at the control points. -/
def holds : (t : Tid) → t.Pc → World → Prop
  | .main, .init _, w => facts.Known [.has .sole] .main w
  | .check, .begin, w => facts.Known [.has .live] .check w
  | .check, .loop _, w => facts.Known [.has .keeper] .check w
  | .caller _, _, _ => False
  | _, _, _ => True

section

variable {legacy : Bool} {w : World}

theorem wp_mainBody {pc : MainPc} (h : holds .main pc w) :
    (contract legacy).wp .main (mainBody legacy pc)
      (fun next w => ∀ pc' : MainPc, next = some pc' → holds .main pc' w) (fun _ => True) w := by
  cases pc with
  | init retryDelay =>
    refine wp_bind_of (wp_mainInitTurn h) fun next w _ h => ?_
    rcases next with _ | (_ | _)
    · rintro v hr hi _ ⟨⟩
      exact known_rely w v hr hi h
    · exact fun _ _ _ _ => nofun
    · rintro v hr hi _ ⟨⟩
      trivial
  | wait =>
    refine wp_bind_of wp_mainWaitTurn fun more w _ _ => ?_
    cases more
    · exact fun _ _ _ _ => nofun
    · rintro v hr hi _ ⟨⟩
      trivial

theorem wp_checkBody {pc : CheckPc} (h : holds .check pc w) :
    (contract legacy).wp .check (checkBody legacy pc)
      (fun next w => ∀ pc' : CheckPc, next = some pc' → holds .check pc' w) (fun _ => True) w := by
  cases pc with
  | begin =>
    refine wp_step (fits rfl) h fun w _ _ _ ha _ h => ?_
    have hkeeper : Keeper .check (w.after .check .threadBegin ()) :=
      .inl ⟨rfl, World.threads_of_answers ha, h (.has .live) (.head _)⟩
    have h : facts.Known [.has .keeper] .check _ := Facts.known_nil.learn hkeeper
    rintro v hr hi _ ⟨⟩
    exact known_rely _ v hr hi h
  | loop m =>
    refine wp_bind_of (wp_checkTurn h) fun next w _ h => ?_
    cases next with
    | none => exact fun _ _ _ _ => nofun
    | some m =>
      rintro v hr hi _ ⟨⟩
      exact known_rely w v hr hi (h rfl)

theorem keeps_hlsBody {n : Nat} {pc : LoopPc} :
    (contract legacy).Keeps (.hls n) (facts.Known [] (.hls n)) (hlsBody legacy pc) := by
  have hW : ∀ c, App.workerCall c = true → Fits legacy [] c := fits_of_workerCall
  have hbuilt : (hlsBody legacy pc).Built (Fits legacy []) (fun α p =>
      Prog.onlyPart (App.hlsWorkerBegin legacy) α p ∨ Prog.onlyPart (stopVideoMode legacy) α p) :=
    built_hlsBody legacy (.part (.inl ⟨rfl, rfl⟩)) (App.built_hlsLoopTurn hW (fits rfl) (fits rfl))
      (App.built_hlsWorkerFinish hW (fits rfl) (.part (.inr ⟨rfl, rfl⟩))) pc
  refine keeps_of_fits hbuilt ?_
  rintro α p (⟨rfl, rfl⟩ | ⟨rfl, rfl⟩)
  · exact keeps_hlsWorkerBegin
  · exact fun w h => wp_stopVideoMode ⟨fits rfl, fits rfl, fits rfl, fits rfl⟩ h

end

def proof (legacy : Bool) : (contract legacy).Proof (code legacy) where
  holds := holds
  body t pc w _ h := by
    have hW : ∀ c, App.workerCall c = true → Fits legacy [] c := fits_of_workerCall
    have hnil : ∀ w, facts.Known [] t w := fun _ => Facts.known_nil
    cases t with
    | main => exact wp_mainBody h
    | check => exact wp_checkBody h
    | caller n => exact h.elim
    | hls n =>
      exact wp_mono (keeps_hlsBody w (hnil w)) (fun _ _ _ _ _ _ => trivial) fun _ _ _ => trivial
    | snapshot =>
      have hbuilt : (workerBody (App.snapshotTurn legacy) pc).Built (Fits legacy [])
          (Prog.onlyPart (takePicture legacy)) :=
        built_workerBody (fits rfl) (App.built_snapshotTurn hW (fits rfl) .self) pc
      refine wp_mono (keeps_of_fits hbuilt ?_ w (hnil w)) (fun _ _ _ _ _ _ => trivial)
        fun _ _ _ => trivial
      rintro α p ⟨rfl, rfl⟩
      exact keeps_takePicture
    | monitor =>
      have hbuilt : (workerBody App.monitorTurn pc).Built (Fits legacy []) Prog.noParts :=
        built_workerBody (fits rfl) (App.built_monitorTurn hW (fits rfl) (fits rfl)) pc
      exact wp_mono (wp_last hbuilt (fun _ => id) (hnil w)) (fun _ _ _ _ _ _ => trivial)
        fun _ _ _ => trivial
    | callback =>
      have hturn : (contract legacy).Keeps .callback (facts.Known [.has .callback] .callback)
          (callbackBody legacy) := fun w h =>
        wp_bind_of (keeps_completionTurn w h) fun _ w _ h =>
          wp_known (K := fun _ => [.has .callback]) h
      exact wp_mono (hturn w (Facts.known_nil.learn rfl)) (fun _ _ _ _ _ _ => trivial)
        fun _ _ _ => trivial
    | gst n =>
      have hgst : ∀ c, gstCall c = true → Fits legacy [] c := by
        refine fun c h => ⟨not_mem_of (by decide) c h, .inr ?_⟩
        cases c <;> first | exact of_decide_eq_true rfl | cases h
      exact wp_mono (wp_last (built_gstBody pc hgst) (fun _ => id) (hnil w))
        (fun _ _ _ _ _ _ => trivial) fun _ _ _ => trivial

theorem valid_start (legacy : Bool) : (proof legacy).Valid (appStart legacy) := by
  have hsound : Sound (appStart legacy).world :=
    ⟨(Lifecycle.valid_start legacy).inv, nofun, fun _ => ⟨rfl, rfl⟩⟩
  have hsole : facts (.has .sole) .main (appStart legacy).world := ⟨.inr ⟨rfl, .inr rfl⟩, rfl⟩
  have hlive : facts (.has .live) .check (appStart legacy).world := rfl
  apply valid_appStart
  · exact hsound
  · exact fun w hr _ => Facts.Known.kept (Facts.known_nil.learn hsole) hr
  · exact fun _ _ _ => trivial
  · exact fun w hr _ => Facts.Known.kept (Facts.known_nil.learn hlive) hr
  · exact fun _ _ _ => trivial
  · exact fun _ _ _ _ => trivial
  · exact fun _ _ _ => trivial
  · exact fun _ _ _ _ => trivial

/-- A thread may go through a member only where it is not null, or where its behaviour is undefined
anyway. -/
theorem Allowed.uses {legacy : Bool} {t : Tid} {c : SysCall} {w : World} {p : Ptr}
    (h : Allowed legacy t c w) (hc : c ≠ .undefinedBehaviour) (hp : p ∈ c.uses legacy) :
    w.ptr p = true := by
  by_cases hcamera : p = .camera_
  · subst hcamera
    exact h.camera hp
  have hneeded : c ∈ table.gated ∧
      (table.needs c = [.manager] ∧ p = .cameraManager_ ∨
        table.needs c = [.streams] ∧ (p = .allocator_ ∨ p = .currentConfig_)) := by
    cases c with
    | managerStart => exact ⟨by decide, .inl ⟨rfl, List.mem_singleton.mp hp⟩⟩
    | managerCameras => exact ⟨by decide, .inl ⟨rfl, List.mem_singleton.mp hp⟩⟩
    | managerStop => exact ⟨by decide, .inl ⟨rfl, List.mem_singleton.mp hp⟩⟩
    | allocate a =>
      cases a with
      | photo => cases hp
      | video => exact ⟨by decide, .inr ⟨rfl, List.mem_pair.mp hp⟩⟩
    | allocatorBuffers a =>
      cases a with
      | photo => cases hp
      | video => exact ⟨by decide, .inr ⟨rfl, List.mem_pair.mp hp⟩⟩
    | disconnect s =>
      change p ∈ (if legacy ∧ s = .video then [Ptr.camera_] else []) at hp
      split at hp
      · exact absurd (List.mem_singleton.mp hp) hcamera
      · cases hp
    | undefinedBehaviour => exact absurd rfl hc
    | acquire | release | generateConfiguration | configure | createRequest | queueRequest | connect
    | cameraStart | cameraIsRunning | stopBegin => exact absurd (List.mem_singleton.mp hp) hcamera
    | _ => cases hp
  obtain ⟨hgated, hneeds⟩ := hneeded
  obtain ⟨f, hf, hfact⟩ := h.entitled hgated
  rcases hneeds with ⟨hneeds, rfl⟩ | ⟨hneeds, hp⟩
  · rw [hneeds] at hf
    rw [List.mem_singleton.mp hf] at hfact
    exact hfact.2
  · rw [hneeds] at hf
    rw [List.mem_singleton.mp hf] at hfact
    rcases hp with rfl | rfl
    · exact hfact.2.2.2
    · exact hfact.2.2.1

end AtHand

/-- In every run of the application: no thread is about to go through a member that is null, but for
the undefined behaviour behind a configuration that is null or empty or a buffer without planes; where
libcamera hands out none of these, no thread comes to that either; and `camera_` is given up by
`streamCheckWorker` only, when no HLS worker is alive, video mode is off, the camera does not run and
no completion is being delivered. -/
theorem App.members_at_hand {legacy : Bool} {cfg : Config (code legacy) World}
    (hrun : Run system anyStep (appStart legacy) cfg) {t : Tid} {c : SysCall}
    (hcall : cfg.pending t = some c) :
    (c ≠ .undefinedBehaviour → ∀ p ∈ c.uses legacy, cfg.world.ptr p = true) ∧
    (Undefined.ProperRun cfg → c ≠ .undefinedBehaviour) ∧
    (c = .assign .camera_ false → t = .check ∧ (∀ n, ¬ Alive n cfg.world) ∧
      cfg.world.flag .isVideoMode_ = false ∧ cfg.world.device.running = false ∧
        cfg.world.device.delivering = none) := by
  have hok : Run system AtHand.ok (appStart legacy) cfg :=
    ((Lifecycle.proof legacy).run_pre (Lifecycle.valid_start legacy) (fun _ _ h => h) hrun).mono
      fun _ _ h => h.2
  have hvalid := (AtHand.proof legacy).sound (AtHand.valid_start legacy) hok
  have hallowed : AtHand.Allowed legacy t c cfg.world := hvalid.pre hcall
  refine ⟨fun hc p hp => hallowed.uses hc hp,
    fun hproper => Undefined.other_of_properRun hproper hcall, fun hdrop => ?_⟩
  obtain ⟨hthread, -, hsole, hoff, hstopped⟩ := hallowed.drops hdrop
  exact ⟨hthread, AtHand.no_worker hvalid.inv.single hsole, hoff, hstopped,
    (hvalid.inv.idle hstopped).2⟩

/-- The replies of a camera that cannot be configured. -/
def AtHand.unconfigured (w : World) : (c : SysCall) → Option c.Reply
  | .configure _ => some .failed
  | c => w.willing .takePicture c

/-- A session does not start, and the recovery that it asks for comes to release the camera. -/
def AtHand.releasingCamera : List (Choice Sys Tid World Signal) :=
  runs .main .takePicture 18 ++ runs .check .takePicture 15 ++ runsWith unconfigured (.hls 0) 14 ++
    runsWith unconfigured .check 16

/-- The steps of that run. -/
def AtHand.properStep (_ : World) : Label Sys Tid Signal → Bool
  | .act _ c r => Undefined.proper c r
  | _ => true

theorem App.members_at_hand_release :
    ∃ cfg : Config (code false) World, cfg.pending .check = some (.assign .camera_ false) ∧
      cfg.world.threads.hlsWorkers = 1 ∧ (∀ n, ¬ Alive n cfg.world) ∧
        cfg.world.flag .isVideoMode_ = false ∧ cfg.world.device.running = false ∧
          cfg.world.device.delivering = none ∧
            ∀ t c, cfg.pending t = some c → ∀ p ∈ c.uses false, cfg.world.ptr p = true := by
  obtain ⟨cfg, hrun, htest⟩ := exec_reaches system AtHand.properStep (appStart false)
    AtHand.releasingCamera (fun cfg => cfg.pending .check = some (.assign .camera_ false) ∧
      cfg.world.threads.hlsWorkers = 1) (by decide +kernel)
  obtain ⟨hcall, hworkers⟩ := of_decide_eq_true htest
  have hproper : Undefined.ProperRun cfg := hrun.mono fun w l hl t c r hact => by
    rw [hact] at hl
    exact hl
  have hrun : Run system anyStep (appStart false) cfg := hrun.mono fun _ _ _ => trivial
  obtain ⟨-, -, hdrop⟩ := App.members_at_hand hrun hcall
  obtain ⟨-, hnone, hoff, hstopped, hidle⟩ := hdrop rfl
  refine ⟨cfg, hcall, hworkers, hnone, hoff, hstopped, hidle, fun t c hc => ?_⟩
  obtain ⟨huses, hdefined, -⟩ := App.members_at_hand hrun hc
  exact huses (hdefined hproper)

end SurfCam

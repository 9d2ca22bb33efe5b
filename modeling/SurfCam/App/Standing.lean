import SurfCam.App.Session
import SurfCam.App.Snapshot
import SurfCam.Camera.SetUp
import SurfCam.Logic.Facts

/-!
# What a thread stands on

Which calls go through a member of `CameraManager`, and what a thread of the application counts on
when it goes through one: a mutex, the video mode that it tears down, its own life, the completion
that it delivers, the session that it keeps.  `camera_` is given up where the ground of every other
thread excludes it.
-/

namespace SurfCam

open Interaction CameraManager Contract Lifecycle

/-- The members that a call goes through. -/
def SysCall.uses (legacy : Bool) : SysCall → List Ptr
  | .acquire | .release => [.camera_]
  | .managerStart | .managerCameras | .managerStop => [.cameraManager_]
  -- `currentConfig_->at(0)` of a configuration that is null or empty
  | .undefinedBehaviour => [.currentConfig_]
  | c => c.through legacy

/-- The thread is the one that starts the HLS workers, or no worker can be started. -/
def Keeper (t : Tid) (w : World) : Prop :=
  t = .check ∧ CheckAlive w ∨
    t = .main ∧ (w.threads.finished .check = true ∨ w.threads.started .check = false)

namespace World

variable {t : Tid} {c : SysCall} {r : c.Reply} {w : World}

/-- Only a start makes the camera run. -/
theorem stopped_kept (hc : c ≠ .cameraStart) (h : w.device.running = false) :
    (w.after t c r).device.running = false := by
  apply Bool.eq_false_iff.mpr
  intro hrunning
  cases running_of_after hrunning with
  | inl hbefore => exact Bool.false_ne_true (h.symm.trans hbefore)
  | inr hstart => exact hc hstart

/-- Only `main` starts `streamCheckWorker`. -/
theorem unstarted_kept (hc : c ≠ .spawnWorker .checkStreamThread)
    (h : w.threads.started .check = false) : (w.after t c r).threads.started .check = false := by
  by_cases hs : sessionCall c = false
  · rw [(threads_after hs).1 .check nofun, h]
  cases c with
  | spawnWorker worker =>
    have hne : Tid.check ≠ worker.tid := by
      cases worker with
      | checkStreamThread => contradiction
      | snapshotThread => exact nofun
      | monitorThread => exact nofun
    exact (Function.update_of_ne hne ..).trans h
  | spawnStreamThread =>
    have hne : Tid.check ≠ .hls w.threads.hlsWorkers := nofun
    cases r with
    | ok => exact (Function.update_of_ne hne true w.threads.started).trans h
    | failed => exact h
    | threw => exact h
  | streamThreadJoin => exact h
  | _ => exact absurd rfl hs

end World

namespace AtHand

/-! ## What a thread stands on -/

/-- What a thread can stand on. -/
inductive Standing where
  /-- it has not ended -/
  | live
  /-- it owns `cameraOpsMutex_` -/
  | ops
  /-- it owns `videoTeardownMutex_` -/
  | teardown
  /-- it owns that mutex, and video mode is on -/
  | engaged
  /-- it is an HLS worker that has not ended -/
  | working
  /-- it is the thread of libcamera -/
  | callback
  /-- it is that thread, and runs the slots of a completion -/
  | delivering
  /-- it keeps the session -/
  | keeper
  /-- it keeps the session, and the session has no worker -/
  | sole
  deriving DecidableEq

def Standing.Holds : Standing → Tid → World → Prop
  | live, t, w => w.threads.finished t = false
  | ops, t, w => w.owner .cameraOpsMutex_ = some t
  | teardown, t, w => w.owner .videoTeardownMutex_ = some t
  | engaged, t, w => w.owner .videoTeardownMutex_ = some t ∧ w.flag .isVideoMode_ = true
  | working, t, w => ∃ n, t = .hls n ∧ Alive n w
  | callback, t, _ => t = .callback
  | delivering, t, w => t = .callback ∧ w.device.delivering ≠ none
  | keeper, t, w => Keeper t w
  | sole, t, w => Keeper t w ∧ w.threads.streamThread = none

/-- The calls with which a thread leaves its ground. -/
def Standing.ends : Standing → List SysCall
  | live => [.threadEnd]
  | ops => [.unlock .cameraOpsMutex_]
  | teardown => [.unlock .videoTeardownMutex_]
  | engaged => [.unlock .videoTeardownMutex_, .store .isVideoMode_ false]
  | working => [.threadEnd]
  | callback => []
  | delivering => [.nextCompletion, .completionDone]
  | keeper => [.threadEnd, .spawnWorker .checkStreamThread]
  | sole => [.threadEnd, .spawnWorker .checkStreamThread, .spawnStreamThread]

/-- On this ground `camera_` stays what it is. -/
def Standing.holdsCamera : Standing → Bool
  | ops | engaged | working | delivering | sole => true
  | _ => false

/-- On this ground nobody else switches video mode on. -/
def Standing.holdsMode : Standing → Bool
  | working | sole => true
  | _ => false

/-- `camera_` may be given up: `streamCheckWorker` owns `cameraOpsMutex_`, no HLS worker is alive,
video mode is off, and the camera has been stopped. -/
structure Retired (t : Tid) (w : World) : Prop where
  thread : t = .check
  ops : Standing.ops.Holds t w
  sole : Standing.sole.Holds t w
  off : w.flag .isVideoMode_ = false
  stopped : w.device.running = false

inductive Fact where
  | has (s : Standing)
  /-- `camera_` is not null -/
  | camera (s : Standing)
  /-- video mode is off -/
  | off (s : Standing)
  /-- `cameraManager_` is not null -/
  | manager
  /-- `currentConfig_` is not null -/
  | config
  /-- nor is `allocator_` -/
  | streams
  | retired
  deriving DecidableEq

def facts : Facts Fact Tid World
  | .has s, t, w => s.Holds t w
  | .camera s, t, w => s.holdsCamera = true ∧ s.Holds t w ∧ w.ptr .camera_ = true
  | .off s, t, w => s.holdsMode = true ∧ s.Holds t w ∧ w.flag .isVideoMode_ = false
  | .manager, t, w => Keeper t w ∧ w.ptr .cameraManager_ = true
  | .config, t, w => Standing.working.Holds t w ∧ w.ptr .currentConfig_ = true
  | .streams, t, w => Standing.working.Holds t w ∧ w.flag .isVideoMode_ = false ∧
      w.ptr .currentConfig_ = true ∧ w.ptr .allocator_ = true
  | .retired, t, w => Retired t w

/-- Which calls need a fact, which facts they need, and which facts they end. -/
def table : Facts.Table Fact SysCall where
  gated := [.assign .camera_ false, .store .isVideoMode_ true, .store .isVideoMode_ false,
    .exchange .isVideoMode_ true, .exchange .isVideoMode_ false, .cameraStart, .nextCompletion,
    .completionDone, .assign .cameraManager_ true, .assign .cameraManager_ false,
    .assign .allocator_ true, .assign .allocator_ false, .assign .currentConfig_ true,
    .assign .currentConfig_ false, .managerStart, .managerCameras, .managerStop, .allocate .video,
    .allocatorBuffers .video]
  needs
    | .assign .camera_ false => [.retired]
    | .store .isVideoMode_ true => [.camera .working]
    | .store .isVideoMode_ false => [.has .teardown, .off .working, .off .sole]
    | .cameraStart => [.has .ops, .has .working]
    | .nextCompletion | .completionDone => [.has .callback]
    | .assign .cameraManager_ _ => [.has .keeper, .has .sole]
    | .assign .allocator_ _ => [.has .engaged, .has .working, .has .sole]
    | .assign .currentConfig_ _ => [.has .working]
    | .managerStart | .managerCameras | .managerStop => [.manager]
    | .allocate .video | .allocatorBuffers .video => [.streams]
    | _ => []
  ends
    | .has s => s.ends
    | .camera s => .assign .camera_ false :: s.ends
    | .off s => .store .isVideoMode_ true :: s.ends
    | .manager => .assign .cameraManager_ false :: Standing.keeper.ends
    | .config => .assign .currentConfig_ false :: Standing.working.ends
    | .streams => [.assign .currentConfig_ false, .assign .allocator_ false,
        .store .isVideoMode_ true] ++ Standing.working.ends
    | .retired => [.store .isVideoMode_ true, .cameraStart] ++ Standing.ops.ends ++
        Standing.sole.ends

/-- What a call requires of its thread. -/
structure Allowed (legacy : Bool) (t : Tid) (c : SysCall) (w : World) : Prop where
  entitled : table.Entitled facts t c w
  camera : .camera_ ∈ c.uses legacy → w.ptr .camera_ = true

/-- What always holds: one worker at most is alive, video mode is on with a camera only, and a camera
that is not running has nothing to do. -/
structure Sound (w : World) : Prop where
  single : Single w
  video : w.flag .isVideoMode_ = true → w.ptr .camera_ = true
  idle : Snapshot.Idle w.device

/-- The steps of a run, with what the lives of the workers say about them. -/
def ok (w : World) (l : Label Sys Tid Signal) : Prop :=
  ∀ t c r, l = .act t c r → Lifecycle.Allowed t c w

/-! ## Whom the gated calls need -/

namespace Allowed

variable {legacy : Bool} {t : Tid} {c : SysCall} {w : World}

theorem drops (h : Allowed legacy t c w) (hc : c = .assign .camera_ false) : Retired t w := by
  subst hc
  obtain ⟨f, hf, hfact⟩ := h.entitled (by decide)
  rw [List.mem_singleton.mp hf] at hfact
  exact hfact

theorem enters (h : Allowed legacy t c w) (hc : c = .store .isVideoMode_ true) :
    Standing.working.Holds t w ∧ w.ptr .camera_ = true := by
  subst hc
  obtain ⟨f, hf, hfact⟩ := h.entitled (by decide)
  rw [List.mem_singleton.mp hf] at hfact
  exact hfact.2

theorem leaves (h : Allowed legacy t c w) (hc : c = .store .isVideoMode_ false) :
    w.owner .videoTeardownMutex_ = some t ∨ w.flag .isVideoMode_ = false := by
  subst hc
  obtain ⟨f, hf, hfact⟩ := h.entitled (by decide)
  rcases List.mem_cons.mp hf with rfl | hf
  · exact .inl hfact
  · rcases List.mem_pair.mp hf with rfl | rfl
    · exact .inr hfact.2.2
    · exact .inr hfact.2.2

theorem exchanges (h : Allowed legacy t c w) (value : Bool) :
    c ≠ .exchange .isVideoMode_ value := by
  rintro rfl
  have hgated : .exchange .isVideoMode_ value ∈ table.gated := by cases value <;> decide
  obtain ⟨f, hf, -⟩ := h.entitled hgated
  cases hf

theorem starts (h : Allowed legacy t c w) (hc : c = .cameraStart) :
    Standing.ops.Holds t w ∨ Standing.working.Holds t w := by
  subst hc
  obtain ⟨f, hf, hfact⟩ := h.entitled (by decide)
  rcases List.mem_pair.mp hf with rfl | rfl
  · exact .inl hfact
  · exact .inr hfact

theorem completes (h : Allowed legacy t c w) (hc : c = .nextCompletion ∨ c = .completionDone) :
    t = .callback := by
  rcases hc with rfl | rfl
  all_goals
    obtain ⟨f, hf, hfact⟩ := h.entitled (by decide)
    rw [List.mem_singleton.mp hf] at hfact
    exact hfact

theorem manages (h : Allowed legacy t c w) (hc : c = .assign .cameraManager_ false) :
    Keeper t w := by
  subst hc
  obtain ⟨f, hf, hfact⟩ := h.entitled (by decide)
  rcases List.mem_pair.mp hf with rfl | rfl
  · exact hfact
  · exact hfact.1

theorem allocates (h : Allowed legacy t c w) (hc : c = .assign .allocator_ false) :
    Standing.engaged.Holds t w ∨ Standing.working.Holds t w ∨ Standing.sole.Holds t w := by
  subst hc
  obtain ⟨f, hf, hfact⟩ := h.entitled (by decide)
  rcases List.mem_cons.mp hf with rfl | hf
  · exact .inl hfact
  · rcases List.mem_pair.mp hf with rfl | rfl
    · exact .inr (.inl hfact)
    · exact .inr (.inr hfact)

theorem configures (h : Allowed legacy t c w) (hc : c = .assign .currentConfig_ false) :
    Standing.working.Holds t w := by
  subst hc
  obtain ⟨f, hf, hfact⟩ := h.entitled (by decide)
  rw [List.mem_singleton.mp hf] at hfact
  exact hfact

end Allowed

/-! ## What outlives a call -/

section

variable {legacy : Bool} {t u : Tid} {c : SysCall} {r : c.Reply} {w : World} {s : Standing}

theorem ne_of_not_mem {l : List SysCall} {c' : SysCall} (hc : c ∉ l) (h : c' ∈ l) : c ≠ c' :=
  (ne_of_mem_of_not_mem h hc).symm

theorem keeper_unique (ht : Keeper t w) (hu : Keeper u w) : t = u := by
  -- there is no keeper besides a `streamCheckWorker` that is alive
  have hmain : CheckAlive w → w.threads.finished .check = true ∨ w.threads.started .check = false →
      False := by
    intro halive hover
    cases hover with
    | inl hended => exact Bool.false_ne_true (halive.2.symm.trans hended)
    | inr hunstarted => exact Bool.false_ne_true (hunstarted.symm.trans halive.1)
  rcases ht with ⟨rfl, ht⟩ | ⟨rfl, ht⟩ <;> rcases hu with ⟨rfl, hu⟩ | ⟨rfl, hu⟩
  · rfl
  · exact (hmain ht hu).elim
  · exact (hmain hu ht).elim
  · rfl

theorem no_worker (hi : Single w) (h : Standing.sole.Holds t w) (n : Nat) : ¬ Alive n w := by
  intro hn
  cases h.2.symm.trans (hi.alive n hn)

/-- Before `streamCheckWorker` is started, there is no HLS worker. -/
theorem stream_of_unstarted (hi : Single w) (h : w.threads.started .check = false) :
    w.threads.streamThread = none := by
  cases hs : w.threads.streamThread with
  | none => rfl
  | some n =>
    have hstarted := hi.check (Nat.zero_lt_of_lt (hi.stream n hs))
    exact absurd (h.symm.trans hstarted) Bool.false_ne_true

/-- A thread stands where it stood, unless it leaves. -/
theorem Standing.kept (hc : c ∉ s.ends) (he : ∀ value, c ≠ .exchange .isVideoMode_ value)
    (ha : w.answers t c r = true) (h : s.Holds t w) : s.Holds t (w.after t c r) := by
  have hkeeper : c ≠ .threadEnd → c ≠ .spawnWorker .checkStreamThread → Keeper t w →
      Keeper t (w.after t c r) := by
    intro hend hspawn hk
    rcases hk with ⟨rfl, hstarted, hlive⟩ | ⟨rfl, hended | hunstarted⟩
    · exact .inl ⟨rfl, World.started_mono hstarted,
        (World.finished_after fun hc => absurd hc hend).trans hlive⟩
    · exact .inr ⟨rfl, .inl (World.finished_mono hended)⟩
    · exact .inr ⟨rfl, .inr (World.unstarted_kept hspawn hunstarted)⟩
  cases s with
  | live =>
    have hend : c ≠ .threadEnd := ne_of_not_mem hc (by decide)
    exact (World.finished_after fun hc => absurd hc hend).trans h
  | ops => exact World.owner_kept (by decide) h ha fun hu => absurd hu (ne_of_not_mem hc (by decide))
  | teardown => exact World.owner_kept (by decide) h ha fun hu => absurd hu (ne_of_not_mem hc (by decide))
  | engaged =>
    obtain ⟨howner, hon⟩ := h
    refine ⟨?_, World.flag_kept (ne_of_not_mem hc (by decide)) he hon⟩
    exact World.owner_kept (by decide) howner ha fun hu => absurd hu (ne_of_not_mem hc (by decide))
  | working =>
    obtain ⟨n, rfl, hstarted, hlive⟩ := h
    have hend : c ≠ .threadEnd := ne_of_not_mem hc (by decide)
    exact ⟨n, rfl, World.started_mono hstarted,
      (World.finished_after fun hc => absurd hc hend).trans hlive⟩
  | callback => exact h
  | delivering =>
    refine ⟨h.1, ?_⟩
    rw [World.delivering_kept (ne_of_not_mem hc (by decide)) (ne_of_not_mem hc (by decide))]
    exact h.2
  | keeper => exact hkeeper (ne_of_not_mem hc (by decide)) (ne_of_not_mem hc (by decide)) h
  | sole =>
    refine ⟨hkeeper (ne_of_not_mem hc (by decide)) (ne_of_not_mem hc (by decide)) h.1, ?_⟩
    exact unjoinable_kept (ne_of_not_mem hc (by decide)) h.2

/-- Nobody else takes a thread's ground away. -/
theorem Standing.left (htu : t ≠ u) (hi : Sound w) (hl : Lifecycle.Allowed u c w)
    (ha : Allowed legacy u c w) (hanswer : w.answers u c r = true) (h : s.Holds t w) :
    s.Holds t (w.after u c r) := by
  have hleft : Left t w (w.after u c r) := left_after htu hl
  have hkeeper : Keeper t w → Keeper t (w.after u c r) := by
    rintro (⟨rfl, halive⟩ | ⟨rfl, hended | hunstarted⟩)
    · exact .inl ⟨rfl, hleft.checkAlive halive⟩
    · exact .inr ⟨rfl, .inl (hleft.finished _ hended)⟩
    · exact .inr ⟨rfl, .inr ((hleft.check rfl).trans hunstarted)⟩
  cases s with
  | live => exact hleft.own.trans h
  | ops => exact World.owner_kept (by decide) h hanswer fun _ => htu.symm
  | teardown => exact World.owner_kept (by decide) h hanswer fun _ => htu.symm
  | engaged =>
    obtain ⟨howner, hon⟩ := h
    refine ⟨World.owner_kept (by decide) howner hanswer fun _ => htu.symm, ?_⟩
    refine World.flag_kept (fun hc => ?_) ha.exchanges hon
    -- only the owner of the mutex switches video mode off
    cases ha.leaves hc with
    | inl hother => exact htu (Option.some.inj (howner.symm.trans hother))
    | inr hoff => exact Bool.false_ne_true (hoff.symm.trans hon)
  | working =>
    obtain ⟨n, rfl, halive⟩ := h
    exact ⟨n, rfl, hleft.alive halive⟩
  | callback => exact h
  | delivering =>
    have hother : ¬ (c = .nextCompletion ∨ c = .completionDone) :=
      fun hc => htu (h.1.trans (ha.completes hc).symm)
    refine ⟨h.1, ?_⟩
    rw [World.delivering_kept (fun hc => hother (.inl hc)) fun hc => hother (.inr hc)]
    exact h.2
  | keeper => exact hkeeper h
  | sole =>
    obtain ⟨hkeep, hnone⟩ := h
    refine ⟨hkeeper hkeep, ?_⟩
    rcases hkeep with ⟨rfl, halive⟩ | ⟨rfl, hended | hunstarted⟩
    · exact (hleft.streamThread (.inl ⟨rfl, halive⟩)).trans hnone
    · exact (hleft.streamThread (.inr ⟨rfl, hended⟩)).trans hnone
    · have hafter : Single (w.after u c r) := single_after hi.single hl hanswer
      exact stream_of_unstarted hafter ((hleft.check rfl).trans hunstarted)

/-- The ground of one thread excludes that another gives `camera_` up. -/
theorem Standing.not_retired (htu : t ≠ u) (hi : Sound w) (hs : s.holdsCamera = true)
    (h : s.Holds t w) : ¬ Retired u w := by
  intro hr
  cases s with
  | ops => exact htu (Option.some.inj (h.symm.trans hr.ops))
  | engaged => exact Bool.false_ne_true (hr.off.symm.trans h.2)
  | working =>
    obtain ⟨n, rfl, halive⟩ := h
    exact no_worker hi.single hr.sole n halive
  | delivering => exact h.2 (hi.idle hr.stopped).2
  | sole => exact htu (keeper_unique h.1 hr.sole.1)
  | live => cases hs
  | teardown => cases hs
  | callback => cases hs
  | keeper => cases hs

/-- It also excludes that another is an HLS worker. -/
theorem Standing.not_working (htu : t ≠ u) (hi : Sound w) (hs : s.holdsMode = true)
    (h : s.Holds t w) : ¬ Standing.working.Holds u w := by
  rintro ⟨n, rfl, halive⟩
  cases s with
  | working =>
    obtain ⟨m, rfl, hother⟩ := h
    have hboth := (hi.single.alive m hother).symm.trans (hi.single.alive n halive)
    exact htu (congrArg Tid.hls (Option.some.inj hboth))
  | sole => exact no_worker hi.single h n halive
  | _ => cases hs

/-- A fact outlives the calls of its thread that do not end it. -/
theorem fact_kept {f : Fact} (hc : c ∉ table.ends f) (ha : Allowed legacy t c w)
    (hanswer : w.answers t c r = true) (h : facts f t w) : facts f t (w.after t c r) := by
  have hstanding : ∀ s : Standing, s.ends ⊆ table.ends f → s.Holds t w →
      s.Holds t (w.after t c r) :=
    fun s hs => Standing.kept (fun hend => hc (hs hend)) ha.exchanges hanswer
  cases f with
  | has s => exact hstanding s (List.Subset.refl _) h
  | camera s =>
    obtain ⟨hs, hholds, hset⟩ := h
    exact ⟨hs, hstanding s (List.subset_cons_self ..) hholds,
      World.ptr_kept (List.ne_of_not_mem_cons hc) hset⟩
  | off s =>
    obtain ⟨hs, hholds, hoff⟩ := h
    exact ⟨hs, hstanding s (List.subset_cons_self ..) hholds,
      World.flag_kept (List.ne_of_not_mem_cons hc) ha.exchanges hoff⟩
  | manager =>
    exact ⟨hstanding .keeper (List.subset_cons_self ..) h.1,
      World.ptr_kept (List.ne_of_not_mem_cons hc) h.2⟩
  | config =>
    exact ⟨hstanding .working (List.subset_cons_self ..) h.1,
      World.ptr_kept (List.ne_of_not_mem_cons hc) h.2⟩
  | streams =>
    obtain ⟨hworking, hoff, hconfig, hallocator⟩ := h
    exact ⟨hstanding .working (by decide) hworking,
      World.flag_kept (ne_of_not_mem hc (by decide)) ha.exchanges hoff,
      World.ptr_kept (ne_of_not_mem hc (by decide)) hconfig,
      World.ptr_kept (ne_of_not_mem hc (by decide)) hallocator⟩
  | retired =>
    exact ⟨h.thread, hstanding .ops (by decide) h.ops, hstanding .sole (by decide) h.sole,
      World.flag_kept (ne_of_not_mem hc (by decide)) ha.exchanges h.off,
      World.stopped_kept (ne_of_not_mem hc (by decide)) h.stopped⟩

/-- And those that the other threads may make. -/
theorem fact_left {f : Fact} (htu : t ≠ u) (hi : Sound w) (hl : Lifecycle.Allowed u c w)
    (ha : Allowed legacy u c w) (hanswer : w.answers u c r = true) (h : facts f t w) :
    facts f t (w.after u c r) := by
  have hstanding : ∀ s : Standing, s.Holds t w → s.Holds t (w.after u c r) :=
    fun s => Standing.left htu hi hl ha hanswer
  have hoff_kept : ∀ s : Standing, s.holdsMode = true → s.Holds t w →
      w.flag .isVideoMode_ = false → (w.after u c r).flag .isVideoMode_ = false := by
    intro s hs hholds
    apply World.flag_kept _ ha.exchanges
    exact fun hc => Standing.not_working htu hi hs hholds (ha.enters hc).1
  cases f with
  | has s => exact hstanding s h
  | camera s =>
    obtain ⟨hs, hholds, hset⟩ := h
    refine ⟨hs, hstanding s hholds, World.ptr_kept (fun hc => ?_) hset⟩
    exact Standing.not_retired htu hi hs hholds (ha.drops hc)
  | off s =>
    obtain ⟨hs, hholds, hoff⟩ := h
    exact ⟨hs, hstanding s hholds, hoff_kept s hs hholds hoff⟩
  | manager =>
    refine ⟨hstanding .keeper h.1, World.ptr_kept (fun hc => ?_) h.2⟩
    exact htu (keeper_unique h.1 (ha.manages hc))
  | config =>
    refine ⟨hstanding .working h.1, World.ptr_kept (fun hc => ?_) h.2⟩
    exact Standing.not_working htu hi (s := .working) rfl h.1 (ha.configures hc)
  | streams =>
    obtain ⟨hworking, hoff, hconfig, hallocator⟩ := h
    have hother : ¬ Standing.working.Holds u w :=
      Standing.not_working htu hi (s := .working) rfl hworking
    refine ⟨hstanding .working hworking, hoff_kept .working rfl hworking hoff,
      World.ptr_kept (fun hc => hother (ha.configures hc)) hconfig,
      World.ptr_kept (fun hc => ?_) hallocator⟩
    rcases ha.allocates hc with hengaged | hu | hsole
    · exact Bool.false_ne_true (hoff.symm.trans hengaged.2)
    · exact hother hu
    · obtain ⟨n, rfl, halive⟩ := hworking
      exact no_worker hi.single hsole n halive
  | retired =>
    have hother : ¬ Standing.working.Holds u w :=
      Standing.not_working htu hi (s := .sole) rfl h.sole
    refine ⟨h.thread, hstanding .ops h.ops, hstanding .sole h.sole, hoff_kept .sole rfl h.sole h.off,
      World.stopped_kept (fun hc => ?_) h.stopped⟩
    cases ha.starts hc with
    | inl hops => exact htu (Option.some.inj (h.ops.symm.trans hops))
    | inr hu => exact hother hu

theorem sound_after (hi : Sound w) (hl : Lifecycle.Allowed t c w) (ha : Allowed legacy t c w)
    (hanswer : w.answers t c r = true) : Sound (w.after t c r) where
  single := single_after hi.single hl hanswer
  idle := Snapshot.idle_after (World.device_of_answers hanswer) hi.idle
  video hon := by
    by_cases henter : c = .store .isVideoMode_ true
    · exact World.ptr_kept (henter ▸ nofun) (ha.enters henter).2
    have hbefore : w.flag .isVideoMode_ = true := by
      by_contra hoff
      have hafter : (w.after t c r).flag .isVideoMode_ = false :=
        World.flag_kept henter ha.exchanges (Bool.eq_false_iff.mpr hoff)
      exact Bool.false_ne_true (hafter.symm.trans hon)
    refine World.ptr_kept (fun hc => ?_) (hi.video hbefore)
    exact Bool.false_ne_true ((ha.drops hc).off.symm.trans hbefore)

end

def contract (legacy : Bool) : Contract system ok :=
  facts.contract Sound (Allowed legacy)
    (fun hi ha hok hact => by
      obtain ⟨hanswer, rfl⟩ := system_act.mp hact
      exact sound_after hi (hok _ _ _ rfl) ha hanswer)
    (fun hi _ henv => by
      cases henv
      exact ⟨⟨hi.single.alive, hi.single.started, hi.single.check, hi.single.stream,
        hi.single.returned⟩, hi.video, hi.idle⟩)
    (fun htu hi ha hok hact f hf => by
      obtain ⟨hanswer, rfl⟩ := system_act.mp hact
      exact fact_left htu hi (hok _ _ _ rfl) ha hanswer hf)
    (fun _ _ henv f hf => by
      cases henv
      cases f with
      | has s => cases s <;> exact hf
      | camera s => cases s <;> exact hf
      | off s => cases s <;> exact hf
      | manager => exact hf
      | config => exact hf
      | streams => exact hf
      | retired => exact ⟨hf.thread, hf.ops, hf.sole, hf.off, hf.stopped⟩)

/-! ## Calls that fit what a thread knows -/

def Fact.isCamera : Fact → Bool
  | camera _ => true
  | _ => false

/-- A thread that knows `l` may make the call, and goes on knowing `l`. -/
def Fits (legacy : Bool) (l : List Fact) (c : SysCall) : Prop :=
  c ∉ table.strict l ∧ (l.any Fact.isCamera = true ∨ .camera_ ∉ c.uses legacy)

instance {legacy : Bool} {l : List Fact} {c : SysCall} : Decidable (Fits legacy l c) :=
  inferInstanceAs (Decidable (_ ∧ _))

/-- The calls that need a fact or end one. -/
def loud : List SysCall :=
  table.gated ++ [.unlock .cameraOpsMutex_, .unlock .videoTeardownMutex_, .threadEnd,
    .spawnWorker .checkStreamThread, .spawnStreamThread]

abbrev Quiet (c : SysCall) : Prop := c ∉ loud

/-- The calls that have nothing to do with the camera either. -/
abbrev Aside (legacy : Bool) (c : SysCall) : Prop := Quiet c ∧ .camera_ ∉ c.uses legacy

section

variable {legacy : Bool} {t : Tid} {c : SysCall} {r : c.Reply} {w : World} {l : List Fact}

theorem fits (h : decide (Fits legacy l c) = true) : Fits legacy l c := of_decide_eq_true h

theorem aside (h : decide (Aside legacy c) = true) : Aside legacy c := of_decide_eq_true h

theorem ends_subset (f : Fact) : table.ends f ⊆ loud := by
  have hstanding : ∀ s : Standing, s.ends ⊆ loud := fun s => by cases s <;> decide
  cases f with
  | has s => exact hstanding s
  | camera s => exact List.cons_subset.mpr ⟨by decide, hstanding s⟩
  | off s => exact List.cons_subset.mpr ⟨by decide, hstanding s⟩
  | _ => decide

theorem fits_of_quiet (hc : Quiet c) (hl : l.any Fact.isCamera = true) : Fits legacy l c :=
  ⟨Facts.Table.not_strict_of (List.subset_append_left ..) ends_subset hc, .inl hl⟩

theorem fits_of_aside (hc : Aside legacy c) : Fits legacy l c :=
  ⟨Facts.Table.not_strict_of (List.subset_append_left ..) ends_subset hc.1, .inr hc.2⟩

theorem quiet_of {calls : SysCall → Bool} (h : ∀ c ∈ loud, calls c = false) (c : SysCall)
    (hc : calls c = true) : Quiet c := not_mem_of h c hc

theorem camera_of_any (hl : l.any Fact.isCamera = true) (h : facts.Known l t w) :
    w.ptr .camera_ = true := by
  obtain ⟨f, hf, hcamera⟩ := List.any_eq_true.mp hl
  cases f with
  | camera s => exact (h _ hf).2.2
  | _ => cases hcamera

theorem allowed_of_fits (hc : Fits legacy l c) (h : facts.Known l t w) : Allowed legacy t c w where
  entitled := Facts.Table.entitled_of_not_strict hc.1 h
  camera huses := hc.2.elim (fun hl => camera_of_any hl h) fun hno => absurd huses hno

theorem known_after (hc : Fits legacy l c) (ha : w.answers t c r = true) (h : facts.Known l t w) :
    facts.Known l t (w.after t c r) :=
  fun f hf => fact_kept (Facts.Table.not_ends_of_not_strict hc.1 hf) (allowed_of_fits hc h) ha (h f hf)

/-- What a thread knows survives what the others do. -/
theorem known_rely (w w' : World) (hr : (contract legacy).rely t w w')
    (_ : (contract legacy).inv w') (h : facts.Known l t w) : facts.Known l t w' := h.kept hr

end

section

variable {legacy : Bool} {t : Tid} {w : World} {l : List Fact} {α β : Type} {p : Prog Sys α}
  {X : World → Prop}

/-- Code whose calls fit, if its parts do. -/
theorem keeps_of_fits {Y : ∀ α : Type, Prog Sys α → Prop} (hp : p.Built (Fits legacy l) Y)
    (hY : ∀ α p, Y α p → (contract legacy).Keeps t (facts.Known l t) p) :
    (contract legacy).Keeps t (facts.Known l t) p := by
  refine keeps_of_built known_rely (fun c hc w _ h => ?_) hY hp
  refine ⟨allowed_of_fits hc h, fun r w' _ hact => ?_⟩
  obtain ⟨hanswer, rfl⟩ := system_act.mp hact
  exact known_after hc hanswer h

/-- Such code at the end. -/
theorem wp_last (hp : p.Built (Fits legacy l) Prog.noParts) (hX : ∀ w, facts.Known l t w → X w)
    (h : facts.Known l t w) : (contract legacy).wp t p (fun _ => facts.Known l t) X w :=
  wp_mono (keeps_of_fits hp (fun _ _ h => h.elim) w h) (fun _ _ _ h => h) fun w _ h => hX w h

/-- And where it throws nothing. -/
theorem wp_safe (hp : p.Built (Fits legacy l) Prog.noParts) (hn : p.NoThrow)
    (h : facts.Known l t w) : (contract legacy).wp t p (fun _ => facts.Known l t) X w :=
  wp_of_noThrow hn (wp_last (X := fun _ => True) hp (fun _ _ => trivial) h)

/-- Such code in front of the rest. -/
theorem wp_first {f : α → Prog Sys β} {Q : β → World → Prop}
    (hp : p.Built (Fits legacy l) Prog.noParts) (hX : ∀ w, facts.Known l t w → X w)
    (h : facts.Known l t w) (hf : ∀ a w, facts.Known l t w → (contract legacy).wp t (f a) Q X w) :
    (contract legacy).wp t (p >>= f) Q X w :=
  wp_bind_of (wp_last hp hX h) fun a w _ h => hf a w h

/-- One call, from which the thread may learn something. -/
theorem wp_step {c : SysCall} {f : c.Reply → Prog Sys α} {Q : α → World → Prop}
    (hc : Fits legacy l c) (h : facts.Known l t w)
    (hf : ∀ (w : World) (r : c.Reply), Sound w → facts.Known l t w → w.answers t c r = true →
      Lifecycle.Allowed t c w → facts.Known l t (w.after t c r) →
      (contract legacy).wp t (f r) Q X (w.after t c r)) :
    (contract legacy).wp t (sys c >>= f) Q X w := by
  refine wp_call_of known_rely h fun w hi h => ⟨allowed_of_fits hc h, fun r w' hok hact => ?_⟩
  obtain ⟨hanswer, rfl⟩ := system_act.mp hact
  exact hf w r hi h hanswer (hok _ _ _ rfl) (known_after hc hanswer h)

/-- A value is returned. -/
theorem wp_known {a : α} {K : α → List Fact} (h : facts.Known (K a) t w) :
    (contract legacy).wp t (.ret a) (fun a => facts.Known (K a) t) X w :=
  fun v hr hi => known_rely w v hr hi h

/-- A lock guard: its scope begins with the mutex. -/
theorem wp_scope {m : Mutex} {K : α → List Fact} {thrown : List Fact} (h : facts.Known l t w)
    (hscope : ∀ w, facts.Known l t w → w.owner m = some t →
      (contract legacy).wp t p (fun a => facts.Known (K a) t) (facts.Known thrown t) w)
    (hK : ∀ a, Fits legacy (K a) (.unlock m)) (hthrown : Fits legacy thrown (.unlock m)) :
    (contract legacy).wp t (lockGuard m p) (fun a => facts.Known (K a) t)
      (facts.Known thrown t) w := by
  have hlock : Fits legacy l (.lock m) := fits_of_aside ⟨by cases m <;> decide, nofun⟩
  refine wp_step hlock h fun w r _ _ _ _ h => wp_ensuring_of ?_
  refine wp_mono (hscope _ h World.owner_after_lock) ?_ ?_
  · exact fun a w _ h => wp_safe (.call (hK a)) (.call _) h
  · exact fun w _ h => wp_safe (.call hthrown) (.call _) h

end

end AtHand

end SurfCam

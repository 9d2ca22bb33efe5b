import SurfCam.Camera.Footprint
import SurfCam.Logic.Facts
import SurfCam.Logic.Watch
import SurfCam.System

/-!
# The camera managers

`initialize` makes a new `libcamera::CameraManager` before `cameraManager_` lets go of the one that
a failed attempt has left there; `reinitialize` gives the old one back first.
-/

namespace SurfCam

open Interaction CameraManager Contract

namespace Managers

/-- What is known beside `cameraManager_`. -/
structure Past where
  /-- a manager has been made and is not in `cameraManager_` yet -/
  fresh : Bool
  /-- the operation under way is an `initialize` that was called while `cameraManager_` held a
  manager -/
  again : Bool

def pastAfter (w : World) : (c : SysCall) → c.Reply → Past → Past
  | .nextOperation, op, past =>
    { past with again := op = .initializeCamera ∧ w.ptr .cameraManager_ }
  | .makeCameraManager, .ok, past => { past with fresh := true }
  | .assign .cameraManager_ _, _, past => { past with fresh := false }
  | _, _, past => past

def see (w : World) : Label Sys Tid Signal → Past → Past
  | .act _ c r, past => pastAfter w c r past
  | _, past => past

/-- How many `libcamera::CameraManager` objects there are. -/
def live (x : World × Past) : Nat := x.2.fresh.toNat + (x.1.ptr .cameraManager_).toNat

/-- An `initialize` that was called while `cameraManager_` held a manager does not get another
one. -/
def spare (x : World × Past) : Label Sys Tid Signal → Bool
  | .act _ .makeCameraManager .ok => !x.2.again
  | _ => true

/-! ## What a thread knows -/

abbrev caller : Tid := .caller 0

inductive Fact where
  /-- no manager is on its way into `cameraManager_` -/
  | settled
  | vacant
  /-- `cameraManager_` is null, or the condition forbids another manager -/
  | first
  deriving DecidableEq

def facts : Facts Fact Tid (World × Past)
  | .settled, t, x => t = caller ∧ x.2.fresh = false
  | .vacant, t, x => t = caller ∧ x.1.ptr .cameraManager_ = false
  | .first, t, x => t = caller ∧ (x.2.again = true ∨ x.1.ptr .cameraManager_ = false)

/-- The calls that the managers depend on. -/
def strict : List SysCall :=
  [.nextOperation, .makeCameraManager, .assign .cameraManager_ true, .assign .cameraManager_ false]

/-- What a call requires. -/
structure Allowed (t : Tid) (c : SysCall) (x : World × Past) : Prop where
  own : c ∈ strict → t = caller
  makes : c = .makeCameraManager →
    x.2.fresh = false ∧ (x.2.again = true ∨ x.1.ptr .cameraManager_ = false)

def Sound (x : World × Past) : Prop := live x ≤ 1

abbrev Quiet (c : SysCall) : Prop := c ∉ strict

section

variable {t u : Tid} {c : SysCall} {r : c.Reply} {x : World × Past}

theorem live_le_one (h : x.2.fresh = false ∨ x.1.ptr .cameraManager_ = false) : Sound x := by
  unfold Sound live
  cases h with
  | inl hfresh =>
    rw [hfresh]
    have hle := Bool.toNat_le (x.1.ptr .cameraManager_)
    rw [Bool.toNat_false]
    omega
  | inr hptr =>
    rw [hptr]
    exact Bool.toNat_le x.2.fresh

theorem ne_of_quiet {c' : SysCall} (hc : Quiet c) (h : c' ∈ strict) : c ≠ c' := by
  rintro rfl
  exact hc h

-- A quiet call changes nothing that the managers depend on.
theorem past_of_quiet (hc : Quiet c) :
    pastAfter x.1 c r x.2 = x.2 ∧ (x.1.after t c r).ptr .cameraManager_ = x.1.ptr .cameraManager_ := by
  constructor
  · cases c with
    | nextOperation => exact absurd (by decide) hc
    | makeCameraManager => exact absurd (by decide) hc
    | assign p value => cases p <;> first | rfl | (cases value <;> exact absurd (by decide) hc)
    | _ => rfl
  · apply World.ptr_after
    intro value
    cases value <;> exact ne_of_quiet hc (by decide)

theorem kept_of_quiet (hc : Quiet c) :
    facts.Kept t x (x.1.after u c r, pastAfter x.1 c r x.2) := by
  obtain ⟨hpast, hptr⟩ := past_of_quiet (t := u) (r := r) (x := x) hc
  intro f hf
  cases f with
  | settled => exact ⟨hf.1, by rw [hpast]; exact hf.2⟩
  | vacant => exact ⟨hf.1, hptr.trans hf.2⟩
  | first => exact ⟨hf.1, by rw [hpast, hptr]; exact hf.2⟩

theorem sound_after (hi : Sound x) (ha : Allowed t c x) (hok : spare x (.act t c r) = true) :
    Sound (x.1.after t c r, pastAfter x.1 c r x.2) := by
  by_cases hc : Quiet c
  · obtain ⟨hpast, hptr⟩ := past_of_quiet (t := t) (r := r) (x := x) hc
    unfold Sound live
    rw [hpast, hptr]
    exact hi
  cases c with
  | nextOperation => exact hi
  | makeCameraManager =>
    obtain ⟨-, hfirst⟩ := ha.makes rfl
    cases r with
    | ok =>
      -- under the condition there was no manager
      apply live_le_one
      right
      exact hfirst.resolve_left (Bool.eq_false_iff.mp (Bool.not_eq_true' _ ▸ hok))
    | failed => exact hi
    | threw => exact hi
  | assign p value =>
    cases p with
    | cameraManager_ => exact live_le_one (.inl rfl)
    | _ => exact absurd (by cases value <;> decide) hc
  | _ => exact absurd (by simp [Quiet, strict]) hc

theorem kept_of_other (htu : t ≠ u) (ha : Allowed u c x) :
    facts.Kept t x (x.1.after u c r, pastAfter x.1 c r x.2) := by
  by_cases hc : Quiet c
  · exact kept_of_quiet hc
  · -- the caller is the only one to make the other calls
    have hu : u = caller := ha.own (not_not.mp hc)
    intro f hf
    have ht : t = caller := by cases f <;> exact hf.1
    exact absurd (ht.trans hu.symm) htu

end

def contract : Contract (system.watched see) fun x l => spare x l = true :=
  facts.contract Sound Allowed
    (fun hi ha hok hact => by
      obtain ⟨-, rfl⟩ := watched_system_act.mp hact
      exact sound_after hi ha hok)
    (fun hi _ henv => by
      obtain ⟨w, hw, rfl⟩ := watched_env.mp henv
      cases hw
      exact hi)
    (fun htu _ ha _ hact => by
      obtain ⟨-, rfl⟩ := watched_system_act.mp hact
      exact kept_of_other htu ha)
    (fun _ _ henv f hf => by
      obtain ⟨w, hw, rfl⟩ := watched_env.mp henv
      cases hw
      cases f <;> exact hf)

section

variable {t : Tid} {c : SysCall} {x : World × Past} {α : Type} {l : List Fact}
  {f : c.Reply → Prog Sys α} {Q : α → World × Past → Prop} {X : World × Past → Prop}

theorem allowed_of_quiet (hc : Quiet c) : Allowed t c x where
  own hmem := absurd hmem hc
  makes h := absurd h (ne_of_quiet hc (by decide))

theorem quiet : facts.Quiet contract t Quiet where
  rely hr := hr
  pre hc _ := allowed_of_quiet hc
  act hc _ hact := by
    obtain ⟨-, rfl⟩ := watched_system_act.mp hact
    exact kept_of_quiet hc

/-- A call that the thread may make, in front of the rest. -/
theorem wp_allowed (ha : ∀ x, Sound x → facts.Known l t x → Allowed t c x)
    (h : facts.Known l t x)
    (hf : ∀ (x : World × Past) (r : c.Reply), facts.Known l t x → x.1.answers t c r = true →
      contract.wp t (f r) Q X (x.1.after t c r, pastAfter x.1 c r x.2)) :
    contract.wp t (sys c >>= f) Q X x := by
  refine wp_call_of quiet.known h fun x hi h => ⟨ha x hi h, fun r y _ hact => ?_⟩
  obtain ⟨hanswer, rfl⟩ := watched_system_act.mp hact
  exact hf x r h hanswer

/-- The end of a program. -/
theorem wp_known {a : α} (h : facts.Known l t x) :
    contract.wp t (.ret a) (fun _ => facts.Known l t) X x :=
  fun v hr hi => quiet.known x v hr hi h

end

/-! ## The caller -/

section

variable {legacy : Bool} {x : World × Past}

/-- A manager is made and goes into `cameraManager_`. -/
theorem wp_acquireCamera (h : facts.Known [.settled, .first] caller x) :
    contract.wp caller acquireCamera (fun _ => facts.Known [.settled] caller)
      (facts.Known [.settled] caller) x := by
  refine wp_allowed (fun x _ h => ?_) h fun x r h _ => ?_
  · have hfirst : facts .first caller x := h .first (by decide)
    have hsettled : facts .settled caller x := h .settled (by decide)
    exact ⟨fun _ => rfl, fun _ => ⟨hsettled.2, hfirst.2⟩⟩
  have hsettled : facts .settled caller x := h .settled (by decide)
  cases r with
  | failed => exact fun v hr hi => quiet.known _ v hr hi (Facts.known_nil.learn hsettled)
  | threw => exact fun v hr hi => quiet.known _ v hr hi (Facts.known_nil.learn hsettled)
  | ok =>
  refine wp_allowed (l := []) (fun _ _ _ => ?_) Facts.known_nil fun x r _ _ => ?_
  · exact ⟨fun _ => rfl, nofun⟩
  have h : facts.Known [.settled] caller (x.1.after caller (.assign .cameraManager_ true) r,
      pastAfter x.1 (.assign .cameraManager_ true) r x.2) := Facts.known_nil.learn ⟨rfl, rfl⟩
  refine quiet.wp (fun _ h => h) h (.call (by decide)) fun started x h => ?_
  refine quiet.wp (fun _ h => h) h (built_check _) fun _ x h => ?_
  refine quiet.wp_end (fun _ h => h) h ?_
  refine .bind (.call (by decide)) fun cameras => ?_
  rcases cameras with _ | (_ | _)
  · exact .throw
  · exact .ret _
  · exact .bind (.call (by decide)) fun _ => .bind (.call (by decide)) fun _ => built_check _

theorem wp_initializeCamera (h : facts.Known [.settled, .first] caller x) :
    contract.wp caller initializeCamera (fun _ => facts.Known [.settled] caller)
      (facts.Known [.settled] caller) x := by
  have hl : ∀ x, facts.Known [.settled, .first] caller x → facts.Known [.settled] caller x :=
    fun _ h => h.mono (by decide)
  refine quiet.wp hl h (.call (by decide)) fun _ x h => ?_
  refine quiet.wp_ensuring (K := fun _ => [.settled]) (.call (by decide)) (.call _) ?_
  apply wp_tryCatch.mpr
  refine wp_mono (wp_bind_of (wp_acquireCamera h) fun acquired x _ h => ?_) (fun _ _ _ h => h)
    fun x _ h => wp_known h
  cases acquired with
  | false => exact wp_known h
  | true =>
    exact quiet.wp_end (fun _ h => h) h (.bind (.call (by decide)) fun _ =>
      .bind (.call (by decide)) fun _ => .ret _)

-- Before a new manager is made, the old one is given back.
theorem wp_releaseCamera {X : World × Past → Prop} (h : facts.Known [.settled] caller x) :
    contract.wp caller (releaseCamera legacy)
      (fun _ => facts.Known [.vacant, .settled] caller) X x := by
  refine wp_of_noThrow (X := fun _ => True) noThrow_releaseCamera ?_
  refine quiet.wp (fun _ _ => trivial) h (.call (by decide)) fun _ x h => ?_
  refine quiet.wp (fun _ _ => trivial) h (.when _ <| .bind (built_stopCameraIfRunning
    (not_mem_of (by decide))) fun _ => .bind (.call (by decide)) fun _ => .call (by decide))
    fun _ x h => ?_
  refine wp_allowed (fun x _ h => allowed_of_quiet (by decide)) h fun x held h hanswer => ?_
  have hreply : held = x.1.ptr .cameraManager_ :=
    of_decide_eq_true (World.shared_of_answers hanswer)
  have hsettled : facts .settled caller x := h .settled (by decide)
  have h : facts.Known [.settled] caller (x.1.after caller (.isSet .cameraManager_) held,
      pastAfter x.1 (.isSet .cameraManager_) held x.2) := Facts.known_nil.learn hsettled
  cases held with
  | false => exact wp_known (h.learn ⟨rfl, hreply.symm⟩)
  | true =>
  refine quiet.wp (fun _ _ => trivial) h (.call (by decide)) fun _ x h => ?_
  refine wp_allowed (f := .ret) (fun _ _ _ => ⟨fun _ => rfl, nofun⟩) h fun x r _ _ => wp_known ?_
  have h : facts.Known [.settled] caller (x.1.after caller (.assign .cameraManager_ false) r,
      pastAfter x.1 (.assign .cameraManager_ false) r x.2) := Facts.known_nil.learn ⟨rfl, rfl⟩
  have hvacant : (x.1.after caller (.assign .cameraManager_ false) r).ptr .cameraManager_ = false := by
    show Function.update x.1.ptr .cameraManager_ false .cameraManager_ = false
    rw [Function.update_self]
  exact h.learn ⟨rfl, hvacant⟩

theorem wp_reinitializeCamera (h : facts.Known [.settled] caller x) :
    contract.wp caller (reinitializeCamera legacy) (fun _ => facts.Known [.settled] caller)
      (facts.Known [.settled] caller) x := by
  have hT : ∀ c, teardownCall c = true → Quiet c := not_mem_of (by decide)
  have hshutdown : shutdownGstreamerPipeline.Built Quiet Prog.noParts :=
    built_shutdownGstreamerPipeline (not_mem_of (by decide)) (by decide) (by decide)
  have hl : ∀ x, facts.Known [.vacant, .settled] caller x → facts.Known [.settled] caller x :=
    fun _ h => h.mono (by decide)
  refine quiet.wp (fun _ h => h) h (.call (by decide)) fun _ x h => ?_
  refine quiet.wp_ensuring (K := fun _ => [.settled]) (.call (by decide)) (.call _) ?_
  refine quiet.wp (fun _ h => h) h (.call (by decide)) fun _ x h => ?_
  refine quiet.wp (fun _ h => h) h (.when _ (built_stopVideoModeUnlocked hT hshutdown))
    fun _ x h => ?_
  apply wp_tryCatch.mpr
  have hhandler : ∀ x, facts.Known [.settled] caller x →
      contract.wp caller (do
        sys (.store .snapshotsPaused_ true)
        return false) (fun _ => facts.Known [.settled] caller) (facts.Known [.settled] caller) x :=
    fun x h => quiet.wp_end (fun _ h => h) h (.bind (.call (by decide)) fun _ => .ret _)
  refine wp_mono (X := facts.Known [.settled] caller) ?_ (fun _ _ _ h => h) fun x _ h =>
    hhandler x h
  refine wp_bind_of (wp_releaseCamera h) fun _ x _ h => ?_
  refine quiet.wp hl h (built_resetAllocator hT) fun _ x h => ?_
  refine quiet.wp hl h hshutdown fun _ x h => ?_
  have hvacant : facts .vacant caller x := h .vacant (by decide)
  have hsettled : facts .settled caller x := h .settled (by decide)
  have hfirst : facts.Known [.first] caller x := Facts.known_nil.learn ⟨rfl, .inr hvacant.2⟩
  refine wp_bind_of (wp_acquireCamera (hfirst.learn hsettled)) fun acquired x _ h => ?_
  cases acquired with
  | false => exact hhandler x h
  | true =>
    exact quiet.wp_end (fun _ h => h) h (.bind (.call (by decide)) fun _ =>
      .bind (.call (by decide)) fun _ => .bind (.call (by decide)) fun _ =>
        .bind (.call (by decide)) fun _ => .ret _)

/-- The operations but for the two that make managers. -/
theorem built_operation {op : Operation} (hi : op ≠ .initializeCamera)
    (hr : op ≠ .reinitializeCamera) : (operate legacy op).Built Quiet Prog.noParts := by
  have hM : ∀ c, modeCall c = true → Quiet c := not_mem_of (by decide)
  cases op with
  | initializeCamera => contradiction
  | takePicture => exact built_photo hM
  | startVideoMode width height fps =>
    exact built_start hM (built_pipeline hM (by decide)) width height fps
  | stopVideoMode => exact built_stop hM
  | reinitializeCamera => contradiction

theorem wp_callerBody {initialized : Bool} (h : facts.Known [.settled] caller x) :
    contract.wp caller (callerBody legacy initialized) (fun _ => facts.Known [.settled] caller)
      (fun _ => True) x := by
  have hX : ∀ x, facts.Known [.settled] caller x → True := fun _ _ => trivial
  refine wp_allowed (fun _ _ _ => ⟨fun _ => rfl, nofun⟩) h fun x op h _ => ?_
  have hsettled : facts .settled caller x := h .settled (by decide)
  have h : facts.Known [.settled] caller (x.1.after caller .nextOperation op,
      pastAfter x.1 .nextOperation op x.2) := Facts.known_nil.learn hsettled
  have hreturn : ∀ x result, facts.Known [.settled] caller x →
      contract.wp caller (.ret (some (initialized || (op = .initializeCamera && result))))
        (fun _ => facts.Known [.settled] caller) (fun _ => True) x := fun x _ h => wp_known h
  by_cases hskip : (initialized && op = .initializeCamera) = true
  · rw [if_pos hskip]
    exact wp_known h
  rw [if_neg hskip]
  by_cases hi : op = .initializeCamera
  · subst hi
    have hfirst : facts .first caller (x.1.after caller .nextOperation .initializeCamera,
        pastAfter x.1 .nextOperation .initializeCamera x.2) := by
      refine ⟨rfl, ?_⟩
      show decide (_ ∧ x.1.ptr .cameraManager_ = true) = true ∨ x.1.ptr .cameraManager_ = false
      cases x.1.ptr .cameraManager_ with
      | true => exact .inl rfl
      | false => exact .inr rfl
    have hinit := wp_initializeCamera ((Facts.known_nil.learn hfirst).learn ⟨rfl, hsettled.2⟩)
    exact wp_bind_of (wp_mono hinit (fun _ _ _ h => h) fun _ _ _ => trivial)
      fun result x _ h => hreturn x result h
  by_cases hr : op = .reinitializeCamera
  · subst hr
    exact wp_bind_of (wp_mono (wp_reinitializeCamera h) (fun _ _ _ h => h) fun _ _ _ => trivial)
      fun result x _ h => hreturn x result h
  · exact quiet.wp hX h (built_operation hi hr) fun result x h => hreturn x result h

end

/-! ## All threads -/

def proof (legacy : Bool) : contract.Proof (code legacy) where
  holds
    | .caller 0, _, x => facts.Known [.settled] caller x
    | .callback, _, _ | .gst _, _, _ => True
    | _, _, _ => False
  body t pc x _ h := by
    -- what libcamera's thread and those of the main loops do is quiet
    have hquiet : ∀ {p : Prog Sys (Option t.Pc)}, p.Built Quiet Prog.noParts →
        contract.wp t p (fun _ _ => True) (fun _ => True) x :=
      fun hp => wp_of_built hp fun _ hc _ _ => allowed_of_quiet hc
    cases t with
    | caller n =>
      cases n with
      | zero => exact wp_mono (wp_callerBody h) (fun _ _ _ h _ _ => h) fun _ _ h => h
      | succ n => exact h.elim
    | callback =>
      exact wp_mono (hquiet (built_callbackBody legacy (not_mem_of (by decide))))
        (fun _ _ _ _ _ _ => trivial) fun _ _ h => h
    | gst n =>
      exact wp_mono (hquiet (built_gstBody pc (not_mem_of (by decide)))) (fun _ _ _ _ _ _ => trivial)
        fun _ _ h => h
    | _ => exact h.elim

def start : World × Past := (.init, ⟨false, false⟩)

theorem valid_start (legacy : Bool) : (proof legacy).Valid ⟨start, (callerStart legacy).prog⟩ := by
  refine valid_callerStart (proof legacy) (Nat.zero_le 1) ?_ ?_ ?_
  · intro x hr _
    have hsettled : facts .settled caller start := ⟨rfl, rfl⟩
    exact Facts.known_nil.learn (hr .settled hsettled)
  · exact fun _ _ => trivial
  · exact fun _ _ _ _ => trivial

end Managers

/-- In whatever order the operations are called and however their calls go: while no `initialize`
that finds a manager in `cameraManager_` gets another one, there is at most one. -/
theorem CameraManager.one_camera_manager {legacy : Bool}
    {cfg : Config (code legacy) (World × Managers.Past)}
    (hrun : Run (system.watched Managers.see) (fun x l => Managers.spare x l = true)
      ⟨Managers.start, (callerStart legacy).prog⟩ cfg) : Managers.live cfg.world ≤ 1 :=
  ((Managers.proof legacy).sound (Managers.valid_start legacy) hrun).inv

/-- The replies when there is no camera. -/
def Managers.noCamera (x : World × Past) : (c : SysCall) → Option c.Reply
  | .managerCameras => some (some 0)
  | c => x.1.willing .initializeCamera c

theorem CameraManager.one_camera_manager_after_reinitialize :
    ∃ cfg : Config (code false) (World × Managers.Past),
      cfg.world.1.ptr .camera_ = true ∧ Managers.live cfg.world = 1 ∧
        Managers.live cfg.world ≤ 1 := by
  obtain ⟨cfg, hrun, htest⟩ := exec_reaches (system.watched Managers.see) Managers.spare
    ⟨Managers.start, (callerStart false).prog⟩
    (runsWith Managers.noCamera Managers.caller 8 ++
      runsWith (fun x => x.1.willing .reinitializeCamera) Managers.caller 25)
    (fun cfg => cfg.world.1.ptr .camera_ && Managers.live cfg.world == 1) (by decide +kernel)
  obtain ⟨hcamera, hlive⟩ := Bool.and_eq_true_iff.mp htest
  exact ⟨cfg, hcamera, eq_of_beq hlive, CameraManager.one_camera_manager hrun⟩

/-- The first attempt finds no camera and leaves its manager, the second one makes another. -/
theorem CameraManager.two_camera_managers :
    ∃ cfg : Config (code false) (World × Managers.Past),
      Run (system.watched Managers.see) anyStep ⟨Managers.start, (callerStart false).prog⟩ cfg ∧
      Managers.live cfg.world = 2 := by
  obtain ⟨cfg, hrun, htest⟩ := exec_reaches (system.watched Managers.see) (fun _ _ => true)
    ⟨Managers.start, (callerStart false).prog⟩ (runsWith Managers.noCamera Managers.caller 12)
    (fun cfg => Managers.live cfg.world == 2) (by decide +kernel)
  exact ⟨cfg, hrun.mono fun _ _ _ => trivial, eq_of_beq htest⟩

end SurfCam

import SurfCam.Camera.Footprint
import SurfCam.Camera.Modes
import SurfCam.System

/-!
# One caller

Operations that one thread runs one after the other, with libcamera's thread and the threads of the
main loops beside it.  The members of `CameraManager` are the caller's own: the other threads only
look at them.
-/

namespace SurfCam

open Interaction CameraManager Contract

/-- Libcamera's thread writes no member. -/
theorem writes_of_completionCall {c : SysCall} (h : completionCall c = true) :
    Members.Writes c = false := by
  cases c with
  | store f value =>
    cases f <;> first | rfl | simp [completionCall, slotCall, slotGuardCall, recycleCall] at h
  | _ => first | rfl | cases h

/-- Nor do the threads of the main loops. -/
theorem writes_of_gstCall {c : SysCall} (h : gstCall c = true) : Members.Writes c = false := by
  cases c with
  | store f value => cases f <;> first | rfl | simp [gstCall, turnCall] at h
  | _ => first | rfl | cases h

/-- From one operation to the next. -/
theorem Members.wlp_callerBody {legacy b : Bool} {v : Members} (h : v.Mode) :
    Members.semantics.wlp (callerBody legacy b) (fun _ => Mode) (fun _ => True) v := by
  simp (disch := decide) only [callerBody, Prog.call_bind, Prog.ret_bind, wlp_ignored, wlp_ite]
  intro op
  split
  · exact h
  · exact Local.wlp_bind_of (wlp_operate op h) fun _ _ h => h

namespace Serial

/-- The members are the caller's own: the others do not write them. -/
def contract : Contract system (anyStep (S := Sys) (T := Tid)) where
  inv _ := True
  pre t c w :=
    (t = .caller 0 → Members.requires c w.members) ∧ (t ≠ .caller 0 → Members.Writes c = false)
  rely t w w' := t = .caller 0 → w'.members = w.members
  rely_refl _ _ _ := rfl
  rely_trans h h' ht := (h' ht).trans (h ht)
  inv_act _ _ _ _ := trivial
  inv_env _ _ _ := trivial
  rely_act hne _ hpre _ hact ht := by
    rcases system_act.mp hact with ⟨-, rfl⟩
    exact Members.members_after (hpre.2 fun hu => hne (ht.trans hu.symm))
  rely_env _ _ henv _ := Members.members_of_env henv

/-- What holds of the caller's programs by themselves holds of them among the other threads. -/
def view : contract.View (.caller 0) Members.semantics where
  own _ := True
  view := World.members
  rely _ h _ := ⟨trivial, h rfl⟩
  pre _ _ hok := ⟨fun _ => hok, fun h => absurd rfl h⟩
  step _ _ _ _ hact := ⟨trivial, Members.step_of_act hact⟩

/-- Between two operations video mode is on, or everything is idle. -/
def proof (legacy : Bool) : contract.Proof (code legacy) where
  holds
    | .caller 0, _, w => w.members.Mode
    | .callback, _, _ => True
    | .gst _, _, _ => True
    | _, _, _ => False
  body t pc w _ h := by
    cases t with
    | caller n =>
      cases n with
      | zero =>
        refine wp_mono (view.wp trivial (Members.wlp_callerBody h)) ?_ fun _ _ _ => trivial
        exact fun _ _ _ hmode _ _ => hmode.2
      | succ n => exact h.elim
    | callback =>
      refine wp_mono (wp_of_built (built_callbackBody legacy fun _ h => h) ?_)
        (fun _ _ _ _ _ _ => trivial) fun _ _ h => h
      exact fun c hc _ _ => ⟨nofun, fun _ => writes_of_completionCall hc⟩
    | gst n =>
      refine wp_mono (wp_of_built (built_gstBody pc fun _ h => h) ?_) (fun _ _ _ _ _ _ => trivial)
        fun _ _ h => h
      exact fun c hc _ _ => ⟨nofun, fun _ => writes_of_gstCall hc⟩
    | _ => exact h.elim

theorem idle_init : World.init.members.Idle :=
  ⟨⟨⟨fun _ _ => rfl, rfl⟩, rfl, rfl, rfl, rfl⟩, rfl, rfl, rfl⟩

theorem valid_start (legacy : Bool) : (proof legacy).Valid (callerStart legacy) := by
  apply valid_callerStart _ trivial
  · intro w hr _
    have hmembers : w.members = World.init.members := hr rfl
    exact .inr (hmembers ▸ idle_init)
  · exact fun _ _ => trivial
  · exact fun _ _ _ _ => trivial

end Serial

/-- After every operation of one caller, whatever the operations before it were and however the
calls in them went, video mode is on or everything is idle. -/
theorem CameraManager.on_or_idle {legacy : Bool} {cfg : Config (code legacy) World}
    (hrun : Run system anyStep (callerStart legacy) cfg) {initialized : Bool}
    (hpc : cfg.reached (.caller 0) = some initialized) :
    cfg.world.members.On ∨ cfg.world.members.Idle :=
  ((Serial.proof legacy).sound (Serial.valid_start legacy) hrun).holds hpc

theorem CameraManager.on_or_idle_after_start :
    ∃ (cfg : Config (code false) World) (initialized : Bool),
      cfg.reached (.caller 0) = some initialized ∧ cfg.world.flag .isVideoMode_ = true ∧
        (cfg.world.members.On ∨ cfg.world.members.Idle) := by
  obtain ⟨cfg, hrun, htest⟩ := exec_reaches system (fun _ _ => true) (callerStart false)
    (runs (.caller 0) .initializeCamera 12 ++ runs (.caller 0) (.startVideoMode 1280 720 30) 54)
    (fun cfg => (cfg.reached (.caller 0)).isSome && cfg.world.flag .isVideoMode_)
    (by decide +kernel)
  rcases Bool.and_eq_true_iff.mp htest with ⟨hreached, hvideo⟩
  rcases Option.isSome_iff_exists.mp hreached with ⟨initialized, hpc⟩
  exact ⟨cfg, initialized, hpc, hvideo,
    CameraManager.on_or_idle (hrun.mono fun _ _ _ => trivial) hpc⟩

end SurfCam

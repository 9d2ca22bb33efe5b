import SurfCam.Logic.Residue
import SurfCam.System

/-!
# Undefined behaviour

The operations go through a configuration and the planes of a buffer without looking at them.  A
thread comes to undefined behaviour where libcamera hands out a configuration that is null or has no
stream, or a buffer without planes, and nowhere else.
-/

namespace SurfCam

open Interaction Prog Contract CameraManager

namespace Undefined

/-- A configuration has a stream, and a buffer a plane. -/
def proper : (c : SysCall) → c.Reply → Bool
  | .generateConfiguration _, configuration => configuration ≠ .null ∧ configuration ≠ .streams 0
  | .planeCount, planes => planes ≠ 0
  | _, _ => true

abbrev Other (c : SysCall) : Prop := c ≠ .undefinedBehaviour

/-- With proper replies `p` does not come to undefined behaviour. -/
abbrev Avoids {α : Type} (p : Prog Sys α) : Prop := p.Calls proper Other

section

variable {legacy : Bool} {X : ∀ α : Type, Prog Sys α → Prop}

theorem avoids_of_built {α : Type} {p : Prog Sys α} (hp : p.Built Other noParts) : Avoids p :=
  hp.calls fun _ _ h => h.elim

theorem other_of_definedCall {calls : SysCall → Bool} (c : SysCall)
    (h : definedCall calls c = true) : Other c := by
  rw [definedCall, Bool.and_eq_true] at h
  exact of_decide_eq_true h.2

theorem built_shut : shutdownGstreamerPipeline.Built Other X :=
  built_shutdownGstreamerPipeline (defined_of rfl) (by decide) (by decide)

theorem built_roll : (rollbackUnlocked legacy).Built Other X :=
  built_rollbackUnlocked (defined_of rfl) built_shut

theorem built_leaving : (leaveVideoMode legacy).Built Other X :=
  built_leaveVideoMode (defined_of rfl) (built_stopVideoModeUnlocked (defined_of rfl) built_shut)

/-! ## takePicture -/

theorem avoids_saveImage : Avoids (saveImage legacy) := by
  have hwrite : Avoids (writeImage legacy) := avoids_of_built (built_writeImage (defined_of rfl))
  cases legacy with
  | true => exact hwrite
  | false =>
    refine ⟨by decide, fun planes hplanes => ?_⟩
    have hsome : planes ≠ 0 := of_decide_eq_true hplanes
    show Avoids (if planes = 0 then _ else writeImage false)
    rw [if_neg hsome]
    exact hwrite

theorem avoids_photoRequest : Avoids (photoRequest legacy) := by
  have hbuilt : (photoRequest legacy).Built Other (onlyPart (saveImage legacy)) :=
    built_photoSaving other_of_definedCall (built_awaitCompletion (defined_of rfl)) .self
      (defined_of rfl)
  refine hbuilt.calls ?_
  rintro α p ⟨rfl, rfl⟩
  exact avoids_saveImage

theorem avoids_configurePhoto : Avoids (configurePhoto legacy) := by
  refine ⟨by decide, fun configuration hproper => ?_⟩
  have hsome : configuration ≠ .null ∧ configuration ≠ .streams 0 := of_decide_eq_true hproper
  rcases configuration with _ | (_ | streams) | _
  · exact absurd rfl hsome.1
  · exact absurd rfl hsome.2
  · refine (built_photoStreams (X := onlyPart (photoRequest legacy)) other_of_definedCall
      .self).calls ?_
    rintro α p ⟨rfl, rfl⟩
    exact avoids_photoRequest
  · trivial

theorem avoids_takePicture : Avoids (takePicture legacy) := by
  have hcapture : Avoids (capturePhoto legacy) :=
    avoids_configurePhoto.tryCatch <| avoids_of_built <|
      .bind (built_stopCameraIfRunning (defined_of rfl)) fun _ => .ret _
  have hbuilt : (takePicture legacy).Built Other (onlyPart (capturePhoto legacy)) :=
    built_takePicture (by decide) (by decide) (by decide)
      (built_cameraReady (by decide) (by decide)) built_leaving .self
  refine hbuilt.calls ?_
  rintro α p ⟨rfl, rfl⟩
  exact hcapture

/-! ## startVideoMode -/

theorem built_streams (streams width height fps : Nat) :
    (startStreams legacy streams width height fps).Built Other X := by
  have hpipeline : ∀ width height fps,
      (initializeGstreamerPipeline width height fps).Built Other X :=
    built_initializeGstreamerPipeline (defined_of rfl) built_shut
      (built_startPipeline (defined_of rfl) built_shut (by decide))
  have hqueue : (queueBuffer legacy).Built Other X :=
    built_queueBuffer (defined_of rfl) (built_keepRequest (defined_of rfl) (defined_of rfl)) built_roll
  exact built_startStreams (defined_of rfl) hpipeline (built_resetAllocator (defined_of rfl))
    built_roll hqueue other_of_definedCall _ _ _ _

theorem avoids_configureVideo (width height fps : Nat) :
    Avoids (configureVideo legacy width height fps) := by
  refine ⟨by decide, fun configuration hproper => ?_⟩
  have hsome : configuration ≠ .null ∧ configuration ≠ .streams 0 := of_decide_eq_true hproper
  rcases configuration with _ | (_ | streams) | _
  · exact absurd rfl hsome.1
  · exact absurd rfl hsome.2
  · have hassign : Other (.assign .currentConfig_ true) := by decide
    have hconfigure : Other (.configure ⟨width, height, .RGB888, 4⟩) := by simp
    have hbuilt : Built (S := Sys) Other noParts (do
        sys (.assign .currentConfig_ true)
        if !(← (← sys (.configure ⟨width, height, .RGB888, 4⟩)).check) then return false
        startStreams legacy (streams + 1) width height fps) :=
      .bind (.call hassign) fun _ => .bind (.call hconfigure) fun _ =>
        .bind (built_check _) fun _ => .ite (.ret _) (built_streams _ _ _ _)
    exact avoids_of_built hbuilt
  · trivial

theorem avoids_startVideoMode (width height fps : Nat) :
    Avoids (startVideoMode legacy width height fps) := by
  have hbuilt : (startVideoMode legacy width height fps).Built Other
      (onlyPart (configureVideo legacy width height fps)) :=
    built_lockGuard (by decide) (by decide) <|
      .bind (built_cameraReady (by decide) (by decide)) fun _ => .ite (.ret _) <| .tryCatch
        (.bind built_leaving fun _ => .ite (.ret _) .self)
        built_roll
  refine hbuilt.calls ?_
  rintro α p ⟨rfl, rfl⟩
  exact avoids_configureVideo width height fps

/-! ## The threads -/

theorem avoids_body {t : Tid} (ht : ∀ n, t ≠ .caller n) (pc : t.Pc) :
    Avoids ((code legacy).body t pc) := by
  have hW : ∀ c, App.workerCall c = true → Other c := defined_of rfl
  have hA : ∀ c, acquireCall c = true → Other c := defined_of rfl
  have hT : ∀ c, teardownCall c = true → Other c := defined_of rfl
  have hbuilt : ((code legacy).body t pc).Built Other fun _ p => Avoids p := by
    refine built_appBody hW (defined_of (by cases t <;> rfl)) (fun _ => ⟨?_, ?_⟩) (fun _ => ?_)
      (fun _ => ⟨by decide, ?_⟩) (fun n _ => ⟨by decide, by decide, ?_, ?_⟩)
      (fun _ => defined_of rfl) (fun n _ => defined_of rfl) ht pc
    · exact built_initializeCamera hA (by decide) (by decide) (by decide)
    · exact built_destroy hA hT built_shut
    · exact .part avoids_takePicture
    · exact App.built_recoverCamera hW (by decide) (by decide)
        (built_reinitializeCamera hA hT built_shut fun value => by cases value <;> decide)
    · exact App.built_hlsWorkerBegin hW (by decide) (by decide) (by decide)
        (.part (avoids_startVideoMode ..))
    · exact built_stopVideoMode hT built_shut
  exact hbuilt.calls fun _ _ h => h

end

/-- A run in which every configuration has a stream and every buffer a plane. -/
abbrev ProperRun {legacy : Bool} (cfg : Config (code legacy) World) : Prop :=
  Run system (goodStep proper) (appStart legacy) cfg

theorem other_of_properRun {legacy : Bool} {cfg : Config (code legacy) World} (h : ProperRun cfg)
    {t : Tid} {c : SysCall} (hcall : cfg.pending t = some c) : Other c := by
  let proof : (calling system proper Other).Proof (code legacy) :=
    callingProof (fun t => ∀ n, t ≠ .caller n) fun _ ht pc => avoids_body ht pc
  have hstart : proof.Valid (appStart legacy) := by
    apply valid_appStart
    · trivial
    all_goals intros; simp [proof, callingProof]
  exact (proof.sound hstart h).pre hcall

end Undefined

end SurfCam

import SurfCam.Logic.Residue
import SurfCam.System

/-!
# The starts of the HLS workers

`streamHlsWorker` calls `startVideoMode` when the HLS directory has been cleaned.  An observer
follows that call: it keeps what is left of it, up to the value that it returns.
-/

namespace SurfCam

open Interaction CameraManager Contract

/-- What is left of the call of `startVideoMode` in each HLS worker, from the clean-up of the
directory to the call that follows its end. -/
abbrev Starts := Nat → Option (Prog Sys Bool)

namespace Starts

/-- The call of `startVideoMode` in `streamHlsWorker`. -/
def call (legacy : Bool) : Prog Sys Bool :=
  startVideoMode legacy Config.CAMERA_WIDTH Config.CAMERA_HEIGHT Config.STREAM_FPS

/-- What is left in one worker after a call of it. -/
def next (legacy : Bool) : (c : SysCall) → c.Reply → Option (Prog Sys Bool) →
    Option (Prog Sys Bool)
  | .cleanHlsDirectory, .ok, _ => some (call legacy)
  | c, r, left => left.bind fun p => p.advance c r

def after (legacy : Bool) (t : Tid) (c : SysCall) (r : c.Reply) (s : Starts) : Starts :=
  match t with
  | .hls n => Function.update s n (next legacy c r (s n))
  | _ => s

/-- `startVideoMode` has returned false in worker `n`, which has not gone on since. -/
def failed (s : Starts) (n : Nat) : Bool :=
  match s n with
  | some (.ret false) => true
  | _ => false

section

variable {legacy : Bool} {t : Tid} {c : SysCall} {r : c.Reply} {s : Starts} {n : Nat}
  {left : Option (Prog Sys Bool)}

theorem failed_iff : s.failed n = true ↔ s n = some (.ret false) := by
  unfold failed
  split
  · rename_i h
    exact iff_of_true rfl h
  · rename_i h
    exact iff_of_false Bool.false_ne_true h

theorem next_of_ne (hc : c ≠ .cleanHlsDirectory) :
    next legacy c r left = left.bind fun p => p.advance c r := by
  unfold next
  split
  · contradiction
  · rfl

theorem after_hls : s.after legacy (.hls n) c r n = next legacy c r (s n) :=
  Function.update_self ..

/-- A call of a worker concerns no other one. -/
theorem after_of_ne (ht : t ≠ .hls n) : s.after legacy t c r n = s n := by
  cases t with
  | hls m =>
    have hne : n ≠ m := by
      rintro rfl
      exact ht rfl
    exact Function.update_of_ne hne ..
  | _ => rfl

theorem failed_after_of_ne (ht : t ≠ .hls n) :
    (s.after legacy t c r).failed n = s.failed n := by
  unfold failed
  rw [after_of_ne ht]

/-- A start that has returned is over with the next call of its worker. -/
theorem next_ret {b : Bool} (hc : c ≠ .cleanHlsDirectory) :
    next legacy c r (some (.ret b)) = none := next_of_ne hc

/-- The worker is not inside the call, and no failure is left to be reported. -/
def Apart (s : Starts) (n : Nat) : Prop := s n = none ∨ s n = some (.ret true)

theorem Apart.not_failed (h : s.Apart n) : s.failed n = false := by
  apply Bool.eq_false_iff.mpr
  intro hfailed
  rw [failed_iff] at hfailed
  unfold Apart at h
  rw [hfailed] at h
  simp at h

theorem Apart.after (hc : c ≠ .cleanHlsDirectory) (h : s.Apart n) :
    (s.after legacy (.hls n) c r).Apart n := by
  left
  rw [after_hls]
  cases h with
  | inl hnone => rw [hnone, next_of_ne hc, Option.bind_none]
  | inr hret => rw [hret, next_ret hc]

end

/-! ## streamHlsWorker -/

section

variable {legacy : Bool} {W E : Type} {M : Machine Sys Tid W E} {ok : W → Label Sys Tid E → Prop}
  {C : Contract M ok} {starts : W → Starts} {n : Nat} {P : SysCall → Prop}

/-- What a contract has to say of an observed HLS worker: the others leave its start alone, and it
may make the calls of `P`, and the report of a failure right behind one. -/
structure Observed (C : Contract M ok) (legacy : Bool) (starts : W → Starts) (n : Nat)
    (P : SysCall → Prop) : Prop where
  rely : ∀ w w', C.rely (.hls n) w w' → C.inv w' → starts w' n = starts w n
  act : ∀ {t c r w w'}, M.act t c r w = some w' → starts w' = (starts w).after legacy t c r
  pre : ∀ c w, P c → C.inv w → (starts w).failed n = false → C.pre (.hls n) c w
  report : ∀ w, C.inv w → (starts w).failed n = true →
    C.pre (.hls n) (.store .cameraRecoveryNeeded true) w

variable (O : Observed C legacy starts n P)

include O

theorem apart_rely (w w' : W) (hr : C.rely (.hls n) w w') (hi : C.inv w') (h : (starts w).Apart n) :
    (starts w').Apart n := by
  unfold Apart
  rw [O.rely w w' hr hi]
  exact h

/-- The calls besides the one that begins a start. -/
def Within (P : SysCall → Prop) (c : SysCall) : Prop := P c ∧ c ≠ .cleanHlsDirectory

omit O in
theorem within_of {calls : SysCall → Bool} (hP : ∀ c, calls c = true → P c)
    (hc : calls .cleanHlsDirectory = false) (c : SysCall) (h : calls c = true) : Within P c := by
  refine ⟨hP c h, ?_⟩
  rintro rfl
  exact Bool.false_ne_true (hc.symm.trans h)

theorem keeps_apart {α : Type} {p : Prog Sys α} (hp : p.Built (Within P) Prog.noParts) :
    C.Keeps (.hls n) (fun w => (starts w).Apart n) p := by
  refine keeps_of_built (apart_rely O) (fun c hc w hi h => ?_) (fun _ _ h => h.elim) hp
  refine ⟨O.pre c w hc.1 hi h.not_failed, fun r w' _ hact => ?_⟩
  rw [O.act hact]
  exact h.after hc.2

theorem wp_apart {α β : Type} {p : Prog Sys α} {f : α → Prog Sys β} {Q : β → W → Prop} {w : W}
    (hp : p.Built (Within P) Prog.noParts) (h : (starts w).Apart n)
    (hf : ∀ a w, (starts w).Apart n → C.wp (.hls n) (f a) Q (fun _ => True) w) :
    C.wp (.hls n) (p >>= f) Q (fun _ => True) w :=
  (keeps_apart O hp).wp_bind (fun _ _ => trivial) h hf

/-- The call of `startVideoMode` as the observer follows it. -/
theorem wp_call (hP : (call legacy).Built (Within P) Prog.noParts) {w : W}
    (h : starts w n = some (call legacy)) :
    C.wp (.hls n) (call legacy) (fun b w => starts w n = some (.ret b)) (fun _ => True) w := by
  refine wp_mono (wp_followed O.rely ?_ (hP.calls fun _ _ h => h.elim) h)
    (fun _ _ _ h => h) fun _ _ _ => trivial
  intro c k w hc hi hleft
  refine ⟨O.pre c w hc.1 hi ?_, fun r w' _ hact => ?_⟩
  · apply Bool.eq_false_iff.mpr
    intro hfailed
    rw [failed_iff, hleft] at hfailed
    cases hfailed
  · rw [O.act hact, after_hls, hleft, next_of_ne hc.2]
    exact Prog.advance_call c k r

/-- An HLS worker reports nothing but a start that has returned false, and does it right then. -/
theorem wp_hlsWorkerBegin (hP : (call legacy).Built (Within P) Prog.noParts)
    (hclean : P .cleanHlsDirectory) (hbegin : P .threadBegin)
    (hend : App.hlsWorkerEnd.Built (Within P) Prog.noParts) {w : W} (h : (starts w).Apart n) :
    C.wp (.hls n) (App.hlsWorkerBegin legacy) (fun _ w => (starts w).Apart n) (fun _ => True) w := by
  have hlast : ∀ w, (starts w).Apart n → C.wp (.hls n) (App.hlsWorkerEnd >>= fun _ => .ret false)
      (fun _ w => (starts w).Apart n) (fun _ => True) w := by
    intro w h
    exact wp_apart O hend h fun _ w h _ hr hi => apart_rely O w _ hr hi h
  refine wp_apart O (.call ⟨hbegin, nofun⟩) h fun _ w h => ?_
  refine wp_call_of (apart_rely O) h fun w hi h =>
    ⟨O.pre _ w hclean hi h.not_failed, fun cleaned w' _ hact => ?_⟩
  have hafter : starts w' n = next legacy .cleanHlsDirectory cleaned (starts w n) := by
    rw [O.act hact, after_hls]
  have hskipped : cleaned ≠ .ok → (starts w').Apart n := by
    intro hne
    left
    have hnone : next legacy .cleanHlsDirectory cleaned (starts w n) =
        (starts w n).bind fun p => p.advance .cleanHlsDirectory cleaned := by
      cases cleaned with
      | ok => contradiction
      | failed => rfl
      | threw => rfl
    rw [hafter, hnone]
    cases h with
    | inl hn => rw [hn, Option.bind_none]
    | inr hr =>
      rw [hr]
      rfl
  cases cleaned with
  | failed => exact hlast w' (hskipped (by decide))
  | threw => exact hlast w' (hskipped (by decide))
  | ok =>
  refine wp_bind_of (wp_call O hP hafter) fun started w _ hleft => ?_
  cases started with
  | true => exact fun v hr hi => apart_rely O w v hr hi (.inr hleft)
  | false =>
    refine wp_call_of (A := fun w => starts w n = some (.ret false))
      (fun w v hr hi h => (O.rely w v hr hi).trans h) hleft fun w hi hleft => ?_
    refine ⟨O.report w hi (failed_iff.mpr hleft), fun r w' _ hact => hlast w' ?_⟩
    left
    rw [O.act hact, after_hls, hleft, next_ret (by decide)]

/-- An HLS worker from one control point to the next. -/
theorem wp_hlsBody (hM : ∀ c, modeCall c = true → P c) (hW : ∀ c, App.workerCall c = true → P c)
    (hclean : P .cleanHlsDirectory) (hend : P .threadEnd) (hreset : P (.store .gstPipelineError_ false))
    (hconsume : P (.exchange .gstPipelineError_ false)) (hpoll : P (.pollAndUpload false))
    {pc : LoopPc} {w : W} (h : (starts w).Apart n) :
    C.wp (.hls n) (hlsBody legacy pc) (fun _ w => (starts w).Apart n) (fun _ => True) w := by
  have hM : ∀ c, modeCall c = true → Within P c := within_of hM rfl
  have hW' : ∀ c, App.workerCall c = true → Within P c := within_of hW rfl
  have hend : Within P .threadEnd := ⟨hend, nofun⟩
  have hret : ∀ {next : Option LoopPc} {w : W}, (starts w).Apart n → C.wp (.hls n) (.ret next)
      (fun _ w => (starts w).Apart n) (fun _ => True) w := fun h _ hr hi => apart_rely O _ _ hr hi h
  cases pc with
  | begin =>
    refine wp_bind_of (wp_hlsWorkerBegin O ?_ hclean (hW _ rfl) ?_ h) fun _ w _ h => hret h
    · exact built_start hM (built_pipeline hM ⟨hreset, nofun⟩) _ _ _
    · exact App.built_hlsWorkerEnd hW' hend
  | loop =>
    have hbuilt : (hlsBody legacy .loop).Built (Within P) Prog.noParts :=
      .bind (App.built_hlsLoopTurn hW' ⟨hconsume, nofun⟩ ⟨hpoll, nofun⟩) fun _ => .ite (.ret _)
        (.bind (App.built_hlsWorkerFinish hW' hend (built_stop hM)) fun _ => .ret _)
    exact wp_mono (keeps_apart O hbuilt w h) (fun _ _ _ h => h) fun _ _ _ => trivial

end

end Starts

end SurfCam

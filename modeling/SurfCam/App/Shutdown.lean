import SurfCam.App.Lifecycle
import SurfCam.Logic.Halting

/-!
# The shutdown

`signalHandler` clears `keepRunning`, and nobody sets it again.  From then on every worker leaves
its loop at the next test of the flag, `streamCheckWorker` starts no further session, and `main`
goes on to its joins, so the threads of the application make finitely many calls more.
-/

namespace SurfCam

open Interaction Prog CameraManager Contract

/-- The threads that `main.cpp` runs code of its own on. -/
def Tid.ofApp : Tid → Bool
  | main | snapshot | check | monitor | hls _ => true
  | caller _ | callback | gst _ => false

namespace Shutdown

/-! ## Nobody sets the flag -/

/-- The calls of the application. -/
def appCall (c : SysCall) : Bool :=
  App.workerCall c || modeCall c || acquireCall c || completionCall c || gstCall c ||
    (match c with
      | .spawnWorker _ | .joinWorker _ | .spawnStreamThread | .streamThreadJoin | .threadEnd
      | .cleanHlsDirectory | .store .snapshotsPaused_ _ | .pollAndUpload _ => true
      | _ => false) ||
    c ∈ [.store .streamShouldRun true, .exchange .gstPipelineError_ false,
      .store .cameraRecoveryNeeded true, .exchange .cameraRecoveryNeeded false,
      .store .emergencyStopHls true, .exchange .emergencyStopHls false,
      .store .gstPipelineError_ false]

theorem built_code {P : SysCall → Prop} (hP : ∀ c, appCall c = true → P c) {legacy : Bool} {t : Tid}
    (ht : ∀ n, t ≠ .caller n) (pc : t.Pc) :
    ((code legacy).body t pc).Built P Prog.noParts := by
  have hW : ∀ c, App.workerCall c = true → P c := fun c h => hP c (by simp [appCall, h])
  have hM : ∀ c, modeCall c = true → P c := fun c h => hP c (by simp [appCall, h])
  have hA : ∀ c, acquireCall c = true → P c := fun c h => hP c (by simp [appCall, h])
  have hT : ∀ c, threadCall t c = true → P c := by
    intro c h
    apply hP
    cases c with
    | store f value =>
      obtain ⟨rfl, rfl, -⟩ := of_decide_eq_true h
      rfl
    | exchange f value =>
      obtain ⟨rfl, hvalue, -⟩ := of_decide_eq_true h
      cases value with
      | false => rfl
      | true => cases hvalue
    | _ => first | rfl | cases h
  refine built_appBody hW hT ?_ ?_ ?_ ?_ ?_ ?_ ht pc
  · exact fun _ => ⟨built_initializeCamera hA (hM _ rfl) (hM _ rfl) (hP _ rfl),
      built_destroyed hM hA⟩
  · exact fun _ => built_photo hM
  · exact fun _ => ⟨hP _ rfl, App.built_recoverCamera hW (hP _ rfl) (hP _ rfl)
      (built_reinit hM hA fun value => hP _ (by cases value <;> rfl))⟩
  · exact fun n _ => ⟨hP _ rfl, hP _ rfl, App.built_hlsWorkerBegin hW (hP _ rfl) (hP _ rfl)
      (hP _ rfl)
      (built_start hM (built_pipeline hM (hP _ rfl)) _ _ _), built_stop hM⟩
  · exact fun _ c h => hP c (by simp [appCall, h])
  · exact fun n _ c h => hP c (by simp [appCall, h])

/-- The calls that write the flag. -/
def writers : List SysCall :=
  [.store .keepRunning true, .store .keepRunning false, .exchange .keepRunning true,
    .exchange .keepRunning false]

section

variable {W E : Type} (M : Machine Sys Tid W E)

/-- Whatever the machine is: no thread writes the flag. -/
def contract : Contract M (anyStep (S := Sys)) where
  inv _ := True
  pre _ c _ := c ∉ writers
  rely _ _ _ := True
  rely_refl _ _ := trivial
  rely_trans _ _ := trivial
  inv_act _ _ _ _ := trivial
  inv_env _ _ _ := trivial
  rely_act _ _ _ _ _ := trivial
  rely_env _ _ _ := trivial

def proof (legacy : Bool) : (contract M).Proof (code legacy) where
  holds t _ _ := ∀ n, t ≠ .caller n
  body t pc w _ ht := by
    have hbuilt : ((code legacy).body t pc).Built (fun c : SysCall => c ∉ writers) Prog.noParts :=
      built_code (not_mem_of (by decide)) ht pc
    have hwp := wp_of_built (C := contract M) (t := t) (w := w) hbuilt fun _ hc _ _ => hc
    exact wp_mono hwp (fun _ _ _ _ _ _ => ht) fun _ _ h => h

theorem valid_start (legacy : Bool) (w₀ : W) :
    (proof M legacy).Valid ⟨w₀, (appStart legacy).prog⟩ := by
  apply valid_appStart
  · trivial
  all_goals intros; exact nofun

end

theorem flag_kept {t : Tid} {c : SysCall} {r : c.Reply} {w : World} (hc : c ∉ writers) :
    (w.after t c r).flag .keepRunning = w.flag .keepRunning := by
  apply World.flag_after
  · rintro value rfl
    cases value <;> exact hc (by decide)
  · rintro value rfl
    cases value <;> exact hc (by decide)

/-- Once cleared, the flag stays so. -/
theorem cleared_step {legacy : Bool} {a b : Config (code legacy) World} {l : Label Sys Tid Signal}
    (h : (proof system legacy).Valid a) (ha : a.world.flag .keepRunning = false)
    (hs : Step system a l b) : b.world.flag .keepRunning = false := by
  cases l with
  | act t c r =>
    obtain ⟨-, hb⟩ := system_act.mp hs.world_of_act
    rw [hb, flag_kept (h.pre hs.pending), ha]
  | resume t =>
    cases hs
    exact ha
  | env e =>
    cases hs with | env henv =>
    cases henv
    rfl

/-! ## Every thread comes to its end -/

/-- The replies of a cleared flag. -/
def can : (c : SysCall) → c.Reply → Prop
  | .load .keepRunning, r => r = false
  | _, _ => True

section

variable {legacy : Bool}

theorem ends_mainInitTurn {retryDelay : Nat} :
    (App.mainInitTurn legacy retryDelay).EndsUnder can (· = some false) := by
  refine .perform fun keepRunning hcleared => ?_
  rw [show keepRunning = false from hcleared]
  refine .perform fun keepRunning hcleared => ?_
  rw [show keepRunning = false from hcleared]
  refine .tail _ fun _ => .tail _ fun _ => ?_
  rfl

theorem ends_mainWaitTurn : (App.mainWaitTurn legacy).EndsUnder can (· = false) := by
  refine .perform fun keepRunning hcleared => ?_
  rw [show keepRunning = false from hcleared]
  refine .tail _ fun _ => .tail _ fun _ => .tail _ fun _ => .tail _ fun _ => .tail _ fun _ =>
    .tail _ fun _ => .tail _ fun _ => ?_
  rfl

/-- A turn that is the last one ends the loop. -/
theorem winds_loopWhile {Pc : Type} {body : Pc → Prog Sys (Option Pc)} {next : Pc}
    {turn : Prog Sys Bool} (h : turn.EndsUnder can (· = false)) :
    Winds can body (loopWhile next turn) := by
  apply EndsUnder.winds_none
  refine h.bind fun more hmore => ?_
  rw [hmore]
  rfl

theorem winds_mainBody (pc : MainPc) : Winds can (mainBody legacy) (mainBody legacy pc) := by
  cases pc with
  | init retryDelay =>
    apply EndsUnder.winds_none
    refine ends_mainInitTurn.bind fun r hr => ?_
    rw [hr]
    rfl
  | wait => exact winds_loopWhile ends_mainWaitTurn

theorem winds_workerBody {turn : Prog Sys Bool} (h : turn.EndsUnder can (· = false))
    (pc : LoopPc) : Winds can (workerBody turn) (workerBody turn pc) := by
  have hloop : Winds can (workerBody turn) (workerBody turn .loop) := winds_loopWhile h
  cases pc with
  | begin =>
    apply EndsUnder.winds
    refine .tail _ fun _ pc hpc => ?_
    cases hpc
    exact hloop
  | loop => exact hloop

theorem ends_snapshotTurn : (App.snapshotTurn legacy).EndsUnder can (· = false) := by
  refine .perform fun keepRunning hcleared => ?_
  rw [show keepRunning = false from hcleared]
  refine .tail _ fun _ => ?_
  rfl

theorem ends_monitorTurn : App.monitorTurn.EndsUnder can (· = false) := by
  refine .perform fun keepRunning hcleared => ?_
  rw [show keepRunning = false from hcleared]
  refine .tail _ fun _ => ?_
  rfl

theorem ends_checkTurn {m : StreamCheck.Memory} :
    (App.checkTurn legacy m).EndsUnder can (· = none) := by
  refine .perform fun keepRunning hcleared => ?_
  rw [show keepRunning = false from hcleared]
  refine .tail _ fun _ => ?_
  rfl

theorem winds_checkBody (pc : CheckPc) : Winds can (checkBody legacy) (checkBody legacy pc) := by
  have hloop : ∀ m, Winds can (checkBody legacy) (checkBody legacy (.loop m)) := by
    intro m
    apply EndsUnder.winds_none
    refine ends_checkTurn.bind fun next hnext => ?_
    rw [hnext]
    rfl
  cases pc with
  | begin =>
    apply EndsUnder.winds
    refine .tail _ fun _ pc hpc => ?_
    cases hpc
    exact hloop {}
  | loop m => exact hloop m

/-- The upload loop may be left because of `streamShouldRun`; if it is not, because of the signal. -/
theorem ends_hlsLoopTurn : App.hlsLoopTurn.EndsUnder can (· = false) := by
  have hcondition : App.hlsLoopCondition.EndsUnder can (· = false) := by
    refine .perform fun streamShouldRun _ => ?_
    cases streamShouldRun with
    | false => rfl
    | true =>
      refine .perform fun keepRunning hcleared => ?_
      rw [show keepRunning = false from hcleared]
      rfl
  refine hcondition.bind fun more hmore => ?_
  rw [hmore]
  rfl

theorem winds_hlsBody (pc : LoopPc) : Winds can (hlsBody legacy) (hlsBody legacy pc) := by
  have hloop : Winds can (hlsBody legacy) (hlsBody legacy .loop) := by
    apply EndsUnder.winds_none
    refine ends_hlsLoopTurn.bind fun more hmore => ?_
    rw [hmore]
    refine .tail _ fun _ => ?_
    rfl
  cases pc with
  | begin =>
    apply EndsUnder.winds
    refine .tail _ fun more pc hpc => ?_
    cases more with
    | false => cases hpc
    | true => cases hpc; exact hloop
  | loop => exact hloop

/-- Wherever a thread of the application is when the flag is cleared, its end is in sight. -/
theorem winds {t : Tid} (ht : t.ofApp = true) (p : Prog Sys (Option t.Pc)) :
    Winds can ((code legacy).body t) p := by
  refine winds_of_body (fun pc => ?_) p
  cases t with
  | main => exact winds_mainBody pc
  | snapshot => exact winds_workerBody ends_snapshotTurn pc
  | check => exact winds_checkBody pc
  | monitor => exact winds_workerBody ends_monitorTurn pc
  | hls n => exact winds_hlsBody pc
  | caller n => cases ht
  | callback => cases ht
  | gst n => cases ht

end

/-! ## All threads -/

section

variable {legacy : Bool} {σ : Endless system (code legacy)} {n m : Nat}

theorem valid_config (h0 : σ.config 0 = appStart legacy) (m : Nat) :
    (proof system legacy).Valid (σ.config m) := by
  have hrun := σ.run 0 m
  rw [h0, Nat.zero_add] at hrun
  exact (proof system legacy).sound (valid_start system legacy _) hrun

theorem lifecycle_config (h0 : σ.config 0 = appStart legacy) (m : Nat) :
    (Lifecycle.proof legacy).Valid (σ.config m) := by
  have hrun := σ.run 0 m
  rw [h0, Nat.zero_add] at hrun
  exact (Lifecycle.proof legacy).sound (Lifecycle.valid_start legacy) hrun

theorem cleared_config (h0 : σ.config 0 = appStart legacy)
    (hn : (σ.config n).world.flag .keepRunning = false) (hm : n ≤ m) :
    (σ.config m).world.flag .keepRunning = false := by
  induction m, hm using Nat.le_induction with
  | base => exact hn
  | succ m _ ih => exact cleared_step (valid_config h0 m) ih (σ.step m)

/-- The replies after the flag has been cleared. -/
theorem can_of_cleared {t : Tid} {c : SysCall} {r : c.Reply}
    (hm : (σ.config m).world.flag .keepRunning = false) (hlabel : σ.label m = .act t c r) :
    can c r := by
  have hs := σ.step m
  rw [hlabel] at hs
  obtain ⟨hanswer, -⟩ := system_act.mp hs.world_of_act
  unfold can
  split
  · have hreply := of_decide_eq_true (World.shared_of_answers hanswer)
    rw [hreply, hm]
  · trivial

theorem quiets_thread {t : Tid} (ht : t.ofApp = true) (h0 : σ.config 0 = appStart legacy)
    (hn : (σ.config n).world.flag .keepRunning = false) :
    ∃ N, n ≤ N ∧ ∀ m, N ≤ m → ¬ (σ.label m).isOf t :=
  Endless.quiets (fun _ hm _ _ => can_of_cleared (cleared_config h0 hn hm)) (winds ht _)

end

theorem hlsWorkers_after {t : Tid} {c : SysCall} {r : c.Reply} {w : World}
    (hc : c ≠ .spawnStreamThread) :
    (w.after t c r).threads.hlsWorkers = w.threads.hlsWorkers := by
  cases c with
  | spawnStreamThread => contradiction
  | spawnGstThread => cases r <;> rfl
  | _ => rfl

/-- Nobody but `streamCheckWorker` starts an HLS worker. -/
theorem hlsWorkers_step {legacy : Bool} {a b : Config (code legacy) World}
    {l : Label Sys Tid Signal} (h : (Lifecycle.proof legacy).Valid a) (hs : Step system a l b)
    (hl : ¬ l.isOf .check) :
    b.world.threads.hlsWorkers = a.world.threads.hlsWorkers := by
  cases l with
  | act t c r =>
    have hc : c ≠ .spawnStreamThread := fun hc => hl ((h.pre hs.pending).spawn hc).1
    obtain ⟨-, hb⟩ := system_act.mp hs.world_of_act
    rw [hb]
    exact hlsWorkers_after hc
  | resume t =>
    cases hs
    rfl
  | env e =>
    cases hs with | env henv =>
    cases henv
    rfl

section

variable {legacy : Bool} {σ : Endless system (code legacy)} {N m : Nat}

/-- Where `streamCheckWorker` has fallen silent, no further HLS worker is started. -/
theorem hlsWorkers_config (h0 : σ.config 0 = appStart legacy)
    (hquiet : ∀ m, N ≤ m → ¬ (σ.label m).isOf .check) (hm : N ≤ m) :
    (σ.config m).world.threads.hlsWorkers = (σ.config N).world.threads.hlsWorkers := by
  induction m, hm using Nat.le_induction with
  | base => rfl
  | succ m hm ih =>
    rw [← ih]
    exact hlsWorkers_step (lifecycle_config h0 m) (σ.step m) (hquiet m hm)

/-- An HLS worker that makes a call has been started. -/
theorem started_of_act (h0 : σ.config 0 = appStart legacy) {k : Nat} {c : SysCall} {r : c.Reply}
    (hlabel : σ.label m = .act (.hls k) c r) :
    k < (σ.config m).world.threads.hlsWorkers := by
  have hvalid := lifecycle_config h0 m
  have hs := σ.step m
  rw [hlabel] at hs
  have hallowed := hvalid.pre hs.pending
  rw [← hvalid.inv.started k]
  by_cases hc : c = .threadBegin
  · subst hc
    exact World.threads_of_answers (system_act.mp hs.world_of_act).1
  · exact (hallowed.own k rfl hc).1

end

end Shutdown

/-- Once `keepRunning` has been cleared, the threads of the application make finitely many calls
more: in every execution that goes on for ever there is a moment from which on neither `main` nor a
worker makes another one. -/
theorem App.shutdown_ends {legacy : Bool} (σ : Endless system (code legacy))
    (h0 : σ.config 0 = appStart legacy) {n : Nat}
    (hn : (σ.config n).world.flag .keepRunning = false) :
    ∃ N, ∀ m, N ≤ m → ∀ (t : Tid) (c : SysCall) (r : c.Reply), t.ofApp = true →
      σ.label m ≠ .act t c r := by
  obtain ⟨Nc, -, hcheck⟩ := Shutdown.quiets_thread (t := .check) rfl h0 hn
  -- the workers that have been started are finitely many
  have hworkers : ∀ t ∈ [Tid.main, .snapshot, .check, .monitor] ++
      (List.range (σ.config Nc).world.threads.hlsWorkers).map Tid.hls,
      ∃ N, ∀ m, N ≤ m → ¬ (σ.label m).isOf t := by
    intro t ht
    have happ : t.ofApp = true := by
      rcases List.mem_append.mp ht with ht | ht
      · simp only [List.mem_cons, List.not_mem_nil, or_false] at ht
        rcases ht with rfl | rfl | rfl | rfl <;> rfl
      · obtain ⟨k, -, rfl⟩ := List.mem_map.mp ht
        rfl
    obtain ⟨N, -, hN⟩ := Shutdown.quiets_thread happ h0 hn
    exact ⟨N, hN⟩
  obtain ⟨N, hN⟩ := Endless.quiets_all hworkers
  refine ⟨max N Nc, fun m hm t c r ht hlabel => hN t ?_ m (by omega) ?_⟩
  · cases t with
    | hls k =>
      have hk := Shutdown.started_of_act h0 hlabel
      rw [Shutdown.hlsWorkers_config h0 hcheck (by omega)] at hk
      simp [hk]
    | caller n => cases ht
    | callback => cases ht
    | gst n => cases ht
    | _ => simp
  · rw [hlabel]
    rfl

/-- The signal arrives again and again, and nobody else does anything. -/
def Shutdown.signals (cfg : Config (code false) World) : Endless system (code false) where
  config n := n.rec cfg fun _ cfg =>
    ⟨{ cfg.world with flag := Function.update cfg.world.flag .keepRunning false }, cfg.prog⟩
  label _ := .env .terminate
  step _ := .env rfl

/-- The threads of the application in a run with one session. -/
def Shutdown.threads : List Tid := [.main, .snapshot, .check, .monitor, .hls 0]

/-- `main` starts the workers, and a session is streamed. -/
def Shutdown.work : List (Choice Sys Tid World Signal) :=
  runs .main .takePicture 18 ++ runs .check .takePicture 14 ++ runs .snapshot .takePicture 3 ++
    runs (.hls 0) .takePicture 60 ++ runs (.gst 1) .takePicture 5 ++ runs .monitor .takePicture 3

/-- The session is stopped, and the threads end one after the other. -/
def Shutdown.farewell : List (Choice Sys Tid World Signal) :=
  runs (.hls 0) .takePicture 15 ++ runs .callback .takePicture 4 ++
    runs (.hls 0) .takePicture 12 ++ runs (.gst 1) .takePicture 3 ++
    runs (.hls 0) .takePicture 38 ++ runs .snapshot .takePicture 2 ++
    runs .check .takePicture 4 ++ runs .monitor .takePicture 2 ++ runs .main .takePicture 25

/-- The signal comes while all threads are at work, and they end. -/
theorem App.shutdown_ends_streaming :
    ∃ (σ : Endless system (code false)) (n k : Nat), σ.config 0 = appStart false ∧
      (∀ t ∈ Shutdown.threads, (σ.config n).pending t ≠ none) ∧
      (∀ t ∈ Shutdown.threads, (σ.config (n + (1 + k))).world.threads.finished t = true) ∧
        ∃ N, ∀ m, N ≤ m → ∀ (t : Tid) (c : SysCall) (r : c.Reply), t.ofApp = true →
          σ.label m ≠ .act t c r := by
  obtain ⟨busy, hwork, htest⟩ := exec_reaches system (fun _ _ => true) (appStart false)
    Shutdown.work
    (fun cfg => decide (∀ t ∈ Shutdown.threads, cfg.pending t ≠ none) &&
      (exec system (fun _ _ => true) Shutdown.farewell
        ((Shutdown.signals cfg).config 1)).any
          fun (cfg : Config (code false) World) =>
            decide (∀ t ∈ Shutdown.threads, cfg.world.threads.finished t = true))
    (by decide +kernel)
  obtain ⟨hbusy, hrest⟩ := Bool.and_eq_true_iff.mp htest
  obtain ⟨done, hfarewell, hdone⟩ := exec_reaches _ _ _ _ _ hrest
  obtain ⟨τ, k, hsignal, hend⟩ := (Shutdown.signals done).prepend hfarewell rfl
  have hstep : Step system busy (.env .terminate) (τ.config 0) := by
    rw [hsignal]
    exact (Shutdown.signals busy).step 0
  obtain ⟨σ, n, h0, hσ⟩ := (τ.cons hstep).prepend hwork rfl
  have hn : σ.config n = busy := hσ 0
  have hdown : σ.config (n + 1) = (Shutdown.signals busy).config 1 := (hσ 1).trans hsignal
  have hk : σ.config (n + (1 + k)) = done := by
    rw [Nat.add_comm 1 k, hσ]
    exact hend 0
  refine ⟨σ, n, k, h0, ?_, ?_, App.shutdown_ends σ h0 (n := n + 1) ?_⟩
  · rw [hn]
    exact of_decide_eq_true hbusy
  · rw [hk]
    exact of_decide_eq_true hdone
  · rw [hdown]
    rfl

end SurfCam

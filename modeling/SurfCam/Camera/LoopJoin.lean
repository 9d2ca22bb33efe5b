import SurfCam.Camera.Locks
import SurfCam.Camera.Serial

/-!
# Joining the thread of the main loop

`shutdownGstreamerPipeline` quits the loop if it is running, and joins its thread.  A loop that its
thread has not entered yet is not running, and a quit before the entry would have no effect: the
join is safe where the thread has entered the loop before the loop is asked.
-/

namespace SurfCam

open Interaction CameraManager Contract

namespace LoopJoin

/-- Whenever an operation asks whether the loop is running, the thread that `gstThread_` stands for
has entered it. -/
def entersFirst (w : World) : Label Sys Tid Signal → Bool
  | .act (.caller _) .mainLoopIsRunning _ => w.glib.gstThread_.all w.glib.entered
  | _ => true

/-- The condition, and what is known of the members (`Serial.proof`). -/
def known (w : World) (l : Label Sys Tid Signal) : Prop :=
  entersFirst w l = true ∧ ∀ t c r, l = .act t c r → Serial.contract.pre t c w

/-- `gstThread_` runs the last loop, which `loop_` points to. -/
def Last (w : World) : Prop :=
  ∀ n, w.glib.gstThread_ = some n → n = w.glib.loops ∧ w.ptr .loop_ = true

/-- The thread to be joined has entered its loop, and the loop was quit since. -/
def Quit (w : World) : Prop :=
  ∀ n, w.glib.gstThread_ = some n → w.glib.entered n = true ∧ w.glib.running n = false

section

variable {t : Tid} {c : SysCall} {r : c.Reply} {w w' : World} {n : Nat}

/-- A loop that is running was running before, unless its thread enters it. -/
theorem running_after (h : (w.after t c r).glib.running n = true) :
    w.glib.running n = true ∨ c = .mainLoopEnter ∧ t = .gst n := by
  change (World.glibAfter t w.glib c r).running n = true at h
  unfold World.glibAfter at h
  split at h
  · exact .inl h
  · change Function.update w.glib.running w.glib.loops false n = true at h
    rw [Function.update_apply] at h
    split at h
    · cases h
    · exact .inl h
  · exact .inl h
  · exact .inl h
  · split at h
    · rename_i n'
      change Function.update w.glib.running n' true n = true at h
      rw [Function.update_apply] at h
      split at h
      · exact .inr ⟨rfl, congrArg Tid.gst (Eq.symm ‹_›)⟩
      · exact .inl h
    · exact .inl h
  · split at h <;> exact .inl h
  · exact .inl h

/-- A loop that is entered was entered before, unless its thread enters it. -/
theorem entered_after (h : (w.after t c r).glib.entered n = true) :
    w.glib.entered n = true ∨ c = .mainLoopEnter ∧ t = .gst n := by
  change (World.glibAfter t w.glib c r).entered n = true at h
  unfold World.glibAfter at h
  split at h
  · exact .inl h
  · exact .inl h
  · exact .inl h
  · exact .inl h
  · split at h
    · rename_i n'
      change Function.update w.glib.entered n' true n = true at h
      rw [Function.update_apply] at h
      split at h
      · exact .inr ⟨rfl, congrArg Tid.gst (Eq.symm ‹_›)⟩
      · exact .inl h
    · exact .inl h
  · split at h <;> exact .inl h
  · exact .inl h

theorem entered_mono (h : w.glib.entered n = true) : (w.after t c r).glib.entered n = true := by
  change (World.glibAfter t w.glib c r).entered n = true
  unfold World.glibAfter
  split
  · exact h
  · exact h
  · exact h
  · exact h
  · split
    · rename_i n'
      show Function.update w.glib.entered n' true n = true
      rw [Function.update_apply, h, ite_self]
    · exact h
  · split <;> exact h
  · exact h

/-- The calls of the other threads leave `gstThread_` and its loop alone. -/
theorem glib_after (h : Members.Writes c = false) :
    (w.after t c r).glib.gstThread_ = w.glib.gstThread_ ∧
      (w.after t c r).glib.loops = w.glib.loops ∧ (w.after t c r).ptr = w.ptr := by
  refine ⟨?_, ?_, ?_⟩
  · show (World.glibAfter t w.glib c r).gstThread_ = _
    unfold World.glibAfter
    split
    · rfl
    · rfl
    · cases h
    · cases h
    · split <;> rfl
    · split <;> rfl
    · rfl
  · show (World.glibAfter t w.glib c r).loops = _
    unfold World.glibAfter
    split
    · cases h
    · rfl
    · rfl
    · rfl
    · split <;> rfl
    · split <;> rfl
    · rfl
  · show World.ptrAfter w c = _
    unfold World.ptrAfter
    split
    · cases h
    · rfl

end

/-- The caller joins a thread whose loop was quit, and forgets no loop whose thread is joinable; no
thread enters its loop twice. -/
def contract : Contract system known where
  inv := Last
  pre t c w :=
    (t = .caller 0 → c = .gstThreadJoin → Quit w) ∧
      (t = .caller 0 → c = .assign .loop_ false → w.glib.gstThread_ = none) ∧
        ∀ n, t = .gst n → c = .mainLoopEnter → w.glib.entered n = false
  rely t w w' :=
    (t = .caller 0 → w'.glib.gstThread_ = w.glib.gstThread_ ∧ (Quit w → Quit w')) ∧
      (∀ n, w.glib.entered n = true → w'.glib.entered n = true) ∧
        ∀ n, t = .gst n → w.glib.entered n = false → w'.glib.entered n = false
  rely_refl _ _ := ⟨fun _ => ⟨rfl, id⟩, fun _ => id, fun _ _ => id⟩
  rely_trans h h' :=
    ⟨fun ht => ⟨(h'.1 ht).1.trans (h.1 ht).1, (h'.1 ht).2 ∘ (h.1 ht).2⟩,
      fun n => h'.2.1 n ∘ h.2.1 n, fun n ht => h'.2.2 n ht ∘ h.2.2 n ht⟩
  inv_act {t c r w w'} hi hpre hok hact n hn := by
    rcases system_act.mp hact with ⟨-, rfl⟩
    have hserial := hok.2 t c r rfl
    by_cases hw : Members.Writes c = false
    · rcases glib_after (t := t) (r := r) (w := w) hw with ⟨hg, hl, hp⟩
      rw [hl, hp]
      exact hi n (hg ▸ hn)
    have ht : t = .caller 0 := by_contra fun hne => hw (hserial.2 hne)
    have hrequires := hserial.1 ht
    cases c with
    | mainLoopNew =>
      -- no thread is joinable where a loop is made
      have hnone : w.glib.gstThread_.isSome = false := hrequires
      rw [show w.glib.gstThread_ = some n from hn] at hnone
      cases hnone
    | spawnGstThread =>
      cases r with
      | ok => exact ⟨(Option.some.inj hn).symm, hrequires⟩
      | failed => exact hi n hn
      | threw => exact hi n hn
    | gstThreadJoin => cases hn
    | assign p value =>
      refine ⟨(hi n hn).1, ?_⟩
      show Function.update w.ptr p value .loop_ = true
      rw [Function.update_apply]
      split
      · rename_i hp
        cases value with
        | true => rfl
        | false =>
          have hnone := hpre.2.1 ht (congrArg (SysCall.assign · false) hp.symm)
          cases hnone.symm.trans hn
      · exact (hi n hn).2
    | connect s => cases s <;> cases r <;> exact hi n hn
    | cameraStart => cases r <;> exact hi n hn
    | store f value => exact hi n hn
    | exchange f value => exact hi n hn
    | disconnect s => exact hi n hn
    | stopEnd => exact hi n hn
    | _ => exact absurd rfl hw
  inv_env hi _ henv := by
    cases henv
    exact hi
  rely_act {t u c r w w'} hne _ hpre hok hact := by
    rcases system_act.mp hact with ⟨-, rfl⟩
    have hserial := hok.2 u c r rfl
    refine ⟨fun ht => ?_, fun n => entered_mono, fun n ht he => ?_⟩
    · have hg := glib_after (t := u) (r := r) (w := w) (hserial.2 fun hu => hne (ht.trans hu.symm))
      refine ⟨hg.1, fun hq n hn => ?_⟩
      rcases hq n (hg.1 ▸ hn) with ⟨he, hrun⟩
      refine ⟨entered_mono he, Bool.eq_false_iff.mpr fun hr => ?_⟩
      rcases running_after hr with hr | ⟨rfl, hu⟩
      · exact Bool.noConfusion (hrun.symm.trans hr)
      · exact Bool.noConfusion ((hpre.2.2 n hu rfl).symm.trans he)
    · refine Bool.eq_false_iff.mpr fun hr => ?_
      rcases entered_after hr with hr | ⟨-, hu⟩
      · exact Bool.noConfusion (he.symm.trans hr)
      · exact hne (ht.trans hu.symm)
  rely_env _ _ henv := by
    cases henv
    exact ⟨fun _ => ⟨rfl, id⟩, fun _ => id, fun _ _ => id⟩

/-- The calls that the caller may make anywhere. -/
def Plain (c : SysCall) : Prop := c ≠ .gstThreadJoin ∧ c ≠ .assign .loop_ false

theorem pre_of_plain {c : SysCall} {w : World} (h : Plain c) : contract.pre (.caller 0) c w :=
  ⟨fun _ hc => absurd hc h.1, fun _ hc => absurd hc h.2, nofun⟩

/-- Where the thread has entered its loop, the loop is quit after this. -/
theorem wp_quitLoopIfRunning {w : World} :
    contract.wp (.caller 0) quitLoopIfRunning (fun _ => Quit) (fun _ => True) w := by
  have hret : ∀ w, Quit w → contract.wp (.caller 0) (.ret () : Prog Sys Unit) (fun _ => Quit)
      (fun _ => True) w := fun w hq v hr _ => (hr.1 rfl).2 hq
  intro w _ hi
  refine ⟨pre_of_plain ⟨nofun, nofun⟩, fun loop v _ hact => ?_⟩
  rcases system_act.mp hact with ⟨hanswer, rfl⟩
  have hloop : loop = w.ptr .loop_ := of_decide_eq_true (World.shared_of_answers hanswer)
  cases loop with
  | false =>
    -- without a loop there is no thread
    refine hret _ fun n hn => ?_
    cases hloop.trans (hi n hn).2
  | true =>
  intro w _ hi
  refine ⟨pre_of_plain ⟨nofun, nofun⟩, fun running v hok hact => ?_⟩
  rcases system_act.mp hact with ⟨hanswer, rfl⟩
  have hrunning : running = w.glib.running w.glib.loops :=
    of_decide_eq_true (World.glib_of_answers hanswer)
  have hentered : ∀ n, w.glib.gstThread_ = some n → w.glib.entered n = true := by
    intro n hn
    have hall : w.glib.gstThread_.all w.glib.entered = true := hok.1
    rw [hn] at hall
    exact hall
  cases running with
  | false =>
    refine hret _ fun n hn => ⟨hentered n hn, ?_⟩
    rw [(hi n hn).1]
    exact hrunning.symm
  | true =>
  -- the quit comes after the entry
  intro w' hr hi
  refine ⟨pre_of_plain ⟨nofun, nofun⟩, fun _ v _ hact => ?_⟩
  rcases system_act.mp hact with ⟨-, rfl⟩
  refine hret _ fun n hn => ⟨hr.2.1 n (hentered n ((hr.1 rfl).1.symm.trans hn)), ?_⟩
  show Function.update w'.glib.running w'.glib.loops false n = false
  rw [(hi n hn).1, Function.update_self]

/-- After the join there is no thread. -/
theorem wp_joinGstThread {w : World} (h : Quit w) :
    contract.wp (.caller 0) joinGstThread (fun _ w => w.glib.gstThread_ = none) (fun _ => True)
      w := by
  have hret : ∀ w : World, w.glib.gstThread_ = none → contract.wp (.caller 0)
      (.ret () : Prog Sys Unit) (fun _ w => w.glib.gstThread_ = none) (fun _ => True) w :=
    fun w hn v hr _ => (hr.1 rfl).1.trans hn
  intro w' hr _
  refine ⟨pre_of_plain ⟨nofun, nofun⟩, fun joinable v _ hact => ?_⟩
  rcases system_act.mp hact with ⟨hanswer, rfl⟩
  have hjoinable : joinable = w'.glib.gstThread_.isSome :=
    of_decide_eq_true (World.glib_of_answers hanswer)
  cases joinable with
  | false => exact hret _ (Option.not_isSome_iff_eq_none.mp (Bool.eq_false_iff.mp hjoinable.symm))
  | true =>
    intro v hr' _
    refine ⟨⟨fun _ _ => (hr'.1 rfl).2 ((hr.1 rfl).2 h), fun _ => nofun, nofun⟩, ?_⟩
    intro _ u _ hact
    rcases system_act.mp hact with ⟨-, rfl⟩
    exact hret _ rfl

/-- With no thread left, the loop may be forgotten. -/
theorem keeps_releasePipeline :
    contract.Keeps (.caller 0) (fun w => w.glib.gstThread_ = none) releasePipeline := by
  refine keeps_of_built (fun w w' hr _ hn => (hr.1 rfl).1.trans hn) (fun c hc w _ hn => ?_)
    (fun _ _ h => h.elim)
    (built_releasePipeline (P := fun c => releaseCall c = true) (X := Prog.noParts) fun c h => h)
  refine ⟨⟨fun _ hj => ?_, fun _ _ => hn, nofun⟩, fun r w' _ hact => ?_⟩
  · rw [hj] at hc
    cases hc
  · rcases system_act.mp hact with ⟨-, rfl⟩
    cases c <;> first | exact hn | cases hc

theorem keeps_shutdownLocked :
    contract.Keeps (.caller 0) (fun _ => True) shutdownLocked := by
  intro w _
  refine wp_call_of true_rely trivial fun w _ _ => ⟨pre_of_plain ⟨nofun, nofun⟩, fun p w' _ _ => ?_⟩
  cases p with
  | false => exact fun _ _ _ => trivial
  | true =>
    refine wp_call_of true_rely trivial fun w _ _ =>
      ⟨pre_of_plain ⟨nofun, nofun⟩, fun _ w' _ _ => ?_⟩
    refine wp_bind_of wp_quitLoopIfRunning fun _ w _ hquit => ?_
    refine wp_bind_of (wp_joinGstThread hquit) fun _ w _ hnone => ?_
    exact wp_mono (keeps_releasePipeline w hnone) (fun _ _ _ _ => trivial) fun _ _ _ => trivial

theorem keeps_shutdown :
    contract.Keeps (.caller 0) (fun _ => True) shutdownGstreamerPipeline := by
  refine keeps_lockGuard true_rely true_rely ?_ ?_ keeps_shutdownLocked
  · exact fun w _ _ => ⟨pre_of_plain ⟨nofun, nofun⟩, fun _ _ _ _ => trivial⟩
  · exact fun w _ _ => ⟨pre_of_plain ⟨nofun, nofun⟩, fun _ _ _ _ => trivial⟩

theorem plain_of_operationCall {c : SysCall} (h : operationCall c = true) : Plain c := by
  constructor
  · rintro rfl
    cases h
  · rintro rfl
    cases h

theorem built_operation {legacy : Bool} (op : Operation) :
    (operate legacy op).Built Plain (Prog.onlyPart shutdownGstreamerPipeline) := by
  have hs : shutdownGstreamerPipeline.Built Plain (Prog.onlyPart shutdownGstreamerPipeline) :=
    .self
  have hP : ∀ c, operationCall c = true → Plain c := fun c => plain_of_operationCall
  have hR : ∀ c, requestCall c = true → Plain c := by
    intro c h
    constructor <;> rintro rfl <;> cases h
  have hW : ∀ c, waitCall c = true → Plain c := by
    intro c h
    constructor <;> rintro rfl <;> cases h
  have hT : ∀ c, teardownCall c = true → Plain c := fun c h => hP c (by simp [operationCall, h])
  have hC : ∀ c, photoCall c = true → Plain c := fun c h => hP c (by simp [operationCall, h])
  exact built_operate hP hs
    (built_queueBuffer hR (built_keepRequest hT hR) (built_rollbackUnlocked hT hs))
    (built_photoRequest hC (built_awaitCompletion hW) hR) op

/-- A thread of a main loop enters the loop once. -/
theorem wp_gstThreadBegin {n : Nat} {w : World} (h : w.glib.entered n = false) :
    contract.wp (.gst n) gstThreadBegin (fun _ _ => True) (fun _ => True) w := by
  have hstable : ∀ w w', contract.rely (.gst n) w w' → contract.inv w' →
      w.glib.entered n = false → w'.glib.entered n = false := fun w w' hr _ => hr.2.2 n rfl
  refine wp_call_of hstable h fun w _ h => ⟨⟨nofun, nofun, nofun⟩, fun _ w' _ hact => ?_⟩
  rcases system_act.mp hact with ⟨-, rfl⟩
  refine wp_call_of hstable h fun w _ h => ⟨⟨nofun, nofun, nofun⟩, fun _ w' _ hact => ?_⟩
  rcases system_act.mp hact with ⟨-, rfl⟩
  intro w hr _
  refine ⟨⟨nofun, nofun, ?_⟩, fun _ _ _ _ _ _ _ => trivial⟩
  rintro n' hn -
  cases hn
  exact hr.2.2 n rfl h

/-- A thread of a main loop enters the loop when it begins. -/
def proof (legacy : Bool) : contract.Proof (code legacy) where
  holds
    | .caller 0, _, _ => True
    | .callback, _, _ => True
    | .gst n, .begin, w => w.glib.entered n = false
    | .gst _, .loop, _ => True
    | _, _, _ => False
  body t pc w _ h := by
    cases t with
    | caller n =>
      cases n with
      | zero =>
        have hkeeps : contract.Keeps (.caller 0) (fun _ => True) (callerBody legacy pc) := by
          refine keeps_of_built true_rely
            (fun c hc _ _ _ => ⟨pre_of_plain hc, fun _ _ _ _ => trivial⟩) ?_
            (built_callerBody legacy ⟨nofun, nofun⟩ built_operation pc)
          rintro α p ⟨rfl, rfl⟩
          exact keeps_shutdown
        exact wp_mono (hkeeps w trivial) (fun _ _ _ _ _ _ => trivial) fun _ _ _ => trivial
      | succ n => exact h.elim
    | callback =>
      refine wp_mono (wp_of_built (built_callbackBody legacy fun _ h => h) ?_)
        (fun _ _ _ _ _ _ => trivial) fun _ _ h => h
      exact fun _ _ _ _ => ⟨nofun, nofun, nofun⟩
    | gst n =>
      cases pc with
      | begin =>
        refine wp_bind_of (wp_gstThreadBegin h) fun _ _ _ _ => ?_
        rintro _ _ _ _ ⟨⟩
        trivial
      | loop =>
        have hpre : ∀ c, turnCall c = true → ∀ w, contract.inv w → contract.pre (.gst n) c w := by
          refine fun c hc _ _ => ⟨nofun, nofun, fun _ _ he => ?_⟩
          rw [he] at hc
          cases hc
        have hturn := wp_of_built (w := w) (built_gstThreadTurn fun _ h => h) hpre
        refine wp_bind_of hturn fun more _ _ _ => ?_
        cases more
        · exact fun _ _ _ _ => nofun
        · rintro _ _ _ _ ⟨⟩
          trivial
    | _ => exact h.elim

theorem valid_start (legacy : Bool) : (proof legacy).Valid (callerStart legacy) := by
  refine valid_callerStart (proof legacy) (fun _ => nofun) ?_ ?_ ?_
  · exact fun _ _ _ => trivial
  · exact fun _ _ => trivial
  · exact fun n w hr _ => hr.2.2 n rfl rfl

/-- In every run in which the thread has entered its loop whenever an operation asks whether the
loop is running: where the thread is joined, it has left the loop, or the loop was quit after the
thread had entered it. -/
theorem join_after_quit {legacy : Bool} {cfg : Config (code legacy) World}
    (hrun : Run system (fun w l => entersFirst w l = true) (callerStart legacy) cfg)
    (hjoin : cfg.pending (.caller 0) = some .gstThreadJoin) {n : Nat}
    (hn : cfg.world.glib.gstThread_ = some n) :
    cfg.world.glib.left n = true ∨
      cfg.world.glib.entered n = true ∧ cfg.world.glib.running n = false := by
  -- what is known of the members may be used on the way
  have hknown : Run system known (callerStart legacy) cfg :=
    (Serial.proof legacy).run_pre (Serial.valid_start legacy) (fun _ _ _ => trivial) hrun
  have hvalid := (proof legacy).sound (valid_start legacy) hknown
  exact .inr ((hvalid.pre hjoin).1 rfl rfl n hn)

/-- The state change of the pipeline fails, the rest goes well. -/
def stateChangeFails (w : World) : (c : SysCall) → Option c.Reply
  | .setState .playing => some false
  | c => w.willing (.startVideoMode 1280 720 30) c

/-- The caller makes so many calls in a row with these replies. -/
def failingRuns (n : Nat) : List (Choice Sys Tid World Signal) :=
  List.replicate n (.run (.caller 0) stateChangeFails)

/-- The thread enters its loop before the state change fails. -/
theorem join_after_failed_state_change :
    ∃ (cfg : Config (code false) World) (n : Nat), cfg.pending (.caller 0) = some .gstThreadJoin ∧
      cfg.world.glib.gstThread_ = some n ∧
        (cfg.world.glib.left n = true ∨
          cfg.world.glib.entered n = true ∧ cfg.world.glib.running n = false) := by
  obtain ⟨cfg, hrun, htest⟩ := exec_reaches system entersFirst (callerStart false)
    (runs (.caller 0) .initializeCamera 12 ++ failingRuns 36 ++ runs (.gst 1) .takePicture 4 ++
      failingRuns 8)
    (fun cfg => cfg.pending (.caller 0) = some .gstThreadJoin ∧
      cfg.world.glib.gstThread_ = some 1) (by decide +kernel)
  rcases of_decide_eq_true htest with ⟨hjoin, hn⟩
  exact ⟨cfg, 1, hjoin, hn, join_after_quit hrun hjoin hn⟩

/-- The thread enters its loop after the loop was asked: it is joined, and nobody quits the loop. -/
theorem join_of_running_loop :
    ∃ (cfg : Config (code false) World) (n : Nat), Run system anyStep (callerStart false) cfg ∧
      cfg.pending (.caller 0) = some .gstThreadJoin ∧ cfg.world.glib.gstThread_ = some n ∧
        ¬ (cfg.world.glib.left n = true ∨
          cfg.world.glib.entered n = true ∧ cfg.world.glib.running n = false) := by
  obtain ⟨cfg, hrun, htest⟩ := exec_reaches system (fun _ _ => true) (callerStart false)
    (runs (.caller 0) .initializeCamera 12 ++ failingRuns 43 ++ runs (.gst 1) .takePicture 4)
    (fun cfg => cfg.pending (.caller 0) = some .gstThreadJoin ∧
      cfg.world.glib.gstThread_ = some 1 ∧ cfg.world.glib.left 1 = false ∧
        cfg.world.glib.running 1 = true) (by decide +kernel)
  rcases of_decide_eq_true htest with ⟨hjoin, hn, hleft, hrunning⟩
  refine ⟨cfg, 1, hrun.mono fun _ _ _ => trivial, hjoin, hn, ?_⟩
  rw [hleft, hrunning]
  exact fun h => h.elim nofun fun h => nomatch h.2

end LoopJoin

end SurfCam

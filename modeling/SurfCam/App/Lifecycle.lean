import SurfCam.System

/-!
# The lives of the HLS workers

`streamThread` has one owner at a time: `streamCheckWorker` as long as it runs, `main` after it has
joined it.  The owner starts a worker only where there is none, so the worker that is alive is the
one that `streamThread` is about, and everything that an old worker does is over before the next
session begins.
-/

namespace SurfCam

open Interaction CameraManager Contract

namespace Lifecycle

/-- The HLS worker with number `n` has been started and has not ended. -/
def Alive (n : Nat) (w : World) : Prop :=
  w.threads.started (.hls n) = true ∧ w.threads.finished (.hls n) = false

def CheckAlive (w : World) : Prop :=
  w.threads.started .check = true ∧ w.threads.finished .check = false

/-- The thread owns the session. -/
def Master (t : Tid) (w : World) : Prop :=
  t = .check ∧ CheckAlive w ∨ t = .main ∧ w.threads.finished .check = true

/-- The calls that change whether video mode is on and whether there is a pipeline. -/
def touches : SysCall → Bool
  | .store f _ | .exchange f _ => f = .isVideoMode_
  | .assign p _ => p = .pipeline_
  | _ => false

/-- The calls that start and join the threads of `main.cpp`. -/
def sessionCall : SysCall → Bool
  | .spawnStreamThread | .streamThreadJoin | .spawnWorker _ => true
  | _ => false

section

variable {t u : Tid} {c : SysCall} {r : c.Reply} {w : World}

/-- Apart from the session's calls, only threads of main loops are started. -/
theorem threads_after (hc : sessionCall c = false) :
    (∀ u, (∀ n, u ≠ .gst n) →
      (w.after t c r).threads.started u = w.threads.started u) ∧
        (w.after t c r).threads.hlsWorkers = w.threads.hlsWorkers ∧
          (w.after t c r).threads.streamThread = w.threads.streamThread := by
  cases c with
  | spawnGstThread =>
    cases r with
    | ok => exact ⟨fun u hu => Function.update_of_ne (hu _) .., rfl, rfl⟩
    | failed => exact ⟨fun _ _ => rfl, rfl, rfl⟩
    | threw => exact ⟨fun _ _ => rfl, rfl, rfl⟩
  | spawnWorker worker => cases hc
  | spawnStreamThread => cases hc
  | streamThreadJoin => cases hc
  | _ => exact ⟨fun _ _ => rfl, rfl, rfl⟩

/-- Only a new worker is joinable that was not before. -/
theorem unjoinable_kept (hc : c ≠ .spawnStreamThread) (h : w.threads.streamThread = none) :
    (w.after t c r).threads.streamThread = none := by
  by_cases hs : sessionCall c = false
  · rw [(threads_after hs).2.2, h]
  cases c with
  | spawnStreamThread => contradiction
  | spawnWorker worker => exact h
  | streamThreadJoin => rfl
  | _ => exact absurd rfl hs

end

/-- The HLS worker that is alive is the one that `streamThread` is about, and `streamCheckWorker`
has started it.  When `main` has returned, nobody starts another one. -/
structure Single (w : World) : Prop where
  alive : ∀ n, Alive n w → w.threads.streamThread = some n
  started : ∀ n, w.threads.started (.hls n) = true ↔ n < w.threads.hlsWorkers
  check : 0 < w.threads.hlsWorkers → w.threads.started .check = true
  stream : ∀ n, w.threads.streamThread = some n → n < w.threads.hlsWorkers
  returned : w.threads.finished .main = true → w.threads.streamThread = none ∧ ¬ CheckAlive w

/-- What the lives of the workers require of a call. -/
structure Allowed (t : Tid) (c : SysCall) (w : World) : Prop where
  spawn : c = .spawnStreamThread → t = .check ∧ CheckAlive w ∧ w.threads.streamThread = none
  join : c = .streamThreadJoin → Master t w
  spawnWorker : ∀ worker, c = .spawnWorker worker → t = .main ∧ w.threads.finished .main = false
  leave : t = .main → c = .threadEnd → w.threads.streamThread = none ∧ ¬ CheckAlive w
  own : ∀ n, t = .hls n → c ≠ .threadBegin → Alive n w
  /-- a session is asked for where there is none -/
  request : c = .store .streamShouldRun true → w.threads.streamThread = none
  /-- but for the snapshot, video mode belongs to the HLS worker that is alive -/
  touch : touches c = true → t ≠ .snapshot → ∀ n, t ≠ .hls n → ¬ Alive n w

/-- What the other threads leave to a thread. -/
structure Left (t : Tid) (w w' : World) : Prop where
  started : ∀ u, w.threads.started u = true → w'.threads.started u = true
  finished : ∀ u, w.threads.finished u = true → w'.threads.finished u = true
  own : w'.threads.finished t = w.threads.finished t
  streamThread : Master t w → w'.threads.streamThread = w.threads.streamThread
  check : t = .main → w'.threads.started .check = w.threads.started .check

theorem Left.refl (t : Tid) (w : World) : Left t w w :=
  ⟨fun _ => id, fun _ => id, rfl, fun _ => rfl, fun _ => rfl⟩

section

variable {t u : Tid} {w w' w'' : World}

theorem Left.alive {n : Nat} (h : Left (.hls n) w w') (ha : Alive n w) : Alive n w' :=
  ⟨h.started _ ha.1, h.own.trans ha.2⟩

theorem Left.checkAlive (h : Left .check w w') (ha : CheckAlive w) : CheckAlive w' :=
  ⟨h.started _ ha.1, h.own.trans ha.2⟩

theorem Left.master (h : Left t w w') (hm : Master t w) : Master t w' := by
  rcases hm with ⟨rfl, ha⟩ | ⟨rfl, hf⟩
  · exact .inl ⟨rfl, h.checkAlive ha⟩
  · exact .inr ⟨rfl, h.finished _ hf⟩

theorem Left.trans (h : Left t w w') (h' : Left t w' w'') : Left t w w'' where
  started u := h'.started u ∘ h.started u
  finished u := h'.finished u ∘ h.finished u
  own := h'.own.trans h.own
  streamThread hm := (h'.streamThread (h.master hm)).trans (h.streamThread hm)
  check ht := (h'.check ht).trans (h.check ht)

/-- A session has one owner at a time. -/
theorem master_unique (ht : Master t w) (hu : Master u w) : t = u := by
  rcases ht with ⟨rfl, ha⟩ | ⟨rfl, hf⟩ <;> rcases hu with ⟨rfl, ha'⟩ | ⟨rfl, hf'⟩
  · rfl
  · exact Bool.noConfusion (ha.2.symm.trans hf')
  · exact Bool.noConfusion (ha'.2.symm.trans hf)
  · rfl

end

section

variable {t u : Tid} {c : SysCall} {r : c.Reply} {w : World}

/-- A thread that has not ended had not ended before. -/
theorem unfinished_before (h : (w.after t c r).threads.finished u = false) :
    w.threads.finished u = false :=
  Bool.eq_false_iff.mpr fun hold => Bool.noConfusion (h.symm.trans (World.finished_mono hold))

/-- A call that is no call of the session keeps the HLS worker single. -/
theorem single_of_plain (h : Single w) (hc : Allowed t c w) (hs : sessionCall c = false) :
    Single (w.after t c r) := by
  rcases threads_after (t := t) (r := r) (w := w) hs with ⟨hstarted, hworkers, hstream⟩
  have hhls : ∀ n, (w.after t c r).threads.started (.hls n) = w.threads.started (.hls n) :=
    fun n => hstarted _ nofun
  refine ⟨fun n hn => ?_, fun n => ?_, ?_, ?_, fun hmain => ?_⟩
  · exact hstream ▸ h.alive n ⟨hhls n ▸ hn.1, unfinished_before hn.2⟩
  · rw [hhls n, hworkers]
    exact h.started n
  · rw [hstarted .check nofun, hworkers]
    exact h.check
  · rw [hstream, hworkers]
    exact h.stream
  -- `main` returns with this call, or had returned before
  · have hover : w.threads.streamThread = none ∧ ¬ CheckAlive w := by
      by_cases he : c = .threadEnd ∧ t = .main
      · exact hc.leave he.2 he.1
      · refine h.returned ?_
        rwa [World.finished_after fun hce hte => he ⟨hce, hte⟩] at hmain
    refine ⟨hstream.trans hover.1, fun hcheck => hover.2 ?_⟩
    exact ⟨hstarted .check nofun ▸ hcheck.1, unfinished_before hcheck.2⟩

/-- An allowed call keeps the HLS worker single. -/
theorem single_after (h : Single w) (hc : Allowed t c w) (ha : w.answers t c r = true) :
    Single (w.after t c r) := by
  by_cases hs : sessionCall c = false
  · exact single_of_plain h hc hs
  cases c with
  | spawnWorker worker =>
    rcases hc.spawnWorker worker rfl with ⟨rfl, hmain⟩
    have hhls : ∀ n, Function.update w.threads.started worker.tid true (.hls n) =
        w.threads.started (.hls n) := fun n =>
      Function.update_of_ne (by cases worker <;> exact nofun) ..
    refine ⟨fun n hn => h.alive n ⟨hhls n ▸ hn.1, hn.2⟩, fun n => ?_, fun h0 => ?_, h.stream, ?_⟩
    · exact (Bool.eq_iff_iff.mp (hhls n)).trans (h.started n)
    · exact World.started_mono (h.check h0)
    · exact fun hover => Bool.noConfusion (hmain.symm.trans hover)
  | streamThreadJoin =>
    -- the worker that is joined has ended
    refine ⟨fun n hn => ?_, h.started, h.check, fun n => nofun, fun hmain => ?_⟩
    · have hended : w.threads.streamThread.any (fun n => w.threads.finished (.hls n)) = true :=
        World.threads_of_answers ha
      rw [h.alive n hn, Option.any_some] at hended
      exact Bool.noConfusion (hended.symm.trans hn.2)
    · exact ⟨rfl, (h.returned hmain).2⟩
  | spawnStreamThread =>
    rcases hc.spawn rfl with ⟨rfl, hcheck, hnone⟩
    cases r with
    | failed => exact ⟨h.alive, h.started, h.check, h.stream, h.returned⟩
    | threw => exact ⟨h.alive, h.started, h.check, h.stream, h.returned⟩
    | ok =>
      -- the new worker gets the next number; nothing changes for the others
      have hother : ∀ n, n ≠ w.threads.hlsWorkers →
          Function.update w.threads.started (.hls w.threads.hlsWorkers) true (.hls n) =
            w.threads.started (.hls n) := fun n hne =>
        Function.update_of_ne (fun he => hne (Tid.hls.inj he)) ..
      refine ⟨fun n hn => ?_, fun n => ?_, fun _ => World.started_mono hcheck.1, fun n hn => ?_, ?_⟩
      · by_cases he : n = w.threads.hlsWorkers
        · exact congrArg some he.symm
        · cases hnone.symm.trans (h.alive n ⟨hother n he ▸ hn.1, hn.2⟩)
      · show Function.update w.threads.started (.hls w.threads.hlsWorkers) true (.hls n) = true ↔
          n < w.threads.hlsWorkers + 1
        by_cases he : n = w.threads.hlsWorkers
        · rw [he, Function.update_self]
          exact iff_of_true rfl (Nat.lt_succ_self _)
        · rw [hother n he, h.started n]
          omega
      · rw [← Option.some.inj hn]
        exact Nat.lt_succ_self _
      · exact fun hmain => absurd hcheck (h.returned hmain).2
  | _ => exact absurd rfl hs

/-- What an allowed call leaves to the other threads. -/
theorem left_after (hut : t ≠ u) (hc : Allowed u c w) : Left t w (w.after u c r) where
  started _ := World.started_mono
  finished _ := World.finished_mono
  own := World.finished_after fun _ => Ne.symm hut
  streamThread hm := by
    by_cases hs : sessionCall c = false
    · exact (threads_after hs).2.2
    cases c with
    | spawnWorker worker => rfl
    | streamThreadJoin => exact absurd (master_unique hm (hc.join rfl)) hut
    | spawnStreamThread =>
      rcases hc.spawn rfl with ⟨rfl, hcheck, -⟩
      exact absurd (master_unique hm (.inl ⟨rfl, hcheck⟩)) hut
    | _ => exact absurd rfl hs
  check := by
    rintro rfl
    by_cases hs : sessionCall c = false
    · exact (threads_after hs).1 .check nofun
    cases c with
    | spawnWorker worker => exact absurd (hc.spawnWorker worker rfl).1.symm hut
    | streamThreadJoin => rfl
    | spawnStreamThread =>
      have hne : Tid.check ≠ .hls w.threads.hlsWorkers := nofun
      cases r with
      | ok => exact Function.update_of_ne hne true w.threads.started
      | failed => rfl
      | threw => rfl
    | _ => exact absurd rfl hs

end

def contract : Contract system (anyStep (S := Sys)) where
  inv := Single
  pre := Allowed
  rely := Left
  rely_refl := Left.refl
  rely_trans := Left.trans
  inv_act hi hpre _ hact := by
    rcases system_act.mp hact with ⟨hanswer, rfl⟩
    exact single_after hi hpre hanswer
  inv_env hi _ henv := by
    cases henv
    exact ⟨hi.alive, hi.started, hi.check, hi.stream, hi.returned⟩
  rely_act hne _ hpre _ hact := by
    rcases system_act.mp hact with ⟨-, rfl⟩
    exact left_after hne hpre
  rely_env {t _ w _} _ _ henv := by
    cases henv
    exact { Left.refl t w with }

/-! ## Code of an operation -/

/-- The calls of the operations: no thread is started, joined or ended, no session asked for. -/
def Inside (c : SysCall) : Prop :=
  sessionCall c = false ∧ c ≠ .threadEnd ∧ c ≠ .store .streamShouldRun true

/-- A set of calls without these. -/
theorem inside_of {calls : SysCall → Bool} (hs : ∀ c, sessionCall c = true → calls c = false)
    (he : calls .threadEnd = false) (ho : calls (.store .streamShouldRun true) = false)
    {c : SysCall} (h : calls c = true) : Inside c := by
  refine ⟨Bool.eq_false_iff.mpr fun hc => Bool.noConfusion ((hs c hc).symm.trans h), ?_, ?_⟩
  · rintro rfl
    exact Bool.noConfusion (he.symm.trans h)
  · rintro rfl
    exact Bool.noConfusion (ho.symm.trans h)

theorem inside_of_modeCall {c : SysCall} : modeCall c = true → Inside c :=
  inside_of (fun c h => by cases c <;> first | rfl | cases h) rfl rfl

theorem inside_of_acquireCall {c : SysCall} : acquireCall c = true → Inside c :=
  inside_of (fun c h => by cases c <;> first | rfl | cases h) rfl rfl

theorem inside_of_workerCall {c : SysCall} : App.workerCall c = true → Inside c :=
  inside_of (fun c h => by cases c <;> first | rfl | cases h) rfl rfl

theorem built_destroy_inside {legacy : Bool} : (destroy legacy).Built Inside Prog.noParts :=
  built_destroyed (fun _ => inside_of_modeCall) fun _ => inside_of_acquireCall

/-- A call of an operation is allowed where its thread may touch the video mode. -/
theorem allowed_of_inside {t : Tid} {c : SysCall} {w : World} (h : Inside c)
    (hown : ∀ n, t = .hls n → Alive n w)
    (ht : touches c = true → t ≠ .snapshot → ∀ n, t ≠ .hls n → ¬ Alive n w) : Allowed t c w where
  spawn hc := by
    rw [hc] at h
    cases h.1
  join hc := by
    rw [hc] at h
    cases h.1
  spawnWorker _ hc := by
    rw [hc] at h
    cases h.1
  leave _ hc := absurd hc h.2.1
  own n hn _ := hown n hn
  request hc := absurd hc h.2.2
  touch := ht

/-! ## streamHlsWorker -/

section

variable {legacy : Bool} {n : Nat} {w : World}

theorem alive_rely (w w' : World) (hr : contract.rely (.hls n) w w') (_ : contract.inv w')
    (h : Alive n w) : Alive n w' := hr.alive h

theorem alive_after {c : SysCall} {r : c.Reply} (hc : Inside c) (h : Alive n w) :
    Alive n (w.after (.hls n) c r) :=
  ⟨((threads_after hc.1).1 (.hls n) nofun).trans h.1,
    (World.finished_after fun he => absurd he hc.2.1).trans h.2⟩

/-- The worker that is alive may change the video mode. -/
theorem allowed_of_alive {c : SysCall} (hi : Single w) (h : Alive n w) (hc : Inside c) :
    Allowed (.hls n) c w := by
  refine allowed_of_inside hc (fun m hm => Tid.hls.inj hm ▸ h) fun _ _ m hne hm => hne ?_
  exact congrArg Tid.hls (Option.some.inj ((hi.alive n h).symm.trans (hi.alive m hm)))

theorem keeps_alive {α : Type} {p : Prog Sys α} (hp : p.Built Inside Prog.noParts) :
    contract.Keeps (.hls n) (Alive n) p := by
  refine keeps_of_built alive_rely (fun c hc w hi h => ?_) (fun _ _ h => h.elim) hp
  refine ⟨allowed_of_alive hi h hc, fun r w' _ hact => ?_⟩
  rcases system_act.mp hact with ⟨-, rfl⟩
  exact alive_after hc h

/-- Code of the live worker in front of the rest. -/
theorem wp_alive {α β : Type} {p : Prog Sys α} {f : α → Prog Sys β} {Q : β → World → Prop}
    (hp : p.Built Inside Prog.noParts) (h : Alive n w)
    (hf : ∀ a w, Alive n w → contract.wp (.hls n) (f a) Q (fun _ => True) w) :
    contract.wp (.hls n) (p >>= f) Q (fun _ => True) w :=
  (keeps_alive hp).wp_bind (fun _ _ => trivial) h hf

/-- The flag is cleared, and then the worker ends. -/
theorem wp_hlsWorkerEnd (h : Alive n w) :
    contract.wp (.hls n) App.hlsWorkerEnd (fun _ _ => True) (fun _ => True) w := by
  refine wp_alive (.call ⟨rfl, nofun, nofun⟩) h fun _ w h => ?_
  intro w' hr hi
  refine ⟨⟨nofun, nofun, fun _ => nofun, nofun, fun m hm _ => ?_, nofun, nofun⟩, ?_⟩
  · exact Tid.hls.inj hm ▸ hr.alive h
  · exact fun _ _ _ _ _ _ _ => trivial

theorem wp_hlsWorkerBegin (h : w.threads.finished (.hls n) = false) :
    contract.wp (.hls n) (App.hlsWorkerBegin legacy) (fun b w => b = true → Alive n w)
      (fun _ => True) w := by
  refine wp_call_of (fun _ _ hr _ hf => hr.own.trans hf) h fun w _ h => ?_
  refine ⟨⟨nofun, nofun, fun _ => nofun, nofun, fun _ _ he => absurd rfl he, nofun, nofun⟩,
    fun _ w' _ hact => ?_⟩
  have halive : Alive n w' := by
    rcases system_act.mp hact with ⟨hanswer, rfl⟩
    exact ⟨World.threads_of_answers hanswer, h⟩
  have hend : ∀ w, Alive n w → contract.wp (.hls n) (App.hlsWorkerEnd >>= fun _ => .ret false)
      (fun b w => b = true → Alive n w) (fun _ => True) w := fun w h =>
    wp_bind_of (wp_hlsWorkerEnd h) fun _ _ _ _ _ _ _ => nofun
  refine wp_alive (.call ⟨rfl, nofun, nofun⟩) halive fun cleaned w h => ?_
  cases cleaned with
  | failed => exact hend w h
  | threw => exact hend w h
  | ok =>
    have hM : ∀ c, modeCall c = true → Inside c := fun _ => inside_of_modeCall
    refine wp_alive (built_start hM (built_pipeline hM ⟨rfl, nofun, nofun⟩) _ _ _) h
      fun on w h => ?_
    cases on with
    | true => exact fun v hr hi _ => alive_rely w v hr hi h
    | false => exact wp_alive (.call ⟨rfl, nofun, nofun⟩) h fun _ w h => hend w h

theorem wp_hlsWorkerFinish (h : Alive n w) :
    contract.wp (.hls n) (App.hlsWorkerFinish legacy) (fun _ _ => True) (fun _ => True) w := by
  refine wp_alive (built_stop fun _ => inside_of_modeCall) h fun _ w h => ?_
  refine wp_alive (.tryCatch ?_ (.ret _)) h fun _ w h => wp_hlsWorkerEnd h
  exact App.built_drain (fun _ => inside_of_workerCall) 8

end

/-! ## The owner of the session -/

/-- The calls that the owner makes without ending: those of the session, and those of the
operations that leave video mode alone. -/
def Owning (c : SysCall) : Prop := Inside c ∧ touches c = false ∨ c = .streamThreadJoin

/-- The thread owns a session that has no worker. -/
def NoWorker (t : Tid) (w : World) : Prop := Master t w ∧ w.threads.streamThread = none

section

variable {t : Tid} {w : World}

theorem master_rely (w w' : World) (hr : contract.rely t w w') (_ : contract.inv w')
    (h : Master t w) : Master t w' := hr.master h

theorem noWorker_rely (w w' : World) (hr : contract.rely t w w') (_ : contract.inv w')
    (h : NoWorker t w) : NoWorker t w' := ⟨hr.master h.1, (hr.streamThread h.1).trans h.2⟩

/-- Calls other than the end of the owner leave it the owner. -/
theorem master_after {c : SysCall} {r : c.Reply} (hc : c ≠ .threadEnd) (h : Master t w) :
    Master t (w.after t c r) := by
  rcases h with ⟨rfl, ha⟩ | ⟨rfl, hf⟩
  · exact .inl ⟨rfl, World.started_mono ha.1, (World.finished_after fun he => absurd he hc).trans ha.2⟩
  · exact .inr ⟨rfl, World.finished_mono hf⟩

/-- No HLS worker owns the session. -/
theorem ne_hls_of_master (h : Master t w) (n : Nat) : t ≠ .hls n := by
  rintro rfl
  rcases h with ⟨h, -⟩ | ⟨h, -⟩ <;> cases h

theorem allowed_of_owning {c : SysCall} (h : Master t w) (hc : Owning c) : Allowed t c w := by
  rcases hc with ⟨hc, ht⟩ | rfl
  · exact allowed_of_inside hc (fun n hn => absurd hn (ne_hls_of_master h n))
      fun hon => Bool.noConfusion (ht.symm.trans hon)
  · exact ⟨nofun, fun _ => h, fun _ => nofun, nofun,
      fun n hn => absurd hn (ne_hls_of_master h n), nofun, nofun⟩

theorem keeps_master {α : Type} {X : ∀ α : Type, Prog Sys α → Prop} {p : Prog Sys α}
    (hX : ∀ α p, X α p → contract.Keeps t (Master t) p) (hp : p.Built Owning X) :
    contract.Keeps t (Master t) p := by
  refine keeps_of_built master_rely (fun c hc w _ h => ?_) hX hp
  refine ⟨allowed_of_owning h hc, fun r w' _ hact => ?_⟩
  rcases system_act.mp hact with ⟨-, rfl⟩
  refine master_after ?_ h
  rintro rfl
  rcases hc with hc | hc
  · exact hc.1.2.1 rfl
  · cases hc

/-- The owner stops the session: afterwards there is no worker. -/
theorem wp_stopHlsStreamSession {X : World → Prop} (h : Master t w) :
    contract.wp t App.stopHlsStreamSession (fun _ => NoWorker t) X w := by
  refine wp_call_of master_rely h fun w _ h => ?_
  refine ⟨allowed_of_owning h (.inl ⟨⟨rfl, nofun, nofun⟩, rfl⟩), fun _ w' _ hact => ?_⟩
  rcases system_act.mp hact with ⟨-, rfl⟩
  refine wp_call_of master_rely (master_after nofun h) fun w _ h => ?_
  refine ⟨allowed_of_owning h (.inl ⟨⟨rfl, nofun, nofun⟩, rfl⟩), fun joinable w' _ hact => ?_⟩
  rcases system_act.mp hact with ⟨hanswer, rfl⟩
  have hmaster := master_after (c := .streamThreadJoinable) (r := joinable) nofun h
  cases joinable with
  | false =>
    have hnone : false = w.threads.streamThread.isSome :=
      of_decide_eq_true (World.threads_of_answers hanswer)
    refine fun v hr hi => noWorker_rely _ v hr hi ⟨hmaster, ?_⟩
    exact Option.not_isSome_iff_eq_none.mp (Bool.eq_false_iff.mp hnone.symm)
  | true =>
    refine fun w' hr hi => ⟨allowed_of_owning (hr.master hmaster) (.inr rfl), ?_⟩
    intro _ w'' _ hact
    rcases system_act.mp hact with ⟨-, rfl⟩
    exact fun v hr' hi => noWorker_rely _ v hr' hi ⟨master_after nofun (hr.master hmaster), rfl⟩

/-- With no worker alive, the owner may change the video mode. -/
theorem keeps_noWorker {α : Type} {p : Prog Sys α} (hp : p.Built Inside Prog.noParts) :
    contract.Keeps t (NoWorker t) p := by
  refine keeps_of_built noWorker_rely (fun c hc w hi h => ?_) (fun _ _ h => h.elim) hp
  refine ⟨allowed_of_inside hc (fun n hn => absurd hn (ne_hls_of_master h.1 n)) ?_,
    fun r w' _ hact => ?_⟩
  · exact fun _ _ n _ hn => by cases h.2.symm.trans (hi.alive n hn)
  · rcases system_act.mp hact with ⟨-, rfl⟩
    exact ⟨master_after hc.2.1 h.1, (threads_after hc.1).2.2.trans h.2⟩

theorem master_of_noWorker {α : Type} {p : Prog Sys α} (hp : p.Built Inside Prog.noParts)
    (h : NoWorker t w) : contract.wp t p (fun _ => Master t) (Master t) w :=
  wp_mono (keeps_noWorker hp w h) (fun _ _ _ h => h.1) fun _ _ h => h.1

/-! ### streamCheckWorker -/

variable {legacy : Bool}

theorem owning_of_workerCall {c : SysCall} (h : App.workerCall c = true) : Owning c := by
  refine .inl ⟨inside_of_workerCall h, ?_⟩
  cases c with
  | store f value => cases f <;> first | rfl | cases h
  | exchange f value => cases f <;> first | rfl | simp [App.workerCall] at h
  | _ => first | rfl | cases h

theorem keeps_workerCall {c : SysCall} (hc : App.workerCall c = true) :
    contract.Keeps t (Master t) (sys c) :=
  keeps_master (X := Prog.noParts) (fun _ _ h => h.elim) (.call (owning_of_workerCall hc))

/-- The camera is initialized again where there is no worker. -/
theorem keeps_recoverCamera : contract.Keeps t (Master t) (App.recoverCamera legacy) := by
  have hneeded : contract.Keeps t (Master t) (sys (.exchange .cameraRecoveryNeeded false)) :=
    keeps_master (X := Prog.noParts) (fun _ _ h => h.elim)
      (.call (.inl ⟨⟨rfl, nofun, nofun⟩, rfl⟩))
  intro w h
  refine wp_bind_of (hneeded w h) fun needed w _ h => ?_
  cases needed with
  | false => exact fun v hr hi => master_rely w v hr hi h
  | true =>
  refine wp_bind_of (keeps_workerCall rfl w h) fun keepRunning w _ h => ?_
  cases keepRunning with
  | false => exact fun v hr hi => master_rely w v hr hi h
  | true =>
  refine wp_bind_of (wp_stopHlsStreamSession h) fun _ w _ h => ?_
  have hreinit : (reinitializeCamera legacy).Built Inside Prog.noParts :=
    built_reinit (fun _ => inside_of_modeCall) (fun _ => inside_of_acquireCall)
      fun _ => ⟨rfl, nofun, nofun⟩
  refine wp_bind_of (master_of_noWorker hreinit h) fun done w _ h => ?_
  cases done with
  | false => exact keeps_workerCall rfl w h
  | true => exact fun v hr hi => master_rely w v hr hi h

/-- A session is asked for, and a worker is started, where there is none. -/
theorem keeps_followDecision {shouldStream : Bool} :
    contract.Keeps .check (Master .check) (App.followDecision shouldStream) := by
  have hret : ∀ {α : Type} (a : α) w, Master .check w →
      contract.wp .check (.ret a : Prog Sys α) (fun _ => Master .check) (Master .check) w :=
    fun _ w h v hr hi => master_rely w v hr hi h
  have hkeepRunning := keeps_workerCall (t := .check) (c := .load .keepRunning) rfl
  intro w h
  refine wp_bind_of (hkeepRunning w h) fun keepRunning w _ h => ?_
  cases keepRunning with
  | false => exact hret _ w h
  | true =>
  refine wp_call_of master_rely h fun w _ h => ?_
  refine ⟨allowed_of_owning h (owning_of_workerCall rfl), fun joinable w' _ hact => ?_⟩
  rcases system_act.mp hact with ⟨hanswer, rfl⟩
  have hmaster := master_after (c := .streamThreadJoinable) (r := joinable) nofun h
  have hjoinable : joinable = w.threads.streamThread.isSome :=
    of_decide_eq_true (World.threads_of_answers hanswer)
  have hstop : contract.Keeps .check (Master .check) App.stopHlsStreamSession := fun w h =>
    wp_mono (wp_stopHlsStreamSession h) (fun _ _ _ h => h.1) fun _ _ h => h
  cases shouldStream with
  | false =>
    cases joinable with
    | false => exact wp_bind_of (hret () _ hmaster) fun _ w _ h => hret _ w h
    | true => exact wp_bind_of (hstop _ hmaster) fun _ w _ h => hret _ w h
  | true =>
  cases joinable with
  | true => exact wp_bind_of (hret () _ hmaster) fun _ w _ h => hret _ w h
  | false =>
  -- nobody else starts a worker in the meantime
  have hnone : NoWorker .check (w.after .check .streamThreadJoinable false) :=
    ⟨hmaster, Option.not_isSome_iff_eq_none.mp (Bool.eq_false_iff.mp hjoinable.symm)⟩
  refine wp_call_of noWorker_rely hnone fun w _ h => ⟨?_, fun _ w' _ hact => ?_⟩
  · exact ⟨nofun, nofun, fun _ => nofun, nofun, fun _ => nofun, fun _ => h.2, nofun⟩
  rcases system_act.mp hact with ⟨-, rfl⟩
  have h : NoWorker .check (w.after .check (.store .streamShouldRun true) ()) :=
    ⟨master_after nofun h.1, h.2⟩
  refine wp_call_of noWorker_rely h fun w _ h => ⟨?_, fun spawned w' _ hact => ?_⟩
  · have hcheck : CheckAlive w := by
      rcases h.1 with ⟨-, hcheck⟩ | ⟨hmain, -⟩
      · exact hcheck
      · cases hmain
    exact ⟨fun _ => ⟨rfl, hcheck, h.2⟩, nofun, fun _ => nofun, nofun, fun _ => nofun, nofun, nofun⟩
  · rcases system_act.mp hact with ⟨-, rfl⟩
    exact hret _ _ (master_after nofun h.1)

theorem wp_checkTurn {m : StreamCheck.Memory} (h : Master .check w) :
    contract.wp .check (App.checkTurn legacy m)
      (fun next w => next.isSome = true → Master .check w) (fun _ => True) w := by
  have hW : ∀ c, App.workerCall c = true → Owning c := fun _ => owning_of_workerCall
  have hemergency : Owning (.exchange .emergencyStopHls false) :=
    .inl ⟨⟨rfl, by decide, by decide⟩, rfl⟩
  have hserve : contract.Keeps .check (Master .check) (App.serveRequests legacy m) := by
    refine keeps_master ?_ (App.built_serveRequests hW (.inr rfl) hemergency .self m)
    rintro α p ⟨rfl, rfl⟩
    exact keeps_recoverCamera
  have hstream : ∀ m, contract.Keeps .check (Master .check) (App.checkStream m) := by
    intro m
    refine keeps_master (X := fun α p => ∃ b, Prog.onlyPart (App.followDecision b) α p) ?_
      (App.built_checkStream hW (fun b => .part ⟨b, rfl, rfl⟩) m)
    rintro α p ⟨b, rfl, rfl⟩
    exact keeps_followDecision
  have hsleep : ∀ goesOn streak, contract.Keeps .check (Master .check)
      (Prog.when goesOn (App.checkSleep streak)) := fun goesOn streak =>
    keeps_master (X := Prog.noParts) (fun _ _ h => h.elim)
      (.when goesOn (App.built_checkSleep hW streak))
  have hload := keeps_workerCall (t := .check) (c := .load .keepRunning) rfl
  refine wp_mono (X := fun _ => True) (wp_bind_of (wp_mono (hload w h) (fun _ _ _ h => h)
    fun _ _ _ => trivial) fun keepRunning w _ h => ?_) (fun _ _ _ h => h) fun _ _ h => h
  cases keepRunning with
  | false =>
    refine fun w' _ _ => ⟨?_, fun _ _ _ _ _ _ _ => nofun⟩
    exact ⟨nofun, nofun, fun _ => nofun, nofun, fun _ => nofun, nofun, nofun⟩
  | true =>
  refine wp_mono (X := Master .check) (Q := fun _ => Master .check) ?_ (fun _ _ _ h _ => h)
    fun _ _ _ => trivial
  refine wp_bind_of (hserve w h) fun m w _ h => ?_
  refine wp_bind_of (hstream m w h) fun next w _ h => ?_
  rcases next with ⟨m, goesOn⟩
  refine wp_bind_of (hsleep goesOn m.apiFailureStreak w h) fun _ w _ h => ?_
  exact fun v hr hi => master_rely w v hr hi h

end

/-! ### main -/

section

variable {legacy : Bool} {w : World}

/-- `main` has not started the workers. -/
def Before (w : World) : Prop :=
  w.threads.finished .main = false ∧ w.threads.started .check = false

theorem before_rely (w w' : World) (hr : contract.rely .main w w') (_ : contract.inv w')
    (h : Before w) : Before w' := ⟨hr.own.trans h.1, (hr.check rfl).trans h.2⟩

theorem running_rely (w w' : World) (hr : contract.rely .main w w') (_ : contract.inv w')
    (h : w.threads.finished .main = false) : w'.threads.finished .main = false := hr.own.trans h

/-- Before the workers are started, there is no HLS worker. -/
theorem stream_of_before (hi : Single w) (h : Before w) : w.threads.streamThread = none := by
  cases hs : w.threads.streamThread with
  | none => rfl
  | some n =>
    exact Bool.noConfusion (h.2.symm.trans (hi.check (Nat.zero_lt_of_lt (hi.stream n hs))))

theorem keeps_before {α : Type} {p : Prog Sys α} (hp : p.Built Inside Prog.noParts) :
    contract.Keeps .main Before p := by
  refine keeps_of_built before_rely (fun c hc w hi h => ?_) (fun _ _ h => h.elim) hp
  refine ⟨allowed_of_inside hc (fun _ => nofun) ?_, fun r w' _ hact => ?_⟩
  · exact fun _ _ n _ hn => by cases (stream_of_before hi h).symm.trans (hi.alive n hn)
  · rcases system_act.mp hact with ⟨-, rfl⟩
    exact ⟨(World.finished_after fun he => absurd he hc.2.1).trans h.1,
      ((threads_after hc.1).1 .check nofun).trans h.2⟩

/-- Code of `main` before the workers are started, in front of the rest. -/
theorem wp_before {α β : Type} {p : Prog Sys α} {f : α → Prog Sys β} {Q : β → World → Prop}
    (hp : p.Built Inside Prog.noParts) (h : Before w)
    (hf : ∀ a w, Before w → contract.wp .main (f a) Q (fun _ => True) w) :
    contract.wp .main (p >>= f) Q (fun _ => True) w :=
  (keeps_before hp).wp_bind (fun _ _ => trivial) h hf

theorem wp_spawnWorker {worker : WorkerThread} (h : w.threads.finished .main = false) :
    contract.wp .main (sys (.spawnWorker worker)) (fun _ w => w.threads.finished .main = false)
      (fun _ => True) w := by
  refine fun w' hr hi => ⟨?_, fun _ w'' _ hact => ?_⟩
  · exact ⟨nofun, nofun, fun _ _ => ⟨rfl, running_rely w w' hr hi h⟩, fun _ => nofun,
      fun _ => nofun, nofun, nofun⟩
  · rcases system_act.mp hact with ⟨-, rfl⟩
    exact fun v hr' hi' => running_rely _ v hr' hi' (running_rely w w' hr hi h)

/-- Where a turn of the initialization leads to. -/
def initDone (next : Option Bool) (w : World) : Prop :=
  match next with
  | none => Before w
  | some true => w.threads.finished .main = false
  | some false => True

/-- The end of a turn that does not go round the loop again. -/
theorem wp_startWorkers (h : Before w) :
    contract.wp .main
      (do
        if !(← sys (.load .keepRunning)) then
          CameraManager.destroy legacy
          sys .threadEnd
          return some false
        sys (.spawnWorker .snapshotThread)
        sys (.spawnWorker .checkStreamThread)
        sys (.spawnWorker .monitorThread)
        return some true)
      initDone (fun _ => True) w := by
  refine wp_before (.call ⟨rfl, nofun, nofun⟩) h fun keepRunning w h => ?_
  cases keepRunning with
  | false =>
    refine wp_before built_destroy_inside h fun _ w h => ?_
    refine fun w' hr hi => ⟨?_, fun _ _ _ _ _ _ _ => trivial⟩
    have h := before_rely w w' hr hi h
    refine ⟨nofun, nofun, fun _ => nofun, fun _ _ => ⟨stream_of_before hi h, fun hc => ?_⟩,
      fun _ => nofun, nofun, nofun⟩
    exact Bool.noConfusion (h.2.symm.trans hc.1)
  | true =>
    refine wp_bind_of (wp_spawnWorker h.1) fun _ w _ h => ?_
    refine wp_bind_of (wp_spawnWorker h) fun _ w _ h => ?_
    refine wp_bind_of (wp_spawnWorker h) fun _ w _ h => ?_
    exact fun v hr hi => running_rely w v hr hi h

theorem wp_mainInitTurn {retryDelay : Nat} (h : Before w) :
    contract.wp .main (App.mainInitTurn legacy retryDelay) initDone (fun _ => True) w := by
  refine wp_before (.call ⟨rfl, nofun, nofun⟩) h fun keepRunning w h => ?_
  cases keepRunning with
  | false => exact wp_startWorkers h
  | true =>
  have hinit : initializeCamera.Built Inside Prog.noParts :=
    built_initializeCamera (fun _ => inside_of_acquireCall) (inside_of_modeCall rfl)
      (inside_of_modeCall rfl) ⟨rfl, nofun, nofun⟩
  refine wp_before (p := initializeCamera >>= fun ok => .ret !ok) (.bind hinit fun _ => .ret _)
    h fun retry w h => ?_
  cases retry with
  | false => exact wp_startWorkers h
  | true =>
    refine wp_before (.call ⟨rfl, nofun, nofun⟩) h fun _ w h => ?_
    exact fun v hr hi => before_rely w v hr hi h

/-- The calls of `main` before it owns the session. -/
theorem wp_waiting {α β : Type} {p : Prog Sys α} {f : α → Prog Sys β} {Q : β → World → Prop}
    (hp : p.Built (fun c : SysCall => Inside c ∧ touches c = false) Prog.noParts)
    (h : w.threads.finished .main = false)
    (hf : ∀ a w, w.threads.finished .main = false →
      contract.wp .main (f a) Q (fun _ => True) w) :
    contract.wp .main (p >>= f) Q (fun _ => True) w := by
  have hkeeps : contract.Keeps .main (fun w => w.threads.finished .main = false) p := by
    refine keeps_of_built running_rely (fun c hc w _ h => ?_) (fun _ _ h => h.elim) hp
    refine ⟨allowed_of_inside hc.1 (fun _ => nofun) ?_, fun r w' _ hact => ?_⟩
    · exact fun hon => Bool.noConfusion (hc.2.symm.trans hon)
    · rcases system_act.mp hact with ⟨-, rfl⟩
      exact (World.finished_after fun he => absurd he hc.1.2.1).trans h
  exact wp_bind_of (wp_mono (hkeeps w h) (fun _ _ _ h => h) fun _ _ _ => trivial)
    fun a w _ h => hf a w h

/-- `main` owns the session when it has joined `streamCheckWorker`, and returns with no worker. -/
theorem wp_mainWaitTurn (h : w.threads.finished .main = false) :
    contract.wp .main (App.mainWaitTurn legacy)
      (fun more w => more = true → w.threads.finished .main = false) (fun _ => True) w := by
  have hcall : ∀ c, Inside c → touches c = false →
      (sys c).Built (fun c : SysCall => Inside c ∧ touches c = false) Prog.noParts :=
    fun c hc ht => .call ⟨hc, ht⟩
  refine wp_waiting (hcall _ ⟨rfl, nofun, nofun⟩ rfl) h fun keepRunning w h => ?_
  cases keepRunning with
  | true =>
    refine wp_waiting (hcall _ ⟨rfl, nofun, nofun⟩ rfl) h fun _ w h => ?_
    exact fun v hr hi _ => running_rely w v hr hi h
  | false =>
  refine wp_waiting (hcall _ ⟨rfl, nofun, nofun⟩ rfl) h fun _ w h => ?_
  refine wp_waiting (hcall _ ⟨rfl, nofun, nofun⟩ rfl) h fun _ w h => ?_
  refine wp_call_of true_rely trivial fun w _ _ => ?_
  refine ⟨allowed_of_inside ⟨rfl, nofun, nofun⟩ (fun _ => nofun) nofun, fun _ w' _ hact => ?_⟩
  have hmaster : Master .main w' := by
    rcases system_act.mp hact with ⟨hanswer, rfl⟩
    exact .inr ⟨rfl, World.threads_of_answers hanswer⟩
  have hjoin : contract.Keeps .main (Master .main) (sys (.joinWorker .monitorThread)) :=
    keeps_master (X := Prog.noParts) (fun _ _ h => h.elim)
      (.call (.inl ⟨⟨rfl, nofun, nofun⟩, rfl⟩))
  refine wp_mono (X := fun _ => True) (Q := fun more _ => more = false) ?_
    (fun _ _ _ hend hmore => Bool.noConfusion (hend.symm.trans hmore)) fun _ _ _ => trivial
  refine hjoin.wp_bind (fun _ _ => trivial) hmaster fun _ w h => ?_
  refine wp_bind_of (wp_stopHlsStreamSession h) fun _ w _ h => ?_
  refine (keeps_noWorker built_destroy_inside).wp_bind (fun _ _ => trivial) h fun _ w h => ?_
  refine fun w' hr hi => ⟨?_, fun _ _ _ _ _ _ _ => rfl⟩
  rcases noWorker_rely w w' hr hi h with ⟨⟨hcheck, -⟩ | ⟨-, hended⟩, hnone⟩
  · cases hcheck
  · exact ⟨nofun, nofun, fun _ => nofun,
      fun _ _ => ⟨hnone, fun hc => Bool.noConfusion (hended.symm.trans hc.2)⟩,
      fun _ => nofun, nofun, nofun⟩

end

/-! ## All threads -/

/-- The calls of the threads that take no part in the session. -/
def Apart (t : Tid) (c : SysCall) : Prop :=
  Inside c ∧ (touches c = false ∨ t = .snapshot) ∨ c = .threadEnd

theorem apart_of {t : Tid} {calls : SysCall → Bool} (hi : ∀ c, calls c = true → Inside c)
    (hs : ∀ value, calls (.store .isVideoMode_ value) = false)
    (he : ∀ value, calls (.exchange .isVideoMode_ value) = false)
    (ha : ∀ value, calls (.assign .pipeline_ value) = false) {c : SysCall} (h : calls c = true) :
    Apart t c := by
  refine .inl ⟨hi c h, .inl (Bool.eq_false_iff.mpr fun ht => ?_)⟩
  cases c with
  | store f value =>
    cases of_decide_eq_true ht
    exact Bool.noConfusion ((hs value).symm.trans h)
  | exchange f value =>
    cases of_decide_eq_true ht
    exact Bool.noConfusion ((he value).symm.trans h)
  | assign p value =>
    cases of_decide_eq_true ht
    exact Bool.noConfusion ((ha value).symm.trans h)
  | _ => cases ht

theorem apart_of_completionCall {t : Tid} {c : SysCall} : completionCall c = true → Apart t c :=
  apart_of (fun _ => inside_of (fun c h => by cases c <;> first | rfl | cases h) rfl rfl)
    (fun v => by cases v <;> rfl) (fun _ => rfl) fun _ => rfl

theorem apart_of_gstCall {t : Tid} {c : SysCall} (h : gstCall c = true) : Apart t c := by
  cases c with
  | store f value =>
    cases f <;>
      simp_all [gstCall, turnCall, Apart, Inside, sessionCall, touches]
  | _ => simp_all [gstCall, turnCall, Apart, Inside, sessionCall, touches]

theorem apart_of_workerCall {t : Tid} {c : SysCall} : App.workerCall c = true → Apart t c :=
  fun h => (owning_of_workerCall h).elim (fun h => .inl ⟨h.1, .inl h.2⟩) fun h => by
    cases h
    cases ‹App.workerCall .streamThreadJoin = true›

theorem wp_apart {t : Tid} {α : Type} {p : Prog Sys α} {w : World} (hmain : t ≠ .main)
    (hhls : ∀ n, t ≠ .hls n) (hp : p.Built (Apart t) Prog.noParts) :
    contract.wp t p (fun _ _ => True) (fun _ => True) w := by
  refine wp_of_built hp fun c hc w _ => ?_
  rcases hc with ⟨hc, ht⟩ | rfl
  · refine allowed_of_inside hc (fun n hn => absurd hn (hhls n)) fun hon hne => ?_
    exact (ht.elim (fun hf => Bool.noConfusion (hf.symm.trans hon)) fun he => absurd he hne)
  · exact ⟨nofun, nofun, fun _ => nofun, fun he => absurd he hmain,
      fun n hn => absurd hn (hhls n), nofun, nofun⟩

/-- What holds at the control points. -/
def holds : (t : Tid) → t.Pc → World → Prop
  | .main, .init _, w => Before w
  | .main, .wait, w => w.threads.finished .main = false
  | .check, .begin, w => w.threads.finished .check = false
  | .check, .loop _, w => Master .check w
  | .hls n, .begin, w => w.threads.finished (.hls n) = false
  | .hls n, .loop, w => Alive n w
  | .caller _, _, _ => False
  | _, _, _ => True

section

variable {legacy : Bool} {w : World}

theorem wp_mainBody {pc : MainPc} (h : holds .main pc w) :
    contract.wp .main (mainBody legacy pc)
      (fun next w => ∀ pc' : MainPc, next = some pc' → holds .main pc' w) (fun _ => True) w := by
  cases pc with
  | init retryDelay =>
    refine wp_bind_of (wp_mainInitTurn h) fun next w _ h => ?_
    rcases next with _ | (_ | _)
    · rintro v hr hi _ ⟨⟩
      exact before_rely w v hr hi h
    · exact fun _ _ _ _ => nofun
    · rintro v hr hi _ ⟨⟩
      exact running_rely w v hr hi h
  | wait =>
    refine wp_bind_of (wp_mainWaitTurn h) fun more w _ h => ?_
    cases more
    · exact fun _ _ _ _ => nofun
    · rintro v hr hi _ ⟨⟩
      exact running_rely w v hr hi (h rfl)

theorem wp_checkBody {pc : CheckPc} (h : holds .check pc w) :
    contract.wp .check (checkBody legacy pc)
      (fun next w => ∀ pc' : CheckPc, next = some pc' → holds .check pc' w) (fun _ => True) w := by
  cases pc with
  | begin =>
    refine wp_call_of (fun _ _ hr _ hf => hr.own.trans hf) h fun w _ h => ?_
    refine ⟨allowed_of_inside ⟨rfl, nofun, nofun⟩ (fun _ => nofun) nofun, fun _ w' _ hact => ?_⟩
    rcases system_act.mp hact with ⟨hanswer, rfl⟩
    have hmaster : Master .check w := .inl ⟨rfl, World.threads_of_answers hanswer, h⟩
    rintro v hr hi _ ⟨⟩
    exact master_rely _ v hr hi (master_after nofun hmaster)
  | loop m =>
    refine wp_bind_of (wp_checkTurn h) fun next w _ h => ?_
    cases next with
    | none => exact fun _ _ _ _ => nofun
    | some m =>
      rintro v hr hi _ ⟨⟩
      exact master_rely w v hr hi (h rfl)

theorem wp_hlsBody {n : Nat} {pc : LoopPc} (h : holds (.hls n) pc w) :
    contract.wp (.hls n) (hlsBody legacy pc)
      (fun next w => ∀ pc' : LoopPc, next = some pc' → holds (.hls n) pc' w) (fun _ => True)
      w := by
  cases pc with
  | begin =>
    refine wp_bind_of (wp_hlsWorkerBegin h) fun on w _ h => ?_
    cases on with
    | false => exact fun _ _ _ _ => nofun
    | true =>
      rintro v hr hi _ ⟨⟩
      exact alive_rely w v hr hi (h rfl)
  | loop =>
    have hturn : App.hlsLoopTurn.Built Inside Prog.noParts :=
      App.built_hlsLoopTurn (fun _ => inside_of_workerCall) ⟨rfl, nofun, nofun⟩
        ⟨rfl, nofun, nofun⟩
    refine wp_alive hturn h fun more w h => ?_
    cases more with
    | false => exact wp_bind_of (wp_hlsWorkerFinish h) fun _ _ _ _ _ _ _ _ => nofun
    | true =>
      rintro v hr hi _ ⟨⟩
      exact alive_rely w v hr hi h

end

def proof (legacy : Bool) : contract.Proof (code legacy) where
  holds := holds
  body t pc w _ h := by
    cases t with
    | main => exact wp_mainBody h
    | check => exact wp_checkBody h
    | hls n => exact wp_hlsBody h
    | caller n => exact h.elim
    | snapshot =>
      have hphoto : (takePicture legacy).Built (Apart .snapshot) Prog.noParts :=
        built_photo fun _ hc => .inl ⟨inside_of_modeCall hc, .inr rfl⟩
      have hbody : (workerBody (App.snapshotTurn legacy) pc).Built (Apart .snapshot) Prog.noParts :=
        built_workerBody (apart_of_workerCall rfl)
          (App.built_snapshotTurn (fun _ => apart_of_workerCall) (.inr rfl) hphoto) pc
      exact wp_mono (wp_apart nofun nofun hbody) (fun _ _ _ _ _ _ => trivial) fun _ _ h => h
    | monitor =>
      have hreport : Apart .monitor (.store .emergencyStopHls true) :=
        .inl ⟨⟨rfl, by decide, by decide⟩, .inl rfl⟩
      have hbody : (workerBody App.monitorTurn pc).Built (Apart .monitor) Prog.noParts :=
        built_workerBody (apart_of_workerCall rfl)
          (App.built_monitorTurn (fun _ => apart_of_workerCall) (.inr rfl) hreport) pc
      exact wp_mono (wp_apart nofun nofun hbody) (fun _ _ _ _ _ _ => trivial) fun _ _ h => h
    | callback =>
      exact wp_mono (wp_apart nofun nofun
        (built_callbackBody legacy fun _ => apart_of_completionCall))
        (fun _ _ _ _ _ _ => trivial) fun _ _ h => h
    | gst n =>
      exact wp_mono (wp_apart nofun nofun (built_gstBody pc fun _ => apart_of_gstCall))
        (fun _ _ _ _ _ _ => trivial) fun _ _ h => h

theorem valid_start (legacy : Bool) : (proof legacy).Valid (appStart legacy) := by
  apply valid_appStart
  · exact ⟨fun n hn => absurd hn.1 nofun, fun n => ⟨nofun, nofun⟩, nofun, fun n => nofun, nofun⟩
  · exact fun w hr _ => ⟨hr.own, hr.check rfl⟩
  · exact fun _ _ _ => trivial
  · exact fun w hr _ => hr.own
  · exact fun _ _ _ => trivial
  · exact fun n w hr _ => hr.own
  · exact fun _ _ _ => trivial
  · exact fun _ _ _ _ => trivial

/-- A session that has been asked for has no worker yet, and the workers before it do nothing any
more: they have ended. -/
theorem ended_of_request {legacy : Bool} {cfg cfg' : Config (code legacy) World} {t : Tid} {n : Nat}
    (h : (proof legacy).Valid cfg) (hrequest : cfg.pending t = some (.store .streamShouldRun true))
    (hn : n < cfg.world.threads.hlsWorkers) (hrun : Run system anyStep cfg cfg') :
    cfg'.world.threads.finished (.hls n) = true := by
  have hended : cfg.world.threads.finished (.hls n) = true := by
    refine Bool.not_eq_false _ ▸ fun hlive => ?_
    have halive := h.inv.alive n ⟨(h.inv.started n).mpr hn, hlive⟩
    cases halive.symm.trans ((h.pre hrequest).request rfl)
  refine hrun.invariant (I := fun cfg => cfg.world.threads.finished (.hls n) = true) ?_ hended
  intro b l c hb _ hs
  cases hs with
  | act _ hact =>
    rcases system_act.mp hact with ⟨-, rfl⟩
    exact World.finished_mono hb
  | resume _ => exact hb
  | env henv =>
    cases henv
    exact hb

end Lifecycle

/-- In every run of the application: one HLS worker is alive at most; `streamThread` is not
overwritten while it holds a thread; once a session is asked for, no earlier worker clears the flag;
and when `main` has returned, no worker is alive and `streamThread` is empty. -/
theorem App.sessions_apart {legacy : Bool} {cfg : Config (code legacy) World}
    (hrun : Run system anyStep (appStart legacy) cfg) :
    (∀ m n, Lifecycle.Alive m cfg.world → Lifecycle.Alive n cfg.world → m = n) ∧
    (∀ t, cfg.pending t = some .spawnStreamThread → cfg.world.threads.streamThread = none) ∧
    (∀ t, cfg.pending t = some (.store .streamShouldRun true) →
      ∀ n < cfg.world.threads.hlsWorkers, ∀ cfg', Run system anyStep cfg cfg' →
        cfg'.pending (.hls n) ≠ some (.store .streamShouldRun false)) ∧
    (cfg.world.threads.finished .main = true →
      (∀ n, ¬ Lifecycle.Alive n cfg.world) ∧ cfg.world.threads.streamThread = none) := by
  have hvalid := (Lifecycle.proof legacy).sound (Lifecycle.valid_start legacy) hrun
  refine ⟨fun m n hm hn => ?_, fun t ht => ?_, fun t ht n hn cfg' hrun' hclear => ?_, fun h => ?_⟩
  · exact Option.some.inj ((hvalid.inv.alive m hm).symm.trans (hvalid.inv.alive n hn))
  · exact ((hvalid.pre ht).spawn rfl).2.2
  · have hended := Lifecycle.ended_of_request hvalid ht hn hrun'
    have halive := (((Lifecycle.proof legacy).sound hvalid hrun').pre hclear).own n rfl nofun
    exact Bool.noConfusion (hended.symm.trans halive.2)
  · have hnone := (hvalid.inv.returned h).1
    refine ⟨fun n hn => ?_, hnone⟩
    cases hnone.symm.trans (hvalid.inv.alive n hn)

/-- The replies when everything goes well but the cleanup of the HLS directory. -/
def Lifecycle.unclean (w : World) : (c : SysCall) → Option c.Reply
  | .cleanHlsDirectory => some .failed
  | c => w.willing .takePicture c

/-- The first worker ends before its loop, and a second session is asked for. -/
def Lifecycle.secondRequest : List (Choice Sys Tid World Signal) :=
  runsWith unclean .main 18 ++ runsWith unclean .check 14 ++ runsWith unclean (.hls 0) 5 ++
    runsWith unclean .check 13

theorem App.sessions_apart_second :
    ∃ cfg : Config (code false) World,
      cfg.pending .check = some (.store .streamShouldRun true) ∧
      cfg.world.threads.hlsWorkers = 1 ∧
      (∀ m n, Lifecycle.Alive m cfg.world → Lifecycle.Alive n cfg.world → m = n) ∧
      (∀ t, cfg.pending t = some .spawnStreamThread → cfg.world.threads.streamThread = none) ∧
      (∀ t, cfg.pending t = some (.store .streamShouldRun true) →
        ∀ n < cfg.world.threads.hlsWorkers, ∀ cfg', Run system anyStep cfg cfg' →
          cfg'.pending (.hls n) ≠ some (.store .streamShouldRun false)) ∧
      (cfg.world.threads.finished .main = true →
        (∀ n, ¬ Lifecycle.Alive n cfg.world) ∧ cfg.world.threads.streamThread = none) := by
  obtain ⟨cfg, hrun, htest⟩ := exec_reaches system (fun _ _ => true) (appStart false)
    Lifecycle.secondRequest (fun cfg => cfg.pending .check = some (.store .streamShouldRun true) ∧
      cfg.world.threads.hlsWorkers = 1) (by decide +kernel)
  rcases of_decide_eq_true htest with ⟨hrequest, hworkers⟩
  exact ⟨cfg, hrequest, hworkers, App.sessions_apart (hrun.mono fun _ _ _ => trivial)⟩

end SurfCam

import SurfCam.App.Lifecycle
import SurfCam.App.OutputDir
import SurfCam.Camera.Locks
import SurfCam.Logic.Facts

/-!
# Who writes to the output directory

An encoder that runs, or video mode that is on, belongs to the HLS worker that is alive.  What the
threads know about this, and about the files, is kept by whatever the others do.
-/

namespace SurfCam

open Interaction CameraManager Contract Lifecycle

namespace OwnFiles

/-! ## What a thread knows -/

/-- Why a thread may stop the encoder: it is the HLS worker that is alive, or it is inside
`stopVideoMode` and has found video mode on. -/
inductive Licence where
  | alive
  | tearing
  deriving DecidableEq

def Licence.Holds (t : Tid) (w : World) : Licence → Prop
  | alive => ∃ n, t = .hls n ∧ Alive n w
  | tearing => w.owner .videoTeardownMutex_ = some t ∧ w.flag .isVideoMode_ = true

inductive Fact where
  /-- the HLS worker has not ended, and when it begins it finds no encoder and video mode off -/
  | fresh
  /-- the thread owns `videoTeardownMutex_` -/
  | holding
  | may (l : Licence)
  /-- no encoder is running -/
  | silent (l : Licence)
  /-- the HLS worker has not turned video mode on yet, or it is off again -/
  | off
  /-- nor is its pipeline gone -/
  | piped
  /-- video mode is on as long as an encoder is running -/
  | covered
  /-- what is not left over in the directory, the worker's own encoder has written -/
  | sorted
  /-- nothing is left over -/
  | own
  deriving DecidableEq

def facts : Facts Fact Tid (World × OutputDir)
  | .fresh, t, x => ∃ n, t = .hls n ∧ x.1.threads.finished t = false ∧
      (x.1.threads.started t = true → x.2.Silent ∧ x.1.flag .isVideoMode_ = false)
  | .holding, t, x => x.1.owner .videoTeardownMutex_ = some t
  | .may l, t, x => l.Holds t x.1
  | .silent l, t, x => l.Holds t x.1 ∧ x.2.Silent
  | .off, t, x => Licence.alive.Holds t x.1 ∧ x.1.flag .isVideoMode_ = false
  | .piped, t, x => Licence.alive.Holds t x.1 ∧ x.1.flag .isVideoMode_ = false ∧
      x.1.ptr .pipeline_ = true
  | .covered, t, x => Licence.alive.Holds t x.1 ∧
      (x.2.Silent ∨ x.1.flag .isVideoMode_ = true)
  | .sorted, t, x => Licence.alive.Holds t x.1 ∧
      ∀ f ∈ x.2.files, f.found = true ∨ f.writer = some t
  | .own, t, x => Licence.alive.Holds t x.1 ∧ ∀ f ∈ x.2.files, f.writer = some t

/-- The calls that turn video mode on and off. -/
def setsMode (value : Bool) : List SysCall :=
  [.store .isVideoMode_ value, .exchange .isVideoMode_ value]

/-- The threads that turn video mode off while a session lasts. -/
def Stopper (t : Tid) : Prop := t = .snapshot ∨ ∃ n, t = .hls n

/-- What a call requires. -/
structure Permitted (t : Tid) (c : SysCall) (x : World × OutputDir) : Prop where
  plays : c = .setState .playing →
    (∃ n, t = .hls n) ∧ x.1.flag .isVideoMode_ = false ∧ x.1.ptr .pipeline_ = true
  turnsOn : c ∈ setsMode true → ∃ n, t = .hls n
  turnsOff : Stopper t → c ∈ setsMode false →
    x.2.Silent ∧ x.1.owner .videoTeardownMutex_ = some t
  assigns : Stopper t → ∀ value, c = .assign .pipeline_ value → x.2.Silent
  drops : t = .snapshot → ∀ value, c = .assign .pipeline_ value → x.1.flag .isVideoMode_ = true
  ends : ∀ n, t = .hls n → c = .threadEnd → x.2.Silent ∧ x.1.flag .isVideoMode_ = false
  polls : ∀ n draining, t = .hls n → c = .pollAndUpload draining →
    ∀ f ∈ x.2.files, f.writer = some t

/-- An encoder or video mode that is on belongs to the HLS worker that is alive, and the encoder
that is running to `pipeline_`. -/
structure Sound (x : World × OutputDir) : Prop where
  single : Single x.1
  encoder : ∀ k t, x.2.encoder k = some t → ∃ n, t = .hls n ∧ Alive n x.1
  last : ∀ k t, x.2.encoder k = some t → k = x.2.made ∧ x.1.ptr .pipeline_ = true
  mode : x.1.flag .isVideoMode_ = true → ∃ n, Alive n x.1

/-- What a call does to the world and the directory. -/
def next (t : Tid) (c : SysCall) (r : c.Reply) (x : World × OutputDir) : World × OutputDir :=
  (x.1.after t c r, x.2.after t c)

section

variable {t u : Tid} {c : SysCall} {r : c.Reply} {w : World} {x : World × OutputDir}

/-- Only these calls turn video mode on, or off. -/
theorem mode_of_after {value : Bool} (h : (w.after t c r).flag .isVideoMode_ = value) :
    w.flag .isVideoMode_ = value ∨ c ∈ setsMode value := by
  cases c with
  | store f v =>
    by_cases hf : f = .isVideoMode_
    · subst hf
      change Function.update w.flag .isVideoMode_ v .isVideoMode_ = value at h
      rw [Function.update_self] at h
      subst h
      exact .inr (List.mem_cons_self ..)
    · left
      rwa [World.flag_after (fun v he => hf (SysCall.store.inj he).1) fun v he => by cases he] at h
  | exchange f v =>
    by_cases hf : f = .isVideoMode_
    · subst hf
      change Function.update w.flag .isVideoMode_ v .isVideoMode_ = value at h
      rw [Function.update_self] at h
      subst h
      exact .inr (List.mem_cons_of_mem _ (List.mem_singleton_self _))
    · left
      rwa [World.flag_after (fun v he => by cases he) fun v he => hf (SysCall.exchange.inj he).1] at h
  | _ => exact .inl h

/-- A call that does not turn video mode on leaves it off. -/
theorem off_after (hc : c ∉ setsMode true) (h : w.flag .isVideoMode_ = false) :
    (w.after t c r).flag .isVideoMode_ = false := by
  cases hflag : (w.after t c r).flag .isVideoMode_ with
  | false => rfl
  | true =>
    have hon := (mode_of_after hflag).resolve_right hc
    rw [h] at hon
    cases hon

theorem on_after (hc : c ∉ setsMode false) (h : w.flag .isVideoMode_ = true) :
    (w.after t c r).flag .isVideoMode_ = true := by
  cases hflag : (w.after t c r).flag .isVideoMode_ with
  | true => rfl
  | false =>
    have hoff := (mode_of_after hflag).resolve_right hc
    rw [h] at hoff
    cases hoff

theorem touches_of_setsMode {value : Bool} (h : c ∈ setsMode value) : touches c = true := by
  cases List.mem_cons.mp h with
  | inl he =>
    rw [he]
    rfl
  | inr hrest =>
    rw [List.mem_singleton.mp hrest]
    rfl

/-- Only one HLS worker is alive. -/
theorem alive_unique {m n : Nat} (hi : Single w) (hm : Alive m w) (hn : Alive n w) : m = n :=
  Option.some.inj ((hi.alive m hm).symm.trans (hi.alive n hn))

/-- While an HLS worker is alive, another thread that touches video mode is the snapshot's. -/
theorem snapshot_of_touches {n : Nat} (ha : Allowed u c w) (hn : Alive n w) (hu : u ≠ .hls n)
    (hc : touches c = true) : u = .snapshot := by
  by_contra hne
  exact ha.touch hc hne n hu hn

/-- Another HLS worker makes no call but its first one. -/
theorem not_hls_of_alive {m n : Nat} (hi : Single w) (ha : Allowed u c w) (hn : Alive n w)
    (hu : u ≠ .hls n) (hc : c ≠ .threadBegin) : u ≠ .hls m := by
  rintro rfl
  exact hu (congrArg Tid.hls (alive_unique hi (ha.own m rfl hc) hn))

/-- The others start no encoder while an HLS worker is alive. -/
theorem not_plays_of_alive {n : Nat} (hi : Single x.1) (ha : Allowed u c x.1)
    (hp : Permitted u c x) (hn : Alive n x.1) (hu : u ≠ .hls n) : c ≠ .setState .playing := by
  rintro rfl
  obtain ⟨m, hm⟩ := (hp.plays rfl).1
  exact not_hls_of_alive hi ha hn hu (by decide) hm

/-- Nor do they turn video mode on. -/
theorem not_turnsOn_of_alive {n : Nat} (hi : Single x.1) (ha : Allowed u c x.1)
    (hp : Permitted u c x) (hn : Alive n x.1) (hu : u ≠ .hls n) : c ∉ setsMode true := by
  intro hc
  obtain ⟨m, hm⟩ := hp.turnsOn hc
  refine not_hls_of_alive hi ha hn hu ?_ hm
  rintro rfl
  exact absurd hc (by decide)

/-- What the others do while an HLS worker is alive: they leave the pipeline where video mode is
off, and turn it off where no encoder is running. -/
theorem ptr_of_alive {n : Nat} (ha : Allowed u c x.1) (hp : Permitted u c x)
    (hn : Alive n x.1) (hu : u ≠ .hls n) (hoff : x.1.flag .isVideoMode_ = false) :
    (x.1.after u c r).ptr .pipeline_ = x.1.ptr .pipeline_ := by
  apply World.ptr_after
  rintro value rfl
  have hsnapshot := snapshot_of_touches ha hn hu rfl
  have hon := hp.drops hsnapshot value rfl
  rw [hoff] at hon
  cases hon

theorem silent_of_turnsOff {n : Nat} (ha : Allowed u c x.1) (hp : Permitted u c x)
    (hn : Alive n x.1) (hu : u ≠ .hls n) (hc : c ∈ setsMode false) : x.2.Silent :=
  (hp.turnsOff (.inl (snapshot_of_touches ha hn hu (touches_of_setsMode hc))) hc).1

/-! ## What the others leave -/

theorem alive_of_other (htu : t ≠ u) (ha : Allowed u c x.1) (h : Licence.alive.Holds t x.1) :
    Licence.alive.Holds t (x.1.after u c r) := by
  obtain ⟨n, rfl, hn⟩ := h
  exact ⟨n, rfl, (left_after htu ha).alive hn⟩

theorem tearing_of_other (htu : t ≠ u) (hi : Sound x) (ha : Allowed u c x.1)
    (hp : Permitted u c x) (hanswer : x.1.answers u c r = true)
    (h : Licence.tearing.Holds t x.1) : Licence.tearing.Holds t (x.1.after u c r) := by
  obtain ⟨howner, hon⟩ := h
  refine ⟨World.owner_kept (by decide) howner hanswer fun _ => htu.symm, on_after ?_ hon⟩
  intro hc
  by_cases hstopper : Stopper u
  -- the snapshot and the workers turn it off with the mutex, which is taken
  · exact htu (Option.some.inj (howner.symm.trans (hp.turnsOff hstopper hc).2))
  · -- somebody else turns video mode off where no HLS worker is alive
    obtain ⟨n, hn⟩ := hi.mode hon
    refine ha.touch (touches_of_setsMode hc) (fun hu => hstopper (.inl hu)) n (fun hu => ?_) hn
    exact hstopper (.inr ⟨n, hu⟩)

theorem may_of_other {l : Licence} (htu : t ≠ u) (hi : Sound x) (ha : Allowed u c x.1)
    (hp : Permitted u c x) (hanswer : x.1.answers u c r = true) (h : l.Holds t x.1) :
    l.Holds t (x.1.after u c r) := by
  cases l with
  | alive => exact alive_of_other htu ha h
  | tearing => exact tearing_of_other htu hi ha hp hanswer h

/-- No encoder is started as long as the licence holds. -/
theorem not_plays_of_may {l : Licence} (htu : t ≠ u) (hi : Sound x) (ha : Allowed u c x.1)
    (hp : Permitted u c x) (h : l.Holds t x.1) : c ≠ .setState .playing := by
  cases l with
  | alive =>
    obtain ⟨n, rfl, hn⟩ := h
    exact not_plays_of_alive hi.single ha hp hn htu.symm
  | tearing =>
    intro hc
    have hoff := (hp.plays hc).2.1
    rw [h.2] at hoff
    cases hoff

theorem fresh_of_other (htu : t ≠ u) (hi : Sound x) (ha : Allowed u c x.1) (hp : Permitted u c x)
    (h : facts .fresh t x) : facts .fresh t (next u c r x) := by
  obtain ⟨n, rfl, hfinished, hquiet⟩ := h
  refine ⟨n, rfl, (World.finished_after fun _ => htu.symm).trans hfinished, fun hstarted => ?_⟩
  by_cases hbefore : x.1.threads.started (.hls n) = true
  · obtain ⟨hsilent, hoff⟩ := hquiet hbefore
    -- it counts as alive although it has made no call yet
    have hn : Alive n x.1 := ⟨hbefore, hfinished⟩
    refine ⟨OutputDir.silent_after (not_plays_of_alive hi.single ha hp hn htu.symm) hsilent, ?_⟩
    exact off_after (not_turnsOn_of_alive hi.single ha hp hn htu.symm) hoff
  -- the worker is started, so that there was none
  have hspawn : c = .spawnStreamThread := by
    by_contra hc
    by_cases hs : sessionCall c = false
    · exact hbefore (((threads_after hs).1 (.hls n) fun _ he => by cases he).symm.trans hstarted)
    · cases c with
      | spawnStreamThread => exact hc rfl
      | streamThreadJoin => exact hbefore hstarted
      | spawnWorker worker =>
        change Function.update x.1.threads.started worker.tid true (.hls n) = true at hstarted
        rw [Function.update_of_ne (by cases worker <;> simp [WorkerThread.tid])] at hstarted
        exact hbefore hstarted
      | _ => exact hs rfl
  subst hspawn
  -- a session is begun with `streamThread` empty
  have hnone : ∀ m, ¬ Alive m x.1 := by
    intro m hm
    have hstream := hi.single.alive m hm
    rw [(ha.spawn rfl).2.2] at hstream
    cases hstream
  have hsilent : x.2.Silent := by
    intro k
    cases hk : x.2.encoder k with
    | none => rfl
    | some v =>
      obtain ⟨m, -, hm⟩ := hi.encoder k v hk
      exact absurd hm (hnone m)
  refine ⟨OutputDir.silent_after (by decide) hsilent, off_after (by decide) ?_⟩
  apply Bool.eq_false_iff.mpr
  intro hon
  obtain ⟨m, hm⟩ := hi.mode hon
  exact hnone m hm

/-- What the others leave of the files: they are there already, or are found by the next worker. -/
theorem files_of_other {P : OutputFile → Prop} (hfound : ∀ f g : OutputFile, P g →
      f.found = true → g.writer = f.writer → P f) (h : ∀ f ∈ x.2.files, P f) :
    ∀ f ∈ (x.2.after u c).files, P f := by
  intro f hf
  cases OutputDir.of_mem_after hf with
  | inl hbefore => exact h f hbefore
  | inr hmarked =>
    obtain ⟨hf, g, hg, hwriter⟩ := hmarked
    exact hfound f g (h g hg) hf hwriter

theorem kept_of_other (htu : t ≠ u) (hi : Sound x) (ha : Allowed u c x.1) (hp : Permitted u c x)
    (hanswer : x.1.answers u c r = true) : facts.Kept t x (next u c r x) := by
  intro f hf
  cases f with
  | fresh => exact fresh_of_other htu hi ha hp hf
  | holding => exact World.owner_kept (by decide) hf hanswer fun _ => htu.symm
  | may l => exact may_of_other htu hi ha hp hanswer hf
  | silent l =>
    exact ⟨may_of_other htu hi ha hp hanswer hf.1,
      OutputDir.silent_after (not_plays_of_may htu hi ha hp hf.1) hf.2⟩
  | off =>
    obtain ⟨halive, hoff⟩ := hf
    obtain ⟨n, rfl, hn⟩ := id halive
    exact ⟨alive_of_other htu ha halive,
      off_after (not_turnsOn_of_alive hi.single ha hp hn htu.symm) hoff⟩
  | piped =>
    obtain ⟨halive, hoff, hptr⟩ := hf
    obtain ⟨n, rfl, hn⟩ := id halive
    exact ⟨alive_of_other htu ha halive,
      off_after (not_turnsOn_of_alive hi.single ha hp hn htu.symm) hoff,
      (ptr_of_alive ha hp hn htu.symm hoff).trans hptr⟩
  | covered =>
    obtain ⟨halive, hcovered⟩ := hf
    obtain ⟨n, rfl, hn⟩ := id halive
    have hplays := not_plays_of_may (l := .alive) htu hi ha hp halive
    refine ⟨alive_of_other htu ha halive, ?_⟩
    by_cases hc : c ∈ setsMode false
    -- who turns video mode off meanwhile is the snapshot, after it has stopped the encoder
    · exact .inl (OutputDir.silent_after hplays (silent_of_turnsOff ha hp hn htu.symm hc))
    · exact hcovered.imp (OutputDir.silent_after hplays) (on_after hc)
  | sorted =>
    exact ⟨alive_of_other htu ha hf.1, files_of_other (fun _ _ _ hfound _ => .inl hfound) hf.2⟩
  | own =>
    exact ⟨alive_of_other htu ha hf.1,
      files_of_other (fun _ _ hown _ hwriter => hwriter ▸ hown) hf.2⟩

/-! ## What is true in every state -/

theorem alive_after_call {n : Nat} (hn : Alive n x.1) (hends : t = .hls n → c ≠ .threadEnd) :
    Alive n (x.1.after t c r) :=
  ⟨World.started_mono hn.1, (World.finished_after fun hc hu => hends hu hc).trans hn.2⟩

theorem sound_after (hi : Sound x) (ha : Allowed t c x.1) (hp : Permitted t c x)
    (hanswer : x.1.answers t c r = true) : Sound (next t c r x) where
  single := single_after hi.single ha hanswer
  encoder k v h := by
    cases OutputDir.encoder_of_after h with
    | inl hbefore =>
      obtain ⟨n, hv, hn⟩ := hi.encoder k v hbefore
      refine ⟨n, hv, alive_after_call hn fun hu hc => ?_⟩
      -- a worker ends with no encoder
      cases ((hp.ends n hu hc).1 k).symm.trans hbefore
    | inr hplays =>
      obtain ⟨rfl, rfl, -⟩ := hplays
      obtain ⟨n, rfl⟩ := (hp.plays rfl).1
      exact ⟨n, rfl, alive_after_call (ha.own n rfl (by decide)) fun _ => by decide⟩
  last k v h := by
    cases OutputDir.encoder_of_after h with
    | inl hbefore =>
      obtain ⟨hlast, hptr⟩ := hi.last k v hbefore
      -- nobody gives up the pipeline of an encoder that runs
      have hassign : ∀ value, c ≠ .assign .pipeline_ value := by
        rintro value rfl
        by_cases hstopper : Stopper t
        · cases (hp.assigns hstopper value rfl k).symm.trans hbefore
        · obtain ⟨n, -, hn⟩ := hi.encoder k v hbefore
          refine ha.touch rfl (fun hu => hstopper (.inl hu)) n (fun hu => ?_) hn
          exact hstopper (.inr ⟨n, hu⟩)
      exact ⟨hlast.trans (OutputDir.made_after (hassign true)).symm,
        (World.ptr_after hassign).trans hptr⟩
    | inr hplays =>
      obtain ⟨rfl, rfl, rfl⟩ := hplays
      exact ⟨rfl, (hp.plays rfl).2.2⟩
  mode h := by
    cases mode_of_after h with
    | inl hbefore =>
      obtain ⟨n, hn⟩ := hi.mode hbefore
      refine ⟨n, alive_after_call hn fun hu hc => ?_⟩
      have hoff := (hp.ends n hu hc).2
      rw [hbefore] at hoff
      cases hoff
    | inr hon =>
      -- `threadBegin` is the only call of a worker that may not be alive
      obtain ⟨n, rfl⟩ := hp.turnsOn hon
      have hn : Alive n x.1 := by
        apply ha.own n rfl
        rintro rfl
        exact absurd hon (by decide)
      refine ⟨n, alive_after_call hn fun _ => ?_⟩
      rintro rfl
      exact absurd hon (by decide)

end

section

variable {t : Tid} {x y : World × OutputDir}

/-- Only the encoder of the worker that is alive writes files. -/
theorem files_of_env {n : Nat} (hi : Sound x) (hn : Alive n x.1) {e : FileEvent}
    (h : x.2.happen e = some y.2) : ∀ f ∈ y.2.files, f ∈ x.2.files ∨ f.writer = some (.hls n) := by
  intro f hf
  cases (OutputDir.of_happen h).2.2 f hf with
  | inl hbefore => exact .inl hbefore
  | inr hnew =>
    obtain ⟨k, v, hencoder, hwriter⟩ := hnew
    obtain ⟨m, rfl, hm⟩ := hi.encoder k v hencoder
    rw [alive_unique hi.single hm hn] at hwriter
    exact .inr hwriter

theorem kept_of_env {e : FileEvent} (hi : Sound x) (henv : filed.env e x = some y) :
    facts.Kept t x y := by
  obtain ⟨hthreads, howner, hptr, hflag, hdir⟩ := filed_env henv
  obtain ⟨-, hencoder, -⟩ := OutputDir.of_happen hdir
  have hmay : ∀ l : Licence, l.Holds t x.1 → l.Holds t y.1 := by
    intro l h
    cases l with
    | alive =>
      obtain ⟨n, ht, hn⟩ := h
      refine ⟨n, ht, ?_⟩
      unfold Alive
      rw [hthreads]
      exact hn
    | tearing => exact ⟨howner ▸ h.1, hflag.trans h.2⟩
  have hsilent : x.2.Silent → y.2.Silent := by
    intro h k
    rw [hencoder]
    exact h k
  intro f hf
  cases f with
  | fresh =>
    obtain ⟨n, ht, hfinished, hquiet⟩ := hf
    refine ⟨n, ht, hthreads ▸ hfinished, fun hstarted => ?_⟩
    rw [hthreads] at hstarted
    obtain ⟨hs, hoff⟩ := hquiet hstarted
    exact ⟨hsilent hs, hflag.trans hoff⟩
  | holding =>
    show y.1.owner .videoTeardownMutex_ = some t
    rw [howner]
    exact hf
  | may l => exact hmay l hf
  | silent l => exact ⟨hmay l hf.1, hsilent hf.2⟩
  | off => exact ⟨hmay .alive hf.1, hflag.trans hf.2⟩
  | piped => exact ⟨hmay .alive hf.1, hflag.trans hf.2.1, hptr ▸ hf.2.2⟩
  | covered => exact ⟨hmay .alive hf.1, hf.2.imp hsilent hflag.trans⟩
  | sorted =>
    refine ⟨hmay .alive hf.1, fun g hg => ?_⟩
    obtain ⟨⟨n, rfl, hn⟩, hsorted⟩ := hf
    exact (files_of_env hi hn hdir g hg).elim (hsorted g) .inr
  | own =>
    refine ⟨hmay .alive hf.1, fun g hg => ?_⟩
    obtain ⟨⟨n, rfl, hn⟩, hown⟩ := hf
    exact (files_of_env hi hn hdir g hg).elim (hown g) id

theorem single_of_threads {w w' : World} (h : w'.threads = w.threads) (hi : Single w) :
    Single w' := by
  refine ⟨fun n hn => ?_, fun n => ?_, ?_, ?_, fun hreturned => ?_⟩
  · unfold Alive at hn
    rw [h] at hn ⊢
    exact hi.alive n hn
  · rw [h]
    exact hi.started n
  · rw [h]
    exact hi.check
  · rw [h]
    exact hi.stream
  · unfold CheckAlive
    rw [h] at hreturned ⊢
    exact hi.returned hreturned

theorem sound_of_env {e : FileEvent} (hi : Sound x) (henv : filed.env e x = some y) : Sound y := by
  obtain ⟨hthreads, -, hptr, hflag, hdir⟩ := filed_env henv
  obtain ⟨hmade, hencoder, -⟩ := OutputDir.of_happen hdir
  have halive : ∀ n, Alive n x.1 → Alive n y.1 := by
    intro n hn
    unfold Alive
    rw [hthreads]
    exact hn
  refine ⟨single_of_threads hthreads hi.single, fun k v h => ?_, fun k v h => ?_, fun h => ?_⟩
  · rw [hencoder] at h
    obtain ⟨n, hv, hn⟩ := hi.encoder k v h
    exact ⟨n, hv, halive n hn⟩
  · rw [hencoder] at h
    rw [hmade, hptr]
    exact hi.last k v h
  · rw [hflag] at h
    obtain ⟨n, hn⟩ := hi.mode h
    exact ⟨n, halive n hn⟩

end

/-! ## What a thread's own calls leave -/

/-- The calls that start an encoder or turn video mode on. -/
def starting : List SysCall := .setState .playing :: setsMode true

/-- The calls that turn video mode off or give the pipeline up. -/
def stopping : List SysCall :=
  setsMode false ++ [.assign .pipeline_ true, .assign .pipeline_ false]

/-- The calls that matter to a worker's session. -/
def session : List SysCall := .threadEnd :: starting ++ stopping

/-- The calls that matter here. -/
def guarded : List SysCall :=
  session ++ [.threadBegin, .pollAndUpload true, .pollAndUpload false]

/-- The calls after which a thread cannot be sure of a fact any more. -/
def breaks : Fact → List SysCall
  | .fresh => guarded
  | .holding => [.unlock .videoTeardownMutex_]
  | .may .alive | .sorted | .own => [.threadEnd]
  | .may .tearing => .unlock .videoTeardownMutex_ :: setsMode false
  | .silent .alive => [.threadEnd, .setState .playing]
  | .silent .tearing => .unlock .videoTeardownMutex_ :: .setState .playing :: setsMode false
  | .off => .threadEnd :: setsMode true
  | .piped => .threadEnd :: .assign .pipeline_ false :: setsMode true
  | .covered => .threadEnd :: .setState .playing :: setsMode false

section

variable {t : Tid} {c : SysCall} {r : c.Reply} {x : World × OutputDir} {f : Fact}

theorem alive_of_own (hc : c ≠ .threadEnd) (h : Licence.alive.Holds t x.1) :
    Licence.alive.Holds t (x.1.after t c r) := by
  obtain ⟨n, ht, hn⟩ := h
  exact ⟨n, ht, alive_after_call hn fun _ => hc⟩

theorem tearing_of_own (hunlock : c ≠ .unlock .videoTeardownMutex_) (hc : c ∉ setsMode false)
    (hanswer : x.1.answers t c r = true) (h : Licence.tearing.Holds t x.1) :
    Licence.tearing.Holds t (x.1.after t c r) :=
  ⟨World.owner_kept (by decide) h.1 hanswer fun he => absurd he hunlock, on_after hc h.2⟩

theorem kept_own (ha : Allowed t c x.1) (hanswer : x.1.answers t c r = true) (hc : c ∉ breaks f)
    (hf : facts f t x) : facts f t (next t c r x) := by
  have hne : ∀ c' ∈ breaks f, c ≠ c' := fun c' hc' he => hc (he ▸ hc')
  have hmem : ∀ {l : List SysCall}, l ⊆ breaks f → c ∉ l := fun hl hc' => hc (hl hc')
  cases f with
  | fresh =>
    obtain ⟨n, rfl, hfinished, hquiet⟩ := hf
    have hn : Alive n x.1 := ha.own n rfl (hne _ (by decide))
    obtain ⟨hsilent, hoff⟩ := hquiet hn.1
    refine ⟨n, rfl, ?_, fun _ => ⟨?_, ?_⟩⟩
    · exact (World.finished_after fun he => absurd he (hne _ (by decide))).trans hfinished
    · exact OutputDir.silent_after (hne _ (by decide)) hsilent
    · exact off_after (hmem (by decide)) hoff
  | holding => exact World.owner_kept (by decide) hf hanswer fun he => absurd he (hne _ (by decide))
  | may l =>
    cases l with
    | alive => exact alive_of_own (hne _ (by decide)) hf
    | tearing => exact tearing_of_own (hne _ (by decide)) (hmem (by decide)) hanswer hf
  | silent l =>
    cases l with
    | alive =>
      exact ⟨alive_of_own (hne _ (by decide)) hf.1,
        OutputDir.silent_after (hne _ (by decide)) hf.2⟩
    | tearing =>
      exact ⟨tearing_of_own (hne _ (by decide)) (hmem (by decide)) hanswer hf.1,
        OutputDir.silent_after (hne _ (by decide)) hf.2⟩
  | off => exact ⟨alive_of_own (hne _ (by decide)) hf.1, off_after (hmem (by decide)) hf.2⟩
  | piped =>
    obtain ⟨halive, hoff, hptr⟩ := hf
    refine ⟨alive_of_own (hne _ (by decide)) halive, off_after (hmem (by decide)) hoff, ?_⟩
    show (x.1.after t c r).ptr .pipeline_ = true
    by_cases hassign : c = .assign .pipeline_ true
    · subst hassign
      show Function.update x.1.ptr .pipeline_ true .pipeline_ = true
      rw [Function.update_self]
    · rw [World.ptr_after fun value => ?_, hptr]
      cases value with
      | true => exact hassign
      | false => exact hne _ (by decide)
  | covered =>
    exact ⟨alive_of_own (hne _ (by decide)) hf.1,
      hf.2.imp (OutputDir.silent_after (hne _ (by decide))) (on_after (hmem (by decide)))⟩
  | sorted =>
    exact ⟨alive_of_own (hne _ (by decide)) hf.1,
      files_of_other (fun _ _ _ hfound _ => .inl hfound) hf.2⟩
  | own =>
    exact ⟨alive_of_own (hne _ (by decide)) hf.1,
      files_of_other (fun _ _ hown _ hwriter => hwriter ▸ hown) hf.2⟩

/-- The calls that are not permitted everywhere, or after which some fact may be lost. -/
def strict : List SysCall := .unlock .videoTeardownMutex_ :: guarded

abbrev Quiet (c : SysCall) : Prop := c ∉ strict

theorem not_breaks_of_quiet (hc : Quiet c) : c ∉ breaks f := by
  have hsub : breaks f ⊆ strict := by
    cases f with
    | may l => cases l <;> decide
    | silent l => cases l <;> decide
    | _ => decide
  exact fun hbreaks => hc (hsub hbreaks)

/-- What a call outside these kinds requires. -/
theorem permitted_of (hstarts : c ∉ starting) (hstops : Stopper t → c ∉ stopping)
    (hends : ∀ n, t = .hls n → c = .threadEnd → x.2.Silent ∧ x.1.flag .isVideoMode_ = false)
    (hpolls : ∀ n draining, t = .hls n → c = .pollAndUpload draining →
      ∀ f ∈ x.2.files, f.writer = some t) : Permitted t c x where
  plays he := by
    subst he
    exact absurd (List.mem_cons_self ..) hstarts
  turnsOn hc := absurd (List.mem_cons_of_mem _ hc) hstarts
  turnsOff ht hc := absurd (List.mem_append_left _ hc) (hstops ht)
  assigns ht value he := by
    subst he
    exact absurd (by cases value <;> decide) (hstops ht)
  drops ht value he := by
    subst he
    exact absurd (by cases value <;> decide) (hstops (.inl ht))
  ends := hends
  polls := hpolls

/-- A call that is not guarded is always permitted. -/
theorem permitted_of_free (hc : c ∉ guarded) : Permitted t c x := by
  have hne : ∀ c' ∈ guarded, c ≠ c' := fun c' hc' he => hc (he ▸ hc')
  have hmem : ∀ {l : List SysCall}, l ⊆ guarded → c ∉ l := fun hl hc' => hc (hl hc')
  refine permitted_of (hmem (by decide)) (fun _ => hmem (by decide))
    (fun _ _ he => absurd he (hne _ (by decide))) fun _ draining _ he => ?_
  cases draining <;> exact absurd he (hne _ (by decide))

theorem permitted_of_quiet (hc : Quiet c) : Permitted t c x :=
  permitted_of_free fun hg => hc (List.mem_cons_of_mem _ hg)

end

/-! ## The contract -/

/-- The steps, with what the lives of the workers say about the calls. -/
def ok (x : World × OutputDir) (l : Label Sys Tid FileEvent) : Prop :=
  ∀ t c r, l = .act t c r → Allowed t c x.1

def contract : Contract filed ok :=
  facts.contract Sound Permitted
    (fun hi hp hok hact => by
      obtain ⟨hanswer, -, rfl⟩ := filed_act.mp hact
      exact sound_after hi (hok _ _ _ rfl) hp hanswer)
    (fun hi _ henv => sound_of_env hi henv)
    (fun htu hi hp hok hact => by
      obtain ⟨hanswer, -, rfl⟩ := filed_act.mp hact
      exact kept_of_other htu hi (hok _ _ _ rfl) hp hanswer)
    fun hi _ henv => kept_of_env hi henv

section

variable {t : Tid} {α β : Type} {l : List Fact} {x : World × OutputDir}
  {X : World × OutputDir → Prop}

theorem quiet : facts.Quiet contract t Quiet where
  rely := id
  pre hc _ := permitted_of_quiet hc
  act hc hok hact f hf := by
    obtain ⟨hanswer, -, rfl⟩ := filed_act.mp hact
    exact kept_own (hok _ _ _ rfl) hanswer (not_breaks_of_quiet hc) hf

/-- One call of a thread, permitted by what the thread knows. -/
theorem wp_step {c : SysCall} {f : c.Reply → Prog Sys β} {Q : β → World × OutputDir → Prop}
    (h : facts.Known l t x) (hp : ∀ x, Sound x → facts.Known l t x → Permitted t c x)
    (hf : ∀ x r, Sound x → facts.Known l t x → Allowed t c x.1 → x.1.answers t c r = true →
      x.2.answers c r = true → contract.wp t (f r) Q X (next t c r x)) :
    contract.wp t (sys c >>= f) Q X x := by
  refine wp_call_of quiet.known h fun x hi h => ⟨hp x hi h, fun r y hok hact => ?_⟩
  obtain ⟨hanswer, hdir, rfl⟩ := filed_act.mp hact
  exact hf x r hi h (hok _ _ _ rfl) hanswer hdir

/-- A quiet call whose reply says something. -/
theorem wp_look {c : SysCall} {f : c.Reply → Prog Sys β} {Q : β → World × OutputDir → Prop}
    (hc : Quiet c) (h : facts.Known l t x)
    (hf : ∀ x r, Sound x → x.1.answers t c r = true → x.2.answers c r = true →
      facts.Known l t x → facts.Known l t (next t c r x) →
        contract.wp t (f r) Q X (next t c r x)) :
    contract.wp t (sys c >>= f) Q X x := by
  refine wp_step h (fun _ _ _ => permitted_of_quiet hc) fun x r hi h ha hanswer hdir => ?_
  refine hf x r hi hanswer hdir h fun f hf => ?_
  exact kept_own ha hanswer (not_breaks_of_quiet hc) (h f hf)

/-- What is kept over a call that breaks none of the facts. -/
theorem known_next {c : SysCall} {r : c.Reply} (ha : Allowed t c x.1)
    (hanswer : x.1.answers t c r = true) (hc : ∀ f ∈ l, c ∉ breaks f) (h : facts.Known l t x) :
    facts.Known l t (next t c r x) :=
  fun f hf => kept_own ha hanswer (hc f hf) (h f hf)

/-- A value at the end. -/
theorem wp_ret {a : α} {Q : α → World × OutputDir → Prop} (h : facts.Known l t x)
    (hQ : ∀ x, facts.Known l t x → Q a x) : contract.wp t (.ret a) Q X x :=
  fun y hr hi => hQ y (quiet.known x y hr hi h)

end

end OwnFiles

end SurfCam

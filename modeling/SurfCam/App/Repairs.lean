import Mathlib.Data.Finset.Card
import SurfCam.App.Recovery
import SurfCam.Camera.Locks
import SurfCam.Logic.Facts

/-!
# How often the camera is reinitialized

An HLS worker whose `startVideoMode` has returned false sets `cameraRecoveryNeeded`, and
`streamCheckWorker` takes the flag before it calls `reinitialize`.  Nobody else writes the flag.
The starts are counted when they return; the flag then owes one request to each that is reported.
-/

namespace SurfCam

open Interaction CameraManager Contract

namespace Repairs

structure Past where
  /-- the calls of `startVideoMode` that have returned false in an HLS worker -/
  failed : Nat
  /-- the requests that `streamCheckWorker` has taken -/
  taken : Nat
  /-- the calls of `reinitialize` that have got `cameraOpsMutex_` -/
  entered : Nat
  starts : Starts

-- The teardown inside `reinitialize` takes `cameraOpsMutex_` too, but it owns
-- `videoTeardownMutex_` when it does.
def checkAfter (w : World) : (c : SysCall) → c.Reply → Past → Past
  | .exchange .cameraRecoveryNeeded _, true, past => { past with taken := past.taken + 1 }
  | .lock .cameraOpsMutex_, _, past =>
    if w.owner .videoTeardownMutex_ = some .check then past
    else { past with entered := past.entered + 1 }
  | _, _, past => past

def pastAfter (legacy : Bool) (w : World) (t : Tid) (c : SysCall) (r : c.Reply) (past : Past) :
    Past :=
  match t with
  | .hls n =>
    let starts := past.starts.after legacy (.hls n) c r
    { past with
      failed := past.failed + (starts.failed n).toNat
      starts := starts }
  | .check => checkAfter w c r past
  | _ => past

def see (legacy : Bool) (w : World) : Label Sys Tid Signal → Past → Past
  | .act t c r, past => pastAfter legacy w t c r past
  | _, past => past

/-! ## What a thread knows -/

inductive Fact where
  /-- `streamCheckWorker` has taken a request and not called `reinitialize` for it yet -/
  | owed
  /-- it is inside `stopVideoMode` -/
  | tearing
  /-- this is left of the start of an HLS worker -/
  | left (start : Option (Prog Sys Bool))

def facts : Facts Fact Tid (World × Past)
  | .owed, t, x => t = .check ∧ x.2.entered < x.2.taken
  | .tearing, t, x => t = .check ∧ x.1.owner .videoTeardownMutex_ = some .check
  | .left start, t, x => ∃ n, t = .hls n ∧ x.2.starts n = start

/-- The calls that write the request. -/
def writers : List SysCall :=
  [.store .cameraRecoveryNeeded true, .store .cameraRecoveryNeeded false,
    .exchange .cameraRecoveryNeeded true, .exchange .cameraRecoveryNeeded false]

/-- The calls of `streamCheckWorker` that matter here. -/
def strict : List SysCall :=
  writers ++ [.lock .cameraOpsMutex_, .unlock .videoTeardownMutex_]

/-- What a call requires. -/
structure Allowed (t : Tid) (c : SysCall) (x : World × Past) : Prop where
  request : c ∈ writers → t = .check ∧ c = .exchange .cameraRecoveryNeeded false ∨
    ∃ n, t = .hls n ∧ c = .store .cameraRecoveryNeeded true ∧ x.2.starts.failed n = true
  report : ∀ n, t = .hls n → x.2.starts.failed n = true → c = .store .cameraRecoveryNeeded true
  enters : t = .check → c = .lock .cameraOpsMutex_ →
    x.1.owner .videoTeardownMutex_ = some .check ∨ x.2.entered < x.2.taken

/-- Every request that was taken or is pending is that of a start of its own, and so will be the
requests of the workers that have still to report theirs. -/
structure Sound (x : World × Past) : Prop where
  taken : ∃ unreported : Finset Nat, (∀ n, n ∈ unreported ↔ x.2.starts.failed n = true) ∧
    x.2.taken + (x.1.flag .cameraRecoveryNeeded).toNat + unreported.card ≤ x.2.failed
  entered : x.2.entered ≤ x.2.taken

abbrev Quiet (c : SysCall) : Prop := c ∉ strict

section

variable {legacy : Bool} {t u : Tid} {c : SysCall} {r : c.Reply} {x : World × Past}

theorem writer_of_strict (h : c ∈ writers) : c ∈ strict := List.mem_append_left _ h

theorem flag_of_not_writer (hc : c ∉ writers) :
    (x.1.after t c r).flag .cameraRecoveryNeeded = x.1.flag .cameraRecoveryNeeded := by
  apply World.flag_after
  · rintro value rfl
    cases value <;> exact hc (by decide)
  · rintro value rfl
    cases value <;> exact hc (by decide)

theorem starts_pastAfter :
    (pastAfter legacy x.1 t c r x.2).starts = x.2.starts.after legacy t c r := by
  cases t with
  | check =>
    show (checkAfter x.1 c r x.2).starts = x.2.starts
    unfold checkAfter
    split
    · rfl
    · split <;> rfl
    · rfl
  | _ => rfl

/-- Only these two calls of `streamCheckWorker` are counted. -/
theorem checkAfter_of_ne (hc : ∀ value, c ≠ .exchange .cameraRecoveryNeeded value)
    (hlock : c ≠ .lock .cameraOpsMutex_) : checkAfter x.1 c r x.2 = x.2 := by
  unfold checkAfter
  split
  · exact absurd rfl (hc _)
  · exact absurd rfl hlock
  · rfl

theorem checkAfter_of_quiet (hc : Quiet c) : checkAfter x.1 c r x.2 = x.2 := by
  apply checkAfter_of_ne
  · rintro value rfl
    cases value <;> exact hc (by decide)
  · rintro rfl
    exact hc (by decide)

/-- The others add nothing to what `streamCheckWorker` has done, nor do its own quiet calls. -/
theorem past_of_quiet (hc : t = .check → Quiet c) :
    (pastAfter legacy x.1 t c r x.2).taken = x.2.taken ∧
      (pastAfter legacy x.1 t c r x.2).entered = x.2.entered := by
  cases t with
  | check =>
    have hpast : pastAfter legacy x.1 .check c r x.2 = x.2 := checkAfter_of_quiet (hc rfl)
    rw [hpast]
    exact ⟨rfl, rfl⟩
  | _ => exact ⟨rfl, rfl⟩

theorem kept_of_quiet (hc : t = .check → u = .check → Quiet c) (hne : ∀ n, t = .hls n → u ≠ t)
    (hanswer : x.1.answers u c r = true) :
    facts.Kept t x (x.1.after u c r, pastAfter legacy x.1 u c r x.2) := by
  intro f hf
  cases f with
  | owed =>
    obtain ⟨ht, howed⟩ := hf
    obtain ⟨htaken, hentered⟩ := past_of_quiet (r := r) (x := x) (hc ht)
    refine ⟨ht, ?_⟩
    rw [htaken, hentered]
    exact howed
  | tearing =>
    obtain ⟨ht, howner⟩ := hf
    refine ⟨ht, World.owner_kept nofun howner hanswer ?_⟩
    rintro rfl rfl
    exact hc ht rfl (by decide)
  | left start =>
    obtain ⟨n, rfl, hstart⟩ := hf
    refine ⟨n, rfl, ?_⟩
    rw [starts_pastAfter, Starts.after_of_ne (hne n rfl)]
    exact hstart

/-- A set of workers follows a predicate that changes at one of them. -/
theorem card_follows {s : Finset Nat} {p q : Nat → Bool} {n : Nat}
    (hs : ∀ m, m ∈ s ↔ p m = true) (hq : ∀ m, m ≠ n → q m = p m) :
    ∃ s' : Finset Nat, (∀ m, m ∈ s' ↔ q m = true) ∧
      s'.card + (p n).toNat = s.card + (q n).toNat := by
  have hmem : ∀ m, m ≠ n → (m ∈ s ↔ q m = true) := fun m hm => by rw [hs, hq m hm]
  have herase : (s.erase n).card + (p n).toNat = s.card := by
    cases hn : p n with
    | false =>
      have hnot : n ∉ s := fun h => Bool.noConfusion (hn.symm.trans ((hs n).mp h))
      rw [Finset.erase_eq_of_notMem hnot]
      rfl
    | true => exact Finset.card_erase_add_one ((hs n).mpr hn)
  cases hn : q n with
  | false =>
    refine ⟨s.erase n, fun m => ?_, herase⟩
    rw [Finset.mem_erase]
    by_cases hm : m = n
    · simp [hm, hn]
    · rw [hmem m hm]
      simp [hm]
  | true =>
    refine ⟨insert n (s.erase n), fun m => ?_, ?_⟩
    · rw [Finset.mem_insert, Finset.mem_erase]
      by_cases hm : m = n
      · simp [hm, hn]
      · rw [hmem m hm]
        simp [hm]
    · rw [Finset.card_insert_of_notMem (Finset.notMem_erase n s), Bool.toNat_true]
      omega

/-- A start that fails is counted, and its report is the next call of its worker. -/
theorem sound_of_hls {n : Nat} (hi : Sound x) (ha : Allowed (.hls n) c x) :
    Sound (x.1.after (.hls n) c r, pastAfter legacy x.1 (.hls n) c r x.2) where
  taken := by
    obtain ⟨unreported, hmem, htaken⟩ := hi.taken
    obtain ⟨unreported', hmem', hcard⟩ :=
      card_follows (q := (x.2.starts.after legacy (.hls n) c r).failed) (n := n) hmem
        fun m hm => Starts.failed_after_of_ne fun he => hm (by cases he; rfl)
    refine ⟨unreported', hmem', ?_⟩
    show x.2.taken + ((x.1.after (.hls n) c r).flag .cameraRecoveryNeeded).toNat +
      unreported'.card ≤ x.2.failed + ((x.2.starts.after legacy (.hls n) c r).failed n).toNat
    by_cases hfailed : x.2.starts.failed n = true
    -- the flag may have been set already, so two reports may become one request
    · have hle := Bool.toNat_le ((x.1.after (.hls n) c r).flag .cameraRecoveryNeeded)
      rw [hfailed, Bool.toNat_true] at hcard
      omega
    · have hw : c ∉ writers := by
        intro hw
        obtain ⟨he, -⟩ | ⟨m, he, -, h⟩ := ha.request hw
        · cases he
        · cases he
          exact hfailed h
      rw [flag_of_not_writer hw]
      rw [Bool.eq_false_iff.mpr hfailed, Bool.toNat_false] at hcard
      omega
  entered := hi.entered

/-- The exchange moves a pending request to the taken ones. -/
theorem sound_of_check (hi : Sound x) (ha : Allowed .check c x)
    (hanswer : x.1.answers .check c r = true) :
    Sound (x.1.after .check c r, pastAfter legacy x.1 .check c r x.2) := by
  obtain ⟨⟨unreported, hmem, htaken⟩, hentered⟩ := hi
  by_cases hw : c ∈ writers
  · obtain ⟨-, rfl⟩ | ⟨n, he, -⟩ := ha.request hw
    · have hreply : r = x.1.flag .cameraRecoveryNeeded :=
        of_decide_eq_true (World.shared_of_answers hanswer)
      have hflag : (x.1.after .check (.exchange .cameraRecoveryNeeded false) r).flag
          .cameraRecoveryNeeded = false := by
        show Function.update x.1.flag .cameraRecoveryNeeded false .cameraRecoveryNeeded = false
        rw [Function.update_self]
      rw [← hreply] at htaken
      cases r with
      | false => exact ⟨⟨unreported, hmem, by rw [hflag]; exact htaken⟩, hentered⟩
      | true => exact ⟨⟨unreported, hmem, by rw [hflag]; exact htaken⟩, Nat.le_succ_of_le hentered⟩
    · cases he
  have hflag := flag_of_not_writer (t := .check) (r := r) (x := x) hw
  rw [← hflag] at htaken
  by_cases hlock : c = .lock .cameraOpsMutex_
  · subst hlock
    -- inside the teardown the lock is not the one of `reinitialize`
    by_cases htearing : x.1.owner .videoTeardownMutex_ = some .check
    · have hpast : pastAfter legacy x.1 .check (.lock .cameraOpsMutex_) r x.2 = x.2 :=
        if_pos htearing
      rw [hpast]
      exact ⟨⟨unreported, hmem, htaken⟩, hentered⟩
    · have hpast : pastAfter legacy x.1 .check (.lock .cameraOpsMutex_) r x.2 =
          { x.2 with entered := x.2.entered + 1 } := if_neg htearing
      rw [hpast]
      exact ⟨⟨unreported, hmem, htaken⟩, (ha.enters rfl rfl).resolve_left htearing⟩
  · have hpast : pastAfter legacy x.1 .check c r x.2 = x.2 := by
      refine checkAfter_of_ne (fun value he => hw ?_) hlock
      subst he
      cases value <;> decide
    rw [hpast]
    exact ⟨⟨unreported, hmem, htaken⟩, hentered⟩

theorem sound_after (hi : Sound x) (ha : Allowed t c x) (hanswer : x.1.answers t c r = true) :
    Sound (x.1.after t c r, pastAfter legacy x.1 t c r x.2) := by
  have hother : t ≠ .check → (∀ n, t ≠ .hls n) → pastAfter legacy x.1 t c r x.2 = x.2 →
      Sound (x.1.after t c r, pastAfter legacy x.1 t c r x.2) := by
    intro hcheck hhls hpast
    have hw : c ∉ writers := by
      intro hw
      obtain ⟨he, -⟩ | ⟨n, he, -⟩ := ha.request hw
      · exact hcheck he
      · exact hhls n he
    obtain ⟨unreported, hmem, htaken⟩ := hi.taken
    rw [← flag_of_not_writer (t := t) (r := r) (x := x) hw] at htaken
    rw [hpast]
    exact ⟨⟨unreported, hmem, htaken⟩, hi.entered⟩
  cases t with
  | hls n => exact sound_of_hls hi ha
  | check => exact sound_of_check hi ha hanswer
  | _ => exact hother (by simp) (by simp) rfl

end

def contract (legacy : Bool) : Contract (system.watched (see legacy)) anyStep :=
  facts.contract Sound Allowed
    (fun hi ha _ hact => by
      obtain ⟨hanswer, rfl⟩ := watched_system_act.mp hact
      exact sound_after hi ha hanswer)
    (fun hi _ henv => by
      obtain ⟨w, hw, rfl⟩ := watched_env.mp henv
      cases hw
      exact ⟨hi.taken, hi.entered⟩)
    (fun htu _ _ _ hact => by
      obtain ⟨hanswer, rfl⟩ := watched_system_act.mp hact
      exact kept_of_quiet (fun ht hu => absurd (ht.trans hu.symm) htu) (fun _ _ => htu.symm) hanswer)
    (fun _ _ henv f hf => by
      obtain ⟨w, hw, rfl⟩ := watched_env.mp henv
      cases hw
      cases f <;> exact hf)

section

variable {legacy : Bool} {c : SysCall} {x : World × Past} {α : Type} {l : List Fact}
  {f : c.Reply → Prog Sys α} {Q : α → World × Past → Prop} {X : World × Past → Prop}

theorem allowed_of_quiet (hc : Quiet c) : Allowed .check c x where
  request hw := absurd (writer_of_strict hw) hc
  report _ := nofun
  enters _ he := absurd (he ▸ by decide) hc

theorem quiet : facts.Quiet (contract legacy) .check Quiet where
  rely hr := hr
  pre hc _ := allowed_of_quiet hc
  act {c r x y} hc _ hact := by
    obtain ⟨hanswer, rfl⟩ := watched_system_act.mp hact
    have hkept : facts.Kept .check x
        (x.1.after .check c r, pastAfter legacy x.1 .check c r x.2) :=
      kept_of_quiet (fun _ _ => hc) (fun _ hn => by cases hn) hanswer
    exact hkept

/-- A call that `streamCheckWorker` may make, in front of the rest. -/
theorem wp_allowed (ha : ∀ x, facts.Known l .check x → Allowed .check c x)
    (h : facts.Known l .check x)
    (hf : ∀ (x : World × Past) (r : c.Reply), Sound x → facts.Known l .check x →
      (contract legacy).wp .check (f r) Q X
        (x.1.after .check c r, pastAfter legacy x.1 .check c r x.2)) :
    (contract legacy).wp .check (sys c >>= f) Q X x := by
  refine wp_call_of quiet.known h fun x hi h => ⟨ha x h, fun r y _ hact => ?_⟩
  obtain ⟨-, rfl⟩ := watched_system_act.mp hact
  exact hf x r hi h

end

/-! ## streamCheckWorker -/

section

variable {legacy : Bool} {x : World × Past}

/-- What does not happen inside the scope of `stopVideoMode`. -/
def outer : List SysCall := .unlock .videoTeardownMutex_ :: writers

abbrev Inner (c : SysCall) : Prop := c ∉ outer

theorem keeps_tearing {α : Type} {p : Prog Sys α} (hp : p.Built Inner Prog.noParts) :
    (contract legacy).Keeps .check (facts.Known [.tearing] .check) p := by
  apply keeps_of_built quiet.known _ (fun _ _ h => h.elim) hp
  intro c hc x _ h
  have hunlock : c ≠ .unlock .videoTeardownMutex_ := List.ne_of_not_mem_cons hc
  have hw : c ∉ writers := List.not_mem_of_not_mem_cons hc
  have htearing : facts .tearing .check x := h .tearing List.mem_cons_self
  refine ⟨⟨fun hmem => absurd hmem hw, fun _ => nofun, fun _ _ => .inl htearing.2⟩, fun r y _ hact => ?_⟩
  obtain ⟨hanswer, rfl⟩ := watched_system_act.mp hact
  exact Facts.known_nil.learn
    ⟨rfl, World.owner_kept nofun htearing.2 hanswer fun he => absurd he hunlock⟩

theorem built_teardown : (teardown legacy).Built Inner Prog.noParts := by
  have hS : ∀ c, stopCall c = true → Inner c := not_mem_of (by decide)
  have hshutdown : shutdownGstreamerPipeline.Built Inner Prog.noParts :=
    built_shutdownGstreamerPipeline (not_mem_of (by decide)) (by decide) (by decide)
  have hclear : clearRequests.Built Inner Prog.noParts :=
    built_lockGuard (by decide) (by decide) (.call (by decide))
  have hallocator : resetAllocator.Built Inner Prog.noParts :=
    built_lockGuard (by decide) (by decide) (.call (by decide))
  exact .bind (built_disconnectVideoRequestSlot hS) fun _ =>
    .bind (built_stopCameraIfRunning hS) fun _ =>
      .bind (built_lockGuard (by decide) (by decide) (.bind hclear fun _ => hshutdown)) fun _ =>
        hallocator

theorem keeps_stopVideoMode :
    (contract legacy).Keeps .check (facts.Known [] .check) (stopVideoMode legacy) := by
  have hbest : (bestEffortVideoTeardownWhileHoldingTeardownLock legacy).Built Inner
      Prog.noParts :=
    .bind (.call (by decide)) fun _ => .bind (.call (by decide)) fun _ =>
      .bind (.tryCatch built_teardown (.ret _)) fun _ => .call (by decide)
  refine keeps_lockGuard (B := facts.Known [.tearing] .check) quiet.known quiet.known ?_ ?_ ?_
  · refine fun x _ _ => ⟨allowed_of_quiet (by decide), fun r y _ hact => ?_⟩
    obtain ⟨-, rfl⟩ := watched_system_act.mp hact
    exact Facts.known_nil.learn ⟨rfl, World.owner_after_lock⟩
  · exact fun x _ _ => ⟨⟨fun hw => absurd hw (by decide), fun _ => nofun, nofun⟩,
      fun _ _ _ _ => Facts.known_nil⟩
  · apply keeps_tearing
    exact .bind (.call (by decide)) fun _ => .ite (.ret _) <| .tryCatch
      (.bind (.call (by decide)) fun _ => .bind (.call (by decide)) fun _ =>
        .bind built_teardown fun _ => .bind (.call (by decide)) fun _ =>
          .bind (.call (by decide)) fun _ => .ret _)
      (.bind hbest fun _ => .ret _)

/-- A call of `reinitialize` uses up a request. -/
theorem wp_reinitializeCamera (h : facts.Known [.owed] .check x) :
    (contract legacy).wp .check (reinitializeCamera legacy) (fun _ => facts.Known [] .check)
      (facts.Known [] .check) x := by
  have hA : ∀ c, acquireCall c = true → Quiet c := not_mem_of (by decide)
  have hS : ∀ c, stopCall c = true → Quiet c := not_mem_of (by decide)
  refine wp_allowed (fun x h => ⟨fun hw => absurd hw (by decide), fun _ => nofun, fun _ _ => ?_⟩) h
    fun x _ _ _ => ?_
  · have howed : facts .owed .check x := h .owed List.mem_cons_self
    exact .inr howed.2
  refine quiet.wp_ensuring (K := fun _ => []) (.call (by decide)) (.call _) ?_
  refine quiet.keeps (X := Prog.onlyPart (stopVideoMode legacy)) ?_ ?_ _ Facts.known_nil
  · rintro α p ⟨rfl, rfl⟩
    exact keeps_stopVideoMode
  have hstop : (stopVideoModeUnlocked legacy).Built Quiet (Prog.onlyPart (stopVideoMode legacy)) :=
    .bind (.call (by decide)) fun _ => .bind .self fun _ => .call (by decide)
  have hrelease : (releaseCamera legacy).Built Quiet (Prog.onlyPart (stopVideoMode legacy)) :=
    built_releaseCamera hA (built_stopCameraIfRunning hS)
  have hallocator : resetAllocator.Built Quiet (Prog.onlyPart (stopVideoMode legacy)) :=
    built_lockGuard (by decide) (by decide) (.call (by decide))
  have hshutdown : shutdownGstreamerPipeline.Built Quiet (Prog.onlyPart (stopVideoMode legacy)) :=
    built_shutdownGstreamerPipeline (not_mem_of (by decide)) (by decide) (by decide)
  exact .bind (.call (by decide)) fun _ => .bind (.when _ hstop) fun _ => .tryCatch
    (.bind hrelease fun _ => .bind hallocator fun _ => .bind hshutdown fun _ =>
      .bind (built_acquireCamera hA) fun _ => .ite (.bind (.call (by decide)) fun _ => .ret _) <|
        .bind (.call (by decide)) fun _ => .bind (.call (by decide)) fun _ =>
          .bind (.call (by decide)) fun _ => .bind (.call (by decide)) fun _ => .ret _)
    (.bind (.call (by decide)) fun _ => .ret _)

theorem keeps_recoverCamera :
    (contract legacy).Keeps .check (facts.Known [] .check) (App.recoverCamera legacy) := by
  have hX : ∀ x, facts.Known [.owed] .check x → facts.Known [] .check x :=
    fun _ _ => Facts.known_nil
  intro x h
  refine wp_allowed (fun x _ => ⟨fun _ => .inl ⟨rfl, rfl⟩, fun _ => nofun, fun _ => nofun⟩) h
    fun x taken hi _ => ?_
  cases taken with
  | false => exact fun _ _ _ => Facts.known_nil
  | true =>
  have howed : facts.Known [.owed] .check
      (x.1.after .check (.exchange .cameraRecoveryNeeded false) true,
        pastAfter legacy x.1 .check (.exchange .cameraRecoveryNeeded false) true x.2) :=
    Facts.known_nil.learn ⟨rfl, Nat.lt_succ_of_le hi.entered⟩
  refine quiet.wp hX howed (.call (by decide)) fun on x h => ?_
  cases on with
  | false => exact fun _ _ _ => Facts.known_nil
  | true =>
  have hstop : App.stopHlsStreamSession.Built Quiet Prog.noParts :=
    App.built_stopHlsStreamSession (not_mem_of (by decide)) (by decide)
  refine quiet.wp hX h hstop fun _ x h => ?_
  refine wp_bind_of (wp_reinitializeCamera h) fun done x _ h => ?_
  exact quiet.wp_end (fun _ _ => Facts.known_nil) h (.when _ (.call (by simp [Quiet, strict, writers])))

theorem keeps_checkBody (pc : CheckPc) :
    (contract legacy).Keeps .check (facts.Known [] .check) (checkBody legacy pc) := by
  have hW : ∀ c, App.workerCall c = true → Quiet c := not_mem_of (by decide)
  apply quiet.keeps (X := Prog.onlyPart (App.recoverCamera legacy))
  · rintro α p ⟨rfl, rfl⟩
    exact keeps_recoverCamera
  · exact built_checkBody legacy (by decide) (App.built_checkTurn hW (by decide) (by decide)
      (by decide) .self (App.built_followDecision hW (by decide) (by decide) (by decide))) pc

end

/-! ## The other threads -/

section

variable {legacy : Bool} {t : Tid} {n : Nat} {x : World × Past}

/-- The calls of the threads besides `streamCheckWorker`, but for the reports. -/
abbrev Silent (c : SysCall) : Prop := c ∉ writers

theorem observed :
    Starts.Observed (contract legacy) legacy (fun x => x.2.starts) n Silent where
  rely x x' hr _ := by
    obtain ⟨m, hm, hstarts⟩ := hr (.left (x.2.starts n)) ⟨n, rfl, rfl⟩
    cases hm
    exact hstarts
  act hact := by
    obtain ⟨-, rfl⟩ := watched_system_act.mp hact
    exact starts_pastAfter
  pre c x hc _ hfailed := by
    refine ⟨fun hw => absurd hw hc, fun m hm h => ?_, nofun⟩
    cases hm
    exact Bool.noConfusion (hfailed.symm.trans h)
  report x _ hfailed := ⟨fun _ => .inr ⟨n, rfl, rfl, hfailed⟩, fun _ _ _ => rfl, nofun⟩

theorem wp_hlsBody {pc : LoopPc} (h : x.2.starts.Apart n) :
    (contract legacy).wp (.hls n) (hlsBody legacy pc) (fun _ x => x.2.starts.Apart n)
      (fun _ => True) x :=
  Starts.wp_hlsBody observed (not_mem_of (by decide)) (not_mem_of (by decide)) (by decide)
    (by decide) (by decide) (by decide) (by decide) h

theorem not_writer_of_threadCall {c : SysCall} (h : threadCall t c = true) : c ∉ writers := by
  rintro hw
  cases c with
  | store f value =>
    rw [store_of_threadCall h] at hw
    cases value <;> exact absurd hw (by decide)
  | exchange f value =>
    rw [exchange_of_threadCall h] at hw
    cases value <;> exact absurd hw (by decide)
  | _ => simp [writers] at hw

theorem silent_body (hcheck : t ≠ .check) (hhls : ∀ n, t ≠ .hls n) (hcaller : ∀ n, t ≠ .caller n)
    (pc : t.Pc) : ((code legacy).body t pc).Built Silent Prog.noParts := by
  have hM : ∀ c, modeCall c = true → Silent c := not_mem_of (by decide)
  have hA : ∀ c, acquireCall c = true → Silent c := not_mem_of (by decide)
  refine built_appBody (not_mem_of (by decide)) (fun _ => not_writer_of_threadCall)
    (fun _ => ⟨?_, built_destroyed hM hA⟩) (fun _ => built_photo hM) (fun ht => absurd ht hcheck)
    (fun n hn => absurd hn (hhls n)) (fun _ => not_mem_of (by decide))
    (fun _ _ => not_mem_of (by decide)) hcaller pc
  exact built_initializeCamera hA (by decide) (by decide) (by decide)

theorem wp_silent {α : Type} {p : Prog Sys α} (hcheck : t ≠ .check) (hhls : ∀ n, t ≠ .hls n)
    (hp : p.Built Silent Prog.noParts) :
    (contract legacy).wp t p (fun _ _ => True) (fun _ => True) x :=
  wp_of_built hp fun _ hc _ _ =>
    ⟨fun hw => absurd hw hc, fun n hn => absurd hn (hhls n), fun he => absurd he hcheck⟩

end

/-- What holds at the loop heads. -/
def holds : Tid → World × Past → Prop
  | .hls n, x => x.2.starts.Apart n
  | .caller _, _ => False
  | _, _ => True

def proof (legacy : Bool) : (contract legacy).Proof (code legacy) where
  holds t _ := holds t
  body t pc x _ h := by
    have hbody : t ≠ .check → (∀ n, t ≠ .hls n) → (∀ n, t ≠ .caller n) →
        (contract legacy).wp t ((code legacy).body t pc) (fun _ _ => True) (fun _ => True) x :=
      fun hcheck hhls hcaller => wp_silent hcheck hhls (silent_body hcheck hhls hcaller pc)
    cases t with
    | check =>
      exact wp_mono (keeps_checkBody pc x Facts.known_nil) (fun _ _ _ _ _ _ => trivial)
        fun _ _ _ => trivial
    | hls n => exact wp_mono (wp_hlsBody h) (fun _ _ _ h _ _ => h) fun _ _ _ => trivial
    | caller n => exact h.elim
    | _ =>
      exact wp_mono (hbody nofun (fun _ => nofun) fun _ => nofun)
        (fun _ _ _ _ _ _ => trivial) fun _ _ h => h

def start : World × Past := (.init, ⟨0, 0, 0, fun _ => none⟩)

theorem valid_start (legacy : Bool) : (proof legacy).Valid ⟨start, (appStart legacy).prog⟩ := by
  have hsound : Sound start := by
    refine ⟨⟨∅, fun n => ?_, Nat.le_refl 0⟩, Nat.le_refl 0⟩
    exact iff_of_false (Finset.notMem_empty n) Bool.false_ne_true
  apply valid_appStart _ hsound
  case hhls =>
    intro n x hr hi
    left
    exact observed.rely _ x hr hi
  all_goals
    intros
    trivial

/-- The calls of `reinitialize` made so far, with the one that waits for `cameraOpsMutex_`. -/
def reinitializations {legacy : Bool} (cfg : Config (code legacy) (World × Past)) : Nat :=
  cfg.world.2.entered +
    if cfg.pending .check = some (.lock .cameraOpsMutex_) ∧
      cfg.world.1.owner .videoTeardownMutex_ ≠ some .check then 1 else 0

end Repairs

/-- At every moment of every run there have been at most as many calls of `reinitialize` as calls of
`startVideoMode` that returned false in an HLS worker. -/
theorem App.reinitializations_le {legacy : Bool}
    {cfg : Config (code legacy) (World × Repairs.Past)}
    (hrun : Run (system.watched (Repairs.see legacy)) anyStep
      ⟨Repairs.start, (appStart legacy).prog⟩ cfg) :
    Repairs.reinitializations cfg ≤ cfg.world.2.failed := by
  have hvalid := (Repairs.proof legacy).sound (Repairs.valid_start legacy) hrun
  obtain ⟨unreported, -, htaken⟩ := hvalid.inv.taken
  have hentered := hvalid.inv.entered
  unfold Repairs.reinitializations
  by_cases hpending : cfg.pending .check = some (.lock .cameraOpsMutex_) ∧
      cfg.world.1.owner .videoTeardownMutex_ ≠ some .check
  · rw [if_pos hpending]
    -- the call that waits for the mutex is owed too
    have howed := ((hvalid.pre hpending.1).enters rfl rfl).resolve_left hpending.2
    omega
  · rw [if_neg hpending]
    omega

theorem App.reinitializations_le_refused :
    ∃ cfg : Config (code false) (World × Repairs.Past),
      (cfg.world.2.failed = 1 ∧ cfg.world.2.taken = 1 ∧ cfg.world.2.entered = 1) ∧
        Repairs.reinitializations cfg ≤ cfg.world.2.failed := by
  obtain ⟨cfg, hrun, htest⟩ := exec_reaches (system.watched (Repairs.see false))
    (fun _ _ => true) ⟨Repairs.start, (appStart false).prog⟩ (Recovery.refusedAttempt Prod.fst)
    (fun cfg => cfg.world.2.failed = 1 ∧ cfg.world.2.taken = 1 ∧ cfg.world.2.entered = 1)
    (by decide +kernel)
  exact ⟨cfg, of_decide_eq_true htest, App.reinitializations_le (hrun.mono fun _ _ _ => trivial)⟩

end SurfCam

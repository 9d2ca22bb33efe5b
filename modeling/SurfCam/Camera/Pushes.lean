import SurfCam.Camera.LockOrder
import SurfCam.Logic.Facts
import SurfCam.Logic.Watch

/-!
# What frames are pushed into

A slot pushes frames while it owns `pipelinePushMutex_`, and a teardown owns the same mutex from the
state change to NULL until `appsrc_` is null.  The start writes `appsrc_` without it, but only while
the camera is not running.
-/

namespace SurfCam

open Interaction CameraManager Contract

namespace Pushes

/-- What has happened to the last pipeline that was made. -/
structure Past where
  /-- `appsrc_` was made for it -/
  sourced : Bool
  /-- `initializeGstreamerPipeline` has come to its `return true` -/
  returned : Bool
  /-- `shutdownGstreamerPipeline` has set it to NULL -/
  nulled : Bool
  /-- the thread that is between that and `appsrc_ = nullptr` -/
  closing : Option Tid
  deriving DecidableEq

def pastAfter (t : Tid) : SysCall → Past → Past
  | .assign .pipeline_ true, past => { past with sourced := false, returned := false, nulled := false }
  | .assign .appsrc_ true, past => { past with sourced := true }
  | .assign .appsrc_ false, past =>
    { past with closing := if past.closing = some t then none else past.closing }
  | .store .gstPipelineError_ false, past => { past with returned := true }
  | .setState .null, past => { past with nulled := true, closing := some t }
  | _, past => past

def see (_ : World) : Label Sys Tid Signal → Past → Past
  | .act t c _, past => pastAfter t c past
  | _, past => past

/-- What libcamera and GStreamer promise: a running camera is not configured, and a pipeline that is
null is not set to PLAYING.  The callers take no pictures. -/
def promised (x : World × Past) : Label Sys Tid Signal → Bool
  | .act _ (.configure _) .ok => !x.1.device.running
  | .act _ (.setState .playing) true => x.1.ptr .pipeline_
  | .act _ .nextOperation op => op ≠ .takePicture
  | _ => true

/-- The last pipeline is the one that frames may be pushed into. -/
structure Live (past : Past) : Prop where
  sourced : past.sourced = true
  returned : past.returned = true
  nulled : past.nulled = false

/-! ## What a thread knows -/

/-- How far the last pipeline, which `appsrc_` belongs to, has come. -/
inductive Stage where
  | sourced
  | playable
  | live
  deriving DecidableEq

def Stage.Holds : Stage → Past → Prop
  | .sourced, past => past.sourced = true
  | .playable, past => past.sourced = true ∧ past.nulled = false
  | .live, past => Live past

/-- The pipeline has come so far, unless `appsrc_` is null or a thread is about to clear it. -/
def Upto (s : Stage) (x : World × Past) : Prop :=
  x.1.ptr .appsrc_ = true → x.2.closing = none → s.Holds x.2

/-- `pipeline_` is null, or not set to NULL. -/
def Emptied (x : World × Past) : Prop := x.1.ptr .pipeline_ = true → x.2.nulled = false

inductive Fact where
  | outside
  | owning
  | still
  | upto (s : Stage)
  | pushing
  | closing
  | emptied
  | handling
  | live
  deriving DecidableEq

/-- Most of it is known to the owner of a mutex only. -/
def facts : Facts Fact Tid (World × Past)
  | .outside, t, x => x.2.closing ≠ some t
  | .owning, t, x => x.1.owner .cameraOpsMutex_ = some t
  | .still, t, x => x.1.owner .cameraOpsMutex_ = some t ∧ x.1.device.running = false
  | .upto s, t, x => x.1.owner .cameraOpsMutex_ = some t ∧ Upto s x
  | .pushing, t, x => x.1.owner .pipelinePushMutex_ = some t
  | .closing, t, x => x.1.owner .pipelinePushMutex_ = some t ∧ x.2.closing = some t
  | .emptied, t, x => x.1.owner .pipelinePushMutex_ = some t ∧ Emptied x
  | .handling, t, x => t = .callback ∧ x.1.device.delivering.isSome = true
  | .live, t, x => t = .callback ∧ x.1.device.delivering.isSome = true ∧
      x.1.owner .pipelinePushMutex_ = some t ∧ Live x.2

/-- What a call requires. -/
structure Allowed (t : Tid) (c : SysCall) (x : World × Past) : Prop where
  starts : c = .cameraStart → x.1.owner .cameraOpsMutex_ = some t ∧ Upto .live x
  makes : c = .assign .pipeline_ true ∨ c = .assign .appsrc_ true →
    x.1.owner .cameraOpsMutex_ = some t ∧ x.1.device.running = false
  returns : c = .store .gstPipelineError_ false → x.1.device.running = false
  nulls : c = .setState .null → x.1.owner .pipelinePushMutex_ = some t ∧ t ≠ .callback
  clears : c = .assign .appsrc_ false → x.2.closing = some t → Emptied x
  unlocks : c = .unlock .pipelinePushMutex_ → x.2.closing ≠ some t
  delivers : c = .nextCompletion ∨ c = .completionDone → t = .callback
  pushes : c = .appSrcPushBuffer → Live x.2

structure Sound (x : World × Past) : Prop where
  running : x.1.device.delivering.isSome = true → x.1.device.running = true
  live : x.1.device.running = true → Upto .live x
  closing : ∀ u, x.2.closing = some u →
    x.1.owner .pipelinePushMutex_ = some u ∧ u ≠ .callback
  emptied : x.2.closing = none → Emptied x

section

variable {t u : Tid} {c : SysCall} {r : c.Reply} {x : World × Past} {past : Past}

theorem closing_of_after (h : (pastAfter t c past).closing = some u) :
    past.closing = some u ∨ u = t ∧ c = .setState .null := by
  unfold pastAfter at h
  split at h
  · exact .inl h
  · exact .inl h
  · -- `appsrc_ = nullptr`
    change (if past.closing = some _ then none else past.closing) = some u at h
    split at h
    · cases h
    · exact .inl h
  · exact .inl h
  · exact .inr ⟨(Option.some.inj h).symm, rfl⟩
  · exact .inl h

theorem not_closing_of_after (h : (pastAfter t c past).closing = none) :
    past.closing = none ∨ c = .assign .appsrc_ false := by
  unfold pastAfter at h
  split at h
  · exact .inl h
  · exact .inl h
  · exact .inr rfl
  · exact .inl h
  · cases h
  · exact .inl h

/-- A pipeline gets no further back but by a new one, or by the state change to NULL. -/
theorem Stage.Holds.after {s : Stage} (h : s.Holds past) (hmake : c ≠ .assign .pipeline_ true)
    (hnull : c ≠ .setState .null) : s.Holds (pastAfter t c past) := by
  unfold pastAfter
  split
  · contradiction
  · cases s with
    | sourced => rfl
    | playable => exact ⟨rfl, h.2⟩
    | live => exact ⟨rfl, h.returned, h.nulled⟩
  · cases s with
    | sourced => exact h
    | playable => exact h
    | live => exact ⟨h.sourced, h.returned, h.nulled⟩
  · cases s with
    | sourced => exact h
    | playable => exact h
    | live => exact ⟨h.sourced, rfl, h.nulled⟩
  · contradiction
  · exact h

theorem Upto.after {s : Stage} (h : Upto s x) (hpipeline : c ≠ .assign .pipeline_ true)
    (happsrc : c ≠ .assign .appsrc_ true) : Upto s (x.1.after t c r, pastAfter t c x.2) := by
  intro hset hclosing
  have hset' : x.1.ptr .appsrc_ = true := (World.ptr_of_after hset).resolve_right happsrc
  have hnull : c ≠ .setState .null := by
    rintro rfl
    cases hclosing
  cases not_closing_of_after hclosing with
  | inl hnone => exact (h hset' hnone).after hpipeline hnull
  | inr hc =>
    -- the thread that was closing has cleared `appsrc_`
    subst hc
    change Function.update x.1.ptr .appsrc_ false .appsrc_ = true at hset
    rw [Function.update_self] at hset
    cases hset

theorem Emptied.after (h : Emptied x) (hnull : c ≠ .setState .null) :
    Emptied (x.1.after t c r, pastAfter t c x.2) := by
  intro hset
  by_cases hmake : c = .assign .pipeline_ true
  · subst hmake
    rfl
  · have hnulled := h ((World.ptr_of_after hset).resolve_right hmake)
    show (pastAfter t c x.2).nulled = false
    unfold pastAfter
    split <;> first | contradiction | exact hnulled

/-- What the others know survives a call. -/
theorem kept_of_other (htu : t ≠ u) (hi : Sound x) (ha : Allowed u c x)
    (hanswer : x.1.answers u c r = true) :
    facts.Kept t x (x.1.after u c r, pastAfter u c x.2) := by
  have howner : ∀ m, m ≠ .completionMutex → x.1.owner m = some t →
      (x.1.after u c r).owner m = some t :=
    fun m hm h => World.owner_kept hm h hanswer fun _ => htu.symm
  have hops := howner .cameraOpsMutex_ (by decide)
  have hpush := howner .pipelinePushMutex_ (by decide)
  -- what the owner of a mutex does, another thread does not
  have hother : ∀ m, x.1.owner m = some t → x.1.owner m ≠ some u :=
    fun m h h' => htu (Option.some.inj (h.symm.trans h'))
  have hnull : x.1.owner .pipelinePushMutex_ = some t → c ≠ .setState .null :=
    fun h hc => hother _ h (ha.nulls hc).1
  have hmakes : x.1.owner .cameraOpsMutex_ = some t → ∀ {p}, p = .pipeline_ ∨ p = .appsrc_ →
      c ≠ .assign p true := by
    rintro h p (rfl | rfl) hc
    · exact hother _ h (ha.makes (.inl hc)).1
    · exact hother _ h (ha.makes (.inr hc)).1
  have hdelivering : t = .callback →
      (x.1.after u c r).device.delivering = x.1.device.delivering := by
    rintro rfl
    apply World.delivering_kept
    · exact fun hc => htu (ha.delivers (.inl hc)).symm
    · exact fun hc => htu (ha.delivers (.inr hc)).symm
  intro f hf
  cases f with
  | outside =>
    intro h
    cases closing_of_after h with
    | inl h => exact hf h
    | inr h => exact htu h.1
  | owning => exact hops hf
  | still =>
    refine ⟨hops hf.1, Bool.eq_false_iff.mpr fun h => ?_⟩
    cases World.running_of_after h with
    | inl h => exact Bool.false_ne_true (hf.2.symm.trans h)
    | inr hc => exact hother _ hf.1 (ha.starts hc).1
  | upto s => exact ⟨hops hf.1, hf.2.after (hmakes hf.1 (.inl rfl)) (hmakes hf.1 (.inr rfl))⟩
  | pushing => exact hpush hf
  | closing =>
    refine ⟨hpush hf.1, ?_⟩
    show (pastAfter u c x.2).closing = some t
    unfold pastAfter
    split
    · exact hf.2
    · exact hf.2
    · show (if x.2.closing = some u then none else x.2.closing) = some t
      rw [if_neg fun h => htu (Option.some.inj (hf.2.symm.trans h)), hf.2]
    · exact hf.2
    · exact absurd rfl (hnull hf.1)
    · exact hf.2
  | emptied => exact ⟨hpush hf.1, hf.2.after (hnull hf.1)⟩
  | handling => exact ⟨hf.1, hdelivering hf.1 ▸ hf.2⟩
  | live =>
    obtain ⟨ht, hd, howns, hlive⟩ := hf
    refine ⟨ht, hdelivering ht ▸ hd, hpush howns, ?_⟩
    have hmake : c ≠ .assign .pipeline_ true := fun hc =>
      -- the camera is running
      Bool.false_ne_true ((ha.makes (.inl hc)).2.symm.trans (hi.running hd))
    exact Stage.Holds.after (s := .live) hlive hmake (hnull howns)

/-- The invariant survives a call. -/
theorem sound_after (hi : Sound x) (ha : Allowed t c x) (hanswer : x.1.answers t c r = true) :
    Sound (x.1.after t c r, pastAfter t c x.2) where
  running h := by
    by_cases hn : c = .nextCompletion
    · subst hn
      have hd := World.device_of_answers hanswer
      simp only [World.deviceAnswers, Bool.and_eq_true] at hd
      exact hd.1.1.1.1
    by_cases hd : c = .completionDone
    · subst hd
      cases h
    · change (x.1.after t c r).device.delivering.isSome = true at h
      rw [World.delivering_kept hn hd] at h
      apply World.running_kept _ (hi.running h)
      rintro rfl
      -- a stop returns when nothing is being delivered
      have hstop : x.1.device.queued = [] ∧ x.1.device.delivering = none :=
        of_decide_eq_true (World.device_of_answers hanswer)
      rw [hstop.2] at h
      cases h
  live h := by
    by_cases hc : c = .cameraStart
    · subst hc
      exact (ha.starts rfl).2.after nofun nofun
    have hrunning := (World.running_of_after h).resolve_right hc
    have hmakes : ∀ {p}, p = .pipeline_ ∨ p = .appsrc_ → c ≠ .assign p true := by
      rintro p (rfl | rfl) hc
      · exact Bool.false_ne_true ((ha.makes (.inl hc)).2.symm.trans hrunning)
      · exact Bool.false_ne_true ((ha.makes (.inr hc)).2.symm.trans hrunning)
    exact (hi.live hrunning).after (hmakes (.inl rfl)) (hmakes (.inr rfl))
  closing u h := by
    cases closing_of_after h with
    | inr hc =>
      obtain ⟨rfl, rfl⟩ := hc
      exact ha.nulls rfl
    | inl hbefore =>
      obtain ⟨howner, hu⟩ := hi.closing u hbefore
      refine ⟨World.owner_kept nofun howner hanswer ?_, hu⟩
      rintro rfl rfl
      exact ha.unlocks rfl hbefore
  emptied h := by
    have hnull : c ≠ .setState .null := by
      rintro rfl
      cases h
    by_cases hnone : x.2.closing = none
    · exact (hi.emptied hnone).after hnull
    -- this thread was closing, and `pipeline_` is null
    have hc := (not_closing_of_after h).resolve_left hnone
    subst hc
    change (if x.2.closing = some t then none else x.2.closing) = none at h
    have hclosing : x.2.closing = some t := by
      by_contra hne
      rw [if_neg hne] at h
      contradiction
    exact (ha.clears rfl hclosing).after hnull

end

def contract : Contract (system.watched see) (fun x l => promised x l = true) :=
  facts.contract Sound Allowed
    (fun hi ha _ hact => by
      obtain ⟨hanswer, rfl⟩ := watched_system_act.mp hact
      exact sound_after hi ha hanswer)
    (fun hi _ henv => by
      obtain ⟨w, hsys, rfl⟩ := watched_env.mp henv
      cases hsys
      exact ⟨hi.running, hi.live, hi.closing, hi.emptied⟩)
    (fun htu hi ha _ hact => by
      obtain ⟨hanswer, rfl⟩ := watched_system_act.mp hact
      exact kept_of_other htu hi ha hanswer)
    (fun _ _ henv f hf => by
      obtain ⟨w, hsys, rfl⟩ := watched_env.mp henv
      cases hsys
      cases f <;> exact hf)

/-! ## Calls that change nothing -/

/-- The calls that change what a thread knows, or require something. -/
def loud : List SysCall :=
  [.unlock .cameraOpsMutex_, .unlock .pipelinePushMutex_, .cameraStart, .assign .pipeline_ true,
    .assign .appsrc_ true, .assign .appsrc_ false, .store .gstPipelineError_ false, .setState .null,
    .appSrcPushBuffer, .nextCompletion, .completionDone]

/-- Those that require more than that the thread is not closing. -/
def strict : List SysCall :=
  [.cameraStart, .assign .pipeline_ true, .assign .appsrc_ true, .store .gstPipelineError_ false,
    .setState .null, .appSrcPushBuffer, .nextCompletion, .completionDone]

abbrev Quiet (c : SysCall) : Prop := c ∉ loud

abbrev Loose (c : SysCall) : Prop := c ∉ strict

section

variable {t : Tid} {c : SysCall} {r : c.Reply} {x : World × Past} {S : List Fact}

theorem allowed_of_loose (hc : Loose c)
    (hclosing : c = .assign .appsrc_ false ∨ c = .unlock .pipelinePushMutex_ →
      x.2.closing ≠ some t) : Allowed t c x := by
  have hne : ∀ c' ∈ strict, c ≠ c' := fun c' hc' he => hc (he ▸ hc')
  constructor
  · exact fun he => absurd he (hne _ (by decide))
  · rintro (he | he)
    · exact absurd he (hne _ (by decide))
    · exact absurd he (hne _ (by decide))
  · exact fun he => absurd he (hne _ (by decide))
  · exact fun he => absurd he (hne _ (by decide))
  · exact fun he h => absurd h (hclosing (.inl he))
  · exact fun he => hclosing (.inr he)
  · rintro (he | he)
    · exact absurd he (hne _ (by decide))
    · exact absurd he (hne _ (by decide))
  · exact fun he => absurd he (hne _ (by decide))

theorem loose_of_quiet (hc : Quiet c) : Loose c := by
  have hsub : ∀ c' ∈ strict, c' ∈ loud := by decide
  exact fun h => hc (hsub c h)

theorem allowed_of_quiet (hc : Quiet c) : Allowed t c x := by
  apply allowed_of_loose (loose_of_quiet hc)
  rintro (rfl | rfl)
  · exact absurd (by decide) hc
  · exact absurd (by decide) hc

theorem kept_of_quiet (hc : Quiet c) (hanswer : x.1.answers t c r = true) :
    facts.Kept t x (x.1.after t c r, pastAfter t c x.2) := by
  have hne : ∀ c' ∈ loud, c ≠ c' := fun c' hc' he => hc (he ▸ hc')
  have hpast : pastAfter t c x.2 = x.2 := by
    unfold pastAfter
    split <;> first | exact absurd (by decide) hc | rfl
  have hops : x.1.owner .cameraOpsMutex_ = some t →
      (x.1.after t c r).owner .cameraOpsMutex_ = some t :=
    fun h => World.owner_kept (by decide) h hanswer fun he => absurd he (hne _ (by decide))
  have hpush : x.1.owner .pipelinePushMutex_ = some t →
      (x.1.after t c r).owner .pipelinePushMutex_ = some t :=
    fun h => World.owner_kept (by decide) h hanswer fun he => absurd he (hne _ (by decide))
  have hdelivering := @World.delivering_kept t c r x.1 (hne _ (by decide)) (hne _ (by decide))
  intro f hf
  cases f with
  | outside =>
    show (pastAfter t c x.2).closing ≠ some t
    rw [hpast]
    exact hf
  | owning => exact hops hf
  | still =>
    refine ⟨hops hf.1, Bool.eq_false_iff.mpr fun h => ?_⟩
    have hrunning := (World.running_of_after h).resolve_right (hne _ (by decide))
    exact Bool.false_ne_true (hf.2.symm.trans hrunning)
  | upto s => exact ⟨hops hf.1, hf.2.after (hne _ (by decide)) (hne _ (by decide))⟩
  | pushing => exact hpush hf
  | closing =>
    refine ⟨hpush hf.1, ?_⟩
    show (pastAfter t c x.2).closing = some t
    rw [hpast, hf.2]
  | emptied => exact ⟨hpush hf.1, hf.2.after (hne _ (by decide))⟩
  | handling => exact ⟨hf.1, hdelivering ▸ hf.2⟩
  | live =>
    refine ⟨hf.1, hdelivering ▸ hf.2.1, hpush hf.2.2.1, ?_⟩
    show Live (pastAfter t c x.2)
    rw [hpast]
    exact hf.2.2.2

/-- A loose call leaves no thread closing. -/
theorem outside_after (hc : Loose c) (h : x.2.closing ≠ some t) :
    (pastAfter t c x.2).closing ≠ some t := by
  intro hclosing
  cases closing_of_after hclosing with
  | inl hbefore => exact h hbefore
  | inr hnull => exact hc (hnull.2 ▸ by decide)

/-! ## Stretches of code -/

theorem fact_rely (f : Fact) (x x' : World × Past) (hr : contract.rely t x x')
    (_ : contract.inv x') (h : facts f t x) : facts f t x' := hr f h

theorem quiet : facts.Quiet contract t Quiet where
  rely hr := hr
  pre hc _ := allowed_of_quiet hc
  act hc _ hact := by
    obtain ⟨hanswer, rfl⟩ := watched_system_act.mp hact
    exact kept_of_quiet hc hanswer

theorem keeps_loose {α : Type} {X : ∀ α : Type, Prog Sys α → Prop} {p : Prog Sys α}
    (hX : ∀ α p, X α p → contract.Keeps t (facts .outside t) p) (hp : p.Built Loose X) :
    contract.Keeps t (facts .outside t) p := by
  apply keeps_of_built (fact_rely .outside) _ hX hp
  refine fun c hc x _ h => ⟨allowed_of_loose hc fun _ => h, fun r y _ hact => ?_⟩
  obtain ⟨hanswer, rfl⟩ := watched_system_act.mp hact
  exact outside_after hc h

end

/-! ## The teardown of a pipeline -/

section

variable {t : Tid} {x : World × Past}

/-- From `pipeline_ = nullptr` on. -/
theorem wp_clearAppsrc (h : facts.Known [.emptied, .closing] t x) :
    contract.wp t
      (do
        Prog.when (← sys (.isSet .loop_)) do
          sys .mainLoopUnref
          sys (.assign .loop_ false)
        sys (.assign .appsrc_ false)
        sys (.assign .hlssink_ false))
      (fun _ => facts.Known [.outside, .pushing] t) (fun _ => True) x := by
  refine quiet.wp (fun _ _ => trivial) h (.call (by decide)) fun _ x h => ?_
  have hloop : (sys .mainLoopUnref >>= fun _ => sys (.assign .loop_ false)).Built Quiet
      Prog.noParts := .bind (.call (by decide)) fun _ => .call (by decide)
  refine quiet.wp (fun _ _ => trivial) h (.when _ hloop) fun _ x h => ?_
  refine wp_call_of quiet.known h fun x hi h => ⟨?_, fun r y _ hact => ?_⟩
  · exact ⟨nofun, nofun, nofun, nofun, fun _ _ => (h .emptied (by decide)).2, nofun, nofun, nofun⟩
  obtain ⟨hanswer, rfl⟩ := watched_system_act.mp hact
  obtain ⟨hpush, hclosing⟩ := h .closing (by decide)
  have hafter : facts.Known [.outside, .pushing] t
      (x.1.after t (.assign .appsrc_ false) r, see x.1 (.act t (.assign .appsrc_ false) r) x.2) := by
    apply Facts.Known.learn
    · exact Facts.known_nil.learn hpush
    · show (if x.2.closing = some t then none else x.2.closing) ≠ some t
      rw [if_pos hclosing]
      exact nofun
  exact quiet.wp_end (fun _ _ => trivial) hafter (.call (by decide))

theorem wp_releasePipeline (h : facts.Known [.closing] t x) :
    contract.wp t releasePipeline (fun _ => facts.Known [.outside, .pushing] t) (fun _ => True)
      x := by
  have hbus : (sys (.objectUnref .bus) >>= fun _ => sys (.assign .bus_ false)).Built Quiet
      Prog.noParts := .bind (.call (by decide)) fun _ => .call (by decide)
  refine quiet.wp (fun _ _ => trivial) h (.call (by decide)) fun _ x h => ?_
  refine quiet.wp (fun _ _ => trivial) h (.when _ hbus) fun _ x h => ?_
  refine wp_call_of quiet.known h fun x _ h =>
    ⟨allowed_of_quiet (by decide), fun set y _ hact => ?_⟩
  obtain ⟨hanswer, rfl⟩ := watched_system_act.mp hact
  have hreply : set = x.1.ptr .pipeline_ := of_decide_eq_true (World.shared_of_answers hanswer)
  have h := h.kept (kept_of_quiet (by decide) hanswer)
  cases set with
  | false =>
    apply wp_clearAppsrc
    exact h.learn ⟨(h .closing (by decide)).1, fun hset => Bool.noConfusion (hreply.trans hset)⟩
  | true =>
  refine quiet.wp (p := sys (.objectUnref .pipeline)) (fun _ _ => trivial) h (.call (by decide))
    fun _ x h => ?_
  refine wp_call_of quiet.known h fun x _ h =>
    ⟨allowed_of_quiet (by decide), fun _ y _ hact => ?_⟩
  obtain ⟨hanswer, rfl⟩ := watched_system_act.mp hact
  have h := h.kept (kept_of_quiet (by decide) hanswer)
  apply wp_clearAppsrc
  refine h.learn ⟨(h .closing (by decide)).1, fun hset => ?_⟩
  change Function.update x.1.ptr .pipeline_ false .pipeline_ = true at hset
  rw [Function.update_self] at hset
  cases hset

theorem keeps_shutdownLocked (ht : t ≠ .callback) :
    contract.Keeps t (facts.Known [.outside, .pushing] t) shutdownLocked := by
  have hquit : quitLoopIfRunning.Built Quiet Prog.noParts :=
    .bind (.call (by decide)) fun _ => .ite (.ret _) <|
      .bind (.call (by decide)) fun _ => .when _ (.call (by decide))
  have hjoin : joinGstThread.Built Quiet Prog.noParts :=
    .bind (.call (by decide)) fun _ => .when _ (.call (by decide))
  intro x h
  have hwp : contract.wp t shutdownLocked (fun _ => facts.Known [.outside, .pushing] t)
      (fun _ => True) x := by
    refine quiet.wp (fun _ _ => trivial) h (.call (by decide)) fun pipeline x h => ?_
    cases pipeline with
    | false => exact fun v hr hi => quiet.known x v hr hi h
    | true =>
    refine wp_call_of quiet.known h fun x _ h => ⟨?_, fun r y _ hact => ?_⟩
    · have hpush := h .pushing (by decide)
      exact ⟨nofun, nofun, nofun, fun _ => ⟨hpush, ht⟩, nofun, nofun, nofun, nofun⟩
    obtain ⟨-, rfl⟩ := watched_system_act.mp hact
    -- the pipeline is NULL, and the thread owes `appsrc_ = nullptr`
    have hclosing : facts.Known [.closing] t
        (x.1.after t (.setState .null) r, see x.1 (.act t (.setState .null) r) x.2) :=
      Facts.known_nil.learn ⟨h .pushing (by decide), rfl⟩
    refine quiet.wp (fun _ _ => trivial) hclosing hquit fun _ x h => ?_
    refine quiet.wp (fun _ _ => trivial) h hjoin fun _ x h => ?_
    exact wp_releasePipeline h
  exact wp_of_noThrow noThrow_shutdownLocked hwp

theorem keeps_shutdown (ht : t ≠ .callback) :
    contract.Keeps t (facts .outside t) shutdownGstreamerPipeline := by
  apply keeps_lockGuard (fact_rely .outside) quiet.known _ _ (keeps_shutdownLocked ht)
  · refine fun x _ h => ⟨allowed_of_quiet (by decide), fun r y _ hact => ?_⟩
    obtain ⟨-, rfl⟩ := watched_system_act.mp hact
    have hpush : facts .pushing t (x.1.after t (.lock .pipelinePushMutex_) r, x.2) :=
      World.owner_after_lock
    exact (Facts.known_nil.learn hpush).learn h
  · refine fun x _ h => ⟨allowed_of_loose (by decide) fun _ => h .outside (by decide), ?_⟩
    intro r y _ hact
    obtain ⟨-, rfl⟩ := watched_system_act.mp hact
    exact h .outside (by decide)

end

/-! ## The operations -/

section

variable {t : Tid} {x : World × Past} {legacy : Bool} (ht : t ≠ .callback)

include ht

/-- What needs no more than that the thread is not closing. -/
theorem wp_loose {α : Type} {p : Prog Sys α}
    (hp : p.Built Loose (Prog.onlyPart shutdownGstreamerPipeline)) (h : facts .outside t x) :
    contract.wp t p (fun _ => facts .outside t) (facts .outside t) x := by
  apply keeps_loose _ hp x h
  rintro α p ⟨rfl, rfl⟩
  exact keeps_shutdown ht

/-- The result of the start of a pipeline: after true, frames may be pushed into it. -/
def Started (t : Tid) (started : Bool) (x : World × Past) : Prop :=
  facts .outside t x ∧ (started = true → facts (.upto .live) t x)

theorem wp_startPipeline (h : facts.Known [.upto .sourced, .still, .outside] t x) :
    contract.wp t startPipeline (Started t) (facts .outside t) x := by
  have hX : ∀ y, facts.Known [.upto .sourced, .still, .outside] t y → facts .outside t y :=
    fun y h => h .outside (by decide)
  refine quiet.wp hX h (.call (by decide)) fun _ x h => ?_
  refine quiet.wp hX h (.call (by decide)) fun _ x h => ?_
  refine quiet.wp hX h (.call (by decide)) fun _ x h => ?_
  refine quiet.wp hX h (.call (by decide)) fun _ x h => ?_
  refine quiet.wp hX h (.call (by decide)) fun _ x h => ?_
  refine quiet.wp hX h (.call (by decide)) fun spawned x h => ?_
  refine quiet.wp hX h (built_orThrow spawned) fun _ x h => ?_
  refine wp_call_of quiet.known h fun x hi h =>
    ⟨allowed_of_quiet (by decide), fun playing y hok hact => ?_⟩
  obtain ⟨hanswer, rfl⟩ := watched_system_act.mp hact
  cases playing with
  | false =>
    have h := h.kept (kept_of_quiet (by decide) hanswer)
    refine wp_bind_of (wp_loose ht .self (h .outside (by decide))) fun _ x _ h => ?_
    exact fun v hr hi => ⟨fact_rely .outside x v hr hi h, nofun⟩
  | true =>
  -- `pipeline_` is not null, so that no teardown has set it to NULL and cleared `appsrc_` since
  have hplayable : facts (.upto .playable) t x :=
    ⟨(h .still (by decide)).1, fun hset hnone =>
      ⟨(h (.upto .sourced) (by decide)).2 hset hnone, hi.emptied hnone hok⟩⟩
  have h := (h.learn hplayable).kept (kept_of_quiet (by decide) hanswer)
  refine wp_call_of quiet.known h fun x hi h => ⟨?_, fun r y _ hact => ?_⟩
  · exact ⟨nofun, nofun, fun _ => (h .still (by decide)).2, nofun, nofun, nofun, nofun, nofun⟩
  obtain ⟨-, rfl⟩ := watched_system_act.mp hact
  have hlive : facts (.upto .live) t
      (x.1.after t (.store .gstPipelineError_ false) r,
        see x.1 (.act t (.store .gstPipelineError_ false) r) x.2) := by
    obtain ⟨howner, hupto⟩ := h (.upto .playable) (by decide)
    refine ⟨howner, fun hset hnone => ?_⟩
    obtain ⟨hsourced, hnulled⟩ := hupto hset hnone
    exact ⟨hsourced, rfl, hnulled⟩
  exact fun v hr hi =>
    ⟨fact_rely .outside _ v hr hi (h .outside (by decide)), fun _ => fact_rely _ _ v hr hi hlive⟩

/-- An exit that returns false. -/
theorem wp_exit {p : Prog Sys Bool} (hp : p.Built Loose (Prog.onlyPart shutdownGstreamerPipeline))
    (hends : p.Ends (· = false)) (h : facts .outside t x) :
    contract.wp t p (Started t) (facts .outside t) x := by
  apply wp_mono (wp_of_ends hends (wp_loose ht hp h)) _ fun _ _ h => h
  intro b y _ h
  exact ⟨h.2, fun hb => Bool.noConfusion (h.1.symm.trans hb)⟩

theorem wp_linkAndStart {width height fps : Nat}
    (h : facts.Known [.upto .sourced, .still, .outside] t x) :
    contract.wp t (linkAndStart width height fps) (Started t) (facts .outside t) x := by
  have hX : ∀ y, facts.Known [.upto .sourced, .still, .outside] t y → facts .outside t y :=
    fun y h => h .outside (by decide)
  refine quiet.wp hX h (.call (by decide)) fun _ x h => ?_
  refine quiet.wp hX h (.call (by decide)) fun linked x h => ?_
  cases linked with
  | false => exact wp_exit ht (.bind .self fun _ => .ret _) (.bind _ fun _ => rfl) (hX x h)
  | true =>
  refine quiet.wp hX h (.call (by simp [Quiet, loud])) fun set x h => ?_
  exact quiet.wp hX h (built_orThrow set) fun _ x h => wp_startPipeline ht h

omit ht in
/-- While the camera stands still, its thread may write the pointers of the pipeline. -/
theorem wp_make {α : Type} {p : Ptr} {made : Bool} {f : Unit → Prog Sys α}
    {Q : α → World × Past → Prop} (h : facts.Known [.still, .outside] t x)
    (hf : ∀ x : World × Past, facts.Known [.still, .outside] t
        (x.1.after t (.assign p made) (), pastAfter t (.assign p made) x.2) →
      contract.wp t (f ()) Q (facts .outside t)
        (x.1.after t (.assign p made) (), pastAfter t (.assign p made) x.2)) :
    contract.wp t (sys (.assign p made) >>= f) Q (facts .outside t) x := by
  refine wp_call_of quiet.known h fun x _ h => ⟨?_, fun r y _ hact => ?_⟩
  · have hstill := h .still (by decide)
    exact ⟨nofun, fun _ => hstill, nofun, nofun, fun _ hc => absurd hc (h .outside (by decide)),
      nofun, nofun, nofun⟩
  obtain ⟨-, rfl⟩ := watched_system_act.mp hact
  apply hf x
  refine (Facts.known_nil.learn ?_).learn (h .still (by decide))
  intro hclosing
  cases closing_of_after hclosing with
  | inl hbefore => exact h .outside (by decide) hbefore
  | inr hnull => cases hnull.2

theorem wp_buildPipeline {width height fps : Nat} (h : facts.Known [.still, .outside] t x) :
    contract.wp t (buildPipeline width height fps) (Started t) (facts .outside t) x := by
  have hX : ∀ y, facts.Known [.still, .outside] t y → facts .outside t y :=
    fun y h => h .outside (by decide)
  refine quiet.wp hX h (.call (by decide)) fun made x h => wp_make h fun x h => ?_
  refine quiet.wp hX h (.call (by decide)) fun pipeline x h => ?_
  cases pipeline with
  | false => exact wp_exit ht (.ret _) rfl (hX x h)
  | true =>
  refine quiet.wp hX h (.call (by decide)) fun made x h => wp_make h fun x h => ?_
  have hsourced : facts (.upto .sourced) t (x.1.after t (.assign .appsrc_ made) (),
      pastAfter t (.assign .appsrc_ made) x.2) := by
    refine ⟨(h .still (by decide)).1, fun hset _ => ?_⟩
    cases made with
    | true => rfl
    | false =>
      change Function.update x.1.ptr .appsrc_ false .appsrc_ = true at hset
      rw [Function.update_self] at hset
      cases hset
  have h := h.learn hsourced
  have hX : ∀ y, facts.Known [.upto .sourced, .still, .outside] t y → facts .outside t y :=
    fun y h => h .outside (by decide)
  have hD : ∀ c, dropCall c = true → Loose c := not_mem_of (by decide)
  have hencoder : makeEncoder.Built Quiet Prog.noParts :=
    .bind (.call (by decide)) fun _ => .ite (.ret _) <|
      .bind (.call (by decide)) fun _ => .ite (.ret _) (.call (by decide))
  have hhlssink : makeHlssink.Built Quiet Prog.noParts :=
    .bind (.call (by decide)) fun _ => .bind (.call (by simp [Quiet, loud])) fun _ =>
      .bind (.call (by decide)) fun _ => .when _ <|
        .bind (.call (by decide)) fun _ => .call (by simp [Quiet, loud])
  refine quiet.wp hX h (.call (by decide)) fun convert x h => ?_
  refine quiet.wp hX h hencoder fun h264enc x h => ?_
  cases h264enc with
  | false =>
    exact wp_exit ht (built_dropWithoutEncoder hD convert) (ends_dropWithoutEncoder _) (hX x h)
  | true =>
  refine quiet.wp hX h (.call (by decide)) fun h264parse x h => ?_
  refine quiet.wp hX h (.call (by decide)) fun queue x h => ?_
  refine quiet.wp hX h hhlssink fun _ x h => ?_
  refine quiet.wp hX h (.call (by decide)) fun appsrc x h => ?_
  refine quiet.wp hX h (.call (by decide)) fun hlssink x h => ?_
  split
  · exact wp_exit ht (built_dropElements hD ..) (ends_dropElements convert true h264parse queue)
      (hX x h)
  · exact wp_linkAndStart ht h

theorem wp_initializeGstreamerPipeline {width height fps : Nat}
    (h : facts.Known [.still, .outside] t x) :
    contract.wp t (initializeGstreamerPipeline width height fps) (Started t) (facts .outside t)
      x := by
  have hX : ∀ y, facts.Known [.still, .outside] t y → facts .outside t y :=
    fun y h => h .outside (by decide)
  have hbody : contract.wp t
      (sys .createDirectories >>= fun r => r.orThrow >>= fun _ => buildPipeline width height fps)
      (Started t) (facts .outside t) x :=
    quiet.wp hX h (.call (by decide)) fun r x h =>
      quiet.wp hX h (built_orThrow r) fun _ x h => wp_buildPipeline ht h
  apply wp_tryCatch.mpr (wp_mono hbody (fun _ _ _ h => h) _)
  exact fun x _ h => wp_exit ht (.bind .self fun _ => .ret _) (.bind _ fun _ => rfl) h

omit ht in
theorem loose_of_teardownCall : ∀ c, teardownCall c = true → Loose c := not_mem_of (by decide)

omit ht in
theorem loose_of_requestCall (c : SysCall) (h : requestCall c = true) : Loose c := by
  intro hc
  simp only [strict, List.mem_cons, List.not_mem_nil, or_false] at hc
  rcases hc with rfl | rfl | rfl | rfl | rfl | rfl | rfl | rfl <;> cases h

/-- From the start of the camera on, frames may be pushed. -/
theorem wp_startStreams {streams width height fps : Nat}
    (h : facts.Known [.still, .outside] t x) :
    contract.wp t (startStreams legacy streams width height fps) (fun _ => facts .outside t)
      (facts .outside t) x := by
  have hX : ∀ y, facts.Known [.still, .outside] t y → facts .outside t y :=
    fun y h => h .outside (by decide)
  have hT := loose_of_teardownCall
  have hrollback : (rollbackUnlocked legacy).Built Loose (Prog.onlyPart shutdownGstreamerPipeline) :=
    built_rollbackUnlocked hT .self
  have hreset : resetAllocator.Built Quiet Prog.noParts :=
    built_lockGuard (by decide) (by decide) (.call (by decide))
  have hallocate : ∀ streams, (allocateStreams streams).Built Quiet Prog.noParts := by
    intro streams
    induction streams with
    | zero => exact .ret _
    | succ streams ih =>
      refine .bind (.call (by decide)) fun r => ?_
      cases r with
      | ok => exact ih
      | failed => exact .bind hreset fun _ => .ret _
      | threw => exact .throw
  refine quiet.wp hX h (.call (by decide)) fun r x h => ?_
  refine quiet.wp hX h (built_orThrow r) fun _ x h => ?_
  refine quiet.wp hX h (.call (by decide)) fun _ x h => ?_
  refine quiet.wp hX h (hallocate streams) fun allocated x h => ?_
  cases allocated with
  | false => exact fun v hr hi => fact_rely .outside x v hr hi (hX x h)
  | true =>
  refine wp_bind_of (wp_initializeGstreamerPipeline ht h) fun started x _ h => ?_
  cases started with
  | false => exact wp_loose ht hrollback h.1
  | true =>
  have h : facts.Known [.upto .live, .outside] t x := (Facts.known_nil.learn h.1).learn (h.2 rfl)
  have hX : ∀ y, facts.Known [.upto .live, .outside] t y → facts .outside t y :=
    fun y h => h .outside (by decide)
  refine quiet.wp hX h (built_disconnectVideoRequestSlot (not_mem_of (by decide))) fun _ x h => ?_
  refine quiet.wp hX h (.call (by decide)) fun r x h => ?_
  refine quiet.wp hX h (built_orThrow r) fun _ x h => ?_
  refine quiet.wp hX h (.call (by decide)) fun _ x h => ?_
  refine wp_call_of quiet.known h fun x _ h => ⟨?_, fun r y _ hact => ?_⟩
  · have hlive := h (.upto .live) (by decide)
    exact ⟨fun _ => hlive, nofun, nofun, nofun, nofun, nofun, nofun, nofun⟩
  obtain ⟨-, rfl⟩ := watched_system_act.mp hact
  -- what follows needs no more than that no teardown is under way
  have hqueue : (queueBuffer legacy).Built Loose (Prog.onlyPart shutdownGstreamerPipeline) :=
    built_queueBuffer loose_of_requestCall (built_keepRequest hT loose_of_requestCall) hrollback
  refine wp_loose ht ?_ (h .outside (by decide))
  refine .bind (built_check r) fun _ => .ite hrollback ?_
  refine .bind (.call (by decide)) fun buffers => ?_
  cases buffers with
  | none => exact .throw
  | some videoBuffers =>
    exact .bind (built_queueBuffers hqueue videoBuffers) fun _ => .ite (.ret _) <|
      .bind (.call (by decide)) fun _ => .bind (.call (by decide)) fun _ =>
        .bind (.call (by decide)) fun _ => .ret _

theorem wp_configureVideo {width height fps : Nat} (h : facts.Known [.owning, .outside] t x) :
    contract.wp t (configureVideo legacy width height fps) (fun _ => facts .outside t)
      (facts .outside t) x := by
  have hX : ∀ y, facts.Known [.owning, .outside] t y → facts .outside t y :=
    fun y h => h .outside (by decide)
  refine quiet.wp hX h (.call (by decide)) fun configuration x h => ?_
  rcases configuration with _ | (_ | streams) | _
  · exact quiet.wp hX h (.call (by decide)) fun _ x h => quiet.wp hX h (.call (by decide)) nofun
  · exact quiet.wp hX h (.call (by decide)) fun _ x h => quiet.wp hX h (.call (by decide)) nofun
  · refine quiet.wp hX h (.call (by decide)) fun _ x h => ?_
    refine wp_call_of quiet.known h fun x _ h =>
      ⟨allowed_of_quiet (by simp [Quiet, loud]), fun configured y hok hact => ?_⟩
    obtain ⟨hanswer, rfl⟩ := watched_system_act.mp hact
    cases configured with
    | failed => exact fun v hr hi => fact_rely .outside _ v hr hi (h .outside (by decide))
    | threw => exact fun v hr hi => fact_rely .outside _ v hr hi (h .outside (by decide))
    | ok =>
      -- libcamera does not configure a running camera
      have hstill : facts .still t x := ⟨h .owning (by decide), Bool.not_eq_true' _ |>.mp hok⟩
      have h : facts.Known [.still, .outside] t x :=
        (Facts.known_nil.learn (h .outside (by decide))).learn hstill
      exact wp_startStreams ht (h.kept (kept_of_quiet (by simp [Quiet, loud]) hanswer))
  · exact fun v hr hi => fact_rely .outside x v hr hi (hX x h)

/-- With the mutex given up for `stopVideoMode`, and owned again. -/
theorem wp_leaveVideoMode (h : facts.Known [.owning, .outside] t x) :
    contract.wp t (leaveVideoMode legacy) (fun _ => facts.Known [.owning, .outside] t)
      (facts .outside t) x := by
  have hX : ∀ y, facts.Known [.owning, .outside] t y → facts .outside t y :=
    fun y h => h .outside (by decide)
  refine quiet.wp hX h (.call (by decide)) fun on x h => ?_
  cases on with
  | false => exact fun v hr hi => quiet.known x v hr hi h
  | true =>
  refine wp_bind_of ?_ fun _ x _ h =>
    quiet.wp_end hX h (built_cameraReady (by decide) (by decide))
  refine wp_bind_of (wp_loose ht (.call (by decide)) (hX x h)) fun _ x _ h => ?_
  refine wp_bind_of (wp_loose ht (built_stopVideoMode loose_of_teardownCall .self) h)
    fun _ x _ h => ?_
  refine fun x' hr hi => ⟨allowed_of_quiet (by decide), fun r y _ hact v hr' hi' => ?_⟩
  have h := fact_rely .outside x x' hr hi h
  obtain ⟨-, rfl⟩ := watched_system_act.mp hact
  have h : facts.Known [.outside] t (x'.1.after t (.relock .cameraOpsMutex_) r, x'.2) :=
    Facts.known_nil.learn h
  have h : facts.Known [.owning, .outside] t
      (x'.1.after t (.relock .cameraOpsMutex_) r, x'.2) := h.learn World.owner_after_relock
  exact quiet.known _ v hr' hi' h

theorem keeps_startVideoMode {width height fps : Nat} :
    contract.Keeps t (facts .outside t) (startVideoMode legacy width height fps) := by
  have hT := loose_of_teardownCall
  have hrollback : (rollbackUnlocked legacy).Built Loose (Prog.onlyPart shutdownGstreamerPipeline) :=
    built_rollbackUnlocked hT .self
  have hX : ∀ y, facts.Known [.owning, .outside] t y → facts .outside t y :=
    fun y h => h .outside (by decide)
  intro x h
  refine wp_call_of (fact_rely .outside) h fun x _ h =>
    ⟨allowed_of_quiet (by decide), fun r y _ hact => ?_⟩
  obtain ⟨-, rfl⟩ := watched_system_act.mp hact
  have h : facts.Known [.outside] t (x.1.after t (.lock .cameraOpsMutex_) r, x.2) :=
    Facts.known_nil.learn h
  have h : facts.Known [.owning, .outside] t (x.1.after t (.lock .cameraOpsMutex_) r, x.2) :=
    h.learn World.owner_after_lock
  have hunlock : ∀ y, facts .outside t y → contract.wp t (sys (.unlock .cameraOpsMutex_))
      (fun _ => facts .outside t) (facts .outside t) y :=
    fun y h => wp_loose ht (.call (by decide)) h
  apply wp_ensuring_of
  apply wp_mono (Q := fun _ => facts .outside t) (X := facts .outside t) _
    (fun _ y _ h => hunlock y h) fun y _ h => hunlock y h
  refine quiet.wp hX h (built_cameraReady (by decide) (by decide)) fun ready x h => ?_
  cases ready with
  | false => exact fun v hr hi => fact_rely .outside x v hr hi (hX x h)
  | true =>
  apply wp_tryCatch.mpr
  apply wp_mono (Q := fun _ => facts .outside t) (X := facts .outside t) _ (fun _ _ _ h => h)
    fun y _ h => wp_loose ht hrollback h
  refine wp_bind_of (wp_leaveVideoMode ht h) fun left x _ h => ?_
  cases left with
  | false => exact fun v hr hi => fact_rely .outside x v hr hi (hX x h)
  | true => exact wp_configureVideo ht h

/-- The operations but for `takePicture`. -/
theorem keeps_operate {op : Operation} (hop : op ≠ .takePicture) :
    contract.Keeps t (facts .outside t) (operate legacy op) := by
  have hT := loose_of_teardownCall
  have hA : ∀ c, acquireCall c = true → Loose c := not_mem_of (by decide)
  cases op with
  | takePicture => contradiction
  | startVideoMode width height fps => exact keeps_startVideoMode ht
  | initializeCamera =>
    exact fun x => wp_loose ht (built_initializeCamera hA (by decide) (by decide) (by decide))
  | stopVideoMode => exact fun x => wp_loose ht (built_stopVideoMode hT .self)
  | reinitializeCamera =>
    refine fun x => wp_loose ht (built_reinitializeCamera hA hT .self fun value => ?_)
    cases value <;> decide

end

/-! ## The slots -/

section

variable {x : World × Past} {legacy : Bool}

/-- What a slot knows that holds `pipelinePushMutex_`. -/
def locked : List Fact := [.pushing, .handling, .outside]

/-- Quiet code that may push. -/
theorem keeps_pushing {α : Type} {p : Prog Sys α}
    (hp : p.Built (fun c : SysCall => Quiet c ∨ c = .appSrcPushBuffer) Prog.noParts) :
    contract.Keeps .callback (facts.Known (.live :: locked) .callback) p := by
  apply keeps_of_built quiet.known _ (fun _ _ h => h.elim) hp
  intro c hc x _ h
  cases hc with
  | inl hq =>
    refine ⟨allowed_of_quiet hq, fun r y _ hact => ?_⟩
    obtain ⟨hanswer, rfl⟩ := watched_system_act.mp hact
    exact h.kept (kept_of_quiet hq hanswer)
  | inr hpush =>
    subst hpush
    have hlive : Live x.2 := (h .live (by decide)).2.2.2
    refine ⟨⟨nofun, nofun, nofun, nofun, nofun, nofun, nofun, fun _ => hlive⟩, fun r y _ hact => ?_⟩
    obtain ⟨-, rfl⟩ := watched_system_act.mp hact
    apply h.kept
    intro f hf
    cases f <;> exact hf

theorem quiet_of_slotCall (c : SysCall) (h : slotCall c = true) :
    Quiet c ∨ c = .appSrcPushBuffer := by
  by_cases hc : c = .appSrcPushBuffer
  · exact .inr hc
  · have hnone : ∀ c ∈ loud, c ≠ .appSrcPushBuffer → slotCall c = false := by decide
    exact .inl fun hmem => Bool.false_ne_true ((hnone c hmem hc).symm.trans h)

/-- A slot that finds `appsrc_` set may push into it until it gives the mutex back. -/
theorem keeps_pushFrame : contract.Keeps .callback (facts.Known locked .callback)
    (pushFrame legacy) := by
  intro x h
  refine wp_call_of quiet.known h fun x hi h =>
    ⟨allowed_of_quiet (by decide), fun set y _ hact => ?_⟩
  obtain ⟨hanswer, rfl⟩ := watched_system_act.mp hact
  have hreply : set = x.1.ptr .appsrc_ := of_decide_eq_true (World.shared_of_answers hanswer)
  cases set with
  | false =>
    have h := h.kept (kept_of_quiet (by decide) hanswer)
    exact fun v hr hi => quiet.known _ v hr hi h
  | true =>
  have hlive : facts .live .callback x := by
    obtain ⟨-, hdelivering⟩ := h .handling (by decide)
    have hpush : x.1.owner .pipelinePushMutex_ = some .callback := h .pushing (by decide)
    refine ⟨rfl, hdelivering, hpush, hi.live (hi.running hdelivering) hreply.symm ?_⟩
    -- a thread that was closing would own the mutex
    by_contra hne
    obtain ⟨u, hu⟩ := Option.ne_none_iff_exists'.mp hne
    obtain ⟨howner, hcallback⟩ := hi.closing u hu
    exact hcallback (Option.some.inj (howner.symm.trans hpush))
  have h := (h.learn hlive).kept (kept_of_quiet (by decide) hanswer)
  exact wp_mono (keeps_pushing (built_pushPlane quiet_of_slotCall) _ h)
    (fun _ _ _ h => h.mono (List.subset_cons_self ..)) fun _ _ h => h.mono (List.subset_cons_self ..)

theorem keeps_pushFrames (buffers : Nat) : contract.Keeps .callback
    (facts.Known locked .callback) (pushFrames legacy buffers) := by
  induction buffers with
  | zero => exact fun x h v hr hi => quiet.known x v hr hi h
  | succ buffers ih => exact fun x h => wp_bind_of (keeps_pushFrame x h) fun _ y _ h => ih y h

theorem built_recycle {request : Nat} {X : ∀ α : Type, Prog Sys α → Prop} :
    (recycleVideoRequest legacy request).Built Quiet X := by
  apply built_recycleVideoRequest
  intro c h hc
  simp only [loud, List.mem_cons, List.not_mem_nil, or_false] at hc
  rcases hc with rfl | rfl | rfl | rfl | rfl | rfl | rfl | rfl | rfl | rfl | rfl <;> cases h

/-- A slot between its lock and its unlock of `pipelinePushMutex_`. -/
theorem keeps_pushAndRecycle (request : Nat) : contract.Keeps .callback
    (facts.Known [.handling, .outside] .callback) (pushAndRecycle legacy request) := by
  apply keeps_lockGuard quiet.known quiet.known (B := facts.Known locked .callback)
  · refine fun x _ h => ⟨allowed_of_quiet (by decide), fun r y _ hact => ?_⟩
    obtain ⟨hanswer, rfl⟩ := watched_system_act.mp hact
    have h := h.kept (kept_of_quiet (by decide) hanswer)
    exact h.learn World.owner_after_lock
  · refine fun x _ h => ⟨allowed_of_loose (by decide) fun _ => h .outside (by decide), ?_⟩
    intro r y _ hact
    obtain ⟨-, rfl⟩ := watched_system_act.mp hact
    have houtside : facts .outside .callback
        (x.1.after .callback (.unlock .pipelinePushMutex_) r, x.2) := h .outside (by decide)
    exact (Facts.known_nil.learn houtside).learn (h .handling (by decide))
  · apply quiet.keeps (X := fun α p => contract.Keeps .callback (facts.Known locked .callback) p)
      fun _ _ h => h
    have hallow : allowPipeline.Built Quiet fun α p =>
        contract.Keeps .callback (facts.Known locked .callback) p :=
      .bind (.call (by decide)) fun _ => .ite (.ret _) (.bind (.call (by decide)) fun _ => .ret _)
    exact .bind hallow fun _ => .bind (.call (by decide)) fun _ => .ite built_recycle <|
      .bind (.call (by simp [Quiet, loud])) fun buffers => .bind (.part (keeps_pushFrames buffers))
        fun _ => built_recycle

theorem keeps_runSlots (request : Nat) (slots : List Slot) : contract.Keeps .callback
    (facts.Known [.handling, .outside] .callback) (runSlots legacy request slots) := by
  apply quiet.keeps
    (X := fun α p => contract.Keeps .callback (facts.Known [.handling, .outside] .callback) p)
    fun _ _ h => h
  induction slots with
  | nil => exact .ret _
  | cons s rest ih =>
    refine .bind ?_ fun _ => ih
    cases s with
    | photo => exact built_lockGuard (by decide) (by decide) (.call (by decide))
    | video =>
      exact .bind (.call (by simp [Quiet, loud])) fun _ => .ite (.ret _) <|
        .bind (.bind (.call (by decide)) fun _ => .ite (.ret _) <|
          .bind (.call (by decide)) fun _ => .ret _) fun _ =>
        .ite built_recycle (.part (keeps_pushAndRecycle request))

/-- libcamera's thread, from one completion to the next. -/
theorem keeps_completionTurn :
    contract.Keeps .callback (facts .outside .callback) (completionTurn legacy) := by
  intro x h
  refine wp_call_of (fact_rely .outside) h fun x _ h => ⟨?_, fun completion y _ hact => ?_⟩
  · exact ⟨nofun, nofun, nofun, nofun, nofun, nofun, fun _ => rfl, nofun⟩
  obtain ⟨-, rfl⟩ := watched_system_act.mp hact
  have h : facts.Known [.outside] .callback
      (x.1.after .callback .nextCompletion completion, x.2) := Facts.known_nil.learn h
  have h : facts.Known [.handling, .outside] .callback
      (x.1.after .callback .nextCompletion completion, x.2) := h.learn ⟨rfl, rfl⟩
  have hslots := wp_mono (@keeps_runSlots legacy completion.request completion.slots _ h)
    (R := fun _ => facts .outside .callback) (Y := facts .outside .callback)
    (fun _ y _ h => h .outside (by decide)) fun y _ h => h .outside (by decide)
  refine wp_bind_of hslots fun _ x _ h => ?_
  intro x' hr hi
  have h := fact_rely .outside x x' hr hi h
  refine ⟨⟨nofun, nofun, nofun, nofun, nofun, nofun, fun _ => rfl, nofun⟩, fun r y _ hact => ?_⟩
  obtain ⟨-, rfl⟩ := watched_system_act.mp hact
  exact fun v hr hi => fact_rely .outside _ v hr hi h

end

/-! ## All threads -/

def proof (legacy : Bool) : contract.Proof (crowd legacy) where
  holds t _ x := LockOrder.present t = true ∧ facts .outside t x
  body t pc x _ h := by
    obtain ⟨ht, h⟩ := h
    have hend : ∀ {p : Prog Sys (Option t.Pc)}, contract.Keeps t (facts .outside t) p →
        contract.wp t p (fun next y => ∀ pc : t.Pc, next = some pc →
          LockOrder.present t = true ∧ facts .outside t y) (fun _ => True) x :=
      fun hp => wp_mono (hp x h) (fun _ _ _ h _ _ => ⟨ht, h⟩) fun _ _ _ => trivial
    cases t with
    | caller n =>
      have hn : Tid.caller n ≠ .callback := nofun
      apply hend
      intro x h
      refine wp_call_of (fact_rely .outside) h fun x _ h =>
        ⟨allowed_of_quiet (by decide), fun op y hok hact => ?_⟩
      obtain ⟨-, rfl⟩ := watched_system_act.mp hact
      have hop : op ≠ .takePicture := of_decide_eq_true hok
      refine wp_bind_of (keeps_operate hn hop _ h) fun _ y _ h => ?_
      exact fun v hr hi => fact_rely .outside y v hr hi h
    | callback =>
      apply hend
      refine fun x h => wp_bind_of (keeps_completionTurn x h) fun _ y _ h => ?_
      exact fun v hr hi => fact_rely .outside y v hr hi h
    | gst n =>
      have hn : Tid.gst n ≠ .callback := nofun
      exact hend fun x h => wp_loose hn (built_gstBody pc (not_mem_of (by decide))) h
    | _ => cases ht

def start : World × Past := (.init, ⟨false, false, false, none⟩)

theorem valid_start (legacy : Bool) : (proof legacy).Valid ⟨start, (crowdStart legacy).prog⟩ := by
  have hsound : Sound start := by
    constructor
    · exact nofun
    · exact nofun
    · exact nofun
    · exact fun _ => nofun
  have houtside : ∀ t, facts .outside t start := fun t => nofun
  apply valid_crowdStart (proof legacy) hsound
  · exact fun n x hr _ => ⟨rfl, hr .outside (houtside _)⟩
  · exact fun x hr _ => ⟨rfl, hr .outside (houtside _)⟩
  · exact fun n x hr _ => ⟨rfl, hr .outside (houtside _)⟩

end Pushes

end SurfCam

import SurfCam.Camera.Buses
import SurfCam.Camera.LoopJoin
import SurfCam.Logic.Facts

/-!
# Whose messages are dispatched

`shutdownGstreamerPipeline` takes everything of a pipeline down but its bus watch.  What waits on
the bus at that moment is dispatched by the loop of a later session.
-/

namespace SurfCam

open Interaction CameraManager Contract

namespace Dispatch

/-- A pipeline whose bus has a watch is dropped with no message on its bus. -/
def tidy (x : World × Buses) : Label Sys Tid Happening → Bool
  | .act _ (.objectUnref .pipeline) _ => !x.2.watched x.2.made || x.2.waiting x.2.made = []
  | _ => true

/-- The condition, and what is known of the members (`Serial.proof`). -/
def known (x : World × Buses) (l : Label Sys Tid Happening) : Prop :=
  tidy x l = true ∧ ∀ t c r, l = .act t c r → Serial.contract.pre t c x.1

/-! ## What a thread knows -/

abbrev caller : Tid := .caller 0

inductive Fact where
  | alone
  | vacant
  | dropped
  | unfinished
  | alive
  | idle
  deriving DecidableEq

def facts : Facts Fact Tid (World × Buses)
  | .alone, t, x => t = caller ∧ x.1.glib.gstThread_ = none
  | .vacant, t, x => t = caller ∧ x.1.glib.gstThread_ = none ∧ x.1.ptr .pipeline_ = false
  | .dropped, t, x => t = caller ∧ x.2.dropped x.2.made = true
  | .unfinished, t, x => x.1.threads.finished t = false
  | .alive, t, x => x.1.threads.started t = true ∧ x.1.threads.finished t = false
  | .idle, t, x => ∀ n, t = .gst n → x.2.handling n = none

/-- What a call requires. -/
structure Allowed (t : Tid) (c : SysCall) (x : World × Buses) : Prop where
  makes : c = .assign .pipeline_ true → x.1.glib.gstThread_ = none ∧ x.1.ptr .pipeline_ = false
  clears : c = .assign .pipeline_ false → x.2.dropped x.2.made = true
  drops : c = .objectUnref .pipeline → x.1.glib.gstThread_ = none
  spawns : c = .spawnGstThread → x.1.glib.gstThread_ = none
  turns : c = .mainLoopTurn → x.1.threads.started t = true ∧ x.1.threads.finished t = false
  ends : c = .threadEnd → ∀ n, t = .gst n → x.2.handling n = none

structure Sound (x : World × Buses) : Prop where
  threads : ∀ n, x.1.threads.started (.gst n) = true →
    x.1.threads.finished (.gst n) = true ∨ x.1.glib.gstThread_ = some n
  handling : ∀ n k, x.2.handling n = some k → x.1.threads.started (.gst n) = true ∧
    x.1.threads.finished (.gst n) = false ∧ k = x.2.made ∧ x.2.dropped k = false
  vacated : x.1.ptr .pipeline_ = false → x.2.dropped x.2.made = true
  earlier : ∀ k, k < x.2.made → x.2.dropped k = true
  waiting : ∀ k, x.2.waiting k ≠ [] → k ≤ x.2.made ∧ x.2.dropped k = false

/-- Where no thread can be joined, no message is being handled. -/
theorem Sound.idle {x : World × Buses} (hi : Sound x) (h : x.1.glib.gstThread_ = none) (n : Nat) :
    x.2.handling n = none := by
  by_contra hne
  obtain ⟨k, hk⟩ := Option.ne_none_iff_exists'.mp hne
  obtain ⟨hstarted, hfinished, -, -⟩ := hi.handling n k hk
  cases hi.threads n hstarted with
  | inl hdone => exact Bool.false_ne_true (hfinished.symm.trans hdone)
  | inr hn => cases h.symm.trans hn

/-- A message waits on the bus of the last pipeline. -/
theorem Sound.last {x : World × Buses} (hi : Sound x) {k : Nat} (h : x.2.waiting k ≠ []) :
    k = x.2.made ∧ x.2.dropped k = false := by
  obtain ⟨hle, hdropped⟩ := hi.waiting k h
  refine ⟨Nat.le_antisymm hle (Nat.le_of_not_lt fun hlt => ?_), hdropped⟩
  exact Bool.false_ne_true (hdropped.symm.trans (hi.earlier k hlt))

section

variable {t u : Tid} {c : SysCall} {r : c.Reply} {x : World × Buses} {n : Nat}

/-- Only `gstThread_` itself is a new thread of a loop. -/
theorem started_of_after {w : World} (h : (w.after t c r).threads.started (.gst n) = true) :
    w.threads.started (.gst n) = true ∨
      c = .spawnGstThread ∧ (w.after t c r).glib.gstThread_ = some n := by
  cases c with
  | spawnGstThread =>
    cases r with
    | ok =>
      by_cases hn : n = w.glib.loops
      · subst hn
        exact .inr ⟨rfl, rfl⟩
      · left
        change Function.update w.threads.started (.gst w.glib.loops) true (.gst n) = true at h
        rwa [Function.update_of_ne (fun he => hn (Tid.gst.inj he))] at h
    | failed => exact .inl h
    | threw => exact .inl h
  | spawnWorker worker =>
    left
    change Function.update w.threads.started worker.tid true (.gst n) = true at h
    rwa [Function.update_of_ne (by cases worker <;> exact nofun)] at h
  | spawnStreamThread =>
    cases r with
    | ok =>
      left
      change Function.update w.threads.started (.hls w.threads.hlsWorkers) true (.gst n) = true at h
      have hne : Tid.gst n ≠ .hls w.threads.hlsWorkers := nofun
      rwa [Function.update_of_ne hne] at h
    | failed => exact .inl h
    | threw => exact .inl h
  | _ => exact .inl h

/-- Only the join and the start of a thread change what can be joined. -/
theorem gstThread_after {w : World} (hs : c ≠ .spawnGstThread) (hj : c ≠ .gstThreadJoin) :
    (w.after t c r).glib.gstThread_ = w.glib.gstThread_ := by
  cases c with
  | spawnGstThread => contradiction
  | gstThreadJoin => contradiction
  | mainLoopEnter => cases t <;> rfl
  | mainLoopTurn => cases r <;> cases t <;> rfl
  | _ => rfl

theorem threads_after (hi : Sound x) (ha : Allowed t c x) (hanswer : x.1.answers t c r = true)
    (h : (x.1.after t c r).threads.started (.gst n) = true) :
    (x.1.after t c r).threads.finished (.gst n) = true ∨
      (x.1.after t c r).glib.gstThread_ = some n := by
  cases started_of_after h with
  | inr hspawn => exact .inr hspawn.2
  | inl hbefore =>
  cases hi.threads n hbefore with
  | inl hdone => exact .inl (World.finished_mono hdone)
  | inr hn =>
  by_cases hs : c = .spawnGstThread
  · -- there was no thread to be joined
    cases (ha.spawns hs).symm.trans hn
  by_cases hj : c = .gstThreadJoin
  · subst hj
    left
    -- the join waits for the end of the thread
    have hdone : x.1.glib.gstThread_.any (fun n => x.1.threads.finished (.gst n)) = true :=
      World.glib_of_answers hanswer
    rw [hn] at hdone
    exact hdone
  · exact .inr ((gstThread_after hs hj).trans hn)

/-- What the buses are left with by the calls that do not concern them. -/
theorem buses_after (hm : c ≠ .assign .pipeline_ true) (hd : c ≠ .objectUnref .pipeline) :
    (x.2.after t c r).made = x.2.made ∧ (x.2.after t c r).dropped = x.2.dropped := by
  unfold Buses.after
  split
  · contradiction
  · exact ⟨rfl, rfl⟩
  · contradiction
  · split <;> exact ⟨rfl, rfl⟩
  · split <;> exact ⟨rfl, rfl⟩
  · exact ⟨rfl, rfl⟩

/-- Only a turn of its own loop changes what a thread handles. -/
theorem handling_after (h : (x.2.after t c r).handling n ≠ x.2.handling n) :
    t = .gst n ∧ c = .mainLoopTurn := by
  unfold Buses.after at h
  split at h
  · exact absurd rfl h
  · exact absurd rfl h
  · exact absurd rfl h
  · split at h
    · rename_i n'
      by_cases hn : n = n'
      · exact ⟨congrArg Tid.gst hn.symm, rfl⟩
      · exact absurd (Function.update_of_ne hn ..) h
    · exact absurd rfl h
  · split at h
    · rename_i n'
      by_cases hn : n = n'
      · exact ⟨congrArg Tid.gst hn.symm, rfl⟩
      · exact absurd (Function.update_of_ne hn ..) h
    · exact absurd rfl h
  · exact absurd rfl h

/-- The calls only take messages away. -/
theorem waiting_of_after {k : Nat} (h : (x.2.after t c r).waiting k ≠ []) : x.2.waiting k ≠ [] := by
  intro hnone
  apply h
  unfold Buses.after
  split
  · exact hnone
  · exact hnone
  · show (if x.2.watched x.2.made = true then x.2.waiting else
      Function.update x.2.waiting x.2.made []) k = []
    rw [ite_apply, Function.update_apply, hnone, ite_self, ite_self]
  · split
    · rename_i n
      show Function.update x.2.waiting (x.2.next n) (x.2.waiting (x.2.next n)).tail k = []
      rw [Function.update_apply]
      split
      · rename_i hk
        rw [← hk, hnone, List.tail_nil]
      · exact hnone
    · exact hnone
  · split <;> exact hnone
  · exact hnone

theorem handling_sound (hi : Sound x) (ha : Allowed t c x) (hbus : x.2.answers t c r = true)
    {k : Nat} (h : (x.2.after t c r).handling n = some k) :
    (x.1.after t c r).threads.started (.gst n) = true ∧
      (x.1.after t c r).threads.finished (.gst n) = false ∧ k = (x.2.after t c r).made ∧
        (x.2.after t c r).dropped k = false := by
  by_cases hsame : (x.2.after t c r).handling n = x.2.handling n
  · have hbefore : x.2.handling n = some k := hsame.symm.trans h
    -- a thread that handles a message can still be joined
    have hjoinable : x.1.glib.gstThread_ ≠ none := by
      intro hnone
      cases (hi.idle hnone n).symm.trans hbefore
    obtain ⟨hstarted, hfinished, hlast, hdropped⟩ := hi.handling n k hbefore
    obtain ⟨hmade, hkept⟩ := buses_after (t := t) (r := r) (x := x)
      (fun hm => hjoinable (ha.makes hm).1) fun hd => hjoinable (ha.drops hd)
    refine ⟨World.started_mono hstarted, ?_, hmade ▸ hlast, hkept ▸ hdropped⟩
    rw [World.finished_after, hfinished]
    intro he ht
    cases (ha.ends he n ht).symm.trans hbefore
  · obtain ⟨rfl, rfl⟩ := handling_after hsame
    obtain ⟨hstarted, hfinished⟩ := ha.turns rfl
    cases r with
    | returned =>
      change Function.update x.2.handling n none n = some k at h
      rw [Function.update_self] at h
      cases h
    | message m =>
      change Function.update x.2.handling n (some (x.2.next n)) n = some k at h
      rw [Function.update_self] at h
      obtain rfl := Option.some.inj h
      have hhead : (x.2.waiting (x.2.next n)).head? = some m :=
        of_decide_eq_true (Bool.and_eq_true_iff.mp hbus).2
      have hwaits : x.2.waiting (x.2.next n) ≠ [] := by
        intro hnone
        rw [hnone] at hhead
        cases hhead
      obtain ⟨hlast, hdropped⟩ := hi.last hwaits
      exact ⟨hstarted, hfinished, hlast, hdropped⟩

/-- The invariant survives a call. -/
theorem sound_after (hi : Sound x) (ha : Allowed t c x) (hok : tidy x (.act t c r) = true)
    (hanswer : x.1.answers t c r = true) (hbus : x.2.answers t c r = true) :
    Sound (x.1.after t c r, x.2.after t c r) where
  threads _ h := threads_after hi ha hanswer h
  handling _ _ h := handling_sound hi ha hbus h
  vacated h := by
    by_cases hm : c = .assign .pipeline_ true
    · subst hm
      change Function.update x.1.ptr .pipeline_ true .pipeline_ = false at h
      rw [Function.update_self] at h
      cases h
    by_cases hd : c = .objectUnref .pipeline
    · subst hd
      exact Function.update_self ..
    obtain ⟨hmade, hkept⟩ := buses_after (t := t) (r := r) (x := x) hm hd
    show (x.2.after t c r).dropped (x.2.after t c r).made = true
    rw [hmade, hkept]
    by_cases hc : c = .assign .pipeline_ false
    · exact ha.clears hc
    · apply hi.vacated
      rw [← World.ptr_after (t := t) (r := r) (w := x.1) (p := .pipeline_)]
      · exact h
      · intro value
        cases value with
        | true => exact hm
        | false => exact hc
  earlier k hk := by
    by_cases hm : c = .assign .pipeline_ true
    · subst hm
      cases Nat.lt_succ_iff_lt_or_eq.mp hk with
      | inl hlt => exact hi.earlier k hlt
      | inr heq =>
        rw [heq]
        exact hi.vacated (ha.makes rfl).2
    by_cases hd : c = .objectUnref .pipeline
    · subst hd
      have hne : k ≠ x.2.made := Nat.ne_of_lt hk
      show Function.update x.2.dropped x.2.made true k = true
      rw [Function.update_of_ne hne]
      exact hi.earlier k hk
    obtain ⟨hmade, hkept⟩ := buses_after (t := t) (r := r) (x := x) hm hd
    show (x.2.after t c r).dropped k = true
    rw [hkept]
    exact hi.earlier k (hmade ▸ hk)
  waiting k h := by
    have hbefore : x.2.waiting k ≠ [] := waiting_of_after h
    obtain ⟨hle, hdropped⟩ := hi.waiting k hbefore
    by_cases hm : c = .assign .pipeline_ true
    · subst hm
      exact ⟨Nat.le_succ_of_le hle, hdropped⟩
    by_cases hd : c = .objectUnref .pipeline
    · subst hd
      -- nothing waits on the bus that is left
      obtain ⟨rfl, -⟩ := hi.last hbefore
      exfalso
      change (if x.2.watched x.2.made = true then x.2.waiting else
        Function.update x.2.waiting x.2.made []) x.2.made ≠ [] at h
      change (!x.2.watched x.2.made || x.2.waiting x.2.made = []) = true at hok
      split at h
      · rename_i hwatched
        rw [hwatched] at hok
        exact h (of_decide_eq_true hok)
      · exact h (Function.update_self ..)
    obtain ⟨hmade, hkept⟩ := buses_after (t := t) (r := r) (x := x) hm hd
    exact ⟨hmade ▸ hle, hkept ▸ hdropped⟩

/-- What the others know survives a call. -/
theorem kept_of_other (htu : t ≠ u) (hserial : Serial.contract.pre u c x.1) :
    facts.Kept t x (x.1.after u c r, x.2.after u c r) := by
  -- beside the caller, nobody writes the members
  have hmembers : t = caller → Members.Writes c = false :=
    fun ht => hserial.2 fun hu => htu (ht.trans hu.symm)
  have hfinished : (x.1.after u c r).threads.finished t = x.1.threads.finished t :=
    World.finished_after fun _ => htu.symm
  intro f hf
  cases f with
  | alone =>
    obtain ⟨ht, hnone⟩ := hf
    exact ⟨ht, (LoopJoin.glib_after (hmembers ht)).1.trans hnone⟩
  | vacant =>
    obtain ⟨ht, hnone, hp⟩ := hf
    obtain ⟨hg, -, hptr⟩ := LoopJoin.glib_after (t := u) (r := r) (w := x.1) (hmembers ht)
    exact ⟨ht, hg.trans hnone, (congrFun hptr _).trans hp⟩
  | dropped =>
    obtain ⟨ht, hdropped⟩ := hf
    refine ⟨ht, ?_⟩
    show (x.2.after u c r).dropped (x.2.after u c r).made = true
    by_cases hd : c = .objectUnref .pipeline
    · subst hd
      exact Function.update_self ..
    · have hm : c ≠ .assign .pipeline_ true := by
        rintro rfl
        cases hmembers ht
      obtain ⟨hmade, hkept⟩ := buses_after (t := u) (r := r) (x := x) hm hd
      rw [hmade, hkept, hdropped]
  | unfinished => exact hfinished.trans hf
  | alive => exact ⟨World.started_mono hf.1, hfinished.trans hf.2⟩
  | idle =>
    intro n ht
    have hsame : (x.2.after u c r).handling n = x.2.handling n := by
      by_contra hne
      exact htu (ht.trans (handling_after hne).1.symm)
    exact hsame.trans (hf n ht)

theorem sound_env {e : Happening} {y : World × Buses} (hi : Sound x) (h : bussed.env e x = some y) :
    Sound y := by
  obtain ⟨hglib, hthreads, hptr, hb⟩ := bussed_env h
  obtain ⟨hmade, hdropped, hhandling, hwaiting⟩ := Buses.of_happen hb
  constructor
  · rw [hglib, hthreads]
    exact hi.threads
  · rw [hthreads, hmade, hdropped, hhandling]
    exact hi.handling
  · rw [hptr, hmade, hdropped]
    exact hi.vacated
  · rw [hmade, hdropped]
    exact hi.earlier
  · intro k hk
    rw [hmade, hdropped]
    cases hwaiting k hk with
    | inl hbefore => exact hi.waiting k hbefore
    | inr hposted => exact hposted

theorem kept_of_env {e : Happening} {y : World × Buses} (h : bussed.env e x = some y) :
    facts.Kept t x y := by
  obtain ⟨hglib, hthreads, hptr, hb⟩ := bussed_env h
  obtain ⟨hmade, hdropped, hhandling, -⟩ := Buses.of_happen hb
  intro f hf
  cases f with
  | alone => exact ⟨hf.1, by rw [hglib, hf.2]⟩
  | vacant => exact ⟨hf.1, by rw [hglib, hf.2.1], by rw [hptr, hf.2.2]⟩
  | dropped => exact ⟨hf.1, by rw [hmade, hdropped, hf.2]⟩
  | unfinished =>
    show y.1.threads.finished t = false
    rw [hthreads]
    exact hf
  | alive =>
    show y.1.threads.started t = true ∧ y.1.threads.finished t = false
    rw [hthreads]
    exact hf
  | idle =>
    show ∀ n, t = .gst n → y.2.handling n = none
    rw [hhandling]
    exact hf

end

def contract : Contract bussed known :=
  facts.contract Sound Allowed
    (fun hi ha hok hact => by
      obtain ⟨hanswer, hbus, rfl⟩ := bussed_act.mp hact
      exact sound_after hi ha hok.1 hanswer hbus)
    (fun hi _ henv => sound_env hi henv)
    (fun htu _ _ hok hact => by
      obtain ⟨-, -, rfl⟩ := bussed_act.mp hact
      exact kept_of_other htu (hok.2 _ _ _ rfl))
    (fun _ _ henv => kept_of_env henv)

/-! ## Calls that change nothing -/

/-- The calls that require something. -/
def strict : List SysCall :=
  [.assign .pipeline_ true, .assign .pipeline_ false, .objectUnref .pipeline, .spawnGstThread,
    .mainLoopTurn, .threadEnd]

abbrev Quiet (c : SysCall) : Prop := c ∉ strict

section

variable {t : Tid} {c : SysCall} {r : c.Reply} {x : World × Buses}

theorem ne_of_quiet {c' : SysCall} (hc : Quiet c) (h : c' ∈ strict) : c ≠ c' := by
  rintro rfl
  exact hc h

theorem allowed_of_quiet (hc : Quiet c) : Allowed t c x where
  makes h := absurd h (ne_of_quiet hc (by decide))
  clears h := absurd h (ne_of_quiet hc (by decide))
  drops h := absurd h (ne_of_quiet hc (by decide))
  spawns h := absurd h (ne_of_quiet hc (by decide))
  turns h := absurd h (ne_of_quiet hc (by decide))
  ends h := absurd h (ne_of_quiet hc (by decide))

theorem kept_of_quiet (hc : Quiet c) : facts.Kept t x (x.1.after t c r, x.2.after t c r) := by
  have hg : x.1.glib.gstThread_ = none → (x.1.after t c r).glib.gstThread_ = none := by
    intro hnone
    by_cases hj : c = .gstThreadJoin
    · subst hj
      rfl
    · exact (gstThread_after (ne_of_quiet hc (by decide)) hj).trans hnone
  have hptr : (x.1.after t c r).ptr .pipeline_ = x.1.ptr .pipeline_ := by
    apply World.ptr_after
    intro value
    cases value <;> exact ne_of_quiet hc (by decide)
  obtain ⟨hmade, hkept⟩ := buses_after (t := t) (r := r) (x := x)
    (ne_of_quiet hc (by decide)) (ne_of_quiet hc (by decide))
  have hfinished : (x.1.after t c r).threads.finished t = x.1.threads.finished t :=
    World.finished_after fun he => absurd he (ne_of_quiet hc (by decide))
  intro f hf
  cases f with
  | alone => exact ⟨hf.1, hg hf.2⟩
  | vacant => exact ⟨hf.1, hg hf.2.1, hptr.trans hf.2.2⟩
  | dropped =>
    refine ⟨hf.1, ?_⟩
    show (x.2.after t c r).dropped (x.2.after t c r).made = true
    rw [hmade, hkept]
    exact hf.2
  | unfinished => exact hfinished.trans hf
  | alive => exact ⟨World.started_mono hf.1, hfinished.trans hf.2⟩
  | idle =>
    intro n ht
    have hsame : (x.2.after t c r).handling n = x.2.handling n := by
      by_contra hne
      exact ne_of_quiet hc (by decide) (handling_after hne).2
    exact hsame.trans (hf n ht)

theorem quiet : facts.Quiet contract t Quiet where
  rely hr := hr
  pre hc _ := allowed_of_quiet hc
  act hc _ hact := by
    obtain ⟨-, -, rfl⟩ := bussed_act.mp hact
    exact kept_of_quiet hc

variable {α : Type} {l : List Fact} {f : c.Reply → Prog Sys α} {Q : α → World × Buses → Prop}
  {X : World × Buses → Prop}

/-- A call that the thread may make, in front of the rest. -/
theorem wp_allowed (ha : ∀ x, Sound x → facts.Known l t x → Allowed t c x)
    (h : facts.Known l t x)
    (hf : ∀ (x : World × Buses) (r : c.Reply), Sound x → facts.Known l t x →
      x.1.answers t c r = true → known x (.act t c r) →
      contract.wp t (f r) Q X (x.1.after t c r, x.2.after t c r)) :
    contract.wp t (sys c >>= f) Q X x := by
  refine wp_call_of quiet.known h fun x hi h => ⟨ha x hi h, fun r y hok hact => ?_⟩
  obtain ⟨hanswer, -, rfl⟩ := bussed_act.mp hact
  exact hf x r hi h hanswer hok

/-- The end of a program. -/
theorem wp_known {a : α} (h : facts.Known l t x) :
    contract.wp t (.ret a) (fun _ => facts.Known l t) X x :=
  fun v hr hi => quiet.known x v hr hi h

end

/-! ## The caller -/

section

variable {α : Type} {x : World × Buses} {Q : α → World × Buses → Prop} {X : World × Buses → Prop}

/-- `gst_object_unref(pipeline_); pipeline_ = nullptr;` in front of the rest. -/
theorem wp_dropPipeline {f : Unit → Prog Sys α} (h : facts.Known [.alone] caller x)
    (hf : ∀ x, facts.Known [.alone] caller x → contract.wp caller (f ()) Q X x) :
    contract.wp caller (sys (.objectUnref .pipeline) >>= fun _ => sys (.assign .pipeline_ false) >>= f)
      Q X x := by
  refine wp_allowed (fun x _ h => ?_) h fun x r _ h _ _ => ?_
  · exact ⟨nofun, nofun, fun _ => (h .alone (by decide)).2, nofun, nofun, nofun⟩
  have halone : facts .alone caller x := h .alone (by decide)
  have h : facts.Known [.alone] caller (x.1.after caller (.objectUnref .pipeline) r,
      x.2.after caller (.objectUnref .pipeline) r) := Facts.known_nil.learn halone
  have h : facts.Known [.dropped, .alone] caller (x.1.after caller (.objectUnref .pipeline) r,
      x.2.after caller (.objectUnref .pipeline) r) := h.learn ⟨rfl, Function.update_self ..⟩
  refine wp_allowed (fun x _ h => ?_) h fun x r _ h _ _ => hf _ ?_
  · exact ⟨nofun, fun _ => (h .dropped (by decide)).2, nofun, nofun, nofun, nofun⟩
  · have halone : facts .alone caller x := h .alone (by decide)
    exact Facts.known_nil.learn halone

theorem wp_releasePipeline (h : facts.Known [.alone] caller x) :
    contract.wp caller releasePipeline (fun _ _ => True) (fun _ => True) x := by
  have hX : ∀ y, facts.Known [.alone] caller y → True := fun _ _ => trivial
  have hend : ∀ y, facts.Known [.alone] caller y → contract.wp caller (do
      Prog.when (← sys (.isSet .loop_)) do
        sys .mainLoopUnref
        sys (.assign .loop_ false)
      sys (.assign .appsrc_ false)
      sys (.assign .hlssink_ false)) (fun _ _ => True) (fun _ => True) y := by
    intro y h
    refine wp_mono (quiet.wp_end (X := fun _ => True) hX h ?_) (fun _ _ _ _ => trivial)
      fun _ _ h => h
    exact .bind (.call (by decide)) fun _ =>
      .bind (.when _ (.bind (.call (by decide)) fun _ => .call (by decide))) fun _ =>
        .bind (.call (by decide)) fun _ => .call (by decide)
  refine quiet.wp hX h (.call (by decide)) fun bus x h => ?_
  refine quiet.wp hX h (.when _ (.bind (.call (by decide)) fun _ => .call (by decide)))
    fun _ x h => ?_
  refine quiet.wp hX h (.call (by decide)) fun pipeline x h => ?_
  cases pipeline with
  | false => exact hend x h
  | true => exact wp_dropPipeline h hend

/-- Once the thread has been joined, if there was one, the pipeline may go. -/
theorem wp_shutdownLocked :
    contract.wp caller shutdownLocked (fun _ _ => True) (fun _ => True) x := by
  have hnil : ∀ y, facts.Known [] caller y := fun _ => Facts.known_nil
  have hX : ∀ y, facts.Known [] caller y → True := fun _ _ => trivial
  have hquit : quitLoopIfRunning.Built Quiet Prog.noParts :=
    .bind (.call (by decide)) fun _ => .ite (.ret _) <|
      .bind (.call (by decide)) fun _ => .when _ (.call (by decide))
  refine quiet.wp hX (hnil x) (.call (by decide)) fun pipeline x h => ?_
  cases pipeline with
  | false => exact fun _ _ _ => trivial
  | true =>
  refine quiet.wp hX h (.call (by decide)) fun _ x h => ?_
  refine quiet.wp hX h hquit fun _ x h => ?_
  suffices hjoin : contract.wp caller joinGstThread (fun _ => facts.Known [.alone] caller)
      (fun _ => True) x from wp_bind_of hjoin fun _ x _ h => wp_releasePipeline h
  refine wp_allowed (fun _ _ _ => allowed_of_quiet (by decide)) h fun x r _ h hanswer _ => ?_
  have hreply : r = x.1.glib.gstThread_.isSome := of_decide_eq_true (World.glib_of_answers hanswer)
  cases r with
  | false =>
    have hnone : x.1.glib.gstThread_ = none :=
      Option.not_isSome_iff_eq_none.mp (Bool.eq_false_iff.mp hreply.symm)
    have halone : facts.Known [.alone] caller x := Facts.known_nil.learn ⟨rfl, hnone⟩
    exact wp_known (halone.kept (kept_of_quiet (by decide)))
  | true =>
    refine wp_allowed (f := .ret) (fun _ _ _ => allowed_of_quiet (by decide))
      (h.kept (kept_of_quiet (by decide))) fun x r _ _ _ _ => ?_
    exact wp_known (Facts.known_nil.learn ⟨rfl, rfl⟩)

theorem keeps_shutdown : contract.Keeps caller (fun _ => True) shutdownGstreamerPipeline := by
  have htrue : ∀ w w', contract.rely caller w w' → contract.inv w' → True → True :=
    fun _ _ _ _ => id
  apply keeps_lockGuard htrue htrue
  · exact fun x _ _ => ⟨allowed_of_quiet (by decide), fun _ _ _ _ => trivial⟩
  · exact fun x _ _ => ⟨allowed_of_quiet (by decide), fun _ _ _ _ => trivial⟩
  · exact fun x _ => wp_shutdownLocked

theorem wp_shutdown : contract.wp caller shutdownGstreamerPipeline (fun _ _ => True)
    (fun _ => True) x := keeps_shutdown x trivial

/-- A start that is given up after a shutdown. -/
theorem wp_giveUp : contract.wp caller (do
    shutdownGstreamerPipeline
    return false) (fun _ _ => True) (fun _ => True) x :=
  wp_bind_of wp_shutdown fun _ _ _ _ _ _ _ => trivial

theorem wp_startPipeline (h : facts.Known [.alone] caller x) :
    contract.wp caller startPipeline (fun _ _ => True) (fun _ => True) x := by
  have hX : ∀ y, facts.Known [.alone] caller y → True := fun _ _ => trivial
  have hnil : ∀ y, facts.Known [] caller y → True := fun _ _ => trivial
  refine quiet.wp hX h (.call (by decide)) fun _ x h => ?_
  refine quiet.wp hX h (.call (by decide)) fun _ x h => ?_
  refine quiet.wp hX h (.call (by decide)) fun _ x h => ?_
  refine quiet.wp hX h (.call (by decide)) fun _ x h => ?_
  refine quiet.wp hX h (.call (by decide)) fun _ x h => ?_
  refine wp_allowed (fun x _ h => ?_) h fun x r _ _ _ _ => ?_
  · exact ⟨nofun, nofun, nofun, fun _ => (h .alone (by decide)).2, nofun, nofun⟩
  refine quiet.wp hnil Facts.known_nil (built_orThrow r) fun _ x h => ?_
  refine quiet.wp hnil h (.call (by decide)) fun playing x h => ?_
  cases playing with
  | false => exact wp_giveUp
  | true => exact quiet.wp hnil h (.call (by decide)) fun _ _ _ _ _ _ => trivial

theorem wp_linkAndStart {width height fps : Nat} (h : facts.Known [.alone] caller x) :
    contract.wp caller (linkAndStart width height fps) (fun _ _ => True) (fun _ => True) x := by
  have hX : ∀ y, facts.Known [.alone] caller y → True := fun _ _ => trivial
  refine quiet.wp hX h (.call (by decide)) fun _ x h => ?_
  refine quiet.wp hX h (.call (by decide)) fun linked x h => ?_
  cases linked with
  | false => exact wp_giveUp
  | true =>
  refine quiet.wp hX h (.call (by simp [Quiet, strict])) fun r x h => ?_
  exact quiet.wp hX h (built_orThrow r) fun _ x h => wp_startPipeline h

theorem wp_dropWithoutEncoder {convert : Bool} (h : facts.Known [.alone] caller x) :
    contract.wp caller (dropWithoutEncoder convert) (fun _ _ => True) (fun _ => True) x := by
  have hX : ∀ y, facts.Known [.alone] caller y → True := fun _ _ => trivial
  refine quiet.wp hX h (.call (by decide)) fun _ x h => ?_
  refine quiet.wp hX h (.when _ (.call (by decide))) fun _ x h => ?_
  refine quiet.wp hX h (.when _ (.call (by decide))) fun _ x h => ?_
  refine wp_dropPipeline h fun x h => ?_
  exact quiet.wp hX h (.call (by decide)) fun _ _ _ _ _ _ => trivial

theorem wp_dropElements {convert h264enc h264parse queue : Bool}
    (h : facts.Known [.alone] caller x) :
    contract.wp caller (dropElements convert h264enc h264parse queue) (fun _ _ => True)
      (fun _ => True) x := by
  have hX : ∀ y, facts.Known [.alone] caller y → True := fun _ _ => trivial
  refine quiet.wp hX h (.call (by decide)) fun _ x h => ?_
  refine quiet.wp hX h (.when _ (.call (by decide))) fun _ x h => ?_
  refine quiet.wp hX h (.when _ (.call (by decide))) fun _ x h => ?_
  refine quiet.wp hX h (.when _ (.call (by decide))) fun _ x h => ?_
  refine quiet.wp hX h (.when _ (.call (by decide))) fun _ x h => ?_
  refine quiet.wp hX h (.when _ (.call (by decide))) fun _ x h => ?_
  refine quiet.wp hX h (.call (by decide)) fun _ x h => ?_
  refine quiet.wp hX h (.when _ (.call (by decide))) fun _ x h => ?_
  refine wp_dropPipeline h fun x h => ?_
  refine quiet.wp hX h (.call (by decide)) fun _ x h => ?_
  exact quiet.wp hX h (.call (by decide)) fun _ _ _ _ _ _ => trivial

/-- A pipeline is made where none is left. -/
theorem wp_buildPipeline {width height fps : Nat} :
    contract.wp caller (buildPipeline width height fps) (fun _ _ => True) (fun _ => True) x := by
  have hX : ∀ y, facts.Known [.alone] caller y → True := fun _ _ => trivial
  refine wp_allowed (l := []) (fun _ _ _ => allowed_of_quiet (by decide)) Facts.known_nil
    fun x made _ _ _ hok => ?_
  obtain ⟨hjoinable, hpipeline⟩ := (hok.2 _ _ _ rfl).1 rfl
  have hvacant : facts.Known [.vacant] caller x := Facts.known_nil.learn
    ⟨rfl, Option.not_isSome_iff_eq_none.mp (Bool.eq_false_iff.mp hjoinable), hpipeline⟩
  have h := hvacant.kept (kept_of_quiet (c := .pipelineNew) (r := made) (by decide))
  have hassign : ∀ x, Sound x → facts.Known [.vacant] caller x →
      Allowed caller (.assign .pipeline_ made) x := by
    intro x hi h
    have hvacant : facts .vacant caller x := h .vacant (by decide)
    refine ⟨fun _ => hvacant.2, fun _ => hi.vacated hvacant.2.2, nofun, nofun, nofun, nofun⟩
  refine wp_allowed hassign h fun x r _ h _ _ => ?_
  have hvacant : facts .vacant caller x := h .vacant (by decide)
  have h : facts.Known [.alone] caller (x.1.after caller (.assign .pipeline_ made) r,
      x.2.after caller (.assign .pipeline_ made) r) := Facts.known_nil.learn ⟨rfl, hvacant.2.1⟩
  refine quiet.wp hX h (.call (by decide)) fun pipeline x h => ?_
  cases pipeline with
  | false => exact fun _ _ _ => trivial
  | true =>
  have hencoder : makeEncoder.Built Quiet Prog.noParts :=
    .bind (.call (by decide)) fun _ => .ite (.ret _) <|
      .bind (.call (by decide)) fun _ => .ite (.ret _) (.call (by decide))
  have hhlssink : makeHlssink.Built Quiet Prog.noParts :=
    .bind (.call (by decide)) fun _ => .bind (.call (by simp [Quiet, strict])) fun _ =>
      .bind (.call (by decide)) fun _ => .when _ <|
        .bind (.call (by decide)) fun _ => .call (by simp [Quiet, strict])
  refine quiet.wp hX h (.call (by decide)) fun made x h => ?_
  refine quiet.wp hX h (.call (by simp [Quiet, strict])) fun _ x h => ?_
  refine quiet.wp hX h (.call (by decide)) fun convert x h => ?_
  refine quiet.wp hX h hencoder fun h264enc x h => ?_
  cases h264enc with
  | false => exact wp_dropWithoutEncoder h
  | true =>
  refine quiet.wp hX h (.call (by decide)) fun h264parse x h => ?_
  refine quiet.wp hX h (.call (by decide)) fun queue x h => ?_
  refine quiet.wp hX h hhlssink fun _ x h => ?_
  refine quiet.wp hX h (.call (by decide)) fun appsrc x h => ?_
  refine quiet.wp hX h (.call (by decide)) fun hlssink x h => ?_
  split
  · exact wp_dropElements h
  · exact wp_linkAndStart h

theorem keeps_initialize (width height fps : Nat) :
    contract.Keeps caller (fun _ => True) (initializeGstreamerPipeline width height fps) := by
  intro x _
  have hnil : ∀ y, facts.Known [] caller y → True := fun _ _ => trivial
  apply wp_tryCatch.mpr
  refine wp_mono (Q := fun _ _ => True) (X := fun _ => True) ?_ (fun _ _ _ h => h)
    fun _ _ _ => wp_giveUp
  refine quiet.wp hnil Facts.known_nil (.call (by decide)) fun r x h => ?_
  exact quiet.wp hnil h (built_orThrow r) fun _ x _ => wp_buildPipeline

/-- The parts of the operations that are looked at above. -/
def parts (α : Type) (p : Prog Sys α) : Prop :=
  Prog.onlyPart shutdownGstreamerPipeline α p ∨
    ∃ width height fps, Prog.onlyPart (initializeGstreamerPipeline width height fps) α p

theorem built_operation {legacy : Bool} (op : Operation) :
    (operate legacy op).Built Quiet parts := by
  have hs : shutdownGstreamerPipeline.Built Quiet parts := .part (.inl ⟨rfl, rfl⟩)
  have hi : ∀ width height fps, (initializeGstreamerPipeline width height fps).Built Quiet parts :=
    fun width height fps => .part (.inr ⟨width, height, fps, rfl, rfl⟩)
  have hT : ∀ c, teardownCall c = true → Quiet c := not_mem_of (by decide)
  have hR : ∀ c, requestCall c = true → Quiet c := not_mem_of (by decide)
  have hC : ∀ c, photoCall c = true → Quiet c := not_mem_of (by decide)
  have hA : ∀ c, acquireCall c = true → Quiet c := not_mem_of (by decide)
  have hS : ∀ c, stopCall c = true → Quiet c := not_mem_of (by decide)
  cases op with
  | initializeCamera => exact built_initializeCamera hA (by decide) (by decide) (by decide)
  | takePicture =>
    exact built_takePicture (by decide) (by decide) (by decide)
      (built_cameraReady (by decide) (by decide))
      (built_leaveVideoMode hS (built_stopVideoModeUnlocked hT hs))
      (built_capturePhoto hC (built_photoRequest hC (built_awaitCompletion (not_mem_of (by decide)))
        hR))
  | startVideoMode width height fps =>
    exact built_startVideoMode hT (not_mem_of (by decide)) hi hs
      (built_queueBuffer hR (built_keepRequest hT hR) (built_rollbackUnlocked hT hs)) _ _ _
  | stopVideoMode => exact built_stopVideoMode hT hs
  | reinitializeCamera =>
    refine built_reinitializeCamera hA hT hs fun value => ?_
    cases value <;> decide

theorem keeps_callerBody {legacy initialized : Bool} :
    contract.Keeps caller (fun _ => True) (callerBody legacy initialized) := by
  apply keeps_of_built (fun _ _ _ _ => id)
    (fun c hc x _ _ => ⟨allowed_of_quiet hc, fun _ _ _ _ => trivial⟩) _
    (built_callerBody legacy (by decide) built_operation initialized)
  rintro α p (⟨rfl, rfl⟩ | ⟨width, height, fps, rfl, rfl⟩)
  · exact keeps_shutdown
  · exact keeps_initialize width height fps

end

/-! ## The threads of the main loops -/

section

variable {x : World × Buses} {n : Nat}

theorem wp_gstThreadBegin (h : facts.Known [.unfinished] (.gst n) x) :
    contract.wp (.gst n) gstThreadBegin (fun _ => facts.Known [.alive] (.gst n)) (fun _ => True)
      x := by
  refine wp_allowed (fun _ _ _ => allowed_of_quiet (by decide)) h fun x r _ h hanswer _ => ?_
  have hstarted : x.1.threads.started (.gst n) = true := World.threads_of_answers hanswer
  have halive : facts.Known [.alive] (.gst n) x :=
    Facts.known_nil.learn ⟨hstarted, h .unfinished (by decide)⟩
  refine quiet.wp (fun _ _ => trivial)
    (halive.kept (kept_of_quiet (c := .threadBegin) (r := r) (by decide))) (.call (by decide))
    fun _ x h => ?_
  exact quiet.wp_end (fun _ _ => trivial) h (.call (by decide))

theorem wp_gstThreadTurn (h : facts.Known [.alive] (.gst n) x) :
    contract.wp (.gst n) gstThreadTurn
      (fun more y => more = true → facts.Known [.alive] (.gst n) y) (fun _ => True) x := by
  have hX : ∀ l y, facts.Known l (.gst n) y → True := fun _ _ _ => trivial
  refine wp_allowed (fun x _ h => ?_) h fun x turn _ h _ _ => ?_
  · have halive : facts .alive (.gst n) x := h .alive (by decide)
    exact ⟨nofun, nofun, nofun, nofun, fun _ => halive, nofun⟩
  have halive : facts .alive (.gst n) x := h .alive (by decide)
  cases turn with
  | message m =>
    have h : facts.Known [.alive] (.gst n) (x.1.after (.gst n) .mainLoopTurn (.message m),
        x.2.after (.gst n) .mainLoopTurn (.message m)) := Facts.known_nil.learn halive
    have hmessage : (onGstMessage m).Built Quiet Prog.noParts := by
      cases m with
      | error =>
        exact .bind (.call (by decide)) fun _ => .bind (.call (by decide)) fun _ =>
          .ite (.ret _) <| .bind (.call (by decide)) fun _ => .when _ (.call (by decide))
      | eos => exact .ret _
      | other => exact .ret _
    exact quiet.wp (hX _) h hmessage fun _ x h v hr hi _ => quiet.known x v hr hi h
  | returned =>
    have hidle : facts .idle (.gst n) (x.1.after (.gst n) .mainLoopTurn .returned,
        x.2.after (.gst n) .mainLoopTurn .returned) := by
      intro n' hn
      cases hn
      exact Function.update_self ..
    refine quiet.wp (hX _) (Facts.known_nil.learn hidle) (.call (by decide)) fun _ x h => ?_
    refine wp_allowed (fun x _ h => ?_) h fun _ _ _ _ _ _ _ _ _ => nofun
    exact ⟨nofun, nofun, nofun, nofun, nofun, fun _ => h .idle (by decide)⟩

end

/-! ## All threads -/

def proof (legacy : Bool) : contract.Proof (code legacy) where
  holds
    | .caller 0, _, _ | .callback, _, _ => True
    | .gst n, .begin, x => facts.Known [.unfinished] (.gst n) x
    | .gst n, .loop, x => facts.Known [.alive] (.gst n) x
    | _, _, _ => False
  body t pc x _ h := by
    cases t with
    | caller n =>
      cases n with
      | zero => exact wp_mono (keeps_callerBody x trivial) (fun _ _ _ _ _ _ => trivial) fun _ _ h => h
      | succ n => exact h.elim
    | callback =>
      have hquiet : (callbackBody legacy).Built Quiet Prog.noParts :=
        built_callbackBody legacy (not_mem_of (by decide))
      exact wp_mono (wp_of_built hquiet fun _ hc _ _ => allowed_of_quiet hc)
        (fun _ _ _ _ _ _ => trivial) fun _ _ h => h
    | gst n =>
      cases pc with
      | begin =>
        refine wp_bind_of (wp_gstThreadBegin h) fun _ x _ h v hr hi => ?_
        rintro _ ⟨⟩
        exact quiet.known x v hr hi h
      | loop =>
        refine wp_bind_of (wp_gstThreadTurn h) fun more x _ h v hr hi => ?_
        cases more with
        | false => exact nofun
        | true =>
          rintro _ ⟨⟩
          exact quiet.known x v hr hi (h rfl)
    | _ => exact h.elim

def start : World × Buses := (.init, .init)

theorem valid_start (legacy : Bool) : (proof legacy).Valid ⟨start, (callerStart legacy).prog⟩ := by
  refine valid_callerStart (proof legacy) ⟨nofun, nofun, fun _ => rfl, nofun, nofun⟩ ?_ ?_ ?_
  · exact fun _ _ _ => trivial
  · exact fun _ _ => trivial
  · intro n x hr _
    have hunfinished : facts .unfinished (.gst n) start := rfl
    exact Facts.known_nil.learn (hr .unfinished hunfinished)

end Dispatch

/-- However often video mode is started and left, and however the calls in it go: while no pipeline
with a watch is dropped before its messages are read, a thread that runs `onGstMessage` runs it for
the last pipeline that was made, and that one is still there. -/
theorem CameraManager.messages_of_own_session {legacy : Bool}
    {cfg : Config (code legacy) (World × Buses)}
    (hrun : Run bussed (fun x l => Dispatch.tidy x l = true)
      ⟨Dispatch.start, (callerStart legacy).prog⟩ cfg) {n k : Nat}
    (h : cfg.world.2.handling n = some k) :
    k = cfg.world.2.made ∧ cfg.world.2.dropped k = false := by
  -- what is known of the members may be used on the way
  have hknown : Run bussed Dispatch.known ⟨Dispatch.start, (callerStart legacy).prog⟩ cfg :=
    hrun.left_pending fun hrun _ _ hp =>
      ((Serial.proof legacy).sound (Serial.valid_start legacy) hrun.of_among).pre hp
  have hvalid := (Dispatch.proof legacy).sound (Dispatch.valid_start legacy) hknown
  exact (hvalid.inv.handling n k h).2.2

/-- The replies when everything goes well, but a loop dispatches an `ERROR` message. -/
def Dispatch.errorMessage (x : World × Buses) : (c : SysCall) → Option c.Reply
  | .mainLoopTurn => some (.message .error)
  | c => x.1.willing .takePicture c

/-- A session is taken down with nothing on its bus, and the pipeline of the next one fails while
its loop runs. -/
def Dispatch.ownError : List (Choice Sys Tid (World × Buses) Happening) :=
  runsWith (fun x => x.1.willing .initializeCamera) caller 12 ++
    runsWith (fun x => x.1.willing (.startVideoMode 1280 720 30)) caller 54 ++
      runsWith (fun x => x.1.willing .takePicture) (.gst 1) 5 ++
        runsWith (fun x => x.1.willing .stopVideoMode) caller 12 ++
          runsWith (fun x => x.1.willing .stopVideoMode) .callback 3 ++
            runsWith (fun x => x.1.willing .stopVideoMode) caller 12 ++
              runsWith (fun x => x.1.willing .takePicture) (.gst 1) 3 ++
                runsWith (fun x => x.1.willing .stopVideoMode) caller 20 ++
                  runsWith (fun x => x.1.willing (.startVideoMode 1280 720 30)) caller 54 ++
                    runsWith (fun x => x.1.willing .takePicture) (.gst 2) 5 ++
                      [.env (.post 2 .error), .env (.choose 2 2)] ++
                        runsWith errorMessage (.gst 2) 1

theorem CameraManager.messages_of_own_session_error :
    ∃ (cfg : Config (code false) (World × Buses)) (n k : Nat),
      cfg.world.2.handling n = some k ∧ cfg.world.2.dropped 1 = true ∧
        k = cfg.world.2.made ∧ cfg.world.2.dropped k = false := by
  obtain ⟨cfg, hrun, htest⟩ := exec_reaches bussed Dispatch.tidy
    ⟨Dispatch.start, (callerStart false).prog⟩ Dispatch.ownError
    (fun cfg => cfg.world.2.handling 2 = some 2 ∧ cfg.world.2.dropped 1 = true) (by decide +kernel)
  obtain ⟨hhandling, hdropped⟩ := of_decide_eq_true htest
  exact ⟨cfg, 2, 2, hhandling, hdropped, CameraManager.messages_of_own_session hrun hhandling⟩

/-- The state change of the pipeline fails. -/
def Dispatch.stateChangeFails (x : World × Buses) : (c : SysCall) → Option c.Reply
  | .setState .playing => some false
  | c => x.1.willing (.startVideoMode 1280 720 30) c

/-- A start fails with a message on the bus, and video mode is started again. -/
def Dispatch.laterSession : List (Choice Sys Tid (World × Buses) Happening) :=
  runsWith (fun x => x.1.willing .initializeCamera) caller 12 ++
    runsWith stateChangeFails caller 36 ++ runsWith (fun x => x.1.willing .takePicture) (.gst 1) 5 ++
      [.env (.post 1 .error)] ++ runsWith stateChangeFails caller 8 ++
        runsWith (fun x => x.1.willing .takePicture) (.gst 1) 3 ++
          runsWith stateChangeFails caller 32 ++
            runsWith (fun x => x.1.willing (.startVideoMode 1280 720 30)) caller 54 ++
              runsWith (fun x => x.1.willing .takePicture) (.gst 2) 5 ++ [.env (.choose 2 1)] ++
                runsWith errorMessage (.gst 2) 5

/-- The message of the first pipeline, which is gone, ends the second one's loop. -/
theorem CameraManager.message_of_earlier_session :
    ∃ cfg : Config (code false) (World × Buses),
      Run bussed anyStep ⟨Dispatch.start, (callerStart false).prog⟩ cfg ∧
      cfg.world.2.handling 2 = some 1 ∧ cfg.world.2.made = 2 ∧ cfg.world.2.dropped 1 = true ∧
        cfg.world.1.flag .gstPipelineError_ = true ∧ cfg.world.1.glib.running 2 = false := by
  obtain ⟨cfg, hrun, htest⟩ := exec_reaches bussed (fun _ _ => true)
    ⟨Dispatch.start, (callerStart false).prog⟩ Dispatch.laterSession
    (fun cfg => cfg.world.2.handling 2 = some 1 ∧ cfg.world.2.made = 2 ∧
      cfg.world.2.dropped 1 = true ∧ cfg.world.1.flag .gstPipelineError_ = true ∧
        cfg.world.1.glib.running 2 = false) (by decide +kernel)
  exact ⟨cfg, hrun.mono fun _ _ _ => trivial, of_decide_eq_true htest⟩

end SurfCam

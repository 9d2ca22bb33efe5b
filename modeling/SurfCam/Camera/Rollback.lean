import SurfCam.Camera.Locks
import SurfCam.Logic.Facts
import SurfCam.Logic.Watch
import SurfCam.System

/-!
# A rollback and a picture

One thread starts and stops video mode, another takes pictures.  A start that fails gives
`cameraOpsMutex_` up before it is rolled back, and the rollback stops the camera if it finds it
running, whoever has started it.
-/

namespace SurfCam

open Interaction CameraManager Contract

/-- The thread that calls any operations but `takePicture`. -/
def operatorBody (legacy : Bool) : Prog Sys (Option Bool) := do
  let op ← sys .nextOperation
  if op = .takePicture then return some true
  let _ ← CameraManager.operate legacy op
  return some true

/-- The thread that takes pictures. -/
def photographerBody (legacy : Bool) : Prog Sys (Option Bool) := do
  let _ ← CameraManager.takePicture legacy
  return some true

def studio (legacy : Bool) : Code Sys Tid where
  Pc := Tid.Pc
  body
    | .caller 0 => fun _ => operatorBody legacy
    | .caller _ => fun _ => photographerBody legacy
    | t => (code legacy).body t

/-- Both threads share a newly constructed `CameraManager`. -/
def studioStart (legacy : Bool) : Config (studio legacy) World where
  world := .init
  prog
    | .caller 0 | .caller 1 => .ret (some false)
    | t => backgroundStart legacy t

namespace Rollback

abbrev operator : Tid := .caller 0

abbrev photographer : Tid := .caller 1

structure Past where
  /-- `takePicture` has started the camera and not stopped it -/
  photo : Bool
  /-- the owner of `videoTeardownMutex_` has stopped the camera -/
  halted : Bool
  /-- the operator's start has come to `generateConfiguration` -/
  configuring : Bool
  /-- its rollback owns `videoTeardownMutex_` -/
  rolling : Bool
  /-- and has found a camera to stop -/
  looked : Bool
  deriving DecidableEq

def photoAfter : Tid → (c : SysCall) → c.Reply → Bool → Bool
  | .caller 1, .cameraStart, .ok, _ => true
  | .caller 1, .stopEnd, _, _ => false
  | _, _, _, photo => photo

def haltedAfter (t : Tid) (w : World) : SysCall → Bool → Bool
  | .stopEnd, halted => halted || w.owner .videoTeardownMutex_ = some t
  | .unlock .videoTeardownMutex_, _ => false
  | _, halted => halted

def configuringAfter : Tid → SysCall → Bool → Bool
  | .caller 0, .generateConfiguration .video, _ => true
  | .caller 0, .nextOperation, _ => false
  | _, _, configuring => configuring

def rollingAfter : Tid → SysCall → Past → Bool
  | .caller 0, .lock .videoTeardownMutex_, past => past.configuring
  | .caller 0, .unlock .videoTeardownMutex_, _ => false
  | _, _, past => past.rolling

/-- A call that finds a camera to stop. -/
def looks (legacy : Bool) : (c : SysCall) → c.Reply → Bool
  | .cameraIsRunning, true => !legacy
  | .isSet .camera_, true => legacy
  | _, _ => false

def lookedAfter (legacy : Bool) : Tid → (c : SysCall) → c.Reply → Past → Bool
  | .caller 0, .stopEnd, _, _ => false
  | .caller 0, c, r, past => past.looked || looks legacy c r && past.rolling
  | _, _, _, past => past.looked

def pastAfter (legacy : Bool) (t : Tid) (c : SysCall) (r : c.Reply) (w : World) (past : Past) :
    Past where
  photo := photoAfter t c r past.photo
  halted := haltedAfter t w c past.halted
  configuring := configuringAfter t c past.configuring
  rolling := rollingAfter t c past
  looked := lookedAfter legacy t c r past

def see (legacy : Bool) (w : World) : Label Sys Tid Signal → Past → Past
  | .act t c r, past => pastAfter legacy t c r w past
  | _, past => past

/-- A rollback does not look for a camera to stop during a picture, and no picture is begun between
that and the stop. -/
def apart (legacy : Bool) (x : World × Past) : Label Sys Tid Signal → Bool
  | .act (.caller 0) c r => !(looks legacy c r && x.2.rolling && x.2.photo)
  | .act (.caller 1) .cameraStart .ok => !x.2.looked
  | _ => true

/-! ## What a thread knows -/

/-- Video mode is on only with a camera that runs, or that a teardown has stopped. -/
def Settled (x : World × Past) : Prop :=
  x.1.flag .isVideoMode_ = true → x.2.halted = false → x.1.device.running = true

inductive Fact where
  | ops
  | teardown
  | unstopped
  | engaged
  | off
  | configuring
  | rolling
  | aimed
  | started
  | steady
  | settled
  | camera
  | idle
  deriving DecidableEq

def facts : Facts Fact Tid (World × Past)
  | .ops, t, x => x.1.owner .cameraOpsMutex_ = some t
  | .teardown, t, x => x.1.owner .videoTeardownMutex_ = some t
  | .unstopped, t, x => x.1.owner .videoTeardownMutex_ = some t ∧ x.2.halted = false
  | .engaged, t, x => x.1.owner .videoTeardownMutex_ = some t ∧ x.2.halted = false ∧
      x.1.flag .isVideoMode_ = true
  | .off, t, x => t = operator ∧ x.1.flag .isVideoMode_ = false
  | .configuring, t, x => t = operator ∧ x.2.configuring = true
  | .rolling, t, x => t = operator ∧ x.2.rolling = true
  | .aimed, t, x => t = operator ∧ x.2.rolling = true ∧ x.2.looked = true ∧ x.2.photo = false
  | .started, t, x => t = operator ∧ x.1.owner .cameraOpsMutex_ = some t ∧
      x.1.flag .isVideoMode_ = false ∧ x.1.device.running = true
  | .steady, t, x => t = photographer ∧ x.1.owner .videoTeardownMutex_ = some t ∧
      (x.1.flag .isVideoMode_ = true → x.1.device.running = true)
  | .settled, t, x => t = photographer ∧ Settled x
  | .camera, t, x => x.1.owner .cameraOpsMutex_ = some t ∧ x.1.ptr .camera_ = true
  | .idle, t, x => t = photographer ∧ x.2.photo = false

/-- Who may stop the camera: the operator no camera that takes a picture, and the photographer
while the operator is not starting video mode. -/
inductive MayStop (t : Tid) (x : World × Past) : Prop where
  | operator : t = operator → x.2.photo = false →
      x.1.flag .isVideoMode_ = false ∨ x.1.owner .videoTeardownMutex_ = some t → MayStop t x
  | photographer : t = photographer →
      x.1.owner .cameraOpsMutex_ = some t ∨ x.1.flag .isVideoMode_ = true → MayStop t x

/-- What a call requires. -/
structure Allowed (t : Tid) (c : SysCall) (x : World × Past) : Prop where
  stops : c = .stopBegin ∨ c = .stopEnd → MayStop t x
  starts : c = .cameraStart → x.1.owner .cameraOpsMutex_ = some t ∧
    (t = photographer → Settled x)
  enters : c = .store .isVideoMode_ true → t = operator ∧
    x.1.owner .cameraOpsMutex_ = some t ∧ x.1.device.running = true
  leaves : c = .store .isVideoMode_ false →
    x.1.owner .videoTeardownMutex_ = some t ∨ x.1.flag .isVideoMode_ = false
  exchanges : ∀ value, c ≠ .exchange .isVideoMode_ value
  gives : c = .unlock .videoTeardownMutex_ →
    t = operator ∧ x.1.flag .isVideoMode_ = false ∨ t = photographer ∧ x.2.photo = false
  yields : c = .unlock .cameraOpsMutex_ → t = photographer → x.2.photo = false
  assigns : ∀ value, c = .assign .camera_ value → x.1.owner .cameraOpsMutex_ = some t

structure Sound (x : World × Past) : Prop where
  photo : x.2.photo = true → x.1.owner .cameraOpsMutex_ = some photographer ∧
    x.1.device.running = true ∧ (x.1.flag .isVideoMode_ = false ∨ x.2.halted = true)
  halted : x.2.halted = true → x.1.owner .videoTeardownMutex_ ≠ none

section

variable {legacy : Bool} {t u : Tid} {c : SysCall} {r : c.Reply} {x : World × Past}

theorem video_of_after (ha : Allowed t c x)
    (h : (x.1.after t c r).flag .isVideoMode_ = true) :
    x.1.flag .isVideoMode_ = true ∨ c = .store .isVideoMode_ true := by
  by_cases hs : ∃ value, c = .store .isVideoMode_ value
  · obtain ⟨value, rfl⟩ := hs
    change Function.update x.1.flag .isVideoMode_ value .isVideoMode_ = true at h
    rw [Function.update_self] at h
    exact .inr (by rw [h])
  · rw [World.flag_after (fun value he => hs ⟨value, he⟩) ha.exchanges] at h
    exact .inl h

theorem video_kept (ha : Allowed t c x) (hc : c ≠ .store .isVideoMode_ false)
    (h : x.1.flag .isVideoMode_ = true) : (x.1.after t c r).flag .isVideoMode_ = true := by
  by_cases hs : c = .store .isVideoMode_ true
  · subst hs
    show Function.update x.1.flag .isVideoMode_ true .isVideoMode_ = true
    rw [Function.update_self]
  · rw [World.flag_after _ ha.exchanges, h]
    intro value he
    cases value with
    | true => exact hs he
    | false => exact hc he

theorem off_kept (ha : Allowed t c x) (hc : c ≠ .store .isVideoMode_ true)
    (h : x.1.flag .isVideoMode_ = false) : (x.1.after t c r).flag .isVideoMode_ = false := by
  apply Bool.eq_false_iff.mpr
  intro hon
  cases video_of_after ha hon with
  | inl hon => exact Bool.false_ne_true (h.symm.trans hon)
  | inr hs => exact hc hs

theorem halted_of_after {w : World} {halted : Bool} (h : haltedAfter t w c halted = true) :
    halted = true ∨ c = .stopEnd ∧ w.owner .videoTeardownMutex_ = some t := by
  unfold haltedAfter at h
  split at h
  · cases Bool.or_eq_true_iff.mp h with
    | inl h => exact .inl h
    | inr h => exact .inr ⟨rfl, of_decide_eq_true h⟩
  · cases h
  · exact .inl h

theorem halted_kept {w : World} {halted : Bool} (hc : c ≠ .unlock .videoTeardownMutex_)
    (h : halted = true) : haltedAfter t w c halted = true := by
  unfold haltedAfter
  split
  · rw [h, Bool.true_or]
  · contradiction
  · exact h

/-- Only the photographer begins a picture. -/
theorem photo_of_after {photo : Bool} (h : photoAfter t c r photo = true) :
    photo = true ∨ t = photographer ∧ c = .cameraStart := by
  unfold photoAfter at h
  split at h
  · exact .inr ⟨rfl, rfl⟩
  · cases h
  · exact .inl h

theorem Settled.after (h : Settled x) (ha : Allowed t c x)
    (hstop : c = .stopEnd →
      x.1.flag .isVideoMode_ = false ∨ x.1.owner .videoTeardownMutex_ = some t)
    (hgive : c = .unlock .videoTeardownMutex_ → x.1.flag .isVideoMode_ = true →
      x.1.device.running = true) :
    Settled (x.1.after t c r, pastAfter legacy t c r x.1 x.2) := by
  intro hvideo hhalted
  cases video_of_after ha hvideo with
  | inr hs => exact World.running_kept (hs ▸ nofun) (ha.enters hs).2.2
  | inl hon =>
  by_cases hc : c = .stopEnd
  · subst hc
    cases hstop rfl with
    | inl hoff => exact absurd hon (Bool.eq_false_iff.mp hoff)
    | inr howner =>
      -- the camera was stopped in a teardown
      change (x.2.halted || x.1.owner .videoTeardownMutex_ = some t) = false at hhalted
      rw [decide_eq_true howner, Bool.or_true] at hhalted
      cases hhalted
  apply World.running_kept hc
  by_cases hg : c = .unlock .videoTeardownMutex_
  · exact hgive hg hon
  · apply h hon
    apply Bool.eq_false_iff.mpr
    exact fun hbefore => Bool.eq_false_iff.mp hhalted (halted_kept hg hbefore)

/-- The invariant survives a call. -/
theorem sound_after (hi : Sound x) (ha : Allowed t c x) (hanswer : x.1.answers t c r = true) :
    Sound (x.1.after t c r, pastAfter legacy t c r x.1 x.2) where
  photo h := by
    by_cases hbefore : x.2.photo = true
    · obtain ⟨howner, hrunning, hmode⟩ := hi.photo hbefore
      have hops : (x.1.after t c r).owner .cameraOpsMutex_ = some photographer := by
        refine World.owner_kept (by decide) howner hanswer fun hc ht => ?_
        exact Bool.eq_false_iff.mp (ha.yields hc ht) hbefore
      have hstop : c ≠ .stopEnd := by
        rintro rfl
        cases ha.stops (.inr rfl) with
        | operator _ hphoto => exact Bool.eq_false_iff.mp hphoto hbefore
        | photographer ht =>
          -- the picture ends
          subst ht
          cases h
      have henter : c ≠ .store .isVideoMode_ true := by
        intro hc
        have hboth := ((ha.enters hc).1 ▸ (ha.enters hc).2.1).symm.trans howner
        cases hboth
      refine ⟨hops, World.running_kept hstop hrunning, ?_⟩
      by_cases hgive : c = .unlock .videoTeardownMutex_
      · cases ha.gives hgive with
        | inl hoff => exact .inl (off_kept ha henter hoff.2)
        | inr hphoto => exact absurd hbefore (Bool.eq_false_iff.mp hphoto.2)
      · exact hmode.imp (off_kept ha henter) (halted_kept hgive)
    · obtain ⟨rfl, rfl⟩ := (photo_of_after h).resolve_left hbefore
      obtain ⟨howner, hsettled⟩ := ha.starts rfl
      cases r with
      | failed => exact absurd h hbefore
      | threw => exact absurd h hbefore
      | ok =>
        refine ⟨howner, rfl, ?_⟩
        -- the camera was not running, so that video mode is off or has been torn down
        have hidle : x.1.device.running = false :=
          Bool.not_eq_true' _ |>.mp (World.device_of_answers hanswer)
        by_cases hon : x.1.flag .isVideoMode_ = true
        · right
          show x.2.halted = true
          by_contra hhalted
          have hrunning := hsettled rfl hon (Bool.eq_false_iff.mpr hhalted)
          exact Bool.false_ne_true (hidle.symm.trans hrunning)
        · exact .inl (Bool.eq_false_iff.mpr hon)
  halted h := by
    cases halted_of_after h with
    | inr hstop =>
      obtain ⟨rfl, howner⟩ := hstop
      intro hnone
      change x.1.owner .videoTeardownMutex_ = none at hnone
      rw [howner] at hnone
      cases hnone
    | inl hbefore =>
      obtain ⟨u, howner⟩ := Option.ne_none_iff_exists'.mp (hi.halted hbefore)
      have hkept : (x.1.after t c r).owner .videoTeardownMutex_ = some u := by
        refine World.owner_kept (by decide) howner hanswer ?_
        rintro rfl
        cases h
      exact fun hnone => Option.some_ne_none u (hkept.symm.trans hnone)

theorem configuring_of_other {b : Bool} (ht : t ≠ operator) : configuringAfter t c b = b := by
  unfold configuringAfter
  split <;> first | contradiction | rfl

theorem rolling_of_other {past : Past} (ht : t ≠ operator) : rollingAfter t c past = past.rolling := by
  unfold rollingAfter
  split <;> first | contradiction | rfl

theorem looked_of_other {past : Past} (ht : t ≠ operator) :
    lookedAfter legacy t c r past = past.looked := by
  unfold lookedAfter
  split <;> first | contradiction | rfl

theorem photo_of_other {photo : Bool} (ht : t ≠ photographer) : photoAfter t c r photo = photo := by
  unfold photoAfter
  split <;> first | contradiction | rfl

/-- What the others know survives a call. -/
theorem kept_of_other (htu : t ≠ u) (ha : Allowed u c x)
    (hok : apart legacy x (.act u c r) = true) (hanswer : x.1.answers u c r = true) :
    facts.Kept t x (x.1.after u c r, pastAfter legacy u c r x.1 x.2) := by
  have howner : ∀ m, m ≠ .completionMutex → x.1.owner m = some t →
      (x.1.after u c r).owner m = some t :=
    fun m hm h => World.owner_kept hm h hanswer fun _ => htu.symm
  have hops := howner .cameraOpsMutex_ (by decide)
  have hteardown := howner .videoTeardownMutex_ (by decide)
  -- what the owner of a mutex does, another thread does not
  have hother : ∀ m, x.1.owner m = some t → x.1.owner m ≠ some u :=
    fun m h h' => htu (Option.some.inj (h.symm.trans h'))
  have hunstopped : x.1.owner .videoTeardownMutex_ = some t → x.2.halted = false →
      haltedAfter u x.1 c x.2.halted = false := by
    intro h hhalted
    apply Bool.eq_false_iff.mpr
    intro hafter
    cases halted_of_after hafter with
    | inl hbefore => exact Bool.false_ne_true (hhalted.symm.trans hbefore)
    | inr hstop => exact hother _ h hstop.2
  have henter : t = operator → c ≠ .store .isVideoMode_ true :=
    fun ht hc => htu (ht.trans (ha.enters hc).1.symm)
  intro f hf
  cases f with
  | ops => exact hops hf
  | teardown => exact hteardown hf
  | unstopped => exact ⟨hteardown hf.1, hunstopped hf.1 hf.2⟩
  | engaged =>
    obtain ⟨h, hhalted, hon⟩ := hf
    refine ⟨hteardown h, hunstopped h hhalted, video_kept ha (fun hc => ?_) hon⟩
    cases ha.leaves hc with
    | inl howns => exact hother _ h howns
    | inr hoff => exact Bool.false_ne_true (hoff.symm.trans hon)
  | off => exact ⟨hf.1, off_kept ha (henter hf.1) hf.2⟩
  | configuring =>
    exact ⟨hf.1, (configuring_of_other (hf.1 ▸ htu.symm)).trans hf.2⟩
  | rolling => exact ⟨hf.1, (rolling_of_other (hf.1 ▸ htu.symm)).trans hf.2⟩
  | aimed =>
    obtain ⟨ht, hrolling, hlooked, hphoto⟩ := hf
    have hu : u ≠ operator := ht ▸ htu.symm
    refine ⟨ht, (rolling_of_other hu).trans hrolling, (looked_of_other hu).trans hlooked, ?_⟩
    apply Bool.eq_false_iff.mpr
    intro hafter
    by_cases hbegin : u = photographer ∧ c = .cameraStart
    · obtain ⟨rfl, rfl⟩ := hbegin
      cases r with
      | ok =>
        -- no picture is begun before the stop
        have hnone : x.2.looked = false := Bool.not_eq_true' _ |>.mp hok
        exact Bool.false_ne_true (hnone.symm.trans hlooked)
      | failed => exact Bool.eq_false_iff.mp hphoto hafter
      | threw => exact Bool.eq_false_iff.mp hphoto hafter
    · exact Bool.eq_false_iff.mp hphoto ((photo_of_after hafter).resolve_right hbegin)
  | started =>
    obtain ⟨ht, howns, hoff, hrunning⟩ := hf
    refine ⟨ht, hops howns, off_kept ha (henter ht) hoff, World.running_kept (fun hc => ?_) hrunning⟩
    cases ha.stops (.inr hc) with
    | operator hu => exact htu (ht.trans hu.symm)
    | photographer _ hmay =>
      cases hmay with
      | inl howner => exact hother _ howns howner
      | inr hon => exact Bool.false_ne_true (hoff.symm.trans hon)
  | steady =>
    obtain ⟨ht, howns, hsteady⟩ := hf
    refine ⟨ht, hteardown howns, fun hafter => ?_⟩
    cases video_of_after ha hafter with
    | inr hs => exact World.running_kept (hs ▸ by decide) (ha.enters hs).2.2
    | inl hon =>
      apply World.running_kept _ (hsteady hon)
      intro hc
      cases ha.stops (.inr hc) with
      | operator _ _ hmay =>
        cases hmay with
        | inl hoff => exact Bool.false_ne_true (hoff.symm.trans hon)
        | inr howner => exact hother _ howns howner
      | photographer hu => exact htu (ht.trans hu.symm)
  | settled =>
    refine ⟨hf.1, hf.2.after ha (fun hc => ?_) fun hc hon => ?_⟩
    · cases ha.stops (.inr hc) with
      | operator _ _ hmay => exact hmay
      | photographer hu => exact absurd (hf.1.trans hu.symm) htu
    · cases ha.gives hc with
      | inl hoff => exact absurd hon (Bool.eq_false_iff.mp hoff.2)
      | inr hphoto => exact absurd (hf.1.trans hphoto.1.symm) htu
  | camera =>
    refine ⟨hops hf.1, ?_⟩
    show (x.1.after u c r).ptr .camera_ = true
    rw [World.ptr_after fun value hc => hother _ hf.1 (ha.assigns value hc), hf.2]
  | idle => exact ⟨hf.1, (photo_of_other (hf.1 ▸ htu.symm)).trans hf.2⟩

end

def contract (legacy : Bool) :
    Contract (system.watched (see legacy)) (fun x l => apart legacy x l = true) :=
  facts.contract Sound Allowed
    (fun hi ha _ hact => by
      obtain ⟨hanswer, rfl⟩ := watched_system_act.mp hact
      exact sound_after hi ha hanswer)
    (fun hi _ henv => by
      obtain ⟨w, hsys, rfl⟩ := watched_env.mp henv
      cases hsys
      exact ⟨hi.photo, hi.halted⟩)
    (fun htu _ ha hok hact => by
      obtain ⟨hanswer, rfl⟩ := watched_system_act.mp hact
      exact kept_of_other htu ha hok hanswer)
    (fun _ _ henv f hf => by
      obtain ⟨w, hsys, rfl⟩ := watched_env.mp henv
      cases hsys
      cases f <;> exact hf)

/-! ## Calls that change nothing -/

/-- The calls that change what a thread knows. -/
def telling : List SysCall :=
  [.stopEnd, .cameraStart, .store .isVideoMode_ true, .store .isVideoMode_ false,
    .exchange .isVideoMode_ true, .exchange .isVideoMode_ false, .lock .videoTeardownMutex_,
    .unlock .videoTeardownMutex_, .unlock .cameraOpsMutex_, .assign .camera_ true,
    .assign .camera_ false, .nextOperation]

/-- Those, and the one that only requires something. -/
def loud : List SysCall := .stopBegin :: telling

abbrev Quiet (c : SysCall) : Prop := c ∉ loud

theorem quiet_of {calls : SysCall → Bool} (h : ∀ c ∈ loud, calls c = false) (c : SysCall)
    (hc : calls c = true) : Quiet c :=
  fun hmem => Bool.false_ne_true ((h c hmem).symm.trans hc)

section

variable {legacy : Bool} {t : Tid} {c : SysCall} {r : c.Reply} {x : World × Past}

theorem ne_of_not_mem {l : List SysCall} {c' : SysCall} (hc : c ∉ l) (h : c' ∈ l) : c ≠ c' := by
  rintro rfl
  exact hc h

theorem allowed_of_quiet (hc : Quiet c) : Allowed t c x where
  stops h := by
    cases h with
    | inl h => exact absurd h (ne_of_not_mem hc (by decide))
    | inr h => exact absurd h (ne_of_not_mem hc (by decide))
  starts h := absurd h (ne_of_not_mem hc (by decide))
  enters h := absurd h (ne_of_not_mem hc (by decide))
  leaves h := absurd h (ne_of_not_mem hc (by decide))
  exchanges value := by cases value <;> exact ne_of_not_mem hc (by decide)
  gives h := absurd h (ne_of_not_mem hc (by decide))
  yields h := absurd h (ne_of_not_mem hc (by decide))
  assigns value := by cases value <;> exact fun h => absurd h (ne_of_not_mem hc (by decide))

theorem kept_of_not_telling (hc : c ∉ telling) (ha : Allowed t c x)
    (hanswer : x.1.answers t c r = true) :
    facts.Kept t x (x.1.after t c r, pastAfter legacy t c r x.1 x.2) := by
  have hops : x.1.owner .cameraOpsMutex_ = some t →
      (x.1.after t c r).owner .cameraOpsMutex_ = some t :=
    fun h => World.owner_kept (by decide) h hanswer fun he => absurd he (ne_of_not_mem hc (by decide))
  have hteardown : x.1.owner .videoTeardownMutex_ = some t →
      (x.1.after t c r).owner .videoTeardownMutex_ = some t :=
    fun h => World.owner_kept (by decide) h hanswer fun he => absurd he (ne_of_not_mem hc (by decide))
  have hhalted : x.2.halted = false → haltedAfter t x.1 c x.2.halted = false := by
    intro h
    apply Bool.eq_false_iff.mpr
    intro hafter
    cases halted_of_after hafter with
    | inl hbefore => exact Bool.false_ne_true (h.symm.trans hbefore)
    | inr hstop => exact ne_of_not_mem hc (by decide) hstop.1
  have hrolling : x.2.rolling = true → rollingAfter t c x.2 = true := by
    intro h
    unfold rollingAfter
    split <;> first | exact absurd (by decide) hc | exact h
  have hphoto : photoAfter t c r x.2.photo = x.2.photo := by
    unfold photoAfter
    split <;> first | exact absurd (by decide) hc | rfl
  intro f hf
  cases f with
  | ops => exact hops hf
  | teardown => exact hteardown hf
  | unstopped => exact ⟨hteardown hf.1, hhalted hf.2⟩
  | engaged =>
    exact ⟨hteardown hf.1, hhalted hf.2.1, video_kept ha (ne_of_not_mem hc (by decide)) hf.2.2⟩
  | off => exact ⟨hf.1, off_kept ha (ne_of_not_mem hc (by decide)) hf.2⟩
  | configuring =>
    refine ⟨hf.1, ?_⟩
    show configuringAfter t c x.2.configuring = true
    unfold configuringAfter
    split
    · rfl
    · exact absurd (by decide) hc
    · exact hf.2
  | rolling => exact ⟨hf.1, hrolling hf.2⟩
  | aimed =>
    obtain ⟨ht, hr, hlooked, hnone⟩ := hf
    refine ⟨ht, hrolling hr, ?_, hphoto.trans hnone⟩
    show lookedAfter legacy t c r x.2 = true
    unfold lookedAfter
    split
    · exact absurd (by decide) hc
    · rw [hlooked, Bool.true_or]
    · exact hlooked
  | started =>
    obtain ⟨ht, howns, hoff, hrunning⟩ := hf
    exact ⟨ht, hops howns, off_kept ha (ne_of_not_mem hc (by decide)) hoff,
      World.running_kept (ne_of_not_mem hc (by decide)) hrunning⟩
  | steady =>
    refine ⟨hf.1, hteardown hf.2.1, fun hafter => ?_⟩
    have hon := (video_of_after ha hafter).resolve_right (ne_of_not_mem hc (by decide))
    exact World.running_kept (ne_of_not_mem hc (by decide)) (hf.2.2 hon)
  | settled =>
    exact ⟨hf.1, hf.2.after ha (fun he => absurd he (ne_of_not_mem hc (by decide)))
      fun he => absurd he (ne_of_not_mem hc (by decide))⟩
  | camera =>
    refine ⟨hops hf.1, ?_⟩
    show (x.1.after t c r).ptr .camera_ = true
    rw [World.ptr_after _, hf.2]
    intro value
    cases value <;> exact ne_of_not_mem hc (by decide)
  | idle => exact ⟨hf.1, hphoto.trans hf.2⟩

theorem kept_of_quiet (hc : Quiet c) (hanswer : x.1.answers t c r = true) :
    facts.Kept t x (x.1.after t c r, pastAfter legacy t c r x.1 x.2) :=
  kept_of_not_telling (fun h => hc (.tail _ h)) (allowed_of_quiet hc) hanswer

theorem quiet_of_looks (h : looks legacy c r = true) : Quiet c := by
  unfold looks at h
  split at h
  · decide
  · decide
  · cases h

theorem quiet : facts.Quiet (contract legacy) t Quiet where
  rely hr := hr
  pre hc _ := allowed_of_quiet hc
  act hc _ hact := by
    obtain ⟨hanswer, rfl⟩ := watched_system_act.mp hact
    exact kept_of_quiet hc hanswer

end

section

variable {legacy : Bool} {α : Type} {t : Tid} {x : World × Past} {l : List Fact} {c : SysCall}
  {f : c.Reply → Prog Sys α} {Q : α → World × Past → Prop} {X : World × Past → Prop}

/-- A call that the thread may make, in front of the rest. -/
theorem wp_allowed (ha : ∀ x, Sound x → facts.Known l t x → Allowed t c x)
    (h : facts.Known l t x)
    (hf : ∀ (x : World × Past) (r : c.Reply), Sound x → facts.Known l t x →
      x.1.answers t c r = true → apart legacy x (.act t c r) = true →
      (contract legacy).wp t (f r) Q X (x.1.after t c r, pastAfter legacy t c r x.1 x.2)) :
    (contract legacy).wp t (sys c >>= f) Q X x := by
  refine wp_call_of quiet.known h fun x hi h => ⟨ha x hi h, fun r y hok hact => ?_⟩
  obtain ⟨hanswer, rfl⟩ := watched_system_act.mp hact
  exact hf x r hi h hanswer hok

/-- A quiet call from whose reply the thread learns. -/
theorem wp_look (hc : Quiet c) (h : facts.Known l t x)
    (hf : ∀ (x : World × Past) (r : c.Reply), Sound x → facts.Known l t x →
      x.1.answers t c r = true → apart legacy x (.act t c r) = true →
      facts.Known l t (x.1.after t c r, pastAfter legacy t c r x.1 x.2) →
      (contract legacy).wp t (f r) Q X (x.1.after t c r, pastAfter legacy t c r x.1 x.2)) :
    (contract legacy).wp t (sys c >>= f) Q X x :=
  wp_allowed (fun _ _ _ => allowed_of_quiet hc) h fun x r hi h hanswer hok =>
    hf x r hi h hanswer hok (h.kept (kept_of_quiet hc hanswer))

/-- A value is returned. -/
theorem wp_known {a : α} {l : α → List Fact} (h : facts.Known (l a) t x) :
    (contract legacy).wp t (.ret a) (fun a => facts.Known (l a) t) X x :=
  fun v hr hi => quiet.known x v hr hi h

end

/-! ## What is quiet -/

section

variable {legacy : Bool} {X : ∀ α : Type, Prog Sys α → Prop}

theorem built_slot : (disconnectVideoRequestSlot legacy).Built Quiet X :=
  built_dropSlot (quiet_of (by decide))

theorem built_clear : clearRequests.Built Quiet X :=
  built_lockGuard (by decide) (by decide) (.call (by decide))

theorem built_reset : resetAllocator.Built Quiet X :=
  built_lockGuard (by decide) (by decide) (.call (by decide))

theorem built_shut : shutdownGstreamerPipeline.Built Quiet X :=
  built_shutdownGstreamerPipeline (quiet_of (by decide)) (by decide) (by decide)

theorem built_ready : cameraReady.Built Quiet X := built_cameraReady (by decide) (by decide)

end

/-! ## Stopping the camera -/

section

variable {legacy : Bool} {t : Tid} {x : World × Past} {l l' : List Fact}

/-- A stop where the thread may stop, and what it knows then. -/
theorem wp_cameraStop {X : World × Past → Prop}
    (hmay : ∀ x, Sound x → facts.Known l t x → MayStop t x)
    (hend : ∀ (x : World × Past) (r : SysCall.stopEnd.Reply), facts.Known l t x →
      facts.Known l' t (x.1.after t .stopEnd r, pastAfter legacy t .stopEnd r x.1 x.2))
    (h : facts.Known l t x) :
    (contract legacy).wp t cameraStop (fun _ => facts.Known l' t) X x := by
  have hallowed : ∀ c, c = .stopBegin ∨ c = .stopEnd → ∀ x, Sound x → facts.Known l t x →
      Allowed t c x := by
    rintro c (rfl | rfl) x hi h
    · exact ⟨fun _ => hmay x hi h, nofun, nofun, nofun, nofun, nofun, nofun, nofun⟩
    · exact ⟨fun _ => hmay x hi h, nofun, nofun, nofun, nofun, nofun, nofun, nofun⟩
  refine wp_allowed (hallowed .stopBegin (.inl rfl)) h fun x r hi h hanswer _ => ?_
  have h := h.kept
    (@kept_of_not_telling legacy _ _ r _ (by decide) (hallowed _ (.inl rfl) x hi h) hanswer)
  refine wp_allowed (f := .ret) (hallowed .stopEnd (.inr rfl)) h fun x r _ h _ _ => ?_
  exact wp_known (hend x r h)

/-- `stopCameraIfRunning`: what the thread learns from a look that finds a camera to stop, and what
it knows where there is none. -/
theorem wp_stopCameraIfRunning {X : World × Past → Prop} (found : List Fact)
    (hlook : ∀ (x : World × Past) (c : SysCall) (r : c.Reply), Sound x → facts.Known l t x →
      x.1.answers t c r = true → looks legacy c r = true → apart legacy x (.act t c r) = true →
      facts.Known found t (x.1.after t c r, pastAfter legacy t c r x.1 x.2))
    (hstop : ∀ x, facts.Known found t x →
      (contract legacy).wp t cameraStop (fun _ => facts.Known l' t) X x)
    (hunset : ∀ x, facts.Known l t x → x.1.ptr .camera_ = false → facts.Known l' t x)
    (hidle : ∀ x, Sound x → facts.Known l t x → x.1.device.running = false → facts.Known l' t x)
    (h : facts.Known l t x) :
    (contract legacy).wp t (stopCameraIfRunning legacy) (fun _ => facts.Known l' t) X x := by
  refine wp_look (by decide) h fun x camera hi h hanswer hok hafter => ?_
  have hreply : camera = x.1.ptr .camera_ := of_decide_eq_true (World.shared_of_answers hanswer)
  cases camera with
  | false => exact wp_known ((hunset x h hreply.symm).kept (kept_of_quiet (by decide) hanswer))
  | true =>
  cases legacy with
  | true => exact hstop _ (hlook x (.isSet .camera_) true hi h hanswer rfl hok)
  | false =>
    refine wp_look (by decide) hafter fun x running hi h hanswer hok _ => ?_
    have hreply : running = x.1.device.running :=
      of_decide_eq_true (World.device_of_answers hanswer)
    cases running with
    | false => exact wp_known ((hidle x hi h hreply.symm).kept (kept_of_quiet (by decide) hanswer))
    | true => exact hstop _ (hlook x .cameraIsRunning true hi h hanswer rfl hok)

/-- The same where the thread may stop the camera whatever it finds. -/
theorem wp_stopCamera {X : World × Past → Prop}
    (hl : ∀ x, facts.Known l t x → facts.Known l' t x)
    (hmay : ∀ x, Sound x → facts.Known l t x → MayStop t x)
    (hend : ∀ (x : World × Past) (r : SysCall.stopEnd.Reply), facts.Known l t x →
      facts.Known l' t (x.1.after t .stopEnd r, pastAfter legacy t .stopEnd r x.1 x.2))
    (h : facts.Known l t x) :
    (contract legacy).wp t (stopCameraIfRunning legacy) (fun _ => facts.Known l' t) X x :=
  wp_stopCameraIfRunning l
    (fun _ _ _ _ h hanswer hlook _ => h.kept (kept_of_quiet (quiet_of_looks hlook) hanswer))
    (fun _ h => wp_cameraStop hmay hend h) (fun x h _ => hl x h) (fun x _ h _ => hl x h) h

end

/-! ## stopVideoMode -/

/-- What a thread knows all through `stopVideoMode`, what it knows besides at its end, and what of
that is left without the mutex. -/
inductive Leaves : Tid → List Fact → Fact → Fact → Prop where
  | operator : Leaves operator [] .off .off
  | photographer : Leaves photographer [.idle] .steady .settled

section

variable {legacy : Bool} {t : Tid} {x : World × Past} {base : List Fact} {ended left : Fact}

theorem Leaves.kept {c : SysCall} {r : c.Reply} (hl : Leaves t base ended left)
    (hc : c ≠ .cameraStart) (h : facts.Known base t x) :
    facts.Known base t (x.1.after t c r, pastAfter legacy t c r x.1 x.2) := by
  cases hl with
  | operator => exact Facts.known_nil
  | photographer =>
    obtain ⟨-, hphoto⟩ := h .idle (by decide)
    refine Facts.known_nil.learn ⟨rfl, Bool.eq_false_iff.mpr fun hafter => ?_⟩
    cases photo_of_after hafter with
    | inl hbefore => exact Bool.false_ne_true (hphoto.symm.trans hbefore)
    | inr hstart => exact hc hstart.2

theorem Leaves.ends (hl : Leaves t base ended left)
    (howner : x.1.owner .videoTeardownMutex_ = some t) (hoff : x.1.flag .isVideoMode_ = false) :
    facts ended t x := by
  cases hl with
  | operator => exact ⟨rfl, hoff⟩
  | photographer => exact ⟨rfl, howner, fun hon => absurd hon (Bool.eq_false_iff.mp hoff)⟩

theorem Leaves.remains {r : (SysCall.unlock .videoTeardownMutex_).Reply}
    (hl : Leaves t base ended left) (h : facts ended t x) :
    facts left t (x.1.after t (.unlock .videoTeardownMutex_) r,
      pastAfter legacy t (.unlock .videoTeardownMutex_) r x.1 x.2) := by
  cases hl with
  | operator => exact h
  | photographer => exact ⟨rfl, fun hon _ => h.2.2 hon⟩

theorem Leaves.gives (hl : Leaves t base ended left) (h : facts.Known (ended :: base) t x) :
    t = .caller 0 ∧ x.1.flag .isVideoMode_ = false ∨ t = .caller 1 ∧ x.2.photo = false := by
  cases hl with
  | operator => exact .inl (h .off (by decide))
  | photographer => exact .inr (h .idle (by decide))

theorem Leaves.mayStop (hl : Leaves t base ended left) (hi : Sound x) (h : facts .engaged t x) :
    MayStop t x := by
  obtain ⟨howner, hhalted, hon⟩ := h
  cases hl with
  | photographer => exact .photographer rfl (.inr hon)
  | operator =>
    refine .operator rfl (Bool.eq_false_iff.mpr fun hphoto => ?_) (.inr howner)
    -- a picture is taken with video mode off, or after its camera has been stopped
    cases (hi.photo hphoto).2.2 with
    | inl hoff => exact Bool.false_ne_true (hoff.symm.trans hon)
    | inr hstopped => exact Bool.false_ne_true (hhalted.symm.trans hstopped)

theorem Leaves.yields (hl : Leaves t base ended left) (h : facts.Known base t x) :
    t = .caller 1 → x.2.photo = false := by
  intro ht
  cases hl with
  | operator => cases ht
  | photographer => exact (h .idle (by decide)).2

/-- The part of the teardown that owns `cameraOpsMutex_`. -/
theorem keeps_release (hl : Leaves t base ended left) :
    (contract legacy).Keeps t (facts.Known (.teardown :: base) t)
      (lockGuard .cameraOpsMutex_ do
        clearRequests
        shutdownGstreamerPipeline) := by
  apply keeps_lockGuard quiet.known quiet.known (B := facts.Known (.teardown :: base) t)
  · intro x _ h
    refine ⟨allowed_of_quiet (by decide), fun r y _ hact => ?_⟩
    obtain ⟨hanswer, rfl⟩ := watched_system_act.mp hact
    exact h.kept (kept_of_quiet (by decide) hanswer)
  · intro x _ h
    obtain ⟨howner, hbase⟩ := Facts.known_cons.mp h
    refine ⟨⟨nofun, nofun, nofun, nofun, nofun, nofun, fun _ => hl.yields hbase, nofun⟩, ?_⟩
    intro r y _ hact
    obtain ⟨hanswer, rfl⟩ := watched_system_act.mp hact
    have hkept : (x.1.after t (.unlock .cameraOpsMutex_) r).owner .videoTeardownMutex_ = some t :=
      World.owner_kept nofun howner hanswer nofun
    exact (hl.kept (by decide) hbase).learn hkept
  · apply quiet.keeps (X := Prog.noParts) fun _ _ h => h.elim
    exact .bind built_clear fun _ => built_shut

theorem wp_teardown {X : World × Past → Prop} (hl : Leaves t base ended left)
    (h : facts.Known (.engaged :: base) t x) :
    (contract legacy).wp t (teardown legacy) (fun _ => facts.Known (.teardown :: base) t) X x := by
  refine wp_bind_of (quiet.wp_noThrow h built_slot noThrow_disconnectVideoRequestSlot)
    fun _ x _ h => ?_
  have hstop : (contract legacy).wp t (stopCameraIfRunning legacy)
      (fun _ => facts.Known (.teardown :: base) t) X x := by
    apply wp_stopCamera (l := .engaged :: base) _ _ _ h
    · intro x h
      obtain ⟨hengaged, hbase⟩ := Facts.known_cons.mp h
      exact hbase.learn hengaged.1
    · exact fun x hi h => hl.mayStop hi (h .engaged (.head _))
    · intro x r h
      obtain ⟨hengaged, hbase⟩ := Facts.known_cons.mp h
      exact (hl.kept (by decide) hbase).learn hengaged.1
  refine wp_bind_of hstop fun _ x _ h => ?_
  have hthrow : Prog.NoThrow (lockGuard .cameraOpsMutex_ do
      clearRequests
      shutdownGstreamerPipeline) :=
    noThrow_lockGuard (.bind noThrow_clearRequests fun _ => noThrow_shutdownGstreamerPipeline)
  refine wp_bind_of (wp_of_noThrow hthrow (keeps_release hl x h)) fun _ x _ h => ?_
  exact quiet.wp_noThrow h built_reset noThrow_resetAllocator

/-- The `try` of `stopVideoMode`: its handler is not reached. -/
theorem wp_endVideoMode {X : World × Past → Prop} (hl : Leaves t base ended left)
    (h : facts.Known (.engaged :: base) t x) :
    (contract legacy).wp t (do
        sys (.store .captureActive_ false)
        sys (.store .shuttingDown_ true)
        teardown legacy
        sys (.store .shuttingDown_ false)
        sys (.store .isVideoMode_ false)
        return true)
      (fun _ => facts.Known (ended :: .teardown :: base) t) X x := by
  refine wp_of_noThrow (X := fun _ => True) (.bind (.call _) fun _ => .bind (.call _) fun _ =>
    .bind noThrow_teardown fun _ => .bind (.call _) fun _ => .bind (.call _) fun _ => trivial) ?_
  refine quiet.wp (fun _ _ => trivial) h (.call (by decide)) fun _ x h => ?_
  refine quiet.wp (fun _ _ => trivial) h (.call (by decide)) fun _ x h => ?_
  refine wp_bind_of (wp_teardown hl h) fun _ x _ h => ?_
  refine quiet.wp (fun _ _ => trivial) h (.call (by decide)) fun _ x h => ?_
  refine wp_allowed (fun x _ h => ?_) h fun x r _ h _ _ => wp_known ?_
  · exact ⟨nofun, nofun, nofun, fun _ => .inl (h .teardown (.head _)), nofun, nofun, nofun, nofun⟩
  · obtain ⟨howner, hbase⟩ := Facts.known_cons.mp h
    have hoff : (x.1.after t (.store .isVideoMode_ false) r).flag .isVideoMode_ = false := by
      show Function.update x.1.flag .isVideoMode_ false .isVideoMode_ = false
      rw [Function.update_self]
    have hkept : facts.Known base t (x.1.after t (.store .isVideoMode_ false) r,
        pastAfter legacy t (.store .isVideoMode_ false) r x.1 x.2) := hl.kept (by decide) hbase
    have h : facts.Known (.teardown :: base) t _ := hkept.learn howner
    exact h.learn (hl.ends howner hoff)

theorem wp_stopVideoMode {X : World × Past → Prop} (hl : Leaves t base ended left)
    (h : facts.Known base t x) :
    (contract legacy).wp t (stopVideoMode legacy) (fun _ => facts.Known (left :: base) t) X x := by
  refine wp_allowed (fun _ _ _ => ?_) h fun x r hi h hanswer _ => ?_
  · exact ⟨nofun, nofun, nofun, nofun, nofun, nofun, nofun, nofun⟩
  have h : facts.Known (.unstopped :: base) t
      (x.1.after t (.lock .videoTeardownMutex_) r, pastAfter legacy t (.lock .videoTeardownMutex_) r
        x.1 x.2) := by
    refine (hl.kept (by decide) h).learn ⟨World.owner_after_lock, Bool.eq_false_iff.mpr ?_⟩
    -- the mutex was free
    exact fun hhalted =>
      hi.halted hhalted (Option.isNone_iff_eq_none.mp (World.shared_of_answers hanswer))
  have hunlock : ∀ y, facts.Known (ended :: .teardown :: base) t y →
      (contract legacy).wp t (sys (.unlock .videoTeardownMutex_))
        (fun _ => facts.Known (left :: base) t) X y := by
    intro y h
    refine wp_allowed (f := .ret) (fun x _ h => ?_) h fun x r _ h _ _ => wp_known ?_
    · have hgives := hl.gives (h.mono (List.cons_subset_cons _ (List.subset_cons_self ..)))
      exact ⟨nofun, nofun, nofun, nofun, nofun, fun _ => hgives, nofun, nofun⟩
    · have hbase : facts.Known base t x := fun f hf => h f (.tail _ (.tail _ hf))
      exact (hl.kept (by decide) hbase).learn (hl.remains (h ended (.head _)))
  apply wp_ensuring_of
  apply wp_mono (Q := fun _ => facts.Known (ended :: .teardown :: base) t) (X := fun _ => False) _
    (fun _ y _ h => hunlock y h) fun _ _ h => h.elim
  refine wp_look (by decide) h fun x on _ h hanswer _ hafter => ?_
  have hreply : on = x.1.flag .isVideoMode_ := of_decide_eq_true (World.shared_of_answers hanswer)
  obtain ⟨hunstopped, hbase⟩ := Facts.known_cons.mp h
  have hkept := @kept_of_quiet legacy t (.load .isVideoMode_) on x (by decide) hanswer
  cases on with
  | false =>
    have h : facts.Known (.teardown :: base) t x := hbase.learn hunstopped.1
    exact wp_known ((h.learn (hl.ends hunstopped.1 hreply.symm)).kept hkept)
  | true =>
    have h : facts.Known (.engaged :: base) t x :=
      hbase.learn ⟨hunstopped.1, hunstopped.2, hreply.symm⟩
    exact wp_tryCatch.mpr (wp_endVideoMode hl (h.kept hkept))

end

/-! ## The operator -/

section

variable {legacy : Bool} {x : World × Past}

/-- What the operator knows from `generateConfiguration` on, with or without `cameraOpsMutex_`. -/
abbrev failed : List Fact := [.configuring, .off]

/-- The calls after which it may know less. -/
def modes : List SysCall :=
  [.store .isVideoMode_ true, .store .isVideoMode_ false, .exchange .isVideoMode_ true,
    .exchange .isVideoMode_ false, .nextOperation]

theorem failed_kept {c : SysCall} {r : c.Reply} (hc : c ∉ modes) (h : facts.Known failed operator x) :
    facts.Known failed operator (x.1.after operator c r, pastAfter legacy operator c r x.1 x.2) := by
  have hoff : (x.1.after operator c r).flag .isVideoMode_ = false := by
    rw [World.flag_after _ _, (h .off (by decide)).2]
    · intro value
      cases value <;> exact ne_of_not_mem hc (by decide)
    · intro value
      cases value <;> exact ne_of_not_mem hc (by decide)
  have hconfiguring : configuringAfter operator c x.2.configuring = true := by
    unfold configuringAfter
    split
    · rfl
    · exact absurd (by decide) hc
    · exact (h .configuring (by decide)).2
  have hkept : facts.Known [.off] operator (x.1.after operator c r, pastAfter legacy operator c r x.1
    x.2) := Facts.known_nil.learn ⟨rfl, hoff⟩
  exact hkept.learn ⟨rfl, hconfiguring⟩

/-- A look of the rollback that finds a camera to stop finds no picture. -/
theorem known_of_look {c : SysCall} {r : c.Reply} (h : facts.Known (.rolling :: failed) operator x)
    (hanswer : x.1.answers operator c r = true) (hlook : looks legacy c r = true)
    (hok : apart legacy x (.act operator c r) = true) :
    facts.Known (.aimed :: failed) operator
      (x.1.after operator c r, pastAfter legacy operator c r x.1 x.2) := by
  have hquiet : Quiet c := quiet_of_looks hlook
  obtain ⟨hrolling, hfailed⟩ := Facts.known_cons.mp (h.kept (kept_of_quiet hquiet hanswer))
  have hbefore : x.2.rolling = true := (h .rolling (by decide)).2
  refine hfailed.learn ⟨rfl, hrolling.2, ?_, ?_⟩
  · show lookedAfter legacy operator c r x.2 = true
    unfold lookedAfter
    split
    · exact absurd (by decide) hquiet
    · rw [hlook, hbefore, Bool.and_true, Bool.or_true]
    · contradiction
  · have hphoto : x.2.photo = false := by
      change (!(looks legacy c r && x.2.rolling && x.2.photo)) = true at hok
      rw [hlook, hbefore] at hok
      exact Bool.not_eq_true' _ |>.mp hok
    have hother : operator ≠ photographer := nofun
    show photoAfter operator c r x.2.photo = false
    rw [photo_of_other hother, hphoto]

theorem wp_rollbackFailedVideoStart {X : World × Past → Prop}
    (h : facts.Known failed operator x) :
    (contract legacy).wp operator (rollbackFailedVideoStart legacy)
      (fun _ => facts.Known failed operator) X x := by
  refine wp_allowed (fun _ _ _ => ?_) h fun x r hi h _ _ => ?_
  · exact ⟨nofun, nofun, nofun, nofun, nofun, nofun, nofun, nofun⟩
  have h : facts.Known (.rolling :: failed) operator
      (x.1.after operator (.lock .videoTeardownMutex_) r,
        pastAfter legacy operator (.lock .videoTeardownMutex_) r x.1 x.2) := by
    have hconfiguring : facts .configuring operator x := h .configuring (by decide)
    exact (failed_kept (by decide) h).learn hconfiguring
  have hunlock : ∀ y, facts.Known failed operator y →
      (contract legacy).wp operator (sys (.unlock .videoTeardownMutex_))
        (fun _ => facts.Known failed operator) X y := by
    intro y h
    refine wp_allowed (f := .ret) (fun x _ h => ?_) h fun x r _ h _ _ =>
      wp_known (failed_kept (by decide) h)
    have hoff : facts .off operator x := h .off (by decide)
    exact ⟨nofun, nofun, nofun, nofun, nofun, fun _ => .inl hoff, nofun, nofun⟩
  apply wp_ensuring_of
  apply wp_mono (Q := fun _ => facts.Known failed operator) (X := fun _ => False) _
    (fun _ y _ h => hunlock y h) fun _ _ h => h.elim
  refine wp_bind_of (quiet.wp_noThrow h built_slot noThrow_disconnectVideoRequestSlot)
    fun _ x _ h => ?_
  have hstop : (contract legacy).wp operator (stopCameraIfRunning legacy)
      (fun _ => facts.Known failed operator) (fun _ => False) x := by
    apply wp_stopCameraIfRunning (.aimed :: failed) _ _ _ _ h
    · exact fun _ _ _ _ h hanswer hlook hok => known_of_look h hanswer hlook hok
    · intro x h
      apply wp_cameraStop _ _ h
      · intro x _ h
        have hoff : facts .off operator x := h .off (by decide)
        have haimed : facts .aimed operator x := h .aimed (by decide)
        exact .operator rfl haimed.2.2.2 (.inl hoff.2)
      · exact fun x r h => failed_kept (by decide) (h.mono (List.subset_cons_self ..))
    · exact fun _ h _ => h.mono (List.subset_cons_self ..)
    · exact fun _ _ h _ => h.mono (List.subset_cons_self ..)
  refine wp_bind_of hstop fun _ x _ h => ?_
  refine wp_bind_of (quiet.wp_noThrow h built_clear noThrow_clearRequests) fun _ x _ h => ?_
  refine wp_bind_of (quiet.wp_noThrow h built_shut noThrow_shutdownGstreamerPipeline)
    fun _ x _ h => ?_
  refine wp_bind_of (quiet.wp_noThrow h built_reset noThrow_resetAllocator) fun _ x _ h => ?_
  exact quiet.wp_noThrow h (.bind (.call (by decide)) fun _ => .call (by decide))
    (.bind (.call _) fun _ => .call _)

/-- The rollback with `cameraOpsMutex_` given up. -/
theorem wp_rollbackUnlocked {X : World × Past → Prop} (h : facts.Known failed operator x) :
    (contract legacy).wp operator (rollbackUnlocked legacy)
      (fun b y => b = false ∧ facts.Known failed operator y) X x := by
  refine wp_allowed (fun _ _ _ => ?_) h fun x r _ h _ _ => ?_
  · exact ⟨nofun, nofun, nofun, nofun, nofun, nofun, fun _ => nofun, nofun⟩
  have hrollback : (contract legacy).wp operator
      ((rollbackFailedVideoStart legacy).ensuring (sys (.relock .cameraOpsMutex_)))
      (fun _ => facts.Known failed operator) (facts.Known failed operator)
      (x.1.after operator (.unlock .cameraOpsMutex_) r,
        pastAfter legacy operator (.unlock .cameraOpsMutex_) r x.1 x.2) :=
    quiet.wp_ensuring (.call (by decide)) (.call _)
      (wp_rollbackFailedVideoStart (failed_kept (by decide) h))
  have hthrow : Prog.NoThrow
      ((rollbackFailedVideoStart legacy).ensuring (sys (.relock .cameraOpsMutex_))) :=
    .ensuring noThrow_rollbackFailedVideoStart (.call _)
  refine wp_bind_of (wp_of_noThrow hthrow hrollback) fun _ x _ h v hr hi => ?_
  exact ⟨rfl, quiet.known x v hr hi h⟩

/-- What the operator knows with `cameraOpsMutex_` while it configures video mode. -/
abbrev starting : List Fact := [.configuring, .ops, .off]

theorem failed_of_starting (h : facts.Known starting operator x) :
    facts.Known failed operator x :=
  h.mono (by decide)

theorem wp_stopVideoModeUnlocked {X : World × Past → Prop} (h : facts.Known [.ops] operator x) :
    (contract legacy).wp operator (stopVideoModeUnlocked legacy)
      (fun _ => facts.Known [.ops, .off] operator) X x := by
  refine wp_allowed (fun _ _ _ => ?_) h fun x r _ h _ _ => ?_
  · exact ⟨nofun, nofun, nofun, nofun, nofun, nofun, fun _ => nofun, nofun⟩
  refine wp_bind_of (wp_stopVideoMode .operator Facts.known_nil) fun _ x _ h => ?_
  refine wp_allowed (f := .ret) (fun _ _ _ => allowed_of_quiet (by decide)) h
    fun x r _ h hanswer _ => wp_known ?_
  have h := h.kept (@kept_of_quiet legacy _ _ r _ (by decide) hanswer)
  exact h.learn World.owner_after_relock

theorem wp_leaveVideoMode {X : World × Past → Prop} (h : facts.Known [.ops] operator x) :
    (contract legacy).wp operator (leaveVideoMode legacy)
      (fun _ => facts.Known [.ops, .off] operator) X x := by
  refine wp_look (by decide) h fun x on _ h hanswer _ hafter => ?_
  have hreply : on = x.1.flag .isVideoMode_ := of_decide_eq_true (World.shared_of_answers hanswer)
  have hops : facts .ops operator x := h .ops (by decide)
  cases on with
  | false =>
    have h : facts.Known [.off] operator x := Facts.known_nil.learn ⟨rfl, hreply.symm⟩
    exact wp_known ((h.learn hops).kept (kept_of_quiet (by decide) hanswer))
  | true =>
    have hready : cameraReady.NoThrow := by
      refine .bind (.call _) fun initialized => ?_
      cases initialized with
      | false => trivial
      | true => exact .call _
    exact wp_bind_of (wp_stopVideoModeUnlocked hafter) fun _ x _ h =>
      quiet.wp_noThrow h built_ready hready

/-- One buffer is queued, or the start is rolled back. -/
theorem wp_queueBuffer (h : facts.Known (.started :: starting) operator x) :
    (contract legacy).wp operator (queueBuffer legacy)
      (fun queued => facts.Known (if queued then .started :: starting else failed) operator)
      (facts.Known failed operator) x := by
  have hX : ∀ y, facts.Known (.started :: starting) operator y → facts.Known failed operator y :=
    fun y h => h.mono (by decide)
  have hback : ∀ y, facts.Known (.started :: starting) operator y →
      (contract legacy).wp operator (rollbackUnlocked legacy)
        (fun queued => facts.Known (if queued then .started :: starting else failed) operator)
        (facts.Known failed operator) y := by
    refine fun y h => wp_mono (wp_rollbackUnlocked (hX y h)) ?_ fun _ _ h => h
    rintro b y - ⟨rfl, h⟩
    exact h
  refine quiet.wp hX h (.call (by decide)) fun r x h => ?_
  cases r with
  | null => exact hback x h
  | threw => exact fun v hr hi => quiet.known x v hr hi (hX x h)
  | request request =>
    apply quiet.wp_ensuring (.call (by simp [Quiet, loud, telling])) (.call _)
    refine quiet.wp hX h (.call (by simp [Quiet, loud, telling])) fun r x h => ?_
    refine quiet.wp hX h (built_check r) fun added x h => ?_
    cases added with
    | false => exact hback x h
    | true =>
    refine quiet.wp hX h (.call (by simp [Quiet, loud, telling])) fun r x h => ?_
    refine quiet.wp hX h (built_check r) fun queued x h => ?_
    cases queued with
    | false => exact hback x h
    | true =>
    refine quiet.wp hX h (p := keepRequest request) ?_ fun _ x h => wp_known h
    exact built_lockGuard (by decide) (by decide)
      (.bind (.call (by simp [Quiet, loud, telling])) fun _ => built_orThrow _)

theorem wp_queueBuffers (videoBuffers : List Bool)
    (h : facts.Known (.started :: starting) operator x) :
    (contract legacy).wp operator (queueBuffers legacy videoBuffers)
      (fun queued => facts.Known (if queued then .started :: starting else failed) operator)
      (facts.Known failed operator) x := by
  induction videoBuffers generalizing x with
  | nil => exact wp_known h
  | cons bufferHolder rest ih =>
    cases bufferHolder with
    | false => exact ih h
    | true =>
      refine wp_bind_of (wp_queueBuffer h) fun queued x _ h => ?_
      cases queued with
      | true => exact ih h
      | false => exact wp_known h

/-- From the start of the camera on. -/
theorem wp_startCamera (h : facts.Known starting operator x) :
    (contract legacy).wp operator (do
        if !(← (← sys .cameraStart).check) then return ← rollbackUnlocked legacy
        match ← sys (.allocatorBuffers .video) with
        | none => .throw
        | some videoBuffers =>
          if !(← queueBuffers legacy videoBuffers) then return false
          sys (.store .isVideoMode_ true)
          sys (.store .captureActive_ true)
          sys (.store .shuttingDown_ false)
          return true)
      (fun _ _ => True) (facts.Known failed operator) x := by
  refine wp_allowed (fun x _ h => ?_) h fun x r _ h _ _ => ?_
  · have hops : facts .ops operator x := h .ops (by decide)
    exact ⟨nofun, fun _ => ⟨hops, nofun⟩, nofun, nofun, nofun, nofun, nofun, nofun⟩
  have hfailed : facts.Known failed operator (x.1.after operator .cameraStart r,
      pastAfter legacy operator .cameraStart r x.1 x.2) :=
    failed_kept (by decide) (failed_of_starting h)
  cases r with
  | threw => exact fun v hr hi => quiet.known _ v hr hi hfailed
  | failed => exact wp_mono (wp_rollbackUnlocked hfailed) (fun _ _ _ _ => trivial) fun _ _ h => h
  | ok =>
  have hops : facts .ops operator x := h .ops (by decide)
  have hoff : facts .off operator x := h .off (by decide)
  have hconfiguring : facts .configuring operator x := h .configuring (by decide)
  have h : facts.Known (.started :: starting) operator (x.1.after operator .cameraStart .ok,
      pastAfter legacy operator .cameraStart .ok x.1 x.2) := by
    have h : facts.Known [.off] operator (x.1.after operator .cameraStart .ok,
      pastAfter legacy operator .cameraStart .ok x.1 x.2) := Facts.known_nil.learn hoff
    have h : facts.Known [.ops, .off] operator (x.1.after operator .cameraStart .ok,
      pastAfter legacy operator .cameraStart .ok x.1 x.2) := h.learn hops
    have h : facts.Known starting operator (x.1.after operator .cameraStart .ok,
      pastAfter legacy operator .cameraStart .ok x.1 x.2) := h.learn hconfiguring
    exact h.learn ⟨rfl, hops, hoff.2, rfl⟩
  have hX : ∀ y, facts.Known (.started :: starting) operator y → facts.Known failed operator y :=
    fun y h => h.mono (by decide)
  refine quiet.wp hX h (p := sys (.allocatorBuffers .video)) (.call (by decide))
    fun buffers x h => ?_
  cases buffers with
  | none => exact fun v hr hi => quiet.known x v hr hi (hX x h)
  | some videoBuffers =>
  refine wp_bind_of (wp_queueBuffers videoBuffers h) fun queued x _ h => ?_
  cases queued with
  | false => exact fun _ _ _ => trivial
  | true =>
  refine wp_allowed (fun x _ h => ?_) h fun x r _ _ _ _ => ?_
  · obtain ⟨-, hops, -, hrunning⟩ := h .started (by decide)
    exact ⟨nofun, nofun, fun _ => ⟨rfl, hops, hrunning⟩, nofun, nofun, nofun, nofun, nofun⟩
  have hrest : Prog.Built Quiet Prog.noParts (do
      sys (.store .captureActive_ true)
      sys (.store .shuttingDown_ false)
      return true) :=
    .bind (.call (by decide)) fun _ => .bind (.call (by decide)) fun _ => .ret _
  exact wp_mono (quiet.wp_noThrow Facts.known_nil hrest
    (.bind (.call _) fun _ => .bind (.call _) fun _ => trivial)) (fun _ _ _ _ => trivial)
    fun _ _ h => h

theorem built_initializePipeline {width height fps : Nat} {X : ∀ α : Type, Prog Sys α → Prop} :
    (initializeGstreamerPipeline width height fps).Built Quiet X := by
  have hG : ∀ c, pipelineCall c = true → Quiet c := quiet_of (by decide)
  exact built_initializeGstreamerPipeline hG built_shut
    (built_startPipeline hG built_shut (by decide)) _ _ _

theorem wp_startStreams {streams width height fps : Nat} (h : facts.Known starting operator x) :
    (contract legacy).wp operator (startStreams legacy streams width height fps)
      (fun _ _ => True) (facts.Known failed operator) x := by
  have hX : ∀ y, facts.Known starting operator y → facts.Known failed operator y :=
    fun y => failed_of_starting
  refine quiet.wp hX h (.call (by decide)) fun r x h => ?_
  refine quiet.wp hX h (built_orThrow r) fun _ x h => ?_
  refine quiet.wp hX h (.call (by decide)) fun _ x h => ?_
  refine quiet.wp hX h (built_allocateStreams built_reset (by decide) _) fun allocated x h => ?_
  cases allocated with
  | false => exact fun _ _ _ => trivial
  | true =>
  refine quiet.wp hX h built_initializePipeline fun started x h => ?_
  cases started with
  | false => exact wp_mono (wp_rollbackUnlocked (hX x h)) (fun _ _ _ _ => trivial) fun _ _ h => h
  | true =>
  refine quiet.wp hX h built_slot fun _ x h => ?_
  refine quiet.wp hX h (.call (by decide)) fun r x h => ?_
  refine quiet.wp hX h (built_orThrow r) fun _ x h => ?_
  refine quiet.wp hX h (.call (by decide)) fun _ x h => ?_
  exact wp_startCamera h

theorem wp_configureVideo {width height fps : Nat} (h : facts.Known [.ops, .off] operator x) :
    (contract legacy).wp operator (configureVideo legacy width height fps)
      (fun _ _ => True) (facts.Known failed operator) x := by
  have hX : ∀ y, facts.Known starting operator y → facts.Known failed operator y :=
    fun y => failed_of_starting
  refine wp_look (by decide) h fun x r _ _ _ _ h => ?_
  have h : facts.Known starting operator (x.1.after operator (.generateConfiguration .video) r,
      pastAfter legacy operator (.generateConfiguration .video) r x.1 x.2) := h.learn ⟨rfl, rfl⟩
  rcases r with _ | (_ | streams) | _
  · exact quiet.wp hX h (.call (by decide)) fun _ x h => quiet.wp hX h (.call (by decide)) nofun
  · exact quiet.wp hX h (.call (by decide)) fun _ x h => quiet.wp hX h (.call (by decide)) nofun
  · refine quiet.wp hX h (.call (by decide)) fun _ x h => ?_
    refine quiet.wp hX h (.call (by simp [Quiet, loud, telling])) fun r x h => ?_
    refine quiet.wp hX h (built_check r) fun configured x h => ?_
    cases configured with
    | false => exact fun _ _ _ => trivial
    | true => exact wp_startStreams h
  · exact fun v hr hi => quiet.known _ v hr hi (hX _ h)

/-- The operator gives `cameraOpsMutex_` up wherever it is. -/
theorem wp_unlock {X : World × Past → Prop} :
    (contract legacy).wp operator (sys (.unlock .cameraOpsMutex_)) (fun _ _ => True) X x := by
  refine wp_allowed (f := .ret) (l := []) (fun _ _ _ => ?_) Facts.known_nil
    fun _ _ _ _ _ _ _ _ _ => trivial
  exact ⟨nofun, nofun, nofun, nofun, nofun, nofun, fun _ => nofun, nofun⟩

/-- An operation of the operator that owns `cameraOpsMutex_`. -/
theorem wp_lockOps {α : Type} {scope : Prog Sys α}
    (h : ∀ x, facts.Known [.ops] operator x →
      (contract legacy).wp operator scope (fun _ _ => True) (fun _ => True) x) :
    (contract legacy).wp operator (lockGuard .cameraOpsMutex_ scope) (fun _ _ => True)
      (fun _ => True) x := by
  refine wp_look (l := []) (by decide) Facts.known_nil fun x r _ _ _ _ hnil => ?_
  have hops := h _ (hnil.learn World.owner_after_lock)
  exact wp_ensuring_of (wp_mono hops (fun _ _ _ _ => wp_unlock) fun _ _ _ => wp_unlock)

theorem wp_startVideoMode {width height fps : Nat} :
    (contract legacy).wp operator (startVideoMode legacy width height fps) (fun _ _ => True)
      (fun _ => True) x := by
  refine wp_lockOps fun x h => ?_
  refine quiet.wp (fun _ _ => trivial) h built_ready fun ready x h => ?_
  cases ready with
  | false => exact fun _ _ _ => trivial
  | true =>
  apply wp_tryCatch.mpr
  apply wp_mono (Q := fun _ _ => True) (X := facts.Known failed operator) _ (fun _ _ _ h => h)
    fun y _ h => wp_mono (wp_rollbackUnlocked h) (fun _ _ _ _ => trivial) fun _ _ h => h
  refine wp_bind_of (wp_leaveVideoMode h) fun left x _ h => ?_
  cases left with
  | false => exact fun _ _ _ => trivial
  | true => exact wp_configureVideo h

/-- What the operator does not do with `cameraOpsMutex_` outside `startVideoMode`, or does not do
without knowing that video mode is off. -/
def barred (l : List Fact) : List SysCall :=
  [.cameraStart, .store .isVideoMode_ true, .exchange .isVideoMode_ true,
    .exchange .isVideoMode_ false, .unlock .videoTeardownMutex_, .unlock .cameraOpsMutex_] ++
  if .off ∈ l then [] else [.stopBegin, .stopEnd, .store .isVideoMode_ false]

abbrev Unbarred (l : List Fact) (c : SysCall) : Prop := c ∉ barred l

theorem keeps_owning {α : Type} {p : Prog Sys α} {l : List Fact} (hops : .ops ∈ l)
    (hl : l ⊆ [.ops, .off]) (hp : p.Built (Unbarred l) Prog.noParts) :
    (contract legacy).Keeps operator (facts.Known l operator) p := by
  apply keeps_of_built quiet.known _ (fun _ _ h => h.elim) hp
  intro c hc x hi h
  have howner : x.1.owner .cameraOpsMutex_ = some operator := h .ops hops
  have hoff : c ∈ [.stopBegin, .stopEnd, .store .isVideoMode_ false] →
      x.1.flag .isVideoMode_ = false := by
    intro hmem
    by_cases hknown : .off ∈ l
    · exact (h .off hknown).2
    · apply absurd _ hc
      unfold barred
      rw [if_neg hknown]
      exact List.mem_append_right _ hmem
  have hne : ∀ c', c' ∈ barred [.off] → c ≠ c' := by
    rintro c' h' rfl
    exact hc (List.mem_append_left _ h')
  have ha : Allowed operator c x := by
    refine ⟨fun hstop => .operator rfl ?_ (.inl ?_), ?_, ?_, ?_, ?_, ?_, fun _ ht => ?_, ?_⟩
    · apply Bool.eq_false_iff.mpr
      intro hphoto
      -- a picture would own the mutex
      have := (hi.photo hphoto).1.symm.trans howner
      cases this
    · apply hoff
      cases hstop with
      | inl h => exact h ▸ .head _
      | inr h => exact h ▸ .tail _ (.head _)
    · exact fun h => absurd h (hne _ (by decide))
    · exact fun h => absurd h (hne _ (by decide))
    · exact fun h => .inr (hoff (h ▸ .tail _ (.tail _ (.head _))))
    · intro value
      cases value <;> exact hne _ (by decide)
    · exact fun h => absurd h (hne _ (by decide))
    · cases ht
    · exact fun _ _ => howner
  refine ⟨ha, fun r y _ hact f hf => ?_⟩
  obtain ⟨hanswer, rfl⟩ := watched_system_act.mp hact
  have hfact := h f hf
  cases hl hf with
  | head => exact World.owner_kept (by decide) howner hanswer fun he => absurd he (hne _ (by decide))
  | tail _ hf =>
    obtain rfl := List.mem_singleton.mp hf
    exact ⟨rfl, off_kept ha (hne _ (by decide)) hfact.2⟩

theorem not_barred {l : List Fact} {calls : SysCall → Bool}
    (h : ∀ c ∈ barred l, calls c = false) (c : SysCall) (hc : calls c = true) : Unbarred l c :=
  fun hmem => Bool.false_ne_true ((h c hmem).symm.trans hc)

theorem wp_initializeCamera :
    (contract legacy).wp operator initializeCamera (fun _ _ => True) (fun _ => True) x := by
  refine wp_lockOps fun x h => ?_
  have hcall : ∀ c, acquireCall c = true → Unbarred [.ops] c := not_barred (by decide)
  refine wp_mono (keeps_owning (l := [.ops]) (by decide) (by decide) ?_ x h) (fun _ _ _ _ => trivial)
    fun _ _ _ => trivial
  exact .tryCatch (.bind (built_acquireCamera hcall) fun _ => .ite (.ret _) <|
    .bind (.call (by decide)) fun _ => .bind (.call (by decide)) fun _ => .ret _) (.ret _)

theorem wp_reinitializeCamera :
    (contract legacy).wp operator (reinitializeCamera legacy) (fun _ _ => True) (fun _ => True)
      x := by
  refine wp_lockOps fun x h => ?_
  refine wp_look (by decide) h fun x on _ h hanswer _ hafter => ?_
  have hstop : (contract legacy).wp operator (Prog.when on (stopVideoModeUnlocked legacy))
      (fun _ => facts.Known [.ops, .off] operator) (fun _ => True)
      (x.1.after operator (.load .isVideoMode_) on,
        pastAfter legacy operator (.load .isVideoMode_) on x.1 x.2) := by
    cases on with
    | true => exact wp_stopVideoModeUnlocked hafter
    | false =>
      have hreply : false = x.1.flag .isVideoMode_ :=
        of_decide_eq_true (World.shared_of_answers hanswer)
      have hops : facts .ops operator x := h .ops (by decide)
      have h : facts.Known [.off] operator x := Facts.known_nil.learn ⟨rfl, hreply.symm⟩
      exact wp_known ((h.learn hops).kept (kept_of_quiet (by decide) hanswer))
  refine wp_bind_of hstop fun _ x _ h => ?_
  refine wp_mono (keeps_owning (l := [.ops, .off]) (by decide) (by decide) ?_ x h)
    (fun _ _ _ _ => trivial) fun _ _ _ => trivial
  have hS : ∀ c, stopCall c = true → Unbarred [.ops, .off] c := not_barred (by decide)
  have hA : ∀ c, acquireCall c = true → Unbarred [.ops, .off] c := not_barred (by decide)
  have hreset : resetAllocator.Built (Unbarred [.ops, .off]) Prog.noParts :=
    built_lockGuard (by decide) (by decide) (.call (by decide))
  have hshut : shutdownGstreamerPipeline.Built (Unbarred [.ops, .off]) Prog.noParts :=
    built_shutdownGstreamerPipeline (not_barred (by decide)) (by decide) (by decide)
  refine .tryCatch ?_ (.bind (.call (by decide)) fun _ => .ret _)
  refine .bind (built_releaseCamera hA (built_stopCameraIfRunning hS)) fun _ =>
    .bind hreset fun _ => .bind hshut fun _ => .bind (built_acquireCamera hA) fun _ =>
      .ite (.bind (.call (by decide)) fun _ => .ret _) ?_
  exact .bind (.call (by decide)) fun _ => .bind (.call (by decide)) fun _ =>
    .bind (.call (by decide)) fun _ => .bind (.call (by decide)) fun _ => .ret _

theorem wp_operatorBody :
    (contract legacy).wp operator (operatorBody legacy) (fun _ _ => True) (fun _ => True) x := by
  refine wp_allowed (l := []) (fun _ _ _ => ?_) Facts.known_nil fun x op _ _ _ _ => ?_
  · exact ⟨nofun, nofun, nofun, nofun, nofun, nofun, nofun, nofun⟩
  split
  · exact fun _ _ _ => trivial
  · refine wp_bind_of (Q := fun _ _ => True) ?_ fun _ _ _ _ _ _ _ => trivial
    cases op with
    | takePicture => contradiction
    | initializeCamera => exact wp_initializeCamera
    | startVideoMode width height fps => exact wp_startVideoMode
    | stopVideoMode =>
      exact wp_mono (wp_stopVideoMode .operator Facts.known_nil) (fun _ _ _ _ => trivial)
        fun _ _ h => h
    | reinitializeCamera => exact wp_reinitializeCamera

end

/-! ## The photographer -/

section

variable {legacy : Bool} {x : World × Past}

/-- What the photographer knows while the picture is taken. -/
abbrev taking : List Fact := [.camera, .ops]

/-- The picture is taken. -/
abbrev taken : List Fact := [.idle, .camera, .ops]

/-- `cameraReady` with `cameraOpsMutex_`. -/
theorem wp_ready {X : World × Past → Prop} {l : List Fact} (hops : .ops ∈ l)
    (h : facts.Known l photographer x) :
    (contract legacy).wp photographer cameraReady
      (fun ready => facts.Known (if ready then .camera :: l else l) photographer) X x := by
  refine wp_look (by decide) h fun x initialized _ _ _ _ h => ?_
  cases initialized with
  | false => exact wp_known h
  | true =>
    refine wp_look (f := .ret) (by decide) h fun x set _ h hanswer _ hafter => ?_
    have hreply : set = x.1.ptr .camera_ := of_decide_eq_true (World.shared_of_answers hanswer)
    cases set with
    | false => exact wp_known hafter
    | true =>
      have hcamera : facts .camera photographer x := ⟨h .ops hops, hreply.symm⟩
      exact wp_known ((h.learn hcamera).kept (kept_of_quiet (by decide) hanswer))

/-- `camera_->stop()` ends the picture. -/
theorem wp_stopPicture {X : World × Past → Prop} (h : facts.Known taking photographer x) :
    (contract legacy).wp photographer cameraStop (fun _ => facts.Known taken photographer) X x := by
  apply wp_cameraStop _ _ h
  · exact fun x _ h => .photographer rfl (.inl (h .ops (by decide)))
  · intro x r h
    have hcamera : facts .camera photographer x := h .camera (by decide)
    have hops : facts .ops photographer x := h .ops (by decide)
    have h : facts.Known [.ops] photographer (x.1.after photographer .stopEnd r,
        pastAfter legacy photographer .stopEnd r x.1 x.2) := Facts.known_nil.learn hops
    have h : facts.Known taking photographer (x.1.after photographer .stopEnd r,
        pastAfter legacy photographer .stopEnd r x.1 x.2) := h.learn hcamera
    exact h.learn ⟨rfl, rfl⟩

/-- The handler of `takePicture`: a camera that does not run takes no picture. -/
theorem wp_stopAny {X : World × Past → Prop} (h : facts.Known taking photographer x) :
    (contract legacy).wp photographer (stopCameraIfRunning legacy)
      (fun _ => facts.Known taken photographer) X x := by
  apply wp_stopCameraIfRunning taking _ (fun _ => wp_stopPicture) _ _ h
  · exact fun _ _ _ _ h hanswer hlook _ => h.kept (kept_of_quiet (quiet_of_looks hlook) hanswer)
  · exact fun x h hunset => absurd (h .camera (by decide)).2 (Bool.eq_false_iff.mp hunset)
  · intro x hi h hstopped
    refine h.learn ⟨rfl, Bool.eq_false_iff.mpr fun hphoto => ?_⟩
    exact Bool.false_ne_true (hstopped.symm.trans (hi.photo hphoto).2.1)

theorem wp_awaitCompletion (h : facts.Known taking photographer x) :
    (contract legacy).wp photographer awaitCompletion
      (fun completed => facts.Known (if completed then taking else taken) photographer)
      (facts.Known taking photographer) x := by
  have hwait : waitForCompletion.Built Quiet Prog.noParts :=
    .bind (.call (by decide)) fun _ => .ite (.ret _) <|
      .bind (.call (by decide)) fun _ => .call (by decide)
  refine quiet.wp (fun _ h => h) h (.call (by decide)) fun _ x h => ?_
  apply quiet.wp_ensuring (.call (by decide)) (.call _)
  refine quiet.wp (fun _ h => h) h hwait fun completed x h => ?_
  cases completed with
  | true => exact wp_known h
  | false => exact wp_bind_of (wp_stopPicture h) fun _ x _ h => wp_known h

/-- `saveImage` from the mapping on. -/
theorem wp_saveMapped (h : facts.Known taking photographer x) :
    (contract legacy).wp photographer (do
        if !(← (← sys .mapPlane).check) then
          cameraStop
          return false
        Prog.ensuring
          (do
            if !(← (← sys .openOutput).check) then
              cameraStop
              return false
            let _ ← sys .writeOutput
            let _ ← sys .closeOutput
            Prog.when (!legacy) (sys .unmapPlane)
            cameraStop
            return true)
          (Prog.when legacy (sys .unmapPlane)))
      (fun _ => facts.Known taken photographer) (facts.Known taking photographer) x := by
  have hX : ∀ y, facts.Known taking photographer y → facts.Known taking photographer y :=
    fun _ h => h
  refine quiet.wp hX h (.call (by decide)) fun r x h => ?_
  refine quiet.wp hX h (built_check r) fun mapped x h => ?_
  cases mapped with
  | false => exact wp_bind_of (wp_stopPicture h) fun _ x _ h => wp_known h
  | true =>
  apply quiet.wp_ensuring (.when _ (.call (by decide))) (.when _ (.call _))
  refine quiet.wp hX h (.call (by decide)) fun r x h => ?_
  refine quiet.wp hX h (built_check r) fun opened x h => ?_
  cases opened with
  | false => exact wp_bind_of (wp_stopPicture h) fun _ x _ h => wp_known h
  | true =>
  refine quiet.wp hX h (.call (by decide)) fun _ x h => ?_
  refine quiet.wp hX h (.call (by decide)) fun _ x h => ?_
  refine quiet.wp hX h (.when _ (.call (by decide))) fun _ x h => ?_
  exact wp_bind_of (wp_stopPicture h) fun _ x _ h => wp_known h

theorem wp_saveImage (h : facts.Known taking photographer x) :
    (contract legacy).wp photographer (saveImage legacy)
      (fun _ => facts.Known taken photographer) (facts.Known taking photographer) x := by
  cases legacy with
  | true => exact wp_saveMapped h
  | false =>
    refine quiet.wp (fun _ h => h) h (p := sys .planeCount) (.call (by decide)) fun planes x h => ?_
    cases planes with
    | zero => exact quiet.wp (fun _ h => h) h (p := sys .undefinedBehaviour) (.call (by decide)) nofun
    | succ planes => exact wp_saveMapped h

/-- From the start of the camera on. -/
theorem wp_capture {request : Nat} (h : facts.Known (.settled :: taken) photographer x) :
    (contract legacy).wp photographer (capture legacy request)
      (fun _ => facts.Known taken photographer) (facts.Known taking photographer) x := by
  refine wp_allowed (fun x _ h => ?_) h fun x r _ h _ _ => ?_
  · have hops : facts .ops photographer x := h .ops (by decide)
    have hsettled : facts .settled photographer x := h .settled (by decide)
    exact ⟨nofun, fun _ => ⟨hops, fun _ => hsettled.2⟩, nofun, nofun, nofun, nofun, nofun, nofun⟩
  have hcamera : facts .camera photographer x := h .camera (by decide)
  have hops : facts .ops photographer x := h .ops (by decide)
  have hidle : facts .idle photographer x := h .idle (by decide)
  have h : facts.Known [.ops] photographer (x.1.after photographer .cameraStart r,
      pastAfter legacy photographer .cameraStart r x.1 x.2) := Facts.known_nil.learn hops
  have h : facts.Known taking photographer (x.1.after photographer .cameraStart r,
      pastAfter legacy photographer .cameraStart r x.1 x.2) := h.learn hcamera
  have hX : ∀ y, facts.Known taking photographer y → facts.Known taking photographer y :=
    fun _ h => h
  cases r with
  | threw => exact fun v hr hi => quiet.known _ v hr hi h
  | failed => exact wp_known (h.learn hidle)
  | ok =>
  refine quiet.wp hX h (p := sys (.sleepFor 500)) (.call (by decide)) fun _ x h => ?_
  refine quiet.wp hX h (.call (by simp [Quiet, loud, telling])) fun r x h => ?_
  refine quiet.wp hX h (built_check r) fun queued x h => ?_
  cases queued with
  | false => exact wp_bind_of (wp_stopPicture h) fun _ x _ h => wp_known h
  | true =>
  refine wp_bind_of (wp_awaitCompletion h) fun completed x _ h => ?_
  cases completed with
  | false => exact wp_known h
  | true => exact wp_saveImage h

/-- What the photographer knows before it starts the camera. -/
abbrev ready : List Fact := .settled :: taken

theorem taking_of_ready (y : World × Past) (h : facts.Known ready photographer y) :
    facts.Known taking photographer y := h.mono (by decide)

/-- An exit before the camera is started. -/
theorem wp_exit {b : Bool} {X : World × Past → Prop} (h : facts.Known ready photographer x) :
    (contract legacy).wp photographer (.ret b) (fun _ => facts.Known taken photographer) X x :=
  wp_known (h.mono (List.subset_cons_self ..))

theorem wp_captureWith {request : Nat} (h : facts.Known ready photographer x) :
    (contract legacy).wp photographer (captureWith legacy request)
      (fun _ => facts.Known taken photographer) (facts.Known taking photographer) x := by
  refine quiet.wp taking_of_ready h (.call (by decide)) fun buffers x h => ?_
  rcases buffers with _ | (_ | ⟨buffer, buffers⟩)
  · exact fun v hr hi => taking_of_ready v (quiet.known x v hr hi h)
  · exact wp_exit h
  · refine quiet.wp taking_of_ready h (.call (by simp [Quiet, loud, telling])) fun r x h => ?_
    refine quiet.wp taking_of_ready h (built_check r) fun added x h => ?_
    cases added with
    | false => exact wp_exit h
    | true =>
    refine quiet.wp taking_of_ready h (.call (by decide)) fun _ x h => ?_
    refine quiet.wp taking_of_ready h (.call (by decide)) fun r x h => ?_
    refine quiet.wp taking_of_ready h (built_orThrow r) fun _ x h => ?_
    exact quiet.wp_ensuring (.call (by decide)) (.call _) (wp_capture h)

theorem wp_photoRequest (h : facts.Known ready photographer x) :
    (contract legacy).wp photographer (photoRequest legacy)
      (fun _ => facts.Known taken photographer) (facts.Known taking photographer) x := by
  refine quiet.wp taking_of_ready h (.call (by decide)) fun r x h => ?_
  cases r with
  | null => exact wp_exit h
  | threw => exact fun v hr hi => taking_of_ready v (quiet.known x v hr hi h)
  | request request =>
    exact quiet.wp_ensuring (.call (by simp [Quiet, loud, telling])) (.call _) (wp_captureWith h)

theorem wp_configurePhoto (h : facts.Known ready photographer x) :
    (contract legacy).wp photographer (configurePhoto legacy)
      (fun _ => facts.Known taken photographer) (facts.Known taking photographer) x := by
  refine quiet.wp taking_of_ready h (.call (by decide)) fun r x h => ?_
  rcases r with _ | (_ | streams) | _
  · exact quiet.wp taking_of_ready h (.call (by decide)) nofun
  · exact quiet.wp taking_of_ready h (.call (by decide)) nofun
  · refine quiet.wp taking_of_ready h (.call (by simp [Quiet, loud, telling])) fun r x h => ?_
    refine quiet.wp taking_of_ready h (built_check r) fun configured x h => ?_
    cases configured with
    | false => exact wp_exit h
    | true =>
    refine quiet.wp taking_of_ready h (.call (by decide)) fun r x h => ?_
    refine quiet.wp taking_of_ready h (built_orThrow r) fun _ x h => ?_
    apply quiet.wp_ensuring (.call (by decide)) (.call _)
    refine quiet.wp taking_of_ready h (.call (by decide)) fun r x h => ?_
    refine quiet.wp taking_of_ready h (built_check r) fun allocated x h => ?_
    cases allocated with
    | false => exact wp_exit h
    | true => exact wp_photoRequest h
  · exact fun v hr hi => taking_of_ready v (quiet.known x v hr hi h)

theorem wp_capturePhoto {X : World × Past → Prop} (h : facts.Known ready photographer x) :
    (contract legacy).wp photographer (capturePhoto legacy) (fun _ => facts.Known taken photographer)
      X x := by
  apply wp_tryCatch.mpr
  apply wp_mono (wp_configurePhoto h) (fun _ _ _ h => h)
  exact fun y _ h => wp_bind_of (wp_stopAny h) fun _ y _ h => wp_known h

/-- Video mode is left, and the camera looked for again. -/
theorem wp_leavePhoto {X : World × Past → Prop} (h : facts.Known taken photographer x) :
    (contract legacy).wp photographer (leaveVideoMode legacy)
      (fun left => facts.Known (if left then ready else [.idle]) photographer) X x := by
  refine wp_look (by decide) h fun x on _ h hanswer _ hafter => ?_
  cases on with
  | false =>
    have hreply : false = x.1.flag .isVideoMode_ :=
      of_decide_eq_true (World.shared_of_answers hanswer)
    have hsettled : facts .settled photographer x :=
      ⟨rfl, fun hon => absurd (hreply.trans hon) Bool.false_ne_true⟩
    exact wp_known ((h.learn hsettled).kept (kept_of_quiet (by decide) hanswer))
  | true =>
  refine wp_bind_of (Q := fun _ => facts.Known [.ops, .settled, .idle] photographer) ?_
    fun _ x _ h => wp_mono (wp_ready (by decide) h) (fun ready y _ h => ?_) fun _ _ h => h
  · refine wp_allowed (fun x _ h => ?_) hafter fun x r _ h _ _ => ?_
    · have hidle : facts .idle photographer x := h .idle (by decide)
      exact ⟨nofun, nofun, nofun, nofun, nofun, nofun, fun _ _ => hidle.2, nofun⟩
    have hidle : facts .idle photographer x := h .idle (by decide)
    have h : facts.Known [.idle] photographer
        (x.1.after photographer (.unlock .cameraOpsMutex_) r,
          pastAfter legacy photographer (.unlock .cameraOpsMutex_) r x.1 x.2) :=
      Facts.known_nil.learn hidle
    refine wp_bind_of (wp_stopVideoMode .photographer h) fun _ x _ h => ?_
    refine wp_look (f := .ret) (by decide) h fun x r _ _ _ _ h => ?_
    exact wp_known (h.learn World.owner_after_relock)
  · cases ready with
    | false => exact h.mono (by decide)
    | true => exact h.mono (by decide)

theorem wp_photographerBody (h : facts.Known [.idle] photographer x) :
    (contract legacy).wp photographer (photographerBody legacy)
      (fun _ => facts.Known [.idle] photographer) (fun _ => True) x := by
  suffices hphoto : (contract legacy).wp photographer (takePicture legacy)
      (fun _ => facts.Known [.idle] photographer) (fun _ => True) x from
    wp_bind_of hphoto fun _ x _ h => wp_known h
  refine wp_look (by decide) h fun x r _ _ _ _ h => ?_
  have h : facts.Known [.ops, .idle] photographer
      (x.1.after photographer (.lock .cameraOpsMutex_) r,
        pastAfter legacy photographer (.lock .cameraOpsMutex_) r x.1 x.2) :=
    h.learn World.owner_after_lock
  have hunlock : ∀ y, facts.Known [.idle] photographer y →
      (contract legacy).wp photographer (sys (.unlock .cameraOpsMutex_))
        (fun _ => facts.Known [.idle] photographer) (fun _ => True) y := by
    intro y h
    refine wp_allowed (f := .ret) (fun x _ h => ?_) h fun x r _ h _ _ => wp_known ?_
    · have hidle : facts .idle photographer x := h .idle (by decide)
      exact ⟨nofun, nofun, nofun, nofun, nofun, nofun, fun _ _ => hidle.2, nofun⟩
    · have hidle : facts .idle photographer x := h .idle (by decide)
      exact Facts.known_nil.learn hidle
  apply wp_ensuring_of
  apply wp_mono (Q := fun _ => facts.Known [.idle] photographer)
    (X := facts.Known [.idle] photographer) _ (fun _ y _ h => hunlock y h)
    fun y _ h => wp_mono (hunlock y h) (fun _ _ _ _ => trivial) fun _ _ h => h
  have hX : ∀ y, facts.Known [.ops, .idle] photographer y → facts.Known [.idle] photographer y :=
    fun y h => h.mono (by decide)
  refine quiet.wp hX h (.call (by decide)) fun paused x h => ?_
  cases paused with
  | true => exact wp_known (hX x h)
  | false =>
  refine wp_bind_of (wp_ready (by decide) h) fun ready x _ h => ?_
  cases ready with
  | false => exact wp_known (hX x h)
  | true =>
  have h : facts.Known taken photographer x := h.mono (by decide)
  refine wp_bind_of (wp_leavePhoto h) fun left x _ h => ?_
  cases left with
  | false => exact wp_known h
  | true => exact wp_mono (wp_capturePhoto h) (fun _ _ _ h => h.mono (by decide)) fun _ _ h => h

end

/-! ## All threads -/

def proof (legacy : Bool) : (contract legacy).Proof (studio legacy) where
  holds
    | .caller 1, _, x => facts.Known [.idle] photographer x
    | .caller 0, _, _ | .callback, _, _ | .gst _, _, _ => True
    | _, _, _ => False
  body t pc x _ h := by
    -- what libcamera's thread and those of the main loops do is quiet
    have hquiet : ∀ {p : Prog Sys (Option t.Pc)}, p.Built Quiet Prog.noParts →
        (contract legacy).wp t p (fun _ _ => True) (fun _ => True) x :=
      fun hp => wp_of_built hp fun _ hc _ _ => allowed_of_quiet hc
    cases t with
    | caller n =>
      rcases n with _ | _ | n
      · exact wp_mono wp_operatorBody (fun _ _ _ _ _ _ => trivial) fun _ _ h => h
      · exact wp_mono (wp_photographerBody h) (fun _ _ _ h _ _ => h) fun _ _ h => h
      · exact h.elim
    | callback =>
      exact wp_mono (hquiet (built_callbackBody legacy (quiet_of (by decide))))
        (fun _ _ _ _ _ _ => trivial) fun _ _ h => h
    | gst n =>
      exact wp_mono (hquiet (built_gstBody pc (quiet_of (by decide)))) (fun _ _ _ _ _ _ => trivial)
        fun _ _ h => h
    | _ => exact h.elim

def start : World × Past := (.init, ⟨false, false, false, false, false⟩)

theorem valid_start (legacy : Bool) : (proof legacy).Valid ⟨start, (studioStart legacy).prog⟩ := by
  have hsound : Sound start := ⟨nofun, nofun⟩
  refine ⟨hsound, fun t => ?_⟩
  have hat : ∀ next, (studioStart legacy).prog t = .ret next →
      (∀ x, (contract legacy).rely t start x → ∀ pc, next = some pc → (proof legacy).holds t pc x) →
      (proof legacy).OnTrack ⟨start, (studioStart legacy).prog⟩ t :=
    fun next hp h => Proof.onTrack_ret hp fun x hr _ => h x hr
  have hnone : (studioStart legacy).prog t = .ret none →
      (proof legacy).OnTrack ⟨start, (studioStart legacy).prog⟩ t :=
    fun hp => hat none hp fun _ _ _ => nofun
  cases t with
  | caller n =>
    rcases n with _ | _ | n
    · exact hat (some false) rfl fun _ _ _ _ => trivial
    · apply hat (some false) rfl
      intro x hr pc _
      have hidle : facts .idle photographer start := ⟨rfl, rfl⟩
      exact Facts.known_nil.learn (hr .idle hidle)
    · exact hnone rfl
  | callback => exact hat (some ()) rfl fun _ _ _ _ => trivial
  | gst n => exact hat (some .begin) rfl fun _ _ _ _ => trivial
  | _ => exact hnone rfl

end Rollback

/-- However the operations of the one thread meet the pictures of the other: while no rollback finds
the camera of a picture, none is stopped but by the picture itself. -/
theorem CameraManager.rollback_spares_picture {legacy : Bool}
    {cfg : Config (studio legacy) (World × Rollback.Past)}
    (hrun : Run (system.watched (Rollback.see legacy))
      (fun x l => Rollback.apart legacy x l = true)
      ⟨Rollback.start, (studioStart legacy).prog⟩ cfg) {t : Tid}
    (hstop : cfg.pending t = some .stopBegin ∨ cfg.pending t = some .stopEnd)
    (hphoto : cfg.world.2.photo = true) : t = Rollback.photographer := by
  have hvalid := (Rollback.proof legacy).sound (Rollback.valid_start legacy) hrun
  have hmay : Rollback.MayStop t cfg.world := by
    cases hstop with
    | inl hpending => exact (hvalid.pre hpending).stops (.inl rfl)
    | inr hpending => exact (hvalid.pre hpending).stops (.inr rfl)
  cases hmay with
  | operator _ hnone => exact absurd hphoto (Bool.eq_false_iff.mp hnone)
  | photographer ht => exact ht

/-- The replies when everything goes well, but no pipeline is made. -/
def Rollback.withoutPipeline (x : World × Past) : (c : SysCall) → Option c.Reply
  | .pipelineNew => some false
  | c => x.1.willing (.startVideoMode 640 480 15) c

/-- A start fails, its rollback looks for a camera before the one of a picture is started and goes
on beside the picture, whose camera is about to be stopped. -/
def Rollback.pictureBeside : List (Choice Sys Tid (World × Past) Signal) :=
  runsWith (fun x => x.1.willing .initializeCamera) operator 12 ++
    runsWith withoutPipeline operator 17 ++
      runsWith (fun x => x.1.willing .takePicture) photographer 15 ++
        runsWith withoutPipeline operator 4 ++
          runsWith (fun x => x.1.willing .takePicture) photographer 6 ++
            runsWith withoutPipeline operator 12 ++
              runsWith (fun x => x.1.willing .takePicture) .callback 6 ++
                runsWith (fun x => x.1.willing .takePicture) photographer 8

theorem CameraManager.rollback_spares_picture_beside :
    ∃ (cfg : Config (studio false) (World × Rollback.Past)) (t : Tid),
      (cfg.pending t = some .stopBegin ∨ cfg.pending t = some .stopEnd) ∧
      cfg.world.2.photo = true ∧ t = Rollback.photographer := by
  obtain ⟨cfg, hrun, htest⟩ := exec_reaches (system.watched (Rollback.see false))
    (Rollback.apart false) ⟨Rollback.start, (studioStart false).prog⟩ Rollback.pictureBeside
    (fun cfg => cfg.pending Rollback.photographer = some .stopBegin ∧ cfg.world.2.photo = true)
    (by decide +kernel)
  obtain ⟨hstop, hphoto⟩ := of_decide_eq_true htest
  exact ⟨cfg, _, .inl hstop, hphoto, CameraManager.rollback_spares_picture hrun (.inl hstop) hphoto⟩

/-- A start fails, and a picture is begun before its rollback. -/
def Rollback.pictureBetween : List (Choice Sys Tid (World × Past) Signal) :=
  runsWith (fun x => x.1.willing .initializeCamera) operator 12 ++
    runsWith withoutPipeline operator 17 ++
      runsWith (fun x => x.1.willing .takePicture) photographer 16 ++
        runsWith withoutPipeline operator 5

/-- The rollback stops the camera of the picture. -/
theorem CameraManager.rollback_stops_picture :
    ∃ cfg : Config (studio false) (World × Rollback.Past),
      Run (system.watched (Rollback.see false)) anyStep
        ⟨Rollback.start, (studioStart false).prog⟩ cfg ∧
      cfg.pending Rollback.operator = some .stopEnd ∧ cfg.world.2.photo = true ∧
        cfg.pending Rollback.photographer = some (.sleepFor 500) := by
  obtain ⟨cfg, hrun, htest⟩ := exec_reaches (system.watched (Rollback.see false))
    (fun _ _ => true) ⟨Rollback.start, (studioStart false).prog⟩ Rollback.pictureBetween
    (fun cfg => cfg.pending Rollback.operator = some .stopEnd ∧ cfg.world.2.photo = true ∧
      cfg.pending Rollback.photographer = some (.sleepFor 500)) (by decide +kernel)
  exact ⟨cfg, hrun.mono fun _ _ _ => trivial, of_decide_eq_true htest⟩

end SurfCam

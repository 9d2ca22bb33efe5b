import SurfCam.App.Lifecycle
import SurfCam.Logic.Watch

/-!
# The emergency stop

The monitor reports memory or temperature beyond its limit by a flag, and `streamCheckWorker` takes
the flag at the head of a turn and stops the session.  In the same turn it goes on to poll the API.
-/

namespace SurfCam

open Interaction CameraManager Contract Lifecycle

namespace Emergency

/-- What `streamCheckWorker` has seen. -/
structure Turn where
  /-- the finished checks, the latest first -/
  earlier : List StreamCheck.Check
  /-- the last answer of the API -/
  answer : Option Bool
  /-- when the check read the clock, its answers asked for the stream and there was no worker; it has
  neither started one nor ended its turn since -/
  starting : Bool

structure Past where
  /-- `/proc/meminfo`, as the monitor has last read it -/
  meminfo : Option Str
  /-- the monitor has found memory or temperature beyond its limit, and no later cycle has found
  both within theirs -/
  exceeded : Bool
  /-- `streamCheckWorker` has slept at the end of a turn since then -/
  slept : Bool
  /-- and has polled the API again after that -/
  served : Bool
  turn : Turn

/-- A cycle that reads both and finds neither beyond its limit. -/
def withinLimits (meminfo thermal : Option Str) : Bool :=
  meminfo.isSome && (thermal.bind Monitor.scanInt).isSome && !Monitor.lowMemory meminfo thermal &&
    !Monitor.highTemperature meminfo thermal

/-- The answers ask for the stream at `now`, and there is no worker. -/
def Turn.wants (turn : Turn) (w : World) (now : Int) : Bool :=
  StreamCheck.asksForStream StreamCheck.armhf turn.earlier ⟨now, turn.answer⟩ &&
    w.threads.streamThread.isNone

def turnAfter (w : World) : (c : SysCall) → c.Reply → Turn → Turn
  | .isStreamingRequested, some answer, turn => { turn with answer }
  | .systemClockNow, now, turn =>
    { turn with
      earlier := ⟨now, turn.answer⟩ :: turn.earlier
      starting := turn.wants w now }
  | .load .keepRunning, keepRunning, turn => { turn with starting := turn.starting && keepRunning }
  | .spawnStreamThread, _, turn | .sleepFor _, _, turn => { turn with starting := false }
  | _, _, turn => turn

def checkAfter (w : World) (c : SysCall) (r : c.Reply) (past : Past) : Past :=
  { past with
    turn := turnAfter w c r past.turn
    slept := past.slept ||
      (past.exceeded && decide (c = .sleepFor (1000 * Config.STREAM_CHECK_INTERVAL)))
    served := past.served || (past.slept && decide (c = .isStreamingRequested)) }

def monitorAfter : (c : SysCall) → c.Reply → Past → Past
  | .readFile path, text, past =>
    -- the temperature is read last, and completes the cycle
    if path = "/proc/meminfo".toList then { past with meminfo := text }
    else if withinLimits past.meminfo text then
      { past with exceeded := false, slept := false, served := false }
    else past
  | .store .emergencyStopHls true, _, past => { past with exceeded := true }
  | _, _, past => past

def pastAfter (w : World) : (t : Tid) → (c : SysCall) → c.Reply → Past → Past
  | .monitor, c, r, past => monitorAfter c r past
  | .check, c, r, past => checkAfter w c r past
  | _, _, _, past => past

def see (w : World) : Label Sys Tid Signal → Past → Past
  | .act t c r, past => pastAfter w t c r past
  | _, past => past

/-- While a limit is exceeded, the answers do not ask for the stream at a check without a worker, and
the monitor reports nothing between the clock of a check that asks for it and the start. -/
def calm (x : World × Past) : Label Sys Tid Signal → Bool
  | .act .check .systemClockNow now => !(x.2.exceeded && x.2.turn.wants x.1 now)
  | .act .monitor (.store .emergencyStopHls true) _ => !x.2.turn.starting
  | _ => true

/-- The steps of a calm run, with what the lives of the workers say about its calls. -/
def ok (x : World × Past) (l : Label Sys Tid Signal) : Prop :=
  calm x l = true ∧ ∀ t c r, l = .act t c r → Lifecycle.Allowed t c x.1

/-- The calls that may take a report back. -/
def takers : List SysCall :=
  [.store .emergencyStopHls false, .exchange .emergencyStopHls true,
    .exchange .emergencyStopHls false]

/-- What a call requires. -/
structure Allowed (t : Tid) (c : SysCall) (x : World × Past) : Prop where
  start : c = .spawnStreamThread → t = .check ∧ x.2.exceeded = false
  take : c ∈ takers → t = .check
  poll : t = .check → c = .isStreamingRequested → x.2.slept = true →
    x.1.threads.streamThread = none

/-- A report that was served has left no worker. -/
structure Sound (x : World × Past) : Prop where
  slept : x.2.slept = true → x.2.exceeded = true
  served : x.2.served = true → x.2.slept = true
  stopped : x.2.served = true → x.1.threads.streamThread = none

/-- What the others leave to `streamCheckWorker`. -/
structure Left (x x' : World × Past) : Prop where
  live : x'.1.threads.finished .check = x.1.threads.finished .check
  stream : x.1.threads.finished .check = false →
    x'.1.threads.streamThread = x.1.threads.streamThread
  turn : x'.2.turn = x.2.turn
  calm : x.2.turn.starting = true → x.2.exceeded = false → x'.2.exceeded = false
  flag : x.1.flag .emergencyStopHls = true → x'.1.flag .emergencyStopHls = true
  report : x'.2.exceeded = true → x.2.exceeded = true ∨ x'.1.flag .emergencyStopHls = true
  slept : x'.2.slept = true → x.2.slept = true

theorem Left.refl (x : World × Past) : Left x x :=
  ⟨rfl, fun _ => rfl, rfl, fun _ => id, id, .inl, id⟩

theorem Left.trans {x x' x'' : World × Past} (h : Left x x') (h' : Left x' x'') : Left x x'' where
  live := h'.live.trans h.live
  stream hl := (h'.stream (h.live.trans hl)).trans (h.stream hl)
  turn := h'.turn.trans h.turn
  calm hs he := h'.calm (by rw [h.turn]; exact hs) (h.calm hs he)
  flag := h'.flag ∘ h.flag
  report he := by
    cases h'.report he with
    | inl he => exact (h.report he).imp id h'.flag
    | inr hf => exact .inr hf
  slept := h.slept ∘ h'.slept

section

variable {t u : Tid} {c : SysCall} {r : c.Reply} {x : World × Past}

/-- A report is kept until it is taken. -/
theorem flag_kept (hc : c ∉ takers) (h : x.1.flag .emergencyStopHls = true) :
    (x.1.after t c r).flag .emergencyStopHls = true := by
  refine World.flag_kept ?_ ?_ h
  · rintro rfl
    exact hc (by decide)
  · rintro value rfl
    cases value <;> exact hc (by decide)

theorem pastAfter_of_other (hm : t ≠ .monitor) (hc : t ≠ .check) :
    pastAfter x.1 t c r x.2 = x.2 := by
  cases t with
  | monitor => contradiction
  | check => contradiction
  | _ => rfl

/-- What was served was reported before, whatever the monitor finds. -/
theorem order_of_monitor (hi : Sound x) :
    ((monitorAfter c r x.2).slept = true → (monitorAfter c r x.2).exceeded = true) ∧
      ((monitorAfter c r x.2).served = true → (monitorAfter c r x.2).slept = true) ∧
        ((monitorAfter c r x.2).served = true → x.2.served = true) := by
  unfold monitorAfter
  split
  · split
    · exact ⟨hi.slept, hi.served, id⟩
    · split
      · exact ⟨nofun, nofun, nofun⟩
      · exact ⟨hi.slept, hi.served, id⟩
  · exact ⟨fun _ => rfl, hi.served, id⟩
  · exact ⟨hi.slept, hi.served, id⟩

/-- Nothing is started as long as a limit is exceeded, so a report that was served leaves no
worker. -/
theorem stopped_kept (hi : Sound x) (ha : Allowed t c x) (hserved : x.2.served = true) :
    (x.1.after t c r).threads.streamThread = none := by
  refine unjoinable_kept (fun hc => ?_) (hi.stopped hserved)
  have hexceeded := hi.slept (hi.served hserved)
  rw [(ha.start hc).2] at hexceeded
  cases hexceeded

/-- A report is served by the poll that follows the sleep at the end of a turn. -/
theorem sound_of_check (hi : Sound x) (ha : Allowed .check c x) :
    Sound (x.1.after .check c r, checkAfter x.1 c r x.2) where
  slept h := by
    unfold checkAfter at h
    cases Bool.or_eq_true_iff.mp h with
    | inl hbefore => exact hi.slept hbefore
    | inr hsleep => exact (Bool.and_eq_true_iff.mp hsleep).1
  served h := by
    unfold checkAfter at h
    apply Bool.or_eq_true_iff.mpr
    cases Bool.or_eq_true_iff.mp h with
    | inl hbefore => exact .inl (hi.served hbefore)
    | inr hpoll => exact .inl (Bool.and_eq_true_iff.mp hpoll).1
  stopped h := by
    unfold checkAfter at h
    cases Bool.or_eq_true_iff.mp h with
    | inl hbefore => exact stopped_kept hi ha hbefore
    | inr hpoll =>
      obtain ⟨hrested, hc⟩ := Bool.and_eq_true_iff.mp hpoll
      have hcall : c = .isStreamingRequested := of_decide_eq_true hc
      refine unjoinable_kept (fun hspawn => ?_) (ha.poll rfl hcall hrested)
      rw [hcall] at hspawn
      cases hspawn

theorem sound_after (hi : Sound x) (ha : Allowed t c x) :
    Sound (x.1.after t c r, pastAfter x.1 t c r x.2) := by
  by_cases hm : t = .monitor
  · subst hm
    obtain ⟨hslept, hserved, hbefore⟩ := order_of_monitor (r := r) hi
    exact ⟨hslept, hserved, fun h => stopped_kept hi ha (hbefore h)⟩
  by_cases hc : t = .check
  · subst hc
    exact sound_of_check hi ha
  · rw [pastAfter_of_other hm hc]
    exact ⟨hi.slept, hi.served, stopped_kept hi ha⟩

/-- The lives of the workers keep `streamThread` as it is for a `streamCheckWorker` that has not
ended. -/
theorem stream_of_other (hu : u ≠ .check) (ha : Lifecycle.Allowed u c x.1)
    (hlive : x.1.threads.finished .check = false) :
    (x.1.after u c r).threads.streamThread = x.1.threads.streamThread := by
  by_cases hs : sessionCall c = false
  · exact (threads_after hs).2.2
  cases c with
  | spawnStreamThread => exact absurd (ha.spawn rfl).1 hu
  | spawnWorker worker => rfl
  | streamThreadJoin =>
    cases ha.join rfl with
    | inl hcheck => exact absurd hcheck.1 hu
    | inr hmain => exact Bool.noConfusion (hlive.symm.trans hmain.2)
  | _ => exact absurd rfl hs

theorem left_after (hu : u ≠ .check) (hok : ok x (.act u c r)) (ha : Allowed u c x) :
    Left x (x.1.after u c r, pastAfter x.1 u c r x.2) := by
  have hworld : Left x (x.1.after u c r, x.2) :=
    { live := World.finished_after fun _ => hu
      stream := stream_of_other hu (hok.2 u c r rfl)
      turn := rfl
      calm := fun _ => id
      flag := flag_kept fun hc => hu (ha.take hc)
      report := .inl
      slept := id }
  by_cases hm : u = .monitor
  · subst hm
    show Left x (_, monitorAfter c r x.2)
    unfold monitorAfter
    split
    · split
      · exact { hworld with }
      · split
        · exact { hworld with calm := fun _ _ => rfl, report := nofun, slept := nofun }
        · exact hworld
    -- the monitor reports, and not while a session is being started
    · have hcalm : (!x.2.turn.starting) = true := hok.1
      refine { hworld with calm := fun hs => ?_, report := fun _ => .inr ?_ }
      · rw [hs] at hcalm
        cases hcalm
      · show Function.update x.1.flag .emergencyStopHls true .emergencyStopHls = true
        rw [Function.update_self]
    · exact hworld
  · rw [pastAfter_of_other hm hu]
    exact hworld

end

def contract : Contract (system.watched see) ok where
  inv := Sound
  pre := Allowed
  rely t x x' := t = .check → Left x x'
  rely_refl _ x _ := Left.refl x
  rely_trans h h' ht := (h ht).trans (h' ht)
  inv_act hi ha _ hact := by
    obtain ⟨-, rfl⟩ := watched_system_act.mp hact
    exact sound_after hi ha
  inv_env hi _ henv := by
    obtain ⟨w, hw, rfl⟩ := watched_env.mp henv
    cases hw
    exact ⟨hi.slept, hi.served, hi.stopped⟩
  rely_act htu _ ha hok hact ht := by
    obtain ⟨-, rfl⟩ := watched_system_act.mp hact
    exact left_after (fun hu => htu (ht.trans hu.symm)) hok ha
  rely_env {t e x x'} _ _ henv _ := by
    obtain ⟨w, hw, rfl⟩ := watched_env.mp henv
    cases hw
    exact ⟨rfl, fun _ => rfl, rfl, fun _ => id, id, .inl, id⟩

/-! ## The history and the variables -/

/-- The variables that decide are those of the history. -/
def Follows (m : StreamCheck.Memory) (turn : Turn) : Prop :=
  m.lastDefinitiveStreamOn =
      (StreamCheck.memory StreamCheck.armhf turn.earlier).lastDefinitiveStreamOn ∧
    m.lastStreamRequestTime =
      (StreamCheck.memory StreamCheck.armhf turn.earlier).lastStreamRequestTime

section

variable {m : StreamCheck.Memory} {turn turn' : Turn} {now : Int} {streamState : Option Bool}

theorem follows_of_earlier (h : Follows m turn) (he : turn'.earlier = turn.earlier) :
    Follows m turn' := by
  unfold Follows
  rw [he]
  exact h

theorem follows_update (h : Follows m turn)
    (he : turn'.earlier = ⟨now, streamState⟩ :: turn.earlier) :
    Follows (m.update StreamCheck.armhf now streamState) turn' := by
  obtain ⟨hlast, htime⟩ := h
  unfold Follows
  rw [he]
  cases streamState with
  | none => exact ⟨hlast, htime⟩
  | some on =>
    refine ⟨rfl, ?_⟩
    show (if on then _ else m.lastStreamRequestTime) = if on then _ else _
    rw [htime]

/-- The check decides as its history says. -/
theorem decision_of_follows (h : Follows m turn) :
    (m.update StreamCheck.armhf now streamState).shouldStream now streamState =
      StreamCheck.asksForStream StreamCheck.armhf turn.earlier ⟨now, streamState⟩ := by
  have hafter : Follows (m.update StreamCheck.armhf now streamState)
      { turn with earlier := ⟨now, streamState⟩ :: turn.earlier } := follows_update h rfl
  obtain ⟨hlast, htime⟩ := hafter
  rw [← StreamCheck.decision_eq_asksForStream]
  unfold StreamCheck.decision StreamCheck.Memory.shouldStream StreamCheck.Memory.withinGrace
  rw [hlast, htime]

end

/-! ## streamCheckWorker -/

/-- What holds of `streamCheckWorker` from one turn to the next: a report is still to be taken, or
there is no worker. -/
structure Awake (m : StreamCheck.Memory) (x : World × Past) : Prop where
  live : x.1.threads.finished .check = false
  follows : Follows m x.2.turn
  heeds : x.2.exceeded = true →
    x.1.flag .emergencyStopHls = true ∨ x.1.threads.streamThread = none

/-- The reports from before the turn have been taken as well. -/
structure Rid (m : StreamCheck.Memory) (x : World × Past) : Prop extends Awake m x where
  rid : x.2.slept = true → x.1.threads.streamThread = none

/-- The check is to stream, and may start a worker if there is none. -/
structure Deciding (m : StreamCheck.Memory) (shouldStream : Bool) (x : World × Past) : Prop
    extends Awake m x where
  starts : shouldStream = true → x.1.threads.streamThread = none →
    x.2.turn.starting = true ∧ x.2.exceeded = false

/-- The calls of `streamCheckWorker` that neither poll nor start anything. -/
abbrev Aside (c : SysCall) : Prop :=
  c ∉ SysCall.systemClockNow :: .spawnStreamThread :: .isStreamingRequested :: .threadEnd :: takers

/-- Those that do not end a turn either. -/
abbrev Inner (c : SysCall) : Prop :=
  Aside c ∧ c ≠ .sleepFor (1000 * Config.STREAM_CHECK_INTERVAL)

section

variable {m : StreamCheck.Memory} {x x' : World × Past} {c : SysCall} {r : c.Reply} {b : Bool}

theorem Awake.rely (hr : contract.rely .check x x') (h : Awake m x) : Awake m x' where
  live := (hr rfl).live.trans h.live
  follows := follows_of_earlier h.follows (by rw [(hr rfl).turn])
  heeds he := by
    rw [(hr rfl).stream h.live]
    cases (hr rfl).report he with
    | inl hbefore => exact (h.heeds hbefore).imp (hr rfl).flag id
    | inr hflag => exact .inl hflag

theorem awake_rely (x x' : World × Past) (hr : contract.rely .check x x') (_ : contract.inv x')
    (h : Awake m x) : Awake m x' := h.rely hr

theorem rid_rely (x x' : World × Past) (hr : contract.rely .check x x') (_ : contract.inv x')
    (h : Rid m x) : Rid m x' where
  toAwake := h.toAwake.rely hr
  rid hs := by
    rw [(hr rfl).stream h.live]
    exact h.rid ((hr rfl).slept hs)

theorem deciding_rely (x x' : World × Past) (hr : contract.rely .check x x') (_ : contract.inv x')
    (h : Deciding m b x) : Deciding m b x' where
  toAwake := h.toAwake.rely hr
  starts hb hn := by
    rw [(hr rfl).stream h.live] at hn
    obtain ⟨hstarting, hexceeded⟩ := h.starts hb hn
    rw [(hr rfl).turn]
    exact ⟨hstarting, (hr rfl).calm hstarting hexceeded⟩

/-- Without a worker, there is nothing to be taken. -/
theorem rid_of_none (hl : x.1.threads.finished .check = false) (hf : Follows m x.2.turn)
    (hn : x.1.threads.streamThread = none) : Rid m x :=
  ⟨⟨hl, hf, fun _ => .inr hn⟩, fun _ => hn⟩

theorem allowed_of_ne (hs : c ≠ .spawnStreamThread) (hp : c ≠ .isStreamingRequested) :
    Allowed .check c x := ⟨fun he => absurd he hs, fun _ => rfl, fun _ he => absurd he hp⟩

theorem earlier_of_ne {w : World} {turn : Turn} (hc : c ≠ .systemClockNow) :
    (turnAfter w c r turn).earlier = turn.earlier := by
  unfold turnAfter
  -- only the clock ends a check
  split <;> first | rfl | contradiction

theorem ne_of_aside {c' : SysCall} (hc : Aside c) (h : c' ∈ SysCall.systemClockNow ::
    .spawnStreamThread :: .isStreamingRequested :: .threadEnd :: takers := by decide) : c ≠ c' :=
  (ne_of_mem_of_not_mem h hc).symm

theorem allowed_of_aside (hc : Aside c) : Allowed .check c x :=
  allowed_of_ne (ne_of_aside hc) (ne_of_aside hc)

theorem awake_after (hc : Aside c) (h : Awake m x) :
    Awake m (x.1.after .check c r, checkAfter x.1 c r x.2) where
  live := (World.finished_after fun he => absurd he (ne_of_aside hc)).trans h.live
  follows := follows_of_earlier h.follows (earlier_of_ne (ne_of_aside hc))
  heeds he :=
    (h.heeds he).imp
      (flag_kept fun ht => hc (.tail _ (.tail _ (.tail _ (.tail _ ht)))))
      (unjoinable_kept (ne_of_aside hc))

theorem rid_after (hc : Inner c) (h : Rid m x) :
    Rid m (x.1.after .check c r, checkAfter x.1 c r x.2) where
  toAwake := awake_after hc.1 h.toAwake
  rid hs := by
    refine unjoinable_kept (ne_of_aside hc.1) (h.rid ?_)
    cases Bool.or_eq_true_iff.mp hs with
    | inl hbefore => exact hbefore
    | inr hsleep => exact absurd (of_decide_eq_true (Bool.and_eq_true_iff.mp hsleep).2) hc.2

theorem keeps_awake {α : Type} {p : Prog Sys α} (hp : p.Built Aside Prog.noParts) :
    contract.Keeps .check (Awake m) p := by
  refine keeps_of_built awake_rely (fun c hc x _ h => ?_) (fun _ _ h => h.elim) hp
  refine ⟨allowed_of_aside hc, fun r y _ hact => ?_⟩
  obtain ⟨-, rfl⟩ := watched_system_act.mp hact
  exact awake_after hc h

theorem keeps_rid {α : Type} {p : Prog Sys α} (hp : p.Built Inner Prog.noParts) :
    contract.Keeps .check (Rid m) p := by
  refine keeps_of_built rid_rely (fun c hc x _ h => ?_) (fun _ _ h => h.elim) hp
  refine ⟨allowed_of_aside hc.1, fun r y _ hact => ?_⟩
  obtain ⟨-, rfl⟩ := watched_system_act.mp hact
  exact rid_after hc h

/-- Code that neither polls nor starts anything, in front of the rest. -/
theorem wp_awake {α β : Type} {p : Prog Sys α} {f : α → Prog Sys β} {Q : β → World × Past → Prop}
    (hp : p.Built Aside Prog.noParts) (h : Awake m x)
    (hf : ∀ a x, Awake m x → contract.wp .check (f a) Q (fun _ => True) x) :
    contract.wp .check (p >>= f) Q (fun _ => True) x :=
  (keeps_awake hp).wp_bind (fun _ _ => trivial) h hf

theorem wp_rid {α β : Type} {p : Prog Sys α} {f : α → Prog Sys β} {Q : β → World × Past → Prop}
    (hp : p.Built Inner Prog.noParts) (h : Rid m x)
    (hf : ∀ a x, Rid m x → contract.wp .check (f a) Q (fun _ => True) x) :
    contract.wp .check (p >>= f) Q (fun _ => True) x :=
  (keeps_rid hp).wp_bind (fun _ _ => trivial) h hf

theorem wp_ret_awake {α : Type} {a : α} {Q : α → World × Past → Prop} {X : World × Past → Prop}
    (h : Awake m x) (hQ : ∀ x : World × Past, Awake m x → Q a x) :
    contract.wp .check (.ret a) Q X x :=
  fun _ hr _ => hQ _ (h.rely hr)

end

section

variable {m : StreamCheck.Memory} {x : World × Past} {legacy : Bool}

theorem inner_of {calls : SysCall → Bool}
    (h : ∀ c ∈ SysCall.sleepFor (1000 * Config.STREAM_CHECK_INTERVAL) :: .systemClockNow ::
      .spawnStreamThread :: .isStreamingRequested :: .threadEnd :: takers, calls c = false)
    (c : SysCall) (hc : calls c = true) : Inner c := by
  have hnot := not_mem_of h c hc
  exact ⟨List.not_mem_of_not_mem_cons hnot, List.ne_of_not_mem_cons hnot⟩

theorem built_stopSession : App.stopHlsStreamSession.Built Inner Prog.noParts :=
  .bind (.call (by decide)) fun _ => .bind (.call (by decide)) fun _ =>
    .when _ (.call (by decide))

/-- The session is stopped: afterwards there is no worker. -/
theorem wp_stopSession (h : x.1.threads.finished .check = false ∧ Follows m x.2.turn) :
    contract.wp .check App.stopHlsStreamSession (fun _ => Rid m) (fun _ => True) x := by
  -- between the calls, the others leave the thread and its history alone
  have hrely : ∀ x x' : World × Past, contract.rely .check x x' → contract.inv x' →
      x.1.threads.finished .check = false ∧ Follows m x.2.turn →
        x'.1.threads.finished .check = false ∧ Follows m x'.2.turn := by
    intro x x' hr _ h
    exact ⟨(hr rfl).live.trans h.1, follows_of_earlier h.2 (by rw [(hr rfl).turn])⟩
  refine wp_call_of hrely h fun x _ h => ⟨allowed_of_aside (by decide), fun _ y _ hact => ?_⟩
  obtain ⟨-, rfl⟩ := watched_system_act.mp hact
  refine wp_call_of hrely h fun x hi h => ⟨allowed_of_aside (by decide), fun joinable y _ hact => ?_⟩
  obtain ⟨hanswer, rfl⟩ := watched_system_act.mp hact
  have hjoinable : joinable = x.1.threads.streamThread.isSome :=
    of_decide_eq_true (World.threads_of_answers hanswer)
  cases joinable with
  | false =>
    have hnone : x.1.threads.streamThread = none := by
      rw [← Option.not_isSome_iff_eq_none, ← hjoinable]
      decide
    exact fun v hr hi => rid_rely _ v hr hi (rid_of_none h.1 h.2 hnone)
  | true =>
    intro v hr hi
    refine ⟨allowed_of_aside (by decide), fun _ y _ hact => ?_⟩
    obtain ⟨-, rfl⟩ := watched_system_act.mp hact
    have hv := hrely _ v hr hi h
    exact fun u hr hi => rid_rely _ u hr hi (rid_of_none hv.1 hv.2 rfl)

/-- What follows the report in a turn keeps to a session that is stopped. -/
theorem wp_recover {emergency : Bool} (h : Rid m x) :
    contract.wp .check (do
      App.recoverCamera legacy
      return if emergency then { m with apiFailureStreak := 0 } else m)
      (fun m' => Rid m') (fun _ => True) x := by
  have hT : ∀ c, teardownCall c = true → Inner c := inner_of (by decide)
  have hA : ∀ c, acquireCall c = true → Inner c := inner_of (by decide)
  have hshutdown : shutdownGstreamerPipeline.Built Inner Prog.noParts :=
    built_shutdownGstreamerPipeline (inner_of (by decide)) (by decide) (by decide)
  have hreinitialize : (reinitializeCamera legacy).Built Inner Prog.noParts :=
    built_reinitializeCamera hA hT hshutdown fun value => by cases value <;> decide
  have hrecover : (App.recoverCamera legacy).Built Inner Prog.noParts :=
    .bind (.call (by decide)) fun _ => .ite (.ret _) <| .bind (.call (by decide)) fun _ =>
      .when _ <| .bind built_stopSession fun _ => .bind hreinitialize fun _ =>
        .when _ (.call (by decide))
  refine wp_rid hrecover h fun _ x h => ?_
  have hnext : Rid (if emergency then { m with apiFailureStreak := 0 } else m) x := by
    cases emergency with
    | true => exact ⟨⟨h.live, h.follows, h.heeds⟩, h.rid⟩
    | false => exact h
  exact fun v hr hi => rid_rely x v hr hi hnext

/-- A report is taken at the head of a turn, and the session stopped. -/
theorem wp_serveRequests (h : Awake m x) :
    contract.wp .check (App.serveRequests legacy m)
      (fun m' => Rid m') (fun _ => True) x := by
  have hreap : App.reapFinishedHlsWorker.Built Aside Prog.noParts :=
    .bind (.call (by decide)) fun _ => .ite (.ret _) <|
      .bind (.call (by decide)) fun _ => .when _ (.call (by decide))
  refine wp_awake hreap h fun _ x h => ?_
  refine wp_call_of awake_rely h fun x hi h =>
    ⟨allowed_of_ne (by decide) (by decide), fun emergency y _ hact => ?_⟩
  obtain ⟨hanswer, rfl⟩ := watched_system_act.mp hact
  have hflag : emergency = x.1.flag .emergencyStopHls :=
    of_decide_eq_true (World.shared_of_answers hanswer)
  cases emergency with
  | true =>
    exact wp_bind_of (wp_stopSession ⟨h.live, h.follows⟩) fun _ x _ h =>
      wp_recover h
  | false =>
    -- nothing was to be taken, so that a report from before the turn has left no worker
    refine wp_recover ?_
    have hnone : x.2.exceeded = true → x.1.threads.streamThread = none := by
      intro he
      cases h.heeds he with
      | inl hset => exact Bool.noConfusion (hflag.trans hset)
      | inr hnone => exact hnone
    exact ⟨⟨h.live, h.follows, fun he => .inr (hnone he)⟩, fun hs => hnone (hi.slept (by
      cases Bool.or_eq_true_iff.mp hs with
      | inl hbefore => exact hbefore
      | inr hsleep => cases (Bool.and_eq_true_iff.mp hsleep).2))⟩

theorem wp_startSession {X : World × Past → Prop} (h : Deciding m true x)
    (hn : x.1.threads.streamThread = none) :
    contract.wp .check (do
      sys (.store .streamShouldRun true)
      return (← sys .spawnStreamThread) = .ok) (fun _ => Awake m) X x := by
  have hrely : ∀ x x' : World × Past, contract.rely .check x x' → contract.inv x' →
      Deciding m true x ∧ x.1.threads.streamThread = none →
        Deciding m true x' ∧ x'.1.threads.streamThread = none := by
    intro x x' hr hi h
    refine ⟨deciding_rely x x' hr hi h.1, ?_⟩
    rw [(hr rfl).stream h.1.live]
    exact h.2
  refine wp_call_of hrely ⟨h, hn⟩ fun x _ h => ⟨allowed_of_aside (by decide), fun r y _ hact => ?_⟩
  obtain ⟨-, rfl⟩ := watched_system_act.mp hact
  have hstore : Deciding m true (x.1.after .check (.store .streamShouldRun true) r,
      checkAfter x.1 (.store .streamShouldRun true) r x.2) :=
    ⟨awake_after (by decide) h.1.toAwake, fun _ hn => h.1.starts rfl hn⟩
  refine wp_call_of hrely ⟨hstore, h.2⟩ fun x _ h => ?_
  obtain ⟨-, hexceeded⟩ := h.1.starts rfl h.2
  have hallowed : Allowed .check .spawnStreamThread x :=
    ⟨fun _ => ⟨rfl, hexceeded⟩, fun _ => rfl, fun _ he => by cases he⟩
  refine ⟨hallowed, fun spawned y _ hact => ?_⟩
  obtain ⟨-, rfl⟩ := watched_system_act.mp hact
  have hstarted : Awake m (x.1.after .check .spawnStreamThread spawned,
      checkAfter x.1 .spawnStreamThread spawned x.2) := by
    refine ⟨(World.finished_after fun he => by cases he).trans h.1.live, h.1.follows, fun he => ?_⟩
    exact Bool.noConfusion (hexceeded.symm.trans he)
  exact wp_ret_awake hstarted fun _ h => h

theorem wp_followDecision {shouldStream : Bool} (h : Deciding m shouldStream x) :
    contract.wp .check (App.followDecision shouldStream) (fun _ => Awake m) (fun _ => True) x := by
  refine wp_call_of deciding_rely h fun x _ h =>
    ⟨allowed_of_aside (by decide), fun keepRunning y _ hact => ?_⟩
  obtain ⟨-, rfl⟩ := watched_system_act.mp hact
  have hawake : Awake m (x.1.after .check (.load .keepRunning) keepRunning,
      checkAfter x.1 (.load .keepRunning) keepRunning x.2) := awake_after (by decide) h.toAwake
  cases keepRunning with
  | false => exact wp_ret_awake hawake fun _ h => h
  | true =>
  have hdeciding : Deciding m shouldStream (x.1.after .check (.load .keepRunning) true,
      checkAfter x.1 (.load .keepRunning) true x.2) := by
    refine ⟨hawake, fun hs hn => ?_⟩
    obtain ⟨hstarting, hexceeded⟩ := h.starts hs hn
    exact ⟨(Bool.and_true _).trans hstarting, hexceeded⟩
  refine wp_call_of deciding_rely hdeciding fun x _ h =>
    ⟨allowed_of_aside (by decide), fun joinable y _ hact => ?_⟩
  obtain ⟨hanswer, rfl⟩ := watched_system_act.mp hact
  have hjoinable : joinable = x.1.threads.streamThread.isSome :=
    of_decide_eq_true (World.threads_of_answers hanswer)
  have hlook : Deciding m shouldStream (x.1.after .check .streamThreadJoinable joinable,
      checkAfter x.1 .streamThreadJoinable joinable x.2) :=
    ⟨awake_after (by decide) h.toAwake, h.starts⟩
  by_cases hstart : (shouldStream && !joinable) = true
  · obtain ⟨rfl, hnone⟩ := Bool.and_eq_true_iff.mp hstart
    have hfree : x.1.threads.streamThread = none := by
      rw [← Option.not_isSome_iff_eq_none, ← hjoinable]
      exact fun hj => by rw [hj] at hnone; cases hnone
    show contract.wp .check (if true && !joinable then _ else _) _ _ _
    rw [if_pos hstart]
    exact wp_startSession (X := fun _ => True) hlook hfree
  · show contract.wp .check (if shouldStream && !joinable then _ else _) _ _ _
    rw [if_neg hstart]
    refine wp_awake (.when _ (built_stopSession.mono fun _ hc => hc.1)) hlook.toAwake fun _ x h => ?_
    exact wp_ret_awake h fun _ h => h

theorem wp_checkStream (h : Rid m x) :
    contract.wp .check (App.checkStream m) (fun next => Awake next.1) (fun _ => True) x := by
  refine wp_call_of rid_rely h fun x _ h =>
    ⟨⟨nofun, fun _ => rfl, fun _ _ => h.rid⟩, fun answer y _ hact => ?_⟩
  obtain ⟨-, rfl⟩ := watched_system_act.mp hact
  have hpolled : Awake m (x.1.after .check .isStreamingRequested answer,
      checkAfter x.1 .isStreamingRequested answer x.2) :=
    ⟨h.live, follows_of_earlier h.follows (earlier_of_ne (by decide)), h.heeds⟩
  cases answer with
  | none => exact wp_ret_awake hpolled fun _ h => ⟨h.live, h.follows, h.heeds⟩
  | some streamState =>
  have hrely : ∀ x x' : World × Past, contract.rely .check x x' → contract.inv x' →
      Awake m x ∧ x.2.turn.answer = streamState → Awake m x' ∧ x'.2.turn.answer = streamState := by
    intro x x' hr _ h
    refine ⟨h.1.rely hr, ?_⟩
    rw [(hr rfl).turn]
    exact h.2
  refine wp_call_of hrely ⟨hpolled, rfl⟩ fun x _ h =>
    ⟨allowed_of_aside (by decide), fun keepRunning y _ hact => ?_⟩
  obtain ⟨-, rfl⟩ := watched_system_act.mp hact
  have hloaded : Awake m (x.1.after .check (.load .keepRunning) keepRunning,
      checkAfter x.1 (.load .keepRunning) keepRunning x.2) := awake_after (by decide) h.1
  cases keepRunning with
  | false => exact wp_ret_awake hloaded fun _ h => h
  | true =>
  refine wp_call_of hrely ⟨hloaded, h.2⟩ fun x _ h =>
    ⟨allowed_of_ne (by decide) (by decide), fun now y hok hact => ?_⟩
  obtain ⟨-, rfl⟩ := watched_system_act.mp hact
  obtain ⟨hawake, rfl⟩ := h
  refine wp_bind_of (Q := fun _ => Awake (m.update StreamCheck.armhf now x.2.turn.answer)) ?_
    fun done x _ h => ?_
  · refine wp_followDecision ⟨⟨hawake.live, follows_update hawake.follows rfl, hawake.heeds⟩, ?_⟩
    -- what the worker computes from its variables is what its history says
    rw [decision_of_follows hawake.follows]
    intro hasks hnone
    have hwants : x.2.turn.wants x.1 now = true :=
      Bool.and_eq_true_iff.mpr ⟨hasks, Option.isNone_iff_eq_none.mpr hnone⟩
    refine ⟨hwants, ?_⟩
    have hcalm : (!(x.2.exceeded && x.2.turn.wants x.1 now)) = true := hok.1
    rw [hwants, Bool.and_true] at hcalm
    exact (Bool.not_eq_true' _).mp hcalm
  · cases done with
    | true => exact wp_ret_awake h fun _ h => h
    | false => exact wp_ret_awake h fun _ h => ⟨h.live, h.follows, h.heeds⟩

theorem wp_checkTurn (h : Awake m x) :
    contract.wp .check (App.checkTurn legacy m)
      (fun next x => ∀ m', next = some m' → Awake m' x) (fun _ => True) x := by
  have hsleep : ∀ streak, (App.checkSleep streak).Built Aside Prog.noParts := fun streak =>
    .bind (.call (by decide)) fun _ => .ite (.ret _) <|
      .bind (.call (by decide)) fun _ => .when _ (.call (by simp [Aside, takers]))
  refine wp_awake (.call (by decide)) h fun keepRunning x h => ?_
  cases keepRunning with
  | false =>
    refine fun y _ _ => ⟨allowed_of_ne (by decide) (by decide), ?_⟩
    intro _ _ _ _ _ _ _ m' he
    cases he
  | true =>
  refine wp_bind_of (wp_serveRequests h) fun m x _ h => ?_
  refine wp_bind_of (wp_checkStream h) fun next x _ h => ?_
  obtain ⟨m, goesOn⟩ := next
  refine wp_awake (.when _ (hsleep _)) h fun _ x h => wp_ret_awake h fun x h m' he => ?_
  cases he
  exact h

end

/-! ## All threads -/

/-- The calls of the other threads. -/
abbrev Other (c : SysCall) : Prop := c ∉ SysCall.spawnStreamThread :: takers

theorem built_body {legacy : Bool} {t : Tid} (hcheck : t ≠ .check) (hcaller : ∀ n, t ≠ .caller n)
    (pc : t.Pc) : ((code legacy).body t pc).Built Other Prog.noParts := by
  have hM : ∀ c, modeCall c = true → Other c := not_mem_of (by decide)
  have hA : ∀ c, acquireCall c = true → Other c := not_mem_of (by decide)
  have hW : ∀ c, App.workerCall c = true → Other c := not_mem_of (by decide)
  have hT : ∀ c, threadCall t c = true → Other c := by
    refine not_mem_of ?_
    simp [takers, threadCall, hcheck]
  refine built_appBody hW hT (fun _ => ⟨?_, built_destroyed hM hA⟩) (fun _ => built_photo hM)
    (fun ht => absurd ht hcheck) (fun n _ => ?_) (fun _ => not_mem_of (by decide))
    (fun _ _ => not_mem_of (by decide)) hcaller pc
  · exact built_initializeCamera hA (by decide) (by decide) (by decide)
  · exact ⟨by decide, by decide, App.built_hlsWorkerBegin hW (by decide) (by decide) (by decide)
      (built_start hM (built_pipeline hM (by decide)) _ _ _), built_stop hM⟩

def holds : (t : Tid) → t.Pc → World × Past → Prop
  | .check, .begin, x => Awake {} x
  | .check, .loop m, x => Awake m x
  | .caller _, _, _ => False
  | _, _, _ => True

theorem wp_checkBody {legacy : Bool} {pc : CheckPc} {x : World × Past} (h : holds .check pc x) :
    contract.wp .check (checkBody legacy pc)
      (fun next x => ∀ pc : CheckPc, next = some pc → holds .check pc x) (fun _ => True) x := by
  cases pc with
  | begin =>
    refine wp_awake (.call (by decide)) h fun _ x h => wp_ret_awake h fun x h pc he => ?_
    cases he
    exact h
  | loop m =>
    refine wp_bind_of (wp_checkTurn h) fun next x _ h => ?_
    cases next with
    | none =>
      intro _ _ _ _ he
      cases he
    | some m =>
      refine wp_ret_awake (h m rfl) fun x h pc he => ?_
      cases he
      exact h

def proof (legacy : Bool) : contract.Proof (code legacy) where
  holds := holds
  body t pc x _ h := by
    have hbody : t ≠ .check → (∀ n, t ≠ .caller n) →
        contract.wp t ((code legacy).body t pc) (fun _ _ => True) (fun _ => True) x := by
      intro hcheck hcaller
      refine wp_of_built (built_body hcheck hcaller pc) fun c hc _ _ => ?_
      refine ⟨fun he => ?_, fun ht => absurd (.tail _ ht) hc, fun ht => absurd ht hcheck⟩
      rw [he] at hc
      exact absurd (by decide) hc
    cases t with
    | check => exact wp_checkBody h
    | caller n => exact h.elim
    | _ =>
      exact wp_mono (hbody (by simp) fun _ => by simp) (fun _ _ _ _ _ _ => trivial)
        fun _ _ h => h

def start : World × Past := (.init, ⟨none, false, false, false, ⟨[], none, false⟩⟩)

theorem valid_start (legacy : Bool) : (proof legacy).Valid ⟨start, (appStart legacy).prog⟩ := by
  have hawake : Awake {} start := ⟨rfl, ⟨rfl, rfl⟩, nofun⟩
  apply valid_appStart
  · exact ⟨nofun, nofun, nofun⟩
  · exact fun _ _ _ => trivial
  · exact fun _ _ _ => trivial
  · exact fun x hr _ => hawake.rely hr
  · exact fun _ _ _ => trivial
  · exact fun _ _ _ _ => trivial
  · exact fun _ _ _ => trivial
  · exact fun _ _ _ _ => trivial

end Emergency

/-- In every calm run: no HLS worker is started from a cycle that has found a limit exceeded to one
that has found both kept; and when `streamCheckWorker` has slept at the end of a turn since the
first of these and polled the API again, no worker is alive until the second. -/
theorem App.no_start_while_exceeded {legacy : Bool}
    {cfg : Config (code legacy) (World × Emergency.Past)}
    (hrun : Run (system.watched Emergency.see) (fun x l => Emergency.calm x l = true)
      ⟨Emergency.start, (appStart legacy).prog⟩ cfg) :
    (∀ t, cfg.pending t = some .spawnStreamThread → cfg.world.2.exceeded = false) ∧
      (cfg.world.2.served = true → ∀ n, ¬ Lifecycle.Alive n cfg.world.1) := by
  have hlives : ∀ {cfg : Config (code legacy) World}, Run system anyStep (appStart legacy) cfg →
      (Lifecycle.proof legacy).Valid cfg :=
    fun hrun => (Lifecycle.proof legacy).sound (Lifecycle.valid_start legacy) hrun
  have hok := hrun.unwatch_pending fun hrun _ _ hp => (hlives hrun).pre hp
  have hvalid := (Emergency.proof legacy).sound (Emergency.valid_start legacy) hok
  refine ⟨fun t hc => ((hvalid.pre hc).start rfl).2, fun hserved n hn => ?_⟩
  have hstream := (hlives hrun.unwatch).inv.alive n hn
  rw [Config.unwatched, hvalid.inv.stopped hserved] at hstream
  cases hstream

/-- The monitor reads so much free memory, in kB, and the API answers so; the rest goes well. -/
def Emergency.turns (memFree : String) (streamOn : Bool) (t : Tid) (n : Nat) :
    List (Choice Sys Tid (World × Past) Signal) :=
  runsWith (fun x c =>
    match c with
    | .readFile path =>
      if path = "/proc/meminfo".toList then
        some (some ("MemTotal: 430000\nMemFree: " ++ memFree).toList)
      else some (some "50000".toList)
    | .isStreamingRequested => some (some (some streamOn))
    | c => x.1.willing .takePicture c) t n

/-- A session is on when the monitor finds too little memory: the worker goes through its life, and
the check joins it. -/
def Emergency.stopped (streamOn : Bool) : List (Choice Sys Tid (World × Past) Signal) :=
  turns "90000" true .main 18 ++ turns "90000" true .check 14 ++ turns "90000" true (.hls 0) 56 ++
    turns "90000" true (.gst 1) 5 ++ turns "30000" true .monitor 7 ++
      turns "30000" true (.hls 0) 13 ++ turns "30000" true .callback 3 ++
        turns "30000" true (.hls 0) 12 ++ turns "30000" true (.gst 1) 3 ++
          turns "30000" true (.hls 0) 38 ++ turns "30000" streamOn .check 16

/-- The stream is not requested any more when the session has been stopped, and it is again after a
cycle that finds enough memory. -/
theorem App.no_start_while_exceeded_later :
    (∃ cfg : Config (code false) (World × Emergency.Past),
      cfg.world.2.served = true ∧ ∀ n, ¬ Lifecycle.Alive n cfg.world.1) ∧
      ∃ cfg : Config (code false) (World × Emergency.Past),
        cfg.pending .check = some .spawnStreamThread ∧ cfg.world.1.threads.hlsWorkers = 1 ∧
          cfg.world.2.exceeded = false := by
  obtain ⟨cfg, hrun, hserved⟩ := exec_reaches (system.watched Emergency.see) Emergency.calm
    ⟨Emergency.start, (appStart false).prog⟩ (Emergency.stopped false)
    (fun cfg => cfg.world.2.served) (by decide +kernel)
  obtain ⟨cfg', hrun', htest'⟩ := exec_reaches (system.watched Emergency.see) Emergency.calm
    ⟨Emergency.start, (appStart false).prog⟩
    (Emergency.stopped false ++ Emergency.turns "90000" true .monitor 5 ++
      Emergency.turns "90000" true .check 11)
    (fun cfg => cfg.pending .check = some .spawnStreamThread ∧ cfg.world.1.threads.hlsWorkers = 1)
    (by decide +kernel)
  obtain ⟨hc, hworkers⟩ := of_decide_eq_true htest'
  exact ⟨⟨cfg, hserved, (App.no_start_while_exceeded hrun).2 hserved⟩,
    cfg', hc, hworkers, (App.no_start_while_exceeded hrun').1 _ hc⟩

/-- A session ends on the report, and the check that serves the report starts another one. -/
theorem App.start_while_exceeded :
    ∃ cfg : Config (code false) (World × Emergency.Past),
      Run (system.watched Emergency.see) anyStep ⟨Emergency.start, (appStart false).prog⟩ cfg ∧
        cfg.pending .check = some .spawnStreamThread ∧ cfg.world.2.exceeded = true ∧
          cfg.world.1.threads.hlsWorkers = 1 := by
  obtain ⟨cfg, hrun, htest⟩ := exec_reaches (system.watched Emergency.see) (fun _ _ => true)
    ⟨Emergency.start, (appStart false).prog⟩ (Emergency.stopped true)
    (fun cfg => cfg.pending .check = some .spawnStreamThread ∧ cfg.world.2.exceeded = true ∧
      cfg.world.1.threads.hlsWorkers = 1) (by decide +kernel)
  exact ⟨cfg, hrun.mono fun _ _ _ => trivial, of_decide_eq_true htest⟩

end SurfCam

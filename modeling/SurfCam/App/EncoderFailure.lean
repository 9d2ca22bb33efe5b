import SurfCam.Logic.Watch
import SurfCam.System

/-!
# A failure of the encoder

An ERROR message sets `gstPipelineError_` in the thread of the main loop, and the HLS worker takes
the flag.  The start of a pipeline resets it once more when the loop's thread is already running.
-/

namespace SurfCam

open Interaction CameraManager Contract

namespace EncoderFailure

/-- What has happened to the pipeline. -/
structure Past where
  /-- the threads of a main loop to which the bus has delivered an ERROR message, up to the next
  call that they make -/
  delivered : Nat → Bool
  /-- an ERROR message of the last pipeline was delivered and its thread has gone on, no worker has
  taken the failure since, and `stopVideoMode` has not run -/
  handled : Bool
  /-- the threads that have started the thread of a main loop and not come to the end of the start
  of its pipeline -/
  starting : List Tid

/-- The call gets an ERROR message from the bus. -/
def getsError : (c : SysCall) → c.Reply → Bool
  | .mainLoopTurn, .message .error => true
  | _, _ => false

def deliveredAfter (t : Tid) (c : SysCall) (r : c.Reply) (delivered : Nat → Bool) : Nat → Bool :=
  match t with
  | .gst n => Function.update delivered n (getsError c r)
  | _ => delivered

/-- The thread has been given an ERROR message before this call. -/
def Past.told (past : Past) : Tid → Bool
  | .gst n => past.delivered n
  | _ => false

/-- What ends a failure: the next pipeline, a worker that takes it, and `stopVideoMode`. -/
def ends : Tid → (c : SysCall) → c.Reply → Bool
  | _, .spawnGstThread, .ok => true
  | .hls _, .exchange .gstPipelineError_ false, true => true
  | _, .store .shuttingDown_ true, _ => true
  | _, _, _ => false

def startingAfter (t : Tid) : (c : SysCall) → c.Reply → List Tid → List Tid
  | .spawnGstThread, .ok, starting => t :: starting
  | .setState .playing, false, starting => starting.erase t
  | .store .gstPipelineError_ false, _, starting => starting.erase t
  | _, _, starting => starting

def see (_ : World) : Label Sys Tid Signal → Past → Past
  | .act t c r, past =>
    { delivered := deliveredAfter t c r past.delivered
      handled := (past.handled || past.told t) && !ends t c r
      starting := startingAfter t c r past.starting }
  | _, past => past

/-- No start of a pipeline comes to its end, the reset of the flag, with a failure of the pipeline
at hand. -/
def late (x : World × Past) : Label Sys Tid Signal → Bool
  | .act t (.store .gstPipelineError_ false) _ => !(x.2.handled && decide (t ∈ x.2.starting))
  | _ => true

/-- Who resets the flag, who takes the failure, and what a thread does with an ERROR message. -/
structure Allowed (t : Tid) (c : SysCall) (x : World × Past) : Prop where
  reset : c = .store .gstPipelineError_ false → t ∈ x.2.starting
  take : ∀ value, c = .exchange .gstPipelineError_ value → value = false ∧ ∃ n, t = .hls n
  told : x.2.told t = true → c = .store .gstPipelineError_ true

def Sound (x : World × Past) : Prop :=
  x.2.handled = true → x.1.flag .gstPipelineError_ = true

/-- What the others leave to a thread. -/
structure Left (t : Tid) (x x' : World × Past) : Prop where
  starting : t ∈ x.2.starting → t ∈ x'.2.starting
  told : x'.2.told t = x.2.told t

section

variable {t u : Tid} {c : SysCall} {r : c.Reply} {x : World × Past}

theorem starting_kept (hne : t ≠ u) (h : t ∈ x.2.starting) :
    t ∈ startingAfter u c r x.2.starting := by
  unfold startingAfter
  split
  · exact .tail _ h
  · exact (List.mem_erase_of_ne hne).mpr h
  · exact (List.mem_erase_of_ne hne).mpr h
  · exact h

theorem told_kept (hne : t ≠ u) : (see x.1 (.act u c r) x.2).told t = x.2.told t := by
  cases t with
  | gst n =>
    cases u with
    | gst m =>
      have hnm : n ≠ m := by
        rintro rfl
        exact hne rfl
      exact Function.update_of_ne hnm ..
    | _ => rfl
  | _ => rfl

/-- The thread of a main loop has an ERROR message at hand exactly when its last call got it. -/
theorem told_self {n : Nat} : (see x.1 (.act (.gst n) c r) x.2).told (.gst n) = getsError c r :=
  Function.update_self ..

theorem told_after (hc : c ≠ .mainLoopTurn) : (see x.1 (.act t c r) x.2).told t = false := by
  cases t with
  | gst n =>
    rw [told_self]
    unfold getsError
    split
    · exact absurd rfl hc
    · rfl
  | _ => rfl

/-- A failure that is kept is seen in the flag. -/
theorem kept_after (hi : Sound x) (ha : Allowed t c x) (hok : late x (.act t c r) = true)
    (hanswer : x.1.answers t c r = true) :
    Sound (x.1.after t c r, see x.1 (.act t c r) x.2) := by
  intro h
  obtain ⟨hpast, hends⟩ := (Bool.and_eq_true ..).mp h
  by_cases htold : x.2.told t = true
  · have hc := ha.told htold
    subst hc
    show Function.update x.1.flag .gstPipelineError_ true .gstPipelineError_ = true
    rw [Function.update_self]
  have hhandled : x.2.handled = true := by
    rw [Bool.eq_false_iff.mpr htold, Bool.or_false] at hpast
    exact hpast
  have hflag := hi hhandled
  cases c with
  | store f value =>
    show Function.update x.1.flag f value .gstPipelineError_ = true
    rw [Function.update_apply]
    split
    · rename_i hf
      subst hf
      cases value with
      | true => rfl
      | false =>
        -- a reset is the end of a start, and there is no failure at hand then
        have hstarting := ha.reset rfl
        simp [late, hhandled, hstarting] at hok
    · exact hflag
  | exchange f value =>
    by_cases hf : f = .gstPipelineError_
    · subst hf
      rcases ha.take value rfl with ⟨rfl, n, rfl⟩
      -- the flag is up, so the worker has taken the failure
      have hreply : r = x.1.flag .gstPipelineError_ :=
        of_decide_eq_true (World.shared_of_answers hanswer)
      rw [hflag] at hreply
      subst hreply
      cases hends
    · exact (Function.update_of_ne (Ne.symm hf) ..).trans hflag
  | _ => exact hflag

end

def contract : Contract (system.watched see) (fun x l => late x l = true) where
  inv := Sound
  pre := Allowed
  rely := Left
  rely_refl _ _ := ⟨id, rfl⟩
  rely_trans h h' := ⟨h'.starting ∘ h.starting, h'.told.trans h.told⟩
  inv_act hi ha hok hact := by
    rcases watched_system_act.mp hact with ⟨hanswer, rfl⟩
    exact kept_after hi ha hok hanswer
  inv_env hi _ henv := by
    rcases watched_env.mp henv with ⟨w, hsys, rfl⟩
    cases hsys
    exact hi
  rely_act {t u c r x x'} hne _ _ _ hact := by
    rcases watched_act.mp hact with ⟨w, hsys, rfl⟩
    exact ⟨starting_kept hne, told_kept hne⟩
  rely_env _ _ henv := by
    rcases watched_env.mp henv with ⟨w, hsys, rfl⟩
    exact ⟨id, rfl⟩

/-- The calls that leave the flag alone, but for taking and raising it. -/
structure Plain (t : Tid) (c : SysCall) : Prop where
  reset : c ≠ .store .gstPipelineError_ false
  take : ∀ value, c = .exchange .gstPipelineError_ value → value = false ∧ ∃ n, t = .hls n
  turn : c ≠ .mainLoopTurn

/-- The thread has no ERROR message at hand. -/
def Untold (t : Tid) (x : World × Past) : Prop := x.2.told t = false

theorem allowed_of_plain {t : Tid} {c : SysCall} {x : World × Past} (h : Plain t c)
    (htold : Untold t x) : Allowed t c x :=
  ⟨fun hc => absurd hc h.reset, h.take, fun ht => Bool.noConfusion (htold.symm.trans ht)⟩

/-- A set of calls that neither resets the flag nor takes it. -/
theorem plain_of {calls : SysCall → Bool} (hreset : calls (.store .gstPipelineError_ false) = false)
    (htake : ∀ value, calls (.exchange .gstPipelineError_ value) = false)
    (hturn : calls .mainLoopTurn = false) {t : Tid} (c : SysCall) (h : calls c = true) :
    Plain t c where
  reset := by
    rintro rfl
    cases hreset.symm.trans h
  take := by
    rintro value rfl
    cases (htake value).symm.trans h
  turn := by
    rintro rfl
    cases hturn.symm.trans h

section

variable {t : Tid} {legacy : Bool} {x : World × Past}

theorem untold_rely (x x' : World × Past) (hr : contract.rely t x x') (_ : contract.inv x')
    (h : Untold t x) : Untold t x' := hr.told.trans h

theorem untold_act {c : SysCall} {r : c.Reply} {x' : World × Past} (hc : c ≠ .mainLoopTurn)
    (hact : (system.watched see).act t c r x = some x') : Untold t x' := by
  obtain ⟨-, rfl⟩ := watched_system_act.mp hact
  exact told_after hc

theorem keeps_of_plain {α : Type} {X : ∀ α : Type, Prog Sys α → Prop} {p : Prog Sys α}
    (hX : ∀ α p, X α p → contract.Keeps t (Untold t) p) (hp : p.Built (Plain t) X) :
    contract.Keeps t (Untold t) p :=
  keeps_of_built untold_rely
    (fun _ hc _ _ h => ⟨allowed_of_plain hc h, fun _ _ _ hact => untold_act hc.turn hact⟩) hX hp

theorem wp_plain {α β : Type} {p : Prog Sys α} {f : α → Prog Sys β} {Q : β → World × Past → Prop}
    (hp : p.Built (Plain t) Prog.noParts) (h : Untold t x)
    (hf : ∀ a x, Untold t x → contract.wp t (f a) Q (Untold t) x) :
    contract.wp t (p >>= f) Q (Untold t) x :=
  wp_bind_of (keeps_of_plain (fun _ _ h => h.elim) hp x h) fun a x _ h => hf a x h

theorem plain_of_modeCall (c : SysCall) (h : modeCall c = true) : Plain t c :=
  @plain_of modeCall rfl (fun _ => rfl) rfl t c h

/-- A start is under way in this thread. -/
def Starting (t : Tid) (x : World × Past) : Prop := t ∈ x.2.starting ∧ Untold t x

theorem starting_rely (x x' : World × Past) (hr : contract.rely t x x') (hi : contract.inv x')
    (h : Starting t x) : Starting t x' := ⟨hr.starting h.1, untold_rely x x' hr hi h.2⟩

/-- The flag is reset in a start whose loop thread has been started. -/
theorem keeps_startPipeline : contract.Keeps t (Untold t) startPipeline := by
  intro x h
  have hcall : ∀ {c : SysCall}, modeCall c = true → (sys c).Built (Plain t) Prog.noParts :=
    fun h => .call (plain_of_modeCall _ h)
  refine wp_plain (hcall rfl) h fun _ x h => wp_plain (hcall rfl) h fun _ x h => ?_
  refine wp_plain (hcall rfl) h fun _ x h => wp_plain (hcall rfl) h fun _ x h => ?_
  refine wp_plain (hcall rfl) h fun _ x h => ?_
  refine wp_call_of untold_rely h fun x _ h =>
    ⟨allowed_of_plain (plain_of_modeCall _ rfl) h, fun spawned x' _ hact => ?_⟩
  have huntold : Untold t x' := untold_act (by decide) hact
  have hret : ∀ {x : World × Past} {b : Bool}, Untold t x →
      contract.wp t (.ret b) (fun _ => Untold t) (Untold t) x :=
    fun h v hr hi => untold_rely _ v hr hi h
  cases spawned with
  | failed => exact fun v hr hi => untold_rely _ v hr hi huntold
  | threw => exact fun v hr hi => untold_rely _ v hr hi huntold
  | ok =>
  have hstarting : Starting t x' := by
    refine ⟨?_, huntold⟩
    rcases watched_act.mp hact with ⟨w, -, rfl⟩
    exact .head _
  show contract.wp t (sys (.setState .playing) >>= _) _ _ x'
  refine wp_call_of starting_rely hstarting fun x _ h =>
    ⟨allowed_of_plain (plain_of_modeCall _ rfl) h.2, fun playing x' _ hact => ?_⟩
  have huntold : Untold t x' := untold_act (by decide) hact
  cases playing with
  | false => exact wp_plain (built_shutdown plain_of_modeCall) huntold fun _ x h => hret h
  | true =>
  have hstarting : Starting t x' := by
    refine ⟨?_, huntold⟩
    rcases watched_act.mp hact with ⟨w, -, rfl⟩
    exact h.1
  -- the reset of `gstPipelineError_`, once the state change has succeeded
  refine wp_call_of starting_rely hstarting fun x _ h => ⟨⟨fun _ => h.1, fun _ => nofun, ?_⟩, ?_⟩
  · exact fun htold => Bool.noConfusion (h.2.symm.trans htold)
  · exact fun r x' _ hact => hret (untold_act (by decide) hact)

/-- The thread of a main loop records an ERROR message before it does anything else. -/
theorem keeps_gstThreadTurn {n : Nat} :
    contract.Keeps (.gst n) (Untold (.gst n)) gstThreadTurn := by
  have hplain : ∀ {c : SysCall}, gstCall c = true → c ≠ .mainLoopTurn → Plain (.gst n) c := by
    intro c h hc
    refine ⟨?_, ?_, hc⟩
    · rintro rfl
      cases h
    · rintro value rfl
      cases h
  have hquit : quitLoopIfRunning.Built (Plain (.gst n)) Prog.noParts :=
    .bind (.call (hplain rfl (by decide))) fun _ => .ite (.ret _) <|
      .bind (.call (hplain rfl (by decide))) fun _ => .when _ (.call (hplain rfl (by decide)))
  have hrest : ∀ {p : Prog Sys Bool} {x : World × Past}, p.Built (Plain (.gst n)) Prog.noParts →
      Untold (.gst n) x → contract.wp (.gst n) p (fun _ => Untold (.gst n)) (Untold (.gst n)) x :=
    fun hp h => keeps_of_plain (fun _ _ h => h.elim) hp _ h
  intro x h
  refine wp_call_of untold_rely h fun x _ h => ⟨⟨nofun, fun _ => nofun, ?_⟩, fun r x' _ hact => ?_⟩
  · exact fun htold => Bool.noConfusion (h.symm.trans htold)
  have htold : x'.2.told (.gst n) = getsError .mainLoopTurn r := by
    obtain ⟨-, rfl⟩ := watched_system_act.mp hact
    exact told_self
  cases r with
  | returned =>
    exact hrest (.bind (.call (hplain rfl (by decide))) fun _ =>
      .bind (.call (hplain rfl (by decide))) fun _ => .ret _) htold
  | message m =>
  cases m with
  | eos => exact hrest (.ret _) htold
  | other => exact hrest (.ret _) htold
  | error =>
    have hrecord : contract.wp (.gst n) (sys (.store .gstPipelineError_ true))
        (fun _ => Untold (.gst n)) (Untold (.gst n)) x' := by
      intro x hr _
      refine ⟨⟨nofun, fun _ => nofun, fun _ => rfl⟩, fun _ x' _ hact v hr hi => ?_⟩
      exact untold_rely x' v hr hi (untold_act (by decide) hact)
    refine wp_bind_of (wp_bind_of hrecord fun _ x _ h => ?_) fun _ x _ h => hrest (.ret _) h
    exact keeps_of_plain (fun _ _ h => h.elim) hquit x h

theorem keeps_gstBody {n : Nat} (pc : LoopPc) :
    contract.Keeps (.gst n) (Untold (.gst n)) (gstBody pc) := by
  cases pc with
  | begin =>
    have hplain : ∀ {c : SysCall}, threadCall (.gst n) c = true → Plain (.gst n) c :=
      fun h => @plain_of (threadCall (.gst n)) rfl (fun _ => rfl) rfl _ _ h
    have hbegin : gstThreadBegin.Built (Plain (.gst n)) Prog.noParts :=
      .bind (.call (hplain rfl)) fun _ => .bind (.call ⟨by decide, fun _ => nofun, by decide⟩)
        fun _ => .call ⟨by decide, fun _ => nofun, by decide⟩
    exact keeps_of_plain (X := Prog.noParts) (fun _ _ h => h.elim) (.bind hbegin fun _ => .ret _)
  | loop =>
    intro x h
    exact wp_bind_of (keeps_gstThreadTurn x h) fun _ x _ h v hr hi => untold_rely x v hr hi h

theorem keeps_body (ht : ∀ n, t ≠ .caller n) (pc : t.Pc) :
    contract.Keeps t (Untold t) ((code legacy).body t pc) := by
  by_cases hgst : ∃ n, t = .gst n
  · obtain ⟨n, rfl⟩ := hgst
    exact keeps_gstBody pc
  have hM : ∀ c, modeCall c = true → Plain t c := plain_of_modeCall
  have hA : ∀ c, acquireCall c = true → Plain t c := plain_of rfl (fun _ => rfl) rfl
  have hW : ∀ c, App.workerCall c = true → Plain t c :=
    plain_of rfl (fun value => by cases value <;> rfl) rfl
  have hT : ∀ c, threadCall t c = true → Plain t c := plain_of rfl (fun _ => rfl) rfl
  have hstore : ∀ {f : Flag} {value : Bool}, f ≠ .gstPipelineError_ → Plain t (.store f value) := by
    refine fun hf => ⟨fun hc => hf ?_, fun _ => nofun, nofun⟩
    cases hc
    rfl
  refine keeps_of_plain (X := Prog.onlyPart startPipeline) ?_
    (built_appBody hW hT ?_ (fun _ => built_photo hM) ?_ ?_
      (fun _ => plain_of rfl (fun _ => rfl) rfl) (fun n hn => absurd ⟨n, hn⟩ hgst) ht pc)
  · rintro α p ⟨rfl, rfl⟩
    exact keeps_startPipeline
  · exact fun _ => ⟨built_initializeCamera hA (hM _ rfl) (hM _ rfl) (hstore nofun),
      built_destroyed hM hA⟩
  · exact fun _ => ⟨hstore nofun, App.built_recoverCamera hW ⟨nofun, fun _ => nofun, nofun⟩
      ⟨nofun, fun _ => nofun, nofun⟩ (built_reinit hM hA fun _ => hstore nofun)⟩
  · rintro n rfl
    refine ⟨⟨nofun, fun value hc => ?_, nofun⟩, ⟨nofun, fun _ => nofun, nofun⟩, ?_, built_stop hM⟩
    · cases hc
      exact ⟨rfl, n, rfl⟩
    · exact App.built_hlsWorkerBegin hW (hT _ rfl) ⟨nofun, fun _ => nofun, nofun⟩ (hstore nofun)
        (built_start hM .self _ _ _)

end

def proof (legacy : Bool) : contract.Proof (code legacy) where
  holds t _ x := (∀ n, t ≠ .caller n) ∧ Untold t x
  body _ pc x _ h :=
    wp_mono (keeps_body h.1 pc x h.2) (fun _ _ _ huntold _ _ => ⟨h.1, huntold⟩) fun _ _ _ => trivial

def start : World × Past := (.init, ⟨fun _ => false, false, []⟩)

theorem untold_start {t : Tid} {x : World × Past} (hr : contract.rely t start x) : Untold t x := by
  refine hr.told.trans ?_
  cases t <;> rfl

theorem valid_start (legacy : Bool) : (proof legacy).Valid ⟨start, (appStart legacy).prog⟩ := by
  have hsound : Sound start := nofun
  apply valid_appStart _ hsound
  all_goals
    intros
    exact ⟨fun _ => nofun, untold_start (by assumption)⟩

end EncoderFailure

/-- In every run in which no pipeline has failed already when its start resets the flag: when the bus
has delivered an ERROR message and the loop's thread has gone on, the failure is seen in
`gstPipelineError_` until a worker takes it or video mode is stopped. -/
theorem App.encoder_failure_kept {legacy : Bool}
    {cfg : Config (code legacy) (World × EncoderFailure.Past)}
    (hrun : Run (system.watched EncoderFailure.see) (fun x l => EncoderFailure.late x l = true)
      ⟨EncoderFailure.start, (appStart legacy).prog⟩ cfg)
    (h : cfg.world.2.handled = true) : cfg.world.1.flag .gstPipelineError_ = true :=
  ((EncoderFailure.proof legacy).sound (EncoderFailure.valid_start legacy) hrun).inv h

/-- The replies when everything goes well, but the bus has an ERROR message. -/
def EncoderFailure.fails (x : World × Past) : (c : SysCall) → Option c.Reply
  | .mainLoopTurn => some (.message .error)
  | c => x.1.willing .takePicture c

/-- An HLS worker begins, and makes so many calls. -/
def EncoderFailure.session (n : Nat) : List (Choice Sys Tid (World × Past) Signal) :=
  runsWith fails .main 18 ++ runsWith fails .check 14 ++ runsWith fails (.hls 0) n

theorem App.encoder_failure_kept_in_session :
    ∃ cfg : Config (code false) (World × EncoderFailure.Past),
      cfg.world.2.handled = true ∧ cfg.world.1.flag .gstPipelineError_ = true := by
  obtain ⟨cfg, hrun, htest⟩ := exec_reaches (system.watched EncoderFailure.see)
    EncoderFailure.late ⟨EncoderFailure.start, (appStart false).prog⟩
    (EncoderFailure.session 60 ++ runsWith EncoderFailure.fails (.gst 1) 7)
    (fun cfg => cfg.world.2.handled) (by decide +kernel)
  exact ⟨cfg, htest, App.encoder_failure_kept hrun htest⟩

/-- An ERROR message is handled before the state change: the session polls, and the failure is
lost. -/
theorem App.encoder_failure_lost :
    ∃ cfg : Config (code false) (World × EncoderFailure.Past),
      Run (system.watched EncoderFailure.see) anyStep
        ⟨EncoderFailure.start, (appStart false).prog⟩ cfg ∧
      cfg.pending (.hls 0) = some (.pollAndUpload false) ∧ cfg.world.1.flag .isVideoMode_ = true ∧
        cfg.world.2.handled = true ∧ cfg.world.1.flag .gstPipelineError_ = false := by
  obtain ⟨cfg, hrun, htest⟩ := exec_reaches (system.watched EncoderFailure.see) (fun _ _ => true)
    ⟨EncoderFailure.start, (appStart false).prog⟩
    (EncoderFailure.session 37 ++ runsWith EncoderFailure.fails (.gst 1) 10 ++
      runsWith EncoderFailure.fails (.hls 0) 23)
    (fun cfg => cfg.pending (.hls 0) = some (.pollAndUpload false) ∧
      cfg.world.1.flag .isVideoMode_ = true ∧ cfg.world.2.handled = true ∧
        cfg.world.1.flag .gstPipelineError_ = false) (by decide +kernel)
  exact ⟨cfg, hrun.mono fun _ _ _ => trivial, of_decide_eq_true htest⟩

end SurfCam

import SurfCam.App.Encoders
import SurfCam.Upload.Found

/-!
# The files of a session

An HLS worker that polls finds nothing in the output directory but the files of its own encoder.
Between two sessions no encoder runs: a worker ends with its pipeline set to null and video mode
off, whoever of the worker and the snapshot has stopped it.
-/

namespace SurfCam

open Interaction CameraManager Contract Lifecycle

namespace OwnFiles

/-! ## Stopping the encoder -/

section

variable {t : Tid} {legacy : Bool} {l : List Fact} {licence : Licence} {x : World × OutputDir}
  {X : World × OutputDir → Prop}

/-- Without an encoder the pipeline may be given up. -/
theorem permitted_of_silent {value : Bool} (h : facts (.silent licence) t x) :
    Permitted t (.assign .pipeline_ value) x where
  plays he := by cases he
  turnsOn he := by cases value <;> exact absurd he (by decide)
  turnsOff _ he := by cases value <;> exact absurd he (by decide)
  assigns _ _ _ := h.2
  drops ht _ _ := by
    cases licence with
    | alive =>
      obtain ⟨⟨n, hn, -⟩, -⟩ := h
      cases ht.symm.trans hn
    | tearing => exact h.1.2
  ends _ _ he := by cases he
  polls _ _ _ he := by cases he

/-- The facts that do not need a pipeline. -/
abbrev Lasting (l : List Fact) : Prop := .piped ∉ l ∧ .fresh ∉ l

theorem not_breaks_of_lasting {f : Fact} {value : Bool} (hl : Lasting l)
    (hf : f ∈ .silent licence :: l) : .assign .pipeline_ value ∉ breaks f := by
  cases f with
  | may l => cases l <;> cases value <;> decide
  | silent l => cases l <;> cases value <;> decide
  | piped =>
    cases List.mem_cons.mp hf with
    | inl he => cases he
    | inr hf => exact absurd hf hl.1
  | fresh =>
    cases List.mem_cons.mp hf with
    | inl he => cases he
    | inr hf => exact absurd hf hl.2
  | _ => cases value <;> decide

/-- Code that gives the pipeline up keeps what does not need one. -/
theorem keeps_dropping {α : Type} {p : Prog Sys α} (hl : Lasting l)
    (hp : p.Built (fun c : SysCall => Quiet c ∨ ∃ value, c = .assign .pipeline_ value)
      Prog.noParts) :
    contract.Keeps t (facts.Known (.silent licence :: l) t) p := by
  refine keeps_of_built quiet.known (fun c hc x hi h => ?_) (fun _ _ h => h.elim) hp
  cases hc with
  | inl hquiet =>
    exact ⟨permitted_of_quiet hquiet, fun r y hok hact => h.kept (quiet.act hquiet hok hact)⟩
  | inr hassign =>
    obtain ⟨value, rfl⟩ := hassign
    refine ⟨permitted_of_silent (h _ (List.mem_cons_self ..)), fun r y hok hact => ?_⟩
    obtain ⟨hanswer, -, rfl⟩ := filed_act.mp hact
    exact known_next (hok _ _ _ rfl) hanswer (fun f hf => not_breaks_of_lasting hl hf) h

/-- A kind of calls of which only those on `pipeline_` matter here. -/
theorem quiet_or_assigns {calls : SysCall → Bool}
    (h : ∀ c ∈ strict, calls c = true → c = .assign .pipeline_ true ∨ c = .assign .pipeline_ false)
    (c : SysCall) (hc : calls c = true) : Quiet c ∨ ∃ value, c = .assign .pipeline_ value := by
  by_cases hquiet : Quiet c
  · exact .inl hquiet
  · exact .inr ((h c (not_not.mp hquiet) hc).elim (fun he => ⟨true, he⟩) fun he => ⟨false, he⟩)

/-- After `shutdownGstreamerPipeline` no encoder is running. -/
theorem wp_shutdown (hl : Lasting l) (h : facts.Known (.may licence :: l) t x) :
    contract.wp t shutdownGstreamerPipeline (fun _ => facts.Known (.silent licence :: l) t) X
      x := by
  refine wp_of_noThrow (X := fun _ => True) noThrow_shutdownGstreamerPipeline ?_
  refine quiet.wp (fun _ _ => trivial) h (.call (by decide)) fun _ x h => ?_
  refine wp_mono (X := facts.Known [] t) (quiet.wp_ensuring (K := fun _ => .silent licence :: l)
    (.call (by decide)) (.call _) ?_) (fun _ _ _ h => h) fun _ _ _ => trivial
  refine wp_look (by decide) h fun x pipeline hi hanswer _ _ h => ?_
  have hpipeline : pipeline = x.1.ptr .pipeline_ :=
    of_decide_eq_true (World.shared_of_answers hanswer)
  obtain ⟨hmay, hrest⟩ := Facts.known_cons.mp h
  have hencoder : ∀ k v, x.2.encoder k = some v → k = x.2.made ∧ pipeline = true := by
    intro k v hk
    rw [hpipeline]
    exact hi.last k v hk
  cases pipeline with
  | false =>
    -- an encoder would have a pipeline
    have hsilent : x.2.Silent := by
      intro k
      cases hk : x.2.encoder k with
      | none => rfl
      | some v => cases (hencoder k v hk).2
    have hfact : facts (.silent licence) t (next t (.isSet .pipeline_) false x) := ⟨hmay, hsilent⟩
    exact wp_ret (hrest.learn hfact) fun _ h => h
  | true =>
  -- no other pipeline than the last has an encoder
  refine wp_look (by decide) h fun x playing hi _ _ _ h => ?_
  obtain ⟨hmay, hrest⟩ := Facts.known_cons.mp h
  have hsilent : (x.2.after t (.setState .null)).Silent := by
    intro k
    show Function.update x.2.encoder x.2.made none k = none
    by_cases hk : k = x.2.made
    · rw [hk, Function.update_self]
    · rw [Function.update_of_ne hk]
      cases he : x.2.encoder k with
      | none => rfl
      | some v => exact absurd (hi.last k v he).1 hk
  have hfact : facts (.silent licence) t (next t (.setState .null) playing x) := ⟨hmay, hsilent⟩
  have h := hrest.learn hfact
  have hquit : quitLoopIfRunning.Built Quiet Prog.noParts :=
    .bind (.call (by decide)) fun _ => .ite (.ret _) <|
      .bind (.call (by decide)) fun _ => .when _ (.call (by decide))
  have hjoin : joinGstThread.Built Quiet Prog.noParts :=
    .bind (.call (by decide)) fun _ => .when _ (.call (by decide))
  refine quiet.wp (fun _ _ => Facts.known_nil) h hquit fun _ x h => ?_
  refine quiet.wp (fun _ _ => Facts.known_nil) h hjoin fun _ x h => ?_
  have hrelease := keeps_dropping hl (built_releasePipeline (quiet_or_assigns (by decide))) x h
  exact wp_mono hrelease (fun _ _ _ h => h) fun _ _ _ => Facts.known_nil

theorem built_slot : (disconnectVideoRequestSlot legacy).Built Quiet Prog.noParts :=
  built_dropSlot (not_mem_of (by decide))

theorem built_stopCamera : (stopCameraIfRunning legacy).Built Quiet Prog.noParts := by
  have hstop : cameraStop.Built Quiet Prog.noParts :=
    .bind (.call (by decide)) fun _ => .call (by decide)
  exact .bind (.call (by decide)) fun _ => .ite (.ret _) <| .ite hstop <|
    .bind (.call (by decide)) fun _ => .when _ hstop

theorem built_clear : clearRequests.Built Quiet Prog.noParts :=
  built_lockGuard (by decide) (by decide) (.call (by decide))

theorem built_reset : resetAllocator.Built Quiet Prog.noParts :=
  built_lockGuard (by decide) (by decide) (.call (by decide))

/-- A teardown stops the encoder. -/
theorem wp_teardown (hl : Lasting l) (h : facts.Known (.may licence :: l) t x) :
    contract.wp t (teardown legacy) (fun _ => facts.Known (.silent licence :: l) t) X x := by
  refine wp_of_noThrow (X := fun _ => True) noThrow_teardown ?_
  refine quiet.wp (fun _ _ => trivial) h built_slot fun _ x h => ?_
  refine quiet.wp (fun _ _ => trivial) h built_stopCamera fun _ x h => ?_
  refine wp_bind_of (Q := fun _ => facts.Known (.silent licence :: l) t) ?_ fun _ x _ h =>
    quiet.wp_end (fun _ _ => trivial) h built_reset
  refine quiet.wp (fun _ _ => trivial) h (.call (by decide)) fun _ x h => ?_
  refine wp_mono (X := facts.Known [] t) (quiet.wp_ensuring (K := fun _ => .silent licence :: l)
    (.call (by decide)) (.call _) ?_) (fun _ _ _ h => h) fun _ _ _ => trivial
  exact quiet.wp (fun _ _ => Facts.known_nil) h built_clear fun _ x h => wp_shutdown hl h

/-- A thread that has found video mode on may turn it off once the encoder is stopped. -/
theorem permitted_of_stopped (h : facts (.silent .tearing) t x) :
    Permitted t (.store .isVideoMode_ false) x where
  plays he := by cases he
  turnsOn he := absurd he (by decide)
  turnsOff _ _ := ⟨h.2, h.1.1⟩
  assigns _ _ he := by cases he
  drops _ _ he := by cases he
  ends _ _ he := by cases he
  polls _ _ _ he := by cases he

/-- What a thread knows before `stopVideoMode` and after it, whether it finds video mode off or has
turned it off. -/
structure Stops (t : Tid) (l l' : List Fact) : Prop where
  lasting : Lasting l
  found : ∀ x, facts.Known l t x → x.1.flag .isVideoMode_ = false → facts.Known l' t x
  stopped : ∀ x, Allowed t (.store .isVideoMode_ false) x.1 → facts.Known l t x → x.2.Silent →
    facts.Known l' t (next t (.store .isVideoMode_ false) () x)
  after : ∀ f ∈ l', .unlock .videoTeardownMutex_ ∉ breaks f

theorem wp_stopVideoMode {l' : List Fact} (hl : Stops t l l') (h : facts.Known l t x) :
    contract.wp t (stopVideoMode legacy) (fun _ => facts.Known l' t) X x := by
  refine wp_of_noThrow (X := fun _ => True) noThrow_stopVideoMode ?_
  refine wp_look (by decide) h fun x _ _ _ _ _ h => ?_
  have hholding : facts .holding t (next t (.lock .videoTeardownMutex_) () x) :=
    World.owner_after_lock
  have h := h.learn hholding
  have hunlock : ∀ y, facts.Known l' t y → contract.wp t (sys (.unlock .videoTeardownMutex_))
      (fun _ => facts.Known l' t) (fun _ => True) y := fun y h =>
    wp_step (f := .ret) h (fun _ _ _ => permitted_of_free (by decide)) fun _ _ _ h ha hanswer _ =>
      wp_ret (known_next ha hanswer hl.after h) fun _ h => h
  apply wp_ensuring_of
  refine wp_mono (Q := fun _ => facts.Known l' t) (X := fun _ => True) ?_
    (fun _ y _ h => hunlock y h) fun y _ _ => ?_
  swap
  · exact wp_of_built (.call (by decide)) fun c hc _ _ => permitted_of_free hc
  refine wp_look (by decide) h fun x on _ hanswer _ h hafter => ?_
  have hreply : on = x.1.flag .isVideoMode_ := of_decide_eq_true (World.shared_of_answers hanswer)
  cases on with
  | false =>
    -- another thread has been here before, or there is nothing to stop
    have hoff : (next t (.load .isVideoMode_) false x).1.flag .isVideoMode_ = false := hreply.symm
    obtain ⟨-, hbase⟩ := Facts.known_cons.mp hafter
    exact wp_ret (hl.found _ hbase hoff) fun _ h => h
  | true =>
  have htearing : facts (.may .tearing) t (next t (.load .isVideoMode_) true x) :=
    ⟨hafter .holding (List.mem_cons_self ..), hreply.symm⟩
  have h := (Facts.known_cons.mp hafter).2.learn htearing
  -- the handler is not reached
  refine wp_tryCatch.mpr (wp_of_noThrow (X := fun _ => True) ?_ ?_)
  · exact .bind (.call _) fun _ => .bind (.call _) fun _ => .bind noThrow_teardown fun _ =>
      .bind (.call _) fun _ => .bind (.call _) fun _ => trivial
  refine quiet.wp (fun _ _ => trivial) h (.call (by decide)) fun _ x h => ?_
  refine quiet.wp (fun _ _ => trivial) h (.call (by decide)) fun _ x h => ?_
  refine wp_bind_of (wp_teardown hl.lasting h) fun _ x _ h => ?_
  refine quiet.wp (fun _ _ => trivial) h (.call (by decide)) fun _ x h => ?_
  refine wp_step h (fun _ _ h => permitted_of_stopped (h _ (List.mem_cons_self ..)))
    fun x _ _ h ha _ _ => ?_
  obtain ⟨hstopped, hbase⟩ := Facts.known_cons.mp h
  exact wp_ret (hl.stopped x ha hbase hstopped.2) fun _ h => h

/-- The rollback of a start stops the encoder, too. -/
theorem wp_rollback (hl : Lasting l) (hunlock : ∀ f ∈ l, .unlock .videoTeardownMutex_ ∉ breaks f)
    (h : facts.Known (.may .alive :: l) t x) :
    contract.wp t (rollbackFailedVideoStart legacy)
      (fun _ => facts.Known (.silent .alive :: l) t) X x := by
  refine wp_of_noThrow (X := fun _ => True) noThrow_rollbackFailedVideoStart ?_
  refine quiet.wp (fun _ _ => trivial) h (.call (by decide)) fun _ x h => ?_
  -- the mutex is given back at the end of the scope
  have hgive : ∀ y, facts.Known (.silent .alive :: l) t y →
      contract.wp t (sys (.unlock .videoTeardownMutex_))
        (fun _ => facts.Known (.silent .alive :: l) t) (fun _ => True) y := by
    refine fun y h => wp_step (f := .ret) h (fun _ _ _ => permitted_of_free (by decide))
      fun _ _ _ h ha hanswer _ => wp_ret (known_next ha hanswer (fun f hf => ?_) h) fun _ h => h
    cases List.mem_cons.mp hf with
    | inl he =>
      rw [he]
      decide
    | inr hf => exact hunlock f hf
  apply wp_ensuring_of
  refine wp_mono (Q := fun _ => facts.Known (.silent .alive :: l) t) (X := fun _ => True) ?_
    (fun _ y _ h => hgive y h) fun y _ _ => ?_
  swap
  · exact wp_of_built (.call (by decide)) fun c hc _ _ => permitted_of_free hc
  refine quiet.wp (fun _ _ => trivial) h built_slot fun _ x h => ?_
  refine quiet.wp (fun _ _ => trivial) h built_stopCamera fun _ x h => ?_
  refine quiet.wp (fun _ _ => trivial) h built_clear fun _ x h => ?_
  refine wp_bind_of (wp_shutdown hl h) fun _ x _ h => ?_
  refine quiet.wp (fun _ _ => trivial) h built_reset fun _ x h => ?_
  exact quiet.wp_end (fun _ _ => trivial) h (.bind (.call (by decide)) fun _ => .call (by decide))

end

/-! ## startVideoMode -/

/-- What the HLS worker knows while no encoder of its session is running. -/
def still : List Fact := [.silent .alive, .own, .off]

/-- What it knows while one may be. -/
def live : List Fact := [.may .alive, .own, .off]

/-- What it knows after a part of the start, by the part's result. -/
def begun (result : Bool) : List Fact := if result then live else still

/-- What it knows after the start. -/
def shown (result : Bool) : List Fact := if result then [.covered, .own] else still

section

variable {t : Tid} {legacy : Bool} {x : World × OutputDir} {width height fps : Nat}

theorem live_of_still (h : facts.Known still t x) : facts.Known live t x := by
  have hsilent : facts (.silent .alive) t x := h _ (List.mem_cons_self ..)
  have hrest : facts.Known [.own, .off] t x := h.mono (by decide)
  have halive : facts (.may .alive) t x := hsilent.1
  exact hrest.learn halive

theorem live_of_piped (h : facts.Known (.piped :: still) t x) : facts.Known live t x :=
  live_of_still (h.mono (by decide))

/-- The HLS worker starts the encoder, with video mode off. -/
theorem permitted_of_piped (h : facts .piped t x) : Permitted t (.setState .playing) x where
  plays _ := by
    obtain ⟨⟨n, ht, -⟩, hoff, hptr⟩ := h
    exact ⟨⟨n, ht⟩, hoff, hptr⟩
  turnsOn he := absurd he (by decide)
  turnsOff _ he := absurd he (by decide)
  assigns _ _ he := by cases he
  drops _ _ he := by cases he
  ends _ _ he := by cases he
  polls _ _ _ he := by cases he

theorem wp_startPipeline (h : facts.Known (.piped :: still) t x) :
    contract.wp t startPipeline (fun b => facts.Known (begun b) t) (facts.Known live t) x := by
  have hX : ∀ x, facts.Known (.piped :: still) t x → facts.Known live t x :=
    fun _ h => live_of_piped h
  refine quiet.wp hX h (.call (by decide)) fun _ x h => ?_
  refine quiet.wp hX h (.call (by decide)) fun _ x h => ?_
  refine quiet.wp hX h (.call (by decide)) fun _ x h => ?_
  refine quiet.wp hX h (.call (by decide)) fun _ x h => ?_
  refine quiet.wp hX h (.call (by decide)) fun _ x h => ?_
  refine quiet.wp hX h (.call (by decide)) fun spawned x h => ?_
  refine quiet.wp hX h (built_orThrow spawned) fun _ x h => ?_
  refine wp_step h (fun x _ h => permitted_of_piped (h _ (List.mem_cons_self ..)))
    fun x playing _ h ha hanswer _ => ?_
  have h : facts.Known live t (next t (.setState .playing) playing x) :=
    known_next ha hanswer (by decide) (live_of_piped h)
  cases playing with
  | false =>
    -- the encoder may run even where the state change is said to have failed
    exact wp_bind_of (wp_shutdown (by decide) h) fun _ x _ h => wp_ret h fun _ h => h
  | true =>
    refine quiet.wp (fun _ h => h) h (.call (by decide)) fun _ x h => ?_
    exact wp_ret h fun _ h => h

theorem wp_linkAndStart (h : facts.Known (.piped :: still) t x) :
    contract.wp t (linkAndStart width height fps) (fun b => facts.Known (begun b) t)
      (facts.Known live t) x := by
  have hX : ∀ x, facts.Known (.piped :: still) t x → facts.Known live t x :=
    fun _ h => live_of_piped h
  refine quiet.wp hX h (.call (by decide)) fun _ x h => ?_
  refine quiet.wp hX h (.call (by decide)) fun linked x h => ?_
  cases linked with
  | false =>
    exact wp_bind_of (wp_shutdown (by decide) (live_of_piped h)) fun _ x _ h =>
      wp_ret h fun _ h => h
  | true =>
    have hset : Quiet (.setProperties width height fps) := by
      simp [Quiet, strict, guarded, session, starting, stopping, setsMode]
    refine quiet.wp hX h (.call hset) fun set x h => ?_
    exact quiet.wp hX h (built_orThrow set) fun _ x h => wp_startPipeline h

/-- An exit that gives the pipeline up. -/
theorem wp_drop {p : Prog Sys Bool} (hends : p.Ends (· = false))
    (hp : p.Built (fun c : SysCall => Quiet c ∨ ∃ value, c = .assign .pipeline_ value)
      Prog.noParts) (h : facts.Known (.piped :: still) t x) :
    contract.wp t p (fun b => facts.Known (begun b) t) (facts.Known live t) x := by
  have hstill : facts.Known still t x := h.mono (by decide)
  refine wp_mono (wp_of_ends hends (keeps_dropping (by decide) hp x hstill)) (fun b x _ h => ?_)
    fun x _ h => live_of_still h
  rw [h.1]
  exact h.2

theorem wp_buildPipeline (h : facts.Known still t x) :
    contract.wp t (buildPipeline width height fps) (fun b => facts.Known (begun b) t)
      (facts.Known live t) x := by
  have hX : ∀ x, facts.Known (.piped :: still) t x → facts.Known live t x :=
    fun _ h => live_of_piped h
  have hD : ∀ c, dropCall c = true → Quiet c ∨ ∃ value, c = .assign .pipeline_ value :=
    quiet_or_assigns (by decide)
  refine quiet.wp (fun _ h => live_of_still h) h (.call (by decide)) fun made x h => ?_
  refine wp_step h (fun x _ h => permitted_of_silent (h _ (List.mem_cons_self ..)))
    fun x _ _ h ha hanswer _ => ?_
  have h : facts.Known still t (next t (.assign .pipeline_ made) () x) :=
    known_next ha hanswer (fun f hf => not_breaks_of_lasting (by decide) hf) h
  refine wp_look (by decide) h fun x pipeline _ hanswer _ _ h => ?_
  have hreply : pipeline = x.1.ptr .pipeline_ :=
    of_decide_eq_true (World.shared_of_answers hanswer)
  cases pipeline with
  | false => exact wp_ret h fun _ h => h
  | true =>
  have hoff : facts .off t (next t (.isSet .pipeline_) true x) := h _ (by decide)
  have hpiped : facts .piped t (next t (.isSet .pipeline_) true x) :=
    ⟨hoff.1, hoff.2, hreply.symm⟩
  have h := h.learn hpiped
  refine quiet.wp hX h (.call (by decide)) fun appsrc x h => ?_
  refine quiet.wp hX h (.call (by cases appsrc <;> decide)) fun _ x h => ?_
  refine quiet.wp hX h (.call (by decide)) fun convert x h => ?_
  have hencoder : makeEncoder.Built Quiet Prog.noParts :=
    .bind (.call (by decide)) fun _ => .ite (.ret _) <|
      .bind (.call (by decide)) fun _ => .ite (.ret _) (.call (by decide))
  have hhlssink : makeHlssink.Built Quiet Prog.noParts :=
    .bind (.call (by decide)) fun made => .bind (.call (by cases made <;> decide)) fun _ =>
      .bind (.call (by decide)) fun _ => .when _ <|
        .bind (.call (by decide)) fun made => .call (by cases made <;> decide)
  refine quiet.wp hX h hencoder fun h264enc x h => ?_
  cases h264enc with
  | false => exact wp_drop (ends_dropWithoutEncoder _) (built_dropWithoutEncoder hD convert) h
  | true =>
  refine quiet.wp hX h (.call (by decide)) fun h264parse x h => ?_
  refine quiet.wp hX h (.call (by decide)) fun queue x h => ?_
  refine quiet.wp hX h hhlssink fun _ x h => ?_
  refine quiet.wp hX h (.call (by decide)) fun appsrc x h => ?_
  refine quiet.wp hX h (.call (by decide)) fun hlssink x h => ?_
  split
  · exact wp_drop (ends_dropElements convert true h264parse queue) (built_dropElements hD ..) h
  · exact wp_linkAndStart h

/-- The pipeline is started, or no encoder is running. -/
theorem wp_initializeGstreamerPipeline (h : facts.Known still t x) :
    contract.wp t (initializeGstreamerPipeline width height fps) (fun b => facts.Known (begun b) t)
      (facts.Known live t) x := by
  refine wp_tryCatch.mpr (wp_mono (X := facts.Known live t) ?_ (fun _ _ _ h => h)
    fun x _ h => wp_bind_of (wp_shutdown (by decide) h) fun _ x _ h => wp_ret h fun _ h => h)
  have hX : ∀ x, facts.Known still t x → facts.Known live t x := fun _ h => live_of_still h
  refine quiet.wp hX h (.call (by decide)) fun made x h => ?_
  exact quiet.wp hX h (built_orThrow made) fun _ x h => wp_buildPipeline h

/-- A rollback ends a start. -/
theorem wp_rollbackUnlocked {K : Bool → List Fact} (hK : K false = still)
    (h : facts.Known live t x) :
    contract.wp t (rollbackUnlocked legacy) (fun b => facts.Known (K b) t) (facts.Known live t)
      x := by
  refine quiet.wp (fun _ h => h) h (.call (by decide)) fun _ x h => ?_
  refine wp_bind_of (Q := fun _ => facts.Known still t) ?_ fun _ x _ h => ?_
  · have hrollback : contract.wp t (rollbackFailedVideoStart legacy)
        (fun _ => facts.Known still t) (facts.Known live t) x :=
      wp_rollback (by decide) (by decide) h
    exact quiet.wp_ensuring (K := fun _ => still) (.call (by decide)) (.call _) hrollback
  · exact wp_ret h fun _ h => hK ▸ h

/-- A buffer is queued, or the start is rolled back. -/
theorem wp_queueBuffer (h : facts.Known live t x) :
    contract.wp t (queueBuffer legacy) (fun b => facts.Known (begun b) t) (facts.Known live t)
      x := by
  have hR : ∀ c, requestCall c = true → Quiet c := not_mem_of (by decide)
  refine quiet.wp (fun _ h => h) h (.call (by decide)) fun reply x h => ?_
  cases reply with
  | null => exact wp_rollbackUnlocked rfl h
  | threw => exact fun y hr hi => quiet.known x y hr hi h
  | request request =>
  apply quiet.wp_ensuring (K := begun) (.call (hR _ rfl)) (.call _)
  refine quiet.wp (fun _ h => h) h (.call (hR _ rfl)) fun added x h => ?_
  refine quiet.wp (fun _ h => h) h (built_check added) fun ok x h => ?_
  cases ok with
  | false => exact wp_rollbackUnlocked rfl h
  | true =>
  refine quiet.wp (fun _ h => h) h (.call (hR _ rfl)) fun queued x h => ?_
  refine quiet.wp (fun _ h => h) h (built_check queued) fun ok x h => ?_
  cases ok with
  | false => exact wp_rollbackUnlocked rfl h
  | true =>
  have hkeep : (keepRequest request).Built Quiet Prog.noParts :=
    built_lockGuard (by decide) (by decide)
      (.bind (.call (hR _ rfl)) fun _ => built_orThrow _)
  exact quiet.wp (fun _ h => h) h hkeep fun _ x h => wp_ret h fun _ h => h

theorem wp_queueBuffers (videoBuffers : List Bool) (h : facts.Known live t x) :
    contract.wp t (queueBuffers legacy videoBuffers) (fun b => facts.Known (begun b) t)
      (facts.Known live t) x := by
  induction videoBuffers generalizing x with
  | nil => exact wp_ret h fun _ h => h
  | cons bufferHolder rest ih =>
    cases bufferHolder with
    | false => exact ih h
    | true =>
      refine wp_bind_of (wp_queueBuffer h) fun queued x _ h => ?_
      cases queued with
      | false => exact wp_ret h fun _ h => h
      | true => exact ih h

/-- The HLS worker turns video mode on. -/
theorem permitted_of_live (h : facts.Known live t x) :
    Permitted t (.store .isVideoMode_ true) x where
  plays he := by cases he
  turnsOn _ := by
    have halive : facts (.may .alive) t x := h _ (List.mem_cons_self ..)
    obtain ⟨n, ht, -⟩ := halive
    exact ⟨n, ht⟩
  turnsOff _ he := absurd he (by decide)
  assigns _ _ he := by cases he
  drops _ _ he := by cases he
  ends _ _ he := by cases he
  polls _ _ _ he := by cases he

theorem wp_startStreams {streams : Nat} (h : facts.Known still t x) :
    contract.wp t (startStreams legacy streams width height fps) (fun b => facts.Known (shown b) t)
      (facts.Known live t) x := by
  have hX : ∀ x, facts.Known still t x → facts.Known live t x := fun _ h => live_of_still h
  refine quiet.wp hX h (.call (by decide)) fun made x h => ?_
  refine quiet.wp hX h (built_orThrow made) fun _ x h => ?_
  refine quiet.wp hX h (.call (by decide)) fun _ x h => ?_
  have hallocate : (allocateStreams streams).Built Quiet Prog.noParts :=
    built_allocateStreams built_reset (by decide) streams
  refine quiet.wp hX h hallocate fun allocated x h => ?_
  cases allocated with
  | false => exact wp_ret h fun _ h => h
  | true =>
  refine wp_bind_of (wp_initializeGstreamerPipeline h) fun pipeline x _ h => ?_
  cases pipeline with
  | false => exact wp_rollbackUnlocked rfl (live_of_still h)
  | true =>
  change facts.Known live t x at h
  refine quiet.wp (fun _ h => h) h built_slot fun _ x h => ?_
  refine quiet.wp (fun _ h => h) h (.call (by decide)) fun connected x h => ?_
  refine quiet.wp (fun _ h => h) h (built_orThrow connected) fun _ x h => ?_
  refine quiet.wp (fun _ h => h) h (.call (by decide)) fun _ x h => ?_
  refine quiet.wp (fun _ h => h) h (.call (by decide)) fun started x h => ?_
  refine quiet.wp (fun _ h => h) h (built_check started) fun ok x h => ?_
  cases ok with
  | false => exact wp_rollbackUnlocked rfl h
  | true =>
  refine quiet.wp (fun _ h => h) h (.call (by decide)) fun buffers x h => ?_
  cases buffers with
  | none => exact fun y hr hi => quiet.known x y hr hi h
  | some videoBuffers =>
  refine wp_bind_of (wp_queueBuffers videoBuffers h) fun queued x _ h => ?_
  cases queued with
  | false => exact wp_ret h fun _ h => h
  | true =>
  change facts.Known live t x at h
  refine wp_step h (fun _ _ h => permitted_of_live h) fun x _ _ h ha hanswer _ => ?_
  have hbase : facts.Known [.may .alive, .own] t (next t (.store .isVideoMode_ true) () x) :=
    known_next ha hanswer (by decide) (h.mono (by decide))
  have hon : (next t (.store .isVideoMode_ true) () x).1.flag .isVideoMode_ = true := by
    show Function.update x.1.flag .isVideoMode_ true .isVideoMode_ = true
    rw [Function.update_self]
  have halive : facts (.may .alive) t (next t (.store .isVideoMode_ true) () x) :=
    hbase _ (List.mem_cons_self ..)
  have hcovered : facts .covered t (next t (.store .isVideoMode_ true) () x) :=
    ⟨halive, .inr hon⟩
  have h := hbase.learn hcovered
  -- nothing is thrown any more
  refine wp_of_noThrow (X := fun _ => True) ?_ ?_
  · exact .bind (.call _) fun _ => .bind (.call _) fun _ => trivial
  refine quiet.wp (fun _ _ => trivial) h (.call (by decide)) fun _ x h => ?_
  refine quiet.wp (fun _ _ => trivial) h (.call (by decide)) fun _ x h => ?_
  have h : facts.Known (shown true) t x := h.mono (by decide)
  exact wp_ret h fun _ h => h

theorem wp_configureVideo (h : facts.Known still t x) :
    contract.wp t (configureVideo legacy width height fps) (fun b => facts.Known (shown b) t)
      (facts.Known live t) x := by
  have hX : ∀ x, facts.Known still t x → facts.Known live t x := fun _ h => live_of_still h
  refine quiet.wp hX h (.call (by decide)) fun configuration x h => ?_
  cases configuration with
  | threw => exact fun y hr hi => hX y (quiet.known x y hr hi h)
  | null =>
    refine quiet.wp hX h (.call (by decide)) fun _ x h => ?_
    exact quiet.wp hX h (.call (by decide)) fun r => by cases r
  | streams streams =>
    cases streams with
    | zero =>
      refine quiet.wp hX h (.call (by decide)) fun _ x h => ?_
      exact quiet.wp hX h (.call (by decide)) fun r => by cases r
    | succ streams =>
      refine quiet.wp hX h (.call (by decide)) fun _ x h => ?_
      have hconfigure : Quiet (.configure ⟨width, height, .RGB888, 4⟩) := by
        simp [Quiet, strict, guarded, session, starting, stopping, setsMode]
      refine quiet.wp hX h (.call hconfigure) fun set x h => ?_
      refine quiet.wp hX h (built_check set) fun ok x h => ?_
      cases ok with
      | false => exact wp_ret h fun _ h => h
      | true => exact wp_startStreams h

/-- The HLS worker has not turned video mode on yet. -/
theorem wp_leaveVideoMode {f : Bool → Prog Sys Bool} {Q : Bool → World × OutputDir → Prop}
    {X : World × OutputDir → Prop} (h : facts.Known still t x)
    (hf : ∀ x, facts.Known still t x → contract.wp t (f true) Q X x) :
    contract.wp t (leaveVideoMode legacy >>= f) Q X x := by
  refine wp_look (by decide) h fun x on _ hanswer _ hbefore h => ?_
  have hreply : on = x.1.flag .isVideoMode_ := of_decide_eq_true (World.shared_of_answers hanswer)
  have hoff : facts .off t x := hbefore _ (by decide)
  -- so that `stopVideoModeUnlocked` is not reached
  rw [hoff.2] at hreply
  subst hreply
  exact hf _ h

/-- What the HLS worker knows after the start, by its result. -/
theorem wp_startVideoMode (h : facts.Known still t x) :
    contract.wp t (startVideoMode legacy width height fps) (fun b => facts.Known (shown b) t)
      (facts.Known live t) x := by
  have hX : ∀ x, facts.Known still t x → facts.Known live t x := fun _ h => live_of_still h
  refine quiet.wp hX h (.call (by decide)) fun _ x h => ?_
  refine quiet.wp_ensuring (K := shown) (.call (by decide)) (.call _) ?_
  refine quiet.wp hX h (built_cameraReady (by decide) (by decide)) fun ready x h => ?_
  cases ready with
  | false => exact wp_ret h fun _ h => h
  | true =>
  refine wp_tryCatch.mpr (wp_mono (X := facts.Known live t) ?_ (fun _ _ _ h => h)
    fun x _ h => wp_rollbackUnlocked rfl h)
  exact wp_leaveVideoMode h fun x h => wp_configureVideo h

end

/-! ## The worker -/

section

variable {t : Tid} {n : Nat} {legacy : Bool} {l : List Fact} {x : World × OutputDir}
  {X : World × OutputDir → Prop}

/-- A worker that has stopped its encoder ends. -/
theorem wp_hlsWorkerEnd (hsilent : .silent .alive ∈ l) (hoff : .off ∈ l)
    (h : facts.Known l t x) :
    contract.wp t App.hlsWorkerEnd (fun _ _ => True) (fun _ => True) x := by
  refine quiet.wp (fun _ _ => trivial) h (.call (by decide)) fun _ x h => ?_
  refine wp_step (f := .ret) h (fun x _ h => ?_) fun _ _ _ _ _ _ _ _ _ _ => trivial
  have hends : x.2.Silent ∧ x.1.flag .isVideoMode_ = false := ⟨(h _ hsilent).2, (h _ hoff).2⟩
  exact permitted_of (by decide) (fun _ => by decide) (fun _ _ _ => hends) fun _ _ _ he => by
    cases he

/-- A worker that polls finds its own files only. -/
theorem keeps_polling {α : Type} {p : Prog Sys α} (hl : ∀ f ∈ l, breaks f ⊆ session)
    (hown : .own ∈ l) (hp : p.Built (fun c : SysCall => c ∉ session) Prog.noParts) :
    contract.Keeps t (facts.Known l t) p := by
  refine keeps_of_built quiet.known (fun c hc x _ h => ?_) (fun _ _ h => h.elim) hp
  have hmem : ∀ {l' : List SysCall}, l' ⊆ session → c ∉ l' := fun hl hc' => hc (hl hc')
  have hne : c ≠ .threadEnd := fun he => hc (he ▸ List.mem_cons_self ..)
  refine ⟨permitted_of (hmem (by decide)) (fun _ => hmem (by decide))
    (fun _ _ he => absurd he hne) fun _ _ _ _ => (h _ hown).2, fun r y hok hact => ?_⟩
  obtain ⟨hanswer, -, rfl⟩ := filed_act.mp hact
  exact known_next (hok _ _ _ rfl) hanswer (fun f hf => hmem (hl f hf)) h

/-- What is left once the loop is left: the encoder and video mode are off. -/
theorem stops_worker : Stops (.hls n) [.covered, .own] [.silent .alive, .own, .off] where
  lasting := by decide
  found x h hoff := by
    obtain ⟨halive, hcovered⟩ := h .covered (by decide)
    have hown : facts .own (.hls n) x := h _ (by decide)
    -- the snapshot has turned video mode off, and had stopped the encoder before
    have hsilent : x.2.Silent := hcovered.resolve_right fun hon => by
      rw [hoff] at hon
      cases hon
    have hfacts : facts.Known [.off] (.hls n) x := Facts.known_nil.learn ⟨halive, hoff⟩
    exact (hfacts.learn hown).learn ⟨halive, hsilent⟩
  stopped x ha h hsilent := by
    let c : SysCall := .store .isVideoMode_ false
    have halive : Licence.alive.Holds (.hls n) (x.1.after (.hls n) c ()) :=
      alive_of_own (by decide) (h .covered (by decide)).1
    have hown : facts .own (.hls n) (next (.hls n) c () x) :=
      kept_own ha rfl (by decide) (h _ (by decide))
    have hoff : (x.1.after (.hls n) c ()).flag .isVideoMode_ = false := by
      show Function.update x.1.flag .isVideoMode_ false .isVideoMode_ = false
      rw [Function.update_self]
    have hfacts : facts.Known [.off] (.hls n) (next (.hls n) c () x) :=
      Facts.known_nil.learn ⟨halive, hoff⟩
    exact (hfacts.learn hown).learn ⟨halive, hsilent⟩
  after := by decide

theorem polling_of_workerCall : ∀ c, App.workerCall c = true → c ∉ session :=
  not_mem_of (by decide)

/-- After the loop the encoder is stopped, and what is left to upload is the worker's own. -/
theorem wp_hlsWorkerFinish (h : facts.Known [.covered, .own] (.hls n) x) :
    contract.wp (.hls n) (App.hlsWorkerFinish legacy) (fun _ _ => True) (fun _ => True) x := by
  refine wp_bind_of (wp_stopVideoMode stops_worker h) fun _ x _ h => ?_
  have hdrain : ((App.drain 8).tryCatch (return ())).Built (fun c : SysCall => c ∉ session)
      Prog.noParts :=
    .tryCatch (App.built_drain polling_of_workerCall 8) (.ret _)
  have hkept := keeps_polling (by decide) (by decide) hdrain x h
  refine wp_bind_of (wp_mono hkept (fun _ _ _ h => h) fun _ _ _ => trivial) fun _ x _ h => ?_
  exact wp_hlsWorkerEnd (by decide) (by decide) h

/-- A new worker finds no encoder; the files that it finds are those that it removes. -/
theorem wp_threadBegin {β : Type} {f : Unit → Prog Sys β} {Q : β → World × OutputDir → Prop}
    (h : facts.Known [.fresh] (.hls n) x)
    (hf : ∀ x, facts.Known [.silent .alive, .sorted, .off] (.hls n) x →
      contract.wp (.hls n) (f ()) Q X x) :
    contract.wp (.hls n) (sys .threadBegin >>= f) Q X x := by
  refine wp_step h (fun x _ _ => ?_) fun x _ _ h _ hanswer _ => hf _ ?_
  · exact permitted_of (by decide) (fun _ => by decide) (fun _ _ he => by cases he)
      fun _ _ _ he => by cases he
  obtain ⟨m, hm, hfinished, hquiet⟩ := h .fresh (by decide)
  cases hm
  have hstarted : x.1.threads.started (.hls n) = true := World.threads_of_answers hanswer
  obtain ⟨hsilent, hoff⟩ := hquiet hstarted
  have halive : Licence.alive.Holds (.hls n) x.1 := ⟨n, rfl, hstarted, hfinished⟩
  have hsorted : ∀ f ∈ (x.2.after (.hls n) .threadBegin).files,
      f.found = true ∨ f.writer = some (.hls n) := by
    intro f hmem
    obtain ⟨g, -, rfl⟩ := List.mem_map.mp hmem
    exact .inl rfl
  have hfacts : facts.Known [.off] (.hls n) (next (.hls n) .threadBegin () x) :=
    Facts.known_nil.learn ⟨halive, hoff⟩
  have hfacts : facts.Known [.sorted, .off] (.hls n) (next (.hls n) .threadBegin () x) :=
    hfacts.learn ⟨halive, hsorted⟩
  exact hfacts.learn ⟨halive, hsilent⟩

/-- A worker comes to its loop with its own files only. -/
theorem wp_hlsWorkerBegin (h : facts.Known [.fresh] (.hls n) x) :
    contract.wp (.hls n) (App.hlsWorkerBegin legacy)
      (fun b x => b = true → facts.Known [.covered, .own] (.hls n) x) (fun _ => True) x := by
  have hend : ∀ {l : List Fact} x, .silent .alive ∈ l → .off ∈ l → facts.Known l (.hls n) x →
      contract.wp (.hls n) (App.hlsWorkerEnd >>= fun _ => .ret false)
        (fun b x => b = true → facts.Known [.covered, .own] (.hls n) x) (fun _ => True) x :=
    fun x hsilent hoff h => wp_bind_of (wp_hlsWorkerEnd hsilent hoff h) fun _ _ _ _ _ _ _ hb => by
      cases hb
  refine wp_threadBegin h fun x h => ?_
  refine wp_look (by decide) h fun x cleaned _ _ hdir hbefore h => ?_
  cases cleaned with
  -- a cleanup that fails midway may leave files, but the worker ends before its first poll
  | failed => exact hend _ (by decide) (by decide) h
  | threw => exact hend _ (by decide) (by decide) h
  | ok =>
  -- what was found is gone
  have hown : facts .own (.hls n) (next (.hls n) .cleanHlsDirectory .ok x) := by
    obtain ⟨halive, hsorted⟩ := h .sorted (by decide)
    refine ⟨halive, fun f hf => (hsorted f hf).resolve_left fun hfound => ?_⟩
    have hgone := List.all_eq_true.mp hdir f hf
    rw [hfound] at hgone
    cases hgone
  have hrest : facts.Known [.silent .alive, .off] (.hls n)
      (next (.hls n) .cleanHlsDirectory .ok x) := h.mono (by decide)
  have h : facts.Known still (.hls n) (next (.hls n) .cleanHlsDirectory .ok x) :=
    (hrest.learn hown).mono (by decide)
  refine wp_bind_of (wp_mono (wp_startVideoMode h) (fun _ _ _ h => h) fun _ _ _ => trivial)
    fun on x _ h => ?_
  cases on with
  | true => exact fun y hr hi _ => quiet.known x y hr hi h
  | false =>
    change facts.Known still (.hls n) x at h
    refine quiet.wp (fun _ _ => trivial) h (.call (by decide)) fun _ x h => ?_
    exact hend _ (by decide) (by decide) h

/-- What a worker knows at its control points. -/
def known : LoopPc → List Fact
  | .begin => [.fresh]
  | .loop => [.covered, .own]

theorem wp_hlsBody {pc : LoopPc} (h : facts.Known (known pc) (.hls n) x) :
    contract.wp (.hls n) (hlsBody legacy pc)
      (fun next x => ∀ pc' : LoopPc, next = some pc' → facts.Known (known pc') (.hls n) x)
      (fun _ => True) x := by
  cases pc with
  | begin =>
    refine wp_bind_of (wp_hlsWorkerBegin h) fun on x _ h => ?_
    cases on with
    | false => exact fun _ _ _ _ hpc => by cases hpc
    | true =>
      refine wp_ret (l := known .loop) (h rfl) fun x h pc' hpc => ?_
      cases hpc
      exact h
  | loop =>
    have hturn : App.hlsLoopTurn.Built (fun c : SysCall => c ∉ session) Prog.noParts :=
      App.built_hlsLoopTurn polling_of_workerCall (by decide) (by decide)
    have hkept := keeps_polling (by decide) (by decide) hturn x h
    refine wp_bind_of (wp_mono hkept (fun _ _ _ h => h) fun _ _ _ => trivial) fun more x _ h => ?_
    cases more with
    | false => exact wp_bind_of (wp_hlsWorkerFinish h) fun _ _ _ _ _ _ _ _ hpc => by cases hpc
    | true =>
      refine wp_ret (l := known .loop) h fun x h pc' hpc => ?_
      cases hpc
      exact h

end

/-! ## The other threads -/

/-- The calls of the other threads.  The snapshot's turn video mode off and give the pipeline up in
`stopVideoMode` only. -/
def Other (t : Tid) (c : SysCall) : Prop := c ∉ starting ∧ (t = .snapshot → c ∉ stopping)

section

variable {legacy : Bool} {t : Tid}

/-- The snapshot may stop video mode at any time. -/
theorem keeps_stopVideoMode :
    contract.Keeps .snapshot (facts.Known [] .snapshot) (stopVideoMode legacy) := by
  refine fun x h => wp_stopVideoMode ⟨by decide, fun _ h _ => h, fun _ _ _ _ => ?_, by decide⟩ h
  exact Facts.known_nil

/-- The part of the snapshot's code that has a proof of its own. -/
def snapshotPart (legacy : Bool) (t : Tid) (α : Type) (p : Prog Sys α) : Prop :=
  t = .snapshot ∧ Prog.onlyPart (stopVideoMode legacy) α p

theorem other_of {calls : SysCall → Bool} (h : ∀ c ∈ starting ++ stopping, calls c = false)
    (c : SysCall) (hc : calls c = true) : Other t c := by
  have hne := not_mem_of h c hc
  exact ⟨fun hs => hne (List.mem_append_left _ hs), fun _ hs => hne (List.mem_append_right _ hs)⟩

/-- A thread that is not the snapshot's only must not start an encoder. -/
theorem other_of_free (ht : t ≠ .snapshot) {calls : SysCall → Bool}
    (h : ∀ c ∈ starting, calls c = false) (c : SysCall) (hc : calls c = true) : Other t c :=
  ⟨not_mem_of h c hc, fun he => absurd he ht⟩

theorem other_of_not_mem {c : SysCall} (hc : c ∉ starting ++ stopping) : Other t c :=
  ⟨fun hs => hc (List.mem_append_left _ hs), fun _ hs => hc (List.mem_append_right _ hs)⟩

theorem built_picture (ht : t = .snapshot) :
    (takePicture legacy).Built (Other t) (snapshotPart legacy t) := by
  have hO : ∀ {c : SysCall}, c ∉ starting ++ stopping → Other t c := other_of_not_mem
  have hready : cameraReady.Built (Other t) (snapshotPart legacy t) :=
    built_cameraReady (hO (by decide)) (hO (by decide))
  have hleave : (leaveVideoMode legacy).Built (Other t) (snapshotPart legacy t) :=
    .bind (.call (hO (by decide))) fun _ => .ite (.ret _) <|
      .bind (.bind (.call (hO (by decide))) fun _ =>
        .bind (.part ⟨ht, rfl, rfl⟩) fun _ => .call (hO (by decide))) fun _ => hready
  exact built_takePicture (hO (by decide)) (hO (by decide)) (hO (by decide)) hready hleave
    (built_capturePhoto (other_of (by decide)) (built_photoRequest (other_of (by decide))
      (built_awaitCompletion (other_of (by decide))) (other_of (by decide))))

theorem keeps_body (hhls : ∀ n, t ≠ .hls n) (hcaller : ∀ n, t ≠ .caller n) (pc : t.Pc) :
    contract.Keeps t (facts.Known [] t) ((code legacy).body t pc) := by
  have hO : ∀ {c : SysCall}, c ∉ starting ++ stopping → Other t c := other_of_not_mem
  have hA : ∀ c, acquireCall c = true → Other t c := other_of (by decide)
  have hT : t ≠ .snapshot → ∀ c, teardownCall c = true → Other t c :=
    fun ht => other_of_free ht (by decide)
  have hS : t ≠ .snapshot → shutdownGstreamerPipeline.Built (Other t) (snapshotPart legacy t) :=
    fun ht => built_shutdownGstreamerPipeline (other_of_free ht (by decide)) (hO (by decide))
      (hO (by decide))
  have hthread : ∀ c ∈ starting ++ stopping, threadCall t c = false := by
    simp [starting, stopping, setsMode, threadCall]
  have hbuilt : ((code legacy).body t pc).Built (Other t) (snapshotPart legacy t) := by
    refine built_appBody (other_of (by decide)) (other_of hthread) (fun ht => ?_) built_picture
      (fun ht => ?_) (fun n hn => absurd hn (hhls n)) (fun _ => other_of (by decide))
      (fun _ _ => other_of (by decide)) hcaller pc
    · have hne : t ≠ .snapshot := by
        rw [ht]
        decide
      exact ⟨built_initializeCamera hA (hO (by decide)) (hO (by decide)) (hO (by decide)),
        built_destroy hA (hT hne) (hS hne)⟩
    · have hne : t ≠ .snapshot := by
        rw [ht]
        decide
      refine ⟨hO (by decide), App.built_recoverCamera (other_of (by decide)) (hO (by decide))
        (hO (by decide)) (built_reinitializeCamera hA (hT hne) (hS hne) fun value => hO ?_)⟩
      cases value <;> decide
  refine keeps_of_built quiet.known (fun c hc x _ _ => ?_) ?_ hbuilt
  · refine ⟨permitted_of hc.1 (fun hstopper => ?_) (fun n hn => absurd hn (hhls n))
      fun n _ hn => absurd hn (hhls n), fun _ _ _ _ => Facts.known_nil⟩
    cases hstopper with
    | inl hsnapshot => exact hc.2 hsnapshot
    | inr hworker =>
      obtain ⟨n, hn⟩ := hworker
      exact absurd hn (hhls n)
  · rintro α p ⟨rfl, rfl, rfl⟩
    exact keeps_stopVideoMode

end

/-- What the threads know at their control points. -/
def holds (t : Tid) (pc : t.Pc) (x : World × OutputDir) : Prop :=
  match t, pc with
  | .hls n, pc => facts.Known (known pc) (.hls n) x
  | .caller _, _ => False
  | _, _ => True

def proof (legacy : Bool) : contract.Proof (code legacy) where
  holds := holds
  body t pc x _ h := by
    have hbody : (∀ n, t ≠ .hls n) → (∀ n, t ≠ .caller n) →
        contract.wp t ((code legacy).body t pc) (fun _ _ => True) (fun _ => True) x :=
      fun hhls hcaller => wp_mono (keeps_body hhls hcaller pc x Facts.known_nil)
        (fun _ _ _ _ => trivial) fun _ _ _ => trivial
    cases t with
    | hls n => exact wp_hlsBody h
    | caller n => exact h.elim
    | _ =>
      exact wp_mono (hbody (fun _ => by simp) fun _ => by simp) (fun _ _ _ _ _ _ => trivial)
        fun _ _ h => h

/-- The application starts with whatever is left in the directory. -/
def start (legacy : Bool) (files : List OutputFile) : Config (code legacy) (World × OutputDir) :=
  ⟨(.init, ⟨files, 0, fun _ => none⟩), (appStart legacy).prog⟩

theorem valid_start (legacy : Bool) (files : List OutputFile) :
    (proof legacy).Valid (start legacy files) := by
  have hsound : Sound (start legacy files).world := by
    refine ⟨(Lifecycle.valid_start legacy).inv, fun _ _ h => ?_, fun _ _ h => ?_, fun h => ?_⟩ <;>
      cases h
  apply valid_appStart _ hsound
  case hhls =>
    intro n x hr _
    -- no worker has been started yet
    have hfresh : facts .fresh (.hls n) (start legacy files).world :=
      ⟨n, rfl, rfl, fun h => by cases h⟩
    exact Facts.known_nil.learn (hr .fresh hfresh)
  all_goals intros; trivial

end OwnFiles

/-- The HLS worker `n` is polling, with the directory as it is in `d`. -/
def App.Polling (legacy : Bool) (files : List OutputFile) (n : Nat) (d : OutputDir) : Prop :=
  ∃ (cfg : Config (code legacy) (World × OutputDir)) (draining : Bool),
    Run filed anyStep (OwnFiles.start legacy files) cfg ∧
      cfg.pending (.hls n) = some (.pollAndUpload draining) ∧ d = cfg.world.2

/-- Whatever was in the directory at the start, and however the sessions go and end: while an HLS
worker polls, the encoder of its own session has written every file in the directory. -/
theorem App.writer_of_polling {legacy : Bool} {files : List OutputFile} {n : Nat} {d : OutputDir}
    (h : App.Polling legacy files n d) : ∀ f ∈ d.files, f.writer = some (.hls n) := by
  obtain ⟨cfg, draining, hrun, hpoll, rfl⟩ := h
  have hallowed : Run filed OwnFiles.ok (OwnFiles.start legacy files) cfg := by
    refine (hrun.left_pending fun hrun _ _ hp =>
      ((Lifecycle.proof legacy).sound (Lifecycle.valid_start legacy) hrun.of_among).pre hp).mono ?_
    exact fun _ _ h => h.2
  have hvalid := (OwnFiles.proof legacy).sound (OwnFiles.valid_start legacy files) hallowed
  exact (hvalid.pre hpoll).polls n draining rfl rfl

/-- What a poll finds is there while the worker polls. -/
def App.Told (legacy : Bool) (files : List OutputFile) (n : Nat) (e : Event Host) : Prop :=
  ∀ name, Found.Shows Config.HLS_OUTPUT_DIR name e →
    ∃ d, App.Polling legacy files n d ∧ ∃ f ∈ d.files, f.name = name

/-- Every file that an HLS worker passes to the client is one of the directory, and as long as the
worker polls, the file of this name is one that the encoder of its own session has written. -/
theorem App.uploads_own_files {legacy : Bool} {files : List OutputFile} {n : Nat} {u : HlsUploader}
    {spotId : Str} {events : List (Event Host)} {o : Option (HlsUploader × HlsUploader.PollOutcome)}
    (hexec : Exec (u.pollAndUpload anyClient spotId Config.HLS_OUTPUT_DIR) events o)
    (htold : ∀ e ∈ events, App.Told legacy files n e)
    {objectKey contentType path : Str} {accepted : Bool}
    (hpassed : ⟨.uploadLocalFileWithPresign objectKey contentType path, accepted⟩ ∈ events) :
    ∃ name, path = pathAppend Config.HLS_OUTPUT_DIR name ∧
      (∃ d, App.Polling legacy files n d ∧ ∃ f ∈ d.files, f.name = name) ∧
        ∀ d, App.Polling legacy files n d → ∀ f ∈ d.files, f.name = name →
          f.writer = some (.hls n) := by
  obtain ⟨name, hpath, e, he, hshows⟩ := HlsUploader.uploads_found hexec hpassed
  exact ⟨name, hpath, htold e he name hshows, fun d hd f hf _ => App.writer_of_polling hd f hf⟩

/-- A segment of an earlier session is left over. -/
def OwnFiles.leftOver : List OutputFile := [⟨"segment00003.ts".toList, none, false⟩]

def OwnFiles.willing (x : World × OutputDir) : (c : SysCall) → Option c.Reply :=
  x.1.willing .takePicture

/-- The first worker removes it, and polls with a segment of its own. -/
def OwnFiles.firstPoll : List (Choice Sys Tid (World × OutputDir) FileEvent) :=
  runsWith willing .main 18 ++ runsWith willing .check 14 ++ runsWith willing (.hls 0) 2 ++
    [.env (.removed "segment00003.ts".toList)] ++ runsWith willing (.hls 0) 54 ++
      runsWith willing (.gst 1) 5 ++ [.env (.written 1 "segment00000.ts".toList)] ++
        runsWith willing (.hls 0) 4

/-- The poll finds this segment, and no playlist yet. -/
def OwnFiles.oneSegment : Unit → (c : HostCall) → Option (c.Reply × Unit)
  | _, .isDirectory _ => some (true, ())
  | _, .directoryEntries _ => some (some ["segment00000.ts".toList], ())
  | _, .isRegularFile _ => some (some true, ())
  | _, .fileSize _ => some (some 1, ())
  | _, .sleepFor _ => some ((), ())
  | _, .fileExists _ => some (some false, ())
  | _, .uploadLocalFileWithPresign _ _ _ => some (true, ())
  | _, _ => none

/-- An event that shows this segment at most. -/
def OwnFiles.showsOne : Event Host → Bool
  | ⟨.directoryEntries _, some entries⟩ => entries = ["segment00000.ts".toList]
  | ⟨.fileExists _, some there⟩ => !there
  | _ => true

theorem OwnFiles.shows_one {e : Event Host} {dirPath name : Str} (h : OwnFiles.showsOne e = true)
    (hshows : Found.Shows dirPath name e) : name = "segment00000.ts".toList := by
  obtain ⟨c, r⟩ := e
  cases c with
  | directoryEntries path =>
    cases r with
    | none => exact hshows.elim
    | some entries =>
      have hentries : entries = ["segment00000.ts".toList] := of_decide_eq_true h
      have hname : name ∈ entries := hshows.2
      rw [hentries] at hname
      exact List.mem_singleton.mp hname
  | fileExists path =>
    cases r with
    | none => exact hshows.elim
    | some there =>
      cases there with
      | true => cases h
      | false => exact hshows.elim
  | _ => exact hshows.elim

/-- The upload of this segment. -/
def OwnFiles.passesOne : Event Host → Bool
  | ⟨.uploadLocalFileWithPresign objectKey contentType path, accepted⟩ =>
    objectKey = "spots/spot/live/segment00000.ts".toList ∧ contentType = "video/mp2t".toList ∧
      path = pathAppend Config.HLS_OUTPUT_DIR "segment00000.ts".toList ∧ accepted = true
  | _ => false

theorem OwnFiles.passes_one {e : Event Host} (h : OwnFiles.passesOne e = true) :
    e = ⟨.uploadLocalFileWithPresign "spots/spot/live/segment00000.ts".toList
      "video/mp2t".toList (pathAppend Config.HLS_OUTPUT_DIR "segment00000.ts".toList), true⟩ := by
  obtain ⟨c, r⟩ := e
  cases c with
  | uploadLocalFileWithPresign objectKey contentType path =>
    obtain ⟨rfl, rfl, rfl, rfl⟩ := of_decide_eq_true h
    rfl
  | _ => cases h

theorem App.uploads_own_files_segment :
    ∃ (events : List (Event Host)) (o : Option (HlsUploader × HlsUploader.PollOutcome)),
      Exec (({} : HlsUploader).pollAndUpload anyClient "spot".toList Config.HLS_OUTPUT_DIR)
        events o ∧
      ∃ path, ⟨.uploadLocalFileWithPresign "spots/spot/live/segment00000.ts".toList
          "video/mp2t".toList path, true⟩ ∈ events ∧
        ∃ name, path = pathAppend Config.HLS_OUTPUT_DIR name ∧
          (∃ d, App.Polling false OwnFiles.leftOver 0 d ∧ ∃ f ∈ d.files, f.name = name) ∧
            ∀ d, App.Polling false OwnFiles.leftOver 0 d → ∀ f ∈ d.files, f.name = name →
              f.writer = some (.hls 0) := by
  obtain ⟨cfg, hrun, htest⟩ := exec_reaches filed (fun _ _ => true)
    (OwnFiles.start false OwnFiles.leftOver) OwnFiles.firstPoll
    (fun cfg => cfg.pending (.hls 0) = some (.pollAndUpload false) ∧
      cfg.world.2.files.map OutputFile.name = ["segment00000.ts".toList]) (by decide +kernel)
  obtain ⟨hpoll, hfiles⟩ := of_decide_eq_true htest
  have hpolling : App.Polling false OwnFiles.leftOver 0 cfg.world.2 :=
    ⟨cfg, false, hrun.mono fun _ _ _ => trivial, hpoll, rfl⟩
  have hthere : ∃ f ∈ cfg.world.2.files, f.name = "segment00000.ts".toList := by
    refine List.mem_map.mp ?_
    rw [hfiles]
    exact List.mem_singleton_self _
  obtain ⟨events, o, hexec, hevents⟩ := replay_reaches OwnFiles.oneSegment
    (({} : HlsUploader).pollAndUpload anyClient "spot".toList Config.HLS_OUTPUT_DIR) ()
    (fun x => x.1.all OwnFiles.showsOne && x.1.any OwnFiles.passesOne) (by decide +kernel)
  obtain ⟨hshows, hpasses⟩ := Bool.and_eq_true_iff.mp hevents
  obtain ⟨e, he, hpass⟩ := List.any_eq_true.mp hpasses
  have htold : ∀ e ∈ events, App.Told false OwnFiles.leftOver 0 e := fun e he name hname =>
    ⟨_, hpolling, OwnFiles.shows_one (List.all_eq_true.mp hshows e he) hname ▸ hthere⟩
  have hpassed := OwnFiles.passes_one hpass ▸ he
  exact ⟨events, o, hexec, _, hpassed, App.uploads_own_files hexec htold hpassed⟩

end SurfCam

import SurfCam.Logic.Machine

/-!
# Rely and guarantee — one thread at a time

A contract says what every thread may require of its calls (`pre`) and what the other threads and
the environment can do to the world between two calls of it (`rely`).  The guarantee of a thread is
not stated: it is whatever its calls do where their `pre` holds.  `Contract.wp` is the weakest
precondition of one thread's program under the rely; `Proof.sound` puts the threads together.
-/

namespace Interaction

variable {S : Signature} {T W E : Type}

/-- What the threads of a machine may count on, over the steps that meet the condition `ok`. -/
structure Contract (M : Machine S T W E) (ok : W → Label S T E → Prop) where
  /-- What always holds of the world. -/
  inv : W → Prop
  /-- What must hold when a thread makes a call. -/
  pre : T → S.Call → W → Prop
  /-- What the others can do between two calls of a thread. -/
  rely : T → W → W → Prop
  rely_refl : ∀ t w, rely t w w
  rely_trans : ∀ {t w w' w''}, rely t w w' → rely t w' w'' → rely t w w''
  inv_act : ∀ {t c r w w'}, inv w → pre t c w → ok w (.act t c r) → M.act t c r w = some w' →
    inv w'
  inv_env : ∀ {e w w'}, inv w → ok w (.env e) → M.env e w = some w' → inv w'
  rely_act : ∀ {t u c r w w'}, t ≠ u → inv w → pre u c w → ok w (.act u c r) →
    M.act u c r w = some w' → rely t w w'
  rely_env : ∀ {t e w w'}, inv w → ok w (.env e) → M.env e w = some w' → rely t w w'

namespace Contract

variable {M : Machine S T W E} {ok : W → Label S T E → Prop} (C : Contract M ok) {α β : Type}

/-- The weakest precondition of `p` run by thread `t`: between its calls the others act within the
rely, every call it makes meets `pre`, it ends in `Q`, and an exception leaves it in `X`. -/
def wp (t : T) : Prog S α → (α → W → Prop) → (W → Prop) → W → Prop
  | .ret a, Q, _, w => ∀ w', C.rely t w w' → C.inv w' → Q a w'
  | .throw, _, X, w => ∀ w', C.rely t w w' → C.inv w' → X w'
  | .call c k, Q, X, w => ∀ w', C.rely t w w' → C.inv w' →
      C.pre t c w' ∧ ∀ r w'', ok w' (.act t c r) → M.act t c r w' = some w'' → wp t (k r) Q X w''

variable {C} {t : T}

/-- Where a thread knows nothing, the others take nothing away. -/
theorem true_rely (w w' : W) (_ : C.rely t w w') (_ : C.inv w') (_ : True) : True := trivial

/-- A precondition survives what the others do. -/
theorem wp_rely {p : Prog S α} {Q : α → W → Prop} {X : W → Prop} {w w' : W}
    (h : C.wp t p Q X w) (hr : C.rely t w w') : C.wp t p Q X w' := by
  cases p with
  | ret a => exact fun v hv hi => h v (C.rely_trans hr hv) hi
  | throw => exact fun v hv hi => h v (C.rely_trans hr hv) hi
  | call c k => exact fun v hv hi => h v (C.rely_trans hr hv) hi

/-- To prove a precondition, one may let the others act first. -/
theorem wp_of_rely {p : Prog S α} {Q : α → W → Prop} {X : W → Prop} {w : W}
    (h : ∀ w', C.rely t w w' → C.inv w' → C.wp t p Q X w') : C.wp t p Q X w := by
  cases p with
  | ret a => exact fun v hv hi => h v hv hi v (C.rely_refl t v) hi
  | throw => exact fun v hv hi => h v hv hi v (C.rely_refl t v) hi
  | call c k => exact fun v hv hi => h v hv hi v (C.rely_refl t v) hi

theorem wp_mono {p : Prog S α} {Q R : α → W → Prop} {X Y : W → Prop} {w : W}
    (h : C.wp t p Q X w) (hQ : ∀ a w, C.inv w → Q a w → R a w)
    (hX : ∀ w, C.inv w → X w → Y w) : C.wp t p R Y w := by
  induction p generalizing w with
  | ret a => exact fun v hv hi => hQ a v hi (h v hv hi)
  | throw => exact fun v hv hi => hX v hi (h v hv hi)
  | call c k ih =>
    intro v hv hi
    rcases h v hv hi with ⟨hpre, hk⟩
    exact ⟨hpre, fun r v' hok hs => ih r (hk r v' hok hs)⟩

theorem wp_bind {p : Prog S α} {f : α → Prog S β} {Q : β → W → Prop} {X : W → Prop} {w : W} :
    C.wp t (p >>= f) Q X w ↔ C.wp t p (fun a w => C.wp t (f a) Q X w) X w := by
  induction p generalizing w with
  | ret a => exact ⟨fun h _ hr _ => wp_rely h hr, fun h => wp_of_rely h⟩
  | throw => rfl
  | call c k ih =>
    exact forall_congr' fun _ => imp_congr_right fun _ => imp_congr_right fun _ =>
      and_congr_right fun _ => forall_congr' fun r => forall_congr' fun _ =>
        imp_congr_right fun _ => imp_congr_right fun _ => ih r

theorem wp_tryCatch {p h : Prog S α} {Q : α → W → Prop} {X : W → Prop} {w : W} :
    C.wp t (p.tryCatch h) Q X w ↔ C.wp t p Q (fun w => C.wp t h Q X w) w := by
  induction p generalizing w with
  | ret a => rfl
  | throw => exact ⟨fun hh _ hr _ => wp_rely hh hr, fun hh => wp_of_rely hh⟩
  | call c k ih =>
    exact forall_congr' fun _ => imp_congr_right fun _ => imp_congr_right fun _ =>
      and_congr_right fun _ => forall_congr' fun r => forall_congr' fun _ =>
        imp_congr_right fun _ => imp_congr_right fun _ => ih r

/-- A postcondition may as well speak of the world after the others have acted once more. -/
theorem wp_settle {p : Prog S α} {Q : α → W → Prop} {X : W → Prop} {w : W} :
    C.wp t p (fun a w => ∀ w', C.rely t w w' → C.inv w' → Q a w') X w ↔ C.wp t p Q X w := by
  induction p generalizing w with
  | ret a =>
    exact ⟨fun h v hr hi => h v hr hi v (C.rely_refl t v) hi,
      fun h _ hr _ v hr' hi => h v (C.rely_trans hr hr') hi⟩
  | throw => rfl
  | call c k ih =>
    exact forall_congr' fun _ => imp_congr_right fun _ => imp_congr_right fun _ =>
      and_congr_right fun _ => forall_congr' fun r => forall_congr' fun _ =>
        imp_congr_right fun _ => imp_congr_right fun _ => ih r

theorem wp_ensuring_of {p : Prog S α} {cleanup : Prog S Unit} {Q : α → W → Prop} {X : W → Prop}
    {w : W} (h : C.wp t p (fun a w => C.wp t cleanup (fun _ w => Q a w) X w)
      (fun w => C.wp t cleanup (fun _ w => X w) X w) w) :
    C.wp t (p.ensuring cleanup) Q X w := by
  induction p generalizing w with
  | ret a =>
    show C.wp t (cleanup >>= fun _ => Prog.ret a) Q X w
    exact wp_bind.mpr (wp_of_rely fun v hr hi => wp_settle.mpr (h v hr hi))
  | throw =>
    show C.wp t (cleanup >>= fun _ => Prog.throw) Q X w
    exact wp_bind.mpr (wp_of_rely fun v hr hi => wp_settle.mpr (h v hr hi))
  | call c k ih =>
    intro v hr hi
    rcases h v hr hi with ⟨hpre, hk⟩
    exact ⟨hpre, fun r v' hok hs => ih r (hk r v' hok hs)⟩

/-- The rule of consequence at a call of a helper: its contract in front of the rest. -/
theorem wp_bind_of {p : Prog S α} {f : α → Prog S β} {Q : α → W → Prop} {Q' : β → W → Prop}
    {X : W → Prop} {w : W} (hp : C.wp t p Q X w)
    (hf : ∀ a w, C.inv w → Q a w → C.wp t (f a) Q' X w) : C.wp t (p >>= f) Q' X w :=
  wp_bind.mpr (wp_mono hp hf fun _ _ h => h)

/-- One call, from an assertion that the others keep, in front of the rest. -/
theorem wp_call_of {c : S.Call} {f : S.Reply c → Prog S α} {Q : α → W → Prop} {X A : W → Prop}
    {w : W} (hA : ∀ w w', C.rely t w w' → C.inv w' → A w → A w') (h : A w)
    (hc : ∀ w, C.inv w → A w → C.pre t c w ∧
      ∀ r w', ok w (.act t c r) → M.act t c r w = some w' → C.wp t (f r) Q X w') :
    C.wp t (.call c .ret >>= f) Q X w :=
  fun w' hr hi => hc w' hi (hA w w' hr hi h)

/-- Thread `t` running `p` from `A` ends in `A`, by a value or by an exception. -/
def Keeps (C : Contract M ok) (t : T) (A : W → Prop) (p : Prog S α) : Prop :=
  ∀ w, A w → C.wp t p (fun _ => A) A w

/-- Code that keeps `A`, in front of the rest. -/
theorem Keeps.wp_bind {A X : W → Prop} {p : Prog S α} {f : α → Prog S β} {Q : β → W → Prop} {w : W}
    (hp : C.Keeps t A p) (hX : ∀ w, A w → X w) (h : A w)
    (hf : ∀ a w, A w → C.wp t (f a) Q X w) : C.wp t (p >>= f) Q X w := by
  have hkept : C.wp t p (fun _ => A) X w :=
    wp_mono (hp w h) (fun _ _ _ hv => hv) fun v _ hv => hX v hv
  exact wp_bind_of hkept fun a v _ hv => hf a v hv

/-- A stretch of code keeps an assertion that the others keep, if its parts do. -/
theorem keeps_of_built {A : W → Prop} {P : S.Call → Prop} {X : ∀ α : Type, Prog S α → Prop}
    {p : Prog S α} (hA : ∀ w w', C.rely t w w' → C.inv w' → A w → A w')
    (hP : ∀ c, P c → ∀ w, C.inv w → A w → C.pre t c w ∧
      ∀ r w', ok w (.act t c r) → M.act t c r w = some w' → A w')
    (hX : ∀ α p, X α p → C.Keeps t A p) (hp : p.Built P X) : C.Keeps t A p := by
  induction hp with
  | ret a => exact fun w h v hr hi => hA w v hr hi h
  | throw => exact fun w h v hr hi => hA w v hr hi h
  | call hc =>
    intro w h v hr hi
    have hcall := hP _ hc v hi (hA w v hr hi h)
    exact ⟨hcall.1, fun r v' hok hs u hr' hi' => hA v' u hr' hi' (hcall.2 r v' hok hs)⟩
  | part hx => exact hX _ _ hx
  | bind _ _ ihp ihf => exact fun w h => wp_bind_of (ihp w h) fun a v _ hv => ihf a v hv
  | tryCatch _ _ ihp ihh =>
    exact fun w h => wp_tryCatch.mpr (wp_mono (ihp w h) (fun _ _ _ hv => hv) fun v _ hv => ihh v hv)
  | ensuring _ _ ihp ihc =>
    -- the clean-up runs on both ways out
    exact fun w h => wp_ensuring_of (wp_mono (ihp w h) (fun _ v _ hv => ihc v hv) fun v _ hv => ihc v hv)

/-- Code whose calls may be made anywhere. -/
theorem wp_of_built {P : S.Call → Prop} {p : Prog S α} {w : W} (hp : p.Built P Prog.noParts)
    (hP : ∀ c, P c → ∀ w, C.inv w → C.pre t c w) :
    C.wp t p (fun _ _ => True) (fun _ => True) w :=
  keeps_of_built (fun _ _ _ _ _ => trivial)
    (fun c hc w hi _ => ⟨hP c hc w hi, fun _ _ _ _ => trivial⟩) (fun _ _ h => h.elim) hp w trivial

/-- What a program returns whatever the replies, it returns here; if no exception leaves it, any
exceptional postcondition will do. -/
theorem wp_of_returns {p : Prog S α} {R : α → Prop} {Q : α → W → Prop} {X X' : W → Prop} {w : W}
    (hp : p.Returns R) (h : C.wp t p Q X w) : C.wp t p (fun a w => R a ∧ Q a w) X' w := by
  induction p generalizing w with
  | ret a => exact fun v hr hi => ⟨hp, h v hr hi⟩
  | throw => exact hp.elim
  | call c k ih =>
    intro v hr hi
    rcases h v hr hi with ⟨hpre, hk⟩
    exact ⟨hpre, fun r v' hok hs => ih r (hp r) (hk r v' hok hs)⟩

/-- The exceptional postcondition does not matter where no exception leaves the program. -/
theorem wp_of_noThrow {p : Prog S α} {Q : α → W → Prop} {X X' : W → Prop} {w : W}
    (hp : p.NoThrow) (h : C.wp t p Q X w) : C.wp t p Q X' w :=
  wp_mono (wp_of_returns hp h) (fun _ _ _ h => h.2) fun _ _ h => h

/-- What a program ends with whatever the replies, it ends with here. -/
theorem wp_of_ends {p : Prog S α} {R : α → Prop} {Q : α → W → Prop} {X : W → Prop} {w : W}
    (hp : p.Ends R) (h : C.wp t p Q X w) : C.wp t p (fun a w => R a ∧ Q a w) X w := by
  induction p generalizing w with
  | ret a => exact fun v hr hi => ⟨hp, h v hr hi⟩
  | throw => exact h
  | call c k ih =>
    intro v hr hi
    rcases h v hr hi with ⟨hpre, hk⟩
    exact ⟨hpre, fun r v' hok hs => ih r (hp r) (hk r v' hok hs)⟩

/-! ## What one thread sees -/

/-- A part of the world that only thread `t` changes while it owns it: its calls act on the view as
the sequential semantics `L` says, and the others leave it alone. -/
structure View (C : Contract M ok) (t : T) {V : Type} (L : Local S V) where
  own : W → Prop
  view : W → V
  rely : ∀ {w w'}, own w → C.rely t w w' → C.inv w' → own w' ∧ view w' = view w
  pre : ∀ {c w}, C.inv w → own w → L.ok c (view w) → C.pre t c w
  step : ∀ {c r w w'}, C.inv w → own w → L.ok c (view w) → ok w (.act t c r) →
    M.act t c r w = some w' → own w' ∧ L.step c r (view w) = some (view w')

/-- What holds of a program alone holds of it among the others, as far as its view goes. -/
theorem View.wp {V : Type} {L : Local S V} (O : View C t L) {p : Prog S α} {Q : α → V → Prop}
    {E : V → Prop} {w : W} (ho : O.own w) (h : L.wlp p Q E (O.view w)) :
    C.wp t p (fun a w => O.own w ∧ Q a (O.view w)) (fun w => O.own w ∧ E (O.view w)) w := by
  induction p generalizing w with
  | ret a =>
    intro v hr hi
    rcases O.rely ho hr hi with ⟨hov, heq⟩
    rw [heq]
    exact ⟨hov, h⟩
  | throw =>
    intro v hr hi
    rcases O.rely ho hr hi with ⟨hov, heq⟩
    rw [heq]
    exact ⟨hov, h⟩
  | call c k ih =>
    intro v hr hi
    rcases O.rely ho hr hi with ⟨hov, heq⟩
    rw [← heq] at h
    refine ⟨O.pre hi hov h.1, fun r v' hok hs => ?_⟩
    rcases O.step hi hov h.1 hok hs with ⟨hov', hstep⟩
    exact ih r hov' (h.2 r _ hstep)

/-! ## All threads -/

variable {K : Code S T}

/-- A proof of the threads' code: an assertion at every control point, and that every program leads
from its own to the next one's.  An exception that leaves a thread ends it. -/
structure Proof (C : Contract M ok) (K : Code S T) where
  holds : (t : T) → K.Pc t → W → Prop
  body : ∀ t pc w, C.inv w → holds t pc w →
    C.wp t (K.body t pc) (fun next w => ∀ pc', next = some pc' → holds t pc' w) (fun _ => True) w

/-- Thread `t` of `cfg` is inside its proof. -/
def Proof.OnTrack (P : Proof C K) (cfg : Config K W) (t : T) : Prop :=
  C.wp t (cfg.prog t) (fun next w => ∀ pc', next = some pc' → P.holds t pc' w) (fun _ => True)
    cfg.world

/-- A thread that has ended, or has reached a control point, is inside its proof where the others
leave it the assertion of that point. -/
theorem Proof.onTrack_ret {P : Proof C K} {cfg : Config K W} {next : Option (K.Pc t)}
    (hp : cfg.prog t = .ret next)
    (h : ∀ w, C.rely t cfg.world w → C.inv w → ∀ pc, next = some pc → P.holds t pc w) :
    P.OnTrack cfg t := by
  rw [OnTrack, hp]
  exact h

/-- All threads are inside their proofs. -/
structure Proof.Valid (P : Proof C K) (cfg : Config K W) : Prop where
  inv : C.inv cfg.world
  track : ∀ t, P.OnTrack cfg t

/-- A thread about to make a call may make it. -/
theorem Proof.Valid.pre {P : Proof C K} {cfg : Config K W} (h : P.Valid cfg) {c : S.Call}
    (hp : cfg.pending t = some c) : C.pre t c cfg.world := by
  rcases Config.pending_eq_some hp with ⟨k, hk⟩
  have hcall := h.track t
  rw [OnTrack, hk] at hcall
  exact (hcall cfg.world (C.rely_refl t _) h.inv).1

/-- A thread that has reached a control point is where its assertion holds. -/
theorem Proof.Valid.holds {P : Proof C K} {cfg : Config K W} (h : P.Valid cfg) {pc : K.Pc t}
    (hp : cfg.reached t = some pc) : P.holds t pc cfg.world := by
  have hret := h.track t
  rw [OnTrack, Config.reached_eq_some hp] at hret
  exact hret cfg.world (C.rely_refl t _) h.inv pc rfl

variable [DecidableEq T]

/-- A step that meets the condition keeps every thread inside its proof. -/
theorem Proof.valid_step (P : Proof C K) {a b : Config K W} {l : Label S T E} (h : P.Valid a)
    (hok : ok a.world l) (hs : Step M a l b) : P.Valid b := by
  cases hs with
  | @act t c k r w hp hact =>
    have hcall := h.track t
    rw [OnTrack, hp] at hcall
    rcases hcall a.world (C.rely_refl t _) h.inv with ⟨hpre, hk⟩
    -- the thread goes on behind its call; to the others the call is an action within their rely
    refine ⟨C.inv_act h.inv hpre hok hact, fun u => ?_⟩
    by_cases hu : u = t
    · subst hu
      simpa only [OnTrack, Function.update_self] using hk r w hok hact
    · simpa only [OnTrack, Function.update_of_ne hu] using
        wp_rely (h.track u) (C.rely_act hu h.inv hpre hok hact)
  | @resume t pc hp =>
    refine ⟨h.inv, fun u => ?_⟩
    by_cases hu : u = t
    · subst hu
      have hret := h.track u
      rw [OnTrack, hp] at hret
      have hpc := hret a.world (C.rely_refl u _) h.inv pc rfl
      simpa only [OnTrack, Function.update_self] using P.body u pc a.world h.inv hpc
    · simpa only [OnTrack, Function.update_of_ne hu] using h.track u
  | env henv =>
    exact ⟨C.inv_env h.inv hok henv, fun u => wp_rely (h.track u) (C.rely_env h.inv hok henv)⟩

/-- In a run whose steps meet the condition, every thread stays inside its proof. -/
theorem Proof.sound (P : Proof C K) {a b : Config K W} (ha : P.Valid a) (h : Run M ok a b) :
    P.Valid b :=
  h.invariant (fun _ _ _ hv hok hs => P.valid_step hv hok hs) ha

/-- What a proof says about the calls of a run may serve as a condition on that run. -/
theorem Proof.run_pre (P : Proof C K) {ok' : W → Label S T E → Prop} {a b : Config K W}
    (ha : P.Valid a) (hok : ∀ w l, ok' w l → ok w l) (h : Run M ok' a b) :
    Run M (fun w l => ok' w l ∧ ∀ t c r, l = .act t c r → C.pre t c w) a b := by
  induction h with
  | refl => exact .refl
  | step hrun ho hs ih =>
    refine .step ih ⟨ho, ?_⟩ hs
    rintro t c r rfl
    exact (P.sound ha (hrun.mono hok)).pre hs.pending

end Contract

end Interaction

import SurfCam.Logic.Machine

/-!
# Watching a machine

An observer sees every step of a machine and keeps what it wants to remember; it neither stops the
machine nor changes it.  What a property says about the past of a run is said about the observer's
state, and holds or fails of the machine alone.
-/

namespace Interaction

variable {S : Signature} {T W E O : Type}

/-- The machine `M` with an observer. -/
def Machine.watched (M : Machine S T W E) (see : W → Label S T E → O → O) :
    Machine S T (W × O) E where
  act t c r x := (M.act t c r x.1).map fun w => (w, see x.1 (.act t c r) x.2)
  env e x := (M.env e x.1).map fun w => (w, see x.1 (.env e) x.2)

/-- A configuration and what the observer remembers. -/
def Config.watch {K : Code S T} (cfg : Config K W) (o : O) : Config K (W × O) where
  world := (cfg.world, o)
  prog := cfg.prog

section

variable {M : Machine S T W E} {see : W → Label S T E → O → O}

theorem watched_act {t : T} {c : S.Call} {r : S.Reply c} {x y : W × O} :
    (M.watched see).act t c r x = some y ↔
      ∃ w, M.act t c r x.1 = some w ∧ y = (w, see x.1 (.act t c r) x.2) := by
  rw [Machine.watched, Option.map_eq_some_iff]
  exact exists_congr fun _ => and_congr_right fun _ => eq_comm

theorem watched_env {e : E} {x y : W × O} :
    (M.watched see).env e x = some y ↔
      ∃ w, M.env e x.1 = some w ∧ y = (w, see x.1 (.env e) x.2) := by
  rw [Machine.watched, Option.map_eq_some_iff]
  exact exists_congr fun _ => and_congr_right fun _ => eq_comm

variable [DecidableEq T] {K : Code S T}

/-- The observer does not stop the machine. -/
theorem Step.watch {a b : Config K W} {l : Label S T E} (h : Step M a l b) (o : O) :
    ∃ o', Step (M.watched see) (a.watch o) l (b.watch o') := by
  cases h with
  | act hp hact => exact ⟨_, .act hp (watched_act.mpr ⟨_, hact, rfl⟩)⟩
  | resume hp => exact ⟨_, .resume hp⟩
  | env henv => exact ⟨_, .env (watched_env.mpr ⟨_, henv, rfl⟩)⟩

/-- Every run can be watched. -/
theorem Run.watch {ok : W → Label S T E → Prop} {a b : Config K W} (h : Run M ok a b) (o : O) :
    ∃ o', Run (M.watched see) (fun x l => ok x.1 l) (a.watch o) (b.watch o') := by
  induction h with
  | refl => exact ⟨o, .refl⟩
  | step _ hok hs ih =>
    rcases ih with ⟨o', hrun⟩
    rcases hs.watch o' with ⟨o'', hs'⟩
    exact ⟨o'', hrun.step hok hs'⟩

/-- A configuration without its observer. -/
def Config.unwatched (cfg : Config K (W × O)) : Config K W where
  world := cfg.world.1
  prog := cfg.prog

theorem Step.unwatch {a b : Config K (W × O)} {l : Label S T E} (h : Step (M.watched see) a l b) :
    Step M a.unwatched l b.unwatched := by
  cases h with
  | act hp hact =>
    obtain ⟨w, hw, rfl⟩ := watched_act.mp hact
    exact .act hp hw
  | resume hp => exact .resume hp
  | env henv =>
    obtain ⟨w, hw, rfl⟩ := watched_env.mp henv
    exact .env hw

/-- What the observer sees is a run of the machine. -/
theorem Run.unwatch {ok : W × O → Label S T E → Prop} {a b : Config K (W × O)}
    (h : Run (M.watched see) ok a b) : Run M anyStep a.unwatched b.unwatched := by
  induction h with
  | refl => exact .refl
  | step _ _ hs ih => exact ih.step trivial hs.unwatch

/-- What a machine proves about the calls of its runs may be used when it is watched. -/
theorem Run.unwatch_pending {ok : W × O → Label S T E → Prop} {a b : Config K (W × O)}
    {pre : T → S.Call → W → Prop} (h : Run (M.watched see) ok a b)
    (hpre : ∀ {cfg : Config K W}, Run M anyStep a.unwatched cfg → ∀ {t c}, cfg.pending t = some c →
      pre t c cfg.world) :
    Run (M.watched see) (fun x l => ok x l ∧ ∀ t c r, l = .act t c r → pre t c x.1) a b := by
  induction h with
  | refl => exact .refl
  | step hrun hok hs ih =>
    refine .step ih ⟨hok, ?_⟩ hs
    rintro t c r rfl
    exact hpre hrun.unwatch hs.unwatch.pending

end

end Interaction

import SurfCam.Logic.Machine

/-!
# Machines in step

Two machines over the same calls and the same actions of the environment that take every step
together: a step is possible when both of them accept it.  A run of the two is a run of each.
-/

namespace Interaction

variable {S : Signature} {T W V E : Type}

/-- The machines `M` and `N` in step. -/
def Machine.sync (M : Machine S T W E) (N : Machine S T V E) : Machine S T (W × V) E where
  act t c r x := (M.act t c r x.1).bind fun w => (N.act t c r x.2).map fun v => (w, v)
  env e x := (M.env e x.1).bind fun w => (N.env e x.2).map fun v => (w, v)

/-- What a configuration of two machines is to the first one. -/
def Config.left {K : Code S T} (cfg : Config K (W × V)) : Config K W where
  world := cfg.world.1
  prog := cfg.prog

section

variable {M : Machine S T W E} {N : Machine S T V E}

theorem pair_eq_some {a : Option W} {b : Option V} {x : W × V} :
    (a.bind fun w => b.map fun v => (w, v)) = some x ↔ a = some x.1 ∧ b = some x.2 := by
  simp only [Option.bind_eq_some_iff, Option.map_eq_some_iff]
  constructor
  · rintro ⟨w, ha, v, hb, rfl⟩
    exact ⟨ha, hb⟩
  · rintro ⟨ha, hb⟩
    exact ⟨x.1, ha, x.2, hb, rfl⟩

theorem sync_act {t : T} {c : S.Call} {r : S.Reply c} {x y : W × V} :
    (M.sync N).act t c r x = some y ↔
      M.act t c r x.1 = some y.1 ∧ N.act t c r x.2 = some y.2 := pair_eq_some

theorem sync_env {e : E} {x y : W × V} :
    (M.sync N).env e x = some y ↔ M.env e x.1 = some y.1 ∧ N.env e x.2 = some y.2 := pair_eq_some

variable [DecidableEq T] {K : Code S T}

theorem Step.left {a b : Config K (W × V)} {l : Label S T E} (h : Step (M.sync N) a l b) :
    Step M a.left l b.left := by
  cases h with
  | act hp hact => exact .act hp (sync_act.mp hact).1
  | resume hp => exact .resume hp
  | env henv => exact .env (sync_env.mp henv).1

/-- A run of the two machines is a run of the first one. -/
theorem Run.left {ok : W × V → Label S T E → Prop} {a b : Config K (W × V)}
    (h : Run (M.sync N) ok a b) : Run M anyStep a.left b.left := by
  induction h with
  | refl => exact .refl
  | step _ _ hs ih => exact ih.step trivial hs.left

/-- What a machine proves about the calls of its runs may be used where it is the first of two. -/
theorem Run.left_pending {ok : W × V → Label S T E → Prop} {a b : Config K (W × V)}
    {pre : T → S.Call → W → Prop} (h : Run (M.sync N) ok a b)
    (hpre : ∀ {cfg : Config K W}, Run M anyStep a.left cfg → ∀ {t c}, cfg.pending t = some c →
      pre t c cfg.world) :
    Run (M.sync N) (fun x l => ok x l ∧ ∀ t c r, l = .act t c r → pre t c x.1) a b := by
  induction h with
  | refl => exact .refl
  | step hrun hok hs ih =>
    refine .step ih ⟨hok, ?_⟩ hs
    rintro t c r rfl
    exact hpre hrun.left hs.left.pending

end

/-! ## More of an environment -/

section

variable {F : Type} {f : F → Option E} {M : Machine S T W E}

/-- The machine `M` in an environment whose actions `F` are not all its own. -/
def Machine.among (M : Machine S T W E) (f : F → Option E) : Machine S T W F where
  act := M.act
  env e w :=
    match f e with
    | some e => M.env e w
    | none => some w

theorem among_env {e : F} {w w' : W} (h : (M.among f).env e w = some w') :
    w' = w ∨ ∃ e', f e = some e' ∧ M.env e' w = some w' := by
  change (match f e with | some e => M.env e w | none => some w) = some w' at h
  cases he : f e with
  | none =>
    rw [he] at h
    exact .inl (Option.some.inj h).symm
  | some e' =>
    rw [he] at h
    exact .inr ⟨e', rfl, h⟩

/-- The other actions do not concern it. -/
theorem Run.of_among [DecidableEq T] {K : Code S T} {ok : W → Label S T F → Prop}
    {a b : Config K W} (h : Run (M.among f) ok a b) : Run M anyStep a b := by
  induction h with
  | refl => exact .refl
  | step _ _ hs ih =>
    cases hs with
    | act hp hact => exact ih.step trivial (.act hp hact)
    | resume hp => exact ih.step trivial (.resume hp)
    | env henv =>
      cases among_env henv with
      | inl heq =>
        rw [heq]
        exact ih
      | inr hown =>
        obtain ⟨e', -, he'⟩ := hown
        exact ih.step trivial (.env he')

end

end Interaction

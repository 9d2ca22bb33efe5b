import Mathlib.Logic.Function.Basic
import Mathlib.Logic.Relation
import SurfCam.Logic.Program

/-!
# Machines — threads that run programs against one world

Every thread of a machine runs a program.  A step makes the next call of one thread (the world
accepts a reply or it does not: a call that no reply answers is blocked), lets a finished program
hand over to the next one of its thread, or lets the environment act.  A long-running thread is a
family of programs indexed by its control points (its loop heads), so that every program is finite
and every interleaving of the threads is a path of the step relation.
-/

namespace Interaction

/-- What the calls of the threads `T` and the actions `E` of the environment do to the world `W`. -/
structure Machine (S : Signature) (T W E : Type) where
  act : T → (c : S.Call) → S.Reply c → W → Option W
  env : E → W → Option W

/-- A step that is possible where `p` holds only. -/
theorem guarded_eq_some {W : Type} {p : Prop} [Decidable p] {w w' : W} :
    (if p then some w else none) = some w' ↔ p ∧ w' = w := by
  rw [Option.ite_none_right_eq_some, Option.some.injEq]
  exact and_congr_right fun _ => eq_comm

/-- The code of the threads: control points, and the program from one of them to the next. -/
structure Code (S : Signature) (T : Type) where
  Pc : T → Type
  body : (t : T) → Pc t → Prog S (Option (Pc t))

/-- A state of the whole machine: the world, and what every thread still has to run. -/
structure Config {S : Signature} {T : Type} (K : Code S T) (W : Type) where
  world : W
  prog : (t : T) → Prog S (Option (K.Pc t))

/-- The call that thread `t` is about to make. -/
def Config.pending {S : Signature} {T W : Type} {K : Code S T} (cfg : Config K W) (t : T) :
    Option S.Call :=
  match cfg.prog t with
  | .call c _ => some c
  | _ => none

theorem Config.pending_eq_some {S : Signature} {T W : Type} {K : Code S T} {cfg : Config K W}
    {t : T} {c : S.Call} (h : cfg.pending t = some c) : ∃ k, cfg.prog t = .call c k := by
  unfold pending at h
  split at h
  · rename_i c' k hp
    rcases Option.some.inj h with rfl
    exact ⟨k, hp⟩
  · cases h

/-- The control point that thread `t` has reached. -/
def Config.reached {S : Signature} {T W : Type} {K : Code S T} (cfg : Config K W) (t : T) :
    Option (K.Pc t) :=
  match cfg.prog t with
  | .ret next => next
  | _ => none

theorem Config.reached_eq_some {S : Signature} {T W : Type} {K : Code S T} {cfg : Config K W}
    {t : T} {pc : K.Pc t} (h : cfg.reached t = some pc) : cfg.prog t = .ret (some pc) := by
  unfold reached at h
  split at h
  · rename_i next hp
    rw [hp, h]
  · cases h

/-- What happens in one step. -/
inductive Label (S : Signature) (T E : Type) where
  | act (t : T) (c : S.Call) (r : S.Reply c)
  | resume (t : T)
  | env (e : E)

section

variable {S : Signature} {T W E : Type} [DecidableEq T] {K : Code S T}

/-- One step of the machine. -/
inductive Step (M : Machine S T W E) : Config K W → Label S T E → Config K W → Prop where
  | act {cfg : Config K W} {t : T} {c : S.Call} {k : S.Reply c → Prog S (Option (K.Pc t))}
      {r : S.Reply c} {w : W} :
      cfg.prog t = .call c k → M.act t c r cfg.world = some w →
      Step M cfg (.act t c r) ⟨w, Function.update cfg.prog t (k r)⟩
  | resume {cfg : Config K W} {t : T} {pc : K.Pc t} :
      cfg.prog t = .ret (some pc) →
      Step M cfg (.resume t) ⟨cfg.world, Function.update cfg.prog t (K.body t pc)⟩
  | env {cfg : Config K W} {e : E} {w : W} :
      M.env e cfg.world = some w → Step M cfg (.env e) ⟨w, cfg.prog⟩

/-- A pending call that the world answers is a step. -/
theorem Config.step_of_pending {M : Machine S T W E} {cfg : Config K W} {t : T} {c : S.Call}
    (hp : cfg.pending t = some c) (r : S.Reply c) (h : (M.act t c r cfg.world).isSome) :
    ∃ cfg', Step M cfg (.act t c r) cfg' := by
  rcases pending_eq_some hp with ⟨k, hk⟩
  rcases Option.isSome_iff_exists.mp h with ⟨w, hw⟩
  exact ⟨_, .act hk hw⟩

theorem Step.pending {M : Machine S T W E} {a b : Config K W} {t : T} {c : S.Call} {r : S.Reply c}
    (h : Step M a (.act t c r) b) : a.pending t = some c := by
  cases h with
  | act hp _ => rw [Config.pending, hp]

/-- `Run M ok a b`: the machine goes from `a` to `b` by steps that all meet the condition `ok` on
the world before the step. -/
inductive Run (M : Machine S T W E) (ok : W → Label S T E → Prop) (a : Config K W) :
    Config K W → Prop where
  | refl : Run M ok a a
  | step {b c : Config K W} {l : Label S T E} :
      Run M ok a b → ok b.world l → Step M b l c → Run M ok a c

/-- The condition that every step meets. -/
def anyStep : W → Label S T E → Prop := fun _ _ => True

theorem Run.trans {M : Machine S T W E} {ok : W → Label S T E → Prop} {a b c : Config K W}
    (h : Run M ok a b) (h' : Run M ok b c) : Run M ok a c := by
  induction h' with
  | refl => exact h
  | step _ hok hs ih => exact .step ih hok hs

theorem Run.mono {M : Machine S T W E} {ok ok' : W → Label S T E → Prop} {a b : Config K W}
    (h : Run M ok a b) (hok : ∀ w l, ok w l → ok' w l) : Run M ok' a b := by
  induction h with
  | refl => exact .refl
  | step _ ho hs ih => exact .step ih (hok _ _ ho) hs

/-- A property of configurations that every step keeps holds in every run. -/
theorem Run.invariant {M : Machine S T W E} {ok : W → Label S T E → Prop} {I : Config K W → Prop}
    (hstep : ∀ b l c, I b → ok b.world l → Step M b l c → I c) {a b : Config K W} (ha : I a)
    (h : Run M ok a b) : I b := by
  induction h with
  | refl => exact ha
  | step _ ho hs ih => exact hstep _ _ _ ih ho hs

/-! ## Running a schedule -/

/-- A scheduler's choice: let a thread make its next call with a reply picked from the world (if
there is one), or let the environment act. -/
inductive Choice (S : Signature) (T W E : Type) where
  | run (t : T) (pick : W → (c : S.Call) → Option (S.Reply c))
  | env (e : E)

/-- The step that a choice makes, if it is possible and meets the (decided) condition `ok`. -/
def execStep (M : Machine S T W E) (ok : W → Label S T E → Bool) (cfg : Config K W) :
    Choice S T W E → Option (Config K W)
  | .run t pick =>
    match cfg.prog t with
    | .call c k =>
      match pick cfg.world c with
      | none => none
      | some r =>
        if ok cfg.world (.act t c r) then
          (M.act t c r cfg.world).map fun w => ⟨w, Function.update cfg.prog t (k r)⟩
        else none
    | .ret (some pc) =>
      if ok cfg.world (.resume t) then
        some ⟨cfg.world, Function.update cfg.prog t (K.body t pc)⟩
      else none
    | .ret none => none
    | .throw => none
  | .env e =>
    if ok cfg.world (.env e) then (M.env e cfg.world).map fun w => ⟨w, cfg.prog⟩ else none

/-- Run a schedule from `cfg`. -/
def exec (M : Machine S T W E) (ok : W → Label S T E → Bool) :
    List (Choice S T W E) → Config K W → Option (Config K W)
  | [], cfg => some cfg
  | ch :: rest, cfg => (execStep M ok cfg ch).bind (exec M ok rest)

theorem execStep_sound {M : Machine S T W E} {ok : W → Label S T E → Bool} {a b : Config K W}
    {ch : Choice S T W E} (h : execStep M ok a ch = some b) :
    ∃ l, ok a.world l = true ∧ Step M a l b := by
  cases ch with
  | run t pick =>
    simp only [execStep] at h
    split at h
    · rename_i c k hp
      split at h
      · cases h
      split at h
      · rename_i hok
        rcases Option.map_eq_some_iff.mp h with ⟨w, hw, rfl⟩
        exact ⟨_, hok, .act hp hw⟩
      · cases h
    · rename_i pc hp
      split at h
      · rename_i hok
        rcases Option.some.inj h with rfl
        exact ⟨_, hok, .resume hp⟩
      · cases h
    · cases h
    · cases h
  | env e =>
    simp only [execStep] at h
    split at h
    · rename_i hok
      rcases Option.map_eq_some_iff.mp h with ⟨w, hw, rfl⟩
      exact ⟨_, hok, .env hw⟩
    · cases h

/-- A schedule that can be executed is a run. -/
theorem exec_sound {M : Machine S T W E} {ok : W → Label S T E → Bool} {a b : Config K W}
    {s : List (Choice S T W E)} (h : exec M ok s a = some b) :
    Run M (fun w l => ok w l = true) a b := by
  induction s generalizing a with
  | nil =>
    rcases Option.some.inj h with rfl
    exact .refl
  | cons ch rest ih =>
    rcases Option.bind_eq_some_iff.mp h with ⟨m, hm, hrest⟩
    -- the first choice is a step in front of the run that the rest makes
    rcases execStep_sound hm with ⟨l, hok, hs⟩
    exact (Run.step .refl hok hs).trans (ih hrest)

/-- Some schedule leads to a configuration that a (decided) test accepts. -/
theorem exec_reaches (M : Machine S T W E) (ok : W → Label S T E → Bool) (a : Config K W)
    (s : List (Choice S T W E)) (test : Config K W → Bool)
    (h : (exec M ok s a).any test = true) :
    ∃ b, Run M (fun w l => ok w l = true) a b ∧ test b = true := by
  cases he : exec M ok s a with
  | none => rw [he] at h; cases h
  | some b => rw [he] at h; exact ⟨b, exec_sound he, h⟩

end

end Interaction

import Mathlib.Data.Nat.Find
import SurfCam.Logic.Machine

/-!
# Threads that come to their end

From some step on, the replies that a thread gets are of one kind (a flag that stays cleared), and
with replies of this kind its code reaches only finitely many turns of its loops.  Then the thread
makes only finitely many steps more, whatever the others do.
-/

namespace Interaction

namespace Prog

variable {S : Signature} {α β Pc : Type} {can : (c : S.Call) → S.Reply c → Prop}

/-- If `p` ends with a value, and every reply it gets is one of `can`, the value is one of `R`. -/
def EndsUnder (can : (c : S.Call) → S.Reply c → Prop) (R : α → Prop) : Prog S α → Prop
  | ret a => R a
  | throw => True
  | call c k => ∀ r, can c r → (k r).EndsUnder can R

theorem EndsUnder.bind {R : α → Prop} {R' : β → Prop} {p : Prog S α} {f : α → Prog S β}
    (hp : p.EndsUnder can R) (hf : ∀ a, R a → (f a).EndsUnder can R') :
    (p >>= f).EndsUnder can R' := by
  induction p with
  | ret a => exact hf a hp
  | throw => trivial
  | call c k ih => exact fun r hr => ih r (hp r hr)

/-- One call in front of the rest. -/
theorem EndsUnder.perform {R : α → Prop} {c : S.Call} {f : S.Reply c → Prog S α}
    (hf : ∀ r, can c r → (f r).EndsUnder can R) : (Prog.call c .ret >>= f).EndsUnder can R := hf

/-- What comes first does not matter where the rest ends so in any case. -/
theorem EndsUnder.tail {R : β → Prop} (p : Prog S α) {f : α → Prog S β}
    (hf : ∀ a, (f a).EndsUnder can R) : (p >>= f).EndsUnder can R := by
  induction p with
  | ret a => exact hf a
  | throw => trivial
  | call c k ih => exact fun r _ => ih r

/-- With replies of `can`, the thread that runs `p` and goes on at the control points that its
`body` leads to comes to an end. -/
inductive Winds (can : (c : S.Call) → S.Reply c → Prop) (body : Pc → Prog S (Option Pc)) :
    Prog S (Option Pc) → Prop where
  | ended : Winds can body (.ret none)
  | threw : Winds can body .throw
  | turn {pc : Pc} : Winds can body (body pc) → Winds can body (.ret (some pc))
  | call {c : S.Call} {k : S.Reply c → Prog S (Option Pc)} :
      (∀ r, can c r → Winds can body (k r)) → Winds can body (.call c k)

variable {body : Pc → Prog S (Option Pc)}

/-- A program comes to an end where every control point that it leads to does. -/
theorem EndsUnder.winds {p : Prog S (Option Pc)}
    (h : p.EndsUnder can fun next => ∀ pc, next = some pc → Winds can body (body pc)) :
    Winds can body p := by
  induction p with
  | ret next =>
    cases next with
    | none => exact .ended
    | some pc => exact .turn (h pc rfl)
  | throw => exact .threw
  | call c k ih => exact .call fun r hr => ih r (h r hr)

/-- The last turn. -/
theorem EndsUnder.winds_none {p : Prog S (Option Pc)} (h : p.EndsUnder can (· = none)) :
    Winds can body p := by
  induction p with
  | ret next =>
    rw [show next = none from h]
    exact .ended
  | throw => exact .threw
  | call c k ih => exact .call fun r hr => ih r (h r hr)

/-- Where the code comes to an end from all control points, it does from the middle of a body. -/
theorem winds_of_body (h : ∀ pc, Winds can body (body pc)) (p : Prog S (Option Pc)) :
    Winds can body p := by
  induction p with
  | ret next =>
    cases next with
    | none => exact .ended
    | some pc => exact .turn (h pc)
  | throw => exact .threw
  | call c k ih => exact .call fun r _ => ih r

end Prog

variable {S : Signature} {T W E : Type} {K : Code S T}

/-- The step is one of thread `t`. -/
def Label.isOf (t : T) : Label S T E → Prop
  | .act u _ _ | .resume u => u = t
  | .env _ => False

section

variable [DecidableEq T] {M : Machine S T W E}

/-- The steps of the others leave a thread where it is. -/
theorem Step.prog_of_others {a b : Config K W} {l : Label S T E} {t : T} (h : Step M a l b)
    (hl : ¬ l.isOf t) : b.prog t = a.prog t := by
  cases h with
  | act _ _ => exact Function.update_of_ne (fun ht => hl ht.symm) ..
  | resume _ => exact Function.update_of_ne (fun ht => hl ht.symm) ..
  | env _ => rfl

/-- A step of a thread makes its next call, or begins its next turn. -/
theorem Step.prog_of_own {a b : Config K W} {l : Label S T E} {t : T} (h : Step M a l b)
    (hl : l.isOf t) :
    (∃ c k r, l = .act t c r ∧ a.prog t = .call c k ∧ b.prog t = k r) ∨
      ∃ pc, a.prog t = .ret (some pc) ∧ b.prog t = K.body t pc := by
  cases h with
  | act hcall _ =>
    cases hl
    exact .inl ⟨_, _, _, rfl, hcall, Function.update_self ..⟩
  | resume hret =>
    cases hl
    exact .inr ⟨_, hret, Function.update_self ..⟩
  | env _ => contradiction

/-- What a call has done to the world. -/
theorem Step.world_of_act {a b : Config K W} {t : T} {c : S.Call} {r : S.Reply c}
    (h : Step M a (.act t c r) b) : M.act t c r a.world = some b.world := by
  cases h with
  | act _ hact => exact hact

/-- An execution that never stops. -/
structure Endless (M : Machine S T W E) (K : Code S T) where
  config : Nat → Config K W
  label : Nat → Label S T E
  step : ∀ n, Step M (config n) (label n) (config (n + 1))

namespace Endless

variable (σ : Endless M K)

/-- What an endless execution passes through is reachable from where it has been before. -/
theorem run (n k : Nat) : Run M anyStep (σ.config n) (σ.config (n + k)) := by
  induction k with
  | zero => exact .refl
  | succ k ih => exact ih.step trivial (σ.step (n + k))

/-- One step in front of an endless execution. -/
def cons {a : Config K W} {l : Label S T E} (h : Step M a l (σ.config 0)) : Endless M K where
  config
    | 0 => a
    | n + 1 => σ.config n
  label
    | 0 => l
    | n + 1 => σ.label n
  step
    | 0 => h
    | n + 1 => σ.step n

/-- A run in front of an endless execution. -/
theorem prepend {ok : W → Label S T E → Prop} {a b : Config K W} (h : Run M ok a b)
    (hb : σ.config 0 = b) :
    ∃ (τ : Endless M K) (n : Nat), τ.config 0 = a ∧ ∀ m, τ.config (n + m) = σ.config m := by
  induction h generalizing σ with
  | refl => exact ⟨σ, 0, hb, fun m => by rw [Nat.zero_add]⟩
  | step _ _ hs ih =>
    subst hb
    obtain ⟨τ, n, hstart, hrest⟩ := ih (σ.cons hs) rfl
    refine ⟨τ, n + 1, hstart, fun m => ?_⟩
    rw [Nat.add_assoc, Nat.add_comm 1 m, hrest]
    rfl

variable {σ} {t : T} {n : Nat}

/-- Between its steps a thread stays where it is. -/
theorem prog_of_idle {k : Nat} (h : ∀ m, n ≤ m → m < n + k → ¬ (σ.label m).isOf t) :
    (σ.config (n + k)).prog t = (σ.config n).prog t := by
  induction k with
  | zero => rfl
  | succ k ih =>
    have hbefore := ih fun m hn hm => h m hn (by omega)
    rw [← hbefore]
    exact (σ.step (n + k)).prog_of_others (h (n + k) (by omega) (by omega))

/-- A thread that makes a step at all makes a next one. -/
theorem next_step (h : ∃ m, n ≤ m ∧ (σ.label m).isOf t) :
    ∃ m, n ≤ m ∧ ((∃ c k r, σ.label m = .act t c r ∧ (σ.config n).prog t = .call c k ∧
        (σ.config (m + 1)).prog t = k r) ∨
      ∃ pc, (σ.config n).prog t = .ret (some pc) ∧ (σ.config (m + 1)).prog t = K.body t pc) := by
  classical
  obtain ⟨hle, hof⟩ := Nat.find_spec h
  have hidle : ∀ m, n ≤ m → m < n + (Nat.find h - n) → ¬ (σ.label m).isOf t := by
    intro m hn hm hl
    exact Nat.find_min h (by omega) ⟨hn, hl⟩
  have hprog := prog_of_idle hidle
  rw [show n + (Nat.find h - n) = Nat.find h from by omega] at hprog
  have hs := (σ.step (Nat.find h)).prog_of_own hof
  rw [hprog] at hs
  exact ⟨Nat.find h, hle, hs⟩

/-- A thread whose code comes to an end with the replies that it gets from some step on makes
finitely many steps more. -/
theorem quiets {can : (c : S.Call) → S.Reply c → Prop}
    (hcan : ∀ m, n ≤ m → ∀ c r, σ.label m = .act t c r → can c r)
    (h : Prog.Winds can (K.body t) ((σ.config n).prog t)) :
    ∃ N, n ≤ N ∧ ∀ m, N ≤ m → ¬ (σ.label m).isOf t := by
  generalize hp : (σ.config n).prog t = p at h
  induction h generalizing n with
  | ended =>
    refine ⟨n, Nat.le_refl n, fun m hm hl => ?_⟩
    obtain ⟨_, -, ⟨c, k, r, -, hcall, -⟩ | ⟨pc, hret, -⟩⟩ := next_step ⟨m, hm, hl⟩
    · simp [hp] at hcall
    · simp [hp] at hret
  | threw =>
    refine ⟨n, Nat.le_refl n, fun m hm hl => ?_⟩
    obtain ⟨_, -, ⟨c, k, r, -, hcall, -⟩ | ⟨pc, hret, -⟩⟩ := next_step ⟨m, hm, hl⟩
    · simp [hp] at hcall
    · simp [hp] at hret
  | @turn pc _ ih =>
    by_cases hex : ∃ m, n ≤ m ∧ (σ.label m).isOf t
    · obtain ⟨m, hm, ⟨c, k, r, -, hcall, -⟩ | ⟨pc', hret, hnext⟩⟩ := next_step hex
      · simp [hp] at hcall
      · simp only [hp, Prog.ret.injEq, Option.some.injEq] at hret
        rw [← hret] at hnext
        obtain ⟨N, hN, hquiet⟩ := ih (fun m' hm' => hcan m' (by omega)) hnext
        exact ⟨N, by omega, hquiet⟩
    · exact ⟨n, Nat.le_refl n, fun m hm hl => hex ⟨m, hm, hl⟩⟩
  | @call c k _ ih =>
    by_cases hex : ∃ m, n ≤ m ∧ (σ.label m).isOf t
    · obtain ⟨m, hm, ⟨c', k', r, hlabel, hcall, hnext⟩ | ⟨pc', hret, -⟩⟩ := next_step hex
      · rw [hp] at hcall
        cases hcall
        have hr := hcan m hm c r hlabel
        obtain ⟨N, hN, hquiet⟩ := ih r hr (fun m' hm' => hcan m' (by omega)) hnext
        exact ⟨N, by omega, hquiet⟩
      · simp [hp] at hret
    · exact ⟨n, Nat.le_refl n, fun m hm hl => hex ⟨m, hm, hl⟩⟩

/-- Of finitely many threads that all fall silent, one is the last. -/
theorem quiets_all {ts : List T}
    (h : ∀ t ∈ ts, ∃ N, ∀ m, N ≤ m → ¬ (σ.label m).isOf t) :
    ∃ N, ∀ t ∈ ts, ∀ m, N ≤ m → ¬ (σ.label m).isOf t := by
  induction ts with
  | nil => exact ⟨0, by simp⟩
  | cons t ts ih =>
    obtain ⟨N, hN⟩ := h t (by simp)
    obtain ⟨N', hN'⟩ := ih fun u hu => h u (by simp [hu])
    refine ⟨max N N', fun u hu m hm => ?_⟩
    rcases List.mem_cons.mp hu with rfl | hu
    · exact hN m (by omega)
    · exact hN' u hu m (by omega)

end Endless

end

end Interaction

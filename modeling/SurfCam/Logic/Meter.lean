import SurfCam.Logic.Program

/-!
# What a program spends

Every call has a cost.  What a program spends, whatever the replies, is bounded piece by piece; a
meter adds the costs up from the last reply that reset it.
-/

namespace Interaction

namespace Prog

variable {S : Signature} {α β : Type} {cost : S.Call → Nat}

/-- Whatever the replies, the calls of the program cost at most so much. -/
def Spends (cost : S.Call → Nat) : Prog S α → Nat → Prop
  | ret _, _ => True
  | throw, _ => True
  | call c k, n => cost c ≤ n ∧ ∀ r, (k r).Spends cost (n - cost c)

theorem Spends.mono {p : Prog S α} {m n : Nat} (h : p.Spends cost m) (hmn : m ≤ n) :
    p.Spends cost n := by
  induction p generalizing m n with
  | ret a => trivial
  | throw => trivial
  | call c k ih => exact ⟨Nat.le_trans h.1 hmn, fun r => ih r (h.2 r) (by omega)⟩

theorem Spends.call (c : S.Call) : (Prog.call c .ret : Prog S (S.Reply c)).Spends cost (cost c) :=
  ⟨Nat.le_refl _, fun _ => trivial⟩

theorem Spends.bind {p : Prog S α} {f : α → Prog S β} {m n : Nat} (hp : p.Spends cost m)
    (hf : ∀ a, (f a).Spends cost n) : (p >>= f).Spends cost (m + n) := by
  induction p generalizing m with
  | ret a => exact (hf a).mono (by omega)
  | throw => trivial
  | call c k ih =>
    have hcost := hp.1
    refine ⟨by omega, fun r => ?_⟩
    have hrest := ih r (hp.2 r)
    rwa [show m - cost c + n = m + n - cost c from by omega] at hrest

theorem Spends.tryCatch {p h : Prog S α} {m n : Nat} (hp : p.Spends cost m)
    (hh : h.Spends cost n) : (p.tryCatch h).Spends cost (m + n) := by
  induction p generalizing m with
  | ret a => trivial
  | throw => exact hh.mono (by omega)
  | call c k ih =>
    have hcost := hp.1
    refine ⟨by omega, fun r => ?_⟩
    have hrest := ih r (hp.2 r)
    rwa [show m - cost c + n = m + n - cost c from by omega] at hrest

theorem Spends.ensuring {p : Prog S α} {cleanup : Prog S Unit} {m n : Nat}
    (hp : p.Spends cost m) (hc : cleanup.Spends cost n) :
    (p.ensuring cleanup).Spends cost (m + n) := by
  induction p generalizing m with
  | ret a =>
    rw [Nat.add_comm]
    exact hc.bind fun _ => trivial
  | throw =>
    rw [Nat.add_comm]
    exact hc.bind fun _ => trivial
  | call c k ih =>
    have hcost := hp.1
    refine ⟨by omega, fun r => ?_⟩
    have hrest := ih r (hp.2 r)
    rwa [show m - cost c + n = m + n - cost c from by omega] at hrest

/-- What costs nothing may stand in front. -/
theorem Spends.after {p : Prog S α} {f : α → Prog S β} {n : Nat} (hp : p.Spends cost 0)
    (hf : ∀ a, (f a).Spends cost n) : (p >>= f).Spends cost n := by
  have h := hp.bind hf
  rwa [Nat.zero_add] at h

/-- And behind. -/
theorem Spends.before {p : Prog S α} {f : α → Prog S β} {n : Nat} (hp : p.Spends cost n)
    (hf : ∀ a, (f a).Spends cost 0) : (p >>= f).Spends cost n := hp.bind hf

/-- A destructor that costs nothing. -/
theorem Spends.scope {p : Prog S α} {cleanup : Prog S Unit} {n : Nat} (hp : p.Spends cost n)
    (hc : cleanup.Spends cost 0) : (p.ensuring cleanup).Spends cost n := hp.ensuring hc

/-- A handler that costs nothing. -/
theorem Spends.handled {p h : Prog S α} {n : Nat} (hp : p.Spends cost n)
    (hh : h.Spends cost 0) : (p.tryCatch h).Spends cost n := hp.tryCatch hh

theorem Spends.ite {c : Prop} [Decidable c] {p q : Prog S α} {n : Nat} (hp : p.Spends cost n)
    (hq : q.Spends cost n) : (if c then p else q).Spends cost n := by
  split
  · exact hp
  · exact hq

theorem Spends.when (b : Bool) {p : Prog S Unit} {n : Nat} (hp : p.Spends cost n) :
    (Prog.when b p).Spends cost n := by
  cases b with
  | true => exact hp
  | false => trivial

/-- Code whose calls and parts cost nothing. -/
theorem spends_of_built {P : S.Call → Prop} {X : ∀ α : Type, Prog S α → Prop} {p : Prog S α}
    (hP : ∀ c, P c → cost c = 0) (hX : ∀ α p, X α p → p.Spends cost 0) (hp : p.Built P X) :
    p.Spends cost 0 := by
  induction hp with
  | ret a => trivial
  | throw => trivial
  | @call c hc =>
    rw [← hP c hc]
    exact .call c
  | part hx => exact hX _ _ hx
  | bind _ _ ihp ihf => exact ihp.bind ihf
  | tryCatch _ _ ihp ihh => exact ihp.tryCatch ihh
  | ensuring _ _ ihp ihc => exact ihp.ensuring ihc

end Prog

/-! ## Meters -/

section

variable {S : Signature} {α β : Type}

/-- The costs since the last reply that reset the meter; a call must not take it beyond the
budget. -/
def meter (cost : S.Call → Nat) (resets : (c : S.Call) → S.Reply c → Bool) (budget : Nat) :
    Local S Nat where
  step c r v := some (if resets c r then 0 else v + cost c)
  ok c v := v + cost c ≤ budget

variable {cost : S.Call → Nat} {resets : (c : S.Call) → S.Reply c → Bool} {budget : Nat}

theorem meter_ok {c : S.Call} {v : Nat} :
    (meter cost resets budget).ok c v ↔ v + cost c ≤ budget := Iff.rfl

theorem meter_step {c : S.Call} {r : S.Reply c} {v v' : Nat} :
    (meter cost resets budget).step c r v = some v' ↔
      (if resets c r then 0 else v + cost c) = v' := by
  unfold meter
  simp

/-- A program that spends no more than the budget has left. -/
theorem wlp_of_spends {p : Prog S α} {n v : Nat} (h : p.Spends cost n) (hv : v + n ≤ budget) :
    (meter cost resets budget).wlp p (fun _ v' => v' ≤ v + n) (fun v' => v' ≤ v + n) v := by
  induction p generalizing n v with
  | ret a => exact Nat.le_add_right v n
  | throw => exact Nat.le_add_right v n
  | call c k ih =>
    have hcost := h.1
    refine ⟨meter_ok.mpr (by omega), fun r v' hs => ?_⟩
    have hv' : v' ≤ v + cost c := by
      rw [← meter_step.mp hs]
      split <;> omega
    have hrest := ih r (v := v') (h.2 r) (by omega)
    exact Local.wlp_mono hrest (fun _ u hu => by omega) fun u hu => by omega

/-- A program that spends no more than the budget has left, in front of the rest. -/
theorem wlp_spends_bind {p : Prog S α} {f : α → Prog S β} {Q : β → Nat → Prop} {E : Nat → Prop}
    {n v : Nat} (h : p.Spends cost n) (hv : v + n ≤ budget) (hE : ∀ v', v' ≤ v + n → E v')
    (hf : ∀ a v', v' ≤ v + n → (meter cost resets budget).wlp (f a) Q E v') :
    (meter cost resets budget).wlp (p >>= f) Q E v :=
  Local.wlp_bind_of (Local.wlp_mono (wlp_of_spends h hv) (fun _ _ h => h) hE) hf

end

end Interaction

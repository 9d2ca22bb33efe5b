import SurfCam.Logic.Trace

/-!
# Simulation

A program and a coarser one.  An abstraction goes along with the calls of the first one: a call of it
either happens inside one of the second, or it is the next call of the second, with the reply that
its own reply stands for.
-/

namespace Interaction

/-- What the calls of `S` look like from `S'`. -/
structure Abstraction (S S' : Signature) (V : Type) where
  /-- The replies that are spoken of. -/
  allows : (c : S.Call) → S.Reply c → Bool
  next : (c : S.Call) → S.Reply c → V → V
  shows : (c : S.Call) → S.Reply c → V → Option (Event S')

variable {S S' : Signature} {V α β γ δ : Type}

namespace Abstraction

variable (A : Abstraction S S' V)

/-- The calls of the coarser program that a list of calls amounts to. -/
def image : V → List (Event S) → List (Event S')
  | _, [] => []
  | v, e :: events => (A.shows e.1 e.2 v).toList ++ image (A.next e.1 e.2 v) events

/-- `q` does what `p` does, and their values are related where they end. -/
def Simulates : Prog S α → Prog S' β → (α → β → V → Prop) → V → Prop
  | .ret a, q, Φ, v => ∃ b, q = .ret b ∧ Φ a b v
  | .throw, q, _, _ => q = .throw
  | .call c k, q, Φ, v => ∀ r, A.allows c r = true →
      (A.shows c r v = none → Simulates (k r) q Φ (A.next c r v)) ∧
        ∀ c' r', A.shows c r v = some ⟨c', r'⟩ →
          ∃ k', q = .call c' k' ∧ Simulates (k r) (k' r') Φ (A.next c r v)

variable {A} {v : V}

theorem simulates_ret {a : α} {b : β} {Φ : α → β → V → Prop} (h : Φ a b v) :
    A.Simulates (.ret a) (.ret b) Φ v := ⟨b, rfl, h⟩

/-- A call of `p` that `q` knows nothing of. -/
theorem simulates_inside {c : S.Call} {f : S.Reply c → Prog S α} {q : Prog S' β}
    {Φ : α → β → V → Prop} (hc : ∀ r, A.shows c r v = none)
    (hf : ∀ r, A.allows c r = true → A.Simulates (f r) q Φ (A.next c r v)) :
    A.Simulates (.call c .ret >>= f) q Φ v := by
  intro r hr
  refine ⟨fun _ => hf r hr, fun c' r' hs => ?_⟩
  rw [hc r] at hs
  contradiction

/-- A call of `p` that is one of `q`. -/
theorem simulates_call {c : S.Call} {c' : S'.Call} {f : S.Reply c → Prog S α}
    {g : S'.Reply c' → Prog S' β} {Φ : α → β → V → Prop} (reply : S.Reply c → S'.Reply c')
    (hc : ∀ r, A.shows c r v = some ⟨c', reply r⟩)
    (hf : ∀ r, A.allows c r = true → A.Simulates (f r) (g (reply r)) Φ (A.next c r v)) :
    A.Simulates (.call c .ret >>= f) (.call c' .ret >>= g) Φ v := by
  intro r hr
  refine ⟨fun hs => ?_, fun c'' r'' hs => ?_⟩
  · rw [hc r] at hs
    contradiction
  · rw [hc r] at hs
    cases hs
    exact ⟨g, rfl, hf r hr⟩

theorem Simulates.bind {p : Prog S α} {q : Prog S' β} {Φ : α → β → V → Prop}
    {f : α → Prog S γ} {g : β → Prog S' δ} {Ψ : γ → δ → V → Prop} (hp : A.Simulates p q Φ v)
    (hf : ∀ a b v, Φ a b v → A.Simulates (f a) (g b) Ψ v) :
    A.Simulates (p >>= f) (q >>= g) Ψ v := by
  induction p generalizing q v with
  | ret a =>
    obtain ⟨b, rfl, hab⟩ := hp
    exact hf a b v hab
  | throw =>
    have hq : q = .throw := hp
    rw [hq]
    rfl
  | call c k ih =>
    intro r hr
    obtain ⟨hinside, hcall⟩ := hp r hr
    refine ⟨fun hs => ih r (hinside hs), fun c' r' hs => ?_⟩
    obtain ⟨k', rfl, hk⟩ := hcall c' r' hs
    exact ⟨fun r' => k' r' >>= g, rfl, ih r hk⟩

/-- Code of `p` that `q` knows nothing of, in front of the rest. -/
theorem Simulates.before {p : Prog S α} {f : α → Prog S γ} {q : Prog S' δ}
    {Φ : α → V → Prop} {Ψ : γ → δ → V → Prop}
    (hp : A.Simulates p (.ret ()) (fun a _ => Φ a) v)
    (hf : ∀ a v, Φ a v → A.Simulates (f a) q Ψ v) : A.Simulates (p >>= f) q Ψ v :=
  hp.bind (g := fun _ => q) fun a _ v h => hf a v h

/-- An execution of `p` with replies that are spoken of is one of `q`, as far as `q` knows. -/
theorem exec_image {p : Prog S α} {q : Prog S' α} {events : List (Event S)} {o : Option α}
    (h : A.Simulates p q (fun a b _ => a = b) v) (he : Exec p events o)
    (hallows : ∀ e ∈ events, A.allows e.1 e.2 = true) : Exec q (A.image v events) o := by
  induction he generalizing q v with
  | ret a =>
    obtain ⟨b, rfl, rfl⟩ := h
    exact .ret a
  | throw =>
    have hq : q = .throw := h
    rw [hq]
    exact .throw
  | @call c k r events o _ ih =>
    obtain ⟨hinside, hcall⟩ := h r (hallows ⟨c, r⟩ (by simp))
    have hrest : ∀ e ∈ events, A.allows e.1 e.2 = true := fun e he => hallows e (by simp [he])
    cases hs : A.shows c r v with
    | none =>
      simp only [image, hs, Option.toList_none, List.nil_append]
      exact ih (hinside hs) hrest
    | some e =>
      obtain ⟨k', rfl, hk⟩ := hcall e.1 e.2 hs
      simp only [image, hs, Option.toList_some, List.singleton_append]
      exact .call (ih hk hrest)

end Abstraction

end Interaction

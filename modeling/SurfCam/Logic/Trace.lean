import SurfCam.Logic.Program

/-!
# Executions

One program alone, whatever its calls are answered: the calls that it makes with their replies, in
order, and how it ends.  An observer goes through such a list; what a `Local` semantics proves about
the observer's state holds at the end of every execution.
-/

namespace Interaction

variable {S : Signature} {α β V : Type}

/-- A call and its reply. -/
abbrev Event (S : Signature) : Type := (c : S.Call) × S.Reply c

/-- `p` can make the calls of the list with these replies, and ends with the value, or with an
exception where there is none. -/
inductive Exec : Prog S α → List (Event S) → Option α → Prop where
  | ret (a : α) : Exec (.ret a) [] (some a)
  | throw : Exec .throw [] none
  | call {c : S.Call} {k : S.Reply c → Prog S α} {r : S.Reply c} {events : List (Event S)}
      {o : Option α} : Exec (k r) events o → Exec (.call c k) (⟨c, r⟩ :: events) o

/-! ## Taking an execution apart -/

section

variable {events : List (Event S)} {o : Option α}

theorem exec_ret {a : α} (h : Exec (.ret a) events o) : events = [] ∧ o = some a := by
  cases h
  exact ⟨rfl, rfl⟩

theorem exec_call {c : S.Call} {f : S.Reply c → Prog S α} (h : Exec (.call c .ret >>= f) events o) :
    ∃ r rest, events = ⟨c, r⟩ :: rest ∧ Exec (f r) rest o := by
  cases h with
  | call h => exact ⟨_, _, rfl, h⟩

theorem exec_bind {p : Prog S α} {f : α → Prog S β} {b : β} (h : Exec (p >>= f) events (some b)) :
    ∃ a first rest, events = first ++ rest ∧ Exec p first (some a) ∧ Exec (f a) rest (some b) := by
  induction p generalizing events with
  | ret a => exact ⟨a, [], events, rfl, .ret a, h⟩
  | throw => cases h
  | call c k ih =>
    cases h with
    | @call _ _ r _ _ h =>
      obtain ⟨a, first, rest, rfl, hp, hf⟩ := ih r h
      exact ⟨a, ⟨c, r⟩ :: first, rest, rfl, .call hp, hf⟩

end

/-! ## Replaying -/

/-- The replies come from a state that goes along with the calls, as long as it has one. -/
def Prog.replay {σ : Type} (answer : σ → (c : S.Call) → Option (S.Reply c × σ)) :
    Prog S α → σ → Option (List (Event S) × Option α)
  | ret a, _ => some ([], some a)
  | throw, _ => some ([], none)
  | call c k, s =>
    match answer s c with
    | none => none
    | some (r, s) => ((k r).replay answer s).map fun (events, o) => (⟨c, r⟩ :: events, o)

theorem exec_of_replay {σ : Type} {answer : σ → (c : S.Call) → Option (S.Reply c × σ)}
    {p : Prog S α} {s : σ} {x : List (Event S) × Option α} (h : p.replay answer s = some x) :
    Exec p x.1 x.2 := by
  induction p generalizing s x with
  | ret a =>
    rw [← Option.some.inj h]
    exact .ret a
  | throw =>
    rw [← Option.some.inj h]
    exact .throw
  | call c k ih =>
    rw [Prog.replay] at h
    split at h
    · cases h
    · obtain ⟨y, hy, rfl⟩ := Option.map_eq_some_iff.mp h
      exact .call (ih _ hy)

/-- What holds of every answer holds of the events. -/
theorem events_of_replay {σ : Type} {answer : σ → (c : S.Call) → Option (S.Reply c × σ)}
    {P : (c : S.Call) → S.Reply c → Prop}
    (hP : ∀ s c r s', answer s c = some (r, s') → P c r) {p : Prog S α} {s : σ}
    {x : List (Event S) × Option α} (h : p.replay answer s = some x) : ∀ e ∈ x.1, P e.1 e.2 := by
  induction p generalizing s x with
  | ret a =>
    rw [← Option.some.inj h]
    exact fun e he => absurd he List.not_mem_nil
  | throw =>
    rw [← Option.some.inj h]
    exact fun e he => absurd he List.not_mem_nil
  | call c k ih =>
    rw [Prog.replay] at h
    split at h
    · cases h
    next r s' hr =>
      obtain ⟨y, hy, rfl⟩ := Option.map_eq_some_iff.mp h
      exact List.forall_mem_cons.mpr ⟨hP s c r s' hr, ih r hy⟩

/-- Some execution with answers of which `P` holds is one that a (decided) test accepts. -/
theorem replay_reaches_with {σ : Type} (answer : σ → (c : S.Call) → Option (S.Reply c × σ))
    {P : (c : S.Call) → S.Reply c → Prop} (hP : ∀ s c r s', answer s c = some (r, s') → P c r)
    (p : Prog S α) (s : σ) (test : List (Event S) × Option α → Bool)
    (h : (p.replay answer s).any test = true) :
    ∃ events o, Exec p events o ∧ (∀ e ∈ events, P e.1 e.2) ∧ test (events, o) = true := by
  cases hx : p.replay answer s with
  | none =>
    rw [hx] at h
    cases h
  | some x =>
    rw [hx] at h
    exact ⟨x.1, x.2, exec_of_replay hx, events_of_replay hP hx, h⟩

/-- The same, whatever the answers are. -/
theorem replay_reaches {σ : Type} (answer : σ → (c : S.Call) → Option (S.Reply c × σ))
    (p : Prog S α) (s : σ) (test : List (Event S) × Option α → Bool)
    (h : (p.replay answer s).any test = true) :
    ∃ events o, Exec p events o ∧ test (events, o) = true := by
  have hnothing : ∀ s c r s', answer s c = some (r, s') → True := fun _ _ _ _ _ => trivial
  obtain ⟨events, o, hexec, -, htest⟩ := replay_reaches_with answer hnothing p s test h
  exact ⟨events, o, hexec, htest⟩

/-! ## Fixed answers -/

section

variable (answer : (c : S.Call) → S.Reply c)

/-- The execution in which every call gets its fixed answer. -/
def Prog.eval : Prog S α → List (Event S) × Option α
  | ret a => ([], some a)
  | throw => ([], none)
  | call c k =>
    let (events, o) := (k (answer c)).eval
    (⟨c, answer c⟩ :: events, o)

variable {answer}

/-- With these answers `p` ends with the value `a`, and the events `us` are of interest. -/
def Does {U : Type} (answer : (c : S.Call) → S.Reply c) (of : Event S → Option U) (p : Prog S α)
    (us : List U) (a : α) : Prop :=
  (p.eval answer).1.filterMap of = us ∧ (p.eval answer).2 = some a

variable {U : Type} {of : Event S → Option U} {us us' : List U} {p : Prog S α} {a : α}

theorem Does.ret : Does answer of (.ret a) [] a := ⟨rfl, rfl⟩

/-- A call of no interest. -/
theorem Does.skip {c : S.Call} {k : S.Reply c → Prog S α} (hc : of ⟨c, answer c⟩ = none)
    (h : Does answer of (k (answer c)) us a) : Does answer of (.call c k) us a := by
  refine ⟨?_, h.2⟩
  show (⟨c, answer c⟩ :: ((k (answer c)).eval answer).1).filterMap of = us
  rw [List.filterMap_cons_none hc]
  exact h.1

theorem Does.note {c : S.Call} {k : S.Reply c → Prog S α} {u : U}
    (hc : of ⟨c, answer c⟩ = some u) (h : Does answer of (k (answer c)) us a) :
    Does answer of (.call c k) (u :: us) a := by
  refine ⟨?_, h.2⟩
  show (⟨c, answer c⟩ :: ((k (answer c)).eval answer).1).filterMap of = u :: us
  rw [List.filterMap_cons_some hc]
  exact congrArg _ h.1

theorem Does.bind {β : Type} {f : α → Prog S β} {b : β} (hp : Does answer of p us a)
    (hf : Does answer of (f a) us' b) : Does answer of (p >>= f) (us ++ us') b := by
  induction p generalizing us with
  | ret x =>
    obtain ⟨rfl, hx⟩ := hp
    cases hx
    exact hf
  | throw => cases hp.2
  | call c k ih =>
    -- the events of interest behind the first call, which may be one itself
    have hrest : Does answer of (k (answer c) >>= f)
        (((k (answer c)).eval answer).1.filterMap of ++ us') b := ih (answer c) ⟨rfl, hp.2⟩
    obtain ⟨rfl, -⟩ := hp
    refine ⟨?_, hrest.2⟩
    show (⟨c, answer c⟩ :: ((k (answer c) >>= f).eval answer).1).filterMap of =
      (⟨c, answer c⟩ :: ((k (answer c)).eval answer).1).filterMap of ++ us'
    rw [List.filterMap_cons, List.filterMap_cons, hrest.1]
    cases of ⟨c, answer c⟩ with
    | none => rfl
    | some u => rfl

end

/-! ## Observers -/

/-- What an observer has seen after the events. -/
def observed (see : (c : S.Call) → S.Reply c → V → V) (v : V) (events : List (Event S)) : V :=
  events.foldl (fun v e => see e.1 e.2 v) v

/-- The observer that notes every event down, the last one first. -/
def noted (c : S.Call) (r : S.Reply c) (seen : List (Event S)) : List (Event S) := ⟨c, r⟩ :: seen

theorem observed_noted (seen events : List (Event S)) :
    observed noted seen events = events.reverse ++ seen := by
  induction events generalizing seen with
  | nil => rfl
  | cons e events ih =>
    show observed noted (e :: seen) events = _
    rw [ih, List.reverse_cons, List.append_assoc, List.singleton_append]

/-- A flag of the observer that is raised by some events is up when one of them has happened. -/
theorem observed_flag {see : (c : S.Call) → S.Reply c → V → V} {flag : V → Bool}
    {mark : (c : S.Call) → S.Reply c → Bool}
    (h : ∀ c r v, flag (see c r v) = (flag v || mark c r)) (v : V) (events : List (Event S)) :
    flag (observed see v events) = (flag v || events.any fun e => mark e.1 e.2) := by
  induction events generalizing v with
  | nil => exact (Bool.or_false _).symm
  | cons e events ih =>
    show flag (observed see (see e.1 e.2 v) events) = _
    rw [ih, h, List.any_cons, Bool.or_assoc]

namespace Local

/-- The semantics of an observer: every reply can come. -/
def observer (see : (c : S.Call) → S.Reply c → V → V) : Local S V where
  step c r v := some (see c r v)
  ok _ _ := True

variable {see : (c : S.Call) → S.Reply c → V → V} {Q : α → V → Prop} {X : V → Prop} {v : V}

@[simp] theorem wlp_observer_call {c : S.Call} {k : S.Reply c → Prog S α} :
    (observer see).wlp (.call c k) Q X v ↔ ∀ r, (observer see).wlp (k r) Q X (see c r v) := by
  constructor
  · exact fun h r => h.2 r _ rfl
  · rintro h
    refine ⟨trivial, fun r v' hv => ?_⟩
    rw [← Option.some.inj hv]
    exact h r

/-- What a program returns, however its calls are answered. -/
theorem wlp_of_returns {L : Local S V} {p : Prog S α} {R : α → Prop} {X' : V → Prop}
    (hp : p.Returns R) (h : L.wlp p Q X v) : L.wlp p (fun a v => R a ∧ Q a v) X' v := by
  induction p generalizing v with
  | ret a => exact ⟨hp, h⟩
  | throw => exact hp.elim
  | call c k ih => exact ⟨h.1, fun r v' hs => ih r (hp r) (h.2 r v' hs)⟩

/-- Code keeps an assertion that its calls and its parts keep. -/
theorem wlp_observer_of_built {P : S.Call → Prop} {X : ∀ α : Type, Prog S α → Prop} {A : V → Prop}
    {p : Prog S α} (hP : ∀ c, P c → ∀ r v, A v → A (see c r v))
    (hX : ∀ α p, X α p → ∀ v, A v → (observer see).wlp p (fun _ => A) A v) (hp : p.Built P X)
    (h : A v) : (observer see).wlp p (fun _ => A) A v := by
  refine wlp_of_built (fun c hc v hv => ⟨trivial, fun r v' hs => ?_⟩) hX hp h
  rw [← Option.some.inj hs]
  exact hP c hc r v hv

end Local

section

variable {see : (c : S.Call) → S.Reply c → V → V} {Q : α → V → Prop} {X : V → Prop} {v : V}
  {p : Prog S α} {events : List (Event S)}

/-- What is proved of an observer holds where an execution returns. -/
theorem Exec.returned {a : α} (h : Exec p events (some a))
    (hp : (Local.observer see).wlp p Q X v) : Q a (observed see v events) := by
  generalize ho : some a = o at h
  induction h generalizing v with
  | ret b => exact Option.some.inj ho ▸ hp
  | throw => cases ho
  | call _ ih => exact ih (Local.wlp_observer_call.mp hp _) ho

/-- And where an exception ends it. -/
theorem Exec.threw (h : Exec p events none) (hp : (Local.observer see).wlp p Q X v) :
    X (observed see v events) := by
  generalize ho : (none : Option α) = o at h
  induction h generalizing v with
  | ret b => cases ho
  | throw => exact hp
  | call _ ih => exact ih (Local.wlp_observer_call.mp hp _) ho

/-- However it ends. -/
theorem Exec.ended {o : Option α} (h : Exec p events o)
    (hp : (Local.observer see).wlp p (fun _ => X) X v) : X (observed see v events) := by
  cases o with
  | some a => exact h.returned hp
  | none => exact h.threw hp

end

end Interaction

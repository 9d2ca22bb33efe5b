import Mathlib.Logic.Function.Basic

/-!
# Programs that call their surroundings

A program is a tree: it ends with a value, ends with an exception, or makes one call and goes on
with the reply.  What a call does is not part of the program; a `Local` semantics (one program,
alone) or a machine (`Logic/Machine.lean`, several programs at once) says so.  Nothing here knows
which calls there are.
-/

namespace Interaction

/-- The calls that programs can make, each with the type of its reply. -/
structure Signature where
  Call : Type
  Reply : Call → Type

/-- A program over the calls of `S`. -/
inductive Prog (S : Signature) (α : Type) : Type where
  | ret (a : α)
  | throw
  | call (c : S.Call) (k : S.Reply c → Prog S α)

namespace Prog

variable {S : Signature} {α β γ : Type}

/-- Sequencing: an exception skips the rest. -/
def bind : Prog S α → (α → Prog S β) → Prog S β
  | ret a, f => f a
  | throw, _ => throw
  | call c k, f => call c fun r => (k r).bind f

instance : Monad (Prog S) where
  pure := ret
  bind := bind

theorem bind_ret (p : Prog S α) : p.bind ret = p := by
  induction p with
  | ret a => rfl
  | throw => rfl
  | call c k ih => exact congrArg (call c) (funext ih)

theorem bind_bind (p : Prog S α) (f : α → Prog S β) (g : β → Prog S γ) :
    (p.bind f).bind g = p.bind fun a => (f a).bind g := by
  induction p with
  | ret a => rfl
  | throw => rfl
  | call c k ih => exact congrArg (call c) (funext ih)

instance : LawfulMonad (Prog S) :=
  LawfulMonad.mk' _ (fun p => bind_ret p) (fun _ _ => rfl) (fun p f g => bind_bind p f g)

/-- One call, whose reply is the value. -/
def perform (c : S.Call) : Prog S (S.Reply c) := call c ret

/-- `try p catch h`. -/
def tryCatch : Prog S α → Prog S α → Prog S α
  | ret a, _ => ret a
  | throw, h => h
  | call c k, h => call c fun r => (k r).tryCatch h

/-- Run `p`, then `cleanup` on both ways out (a destructor at the end of a scope). -/
def ensuring : Prog S α → Prog S Unit → Prog S α
  | ret a, cleanup => cleanup.bind fun _ => ret a
  | throw, cleanup => cleanup.bind fun _ => throw
  | call c k, cleanup => call c fun r => (k r).ensuring cleanup

/-- `if (b) p;` -/
def when (b : Bool) (p : Prog S Unit) : Prog S Unit := if b then p else ret ()

@[simp] theorem when_true (p : Prog S Unit) : when true p = p := rfl

@[simp] theorem when_false (p : Prog S Unit) : when false p = ret () := rfl

@[simp] theorem pure_eq_ret (a : α) : (pure a : Prog S α) = ret a := rfl

@[simp] theorem ret_bind (a : α) (f : α → Prog S β) : (ret a >>= f) = f a := rfl

@[simp] theorem throw_bind (f : α → Prog S β) : ((throw : Prog S α) >>= f) = throw := rfl

@[simp] theorem call_bind (c : S.Call) (k : S.Reply c → Prog S α) (f : α → Prog S β) :
    (call c k >>= f) = call c fun r => k r >>= f := rfl

@[simp] theorem perform_bind (c : S.Call) (f : S.Reply c → Prog S β) :
    (perform c >>= f) = call c f := rfl

/-! ## What a program is put together from -/

/-- `p` is put together from calls of `P` and from the programs of `X`. -/
inductive Built (P : S.Call → Prop) (X : ∀ α : Type, Prog S α → Prop) :
    {α : Type} → Prog S α → Prop where
  | ret {α : Type} (a : α) : Built P X (.ret a)
  | throw {α : Type} : Built P X (.throw : Prog S α)
  | call {c : S.Call} : P c → Built P X (.call c .ret)
  | part {α : Type} {p : Prog S α} : X α p → Built P X p
  | bind {α β : Type} {p : Prog S α} {f : α → Prog S β} :
      Built P X p → (∀ a, Built P X (f a)) → Built P X (p >>= f)
  | tryCatch {α : Type} {p h : Prog S α} : Built P X p → Built P X h → Built P X (p.tryCatch h)
  | ensuring {α : Type} {p : Prog S α} {cleanup : Prog S Unit} :
      Built P X p → Built P X cleanup → Built P X (p.ensuring cleanup)

/-- No programs but the calls themselves. -/
def noParts (α : Type) (_ : Prog S α) : Prop := False

/-- The program `q` as the only part. -/
def onlyPart {β : Type} (q : Prog S β) (α : Type) (p : Prog S α) : Prop :=
  ∃ h : β = α, h ▸ q = p

theorem Built.when {P : S.Call → Prop} {X : ∀ α : Type, Prog S α → Prop} {p : Prog S Unit}
    (b : Bool) (hp : Built P X p) : Built P X (when b p) := by
  cases b with
  | true => exact hp
  | false => exact .ret ()

theorem Built.ite {P : S.Call → Prop} {X : ∀ α : Type, Prog S α → Prop} {c : Prop} [Decidable c]
    {p q : Prog S α} (hp : Built P X p) (hq : Built P X q) : Built P X (if c then p else q) := by
  split
  · exact hp
  · exact hq

theorem Built.mono {P P' : S.Call → Prop} {X : ∀ α : Type, Prog S α → Prop} {p : Prog S α}
    (hp : Built P X p) (h : ∀ c, P c → P' c) : Built P' X p := by
  induction hp with
  | ret a => exact .ret a
  | throw => exact .throw
  | call hc => exact .call (h _ hc)
  | part hx => exact .part hx
  | bind _ _ ihp ihf => exact .bind ihp ihf
  | tryCatch _ _ ihp ihh => exact .tryCatch ihp ihh
  | ensuring _ _ ihp ihc => exact .ensuring ihp ihc

theorem Built.self {P : S.Call → Prop} {q : Prog S β} : Built P (onlyPart q) q :=
  .part ⟨rfl, rfl⟩

/-! ## What a program returns -/

/-- No exception leaves `p`, and it ends with a value of `R`, whatever the replies. -/
def Returns (R : α → Prop) : Prog S α → Prop
  | ret a => R a
  | throw => False
  | call _ k => ∀ r, (k r).Returns R

@[simp] theorem returns_ret (R : α → Prop) (a : α) : (ret a : Prog S α).Returns R ↔ R a := Iff.rfl

@[simp] theorem returns_call (R : α → Prop) (c : S.Call) (k : S.Reply c → Prog S α) :
    (call c k).Returns R ↔ ∀ r, (k r).Returns R := Iff.rfl

theorem Returns.bind {R : α → Prop} {R' : β → Prop} {p : Prog S α} {f : α → Prog S β}
    (hp : p.Returns R) (hf : ∀ a, R a → (f a).Returns R') : (p >>= f).Returns R' := by
  induction p with
  | ret a => exact hf a hp
  | throw => exact hp.elim
  | call c k ih => exact fun r => ih r (hp r)

/-- No exception leaves `p`. -/
abbrev NoThrow (p : Prog S α) : Prop := p.Returns fun _ => True

theorem NoThrow.call (c : S.Call) : NoThrow (.call c .ret : Prog S (S.Reply c)) := fun _ => trivial

theorem NoThrow.bind {p : Prog S α} {f : α → Prog S β} (hp : p.NoThrow) (hf : ∀ a, (f a).NoThrow) :
    (p >>= f).NoThrow :=
  Returns.bind hp fun a _ => hf a

theorem NoThrow.when (b : Bool) {p : Prog S Unit} (hp : p.NoThrow) : (Prog.when b p).NoThrow := by
  cases b with
  | true => exact hp
  | false => trivial

theorem NoThrow.tryCatch (p : Prog S α) {h : Prog S α} (hh : h.NoThrow) :
    (p.tryCatch h).NoThrow := by
  induction p with
  | ret a => trivial
  | throw => exact hh
  | call c k ih => exact fun r => ih r

theorem Returns.tryCatch {R : α → Prop} {p : Prog S α} (h : Prog S α) (hp : p.Returns R) :
    (p.tryCatch h).Returns R := by
  induction p with
  | ret a => exact hp
  | throw => exact hp.elim
  | call c k ih => exact fun r => ih r (hp r)

theorem Returns.ensuring {R : α → Prop} {p : Prog S α} {cleanup : Prog S Unit} (hp : p.Returns R)
    (hc : cleanup.NoThrow) : (p.ensuring cleanup).Returns R := by
  induction p with
  | ret a => exact Returns.bind hc fun _ _ => hp
  | throw => exact hp.elim
  | call c k ih => exact fun r => ih r (hp r)

theorem NoThrow.ensuring {p : Prog S α} {cleanup : Prog S Unit} (hp : p.NoThrow)
    (hc : cleanup.NoThrow) : (p.ensuring cleanup).NoThrow :=
  Returns.ensuring hp hc

/-- If `p` ends with a value, it is one of `R`. -/
def Ends (R : α → Prop) : Prog S α → Prop
  | ret a => R a
  | throw => True
  | call _ k => ∀ r, (k r).Ends R

theorem Ends.bind {R : β → Prop} (p : Prog S α) {f : α → Prog S β} (hf : ∀ a, (f a).Ends R) :
    (p >>= f).Ends R := by
  induction p with
  | ret a => exact hf a
  | throw => trivial
  | call c k ih => exact ih

end Prog

/-! ## One program alone -/

/-- What the calls of one program do to a state `V` that nobody else changes: `step` is undefined
for a reply that cannot come, and `ok` is what a call requires. -/
structure Local (S : Signature) (V : Type) where
  step : (c : S.Call) → S.Reply c → V → Option V
  ok : S.Call → V → Prop

namespace Local

variable {S : Signature} {V α β : Type} (L : Local S V)

/-- The weakest liberal precondition of `p`: every call it makes is `ok`, it returns only where
`Q` holds, and an exception leaves it only where `E` holds. -/
def wlp : Prog S α → (α → V → Prop) → (V → Prop) → V → Prop
  | .ret a, Q, _, v => Q a v
  | .throw, _, E, v => E v
  | .call c k, Q, E, v => L.ok c v ∧ ∀ r v', L.step c r v = some v' → wlp (k r) Q E v'

variable {L}

@[simp] theorem wlp_ret (a : α) (Q : α → V → Prop) (E : V → Prop) (v : V) :
    L.wlp (.ret a) Q E v ↔ Q a v := Iff.rfl

@[simp] theorem wlp_throw (Q : α → V → Prop) (E : V → Prop) (v : V) :
    L.wlp .throw Q E v ↔ E v := Iff.rfl

theorem wlp_call (c : S.Call) (k : S.Reply c → Prog S α) (Q : α → V → Prop) (E : V → Prop)
    (v : V) :
    L.wlp (.call c k) Q E v ↔ L.ok c v ∧ ∀ r v', L.step c r v = some v' → L.wlp (k r) Q E v' :=
  Iff.rfl

theorem wlp_mono {p : Prog S α} {Q Q' : α → V → Prop} {E E' : V → Prop} {v : V}
    (h : L.wlp p Q E v) (hQ : ∀ a v, Q a v → Q' a v) (hE : ∀ v, E v → E' v) :
    L.wlp p Q' E' v := by
  induction p generalizing v with
  | ret a => exact hQ a v h
  | throw => exact hE v h
  | call c k ih => exact ⟨h.1, fun r v' hs => ih r (h.2 r v' hs)⟩

theorem wlp_bind (p : Prog S α) (f : α → Prog S β) (Q : β → V → Prop) (E : V → Prop) (v : V) :
    L.wlp (p >>= f) Q E v ↔ L.wlp p (fun a v => L.wlp (f a) Q E v) E v := by
  induction p generalizing v with
  | ret a => rfl
  | throw => rfl
  | call c k ih =>
    exact and_congr_right fun _ => forall_congr' fun r => forall_congr' fun v' =>
      imp_congr_right fun _ => ih r v'

theorem wlp_tryCatch (p h : Prog S α) (Q : α → V → Prop) (E : V → Prop) (v : V) :
    L.wlp (p.tryCatch h) Q E v ↔ L.wlp p Q (fun v => L.wlp h Q E v) v := by
  induction p generalizing v with
  | ret a => rfl
  | throw => rfl
  | call c k ih =>
    exact and_congr_right fun _ => forall_congr' fun r => forall_congr' fun v' =>
      imp_congr_right fun _ => ih r v'

theorem wlp_ensuring (p : Prog S α) (cleanup : Prog S Unit) (Q : α → V → Prop) (E : V → Prop)
    (v : V) :
    L.wlp (p.ensuring cleanup) Q E v ↔
      L.wlp p (fun a v => L.wlp cleanup (fun _ v => Q a v) E v)
        (fun v => L.wlp cleanup (fun _ v => E v) E v) v := by
  induction p generalizing v with
  -- behind a normal end the clean-up is followed by the value, behind an exception by the exception
  | ret a => exact wlp_bind cleanup (fun _ => .ret a) Q E v
  | throw => exact wlp_bind cleanup (fun _ => .throw) Q E v
  | call c k ih =>
    exact and_congr_right fun _ => forall_congr' fun r => forall_congr' fun v' =>
      imp_congr_right fun _ => ih r v'

/-- The rule of consequence at a call of a helper: its contract in front of the rest. -/
theorem wlp_bind_of {p : Prog S α} {f : α → Prog S β} {Q : α → V → Prop} {Q' : β → V → Prop}
    {E : V → Prop} {v : V} (hp : L.wlp p Q E v) (hf : ∀ a v, Q a v → L.wlp (f a) Q' E v) :
    L.wlp (p >>= f) Q' E v :=
  (wlp_bind p f Q' E v).mpr (wlp_mono hp hf fun _ h => h)

/-- The same for a helper that keeps an assertion on both ways out. -/
theorem wlp_bind_of_kept {A : V → Prop} {p : Prog S α} {f : α → Prog S β} {Q : β → V → Prop}
    {E : V → Prop} {v : V} (hp : L.wlp p (fun _ => A) A v) (hE : ∀ v, A v → E v)
    (hf : ∀ a v, A v → L.wlp (f a) Q E v) : L.wlp (p >>= f) Q E v :=
  (wlp_bind p f Q E v).mpr (wlp_mono hp hf hE)

/-- The handler takes over from what an exception leaves. -/
theorem wlp_tryCatch_of {p h : Prog S α} {Q : α → V → Prop} {F E : V → Prop} {v : V}
    (hp : L.wlp p Q F v) (hh : ∀ v, F v → L.wlp h Q E v) : L.wlp (p.tryCatch h) Q E v :=
  (wlp_tryCatch p h Q E v).mpr (wlp_mono hp (fun _ _ hq => hq) hh)

/-- A clean-up that no assertion depends on. -/
theorem wlp_ensuring_of {p : Prog S α} {cleanup : Prog S Unit} {Q : α → V → Prop} {E : V → Prop}
    {v : V} (hc : ∀ (P : V → Prop) v, P v → L.wlp cleanup (fun _ => P) E v) (hp : L.wlp p Q E v) :
    L.wlp (p.ensuring cleanup) Q E v :=
  (wlp_ensuring p cleanup Q E v).mpr
    (wlp_mono hp (fun a v hq => hc (Q a) v hq) fun v he => hc E v he)

/-- Code keeps an assertion that its calls and its parts keep. -/
theorem wlp_of_built {P : S.Call → Prop} {X : ∀ α : Type, Prog S α → Prop} {A : V → Prop}
    (hP : ∀ c, P c → ∀ v, A v → L.ok c v ∧ ∀ r v', L.step c r v = some v' → A v')
    (hX : ∀ α p, X α p → ∀ v, A v → L.wlp p (fun _ => A) A v) {p : Prog S α} {v : V}
    (hp : p.Built P X) (h : A v) : L.wlp p (fun _ => A) A v := by
  induction hp generalizing v with
  | ret a => exact h
  | throw => exact h
  | call hc => exact hP _ hc v h
  | part hx => exact hX _ _ hx _ h
  | bind _ _ ihp ihf => exact wlp_bind_of (ihp h) fun a v hv => ihf a hv
  | tryCatch _ _ ihp ihh =>
    exact wlp_tryCatch_of (ihp h) fun _ hv => ihh hv
  | ensuring _ _ ihp ihc =>
    rw [wlp_ensuring]
    exact wlp_mono (ihp h) (fun _ _ hv => ihc hv) fun _ hv => ihc hv

end Local

end Interaction

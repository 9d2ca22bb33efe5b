import SurfCam.Logic.RelyGuarantee

/-!
# What is left of a program

An observer may follow one program of a thread call by call: it keeps what is left of the program,
and so knows when the program has returned, and what.  A thread that runs the program and nothing
else leaves the observer with what it has still to run itself.
-/

namespace Interaction

namespace Prog

variable {S : Signature} {α β : Type}

/-- What is left of `p` when its next call is `c` and is answered by `r`. -/
def advance [DecidableEq S.Call] (p : Prog S α) (c : S.Call) (r : S.Reply c) : Option (Prog S α) :=
  match p with
  | call c' k => if h : c' = c then some (k (h ▸ r)) else none
  | _ => none

@[simp] theorem advance_call [DecidableEq S.Call] (c : S.Call) (k : S.Reply c → Prog S α)
    (r : S.Reply c) : (call c k).advance c r = some (k r) := dif_pos rfl

@[simp] theorem advance_ret [DecidableEq S.Call] (a : α) (c : S.Call) (r : S.Reply c) :
    (ret a : Prog S α).advance c r = none := rfl

/-! ## The calls of a program -/

/-- Every call that `p` can come to is one of `P`, as long as the replies are good. -/
def Calls (good : (c : S.Call) → S.Reply c → Bool) (P : S.Call → Prop) : Prog S α → Prop
  | ret _ => True
  | throw => True
  | call c k => P c ∧ ∀ r, good c r = true → (k r).Calls good P

section

variable {good : (c : S.Call) → S.Reply c → Bool} {P : S.Call → Prop} {p : Prog S α}

theorem Calls.bind {f : α → Prog S β} (hp : p.Calls good P) (hf : ∀ a, (f a).Calls good P) :
    (p >>= f).Calls good P := by
  induction p with
  | ret a => exact hf a
  | throw => trivial
  | call c k ih => exact ⟨hp.1, fun r hr => ih r (hp.2 r hr)⟩

theorem Calls.tryCatch {h : Prog S α} (hp : p.Calls good P) (hh : h.Calls good P) :
    (p.tryCatch h).Calls good P := by
  induction p with
  | ret a => trivial
  | throw => exact hh
  | call c k ih => exact ⟨hp.1, fun r hr => ih r (hp.2 r hr)⟩

theorem Calls.ensuring {cleanup : Prog S Unit} (hp : p.Calls good P)
    (hc : cleanup.Calls good P) : (p.ensuring cleanup).Calls good P := by
  induction p with
  | ret a => exact hc.bind fun _ => trivial
  | throw => exact hc.bind fun _ => trivial
  | call c k ih => exact ⟨hp.1, fun r hr => ih r (hp.2 r hr)⟩

/-- What a program is put together from are its calls, and those of its parts. -/
theorem Built.calls {X : ∀ α : Type, Prog S α → Prop} (hp : p.Built P X)
    (hX : ∀ α p, X α p → p.Calls good P) : p.Calls good P := by
  induction hp with
  | ret a => trivial
  | throw => trivial
  | call hc => exact ⟨hc, fun _ _ => trivial⟩
  | part hx => exact hX _ _ hx
  | bind _ _ ihp ihf => exact ihp.bind ihf
  | tryCatch _ _ ihp ihh => exact ihp.tryCatch ihh
  | ensuring _ _ ihp ihc => exact ihp.ensuring ihc

end

end Prog

namespace Contract

variable {S : Signature} {T W E : Type} {M : Machine S T W E} {ok : W → Label S T E → Prop}
  {C : Contract M ok} {t : T} {α : Type}

/-- A thread that runs the program that is followed: what is left of it is what is left to run. -/
theorem wp_followed {left : W → Option (Prog S α)} {P : S.Call → Prop}
    (hrely : ∀ w w', C.rely t w w' → C.inv w' → left w' = left w)
    (hcall : ∀ c k w, P c → C.inv w → left w = some (.call c k) → C.pre t c w ∧
      ∀ r w', ok w (.act t c r) → M.act t c r w = some w' → left w' = some (k r))
    {p : Prog S α} {w : W} (hp : p.Calls (fun _ _ => true) P) (h : left w = some p) :
    C.wp t p (fun a w => left w = some (.ret a)) (fun w => left w = some .throw) w := by
  induction p generalizing w with
  | ret a => exact fun v hr hi => (hrely w v hr hi).trans h
  | throw => exact fun v hr hi => (hrely w v hr hi).trans h
  | call c k ih =>
    intro v hr hi
    obtain ⟨hpre, hstep⟩ := hcall c k v hp.1 hi ((hrely w v hr hi).trans h)
    exact ⟨hpre, fun r v' hok hact => ih r (hp.2 r rfl) (hstep r v' hok hact)⟩

/-! ## The calls of all threads -/

/-- The steps on which the replies are good. -/
def goodStep (good : (c : S.Call) → S.Reply c → Bool) (_ : W) (l : Label S T E) : Prop :=
  ∀ t c r, l = .act t c r → good c r = true

/-- The contract that requires the calls to be those of `P`, and says nothing else. -/
def calling (M : Machine S T W E) (good : (c : S.Call) → S.Reply c → Bool) (P : S.Call → Prop) :
    Contract M (goodStep good) where
  inv _ := True
  pre _ c _ := P c
  rely _ _ _ := True
  rely_refl _ _ := trivial
  rely_trans _ _ := trivial
  inv_act _ _ _ _ := trivial
  inv_env _ _ _ := trivial
  rely_act _ _ _ _ _ := trivial
  rely_env _ _ _ := trivial

variable {good : (c : S.Call) → S.Reply c → Bool} {P : S.Call → Prop}

theorem wp_calling {p : Prog S α} {w : W} (hp : p.Calls good P) :
    (calling M good P).wp t p (fun _ _ => True) (fun _ => True) w := by
  induction p generalizing w with
  | ret a => exact fun _ _ _ => trivial
  | throw => exact fun _ _ _ => trivial
  | call c k ih =>
    exact fun v _ _ => ⟨hp.1, fun r v' hok _ => ih r (hp.2 r (hok t c r rfl))⟩

/-- The proof of the threads that run, all of whose calls are those of `P`. -/
def callingProof {K : Code S T} (runs : T → Prop)
    (h : ∀ t, runs t → ∀ pc, (K.body t pc).Calls good P) : (calling M good P).Proof K where
  holds t _ _ := runs t
  body t pc _ _ ht := wp_mono (wp_calling (h t ht pc)) (fun _ _ _ _ _ _ => ht) fun _ _ _ => trivial

end Contract

end Interaction

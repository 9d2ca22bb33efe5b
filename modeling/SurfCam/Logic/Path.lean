import SurfCam.Logic.Trace

/-!
# Paths

One program alone under a `Local` semantics: the calls it can make with the replies that the
semantics allows, up to where it stands then.  What is proved of a program by `wlp` holds wherever
a path of it leads.
-/

namespace Interaction

variable {S : Signature} {α V O : Type}

/-- Where a program stands: it has ended with a value or with an exception, or it comes to a call. -/
inductive Front (S : Signature) (α : Type) where
  | value (a : α)
  | exception
  | calls (c : S.Call)

/-- Where `p` stands before its first call. -/
def Prog.front : Prog S α → Front S α
  | ret a => .value a
  | throw => .exception
  | call c _ => .calls c

/-- The value that a program has ended with. -/
def Front.result : Front S α → Option α
  | value a => some a
  | exception | calls _ => none

theorem Front.eq_of_result {e : Front S α} {a : α} (h : e.result = some a) : e = .value a := by
  cases e with
  | value b => rw [Option.some.inj h]
  | exception => cases h
  | calls c => cases h

namespace Local

/-- Started in `v`, `p` can make the calls of the list with these replies, and stands at `e` in `w`
then. -/
inductive Leads (L : Local S V) : Prog S α → V → List (Event S) → Front S α → V → Prop where
  | here (p : Prog S α) (v : V) : Leads L p v [] p.front v
  | call {c : S.Call} {k : S.Reply c → Prog S α} {r : S.Reply c} {v v' w : V}
      {events : List (Event S)} {e : Front S α} (hs : L.step c r v = some v')
      (h : Leads L (k r) v' events e w) : Leads L (.call c k) v (⟨c, r⟩ :: events) e w

/-- What a postcondition, an exceptional one and the requirement of the calls say of a front. -/
def Meets (ok : S.Call → V → Prop) (Q : α → V → Prop) (E : V → Prop) : Front S α → V → Prop
  | .value a, w => Q a w
  | .exception, w => E w
  | .calls c, w => ok c w

variable {L : Local S V} {p : Prog S α} {v w : V} {events : List (Event S)} {e : Front S α}
  {Q : α → V → Prop} {E : V → Prop}

theorem Leads.meets (h : L.Leads p v events e w) (hp : L.wlp p Q E v) : Meets L.ok Q E e w := by
  induction h with
  | here p v =>
    cases p with
    | ret a => exact hp
    | throw => exact hp
    | call c k => exact hp.1
  | call hs _ ih => exact ih (hp.2 _ _ hs)

/-- A path is one of an observer's semantics too, where it allows every step from a related state. -/
theorem Leads.watched {M : Local S O} {see : (c : S.Call) → S.Reply c → O → O} {R : V → O → Prop}
    (hR : ∀ c r v v' o, R v o → L.step c r v = some v' →
      M.step c r o = some (see c r o) ∧ R v' (see c r o))
    (h : L.Leads p v events e w) {o : O} (ho : R v o) :
    M.Leads p o events e (observed see o events) ∧ R w (observed see o events) := by
  induction h generalizing o with
  | here p v => exact ⟨.here p o, ho⟩
  | call hs _ ih =>
    obtain ⟨hstep, hr⟩ := hR _ _ _ _ _ ho hs
    obtain ⟨hpath, hend⟩ := ih hr
    exact ⟨.call hstep hpath, hend⟩

/-! ## Fewer replies -/

/-- The steps of a semantics on which the replies are `good`, with the calls of `P` only. -/
def given (L : Local S V) (P : S.Call → Prop) (good : (c : S.Call) → S.Reply c → Bool) :
    Local S V where
  step c r v := if good c r then L.step c r v else none
  ok c _ := P c

section

variable {P : S.Call → Prop} {good : (c : S.Call) → S.Reply c → Bool}

theorem wlp_given_call {c : S.Call} {k : S.Reply c → Prog S α} :
    (L.given P good).wlp (.call c k) Q E v ↔ P c ∧
      ∀ r, good c r = true → ∀ v', L.step c r v = some v' → (L.given P good).wlp (k r) Q E v' := by
  refine and_congr_right fun _ => forall_congr' fun r => ?_
  show (∀ v', (if good c r then L.step c r v else none) = some v' → _) ↔ _
  by_cases hr : good c r = true
  · rw [if_pos hr]
    exact ⟨fun h _ => h, fun h => h hr⟩
  · rw [if_neg hr]
    exact ⟨fun _ h => absurd h hr, fun _ => nofun⟩

/-- What is proved of a program with all replies may be added to what is proved with fewer. -/
theorem wlp_given_and {Q' : α → V → Prop} {E' : V → Prop} (h : L.wlp p Q E v)
    (h' : (L.given P good).wlp p Q' E' v) :
    (L.given P good).wlp p (fun a v => Q a v ∧ Q' a v) (fun v => E v ∧ E' v) v := by
  induction p generalizing v with
  | ret a => exact ⟨h, h'⟩
  | throw => exact ⟨h, h'⟩
  | call c k ih =>
    obtain ⟨hc, hk⟩ := wlp_given_call.mp h'
    exact wlp_given_call.mpr ⟨hc, fun r hr v' hs => ih r (h.2 r v' hs) (hk r hr v' hs)⟩

/-- A program that makes only calls of `P` and throws nothing. -/
theorem wlp_given_of_built (hp : p.Built P Prog.noParts) (hn : p.NoThrow) :
    (L.given P good).wlp p (fun _ _ => True) E v := by
  have hkept := wlp_of_built (L := L.given P good) (A := fun _ => True)
    (fun c hc v _ => ⟨hc, fun _ _ _ => trivial⟩) (fun _ _ hx => hx.elim) hp (v := v) trivial
  have hreturned : (L.given P good).wlp p (fun _ v => True ∧ True) E v := wlp_of_returns hn hkept
  exact wlp_mono hreturned (fun _ _ h => h.1) fun _ h => h

/-- A path on which every reply is good. -/
theorem Leads.given (h : L.Leads p v events e w) (hgood : ∀ ev ∈ events, good ev.1 ev.2 = true) :
    (L.given P good).Leads p v events e w := by
  induction h with
  | here p v => exact .here p v
  | call hs _ ih =>
    obtain ⟨hfirst, hrest⟩ := List.forall_mem_cons.mp hgood
    exact .call ((if_pos hfirst).trans hs) (ih hrest)

end

end Local

/-! ## Following a path -/

/-- Replies from the state, as long as there are some. -/
def Prog.follow (L : Local S V) (answer : V → (c : S.Call) → Option (S.Reply c)) :
    Prog S α → V → Option (List (Event S) × Front S α × V)
  | ret a, v => some ([], .value a, v)
  | throw, v => some ([], .exception, v)
  | call c k, v =>
    match answer v c with
    | none => some ([], .calls c, v)
    | some r => (L.step c r v).bind fun v' =>
      ((k r).follow L answer v').map fun (events, x) => (⟨c, r⟩ :: events, x)

theorem leads_of_follow {L : Local S V} {answer : V → (c : S.Call) → Option (S.Reply c)}
    {p : Prog S α} {v : V} {x : List (Event S) × Front S α × V} (h : p.follow L answer v = some x) :
    L.Leads p v x.1 x.2.1 x.2.2 := by
  induction p generalizing v x with
  | ret a =>
    rw [← Option.some.inj h]
    exact .here _ v
  | throw =>
    rw [← Option.some.inj h]
    exact .here _ v
  | call c k ih =>
    rw [Prog.follow] at h
    split at h
    · rw [← Option.some.inj h]
      exact .here (.call c k) v
    · obtain ⟨v', hs, h⟩ := Option.bind_eq_some_iff.mp h
      obtain ⟨y, hy, rfl⟩ := Option.map_eq_some_iff.mp h
      exact .call hs (ih _ hy)

/-- Some path is one that a (decided) test accepts. -/
theorem follow_reaches (L : Local S V) (answer : V → (c : S.Call) → Option (S.Reply c))
    (p : Prog S α) (v : V) (test : List (Event S) × Front S α × V → Bool)
    (h : (p.follow L answer v).any test = true) :
    ∃ events e w, L.Leads p v events e w ∧ test (events, e, w) = true := by
  cases hx : p.follow L answer v with
  | none =>
    rw [hx] at h
    cases h
  | some x =>
    rw [hx] at h
    exact ⟨x.1, x.2.1, x.2.2, leads_of_follow hx, h⟩

end Interaction

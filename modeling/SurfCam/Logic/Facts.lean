import SurfCam.Logic.RelyGuarantee

/-!
# Facts

What a thread knows is a list of facts, and the others may do whatever leaves every fact of it
true.  A contract with this rely needs one lemma for each fact, and an assertion that is made of
facts survives the others by construction.
-/

namespace Interaction

/-- Facts of the kind `F` about a thread and the world. -/
abbrev Facts (F T W : Type) := F → T → W → Prop

namespace Facts

section

variable {F T W : Type} (H : Facts F T W) {S S' : List F} {f : F} {t : T} {w w' w'' : W}

/-- Whatever was true for the thread still is. -/
def Kept (t : T) (w w' : W) : Prop := ∀ f, H f t w → H f t w'

/-- The thread knows the facts in `S`. -/
def Known (S : List F) (t : T) (w : W) : Prop := ∀ f ∈ S, H f t w

variable {H}

theorem Kept.refl (t : T) (w : W) : H.Kept t w w := fun _ => id

theorem Kept.trans (h : H.Kept t w w') (h' : H.Kept t w' w'') : H.Kept t w w'' :=
  fun f hf => h' f (h f hf)

theorem Known.kept (h : H.Known S t w) (hk : H.Kept t w w') : H.Known S t w' :=
  fun f hf => hk f (h f hf)

theorem known_nil : H.Known [] t w := fun _ hf => absurd hf List.not_mem_nil

theorem known_cons : H.Known (f :: S) t w ↔ H f t w ∧ H.Known S t w := List.forall_mem_cons

/-- The thread learns a fact. -/
theorem Known.learn (h : H.Known S t w) (hf : H f t w) : H.Known (f :: S) t w :=
  known_cons.mpr ⟨hf, h⟩

theorem Known.mono (h : H.Known S t w) (hs : S' ⊆ S) : H.Known S' t w :=
  fun f hf => h f (hs hf)

end

/-! ## Contracts whose rely keeps the facts -/

section

open Contract

variable {F T W E : Type} {S : Signature} {M : Machine S T W E} {ok : W → Label S T E → Prop}

/-- The others keep every fact of a thread: `act` is the lemma about their calls. -/
def contract (H : Facts F T W) (inv : W → Prop) (pre : T → S.Call → W → Prop)
    (inv_act : ∀ {t c r w w'}, inv w → pre t c w → ok w (.act t c r) → M.act t c r w = some w' →
      inv w')
    (inv_env : ∀ {e w w'}, inv w → ok w (.env e) → M.env e w = some w' → inv w')
    (act : ∀ {t u c r w w'}, t ≠ u → inv w → pre u c w → ok w (.act u c r) →
      M.act u c r w = some w' → H.Kept t w w')
    (env : ∀ {t e w w'}, inv w → ok w (.env e) → M.env e w = some w' → H.Kept t w w') :
    Contract M ok where
  inv := inv
  pre := pre
  rely t w w' := H.Kept t w w'
  rely_refl := Kept.refl
  rely_trans := Kept.trans
  inv_act := inv_act
  inv_env := inv_env
  rely_act := act
  rely_env := env

/-- Calls that a thread may make anywhere and that leave its own facts true. -/
structure Quiet (H : Facts F T W) (C : Contract M ok) (t : T) (P : S.Call → Prop) : Prop where
  rely : ∀ {w w'}, C.rely t w w' → H.Kept t w w'
  pre : ∀ {c w}, P c → C.inv w → C.pre t c w
  act : ∀ {c r w w'}, P c → ok w (.act t c r) → M.act t c r w = some w' → H.Kept t w w'

section

variable {H : Facts F T W} {C : Contract M ok} {t : T} {P : S.Call → Prop} {l : List F}
  {w w' : W} {α β : Type} {p : Prog S α} {X : W → Prop}

theorem Quiet.known (q : H.Quiet C t P) (w w' : W) (hr : C.rely t w w') (_ : C.inv w')
    (h : H.Known l t w) : H.Known l t w' := h.kept (q.rely hr)

/-- Quiet code keeps what its thread knows, if its parts do. -/
theorem Quiet.keeps (q : H.Quiet C t P) {X : ∀ α : Type, Prog S α → Prop}
    (hX : ∀ α p, X α p → C.Keeps t (H.Known l t) p) (hp : p.Built P X) :
    C.Keeps t (H.Known l t) p :=
  keeps_of_built q.known
    (fun _ hc _ hi h => ⟨q.pre hc hi, fun _ _ hok hact => h.kept (q.act hc hok hact)⟩) hX hp

/-- Quiet code at the end. -/
theorem Quiet.wp_end (q : H.Quiet C t P) (hX : ∀ w, H.Known l t w → X w)
    (h : H.Known l t w) (hp : p.Built P Prog.noParts) :
    C.wp t p (fun _ => H.Known l t) X w :=
  wp_mono (q.keeps (fun _ _ h => h.elim) hp w h) (fun _ _ _ h => h) fun w _ h => hX w h

/-- Quiet code in front of the rest. -/
theorem Quiet.wp (q : H.Quiet C t P) {f : α → Prog S β} {Q : β → W → Prop}
    (hX : ∀ w, H.Known l t w → X w) (h : H.Known l t w) (hp : p.Built P Prog.noParts)
    (hf : ∀ a w, H.Known l t w → C.wp t (f a) Q X w) : C.wp t (p >>= f) Q X w :=
  wp_bind_of (q.wp_end hX h hp) fun a w _ h => hf a w h

/-- Quiet code that throws nothing. -/
theorem Quiet.wp_noThrow (q : H.Quiet C t P) (h : H.Known l t w) (hp : p.Built P Prog.noParts)
    (hn : p.NoThrow) : C.wp t p (fun _ => H.Known l t) X w :=
  wp_of_noThrow hn (q.wp_end (X := fun _ => True) (fun _ _ => trivial) h hp)

/-- A quiet destructor at the end of a scope. -/
theorem Quiet.wp_ensuring (q : H.Quiet C t P) {K : α → List F} {thrown : List F}
    {cleanup : Prog S Unit} (hp : cleanup.Built P Prog.noParts) (hn : cleanup.NoThrow)
    (h : C.wp t p (fun a => H.Known (K a) t) (H.Known thrown t) w) :
    C.wp t (p.ensuring cleanup) (fun a => H.Known (K a) t) (H.Known thrown t) w :=
  wp_ensuring_of (wp_mono h (fun _ _ _ h => q.wp_noThrow h hp hn) fun _ _ h => q.wp_noThrow h hp hn)

end

end

/-! ## Facts by table -/

/-- The calls that not every thread may make, with the facts of which one has to be known, and for
every fact the calls with which its own thread may end it. -/
structure Table (F C : Type) where
  gated : List C
  needs : C → List F
  ends : F → List C

namespace Table

variable {F T W C : Type} [DecidableEq F] (b : Table F C) (H : Facts F T W)

/-- The calls that a thread does not make if it knows `l` and goes on knowing it. -/
def strict (l : List F) : List C :=
  b.gated.filter (fun c => (b.needs c).all fun f => f ∉ l) ++ l.flatMap b.ends

/-- A gated call is made with a fact that it needs. -/
def Entitled (t : T) (c : C) (w : W) : Prop := c ∈ b.gated → ∃ f ∈ b.needs c, H f t w

variable {b H} {l : List F} {f : F} {t : T} {c : C} {w : W}

theorem entitled_of_not_strict (hc : c ∉ b.strict l) (h : H.Known l t w) :
    b.Entitled H t c w := by
  intro hgated
  by_contra hnone
  apply hc
  refine List.mem_append_left _ (List.mem_filter.mpr ⟨hgated, List.all_eq_true.mpr fun f hf => ?_⟩)
  apply decide_eq_true
  exact fun hknown => hnone ⟨f, hf, h f hknown⟩

theorem not_ends_of_not_strict (hc : c ∉ b.strict l) (hf : f ∈ l) : c ∉ b.ends f :=
  fun hends => hc (List.mem_append_right _ (List.mem_flatMap.mpr ⟨f, hf, hends⟩))

/-- A call that no fact and no gate is about. -/
theorem not_strict_of {loud : List C} (hgated : b.gated ⊆ loud) (hends : ∀ f, b.ends f ⊆ loud)
    (hc : c ∉ loud) : c ∉ b.strict l := by
  intro hstrict
  cases List.mem_append.mp hstrict with
  | inl h => exact hc (hgated (List.mem_filter.mp h).1)
  | inr h =>
    obtain ⟨f, -, hf⟩ := List.mem_flatMap.mp h
    exact hc (hends f hf)

end Table

end Facts

end Interaction

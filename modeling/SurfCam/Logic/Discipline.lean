import SurfCam.Logic.RelyGuarantee
import Mathlib.Order.BooleanAlgebra.Set

/-!
# Mutexes and what they guard

Calls take mutexes and give them back, and some may only be made by a thread that owns one of a few
mutexes.  A program knows what it owns itself; in a machine where a mutex has at most one owner that
is enough to know what every thread owns.
-/

namespace Interaction

/-- The mutex that a call returns with, the one that it gives back, and the mutexes of which its
thread has to own one, if there are any. -/
structure Discipline (S : Signature) (L : Type) where
  takes : S.Call → Option L
  gives : S.Call → Option L
  needs : S.Call → List L

namespace Discipline

variable {S : Signature} {L : Type} (D : Discipline S L)

/-- What a thread owns after a call, if it owned `v`. -/
def ownedAfter (c : S.Call) (v : Set L) : Set L :=
  match D.takes c, D.gives c with
  | some m, _ => insert m v
  | none, some m => v \ {m}
  | none, none => v

/-- A thread that owns `v` may make the call: it gives back what it owns, it does not lock what it
owns, and what it works on is guarded. -/
structure Allows (c : S.Call) (v : Set L) : Prop where
  gives : ∀ m, D.gives c = some m → m ∈ v
  takes : ∀ m, D.takes c = some m → m ∉ v
  needs : D.needs c ≠ [] → ∃ m ∈ D.needs c, m ∈ v

/-- One program that keeps to the discipline. -/
def locks : Local S (Set L) where
  step c _ v := some (D.ownedAfter c v)
  ok := D.Allows

/-! ## Rules -/

/-- Exactly the mutexes of a list are owned. -/
def holding (l : List L) : Set L := {m | m ∈ l}

theorem holding_cons (m : L) (l : List L) : holding (m :: l) = insert m (holding l) := by
  ext x
  simp [holding]

theorem holding_sdiff {m : L} {l : List L} (h : m ∉ l) : holding (m :: l) \ {m} = holding l := by
  rw [holding_cons]
  exact Set.insert_sdiff_self_of_notMem h

theorem holding_nil : holding ([] : List L) = ∅ := by
  ext m
  simp [holding]

/-- The program may be run where exactly `l` is owned, and leaves it so. -/
def Keeps (l : List L) (α : Type) (p : Prog S α) : Prop :=
  D.locks.wlp p (fun _ v => v = holding l) (fun v => v = holding l) (holding l)

section

variable [DecidableEq L]

/-- A call that takes and gives nothing and is guarded by `l`. -/
def plain (l : List L) (c : S.Call) : Bool :=
  (D.takes c).isNone && (D.gives c).isNone && ((D.needs c).isEmpty || (D.needs c).any l.contains)

variable {D} {l : List L} {c : S.Call} {α : Type}

theorem step_of_plain (h : D.plain l c = true) :
    D.Allows c (holding l) ∧ D.ownedAfter c (holding l) = holding l := by
  simp only [plain, Bool.and_eq_true, Option.isNone_iff_eq_none] at h
  obtain ⟨⟨htakes, hgives⟩, hneeds⟩ := h
  refine ⟨⟨?_, ?_, fun hne => ?_⟩, ?_⟩
  · simp [hgives]
  · simp [htakes]
  · rw [Bool.or_eq_true, List.isEmpty_iff] at hneeds
    obtain ⟨m, hm, hl⟩ := List.any_eq_true.mp (hneeds.resolve_left hne)
    exact ⟨m, hm, List.contains_iff_mem.mp hl⟩
  · rw [ownedAfter, htakes, hgives]

/-- Code that locks in its parts only. -/
theorem keeps_of_built {p : Prog S α} (hp : p.Built (fun c => D.plain l c = true) (D.Keeps l)) :
    D.Keeps l α p := by
  refine Local.wlp_of_built (fun c hc v hv => ?_) (fun β q hq v hv => ?_) hp rfl
  · obtain ⟨hallows, hafter⟩ := step_of_plain hc
    rw [hv]
    refine ⟨hallows, fun r v' hs => ?_⟩
    rw [← hafter]
    exact (Option.some.inj hs).symm
  · rw [hv]
    exact hq

end

variable {D} {l : List L} {m : L} {c : S.Call} {α : Type}

/-- A mutex is locked in front of the rest. -/
theorem wlp_lock {f : S.Reply c → Prog S α} {Q : α → Set L → Prop} {E : Set L → Prop}
    (htakes : D.takes c = some m) (hgives : D.gives c = none) (hneeds : D.needs c = [])
    (hm : m ∉ l) (hf : ∀ r, D.locks.wlp (f r) Q E (holding (m :: l))) :
    D.locks.wlp (.call c .ret >>= f) Q E (holding l) := by
  refine ⟨⟨by simp [hgives], ?_, fun hne => absurd hneeds hne⟩, fun r v hs => ?_⟩
  · rw [htakes]
    rintro m' ⟨⟩
    exact hm
  · simp only [locks, ownedAfter, htakes] at hs
    rw [← Option.some.inj hs, ← holding_cons]
    exact hf r

/-- It is given back in front of the rest. -/
theorem wlp_unlock {f : S.Reply c → Prog S α} {Q : α → Set L → Prop} {E : Set L → Prop}
    (hgives : D.gives c = some m) (htakes : D.takes c = none) (hneeds : D.needs c = [])
    (hm : m ∉ l) (hf : ∀ r, D.locks.wlp (f r) Q E (holding l)) :
    D.locks.wlp (.call c .ret >>= f) Q E (holding (m :: l)) := by
  refine ⟨⟨?_, by simp [htakes], fun hne => absurd hneeds hne⟩, fun r v hs => ?_⟩
  · rw [hgives]
    rintro m' ⟨⟩
    exact List.mem_cons_self
  · simp only [locks, ownedAfter, htakes, hgives] at hs
    rw [← Option.some.inj hs, holding_sdiff hm]
    exact hf r

/-- Where no exception leaves a program, it need not leave everything as it was. -/
theorem wlp_of_noThrow {V : Type} {K : Local S V} {p : Prog S α} {Q : α → V → Prop}
    {E E' : V → Prop} {v : V} (hp : p.NoThrow) (h : K.wlp p Q E v) : K.wlp p Q E' v := by
  induction p generalizing v with
  | ret a => exact h
  | throw => exact hp.elim
  | call c k ih => exact ⟨h.1, fun r v' hs => ih r (hp r) (h.2 r v' hs)⟩

/-! ## Many threads -/

section

variable {T W E : Type} {owner : W → L → Option T} {t u : T} {w w' : W}

/-- What thread `t` owns. -/
def owned (owner : W → L → Option T) (t : T) (w : W) : Set L := {m | owner w m = some t}

theorem owned_congr (h : owner w' = owner w) : owned owner t w' = owned owner t w := by
  simp only [owned, h]

variable [DecidableEq L]

theorem owned_take (h : owner w' = Function.update (owner w) m (some t)) :
    owned owner t w' = insert m (owned owner t w) := by
  ext x
  by_cases hx : x = m
  · simp [owned, h, hx]
  · simp [owned, h, hx]

theorem owned_give (h : owner w' = Function.update (owner w) m none) :
    owned owner t w' = owned owner t w \ {m} := by
  ext x
  by_cases hx : x = m
  · simp [owned, h, hx]
  · simp [owned, h, hx]

/-- What `m` becomes does not matter to a thread that does not own it before or after. -/
theorem owned_update {o : Option T} (h : owner w' = Function.update (owner w) m o)
    (hbefore : owner w m ≠ some t) (hafter : o ≠ some t) :
    owned owner t w' = owned owner t w := by
  ext x
  by_cases hx : x = m
  · simp [owned, h, hx, hbefore, hafter]
  · simp [owned, h, Function.update_of_ne hx]

/-- In the machine a mutex has at most one owner: it is taken while it is free, and only its owner
gives it back. -/
structure Owners (D : Discipline S L) (M : Machine S T W E) (owner : W → L → Option T) : Prop where
  takes : ∀ {t c r w w' m}, M.act t c r w = some w' → D.takes c = some m →
    owner w m = none ∧ owner w' = Function.update (owner w) m (some t)
  gives : ∀ {t c r w w' m}, M.act t c r w = some w' → D.takes c = none → D.gives c = some m →
    owner w m = some t → owner w' = Function.update (owner w) m none
  other : ∀ {t c r w w'}, M.act t c r w = some w' → D.takes c = none → D.gives c = none →
    owner w' = owner w
  env : ∀ {e w w'}, M.env e w = some w' → owner w' = owner w

namespace Owners

variable {M : Machine S T W E} {r : S.Reply c} (O : D.Owners M owner)

include O

/-- A call that its thread may make changes what this thread owns as the rules say, and nothing for
the others. -/
theorem after (hact : M.act t c r w = some w') (hallows : D.Allows c (owned owner t w)) :
    owned owner t w' = D.ownedAfter c (owned owner t w) ∧
      ∀ u, u ≠ t → owned owner u w' = owned owner u w := by
  cases htakes : D.takes c with
  | some m =>
    obtain ⟨hfree, hw'⟩ := O.takes hact htakes
    simp only [ownedAfter, htakes]
    refine ⟨owned_take hw', fun u hu => owned_update hw' ?_ ?_⟩
    · simp [hfree]
    · simpa using hu.symm
  | none =>
    cases hgives : D.gives c with
    | some m =>
      have hown : owner w m = some t := hallows.gives m hgives
      have hw' := O.gives hact htakes hgives hown
      simp only [ownedAfter, htakes, hgives]
      refine ⟨owned_give hw', fun u hu => owned_update hw' ?_ (by simp)⟩
      simpa [hown] using hu.symm
    | none =>
      have hw' := O.other hact htakes hgives
      simp only [ownedAfter, htakes, hgives]
      exact ⟨owned_congr hw', fun u _ => owned_congr hw'⟩

/-- Every thread keeps to the discipline, and knows what it owns. -/
def contract : Contract M (anyStep (S := S)) where
  inv _ := True
  pre t c w := D.Allows c (owned owner t w)
  rely t w w' := owned owner t w' = owned owner t w
  rely_refl _ _ := rfl
  rely_trans h h' := h'.trans h
  inv_act _ _ _ _ := trivial
  inv_env _ _ _ := trivial
  rely_act hne _ hpre _ hact := (O.after hact hpre).2 _ hne
  rely_env _ _ henv := owned_congr (O.env henv)

def view (t : T) : Contract.View O.contract t D.locks where
  own _ := True
  view := owned owner t
  rely _ hr _ := ⟨trivial, hr⟩
  pre _ _ h := h
  step _ _ h _ hact := ⟨trivial, by rw [(O.after hact h).1]; rfl⟩

/-- The rest of a program that owns nothing at its end. -/
def Inside {α : Type} (t : T) (p : Prog S α) (w : W) : Prop :=
  O.contract.wp t p (fun _ w => owned owner t w = ∅) (fun w => owned owner t w = ∅) w

theorem inside_of_keeps {p : Prog S α} (hp : D.Keeps [] α p) (h : owned owner t w = ∅) :
    O.Inside t p w := by
  rw [Keeps, holding_nil, ← h] at hp
  refine Contract.wp_mono ((O.view t).wp trivial hp) (fun _ w _ hw => ?_) fun w _ hw => ?_
  · exact hw.2.trans h
  · exact hw.2.trans h

theorem inside_ret {a : α} : O.Inside t (.ret a) w ↔ owned owner t w = ∅ :=
  ⟨fun h => h w rfl trivial, fun h _ hr _ => Eq.trans hr h⟩

variable [DecidableEq T] {K : Code S T} {active : T → Bool}

/-- Every thread is inside a program of its own, or does not run at all. -/
def AllInside (active : T → Bool) (cfg : Config K W) : Prop :=
  ∀ t, (active t = true ∨ cfg.prog t = .ret none) ∧ O.Inside t (cfg.prog t) cfg.world

theorem allInside_step (hbody : ∀ t pc, active t = true → D.Keeps [] _ (K.body t pc))
    {a b : Config K W} {l : Label S T E} (h : O.AllInside active a) (hs : Step M a l b) :
    O.AllInside active b := by
  cases hs with
  | @act t c k r w hp hact =>
    have hcall := (h t).2
    rw [hp] at hcall
    obtain ⟨hpre, hk⟩ := hcall a.world rfl trivial
    intro u
    by_cases hu : u = t
    · subst hu
      refine ⟨(h u).1.imp id fun hret => ?_, ?_⟩
      · rw [hp] at hret
        contradiction
      · simpa only [Inside, Function.update_self] using hk r w trivial hact
    · simp only [Function.update_of_ne hu]
      exact ⟨(h u).1, Contract.wp_rely (h u).2 ((O.after hact hpre).2 u hu)⟩
  | @resume t pc hp =>
    intro u
    by_cases hu : u = t
    · subst hu
      have hactive : active u = true := by
        refine (h u).1.resolve_right fun hret => ?_
        rw [hp] at hret
        cases hret
      have hret := (h u).2
      rw [hp, inside_ret] at hret
      simp only [Function.update_self]
      exact ⟨.inl hactive, O.inside_of_keeps (hbody u pc hactive) hret⟩
    · simp only [Function.update_of_ne hu]
      exact h u
  | env henv => exact fun u => ⟨(h u).1, Contract.wp_rely (h u).2 (owned_congr (O.env henv))⟩

/-- In every run of threads whose programs keep to the discipline, a call is only made by a thread
that may make it, and a thread that makes none owns nothing. -/
theorem run_disciplined (hbody : ∀ t pc, active t = true → D.Keeps [] _ (K.body t pc))
    {a b : Config K W} (hfree : ∀ m, owner a.world m = none)
    (hret : ∀ t, ∃ next, a.prog t = .ret next ∧ (active t = true ∨ next = none))
    (hrun : Run M anyStep a b) :
    (∀ t c, b.pending t = some c → D.Allows c (owned owner t b.world)) ∧
      ∀ t, b.pending t = none → owned owner t b.world = ∅ := by
  have hnone : ∀ t, owned owner t a.world = ∅ := by
    intro t
    ext m
    simp [owned, hfree m]
  have hstart : O.AllInside active a := by
    intro t
    obtain ⟨next, hnext, hactive⟩ := hret t
    rw [hnext]
    refine ⟨hactive.imp id fun h => by rw [h], O.inside_ret.mpr (hnone t)⟩
  have hall := hrun.invariant (fun _ _ _ h _ hs => O.allInside_step hbody h hs) hstart
  refine ⟨fun t c hc => ?_, fun t ht => ?_⟩
  · obtain ⟨k, hk⟩ := Config.pending_eq_some hc
    have hcall := (hall t).2
    rw [hk] at hcall
    exact (hcall b.world rfl trivial).1
  · have hinside := (hall t).2
    rw [Config.pending] at ht
    cases hp : b.prog t with
    | ret next =>
      rw [hp] at hinside
      exact O.inside_ret.mp hinside
    | throw =>
      rw [hp] at hinside
      exact hinside b.world rfl trivial
    | call c k =>
      rw [hp] at ht
      contradiction

end Owners

end

end Discipline

end Interaction

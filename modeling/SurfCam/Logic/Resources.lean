import SurfCam.Logic.RelyGuarantee

/-!
# Resources

Calls hand resources out and take them back, or lose them.  A program keeps a ledger of what it has
been handed and has not given back, and it may use and give back nothing else.  In a machine every
thread has its own ledger, what is lost is kept apart, and nobody is handed what somebody else has
or what is lost.
-/

namespace Interaction

/-- What a call hands over with its reply, what it takes, and what it uses. -/
structure Resources (S : Signature) (R : Type) where
  gives : (c : S.Call) → S.Reply c → Option R
  takes : (c : S.Call) → S.Reply c → Option R
  /-- what is taken is not given back: nobody has it any more -/
  loses : (c : S.Call) → S.Reply c → Bool
  uses : S.Call → List R
  takes_uses : ∀ {c r x}, takes c r = some x → x ∈ uses c

namespace Resources

variable {S : Signature} {R : Type} [DecidableEq R] (D : Resources S R)

/-- What is left when the call has taken what it takes. -/
def rest (c : S.Call) (r : S.Reply c) (v : List R) : List R :=
  match D.takes c r with
  | none => v
  | some x => v.erase x

/-- The ledger of one program; what it is handed is not in its hands already. -/
def ledger : Local S (List R) where
  step c r v :=
    match D.gives c r with
    | none => some (D.rest c r v)
    | some x => if x ∈ D.rest c r v then none else some (x :: D.rest c r v)
  ok c v := ∀ x ∈ D.uses c, x ∈ v

section

variable {D} {α : Type} {c : S.Call} {f : S.Reply c → Prog S α} {v : List R}
  {Q : α → List R → Prop} {E : List R → Prop}

/-- A call that only uses what the program has, in front of the rest. -/
theorem wlp_use (ht : ∀ r, D.takes c r = none) (hg : ∀ r, D.gives c r = none)
    (hu : ∀ x ∈ D.uses c, x ∈ v) (hf : ∀ r, D.ledger.wlp (f r) Q E v) :
    D.ledger.wlp (Prog.call c .ret >>= f) Q E v := by
  refine ⟨hu, fun r v' hs => ?_⟩
  have hstep : D.ledger.step c r v = some v := by
    simp only [ledger, hg r, rest, ht r]
  rw [hstep] at hs
  cases hs
  exact hf r

/-- A call that may hand something over. -/
theorem wlp_give (ht : ∀ r, D.takes c r = none) (hu : ∀ x ∈ D.uses c, x ∈ v)
    (hnone : ∀ r, D.gives c r = none → D.ledger.wlp (f r) Q E v)
    (hsome : ∀ r x, D.gives c r = some x → x ∉ v → D.ledger.wlp (f r) Q E (x :: v)) :
    D.ledger.wlp (Prog.call c .ret >>= f) Q E v := by
  refine ⟨hu, fun r v' hs => ?_⟩
  simp only [ledger, rest, ht r] at hs
  cases hg : D.gives c r with
  | none =>
    simp only [hg] at hs
    cases hs
    exact hnone r hg
  | some x =>
    simp only [hg] at hs
    by_cases hx : x ∈ v
    · rw [if_pos hx] at hs
      contradiction
    · rw [if_neg hx] at hs
      cases hs
      exact hsome r x hg hx

/-- A call that takes something. -/
theorem wlp_take {x : R} (ht : ∀ r, D.takes c r = some x) (hg : ∀ r, D.gives c r = none)
    (hu : ∀ y ∈ D.uses c, y ∈ v) (hf : ∀ r, D.ledger.wlp (f r) Q E (v.erase x)) :
    D.ledger.wlp (Prog.call c .ret >>= f) Q E v := by
  refine ⟨hu, fun r v' hs => ?_⟩
  have hstep : D.ledger.step c r v = some (v.erase x) := by
    simp only [ledger, hg r, rest, ht r]
  rw [hstep] at hs
  cases hs
  exact hf r

end

/-! ## Many threads -/

variable {T : Type} [DecidableEq T]

/-- What thread `t` has. -/
def own (t : T) (w : List (T × R)) : List R := (w.filter fun p => p.1 = t).map Prod.snd

omit [DecidableEq R] in
theorem own_cons_self (t : T) (x : R) (w : List (T × R)) :
    own t ((t, x) :: w) = x :: own t w := by
  simp [own]

omit [DecidableEq R] in
theorem own_cons_of_ne {t u : T} (h : u ≠ t) (x : R) (w : List (T × R)) :
    own t ((u, x) :: w) = own t w := by
  simp [own, h]

theorem own_erase_self (t : T) (x : R) (w : List (T × R)) :
    own t (w.erase (t, x)) = (own t w).erase x := by
  induction w with
  | nil => rfl
  | cons p w ih =>
    obtain ⟨u, y⟩ := p
    by_cases hu : u = t
    · subst hu
      by_cases hy : y = x
      · subst hy
        rw [List.erase_cons_head, own_cons_self, List.erase_cons_head]
      · rw [List.erase_cons_tail (by simp [hy]), own_cons_self, own_cons_self, ih,
          List.erase_cons_tail (by simp [hy])]
    · rw [List.erase_cons_tail (by simp [hu]), own_cons_of_ne hu, own_cons_of_ne hu, ih]

theorem own_erase_of_ne {t u : T} (h : u ≠ t) (x : R) (w : List (T × R)) :
    own t (w.erase (u, x)) = own t w := by
  induction w with
  | nil => rfl
  | cons p w ih =>
    obtain ⟨s, y⟩ := p
    by_cases hp : (s, y) = (u, x)
    · cases hp
      rw [List.erase_cons_head, own_cons_of_ne h]
    · rw [List.erase_cons_tail (by simpa using hp)]
      by_cases hs : s = t
      · subst hs
        rw [own_cons_self, own_cons_self, ih]
      · rw [own_cons_of_ne hs, own_cons_of_ne hs, ih]

omit [DecidableEq R] in
theorem mem_own {t : T} {x : R} {w : List (T × R)} : x ∈ own t w ↔ (t, x) ∈ w := by
  simp [own]

/-- What is left of all ledgers. -/
def restOf (t : T) (c : S.Call) (r : S.Reply c) (w : List (T × R)) : List (T × R) :=
  match D.takes c r with
  | none => w
  | some x => w.erase (t, x)

theorem own_restOf_self (t : T) (c : S.Call) (r : S.Reply c) (w : List (T × R)) :
    own t (D.restOf t c r w) = D.rest c r (own t w) := by
  unfold restOf rest
  split
  · rfl
  · exact own_erase_self ..

theorem own_restOf_of_ne {t u : T} (h : u ≠ t) (c : S.Call) (r : S.Reply c) (w : List (T × R)) :
    own t (D.restOf u c r w) = own t w := by
  unfold restOf
  split
  · rfl
  · exact own_erase_of_ne h ..

/-- What the threads have, and what is lost. -/
structure Estate (T R : Type) where
  held : List (T × R)
  lost : List R

/-- What a call adds to the things that are lost. -/
def newlyLost (c : S.Call) (r : S.Reply c) : List R :=
  if D.loses c r then (D.takes c r).toList else []

/-- The threads' world: nothing is handed over that anybody has, or that is lost. -/
def machine (T : Type) [DecidableEq T] : Machine S T (Estate T R) Empty where
  act t c r w :=
    let held := D.restOf t c r w.held
    let lost := D.newlyLost c r ++ w.lost
    match D.gives c r with
    | none => some ⟨held, lost⟩
    | some x => if x ∈ held.map Prod.snd ++ lost then none else some ⟨(t, x) :: held, lost⟩
  env e _ := e.elim

variable {D}

/-- What a call makes of the threads' world. -/
theorem machine_act {t : T} {c : S.Call} {r : S.Reply c} {w w' : Estate T R}
    (h : (D.machine T).act t c r w = some w') :
    w'.lost = D.newlyLost c r ++ w.lost ∧
      ((D.gives c r = none ∧ w'.held = D.restOf t c r w.held) ∨
        ∃ x, D.gives c r = some x ∧ w'.held = (t, x) :: D.restOf t c r w.held ∧
          x ∉ (D.restOf t c r w.held).map Prod.snd ++ (D.newlyLost c r ++ w.lost)) := by
  simp only [machine] at h
  cases hg : D.gives c r with
  | none =>
    simp only [hg] at h
    cases h
    exact ⟨rfl, .inl ⟨rfl, rfl⟩⟩
  | some x =>
    simp only [hg] at h
    by_cases hx : x ∈ (D.restOf t c r w.held).map Prod.snd ++ (D.newlyLost c r ++ w.lost)
    · rw [if_pos hx] at h
      contradiction
    · rw [if_neg hx] at h
      cases h
      exact ⟨rfl, .inr ⟨x, rfl, rfl, hx⟩⟩

/-- A call changes the ledger of its own thread as `ledger` says, and no other one. -/
theorem own_after {t : T} {c : S.Call} {r : S.Reply c} {w w' : Estate T R}
    (h : (D.machine T).act t c r w = some w') :
    D.ledger.step c r (own t w.held) = some (own t w'.held) ∧
      ∀ u, t ≠ u → own u w'.held = own u w.held := by
  simp only [ledger]
  obtain ⟨-, ⟨hg, hheld⟩ | ⟨x, hg, hheld, hx⟩⟩ := machine_act h
  · simp only [hg, hheld]
    exact ⟨by rw [own_restOf_self], fun u hu => D.own_restOf_of_ne hu c r w.held⟩
  · simp only [hg, hheld]
    have hfresh : x ∉ D.rest c r (own t w.held) := by
      rw [← own_restOf_self, mem_own]
      exact fun hmem => hx (List.mem_append_left _ (List.mem_map_of_mem hmem))
    refine ⟨?_, fun u hu => ?_⟩
    · rw [own_cons_self, own_restOf_self]
      exact if_neg hfresh
    · rw [own_cons_of_ne hu, D.own_restOf_of_ne hu]

/-- Nothing belongs to two threads, or to one and is lost. -/
def Apart (w : Estate T R) : Prop := (w.held.map Prod.snd ++ w.lost).Nodup

/-- What is taken from a thread is lost or given back. -/
theorem apart_rest {t : T} {c : S.Call} (r : S.Reply c) {w : Estate T R} (hw : Apart w)
    (hu : ∀ x ∈ D.uses c, x ∈ own t w.held) :
    ((D.restOf t c r w.held).map Prod.snd ++ (D.newlyLost c r ++ w.lost)).Nodup := by
  unfold restOf newlyLost
  cases ht : D.takes c r with
  | none =>
    rw [Option.toList_none, ite_self]
    exact hw
  | some x =>
    have hmem : (t, x) ∈ w.held := mem_own.mp (hu x (D.takes_uses ht))
    have hperm : (w.held.map Prod.snd).Perm (x :: (w.held.erase (t, x)).map Prod.snd) :=
      (List.perm_cons_erase hmem).map Prod.snd
    have hall : (x :: (w.held.erase (t, x)).map Prod.snd ++ w.lost).Nodup :=
      (hperm.append_right w.lost).nodup_iff.mp hw
    cases D.loses c r with
    | true => exact List.perm_middle.nodup_iff.mpr hall
    | false => exact hall.of_cons

theorem apart_after {t : T} {c : S.Call} {r : S.Reply c} {w w' : Estate T R} (hw : Apart w)
    (hu : ∀ x ∈ D.uses c, x ∈ own t w.held) (h : (D.machine T).act t c r w = some w') :
    Apart w' := by
  have hrest := apart_rest r hw hu
  unfold Apart
  obtain ⟨hlost, ⟨-, hheld⟩ | ⟨x, -, hheld, hx⟩⟩ := machine_act h
  · rw [hlost, hheld]
    exact hrest
  · rw [hlost, hheld]
    exact List.nodup_cons.mpr ⟨hx, hrest⟩

variable (D)

/-- Some call loses it. -/
def Losable (x : R) : Prop := ∃ c r, D.loses c r = true ∧ D.takes c r = some x

variable {D}

theorem losable_after {t : T} {c : S.Call} {r : S.Reply c} {w w' : Estate T R}
    (hw : ∀ x ∈ w.lost, D.Losable x) (h : (D.machine T).act t c r w = some w') :
    ∀ x ∈ w'.lost, D.Losable x := by
  intro x hx
  rw [(machine_act h).1, List.mem_append] at hx
  cases hx with
  | inl hnew =>
    unfold newlyLost at hnew
    split at hnew
    · rename_i hloses
      exact ⟨c, r, hloses, Option.mem_toList.mp hnew⟩
    · contradiction
  | inr hold => exact hw x hold

variable (D)

/-- Nothing belongs to two threads, and nothing else is lost than what calls lose. -/
structure Sound (w : Estate T R) : Prop where
  apart : Apart w
  lost : ∀ x ∈ w.lost, D.Losable x

def contract (T : Type) [DecidableEq T] : Contract (D.machine T) (anyStep (S := S)) where
  inv := D.Sound
  pre t c w := D.ledger.ok c (own t w.held)
  rely t w w' := own t w'.held = own t w.held
  rely_refl _ _ := rfl
  rely_trans h h' := h'.trans h
  inv_act hw hu _ hact := ⟨apart_after hw.apart hu hact, losable_after hw.lost hact⟩
  inv_env {e _ _} _ _ _ := e.elim
  rely_act hne _ _ _ hact := (own_after hact).2 _ hne.symm
  rely_env {_ e _ _} _ _ _ := e.elim

/-- Every thread sees its own ledger. -/
def view (t : T) : Contract.View (D.contract T) t D.ledger where
  own _ := True
  view w := own t w.held
  rely _ hr _ := ⟨trivial, hr⟩
  pre _ _ h := h
  step _ _ _ _ hact := ⟨trivial, (own_after hact).1⟩

variable {D} {K : Code S T}

/-- Threads that have nothing in their hands whenever they reach a control point. -/
def proof (h : ∀ t pc, D.ledger.wlp (K.body t pc) (fun _ v => v = []) (fun _ => True) []) :
    (D.contract T).Proof K where
  holds t _ w := own t w.held = []
  body t pc w _ hw := by
    have hbody : D.ledger.wlp (K.body t pc) (fun _ v => v = []) (fun _ => True)
        (own t w.held) := by
      rw [hw]
      exact h t pc
    exact Contract.wp_mono ((D.view t).wp trivial hbody) (fun _ _ _ h _ _ => h.2)
      fun _ _ _ => trivial

/-- In every run of such threads a call uses and takes what its thread has, nothing belongs to two
threads or is lost and belongs to one, nothing is lost but by the calls that lose something, and at
its control points a thread has nothing. -/
theorem run_owned (h : ∀ t pc, D.ledger.wlp (K.body t pc) (fun _ v => v = []) (fun _ => True) [])
    {a b : Config K (Estate T R)} (ha : a.world = ⟨[], []⟩)
    (hret : ∀ t, ∃ next, a.prog t = .ret next) (hrun : Run (D.machine T) anyStep a b) :
    (∀ t c, b.pending t = some c → ∀ x ∈ D.uses c, x ∈ own t b.world.held) ∧ D.Sound b.world ∧
      ∀ t pc, b.reached t = some pc → own t b.world.held = [] := by
  have hstart : (proof h).Valid a := by
    refine ⟨?_, fun t => ?_⟩
    · rw [ha]
      exact ⟨List.nodup_nil, by simp⟩
    · obtain ⟨next, hnext⟩ := hret t
      refine Contract.Proof.onTrack_ret hnext fun w hr _ pc _ => ?_
      have hown : own t w.held = own t a.world.held := hr
      rw [ha] at hown
      exact hown
  have hvalid := (proof h).sound hstart hrun
  exact ⟨fun t c hc => hvalid.pre hc, hvalid.inv, fun t pc hpc => hvalid.holds hpc⟩

end Resources

end Interaction

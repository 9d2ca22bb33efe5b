import SurfCam.Camera.World
import SurfCam.Logic.RelyGuarantee

/-!
# Mutexes

Who owns a mutex after a call, and the rule of a lock guard.
-/

namespace SurfCam

open Interaction Contract

/-- The calls after which their thread owns `m`. -/
def SysCall.takes (m : Mutex) : SysCall → Bool
  | .lock m' | .relock m' => m' = m
  | .waitReacquire => m = .completionMutex
  | _ => false

namespace World

variable {t u : Tid} {c : SysCall} {r : c.Reply} {m : Mutex} {w : World}

/-- A thread owns what it took, or what it owned before. -/
theorem owner_of_after (h : (w.after t c r).owner m = some u) :
    w.owner m = some u ∨ u = t ∧ c.takes m = true := by
  -- a mutex that was taken belongs to the thread that took it
  have htaken : ∀ m', Function.update w.owner m' (some t) m = some u →
      w.owner m = some u ∨ u = t ∧ m' = m := by
    intro m' h
    rw [Function.update_apply] at h
    split at h
    · exact .inr ⟨(Option.some.inj h).symm, .symm ‹_›⟩
    · exact .inl h
  have hgiven : ∀ m', Function.update w.owner m' none m = some u → w.owner m = some u := by
    intro m' h
    rw [Function.update_apply] at h
    split at h
    · cases h
    · exact h
  change w.ownerAfter t c m = some u at h
  unfold World.ownerAfter at h
  split at h
  · exact (htaken _ h).imp id fun h => ⟨h.1, decide_eq_true h.2⟩
  · exact (htaken _ h).imp id fun h => ⟨h.1, decide_eq_true h.2⟩
  · split at h
    · exact .inl (hgiven _ h)
    · exact .inl h
  · exact .inl (hgiven _ h)
  · exact (htaken _ h).imp id fun h => ⟨h.1, decide_eq_true h.2.symm⟩
  · exact .inl h

/-- A thread that does not take a mutex owns it only if it owned it before. -/
theorem owner_of_not_takes (hc : c.takes m = false) (h : (w.after t c r).owner m = some u) :
    w.owner m = some u := by
  rcases owner_of_after h with h | ⟨-, h⟩
  · exact h
  · exact Bool.noConfusion (hc.symm.trans h)

theorem owner_after_lock {r : (SysCall.lock m).Reply} :
    (w.after t (.lock m) r).owner m = some t := by
  show Function.update w.owner m (some t) m = some t
  rw [Function.update_self]

theorem owner_after_relock {r : (SysCall.relock m).Reply} :
    (w.after t (.relock m) r).owner m = some t := by
  show Function.update w.owner m (some t) m = some t
  rw [Function.update_self]

/-- Nobody owns a mutex after giving it up. -/
theorem not_owner_after_unlock {r : (SysCall.unlock m).Reply} :
    (w.after t (.unlock m) r).owner m ≠ some t := by
  intro h
  change (if w.owner m = some t then Function.update w.owner m none else w.owner) m = some t at h
  split at h
  · rw [Function.update_self] at h
    cases h
  · contradiction

/-- Only its owner unlocks a mutex. -/
theorem owner_kept (hm : m ≠ .completionMutex) (h : w.owner m = some u)
    (ha : w.answers t c r = true) (hc : c = .unlock m → t ≠ u) :
    (w.after t c r).owner m = some u := by
  -- an owned mutex is neither locked nor locked again
  have hlocked : ∀ m', (w.owner m').isNone = true → m' ≠ m := by
    rintro m' hnone rfl
    rw [h] at hnone
    cases hnone
  have hshared := shared_of_answers ha
  cases c with
  | lock m' => exact (Function.update_of_ne (Ne.symm (hlocked m' hshared)) ..).trans h
  | relock m' => exact (Function.update_of_ne (Ne.symm (hlocked m' hshared)) ..).trans h
  | unlock m' =>
    show (if w.owner m' = some t then Function.update w.owner m' none else w.owner) m = some u
    split
    · rename_i ht
      by_cases he : m' = m
      · subst he
        exact absurd (Option.some.inj (ht.symm.trans h)) (hc rfl)
      · exact (Function.update_of_ne (Ne.symm he) ..).trans h
    · exact h
  | waitRelease => exact (Function.update_of_ne hm ..).trans h
  | waitReacquire => exact (Function.update_of_ne hm ..).trans h
  | _ => exact h

/-- The others cannot take from a thread what it owns. -/
theorem owner_of_others (htu : t ≠ u) (h : (w.after t c r).owner m = some u) :
    w.owner m = some u := by
  rcases owner_of_after h with h | ⟨h, -⟩
  · exact h
  · exact absurd h.symm htu

end World

/-- The rule of a lock guard: inside it `B` holds in the place of `A`. -/
theorem keeps_lockGuard {T W E α : Type} {M : Machine Sys T W E} {ok : W → Label Sys T E → Prop}
    {C : Contract M ok} {t : T} {A B : W → Prop} {m : Mutex} {scope : Prog Sys α}
    (hA : ∀ w w', C.rely t w w' → C.inv w' → A w → A w')
    (hB : ∀ w w', C.rely t w w' → C.inv w' → B w → B w')
    (hlock : ∀ w, C.inv w → A w → C.pre t (.lock m) w ∧
      ∀ r w', ok w (.act t (.lock m) r) → M.act t (.lock m) r w = some w' → B w')
    (hunlock : ∀ w, C.inv w → B w → C.pre t (.unlock m) w ∧
      ∀ r w', ok w (.act t (.unlock m) r) → M.act t (.unlock m) r w = some w' → A w')
    (h : C.Keeps t B scope) : C.Keeps t A (lockGuard m scope) := by
  have hout : ∀ w, B w → C.wp t (sys (.unlock m)) (fun _ => A) A w := by
    intro w hb w' hr hi
    rcases hunlock w' hi (hB w w' hr hi hb) with ⟨hpre, hact⟩
    exact ⟨hpre, fun r v hok hs v' hr' hi' => hA v v' hr' hi' (hact r v hok hs)⟩
  intro w ha
  refine wp_call_of hA ha fun w hi ha => ?_
  rcases hlock w hi ha with ⟨hpre, hact⟩
  refine ⟨hpre, fun r w' hok hs => wp_ensuring_of ?_⟩
  exact wp_mono (h w' (hact r w' hok hs)) (fun _ v _ hb => hout v hb) fun v _ hb => hout v hb

end SurfCam

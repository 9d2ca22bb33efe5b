import SurfCam.Logic.Product
import SurfCam.System

/-!
# The buses of the pipelines

Every pipeline has a bus.  The watch that `gst_bus_add_watch` attaches to the default main context
keeps the bus alive, and any loop that runs on that context dispatches it, until it is removed.
-/

namespace SurfCam

open Interaction

/-- A pipeline and its bus have the same number, and `pipeline_` is the last pipeline that was
made. -/
structure Buses where
  made : Nat
  watched : Nat → Bool
  /-- the pipeline has been unreferenced -/
  dropped : Nat → Bool
  /-- the messages that wait on the bus -/
  waiting : Nat → List GstMessage
  /-- the bus that a loop dispatches next -/
  next : Nat → Nat
  /-- the bus for which the thread of a loop runs `onGstMessage` -/
  handling : Nat → Option Nat

/-- What happens besides the calls: the elements of a pipeline post messages on its bus, and GLib
chooses what a loop dispatches. -/
inductive Happening where
  | signal (s : Signal)
  | post (bus : Nat) (m : GstMessage)
  | choose (loop bus : Nat)
  deriving DecidableEq

def Happening.toSignal : Happening → Option Signal
  | signal s => some s
  | post _ _ | choose _ _ => none

namespace Buses

/-- A bus that no watch keeps alive goes with its pipeline. -/
def after (t : Tid) (b : Buses) : (c : SysCall) → c.Reply → Buses
  | .assign .pipeline_ true, _ => { b with made := b.made + 1 }
  | .busAddWatch, _ => { b with watched := Function.update b.watched b.made true }
  | .objectUnref .pipeline, _ =>
    { b with
      dropped := Function.update b.dropped b.made true
      waiting :=
        if b.watched b.made then b.waiting else Function.update b.waiting b.made [] }
  | .mainLoopTurn, .message _ =>
    match t with
    | .gst n =>
      { b with
        waiting := Function.update b.waiting (b.next n) (b.waiting (b.next n)).tail
        handling := Function.update b.handling n (some (b.next n)) }
    | _ => b
  | .mainLoopTurn, .returned =>
    match t with
    | .gst n => { b with handling := Function.update b.handling n none }
    | _ => b
  | _, _ => b

/-- A loop dispatches a message that waits on a bus with a watch. -/
def answers (t : Tid) (b : Buses) : (c : SysCall) → c.Reply → Bool
  | .mainLoopTurn, .message m =>
    match t with
    | .gst n => b.watched (b.next n) && (b.waiting (b.next n)).head? = some m
    | _ => false
  | _, _ => true

/-- A pipeline posts until it is dropped. -/
def happen : Happening → Buses → Option Buses
  | .signal _, b => some b
  | .post k m, b =>
    if k ≤ b.made && !b.dropped k then
      some { b with waiting := Function.update b.waiting k (b.waiting k ++ [m]) }
    else none
  | .choose n k, b => some { b with next := Function.update b.next n k }

/-- Nothing but posts adds messages, and only to the bus of a pipeline that is there. -/
theorem of_happen {e : Happening} {b b' : Buses} (h : b.happen e = some b') :
    b'.made = b.made ∧ b'.dropped = b.dropped ∧ b'.handling = b.handling ∧
      ∀ k, b'.waiting k ≠ [] → b.waiting k ≠ [] ∨ k ≤ b.made ∧ b.dropped k = false := by
  cases e with
  | signal s =>
    rw [← Option.some.inj h]
    exact ⟨rfl, rfl, rfl, fun _ => .inl⟩
  | choose n k =>
    rw [← Option.some.inj h]
    exact ⟨rfl, rfl, rfl, fun _ => .inl⟩
  | post k m =>
    obtain ⟨hpost, rfl⟩ := guarded_eq_some.mp h
    rw [Bool.and_eq_true, Bool.not_eq_true'] at hpost
    obtain ⟨hle, hdropped⟩ := hpost
    refine ⟨rfl, rfl, rfl, fun k' hk => ?_⟩
    by_cases he : k' = k
    · exact .inr (he ▸ ⟨of_decide_eq_true hle, hdropped⟩)
    · left
      change Function.update b.waiting k (b.waiting k ++ [m]) k' ≠ [] at hk
      rwa [Function.update_of_ne he] at hk

/-- No pipeline has been made. -/
def init : Buses where
  made := 0
  watched _ := false
  dropped k := k = 0
  waiting _ := []
  next _ := 0
  handling _ := none

end Buses

def buses : Machine Sys Tid Buses Happening where
  act t c r b := if b.answers t c r then some (b.after t c r) else none
  env := Buses.happen

/-- The threads' world with the buses. -/
def bussed : Machine Sys Tid (World × Buses) Happening :=
  (system.among Happening.toSignal).sync buses

section

variable {x y : World × Buses}

theorem bussed_act {t : Tid} {c : SysCall} {r : c.Reply} :
    bussed.act t c r x = some y ↔
      x.1.answers t c r = true ∧ x.2.answers t c r = true ∧
        y = (x.1.after t c r, x.2.after t c r) := by
  have hbus : buses.act t c r x.2 = some y.2 ↔
      x.2.answers t c r = true ∧ y.2 = x.2.after t c r := guarded_eq_some
  show ((system.among Happening.toSignal).sync buses).act t c r x = some y ↔ _
  rw [sync_act, hbus]
  show system.act t c r x.1 = some y.1 ∧ _ ↔ _
  rw [system_act]
  constructor
  · rintro ⟨⟨ha, hy⟩, hb, hy'⟩
    exact ⟨ha, hb, Prod.ext hy hy'⟩
  · rintro ⟨ha, hb, rfl⟩
    exact ⟨⟨ha, rfl⟩, hb, rfl⟩

/-- What happens besides the calls leaves the threads and the pointers alone. -/
theorem bussed_env {e : Happening} (h : bussed.env e x = some y) :
    y.1.glib = x.1.glib ∧ y.1.threads = x.1.threads ∧ y.1.ptr = x.1.ptr ∧
      x.2.happen e = some y.2 := by
  obtain ⟨hw, hb⟩ := sync_env.mp h
  cases among_env hw with
  | inl heq =>
    rw [heq]
    exact ⟨rfl, rfl, rfl, hb⟩
  | inr hsignal =>
    obtain ⟨s, -, hs⟩ := hsignal
    rw [← Option.some.inj hs]
    exact ⟨rfl, rfl, rfl, hb⟩

end

end SurfCam

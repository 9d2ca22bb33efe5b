import SurfCam.Camera.Lifetimes

/-!
# The order of releases

Over any sequence of operations of one caller: an allocator is released before a request with one of
its buffers exactly where `queueRequest` refuses a request of `startVideoMode`.  The calls of a
teardown do not throw here, as everywhere.
-/

namespace SurfCam

open Interaction CameraManager

namespace Holding

def init : Holding where
  video := false
  allocator := false
  source := .video
  loose := []
  pending := []
  early := false
  refused := false

/-- What is kept of an operation when the next one begins. -/
def settle (s : Holding) : Holding := { s with early := false, refused := false }

/-- The members and the requests that one caller can leave between two operations. -/
inductive Between (legacy : Bool) : Members → Holding → Prop where
  | initially : Between legacy World.init.members init
  | after {op : Operation} {v w : Members} {s : Holding} {events : List (Event Sys)} {result : Bool}
      (hs : Between legacy v s)
      (h : Members.semantics.Leads (operate legacy op) v events (.value result) w) :
      Between legacy w (observed see s events).settle

/-- What a call makes of `isVideoMode_`. -/
def videoAfter (video : Bool) : SysCall → Bool
  | .store .isVideoMode_ value | .exchange .isVideoMode_ value => value
  | _ => video

section

variable {c : SysCall} {r : c.Reply} {v v' : Members} {s : Holding}

theorem video_see : (see c r s).video = videoAfter s.video c := by
  cases c with
  | store f value | exchange f value => cases f <;> rfl
  | assign p value => cases p <;> rfl
  | addBuffer | pendingPush => cases r <;> rfl
  | _ => rfl

theorem refused_see (c : SysCall) (r : c.Reply) (s : Holding) :
    (see c r s).refused = (s.refused || refuses c r) := by
  cases c with
  | queueRequest => rfl
  | store f value | exchange f value => cases f <;> exact (Bool.or_false _).symm
  | assign p value => cases p <;> exact (Bool.or_false _).symm
  | addBuffer | pendingPush => cases r <;> exact (Bool.or_false _).symm
  | _ => exact (Bool.or_false _).symm

theorem video_of_step (h : Members.step c r v = some v') :
    v'.flag .isVideoMode_ = videoAfter (v.flag .isVideoMode_) c := by
  have hread : ∀ {P : Prop} [Decidable P], (if P then some v else none) = some v' →
      v'.flag .isVideoMode_ = v.flag .isVideoMode_ := by
    intro P _ hs
    split at hs <;> cases hs
    rfl
  cases c with
  | load f =>
    change (if f.ofOperations ∧ r ≠ v.flag f then none else some v) = some v' at h
    split at h <;> cases h
    rfl
  | store f value | exchange f value => cases f <;> cases h <;> rfl
  | isSet p => exact hread h
  | cameraIsRunning => exact hread h
  | gstThreadJoinable => exact hread h
  | cameraStart => cases r <;> cases h <;> rfl
  | spawnGstThread => cases r <;> cases h <;> rfl
  | connect s => cases s <;> cases r <;> cases h <;> rfl
  | disconnect s => cases s <;> cases h <;> rfl
  | _ =>
    cases h
    rfl

/-- The requests know whether video mode is on, as the members do. -/
theorem answers_of_step (hs : s.video = v.flag .isVideoMode_) (h : Members.step c r v = some v') :
    answers c r s = true := by
  cases c with
  | load f =>
    cases f with
    | isVideoMode_ => exact decide_eq_true ((Members.load_of_step rfl h).1.trans hs.symm)
    | _ => rfl
  | _ => rfl

variable {p : Prog Sys Bool} {w : Members} {events : List (Event Sys)} {e : Front Sys Bool}

theorem leads_holding (hs : s.video = v.flag .isVideoMode_)
    (h : Members.semantics.Leads p v events e w) :
    semantics.Leads p s events e (observed see s events) ∧
      (observed see s events).video = w.flag .isVideoMode_ :=
  h.watched (M := semantics)
    (R := fun (v : Members) (s : Holding) => s.video = v.flag .isVideoMode_)
    (fun _ _ _ _ _ hs hstep => ⟨if_pos (answers_of_step hs hstep), by
      rw [video_see, video_of_step hstep, hs]⟩) hs

end

/-- What is known between two operations. -/
structure Known (v : Members) (s : Holding) : Prop extends Rests s where
  mode : v.Mode
  video : s.video = v.flag .isVideoMode_
  early : s.early = false
  refused : s.refused = false

theorem Between.known {legacy : Bool} {v : Members} {s : Holding} (h : Between legacy v s) :
    Known v s := by
  induction h with
  | initially => exact ⟨⟨rfl, fun _ => rfl⟩, .inr Serial.idle_init, rfl, rfl, rfl⟩
  | @after op v w s events result _ h ih =>
    obtain ⟨hpath, hvideo⟩ := leads_holding ih.video h
    have hafter : After op (observed see s events) :=
      hpath.meets (wlp_operate op ih.toRests ih.early ih.refused)
    have hmode : w.Mode := h.meets (Members.wlp_operate (E := fun _ => False) op ih.mode)
    exact ⟨⟨hafter.loose, hafter.pending⟩, hmode, hvideo, rfl, rfl⟩

end Holding

/-- In every operation, every request with a buffer is destroyed before the allocator of the buffer
is released, unless the operation is `startVideoMode` and a request is refused; then it is not. -/
theorem CameraManager.releases_in_order_iff {legacy : Bool} {op : Operation} {v w : Members}
    {s : Holding} {events : List (Event Sys)} {e : Front Sys Bool}
    (hs : Holding.Between legacy v s)
    (h : Members.semantics.Leads (operate legacy op) v events e w) (hover : Members.Over e) :
    (observed Holding.see s events).early = false ↔
      (op.startsVideo = true → ∀ ev ∈ events, refuses ev.1 ev.2 = false) := by
  have hknown := hs.known
  obtain ⟨hpath, -⟩ := Holding.leads_holding hknown.video h
  have hend := hpath.meets
    (Holding.wlp_operate op hknown.toRests hknown.early hknown.refused)
  have hthrow := h.meets (Members.wlp_operate (E := fun _ => False) op hknown.mode)
  have hrefused : (observed Holding.see s events).refused =
      events.any fun ev => refuses ev.1 ev.2 := by
    have hseen : (observed Holding.see s events).refused =
        (s.refused || events.any fun ev => refuses ev.1 ev.2) :=
      observed_flag (S := Sys) Holding.refused_see s events
    rw [hseen, hknown.refused, Bool.false_or]
  have hall : (∀ ev ∈ events, refuses ev.1 ev.2 = false) ↔
      (observed Holding.see s events).refused = false := by
    rw [hrefused, List.any_eq_false]
    exact forall₂_congr fun _ _ => (Bool.not_eq_true _).symm.to_iff
  rw [hall]
  cases e with
  | exception => exact hthrow.elim
  | calls c =>
    obtain ⟨hearly, hnone⟩ := hend hover
    exact ⟨fun _ _ => hnone, fun _ => hearly⟩
  | value b =>
    have hearly := Holding.After.early hend
    rw [hearly]
    cases op.startsVideo with
    | true => exact ⟨fun h _ => h, fun h => h rfl⟩
    | false => exact ⟨fun _ => nofun, fun _ => rfl⟩

namespace Holding

/-- The replies when everything goes well until a request is queued. -/
def replies (queued : Outcome) (v : Members) : (c : SysCall) → Option c.Reply
  | .queueRequest _ => some queued
  | c => Members.replies [true] 1 v c

/-- The acquisition of the camera has nothing to do with requests. -/
theorem between_ready : Between false .ready init := by
  have hfollow : ∃ x, (operate false .initializeCamera).follow Members.semantics
      (Members.replies [true] 1) World.init.members = some x ∧ x.2.1 = .value true ∧
        x.2.2 = Members.ready ∧ (observed see init x.1).settle = init :=
    ⟨_, rfl, rfl, Members.ext (funext fun f => by cases f <;> rfl)
      (funext fun p => by cases p <;> rfl) rfl rfl rfl, rfl⟩
  obtain ⟨x, hx, hvalue, hready, hinit⟩ := hfollow
  have hpath := leads_of_follow hx
  rw [hvalue, hready] at hpath
  exact hinit ▸ .after .initially hpath

end Holding

/-- Video mode is started and stopped: the pending request goes before the allocator. -/
theorem CameraManager.releases_in_order_when_willing :
    ∃ (v w : Members) (s : Holding) (events : List (Event Sys)), Holding.Between false v s ∧
      s.pending = [(0, .video)] ∧ s.allocator = true ∧
        Members.semantics.Leads (operate false .stopVideoMode) v events (.value true) w ∧
          (observed Holding.see s events).allocator = false ∧
            (observed Holding.see s events).early = false := by
  obtain ⟨begun, e, v, hstart, htest⟩ := follow_reaches Members.semantics (Holding.replies .ok)
    (operate false (.startVideoMode 1280 720 30)) .ready
    (fun x => Members.returns true x.2.1 &&
      ((operate false .stopVideoMode).follow Members.semantics (Holding.replies .ok) x.2.2).any
        fun y => Members.returns true y.2.1 && decide
          ((observed Holding.see Holding.init x.1).pending = [(0, .video)] ∧
            (observed Holding.see Holding.init x.1).allocator = true ∧
              (observed Holding.see (observed Holding.see Holding.init x.1).settle y.1).allocator =
                false)) (by decide +kernel)
  obtain ⟨hstarted, hrest⟩ := Bool.and_eq_true_iff.mp htest
  obtain rfl := Members.eq_of_returns hstarted
  obtain ⟨events, e, w, hstop, htest⟩ := follow_reaches _ _ _ _ _ hrest
  obtain ⟨hstopped, hholding⟩ := Bool.and_eq_true_iff.mp htest
  obtain rfl := Members.eq_of_returns hstopped
  obtain ⟨hpending, hset, hreleased⟩ := of_decide_eq_true hholding
  have hbetween := Holding.Between.after Holding.between_ready hstart
  have hearly := CameraManager.releases_in_order_iff hbetween hstop trivial
  exact ⟨v, w, _, events, hbetween, hpending, hset, hstop, hreleased, hearly.mpr nofun⟩

/-- `queueRequest` returns an error in `startVideoMode`: the rollback releases the allocator while the
variable of the loop still owns the request with its buffer. -/
theorem CameraManager.refused_request_outlives_allocator :
    ∃ (events : List (Event Sys)) (w : Members), Holding.Between false .ready Holding.init ∧
      Members.semantics.Leads (operate false (.startVideoMode 1280 720 30)) .ready events
        (.value false) w ∧ (observed Holding.see Holding.init events).early = true := by
  obtain ⟨events, e, w, hpath, htest⟩ := follow_reaches Members.semantics (Holding.replies .failed)
    (operate false (.startVideoMode 1280 720 30)) .ready
    (fun x => Members.returns false x.2.1 && (observed Holding.see Holding.init x.1).early)
    (by decide +kernel)
  obtain ⟨hreturns, hearly⟩ := Bool.and_eq_true_iff.mp htest
  obtain rfl := Members.eq_of_returns hreturns
  exact ⟨events, w, Holding.between_ready, hpath, hearly⟩

end SurfCam

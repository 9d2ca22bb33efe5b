import SurfCam.Camera.Manager
import SurfCam.Camera.World

/-!
# The members as the operations see them

The part of the world that only the operations of `CameraManager` change, and what their calls do to
it: enough to say whether video mode is on or everything is idle, and to follow one operation from
its first call to its last.
-/

namespace SurfCam

open Interaction CameraManager

/-- The flags that callbacks, loop threads and the signal handler leave alone. -/
def Flag.ofOperations : Flag → Bool
  | isInitialized_ | isVideoMode_ | captureActive_ | shuttingDown_ | snapshotsPaused_ => true
  | _ => false

@[ext]
structure Members where
  flag : Flag → Bool
  ptr : Ptr → Bool
  /-- the camera is running -/
  running : Bool
  /-- the slot for video requests is connected -/
  connected : Bool
  /-- `gstThread_.joinable()` -/
  joinable : Bool

/-- The members, with the other flags blanked out. -/
def World.members (w : World) : Members where
  flag f := f.ofOperations && w.flag f
  ptr := w.ptr
  running := w.device.running
  connected := w.device.connected .video
  joinable := w.glib.gstThread_.isSome

namespace Members

def setFlag (v : Members) (f : Flag) (value : Bool) : Members :=
  { v with flag := Function.update v.flag f value }

def setPtr (v : Members) (p : Ptr) (value : Bool) : Members :=
  { v with ptr := Function.update v.ptr p value }

def setRunning (v : Members) (value : Bool) : Members := { v with running := value }

def setConnected (v : Members) (value : Bool) : Members := { v with connected := value }

def setJoinable (v : Members) (value : Bool) : Members := { v with joinable := value }

section

variable (v : Members) (f g : Flag) (p q : Ptr) (b : Bool)

@[simp] theorem flag_setFlag : (v.setFlag f b).flag g = if g = f then b else v.flag g :=
  Function.update_apply ..

@[simp] theorem ptr_setFlag : (v.setFlag f b).ptr = v.ptr := rfl

@[simp] theorem running_setFlag : (v.setFlag f b).running = v.running := rfl

@[simp] theorem connected_setFlag : (v.setFlag f b).connected = v.connected := rfl

@[simp] theorem joinable_setFlag : (v.setFlag f b).joinable = v.joinable := rfl

@[simp] theorem flag_setPtr : (v.setPtr p b).flag = v.flag := rfl

@[simp] theorem ptr_setPtr : (v.setPtr p b).ptr q = if q = p then b else v.ptr q :=
  Function.update_apply ..

@[simp] theorem running_setPtr : (v.setPtr p b).running = v.running := rfl

@[simp] theorem connected_setPtr : (v.setPtr p b).connected = v.connected := rfl

@[simp] theorem joinable_setPtr : (v.setPtr p b).joinable = v.joinable := rfl

@[simp] theorem ptr_setRunning : (v.setRunning b).ptr = v.ptr := rfl

@[simp] theorem ptr_setConnected : (v.setConnected b).ptr = v.ptr := rfl

@[simp] theorem ptr_setJoinable : (v.setJoinable b).ptr = v.ptr := rfl

end

/-- What a call does to the members, for the replies that it can get. -/
def step : (c : SysCall) → c.Reply → Members → Option Members
  | .load f, r, v => if f.ofOperations ∧ r ≠ v.flag f then none else some v
  | .store f value, _, v | .exchange f value, _, v =>
    some (if f.ofOperations then v.setFlag f value else v)
  | .isSet p, r, v => if r = v.ptr p then some v else none
  | .assign p value, _, v => some (v.setPtr p value)
  | .cameraIsRunning, r, v => if r = v.running then some v else none
  | .cameraStart, .ok, v => some (v.setRunning true)
  | .stopEnd, _, v => some (v.setRunning false)
  | .connect .video, .ok, v => some (v.setConnected true)
  | .disconnect .video, _, v => some (v.setConnected false)
  | .spawnGstThread, .ok, v => some (v.setJoinable true)
  | .gstThreadJoinable, r, v => if r = v.joinable then some v else none
  | .gstThreadJoin, _, v => some (v.setJoinable false)
  | _, _, v => some v

/-- What the calls that make a pipeline, a loop and its thread require of the members. -/
def requires : SysCall → Members → Prop
  | .pipelineNew, v => v.joinable = false ∧ v.ptr .pipeline_ = false
  | .mainLoopNew, v => v.joinable = false
  | .spawnGstThread, v => v.ptr .loop_ = true
  | _, _ => True

/-- The members under the calls of one thread of operations. -/
def semantics : Local Sys Members where
  step := step
  ok := requires

/-- The calls that change the members, or make the loop of `gstThread_`. -/
def Writes : SysCall → Bool
  | .store f _ | .exchange f _ => f.ofOperations
  | .assign _ _ | .cameraStart | .stopEnd | .connect .video | .disconnect .video | .mainLoopNew
  | .spawnGstThread | .gstThreadJoin => true
  | _ => false

/-- The calls that do not concern the members. -/
def Ignores : SysCall → Bool
  | .load f => !f.ofOperations
  | .isSet _ | .cameraIsRunning | .gstThreadJoinable | .pipelineNew => false
  | c => !Writes c

theorem step_of_ignores {c : SysCall} (h : Ignores c = true) (r : c.Reply) (v : Members) :
    step c r v = some v := by
  unfold step
  split <;> simp_all [Ignores, Writes]

theorem requires_of_ignores {c : SysCall} (h : Ignores c = true) (v : Members) :
    requires c v := by
  unfold requires
  split
  · cases h
  · cases h
  · cases h
  · trivial

/-! ## The rules of the calls -/

section

variable {α : Type} {Q : α → Members → Prop} {E : Members → Prop} {v : Members}

/-- A call with one outcome for each reply. -/
theorem wlp_call_step {c : SysCall} {k : c.Reply → Prog Sys α} {n : c.Reply → Members}
    (hc : requires c v) (h : ∀ r, step c r v = some (n r)) :
    semantics.wlp (.call c k) Q E v ↔ ∀ r, semantics.wlp (k r) Q E (n r) := by
  constructor
  · exact fun hw r => hw.2 r _ (h r)
  · intro hQ
    refine ⟨hc, fun r v' hs => ?_⟩
    cases (h r).symm.trans hs
    exact hQ r

@[simp] theorem wlp_ignored {c : SysCall} {k : c.Reply → Prog Sys α} (h : Ignores c = true) :
    semantics.wlp (.call c k) Q E v ↔ ∀ r, semantics.wlp (k r) Q E v :=
  wlp_call_step (n := fun _ => v) (requires_of_ignores h v) fun r => step_of_ignores h r v

/-- A call with no reply to speak of. -/
theorem wlp_write {c : SysCall} {k : c.Reply → Prog Sys α} {v' : Members} (u : c.Reply)
    (hu : ∀ r, r = u) (hc : requires c v) (h : step c u v = some v') :
    semantics.wlp (.call c k) Q E v ↔ semantics.wlp (k u) Q E v' := by
  rw [wlp_call_step (n := fun _ => v') hc fun r => hu r ▸ h]
  exact ⟨fun hw => hw u, fun hw r => hu r ▸ hw⟩

/-- A call that reads one of the members. -/
theorem wlp_read {c : SysCall} {k : c.Reply → Prog Sys α} (a : c.Reply) (hc : requires c v)
    (h : ∀ r v', step c r v = some v' ↔ r = a ∧ v' = v) :
    semantics.wlp (.call c k) Q E v ↔ semantics.wlp (k a) Q E v := by
  constructor
  · intro hw
    exact hw.2 a v ((h a v).mpr ⟨rfl, rfl⟩)
  · intro hQ
    refine ⟨hc, fun r v' hs => ?_⟩
    rcases (h r v').mp hs with ⟨rfl, rfl⟩
    exact hQ

theorem eq_of_guard {β : Type} [DecidableEq β] (r a : β) (v' : Members) :
    (if r = a then some v else none) = some v' ↔ r = a ∧ v' = v := by
  by_cases h : r = a
  · rw [if_pos h]
    exact ⟨fun hs => ⟨h, (Option.some.inj hs).symm⟩, fun hs => hs.2 ▸ rfl⟩
  · rw [if_neg h]
    exact ⟨nofun, fun hs => absurd hs.1 h⟩

@[simp] theorem wlp_isSet {p : Ptr} {k : Bool → Prog Sys α} :
    semantics.wlp (.call (.isSet p) k) Q E v ↔ semantics.wlp (k (v.ptr p)) Q E v :=
  wlp_read (c := .isSet p) (v.ptr p) trivial fun r v' => eq_of_guard r (v.ptr p) v'

@[simp] theorem wlp_cameraIsRunning {k : Bool → Prog Sys α} :
    semantics.wlp (.call .cameraIsRunning k) Q E v ↔ semantics.wlp (k v.running) Q E v :=
  wlp_read (c := .cameraIsRunning) v.running trivial fun r v' => eq_of_guard r v.running v'

@[simp] theorem wlp_gstThreadJoinable {k : Bool → Prog Sys α} :
    semantics.wlp (.call .gstThreadJoinable k) Q E v ↔ semantics.wlp (k v.joinable) Q E v :=
  wlp_read (c := .gstThreadJoinable) v.joinable trivial fun r v' => eq_of_guard r v.joinable v'

@[simp] theorem wlp_load {f : Flag} {k : Bool → Prog Sys α} (h : f.ofOperations = true) :
    semantics.wlp (.call (.load f) k) Q E v ↔ semantics.wlp (k (v.flag f)) Q E v := by
  apply wlp_read (c := .load f) _ trivial
  intro r v'
  rw [← eq_of_guard r (v.flag f) v']
  simp only [step, h, true_and, ne_eq, ite_not]

@[simp] theorem wlp_store {f : Flag} {b : Bool} {k : Unit → Prog Sys α} (h : f.ofOperations = true) :
    semantics.wlp (.call (.store f b) k) Q E v ↔ semantics.wlp (k ()) Q E (v.setFlag f b) :=
  wlp_write (c := .store f b) () (fun _ => rfl) trivial (congrArg some (if_pos h))

@[simp] theorem wlp_assign {p : Ptr} {b : Bool} {k : Unit → Prog Sys α} :
    semantics.wlp (.call (.assign p b) k) Q E v ↔ semantics.wlp (k ()) Q E (v.setPtr p b) :=
  wlp_write (c := .assign p b) () (fun _ => rfl) trivial rfl

@[simp] theorem wlp_stopEnd {k : Unit → Prog Sys α} :
    semantics.wlp (.call .stopEnd k) Q E v ↔
      semantics.wlp (k ()) Q E (v.setRunning false) :=
  wlp_write (c := .stopEnd) () (fun _ => rfl) trivial rfl

@[simp] theorem wlp_gstThreadJoin {k : Unit → Prog Sys α} :
    semantics.wlp (.call .gstThreadJoin k) Q E v ↔
      semantics.wlp (k ()) Q E (v.setJoinable false) :=
  wlp_write (c := .gstThreadJoin) () (fun _ => rfl) trivial rfl

@[simp] theorem wlp_disconnect {k : Unit → Prog Sys α} :
    semantics.wlp (.call (.disconnect .video) k) Q E v ↔
      semantics.wlp (k ()) Q E (v.setConnected false) :=
  wlp_write (c := .disconnect .video) () (fun _ => rfl) trivial rfl

/-- A call that changes a member where it succeeds. -/
theorem wlp_outcome {c : SysCall} {k : c.Reply → Prog Sys α} {ok failed threw : c.Reply}
    (hc : requires c v) (hr : ∀ r, r = ok ∨ r = failed ∨ r = threw) {v' : Members}
    (hok : step c ok v = some v') (hfailed : step c failed v = some v)
    (hthrew : step c threw v = some v) :
    semantics.wlp (.call c k) Q E v ↔ semantics.wlp (k ok) Q E v' ∧
      semantics.wlp (k failed) Q E v ∧ semantics.wlp (k threw) Q E v := by
  constructor
  · exact fun hw => ⟨hw.2 _ _ hok, hw.2 _ _ hfailed, hw.2 _ _ hthrew⟩
  · rintro ⟨h, h', h''⟩
    refine ⟨hc, fun r w hs => ?_⟩
    rcases hr r with rfl | rfl | rfl
    · cases hok.symm.trans hs
      exact h
    · cases hfailed.symm.trans hs
      exact h'
    · cases hthrew.symm.trans hs
      exact h''

theorem outcome_cases (r : Outcome) : r = .ok ∨ r = .failed ∨ r = .threw := by
  cases r <;> simp

@[simp] theorem wlp_cameraStart {k : Outcome → Prog Sys α} :
    semantics.wlp (.call .cameraStart k) Q E v ↔
      semantics.wlp (k .ok) Q E (v.setRunning true) ∧ semantics.wlp (k .failed) Q E v ∧
        semantics.wlp (k .threw) Q E v :=
  wlp_outcome (c := .cameraStart) trivial outcome_cases rfl rfl rfl

@[simp] theorem wlp_connect {k : Outcome → Prog Sys α} :
    semantics.wlp (.call (.connect .video) k) Q E v ↔
      semantics.wlp (k .ok) Q E (v.setConnected true) ∧ semantics.wlp (k .failed) Q E v ∧
        semantics.wlp (k .threw) Q E v :=
  wlp_outcome (c := .connect .video) trivial outcome_cases rfl rfl rfl

theorem wlp_spawnGstThread {k : Outcome → Prog Sys α} (h : v.ptr .loop_ = true) :
    semantics.wlp (.call .spawnGstThread k) Q E v ↔
      semantics.wlp (k .ok) Q E (v.setJoinable true) ∧ semantics.wlp (k .failed) Q E v ∧
        semantics.wlp (k .threw) Q E v :=
  wlp_outcome (c := .spawnGstThread) h outcome_cases rfl rfl rfl

theorem wlp_mainLoopNew {k : Unit → Prog Sys α} (h : v.joinable = false) :
    semantics.wlp (.call .mainLoopNew k) Q E v ↔ semantics.wlp (k ()) Q E v :=
  wlp_write (c := .mainLoopNew) () (fun _ => rfl) h rfl

/-- Where no pipeline and no thread of a loop is left, a pipeline may be made. -/
theorem wlp_pipelineNew {k : Bool → Prog Sys α} (hj : v.joinable = false)
    (hp : v.ptr .pipeline_ = false) :
    semantics.wlp (.call .pipelineNew k) Q E v ↔ ∀ made, semantics.wlp (k made) Q E v := by
  rw [Local.wlp_call]
  constructor
  · exact fun h made => h.2 made v rfl
  · intro h
    refine ⟨⟨hj, hp⟩, fun made v' hs => ?_⟩
    cases hs
    exact h made

@[simp] theorem wlp_orThrow {r : Outcome} {Q : Unit → Members → Prop} :
    semantics.wlp r.orThrow Q E v ↔ if r = .ok then Q () v else E v := by
  cases r <;> rfl

@[simp] theorem wlp_check {r : Outcome} {Q : Bool → Members → Prop} :
    semantics.wlp r.check Q E v ↔ if r = .threw then E v else Q (r = .ok) v := by
  cases r <;> rfl

@[simp] theorem wlp_when {b : Bool} {p : Prog Sys Unit} {Q : Unit → Members → Prop} :
    semantics.wlp (Prog.when b p) Q E v ↔ if b then semantics.wlp p Q E v else Q () v := by
  cases b <;> rfl

/-- A lock guard does not concern the members. -/
@[simp] theorem wlp_lockGuard {m : Mutex} {p : Prog Sys α} :
    semantics.wlp (lockGuard m p) Q E v ↔ semantics.wlp p Q E v := by
  have hunlock : ∀ (P : Unit → Members → Prop) (F : Members → Prop) (v : Members),
      semantics.wlp (sys (.unlock m)) P F v ↔ P () v := by
    intro P F v
    rw [wlp_ignored rfl]
    exact Unique.forall_iff
  show semantics.wlp (.call (.lock m) fun _ => p.ensuring (sys (.unlock m))) Q E v ↔ _
  rw [wlp_ignored rfl, Local.wlp_ensuring]
  simp only [hunlock]
  exact Unique.forall_iff

end

/-! ## The members in the world -/

section

variable {t : Tid} {c : SysCall} {r : c.Reply} {w w' : World}

theorem members_after (h : Writes c = false) : (w.after t c r).members = w.members := by
  ext x
  · show (x.ofOperations && World.flagAfter w c x) = (x.ofOperations && w.flag x)
    -- a flag that is written is not one of the operations'
    have hother : ∀ f value, f.ofOperations = false →
        (x.ofOperations && Function.update w.flag f value x) = (x.ofOperations && w.flag x) := by
      intro f value hf
      rw [Function.update_apply]
      split
      · rename_i hx
        rw [hx, hf]
        rfl
      · rfl
    unfold World.flagAfter
    split
    · exact hother _ _ h
    · exact hother _ _ h
    · rfl
  · show World.ptrAfter w c x = w.ptr x
    unfold World.ptrAfter
    split
    · cases h
    · rfl
  · show (World.deviceAfter t w.device c r).running = w.device.running
    unfold World.deviceAfter
    split <;> first | rfl | cases h
  · show (World.deviceAfter t w.device c r).connected .video = w.device.connected .video
    unfold World.deviceAfter
    split
    · rename_i s
      cases s
      · rfl
      · cases h
    · rename_i s _
      cases s
      · rfl
      · cases h
    all_goals rfl
  · show (World.glibAfter t w.glib c r).gstThread_.isSome = w.glib.gstThread_.isSome
    unfold World.glibAfter
    split
    · rfl
    · rfl
    · cases h
    · cases h
    · split <;> rfl
    · split <;> rfl
    · rfl

theorem writes_of_ignores (h : Ignores c = true) : Writes c = false := by
  unfold Ignores at h
  split at h
  · rfl
  · rfl
  · rfl
  · rfl
  · rfl
  · exact Bool.not_eq_true' _ |>.mp h

/-- The signal handler leaves the members alone. -/
theorem members_of_env {e : Signal} (h : system.env e w = some w') : w'.members = w.members := by
  cases h
  ext x
  · show (x.ofOperations && Function.update w.flag .keepRunning false x) = _
    cases x <;> rfl
  all_goals rfl

/-- Whichever flag of the operations is stored to, the members have it. -/
theorem members_of_update {f : Flag} {value : Bool} (h : f.ofOperations = true) :
    (if f.ofOperations then w.members.setFlag f value else w.members) =
      World.members { w with flag := Function.update w.flag f value } := by
  rw [if_pos h]
  ext x
  · show (w.members.setFlag f value).flag x = (x.ofOperations && Function.update w.flag f value x)
    rw [flag_setFlag, Function.update_apply]
    split
    · rename_i hx
      rw [hx, h]
      rfl
    · rfl
  all_goals rfl

/-- Whichever thread makes a call, the members change as `step` says. -/
theorem step_of_act (h : system.act t c r w = some w') :
    step c r w.members = some w'.members := by
  rcases system_act.mp h with ⟨hanswer, rfl⟩
  rcases World.answers_iff.mp hanswer with ⟨hshared, hdevice, hglib, -⟩
  by_cases hc : Ignores c = true
  · rw [step_of_ignores hc, members_after (writes_of_ignores hc)]
  · cases c with
    | load f =>
      have hr : r = w.flag f := of_decide_eq_true hshared
      have hf : f.ofOperations = true := by simpa [Ignores] using hc
      show (if f.ofOperations ∧ r ≠ (f.ofOperations && w.flag f) then none else _) = _
      rw [hf, hr, if_neg fun h => h.2 (Bool.true_and _).symm]
      rfl
    | store f value => exact congrArg some (members_of_update (by simpa [Ignores, Writes] using hc))
    | exchange f value => exact congrArg some (members_of_update (by simpa [Ignores, Writes] using hc))
    | isSet p => exact if_pos (of_decide_eq_true hshared)
    | cameraIsRunning => exact if_pos (of_decide_eq_true hdevice)
    | gstThreadJoinable => exact if_pos (of_decide_eq_true hglib)
    | assign p value => rfl
    | cameraStart => cases r <;> rfl
    | stopEnd => rfl
    | connect s => cases s <;> cases r <;> rfl
    | disconnect s => cases s <;> rfl
    | spawnGstThread => cases r <;> rfl
    | gstThreadJoin => rfl
    | pipelineNew => rfl
    | mainLoopNew => rfl
    | _ => exact absurd rfl hc

end

end Members

end SurfCam

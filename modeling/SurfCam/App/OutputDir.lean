import SurfCam.Logic.Product
import SurfCam.System

/-!
# The output directory

`HLS_OUTPUT_DIR` and the encoders.  From the moment a pipeline is set to playing until it is set to
null, its encoder writes segments and playlists to the directory.  Files are removed at any time:
by the encoder, and by the cleanup of `streamHlsWorker` while it is under way.
-/

namespace SurfCam

open Interaction

structure OutputFile where
  name : Str
  /-- the thread that had set the encoder's pipeline to playing; none for a file that is older than
  the program -/
  writer : Option Tid
  /-- the file was there when the last HLS worker began -/
  found : Bool
  deriving DecidableEq

/-- The pipelines are numbered, and `pipeline_` is the last one that was made. -/
structure OutputDir where
  files : List OutputFile
  made : Nat
  /-- who has set the pipeline to playing, until it is set to null -/
  encoder : Nat → Option Tid

/-- What happens besides the calls: an encoder writes a file, or a file is removed. -/
inductive FileEvent where
  | signal (s : Signal)
  | written (pipeline : Nat) (name : Str)
  | removed (name : Str)
  deriving DecidableEq

def FileEvent.toSignal : FileEvent → Option Signal
  | signal s => some s
  | written _ _ | removed _ => none

namespace OutputDir

def after (t : Tid) (d : OutputDir) : SysCall → OutputDir
  | .assign .pipeline_ true => { d with made := d.made + 1 }
  -- the encoder belongs to the pipeline that was made last, and to the thread that plays it
  | .setState .playing => { d with encoder := Function.update d.encoder d.made (some t) }
  | .setState .null => { d with encoder := Function.update d.encoder d.made none }
  | .threadBegin =>
    match t with
    | .hls _ => { d with files := d.files.map fun f => { f with found := true } }
    | _ => d
  | _ => d

/-- The cleanup does not end well before every file that it found is gone. -/
def answers (d : OutputDir) : (c : SysCall) → c.Reply → Bool
  -- files that an encoder writes meanwhile may stay
  | .cleanHlsDirectory, .ok => d.files.all fun f => !f.found
  | _, _ => true

def happen : FileEvent → OutputDir → Option OutputDir
  | .signal _, d => some d
  | .written k name, d =>
    if (d.encoder k).isSome then
      some { d with files := ⟨name, d.encoder k, false⟩ :: d.files.filter (·.name ≠ name) }
    else none
  | .removed name, d => some { d with files := d.files.filter (·.name ≠ name) }

/-- No encoder is running. -/
def Silent (d : OutputDir) : Prop := ∀ k, d.encoder k = none

section

variable {t : Tid} {c : SysCall} {d d' : OutputDir}

/-- Only a state change starts an encoder. -/
theorem encoder_of_after {k : Nat} {v : Tid} (h : (d.after t c).encoder k = some v) :
    d.encoder k = some v ∨ c = .setState .playing ∧ v = t ∧ k = d.made := by
  cases c with
  | setState s =>
    cases s with
    | null =>
      change Function.update d.encoder d.made none k = some v at h
      rw [Function.update_apply] at h
      split at h
      · cases h
      · exact .inl h
    | playing =>
      change Function.update d.encoder d.made (some t) k = some v at h
      rw [Function.update_apply] at h
      split at h
      · rename_i hk
        exact .inr ⟨rfl, (Option.some.inj h).symm, hk⟩
      · exact .inl h
  | assign p value => cases p <;> cases value <;> exact .inl h
  | threadBegin => cases t <;> exact .inl h
  | _ => exact .inl h

theorem silent_after (hc : c ≠ .setState .playing) (h : d.Silent) : (d.after t c).Silent := by
  intro k
  cases hk : (d.after t c).encoder k with
  | none => rfl
  | some v =>
    cases encoder_of_after hk with
    | inl hbefore => cases (h k).symm.trans hbefore
    -- an encoder that was not there before has been started by this call
    | inr hplays => exact absurd hplays.1 hc

/-- Only a new pipeline changes which one is the last. -/
theorem made_after (hc : c ≠ .assign .pipeline_ true) : (d.after t c).made = d.made := by
  cases c with
  | setState s => cases s <;> rfl
  | assign p value => cases p <;> cases value <;> first | rfl | exact absurd rfl hc
  | threadBegin => cases t <;> rfl
  | _ => rfl

/-- The calls write no file. -/
theorem of_mem_after {f : OutputFile} (h : f ∈ (d.after t c).files) :
    f ∈ d.files ∨ f.found = true ∧ ∃ g ∈ d.files, g.writer = f.writer := by
  cases c with
  | setState s => cases s <;> exact .inl h
  | assign p value => cases p <;> cases value <;> exact .inl h
  | threadBegin =>
    cases t with
    | hls n =>
      obtain ⟨g, hg, rfl⟩ := List.mem_map.mp h
      exact .inr ⟨rfl, g, hg, rfl⟩
    | _ => exact .inl h
  | _ => exact .inl h

/-- A file that is there after an event was there before, or an encoder has written it. -/
theorem of_happen {e : FileEvent} (h : d.happen e = some d') :
    d'.made = d.made ∧ d'.encoder = d.encoder ∧
      ∀ f ∈ d'.files, f ∈ d.files ∨ ∃ k v, d.encoder k = some v ∧ f.writer = some v := by
  cases e with
  | signal s =>
    rw [← Option.some.inj h]
    exact ⟨rfl, rfl, fun _ => .inl⟩
  | removed name =>
    rw [← Option.some.inj h]
    exact ⟨rfl, rfl, fun _ hf => .inl (List.mem_of_mem_filter hf)⟩
  | written k name =>
    obtain ⟨hencoder, rfl⟩ := guarded_eq_some.mp h
    obtain ⟨v, hv⟩ := Option.isSome_iff_exists.mp hencoder
    refine ⟨rfl, rfl, fun f hf => ?_⟩
    cases List.mem_cons.mp hf with
    | inl hnew => exact .inr ⟨k, v, hv, hnew ▸ hv⟩
    | inr hold => exact .inl (List.mem_of_mem_filter hold)

end

end OutputDir

def outputDir : Machine Sys Tid OutputDir FileEvent where
  act t c r d := if d.answers c r then some (d.after t c) else none
  env := OutputDir.happen

/-- The threads' world with the output directory. -/
def filed : Machine Sys Tid (World × OutputDir) FileEvent :=
  (system.among FileEvent.toSignal).sync outputDir

section

variable {x y : World × OutputDir}

theorem filed_act {t : Tid} {c : SysCall} {r : c.Reply} :
    filed.act t c r x = some y ↔
      x.1.answers t c r = true ∧ x.2.answers c r = true ∧
        y = (x.1.after t c r, x.2.after t c) := by
  have hdir : outputDir.act t c r x.2 = some y.2 ↔
      x.2.answers c r = true ∧ y.2 = x.2.after t c := guarded_eq_some
  show ((system.among FileEvent.toSignal).sync outputDir).act t c r x = some y ↔ _
  rw [sync_act, hdir]
  show system.act t c r x.1 = some y.1 ∧ _ ↔ _
  rw [system_act]
  constructor
  · rintro ⟨⟨ha, hy⟩, hd, hy'⟩
    exact ⟨ha, hd, Prod.ext hy hy'⟩
  · rintro ⟨ha, hd, rfl⟩
    exact ⟨⟨ha, rfl⟩, hd, rfl⟩

/-- What happens besides the calls leaves the threads, the mutexes and video mode alone. -/
theorem filed_env {e : FileEvent} (h : filed.env e x = some y) :
    y.1.threads = x.1.threads ∧ y.1.owner = x.1.owner ∧ y.1.ptr = x.1.ptr ∧
      y.1.flag .isVideoMode_ = x.1.flag .isVideoMode_ ∧ x.2.happen e = some y.2 := by
  obtain ⟨hw, hd⟩ := sync_env.mp h
  cases among_env hw with
  | inl heq =>
    rw [heq]
    exact ⟨rfl, rfl, rfl, rfl, hd⟩
  | inr hsignal =>
    obtain ⟨s, -, hs⟩ := hsignal
    rw [← Option.some.inj hs]
    exact ⟨rfl, rfl, rfl, rfl, hd⟩

end

end SurfCam

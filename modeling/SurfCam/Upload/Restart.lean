import SurfCam.Logic.Product
import SurfCam.Upload.Window

/-!
# Segment names across sessions

A new session starts with an empty directory, an empty name cache and a new `hlssink`, which numbers
its segments from 0.  The object key has nothing of the session in it, so the segments of one
session are uploaded under the keys of the one before.
-/

namespace SurfCam

open Interaction Contract HlsUploadPolicy Window

namespace Restart

/-- The directory and the bucket. -/
structure World where
  /-- the number of the encoder's next segment -/
  next : Nat
  /-- the segment files, by name -/
  content : Str → Option Str
  /-- the object keys and bytes of the segments uploaded in this session -/
  recent : List (Str × Str)
  /-- those of the earlier sessions -/
  older : List (Str × Str)

section

variable (spotId dirPath : Str)

/-- The bytes behind a path of the directory. -/
def bytesOf (w : World) (path : Str) : Option Str :=
  w.content (path.drop (pathAppend dirPath []).length)

/-- An upload that is answered true has found its file. -/
def fileReply (w : World) : (c : HostCall) → c.Reply → Bool
  | .uploadLocalFileWithPresign objectKey _ path, true =>
    objectKey = s3KeyForFile spotId Config.HLS_PLAYLIST_NAME ∨ (bytesOf dirPath w path).isSome
  | _, _ => true

/-- What a call leaves behind.  The owner's `resetSession` begins a session: the worker goes on to
empty the directory and to start a new encoder. -/
def after (w : World) : (c : HostCall) → c.Reply → World
  | .uploadLocalFileWithPresign objectKey _ path, true =>
    if objectKey = s3KeyForFile spotId Config.HLS_PLAYLIST_NAME then w
    else
      match bytesOf dirPath w path with
      | some data => { w with recent := (objectKey, data) :: w.recent }
      | none => w
  | .nextCall, .resetSession => ⟨0, fun _ => none, [], w.recent ++ w.older⟩
  | _, _ => w

/-- The encoder numbers its segments from 0, and removes the old ones. -/
def encoded (w : World) : Encode → Option World
  | .drop first =>
    some { w with
      content := fun name => if ∃ index < first, name = segmentName index then none
        else w.content name }
  | .write index data =>
    if index ≤ w.next then
      some { w with
        next := max w.next (index + 1)
        content := Function.update w.content (segmentName index) (some data) }
    else none

def bucket : Machine Host Unit World Encode where
  act _ c r w := if fileReply spotId dirPath w c r then some (after spotId dirPath w c r) else none
  env e w := encoded w e

/-- An uploader, its encoder and the bucket. -/
def machine (width : Nat) : Machine Host Unit (Window.World × World) Encode :=
  (Window.machine width spotId dirPath).sync (bucket spotId dirPath)

end

/-- All uploads of a segment under one key had the same bytes. -/
def Immutable (w : World) : Prop :=
  ∀ key a b, (key, a) ∈ w.recent ++ w.older → (key, b) ∈ w.recent ++ w.older → a = b

/-- A segment whose number an earlier session has uploaded is written with the bytes uploaded
then. -/
def SameAgain (spotId : Str) (x : Window.World × World) : Label Host Unit Encode → Prop
  | .env (.write index data) =>
    ∀ upload ∈ x.2.older, upload.1 = s3KeyForFile spotId (segmentName index) → data = upload.2
  | _ => True

instance (spotId : Str) (x : Window.World × World) : (l : Label Host Unit Encode) →
    Decidable (SameAgain spotId x l)
  | .env (.write index data) => inferInstanceAs (Decidable (∀ upload ∈ x.2.older,
      upload.1 = s3KeyForFile spotId (segmentName index) → data = upload.2))
  | .env (.drop _) | .act _ _ _ | .resume _ => .isTrue trivial

/-- What keeps the keys immutable: the files of this session agree with the uploads of the earlier
ones, and this session's uploads are those of the name cache. -/
structure Kept (spotId : Str) (x : Window.World × World) : Prop where
  immutable : Immutable x.2
  agree : ∀ name data, x.2.content name = some data → ∀ earlier,
    (s3KeyForFile spotId name, earlier) ∈ x.2.older → data = earlier
  recent : ∀ upload ∈ x.2.recent, ∃ name ∈ x.1.accepted, upload.1 = s3KeyForFile spotId name

section

variable {spotId dirPath : Str} {width : Nat} {x : Window.World × World}

theorem bytesOf_pathAppend (w : World) (name : Str) :
    bytesOf dirPath w (pathAppend dirPath name) = w.content name := by
  rw [bytesOf, pathAppend_eq dirPath name, List.drop_left]

theorem Kept.accepted {w : Window.World} (h : Kept spotId x)
    (ha : ∀ name ∈ x.1.accepted, name ∈ w.accepted) : Kept spotId (w, x.2) where
  immutable := h.immutable
  agree := h.agree
  recent upload hu := by
    rcases h.recent upload hu with ⟨name, hname, hkey⟩
    exact ⟨name, ha name hname, hkey⟩

/-- The encoder writes. -/
theorem Kept.write {index : Nat} {data : Str} {w : World} (h : Kept spotId x)
    (hok : SameAgain spotId x (.env (.write index data)))
    (hw : encoded x.2 (.write index data) = some w) : Kept spotId (x.1, w) := by
  obtain ⟨-, rfl⟩ := guarded_eq_some.mp hw
  refine ⟨h.immutable, fun name bytes hbytes earlier hearlier => ?_, h.recent⟩
  dsimp only at hbytes
  by_cases hname : name = segmentName index
  · subst hname
    rw [Function.update_self] at hbytes
    exact Option.some.inj hbytes ▸ hok _ hearlier rfl
  · rw [Function.update_of_ne hname] at hbytes
    exact h.agree name bytes hbytes earlier hearlier

/-- Files go. -/
theorem Kept.drop {first : Nat} {w : World} (h : Kept spotId x)
    (hw : encoded x.2 (.drop first) = some w) : Kept spotId (x.1, w) := by
  obtain rfl := Option.some.inj hw
  refine ⟨h.immutable, fun name bytes hbytes => h.agree name bytes ?_, h.recent⟩
  dsimp only at hbytes
  split at hbytes
  · cases hbytes
  · exact hbytes

/-- A new session begins. -/
theorem Kept.reset (h : Kept spotId x) (w : Window.World) :
    Kept spotId (w, ⟨0, fun _ => none, [], x.2.recent ++ x.2.older⟩) :=
  ⟨h.immutable, nofun, nofun⟩

/-- A segment is uploaded that this session has not uploaded before. -/
theorem Kept.upload {name data : Str} (h : Kept spotId x) (hnew : name ∉ x.1.accepted)
    (hdata : x.2.content name = some data) :
    Kept spotId ({ x.1 with accepted := name :: x.1.accepted },
      { x.2 with recent := (s3KeyForFile spotId name, data) :: x.2.recent }) := by
  have hagree : ∀ earlier,
      (s3KeyForFile spotId name, earlier) ∈ x.2.recent ++ x.2.older → data = earlier := by
    intro earlier he
    rcases List.mem_append.mp he with hrecent | holder
    · rcases h.recent _ hrecent with ⟨other, hother, hkey⟩
      obtain rfl := s3KeyForFile_injective spotId hkey
      exact absurd hother hnew
    · exact h.agree name data hdata earlier holder
  refine ⟨fun key a b ha hb => ?_, h.agree, fun upload hu => ?_⟩
  · rcases List.mem_cons.mp ha with heq | ha <;> rcases List.mem_cons.mp hb with heq' | hb
    · rw [(Prod.mk.inj heq).2, (Prod.mk.inj heq').2]
    · obtain ⟨rfl, rfl⟩ := Prod.mk.inj heq
      exact hagree b hb
    · obtain ⟨rfl, rfl⟩ := Prod.mk.inj heq'
      exact (hagree a ha).symm
    · exact h.immutable key a b ha hb
  · rcases List.mem_cons.mp hu with rfl | hu
    · exact ⟨name, .head _, rfl⟩
    · rcases h.recent upload hu with ⟨other, hother, hkey⟩
      exact ⟨other, .tail _ hother, hkey⟩

theorem bucket_act {c : HostCall} {r : c.Reply} {w w' : World}
    (h : (bucket spotId dirPath).act () c r w = some w') :
    fileReply spotId dirPath w c r = true ∧ w' = after spotId dirPath w c r :=
  guarded_eq_some.mp h

/-- A call that uploads nothing and begins no session. -/
theorem kept_quiet {c : HostCall} {r : c.Reply} (h : Kept spotId x)
    (ha : (Window.after spotId x.1 c r).accepted = x.1.accepted)
    (hw : after spotId dirPath x.2 c r = x.2) :
    Kept spotId (Window.after spotId x.1 c r, after spotId dirPath x.2 c r) := by
  rw [hw]
  exact h.accepted fun name hname => ha.symm ▸ hname

/-- A call of the uploader. -/
theorem kept_act {c : HostCall} {r : c.Reply} {y : Window.World × World} (h : Kept spotId x)
    (hp : offerPre width spotId dirPath x.1 c)
    (hact : (machine spotId dirPath width).act () c r x = some y) : Kept spotId y := by
  rcases sync_act.mp hact with ⟨hleft, hright⟩
  rcases Window.act_eq hleft with ⟨-, hy⟩
  rcases bucket_act hright with ⟨hreply, hy'⟩
  have hpair : y = (Window.after spotId x.1 c r, after spotId dirPath x.2 c r) := Prod.ext hy hy'
  rw [hpair]
  clear hpair hy hy' hact hleft hright
  cases c with
  | nextCall =>
    cases r with
    | resetSession => exact h.reset _
    | pollAndUpload path => exact kept_quiet h rfl rfl
  | uploadLocalFileWithPresign objectKey contentType path =>
    cases r with
    | false => exact kept_quiet h rfl rfl
    | true =>
    by_cases hkey : objectKey = s3KeyForFile spotId Config.HLS_PLAYLIST_NAME
    · refine kept_quiet h ?_ ?_
      · simp only [Window.after, if_pos hkey]
      · simp only [after, if_pos hkey]
    rcases hp.resolve_left hkey with ⟨name, -, hnew, rfl, rfl⟩
    have hfile := (of_decide_eq_true hreply).resolve_left hkey
    rw [bytesOf_pathAppend] at hfile
    obtain ⟨data, hdata⟩ := Option.isSome_iff_exists.mp hfile
    have hleft : Window.after spotId x.1 (.uploadLocalFileWithPresign (s3KeyForFile spotId name)
        contentType (pathAppend dirPath name)) true =
          { x.1 with accepted := name :: x.1.accepted } := by
      simp only [Window.after, if_neg hkey, nameOfKey_eq]
    have hright : after spotId dirPath x.2 (.uploadLocalFileWithPresign (s3KeyForFile spotId name)
        contentType (pathAppend dirPath name)) true =
          { x.2 with recent := (s3KeyForFile spotId name, data) :: x.2.recent } := by
      simp only [after, if_neg hkey, bytesOf_pathAppend, hdata]
    rw [hleft, hright]
    exact h.upload hnew hdata
  | _ => exact kept_quiet h rfl rfl

theorem kept_env {e : Encode} {y : Window.World × World} (h : Kept spotId x)
    (hok : SameAgain spotId x (.env e)) (henv : (machine spotId dirPath width).env e x = some y) :
    Kept spotId y := by
  rcases sync_env.mp henv with ⟨hleft, hright⟩
  have hx : Kept spotId (x.1, y.2) := by
    cases e with
    | drop first => exact h.drop hright
    | write index data => exact h.write hok hright
  exact hx.accepted fun name hname => (encoded_eq hleft).2.1.symm ▸ hname

end

/-- Before the first session. -/
def init : World := ⟨0, fun _ => none, [], []⟩

/-- An uploader as constructed, in front of an empty bucket. -/
abbrev start (spotId : Str) : Config (uploaderCode anyClient spotId) (Window.World × World) :=
  uploaderStart anyClient spotId (Window.init, init)

/-- In every run of any number of sessions in which each encoder writes a segment whose number an
earlier session has uploaded with the bytes uploaded then: all successful uploads of a segment under
one key have the same bytes. -/
theorem segments_immutable {width : Nat} (hwidth : width ≤ 256) (spotId dirPath : Str)
    {cfg : Config (uploaderCode anyClient spotId) (Window.World × World)}
    (hrun : Run (machine spotId dirPath width) (SameAgain spotId) (start spotId) cfg) :
    Immutable cfg.world.2 := by
  have hkept : Kept spotId cfg.world := by
    induction hrun with
    | refl => exact ⟨nofun, nofun, nofun⟩
    | step hrun hok hs ih =>
      cases hs with
      | act hp hact =>
        -- what is uploaded was not uploaded in this session, by the run of the uploader alone
        have hvalid := (Window.proof hwidth spotId dirPath).sound
          (Window.valid_start hwidth spotId dirPath) hrun.left
        exact kept_act ih (hvalid.pre (Step.act hp hact).left.pending) hact
      | resume _ => exact ih
      | env henv => exact kept_env ih hok henv
  exact hkept.immutable

/-! ## A stop and a restart -/

/-- The choices of the uploader when its owner begins a session. -/
def reset : Choice Host Unit (Window.World × World) Encode :=
  .run () fun x c => match c with
    | .nextCall => some .resetSession
    | c => some (segmentReply 0 x.1 c)

/-- A session whose encoder writes its first segment, and a poll that uploads it. -/
def session (data : Str) : List (Choice Host Unit (Window.World × World) Encode) :=
  [reset, reset, .env (.write 0 data)] ++
    List.replicate 12 (.run () fun x c => some (segmentReply 0 x.1 c))

def firstKey : Str := s3KeyForFile "A".toList (segmentName 0)

theorem segments_immutable_same_again :
    ∃ cfg : Config (uploaderCode anyClient "A".toList) (Window.World × World),
      cfg.world.2.recent ++ cfg.world.2.older =
        [(firstKey, "G".toList), (firstKey, "G".toList)] ∧ Immutable cfg.world.2 := by
  obtain ⟨cfg, hrun, h⟩ := exec_reaches (machine "A".toList Config.HLS_OUTPUT_DIR 8)
    (fun x l => SameAgain "A".toList x l) (start "A".toList)
    (session "G".toList ++ session "G".toList)
    (fun cfg => cfg.world.2.recent ++ cfg.world.2.older =
      [(firstKey, "G".toList), (firstKey, "G".toList)]) (by decide +kernel)
  have hrun := hrun.mono fun _ _ => of_decide_eq_true
  refine ⟨cfg, of_decide_eq_true h, ?_⟩
  exact segments_immutable (by decide) "A".toList Config.HLS_OUTPUT_DIR hrun

/-- The first segments of two sessions are uploaded under one key, with the bytes of each. -/
theorem segment_key_is_reused :
    ∃ cfg : Config (uploaderCode anyClient "A".toList) (Window.World × World),
      Run (machine "A".toList Config.HLS_OUTPUT_DIR 8) anyStep (start "A".toList) cfg ∧
        ¬ Immutable cfg.world.2 := by
  obtain ⟨cfg, hrun, h⟩ := exec_reaches (machine "A".toList Config.HLS_OUTPUT_DIR 8)
    (fun _ _ => true) (start "A".toList) (session "G".toList ++ session "H".toList)
    (fun cfg => (firstKey, "G".toList) ∈ cfg.world.2.recent ++ cfg.world.2.older ∧
      (firstKey, "H".toList) ∈ cfg.world.2.recent ++ cfg.world.2.older) (by decide +kernel)
  rcases of_decide_eq_true h with ⟨hfirst, hsecond⟩
  refine ⟨cfg, hrun.mono fun _ _ _ => trivial, fun himmutable => ?_⟩
  exact absurd (himmutable firstKey _ _ hfirst hsecond) (by decide)

end Restart

end SurfCam

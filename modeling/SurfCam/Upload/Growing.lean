import SurfCam.Upload.Order

/-!
# Segments that grow

The uploader beside an encoder that writes its segment files in bursts.  Three equal sizes do not
show that a file is closed; a file that grows after the upload has read it stays truncated in the
bucket, since its name is cached for the session.
-/

namespace SurfCam

open Interaction Contract HlsUploadPolicy

namespace Growing

/-- One session: the directory, the bucket and the check. -/
structure World where
  /-- the content of a segment file, by name -/
  bytes : Str → Str
  /-- the names of the segments that the encoder is done with -/
  closed : Finset Str
  /-- the text and the write time of `index.m3u8` -/
  playlist : Option (Str × Int)
  /-- the playlist text that the check of the current poll has read -/
  checked : Option Str
  /-- the file that the client call in progress has read, and the bytes that it found there -/
  read : Option (Str × Str)
  /-- the objects stored in this session, by key -/
  bucket : Str → Option Str

/-- What the encoder does. -/
inductive Encode where
  | append (name data : Str)
  | close (name : Str)
  /-- replace `index.m3u8`, listing closed segments only -/
  | publish (text : Str) (mtime : Int)

def encoded (w : World) : Encode → Option World
  | .append name data =>
    -- a closed segment is never written again
    if name ∈ w.closed then none
    else some { w with bytes := Function.update w.bytes name (w.bytes name ++ data) }
  | .close name => some { w with closed := insert name w.closed }
  | .publish text mtime =>
    if ∀ name ∈ demands text, name ∈ w.closed then some { w with playlist := some (text, mtime) }
    else none

section

variable (dirPath : Str)

/-- The bytes behind a path of the directory. -/
def content (w : World) (path : Str) : Option Str :=
  if path = pathAppend dirPath Config.HLS_PLAYLIST_NAME then w.playlist.map (·.1)
  else some (w.bytes (path.drop (pathAppend dirPath []).length))

/-- What happens during a call of the uploader. -/
inductive Event where
  | encode (e : Encode)
  /-- the client call in progress reads a file; its last attempt is the one that counts -/
  | read (path : Str)

def happened (w : World) : Event → Option World
  | .encode e => encoded w e
  | .read path => (content dirPath w path).map fun bytes => { w with read := some (path, bytes) }

/-- What a reply may be: a file may always fail to open, the owner polls `dirPath`, and a client call
that returns true has read its file. -/
def fileReply (w : World) : (c : HostCall) → c.Reply → Bool
  | .fileSize path, r => r = none ∨ r = (content dirPath w path).map List.length
  | .readText path, r => r = none ∨ r = content dirPath w path
  | .uploadLocalFileWithPresign _ _ path, r => !r || w.read.map (·.1) = some path
  | .nextCall, r => r = .pollAndUpload dirPath
  | _, _ => true

end

/-- What a call leaves behind: a client call that returns true stores the bytes that it has read. -/
def after (w : World) (c : HostCall) (r : c.Reply) : World :=
  { w with
    checked :=
      match c, r with
      | .readText _, some text => some text
      | .nextCall, .pollAndUpload _ => none
      | _, _ => w.checked
    read := none
    bucket :=
      match c, r with
      | .uploadLocalFileWithPresign objectKey _ _, true =>
        Function.update w.bucket objectKey (w.read.map (·.2))
      | _, _ => w.bucket }

/-- One session of an uploader that polls `dirPath`, beside the encoder. -/
def machine (dirPath : Str) : Machine Host Unit World Event where
  act _ c r w := if fileReply dirPath w c r then some (after w c r) else none
  env e w := happened dirPath w e

/-- The stored objects of all segments that the checked text lists are the closed files. -/
def SafeOffer (spotId : Str) (w : World) : Prop :=
  ∃ text, w.checked = some text ∧ ∀ name ∈ demands text,
    name ∈ w.closed ∧ w.bucket (s3KeyForFile spotId name) = some (w.bytes name)

/-- The encoder does not append to a segment from the instant on at which the client call that
uploads it reads it: when the call returns true the file is what was read, and nothing is appended
to a segment that is in the bucket. -/
def NoLateAppend (dirPath spotId : Str) (w : World) : Label Host Unit Event → Prop
  | .env (.encode (.append name data)) =>
    data = [] ∨ w.bucket (s3KeyForFile spotId name) = none
  | .act _ (.uploadLocalFileWithPresign objectKey _ path) true =>
    objectKey = s3KeyForFile spotId Config.HLS_PLAYLIST_NAME ∨
      w.read.map (·.2) = content dirPath w path
  | _ => True

instance (dirPath spotId : Str) (w : World) (l : Label Host Unit Event) :
    Decidable (NoLateAppend dirPath spotId w l) := by
  unfold NoLateAppend
  split <;> infer_instance

/-- What a poll can count on while the encoder works: uploaded segments do not change. -/
structure Rely (spotId : Str) (w w' : World) : Prop where
  bytes : ∀ n, w.bucket (s3KeyForFile spotId n) ≠ none → w'.bytes n = w.bytes n
  closed : w.closed ⊆ w'.closed
  checked : w'.checked = w.checked
  bucket : w'.bucket = w.bucket

variable {dirPath spotId : Str} {w w' : World}

theorem rely_encoded {e : Encode} (hok : NoLateAppend dirPath spotId w (.env (.encode e)))
    (h : encoded w e = some w') : Rely spotId w w' := by
  cases e with
  | append name data =>
    simp only [encoded] at h
    split at h
    · cases h
    rcases Option.some.inj h with rfl
    refine ⟨fun n hn => ?_, Finset.Subset.refl _, rfl, rfl⟩
    by_cases hname : n = name
    · subst hname
      -- the segment is in the bucket, so what is appended is empty
      rcases hok.resolve_right hn with rfl
      simp
    · simp [hname]
  | close name =>
    rcases Option.some.inj h with rfl
    exact ⟨fun _ _ => rfl, Finset.subset_insert _ _, rfl, rfl⟩
  | publish text mtime =>
    obtain ⟨-, rfl⟩ := guarded_eq_some.mp h
    exact ⟨fun _ _ => rfl, Finset.Subset.refl _, rfl, rfl⟩

/-- The playlist lists closed segments only. -/
def Listed (w : World) : Prop :=
  ∀ text mtime, w.playlist = some (text, mtime) → ∀ name ∈ demands text, name ∈ w.closed

theorem listed_encoded {e : Encode} (hw : Listed w) (h : encoded w e = some w') : Listed w' := by
  cases e with
  | append name data =>
    simp only [encoded] at h
    split at h
    · cases h
    rcases Option.some.inj h with rfl
    exact hw
  | close name =>
    rcases Option.some.inj h with rfl
    exact fun t m ht n hn => Finset.mem_insert_of_mem (hw t m ht n hn)
  | publish text mtime =>
    obtain ⟨hclosed, rfl⟩ := guarded_eq_some.mp h
    intro t m ht
    obtain ⟨rfl, rfl⟩ := Prod.mk.inj (Option.some.inj ht)
    exact hclosed

theorem rely_happened {e : Event} (hok : NoLateAppend dirPath spotId w (.env e))
    (h : happened dirPath w e = some w') : Rely spotId w w' := by
  cases e with
  | encode e => exact rely_encoded hok h
  | read path =>
    obtain ⟨bytes, -, rfl⟩ := Option.map_eq_some_iff.mp h
    exact ⟨fun _ _ => rfl, Finset.Subset.refl _, rfl, rfl⟩

theorem listed_happened {e : Event} (hw : Listed w) (h : happened dirPath w e = some w') :
    Listed w' := by
  cases e with
  | encode e => exact listed_encoded hw h
  | read path =>
    obtain ⟨bytes, -, rfl⟩ := Option.map_eq_some_iff.mp h
    exact hw

theorem act_eq {c : HostCall} {r : c.Reply}
    (h : (machine dirPath).act () c r w = some w') :
    fileReply dirPath w c r = true ∧ w' = after w c r :=
  guarded_eq_some.mp h

/-- When the playlist is offered, the offer is safe. -/
def offerPre (spotId : Str) (w : World) : HostCall → Prop
  | .uploadLocalFileWithPresign objectKey _ _ =>
    objectKey = s3KeyForFile spotId Config.HLS_PLAYLIST_NAME → SafeOffer spotId w
  | _ => True

def contract (dirPath spotId : Str) : Contract (machine dirPath) (NoLateAppend dirPath spotId) where
  inv := Listed
  pre _ c w := offerPre spotId w c
  rely _ := Rely spotId
  rely_refl _ _ := ⟨fun _ _ => rfl, Finset.Subset.refl _, rfl, rfl⟩
  rely_trans {_ w w' w''} h h' := by
    refine ⟨fun n hn => ?_, h.closed.trans h'.closed, h'.checked.trans h.checked,
      h'.bucket.trans h.bucket⟩
    exact (h'.bytes n (h.bucket ▸ hn)).trans (h.bytes n hn)
  inv_act hi _ _ hs := by
    rcases act_eq hs with ⟨-, rfl⟩
    exact hi
  inv_env hi _ hs := listed_happened hi hs
  rely_act h := (h rfl).elim
  rely_env _ hok hs := rely_happened hok hs

theorem content_playlist :
    content dirPath w (pathAppend dirPath Config.HLS_PLAYLIST_NAME) = w.playlist.map (·.1) :=
  if_pos rfl

theorem content_segment {name : Str} (h : HlsUploader.extension name = ".ts".toList) :
    content dirPath w (pathAppend dirPath name) = some (w.bytes name) := by
  -- by its extension a segment is not the playlist
  have hne : pathAppend dirPath name ≠ pathAppend dirPath Config.HLS_PLAYLIST_NAME :=
    fun heq => playlist_ne_segment h (pathAppend_injective dirPath heq)
  rw [content, if_neg hne, pathAppend_eq dirPath name, List.drop_left]

/-- The segment `name` is stored as the file now is. -/
structure Complete (spotId name : Str) (w : World) : Prop where
  segment : HlsUploader.extension name = ".ts".toList
  stored : w.bucket (s3KeyForFile spotId name) = some (w.bytes name)

section

variable {name m contentType : Str}

theorem Complete.rely (h : Complete spotId name w) (hr : Rely spotId w w') :
    Complete spotId name w' := by
  have hb : w.bucket (s3KeyForFile spotId name) ≠ none := by rw [h.stored]; nofun
  refine ⟨h.segment, ?_⟩
  rw [hr.bucket, hr.bytes name hb]
  exact h.stored

/-- A successful upload completes its segment, if the segment is still what the call has read. -/
theorem complete_uploaded (hext : HlsUploader.extension name = ".ts".toList)
    (hok : NoLateAppend dirPath spotId w (.act () (.uploadLocalFileWithPresign
      (s3KeyForFile spotId name) contentType (pathAppend dirPath name)) true)) :
    Complete spotId name (after w (.uploadLocalFileWithPresign (s3KeyForFile spotId name)
      contentType (pathAppend dirPath name)) true) := by
  have hread : w.read.map (·.2) = content dirPath w (pathAppend dirPath name) :=
    hok.resolve_left fun hk => playlist_ne_segment hext (s3KeyForFile_injective _ hk)
  rw [content_segment hext] at hread
  refine ⟨hext, ?_⟩
  show Function.update w.bucket (s3KeyForFile spotId name) (w.read.map (·.2)) _ = _
  rw [Function.update_self, hread]
  rfl

/-- An upload of another file leaves a complete segment complete. -/
theorem Complete.upload {b : Bool} (h : Complete spotId m w) (hm : b = true → m ≠ name) :
    Complete spotId m (after w (.uploadLocalFileWithPresign (s3KeyForFile spotId name)
      contentType (pathAppend dirPath name)) b) := by
  cases b with
  | false => exact ⟨h.segment, h.stored⟩
  | true =>
    refine ⟨h.segment, ?_⟩
    show Function.update w.bucket (s3KeyForFile spotId name) (w.read.map (·.2)) _ = _
    rw [Function.update_of_ne fun heq => hm rfl (s3KeyForFile_injective _ heq)]
    exact h.stored

theorem Complete.look {c : HostCall} (h : Complete spotId name w) (hc : c.IsLook) (r : c.Reply) :
    Complete spotId name (after w c r) := by
  cases c with
  | uploadLocalFileWithPresign objectKey contentType path => cases hc
  | _ => exact ⟨h.segment, h.stored⟩

end

def rules (dirPath spotId : Str) : PollRules (contract dirPath spotId) anyClient spotId where
  Good := Complete spotId
  Checked text w := w.checked = some text ∧ ∀ name ∈ demands text, name ∈ w.closed
  Dir d := d = dirPath
  good_rely hr _ hg := hg.rely hr
  checked_rely hr _ hc := ⟨hr.checked ▸ hc.1, fun n hn => hr.closed (hc.2 n hn)⟩
  look_pre {c _} hc _ := by cases c <;> trivial
  look_act hc _ _ hs hg := by
    rcases act_eq hs with ⟨-, rfl⟩
    exact hg.look hc _
  next_pre _ := trivial
  next_act _ _ hs hg := by
    rcases act_eq hs with ⟨-, rfl⟩
    exact ⟨hg.segment, hg.stored⟩
  next_dir _ hs := UploaderCall.pollAndUpload.inj (of_decide_eq_true (act_eq hs).1)
  read_act {d t w w'} hd hi _ hs := by
    rcases act_eq hs with ⟨hr, rfl⟩
    subst hd
    obtain ⟨mtime, hp⟩ : ∃ mtime, w.playlist = some (t, mtime) := by
      simpa [fileReply, content_playlist] using hr
    exact ⟨rfl, hi t mtime hp⟩
  segment {d n names w} hd hext hg := by
    subst hd
    intro w hr hi
    refine ⟨fun hk => absurd (s3KeyForFile_injective _ hk) (playlist_ne_segment hext), ?_⟩
    intro b w' hok hs w'' hr' hi'
    rcases act_eq hs with ⟨-, rfl⟩
    refine ⟨fun m hm => ?_, ?_⟩
    -- the uploaded segment is complete now; the others keep what they had
    · by_cases hmn : m = n ∧ b = true
      · obtain ⟨rfl, rfl⟩ := hmn
        exact (complete_uploaded hext hok).rely hr'
      · exact (((hg m hm).rely hr).upload fun hb heq => hmn ⟨heq, hb⟩).rely hr'
    · rintro rfl
      exact (complete_uploaded hext hok).rely hr'
  playlist {d t names w} hd hc hg hn := by
    subst hd
    intro w hr hi
    have hg : AllGood (Complete spotId) names w := fun m hm => (hg m hm).rely hr
    refine ⟨fun _ => ⟨t, hr.checked ▸ hc.1, fun name hname => ?_⟩, ?_⟩
    · exact ⟨hr.closed (hc.2 name hname), (hg name (hn name hname)).stored⟩
    · intro b w' _ hs w'' hr' hi' m hm
      rcases act_eq hs with ⟨-, rfl⟩
      -- the playlist has a key of its own
      exact ((hg m hm).upload fun _ => playlist_ne_segment (hg m hm).segment).rely hr'

/-- A session that begins with an empty directory. -/
def init : World := ⟨fun _ => [], ∅, none, none, none, fun _ => none⟩

def liveReply (w : World) : (c : HostCall) → c.Reply
  | .isDirectory _ => true
  | .directoryEntries _ => some ["seg1.ts".toList]
  | .isRegularFile _ => some true
  | .fileSize path => (content Config.HLS_OUTPUT_DIR w path).map List.length
  | .fileExists _ => some w.playlist.isSome
  | .lastWriteTime _ => w.playlist.map (·.2)
  | .readText path => content Config.HLS_OUTPUT_DIR w path
  | .openBinary _ => none
  | .sleepFor _ => ()
  | .curlEasyInit => true
  | .presignPost _ _ _ _ => none
  | .put _ _ _ _ => ⟨.ok, 200, []⟩
  | .uploadLocalFileWithPresign _ _ _ => true
  | .nextCall => .pollAndUpload Config.HLS_OUTPUT_DIR

/-- The uploader makes so many calls. -/
def calls (n : Nat) : List (Choice Host Unit World Event) :=
  List.replicate n (.run () fun w c => some (liveReply w c))

def readsSegment : Choice Host Unit World Event :=
  .env (.read (pathAppend Config.HLS_OUTPUT_DIR "seg1.ts".toList))

/-- A poll after the first burst of a segment, with what happens after its upload has read it; the
rest of the segment (if there is one), its end and its publication; and a second poll up to the
offer of the playlist. -/
def schedule (during : List (Choice Host Unit World Event)) (rest : Str) :
    List (Choice Host Unit World Event) :=
  .env (.encode (.append "seg1.ts".toList "AB".toList)) :: calls 10 ++ readsSegment :: during ++
    calls 2 ++ [.env (.encode (.append "seg1.ts".toList rest)),
      .env (.encode (.close "seg1.ts".toList)),
      .env (.encode (.publish "seg1.ts\n".toList 1))] ++ calls 13

abbrev siteStart : Config (uploaderCode anyClient "A".toList) World := uploaderStart _ _ init

end Growing

end SurfCam

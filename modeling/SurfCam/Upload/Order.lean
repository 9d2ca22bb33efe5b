import SurfCam.Upload.PollRules

/-!
# Segments first

Against surroundings that may answer every call with anything (a directory and files that change at
any moment, a client that accepts or refuses at will), the playlist is offered to the client only
after every segment that its checked text names has been accepted in the same session.
-/

namespace SurfCam

open Interaction Contract HlsUploadPolicy

/-- The calls made so far with their replies, the latest first. -/
abbrev History := List ((c : HostCall) × c.Reply)

/-- Surroundings that accept every reply and only keep a record. -/
def recorder : Machine Host Unit History Empty where
  act _ c r h := some (⟨c, r⟩ :: h)
  env e _ := e.elim

/-- The object keys of the client calls that returned true after the last `resetSession`. -/
def acceptedKeys : History → List Str
  | [] => []
  | ⟨.nextCall, .resetSession⟩ :: _ => []
  | ⟨.uploadLocalFileWithPresign objectKey _ _, true⟩ :: h => objectKey :: acceptedKeys h
  | _ :: h => acceptedKeys h

/-- The playlist text that the check of the current poll has read. -/
def checkedText : History → Option Str
  | [] => none
  | ⟨.nextCall, _⟩ :: _ => none
  | ⟨.readText _, some text⟩ :: _ => some text
  | _ :: h => checkedText h

/-- An uploader as constructed, with nothing asked of it yet. -/
def uploaderStart {W : Type} (api : PresignClient) (spotId : Str) (w : W) :
    Config (uploaderCode api spotId) W where
  world := w
  prog _ := .ret (some {})

/-- What must hold when the client is called: for the playlist, that a checked text is there and
its segments are accepted. -/
def SegmentsFirst (spotId : Str) (h : History) : HostCall → Prop
  | .uploadLocalFileWithPresign objectKey _ _ =>
    objectKey = s3KeyForFile spotId Config.HLS_PLAYLIST_NAME →
      ∃ text, checkedText h = some text ∧
        ∀ name ∈ demands text, s3KeyForFile spotId name ∈ acceptedKeys h
  | _ => True

def segmentsFirst (spotId : Str) : Contract recorder (anyStep (S := Host)) where
  inv _ := True
  pre _ c h := SegmentsFirst spotId h c
  rely _ := Eq
  rely_refl _ _ := rfl
  rely_trans := Eq.trans
  inv_act _ _ _ _ := trivial
  inv_env _ _ _ := trivial
  rely_act h := (h rfl).elim
  rely_env {_ e} _ _ _ := e.elim

theorem playlist_ne_segment {name : Str}
    (h : HlsUploader.extension name = ".ts".toList) : name ≠ Config.HLS_PLAYLIST_NAME := by
  rintro rfl
  exact absurd h (by decide)

theorem acceptedKeys_look {c : HostCall} (hc : c.IsLook) (r : c.Reply) (h : History) :
    acceptedKeys (⟨c, r⟩ :: h) = acceptedKeys h := by
  cases c <;> first | rfl | cases hc

/-- A client call adds at most its own key, and adds it when it returns true. -/
theorem acceptedKeys_client (key contentType path : Str) (b : Bool) (h : History) :
    acceptedKeys (⟨.uploadLocalFileWithPresign key contentType path, b⟩ :: h) =
      if b then key :: acceptedKeys h else acceptedKeys h := by
  cases b <;> rfl

/-- Good segments are those with an accepted key. -/
def orderRules (spotId : Str) : PollRules (segmentsFirst spotId) anyClient spotId where
  Good name h := s3KeyForFile spotId name ∈ acceptedKeys h
  Checked text h := checkedText h = some text
  Dir _ := True
  good_rely hr _ hg := hr ▸ hg
  checked_rely hr _ hc := hr ▸ hc
  look_pre {c _} hc _ := by cases c <;> trivial
  look_act {c r _ w _} hc _ _ hs hg := by
    rcases Option.some.inj hs with rfl
    rwa [acceptedKeys_look hc]
  next_pre _ := trivial
  next_act _ _ hs hg := by
    rcases Option.some.inj hs with rfl
    exact hg
  next_dir _ _ := trivial
  read_act _ _ _ hs := by
    rcases Option.some.inj hs with rfl
    rfl
  segment {d n names w} _ hn hg := by
    rintro _ rfl -
    refine ⟨fun hk => absurd (s3KeyForFile_injective _ hk) (playlist_ne_segment hn), ?_⟩
    rintro b _ - hs _ rfl -
    rcases Option.some.inj hs with rfl
    rw [AllGood, acceptedKeys_client]
    cases b with
    | false => exact ⟨hg, nofun⟩
    | true => exact ⟨fun m hm => List.mem_cons_of_mem _ (hg m hm), fun _ => List.mem_cons_self⟩
  playlist {d t names w} _ hc hg hn := by
    rintro _ rfl -
    refine ⟨fun _ => ⟨t, hc, fun name hname => hg name (hn name hname)⟩, ?_⟩
    rintro b _ - hs _ rfl -
    rcases Option.some.inj hs with rfl
    rw [AllGood]
    cases b with
    | false => exact hg
    | true => exact fun m hm => List.mem_cons_of_mem _ (hg m hm)

theorem valid_uploaderStart {W E : Type} {M : Machine Host Unit W E}
    {ok : W → Label Host Unit E → Prop} {C : Contract M ok} {api : PresignClient} {spotId : Str}
    (P : PollRules C api spotId) {w : W} (h : C.inv w) :
    P.proof.Valid (uploaderStart api spotId w) :=
  ⟨h, fun _ _ _ _ _ hpc => Option.some.inj hpc ▸ nofun⟩

/-- In every run of an uploader, whenever it offers the playlist to the client, every line of the
text that this poll checked that names a segment is one that the client has accepted in this
session. -/
theorem playlist_offered_after_segments (spotId : Str)
    {cfg : Config (uploaderCode anyClient spotId) History}
    (hrun : Run recorder anyStep (uploaderStart anyClient spotId []) cfg) {contentType path : Str}
    (hcall : cfg.pending () = some (.uploadLocalFileWithPresign
      (s3KeyForFile spotId Config.HLS_PLAYLIST_NAME) contentType path)) :
    ∃ text, checkedText cfg.world = some text ∧
      ∀ line ∈ getLines text, ∀ name, name = trimTrailingCarriageReturn line →
        4 ≤ name.length → name.head? ≠ some '#' → ".ts".toList <:+ name →
          s3KeyForFile spotId name ∈ acceptedKeys cfg.world := by
  have hvalid := (orderRules spotId).proof.sound (valid_uploaderStart _ trivial) hrun
  rcases hvalid.pre hcall rfl with ⟨text, htext, hseg⟩
  refine ⟨text, htext, fun line hl name hname hlen hhash hsuf => hseg name ?_⟩
  exact mem_demands.mpr ⟨line, hl, hname.symm, hlen, hhash, hsuf⟩

/-- A directory with one finished segment and a playlist that lists it, and an accepting client. -/
def oneSegmentReply (_ : History) : (c : HostCall) → c.Reply
  | .isDirectory _ => true
  | .directoryEntries _ => some ["index.m3u8".toList, "segment-00000.ts".toList]
  | .isRegularFile _ => some true
  | .fileSize _ => some 188
  | .fileExists _ => some true
  | .lastWriteTime _ => some 1
  | .readText _ => some "#EXTM3U\nsegment-00000.ts\r\n".toList
  | .openBinary _ => none
  | .sleepFor _ => ()
  | .curlEasyInit => true
  | .presignPost _ _ _ _ => none
  | .put _ _ _ _ => ⟨.ok, 200, []⟩
  | .uploadLocalFileWithPresign _ _ _ => true
  | .nextCall => .pollAndUpload Config.HLS_OUTPUT_DIR

theorem playlist_offered_after_one_segment :
    ∃ cfg : Config (uploaderCode anyClient "A".toList) History,
      cfg.pending () = some (.uploadLocalFileWithPresign
        (s3KeyForFile "A".toList Config.HLS_PLAYLIST_NAME)
        "application/vnd.apple.mpegurl".toList
        (pathAppend Config.HLS_OUTPUT_DIR Config.HLS_PLAYLIST_NAME)) ∧
      ∃ text, checkedText cfg.world = some text ∧
        ∀ line ∈ getLines text, ∀ name, name = trimTrailingCarriageReturn line →
          4 ≤ name.length → name.head? ≠ some '#' → ".ts".toList <:+ name →
            s3KeyForFile "A".toList name ∈ acceptedKeys cfg.world := by
  obtain ⟨cfg, hrun, hcall⟩ := exec_reaches recorder (fun _ _ => true)
    (uploaderStart anyClient "A".toList [])
    (List.replicate 20 (.run () fun w c => some (oneSegmentReply w c)))
    (fun cfg => cfg.pending () = some (.uploadLocalFileWithPresign
      (s3KeyForFile "A".toList Config.HLS_PLAYLIST_NAME) "application/vnd.apple.mpegurl".toList
      (pathAppend Config.HLS_OUTPUT_DIR Config.HLS_PLAYLIST_NAME))) (by decide +kernel)
  have hcall := of_decide_eq_true hcall
  exact ⟨cfg, hcall,
    playlist_offered_after_segments "A".toList (hrun.mono fun _ _ _ => trivial) hcall⟩

end SurfCam

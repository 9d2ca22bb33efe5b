import SurfCam.Upload.Order

/-!
# The playlist that is not uploaded again

A poll skips `index.m3u8` when its write time is the one recorded with the last successful upload.
The time is read before the stability wait, the check and the upload, and recorded after them, while
the encoder replaces the file at any moment.
-/

namespace SurfCam

open Interaction Contract HlsUploadPolicy

namespace Skip

structure World where
  /-- the text and the write time of `index.m3u8` -/
  playlist : Option (Str × Int)
  /-- the write times that the file has had -/
  mtimes : List Int
  /-- the bytes last stored by a playlist upload of this session that was answered true -/
  stored : Option Str
  /-- the text of the file when the last call, if it read the write time, read it -/
  sampled : Option Str

/-- The encoder's atomic replacement of `index.m3u8`. -/
structure Replace where
  text : Str
  mtime : Int

section

variable (playlist spotId : Str)

/-- What a reply about the playlist may be; other files may be anything. -/
def fileReply (w : World) : (c : HostCall) → c.Reply → Bool
  | .fileSize path, r => path ≠ playlist ∨ r = none ∨ r = w.playlist.map fun v => v.1.length
  | .fileExists path, r => path ≠ playlist ∨ r = none ∨ r = some w.playlist.isSome
  | .lastWriteTime path, r => path ≠ playlist ∨ r = none ∨ r = w.playlist.map (·.2)
  | .readText path, r => path ≠ playlist ∨ r = none ∨ r = w.playlist.map (·.1)
  | .uploadLocalFileWithPresign _ _ path, r => path ≠ playlist ∨ r = false ∨ w.playlist.isSome
  | .nextCall, .pollAndUpload dirPath => pathAppend dirPath Config.HLS_PLAYLIST_NAME = playlist
  | _, _ => true

/-- What a call leaves behind: a client call that returns true stores the bytes of the file. -/
def after (w : World) : (c : HostCall) → c.Reply → World
  | .lastWriteTime path, some _ =>
    { w with sampled := if path = playlist then w.playlist.map (·.1) else none }
  | .uploadLocalFileWithPresign objectKey _ path, true =>
    if objectKey = s3KeyForFile spotId Config.HLS_PLAYLIST_NAME then
      { w with
        stored := if path = playlist then w.playlist.map (·.1) else none
        sampled := none }
    else { w with sampled := none }
  | .nextCall, .resetSession => { w with stored := none, sampled := none }
  | _, _ => { w with sampled := none }

/-- A replacement gives the file a write time that it has not had before. -/
def replaced (w : World) (e : Replace) : Option World :=
  -- no two contents of the file share a write time
  if e.mtime ∈ w.mtimes then none
  else some { w with playlist := some (e.text, e.mtime), mtimes := e.mtime :: w.mtimes }

/-- One uploader that polls the directory of `playlist`, beside the encoder. -/
def machine : Machine Host Unit World Replace where
  act _ c r w := if fileReply playlist w c r then some (after playlist spotId w c r) else none
  env e w := replaced w e

end

/-- The write time of the file is one that it has had. -/
def Dated (w : World) : Prop := ∀ v, w.playlist = some v → v.2 ∈ w.mtimes

/-- While the file has the recorded write time, its text is what was stored. -/
structure Fresh (recorded : Option Int) (w : World) : Prop where
  had : ∀ mtime, recorded = some mtime → mtime ∈ w.mtimes
  stored : ∀ v, w.playlist = some v → recorded = some v.2 → w.stored = some v.1

/-- A text that the last call has sampled is stored. -/
def Settled (w : World) : Prop := ∀ text, w.sampled = some text → w.stored = some text

/-- What a poll can count on while the encoder works. -/
structure Rely (w w' : World) : Prop where
  stored : w'.stored = w.stored
  sampled : w'.sampled = w.sampled
  mtimes : w.mtimes ⊆ w'.mtimes
  playlist : ∀ v, w'.playlist = some v → w.playlist = some v ∨ v.2 ∉ w.mtimes

section

variable {playlist spotId : Str} {recorded : Option Int} {w w' : World}

theorem Rely.refl (w : World) : Rely w w := ⟨rfl, rfl, List.Subset.refl _, fun _ => .inl⟩

theorem Rely.trans {w w' w'' : World} (h : Rely w w') (h' : Rely w' w'') : Rely w w'' where
  stored := h'.stored.trans h.stored
  sampled := h'.sampled.trans h.sampled
  mtimes := List.Subset.trans h.mtimes h'.mtimes
  playlist v hv := by
    rcases h'.playlist v hv with hsame | hnew
    · exact h.playlist v hsame
    · exact .inr fun hm => hnew (h.mtimes hm)

theorem replaced_eq {e : Replace} (h : replaced w e = some w') :
    e.mtime ∉ w.mtimes ∧
      w' = { w with playlist := some (e.text, e.mtime), mtimes := e.mtime :: w.mtimes } := by
  unfold replaced at h
  split at h
  · cases h
  · rename_i hnew
    exact ⟨hnew, (Option.some.inj h).symm⟩

theorem act_eq {c : HostCall} {r : c.Reply} (h : (machine playlist spotId).act () c r w = some w') :
    fileReply playlist w c r = true ∧ w' = after playlist spotId w c r :=
  guarded_eq_some.mp h

/-- No call of the uploader changes the file. -/
theorem after_keeps (c : HostCall) (r : c.Reply) :
    (after playlist spotId w c r).playlist = w.playlist ∧
      (after playlist spotId w c r).mtimes = w.mtimes := by
  unfold after
  split
  · exact ⟨rfl, rfl⟩
  · split <;> exact ⟨rfl, rfl⟩
  · exact ⟨rfl, rfl⟩
  · exact ⟨rfl, rfl⟩

/-- A replacement does not bring the recorded write time back. -/
theorem Fresh.rely (h : Fresh recorded w) (hr : Rely w w') : Fresh recorded w' where
  had mtime hm := hr.mtimes (h.had mtime hm)
  stored v hv hm := by
    rw [hr.stored]
    rcases hr.playlist v hv with hsame | hnew
    · exact h.stored v hsame hm
    · exact absurd (h.had v.2 hm) hnew

theorem Fresh.congr (h : Fresh recorded w) (hp : w'.playlist = w.playlist)
    (hm : w'.mtimes = w.mtimes) (hs : w'.stored = w.stored) : Fresh recorded w' := by
  refine ⟨fun mtime => ?_, fun v => ?_⟩
  · rw [hm]
    exact h.had mtime
  · rw [hp, hs]
    exact h.stored v

end

def contract (playlist spotId : Str) :
    Contract (machine playlist spotId) (anyStep (S := Host)) where
  inv := Dated
  pre _ c w := c = .nextCall → Settled w
  rely _ := Rely
  rely_refl _ := Rely.refl
  rely_trans := Rely.trans
  inv_act {_ c r w w'} hi _ _ hs v hv := by
    rcases act_eq hs with ⟨-, rfl⟩
    rw [(after_keeps c r).1] at hv
    rw [(after_keeps c r).2]
    exact hi v hv
  inv_env hi _ hs := by
    rcases replaced_eq hs with ⟨-, rfl⟩
    rintro v ⟨⟩
    exact .head _
  rely_act h := (h rfl).elim
  rely_env hi _ hs := by
    rcases replaced_eq hs with ⟨hnew, rfl⟩
    refine ⟨rfl, rfl, List.subset_cons_self _ _, ?_⟩
    rintro v ⟨⟩
    exact .inr hnew

/-- Between the steps of a poll: nothing has been sampled yet. -/
structure Between (recorded : Option Int) (w : World) : Prop where
  fresh : Fresh recorded w
  unsampled : w.sampled = none

section

variable {playlist spotId dirPath : Str} {u : HlsUploader} {recorded : Option Int} {w : World}

theorem Between.rely {w' : World} (h : Between recorded w) (hr : Rely w w') :
    Between recorded w' := ⟨h.fresh.rely hr, hr.sampled.trans h.unsampled⟩

theorem Between.settled (h : Between recorded w) : Settled w := by
  intro text htext
  rw [h.unsampled] at htext
  cases htext

theorem pre_of_ne {c : HostCall} (h : c ≠ .nextCall) : (contract playlist spotId).pre () c w :=
  fun hc => absurd hc h

/-- A look other than at the write time. -/
theorem Fresh.look (h : Fresh recorded w) {c : HostCall} (hc : c.IsLook)
    (ht : ∀ path, c ≠ .lastWriteTime path) (r : c.Reply) :
    Between recorded (after playlist spotId w c r) := by
  have hafter : after playlist spotId w c r = { w with sampled := none } := by
    unfold after
    split
    · exact absurd rfl (ht _)
    · cases hc
    · cases hc
    · rfl
  rw [hafter]
  exact ⟨h.congr rfl rfl rfl, rfl⟩

/-- The upload of a segment. -/
theorem Fresh.upload (h : Fresh recorded w) {name contentType path : Str} {b : Bool}
    (hname : name ≠ Config.HLS_PLAYLIST_NAME) :
    Between recorded (after playlist spotId w
      (.uploadLocalFileWithPresign (s3KeyForFile spotId name) contentType path) b) := by
  cases b with
  | false => exact ⟨h.congr rfl rfl rfl, rfl⟩
  | true =>
    have hkey : s3KeyForFile spotId name ≠ s3KeyForFile spotId Config.HLS_PLAYLIST_NAME :=
      fun heq => hname (s3KeyForFile_injective _ heq)
    have hafter : after playlist spotId w
        (.uploadLocalFileWithPresign (s3KeyForFile spotId name) contentType path) true =
          { w with sampled := none } := if_neg hkey
    rw [hafter]
    exact ⟨h.congr rfl rfl rfl, rfl⟩

theorem Fresh.act {c : HostCall} {r : c.Reply} {w' : World} (h : Fresh recorded w)
    (hs : (machine playlist spotId).act () c r w = some w') (hc : c.IsLook)
    (ht : ∀ path, c ≠ .lastWriteTime path) : Between recorded w' := by
  rcases act_eq hs with ⟨-, rfl⟩
  exact h.look hc ht r

/-- The segment half of a poll neither records a write time nor stores a playlist. -/
def segmentSteps (playlist spotId : Str) :
    SegmentSteps (contract playlist spotId) anyClient spotId where
  Between u := Between u.lastPlaylistWrite_
  Found _ _ := True
  Dir d := pathAppend d Config.HLS_PLAYLIST_NAME = playlist
  between_rely hr _ h := h.rely hr
  found_rely _ _ _ := trivial
  sample_pre hc _ := pre_of_ne (by rintro rfl; cases hc)
  sample_between hc _ _ hs h :=
    h.fresh.act hs (HostCall.IsSample.look hc) (by rintro _ rfl; cases hc)
  sample_found _ _ _ _ _ := trivial
  entries_pre _ := pre_of_ne nofun
  entries_between _ _ hs h := h.fresh.act hs rfl fun _ => nofun
  entries_found _ _ _ _ _ _ _ := trivial
  segment {d n u w} _ hname _ h _ := by
    intro w hr _
    have h := h.rely hr
    refine ⟨pre_of_ne nofun, fun b w' _ hs v hr' _ => ⟨?_, fun _ _ => trivial⟩⟩
    rcases act_eq hs with ⟨-, rfl⟩
    have hw : Between u.lastPlaylistWrite_ (after playlist spotId w (.uploadLocalFileWithPresign
        (s3KeyForFile spotId n) "video/mp2t".toList (pathAppend d n)) b) :=
      h.fresh.upload (playlist_ne_segment hname)
    cases b with
    | false => exact hw.rely hr'
    | true => exact hw.rely hr'

/-- What a poll leaves to its owner. -/
structure Over (recorded : Option Int) (w : World) : Prop where
  fresh : Fresh recorded w
  settled : Settled w

theorem Over.rely {w' : World} (h : Over recorded w) (hr : Rely w w') : Over recorded w' := by
  refine ⟨h.fresh.rely hr, fun text => ?_⟩
  rw [hr.sampled, hr.stored]
  exact h.settled text

theorem Between.over (h : Between recorded w) : Over recorded w := ⟨h.fresh, h.settled⟩

/-- The upload of the playlist stores the text that the file has then. -/
theorem fresh_uploaded {mtime : Int} {contentType : Str} (hm : mtime ∈ w.mtimes) :
    Between (some mtime) (after playlist spotId w (.uploadLocalFileWithPresign
      (s3KeyForFile spotId Config.HLS_PLAYLIST_NAME) contentType playlist) true) := by
  have hafter : after playlist spotId w (.uploadLocalFileWithPresign
      (s3KeyForFile spotId Config.HLS_PLAYLIST_NAME) contentType playlist) true =
        { w with stored := w.playlist.map (·.1), sampled := none } := by
    simp only [after, if_true]
  rw [hafter]
  refine ⟨⟨?_, fun v hv _ => ?_⟩, rfl⟩
  · rintro _ ⟨⟩
    exact hm
  · show w.playlist.map (·.1) = some v.1
    rw [hv]
    rfl

/-- Once the write time is read: it is one that the file has had. -/
structure Held (recorded : Option Int) (mtime : Int) (w : World) : Prop where
  fresh : Fresh recorded w
  had : mtime ∈ w.mtimes

theorem Held.rely {mtime : Int} {w' : World} (h : Held recorded mtime w) (hr : Rely w w') :
    Held recorded mtime w' := ⟨h.fresh.rely hr, hr.mtimes h.had⟩

/-- Sampling the playlist file. -/
theorem wp_samples {α : Type} {R : α → Prop} {p : Prog Host α} {mtime : Int} (hp : Samples R p)
    (h : Between recorded w) (hm : mtime ∈ w.mtimes) :
    (contract playlist spotId).wp () p
      (fun a w => R a ∧ Between recorded w ∧ mtime ∈ w.mtimes) (fun _ => False) w := by
  refine wp_of_returns hp.returns (keeps_of_built (fun _ _ hr _ h => ?_) ?_ nofun hp.built w ⟨h, hm⟩)
  · exact ⟨h.1.rely hr, hr.mtimes h.2⟩
  · intro c hc w _ h
    refine ⟨pre_of_ne (by rintro rfl; cases hc), fun r w' _ hs => ⟨?_, ?_⟩⟩
    · exact h.1.fresh.act hs (HostCall.IsSample.look hc) (by rintro _ rfl; cases hc)
    · rcases act_eq hs with ⟨-, rfl⟩
      rw [(after_keeps c r).2]
      exact h.2

theorem wp_check {mtime : Int} (h : Between recorded w) (hm : mtime ∈ w.mtimes) :
    (contract playlist spotId).wp () (u.allPlaylistSegmentsUploaded playlist)
      (fun _ w => Between recorded w ∧ mtime ∈ w.mtimes) (fun _ => False) w := by
  refine wp_call_of (fun _ _ hr _ h => h.rely hr) (⟨h.fresh, hm⟩ : Held recorded mtime w)
    fun w _ h => ⟨pre_of_ne nofun, fun r w' _ hs => ?_⟩
  have hb := h.fresh.act hs rfl fun _ => nofun
  have hm : mtime ∈ w'.mtimes := by
    rcases act_eq hs with ⟨-, rfl⟩
    exact (after_keeps (.readText playlist) r).2.symm ▸ h.had
  cases r with
  | none => exact fun v hr _ => ⟨hb.rely hr, hr.mtimes hm⟩
  | some text => exact fun v hr _ => ⟨hb.rely hr, hr.mtimes hm⟩

/-- The playlist half of a poll: it leaves the file alone only when its text is stored. -/
theorem wp_uploadPlaylist (hdir : pathAppend dirPath Config.HLS_PLAYLIST_NAME = playlist)
    (h : Between u.lastPlaylistWrite_ w) :
    (contract playlist spotId).wp () (u.uploadPlaylist anyClient spotId dirPath)
      (fun r w => Over r.1.lastPlaylistWrite_ w) (fun _ => False) w := by
  have leave : ∀ {u : HlsUploader} {o : HlsUploader.PollOutcome} {w},
      Over u.lastPlaylistWrite_ w → (contract playlist spotId).wp ()
        (.ret (u, o) : Prog Host (HlsUploader × HlsUploader.PollOutcome))
        (fun r w => Over r.1.lastPlaylistWrite_ w) (fun _ => False) w :=
    fun h v hr _ => h.rely hr
  rw [HlsUploader.uploadPlaylist, hdir]
  refine wp_call_of (fun _ _ hr _ h => h.rely hr) h fun w _ h =>
    ⟨pre_of_ne (fun he => by cases he), fun r w' _ hs => ?_⟩
  have h := h.fresh.act hs rfl fun _ he => by cases he
  rcases r with _ | (_ | _)
  · exact leave h.over
  · exact leave h.over
  refine wp_call_of (fun _ _ hr _ h => h.rely hr) h fun w hi h =>
    ⟨pre_of_ne (fun he => by cases he), fun r w' _ hs => ?_⟩
  rcases act_eq hs with ⟨hreply, rfl⟩
  cases r with
  | none => exact leave (Between.over ⟨h.fresh.congr rfl rfl rfl, rfl⟩)
  | some mtime =>
  obtain ⟨text, htext⟩ : ∃ text, w.playlist = some (text, mtime) := by
    simpa [fileReply] using hreply
  have hheld : Held u.lastPlaylistWrite_ mtime
      (after playlist spotId w (.lastWriteTime playlist) (some mtime)) :=
    ⟨h.fresh.congr rfl rfl rfl, hi _ htext⟩
  dsimp only
  split
  · rename_i hskip
    -- the branch that skips: the recorded write time is that of the current text
    refine leave ⟨hheld.fresh, fun sampled hsampled => ?_⟩
    have hstored := h.fresh.stored _ htext hskip
    simp only [after, if_true, htext, Option.map_some, Option.some.injEq] at hsampled
    exact hsampled ▸ hstored
  obtain ⟨k, hk, hsamples⟩ := HlsUploader.fileSizeStable_eq playlist
  rw [hk]
  refine wp_call_of (fun _ _ hr _ h => h.rely hr) hheld fun w _ h =>
    ⟨pre_of_ne (fun he => by cases he), fun size w' _ hs => ?_⟩
  -- the write time that will be recorded is carried along until the upload has returned
  have hb := h.fresh.act hs rfl fun _ he => by cases he
  have hm : mtime ∈ w'.mtimes := by
    rcases act_eq hs with ⟨-, rfl⟩
    exact h.had
  refine wp_bind_of (wp_samples (hsamples size) hb hm) fun stable w _ h => ?_
  split
  · exact leave h.2.1.over
  refine wp_bind_of (wp_check h.2.1 h.2.2) fun allUploaded w _ h => ?_
  split
  · exact leave h.1.over
  refine wp_call_of (fun _ _ hr _ h => h.rely hr)
    (⟨h.1.fresh, h.2⟩ : Held u.lastPlaylistWrite_ mtime w) fun w _ h =>
      ⟨pre_of_ne (fun he => by cases he), fun b w' _ hs => ?_⟩
  rcases act_eq hs with ⟨-, rfl⟩
  cases b with
  | false => exact leave (Between.over ⟨h.fresh.congr rfl rfl rfl, rfl⟩)
  | true => exact leave (fresh_uploaded h.had).over

theorem wp_pollAndUpload (hdir : pathAppend dirPath Config.HLS_PLAYLIST_NAME = playlist)
    (h : Between u.lastPlaylistWrite_ w) :
    (contract playlist spotId).wp () (u.pollAndUpload anyClient spotId dirPath)
      (fun r w => Over r.1.lastPlaylistWrite_ w) (fun _ => False) w :=
  (segmentSteps playlist spotId).wp_pollAndUpload hdir h (fun _ _ _ hb => hb.over)
    fun _ _ hb => wp_uploadPlaylist hdir hb

end

/-- The life of an uploader: the recorded write time is fresh at every call of its owner. -/
def proof (playlist spotId : Str) :
    (contract playlist spotId).Proof (uploaderCode anyClient spotId) := by
  refine uploaderProof (fun u => Over u.lastPlaylistWrite_) (fun hr _ h => h.rely hr)
    (fun _ h _ => h.settled) (fun _ _ hs _ => ?_) fun _ _ hs h => ?_
  · rcases act_eq hs with ⟨-, rfl⟩
    exact ⟨⟨nofun, fun _ _ => nofun⟩, nofun⟩
  · rcases act_eq hs with ⟨hdir, rfl⟩
    exact wp_pollAndUpload (of_decide_eq_true hdir) ⟨h.fresh.congr rfl rfl rfl, rfl⟩

/-- Before the first replacement. -/
def init : World := ⟨none, [], none, none⟩

/-- In every run of an uploader beside the encoder: whenever a poll is over and the last it did was
to read the write time of the playlist, the text that the file had then is the text last stored. -/
theorem skipped_playlist_is_stored (playlist spotId : Str)
    {cfg : Config (uploaderCode anyClient spotId) World}
    (hrun : Run (machine playlist spotId) anyStep (uploaderStart anyClient spotId init) cfg)
    (hover : cfg.pending () = some .nextCall) {text : Str}
    (hskip : cfg.world.sampled = some text) : cfg.world.stored = some text := by
  have hstart : (proof playlist spotId).Valid (uploaderStart anyClient spotId init) := by
    refine ⟨nofun, fun t w hr _ u hu => ?_⟩
    cases hu
    have hfresh : Fresh none init := ⟨nofun, nofun⟩
    exact (Between.over ⟨hfresh, rfl⟩).rely hr
  exact ((proof playlist spotId).sound hstart hrun).pre hover rfl text hskip

/-! ## A replacement in the middle of a poll -/

/-- A directory with a playlist only, and an accepting client. -/
def liveReply (w : World) : (c : HostCall) → c.Reply
  | .isDirectory _ => true
  | .directoryEntries _ => some [Config.HLS_PLAYLIST_NAME]
  | .isRegularFile _ => some true
  | .fileSize _ => w.playlist.map fun v => v.1.length
  | .fileExists _ => some w.playlist.isSome
  | .lastWriteTime _ => w.playlist.map (·.2)
  | .readText _ => w.playlist.map (·.1)
  | .openBinary _ => none
  | .sleepFor _ => ()
  | .curlEasyInit => true
  | .presignPost _ _ _ _ => none
  | .put _ _ _ _ => ⟨.ok, 200, []⟩
  | .uploadLocalFileWithPresign _ _ _ => true
  | .nextCall => .pollAndUpload Config.HLS_OUTPUT_DIR

def indexPath : Str := pathAppend Config.HLS_OUTPUT_DIR Config.HLS_PLAYLIST_NAME

def calls (n : Nat) : List (Choice Host Unit World Replace) :=
  List.replicate n (.run () fun w c => some (liveReply w c))

/-- The second text is written while the first poll samples the size; the second poll uploads it
again, and the third one skips it. -/
def schedule : List (Choice Host Unit World Replace) :=
  .env ⟨"#EXTM3U\n".toList, 1⟩ :: calls 8 ++ .env ⟨"#EXTINF\n".toList, 2⟩ :: calls (6 + 14 + 8)

theorem skipped_playlist_is_stored_third_poll :
    ∃ cfg : Config (uploaderCode anyClient "A".toList) World,
      cfg.pending () = some .nextCall ∧ cfg.world.sampled = some "#EXTINF\n".toList ∧
        cfg.world.stored = some "#EXTINF\n".toList := by
  obtain ⟨cfg, hrun, h⟩ := exec_reaches (machine indexPath "A".toList) (fun _ _ => true)
    (uploaderStart anyClient "A".toList init) schedule
    (fun cfg => cfg.pending () = some .nextCall ∧
      cfg.world.sampled = some "#EXTINF\n".toList) (by decide +kernel)
  rcases of_decide_eq_true h with ⟨hover, hskip⟩
  refine ⟨cfg, hover, hskip, ?_⟩
  exact skipped_playlist_is_stored indexPath "A".toList (hrun.mono fun _ _ _ => trivial) hover hskip

end Skip

end SurfCam

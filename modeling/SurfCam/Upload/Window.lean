import SurfCam.Logic.SlidingWindow
import SurfCam.Upload.Order

/-!
# A window of segment files

The encoder keeps a bounded number of segment files and numbers them upwards, so that what a poll
finds lies in a window which only moves up.  The cache of uploaded names is bounded too, and refused
uploads and unstable files make the order of acceptance differ from that of the numbers; the cache
still has every uploaded name of the window.
-/

namespace SurfCam

open Interaction Contract HlsUploadPolicy SlidingWindow

namespace Window

/-- A file of the segment pattern `segment-%05d.ts`. -/
def segmentName (index : Nat) : Str :=
  "segment-".toList ++ (Nat.toDigits 10 index).leftpad 5 '0' ++ ".ts".toList

theorem segmentName_injective : Function.Injective segmentName := by
  have hvalue : ∀ index, Nat.ofDigitChars 10 ((Nat.toDigits 10 index).leftpad 5 '0') 0 = index := by
    intro index
    rw [List.leftpad, Nat.ofDigitChars_append, Nat.ofDigitChars_replicate_zero, Nat.mul_zero,
      Nat.ofDigitChars_ten_toDigits]
  intro i j h
  have hdigits := List.append_cancel_left (List.append_cancel_right h)
  rw [← hvalue i, ← hvalue j, hdigits]

/-- The name of the file whose object key is `objectKey`. -/
def nameOfKey (spotId objectKey : Str) : Str := objectKey.drop (s3KeyForFile spotId []).length

theorem nameOfKey_eq (spotId name : Str) : nameOfKey spotId (s3KeyForFile spotId name) = name := by
  have hkey : s3KeyForFile spotId name = s3KeyForFile spotId [] ++ name := by
    unfold s3KeyForFile
    rw [List.append_nil]
  rw [nameOfKey, hkey, List.drop_left]

structure World where
  /-- the segments below are gone -/
  ahead : Nat
  /-- the start of the window that the last scan has seen -/
  low : Nat
  /-- the segments that were uploaded in this session, the latest first -/
  accepted : List Str

/-- What the encoder does. -/
inductive Encode where
  /-- remove the segments below `first` -/
  | drop (first : Nat)
  /-- the file of segment `index` has the content `data` now -/
  | write (index : Nat) (data : Str)

section

variable (width : Nat) (spotId dirPath : Str)

/-- A scan finds segments of the window only; the other replies may be anything. -/
def fileReply (w : World) : (c : HostCall) → c.Reply → Bool
  | .directoryEntries _, some entries =>
    ∀ name ∈ entries, HlsUploader.extension name = ".ts".toList →
      ∃ index < w.ahead + width, w.ahead ≤ index ∧ name = segmentName index
  | .nextCall, .pollAndUpload path => path = dirPath
  | _, _ => true

/-- What a call leaves behind. -/
def after (w : World) : (c : HostCall) → c.Reply → World
  | .directoryEntries _, _ => { w with low := w.ahead }
  | .uploadLocalFileWithPresign objectKey _ _, true =>
    if objectKey = s3KeyForFile spotId Config.HLS_PLAYLIST_NAME then w
    else { w with accepted := nameOfKey spotId objectKey :: w.accepted }
  | .nextCall, .resetSession => ⟨0, 0, []⟩
  | _, _ => w

def encoded (w : World) : Encode → Option World
  | .drop first => if w.ahead ≤ first then some { w with ahead := first } else none
  | .write _ _ => some w

/-- An uploader that polls `dirPath`, beside an encoder whose files lie in a window of `width`. -/
def machine : Machine Host Unit World Encode where
  act _ c r w := if fileReply width dirPath w c r then some (after spotId w c r) else none
  env e w := encoded w e

end

/-- The indices of the uploaded segments. -/
structure Windowed (width : Nat) (w : World) : Prop where
  low : w.low ≤ w.ahead
  accepted : ∃ indices, w.accepted = indices.map segmentName ∧ Taken width w.low indices

/-- The name is that of a segment of the window that the last scan has seen. -/
def Found (width : Nat) (name : Str) (w : World) : Prop :=
  ∃ index, name = segmentName index ∧ w.low ≤ index ∧ index < w.low + width

/-- What is uploaded is the playlist or a segment of the window that was not uploaded before. -/
def offerPre (width : Nat) (spotId dirPath : Str) (w : World) : HostCall → Prop
  | .uploadLocalFileWithPresign objectKey _ path =>
    objectKey = s3KeyForFile spotId Config.HLS_PLAYLIST_NAME ∨
      ∃ name, Found width name w ∧ name ∉ w.accepted ∧ objectKey = s3KeyForFile spotId name ∧
        path = pathAppend dirPath name
  | _ => True

section

variable {width : Nat} {spotId dirPath : Str} {w w' : World}

theorem act_eq {c : HostCall} {r : c.Reply}
    (h : (machine width spotId dirPath).act () c r w = some w') :
    fileReply width dirPath w c r = true ∧ w' = after spotId w c r :=
  guarded_eq_some.mp h

theorem encoded_eq {e : Encode} (h : encoded w e = some w') :
    w'.low = w.low ∧ w'.accepted = w.accepted ∧ w.ahead ≤ w'.ahead := by
  cases e with
  | drop first =>
    obtain ⟨hle, rfl⟩ := guarded_eq_some.mp h
    exact ⟨rfl, rfl, hle⟩
  | write index data =>
    obtain rfl := Option.some.inj h
    exact ⟨rfl, rfl, Nat.le_refl _⟩

theorem windowed_after {c : HostCall} {r : c.Reply} (h : Windowed width w)
    (hp : offerPre width spotId dirPath w c) : Windowed width (after spotId w c r) := by
  unfold after
  split
  · rcases h.accepted with ⟨indices, haccepted, htaken⟩
    -- a scan: the window moves up to what the encoder has left
    exact ⟨Nat.le_refl _, indices, haccepted, htaken.slide h.low⟩
  · rename_i objectKey contentType path
    split
    · exact h
    rename_i hkey
    -- an accepted segment, which lies in the window and is new
    rcases hp.resolve_left hkey with ⟨name, ⟨index, rfl, hlow, hlt⟩, hnew, rfl, -⟩
    rcases h.accepted with ⟨indices, haccepted, htaken⟩
    refine ⟨h.low, index :: indices, ?_, htaken.cons hlow hlt fun hm => hnew ?_⟩
    · simp only [nameOfKey_eq, haccepted, List.map_cons]
    · exact haccepted ▸ List.mem_map_of_mem hm
  -- `resetSession` forgets the uploads and the window
  · exact ⟨Nat.le_refl _, [], rfl, .nil⟩
  · exact h

end

def contract (width : Nat) (spotId dirPath : Str) :
    Contract (machine width spotId dirPath) (anyStep (S := Host)) where
  inv := Windowed width
  pre _ c w := offerPre width spotId dirPath w c
  rely _ w w' := w'.low = w.low ∧ w'.accepted = w.accepted
  rely_refl _ _ := ⟨rfl, rfl⟩
  rely_trans h h' := ⟨h'.1.trans h.1, h'.2.trans h.2⟩
  inv_act hi hp _ hs := by
    rcases act_eq hs with ⟨-, rfl⟩
    exact windowed_after hi hp
  inv_env hi _ hs := by
    rcases encoded_eq hs with ⟨hlow, haccepted, hahead⟩
    rcases hi.accepted with ⟨indices, hindices, htaken⟩
    exact ⟨hlow ▸ Nat.le_trans hi.low hahead, indices, haccepted.trans hindices, hlow ▸ htaken⟩
  rely_act h := (h rfl).elim
  rely_env _ _ hs := ⟨(encoded_eq hs).1, (encoded_eq hs).2.1⟩

section

variable {width : Nat} {spotId dirPath : Str} {w : World}

theorem Windowed.nodup (h : Windowed width w) : w.accepted.Nodup := by
  rcases h.accepted with ⟨indices, haccepted, htaken⟩
  rw [haccepted]
  exact htaken.nodup.map segmentName_injective

/-- An uploaded segment of the window is still in the cache. -/
theorem Windowed.mem_cached (h : Windowed width w) (hwidth : width ≤ 256) {index : Nat}
    (hm : segmentName index ∈ w.accepted) (hlow : w.low ≤ index) :
    segmentName index ∈ (cached w.accepted).1 := by
  rw [cached_eq h.nodup]
  rcases h.accepted with ⟨indices, haccepted, htaken⟩
  rw [haccepted, List.mem_map] at hm
  rcases hm with ⟨i, hi, heq⟩
  obtain rfl := segmentName_injective heq
  -- the cache drops the oldest names, and at most two windows of younger ones were uploaded
  have hsize : 2 * (width - 1) < kMaxUploadedSegmentNames := by
    show 2 * (width - 1) < 512
    omega
  rw [haccepted, ← List.map_take, List.mem_toFinset]
  exact List.mem_map_of_mem (htaken.mem_take hi hlow hsize)

/-- What the members are between two steps of a poll. -/
structure Between (u : HlsUploader) (w : World) : Prop where
  uploaded : u.uploadedSegments_ = (cached w.accepted).1
  order : u.uploadedSegmentOrder_ = (cached w.accepted).2

theorem Between.congr {u : HlsUploader} {w' : World} (h : Between u w)
    (ha : w'.accepted = w.accepted) : Between u w' := by
  constructor
  · rw [ha]
    exact h.uploaded
  · rw [ha]
    exact h.order

/-- The members after an upload. -/
theorem Between.upload {u : HlsUploader} {name : Str} (h : Between u w) :
    Between (u.onSegmentUploaded name) { w with accepted := name :: w.accepted } := by
  have hrecord : recordSegmentUploaded name u.uploadedSegments_ u.uploadedSegmentOrder_ =
      cached (name :: w.accepted) := by
    rw [h.uploaded, h.order, cached]
  exact ⟨congrArg Prod.fst hrecord, congrArg Prod.snd hrecord⟩

theorem accepted_look {c : HostCall} (hc : c.IsLook) (r : c.Reply) :
    (after spotId w c r).accepted = w.accepted := by
  unfold after
  split <;> first | rfl | cases hc

theorem after_sample {c : HostCall} (hc : c.IsSample) (r : c.Reply) : after spotId w c r = w := by
  unfold after
  split <;> first | rfl | cases hc

theorem after_upload {name contentType path : Str}
    (hname : HlsUploader.extension name = ".ts".toList) :
    after spotId w (.uploadLocalFileWithPresign (s3KeyForFile spotId name) contentType path) true =
      { w with accepted := name :: w.accepted } := by
  have hkey : s3KeyForFile spotId name ≠ s3KeyForFile spotId Config.HLS_PLAYLIST_NAME :=
    fun heq => playlist_ne_segment hname (s3KeyForFile_injective _ heq)
  simp only [after, if_neg hkey, nameOfKey_eq]

theorem Found.low {name : Str} {w' : World} (h : Found width name w) (hlow : w'.low = w.low) :
    Found width name w' := by
  unfold Found
  rw [hlow]
  exact h

/-- A segment of the window that is not in the cache was not uploaded. -/
theorem not_accepted {u : HlsUploader} {name : Str} (hi : Windowed width w) (hwidth : width ≤ 256)
    (h : Between u w) (hf : Found width name w) (hnew : name ∉ u.uploadedSegments_) :
    name ∉ w.accepted := by
  intro hm
  rcases hf with ⟨index, rfl, hlow, -⟩
  apply hnew
  rw [h.uploaded]
  exact hi.mem_cached hwidth hm hlow

/-- The members of the uploader follow the uploads. -/
def steps (hwidth : width ≤ 256) (spotId dirPath : Str) :
    PollSteps (contract width spotId dirPath) anyClient spotId where
  Between := Between
  Found := Found width
  Dir d := d = dirPath
  Checked _ _ := True
  between_rely hr _ h := h.congr hr.2
  found_rely hr _ h := h.low hr.1
  sample_pre {c _} hc _ := by cases c <;> trivial
  sample_between {c r _ _ _} hc _ _ hs h := by
    rcases act_eq hs with ⟨-, rfl⟩
    rwa [after_sample hc]
  sample_found {c r _ _ _} hc _ _ hs h := by
    rcases act_eq hs with ⟨-, rfl⟩
    rwa [after_sample hc]
  entries_pre _ := trivial
  entries_between _ _ hs h := by
    rcases act_eq hs with ⟨-, rfl⟩
    exact h.congr rfl
  entries_found _ _ _ hs name hn hext := by
    rcases act_eq hs with ⟨hreply, rfl⟩
    rcases of_decide_eq_true hreply name hn hext with ⟨index, hlt, hlow, hname⟩
    exact ⟨index, hname, hlow, hlt⟩
  segment {d name u w} hd hext hf h hnew := by
    subst hd
    intro w hr hi
    have h := h.congr hr.2
    have hf' := hf.low hr.1
    refine ⟨.inr ⟨name, hf', not_accepted hi hwidth h hf' hnew, rfl, rfl⟩, ?_⟩
    intro b w' _ hs v hr' _
    rcases act_eq hs with ⟨-, rfl⟩
    cases b with
    | false => exact ⟨h.congr hr'.2, fun m hm => (hm.low hr.1).low hr'.1⟩
    | true =>
      rw [after_upload hext] at hr'
      exact ⟨h.upload.congr hr'.2, fun m hm => (hm.low hr.1).low hr'.1⟩
  checked_rely _ _ _ := trivial
  look_pre {c _} hc _ := by cases c <;> trivial
  look_between {c r _ _ _} hc _ _ hs h := by
    rcases act_eq hs with ⟨-, rfl⟩
    exact h.congr (accepted_look hc r)
  read_act _ _ _ _ := trivial
  playlist _ _ h _ := by
    intro w hr _
    have h := h.congr hr.2
    refine ⟨.inl rfl, fun b w' _ hs v hr' _ => ?_⟩
    rcases act_eq hs with ⟨-, rfl⟩
    refine h.congr (hr'.2.trans ?_)
    cases b with
    | false => rfl
    | true => simp only [after, if_true]
  recorded h := ⟨h.uploaded, h.order⟩

end

/-- The life of an uploader, session by session. -/
def proof {width : Nat} (hwidth : width ≤ 256) (spotId dirPath : Str) :
    (contract width spotId dirPath).Proof (uploaderCode anyClient spotId) := by
  refine uploaderProof Between (fun hr _ h => h.congr hr.2) (fun _ _ => trivial)
    (fun _ _ hs _ => ?_) fun _ _ hs h => ?_
  · rcases act_eq hs with ⟨-, rfl⟩
    exact ⟨rfl, rfl⟩
  · rcases act_eq hs with ⟨hdir, rfl⟩
    have hdir := of_decide_eq_true hdir
    exact (steps hwidth spotId dirPath).wp_poll hdir (h.congr rfl)

/-- Before the first session. -/
def init : World := ⟨0, 0, []⟩

theorem valid_start {width : Nat} (hwidth : width ≤ 256) (spotId dirPath : Str) :
    (proof hwidth spotId dirPath).Valid (uploaderStart anyClient spotId init) := by
  refine ⟨⟨Nat.le_refl _, [], rfl, .nil⟩, fun t w hr _ u hu => ?_⟩
  cases hu
  exact ⟨by rw [hr.2]; rfl, by rw [hr.2]; rfl⟩

/-- In every run in which each scan finds segments of a window only, which moves up: no segment is
uploaded twice in a session, and an uploaded segment is in `uploadedSegments_` as long as it is in
the window. -/
theorem segments_uploaded_once {width : Nat} (hwidth : width ≤ 256) (spotId dirPath : Str)
    {cfg : Config (uploaderCode anyClient spotId) World}
    (hrun : Run (machine width spotId dirPath) anyStep (uploaderStart anyClient spotId init) cfg) :
    cfg.world.accepted.Nodup ∧
      (∀ index, segmentName index ∈ cfg.world.accepted → cfg.world.low ≤ index →
        segmentName index ∈ (cached cfg.world.accepted).1) ∧
      ∀ u, cfg.reached () = some u → u.uploadedSegments_ = (cached cfg.world.accepted).1 := by
  have hvalid := (proof hwidth spotId dirPath).sound (valid_start hwidth spotId dirPath) hrun
  refine ⟨hvalid.inv.nodup, fun index hm hlow => hvalid.inv.mem_cached hwidth hm hlow, ?_⟩
  exact fun u hu => Between.uploaded (hvalid.holds hu)

/-- A directory with one finished segment, and an accepting client. -/
def segmentReply (index : Nat) (_ : World) : (c : HostCall) → c.Reply
  | .isDirectory _ => true
  | .directoryEntries _ => some [segmentName index]
  | .isRegularFile _ => some true
  | .fileSize _ => some 188
  | .fileExists _ => some false
  | .lastWriteTime _ => none
  | .readText _ => none
  | .openBinary _ => none
  | .sleepFor _ => ()
  | .curlEasyInit => true
  | .presignPost _ _ _ _ => none
  | .put _ _ _ _ => ⟨.ok, 200, []⟩
  | .uploadLocalFileWithPresign _ _ _ => true
  | .nextCall => .pollAndUpload Config.HLS_OUTPUT_DIR

/-- A poll that uploads the segment. -/
def poll (index : Nat) : List (Choice Host Unit World Encode) :=
  List.replicate 12 (.run () fun w c => some (segmentReply index w c))

theorem segments_uploaded_once_two_polls :
    ∃ cfg : Config (uploaderCode anyClient "A".toList) World,
      cfg.world.accepted = [segmentName 1, segmentName 0] ∧
      cfg.world.accepted.Nodup ∧
      (∀ index, segmentName index ∈ cfg.world.accepted → cfg.world.low ≤ index →
        segmentName index ∈ (cached cfg.world.accepted).1) ∧
      ∀ u, cfg.reached () = some u → u.uploadedSegments_ = (cached cfg.world.accepted).1 := by
  obtain ⟨cfg, hrun, h⟩ := exec_reaches (machine 8 "A".toList Config.HLS_OUTPUT_DIR)
    (fun _ _ => true) (uploaderStart anyClient "A".toList init)
    (poll 0 ++ .env (.drop 1) :: poll 1)
    (fun cfg => cfg.world.accepted = [segmentName 1, segmentName 0]) (by decide +kernel)
  refine ⟨cfg, of_decide_eq_true h, ?_⟩
  exact segments_uploaded_once (by decide) "A".toList Config.HLS_OUTPUT_DIR
    (hrun.mono fun _ _ _ => trivial)

end Window

end SurfCam

import SurfCam.Upload.PollSteps

/-!
# A poll under any client and any surroundings

The upload order rests on one assertion about an uploader: the segments of all cached names are
`Good` (accepted, stored, complete: the instances say which).  `PollRules` collects what a client
and its surroundings must satisfy for that; `PollRules.steps` is what this makes of the steps of a
poll, and `PollRules.proof` the contract of the uploader's whole life.
-/

namespace SurfCam

open Interaction Contract

variable {W E : Type} {M : Machine Host Unit W E} {ok : W → Label Host Unit E → Prop}

/-- Every segment named in `names` is good. -/
def AllGood (Good : Str → W → Prop) (names : Finset Str) (w : W) : Prop := ∀ n ∈ names, Good n w

/-- What a contract must say about the client `api` for a notion `Good` of uploaded segment and a
record `Checked` of the playlist text that the current poll has read; `Dir` are the directories that
the owner asks to poll. -/
structure PollRules (C : Contract M ok) (api : PresignClient) (spotId : Str) where
  Good : Str → W → Prop
  Checked : Str → W → Prop
  Dir : Str → Prop
  good_rely : ∀ {n w w'}, C.rely () w w' → C.inv w' → Good n w → Good n w'
  checked_rely : ∀ {t w w'}, C.rely () w w' → C.inv w' → Checked t w → Checked t w'
  look_pre : ∀ {c w}, c.IsLook → C.inv w → C.pre () c w
  look_act : ∀ {c r n w w'}, c.IsLook → C.inv w → ok w (.act () c r) →
    M.act () c r w = some w' → Good n w → Good n w'
  next_pre : ∀ {w}, C.inv w → C.pre () .nextCall w
  next_act : ∀ {d n w w'}, C.inv w → ok w (.act () .nextCall (.pollAndUpload d)) →
    M.act () .nextCall (.pollAndUpload d) w = some w' → Good n w → Good n w'
  next_dir : ∀ {d w w'}, ok w (.act () .nextCall (.pollAndUpload d)) →
    M.act () .nextCall (.pollAndUpload d) w = some w' → Dir d
  read_act : ∀ {d t w w'}, Dir d → C.inv w →
    ok w (.act () (.readText (pathAppend d Config.HLS_PLAYLIST_NAME)) (some t)) →
    M.act () (.readText (pathAppend d Config.HLS_PLAYLIST_NAME)) (some t) w = some w' → Checked t w'
  segment : ∀ {d n : Str} {names : Finset Str} {w : W}, Dir d →
    HlsUploader.extension n = ".ts".toList → AllGood Good names w →
    C.wp () (api (HlsUploadPolicy.s3KeyForFile spotId n) "video/mp2t".toList (pathAppend d n))
      (fun b w => AllGood Good names w ∧ (b = true → Good n w)) (fun _ => False) w
  playlist : ∀ {d t : Str} {names : Finset Str} {w : W}, Dir d → Checked t w →
    AllGood Good names w → (∀ n ∈ HlsUploadPolicy.demands t, n ∈ names) →
    C.wp () (api (HlsUploadPolicy.s3KeyForFile spotId Config.HLS_PLAYLIST_NAME)
      "application/vnd.apple.mpegurl".toList (pathAppend d Config.HLS_PLAYLIST_NAME))
      (fun _ w => AllGood Good names w) (fun _ => False) w

namespace PollRules

variable {C : Contract M ok} {api : PresignClient} {spotId : Str} (P : PollRules C api spotId)

theorem allGood_rely {names : Finset Str} {w w' : W} (hr : C.rely () w w') (hi : C.inv w')
    (h : AllGood P.Good names w) : AllGood P.Good names w' :=
  fun n hn => P.good_rely hr hi (h n hn)

/-- The steps of a poll keep the cached segments good. -/
def steps : PollSteps C api spotId where
  Between u := AllGood P.Good u.uploadedSegments_
  Found _ _ := True
  Dir := P.Dir
  Checked := P.Checked
  between_rely := P.allGood_rely
  found_rely _ _ _ := trivial
  sample_pre hc := P.look_pre (HostCall.IsSample.look hc)
  sample_between hc hi hok hs h n hn := P.look_act (HostCall.IsSample.look hc) hi hok hs (h n hn)
  sample_found _ _ _ _ _ := trivial
  entries_pre := P.look_pre rfl
  entries_between hi hok hs h n hn := P.look_act rfl hi hok hs (h n hn)
  entries_found _ _ _ _ _ _ _ := trivial
  segment {d n u w} hdir hname _ h _ := by
    refine wp_mono (P.segment hdir hname h) (fun b w' _ hb => ⟨?_, fun _ _ => trivial⟩)
      fun _ _ => id
    cases b with
    | false => exact hb.1
    | true =>
      intro m hm
      rcases Finset.mem_insert.mp (HlsUploadPolicy.recordSegmentUploaded_subset _ _ _ hm) with rfl | hm
      · exact hb.2 rfl
      · exact hb.1 m hm
  checked_rely := P.checked_rely
  look_pre := P.look_pre
  look_between hc hi hok hs h n hn := P.look_act hc hi hok hs (h n hn)
  read_act := P.read_act
  playlist hdir ht h hnames := P.playlist hdir ht h hnames
  recorded h := h

/-- The life of an uploader: at every call of its owner the cached segments are good. -/
def proof : C.Proof (uploaderCode api spotId) :=
  uploaderProof P.steps.Between P.allGood_rely (fun hi _ => P.next_pre hi) (fun _ _ _ _ => nofun)
    fun hi hok hs h => P.steps.wp_poll (P.next_dir hok hs) fun n hn => P.next_act hi hok hs (h n hn)

end PollRules

end SurfCam

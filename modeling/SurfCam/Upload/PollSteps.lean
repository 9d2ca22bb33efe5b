import SurfCam.Logic.RelyGuarantee
import SurfCam.Upload.Uploader

/-!
# The steps of a poll

What a poll does to its members, from its scan over the segment loop to the playlist, for any client
and any surroundings.  `SegmentSteps` collects what a contract must say about the segment half of a
poll, `PollSteps` about both halves; `PollSteps.proof` is then the contract of an uploader's life.
-/

namespace SurfCam

open Interaction Contract

/-- The calls with which a poll looks at the file system. -/
def HostCall.IsLook : HostCall → Bool
  | isDirectory _ | directoryEntries _ | isRegularFile _ | fileSize _ | fileExists _
  | lastWriteTime _ | readText _ | sleepFor _ => true
  | _ => false

/-- Those of them that its segment half makes, but for the one that lists the directory. -/
def HostCall.IsSample : HostCall → Bool
  | isDirectory _ | isRegularFile _ | fileSize _ | sleepFor _ => true
  | _ => false

theorem HostCall.IsSample.look {c : HostCall} (h : c.IsSample) : c.IsLook := by
  cases c <;> first | rfl | cases h

/-- The program only samples the file system, and what it returns is in `R`. -/
structure Samples {α : Type} (R : α → Prop) (p : Prog Host α) : Prop where
  built : p.Built (fun c : HostCall => c.IsSample) Prog.noParts
  returns : p.Returns R

namespace Samples

variable {α : Type} {R : α → Prop}

theorem ret {a : α} (h : R a) : Samples R (.ret a : Prog Host α) := ⟨.ret a, h⟩

theorem host {c : HostCall} {f : c.Reply → Prog Host α} (hc : c.IsSample)
    (hf : ∀ r, Samples R (f r)) : Samples R (SurfCam.host c >>= f) :=
  ⟨.bind (.call hc) fun r => (hf r).built, fun r => (hf r).returns⟩

end Samples

namespace HlsUploader

/-- The stability check starts with a look at the size. -/
theorem fileSizeStable_eq (path : Str) :
    ∃ k, fileSizeStable path = .call (.fileSize path) k ∧ ∀ r, Samples (fun _ => True) (k r) := by
  refine ⟨_, rfl, fun a => ?_⟩
  cases a with
  | none => exact .ret trivial
  | some a =>
    dsimp only [Prog.bind]
    split
    · exact .ret trivial
    refine .host rfl fun _ => .host rfl fun b => ?_
    cases b with
    | none => exact .ret trivial
    | some b =>
      dsimp only
      split
      · exact .ret trivial
      refine .host rfl fun _ => .host rfl fun c => ?_
      cases c <;> exact .ret trivial

theorem samples_fileSizeStable (path : Str) : Samples (fun _ => True) (fileSizeStable path) := by
  obtain ⟨k, hk, hsamples⟩ := fileSizeStable_eq path
  rw [hk]
  exact .host rfl hsamples

/-- What the scan returns are names with the extension `.ts` of entries that it was given. -/
theorem samples_scanEntries {P : Str → Prop} (dirPath : Str) (tsFiles entries : List Str)
    (hfiles : ∀ f ∈ tsFiles, P f) (hentries : ∀ f ∈ entries, extension f = ".ts".toList → P f) :
    Samples (fun found => ∀ l, found = some l → ∀ f ∈ l, P f)
      (scanEntries dirPath tsFiles entries) := by
  induction entries generalizing tsFiles with
  | nil => exact .ret fun _ hl => Option.some.inj hl ▸ hfiles
  | cons filename rest ih =>
    rw [List.forall_mem_cons] at hentries
    refine .host rfl fun regular => ?_
    match regular with
    | none => exact .ret fun _ hl => nomatch hl
    | some false => exact ih tsFiles hfiles hentries.2
    | some true =>
      dsimp only
      split
      · rename_i hext
        refine ih _ (fun f hf => ?_) hentries.2
        rcases List.mem_append.mp hf with hf | hf
        · exact hfiles f hf
        · exact List.mem_singleton.mp hf ▸ hentries.1 hext
      · exact ih tsFiles hfiles hentries.2

end HlsUploader

variable {W E : Type} {M : Machine Host Unit W E} {ok : W → Label Host Unit E → Prop}

/-- What a contract must say about the segment half of a poll: `Between` holds of the members
between its steps, `Found` of the names that its scan has found; `Dir` are the directories that the
owner asks to poll. -/
structure SegmentSteps (C : Contract M ok) (api : PresignClient) (spotId : Str) where
  Between : HlsUploader → W → Prop
  Found : Str → W → Prop
  Dir : Str → Prop
  between_rely : ∀ {u w w'}, C.rely () w w' → C.inv w' → Between u w → Between u w'
  found_rely : ∀ {n w w'}, C.rely () w w' → C.inv w' → Found n w → Found n w'
  sample_pre : ∀ {c w}, c.IsSample → C.inv w → C.pre () c w
  sample_between : ∀ {c r u w w'}, c.IsSample → C.inv w → ok w (.act () c r) →
    M.act () c r w = some w' → Between u w → Between u w'
  sample_found : ∀ {c r n w w'}, c.IsSample → C.inv w → ok w (.act () c r) →
    M.act () c r w = some w' → Found n w → Found n w'
  entries_pre : ∀ {d w}, C.inv w → C.pre () (.directoryEntries d) w
  entries_between : ∀ {d r u w w'}, C.inv w → ok w (.act () (.directoryEntries d) r) →
    M.act () (.directoryEntries d) r w = some w' → Between u w → Between u w'
  entries_found : ∀ {d entries w w'}, Dir d → C.inv w →
    ok w (.act () (.directoryEntries d) (some entries)) →
    M.act () (.directoryEntries d) (some entries) w = some w' →
    ∀ n ∈ entries, HlsUploader.extension n = ".ts".toList → Found n w'
  segment : ∀ {d n : Str} {u : HlsUploader} {w : W}, Dir d →
    HlsUploader.extension n = ".ts".toList → Found n w → Between u w → n ∉ u.uploadedSegments_ →
    C.wp () (api (HlsUploadPolicy.s3KeyForFile spotId n) "video/mp2t".toList (pathAppend d n))
      (fun b w' => Between (if b then u.onSegmentUploaded n else u) w' ∧
        ∀ m, Found m w → Found m w') (fun _ => False) w

namespace SegmentSteps

variable {C : Contract M ok} {api : PresignClient} {spotId dirPath : Str}
  (P : SegmentSteps C api spotId) {α : Type} {u : HlsUploader} {names : List Str} {w : W}

/-- What is known in front of a turn of the segment loop. -/
def Turn (u : HlsUploader) (names : List Str) (w : W) : Prop :=
  P.Between u w ∧ ∀ n ∈ names, P.Found n w

theorem turn_rely {w' : W} (hr : C.rely () w w') (hi : C.inv w') (h : P.Turn u names w) :
    P.Turn u names w' :=
  ⟨P.between_rely hr hi h.1, fun n hn => P.found_rely hr hi (h.2 n hn)⟩

theorem turn_nil (h : P.Between u w) : P.Turn u [] w := ⟨h, nofun⟩

theorem wp_samples {R : α → Prop} {p : Prog Host α} (hp : Samples R p) (h : P.Turn u names w) :
    C.wp () p (fun a w => R a ∧ P.Turn u names w) (fun _ => False) w := by
  refine wp_of_returns hp.returns (keeps_of_built (fun _ _ => P.turn_rely) ?_ nofun hp.built w h)
  intro c hc w hi ht
  refine ⟨P.sample_pre hc hi, fun r w' hok hact => ⟨?_, fun n hn => ?_⟩⟩
  · exact P.sample_between hc hi hok hact ht.1
  · exact P.sample_found hc hi hok hact (ht.2 n hn)

/-- One turn of the segment loop. -/
theorem wp_uploadSegment {name : Str} (hdir : P.Dir dirPath)
    (hname : HlsUploader.extension name = ".ts".toList) (h : P.Turn u (name :: names) w) :
    C.wp () (HlsUploader.uploadSegment api spotId dirPath u name)
      (fun u w => P.Turn u names w) (fun _ => False) w := by
  have keep : ∀ {w}, P.Turn u (name :: names) w →
      C.wp () (.ret u : Prog Host HlsUploader) (fun u w => P.Turn u names w) (fun _ => False) w := by
    intro w ht v hr hi
    have hv := P.turn_rely hr hi ht
    exact ⟨hv.1, fun n hn => hv.2 n (.tail _ hn)⟩
  rw [HlsUploader.uploadSegment]
  split
  · exact keep h
  rename_i hnew
  refine wp_bind_of (P.wp_samples (HlsUploader.samples_fileSizeStable _) h) fun stable w _ ht => ?_
  dsimp only
  split
  · exact keep ht.2
  have hturn := ht.2
  have hfound := hturn.2 name (.head _)
  refine wp_bind_of (P.segment hdir hname hfound hturn.1 hnew) fun b w' _ hb => ?_
  have hafter : ∀ n ∈ name :: names, P.Found n w' := fun n hn => hb.2 n (hturn.2 n hn)
  cases b with
  | true =>
    intro v hr hi
    exact P.turn_rely hr hi ⟨hb.1, fun n hn => hafter n (.tail _ hn)⟩
  | false => exact keep ⟨hb.1, hafter⟩

/-- The segment loop, by its turns. -/
theorem wp_uploadSegments (hdir : P.Dir dirPath)
    (hnames : ∀ n ∈ names, HlsUploader.extension n = ".ts".toList) (h : P.Turn u names w) :
    C.wp () (names.foldlM (HlsUploader.uploadSegment api spotId dirPath) u)
      (fun u w => P.Between u w) (fun _ => False) w := by
  induction names generalizing u w with
  | nil => exact fun v hr hi => P.between_rely hr hi h.1
  | cons name rest ih =>
    rw [List.forall_mem_cons] at hnames
    rw [List.foldlM_cons]
    exact wp_bind_of (P.wp_uploadSegment hdir hnames.1 h) fun u w _ ht => ih hnames.2 ht

/-- A poll, up to its playlist half. -/
theorem wp_pollAndUpload {Q : HlsUploader × HlsUploader.PollOutcome → W → Prop}
    (hdir : P.Dir dirPath) (h : P.Between u w)
    (hreturn : ∀ o w, C.inv w → P.Between u w → Q (u, o) w)
    (hplaylist : ∀ u w, P.Between u w →
      C.wp () (u.uploadPlaylist api spotId dirPath) Q (fun _ => False) w) :
    C.wp () (u.pollAndUpload api spotId dirPath) Q (fun _ => False) w := by
  have leave : ∀ {o w}, P.Between u w → C.wp () (.ret (u, o) : Prog Host _) Q (fun _ => False) w :=
    fun hb v hr hi => hreturn _ v hi (P.between_rely hr hi hb)
  rw [HlsUploader.pollAndUpload]
  refine wp_call_of (fun _ _ => P.between_rely) h fun w hi hb =>
    ⟨P.sample_pre rfl hi, fun isDir w' hok hact => ?_⟩
  have hb := P.sample_between rfl hi hok hact hb
  match isDir with
  | false => exact leave hb
  | true =>
  refine wp_call_of (fun _ _ => P.between_rely) hb fun w hi hb =>
    ⟨P.entries_pre hi, fun entries w' hok hact => ?_⟩
  have hb := P.entries_between hi hok hact hb
  match entries with
  | none => exact leave hb
  | some entries =>
  let segments := entries.filter fun n => HlsUploader.extension n = ".ts".toList
  have hfound : ∀ n ∈ segments, P.Found n w' := by
    intro n hn
    rw [List.mem_filter, decide_eq_true_eq] at hn
    exact P.entries_found hdir hi hok hact n hn.1 hn.2
  have hscan := HlsUploader.samples_scanEntries (P := (· ∈ segments)) dirPath [] entries nofun
    fun n hn hext => List.mem_filter.mpr ⟨hn, decide_eq_true hext⟩
  refine wp_bind_of (P.wp_samples hscan ⟨hb, hfound⟩) fun found w _ hf => ?_
  match found with
  | none => exact leave hf.2.1
  | some tsFiles =>
  -- the sorted list has the names that the scan has found
  have hmem : ∀ n ∈ tsFiles.insertionSort (· ≤ ·), n ∈ segments := fun n hn =>
    hf.1 tsFiles rfl n ((List.mem_insertionSort _).mp hn)
  refine wp_bind_of (P.wp_uploadSegments hdir (fun n hn => ?_) ⟨hf.2.1, fun n hn => ?_⟩)
    fun u w _ hb => hplaylist u w hb
  · exact of_decide_eq_true (List.mem_filter.mp (hmem n hn)).2
  · exact hf.2.2 n (hmem n hn)

end SegmentSteps

/-- What a contract must say about a whole poll: `Checked` is known of the playlist text that the
poll has read. -/
structure PollSteps (C : Contract M ok) (api : PresignClient) (spotId : Str) extends
    SegmentSteps C api spotId where
  Checked : Str → W → Prop
  checked_rely : ∀ {t w w'}, C.rely () w w' → C.inv w' → Checked t w → Checked t w'
  look_pre : ∀ {c w}, c.IsLook → C.inv w → C.pre () c w
  look_between : ∀ {c r u w w'}, c.IsLook → C.inv w → ok w (.act () c r) →
    M.act () c r w = some w' → Between u w → Between u w'
  read_act : ∀ {d t w w'}, Dir d → C.inv w →
    ok w (.act () (.readText (pathAppend d Config.HLS_PLAYLIST_NAME)) (some t)) →
    M.act () (.readText (pathAppend d Config.HLS_PLAYLIST_NAME)) (some t) w = some w' → Checked t w'
  playlist : ∀ {d t : Str} {u : HlsUploader} {w : W}, Dir d → Checked t w → Between u w →
    (∀ n ∈ HlsUploadPolicy.demands t, n ∈ u.uploadedSegments_) →
    C.wp () (api (HlsUploadPolicy.s3KeyForFile spotId Config.HLS_PLAYLIST_NAME)
      "application/vnd.apple.mpegurl".toList (pathAppend d Config.HLS_PLAYLIST_NAME))
      (fun _ w => Between u w) (fun _ => False) w
  recorded : ∀ {u w mtime}, Between u w → Between { u with lastPlaylistWrite_ := mtime } w

namespace PollSteps

variable {C : Contract M ok} {api : PresignClient} {spotId dirPath : Str}
  (P : PollSteps C api spotId) {α : Type} {u : HlsUploader} {w : W}

/-- One look in front of the rest of a poll. -/
theorem wp_look {c : HostCall} {f : c.Reply → Prog Host α} {Q : α → W → Prop} (hc : c.IsLook)
    (h : P.Between u w) (hf : ∀ r w, P.Between u w → C.wp () (f r) Q (fun _ => False) w) :
    C.wp () (host c >>= f) Q (fun _ => False) w := by
  refine wp_call_of (fun _ _ => P.between_rely) h fun w hi hb =>
    ⟨P.look_pre hc hi, fun r w' hok hact => ?_⟩
  exact hf r w' (P.look_between hc hi hok hact hb)

/-- The check passes only for a text that was read and whose segments are all cached. -/
theorem wp_allPlaylistSegmentsUploaded (hdir : P.Dir dirPath) (h : P.Between u w) :
    C.wp () (u.allPlaylistSegmentsUploaded (pathAppend dirPath Config.HLS_PLAYLIST_NAME))
      (fun b w => P.Between u w ∧ (b = true → ∃ t, P.Checked t w ∧
        ∀ n ∈ HlsUploadPolicy.demands t, n ∈ u.uploadedSegments_)) (fun _ => False) w := by
  refine wp_call_of (fun _ _ => P.between_rely) h fun w hi hb =>
    ⟨P.look_pre rfl hi, fun r w' hok hact => ?_⟩
  have hb := P.look_between rfl hi hok hact hb
  cases r with
  | none => exact fun v hr hi => ⟨P.between_rely hr hi hb, nofun⟩
  | some t =>
    intro v hr hi'
    refine ⟨P.between_rely hr hi' hb, fun hall => ⟨t, ?_, ?_⟩⟩
    · exact P.checked_rely hr hi' (P.read_act hdir hi hok hact)
    · exact (HlsUploadPolicy.playlistAllTsLinesUploaded_iff t _).mp hall

/-- The playlist half of a poll. -/
theorem wp_uploadPlaylist (hdir : P.Dir dirPath) (h : P.Between u w) :
    C.wp () (u.uploadPlaylist api spotId dirPath) (fun r w => P.Between r.1 w)
      (fun _ => False) w := by
  have keep : ∀ {mtime : Option Int} {o : HlsUploader.PollOutcome} {w}, P.Between u w →
      C.wp () (.ret ({ u with lastPlaylistWrite_ := mtime }, o) :
          Prog Host (HlsUploader × HlsUploader.PollOutcome))
        (fun r w => P.Between r.1 w) (fun _ => False) w :=
    fun hb v hr hi => P.recorded (P.between_rely hr hi hb)
  rw [HlsUploader.uploadPlaylist]
  refine P.wp_look rfl h fun playlistExists w hb => ?_
  match playlistExists with
  | none => exact keep hb
  | some false => exact keep hb
  | some true =>
  refine P.wp_look rfl hb fun mtime w hb => ?_
  match mtime with
  | none => exact keep hb
  | some mtime =>
  dsimp only
  split
  · exact keep hb
  refine wp_bind_of (P.wp_samples (HlsUploader.samples_fileSizeStable _) (P.turn_nil hb))
    fun stable w _ ht => ?_
  split
  · exact keep ht.2.1
  refine wp_bind_of (P.wp_allPlaylistSegmentsUploaded hdir ht.2.1) fun allUploaded w _ hc => ?_
  match allUploaded with
  | false => exact keep hc.1
  | true =>
  rcases hc.2 rfl with ⟨t, ht, hnames⟩
  refine wp_bind_of (P.playlist hdir ht hc.1 hnames) fun b w _ hb => ?_
  split
  · exact keep hb
  · exact keep hb

theorem wp_poll (hdir : P.Dir dirPath) (h : P.Between u w) :
    C.wp () (u.pollAndUpload api spotId dirPath) (fun r w => P.Between r.1 w) (fun _ => False) w :=
  P.wp_pollAndUpload hdir h (fun _ _ _ hb => hb) fun _ _ hb => P.wp_uploadPlaylist hdir hb

end PollSteps

/-- The life of an uploader, from the contract of a poll: what holds at every call of its owner. -/
def uploaderProof {C : Contract M ok} {api : PresignClient} {spotId : Str}
    (holds : HlsUploader → W → Prop)
    (rely : ∀ {u w w'}, C.rely () w w' → C.inv w' → holds u w → holds u w')
    (next : ∀ {u w}, C.inv w → holds u w → C.pre () .nextCall w)
    (reset : ∀ {u w w'}, C.inv w → ok w (.act () .nextCall .resetSession) →
      M.act () .nextCall .resetSession w = some w' → holds u w → holds u.resetSession w')
    (poll : ∀ {u d w w'}, C.inv w → ok w (.act () .nextCall (.pollAndUpload d)) →
      M.act () .nextCall (.pollAndUpload d) w = some w' → holds u w →
      C.wp () (u.pollAndUpload api spotId d) (fun r w => holds r.1 w) (fun _ => False) w') :
    C.Proof (uploaderCode api spotId) where
  holds _ := holds
  body _ u w _ h := by
    refine wp_call_of (fun _ _ => rely) h fun w hi hw => ⟨next hi hw, fun r w' hok hact => ?_⟩
    cases r with
    | resetSession =>
      rintro v hr hi' _ ⟨⟩
      exact rely hr hi' (reset hi hok hact hw)
    | pollAndUpload dirPath =>
      have hpoll := wp_mono (poll hi hok hact hw) (fun _ _ _ h => h) fun _ _ _ => trivial
      refine wp_bind_of hpoll fun res w _ hres => ?_
      rintro v hr hi' _ ⟨⟩
      exact rely hr hi' hres

end SurfCam

import SurfCam.Logic.Trace
import SurfCam.Upload.Uploader

/-!
# A directory that does not change

What the polls of an uploader make of a fixed directory when the client takes everything.  The scan
accepts files by their extension and the playlist demands names by their suffix; both come to the
same segments.
-/

namespace SurfCam

open Interaction HlsUploadPolicy

/-- An entry of a directory; what is not a regular file has no content. -/
structure DirEntry where
  name : Str
  content : Option Str
  mtime : Int
  deriving DecidableEq

/-- A regular file with the extension `.ts`. -/
def DirEntry.isTs (e : DirEntry) : Bool :=
  e.content.isSome && HlsUploader.extension e.name = ".ts".toList

/-- The entries in the order in which the iteration meets them. -/
structure Directory where
  entries : List DirEntry
  nodup : (entries.map DirEntry.name).Nodup

/-- A call of the client. -/
structure Upload where
  objectKey : Str
  contentType : Str
  filePath : Str
  deriving DecidableEq

namespace Directory

variable (d : Directory) (spotId dirPath : Str)

def lookup (path : Str) : Option DirEntry :=
  d.entries.find? fun e => pathAppend dirPath e.name = path

/-- The content of the regular file at a path. -/
def content (path : Str) : Option Str := (d.lookup dirPath path).bind DirEntry.content

/-- What the file system says about the directory, and a client that answers true. -/
def answer : (c : HostCall) → c.Reply
  | .isDirectory path => path = dirPath
  | .directoryEntries _ => some (d.entries.map DirEntry.name)
  | .isRegularFile path => some (d.content dirPath path).isSome
  | .fileSize path => (d.content dirPath path).map List.length
  | .fileExists path => some (d.lookup dirPath path).isSome
  | .lastWriteTime path => (d.lookup dirPath path).map DirEntry.mtime
  | .readText path | .openBinary path => d.content dirPath path
  | .sleepFor _ => ()
  | .curlEasyInit => true
  | .presignPost _ _ _ _ => none
  | .put _ _ _ _ => ⟨.ok, 200, []⟩
  | .uploadLocalFileWithPresign _ _ _ => true
  | .nextCall => .pollAndUpload dirPath

/-- The call of the client that an event is. -/
def upload : Event Host → Option Upload
  | ⟨.uploadLocalFileWithPresign objectKey contentType filePath, _⟩ =>
    some ⟨objectKey, contentType, filePath⟩
  | _ => none

/-- The calls of the client in each of so many polls. -/
def polls : Nat → HlsUploader → List (List Upload)
  | 0, _ => []
  | n + 1, u =>
    let (events, o) := (u.pollAndUpload anyClient spotId dirPath).eval (d.answer dirPath)
    events.filterMap upload :: polls n ((o.map Prod.fst).getD u)

/-! ## What is to be uploaded -/

/-- The names of the regular `.ts` files with a content, in ascending order of their paths. -/
def segments : List Str :=
  ((d.entries.filter fun e => e.isTs && e.content.any (· ≠ [])).map DirEntry.name).insertionSort
    fun a b => pathAppend dirPath a ≤ pathAppend dirPath b

/-- `index.m3u8` is a regular file, is not empty, and demands none but the segments. -/
def complete : Bool :=
  (d.content dirPath (pathAppend dirPath Config.HLS_PLAYLIST_NAME)).any fun text =>
    text ≠ [] ∧ ∀ name ∈ demands text, name ∈ d.segments dirPath

def segmentUpload (name : Str) : Upload :=
  ⟨s3KeyForFile spotId name, "video/mp2t".toList, pathAppend dirPath name⟩

def playlistUpload : Upload :=
  ⟨s3KeyForFile spotId Config.HLS_PLAYLIST_NAME, "application/vnd.apple.mpegurl".toList,
    pathAppend dirPath Config.HLS_PLAYLIST_NAME⟩

/-- The segments in order, and then the playlist if it is complete. -/
def uploads : List Upload :=
  (d.segments dirPath).map (segmentUpload spotId dirPath) ++
    if d.complete dirPath then [playlistUpload spotId dirPath] else []

/-! ## Single steps -/

section

variable {d spotId dirPath} {α : Type} {p : Prog Host α} {us : List Upload} {a : α}
  {u : HlsUploader} {e : DirEntry} {name : Str}

/-- What a program does in the directory. -/
abbrev Acts (d : Directory) (dirPath : Str) (p : Prog Host α) (us : List Upload) (a : α) : Prop :=
  Does (d.answer dirPath) upload p us a

/-- The path of an entry leads to it. -/
theorem lookup_entry (he : e ∈ d.entries) :
    d.lookup dirPath (pathAppend dirPath e.name) = some e := by
  cases hfound : d.lookup dirPath (pathAppend dirPath e.name) with
  | none =>
    have hpath := List.find?_eq_none.mp hfound e he
    exact absurd (decide_eq_true rfl) hpath
  | some e' =>
    have hpath := List.find?_some hfound
    have hname : e'.name = e.name := pathAppend_injective dirPath (of_decide_eq_true hpath)
    rw [List.inj_on_of_nodup_map d.nodup (List.mem_of_find?_eq_some hfound) he hname]

theorem content_entry (he : e ∈ d.entries) :
    d.content dirPath (pathAppend dirPath e.name) = e.content := by
  unfold content
  rw [lookup_entry he]
  rfl

/-- Only an empty file is not stable. -/
theorem acts_fileSizeStable (path : Str) :
    Acts d dirPath (HlsUploader.fileSizeStable path) []
      ((d.content dirPath path).any (· ≠ [])) := by
  apply Does.skip rfl
  have hanswer : d.answer dirPath (.fileSize path) = (d.content dirPath path).map List.length := rfl
  cases hcontent : d.content dirPath path with
  | none =>
    rw [hcontent] at hanswer
    rw [hanswer]
    exact .ret
  | some text =>
    rw [hcontent] at hanswer
    rw [hanswer]
    by_cases hempty : text = []
    · subst hempty
      exact .ret
    · have hlength : text.length ≠ 0 := fun h => hempty (List.eq_nil_of_length_eq_zero h)
      have hstable : (some text).any (· ≠ []) = true := decide_eq_true hempty
      rw [hstable]
      show Acts d dirPath (if text.length = 0 then _ else _) _ _
      rw [if_neg hlength]
      apply Does.skip rfl
      apply Does.skip rfl
      rw [hanswer]
      show Acts d dirPath (if text.length ≠ text.length then _ else _) _ _
      rw [if_neg (not_not.mpr rfl)]
      apply Does.skip rfl
      apply Does.skip rfl
      rw [hanswer]
      show Acts d dirPath (.ret (text.length == text.length)) _ _
      rw [beq_self_eq_true]
      exact .ret

/-- The scan finds the regular files with the extension. -/
theorem acts_scanEntries (found : List Str) (entries : List DirEntry)
    (hentries : ∀ e ∈ entries, e ∈ d.entries) :
    Acts d dirPath (HlsUploader.scanEntries dirPath found (entries.map DirEntry.name)) []
      (some (found ++ (entries.filter DirEntry.isTs).map DirEntry.name)) := by
  induction entries generalizing found with
  | nil =>
    rw [List.filter_nil, List.map_nil, List.append_nil]
    exact .ret
  | cons e rest ih =>
    obtain ⟨he, hrest⟩ := List.forall_mem_cons.mp hentries
    apply Does.skip rfl
    have hanswer : d.answer dirPath (.isRegularFile (pathAppend dirPath e.name)) =
        some e.content.isSome := congrArg _ (congrArg _ (content_entry he))
    rw [hanswer]
    cases hregular : e.content.isSome with
    | false =>
      have hother : ¬ e.isTs = true := by
        unfold DirEntry.isTs
        rw [hregular]
        exact nofun
      rw [List.filter_cons_of_neg hother]
      exact ih found hrest
    | true =>
      have hts : e.isTs = decide (HlsUploader.extension e.name = ".ts".toList) := by
        unfold DirEntry.isTs
        rw [hregular, Bool.true_and]
      show Acts d dirPath (if _ then _ else _) _ _
      by_cases hext : HlsUploader.extension e.name = ".ts".toList
      · rw [if_pos hext, List.filter_cons_of_pos (hts.trans (decide_eq_true hext)), List.map_cons,
          List.append_cons found e.name (List.map _ _)]
        exact ih (found ++ [e.name]) hrest
      · have hother := Bool.eq_false_iff.mp (hts.trans (decide_eq_false hext))
        rw [if_neg hext, List.filter_cons_of_neg hother]
        exact ih found hrest

/-! ## The segments of a poll -/

/-- The file of a name is not empty. -/
def due (d : Directory) (dirPath name : Str) : Bool :=
  (d.content dirPath (pathAppend dirPath name)).any (· ≠ [])

theorem acts_uploadSegment_due (hnew : name ∉ u.uploadedSegments_)
    (hdue : d.due dirPath name = true) :
    Acts d dirPath (HlsUploader.uploadSegment anyClient spotId dirPath u name)
      [segmentUpload spotId dirPath name] (u.onSegmentUploaded name) := by
  unfold HlsUploader.uploadSegment
  rw [if_neg hnew]
  have hstable : Acts d dirPath (HlsUploader.fileSizeStable (pathAppend dirPath name)) []
      (d.due dirPath name) := acts_fileSizeStable _
  rw [hdue] at hstable
  exact hstable.bind (.note rfl .ret)

theorem acts_uploadSegment_skip
    (hskip : name ∈ u.uploadedSegments_ ∨ d.due dirPath name = false) :
    Acts d dirPath (HlsUploader.uploadSegment anyClient spotId dirPath u name) [] u := by
  unfold HlsUploader.uploadSegment
  by_cases hname : name ∈ u.uploadedSegments_
  · rw [if_pos hname]
    exact .ret
  · rw [if_neg hname]
    have hstable : Acts d dirPath (HlsUploader.fileSizeStable (pathAppend dirPath name)) []
        (d.due dirPath name) := acts_fileSizeStable _
    rw [hskip.resolve_left hname] at hstable
    exact hstable.bind .ret

/-- A segment loop over new names. -/
theorem acts_uploadSegments {names : List Str} (hnodup : names.Nodup)
    (hnew : ∀ n ∈ names, n ∉ u.uploadedSegments_) :
    Acts d dirPath (names.foldlM (HlsUploader.uploadSegment anyClient spotId dirPath) u)
      ((names.filter (d.due dirPath)).map (segmentUpload spotId dirPath))
      ((names.filter (d.due dirPath)).foldl HlsUploader.onSegmentUploaded u) := by
  induction names generalizing u with
  | nil => exact .ret
  | cons name rest ih =>
    obtain ⟨hname, hnodup⟩ := List.nodup_cons.mp hnodup
    obtain ⟨hfirst, hrest⟩ := List.forall_mem_cons.mp hnew
    rw [List.foldlM_cons]
    by_cases hdue : d.due dirPath name = true
    · rw [List.filter_cons_of_pos hdue]
      have hrest : ∀ n ∈ rest, n ∉ (u.onSegmentUploaded name).uploadedSegments_ := by
        intro n hn hmem
        rcases Finset.mem_insert.mp (recordSegmentUploaded_subset _ _ _ hmem) with rfl | hmem
        -- a name that is cached now was recorded just before, or is an old one
        · exact hname hn
        · exact hrest n hn hmem
      exact (acts_uploadSegment_due hfirst hdue).bind (ih hnodup hrest)
    · rw [List.filter_cons_of_neg hdue]
      have hskip := Bool.eq_false_iff.mpr hdue
      exact (acts_uploadSegment_skip (.inr hskip)).bind (ih hnodup hrest)

/-- A segment loop over names that are cached or empty. -/
theorem acts_uploadSegments_skip {names : List Str}
    (hskip : ∀ n ∈ names, n ∈ u.uploadedSegments_ ∨ d.due dirPath n = false) :
    Acts d dirPath (names.foldlM (HlsUploader.uploadSegment anyClient spotId dirPath) u) [] u := by
  induction names with
  | nil => exact .ret
  | cons name rest ih =>
    obtain ⟨hfirst, hrest⟩ := List.forall_mem_cons.mp hskip
    rw [List.foldlM_cons]
    exact (acts_uploadSegment_skip hfirst).bind (ih hrest)

/-- The members after the segments were uploaded one after the other. -/
theorem members_foldl (names : List Str) :
    names.foldl HlsUploader.onSegmentUploaded {} =
      ⟨(cached names.reverse).1, (cached names.reverse).2, none⟩ := by
  induction names using List.reverseRecOn with
  | nil => rfl
  | append_singleton names name ih =>
    rw [List.foldl_append, ih, List.reverse_append]
    rfl

/-! ## What the scan finds -/

/-- In one directory paths are ordered as names are. -/
theorem pathAppend_le {a b : Str} : pathAppend dirPath a ≤ pathAppend dirPath b ↔ a ≤ b := by
  have hmono : StrictMono (pathAppend dirPath) := by
    intro a b hab
    rw [pathAppend_eq dirPath a, pathAppend_eq dirPath b]
    exact List.Lex.append_left (· < ·) hab (pathAppend dirPath [])
  exact hmono.le_iff_le

/-- The names that the scan finds. -/
def scanned (d : Directory) : List Str := (d.entries.filter DirEntry.isTs).map DirEntry.name

theorem nodup_scanned : d.scanned.Nodup :=
  (List.filter_sublist.map DirEntry.name).nodup d.nodup

/-- The segments are the scanned names whose files are not empty. -/
theorem segments_eq :
    d.segments dirPath = (d.scanned.insertionSort (· ≤ ·)).filter (d.due dirPath) := by
  have hdue : d.scanned.filter (d.due dirPath) =
      (d.entries.filter fun e => e.isTs && e.content.any (· ≠ [])).map DirEntry.name := by
    unfold scanned
    rw [List.filter_map, List.filter_filter]
    congr 1
    apply List.filter_congr
    intro e he
    show (d.due dirPath e.name && e.isTs) = _
    unfold due
    rw [content_entry he, Bool.and_comm]
  -- sorting and filtering commute: both sides are sorted, and permutations of each other
  have hsorted : ((d.scanned.filter (d.due dirPath)).insertionSort (· ≤ ·)).Pairwise (· ≤ ·) :=
    List.pairwise_insertionSort _ _
  have hfiltered : ((d.scanned.insertionSort (· ≤ ·)).filter (d.due dirPath)).Pairwise (· ≤ ·) :=
    (List.pairwise_insertionSort _ _).filter _
  have hperm : ((d.scanned.filter (d.due dirPath)).insertionSort (· ≤ ·)).Perm
      ((d.scanned.insertionSort (· ≤ ·)).filter (d.due dirPath)) :=
    (List.perm_insertionSort _ _).trans ((List.perm_insertionSort _ _).symm.filter _)
  unfold segments
  rw [← hdue]
  simp only [pathAppend_le]
  exact hperm.eq_of_pairwise' hsorted hfiltered

theorem nodup_segments : (d.segments dirPath).Nodup := by
  rw [segments_eq]
  exact ((List.perm_insertionSort _ _).nodup_iff.mpr nodup_scanned).filter _

/-! ## The playlist of a poll -/

/-- The playlist is not the one that was uploaded last, and it passes the checks. -/
def publishes (u : HlsUploader) (e : DirEntry) : Bool :=
  decide (u.lastPlaylistWrite_ ≠ some e.mtime) && e.content.any fun text =>
    decide (text ≠ []) && playlistAllTsLinesUploaded text u.uploadedSegments_

/-- The entry `index.m3u8`. -/
def playlist (d : Directory) (dirPath : Str) : Option DirEntry :=
  d.lookup dirPath (pathAppend dirPath Config.HLS_PLAYLIST_NAME)

theorem acts_allPlaylistSegmentsUploaded {text path : Str}
    (htext : d.content dirPath path = some text) :
    Acts d dirPath (u.allPlaylistSegmentsUploaded path) []
      (playlistAllTsLinesUploaded text u.uploadedSegments_) := by
  apply Does.skip rfl
  have hanswer : d.answer dirPath (.readText path) = some text := htext
  rw [hanswer]
  exact .ret

theorem acts_uploadPlaylist_none (h : d.playlist dirPath = none) :
    Acts d dirPath (u.uploadPlaylist anyClient spotId dirPath) [] (u, .returned true) := by
  apply Does.skip rfl
  have hexists : d.answer dirPath (.fileExists (pathAppend dirPath Config.HLS_PLAYLIST_NAME)) =
      some false := congrArg (fun e => some (Option.isSome e)) h
  rw [hexists]
  exact .ret

/-- The playlist goes out if it passes the checks. -/
theorem acts_uploadPlaylist_some (h : d.playlist dirPath = some e) :
    Acts d dirPath (u.uploadPlaylist anyClient spotId dirPath)
      (if publishes u e then [playlistUpload spotId dirPath] else [])
      (if publishes u e then { u with lastPlaylistWrite_ := some e.mtime } else u,
        .returned true) := by
  have hexists : d.answer dirPath (.fileExists (pathAppend dirPath Config.HLS_PLAYLIST_NAME)) =
      some true := congrArg (fun e => some (Option.isSome e)) h
  have hmtime : d.answer dirPath (.lastWriteTime (pathAppend dirPath Config.HLS_PLAYLIST_NAME)) =
      some e.mtime := congrArg (Option.map DirEntry.mtime) h
  have hcontent : d.content dirPath (pathAppend dirPath Config.HLS_PLAYLIST_NAME) = e.content :=
    congrArg (fun e => Option.bind e DirEntry.content) h
  have hstable : Acts d dirPath
      (HlsUploader.fileSizeStable (pathAppend dirPath Config.HLS_PLAYLIST_NAME)) [] _ :=
    acts_fileSizeStable _
  rw [hcontent] at hstable
  apply Does.skip rfl
  rw [hexists]
  apply Does.skip rfl
  rw [hmtime]
  show Acts d dirPath (if u.lastPlaylistWrite_ = some e.mtime then _ else _) _ _
  unfold publishes
  by_cases hlast : u.lastPlaylistWrite_ = some e.mtime
  · rw [if_pos hlast, decide_eq_false (not_not.mpr hlast)]
    exact .ret
  rw [if_neg hlast, decide_eq_true hlast, Bool.true_and]
  cases htext : e.content with
  | none =>
    rw [htext] at hstable
    exact hstable.bind .ret
  | some text =>
  rw [htext] at hstable
  by_cases hempty : text = []
  · subst hempty
    exact hstable.bind .ret
  have hsize : (some text).any (· ≠ []) = true := decide_eq_true hempty
  rw [hsize] at hstable
  rw [Option.any_some, decide_eq_true hempty, Bool.true_and]
  apply Does.bind hstable
  have hcheck := acts_allPlaylistSegmentsUploaded (u := u) (hcontent.trans htext)
  apply Does.bind hcheck
  cases playlistAllTsLinesUploaded text u.uploadedSegments_ with
  | false => exact .ret
  | true => exact .note rfl .ret

/-! ## Whole polls -/

/-- A poll is its segment half and its playlist half. -/
theorem acts_pollAndUpload {us' : List Upload} {u' : HlsUploader}
    {r : HlsUploader × HlsUploader.PollOutcome}
    (hsegments : Acts d dirPath ((d.scanned.insertionSort (· ≤ ·)).foldlM
      (HlsUploader.uploadSegment anyClient spotId dirPath) u) us u')
    (hplaylist : Acts d dirPath (u'.uploadPlaylist anyClient spotId dirPath) us' r) :
    Acts d dirPath (u.pollAndUpload anyClient spotId dirPath) (us ++ us') r := by
  have hdir : d.answer dirPath (.isDirectory dirPath) = true := decide_eq_true rfl
  apply Does.skip rfl
  rw [hdir]
  apply Does.skip rfl
  have hscan : Acts d dirPath (HlsUploader.scanEntries dirPath [] (d.entries.map DirEntry.name)) []
      (some d.scanned) := acts_scanEntries [] d.entries fun _ he => he
  exact hscan.bind (hsegments.bind hplaylist)

theorem polls_succ {r : HlsUploader × HlsUploader.PollOutcome} (n : Nat)
    (h : Acts d dirPath (u.pollAndUpload anyClient spotId dirPath) us r) :
    d.polls spotId dirPath (n + 1) u = us :: d.polls spotId dirPath n r.1 := by
  obtain ⟨hus, hr⟩ := h
  show ((u.pollAndUpload anyClient spotId dirPath).eval (d.answer dirPath)).1.filterMap upload ::
    d.polls spotId dirPath n ((Option.map Prod.fst
      ((u.pollAndUpload anyClient spotId dirPath).eval (d.answer dirPath)).2).getD u) = _
  rw [hus, hr]
  rfl

/-- Nothing more happens once a poll does nothing. -/
theorem polls_fixed {o : HlsUploader.PollOutcome}
    (h : Acts d dirPath (u.pollAndUpload anyClient spotId dirPath) [] (u, o)) (n : Nat) :
    d.polls spotId dirPath n u = List.replicate n [] := by
  induction n with
  | zero => rfl
  | succ n ih => rw [polls_succ n h, ih, List.replicate_succ]

/-- The members after the segments of the first poll. -/
def afterSegments (d : Directory) (dirPath : Str) : HlsUploader :=
  ⟨(cached (d.segments dirPath).reverse).1, (cached (d.segments dirPath).reverse).2, none⟩

theorem mem_afterSegments (hle : (d.segments dirPath).length ≤ kMaxUploadedSegmentNames) :
    name ∈ (d.afterSegments dirPath).uploadedSegments_ ↔ name ∈ d.segments dirPath := by
  have hnodup : (d.segments dirPath).reverse.Nodup := List.nodup_reverse.mpr nodup_segments
  unfold afterSegments
  rw [cached_eq hnodup, List.take_of_length_le (by rwa [List.length_reverse]), List.mem_toFinset,
    List.mem_reverse]

theorem acts_firstSegments : Acts d dirPath ((d.scanned.insertionSort (· ≤ ·)).foldlM
    (HlsUploader.uploadSegment anyClient spotId dirPath) {})
    ((d.segments dirPath).map (segmentUpload spotId dirPath)) (d.afterSegments dirPath) := by
  have hnodup : (d.scanned.insertionSort (· ≤ ·)).Nodup :=
    (List.perm_insertionSort _ _).nodup_iff.mpr nodup_scanned
  have hacts : Acts d dirPath ((d.scanned.insertionSort (· ≤ ·)).foldlM
      (HlsUploader.uploadSegment anyClient spotId dirPath) {}) _ _ :=
    acts_uploadSegments hnodup fun _ _ => Finset.notMem_empty _
  rw [← segments_eq, members_foldl] at hacts
  exact hacts

/-- Every segment is cached then. -/
theorem acts_furtherSegments (hle : (d.segments dirPath).length ≤ kMaxUploadedSegmentNames)
    (hu : u.uploadedSegments_ = (d.afterSegments dirPath).uploadedSegments_) :
    Acts d dirPath ((d.scanned.insertionSort (· ≤ ·)).foldlM
      (HlsUploader.uploadSegment anyClient spotId dirPath) u) [] u := by
  apply acts_uploadSegments_skip
  intro n hn
  by_cases hdue : d.due dirPath n = true
  · left
    rw [hu, mem_afterSegments hle, segments_eq]
    exact List.mem_filter.mpr ⟨hn, hdue⟩
  · exact .inr (Bool.eq_false_iff.mpr hdue)

/-- After the segments the playlist goes out if it is complete. -/
theorem publishes_afterSegments (hle : (d.segments dirPath).length ≤ kMaxUploadedSegmentNames)
    (h : d.playlist dirPath = some e) :
    publishes (d.afterSegments dirPath) e = d.complete dirPath := by
  have hcontent : d.content dirPath (pathAppend dirPath Config.HLS_PLAYLIST_NAME) = e.content :=
    congrArg (fun e => Option.bind e DirEntry.content) h
  unfold publishes complete
  rw [hcontent]
  cases e.content with
  | none => rfl
  | some text =>
    show (decide (text ≠ []) && playlistAllTsLinesUploaded text _) =
      decide (text ≠ [] ∧ ∀ name ∈ demands text, name ∈ d.segments dirPath)
    rw [Bool.eq_iff_iff, Bool.and_eq_true, decide_eq_true_eq, decide_eq_true_eq,
      playlistAllTsLinesUploaded_iff]
    exact and_congr_right fun _ => forall₂_congr fun _ _ => mem_afterSegments hle

end

/-- With at most 512 segments, the first poll after a reset uploads every segment once and then the
playlist if it is complete, and the further polls upload nothing. -/
theorem polls_settled (d : Directory) (spotId dirPath : Str)
    (hle : (d.segments dirPath).length ≤ kMaxUploadedSegmentNames) (u : HlsUploader) (n : Nat) :
    d.polls spotId dirPath (n + 1) u.resetSession =
      d.uploads spotId dirPath :: List.replicate n [] := by
  have hfirst : Acts d dirPath ((d.scanned.insertionSort (· ≤ ·)).foldlM
      (HlsUploader.uploadSegment anyClient spotId dirPath) {}) _ (d.afterSegments dirPath) :=
    acts_firstSegments
  unfold uploads
  cases hplaylist : d.playlist dirPath with
  | none =>
    have hcomplete : d.complete dirPath = false :=
      congrArg (fun e => (Option.bind e DirEntry.content).any _) hplaylist
    -- no playlist: the polls upload segments only
    have hpoll := acts_pollAndUpload hfirst (acts_uploadPlaylist_none hplaylist)
    have hagain : Acts d dirPath
        ((d.afterSegments dirPath).pollAndUpload anyClient spotId dirPath) [] _ :=
      acts_pollAndUpload (acts_furtherSegments hle rfl) (acts_uploadPlaylist_none hplaylist)
    rw [hcomplete]
    exact (polls_succ n hpoll).trans (congrArg _ (polls_fixed hagain n))
  | some e =>
    have hpoll := acts_pollAndUpload hfirst (acts_uploadPlaylist_some hplaylist)
    rw [publishes_afterSegments hle hplaylist] at hpoll
    -- what keeps a later poll still: every segment is cached, and the playlist does not go out
    have hdone : ∀ u : HlsUploader,
        u.uploadedSegments_ = (d.afterSegments dirPath).uploadedSegments_ →
        publishes u e = false →
        Acts d dirPath (u.pollAndUpload anyClient spotId dirPath) [] (u, .returned true) := by
      intro u hu hpublishes
      have hagain : Acts d dirPath (u.pollAndUpload anyClient spotId dirPath) _ _ :=
        acts_pollAndUpload (acts_furtherSegments hle hu) (acts_uploadPlaylist_some hplaylist)
      rw [hpublishes] at hagain
      exact hagain
    cases hcomplete : d.complete dirPath with
    | false =>
      rw [hcomplete] at hpoll
      have hagain := hdone (d.afterSegments dirPath) rfl
        ((publishes_afterSegments hle hplaylist).trans hcomplete)
      exact (polls_succ n hpoll).trans (congrArg _ (polls_fixed hagain n))
    | true =>
      rw [hcomplete] at hpoll
      -- the time of the playlist that went out is remembered
      have hsame : publishes { d.afterSegments dirPath with lastPlaylistWrite_ := some e.mtime } e =
          false := by
        unfold publishes
        rw [decide_eq_false (not_not.mpr rfl), Bool.false_and]
      have hagain := hdone { d.afterSegments dirPath with lastPlaylistWrite_ := some e.mtime } rfl
        hsame
      exact (polls_succ n hpoll).trans (congrArg _ (polls_fixed hagain n))

/-- Two segments, one that is empty, and a playlist of the two. -/
def twoSegments : Directory where
  entries :=
    [⟨"b.ts".toList, some "B".toList, 1⟩, ⟨"a.ts".toList, some "A".toList, 2⟩,
      ⟨"c.ts".toList, some [], 3⟩,
      ⟨"index.m3u8".toList, some "#EXTM3U\na.ts\r\nb.ts".toList, 4⟩]
  nodup := by decide

theorem polls_settled_two_segments :
    twoSegments.polls "s".toList "/hls".toList 3 {} =
      [[segmentUpload "s".toList "/hls".toList "a.ts".toList,
        segmentUpload "s".toList "/hls".toList "b.ts".toList,
        playlistUpload "s".toList "/hls".toList], [], []] := by
  have hpolls := polls_settled twoSegments "s".toList "/hls".toList (by decide) {} 2
  have huploads : twoSegments.uploads "s".toList "/hls".toList =
      [segmentUpload "s".toList "/hls".toList "a.ts".toList,
        segmentUpload "s".toList "/hls".toList "b.ts".toList,
        playlistUpload "s".toList "/hls".toList] := by decide
  rw [huploads] at hpolls
  exact hpolls

end Directory

end SurfCam

import SurfCam.Logic.Path
import SurfCam.Upload.Names
import SurfCam.Upload.Settled

/-!
# Draining a directory

The polls of a directory that does not change, while the client refuses whatever it likes.  What the
uploader still owes is a list of uploads; an accepted upload takes one of them off, and a poll in
which nothing is refused leaves none.
-/

namespace SurfCam

open Interaction HlsUploadPolicy

/-- The polls of `streamHlsWorker` behind `stopVideoMode`; an exception ends them. -/
def drainPolls (api : PresignClient) (spotId dirPath : Str) :
    (polls : Nat) → HlsUploader → Prog Host HlsUploader
  | 0, u => return u
  | polls + 1, u => do
    match ← u.pollAndUpload api spotId dirPath with
    | (u, .threw) => return u
    | (u, .returned _) =>
      host (.sleepFor 250)
      drainPolls api spotId dirPath polls u

instance HostCall.decidableEqReply : (c : HostCall) → DecidableEq c.Reply
  | .isDirectory _ | .curlEasyInit | .uploadLocalFileWithPresign _ _ _ =>
    inferInstanceAs (DecidableEq Bool)
  | .directoryEntries _ => inferInstanceAs (DecidableEq (Option (List Str)))
  | .isRegularFile _ | .fileExists _ => inferInstanceAs (DecidableEq (Option Bool))
  | .fileSize _ => inferInstanceAs (DecidableEq (Option Nat))
  | .lastWriteTime _ => inferInstanceAs (DecidableEq (Option Int))
  | .readText _ | .openBinary _ => inferInstanceAs (DecidableEq (Option Str))
  | .sleepFor _ => inferInstanceAs (DecidableEq Unit)
  | .presignPost _ _ _ _ => inferInstanceAs (DecidableEq (Option HttpReply))
  | .put _ _ _ _ => inferInstanceAs (DecidableEq HttpReply)
  | .nextCall => inferInstanceAs (DecidableEq UploaderCall)

/-- What the client has answered so far: the uploads that it has accepted, in order, and how many it
has refused. -/
structure Tally where
  accepted : List Upload := []
  refused : Nat := 0

namespace Directory

/-- The file system says what the directory has; the client accepts or refuses. -/
def surroundings (d : Directory) (dirPath : Str) : Local Host Tally where
  step
    | .uploadLocalFileWithPresign objectKey contentType filePath, b, v =>
      some (if b then { v with accepted := v.accepted ++ [⟨objectKey, contentType, filePath⟩] }
        else { v with refused := v.refused + 1 })
    | c, r, v => if r = d.answer dirPath c then some v else none
  ok _ _ := True

/-! ## What is owed -/

section

variable (d : Directory) (spotId dirPath : Str) (u : HlsUploader)

/-- The segments that have not been uploaded. -/
def missing : List Str := (d.segments dirPath).filter (· ∉ u.uploadedSegments_)

/-- The text of the playlist, if it is a regular file. -/
def playlistText : Option Str := (d.playlist dirPath).bind DirEntry.content

/-- The playlist has not been uploaded, it is not empty, and it demands none but segments that are
there or have been uploaded. -/
def playlistMissing : Bool :=
  ((d.playlist dirPath).any fun e => u.lastPlaylistWrite_ ≠ some e.mtime) &&
    (d.playlistText dirPath).any fun text =>
      text ≠ [] ∧ ∀ name ∈ demands text,
        name ∈ (d.segments dirPath).toFinset ∪ u.uploadedSegments_

def owed : List Upload :=
  (d.missing dirPath u).map (segmentUpload spotId dirPath) ++
    if d.playlistMissing dirPath u then [playlistUpload spotId dirPath] else []

/-- The names that matter to the polls. -/
def Concerns (name : Str) : Prop :=
  name ∈ d.segments dirPath ∨ ∃ text ∈ d.playlistText dirPath, name ∈ demands text

/-- The members are in step, and the missing segments can be recorded without forgetting a name that
matters. -/
structure Room : Prop where
  names : ∃ n : UploadedNames, u.uploadedSegments_ = n.uploaded ∧ u.uploadedSegmentOrder_ = n.order
  few : (d.missing dirPath u).length ≤ kMaxUploadedSegmentNames
  kept : ∀ name, d.Concerns dirPath name → name ∈ u.uploadedSegments_ →
    Recent.Survives kMaxUploadedSegmentNames (d.missing dirPath u).length u.uploadedSegmentOrder_ name

end

section

variable {d : Directory} {spotId dirPath name : Str} {u : HlsUploader}

/-- There is room in an uploader that has been reset, for 512 segments. -/
theorem room_reset (hle : (d.segments dirPath).length ≤ kMaxUploadedSegmentNames) :
    d.Room dirPath u.resetSession where
  names := ⟨.empty, rfl, rfl⟩
  few := (List.length_filter_le _ _).trans hle
  kept _ _ h := absurd h (Finset.notMem_empty _)

/-! ## Recording a segment -/

theorem nodup_missing : (d.missing dirPath u).Nodup := nodup_segments.filter _

/-- The members behind an upload, in step again. -/
theorem onSegmentUploaded_eq {n : UploadedNames} (huploaded : u.uploadedSegments_ = n.uploaded)
    (horder : u.uploadedSegmentOrder_ = n.order) :
    (u.onSegmentUploaded name).uploadedSegments_ = (n.record name).uploaded ∧
      (u.onSegmentUploaded name).uploadedSegmentOrder_ = (n.record name).order := by
  unfold HlsUploader.onSegmentUploaded
  rw [huploaded, horder]
  exact ⟨rfl, rfl⟩

/-- With a segment less missing, the names that survive are those from before, and the segment. -/
theorem survives_record {n : UploadedNames} {more : Nat} (hnew : name ∉ n.order)
    (hmore : more < kMaxUploadedSegmentNames) (other : Str) :
    Recent.Survives kMaxUploadedSegmentNames more (n.record name).order other ↔
      Recent.Survives kMaxUploadedSegmentNames (more + 1) n.order other ∨ other = name := by
  have hlist : (n.record name).order = Recent.room kMaxUploadedSegmentNames n.order ++ [name] := by
    show (recordSegmentUploaded name n.uploaded n.order).2 = _
    rw [n.recordSegmentUploaded_eq, if_neg hnew]
  rw [hlist]
  exact Recent.survives_accept n.bounded hmore name

/-- Of the names that matter, only the new one comes, and none goes. -/
theorem Room.mem_record (hroom : d.Room dirPath u) (hname : name ∈ d.missing dirPath u) {other : Str}
    (hother : d.Concerns dirPath other) :
    other ∈ (u.onSegmentUploaded name).uploadedSegments_ ↔
      other = name ∨ other ∈ u.uploadedSegments_ := by
  obtain ⟨n, huploaded, horder⟩ := hroom.names
  constructor
  · intro h
    exact Finset.mem_insert.mp (recordSegmentUploaded_subset name _ _ h)
  · intro h
    rw [(onSegmentUploaded_eq huploaded horder).1, (n.record name).mem_uploaded]
    by_cases heq : other = name
    · rw [heq]
      exact n.mem_record name
    · have hkept := hroom.kept other hother (h.resolve_left heq)
      have hnew : name ∉ n.order := by
        rw [← n.mem_uploaded, ← huploaded]
        exact of_decide_eq_true (List.mem_filter.mp hname).2
      -- at least this segment is missing, so that the name survives its upload
      obtain ⟨more, hmore⟩ : ∃ more, (d.missing dirPath u).length = more + 1 :=
        Nat.exists_eq_succ_of_ne_zero (List.length_pos_of_mem hname).ne'
      have hfew := hroom.few
      rw [hmore, horder] at hkept
      exact ((survives_record hnew (by omega) other).mpr (.inl hkept)).mem

/-- The recorded segment is not missing any more. -/
theorem Room.perm_missing (hroom : d.Room dirPath u) (hname : name ∈ d.missing dirPath u) :
    (d.missing dirPath u).Perm (name :: d.missing dirPath (u.onSegmentUploaded name)) := by
  have hmissing : d.missing dirPath (u.onSegmentUploaded name) =
      (d.missing dirPath u).erase name := by
    rw [nodup_missing.erase_eq_filter]
    unfold missing
    rw [List.filter_filter]
    refine List.filter_congr fun other hother => ?_
    rw [Bool.eq_iff_iff]
    simp [hroom.mem_record hname (.inl hother), not_or]
  rw [hmissing]
  exact List.perm_cons_erase hname

theorem Room.record (hroom : d.Room dirPath u) (hname : name ∈ d.missing dirPath u) :
    d.Room dirPath (u.onSegmentUploaded name) := by
  obtain ⟨n, huploaded, horder⟩ := hroom.names
  have hlength := (hroom.perm_missing hname).length_eq
  have hfew := hroom.few
  rw [List.length_cons] at hlength
  refine ⟨⟨n.record name, onSegmentUploaded_eq huploaded horder⟩, by omega, fun other hother h => ?_⟩
  have hnew : name ∉ n.order := by
    rw [← n.mem_uploaded, ← huploaded]
    exact of_decide_eq_true (List.mem_filter.mp hname).2
  rw [(onSegmentUploaded_eq huploaded horder).2, survives_record hnew (by omega), ← hlength,
    ← horder]
  rcases (hroom.mem_record hname hother).mp h with h | h
  · exact .inr h
  · exact .inl (hroom.kept other hother h)

/-- Nor does the upload of a segment change whether the playlist is owed. -/
theorem Room.playlistMissing_record (hroom : d.Room dirPath u)
    (hname : name ∈ d.missing dirPath u) :
    d.playlistMissing dirPath (u.onSegmentUploaded name) = d.playlistMissing dirPath u := by
  unfold playlistMissing
  refine congrArg₂ _ rfl ?_
  cases htext : d.playlistText dirPath with
  | none => rfl
  | some text =>
    have hsegment := (List.mem_filter.mp hname).1
    show decide (_ ∧ _) = decide (_ ∧ _)
    rw [decide_eq_decide]
    refine and_congr_right fun _ => forall₂_congr fun other hother => ?_
    rw [Finset.mem_union, Finset.mem_union, List.mem_toFinset,
      hroom.mem_record hname (.inr ⟨text, htext, hother⟩)]
    constructor
    · rintro (h | rfl | h)
      · exact .inl h
      · exact .inl hsegment
      · exact .inr h
    · exact Or.imp_right .inr

end

/-! ## The answers -/

section

variable {d : Directory} {spotId dirPath : Str} {α : Type} {p : Prog Host α} {a : α}
  {Q : α → Tally → Prop} {E : Tally → Prop} {v : Tally}

/-- A look at the directory. -/
theorem wlp_look {c : HostCall} {k : c.Reply → Prog Host α} (hc : ∀ r, upload ⟨c, r⟩ = none)
    (h : (d.surroundings dirPath).wlp (k (d.answer dirPath c)) Q E v) :
    (d.surroundings dirPath).wlp (.call c k) Q E v := by
  have hstep : ∀ r, (d.surroundings dirPath).step c r v =
      if r = d.answer dirPath c then some v else none := by
    cases c with
    | uploadLocalFileWithPresign objectKey contentType filePath => cases hc true
    | _ => exact fun _ => rfl
  refine ⟨trivial, fun r v' hs => ?_⟩
  rw [hstep] at hs
  split at hs
  · rename_i hr
    rw [hr, ← Option.some.inj hs]
    exact h
  · cases hs

/-- A call of the client. -/
theorem wlp_client {objectKey contentType filePath : Str} {k : Bool → Prog Host α}
    (haccepted : (d.surroundings dirPath).wlp (k true) Q E
      { v with accepted := v.accepted ++ [⟨objectKey, contentType, filePath⟩] })
    (hrefused : (d.surroundings dirPath).wlp (k false) Q E { v with refused := v.refused + 1 }) :
    (d.surroundings dirPath).wlp
      (.call (.uploadLocalFileWithPresign objectKey contentType filePath) k) Q E v := by
  refine ⟨trivial, fun b v' hs => ?_⟩
  rw [← Option.some.inj hs]
  cases b with
  | true => exact haccepted
  | false => exact hrefused

/-- What does not call the client does the same whatever the client answers. -/
theorem wlp_of_acts (hp : Acts d dirPath p [] a) (h : Q a v) :
    (d.surroundings dirPath).wlp p Q E v := by
  induction p with
  | ret b =>
    rw [← Option.some.inj hp.2] at h
    exact h
  | throw => cases hp.2
  | call c k ih =>
    obtain ⟨hevents, hvalue⟩ := hp
    obtain ⟨hfirst, hrest⟩ := List.forall_mem_cons.mp (List.filterMap_eq_nil_iff.mp hevents)
    have hquiet : ∀ r, upload ⟨c, r⟩ = none := by
      intro r
      cases c with
      | uploadLocalFileWithPresign objectKey contentType filePath => cases hfirst
      | _ => rfl
    exact wlp_look hquiet (ih _ ⟨List.filterMap_eq_nil_iff.mpr hrest, hvalue⟩)

end

/-! ## Progress -/

/-- From the members `u` to `u'` uploads are accepted that were owed, and the others still are. -/
structure Progress (d : Directory) (spotId dirPath : Str) (u u' : HlsUploader) (v v' : Tally) :
    Prop where
  room : d.Room dirPath u'
  missing : d.missing dirPath u' ⊆ d.missing dirPath u
  refused : v.refused ≤ v'.refused
  accepted : ∃ new, v'.accepted = v.accepted ++ new ∧
    (new ++ d.owed spotId dirPath u').Perm (d.owed spotId dirPath u)

section

variable {d : Directory} {spotId dirPath name : Str} {u u' u'' : HlsUploader} {v v' v'' : Tally}
  {e : DirEntry}

theorem Progress.none (hroom : d.Room dirPath u) (hrefused : v.refused ≤ v'.refused)
    (haccepted : v'.accepted = v.accepted) : d.Progress spotId dirPath u u v v' where
  room := hroom
  missing := List.Subset.refl _
  refused := hrefused
  accepted := ⟨[], by rw [haccepted, List.append_nil], .refl _⟩

theorem Progress.trans (h : d.Progress spotId dirPath u u' v v')
    (h' : d.Progress spotId dirPath u' u'' v' v'') : d.Progress spotId dirPath u u'' v v'' where
  room := h'.room
  missing := List.Subset.trans h'.missing h.missing
  refused := h.refused.trans h'.refused
  accepted := by
    obtain ⟨new, haccepted, hperm⟩ := h.accepted
    obtain ⟨new', haccepted', hperm'⟩ := h'.accepted
    refine ⟨new ++ new', ?_, ?_⟩
    · rw [haccepted', haccepted, List.append_assoc]
    · rw [List.append_assoc]
      exact (hperm'.append_left new).trans hperm

/-- Nothing is owed any more where nothing was. -/
theorem Progress.settled (h : d.Progress spotId dirPath u u' v v')
    (howed : d.owed spotId dirPath u = []) : d.owed spotId dirPath u' = [] := by
  obtain ⟨new, -, hperm⟩ := h.accepted
  rw [howed] at hperm
  exact (List.append_eq_nil_iff.mp hperm.eq_nil).2

/-- A missing segment is accepted. -/
theorem Progress.segment (hroom : d.Room dirPath u) (hname : name ∈ d.missing dirPath u) :
    d.Progress spotId dirPath u (u.onSegmentUploaded name) v
      { v with accepted := v.accepted ++ [segmentUpload spotId dirPath name] } where
  room := hroom.record hname
  missing other h := (hroom.perm_missing hname).mem_iff.mpr (List.mem_cons_of_mem _ h)
  refused := le_refl _
  accepted := by
    refine ⟨_, rfl, ?_⟩
    have hperm := (hroom.perm_missing hname).map (segmentUpload spotId dirPath)
    unfold owed
    rw [hroom.playlistMissing_record hname, List.singleton_append, ← List.cons_append]
    exact hperm.symm.append_right _

/-- The name of a `.ts` file is missing if the file is not empty and the name is not cached. -/
theorem mem_missing (hname : name ∈ d.scanned) :
    name ∈ d.missing dirPath u ↔ d.due dirPath name = true ∧ name ∉ u.uploadedSegments_ := by
  unfold missing
  rw [segments_eq, List.mem_filter, List.mem_filter, List.mem_insertionSort, decide_eq_true_eq]
  simp only [hname, true_and]

/-- One turn of the segment loop. -/
theorem wlp_uploadSegment (hroom : d.Room dirPath u) (hname : name ∈ d.scanned) :
    (d.surroundings dirPath).wlp (HlsUploader.uploadSegment anyClient spotId dirPath u name)
      (fun u' v' => d.Progress spotId dirPath u u' v v' ∧
        (v'.refused = v.refused → name ∉ d.missing dirPath u')) (fun _ => False) v := by
  by_cases hmissing : name ∈ d.missing dirPath u
  · obtain ⟨hdue, hnew⟩ := (mem_missing hname).mp hmissing
    have hstable : Acts d dirPath (HlsUploader.fileSizeStable (pathAppend dirPath name)) []
        (d.due dirPath name) := acts_fileSizeStable _
    rw [hdue] at hstable
    unfold HlsUploader.uploadSegment
    rw [if_neg hnew]
    refine Local.wlp_bind_of (wlp_of_acts (Q := fun b w => b = true ∧ w = v) hstable ⟨rfl, rfl⟩) ?_
    rintro b w ⟨rfl, rfl⟩
    refine wlp_client ⟨.segment hroom hmissing, fun _ h => ?_⟩ ⟨.none hroom ?_ rfl, fun h => ?_⟩
    · have hnodup := (hroom.perm_missing hmissing).nodup_iff.mp nodup_missing
      exact (List.nodup_cons.mp hnodup).1 h
    · exact Nat.le_succ _
    · exact absurd h (Nat.succ_ne_self _)
  · have hskip : name ∈ u.uploadedSegments_ ∨ d.due dirPath name = false := by
      rw [mem_missing hname, not_and_or, not_not, Bool.not_eq_true] at hmissing
      exact hmissing.symm
    exact wlp_of_acts (acts_uploadSegment_skip hskip)
      ⟨.none hroom (le_refl _) rfl, fun _ => hmissing⟩

/-- The segment loop: where nothing is refused, nothing that it has seen is missing. -/
theorem wlp_uploadSegments {names : List Str} (hroom : d.Room dirPath u)
    (hnames : ∀ n ∈ names, n ∈ d.scanned) :
    (d.surroundings dirPath).wlp
      (names.foldlM (HlsUploader.uploadSegment anyClient spotId dirPath) u)
      (fun u' v' => d.Progress spotId dirPath u u' v v' ∧
        (v'.refused = v.refused → ∀ n ∈ names, n ∉ d.missing dirPath u')) (fun _ => False) v := by
  induction names generalizing u v with
  | nil => exact ⟨.none hroom (le_refl _) rfl, fun _ _ h => absurd h List.not_mem_nil⟩
  | cons name rest ih =>
    obtain ⟨hname, hrest⟩ := List.forall_mem_cons.mp hnames
    rw [List.foldlM_cons]
    refine Local.wlp_bind_of (wlp_uploadSegment hroom hname) fun u' v' hturn => ?_
    obtain ⟨hfirst, hgone⟩ := hturn
    refine Local.wlp_mono (ih hfirst.room hrest) (fun u'' v'' hloop => ?_) fun _ h => h
    obtain ⟨hprogress, hothers⟩ := hloop
    refine ⟨hfirst.trans hprogress, fun hclean => ?_⟩
    -- where the whole loop is not refused, neither half is
    have hle := hfirst.refused
    have hle' := hprogress.refused
    rw [List.forall_mem_cons]
    exact ⟨fun h => hgone (by omega) (hprogress.missing h), hothers (by omega)⟩

/-! ## The playlist -/

theorem playlistMissing_some (h : d.playlist dirPath = some e) :
    d.playlistMissing dirPath u = true ↔ u.lastPlaylistWrite_ ≠ some e.mtime ∧
      ∃ text, e.content = some text ∧ text ≠ [] ∧
        ∀ name ∈ demands text, name ∈ d.segments dirPath ∨ name ∈ u.uploadedSegments_ := by
  unfold playlistMissing playlistText
  rw [h, Bool.and_eq_true, Option.any_some, Option.bind_some, decide_eq_true_eq]
  refine and_congr_right fun _ => ?_
  cases e.content with
  | none => simp
  | some text => simp

theorem publishes_iff : publishes u e = true ↔ u.lastPlaylistWrite_ ≠ some e.mtime ∧
    ∃ text, e.content = some text ∧ text ≠ [] ∧ ∀ name ∈ demands text, name ∈ u.uploadedSegments_ := by
  unfold publishes
  rw [Bool.and_eq_true, decide_eq_true_eq]
  refine and_congr_right fun _ => ?_
  cases e.content with
  | none => simp
  | some text => simp [playlistAllTsLinesUploaded_iff]

/-- Once no segment is missing, the playlist goes out if it is owed. -/
theorem publishes_of_missing (h : d.playlist dirPath = some e)
    (hsegments : d.missing dirPath u = []) (howed : d.playlistMissing dirPath u = true) :
    publishes u e = true := by
  obtain ⟨hlast, text, htext, hne, hdemands⟩ := (playlistMissing_some h).mp howed
  refine publishes_iff.mpr ⟨hlast, text, htext, hne, fun name hname => ?_⟩
  rcases hdemands name hname with hsegment | hcached
  · by_contra hnew
    have hmem : name ∈ d.missing dirPath u := List.mem_filter.mpr ⟨hsegment, decide_eq_true hnew⟩
    rw [hsegments] at hmem
    exact List.not_mem_nil hmem
  · exact hcached

/-- The playlist is accepted. -/
theorem Progress.playlist (h : d.playlist dirPath = some e) (hroom : d.Room dirPath u)
    (hpublishes : publishes u e = true) :
    d.Progress spotId dirPath u { u with lastPlaylistWrite_ := some e.mtime } v
      { v with accepted := v.accepted ++ [playlistUpload spotId dirPath] } where
  room := ⟨hroom.names, hroom.few, hroom.kept⟩
  missing := List.Subset.refl _
  refused := le_refl _
  accepted := by
    refine ⟨_, rfl, ?_⟩
    have hbefore : d.playlistMissing dirPath u = true := by
      obtain ⟨hlast, text, htext, hne, hdemands⟩ := publishes_iff.mp hpublishes
      exact (playlistMissing_some h).mpr
        ⟨hlast, text, htext, hne, fun name hname => .inr (hdemands name hname)⟩
    have hafter : d.playlistMissing dirPath { u with lastPlaylistWrite_ := some e.mtime } = false := by
      rw [← Bool.not_eq_true, playlistMissing_some h]
      exact fun hmissing => hmissing.1 rfl
    unfold owed
    rw [hbefore, hafter, if_pos rfl, if_neg Bool.false_ne_true, List.append_nil]
    exact List.perm_append_comm

/-- Up to its call of the client the upload of the playlist looks at the directory only. -/
theorem wlp_publish {Q : HlsUploader × HlsUploader.PollOutcome → Tally → Prop} {E : Tally → Prop}
    (h : d.playlist dirPath = some e) (hpublishes : publishes u e = true)
    (haccepted : Q ({ u with lastPlaylistWrite_ := some e.mtime }, .returned true)
      { v with accepted := v.accepted ++ [playlistUpload spotId dirPath] })
    (hrefused : Q (u, .returned true) { v with refused := v.refused + 1 }) :
    (d.surroundings dirPath).wlp (u.uploadPlaylist anyClient spotId dirPath) Q E v := by
  obtain ⟨hlast, text, htext, hne, hdemands⟩ := publishes_iff.mp hpublishes
  have hexists : d.answer dirPath (.fileExists (pathAppend dirPath Config.HLS_PLAYLIST_NAME)) =
      some true := congrArg (fun e => some (Option.isSome e)) h
  have hmtime : d.answer dirPath (.lastWriteTime (pathAppend dirPath Config.HLS_PLAYLIST_NAME)) =
      some e.mtime := congrArg (Option.map DirEntry.mtime) h
  have hcontent : d.content dirPath (pathAppend dirPath Config.HLS_PLAYLIST_NAME) = some text :=
    (congrArg (fun e => Option.bind e DirEntry.content) h).trans htext
  have hstable : Acts d dirPath
      (HlsUploader.fileSizeStable (pathAppend dirPath Config.HLS_PLAYLIST_NAME)) [] true := by
    have hacts : Acts d dirPath
        (HlsUploader.fileSizeStable (pathAppend dirPath Config.HLS_PLAYLIST_NAME)) [] _ :=
      acts_fileSizeStable _
    rw [hcontent, Option.any_some, decide_eq_true hne] at hacts
    exact hacts
  have hcheck : Acts d dirPath
      (u.allPlaylistSegmentsUploaded (pathAppend dirPath Config.HLS_PLAYLIST_NAME)) [] true := by
    have hacts := acts_allPlaylistSegmentsUploaded (u := u) hcontent
    rwa [(playlistAllTsLinesUploaded_iff text _).mpr hdemands] at hacts
  refine wlp_look (fun _ => rfl) ?_
  rw [hexists]
  refine wlp_look (fun _ => rfl) ?_
  rw [hmtime]
  show (d.surroundings dirPath).wlp (if u.lastPlaylistWrite_ = some e.mtime then _ else _) _ _ _
  rw [if_neg hlast]
  refine Local.wlp_bind_of (wlp_of_acts (Q := fun b w => b = true ∧ w = v) hstable ⟨rfl, rfl⟩) ?_
  rintro b w ⟨rfl, rfl⟩
  refine Local.wlp_bind_of (wlp_of_acts (Q := fun b w' => b = true ∧ w' = w) hcheck ⟨rfl, rfl⟩) ?_
  rintro b w' ⟨rfl, rfl⟩
  exact wlp_client haccepted hrefused

/-- The playlist half: where nothing is refused or missing, nothing is owed behind it. -/
theorem wlp_uploadPlaylist (hroom : d.Room dirPath u) :
    (d.surroundings dirPath).wlp (u.uploadPlaylist anyClient spotId dirPath)
      (fun r v' => r.2 = .returned true ∧ d.Progress spotId dirPath u r.1 v v' ∧
        (v'.refused = v.refused → d.missing dirPath u = [] → d.owed spotId dirPath r.1 = []))
      (fun _ => False) v := by
  -- what is left when no segment is missing and the playlist is not owed
  have hnothing : ∀ w : HlsUploader, d.missing dirPath w = [] →
      d.playlistMissing dirPath w = false → d.owed spotId dirPath w = [] := by
    intro w hsegments hplaylist
    unfold owed
    rw [hsegments, hplaylist]
    rfl
  cases hentry : d.playlist dirPath with
  | none =>
    have hplaylist : d.playlistMissing dirPath u = false := by
      unfold playlistMissing
      rw [hentry]
      rfl
    exact wlp_of_acts (acts_uploadPlaylist_none hentry)
      ⟨rfl, .none hroom (le_refl _) rfl, fun _ hsegments => hnothing u hsegments hplaylist⟩
  | some e =>
    by_cases hpublishes : publishes u e = true
    · refine wlp_publish hentry hpublishes ⟨rfl, .playlist hentry hroom hpublishes, fun _ h => ?_⟩
        ⟨rfl, .none hroom (Nat.le_succ _) rfl, fun h => absurd h (Nat.succ_ne_self _)⟩
      refine hnothing _ h ?_
      rw [← Bool.not_eq_true, playlistMissing_some hentry]
      exact fun hmissing => hmissing.1 rfl
    · have hacts : Acts d dirPath (u.uploadPlaylist anyClient spotId dirPath) _ _ :=
        acts_uploadPlaylist_some hentry
      rw [if_neg hpublishes, if_neg hpublishes] at hacts
      refine wlp_of_acts hacts ⟨rfl, .none hroom (le_refl _) rfl, fun _ hsegments => ?_⟩
      refine hnothing u hsegments ?_
      rw [← Bool.not_eq_true]
      exact fun howed => hpublishes (publishes_of_missing hentry hsegments howed)

/-! ## Whole polls -/

theorem wlp_pollAndUpload (hroom : d.Room dirPath u) :
    (d.surroundings dirPath).wlp (u.pollAndUpload anyClient spotId dirPath)
      (fun r v' => r.2 = .returned true ∧ d.Progress spotId dirPath u r.1 v v' ∧
        (v'.refused = v.refused → d.owed spotId dirPath r.1 = [])) (fun _ => False) v := by
  have hdir : d.answer dirPath (.isDirectory dirPath) = true := decide_eq_true rfl
  have hscan : Acts d dirPath (HlsUploader.scanEntries dirPath [] (d.entries.map DirEntry.name)) []
      (some d.scanned) := acts_scanEntries [] d.entries fun _ he => he
  refine wlp_look (fun _ => rfl) ?_
  rw [hdir]
  refine wlp_look (fun _ => rfl) ?_
  show (d.surroundings dirPath).wlp
    (HlsUploader.scanEntries dirPath [] (d.entries.map DirEntry.name) >>= _) _ _ _
  refine Local.wlp_bind_of (wlp_of_acts (Q := fun found w => found = some d.scanned ∧ w = v) hscan
    ⟨rfl, rfl⟩) ?_
  rintro found w ⟨rfl, rfl⟩
  refine Local.wlp_bind_of (wlp_uploadSegments hroom fun n hn => (List.mem_insertionSort _).mp hn)
    fun u' v' hloop => ?_
  obtain ⟨hsegments, hgone⟩ := hloop
  refine Local.wlp_mono (wlp_uploadPlaylist hsegments.room) (fun r v'' hplaylist => ?_) fun _ h => h
  obtain ⟨hreturned, hprogress, hsettled⟩ := hplaylist
  refine ⟨hreturned, hsegments.trans hprogress, fun hclean => ?_⟩
  have hle := hsegments.refused
  have hle' := hprogress.refused
  refine hsettled (by omega) (List.eq_nil_iff_forall_not_mem.mpr fun name hname => ?_)
  -- a missing segment is one that the loop has seen
  have hscanned : name ∈ d.scanned.insertionSort (· ≤ ·) := by
    have hsegment := (List.mem_filter.mp hname).1
    rw [segments_eq] at hsegment
    exact (List.mem_filter.mp hsegment).1
  exact hgone (by omega) name hscanned hname

/-- After more polls than refusals nothing is owed. -/
theorem wlp_drainPolls (n : Nat) (hroom : d.Room dirPath u) :
    (d.surroundings dirPath).wlp (drainPolls anyClient spotId dirPath n u)
      (fun u' v' => d.Progress spotId dirPath u u' v v' ∧
        (v'.refused < v.refused + n → d.owed spotId dirPath u' = [])) (fun _ => False) v := by
  induction n generalizing u v with
  | zero => exact ⟨.none hroom (le_refl _) rfl, fun h => absurd h (lt_irrefl _)⟩
  | succ n ih =>
    refine Local.wlp_bind_of (wlp_pollAndUpload hroom) fun r v' hpoll => ?_
    obtain ⟨u', o⟩ := r
    obtain ⟨rfl, hpoll, hsettled⟩ := hpoll
    refine wlp_look (fun _ => rfl) (Local.wlp_mono (ih hpoll.room) (fun u'' v'' hrest => ?_)
      fun _ h => h)
    obtain ⟨hrest, hlater⟩ := hrest
    refine ⟨hpoll.trans hrest, fun hfew => ?_⟩
    have hle := hpoll.refused
    by_cases hclean : v'.refused = v.refused
    · exact hrest.settled (hsettled hclean)
    · exact hlater (by omega)

end

/-- Whatever the client refuses while the directory does not change: what it accepts was owed and is
accepted once, and after more polls than refusals nothing is owed any more, every segment has been
uploaded and so has the playlist, unless it demands a segment that is neither there nor uploaded. -/
theorem drain_delivers (d : Directory) (spotId dirPath : Str) {u u' : HlsUploader} {n : Nat}
    {events : List (Event Host)} {v : Tally} (hroom : d.Room dirPath u)
    (h : (d.surroundings dirPath).Leads (drainPolls anyClient spotId dirPath n u) {} events
      (.value u') v) :
    (v.accepted ++ d.owed spotId dirPath u').Perm (d.owed spotId dirPath u) ∧
      (v.refused < n → d.owed spotId dirPath u' = []) := by
  obtain ⟨hprogress, hsettled⟩ := h.meets (wlp_drainPolls (v := {}) n hroom)
  obtain ⟨new, haccepted, hperm⟩ := hprogress.accepted
  rw [List.nil_append] at haccepted
  rw [haccepted]
  exact ⟨hperm, fun hfew => hsettled (by simpa using hfew)⟩

/-- A client that refuses its first call. -/
def refusesFirst (d : Directory) (dirPath : Str) (v : Tally) : (c : HostCall) → Option c.Reply
  | .uploadLocalFileWithPresign _ _ _ => some (v.refused ≠ 0 ∨ v.accepted ≠ [])
  | c => some (d.answer dirPath c)

theorem drain_delivers_second_poll :
    ∃ (events : List (Event Host)) (u' : HlsUploader) (v : Tally),
      (twoSegments.surroundings "/hls".toList).Leads
        (drainPolls anyClient "s".toList "/hls".toList 2 {}) {} events (.value u') v ∧
      v.refused = 1 ∧ twoSegments.owed "s".toList "/hls".toList u' = [] ∧
      v.accepted.Perm (twoSegments.owed "s".toList "/hls".toList {}) := by
  obtain ⟨events, e, v, hpath, htest⟩ := follow_reaches (twoSegments.surroundings "/hls".toList)
    (refusesFirst twoSegments "/hls".toList) (drainPolls anyClient "s".toList "/hls".toList 2 {}) {}
    (fun x => x.2.1.result.isSome && x.2.2.refused = 1) (by decide +kernel)
  obtain ⟨hresult, hrefused⟩ := Bool.and_eq_true_iff.mp htest
  obtain ⟨u', hu'⟩ := Option.isSome_iff_exists.mp hresult
  obtain rfl := Front.eq_of_result hu'
  have hrefused : v.refused = 1 := of_decide_eq_true hrefused
  have hroom : twoSegments.Room "/hls".toList {} := room_reset (u := {}) (by decide)
  obtain ⟨hperm, hsettled⟩ := drain_delivers twoSegments "s".toList "/hls".toList hroom hpath
  have howed := hsettled (by omega)
  rw [howed, List.append_nil] at hperm
  exact ⟨events, u', v, hpath, hrefused, howed, hperm⟩

end Directory

end SurfCam

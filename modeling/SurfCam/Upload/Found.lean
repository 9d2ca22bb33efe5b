import SurfCam.Logic.Trace
import SurfCam.Upload.PollSteps

/-!
# What a poll passes on

Every file that a poll passes to its client, the poll has found before: the listing of the directory
has named it, or the question whether it is there was answered with yes.
-/

namespace SurfCam

open Interaction HlsUploader

namespace Found

/-- The event shows that there is a file `name` in `dirPath`. -/
def Shows (dirPath name : Str) : Event Host → Prop
  | ⟨.directoryEntries path, some entries⟩ => path = dirPath ∧ name ∈ entries
  | ⟨.fileExists path, some true⟩ => path = pathAppend dirPath name
  | _ => False

/-- Whatever was passed on has been found, and so have `names`. -/
structure Founded (dirPath : Str) (names : List Str) (seen : List (Event Host)) : Prop where
  passed : ∀ objectKey contentType path r,
    ⟨.uploadLocalFileWithPresign objectKey contentType path, r⟩ ∈ seen →
      ∃ name, path = pathAppend dirPath name ∧ ∃ e ∈ seen, Shows dirPath name e
  found : ∀ name ∈ names, ∃ e ∈ seen, Shows dirPath name e

section

variable {dirPath spotId : Str} {names : List Str} {seen : List (Event Host)} {α : Type}
  {u : HlsUploader} {X : List (Event Host) → Prop}

/-- A file that is passed on must have been found. -/
theorem founded_noted {c : HostCall} {r : c.Reply} (h : Founded dirPath names seen)
    (hc : ∀ objectKey contentType path, c = .uploadLocalFileWithPresign objectKey contentType path →
      ∃ name ∈ names, path = pathAppend dirPath name) :
    Founded dirPath names (noted c r seen) := by
  have hmore : ∀ name, (∃ e ∈ seen, Shows dirPath name e) →
      ∃ e ∈ noted c r seen, Shows dirPath name e := by
    rintro name ⟨e, he, hshows⟩
    exact ⟨e, List.mem_cons_of_mem _ he, hshows⟩
  refine ⟨fun objectKey contentType path b hb => ?_, fun name hn => hmore name (h.found name hn)⟩
  cases List.mem_cons.mp hb with
  | inl hnew =>
    obtain ⟨name, hn, hpath⟩ := hc objectKey contentType path (congrArg Sigma.fst hnew).symm
    exact ⟨name, hpath, hmore name (h.found name hn)⟩
  | inr hold =>
    obtain ⟨name, hpath, hshown⟩ := h.passed objectKey contentType path b hold
    exact ⟨name, hpath, hmore name hshown⟩

theorem founded_upload {objectKey contentType name : Str} {accepted : Bool} (hname : name ∈ names)
    (h : Founded dirPath names seen) :
    Founded dirPath names
      (noted (.uploadLocalFileWithPresign objectKey contentType (pathAppend dirPath name)) accepted
        seen) := by
  refine founded_noted h fun _ _ path he => ⟨name, hname, ?_⟩
  injection he with _ _ hpath
  exact hpath.symm

theorem founded_look {c : HostCall} {r : c.Reply} (hc : c.IsLook) (h : Founded dirPath names seen) :
    Founded dirPath names (noted c r seen) := by
  refine founded_noted h ?_
  rintro objectKey contentType path rfl
  cases hc

theorem wlp_samples {R : α → Prop} {p : Prog Host α} (hp : Samples R p)
    (h : Founded dirPath names seen) :
    (Local.observer noted).wlp p (fun a seen => R a ∧ Founded dirPath names seen)
      (Founded dirPath names) seen :=
  Local.wlp_of_returns hp.returns <| Local.wlp_observer_of_built
    (fun _ hc _ _ h => founded_look (HostCall.IsSample.look hc) h) (fun _ _ h => h.elim) hp.built h

/-- One turn of the segment loop. -/
theorem wlp_uploadSegment {name : Str} (hname : name ∈ names) (h : Founded dirPath names seen) :
    (Local.observer noted).wlp (uploadSegment anyClient spotId dirPath u name)
      (fun _ => Founded dirPath names) (Founded dirPath names) seen := by
  rw [uploadSegment]
  split
  · exact h
  refine Local.wlp_bind_of (wlp_samples (samples_fileSizeStable _) h) fun stable seen h => ?_
  obtain ⟨-, h⟩ := h
  cases stable with
  | false => exact h
  | true =>
  refine Local.wlp_observer_call.mpr fun accepted => ?_
  cases accepted <;> exact founded_upload hname h

theorem wlp_uploadSegments {l : List Str} (hl : l ⊆ names) (h : Founded dirPath names seen) :
    (Local.observer noted).wlp (l.foldlM (uploadSegment anyClient spotId dirPath) u)
      (fun _ => Founded dirPath names) (Founded dirPath names) seen := by
  induction l generalizing u seen with
  | nil => exact h
  | cons name rest ih =>
    obtain ⟨hname, hrest⟩ := List.cons_subset.mp hl
    exact Local.wlp_bind_of (wlp_uploadSegment hname h) fun u seen h => ih hrest h

theorem founded_nil (h : Founded dirPath names seen) : Founded dirPath [] seen :=
  ⟨h.passed, fun _ hn => absurd hn List.not_mem_nil⟩

theorem founded_cons {name : Str} (h : Founded dirPath names seen)
    (hshown : ∃ e ∈ seen, Shows dirPath name e) : Founded dirPath (name :: names) seen :=
  ⟨h.passed, List.forall_mem_cons.mpr ⟨hshown, h.found⟩⟩

/-- A look in front of the rest. -/
theorem wlp_look {c : HostCall} {f : c.Reply → Prog Host α} {Q : α → List (Event Host) → Prop}
    (hc : c.IsLook) (h : Founded dirPath names seen)
    (hf : ∀ r seen, Founded dirPath names seen → (Local.observer noted).wlp (f r) Q X seen) :
    (Local.observer noted).wlp (host c >>= f) Q X seen :=
  Local.wlp_observer_call.mpr fun r => hf r _ (founded_look hc h)

theorem wlp_allPlaylistSegmentsUploaded {playlistPath : Str} (h : Founded dirPath names seen) :
    (Local.observer noted).wlp (u.allPlaylistSegmentsUploaded playlistPath)
      (fun _ => Founded dirPath names) (Founded dirPath names) seen := by
  refine wlp_look rfl h fun text seen h => ?_
  cases text <;> exact h

/-- The playlist is there when it is passed on. -/
theorem wlp_uploadPlaylist (h : Founded dirPath names seen) :
    (Local.observer noted).wlp (uploadPlaylist anyClient spotId dirPath u)
      (fun _ => Founded dirPath []) (Founded dirPath []) seen := by
  refine Local.wlp_observer_call.mpr fun playlistExists => ?_
  have h : Founded dirPath [] (noted (.fileExists (pathAppend dirPath Config.HLS_PLAYLIST_NAME))
      playlistExists seen) := founded_look rfl (founded_nil h)
  cases playlistExists with
  | none => exact h
  | some there =>
  cases there with
  | false => exact h
  | true =>
  -- the answer shows the playlist
  have h := founded_cons h ⟨_, List.mem_cons_self .., (rfl : pathAppend dirPath _ = _)⟩
  refine wlp_look rfl h fun mtime seen h => ?_
  cases mtime with
  | none => exact founded_nil h
  | some mtime =>
  dsimp only
  split
  · exact founded_nil h
  refine Local.wlp_bind_of (Local.wlp_mono (wlp_samples (samples_fileSizeStable _) h)
    (fun _ _ h => h) fun _ => founded_nil) fun stable seen h => ?_
  obtain ⟨-, h⟩ := h
  cases stable with
  | false => exact founded_nil h
  | true =>
  refine Local.wlp_bind_of (Local.wlp_mono (wlp_allPlaylistSegmentsUploaded h)
    (fun _ _ h => h) fun _ => founded_nil) fun allUploaded seen h => ?_
  cases allUploaded with
  | false => exact founded_nil h
  | true =>
  refine Local.wlp_observer_call.mpr fun accepted => ?_
  cases accepted <;> exact founded_nil (founded_upload (List.mem_cons_self ..) h)

theorem wlp_pollAndUpload :
    (Local.observer noted).wlp (u.pollAndUpload anyClient spotId dirPath)
      (fun _ => Founded dirPath []) (Founded dirPath []) [] := by
  have h : Founded dirPath [] [] :=
    ⟨fun _ _ _ _ hp => absurd hp List.not_mem_nil, fun _ hn => absurd hn List.not_mem_nil⟩
  refine wlp_look rfl h fun isDirectory seen h => ?_
  cases isDirectory with
  | false => exact h
  | true =>
  refine Local.wlp_observer_call.mpr fun listing => ?_
  have h : Founded dirPath [] (noted (.directoryEntries dirPath) listing seen) :=
    founded_look rfl h
  cases listing with
  | none => exact h
  | some entries =>
  -- the listing shows every name in it
  have h : Founded dirPath entries (noted (.directoryEntries dirPath) (some entries) seen) :=
    ⟨h.passed, fun name hn => ⟨_, List.mem_cons_self .., rfl, hn⟩⟩
  have hscan := samples_scanEntries (P := (· ∈ entries)) dirPath [] entries
    (fun _ hn => absurd hn List.not_mem_nil) fun _ hn _ => hn
  refine Local.wlp_bind_of (p := scanEntries dirPath [] entries)
    (Local.wlp_mono (wlp_samples hscan h) (fun _ _ h => h) fun _ => founded_nil) fun found seen h => ?_
  obtain ⟨hfound, h⟩ := h
  cases found with
  | none => exact founded_nil h
  | some tsFiles =>
  have hsorted : tsFiles.insertionSort (· ≤ ·) ⊆ entries :=
    fun name hn => hfound tsFiles rfl name ((List.mem_insertionSort _).mp hn)
  refine Local.wlp_bind_of (Local.wlp_mono (wlp_uploadSegments hsorted h) (fun _ _ h => h)
    fun _ => founded_nil) fun u seen h => ?_
  exact wlp_uploadPlaylist h

end

end Found

/-- However a poll goes: what it passes to its client lies in the directory, and the poll has found
it there. -/
theorem HlsUploader.uploads_found {u : HlsUploader} {spotId dirPath : Str}
    {events : List (Event Host)} {o : Option (HlsUploader × PollOutcome)}
    (h : Exec (u.pollAndUpload anyClient spotId dirPath) events o)
    {objectKey contentType path : Str} {accepted : Bool}
    (hpassed : ⟨.uploadLocalFileWithPresign objectKey contentType path, accepted⟩ ∈ events) :
    ∃ name, path = pathAppend dirPath name ∧ ∃ e ∈ events, Found.Shows dirPath name e := by
  have hfounded : Found.Founded dirPath [] (observed noted [] events) :=
    h.ended Found.wlp_pollAndUpload
  rw [observed_noted, List.append_nil] at hfounded
  obtain ⟨name, hpath, e, he, hshows⟩ :=
    hfounded.passed objectKey contentType path accepted (List.mem_reverse.mpr hpassed)
  exact ⟨name, hpath, e, List.mem_reverse.mp he, hshows⟩

end SurfCam

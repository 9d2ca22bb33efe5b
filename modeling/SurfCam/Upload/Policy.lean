import Mathlib.Data.Finset.Basic
import Mathlib.Data.Finset.Lattice.Lemmas
import SurfCam.Config

/-!
# Upload policy

The free functions of `HlsUploadPolicy.cpp`: which playlist lines name a segment, when a playlist
may go out, and the bounded set of names that have been uploaded.
-/

namespace SurfCam

namespace HlsUploadPolicy

/-- `inline constexpr std::size_t kMaxUploadedSegmentNames`. -/
def kMaxUploadedSegmentNames : Nat := 512

def trimTrailingCarriageReturn (line : Str) : Str :=
  if line.getLast? = some '\r' then line.dropLast else line

/-- The lines that `while (std::getline(in, line))` reads: every LF ends a line, and a text that
does not end in one has an unterminated last line. -/
def getLines : Str → List Str
  | [] => []
  | c :: rest =>
    if c = '\n' then [] :: getLines rest
    else
      match getLines rest with
      | [] => [[c]]
      | line :: lines => (c :: line) :: lines

/-- The loop of `playlistAllTsLinesUploaded`, from the lines still to read. -/
def allTsLinesUploaded (uploaded : Finset Str) : List Str → Bool
  | [] => true
  | line :: rest =>
    let line := trimTrailingCarriageReturn line
    if line = [] ∨ line.head? = some '#' then allTsLinesUploaded uploaded rest
    else if line.length < 4 ∨ line.drop (line.length - 3) ≠ ".ts".toList then
      allTsLinesUploaded uploaded rest
    else if line ∉ uploaded then false
    else allTsLinesUploaded uploaded rest

def playlistAllTsLinesUploaded (text : Str) (uploaded : Finset Str) : Bool :=
  allTsLinesUploaded uploaded (getLines text)

/-- `while (order.size() >= kMaxUploadedSegmentNames)` with its two updates. -/
def evictOldest (uploaded : Finset Str) : List Str → Finset Str × List Str
  | [] => (uploaded, [])
  | oldest :: rest =>
    if kMaxUploadedSegmentNames ≤ (oldest :: rest).length then
      evictOldest (uploaded.erase oldest) rest
    else (uploaded, oldest :: rest)

def recordSegmentUploaded (segmentFilename : Str) (uploaded : Finset Str) (order : List Str) :
    Finset Str × List Str :=
  if segmentFilename ∈ uploaded then (uploaded, order)
  else
    let (uploaded, order) := evictOldest uploaded order
    (insert segmentFilename uploaded, order ++ [segmentFilename])

def s3KeyForFile (spotId filename : Str) : Str :=
  "spots/".toList ++ spotId ++ "/live/".toList ++ filename

/-! ## What a playlist demands -/

/-- A line (without its CR) that names a segment. -/
def IsSegmentName (line : Str) : Prop :=
  4 ≤ line.length ∧ line.head? ≠ some '#' ∧ ".ts".toList <:+ line

instance (line : Str) : Decidable (IsSegmentName line) := inferInstanceAs (Decidable (_ ∧ _ ∧ _))

/-- The segment names that a playlist text lists, in order. -/
def demands (text : Str) : List Str :=
  ((getLines text).map trimTrailingCarriageReturn).filter IsSegmentName

theorem mem_demands {text name : Str} :
    name ∈ demands text ↔
      ∃ line ∈ getLines text, trimTrailingCarriageReturn line = name ∧ IsSegmentName name := by
  simp only [demands, List.mem_filter, List.mem_map, decide_eq_true_eq]
  constructor
  · rintro ⟨⟨line, hl, rfl⟩, hn⟩
    exact ⟨line, hl, rfl, hn⟩
  · rintro ⟨line, hl, rfl, hn⟩
    exact ⟨⟨line, hl, rfl⟩, hn⟩

theorem drop_eq_suffix (suf line : Str) (h : suf.length ≤ line.length) :
    line.drop (line.length - suf.length) = suf ↔ suf <:+ line := by
  constructor
  · intro hd
    exact hd ▸ List.drop_suffix _ line
  · rintro ⟨pre, rfl⟩
    rw [List.length_append, Nat.add_sub_cancel]
    exact List.drop_left

/-- The two tests of the loop skip exactly the lines that name no segment. -/
theorem skipped_iff (line : Str) :
    ((line = [] ∨ line.head? = some '#') ∨
      (line.length < 4 ∨ line.drop (line.length - 3) ≠ ".ts".toList)) ↔ ¬ IsSegmentName line := by
  by_cases hlen : line.length < 4
  · simp [IsSegmentName, hlen]
  · have hsuf : line.drop (line.length - 3) = ".ts".toList ↔ ".ts".toList <:+ line :=
      drop_eq_suffix ".ts".toList line (show 3 ≤ line.length by omega)
    have hne : line ≠ [] := by rintro rfl; simp at hlen
    have h4 : 4 ≤ line.length := by omega
    rw [IsSegmentName, ← hsuf]
    simp only [hne, hlen, h4, false_or, true_and, not_and_or, not_not, ne_eq]

theorem allTsLinesUploaded_iff (uploaded : Finset Str) (lines : List Str) :
    allTsLinesUploaded uploaded lines = true ↔
      ∀ line ∈ lines, IsSegmentName (trimTrailingCarriageReturn line) →
        trimTrailingCarriageReturn line ∈ uploaded := by
  induction lines with
  | nil => simp [allTsLinesUploaded]
  | cons line rest ih =>
    have hskip := skipped_iff (trimTrailingCarriageReturn line)
    rw [List.forall_mem_cons, ← ih, allTsLinesUploaded]
    -- the two `continue` tests of the loop, in the order of the source
    by_cases hc : trimTrailingCarriageReturn line = [] ∨
        (trimTrailingCarriageReturn line).head? = some '#'
    · simp only [if_pos hc, hskip.mp (Or.inl hc), false_implies, true_and]
    rw [if_neg hc]
    by_cases hl : (trimTrailingCarriageReturn line).length < 4 ∨
        (trimTrailingCarriageReturn line).drop
          ((trimTrailingCarriageReturn line).length - 3) ≠ ".ts".toList
    · simp only [if_pos hl, hskip.mp (Or.inr hl), false_implies, true_and]
    rw [if_neg hl]
    have hname : IsSegmentName (trimTrailingCarriageReturn line) :=
      not_not.mp fun hn => (hskip.mpr hn).elim hc hl
    by_cases hu : trimTrailingCarriageReturn line ∈ uploaded <;> simp [hname, hu]

/-- The check passes exactly when every demanded name is in the set. -/
theorem playlistAllTsLinesUploaded_iff (text : Str) (uploaded : Finset Str) :
    playlistAllTsLinesUploaded text uploaded = true ↔ ∀ name ∈ demands text, name ∈ uploaded := by
  rw [playlistAllTsLinesUploaded, allTsLinesUploaded_iff]
  constructor
  · intro h name hn
    rcases mem_demands.mp hn with ⟨line, hl, rfl, hname⟩
    exact h line hl hname
  · intro h line hl hname
    exact h _ (mem_demands.mpr ⟨line, hl, rfl, hname⟩)

/-! ## The cache of uploaded names -/

theorem evictOldest_subset (uploaded : Finset Str) (order : List Str) :
    (evictOldest uploaded order).1 ⊆ uploaded := by
  induction order generalizing uploaded with
  | nil => exact Finset.Subset.refl _
  | cons oldest rest ih =>
    rw [evictOldest]
    split
    · exact (ih _).trans (Finset.erase_subset _ _)
    · exact Finset.Subset.refl _

theorem evictOldest_of_lt {uploaded : Finset Str} {order : List Str}
    (h : order.length < kMaxUploadedSegmentNames) :
    evictOldest uploaded order = (uploaded, order) := by
  cases order with
  | nil => rfl
  | cons oldest rest => rw [evictOldest, if_neg (Nat.not_le.mpr h)]

/-- One name goes when the cache is full. -/
theorem evictOldest_full {uploaded : Finset Str} {oldest : Str} {rest : List Str}
    (h : rest.length + 1 = kMaxUploadedSegmentNames) :
    evictOldest uploaded (oldest :: rest) = (uploaded.erase oldest, rest) := by
  have hfull : kMaxUploadedSegmentNames ≤ (oldest :: rest).length := Nat.le_of_eq h.symm
  rw [evictOldest, if_pos hfull, evictOldest_of_lt (by omega)]

/-- Recording a name adds at most that name. -/
theorem recordSegmentUploaded_subset (name : Str) (uploaded : Finset Str) (order : List Str) :
    (recordSegmentUploaded name uploaded order).1 ⊆ insert name uploaded := by
  rw [recordSegmentUploaded]
  split
  · exact Finset.subset_insert _ _
  · exact Finset.insert_subset_insert _ (evictOldest_subset uploaded order)

/-- The cache after the names `accepted` were recorded, the latest first. -/
def cached : List Str → Finset Str × List Str
  | [] => (∅, [])
  | name :: accepted => recordSegmentUploaded name (cached accepted).1 (cached accepted).2

/-- Names that are recorded once each stay in the cache until it has taken in as many others as it
holds. -/
theorem cached_eq {accepted : List Str} (h : accepted.Nodup) :
    cached accepted = ((accepted.take kMaxUploadedSegmentNames).toFinset,
      (accepted.take kMaxUploadedSegmentNames).reverse) := by
  induction accepted with
  | nil => rfl
  | cons name accepted ih =>
    rw [List.nodup_cons] at h
    rw [cached, ih h.2, recordSegmentUploaded]
    have hnew : name ∉ (accepted.take kMaxUploadedSegmentNames).toFinset := fun hm =>
      h.1 (List.mem_of_mem_take (List.mem_toFinset.mp hm))
    rw [if_neg hnew]
    by_cases hlt : accepted.length < kMaxUploadedSegmentNames
    · rw [List.take_of_length_le (Nat.le_of_lt hlt), List.take_of_length_le hlt,
        evictOldest_of_lt (by rwa [List.length_reverse])]
      simp only [List.toFinset_cons, List.reverse_cons]
    · have hlen : 511 < accepted.length := Nat.not_lt.mp hlt
      -- the cache is full: it holds the 511 names that stay, and the oldest, which goes
      have hsplit : accepted.take kMaxUploadedSegmentNames =
          accepted.take 511 ++ [accepted[511]] := (List.take_append_getElem hlen).symm
      have hfront : accepted[511] ∉ accepted.take 511 := by
        have hnodup := (List.take_sublist kMaxUploadedSegmentNames accepted).nodup h.2
        rw [hsplit, List.nodup_append] at hnodup
        exact fun hm => hnodup.2.2 _ hm _ (.head _) rfl
      have hrest : (accepted.take 511).reverse.length + 1 = kMaxUploadedSegmentNames := by
        rw [List.length_reverse, List.length_take, Nat.min_eq_left (Nat.le_of_lt hlen)]
        rfl
      have hnext : (name :: accepted).take kMaxUploadedSegmentNames = name :: accepted.take 511 :=
        rfl
      rw [hsplit, hnext, List.reverse_append, List.reverse_singleton, List.singleton_append,
        evictOldest_full hrest]
      have herase : (accepted.take 511 ++ [accepted[511]]).toFinset.erase accepted[511] =
          (accepted.take 511).toFinset := by
        rw [List.toFinset_append, List.toFinset_cons, List.toFinset_nil, insert_empty_eq,
          Finset.union_singleton, Finset.erase_insert fun hm => hfront (List.mem_toFinset.mp hm)]
      simp only [herase, List.toFinset_cons, List.reverse_cons]

/-- An object key determines the file name. -/
theorem s3KeyForFile_injective (spotId : Str) : Function.Injective (s3KeyForFile spotId) :=
  fun _ _ h => List.append_cancel_left h

end HlsUploadPolicy

end SurfCam

import SurfCam.Upload.Policy

/-!
# The lines of a playlist

What the verdict of `playlistAllTsLinesUploaded` depends on: the segment names that the lines
between two LFs demand, however the lines end.
-/

namespace SurfCam

namespace HlsUploadPolicy

/-! ## Lines and what is between two LFs -/

theorem getLines_eq_nil {text : Str} (h : getLines text = []) : text = [] := by
  cases text with
  | nil => rfl
  | cons c rest =>
    rw [getLines] at h
    by_cases hc : c = '\n'
    · rw [if_pos hc] at h
      cases h
    · rw [if_neg hc] at h
      split at h <;> cases h

/-- What is between two LFs is a line that `std::getline` reads; behind the last LF there may be
nothing to read. -/
theorem splitOn_newline (text : Str) :
    ∃ behind : List Str, (∀ line ∈ behind, line = []) ∧
      text.splitOn '\n' = getLines text ++ behind := by
  induction text with
  | nil => exact ⟨[[]], fun line h => List.mem_singleton.mp h, rfl⟩
  | cons c rest ih =>
    obtain ⟨behind, hempty, ih⟩ := ih
    rw [List.splitOn_cons_eq_if_modifyHead, getLines, ih]
    by_cases hc : c = '\n'
    · rw [if_pos hc, if_pos (beq_iff_eq.mpr hc)]
      exact ⟨behind, hempty, rfl⟩
    · rw [if_neg hc, if_neg fun h => hc (beq_iff_eq.mp h)]
      cases hlines : getLines rest with
      | nil =>
        -- an unterminated last line of one character
        rw [hlines, getLines_eq_nil hlines, List.splitOn_nil, List.nil_append] at ih
        exact ⟨[], fun line h => absurd h List.not_mem_nil, by rw [← ih]; rfl⟩
      | cons line lines => exact ⟨behind, hempty, rfl⟩

theorem demands_eq (text : Str) : demands text =
    ((text.splitOn '\n').map trimTrailingCarriageReturn).filter IsSegmentName := by
  obtain ⟨behind, hempty, h⟩ := splitOn_newline text
  have hnone : (behind.map trimTrailingCarriageReturn).filter IsSegmentName = [] := by
    rw [List.filter_eq_nil_iff, List.forall_mem_map]
    intro line hline
    rw [hempty line hline]
    decide
  rw [h, List.map_append, List.filter_append, hnone, List.append_nil, demands]

theorem demands_nil : demands [] = [] := rfl

/-- A text goes on behind an LF with new demands. -/
theorem demands_append (text rest : Str) :
    demands (text ++ '\n' :: rest) = demands text ++ demands rest := by
  rw [demands_eq, demands_eq, demands_eq, List.splitOn_append_cons_self, List.map_append,
    List.filter_append]

/-! ## CRLF -/

/-- The text with every LF a CRLF, and a CR behind an unterminated last line. -/
def crlf : Str → Str
  | [] => []
  | c :: rest =>
    if c = '\n' then '\r' :: '\n' :: crlf rest
    else if rest = [] then [c, '\r']
    else c :: crlf rest

theorem getLines_crlf (text : Str) : getLines (crlf text) = (getLines text).map (· ++ ['\r']) := by
  induction text with
  | nil => rfl
  | cons c rest ih =>
    rw [crlf, getLines]
    by_cases hc : c = '\n'
    · rw [if_pos hc, if_pos hc, List.map_cons, ← ih]
      rfl
    rw [if_neg hc, if_neg hc]
    by_cases hrest : rest = []
    · rw [if_pos hrest, hrest]
      show getLines [c, '\r'] = [[c, '\r']]
      rw [getLines, if_neg hc]
      rfl
    · rw [if_neg hrest, getLines, if_neg hc, ih]
      cases hlines : getLines rest with
      | nil => exact absurd (getLines_eq_nil hlines) hrest
      | cons line lines => rfl

theorem mem_of_mem_getLines {text line : Str} {c : Char} (hl : line ∈ getLines text)
    (hc : c ∈ line) : c ∈ text := by
  induction text generalizing line with
  | nil => exact absurd hl List.not_mem_nil
  | cons d rest ih =>
    rw [getLines] at hl
    by_cases hd : d = '\n'
    · rw [if_pos hd, List.mem_cons] at hl
      cases hl with
      | inl h =>
        rw [h] at hc
        exact absurd hc List.not_mem_nil
      | inr h => exact .tail _ (ih h hc)
    · rw [if_neg hd] at hl
      cases hlines : getLines rest with
      | nil =>
        rw [hlines] at hl
        rw [List.mem_singleton.mp hl] at hc
        exact List.mem_singleton.mp hc ▸ .head _
      | cons first lines =>
        rw [hlines] at hl ih
        cases hl with
        | head =>
          cases hc with
          | head => exact .head _
          | tail _ h => exact .tail _ (ih (.head _) h)
        | tail _ h => exact .tail _ (ih (.tail _ h) hc)

theorem trim_append (line : Str) : trimTrailingCarriageReturn (line ++ ['\r']) = line := by
  rw [trimTrailingCarriageReturn, if_pos List.getLast?_concat, List.dropLast_concat]

theorem trim_of_notMem {line : Str} (h : '\r' ∉ line) : trimTrailingCarriageReturn line = line := by
  rw [trimTrailingCarriageReturn, if_neg]
  intro hlast
  exact h (List.mem_of_getLast? hlast)

theorem demands_crlf {text : Str} (h : '\r' ∉ text) : demands (crlf text) = demands text := by
  have htrim : ∀ line ∈ getLines text,
      trimTrailingCarriageReturn (line ++ ['\r']) = trimTrailingCarriageReturn line := by
    intro line hl
    rw [trim_append, trim_of_notMem fun hc => h (mem_of_mem_getLines hl hc)]
  rw [demands, demands, getLines_crlf, List.map_map]
  exact congrArg _ (List.map_congr_left htrim)

/-! ## The verdict -/

/-- The segment names that a text demands, as a set. -/
def demanded (text : Str) : Finset Str := (demands text).toFinset

/-- The check passes exactly when the demanded names are all in the set. -/
theorem verdict_iff_subset (text : Str) (uploaded : Finset Str) :
    playlistAllTsLinesUploaded text uploaded = true ↔ demanded text ⊆ uploaded := by
  rw [playlistAllTsLinesUploaded_iff]
  constructor
  · intro h name hn
    exact h name (List.mem_toFinset.mp hn)
  · intro h name hn
    exact h (List.mem_toFinset.mpr hn)

theorem demanded_append (text rest : Str) :
    demanded (text ++ '\n' :: rest) = demanded text ∪ demanded rest := by
  rw [demanded, demands_append, List.toFinset_append, demanded, demanded]

theorem demanded_crlf {text : Str} (h : '\r' ∉ text) : demanded (crlf text) = demanded text := by
  rw [demanded, demands_crlf h, demanded]

/-- Two texts that demand the same have the same verdict. -/
theorem verdict_congr {text text' : Str} (h : demanded text = demanded text')
    (uploaded : Finset Str) :
    playlistAllTsLinesUploaded text uploaded = playlistAllTsLinesUploaded text' uploaded := by
  rw [Bool.eq_iff_iff, verdict_iff_subset, verdict_iff_subset, h]

theorem verdict_append (text rest : Str) (uploaded : Finset Str) :
    playlistAllTsLinesUploaded (text ++ '\n' :: rest) uploaded =
      (playlistAllTsLinesUploaded text uploaded && playlistAllTsLinesUploaded rest uploaded) := by
  rw [Bool.eq_iff_iff, Bool.and_eq_true, verdict_iff_subset, verdict_iff_subset, verdict_iff_subset,
    demanded_append, Finset.union_subset_iff]

/-- An LF at the end demands nothing. -/
theorem verdict_terminated (text : Str) (uploaded : Finset Str) :
    playlistAllTsLinesUploaded (text ++ ['\n']) uploaded =
      playlistAllTsLinesUploaded text uploaded := by
  apply verdict_congr
  rw [demanded_append, demanded, demanded, demands_nil, List.toFinset_nil, Finset.union_empty]

/-- Line by line, between the LFs of the text. -/
theorem verdict_iff_lines (text : Str) (uploaded : Finset Str) :
    playlistAllTsLinesUploaded text uploaded = true ↔
      ∀ line ∈ text.splitOn '\n', IsSegmentName (trimTrailingCarriageReturn line) →
        trimTrailingCarriageReturn line ∈ uploaded := by
  rw [playlistAllTsLinesUploaded_iff, demands_eq]
  simp only [List.mem_filter, List.mem_map, decide_eq_true_eq]
  constructor
  · intro h line hl hname
    exact h _ ⟨⟨line, hl, rfl⟩, hname⟩
  · intro h name hname
    obtain ⟨⟨line, hl, rfl⟩, hname⟩ := hname
    exact h line hl hname

/-- The verdict on a playlist depends on the demanded names only; it is a conjunction over parts
that an LF separates, the same with CRLF line ends, monotone in the set, and true exactly when every
line that names a segment names an uploaded one, whether or not the text ends with an LF. -/
theorem playlist_verdict_laws :
    (∀ text text' : Str, demanded text = demanded text' → ∀ uploaded,
      playlistAllTsLinesUploaded text uploaded = playlistAllTsLinesUploaded text' uploaded) ∧
    (∀ (text rest : Str) (uploaded : Finset Str),
      playlistAllTsLinesUploaded (text ++ '\n' :: rest) uploaded =
        (playlistAllTsLinesUploaded text uploaded && playlistAllTsLinesUploaded rest uploaded)) ∧
    (∀ text : Str, '\r' ∉ text → ∀ uploaded,
      playlistAllTsLinesUploaded (crlf text) uploaded =
        playlistAllTsLinesUploaded text uploaded) ∧
    (∀ (text : Str) (uploaded uploaded' : Finset Str), uploaded ⊆ uploaded' →
      playlistAllTsLinesUploaded text uploaded = true →
        playlistAllTsLinesUploaded text uploaded' = true) ∧
    (∀ (text : Str) (uploaded : Finset Str), playlistAllTsLinesUploaded text uploaded = true ↔
      ∀ line ∈ text.splitOn '\n', IsSegmentName (trimTrailingCarriageReturn line) →
        trimTrailingCarriageReturn line ∈ uploaded) ∧
    ∀ (text : Str) (uploaded : Finset Str),
      playlistAllTsLinesUploaded (text ++ ['\n']) uploaded =
        playlistAllTsLinesUploaded text uploaded := by
  refine ⟨fun _ _ h => verdict_congr h, verdict_append,
    fun text h uploaded => verdict_congr (demanded_crlf h) uploaded, ?_, verdict_iff_lines,
    verdict_terminated⟩
  intro text uploaded uploaded' hsub h
  rw [verdict_iff_subset] at h ⊢
  exact h.trans hsub

theorem playlist_verdict_laws_two :
    playlistAllTsLinesUploaded (crlf "#EXTM3U\na.ts\nb.ts".toList) {"a.ts".toList} = false ∧
    playlistAllTsLinesUploaded "#EXTM3U\na.ts\n".toList {"b.ts".toList, "a.ts".toList} = true := by
  obtain ⟨-, -, hcrlf, hmono, -, -⟩ := playlist_verdict_laws
  constructor
  · rw [hcrlf _ (by decide)]
    decide
  · exact hmono _ {"a.ts".toList} _ (by decide) (by decide)

end HlsUploadPolicy

end SurfCam

import SurfCam.Logic.Recent
import SurfCam.Upload.Policy

/-!
# The names of the uploaded segments

The set and the list that `recordSegmentUploaded` keeps, over any sequence of names, repeated ones
and evicted ones that come again among them.
-/

namespace SurfCam

namespace HlsUploadPolicy

/-- The set and the list, in step with each other. -/
structure UploadedNames where
  uploaded : Finset Str
  order : List Str
  mem_uploaded : ∀ name, name ∈ uploaded ↔ name ∈ order
  nodup : order.Nodup
  bounded : order.length ≤ kMaxUploadedSegmentNames

namespace UploadedNames

def empty : UploadedNames where
  uploaded := ∅
  order := []
  mem_uploaded _ := by rw [List.mem_nil_iff, iff_false]; exact Finset.notMem_empty _
  nodup := .nil
  bounded := Nat.zero_le _

variable (n : UploadedNames) (name : Str)

theorem uploaded_eq : n.uploaded = n.order.toFinset := by
  ext name
  rw [n.mem_uploaded, List.mem_toFinset]

theorem card_uploaded : n.uploaded.card = n.order.length := by
  rw [n.uploaded_eq, List.toFinset_card_of_nodup n.nodup]

/-- The loop of evictions makes room for one name. -/
theorem evictOldest_eq : evictOldest n.uploaded n.order =
    ((Recent.room kMaxUploadedSegmentNames n.order).toFinset,
      Recent.room kMaxUploadedSegmentNames n.order) := by
  rw [Recent.room]
  by_cases h : n.order.length < kMaxUploadedSegmentNames
  · rw [if_pos h, evictOldest_of_lt h, n.uploaded_eq]
  · have hfull : n.order.length = kMaxUploadedSegmentNames := by
      have hle := n.bounded
      omega
    rw [if_neg h]
    cases hold : n.order with
    | nil =>
      rw [hold] at hfull
      cases hfull
    | cons oldest rest =>
      have hnodup := n.nodup
      rw [hold, List.nodup_cons] at hnodup
      rw [hold, List.length_cons] at hfull
      rw [evictOldest_full hfull, n.uploaded_eq, hold, List.toFinset_cons, List.tail_cons,
        Finset.erase_insert fun hm => hnodup.1 (List.mem_toFinset.mp hm)]

/-- What recording does to a list that is in step with its set. -/
theorem recordSegmentUploaded_eq : recordSegmentUploaded name n.uploaded n.order =
    if name ∈ n.order then (n.uploaded, n.order)
    else ((Recent.room kMaxUploadedSegmentNames n.order ++ [name]).toFinset,
      Recent.room kMaxUploadedSegmentNames n.order ++ [name]) := by
  rw [recordSegmentUploaded, n.evictOldest_eq]
  by_cases h : name ∈ n.order
  · rw [if_pos h, if_pos ((n.mem_uploaded name).mpr h)]
  · rw [if_neg h, if_neg fun hm => h ((n.mem_uploaded name).mp hm), List.toFinset_append,
      List.toFinset_cons, List.toFinset_nil, insert_empty_eq, Finset.union_singleton]

/-- The list alone, as a memory of what it accepted. -/
theorem keeps : Recent.Keeps kMaxUploadedSegmentNames n.order n.order where
  last := by rw [List.rtake, Nat.sub_eq_zero_of_le n.bounded, List.drop_zero]
  nodup := n.nodup

/-- `recordSegmentUploaded` keeps the two in step. -/
def record : UploadedNames where
  uploaded := (recordSegmentUploaded name n.uploaded n.order).1
  order := (recordSegmentUploaded name n.uploaded n.order).2
  mem_uploaded other := by
    rw [recordSegmentUploaded_eq]
    by_cases h : name ∈ n.order
    · rw [if_pos h]
      exact n.mem_uploaded other
    · rw [if_neg h, List.mem_toFinset]
  nodup := by
    rw [recordSegmentUploaded_eq]
    by_cases h : name ∈ n.order
    · rw [if_pos h]
      exact n.nodup
    · rw [if_neg h]
      exact (n.keeps.accept (by decide) h).nodup
  bounded := by
    rw [recordSegmentUploaded_eq]
    by_cases h : name ∈ n.order
    · rw [if_pos h]
      exact n.bounded
    · rw [if_neg h]
      exact (n.keeps.accept (by decide) h).length_le

end UploadedNames

/-! ## Sequences of names -/

/-- The set and the list after the names, from empty ones. -/
def recordAll (names : List Str) : Finset Str × List Str :=
  names.foldl (fun n name => recordSegmentUploaded name n.1 n.2) (∅, [])

/-- The names that are not in the set when they are recorded, in that order. -/
def acceptedFrom (n : Finset Str × List Str) : List Str → List Str
  | [] => []
  | name :: names =>
    let rest := acceptedFrom (recordSegmentUploaded name n.1 n.2) names
    if name ∈ n.1 then rest else name :: rest

def accepted (names : List Str) : List Str := acceptedFrom (∅, []) names

theorem recordAll_concat (names : List Str) (name : Str) : recordAll (names ++ [name]) =
    recordSegmentUploaded name (recordAll names).1 (recordAll names).2 := by
  rw [recordAll, List.foldl_concat, ← recordAll]

theorem acceptedFrom_concat (n : Finset Str × List Str) (names : List Str) (name : Str) :
    acceptedFrom n (names ++ [name]) = acceptedFrom n names ++
      if name ∈ (names.foldl (fun n name => recordSegmentUploaded name n.1 n.2) n).1 then []
      else [name] := by
  induction names generalizing n with
  | nil =>
    show (if name ∈ n.1 then [] else [name]) = _
    rw [acceptedFrom, List.nil_append, List.foldl_nil]
  | cons first names ih =>
    rw [List.cons_append, acceptedFrom, acceptedFrom, List.foldl_cons, ih]
    by_cases h : first ∈ n.1
    · rw [if_pos h, if_pos h]
    · rw [if_neg h, if_neg h, List.cons_append]

theorem accepted_concat (names : List Str) (name : Str) : accepted (names ++ [name]) =
    accepted names ++ if name ∈ (recordAll names).1 then [] else [name] :=
  acceptedFrom_concat _ names name

/-- The two are in step after any names, and the list is a memory of the accepted ones. -/
theorem recordAll_keeps (names : List Str) :
    ∃ n : UploadedNames, recordAll names = (n.uploaded, n.order) ∧
      Recent.Keeps kMaxUploadedSegmentNames (accepted names) n.order := by
  induction names using List.reverseRecOn with
  | nil => exact ⟨.empty, rfl, .nil⟩
  | append_singleton names name ih =>
    obtain ⟨n, hn, hkeeps⟩ := ih
    refine ⟨n.record name, ?_, ?_⟩
    · rw [recordAll_concat, hn]
      rfl
    · show Recent.Keeps _ _ (recordSegmentUploaded name n.uploaded n.order).2
      rw [accepted_concat, hn, n.recordSegmentUploaded_eq]
      by_cases h : name ∈ n.order
      · rw [if_pos h, if_pos ((n.mem_uploaded name).mpr h), List.append_nil]
        exact hkeeps
      · rw [if_neg h, if_neg fun hm => h ((n.mem_uploaded name).mp hm)]
        exact hkeeps.accept (by decide) h

/-- A name that was just recorded is there. -/
theorem UploadedNames.mem_record (n : UploadedNames) (name : Str) : name ∈ (n.record name).order := by
  show name ∈ (recordSegmentUploaded name n.uploaded n.order).2
  rw [n.recordSegmentUploaded_eq]
  by_cases h : name ∈ n.order
  · rw [if_pos h]
    exact h
  · rw [if_neg h]
    exact List.mem_append_right _ (List.mem_singleton_self name)

/-- Whatever names are recorded: the list has no duplicates, the set is that of its elements, both
are bounded, the last name is there, and the list is the last of the accepted names. -/
theorem uploaded_names_in_step (names : List Str) :
    (recordAll names).2.Nodup ∧
    (recordAll names).1 = (recordAll names).2.toFinset ∧
    (recordAll names).2.length ≤ kMaxUploadedSegmentNames ∧
    (recordAll names).1.card ≤ kMaxUploadedSegmentNames ∧
    (∀ name ∈ names.getLast?, name ∈ (recordAll names).1 ∧ name ∈ (recordAll names).2) ∧
    (recordAll names).2 = (accepted names).drop
      ((accepted names).length - min kMaxUploadedSegmentNames (accepted names).length) := by
  obtain ⟨n, hn, hkeeps⟩ := recordAll_keeps names
  have hcard : n.uploaded.card ≤ kMaxUploadedSegmentNames := n.card_uploaded ▸ n.bounded
  have hlast : n.order = (accepted names).drop
      ((accepted names).length - min kMaxUploadedSegmentNames (accepted names).length) := by
    have hall : (accepted names).length - min kMaxUploadedSegmentNames (accepted names).length =
        (accepted names).length - kMaxUploadedSegmentNames := by omega
    rw [hkeeps.last, List.rtake, hall]
  have hmem : ∀ name ∈ names.getLast?, name ∈ n.order := by
    intro name hname
    obtain ⟨earlier, rfl⟩ := List.getLast?_eq_some_iff.mp hname
    obtain ⟨before, hbefore, -⟩ := recordAll_keeps earlier
    rw [recordAll_concat, hbefore] at hn
    have horder : (before.record name).order = n.order := congrArg Prod.snd hn
    exact horder ▸ before.mem_record name
  rw [hn]
  exact ⟨n.nodup, n.uploaded_eq, n.bounded, hcard,
    fun name hname => ⟨(n.mem_uploaded name).mpr (hmem name hname), hmem name hname⟩, hlast⟩

end HlsUploadPolicy

end SurfCam

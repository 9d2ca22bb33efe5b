import Mathlib.Data.Finset.Card
import Mathlib.Data.List.DropRight

/-!
# The last accepted elements

A memory of bounded size that accepts an element only while it does not hold it, and that forgets
the one accepted first when it is full.
-/

namespace Recent

variable {α : Type}

/-- What is kept of `accepted` when one more element is to come. -/
def room (capacity : Nat) (kept : List α) : List α :=
  if kept.length < capacity then kept else kept.tail

/-- `kept` is the last `capacity` elements of `accepted`, which are distinct. -/
structure Keeps (capacity : Nat) (accepted kept : List α) : Prop where
  last : kept = accepted.rtake capacity
  nodup : kept.Nodup

theorem length_rtake (n : Nat) (l : List α) : (l.rtake n).length = min n l.length := by
  rw [List.rtake, List.length_drop]
  omega

/-- One element less is kept where they all fit, and else the first one goes. -/
theorem room_rtake (n : Nat) (l : List α) : room (n + 1) (l.rtake (n + 1)) = l.rtake n := by
  rw [room, length_rtake]
  by_cases h : l.length < n + 1
  · have hall : l.length - (n + 1) = l.length - n := by omega
    rw [if_pos (by omega), List.rtake, List.rtake, hall]
  · have hnext : l.length - (n + 1) + 1 = l.length - n := by omega
    rw [if_neg (by omega), List.rtake, List.rtake, List.tail_drop, hnext]

namespace Keeps

variable {capacity : Nat} {accepted kept : List α}

theorem nil : Keeps capacity ([] : List α) [] := ⟨(List.rtake_nil capacity).symm, .nil⟩

theorem length (h : Keeps capacity accepted kept) : kept.length = min capacity accepted.length := by
  rw [h.last, length_rtake]

theorem length_le (h : Keeps capacity accepted kept) : kept.length ≤ capacity := by
  rw [h.length]
  omega

/-- A new element is accepted. -/
theorem accept {a : α} (hc : 0 < capacity) (h : Keeps capacity accepted kept) (ha : a ∉ kept) :
    Keeps capacity (accepted ++ [a]) (room capacity kept ++ [a]) where
  last := by
    obtain ⟨n, rfl⟩ : ∃ n, capacity = n + 1 := ⟨capacity - 1, by omega⟩
    rw [h.last, room_rtake, List.rtake_concat_succ]
  nodup := by
    have hsub : (room capacity kept).Sublist kept := by
      rw [room]
      split
      · exact List.Sublist.refl _
      · exact List.tail_sublist _
    have hnew : a ∉ room capacity kept := fun hm => ha (hsub.subset hm)
    rw [List.nodup_append]
    refine ⟨hsub.nodup h.nodup, List.nodup_singleton a, fun b hb c hc => ?_⟩
    rw [List.mem_singleton.mp hc]
    rintro rfl
    exact hnew hb

end Keeps

/-! ## What outlives further elements -/

/-- `a` is kept even after so many more elements have been accepted. -/
def Survives (capacity more : Nat) (kept : List α) (a : α) : Prop :=
  a ∈ kept.drop (kept.length + more - capacity)

section

variable {capacity more : Nat} {kept : List α} {a : α}

theorem Survives.mem (h : Survives capacity more kept a) : a ∈ kept := List.mem_of_mem_drop h

/-- Behind the elements that are kept for one more, as long as they are. -/
theorem survives_accept (hkept : kept.length ≤ capacity) (hmore : more < capacity) (b : α) :
    Survives capacity more (room capacity kept ++ [b]) a ↔
      Survives capacity (more + 1) kept a ∨ a = b := by
  unfold Survives room
  by_cases hroom : kept.length < capacity
  · have hcount : kept.length + 1 + more - capacity = kept.length + (more + 1) - capacity := by omega
    rw [if_pos hroom, List.length_append, List.length_singleton, hcount,
      List.drop_append_of_le_length (by omega), List.mem_append, List.mem_singleton]
  · have hlength : kept.tail.length + 1 + more - capacity = more := by
      rw [List.length_tail]
      omega
    have hcount : kept.length + (more + 1) - capacity = more + 1 := by omega
    have hle : more ≤ kept.tail.length := by
      rw [List.length_tail]
      omega
    rw [if_neg hroom, List.length_append, List.length_singleton, hlength, hcount,
      List.drop_append_of_le_length hle, List.mem_append, List.mem_singleton, List.drop_tail]

end

end Recent

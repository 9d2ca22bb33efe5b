import Mathlib.Data.Finset.Card
import Mathlib.Order.Interval.Finset.Nat

/-!
# Sliding windows

Indices that are taken from a window which only moves up, each at most once and in any order.  While
an index is still in the window, few others have been taken since, so that a bounded memory of the
last indices still has it.
-/

namespace SlidingWindow

/-- The indices in `taken`, the latest first, were taken from windows of width `width` that have
moved up to `low`. -/
structure Taken (width low : Nat) (taken : List Nat) : Prop where
  nodup : taken.Nodup
  /-- what was taken before an index is not above it by the width or more -/
  late : taken.Pairwise fun later earlier => earlier < later + width
  below : ∀ i ∈ taken, i < low + width

namespace Taken

variable {width low : Nat} {taken : List Nat}

theorem nil : Taken width low [] := ⟨.nil, .nil, nofun⟩

/-- The window moves up. -/
theorem slide {low' : Nat} (h : Taken width low taken) (hle : low ≤ low') :
    Taken width low' taken where
  nodup := h.nodup
  late := h.late
  below i hi := by
    have hlt := h.below i hi
    omega

/-- A new index is taken from the window. -/
theorem cons {i : Nat} (h : Taken width low taken) (hlow : low ≤ i) (hlt : i < low + width)
    (hnew : i ∉ taken) : Taken width low (i :: taken) where
  nodup := List.nodup_cons.mpr ⟨hnew, h.nodup⟩
  late := by
    refine List.pairwise_cons.mpr ⟨fun earlier he => ?_, h.late⟩
    have hbelow := h.below earlier he
    omega
  below := List.forall_mem_cons.mpr ⟨hlt, h.below⟩

/-- The indices taken since `i` was, while `i` is in the window, are near `i`. -/
theorem length_since {since before : List Nat} {i : Nat}
    (h : Taken width low (since ++ i :: before)) (hlow : low ≤ i) :
    since.length ≤ 2 * (width - 1) := by
  rcases List.pairwise_append.mp h.late with ⟨-, -, hlate⟩
  rcases List.nodup_append.mp h.nodup with ⟨hnodup, -, hne⟩
  have hmem : ∀ j ∈ since, j ∈ (Finset.Ico (i + 1 - width) (i + width)).erase i := by
    intro j hj
    have hnear := hlate j hj i (.head _)
    have hbelow := h.below j (List.mem_append_left _ hj)
    rw [Finset.mem_erase, Finset.mem_Ico]
    exact ⟨hne j hj i (.head _), by omega, by omega⟩
  have hcard : since.toFinset.card ≤ ((Finset.Ico (i + 1 - width) (i + width)).erase i).card :=
    Finset.card_le_card fun j hj => hmem j (List.mem_toFinset.mp hj)
  rw [List.toFinset_card_of_nodup hnodup] at hcard
  have hi : i ∈ Finset.Ico (i + 1 - width) (i + width) := by
    have hbelow := h.below i (List.mem_append_right _ (.head _))
    rw [Finset.mem_Ico]
    omega
  rw [Finset.card_erase_of_mem hi, Nat.card_Ico] at hcard
  omega

/-- An index of the window that was taken is among the last ones taken. -/
theorem mem_take {i size : Nat} (h : Taken width low taken) (hi : i ∈ taken) (hlow : low ≤ i)
    (hsize : 2 * (width - 1) < size) : i ∈ taken.take size := by
  obtain ⟨since, before, rfl⟩ := List.append_of_mem hi
  have hlength := h.length_since hlow
  rw [List.take_append, List.mem_append]
  right
  obtain ⟨k, hk⟩ : ∃ k, size - since.length = k + 1 := ⟨size - since.length - 1, by omega⟩
  rw [hk]
  exact .head _

end Taken

end SlidingWindow

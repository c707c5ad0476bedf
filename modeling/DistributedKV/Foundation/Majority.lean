import Mathlib.Data.Finset.Card

/-!
# Majorities

More than half of a finite set. Two majorities of sets that differ by at most one element have an
element in common (`IsMajority.meets`). Majorities are often counted in lists
(`isMajority_filter_iff`).
-/

namespace Majority

variable {α : Type*} {part other whole larger : Finset α}

/-- A part with more than half of the elements. -/
structure IsMajority (part whole : Finset α) : Prop where
  subset : part ⊆ whole
  more : whole.card < 2 * part.card

/-- One of the sets contains the other and has at most one element more. -/
def Adjacent (first second : Finset α) : Prop :=
  (first ⊆ second ∧ second.card ≤ first.card + 1) ∨
    (second ⊆ first ∧ first.card ≤ second.card + 1)

theorem Adjacent.refl (whole : Finset α) : Adjacent whole whole :=
  Or.inl ⟨Finset.Subset.refl whole, Nat.le_succ _⟩

theorem Adjacent.symm {first second : Finset α} (h : Adjacent first second) :
    Adjacent second first :=
  Or.symm h

variable [DecidableEq α]

theorem Adjacent.of_insert {first second : Finset α} (element : α) (hsubset : first ⊆ second)
    (hinsert : second ⊆ insert element first) : Adjacent first second :=
  .inl ⟨hsubset, (Finset.card_le_card hinsert).trans (Finset.card_insert_le _ _)⟩

theorem IsMajority.meets_larger (hpart : IsMajority part whole) (hother : IsMajority other larger)
    (hsubset : whole ⊆ larger) (hcard : larger.card ≤ whole.card + 1) :
    ∃ element ∈ part, element ∈ other := by
  have hunion : (part ∪ other).card ≤ larger.card :=
    Finset.card_le_card (Finset.union_subset (hpart.subset.trans hsubset) hother.subset)
  have hsum := Finset.card_union_add_card_inter part other
  have hmore := hpart.more
  have hmoreOther := hother.more
  have hinter : 0 < (part ∩ other).card := by omega
  obtain ⟨element, helement⟩ := Finset.card_pos.mp hinter
  exact ⟨element, Finset.mem_of_mem_inter_left helement, Finset.mem_of_mem_inter_right helement⟩

theorem IsMajority.meets (hpart : IsMajority part whole) (hother : IsMajority other larger)
    (hadjacent : Adjacent whole larger) : ∃ element ∈ part, element ∈ other := by
  rcases hadjacent with ⟨hsubset, hcard⟩ | ⟨hsubset, hcard⟩
  · exact hpart.meets_larger hother hsubset hcard
  · obtain ⟨element, hin, hpartIn⟩ := hother.meets_larger hpart hsubset hcard
    exact ⟨element, hpartIn, hin⟩

theorem isMajority_filter_iff {elements : List α} (hnodup : elements.Nodup) {holds : α → Bool} :
    IsMajority (elements.toFinset.filter fun element => holds element = true)
        elements.toFinset ↔
      elements.length < 2 * (elements.filter holds).length := by
  have hwhole := List.toFinset_card_of_nodup hnodup
  have hpart := List.toFinset_card_of_nodup (hnodup.filter holds)
  rw [List.toFinset_filter] at hpart
  rw [← hwhole, ← hpart]
  exact ⟨IsMajority.more, fun hmore => ⟨Finset.filter_subset _ _, hmore⟩⟩

end Majority

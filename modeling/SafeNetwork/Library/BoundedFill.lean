import Mathlib

/-!
# Filling a bounded set

Elements are put into a set one by one, and before each the set must be below its bound: also before
an element that the set has already. Whether a list of elements fits then depends on their order.
Items with keys fit in every order exactly when their distinct keys stay below the bound, or when
there are no more items than the bound.
-/

namespace BoundedFill

variable {α : Type} [DecidableEq α] {bound : Nat} {seen : Finset α} {first second : List α} {β : Type}
  {items : List β} {key : β → α}

/-- The elements can be put one by one into a set that must be below the bound before each. -/
def Fits (bound : Nat) (seen : Finset α) : List α → Prop
  | [] => True
  | one :: rest => seen.card < bound ∧ Fits bound (insert one seen) rest

theorem fits_append : Fits bound seen (first ++ second) ↔
      Fits bound seen first ∧ Fits bound (seen ∪ first.toFinset) second := by
  induction first generalizing seen with
  | nil => simp [Fits]
  | cons one rest ih =>
    have grown : insert one seen ∪ rest.toFinset = seen ∪ (one :: rest).toFinset := by
      rw [List.toFinset_cons, Finset.insert_union, Finset.union_insert]
    rw [List.cons_append, Fits, ih, grown, Fits, and_assoc]

theorem fits_of_card_lt (small : (seen ∪ first.toFinset).card < bound) : Fits bound seen first := by
  induction first generalizing seen with
  | nil => trivial
  | cons one rest ih =>
    have grown : insert one seen ∪ rest.toFinset = seen ∪ (one :: rest).toFinset := by
      rw [List.toFinset_cons, Finset.insert_union, Finset.union_insert]
    have less : seen.card ≤ (seen ∪ (one :: rest).toFinset).card :=
      Finset.card_le_card Finset.subset_union_left
    exact ⟨by omega, ih (by rwa [grown])⟩

theorem fits_of_length_le (short : seen.card + first.length ≤ bound) : Fits bound seen first := by
  induction first generalizing seen with
  | nil => trivial
  | cons one rest ih =>
    rw [List.length_cons] at short
    have less : (insert one seen).card ≤ seen.card + 1 := Finset.card_insert_le one seen
    exact ⟨by omega, ih (by omega)⟩

theorem Fits.card_le (fits : Fits bound seen first) (nonempty : first ≠ []) :
    (seen ∪ first.toFinset).card ≤ bound := by
  obtain ⟨init, last, shape⟩ := (List.eq_nil_or_concat first).resolve_left nonempty
  rw [List.concat_eq_append] at shape
  subst shape
  obtain ⟨-, below, -⟩ := fits_append.mp fits
  have grown : seen ∪ (init ++ [last]).toFinset = insert last (seen ∪ init.toFinset) := by
    ext one
    simp only [Finset.mem_union, List.mem_toFinset, List.mem_append, List.mem_singleton,
      Finset.mem_insert]
    tauto
  have less := Finset.card_insert_le last (seen ∪ init.toFinset)
  rw [grown]
  omega

theorem exists_perm_concat (twice : ¬ (items.map key).Nodup) :
    ∃ rest one, items.Perm (rest ++ [one]) ∧ key one ∈ rest.map key := by
  induction items with
  | nil => simp at twice
  | cons item items ih =>
    rw [List.map_cons, List.nodup_cons, not_and_or, not_not] at twice
    by_cases again : key item ∈ items.map key
    · exact ⟨items, item, (List.perm_append_singleton item items).symm, again⟩
    · obtain ⟨rest, one, perm, inside⟩ := ih (twice.resolve_left again)
      refine ⟨item :: rest, one, perm.cons item, ?_⟩
      rw [List.map_cons]
      exact List.mem_cons_of_mem _ inside

/-- Items fit in every order exactly when their distinct keys stay below the bound or there are no
more items than the bound. -/
theorem fits_perm_iff : (∀ listed : List β, listed.Perm items → Fits bound ∅ (listed.map key)) ↔
      (items.map key).toFinset.card < bound ∨ items.length ≤ bound := by
  constructor
  · intro fits
    by_contra large
    push Not at large
    obtain ⟨many, long⟩ := large
    by_cases distinct : (items.map key).Nodup
    · have count : (items.map key).toFinset.card = items.length := by
        rw [List.toFinset_card_of_nodup distinct, List.length_map]
      have nonempty : items.map key ≠ [] := by
        intro empty
        simp [List.map_eq_nil_iff.mp empty] at long
      have most := (fits items (List.Perm.refl _)).card_le nonempty
      rw [Finset.empty_union] at most
      omega
    · -- One of two items with the same key comes last, when all the distinct keys are in.
      obtain ⟨rest, one, perm, inside⟩ := exists_perm_concat distinct
      have fit := fits _ perm.symm
      rw [List.map_append, List.map_singleton] at fit
      obtain ⟨-, below, -⟩ := fits_append.mp fit
      have same : (items.map key).toFinset = (rest.map key).toFinset := by
        rw [List.toFinset_eq_of_perm _ _ (perm.map key), List.map_append, List.toFinset_append]
        simpa using inside
      rw [Finset.empty_union, ← same] at below
      omega
  · rintro (few | short) listed perm
    · rw [← List.toFinset_eq_of_perm _ _ (perm.map key)] at few
      exact fits_of_card_lt (by rwa [Finset.empty_union])
    · rw [← perm.length_eq] at short
      exact fits_of_length_le (by simpa using short)

end BoundedFill

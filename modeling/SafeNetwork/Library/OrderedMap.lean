import Mathlib

/-!
# Ordered maps and numbered logs

A map built from a list holds entries of the list, and all of them when no key is there twice. An
ordered map whose keys count from one is a log: its entries in order are those of the generations
`1, 2, …`. Appending under the next number appends to the list of its entries, and changing one
entry keeps the numbers.
-/

namespace OrderedMap

open Std

section

variable {α β : Type} [Ord α] [TransOrd α] [LawfulEqOrd α] {entries : List (α × β)} {map : ExtTreeMap α β} {key : α}
  {value : β}

theorem getElem?_insertMany (found : (map.insertMany entries)[key]? = some value) : (key, value) ∈ entries ∨ map[key]? = some value := by
  induction entries generalizing map with
  | nil => exact .inr (by rwa [ExtTreeMap.insertMany_nil] at found)
  | cons entry rest ih =>
    rw [ExtTreeMap.insertMany_cons] at found
    obtain later | here := ih found
    · exact .inl (List.mem_cons_of_mem _ later)
    · rw [ExtTreeMap.getElem?_insert] at here
      split at here
      · rename_i same
        obtain rfl := Std.compare_eq_iff_eq.mp same
        obtain rfl := Option.some.inj here
        exact .inl (List.mem_cons_self ..)
      · exact .inr here

theorem mem_of_getElem?_ofList (found : (ExtTreeMap.ofList entries)[key]? = some value) : (key, value) ∈ entries := by
  rw [ExtTreeMap.ofList_eq_insertMany_empty] at found
  obtain listed | there := getElem?_insertMany found
  · exact listed
  · simp at there

theorem getElem?_insertMany_of_unique (unique : ∀ other, (key, other) ∈ entries → other = value)
    (present : map[key]? = some value ∨ ∃ other, (key, other) ∈ entries) :
    (map.insertMany entries)[key]? = some value := by
  induction entries generalizing map with
  | nil => simpa [ExtTreeMap.insertMany_nil] using present
  | cons entry rest ih =>
    rw [ExtTreeMap.insertMany_cons]
    refine ih (fun other mem => unique other (List.mem_cons_of_mem _ mem)) ?_
    rw [ExtTreeMap.getElem?_insert]
    by_cases same : entry.1 = key
    · rw [if_pos (Std.compare_eq_iff_eq.mpr same)]
      have here : (key, entry.2) ∈ entry :: rest := by
        rw [← same]
        exact List.mem_cons_self ..
      exact .inl (congrArg some (unique entry.2 here))
    · rw [if_neg (mt Std.compare_eq_iff_eq.mp same)]
      obtain stored | ⟨other, mem⟩ := present
      · exact .inl stored
      · obtain rfl | later := List.mem_cons.mp mem
        · exact absurd rfl same
        · exact .inr ⟨other, later⟩

theorem getElem?_ofList_of_unique (unique : ∀ other, (key, other) ∈ entries → other = value) (present : (key, value) ∈ entries) :
    (ExtTreeMap.ofList entries)[key]? = some value := by
  rw [ExtTreeMap.ofList_eq_insertMany_empty]
  exact getElem?_insertMany_of_unique unique (.inr ⟨value, present⟩)

theorem toList_perm (distinct : (entries.map Prod.fst).Nodup)
    (holds : ∀ (key : α) (value : β), map[key]? = some value ↔ (key, value) ∈ entries) : map.toList.Perm entries := by
  have listed : map.toList.Nodup := by
    refine ExtTreeMap.distinct_keys_toList.imp fun differs same => differs ?_
    rw [same]
    exact ReflCmp.compare_self
  refine (List.perm_ext_iff_of_nodup listed (List.Nodup.of_map _ distinct)).mpr ?_
  rintro ⟨key, value⟩
  rw [ExtTreeMap.mem_toList_iff_getElem?_eq_some, holds]

theorem size_ofList_mono {elements more : List α} (among : elements ⊆ more) :
    (ExtTreeSet.ofList elements).size ≤ (ExtTreeSet.ofList more).size := by
  classical
  have distinct : (ExtTreeSet.ofList elements).toList.Nodup := by
    refine ExtTreeSet.distinct_toList.imp ?_
    rintro one other differ rfl
    exact differ ReflCmp.compare_self
  have subset : (ExtTreeSet.ofList elements).toList ⊆ (ExtTreeSet.ofList more).toList := by
    intro element listed
    simp only [ExtTreeSet.mem_toList, ExtTreeSet.mem_ofList, List.contains_iff_mem] at listed ⊢
    exact among listed
  rw [← ExtTreeSet.length_toList, ← ExtTreeSet.length_toList]
  exact (distinct.subperm subset).length_le

theorem keys_eq {γ : Type} {other : ExtTreeMap α γ}
    (same : ∀ key, key ∈ map ↔ key ∈ other) : map.keys = other.keys := by
  have nodup : ∀ {list : List α}, list.Pairwise (fun a b => compare a b = .lt) → list.Nodup := by
    intro list sorted
    refine sorted.imp ?_
    rintro a b less rfl
    rw [Std.compare_self] at less
    cases less
  have listed : ∀ key, key ∈ map.keys ↔ key ∈ other.keys := by
    intro key
    rw [ExtTreeMap.mem_keys, ExtTreeMap.mem_keys, same]
  refine List.Perm.eq_of_pairwise ?_ ExtTreeMap.ordered_keys ExtTreeMap.ordered_keys
    ((List.perm_ext_iff_of_nodup (nodup ExtTreeMap.ordered_keys)
      (nodup ExtTreeMap.ordered_keys)).mpr listed)
  intro a b _ _ less greater
  rw [OrientedCmp.gt_of_lt greater] at less
  cases less

end

variable {β : Type} {log : ExtTreeMap Nat β} {size : Nat}

/-- The keys are the numbers from one to `size`. -/
def Numbered (log : ExtTreeMap Nat β) (size : Nat) : Prop :=
  ∀ number, number ∈ log ↔ 1 ≤ number ∧ number ≤ size

theorem toList_eq {entries : List (Nat × β)} (sorted : entries.Pairwise fun a b => a.1 < b.1)
    (listed : ∀ number entry, (number, entry) ∈ entries ↔ log[number]? = some entry) : log.toList = entries := by
  have ordered : log.toList.Pairwise fun a b => a.1 < b.1 :=
    ExtTreeMap.ordered_keys_toList.imp fun less => compare_lt_iff_lt.mp less
  have same : ∀ entry, entry ∈ log.toList ↔ entry ∈ entries := by
    rintro ⟨number, entry⟩
    rw [listed, ExtTreeMap.mem_toList_iff_getElem?_eq_some]
  have nodup : ∀ {list : List (Nat × β)}, list.Pairwise (fun a b => a.1 < b.1) → list.Nodup := by
    intro list sorted
    refine sorted.imp ?_
    rintro a b less rfl
    exact lt_irrefl _ less
  refine List.Perm.eq_of_pairwise ?_ ordered sorted
    ((List.perm_ext_iff_of_nodup (nodup ordered) (nodup sorted)).mpr same)
  intro a b _ _ less greater
  exact absurd less (Nat.lt_asymm greater)

namespace Numbered

theorem empty : Numbered (∅ : ExtTreeMap Nat β) 0 := by
  intro number
  simp only [ExtTreeMap.not_mem_empty, false_iff]
  omega

variable (numbered : Numbered log size)
include numbered

theorem keys : log.keys = List.range' 1 size := by
  have ordered : log.keys.Pairwise (· < ·) :=
    ExtTreeMap.ordered_keys.imp fun less => compare_lt_iff_lt.mp less
  refine List.Pairwise.eq_of_mem_iff ordered List.pairwise_lt_range' ?_
  intro number
  rw [ExtTreeMap.mem_keys, numbered, List.mem_range'_1]
  omega

theorem insert (entry : β) : Numbered (log.insert (size + 1) entry) (size + 1) := by
  intro number
  rw [ExtTreeMap.mem_insert, Std.compare_eq_iff_eq, numbered]
  omega

theorem toList_insert (entry : β) :
    (log.insert (size + 1) entry).toList = log.toList ++ [(size + 1, entry)] := by
  have below : ∀ old ∈ log.toList, old.1 ≤ size := by
    intro old listed
    have key : old.1 ∈ log.keys := by
      rw [← ExtTreeMap.map_fst_toList_eq_keys]
      exact List.mem_map_of_mem listed
    exact ((numbered old.1).mp (ExtTreeMap.mem_keys.mp key)).2
  apply toList_eq
  · rw [List.pairwise_append]
    refine ⟨ExtTreeMap.ordered_keys_toList.imp fun less => compare_lt_iff_lt.mp less, by simp, ?_⟩
    intro old listed last is
    rw [List.mem_singleton.mp is]
    exact Nat.lt_succ_of_le (below old listed)
  · intro number value
    rw [List.mem_append, List.mem_singleton, ExtTreeMap.mem_toList_iff_getElem?_eq_some,
      ExtTreeMap.getElem?_insert]
    simp only [Std.compare_eq_iff_eq]
    by_cases last : size + 1 = number
    · subst last
      have new : log[size + 1]? = none := by
        refine ExtTreeMap.getElem?_eq_none ?_
        rw [numbered]
        omega
      simp [new, eq_comm]
    · simp [last, Ne.symm last]

theorem getElem?_toList (index : Nat) :
    log.toList[index]? = log[index + 1]?.map (index + 1, ·) := by
  have keys : log.toList.map Prod.fst = List.range' 1 size := by
    rw [ExtTreeMap.map_fst_toList_eq_keys, numbered.keys]
  by_cases inside : index < size
  · have position : log.toList[index]?.map Prod.fst = some (index + 1) := by
      rw [← List.getElem?_map, keys, List.getElem?_range' inside]
      simp [Nat.add_comm]
    obtain ⟨⟨number, value⟩, found, rfl⟩ := Option.map_eq_some_iff.mp position
    have listed := ExtTreeMap.mem_toList_iff_getElem?_eq_some.mp (List.mem_of_getElem? found)
    rw [found, listed]
    rfl
  · have missing : log[index + 1]? = none := by
      refine ExtTreeMap.getElem?_eq_none ?_
      rw [numbered]
      omega
    have length : log.toList.length = size := by
      simpa using congrArg List.length keys
    rw [missing, List.getElem?_eq_none (by omega)]
    rfl

theorem filter_toList {first : Nat} (inside : first ≤ size + 1) :
    (log.toList.filter (first ≤ ·.1)).map Prod.fst =
        List.range' (max first 1) (log.toList.filter (first ≤ ·.1)).length ∧
      max first 1 + (log.toList.filter (first ≤ ·.1)).length = size + 1 := by
  have numbers : (log.toList.filter (first ≤ ·.1)).map Prod.fst =
      List.range' (max first 1) (size + 1 - max first 1) := by
    have filtered : (log.toList.filter (first ≤ ·.1)).map Prod.fst =
        log.keys.filter (first ≤ ·) := by
      rw [← ExtTreeMap.map_fst_toList_eq_keys, List.filter_map]
      rfl
    rw [filtered, numbered.keys]
    refine List.Pairwise.eq_of_mem_iff (List.Pairwise.filter _ List.pairwise_lt_range')
      List.pairwise_lt_range' ?_
    intro number
    rw [List.mem_filter, List.mem_range'_1, List.mem_range'_1, decide_eq_true_eq]
    omega
  have length := congrArg List.length numbers
  rw [List.length_map, List.length_range'] at length
  rw [numbers, length]
  exact ⟨rfl, by omega⟩

end Numbered

theorem toList_modify (log : ExtTreeMap Nat β) (number : Nat) (change : β → β) : (log.modify number change).toList =
      log.toList.map fun entry => (entry.1, if entry.1 = number then change entry.2 else entry.2) := by
  apply toList_eq
  · rw [List.pairwise_map]
    exact ExtTreeMap.ordered_keys_toList.imp fun less => compare_lt_iff_lt.mp less
  · intro other value
    simp only [ExtTreeMap.getElem?_modify, Std.compare_eq_iff_eq, List.mem_map, Prod.exists,
      ExtTreeMap.mem_toList_iff_getElem?_eq_some, Prod.mk.injEq]
    by_cases same : number = other
    · subst same
      simp [Option.map_eq_some_iff]
    · simp [same, Ne.symm same]

end OrderedMap

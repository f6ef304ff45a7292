import SafeNetwork.NetworkKnowledge.SectionTree

/-!
# Looking sections up

`SectionTree::get_signed_by_name` takes the last prefix with the most bits in common with a name, and
`SectionTree::closest` the first one at the least distance. Of prefixes none of which covers another,
a prefix that matches the name is the only one with all its bits in common and the only one at the
least distance, so that both lookups find it.
-/

namespace SafeNetwork

open Std

/-! ## Choosing from a list -/

section Choice

variable {α : Type} {list : List α} {chosen value : α}

/-- A choice between two elements takes one that is at least as good as both. -/
def Prefers (better : α → α → Prop) (choose : α → α → α) (left right : α) : Prop :=
  (choose left right = left ∧ better left right) ∨ (choose left right = right ∧ better right left)

theorem better_foldl (better : α → α → Prop) [IsPreorder α better] {choose : α → α → α}
    (first : α) (prefers : (first :: list).Pairwise (Prefers better choose))
    (mem : value ∈ first :: list) : better (list.foldl choose first) value := by
  induction list generalizing first value with
  | nil =>
    obtain rfl := List.mem_singleton.mp mem
    exact refl_of better value
  | cons next rest ih =>
    obtain ⟨ahead, later⟩ := List.pairwise_cons.mp prefers
    have kept : (first :: rest).Pairwise (Prefers better choose) :=
      List.pairwise_cons.mpr ⟨fun other mem => ahead other (List.mem_cons_of_mem _ mem),
        (List.pairwise_cons.mp later).2⟩
    have split : value = first ∨ value = next ∨ value ∈ rest := by simpa using mem
    rw [List.foldl_cons]
    obtain ⟨same, wins⟩ | ⟨same, wins⟩ := ahead next List.mem_cons_self
    · rw [same]
      obtain rfl | rfl | mem := split
      · exact ih value kept List.mem_cons_self
      · exact trans_of better (ih first kept List.mem_cons_self) wins
      · exact ih first kept (List.mem_cons_of_mem _ mem)
    · rw [same]
      obtain rfl | rfl | mem := split
      · exact trans_of better (ih next later List.mem_cons_self) wins
      · exact ih value later List.mem_cons_self
      · exact ih next later (List.mem_cons_of_mem _ mem)

theorem le_of_maxByKey {key : α → Nat} (found : maxByKey key list = some chosen)
    (mem : value ∈ list) : key value ≤ key chosen := by
  cases list with
  | nil => cases mem
  | cons first rest =>
    obtain rfl := Option.some.inj found
    have : IsPreorder α fun left right => key right ≤ key left :=
      { refl := fun _ => Nat.le_refl _, trans := fun _ _ _ upper lower => lower.trans upper }
    refine better_foldl (fun left right => key right ≤ key left) first ?_ mem
    refine List.pairwise_of_forall fun left right => ?_
    by_cases greater : compare (key left) (key right) = .gt
    · exact Or.inl ⟨if_pos greater, (Nat.compare_eq_gt.mp greater).le⟩
    · exact Or.inr ⟨if_neg greater, Nat.le_of_not_lt fun less => greater (Nat.compare_eq_gt.mpr less)⟩

/-- What `min_by` returns is at the least distance, when the comparison is that of the distances for
any two elements of the list. -/
theorem le_of_minBy {cmp : α → α → Ordering} (distance : α → Nat)
    (measured : list.Pairwise fun left right => cmp left right = compare (distance left) (distance right))
    (found : minBy cmp list = some chosen) (mem : value ∈ list) : distance chosen ≤ distance value := by
  cases list with
  | nil => cases mem
  | cons first rest =>
    obtain rfl := Option.some.inj found
    have : IsPreorder α fun left right => distance left ≤ distance right :=
      { refl := fun _ => Nat.le_refl _, trans := fun _ _ _ lower upper => lower.trans upper }
    refine better_foldl (fun left right => distance left ≤ distance right) first
      (measured.imp fun {left right} same => ?_) mem
    by_cases greater : cmp left right = .gt
    · rw [same, Nat.compare_eq_gt] at greater
      exact Or.inr ⟨if_pos (by rw [same, Nat.compare_eq_gt]; exact greater), greater.le⟩
    · refine Or.inl ⟨if_neg greater, ?_⟩
      rw [same, Nat.compare_eq_gt] at greater
      exact Nat.le_of_not_lt greater

end Choice

/-! ## Bits in common -/

def commonBits : List Bool → List Bool → Nat
  | left :: lefts, right :: rights => if left = right then commonBits lefts rights + 1 else 0
  | _, _ => 0

theorem take_commonBits (left right : List Bool) :
    left.take (commonBits left right) = right.take (commonBits left right) := by
  induction left, right using commonBits.induct with
  | case1 left lefts rights ih => simp [commonBits, ih]
  | case2 left lefts right rights differ => simp [commonBits, differ]
  | case3 left right none => simp [commonBits]

theorem commonBits_le (left right : List Bool) : commonBits left right ≤ right.length := by
  induction left, right using commonBits.induct with
  | case1 left lefts rights ih => simpa [commonBits] using ih
  | case2 left lefts right rights differ => simp [commonBits, differ]
  | case3 left right none => simp [commonBits]

theorem commonBits_of_isPrefix {left right : List Bool} (leading : left <+: right) :
    commonBits left right = left.length := by
  obtain ⟨rest, rfl⟩ := leading
  induction left with
  | nil => simp [commonBits]
  | cons bit bits ih => simp [commonBits, ih]

theorem isPrefix_of_commonBits {left right name : List Bool} (leading : left <+: name)
    (shares : left.length ≤ commonBits right name) : left <+: right := by
  have first : left = name.take left.length := List.prefix_iff_eq_take.mp leading
  have same : right.take left.length = name.take left.length := by
    have taken := congrArg (List.take left.length) (take_commonBits right name)
    rwa [List.take_take, List.take_take, Nat.min_eq_left shares] at taken
  rw [first, ← same]
  exact List.take_prefix _ _

namespace Prefix

variable {self other : Prefix}

theorem isCompatible_eq_false : self.isCompatible other = false ↔ ¬ self.Covers other ∧ ¬ other.Covers self := by
  rw [isCompatible, Bool.or_eq_false_iff, ← Bool.not_eq_true, ← Bool.not_eq_true, List.isPrefixOf_iff_prefix,
    List.isPrefixOf_iff_prefix]
  exact Iff.rfl

end Prefix

/-- What is assumed of the distances of `xor_name`: `common_prefix` counts leading equal bits up to the
length of the prefix, and `cmp_distance` compares incompatible prefixes by their distance to the name,
where a prefix that matches the name is closer than any prefix incompatible with it. -/
structure SectionScheme.Measured (S : SectionScheme) (distance : Prefix → XorName → Nat) : Prop where
  /-- `common_prefix` counts leading equal bits. -/
  commonPrefix_eq : ∀ sapPrefix name, S.commonPrefix sapPrefix name = commonBits sapPrefix.bits name.bits
  /-- `cmp_distance` compares distances. -/
  cmpDistance_eq : ∀ {left right : Prefix} (name : XorName), left.isCompatible right = false →
    S.cmpDistance left right name = compare (distance left name) (distance right name)
  closer : ∀ {left right : Prefix} {name : XorName}, left.matchesName name = true →
    left.isCompatible right = false → distance left name < distance right name

namespace SectionTree

variable {S : SectionScheme} {self : SectionTree S} {distance : Prefix → XorName → Nat} {name : XorName}
  {known : Prefix} {sap : S.SignedSap}

def Antichain (self : SectionTree S) : Prop :=
  ∀ known ∈ self.sections, ∀ other ∈ self.sections, known.Covers other → known = other

theorem Antichain.incompatible (antichain : self.Antichain) {other : Prefix} (mem : known ∈ self.sections)
    (mem' : other ∈ self.sections) (differ : known ≠ other) : known.isCompatible other = false :=
  Prefix.isCompatible_eq_false.mpr ⟨fun covers => differ (antichain _ mem _ mem' covers),
    fun covers => differ (antichain _ mem' _ mem covers).symm⟩

theorem mem_of_found (found : self.sections[known]? = some sap) : known ∈ self.sections := by
  rw [ExtTreeMap.mem_iff_isSome_getElem?, found]
  rfl

theorem exists_found (mem : known ∈ self.sections) : ∃ sap, self.sections[known]? = some sap :=
  Option.isSome_iff_exists.mp (ExtTreeMap.mem_iff_isSome_getElem?.mp mem)

theorem Antichain.measured (antichain : self.Antichain) (measured : S.Measured distance) (name : XorName) :
    self.sections.toList.Pairwise fun left right =>
      S.cmpDistance left.1 right.1 name = compare (distance left.1 name) (distance right.1 name) := by
  refine self.sections.distinct_keys_toList.imp_of_mem fun {left right} mem mem' differ => ?_
  have known := mem_of_found (ExtTreeMap.mem_toList_iff_getElem?_eq_some.mp mem)
  have known' := mem_of_found (ExtTreeMap.mem_toList_iff_getElem?_eq_some.mp mem')
  refine measured.cmpDistance_eq name (antichain.incompatible known known' fun same => ?_)
  rw [same] at differ
  exact differ ReflCmp.compare_self

/-- What `closest` returns is the SAP of a prefix that is not excluded, and no other such prefix is
closer. -/
theorem Antichain.closest_le (antichain : self.Antichain) (measured : S.Measured distance)
    {exclude : Option Prefix} (found : self.closest name exclude = some sap) :
    ∃ known, self.sections[known]? = some sap ∧ some known ≠ exclude ∧
      ∀ other ∈ self.sections, some other ≠ exclude → distance known name ≤ distance other name := by
  obtain ⟨⟨known, sap⟩, chosen, rfl⟩ := Option.map_eq_some_iff.mp found
  obtain ⟨mem, allowed⟩ := List.mem_filter.mp (mem_of_minBy chosen)
  refine ⟨known, ExtTreeMap.mem_toList_iff_getElem?_eq_some.mp mem, by simpa using allowed, ?_⟩
  intro other mem' allowed'
  obtain ⟨sap', found'⟩ := exists_found mem'
  have listed : (other, sap') ∈ self.sections.toList.filter fun entry => some entry.1 ≠ exclude :=
    List.mem_filter.mpr ⟨ExtTreeMap.mem_toList_iff_getElem?_eq_some.mpr found', by simpa using allowed'⟩
  have pairwise := (antichain.measured measured name).filter fun entry => some entry.1 ≠ exclude
  exact le_of_minBy (fun entry => distance entry.1 name) pairwise chosen listed

theorem exists_closest {exclude : Option Prefix} (mem : known ∈ self.sections)
    (allowed : some known ≠ exclude) (name : XorName) : ∃ sap, self.closest name exclude = some sap := by
  obtain ⟨sap, found⟩ := exists_found mem
  have listed : (known, sap) ∈ self.sections.toList.filter fun entry => some entry.1 ≠ exclude :=
    List.mem_filter.mpr ⟨ExtTreeMap.mem_toList_iff_getElem?_eq_some.mpr found, by simpa using allowed⟩
  unfold closest
  cases entries : self.sections.toList.filter fun entry => some entry.1 ≠ exclude with
  | nil =>
    rw [entries] at listed
    cases listed
  | cons first rest => exact ⟨_, rfl⟩

theorem getSignedByName_greatest (measured : S.Measured distance) (mem : known ∈ self.sections) (name : XorName) :
    ∃ (chosen : Prefix) (sap : S.SignedSap), self.sections[chosen]? = some sap ∧ self.getSignedByName name = .ok sap ∧
      ∀ other ∈ self.sections, commonBits other.bits name.bits ≤ commonBits chosen.bits name.bits := by
  obtain ⟨sap, found⟩ := exists_found mem
  have listed := ExtTreeMap.mem_toList_iff_getElem?_eq_some.mpr found
  cases chosen : maxByKey (fun entry => S.commonPrefix entry.1 name) self.sections.toList with
  | none =>
    cases entries : self.sections.toList with
    | nil =>
      rw [entries] at listed
      cases listed
    | cons first rest => simp [entries, maxByKey] at chosen
  | some entry =>
    refine ⟨entry.1, entry.2, ExtTreeMap.mem_toList_iff_getElem?_eq_some.mp (mem_of_maxByKey chosen),
      by simp [getSignedByName, chosen], fun other mem' => ?_⟩
    obtain ⟨sap', found'⟩ := exists_found mem'
    have greatest := le_of_maxByKey chosen (ExtTreeMap.mem_toList_iff_getElem?_eq_some.mpr found')
    rwa [measured.commonPrefix_eq, measured.commonPrefix_eq] at greatest

/-- The lookups in an antichain of prefixes. A prefix that matches the name is found by both, and when
no prefix matches, `get_signed_by_name` returns the SAP of one with the most bits in common. -/
theorem lookups_agree (measured : S.Measured distance) (self : SectionTree S) (antichain : self.Antichain)
    (name : XorName) : (∀ (known : Prefix) (sap : S.SignedSap), self.sections[known]? = some sap →
      known.matchesName name = true → self.getSignedByName name = .ok sap ∧ self.closest name none = some sap) ∧
    ((∃ known, known ∈ self.sections) → (∀ known ∈ self.sections, known.matchesName name = false) →
      ∃ (chosen : Prefix) (sap : S.SignedSap), self.sections[chosen]? = some sap ∧ self.getSignedByName name = .ok sap ∧
        ∀ other ∈ self.sections, commonBits other.bits name.bits ≤ commonBits chosen.bits name.bits) := by
  refine ⟨fun known sap found matching => ⟨?_, ?_⟩, ?_⟩
  · have mem := mem_of_found found
    obtain ⟨chosen, sap', found', returned, greatest⟩ := getSignedByName_greatest measured mem name
    have leading : known.bits <+: name.bits := List.isPrefixOf_iff_prefix.mp matching
    have shares := greatest known mem
    rw [commonBits_of_isPrefix leading] at shares
    have mem' := mem_of_found found'
    obtain rfl := antichain _ mem _ mem' (isPrefix_of_commonBits leading shares)
    rw [returned, Option.some.inj (found'.symm.trans found)]
  · have mem := mem_of_found found
    obtain ⟨sap', returned⟩ := exists_closest mem (Option.some_ne_none known) name
    obtain ⟨chosen, found', -, least⟩ := antichain.closest_le measured returned
    have mem' := mem_of_found found'
    have same : chosen = known := by
      by_contra differ
      have closer := measured.closer matching (antichain.incompatible mem mem' (Ne.symm differ))
      have farther := least known mem (Option.some_ne_none known)
      omega
    rw [returned, ← found', same, found]
  · rintro ⟨known, mem⟩ -
    exact getSignedByName_greatest measured mem name

end SectionTree

/-! ## A sample -/

theorem sampleCommonPrefix_eq (sapPrefix : Prefix) (name : XorName) :
    sampleCommonPrefix sapPrefix name = commonBits sapPrefix.bits name.bits := by
  unfold sampleCommonPrefix
  generalize sapPrefix.bits = left
  generalize name.bits = right
  induction left, right using commonBits.induct with
  | case1 left lefts rights ih => simp [commonBits, ih]
  | case2 left lefts right rights differ => simp [commonBits, differ]
  | case3 left right none =>
    have unzipped : left.zip right = [] := by
      cases left with
      | nil => rfl
      | cons bit bits =>
        cases right with
        | nil => rfl
        | cons bit' bits' => exact absurd rfl (none bit bits bit' bits' rfl)
    simp [unzipped, commonBits]

def sampleDistance (sapPrefix : Prefix) (name : XorName) : Nat := 256 - sampleCommonPrefix sapPrefix name

theorem sampleCommonPrefix_le (sapPrefix : Prefix) (name : XorName) : sampleCommonPrefix sapPrefix name ≤ 256 := by
  rw [sampleCommonPrefix_eq, ← name.length_eq]
  exact commonBits_le _ _

theorem sampleScheme_measured : sampleScheme.Measured sampleDistance where
  commonPrefix_eq := sampleCommonPrefix_eq
  cmpDistance_eq {left right} name _ := by
    have first := sampleCommonPrefix_le left name
    have second := sampleCommonPrefix_le right name
    have compared : sampleScheme.cmpDistance left right name =
        compare (sampleCommonPrefix right name) (sampleCommonPrefix left name) := rfl
    rw [compared, sampleDistance, sampleDistance]
    obtain less | same | greater :=
      Nat.lt_trichotomy (sampleCommonPrefix right name) (sampleCommonPrefix left name)
    · rw [Nat.compare_eq_lt.mpr less, Nat.compare_eq_lt.mpr (by omega)]
    · rw [same, Nat.compare_eq_eq.mpr rfl, Nat.compare_eq_eq.mpr rfl]
    · rw [Nat.compare_eq_gt.mpr greater, Nat.compare_eq_gt.mpr (by omega)]
  closer {left right name} matching incompatible := by
    have leading : left.bits <+: name.bits := List.isPrefixOf_iff_prefix.mp matching
    have all : sampleCommonPrefix left name = left.bits.length := by
      rw [sampleCommonPrefix_eq, commonBits_of_isPrefix leading]
    have fewer : sampleCommonPrefix right name < left.bits.length := by
      rw [sampleCommonPrefix_eq]
      by_contra shares
      exact (Prefix.isCompatible_eq_false.mp incompatible).1
        (isPrefix_of_commonBits leading (Nat.le_of_not_lt shares))
    have bounded := sampleCommonPrefix_le left name
    rw [sampleDistance, sampleDistance]
    omega

namespace SectionTree

/-- A tree of the sections `00` and `01`. -/
def sampleQuarters : SectionTree sampleScheme where
  sections := (∅ : ExtTreeMap Prefix sampleScheme.SignedSap).insert ⟨[false, false]⟩
    (sampleSap 1 [false, false]) |>.insert ⟨[false, true]⟩ (sampleSap 2 [false, true])
  sectionsDag := .new (0 : Nat)

theorem eq_of_mem_sampleQuarters {known : Prefix} (mem : known ∈ sampleQuarters.sections) :
    known = ⟨[false, false]⟩ ∨ known = ⟨[false, true]⟩ := by
  have one : compare (⟨[false, true]⟩ : Prefix) known = .eq ∨ compare ⟨[false, false]⟩ known = .eq := by
    simpa [sampleQuarters] using mem
  obtain same | same := one
  · exact Or.inr (Std.compare_eq_iff_eq.mp same).symm
  · exact Or.inl (Std.compare_eq_iff_eq.mp same).symm

theorem sampleQuarters_antichain : sampleQuarters.Antichain := by
  intro known mem other mem' covers
  obtain rfl | rfl := eq_of_mem_sampleQuarters mem <;>
    obtain rfl | rfl := eq_of_mem_sampleQuarters mem'
  all_goals revert covers; decide

def sampleUniformName (bit : Bool) : XorName := ⟨List.replicate 256 bit, List.length_replicate⟩

/-- A name in section `00`, and one outside of both sections. -/
theorem lookups_agree_sampleQuarters :
    (sampleQuarters.getSignedByName (sampleUniformName false) = .ok (sampleSap 1 [false, false]) ∧
      sampleQuarters.closest (sampleUniformName false) none = some (sampleSap 1 [false, false])) ∧
    ∃ sap, sampleQuarters.getSignedByName (sampleUniformName true) = .ok sap := by
  have first := lookups_agree sampleScheme_measured sampleQuarters sampleQuarters_antichain
    (sampleUniformName false)
  have second := lookups_agree sampleScheme_measured sampleQuarters sampleQuarters_antichain
    (sampleUniformName true)
  refine ⟨first.1 ⟨[false, false]⟩ (sampleSap 1 [false, false]) rfl (by decide), ?_⟩
  have known : (⟨[false, false]⟩ : Prefix) ∈ sampleQuarters.sections := mem_of_found rfl
  have outside : ∀ known ∈ sampleQuarters.sections,
      known.matchesName (sampleUniformName true) = false := by
    intro known mem
    obtain rfl | rfl := eq_of_mem_sampleQuarters mem <;> decide
  obtain ⟨chosen, sap, -, returned, -⟩ := second.2 ⟨_, known⟩ outside
  exact ⟨sap, returned⟩

end SectionTree

end SafeNetwork

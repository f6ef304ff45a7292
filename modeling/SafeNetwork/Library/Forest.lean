import SafeNetwork.Library.Walk

/-!
# Forests and their views

A parent function all of whose walks end is a forest. `Above parent a k` says that `a` is `k` or
one of its ancestors. A view from a root is a set of points that is closed under parents up to the
root; it is what one knows of the forest when each point comes with the way to it. Views grow by
branches, and this module says what becomes of their leaves.
-/

namespace Forest

open Walk

variable {α : Type*} {parent : α → Option α} {a b c k root : α} {S S' : Set α}

def Ends (parent : α → Option α) : Prop := ∀ a, ∃ l, Path parent a l

/-- `a` is `k` or one of its ancestors. -/
def Above (parent : α → Option α) (a k : α) : Prop :=
  Relation.ReflTransGen (fun child above => parent child = some above) k a

/-! ## Ancestors -/

theorem Ends.induction (ends : Ends parent) {motive : α → Prop}
    (step : ∀ k, (∀ above, parent k = some above → motive above) → motive k) (k : α) : motive k := by
  obtain ⟨l, path⟩ := ends k
  induction path with
  | stop stops => exact step _ fun above goes => by simp [stops] at goes
  | @step k above l goes _ ih =>
    refine step k fun other goes' => ?_
    obtain rfl := Option.some.inj (goes.symm.trans goes')
    exact ih

theorem ends_of_rank (rank : α → Nat)
    (falls : ∀ {k above}, parent k = some above → rank above < rank k) : Ends parent := by
  intro k
  induction bound : rank k using Nat.strong_induction_on generalizing k with
  | _ bound ih =>
    subst bound
    cases goes : parent k with
    | none => exact ⟨[], .stop goes⟩
    | some above =>
      obtain ⟨l, path⟩ := ih (rank above) (falls goes) above rfl
      exact ⟨above :: l, .step goes path⟩

@[refl] theorem Above.refl : Above parent k k := Relation.ReflTransGen.refl

theorem Above.trans (upper : Above parent a b) (lower : Above parent b k) : Above parent a k :=
  Relation.ReflTransGen.trans lower upper

theorem Above.of_parent (goes : parent k = some a) : Above parent a k :=
  Relation.ReflTransGen.single goes

theorem Above.mono {parent' : α → Option α}
    (kept : ∀ {k a}, parent k = some a → parent' k = some a) (above : Above parent a k) : Above parent' a k :=
  Relation.ReflTransGen.mono (fun _ _ => kept) _ _ above

theorem Above.parent_of_ne (above : Above parent a k) (proper : a ≠ k) :
    ∃ b, parent k = some b ∧ Above parent a b := by
  obtain rfl | ⟨b, goes, rest⟩ := Relation.ReflTransGen.cases_head above
  · exact absurd rfl proper
  · exact ⟨b, goes, rest⟩

theorem Above.child_of_ne (above : Above parent a k) (proper : a ≠ k) :
    ∃ c, parent c = some a ∧ Above parent c k := by
  obtain rfl | ⟨c, rest, goes⟩ := Relation.ReflTransGen.cases_tail above
  · exact absurd rfl proper
  · exact ⟨c, goes, rest⟩

theorem Ends.not_above_parent (ends : Ends parent) (goes : parent k = some a) : ¬ Above parent k a := by
  intro back
  obtain ⟨l, path⟩ := ends k
  cases path with
  | stop stops => simp [stops] at goes
  | step goes' rest =>
    obtain rfl := Option.some.inj (goes.symm.trans goes')
    exact (Path.step goes rest).not_mem (rest.mem_of_reaches back)

theorem Ends.antisymm (ends : Ends parent) (upper : Above parent a b) (lower : Above parent b a) : a = b := by
  by_contra proper
  obtain ⟨c, goes, above⟩ := upper.parent_of_ne proper
  exact ends.not_above_parent goes (lower.trans above)

theorem Above.total (first : Above parent a k) (second : Above parent b k) : Above parent a b ∨ Above parent b a := by
  refine (Relation.ReflTransGen.total_of_right_unique ?_ first second).symm
  intro child above above' goes goes'
  exact Option.some.inj (goes.symm.trans goes')

/-! ## Views -/

structure View (parent : α → Option α) (root : α) (S : Set α) : Prop where
  root_mem : root ∈ S
  parent_mem : ∀ {k}, k ∈ S → k ≠ root → ∃ above ∈ S, parent k = some above

def branch (parent : α → Option α) (top k : α) : Set α :=
  {a | Above parent top a ∧ Above parent a k}

/-- What is seen after a branch is shown: the branch as well, when it starts at a point in view. -/
def learn (parent : α → Option α) (S : Set α) (top k : α) : Set α :=
  {a | a ∈ S ∨ (top ∈ S ∧ a ∈ branch parent top k)}

def IsLeaf (parent : α → Option α) (S : Set α) (k : α) : Prop :=
  k ∈ S ∧ ∀ c ∈ S, parent c ≠ some k

namespace View

variable (view : View parent root S)
include view

theorem root_above (ends : Ends parent) (seen : k ∈ S) : Above parent root k := by
  induction k using ends.induction with
  | _ k ih =>
    by_cases top : k = root
    · rw [top]
    · obtain ⟨above, mem, goes⟩ := view.parent_mem seen top
      exact (ih above goes mem).trans (.of_parent goes)

theorem mem_of_above (ends : Ends parent) (seen : k ∈ S)
    (above : Above parent a k) (below : Above parent root a) : a ∈ S := by
  induction k using ends.induction with
  | _ k ih =>
    by_cases same : a = k
    · rwa [same]
    · obtain ⟨b, goes, rest⟩ := above.parent_of_ne same
      by_cases top : k = root
      · subst top
        exact absurd (ends.antisymm above below) same
      · obtain ⟨b', mem, goes'⟩ := view.parent_mem seen top
        obtain rfl := Option.some.inj (goes.symm.trans goes')
        exact ih b goes mem rest

theorem union (other : View parent a S') (seen : a ∈ S) : View parent root (S ∪ S') where
  root_mem := Or.inl view.root_mem
  parent_mem := by
    rintro k mem proper
    by_cases old : k ∈ S
    · obtain ⟨above, inside, goes⟩ := view.parent_mem old proper
      exact ⟨above, Or.inl inside, goes⟩
    · obtain ⟨above, inside, goes⟩ :=
        other.parent_mem (mem.resolve_left old) fun same => old (same ▸ seen)
      exact ⟨above, Or.inr inside, goes⟩

theorem leaf_eq (ends : Ends parent) (leaf : IsLeaf parent S a)
    (seen : k ∈ S) (above : Above parent a k) : a = k := by
  by_contra proper
  obtain ⟨c, goes, lower⟩ := above.child_of_ne proper
  have below := (view.root_above ends leaf.1).trans (.of_parent goes)
  exact leaf.2 c (view.mem_of_above ends seen lower below) goes

theorem fork (ends : Ends parent) (seen : a ∈ S) (seen' : k ∈ S) :
    Above parent a k ∨ Above parent k a ∨ ∃ x y c, parent x = some c ∧ parent y = some c ∧ x ≠ y ∧
      Above parent x a ∧ Above parent y k := by
  induction a using ends.induction with
  | _ a ih =>
    by_cases top : a = root
    · rw [top]
      exact Or.inl (view.root_above ends seen')
    · obtain ⟨b, inside, goes⟩ := view.parent_mem seen top
      obtain upper | lower | ⟨x, y, c, left, right, apart, toParent, toOther⟩ := ih b goes inside
      · by_cases same : b = k
        · exact Or.inr (Or.inl (same ▸ .of_parent goes))
        · obtain ⟨y, child, rest⟩ := upper.child_of_ne same
          by_cases way : a = y
          · exact Or.inl (way ▸ rest)
          · exact Or.inr (Or.inr ⟨a, y, b, goes, child, way, .refl, rest⟩)
      · exact Or.inr (Or.inl (lower.trans (.of_parent goes)))
      · exact Or.inr (Or.inr ⟨x, y, c, left, right, apart, toParent.trans (.of_parent goes),
          toOther⟩)

theorem learn_known (ends : Ends parent) (seen : k ∈ S) : learn parent S a k = S := by
  ext c
  refine ⟨?_, Or.inl⟩
  rintro (old | ⟨trusted, upper, lower⟩)
  · exact old
  · exact view.mem_of_above ends seen lower ((view.root_above ends trusted).trans upper)

end View

theorem learn_untrusted (unseen : a ∉ S) : learn parent S a k = S :=
  Set.ext fun _ => or_iff_left fun shown => unseen shown.1

theorem learn_trusted (seen : a ∈ S) : learn parent S a k = S ∪ branch parent a k :=
  Set.ext fun _ => or_congr_right (and_iff_right seen)

theorem exists_leaf (ends : Ends parent) (finite : S.Finite)
    (seen : k ∈ S) : ∃ l, IsLeaf parent S l ∧ Above parent k l := by
  choose walk path using ends
  -- The point below `k` with the longest walk has no child.
  obtain ⟨l, ⟨mem, below⟩, longest⟩ := Set.exists_max_image {c | c ∈ S ∧ Above parent k c}
    (fun c => (walk c).length) (finite.subset fun _ => And.left) ⟨k, seen, .refl⟩
  refine ⟨l, ⟨mem, fun c inside goes => ?_⟩, below⟩
  have longer := longest c ⟨inside, below.trans (.of_parent goes)⟩
  have same := (path c).unique (.step goes (path l))
  rw [same] at longer
  simp at longer

theorem view_branch (above : Above parent a k) : View parent a (branch parent a k) where
  root_mem := ⟨.refl, above⟩
  parent_mem := by
    rintro c ⟨upper, lower⟩ proper
    obtain ⟨b, goes, rest⟩ := upper.parent_of_ne (Ne.symm proper)
    exact ⟨b, ⟨rest, (Above.of_parent goes).trans lower⟩, goes⟩

theorem isLeaf_branch (ends : Ends parent) (above : Above parent a k) :
    IsLeaf parent (branch parent a k) c ↔ c = k := by
  have view := view_branch above
  constructor
  · intro leaf
    exact view.leaf_eq ends leaf ⟨above, .refl⟩ leaf.1.2
  · rintro rfl
    exact ⟨⟨above, .refl⟩, fun d mem goes => ends.not_above_parent goes mem.2⟩

theorem isLeaf_union_branch (ends : Ends parent) (view : View parent root S) (seen : a ∈ S)
    (above : Above parent a k) (fresh : k ∉ S) : IsLeaf parent (S ∪ branch parent a k) c ↔
      c = k ∨ (IsLeaf parent S c ∧ ¬ Above parent c k) := by
  have whole := view.union (view_branch above) seen
  have bottom : k ∈ S ∪ branch parent a k := Or.inr ⟨above, .refl⟩
  constructor
  · intro leaf
    by_cases upper : Above parent c k
    · exact Or.inl (whole.leaf_eq ends leaf bottom upper)
    · have old : c ∈ S := leaf.1.resolve_right fun mem => upper mem.2
      exact Or.inr ⟨⟨old, fun d mem => leaf.2 d (Or.inl mem)⟩, upper⟩
  · rintro (rfl | ⟨leaf, apart⟩)
    · refine ⟨bottom, ?_⟩
      rintro d (old | mem) goes
      · -- A child in the old view would have brought the point into it.
        have below := (view.root_above ends seen).trans above
        exact fresh (view.mem_of_above ends old (.of_parent goes) below)
      · exact ends.not_above_parent goes mem.2
    · refine ⟨Or.inl leaf.1, ?_⟩
      rintro d (old | mem) goes
      · exact leaf.2 d old goes
      · exact apart ((Above.of_parent goes).trans mem.2)

end Forest

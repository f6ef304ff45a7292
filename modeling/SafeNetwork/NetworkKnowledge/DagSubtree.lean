import SafeNetwork.NetworkKnowledge.DagAncestors
import SafeNetwork.NetworkKnowledge.DagTree

/-!
# Connected sub-trees of a DAG and their merges

A partial DAG shows a connected part of a whole tree of section keys. Its nodes are not those of
the whole: the Merkle hash of a key depends on the way from the genesis key of the part. What the
part shares with the whole is the entry of each key, its parent and its signature. Two parts with
the same genesis key and the same keys are equal, and merging two parts gives the part with the
keys of both.
-/

namespace SafeNetwork.SectionsDAG

open Std Crdt

variable {K : KeyScheme} {whole part other dag : SectionsDAG K} {parentKey key : K.PublicKey}
  {signature : K.Signature} {entries : List (K.PublicKey × K.Node)}

/-- The connected sub-trees of a DAG: one of its keys, and then keys inserted as they are in the
whole. -/
inductive Contains (whole : SectionsDAG K) : SectionsDAG K → Prop
  | new {genesisKey : K.PublicKey} : whole.hasKey genesisKey = true → Contains whole (new genesisKey)
  /-- One more key with the parent and the signature it has in the whole. -/
  | insert {part dag : SectionsDAG K} {parentKey key : K.PublicKey} {signature : K.Signature} :
      Contains whole part → whole.entryOf key = some (parentKey, signature) →
      part.verifyAndInsert parentKey key signature = .ok dag → Contains whole dag

/-- A tidy DAG whose keys have the entries that they have in the whole. -/
structure Embedded (part whole : SectionsDAG K) : Prop where
  tidy : part.Tidy
  genesis_known : whole.hasKey part.genesisKey = true
  entry : ∀ {key : K.PublicKey} {entry : K.PublicKey × K.Signature},
    part.entryOf key = some entry → whole.entryOf key = some entry

theorem Tidy.embedded (tidy : whole.Tidy) : whole.Embedded whole where
  tidy := tidy
  genesis_known := hasKey_iff.mpr (Or.inl rfl)
  entry := id

theorem embedded_new (known : whole.hasKey key = true) : (new key).Embedded whole where
  tidy := tidy_new key
  genesis_known := known
  entry := by
    intro other entry found
    rw [entryOf_unknown (by simp [new])] at found
    cases found

namespace Embedded

/-! ## What a part knows -/

section

variable (embedded : part.Embedded whole)
include embedded

theorem hasKey (tidy : whole.Tidy)
    (known : part.hasKey key = true) : whole.hasKey key = true := by
  obtain same | some := embedded.tidy.hasKey_iff_entryOf.mp known
  · rw [same]
    exact embedded.genesis_known
  · obtain ⟨entry, found⟩ := Option.isSome_iff_exists.mp some
    exact tidy.hasKey_iff_entryOf.mpr (Or.inr (by rw [embedded.entry found]; rfl))

theorem parentOf (parent : part.parentOf key = some parentKey) :
    whole.parentOf key = some parentKey := by
  obtain ⟨signature, entry⟩ := WellFormed.entryOf_of_parentOf parent
  rw [SectionsDAG.parentOf, embedded.entry entry, Option.map_some]

theorem view : Forest.View whole.parentOf part.genesisKey part.keySet where
  root_mem := embedded.tidy.view.root_mem
  parent_mem := by
    intro key known proper
    obtain ⟨above, inside, parent⟩ := embedded.tidy.view.parent_mem known proper
    exact ⟨above, inside, embedded.parentOf parent⟩

theorem entryOf_eq (key : K.PublicKey) : part.entryOf key =
      if key ≠ part.genesisKey ∧ part.hasKey key = true then whole.entryOf key else none := by
  split
  · rename_i inside
    have some := (embedded.tidy.hasKey_iff_entryOf.mp inside.2).resolve_left inside.1
    obtain ⟨entry, found⟩ := Option.isSome_iff_exists.mp some
    rw [found, embedded.entry found]
  · rename_i outside
    cases found : part.entryOf key with
    | none => rfl
    | some entry =>
      refine absurd ⟨?_, embedded.tidy.hasKey_iff_entryOf.mpr (Or.inr (by rw [found]; rfl))⟩ outside
      rintro rfl
      simp at found

theorem ext (embedded' : other.Embedded whole)
    (genesis : part.genesisKey = other.genesisKey)
    (keys : ∀ key, part.hasKey key = true ↔ other.hasKey key = true) : part = other := by
  refine embedded.tidy.ext embedded'.tidy genesis ?_
  funext key
  rw [embedded.entryOf_eq, embedded'.entryOf_eq, genesis]
  simp only [keys]

theorem selfVerify : part.selfVerify = true :=
  embedded.tidy.selfVerify_of_ends embedded.tidy.ends embedded.tidy.genesis_fresh

theorem above_iff (tidy : whole.Tidy) {upper : K.PublicKey}
    (seen : part.hasKey upper = true) (known : part.hasKey key = true) :
    Forest.Above part.parentOf upper key ↔ Forest.Above whole.parentOf upper key := by
  constructor
  · intro above
    exact above.mono embedded.parentOf
  · induction key using tidy.ends.induction with
    | _ key ih =>
      intro above
      by_cases same : upper = key
      · rw [same]
      · obtain ⟨parent, goes, rest⟩ := above.parent_of_ne same
        have proper : key ≠ part.genesisKey := by
          rintro rfl
          exact same (tidy.ends.antisymm above (embedded.view.root_above tidy.ends seen))
        obtain ⟨parent', inside, goes'⟩ := embedded.tidy.view.parent_mem known proper
        obtain rfl := Option.some.inj (goes.symm.trans (embedded.parentOf goes'))
        exact (ih parent goes inside rest).trans (.of_parent goes')

theorem isLeaf_iff (tidy : whole.Tidy) :
    Forest.IsLeaf part.parentOf part.keySet key ↔ Forest.IsLeaf whole.parentOf part.keySet key := by
  refine and_congr_right fun known => forall_congr' fun child => forall_congr' fun inside => ?_
  rw [not_iff_not]
  refine ⟨embedded.parentOf, fun parent => ?_⟩
  have proper : child ≠ part.genesisKey := by
    rintro rfl
    exact tidy.ends.not_above_parent parent (embedded.view.root_above tidy.ends known)
  obtain ⟨above, -, goes⟩ := embedded.tidy.view.parent_mem inside proper
  rw [goes, ← embedded.parentOf goes, parent]

theorem mem_leafKeys (tidy : whole.Tidy) :
    key ∈ part.leafKeys ↔ Forest.IsLeaf whole.parentOf part.keySet key := by
  rw [embedded.tidy.mem_leafKeys, embedded.isLeaf_iff tidy]

end

/-! ## Insertions -/

theorem attach (embedded : part.Embedded whole) (tidy : whole.Tidy)
    (entry : whole.entryOf key = some (parentKey, signature)) (known : part.hasKey parentKey = true) :
    (part.attach parentKey key signature).Embedded whole := by
  obtain ⟨-, -, valid⟩ := tidy.entryOf_signed entry
  -- The genesis key of the part is above the parent, so that it is not the inserted key.
  have proper : key ≠ part.genesisKey := by
    rintro rfl
    have parent : whole.parentOf part.genesisKey = some parentKey := by
      rw [SectionsDAG.parentOf, entry, Option.map_some]
    exact tidy.ends.not_above_parent parent (embedded.view.root_above tidy.ends known)
  cases fresh : part.hasKey key with
  | true =>
    have old := embedded.entryOf_eq key
    rw [if_pos ⟨proper, fresh⟩, entry] at old
    rw [embedded.tidy.attach_known old]
    exact embedded
  | false =>
    refine ⟨embedded.tidy.attach_new valid known fresh, embedded.genesis_known, ?_⟩
    intro other found inserted
    rw [embedded.tidy.entryOf_attach valid known, if_neg proper] at inserted
    by_cases same : other = key
    · rw [same, Function.update_self] at inserted
      rw [same, entry, inserted]
    · rw [Function.update_of_ne same] at inserted
      exact embedded.entry inserted

theorem insertAll (embedded : part.Embedded whole) (tidy : whole.Tidy) (edges : ∀ entry ∈ entries,
      whole.entryOf entry.2.value.key = some (entry.1, entry.2.value.sig)) :
    (part.insertAll entries).2.Embedded whole := by
  apply insertAll_invariant (motive := fun dag => dag.Embedded whole) embedded
  intro before after entry held mem inserted
  obtain ⟨-, known, rfl⟩ := verifyAndInsert_eq_ok.mp inserted
  exact held.attach tidy (edges entry mem) known

end Embedded

theorem Contains.embedded (contains : whole.Contains part) (tidy : whole.Tidy) : part.Embedded whole := by
  induction contains with
  | new known => exact embedded_new known
  | insert _ entry inserted ih =>
    obtain ⟨-, known, rfl⟩ := verifyAndInsert_eq_ok.mp inserted
    exact ih.attach tidy entry known

theorem Contains.of_embedded (contains : part.Contains dag) (embedded : part.Embedded whole)
    (tidy : whole.Tidy) : whole.Contains dag := by
  induction contains with
  | new known => exact .new (embedded.hasKey tidy known)
  | insert _ entry inserted ih => exact ih.insert (embedded.entry entry) inserted

/-! ## The entries that a merge of a tidy DAG visits -/

def Records (other : SectionsDAG K) (entry : K.PublicKey × K.Node) : Prop :=
  other.Shows entry ∧ other.entryOf entry.2.value.key = some (entry.1, entry.2.value.sig)

namespace Tidy

theorem records_child (tidy : other.Tidy) {entry child : K.PublicKey × K.Node}
    (recorded : other.Records entry) (below : child ∈ other.childEntries entry.2) : other.Records child := by
  obtain ⟨shown, named, mem⟩ := tidy.mem_childEntries below
  obtain ⟨above, found, -⟩ := tidy.entryOf_of_visible shown
  have parent := (tidy.parent_iff recorded.1 shown).mp mem
  obtain rfl : above = entry.2.value.key := by simpa [SectionsDAG.parentOf, found] using parent
  exact ⟨shown, by rw [found, named]⟩

theorem records_root (tidy : other.Tidy) {node : K.Node} (root : key ∈ other.dagRoot)
    (found : other.getNode key = .ok node) : other.Records (other.genesisKey, node) := by
  obtain ⟨signature, recorded⟩ := WellFormed.entryOf_of_parentOf (tidy.root_parent root)
  obtain ⟨lookup, visible⟩ := tidy.lookup_of_entryOf recorded
  obtain rfl : node = other.childNode other.genesisKey key signature :=
    Except.ok.inj (found.symm.trans (tidy.getNode_eq_ok.mpr ⟨_, lookup, visible⟩))
  exact ⟨visible, recorded⟩

theorem rootsSigned (tidy : other.Tidy) : other.RootsSigned := by
  intro key root node found
  exact (tidy.entryOf_signed (tidy.records_root root found).2).2.2

theorem visited (tidy : other.Tidy) (listed : other.rootEntries = .ok entries)
    (known : other.hasKey key = true) (proper : key ≠ other.genesisKey) :
    ∃ entry ∈ other.allVisits entries, entry.2.value.key = key := by
  obtain ⟨roots, same, members⟩ := tidy.rootEntries_ok
  obtain rfl : roots = entries := Except.ok.inj (same.symm.trans listed)
  have shown : ∀ entry ∈ roots, other.Shows entry := by
    intro entry mem
    obtain ⟨-, root, -, found⟩ := (members entry).mp mem
    exact tidy.shows_of_getNode found
  induction key using tidy.ends.induction with
  | _ key ih =>
    obtain ⟨above, sig, entry, inside, -⟩ :=
      tidy.exists_entry proper ((hasKey_iff.mp known).resolve_left proper)
    have parent : other.parentOf key = some above := by
      rw [SectionsDAG.parentOf, entry, Option.map_some]
    obtain ⟨lookup, visible⟩ := tidy.lookup_of_entryOf entry
    by_cases genesis : above = other.genesisKey
    · have root := tidy.mem_dagRoot.mpr (genesis ▸ parent)
      have found := tidy.getNode_eq_ok.mpr ⟨_, lookup, visible⟩
      have mem := (members (other.genesisKey, other.childNode above key sig)).mpr
        ⟨rfl, key, root, found⟩
      have first : (other.genesisKey, other.childNode above key sig) ∈ other.allVisits roots := by
        refine List.mem_flatMap.mpr ⟨_, mem, ?_⟩
        rw [tidy.visits_eq (shown _ mem)]
        exact List.mem_cons_self
      exact ⟨_, first, rfl⟩
    · obtain ⟨upper, mem, rfl⟩ := ih above parent inside genesis
      have shows : other.Shows upper := by
        obtain ⟨top, start, visited⟩ := List.mem_flatMap.mp mem
        exact visits_invariant (motive := other.Shows)
          (fun _ below => (tidy.mem_childEntries below).1) (shown top start) visited
      have named := (tidy.parent_iff shows visible).mpr parent
      exact ⟨_, tidy.allVisits_child shown mem (tidy.childEntries_complete visible named), rfl⟩

end Tidy

/-! ## Merges of parts -/

namespace Embedded

theorem mergeInto (upper : part.Embedded whole) (lower : other.Embedded whole) (tidy : whole.Tidy)
    (below : part.hasKey other.genesisKey = true) : ∃ dag, part.mergeInto other = (.ok (), dag) ∧ dag.Embedded whole ∧
      dag.genesisKey = part.genesisKey ∧
      ∀ key, dag.hasKey key = true ↔ part.hasKey key = true ∨ other.hasKey key = true := by
  obtain ⟨entries, listed, members⟩ := lower.tidy.rootEntries_ok
  have done := (lower.tidy.mergeInto_ok_iff below).mpr lower.tidy.rootsSigned
  rw [lower.tidy.mergeInto_eq listed] at done ⊢
  have recorded : ∀ entry ∈ other.allVisits entries, other.Records entry := by
    intro entry mem
    obtain ⟨⟨genesis, node⟩, start, visited⟩ := List.mem_flatMap.mp mem
    obtain ⟨rfl, root, inside, found⟩ := (members (genesis, node)).mp start
    exact visits_invariant (fun held below => lower.tidy.records_child held below)
      (lower.tidy.records_root inside found) visited
  have edges : ∀ entry ∈ other.allVisits entries,
      whole.entryOf entry.2.value.key = some (entry.1, entry.2.value.sig) :=
    fun entry mem => lower.entry (recorded entry mem).2
  have within : ∀ key, (part.insertAll (other.allVisits entries)).2.hasKey key = true →
      part.hasKey key = true ∨ other.hasKey key = true := by
    intro key
    apply insertAll_invariant
      (motive := fun dag => dag.hasKey key = true → part.hasKey key = true ∨ other.hasKey key = true)
      Or.inl
    intro before after entry held mem inserted
    obtain ⟨-, -, rfl⟩ := verifyAndInsert_eq_ok.mp inserted
    rw [hasKey_attach]
    rintro (rfl | old)
    · exact Or.inr (hasKey_iff.mpr (Or.inr (lower.tidy.entryOf_signed (recorded entry mem).2).1))
    · exact held old
  refine ⟨_, Prod.ext done rfl, upper.insertAll tidy edges, insertAll_genesisKey, fun key => ?_⟩
  refine ⟨within key, ?_⟩
  rintro (old | new)
  · exact hasKey_insertAll old
  · by_cases genesis : key = other.genesisKey
    · rw [genesis]
      exact hasKey_insertAll below
    · obtain ⟨entry, mem, rfl⟩ := lower.tidy.visited listed new genesis
      exact hasKey_of_insertAll_ok done mem

section

variable (embedded : part.Embedded whole) (embedded' : other.Embedded whole) (tidy : whole.Tidy)
include embedded embedded' tidy

theorem genesisKey_eq (below : part.hasKey other.genesisKey = true)
    (above : other.hasKey part.genesisKey = true) : part.genesisKey = other.genesisKey :=
  tidy.ends.antisymm (embedded.view.root_above tidy.ends below)
    (embedded'.view.root_above tidy.ends above)

theorem merge
    (linked : part.hasKey other.genesisKey = true ∨ other.hasKey part.genesisKey = true) :
    ∃ dag, part.merge other = (.ok (), dag) ∧ dag.Embedded whole ∧
      dag.genesisKey = (if part.hasKey other.genesisKey then part.genesisKey else other.genesisKey) ∧
      ∀ key, dag.hasKey key = true ↔ part.hasKey key = true ∨ other.hasKey key = true := by
  simp only [SectionsDAG.merge, embedded'.selfVerify, Bool.not_true, Bool.false_eq_true, ↓reduceIte]
  by_cases below : part.hasKey other.genesisKey = true
  · simp only [below, ↓reduceIte]
    exact embedded.mergeInto embedded' tidy below
  · have above := linked.resolve_left below
    simp only [below, above, Bool.false_eq_true, ↓reduceIte]
    obtain ⟨dag, merged, rest, genesis, keys⟩ := embedded'.mergeInto embedded tidy above
    exact ⟨dag, merged, rest, genesis, fun key => (keys key).trans or_comm⟩

theorem merge_comm
    (linked : part.hasKey other.genesisKey = true ∨ other.hasKey part.genesisKey = true) :
    part.merge other = other.merge part := by
  obtain ⟨dag, merged, within, genesis, keys⟩ := embedded.merge embedded' tidy linked
  obtain ⟨dag', merged', within', genesis', keys'⟩ := embedded'.merge embedded tidy linked.symm
  have same : dag.genesisKey = dag'.genesisKey := by
    rw [genesis, genesis']
    by_cases below : part.hasKey other.genesisKey = true
    · by_cases above : other.hasKey part.genesisKey = true
      · rw [if_pos below, if_pos above, embedded.genesisKey_eq embedded' tidy below above]
      · rw [if_pos below, if_neg above]
    · rw [if_neg below, if_pos (linked.resolve_left below)]
  rw [merged, merged', within.ext within' same fun key => ?_]
  rw [keys, keys', or_comm]

theorem genesisKey_above (within : dag.Embedded whole)
    (keys : ∀ key, dag.hasKey key = true ↔ part.hasKey key = true ∨ other.hasKey key = true) :
    whole.AncestorOrSelf dag.genesisKey part.genesisKey ∧
      whole.AncestorOrSelf dag.genesisKey other.genesisKey :=
  ⟨within.view.root_above tidy.ends ((keys _).mpr (Or.inl embedded.view.root_mem)),
    within.view.root_above tidy.ends ((keys _).mpr (Or.inr embedded'.view.root_mem))⟩

end

theorem merge_apart (embedded' : other.Embedded whole)
    (apart : ¬ (part.hasKey other.genesisKey = true ∨ other.hasKey part.genesisKey = true)) :
    part.merge other = (.error (.keyNotFound part.genesisKey), part) := by
  obtain ⟨below, above⟩ := not_or.mp apart
  simp [SectionsDAG.merge, embedded'.selfVerify, below, above]

theorem eq_whole (embedded : part.Embedded whole) (tidy : whole.Tidy)
    (all : ∀ key, whole.hasKey key = true → part.hasKey key = true) : part = whole := by
  refine embedded.ext tidy.embedded ?_ fun key => ⟨embedded.hasKey tidy, all key⟩
  -- The genesis key of the part is above that of the whole, which has no parent.
  by_contra differs
  have above := embedded.view.root_above tidy.ends (all _ tidy.view.root_mem)
  obtain ⟨beyond, none, -⟩ := above.parent_of_ne differs
  simp at none

end Embedded

/-! ## Sequences of merges -/

def mergeAll : SectionsDAG K → List (SectionsDAG K) → K.Result Unit × SectionsDAG K
  | self, [] => (.ok (), self)
  | self, other :: rest =>
    match self.merge other with
    | (.ok (), dag) => dag.mergeAll rest
    | (.error error, dag) => (.error error, dag)

/-- Each DAG contains the genesis key of what has been merged before it, or the other way round. -/
def AllLinked : SectionsDAG K → List (SectionsDAG K) → Prop
  | _, [] => True
  | self, other :: rest =>
    (self.hasKey other.genesisKey = true ∨ other.hasKey self.genesisKey = true) ∧
      AllLinked (self.merge other).2 rest

theorem Embedded.mergeAll {parts : List (SectionsDAG K)} (embedded : part.Embedded whole)
    (tidy : whole.Tidy) (inside : ∀ other ∈ parts, other.Embedded whole) (linked : part.AllLinked parts) :
    ∃ dag, part.mergeAll parts = (.ok (), dag) ∧ dag.Embedded whole ∧
      ∀ key, dag.hasKey key = true ↔
        part.hasKey key = true ∨ ∃ other ∈ parts, other.hasKey key = true := by
  induction parts generalizing part with
  | nil => exact ⟨part, rfl, embedded, by simp⟩
  | cons other rest ih =>
    obtain ⟨next, merged, within, -, keys⟩ :=
      embedded.merge (inside other List.mem_cons_self) tidy linked.1
    have later := linked.2
    rw [merged] at later
    obtain ⟨dag, done, result, all⟩ :=
      ih within (fun more mem => inside more (List.mem_cons_of_mem _ mem)) later
    refine ⟨dag, ?_, result, fun key => ?_⟩
    · rw [SectionsDAG.mergeAll, merged]
      exact done
    · rw [all, keys, or_assoc]
      simp

/-- Merging connected sub-trees of a tree of distinct signed keys. When one contains the genesis
key of the other, both orders succeed with the same DAG, whose keys are those of both and whose
genesis key is the upper of the two; when none does, the merge fails and changes nothing. Sub-trees
that cover the tree give the tree again, merged in any order in which each step is allowed. -/
theorem merge_contained (distinct : whole.Distinct) (contains : whole.Contains part)
    (contains' : whole.Contains other) :
    ((part.hasKey other.genesisKey = true ∨ other.hasKey part.genesisKey = true) →
      ∃ dag, part.merge other = (.ok (), dag) ∧ other.merge part = (.ok (), dag) ∧
        (∀ key, dag.hasKey key = true ↔ part.hasKey key = true ∨ other.hasKey key = true) ∧
        (dag.genesisKey = part.genesisKey ∨ dag.genesisKey = other.genesisKey) ∧
        whole.AncestorOrSelf dag.genesisKey part.genesisKey ∧
        whole.AncestorOrSelf dag.genesisKey other.genesisKey) ∧
    (¬ (part.hasKey other.genesisKey = true ∨ other.hasKey part.genesisKey = true) →
      part.merge other = (.error (.keyNotFound part.genesisKey), part)) ∧
    ∀ parts, (∀ more ∈ parts, whole.Contains more) → part.AllLinked parts → (∀ key, whole.hasKey key = true →
        part.hasKey key = true ∨ ∃ more ∈ parts, more.hasKey key = true) → part.mergeAll parts = (.ok (), whole) := by
  have tidy := distinct.tidy
  have embedded := contains.embedded tidy
  have embedded' := contains'.embedded tidy
  refine ⟨fun linked => ?_, embedded'.merge_apart, fun parts inside linked covered => ?_⟩
  · obtain ⟨dag, merged, within, genesis, keys⟩ := embedded.merge embedded' tidy linked
    have swapped := embedded.merge_comm embedded' tidy linked
    refine ⟨dag, merged, swapped ▸ merged, keys, ?_,
      embedded.genesisKey_above embedded' tidy within keys⟩
    rw [genesis]
    split
    · exact Or.inl rfl
    · exact Or.inr rfl
  · obtain ⟨dag, merged, within, keys⟩ := embedded.mergeAll tidy
      (fun more mem => (inside more mem).embedded tidy) linked
    rw [merged, within.eq_whole tidy fun key known => (keys key).mpr (covered key known)]

/-- The tree of `0 → 1 → 2` and `0 → 3`. -/
def sampleTree : SectionsDAG sampleKeys := sampleChain.attach 0 3 (sampleSig 0 3)

/-- The sub-tree `1 → 2`. -/
def sampleLower : SectionsDAG sampleKeys :=
  (new 1 : SectionsDAG sampleKeys).attach 1 2 (sampleSig 1 2)

/-- The sub-tree `0 → 1` and `0 → 3`. -/
def sampleUpper : SectionsDAG sampleKeys :=
  ((new 0 : SectionsDAG sampleKeys).attach 0 1 (sampleSig 0 1)).attach 0 3 (sampleSig 0 3)

theorem sampleTree_distinct : sampleTree.Distinct := by
  have zero : (new 0 : SectionsDAG sampleKeys).Distinct := .new _
  have one : ((new 0 : SectionsDAG sampleKeys).attach 0 1 (sampleSig 0 1)).Distinct :=
    zero.insert rfl (verifyAndInsert_eq_ok.mpr ⟨by rfl, by rfl, rfl⟩)
  have two : sampleChain.Distinct :=
    one.insert rfl (verifyAndInsert_eq_ok.mpr ⟨by rfl, by rfl, rfl⟩)
  exact two.insert rfl (verifyAndInsert_eq_ok.mpr ⟨by rfl, by rfl, rfl⟩)

theorem sampleTree_contains_sampleLower : sampleTree.Contains sampleLower := by
  have one : sampleTree.Contains (new 1 : SectionsDAG sampleKeys) := .new rfl
  exact one.insert rfl (verifyAndInsert_eq_ok.mpr ⟨by rfl, by rfl, rfl⟩)

theorem sampleTree_contains_sampleUpper : sampleTree.Contains sampleUpper := by
  have zero : sampleTree.Contains (new 0 : SectionsDAG sampleKeys) := .new rfl
  have one : sampleTree.Contains ((new 0 : SectionsDAG sampleKeys).attach 0 1 (sampleSig 0 1)) :=
    zero.insert rfl (verifyAndInsert_eq_ok.mpr ⟨by rfl, by rfl, rfl⟩)
  exact one.insert rfl (verifyAndInsert_eq_ok.mpr ⟨by rfl, by rfl, rfl⟩)

theorem merge_sampleLower_sampleUpper : (∃ dag, sampleLower.merge sampleUpper = (.ok (), dag) ∧
      sampleUpper.merge sampleLower = (.ok (), dag)) ∧
    sampleLower.mergeAll [sampleUpper] = (.ok (), sampleTree) := by
  obtain ⟨linked, -, covering⟩ := merge_contained sampleTree_distinct
    sampleTree_contains_sampleLower sampleTree_contains_sampleUpper
  have joined : sampleLower.hasKey sampleUpper.genesisKey = true ∨
      sampleUpper.hasKey sampleLower.genesisKey = true := Or.inr rfl
  obtain ⟨dag, first, second, -⟩ := linked joined
  refine ⟨⟨dag, first, second⟩, covering [sampleUpper] ?_ ⟨joined, trivial⟩ ?_⟩
  · simpa using sampleTree_contains_sampleUpper
  · intro key known
    have listed : key ∈ sampleTree.keys := sampleTree_distinct.tidy.mem_keys.mpr known
    have keys : sampleTree.keys = [0, 1, 2, 3] := rfl
    rw [keys] at listed
    fin_cases listed
    · exact Or.inr ⟨sampleUpper, by simp, rfl⟩
    · exact Or.inl rfl
    · exact Or.inl rfl
    · exact Or.inr ⟨sampleUpper, by simp, rfl⟩

end SafeNetwork.SectionsDAG

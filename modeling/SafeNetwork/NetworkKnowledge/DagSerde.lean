import SafeNetwork.NetworkKnowledge.DagSubtree

/-!
# The serialised form of the DAG

`SectionsDAG` is serialised as its genesis key and a list of sections, each with its parent key.
The list is made by walking from each leaf up to a key that is listed already; each piece is
turned round. Deserialising inserts the listed sections one by one. When each key has one parent,
every key is listed, after its parent, with its own entry, and deserialising gives the DAG back.
-/

namespace SafeNetwork

open Std Crdt Walk Forest

/-- `Intermediate` — what is handed to the serialiser. -/
structure Intermediate (K : KeyScheme) where
  genesisKey : K.PublicKey
  sections : List (K.PublicKey × SectionInfo K.PublicKey K.Signature)

/-- A serde data format: what is written can be read back. -/
structure SerdeFormat (K : KeyScheme) where
  Bytes : Type
  FormatError : Type
  encode : Intermediate K → Except FormatError Bytes
  decode : Bytes → Except FormatError (Intermediate K)
  roundtrip : ∀ value, ∃ bytes, encode value = .ok bytes ∧ decode bytes = .ok value

/-- Errors of serialising and deserialising a DAG. -/
inductive SerdeError (K : KeyScheme) (FormatError : Type) where
  | format (error : FormatError)
  /-- `D::Error::custom` of an error of the DAG. -/
  | custom (error : Error K.PublicKey)

/-- No key makes two signatures over the same bytes. BLS signatures are unique. -/
def KeyScheme.UniqueSignatures (K : KeyScheme) : Prop :=
  ∀ {key sig sig' bytes}, K.verify key sig bytes = true → K.verify key sig' bytes = true → sig = sig'

theorem KeyScheme.UniqueSignatures.of_verifySig {K : KeyScheme} (unique : K.UniqueSignatures)
    {parentKey key : K.PublicKey} {sig sig' : K.Signature} (verified : K.verifySig parentKey key sig = true)
    (verified' : K.verifySig parentKey key sig' = true) : sig = sig' := by
  unfold KeyScheme.verifySig at verified verified'
  split at verified
  · rename_i bytes serialized
    rw [serialized] at verified'
    exact unique verified verified'
  · cases verified

namespace SectionsDAG

variable {K : KeyScheme} {self whole part dag : SectionsDAG K} {parentKey key : K.PublicKey}
  {node : K.Node} {ancestors : List K.PublicKey} {known : K.PublicKey → Prop}
  {sections later : List (K.PublicKey × SectionInfo K.PublicKey K.Signature)}

/-! ## Serialising -/

/-- The inner loop of `SectionsDAG::serialize`: the sections from a node up to a visited one. -/
def ancestorSections (self : SectionsDAG K) (alreadyVisited : ExtTreeSet K.PublicKey) :
    Nat → K.Node → K.Result (List (K.PublicKey × SectionInfo K.PublicKey K.Signature))
  | 0, _ => .error .diverged
  | bound + 1, node =>
    if alreadyVisited.contains node.value.key then .ok []
    else
      match self.parentNode (K.merkle.hash node) with
      | none => .ok [(self.genesisKey, node.value)]
      | some parent => do
        let ancestors ← self.ancestorSections alreadyVisited bound parent
        .ok ((parent.value.key, node.value) :: ancestors)

/-- The outer loop of `SectionsDAG::serialize`, over the leaves. -/
def leafSections (self : SectionsDAG K) : ExtTreeSet K.PublicKey → List K.Node →
    K.Result (List (K.PublicKey × SectionInfo K.PublicKey K.Signature))
  | _, [] => .ok []
  | alreadyVisited, leaf :: rest => do
    let ancestors ← self.ancestorSections alreadyVisited
      ((K.merkle.allNodes self.dag).length + 1) leaf
    let visited := ancestors.reverse.foldl (fun set entry => set.insert entry.2.key) alreadyVisited
    let sections ← self.leafSections visited rest
    .ok (ancestors.reverse ++ sections)

def serialize (self : SectionsDAG K) (format : SerdeFormat K) :
    Except (SerdeError K format.FormatError) format.Bytes :=
  match self.leafSections ∅ self.nonGenesisLeafNodes with
  | .error error => .error (.custom error)
  | .ok sections =>
    match format.encode ⟨self.genesisKey, sections⟩ with
    | .ok bytes => .ok bytes
    | .error error => .error (.format error)

/-! ## Deserialising -/

/-- Calls of `verify_and_insert` in order, stopping at the first error. -/
def insertSections : SectionsDAG K → List (K.PublicKey × SectionInfo K.PublicKey K.Signature) →
    K.Result (SectionsDAG K)
  | self, [] => .ok self
  | self, (parent, info) :: rest => do
    let dag ← self.verifyAndInsert parent info.key info.sig
    insertSections dag rest

def deserialize (format : SerdeFormat K) (bytes : format.Bytes) :
    Except (SerdeError K format.FormatError) (SectionsDAG K) :=
  match format.decode bytes with
  | .error error => .error (.format error)
  | .ok inter =>
    match insertSections (new inter.genesisKey) inter.sections with
    | .ok dag => .ok dag
    | .error error => .error (.custom error)

/-! ## What decoding can build -/

/-! ## The listed sections -/

def ParentsFirst (known : K.PublicKey → Prop) :
    List (K.PublicKey × SectionInfo K.PublicKey K.Signature) → Prop
  | [] => True
  | entry :: rest => known entry.1 ∧ ParentsFirst (fun key => known key ∨ entry.2.key = key) rest

theorem ParentsFirst.append (first : ParentsFirst known sections)
    (second : ParentsFirst (fun key => known key ∨ ∃ entry ∈ sections, entry.2.key = key) later) :
    ParentsFirst known (sections ++ later) := by
  induction sections generalizing known with
  | nil => simpa [ParentsFirst] using second
  | cons entry rest ih =>
    refine ⟨first.1, ih first.2 ?_⟩
    simpa only [List.mem_cons, exists_eq_or_imp, or_assoc] using second

theorem mem_foldl_insert {alreadyVisited : ExtTreeSet K.PublicKey} :
    key ∈ sections.foldl (fun set entry => set.insert entry.2.key) alreadyVisited ↔
      key ∈ alreadyVisited ∨ ∃ entry ∈ sections, entry.2.key = key := by
  induction sections generalizing alreadyVisited with
  | nil => simp
  | cons entry rest ih =>
    rw [List.foldl_cons, ih, ExtTreeSet.mem_insert, Std.compare_eq_iff_eq]
    simp only [List.mem_cons, exists_eq_or_imp]
    tauto

def ListsEntries (whole : SectionsDAG K)
    (sections : List (K.PublicKey × SectionInfo K.PublicKey K.Signature)) : Prop :=
  ∀ entry ∈ sections, whole.entryOf entry.2.key = some (entry.1, entry.2.sig)

theorem Embedded.insertSections (embedded : part.Embedded whole) (tidy : whole.Tidy)
    (lists : whole.ListsEntries sections) (ordered : ParentsFirst (fun key => part.hasKey key = true) sections) :
    ∃ dag, part.insertSections sections = .ok dag ∧ dag.Embedded whole ∧
      dag.genesisKey = part.genesisKey ∧
      ∀ key, (part.hasKey key = true ∨ ∃ entry ∈ sections, entry.2.key = key) → dag.hasKey key = true := by
  induction sections generalizing part with
  | nil => exact ⟨part, rfl, embedded, rfl, by simp⟩
  | cons entry rest ih =>
    have edge := lists entry List.mem_cons_self
    obtain ⟨-, -, valid⟩ := tidy.entryOf_signed edge
    have inserted : part.verifyAndInsert entry.1 entry.2.key entry.2.sig =
        .ok (part.attach entry.1 entry.2.key entry.2.sig) :=
      verifyAndInsert_eq_ok.mpr ⟨valid, ordered.1, rfl⟩
    have keys : ∀ key, (part.attach entry.1 entry.2.key entry.2.sig).hasKey key = true ↔
        part.hasKey key = true ∨ entry.2.key = key := fun key => hasKey_attach.trans or_comm
    obtain ⟨dag, done, within, genesis, all⟩ := ih (embedded.attach tidy edge ordered.1)
      (fun later mem => lists later (List.mem_cons_of_mem _ mem)) (by simpa only [keys] using ordered.2)
    refine ⟨dag, ?_, within, genesis, fun key listed => all key ?_⟩
    · simp [SectionsDAG.insertSections, inserted, done, bind, Except.bind]
    · rw [keys, or_assoc]
      simpa only [List.mem_cons, exists_eq_or_imp] using listed

namespace Tidy

theorem ancestorSections_ok (tidy : self.Tidy) (alreadyVisited : ExtTreeSet K.PublicKey)
    (path : Path self.parentOf key ancestors) (found : (K.merkle.visible self.dag)[K.merkle.hash node]? = some node)
    (named : node.value.key = key) (bound : Nat) (enough : ancestors.length ≤ bound) :
    ∃ sections, self.ancestorSections alreadyVisited bound node = .ok sections ∧
      self.ListsEntries sections ∧
      ParentsFirst (fun key => key = self.genesisKey ∨ key ∈ alreadyVisited) sections.reverse ∧
      (key ∈ alreadyVisited ∨ ∃ entry ∈ sections, entry.2.key = key) := by
  obtain ⟨above, entry, -⟩ := tidy.entryOf_of_visible found
  induction path generalizing node above bound with
  | @stop key ends => simp [parentOf, ← named, entry] at ends
  | @step key parent ancestors goes _ ih =>
    obtain ⟨bound, rfl⟩ := Nat.exists_eq_succ_of_ne_zero (Nat.ne_zero_of_lt enough)
    by_cases visited : alreadyVisited.contains node.value.key = true
    · refine ⟨[], by simp [SectionsDAG.ancestorSections, visited], by simp [ListsEntries],
        trivial, Or.inl ?_⟩
      rwa [← named, ← ExtTreeSet.contains_iff_mem]
    · obtain ⟨root, genesis⟩ | ⟨parentNode, upper, stored, next⟩ := tidy.parentNode_eq found
      · obtain rfl : above = self.genesisKey := by simpa [parentOf, entry] using genesis
        refine ⟨[(self.genesisKey, node.value)], ?_, ?_, ⟨Or.inl rfl, trivial⟩, ?_⟩
        · simp [SectionsDAG.ancestorSections, visited, root]
        · simpa [ListsEntries] using entry
        · exact Or.inr ⟨_, List.mem_singleton_self _, named⟩
      · obtain rfl : above = parentNode.value.key := by simpa [parentOf, entry] using next
        rw [named, goes, Option.some.injEq] at next
        obtain ⟨top, entry', -⟩ := tidy.entryOf_of_visible stored
        obtain ⟨sections, listed, lists, ordered, passed⟩ :=
          ih stored next.symm bound (by simpa using enough) top entry'
        refine ⟨(parentNode.value.key, node.value) :: sections, ?_, ?_, ?_, ?_⟩
        · simp [SectionsDAG.ancestorSections, visited, upper, listed, bind, Except.bind]
        · rintro later mem
          obtain rfl | mem := List.mem_cons.mp mem
          · exact entry
          · exact lists later mem
        · rw [List.reverse_cons]
          refine ordered.append ⟨?_, trivial⟩
          rw [← next]
          simpa [or_assoc] using Or.inr passed
        · exact Or.inr ⟨_, List.mem_cons_self, named⟩

theorem leafSections_ok (tidy : self.Tidy) (alreadyVisited : ExtTreeSet K.PublicKey) {leaves : List K.Node}
    (found : ∀ leaf ∈ leaves, (K.merkle.visible self.dag)[K.merkle.hash leaf]? = some leaf) :
    ∃ sections, self.leafSections alreadyVisited leaves = .ok sections ∧
      self.ListsEntries sections ∧
      ParentsFirst (fun key => key = self.genesisKey ∨ key ∈ alreadyVisited) sections ∧
      ∀ leaf ∈ leaves, leaf.value.key ∈ alreadyVisited ∨ ∃ entry ∈ sections, entry.2.key = leaf.value.key := by
  induction leaves generalizing alreadyVisited with
  | nil => exact ⟨[], rfl, by simp [ListsEntries], trivial, by simp⟩
  | cons leaf rest ih =>
    obtain ⟨ancestors, path⟩ := tidy.ends leaf.value.key
    have enough : ancestors.length ≤ (K.merkle.allNodes self.dag).length + 1 := by
      have bounded := WellFormed.path_length_le path
      have nodes := tidy.size_hashes_le
      omega
    obtain ⟨piece, listed, lists, ordered, passed⟩ := tidy.ancestorSections_ok alreadyVisited
      path (found leaf List.mem_cons_self) rfl _ enough
    have visited : ∀ key, key ∈ piece.reverse.foldl (fun set entry => set.insert entry.2.key)
        alreadyVisited ↔ key ∈ alreadyVisited ∨ ∃ entry ∈ piece.reverse, entry.2.key = key :=
      fun key => mem_foldl_insert
    obtain ⟨sections, listed', lists', ordered', passed'⟩ :=
      ih (piece.reverse.foldl (fun set entry => set.insert entry.2.key) alreadyVisited)
        fun leaf mem => found leaf (List.mem_cons_of_mem _ mem)
    refine ⟨piece.reverse ++ sections, ?_, ?_, ordered.append ?_, ?_⟩
    · simp only [SectionsDAG.leafSections, listed, listed', bind, Except.bind]
    · intro entry mem
      obtain mem | mem := List.mem_append.mp mem
      · exact lists entry (List.mem_reverse.mp mem)
      · exact lists' entry mem
    · simpa only [visited, or_assoc] using ordered'
    · intro leaf' mem
      obtain rfl | mem := List.mem_cons.mp mem
      · obtain old | ⟨entry, inside, same⟩ := passed
        · exact Or.inl old
        · exact Or.inr ⟨entry, List.mem_append_left _ (List.mem_reverse.mpr inside), same⟩
      · obtain before | ⟨entry, inside, same⟩ := passed' leaf' mem
        · obtain old | ⟨entry, inside, same⟩ := (visited _).mp before
          · exact Or.inl old
          · exact Or.inr ⟨entry, List.mem_append_left _ inside, same⟩
        · exact Or.inr ⟨entry, List.mem_append_right _ inside, same⟩

theorem serialize_roundtrip (tidy : self.Tidy) (format : SerdeFormat K) :
    ∃ bytes, self.serialize format = .ok bytes ∧ deserialize format bytes = .ok self := by
  have shown : ∀ leaf ∈ self.nonGenesisLeafNodes,
      (K.merkle.visible self.dag)[K.merkle.hash leaf]? = some leaf := by
    intro leaf mem
    obtain ⟨hash, found, -⟩ := tidy.grown.mem_read.mp mem
    rwa [tidy.grown.keyed found]
  obtain ⟨sections, listed, lists, ordered, passed⟩ :=
    tidy.leafSections_ok ∅ shown
  have genesis : ∀ key, (new self.genesisKey : SectionsDAG K).hasKey key = true ↔
      key = self.genesisKey := by simp [hasKey, new]
  obtain ⟨dag, inserted, within, same, all⟩ :=
    (embedded_new (hasKey_iff.mpr (Or.inl rfl))).insertSections tidy lists
      (by simpa only [genesis, ExtTreeSet.not_mem_empty, or_false] using ordered)
  obtain ⟨bytes, encoded, decoded⟩ := format.roundtrip ⟨self.genesisKey, sections⟩
  refine ⟨bytes, by simp [SectionsDAG.serialize, listed, encoded], ?_⟩
  -- Every key is above a leaf, and the leaves are listed.
  have whole : dag = self := by
    refine within.eq_whole tidy fun key known => ?_
    obtain ⟨leaf, isLeaf, below⟩ := exists_leaf tidy.ends self.keySet_finite known
    have leaf_known : dag.hasKey leaf = true := by
      by_cases root : leaf = self.genesisKey
      · exact all leaf (Or.inl ((genesis leaf).mpr root))
      · obtain ⟨info, mem, rfl⟩ := tidy.mem_nonGenesisLeafSections.mpr ⟨root, isLeaf⟩
        obtain ⟨node, read, rfl⟩ := List.mem_map.mp mem
        obtain visited | entry := passed node read
        · simp at visited
        · exact all _ (Or.inr entry)
    refine within.view.mem_of_above tidy.ends leaf_known below ?_
    rw [same]
    exact tidy.view.root_above tidy.ends known
  simp [deserialize, decoded, inserted, whole]

end Tidy

/-! ## DAGs with one parent per key -/

/-- A sequence of successful insertions in which each key has a single parent and none is the
genesis key builds a tidy DAG whose entries are insertions. -/
theorem tidy_of_insertSections (unique : K.UniqueSignatures) (tidy : part.Tidy)
    {calls : List (K.PublicKey × SectionInfo K.PublicKey K.Signature)}
    (single : ∀ call ∈ calls, ∀ call' ∈ calls, call.2.key = call'.2.key → call.1 = call'.1)
    (proper : ∀ call ∈ calls, call.2.key ≠ part.genesisKey) (within : ∀ call ∈ sections, call ∈ calls)
    (entries : ∀ {key parentKey sig}, part.entryOf key = some (parentKey, sig) → (parentKey, ⟨key, sig⟩) ∈ calls)
    (built : part.insertSections sections = .ok dag) : dag.Tidy := by
  induction sections generalizing part with
  | nil =>
    obtain rfl := Except.ok.inj built
    exact tidy
  | cons call rest ih =>
    obtain ⟨parentKey, key, sig⟩ := call
    cases inserted : part.verifyAndInsert parentKey key sig with
    | error error => simp [insertSections, inserted, bind, Except.bind] at built
    | ok next =>
      simp only [insertSections, inserted, bind, Except.bind] at built
      obtain ⟨valid, known, rfl⟩ := verifyAndInsert_eq_ok.mp inserted
      have mem := within _ List.mem_cons_self
      have later : ∀ call ∈ rest, call ∈ calls := fun call mem =>
        within call (List.mem_cons_of_mem _ mem)
      cases fresh : part.hasKey key with
      | true =>
        -- The key has been inserted before, under the same parent and so with the same signature.
        have some := (tidy.hasKey_iff_entryOf.mp fresh).resolve_left (proper _ mem)
        obtain ⟨⟨parentKey', sig'⟩, entry⟩ := Option.isSome_iff_exists.mp some
        obtain rfl : parentKey' = parentKey := single _ (entries entry) _ mem rfl
        have verified := (tidy.entryOf_signed entry).2.2
        obtain rfl := unique.of_verifySig verified valid
        rw [tidy.attach_known entry] at built
        exact ih tidy proper later entries built
      | false =>
        refine ih (tidy.attach_new valid known fresh) proper later ?_ built
        intro other above sig' entry
        rw [tidy.entryOf_attach valid known, if_neg (proper _ mem)] at entry
        by_cases same : other = key
        · subst same
          simp only [Function.update_self, Option.some.injEq, Prod.mk.injEq] at entry
          obtain ⟨rfl, rfl⟩ := entry
          exact mem
        · rw [Function.update_of_ne same] at entry
          exact entries entry

/-- Whatever the branching, a DAG built by successful insertions, in which each key is inserted
under a single parent and none is the genesis key, is serialised and read back. -/
theorem deserialize_serialize (unique : K.UniqueSignatures) (format : SerdeFormat K) (genesisKey : K.PublicKey)
    (calls : List (K.PublicKey × SectionInfo K.PublicKey K.Signature))
    (built : (new genesisKey).insertSections calls = .ok self)
    (single : ∀ call ∈ calls, ∀ call' ∈ calls, call.2.key = call'.2.key → call.1 = call'.1)
    (proper : ∀ call ∈ calls, call.2.key ≠ genesisKey) :
    ∃ bytes, self.serialize format = .ok bytes ∧ deserialize format bytes = .ok self := by
  have tidy := tidy_of_insertSections unique (tidy_new genesisKey) single proper (fun _ => id)
    (fun entry => by rw [entryOf_unknown (by simp [new])] at entry; cases entry) built
  exact tidy.serialize_roundtrip format

def sampleFormat : SerdeFormat sampleKeys where
  Bytes := Intermediate sampleKeys
  FormatError := Empty
  encode := .ok
  decode := .ok
  roundtrip := fun value => ⟨value, rfl, rfl⟩

def sampleCalls : List (sampleKeys.PublicKey × SectionInfo sampleKeys.PublicKey sampleKeys.Signature) :=
  [(0, ⟨1, sampleSig 0 1⟩), (1, ⟨2, sampleSig 1 2⟩), (0, ⟨1, sampleSig 0 1⟩), (0, ⟨3, sampleSig 0 3⟩)]

theorem sampleKeys_uniqueSignatures : sampleKeys.UniqueSignatures := by
  intro key sig sig' bytes verified verified'
  simp only [Bool.and_eq_true, beq_iff_eq] at verified verified'
  exact Prod.ext (verified.1.trans verified'.1.symm) (verified.2.trans verified'.2.symm)

theorem deserialize_serialize_sampleTree : ∃ bytes, sampleTree.serialize sampleFormat = .ok bytes ∧
      deserialize sampleFormat bytes = .ok sampleTree :=
  deserialize_serialize sampleKeys_uniqueSignatures sampleFormat 0 sampleCalls rfl
    (by decide) (by decide)

end SectionsDAG

end SafeNetwork

import SafeNetwork.NetworkKnowledge.DagInvariant

/-!
# Merging as a sequence of insertions

The work list of `SectionsDAG::merge` visits the nodes of the merged DAG in an order that does
not depend on the DAG they go into: each node before the nodes below it. So a merge is a
sequence of insertions (`insertAll`) of entries that are known beforehand (`allVisits`), and
the bound of its loop is the number of these entries. The insertions below an entry always
succeed; only an entry of the work list's start can fail, when the node that a first-generation
key leads to is not signed by the genesis key of the merged DAG.
-/

namespace SafeNetwork.SectionsDAG

open Std Crdt

variable {K : KeyScheme} {self other dag : SectionsDAG K}
  {entry child : K.PublicKey × K.Node} {entries rest : List (K.PublicKey × K.Node)} {key : K.PublicKey}
  {node : K.Node} {depth : Nat} {top : K.PublicKey × K.Node}

/-! ## Sequences of insertions -/

def insertAll : SectionsDAG K → List (K.PublicKey × K.Node) → K.Result Unit × SectionsDAG K
  | self, [] => (.ok (), self)
  | self, entry :: rest =>
    match self.insertNode entry.1 entry.2 with
    | .ok dag => insertAll dag rest
    | .error error => (.error error, self)

theorem insertAll_cons_ok (inserted : self.insertNode entry.1 entry.2 = .ok dag) :
    self.insertAll (entry :: rest) = dag.insertAll rest := by
  simp [insertAll, inserted]

theorem insertAll_append_ok (first : (self.insertAll entries).1 = .ok ()) :
    self.insertAll (entries ++ rest) = (self.insertAll entries).2.insertAll rest := by
  induction entries generalizing self with
  | nil => rfl
  | cons entry entries ih =>
    cases inserted : self.insertNode entry.1 entry.2 with
    | error error => simp [insertAll, inserted] at first
    | ok dag =>
      rw [List.cons_append, insertAll_cons_ok inserted, insertAll_cons_ok inserted]
      rw [insertAll_cons_ok inserted] at first
      exact ih first

theorem insertAll_append_error (first : (self.insertAll entries).1 ≠ .ok ()) :
    (self.insertAll (entries ++ rest)).1 ≠ .ok () := by
  induction entries generalizing self with
  | nil => exact absurd rfl first
  | cons entry entries ih =>
    cases inserted : self.insertNode entry.1 entry.2 with
    | error error => simp [insertAll, inserted]
    | ok dag =>
      rw [List.cons_append, insertAll_cons_ok inserted]
      rw [insertAll_cons_ok inserted] at first
      exact ih first

/-- What holds of a DAG and is kept by each successful insertion holds after any number of
them, also when one of them fails. -/
theorem insertAll_invariant {motive : SectionsDAG K → Prop} (initial : motive self)
    (step : ∀ {self dag : SectionsDAG K} {entry}, motive self → entry ∈ entries →
      self.insertNode entry.1 entry.2 = .ok dag → motive dag) : motive (self.insertAll entries).2 := by
  induction entries generalizing self with
  | nil => exact initial
  | cons entry rest ih =>
    cases inserted : self.insertNode entry.1 entry.2 with
    | error error => simpa [insertAll, inserted] using initial
    | ok dag =>
      rw [insertAll_cons_ok inserted]
      exact ih (step initial List.mem_cons_self inserted) fun held mem done =>
        step held (List.mem_cons_of_mem entry mem) done

theorem Reachable.insertAll (reachable : self.Reachable) : (self.insertAll entries).2.Reachable :=
  insertAll_invariant reachable fun held _ inserted => held.insert inserted

theorem insertAll_genesisKey : (self.insertAll entries).2.genesisKey = self.genesisKey := by
  apply insertAll_invariant (motive := fun dag => dag.genesisKey = self.genesisKey) rfl
  intro before after entry held _ inserted
  obtain ⟨-, -, rfl⟩ := verifyAndInsert_eq_ok.mp inserted
  exact held

theorem hasKey_insertAll (known : self.hasKey key = true) : (self.insertAll entries).2.hasKey key = true := by
  apply insertAll_invariant (motive := fun dag => dag.hasKey key = true) known
  intro before after entry held _ inserted
  obtain ⟨-, -, rfl⟩ := verifyAndInsert_eq_ok.mp inserted
  exact hasKey_attach.mpr (Or.inr held)

theorem hasKey_of_insertAll_ok (done : (self.insertAll entries).1 = .ok ())
    (mem : entry ∈ entries) : (self.insertAll entries).2.hasKey entry.2.value.key = true := by
  induction entries generalizing self with
  | nil => simp at mem
  | cons first rest ih =>
    cases inserted : self.insertNode first.1 first.2 with
    | error error => simp [insertAll, inserted] at done
    | ok dag =>
      rw [insertAll_cons_ok inserted] at done ⊢
      obtain rfl | later := List.mem_cons.mp mem
      · obtain ⟨-, -, rfl⟩ := verifyAndInsert_eq_ok.mp inserted
        exact hasKey_insertAll (hasKey_attach.mpr (Or.inl rfl))
      · exact ih done later

/-! ## The order of the visits -/

def Shows (other : SectionsDAG K) (entry : K.PublicKey × K.Node) : Prop :=
  (K.merkle.visible other.dag)[K.merkle.hash entry.2]? = some entry.2

section

variable (wf : other.WellFormed)
include wf

/-- A node's entry among the children of another: the child hangs under that node, and that
node's key signed it. -/
theorem WellFormed.mem_childEntries (mem : child ∈ other.childEntries node) :
    other.Shows child ∧ child.1 = node.value.key ∧ K.merkle.hash node ∈ child.2.children := by
  obtain ⟨below, listed, rfl⟩ := List.mem_map.mp mem
  obtain ⟨hash, found, named⟩ := wf.grown.mem_parents.mp listed
  obtain rfl := wf.grown.keyed found
  exact ⟨found, rfl, named⟩

theorem WellFormed.childEntries_complete {below : K.Node}
    (shown : (K.merkle.visible other.dag)[K.merkle.hash below]? = some below)
    (named : K.merkle.hash node ∈ below.children) : (node.value.key, below) ∈ other.childEntries node :=
  List.mem_map.mpr ⟨below, wf.grown.mem_parents.mpr ⟨_, shown, named⟩, rfl⟩

theorem WellFormed.visits_succ {rank : K.Hash → Nat}
    (ranking : K.merkle.Ranking other.dag rank) (depth : Nat) (shown : other.Shows entry)
    (deep : (K.merkle.visible other.dag).size ≤ depth + rank (K.merkle.hash entry.2)) :
    other.visits (depth + 1) entry = other.visits depth entry := by
  induction depth generalizing entry with
  | zero =>
    have mem : K.merkle.hash entry.2 ∈ K.merkle.visible other.dag := by
      rw [ExtTreeMap.mem_iff_isSome_getElem?, shown]
      rfl
    have bound := ranking.bound mem
    omega
  | succ depth ih =>
    -- A child ranks above its parent, so that one step less is deep enough for it.
    have below : ∀ child ∈ (other.childEntries entry.2).reverse,
        other.visits (depth + 1) child = other.visits depth child := by
      intro child mem
      obtain ⟨found, -, named⟩ := wf.mem_childEntries (List.mem_reverse.mp mem)
      have above := ranking.child found named
      exact ih found (by omega)
    rw [visits, visits, List.flatMap_congr below]

/-- At the depth of all nodes, an entry is visited before everything below it, and everything
below it is visited. -/
theorem WellFormed.visits_eq (shown : other.Shows entry) :
    other.visits (K.merkle.allNodes other.dag).length entry =
      entry :: other.allVisits (other.childEntries entry.2).reverse := by
  obtain ⟨rank, ranking⟩ := wf.grown.exists_ranking
  rw [← wf.visits_succ ranking _ shown (by rw [wf.grown.length_allNodes]; omega)]
  rfl

theorem WellFormed.allVisits_cons (shown : other.Shows entry) :
    other.allVisits (entry :: rest) = entry :: other.allVisits ((other.childEntries entry.2).reverse ++ rest) := by
  simp only [allVisits, List.flatMap_cons, List.flatMap_append]
  rw [wf.visits_eq shown]
  rfl

end

theorem visits_child (visited : entry ∈ other.visits depth top)
    (below : child ∈ other.childEntries entry.2) : child ∈ other.visits (depth + 1) top := by
  induction depth generalizing top with
  | zero => simp [visits] at visited
  | succ depth ih =>
    rw [visits, List.mem_cons, List.mem_flatMap] at visited ⊢
    obtain rfl | ⟨next, mem, visited⟩ := visited
    · exact Or.inr ⟨child, List.mem_reverse.mpr below, List.mem_cons_self⟩
    · exact Or.inr ⟨next, mem, ih visited⟩

theorem WellFormed.allVisits_child (wf : other.WellFormed) (shown : ∀ entry ∈ entries, other.Shows entry)
    (visited : entry ∈ other.allVisits entries) (below : child ∈ other.childEntries entry.2) :
    child ∈ other.allVisits entries := by
  obtain ⟨rank, ranking⟩ := wf.grown.exists_ranking
  obtain ⟨top, mem, visited⟩ := List.mem_flatMap.mp visited
  refine List.mem_flatMap.mpr ⟨top, mem, ?_⟩
  rw [← wf.visits_succ ranking _ (shown top mem) (by rw [wf.grown.length_allNodes]; omega)]
  exact visits_child visited below

/-- What holds of the entries to start with and passes from an entry to its children holds of all
visited entries. -/
theorem visits_invariant {motive : K.PublicKey × K.Node → Prop}
    (step : ∀ {entry child}, motive entry → child ∈ other.childEntries entry.2 → motive child) (initial : motive top)
    (visited : entry ∈ other.visits depth top) : motive entry := by
  induction depth generalizing top with
  | zero => simp [visits] at visited
  | succ depth ih =>
    rw [visits, List.mem_cons, List.mem_flatMap] at visited
    obtain rfl | ⟨next, mem, visited⟩ := visited
    · exact initial
    · exact ih (step initial (List.mem_reverse.mp mem)) visited

theorem WellFormed.mergeLoop_eq (wf : other.WellFormed) (bound : Nat) (shown : ∀ entry ∈ entries, other.Shows entry)
    (enough : (other.allVisits entries).length = bound) :
    other.mergeLoop bound entries self = self.insertAll (other.allVisits entries) := by
  induction bound generalizing entries self with
  | zero =>
    cases entries with
    | nil => rfl
    | cons entry rest =>
      rw [wf.allVisits_cons (shown entry List.mem_cons_self)] at enough
      simp at enough
  | succ bound ih =>
    cases entries with
    | nil => simp [allVisits] at enough
    | cons entry rest =>
      have top := shown entry List.mem_cons_self
      rw [wf.allVisits_cons top] at enough ⊢
      have next : ∀ other' ∈ (other.childEntries entry.2).reverse ++ rest, other.Shows other' := by
        intro later mem
        obtain mem | mem := List.mem_append.mp mem
        · exact (wf.mem_childEntries (List.mem_reverse.mp mem)).1
        · exact shown later (List.mem_cons_of_mem entry mem)
      cases inserted : self.insertNode entry.1 entry.2 with
      | error error => simp [mergeLoop, insertAll, inserted]
      | ok dag =>
        rw [insertAll_cons_ok inserted, ← ih next (by simpa using enough)]
        simp [mergeLoop, inserted]

theorem WellFormed.rootEntries_ok (wf : other.WellFormed) : ∃ entries, other.rootEntries = .ok entries ∧
      ∀ entry, entry ∈ entries ↔ entry.1 = other.genesisKey ∧
        ∃ key ∈ other.dagRoot, other.getNode key = .ok entry.2 := by
  have total : ∀ keys : List K.PublicKey, (∀ key ∈ keys, key ∈ other.dagRoot) →
      ∃ entries, (keys.mapM fun key => do
          let node ← other.getNode key
          pure (other.genesisKey, node) : K.Result _) = .ok entries ∧
        ∀ entry, entry ∈ entries ↔ entry.1 = other.genesisKey ∧
          ∃ key ∈ keys, other.getNode key = .ok entry.2 := by
    intro keys
    induction keys with
    | nil => exact fun _ => ⟨[], rfl, by simp⟩
    | cons key keys ih =>
      intro inside
      obtain ⟨later, listed, members⟩ := ih fun other mem => inside other (List.mem_cons_of_mem _ mem)
      obtain ⟨hash, node, lookup, found, -⟩ :=
        wf.exists_node (wf.root_known (inside key List.mem_cons_self))
      have first := wf.getNode_eq_ok.mpr ⟨hash, lookup, found⟩
      refine ⟨(other.genesisKey, node) :: later, ?_, ?_⟩
      · rw [List.mapM_cons, listed, first]
        rfl
      · intro entry
        rw [List.mem_cons, members entry]
        simp only [List.mem_cons, exists_eq_or_imp, first, Except.ok.injEq]
        constructor
        · rintro (rfl | ⟨genesis, key', mem, found⟩)
          · exact ⟨rfl, Or.inl rfl⟩
          · exact ⟨genesis, Or.inr ⟨key', mem, found⟩⟩
        · rintro ⟨genesis, same | ⟨key', mem, found⟩⟩
          · exact Or.inl (Prod.ext genesis same.symm)
          · exact Or.inr ⟨genesis, key', mem, found⟩
  obtain ⟨entries, listed, members⟩ := total other.dagRoot.toList fun key mem =>
    ExtTreeSet.mem_toList.mp mem
  refine ⟨entries.reverse, ?_, ?_⟩
  · rw [rootEntries, listed]
    rfl
  · intro entry
    rw [List.mem_reverse, members]
    simp only [ExtTreeSet.mem_toList]

theorem WellFormed.shows_of_getNode (wf : other.WellFormed) (found : other.getNode key = .ok entry.2) : other.Shows entry := by
  obtain ⟨hash, -, shown⟩ := wf.getNode_eq_ok.mp found
  obtain rfl := wf.grown.keyed shown
  exact shown

theorem WellFormed.mergeInto_eq (wf : other.WellFormed) (listed : other.rootEntries = .ok entries) :
    self.mergeInto other = self.insertAll (other.allVisits entries) := by
  obtain ⟨roots, same, members⟩ := wf.rootEntries_ok
  obtain rfl : roots = entries := Except.ok.inj (same.symm.trans listed)
  rw [mergeInto, listed]
  refine wf.mergeLoop_eq _ ?_ rfl
  intro entry mem
  obtain ⟨-, key, -, found⟩ := (members entry).mp mem
  exact wf.shows_of_getNode found

/-! ## When a merge succeeds -/

/-- The node that each first-generation key leads to is signed by the genesis key. It may not
be: a key inserted again under another parent leads to the later node. -/
def RootsSigned (other : SectionsDAG K) : Prop :=
  ∀ key ∈ other.dagRoot, ∀ node, other.getNode key = .ok node →
    K.verifySig other.genesisKey node.value.key node.value.sig = true

/-- An entry that an insertion into `self` accepts. -/
def Accepts (self : SectionsDAG K) (entry : K.PublicKey × K.Node) : Prop :=
  self.hasKey entry.1 = true ∧ K.verifySig entry.1 entry.2.value.key entry.2.value.sig = true

theorem insertNode_ok_iff : (∃ dag, self.insertNode entry.1 entry.2 = .ok dag) ↔ self.Accepts entry := by
  simp only [insertNode, verifyAndInsert_eq_ok, Accepts]
  constructor
  · rintro ⟨dag, valid, known, -⟩
    exact ⟨known, valid⟩
  · rintro ⟨known, valid⟩
    exact ⟨_, valid, known, rfl⟩

theorem WellFormed.childEntries_signed (wf : other.WellFormed) (shown : other.Shows entry)
    (mem : child ∈ other.childEntries entry.2) : K.verifySig child.1 child.2.value.key child.2.value.sig = true := by
  obtain ⟨found, named, below⟩ := wf.mem_childEntries mem
  obtain ⟨parentKey, parent, verified⟩ := wf.signed found
  obtain ⟨root, -⟩ | ⟨hash, above, one, stored, rfl, -⟩ := parent
  · simp [root] at below
  · obtain rfl : hash = K.merkle.hash entry.2 := by simpa [one] using below
    obtain rfl : above = entry.2 := Option.some.inj (stored.symm.trans shown)
    rw [named]
    exact verified

theorem WellFormed.insertAll_visits (wf : other.WellFormed) (depth : Nat)
    (accepted : ∀ entry ∈ entries, other.Shows entry ∧ self.Accepts entry) :
    (self.insertAll (entries.flatMap (other.visits depth))).1 = .ok () := by
  induction depth generalizing self entries with
  | zero =>
    have none : entries.flatMap (other.visits 0) = [] := by simp [visits]
    rw [none]
    rfl
  | succ depth deeper =>
    induction entries generalizing self with
    | nil => rfl
    | cons entry rest later =>
      obtain ⟨shown, accept⟩ := accepted entry List.mem_cons_self
      obtain ⟨dag, inserted⟩ := insertNode_ok_iff.mpr accept
      obtain ⟨-, -, rfl⟩ := verifyAndInsert_eq_ok.mp inserted
      have below : ((self.attach entry.1 entry.2.value.key entry.2.value.sig).insertAll
          ((other.childEntries entry.2).reverse.flatMap (other.visits depth))).1 = .ok () := by
        apply deeper
        intro child mem
        have mem := List.mem_reverse.mp mem
        obtain ⟨found, named, -⟩ := wf.mem_childEntries mem
        refine ⟨found, ?_, wf.childEntries_signed shown mem⟩
        exact hasKey_attach.mpr (Or.inl named.symm)
      rw [List.flatMap_cons, visits, List.cons_append, insertAll_cons_ok inserted,
        insertAll_append_ok below]
      apply later
      intro next mem
      obtain ⟨found, known, signed⟩ := accepted next (List.mem_cons_of_mem entry mem)
      exact ⟨found, hasKey_insertAll (hasKey_attach.mpr (Or.inr known)), signed⟩

/-- Entries under one known key are inserted with all below them exactly when that key signed
each of them. -/
theorem WellFormed.insertAll_allVisits_iff (wf : other.WellFormed) {parentKey : K.PublicKey}
    (known : self.hasKey parentKey = true) (shown : ∀ entry ∈ entries, other.Shows entry ∧ entry.1 = parentKey) :
    (self.insertAll (other.allVisits entries)).1 = .ok () ↔
      ∀ entry ∈ entries, K.verifySig parentKey entry.2.value.key entry.2.value.sig = true := by
  constructor
  · intro done
    induction entries generalizing self with
    | nil => simp
    | cons entry rest ih =>
      obtain ⟨found, rfl⟩ := shown entry List.mem_cons_self
      rw [allVisits, List.flatMap_cons] at done
      have first : (self.insertAll (other.visits (K.merkle.allNodes other.dag).length entry)).1 =
          .ok () := by
        by_contra failed
        exact insertAll_append_error failed done
      rw [insertAll_append_ok first] at done
      have others := ih (hasKey_insertAll known)
        (fun next mem => shown next (List.mem_cons_of_mem entry mem)) done
      intro next mem
      obtain rfl | mem := List.mem_cons.mp mem
      · rw [wf.visits_eq found] at first
        cases inserted : self.insertNode next.1 next.2 with
        | error error => simp [insertAll, inserted] at first
        | ok dag => exact (verifyAndInsert_eq_ok.mp inserted).1
      · exact others next mem
  · intro signed
    apply wf.insertAll_visits
    intro entry mem
    obtain ⟨found, rfl⟩ := shown entry mem
    exact ⟨found, known, signed entry mem⟩

theorem WellFormed.mergeInto_ok_iff (wf : other.WellFormed) (known : self.hasKey other.genesisKey = true) :
    (self.mergeInto other).1 = .ok () ↔ other.RootsSigned := by
  obtain ⟨entries, listed, members⟩ := wf.rootEntries_ok
  have shown : ∀ entry ∈ entries, other.Shows entry ∧ entry.1 = other.genesisKey := by
    intro entry mem
    obtain ⟨genesis, key, -, found⟩ := (members entry).mp mem
    exact ⟨wf.shows_of_getNode found, genesis⟩
  rw [wf.mergeInto_eq listed, wf.insertAll_allVisits_iff known shown]
  constructor
  · intro signed key mem node found
    exact signed (other.genesisKey, node) ((members _).mpr ⟨rfl, key, mem, found⟩)
  · intro signed entry mem
    obtain ⟨-, key, root, found⟩ := (members entry).mp mem
    exact signed key root entry.2 found

/-- The two DAGs fit: one contains the other's genesis key, and the lower one's first generation
is signed. -/
def MergesWith (self other : SectionsDAG K) : Prop :=
  if self.hasKey other.genesisKey then other.RootsSigned
  else other.hasKey self.genesisKey = true ∧ self.RootsSigned

theorem WellFormed.merge_ok_iff (wf : self.WellFormed) (wf' : other.WellFormed) (verified : other.selfVerify = true) :
    (self.merge other).1 = .ok () ↔ self.MergesWith other := by
  unfold merge MergesWith
  simp only [verified, Bool.not_true, Bool.false_eq_true, ↓reduceIte]
  by_cases below : self.hasKey other.genesisKey = true
  · simp only [below, ↓reduceIte]
    exact wf'.mergeInto_ok_iff below
  · by_cases above : other.hasKey self.genesisKey = true
    · simp only [below, above, ↓reduceIte, true_and]
      exact wf.mergeInto_ok_iff above
    · simp [below, above]

theorem WellFormed.mergeInto_genesisKey (wf : other.WellFormed) :
    (self.mergeInto other).2.genesisKey = self.genesisKey := by
  obtain ⟨entries, listed, -⟩ := wf.rootEntries_ok
  rw [wf.mergeInto_eq listed, insertAll_genesisKey]

/-- A merge keeps the genesis key, unless the other DAG has it and has itself an unknown one: then
the two change places, also when the merge fails. -/
theorem WellFormed.merge_genesisKey (wf : self.WellFormed) (wf' : other.WellFormed)
    (verified : other.selfVerify = true) : (self.merge other).2.genesisKey =
      if self.hasKey other.genesisKey = false ∧ other.hasKey self.genesisKey = true then
        other.genesisKey else self.genesisKey := by
  unfold merge
  simp only [verified, Bool.not_true, Bool.false_eq_true, ↓reduceIte]
  cases below : self.hasKey other.genesisKey with
  | true => simpa using wf'.mergeInto_genesisKey
  | false =>
    cases above : other.hasKey self.genesisKey with
    | true => simpa using wf.mergeInto_genesisKey
    | false => simp

theorem Reachable.merge (reachable : self.Reachable) (reachable' : other.Reachable) :
    (self.merge other).2.Reachable := by
  have into : ∀ {upper lower : SectionsDAG K}, upper.Reachable → lower.Reachable →
      (upper.mergeInto lower).2.Reachable := by
    intro upper lower up low
    obtain ⟨entries, listed, -⟩ := low.wellFormed.rootEntries_ok
    rw [low.wellFormed.mergeInto_eq listed]
    exact up.insertAll
  unfold SectionsDAG.merge
  split
  · exact reachable
  · split
    · exact into reachable reachable'
    · split
      · exact into reachable' reachable
      · exact reachable

end SafeNetwork.SectionsDAG

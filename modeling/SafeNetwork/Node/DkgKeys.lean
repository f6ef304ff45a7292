import SafeNetwork.Node.Dkg
import SafeNetwork.Node.HandoverChecks

/-!
# Complete key sets

A session goes on when its ephemeral keys are complete: the key that completes them is noticed when it is
saved, and the state of the session is created. `check_keys` saves the keys of a message up to the first
that is refused, and forgets that one before it completed the set. In a run in which the messages with
votes carry only acceptable keys, no session is stuck with a complete set.
-/

namespace SafeNetwork

open Std

variable {G : DkgScheme}

namespace DkgVoter

variable {before : DkgVoter G} {sessionId target : G.SessionId} {name owner : XorName}
  {key : G.PublicKey} {sig : G.EdSignature} {entries : List (XorName × G.PublicKey × G.EdSignature)}
  {after : DkgVoter G}

/-- What `save_key` can do. -/
inductive Saved (before : DkgVoter G) (sessionId : G.SessionId) (owner : XorName) (key : G.PublicKey)
    (sig : G.EdSignature) : Except (DkgError G) Bool → DkgVoter G → Prop where
  | refused (error : DkgError G) : Saved before sessionId owner key sig (.error error) before
  | known : Saved before sessionId owner key sig (.ok false) before
  | recorded {ourKeys : DkgEphemeralKeys G}
    (checked : checkEphemeralDkgKey sessionId owner key sig = .ok ())
    (found : before.dkgEphemeralKeys[sessionId.hash]? = some ourKeys)
    (fresh : ourKeys.pubKeys[owner]? = none) :
    Saved before sessionId owner key sig
      (.ok ((ourKeys.pubKeys.insert owner (key, sig)).keys == sessionId.elders.keys))
      { before with
        dkgEphemeralKeys := before.dkgEphemeralKeys.insert sessionId.hash
          ⟨ourKeys.secretKey, ourKeys.pubKeys.insert owner (key, sig)⟩ }

theorem saved (before : DkgVoter G) (sessionId : G.SessionId) (owner : XorName) (key : G.PublicKey)
    (sig : G.EdSignature) : Saved before sessionId owner key sig (before.saveKey sessionId owner key sig).1
      (before.saveKey sessionId owner key sig).2 := by
  rw [saveKey]
  cases checked : checkEphemeralDkgKey sessionId owner key sig with
  | error error => exact .refused error
  | ok =>
    cases found : before.dkgEphemeralKeys[sessionId.hash]? with
    | none => exact .refused _
    | some ourKeys =>
      dsimp only
      cases fresh : ourKeys.pubKeys[owner]? with
      | none => exact .recorded checked found fresh
      | some old =>
        dsimp only
        split
        · exact .refused _
        · exact .known

theorem saveKey_ok {ourKeys : DkgEphemeralKeys G} (checked : checkEphemeralDkgKey sessionId owner key sig = .ok ())
    (found : before.dkgEphemeralKeys[sessionId.hash]? = some ourKeys)
    (agrees : ∀ old, ourKeys.pubKeys[owner]? = some old → old.1 = key) :
    ∃ completed, (before.saveKey sessionId owner key sig).1 = .ok completed := by
  rw [saveKey, checked, found]
  dsimp only
  cases fresh : ourKeys.pubKeys[owner]? with
  | none => exact ⟨_, rfl⟩
  | some old =>
    dsimp only
    rw [if_neg (not_not.mpr (agrees old fresh))]
    exact ⟨_, rfl⟩

/-! ## Stuck sessions -/

/-- The keys recorded for a session are of its elders, and ours is one of them. -/
def Among (target : G.SessionId) (name : XorName) (self : DkgVoter G) : Prop :=
  ∀ ourKeys, self.dkgEphemeralKeys[target.hash]? = some ourKeys →
    (∀ owner ∈ ourKeys.pubKeys, owner ∈ target.elders) ∧ name ∈ ourKeys.pubKeys

def Complete (target : G.SessionId) (self : DkgVoter G) : Prop :=
  ∃ ourKeys, self.dkgEphemeralKeys[target.hash]? = some ourKeys ∧
    ∀ owner ∈ target.elders, owner ∈ ourKeys.pubKeys

def Stuck (target : G.SessionId) (self : DkgVoter G) : Prop :=
  self.Complete target ∧ target.hash ∉ self.dkgStates

def Alike (target sessionId : G.SessionId) : Prop :=
  sessionId.hash = target.hash → sessionId.elders.keys = target.elders.keys

theorem Alike.refl : Alike target target := fun _ => rfl

theorem mem_elders_iff : owner ∈ sessionId.elders ↔ owner ∈ sessionId.elders.keys :=
  ExtTreeMap.mem_keys.symm

theorem mem_elders_of_checked (checked : checkEphemeralDkgKey sessionId owner key sig = .ok ()) :
    owner ∈ sessionId.elders := by
  by_contra absent
  rw [checkEphemeralDkgKey, if_pos absent] at checked
  cases checked

theorem Among.saveKey (among : before.Among target name) (alike : Alike target sessionId) :
    (before.saveKey sessionId owner key sig).2.Among target name := by
  have outcome := before.saved sessionId owner key sig
  generalize (before.saveKey sessionId owner key sig).1 = result,
    (before.saveKey sessionId owner key sig).2 = after at outcome
  cases outcome with
  | refused => exact among
  | known => exact among
  | @recorded ourKeys checked found fresh =>
    intro ourKeys' found'
    rw [ExtTreeMap.getElem?_insert] at found'
    split at found'
    · rename_i same
      have sameHash := Std.compare_eq_iff_eq.mp same
      obtain rfl := Option.some.inj found'
      rw [sameHash] at found
      obtain ⟨owners, ours⟩ := among ourKeys found
      refine ⟨fun other mem => ?_, ExtTreeMap.mem_insert.mpr (.inr ours)⟩
      rcases ExtTreeMap.mem_insert.mp mem with equal | earlier
      · obtain rfl := Std.compare_eq_iff_eq.mp equal
        rw [mem_elders_iff, ← alike sameHash, ← mem_elders_iff]
        exact mem_elders_of_checked checked
      · exact owners other earlier
    · exact among ourKeys' found'

theorem Stuck.of_saveKey (among : before.Among target name) (alike : Alike target sessionId)
    (stuck : (before.saveKey sessionId owner key sig).2.Stuck target) : before.Stuck target ∨
      (before.saveKey sessionId owner key sig).1 = .ok true ∧ sessionId.hash = target.hash := by
  have amongAfter : (before.saveKey sessionId owner key sig).2.Among target name := among.saveKey alike
  have outcome := before.saved sessionId owner key sig
  generalize (before.saveKey sessionId owner key sig).1 = result,
    (before.saveKey sessionId owner key sig).2 = after at outcome stuck amongAfter
  cases outcome with
  | refused => exact .inl stuck
  | known => exact .inl stuck
  | @recorded ourKeys checked found fresh =>
    by_cases sameHash : sessionId.hash = target.hash
    · obtain ⟨⟨ourKeys', found', complete⟩, _⟩ := stuck
      obtain ⟨owners, -⟩ := amongAfter ourKeys' found'
      rw [sameHash, ExtTreeMap.getElem?_insert_self] at found'
      obtain rfl := Option.some.inj found'
      have names : (ourKeys.pubKeys.insert owner (key, sig)).keys = target.elders.keys :=
        OrderedMap.keys_eq fun other => ⟨owners other, complete other⟩
      right
      rw [names, alike sameHash, beq_self_eq_true]
      exact ⟨rfl, sameHash⟩
    · left
      obtain ⟨⟨ourKeys', found', complete⟩, absent⟩ := stuck
      rw [ExtTreeMap.getElem?_insert, if_neg (mt Std.compare_eq_iff_eq.mp sameHash)] at found'
      exact ⟨⟨ourKeys', found', complete⟩, absent⟩

/-- A list of keys that `save_key` accepts one after the other. -/
def Clean (self : DkgVoter G) (sessionId : G.SessionId)
    (entries : List (XorName × G.PublicKey × G.EdSignature)) : Prop :=
  ∀ entry ∈ entries, checkEphemeralDkgKey sessionId entry.1 entry.2.1 entry.2.2 = .ok () ∧
    ∀ ourKeys old, self.dkgEphemeralKeys[sessionId.hash]? = some ourKeys →
      ourKeys.pubKeys[entry.1]? = some old → old.1 = entry.2.1

theorem Clean.saveKey (clean : before.Clean sessionId entries) (others : ∀ entry ∈ entries, owner ≠ entry.1) :
    (before.saveKey sessionId owner key sig).2.Clean sessionId entries := by
  have outcome := before.saved sessionId owner key sig
  generalize (before.saveKey sessionId owner key sig).1 = result,
    (before.saveKey sessionId owner key sig).2 = after at outcome
  cases outcome with
  | refused => exact clean
  | known => exact clean
  | @recorded ourKeys checked found fresh =>
    intro entry mem
    obtain ⟨passes, agrees⟩ := clean entry mem
    refine ⟨passes, fun ourKeys' old found' known => ?_⟩
    rw [ExtTreeMap.getElem?_insert_self] at found'
    obtain rfl := Option.some.inj found'
    rw [ExtTreeMap.getElem?_insert, if_neg (mt Std.compare_eq_iff_eq.mp (others entry mem))] at known
    exact agrees ourKeys old found known

theorem saveKey_found (found : ∃ ourKeys, before.dkgEphemeralKeys[sessionId.hash]? = some ourKeys) :
    ∃ ourKeys, (before.saveKey sessionId owner key sig).2.dkgEphemeralKeys[sessionId.hash]? = some ourKeys := by
  have outcome := before.saved sessionId owner key sig
  generalize (before.saveKey sessionId owner key sig).1 = result,
    (before.saveKey sessionId owner key sig).2 = after at outcome
  cases outcome with
  | refused => exact found
  | known => exact found
  | recorded => exact ⟨_, ExtTreeMap.getElem?_insert_self⟩

theorem Among.saveKeys (among : before.Among target name) (alike : Alike target sessionId)
    (entries : List (XorName × G.PublicKey × G.EdSignature)) :
    (before.saveKeys sessionId entries).2.Among target name :=
  saveKeys_keeps (motive := fun voter => voter.Among target name)
    (fun _ _ _ among => among.saveKey alike) among

theorem saveKeys_clean (alike : Alike target sessionId) (found : ∃ ourKeys, before.dkgEphemeralKeys[sessionId.hash]? = some ourKeys)
    (among : before.Among target name) (distinct : entries.Pairwise fun a b => a.1 ≠ b.1)
    (clean : before.Clean sessionId entries) : ∃ completed, (before.saveKeys sessionId entries).1 = .ok completed ∧
      ((before.saveKeys sessionId entries).2.Stuck target →
        before.Stuck target ∨ completed = true ∧ sessionId.hash = target.hash) := by
  induction entries generalizing before with
  | nil => exact ⟨false, rfl, .inl⟩
  | cons entry rest ih =>
    obtain ⟨owner, key, sig⟩ := entry
    obtain ⟨apart, distinct⟩ := List.pairwise_cons.mp distinct
    obtain ⟨ourKeys, present⟩ := found
    obtain ⟨passes, agrees⟩ := clean _ (List.mem_cons_self ..)
    obtain ⟨completed, accepted⟩ := saveKey_ok passes present (agrees ourKeys · present)
    have noticed : (before.saveKey sessionId owner key sig).2.Stuck target →
        before.Stuck target ∨
          (before.saveKey sessionId owner key sig).1 = .ok true ∧ sessionId.hash = target.hash :=
      Stuck.of_saveKey among alike
    have cleanRest : before.Clean sessionId rest := fun entry mem =>
      clean entry (List.mem_cons_of_mem _ mem)
    have amongFirst : (before.saveKey sessionId owner key sig).2.Among target name := among.saveKey alike
    obtain ⟨later, accepted', noticed'⟩ := ih (saveKey_found ⟨ourKeys, present⟩) amongFirst distinct
      (cleanRest.saveKey apart)
    rw [DkgVoter.saveKeys]
    generalize before.saveKey sessionId owner key sig = saved at accepted noticed accepted' noticed' ⊢
    obtain ⟨result, after⟩ := saved
    obtain rfl : result = .ok completed := accepted
    dsimp only at accepted' noticed' ⊢
    generalize after.saveKeys sessionId rest = final at accepted' noticed' ⊢
    obtain ⟨result, final⟩ := final
    obtain rfl : result = .ok later := accepted'
    refine ⟨completed || later, rfl, fun stuck => ?_⟩
    rcases noticed' stuck with stuck' | ⟨rfl, sameHash⟩
    · rcases noticed stuck' with stuck'' | ⟨completes, sameHash⟩
      · exact .inl stuck''
      · obtain rfl : completed = true := Except.ok.inj completes
        exact .inr ⟨rfl, sameHash⟩
    · exact .inr ⟨Bool.or_true _, sameHash⟩

/-! ## States -/

structure Extends (before after : DkgVoter G) : Prop where
  keys : after.dkgEphemeralKeys = before.dkgEphemeralKeys
  states : ∀ hash ∈ before.dkgStates, hash ∈ after.dkgStates

theorem Extends.refl (before : DkgVoter G) : Extends before before := ⟨rfl, fun _ mem => mem⟩

theorem Extends.trans {middle : DkgVoter G} (first : Extends before middle)
    (second : Extends middle after) : Extends before after :=
  ⟨second.keys.trans first.keys, fun hash mem => second.states hash (first.states hash mem)⟩

theorem Extends.among (extends' : Extends before after)
    (among : before.Among target name) : after.Among target name := by
  rwa [Among, extends'.keys]

theorem Extends.stuck (extends' : Extends before after) (stuck : after.Stuck target) : before.Stuck target := by
  obtain ⟨complete, absent⟩ := stuck
  rw [Complete, extends'.keys] at complete
  exact ⟨complete, fun mem => absent (extends'.states _ mem)⟩

theorem handleDkgVote_extends (before : DkgVoter G) (sessionId : G.SessionId) (vote : G.DkgSignedVote) :
    Extends before (before.handleDkgVote sessionId vote).2 := by
  rw [handleDkgVote]
  split
  · exact .refl before
  · dsimp only
    split <;> exact ⟨rfl, fun _ mem => ExtTreeMap.mem_insert.mpr (.inr mem)⟩

theorem initializeDkgState_extends (before : DkgVoter G) (sessionId : G.SessionId) (participantIndex : Nat) :
    Extends before (before.initializeDkgState sessionId participantIndex).2 := by
  rw [initializeDkgState]
  split
  · exact .refl before
  · split
    · exact .refl before
    · dsimp only
      split <;> exact ⟨rfl, fun _ mem => ExtTreeMap.mem_insert.mpr (.inr mem)⟩

end DkgVoter

/-- `DkgState::new` succeeds when our index has a key. -/
def DkgScheme.Starts (G : DkgScheme) : Prop :=
  ∀ index secretKey publicKeys threshold, index ∈ publicKeys →
    ∃ state, G.newState index secretKey publicKeys threshold = .ok state

theorem indexedKeys_ok {sessionId : G.SessionId} {entries : List (XorName × G.PublicKey × G.EdSignature)}
    (elders : ∀ entry ∈ entries, entry.1 ∈ sessionId.elders) (publicKeys : ExtTreeMap UInt8 G.PublicKey) :
    ∃ all, indexedKeys sessionId entries publicKeys = .ok all ∧
      (∀ index ∈ publicKeys, index ∈ all) ∧
      ∀ entry ∈ entries, ∀ index, sessionId.elderIndex entry.1 = some index → UInt8.ofNat index ∈ all := by
  induction entries generalizing publicKeys with
  | nil => exact ⟨publicKeys, rfl, fun _ mem => mem, by simp⟩
  | cons entry rest ih =>
    obtain ⟨name, key, sig⟩ := entry
    have listed : name ∈ sessionId.elders.keys :=
      ExtTreeMap.mem_keys.mpr (elders _ (List.mem_cons_self ..))
    obtain ⟨index, found⟩ : ∃ index, sessionId.elderIndex name = some index :=
      Option.isSome_iff_exists.mp (List.isSome_idxOf?.mpr listed)
    obtain ⟨all, indexed, kept, others⟩ := ih (fun entry mem => elders entry (List.mem_cons_of_mem _ mem))
      (publicKeys.insert (UInt8.ofNat index) key)
    refine ⟨all, by rw [indexedKeys, found]; exact indexed, ?_, ?_⟩
    · exact fun other mem => kept other (ExtTreeMap.mem_insert.mpr (.inr mem))
    · intro entry mem other found'
      rcases List.mem_cons.mp mem with rfl | later
      · obtain rfl := Option.some.inj (found.symm.trans found')
        exact kept _ ExtTreeMap.mem_insert_self
      · exact others entry later other found'

theorem createDkgState_ok (starts : G.Starts) {sessionId : G.SessionId} {pubKeys : DkgPubKeys G}
    {name : XorName} {ourId : Nat} (secretKey : G.SecretKey)
    (owners : ∀ owner ∈ pubKeys, owner ∈ sessionId.elders) (ours : name ∈ pubKeys)
    (index : sessionId.elderIndex name = some ourId) :
    ∃ state, createDkgState sessionId ourId secretKey pubKeys = .ok state := by
  have listed : ∀ entry ∈ pubKeys.toList, entry.1 ∈ sessionId.elders := by
    rintro ⟨owner, entry⟩ mem
    have found := ExtTreeMap.mem_toList_iff_getElem?_eq_some.mp mem
    exact owners owner (ExtTreeMap.mem_iff_isSome_getElem?.mpr (by rw [found]; rfl))
  obtain ⟨all, indexed, -, found⟩ := indexedKeys_ok listed ∅
  obtain ⟨entry, known⟩ := Option.isSome_iff_exists.mp (ExtTreeMap.mem_iff_isSome_getElem?.mp ours)
  have mem := found (name, entry) (ExtTreeMap.mem_toList_iff_getElem?_eq_some.mpr known) ourId index
  obtain ⟨state, created⟩ := starts (UInt8.ofNat ourId) secretKey all (threshold sessionId.elders.size) mem
  exact ⟨state, by rw [createDkgState, indexed]; simp only [created]⟩

namespace DkgVoter

variable {before : DkgVoter G} {sessionId target : G.SessionId} {name owner : XorName}
  {key : G.PublicKey} {sig : G.EdSignature} {ourId : Nat}

theorem initializeDkgState_started (starts : G.Starts) (among : before.Among sessionId name)
    (found : ∃ ourKeys, before.dkgEphemeralKeys[sessionId.hash]? = some ourKeys)
    (index : sessionId.elderIndex name = some ourId) :
    sessionId.hash ∈ (before.initializeDkgState sessionId ourId).2.dkgStates := by
  obtain ⟨ourKeys, found⟩ := found
  obtain ⟨owners, ours⟩ := among ourKeys found
  obtain ⟨state, created⟩ := createDkgState_ok starts ourKeys.secretKey owners ours index
  simp only [initializeDkgState, found, created]
  split <;> exact ExtTreeMap.mem_insert_self

theorem Among.of_alike (among : before.Among target name) (alike : Alike target sessionId)
    (sameHash : sessionId.hash = target.hash) : before.Among sessionId name := by
  intro ourKeys found
  rw [sameHash] at found
  obtain ⟨owners, ours⟩ := among ourKeys found
  refine ⟨fun owner mem => ?_, ours⟩
  rw [mem_elders_iff, alike sameHash, ← mem_elders_iff]
  exact owners owner mem

theorem initializeDkgState_free (starts : G.Starts) (among : before.Among target name)
    (alike : Alike target sessionId) (index : sessionId.elderIndex name = some ourId)
    (here : before.Stuck target → sessionId.hash = target.hash) :
    ¬ (before.initializeDkgState sessionId ourId).2.Stuck target := by
  intro stuck
  have earlier := (initializeDkgState_extends before sessionId ourId).stuck stuck
  have sameHash := here earlier
  obtain ⟨⟨ourKeys, found, -⟩, -⟩ := earlier
  have started := initializeDkgState_started starts (among.of_alike alike sameHash)
    ⟨ourKeys, sameHash ▸ found⟩ index
  exact stuck.2 (sameHash ▸ started)

theorem tryInitDkg_free (starts : G.Starts) (among : before.Among target name)
    (free : ¬ before.Stuck target) (alike : Alike target sessionId)
    (index : sessionId.elderIndex name = some ourId) (key : G.PublicKey) (sig : G.EdSignature) (owner : XorName) :
    (before.tryInitDkg sessionId ourId key sig owner).2.Among target name ∧
      ¬ (before.tryInitDkg sessionId ourId key sig owner).2.Stuck target := by
  have amongSaved : (before.saveKey sessionId owner key sig).2.Among target name := among.saveKey alike
  have noticed : (before.saveKey sessionId owner key sig).2.Stuck target →
      before.Stuck target ∨
        (before.saveKey sessionId owner key sig).1 = .ok true ∧ sessionId.hash = target.hash :=
    Stuck.of_saveKey among alike
  rw [tryInitDkg]
  generalize before.saveKey sessionId owner key sig = saved at amongSaved noticed ⊢
  obtain ⟨error | _ | _, after⟩ := saved
  · refine ⟨amongSaved, fun stuck => ?_⟩
    rcases noticed stuck with earlier | ⟨ok, -⟩
    · exact free earlier
    · cases ok
  · refine ⟨amongSaved, fun stuck => ?_⟩
    rcases noticed stuck with earlier | ⟨ok, -⟩
    · exact free earlier
    · cases ok
  · have initialized := initializeDkgState_extends after sessionId ourId
    have freed := initializeDkgState_free starts amongSaved alike index fun stuck =>
      ((noticed stuck).resolve_left free).2
    have amongInit := initialized.among amongSaved
    dsimp only
    generalize after.initializeDkgState sessionId ourId = final at amongInit freed ⊢
    obtain ⟨_ | _, final⟩ := final
    · exact ⟨amongInit, freed⟩
    · exact ⟨amongInit, freed⟩

theorem checkKeys_clean (alike : Alike target sessionId) (among : before.Among target name)
    {keys : DkgPubKeys G} (clean : before.Clean sessionId keys.toList) :
    (before.checkKeys sessionId keys).2.Among target name ∧
      ((before.checkKeys sessionId keys).2.Stuck target → before.Stuck target ∨
        (∃ saved, (before.checkKeys sessionId keys).1 = .ok (saved, true)) ∧
          sessionId.hash = target.hash) := by
  rw [checkKeys]
  cases found : before.dkgEphemeralKeys[sessionId.hash]? with
  | none => exact ⟨among, .inl⟩
  | some ourKeys =>
    dsimp only
    split
    · exact ⟨among, .inl⟩
    · have distinct : keys.toList.Pairwise fun a b => a.1 ≠ b.1 :=
        ExtTreeMap.distinct_keys_toList.imp fun apart same => apart (Std.compare_eq_iff_eq.mpr same)
      have amongSaved := among.saveKeys alike keys.toList
      obtain ⟨completed, accepted, noticed⟩ :=
        saveKeys_clean alike ⟨ourKeys, found⟩ among distinct clean
      generalize before.saveKeys sessionId keys.toList = saved at amongSaved accepted noticed ⊢
      obtain ⟨result, after⟩ := saved
      obtain rfl : result = .ok completed := accepted
      refine ⟨amongSaved, fun stuck => ?_⟩
      rcases noticed stuck with earlier | ⟨rfl, sameHash⟩
      · exact .inl earlier
      · exact .inr ⟨⟨keys, rfl⟩, sameHash⟩

theorem exists_other_elder (several : 2 ≤ target.elders.size) (name : XorName) :
    ∃ other ∈ target.elders, other ≠ name := by
  have distinct : target.elders.keys.Pairwise fun a b => ¬ compare a b = .eq :=
    ExtTreeMap.distinct_keys
  have listed : ∀ owner, owner ∈ target.elders.keys → owner ∈ target.elders :=
    fun owner => ExtTreeMap.mem_keys.mp
  rw [← ExtTreeMap.length_keys] at several
  match names : target.elders.keys, several with
  | first :: second :: rest, _ =>
    rw [names] at distinct listed
    have apart : first ≠ second := fun same =>
      List.rel_of_pairwise_cons distinct (List.mem_cons_self ..) (Std.compare_eq_iff_eq.mpr same)
    by_cases same : first = name
    · exact ⟨second, listed second (by simp), fun same' => apart (same.trans same'.symm)⟩
    · exact ⟨first, listed first (by simp), same⟩

theorem genEphemeralKey_free (several : 2 ≤ target.elders.size) (among : before.Among target name)
    (free : ¬ before.Stuck target) (alike : Alike target sessionId) (member : name ∈ sessionId.elders)
    (keypair : G.Keypair) (secretKey : G.SecretKey) :
    (before.genEphemeralKey sessionId name keypair secretKey).2.Among target name ∧
      ¬ (before.genEphemeralKey sessionId name keypair secretKey).2.Stuck target := by
  rw [genEphemeralKey]
  split
  · exact ⟨among, free⟩
  · dsimp only
    split
    · exact ⟨among, free⟩
    · by_cases sameHash : sessionId.hash = target.hash
      · constructor
        · intro ourKeys found
          rw [sameHash, ExtTreeMap.getElem?_insert_self] at found
          obtain rfl := Option.some.inj found
          refine ⟨fun owner mem => ?_, ExtTreeMap.mem_insert_self⟩
          rcases ExtTreeMap.mem_insert.mp mem with same | none
          · obtain rfl := Std.compare_eq_iff_eq.mp same
            rw [mem_elders_iff, ← alike sameHash, ← mem_elders_iff]
            exact member
          · simp at none
        · rintro ⟨⟨ourKeys, found, complete⟩, -⟩
          rw [sameHash, ExtTreeMap.getElem?_insert_self] at found
          obtain rfl := Option.some.inj found
          obtain ⟨other, elder, apart⟩ := exists_other_elder several name
          rcases ExtTreeMap.mem_insert.mp (complete other elder) with same | none
          · exact apart (Std.compare_eq_iff_eq.mp same).symm
          · simp at none
      · have elsewhere := mt Std.compare_eq_iff_eq.mp sameHash
        constructor
        · intro ourKeys found
          rw [ExtTreeMap.getElem?_insert, if_neg elsewhere] at found
          exact among ourKeys found
        · rintro ⟨⟨ourKeys, found, complete⟩, absent⟩
          rw [ExtTreeMap.getElem?_insert, if_neg elsewhere] at found
          exact free ⟨⟨ourKeys, found, complete⟩, absent⟩

end DkgVoter

namespace DkgNode

variable {before : DkgNode G} {target : G.SessionId}

/-- A session is not stuck at a node, and its keys are of its elders, with ours. -/
structure Free (target : G.SessionId) (node : DkgNode G) : Prop where
  among : node.dkgVoter.Among target node.name
  free : ¬ node.dkgVoter.Stuck target

theorem mem_elders_of_index {sessionId : G.SessionId} {name : XorName} {index : Nat}
    (found : sessionId.elderIndex name = some index) : name ∈ sessionId.elders := by
  have listed : (sessionId.elders.keys.idxOf? name).isSome := by
    rw [show sessionId.elders.keys.idxOf? name = some index from found]
    rfl
  exact ExtTreeMap.mem_keys.mp (List.isSome_idxOf?.mp listed)

theorem Free.dkgStart (several : 2 ≤ target.elders.size) (free : before.Free target)
    {sessionId : G.SessionId} (alike : DkgVoter.Alike target sessionId)
    (sectionSig : SectionSig G.toKeyScheme) (secretKey : G.SecretKey) :
    (before.dkgStart sessionId sectionSig secretKey).2.Free target := by
  rw [DkgNode.dkgStart]
  cases index : sessionId.elderIndex before.name with
  | none => exact free
  | some ourId =>
    dsimp only
    split
    · exact free
    · have generated := DkgVoter.genEphemeralKey_free several free.among free.free alike
        (mem_elders_of_index index) before.keypair secretKey
      split <;> rename_i outcome <;> rw [outcome] at generated <;>
        exact ⟨generated.1, generated.2⟩

theorem Free.handleDkgEphemeralPubkey (starts : G.Starts) (several : 2 ≤ target.elders.size)
    {msg : KeyMsg G} (alike : DkgVoter.Alike target msg.sessionId) (secretKey : G.SecretKey)
    (fuel : Nat) (free : before.Free target) {result : Result G} {after : DkgNode G}
    (returns : before.handleDkgEphemeralPubkey fuel msg secretKey = some (result, after)) : after.Free target := by
  refine handleDkgEphemeralPubkey_keeps (fun node free => ?_) (fun node ourId free index => ?_) fuel free
    returns
  · exact free.dkgStart several alike msg.sectionAuth secretKey
  · obtain ⟨among, unstuck⟩ := DkgVoter.tryInitDkg_free starts free.among free.free alike index
      msg.pubKey msg.sig msg.sender.name
    exact ⟨among, unstuck⟩

theorem handleCheckedVotes_extends (msg : VotesMsg G) (ourId : Nat) (start : Handled G) :
    DkgVoter.Extends start.dkgVoter (handleCheckedVotes msg ourId start).2 := by
  rw [handleCheckedVotes]
  refine Runs.run_induction (motive := fun handled : Handled G =>
    DkgVoter.Extends start.dkgVoter handled.dkgVoter) (.refl _) fun handled extends' vote _ => ?_
  have voted := handled.dkgVoter.handleDkgVote_extends msg.sessionId vote
  rw [handleOneVote]
  generalize handled.dkgVoter.handleDkgVote msg.sessionId vote = outcome at voted ⊢
  obtain ⟨_ | _, voter⟩ := outcome
  · exact extends'.trans voted
  · exact extends'.trans voted

theorem Free.handleDkgVotes (starts : G.Starts) (free : before.Free target) {msg : VotesMsg G}
    (alike : DkgVoter.Alike target msg.sessionId) (clean : before.dkgVoter.Clean msg.sessionId msg.pubKeys.toList) :
    (before.handleDkgVotes msg).2.Free target := by
  rw [DkgNode.handleDkgVotes]
  cases index : msg.sessionId.elderIndex before.name with
  | none => exact free
  | some ourId =>
    obtain ⟨among, noticed⟩ := DkgVoter.checkKeys_clean alike free.among clean
    dsimp only
    generalize before.dkgVoter.checkKeys msg.sessionId msg.pubKeys = checked at among noticed ⊢
    obtain ⟨error | ⟨keys, completed⟩, voter⟩ := checked
    · refine ⟨among, fun stuck => ?_⟩
      obtain ⟨⟨_, ok⟩, -⟩ := (noticed stuck).resolve_left free.free
      cases ok
    · cases completed with
      | false =>
        have handled := handleCheckedVotes_extends msg ourId { dkgVoter := voter, cmds := [] }
        refine ⟨handled.among among, fun stuck => ?_⟩
        obtain ⟨⟨_, ok⟩, -⟩ := (noticed (handled.stuck stuck)).resolve_left free.free
        cases ok
      | true =>
        have freed := DkgVoter.initializeDkgState_free starts among alike index fun stuck =>
          ((noticed stuck).resolve_left free.free).2
        have amongInit := (voter.initializeDkgState_extends msg.sessionId ourId).among among
        dsimp only
        generalize voter.initializeDkgState msg.sessionId ourId = final at amongInit freed ⊢
        obtain ⟨_ | ⟨vote, _⟩, final⟩ := final
        · exact ⟨amongInit, freed⟩
        · have handled := handleCheckedVotes_extends msg ourId
            { dkgVoter := final, cmds := [.broadcastDkgVotes msg.sessionId keys ourId [vote]] }
          exact ⟨handled.among amongInit, fun stuck => freed (handled.stuck stuck)⟩

/-! ## Runs -/

/-- The session of a call has the elders of a session with its hash, and votes come with keys that are
acceptable: valid, and not others than those we have. -/
def Acceptable (target : G.SessionId) (before : DkgNode G) : Event G → Prop
  | .dkgStart sessionId _ _ => DkgVoter.Alike target sessionId
  | .dkgEphemeralPubkey msg _ => DkgVoter.Alike target msg.sessionId
  | .dkgVotes msg => DkgVoter.Alike target msg.sessionId ∧
      before.dkgVoter.Clean msg.sessionId msg.pubKeys.toList
  | .learn _ => True

theorem Free.step (starts : G.Starts) (several : 2 ≤ target.elders.size) (free : before.Free target)
    {event : Event G} (acceptable : Acceptable target before event) : (before.step event).Free target := by
  cases event with
  | dkgStart sessionId sectionSig secretKey =>
    exact free.dkgStart several acceptable sectionSig secretKey
  | dkgEphemeralPubkey msg secretKey =>
    rw [DkgNode.step]
    cases returns : before.handleDkgEphemeralPubkey 2 msg secretKey with
    | none => exact free
    | some outcome => exact free.handleDkgEphemeralPubkey starts several acceptable secretKey 2 returns
  | dkgVotes msg => exact free.handleDkgVotes starts acceptable.1 acceptable.2
  | learn knowledge => exact ⟨free.among, free.free⟩

/-- In any run of acceptable calls, a session of at least two elders that has the keys of all of them has
a state. -/
theorem complete_started (starts : G.Starts) (target : G.SessionId) (several : 2 ≤ target.elders.size)
    (keypair : G.Keypair) (knowledge : NetworkKnowledge G.sections) (events : List (Event G))
    (acceptable : Runs.Throughout step (Acceptable target) { keypair, knowledge } events) :
    let after := (Runs.run step { keypair, knowledge } events).dkgVoter
    ∀ ourKeys, after.dkgEphemeralKeys[target.hash]? = some ourKeys →
      (∀ owner ∈ target.elders, owner ∈ ourKeys.pubKeys) → target.hash ∈ after.dkgStates := by
  intro after ourKeys found complete
  have initial : Free target ({ keypair, knowledge } : DkgNode G) := by
    refine ⟨fun ourKeys found => ?_, ?_⟩
    · simp at found
    · rintro ⟨⟨ourKeys, found, -⟩, -⟩
      simp at found
  have free := acceptable.induction initial fun _ _ free acceptable =>
    free.step starts several acceptable
  by_contra absent
  exact free.free ⟨⟨ourKeys, found, complete⟩, absent⟩

end DkgNode

/-! ## A sample session -/

/-- Key generation over the sample nodes: a name is a key, a signature says who signed how many bytes, and
sessions are known by what is hashed. -/
abbrev sampleDkg : DkgScheme where
  toNodeScheme := sampleNodeScheme
  SecretKey := Nat
  SecretKeyShare := Unit
  EdPublicKey := XorName
  EdSignature := XorName × Nat
  Keypair := XorName
  Digest256 := List Bool
  DkgState := Unit
  DkgSignedVote := Unit
  SdkgError := Unit
  ephemeralKey secretKey := secretKey
  pubKey name := some name
  nameOf keypair := keypair
  sign keypair bytes := (keypair, bytes.length)
  verifyEd key bytes sig := sig == (key, bytes.length)
  sha3 bits := bits
  serializeSession _ := some []
  newState _ _ _ _ := .ok ()
  firstVote state := (.ok (), state)
  allVotes _ := []
  handleSignedVote state _ := (.ok [], state)

theorem sampleDkg_starts : sampleDkg.Starts := fun _ _ _ _ _ => ⟨(), rfl⟩

namespace DkgNode

def sampleSession : sampleDkg.SessionId :=
  ⟨default, .ofList [(sampleNodeName [false], 1), (sampleNodeName [true], 2)], 1, ∅, 0⟩

def sampleKeysMsg (owners : List (List Bool × Nat)) : VotesMsg sampleDkg where
  sessionId := sampleSession
  pubKeys := .ofList (owners.map fun owner =>
    (sampleNodeName owner.1, owner.2, sampleNodeName owner.1, owner.2))
  votes := []
  sender := sampleNodeId [true] 2

def sampleEvents (owners : List (List Bool × Nat)) : List (Event sampleDkg) :=
  [.dkgStart sampleSession ⟨(0 : Nat), sampleSig 0 0⟩ (1 : Nat), .dkgVotes (sampleKeysMsg owners)]

def sampleRun (owners : List (List Bool × Nat)) : DkgNode sampleDkg :=
  Runs.run step { keypair := sampleNodeName [false], knowledge := NetworkKnowledge.sampleSection [] [] }
    (sampleEvents owners)

theorem sampleSession_several : 2 ≤ sampleSession.elders.size := by
  decide +kernel

def sampleComplete (node : DkgNode sampleDkg) : Bool :=
  node.dkgVoter.dkgEphemeralKeys[sampleSession.hash]?.any fun ourKeys =>
    sampleSession.elders.keys.all fun owner => ourKeys.pubKeys.contains owner

theorem complete_of_sampleComplete {node : DkgNode sampleDkg} (complete : sampleComplete node = true) :
    node.dkgVoter.Complete sampleSession := by
  rw [sampleComplete] at complete
  cases found : node.dkgVoter.dkgEphemeralKeys[sampleSession.hash]? with
  | none => simp [found] at complete
  | some ourKeys =>
    rw [found] at complete
    have all : sampleSession.elders.keys.all (fun owner => ourKeys.pubKeys.contains owner) = true :=
      complete
    refine ⟨ourKeys, found, fun owner elder => ?_⟩
    exact ExtTreeMap.mem_iff_contains.mpr (List.all_eq_true.mp all owner (ExtTreeMap.mem_keys.mpr elder))

theorem sampleKeysMsg_clean (node : DkgNode sampleDkg)
    (unknown : (node.dkgVoter.dkgEphemeralKeys[sampleSession.hash]?.all fun ourKeys =>
      !ourKeys.pubKeys.contains (sampleNodeName [true])) = true) :
    node.dkgVoter.Clean sampleSession (sampleKeysMsg [([true], 2)]).pubKeys.toList := by
  intro entry mem
  change entry ∈ [(sampleNodeName [true], (2 : Nat), sampleNodeName [true], 2)] at mem
  obtain rfl := List.mem_singleton.mp mem
  refine ⟨?_, fun ourKeys old found present => ?_⟩
  · have member : sampleNodeName [true] ∈ sampleSession.elders := by decide +kernel
    simp [checkEphemeralDkgKey, member]
  · rw [found, Option.all_some, Bool.not_eq_true'] at unknown
    rw [ExtTreeMap.getElem?_eq_none_of_contains_eq_false unknown] at present
    cases present

theorem sampleEvents_acceptable : Runs.Throughout step (Acceptable sampleSession)
      { keypair := sampleNodeName [false], knowledge := NetworkKnowledge.sampleSection [] [] }
      (sampleEvents [([true], 2)]) := by
  refine ⟨DkgVoter.Alike.refl, ⟨DkgVoter.Alike.refl, sampleKeysMsg_clean _ ?_⟩, trivial⟩
  decide +kernel

theorem complete_started_sampleRun : sampleSession.hash ∈ (sampleRun [([true], 2)]).dkgVoter.dkgStates := by
  have computed : sampleComplete (sampleRun [([true], 2)]) = true := by decide +kernel
  obtain ⟨ourKeys, found, complete⟩ := complete_of_sampleComplete computed
  have started := complete_started sampleDkg_starts sampleSession sampleSession_several
    (sampleNodeName [false]) (NetworkKnowledge.sampleSection [] []) (sampleEvents [([true], 2)])
    sampleEvents_acceptable ourKeys
  rw [sampleRun] at found ⊢
  exact started found complete

/-- A session whose elder gets the missing key together with that of a node that is no elder is stuck. -/
theorem stuck_after_foreign_key : 2 ≤ sampleSession.elders.size ∧
      (sampleRun [([true], 2), ([true, true], 3)]).dkgVoter.Complete sampleSession ∧
      sampleSession.hash ∉ (sampleRun [([true], 2), ([true, true], 3)]).dkgVoter.dkgStates :=
  ⟨sampleSession_several, complete_of_sampleComplete (by decide +kernel), by decide +kernel⟩

end DkgNode

end SafeNetwork

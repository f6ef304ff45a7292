import SafeNetwork.Node.DkgKeys

/-!
# Replayed ephemeral keys

The signature of an ephemeral key is over the key alone, so that a key that its owner generated for one
session can be recorded for another, whose key is then taken for a second one. As long as no message
carries a key for a session its owner did not generate it for, the keys recorded for a session are those
generated for it.
-/

namespace SafeNetwork

open Std

variable {G : DkgScheme}

/-- The ephemeral keys that an honest participant has generated, by session. It signs no others, and its
signatures cannot be forged. -/
structure KeyOwner (G : DkgScheme) where
  name : XorName
  Generated : G.SessionId → G.PublicKey → Prop
  generated_unique : ∀ {sessionId key other}, Generated sessionId key → Generated sessionId other →
    key = other
  unforgeable : ∀ {edKey key bytes sig}, G.pubKey name = some edKey → G.serializeKey key = some bytes →
    G.verifyEd edKey bytes sig = true → ∃ sessionId, Generated sessionId key

variable {owner : KeyOwner G} {target sessionId : G.SessionId} {key : G.PublicKey} {sig : G.EdSignature}

theorem KeyOwner.generated_of_checked (checked : checkEphemeralDkgKey sessionId owner.name key sig = .ok ()) :
    ∃ sessionId, owner.Generated sessionId key := by
  rw [checkEphemeralDkgKey] at checked
  split at checked
  · cases checked
  · split at checked
    · cases checked
    · rename_i edKey found
      split at checked
      · cases checked
      · rename_i bytes encoded
        split at checked
        · rename_i verified
          exact owner.unforgeable found encoded verified
        · cases checked

theorem checkEphemeralDkgKey_ne_doubleKeyAttack {name : XorName} {alreadyHad : G.PublicKey}
    {oldSig : G.EdSignature} : checkEphemeralDkgKey sessionId name key sig ≠
      .error (.doubleKeyAttackDetected name key sig alreadyHad oldSig) := by
  rw [checkEphemeralDkgKey]
  split
  · simp
  · split
    · simp
    · split
      · simp
      · split <;> simp

namespace DkgVoter

variable {before after : DkgVoter G} {name : XorName} {key : G.PublicKey}

def Genuine (owner : KeyOwner G) (target : G.SessionId) (self : DkgVoter G) : Prop :=
  ∀ ourKeys key sig, self.dkgEphemeralKeys[target.hash]? = some ourKeys →
    ourKeys.pubKeys[owner.name]? = some (key, sig) → owner.Generated target key

def NotReplayed (owner : KeyOwner G) (target sessionId : G.SessionId) (name : XorName)
    (key : G.PublicKey) : Prop :=
  name = owner.name → sessionId.hash = target.hash → (∃ other, owner.Generated other key) →
    owner.Generated target key

theorem Extends.genuine (extends' : Extends before after) (genuine : before.Genuine owner target) :
    after.Genuine owner target := by
  rwa [Genuine, extends'.keys]

section

variable (genuine : before.Genuine owner target)
include genuine

theorem Genuine.saveKey (notReplayed : NotReplayed owner target sessionId name key) (sig : G.EdSignature) :
    (before.saveKey sessionId name key sig).2.Genuine owner target := by
  have outcome := before.saved sessionId name key sig
  generalize (before.saveKey sessionId name key sig).1 = result,
    (before.saveKey sessionId name key sig).2 = after at outcome
  cases outcome with
  | refused => exact genuine
  | known => exact genuine
  | @recorded ourKeys checked found fresh =>
    intro ourKeys' key' sig' found' recorded
    rw [ExtTreeMap.getElem?_insert] at found'
    split at found'
    · rename_i same
      have sameHash := Std.compare_eq_iff_eq.mp same
      obtain rfl := Option.some.inj found'
      rw [ExtTreeMap.getElem?_insert] at recorded
      split at recorded
      · rename_i sameName
        obtain rfl := Std.compare_eq_iff_eq.mp sameName
        obtain ⟨rfl, rfl⟩ := Prod.mk.inj (Option.some.inj recorded)
        exact notReplayed rfl sameHash (KeyOwner.generated_of_checked checked)
      · exact genuine ourKeys key' sig' (sameHash ▸ found) recorded
    · exact genuine ourKeys' key' sig' found' recorded

theorem Genuine.saveKeys
    {entries : List (XorName × G.PublicKey × G.EdSignature)}
    (notReplayed : ∀ entry ∈ entries, NotReplayed owner target sessionId entry.1 entry.2.1) :
    (before.saveKeys sessionId entries).2.Genuine owner target :=
  saveKeys_keeps (motive := fun voter => voter.Genuine owner target)
    (fun _ entry mem genuine => genuine.saveKey (notReplayed entry mem) entry.2.2) genuine

theorem Genuine.checkKeys {keys : DkgPubKeys G}
    (notReplayed : ∀ entry ∈ keys.toList, NotReplayed owner target sessionId entry.1 entry.2.1) :
    (before.checkKeys sessionId keys).2.Genuine owner target := by
  rw [DkgVoter.checkKeys]
  split
  · exact genuine
  · split
    · exact genuine
    · have saved := genuine.saveKeys notReplayed
      split <;> rename_i outcome <;> rw [outcome] at saved <;> exact saved

theorem Genuine.tryInitDkg (notReplayed : NotReplayed owner target sessionId name key)
    (sig : G.EdSignature) (ourId : Nat) :
    (before.tryInitDkg sessionId ourId key sig name).2.Genuine owner target := by
  have saved := genuine.saveKey notReplayed sig
  rw [DkgVoter.tryInitDkg]
  generalize before.saveKey sessionId name key sig = outcome at saved ⊢
  obtain ⟨error | _ | _, voter⟩ := outcome
  · exact saved
  · exact saved
  · have initialized := (voter.initializeDkgState_extends sessionId ourId).genuine saved
    dsimp only
    generalize voter.initializeDkgState sessionId ourId = final at initialized ⊢
    obtain ⟨_ | _, final⟩ := final
    · exact initialized
    · exact initialized

theorem Genuine.genEphemeralKey (sessionId : G.SessionId) (other : name ≠ owner.name) (keypair : G.Keypair) (secretKey : G.SecretKey) :
    (before.genEphemeralKey sessionId name keypair secretKey).2.Genuine owner target := by
  rw [DkgVoter.genEphemeralKey]
  split
  · exact genuine
  · dsimp only
    split
    · exact genuine
    · intro ourKeys key sig found recorded
      rw [ExtTreeMap.getElem?_insert] at found
      split at found
      · obtain rfl := Option.some.inj found
        rw [ExtTreeMap.getElem?_insert, if_neg (mt Std.compare_eq_iff_eq.mp other)] at recorded
        simp at recorded
      · exact genuine ourKeys key sig found recorded

end

theorem saveKey_doubleKeyAttack_iff {alreadyHad : G.PublicKey} {sig oldSig : G.EdSignature} :
    (before.saveKey sessionId name key sig).1 = .error (.doubleKeyAttackDetected name key sig alreadyHad oldSig) ↔
      checkEphemeralDkgKey sessionId name key sig = .ok () ∧ alreadyHad ≠ key ∧
        ∃ ourKeys, before.dkgEphemeralKeys[sessionId.hash]? = some ourKeys ∧
          ourKeys.pubKeys[name]? = some (alreadyHad, oldSig) := by
  rw [DkgVoter.saveKey]
  cases checked : checkEphemeralDkgKey sessionId name key sig with
  | error error =>
    refine ⟨fun same => ?_, fun held => by cases held.1⟩
    obtain rfl := Except.error.inj same
    exact absurd checked checkEphemeralDkgKey_ne_doubleKeyAttack
  | ok =>
    cases found : before.dkgEphemeralKeys[sessionId.hash]? with
    | none => simp
    | some ourKeys =>
      dsimp only
      cases recorded : ourKeys.pubKeys[name]? with
      | none => simp [recorded]
      | some old =>
        obtain ⟨had, hadSig⟩ := old
        by_cases same : had = key
        · subst same
          simp only [ne_eq, not_true_eq_false, if_false, reduceCtorEq, false_iff]
          rintro ⟨-, apart, _, ⟨⟩, held⟩
          rw [recorded] at held
          exact apart (Prod.mk.inj (Option.some.inj held)).1.symm
        · simp only [ne_eq, same, not_false_eq_true, if_true]
          constructor
          · rintro ⟨⟩
            exact ⟨trivial, same, ourKeys, rfl, recorded⟩
          · rintro ⟨-, -, _, ⟨⟩, held⟩
            obtain ⟨rfl, rfl⟩ := Prod.mk.inj (Option.some.inj (recorded.symm.trans held))
            rfl

end DkgVoter

namespace DkgNode

variable {before : DkgNode G}

/-- A node has another name than an owner, and the owner's key recorded under a session was generated for
it. -/
structure Faithful (owner : KeyOwner G) (target : G.SessionId) (node : DkgNode G) : Prop where
  other : node.name ≠ owner.name
  genuine : node.dkgVoter.Genuine owner target

theorem Faithful.dkgStart (faithful : before.Faithful owner target) (sessionId : G.SessionId)
    (sectionSig : SectionSig G.toKeyScheme) (secretKey : G.SecretKey) :
    (before.dkgStart sessionId sectionSig secretKey).2.Faithful owner target := by
  have generated := faithful.genuine.genEphemeralKey sessionId faithful.other before.keypair
    secretKey
  rw [DkgNode.dkgStart]
  split
  · exact faithful
  · dsimp only
    split
    · exact faithful
    · split <;> rename_i outcome <;> rw [outcome] at generated <;>
        exact ⟨faithful.other, generated⟩

theorem Faithful.handleDkgVotes (faithful : before.Faithful owner target) {msg : VotesMsg G}
    (notReplayed : ∀ entry ∈ msg.pubKeys.toList, DkgVoter.NotReplayed owner target msg.sessionId entry.1 entry.2.1) :
    (before.handleDkgVotes msg).2.Faithful owner target := by
  have checked := faithful.genuine.checkKeys notReplayed
  rw [DkgNode.handleDkgVotes]
  cases msg.sessionId.elderIndex before.name with
  | none => exact faithful
  | some ourId =>
    dsimp only
    generalize before.dkgVoter.checkKeys msg.sessionId msg.pubKeys = outcome at checked ⊢
    obtain ⟨error | ⟨keys, completed⟩, voter⟩ := outcome
    · exact ⟨faithful.other, checked⟩
    · cases completed with
      | false =>
        have handled := handleCheckedVotes_extends msg ourId { dkgVoter := voter, cmds := [] }
        exact ⟨faithful.other, handled.genuine checked⟩
      | true =>
        have initialized := (voter.initializeDkgState_extends msg.sessionId ourId).genuine checked
        dsimp only
        generalize voter.initializeDkgState msg.sessionId ourId = final at initialized ⊢
        obtain ⟨_ | ⟨vote, _⟩, final⟩ := final
        · exact ⟨faithful.other, initialized⟩
        · have handled := handleCheckedVotes_extends msg ourId
            { dkgVoter := final, cmds := [.broadcastDkgVotes msg.sessionId keys ourId [vote]] }
          exact ⟨faithful.other, handled.genuine initialized⟩

/-! ## Runs -/

/-- A message does not carry, for a session, a key that its owner generated for other sessions only. -/
def NotReplayed (owner : KeyOwner G) (target : G.SessionId) : Event G → Prop
  | .dkgStart _ _ _ => True
  | .dkgEphemeralPubkey msg _ =>
    DkgVoter.NotReplayed owner target msg.sessionId msg.sender.name msg.pubKey
  | .dkgVotes msg => ∀ entry ∈ msg.pubKeys.toList,
      DkgVoter.NotReplayed owner target msg.sessionId entry.1 entry.2.1
  | .learn _ => True

theorem Faithful.step (faithful : before.Faithful owner target) {event : Event G}
    (notReplayed : NotReplayed owner target event) : (before.step event).Faithful owner target := by
  cases event with
  | dkgStart sessionId sectionSig secretKey => exact faithful.dkgStart sessionId sectionSig secretKey
  | dkgEphemeralPubkey msg secretKey =>
    rw [DkgNode.step]
    cases returns : before.handleDkgEphemeralPubkey 2 msg secretKey with
    | none => exact faithful
    | some outcome =>
      refine handleDkgEphemeralPubkey_keeps (fun node faithful => ?_) (fun node ourId faithful _ => ?_) 2
        faithful returns
      · exact faithful.dkgStart msg.sessionId msg.sectionAuth secretKey
      · exact ⟨faithful.other, faithful.genuine.tryInitDkg notReplayed msg.sig ourId⟩
  | dkgVotes msg => exact faithful.handleDkgVotes notReplayed
  | learn knowledge => exact ⟨faithful.other, faithful.genuine⟩

/-- In any run in which no key of another participant is replayed for a session, what is recorded for them
under the session they generated for it, and their key for it is not taken for a second one. -/
theorem recorded_generated (owner : KeyOwner G) (target : G.SessionId) (keypair : G.Keypair)
    (other : G.nameOf keypair ≠ owner.name) (knowledge : NetworkKnowledge G.sections)
    (events : List (Event G)) (notReplayed : ∀ event ∈ events, NotReplayed owner target event) :
    let after := (Runs.run step { keypair, knowledge } events).dkgVoter
    (∀ ourKeys key sig, after.dkgEphemeralKeys[target.hash]? = some ourKeys →
      ourKeys.pubKeys[owner.name]? = some (key, sig) → owner.Generated target key) ∧
    ∀ key sig alreadyHad oldSig, owner.Generated target key →
      (after.saveKey target owner.name key sig).1 ≠
        .error (.doubleKeyAttackDetected owner.name key sig alreadyHad oldSig) := by
  intro after
  have initial : Faithful owner target ({ keypair, knowledge } : DkgNode G) := by
    refine ⟨other, fun ourKeys key sig found => ?_⟩
    simp at found
  have faithful : (Runs.run step { keypair, knowledge } events).Faithful owner target :=
    Runs.run_induction initial fun node faithful event mem => faithful.step (notReplayed event mem)
  refine ⟨faithful.genuine, fun key sig alreadyHad oldSig generated attack => ?_⟩
  obtain ⟨-, apart, ourKeys, found, recorded⟩ := DkgVoter.saveKey_doubleKeyAttack_iff.mp attack
  exact apart (owner.generated_unique (faithful.genuine ourKeys _ _ found recorded) generated)

def sampleOwner : KeyOwner sampleDkg where
  name := sampleNodeName [true]
  Generated sessionId key := key = sessionId.sectionChainLen
  generated_unique one other := one.trans other.symm
  unforgeable := fun {_ key _ _} _ _ _ => ⟨⟨default, ∅, key, ∅, 0⟩, rfl⟩

def sampleRecorded (node : DkgNode sampleDkg) : Option (Nat × XorName × Nat) :=
  node.dkgVoter.dkgEphemeralKeys[sampleSession.hash]?.bind fun ourKeys =>
    ourKeys.pubKeys[sampleOwner.name]?

theorem sampleRecorded_iff {node : DkgNode sampleDkg} {entry : Nat × XorName × Nat} :
    sampleRecorded node = some entry ↔
      ∃ ourKeys, node.dkgVoter.dkgEphemeralKeys[sampleSession.hash]? = some ourKeys ∧
        ourKeys.pubKeys[sampleOwner.name]? = some entry :=
  Option.bind_eq_some_iff

theorem recorded_generated_sampleRun : sampleRecorded (sampleRun [([true], 1)]) = some (1, sampleNodeName [true], 1) ∧
      sampleOwner.Generated sampleSession (1 : Nat) := by
  have computed : sampleRecorded (sampleRun [([true], 1)]) = some (1, sampleNodeName [true], 1) := by
    decide +kernel
  refine ⟨computed, ?_⟩
  obtain ⟨ourKeys, found, recorded⟩ := sampleRecorded_iff.mp computed
  rw [sampleRun] at found
  refine (recorded_generated sampleOwner sampleSession (sampleNodeName [false]) (by decide)
    (NetworkKnowledge.sampleSection [] []) (sampleEvents [([true], 1)]) ?_).1 ourKeys _ _ found recorded
  intro event mem
  rcases List.mem_cons.mp mem with rfl | mem
  · trivial
  · obtain rfl := List.mem_singleton.mp mem
    intro entry mem
    change entry ∈ [(sampleNodeName [true], (1 : Nat), sampleNodeName [true], 1)] at mem
    obtain rfl := List.mem_singleton.mp mem
    exact fun _ _ _ => rfl

/-- The key for a session of a longer chain is recorded as well, and then the key for the session itself is
taken for a second one. -/
theorem replayed_key_recorded : sampleRecorded (sampleRun [([true], 2)]) = some (2, sampleNodeName [true], 2) ∧
      ¬ sampleOwner.Generated sampleSession (2 : Nat) ∧ sampleOwner.Generated sampleSession (1 : Nat) ∧
      ((sampleRun [([true], 2)]).dkgVoter.saveKey sampleSession (sampleNodeName [true]) (1 : Nat)
        (sampleNodeName [true], 1)).1 = .error (.doubleKeyAttackDetected (sampleNodeName [true]) (1 : Nat)
          (sampleNodeName [true], 1) (2 : Nat) (sampleNodeName [true], 2)) := by
  have computed : sampleRecorded (sampleRun [([true], 2)]) = some (2, sampleNodeName [true], 2) := by
    decide +kernel
  have member : sampleNodeName [true] ∈ sampleSession.elders := by decide +kernel
  have checked : checkEphemeralDkgKey sampleSession (sampleNodeName [true]) (1 : Nat)
      (sampleNodeName [true], 1) = .ok () := by
    simp [checkEphemeralDkgKey, member]
  refine ⟨computed, (by decide : ¬ (2 : Nat) = 1), rfl,
    DkgVoter.saveKey_doubleKeyAttack_iff.mpr ⟨checked, by decide, ?_⟩⟩
  exact sampleRecorded_iff.mp computed

end DkgNode

end SafeNetwork

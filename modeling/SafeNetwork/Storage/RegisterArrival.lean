import SafeNetwork.Storage.RegisterOrder

/-!
# Arrival of register commands

What a node ends up with when the commands of one register are written one by one. A creation is
refused while a bad edit waits for it, and a full register refuses everything, so the order in which
commands arrive can matter. It does not for commands that belong to the register and can be applied in
any order.
-/

namespace SafeNetwork

open Std Crdt FileSystem BoundedFill

variable {S : StorageScheme}

namespace RegisterStorage

variable {self : StorageState S} {os : Os S.Name} {addr : RegisterAddress}

/-! ## Writes to one register -/

section Writes

variable {op : CreateRegister S.toRegisterScheme} {cmd : S.Cmd} {listed cmds : List S.Cmd}
  {edit : SignedRegisterEdit S.toRegisterScheme} {signed : SignedRegisterCreate S.toRegisterScheme}
  {sectionSig : SectionSig S.toKeyScheme}

/-- A command that belongs to a register: its creation, properly signed, or a valid edit. -/
def Belongs (op : CreateRegister S.toRegisterScheme) : S.Cmd → Prop
  | .create signed _ =>
    signed.op = op ∧ signed.auth.verifyAuthority (S.serializeCreate signed.op) = true
  | .edit edit => edit.Valid op

theorem Belongs.dstAddress (belongs : Belongs op cmd) : cmd.dstAddress = op.address := by
  cases cmd with
  | create signed sectionSig => exact congrArg CreateRegister.address belongs.1
  | edit edit => exact belongs.dst_eq

theorem Belongs.eq_of_create {op' : CreateRegister S.toRegisterScheme} (belongs : Belongs op cmd)
    (isCreate : cmd.create? = some op') : op' = op := by
  cases cmd with
  | create signed sectionSig =>
    obtain rfl := Option.some.inj isCreate
    exact belongs.1
  | edit edit => cases isCreate

theorem exists_loadLog (path : S.Path) (all : ∀ cmd ∈ listed, Belongs op cmd)
    (fits : Fits maxRegNumEntries ∅ ((editsOf listed).map (·.hash))) :
    ∃ stored, loadLog path listed = .ok stored := by
  cases first : firstCreate listed with
  | none => exact ⟨_, loadLog_eq_ok.mpr (Or.inl ⟨first, rfl⟩)⟩
  | some op' =>
    obtain ⟨create, mem, isCreate⟩ := exists_of_firstCreate first
    obtain rfl := (all create mem).eq_of_create isCreate
    refine ⟨_, loadLog_eq_ok.mpr (Or.inr ⟨op', first, fun edit inside => ?_, fits, rfl⟩)⟩
    have valid : edit.Valid op' := all _ (mem_editsOf.mp inside)
    exact valid.suits

/-- On commands that belong to a register and fit, a command that belongs to it is accepted, unless
it is an edit and the register is full. -/
theorem tryToApply_belongs {path : S.Path} {stored : StoredRegister S}
    (loaded : loadLog path listed = .ok stored) (all : ∀ cmd ∈ listed, Belongs op cmd)
    (fits : Fits maxRegNumEntries ∅ ((editsOf listed).map (·.hash))) (belongs : Belongs op cmd)
    (small : ∀ edit, cmd = .edit edit → ((editsOf listed).map (·.hash)).toFinset.card < maxRegNumEntries) :
    ∃ stored', tryToApplyCmdAgainstRegisterState cmd stored = .ok stored' := by
  obtain ⟨-, rfl⟩ | ⟨op', first, -, -, rfl⟩ := loadLog_eq_ok.mp loaded
  · cases cmd with
    | edit edit => exact ⟨_, (tryToApply_none rfl).mpr (Or.inr ⟨edit, rfl, rfl⟩)⟩
    | create signed sectionSig =>
      obtain ⟨rfl, verifies⟩ := belongs
      refine ⟨_, (tryToApply_none rfl).mpr (Or.inl ⟨signed, sectionSig, rfl,
        ⟨verifies, fun cmd mem => (all cmd mem).dstAddress, fun edit mem => ?_, fits⟩, rfl⟩)⟩
      have valid : edit.Valid signed.op := all _ (mem_editsOf.mp mem)
      exact ⟨valid.suits, valid.permitted⟩
  · obtain ⟨create, mem, isCreate⟩ := exists_of_firstCreate first
    obtain rfl := (all create mem).eq_of_create isCreate
    cases cmd with
    | create signed sectionSig =>
      exact ⟨_, (tryToApply_some rfl).mpr (Or.inl ⟨signed, sectionSig, rfl, rfl⟩)⟩
    | edit edit =>
      have valid : edit.Valid op' := belongs
      refine ⟨_, (tryToApply_some rfl).mpr (Or.inr ⟨edit, rfl, ⟨?_, ?_, ?_, ?_⟩, rfl⟩)⟩
      · simpa using valid.dst_eq
      · simpa using valid.suits
      · simpa using valid.permitted
      · simpa using small edit rfl

/-- The directory of a register holds nothing but what belongs to it, and its edits can be applied in
any order. -/
structure Tidy (op : CreateRegister S.toRegisterScheme) (storage : StorageState S) : Prop where
  layout : Layout storage.fs
  belongs : ∀ cmd, Has storage.fs (.cmd op.address cmd) → Belongs op cmd
  order : AnyOrder (heldEdits storage.fs op.address)

/-- A command that belongs to the register is stored, if there is room and, for an edit, if the
register is not full. -/
theorem Tidy.write (tidy : Tidy op self) (reliable : os.Reliable) (room : StorageState.Room self 1)
    (belongs : Belongs op cmd)
    (small : ∀ edit, cmd = .edit edit → ∃ hashes : Finset S.Hash, hashes.card < maxRegNumEntries ∧
      ∀ edit, heldEdits self.fs op.address edit → edit.hash ∈ hashes) :
    (∃ level, (RegisterStorage.write os self cmd).1 = .ok level) ∧
      Has (RegisterStorage.write os self cmd).2.fs (.cmd op.address cmd) := by
  have address : (Call.write cmd).address = op.address := belongs.dstAddress
  obtain ⟨listed, isLog, outcome⟩ := (Call.write cmd).run_cases tidy.layout reliable
  rw [address] at isLog outcome
  have all : ∀ cmd ∈ listed, Belongs op cmd := fun cmd mem => tidy.belongs cmd ((isLog.mem_iff cmd).mp mem)
  have fits := tidy.order.fits isLog
  have accepts : ∀ stored,
      loadLog (RegisterStore.addressToFilepath S op.address) listed = .ok stored →
      ∃ stored', tryToApplyCmdAgainstRegisterState cmd stored = .ok stored' := by
    intro stored loaded
    refine tryToApply_belongs loaded all fits belongs fun edit same => ?_
    obtain ⟨hashes, few, inside⟩ := small edit same
    refine (Finset.card_le_card fun hash mem => ?_).trans_lt few
    obtain ⟨other, listed, rfl⟩ := List.mem_map.mp (List.mem_toFinset.mp mem)
    exact inside other (isLog.mem_edits.mp listed)
  obtain ⟨error, -, failed | ⟨_, stored, same, loaded, failed⟩⟩ | ⟨stored, loaded, writes⟩ := outcome
  · obtain ⟨stored, loaded⟩ :=
      exists_loadLog (RegisterStore.addressToFilepath S op.address) all fits
    rw [loaded] at failed
    cases failed
  · cases same
    obtain ⟨stored', done⟩ := accepts stored loaded
    rw [done] at failed
    cases failed
  · obtain ⟨stored', done⟩ := accepts stored loaded
    have accepted : acceptCmds stored (Call.write cmd).log = [cmd] := acceptCmds_cons_ok done
    rw [accepted] at writes
    obtain ⟨level, ok⟩ := writes.room room
    exact ⟨⟨level, ok⟩, writes.has level ok cmd (List.mem_singleton_self _)⟩

theorem exists_hashes_of_anyOrder (layout : Layout self.fs) (new : ¬ heldEdits self.fs addr edit)
    (order : AnyOrder fun other => heldEdits self.fs addr other ∨ other = edit) :
    ∃ hashes : Finset S.Hash, hashes.card < maxRegNumEntries ∧
      ∀ edit, heldEdits self.fs addr edit → edit.hash ∈ hashes := by
  obtain ⟨hashes, few, inside⟩ | ⟨list, short, inside⟩ := order
  · exact ⟨hashes, few, fun other held => inside other (Or.inl held)⟩
  · have someOs : (Os.inOrder : Os S.Name).Reliable := Os.inOrder_reliable
    have isLog := storedLog_isLog layout someOs addr
    let edits := editsOf (storedLog .inOrder self.fs addr)
    have nodup : (edit :: edits).Nodup :=
      List.nodup_cons.mpr ⟨fun mem => new (isLog.mem_edits.mp mem), nodup_editsOf isLog.nodup⟩
    have subset : edit :: edits ⊆ list := by
      intro other mem
      obtain rfl | mem := List.mem_cons.mp mem
      · exact inside other (Or.inr rfl)
      · exact inside other (Or.inl (isLog.mem_edits.mp mem))
    have count : edits.length + 1 ≤ maxRegNumEntries :=
      (List.subperm_of_subset nodup subset).length_le.trans short
    refine ⟨(edits.map (·.hash)).toFinset, ?_, fun other held =>
      List.mem_toFinset.mpr (List.mem_map_of_mem (isLog.mem_edits.mpr held))⟩
    have most := List.toFinset_card_le (edits.map (·.hash))
    rw [List.length_map] at most
    omega

/-- A write of one of some commands that belong to a register and can be applied in any order: it is
stored besides the others, and a new one is accepted. -/
theorem has_write (all : ∀ cmd ∈ cmds, Belongs op cmd)
    (order : AnyOrder fun edit => .edit edit ∈ cmds) (layout : Layout self.fs)
    (held : ∀ cmd, Has self.fs (.cmd op.address cmd) → cmd ∈ cmds)
    (room : StorageState.Room self 1) (mem : cmd ∈ cmds) (reliable : os.Reliable) :
    (∀ other, Has (RegisterStorage.write os self cmd).2.fs (.cmd op.address other) ↔
      Has self.fs (.cmd op.address other) ∨ other = cmd) ∧
    (¬ Has self.fs (.cmd op.address cmd) → ∃ level, (RegisterStorage.write os self cmd).1 = .ok level) := by
  have address : (Call.write cmd).address = op.address := (all cmd mem).dstAddress
  have grows : Grows self _ (RegisterStorage.write os self cmd).2 :=
    (Call.write cmd).run_grows layout reliable
  have tidy : Tidy op self :=
    ⟨layout, fun cmd has => all cmd (held cmd has), order.mono fun edit has => held _ has⟩
  have stored : ¬ Has self.fs (.cmd op.address cmd) →
      (∃ level, (RegisterStorage.write os self cmd).1 = .ok level) ∧
        Has (RegisterStorage.write os self cmd).2.fs (.cmd op.address cmd) := by
    intro new
    refine tidy.write reliable room (all cmd mem) fun edit isEdit => ?_
    subst isEdit
    apply exists_hashes_of_anyOrder layout new
    refine order.mono fun other given => ?_
    obtain old | rfl := given
    · exact held _ old
    · exact mem
  refine ⟨fun other => ⟨fun has => ?_, ?_⟩, fun new => (stored new).1⟩
  · refine (grows.new _ has).imp id fun inside => ?_
    rw [address] at inside
    simpa [Call.log] using inside
  · rintro (old | rfl)
    · exact grows.kept _ old
    · by_cases already : Has self.fs (.cmd op.address other)
      · exact grows.kept _ already
      · exact (stored already).2

/-- Every call of a run returns `Ok`. -/
abbrev AllOk (self : StorageState S) (requests : List (Request S)) : Prop :=
  Runs.Throughout Request.apply
    (fun self request => ∃ level, (request.call.run request.os self).1 = .ok level) self requests

/-- Writes of commands that belong to a register and can be applied in any order store them all, and
are accepted if no command repeats. -/
theorem has_runAll_writes (all : ∀ cmd ∈ cmds, Belongs op cmd)
    (order : AnyOrder fun edit => .edit edit ∈ cmds) (requests : List (Request S))
    (writes : ∀ request ∈ requests, ∃ cmd ∈ cmds, request.call = .write cmd)
    (layout : Layout self.fs) (held : ∀ cmd, Has self.fs (.cmd op.address cmd) → cmd ∈ cmds)
    (room : StorageState.Room self requests.length) : (∀ cmd, Has (runAll self requests).fs (.cmd op.address cmd) ↔
      Has self.fs (.cmd op.address cmd) ∨ ∃ request ∈ requests, request.call = .write cmd) ∧
    ((requests.map (·.call)).Nodup →
      (∀ request ∈ requests, ∀ cmd, request.call = .write cmd → ¬ Has self.fs (.cmd op.address cmd)) →
      AllOk self requests) := by
  induction requests generalizing self with
  | nil => exact ⟨by simp, fun _ _ => trivial⟩
  | cons request rest ih =>
    rw [List.forall_mem_cons] at writes
    obtain ⟨⟨one, mem, same⟩, later⟩ := writes
    obtain ⟨new, accepted⟩ := has_write all order layout held (room.mono (by simp)) mem request.reliable
    have state : request.apply self = (RegisterStorage.write request.os self one).2 := by
      rw [Request.apply, same]
      rfl
    rw [← state] at new
    have room' : StorageState.Room (request.apply self) rest.length := by
      apply request.call.run_room layout request.reliable
      rw [same]
      exact room
    have layout' : Layout (request.apply self).fs :=
      (request.call.run_grows layout request.reliable).layout
    have held' : ∀ cmd, Has (request.apply self).fs (.cmd op.address cmd) → cmd ∈ cmds := by
      intro cmd has
      obtain old | rfl := (new cmd).mp has
      · exact held cmd old
      · exact mem
    obtain ⟨allHeld, allOk⟩ := ih later layout' held' room'
    constructor
    · intro cmd
      refine (allHeld cmd).trans ?_
      rw [new, List.exists_mem_cons_iff, same, Call.write.injEq, or_assoc, eq_comm (a := cmd)]
    · intro nodup fresh
      rw [List.map_cons, List.nodup_cons] at nodup
      rw [List.forall_mem_cons] at fresh
      refine ⟨?_, allOk nodup.2 fun other inside cmd isWrite has => ?_⟩
      · show ∃ level, (request.call.run request.os self).1 = .ok level
        rw [same]
        exact accepted (fresh.1 one same)
      · obtain old | rfl := (new cmd).mp has
        · exact fresh.2 other inside cmd isWrite old
        · exact nodup.1 (List.mem_map.mpr ⟨other, inside, isWrite.trans same.symm⟩)

def writeRequests (cmds : List S.Cmd) : List (Request S) :=
  cmds.map fun cmd => ⟨.inOrder, Os.inOrder_reliable, .write cmd⟩

theorem map_call_writeRequests (cmds : List S.Cmd) :
    (writeRequests cmds).map (·.call) = cmds.map .write := List.map_map

def createAndEdit (signed : SignedRegisterCreate S.toRegisterScheme)
    (sectionSig : SectionSig S.toKeyScheme)
    (edits : List (SignedRegisterEdit S.toRegisterScheme)) : List S.Cmd :=
  .create signed sectionSig :: edits.map .edit

theorem edit_mem_createAndEdit {edits : List (SignedRegisterEdit S.toRegisterScheme)} :
    .edit edit ∈ createAndEdit signed sectionSig edits ↔ edit ∈ edits := by
  simp [createAndEdit]

theorem not_anyOrder {edits : SignedRegisterEdit S.toRegisterScheme → Prop}
    {copy : SignedRegisterEdit S.toRegisterScheme} (hashes : Finset S.Hash)
    (full : maxRegNumEntries ≤ hashes.card) (written : ∀ hash ∈ hashes, ∃ edit, edits edit ∧ edit.hash = hash)
    (isEdit : edits edit) (isCopy : edits copy) (differs : edit ≠ copy) (same : edit.hash = copy.hash) :
    ¬ AnyOrder edits := by
  classical
  rintro (⟨others, few, inside⟩ | ⟨list, short, inside⟩)
  · have subset : hashes ⊆ others := by
      intro hash mem
      obtain ⟨one, isOne, rfl⟩ := written hash mem
      exact inside one isOne
    have := Finset.card_le_card subset
    omega
  · -- Without the copy the list still writes every entry.
    have subset : hashes ⊆ ((list.erase copy).map (·.hash)).toFinset := by
      intro hash mem
      obtain ⟨one, isOne, rfl⟩ := written hash mem
      rw [List.mem_toFinset, List.mem_map]
      by_cases isTheCopy : one = copy
      · exact ⟨edit, (List.mem_erase_of_ne differs).mpr (inside edit isEdit), by rw [same, isTheCopy]⟩
      · exact ⟨one, (List.mem_erase_of_ne isTheCopy).mpr (inside one isOne), rfl⟩
    have count := (Finset.card_le_card subset).trans (List.toFinset_card_le _)
    have fewer := List.length_erase_of_mem (inside copy isCopy)
    have nonempty := List.length_pos_of_mem (inside copy isCopy)
    rw [List.length_map] at count
    omega

theorem room_writeRequests {count : Nat} (layout : Layout self.fs)
    (room : StorageState.Room self (count + cmds.length)) :
    StorageState.Room (runAll self (writeRequests cmds)) count := by
  induction cmds generalizing self with
  | nil => exact room
  | cons cmd rest ih =>
    have os : (Os.inOrder : Os S.Name).Reliable := Os.inOrder_reliable
    have grows := (Call.write cmd).run_grows layout os
    exact ih grows.layout ((Call.write cmd).run_room layout os room)

/-- Writing a creation, edits that do not fill the register and one more edit stores them all, and
they are accepted if none repeats. -/
theorem fill {group : List (SignedRegisterEdit S.toRegisterScheme)}
    {last : SignedRegisterEdit S.toRegisterScheme} {usedSpace : UsedSpace}
    (isCreate : Belongs op (.create signed sectionSig)) (valid : ∀ edit ∈ group, edit.Valid op)
    (lastValid : last.Valid op) (few : (group.map (·.hash)).toFinset.card < maxRegNumEntries)
    (room : StorageState.Room (DataStorage.new .empty usedSpace : StorageState S) (group.length + 2)) :
    (∀ cmd ∈ createAndEdit signed sectionSig group ++ [.edit last], Has (runAll (DataStorage.new .empty usedSpace)
        (writeRequests (createAndEdit signed sectionSig group ++ [.edit last]))).fs (.cmd op.address cmd)) ∧
    ((createAndEdit signed sectionSig group ++ [RegisterCmd.edit last]).Nodup →
      AllOk (DataStorage.new .empty usedSpace)
        (writeRequests (createAndEdit signed sectionSig group ++ [.edit last]))) := by
  let cmds : List S.Cmd := createAndEdit signed sectionSig group
  have all : ∀ cmd ∈ cmds, Belongs op cmd := by
    show ∀ cmd ∈ createAndEdit signed sectionSig group, Belongs op cmd
    rw [createAndEdit, List.forall_mem_cons, List.forall_mem_map]
    exact ⟨isCreate, valid⟩
  have inGroup : ∀ edit, .edit edit ∈ cmds → edit.hash ∈ (group.map (·.hash)).toFinset := by
    intro edit mem
    exact List.mem_toFinset.mpr (List.mem_map_of_mem (edit_mem_createAndEdit.mp mem))
  have order : AnyOrder fun edit => .edit edit ∈ cmds := Or.inl ⟨_, few, inGroup⟩
  have length : (writeRequests cmds).length = group.length + 1 := by
    simp [writeRequests, cmds, createAndEdit]
  have writes : ∀ request ∈ writeRequests cmds, ∃ cmd ∈ cmds, request.call = .write cmd := by
    intro request mem
    obtain ⟨cmd, inside, rfl⟩ := List.mem_map.mp mem
    exact ⟨cmd, inside, rfl⟩
  obtain ⟨held, accepted⟩ := has_runAll_writes all order (writeRequests cmds) writes placed_empty
    (fun _ has => absurd has (not_has_empty _)) (room.mono (by omega))
  have layout : Layout (runAll (DataStorage.new .empty usedSpace) (writeRequests cmds)).fs :=
    layout_runAll placed_empty
  have given : ∀ cmd, Has (runAll (DataStorage.new .empty usedSpace) (writeRequests cmds)).fs
      (.cmd op.address cmd) ↔ cmd ∈ cmds := by
    intro cmd
    rw [held cmd]
    constructor
    · rintro (none | ⟨request, mem, same⟩)
      · exact absurd none (not_has_empty _)
      · obtain ⟨other, inside, rfl⟩ := List.mem_map.mp mem
        cases same
        exact inside
    · exact fun mem => Or.inr ⟨_, List.mem_map_of_mem mem, rfl⟩
  have tidy : Tidy op (runAll (DataStorage.new .empty usedSpace) (writeRequests cmds)) :=
    ⟨layout, fun cmd has => all cmd ((given cmd).mp has), order.mono fun edit has => (given _).mp has⟩
  have space : StorageState.Room (runAll (DataStorage.new .empty usedSpace) (writeRequests cmds)) 1 :=
    room_writeRequests placed_empty (room.mono (by simp [cmds, createAndEdit]; omega))
  have reliable : (Os.inOrder : Os S.Name).Reliable := Os.inOrder_reliable
  obtain ⟨lastOk, lastHas⟩ := tidy.write reliable space
    (show Belongs op (.edit last) from lastValid)
    fun _ _ => ⟨_, few, fun edit has => inGroup edit ((given _).mp has)⟩
  have grows := (Call.write (.edit last)).run_grows layout reliable
  have split : writeRequests (cmds ++ [.edit last]) =
      writeRequests cmds ++ writeRequests [.edit last] := List.map_append
  constructor
  · intro cmd mem
    show Has (runAll _ (writeRequests (cmds ++ [.edit last]))).fs _
    rw [split, runAll, Runs.run_append]
    obtain old | new := List.mem_append.mp mem
    · exact grows.kept _ ((given cmd).mpr old)
    · rw [List.mem_singleton.mp new]
      exact lastHas
  · intro nodup
    show AllOk _ (writeRequests (cmds ++ [.edit last]))
    rw [split, AllOk, Runs.throughout_append]
    refine ⟨accepted ?_ fun _ _ _ _ has => not_has_empty _ has, lastOk, trivial⟩
    rw [map_call_writeRequests]
    exact (List.nodup_append.mp nodup).1.map fun _ _ same => Call.write.inj same

end Writes

/-! ## A full register with a copy -/

/-- In every run whose calls for an address are orderly, its register can be loaded in every order of
its files. -/
theorem load_succeeds (usedSpace : UsedSpace) (addr : RegisterAddress) (requests : List (Request S))
    (orderly : Throughout addr Orderly (DataStorage.new .empty usedSpace) requests)
    (os : Os S.Name) (reliable : os.Reliable) :
    ∃ stored, tryLoadStoredRegister os (runAll (DataStorage.new .empty usedSpace) requests).fs addr = .ok stored := by
  have settled := orderly.induction (settled_empty addr usedSpace) fun _ request settled =>
    settled.run request.reliable request.call
  exact settled.load reliable

theorem load_succeeds_inverted : ∃ stored, tryLoadStoredRegister sampleOtherOs
      (runAll (DataStorage.new .empty (.new 1000 1000)) sampleInverted).fs sampleAddress = .ok stored := by
  refine load_succeeds _ _ _ ?_ sampleOtherOs sampleOtherOs_reliable
  refine throughout_orderly placed_empty _ ?_ [sampleEdit sampleAddress [] [7] 1 1] (by decide)
    (fun _ held => absurd held (not_has_empty _)) ?_
  · simp [sampleInverted, sampleWrite, Call.log, Call.address]
  · simp [sampleInverted, sampleWrite, Call.log, sampleCreate]

theorem samplePolicy_allows (owner user : Nat) :
    (samplePolicy owner).isActionAllowed (.key user) .write = .ok () := by
  have anyone : (samplePolicy owner).permissions[(.anyone : User Nat)]? = some ⟨some true⟩ := by
    simp [samplePolicy]
  have unsaid : (samplePolicy owner).permissions[(.key user : User Nat)]? = none := by
    simp [samplePolicy]
  unfold Policy.isActionAllowed
  split
  · rfl
  · simp only [Policy.isActionAllowedByUser, anyone, unsaid]
    rfl

theorem sampleEdit_valid (address : RegisterAddress) (children : List (List Nat)) (entry : Entry)
    (user owner : Nat) (small : entry.length ≤ maxRegEntrySize) :
    (sampleEdit address children entry user user).Valid (sampleOp address owner) where
  dst_eq := rfl
  suits := ⟨rfl, small⟩
  permitted := ⟨by simp [sampleEdit, ClientAuth.verifyAuthority], samplePolicy_allows owner user⟩

def sampleFiller (zeros user : Nat) : SignedRegisterEdit sampleStorage.toRegisterScheme :=
  sampleEdit sampleAddress [] (List.replicate zeros 0) user user

theorem sampleFiller_hash_injective (user : Nat) :
    Function.Injective fun zeros => (sampleFiller zeros user).hash := by
  intro left right same
  have entries : List.replicate left (0 : UInt8) = List.replicate right 0 :=
    congrArg Node.value (sampleEntryHash_injective same)
  simpa using congrArg List.length entries

def sampleGroup : List (SignedRegisterEdit sampleStorage.toRegisterScheme) :=
  sampleFiller 0 2 :: (List.range 1023).map fun zeros => sampleFiller zeros 1

def sampleFull : List sampleStorage.Cmd :=
  createAndEdit ⟨sampleOp sampleAddress 1, 1, 1, SampleStorage.create.encode (sampleOp sampleAddress 1)⟩
    ⟨0, 0, 0⟩ sampleGroup ++ [.edit (sampleFiller 1023 1)]

theorem sampleFull_nodup : sampleFull.Nodup := by
  apply List.Nodup.of_map fun cmd => cmd.edit?.elim 0 fun edit =>
    if edit.auth.publicKey = 2 then 1 else edit.op.edit.crdtOp.value.length + 2
  have keys : ∀ zeros : Nat, (List.replicate zeros (0 : UInt8)).length + 2 = zeros + 2 := by simp
  simp only [sampleFull, createAndEdit, sampleGroup, List.map_cons, List.map_append, List.map_map,
    List.map_nil, Function.comp_def, RegisterCmd.edit?, Option.elim_none, Option.elim_some,
    sampleFiller, sampleEdit, sampleEditOp, keys, ↓reduceIte, OfNat.one_ne_ofNat, List.cons_append]
  have fillers : ((List.range 1023).map (· + 2)).Nodup :=
    List.nodup_range.map fun _ _ same => Nat.add_right_cancel same
  rw [List.nodup_cons, List.nodup_cons, List.nodup_append]
  refine ⟨by simp, by simp, fillers, List.nodup_singleton _, ?_⟩
  intro key mem last isLast
  obtain ⟨zeros, small, rfl⟩ := List.mem_map.mp mem
  have := List.mem_range.mp small
  rw [List.mem_singleton.mp isLast]
  omega

/-- All commands of a full register with a copy are accepted, and then it cannot be loaded in some
order of its files. -/
theorem load_fails_full : AllOk (DataStorage.new .empty (.new 0 200000)) (writeRequests sampleFull) ∧
      ∃ os : Os sampleStorage.Name, os.Reliable ∧ ∀ stored, tryLoadStoredRegister os
        (runAll (DataStorage.new .empty (.new 0 200000)) (writeRequests sampleFull)).fs sampleAddress ≠
          .ok stored := by
  have valid : ∀ zeros user, zeros ≤ 1023 →
      (sampleFiller zeros user).Valid (sampleOp sampleAddress 1) := by
    intro zeros user small
    refine sampleEdit_valid _ _ _ user 1 ?_
    rw [List.length_replicate, maxRegEntrySize]
    omega
  have copied : (sampleFiller 0 2).hash = (sampleFiller 0 1).hash := rfl
  have groupValid : ∀ edit ∈ sampleGroup, edit.Valid (sampleOp sampleAddress 1) := by
    rw [sampleGroup, List.forall_mem_cons, List.forall_mem_map]
    refine ⟨valid 0 2 (by omega), fun zeros mem => valid zeros 1 ?_⟩
    have := List.mem_range.mp mem
    omega
  have few : (sampleGroup.map (·.hash)).toFinset.card < maxRegNumEntries := by
    have subset : (sampleGroup.map (·.hash)).toFinset ⊆
        ((List.range 1023).map fun zeros => (sampleFiller zeros 1).hash).toFinset := by
      intro hash mem
      rw [List.mem_toFinset, sampleGroup, List.map_cons, List.map_map, List.mem_cons, copied] at mem
      rw [List.mem_toFinset]
      obtain rfl | mem := mem
      · exact List.mem_map.mpr ⟨0, by simp, rfl⟩
      · exact mem
    have most := (Finset.card_le_card subset).trans (List.toFinset_card_le _)
    rw [List.length_map, List.length_range] at most
    exact Nat.lt_succ_of_le most
  have room : StorageState.Room (DataStorage.new .empty (.new 0 200000) : StorageState sampleStorage)
      (sampleGroup.length + 2) := by
    have count : sampleGroup.length = 1024 := by simp [sampleGroup]
    rw [count]
    exact ⟨by decide, by decide⟩
  have isCreate : Belongs (sampleOp sampleAddress 1) (sampleCreate sampleAddress 1 1) :=
    ⟨rfl, by simp [ClientAuth.verifyAuthority]⟩
  obtain ⟨held, accepted⟩ := fill isCreate groupValid (valid 1023 1 le_rfl) few room
  refine ⟨accepted sampleFull_nodup, ?_⟩
  by_contra loads
  push Not at loads
  have layout : Layout (runAll (DataStorage.new .empty (.new 0 200000)) (writeRequests sampleFull)).fs :=
    layout_runAll placed_empty
  have order := anyOrder_of_load layout (held _ (List.mem_append_left _ (List.mem_cons_self ..))) rfl loads
  have isHeld : ∀ zeros, zeros < 1024 → heldEdits (runAll (DataStorage.new .empty (.new 0 200000))
      (writeRequests sampleFull)).fs sampleAddress (sampleFiller zeros 1) := by
    intro zeros small
    apply held
    by_cases last : zeros = 1023
    · rw [last]
      exact List.mem_append_right _ (List.mem_singleton_self _)
    · refine List.mem_append_left _ (edit_mem_createAndEdit.mpr (List.mem_cons_of_mem _ ?_))
      exact List.mem_map.mpr ⟨zeros, List.mem_range.mpr (by omega), rfl⟩
  refine not_anyOrder ((List.range 1024).map fun zeros => (sampleFiller zeros 1).hash).toFinset
    ?_ ?_ (isHeld 0 (by omega)) (held (.edit (sampleFiller 0 2)) ?_) ?_ rfl order
  · rw [List.toFinset_card_of_nodup (List.nodup_range.map (sampleFiller_hash_injective 1)),
      List.length_map, List.length_range]
    exact le_rfl
  · intro hash mem
    obtain ⟨zeros, small, rfl⟩ := List.mem_map.mp (List.mem_toFinset.mp mem)
    exact ⟨_, isHeld zeros (List.mem_range.mp small), rfl⟩
  · exact List.mem_append_left _ (edit_mem_createAndEdit.mpr (List.mem_cons_self ..))
  · intro same
    have users := congrArg (fun edit => edit.auth.publicKey) same
    exact absurd users (by decide)

/-! ## Order of arrival -/

section Arrival

def Delivers (cmds : List S.Cmd) (requests : List (Request S)) : Prop :=
  (requests.map (·.call)).Perm (cmds.map .write)

/-- In whatever order commands arrive at an empty directory, and in whatever order the files are
listed, a read returns one register. -/
def OrderIndependent (usedSpace : UsedSpace) (addr : RegisterAddress) (cmds : List S.Cmd) : Prop :=
  ∀ requests requests', Delivers cmds requests → Delivers cmds requests' →
    ∀ os os' : Os S.Name, os.Reliable → os'.Reliable → ∀ requester, ∃ register,
      read os (runAll (DataStorage.new .empty usedSpace) requests).fs (.get addr) requester =
        .getRegister (.ok register) ∧
      read os' (runAll (DataStorage.new .empty usedSpace) requests').fs (.get addr) requester =
        .getRegister (.ok register)

variable {op : CreateRegister S.toRegisterScheme} {cmds : List S.Cmd} {requests : List (Request S)}
  {usedSpace : UsedSpace}

theorem Delivers.exists_iff (delivers : Delivers cmds requests) {cmd : S.Cmd} :
    (∃ request ∈ requests, request.call = .write cmd) ↔ cmd ∈ cmds := by
  have same := List.Perm.mem_iff delivers (a := .write cmd)
  simpa using same

/-- Commands that belong to a register and can be applied in any order are all stored, in whatever
order they arrive. -/
theorem Delivers.has_iff (delivers : Delivers cmds requests) (all : ∀ cmd ∈ cmds, Belongs op cmd)
    (order : AnyOrder fun edit => .edit edit ∈ cmds)
    (room : StorageState.Room (DataStorage.new .empty usedSpace : StorageState S) cmds.length) (cmd : S.Cmd) :
    Has (runAll (DataStorage.new .empty usedSpace) requests).fs (.cmd op.address cmd) ↔ cmd ∈ cmds := by
  have length : requests.length = cmds.length := by
    simpa using List.Perm.length_eq delivers
  have writes : ∀ request ∈ requests, ∃ cmd ∈ cmds, request.call = .write cmd := by
    intro request mem
    obtain ⟨cmd, inside, same⟩ := List.mem_map.mp
      ((List.Perm.mem_iff delivers).mp (List.mem_map_of_mem (f := Request.call) mem))
    exact ⟨cmd, inside, same.symm⟩
  rw [← length] at room
  rw [(has_runAll_writes all order requests writes placed_empty
    (fun _ has => absurd has (not_has_empty _)) room).1, delivers.exists_iff]
  exact ⟨fun given => given.resolve_left (not_has_empty _), Or.inr⟩

theorem read_belongs {fs : Fs S.Name} (layout : Layout fs) (all : ∀ cmd ∈ cmds, Belongs op cmd)
    (order : AnyOrder fun edit => .edit edit ∈ cmds) {create : S.Cmd} (given : create ∈ cmds)
    (isCreate : create.create? = some op)
    (has : ∀ cmd, Has fs (.cmd op.address cmd) ↔ cmd ∈ cmds) (reliable : os.Reliable) (requester : User S.UserKey) :
    read os fs (.get op.address) requester = .getRegister (.ok (op.register.growAll (editsOf cmds))) := by
  have isLog := storedLog_isLog layout reliable op.address
  have listed : ∀ cmd, cmd ∈ storedLog os fs op.address ↔ cmd ∈ cmds :=
    fun cmd => (isLog.mem_iff cmd).trans (has cmd)
  have some := firstCreate_isSome.mpr ⟨create, (listed create).mpr given, by rw [isCreate]; rfl⟩
  obtain ⟨op', first⟩ := Option.isSome_iff_exists.mp some
  obtain ⟨create', inside, isCreate'⟩ := exists_of_firstCreate first
  obtain rfl := (all create' ((listed create').mp inside)).eq_of_create isCreate'
  have fits := (order.mono fun edit held => (has _).mp held).fits isLog
  refine read_get_eq_ok.mpr ⟨op', first, fun edit mem => ?_, fits, ?_⟩
  · have valid : edit.Valid op' := all _ ((listed _).mp (mem_editsOf.mp mem))
    exact valid.suits
  · apply Register.ext_known
    · simp
    · simp
    · simp
    · ext hash
      simp only [Register.known_growAll, Finset.mem_union, List.mem_toFinset, List.mem_map,
        mem_editsOf, listed]

/-- An edit that no register of a creation accepts is stored, and no creation. -/
structure Blocked (op : CreateRegister S.toRegisterScheme)
    (bad : SignedRegisterEdit S.toRegisterScheme) (storage : StorageState S) : Prop where
  layout : Layout storage.fs
  edit : heldEdits storage.fs op.address bad
  creations : ∀ cmd, Has storage.fs (.cmd op.address cmd) → cmd.create? = none

variable {bad : SignedRegisterEdit S.toRegisterScheme}

theorem Blocked.apply (blocked : Blocked op bad self) (invalid : ¬ bad.Valid op)
    (request : Request S) {cmd : S.Cmd} (same : request.call = .write cmd)
    (address : cmd.dstAddress = op.address) (own : ∀ op', cmd.create? = some op' → op' = op) :
    Blocked op bad (request.apply self) := by
  have grows := request.call.run_grows blocked.layout request.reliable
  refine ⟨grows.layout, grows.kept _ blocked.edit, fun other has => ?_⟩
  obtain ⟨listed, isLog, ⟨error, failed, -⟩ | ⟨stored, loaded, writes⟩⟩ :=
    request.call.run_cases blocked.layout request.reliable
  · rw [Request.apply, failed] at has
    exact blocked.creations other has
  · rw [same, show (Call.write cmd).address = op.address from address] at isLog loaded writes
    rw [Request.apply, same] at has
    obtain old | new := writes.grows.new _ has
    · exact blocked.creations other old
    · obtain ⟨one, accepted, isOne⟩ := List.mem_map.mp new
      obtain ⟨-, rfl⟩ := Item.cmd.inj isOne
      obtain rfl := List.mem_singleton.mp ((acceptCmds_sublist stored [cmd]).subset accepted)
      -- The creation would have to check the stored edit.
      have none : firstCreate listed = none := firstCreate_eq_none.mpr fun create mem =>
        blocked.creations create ((isLog.mem_iff create).mp mem)
      obtain ⟨-, rfl⟩ | ⟨_, some, -⟩ := loadLog_eq_ok.mp loaded
      · cases done : tryToApplyCmdAgainstRegisterState one
            ⟨Option.none, listed, RegisterStore.addressToFilepath S op.address⟩ with
        | error error =>
          rw [show acceptCmds _ (Call.write one).log = [] from acceptCmds_cons_error done] at accepted
          cases accepted
        | ok stored' =>
          obtain ⟨signed, sectionSig, rfl, ⟨-, dsts, checked, -⟩, -⟩ | ⟨edit, rfl, -⟩ :=
            (tryToApply_none rfl).mp done
          · obtain rfl := own _ rfl
            have inside : .edit bad ∈ listed := (isLog.mem_iff _).mpr blocked.edit
            obtain ⟨suits, permitted⟩ := checked bad (mem_editsOf.mpr inside)
            exact absurd ⟨dsts _ inside, suits, permitted⟩ invalid
          · rfl
      · rw [none] at some
        cases some

theorem blocked_of_empty (usedSpace : UsedSpace) (request : Request S) (same : request.call = .write (.edit bad))
    (address : bad.op.address = op.address)
    (room : StorageState.Room (DataStorage.new .empty usedSpace : StorageState S) 1) :
    Blocked op bad (request.apply (DataStorage.new .empty usedSpace)) := by
  have dst : (Call.write (.edit bad)).address = op.address := address
  have start : Layout (DataStorage.new .empty usedSpace : StorageState S).fs := placed_empty
  have grows := request.call.run_grows start request.reliable
  have stored : heldEdits (request.apply (DataStorage.new .empty usedSpace)).fs op.address bad := by
    obtain ⟨listed, isLog, outcome⟩ := request.call.run_cases start request.reliable
    have empty : listed = [] := List.eq_nil_iff_forall_not_mem.mpr fun cmd mem =>
      not_has_empty _ ((isLog.mem_iff cmd).mp mem)
    subst empty
    rw [same, dst] at outcome
    have loaded : loadLog (RegisterStore.addressToFilepath S op.address) [] =
        .ok ⟨none, [], RegisterStore.addressToFilepath S op.address⟩ := rfl
    rw [loaded] at outcome
    obtain ⟨error, -, failed | ⟨_, _, isWrite, isStored, failed⟩⟩ | ⟨stored, isStored, writes⟩ := outcome
    · cases failed
    · cases isWrite
      cases isStored
      cases failed
    · cases isStored
      obtain ⟨level, ok⟩ := writes.room room
      rw [Request.apply, same]
      exact writes.has level ok _ (List.mem_singleton_self _)
  refine ⟨grows.layout, stored, fun cmd has => ?_⟩
  rw [same] at grows
  obtain old | new := grows.new _ (by rw [Request.apply, same] at has; exact has)
  · exact absurd old (not_has_empty _)
  · obtain ⟨one, mem, isOne⟩ := List.mem_map.mp new
    obtain ⟨-, rfl⟩ := Item.cmd.inj isOne
    rw [List.mem_singleton.mp mem]
    rfl

theorem delivers_writeRequests {order : List S.Cmd} (perm : order.Perm cmds) :
    Delivers cmds (writeRequests order) := by
  rw [Delivers, map_call_writeRequests]
  exact perm.map _

variable {signed : SignedRegisterCreate S.toRegisterScheme} {sectionSig : SectionSig S.toKeyScheme}
  {edits : List (SignedRegisterEdit S.toRegisterScheme)}

theorem OrderIndependent.valid
    (independent : OrderIndependent usedSpace signed.op.address (createAndEdit signed sectionSig edits))
    (addressed : ∀ edit ∈ edits, edit.op.address = signed.op.address)
    (room : StorageState.Room (DataStorage.new .empty usedSpace : StorageState S) 1)
    {bad : SignedRegisterEdit S.toRegisterScheme} (given : bad ∈ edits) : bad.Valid signed.op := by
  by_contra invalid
  -- The bad edit arrives first.
  obtain ⟨before, after, rfl⟩ := List.append_of_mem given
  let rest : List S.Cmd := createAndEdit signed sectionSig (before ++ after)
  have perm : (.edit bad :: rest).Perm (createAndEdit signed sectionSig (before ++ bad :: after)) :=
    (List.Perm.swap _ _ _).trans ((List.perm_middle.symm.map _).cons _)
  have delivers := delivers_writeRequests perm
  have reliable : (Os.inOrder : Os S.Name).Reliable := Os.inOrder_reliable
  obtain ⟨register, found, -⟩ := independent _ _ delivers delivers _ _ reliable reliable .anyone
  have first := blocked_of_empty usedSpace ⟨_, reliable, .write (.edit bad)⟩ rfl (addressed bad given)
    room
  have blocked : Blocked signed.op bad (runAll (DataStorage.new .empty usedSpace)
      (writeRequests (.edit bad :: rest))) := by
    show Blocked signed.op bad (Runs.run Request.apply _ (writeRequests rest))
    refine Runs.run_induction first fun self blocked request mem => ?_
    obtain ⟨cmd, inside, rfl⟩ := List.mem_map.mp mem
    refine blocked.apply invalid _ rfl ?_ ?_
    · obtain rfl | isEdit := List.mem_cons.mp inside
      · rfl
      · obtain ⟨edit, part, rfl⟩ := List.mem_map.mp isEdit
        exact addressed edit (List.perm_middle.symm.subset (List.mem_cons_of_mem _ part))
    · intro op isCreate
      obtain rfl | isEdit := List.mem_cons.mp inside
      · exact (Option.some.inj isCreate).symm
      · obtain ⟨edit, -, rfl⟩ := List.mem_map.mp isEdit
        cases isCreate
  obtain ⟨op, some, -⟩ := read_get_eq_ok.mp found
  obtain ⟨create, mem, isCreate⟩ := exists_of_firstCreate some
  have isLog := storedLog_isLog blocked.layout reliable signed.op.address
  rw [blocked.creations create ((isLog.mem_iff create).mp mem)] at isCreate
  cases isCreate

theorem card_hashes_filter_lt {last : SignedRegisterEdit S.toRegisterScheme} (inside : last ∈ edits) :
    ((edits.filter fun other => other.hash ≠ last.hash).map (·.hash)).toFinset.card <
      (edits.map (·.hash)).toFinset.card := by
  have subset : ((edits.filter fun other => other.hash ≠ last.hash).map (·.hash)).toFinset ⊆
      (edits.map (·.hash)).toFinset.erase last.hash := by
    intro hash mem
    obtain ⟨other, isOther, rfl⟩ := List.mem_map.mp (List.mem_toFinset.mp mem)
    obtain ⟨given, differs⟩ := List.mem_filter.mp isOther
    exact Finset.mem_erase.mpr ⟨of_decide_eq_true differs,
      List.mem_toFinset.mpr (List.mem_map_of_mem given)⟩
  exact (Finset.card_le_card subset).trans_lt
    (Finset.card_erase_lt_of_mem (List.mem_toFinset.mpr (List.mem_map_of_mem inside)))

theorem OrderIndependent.injective
    (independent : OrderIndependent usedSpace signed.op.address (createAndEdit signed sectionSig edits))
    (verifies : signed.auth.verifyAuthority (S.serializeCreate signed.op) = true)
    (valid : ∀ edit ∈ edits, edit.Valid signed.op) (full : (edits.map (·.hash)).toFinset.card = maxRegNumEntries)
    (room : StorageState.Room (DataStorage.new .empty usedSpace : StorageState S) (edits.length + 1))
    {edit copy : SignedRegisterEdit S.toRegisterScheme} (given : edit ∈ edits) (again : copy ∈ edits)
    (same : edit.hash = copy.hash) : edit = copy := by
  by_contra differs
  -- Another entry arrives when all others are there, those of the two edits among them.
  have several : 1 < (edits.map (·.hash)).toFinset.card := by
    rw [full]
    decide
  obtain ⟨lastHash, mem, apart⟩ := Finset.exists_mem_ne several edit.hash
  obtain ⟨last, inside, rfl⟩ := List.mem_map.mp (List.mem_toFinset.mp mem)
  let group := edits.filter fun other => other.hash ≠ last.hash
  have inGroup : ∀ other ∈ edits, other.hash ≠ last.hash → other ∈ group :=
    fun other mem differs => List.mem_filter.mpr ⟨mem, decide_eq_true differs⟩
  have split : (group ++ edits.filter fun other => !decide (other.hash ≠ last.hash)).Perm edits :=
    List.filter_append_perm _ _
  obtain ⟨before, after, shape⟩ := List.append_of_mem
    (show last ∈ edits.filter fun other => !decide (other.hash ≠ last.hash) by simp [inside])
  rw [shape] at split
  let order := createAndEdit signed sectionSig group ++ [.edit last]
  have perm : (order ++ (before ++ after).map RegisterCmd.edit).Perm
      (createAndEdit signed sectionSig edits) := by
    have parts : order ++ (before ++ after).map .edit =
        createAndEdit signed sectionSig (group ++ last :: (before ++ after)) := by
      simp [order, createAndEdit]
    rw [parts]
    exact (((List.perm_middle.symm.append_left group).trans split).map _).cons _
  have few : (group.map (·.hash)).toFinset.card < maxRegNumEntries :=
    (card_hashes_filter_lt inside).trans_eq full
  have count : group.length + 2 ≤ edits.length + 1 := by
    have lengths := split.length_eq
    simp only [List.length_append, List.length_cons] at lengths
    omega
  obtain ⟨held, -⟩ := fill
    (show Belongs signed.op (.create signed sectionSig) from ⟨rfl, verifies⟩)
    (fun other mem => valid other (List.mem_filter.mp mem).1) (valid last inside) few (room.mono count)
  have stored : ∀ cmd ∈ order, Has (runAll (DataStorage.new .empty usedSpace)
      (writeRequests (order ++ (before ++ after).map .edit))).fs (.cmd signed.op.address cmd) := by
    intro cmd mem
    rw [writeRequests, List.map_append, runAll, Runs.run_append]
    exact kept_runAll (layout_runAll placed_empty) (held cmd mem)
  have stored' : ∀ other ∈ edits, other.hash ≠ last.hash → heldEdits (runAll
      (DataStorage.new .empty usedSpace) (writeRequests (order ++ (before ++ after).map .edit))).fs
        signed.op.address other := fun other mem differs =>
    stored _ (List.mem_append_left _ (edit_mem_createAndEdit.mpr (inGroup other mem differs)))
  refine not_anyOrder _ full.ge ?_ (stored' edit given fun same => apart same.symm)
    (stored' copy again fun same' => apart (same.trans same').symm) differs same
    (anyOrder_of_load (layout_runAll placed_empty)
      (stored _ (List.mem_append_left _ (List.mem_cons_self ..))) rfl fun os reliable => ?_)
  · intro hash mem
    obtain ⟨other, isOther, rfl⟩ := List.mem_map.mp (List.mem_toFinset.mp mem)
    by_cases isLast : other.hash = last.hash
    · exact ⟨last, stored _ (List.mem_append_right _ (List.mem_singleton_self _)), isLast.symm⟩
    · exact ⟨other, stored' other isOther isLast, rfl⟩
  · have delivers := delivers_writeRequests perm
    obtain ⟨register, found, -⟩ := independent _ _ delivers delivers os os reliable reliable .anyone
    obtain ⟨op, first, suits, fits, -⟩ := read_get_eq_ok.mp found
    rw [tryLoadStoredRegister_eq]
    exact ⟨_, loadLog_eq_ok.mpr (Or.inr ⟨op, first, suits, fits, rfl⟩)⟩

/-- The order in which a creation and edits for it arrive at a node with space for them does not
matter exactly when all edits are valid, and they do not fill the register or no two of them write one
entry. -/
theorem orderIndependent_iff (usedSpace : UsedSpace) (signed : SignedRegisterCreate S.toRegisterScheme)
    (sectionSig : SectionSig S.toKeyScheme) (edits : List (SignedRegisterEdit S.toRegisterScheme))
    (verifies : signed.auth.verifyAuthority (S.serializeCreate signed.op) = true)
    (addressed : ∀ edit ∈ edits, edit.op.address = signed.op.address)
    (few : (edits.map (·.hash)).toFinset.card ≤ maxRegNumEntries)
    (room : StorageState.Room (DataStorage.new .empty usedSpace : StorageState S) (edits.length + 1)) :
    OrderIndependent usedSpace signed.op.address (createAndEdit signed sectionSig edits) ↔
      (∀ edit ∈ edits, edit.Valid signed.op) ∧
        ((edits.map (·.hash)).toFinset.card < maxRegNumEntries ∨
          ∀ edit ∈ edits, ∀ copy ∈ edits, edit.hash = copy.hash → edit = copy) := by
  constructor
  · intro independent
    have valid : ∀ edit ∈ edits, edit.Valid signed.op :=
      fun edit mem => independent.valid addressed (room.mono (Nat.le_add_left 1 _)) mem
    refine ⟨valid, or_iff_not_imp_left.mpr fun full edit given copy again same => ?_⟩
    exact independent.injective verifies valid (Nat.le_antisymm few (Nat.not_lt.mp full)) room given again same
  · rintro ⟨valid, shape⟩ requests requests' delivers delivers' os os' reliable reliable' requester
    have all : ∀ cmd ∈ createAndEdit signed sectionSig edits, Belongs signed.op cmd := by
      rw [createAndEdit, List.forall_mem_cons, List.forall_mem_map]
      exact ⟨⟨rfl, verifies⟩, valid⟩
    have order : AnyOrder fun edit => .edit edit ∈ createAndEdit signed sectionSig edits := by
      simp only [edit_mem_createAndEdit]
      obtain small | injective := shape
      · exact Or.inl ⟨_, small, fun edit mem => List.mem_toFinset.mpr (List.mem_map_of_mem mem)⟩
      · -- Without repeats there are as many edits as entries.
        classical
        have nodup : (edits.dedup.map (·.hash)).Nodup := by
          refine List.Nodup.map_on (fun edit mem copy mem' => ?_) (List.nodup_dedup _)
          exact injective edit (List.mem_dedup.mp mem) copy (List.mem_dedup.mp mem')
        refine Or.inr ⟨edits.dedup, ?_, fun edit mem => List.mem_dedup.mpr mem⟩
        rw [← List.length_map (f := (·.hash)), ← List.toFinset_card_of_nodup nodup]
        refine (Finset.card_le_card fun hash mem => ?_).trans few
        obtain ⟨edit, isEdit, rfl⟩ := List.mem_map.mp (List.mem_toFinset.mp mem)
        exact List.mem_toFinset.mpr (List.mem_map_of_mem (List.mem_dedup.mp isEdit))
    have space : StorageState.Room (DataStorage.new .empty usedSpace : StorageState S)
        (createAndEdit signed sectionSig edits).length := room.mono (by simp [createAndEdit])
    exact ⟨_, read_belongs (layout_runAll placed_empty) all order (List.mem_cons_self ..) rfl
        (delivers.has_iff all order space) reliable requester,
      read_belongs (layout_runAll placed_empty) all order (List.mem_cons_self ..) rfl
        (delivers'.has_iff all order space) reliable' requester⟩

theorem orderIndependent_pair : OrderIndependent (S := sampleStorage) (.new 1000 1000) sampleAddress
      (createAndEdit ⟨sampleOp sampleAddress 1, 1, 1, SampleStorage.create.encode (sampleOp sampleAddress 1)⟩
        ⟨0, 0, 0⟩ [sampleEdit sampleAddress [] [7] 1 1, sampleEdit sampleAddress [] [8] 2 2]) := by
  refine (orderIndependent_iff (.new 1000 1000) _ _ _ ?_ ?_ ?_ ?_).mpr ⟨?_, Or.inl ?_⟩
  · simp [ClientAuth.verifyAuthority]
  · simp [sampleEdit, sampleEditOp, sampleOp, CreateRegister.address]
  · exact (List.toFinset_card_le _).trans (by decide)
  · exact ⟨by decide, by decide⟩
  · simp only [List.forall_mem_cons, List.not_mem_nil, false_implies, implies_true, and_true]
    exact ⟨sampleEdit_valid _ _ _ 1 1 (by decide), sampleEdit_valid _ _ _ 2 1 (by decide)⟩
  · exact (List.toFinset_card_le _).trans_lt (by decide)

/-- An edit that its user did not sign is refused after the creation, and keeps the creation out when
it comes first. -/
theorem arrival_order_matters : (register? (read sampleOs (runAll (DataStorage.new .empty (.new 1000 1000))
      (writeRequests [sampleCreate sampleAddress 1 1, .edit (sampleEdit sampleAddress [] [7] 1 2)])).fs
        (.get sampleAddress) .anyone)).isSome = true ∧
    (register? (read sampleOs (runAll (DataStorage.new .empty (.new 1000 1000))
      (writeRequests [.edit (sampleEdit sampleAddress [] [7] 1 2), sampleCreate sampleAddress 1 1])).fs
        (.get sampleAddress) .anyone)).isSome = false := by
  decide +kernel

end Arrival

end RegisterStorage

end SafeNetwork

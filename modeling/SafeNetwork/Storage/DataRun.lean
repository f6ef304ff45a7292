import SafeNetwork.Storage.RegisterOrder

/-!
# Runs of the data storage

Sequences of `store` calls with any data, without faults of the operating system. Storing register
data is a call of the register storage, and storing a chunk leaves the registers alone. When every log
is for the address it is sent for, the directory of a register holds its own commands only. The shares
of a spentbook are entries of a register, which anyone may write to, so a share stays readable as long
as no entry supersedes it.
-/

namespace SafeNetwork

open Std Crdt FileSystem BoundedFill

variable {S : StorageScheme} {self : StorageState S} {os : Os S.Name}

/-! ## Storing -/

theorem ChunkStorage.store_cases (layout : Layout self.fs) (reliable : os.Reliable) (chunk : Chunk S) :
    (self.fs.get (Item.chunk chunk).path).isSome = true ∧
      store os self chunk = (.ok .noChange, self) ∨
    self.usedSpace.canAdd chunk.value.length = false ∧
      store os self chunk = (.error .notEnoughSpace, self) ∨
    self.fs.get (Item.chunk chunk).path = none ∧
      self.usedSpace.canAdd chunk.value.length = true ∧ ∃ level, store os self chunk =
        (.ok level, (self.makeDirs os (Item.chunk chunk).dir).add (.chunk chunk)) := by
  have seen : self.fs.pathExists os (chunkAddrToFilepath S chunk.address) =
      (self.fs.get (Item.chunk chunk).path).isSome := Fs.pathExists_eq reliable
  cases stands : (self.fs.get (Item.chunk chunk).path).isSome with
  | true =>
    rw [store, if_pos (seen.trans stands)]
    exact Or.inl ⟨rfl, rfl⟩
  | false =>
    rw [store, if_neg (by rw [seen, stands]; exact Bool.false_ne_true)]
    cases space : self.usedSpace.canAdd chunk.value.length with
    | false => exact Or.inr (Or.inl ⟨rfl, rfl⟩)
    | true =>
      have made := StorageState.createDirAll_eq layout reliable (.chunk chunk)
      have dirs := StorageState.makeDirs_grows os layout (.chunk chunk)
      have there := StorageState.there_makeDirs layout reliable (.chunk chunk)
      have directory := there _ Item.dir_ne_nil (List.prefix_refl _)
      have parent : (self.makeDirs os (Item.chunk chunk).dir).fs.isDirectory
          (Item.chunk chunk).path.dropLast = true := by
        rw [Item.dropLast_path, Fs.isDirectory, directory]
        simp
      have written := Fs.persist_eq chunk.value reliable parent dirs.layout.get_path_ne
      have parents : (chunkAddrToFilepath S chunk.address).dropLast = (Item.chunk chunk).dir :=
        (Item.dropLast_path : (Item.chunk chunk).path.dropLast = _)
      rw [Bool.not_true, if_neg Bool.false_ne_true, parents, made]
      refine Or.inr (Or.inr ⟨by simpa using stands, rfl, ?_⟩)
      rw [Item.path_chunk] at written
      simp only [written]
      exact ⟨_, rfl⟩

theorem ChunkStorage.store_grows (layout : Layout self.fs) (reliable : os.Reliable) (chunk : Chunk S) :
    Grows self [.chunk chunk] (store os self chunk).2 := by
  obtain ⟨-, same⟩ | ⟨-, same⟩ | ⟨absent, space, level, same⟩ := store_cases layout reliable chunk
  · rw [same]
    exact .refl layout
  · rw [same]
    exact .refl layout
  · have dirs := StorageState.makeDirs_grows os layout (.chunk chunk)
    have there := StorageState.there_makeDirs layout reliable (.chunk chunk)
    have free : (self.makeDirs os (Item.chunk chunk).dir).fs.get (Item.chunk chunk).path = none := by
      obtain kept | ⟨above, -, -⟩ := Fs.get_createDirAll os self.fs (Item.chunk chunk).dir
        (Item.chunk chunk).path
      · exact kept.trans absent
      · exact absurd rfl (Item.path_ne_of_isPrefix above)
    have added : (self.makeDirs os (Item.chunk chunk).dir).addNew (.chunk chunk) =
        (self.makeDirs os (Item.chunk chunk).dir).add (.chunk chunk) := by
      have able : (self.makeDirs os (Item.chunk chunk).dir).usedSpace.canAdd
          (Item.chunk chunk).amount = true := space
      rw [StorageState.addNew, free, able]
      rfl
    rw [same, ← added]
    exact dirs.trans (StorageState.addNew_grows dirs.layout there)

namespace DataStorage

/-- The call of the register storage that stores some data, unless it is a chunk. -/
def registerCall (sectionPk : S.UserKey) (nodeKeypair : S.Keypair)
    (sectionSig : SectionSig S.toKeyScheme) : ReplicatedData S → Option (RegisterStorage.Call S)
  | .chunk _ => none
  | .registerLog log => some (.update log)
  | .registerWrite cmd => some (.write cmd)
  | .spentbookWrite cmd =>
    some (.update (RegisterStorage.spentbookLog cmd sectionPk nodeKeypair sectionSig))
  | .spentbookLog log => some (.update log)

variable {data : ReplicatedData S} {sectionPk : S.UserKey} {nodeKeypair : S.Keypair}
  {sectionSig : SectionSig S.toKeyScheme} {call : RegisterStorage.Call S} {addr : RegisterAddress}

theorem store_eq_run (isCall : registerCall sectionPk nodeKeypair sectionSig data = some call) :
    store os self data sectionPk nodeKeypair sectionSig = call.run os self := by
  cases data with
  | chunk chunk => cases isCall
  | registerWrite cmd => cases isCall; rfl
  | registerLog log => cases isCall; rfl
  | spentbookWrite cmd => cases isCall; rfl
  | spentbookLog log => cases isCall; rfl

theorem eq_chunk_of_registerCall (noCall : registerCall sectionPk nodeKeypair sectionSig data = none) :
    ∃ chunk, data = .chunk chunk := by
  cases data with
  | chunk chunk => exact ⟨chunk, rfl⟩
  | registerWrite cmd => cases noCall
  | registerLog log => cases noCall
  | spentbookWrite cmd => cases noCall
  | spentbookLog log => cases noCall

theorem store_grows (data : ReplicatedData S) (sectionPk : S.UserKey) (nodeKeypair : S.Keypair)
    (sectionSig : SectionSig S.toKeyScheme) (layout : Layout self.fs) (reliable : os.Reliable) :
    ∃ items, Grows self items (store os self data sectionPk nodeKeypair sectionSig).2 ∧
      (∀ addr cmd, .cmd addr cmd ∈ items → ∃ call,
        registerCall sectionPk nodeKeypair sectionSig data = some call ∧ call.address = addr ∧
          cmd ∈ call.log) ∧
      ∀ chunk, .chunk chunk ∈ items → data = .chunk chunk := by
  cases isCall : registerCall sectionPk nodeKeypair sectionSig data with
  | some call =>
    rw [store_eq_run isCall]
    refine ⟨_, call.run_grows layout reliable, fun addr cmd mem => ?_, fun chunk mem => ?_⟩
    · obtain ⟨_, inside, same⟩ := List.mem_map.mp mem
      obtain ⟨rfl, rfl⟩ := Item.cmd.inj same
      exact ⟨call, rfl, rfl, inside⟩
    · obtain ⟨_, _, same⟩ := List.mem_map.mp mem
      cases same
  | none =>
    obtain ⟨chunk, rfl⟩ := eq_chunk_of_registerCall isCall
    refine ⟨_, ChunkStorage.store_grows layout reliable chunk, fun addr cmd mem => ?_, fun other mem => ?_⟩
    · cases List.mem_singleton.mp mem
    · cases List.mem_singleton.mp mem
      rfl

/-- A store call with the operating system during it, which does not fail, and the signature that a
spentbook's new creation gets. -/
structure Request (S : StorageScheme) where
  os : Os S.Name
  reliable : os.Reliable
  data : ReplicatedData S
  sectionPk : S.UserKey
  nodeKeypair : S.Keypair
  sectionSig : SectionSig S.toKeyScheme

namespace Request

def apply (self : StorageState S) (request : Request S) : StorageState S :=
  (store request.os self request.data request.sectionPk request.nodeKeypair request.sectionSig).2

def call? (request : Request S) : Option (RegisterStorage.Call S) :=
  registerCall request.sectionPk request.nodeKeypair request.sectionSig request.data

variable {request : Request S}

theorem apply_grows (layout : Layout self.fs) (request : Request S) :
    Layout (request.apply self).fs ∧ ∀ item, Has self.fs item → Has (request.apply self).fs item := by
  obtain ⟨items, grows, -⟩ := store_grows request.data request.sectionPk request.nodeKeypair
    request.sectionSig layout request.reliable
  exact ⟨grows.layout, grows.kept⟩

theorem has_apply (layout : Layout self.fs) {cmd : S.Cmd}
    (has : Has (request.apply self).fs (.cmd addr cmd)) : Has self.fs (.cmd addr cmd) ∨
      ∃ call, request.call? = some call ∧ call.address = addr ∧ cmd ∈ call.log := by
  obtain ⟨items, grows, cmds, -⟩ := store_grows request.data request.sectionPk
    request.nodeKeypair request.sectionSig layout request.reliable
  exact (grows.new _ has).imp id (cmds addr cmd)

end Request

/-- The storage after requests, one after the other. -/
abbrev runAll (self : StorageState S) (requests : List (Request S)) : StorageState S :=
  Runs.run Request.apply self requests

theorem kept_runAll {requests : List (Request S)} {item : Item S} (layout : Layout self.fs)
    (has : Has self.fs item) : Has (runAll self requests).fs item := by
  have both : Layout (runAll self requests).fs ∧ Has (runAll self requests).fs item :=
    Runs.run_induction (motive := fun self : StorageState S => Layout self.fs ∧ Has self.fs item)
      ⟨layout, has⟩ fun self ⟨layout, has⟩ request _ =>
        ⟨(request.apply_grows layout).1, (request.apply_grows layout).2 item has⟩
  exact both.2

/-! ## Directories hold their own commands -/

def WellAddressed : ReplicatedData S → Prop
  | .chunk _ => True
  | .registerWrite _ => True
  | .registerLog log => ∀ cmd ∈ log.opLog, cmd.dstAddress = log.address
  -- The new creation has the tag of spentbooks.
  | .spentbookWrite cmd => cmd.dstAddress.tag = spentbookTypeTag
  | .spentbookLog log => ∀ cmd ∈ log.opLog, cmd.dstAddress = log.address

theorem WellAddressed.dstAddress (addressed : WellAddressed data)
    (isCall : registerCall sectionPk nodeKeypair sectionSig data = some call) :
    ∀ cmd ∈ call.log, cmd.dstAddress = call.address := by
  cases data with
  | chunk chunk => cases isCall
  | registerLog log => cases isCall; exact addressed
  | spentbookLog log => cases isCall; exact addressed
  | registerWrite cmd =>
    cases isCall
    intro other mem
    rw [List.mem_singleton.mp mem]
    rfl
  | spentbookWrite cmd =>
    cases isCall
    intro other mem
    obtain rfl | rfl := List.mem_pair.mp mem
    · exact RegisterAddress.ext rfl addressed.symm
    · rfl

/-- The directory of an address holds its own commands only, so that reading it returns a register of
the address, and it is listed when there is a command for it. -/
structure OwnCommands (fs : Fs S.Name) (addr : RegisterAddress) : Prop where
  file : ∀ path bytes cmd, RegisterStore.addressToFilepath S addr <+: path →
    fs.get path = some (.file bytes) → S.deserialise bytes = some cmd → cmd.dstAddress = addr
  register : ∀ (os : Os S.Name), os.Reliable → ∀ requester register,
    RegisterStorage.read os fs (.get addr) requester = .getRegister (.ok register) →
      register.address = addr
  listed : ∀ (os : Os S.Name), os.Reliable → (.register addr ∈ dataAddrs os fs ↔
    ∃ path bytes cmd, [.register] <+: path ∧ fs.get path = some (.file bytes) ∧
      S.deserialise bytes = some cmd ∧ cmd.dstAddress = addr)

def Filed (fs : Fs S.Name) : Prop :=
  ∀ addr cmd, Has fs (.cmd addr cmd) → cmd.dstAddress = addr

theorem filed_runAll (usedSpace : UsedSpace) (requests : List (Request S))
    (addressed : ∀ request ∈ requests, WellAddressed request.data) :
    Layout (runAll (new .empty usedSpace) requests).fs ∧
      Filed (runAll (new .empty usedSpace) requests).fs := by
  refine Runs.run_induction (motive := fun self : StorageState S => Layout self.fs ∧ Filed self.fs)
    ⟨placed_empty, fun _ _ has => absurd has (not_has_empty _)⟩ ?_
  rintro self ⟨layout, filed⟩ request mem
  refine ⟨(request.apply_grows layout).1, fun addr cmd has => ?_⟩
  obtain old | ⟨call, isCall, rfl, inside⟩ := Request.has_apply layout has
  · exact filed addr cmd old
  · exact (addressed request mem).dstAddress isCall cmd inside

section Listing

variable {fs : Fs S.Name} {addrs : List (S.Path × RegisterAddress)} {paths : List S.Path}

theorem isPrefix_path_iff {item : Item S} : [.register] <+: item.path ↔ ∃ addr cmd, item = .cmd addr cmd := by
  cases item with
  | chunk chunk => simp [Item.path, Item.dir, prefixTreePath]
  | cmd addr cmd => simp [Item.path, Item.dir, RegisterStore.addressToFilepath, prefixTreePath]

theorem listRegAddr_eq (reliable : os.Reliable) {cmd : S.Cmd} (has : Has fs (.cmd addr cmd)) :
    RegisterStore.listRegAddr os fs addrs (Item.cmd addr cmd).path =
      if addrs.any (fun found => found.1 = RegisterStore.addressToFilepath S addr) then addrs
      else addrs ++ [(RegisterStore.addressToFilepath S addr, cmd.dstAddress)] := by
  have stored : fs.read os (Item.cmd addr cmd).path = .ok (S.serialise cmd) :=
    Fs.read_file reliable has
  simp only [RegisterStore.listRegAddr, stored, Item.dropLast_path, S.deserialise_serialise]
  rfl

/-- When commands are stored under the addresses they are for, listing their files gives these
addresses. -/
theorem mem_foldl_listRegAddr (reliable : os.Reliable) (filed : Filed fs)
    (inside : ∀ path ∈ paths, ∃ addr cmd, Has fs (.cmd addr cmd) ∧ path = (Item.cmd addr cmd).path)
    (met : ∀ found ∈ addrs, found.1 = RegisterStore.addressToFilepath S found.2) :
    addr ∈ (paths.foldl (RegisterStore.listRegAddr os fs) addrs).map Prod.snd ↔
      addr ∈ addrs.map Prod.snd ∨ ∃ cmd : S.Cmd, (Item.cmd addr cmd).path ∈ paths := by
  induction paths generalizing addrs with
  | nil => simp
  | cons path rest ih =>
    rw [List.forall_mem_cons] at inside
    obtain ⟨⟨here, cmd, has, rfl⟩, inside⟩ := inside
    have others : (∃ one : S.Cmd, (Item.cmd addr one).path ∈ (Item.cmd here cmd).path :: rest) ↔
        addr = here ∨ ∃ one : S.Cmd, (Item.cmd addr one).path ∈ rest := by
      constructor
      · rintro ⟨one, mem⟩
        obtain same | later := List.mem_cons.mp mem
        · exact Or.inl (Item.cmd.inj (Item.eq_cmd_of_path same)).1
        · exact Or.inr ⟨one, later⟩
      · rintro (rfl | ⟨one, later⟩)
        · exact ⟨cmd, List.mem_cons_self ..⟩
        · exact ⟨one, List.mem_cons_of_mem _ later⟩
    rw [List.foldl_cons, listRegAddr_eq reliable has, others, filed here cmd has]
    split
    · rename_i seen
      obtain ⟨found, mem, same⟩ := List.any_eq_true.mp seen
      have listed : here ∈ addrs.map Prod.snd := by
        refine List.mem_map.mpr ⟨found, mem, ?_⟩
        rw [met found mem, decide_eq_true_eq] at same
        exact RegisterStore.addressToFilepath_injective same
      rw [ih inside met]
      constructor
      · exact Or.imp id Or.inr
      · rintro (old | rfl | later)
        · exact Or.inl old
        · exact Or.inl listed
        · exact Or.inr later
    · rw [ih inside fun found mem => ?_, List.map_append, List.mem_append, List.map_singleton,
        List.mem_singleton, or_assoc]
      obtain old | new := List.mem_append.mp mem
      · exact met found old
      · rw [List.mem_singleton.mp new]

/-- When commands are stored under the addresses they are for, the addresses with commands are
listed. -/
theorem register_mem_dataAddrs (layout : Layout fs) (reliable : os.Reliable) (filed : Filed fs) :
    .register addr ∈ dataAddrs os fs ↔ ∃ cmd, Has fs (.cmd addr cmd) := by
  have listed := RegisterStorage.listFilesIn_perm layout.tree reliable
    (show ([.register] : S.Path) ≠ [] from nofun)
  have registers : .register addr ∈ dataAddrs os fs ↔ addr ∈ RegisterStore.listAllRegAddrs os fs := by
    simp [dataAddrs]
  rw [registers, RegisterStore.listAllRegAddrs, mem_foldl_listRegAddr reliable filed]
  · simp only [List.map_nil, List.not_mem_nil, false_or, listed.mem_iff, layout.mem_files]
    constructor
    · rintro ⟨cmd, item, has, same, -⟩
      rw [Item.eq_cmd_of_path same.symm] at has
      exact ⟨cmd, has⟩
    · rintro ⟨cmd, has⟩
      exact ⟨cmd, _, has, rfl, isPrefix_path_iff.mpr ⟨addr, cmd, rfl⟩⟩
  · intro path mem
    obtain ⟨item, has, rfl, below⟩ := layout.mem_files.mp (listed.subset mem)
    obtain ⟨here, cmd, rfl⟩ := isPrefix_path_iff.mp below
    exact ⟨here, cmd, has, rfl⟩
  · exact nofun

end Listing

/-- In every run whose requests carry well-addressed data, every directory holds its own commands
only. -/
theorem directories_own (usedSpace : UsedSpace) (requests : List (Request S))
    (addressed : ∀ request ∈ requests, WellAddressed request.data) (addr : RegisterAddress) :
    OwnCommands (runAll (new .empty usedSpace) requests).fs addr := by
  obtain ⟨layout, filed⟩ := filed_runAll usedSpace requests addressed
  refine ⟨fun path bytes cmd below stands decoded => ?_, fun os reliable requester register found => ?_,
    fun os reliable => ?_⟩
  · obtain ⟨item, rfl, rfl⟩ := layout.file path bytes stands
    obtain ⟨cmd', rfl⟩ := Item.addressToFilepath_isPrefix.mp below
    have same := (S.deserialise_serialise cmd').symm.trans decoded
    obtain rfl := Option.some.inj same
    exact filed addr cmd' stands
  · obtain ⟨op, first, -, -, rfl⟩ := RegisterStorage.read_get_eq_ok.mp found
    obtain ⟨create, mem, isCreate⟩ := exists_of_firstCreate first
    have has := ((RegisterStorage.storedLog_isLog layout reliable addr).mem_iff create).mp mem
    rw [Register.growAll_address, CreateRegister.register_address,
      ← RegisterCmd.dstAddress_of_create isCreate, filed addr create has]
  · rw [register_mem_dataAddrs layout reliable filed]
    constructor
    · rintro ⟨cmd, has⟩
      exact ⟨_, _, cmd, isPrefix_path_iff.mpr ⟨addr, cmd, rfl⟩, has, S.deserialise_serialise cmd,
        filed addr cmd has⟩
    · rintro ⟨path, bytes, cmd, below, stands, decoded, rfl⟩
      obtain ⟨item, rfl, rfl⟩ := layout.file path bytes stands
      obtain ⟨here, cmd', rfl⟩ := isPrefix_path_iff.mp below
      have same := (S.deserialise_serialise cmd').symm.trans decoded
      obtain rfl := Option.some.inj same
      rw [filed here cmd' stands]
      exact ⟨cmd', stands⟩

def sampleStore (data : ReplicatedData sampleStorage) : Request sampleStorage :=
  ⟨sampleOs, sampleOs_reliable, data, 1, 1, 0, 0, 0⟩

theorem directories_own_spentbook : OwnCommands (runAll (new .empty (.new 1000 1000))
      [sampleStore (.spentbookWrite (.edit (sampleEdit sampleAddress [] [7] 1 1))),
        sampleStore (.registerWrite (.edit (sampleEdit sampleAddress [] [7] 2 2)))]).fs sampleAddress := by
  apply directories_own
  intro request mem
  obtain rfl | rfl := List.mem_pair.mp mem
  · exact rfl
  · trivial

/-- A log for one address with the creation of another register is accepted, and then the other
register is read under the address. -/
theorem directories_mixed : (RegisterStorage.register? (RegisterStorage.read sampleOs
      (runAll (new .empty (.new 1000 1000))
        [sampleStore (.registerLog ⟨sampleAddress, [sampleCreate ⟨sampleRegisterName, 1⟩ 1 1]⟩)]).fs
      (.get sampleAddress) .anyone)).map Register.address = some ⟨sampleRegisterName, 1⟩ ∧
    ¬ OwnCommands (runAll (new .empty (.new 1000 1000))
      [sampleStore (.registerLog ⟨sampleAddress, [sampleCreate ⟨sampleRegisterName, 1⟩ 1 1]⟩)]).fs sampleAddress := by
  have other : (RegisterStorage.register? (RegisterStorage.read sampleOs
      (runAll (new .empty (.new 1000 1000))
        [sampleStore (.registerLog ⟨sampleAddress, [sampleCreate ⟨sampleRegisterName, 1⟩ 1 1]⟩)]).fs
      (.get sampleAddress) .anyone)).map Register.address = some ⟨sampleRegisterName, 1⟩ := by
    decide +kernel
  refine ⟨other, fun own => ?_⟩
  obtain ⟨register, found, address⟩ := Option.map_eq_some_iff.mp other
  have same := own.register sampleOs sampleOs_reliable .anyone register
    (RegisterStorage.register?_eq_some.mp found)
  rw [address] at same
  exact absurd same (by decide +kernel)

/-! ## Shares of a spentbook -/

/-- The call for every request that stores in the directory of an address meets a condition on the
call and the storage before it. -/
abbrev Throughout (addr : RegisterAddress) (condition : StorageState S → RegisterStorage.Call S → Prop)
    (self : StorageState S) (requests : List (Request S)) : Prop :=
  Runs.Throughout Request.apply
    (fun self request => ∀ call, request.call? = some call → call.address = addr →
      condition self call) self requests

theorem settled_apply (settled : RegisterStorage.Settled addr self) (request : Request S)
    (orderly : ∀ call, request.call? = some call → call.address = addr →
      RegisterStorage.Orderly self call) : RegisterStorage.Settled addr (request.apply self) := by
  cases isCall : request.call? with
  | some call =>
    rw [Request.apply, store_eq_run isCall]
    exact settled.run request.reliable call (orderly call isCall)
  | none =>
    refine settled.mono (request.apply_grows settled.layout).1 fun cmd has => ?_
    refine (Request.has_apply settled.layout has).resolve_right ?_
    rintro ⟨call, same, -⟩
    rw [isCall] at same
    cases same

theorem throughout_orderly (addr : RegisterAddress) (usedSpace : UsedSpace) (requests : List (Request S))
    (addressed : ∀ request ∈ requests, WellAddressed request.data)
    (edits : List (SignedRegisterEdit S.toRegisterScheme)) (few : edits.length ≤ maxRegNumEntries)
    (sent : ∀ request ∈ requests, ∀ call, request.call? = some call → ∀ edit, .edit edit ∈ call.log → edit ∈ edits) :
    Throughout addr RegisterStorage.Orderly (new .empty usedSpace) requests := by
  refine Runs.throughout_of_invariant
    (motive := fun self => Layout self.fs ∧ ∀ edit, heldEdits self.fs addr edit → edit ∈ edits)
    ⟨placed_empty, fun _ has => absurd has (not_has_empty _)⟩ ?_ ?_
  · rintro self ⟨layout, held⟩ request mem
    refine ⟨(request.apply_grows layout).1, fun edit has => ?_⟩
    obtain old | ⟨call, isCall, -, new⟩ := Request.has_apply layout has
    · exact held edit old
    · exact sent request mem call isCall edit new
  · rintro self ⟨-, held⟩ request mem call isCall rfl
    exact ⟨(addressed request mem).dstAddress isCall,
      Or.inr ⟨edits, few, fun edit => Or.rec (held edit) (sent request mem call isCall edit)⟩⟩

def LeavesShare (share : S.SpentProofShare) (edit : SignedRegisterEdit S.toRegisterScheme) : Prop :=
  ∀ node : Node S.Hash Entry, S.decodeShare node.value = some share →
    S.registers.hash node ∉ edit.op.edit.crdtOp.children

/-- An orderly call without edits that supersede a share. -/
structure KeepsShare (share : S.SpentProofShare) (storage : StorageState S)
    (call : RegisterStorage.Call S) : Prop extends RegisterStorage.Orderly storage call where
  leaves : ∀ edit, .edit edit ∈ call.log → LeavesShare share edit

def shares? : NodeQueryResponse S → Option (List S.SpentProofShare)
  | .getSpentProofShares (.ok shares) => some shares
  | _ => none

theorem shares?_eq_some {response : NodeQueryResponse S} {shares : List S.SpentProofShare} :
    shares? response = some shares ↔ response = .getSpentProofShares (.ok shares) := by
  unfold shares?
  split <;> simp_all

section Shares

variable {fs : Fs S.Name} {address : SpentbookAddress} {requester : User S.UserKey}
  {share : S.SpentProofShare} {shares : List S.SpentProofShare}
  {register : Register S.toRegisterScheme}

theorem query_eq_shares (found : RegisterStorage.read os fs (.get address.registerAddress) requester =
      .getRegister (.ok register)) : query os fs (.getSpentProofShares address) requester =
      .getSpentProofShares (.ok (register.read.filterMap fun entry => S.decodeShare entry.2)) := by
  rw [query, found]
  rfl

theorem exists_of_query
    (listed : query os fs (.getSpentProofShares address) requester = .getSpentProofShares (.ok shares))
    (mem : share ∈ shares) : ∃ register, RegisterStorage.read os fs (.get address.registerAddress) requester =
        .getRegister (.ok register) ∧
      shares = register.read.filterMap fun entry => S.decodeShare entry.2 := by
  rw [query] at listed
  split at listed
  · cases listed
    cases mem
  · rename_i result _ found
    cases result with
    | error error => cases listed
    | ok register => exact ⟨register, found, by cases listed; rfl⟩
  · rename_i other notFound notRegister
    obtain ⟨result, isResult⟩ : ∃ result, RegisterStorage.read os fs
        (.get address.registerAddress) requester = .getRegister result := ⟨_, rfl⟩
    exact absurd isResult (notRegister result)

theorem mem_shares : share ∈ register.read.filterMap (fun entry => S.decodeShare entry.2) ↔
    ∃ node ∈ S.registers.read register.crdt.data, S.decodeShare node.value = some share := by
  simp [Register.read, RegisterCrdt.read]

end Shares

/-- Requests whose calls keep a share leave the directory settled, without edits that supersede the
share. -/
theorem keepsShare_runAll {share : S.SpentProofShare} {requests : List (Request S)} (usedSpace : UsedSpace)
    (conditions : Throughout addr (KeepsShare share) (new .empty usedSpace) requests) :
    RegisterStorage.Settled addr (runAll (new .empty usedSpace) requests) ∧
      ∀ edit, heldEdits (runAll (new .empty usedSpace) requests).fs addr edit → LeavesShare share edit := by
  refine conditions.induction (motive := fun self => RegisterStorage.Settled addr self ∧
    ∀ edit, heldEdits self.fs addr edit → LeavesShare share edit)
    ⟨RegisterStorage.settled_empty addr usedSpace, fun _ has => absurd has (not_has_empty _)⟩ ?_
  rintro self request ⟨settled, leaves⟩ keeps
  refine ⟨settled_apply settled request fun call isCall here => (keeps call isCall here).toOrderly,
    fun edit held => ?_⟩
  obtain old | ⟨call, isCall, here, new⟩ := Request.has_apply settled.layout held
  · exact leaves edit old
  · exact (keeps call isCall here).leaves edit new

/-- In every run whose calls for a spentbook are orderly and deliver no edit that supersedes an entry
with a share, once the share is listed, it is listed ever after. -/
theorem share_stays (usedSpace : UsedSpace) (address : SpentbookAddress) (share : S.SpentProofShare)
    (requests later : List (Request S))
    (conditions : Throughout address.registerAddress (KeepsShare share) (new .empty usedSpace) (requests ++ later))
    (os os' : Os S.Name) (reliable : os.Reliable) (reliable' : os'.Reliable)
    (requester requester' : User S.UserKey) (shares : List S.SpentProofShare)
    (listed : query os (runAll (new .empty usedSpace) requests).fs (.getSpentProofShares address)
      requester = .getSpentProofShares (.ok shares)) (mem : share ∈ shares) :
    ∃ shares', query os' (runAll (new .empty usedSpace) (requests ++ later)).fs
      (.getSpentProofShares address) requester' = .getSpentProofShares (.ok shares') ∧
      share ∈ shares' := by
  obtain ⟨settled, -⟩ := keepsShare_runAll usedSpace (Runs.throughout_append.mp conditions).1
  obtain ⟨settled', leaves⟩ := keepsShare_runAll usedSpace conditions
  have kept : ∀ item, Has (runAll (new .empty usedSpace) requests).fs item →
      Has (runAll (new .empty usedSpace) (requests ++ later)).fs item := by
    intro item has
    rw [runAll, Runs.run_append]
    exact kept_runAll settled.layout has
  obtain ⟨register, found, rfl⟩ := exists_of_query listed mem
  obtain ⟨node, shown, carries⟩ := mem_shares.mp mem
  -- The first query has found a creation and the later one does, too.
  obtain ⟨op, first, -⟩ := RegisterStorage.read_get_eq_ok.mp found
  obtain ⟨create, inLog, isCreate⟩ := exists_of_firstCreate first
  have has := ((RegisterStorage.storedLog_isLog settled.layout reliable _).mem_iff create).mp inLog
  have created : create.create?.isSome := by rw [isCreate]; rfl
  obtain ⟨-, -, _, -, -, found₁, -, known⟩ := settled.read reliable has created requester
  obtain ⟨-, -, register', -, -, found', -, known'⟩ :=
    settled'.read reliable' (kept _ has) created requester'
  obtain rfl : register = _ := by simpa using found.symm.trans found₁
  refine ⟨_, query_eq_shares found', mem_shares.mpr ⟨node, ?_, carries⟩⟩
  refine S.registers.mem_read_of_subset (fun hash mem => ?_) shown fun other mem => ?_
  · obtain ⟨edit, held, rfl⟩ := (known hash).mp mem
    exact (known' _).mpr ⟨edit, kept _ held, rfl⟩
  · obtain ⟨edit, held, same⟩ := (known' _).mp mem
    rw [← S.registers.hash_injective same]
    exact leaves edit held node carries

def sampleSpend : Request sampleStorage :=
  sampleStore (.spentbookWrite (.edit (sampleEdit sampleAddress [] [7] 1 1)))

theorem share_stays_beside : ∃ shares, query sampleOs (runAll (new .empty (.new 1000 1000)) ([sampleSpend] ++
        [sampleStore (.registerWrite (.edit (sampleEdit sampleAddress [] [8] 2 2)))])).fs
        (.getSpentProofShares ⟨sampleRegisterName⟩) .anyone = .getSpentProofShares (.ok shares) ∧
      [7] ∈ shares := by
  have listed : shares? (query sampleOs (runAll (new .empty (.new 1000 1000)) [sampleSpend]).fs
      (.getSpentProofShares ⟨sampleRegisterName⟩) .anyone) = some [[7]] := by
    decide +kernel
  have conditions : Throughout sampleAddress (KeepsShare (S := sampleStorage) [7])
      (new .empty (.new 1000 1000)) ([sampleSpend] ++
        [sampleStore (.registerWrite (.edit (sampleEdit sampleAddress [] [8] 2 2)))]) := by
    have orderly := throughout_orderly sampleAddress (.new 1000 1000)
      [sampleSpend, sampleStore (.registerWrite (.edit (sampleEdit sampleAddress [] [8] 2 2)))]
      (by
        intro request mem
        obtain rfl | rfl := List.mem_pair.mp mem
        · exact rfl
        · trivial)
      [sampleEdit sampleAddress [] [7] 1 1, sampleEdit sampleAddress [] [8] 2 2] (by decide) (by
        simp [Request.call?, sampleSpend, sampleStore, registerCall, RegisterStorage.Call.log,
          RegisterStorage.spentbookLog, RegisterStorage.createRegWPolicy])
    refine ⟨fun call isCall here => ⟨orderly.1 call isCall here, ?_⟩,
      fun call isCall here => ⟨orderly.2.1 call isCall here, ?_⟩, trivial⟩
    · cases isCall
      intro edit mem node _
      obtain same | same := List.mem_pair.mp mem
      · cases same
      · cases same
        exact Std.ExtTreeSet.not_mem_empty
    · cases isCall
      intro edit mem node _
      cases List.mem_singleton.mp mem
      exact Std.ExtTreeSet.not_mem_empty
  exact share_stays (S := sampleStorage) (.new 1000 1000) ⟨sampleRegisterName⟩ [7] [sampleSpend]
    [sampleStore (.registerWrite (.edit (sampleEdit sampleAddress [] [8] 2 2)))] conditions
    sampleOs sampleOs sampleOs_reliable sampleOs_reliable .anyone .anyone [[7]]
    (shares?_eq_some.mp listed) (List.mem_singleton_self _)

/-- Anyone may write an entry that supersedes a share, and then the share is listed no more. -/
theorem share_disappears :
    (store sampleOs (new .empty (.new 1000 1000)) sampleSpend.data 1 1 ⟨0, 0, 0⟩).1.toOption.isSome = true ∧
    shares? (query sampleOs (runAll (new .empty (.new 1000 1000)) [sampleSpend]).fs
      (.getSpentProofShares ⟨sampleRegisterName⟩) .anyone) = some [[7]] ∧
    shares? (query sampleOs (runAll (new .empty (.new 1000 1000)) [sampleSpend,
        sampleStore (.registerWrite (.edit (sampleEdit sampleAddress
          [(sampleEdit sampleAddress [] [7] 1 1).hash] [8] 2 2)))]).fs
      (.getSpentProofShares ⟨sampleRegisterName⟩) .anyone) = some [[8]] := by
  decide +kernel

end DataStorage

end SafeNetwork

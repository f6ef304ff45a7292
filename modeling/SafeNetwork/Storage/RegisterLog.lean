import SafeNetwork.Library.BoundedFill
import SafeNetwork.Storage.Registers

/-!
# The log of a register

What the commands of a register mean, apart from the disk. Replaying a log applies its edits in the
order of the log to the register of its first creation. A replay succeeds when every edit suits the
register and the entries fit below the limit in that order. Which register comes out depends only on
the creation and on the set of entries.
-/

namespace SafeNetwork

open Std Crdt FileSystem BoundedFill

variable {S : StorageScheme} {ε α : Type} {first : Except ε α} {op : CreateRegister S.toRegisterScheme}
  {log : List S.Cmd}

theorem bind_eq_ok {β : Type} {next : α → Except ε β} {result : β} :
    first >>= next = .ok result ↔ ∃ value, first = .ok value ∧ next value = .ok result := by
  cases first with
  | error error => exact ⟨nofun, nofun⟩
  | ok value => exact ⟨fun done => ⟨value, rfl, done⟩, fun ⟨_, same, done⟩ => by cases same; exact done⟩

theorem mapError_eq_ok {δ : Type} {rename : ε → δ} {result : α} :
    first.mapError rename = .ok result ↔ first = .ok result := by
  cases first with
  | error error => exact ⟨nofun, nofun⟩
  | ok value => exact ⟨fun same => congrArg _ (Except.ok.inj same), fun same => congrArg _ (Except.ok.inj same)⟩

/-! ## Registers -/

namespace Register

variable {R : RegisterScheme} {self other : Register R} {node : Node R.Hash Entry} {op : CrdtOperation R}

@[simp] theorem grow_address : (self.grow node).address = self.address := rfl

@[simp] theorem grow_policy : (self.grow node).policy = self.policy := rfl

@[simp] theorem grow_authority : (self.grow node).authority = self.authority := rfl

@[simp] theorem known_grow : (self.grow node).known = insert (R.registers.hash node) self.known :=
  R.registers.applied_apply _ _

theorem size_eq : self.crdt.size = self.known.card := R.registers.numNodes_add_numOrphans _

theorem ext_known (authority : self.authority = other.authority)
    (address : self.address = other.address) (policy : self.policy = other.policy)
    (entries : self.known = other.known) : self = other := by
  obtain ⟨_, ⟨_, data⟩, _⟩ := self
  obtain ⟨_, ⟨_, data'⟩, _⟩ := other
  obtain rfl : data = data' := R.registers.eq_of_applied entries
  obtain rfl : _ = _ := authority
  obtain rfl : _ = _ := address
  obtain rfl : _ = _ := policy
  rfl

/-- An operation can be applied when its entry is not too big, the register is not full and the
addresses match. -/
theorem applyOp_eq_ok : self.applyOp op = .ok other ↔
    (op.crdtOp.value.length ≤ maxRegEntrySize ∧ self.known.card < maxRegNumEntries ∧
      op.address = self.address) ∧ other = self.grow op.crdtOp := by
  unfold applyOp checkEntryAndRegSizes RegisterCrdt.applyOp
  rw [size_eq]
  split
  · rename_i big
    constructor
    · intro failed
      cases failed
    · rintro ⟨⟨small, -⟩, -⟩
      omega
  · split
    · rename_i full
      constructor
      · intro failed
        cases failed
      · rintro ⟨⟨-, room, -⟩, -⟩
        omega
    · split
      · rename_i differs
        constructor
        · intro failed
          cases failed
        · rintro ⟨⟨-, -, same⟩, -⟩
          exact absurd same.symm differs
      · rename_i small room same
        constructor
        · intro done
          exact ⟨⟨by omega, by omega, (not_not.mp same).symm⟩, (Except.ok.inj done).symm⟩
        · rintro ⟨-, rfl⟩
          rfl

end Register

@[simp] theorem CreateRegister.register_address (op : CreateRegister S.toRegisterScheme) :
    op.register.address = op.address := rfl

@[simp] theorem CreateRegister.register_policy (op : CreateRegister S.toRegisterScheme) :
    op.register.policy = op.policy := rfl

@[simp] theorem CreateRegister.register_authority (op : CreateRegister S.toRegisterScheme) :
    op.register.authority = op.policy.owner := rfl

@[simp] theorem CreateRegister.known_register (op : CreateRegister S.toRegisterScheme) :
    op.register.known = ∅ := S.registers.applied_new

/-! ## Edits -/

namespace SignedRegisterEdit

/-- The operation inside an edit is for an address and its entry is not too big. -/
structure Suits (edit : SignedRegisterEdit S.toRegisterScheme) (address : RegisterAddress) :
    Prop where
  address_eq : edit.op.edit.address = address
  small : edit.op.edit.crdtOp.value.length ≤ maxRegEntrySize

/-- An edit is signed by a key that a policy allows to write. -/
structure Permitted (edit : SignedRegisterEdit S.toRegisterScheme)
    (policy : Policy S.toRegisterScheme) : Prop where
  verifies : edit.auth.verifyAuthority (S.serializeEdit edit.op) = true
  allowed : policy.isActionAllowed (.key edit.auth.publicKey) .write = .ok ()

/-- An edit is one that the register of a creation accepts, its size apart. -/
structure Valid (edit : SignedRegisterEdit S.toRegisterScheme)
    (op : CreateRegister S.toRegisterScheme) : Prop where
  dst_eq : edit.op.address = op.address
  suits : edit.Suits op.address
  permitted : edit.Permitted op.policy

end SignedRegisterEdit

namespace Register

def growAll (self : Register S.toRegisterScheme)
    (edits : List (SignedRegisterEdit S.toRegisterScheme)) : Register S.toRegisterScheme :=
  edits.foldl (fun register edit => register.grow edit.op.edit.crdtOp) self

variable {self other : Register S.toRegisterScheme}
  {edits : List (SignedRegisterEdit S.toRegisterScheme)}

@[simp] theorem growAll_nil : self.growAll [] = self := rfl

@[simp] theorem growAll_cons {edit : SignedRegisterEdit S.toRegisterScheme} :
    self.growAll (edit :: edits) = (self.grow edit.op.edit.crdtOp).growAll edits := rfl

@[simp] theorem growAll_address : (self.growAll edits).address = self.address := by
  induction edits generalizing self with
  | nil => rfl
  | cons edit rest ih => rw [growAll_cons, ih, grow_address]

@[simp] theorem growAll_policy : (self.growAll edits).policy = self.policy := by
  induction edits generalizing self with
  | nil => rfl
  | cons edit rest ih => rw [growAll_cons, ih, grow_policy]

@[simp] theorem growAll_authority : (self.growAll edits).authority = self.authority := by
  induction edits generalizing self with
  | nil => rfl
  | cons edit rest ih => rw [growAll_cons, ih, grow_authority]

@[simp] theorem known_growAll : (self.growAll edits).known = self.known ∪ (edits.map (·.hash)).toFinset := by
  induction edits generalizing self with
  | nil => simp
  | cons edit rest ih =>
    rw [growAll_cons, ih, known_grow, List.map_cons, List.toFinset_cons, Finset.insert_union,
      Finset.union_insert]
    rfl

end Register

def RegisterCmd.edit? : S.Cmd → Option (SignedRegisterEdit S.toRegisterScheme)
  | .edit signed => some signed
  | .create _ _ => none

def RegisterCmd.create? : S.Cmd → Option (CreateRegister S.toRegisterScheme)
  | .create signed _ => some signed.op
  | .edit _ => none

theorem RegisterCmd.dstAddress_of_create {cmd : S.Cmd} (isCreate : cmd.create? = some op) : cmd.dstAddress = op.address := by
  cases cmd with
  | edit edit => cases isCreate
  | create signed sectionSig =>
    obtain rfl := Option.some.inj isCreate
    rfl

def editsOf (log : List S.Cmd) : List (SignedRegisterEdit S.toRegisterScheme) :=
  log.filterMap RegisterCmd.edit?

def firstCreate (log : List S.Cmd) : Option (CreateRegister S.toRegisterScheme) :=
  log.findSome? RegisterCmd.create?

@[simp] theorem mem_editsOf {edit : SignedRegisterEdit S.toRegisterScheme} :
    edit ∈ editsOf log ↔ .edit edit ∈ log := by
  constructor
  · intro mem
    obtain ⟨cmd, inside, isEdit⟩ := List.mem_filterMap.mp mem
    cases cmd with
    | create signed sectionSig => cases isEdit
    | edit found =>
      obtain rfl := Option.some.inj isEdit
      exact inside
  · intro mem
    exact List.mem_filterMap.mpr ⟨_, mem, rfl⟩

theorem exists_of_firstCreate (first : firstCreate log = some op) : ∃ cmd ∈ log, cmd.create? = some op :=
  List.exists_of_findSome?_eq_some first

theorem firstCreate_isSome : (firstCreate log).isSome ↔ ∃ cmd ∈ log, cmd.create?.isSome :=
  List.findSome?_isSome_iff

theorem firstCreate_eq_none : firstCreate log = none ↔ ∀ cmd ∈ log, cmd.create? = none :=
  List.findSome?_eq_none_iff

namespace RegisterStorage

variable {register other : Register S.toRegisterScheme} {log : List S.Cmd}
  {edit : SignedRegisterEdit S.toRegisterScheme}

theorem apply_edit_eq_ok : apply (.edit edit) register = .ok other ↔
    (edit.op.address = register.address ∧ edit.Suits register.address ∧
      edit.Permitted register.policy ∧ register.known.card < maxRegNumEntries) ∧
    other = register.grow edit.op.edit.crdtOp := by
  obtain ⟨op, auth⟩ := edit
  simp only [apply]
  by_cases same : (RegisterCmd.edit ⟨op, auth⟩ : S.Cmd).dstAddress = register.address
  · rw [if_neg (not_not.mpr same)]
    cases verifies : auth.verifyAuthority (S.serializeEdit op) with
    | false =>
      constructor
      · intro failed
        cases failed
      · rintro ⟨⟨-, -, permitted, -⟩, -⟩
        exact absurd (verifies.symm.trans permitted.verifies) Bool.false_ne_true
    | true =>
      rw [Bool.not_true, if_neg Bool.false_ne_true, bind_eq_ok]
      constructor
      · rintro ⟨⟨⟩, allowed, applied⟩
        rw [mapError_eq_ok] at allowed applied
        obtain ⟨⟨small, room, address⟩, grown⟩ := Register.applyOp_eq_ok.mp applied
        exact ⟨⟨same, ⟨address, small⟩, ⟨verifies, allowed⟩, room⟩, grown⟩
      · rintro ⟨⟨-, suits, permitted, room⟩, grown⟩
        refine ⟨(), mapError_eq_ok.mpr permitted.allowed, mapError_eq_ok.mpr ?_⟩
        exact Register.applyOp_eq_ok.mpr ⟨⟨suits.small, room, suits.address_eq⟩, grown⟩
  · rw [if_pos same]
    exact ⟨nofun, fun both => absurd both.1.1 same⟩

theorem apply_create_eq_ok {signed : SignedRegisterCreate S.toRegisterScheme}
    {sectionSig : SectionSig S.toKeyScheme} : apply (.create signed sectionSig) register = .ok other ↔
      signed.op.address = register.address ∧ other = register := by
  simp only [apply]
  by_cases same : (RegisterCmd.create signed sectionSig : S.Cmd).dstAddress = register.address
  · rw [if_neg (not_not.mpr same)]
    exact ⟨fun done => ⟨same, (Except.ok.inj done).symm⟩, fun both => by rw [both.2]⟩
  · rw [if_pos same]
    exact ⟨nofun, fun both => absurd both.1 same⟩

theorem foldlM_replayCmd_eq_ok : log.foldlM replayCmd register = .ok other ↔
    ((∀ edit ∈ editsOf log, edit.Suits register.address) ∧
      Fits maxRegNumEntries register.known ((editsOf log).map (·.hash))) ∧
    other = register.growAll (editsOf log) := by
  induction log generalizing register with
  | nil =>
    simp [editsOf, Fits, pure, Except.pure, eq_comm]
  | cons cmd rest ih =>
    rw [List.foldlM_cons, bind_eq_ok]
    cases cmd with
    | create signed sectionSig =>
      have same : editsOf (.create signed sectionSig :: rest) = editsOf rest := rfl
      rw [same, ← ih]
      constructor
      · rintro ⟨_, kept, done⟩
        cases kept
        exact done
      · exact fun done => ⟨register, rfl, done⟩
    | edit signed =>
      have more : editsOf (.edit signed :: rest) = signed :: editsOf rest := rfl
      simp only [replayCmd, mapError_eq_ok, Register.applyOp_eq_ok, ih, more, List.forall_mem_cons,
        List.map_cons, Fits, Register.growAll_cons]
      constructor
      · rintro ⟨_, ⟨⟨small, room, address⟩, rfl⟩, ⟨suits, fits⟩, grown⟩
        rw [Register.known_grow] at fits
        exact ⟨⟨⟨⟨address, small⟩, suits⟩, room, fits⟩, grown⟩
      · rintro ⟨⟨⟨suits, others⟩, room, fits⟩, grown⟩
        refine ⟨_, ⟨⟨suits.small, room, suits.address_eq⟩, rfl⟩, ⟨others, ?_⟩, grown⟩
        rw [Register.known_grow]
        exact fits

theorem foldlM_apply_eq_ok : log.foldlM (fun register cmd => apply cmd register) register = .ok other ↔
      ((∀ cmd ∈ log, cmd.dstAddress = register.address) ∧
        (∀ edit ∈ editsOf log, edit.Suits register.address ∧ edit.Permitted register.policy) ∧
        Fits maxRegNumEntries register.known ((editsOf log).map (·.hash))) ∧
      other = register.growAll (editsOf log) := by
  induction log generalizing register with
  | nil =>
    simp [editsOf, Fits, pure, Except.pure, eq_comm]
  | cons cmd rest ih =>
    rw [List.foldlM_cons, bind_eq_ok]
    cases cmd with
    | create signed sectionSig =>
      have same : editsOf (.create signed sectionSig :: rest) = editsOf rest := rfl
      simp only [apply_create_eq_ok, same, List.forall_mem_cons]
      constructor
      · rintro ⟨_, ⟨address, rfl⟩, done⟩
        obtain ⟨⟨addresses, rest⟩, grown⟩ := ih.mp done
        exact ⟨⟨⟨address, addresses⟩, rest⟩, grown⟩
      · rintro ⟨⟨⟨address, addresses⟩, rest⟩, grown⟩
        exact ⟨register, ⟨address, rfl⟩, ih.mpr ⟨⟨addresses, rest⟩, grown⟩⟩
    | edit signed =>
      have more : editsOf (.edit signed :: rest) = signed :: editsOf rest := rfl
      simp only [apply_edit_eq_ok, ih, more, List.forall_mem_cons, List.map_cons, Fits,
        Register.growAll_cons]
      constructor
      · rintro ⟨_, ⟨⟨address, suits, permitted, room⟩, rfl⟩, ⟨addresses, others, fits⟩, grown⟩
        rw [Register.known_grow] at fits
        exact ⟨⟨⟨address, addresses⟩, ⟨⟨suits, permitted⟩, others⟩, room, fits⟩, grown⟩
      · rintro ⟨⟨⟨address, addresses⟩, ⟨⟨suits, permitted⟩, others⟩, room, fits⟩, grown⟩
        refine ⟨_, ⟨⟨address, suits, permitted, room⟩, rfl⟩, ⟨addresses, others, ?_⟩, grown⟩
        rw [Register.known_grow]
        exact fits

/-! ## Loading -/

variable {path : S.Path} {stored : StoredRegister S} {op : CreateRegister S.toRegisterScheme}

def loadLog (path : S.Path) (log : List S.Cmd) : S.Result (StoredRegister S) :=
  match firstCreate log with
  | none => .ok ⟨none, log, path⟩
  | some op => do
    let register ← log.foldlM replayCmd op.register
    return ⟨some register, log, path⟩

/-- The readable commands of a directory, in the order in which it is listed. -/
def storedLog (os : Os S.Name) (fs : Fs S.Name) (addr : RegisterAddress) : List S.Cmd :=
  (listFilesIn os fs (RegisterStore.addressToFilepath S addr)).filterMap (RegisterStore.readCmd os fs)

theorem foldl_pushStored (path : S.Path) (state : Option (Register S.toRegisterScheme)) (before log : List S.Cmd) :
    log.foldl RegisterStore.pushStored ⟨state, before, path⟩ =
      ⟨state.or ((firstCreate log).map (·.register)), before ++ log, path⟩ := by
  induction log generalizing state before with
  | nil => simp [firstCreate]
  | cons cmd rest ih =>
    have whole : before ++ [cmd] ++ rest = before ++ cmd :: rest := by simp
    rw [List.foldl_cons]
    cases state with
    | some register =>
      have step : RegisterStore.pushStored ⟨some register, before, path⟩ cmd =
          ⟨some register, before ++ [cmd], path⟩ := rfl
      rw [step, ih, whole]
      rfl
    | none =>
      cases cmd with
      | create signed sectionSig =>
        have step : RegisterStore.pushStored ⟨none, before, path⟩ (.create signed sectionSig) =
            ⟨some signed.op.register, before ++ [.create signed sectionSig], path⟩ := rfl
        rw [step, ih, whole]
        rfl
      | edit signed =>
        have step : RegisterStore.pushStored ⟨none, before, path⟩ (.edit signed) =
            ⟨none, before ++ [.edit signed], path⟩ := rfl
        rw [step, ih, whole]
        rfl

theorem tryLoadStoredRegister_eq (os : Os S.Name) (fs : Fs S.Name) (addr : RegisterAddress) :
    tryLoadStoredRegister os fs addr = loadLog (RegisterStore.addressToFilepath S addr) (storedLog os fs addr) := by
  have opened : RegisterStore.openRegLogFromDisk os fs addr =
      ⟨(firstCreate (storedLog os fs addr)).map (·.register), storedLog os fs addr,
        RegisterStore.addressToFilepath S addr⟩ := by
    have pushed := foldl_pushStored (RegisterStore.addressToFilepath S addr) none []
      (storedLog os fs addr)
    simp only [RegisterStore.openRegLogFromDisk]
    split
    · rename_i absent
      have nothing : storedLog os fs addr = [] := by
        simp only [storedLog, listFilesIn, if_pos absent, List.filterMap_nil]
      rw [nothing]
      rfl
    · simpa [storedLog] using pushed
  unfold tryLoadStoredRegister loadLog
  rw [opened]
  cases firstCreate (storedLog os fs addr) with
  | none => rfl
  | some op => rfl

theorem loadLog_eq_ok : loadLog path log = .ok stored ↔
    firstCreate log = none ∧ stored = ⟨none, log, path⟩ ∨
    ∃ op, firstCreate log = some op ∧ (∀ edit ∈ editsOf log, edit.Suits op.address) ∧
      Fits maxRegNumEntries ∅ ((editsOf log).map (·.hash)) ∧
      stored = ⟨some (op.register.growAll (editsOf log)), log, path⟩ := by
  unfold loadLog
  cases first : firstCreate log with
  | none => simp [eq_comm]
  | some op =>
    simp only [bind_eq_ok, foldlM_replayCmd_eq_ok]
    simp [pure, Except.pure, eq_comm, and_assoc]

theorem opLogPath_loadLog (loaded : loadLog path log = .ok stored) : stored.opLogPath = path := by
  obtain ⟨-, rfl⟩ | ⟨_, -, -, -, rfl⟩ := loadLog_eq_ok.mp loaded
  · rfl
  · rfl

/-! ## Accepting commands -/

variable {cmd : S.Cmd} {storedReg storedReg' : StoredRegister S} {creation : CreateRegister S.toRegisterScheme → Prop}

theorem tryToApply_some (created : storedReg.state = some register) :
    tryToApplyCmdAgainstRegisterState cmd storedReg = .ok storedReg' ↔
      (∃ signed sectionSig, cmd = .create signed sectionSig ∧ storedReg' = storedReg) ∨
      ∃ edit, cmd = .edit edit ∧ (edit.op.address = register.address ∧
        edit.Suits register.address ∧ edit.Permitted register.policy ∧
        register.known.card < maxRegNumEntries) ∧
        storedReg' = { storedReg with
          state := some (register.grow edit.op.edit.crdtOp), opLog := storedReg.opLog ++ [cmd] } := by
  cases cmd with
  | create signed sectionSig =>
    simp [tryToApplyCmdAgainstRegisterState, created, eq_comm]
  | edit edit =>
    simp only [tryToApplyCmdAgainstRegisterState, created, bind_eq_ok, apply_edit_eq_ok, pure,
      Except.pure, Except.ok.injEq, reduceCtorEq, false_and, exists_false, false_or,
      RegisterCmd.edit.injEq]
    constructor
    · rintro ⟨_, ⟨accepted, rfl⟩, rfl⟩
      exact ⟨edit, rfl, accepted, rfl⟩
    · rintro ⟨_, rfl, accepted, rfl⟩
      exact ⟨_, ⟨accepted, rfl⟩, rfl⟩

theorem tryToApply_none (absent : storedReg.state = none) :
    tryToApplyCmdAgainstRegisterState cmd storedReg = .ok storedReg' ↔
      (∃ signed sectionSig, cmd = .create signed sectionSig ∧
        (signed.auth.verifyAuthority (S.serializeCreate signed.op) = true ∧
          (∀ cmd ∈ storedReg.opLog, cmd.dstAddress = signed.op.address) ∧
          (∀ edit ∈ editsOf storedReg.opLog, edit.Suits signed.op.address ∧ edit.Permitted signed.op.policy) ∧
          Fits maxRegNumEntries ∅ ((editsOf storedReg.opLog).map (·.hash))) ∧
        storedReg' = { storedReg with
          state := some (signed.op.register.growAll (editsOf storedReg.opLog)),
          opLog := storedReg.opLog ++ [cmd] }) ∨
      ∃ edit, cmd = .edit edit ∧ storedReg' = { storedReg with opLog := storedReg.opLog ++ [cmd] } := by
  cases cmd with
  | edit edit =>
    simp only [tryToApplyCmdAgainstRegisterState, absent, Except.ok.injEq, reduceCtorEq, false_and,
      exists_false, false_or, RegisterCmd.edit.injEq]
    constructor
    · exact fun same => ⟨edit, rfl, same.symm⟩
    · rintro ⟨_, -, same⟩
      exact same.symm
  | create signed sectionSig =>
    obtain ⟨op, auth⟩ := signed
    simp only [tryToApplyCmdAgainstRegisterState, absent, RegisterCmd.create.injEq, reduceCtorEq,
      false_and, exists_false, or_false]
    cases verifies : auth.verifyAuthority (S.serializeCreate op) with
    | false =>
      rw [Bool.not_false, if_pos rfl]
      constructor
      · intro failed
        cases failed
      · rintro ⟨_, _, ⟨rfl, rfl⟩, ⟨verified, -⟩, -⟩
        exact absurd (verifies.symm.trans verified) Bool.false_ne_true
    | true =>
      rw [Bool.not_true, if_neg Bool.false_ne_true]
      simp only [bind_eq_ok, foldlM_apply_eq_ok, pure, Except.pure, Except.ok.injEq]
      constructor
      · rintro ⟨_, ⟨checked, rfl⟩, rfl⟩
        exact ⟨_, _, ⟨rfl, rfl⟩, ⟨verifies, by simpa using checked⟩, rfl⟩
      · rintro ⟨_, _, ⟨rfl, rfl⟩, ⟨-, checked⟩, rfl⟩
        exact ⟨_, ⟨by simpa using checked, rfl⟩, rfl⟩

theorem opLogPath_tryToApply (done : tryToApplyCmdAgainstRegisterState cmd storedReg = .ok storedReg') :
    storedReg'.opLogPath = storedReg.opLogPath := by
  cases before : storedReg.state with
  | some register =>
    obtain ⟨_, _, -, rfl⟩ | ⟨_, -, -, rfl⟩ := (tryToApply_some before).mp done
    · rfl
    · rfl
  | none =>
    obtain ⟨_, _, -, -, rfl⟩ | ⟨_, -, rfl⟩ := (tryToApply_none before).mp done
    · rfl
    · rfl

theorem acceptCmds_cons_error {error : S.Error}
    (failed : tryToApplyCmdAgainstRegisterState cmd storedReg = .error error) :
    acceptCmds storedReg (cmd :: log) = acceptCmds storedReg log := by
  rw [acceptCmds, failed]

theorem acceptCmds_cons_ok (done : tryToApplyCmdAgainstRegisterState cmd storedReg = .ok storedReg') :
    acceptCmds storedReg (cmd :: log) = cmd :: acceptCmds storedReg' log := by
  rw [acceptCmds, done]

theorem acceptCmds_sublist (storedReg : StoredRegister S) (log : List S.Cmd) :
    (acceptCmds storedReg log).Sublist log := by
  induction log generalizing storedReg with
  | nil => exact List.Sublist.refl _
  | cons cmd rest ih =>
    cases done : tryToApplyCmdAgainstRegisterState cmd storedReg with
    | error error =>
      rw [acceptCmds_cons_error done]
      exact (ih storedReg).cons cmd
    | ok storedReg' =>
      rw [acceptCmds_cons_ok done]
      exact (ih storedReg').cons_cons cmd

/-- What a stored register rests on, among the creations of some kind: the register is of one of
them, and each of its edits is valid for one of them. -/
structure Rests (creation : CreateRegister S.toRegisterScheme → Prop)
    (storedReg : StoredRegister S) : Prop where
  state : ∀ register, storedReg.state = some register →
    ∃ op, creation op ∧ register.address = op.address ∧ register.policy = op.policy
  edits : storedReg.state.isSome → ∀ edit ∈ editsOf storedReg.opLog, ∃ op, creation op ∧ edit.Valid op

theorem Rests.tryToApply (rests : Rests creation storedReg) (known : ∀ op, cmd.create? = some op → creation op)
    (done : tryToApplyCmdAgainstRegisterState cmd storedReg = .ok storedReg') :
    Rests creation storedReg' ∧ (storedReg.state.isSome → storedReg'.state.isSome) ∧
      (cmd.create?.isSome → storedReg'.state.isSome) ∧
      (∀ edit ∈ editsOf (storedReg.opLog ++ [cmd]), edit ∈ editsOf storedReg'.opLog) := by
  cases before : storedReg.state with
  | some register =>
    obtain ⟨op, isCreation, address, policy⟩ := rests.state register before
    have valid := rests.edits (by rw [before]; rfl)
    obtain ⟨signed, sectionSig, rfl, rfl⟩ | ⟨edit, rfl, ⟨dst, suits, permitted, -⟩, rfl⟩ :=
      (tryToApply_some before).mp done
    · exact ⟨rests, fun _ => by rw [before]; rfl, fun _ => by rw [before]; rfl,
        fun edit mem => by simpa using mem⟩
    · refine ⟨⟨fun _ same => ?_, fun _ other mem => ?_⟩, fun _ => rfl, fun _ => rfl, fun _ mem => mem⟩
      · obtain rfl := Option.some.inj same
        exact ⟨op, isCreation, address, policy⟩
      · obtain old | new := List.mem_append.mp (mem_editsOf.mp mem)
        · exact valid other (mem_editsOf.mpr old)
        · obtain rfl : other = edit := by simpa using new
          exact ⟨op, isCreation, dst.trans address, address ▸ suits, policy ▸ permitted⟩
  | none =>
    obtain ⟨signed, sectionSig, rfl, ⟨-, dsts, checked, -⟩, rfl⟩ | ⟨edit, rfl, rfl⟩ :=
      (tryToApply_none before).mp done
    · refine ⟨⟨fun _ same => ?_, fun _ other mem => ?_⟩, fun _ => rfl, fun _ => rfl, fun _ mem => mem⟩
      · obtain rfl := Option.some.inj same
        exact ⟨signed.op, known _ rfl, by simp, by simp⟩
      · have old : .edit other ∈ storedReg.opLog := by simpa using mem
        obtain ⟨suits, permitted⟩ := checked other (mem_editsOf.mpr old)
        exact ⟨signed.op, known _ rfl, dsts _ old, suits, permitted⟩
    · refine ⟨⟨fun _ same => ?_, fun isSome => ?_⟩, nofun, nofun, fun _ mem => mem⟩
      · cases before.symm.trans same
      · rw [show storedReg.state = none from before] at isSome
        cases isSome

/-- Once a creation is among the commands, every edit is valid for one: the late creation checks the
edits before it, and the register checks those after it. -/
theorem Rests.acceptCmds (rests : Rests creation storedReg)
    (known : ∀ cmd ∈ log, ∀ op, cmd.create? = some op → creation op)
    (created : storedReg.state.isSome ∨ ∃ cmd ∈ acceptCmds storedReg log, cmd.create?.isSome)
    (accepted : .edit edit ∈ storedReg.opLog ∨ .edit edit ∈ acceptCmds storedReg log) :
    ∃ op, creation op ∧ edit.Valid op := by
  induction log generalizing storedReg with
  | nil =>
    simp only [RegisterStorage.acceptCmds, List.not_mem_nil, false_and, exists_false, or_false] at created accepted
    exact rests.edits created edit (mem_editsOf.mpr accepted)
  | cons cmd rest ih =>
    have later : ∀ cmd ∈ rest, ∀ op, cmd.create? = some op → creation op :=
      fun cmd mem => known cmd (List.mem_cons_of_mem _ mem)
    cases done : tryToApplyCmdAgainstRegisterState cmd storedReg with
    | error error =>
      rw [acceptCmds_cons_error done] at created accepted
      exact ih rests later created accepted
    | ok storedReg' =>
      rw [acceptCmds_cons_ok done] at created accepted
      obtain ⟨rests', kept, made, log⟩ := rests.tryToApply (known cmd (List.mem_cons_self ..)) done
      apply ih rests' later
      · obtain before | ⟨one, mem, isCreate⟩ := created
        · exact Or.inl (kept before)
        · obtain rfl | mem := List.mem_cons.mp mem
          · exact Or.inl (made isCreate)
          · exact Or.inr ⟨one, mem, isCreate⟩
      · have moved : .edit edit ∈ storedReg.opLog ++ [cmd] → .edit edit ∈ storedReg'.opLog :=
          fun mem => mem_editsOf.mp (log edit (mem_editsOf.mpr mem))
        obtain old | new := accepted
        · exact Or.inl (moved (List.mem_append_left _ old))
        · obtain rfl | new := List.mem_cons.mp new
          · exact Or.inl (moved (List.mem_append_right _ (List.mem_singleton_self _)))
          · exact Or.inr new

/-! ## Acceptance in terms of the log -/

def Loadable (log : List S.Cmd) : Prop :=
  ∀ op, firstCreate log = some op → (∀ edit ∈ editsOf log, edit.Suits op.address) ∧
    Fits maxRegNumEntries ∅ ((editsOf log).map (·.hash))

def Accepts (log : List S.Cmd) (cmd : S.Cmd) : Prop :=
  match firstCreate log, cmd with
  | some _, .create _ _ => True
  | some op, .edit edit =>
    edit.Valid op ∧ ((editsOf log).map (·.hash)).toFinset.card < maxRegNumEntries
  | none, .create signed _ =>
    signed.auth.verifyAuthority (S.serializeCreate signed.op) = true ∧
      (∀ cmd ∈ log, cmd.dstAddress = signed.op.address) ∧
      (∀ edit ∈ editsOf log, edit.Suits signed.op.address ∧ edit.Permitted signed.op.policy) ∧
      Fits maxRegNumEntries ∅ ((editsOf log).map (·.hash))
  | none, .edit _ => True

/-- The log after a command is accepted: a creation after another one is not added. -/
def pushCmd (log : List S.Cmd) (cmd : S.Cmd) : List S.Cmd :=
  if (firstCreate log).isSome && cmd.create?.isSome then log else log ++ [cmd]

theorem exists_loadLog_iff (path : S.Path) : (∃ stored, loadLog path log = .ok stored) ↔ Loadable log := by
  constructor
  · rintro ⟨stored, loaded⟩ op first
    obtain ⟨none, -⟩ | ⟨op', first', suits, fits, -⟩ := loadLog_eq_ok.mp loaded
    · rw [none] at first
      cases first
    · rw [first'] at first
      obtain rfl := Option.some.inj first
      exact ⟨suits, fits⟩
  · intro loadable
    cases first : firstCreate log with
    | none => exact ⟨_, loadLog_eq_ok.mpr (Or.inl ⟨first, rfl⟩)⟩
    | some op =>
      obtain ⟨suits, fits⟩ := loadable op first
      exact ⟨_, loadLog_eq_ok.mpr (Or.inr ⟨op, first, suits, fits, rfl⟩)⟩

theorem exists_tryToApply_iff (loaded : loadLog path log = .ok stored) :
    (∃ stored', tryToApplyCmdAgainstRegisterState cmd stored = .ok stored') ↔ Accepts log cmd := by
  obtain ⟨first, rfl⟩ | ⟨op, first, suits, fits, rfl⟩ := loadLog_eq_ok.mp loaded
  · refine (exists_congr fun _ => tryToApply_none rfl).trans ?_
    cases cmd with
    | create signed sectionSig => simp [Accepts, first]
    | edit edit => simp [Accepts, first]
  · refine (exists_congr fun _ => tryToApply_some rfl).trans ?_
    cases cmd with
    | create signed sectionSig => simp [Accepts, first]
    | edit edit =>
      simp only [Accepts, first]
      constructor
      · rintro ⟨_, ⟨_, _, same, -⟩ | ⟨_, same, ⟨dst, suits, permitted, room⟩, -⟩⟩
        · cases same
        · cases same
          simp only [Register.growAll_address, CreateRegister.register_address,
            Register.growAll_policy, CreateRegister.register_policy, Register.known_growAll,
            CreateRegister.known_register, Finset.empty_union] at dst suits permitted room
          exact ⟨⟨dst, suits, permitted⟩, room⟩
      · rintro ⟨⟨dst, suits, permitted⟩, room⟩
        refine ⟨_, Or.inr ⟨edit, rfl, ⟨?_, ?_, ?_, ?_⟩, rfl⟩⟩
        · simpa using dst
        · simpa using suits
        · simpa using permitted
        · simpa using room

theorem firstCreate_append (log : List S.Cmd) (cmd : S.Cmd) :
    firstCreate (log ++ [cmd]) = (firstCreate log).or cmd.create? := by
  simp [firstCreate, List.findSome?_append]

theorem editsOf_append (log : List S.Cmd) (cmd : S.Cmd) :
    editsOf (log ++ [cmd]) = editsOf log ++ cmd.edit?.toList := by
  simp only [editsOf, List.filterMap_append]
  cases cmd <;> rfl

theorem loadLog_pushCmd (loaded : loadLog path log = .ok stored)
    (done : tryToApplyCmdAgainstRegisterState cmd stored = .ok storedReg') :
    loadLog path (pushCmd log cmd) = .ok storedReg' := by
  obtain ⟨first, rfl⟩ | ⟨op, first, suits, fits, rfl⟩ := loadLog_eq_ok.mp loaded
  · obtain ⟨signed, sectionSig, rfl, ⟨-, -, checked, fits⟩, rfl⟩ | ⟨edit, rfl, rfl⟩ :=
      (tryToApply_none rfl).mp done
    · rw [pushCmd, first]
      refine loadLog_eq_ok.mpr (Or.inr ⟨signed.op, ?_, ?_, ?_, ?_⟩)
      · rw [Option.isSome_none, Bool.false_and, if_neg Bool.false_ne_true, firstCreate_append, first]
        rfl
      · simpa using fun edit mem => (checked edit (mem_editsOf.mpr mem)).1
      · simpa [editsOf_append, RegisterCmd.edit?] using fits
      · simp [editsOf_append, RegisterCmd.edit?]
    · rw [pushCmd, first]
      refine loadLog_eq_ok.mpr (Or.inl ⟨?_, rfl⟩)
      rw [Option.isSome_none, Bool.false_and, if_neg Bool.false_ne_true, firstCreate_append, first]
      rfl
  · obtain ⟨signed, sectionSig, rfl, rfl⟩ | ⟨edit, rfl, ⟨-, new, -, room⟩, rfl⟩ :=
      (tryToApply_some rfl).mp done
    · rw [pushCmd, first]
      exact loaded
    · have pushed : pushCmd log (.edit edit) = log ++ [.edit edit] := by
        simp [pushCmd, RegisterCmd.create?]
      have edits : editsOf (log ++ [.edit edit]) = editsOf log ++ [edit] := editsOf_append log _
      rw [pushed]
      refine loadLog_eq_ok.mpr (Or.inr ⟨op, ?_, ?_, ?_, ?_⟩)
      · rw [firstCreate_append, first]
        rfl
      · rw [edits]
        intro other mem
        obtain old | new' := List.mem_append.mp mem
        · exact suits other old
        · rw [List.mem_singleton.mp new']
          simpa using new
      · rw [edits, List.map_append, fits_append]
        refine ⟨fits, ?_, trivial⟩
        simpa using room
      · rw [edits]
        simp [Register.growAll]

/-- A pass over a log, against the commands stored so far: those that are accepted, and all commands
stored after it. -/
inductive Pass : List S.Cmd → List S.Cmd → List S.Cmd → List S.Cmd → Prop
  | nil {stored : List S.Cmd} : Pass stored [] [] stored
  | accept {stored rest accepted after : List S.Cmd} {cmd : S.Cmd} : Accepts stored cmd →
      Pass (pushCmd stored cmd) rest accepted after →
      Pass stored (cmd :: rest) (cmd :: accepted) after
  | discard {stored rest accepted after : List S.Cmd} {cmd : S.Cmd} : ¬ Accepts stored cmd →
      Pass stored rest accepted after → Pass stored (cmd :: rest) accepted after

theorem exists_pass (loaded : loadLog path log = .ok stored) (cmds : List S.Cmd) :
    ∃ after, Pass log cmds (acceptCmds stored cmds) after := by
  induction cmds generalizing log stored with
  | nil => exact ⟨log, .nil⟩
  | cons cmd rest ih =>
    have accepts : (∃ stored', tryToApplyCmdAgainstRegisterState cmd stored = .ok stored') ↔
        Accepts log cmd := exists_tryToApply_iff loaded
    cases done : tryToApplyCmdAgainstRegisterState cmd stored with
    | error error =>
      have discarded : ¬ Accepts log cmd := fun accepted => by
        obtain ⟨_, ok⟩ := accepts.mpr accepted
        rw [done] at ok
        cases ok
      obtain ⟨after, pass⟩ := ih loaded
      rw [acceptCmds_cons_error done]
      exact ⟨after, .discard discarded pass⟩
    | ok storedReg' =>
      obtain ⟨after, pass⟩ := ih (loadLog_pushCmd loaded done)
      rw [acceptCmds_cons_ok done]
      exact ⟨after, .accept (accepts.mp ⟨_, done⟩) pass⟩

/-! ## Errors -/

section Errors

variable {error : S.Error}

theorem mapError_ne {α : Type} {result : S.TypesResult α}
    (failed : result.mapError (.networkData : _ → S.Error) = .error error) : error ≠ .notEnoughSpace := by
  cases result with
  | ok value => cases failed
  | error one =>
    cases failed
    exact nofun

theorem bind_ne {α β : Type} {first : S.Result α} {next : α → S.Result β} (failed : first >>= next = .error error)
    (here : ∀ error, first = .error error → error ≠ .notEnoughSpace)
    (later : ∀ value error, next value = .error error → error ≠ .notEnoughSpace) : error ≠ .notEnoughSpace := by
  cases first with
  | error one =>
    cases failed
    exact here _ rfl
  | ok value => exact later value error failed

theorem apply_ne (failed : apply cmd register = .error error) : error ≠ .notEnoughSpace := by
  simp only [apply] at failed
  split at failed
  · cases failed
    exact nofun
  split at failed
  · cases failed
  split at failed
  · cases failed
    exact nofun
  · exact bind_ne failed (fun _ => mapError_ne) fun _ _ => mapError_ne

theorem foldlM_ne {step : Register S.toRegisterScheme → S.Cmd → S.Result (Register S.toRegisterScheme)}
    (steps : ∀ register cmd error, step register cmd = .error error → error ≠ .notEnoughSpace)
    (failed : log.foldlM step register = .error error) : error ≠ .notEnoughSpace := by
  induction log generalizing register error with
  | nil => cases failed
  | cons cmd rest ih =>
    rw [List.foldlM_cons] at failed
    exact bind_ne failed (steps register cmd) fun _ _ => ih

theorem loadLog_ne (failed : loadLog path log = .error error) : error ≠ .notEnoughSpace := by
  unfold loadLog at failed
  split at failed
  · cases failed
  · refine bind_ne failed (fun _ => foldlM_ne fun register cmd error failed => ?_) nofun
    cases cmd with
    | edit signed => exact mapError_ne failed
    | create signed sectionSig => cases failed

theorem tryToApply_ne (failed : tryToApplyCmdAgainstRegisterState cmd storedReg = .error error) :
    error ≠ .notEnoughSpace := by
  unfold tryToApplyCmdAgainstRegisterState at failed
  split at failed
  · cases failed
  · exact bind_ne failed (fun _ => apply_ne) nofun
  · split at failed
    · cases failed
      exact nofun
    · exact bind_ne failed (fun _ => foldlM_ne fun _ _ _ => apply_ne) nofun
  · cases failed

end Errors

end RegisterStorage

end SafeNetwork

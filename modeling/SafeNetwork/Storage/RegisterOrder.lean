import SafeNetwork.Storage.RegisterRun

/-!
# Orders of register commands

A register must be below its limit before each edit is applied, also before one whose entry it has.
So whether the commands of a directory can be loaded depends on the order in which they are listed,
and which commands a node ends up with depends on the order in which they arrive. This module says
under which conditions neither order matters.
-/

namespace SafeNetwork

open Std Crdt FileSystem BoundedFill

variable {S : StorageScheme}

/-- Edits that can be applied to a new register in any order: they write fewer entries than the
limit, or there are no more of them than the limit. -/
def AnyOrder (edits : SignedRegisterEdit S.toRegisterScheme → Prop) : Prop :=
  (∃ hashes : Finset S.Hash, hashes.card < maxRegNumEntries ∧
    ∀ edit, edits edit → edit.hash ∈ hashes) ∨
  ∃ list : List (SignedRegisterEdit S.toRegisterScheme), list.length ≤ maxRegNumEntries ∧
    ∀ edit, edits edit → edit ∈ list

theorem AnyOrder.mono {edits fewer : SignedRegisterEdit S.toRegisterScheme → Prop}
    (order : AnyOrder edits) (subset : ∀ edit, fewer edit → edits edit) : AnyOrder fewer := by
  obtain ⟨hashes, small, inside⟩ | ⟨list, short, inside⟩ := order
  · exact Or.inl ⟨hashes, small, fun edit mem => inside edit (subset edit mem)⟩
  · exact Or.inr ⟨list, short, fun edit mem => inside edit (subset edit mem)⟩

theorem anyOrder_iff {list : List (SignedRegisterEdit S.toRegisterScheme)} (nodup : list.Nodup) :
    AnyOrder (· ∈ list) ↔
      ∀ listed : List (SignedRegisterEdit S.toRegisterScheme), listed.Perm list →
        Fits maxRegNumEntries ∅ (listed.map (·.hash)) := by
  rw [fits_perm_iff]
  constructor
  · rintro (⟨hashes, small, inside⟩ | ⟨others, short, inside⟩)
    · refine Or.inl ((Finset.card_le_card fun hash mem => ?_).trans_lt small)
      obtain ⟨edit, listed, rfl⟩ := List.mem_map.mp (List.mem_toFinset.mp mem)
      exact inside edit listed
    · exact Or.inr ((List.subperm_of_subset nodup inside).length_le.trans short)
  · rintro (small | short)
    · exact Or.inl ⟨_, small, fun edit mem => List.mem_toFinset.mpr (List.mem_map_of_mem mem)⟩
    · exact Or.inr ⟨list, short, fun _ mem => mem⟩

theorem nodup_editsOf {log : List S.Cmd} (nodup : log.Nodup) : (editsOf log).Nodup := by
  apply nodup.filterMap
  intro left right edit isLeft isRight
  cases left <;> cases right <;> cases isLeft <;> cases isRight
  rfl

def heldEdits (fs : Fs S.Name) (addr : RegisterAddress) (edit : SignedRegisterEdit S.toRegisterScheme) :
    Prop :=
  Has fs (.cmd addr (.edit edit))

section Listing

variable {fs : Fs S.Name} {addr : RegisterAddress} {listed : List S.Cmd}

theorem IsLog.mem_edits (isLog : IsLog fs addr listed) {edit : SignedRegisterEdit S.toRegisterScheme} :
    edit ∈ editsOf listed ↔ heldEdits fs addr edit :=
  mem_editsOf.trans (isLog.mem_iff _)

theorem AnyOrder.fits (order : AnyOrder (heldEdits fs addr)) (isLog : IsLog fs addr listed) :
    Fits maxRegNumEntries ∅ ((editsOf listed).map (·.hash)) := by
  have same : AnyOrder (· ∈ editsOf listed) := order.mono fun edit mem => isLog.mem_edits.mp mem
  exact (anyOrder_iff (nodup_editsOf isLog.nodup)).mp same _ (List.Perm.refl _)

theorem exists_perm_editsOf {log : List S.Cmd}
    {edits : List (SignedRegisterEdit S.toRegisterScheme)} (perm : edits.Perm (editsOf log)) :
    ∃ other : List S.Cmd, other.Perm log ∧ editsOf other = edits := by
  have parts : log.filter (fun cmd => !cmd.create?.isSome) = (editsOf log).map .edit := by
    clear perm
    induction log with
    | nil => rfl
    | cons cmd rest ih =>
      cases cmd with
      | create signed sectionSig => exact ih
      | edit edit => exact congrArg (.edit edit :: ·) ih
  have creations : editsOf (log.filter fun cmd => cmd.create?.isSome) = [] := by
    apply List.filterMap_eq_nil_iff.mpr
    intro cmd mem
    cases cmd with
    | create signed sectionSig => rfl
    | edit edit => simp [RegisterCmd.create?] at mem
  have back : editsOf (edits.map .edit : List S.Cmd) = edits := by
    rw [editsOf, List.filterMap_map]
    exact List.filterMap_some
  refine ⟨log.filter (fun cmd => cmd.create?.isSome) ++ edits.map .edit, ?_, ?_⟩
  · have split := List.filter_append_perm (fun cmd : S.Cmd => cmd.create?.isSome) log
    rw [parts] at split
    exact ((perm.map _).append_left _).trans split
  · rw [editsOf, List.filterMap_append]
    exact (congrArg₂ (· ++ ·) creations back).trans (List.nil_append _)

end Listing

namespace RegisterStorage

variable {self : StorageState S} {fs : Fs S.Name} {os : Os S.Name} {addr : RegisterAddress}

/-- A register can be loaded in every order of its files when its edits suit the creations and can be
applied in any order. -/
theorem exists_load (layout : Layout fs) (reliable : os.Reliable)
    (suits : ∀ cmd op, Has fs (.cmd addr cmd) → cmd.create? = some op →
      ∀ edit, heldEdits fs addr edit → edit.Suits op.address)
    (order : AnyOrder (heldEdits fs addr)) : ∃ stored, tryLoadStoredRegister os fs addr = .ok stored := by
  have isLog := storedLog_isLog layout reliable addr
  rw [tryLoadStoredRegister_eq]
  cases first : firstCreate (storedLog os fs addr) with
  | none => exact ⟨_, loadLog_eq_ok.mpr (Or.inl ⟨first, rfl⟩)⟩
  | some op =>
    obtain ⟨cmd, mem, isCreate⟩ := exists_of_firstCreate first
    refine ⟨_, loadLog_eq_ok.mpr (Or.inr ⟨op, first, fun edit inside => ?_, order.fits isLog, rfl⟩)⟩
    exact suits cmd op ((isLog.mem_iff cmd).mp mem) isCreate edit (isLog.mem_edits.mp inside)

/-- A created register can be loaded in every order of its files only when its edits can be applied
in any order. -/
theorem anyOrder_of_load (layout : Layout fs) {cmd : S.Cmd} (has : Has fs (.cmd addr cmd))
    (isCreate : cmd.create?.isSome)
    (loads : ∀ os : Os S.Name, os.Reliable → ∃ stored, tryLoadStoredRegister os fs addr = .ok stored) :
    AnyOrder (heldEdits fs addr) := by
  have someOs : (Os.inOrder : Os S.Name).Reliable := Os.inOrder_reliable
  have isLog := storedLog_isLog layout someOs addr
  have every : AnyOrder (· ∈ editsOf (storedLog .inOrder fs addr)) := by
    apply (anyOrder_iff (nodup_editsOf isLog.nodup)).mpr
    intro edits perm
    obtain ⟨other, relisted, rfl⟩ := exists_perm_editsOf perm
    have isOther : IsLog fs addr other :=
      ⟨relisted.nodup_iff.mpr isLog.nodup, fun one => relisted.mem_iff.trans (isLog.mem_iff one)⟩
    obtain ⟨os, reliable, listed⟩ := exists_storedLog_eq layout isOther
    obtain ⟨stored, loaded⟩ := loads os reliable
    rw [tryLoadStoredRegister_eq, listed] at loaded
    obtain ⟨none, -⟩ | ⟨op, -, -, fits, -⟩ := loadLog_eq_ok.mp loaded
    · rw [firstCreate_eq_none.mp none cmd ((isOther.mem_iff cmd).mpr has)] at isCreate
      cases isCreate
    · exact fits
  exact every.mono fun edit held => isLog.mem_edits.mpr held

/-! ## Runs of orderly calls -/

/-- Every call for an address meets a condition on the call and the storage before it. -/
abbrev Throughout (addr : RegisterAddress) (condition : StorageState S → Call S → Prop)
    (self : StorageState S) (requests : List (Request S)) : Prop :=
  Runs.Throughout Request.apply
    (fun self request => request.call.address = addr → condition self request.call) self requests

/-- A call is orderly: its commands are for its address, and with the edits stored for it they can be
applied in any order. -/
structure Orderly (storage : StorageState S) (call : Call S) : Prop where
  addressed : ∀ cmd ∈ call.log, cmd.dstAddress = call.address
  order : AnyOrder fun edit => heldEdits storage.fs call.address edit ∨ .edit edit ∈ call.log

/-- What orderly calls keep: the creations in the directory of an address are for it, the edits are
valid for one of them, and can be applied in any order. -/
structure Settled (addr : RegisterAddress) (storage : StorageState S) : Prop where
  layout : Layout storage.fs
  checked : Checked (fun op => op.address = addr) storage.fs addr
  order : AnyOrder (heldEdits storage.fs addr)

theorem settled_empty (addr : RegisterAddress) (usedSpace : UsedSpace) :
    Settled addr (DataStorage.new .empty usedSpace : StorageState S) where
  layout := placed_empty
  checked := ⟨nofun, nofun⟩
  order := Or.inr ⟨[], Nat.zero_le _, nofun⟩

section

variable (settled : Settled addr self)
include settled

theorem Settled.run (reliable : os.Reliable) (call : Call S)
    (orderly : call.address = addr → Orderly self call) : Settled addr (call.run os self).2 where
  layout := (call.run_grows settled.layout reliable).layout
  checked := settled.checked.run settled.layout reliable fun here cmd mem op isCreate => by
    rw [← RegisterCmd.dstAddress_of_create isCreate, (orderly here).addressed cmd mem, here]
  order := by
    have given := fun edit (held : heldEdits (call.run os self).2.fs addr edit) =>
      Call.has_run settled.layout reliable held
    by_cases here : call.address = addr
    · have order := (orderly here).order
      rw [here] at order
      exact order.mono fun edit held => (given edit held).imp id And.right
    · exact settled.order.mono fun edit held => (given edit held).resolve_right (here ·.1)

theorem Settled.mono {other : StorageState S} (layout : Layout other.fs)
    (subset : ∀ cmd, Has other.fs (.cmd addr cmd) → Has self.fs (.cmd addr cmd)) : Settled addr other :=
  ⟨layout, settled.checked.mono subset, settled.order.mono fun edit => subset (.edit edit)⟩

theorem Settled.load (reliable : os.Reliable) :
    ∃ stored, tryLoadStoredRegister os self.fs addr = .ok stored := by
  apply exists_load settled.layout reliable _ settled.order
  intro cmd op has isCreate edit held
  have address := settled.checked.creations cmd op has isCreate
  obtain ⟨op', address', valid⟩ := settled.checked.edits ⟨cmd, has, by rw [isCreate]; rfl⟩ edit held
  rw [address, ← address']
  exact valid.suits

/-- In a settled directory with a creation, every read returns the register of a creation, with the
entries of all edits. -/
theorem Settled.read (reliable : os.Reliable) {create : S.Cmd}
    (has : Has self.fs (.cmd addr create)) (isCreate : create.create?.isSome) (requester : User S.UserKey) :
    ∃ cmd op register, Has self.fs (.cmd addr cmd) ∧ cmd.create? = some op ∧
      read os self.fs (.get addr) requester = .getRegister (.ok register) ∧
      register.policy = op.policy ∧
      ∀ hash, hash ∈ register.known ↔ ∃ edit, heldEdits self.fs addr edit ∧ edit.hash = hash := by
  have isLog := storedLog_isLog settled.layout reliable addr
  obtain ⟨stored, loaded⟩ := settled.load reliable
  rw [tryLoadStoredRegister_eq] at loaded
  obtain ⟨none, -⟩ | ⟨op, first, suits, fits, -⟩ := loadLog_eq_ok.mp loaded
  · rw [firstCreate_eq_none.mp none create ((isLog.mem_iff create).mpr has)] at isCreate
    cases isCreate
  · obtain ⟨cmd, mem, isOp⟩ := exists_of_firstCreate first
    refine ⟨cmd, op, _, (isLog.mem_iff cmd).mp mem, isOp,
      read_get_eq_ok.mpr ⟨op, first, suits, fits, rfl⟩, by simp, fun hash => ?_⟩
    simp only [Register.known_growAll, CreateRegister.known_register, Finset.empty_union,
      List.mem_toFinset, List.mem_map, isLog.mem_edits]

end

theorem throughout_orderly (layout : Layout self.fs) (requests : List (Request S))
    (addressed : ∀ request ∈ requests, ∀ cmd ∈ request.call.log, cmd.dstAddress = request.call.address)
    (edits : List (SignedRegisterEdit S.toRegisterScheme)) (few : edits.length ≤ maxRegNumEntries)
    (held : ∀ edit, heldEdits self.fs addr edit → edit ∈ edits)
    (sent : ∀ request ∈ requests, ∀ edit, .edit edit ∈ request.call.log → edit ∈ edits) :
    Throughout addr Orderly self requests := by
  refine Runs.throughout_of_invariant
    (motive := fun self => Layout self.fs ∧ ∀ edit, heldEdits self.fs addr edit → edit ∈ edits)
    ⟨layout, held⟩ ?_ ?_
  · rintro self ⟨layout, held⟩ request mem
    refine ⟨(request.call.run_grows layout request.reliable).layout, fun edit has => ?_⟩
    obtain old | ⟨-, new⟩ := Call.has_run layout request.reliable has
    · exact held edit old
    · exact sent request mem edit new
  · rintro self ⟨-, held⟩ request mem rfl
    exact ⟨addressed request mem,
      Or.inr ⟨edits, few, fun edit => Or.rec (held edit) (sent request mem edit)⟩⟩

/-! ## Owner and policy -/

/-- An orderly call brings no other policy: the creations stored for its address and those it
delivers have one. -/
structure OnePolicy (storage : StorageState S) (call : Call S) : Prop extends
    Orderly storage call where
  policy_eq : ∀ cmd cmd' op op', (Has storage.fs (.cmd call.address cmd) ∨ cmd ∈ call.log) →
    (Has storage.fs (.cmd call.address cmd') ∨ cmd' ∈ call.log) →
    cmd.create? = some op → cmd'.create? = some op' → op.policy = op'.policy

def Uniform (addr : RegisterAddress) (self : StorageState S) : Prop :=
  ∀ cmd cmd' op op', Has self.fs (.cmd addr cmd) → Has self.fs (.cmd addr cmd') →
    cmd.create? = some op → cmd'.create? = some op' → op.policy = op'.policy

theorem Uniform.run (uniform : Uniform addr self) (layout : Layout self.fs) (reliable : os.Reliable)
    (call : Call S) (one : call.address = addr → OnePolicy self call) : Uniform addr (call.run os self).2 := by
  intro cmd cmd' op op' has has' isCreate isCreate'
  have given := fun cmd (has : Has (call.run os self).2.fs (.cmd addr cmd)) =>
    Call.has_run layout reliable has
  by_cases here : call.address = addr
  · subst here
    exact (one rfl).policy_eq cmd cmd' op op' ((given cmd has).imp id And.right)
      ((given cmd' has').imp id And.right) isCreate isCreate'
  · exact uniform cmd cmd' op op' ((given cmd has).resolve_right (here ·.1))
      ((given cmd' has').resolve_right (here ·.1)) isCreate isCreate'

/-- In every run whose calls for an address are orderly and bring one policy, a register that was read
once is read ever after, with its policy and owner. -/
theorem policy_fixed (usedSpace : UsedSpace) (addr : RegisterAddress) (requests later : List (Request S))
    (conditions : Throughout addr OnePolicy (DataStorage.new .empty usedSpace) (requests ++ later))
    (os os' : Os S.Name) (reliable : os.Reliable) (reliable' : os'.Reliable)
    (requester requester' : User S.UserKey) (register : Register S.toRegisterScheme)
    (found : read os (runAll (DataStorage.new .empty usedSpace) requests).fs (.get addr) requester =
      .getRegister (.ok register)) :
    ∃ register', read os' (runAll (DataStorage.new .empty usedSpace) (requests ++ later)).fs (.get addr)
        requester' = .getRegister (.ok register') ∧
      register'.policy = register.policy ∧ register'.owner = register.owner := by
  have both : ∀ requests : List (Request S),
      Throughout addr OnePolicy (DataStorage.new .empty usedSpace) requests →
      Settled addr (runAll (DataStorage.new .empty usedSpace) requests) ∧
        Uniform addr (runAll (DataStorage.new .empty usedSpace) requests) := by
    intro requests throughout
    refine throughout.induction (motive := fun self => Settled addr self ∧ Uniform addr self)
      ⟨settled_empty addr usedSpace, fun _ _ _ _ has => absurd has (not_has_empty _)⟩ ?_
    rintro self request ⟨settled, uniform⟩ one
    exact ⟨settled.run request.reliable request.call fun here => (one here).toOrderly,
      uniform.run settled.layout request.reliable request.call one⟩
  obtain ⟨settled, -⟩ := both requests (Runs.throughout_append.mp conditions).1
  obtain ⟨settled', uniform⟩ := both (requests ++ later) conditions
  obtain ⟨op, first, -, -, rfl⟩ := read_get_eq_ok.mp found
  obtain ⟨create, mem, isCreate⟩ := exists_of_firstCreate first
  have has := ((storedLog_isLog settled.layout reliable addr).mem_iff create).mp mem
  have kept : Has (runAll (DataStorage.new .empty usedSpace) (requests ++ later)).fs
      (.cmd addr create) := by
    rw [runAll, Runs.run_append]
    exact kept_runAll settled.layout has
  obtain ⟨create', op', register', has', isCreate', found', policy, -⟩ :=
    settled'.read reliable' kept (by rw [isCreate]; rfl) requester'
  have same := uniform create' create op' op has' kept isCreate' isCreate
  refine ⟨register', found', ?_, ?_⟩
  · rw [policy, same]
    simp
  · rw [Register.owner, policy, same]
    simp [Register.owner]

theorem throughout_onePolicy {requests : List (Request S)} (policy : Policy S.toRegisterScheme)
    (layout : Layout self.fs) (orderly : Throughout addr Orderly self requests)
    (held : ∀ cmd op, Has self.fs (.cmd addr cmd) → cmd.create? = some op → op.policy = policy)
    (sent : ∀ request ∈ requests, ∀ cmd ∈ request.call.log, ∀ op, cmd.create? = some op →
      op.policy = policy) : Throughout addr OnePolicy self requests := by
  induction requests generalizing self with
  | nil => trivial
  | cons request rest ih =>
    rw [List.forall_mem_cons] at sent
    refine ⟨?_, ih (request.call.run_grows layout request.reliable).layout orderly.2
      (fun cmd op has isCreate => ?_) sent.2⟩
    · rintro rfl
      refine ⟨orderly.1 rfl, fun cmd cmd' op op' given given' isCreate isCreate' => ?_⟩
      have policies : ∀ cmd op, (Has self.fs (.cmd request.call.address cmd) ∨
          cmd ∈ request.call.log) → cmd.create? = some op → op.policy = policy :=
        fun cmd op given isCreate => given.elim (held cmd op · isCreate) (sent.1 cmd · op isCreate)
      exact (policies cmd op given isCreate).trans (policies cmd' op' given' isCreate').symm
    · obtain old | ⟨-, new⟩ := Call.has_run layout request.reliable has
      · exact held cmd op old isCreate
      · exact sent.1 cmd new op isCreate

theorem policy_fixed_write : ∃ register register', read sampleOs (runAll (DataStorage.new .empty (.new 1000 1000))
        [sampleWrite (sampleCreate sampleAddress 1 1)]).fs (.get sampleAddress) .anyone =
          .getRegister (.ok register) ∧
      read sampleOtherOs (runAll (DataStorage.new .empty (.new 1000 1000))
        ([sampleWrite (sampleCreate sampleAddress 1 1)] ++
          [sampleWrite (.edit (sampleEdit sampleAddress [] [7] 2 2))])).fs (.get sampleAddress) .anyone =
          .getRegister (.ok register') ∧
      register'.policy = register.policy ∧ register'.owner = register.owner := by
  have created : (register? (read sampleOs (runAll (DataStorage.new .empty (.new 1000 1000))
      [sampleWrite (sampleCreate sampleAddress 1 1)]).fs (.get sampleAddress) .anyone)).isSome = true := by
    decide +kernel
  obtain ⟨register, found⟩ := Option.isSome_iff_exists.mp created
  have orderly : Throughout sampleAddress Orderly (DataStorage.new .empty (.new 1000 1000))
      ([sampleWrite (sampleCreate sampleAddress 1 1)] ++
        [sampleWrite (.edit (sampleEdit sampleAddress [] [7] 2 2))]) := by
    refine throughout_orderly placed_empty _ ?_ [sampleEdit sampleAddress [] [7] 2 2] (by decide)
      (fun _ held => absurd held (not_has_empty _)) ?_
    · simp [sampleWrite, Call.log, Call.address]
    · simp [sampleWrite, Call.log, sampleCreate]
  have conditions := throughout_onePolicy (samplePolicy 1) placed_empty orderly
    (fun _ _ has => absurd has (not_has_empty _)) (by
      simp [sampleWrite, Call.log, sampleCreate, RegisterCmd.create?, sampleOp])
  obtain ⟨register', found', policy, owner⟩ := policy_fixed (.new 1000 1000) sampleAddress _ _
    conditions sampleOs sampleOtherOs sampleOs_reliable sampleOtherOs_reliable .anyone .anyone register
    (register?_eq_some.mp found)
  exact ⟨register, register', register?_eq_some.mp found, found', policy, owner⟩

/-- A second creation is accepted whatever its policy and signature, and a later read may return its
register. -/
theorem policy_changes : (register? (read sampleOs (runAll (DataStorage.new .empty (.new 1000 1000))
      [sampleWrite (sampleCreate sampleAddress 1 1)]).fs (.get sampleAddress) .anyone)).map
        Register.owner = some (.key 1) ∧
    (register? (read sampleOs (runAll (DataStorage.new .empty (.new 1000 1000))
      [sampleWrite (sampleCreate sampleAddress 1 1), sampleWrite (sampleCreate sampleAddress 2 3)]).fs
        (.get sampleAddress) .anyone)).map Register.owner = some (.key 2) := by
  decide +kernel

end RegisterStorage

end SafeNetwork

import SafeNetwork.Storage.Attempt
import SafeNetwork.Storage.DataRun

/-!
# Storing twice

Data that has been stored is stored again: a client repeats a command, and several elders forward one
share. The second call lists the directory in an order of its own and passes the same commands again.
Nothing is added when each command that it accepts is on the disk; the first call may have discarded
some of them.
-/

namespace SafeNetwork

open Std Crdt FileSystem BoundedFill

variable {S : StorageScheme}

namespace RegisterStorage

variable {log listed given again accepted accepted' after after' : List S.Cmd} {cmd : S.Cmd}
  {op : CreateRegister S.toRegisterScheme}

/-! ## What a pass discards -/

/-- The hashes of the entries that the edits of a log write. -/
abbrev hashesOf (log : List S.Cmd) : Finset S.Hash := ((editsOf log).map (·.hash)).toFinset

theorem hashesOf_subset (more : log ⊆ listed) : hashesOf log ⊆ hashesOf listed := by
  intro hash mem
  obtain ⟨edit, inside, rfl⟩ := List.mem_map.mp (List.mem_toFinset.mp mem)
  exact List.mem_toFinset.mpr (List.mem_map_of_mem (mem_editsOf.mpr (more (mem_editsOf.mp inside))))

theorem Pass.subset (pass : Pass log given accepted after) : log ⊆ after ∧ after ⊆ log ++ accepted := by
  induction pass with
  | nil => exact ⟨List.Subset.refl _, List.subset_append_left _ _⟩
  | accept accepts pass ih =>
    rename_i log rest accepted after cmd
    have pushed : log ⊆ pushCmd log cmd ∧ pushCmd log cmd ⊆ log ++ [cmd] := by
      unfold pushCmd
      split
      · exact ⟨List.Subset.refl _, List.subset_append_left _ _⟩
      · exact ⟨List.subset_append_left _ _, List.Subset.refl _⟩
    refine ⟨List.Subset.trans pushed.1 ih.1, fun one mem => ?_⟩
    obtain inside | inside := List.mem_append.mp (ih.2 mem)
    · obtain old | new := List.mem_append.mp (pushed.2 inside)
      · exact List.mem_append_left _ old
      · exact List.mem_append_right _ (List.mem_cons.mpr (Or.inl (List.mem_singleton.mp new)))
    · exact List.mem_append_right _ (List.mem_cons_of_mem _ inside)
  | discard _ pass ih => exact ih

theorem Pass.accepted_subset (pass : Pass log given accepted after) : accepted ⊆ given := by
  induction pass with
  | nil => exact List.Subset.refl _
  | accept _ _ ih => exact List.cons_subset_cons _ ih
  | discard _ _ ih => exact List.subset_cons_of_subset _ ih

theorem firstCreate_pushCmd (created : firstCreate log = some op) : firstCreate (pushCmd log cmd) = some op := by
  unfold pushCmd
  split
  · exact created
  · rw [firstCreate_append, created]
    rfl

section

variable (pass : Pass log given accepted after) (created : firstCreate log = some op)
include pass created

/-- After a creation, a pass discards only edits that are not valid or for which the register is full
at its end. -/
theorem Pass.discarded
    (mem : cmd ∈ given) (discarded : cmd ∉ accepted) :
    ∃ edit, cmd = .edit edit ∧ ¬ (edit.Valid op ∧ (hashesOf after).card < maxRegNumEntries) := by
  induction pass with
  | nil => cases mem
  | accept accepts pass ih =>
    obtain rfl | later := List.mem_cons.mp mem
    · exact absurd (List.mem_cons_self ..) discarded
    · exact ih (firstCreate_pushCmd created) later fun inside =>
        discarded (List.mem_cons_of_mem _ inside)
  | discard refused pass ih =>
    rename_i log rest accepted after first
    obtain rfl | later := List.mem_cons.mp mem
    · cases cmd with
      | create signed sectionSig => exact absurd (by simp [Accepts, created]) refused
      | edit edit =>
        refine ⟨edit, rfl, fun both => refused ?_⟩
        simp only [Accepts, created]
        exact ⟨both.1, (Finset.card_le_card (hashesOf_subset pass.subset.1)).trans_lt both.2⟩
    · exact ih created later discarded

theorem Pass.accepted_edit
    {edit : SignedRegisterEdit S.toRegisterScheme} (mem : .edit edit ∈ accepted) :
    edit.Valid op ∧ (hashesOf log).card < maxRegNumEntries := by
  induction pass with
  | nil => cases mem
  | accept accepts pass ih =>
    rename_i log rest accepted after first
    obtain rfl | later := List.mem_cons.mp mem
    · simpa only [Accepts, created] using accepts
    · obtain ⟨valid, room⟩ := ih (firstCreate_pushCmd created) later
      refine ⟨valid, (Finset.card_le_card (hashesOf_subset ?_)).trans_lt room⟩
      have pass : Pass log [first] [first] (pushCmd log first) := .accept accepts .nil
      exact pass.subset.1
  | discard refused pass ih => exact ih created mem

theorem again_created
    (pass' : Pass listed again accepted' after') (held : ∀ cmd, cmd ∈ listed ↔ cmd ∈ log ∨ cmd ∈ accepted)
    (oneOp : ∀ cmd, cmd ∈ log ∨ cmd ∈ given → ∀ other, cmd.create? = some other → other = op)
    (same : ∀ cmd ∈ again, cmd ∈ given ∨ cmd ∈ listed) : accepted' ⊆ listed := by
  intro cmd mem
  by_contra new
  have isGiven : cmd ∈ given := (same cmd (pass'.accepted_subset mem)).resolve_right new
  have discarded : cmd ∉ accepted := fun inside => new ((held cmd).mpr (Or.inr inside))
  obtain ⟨edit, rfl, refused⟩ := pass.discarded created isGiven discarded
  have created' : firstCreate listed = some op := by
    obtain ⟨create, inside, isCreate⟩ := exists_of_firstCreate created
    obtain ⟨other, first⟩ := Option.isSome_iff_exists.mp (firstCreate_isSome.mpr
      ⟨create, (held create).mpr (Or.inl inside), by rw [isCreate]; rfl⟩)
    obtain ⟨one, isOne, isOther⟩ := exists_of_firstCreate first
    rw [first, oneOp one (((held one).mp isOne).imp id fun inside => pass.accepted_subset inside)
      other isOther]
  obtain ⟨valid, room⟩ := pass'.accepted_edit created' mem
  refine refused ⟨valid, (Finset.card_le_card (hashesOf_subset fun one inside => ?_)).trans_lt room⟩
  exact (held one).mpr (List.mem_append.mp (pass.subset.2 inside))

end

/-! ## Logs without a creation -/

/-- The commands of a log pass the check that a creation of a register makes. -/
structure Checks (log : List S.Cmd) (op : CreateRegister S.toRegisterScheme) : Prop where
  addressed : ∀ cmd ∈ log, cmd.dstAddress = op.address
  valid : ∀ edit ∈ editsOf log, edit.Suits op.address ∧ edit.Permitted op.policy
  fits : Fits maxRegNumEntries ∅ ((editsOf log).map (·.hash))

theorem accepts_create_iff {signed : SignedRegisterCreate S.toRegisterScheme}
    {sectionSig : SectionSig S.toKeyScheme} (uncreated : firstCreate log = none) :
    Accepts log (.create signed sectionSig) ↔
      signed.auth.verifyAuthority (S.serializeCreate signed.op) = true ∧ Checks log signed.op := by
  simp only [Accepts, uncreated]
  constructor
  · rintro ⟨verifies, addressed, valid, fits⟩
    exact ⟨verifies, addressed, valid, fits⟩
  · rintro ⟨verifies, addressed, valid, fits⟩
    exact ⟨verifies, addressed, valid, fits⟩

theorem Checks.of_append (checks : Checks (log ++ listed) op) : Checks log op where
  addressed cmd mem := checks.addressed cmd (List.mem_append_left _ mem)
  valid edit mem := by
    apply checks.valid edit
    exact mem_editsOf.mpr (List.mem_append_left _ (mem_editsOf.mp mem))
  fits := by
    have both := checks.fits
    rw [editsOf, List.filterMap_append, List.map_append, fits_append] at both
    exact both.1

theorem pushCmd_edit {edit : SignedRegisterEdit S.toRegisterScheme} :
    pushCmd log (.edit edit) = log ++ [.edit edit] := by
  simp [pushCmd, RegisterCmd.create?]

theorem firstCreate_append_edit {edit : SignedRegisterEdit S.toRegisterScheme}
    (uncreated : firstCreate log = none) : firstCreate (log ++ [.edit edit]) = none := by
  rw [firstCreate_append, uncreated]
  rfl

theorem Pass.edits {edits : List (SignedRegisterEdit S.toRegisterScheme)}
    (pass : Pass log (edits.map .edit ++ given) accepted after) (uncreated : firstCreate log = none) :
    ∃ later, accepted = edits.map .edit ++ later ∧ firstCreate (log ++ edits.map .edit) = none ∧
      Pass (log ++ edits.map .edit) given later after := by
  induction edits generalizing log accepted with
  | nil => exact ⟨accepted, rfl, by simpa using uncreated, by simpa using pass⟩
  | cons edit rest ih =>
    cases pass with
    | accept accepts pass =>
      rw [pushCmd_edit] at pass
      obtain ⟨later, rfl, uncreated', pass⟩ := ih pass (firstCreate_append_edit uncreated)
      rw [List.append_assoc] at uncreated' pass
      exact ⟨later, rfl, uncreated', pass⟩
    | discard refused pass => exact absurd (by simp [Accepts, uncreated]) refused

theorem Pass.unchecked (pass : Pass log given accepted after) (uncreated : firstCreate log = none)
    (fails : ¬ Checks log op) (oneOp : ∀ cmd ∈ given, ∀ other, cmd.create? = some other → other = op) :
    ∀ cmd, cmd ∈ accepted ↔ cmd ∈ given ∧ cmd.create? = none := by
  induction pass with
  | nil => simp
  | accept accepts pass ih =>
    rename_i log rest accepted after first
    cases first with
    | create signed sectionSig =>
      obtain rfl := oneOp _ (List.mem_cons_self ..) signed.op rfl
      exact absurd ((accepts_create_iff uncreated).mp accepts).2 fails
    | edit edit =>
      rw [pushCmd_edit] at ih
      have later := ih (firstCreate_append_edit uncreated) (fun checks => fails checks.of_append)
        fun cmd mem => oneOp cmd (List.mem_cons_of_mem _ mem)
      intro cmd
      rw [List.mem_cons, List.mem_cons, later cmd]
      constructor
      · rintro (rfl | ⟨mem, isEdit⟩)
        · exact ⟨Or.inl rfl, rfl⟩
        · exact ⟨Or.inr mem, isEdit⟩
      · rintro ⟨rfl | mem, isEdit⟩
        · exact Or.inl rfl
        · exact Or.inr ⟨mem, isEdit⟩
  | discard refused pass ih =>
    rename_i log rest accepted after first
    cases first with
    | edit edit => exact absurd (by simp [Accepts, uncreated]) refused
    | create signed sectionSig =>
      intro cmd
      rw [ih uncreated fails fun cmd mem => oneOp cmd (List.mem_cons_of_mem _ mem), List.mem_cons]
      constructor
      · exact fun both => ⟨Or.inr both.1, both.2⟩
      · rintro ⟨rfl | mem, isEdit⟩
        · cases isEdit
        · exact ⟨mem, isEdit⟩

theorem exists_edits (given : List S.Cmd) :
    ∃ (edits : List (SignedRegisterEdit S.toRegisterScheme)) (rest : List S.Cmd), given = edits.map .edit ++ rest ∧
        (rest = [] ∨ ∃ signed sectionSig later, rest = .create signed sectionSig :: later) := by
  induction given with
  | nil => exact ⟨[], [], rfl, Or.inl rfl⟩
  | cons cmd rest ih =>
    cases cmd with
    | create signed sectionSig => exact ⟨[], _, rfl, Or.inr ⟨signed, sectionSig, rest, rfl⟩⟩
    | edit edit =>
      obtain ⟨edits, later, rfl, shape⟩ := ih
      exact ⟨edit :: edits, later, rfl, shape⟩

/-- A check that fails after the first listing fails after the second one: the edits before it are
listed by now. -/
theorem Checks.of_listed {edits : List (SignedRegisterEdit S.toRegisterScheme)}
    (checks : Checks (listed ++ edits.map .edit) op) (fits : Fits maxRegNumEntries ∅
      ((editsOf log).map (·.hash))) (held : log ++ edits.map .edit ⊆ listed) :
    Checks (log ++ edits.map .edit) op where
  addressed cmd mem := checks.addressed cmd (List.mem_append_left _ (held mem))
  valid edit mem := by
    apply checks.valid edit
    exact mem_editsOf.mpr (List.mem_append_left _ (held (mem_editsOf.mp mem)))
  fits := by
    obtain rfl | ⟨init, last, rfl⟩ := List.eq_nil_or_concat' edits
    · simpa using fits
    · -- Before the last edit all entries are known, so that they stay below the limit.
      have split : editsOf (listed ++ (init ++ [last]).map .edit) =
          editsOf (listed ++ init.map .edit) ++ [last] := by
        rw [List.map_append, ← List.append_assoc, editsOf, List.filterMap_append]
        rfl
      have both := checks.fits
      rw [split, List.map_append, fits_append, Finset.empty_union] at both
      have room : (hashesOf (listed ++ init.map .edit)).card < maxRegNumEntries := both.2.1
      apply fits_of_card_lt
      rw [Finset.empty_union]
      refine (Finset.card_le_card (hashesOf_subset fun one mem => ?_)).trans_lt room
      exact List.mem_append_left _ (held mem)

theorem again_uncreated (pass : Pass log given accepted after) (uncreated : firstCreate log = none)
    (pass' : Pass listed given accepted' after') (held : ∀ cmd, cmd ∈ listed ↔ cmd ∈ log ∨ cmd ∈ accepted)
    (oneOp : ∀ cmd ∈ given, ∀ other, cmd.create? = some other → other = op)
    (signed : ∀ signed sectionSig, .create signed sectionSig ∈ given →
      signed.auth.verifyAuthority (S.serializeCreate signed.op) = true)
    (fits : Fits maxRegNumEntries ∅ ((editsOf log).map (·.hash))) : accepted' ⊆ listed := by
  obtain ⟨edits, rest, rfl, shape⟩ := exists_edits given
  obtain ⟨later, rfl, uncreated', pass⟩ := pass.edits uncreated
  have prior : log ++ edits.map .edit ⊆ listed := fun cmd mem =>
    (held cmd).mpr ((List.mem_append.mp mem).imp id fun inside => List.mem_append_left _ inside)
  obtain rfl | ⟨create, sectionSig, more, rfl⟩ := shape
  · exact fun cmd mem => prior (List.mem_append_right _ (by simpa using pass'.accepted_subset mem))
  have isGiven : .create create sectionSig ∈ edits.map RegisterCmd.edit ++
      .create create sectionSig :: more := List.mem_append_right _ (List.mem_cons_self ..)
  obtain rfl := oneOp _ isGiven create.op rfl
  cases pass with
  | accept accepts pass =>
    rename_i later
    rw [pushCmd, uncreated', Option.isSome_none, Bool.false_and, if_neg Bool.false_ne_true] at pass
    have created : firstCreate (log ++ edits.map .edit ++ [.create create sectionSig]) =
        some create.op := by
      rw [firstCreate_append, uncreated']
      rfl
    refine again_created pass created pass' (fun cmd => ?_) (fun cmd mem => ?_) fun cmd mem => ?_
    · rw [held]
      simp only [List.mem_append, List.mem_cons, List.not_mem_nil, or_false]
      tauto
    · obtain inside | inside := mem
      · obtain old | new := List.mem_append.mp inside
        · intro other isCreate
          rw [firstCreate_eq_none.mp uncreated' cmd old] at isCreate
          cases isCreate
        · rw [List.mem_singleton.mp new]
          exact oneOp _ isGiven
      · exact oneOp cmd (List.mem_append_right _ (List.mem_cons_of_mem _ inside))
    · obtain inside | inside := List.mem_append.mp mem
      · exact Or.inr (prior (List.mem_append_right _ inside))
      · obtain rfl | inside := List.mem_cons.mp inside
        · exact Or.inr ((held _).mpr (Or.inr (List.mem_append_right _ (List.mem_cons_self ..))))
        · exact Or.inl inside
  | discard refused pass =>
    have fails : ¬ Checks (log ++ edits.map .edit) create.op := fun checks =>
      refused ((accepts_create_iff uncreated').mpr ⟨signed _ _ isGiven, checks⟩)
    have ofMore : ∀ cmd ∈ more, ∀ other, cmd.create? = some other → other = create.op :=
      fun cmd mem => oneOp cmd (List.mem_append_right _ (List.mem_cons_of_mem _ mem))
    have first := pass.unchecked uncreated' fails ofMore
    have still : firstCreate listed = none := by
      refine firstCreate_eq_none.mpr fun cmd mem => ?_
      rw [held, List.mem_append, ← or_assoc, ← List.mem_append] at mem
      obtain inside | inside := mem
      · exact firstCreate_eq_none.mp uncreated' cmd inside
      · exact ((first cmd).mp inside).2
    obtain ⟨later', rfl, still', pass'⟩ := pass'.edits still
    have second := pass'.unchecked still' (fun checks => fails (checks.of_listed fits prior))
      (List.forall_mem_cons.mpr ⟨oneOp _ isGiven, ofMore⟩)
    intro cmd mem
    obtain inside | inside := List.mem_append.mp mem
    · exact prior (List.mem_append_right _ inside)
    · obtain ⟨isMore, isEdit⟩ := (second cmd).mp inside
      obtain rfl | isMore := List.mem_cons.mp isMore
      · cases isEdit
      · exact (held cmd).mpr (Or.inr (List.mem_append_right _ ((first cmd).mpr ⟨isMore, isEdit⟩)))

end RegisterStorage

/-! ## Commands that are there -/

theorem Layout.there {fs : Fs S.Name} {item : Item S} (layout : Layout fs) (has : Has fs item) :
    There fs item.dir := by
  intro above proper below
  have inside : above <+: item.path := below.trans (List.prefix_append _ _)
  exact layout.tree _ _ has above proper inside (Item.path_ne_of_isPrefix below)

theorem StorageState.addLog_eq {self : StorageState S} {addr : RegisterAddress} {log : List S.Cmd}
    (os : Os S.Name) (layout : Layout self.fs) (held : ∀ cmd ∈ log, Has self.fs (.cmd addr cmd)) :
    self.addLog os addr log = self := by
  cases log with
  | nil => rfl
  | cons first rest =>
    have there : There self.fs (RegisterStore.addressToFilepath S addr) :=
      layout.there (held first (List.mem_cons_self ..))
    have same : ∀ log : List S.Cmd, (∀ cmd ∈ log, Has self.fs (.cmd addr cmd)) →
        self.addAll (log.map (.cmd addr)) = self := by
      intro log held
      induction log with
      | nil => rfl
      | cons cmd rest ih =>
        obtain ⟨here, later⟩ := List.forall_mem_cons.mp held
        have kept : self.addNew (.cmd addr cmd) = self := by
          rw [addNew, layout.isSome_get_cmd.mpr here, Bool.true_or, if_pos rfl]
        rw [List.map_cons, addAll, List.foldl_cons, kept]
        exact ih later
    rw [addLog, List.isEmpty_cons, if_neg Bool.false_ne_true, makeDirs_eq there]
    exact same _ held

namespace RegisterStorage

variable {self : StorageState S} {os os' : Os S.Name}

/-- A log can be stored twice: all creations, in the directory of its register and in the log, are of
one register, and one is in the directory, or those in the log are signed and the edits in the
directory can be applied in any order. -/
def SteadyLog (storage : StorageState S) (log : ReplicatedRegisterLog S) : Prop :=
  ∃ op : CreateRegister S.toRegisterScheme,
    (∀ cmd, Has storage.fs (.cmd log.address cmd) ∨ cmd ∈ log.opLog →
      ∀ other, cmd.create? = some other → other = op) ∧
    ((∃ cmd, Has storage.fs (.cmd log.address cmd) ∧ cmd.create?.isSome) ∨
      (∀ signed sectionSig, .create signed sectionSig ∈ log.opLog →
        signed.auth.verifyAuthority (S.serializeCreate signed.op) = true) ∧
      AnyOrder (heldEdits storage.fs log.address))

/-- Another log adds nothing to what a log has to be stored: it is the same, or a creation is stored
and all that is new is in the log. -/
def NoMore (storage : StorageState S) (log : ReplicatedRegisterLog S) (again : List S.Cmd) : Prop :=
  again = log.opLog ∨ (∃ cmd, Has storage.fs (.cmd log.address cmd) ∧ cmd.create?.isSome) ∧
    ∀ cmd ∈ again, cmd ∈ log.opLog ∨ Has storage.fs (.cmd log.address cmd)

variable (layout : Layout self.fs) (reliable : os.Reliable)
include layout reliable

theorem update_again (reliable' : os'.Reliable)
    {log : ReplicatedRegisterLog S} {again : List S.Cmd} (steady : SteadyLog self log)
    (noMore : NoMore self log again) {level : StorageLevel} (ok : (update os self log).1 = .ok level) :
    (update os' (update os self log).2 ⟨log.address, again⟩).2 = (update os self log).2 := by
  obtain ⟨op, oneOp, ready⟩ := steady
  obtain ⟨listed, isLog, ⟨error, failed, -⟩ | ⟨stored, loaded, writes⟩⟩ :=
    (Call.update log).run_cases layout reliable
  · have failed : update os self log = (.error error, self) := failed
    rw [failed] at ok
    cases ok
  obtain ⟨listed', isLog', ⟨error, failed, -⟩ | ⟨stored', loaded', writes'⟩⟩ :=
    (Call.update ⟨log.address, again⟩).run_cases writes.grows.layout reliable'
  · have failed : update os' (update os self log).2 ⟨log.address, again⟩ =
        (.error error, (update os self log).2) := failed
    rw [failed]
  obtain ⟨after, pass⟩ := exists_pass loaded log.opLog
  obtain ⟨after', pass'⟩ := exists_pass loaded' again
  have held : ∀ cmd, cmd ∈ listed' ↔ cmd ∈ listed ∨ cmd ∈ acceptCmds stored log.opLog := by
    intro cmd
    rw [isLog'.mem_iff cmd, isLog.mem_iff cmd]
    constructor
    · intro has
      refine (writes.grows.new _ has).imp id fun mem => ?_
      obtain ⟨_, inside, same⟩ := List.mem_map.mp mem
      rwa [← (Item.cmd.inj same).2]
    · rintro (has | mem)
      · exact writes.grows.kept _ has
      · exact writes.has level ok cmd mem
  have known : ∀ cmd, cmd ∈ listed ∨ cmd ∈ log.opLog → ∀ other, cmd.create? = some other →
      other = op := fun cmd mem => oneOp cmd (mem.imp (isLog.mem_iff cmd).mp id)
  have nothing : acceptCmds stored' again ⊆ listed' := by
    cases first : firstCreate listed with
    | some other =>
      obtain ⟨create, mem, isCreate⟩ := exists_of_firstCreate first
      obtain rfl := known create (Or.inl mem) other isCreate
      refine again_created pass first pass' held known fun cmd mem => ?_
      obtain rfl | ⟨-, inside⟩ := noMore
      · exact Or.inl mem
      · exact (inside cmd mem).imp id fun has => (held cmd).mpr (Or.inl ((isLog.mem_iff cmd).mpr has))
    | none =>
      have uncreated : ¬ ∃ cmd, Has self.fs (.cmd log.address cmd) ∧ cmd.create?.isSome := by
        rintro ⟨cmd, has, isCreate⟩
        rw [firstCreate_eq_none.mp first cmd ((isLog.mem_iff cmd).mpr has)] at isCreate
        cases isCreate
      obtain ⟨signed, order⟩ := ready.resolve_left uncreated
      obtain rfl := noMore.resolve_right fun both => uncreated both.1
      exact again_uncreated pass first pass' held (fun cmd mem => known cmd (Or.inr mem)) signed
        (order.fits isLog)
  have state : (update os' (update os self log).2 ⟨log.address, again⟩).2 =
      (update os self log).2.addLog os' log.address (acceptCmds stored' again) := writes'.state
  rw [state]
  exact StorageState.addLog_eq os' writes.grows.layout fun cmd mem =>
    (isLog'.mem_iff cmd).mp (nothing mem)

theorem write_ok {cmd : S.Cmd}
    {level : StorageLevel} (ok : (write os self cmd).1 = .ok level) :
    RegisterStore.WritesLog self os cmd.dstAddress [cmd] (write os self cmd) := by
  simp only [write, tryLoadStoredRegister_eq] at ok ⊢
  cases loaded : loadLog (RegisterStore.addressToFilepath S cmd.dstAddress)
      (storedLog os self.fs cmd.dstAddress) with
  | error error =>
    rw [loaded] at ok
    cases ok
  | ok stored =>
    rw [loaded] at ok
    cases done : tryToApplyCmdAgainstRegisterState cmd stored with
    | error error =>
      simp only [done] at ok
      cases ok
    | ok stored' =>
      simp only [done]
      rw [opLogPath_tryToApply done, opLogPath_loadLog loaded]
      exact RegisterStore.writeLogToDisk_spec layout reliable

theorem write_again (reliable' : os'.Reliable)
    {cmd : S.Cmd} {level : StorageLevel} (ok : (write os self cmd).1 = .ok level) :
    (write os' (write os self cmd).2 cmd).2 = (write os self cmd).2 := by
  have writes := write_ok layout reliable ok
  obtain ⟨listed, -, ⟨error, failed, -⟩ | ⟨stored, -, writes'⟩⟩ :=
    (Call.write cmd).run_cases writes.grows.layout reliable'
  · have failed : write os' (write os self cmd).2 cmd = (.error error, (write os self cmd).2) := failed
    rw [failed]
  · have state : (write os' (write os self cmd).2 cmd).2 =
        (write os self cmd).2.addLog os' cmd.dstAddress (acceptCmds stored [cmd]) := writes'.state
    rw [state]
    exact StorageState.addLog_eq os' writes.grows.layout fun one mem =>
      writes.has level ok one ((acceptCmds_sublist _ _).subset mem)

end RegisterStorage

namespace DataStorage

variable {self : StorageState S} {os os' : Os S.Name}

/-- Data can be stored twice: logs are steady, and so is the one of a spentbook command, whose new
creation is the same in the second call or has been stored. -/
def Steady (storage : StorageState S) (sectionPk : S.UserKey) (nodeKeypair : S.Keypair)
    (sectionSig sectionSig' : SectionSig S.toKeyScheme) : ReplicatedData S → Prop
  | .chunk _ => True
  | .registerWrite _ => True
  | .registerLog log => RegisterStorage.SteadyLog storage log
  | .spentbookWrite cmd =>
    RegisterStorage.SteadyLog storage
      (RegisterStorage.spentbookLog cmd sectionPk nodeKeypair sectionSig) ∧
    (sectionSig' = sectionSig ∨ Has storage.fs
      (.cmd cmd.dstAddress (spentbookCreation sectionPk nodeKeypair sectionSig' cmd)))
  | .spentbookLog log => RegisterStorage.SteadyLog storage log

theorem chunk_again (layout : Layout self.fs) (reliable : os.Reliable) (reliable' : os'.Reliable)
    {chunk : Chunk S} {level : StorageLevel} (ok : (ChunkStorage.store os self chunk).1 = .ok level) :
    (ChunkStorage.store os' (ChunkStorage.store os self chunk).2 chunk).2 = (ChunkStorage.store os self chunk).2 := by
  have stands : ((ChunkStorage.store os self chunk).2.fs.get (Item.chunk chunk).path).isSome = true := by
    obtain ⟨stands, same⟩ | ⟨-, same⟩ | ⟨-, -, level, same⟩ :=
      ChunkStorage.store_cases layout reliable chunk
    · rwa [same]
    · rw [same] at ok
      cases ok
    · rw [same, StorageState.add, Fs.get_set_self]
      rfl
  have grows := ChunkStorage.store_grows layout reliable chunk
  obtain ⟨-, same⟩ | ⟨-, same⟩ | ⟨absent, -⟩ := ChunkStorage.store_cases grows.layout reliable' chunk
  · rw [same]
  · rw [same]
  · rw [absent] at stands
    cases stands

def sampleLog : ReplicatedData sampleStorage := .registerLog ⟨sampleAddress,
  [sampleCreate sampleAddress 1 1, .edit (sampleEdit sampleAddress [] [7] 2 2)]⟩

end DataStorage

end SafeNetwork

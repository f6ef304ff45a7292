import SafeNetwork.Storage.Layout

/-!
# How a storage grows

Without faults every operation that stores does it in one way: it creates the directories of an item
and adds the items that are new and for which there is space. Nothing on the disk is changed.
-/

namespace SafeNetwork

open Std Crdt FileSystem

variable {S : StorageScheme}

def There (fs : Fs S.Name) (dir : S.Path) : Prop :=
  ∀ above, above ≠ [] → above <+: dir → fs.get above = some .directory

namespace StorageState

variable (self : StorageState S) (item : Item S)

def add : StorageState S :=
  ⟨self.fs.set item.path (.file item.bytes), (self.usedSpace.increase S item.amount).2⟩

/-- The storage with an item added, if nothing stands at its path and there is space. -/
def addNew : StorageState S :=
  if (self.fs.get item.path).isSome || !self.usedSpace.canAdd item.amount then self
  else self.add item

def addAll (items : List (Item S)) : StorageState S := items.foldl addNew self

def makeDirs (os : Os S.Name) (dir : S.Path) : StorageState S :=
  { self with fs := (self.fs.createDirAll os dir).2 }

def addLog (os : Os S.Name) (addr : RegisterAddress) (log : List S.Cmd) : StorageState S :=
  if log.isEmpty then self
  else (self.makeDirs os (RegisterStore.addressToFilepath S addr)).addAll (log.map (.cmd addr))

end StorageState

/-- A storage has grown: all it had is there, and nothing new but some of the given items. -/
structure Grows (before : StorageState S) (items : List (Item S)) (grown : StorageState S) :
    Prop where
  layout : Layout grown.fs
  kept : ∀ item, Has before.fs item → Has grown.fs item
  new : ∀ item, Has grown.fs item → Has before.fs item ∨ item ∈ items

namespace Grows

variable {self middle grown : StorageState S} {items more : List (Item S)}

theorem refl (layout : Layout self.fs) : Grows self items self :=
  ⟨layout, fun _ has => has, fun _ has => Or.inl has⟩

theorem trans (first : Grows self items middle) (second : Grows middle more grown) :
    Grows self (items ++ more) grown where
  layout := second.layout
  kept item has := second.kept item (first.kept item has)
  new item has := by
    obtain before | new := second.new item has
    · obtain old | new := first.new item before
      · exact Or.inl old
      · exact Or.inr (List.mem_append_left _ new)
    · exact Or.inr (List.mem_append_right _ new)

theorem mono (grows : Grows self items grown) (subset : items ⊆ more) : Grows self more grown :=
  ⟨grows.layout, grows.kept, fun item has => (grows.new item has).imp id fun mem => subset mem⟩

end Grows

namespace StorageState

variable {self : StorageState S} {item other : Item S} {items : List (Item S)} {dir : S.Path}
  {os : Os S.Name} {addr : RegisterAddress} {cmd : S.Cmd} {count : Nat}

theorem there_addNew (there : There self.fs item.dir) : There (self.addNew other).fs item.dir := by
  intro above proper below
  unfold addNew
  split
  · exact there above proper below
  · exact (Fs.get_set_ne (Item.path_ne_of_isPrefix below)).trans (there above proper below)

theorem addNew_grows (layout : Layout self.fs) (there : There self.fs item.dir) :
    Grows self [item] (self.addNew item) := by
  unfold addNew
  split
  · exact .refl layout
  · rename_i free
    rw [Bool.or_eq_true, not_or, Option.not_isSome_iff_eq_none] at free
    refine ⟨layout.set rfl there, fun other has => ?_, fun other has => ?_⟩
    · have differs : other.path ≠ item.path := by
        intro same
        rw [Has, same, free.1] at has
        cases has
      exact (Fs.get_set_ne differs).trans has
    · by_cases same : other.path = item.path
      · have stored : (self.fs.set item.path (.file item.bytes)).get other.path =
            some (.file other.bytes) := has
        rw [same, Fs.get_set_self] at stored
        have bytes : item.bytes = other.bytes := by simpa using stored
        exact Or.inr (List.mem_singleton.mpr (Item.eq_of_path same bytes.symm))
      · exact Or.inl ((Fs.get_set_ne same).symm.trans has)

theorem has_addNew_cmd (layout : Layout self.fs) (space : self.usedSpace.canAdd S.sizeOfRegisterCmd = true) :
    Has (self.addNew (.cmd addr cmd)).fs (.cmd addr cmd) := by
  unfold addNew
  split
  · rename_i stands
    have amount : (Item.cmd addr cmd).amount = S.sizeOfRegisterCmd := rfl
    rw [amount, space, Bool.not_true, Bool.or_false] at stands
    exact layout.isSome_get_cmd.mp stands
  · exact Fs.get_set_self

theorem addAll_grows (items : List (Item S)) (layout : Layout self.fs)
    (there : ∀ item ∈ items, There self.fs item.dir) : Grows self items (self.addAll items) := by
  induction items generalizing self with
  | nil => exact .refl layout
  | cons item rest ih =>
    have first := addNew_grows layout (there item (List.mem_cons_self ..))
    have later := ih first.layout fun other mem => there_addNew (there other (List.mem_cons_of_mem _ mem))
    exact first.trans later

theorem makeDirs_grows (os : Os S.Name) (layout : Layout self.fs) (item : Item S) :
    Grows self [] (self.makeDirs os item.dir) where
  layout := layout.createDirAll item
  kept _ has := Fs.get_file_createDirAll.mpr has
  new _ has := Or.inl (Fs.get_file_createDirAll.mp has)

theorem createDirAll_eq (layout : Layout self.fs) (reliable : os.Reliable) (item : Item S) :
    self.fs.createDirAll os item.dir = (.ok (), (self.makeDirs os item.dir).fs) :=
  Prod.ext (Fs.createDirAll_ok reliable fun _ _ above => layout.get_above_ne above) rfl

theorem there_makeDirs (layout : Layout self.fs) (reliable : os.Reliable) (item : Item S) :
    There (self.makeDirs os item.dir).fs item.dir := by
  have done := Fs.createDirAll_ok reliable fun above _ (below : above <+: item.dir) =>
    layout.get_above_ne below
  intro above proper below
  exact Fs.get_of_createDirAll done proper below

theorem makeDirs_eq (there : There self.fs dir) : self.makeDirs os dir = self := by
  have same : self.fs.createDirAll os dir = (.ok (), self.fs) := Fs.createDirAll_same there
  rw [makeDirs, same]

/-- There is space for a number of commands; the capacity is a `usize`. -/
structure Room (storage : StorageState S) (count : Nat) : Prop where
  fits : storage.usedSpace.usedSpace + count * S.sizeOfRegisterCmd ≤ storage.usedSpace.maxCapacity
  capacity : storage.usedSpace.maxCapacity < usizeModulus

theorem Room.mono {more : Nat} (room : Room self more) (fewer : count ≤ more) : Room self count :=
  ⟨(Nat.add_le_add_left (Nat.mul_le_mul_right _ fewer) _).trans room.fits, room.capacity⟩

theorem Room.canAdd (room : Room self (count + 1)) : self.usedSpace.canAdd S.sizeOfRegisterCmd = true := by
  obtain ⟨fits, capacity⟩ := room
  rw [Nat.add_mul, Nat.one_mul] at fits
  have small : self.usedSpace.usedSpace + S.sizeOfRegisterCmd < usizeModulus := by omega
  rw [UsedSpace.canAdd, Nat.mod_eq_of_lt small, decide_eq_true_eq]
  omega

theorem Room.addNew (room : Room self (count + 1)) : Room (self.addNew (.cmd addr cmd)) count := by
  obtain ⟨fits, capacity⟩ := room
  rw [Nat.add_mul, Nat.one_mul] at fits
  have small : self.usedSpace.usedSpace + S.sizeOfRegisterCmd < usizeModulus := by omega
  unfold StorageState.addNew
  split
  · exact ⟨by omega, capacity⟩
  · have used : (self.add (.cmd addr cmd)).usedSpace.usedSpace =
        self.usedSpace.usedSpace + S.sizeOfRegisterCmd :=
      (UsedSpace.increase_usedSpace ..).trans (Nat.mod_eq_of_lt small)
    have most : (self.add (.cmd addr cmd)).usedSpace.maxCapacity = self.usedSpace.maxCapacity :=
      UsedSpace.increase_maxCapacity ..
    exact ⟨by rw [used, most]; omega, by rwa [most]⟩

theorem Room.addLog {log : List S.Cmd}
    (room : Room self (count + log.length)) : Room (self.addLog os addr log) count := by
  have all : ∀ (log : List S.Cmd) (self : StorageState S), Room self (count + log.length) →
      Room (self.addAll (log.map (.cmd addr))) count := by
    intro log
    induction log with
    | nil => exact fun _ room => room
    | cons cmd rest ih => exact fun self room => ih _ room.addNew
  unfold StorageState.addLog
  split
  · rename_i empty
    rw [List.isEmpty_iff.mp empty] at room
    exact room
  · exact all log _ ⟨room.fits, room.capacity⟩

end StorageState

/-! ## Writing commands -/

namespace RegisterStore

open StorageState

variable {self : StorageState S} {os : Os S.Name} {addr : RegisterAddress} {cmd : S.Cmd}
  {log : List S.Cmd} {lastErr : Option S.Error} {level : StorageLevel}

theorem writeRegisterCmd_eq (cmd : S.Cmd) (layout : Layout self.fs) (reliable : os.Reliable)
    (there : There self.fs (addressToFilepath S addr)) : (self.usedSpace.canAdd S.sizeOfRegisterCmd = true ∧
      ∃ level, writeRegisterCmd os self cmd (addressToFilepath S addr) = (.ok level, self.addNew (.cmd addr cmd))) ∨
    self.usedSpace.canAdd S.sizeOfRegisterCmd = false ∧
      writeRegisterCmd os self cmd (addressToFilepath S addr) =
        (.error .notEnoughSpace, self.addNew (.cmd addr cmd)) := by
  have amount : (Item.cmd addr cmd).amount = S.sizeOfRegisterCmd := rfl
  cases space : self.usedSpace.canAdd S.sizeOfRegisterCmd with
  | false =>
    refine Or.inr ⟨rfl, ?_⟩
    rw [writeRegisterCmd, space, StorageState.addNew, amount, space]
    simp
  | true =>
    refine Or.inl ⟨rfl, ?_⟩
    rw [writeRegisterCmd, space, StorageState.addNew, amount, space, Bool.not_true,
      if_neg Bool.false_ne_true, Bool.or_false]
    have seen : self.fs.pathExists os (Item.cmd addr cmd).path =
        (self.fs.get (Item.cmd addr cmd).path).isSome := Fs.pathExists_eq reliable
    rw [Item.path_cmd] at seen ⊢
    cases stands : (self.fs.get (addressToFilepath S addr ++
        [.cmd (registerOperationId S cmd)])).isSome with
    | true =>
      rw [if_pos (seen.trans stands), if_pos rfl]
      exact ⟨.noChange, rfl⟩
    | false =>
      have parent : self.fs.isDirectory (Item.cmd addr cmd).path.dropLast = true := by
        have directory := there _ (Item.dir_ne_nil : (Item.cmd addr cmd).dir ≠ []) (List.prefix_refl _)
        rw [Item.dropLast_path, Fs.isDirectory, directory]
        simp
      have written := Fs.persist_eq (S.serialise cmd) reliable parent layout.get_path_ne
      rw [Item.path_cmd] at written
      rw [if_neg (by rw [seen, stands]; exact Bool.false_ne_true), if_neg Bool.false_ne_true, written]
      exact ⟨_, rfl⟩

theorem writeCmds_spec (lastErr : Option S.Error) (level : StorageLevel) (log : List S.Cmd)
    (layout : Layout self.fs) (reliable : os.Reliable) (there : There self.fs (addressToFilepath S addr)) :
    (writeCmds os (addressToFilepath S addr) lastErr level self log).2.2 = self.addAll (log.map (.cmd addr)) ∧
      ((writeCmds os (addressToFilepath S addr) lastErr level self log).1 = none →
        lastErr = none ∧ ∀ cmd ∈ log, Has (self.addAll (log.map (.cmd addr))).fs (.cmd addr cmd)) ∧
      (∀ error, (writeCmds os (addressToFilepath S addr) lastErr level self log).1 = some error →
        error = .notEnoughSpace ∨ lastErr = some error) ∧
      (Room self log.length → (writeCmds os (addressToFilepath S addr) lastErr level self log).1 = lastErr) := by
  induction log generalizing self lastErr level with
  | nil => exact ⟨rfl, fun none => ⟨none, nofun⟩, fun _ same => Or.inr same, fun _ => rfl⟩
  | cons cmd rest ih =>
    have item : There self.fs (Item.cmd addr cmd).dir := there
    have grows := addNew_grows layout item
    have there' : There (self.addNew (.cmd addr cmd)).fs (addressToFilepath S addr) :=
      show There _ (Item.cmd addr cmd).dir from there_addNew item
    obtain ⟨space, level', written⟩ | ⟨full, refused⟩ :=
      writeRegisterCmd_eq cmd layout reliable there
    · obtain ⟨state, all, errors, room⟩ := ih lastErr
        (if level = .noChange then level' else level) grows.layout there'
      rw [writeCmds, written]
      refine ⟨state, fun none => ⟨(all none).1, ?_⟩, errors, fun more => room more.addNew⟩
      rw [List.forall_mem_cons]
      have later := addAll_grows (rest.map (.cmd addr)) grows.layout (by
        simp only [List.forall_mem_map]
        exact fun _ _ => there')
      exact ⟨later.kept _ (has_addNew_cmd layout space), (all none).2⟩
    · obtain ⟨state, all, errors, -⟩ := ih (some .notEnoughSpace) level grows.layout
        there'
      rw [writeCmds, refused]
      refine ⟨state, fun none => absurd (all none).1 nofun, fun error some => Or.inl ?_, fun more => ?_⟩
      · obtain same | same := errors error some
        · exact same
        · exact (Option.some.inj same).symm
      · rw [more.canAdd] at full
        cases full

/-- What writing a log does, without faults: it adds the commands, and fails only for lack of
space. -/
structure WritesLog (before : StorageState S) (os : Os S.Name) (addr : RegisterAddress)
    (log : List S.Cmd) (result : S.Result StorageLevel × StorageState S) : Prop where
  state : result.2 = before.addLog os addr log
  grows : Grows before (log.map (.cmd addr)) result.2
  has : ∀ level, result.1 = .ok level → ∀ cmd ∈ log, Has result.2.fs (.cmd addr cmd)
  error : ∀ error, result.1 = .error error → error = .notEnoughSpace
  room : Room before log.length → ∃ level, result.1 = .ok level

theorem writeLogToDisk_spec (layout : Layout self.fs) (reliable : os.Reliable) :
    WritesLog self os addr log (writeLogToDisk os self log (addressToFilepath S addr)) := by
  unfold writeLogToDisk
  cases log with
  | nil => exact ⟨rfl, .refl layout, nofun, nofun, fun _ => ⟨_, rfl⟩⟩
  | cons cmd rest =>
    have dir : (Item.cmd addr cmd).dir = addressToFilepath S addr := rfl
    have made := createDirAll_eq layout reliable (.cmd addr cmd)
    have dirs := makeDirs_grows os layout (.cmd addr cmd)
    have there := there_makeDirs layout reliable (.cmd addr cmd)
    rw [dir] at made dirs there
    obtain ⟨state, all, errors, room⟩ := writeCmds_spec none .noChange (cmd :: rest)
      dirs.layout reliable there
    have added := addAll_grows ((cmd :: rest).map (.cmd addr)) dirs.layout (by
      simp only [List.forall_mem_map]
      exact fun _ _ => there)
    have grows := dirs.trans added
    rw [List.isEmpty_cons, if_neg Bool.false_ne_true, made]
    simp only [StorageState.makeDirs] at state all errors room grows ⊢
    cases write : writeCmds os (addressToFilepath S addr) none .noChange
        { self with fs := (self.fs.createDirAll os (addressToFilepath S addr)).2 } (cmd :: rest) with
    | mk lastErr written =>
      obtain ⟨level, after⟩ := written
      rw [write] at state all errors room
      obtain rfl : after = _ := state
      cases lastErr with
      | some error =>
        refine ⟨rfl, grows, nofun, fun _ same => ?_, fun more => absurd (room ⟨more.fits, more.capacity⟩) nofun⟩
        cases same
        exact (errors error rfl).resolve_right nofun
      | none => exact ⟨rfl, grows, fun _ _ => (all rfl).2, nofun, fun _ => ⟨_, rfl⟩⟩

end RegisterStore

end SafeNetwork

import SafeNetwork.Storage.Growth

/-!
# Attempts to store

What is on the disk after an attempt to store, whatever fails. A file that stands at the path of an
item is taken for the item, and a write that fails leaves a part of it. So an item is in the store
afterwards if its file was whole and has not been touched, or if it has been written to the end.
-/

namespace SafeNetwork

open Std Crdt FileSystem

variable {S : StorageScheme} {self : StorageState S} {fs : Fs S.Name} {os : Os S.Name}
  {item other : Item S}

/-! ## One file -/

def Writable (os : Os S.Name) (fs : Fs S.Name) (item : Item S) : Prop :=
  (fs.createDirAll os item.dir).1 = .ok () ∧ Fs.Opens os fs item.path

def Added (os : Os S.Name) (fs : Fs S.Name) (item : Item S) : Prop :=
  fs.pathExists os item.path = false ∧ Writable os fs item ∧ Fs.Syncs os item.path

/-- The file of an item is whole after an attempt to write it: it was and is left alone, or all of it
is written, if only the system says so or not. -/
def Whole (os : Os S.Name) (fs : Fs S.Name) (item : Item S) : Prop :=
  Has fs item ∧ (fs.pathExists os item.path = true ∨ ¬ Writable os fs item) ∨
    fs.pathExists os item.path = false ∧ Writable os fs item ∧
      (Fs.Syncs os item.path ∨ os.written item.path item.bytes = item.bytes)

theorem whole_of_seen (seen : fs.pathExists os item.path = true) : Whole os fs item ↔ Has fs item := by
  simp [Whole, seen]

theorem whole_of_not_writable (closed : ¬ Writable os fs item) : Whole os fs item ↔ Has fs item := by
  simp [Whole, closed]

theorem has_createDirAll (os : Os S.Name) (fs : Fs S.Name) (dir : S.Path) (item : Item S) :
    Has (fs.createDirAll os dir).2 item ↔ Has fs item :=
  Fs.get_file_createDirAll

theorem get_path_createDirAll : (fs.createDirAll os other.dir).2.get item.path = fs.get item.path := by
  obtain kept | ⟨above, -, -⟩ := Fs.get_createDirAll os fs other.dir item.path
  · exact kept
  · exact absurd rfl (Item.path_ne_of_isPrefix above)

theorem pathExists_createDirAll : (fs.createDirAll os other.dir).2.pathExists os item.path =
    fs.pathExists os item.path := by
  rw [Fs.pathExists, Fs.pathExists, get_path_createDirAll]

theorem writable_of_there (there : There fs item.dir) : Writable os fs item ↔ Fs.Opens os fs item.path := by
  rw [Writable, Fs.createDirAll_same there]
  exact and_iff_right rfl

theorem writable_createDirAll (made : (fs.createDirAll os item.dir).1 = .ok ()) :
    Writable os (fs.createDirAll os item.dir).2 item ↔ Writable os fs item := by
  have there : There (fs.createDirAll os item.dir).2 item.dir :=
    fun _ proper below => Fs.get_of_createDirAll made proper below
  rw [writable_of_there there, Writable, Fs.Opens, Fs.Opens, get_path_createDirAll]
  exact (and_iff_right made).symm

theorem whole_createDirAll (made : (fs.createDirAll os item.dir).1 = .ok ()) :
    Whole os (fs.createDirAll os item.dir).2 item ↔ Whole os fs item := by
  rw [Whole, Whole, has_createDirAll, pathExists_createDirAll, writable_createDirAll made]

theorem added_createDirAll (made : (fs.createDirAll os item.dir).1 = .ok ()) :
    Added os (fs.createDirAll os item.dir).2 item ↔ Added os fs item := by
  rw [Added, Added, pathExists_createDirAll, writable_createDirAll made]

/-- What creating the directories of an item does to the items in them: they cannot be written if it
fails, and otherwise the directories are there and nothing else has changed. -/
theorem createDirAll_cases (os : Os S.Name) (fs : Fs S.Name) (item : Item S) :
    (∃ error fs', fs.createDirAll os item.dir = (.error error, fs') ∧
      (∀ other : Item S, Has fs' other ↔ Has fs other) ∧
      ∀ other, other.dir = item.dir → ¬ Writable os fs other) ∨
    ∃ fs', fs.createDirAll os item.dir = (.ok (), fs') ∧ There fs' item.dir ∧
      (∀ other : Item S, Has fs' other ↔ Has fs other) ∧
      ∀ other, other.dir = item.dir → fs'.pathExists os other.path = fs.pathExists os other.path ∧
        (Whole os fs' other ↔ Whole os fs other) ∧ (Added os fs' other ↔ Added os fs other) := by
  cases made : fs.createDirAll os item.dir with
  | mk result fs' =>
    have files : ∀ other : Item S, Has fs' other ↔ Has fs other := by
      intro other
      have same := has_createDirAll os fs item.dir other
      rwa [made] at same
    cases result with
    | error error =>
      refine Or.inl ⟨error, fs', rfl, files, fun other same writable => ?_⟩
      rw [Writable, same, made] at writable
      exact absurd writable.1 nofun
    | ok done =>
      have ok : (fs.createDirAll os item.dir).1 = .ok () := by rw [made]
      refine Or.inr ⟨fs', rfl, fun above proper below => ?_, files, fun other same => ?_⟩
      · have stands := Fs.get_of_createDirAll ok proper below
        rwa [made] at stands
      · rw [← same] at ok made
        have seen : (fs.createDirAll os other.dir).2.pathExists os other.path =
            fs.pathExists os other.path := pathExists_createDirAll
        have whole := whole_createDirAll ok
        have added := added_createDirAll ok
        rw [made] at seen whole added
        exact ⟨seen, whole, added⟩

/-- What writing the file of an item does in its directories, when nothing is seen at its path: it
fails, or the item has been added; and then the file is whole or not. -/
theorem persist_item (item : Item S) (there : There fs item.dir) (unseen : fs.pathExists os item.path = false) :
    ((∃ error fs', fs.persist os item.path item.bytes = (.error error, fs')) ∧ ¬ Added os fs item ∨
      fs.persist os item.path item.bytes = (.ok (), fs.set item.path (.file item.bytes)) ∧
        Added os fs item) ∧
    (Has (fs.persist os item.path item.bytes).2 item ↔ Whole os fs item) := by
  have parent : fs.isDirectory item.path.dropLast = true := by
    rw [Item.dropLast_path, Fs.isDirectory, there _ Item.dir_ne_nil (List.prefix_refl _)]
    simp
  by_cases writable : Writable os fs item
  · have opens := (writable_of_there there).mp writable
    obtain ⟨syncs, done⟩ | ⟨fails, error, failed⟩ := Fs.persist_opened opens parent
    · have added : Added os fs item := ⟨unseen, writable, syncs⟩
      refine ⟨Or.inr ⟨done, added⟩, ?_⟩
      rw [done]
      exact ⟨fun _ => Or.inr ⟨unseen, writable, Or.inl syncs⟩, fun _ => Fs.get_set_self⟩
    · refine ⟨Or.inl ⟨⟨error, _, failed⟩, fun added => fails added.2.2⟩, ?_⟩
      rw [failed, Has, Fs.get_set_self]
      simp [Whole, unseen, writable, fails]
  · have closed : ¬ Fs.Opens os fs item.path := fun opens => writable ((writable_of_there there).mpr opens)
    obtain ⟨error, failed⟩ := Fs.persist_closed item.bytes closed
    refine ⟨Or.inl ⟨⟨error, fs, failed⟩, fun added => writable added.2.1⟩, ?_⟩
    rw [failed, whole_of_not_writable writable]

theorem whole_persist (item : Item S) (there : There fs item.dir) (unseen : fs.pathExists os item.path = false) :
    Whole os (fs.persist os item.path item.bytes).2 item ↔ Whole os fs item := by
  have has := (persist_item item there unseen).2
  have there' : There (fs.persist os item.path item.bytes).2 item.dir := fun above proper below =>
    (Fs.get_persist_ne (Item.path_ne_of_isPrefix below)).trans (there above proper below)
  cases seen : (fs.persist os item.path item.bytes).2.pathExists os item.path with
  | true => rw [whole_of_seen seen, has]
  | false =>
    by_cases writable : Writable os fs item
    · -- The first attempt leaves no directory, and so the file can be opened again.
      have opens := (writable_of_there there).mp writable
      have file : (fs.persist os item.path item.bytes).2.get item.path ≠ some .directory := by
        obtain ⟨_, kept⟩ | ⟨-, -, written | ⟨_, _, -, written⟩⟩ :=
          Fs.persist_cases fs os item.path item.bytes
        · rw [kept]
          exact opens.2
        · rw [written, Fs.get_set_self]
          exact nofun
        · rw [written, Fs.get_set_self]
          exact nofun
      have writable' := (writable_of_there there').mpr ⟨opens.1, file⟩
      simp [Whole, seen, unseen, writable, writable']
    · have closed : ¬ Fs.Opens os fs item.path :=
        fun opens => writable ((writable_of_there there).mpr opens)
      obtain ⟨error, failed⟩ := Fs.persist_closed item.bytes closed
      rw [failed]

theorem whole_congr {fs' : Fs S.Name} (item : Item S) (there : There fs item.dir) (there' : There fs' item.dir)
    (same : fs'.get item.path = fs.get item.path) : Whole os fs' item ↔ Whole os fs item := by
  have seen : fs'.pathExists os item.path = fs.pathExists os item.path := by
    rw [Fs.pathExists, Fs.pathExists, same]
  rw [Whole, Whole, Has, Has, same, seen, writable_of_there there, writable_of_there there', Fs.Opens,
    Fs.Opens, same]

/-! ## Commands -/

namespace RegisterStore

variable {addr : RegisterAddress} {cmd other : S.Cmd}

/-- What an attempt to write a command does when there is space for it. -/
structure Attempted (os : Os S.Name) (before : StorageState S) (addr : RegisterAddress) (cmd : S.Cmd)
    (result : S.Result StorageLevel × StorageState S) : Prop where
  error : result.1 ≠ .error .notEnoughSpace
  has : Has result.2.fs (.cmd addr cmd) ↔ Whole os before.fs (.cmd addr cmd)
  again : Whole os result.2.fs (.cmd addr cmd) ↔ Whole os before.fs (.cmd addr cmd)
  counted : Added os before.fs (.cmd addr cmd) →
    result.2.usedSpace = (before.usedSpace.increase S S.sizeOfRegisterCmd).2
  uncounted : ¬ Added os before.fs (.cmd addr cmd) → result.2.usedSpace = before.usedSpace
  frame : ∀ path, path ≠ (Item.cmd addr cmd).path → result.2.fs.get path = before.fs.get path

theorem writeRegisterCmd_attempt (os : Os S.Name) (self : StorageState S) (cmd : S.Cmd)
    (there : There self.fs (addressToFilepath S addr)) : self.usedSpace.canAdd S.sizeOfRegisterCmd = false ∧
      writeRegisterCmd os self cmd (addressToFilepath S addr) = (.error .notEnoughSpace, self) ∨
    self.usedSpace.canAdd S.sizeOfRegisterCmd = true ∧
      Attempted os self addr cmd (writeRegisterCmd os self cmd (addressToFilepath S addr)) := by
  have path : addressToFilepath S addr ++ [.cmd (registerOperationId S cmd)] =
      (Item.cmd addr cmd).path := rfl
  have bytes : S.serialise cmd = (Item.cmd addr cmd).bytes := rfl
  simp only [writeRegisterCmd, path, bytes]
  cases space : self.usedSpace.canAdd S.sizeOfRegisterCmd with
  | false => exact Or.inl ⟨rfl, rfl⟩
  | true =>
    refine Or.inr ⟨rfl, ?_⟩
    rw [Bool.not_true, if_neg Bool.false_ne_true]
    cases seen : self.fs.pathExists os (Item.cmd addr cmd).path with
    | true =>
      rw [if_pos rfl]
      exact ⟨by simp, (whole_of_seen seen).symm, Iff.rfl,
        fun added => absurd (added.1.symm.trans seen) Bool.false_ne_true, fun _ => rfl,
        fun _ _ => rfl⟩
    | false =>
      rw [if_neg Bool.false_ne_true]
      obtain ⟨outcome, has⟩ := persist_item (.cmd addr cmd) there seen
      have again := whole_persist (.cmd addr cmd) there seen
      have frame : ∀ path, path ≠ (Item.cmd addr cmd).path → (self.fs.persist os
          (Item.cmd addr cmd).path (Item.cmd addr cmd).bytes).2.get path = self.fs.get path :=
        fun _ differs => Fs.get_persist_ne differs
      obtain ⟨⟨error, fs', failed⟩, missed⟩ | ⟨done, added⟩ := outcome
      · rw [failed] at has again frame ⊢
        exact ⟨by simp, has, again, fun added => absurd added missed, fun _ => rfl, frame⟩
      · rw [done] at has again frame ⊢
        exact ⟨by simp, has, again, fun _ => rfl, fun missed => absurd added missed, frame⟩

theorem Attempted.there {result : S.Result StorageLevel × StorageState S}
    (attempted : Attempted os self addr cmd result) (there : There self.fs (addressToFilepath S addr)) :
    There result.2.fs (addressToFilepath S addr) := by
  intro above proper below
  rw [attempted.frame above (Item.path_ne_of_isPrefix
    (show above <+: (Item.cmd addr cmd).dir from below))]
  exact there above proper below

theorem Attempted.whole (other : S.Cmd) {result : S.Result StorageLevel × StorageState S}
    (attempted : Attempted os self addr cmd result) (there : There self.fs (addressToFilepath S addr)) :
    Whole os result.2.fs (.cmd addr other) ↔ Whole os self.fs (.cmd addr other) := by
  by_cases same : (Item.cmd addr other).path = (Item.cmd addr cmd).path
  · rw [Item.eq_cmd_of_path same]
    exact attempted.again
  · exact whole_congr (.cmd addr other) there (attempted.there there) (attempted.frame _ same)

end RegisterStore

/-! ## Outcomes -/

/-- The outcome of an attempt to store an item: when it is refused for lack of space, and when the
item is there afterwards if it is not. -/
structure Outcome (result : S.Result StorageLevel × StorageState S) (item : Item S)
    (refused there : Prop) : Prop where
  refused_iff : result.1 = .error .notEnoughSpace ↔ refused
  has_iff : ¬ refused → (Has result.2.fs item ↔ there)

theorem Outcome.kept_iff {result : S.Result StorageLevel × StorageState S} {refused there : Prop}
    (outcome : Outcome result item refused there) :
    (result.1 ≠ .error .notEnoughSpace → Has result.2.fs item) ↔ refused ∨ there := by
  rw [Ne, outcome.refused_iff]
  by_cases isRefused : refused
  · simp [isRefused]
  · simp [isRefused, outcome.has_iff isRefused]

theorem Outcome.congr {result : S.Result StorageLevel × StorageState S}
    {refused refused' there there' : Prop} (outcome : Outcome result item refused there)
    (sameRefused : refused ↔ refused') (sameThere : there ↔ there') : Outcome result item refused' there' where
  refused_iff := outcome.refused_iff.trans sameRefused
  has_iff notRefused := (outcome.has_iff (mt sameRefused.mp notRefused)).trans sameThere

theorem Outcome.of_error {error : S.Error} (other : error ≠ .notEnoughSpace) :
    Outcome (.error error, self) item False (Has self.fs item) where
  refused_iff := ⟨fun same => other (Except.error.inj same), False.elim⟩
  has_iff _ := Iff.rfl

theorem ChunkStorage.store_outcome (chunk : Chunk S) : Outcome (store os self chunk) (.chunk chunk)
      (self.fs.pathExists os (Item.chunk chunk).path = false ∧
        self.usedSpace.canAdd chunk.value.length = false) (Whole os self.fs (.chunk chunk)) := by
  have path : chunkAddrToFilepath S chunk.address = (Item.chunk chunk).path := rfl
  have bytes : chunk.value = (Item.chunk chunk).bytes := rfl
  simp only [store, path, Item.dropLast_path]
  cases seen : self.fs.pathExists os (Item.chunk chunk).path with
  | true =>
    rw [if_pos rfl]
    exact ⟨by simp, fun _ => (whole_of_seen seen).symm⟩
  | false =>
    rw [if_neg Bool.false_ne_true]
    cases space : self.usedSpace.canAdd chunk.value.length with
    | false => exact ⟨⟨fun _ => ⟨rfl, rfl⟩, fun _ => rfl⟩, fun notRefused => absurd ⟨rfl, rfl⟩ notRefused⟩
    | true =>
      rw [Bool.not_true, if_neg Bool.false_ne_true]
      obtain ⟨error, fs, failed, files, closed⟩ | ⟨fs, made, there, files, same⟩ :=
        createDirAll_cases os self.fs (.chunk chunk)
      · rw [failed]
        exact ⟨by simp,
          fun _ => (files _).trans (whole_of_not_writable (closed _ rfl)).symm⟩
      · obtain ⟨unseen, whole, -⟩ := same (.chunk chunk) rfl
        obtain ⟨written, has⟩ := persist_item _ there (unseen.trans seen)
        rw [← bytes] at written has
        rw [made]
        simp only
        obtain ⟨⟨error, fs', failed⟩, -⟩ | ⟨done, -⟩ := written
        · rw [failed] at has ⊢
          exact ⟨by simp, fun _ => has.trans whole⟩
        · rw [done] at has ⊢
          exact ⟨by simp, fun _ => has.trans whole⟩

namespace RegisterStore

variable {addr : RegisterAddress} {cmd other first : S.Cmd}

def logResult (written : Option S.Error × StorageLevel × StorageState S) :
    S.Result StorageLevel × StorageState S :=
  match written with
  | (some error, _, self) => (.error error, self)
  | (none, storageLevel, self) => (.ok storageLevel, self)

theorem writeLogToDisk_outcome {log : List S.Cmd} {refused there : Prop} (nonempty : log ≠ [])
    (failed : ∀ fs, (∀ item : Item S, Has fs item ↔ Has self.fs item) →
      (∀ cmd, ¬ Writable os self.fs (.cmd addr cmd)) → (Has fs (.cmd addr cmd) ↔ there))
    (made : ∀ fs, There fs (addressToFilepath S addr) → (∀ item : Item S, Has fs item ↔ Has self.fs item) →
      (∀ cmd, (Whole os fs (.cmd addr cmd) ↔ Whole os self.fs (.cmd addr cmd)) ∧
        (Added os fs (.cmd addr cmd) ↔ Added os self.fs (.cmd addr cmd))) →
      Outcome (logResult (writeCmds os (addressToFilepath S addr) none .noChange
        ⟨fs, self.usedSpace⟩ log)) (.cmd addr cmd) refused there) :
    Outcome (writeLogToDisk os self log (addressToFilepath S addr)) (.cmd addr cmd)
      ((self.fs.createDirAll os (addressToFilepath S addr)).1 = .ok () ∧ refused) there := by
  have dir : (Item.cmd addr cmd).dir = addressToFilepath S addr := rfl
  rw [writeLogToDisk, List.isEmpty_eq_false_iff.mpr nonempty, if_neg Bool.false_ne_true, ← dir]
  obtain ⟨error, fs, stopped, files, closed⟩ | ⟨fs, done, stands, files, same⟩ :=
    createDirAll_cases os self.fs (.cmd addr cmd)
  · rw [stopped]
    exact ⟨⟨nofun, fun refused => absurd refused.1 nofun⟩,
      fun _ => failed fs files fun cmd => closed _ rfl⟩
  · rw [done]
    simp only [true_and]
    exact made fs stands files fun cmd => (same (.cmd addr cmd) rfl).2

theorem writeCmds_last (os : Os S.Name) (self : StorageState S) (cmd : S.Cmd)
    (lastErr : Option S.Error) (level : StorageLevel)
    (there : There self.fs (addressToFilepath S addr)) (soFar : lastErr ≠ some .notEnoughSpace) :
    Outcome (logResult (writeCmds os (addressToFilepath S addr) lastErr level self [cmd]))
      (.cmd addr cmd) (self.usedSpace.canAdd S.sizeOfRegisterCmd = false) (Whole os self.fs (.cmd addr cmd)) := by
  simp only [writeCmds]
  obtain ⟨full, refused⟩ | ⟨space, attempted⟩ :=
    writeRegisterCmd_attempt os self cmd there
  · rw [refused]
    exact ⟨⟨fun _ => full, fun _ => rfl⟩, fun notFull => absurd full notFull⟩
  · have notFull : self.usedSpace.canAdd S.sizeOfRegisterCmd ≠ false := by
      rw [space]
      exact Bool.false_ne_true.symm
    have error := attempted.error
    have has := attempted.has
    cases written : writeRegisterCmd os self cmd (addressToFilepath S addr) with
    | mk result after =>
      rw [written] at error has
      cases result with
      | error one =>
        exact ⟨⟨fun same => absurd same error, fun full => absurd full notFull⟩, fun _ => has⟩
      | ok level =>
        cases lastErr with
        | none => exact ⟨by simp [logResult, notFull], fun _ => has⟩
        | some last =>
          refine ⟨⟨fun same => absurd ?_ soFar, fun full => absurd full notFull⟩, fun _ => has⟩
          exact congrArg some (Except.error.inj same)

theorem writeLogToDisk_one : Outcome (writeLogToDisk os self [cmd] (addressToFilepath S addr)) (.cmd addr cmd)
      ((self.fs.createDirAll os (addressToFilepath S addr)).1 = .ok () ∧
        self.usedSpace.canAdd S.sizeOfRegisterCmd = false) (Whole os self.fs (.cmd addr cmd)) := by
  refine writeLogToDisk_outcome (List.cons_ne_nil _ _)
    (fun fs files closed => (files _).trans (whole_of_not_writable (closed cmd)).symm)
    fun fs there files same => ?_
  exact (writeCmds_last os ⟨fs, self.usedSpace⟩ cmd none .noChange there nofun).congr Iff.rfl
    (same cmd).1

theorem writeLogToDisk_other (differs : cmd ≠ first) :
    Outcome (writeLogToDisk os self [first] (addressToFilepath S addr)) (.cmd addr cmd)
      ((self.fs.createDirAll os (addressToFilepath S addr)).1 = .ok () ∧
        self.usedSpace.canAdd S.sizeOfRegisterCmd = false) (Has self.fs (.cmd addr cmd)) := by
  refine writeLogToDisk_outcome (List.cons_ne_nil _ _) (fun fs files _ => files _)
    fun fs there files same => ?_
  have outcome := writeCmds_last os ⟨fs, self.usedSpace⟩ first none .noChange there nofun
  refine ⟨outcome.refused_iff, fun notFull => (Iff.trans ?_ (files _))⟩
  have apart : (Item.cmd addr cmd).path ≠ (Item.cmd addr first).path :=
    fun same => differs (Item.cmd.inj (Item.eq_cmd_of_path same)).2
  simp only [writeCmds]
  obtain ⟨full, -⟩ | ⟨-, attempted⟩ :=
    writeRegisterCmd_attempt os ⟨fs, self.usedSpace⟩ first there
  · exact absurd full notFull
  · have frame := attempted.frame _ apart
    cases written : writeRegisterCmd os ⟨fs, self.usedSpace⟩ first (addressToFilepath S addr) with
    | mk result after =>
      rw [written] at frame
      cases result <;> simp only [logResult, Has, frame]

theorem writeLogToDisk_two : Outcome (writeLogToDisk os self [first, cmd] (addressToFilepath S addr)) (.cmd addr cmd)
      ((self.fs.createDirAll os (addressToFilepath S addr)).1 = .ok () ∧
        (self.usedSpace.canAdd S.sizeOfRegisterCmd = false ∨ Added os self.fs (.cmd addr first) ∧
          (self.usedSpace.increase S S.sizeOfRegisterCmd).2.canAdd S.sizeOfRegisterCmd = false))
      (Whole os self.fs (.cmd addr cmd)) := by
  refine writeLogToDisk_outcome (List.cons_ne_nil _ _)
    (fun fs files closed => (files _).trans (whole_of_not_writable (closed cmd)).symm)
    fun fs there files same => ?_
  refine Outcome.congr ?_ (Iff.rfl.or ((same first).2.and Iff.rfl)) (same cmd).1
  obtain ⟨full, refused⟩ | ⟨space, attempted⟩ :=
    writeRegisterCmd_attempt os ⟨fs, self.usedSpace⟩ first there
  · -- The second command is refused, too.
    obtain ⟨-, again⟩ | ⟨space, -⟩ :=
      writeRegisterCmd_attempt os ⟨fs, self.usedSpace⟩ cmd there
    · simp only [writeCmds, refused, again]
      exact ⟨⟨fun _ => Or.inl full, fun _ => rfl⟩, fun notFull => absurd (Or.inl full) notFull⟩
    · exact absurd (full.symm.trans space) Bool.false_ne_true
  · have whole := attempted.whole cmd there
    have stands := attempted.there there
    have counter : ∀ after : StorageState S, after.usedSpace =
          (writeRegisterCmd os ⟨fs, self.usedSpace⟩ first (addressToFilepath S addr)).2.usedSpace →
        (after.usedSpace.canAdd S.sizeOfRegisterCmd = false ↔
          self.usedSpace.canAdd S.sizeOfRegisterCmd = false ∨ Added os fs (.cmd addr first) ∧
            (self.usedSpace.increase S S.sizeOfRegisterCmd).2.canAdd S.sizeOfRegisterCmd = false) := by
      intro after same
      have space : self.usedSpace.canAdd S.sizeOfRegisterCmd = true := space
      by_cases added : Added os fs (.cmd addr first)
      · rw [same, attempted.counted added]
        simp [space, added]
      · rw [same, attempted.uncounted added]
        simp [space, added]
    rw [writeCmds]
    have error := attempted.error
    cases written : writeRegisterCmd os ⟨fs, self.usedSpace⟩ first (addressToFilepath S addr) with
    | mk result after =>
      rw [written] at whole stands counter error
      cases result with
      | ok level =>
        exact (writeCmds_last os after cmd none level stands (Option.some_ne_none _).symm).congr
          (counter after rfl) whole
      | error one =>
        have soFar : some one ≠ some .notEnoughSpace := fun same => error (by rw [Option.some.inj same])
        exact (writeCmds_last os after cmd _ .noChange stands soFar).congr (counter after rfl) whole


end RegisterStore

/-! ## Data -/

namespace RegisterStorage

variable {cmd : S.Cmd}

theorem write_accepted (loadable : Loadable (storedLog os self.fs cmd.dstAddress))
    (accepts : Accepts (storedLog os self.fs cmd.dstAddress) cmd) :
    Outcome (write os self cmd) (.cmd cmd.dstAddress cmd)
      ((self.fs.createDirAll os (RegisterStore.addressToFilepath S cmd.dstAddress)).1 = .ok () ∧
        self.usedSpace.canAdd S.sizeOfRegisterCmd = false) (Whole os self.fs (.cmd cmd.dstAddress cmd)) := by
  obtain ⟨stored, loaded⟩ :=
    (exists_loadLog_iff (RegisterStore.addressToFilepath S cmd.dstAddress)).mpr loadable
  obtain ⟨stored', done⟩ := (exists_tryToApply_iff loaded).mpr accepts
  simp only [write, tryLoadStoredRegister_eq, loaded, done]
  rw [opLogPath_tryToApply done, opLogPath_loadLog loaded]
  exact RegisterStore.writeLogToDisk_one

theorem write_rejected (rejected : ¬ (Loadable (storedLog os self.fs cmd.dstAddress) ∧
      Accepts (storedLog os self.fs cmd.dstAddress) cmd)) :
    Outcome (write os self cmd) (.cmd cmd.dstAddress cmd) False (Has self.fs (.cmd cmd.dstAddress cmd)) := by
  simp only [write, tryLoadStoredRegister_eq]
  split
  · rename_i failed
    exact .of_error (loadLog_ne failed)
  · rename_i loaded
    split
    · rename_i failed
      exact .of_error (tryToApply_ne failed)
    · rename_i done
      exact absurd ⟨(exists_loadLog_iff _).mp ⟨_, loaded⟩,
        (exists_tryToApply_iff loaded).mp ⟨_, done⟩⟩ rejected

theorem Pass.pair {log accepted after : List S.Cmd} {first : S.Cmd} (pass : Pass log [first, cmd] accepted after) :
    (Accepts log first ∧ Accepts (pushCmd log first) cmd ∧ accepted = [first, cmd]) ∨
      (Accepts log first ∧ ¬ Accepts (pushCmd log first) cmd ∧ accepted = [first]) ∨
      (¬ Accepts log first ∧ Accepts log cmd ∧ accepted = [cmd]) ∨
      ¬ Accepts log first ∧ ¬ Accepts log cmd ∧ accepted = [] := by
  cases pass with
  | accept accepts pass =>
    cases pass with
    | accept next pass => cases pass; exact Or.inl ⟨accepts, next, rfl⟩
    | discard next pass => cases pass; exact Or.inr (Or.inl ⟨accepts, next, rfl⟩)
  | discard discards pass =>
    cases pass with
    | accept next pass => cases pass; exact Or.inr (Or.inr (Or.inl ⟨discards, next, rfl⟩))
    | discard next pass => cases pass; exact Or.inr (Or.inr (Or.inr ⟨discards, next, rfl⟩))

end RegisterStorage

namespace DataStorage

section Outcomes

variable (os : Os S.Name) (storage : StorageState S) (sectionPk : S.UserKey) (nodeKeypair : S.Keypair)
  (sectionSig : SectionSig S.toKeyScheme)

def itemOf : ReplicatedData S → Option (Item S)
  | .chunk chunk => some (.chunk chunk)
  | .registerWrite cmd => some (.cmd cmd.dstAddress cmd)
  | .registerLog _ => none
  | .spentbookWrite cmd => some (.cmd cmd.dstAddress cmd)
  | .spentbookLog _ => none

def spentbookCreation (cmd : S.Cmd) : S.Cmd :=
  RegisterStorage.createRegWPolicy cmd.dstAddress.name spentbookTypeTag
    (RegisterStorage.spentbookPolicy sectionPk) nodeKeypair sectionSig

/-- The commands that can be read in the directory of a register accept a spentbook command, after
the new creation if they accept that. -/
def SpendAccepted (log : List S.Cmd) (cmd : S.Cmd) : Prop :=
  RegisterStorage.Accepts log (spentbookCreation sectionPk nodeKeypair sectionSig cmd) ∧
      RegisterStorage.Accepts
        (RegisterStorage.pushCmd log (spentbookCreation sectionPk nodeKeypair sectionSig cmd)) cmd ∨
    ¬ RegisterStorage.Accepts log (spentbookCreation sectionPk nodeKeypair sectionSig cmd) ∧
      RegisterStorage.Accepts log cmd

/-- Data is accepted: it is a chunk, or the commands that can be read in the directory of its register
accept it. -/
def Accepted : ReplicatedData S → Prop
  | .chunk _ => True
  | .registerWrite cmd =>
    RegisterStorage.Loadable (RegisterStorage.storedLog os storage.fs cmd.dstAddress) ∧
      RegisterStorage.Accepts (RegisterStorage.storedLog os storage.fs cmd.dstAddress) cmd
  | .registerLog _ => False
  | .spentbookWrite cmd =>
    RegisterStorage.Loadable (RegisterStorage.storedLog os storage.fs cmd.dstAddress) ∧
      SpendAccepted sectionPk nodeKeypair sectionSig
        (RegisterStorage.storedLog os storage.fs cmd.dstAddress) cmd
  | .spentbookLog _ => False

/-- The directories for a command can be created and there is no space for it. -/
def Full (cmd : S.Cmd) : Prop :=
  (storage.fs.createDirAll os (RegisterStore.addressToFilepath S cmd.dstAddress)).1 = .ok () ∧
    storage.usedSpace.canAdd S.sizeOfRegisterCmd = false

/-- There is space for the new creation of a spentbook, but not for the command after it. -/
def FullAfter (cmd : S.Cmd) : Prop :=
  (storage.fs.createDirAll os (RegisterStore.addressToFilepath S cmd.dstAddress)).1 = .ok () ∧
    Added os storage.fs
      (.cmd cmd.dstAddress (spentbookCreation sectionPk nodeKeypair sectionSig cmd)) ∧
    (storage.usedSpace.increase S S.sizeOfRegisterCmd).2.canAdd S.sizeOfRegisterCmd = false

def Refused : ReplicatedData S → Prop
  | .chunk chunk =>
    storage.fs.pathExists os (Item.chunk chunk).path = false ∧
      storage.usedSpace.canAdd chunk.value.length = false
  | .registerWrite cmd =>
    Accepted os storage sectionPk nodeKeypair sectionSig (.registerWrite cmd) ∧ Full os storage cmd
  | .registerLog _ => False
  | .spentbookWrite cmd =>
    RegisterStorage.Loadable (RegisterStorage.storedLog os storage.fs cmd.dstAddress) ∧
      (RegisterStorage.Accepts (RegisterStorage.storedLog os storage.fs cmd.dstAddress)
          (spentbookCreation sectionPk nodeKeypair sectionSig cmd) ∧
        (Full os storage cmd ∨ Accepted os storage sectionPk nodeKeypair sectionSig (.spentbookWrite cmd) ∧
          FullAfter os storage sectionPk nodeKeypair sectionSig cmd) ∨
      Accepted os storage sectionPk nodeKeypair sectionSig (.spentbookWrite cmd) ∧ Full os storage cmd)
  | .spentbookLog _ => False

/-- Data is kept: it is accepted and its file is whole after the attempt, or it was there. -/
def Kept (data : ReplicatedData S) (item : Item S) : Prop :=
  Accepted os storage sectionPk nodeKeypair sectionSig data ∧ Whole os storage.fs item ∨
    ¬ Accepted os storage sectionPk nodeKeypair sectionSig data ∧ Has storage.fs item

end Outcomes

variable {sectionPk : S.UserKey} {nodeKeypair : S.Keypair} {sectionSig : SectionSig S.toKeyScheme}
  {cmd : S.Cmd} {data : ReplicatedData S}

theorem accepts_pushCmd_self {log : List S.Cmd} {create : S.Cmd} (isCreate : create.create?.isSome)
    (same : cmd = create) : RegisterStorage.Accepts (RegisterStorage.pushCmd log create) cmd := by
  subst same
  have first : (firstCreate (RegisterStorage.pushCmd log cmd)).isSome := by
    unfold RegisterStorage.pushCmd
    split
    · rename_i both
      exact (Bool.and_eq_true_iff.mp both).1
    · rw [RegisterStorage.firstCreate_append, Option.isSome_or, isCreate, Bool.or_true]
  obtain ⟨op, isOp⟩ := Option.isSome_iff_exists.mp first
  cases cmd with
  | edit edit => cases isCreate
  | create signed sectionSig => simp only [RegisterStorage.Accepts, isOp]

theorem spentbookWrite_outcome :
    Outcome (RegisterStorage.writeSpentbookRegister os self cmd sectionPk nodeKeypair sectionSig)
      (.cmd cmd.dstAddress cmd) (Refused os self sectionPk nodeKeypair sectionSig (.spentbookWrite cmd))
      (Kept os self sectionPk nodeKeypair sectionSig (.spentbookWrite cmd) (.cmd cmd.dstAddress cmd)) := by
  have log : RegisterStorage.spentbookLog cmd sectionPk nodeKeypair sectionSig =
      ⟨cmd.dstAddress, [spentbookCreation sectionPk nodeKeypair sectionSig cmd, cmd]⟩ := rfl
  simp only [RegisterStorage.writeSpentbookRegister, RegisterStorage.update, log,
    RegisterStorage.tryLoadStoredRegister_eq]
  split
  · -- What can be read cannot be loaded.
    rename_i error failed
    have unloadable : ¬ RegisterStorage.Loadable
        (RegisterStorage.storedLog os self.fs cmd.dstAddress) := by
      intro loadable
      obtain ⟨_, loaded⟩ := (RegisterStorage.exists_loadLog_iff _).mpr loadable
      rw [failed] at loaded
      cases loaded
    refine (Outcome.of_error (RegisterStorage.loadLog_ne failed)).congr ?_ ?_
    · simp [Refused, unloadable]
    · simp [Kept, Accepted, unloadable]
  · rename_i stored loaded
    have loadable := (RegisterStorage.exists_loadLog_iff _).mp ⟨stored, loaded⟩
    rw [RegisterStorage.opLogPath_loadLog loaded]
    obtain ⟨_, pass⟩ := RegisterStorage.exists_pass loaded
      [spentbookCreation sectionPk nodeKeypair sectionSig cmd, cmd]
    obtain ⟨first, next, same⟩ | ⟨first, next, same⟩ | ⟨first, next, same⟩ | ⟨first, next, same⟩ :=
      pass.pair
    · rw [same]
      refine RegisterStore.writeLogToDisk_two.congr ?_ ?_
      · simp only [Refused, Accepted, SpendAccepted, Full, FullAfter, loadable, first, next]
        tauto
      · simp [Kept, Accepted, SpendAccepted, loadable, first, next]
    · rw [same]
      have differs : cmd ≠ spentbookCreation sectionPk nodeKeypair sectionSig cmd :=
        fun isCreation => next (accepts_pushCmd_self rfl isCreation)
      refine (RegisterStore.writeLogToDisk_other differs).congr ?_ ?_
      · simp [Refused, Accepted, SpendAccepted, Full, loadable, first, next]
      · simp [Kept, Accepted, SpendAccepted, loadable, first, next]
    · rw [same]
      refine RegisterStore.writeLogToDisk_one.congr ?_ ?_
      · simp [Refused, Accepted, SpendAccepted, Full, loadable, first, next]
      · simp [Kept, Accepted, SpendAccepted, loadable, first, next]
    · rw [same]
      refine ⟨⟨nofun, fun refused => ?_⟩, fun _ => ?_⟩
      · simp [Refused, Accepted, SpendAccepted, loadable, first, next] at refused
      · simp [Kept, Accepted, SpendAccepted, loadable, first, next, RegisterStore.writeLogToDisk]

theorem store_outcome (isItem : itemOf data = some item) :
    Outcome (store os self data sectionPk nodeKeypair sectionSig) item
      (Refused os self sectionPk nodeKeypair sectionSig data)
      (Kept os self sectionPk nodeKeypair sectionSig data item) := by
  cases data with
  | chunk chunk =>
    cases isItem
    exact (ChunkStorage.store_outcome chunk).congr Iff.rfl (by simp [Kept, Accepted])
  | registerLog log => cases isItem
  | spentbookLog log => cases isItem
  | spentbookWrite cmd =>
    cases isItem
    exact spentbookWrite_outcome
  | registerWrite cmd =>
    cases isItem
    by_cases accepted : Accepted os self sectionPk nodeKeypair sectionSig (.registerWrite cmd)
    · refine (RegisterStorage.write_accepted accepted.1 accepted.2).congr ?_ ?_
      · simp [Refused, Full, accepted]
      · simp [Kept, accepted]
    · refine (RegisterStorage.write_rejected accepted).congr ?_ ?_
      · simp [Refused, accepted]
      · simp [Kept, accepted]

end DataStorage

end SafeNetwork

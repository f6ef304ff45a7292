import SafeNetwork.Api.FilePaths
import SafeNetwork.Library.OrderedMap
import SafeNetwork.Library.Runs
import SafeNetwork.Storage.RegisterLog

/-!
# Syncing files containers

`files_map_sync` of `sn_api/src/app/files/mod.rs`: a new files map is built from the current one and a listing
of local files. Every listed file is added, takes the place of the entry with its name, or leaves that entry as
it is; directories above it are kept. What is left of the current map is kept as well, or removed and reported.
A file that cannot be uploaded to take the place of an entry makes that entry vanish.
-/

namespace SafeNetwork

open Std FilesMap FilePaths

/-- The flags of `files_map_sync`. -/
structure SyncOptions where
  delete : Bool
  force : Bool
  compareFileContent : Bool
  followLinks : Bool

/-- The variables of `files_map_sync`. -/
structure SyncState where
  currentFilesMap : FilesMap
  updatedFilesMap : FilesMap
  processedFiles : ProcessedFiles
  successCount : Nat

section Model

variable (L : LocalFiles) (options : SyncOptions)

def isFileItemModified (localFilename : Str) (fileItem : FileInfo) : ApiResult Bool :=
  fileItem.index predicateType >>= fun fileType =>
    if FileMeta.filetypeIsFile fileType then
      match L.dryUpload localFilename with
      | .ok localXorurl => (fileItem.index predicateLink).map fun link => link != localXorurl
      | .error _ => .ok false
    else .ok false

def ancestors (name : Str) : List Str :=
  (splitPath name).inits.tail.map fun trail => if trail.length > 1 then joinPath trail else "/".toList

namespace SyncState

def keepAncestor (name : Str) (state : SyncState) (ancestor : Str) : SyncState :=
  if ancestor ≠ name then
    match state.currentFilesMap[ancestor]? with
    | some fi => { state with
        updatedFilesMap := state.updatedFilesMap.insert ancestor fi
        currentFilesMap := state.currentFilesMap.erase ancestor }
    | none => state
  else state

def keepAncestors (state : SyncState) (name : Str) : SyncState :=
  (ancestors name).foldl (keepAncestor name) state

/-- An entry is made from a local file: whether it was made, and what follows. -/
def addOrUpdate (state : SyncState) (localFileName name : Str) (nameExists : Bool) :
    ApiResult (Bool × SyncState) :=
  ((L.fromPath localFileName options.followLinks).mapError Halt.err).map fun fileMeta =>
    let (added, updatedFilesMap, processedFiles) := addOrUpdateFileItem L localFileName name localFileName fileMeta
      none nameExists state.updatedFilesMap state.processedFiles
    (added, { state with
      updatedFilesMap, processedFiles, successCount := if added then state.successCount + 1 else state.successCount })

/-- The entry with the name of a local file is kept, and reported unless contents are compared. -/
def copyFileItem (state : SyncState) (localFileName name : Str) (fileItem : FileInfo) (isModified : Bool) :
    SyncState :=
  { state with
    updatedFilesMap := state.updatedFilesMap.insert name fileItem
    processedFiles :=
      if !options.force && !options.compareFileContent then
        state.processedFiles.insert (pathBuf localFileName)
          (.failed (if isModified then ApiError.fileNameConflict name else .fileAlreadyExists name).display)
      else state.processedFiles }

def syncNew (state : SyncState) (localFileName name : Str) : ApiResult SyncState :=
  (state.addOrUpdate L options localFileName name false).map fun (added, state) =>
    if added then state.keepAncestors name else state

def syncExisting (state : SyncState) (localFileName name : Str) (fileItem : FileInfo) : ApiResult SyncState :=
  isFileItemModified L localFileName fileItem >>= fun isModified =>
    (if options.force || (options.compareFileContent && isModified) then
      (state.addOrUpdate L options localFileName name true).map Prod.snd
    else .ok (state.copyFileItem options localFileName name fileItem isModified)).map fun state =>
    keepAncestors { state with currentFilesMap := state.currentFilesMap.erase name } name

/-- The body of the loop of `files_map_sync`. -/
def syncFile (location : Str) (dstPath : Option Str) (state : SyncState) (localFileName : Str) :
    ApiResult SyncState :=
  let name := normalisedFileName location dstPath localFileName
  match state.currentFilesMap[name]? with
  | none => state.syncNew L options localFileName name
  | some fileItem => state.syncExisting L options localFileName name fileItem

def finishEntry (state : SyncState) (entry : Str × FileInfo) : SyncState :=
  if !options.delete then { state with updatedFilesMap := state.updatedFilesMap.insert entry.1 entry.2 }
  else { state with
    processedFiles := state.processedFiles.insert (pathBuf entry.1) (.removed (entry.2[predicateLink]?.getD []))
    successCount := state.successCount + 1 }

/-- The loop of `files_map_sync` over the entries that are left. -/
def finish (state : SyncState) : SyncState := state.currentFilesMap.toList.foldl (finishEntry options) state

def start (currentFilesMap : FilesMap) : SyncState := ⟨currentFilesMap, ∅, ∅, 0⟩

end SyncState

def listedFiles (newContent : List (Str × FilesMapChange)) : List Str :=
  (newContent.filter fun entry => entry.2.isSuccess).map Prod.fst

/-- `files_map_sync` — the report, the map and the number of changes. -/
def filesMapSync (currentFilesMap : FilesMap) (location : Str) (newContent : List (Str × FilesMapChange))
    (dstPath : Option Str) : ApiResult (ProcessedFiles × FilesMap × Nat) :=
  ((listedFiles newContent).foldlM (SyncState.syncFile L options location dstPath)
    (.start currentFilesMap)).map fun state =>
      let state := state.finish options
      (state.processedFiles, state.updatedFilesMap, state.successCount)

end Model

/-! ## What one file does -/

def Makes (L : LocalFiles) (options : SyncOptions) (file : Str) (item : FileInfo) : Prop :=
  ∃ fileMeta, L.fromPath file options.followLinks = .ok fileMeta ∧ genNewFileItem L file fileMeta none = .ok item

def Fails (L : LocalFiles) (options : SyncOptions) (file : Str) : Prop :=
  ∃ fileMeta err, L.fromPath file options.followLinks = .ok fileMeta ∧
    genNewFileItem L file fileMeta none = .error err

/-- An entry is to be replaced by a local file, and none can be made from it. -/
def FailsToReplace (L : LocalFiles) (options : SyncOptions) (item : FileInfo) (file : Str) : Prop :=
  (options.force ∨ options.compareFileContent ∧ isFileItemModified L file item = .ok true) ∧ Fails L options file

theorem Makes.not_fails {L : LocalFiles} {options : SyncOptions} {file : Str} {item : FileInfo}
    (makes : Makes L options file item) : ¬ Fails L options file := by
  obtain ⟨fileMeta, read, made⟩ := makes
  rintro ⟨other, err, readOther, failed⟩
  rw [read] at readOther
  obtain rfl := Except.ok.inj readOther
  rw [made] at failed
  cases failed

namespace SyncState

variable {L : LocalFiles} {options : SyncOptions} {state state' state'' : SyncState} {file name key : Str} {map : FilesMap}
  {item : FileInfo} {current before : Option FileInfo}

/-- What becomes of an entry that no file has the name of: nothing, or it is moved to the new map. -/
def Carried (state state' : SyncState) (key : Str) : Prop :=
  (state'.currentFilesMap[key]? = state.currentFilesMap[key]? ∧
    state'.updatedFilesMap[key]? = state.updatedFilesMap[key]?) ∨
  ∃ item, state.currentFilesMap[key]? = some item ∧ state'.currentFilesMap[key]? = none ∧
    state'.updatedFilesMap[key]? = some item

theorem Carried.trans (first : Carried state state' key) (second : Carried state' state'' key) :
    Carried state state'' key := by
  rcases first with ⟨current, updated⟩ | ⟨item, there, moved, here⟩
  · rcases second with ⟨current', updated'⟩ | ⟨item, there, moved, here⟩
    · exact .inl ⟨current'.trans current, updated'.trans updated⟩
    · exact .inr ⟨item, current ▸ there, moved, here⟩
  · rcases second with ⟨current', updated'⟩ | ⟨other, there', _, _⟩
    · exact .inr ⟨item, there, current'.trans moved, updated'.trans here⟩
    · rw [moved] at there'
      cases there'

theorem Carried.of_eq (current : state'.currentFilesMap[key]? = state.currentFilesMap[key]?)
    (updated : state'.updatedFilesMap[key]? = state.updatedFilesMap[key]?) : Carried state state' key :=
  .inl ⟨current, updated⟩

/-- Keeping what is above a name moves entries, but not the one with the name, and counts nothing. -/
structure KeepsAbove (name : Str) (state state' : SyncState) : Prop where
  carried : ∀ key, Carried state state' key
  current : state'.currentFilesMap[name]? = state.currentFilesMap[name]?
  updated : state'.updatedFilesMap[name]? = state.updatedFilesMap[name]?
  count : state'.successCount = state.successCount

theorem KeepsAbove.refl (name : Str) (state : SyncState) : KeepsAbove name state state :=
  ⟨fun _ => .of_eq rfl rfl, rfl, rfl, rfl⟩

theorem KeepsAbove.trans (first : KeepsAbove name state state') (second : KeepsAbove name state' state'') :
    KeepsAbove name state state'' where
  carried key := (first.carried key).trans (second.carried key)
  current := second.current.trans first.current
  updated := second.updated.trans first.updated
  count := second.count.trans first.count

theorem getElem?_insert_of_ne (other : key ≠ name) : (map.insert name item)[key]? = map[key]? := by
  rw [ExtTreeMap.getElem?_insert, if_neg (mt Std.compare_eq_iff_eq.mp other.symm)]

theorem getElem?_erase_of_ne (other : key ≠ name) : (map.erase name)[key]? = map[key]? := by
  rw [ExtTreeMap.getElem?_erase, if_neg (mt Std.compare_eq_iff_eq.mp other.symm)]

theorem keepsAbove_keepAncestor (name : Str) (state : SyncState) (ancestor : Str) :
    KeepsAbove name state (state.keepAncestor name ancestor) := by
  rw [keepAncestor]
  split_ifs with other
  · cases there : state.currentFilesMap[ancestor]? with
    | none => exact .refl name state
    | some item =>
      refine ⟨fun key => ?_, getElem?_erase_of_ne other.symm, getElem?_insert_of_ne other.symm, rfl⟩
      by_cases same : key = ancestor
      · obtain rfl := same
        exact .inr ⟨item, there, ExtTreeMap.getElem?_erase_self, ExtTreeMap.getElem?_insert_self⟩
      · exact .of_eq (getElem?_erase_of_ne same) (getElem?_insert_of_ne same)
  · exact .refl name state

theorem keepsAbove_keepAncestors (state : SyncState) (name : Str) :
    KeepsAbove name state (state.keepAncestors name) := by
  refine Runs.run_induction (motive := KeepsAbove name state) (.refl name state) fun state' kept ancestor _ => ?_
  exact kept.trans (keepsAbove_keepAncestor name state' ancestor)

/-- Making an entry from a local file leaves the current map, and either puts the entry and counts it, or does
neither. -/
theorem addOrUpdate_eq_ok {nameExists added : Bool}
    (done : state.addOrUpdate L options file name nameExists = .ok (added, state')) :
    state'.currentFilesMap = state.currentFilesMap ∧
      ((added = true ∧ ∃ item, Makes L options file item ∧
          state'.updatedFilesMap = state.updatedFilesMap.insert name item ∧
          state'.successCount = state.successCount + 1) ∨
        (added = false ∧ Fails L options file ∧ state'.updatedFilesMap = state.updatedFilesMap ∧
          state'.successCount = state.successCount)) := by
  rw [addOrUpdate] at done
  cases read : L.fromPath file options.followLinks with
  | error err => simp [read, Except.mapError, Except.map] at done
  | ok fileMeta =>
    cases made : genNewFileItem L file fileMeta none with
    | error err =>
      simp only [read, Except.mapError, Except.map, addOrUpdateFileItem, made, Except.ok.injEq,
        Prod.mk.injEq] at done
      obtain ⟨rfl, rfl⟩ := done
      exact ⟨rfl, .inr ⟨rfl, ⟨fileMeta, err, read, made⟩, rfl, rfl⟩⟩
    | ok item =>
      simp only [read, Except.mapError, Except.map, addOrUpdateFileItem, made, Except.ok.injEq,
        Prod.mk.injEq] at done
      obtain ⟨rfl, rfl⟩ := done
      exact ⟨rfl, .inl ⟨rfl, item, ⟨fileMeta, read, made⟩, rfl, rfl⟩⟩

/-- What a local file does to the entry with its name: the entry that was in the current map, those that the new
map has before and after, and the number of changes. -/
inductive Fate (L : LocalFiles) (options : SyncOptions) (file : Str) :
    Option FileInfo → Option FileInfo → Option FileInfo → Nat → Prop where
  | added {before : Option FileInfo} {item : FileInfo} (made : Makes L options file item) :
    Fate L options file none before (some item) 1
  | notAdded {before : Option FileInfo} (fails : Fails L options file) : Fate L options file none before before 0
  | replaced {before : Option FileInfo} {item new : FileInfo} (made : Makes L options file new) :
    Fate L options file (some item) before (some new) 1
  | notReplaced {before : Option FileInfo} {item : FileInfo} (fails : FailsToReplace L options item file) :
    Fate L options file (some item) before before 0
  | copied {before : Option FileInfo} {item : FileInfo} : Fate L options file (some item) before (some item) 0

structure Synced (L : LocalFiles) (options : SyncOptions) (file name : Str) (state state' : SyncState) : Prop where
  others : ∀ key, key ≠ name → Carried state state' key
  current : state'.currentFilesMap[name]? = none
  fate : ∃ gain, state'.successCount = state.successCount + gain ∧
    Fate L options file state.currentFilesMap[name]? state.updatedFilesMap[name]? state'.updatedFilesMap[name]? gain

theorem synced_of_syncNew (absent : state.currentFilesMap[name]? = none)
    (done : state.syncNew L options file name = .ok state') : Synced L options file name state state' := by
  rw [syncNew] at done
  cases tried : state.addOrUpdate L options file name false with
  | error halt => simp [tried, Except.map] at done
  | ok result =>
    obtain ⟨added, next⟩ := result
    rw [tried] at done
    have same : (if added then next.keepAncestors name else next) = state' := Except.ok.inj done
    obtain ⟨current, ⟨rfl, item, made, updated, count⟩ | ⟨rfl, fails, updated, count⟩⟩ := addOrUpdate_eq_ok tried
    · rw [if_pos rfl] at same
      obtain rfl := same
      have above := keepsAbove_keepAncestors next name
      refine ⟨fun key other => ?_, ?_, 1, above.count.trans count, ?_⟩
      · refine Carried.trans ?_ (above.carried key)
        exact .of_eq (by rw [current]) (by rw [updated, getElem?_insert_of_ne other])
      · rw [above.current, current, absent]
      · rw [above.updated, updated, ExtTreeMap.getElem?_insert_self, absent]
        exact .added made
    · rw [if_neg Bool.false_ne_true] at same
      obtain rfl := same
      refine ⟨fun key _ => .of_eq (by rw [current]) (by rw [updated]), by rw [current, absent], 0, count, ?_⟩
      rw [updated, absent]
      exact .notAdded fails

theorem synced_of_fate {middle : SyncState} (gain : Nat) (current : middle.currentFilesMap = state.currentFilesMap)
    (updated : ∀ key, key ≠ name → middle.updatedFilesMap[key]? = state.updatedFilesMap[key]?)
    (count : middle.successCount = state.successCount + gain)
    (fate : Fate L options file state.currentFilesMap[name]? state.updatedFilesMap[name]?
      middle.updatedFilesMap[name]? gain) : Synced L options file name state
      (keepAncestors { middle with currentFilesMap := middle.currentFilesMap.erase name } name) := by
  have above := keepsAbove_keepAncestors { middle with currentFilesMap := middle.currentFilesMap.erase name } name
  refine ⟨fun key other => ?_, ?_, gain, above.count.trans count, ?_⟩
  · refine Carried.trans ?_ (above.carried key)
    exact .of_eq (by rw [getElem?_erase_of_ne other, current]) (updated key other)
  · rw [above.current, ExtTreeMap.getElem?_erase_self]
  · rw [above.updated]
    exact fate

theorem synced_of_syncExisting (present : state.currentFilesMap[name]? = some item)
    (done : state.syncExisting L options file name item = .ok state') : Synced L options file name state state' := by
  rw [syncExisting, bind_eq_ok] at done
  obtain ⟨isModified, compared, done⟩ := done
  split_ifs at done with due
  · cases tried : state.addOrUpdate L options file name true with
    | error halt => simp [tried, Except.map] at done
    | ok result =>
      obtain ⟨added, middle⟩ := result
      rw [tried] at done
      obtain rfl := Except.ok.inj done
      obtain ⟨current, ⟨_, new, made, updated, count⟩ | ⟨_, fails, updated, count⟩⟩ := addOrUpdate_eq_ok tried
      · refine synced_of_fate 1 current (fun key other => ?_) count ?_
        · rw [updated, getElem?_insert_of_ne other]
        · rw [updated, ExtTreeMap.getElem?_insert_self, present]
          exact .replaced made
      · refine synced_of_fate 0 current (fun key _ => by rw [updated]) count ?_
        rw [updated, present]
        refine .notReplaced ⟨?_, fails⟩
        rw [compared, Except.ok.injEq]
        simpa using due
  · obtain rfl := Except.ok.inj done
    refine synced_of_fate 0 rfl (fun key other => getElem?_insert_of_ne other) rfl ?_
    rw [present, copyFileItem, ExtTreeMap.getElem?_insert_self]
    exact .copied

theorem synced_of_syncFile {location : Str} {dstPath : Option Str}
    (done : state.syncFile L options location dstPath file = .ok state') :
    Synced L options file (normalisedFileName location dstPath file) state state' := by
  rw [syncFile] at done
  cases found : state.currentFilesMap[normalisedFileName location dstPath file]? with
  | none =>
    rw [found] at done
    exact synced_of_syncNew found done
  | some item =>
    rw [found] at done
    exact synced_of_syncExisting found done

/-! ## What a run does -/

def Unfailing (L : LocalFiles) (options : SyncOptions) (original : FilesMap) (location : Str) (dstPath : Option Str)
    (files : List Str) (key : Str) : Prop :=
  ∀ file ∈ files, normalisedFileName location dstPath file = key →
    ∀ item : FileInfo, original[key]? = some item → ¬ FailsToReplace L options item file

/-- The current and the new map together have the entries of the original map. -/
structure Tracks (original : FilesMap) (unfailing : Str → Prop) (state : SyncState) : Prop where
  current : ∀ (key : Str) (item : FileInfo), state.currentFilesMap[key]? = some item → original[key]? = some item
  kept : ∀ (key : Str) (item : FileInfo), unfailing key → original[key]? = some item →
    state.updatedFilesMap[key]? = none → state.currentFilesMap[key]? = some item
  updated : state.successCount = 0 → ∀ (key : Str) (item : FileInfo),
    state.updatedFilesMap[key]? = some item → original[key]? = some item

variable {original : FilesMap} {location : Str} {dstPath : Option Str} {files : List Str}

theorem tracks_start (original : FilesMap) (unfailing : Str → Prop) :
    Tracks original unfailing (.start original) where
  current _ _ found := found
  kept _ _ _ found _ := found
  updated _ key item found := by simp [start] at found

theorem Fate.failsToReplace {gain : Nat} (fate : Fate L options file current before none gain) (left : before = none → current = some item) :
    FailsToReplace L options item file := by
  generalize lost : (none : Option FileInfo) = after at fate
  cases fate with
  | added made => cases lost
  | notAdded fails => cases left lost.symm
  | replaced made => cases lost
  | notReplaced fails =>
    obtain rfl := Option.some.inj (left lost.symm)
    exact fails
  | copied => cases lost

theorem Fate.eq_or_eq {after : Option FileInfo} (fate : Fate L options file current before after 0) :
    after = before ∨ after = current := by
  cases fate with
  | notAdded fails => exact .inl rfl
  | notReplaced fails => exact .inl rfl
  | copied => exact .inr rfl

theorem Tracks.synced (tracks : Tracks original (Unfailing L options original location dstPath files) state)
    (synced : Synced L options file (normalisedFileName location dstPath file) state state') :
    Tracks original (Unfailing L options original location dstPath (files ++ [file])) state' := by
  obtain ⟨gain, count, fate⟩ := synced.fate
  refine ⟨fun key item found => ?_, fun key item unfailing found absent => ?_, fun zero key item found => ?_⟩
  · by_cases same : key = normalisedFileName location dstPath file
    · rw [same, synced.current] at found
      cases found
    · rcases synced.others key same with ⟨current, _⟩ | ⟨_, _, moved, _⟩
      · exact tracks.current key item (current ▸ found)
      · rw [moved] at found
        cases found
  · have before : Unfailing L options original location dstPath files key := fun other listed =>
      unfailing other (List.mem_append_left _ listed)
    by_cases same : key = normalisedFileName location dstPath file
    · obtain rfl := same
      rw [absent] at fate
      have fails := fate.failsToReplace (tracks.kept _ item before found)
      exact absurd fails (unfailing file List.mem_concat_self rfl item found)
    · rcases synced.others key same with ⟨current, updated⟩ | ⟨_, _, _, here⟩
      · exact current.trans (tracks.kept key item before found (updated ▸ absent))
      · rw [absent] at here
        cases here
  · obtain ⟨zero, rfl⟩ : state.successCount = 0 ∧ gain = 0 := by omega
    by_cases same : key = normalisedFileName location dstPath file
    · obtain rfl := same
      rcases fate.eq_or_eq with there | there
      · exact tracks.updated zero _ item (there ▸ found)
      · exact tracks.current _ item (there ▸ found)
    · rcases synced.others key same with ⟨_, updated⟩ | ⟨other, there, _, here⟩
      · exact tracks.updated zero key item (updated ▸ found)
      · exact tracks.current key item (there.trans (here.symm.trans found))

theorem tracks_foldlM (done : files.foldlM (syncFile L options location dstPath) (.start original) = .ok state) :
    Tracks original (Unfailing L options original location dstPath files) state :=
  Runs.foldlM_induction
    (motive := fun files state => Tracks original (Unfailing L options original location dstPath files) state)
    (tracks_start original _) (fun _ _ _ _ tracks step => tracks.synced (synced_of_syncFile step)) done

/-! ## What is left -/

theorem foldl_finishEntry_keep (keep : options.delete = false) (entries : List (Str × FileInfo)) (state : SyncState) :
    entries.foldl (finishEntry options) state =
      { state with updatedFilesMap := state.updatedFilesMap.insertMany entries } := by
  induction entries generalizing state with
  | nil =>
    rw [ExtTreeMap.insertMany_nil]
    rfl
  | cons entry rest hypothesis =>
    rw [List.foldl_cons, hypothesis, finishEntry, keep, ExtTreeMap.insertMany_cons]
    rfl

theorem foldl_finishEntry_delete (delete : options.delete = true) (entries : List (Str × FileInfo))
    (state : SyncState) : (entries.foldl (finishEntry options) state).updatedFilesMap = state.updatedFilesMap ∧
      (entries.foldl (finishEntry options) state).successCount = state.successCount + entries.length ∧
      ∀ entry ∈ entries, ∃ link,
        (entries.foldl (finishEntry options) state).processedFiles[pathBuf entry.1]? = some (.removed link) := by
  induction entries using List.reverseRecOn with
  | nil => exact ⟨rfl, rfl, fun entry listed => absurd listed List.not_mem_nil⟩
  | append_singleton entries entry hypothesis =>
    obtain ⟨updated, count, reported⟩ := hypothesis
    rw [List.foldl_append, List.foldl_cons, List.foldl_nil, finishEntry, delete]
    refine ⟨updated, ?_, fun other listed => ?_⟩
    · rw [List.length_append, ← Nat.add_assoc, ← count]
      rfl
    · rw [if_neg (by decide), ExtTreeMap.getElem?_insert]
      split_ifs with same
      · exact ⟨_, rfl⟩
      · rcases List.mem_append.mp listed with earlier | last
        · exact reported other earlier
        · obtain rfl := List.mem_singleton.mp last
          exact absurd compare_self same

theorem mem_finish (there : key ∈ state.currentFilesMap ∨ key ∈ state.updatedFilesMap) :
    key ∈ (state.finish options).updatedFilesMap ∨
      ∃ link, (state.finish options).processedFiles[pathBuf key]? = some (.removed link) := by
  rw [finish]
  cases delete : options.delete with
  | false =>
    rw [foldl_finishEntry_keep delete, ExtTreeMap.mem_insertMany_list, ExtTreeMap.map_fst_toList_eq_keys,
      List.contains_iff_mem, ExtTreeMap.mem_keys]
    exact .inl there.symm
  | true =>
    obtain ⟨updated, _, reported⟩ := foldl_finishEntry_delete delete state.currentFilesMap.toList state
    rw [updated]
    rcases there with left | here
    · obtain ⟨item, found⟩ := Option.isSome_iff_exists.mp (ExtTreeMap.mem_iff_isSome_getElem?.mp left)
      exact .inr (reported (key, item) (ExtTreeMap.mem_toList_iff_getElem?_eq_some.mpr found))
    · exact .inl here

theorem Tracks.insertMany_toList {unfailing : Str → Prop} (tracks : Tracks original unfailing state)
    (all : ∀ key, unfailing key) (zero : state.successCount = 0) :
    state.updatedFilesMap.insertMany state.currentFilesMap.toList = original := by
  have listed : ∀ (key : Str) (item : FileInfo), (key, item) ∈ state.currentFilesMap.toList →
      original[key]? = some item := fun key item member =>
    tracks.current key item (ExtTreeMap.mem_toList_iff_getElem?_eq_some.mp member)
  refine ExtTreeMap.ext_getElem? fun key => ?_
  cases found : original[key]? with
  | none =>
    by_contra present
    obtain ⟨item, there⟩ := Option.ne_none_iff_exists'.mp present
    rcases OrderedMap.getElem?_insertMany there with member | here
    · exact absurd (listed key item member) (by simp [found])
    · exact absurd (tracks.updated zero key item here) (by simp [found])
  | some item =>
    refine OrderedMap.getElem?_insertMany_of_unique (fun other member => ?_) ?_
    · exact Option.some.inj ((listed key other member).symm.trans found)
    · cases here : state.updatedFilesMap[key]? with
      | none =>
        have left := tracks.kept key item (all key) found here
        exact .inr ⟨item, ExtTreeMap.mem_toList_iff_getElem?_eq_some.mpr left⟩
      | some other =>
        exact .inl ((tracks.updated zero key other here).symm.trans found)

theorem finish_of_count (zero : (state.finish options).successCount = 0) :
    state.successCount = 0 ∧ (state.finish options).updatedFilesMap =
      state.updatedFilesMap.insertMany state.currentFilesMap.toList := by
  rw [finish] at zero ⊢
  cases delete : options.delete with
  | false =>
    rw [foldl_finishEntry_keep delete] at zero ⊢
    exact ⟨zero, rfl⟩
  | true =>
    obtain ⟨updated, count, _⟩ := foldl_finishEntry_delete delete state.currentFilesMap.toList state
    rw [count, Nat.add_eq_zero_iff, List.length_eq_zero_iff] at zero
    refine ⟨zero.1, ?_⟩
    rw [updated, zero.2, ExtTreeMap.insertMany_nil]

end SyncState

theorem filesMapSync_eq_ok {L : LocalFiles} {options : SyncOptions} {currentFilesMap filesMap : FilesMap}
    {location : Str} {newContent : List (Str × FilesMapChange)} {dstPath : Option Str} {processed : ProcessedFiles}
    {count : Nat}
    (done : filesMapSync L options currentFilesMap location newContent dstPath = .ok (processed, filesMap, count)) :
    ∃ state : SyncState, (listedFiles newContent).foldlM (SyncState.syncFile L options location dstPath)
        (.start currentFilesMap) = .ok state ∧
      (state.finish options).processedFiles = processed ∧ (state.finish options).updatedFilesMap = filesMap ∧
      (state.finish options).successCount = count := by
  rw [filesMapSync] at done
  cases run : (listedFiles newContent).foldlM (SyncState.syncFile L options location dstPath)
      (.start currentFilesMap) with
  | error halt => simp [run, Except.map] at done
  | ok state =>
    rw [run] at done
    simp only [Except.map, Except.ok.injEq, Prod.mk.injEq] at done
    exact ⟨state, rfl, done⟩

def sampleUploads (uploaded : Except ApiError Str) : LocalFiles where
  fromPath _ _ := .ok (FileMeta.fromTypeAndSize [] "text/plain".toList "1".toList)
  uploadFileToNet _ := uploaded
  dryUpload _ := .ok "new".toList
  isDir _ := some false
  readLink _ := .error []

def sampleFilesMap : FilesMap :=
  (∅ : FilesMap).insert "/a".toList
    ((FileMeta.fromTypeAndSize [] "text/plain".toList "1".toList).toFileItem.insert predicateLink "old".toList)

def sampleOptions : SyncOptions := ⟨false, true, false, false⟩

def sampleListing : List (Str × FilesMapChange) := [("x/a".toList, .added "new".toList)]

def syncSample (uploaded : Except ApiError Str) : ApiResult (List (PathBuf × FilesMapChange) × List Str × Nat) :=
  (filesMapSync (sampleUploads uploaded) sampleOptions sampleFilesMap "x/".toList sampleListing none).map
    fun result => (result.1.toList, result.2.1.keys, result.2.2)

end SafeNetwork

import SafeNetwork.Api.FilesSync

/-!
# Creating files containers

`files_map_create` of `sn_api/src/app/files/mod.rs` makes an entry for each file of a listing. The files of a
listing are stored by `files_map_create` and `files_map_sync` under the normalised destination followed by their
paths relative to the upload location, where the text of the location does not occur in those again.
-/

namespace SafeNetwork

open Std FilesMap FilePaths

def FilesMapChange.link : FilesMapChange → Option Str
  | added link => some link
  | updated link => some link
  | removed link => some link
  | failed _ => none

def givenLink (link : Str) : Option Str := if link.isEmpty then none else some link

/-- The body of the loop of `files_map_create`. -/
def createFile (L : LocalFiles) (followLinks : Bool) (location : Str) (dstPath : Option Str)
    (state : FilesMap × ProcessedFiles) (entry : Str × FilesMapChange) : ApiResult (FilesMap × ProcessedFiles) :=
  match entry.2.link with
  | none => .ok state
  | some link => ((L.fromPath entry.1 followLinks).mapError Halt.err).map fun fileMeta =>
    (addOrUpdateFileItem L entry.1 (finalName location dstPath entry.1) entry.1 fileMeta (givenLink link) false
      state.1 state.2).2

/-- `files_map_create` — the map, and the listing with the changes. -/
def filesMapCreate (L : LocalFiles) (followLinks : Bool) (content : List (Str × FilesMapChange)) (location : Str)
    (dstPath : Option Str) : ApiResult (FilesMap × ProcessedFiles) :=
  content.foldlM (createFile L followLinks location dstPath)
    (∅, ExtTreeMap.ofList (content.map fun entry => (pathBuf entry.1, entry.2)))

/-! ## Entries under names -/

/-- A map has the entries that can be made from some files, each under its name, and otherwise those of another
map. -/
structure Holds {ρ : Type} (name : ρ → Str) (makes : ρ → FileInfo → Prop) (base : FilesMap) (files : List ρ)
    (map : FilesMap) : Prop where
  origin : ∀ (key : Str) (item : FileInfo), map[key]? = some item →
    base[key]? = some item ∨ ∃ file ∈ files, name file = key ∧ makes file item
  present : ∀ file ∈ files, ∀ item, makes file item → name file ∈ map

variable {L : LocalFiles} {location : Str} {dstPath : Option Str} {followLinks : Bool}
  {entry : Str × FilesMapChange} {item : FileInfo} {options : SyncOptions} {filesMap : FilesMap}
  {processed : ProcessedFiles}

section Holds

variable {ρ : Type} {name : ρ → Str} {makes : ρ → FileInfo → Prop} {base map : FilesMap} {files : List ρ} {file : ρ}
  {item : FileInfo}

theorem holds_empty (name : ρ → Str) (makes : ρ → FileInfo → Prop) (base : FilesMap) :
    Holds name makes base [] ∅ where
  origin key item found := by simp at found
  present file listed := absurd listed List.not_mem_nil

/-- One more file is held by a map whose entries are those before, the one of the file, or from the other map, and
which has an entry of the file. -/
theorem Holds.append (holds : Holds name makes base files map) {map' : FilesMap}
    (origin : ∀ (key : Str) (item : FileInfo), map'[key]? = some item →
      map[key]? = some item ∨ base[key]? = some item ∨ name file = key ∧ makes file item)
    (grows : ∀ key ∈ map, key ∈ map') (present : ∀ item, makes file item → name file ∈ map') :
    Holds name makes base (files ++ [file]) map' where
  origin key item found := by
    rcases origin key item found with before | there | made
    · rcases holds.origin key item before with there | ⟨other, listed, made⟩
      · exact .inl there
      · exact .inr ⟨other, List.mem_append_left _ listed, made⟩
    · exact .inl there
    · exact .inr ⟨file, List.mem_concat_self, made⟩
  present other listed item made := by
    rcases List.mem_append.mp listed with earlier | last
    · exact grows _ (holds.present other earlier item made)
    · obtain rfl := List.mem_singleton.mp last
      exact present item made

theorem Holds.getElem? (holds : Holds name makes base files map) (listed : file ∈ files) (made : makes file item)
    (distinct : ∀ other ∈ files, name other = name file → other = file)
    (functional : ∀ other, makes file other → other = item) :
    ∃ stored, map[name file]? = some stored ∧ (stored = item ∨ base[name file]? = some stored) := by
  have here := holds.present file listed item made
  obtain ⟨stored, found⟩ := Option.isSome_iff_exists.mp (ExtTreeMap.mem_iff_isSome_getElem?.mp here)
  refine ⟨stored, found, ?_⟩
  rcases holds.origin _ stored found with there | ⟨other, member, same, makes⟩
  · exact .inr there
  · obtain rfl := distinct other member same
    exact .inl (functional stored makes)

end Holds

/-! ## Creating -/

def Creates (L : LocalFiles) (followLinks : Bool) (entry : Str × FilesMapChange) (item : FileInfo) : Prop :=
  ∃ link fileMeta, entry.2.link = some link ∧ L.fromPath entry.1 followLinks = .ok fileMeta ∧
    genNewFileItem L entry.1 fileMeta (givenLink link) = .ok item

theorem Creates.eq {other : FileInfo}
    (creates : Creates L followLinks entry item) (again : Creates L followLinks entry other) : other = item := by
  obtain ⟨link, fileMeta, linked, read, made⟩ := creates
  obtain ⟨link', fileMeta', linked', read', made'⟩ := again
  obtain rfl := Option.some.inj (linked.symm.trans linked')
  obtain rfl := Except.ok.inj (read.symm.trans read')
  exact Except.ok.inj (made'.symm.trans made)

theorem Makes.eq {file : Str} {other : FileInfo}
    (makes : Makes L options file item) (again : Makes L options file other) : other = item := by
  obtain ⟨fileMeta, read, made⟩ := makes
  obtain ⟨fileMeta', read', made'⟩ := again
  obtain rfl := Except.ok.inj (read.symm.trans read')
  exact Except.ok.inj (made'.symm.trans made)

theorem createFile_eq_ok {state state' : FilesMap × ProcessedFiles} (done : createFile L followLinks location dstPath state entry = .ok state') :
    (∃ item, Creates L followLinks entry item ∧
        state'.1 = state.1.insert (finalName location dstPath entry.1) item) ∨
      (∀ item, ¬ Creates L followLinks entry item) ∧ state'.1 = state.1 := by
  rw [createFile] at done
  cases linked : entry.2.link with
  | none =>
    rw [linked] at done
    obtain rfl := Except.ok.inj done
    refine .inr ⟨?_, rfl⟩
    rintro item ⟨link, _, other, _⟩
    simp [linked] at other
  | some link =>
    cases read : L.fromPath entry.1 followLinks with
    | error err => simp [linked, read, Except.mapError, Except.map] at done
    | ok fileMeta =>
      cases made : genNewFileItem L entry.1 fileMeta (givenLink link) with
      | ok item =>
        simp only [linked, read, Except.mapError, Except.map, addOrUpdateFileItem, made, Except.ok.injEq] at done
        obtain rfl := done
        exact .inl ⟨item, ⟨link, fileMeta, linked, read, made⟩, rfl⟩
      | error err =>
        simp only [linked, read, Except.mapError, Except.map, addOrUpdateFileItem, made, Except.ok.injEq] at done
        obtain rfl := done
        refine .inr ⟨?_, rfl⟩
        rintro item ⟨link', fileMeta', linked', read', made'⟩
        obtain rfl := Option.some.inj (linked.symm.trans linked')
        obtain rfl := Except.ok.inj (read.symm.trans read')
        cases made.symm.trans made'

theorem holds_filesMapCreate {content : List (Str × FilesMapChange)} (done : filesMapCreate L followLinks content location dstPath = .ok (filesMap, processed)) :
    Holds (fun entry => finalName location dstPath entry.1) (Creates L followLinks) ∅ content filesMap := by
  refine Runs.foldlM_induction (motive := fun content state => Holds
    (fun entry => finalName location dstPath entry.1) (Creates L followLinks) ∅ content state.1)
    (holds_empty _ _ _) (fun seen state entry next holds step => ?_) done
  rcases createFile_eq_ok step with ⟨item, creates, same⟩ | ⟨never, same⟩
  · rw [same]
    refine holds.append (fun key other found => ?_) (fun key member => ?_) (fun _ _ => ExtTreeMap.mem_insert_self)
    · rw [ExtTreeMap.getElem?_insert] at found
      split_ifs at found with equal
      · obtain rfl := Option.some.inj found
        exact .inr (.inr ⟨Std.compare_eq_iff_eq.mp equal, creates⟩)
      · exact .inl found
    · exact ExtTreeMap.mem_insert.mpr (.inr member)
  · rw [same]
    exact holds.append (fun _ _ found => .inl found) (fun _ member => member)
      fun item creates => absurd creates (never item)

/-! ## Syncing -/

namespace SyncState

variable {options : SyncOptions} {original : FilesMap} {file : Str} {state state' : SyncState} {current before after : Option FileInfo}
  {gain : Nat}

theorem Fate.origin {item : FileInfo} (fate : Fate L options file current before after gain) (stored : after = some item) :
    before = some item ∨ current = some item ∨ Makes L options file item := by
  cases fate with
  | added made => exact .inr (.inr (Option.some.inj stored ▸ made))
  | notAdded fails => exact .inl stored
  | replaced made => exact .inr (.inr (Option.some.inj stored ▸ made))
  | notReplaced fails => exact .inl stored
  | copied => exact .inr (.inl stored)

theorem Fate.isSome (fate : Fate L options file current before after gain)
    (source : before.isSome ∨ ∃ item, Makes L options file item) : after.isSome := by
  have failing : Fails L options file → before.isSome := by
    intro fails
    rcases source with there | ⟨item, makes⟩
    · exact there
    · exact absurd fails makes.not_fails
  cases fate with
  | added made => rfl
  | notAdded fails => exact failing fails
  | replaced made => rfl
  | notReplaced fails => exact failing fails.2
  | copied => rfl

theorem holds_synced {files : List Str}
    (current : ∀ (key : Str) (item : FileInfo), state.currentFilesMap[key]? = some item → original[key]? = some item)
    (holds : Holds (normalisedFileName location dstPath) (Makes L options) original files state.updatedFilesMap)
    (synced : Synced L options file (normalisedFileName location dstPath file) state state') :
    Holds (normalisedFileName location dstPath) (Makes L options) original (files ++ [file])
      state'.updatedFilesMap := by
  obtain ⟨gain, _, fate⟩ := synced.fate
  refine holds.append (fun key item found => ?_) (fun key member => ?_) (fun item makes => ?_)
  · by_cases same : key = normalisedFileName location dstPath file
    · subst same
      rcases fate.origin found with before | there | makes
      · exact .inl before
      · exact .inr (.inl (current _ item there))
      · exact .inr (.inr ⟨rfl, makes⟩)
    · rcases synced.others key same with ⟨_, updated⟩ | ⟨other, there, _, here⟩
      · exact .inl (updated ▸ found)
      · exact .inr (.inl (current key item (there.trans (here.symm.trans found))))
  · rw [ExtTreeMap.mem_iff_isSome_getElem?] at member ⊢
    by_cases same : key = normalisedFileName location dstPath file
    · subst same
      exact fate.isSome (.inl member)
    · rcases synced.others key same with ⟨_, updated⟩ | ⟨other, _, _, here⟩
      · rw [updated]
        exact member
      · rw [here]
        rfl
  · exact ExtTreeMap.mem_iff_isSome_getElem?.mpr (fate.isSome (.inr ⟨item, makes⟩))

theorem holds_foldlM {files : List Str}
    (done : files.foldlM (syncFile L options location dstPath) (.start original) = .ok state) :
    Holds (normalisedFileName location dstPath) (Makes L options) original files state.updatedFilesMap := by
  have both := Runs.foldlM_induction (motive := fun files state =>
    Tracks original (Unfailing L options original location dstPath files) state ∧
      Holds (normalisedFileName location dstPath) (Makes L options) original files state.updatedFilesMap)
    ⟨tracks_start original _, holds_empty _ _ _⟩ (fun seen state file next before step => ?_) done
  · exact both.2
  · obtain ⟨tracks, holds⟩ := before
    have synced := synced_of_syncFile step
    exact ⟨tracks.synced synced, holds_synced tracks.current holds synced⟩

theorem updatedFilesMap_finish (options : SyncOptions) (state : SyncState) :
    ∃ entries : List (Str × FileInfo), (∀ entry ∈ entries, state.currentFilesMap[entry.1]? = some entry.2) ∧
      (state.finish options).updatedFilesMap = state.updatedFilesMap.insertMany entries := by
  rw [finish]
  cases delete : options.delete with
  | false =>
    refine ⟨state.currentFilesMap.toList, fun entry listed => ?_, by rw [foldl_finishEntry_keep delete]⟩
    exact ExtTreeMap.mem_toList_iff_getElem?_eq_some.mp listed
  | true =>
    refine ⟨[], fun entry listed => absurd listed List.not_mem_nil, ?_⟩
    rw [(foldl_finishEntry_delete delete _ state).1, ExtTreeMap.insertMany_nil]

end SyncState

open SyncState in
theorem holds_filesMapSync {options : SyncOptions} {currentFilesMap filesMap : FilesMap}
    {newContent : List (Str × FilesMapChange)} {processed : ProcessedFiles} {count : Nat}
    (done : filesMapSync L options currentFilesMap location newContent dstPath = .ok (processed, filesMap, count)) :
    Holds (normalisedFileName location dstPath) (Makes L options) currentFilesMap (listedFiles newContent)
      filesMap := by
  obtain ⟨state, run, rfl, rfl, rfl⟩ := filesMapSync_eq_ok done
  have holds := holds_foldlM run
  have tracks := tracks_foldlM run
  obtain ⟨entries, left, same⟩ := updatedFilesMap_finish options state
  rw [same]
  refine ⟨fun key item found => ?_, fun file listed item makes => ?_⟩
  · rcases OrderedMap.getElem?_insertMany found with member | here
    · exact .inl (tracks.current key item (left _ member))
    · exact holds.origin key item here
  · exact ExtTreeMap.mem_insertMany_list.mpr (.inl (holds.present file listed item makes))

/-! ## Names of listed files -/

def listing (location : Str) (files : List (Str × FilesMapChange)) : List (Str × FilesMapChange) :=
  files.map fun file => (listedPath location file.1, file.2)

/-- Relative paths of files that the text of the location does not occur in again. -/
def Clear (location : Str) (files : List (Str × FilesMapChange)) : Prop :=
  ∀ file ∈ files, IsRelative file.1 ∧ '\\' ∉ file.1 ∧ ¬ Recurs location file.1

instance (location : Str) (files : List (Str × FilesMapChange)) : Decidable (Clear location files) :=
  inferInstanceAs (Decidable (∀ file ∈ files, IsRelative file.1 ∧ '\\' ∉ file.1 ∧ ¬ Recurs location file.1))

variable {files : List (Str × FilesMapChange)} {file other : Str × FilesMapChange}

section

variable (clear : Clear location files)
include clear

theorem Clear.finalName_eq (listed : file ∈ files) :
    finalName location dstPath (listedPath location file.1) = normalisedBase location dstPath ++ '/' :: file.1 := by
  obtain ⟨relative, slashes, once⟩ := clear file listed
  exact finalName_listedPath relative slashes once

theorem Clear.normalisedFileName_eq (listed : file ∈ files) :
    normalisedFileName location dstPath (listedPath location file.1) =
      normalisedBase location dstPath ++ '/' :: file.1 := by
  have name : finalName location dstPath (listedPath location file.1) = _ := clear.finalName_eq listed
  rw [FilePaths.normalisedFileName_eq name, name]

theorem Clear.eq_of_finalName (listed : file ∈ files) (listed' : other ∈ files)
    (same : finalName location dstPath (listedPath location other.1) =
      finalName location dstPath (listedPath location file.1)) : other.1 = file.1 := by
  rw [clear.finalName_eq listed, clear.finalName_eq listed'] at same
  exact finalName_inj same

theorem Clear.getElem?_filesMapCreate (distinct : (files.map Prod.fst).Nodup) (done : filesMapCreate L followLinks (listing location files) location dstPath = .ok (filesMap, processed))
    (listed : file ∈ files) (creates : Creates L followLinks (listedPath location file.1, file.2) item) :
    filesMap[finalName location dstPath (listedPath location file.1)]? = some item := by
  have holds := holds_filesMapCreate done
  have member : (listedPath location file.1, file.2) ∈ listing location files := List.mem_map_of_mem listed
  have unique : ∀ entry ∈ listing location files, finalName location dstPath entry.1 =
      finalName location dstPath (listedPath location file.1) → entry = (listedPath location file.1, file.2) := by
    intro entry listed' same
    obtain ⟨other, member', rfl⟩ := List.mem_map.mp listed'
    rw [List.inj_on_of_nodup_map distinct member' listed (clear.eq_of_finalName listed member' same)]
  obtain ⟨stored, found, same | there⟩ := holds.getElem? member creates unique fun _ again => creates.eq again
  · rw [found, same]
  · simp at there

theorem Clear.getElem?_filesMapSync {currentFilesMap : FilesMap} {count : Nat} (done : filesMapSync L options currentFilesMap location (listing location files) dstPath =
      .ok (processed, filesMap, count))
    (listed : file ∈ files) (success : file.2.isSuccess) (makes : Makes L options (listedPath location file.1) item) :
    ∃ stored, filesMap[normalisedFileName location dstPath (listedPath location file.1)]? = some stored ∧
      (stored = item ∨
        currentFilesMap[normalisedFileName location dstPath (listedPath location file.1)]? = some stored) := by
  have holds := holds_filesMapSync done
  have member : listedPath location file.1 ∈ listedFiles (listing location files) := by
    rw [listedFiles, List.mem_map]
    refine ⟨(listedPath location file.1, file.2), List.mem_filter.mpr ⟨List.mem_map_of_mem listed, success⟩, rfl⟩
  refine holds.getElem? member makes (fun path listed' same => ?_) fun _ again => makes.eq again
  obtain ⟨entry, kept, rfl⟩ := List.mem_map.mp listed'
  obtain ⟨other, member', rfl⟩ := List.mem_map.mp (List.mem_filter.mp kept).1
  rw [clear.normalisedFileName_eq listed, clear.normalisedFileName_eq member'] at same
  rw [finalName_inj same]

end

def sampleFiles (first second : String) : List (Str × FilesMapChange) :=
  [(first.toList, .added "one".toList), (second.toList, .added "two".toList)]

/-- The names and links of the map that is created from two files below the location `a`. -/
def createSample (first second : String) : ApiResult (List (Str × Option Str)) :=
  (filesMapCreate (sampleUploads (.ok "new".toList)) false (listing "a".toList (sampleFiles first second)) "a".toList
    none).map fun result => result.1.toList.map fun entry => (entry.1, entry.2[predicateLink]?)

end SafeNetwork

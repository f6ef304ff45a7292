import SafeNetwork.Storage.DataStorage
import SafeNetwork.Storage.RegisterLog

/-!
# What is on the disk

A storage keeps items: chunks, and commands of registers. Each item has one file, in a directory that
no file name can be confused with. On a disk with this layout, listing a register's directory gives
its commands, and every operation of the storage adds items in the same way, if it adds any.
-/

namespace SafeNetwork

open Std Crdt FileSystem

variable {S : StorageScheme}

theorem mem_prefixTreePath {root : S.Path} {bits : List Bool} {name : S.Name}
    (inside : name ∈ prefixTreePath root bits) : name ∈ root ∨ ∃ value, name = .bit value := by
  obtain above | below := List.mem_append.mp inside
  · exact Or.inl above
  · obtain ⟨value, -, rfl⟩ := List.mem_map.mp below
    exact Or.inr ⟨value, rfl⟩

theorem RegisterStore.addressToFilepath_injective : Function.Injective (RegisterStore.addressToFilepath S) := by
  intro left right same
  have last : S.registerId left = S.registerId right := by
    simpa [RegisterStore.addressToFilepath] using congrArg List.getLast? same
  exact S.registerId_injective last

/-! ## Items -/

inductive Item (S : StorageScheme) where
  | chunk (chunk : Chunk S)
  | cmd (addr : RegisterAddress) (cmd : S.Cmd)

namespace Item

def dir : Item S → S.Path
  | .chunk data => prefixTreePath [.chunks] data.address.name.bits
  | .cmd addr _ => RegisterStore.addressToFilepath S addr

def fileName : Item S → S.Name
  | .chunk data => .chunk data.address.name
  | .cmd _ data => .cmd (RegisterStore.registerOperationId S data)

def path (item : Item S) : S.Path := item.dir ++ [item.fileName]

def bytes : Item S → List UInt8
  | .chunk data => data.value
  | .cmd _ data => S.serialise data

def amount : Item S → Nat
  | .chunk data => data.value.length
  | .cmd _ _ => S.sizeOfRegisterCmd

variable {item other : Item S} {addr addr' : RegisterAddress} {cmd : S.Cmd}

theorem path_chunk (chunk : Chunk S) :
    (Item.chunk chunk).path = ChunkStorage.chunkAddrToFilepath S chunk.address := rfl

theorem path_cmd : (Item.cmd addr cmd).path =
    RegisterStore.addressToFilepath S addr ++ [.cmd (RegisterStore.registerOperationId S cmd)] := rfl

@[simp] theorem dropLast_path : item.path.dropLast = item.dir := List.dropLast_concat

@[simp] theorem dir_ne_nil : item.dir ≠ [] := by
  cases item <;> simp [dir, prefixTreePath, RegisterStore.addressToFilepath]

theorem registerOperationId_injective : Function.Injective (RegisterStore.registerOperationId S) := by
  intro left right same
  have encoded : S.serialise left = S.serialise right := S.operationId_injective same
  have decoded := S.deserialise_serialise left
  rw [encoded, S.deserialise_serialise] at decoded
  exact (Option.some.inj decoded).symm

theorem fileName_notMem_dir : item.fileName ∉ other.dir := by
  intro inside
  cases other with
  | chunk data =>
    obtain root | ⟨value, bit⟩ := mem_prefixTreePath inside
    · cases item <;> simp [fileName] at root
    · cases item <;> cases bit
  | cmd addr data =>
    obtain above | last := List.mem_append.mp inside
    · obtain root | ⟨value, bit⟩ := mem_prefixTreePath above
      · cases item <;> simp [fileName] at root
      · cases item <;> cases bit
    · cases item <;> simp [fileName] at last

theorem path_ne_of_isPrefix {path : S.Path} (above : path <+: other.dir) : path ≠ item.path := by
  rintro rfl
  exact fileName_notMem_dir (above.subset (List.mem_append_right _ (List.mem_singleton_self _)))

theorem addressToFilepath_isPrefix :
    RegisterStore.addressToFilepath S addr <+: item.path ↔ ∃ cmd, item = .cmd addr cmd := by
  constructor
  · intro above
    have inside : Component.registerDir (S.registerId addr) ∈ item.path :=
      above.subset (List.mem_append_right _ (List.mem_singleton_self _))
    obtain above | last := List.mem_append.mp inside
    · cases item with
      | chunk data =>
        obtain root | ⟨value, bit⟩ := mem_prefixTreePath above
        · simp at root
        · cases bit
      | cmd addr' data =>
        obtain above | last := List.mem_append.mp above
        · obtain root | ⟨value, bit⟩ := mem_prefixTreePath above
          · simp at root
          · cases bit
        · have same : S.registerId addr = S.registerId addr' := by simpa using last
          rw [S.registerId_injective same]
          exact ⟨data, rfl⟩
    · cases item <;> simp [fileName] at last
  · rintro ⟨cmd, rfl⟩
    exact List.prefix_append _ _

theorem addressToFilepath_ne_path : RegisterStore.addressToFilepath S addr ≠ item.path := by
  intro same
  have last := congrArg List.getLast? same
  cases item <;> simp [RegisterStore.addressToFilepath, path, fileName] at last

theorem eq_of_path (paths : item.path = other.path) (contents : item.bytes = other.bytes) : item = other := by
  have names : item.fileName = other.fileName := by
    simpa [path] using congrArg List.getLast? paths
  have dirs : item.dir = other.dir := by
    simpa using congrArg List.dropLast paths
  cases item with
  | chunk left =>
    cases other with
    | chunk right => exact congrArg _ (Chunk.ext contents)
    | cmd addr cmd => cases names
  | cmd addr left =>
    cases other with
    | chunk right => cases names
    | cmd addr' right =>
      obtain rfl := RegisterStore.addressToFilepath_injective (S := S) dirs
      rw [registerOperationId_injective (Component.cmd.inj names)]

theorem eq_cmd_of_path (same : item.path = (Item.cmd addr cmd).path) : item = .cmd addr cmd := by
  apply eq_of_path same
  have names : item.fileName = (Item.cmd addr cmd).fileName := by
    simpa [path] using congrArg List.getLast? same
  cases item with
  | chunk chunk => cases names
  | cmd addr' cmd' =>
    exact congrArg S.serialise (registerOperationId_injective (Component.cmd.inj names))

end Item

/-! ## Layout -/

def Has (fs : Fs S.Name) (item : Item S) : Prop := fs.get item.path = some (.file item.bytes)

/-- The disk below a storage directory: nothing but files of items in their directories, each with a
content that is possible for its item. -/
structure Placed (content : Item S → List UInt8 → Prop) (fs : Fs S.Name) : Prop where
  tree : fs.Tree
  file : ∀ path bytes, fs.get path = some (.file bytes) →
    ∃ item : Item S, path = item.path ∧ content item bytes
  directory : ∀ path, fs.get path = some .directory → ∃ item : Item S, path <+: item.dir

abbrev Layout (fs : Fs S.Name) : Prop := Placed (fun item bytes => bytes = item.bytes) fs

/-- The disk after any faults: every file holds a leading part. -/
abbrev Torn (fs : Fs S.Name) : Prop := Placed (fun item bytes => bytes <+: item.bytes) fs

theorem not_has_empty (item : Item S) : ¬ Has (.empty : Fs S.Name) item :=
  nofun

theorem placed_empty {content : Item S → List UInt8 → Prop} : Placed content (.empty : Fs S.Name) :=
  ⟨Fs.tree_empty, nofun, nofun⟩

namespace Placed

variable {content : Item S → List UInt8 → Prop} {fs : Fs S.Name} {os : Os S.Name} {item : Item S}
  {path : S.Path} {bytes : List UInt8}

variable (placed : Placed content fs)
include placed

theorem get_path_ne : fs.get item.path ≠ some .directory := by
  intro stands
  obtain ⟨other, above⟩ := placed.directory _ stands
  exact Item.path_ne_of_isPrefix above rfl

theorem get_above_ne (above : path <+: item.dir) (bytes : List UInt8) :
    fs.get path ≠ some (.file bytes) := by
  intro stands
  obtain ⟨other, rfl, -⟩ := placed.file _ _ stands
  exact Item.path_ne_of_isPrefix above rfl

theorem createDirAll (item : Item S) :
    Placed content (fs.createDirAll os item.dir).2 where
  tree := placed.tree.createDirAll
  file path bytes stands := placed.file path bytes (Fs.get_file_createDirAll.mp stands)
  directory path stands := by
    obtain same | ⟨above, -, -⟩ := Fs.get_createDirAll os fs item.dir path
    · rw [same] at stands
      exact placed.directory path stands
    · exact ⟨item, above⟩

theorem set (possible : content item bytes)
    (there : ∀ above, above ≠ [] → above <+: item.dir → fs.get above = some .directory) :
    Placed content (fs.set item.path (.file bytes)) where
  tree := placed.tree.set placed.get_path_ne fun above proper below differs =>
    there above proper ((List.prefix_concat_iff.mp below).resolve_left differs)
  file path written stands := by
    by_cases same : path = item.path
    · subst same
      rw [Fs.get_set_self] at stands
      cases stands
      exact ⟨item, rfl, possible⟩
    · rw [Fs.get_set_ne same] at stands
      exact placed.file path written stands
  directory path stands := by
    by_cases same : path = item.path
    · subst same
      rw [Fs.get_set_self] at stands
      cases stands
    · rw [Fs.get_set_ne same] at stands
      exact placed.directory path stands

theorem erase (stands : fs.get path = some (.file bytes)) :
    Placed content (fs.erase path) where
  tree := placed.tree.erase stands
  file other written stands := by
    rw [Fs.get_erase] at stands
    split at stands
    · cases stands
    · exact placed.file other written stands
  directory other stands := by
    rw [Fs.get_erase] at stands
    split at stands
    · cases stands
    · exact placed.directory other stands

end Placed

namespace Layout

variable {fs : Fs S.Name} {item : Item S} {addr : RegisterAddress} {cmd : S.Cmd} {path : S.Path}

theorem mem_files (layout : Layout fs) {dir : S.Path} :
    path ∈ fs.files dir ↔ ∃ item : Item S, Has fs item ∧ path = item.path ∧ dir <+: item.path := by
  rw [Fs.mem_files]
  constructor
  · rintro ⟨below, bytes, stands⟩
    obtain ⟨item, rfl, rfl⟩ := layout.file _ _ stands
    exact ⟨item, stands, rfl, below⟩
  · rintro ⟨item, has, rfl, below⟩
    exact ⟨below, _, has⟩

theorem isSome_get_cmd (layout : Layout fs) : (fs.get (Item.cmd addr cmd).path).isSome ↔ Has fs (.cmd addr cmd) := by
  constructor
  · intro stands
    obtain ⟨node, stands⟩ := Option.isSome_iff_exists.mp stands
    cases node with
    | directory => exact absurd stands layout.get_path_ne
    | file bytes =>
      obtain ⟨item, same, rfl⟩ := layout.file _ _ stands
      rw [Item.eq_cmd_of_path same.symm] at stands
      exact stands
  · intro has
    rw [has]
    rfl

end Layout

/-! ## The log of a directory -/

/-- A log lists the commands in the directory of a register, each once. -/
structure IsLog (fs : Fs S.Name) (addr : RegisterAddress) (log : List S.Cmd) : Prop where
  nodup : log.Nodup
  mem_iff : ∀ cmd, cmd ∈ log ↔ Has fs (.cmd addr cmd)

theorem map_filterMap_of_inverse {α β : Type} {list : List α} {decode : α → Option β} {encode : β → α}
    (inverse : ∀ one ∈ list, ∃ value, decode one = some value ∧ encode value = one) :
    (list.filterMap decode).map encode = list := by
  induction list with
  | nil => rfl
  | cons one rest ih =>
    obtain ⟨value, decoded, encoded⟩ := inverse one (List.mem_cons_self ..)
    rw [List.filterMap_cons, decoded]
    simp only
    rw [List.map_cons, encoded, ih fun other mem => inverse other (List.mem_cons_of_mem _ mem)]

namespace RegisterStorage

variable {fs : Fs S.Name} {os : Os S.Name} {addr : RegisterAddress} {log : List S.Cmd} {cmd : S.Cmd}

theorem readCmd_eq (reliable : os.Reliable) (has : Has fs (.cmd addr cmd)) :
    RegisterStore.readCmd os fs (Item.cmd addr cmd).path = some cmd := by
  have stored : fs.read os (Item.cmd addr cmd).path = .ok (S.serialise cmd) :=
    Fs.read_file reliable has
  rw [RegisterStore.readCmd, stored]
  exact S.deserialise_serialise cmd

theorem listFilesIn_perm (tree : fs.Tree) (reliable : os.Reliable) {dir : S.Path} (proper : dir ≠ []) :
    (listFilesIn os fs dir).Perm (fs.files dir) := by
  unfold listFilesIn
  rw [Fs.pathExists_eq reliable]
  cases stands : fs.get dir with
  | some node => exact Fs.walk_perm reliable
  | none =>
    have nothing : fs.files dir = [] := by
      apply List.eq_nil_iff_forall_not_mem.mpr
      intro path mem
      obtain ⟨below, bytes, file⟩ := Fs.mem_files.mp mem
      have differs : dir ≠ path := by
        rintro rfl
        rw [stands] at file
        cases file
      rw [tree path _ file dir proper below differs] at stands
      cases stands
    rw [nothing]
    exact List.Perm.refl _

theorem mem_files_addressToFilepath (layout : Layout fs) {path : S.Path} :
    path ∈ fs.files (RegisterStore.addressToFilepath S addr) ↔
      ∃ cmd, Has fs (.cmd addr cmd) ∧ path = (Item.cmd addr cmd).path := by
  rw [layout.mem_files]
  constructor
  · rintro ⟨item, has, rfl, below⟩
    obtain ⟨cmd, rfl⟩ := Item.addressToFilepath_isPrefix.mp below
    exact ⟨cmd, has, rfl⟩
  · rintro ⟨cmd, has, rfl⟩
    exact ⟨_, has, rfl, List.prefix_append _ _⟩

theorem storedLog_isLog (layout : Layout fs) (reliable : os.Reliable) (addr : RegisterAddress) :
    IsLog fs addr (storedLog os fs addr) := by
  have listed := listFilesIn_perm layout.tree reliable
    (show RegisterStore.addressToFilepath S addr ≠ [] from List.append_ne_nil_of_right_ne_nil _ nofun)
  have inverse : (storedLog os fs addr).map (fun cmd => (Item.cmd addr cmd).path) =
      listFilesIn os fs (RegisterStore.addressToFilepath S addr) := by
    apply map_filterMap_of_inverse
    intro path mem
    obtain ⟨cmd, has, rfl⟩ := (mem_files_addressToFilepath layout).mp (listed.subset mem)
    exact ⟨cmd, readCmd_eq reliable has, rfl⟩
  constructor
  · apply List.Nodup.of_map (fun cmd => (Item.cmd addr cmd).path)
    rw [inverse]
    exact listed.nodup_iff.mpr (Fs.nodup_files _ _)
  · intro cmd
    constructor
    · intro mem
      obtain ⟨path, inside, read⟩ := List.mem_filterMap.mp mem
      obtain ⟨cmd', has, rfl⟩ := (mem_files_addressToFilepath layout).mp (listed.subset inside)
      rw [readCmd_eq reliable has] at read
      obtain rfl := Option.some.inj read
      exact has
    · intro has
      have inside := listed.symm.subset ((mem_files_addressToFilepath layout).mpr ⟨cmd, has, rfl⟩)
      exact List.mem_filterMap.mpr ⟨_, inside, readCmd_eq reliable has⟩

theorem exists_storedLog_eq (layout : Layout fs) (isLog : IsLog fs addr log) :
    ∃ os : Os S.Name, os.Reliable ∧ storedLog os fs addr = log := by
  let target := log.map fun cmd => (Item.cmd addr cmd).path
  have perm : target.Perm (fs.files (RegisterStore.addressToFilepath S addr)) := by
    have injective : Function.Injective fun cmd : S.Cmd => (Item.cmd addr cmd).path := by
      intro left right same
      cases Item.eq_cmd_of_path same
      rfl
    rw [List.perm_ext_iff_of_nodup (isLog.nodup.map injective) (Fs.nodup_files _ _)]
    intro path
    rw [mem_files_addressToFilepath layout, List.mem_map]
    simp only [isLog.mem_iff, eq_comm]
  let order : List S.Path → List S.Path := fun paths => if target.Perm paths then target else paths
  have ordered : ∀ paths, (order paths).Perm paths := by
    intro paths
    show (if target.Perm paths then target else paths).Perm paths
    split
    · assumption
    · exact List.Perm.refl _
  refine ⟨.ordered order ordered, Os.ordered_reliable order ordered, ?_⟩
  have found : ∀ cmd ∈ log, RegisterStore.readCmd (.ordered order ordered) fs
      (Item.cmd addr cmd).path = some cmd := by
    intro cmd mem
    exact readCmd_eq (Os.ordered_reliable order ordered) ((isLog.mem_iff cmd).mp mem)
  have files : listFilesIn (.ordered order ordered) fs (RegisterStore.addressToFilepath S addr) =
      target := by
    unfold listFilesIn
    rw [Fs.pathExists_eq (Os.ordered_reliable order ordered)]
    cases stands : fs.get (RegisterStore.addressToFilepath S addr) with
    | some node =>
      rw [Option.isSome_some, Bool.not_true, if_neg Bool.false_ne_true,
        Fs.walk_eq (Os.ordered_reliable order ordered)]
      exact if_pos perm
    | none =>
      have empty := listFilesIn_perm layout.tree (Os.ordered_reliable order ordered)
        (show RegisterStore.addressToFilepath S addr ≠ [] from List.append_ne_nil_of_right_ne_nil _ nofun)
      rw [listFilesIn, Fs.pathExists_eq (Os.ordered_reliable order ordered), stands] at empty
      exact (List.nil_perm.mp (empty.trans perm.symm)).symm
  rw [storedLog, files, List.filterMap_map]
  exact (List.filterMap_congr found).trans List.filterMap_some

end RegisterStorage

end SafeNetwork

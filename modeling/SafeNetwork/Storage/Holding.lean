import SafeNetwork.Storage.DataRun
import SafeNetwork.Storage.Operations

/-!
# What a node holds

The addresses under which the storage of a node has something, and how they come out of a listing. A
listing in which calls fail leaves out addresses; it never repeats one, and it never invents one as
long as every command is stored under the address it is for.
-/

namespace SafeNetwork

open Std Crdt FileSystem

variable {S : StorageScheme} {fs : Fs S.Name} {os : Os S.Name}

def Item.address : Item S → DataAddress
  | .chunk data => .bytes data.address
  | .cmd addr _ => .register addr

def Held (fs : Fs S.Name) : DataAddress → Prop
  | .bytes addr => ∃ chunk : Chunk S, chunk.address = addr ∧ Has fs (.chunk chunk)
  | .register addr => ∃ cmd, Has fs (.cmd addr cmd)
  | _ => False

theorem held_iff {address : DataAddress} : Held fs address ↔ ∃ item, Has fs item ∧ item.address = address := by
  constructor
  · intro held
    cases address with
    | safeKey name => exact absurd held id
    | spentbook addr => exact absurd held id
    | bytes addr =>
      obtain ⟨chunk, rfl, has⟩ := held
      exact ⟨.chunk chunk, has, rfl⟩
    | register addr =>
      obtain ⟨cmd, has⟩ := held
      exact ⟨.cmd addr cmd, has, rfl⟩
  · rintro ⟨item, has, rfl⟩
    cases item with
    | chunk chunk => exact ⟨chunk, rfl, has⟩
    | cmd addr cmd => exact ⟨cmd, has⟩

theorem Held.mono {other : Fs S.Name} {address : DataAddress} (held : Held fs address)
    (kept : ∀ item, Has fs item → Has other item) : Held other address := by
  obtain ⟨item, has, same⟩ := held_iff.mp held
  exact held_iff.mpr ⟨item, kept item has, same⟩

namespace DataStorage

theorem nodup_listFilesIn (dir : S.Path) : (listFilesIn os fs dir).Nodup := by
  unfold listFilesIn
  split
  · exact List.nodup_nil
  · exact ((os.order_perm _).nodup_iff.mpr (Fs.nodup_files _ _)).filter _

/-! ## Chunks -/

theorem exists_chunk_of_mem (layout : Layout fs) {path : S.Path} (mem : path ∈ listFilesIn os fs [.chunks]) :
    ∃ chunk : Chunk S, Has fs (.chunk chunk) ∧ path = (Item.chunk chunk).path := by
  obtain ⟨-, listed, -⟩ := mem_listFilesIn.mp mem
  obtain ⟨item, has, rfl, below⟩ := layout.mem_files.mp listed
  cases item with
  | chunk chunk => exact ⟨chunk, has, rfl⟩
  | cmd addr cmd =>
    simp [Item.path, Item.dir, RegisterStore.addressToFilepath, prefixTreePath] at below

theorem map_addrs (layout : Layout fs) : (ChunkStorage.addrs os fs).map (ChunkStorage.chunkAddrToFilepath S) =
      listFilesIn os fs [.chunks] := by
  apply map_filterMap_of_inverse
  intro path mem
  obtain ⟨chunk, -, rfl⟩ := exists_chunk_of_mem layout mem
  exact ⟨chunk.address, chunkFilepathToAddress_path, rfl⟩

theorem held_of_mem_addrs (layout : Layout fs) {addr : ChunkAddress}
    (mem : addr ∈ ChunkStorage.addrs os fs) : Held fs (.bytes addr) := by
  have listed := List.mem_map_of_mem (f := ChunkStorage.chunkAddrToFilepath S) mem
  rw [map_addrs layout] at listed
  obtain ⟨chunk, has, same⟩ := exists_chunk_of_mem layout listed
  exact ⟨chunk, (chunkAddrToFilepath_injective same).symm, has⟩

/-! ## Registers -/

/-- The directories met so far: none twice, and each with the address of one of its commands. -/
structure Listed (fs : Fs S.Name) (addrs : List (S.Path × RegisterAddress)) : Prop where
  nodup : (addrs.map Prod.fst).Nodup
  directory : ∀ found ∈ addrs, found.1 = RegisterStore.addressToFilepath S found.2
  held : ∀ found ∈ addrs, Held fs (.register found.2)

theorem Listed.listRegAddr (filed : Filed fs) {addrs : List (S.Path × RegisterAddress)}
    (listed : Listed fs addrs) {item : Item S} (has : Has fs item) (below : [.register] <+: item.path) :
    Listed fs (RegisterStore.listRegAddr os fs addrs item.path) := by
  obtain ⟨addr, cmd, rfl⟩ := isPrefix_path_iff.mp below
  unfold RegisterStore.listRegAddr
  simp only [Item.dropLast_path]
  split
  · exact listed
  · rename_i unmet
    split
    · exact listed
    · rename_i serializedData read
      have stands := Fs.get_of_read read
      rw [show fs.get (Item.cmd addr cmd).path = some (.file (S.serialise cmd)) from has] at stands
      obtain rfl : S.serialise cmd = serializedData := by simpa using stands
      simp only [S.deserialise_serialise, filed addr cmd has]
      constructor
      · rw [List.map_append, List.nodup_append]
        refine ⟨listed.nodup, List.nodup_singleton _, fun one mem other isNew => ?_⟩
        obtain ⟨found, inside, rfl⟩ := List.mem_map.mp mem
        obtain rfl := List.mem_singleton.mp isNew
        intro same
        exact unmet (List.any_eq_true.mpr ⟨found, inside, decide_eq_true same⟩)
      · intro found mem
        obtain old | new := List.mem_append.mp mem
        · exact listed.directory found old
        · rw [List.mem_singleton.mp new]
          rfl
      · intro found mem
        obtain old | new := List.mem_append.mp mem
        · exact listed.held found old
        · rw [List.mem_singleton.mp new]
          exact ⟨cmd, has⟩

theorem listed_foldl (layout : Layout fs) (filed : Filed fs) :
    Listed fs ((listFilesIn os fs [.register]).foldl (RegisterStore.listRegAddr os fs) []) := by
  apply List.foldlRecOn (motive := Listed fs)
  · exact ⟨List.nodup_nil, nofun, nofun⟩
  · intro addrs listed path mem
    obtain ⟨-, inside, -⟩ := mem_listFilesIn.mp mem
    obtain ⟨item, has, rfl, below⟩ := layout.mem_files.mp inside
    exact listed.listRegAddr filed has below

/-! ## All data -/

variable {address : DataAddress}

theorem nodup_dataAddrs (layout : Layout fs) (filed : Filed fs) : (dataAddrs os fs).Nodup := by
  have chunks : (ChunkStorage.addrs os fs).Nodup := by
    apply List.Nodup.of_map (ChunkStorage.chunkAddrToFilepath S)
    rw [map_addrs layout]
    exact nodup_listFilesIn _
  have listed : Listed fs ((listFilesIn os fs [.register]).foldl
    (RegisterStore.listRegAddr os fs) []) := listed_foldl layout filed
  have registers : (RegisterStore.listAllRegAddrs os fs).Nodup := by
    apply List.Nodup.of_map (RegisterStore.addressToFilepath S)
    rw [RegisterStore.listAllRegAddrs, List.map_map]
    have same := List.map_congr_left listed.directory
    exact same ▸ listed.nodup
  rw [dataAddrs, List.nodup_append]
  refine ⟨chunks.map fun _ _ same => DataAddress.bytes.inj same,
    registers.map fun _ _ same => DataAddress.register.inj same, fun one mem other isRegister => ?_⟩
  obtain ⟨_, -, rfl⟩ := List.mem_map.mp mem
  obtain ⟨_, -, rfl⟩ := List.mem_map.mp isRegister
  exact DataAddress.noConfusion

theorem held_of_mem_dataAddrs (layout : Layout fs) (filed : Filed fs)
    (mem : address ∈ dataAddrs os fs) : Held fs address := by
  obtain isChunk | isRegister := List.mem_append.mp mem
  · obtain ⟨addr, inside, rfl⟩ := List.mem_map.mp isChunk
    exact held_of_mem_addrs layout inside
  · obtain ⟨addr, inside, rfl⟩ := List.mem_map.mp isRegister
    obtain ⟨found, met, rfl⟩ := List.mem_map.mp inside
    exact (listed_foldl layout filed).held found met

theorem mem_dataAddrs (layout : Layout fs) (reliable : os.Reliable) (filed : Filed fs) :
    address ∈ dataAddrs os fs ↔ Held fs address := by
  refine ⟨held_of_mem_dataAddrs layout filed, fun held => ?_⟩
  cases address with
  | safeKey name => exact absurd held id
  | spentbook addr => exact absurd held id
  | register addr => exact (register_mem_dataAddrs layout reliable filed).mpr held
  | bytes addr =>
    obtain ⟨chunk, rfl, has⟩ := held
    have listed := RegisterStorage.listFilesIn_perm layout.tree reliable
      (show ([.chunks] : S.Path) ≠ [] from nofun)
    have below : [.chunks] <+: (Item.chunk chunk).path := by
      simp [Item.path, Item.dir, prefixTreePath]
    have inside := listed.symm.subset (layout.mem_files.mpr ⟨_, has, rfl, below⟩)
    have addr : chunk.address ∈ ChunkStorage.addrs os fs :=
      List.mem_filterMap.mpr ⟨_, inside, chunkFilepathToAddress_path⟩
    exact List.mem_append_left _ (List.mem_map_of_mem addr)

end DataStorage

end SafeNetwork

import SafeNetwork.Storage.Attempt
import SafeNetwork.Storage.SampleStorage

/-!
# Reading a stored chunk back

`ChunkStorage::store` takes any file at the path of a chunk for the chunk, while
`ChunkStorage::get_chunk` hashes what it reads. A store that fails after creating the file, or is cut
off, leaves an empty or a truncated file, and every later store of the chunk returns `Ok` without
repairing it.
-/

namespace SafeNetwork.ChunkStorage

open Std Crdt FileSystem

variable {S : StorageScheme} {self : StorageState S} {fs : Fs S.Name} {os reading : Os S.Name}
  {chunk : Chunk S} {level : StorageLevel}

/-- A successful store leaves a disk on which something stands at the path, or writes the chunk to
the end. -/
theorem store_ok_cases (stored : (store os self chunk).1 = .ok level) :
    (self.fs.pathExists os (chunkAddrToFilepath S chunk.address) = true ∧
      (store os self chunk).2 = self) ∨
    (self.fs.pathExists os (chunkAddrToFilepath S chunk.address) = false ∧
      (store os self chunk).2.fs.get (chunkAddrToFilepath S chunk.address) = some (.file chunk.value)) := by
  cases seen : self.fs.pathExists os (chunkAddrToFilepath S chunk.address) with
  | true => exact Or.inl ⟨rfl, by rw [store, if_pos seen]⟩
  | false =>
    refine Or.inr ⟨rfl, ?_⟩
    have unseen : ¬ self.fs.pathExists os (chunkAddrToFilepath S chunk.address) = true := by
      simp [seen]
    rw [store, if_neg unseen] at stored ⊢
    cases space : self.usedSpace.canAdd chunk.value.length with
    | false => simp [space] at stored
    | true =>
      simp only [space, Bool.not_true, Bool.false_eq_true, ↓reduceIte] at stored ⊢
      cases dirs : self.fs.createDirAll os (chunkAddrToFilepath S chunk.address).dropLast with
      | mk made fs =>
        cases made with
        | error error => simp [dirs] at stored
        | ok _ =>
          obtain ⟨_, failed⟩ | ⟨-, -, written | ⟨_, _, -, failed⟩⟩ :=
            Fs.persist_cases fs os (chunkAddrToFilepath S chunk.address) chunk.value
          · simp [dirs, failed] at stored
          · simp [written]
          · simp [dirs, failed] at stored

theorem getChunk_eq_ok (readable : reading.fault (.read (chunkAddrToFilepath S chunk.address)) = none) :
    getChunk reading fs chunk.address = .ok chunk ↔ Has fs (.chunk chunk) := by
  constructor
  · intro got
    unfold getChunk at got
    split at got
    · rename_i bytes read
      simp only at got
      split at got
      · cases got
      · cases got
        exact Fs.get_of_read read
    · cases got
    · cases got
  · intro has
    have stands : fs.get (chunkAddrToFilepath S chunk.address) = some (.file chunk.value) := has
    have read : fs.read reading (chunkAddrToFilepath S chunk.address) = .ok chunk.value := by
      simp [Fs.read, readable, stands]
    have same : (Chunk.new chunk.value : Chunk S) = chunk := Chunk.ext rfl
    simp only [getChunk, read, same, ne_eq, not_true_eq_false, if_false]

/-- After a store that returns `Ok`, on any disk and whatever fails during the call, the chunk is
read back exactly when no file was seen at its path or the file already held the chunk. -/
theorem getChunk_store_iff (os reading : Os S.Name) (self : StorageState S) (chunk : Chunk S)
    (level : StorageLevel) (stored : (store os self chunk).1 = .ok level)
    (readable : reading.fault (.read (chunkAddrToFilepath S chunk.address)) = none) :
    getChunk reading (store os self chunk).2.fs chunk.address = .ok chunk ↔
      self.fs.pathExists os (chunkAddrToFilepath S chunk.address) = false ∨
        self.fs.get (chunkAddrToFilepath S chunk.address) = some (.file chunk.value) := by
  have whole : ∀ fs : Fs S.Name, Has fs (.chunk chunk) ↔
      fs.get (chunkAddrToFilepath S chunk.address) = some (.file chunk.value) := fun _ => Iff.rfl
  rw [getChunk_eq_ok readable, whole]
  obtain ⟨seen, same⟩ | ⟨unseen, written⟩ := store_ok_cases stored
  · simp [seen, same]
  · simp [unseen, written]

def sampleChunk : Chunk sampleStorage := .new [7, 8]

def sampleBlankDisk : StorageState sampleStorage := DataStorage.new .empty (.new 1000 1000)

def sampleTornOs : Os sampleStorage.Name where
  fault call :=
    match call with
    | .write _ => some (.other 28)
    | _ => none
  written _ bytes := bytes.take 1
  directoryLen _ := 0
  order := id
  written_isPrefix _ bytes := List.take_prefix 1 bytes
  order_perm _ := List.Perm.refl _

theorem getChunk_store_sampleBlankDisk : (∃ level, (store sampleOs sampleBlankDisk sampleChunk).1 = .ok level) ∧
      getChunk sampleOs (store sampleOs sampleBlankDisk sampleChunk).2.fs sampleChunk.address = .ok sampleChunk := by
  have stored : ∃ level, (store sampleOs sampleBlankDisk sampleChunk).1 = .ok level := by
    have succeeds : (store sampleOs sampleBlankDisk sampleChunk).1.toBool = true := by decide +kernel
    cases result : (store sampleOs sampleBlankDisk sampleChunk).1 with
    | error error => simp [result, Except.toBool] at succeeds
    | ok level => exact ⟨level, rfl⟩
  obtain ⟨level, ok⟩ := stored
  exact ⟨⟨level, ok⟩, (getChunk_store_iff sampleOs sampleOs sampleBlankDisk sampleChunk level ok rfl).mpr
    (Or.inl rfl)⟩

/-- A store that fails after one byte, a second one that returns `Ok`, and a chunk that is not found. -/
theorem getChunk_after_torn_store :
    (store sampleOs (store sampleTornOs sampleBlankDisk sampleChunk).2 sampleChunk).1 = .ok .noChange ∧
      getChunk sampleOs (store sampleOs (store sampleTornOs sampleBlankDisk sampleChunk).2 sampleChunk).2.fs
        sampleChunk.address = .error (.chunkNotFound sampleChunk.address.name) := by
  have torn : (store sampleTornOs sampleBlankDisk sampleChunk).2.fs.get
      (chunkAddrToFilepath sampleStorage sampleChunk.address) = some (.file [7]) := by
    decide +kernel
  have seen : (store sampleTornOs sampleBlankDisk sampleChunk).2.fs.pathExists sampleOs
      (chunkAddrToFilepath sampleStorage sampleChunk.address) = true := by
    rw [Fs.pathExists_eq sampleOs_reliable, torn]
    rfl
  have again : store sampleOs (store sampleTornOs sampleBlankDisk sampleChunk).2 sampleChunk =
      (.ok .noChange, (store sampleTornOs sampleBlankDisk sampleChunk).2) := by
    rw [store, if_pos seen]
  refine ⟨by rw [again], ?_⟩
  have named : (Chunk.new [7] : Chunk sampleStorage).address ≠ sampleChunk.address := by
    decide +kernel
  rw [again, getChunk, Fs.read_file sampleOs_reliable torn]
  simp only [if_pos named]

end SafeNetwork.ChunkStorage

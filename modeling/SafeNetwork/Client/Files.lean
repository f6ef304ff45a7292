import SafeNetwork.Library.Coding
import SafeNetwork.XorName

/-!
# Files

`sn_client/src/api/file_apis.rs` and `api/data`: a file of a size for self-encryption is encrypted into chunks,
and the data map that leads to them goes into a chunk of its own. When it is too large for one chunk, that
chunk is encrypted in turn, level by level. A smaller file is one chunk as it is. The reader is given the name
of the head chunk, and tries to decode it as a level of data maps; when this fails it takes the chunk for a
small file.

A small file that decodes as a level of data maps is read as what that map leads to.
-/

namespace SafeNetwork

/-- `ChunkInfo` — where a chunk of a file is found and what it was encrypted from. -/
structure ChunkInfo where
  index : UInt64
  dstHash : XorName
  srcHash : XorName
  srcSize : UInt64
deriving DecidableEq

structure DataMap where
  infos : List ChunkInfo
deriving DecidableEq

structure EncryptedChunk where
  index : UInt64
  content : List UInt8
deriving DecidableEq

inductive DataMapLevel where
  | first (dataMap : DataMap)
  /-- Holds the data map of an additional level of chunks, from chunking up a previous level. -/
  | additional (dataMap : DataMap)
deriving DecidableEq

/-- `Chunk`, by its value. Its name is calculated from it. -/
structure FileChunk where
  value : List UInt8
deriving DecidableEq

/-! ## Encodings -/

/-- `bincode` of a name: its bytes. -/
def XorName.bincode : Coding XorName :=
  (Coding.bitString 32).retract (fun name => ⟨name.bits, name.length_eq⟩)
    (fun bits => some ⟨bits.1, bits.2⟩) fun _ => rfl

/-- `bincode` of the place of a chunk: field after field. -/
def ChunkInfo.bincode : Coding ChunkInfo :=
  (Coding.u64LittleEndian.pair (XorName.bincode.pair (XorName.bincode.pair Coding.u64LittleEndian))).retract
    (fun info => (info.index, info.dstHash, info.srcHash, info.srcSize))
    (fun fields => some ⟨fields.1, fields.2.1, fields.2.2.1, fields.2.2.2⟩) fun _ => rfl

/-- `bincode` of a level: the number of the variant, then the data map as the vector of its chunks. -/
def DataMapLevel.bincode : Coding DataMapLevel :=
  (Coding.u32LittleEndian.pair ChunkInfo.bincode.vec).retract
    (fun
      | .first dataMap => (0, dataMap.infos)
      | .additional dataMap => (1, dataMap.infos))
    (fun fields =>
      if fields.1 = 0 then some (.first ⟨fields.2⟩)
      else if fields.1 = 1 then some (.additional ⟨fields.2⟩)
      else none)
    (by rintro (dataMap | dataMap) <;> rfl)

/-- `bincode` of a chunk: its value, with the number of its bytes. -/
def FileChunk.bincode : Coding FileChunk :=
  Coding.byte.vec.retract FileChunk.value (fun value => some ⟨value⟩) fun _ => rfl

theorem ChunkInfo.length_encode (info : ChunkInfo) : (ChunkInfo.bincode.encode info).length = 80 := by
  have dst : (Coding.encodeBits info.dstHash.bits).length = 32 :=
    Coding.length_encodeBits info.dstHash.length_eq
  have src : (Coding.encodeBits info.srcHash.bits).length = 32 :=
    Coding.length_encodeBits info.srcHash.length_eq
  simp [ChunkInfo.bincode, XorName.bincode, Coding.retract, Coding.pair, Coding.u64LittleEndian,
    Coding.bitString, dst, src]

theorem DataMapLevel.length_encode (dataMap : DataMap) :
    (DataMapLevel.bincode.encode (.additional dataMap)).length ≤ 12 + 81 * dataMap.infos.length := by
  have infos : (dataMap.infos.flatMap ChunkInfo.bincode.encode).length = 80 * dataMap.infos.length := by
    rw [List.length_flatMap]
    simp [ChunkInfo.length_encode, mul_comm]
  have size := Coding.length_encode_size dataMap.infos.length
  have whole : (DataMapLevel.bincode.encode (.additional dataMap)).length =
      4 + ((Coding.size.encode dataMap.infos.length).length +
        (dataMap.infos.flatMap ChunkInfo.bincode.encode).length) := by
    simp [DataMapLevel.bincode, Coding.retract, Coding.pair, Coding.u32LittleEndian, Coding.vec]
  omega

theorem FileChunk.length_encode (chunk : FileChunk) : chunk.value.length ≤ (FileChunk.bincode.encode chunk).length ∧
      (FileChunk.bincode.encode chunk).length ≤ 8 + 2 * chunk.value.length := by
  have size := Coding.length_encode_size chunk.value.length
  have whole : (FileChunk.bincode.encode chunk).length =
      (Coding.size.encode chunk.value.length).length + chunk.value.length := by
    simp [FileChunk.bincode, Coding.retract, Coding.vec, Coding.byte, List.flatMap_singleton']
  omega

/-! ## Files and errors -/

/-- What files use of `xor_name` and `self_encryption`. -/
structure FileScheme where
  /-- The errors of `self_encryption`. -/
  EncryptionError : Type
  QueryError : Type
  fromContent : List UInt8 → XorName
  minEncryptableBytes : Nat
  maxChunkSize : Nat
  encrypt : List UInt8 → Except EncryptionError (DataMap × List EncryptedChunk)
  decryptFullSet : DataMap → List EncryptedChunk → Except EncryptionError (List UInt8)

/-- `sn_client::Error`, as far as files are concerned. -/
inductive FileError (F : FileScheme) where
  | bincode
  | selfEncryption (error : F.EncryptionError)
  | tooSmallForSelfEncryption (size minimum : Nat)
  | tooLargeAsSmallFile (size maximum : Nat)
  | emptyFileProvided
  | smallFilePaddingNeeded (size : Nat)
  | notAllDataWasChunked (expected chunked : Nat)
  | notEnoughChunksRetrieved (expected retrieved : Nat)
  | query (error : F.QueryError)

namespace FileScheme

variable (F : FileScheme)

def name (chunk : FileChunk) : XorName := F.fromContent chunk.value

/-- `bincode::deserialize`, which accepts trailing bytes. -/
def deserialize {α : Type} (coding : Coding α) (bytes : List UInt8) : Except (FileError F) α :=
  match coding.decode bytes with
  | some (value, _) => .ok value
  | none => .error .bincode

/-! ## Storing -/

def toChunk (chunkContent : List UInt8) : FileChunk := ⟨chunkContent⟩

/-- The loop of `pack`, for so many turns at most. -/
def packLoop : Nat → List UInt8 → List FileChunk →
    Option (Except (FileError F) (XorName × List FileChunk))
  | 0, _, _ => none
  | turns + 1, chunkContent, chunks =>
    let chunk := toChunk chunkContent
    if F.maxChunkSize ≥ chunk.value.length then
      some (.ok (F.name chunk, chunks.reverse ++ [chunk]))
    else
      let serializedChunk := FileChunk.bincode.encode chunk
      match F.encrypt serializedChunk with
      | .error error => some (.error (.selfEncryption error))
      | .ok (dataMap, nextEncryptedChunks) =>
        packLoop turns (DataMapLevel.bincode.encode (.additional dataMap))
          (nextEncryptedChunks.map (toChunk ·.content) ++ chunks)

/-- `pack` — the name of the head chunk, and all chunks. -/
def pack (turns : Nat) (dataMap : DataMap) (encryptedChunks : List EncryptedChunk) :
    Option (Except (FileError F) (XorName × List FileChunk)) :=
  match F.packLoop turns (DataMapLevel.bincode.encode (.first dataMap)) [] with
  | none => none
  | some (.error error) => some (.error error)
  | some (.ok (address, additionalChunks)) =>
    let expectedTotal := encryptedChunks.length + additionalChunks.length
    let allChunks := encryptedChunks.map (toChunk ·.content) ++ additionalChunks
    if expectedTotal > allChunks.length then
      some (.error (.notAllDataWasChunked expectedTotal allChunks.length))
    else some (.ok (address, allChunks))

def encryptLarge (turns : Nat) (data : List UInt8) :
    Option (Except (FileError F) (XorName × List FileChunk)) :=
  match F.encrypt data with
  | .error error => some (.error (.selfEncryption error))
  | .ok (dataMap, encryptedChunks) => F.pack turns dataMap encryptedChunks

/-- `LargeFile::new`. -/
def largeFile (bytes : List UInt8) : Except (FileError F) (List UInt8) :=
  if F.minEncryptableBytes > bytes.length then
    .error (.tooSmallForSelfEncryption bytes.length F.minEncryptableBytes)
  else .ok bytes

/-- `SmallFile::new`. -/
def smallFile (bytes : List UInt8) : Except (FileError F) (List UInt8) :=
  if bytes.length ≥ F.minEncryptableBytes then
    .error (.tooLargeAsSmallFile bytes.length (F.minEncryptableBytes - 1))
  else if bytes.isEmpty then .error .emptyFileProvided
  else .ok bytes

def packageSmall (bytes : List UInt8) : Except (FileError F) FileChunk :=
  let chunk := toChunk bytes
  if chunk.value.length ≥ F.minEncryptableBytes then .error (.smallFilePaddingNeeded chunk.value.length)
  else .ok chunk

/-- `Client::chunk_bytes` — the address and the chunks of a file. -/
def chunkBytes (turns : Nat) (bytes : List UInt8) :
    Option (Except (FileError F) (XorName × List FileChunk)) :=
  match F.largeFile bytes with
  | .ok file => F.encryptLarge turns file
  | .error (.tooSmallForSelfEncryption _ _) =>
    match F.smallFile bytes with
    | .error error => some (.error error)
    | .ok file =>
      match F.packageSmall file with
      | .error error => some (.error error)
      | .ok chunk => some (.ok (F.name chunk, [chunk]))
  | .error error => some (.error error)

/-! ## Reading -/

/-- `Client::get_chunk` — what the cache or the network has under a name. -/
abbrev Network : Type := XorName → Except F.QueryError FileChunk

variable {F} (network : F.Network)

/-- `Client::try_get_chunks`. The batches are retrieved one after the other, and errors are left out. -/
def tryGetChunks (chunksInfo : List ChunkInfo) : Except (FileError F) (List EncryptedChunk) :=
  let expectedCount := chunksInfo.length
  let retrievedChunks := chunksInfo.filterMap fun chunkInfo =>
    (network chunkInfo.dstHash).toOption.map fun chunk => ⟨chunkInfo.index, chunk.value⟩
  if expectedCount > retrievedChunks.length then
    .error (.notEnoughChunksRetrieved expectedCount retrievedChunks.length)
  else .ok retrievedChunks

def readAll (dataMap : DataMap) : Except (FileError F) (List UInt8) :=
  match tryGetChunks network dataMap.infos with
  | .error error => .error error
  | .ok encryptedChunks =>
    match F.decryptFullSet dataMap encryptedChunks with
    | .error error => .error (.selfEncryption error)
    | .ok bytes => .ok bytes

/-- `Client::unpack_chunk`, for so many turns of its loop at most. -/
def unpackChunk : Nat → FileChunk → Option (Except (FileError F) DataMap)
  | 0, _ => none
  | turns + 1, chunk =>
    match F.deserialize DataMapLevel.bincode chunk.value with
    | .error error => some (.error error)
    | .ok (.first dataMap) => some (.ok dataMap)
    | .ok (.additional dataMap) =>
      match readAll network dataMap with
      | .error error => some (.error error)
      | .ok serializedChunk =>
        match F.deserialize FileChunk.bincode serializedChunk with
        | .error error => some (.error error)
        | .ok chunk => unpackChunk turns chunk

def readBytes (turns : Nat) (address : XorName) : Option (Except (FileError F) (List UInt8)) :=
  match network address with
  | .error error => some (.error (.query error))
  | .ok chunk =>
    match unpackChunk network turns chunk with
    | none => none
    | some (.ok dataMap) => some (readAll network dataMap)
    | some (.error _) => some (.ok chunk.value)

/-! ## Round trips -/

/-- What is known of `self_encryption`. -/
structure Lawful (F : FileScheme) : Prop where
  encrypts : ∀ {data}, F.minEncryptableBytes ≤ data.length → ∃ dataMap chunks,
    F.encrypt data = .ok (dataMap, chunks)
  infos : ∀ {data dataMap chunks}, F.encrypt data = .ok (dataMap, chunks) →
    (dataMap.infos.map fun info => (info.index, info.dstHash)).Perm
      (chunks.map fun chunk => (chunk.index, F.fromContent chunk.content))
  decrypts : ∀ {data dataMap chunks retrieved}, F.encrypt data = .ok (dataMap, chunks) →
    retrieved.Perm chunks → F.decryptFullSet dataMap retrieved = .ok data
  few : ∀ {data dataMap chunks}, F.encrypt data = .ok (dataMap, chunks) →
    dataMap.infos.length ≤ 3 + data.length / F.maxChunkSize
  min_le_max : F.minEncryptableBytes ≤ F.maxChunkSize
  large : 1024 ≤ F.maxChunkSize

variable {network}

def Holds (network : F.Network) (chunks : List FileChunk) : Prop :=
  ∀ chunk ∈ chunks, network (F.name chunk) = .ok chunk

theorem Holds.mono {chunks more : List FileChunk} (holds : Holds network more) (among : chunks ⊆ more) :
    Holds network chunks :=
  fun chunk mem => holds chunk (among mem)

variable {data : List UInt8} {dataMap : DataMap} {chunks : List EncryptedChunk} {chunk : FileChunk} {turns : Nat}
  {content : List UInt8} {address : XorName} {result : Except (FileError F) DataMap}

def retrieve (network : F.Network) (key : UInt64 × XorName) : Option EncryptedChunk :=
  (network key.2).toOption.map fun chunk => ⟨key.1, chunk.value⟩

section

variable (lawful : F.Lawful) (encrypted : F.encrypt data = .ok (dataMap, chunks))
  (holds : Holds network (chunks.map (toChunk ·.content)))
include lawful encrypted holds

theorem tryGetChunks_of_encrypt :
    ∃ retrieved, tryGetChunks network dataMap.infos = .ok retrieved ∧ retrieved.Perm chunks := by
  have found : ∀ chunk ∈ chunks,
      retrieve network (chunk.index, F.fromContent chunk.content) = some chunk := by
    intro chunk mem
    have held := holds (toChunk chunk.content) (List.mem_map_of_mem mem)
    rw [name, toChunk] at held
    simp only [retrieve, held, Except.toOption, Option.map_some]
  have perm := (lawful.infos encrypted).filterMap (retrieve network)
  rw [List.filterMap_map, List.filterMap_map] at perm
  have all : chunks.filterMap (retrieve network ∘ fun chunk =>
      (chunk.index, F.fromContent chunk.content)) = chunks :=
    (List.filterMap_congr found).trans List.filterMap_some
  rw [all] at perm
  have count : dataMap.infos.length = chunks.length := by
    simpa using (lawful.infos encrypted).length_eq
  refine ⟨_, ?_, perm⟩
  rw [tryGetChunks, if_neg]
  · rfl
  · rw [count, ← perm.length_eq]
    exact Nat.lt_irrefl _

theorem readAll_of_encrypt : readAll network dataMap = .ok data := by
  obtain ⟨retrieved, got, perm⟩ := tryGetChunks_of_encrypt lawful encrypted holds
  rw [readAll, got]
  simp only [lawful.decrypts encrypted perm]

end

theorem deserialize_encode {α : Type} (coding : Coding α) (value : α) :
    F.deserialize coding (coding.encode value) = .ok value := by
  have decoded := coding.decode_encode value []
  rw [List.append_nil] at decoded
  rw [deserialize, decoded]

theorem unpackChunk_additional (lawful : F.Lawful) (encrypted : F.encrypt (FileChunk.bincode.encode chunk) = .ok (dataMap, chunks))
    (holds : Holds network (chunks.map (toChunk ·.content))) :
    unpackChunk network (turns + 1) (toChunk (DataMapLevel.bincode.encode (.additional dataMap))) =
      unpackChunk network turns chunk := by
  rw [unpackChunk, toChunk]
  simp only [deserialize_encode, readAll_of_encrypt lawful encrypted holds]

theorem unpackChunk_of_packLoop (lawful : F.Lawful) {before all : List FileChunk} (packed : F.packLoop turns content before = some (.ok (address, all))) :
    before ⊆ all ∧ ∃ head ∈ all, address = F.name head ∧ ∃ levels, ∀ network : F.Network, Holds network all → ∀ more,
        unpackChunk network (more + levels) head = unpackChunk network more (toChunk content) := by
  induction turns generalizing content before with
  | zero => cases packed
  | succ turns ih =>
    rw [packLoop] at packed
    dsimp only at packed
    split at packed
    · obtain ⟨rfl, rfl⟩ := Prod.mk.inj (Except.ok.inj (Option.some.inj packed))
      refine ⟨?_, toChunk content, by simp, rfl, 0, fun _ _ _ => rfl⟩
      intro chunk mem
      exact List.mem_append_left _ (List.mem_reverse.mpr mem)
    · split at packed
      · cases packed
      · rename_i dataMap chunks encrypted
        obtain ⟨among, head, inside, named, levels, unpacks⟩ := ih packed
        refine ⟨fun chunk mem => among (List.mem_append_right _ mem), head, inside, named, levels + 1, ?_⟩
        intro network holds more
        have held := holds.mono (fun chunk mem => among (List.mem_append_left _ mem))
        rw [← Nat.add_assoc, Nat.add_right_comm, unpacks network holds,
          unpackChunk_additional lawful encrypted held]

theorem packLoop_fits (fits : content.length ≤ F.maxChunkSize) (turns : Nat)
    (before : List FileChunk) : F.packLoop (turns + 1) content before =
      some (.ok (F.name (toChunk content), before.reverse ++ [toChunk content])) :=
  if_pos fits

theorem packLoop_encrypts (large : F.maxChunkSize < content.length)
    (encrypted : F.encrypt (FileChunk.bincode.encode (toChunk content)) = .ok (dataMap, chunks))
    (turns : Nat) (before : List FileChunk) : F.packLoop (turns + 1) content before =
      F.packLoop turns (DataMapLevel.bincode.encode (.additional dataMap))
        (chunks.map (toChunk ·.content) ++ before) := by
  have not_fits : ¬ F.maxChunkSize ≥ (toChunk content).value.length := Nat.not_le_of_lt large
  rw [packLoop]
  simp only [if_neg not_fits, encrypted]

theorem packLoop_ends (lawful : F.Lawful) (content : List UInt8) :
    ∃ needed, ∀ before, ∃ result, ∀ turns, needed ≤ turns → F.packLoop turns content before = some (.ok result) := by
  induction length : content.length using Nat.strong_induction_on generalizing content with
  | _ size ih =>
    subst length
    by_cases fits : content.length ≤ F.maxChunkSize
    · refine ⟨1, fun before => ⟨(F.name (toChunk content), before.reverse ++ [toChunk content]), ?_⟩⟩
      intro turns enough
      obtain ⟨turns, rfl⟩ := Nat.exists_eq_add_of_le' enough
      exact packLoop_fits fits turns before
    · have large := Nat.lt_of_not_le fits
      obtain ⟨longer, shorter⟩ : content.length ≤ (FileChunk.bincode.encode (toChunk content)).length ∧
        (FileChunk.bincode.encode (toChunk content)).length ≤ 8 + 2 * content.length :=
        (toChunk content).length_encode
      have least : F.minEncryptableBytes ≤ (FileChunk.bincode.encode (toChunk content)).length := by
        have min_le_max := lawful.min_le_max
        omega
      obtain ⟨dataMap, chunks, encrypted⟩ := lawful.encrypts least
      have smaller : (DataMapLevel.bincode.encode (.additional dataMap)).length < content.length := by
        have not_tiny := lawful.large
        have few := lawful.few encrypted
        have level := DataMapLevel.length_encode dataMap
        have quotient : (FileChunk.bincode.encode (toChunk content)).length / F.maxChunkSize ≤
          (8 + 2 * content.length) / 1024 := Nat.div_le_div shorter not_tiny (by decide)
        omega
      obtain ⟨needed, ends⟩ := ih _ smaller _ rfl
      refine ⟨needed + 1, fun before => ?_⟩
      obtain ⟨result, returns⟩ := ends (chunks.map (toChunk ·.content) ++ before)
      refine ⟨result, fun turns enough => ?_⟩
      obtain ⟨turns, rfl⟩ := Nat.exists_eq_add_of_le' (Nat.le_of_add_left_le enough)
      rw [packLoop_encrypts large encrypted]
      exact returns turns (Nat.le_of_add_le_add_right enough)

theorem encryptLarge_ends (lawful : F.Lawful) (large : F.minEncryptableBytes ≤ data.length) :
    ∃ address chunks needed, (∀ turns, needed ≤ turns → F.encryptLarge turns data = some (.ok (address, chunks))) ∧
      ∃ dataMap encryptedChunks, F.encrypt data = .ok (dataMap, encryptedChunks) ∧
        encryptedChunks.map (toChunk ·.content) ⊆ chunks ∧
        ∃ head ∈ chunks, address = F.name head ∧ ∀ network : F.Network, Holds network chunks →
          ∃ turns, unpackChunk network turns head = some (.ok dataMap) := by
  obtain ⟨dataMap, encryptedChunks, encrypted⟩ := lawful.encrypts large
  obtain ⟨needed, ends⟩ := packLoop_ends lawful (DataMapLevel.bincode.encode (.first dataMap))
  obtain ⟨⟨address, additional⟩, packed⟩ := ends []
  obtain ⟨-, head, inside, named, levels, unpacks⟩ :=
    unpackChunk_of_packLoop lawful (packed needed (Nat.le_refl _))
  refine ⟨address, encryptedChunks.map (toChunk ·.content) ++ additional, needed, ?_, dataMap,
    encryptedChunks, encrypted, List.subset_append_left _ _, head, List.mem_append_right _ inside, named, ?_⟩
  · intro turns enough
    simp only [encryptLarge, encrypted, pack, packed turns enough]
    rw [if_neg]
    simp
  · intro network holds
    refine ⟨1 + levels, ?_⟩
    rw [unpacks network (holds.mono (List.subset_append_right _ _)), unpackChunk, toChunk]
    simp only [deserialize_encode]

/-! ## What a chunk is taken for -/

/-- Following the levels of data maps that a chunk starts with ends, at the data map of a file or without one.
-/
inductive Unpacks (network : F.Network) : FileChunk → Option DataMap → Prop where
  | noLevel {chunk : FileChunk} {error : FileError F}
    (decoded : F.deserialize DataMapLevel.bincode chunk.value = .error error) : Unpacks network chunk none
  | first {chunk : FileChunk} {dataMap : DataMap}
    (decoded : F.deserialize DataMapLevel.bincode chunk.value = .ok (.first dataMap)) :
    Unpacks network chunk (some dataMap)
  /-- It starts with an additional level, which the network does not have the data for. -/
  | noData {chunk : FileChunk} {dataMap : DataMap} {error : FileError F}
    (decoded : F.deserialize DataMapLevel.bincode chunk.value = .ok (.additional dataMap))
    (read : readAll network dataMap = .error error) : Unpacks network chunk none
  /-- It starts with an additional level, of data that does not start with a chunk. -/
  | noChunk {chunk : FileChunk} {dataMap : DataMap} {bytes : List UInt8} {error : FileError F}
    (decoded : F.deserialize DataMapLevel.bincode chunk.value = .ok (.additional dataMap))
    (read : readAll network dataMap = .ok bytes)
    (parsed : F.deserialize FileChunk.bincode bytes = .error error) : Unpacks network chunk none
  /-- It starts with an additional level, of a chunk that is followed in turn. -/
  | next {chunk inner : FileChunk} {dataMap : DataMap} {bytes : List UInt8} {found : Option DataMap}
    (decoded : F.deserialize DataMapLevel.bincode chunk.value = .ok (.additional dataMap))
    (read : readAll network dataMap = .ok bytes)
    (parsed : F.deserialize FileChunk.bincode bytes = .ok inner)
    (rest : Unpacks network inner found) : Unpacks network chunk found

def UnpackEnds (network : F.Network) (chunk : FileChunk) (result : Except (FileError F) DataMap) : Prop :=
  ∃ needed, ∀ turns, needed ≤ turns → unpackChunk network turns chunk = some result

theorem unpackEnds_of_eq_some (unpacked : unpackChunk network turns chunk = some result) : UnpackEnds network chunk result := by
  refine ⟨turns, fun more enough => ?_⟩
  induction turns generalizing chunk more with
  | zero => cases unpacked
  | succ turns ih =>
    obtain ⟨more, rfl⟩ := Nat.exists_eq_add_of_le' (Nat.le_of_add_left_le enough)
    rw [unpackChunk] at unpacked ⊢
    split at unpacked <;> try exact unpacked
    split at unpacked <;> try exact unpacked
    split at unpacked <;> try exact unpacked
    exact ih unpacked more (Nat.le_of_add_le_add_right enough)

theorem unpacks_of_eq_some (unpacked : unpackChunk network turns chunk = some result) : Unpacks network chunk result.toOption := by
  induction turns generalizing chunk with
  | zero => cases unpacked
  | succ turns ih =>
    rw [unpackChunk] at unpacked
    split at unpacked
    · rename_i decoded
      obtain rfl := Option.some.inj unpacked
      exact .noLevel decoded
    · rename_i decoded
      obtain rfl := Option.some.inj unpacked
      exact .first decoded
    · rename_i decoded
      split at unpacked
      · rename_i read
        obtain rfl := Option.some.inj unpacked
        exact .noData decoded read
      · rename_i read
        split at unpacked
        · rename_i parsed
          obtain rfl := Option.some.inj unpacked
          exact .noChunk decoded read parsed
        · rename_i parsed
          exact .next decoded read parsed (ih unpacked)

theorem Unpacks.ends {found : Option DataMap} (unpacks : Unpacks network chunk found) :
    ∃ turns result, unpackChunk network turns chunk = some result ∧ result.toOption = found := by
  induction unpacks with
  | noLevel decoded => exact ⟨1, _, by rw [unpackChunk, decoded], rfl⟩
  | first decoded => exact ⟨1, _, by rw [unpackChunk, decoded], rfl⟩
  | @noData _ _ error decoded read =>
    refine ⟨1, .error error, ?_, rfl⟩
    rw [unpackChunk, decoded]
    dsimp only
    rw [read]
  | @noChunk _ _ _ error decoded read parsed =>
    refine ⟨1, .error error, ?_, rfl⟩
    rw [unpackChunk, decoded]
    dsimp only
    rw [read]
    dsimp only
    rw [parsed]
  | next decoded read parsed rest ih =>
    obtain ⟨turns, result, unpacked, same⟩ := ih
    refine ⟨turns + 1, result, ?_, same⟩
    rw [unpackChunk, decoded]
    dsimp only
    rw [read]
    dsimp only
    rw [parsed]
    exact unpacked

theorem Unpacks.unique {one other : Option DataMap} (first : Unpacks network chunk one)
    (second : Unpacks network chunk other) : one = other := by
  obtain ⟨turns, result, unpacked, rfl⟩ := first.ends
  obtain ⟨turns', result', unpacked', rfl⟩ := second.ends
  obtain ⟨needed, ends⟩ := unpackEnds_of_eq_some unpacked
  obtain ⟨needed', ends'⟩ := unpackEnds_of_eq_some unpacked'
  have same := (ends (needed + needed') (Nat.le_add_right _ _)).symm.trans
    (ends' (needed + needed') (Nat.le_add_left _ _))
  rw [Option.some.inj same]

def ReadsAs (network : F.Network) (address : XorName) (bytes : List UInt8) : Prop :=
  ∃ needed, ∀ turns, needed ≤ turns → readBytes network turns address = some (.ok bytes)

def contentOf (network : F.Network) (head : FileChunk) :
    Except (FileError F) DataMap → Except (FileError F) (List UInt8)
  | .ok dataMap => readAll network dataMap
  | .error _ => .ok head.value

theorem readBytes_of_unpackEnds (held : network address = .ok chunk)
    (ends : UnpackEnds network chunk result) : ∃ needed, ∀ turns, needed ≤ turns →
      readBytes network turns address = some (contentOf network chunk result) := by
  obtain ⟨needed, unpacked⟩ := ends
  refine ⟨needed, fun turns enough => ?_⟩
  simp only [readBytes, held, unpacked turns enough]
  cases result <;> rfl

theorem readsAs_value_iff (held : network address = .ok chunk) :
    ReadsAs network address chunk.value ↔ Unpacks network chunk none ∨
      ∃ dataMap, Unpacks network chunk (some dataMap) ∧ readAll network dataMap = .ok chunk.value := by
  constructor
  · rintro ⟨needed, reads⟩
    have read := reads needed (Nat.le_refl _)
    simp only [readBytes, held] at read
    split at read
    · cases read
    · rename_i dataMap unpacked
      exact Or.inr ⟨dataMap, unpacks_of_eq_some unpacked, Option.some.inj read⟩
    · rename_i unpacked
      exact Or.inl (unpacks_of_eq_some unpacked)
  · rintro (unpacks | ⟨dataMap, unpacks, read⟩)
    · obtain ⟨turns, result, unpacked, none⟩ := unpacks.ends
      cases result with
      | ok dataMap => cases none
      | error error => exact readBytes_of_unpackEnds held (unpackEnds_of_eq_some unpacked)
    · obtain ⟨turns, result, unpacked, found⟩ := unpacks.ends
      cases result with
      | error error => cases found
      | ok unpackedMap =>
        obtain rfl : unpackedMap = dataMap := Option.some.inj found
        obtain ⟨needed, reads⟩ := readBytes_of_unpackEnds held (unpackEnds_of_eq_some unpacked)
        exact ⟨needed, fun turns enough => (reads turns enough).trans (congrArg some read)⟩

theorem chunkBytes_large (large : F.minEncryptableBytes ≤ data.length) (turns : Nat) :
    F.chunkBytes turns data = F.encryptLarge turns data := by
  rw [chunkBytes, largeFile, if_neg (Nat.not_lt_of_le large)]

theorem chunkBytes_small (nonempty : data ≠ []) (small : data.length < F.minEncryptableBytes) (turns : Nat) :
    F.chunkBytes turns data = some (.ok (F.name ⟨data⟩, [⟨data⟩])) := by
  have notEmpty : ¬ data.isEmpty = true := by simpa using nonempty
  have accepted : F.smallFile data = .ok data := by
    rw [smallFile, if_neg (Nat.not_le_of_lt small), if_neg notEmpty]
  have packaged : F.packageSmall data = .ok ⟨data⟩ := if_neg (Nat.not_le_of_lt small)
  rw [chunkBytes, largeFile, if_pos small]
  simp only [accepted, packaged]

def Stored (network : F.Network) (address : XorName) (data : List UInt8) : Prop :=
  ∃ chunks needed, (∀ turns, needed ≤ turns → F.chunkBytes turns data = some (.ok (address, chunks))) ∧
    Holds network chunks

/-- The head chunk of a stored file is the file, or leads to its data map. -/
inductive Stored.Head (network : F.Network) (data : List UInt8) : FileChunk → Prop where
  | small (small : data.length < F.minEncryptableBytes) : Stored.Head network data ⟨data⟩
  | large {head : FileChunk} {dataMap : DataMap} {chunks : List EncryptedChunk}
    (large : F.minEncryptableBytes ≤ data.length) (encrypted : F.encrypt data = .ok (dataMap, chunks))
    (holds : Holds network (chunks.map (toChunk ·.content)))
    (unpacks : Unpacks network head (some dataMap)) : Stored.Head network data head

theorem chunkBytes_ends (lawful : F.Lawful) (proper : F.minEncryptableBytes ≤ data.length ∨ data ≠ []) :
    ∃ address chunks needed, (∀ turns, needed ≤ turns → F.chunkBytes turns data = some (.ok (address, chunks))) ∧
      ∀ network : F.Network, Holds network chunks →
        ∃ head, network address = .ok head ∧ Stored.Head network data head := by
  by_cases large : F.minEncryptableBytes ≤ data.length
  · obtain ⟨address, chunks, needed, chunked, dataMap, encryptedChunks, encrypted, among, head, inside, rfl,
      unpacks⟩ := encryptLarge_ends lawful large
    refine ⟨F.name head, chunks, needed, ?_, ?_⟩
    · intro turns enough
      rw [chunkBytes_large large]
      exact chunked turns enough
    · intro network holds
      obtain ⟨_, unpacked⟩ := unpacks network holds
      exact ⟨head, holds head inside,
        .large large encrypted (holds.mono among) (unpacks_of_eq_some unpacked)⟩
  · have small := Nat.lt_of_not_le large
    refine ⟨F.name ⟨data⟩, [⟨data⟩], 0, fun turns _ =>
      chunkBytes_small (proper.resolve_left large) small turns, ?_⟩
    intro network holds
    exact ⟨⟨data⟩, holds ⟨data⟩ (List.mem_singleton.mpr rfl), .small small⟩

/-- A stored file is read back exactly when it is large, or it is not taken for a data map, or the data map it
is taken for leads to the file itself. -/
theorem Stored.Head.readsAs_iff (lawful : F.Lawful) {head : FileChunk}
    (held : network address = .ok head) (isHead : Stored.Head network data head) :
    ReadsAs network address data ↔ F.minEncryptableBytes ≤ data.length ∨ Unpacks network ⟨data⟩ none ∨
      ∃ dataMap, Unpacks network ⟨data⟩ (some dataMap) ∧ readAll network dataMap = .ok data := by
  cases isHead with
  | small small =>
    rw [or_iff_right (Nat.not_le_of_lt small)]
    exact readsAs_value_iff held
  | large large encrypted holds unpacks =>
    refine iff_of_true ?_ (Or.inl large)
    obtain ⟨_, result, unpacked, found⟩ := unpacks.ends
    cases result with
    | error error => cases found
    | ok dataMap =>
      obtain rfl := Option.some.inj found
      obtain ⟨needed, returns⟩ := readBytes_of_unpackEnds held (unpackEnds_of_eq_some unpacked)
      have read := readAll_of_encrypt lawful encrypted holds
      exact ⟨needed, fun turns enough => (returns turns enough).trans (congrArg some read)⟩

/-- A file is chunked, whatever its size. When the network holds its chunks it is read back exactly when it is
of a size for self-encryption, or it is not taken for a data map, or the data map it is taken for leads to the
file itself. -/
theorem chunkBytes_readBytes_iff (lawful : F.Lawful) (nonempty : data ≠ []) :
    ∃ address chunks needed, (∀ turns, needed ≤ turns → F.chunkBytes turns data = some (.ok (address, chunks))) ∧
      ∀ network : F.Network, Holds network chunks → (ReadsAs network address data ↔
        F.minEncryptableBytes ≤ data.length ∨ Unpacks network ⟨data⟩ none ∨
          ∃ dataMap, Unpacks network ⟨data⟩ (some dataMap) ∧ readAll network dataMap = .ok data) := by
  obtain ⟨address, chunks, needed, chunked, heads⟩ := chunkBytes_ends lawful (Or.inr nonempty)
  refine ⟨address, chunks, needed, chunked, fun network holds => ?_⟩
  obtain ⟨head, held, isHead⟩ := heads network holds
  exact isHead.readsAs_iff lawful held

theorem Stored.exists_head (lawful : F.Lawful) (stored : Stored network address data) :
    ∃ head, network address = .ok head ∧ Stored.Head network data head := by
  obtain ⟨chunks, needed, chunked, holds⟩ := stored
  have proper : F.minEncryptableBytes ≤ data.length ∨ data ≠ [] := by
    by_cases large : F.minEncryptableBytes ≤ data.length
    · exact Or.inl large
    · refine Or.inr ?_
      rintro rfl
      have refused := chunked needed (Nat.le_refl _)
      rw [chunkBytes, largeFile, if_pos (Nat.lt_of_not_le large), smallFile, if_neg large] at refused
      cases refused
  obtain ⟨address', chunks', needed', chunked', heads⟩ := chunkBytes_ends lawful proper
  have same := (chunked (needed + needed') (Nat.le_add_right _ _)).symm.trans
    (chunked' (needed + needed') (Nat.le_add_left _ _))
  obtain ⟨rfl, rfl⟩ := Prod.mk.inj (Except.ok.inj (Option.some.inj same))
  exact heads network holds

/-! ## Sample files -/

def sampleContentName (bytes : List UInt8) : XorName :=
  ⟨(bytes.map (· != 0)).takeD 256 false, List.takeD_length ..⟩

abbrev sampleFiles : FileScheme where
  EncryptionError := Unit
  QueryError := Unit
  fromContent := sampleContentName
  minEncryptableBytes := 3072
  maxChunkSize := 524288
  encrypt data :=
    if 3072 ≤ data.length then
      .ok (⟨[⟨0, sampleContentName data, sampleContentName data, .ofNat data.length⟩]⟩, [⟨0, data⟩])
    else .error ()
  decryptFullSet _ chunks := .ok (chunks.flatMap EncryptedChunk.content)

theorem sampleFiles_encrypt {data : List UInt8} {dataMap : DataMap} {chunks : List EncryptedChunk}
    (encrypted : sampleFiles.encrypt data = .ok (dataMap, chunks)) :
    dataMap = ⟨[⟨0, sampleContentName data, sampleContentName data, .ofNat data.length⟩]⟩ ∧
      chunks = [⟨0, data⟩] := by
  simp only [sampleFiles] at encrypted
  split at encrypted
  · obtain ⟨rfl, rfl⟩ := Prod.mk.inj (Except.ok.inj encrypted)
    exact ⟨rfl, rfl⟩
  · cases encrypted

theorem sampleFiles_lawful : sampleFiles.Lawful where
  encrypts {data} least := ⟨_, _, if_pos least⟩
  infos encrypted := by
    obtain ⟨rfl, rfl⟩ := sampleFiles_encrypt encrypted
    exact List.Perm.refl _
  decrypts encrypted perm := by
    obtain ⟨rfl, rfl⟩ := sampleFiles_encrypt encrypted
    obtain rfl := List.perm_singleton.mp perm
    simp
  few encrypted := by
    obtain ⟨rfl, rfl⟩ := sampleFiles_encrypt encrypted
    exact Nat.le_trans (by decide : 1 ≤ 3) (Nat.le_add_right 3 _)
  min_le_max := by decide
  large := by decide

theorem chunkBytes_readBytes_sampleFile : sampleFiles.Lawful ∧ ∃ address chunks needed, (∀ turns, needed ≤ turns →
      sampleFiles.chunkBytes turns [7] = some (.ok (address, chunks))) ∧
      ∀ network : sampleFiles.Network, Holds network chunks → ReadsAs network address [7] := by
  obtain ⟨address, chunks, needed, chunked, reads⟩ :=
    chunkBytes_readBytes_iff sampleFiles_lawful (List.cons_ne_nil (7 : UInt8) [])
  refine ⟨sampleFiles_lawful, address, chunks, needed, chunked, fun network holds => ?_⟩
  exact (reads network holds).mpr (Or.inr (Or.inl (.noLevel rfl)))

/-- A file of twelve zeros is chunked, and taken for the empty data map when it is read. -/
theorem readBytes_zeros : sampleFiles.Lawful ∧ (∀ turns, sampleFiles.chunkBytes turns (List.replicate 12 0) =
      some (.ok (sampleContentName (List.replicate 12 0), [⟨List.replicate 12 0⟩]))) ∧
      ∀ network : sampleFiles.Network, Holds network [⟨List.replicate 12 0⟩] → ∀ turns,
        readBytes network (turns + 1) (sampleContentName (List.replicate 12 0)) = some (.ok []) := by
  refine ⟨sampleFiles_lawful, fun turns => chunkBytes_small (by decide) (by decide) turns, ?_⟩
  intro network holds turns
  have held : network (sampleContentName (List.replicate 12 0)) = .ok ⟨List.replicate 12 0⟩ :=
    holds _ (List.mem_singleton.mpr rfl)
  have decoded : sampleFiles.deserialize DataMapLevel.bincode (List.replicate 12 0) =
    .ok (.first ⟨[]⟩) := rfl
  rw [readBytes, held]
  simp only [unpackChunk, decoded]
  rfl

end FileScheme

end SafeNetwork

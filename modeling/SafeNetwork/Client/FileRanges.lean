import SafeNetwork.Client.Files
import SafeNetwork.Types.Fees

/-!
# Ranges of files

`Client::read_from` reads some bytes of a file from a position on, and `Safe::get_bytes` of `sn_api` those of a
range with a start and an end. A large file is read through `self_encryption`, which says which chunks are
needed. A small file is split at the position, which panics when the position is after its end. The length of
a range is the difference of its end and its start, which underflows when the range is reversed.
-/

namespace SafeNetwork

def DataMap.fileSize (self : DataMap) : Nat := (self.infos.map (·.srcSize.toNat)).sum

/-- `SeekInfo` — the chunks that a range of a file is in. -/
structure SeekInfo where
  start : Nat
  last : Nat
  relativePos : Nat

/-- What ranges of files use of `self_encryption`. -/
structure SeekScheme extends FileScheme where
  /-- `self_encryption::seek_info` for the size of a file, a position and a length. -/
  seekInfo : Nat → Nat → Nat → SeekInfo
  /-- `self_encryption::decrypt_range` for a position in the first chunk and a length. -/
  decryptRange : DataMap → List EncryptedChunk → Nat → Nat →
    Except EncryptionError (List UInt8)

namespace SeekScheme

open FileScheme

variable {S : SeekScheme} (network : S.Network)

/-- The places of the chunks from one index to another, `none` when an index is out of range. -/
def pickInfos (infos : List ChunkInfo) (start last : Nat) : Option (List ChunkInfo) :=
  if last < start ∨ last < infos.length then some ((infos.take (last + 1)).drop start) else none

def seek (dataMap : DataMap) (pos len : Nat) :
    Except Panic (Except (FileError S.toFileScheme) (List UInt8)) :=
  let info := S.seekInfo dataMap.fileSize pos len
  match pickInfos dataMap.infos info.start info.last with
  | none => .error .sliceOutOfRange
  | some infos =>
    match tryGetChunks network infos with
    | .error error => .ok (.error error)
    | .ok encryptedChunks =>
      match S.decryptRange dataMap encryptedChunks info.relativePos len with
      | .error error => .ok (.error (.selfEncryption error))
      | .ok bytes => .ok (.ok bytes)

/-- A small file from a position on, at most so many bytes. `Bytes::split_to` panics after the end. -/
def splitTo (bytes : List UInt8) (position length : Nat) :
    Except Panic (Except (FileError S.toFileScheme) (List UInt8)) :=
  if bytes.length < position then .error .sliceOutOfRange
  else .ok (.ok ((bytes.drop position).take length))

def readFrom (turns : Nat) (address : XorName) (position length : Nat) :
    Option (Except Panic (Except (FileError S.toFileScheme) (List UInt8))) :=
  match network address with
  | .error error => some (.ok (.error (.query error)))
  | .ok chunk =>
    match unpackChunk network turns chunk with
    | none => none
    | some (.ok dataMap) => some (seek network dataMap position length)
    | some (.error _) => some (splitTo chunk.value position length)

/-- `Range` of `sn_api`. -/
abbrev Range : Type := Option (Option UInt64 × Option UInt64)

/-- The difference of two numbers of 64 bits: one that is negative panics when overflows are checked, and
wraps around otherwise. -/
def checkedDifference (overflowChecks : Bool) (left right : UInt64) : Except Panic Nat :=
  if left < right ∧ overflowChecks = true then .error .arithmetic else .ok (left - right).toNat

/-- `Safe::get_bytes`, which `files_get` calls. -/
def getBytes (overflowChecks : Bool) (turns : Nat) (address : XorName) (range : Range) :
    Option (Except Panic (Except (FileError S.toFileScheme) (List UInt8))) :=
  match range with
  | none => (readBytes network turns address).map .ok
  | some (start, last) =>
    let start := start.getD 0
    match last with
    | none => readFrom network turns address start.toNat (2 ^ 64 - 1)
    | some last =>
      match checkedDifference overflowChecks last start with
      | .error panic => some (.error panic)
      | .ok len => readFrom network turns address start.toNat len

/-! ## What is known of `self_encryption` -/

def slice (data : List UInt8) (position length : Nat) : List UInt8 := (data.drop position).take length

/-- `self_encryption` finds the bytes of a range that starts inside the file. -/
structure Seeks (S : SeekScheme) : Prop extends S.toFileScheme.Lawful where
  inside : ∀ {data dataMap chunks}, S.encrypt data = .ok (dataMap, chunks) →
    ∀ position length, position < data.length →
      (S.seekInfo dataMap.fileSize position length).last < dataMap.infos.length
  range : ∀ {data dataMap chunks}, S.encrypt data = .ok (dataMap, chunks) →
    ∀ position length, position < data.length → ∀ infos retrieved,
      pickInfos dataMap.infos (S.seekInfo dataMap.fileSize position length).start
        (S.seekInfo dataMap.fileSize position length).last = some infos →
      retrieved ⊆ chunks →
      (retrieved.map fun chunk => (chunk.index, S.fromContent chunk.content)) =
        infos.map (fun info => (info.index, info.dstHash)) →
      S.decryptRange dataMap retrieved (S.seekInfo dataMap.fileSize position length).relativePos length =
        .ok (slice data position length)

/-! ## Seeking -/

variable {network} {data : List UInt8} {dataMap : DataMap} {chunks : List EncryptedChunk}
  {position length : Nat} {bytes : List UInt8} {infos : List ChunkInfo} {address : XorName} {head : FileChunk}
  {overflowChecks : Bool}

theorem tryGetChunks_of_forall {found : ChunkInfo → EncryptedChunk}
    (gets : ∀ info ∈ infos, retrieve network (info.index, info.dstHash) = some (found info)) :
    tryGetChunks network infos = .ok (infos.map found) := by
  have all : (infos.filterMap fun info => retrieve network (info.index, info.dstHash)) =
      infos.map found := by
    rw [List.filterMap_congr gets, ← List.filterMap_eq_map]
    rfl
  have count : ¬ infos.length > (infos.map found).length := by simp
  rw [← all] at count ⊢
  exact if_neg count

theorem tryGetChunks_of_subset (lawful : S.toFileScheme.Lawful) (encrypted : S.encrypt data = .ok (dataMap, chunks))
    (holds : Holds network (chunks.map (toChunk ·.content))) (among : infos ⊆ dataMap.infos) : ∃ retrieved, tryGetChunks network infos = .ok retrieved ∧ retrieved ⊆ chunks ∧
      (retrieved.map fun chunk => (chunk.index, S.fromContent chunk.content)) =
        infos.map (fun info => (info.index, info.dstHash)) := by
  have found : ∀ info : ChunkInfo, ∃ chunk : EncryptedChunk, info ∈ infos → chunk ∈ chunks ∧
      retrieve network (info.index, info.dstHash) = some chunk ∧
      (chunk.index, S.fromContent chunk.content) = (info.index, info.dstHash) := by
    intro info
    by_cases mem : info ∈ infos
    · have key : (info.index, info.dstHash) ∈
          chunks.map fun chunk => (chunk.index, S.fromContent chunk.content) :=
        (lawful.infos encrypted).subset (List.mem_map.mpr ⟨info, among mem, rfl⟩)
      obtain ⟨chunk, inside, same⟩ := List.mem_map.mp key
      have held := holds (toChunk chunk.content) (List.mem_map_of_mem inside)
      rw [name, toChunk] at held
      refine ⟨chunk, fun _ => ⟨inside, ?_, same⟩⟩
      rw [← same]
      simp only [retrieve, held, Except.toOption, Option.map_some]
    · exact ⟨⟨0, []⟩, fun inside => absurd inside mem⟩
  choose found gets using found
  refine ⟨infos.map found, tryGetChunks_of_forall fun info mem => (gets info mem).2.1, ?_, ?_⟩
  · intro chunk mem
    obtain ⟨info, inside, rfl⟩ := List.mem_map.mp mem
    exact (gets info inside).1
  · rw [List.map_map]
    exact List.map_congr_left fun info mem => (gets info mem).2.2

def SeeksTo (network : S.Network) (dataMap : DataMap) (position length : Nat) (bytes : List UInt8) : Prop :=
  ∃ infos retrieved,
    pickInfos dataMap.infos (S.seekInfo dataMap.fileSize position length).start
      (S.seekInfo dataMap.fileSize position length).last = some infos ∧
    tryGetChunks network infos = .ok retrieved ∧
    S.decryptRange dataMap retrieved (S.seekInfo dataMap.fileSize position length).relativePos length =
      .ok bytes

theorem seek_eq_ok_iff : seek network dataMap position length = .ok (.ok bytes) ↔
      SeeksTo network dataMap position length bytes := by
  constructor
  · intro sought
    simp only [seek] at sought
    split at sought
    · cases sought
    · rename_i picked
      split at sought
      · cases sought
      · rename_i retrieved
        split at sought
        · cases sought
        · rename_i decrypted
          obtain rfl := Except.ok.inj (Except.ok.inj sought)
          exact ⟨_, _, picked, retrieved, decrypted⟩
  · rintro ⟨infos, retrieved, picked, got, decrypted⟩
    simp only [seek, picked, got, decrypted]

theorem exists_pickInfos {start last : Nat} (inside : last < infos.length) :
    ∃ picked, pickInfos infos start last = some picked ∧ picked ⊆ infos :=
  ⟨_, if_pos (Or.inr inside), fun _ mem => List.mem_of_mem_take (List.mem_of_mem_drop mem)⟩

theorem seeksTo_of_encrypt (seeks : S.Seeks) (encrypted : S.encrypt data = .ok (dataMap, chunks))
    (holds : Holds network (chunks.map (toChunk ·.content))) (inside : position < data.length) :
    SeeksTo network dataMap position length (slice data position length) := by
  obtain ⟨infos, picked, among⟩ := exists_pickInfos (seeks.inside encrypted position length inside)
  obtain ⟨retrieved, got, within, keys⟩ := tryGetChunks_of_subset seeks.toLawful encrypted holds among
  exact ⟨infos, retrieved, picked, got,
    seeks.range encrypted position length inside infos retrieved picked within keys⟩

/-! ## Reading from a position -/

def ReadsFrom (network : S.Network) (address : XorName) (position length : Nat) (bytes : List UInt8) : Prop :=
  ∃ needed, ∀ turns, needed ≤ turns → readFrom network turns address position length = some (.ok (.ok bytes))

def rangeOfHead (network : S.Network) (head : FileChunk) (position length : Nat) :
    Except (FileError S.toFileScheme) DataMap → Except Panic (Except (FileError S.toFileScheme) (List UInt8))
  | .ok dataMap => seek network dataMap position length
  | .error _ => splitTo head.value position length

theorem splitTo_eq_ok_iff {content : List UInt8} : splitTo (S := S) content position length = .ok (.ok bytes) ↔
      position ≤ content.length ∧ slice content position length = bytes := by
  rw [splitTo, slice]
  split_ifs with after
  · simp [Nat.not_le_of_lt after]
  · simp [Nat.le_of_not_lt after]

theorem readFrom_of_eq_some {turns : Nat}
    {result : Except (FileError S.toFileScheme) DataMap} (held : network address = .ok head)
    (unpacked : unpackChunk network turns head = some result) : ∃ needed, ∀ turns, needed ≤ turns →
      readFrom network turns address position length = some (rangeOfHead network head position length result) := by
  obtain ⟨needed, ends⟩ := unpackEnds_of_eq_some unpacked
  refine ⟨needed, fun turns enough => ?_⟩
  simp only [readFrom, held, ends turns enough]
  cases result <;> rfl

/-- What is read of a file is what is split off its head chunk, or what the data map that the head chunk is
taken for leads to. -/
theorem readsFrom_iff (held : network address = .ok head) : ReadsFrom network address position length bytes ↔
      Unpacks network head none ∧ position ≤ head.value.length ∧
          slice head.value position length = bytes ∨
        ∃ dataMap, Unpacks network head (some dataMap) ∧
          SeeksTo network dataMap position length bytes := by
  constructor
  · rintro ⟨needed, reads⟩
    have read := reads needed (Nat.le_refl _)
    simp only [readFrom, held] at read
    split at read
    · cases read
    · rename_i dataMap unpacked
      exact Or.inr ⟨dataMap, unpacks_of_eq_some unpacked, seek_eq_ok_iff.mp (Option.some.inj read)⟩
    · rename_i unpacked
      exact Or.inl ⟨unpacks_of_eq_some unpacked, splitTo_eq_ok_iff.mp (Option.some.inj read)⟩
  · rintro (⟨unpacks, split⟩ | ⟨dataMap, unpacks, sought⟩)
    · obtain ⟨turns, result, unpacked, found⟩ := unpacks.ends
      cases result with
      | ok dataMap => cases found
      | error error =>
        obtain ⟨needed, reads⟩ := readFrom_of_eq_some held unpacked
        exact ⟨needed, fun turns enough =>
          (reads turns enough).trans (congrArg some (splitTo_eq_ok_iff.mpr split))⟩
    · obtain ⟨turns, result, unpacked, found⟩ := unpacks.ends
      cases result with
      | error error => cases found
      | ok unpackedMap =>
        obtain rfl : unpackedMap = dataMap := Option.some.inj found
        obtain ⟨needed, reads⟩ := readFrom_of_eq_some held unpacked
        exact ⟨needed, fun turns enough =>
          (reads turns enough).trans (congrArg some (seek_eq_ok_iff.mpr sought))⟩

theorem SeeksTo.unique {other : List UInt8} (first : SeeksTo network dataMap position length bytes)
    (second : SeeksTo network dataMap position length other) : bytes = other := by
  rw [← seek_eq_ok_iff] at first second
  exact Except.ok.inj (Except.ok.inj (first.symm.trans second))

/-- When a range of a stored file is read as it should: for a file that is read as what it is, by where the
range starts and by what the range and its length agree on; otherwise by what `self_encryption` makes of a
position after the end, or of the data map that a small file is taken for. -/
inductive Readable (network : S.Network) (head : FileChunk) (data : List UInt8) (position length : Nat)
    (agrees : Prop) (bytes : List UInt8) : Prop where
  | inside (large : S.minEncryptableBytes ≤ data.length) (inside : position < data.length) (agrees : agrees)
  | beyond {dataMap : DataMap} (large : S.minEncryptableBytes ≤ data.length)
    (beyond : data.length ≤ position) (unpacks : Unpacks network head (some dataMap))
    (sought : SeeksTo network dataMap position length bytes)
  | small (small : data.length < S.minEncryptableBytes) (unpacks : Unpacks network head none)
    (inside : position ≤ data.length) (agrees : agrees)
  | posing {dataMap : DataMap} (small : data.length < S.minEncryptableBytes)
    (unpacks : Unpacks network head (some dataMap))
    (sought : SeeksTo network dataMap position length bytes)

theorem readsFrom_stored_iff (seeks : S.Seeks) {agrees : Prop}
    (held : network address = .ok head) (isHead : Stored.Head network data head)
    (same : agrees ↔ slice data position length = bytes) : ReadsFrom network address position length bytes ↔
      Readable network head data position length agrees bytes := by
  rw [readsFrom_iff held]
  cases isHead with
  | small small =>
    constructor
    · rintro (⟨unpacks, inside, cut⟩ | ⟨dataMap, unpacks, sought⟩)
      · exact .small small unpacks inside (same.mpr cut)
      · exact .posing small unpacks sought
    · intro readable
      cases readable with
      | inside large => exact absurd small (Nat.not_lt_of_le large)
      | beyond large => exact absurd small (Nat.not_lt_of_le large)
      | small _ unpacks inside agree => exact Or.inl ⟨unpacks, inside, same.mp agree⟩
      | posing _ unpacks sought => exact Or.inr ⟨_, unpacks, sought⟩
  | @large _ dataMap chunks large encrypted holds unpacks =>
    have found : position < data.length →
        SeeksTo network dataMap position length (slice data position length) :=
      seeksTo_of_encrypt seeks encrypted holds
    constructor
    · rintro (⟨none, -⟩ | ⟨other, others, sought⟩)
      · cases unpacks.unique none
      · obtain rfl := Option.some.inj (unpacks.unique others)
        rcases Nat.lt_or_ge position data.length with inside | beyond
        · exact .inside large inside (same.mpr ((found inside).unique sought))
        · exact .beyond large beyond unpacks sought
    · intro readable
      cases readable with
      | inside _ inside agree => exact Or.inr ⟨dataMap, unpacks, same.mp agree ▸ found inside⟩
      | beyond _ _ others sought => exact Or.inr ⟨_, others, sought⟩
      | small small => exact absurd small (Nat.not_lt_of_le large)
      | posing small => exact absurd small (Nat.not_lt_of_le large)

/-! ## Getting a range -/

/-- The bytes of a range: from its start, or that of the file, to its end, or that of the file. -/
def rangeOf (data : List UInt8) : Range → List UInt8
  | none => data
  | some (start, none) => data.drop (start.getD 0).toNat
  | some (start, some last) => slice data (start.getD 0).toNat (last.toNat - (start.getD 0).toNat)

def lengthOf (start : UInt64) : Option UInt64 → Nat
  | none => 2 ^ 64 - 1
  | some last => (last - start).toNat

def GetsBytes (network : S.Network) (overflowChecks : Bool) (address : XorName) (range : Range)
    (bytes : List UInt8) : Prop :=
  ∃ needed, ∀ turns, needed ≤ turns →
    getBytes network overflowChecks turns address range = some (.ok (.ok bytes))

def Ordered (start : UInt64) (last : Option UInt64) : Prop := ∀ index ∈ last, start ≤ index

theorem slice_eq_nil_iff : slice data position length = [] ↔ data.length ≤ position ∨ length = 0 := by
  rw [slice, List.take_eq_nil_iff, List.drop_eq_nil_iff, or_comm]

theorem slice_eq_rangeOf_iff (fits : data.length < 2 ^ 64) (start last : Option UInt64) :
    slice data (start.getD 0).toNat (lengthOf (start.getD 0) last) = rangeOf data (some (start, last)) ↔
      Ordered (start.getD 0) last ∨ data.length ≤ (start.getD 0).toNat := by
  cases last with
  | none =>
    refine iff_of_true ?_ (Or.inl (by simp [Ordered]))
    rw [slice, lengthOf, rangeOf, List.take_of_length_le]
    rw [List.length_drop]
    omega
  | some last =>
    rw [lengthOf, rangeOf]
    by_cases ordered : start.getD 0 ≤ last
    · refine iff_of_true ?_ (Or.inl fun index same => Option.some.inj same ▸ ordered)
      rw [UInt64.toNat_sub_of_le _ _ ordered]
    · have after : last.toNat < (start.getD 0).toNat := UInt64.lt_iff_toNat_lt.mp (UInt64.not_le.mp ordered)
      have differs : (last - start.getD 0).toNat ≠ 0 := by
        rw [UInt64.toNat_sub]
        have startSize := (start.getD 0).toNat_lt
        omega
      have reversed : ¬ Ordered (start.getD 0) (some last) := fun all => ordered (all last rfl)
      have empty : slice data (start.getD 0).toNat (last.toNat - (start.getD 0).toNat) = [] :=
        slice_eq_nil_iff.mpr (Or.inr (by omega))
      rw [empty, slice_eq_nil_iff, or_iff_left differs, or_iff_right reversed]

theorem getsBytes_iff {start last : Option UInt64} :
    GetsBytes network overflowChecks address (some (start, last)) bytes ↔
      (overflowChecks = true → Ordered (start.getD 0) last) ∧
        ReadsFrom network address (start.getD 0).toNat (lengthOf (start.getD 0) last) bytes := by
  cases last with
  | none => exact (and_iff_right fun _ => by simp [Ordered]).symm
  | some last =>
    have orderedIff : Ordered (start.getD 0) (some last) ↔ ¬ last < start.getD 0 := by
      simp [Ordered, UInt64.not_lt]
    rw [orderedIff]
    by_cases fails : last < start.getD 0 ∧ overflowChecks = true
    · refine iff_of_false ?_ fun both => both.1 fails.2 fails.1
      rintro ⟨needed, gets⟩
      have got := gets needed (Nat.le_refl _)
      simp only [getBytes, checkedDifference, if_pos fails] at got
      cases got
    · rw [and_iff_right fun checks below => fails ⟨below, checks⟩]
      simp only [GetsBytes, getBytes, checkedDifference, if_neg fails]
      exact Iff.rfl

theorem getsBytes_whole_iff :
    GetsBytes network overflowChecks address none bytes ↔ ReadsAs network address bytes := by
  have same (turns : Nat) : getBytes network overflowChecks turns address none = some (.ok (.ok bytes)) ↔
      readBytes network turns address = some (.ok bytes) := by
    simp [getBytes]
  simp only [GetsBytes, ReadsAs, same]

/-- What is read of a stored file from a position on, and what is got for a range: the bytes that are there
exactly when the file is read as what it is, the range is not reversed and it starts inside the file, or at
its end if it is a small one. -/
theorem stored_ranges_iff (seeks : S.Seeks) {address : XorName} (stored : Stored network address data)
    (fits : data.length < 2 ^ 64) : ∃ head, network address = .ok head ∧
      (∀ position length, ReadsFrom network address position length (slice data position length) ↔
        Readable network head data position length True (slice data position length)) ∧
      (∀ overflowChecks start last,
        GetsBytes network overflowChecks address (some (start, last)) (rangeOf data (some (start, last))) ↔
          (overflowChecks = true → Ordered (start.getD 0) last) ∧
            Readable network head data (start.getD 0).toNat (lengthOf (start.getD 0) last)
              (Ordered (start.getD 0) last ∨ data.length ≤ (start.getD 0).toNat)
              (rangeOf data (some (start, last)))) ∧
      (∀ overflowChecks, GetsBytes network overflowChecks address none (rangeOf data none) ↔
        S.minEncryptableBytes ≤ data.length ∨ Unpacks network ⟨data⟩ none ∨
          ∃ dataMap, Unpacks network ⟨data⟩ (some dataMap) ∧ readAll network dataMap = .ok data) := by
  obtain ⟨head, held, isHead⟩ := stored.exists_head seeks.toLawful
  refine ⟨head, held, fun position length => ?_, fun overflowChecks start last => ?_, fun _ => ?_⟩
  · exact readsFrom_stored_iff seeks held isHead (iff_of_true trivial rfl)
  · rw [getsBytes_iff,
      readsFrom_stored_iff seeks held isHead (slice_eq_rangeOf_iff fits start last).symm]
  · rw [getsBytes_whole_iff]
    exact isHead.readsAs_iff seeks.toLawful held

/-! ## Ranges of a small file -/

abbrev sampleSeeks : SeekScheme where
  toFileScheme := sampleFiles
  seekInfo _ position _ := ⟨0, 0, position⟩
  decryptRange _ chunks position length := .ok (slice (chunks.flatMap EncryptedChunk.content) position length)

theorem sampleSeeks_seeks : sampleSeeks.Seeks where
  toLawful := sampleFiles_lawful
  inside encrypted _ _ _ := by
    obtain ⟨rfl, -⟩ := sampleFiles_encrypt encrypted
    exact Nat.one_pos
  range encrypted position length _ infos retrieved picked among keys := by
    obtain ⟨rfl, rfl⟩ := sampleFiles_encrypt encrypted
    obtain rfl := Option.some.inj picked
    obtain ⟨chunk, rfl⟩ := List.length_eq_one_iff.mp (by simpa using congrArg List.length keys)
    obtain rfl := List.mem_singleton.mp (among (List.mem_singleton.mpr rfl))
    simp

def sampleHolder : sampleSeeks.Network := fun _ => .ok ⟨[7, 8, 9]⟩

theorem sampleHolder_stored : Stored sampleHolder (sampleContentName [7, 8, 9]) [7, 8, 9] := by
  refine ⟨[⟨[7, 8, 9]⟩], 0, fun turns _ => chunkBytes_small (by decide) (by decide) turns, ?_⟩
  intro chunk mem
  rw [List.mem_singleton.mp mem]
  rfl

theorem stored_ranges_sampleHolder : sampleSeeks.Seeks ∧ Stored sampleHolder (sampleContentName [7, 8, 9]) [7, 8, 9] ∧
      ReadsFrom sampleHolder (sampleContentName [7, 8, 9]) 1 1 [8] ∧
      GetsBytes sampleHolder true (sampleContentName [7, 8, 9]) (some (some 1, none)) [8, 9] := by
  obtain ⟨head, held, reads, gets, -⟩ :=
    stored_ranges_iff sampleSeeks_seeks sampleHolder_stored (by decide)
  obtain rfl := Except.ok.inj held
  refine ⟨sampleSeeks_seeks, sampleHolder_stored, ?_, ?_⟩
  · exact (reads 1 1).mpr (.small (by decide) (.noLevel rfl) (by decide) trivial)
  · refine (gets true (some 1) none).mpr ⟨fun _ => by simp [Ordered], ?_⟩
    exact .small (by decide) (.noLevel rfl) (by decide) (Or.inl (by simp [Ordered]))

/-- A position after the end of a small file panics. A reversed range panics too when overflows are checked,
and returns the rest of the file when they are not. -/
theorem getBytes_reversed :
    sampleSeeks.Seeks ∧ Stored sampleHolder (sampleContentName [7, 8, 9]) [7, 8, 9] ∧ (∀ turns,
      readFrom sampleHolder (turns + 1) (sampleContentName [7, 8, 9]) 4 1 = some (.error .sliceOutOfRange)) ∧
      (∀ turns, getBytes sampleHolder true (turns + 1) (sampleContentName [7, 8, 9])
        (some (some 1, some 0)) = some (.error .arithmetic)) ∧
      ∀ turns, getBytes sampleHolder false (turns + 1) (sampleContentName [7, 8, 9])
        (some (some 1, some 0)) = some (.ok (.ok [8, 9])) :=
  ⟨sampleSeeks_seeks, sampleHolder_stored, fun _ => rfl, fun _ => rfl, fun _ => rfl⟩

end SeekScheme

end SafeNetwork

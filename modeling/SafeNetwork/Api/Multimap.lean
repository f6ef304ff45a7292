import SafeNetwork.Library.Runs
import SafeNetwork.Storage.RegisterLog
import SafeNetwork.Storage.SampleStorage

/-!
# Multimaps

`sn_api/src/app/multimap.rs`, over `sn_client/src/api/register_apis.rs`. A multimap is a register: its
entries are the current entries of the register that are no tombstones. Inserting writes an entry that
supersedes those it replaces, and removing writes a tombstone that supersedes those removed. An entry is
identified by its content and by what it supersedes, so one that is written again after it has been
superseded is not new to the register and stays superseded.
-/

namespace SafeNetwork

open Std Crdt Runs

/-! ## Texts -/

/-- The bytes of a text, as `String::into_bytes`. -/
def intoBytes (text : String) : List UInt8 := text.toUTF8.data.toList

def fromUtf8 (bytes : List UInt8) : Option String := String.fromUTF8? ⟨bytes.toArray⟩

@[simp] theorem fromUtf8_intoBytes (text : String) : fromUtf8 (intoBytes text) = some text := by
  have same : (⟨(intoBytes text).toArray⟩ : ByteArray) = text.toByteArray := rfl
  rw [fromUtf8, same, String.fromUTF8?, dif_pos text.isValidUTF8]
  rfl

theorem intoBytes_of_fromUtf8 {bytes : List UInt8} {text : String} (read : fromUtf8 bytes = some text) :
    intoBytes text = bytes := by
  rw [fromUtf8, String.fromUTF8?] at read
  split at read
  · obtain rfl := Option.some.inj read
    rfl
  · cases read

/-! ## Schemes -/

abbrev MultimapKeyValue : Type := List UInt8 × List UInt8

/-- What multimaps use of `rmp_serde`. -/
structure MultimapScheme extends StorageScheme where
  /-- `rmp_serde::to_vec_named` of a key and a value. -/
  toVecNamed : MultimapKeyValue → List UInt8
  fromSlice : List UInt8 → Option MultimapKeyValue
  fromSlice_toVecNamed : ∀ entry, fromSlice (toVecNamed entry) = some entry
  toVecNamed_ne_nil : ∀ entry, toVecNamed entry ≠ []

inductive MultimapError (S : MultimapScheme) where
  | client (error : TypesError S.UserKey S.Hash)
  | network (error : S.Error)
  | contentError
  | emptyContent
  | hashNotFound (hash : S.Hash)

namespace MultimapScheme

variable {S : MultimapScheme}

/-- `Multimap` — the entries with their hashes, in ascending order. -/
abbrev Multimap (S : MultimapScheme) : Type := List (S.Hash × MultimapKeyValue)

def multimapRemovedMark : Entry := []

/-! ## Writing to a register -/

/-- `Client::write_to_local_register`, once the register has been fetched. -/
def writeToLocalRegister (keypair : S.Keypair) (register : Register S.toRegisterScheme) (entry : Entry)
    (children : ExtTreeSet S.Hash) : S.TypesResult (S.Hash × List S.Cmd) := do
  let publicKey := S.keypairPublicKey keypair
  register.checkPermissions .write (some (.key publicKey))
  let ((hash, op), _) ← register.write entry children
  let op : EditRegister S.toRegisterScheme := ⟨register.address, op⟩
  let signature := S.sign keypair (S.serializeEdit op)
  return (hash, [.edit ⟨op, ⟨publicKey, signature⟩⟩])

/-- `Client::publish_register_ops` — the register that the network has after the commands. -/
def publishRegisterOps (register : Register S.toRegisterScheme) (wal : List S.Cmd) :
    S.Result (Register S.toRegisterScheme) :=
  wal.foldlM (fun register cmd => RegisterStorage.apply cmd register) register

def writeEntry (keypair : S.Keypair) (register : Register S.toRegisterScheme) (entry : Entry)
    (children : ExtTreeSet S.Hash) : Except (MultimapError S) (S.Hash × Register S.toRegisterScheme) := do
  let (entryHash, opBatch) ← (writeToLocalRegister keypair register entry children).mapError .client
  let register ← (publishRegisterOps register opBatch).mapError .network
  return (entryHash, register)

def multimapInsert (keypair : S.Keypair) (register : Register S.toRegisterScheme)
    (entry : MultimapKeyValue) (replace : ExtTreeSet S.Hash) :
    Except (MultimapError S) (S.Hash × Register S.toRegisterScheme) :=
  writeEntry keypair register (S.toVecNamed entry) replace

def multimapRemove (keypair : S.Keypair) (register : Register S.toRegisterScheme)
    (toRemove : ExtTreeSet S.Hash) : Except (MultimapError S) (S.Hash × Register S.toRegisterScheme) :=
  writeEntry keypair register multimapRemovedMark toRemove

/-! ## Reading a multimap -/

def decodeMultimapEntry (entry : Entry) : Except (MultimapError S) MultimapKeyValue :=
  match S.fromSlice entry with
  | some keyValue => .ok keyValue
  | none => .error .contentError

/-- The loop of `fetch_multimap` over the current entries of the register. -/
def parseEntries : List (S.Hash × Entry) → Except (MultimapError S) S.Multimap
  | [] => .ok []
  | (hash, entry) :: rest =>
    -- a tombstone hides what it supersedes and is no entry itself
    if entry = multimapRemovedMark then parseEntries rest
    else do
      let keyValue ← decodeMultimapEntry entry
      let multimap ← parseEntries rest
      return (hash, keyValue) :: multimap

def fetchMultimap (register : Register S.toRegisterScheme) : Except (MultimapError S) S.Multimap :=
  parseEntries register.read

def fetchMultimapValuesByKey (register : Register S.toRegisterScheme) (key : List UInt8) :
    Except (MultimapError S) S.Multimap := do
  let entries ← fetchMultimap register
  return entries.filter fun entry => entry.2.1 = key

def fetchMultimapValueByHash (register : Register S.toRegisterScheme) (hash : S.Hash) :
    Except (MultimapError S) MultimapKeyValue :=
  match register.get hash with
  | .error _ => .error (.hashNotFound hash)
  | .ok entry => if entry = multimapRemovedMark then .error .emptyContent else decodeMultimapEntry entry

/-! ## Registers of multimaps -/

variable {keypair : S.Keypair} {register after : Register S.toRegisterScheme} {entry : Entry}
  {children : ExtTreeSet S.Hash} {hash : S.Hash} {keyValue : MultimapKeyValue} {entries : List (S.Hash × Entry)}
  {multimap : S.Multimap}

theorem writeEntry_eq_ok (written : writeEntry keypair register entry children = .ok (hash, after)) :
    hash = S.registers.hash ⟨children, entry⟩ ∧ after = register.grow ⟨children, entry⟩ := by
  rw [writeEntry, bind_eq_ok] at written
  obtain ⟨⟨entryHash, opBatch⟩, wrote, published⟩ := written
  rw [mapError_eq_ok, writeToLocalRegister, bind_eq_ok] at wrote
  obtain ⟨-, -, wrote⟩ := wrote
  rw [bind_eq_ok] at wrote
  obtain ⟨⟨⟨opHash, op⟩, grown⟩, wrote, batch⟩ := wrote
  rw [Register.write, bind_eq_ok] at wrote
  obtain ⟨-, -, wrote⟩ := wrote
  obtain ⟨⟨rfl, rfl⟩, rfl⟩ := by simpa [RegisterCrdt.write, pure, Except.pure] using wrote
  obtain ⟨rfl, rfl⟩ := by simpa [pure, Except.pure] using batch
  rw [bind_eq_ok] at published
  obtain ⟨result, published, returned⟩ := published
  obtain ⟨rfl, rfl⟩ := by simpa [pure, Except.pure] using returned
  rw [mapError_eq_ok, publishRegisterOps, List.foldlM_cons, bind_eq_ok] at published
  obtain ⟨applied, accepted, rest⟩ := published
  obtain rfl := Except.ok.inj rest
  exact ⟨rfl, (RegisterStorage.apply_edit_eq_ok.mp accepted).2⟩

theorem toVecNamed_injective : Function.Injective S.toVecNamed := by
  intro left right same
  have read := congrArg S.fromSlice same
  rw [S.fromSlice_toVecNamed, S.fromSlice_toVecNamed] at read
  exact Option.some.inj read

theorem toVecNamed_ne_mark (keyValue : MultimapKeyValue) : S.toVecNamed keyValue ≠ multimapRemovedMark :=
  S.toVecNamed_ne_nil keyValue

def Written (S : MultimapScheme) (entry : Entry) : Prop :=
  entry = multimapRemovedMark ∨ ∃ keyValue, entry = S.toVecNamed keyValue

/-- The register of a multimap has no orphans, and multimaps have written all its entries. -/
structure OfMultimap (register : Register S.toRegisterScheme) : Prop where
  grown : S.registers.Grown register.crdt.data
  written : ∀ {hash : S.Hash} {node : Node S.Hash Entry},
    (S.registers.visible register.crdt.data)[hash]? = some node → S.Written node.value

def Known (register : Register S.toRegisterScheme) (hash : S.Hash) : Prop :=
  (register.crdt.get hash).isSome

def Superseded (register : Register S.toRegisterScheme) (hash : S.Hash) : Prop :=
  S.registers.Superseded register.crdt.data hash

theorem OfMultimap.known_iff (ofMultimap : OfMultimap register) :
    Known register hash ↔ hash ∈ S.registers.visible register.crdt.data := by
  rw [Known, RegisterCrdt.get, Option.isSome_map, S.registers.node_eq ofMultimap.grown.numOrphans,
    ExtTreeMap.mem_iff_isSome_getElem?]

theorem ofMultimap_new (authority : User S.UserKey) (name : XorName) (tag : UInt64)
    (policy : Policy S.toRegisterScheme) : OfMultimap (.new authority name tag policy) where
  grown := .new
  written {hash node} found := by
    have empty : S.registers.visible S.registers.new = ∅ := S.registers.visible_new
    rw [Register.new, RegisterCrdt.new, empty] at found
    simp at found

section

variable (ofMultimap : OfMultimap register) (known : ∀ child ∈ children, Known register child)
include ofMultimap known

theorem OfMultimap.eq_or_visible {node : Node S.Hash Entry}
    (found : (S.registers.visible (register.grow ⟨children, entry⟩).crdt.data)[hash]? = some node) :
    node = ⟨children, entry⟩ ∨ (S.registers.visible register.crdt.data)[hash]? = some node := by
  classical
  rw [Register.grow, ofMultimap.grown.getElem?_apply fun child named =>
    ofMultimap.known_iff.mp (known child named)] at found
  split at found
  · exact Or.inl (Option.some.inj found).symm
  · exact Or.inr found

theorem OfMultimap.grow
    (written : S.Written entry) : OfMultimap (register.grow ⟨children, entry⟩) where
  grown := .apply ofMultimap.grown fun child named => ofMultimap.known_iff.mp (known child named)
  written {hash node} found := by
    rcases ofMultimap.eq_or_visible known found with rfl | old
    · exact written
    · exact ofMultimap.written old

end

/-! ## What a multimap contains -/

theorem parseEntries_of_written (written : ∀ entry ∈ entries, S.Written entry.2) :
    ∃ multimap, parseEntries entries = .ok multimap ∧
      ∀ hash keyValue, (hash, keyValue) ∈ multimap ↔ (hash, S.toVecNamed keyValue) ∈ entries := by
  induction entries with
  | nil => exact ⟨[], rfl, by simp⟩
  | cons first rest ih =>
    obtain ⟨hash, entry⟩ := first
    obtain ⟨here, later⟩ := List.forall_mem_cons.mp written
    obtain ⟨multimap, parsed, members⟩ := ih later
    rcases here with rfl | ⟨keyValue, rfl⟩
    · refine ⟨multimap, (if_pos rfl).trans parsed, fun other keyValue => ?_⟩
      simp [members, toVecNamed_ne_mark]
    · refine ⟨(hash, keyValue) :: multimap, ?_, fun other otherValue => ?_⟩
      · rw [parseEntries, if_neg (toVecNamed_ne_mark keyValue), decodeMultimapEntry,
          S.fromSlice_toVecNamed, parsed]
        rfl
      · simp [members, toVecNamed_injective.eq_iff]

theorem OfMultimap.fetch (ofMultimap : OfMultimap register) :
    ∃ multimap, fetchMultimap register = .ok multimap ∧ ∀ hash keyValue, (hash, keyValue) ∈ multimap ↔
      ∃ node ∈ S.registers.read register.crdt.data,
        S.registers.hash node = hash ∧ node.value = S.toVecNamed keyValue := by
  have written : ∀ entry ∈ register.read, S.Written entry.2 := by
    intro entry mem
    obtain ⟨node, shown, rfl⟩ := List.mem_map.mp mem
    obtain ⟨hash, found, -⟩ := ofMultimap.grown.mem_read.mp shown
    exact ofMultimap.written found
  obtain ⟨multimap, parsed, members⟩ := parseEntries_of_written written
  refine ⟨multimap, parsed, fun hash keyValue => ?_⟩
  rw [members, Register.read, RegisterCrdt.read, List.mem_map]
  simp only [Prod.mk.injEq]

theorem OfMultimap.mem_iff (ofMultimap : OfMultimap register) (fetched : fetchMultimap register = .ok multimap) : (hash, keyValue) ∈ multimap ↔
      ∃ node ∈ S.registers.read register.crdt.data,
        S.registers.hash node = hash ∧ node.value = S.toVecNamed keyValue := by
  obtain ⟨same, fetch, members⟩ := ofMultimap.fetch
  obtain rfl := Except.ok.inj (fetch.symm.trans fetched)
  exact members hash keyValue

theorem OfMultimap.known_of_mem (ofMultimap : OfMultimap register) (fetched : fetchMultimap register = .ok multimap) (mem : (hash, keyValue) ∈ multimap) :
    Known register hash ∧ ¬ Superseded register hash := by
  obtain ⟨node, shown, rfl, -⟩ := (ofMultimap.mem_iff fetched).mp mem
  obtain ⟨visible, current⟩ := ofMultimap.grown.mem_read_iff.mp shown
  exact ⟨ofMultimap.known_iff.mpr visible, current⟩

theorem mem_of_parseEntries (parsed : parseEntries entries = .ok multimap) (mem : (hash, keyValue) ∈ multimap) :
    ∃ entry, (hash, entry) ∈ entries ∧ decodeMultimapEntry (S := S) entry = .ok keyValue := by
  induction entries generalizing multimap with
  | nil =>
    obtain rfl := Except.ok.inj parsed
    exact absurd mem List.not_mem_nil
  | cons first rest ih =>
    rw [parseEntries] at parsed
    split at parsed
    · obtain ⟨entry, later, decoded⟩ := ih parsed mem
      exact ⟨entry, List.mem_cons_of_mem _ later, decoded⟩
    · rw [bind_eq_ok] at parsed
      obtain ⟨here, decoded, parsed⟩ := parsed
      rw [bind_eq_ok] at parsed
      obtain ⟨others, more, same⟩ := parsed
      obtain rfl := Except.ok.inj same
      rcases List.mem_cons.mp mem with same | inside
      · obtain ⟨rfl, rfl⟩ := Prod.mk.inj same
        exact ⟨_, List.mem_cons_self .., decoded⟩
      · obtain ⟨entry, later, decoded⟩ := ih more inside
        exact ⟨entry, List.mem_cons_of_mem _ later, decoded⟩

/-- A hash names one entry, for it is the hash of the content. -/
theorem fetchMultimap_unique (fetched : fetchMultimap register = .ok multimap)
    {other : MultimapKeyValue} (mem : (hash, keyValue) ∈ multimap) (otherMem : (hash, other) ∈ multimap) :
    keyValue = other := by
  obtain ⟨entry, listed, decoded⟩ := mem_of_parseEntries fetched mem
  obtain ⟨otherEntry, otherListed, otherDecoded⟩ := mem_of_parseEntries fetched otherMem
  obtain ⟨node, -, same⟩ := List.mem_map.mp listed
  obtain ⟨otherNode, -, otherSame⟩ := List.mem_map.mp otherListed
  obtain ⟨rfl, rfl⟩ := Prod.mk.inj same
  obtain ⟨named, rfl⟩ := Prod.mk.inj otherSame
  obtain rfl := S.registers.hash_injective named
  exact Except.ok.inj (decoded.symm.trans otherDecoded)

theorem fetchMultimap_new (authority : User S.UserKey) (name : XorName) (tag : UInt64)
    (policy : Policy S.toRegisterScheme) : fetchMultimap (S := S) (.new authority name tag policy) = .ok [] := by
  obtain ⟨multimap, fetched, members⟩ := (ofMultimap_new authority name tag policy).fetch
  refine fetched.trans (congrArg Except.ok (List.eq_nil_iff_forall_not_mem.mpr ?_))
  rintro ⟨hash, keyValue⟩ mem
  obtain ⟨node, shown, -⟩ := (members hash keyValue).mp mem
  have visible := ((ofMultimap_new authority name tag policy).grown.mem_read_iff.mp shown).1
  have empty : S.registers.visible S.registers.new = ∅ := S.registers.visible_new
  rw [Register.new, RegisterCrdt.new, empty] at visible
  exact ExtTreeMap.not_mem_empty visible

section

variable (ofMultimap : OfMultimap register) (known : ∀ child ∈ children, Known register child)
include ofMultimap known

/-- What a multimap contains after an entry is written over known ones: that entry, unless it has been
superseded before, and the entries that it does not supersede. -/
theorem OfMultimap.fetch_grow (written : S.Written entry) :
    ∃ before multimap, fetchMultimap register = .ok before ∧
      fetchMultimap (register.grow ⟨children, entry⟩) = .ok multimap ∧
      ∀ hash keyValue, (hash, keyValue) ∈ multimap ↔
        (hash = S.registers.hash ⟨children, entry⟩ ∧ entry = S.toVecNamed keyValue ∧
            ¬ Superseded register hash) ∨
          (hash, keyValue) ∈ before ∧ hash ∉ children := by
  obtain ⟨before, fetched, beforeMembers⟩ := ofMultimap.fetch
  obtain ⟨multimap, fetchedAfter, members⟩ := (ofMultimap.grow known written).fetch
  refine ⟨before, multimap, fetched, fetchedAfter, fun hash keyValue => ?_⟩
  have seen : ∀ child ∈ children, child ∈ S.registers.visible register.crdt.data :=
    fun child named => ofMultimap.known_iff.mp (known child named)
  rw [members, beforeMembers, Register.grow]
  constructor
  · rintro ⟨node, shown, rfl, encoded⟩
    rcases (ofMultimap.grown.mem_read_apply seen).mp shown with ⟨rfl, current⟩ | ⟨old, unnamed⟩
    · exact Or.inl ⟨rfl, encoded, current⟩
    · exact Or.inr ⟨⟨node, old, rfl, encoded⟩, unnamed⟩
  · rintro (⟨rfl, encoded, current⟩ | ⟨⟨node, old, rfl, encoded⟩, unnamed⟩)
    · exact ⟨_, (ofMultimap.grown.mem_read_apply seen).mpr (Or.inl ⟨rfl, current⟩), rfl, encoded⟩
    · exact ⟨node, (ofMultimap.grown.mem_read_apply seen).mpr (Or.inr ⟨old, unnamed⟩), rfl, encoded⟩

theorem OfMultimap.hash_notMem :
    S.registers.hash ⟨children, entry⟩ ∉ children :=
  ofMultimap.grown.hash_notMem_children fun child named => ofMultimap.known_iff.mp (known child named)

end

/-! ## Inserting and removing -/

/-- A key and value are inserted under a hash, instead of some entries. -/
structure Inserted (hash : S.Hash) (keyValue : MultimapKeyValue) (replace : ExtTreeSet S.Hash)
    (before after : S.Multimap) : Prop where
  mem : (hash, keyValue) ∈ after
  replaced : ∀ entry ∈ after, entry.1 ∉ replace
  others : ∀ entry, entry.1 ∉ replace → entry ≠ (hash, keyValue) → (entry ∈ after ↔ entry ∈ before)

def Removed (toRemove : ExtTreeSet S.Hash) (before after : S.Multimap) : Prop :=
  ∀ entry, entry ∈ after ↔ entry ∈ before ∧ entry.1 ∉ toRemove

theorem OfMultimap.inserted_iff (ofMultimap : OfMultimap register) {replace : ExtTreeSet S.Hash}
    (known : ∀ child ∈ replace, Known register child)
    (inserted : multimapInsert keypair register keyValue replace = .ok (hash, after)) :
    ∃ before multimap, fetchMultimap register = .ok before ∧ fetchMultimap after = .ok multimap ∧
      (Inserted hash keyValue replace before multimap ↔ ¬ Superseded register hash) := by
  obtain ⟨rfl, rfl⟩ := writeEntry_eq_ok inserted
  obtain ⟨before, multimap, fetched, fetchedAfter, members⟩ :=
    ofMultimap.fetch_grow known (Or.inr ⟨keyValue, rfl⟩)
  refine ⟨before, multimap, fetched, fetchedAfter, fun inserts => ?_, fun current => ⟨?_, ?_, ?_⟩⟩
  · intro superseded
    rcases (members _ _).mp inserts.mem with ⟨-, -, current⟩ | ⟨old, -⟩
    · exact current superseded
    · exact (ofMultimap.known_of_mem fetched old).2 superseded
  · exact (members _ _).mpr (Or.inl ⟨rfl, rfl, current⟩)
  · rintro ⟨other, otherValue⟩ mem
    rcases (members _ _).mp mem with ⟨rfl, -, -⟩ | ⟨-, unnamed⟩
    · exact ofMultimap.hash_notMem known
    · exact unnamed
  · rintro ⟨other, otherValue⟩ kept differs
    rw [members, and_iff_left kept]
    refine or_iff_right ?_
    rintro ⟨rfl, same, -⟩
    exact differs (by rw [toVecNamed_injective same])

theorem OfMultimap.removed (ofMultimap : OfMultimap register) {toRemove : ExtTreeSet S.Hash}
    (known : ∀ child ∈ toRemove, Known register child)
    (removed : multimapRemove keypair register toRemove = .ok (hash, after)) :
    ∃ before multimap, fetchMultimap register = .ok before ∧ fetchMultimap after = .ok multimap ∧
      Removed toRemove before multimap := by
  obtain ⟨rfl, rfl⟩ := writeEntry_eq_ok removed
  obtain ⟨before, multimap, fetched, fetchedAfter, members⟩ := ofMultimap.fetch_grow known (Or.inl rfl)
  refine ⟨before, multimap, fetched, fetchedAfter, ?_⟩
  rintro ⟨other, keyValue⟩
  rw [members]
  refine or_iff_right ?_
  rintro ⟨-, same, -⟩
  exact toVecNamed_ne_mark keyValue same.symm

/-! ## Sequences of calls -/

inductive MultimapCall (S : MultimapScheme) where
  | insert (keypair : S.Keypair) (entry : MultimapKeyValue) (replace : ExtTreeSet S.Hash)
  | remove (keypair : S.Keypair) (toRemove : ExtTreeSet S.Hash)

namespace MultimapCall

def perform (register : Register S.toRegisterScheme) :
    MultimapCall S → Except (MultimapError S) (S.Hash × Register S.toRegisterScheme)
  | insert keypair entry replace => multimapInsert keypair register entry replace
  | remove keypair toRemove => multimapRemove keypair register toRemove

def step (register : Register S.toRegisterScheme) (call : MultimapCall S) : Register S.toRegisterScheme :=
  match call.perform register with
  | .ok (_, after) => after
  | .error _ => register

def superseding : MultimapCall S → ExtTreeSet S.Hash
  | insert _ _ replace => replace
  | remove _ toRemove => toRemove

def OverKnown (register : Register S.toRegisterScheme) (call : MultimapCall S) : Prop :=
  ∀ hash ∈ call.superseding, Known register hash

theorem step_ofMultimap (ofMultimap : OfMultimap register) {call : MultimapCall S}
    (known : OverKnown register call) : OfMultimap (step register call) := by
  rw [step]
  split
  · rename_i performed
    cases call with
    | insert keypair entry replace =>
      obtain ⟨-, rfl⟩ := writeEntry_eq_ok performed
      exact ofMultimap.grow known (Or.inr ⟨entry, rfl⟩)
    | remove keypair toRemove =>
      obtain ⟨-, rfl⟩ := writeEntry_eq_ok performed
      exact ofMultimap.grow known (Or.inl rfl)
  · exact ofMultimap

end MultimapCall

/-- A register is reached from a new one by calls that supersede entries known at the time. -/
def Reached (register : Register S.toRegisterScheme) : Prop :=
  ∃ authority name tag policy calls,
    Throughout MultimapCall.step MultimapCall.OverKnown (.new authority name tag policy) calls ∧
      run MultimapCall.step (.new authority name tag policy) calls = register

theorem Reached.ofMultimap (reached : Reached register) : OfMultimap register := by
  obtain ⟨authority, name, tag, policy, calls, known, rfl⟩ := reached
  exact known.induction (ofMultimap_new authority name tag policy) fun _ _ kept =>
    MultimapCall.step_ofMultimap kept

end MultimapScheme

abbrev sampleMultimaps : MultimapScheme where
  toStorageScheme := sampleStorage
  toVecNamed entry := 0 :: (SampleStorage.bytes.pair SampleStorage.bytes).encode entry
  fromSlice bytes := ((SampleStorage.bytes.pair SampleStorage.bytes).decode bytes.tail).map Prod.fst
  fromSlice_toVecNamed entry := by
    have read := (SampleStorage.bytes.pair SampleStorage.bytes).decode_encode entry []
    rw [List.append_nil] at read
    rw [List.tail_cons, read]
    rfl
  toVecNamed_ne_nil entry := List.cons_ne_nil _ _

end SafeNetwork

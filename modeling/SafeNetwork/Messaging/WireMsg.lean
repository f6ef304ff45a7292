import SafeNetwork.Library.Coding
import SafeNetwork.Messaging
import SafeNetwork.NetworkKnowledge.Knowledge

/-!
# Messages on the wire

`serialisation/wire_msg_header.rs` and `serialisation/wire_msg.rs`: a message goes over the wire as three
parts. The header is a frame of its own: its length and the version of the protocol, two bytes each, then
the envelope with the id and the kind of the message. Parts that were serialized before, or that a
message was read from, are kept and sent again as they are.
-/

namespace SafeNetwork

inductive MsgKind (ClientAuth : Type) where
  | antiEntropy (name : XorName)
  | client (auth : ClientAuth) (isSpend : Bool) (queryIndex : Option UInt64)
  | node (name : XorName) (isJoin : Bool)
  | dataResponse (name : XorName)

structure MsgEnvelope (MsgId ClientAuth : Type) where
  msgId : MsgId
  kind : MsgKind ClientAuth

/-- `messaging::Error`. -/
inductive MessagingError where
  | serialisation (text : String)
  | failedToParse (text : String)
  | invalidSignature
  | unsupportedVersion (version : UInt16)

/-- What messages use of `rmp_serde`, and the texts of the errors of `bincode`. -/
structure WireScheme extends SectionScheme where
  MsgId : Type
  ClientAuth : Type
  /-- `rmp_serde::to_vec_named` of an envelope. -/
  encodeEnvelope : MsgEnvelope MsgId ClientAuth → Except String (List UInt8)
  /-- `rmp_serde::from_slice` for an envelope. -/
  decodeEnvelope : List UInt8 → Except String (MsgEnvelope MsgId ClientAuth)
  /-- `rmp_serde::encode::write` of a destination. -/
  encodeDst : Dst toKeyScheme → Except String (List UInt8)
  /-- `rmp_serde::from_slice` for a destination. -/
  decodeDst : List UInt8 → Except String (Dst toKeyScheme)
  /-- What `bincode` says of too few bytes. -/
  bincodeError : String

variable {W : WireScheme}

/-! ## The header -/

def messagingProtoVersion : UInt16 := 1

structure WireMsgHeader (W : WireScheme) where
  version : UInt16
  msgEnvelope : MsgEnvelope W.MsgId W.ClientAuth

structure HeaderMeta where
  headerLen : UInt16
  version : UInt16

namespace HeaderMeta

def size : Nat := 4

/-- `BINCODE_OPTIONS`: fields one after the other, in big-endian bytes. -/
def bincodeOptions : Coding HeaderMeta :=
  (Coding.u16.pair Coding.u16).retract (fun self => (self.headerLen, self.version))
    (fun fields => some ⟨fields.1, fields.2⟩) fun _ => rfl

theorem length_encode (self : HeaderMeta) : (bincodeOptions.encode self).length = size := rfl

end HeaderMeta

namespace WireMsgHeader

def new (msgId : W.MsgId) (kind : MsgKind W.ClientAuth) : WireMsgHeader W :=
  ⟨messagingProtoVersion, ⟨msgId, kind⟩⟩

/-- `WireMsgHeader::from`, `none` when it slices the bytes out of range. -/
def fromBytes (bytes : List UInt8) : Option (Except MessagingError (WireMsgHeader W)) :=
  let bytesLen := bytes.length
  match HeaderMeta.bincodeOptions.decode bytes with
  | none =>
    let err := W.bincodeError
    some (.error (.failedToParse s!"invalid message header: {err}"))
  | some (leading, _) =>
    if leading.headerLen.toNat > bytesLen then
      some (.error (.failedToParse
        s!"not enough bytes received ({bytesLen}) to deserialize wire message header"))
    else if leading.version ≠ messagingProtoVersion then
      some (.error (.unsupportedVersion leading.version))
    else if leading.headerLen.toNat < HeaderMeta.size then none
    else
      let msgEnvelopeBytes := (bytes.take leading.headerLen.toNat).drop HeaderMeta.size
      match W.decodeEnvelope msgEnvelopeBytes with
      | .error err => some (.error (.failedToParse
          s!"source authority couldn't be deserialized from the header: {err}"))
      | .ok msgEnvelope => some (.ok ⟨leading.version, msgEnvelope⟩)

/-- `WireMsgHeader::serialize`. Writing to the buffer does not fail. -/
def serialize (self : WireMsgHeader W) : Except MessagingError (List UInt8) :=
  match W.encodeEnvelope self.msgEnvelope with
  | .error err => .error (.serialisation
      s!"could not serialize message envelope with Msgpack: {err}")
  | .ok msgEnvelopeVec =>
    let leading := ⟨UInt16.ofNat (HeaderMeta.size + msgEnvelopeVec.length), self.version⟩
    .ok (HeaderMeta.bincodeOptions.encode leading ++ msgEnvelopeVec)

end WireMsgHeader

/-! ## The message -/

def WireScheme.serializeDstPayload (W : WireScheme) (dst : Dst W.toKeyScheme) :
    Except MessagingError (List UInt8) :=
  match W.encodeDst dst with
  | .error err => .error (.serialisation s!"could not serialize dst payload with Msgpack: {err}")
  | .ok bytes => .ok bytes

abbrev WireScheme.messages (W : WireScheme) : MessageScheme where
  toSectionScheme := W.toSectionScheme
  WireMsgHeader := WireMsgHeader W
  MessagingError := MessagingError
  serializeHeader := WireMsgHeader.serialize
  serializeDstPayload := W.serializeDstPayload

namespace WireMsg

def newMsg (msgId : W.MsgId) (payload : List UInt8) (kind : MsgKind W.ClientAuth)
    (dst : Dst W.toKeyScheme) : WireMsg W.messages where
  header := WireMsgHeader.new msgId kind
  serializedHeader := none
  payload := payload
  dst := dst
  serializedDst := none

/-- `WireMsg::from`, `none` when it slices the header out of range. -/
def fromBytes (bytes : UsrMsgBytes) : Option (Except MessagingError (WireMsg W.messages)) :=
  let (headerBytes, dstBytes, payload) := bytes
  match WireMsgHeader.fromBytes headerBytes with
  | none => none
  | some (.error error) => some (.error error)
  | some (.ok header) =>
    match W.decodeDst dstBytes with
    | .error err => some (.error (.failedToParse
        s!"Message dst couldn't be deserialized from the dst bytes: {err}"))
    | .ok dst => some (.ok ⟨header, some headerBytes, payload, dst, some dstBytes⟩)

def serializeAndCacheBytes (self : WireMsg W.messages) :
    Except MessagingError UsrMsgBytes × WireMsg W.messages :=
  match self.serializedHeader.elim self.header.serialize .ok with
  | .error error => (.error error, self)
  | .ok header =>
    let self := { self with serializedHeader := some header }
    match self.serializedDst.elim (W.serializeDstPayload self.dst) .ok with
    | .error error => (.error error, self)
    | .ok dst => (.ok (header, dst, self.payload), { self with serializedDst := some dst })

def serializeWithNewDst (self : WireMsg W.messages) (dst : Dst W.toKeyScheme) :
    Except MessagingError UsrMsgBytes :=
  match self.serializedHeader.elim self.header.serialize .ok with
  | .error error => .error error
  | .ok header =>
    match W.serializeDstPayload dst with
    | .error error => .error error
    | .ok dst => .ok (header, dst, self.payload)

def msgId (self : WireMsg W.messages) : W.MsgId := self.header.msgEnvelope.msgId

def kind (self : WireMsg W.messages) : MsgKind W.ClientAuth := self.header.msgEnvelope.kind

end WireMsg

/-! ## Round trips -/

/-- What is encoded is read back, and an envelope is so short that the length of the header fits. -/
structure WireScheme.RoundTrips (W : WireScheme) : Prop where
  envelope : ∀ {envelope bytes}, W.encodeEnvelope envelope = .ok bytes →
    W.decodeEnvelope bytes = .ok envelope
  dst : ∀ {dst bytes}, W.encodeDst dst = .ok bytes → W.decodeDst bytes = .ok dst
  short : ∀ {envelope bytes}, W.encodeEnvelope envelope = .ok bytes → bytes.length < 65532

theorem WireMsgHeader.fromBytes_serialize (trips : W.RoundTrips) {header : WireMsgHeader W}
    (version : header.version = messagingProtoVersion) {bytes : List UInt8}
    (serialized : header.serialize = .ok bytes) : fromBytes bytes = some (.ok header) := by
  obtain ⟨_, msgEnvelope⟩ := header
  obtain rfl := version
  rw [serialize] at serialized
  split at serialized
  · cases serialized
  · rename_i envelopeBytes encoded
    obtain rfl := Except.ok.inj serialized
    -- The length of the header does not wrap.
    have short := trips.short encoded
    have exactLen : (UInt16.ofNat (HeaderMeta.size + envelopeBytes.length)).toNat =
        HeaderMeta.size + envelopeBytes.length := by
      rw [UInt16.toNat_ofNat', HeaderMeta.size]
      omega
    generalize UInt16.ofNat (HeaderMeta.size + envelopeBytes.length) = headerLen at exactLen ⊢
    have leading := HeaderMeta.length_encode ⟨headerLen, messagingProtoVersion⟩
    have decoded := HeaderMeta.bincodeOptions.decode_encode ⟨headerLen, messagingProtoVersion⟩
      envelopeBytes
    generalize HeaderMeta.bincodeOptions.encode ⟨headerLen, messagingProtoVersion⟩ = leadingBytes
      at leading decoded ⊢
    have total : (leadingBytes ++ envelopeBytes).length = headerLen.toNat := by
      rw [List.length_append, leading, exactLen]
    have envelope : ((leadingBytes ++ envelopeBytes).take headerLen.toNat).drop HeaderMeta.size =
        envelopeBytes := by
      rw [← total, List.take_length, List.drop_left' leading]
    simp only [fromBytes, decoded]
    rw [if_neg (by omega), if_neg (by simp), if_neg (by omega), envelope,
      trips.envelope encoded]

theorem WireMsgHeader.version_of_fromBytes {header : WireMsgHeader W} {bytes : List UInt8}
    (read : fromBytes bytes = some (.ok header)) : header.version = messagingProtoVersion := by
  rw [fromBytes] at read
  dsimp only at read
  split at read
  · cases read
  · split_ifs at read with _ version
    · cases read
    · cases read
    · split at read
      · cases read
      · obtain rfl := Except.ok.inj (Option.some.inj read)
        exact not_not.mp version

/-! ## Reading any bytes -/

namespace WireMsgHeader

/-- A header of the supported version that claims to be shorter than its length and version are. -/
def Short (bytes : List UInt8) : Prop :=
  ∃ headerLen rest, HeaderMeta.bincodeOptions.decode bytes = some (⟨headerLen, messagingProtoVersion⟩, rest) ∧
    headerLen.toNat < HeaderMeta.size

theorem size_le_length {bytes rest : List UInt8} {leading : HeaderMeta}
    (read : HeaderMeta.bincodeOptions.decode bytes = some (leading, rest)) : HeaderMeta.size ≤ bytes.length := by
  rcases bytes with _ | ⟨_, _ | ⟨_, _ | ⟨_, _ | ⟨_, _⟩⟩⟩⟩
  · cases read
  · cases read
  · cases read
  · cases read
  · simp [HeaderMeta.size]

theorem fromBytes_eq_none {bytes : List UInt8} :
    (fromBytes bytes : Option (Except MessagingError (WireMsgHeader W))) = none ↔ Short bytes := by
  cases read : HeaderMeta.bincodeOptions.decode bytes with
  | none => simp [fromBytes, Short, read]
  | some result =>
    obtain ⟨⟨headerLen, version⟩, rest⟩ := result
    have enough := size_le_length read
    have short : Short bytes ↔ version = messagingProtoVersion ∧ headerLen.toNat < HeaderMeta.size := by
      simp [Short, read, and_comm]
    simp only [fromBytes, read, short]
    split_ifs with few unsupported slices
    · simp only [false_iff, not_and]
      omega
    · simp [unsupported]
    · simpa using ⟨not_not.mp unsupported, slices⟩
    · split <;> simp [slices]

end WireMsgHeader

/-- Reading a message of any three parts returns a message or an error, unless its header claims to be shorter
than its length and version are; then the header is sliced out of range. -/
theorem WireMsg.fromBytes_returns_iff (headerBytes dstBytes payload : List UInt8) :
    ((∃ result : Except MessagingError (WireMsgHeader W), WireMsgHeader.fromBytes headerBytes = some result) ↔
      ¬ WireMsgHeader.Short headerBytes) ∧
    ((∃ result : Except MessagingError (WireMsg W.messages),
      fromBytes (headerBytes, dstBytes, payload) = some result) ↔ ¬ WireMsgHeader.Short headerBytes) := by
  rw [← WireMsgHeader.fromBytes_eq_none (W := W), ← ne_eq, Option.ne_none_iff_exists']
  refine ⟨Iff.rfl, ?_⟩
  rw [fromBytes]
  cases (WireMsgHeader.fromBytes headerBytes : Option (Except MessagingError (WireMsgHeader W))) with
  | none => simp
  | some read =>
    cases read with
    | error error => simp
    | ok header => cases W.decodeDst dstBytes <;> simp

/-! ## Messages on their way -/

namespace WireMsg

variable {msg : WireMsg W.messages}

structure Sound (msg : WireMsg W.messages) : Prop where
  version : msg.header.version = messagingProtoVersion
  header : ∀ bytes, msg.serializedHeader = some bytes →
    WireMsgHeader.fromBytes bytes = some (.ok msg.header)
  dst : ∀ bytes, msg.serializedDst = some bytes → W.decodeDst bytes = .ok msg.dst

theorem Sound.newMsg (msgId : W.MsgId) (payload : List UInt8) (kind : MsgKind W.ClientAuth)
    (dst : Dst W.toKeyScheme) : (newMsg msgId payload kind dst).Sound where
  version := rfl
  header _ kept := by cases kept
  dst _ kept := by cases kept

theorem Sound.header_part (sound : msg.Sound) (trips : W.RoundTrips) {bytes : List UInt8}
    (part : msg.serializedHeader.elim msg.header.serialize .ok = .ok bytes) :
    WireMsgHeader.fromBytes bytes = some (.ok msg.header) := by
  cases kept : msg.serializedHeader with
  | none =>
    rw [kept] at part
    exact WireMsgHeader.fromBytes_serialize trips sound.version part
  | some old =>
    rw [kept] at part
    obtain rfl := Except.ok.inj part
    exact sound.header old kept

theorem decodeDst_serialize (trips : W.RoundTrips) {dst : Dst W.toKeyScheme} {bytes : List UInt8}
    (serialized : W.serializeDstPayload dst = .ok bytes) : W.decodeDst bytes = .ok dst := by
  rw [WireScheme.serializeDstPayload] at serialized
  split at serialized
  · cases serialized
  · rename_i encoded
    obtain rfl := Except.ok.inj serialized
    exact trips.dst encoded

theorem Sound.dst_part (sound : msg.Sound) (trips : W.RoundTrips) {bytes : List UInt8}
    (part : msg.serializedDst.elim (W.serializeDstPayload msg.dst) .ok = .ok bytes) :
    W.decodeDst bytes = .ok msg.dst := by
  cases kept : msg.serializedDst with
  | none =>
    rw [kept] at part
    exact decodeDst_serialize trips part
  | some old =>
    rw [kept] at part
    obtain rfl := Except.ok.inj part
    exact sound.dst old kept

theorem fromBytes_parts {header : WireMsgHeader W} {dst : Dst W.toKeyScheme}
    {headerBytes dstBytes payload : List UInt8} (read : WireMsgHeader.fromBytes headerBytes = some (.ok header))
    (decoded : W.decodeDst dstBytes = .ok dst) : fromBytes (headerBytes, dstBytes, payload) =
      some (.ok ⟨header, some headerBytes, payload, dst, some dstBytes⟩) := by
  simp only [fromBytes, read, decoded]

theorem serialize_eq_cached (msg : WireMsg W.messages) : msg.serialize = msg.serializeAndCacheBytes.1 := by
  obtain ⟨header, kept, payload, dst, keptDst⟩ := msg
  cases kept <;> cases keptDst <;>
    simp only [serialize, serializeAndCacheBytes, Option.elim, pure, bind, Except.pure, Except.bind]
  · cases header.serialize with
    | error error => rfl
    | ok bytes =>
      cases W.serializeDstPayload dst <;> rfl
  · cases header.serialize <;> rfl
  · cases W.serializeDstPayload dst <;> rfl

section

variable (sound : msg.Sound) (trips : W.RoundTrips)
include sound trips

theorem Sound.fromBytes_cached {bytes : UsrMsgBytes}
    (serialized : msg.serializeAndCacheBytes.1 = .ok bytes) :
    fromBytes bytes = some (.ok ⟨msg.header, some bytes.1, msg.payload, msg.dst, some bytes.2.1⟩) := by
  rw [serializeAndCacheBytes] at serialized
  split at serialized
  · cases serialized
  · rename_i header read
    dsimp only at serialized
    split at serialized
    · cases serialized
    · rename_i dst decoded
      obtain rfl := Except.ok.inj serialized
      exact fromBytes_parts (sound.header_part trips read) (sound.dst_part trips decoded)

/-- Parts serialized for another destination are read as a message with it, and the same header and
payload. -/
theorem Sound.fromBytes_newDst {newDst : Dst W.toKeyScheme}
    {bytes : UsrMsgBytes} (serialized : msg.serializeWithNewDst newDst = .ok bytes) :
    fromBytes bytes = some (.ok ⟨msg.header, some bytes.1, msg.payload, newDst, some bytes.2.1⟩) := by
  rw [serializeWithNewDst] at serialized
  split at serialized
  · cases serialized
  · rename_i header read
    split at serialized
    · cases serialized
    · rename_i dst encoded
      obtain rfl := Except.ok.inj serialized
      exact fromBytes_parts (sound.header_part trips read) (decodeDst_serialize trips encoded)

theorem Sound.cached : msg.serializeAndCacheBytes.2.Sound := by
  rw [serializeAndCacheBytes]
  split
  · exact sound
  · rename_i header read
    have known : ∀ bytes, some header = some bytes →
        WireMsgHeader.fromBytes bytes = some (.ok msg.header) := by
      rintro _ ⟨⟩
      exact sound.header_part trips read
    dsimp only
    split
    · exact ⟨sound.version, known, sound.dst⟩
    · rename_i dst decoded
      refine ⟨sound.version, known, ?_⟩
      rintro _ ⟨⟩
      exact sound.dst_part trips decoded

end

theorem cached_same (msg : WireMsg W.messages) :
    msg.serializeAndCacheBytes.2.header = msg.header ∧ msg.serializeAndCacheBytes.2.dst = msg.dst ∧
      msg.serializeAndCacheBytes.2.payload = msg.payload := by
  rw [serializeAndCacheBytes]
  split
  · exact ⟨rfl, rfl, rfl⟩
  · dsimp only
    split
    · exact ⟨rfl, rfl, rfl⟩
    · exact ⟨rfl, rfl, rfl⟩

theorem Sound.of_fromBytes {bytes : UsrMsgBytes} (read : fromBytes bytes = some (.ok msg)) : msg.Sound := by
  rw [fromBytes] at read
  split at read
  · cases read
  · cases read
  · rename_i header parsed
    split at read
    · cases read
    · rename_i dst decoded
      obtain rfl := Except.ok.inj (Option.some.inj read)
      refine ⟨WireMsgHeader.version_of_fromBytes parsed, ?_, ?_⟩
      · rintro _ ⟨⟩
        exact parsed
      · rintro _ ⟨⟩
        exact decoded

/-- A message has an id, a kind, a payload and a destination. -/
structure Carries (msgId : W.MsgId) (kind : MsgKind W.ClientAuth) (payload : List UInt8)
    (dst : Dst W.toKeyScheme) (msg : WireMsg W.messages) : Prop where
  msgId : msg.msgId = msgId
  kind : msg.kind = kind
  payload : msg.payload = payload
  dst : msg.dst = dst

/-- What a message becomes that is built or read from bytes, and then kept, sent and forwarded any number
of times. -/
inductive Reached (msgId : W.MsgId) (kind : MsgKind W.ClientAuth) (payload : List UInt8) :
    Dst W.toKeyScheme → WireMsg W.messages → Prop where
  | new (dst : Dst W.toKeyScheme) : Reached msgId kind payload dst (newMsg msgId payload kind dst)
  | read {bytes : UsrMsgBytes} {dst : Dst W.toKeyScheme} {msg : WireMsg W.messages}
    (read : fromBytes bytes = some (.ok msg)) (carries : msg.Carries msgId kind payload dst) :
    Reached msgId kind payload dst msg
  | cached {dst : Dst W.toKeyScheme} {msg : WireMsg W.messages}
    (before : Reached msgId kind payload dst msg) :
    Reached msgId kind payload dst msg.serializeAndCacheBytes.2
  | sent {dst : Dst W.toKeyScheme} {msg received : WireMsg W.messages} {bytes : UsrMsgBytes}
    (before : Reached msgId kind payload dst msg) (serialized : msg.serialize = .ok bytes)
    (read : fromBytes bytes = some (.ok received)) : Reached msgId kind payload dst received
  | forwarded {dst newDst : Dst W.toKeyScheme} {msg received : WireMsg W.messages}
    {bytes : UsrMsgBytes} (before : Reached msgId kind payload dst msg)
    (serialized : msg.serializeWithNewDst newDst = .ok bytes)
    (read : fromBytes bytes = some (.ok received)) : Reached msgId kind payload newDst received

variable {msgId : W.MsgId} {kind : MsgKind W.ClientAuth} {payload : List UInt8}
  {dst newDst : Dst W.toKeyScheme} {bytes : UsrMsgBytes}

theorem Carries.sent (carries : msg.Carries msgId kind payload dst) (sound : msg.Sound)
    (trips : W.RoundTrips) (serialized : msg.serialize = .ok bytes) :
    ∃ received, fromBytes bytes = some (.ok received) ∧
      received.Carries msgId kind payload dst := by
  rw [serialize_eq_cached] at serialized
  refine ⟨_, sound.fromBytes_cached trips serialized, ?_⟩
  exact ⟨carries.msgId, carries.kind, carries.payload, carries.dst⟩

theorem Carries.forwarded (carries : msg.Carries msgId kind payload dst) (sound : msg.Sound)
    (trips : W.RoundTrips) (serialized : msg.serializeWithNewDst newDst = .ok bytes) :
    ∃ received, fromBytes bytes = some (.ok received) ∧
      received.Carries msgId kind payload newDst := by
  refine ⟨_, sound.fromBytes_newDst trips serialized, ?_⟩
  exact ⟨carries.msgId, carries.kind, carries.payload, rfl⟩

theorem Reached.sound_carries (trips : W.RoundTrips) (reached : Reached msgId kind payload dst msg) :
    msg.Sound ∧ msg.Carries msgId kind payload dst := by
  induction reached with
  | new dst => exact ⟨.newMsg .., ⟨rfl, rfl, rfl, rfl⟩⟩
  | read read carries => exact ⟨.of_fromBytes read, carries⟩
  | @cached dst msg before ih =>
    obtain ⟨sound, carries⟩ := ih
    obtain ⟨header, sameDst, samePayload⟩ := msg.cached_same
    refine ⟨sound.cached trips, ?_, ?_, samePayload.trans carries.payload, sameDst.trans carries.dst⟩
    · rw [WireMsg.msgId, header]
      exact carries.msgId
    · rw [WireMsg.kind, header]
      exact carries.kind
  | sent before serialized read ih =>
    obtain ⟨sound, carries⟩ := ih
    obtain ⟨received, read', carries'⟩ := carries.sent sound trips serialized
    obtain rfl := Except.ok.inj (Option.some.inj (read.symm.trans read'))
    exact ⟨.of_fromBytes read, carries'⟩
  | forwarded before serialized read ih =>
    obtain ⟨sound, carries⟩ := ih
    obtain ⟨received, read', carries'⟩ := carries.forwarded sound trips serialized
    obtain rfl := Except.ok.inj (Option.some.inj (read.symm.trans read'))
    exact ⟨.of_fromBytes read, carries'⟩

/-- Whatever a message becomes, the bytes it is serialized to are read as a message with its id, kind,
destination and payload, and those it is forwarded with as one with the new destination. -/
theorem Reached.round_trips (trips : W.RoundTrips) (reached : Reached msgId kind payload dst msg) :
    (∀ bytes, msg.serialize = .ok bytes → ∃ received, fromBytes bytes = some (.ok received) ∧
      received.Carries msgId kind payload dst) ∧
    (∀ bytes, msg.serializeAndCacheBytes.1 = .ok bytes → ∃ received, fromBytes bytes = some (.ok received) ∧
        received.Carries msgId kind payload dst) ∧
    ∀ newDst bytes, msg.serializeWithNewDst newDst = .ok bytes → ∃ received, fromBytes bytes = some (.ok received) ∧
        received.Carries msgId kind payload newDst := by
  obtain ⟨sound, carries⟩ := reached.sound_carries trips
  refine ⟨fun bytes serialized => carries.sent sound trips serialized,
    fun bytes serialized => ?_, fun newDst bytes serialized => carries.forwarded sound trips serialized⟩
  rw [← serialize_eq_cached] at serialized
  exact carries.sent sound trips serialized

end WireMsg

/-! ## Sample messages -/

def sampleBit (bit : Bool) : UInt8 := if bit then 1 else 0

def sampleReadName (bytes : List UInt8) : XorName :=
  ⟨(bytes.takeD 256 0).map (· == 1), by rw [List.length_map, List.takeD_length]⟩

abbrev sampleWire : WireScheme where
  toSectionScheme := sampleScheme
  MsgId := Bool
  ClientAuth := Unit
  encodeEnvelope
    | ⟨msgId, .client () isSpend none⟩ => .ok [sampleBit msgId, sampleBit isSpend]
    | _ => .error "unsupported kind"
  decodeEnvelope
    | [msgId, isSpend] => .ok ⟨msgId == 1, .client () (isSpend == 1) none⟩
    | _ => .error "unsupported kind"
  encodeDst dst := .ok (dst.name.bits.map sampleBit ++ List.replicate dst.sectionKey 0)
  decodeDst bytes := .ok ⟨sampleReadName bytes, bytes.length - 256⟩
  bincodeError := "io error: unexpected end of file"

/-- The header `0 3 0 1` is sliced from its fourth byte to its third. -/
theorem WireMsg.fromBytes_panics : (fromBytes ([0, 3, 0, 1], [], []) : Option (Except MessagingError
    (WireMsg sampleWire.messages))) = none := rfl

theorem sampleBit_eq_one (bit : Bool) : (sampleBit bit == 1) = bit := by
  cases bit <;> rfl

theorem sampleWire_encodeEnvelope {envelope : MsgEnvelope Bool Unit} {bytes : List UInt8}
    (encoded : sampleWire.encodeEnvelope envelope = .ok bytes) :
    ∃ msgId isSpend, envelope = ⟨msgId, .client () isSpend none⟩ ∧
      bytes = [sampleBit msgId, sampleBit isSpend] := by
  obtain ⟨msgId, kind⟩ := envelope
  cases kind with
  | client auth isSpend queryIndex =>
    cases queryIndex with
    | none => exact ⟨msgId, isSpend, rfl, (Except.ok.inj encoded).symm⟩
    | some index => cases encoded
  | _ => cases encoded

theorem sampleReadName_encodeDst (name : XorName) (rest : List UInt8) :
    sampleReadName (name.bits.map sampleBit ++ rest) = name := by
  obtain ⟨bits, length⟩ := name
  have front : (bits.map sampleBit ++ rest).takeD 256 0 = bits.map sampleBit :=
    List.takeD_left' (by rw [List.length_map, length])
  have back : (bits.map sampleBit).map (· == 1) = bits := by
    simp [Function.comp_def, sampleBit_eq_one]
  simp only [sampleReadName, front, back]

theorem sampleWire_roundTrips : sampleWire.RoundTrips where
  envelope encoded := by
    obtain ⟨msgId, isSpend, rfl, rfl⟩ := sampleWire_encodeEnvelope encoded
    simp only [sampleBit_eq_one]
  dst {dst _} encoded := by
    obtain rfl := Except.ok.inj encoded
    simp [sampleReadName_encodeDst, dst.name.length_eq]
  short encoded := by
    obtain ⟨msgId, isSpend, rfl, rfl⟩ := sampleWire_encodeEnvelope encoded
    simp

theorem WireMsg.round_trips_sampleWire : ∃ bytes received, (newMsg (W := sampleWire) true [7] (.client () false none)
        ⟨sampleName, (0 : Nat)⟩).serialize = .ok bytes ∧
      bytes.1 = [0, 6, 0, 1, 1, 0] ∧ fromBytes bytes = some (.ok received) ∧
      received.Carries (W := sampleWire) true (.client () false none) [7] ⟨sampleName, (0 : Nat)⟩ := by
  have reached : Reached (W := sampleWire) true (.client () false none) [7] ⟨sampleName, (0 : Nat)⟩
      (newMsg (W := sampleWire) true [7] (.client () false none) ⟨sampleName, (0 : Nat)⟩) := .new _
  obtain ⟨received, read, carries⟩ := (Reached.round_trips sampleWire_roundTrips reached).1 _ rfl
  exact ⟨_, received, rfl, rfl, read, carries⟩

end SafeNetwork

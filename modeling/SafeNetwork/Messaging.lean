import SafeNetwork.NetworkKnowledge.SectionMemberHistory

/-!
# Messages

The parts of `messaging` that anti-entropy uses: where a message goes, its bytes on the wire and
the kinds of answers to a sender with outdated knowledge.
-/

namespace SafeNetwork

/-- `Dst` — where a message goes. -/
structure Dst (K : KeyScheme) where
  name : XorName
  sectionKey : K.PublicKey

/-- What messages use of their encodings (`rmp_serde`, `bincode`). -/
structure MessageScheme extends SectionScheme where
  WireMsgHeader : Type
  MessagingError : Type
  serializeHeader : WireMsgHeader → Except MessagingError (List UInt8)
  serializeDstPayload : Dst toKeyScheme → Except MessagingError (List UInt8)

/-- The bytes of a message: header, destination and payload. -/
abbrev UsrMsgBytes : Type := List UInt8 × List UInt8 × List UInt8

/-- `WireMsg` — a message with the parts that are already serialized. -/
structure WireMsg (M : MessageScheme) where
  header : M.WireMsgHeader
  serializedHeader : Option (List UInt8)
  payload : List UInt8
  dst : Dst M.toKeyScheme
  serializedDst : Option (List UInt8)

/-- `WireMsg::serialize` — cached parts are not serialized again. -/
def WireMsg.serialize {M : MessageScheme} (self : WireMsg M) :
    Except M.MessagingError UsrMsgBytes := do
  let header ← match self.serializedHeader with
    | some bytes => .ok bytes
    | none => M.serializeHeader self.header
  let dst ← match self.serializedDst with
    | some bytes => .ok bytes
    | none => M.serializeDstPayload self.dst
  return (header, dst, self.payload)

inductive AntiEntropyKind (S : SectionScheme) where
  /-- The message had outdated section information and can be sent again. -/
  | retry (bouncedMsg : UsrMsgBytes)
  | redirect (bouncedMsg : UsrMsgBytes)
  | update (sectionDecisions : List (Decision S))

end SafeNetwork

import Mathlib

/-!
# Errors of the network knowledge

The errors that the modelled functions of `network_knowledge` return. A text is kept without the
debug prints of values in it; an error whose text is a debug print alone carries nothing.
`Error.diverged` is no error of the source: a loop of the model that has used up its bound returns
it, so it stands for a call that does not return. The bounds are chosen, and proved, to be met only
by a loop that would run for ever.
-/

namespace SafeNetwork

/-- `network_knowledge::Error`, over the type of section keys. -/
inductive Error (PublicKey : Type) where
  | nonGenesisSap
  /-- The provided signature cannot be verified while inserting into the `SectionsDAG`. -/
  | invalidSignature
  /-- Key not found in the `SectionsDAG`. -/
  | keyNotFound (key : PublicKey)
  /-- The 'to' or 'from' key is not present in the same branch of the `SectionsDAG`. -/
  | invalidBranch
  /-- The `SectionsDAG` should contain a single branch. -/
  | multipleBranchError
  | untrustedProofChain (text : String)
  /-- Provided proof chain doesn't cover the SAP's key we currently know. -/
  | sapKeyNotCoveredByProofChain
  | untrustedSectionAuthProvider (text : String)
  | tryJoinLater
  | noMatchingSection
  | existingMemberSocketAddrConflict
  | existingMemberNameConflict
  | notAMember
  | wrongSection
  | consensus
  | archivedNodeRejoined
  | aeOutdated
  | diverged
deriving DecidableEq, Repr

end SafeNetwork

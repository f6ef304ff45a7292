import SafeNetwork.NetworkKnowledge.SectionAuthorityProvider
import SafeNetwork.NetworkKnowledge.DagTree
import SafeNetwork.NetworkKnowledge.DagAncestors

/-!
# Members of our section

`section_member_history.rs`: the members since the last change of our SAP and the archive of the
members that left. A new SAP resets the first and prunes the second by the ancestors of its key.
-/

namespace SafeNetwork

open Std

/-- `sn_consensus::Decision` — what a section agreed on, with its signature over each proposal. -/
structure Decision (S : SectionScheme) where
  generation : Nat
  proposals : ExtTreeMap S.NodeState S.Signature

/-- `SectionMemberHistory` — current and archived members of our section. -/
structure SectionMemberHistory (S : SectionScheme) where
  initialMembers : ExtTreeSet S.NodeState := ∅
  decisions : List (Decision S) := []
  archive : ExtTreeMap XorName (Decision S) := ∅

def elderChurnEventsToPruneArchive : Nat := 5

namespace SectionMemberHistory

variable {S : SectionScheme}

def resetInitialMembers (self : SectionMemberHistory S)
    (newInitialMembers : ExtTreeSet S.NodeState) : SectionMemberHistory S :=
  { self with initialMembers := newInitialMembers, decisions := [] }

/-- `SectionMemberHistory::retain` — remove the archived members whose name does not match. -/
def retain (self : SectionMemberHistory S) (sapPrefix : Prefix) : SectionMemberHistory S :=
  { self with archive := self.archive.filter fun name _ => sapPrefix.matchesName name }

def signedBy (decision : Decision S) (sectionKey : S.PublicKey) : Bool :=
  decision.proposals.toList.any fun proposal =>
    match S.serializeNodeState proposal.1 with
    | some bytes => S.verify sectionKey proposal.2 bytes
    | none => false

/-- `SectionMemberHistory::prune_members_archive` — keep what one of the latest keys signed. -/
def pruneMembersArchive (self : SectionMemberHistory S) (proofChain : SectionsDAG S.toKeyScheme)
    (lastKey : S.PublicKey) : S.Result (SectionMemberHistory S) := do
  let ancestors ← proofChain.getAncestors lastKey
  let latestSectionKeys := ancestors.take (elderChurnEventsToPruneArchive - 1) ++ [lastKey]
  return { self with
    archive := self.archive.filter fun _ decision => latestSectionKeys.any (signedBy decision) }

theorem exists_pruneMembersArchive (self : SectionMemberHistory S)
    {proofChain : SectionsDAG S.toKeyScheme} (tidy : proofChain.Tidy) {lastKey : S.PublicKey}
    (known : proofChain.hasKey lastKey = true) :
    ∃ members, self.pruneMembersArchive proofChain lastKey = .ok members := by
  obtain ⟨ancestors, path⟩ := tidy.ends lastKey
  simp [pruneMembersArchive, (tidy.getAncestors_eq_ok known).mpr path, bind, Except.bind, pure,
    Except.pure]

end SectionMemberHistory

end SafeNetwork

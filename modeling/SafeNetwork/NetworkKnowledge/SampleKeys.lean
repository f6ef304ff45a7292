import SafeNetwork.NetworkKnowledge.SectionsDag

/-!
# A sample key scheme

Numbers stand for keys, and a signature records who signed and how long the signed bytes are.
The hash of a node lists its content, so that it has no collision. The scheme shows that the
interface the DAG is built on can be met, and serves concrete runs.
-/

namespace SafeNetwork

open Std Crdt

theorem flatMap_length_cons_injective {left right : List (List Nat)}
    (same : left.flatMap (fun part => part.length :: part) =
      right.flatMap fun part => part.length :: part) : left = right := by
  induction left generalizing right with
  | nil =>
    cases right with
    | nil => rfl
    | cons part rest => simp at same
  | cons part rest ih =>
    cases right with
    | nil => simp at same
    | cons part' rest' =>
      simp only [List.flatMap_cons, List.cons_append, List.cons.injEq] at same
      obtain ⟨rfl, later⟩ := List.append_inj same.2 same.1
      rw [ih later]

def sampleHash (node : Node (List Nat) (SectionInfo Nat (Nat × Nat))) : List Nat :=
  node.value.key :: node.value.sig.1 :: node.value.sig.2 ::
    node.children.toList.flatMap fun child => child.length :: child

theorem sampleHash_injective : Function.Injective sampleHash := by
  intro left right same
  simp only [sampleHash, List.cons.injEq] at same
  obtain ⟨key, signer, signed, children⟩ := same
  have listed := flatMap_length_cons_injective children
  have sets : left.children = right.children := by
    apply ExtTreeSet.ext_mem
    intro child
    rw [← ExtTreeSet.mem_toList, ← ExtTreeSet.mem_toList, listed]
  obtain ⟨_, _, _, _⟩ := left
  obtain ⟨_, _, _, _⟩ := right
  simp_all

/-- Keys `0, 1, 2, …`; key `n` is encoded by `n` bytes, and whoever holds a key can sign. -/
abbrev sampleKeys : KeyScheme where
  PublicKey := Nat
  Signature := Nat × Nat
  Hash := List Nat
  verify key sig bytes := sig.1 == key && sig.2 == bytes.length
  serializeKey key := some (List.replicate key 0)
  merkle := MerkleReg.ofHash sampleHash sampleHash_injective

def sampleSig (signer key : Nat) : sampleKeys.Signature := (signer, key)

end SafeNetwork

import SafeNetwork.Library.Runs

/-!
# Tallies

Votes are counted by key, each voter once, until more voters than the limit of the key have voted. The
vote that exceeds the limit completes the count, and counting starts over. Whatever else happens in
between, votes of more voters than the limit cannot go by without one that completes the count.
-/

namespace Tally

variable {κ ι ρ : Type} {limit : κ → Nat}

def Within (limit : κ → Nat) (tally : κ → Finset ι) : Prop := ∀ key, (tally key).card ≤ limit key

theorem Within.empty : Within (ι := ι) limit fun _ => ∅ :=
  fun _ => Nat.zero_le _

variable [DecidableEq κ] [DecidableEq ι]

def Completes (limit : κ → Nat) (tally : κ → Finset ι) (vote : κ × ι) : Prop :=
  limit vote.1 < (insert vote.2 (tally vote.1)).card

instance (limit : κ → Nat) (tally : κ → Finset ι) (vote : κ × ι) :
    Decidable (Completes limit tally vote) := inferInstanceAs (Decidable (_ < _))

def add (limit : κ → Nat) (tally : κ → Finset ι) (vote : κ × ι) : κ → Finset ι :=
  Function.update tally vote.1
    (if Completes limit tally vote then ∅ else insert vote.2 (tally vote.1))

def step (limit : κ → Nat) (vote : ρ → Option (κ × ι)) (tally : κ → Finset ι) (request : ρ) :
    κ → Finset ι :=
  match vote request with
  | some given => add limit tally given
  | none => tally

variable {vote : ρ → Option (κ × ι)} {tally : κ → Finset ι} {key : κ}
  {requests : List ρ}

theorem Within.step (within : Within limit tally) (request : ρ) : Within limit (step limit vote tally request) := by
  rw [Tally.step]
  split
  · intro key
    rw [add, Function.update_apply]
    split
    · rename_i given _ same
      split
      · simp
      · rename_i incomplete
        rw [same]
        exact Nat.le_of_not_lt incomplete
    · exact within key
  · exact within

def Quiet (limit : κ → Nat) (vote : ρ → Option (κ × ι)) (key : κ) (tally : κ → Finset ι)
    (request : ρ) : Prop :=
  ∀ voter, vote request = some (key, voter) → ¬ Completes limit tally (key, voter)

theorem Quiet.mem_step {request : ρ} (quiet : Quiet limit vote key tally request) {voter : ι}
    (known : voter ∈ tally key ∨ vote request = some (key, voter)) : voter ∈ step limit vote tally request key := by
  cases voted : vote request with
  | none =>
    rcases known with earlier | now
    · rwa [step, voted]
    · rw [voted] at now
      cases now
  | some given =>
    obtain ⟨other, name⟩ := given
    simp only [step, voted, add, Function.update_apply]
    rcases known with earlier | now
    · split
      · rename_i same
        obtain rfl : key = other := same
        rw [if_neg (quiet name voted)]
        exact Finset.mem_insert_of_mem earlier
      · exact earlier
    · obtain ⟨rfl, rfl⟩ := Prod.mk.inj (Option.some.inj (voted.symm.trans now))
      rw [if_pos rfl, if_neg (quiet name voted)]
      exact Finset.mem_insert_self ..

theorem mem_run (quiet : Runs.Throughout (step limit vote) (Quiet limit vote key) tally requests) {voter : ι}
    (known : voter ∈ tally key ∨ ∃ request ∈ requests, vote request = some (key, voter)) :
    voter ∈ Runs.run (step limit vote) tally requests key := by
  induction requests generalizing tally with
  | nil =>
    rcases known with known | ⟨request, mem, -⟩
    · exact known
    · cases mem
  | cons request rest ih =>
    rcases known with known | ⟨other, mem, voted⟩
    · exact ih quiet.2 (.inl (quiet.1.mem_step (.inl known)))
    · rcases List.mem_cons.mp mem with rfl | later
      · exact ih quiet.2 (.inl (quiet.1.mem_step (.inr voted)))
      · exact ih quiet.2 (.inr ⟨other, later, voted⟩)

theorem exists_completes (within : Within limit tally) {voters : Finset ι}
    (voted : ∀ voter ∈ voters, ∃ request ∈ requests, vote request = some (key, voter))
    (enough : limit key < voters.card) : ∃ earlier request later voter, requests = earlier ++ request :: later ∧
      vote request = some (key, voter) ∧
        Completes limit (Runs.run (step limit vote) tally earlier) (key, voter) := by
  by_contra none
  have quiet : Runs.Throughout (step limit vote) (Quiet limit vote key) tally requests := by
    by_contra loud
    obtain ⟨earlier, request, later, rfl, completes⟩ := Runs.exists_of_not_throughout loud
    simp only [Quiet, not_forall, not_not] at completes
    obtain ⟨voter, given, completes⟩ := completes
    exact none ⟨earlier, request, later, voter, rfl, given, completes⟩
  have kept : voters ⊆ Runs.run (step limit vote) tally requests key :=
    fun voter mem => mem_run quiet (.inr (voted voter mem))
  have bounded : Within limit (Runs.run (step limit vote) tally requests) :=
    Runs.run_induction within fun _ within request _ => within.step request
  exact absurd (Finset.card_le_card kept) (Nat.not_le.mpr (Nat.lt_of_le_of_lt (bounded key) enough))

end Tally

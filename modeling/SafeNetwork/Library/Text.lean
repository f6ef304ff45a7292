import Mathlib

/-!
# Replacing in lists

Every occurrence of a pattern is replaced, from left to right and without overlaps.
-/

namespace Text

variable {α : Type} [DecidableEq α]

/-- Every occurrence is replaced, after some symbols to pass over. An empty pattern occurs around every symbol. -/
def replaceFrom (pattern replacement : List α) : Nat → List α → List α
  | _, [] => if pattern.isEmpty then replacement else []
  | skip + 1, _ :: rest => replaceFrom pattern replacement skip rest
  | 0, symbol :: rest =>
    if pattern.isEmpty then replacement ++ symbol :: replaceFrom pattern replacement 0 rest
    else if pattern <+: symbol :: rest then
      replacement ++ replaceFrom pattern replacement (pattern.length - 1) rest
    else symbol :: replaceFrom pattern replacement 0 rest

def replaceAll (pattern replacement text : List α) : List α := replaceFrom pattern replacement 0 text

variable {pattern : List α}

theorem replaceFrom_append (replacement passed rest : List α) :
    replaceFrom pattern replacement passed.length (passed ++ rest) = replaceFrom pattern replacement 0 rest := by
  induction passed with
  | nil => rfl
  | cons symbol passed hypothesis => simpa [replaceFrom] using hypothesis

theorem replaceAll_append (nonempty : pattern ≠ []) (replacement rest : List α) :
    replaceAll pattern replacement (pattern ++ rest) = replacement ++ replaceAll pattern replacement rest := by
  cases pattern with
  | nil => exact absurd rfl nonempty
  | cons symbol tail =>
    have start : symbol :: tail <+: symbol :: (tail ++ rest) := List.prefix_append (symbol :: tail) rest
    simp only [replaceAll, List.cons_append, replaceFrom, List.isEmpty_cons, Bool.false_eq_true, if_false,
      if_pos start, List.length_cons, Nat.add_sub_cancel, replaceFrom_append]

theorem replaceAll_of_not_infix {text : List α} (absent : ¬ pattern <:+: text) (replacement : List α) :
    replaceAll pattern replacement text = text := by
  have nonempty : pattern.isEmpty = false := by
    cases pattern with
    | nil => exact absurd (List.nil_infix) absent
    | cons symbol tail => rfl
  rw [replaceAll]
  induction text with
  | nil => simp [replaceFrom, nonempty]
  | cons symbol rest hypothesis =>
    have start : ¬ pattern <+: symbol :: rest := fun start => absent start.isInfix
    have later : ¬ pattern <:+: rest := fun later => absent (List.infix_cons later)
    simp [replaceFrom, nonempty, start, hypothesis later]

end Text

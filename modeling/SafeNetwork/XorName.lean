import Mathlib

/-!
# Names and prefixes

`xor_name`: a name is 256 bits, and a prefix is its leading bits. Prefixes are ordered as the
ordered maps of the source order them: an ancestor before its descendants, otherwise by the first
bit that differs. The model does not bound the length of a prefix.
-/

namespace SafeNetwork

open Std

structure XorName where
  bits : List Bool
  length_eq : bits.length = 256
deriving DecidableEq

/-- Names are ordered by their bits. -/
instance : Ord XorName := ⟨compareOn XorName.bits⟩

instance : TransOrd XorName := inferInstanceAs (TransCmp (compareOn XorName.bits))

instance : LawfulEqOrd XorName where
  eq_of_compare := by
    rintro ⟨left, _⟩ ⟨right, _⟩ same
    obtain rfl : left = right := Std.compare_eq_iff_eq.mp same
    rfl

def XorName.bit (self : XorName) (index : Nat) : Bool := self.bits.getD index false

/-- `Prefix`. -/
@[ext]
structure Prefix where
  bits : List Bool
deriving DecidableEq, Repr

namespace Prefix

/-- `Prefix::default` — the prefix of all names. -/
instance : Inhabited Prefix := ⟨⟨[]⟩⟩

instance : Ord Prefix := ⟨fun left right => compare left.bits right.bits⟩

instance : TransOrd Prefix where
  eq_swap := by
    intro left right
    change compare left.bits right.bits = (compare right.bits left.bits).swap
    exact OrientedCmp.eq_swap
  isLE_trans := by
    intro left middle right first second
    change (compare left.bits middle.bits).isLE = true at first
    change (compare left.bits right.bits).isLE = true
    exact TransCmp.isLE_trans first second

instance : LawfulEqOrd Prefix where
  compare_self := by
    intro one
    change compare one.bits one.bits = .eq
    exact ReflCmp.compare_self
  eq_of_compare := fun same => Prefix.ext (Std.compare_eq_iff_eq.mp same)

def isEmpty (self : Prefix) : Bool := self.bits.isEmpty

/-- `Prefix::popped` — without the last bit. -/
def popped (self : Prefix) : Prefix := ⟨self.bits.dropLast⟩

/-- `Prefix::pushed` — with one more bit. -/
def pushed (self : Prefix) (bit : Bool) : Prefix := ⟨self.bits ++ [bit]⟩

/-- `Prefix::is_compatible` — one of the two extends the other. -/
def isCompatible (self other : Prefix) : Bool :=
  self.bits.isPrefixOf other.bits || other.bits.isPrefixOf self.bits

/-- `Prefix::is_extension_of` — longer and compatible. -/
def isExtensionOf (self other : Prefix) : Bool :=
  other.bits.length < self.bits.length && self.isCompatible other

/-- `Prefix::matches` — whether the name starts with the bits. -/
def matchesName (self : Prefix) (name : XorName) : Bool := self.bits.isPrefixOf name.bits

def Covers (self other : Prefix) : Prop := self.bits <+: other.bits

instance (self other : Prefix) : Decidable (self.Covers other) :=
  inferInstanceAs (Decidable (self.bits <+: other.bits))

variable {self other third : Prefix}

@[refl] theorem Covers.refl : self.Covers self := List.prefix_refl _

theorem Covers.trans (first : self.Covers other) (second : other.Covers third) :
    self.Covers third := List.IsPrefix.trans first second

theorem Covers.antisymm (first : self.Covers other) (second : other.Covers self) : self = other :=
  Prefix.ext (first.eq_of_length_le second.length_le)

theorem Covers.total (first : self.Covers third) (second : other.Covers third) :
    self.Covers other ∨ other.Covers self :=
  List.prefix_or_prefix_of_prefix first second

theorem default_covers : (default : Prefix).Covers self := List.nil_prefix

theorem covers_pushed (self : Prefix) (bit : Bool) : self.Covers (self.pushed bit) :=
  List.prefix_append _ _

theorem covers_pushed_iff {bit : Bool} :
    other.Covers (self.pushed bit) ↔ other = self.pushed bit ∨ other.Covers self := by
  rw [Covers, pushed, List.prefix_concat_iff, Covers, Prefix.ext_iff]

theorem pushed_disjoint {bit : Bool} (first : (self.pushed bit).Covers other) :
    ¬ (self.pushed !bit).Covers other := by
  intro second
  have same : (self.pushed bit).bits = (self.pushed !bit).bits := by
    obtain ordered | ordered := first.total second
    · exact List.IsPrefix.eq_of_length ordered (by simp [pushed])
    · exact (List.IsPrefix.eq_of_length ordered (by simp [pushed])).symm
  cases bit <;> simp [pushed] at same

theorem isExtensionOf_iff : self.isExtensionOf other = true ↔ other.Covers self ∧ other ≠ self := by
  simp only [isExtensionOf, isCompatible, Bool.and_eq_true, decide_eq_true_eq, Bool.or_eq_true,
    List.isPrefixOf_iff_prefix]
  constructor
  · rintro ⟨longer, below | above⟩
    · exact absurd below.length_le (by omega)
    · refine ⟨above, ?_⟩
      rintro rfl
      omega
  · rintro ⟨above, differs⟩
    refine ⟨?_, Or.inr above⟩
    by_contra short
    exact differs (Prefix.ext (above.eq_of_length_le (by omega)))

theorem isEmpty_iff : self.isEmpty = true ↔ self = default := by
  rw [isEmpty, List.isEmpty_iff, Prefix.ext_iff]
  rfl

theorem exists_pushed (proper : self.isEmpty = false) : ∃ bit, self = self.popped.pushed bit := by
  obtain empty | ⟨init, bit, same⟩ := List.eq_nil_or_concat self.bits
  · simp [isEmpty, empty] at proper
  · exact ⟨bit, Prefix.ext (by simp [popped, pushed, same])⟩

theorem covers_default_iff : self.Covers default ↔ self = default :=
  ⟨fun covers => covers.antisymm default_covers, fun same => same ▸ .refl⟩

theorem covers_iff_popped (proper : other.isEmpty = false) :
    self.Covers other ↔ self = other ∨ self.Covers other.popped := by
  obtain ⟨bit, split⟩ := exists_pushed proper
  conv_lhs => rw [split]
  rw [covers_pushed_iff, ← split]

theorem not_covers_popped (proper : self.isEmpty = false) : ¬ self.Covers self.popped := by
  intro covers
  have shorter := covers.length_le
  cases empty : self.bits with
  | nil => simp [isEmpty, empty] at proper
  | cons bit rest =>
    simp [popped, empty] at shorter

theorem matchesName_pushed {self : Prefix} {name : XorName} {bit : Bool} (short : self.bits.length < 256) :
    (self.pushed bit).matchesName name = true ↔
      self.matchesName name = true ∧ name.bit self.bits.length = bit := by
  have inside : self.bits.length < name.bits.length := name.length_eq ▸ short
  rw [matchesName, matchesName, pushed, List.isPrefixOf_iff_prefix, List.isPrefixOf_iff_prefix,
    XorName.bit]
  constructor
  · rintro ⟨rest, whole⟩
    rw [← whole, List.append_assoc]
    exact ⟨List.prefix_append _ _, by simp⟩
  · rintro ⟨⟨rest, whole⟩, next⟩
    cases rest with
    | nil =>
      rw [← whole, List.append_nil] at inside
      exact absurd inside (lt_irrefl _)
    | cons first rest =>
      rw [← whole] at next ⊢
      obtain rfl : first = bit := by simpa using next
      exact ⟨rest, by simp⟩

end Prefix

end SafeNetwork

import Mathlib

/-!
# Codings

A coding writes a value as bytes and reads it back from the front of more bytes. Codings are put
together from those of numbers, pairs, alternatives and lists, and carried over to any type whose
values can be taken apart.
-/

open Std

/-- A way to write values as bytes and to read them back. -/
structure Coding (α : Type) where
  encode : α → List UInt8
  decode : List UInt8 → Option (α × List UInt8)
  decode_encode : ∀ value rest, decode (encode value ++ rest) = some (value, rest)

namespace Coding

variable {α β : Type} {count limit : Nat} {bits : List Bool}

def decodeNat : List UInt8 → Option (Nat × List UInt8)
  | [] => none
  | byte :: rest =>
    if byte = 0 then some (0, rest) else (decodeNat rest).map fun read => (read.1 + 1, read.2)

def nat : Coding Nat where
  encode value := List.replicate value 1 ++ [0]
  decode := decodeNat
  decode_encode value rest := by
    induction value with
    | zero => rfl
    | succ value ih =>
      rw [List.replicate_succ, List.cons_append, List.cons_append, decodeNat, if_neg (by decide), ih]
      rfl

def u16 : Coding UInt16 where
  encode value := [UInt8.ofNat (value.toNat / 256), UInt8.ofNat (value.toNat % 256)]
  decode
    | high :: low :: rest => some (UInt16.ofNat (high.toNat * 256 + low.toNat), rest)
    | _ => none
  decode_encode value rest := by
    have bound := value.toNat_lt
    have high : (UInt8.ofNat (value.toNat / 256)).toNat = value.toNat / 256 := by
      rw [UInt8.toNat_ofNat']
      omega
    have low : (UInt8.ofNat (value.toNat % 256)).toNat = value.toNat % 256 := by
      rw [UInt8.toNat_ofNat']
      omega
    have whole : value.toNat / 256 * 256 + value.toNat % 256 = value.toNat := by omega
    simp only [List.cons_append, List.nil_append, high, low, whole, UInt16.ofNat_toNat]

def pair (first : Coding α) (second : Coding β) : Coding (α × β) where
  encode value := first.encode value.1 ++ second.encode value.2
  decode bytes := do
    let (left, rest) ← first.decode bytes
    let (right, rest) ← second.decode rest
    some ((left, right), rest)
  decode_encode value rest := by
    simp [List.append_assoc, first.decode_encode, second.decode_encode]

def choice (first : Coding α) (second : Coding β) : Coding (α ⊕ β) where
  encode
    | .inl value => 0 :: first.encode value
    | .inr value => 1 :: second.encode value
  decode
    | [] => none
    | byte :: rest =>
      if byte = 0 then (first.decode rest).map fun read => (.inl read.1, read.2)
      else (second.decode rest).map fun read => (.inr read.1, read.2)
  decode_encode value rest := by
    cases value with
    | inl value => simp [first.decode_encode]
    | inr value => simp [second.decode_encode]

def retract (coding : Coding β) (apart : α → β) (together : β → Option α)
    (inverse : ∀ value, together (apart value) = some value) : Coding α where
  encode value := coding.encode (apart value)
  decode bytes := do
    let (parts, rest) ← coding.decode bytes
    let value ← together parts
    some (value, rest)
  decode_encode value rest := by
    simp [coding.decode_encode, inverse]

def decodeMany (coding : Coding α) : Nat → List UInt8 → Option (List α × List UInt8)
  | 0, bytes => some ([], bytes)
  | count + 1, bytes => do
    let (value, rest) ← coding.decode bytes
    let (values, rest) ← decodeMany coding count rest
    some (value :: values, rest)

theorem decodeMany_flatMap (coding : Coding α) (values : List α) (rest : List UInt8) :
    decodeMany coding values.length (values.flatMap coding.encode ++ rest) = some (values, rest) := by
  induction values with
  | nil => rfl
  | cons value values ih =>
    simp [decodeMany, List.append_assoc, coding.decode_encode, ih]

def list (coding : Coding α) : Coding (List α) where
  encode values := nat.encode values.length ++ values.flatMap coding.encode
  decode bytes := do
    let (count, rest) ← nat.decode bytes
    decodeMany coding count rest
  decode_encode values rest := by
    rw [List.append_assoc, nat.decode_encode]
    exact decodeMany_flatMap coding values rest

def treeMap [Ord α] [TransOrd α] [LawfulEqOrd α] [DecidableEq α] (entry : Coding (α × β)) :
    Coding (ExtTreeMap α β) :=
  entry.list.retract ExtTreeMap.toList (fun entries => some (.ofList entries)) (by
    intro map
    apply congrArg some
    apply ExtTreeMap.ext_getElem?
    intro key
    cases stored : map[key]? with
    | none =>
      apply ExtTreeMap.getElem?_ofList_of_contains_eq_false
      rw [Bool.eq_false_iff, ne_eq, List.contains_iff_mem]
      intro mem
      obtain ⟨⟨key', value⟩, inside, rfl⟩ := List.mem_map.mp mem
      rw [ExtTreeMap.mem_toList_iff_getElem?_eq_some, stored] at inside
      cases inside
    | some value =>
      apply ExtTreeMap.getElem?_ofList_of_mem ReflCmp.compare_self ExtTreeMap.distinct_keys_toList
      exact ExtTreeMap.mem_toList_iff_getElem?_eq_some.mpr stored)

def treeSet [Ord α] [TransOrd α] [LawfulEqOrd α] [DecidableEq α] (element : Coding α) :
    Coding (ExtTreeSet α) :=
  element.list.retract ExtTreeSet.toList (fun elements => some (.ofList elements)) (by
    intro set
    apply congrArg some
    apply ExtTreeSet.ext_mem
    intro one
    rw [ExtTreeSet.mem_ofList, List.contains_iff_mem, ExtTreeSet.mem_toList])

/-! ## Fixed sizes -/

def encodeLittleEndian : Nat → Nat → List UInt8
  | 0, _ => []
  | count + 1, value => UInt8.ofNat value :: encodeLittleEndian count (value / 256)

def decodeLittleEndian : Nat → List UInt8 → Option (Nat × List UInt8)
  | 0, bytes => some (0, bytes)
  | _ + 1, [] => none
  | count + 1, byte :: rest =>
    (decodeLittleEndian count rest).map fun read => (byte.toNat + 256 * read.1, read.2)

theorem decodeLittleEndian_encode {value : Nat} (small : value < 256 ^ count) (rest : List UInt8) :
    decodeLittleEndian count (encodeLittleEndian count value ++ rest) = some (value, rest) := by
  induction count generalizing value with
  | zero =>
    obtain rfl : value = 0 := by omega
    rfl
  | succ count ih =>
    have high : value / 256 < 256 ^ count := by
      rw [Nat.div_lt_iff_lt_mul (by decide)]
      exact small
    rw [encodeLittleEndian, List.cons_append, decodeLittleEndian, ih high, Option.map_some,
      UInt8.toNat_ofNat']
    have whole : value % 2 ^ 8 + 256 * (value / 256) = value := by omega
    rw [whole]

@[simp] theorem length_encodeLittleEndian (count value : Nat) : (encodeLittleEndian count value).length = count := by
  induction count generalizing value with
  | zero => rfl
  | succ count ih => rw [encodeLittleEndian, List.length_cons, ih]

def u32LittleEndian : Coding UInt32 where
  encode value := encodeLittleEndian 4 value.toNat
  decode bytes := (decodeLittleEndian 4 bytes).map fun read => (UInt32.ofNat read.1, read.2)
  decode_encode value rest := by
    rw [decodeLittleEndian_encode value.toNat_lt, Option.map_some, UInt32.ofNat_toNat]

def u64LittleEndian : Coding UInt64 where
  encode value := encodeLittleEndian 8 value.toNat
  decode bytes := (decodeLittleEndian 8 bytes).map fun read => (UInt64.ofNat read.1, read.2)
  decode_encode value rest := by
    rw [decodeLittleEndian_encode value.toNat_lt, Option.map_some, UInt64.ofNat_toNat]

/-- A size below a limit as eight bytes, least significant first. One that is not is the limit and what is
missing. -/
def encodeSize (limit value : Nat) : List UInt8 :=
  if value < limit then encodeLittleEndian 8 value
  else encodeLittleEndian 8 limit ++ nat.encode (value - limit)

def decodeSize (limit : Nat) (bytes : List UInt8) : Option (Nat × List UInt8) := do
  let (value, rest) ← decodeLittleEndian 8 bytes
  if value < limit then some (value, rest)
  else
    let (missing, rest) ← nat.decode rest
    some (value + missing, rest)

theorem decodeSize_encodeSize (small : limit < 256 ^ 8) (value : Nat) (rest : List UInt8) :
    decodeSize limit (encodeSize limit value ++ rest) = some (value, rest) := by
  rw [encodeSize, decodeSize]
  split_ifs with fits
  · simp [decodeLittleEndian_encode (Nat.lt_trans fits small), fits]
  · simp only [List.append_assoc, decodeLittleEndian_encode small, nat.decode_encode,
      Option.bind_eq_bind, Option.bind_some, if_neg (Nat.lt_irrefl limit)]
    rw [Nat.add_sub_of_le (Nat.le_of_not_lt fits)]

theorem length_encodeSize (positive : 0 < limit) (value : Nat) : (encodeSize limit value).length ≤ 8 + value := by
  rw [encodeSize]
  split_ifs with fits
  · rw [length_encodeLittleEndian]
    omega
  · rw [List.length_append, length_encodeLittleEndian, nat, List.length_append, List.length_replicate,
      List.length_singleton]
    omega

def maxSize : Nat := 2 ^ 64 - 1

theorem maxSize_lt : maxSize < 256 ^ 8 := by
  norm_num [maxSize]

/-- A size as eight bytes, least significant first, unless it is too large for any memory. -/
def size : Coding Nat where
  encode := encodeSize maxSize
  decode := decodeSize maxSize
  decode_encode := decodeSize_encodeSize maxSize_lt

theorem length_encode_size (value : Nat) : (size.encode value).length ≤ 8 + value :=
  length_encodeSize (by norm_num [maxSize]) value

def vec (coding : Coding α) : Coding (List α) where
  encode values := size.encode values.length ++ values.flatMap coding.encode
  decode bytes := do
    let (count, rest) ← size.decode bytes
    decodeMany coding count rest
  decode_encode values rest := by
    rw [List.append_assoc, size.decode_encode]
    exact decodeMany_flatMap coding values rest

def byte : Coding UInt8 where
  encode value := [value]
  decode
    | [] => none
    | value :: rest => some (value, rest)
  decode_encode _ _ := rfl

def byteOfBits (bits : List Bool) : UInt8 := UInt8.ofNat (bits.foldl (fun value bit => 2 * value + bit.toNat) 0)

def bitsOfByte (value : UInt8) : List Bool := [7, 6, 5, 4, 3, 2, 1, 0].map value.toNat.testBit

theorem bitsOfByte_byteOfBits_eight : ∀ a b c d e f g h : Bool,
    bitsOfByte (byteOfBits [a, b, c, d, e, f, g, h]) = [a, b, c, d, e, f, g, h] := by
  decide +kernel

def encodeBits : List Bool → List UInt8
  | a :: b :: c :: d :: e :: f :: g :: h :: rest => byteOfBits [a, b, c, d, e, f, g, h] :: encodeBits rest
  | _ => []

def decodeBits : Nat → List UInt8 → Option (List Bool × List UInt8)
  | 0, bytes => some ([], bytes)
  | _ + 1, [] => none
  | count + 1, byte :: rest =>
    (decodeBits count rest).map fun read => (bitsOfByte byte ++ read.1, read.2)

theorem decodeBits_encodeBits (length : bits.length = 8 * count)
    (rest : List UInt8) : decodeBits count (encodeBits bits ++ rest) = some (bits, rest) := by
  induction count generalizing bits with
  | zero =>
    obtain rfl := List.length_eq_zero_iff.mp length
    rfl
  | succ count ih =>
    rcases bits with _ | ⟨a, _ | ⟨b, _ | ⟨c, _ | ⟨d, _ | ⟨e, _ | ⟨f, _ | ⟨g, _ | ⟨h, bits⟩⟩⟩⟩⟩⟩⟩⟩
    all_goals simp only [List.length_cons, List.length_nil] at length
    all_goals try omega
    rw [encodeBits, List.cons_append, decodeBits, ih (by omega), Option.map_some,
      bitsOfByte_byteOfBits_eight]
    rfl

theorem length_encodeBits (length : bits.length = 8 * count) : (encodeBits bits).length = count := by
  induction count generalizing bits with
  | zero =>
    obtain rfl := List.length_eq_zero_iff.mp length
    rfl
  | succ count ih =>
    rcases bits with _ | ⟨a, _ | ⟨b, _ | ⟨c, _ | ⟨d, _ | ⟨e, _ | ⟨f, _ | ⟨g, _ | ⟨h, bits⟩⟩⟩⟩⟩⟩⟩⟩
    all_goals simp only [List.length_cons, List.length_nil] at length
    all_goals try omega
    rw [encodeBits, List.length_cons, ih (by omega)]

def bitString (count : Nat) : Coding { bits : List Bool // bits.length = 8 * count } where
  encode value := encodeBits value.1
  decode bytes := do
    let (bits, rest) ← decodeBits count bytes
    if length : bits.length = 8 * count then some (⟨bits, length⟩, rest) else none
  decode_encode value rest := by
    simp [decodeBits_encodeBits value.2, value.2]

/-! ## Blocks of one length -/

section Blocks

variable {size : Nat} {block : α → List β} {left right : List α} {rest rest' : List β}

theorem flatMap_append_eq_iff (length : ∀ value, (block value).length = size)
    (injective : Function.Injective block) (shorter : left.length ≤ right.length) :
    left.flatMap block ++ rest = right.flatMap block ++ rest' ↔
      ∃ more, right = left ++ more ∧ rest = more.flatMap block ++ rest' := by
  induction left generalizing right with
  | nil => simp
  | cons value left ih =>
    cases right with
    | nil => simp at shorter
    | cons value' right =>
      have later := ih (Nat.le_of_succ_le_succ shorter)
      simp only [List.flatMap_cons, List.append_assoc, List.cons_append, List.cons.injEq]
      constructor
      · intro same
        obtain ⟨first, others⟩ := List.append_inj same ((length value).trans (length value').symm)
        obtain ⟨more, rfl, after⟩ := later.mp others
        exact ⟨more, ⟨(injective first).symm, rfl⟩, after⟩
      · rintro ⟨more, ⟨rfl, rfl⟩, after⟩
        rw [later.mpr ⟨more, rfl, after⟩]

theorem flatMap_inj (length : ∀ value, (block value).length = size) (positive : 0 < size)
    (injective : Function.Injective block) : left.flatMap block = right.flatMap block ↔ left = right := by
  refine ⟨fun same => ?_, fun same => by rw [same]⟩
  have total : ∀ values : List α, (values.flatMap block).length = values.length * size := by
    intro values
    simp [List.length_flatMap, length]
  have count : left.length = right.length := by
    have lengths := congrArg List.length same
    rw [total, total] at lengths
    exact Nat.eq_of_mul_eq_mul_right positive lengths
  rw [← List.append_nil (left.flatMap block), ← List.append_nil (right.flatMap block)] at same
  obtain ⟨more, rfl, -⟩ := (flatMap_append_eq_iff length injective count.le).mp same
  obtain rfl : more = [] := by simpa using count
  exact (List.append_nil left).symm

end Blocks

end Coding

import Mathlib.Algebra.Group.Nat.Defs

namespace FairMQ.Data.MsgPack

def bigEndian : Nat → Nat → List UInt8
  | 0, _ => []
  | width + 1, number => UInt8.ofNat (number / 256 ^ width) :: bigEndian width number

def ofBigEndian (bytes : List UInt8) : Nat :=
  bytes.foldl (fun number byte => number * 256 + byte.toNat) 0

@[simp]
theorem length_bigEndian (width number : Nat) : (bigEndian width number).length = width := by
  induction width with
  | zero => rfl
  | succ width ih => simp [bigEndian, ih]

def binHeader (size : Nat) : List UInt8 :=
  if size < 2 ^ 8 then 0xc4 :: bigEndian 1 size
  else if size < 2 ^ 16 then 0xc5 :: bigEndian 2 size
  else 0xc6 :: bigEndian 4 size

theorem binHeader_length_pos (size : Nat) : 0 < (binHeader size).length := by
  unfold binHeader
  split
  · simp
  · split <;> simp

theorem binHeader_length_le (size : Nat) : (binHeader size).length ≤ 5 := by
  unfold binHeader
  split
  · simp
  · split <;> simp

inductive Length where
  | fixed (size : Nat)
  | field (width : Nat)
deriving DecidableEq, Repr

/-- The markers of the binary and of the string family. -/
def lengthOf (marker : UInt8) : Option Length :=
  if marker = 0xc4 ∨ marker = 0xd9 then some (.field 1)
  else if marker = 0xc5 ∨ marker = 0xda then some (.field 2)
  else if marker = 0xc6 ∨ marker = 0xdb then some (.field 4)
  else if 0xa0 ≤ marker ∧ marker ≤ 0xbf then some (.fixed (marker.toNat - 0xa0))
  else none

def splitBytes (size : Nat) (bytes : List UInt8) : Option (List UInt8 × List UInt8) :=
  if size ≤ bytes.length then some (bytes.take size, bytes.drop size) else none

def readBytes : List UInt8 → Option (List UInt8 × List UInt8)
  | [] => none
  | marker :: bytes =>
      match lengthOf marker with
      | none => none
      | some (.fixed size) => splitBytes size bytes
      | some (.field width) =>
          match splitBytes width bytes with
          | none => none
          | some (field, rest) => splitBytes (ofBigEndian field) rest

theorem foldl_bigEndian (width number high : Nat) :
    (bigEndian width number).foldl (fun number byte => number * 256 + byte.toNat) high =
      high * 256 ^ width + number % 256 ^ width := by
  induction width generalizing high with
  | zero => simp [bigEndian, Nat.mod_one]
  | succ width ih =>
      have digit : (UInt8.ofNat (number / 256 ^ width)).toNat = number / 256 ^ width % 256 :=
        UInt8.toNat_ofNat'
      simp only [bigEndian, List.foldl_cons, digit, ih, Nat.pow_succ]
      rw [Nat.mod_mul, Nat.add_mul, Nat.mul_assoc, Nat.mul_comm 256, Nat.mul_comm (number / _ % _)]
      omega

theorem ofBigEndian_bigEndian {width number : Nat} (fits : number < 256 ^ width) :
    ofBigEndian (bigEndian width number) = number := by
  rw [ofBigEndian, foldl_bigEndian, Nat.zero_mul, Nat.zero_add, Nat.mod_eq_of_lt fits]

theorem splitBytes_append {size : Nat} {front : List UInt8} (length : front.length = size)
    (rest : List UInt8) : splitBytes size (front ++ rest) = some (front, rest) := by
  subst length
  simp [splitBytes]

theorem splitBytes_eq_some {size : Nat} {bytes front rest : List UInt8}
    (found : splitBytes size bytes = some (front, rest)) : bytes = front ++ rest := by
  unfold splitBytes at found
  split at found
  · cases found
    exact (List.take_append_drop size bytes).symm
  · contradiction

theorem readBytes_field {marker : UInt8} {width : Nat} {body rest : List UInt8}
    (isField : lengthOf marker = some (.field width)) (fits : body.length < 256 ^ width) :
    readBytes (marker :: bigEndian width body.length ++ body ++ rest) = some (body, rest) := by
  have field : splitBytes width (bigEndian width body.length ++ (body ++ rest)) =
      some (bigEndian width body.length, body ++ rest) :=
    splitBytes_append (length_bigEndian _ _) _
  simp only [List.cons_append, List.append_assoc, readBytes, isField, field,
    ofBigEndian_bigEndian fits]
  exact splitBytes_append rfl rest

theorem readBytes_binHeader {body : List UInt8} (fits : body.length < 2 ^ 32)
    (rest : List UInt8) :
    readBytes (binHeader body.length ++ body ++ rest) = some (body, rest) := by
  unfold binHeader
  split
  · exact readBytes_field (by decide) (by omega)
  · split
    · exact readBytes_field (by decide) (by omega)
    · exact readBytes_field (by decide) (by omega)

theorem readBytes_consumes {bytes body rest : List UInt8}
    (found : readBytes bytes = some (body, rest)) :
    ∃ object, object ≠ [] ∧ bytes = object ++ rest := by
  cases bytes with
  | nil => cases found
  | cons marker bytes =>
      simp only [readBytes] at found
      split at found
      · contradiction
      · rw [splitBytes_eq_some found]
        exact ⟨marker :: body, by simp, rfl⟩
      · split at found
        · contradiction
        · rename_i field behind isField
          rw [splitBytes_eq_some isField, splitBytes_eq_some found]
          exact ⟨marker :: (field ++ body), by simp, by simp⟩

structure Unpacker where
  unpack : List UInt8 → Option (List UInt8 × List UInt8)
  consumes : ∀ {bytes body rest}, unpack bytes = some (body, rest) →
    ∃ object, object ≠ [] ∧ bytes = object ++ rest
  binary : ∀ {body}, body.length < 2 ^ 32 → ∀ rest,
    unpack (binHeader body.length ++ body ++ rest) = some (body, rest)

def bytesUnpacker : Unpacker where
  unpack := readBytes
  consumes := readBytes_consumes
  binary := readBytes_binHeader

namespace Unpacker

/-- The byte strings that a buffer yields one after the other.  The reading ends with the
buffer, or at an object that fails. -/
inductive Reads (unpacker : Unpacker) : List UInt8 → List (List UInt8) → Bool → Prop where
  | finished : Reads unpacker [] [] true
  | stuck {bytes : List UInt8} (nonempty : bytes ≠ []) (fails : unpacker.unpack bytes = none) :
      Reads unpacker bytes [] false
  | cons {bytes body rest : List UInt8} {bodies : List (List UInt8)} {whole : Bool}
      (first : unpacker.unpack bytes = some (body, rest))
      (others : Reads unpacker rest bodies whole) : Reads unpacker bytes (body :: bodies) whole

def Concatenation (unpacker : Unpacker) (bytes : List UInt8) : Prop :=
  ∃ bodies, unpacker.Reads bytes bodies true

variable {unpacker : Unpacker} {bytes body rest : List UInt8}

theorem unpack_shorter (found : unpacker.unpack bytes = some (body, rest)) :
    rest.length < bytes.length := by
  obtain ⟨object, nonempty, rfl⟩ := unpacker.consumes found
  have positive := List.length_pos_iff.mpr nonempty
  simp only [List.length_append]
  omega

theorem reads_exists (unpacker : Unpacker) (bytes : List UInt8) :
    ∃ bodies whole, unpacker.Reads bytes bodies whole := by
  induction size : bytes.length using Nat.strongRecOn generalizing bytes with
  | ind n ih =>
      subst size
      by_cases empty : bytes = []
      · subst empty
        exact ⟨[], true, .finished⟩
      · cases found : unpacker.unpack bytes with
        | none => exact ⟨[], false, .stuck empty found⟩
        | some object =>
            obtain ⟨bodies, whole, others⟩ := ih _ (unpack_shorter found) object.2 rfl
            exact ⟨object.1 :: bodies, whole, .cons found others⟩

theorem Reads.nil_iff {bodies : List (List UInt8)} {whole : Bool}
    (reads : unpacker.Reads bytes bodies whole) :
    bodies = [] ↔ bytes = [] ∨ unpacker.unpack bytes = none := by
  cases reads with
  | finished => simp
  | stuck nonempty fails => simp [fails]
  | cons first others =>
      obtain ⟨object, nonempty, rfl⟩ := unpacker.consumes first
      simp [first, nonempty]

end Unpacker

end FairMQ.Data.MsgPack

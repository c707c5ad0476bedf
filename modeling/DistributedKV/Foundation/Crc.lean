import Mathlib.Logic.Function.Iterate
import Mathlib.Tactic.Common

/-!
# Reflected cyclic redundancy checks

A checksum register of 32 bits that is shifted to the right, one bit of the message at a time.
When the polynomial has its highest bit set, no step loses information: the bit that is shifted
out comes back as the highest bit. Two messages that differ in one byte therefore never have the
same checksum (`checksum_ne_of_byte`), whatever the polynomial is otherwise.
-/

namespace Crc

/-- One bit of the checksum. -/
def bit (polynomial crc : UInt32) : UInt32 :=
  (crc >>> 1) ^^^ (polynomial &&& (0 - (crc &&& 1)))

/-- One byte of the checksum. -/
def byte (polynomial crc : UInt32) (octet : UInt8) : UInt32 :=
  (bit polynomial)^[8] (crc ^^^ octet.toUInt32)

/-- The checksum of a byte string. -/
def checksum (polynomial : UInt32) (bytes : List UInt8) : UInt32 :=
  ~~~ bytes.foldl (byte polynomial) 0xffffffff

variable {polynomial : UInt32}

theorem mask_eq (crc : UInt32) :
    (0 - (crc &&& 1)).toBitVec = bif crc.toBitVec.getLsbD 0 then BitVec.allOnes 32 else 0#32 := by
  have hbit : (crc &&& 1).toBitVec = BitVec.setWidth 32 (BitVec.ofBool (crc.toBitVec.getLsbD 0)) :=
    BitVec.and_one_eq_setWidth_ofBool_getLsbD
  rw [UInt32.toBitVec_sub, hbit]
  cases crc.toBitVec.getLsbD 0 <;> rfl

theorem bit_to_bit_vec (crc : UInt32) :
    (bit polynomial crc).toBitVec =
      (crc.toBitVec >>> 1) ^^^
        bif crc.toBitVec.getLsbD 0 then polynomial.toBitVec else 0#32 := by
  have hbit : (bit polynomial crc).toBitVec =
      (crc.toBitVec >>> 1) ^^^ (polynomial.toBitVec &&& (0 - (crc &&& 1)).toBitVec) := rfl
  rw [hbit, mask_eq]
  cases crc.toBitVec.getLsbD 0
  · simp
  · rw [cond_true, cond_true, BitVec.and_allOnes]

section Highest

variable (hhighest : polynomial.toBitVec.getLsbD 31 = true)
include hhighest

theorem bit_highest (crc : UInt32) :
    (bit polynomial crc).toBitVec.getLsbD 31 = crc.toBitVec.getLsbD 0 := by
  rw [bit_to_bit_vec]
  cases hlow : crc.toBitVec.getLsbD 0
  · simp
  · simp [hhighest]

theorem bit_injective :
    Function.Injective (bit polynomial) := by
  intro first second hsame
  have hlow : first.toBitVec.getLsbD 0 = second.toBitVec.getLsbD 0 := by
    rw [← bit_highest hhighest first, ← bit_highest hhighest second, hsame]
  have hvector := congrArg UInt32.toBitVec hsame
  rw [bit_to_bit_vec, bit_to_bit_vec, hlow, BitVec.xor_left_inj] at hvector
  refine UInt32.toBitVec_inj.mp (BitVec.eq_of_getLsbD_eq fun i hi => ?_)
  cases i with
  | zero => exact hlow
  | succ i =>
    have hshifted := congrArg (fun vector => vector.getLsbD i) hvector
    simpa [BitVec.getLsbD_ushiftRight, Nat.add_comm] using hshifted

theorem byte_injective (octet : UInt8) :
    Function.Injective fun crc => byte polynomial crc octet := by
  intro first second hsame
  exact UInt32.xor_left_inj _ |>.mp ((bit_injective hhighest).iterate 8 hsame)

theorem byte_ne (crc : UInt32) {first second : UInt8} (hne : first ≠ second) :
    byte polynomial crc first ≠ byte polynomial crc second := by
  intro hsame
  have hoctets := UInt32.xor_right_inj _ |>.mp ((bit_injective hhighest).iterate 8 hsame)
  exact hne (by simpa using congrArg UInt32.toUInt8 hoctets)

theorem foldl_ne (bytes : List UInt8) {first second : UInt32} (hne : first ≠ second) :
    bytes.foldl (byte polynomial) first ≠ bytes.foldl (byte polynomial) second := by
  induction bytes generalizing first second with
  | nil => exact hne
  | cons octet rest ih => exact ih ((byte_injective hhighest octet).ne hne)

theorem checksum_ne_of_byte
    (before after : List UInt8) {first second : UInt8} (hne : first ≠ second) :
    checksum polynomial (before ++ first :: after) ≠
      checksum polynomial (before ++ second :: after) := by
  intro hsame
  have hregisters := UInt32.not_inj.mp hsame
  rw [List.foldl_append, List.foldl_append, List.foldl_cons, List.foldl_cons] at hregisters
  exact foldl_ne hhighest after (byte_ne hhighest _ hne) hregisters

end Highest

end Crc

import Cache2.Lib.Bytes

set_option relaxedAutoImplicit false
set_option autoImplicit false

/-!
# Little-endian field codecs and checksums

The field codecs shared by the persistent formats (`codec.rs`, `checksum.rs`). A read is checked
against the end of its input; a write goes to an offset the encoder knows to be in bounds.

The checksum comes from a library outside of the repository. Every format takes it as the
parameter `crc`, the CRC32C of a byte string, and no result assumes anything about it.

## Main definitions

* `Cache2.getU16`, `Cache2.getU32`, `Cache2.getU64` — checked little-endian reads.
* `Cache2.u16Bytes`, `Cache2.u32Bytes`, `Cache2.u64Bytes` — what the writes copy.
* `Cache2.crc32c` — the checksum of several segments.

## Main results

* `Cache2.getField_eq_some_iff` — a read yields a value exactly when the bytes are its encoding.
-/

namespace Cache2

open Bytes

/-- The little-endian field of `w` bits at `offset`, or `none` when it does not lie in the
input. -/
def getField (w : ℕ) (input : List UInt8) (offset : ℕ) : Option (BitVec w) :=
  if offset + w / 8 ≤ input.length then
    some (BitVec.ofNat w (leVal (slice input offset (w / 8))))
  else none

/-- Reads a `u16`. -/
def getU16 : List UInt8 → ℕ → Option (BitVec 16) := getField 16

/-- Reads a `u32`. -/
def getU32 : List UInt8 → ℕ → Option (BitVec 32) := getField 32

/-- Reads a `u64`. -/
def getU64 : List UInt8 → ℕ → Option (BitVec 64) := getField 64

/-- The bytes of a field of `w` bits. -/
def fieldBytes {w : ℕ} (value : BitVec w) : List UInt8 := leBytes (w / 8) value.toNat

/-- The bytes of a `u16`. -/
def u16Bytes (value : BitVec 16) : List UInt8 := fieldBytes value

/-- The bytes of a `u32`. -/
def u32Bytes (value : BitVec 32) : List UInt8 := fieldBytes value

/-- The bytes of a `u64`. -/
def u64Bytes (value : BitVec 64) : List UInt8 := fieldBytes value

/-- A `u16` takes two bytes. -/
@[simp] lemma length_u16Bytes (value : BitVec 16) : (u16Bytes value).length = 2 :=
  length_leBytes _ _

/-- A `u32` takes four bytes. -/
@[simp] lemma length_u32Bytes (value : BitVec 32) : (u32Bytes value).length = 4 :=
  length_leBytes _ _

/-- A `u64` takes eight bytes. -/
@[simp] lemma length_u64Bytes (value : BitVec 64) : (u64Bytes value).length = 8 :=
  length_leBytes _ _

/-- A zero field is zero bytes. -/
lemma fieldBytes_zero (w : ℕ) : fieldBytes (0 : BitVec w) = List.replicate (w / 8) 0 := by
  simp [fieldBytes, leBytes_zero]

/-- A read in bounds yields `value` exactly when the bytes there are the encoding of `value`. -/
theorem getField_eq_some_iff {n : ℕ} {input : List UInt8} {offset : ℕ} {value : BitVec (8 * n)}
    (h : offset + n ≤ input.length) :
    getField (8 * n) input offset = some value ↔ slice input offset n = fieldBytes value := by
  have hn : 8 * n / 8 = n := by omega
  have hpow : 2 ^ (8 * n) = 256 ^ n := by rw [pow_mul]; norm_num
  have hlen : (slice input offset n).length = n := length_slice h
  have hlt := leVal_lt (slice input offset n)
  rw [hlen] at hlt
  simp only [getField, hn, if_pos h, fieldBytes, Option.some.injEq]
  constructor
  · rintro rfl
    rw [BitVec.toNat_ofNat, hpow, Nat.mod_eq_of_lt hlt]
    have hback := leBytes_leVal (slice input offset n)
    rw [hlen] at hback
    exact hback.symm
  · intro hs
    rw [hs, leVal_leBytes, ← hpow, Nat.mod_eq_of_lt value.isLt, BitVec.ofNat_toNat,
      BitVec.setWidth_eq]

/-- What a `u16` read in bounds yields. -/
lemma getU16_eq_some_iff {input : List UInt8} {offset : ℕ} {value : BitVec 16}
    (h : offset + 2 ≤ input.length) :
    getU16 input offset = some value ↔ slice input offset 2 = u16Bytes value :=
  getField_eq_some_iff (n := 2) h

/-- What a `u32` read in bounds yields. -/
lemma getU32_eq_some_iff {input : List UInt8} {offset : ℕ} {value : BitVec 32}
    (h : offset + 4 ≤ input.length) :
    getU32 input offset = some value ↔ slice input offset 4 = u32Bytes value :=
  getField_eq_some_iff (n := 4) h

/-- What a `u64` read in bounds yields. -/
lemma getU64_eq_some_iff {input : List UInt8} {offset : ℕ} {value : BitVec 64}
    (h : offset + 8 ≤ input.length) :
    getU64 input offset = some value ↔ slice input offset 8 = u64Bytes value :=
  getField_eq_some_iff (n := 8) h

/-- A read in bounds yields a value. -/
lemma getField_isSome {w : ℕ} {input : List UInt8} {offset : ℕ}
    (h : offset + w / 8 ≤ input.length) : ∃ value, getField w input offset = some value :=
  ⟨_, if_pos h⟩

/-- Different values have different bytes. -/
lemma fieldBytes_injective {n : ℕ} {a b : BitVec (8 * n)} (h : fieldBytes a = fieldBytes b) :
    a = b := by
  have hlen : (fieldBytes a).length = n := by
    rw [fieldBytes, length_leBytes]
    omega
  have hs : slice (fieldBytes a) 0 n = fieldBytes a := by
    have hall := slice_zero_length (fieldBytes a)
    rwa [hlen] at hall
  have ha : getField (8 * n) (fieldBytes a) 0 = some a :=
    (getField_eq_some_iff (by omega)).2 hs
  have hb : getField (8 * n) (fieldBytes a) 0 = some b :=
    (getField_eq_some_iff (by omega)).2 (hs.trans h)
  rw [ha, Option.some.injEq] at hb
  exact hb

/-- The CRC32C of the concatenation of `parts`. -/
def crc32c (crc : List UInt8 → BitVec 32) (parts : List (List UInt8)) : BitVec 32 :=
  crc parts.flatten

end Cache2

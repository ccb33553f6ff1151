import Mathlib.Data.Nat.Bitwise
import Mathlib.Tactic.Ring

set_option relaxedAutoImplicit false
set_option autoImplicit false

/-!
# Machine words: bit fields and checked arithmetic

Unsigned machine integers are natural numbers here; what a fixed width changes is said where
it matters, by checked operations that return `none` past the width and by masks. A word that
packs several fields is built with shifts and disjunctions and taken apart with shifts and
masks; the two lemmas below turn both into the arithmetic that `omega` decides.

## Main definitions

* `Word.checkedAdd`, `Word.checkedMul`, `Word.checkedSub` — arithmetic that reports overflow.
* `Word.wrappingSucc`, `Word.wrappingPred` — atomic counters.
* `Word.alignUp` — the next multiple of an alignment.

## Main results

* `Word.or_shiftLeft` — packing a field above a narrower word is an addition.
* `Word.shiftRight_and_mask` — extracting a field is a division and a remainder.
-/

namespace Word

/-- `a + b` in words of `w` bits, or `none` on overflow. -/
def checkedAdd (w a b : ℕ) : Option ℕ := if a + b < 2 ^ w then some (a + b) else none

/-- `a * b` in words of `w` bits, or `none` on overflow. -/
def checkedMul (w a b : ℕ) : Option ℕ := if a * b < 2 ^ w then some (a * b) else none

/-- `a - b`, or `none` below zero. -/
def checkedSub (a b : ℕ) : Option ℕ := if b ≤ a then some (a - b) else none

/-- A sum that fits is returned. -/
lemma checkedAdd_of_lt {w a b : ℕ} (h : a + b < 2 ^ w) : checkedAdd w a b = some (a + b) :=
  if_pos h

/-- A product that fits is returned. -/
lemma checkedMul_of_lt {w a b : ℕ} (h : a * b < 2 ^ w) : checkedMul w a b = some (a * b) :=
  if_pos h

/-- A difference that is not negative is returned. -/
lemma checkedSub_of_le {a b : ℕ} (h : b ≤ a) : checkedSub a b = some (a - b) := if_pos h

/-- What a checked sum returns. -/
lemma checkedAdd_eq_some {w a b c : ℕ} :
    checkedAdd w a b = some c ↔ a + b < 2 ^ w ∧ c = a + b := by
  unfold checkedAdd
  split_ifs with h
  · simp [h, eq_comm]
  · simp [h]

/-- What a checked product returns. -/
lemma checkedMul_eq_some {w a b c : ℕ} :
    checkedMul w a b = some c ↔ a * b < 2 ^ w ∧ c = a * b := by
  unfold checkedMul
  split_ifs with h
  · simp [h, eq_comm]
  · simp [h]

/-- What a checked difference returns. -/
lemma checkedSub_eq_some {a b c : ℕ} : checkedSub a b = some c ↔ b ≤ a ∧ c = a - b := by
  unfold checkedSub
  split_ifs with h
  · simp [h, eq_comm]
  · simp [h]

/-- `a + b` in words of `w` bits, or the greatest word on overflow. -/
def saturatingAdd (w a b : ℕ) : ℕ := min (a + b) (2 ^ w - 1)

/-- `a + 1` in words of `w` bits, as an atomic counter is raised. -/
def wrappingSucc (w a : ℕ) : ℕ := (a + 1) % 2 ^ w

/-- `a - 1` in words of `w` bits, as an atomic counter is lowered. -/
def wrappingPred (w a : ℕ) : ℕ := (a + (2 ^ w - 1)) % 2 ^ w

/-- A counter that is raised below its greatest value. -/
lemma wrappingSucc_of_lt {w a : ℕ} (h : a + 1 < 2 ^ w) : wrappingSucc w a = a + 1 :=
  Nat.mod_eq_of_lt h

/-- A counter that is lowered above zero. -/
lemma wrappingPred_add_one {w a : ℕ} (hpos : 0 < a) (h : a < 2 ^ w) :
    wrappingPred w a + 1 = a := by
  have hmod : wrappingPred w a = a - 1 := by
    rw [wrappingPred, show a + (2 ^ w - 1) = a - 1 + 2 ^ w by omega, Nat.add_mod_right]
    exact Nat.mod_eq_of_lt (by omega)
  omega

/-- `a - b` in words of `w` bits, as an atomic counter is lowered by several units. -/
def wrappingSub (w a b : ℕ) : ℕ := (a + (2 ^ w - b % 2 ^ w)) % 2 ^ w

/-- A counter that is lowered by at most what it has. -/
lemma wrappingSub_of_le {w a b : ℕ} (hle : b ≤ a) (hlt : a < 2 ^ w) :
    wrappingSub w a b = a - b := by
  rw [wrappingSub, Nat.mod_eq_of_lt (hle.trans_lt hlt),
    show a + (2 ^ w - b) = a - b + 2 ^ w by omega, Nat.add_mod_right]
  exact Nat.mod_eq_of_lt (by omega)

/-- `-a` in words of `w` bits. -/
def wrappingNeg (w a : ℕ) : ℕ := (2 ^ w - a % 2 ^ w) % 2 ^ w

/-- The low bits of the negation are the distance to the next multiple. -/
lemma wrappingNeg_and_mask {w n : ℕ} (h : n ≤ w) (a : ℕ) :
    wrappingNeg w a &&& (2 ^ n - 1) = (2 ^ n - a % 2 ^ n) % 2 ^ n := by
  obtain ⟨k, hk⟩ := Nat.pow_dvd_pow 2 h
  have hpos : 0 < 2 ^ n := Nat.two_pow_pos n
  have hmod : a % 2 ^ w % 2 ^ n = a % 2 ^ n := Nat.mod_mod_of_dvd _ ⟨k, hk⟩
  have hlt : a % 2 ^ w < 2 ^ w := Nat.mod_lt _ (Nat.two_pow_pos w)
  rw [Nat.and_two_pow_sub_one_eq_mod, wrappingNeg, Nat.mod_mod_of_dvd _ ⟨k, hk⟩, ← hmod]
  generalize a % 2 ^ w = b at hlt
  -- both sides complement `b` to a multiple of `2 ^ n`
  have hb := Nat.div_add_mod b (2 ^ n)
  have hr := Nat.mod_lt b hpos
  have hq : b / 2 ^ n + 1 ≤ k := by
    rw [hk] at hlt
    exact Nat.div_lt_of_lt_mul hlt
  have hsplit : 2 ^ w - b = 2 ^ n * (k - (b / 2 ^ n + 1)) + (2 ^ n - b % 2 ^ n) := by
    rw [hk, Nat.mul_sub, Nat.mul_add, Nat.mul_one]
    have := Nat.mul_le_mul_left (2 ^ n) hq
    rw [Nat.mul_add, Nat.mul_one] at this
    omega
  rw [hsplit, Nat.mul_add_mod]

/-- The least multiple of `n` that is not below `a`. -/
def alignUp (a n : ℕ) : ℕ := (a + (n - 1)) / n * n

/-- Setting the bits from `i` on of a word that has none of them adds a multiple of `2 ^ i`. -/
lemma or_shiftLeft {a i : ℕ} (b : ℕ) (h : a < 2 ^ i) : a ||| (b <<< i) = a + b * 2 ^ i := by
  rw [Nat.or_comm, ← Nat.shiftLeft_add_eq_or_of_lt h, Nat.shiftLeft_eq, Nat.add_comm]

/-- The `n` bits from `i` on. -/
lemma shiftRight_and_mask (a i n : ℕ) : (a >>> i) &&& (2 ^ n - 1) = a / 2 ^ i % 2 ^ n := by
  rw [Nat.and_two_pow_sub_one_eq_mod, Nat.shiftRight_eq_div_pow]

end Word

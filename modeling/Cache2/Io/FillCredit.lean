import Cache2.Config.Runtime

set_option relaxedAutoImplicit false
set_option autoImplicit false

/-!
# Fill credit

Background flushes are paced by a credit of records and of units of 64 bytes, which share one word
and are refilled at the configured rates (`io/fill_control.rs`). A refill rounds both amounts down,
and takes the time it was called as the new start of both as soon as one of them is not zero: what
the other one, or either one's fraction, had earned until then is gone. This file has the credit
with its operations, and the condition under which a refill loses nothing.

## Main definitions

* `Cache2.FillCredit` — the controller, as far as the credit goes.
* `Cache2.FillCredit.refill`, `Cache2.FillCredit.tryAcquireFlushBudget`,
  `Cache2.FillCredit.refundFlushBudget` — its operations.
* `Cache2.FillCredit.granted` — what the refills of a run add to a dimension.
* `Cache2.FillCredit.Keeps` — a refill that does not lose a fraction.

## Main results

* `Cache2.FillCredit.Valid.step` — the credit stays within its caps.
* `Cache2.FillCredit.Keeps.refill` — what a refill adds, if it keeps the fractions.
* `Cache2.FillCredit.granted_eq_earned` — over a run of such refills, what is granted is what the
  rate earns.
-/

namespace Cache2

/-! ## The word -/

/-- `CREDIT_UNIT_BYTES`. -/
def creditUnitBytes : ℕ := 64

/-- `TICKS_PER_SECOND`. -/
def ticksPerSecond : ℕ := 10

/-- `packed_records`. -/
def packedRecords (value : BitVec 64) : ℕ := (value >>> 32).toNat

/-- `packed_byte_units`. -/
def packedByteUnits (value : BitVec 64) : ℕ := (value &&& 0xffffffff).toNat

/-- `pack_credit`. -/
def packCredit (records byteUnits : ℕ) : BitVec 64 :=
  (BitVec.ofNat 64 records <<< 32) ||| BitVec.ofNat 64 byteUnits

/-- The word of two numbers of 32 bits. -/
lemma toNat_packCredit {records byteUnits : ℕ} (hr : records < 2 ^ 32) (hb : byteUnits < 2 ^ 32) :
    (packCredit records byteUnits).toNat = records * 2 ^ 32 + byteUnits := by
  have hr64 : records < 2 ^ 64 := hr.trans (by decide)
  have hb64 : byteUnits < 2 ^ 64 := hb.trans (by decide)
  rw [packCredit, BitVec.toNat_or, BitVec.toNat_shiftLeft, BitVec.toNat_ofNat, BitVec.toNat_ofNat,
    Nat.mod_eq_of_lt hr64, Nat.mod_eq_of_lt hb64, Nat.shiftLeft_eq, Nat.mod_eq_of_lt (by omega),
    ← Nat.shiftLeft_eq, ← Nat.shiftLeft_add_eq_or_of_lt hb]

/-- The records of a word. -/
lemma packedRecords_packCredit {records byteUnits : ℕ} (hr : records < 2 ^ 32)
    (hb : byteUnits < 2 ^ 32) : packedRecords (packCredit records byteUnits) = records := by
  rw [packedRecords, BitVec.toNat_ushiftRight, toNat_packCredit hr hb, Nat.shiftRight_eq_div_pow]
  omega

/-- The byte units of a word. -/
lemma packedByteUnits_packCredit {records byteUnits : ℕ} (hr : records < 2 ^ 32)
    (hb : byteUnits < 2 ^ 32) : packedByteUnits (packCredit records byteUnits) = byteUnits := by
  have hmask : (0xffffffff : BitVec 64).toNat = 2 ^ 32 - 1 := rfl
  rw [packedByteUnits, BitVec.toNat_and, hmask, Nat.and_two_pow_sub_one_eq_mod,
    toNat_packCredit hr hb]
  omega

/-! ## The controller -/

/-- `FlushCharge`. -/
structure FlushCharge where
  records : ℕ
  byteUnits : ℕ
  deriving DecidableEq, Repr

/-- `FillController`, as far as the credit goes. -/
structure FillCredit where
  limits : FillLimits
  enforcing : Bool
  maxByteUnits : ℕ
  maxRecords : ℕ
  credit : BitVec 64
  lastRefillNs : ℕ
  deriving DecidableEq, Repr

/-- The two kinds of credit. -/
inductive FillDimension
  | bytes
  | records
  deriving DecidableEq, Repr

namespace FillCredit

/-- `new`, for an allocation that succeeds. -/
def new (options : FillControlOptions) (maxFlushBytes : ℕ) :
    Except IoError (Option FillCredit) :=
  let build (limits : FillLimits) (enforcing : Bool) : Except IoError (Option FillCredit) :=
    let maxByteUnits :=
      (max (limits.maxBytesPerSecond.toNat / ticksPerSecond) maxFlushBytes +
          (creditUnitBytes - 1)) /
        creditUnitBytes
    let maxRecords := max (limits.maxRecordsPerSecond.toNat / ticksPerSecond) 1
    if ¬ (640 ≤ limits.maxBytesPerSecond.toNat ∧ limits.maxBytesPerSecond.toNat ≤ 2 ^ 40) ∨
        ¬ 10 ≤ limits.maxRecordsPerSecond.toNat then
      .error (ioError .invalidInput "fill rate ceilings are out of range")
    else if 2 ^ 32 - 1 < maxByteUnits then
      .error (ioError .invalidInput "fill burst exceeds budget representation")
    else .ok (some {
      limits
      enforcing
      maxByteUnits
      maxRecords
      credit := packCredit maxRecords maxByteUnits
      lastRefillNs := 0 })
  match options with
  | .disabled => .ok none
  | .observe limits => build limits false
  | .adaptive limits => build limits true

/-- `add_credit`, undisturbed. -/
def addCredit (c : FillCredit) (records byteUnits : ℕ) : FillCredit :=
  if records = 0 ∧ byteUnits = 0 then c
  else
    let credit := packCredit (min (packedRecords c.credit + records) c.maxRecords)
      (min (packedByteUnits c.credit + byteUnits) c.maxByteUnits)
    { c with credit }

/-- The byte units that a refill adds after so many nanoseconds. -/
def addByteUnits (c : FillCredit) (dt : ℕ) : ℕ :=
  min (c.limits.maxBytesPerSecond.toNat * dt) (2 ^ 64 - 1) / 1000000000 / creditUnitBytes

/-- The records that a refill adds after so many nanoseconds. -/
def addRecords (c : FillCredit) (dt : ℕ) : ℕ :=
  min (c.limits.maxRecordsPerSecond.toNat * dt) (2 ^ 64 - 1) / 1000000000

/-- `refill` at a time. -/
def refill (c : FillCredit) (now : ℕ) : FillCredit :=
  if now ≤ c.lastRefillNs then c
  else
    let dt := now - c.lastRefillNs
    if c.addByteUnits dt = 0 ∧ c.addRecords dt = 0 then c
    else { c with lastRefillNs := now }.addCredit (c.addRecords dt) (c.addByteUnits dt)

/-- `try_acquire_flush_budget` at a time, undisturbed: the charge, if there is one, and the
controller after it. -/
def tryAcquireFlushBudget (c : FillCredit) (now bytes records : ℕ) (essential : Bool) :
    Option FlushCharge × FillCredit :=
  if essential = true ∨ c.enforcing = false then (some ⟨0, 0⟩, c)
  else
    let c := c.refill now
    let rawByteUnits := max ((bytes + (creditUnitBytes - 1)) / creditUnitBytes) 1
    let rawRecords := max records 1
    let byteUnits := min rawByteUnits c.maxByteUnits
    let records := min rawRecords c.maxRecords
    let byteOversized := c.maxByteUnits ≤ rawByteUnits
    let recordOversized := c.maxRecords ≤ rawRecords
    let haveByteUnits := packedByteUnits c.credit
    let haveRecords := packedRecords c.credit
    if haveByteUnits = 0 ∨ haveRecords = 0 then (none, c)
    else if ¬ byteOversized ∧ haveByteUnits < byteUnits then (none, c)
    else if ¬ recordOversized ∧ haveRecords < records then (none, c)
    else
      let takeByteUnits := if byteOversized then haveByteUnits else byteUnits
      let takeRecords := if recordOversized then haveRecords else records
      let credit := packCredit (haveRecords - takeRecords) (haveByteUnits - takeByteUnits)
      (some ⟨takeRecords, takeByteUnits⟩, { c with credit })

/-- `refund_flush_budget`. -/
def refundFlushBudget (c : FillCredit) (charge : FlushCharge) : FillCredit :=
  if c.enforcing = false ∨ (charge.records = 0 ∧ charge.byteUnits = 0) then c
  else c.addCredit charge.records charge.byteUnits

/-! ## Runs -/

/-- The credit of a dimension. -/
def amount (c : FillCredit) : FillDimension → ℕ
  | .bytes => packedByteUnits c.credit
  | .records => packedRecords c.credit

/-- The most credit of a dimension. -/
def cap (c : FillCredit) : FillDimension → ℕ
  | .bytes => c.maxByteUnits
  | .records => c.maxRecords

/-- The configured rate of a dimension, for each second. -/
def rate (c : FillCredit) : FillDimension → ℕ
  | .bytes => c.limits.maxBytesPerSecond.toNat
  | .records => c.limits.maxRecordsPerSecond.toNat

end FillCredit

/-- How far a rate runs, in nanoseconds times the rate, until it has earned a unit. -/
def FillDimension.unit : FillDimension → ℕ
  | .bytes => 1000000000 * creditUnitBytes
  | .records => 1000000000

/-- What happens to a controller. -/
inductive FillEvent
  | refill (now : ℕ)
  | acquire (now bytes records : ℕ) (essential : Bool)
  | refund (charge : FlushCharge)
  deriving DecidableEq, Repr

/-- The time of the refill that an event makes. -/
def FillEvent.refillTime (enforcing : Bool) : FillEvent → Option ℕ
  | .refill now => some now
  | .acquire now _ _ essential => if essential = true ∨ enforcing = false then none else some now
  | .refund _ => none

namespace FillCredit

/-- The controller after an event. -/
def step (c : FillCredit) : FillEvent → FillCredit
  | .refill now => c.refill now
  | .acquire now bytes records essential => (c.tryAcquireFlushBudget now bytes records essential).2
  | .refund charge => c.refundFlushBudget charge

/-- The controller after events. -/
def run (c : FillCredit) (events : List FillEvent) : FillCredit := events.foldl step c

/-- The times of the refills of a run. -/
def times (c : FillCredit) (events : List FillEvent) : List ℕ :=
  events.filterMap (FillEvent.refillTime c.enforcing)

/-- What the refills of a run add to the credit of a dimension. -/
def granted : FillCredit → FillDimension → List FillEvent → ℕ
  | _, _, [] => 0
  | c, d, event :: rest =>
    ((event.refillTime c.enforcing).elim c c.refill).amount d - c.amount d +
      granted (c.step event) d rest

/-- The whole units of a dimension that its rate earns from the last refill that counted until the
last refill of a run. -/
def earned (c : FillCredit) (d : FillDimension) (events : List FillEvent) : ℕ :=
  c.rate d * ((c.times events).getLastD c.lastRefillNs - c.lastRefillNs) / d.unit

/-- A property of the refills of a run, of the controller before each and of its time. -/
def AllRefills : FillCredit → (FillCredit → ℕ → Prop) → List FillEvent → Prop
  | _, _, [] => True
  | c, P, event :: rest =>
    (∀ now, event.refillTime c.enforcing = some now → P c now) ∧ AllRefills (c.step event) P rest

instance decidableAllRefills {P : FillCredit → ℕ → Prop} [∀ c now, Decidable (P c now)] :
    ∀ (c : FillCredit) (events : List FillEvent), Decidable (c.AllRefills P events)
  | _, [] => isTrue trivial
  | c, event :: rest =>
    have := decidableAllRefills (P := P) (c.step event) rest
    inferInstanceAs (Decidable ((∀ now ∈ event.refillTime c.enforcing, P c now) ∧ _))

/-- A refill that leaves a dimension below its cap. -/
def BelowCap (c : FillCredit) (d : FillDimension) (now : ℕ) : Prop :=
  (c.refill now).amount d < c.cap d

instance (c : FillCredit) (d : FillDimension) (now : ℕ) : Decidable (c.BelowCap d now) :=
  inferInstanceAs (Decidable (_ < _))

/-- A refill at which no fraction of a unit is pending in the dimension, or that comes before either
dimension has earned a unit. -/
def Keeps (c : FillCredit) (d : FillDimension) (now : ℕ) : Prop :=
  (c.rate .bytes * (now - c.lastRefillNs) < FillDimension.unit .bytes ∧
    c.rate .records * (now - c.lastRefillNs) < FillDimension.unit .records) ∨
  (c.rate d * (now - c.lastRefillNs) < 2 ^ 64 ∧ d.unit ∣ c.rate d * (now - c.lastRefillNs))

instance (c : FillCredit) (d : FillDimension) (now : ℕ) : Decidable (c.Keeps d now) :=
  inferInstanceAs (Decidable (_ ∨ _))

/-- The caps fit their fields, and the credit is within them. -/
structure Valid (c : FillCredit) : Prop where
  maxRecords_lt : c.maxRecords < 2 ^ 32
  maxByteUnits_lt : c.maxByteUnits < 2 ^ 32
  records_le : packedRecords c.credit ≤ c.maxRecords
  byteUnits_le : packedByteUnits c.credit ≤ c.maxByteUnits

/-! ## The operations keep the caps -/

/-- The two controllers have the same configuration. -/
structure SameLimits (c c' : FillCredit) : Prop where
  limits : c'.limits = c.limits
  enforcing : c'.enforcing = c.enforcing
  maxByteUnits : c'.maxByteUnits = c.maxByteUnits
  maxRecords : c'.maxRecords = c.maxRecords

section Steps

variable {c : FillCredit}

lemma SameLimits.refl (c : FillCredit) : SameLimits c c := ⟨rfl, rfl, rfl, rfl⟩

lemma SameLimits.trans {c' c'' : FillCredit} (h : SameLimits c c') (h' : SameLimits c' c'') :
    SameLimits c c'' :=
  ⟨h'.1.trans h.1, h'.2.trans h.2, h'.3.trans h.3, h'.4.trans h.4⟩

lemma SameLimits.rate {c' : FillCredit} (h : SameLimits c c') (d : FillDimension) :
    c'.rate d = c.rate d := by
  cases d <;> simp only [FillCredit.rate, h.limits]

lemma SameLimits.cap {c' : FillCredit} (h : SameLimits c c') (d : FillDimension) :
    c'.cap d = c.cap d := by
  cases d
  · exact h.maxByteUnits
  · exact h.maxRecords

/-- A word within the caps can be written. -/
lemma Valid.withCredit (h : c.Valid) {records byteUnits : ℕ} (hr : records ≤ c.maxRecords)
    (hb : byteUnits ≤ c.maxByteUnits) :
    Valid { c with credit := packCredit records byteUnits } := by
  have hr32 := hr.trans_lt h.maxRecords_lt
  have hb32 := hb.trans_lt h.maxByteUnits_lt
  exact ⟨h.maxRecords_lt, h.maxByteUnits_lt, by rwa [packedRecords_packCredit hr32 hb32],
    by rwa [packedByteUnits_packCredit hr32 hb32]⟩

/-- What is added in a dimension. -/
def FillDimension.pick (records byteUnits : ℕ) : FillDimension → ℕ
  | .bytes => byteUnits
  | .records => records

/-- Credit is added up to the caps. -/
lemma Valid.addCredit (h : c.Valid) (records byteUnits : ℕ) :
    (c.addCredit records byteUnits).Valid ∧ SameLimits c (c.addCredit records byteUnits) ∧
      (c.addCredit records byteUnits).lastRefillNs = c.lastRefillNs ∧
      ∀ d, (c.addCredit records byteUnits).amount d =
        min (c.amount d + FillDimension.pick records byteUnits d) (c.cap d) := by
  unfold FillCredit.addCredit
  split_ifs with hzero
  · obtain ⟨rfl, rfl⟩ := hzero
    refine ⟨h, .refl c, rfl, fun d => ?_⟩
    cases d
    · exact (min_eq_left h.byteUnits_le).symm
    · exact (min_eq_left h.records_le).symm
  · have hr32 := (Nat.min_le_right (packedRecords c.credit + records) _).trans_lt h.maxRecords_lt
    have hb32 := (Nat.min_le_right (packedByteUnits c.credit + byteUnits) _).trans_lt
      h.maxByteUnits_lt
    refine ⟨h.withCredit (Nat.min_le_right _ _) (Nat.min_le_right _ _), ⟨rfl, rfl, rfl, rfl⟩, rfl,
      fun d => ?_⟩
    cases d
    · exact packedByteUnits_packCredit hr32 hb32
    · exact packedRecords_packCredit hr32 hb32

/-- The units that a refill adds in a dimension after so many nanoseconds. -/
def added (c : FillCredit) (d : FillDimension) (dt : ℕ) : ℕ :=
  min (c.rate d * dt) (2 ^ 64 - 1) / d.unit

/-- What the code computes for the two dimensions. -/
lemma pick_added (c : FillCredit) (d : FillDimension) (dt : ℕ) :
    FillDimension.pick (c.addRecords dt) (c.addByteUnits dt) d = c.added d dt := by
  cases d
  · exact Nat.div_div_eq_div_mul _ _ _
  · rfl

/-- No unit is added before one is earned. -/
lemma added_eq_zero_iff (c : FillCredit) (d : FillDimension) (dt : ℕ) :
    c.added d dt = 0 ↔ c.rate d * dt < d.unit := by
  have hunit : 0 < d.unit ∧ d.unit ≤ 2 ^ 64 - 1 := by
    cases d <;> decide
  rw [added, Nat.div_eq_zero_iff_lt hunit.1, Nat.lt_iff_add_one_le, Nat.lt_iff_add_one_le]
  omega

/-- **One refill.** Either it is too early for a unit in both dimensions and nothing changes, or
both dimensions get what they have earned, rounded down, and the time starts anew. -/
lemma Valid.refill (h : c.Valid) (now : ℕ) :
    (c.refill now).Valid ∧ SameLimits c (c.refill now) ∧
      ((c.refill now = c ∧ ∀ d, c.rate d * (now - c.lastRefillNs) < d.unit) ∨
        ((c.refill now).lastRefillNs = now ∧ c.lastRefillNs < now ∧
          (¬ ∀ d, c.rate d * (now - c.lastRefillNs) < d.unit) ∧
          ∀ d, (c.refill now).amount d =
            min (c.amount d + c.added d (now - c.lastRefillNs)) (c.cap d))) := by
  have hzero : (∀ d, c.rate d * (now - c.lastRefillNs) < d.unit) ↔
      c.addByteUnits (now - c.lastRefillNs) = 0 ∧ c.addRecords (now - c.lastRefillNs) = 0 := by
    constructor
    · intro hall
      exact ⟨(pick_added c .bytes _).trans ((added_eq_zero_iff c .bytes _).2 (hall .bytes)),
        (pick_added c .records _).trans ((added_eq_zero_iff c .records _).2 (hall .records))⟩
    · rintro ⟨hbytes, hrecords⟩ d
      rw [← added_eq_zero_iff, ← pick_added]
      cases d
      · exact hbytes
      · exact hrecords
  by_cases hlate : now ≤ c.lastRefillNs
  · have heq : c.refill now = c := if_pos hlate
    rw [heq]
    refine ⟨h, .refl c, .inl ⟨rfl, fun d => ?_⟩⟩
    rw [Nat.sub_eq_zero_of_le hlate, Nat.mul_zero]
    cases d <;> decide
  · by_cases hnone : c.addByteUnits (now - c.lastRefillNs) = 0 ∧
        c.addRecords (now - c.lastRefillNs) = 0
    · have heq : c.refill now = c := by
        rw [FillCredit.refill, if_neg hlate]
        exact if_pos hnone
      rw [heq]
      exact ⟨h, .refl c, .inl ⟨rfl, hzero.2 hnone⟩⟩
    · have heq : c.refill now = { c with lastRefillNs := now }.addCredit
          (c.addRecords (now - c.lastRefillNs)) (c.addByteUnits (now - c.lastRefillNs)) := by
        rw [FillCredit.refill, if_neg hlate]
        exact if_neg hnone
      have hmoved : Valid { c with lastRefillNs := now } :=
        ⟨h.maxRecords_lt, h.maxByteUnits_lt, h.records_le, h.byteUnits_le⟩
      obtain ⟨hvalid, hsame, hlast, hamount⟩ := hmoved.addCredit
        (c.addRecords (now - c.lastRefillNs)) (c.addByteUnits (now - c.lastRefillNs))
      rw [heq]
      refine ⟨hvalid, ⟨hsame.1, hsame.2, hsame.3, hsame.4⟩,
        .inr ⟨hlast, Nat.lt_of_not_le hlate, mt hzero.1 hnone, fun d => ?_⟩⟩
      rw [hamount, pick_added]
      cases d <;> rfl

/-- An acquisition takes credit from the refilled controller. -/
lemma Valid.tryAcquireFlushBudget (h : c.Valid) (now bytes records : ℕ) (essential : Bool) :
    let c' :=
      ((FillEvent.acquire now bytes records essential).refillTime c.enforcing).elim c c.refill
    let after := (c.tryAcquireFlushBudget now bytes records essential).2
    after.Valid ∧ SameLimits c' after ∧ after.lastRefillNs = c'.lastRefillNs := by
  intro c' after
  have hrefill := (h.refill now).1
  simp only [c', after, FillEvent.refillTime, FillCredit.tryAcquireFlushBudget]
  by_cases hfree : essential = true ∨ c.enforcing = false
  · rw [if_pos hfree, if_pos hfree]
    exact ⟨h, .refl c, rfl⟩
  · rw [if_neg hfree, if_neg hfree]
    simp only [Option.elim_some]
    split_ifs <;>
      first
        | exact ⟨hrefill, .refl _, rfl⟩
        | exact ⟨hrefill.withCredit ((Nat.sub_le _ _).trans hrefill.records_le)
            ((Nat.sub_le _ _).trans hrefill.byteUnits_le), ⟨rfl, rfl, rfl, rfl⟩, rfl⟩

/-- **One step.** The credit stays within its caps, and the time of the last refill that counted is
that of the refill that the event makes. -/
theorem Valid.step (h : c.Valid) (event : FillEvent) :
    let c' := (event.refillTime c.enforcing).elim c c.refill
    (c.step event).Valid ∧ SameLimits c' (c.step event) ∧
      (c.step event).lastRefillNs = c'.lastRefillNs := by
  cases event with
  | refill now => exact ⟨(h.refill now).1, .refl _, rfl⟩
  | acquire now bytes records essential => exact h.tryAcquireFlushBudget now bytes records essential
  | refund charge =>
    simp only [FillEvent.refillTime, Option.elim_none, FillCredit.step, refundFlushBudget]
    split_ifs
    · exact ⟨h, .refl c, rfl⟩
    · obtain ⟨hvalid, hsame, hlast, -⟩ := h.addCredit charge.records charge.byteUnits
      exact ⟨hvalid, hsame, hlast⟩

/-- A new controller is full. -/
lemma valid_of_new {options : FillControlOptions} {maxFlushBytes : ℕ}
    (h : new options maxFlushBytes = .ok (some c)) : c.Valid := by
  have hbuild : ∀ (limits : FillLimits) (enforcing : Bool) (maxByteUnits : ℕ),
      maxByteUnits ≤ 2 ^ 32 - 1 →
      Valid ⟨limits, enforcing, maxByteUnits,
        max (limits.maxRecordsPerSecond.toNat / ticksPerSecond) 1,
        packCredit (max (limits.maxRecordsPerSecond.toNat / ticksPerSecond) 1)
          maxByteUnits, 0⟩ := by
    intro limits enforcing maxByteUnits hle
    have hr : max (limits.maxRecordsPerSecond.toNat / ticksPerSecond) 1 < 2 ^ 32 := by
      have := limits.maxRecordsPerSecond.isLt
      unfold ticksPerSecond
      omega
    have hb : maxByteUnits < 2 ^ 32 := by omega
    exact ⟨hr, hb, (packedRecords_packCredit hr hb).le, (packedByteUnits_packCredit hr hb).le⟩
  unfold new at h
  cases options with
  | disabled => cases h
  | observe limits =>
    simp only at h
    split_ifs at h with hrange hburst
    cases h
    exact hbuild limits false _ (Nat.le_of_not_lt hburst)
  | adaptive limits =>
    simp only at h
    split_ifs at h with hrange hburst
    cases h
    exact hbuild limits true _ (Nat.le_of_not_lt hburst)

/-- The credit of a new controller stays within its caps. -/
lemma Valid.run {events : List FillEvent} : ∀ {c : FillCredit}, c.Valid →
    (c.run events).Valid := by
  induction events with
  | nil => exact id
  | cons event rest ih => exact fun h => ih (h.step event).1

end Steps

/-! ## What a refill loses -/

section Accrual

variable {d : FillDimension}

/-- A unit takes some time to earn. -/
lemma unit_pos (d : FillDimension) : 0 < d.unit := by cases d <;> decide

/-- What a refill that counts adds below the cap. -/
lemma amount_sub_of_lt {a b add cap : ℕ} (h : b = min (a + add) cap) (hlt : b < cap) :
    b - a = add := by omega

/-- **One refill, exactly.** Below the cap, what a refill grants and what is still pending after it
make up what was pending before it exactly when the refill keeps the fraction. -/
theorem Valid.keeps_iff {c : FillCredit} (h : c.Valid) {now : ℕ} (hbelow : c.BelowCap d now) :
    d.unit * ((c.refill now).amount d - c.amount d) +
        c.rate d * (now - (c.refill now).lastRefillNs) = c.rate d * (now - c.lastRefillNs) ↔
      c.Keeps d now := by
  obtain ⟨-, -, ⟨heq, hearly⟩ | ⟨hlast, -, hcounts, hamount⟩⟩ := h.refill now
  · rw [heq, Nat.sub_self, Nat.mul_zero, Nat.zero_add]
    exact iff_of_true rfl (.inl ⟨hearly .bytes, hearly .records⟩)
  · have hadd := amount_sub_of_lt (hamount d) hbelow
    have hmore : ¬ (c.rate .bytes * (now - c.lastRefillNs) < FillDimension.unit .bytes ∧
        c.rate .records * (now - c.lastRefillNs) < FillDimension.unit .records) := by
      rintro ⟨hbytes, hrecords⟩
      exact hcounts fun d => by cases d <;> assumption
    rw [hadd, hlast, Nat.sub_self, Nat.mul_zero, Nat.add_zero, Keeps, or_iff_right hmore, added]
    generalize c.rate d * (now - c.lastRefillNs) = whole
    constructor
    · intro hall
      have hle := Nat.mul_div_le (min whole (2 ^ 64 - 1)) d.unit
      have hmin : min whole (2 ^ 64 - 1) = whole := by omega
      rw [hmin] at hall
      exact ⟨by omega, ⟨_, hall.symm⟩⟩
    · rintro ⟨hlt, hdvd⟩
      rw [Nat.min_eq_left (by omega)]
      exact Nat.mul_div_cancel' hdvd

/-- The times of a run are those after an event. -/
lemma times_cons (c : FillCredit) (h : c.Valid) (event : FillEvent) (rest : List FillEvent) :
    c.times (event :: rest) =
      (event.refillTime c.enforcing).toList ++ (c.step event).times rest := by
  obtain ⟨-, hsame, -⟩ := h.step event
  have henforcing : (c.step event).enforcing = c.enforcing := by
    rw [hsame.enforcing]
    cases event.refillTime c.enforcing with
    | none => rfl
    | some now => exact (h.refill now).2.1.enforcing
  rw [times, times, henforcing, List.filterMap_cons]
  cases event.refillTime c.enforcing <;> rfl

/-- **A run of refills.** If all refills of a run keep the fractions of a dimension and leave it
below its cap, then what they grant is what the rate earns.

**Proof sketch.** Induction on the run, for any time until which nothing has been earned since the
last refill that counted. A refill that does not count moves that time; one that does grants all
that was pending, so that the rest of the run starts with nothing pending. -/
theorem granted_eq_earned : ∀ (events : List FillEvent) {c : FillCredit} {t : ℕ}, c.Valid →
    c.lastRefillNs ≤ t → c.rate d * (t - c.lastRefillNs) < d.unit →
    (t :: c.times events).Pairwise (· ≤ ·) →
    c.AllRefills (fun c now => c.BelowCap d now ∧ c.Keeps d now) events →
    c.granted d events = c.rate d * ((c.times events).getLastD t - c.lastRefillNs) / d.unit
  | [], c, t, _, _, hpending, _, _ => (Nat.div_eq_of_lt hpending).symm
  | event :: rest, c, t, h, hlast, hpending, hordered, hrefills => by
    obtain ⟨hrefill, hrest⟩ := hrefills
    obtain ⟨hvalid, hsame, hstep⟩ := h.step event
    rw [times_cons c h] at hordered ⊢
    rw [granted]
    cases htime : event.refillTime c.enforcing with
    | none =>
      rw [htime] at hsame hstep hordered
      have ih := granted_eq_earned rest hvalid (t := t) (hstep.trans_le hlast)
        (by rw [hsame.rate, hstep]; exact hpending) hordered hrest
      rw [Option.elim_none] at hsame hstep ⊢
      rw [Nat.sub_self, Nat.zero_add, ih, hsame.rate, hstep]
      rfl
    | some now =>
      rw [htime] at hsame hstep hordered
      rw [Option.elim_some] at hsame hstep ⊢
      obtain ⟨hbelow, hkeeps⟩ := hrefill now htime
      obtain ⟨hle, htail⟩ := List.pairwise_cons.1 hordered
      have hnow : t ≤ now := hle now (by simp)
      have hconserved := (h.keeps_iff hbelow).2 hkeeps
      obtain ⟨-, hsame', hcases⟩ := h.refill now
      have hrate : (c.step event).rate d = c.rate d := (hsame'.trans hsame).rate d
      have hlate : (c.refill now).lastRefillNs ≤ now := by
        rcases hcases with ⟨heq, -⟩ | ⟨heq, -⟩
        · rw [heq]
          exact hlast.trans hnow
        · exact heq.le
      have hnothing : c.rate d * (now - (c.refill now).lastRefillNs) < d.unit := by
        rcases hcases with ⟨heq, hearly⟩ | ⟨heq, -⟩
        · rw [heq]
          exact hearly d
        · rw [heq, Nat.sub_self, Nat.mul_zero]
          exact unit_pos d
      have ih := granted_eq_earned rest hvalid (hstep.trans_le hlate)
        (by rw [hrate, hstep]; exact hnothing) htail hrest
      have hend : now ≤ ((c.step event).times rest).getLastD now := by
        rcases List.mem_cons.1 (List.getLastD_mem_cons (l := (c.step event).times rest) (a := now))
          with heq | hmem
        · exact heq.ge
        · exact (List.pairwise_cons.1 htail).1 _ hmem
      rw [ih, hrate, hstep]
      rw [Option.toList_some, List.singleton_append, List.getLastD_cons]
      generalize ((c.step event).times rest).getLastD now = last at hend
      have hsplit : ∀ from', from' ≤ now →
          c.rate d * (last - from') = c.rate d * (last - now) + c.rate d * (now - from') := by
        intro from' hfrom
        rw [← Nat.mul_add]
        congr 1
        omega
      have hall : c.rate d * (last - c.lastRefillNs) =
          d.unit * ((c.refill now).amount d - c.amount d) +
            c.rate d * (last - (c.refill now).lastRefillNs) := by
        rw [hsplit _ (hlast.trans hnow), hsplit _ hlate, ← hconserved]
        omega
      rw [hall, Nat.mul_add_div (unit_pos d)]

end Accrual

end FillCredit

/-- **When refills lose nothing.** For a controller that is new or has run for a while: below its
cap, what a refill grants in a dimension and what is pending after it make up what was pending
before it exactly when the refill keeps the fraction, which means that it comes before either
dimension has earned a unit, or at a time at which this one has earned whole units only and the
product of rate and time fits 64 bits; and over a run of refills that keep the fractions, at times
that do not decrease, what is granted is what the rate earns. -/
theorem fillCredit_kept_iff (options : FillControlOptions) (maxFlushBytes : ℕ)
    (c₀ : FillCredit) (hnew : FillCredit.new options maxFlushBytes = .ok (some c₀))
    (before : List FillEvent) (d : FillDimension) :
    let c := c₀.run before
    (∀ now, c.BelowCap d now →
      (d.unit * ((c.refill now).amount d - c.amount d) +
        c.rate d * (now - (c.refill now).lastRefillNs) = c.rate d * (now - c.lastRefillNs) ↔
          c.Keeps d now)) ∧
    ∀ events : List FillEvent, (c.lastRefillNs :: c.times events).Pairwise (· ≤ ·) →
      c.AllRefills (fun c now => c.BelowCap d now ∧ c.Keeps d now) events →
      c.granted d events = c.earned d events := by
  intro c
  have h : c.Valid := (FillCredit.valid_of_new hnew).run
  refine ⟨fun now hbelow => h.keeps_iff hbelow, fun events hordered hrefills => ?_⟩
  refine FillCredit.granted_eq_earned events h le_rfl ?_ hordered hrefills
  rw [Nat.sub_self, Nat.mul_zero]
  exact FillCredit.unit_pos d

/-- At ten byte units and a hundred records for each second, with the burst spent at the start. -/
def fillSample : List FillEvent := [.acquire 0 4096 1 false]

/-- Whole units only: refills at 100 and at 300 milliseconds. -/
theorem fillCredit_kept_iff_sample : ∃ c₀, FillCredit.new (.adaptive ⟨640, 100⟩) 4096 =
      .ok (some c₀) ∧
    (c₀.run fillSample).granted .bytes [.refill 100000000, .refill 300000000] =
      (c₀.run fillSample).earned .bytes [.refill 100000000, .refill 300000000] := by
  refine ⟨⟨⟨640, 100⟩, true, 64, 10, packCredit 10 64, 0⟩, by decide +kernel, ?_⟩
  refine (fillCredit_kept_iff (.adaptive ⟨640, 100⟩) 4096 _ (by decide +kernel) fillSample
    .bytes).2 _ (by decide +kernel) (by decide +kernel)

/-- **Refills lose credit.** At ten byte units and a thousand records for each second, refills every
50 milliseconds always find records to grant, so none of them grants a byte unit: after half a
second five units are lost. -/
theorem fillCredit_lost : ¬ ∀ (options : FillControlOptions) (maxFlushBytes : ℕ)
    (c₀ : FillCredit), FillCredit.new options maxFlushBytes = .ok (some c₀) →
    ∀ (before : List FillEvent) (d : FillDimension) (events : List FillEvent),
      ((c₀.run before).lastRefillNs :: (c₀.run before).times events).Pairwise (· ≤ ·) →
      (c₀.run before).AllRefills (fun c now => c.BelowCap d now) events →
      (c₀.run before).granted d events ≤ (c₀.run before).earned d events ∧
        (c₀.run before).earned d events ≤ (c₀.run before).granted d events + 1 := by
  intro hclaim
  have h := (hclaim (.adaptive ⟨640, 1000⟩) 4096
    ⟨⟨640, 1000⟩, true, 64, 100, packCredit 100 64, 0⟩ (by decide +kernel)
    [.acquire 0 4096 1 false] .bytes
    ((List.range 10).map fun i => .refill ((i + 1) * 50000000)) (by decide +kernel)
    (by decide +kernel)).2
  exact absurd h (by decide +kernel)

end Cache2

import Cache2.Io.FillCredit
import Cache2.Lib.Interleaving

set_option relaxedAutoImplicit false
set_option autoImplicit false

/-!
# Threads on the credit word

Any number of flushes acquire and return credit at the same time (`io/fill_control.rs`). They share
one word, which is changed by compare-and-swap only: a refill and a return add to both of its fields
up to the caps, however often they have to try, and an acquisition takes from both of them, in at
most four attempts. This file has these loops one access at a time, and what every interleaving of
them keeps.

## Main definitions

* `Cache2.FillCredit.flushCharge` — what one attempt of an acquisition would take.
* `Cache2.CreditThread`, `Cache2.CreditAct` — where a flush stands, and its next access.
* `Cache2.CreditThread.held` — the credit that a flush has and has not returned.
* `Cache2.CreditMove` — what one access does to the word.

## Main results

* `Cache2.CreditAct.move` — takes and additions are exact in both fields.
* `Cache2.creditWord_conservation` — the caps, the balance, and the accesses of every run.
-/

namespace Cache2

open Interleaving

/-! ## One attempt -/

/-- `MAX_CAS_ATTEMPTS`. -/
def maxCasAttempts : ℕ := 4

/-- The credit of a charge in a dimension. -/
def FlushCharge.amount (charge : FlushCharge) : FillDimension → ℕ :=
  FillCredit.FillDimension.pick charge.records charge.byteUnits

namespace FillCredit

/-- The charge of a flush at a value of the word, or `none` when it has to wait. -/
def flushCharge (c : FillCredit) (bytes records : ℕ) (value : BitVec 64) : Option FlushCharge :=
  let rawByteUnits := max ((bytes + (creditUnitBytes - 1)) / creditUnitBytes) 1
  let rawRecords := max records 1
  let byteUnits := min rawByteUnits c.maxByteUnits
  let records := min rawRecords c.maxRecords
  let byteOversized := c.maxByteUnits ≤ rawByteUnits
  let recordOversized := c.maxRecords ≤ rawRecords
  let haveByteUnits := packedByteUnits value
  let haveRecords := packedRecords value
  if haveByteUnits = 0 ∨ haveRecords = 0 then none
  else if ¬ byteOversized ∧ haveByteUnits < byteUnits then none
  else if ¬ recordOversized ∧ haveRecords < records then none
  else some ⟨if recordOversized then haveRecords else records,
    if byteOversized then haveByteUnits else byteUnits⟩

/-- The word after a charge. -/
def takenWord (charge : FlushCharge) (value : BitVec 64) : BitVec 64 :=
  packCredit (packedRecords value - charge.records) (packedByteUnits value - charge.byteUnits)

/-- The word after credit is added. -/
def addedWord (c : FillCredit) (records byteUnits : ℕ) (value : BitVec 64) : BitVec 64 :=
  packCredit (min (packedRecords value + records) c.maxRecords)
    (min (packedByteUnits value + byteUnits) c.maxByteUnits)

/-- A charge is covered by the word it was computed from, in both dimensions. -/
lemma flushCharge_le {c : FillCredit} {bytes records : ℕ} {value : BitVec 64} {charge : FlushCharge}
    (h : c.flushCharge bytes records value = some charge) :
    charge.records ≤ packedRecords value ∧ charge.byteUnits ≤ packedByteUnits value := by
  unfold flushCharge at h
  dsimp only at h
  split_ifs at h with hempty hbytes hrecords hr hb hb <;> obtain rfl := Option.some.inj h
  · exact ⟨le_rfl, le_rfl⟩
  · exact ⟨le_rfl, Nat.le_of_not_lt fun hlt => hbytes ⟨hb, hlt⟩⟩
  · exact ⟨Nat.le_of_not_lt fun hlt => hrecords ⟨hr, hlt⟩, le_rfl⟩
  · exact ⟨Nat.le_of_not_lt fun hlt => hrecords ⟨hr, hlt⟩,
      Nat.le_of_not_lt fun hlt => hbytes ⟨hb, hlt⟩⟩

end FillCredit

/-! ## Threads -/

/-- A flush that asks for credit. -/
structure FlushRequest where
  bytes : ℕ
  records : ℕ
  essential : Bool
  deriving DecidableEq, Repr

/-- Why credit is added: a refill on the way of an acquisition, or the return of a charge. -/
inductive CreditPurpose
  | refill (request : FlushRequest) (records byteUnits : ℕ)
  | refund (charge : FlushCharge)
  deriving DecidableEq, Repr

/-- Where a flush stands in the code. -/
inductive CreditThread
  /-- At the start of `try_acquire_flush_budget`. -/
  | acquire (request : FlushRequest)
  /-- In `refill`, with the time and the last time that were read. -/
  | refilling (request : FlushRequest) (now last : ℕ)
  /-- At the start of `add_credit`. -/
  | adding (purpose : CreditPurpose)
  /-- In the loop of `add_credit`, with the value that was read. -/
  | addAttempt (purpose : CreditPurpose) (value : BitVec 64)
  /-- Before the word is read for the acquisition. -/
  | loading (request : FlushRequest)
  /-- In the loop of the acquisition, with the value that was read and the attempts left. -/
  | attempt (request : FlushRequest) (value : BitVec 64) (attempts : ℕ)
  /-- With a charge. -/
  | charged (charge : FlushCharge)
  /-- After the flush that the charge was for. -/
  | spent (charge : FlushCharge)
  /-- After the charge was returned. -/
  | refunded (charge : FlushCharge)
  /-- Without a charge. -/
  | refused
  deriving DecidableEq, Repr

/-- The records that are added. -/
def CreditPurpose.records : CreditPurpose → ℕ
  | .refill _ records _ => records
  | .refund charge => charge.records

/-- The byte units that are added. -/
def CreditPurpose.byteUnits : CreditPurpose → ℕ
  | .refill _ _ byteUnits => byteUnits
  | .refund charge => charge.byteUnits

/-- Where `add_credit` returns to. -/
def CreditPurpose.next : CreditPurpose → CreditThread
  | .refill request _ _ => .loading request
  | .refund charge => .refunded charge

/-- The controller, and the credit that refills have added so far. The second is not in the code:
it is what the balance is stated with. -/
structure CreditState where
  controller : FillCredit
  refilled : FillDimension → ℕ

namespace CreditState

/-- The state with another word. -/
def setCredit (s : CreditState) (credit : BitVec 64) : CreditState :=
  { s with controller := { s.controller with credit := credit } }

/-- The state after credit was added: a refill is counted by how much the word has grown. -/
def add (s : CreditState) (purpose : CreditPurpose) : CreditState :=
  let controller := { s.controller with
    credit := s.controller.addedWord purpose.records purpose.byteUnits s.controller.credit }
  match purpose with
  | .refill _ _ _ =>
    ⟨controller, fun d => s.refilled d + (controller.amount d - s.controller.amount d)⟩
  | .refund _ => ⟨controller, s.refilled⟩

end CreditState

/-- Whether an acquisition takes nothing: the flush is essential, or rates are only observed. -/
def FlushRequest.Exempt (request : FlushRequest) (c : FillCredit) : Prop :=
  request.essential = true ∨ c.enforcing = false

/-- Whether a refill does nothing: no time has passed, or too little for a unit. -/
def FillCredit.RefillsNothing (c : FillCredit) (now last : ℕ) : Prop :=
  now ≤ last ∨ (c.addByteUnits (now - last) = 0 ∧ c.addRecords (now - last) = 0)

/-- The next access of a flush. The time that is read and whether a charge is returned are open. -/
inductive CreditAct : CreditState → CreditThread → CreditState → CreditThread → Prop
  | exempt {s : CreditState} {request : FlushRequest} (h : request.Exempt s.controller) :
    CreditAct s (.acquire request) s (.charged ⟨0, 0⟩)
  | readTime {s : CreditState} {request : FlushRequest} (h : ¬ request.Exempt s.controller)
      (now : ℕ) :
    CreditAct s (.acquire request) s (.refilling request now s.controller.lastRefillNs)
  | early {s : CreditState} {request : FlushRequest} {now last : ℕ}
      (h : s.controller.RefillsNothing now last) :
    CreditAct s (.refilling request now last) s (.loading request)
  | claimed {s : CreditState} {request : FlushRequest} {now last : ℕ}
      (h : ¬ s.controller.RefillsNothing now last) (hlast : s.controller.lastRefillNs = last) :
    CreditAct s (.refilling request now last)
      { s with controller := { s.controller with lastRefillNs := now } }
      (.adding (.refill request (s.controller.addRecords (now - last))
        (s.controller.addByteUnits (now - last))))
  | lost {s : CreditState} {request : FlushRequest} {now last : ℕ}
      (h : ¬ s.controller.RefillsNothing now last) (hlast : s.controller.lastRefillNs ≠ last) :
    CreditAct s (.refilling request now last) s (.loading request)
  | addNothing {s : CreditState} {purpose : CreditPurpose}
      (h : purpose.records = 0 ∧ purpose.byteUnits = 0) :
    CreditAct s (.adding purpose) s purpose.next
  | addLoad {s : CreditState} {purpose : CreditPurpose}
      (h : ¬ (purpose.records = 0 ∧ purpose.byteUnits = 0)) :
    CreditAct s (.adding purpose) s (.addAttempt purpose s.controller.credit)
  | added {s : CreditState} {purpose : CreditPurpose} :
    CreditAct s (.addAttempt purpose s.controller.credit) (s.add purpose) purpose.next
  | addAgain {s : CreditState} {purpose : CreditPurpose} {value : BitVec 64}
      (h : s.controller.credit ≠ value) :
    CreditAct s (.addAttempt purpose value) s (.addAttempt purpose s.controller.credit)
  | load {s : CreditState} {request : FlushRequest} :
    CreditAct s (.loading request) s (.attempt request s.controller.credit maxCasAttempts)
  | short {s : CreditState} {request : FlushRequest} {value : BitVec 64} {attempts : ℕ}
      (h : s.controller.flushCharge request.bytes request.records value = none) :
    CreditAct s (.attempt request value (attempts + 1)) s .refused
  | taken {s : CreditState} {request : FlushRequest} {attempts : ℕ} {charge : FlushCharge}
      (h : s.controller.flushCharge request.bytes request.records s.controller.credit =
        some charge) :
    CreditAct s (.attempt request s.controller.credit (attempts + 1))
      (s.setCredit (FillCredit.takenWord charge s.controller.credit)) (.charged charge)
  | takeAgain {s : CreditState} {request : FlushRequest} {value : BitVec 64} {attempts : ℕ}
      {charge : FlushCharge}
      (h : s.controller.flushCharge request.bytes request.records value = some charge)
      (hvalue : s.controller.credit ≠ value) :
    CreditAct s (.attempt request value (attempts + 1)) s
      (.attempt request s.controller.credit attempts)
  | exhausted {s : CreditState} {request : FlushRequest} {value : BitVec 64} :
    CreditAct s (.attempt request value 0) s .refused
  | flushed {s : CreditState} {charge : FlushCharge} :
    CreditAct s (.charged charge) s (.spent charge)
  | returnNothing {s : CreditState} {charge : FlushCharge}
      (h : s.controller.enforcing = false ∨ (charge.records = 0 ∧ charge.byteUnits = 0)) :
    CreditAct s (.charged charge) s (.refunded charge)
  | returnCharge {s : CreditState} {charge : FlushCharge}
      (h : ¬ (s.controller.enforcing = false ∨ (charge.records = 0 ∧ charge.byteUnits = 0))) :
    CreditAct s (.charged charge) s (.adding (.refund charge))

/-- Flushes of any number, in any order. -/
def creditProgram : Program CreditState CreditThread where
  start t := ∃ request, t = .acquire request
  act _ := CreditAct

/-- The credit of a dimension that a flush has acquired and not returned. -/
def CreditThread.held (d : FillDimension) : CreditThread → ℕ
  | .charged charge => charge.amount d
  | .spent charge => charge.amount d
  | .adding (.refund charge) => charge.amount d
  | .addAttempt (.refund charge) _ => charge.amount d
  | _ => 0

/-! ## What one access does -/

namespace FillCredit

variable {c : FillCredit}

/-- Both fields of the word after a charge. -/
lemma Valid.take (h : c.Valid) {charge : FlushCharge}
    (hr : charge.records ≤ packedRecords c.credit)
    (hb : charge.byteUnits ≤ packedByteUnits c.credit) :
    Valid { c with credit := takenWord charge c.credit } ∧
      ∀ d, amount { c with credit := takenWord charge c.credit } d + charge.amount d =
        c.amount d := by
  have hr32 := ((Nat.sub_le _ charge.records).trans h.records_le).trans_lt h.maxRecords_lt
  have hb32 := ((Nat.sub_le _ charge.byteUnits).trans h.byteUnits_le).trans_lt h.maxByteUnits_lt
  refine ⟨h.withCredit ((Nat.sub_le _ _).trans h.records_le)
    ((Nat.sub_le _ _).trans h.byteUnits_le), fun d => ?_⟩
  cases d with
  | bytes =>
    change packedByteUnits (takenWord charge c.credit) + charge.byteUnits = packedByteUnits c.credit
    rw [takenWord, packedByteUnits_packCredit hr32 hb32, Nat.sub_add_cancel hb]
  | records =>
    change packedRecords (takenWord charge c.credit) + charge.records = packedRecords c.credit
    rw [takenWord, packedRecords_packCredit hr32 hb32, Nat.sub_add_cancel hr]

/-- Both fields of the word after an addition. -/
lemma Valid.add (h : c.Valid) (records byteUnits : ℕ) :
    Valid { c with credit := c.addedWord records byteUnits c.credit } ∧
      ∀ d, amount { c with credit := c.addedWord records byteUnits c.credit } d =
        min (c.amount d + FillDimension.pick records byteUnits d) (c.cap d) := by
  have hr32 := (Nat.min_le_right (packedRecords c.credit + records) _).trans_lt h.maxRecords_lt
  have hb32 := (Nat.min_le_right (packedByteUnits c.credit + byteUnits) _).trans_lt
    h.maxByteUnits_lt
  refine ⟨h.withCredit (Nat.min_le_right _ _) (Nat.min_le_right _ _), fun d => ?_⟩
  cases d with
  | bytes => exact packedByteUnits_packCredit hr32 hb32
  | records => exact packedRecords_packCredit hr32 hb32

/-- The credit is within its caps. -/
lemma Valid.amount_le (h : c.Valid) (d : FillDimension) : c.amount d ≤ c.cap d := by
  cases d with
  | bytes => exact h.byteUnits_le
  | records => exact h.records_le

end FillCredit

/-- What is added for a purpose in a dimension. -/
def CreditPurpose.amount (purpose : CreditPurpose) : FillDimension → ℕ :=
  FillCredit.FillDimension.pick purpose.records purpose.byteUnits

/-- The charge that a flush has taken, also after it was spent or returned. -/
def CreditThread.charge : CreditThread → Option FlushCharge
  | .charged charge => some charge
  | .spent charge => some charge
  | .refunded charge => some charge
  | .adding (.refund charge) => some charge
  | .addAttempt (.refund charge) _ => some charge
  | _ => none

/-- Where a flush can stand when rates are only observed: before it asks, or with the empty
charge. -/
def CreditThread.Observed : CreditThread → Prop
  | .acquire _ => True
  | .charged charge | .spent charge | .refunded charge => charge = ⟨0, 0⟩
  | _ => False

/-- **One access.** Either the word and what the flush holds stay as they are; or a charge is taken
from both fields exactly; or a refill adds to both fields up to their caps, and the growth is
counted; or the whole charge that was taken is added to both fields, up to their caps. A charge that
a flush has is the one that it returns. -/
inductive CreditMove (s : CreditState) (t : CreditThread) (s' : CreditState) (t' : CreditThread) :
    Prop
  | word (hword : s'.controller.credit = s.controller.credit) (hrefilled : s'.refilled = s.refilled)
    (hheld : ∀ d, t'.held d = t.held d)
    (hcharge : ∀ charge, t.charge = some charge → t'.charge = some charge)
  | take (charge : FlushCharge) (ht : t.charge = none ∧ ∀ d, t.held d = 0)
    (ht' : t' = .charged charge)
    (hword : ∀ d, s'.controller.amount d + charge.amount d = s.controller.amount d)
    (hrefilled : s'.refilled = s.refilled)
  | refill (request : FlushRequest) (records byteUnits : ℕ)
    (ht : t = .addAttempt (.refill request records byteUnits) s.controller.credit)
    (ht' : t' = .loading request)
    (hword : ∀ d, s'.controller.amount d =
      min (s.controller.amount d + FillCredit.FillDimension.pick records byteUnits d)
        (s.controller.cap d))
    (hrefilled : ∀ d, s'.refilled d + s.controller.amount d =
      s.refilled d + s'.controller.amount d)
  | refund (charge : FlushCharge) (ht : t = .addAttempt (.refund charge) s.controller.credit)
    (ht' : t' = .refunded charge)
    (hword : ∀ d, s'.controller.amount d =
      min (s.controller.amount d + charge.amount d) (s.controller.cap d))
    (hrefilled : s'.refilled = s.refilled)

/-- Nothing is in a charge of nothing. -/
lemma FlushCharge.amount_eq_zero {charge : FlushCharge}
    (h : charge.records = 0 ∧ charge.byteUnits = 0) (d : FillDimension) : charge.amount d = 0 := by
  cases d with
  | bytes => exact h.2
  | records => exact h.1

/-- When rates are only observed, no flush gets further than to the empty charge. -/
lemma CreditAct.observed {s s' : CreditState} {t t' : CreditThread} (h : CreditAct s t s' t')
    (henforcing : s.controller.enforcing = false) (ht : t.Observed) : t'.Observed := by
  cases h with
  | exempt _ => exact rfl
  | readTime hno _ => exact absurd (.inr henforcing) hno
  | flushed => exact ht
  | returnNothing _ => exact ht
  | returnCharge hno => exact absurd (.inl henforcing) hno
  | _ => exact ht.elim

/-- **Every access is a move**, keeps the caps and leaves the configuration alone. -/
lemma CreditAct.move {s s' : CreditState} {t t' : CreditThread} (h : CreditAct s t s' t')
    (hvalid : s.controller.Valid) (hobserved : s.controller.enforcing = false → t.Observed) :
    CreditMove s t s' t' ∧ s'.controller.Valid ∧
      FillCredit.SameLimits s.controller s'.controller := by
  have hsame := FillCredit.SameLimits.refl s.controller
  cases h with
  | exempt _ =>
    refine ⟨.take ⟨0, 0⟩ ⟨rfl, fun d => rfl⟩ rfl (fun d => ?_) rfl, hvalid, hsame⟩
    cases d <;> rfl
  | claimed _ _ =>
    exact ⟨.word rfl rfl (fun d => rfl) fun _ hc => hc, ⟨hvalid.1, hvalid.2, hvalid.3, hvalid.4⟩,
      ⟨rfl, rfl, rfl, rfl⟩⟩
  | @addNothing purpose hzero =>
    refine ⟨.word rfl rfl (fun d => ?_) fun charge hcharge => ?_, hvalid, hsame⟩
    · cases purpose with
      | refill => rfl
      | refund charge => exact (FlushCharge.amount_eq_zero hzero d).symm
    · cases purpose <;> exact hcharge
  | @addLoad purpose _ =>
    refine ⟨.word rfl rfl (fun d => ?_) fun charge hcharge => ?_, hvalid, hsame⟩
    · cases purpose <;> rfl
    · cases purpose <;> exact hcharge
  | @added purpose =>
    obtain ⟨hvalid', hamount⟩ := hvalid.add purpose.records purpose.byteUnits
    cases purpose with
    | refill request records byteUnits =>
      refine ⟨.refill request records byteUnits rfl rfl hamount fun d => ?_, hvalid',
        ⟨rfl, rfl, rfl, rfl⟩⟩
      -- a refill never takes anything away
      have hgrows : s.controller.amount d ≤
          (s.add (.refill request records byteUnits)).controller.amount d := by
        refine le_trans ?_ (hamount d).ge
        exact le_min (Nat.le_add_right _ _) (hvalid.amount_le d)
      change s.refilled d + ((s.add (.refill request records byteUnits)).controller.amount d -
        s.controller.amount d) + s.controller.amount d = _
      omega
    | refund charge =>
      exact ⟨.refund charge rfl rfl hamount rfl, hvalid', ⟨rfl, rfl, rfl, rfl⟩⟩
  | @addAgain purpose value _ =>
    refine ⟨.word rfl rfl (fun d => ?_) fun charge hcharge => ?_, hvalid, hsame⟩
    · cases purpose <;> rfl
    · cases purpose <;> exact hcharge
  | @taken request attempts charge hcharge =>
    obtain ⟨hr, hb⟩ := FillCredit.flushCharge_le hcharge
    obtain ⟨hvalid', hamount⟩ := hvalid.take hr hb
    exact ⟨.take charge ⟨rfl, fun d => rfl⟩ rfl hamount rfl, hvalid', ⟨rfl, rfl, rfl, rfl⟩⟩
  | @returnNothing charge hnothing =>
    -- a charge that is not returned is empty, also when rates are only observed
    have hzero : charge.records = 0 ∧ charge.byteUnits = 0 := by
      rcases hnothing with henforcing | hzero
      · obtain rfl : charge = ⟨0, 0⟩ := hobserved henforcing
        exact ⟨rfl, rfl⟩
      · exact hzero
    exact ⟨.word rfl rfl (fun d => (FlushCharge.amount_eq_zero hzero d).symm) fun _ hc => hc,
      hvalid, hsame⟩
  | _ => exact ⟨.word rfl rfl (fun d => rfl) fun _ hc => hc, hvalid, hsame⟩

/-- A flush that gets to the end of a return has had its whole charge until then. -/
lemma CreditAct.held_of_refunded {s s' : CreditState} {t : CreditThread} {charge : FlushCharge}
    (h : CreditAct s t s' (.refunded charge)) :
    t.charge = some charge ∧ ∀ d, t.held d = charge.amount d := by
  generalize ht' : CreditThread.refunded charge = t' at h
  cases h with
  | @addNothing purpose _ =>
    cases purpose with
    | refill => cases ht'
    | refund => cases ht'; exact ⟨rfl, fun d => rfl⟩
  | @added purpose =>
    cases purpose with
    | refill => cases ht'
    | refund => cases ht'; exact ⟨rfl, fun d => rfl⟩
  | returnNothing _ => cases ht'; exact ⟨rfl, fun d => rfl⟩
  | _ => cases ht'

/-- **Returning.** When a flush gets to the end of a return, each field grows by what the flush has
held until then, up to its cap. -/
lemma CreditMove.returned {s s' : CreditState} {t : CreditThread} {charge : FlushCharge}
    (h : CreditMove s t s' (.refunded charge)) (hvalid : s.controller.Valid)
    (ht : t.charge = some charge) (d : FillDimension) :
    s'.controller.amount d = min (s.controller.amount d + t.held d) (s.controller.cap d) := by
  cases h with
  | word hword _ hheld _ =>
    have hzero : t.held d = 0 := (hheld d).symm
    have hamount : s'.controller.amount d = s.controller.amount d := by
      cases d
      · exact congrArg packedByteUnits hword
      · exact congrArg packedRecords hword
    rw [hzero, Nat.add_zero, hamount]
    exact (Nat.min_eq_left (hvalid.amount_le d)).symm
  | take _ hnone _ _ _ =>
    rw [hnone.1] at ht
    cases ht
  | refill _ _ _ _ hloading _ _ => cases hloading
  | refund charge' hat _ hword _ =>
    subst hat
    exact hword d

/-! ## Every run -/

/-- The balance of a pool of flushes: the word is within its caps, and in each dimension what it
holds and what flushes have acquired and not returned is at most what there was at first and what
refills have added. When rates are only observed, no flush has acquired anything. -/
structure CreditBalance (c₀ : FillCredit) (p : Pool CreditState CreditThread) : Prop where
  valid : p.shared.controller.Valid
  limits : FillCredit.SameLimits c₀ p.shared.controller
  balance : ∀ d, p.shared.controller.amount d + p.total (CreditThread.held d) ≤
    c₀.amount d + p.shared.refilled d
  observed : c₀.enforcing = false → ∀ {i t}, p.At i t → t.Observed

/-- A thread of a pool in balance moves. -/
lemma CreditBalance.move {c₀ : FillCredit} {p : Pool CreditState CreditThread} {i : ℕ}
    {t t' : CreditThread} {s' : CreditState} (h : CreditBalance c₀ p) (hi : p.At i t)
    (hact : CreditAct p.shared t s' t') : CreditMove p.shared t s' t' ∧ s'.controller.Valid ∧
      FillCredit.SameLimits p.shared.controller s'.controller :=
  hact.move h.valid fun henforcing => h.observed (h.limits.enforcing.symm.trans henforcing) hi

/-- A move keeps the balance. -/
lemma CreditBalance.act {c₀ : FillCredit} {p : Pool CreditState CreditThread} {i : ℕ}
    {t t' : CreditThread} {s' : CreditState} (h : CreditBalance c₀ p) (hi : p.At i t)
    (hact : CreditAct p.shared t s' t') : CreditBalance c₀ (p.act i s' t') := by
  obtain ⟨hmove, hvalid, hsame⟩ := h.move hi hact
  refine ⟨hvalid, h.limits.trans hsame, fun d => ?_, fun henforcing {j u} hj => ?_⟩
  · have htotal := Pool.total_act (CreditThread.held d) hi s' t'
    have hbalance := h.balance d
    rw [Pool.act_shared]
    cases hmove with
    | word hword hrefilled hheld _ =>
      have hamount : s'.controller.amount d = p.shared.controller.amount d := by
        cases d
        · exact congrArg packedByteUnits hword
        · exact congrArg packedRecords hword
      have := hheld d
      rw [hamount, hrefilled]
      omega
    | take charge ht ht' hword hrefilled =>
      have hzero := ht.2 d
      have hword := hword d
      subst ht'
      rw [hrefilled]
      change _ + charge.amount d = _ at hword
      change _ = _ + charge.amount d at htotal
      omega
    | refill request records byteUnits ht ht' hword hrefilled =>
      have hrefilled := hrefilled d
      subst ht ht'
      change _ + 0 = _ + 0 at htotal
      omega
    | refund charge ht ht' hword hrefilled =>
      have hword := hword d
      subst ht ht'
      rw [hrefilled]
      change _ + charge.amount d = _ + 0 at htotal
      omega
  · rcases (Pool.at_act hi).1 hj with ⟨-, rfl⟩ | ⟨-, hj⟩
    · exact hact.observed (h.limits.enforcing.trans henforcing) (h.observed henforcing hi)
    · exact h.observed henforcing hj

/-- Every pool that is reached from a new controller is in balance. -/
theorem creditBalance {options : FillControlOptions} {maxFlushBytes : ℕ} {c₀ : FillCredit}
    {p : Pool CreditState CreditThread}
    (hnew : FillCredit.new options maxFlushBytes = .ok (some c₀))
    (hp : Reachable creditProgram ⟨c₀, fun _ => 0⟩ p) : CreditBalance c₀ p := by
  have hinit : CreditBalance c₀ ⟨⟨c₀, fun _ => 0⟩, []⟩ :=
    ⟨FillCredit.valid_of_new hnew, .refl c₀, fun d => Nat.le_refl (c₀.amount d),
      fun _ _ _ hi => by cases hi⟩
  refine Reachable.invariant hinit ?_ ?_ hp
  · rintro c t hc ⟨request, rfl⟩
    refine ⟨hc.valid, hc.limits, fun d => ?_, fun henforcing {i t} hi => ?_⟩
    · rw [Pool.spawn_shared, Pool.total_spawn]
      exact hc.balance d
    · rcases Pool.at_spawn.1 hi with hi | ⟨-, rfl⟩
      · exact hc.observed henforcing hi
      · trivial
  · intro c i t t' s' hc hi hact
    exact hc.act hi hact

/-- What holds of the credit word in a state of a run. `within`: the caps; `balance`: what is
acquired and not returned is covered; `move`: what the next access of any flush does to both fields;
`returned`: a flush that gets to the end of a return has had its whole charge until then, and the
fields have grown by it, up to their caps; `exempt` and `empty`: a flush that is essential, or whose
rates are only observed, takes nothing and returns nothing. -/
structure CreditConserved (c₀ : FillCredit) (p : Pool CreditState CreditThread) : Prop where
  within : ∀ d, p.shared.controller.amount d ≤ c₀.cap d
  balance : ∀ d, p.shared.controller.amount d + p.total (CreditThread.held d) ≤
    c₀.amount d + p.shared.refilled d
  move : ∀ {i t s' t'}, p.At i t → CreditAct p.shared t s' t' → CreditMove p.shared t s' t'
  returned : ∀ {i t s' charge}, p.At i t → CreditAct p.shared t s' (.refunded charge) →
    t.charge = some charge ∧ ∀ d, t.held d = charge.amount d ∧
      s'.controller.amount d = min (p.shared.controller.amount d + charge.amount d) (c₀.cap d)
  exempt : ∀ {i request s' t'}, p.At i (.acquire request) → request.Exempt c₀ →
    CreditAct p.shared (.acquire request) s' t' → s' = p.shared ∧ t' = .charged ⟨0, 0⟩
  empty : ∀ {i s' t'}, p.At i (.charged ⟨0, 0⟩) → CreditAct p.shared (.charged ⟨0, 0⟩) s' t' →
    s' = p.shared ∧ (t' = .spent ⟨0, 0⟩ ∨ t' = .refunded ⟨0, 0⟩)

/-- **The credit word.** For every configuration, in every state that any interleaving of flushes
reaches from a new controller: both fields are within their caps; what is acquired and not returned
is at most the initial credit and what refills have added; the next access of any flush takes or
adds exactly, in both fields; a return restores all that was taken, up to the caps; and a flush that
is essential, or whose rates are only observed, gets the empty charge, whose return does nothing. -/
theorem creditWord_conservation {options : FillControlOptions} {maxFlushBytes : ℕ}
    {c₀ : FillCredit} {p : Pool CreditState CreditThread}
    (hnew : FillCredit.new options maxFlushBytes = .ok (some c₀))
    (hp : Reachable creditProgram ⟨c₀, fun _ => 0⟩ p) : CreditConserved c₀ p := by
  have hbalance := creditBalance hnew hp
  constructor
  · intro d
    rw [← hbalance.limits.cap d]
    exact hbalance.valid.amount_le d
  · exact hbalance.balance
  · exact fun hi hact => (hbalance.move hi hact).1
  · intro i t s' charge hi hact
    obtain ⟨ht, hheld⟩ := hact.held_of_refunded
    refine ⟨ht, fun d => ⟨hheld d, ?_⟩⟩
    rw [← hheld d, ← hbalance.limits.cap d]
    exact (hbalance.move hi hact).1.returned hbalance.valid ht d
  · intro i request s' t' hi hexempt hact
    cases hact with
    | exempt _ => exact ⟨rfl, rfl⟩
    | readTime hno _ =>
      refine absurd ?_ hno
      unfold FlushRequest.Exempt at hexempt ⊢
      rwa [hbalance.limits.enforcing]
  · intro i s' t' hi hact
    cases hact with
    | flushed => exact ⟨rfl, .inl rfl⟩
    | returnNothing _ => exact ⟨rfl, .inr rfl⟩
    | returnCharge hno => exact absurd (.inr ⟨rfl, rfl⟩) hno

/-- The smallest controller: one record and one byte unit. -/
def sampleCredit : FillCredit :=
  { limits := ⟨640, 10⟩, enforcing := true, maxByteUnits := 1, maxRecords := 1,
    credit := packCredit 1 1, lastRefillNs := 0 }

/-- One flush takes all the credit of the smallest controller, and returns it. -/
theorem creditWord_conservation_sample :
    ∃ p s', Reachable creditProgram ⟨sampleCredit, fun _ => 0⟩ p ∧
      p.total (CreditThread.held .bytes) = 1 ∧ p.shared.controller.amount .bytes = 0 ∧
      p.shared.controller.amount .bytes + p.total (CreditThread.held .bytes) ≤
        sampleCredit.amount .bytes + p.shared.refilled .bytes ∧
      CreditAct p.shared (.addAttempt (.refund ⟨1, 1⟩) p.shared.controller.credit) s'
        (.refunded ⟨1, 1⟩) ∧
      s'.controller.amount .bytes = min (p.shared.controller.amount .bytes + 1) 1 := by
  have hnew : FillCredit.new (.adaptive ⟨640, 10⟩) 64 = .ok (some sampleCredit) := by
    decide +kernel
  let request : FlushRequest := ⟨64, 1, false⟩
  have h₀ : Reachable creditProgram ⟨sampleCredit, fun _ => 0⟩
      (Pool.spawn ⟨⟨sampleCredit, fun _ => 0⟩, []⟩ (.acquire request)) :=
    Reachable.init.spawn ⟨request, rfl⟩
  have h₁ := h₀.act (i := 0) rfl (.readTime (by rintro (h | h) <;> cases h) 0)
  have h₂ := h₁.act (i := 0) rfl (.early (.inl le_rfl))
  have h₃ := h₂.act (i := 0) rfl .load
  have h₄ := h₃.act (i := 0) rfl (@CreditAct.taken _ _ _ ⟨1, 1⟩ (by decide +kernel))
  have h₅ := h₄.act (i := 0) rfl
    (.returnCharge (by rintro (h | ⟨h, -⟩) <;> exact absurd h (by decide +kernel)))
  have h₆ := h₅.act (i := 0) rfl
    (@CreditAct.addLoad _ (.refund ⟨1, 1⟩) (by rintro ⟨h, -⟩; exact absurd h (by decide)))
  have hconserved := creditWord_conservation hnew h₆
  exact ⟨_, _, h₆, by decide +kernel, by decide +kernel, hconserved.balance .bytes, .added,
    ((hconserved.returned (i := 0) rfl .added).2 .bytes).2⟩

end Cache2

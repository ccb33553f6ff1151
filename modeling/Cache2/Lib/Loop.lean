import Mathlib.Data.List.Basic
import Mathlib.Order.Defs.Unbundled

set_option relaxedAutoImplicit false
set_option autoImplicit false

/-!
# Loops with early return, and total correctness, over a fallible state

Code with mutable state and `?`-propagated errors is a computation of `EStateM ε σ`: an error
keeps the state reached so far. A `for` loop whose body updates local variables and may return
from the enclosing function is `Loop.forReturn`. `Loop.Ensures P f Q` says that `f`, started in
a state with `P`, does not fail and ends with `Q`; the rules below are those of a small Hoare
logic for it.

## Main definitions

* `Loop.Flow`, `Loop.forReturn` — loops with early return.
* `Loop.Ensures` — total correctness: no error, and the postcondition.
* `Loop.Ends` — a postcondition for either outcome of one run.
* `Loop.Moves` — a relation between the states before and after every run.
* `Loop.Keeps` — a part of the state that no run changes.
* `Loop.Advances` — a relation between the states before and after every run, also one that fails.
* `Loop.forEachMut` — loops over the elements of a vector, in place.
* `Loop.zoom` — a computation on a part of the state.

## Main results

* `Loop.Ensures.bind`, `Loop.Ensures.bind_eq` — sequencing.
* `Loop.Ensures.forReturn`, `Loop.Ensures.forRange` — the loop rule, with an invariant over the
  iterations done so far.
* `Loop.Ensures.zoom` — a part of the state.
* `Loop.Keeps.forReturn` — what every iteration keeps, a loop keeps.
-/

namespace Loop

variable {ε σ τ α β γ : Type}

/-! ## Sequencing -/

/-- Returning a value. -/
@[simp] lemma pure_apply (a : α) (s : σ) : (pure a : EStateM ε σ α) s = .ok a s := rfl

/-- Reading the state. -/
@[simp] lemma get_apply (s : σ) : (get : EStateM ε σ σ) s = .ok s s := rfl

/-- Changing the state. -/
@[simp] lemma modify_apply (f : σ → σ) (s : σ) :
    (modify f : EStateM ε σ PUnit) s = .ok ⟨⟩ (f s) := rfl

/-- Failing. -/
@[simp] lemma throw_apply (e : ε) (s : σ) : (throw e : EStateM ε σ α) s = .error e s := rfl

/-- Sequencing, by the first part's result. -/
lemma bind_apply (f : EStateM ε σ α) (g : α → EStateM ε σ β) (s : σ) :
    (f >>= g) s = match f s with
      | .ok a s' => g a s'
      | .error e s' => .error e s' := rfl

/-- Sequencing after a success. -/
lemma bind_ok {f : EStateM ε σ α} {g : α → EStateM ε σ β} {s s' : σ} {a : α}
    (h : f s = .ok a s') : (f >>= g) s = g a s' := by
  show EStateM.bind f g s = g a s'
  simp only [EStateM.bind, h]

/-- Another kind of errors does not change a success. -/
lemma adaptExcept_ok {ε' : Type} {g : ε → ε'} {f : EStateM ε σ α} {s s' : σ} {a : α}
    (h : f s = .ok a s') : EStateM.adaptExcept g f s = .ok a s' := by
  rw [EStateM.adaptExcept, h]

/-- A sequence that succeeds does so through both of its parts. -/
lemma bind_eq_ok {f : EStateM ε σ α} {g : α → EStateM ε σ β} {s s' : σ} {c : β} :
    (f >>= g) s = .ok c s' ↔ ∃ a s₁, f s = .ok a s₁ ∧ g a s₁ = .ok c s' := by
  show EStateM.bind f g s = .ok c s' ↔ _
  unfold EStateM.bind
  cases hf : f s with
  | ok a s₁ =>
    constructor
    · intro h
      exact ⟨a, s₁, rfl, h⟩
    · rintro ⟨a', s₂, h₁, h₂⟩
      cases h₁
      exact h₂
  | error e s₁ => simp

/-- How a sequence fails: in its first part, or in its second one. -/
lemma bind_eq_error {f : EStateM ε σ α} {g : α → EStateM ε σ β} {s s' : σ} {e : ε} :
    (f >>= g) s = .error e s' ↔
      f s = .error e s' ∨ ∃ a s₁, f s = .ok a s₁ ∧ g a s₁ = .error e s' := by
  show EStateM.bind f g s = .error e s' ↔ _
  unfold EStateM.bind
  cases hf : f s with
  | ok a s₁ => simp
  | error e' s₁ => simp

/-! ## Total correctness -/

/-- From every state with `P`, the computation succeeds with a result and a state for which `Q`
holds. -/
def Ensures (P : σ → Prop) (f : EStateM ε σ α) (Q : α → σ → Prop) : Prop :=
  ∀ s, P s → ∃ a s', f s = .ok a s' ∧ Q a s'

namespace Ensures

variable {P : σ → Prop} {Q : α → σ → Prop}

/-- Returning a value. -/
lemma pure {a : α} (h : ∀ s, P s → Q a s) : Ensures (ε := ε) P (Pure.pure a) Q :=
  fun s hs => ⟨a, s, rfl, h s hs⟩

/-- Sequencing. -/
lemma bind {f : EStateM ε σ β} {g : β → EStateM ε σ α} {R : β → σ → Prop}
    (hf : Ensures P f R) (hg : ∀ b, Ensures (R b) (g b) Q) : Ensures P (f >>= g) Q := by
  intro s hs
  obtain ⟨b, s₁, h₁, hR⟩ := hf s hs
  obtain ⟨a, s₂, h₂, hQ⟩ := hg b s₁ hR
  exact ⟨a, s₂, by rw [bind_ok h₁, h₂], hQ⟩

/-- Sequencing after a computation with a known result. -/
lemma bind_eq {f : EStateM ε σ β} {g : β → EStateM ε σ α} {v : β} {R : σ → Prop}
    (hf : Ensures P f fun b s => b = v ∧ R s) (hg : Ensures R (g v) Q) :
    Ensures P (f >>= g) Q := by
  refine hf.bind fun b => ?_
  rintro s ⟨rfl, hR⟩
  exact hg s hR

/-- A stronger precondition and a weaker postcondition. -/
lemma conseq {f : EStateM ε σ α} {A : σ → Prop} {B : α → σ → Prop} (h : Ensures P f Q)
    (hP : ∀ s, A s → P s) (hQ : ∀ a s, Q a s → B a s) : Ensures A f B := by
  intro s hs
  obtain ⟨a, s', h₁, h₂⟩ := h s (hP s hs)
  exact ⟨a, s', h₁, hQ a s' h₂⟩

/-- A state-dependent computation is verified state by state. -/
lemma of_state {f : EStateM ε σ α} (h : ∀ s, P s → Ensures (fun s' => s' = s) f Q) :
    Ensures P f Q :=
  fun s hs => h s hs s rfl

end Ensures

/-! ## Either outcome -/

/-- Started in `s`, the computation succeeds with `Q` or fails with `E`. -/
def Ends (f : EStateM ε σ α) (s : σ) (Q : α → σ → Prop) (E : ε → σ → Prop) : Prop :=
  match f s with
  | .ok a s' => Q a s'
  | .error e s' => E e s'

namespace Ends

variable {f : EStateM ε σ α} {s : σ} {Q Q' : α → σ → Prop} {E E' : ε → σ → Prop}

/-- Weaker postconditions. -/
lemma mono (h : Ends f s Q E) (hQ : ∀ a s', Q a s' → Q' a s') (hE : ∀ e s', E e s' → E' e s') :
    Ends f s Q' E' := by
  unfold Ends at *
  cases hf : f s with
  | ok a s' =>
    rw [hf] at h
    exact hQ a s' h
  | error e s' =>
    rw [hf] at h
    exact hE e s' h

/-- Two postconditions. -/
lemma and (h : Ends f s Q E) (h' : Ends f s Q' E') :
    Ends f s (fun a s' => Q a s' ∧ Q' a s') fun e s' => E e s' ∧ E' e s' := by
  unfold Ends at *
  cases hf : f s with
  | ok a s' =>
    rw [hf] at h h'
    exact ⟨h, h'⟩
  | error e s' =>
    rw [hf] at h h'
    exact ⟨h, h'⟩

/-- Sequencing. -/
lemma bind {g : α → EStateM ε σ β} {R : β → σ → Prop} (h : Ends f s Q E)
    (hg : ∀ a s', Q a s' → Ends (g a) s' R E) : Ends (f >>= g) s R E := by
  unfold Ends at h ⊢
  rw [bind_apply]
  cases hf : f s with
  | ok a s' =>
    rw [hf] at h
    exact hg a s' h
  | error e s' =>
    rw [hf] at h
    exact h

/-- Sequencing after a success. -/
lemma bind_ok {g : α → EStateM ε σ β} {R : β → σ → Prop} {a : α} {s' : σ} (h : f s = .ok a s')
    (hg : Ends (g a) s' R E) : Ends (f >>= g) s R E := by
  unfold Ends at hg ⊢
  rw [Loop.bind_ok h]
  exact hg

/-- A run that is known to succeed. -/
lemma of_ok {a : α} {s' : σ} (h : f s = .ok a s') (hQ : Q a s') : Ends f s Q E := by
  unfold Ends
  rw [h]
  exact hQ

/-- Returning a value. -/
lemma pure {a : α} (h : Q a s) : Ends (Pure.pure a : EStateM ε σ α) s Q E := h

end Ends

/-- Every run of the computation relates the states before and after it by `R`, or fails with an
error of `E`. -/
def Moves (f : EStateM ε σ α) (R : σ → σ → Prop) (E : ε → Prop) : Prop :=
  ∀ s, Ends f s (fun _ => R s) fun e _ => E e

namespace Moves

variable {f : EStateM ε σ α} {R : σ → σ → Prop} {E : ε → Prop}

/-- Sequencing. -/
lemma bind [IsTrans σ R] {g : α → EStateM ε σ β} (h : Moves f R E) (hg : ∀ a, Moves (g a) R E) :
    Moves (f >>= g) R E := fun s =>
  (h s).bind fun a s' hs => (hg a s').mono (fun _ _ => IsTrans.trans _ _ _ hs) fun _ _ he => he

/-- Returning a value. -/
lemma pure [Std.Refl R] (a : α) : Moves (Pure.pure a : EStateM ε σ α) R E :=
  fun s => Std.Refl.refl s

/-- Reading the state. -/
lemma get [Std.Refl R] : Moves (MonadState.get : EStateM ε σ σ) R E := fun s => Std.Refl.refl s

end Moves

/-! ## Checks -/

/-- A pure check in a stateful computation. -/
def orThrow : Except ε α → EStateM ε σ α
  | .ok a => pure a
  | .error e => throw e

/-- A check that passes. -/
lemma orThrow_ok {P : σ → Prop} (a : α) :
    Ensures (ε := ε) P (orThrow (.ok a)) fun b s => b = a ∧ P s :=
  fun s hs => ⟨a, s, rfl, rfl, hs⟩

/-- A sequence of checks that passes does so through both of its parts. -/
lemma except_bind_eq_ok {x : Except ε α} {f : α → Except ε β} {b : β} :
    (x >>= f) = .ok b ↔ ∃ a, x = .ok a ∧ f a = .ok b := by
  cases x with
  | ok a => simp [bind, Except.bind]
  | error e => simp [bind, Except.bind]

/-- An error that is only renamed is an error. -/
lemma mapError_eq_ok {ε ε' α : Type} {f : ε → ε'} {x : Except ε α} {a : α} :
    x.mapError f = .ok a ↔ x = .ok a := by
  cases x <;> simp [Except.mapError]

/-- An alternative of which one branch fails succeeds through the other one. -/
lemma ite_error_eq_ok {c : Prop} [Decidable c] {e : ε} {x : Except ε α} {a : α} :
    (if c then .error e else x) = .ok a ↔ ¬ c ∧ x = .ok a := by
  split_ifs with h <;> simp [h]

/-- `value.ok_or(error)?`. -/
def okOr (e : ε) : Option α → EStateM ε σ α
  | some a => pure a
  | none => throw e

/-- `if condition { return Err(error) }`. -/
def rejectIf (c : Prop) [Decidable c] (e : ε) : EStateM ε σ Unit :=
  if c then throw e else pure ()

/-- Reading the state first. -/
@[simp] lemma get_bind (g : σ → EStateM ε σ β) (s : σ) : (get >>= g) s = g s s := rfl

/-- Replacing the state first. -/
@[simp] lemma set_bind (t : σ) (g : PUnit → EStateM ε σ β) (s : σ) :
    (set t >>= g) s = g ⟨⟩ t := rfl

/-- Changing the state first. -/
@[simp] lemma modify_bind (f : σ → σ) (g : PUnit → EStateM ε σ β) (s : σ) :
    (modify f >>= g) s = g ⟨⟩ (f s) := rfl

/-- Replacing the state. -/
@[simp] lemma set_apply (t s : σ) : (set t : EStateM ε σ PUnit) s = .ok ⟨⟩ t := rfl

/-- A check that passes. -/
lemma rejectIf_bind {c : Prop} [Decidable c] {e : ε} (h : ¬ c) (g : Unit → EStateM ε σ β) (s : σ) :
    (rejectIf c e >>= g) s = g () s := by
  refine bind_ok ?_
  rw [rejectIf, if_neg h]
  rfl

/-- An unwrapped value that is there. -/
lemma okOr_bind {e : ε} {x : Option α} {a : α} (h : x = some a) (g : α → EStateM ε σ β) (s : σ) :
    (okOr e x >>= g) s = g a s := by
  rw [h]
  rfl

/-- A pure check that succeeds. -/
lemma orThrow_bind {x : Except ε α} {a : α} (h : x = .ok a) (g : α → EStateM ε σ β) (s : σ) :
    (orThrow x >>= g) s = g a s := by
  rw [h]
  rfl

/-- A result of an alternative comes from one of its branches. -/
lemma ite_run {c : Prop} [Decidable c] {f g : EStateM ε σ α} {s : σ} {r : EStateM.Result ε σ α} :
    (if c then f else g) s = r ↔ (c ∧ f s = r) ∨ (¬ c ∧ g s = r) := by
  split_ifs with h <;> simp [h]

/-- A sequence after a pure check succeeds when the check does. -/
@[simp] lemma orThrow_bind_eq_ok {x : Except ε α} {g : α → EStateM ε σ β} {s s' : σ} {b : β} :
    (orThrow x >>= g) s = .ok b s' ↔ ∃ a, x = .ok a ∧ g a s = .ok b s' := by
  cases x <;> simp [orThrow, bind_apply]

/-- How a sequence after a pure check fails. -/
@[simp] lemma orThrow_bind_eq_error {x : Except ε α} {f : ε} {g : α → EStateM ε σ β} {s s' : σ} :
    (orThrow x >>= g) s = .error f s' ↔
      (x = .error f ∧ s' = s) ∨ ∃ a, x = .ok a ∧ g a s = .error f s' := by
  cases x <;> simp [orThrow, bind_apply, eq_comm]

/-- A sequence after an unwrapped value succeeds when the value is there. -/
@[simp] lemma okOr_bind_eq_ok {x : Option α} {e : ε} {g : α → EStateM ε σ β} {s s' : σ} {b : β} :
    (okOr e x >>= g) s = .ok b s' ↔ ∃ a, x = some a ∧ g a s = .ok b s' := by
  cases x <;> simp [okOr, bind_apply]

/-- How a sequence after an unwrapped value fails. -/
@[simp] lemma okOr_bind_eq_error {x : Option α} {e f : ε} {g : α → EStateM ε σ β} {s s' : σ} :
    (okOr e x >>= g) s = .error f s' ↔
      (x = none ∧ f = e ∧ s' = s) ∨ ∃ a, x = some a ∧ g a s = .error f s' := by
  cases x <;> simp [okOr, bind_apply, eq_comm]

/-- A sequence after a guard succeeds when the guard lets it pass. -/
@[simp] lemma rejectIf_bind_eq_ok {c : Prop} [Decidable c] {e : ε} {g : Unit → EStateM ε σ β}
    {s s' : σ} {b : β} : (rejectIf c e >>= g) s = .ok b s' ↔ ¬ c ∧ g () s = .ok b s' := by
  unfold rejectIf
  split_ifs with h <;> simp [bind_apply, h]

/-- How a sequence after a guard fails. -/
@[simp] lemma rejectIf_bind_eq_error {c : Prop} [Decidable c] {e f : ε}
    {g : Unit → EStateM ε σ β} {s s' : σ} :
    (rejectIf c e >>= g) s = .error f s' ↔
      (c ∧ f = e ∧ s' = s) ∨ (¬ c ∧ g () s = .error f s') := by
  unfold rejectIf
  split_ifs with h <;> simp [bind_apply, h, eq_comm]

namespace Ends

variable {s : σ} {Q : β → σ → Prop} {E : ε → σ → Prop}

/-- A run that returns. -/
@[simp] lemma pure_iff {b : β} : Ends (Pure.pure b : EStateM ε σ β) s Q E ↔ Q b s := Iff.rfl

/-- A run that fails. -/
@[simp] lemma throw_iff {e : ε} : Ends (throw e : EStateM ε σ β) s Q E ↔ E e s := Iff.rfl

/-- A run that replaces the state. -/
@[simp] lemma set_iff {t : σ} {Q : PUnit → σ → Prop} :
    Ends (set t : EStateM ε σ PUnit) s Q E ↔ Q ⟨⟩ t := Iff.rfl

/-- Reading the state first. -/
@[simp] lemma get_bind_iff {g : σ → EStateM ε σ β} :
    Ends (get >>= g) s Q E ↔ Ends (g s) s Q E := Iff.rfl

/-- Replacing the state first. -/
@[simp] lemma set_bind_iff {t : σ} {g : PUnit → EStateM ε σ β} :
    Ends (set t >>= g) s Q E ↔ Ends (g ⟨⟩) t Q E := Iff.rfl

/-- Changing the state first. -/
@[simp] lemma modify_bind_iff {f : σ → σ} {g : PUnit → EStateM ε σ β} :
    Ends (modify f >>= g) s Q E ↔ Ends (g ⟨⟩) (f s) Q E := Iff.rfl

/-- An alternative. -/
@[simp] lemma ite_iff {c : Prop} [Decidable c] {f g : EStateM ε σ β} :
    Ends (if c then f else g) s Q E ↔ (c → Ends f s Q E) ∧ (¬ c → Ends g s Q E) := by
  split_ifs with h <;> simp [h]

/-- A run after an unwrapped value. -/
@[simp] lemma okOr_bind_iff {x : Option α} {e : ε} {g : α → EStateM ε σ β} :
    Ends (okOr e x >>= g) s Q E ↔ (x = none → E e s) ∧ ∀ a, x = some a → Ends (g a) s Q E := by
  cases x with
  | none => simp [okOr, Ends, bind_apply]
  | some a => simp [okOr, Ends, bind_apply]

/-- A run after a guard. -/
@[simp] lemma rejectIf_bind_iff {c : Prop} [Decidable c] {e : ε} {g : Unit → EStateM ε σ β} :
    Ends (rejectIf c e >>= g) s Q E ↔ (c → E e s) ∧ (¬ c → Ends (g ()) s Q E) := by
  unfold rejectIf
  split_ifs with h <;> simp [Ends, bind_apply, h]

/-- A run after a pure check. -/
@[simp] lemma orThrow_bind_iff {x : Except ε α} {g : α → EStateM ε σ β} :
    Ends (orThrow x >>= g) s Q E ↔
      (∀ e, x = .error e → E e s) ∧ ∀ a, x = .ok a → Ends (g a) s Q E := by
  cases x with
  | ok a => simp [orThrow, Ends, bind_apply]
  | error e => simp [orThrow, Ends, bind_apply]

end Ends

/-! ## Loops -/

/-- What an iteration decides: return from the enclosing function, or go on with the local
variables. -/
inductive Flow (β γ : Type)
  | done (result : β)
  | next (locals : γ)

/-- `Q` of a result, or `I` of the local variables. -/
def Flow.Holds (Q : β → σ → Prop) (I : γ → σ → Prop) : Flow β γ → σ → Prop
  | .done b, s => Q b s
  | .next c, s => I c s

/-- `for x in xs { body }`, where the body updates local variables or returns. -/
def forReturn (body : α → γ → EStateM ε σ (Flow β γ)) :
    List α → γ → EStateM ε σ (Flow β γ)
  | [], c => pure (.next c)
  | x :: xs, c => do
    match ← body x c with
    | .done b => pure (.done b)
    | .next c => forReturn body xs c

/-- **Loop rule.** An invariant over the iterations done so far, kept by every iteration that
goes on, holds of all of them when the loop ends; and what every returning iteration ensures
holds when the loop returns. -/
theorem Ensures.forReturn {body : α → γ → EStateM ε σ (Flow β γ)} {Q : β → σ → Prop}
    {I : List α → γ → σ → Prop} (xs : List α) (c : γ)
    (h : ∀ pre x post c, xs = pre ++ x :: post →
      Ensures (I pre c) (body x c) (Flow.Holds Q (I (pre ++ [x])))) :
    Ensures (I [] c) (forReturn body xs c) (Flow.Holds Q (I xs)) := by
  -- generalised over the iterations already done
  have key : ∀ (ys pre : List α) (c : γ), xs = pre ++ ys →
      Ensures (I pre c) (Loop.forReturn body ys c) (Flow.Holds Q (I xs)) := by
    intro ys
    induction ys with
    | nil =>
      intro pre c hpre
      refine Ensures.pure fun s hs => ?_
      rw [hpre, List.append_nil]
      exact hs
    | cons y ys ih =>
      intro pre c hpre
      refine (h pre y ys c hpre).bind fun r => ?_
      cases r with
      | done b => exact Ensures.pure fun s hs => hs
      | next c' => exact ih (pre ++ [y]) c' (by simp [hpre])
  exact key xs [] c rfl

/-- The loop rule for a loop over `0..n`, with an invariant over the number of iterations. -/
theorem Ensures.forRange {body : ℕ → γ → EStateM ε σ (Flow β γ)} {Q : β → σ → Prop}
    {I : ℕ → γ → σ → Prop} (n : ℕ) (c : γ)
    (h : ∀ x < n, ∀ c, Ensures (I x c) (body x c) (Flow.Holds Q (I (x + 1)))) :
    Ensures (I 0 c) (Loop.forReturn body (List.range n) c) (Flow.Holds Q (I n)) := by
  have hloop : Ensures (I ([] : List ℕ).length c) (Loop.forReturn body (List.range n) c)
      (Flow.Holds Q (I (List.range n).length)) :=
    Ensures.forReturn (I := fun pre => I pre.length) (List.range n) c ?_
  · simpa using hloop
  · intro pre x post c' hsplit
    -- the iteration after `pre` is the one with number `pre.length`
    have hx : (List.range n)[pre.length]? = some x := by simp [hsplit]
    obtain ⟨hlt, rfl⟩ := List.getElem?_eq_some_iff.1 hx
    simp only [List.getElem_range, List.length_append, List.length_singleton]
    exact h pre.length (by simpa using hlt) c'

/-- `for x in &mut xs { body }`, where the body may fail: the elements after the one it failed
at keep their values. -/
def forEachMut (body : α → α × Option ε) : List α → List α × Option ε
  | [] => ([], none)
  | x :: xs =>
    match body x with
    | (x', some e) => (x' :: xs, some e)
    | (x', none) => (x' :: (forEachMut body xs).1, (forEachMut body xs).2)

/-- A loop that does not fail has updated every element. -/
lemma forEachMut_of_none {body : α → α × Option ε} : ∀ {xs : List α},
    (forEachMut body xs).2 = none → (forEachMut body xs).1 = xs.map fun x => (body x).1
  | [], _ => rfl
  | x :: _, h => by
    unfold forEachMut at h ⊢
    cases hb : body x with
    | mk x' failure =>
      cases failure with
      | some e => rw [hb] at h; cases h
      | none =>
        rw [hb] at h
        simp [hb, forEachMut_of_none h]

/-- A loop that does not fail has not failed at any element. -/
lemma forEachMut_none_of_mem {body : α → α × Option ε} : ∀ {xs : List α},
    (forEachMut body xs).2 = none → ∀ x ∈ xs, (body x).2 = none
  | [], _ => by simp
  | x :: xs, h => by
    unfold forEachMut at h
    cases hb : body x with
    | mk x' failure =>
      cases failure with
      | some e => rw [hb] at h; cases h
      | none =>
        rw [hb] at h
        intro y hy
        rcases List.mem_cons.1 hy with rfl | hy
        · rw [hb]
        · exact forEachMut_none_of_mem h y hy

/-- A loop that fails at no element updates every element. -/
lemma forEachMut_eq_map {body : α → α × Option ε} : ∀ {xs : List α},
    (∀ x ∈ xs, (body x).2 = none) → forEachMut body xs = (xs.map fun x => (body x).1, none)
  | [], _ => rfl
  | x :: xs, h => by
    rw [forEachMut, show body x = ((body x).1, none) from Prod.ext rfl (h x List.mem_cons_self)]
    simp only [forEachMut_eq_map fun y hy => h y (List.mem_cons_of_mem _ hy), List.map_cons]

/-! ## Parts of the state -/

/-- Runs a computation on the part of the state that `get` reads and `set` replaces. -/
def zoom (get : σ → τ) (set : τ → σ → σ) (f : EStateM ε τ α) : EStateM ε σ α := fun s =>
  match f (get s) with
  | .ok a t => .ok a (set t s)
  | .error e t => .error e (set t s)

/-- A computation on a part of the state does on the whole what it does on the part. -/
lemma Ensures.zoom {get : σ → τ} {set : τ → σ → σ} {f : EStateM ε τ α} {P : τ → Prop}
    {Q : α → τ → Prop} {P' : σ → Prop} {Q' : α → σ → Prop} (h : Ensures P f Q)
    (hP : ∀ s, P' s → P (get s)) (hQ : ∀ s a t, P' s → Q a t → Q' a (set t s)) :
    Ensures P' (zoom get set f) Q' := by
  intro s hs
  obtain ⟨a, t, h₁, h₂⟩ := h (get s) (hP s hs)
  exact ⟨a, set t s, by simp only [Loop.zoom, h₁], hQ s a t hs h₂⟩

/-! ## What a computation keeps -/

/-- No run of the computation changes what `part` reads of the state, whether it fails or not. -/
def Keeps (part : σ → τ) (f : EStateM ε σ α) : Prop :=
  ∀ s, Ends f s (fun _ s' => part s' = part s) fun _ s' => part s' = part s

namespace Keeps

variable {part : σ → τ} {f : EStateM ε σ α}

/-- A run that succeeds. -/
lemma of_ok {a : α} {s s' : σ} (h : Keeps part f) (hrun : f s = .ok a s') : part s' = part s := by
  have hs := h s
  rwa [Ends, hrun] at hs

/-- A run that fails. -/
lemma of_error {e : ε} {s s' : σ} (h : Keeps part f) (hrun : f s = .error e s') :
    part s' = part s := by
  have hs := h s
  rwa [Ends, hrun] at hs

/-- Returning a value. -/
lemma pure (a : α) : Keeps part (Pure.pure a : EStateM ε σ α) := fun _ => rfl

/-- Failing. -/
lemma throw (e : ε) : Keeps part (MonadExcept.throw e : EStateM ε σ α) := fun _ => rfl

/-- Reading the state. -/
lemma get : Keeps part (MonadState.get : EStateM ε σ σ) := fun _ => rfl

/-- Changing the rest of the state. -/
lemma modify {g : σ → σ} (h : ∀ s, part (g s) = part s) :
    Keeps part (modifyGet fun s => (⟨⟩, g s) : EStateM ε σ PUnit) := h

/-- Sequencing. -/
lemma bind {g : α → EStateM ε σ β} (h : Keeps part f) (hg : ∀ a, Keeps part (g a)) :
    Keeps part (f >>= g) := fun s => by
  unfold Ends
  rw [bind_apply]
  cases hf : f s with
  | ok a s₁ =>
    have hrest := hg a s₁
    unfold Ends at hrest
    dsimp only
    rwa [h.of_ok hf] at hrest
  | error e s₁ => exact h.of_error hf

/-- An alternative. -/
lemma ite {c : Prop} [Decidable c] {g : EStateM ε σ α} (h : Keeps part f) (hg : Keeps part g) :
    Keeps part (if c then f else g) := by
  split_ifs
  · exact h
  · exact hg

/-- A pure check. -/
lemma orThrow (x : Except ε α) : Keeps part (Loop.orThrow x : EStateM ε σ α) := by
  cases x with
  | ok a => exact pure a
  | error e => exact throw e

/-- A loop keeps what its iterations keep. -/
lemma forReturn {body : α → γ → EStateM ε σ (Flow β γ)} (h : ∀ x c, Keeps part (body x c)) :
    ∀ (xs : List α) (c : γ), Keeps part (Loop.forReturn body xs c) := by
  intro xs
  induction xs with
  | nil => exact fun c => pure _
  | cons x xs ih =>
    intro c
    refine (h x c).bind fun flow => ?_
    cases flow with
    | done b => exact pure _
    | next c => exact ih c

/-- A computation on a part of the state keeps what is kept of that part. -/
lemma zoom {get : σ → τ} {set : τ → σ → σ} {f : EStateM ε τ α} {inner : τ → γ} {part : σ → β}
    (h : Keeps inner f) (hset : ∀ s t, inner t = inner (get s) → part (set t s) = part s) :
    Keeps part (Loop.zoom get set f) := by
  intro s
  unfold Ends Loop.zoom
  cases hf : f (get s) with
  | ok a t => exact hset s t (h.of_ok hf)
  | error e t => exact hset s t (h.of_error hf)

end Keeps

/-! ## What a computation does to the state -/

/-- Every run of the computation relates the states before and after it by `R`, whether it fails or
not. -/
def Advances (R : σ → σ → Prop) (f : EStateM ε σ α) : Prop :=
  ∀ s, Ends f s (fun _ => R s) fun _ => R s

namespace Advances

variable {R : σ → σ → Prop} {f : EStateM ε σ α}

/-- A computation that keeps the part of the state that the relation is about. -/
lemma of_keeps {part : σ → τ} (h : Keeps part f) (hR : ∀ s s', part s' = part s → R s s') :
    Advances R f :=
  fun s => (h s).mono (fun _ s' => hR s s') fun _ s' => hR s s'

/-- Sequencing. -/
lemma bind [IsTrans σ R] {g : α → EStateM ε σ β} (h : Advances R f)
    (hg : ∀ a, Advances R (g a)) : Advances R (f >>= g) := by
  intro s
  have hf := h s
  unfold Ends at hf ⊢
  rw [bind_apply]
  cases hrun : f s with
  | ok a s₁ =>
    rw [hrun] at hf
    exact (hg a s₁).mono (fun _ _ => IsTrans.trans _ _ _ hf) fun _ _ => IsTrans.trans _ _ _ hf
  | error e s₁ =>
    rw [hrun] at hf
    exact hf

/-- Returning a value. -/
lemma pure [Std.Refl R] (a : α) : Advances R (Pure.pure a : EStateM ε σ α) :=
  fun s => Std.Refl.refl s

/-- Failing. -/
lemma throw [Std.Refl R] (e : ε) : Advances R (MonadExcept.throw e : EStateM ε σ α) :=
  fun s => Std.Refl.refl s

/-- Reading the state. -/
lemma get [Std.Refl R] : Advances R (MonadState.get : EStateM ε σ σ) := fun s => Std.Refl.refl s

/-- What follows a check may use that the check has passed. -/
lemma rejectIf_bind [Std.Refl R] {c : Prop} [Decidable c] {e : ε} {g : Unit → EStateM ε σ α}
    (h : ¬ c → Advances R (g ())) : Advances R (rejectIf c e >>= g) := by
  unfold rejectIf
  split_ifs with hc
  · exact fun s => Std.Refl.refl s
  · exact h hc

/-- What follows a pure computation may use what it has returned. -/
lemma orThrow_bind [Std.Refl R] {x : Except ε α} {g : α → EStateM ε σ β}
    (h : ∀ a, x = .ok a → Advances R (g a)) : Advances R (orThrow x >>= g) := by
  cases x with
  | ok a => exact h a rfl
  | error e => exact fun s => Std.Refl.refl s

/-- Unwrapping a value. -/
lemma okOr [Std.Refl R] (e : ε) (x : Option α) : Advances R (okOr e x : EStateM ε σ α) := by
  cases x with
  | some a => exact pure a
  | none => exact throw e

end Advances

end Loop

import Mathlib.Logic.Function.Basic
import Mathlib.Tactic.Common

set_option relaxedAutoImplicit false
set_option autoImplicit false

/-!
# Tables of cells that carry a token

A table assigns to every cell nothing or an entry with a token, and is read as a partial map
from tokens to entries. The map is well defined when no two cells carry the same token. Hash
tables that relocate entries change such a table in three ways only: a cell is cleared, a new
token is put into a free cell, or a cell's contents move to a free one.

## Main definitions

* `TokenTable.Holds` — some cell carries the token with the entry.
* `TokenTable.Unique` — no two cells carry the same token.

## Main results

* `TokenTable.holds_clear`, `TokenTable.holds_insert`, `TokenTable.holds_move` — the map after
  each of the three changes, and `TokenTable.Unique.clear`, `TokenTable.Unique.insert`,
  `TokenTable.Unique.move` — each keeps tokens unique.
-/

namespace TokenTable

variable {S T E : Type} {f : S → Option (T × E)}

/-- Some cell carries token `t` with entry `e`. -/
def Holds (f : S → Option (T × E)) (t : T) (e : E) : Prop := ∃ s, f s = some (t, e)

/-- No two cells carry the same token. -/
def Unique (f : S → Option (T × E)) : Prop :=
  ∀ s s' t e e', f s = some (t, e) → f s' = some (t, e') → s = s'

/-- A token has at most one entry. -/
lemma Unique.entry_eq (hu : Unique f) {t : T} {e e' : E} (h : Holds f t e) (h' : Holds f t e') :
    e = e' := by
  obtain ⟨s, hs⟩ := h
  obtain ⟨s', hs'⟩ := h'
  obtain rfl := hu s s' t e e' hs hs'
  rw [hs, Option.some.injEq, Prod.mk.injEq] at hs'
  exact hs'.2

variable [DecidableEq S]

/-- Clearing a cell keeps tokens unique. -/
lemma Unique.clear (hu : Unique f) (s : S) : Unique (Function.update f s none) := by
  intro a b t e e' ha hb
  by_cases has : a = s
  · simp [has] at ha
  by_cases hbs : b = s
  · simp [hbs] at hb
  rw [Function.update_of_ne has] at ha
  rw [Function.update_of_ne hbs] at hb
  exact hu a b t e e' ha hb

/-- Clearing a cell removes its token and no other one. -/
lemma holds_clear (hu : Unique f) {s : S} {t : T} {e : E} (hs : f s = some (t, e)) (t' : T)
    (e' : E) : Holds (Function.update f s none) t' e' ↔ t' ≠ t ∧ Holds f t' e' := by
  constructor
  · rintro ⟨a, ha⟩
    by_cases has : a = s
    · simp [has] at ha
    rw [Function.update_of_ne has] at ha
    refine ⟨?_, a, ha⟩
    rintro rfl
    exact has (hu a s t' e' e ha hs)
  · rintro ⟨hne, a, ha⟩
    refine ⟨a, ?_⟩
    rw [Function.update_of_ne, ha]
    rintro rfl
    rw [hs, Option.some.injEq, Prod.mk.injEq] at ha
    exact hne ha.1.symm

/-- Putting a token that is not in the table into a free cell keeps tokens unique. -/
lemma Unique.insert (hu : Unique f) {s : S} {t : T} (ht : ∀ e, ¬ Holds f t e) (e : E) :
    Unique (Function.update f s (some (t, e))) := by
  intro a b t' e₁ e₂ ha hb
  by_cases has : a = s
  · by_cases hbs : b = s
    · rw [has, hbs]
    · subst has
      rw [Function.update_self, Option.some.injEq, Prod.mk.injEq] at ha
      rw [Function.update_of_ne hbs, ← ha.1] at hb
      exact absurd ⟨b, hb⟩ (ht e₂)
  · rw [Function.update_of_ne has] at ha
    by_cases hbs : b = s
    · subst hbs
      rw [Function.update_self, Option.some.injEq, Prod.mk.injEq] at hb
      rw [← hb.1] at ha
      exact absurd ⟨a, ha⟩ (ht e₁)
    · rw [Function.update_of_ne hbs] at hb
      exact hu a b t' e₁ e₂ ha hb

/-- Putting an entry into a free cell adds it and changes nothing else. -/
lemma holds_insert {s : S} (hs : f s = none) (t : T) (e : E) (t' : T) (e' : E) :
    Holds (Function.update f s (some (t, e))) t' e' ↔ (t' = t ∧ e' = e) ∨ Holds f t' e' := by
  constructor
  · rintro ⟨a, ha⟩
    by_cases has : a = s
    · subst has
      rw [Function.update_self, Option.some.injEq, Prod.mk.injEq] at ha
      exact .inl ⟨ha.1.symm, ha.2.symm⟩
    · rw [Function.update_of_ne has] at ha
      exact .inr ⟨a, ha⟩
  · rintro (⟨rfl, rfl⟩ | ⟨a, ha⟩)
    · exact ⟨s, Function.update_self ..⟩
    · refine ⟨a, ?_⟩
      rw [Function.update_of_ne, ha]
      rintro rfl
      rw [hs] at ha
      cases ha

/-- A move leaves other cells alone. -/
lemma move_of_ne {s u a : S} (v : Option (T × E)) (h : a ≠ s) (h' : a ≠ u) :
    Function.update (Function.update f u v) s none a = f a := by
  rw [Function.update_of_ne h, Function.update_of_ne h']

/-- Moving a cell's contents to a free cell keeps tokens unique. -/
lemma Unique.move (hu : Unique f) {s u : S} {t : T} {e : E} (hs : f s = some (t, e))
    (hne : u ≠ s) :
    Unique (Function.update (Function.update f u (some (t, e))) s none) := by
  rw [Function.update_comm hne]
  refine (hu.clear s).insert (fun e' he' => ?_) e
  exact ((holds_clear hu hs t e').1 he').1 rfl

/-- Moving a cell's contents to a free cell does not change the map. -/
lemma holds_move (hu : Unique f) {s u : S} {t : T} {e : E} (hs : f s = some (t, e))
    (hu' : f u = none) (hne : u ≠ s) (t' : T) (e' : E) :
    Holds (Function.update (Function.update f u (some (t, e))) s none) t' e' ↔
      Holds f t' e' := by
  have hfree : Function.update f s none u = none := by rw [Function.update_of_ne hne, hu']
  rw [Function.update_comm hne, holds_insert hfree, holds_clear hu hs]
  constructor
  · rintro (⟨rfl, rfl⟩ | ⟨-, h⟩)
    · exact ⟨s, hs⟩
    · exact h
  · intro h
    by_cases ht : t' = t
    · subst ht
      exact .inl ⟨rfl, hu.entry_eq h ⟨s, hs⟩⟩
    · exact .inr ⟨ht, h⟩

end TokenTable

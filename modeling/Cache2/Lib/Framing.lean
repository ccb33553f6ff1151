import Mathlib.Algebra.BigOperators.Group.List.Basic
import Cache2.Lib.Bytes

set_option relaxedAutoImplicit false
set_option autoImplicit false

/-!
# Self-delimiting frames

A log is a sequence of items whose encodings stand one after another with nothing between them. If
no encoding is empty and the beginning of a text tells which item it encodes, the items are
determined by the text, and so is the place of each of them.

## Main definitions

* `Framing.SelfDelimiting` — the condition on the encoding of an item.
* `Framing.text` — the encodings of a list of items, one after another.
* `Framing.At` — the item that begins at a position.

## Main results

* `Framing.At.unique` — at most one item begins at a position.
* `Framing.At.slice_text` — the range of the text from the position of an item on is its encoding.
* `Framing.at_append` — the items of two lists, one after the other.
-/

namespace Framing

open Bytes

variable {α β : Type}

/-! ## Definitions -/

/-- No encoding is empty, and a text begins with the encoding of one item at most. -/
structure SelfDelimiting (enc : α → List β) : Prop where
  /-- No encoding is empty. -/
  ne_nil : ∀ a, enc a ≠ []
  /-- The beginning of a text tells the item. -/
  prefix_inj : ∀ {a b : α} {x y : List β}, enc a ++ x = enc b ++ y → a = b

/-- The encodings of the items, one after another. -/
def text (enc : α → List β) (items : List α) : List β := items.flatMap enc

/-- The item begins at the position of the text. -/
def At (enc : α → List β) (items : List α) (offset : ℕ) (item : α) : Prop :=
  ∃ before after, items = before ++ item :: after ∧ (text enc before).length = offset

/-! ## Texts -/

section Text

variable {enc : α → List β} {items more : List α} {item : α}

/-- Nothing is encoded as nothing. -/
@[simp] lemma text_nil : text enc [] = [] := rfl

/-- The first item stands first. -/
@[simp] lemma text_cons : text enc (item :: items) = enc item ++ text enc items := rfl

/-- The text of two lists, one after the other. -/
@[simp] lemma text_append : text enc (items ++ more) = text enc items ++ text enc more :=
  List.flatMap_append

/-- Every encoding has a length of its own. -/
lemma SelfDelimiting.length_pos (henc : SelfDelimiting enc) (a : α) : 0 < (enc a).length :=
  List.length_pos_iff.2 (henc.ne_nil a)

/-- There are at most as many items as the text is long. -/
lemma length_le_length_text (henc : SelfDelimiting enc) :
    items.length ≤ (text enc items).length := by
  induction items with
  | nil => exact Nat.zero_le _
  | cons a items ih =>
    have := henc.length_pos a
    rw [List.length_cons, text_cons, List.length_append]
    omega

end Text

/-! ## Positions -/

section At

variable {enc : α → List β} {items more : List α} {item other : α} {offset : ℕ}

/-- The first item begins at the beginning. -/
lemma at_cons_self : At enc (item :: items) 0 item := ⟨[], items, rfl, rfl⟩

/-- The item at a position is one of the items. -/
lemma At.mem (h : At enc items offset item) : item ∈ items := by
  obtain ⟨before, after, rfl, -⟩ := h
  simp

/-- Every item begins somewhere. -/
lemma exists_at_of_mem (h : item ∈ items) : ∃ offset, At enc items offset item := by
  obtain ⟨before, after, rfl⟩ := List.append_of_mem h
  exact ⟨_, before, after, rfl, rfl⟩

/-- An item ends within the text. -/
lemma At.le_length (h : At enc items offset item) :
    offset + (enc item).length ≤ (text enc items).length := by
  obtain ⟨before, after, rfl, rfl⟩ := h
  simp only [text_append, text_cons, List.length_append]
  omega

/-- From the position of an item on, the text is its encoding and what follows. -/
lemma At.drop_text (h : At enc items offset item) :
    ∃ rest, (text enc items).drop offset = enc item ++ rest := by
  obtain ⟨before, after, rfl, rfl⟩ := h
  exact ⟨text enc after, by rw [text_append, List.drop_left, text_cons]⟩

/-- **Items in their places.** The range of the text from the position of an item on is its
encoding. -/
theorem At.slice_text (h : At enc items offset item) :
    slice (text enc items) offset (enc item).length = enc item := by
  obtain ⟨rest, hrest⟩ := h.drop_text
  rw [slice, hrest, List.take_left]

/-- **Positions.** At most one item begins at a position. -/
theorem At.unique (henc : SelfDelimiting enc) (h : At enc items offset item)
    (h' : At enc items offset other) : item = other := by
  obtain ⟨rest, hrest⟩ := h.drop_text
  obtain ⟨rest', hrest'⟩ := h'.drop_text
  exact henc.prefix_inj (hrest.symm.trans hrest')

/-- The items after the first one. -/
lemma at_cons :
    At enc (other :: items) offset item ↔ offset = 0 ∧ item = other ∨
      (enc other).length ≤ offset ∧ At enc items (offset - (enc other).length) item := by
  constructor
  · rintro ⟨before, after, hitems, rfl⟩
    cases before with
    | nil =>
      obtain ⟨rfl, rfl⟩ := List.cons.inj hitems
      exact .inl ⟨rfl, rfl⟩
    | cons first before =>
      obtain ⟨rfl, rfl⟩ := List.cons.inj hitems
      refine .inr ⟨?_, before, after, rfl, ?_⟩
      · simp only [text_cons, List.length_append]
        omega
      · simp only [text_cons, List.length_append]
        omega
  · rintro (⟨rfl, rfl⟩ | ⟨hle, before, after, rfl, hlen⟩)
    · exact at_cons_self
    · refine ⟨other :: before, after, rfl, ?_⟩
      simp only [text_cons, List.length_append]
      omega

/-- **Two lists.** The items of two lists, one after the other, are those of the first, and behind
them those of the second. -/
theorem at_append :
    At enc (items ++ more) offset item ↔ At enc items offset item ∨
      (text enc items).length ≤ offset ∧
        At enc more (offset - (text enc items).length) item := by
  constructor
  · rintro ⟨before, after, hitems, rfl⟩
    rcases List.append_eq_append_iff.1 hitems with ⟨mid, rfl, hmore⟩ | ⟨mid, rfl, hmid⟩
    · refine .inr ⟨?_, mid, after, hmore, ?_⟩
      · simp only [text_append, List.length_append]
        omega
      · simp only [text_append, List.length_append]
        omega
    · rcases List.cons_eq_append_iff.1 hmid with ⟨rfl, rfl⟩ | ⟨mid', rfl, hafter⟩
      · refine .inr ⟨by simp, [], after, rfl, ?_⟩
        simp
      · exact .inl ⟨before, mid', rfl, rfl⟩
  · rintro (⟨before, after, rfl, rfl⟩ | ⟨hle, before, after, rfl, hlen⟩)
    · exact ⟨before, after ++ more, by simp, rfl⟩
    · refine ⟨items ++ before, after, by simp, ?_⟩
      simp only [text_append, List.length_append]
      omega

/-- The items of a list remain where they are when others follow. -/
lemma At.append_right (h : At enc items offset item) : At enc (items ++ more) offset item :=
  at_append.2 (.inl h)

/-- The first of the items that follow a list begins where the list ends. -/
lemma at_append_self : At enc (items ++ item :: more) (text enc items).length item :=
  ⟨items, more, rfl, rfl⟩

/-- Two items of a text do not overlap. -/
lemma At.disjoint {o : ℕ} (h : At enc items offset item)
    (h' : At enc items o other) (hlt : offset < o) : offset + (enc item).length ≤ o := by
  induction items generalizing offset o with
  | nil => exact absurd h.mem List.not_mem_nil
  | cons first items ih =>
    rcases at_cons.1 h with ⟨rfl, rfl⟩ | ⟨hle, hat⟩
    · rcases at_cons.1 h' with ⟨rfl, -⟩ | ⟨hle', -⟩
      · omega
      · omega
    · rcases at_cons.1 h' with ⟨rfl, -⟩ | ⟨hle', hat'⟩
      · omega
      · have := ih hat hat' (by omega)
        omega

end At

end Framing

import Mathlib.Data.List.Infix

/-!
# Patterns with wildcards

The patterns of `LIKE`.  In a pattern one character stands for any text, one for any
single character, and a third one, the escape, makes the character after it stand for
itself.  `parse` reads a pattern, `accepts` compares a text with what was read.

`quote` puts the escape before every character that has a meaning.  What is read back
from a quoted text are its own characters (`parse_quote_append`), so a pattern built
around a quoted text asks for that text and nothing else.
-/

namespace ProdkitStorage.Foundation

/-- The characters with a meaning in a pattern. -/
structure Wildcards (α : Type) where
  many : α
  one : α
  escape : α
  many_ne_one : many ≠ one
  many_ne_escape : many ≠ escape
  one_ne_escape : one ≠ escape

/-- What a pattern asks for, piece by piece. -/
inductive Piece (α : Type) where
  /-- Any text. -/
  | many
  /-- Any single character. -/
  | one
  | literal (a : α)
deriving DecidableEq, Repr

namespace Wildcards

variable {α : Type} [DecidableEq α]

/-- Read a pattern.  A pattern must not end with the escape. -/
def parse (w : Wildcards α) : List α → Option (List (Piece α))
  | [] => some []
  | [a] =>
      if a = w.escape then none
      else some [if a = w.many then .many else if a = w.one then .one else .literal a]
  | a :: b :: rest =>
      if a = w.escape then (w.parse rest).map (.literal b :: ·)
      else (w.parse (b :: rest)).map
        ((if a = w.many then .many else if a = w.one then .one else .literal a) :: ·)

/-- The text is one the pattern asks for. -/
def accepts : List (Piece α) → List α → Bool
  | [], text => text.isEmpty
  | .many :: pieces, text => text.tails.any (accepts pieces)
  | .one :: _, [] => false
  | .one :: pieces, _ :: text => accepts pieces text
  | .literal _ :: _, [] => false
  | .literal a :: pieces, b :: text => a == b && accepts pieces text

/-- A text in which every character stands for itself. -/
def quote (w : Wildcards α) (text : List α) : List α :=
  text.flatMap fun a => if a = w.escape ∨ a = w.many ∨ a = w.one then [w.escape, a] else [a]

/-! ## Reading -/

@[simp] theorem parse_nil (w : Wildcards α) : w.parse [] = some [] := rfl

theorem parse_escape (w : Wildcards α) (a : α) (rest : List α) :
    w.parse (w.escape :: a :: rest) = (w.parse rest).map (.literal a :: ·) := by
  simp [parse]

/-- Away from the escape a pattern is read one character at a time. -/
theorem parse_cons (w : Wildcards α) {a : α} (ha : a ≠ w.escape) (rest : List α) :
    w.parse (a :: rest) = (w.parse rest).map
      ((if a = w.many then .many else if a = w.one then .one else .literal a) :: ·) := by
  cases rest with
  | nil => simp [parse, ha]
  | cons b rest => simp [parse, ha]

theorem parse_many (w : Wildcards α) (rest : List α) :
    w.parse (w.many :: rest) = (w.parse rest).map (.many :: ·) := by
  simp [parse_cons w w.many_ne_escape]

/-- A quoted text is read as its own characters, whatever follows. -/
theorem parse_quote_append (w : Wildcards α) (text rest : List α) :
    w.parse (w.quote text ++ rest) = (w.parse rest).map (text.map .literal ++ ·) := by
  induction text with
  | nil => simp [quote]
  | cons a text ih =>
      have hcons : w.quote (a :: text) = w.quote [a] ++ w.quote text := by
        simp [quote]
      rw [hcons, List.append_assoc]
      by_cases ha : a = w.escape ∨ a = w.many ∨ a = w.one
      · simp [quote, ha]
        rw [parse_escape, ← quote, ih]
        simp [Function.comp_def]
      · simp [quote, ha]
        simp only [not_or] at ha
        rw [parse_cons w ha.1, ← quote, ih]
        simp [ha.2.1, ha.2.2, Function.comp_def]

/-! ## Comparing -/

theorem accepts_many {pieces : List (Piece α)} {text : List α} :
    accepts (.many :: pieces) text = true ↔
      ∃ before rest, text = before ++ rest ∧ accepts pieces rest = true := by
  simp only [accepts, List.any_eq_true, List.mem_tails]
  constructor
  · rintro ⟨rest, ⟨before, hbefore⟩, haccepts⟩
    exact ⟨before, rest, hbefore.symm, haccepts⟩
  · rintro ⟨before, rest, hbefore, haccepts⟩
    exact ⟨rest, ⟨before, hbefore.symm⟩, haccepts⟩

theorem accepts_literals_append {cs : List α} {pieces : List (Piece α)} {text : List α} :
    accepts (cs.map .literal ++ pieces) text = true ↔
      ∃ rest, text = cs ++ rest ∧ accepts pieces rest = true := by
  induction cs generalizing text with
  | nil => simp
  | cons c cs ih =>
      cases text with
      | nil => simp [accepts]
      | cons b text =>
          simp only [List.map_cons, List.cons_append, accepts, Bool.and_eq_true, beq_iff_eq, ih,
            List.cons.injEq]
          constructor
          · rintro ⟨rfl, rest, htext, haccepts⟩
            exact ⟨rest, ⟨rfl, htext⟩, haccepts⟩
          · rintro ⟨rest, ⟨rfl, htext⟩, haccepts⟩
            exact ⟨rfl, rest, htext, haccepts⟩

theorem accepts_literals {cs text : List α} :
    accepts (cs.map .literal) text = true ↔ text = cs := by
  have h : accepts (cs.map .literal ++ []) text = true ↔
      ∃ rest, text = cs ++ rest ∧ accepts [] rest = true := accepts_literals_append
  simpa [accepts] using h

/-! ## Patterns around a quoted text -/

/-- The pattern is well formed and asks for the text. -/
def Matches (w : Wildcards α) (pattern text : List α) : Prop :=
  ∃ pieces, w.parse pattern = some pieces ∧ accepts pieces text = true

instance (w : Wildcards α) (pattern text : List α) : Decidable (w.Matches pattern text) :=
  match h : w.parse pattern with
  | none => isFalse (by simp [Matches, h])
  | some pieces =>
      if haccepts : accepts pieces text = true then isTrue ⟨pieces, h, haccepts⟩
      else isFalse (by simp [Matches, h, haccepts])

theorem matches_around {w : Wildcards α} {text value : List α} :
    w.Matches (w.many :: (w.quote value ++ [w.many])) text ↔ value <:+: text := by
  have hparse : w.parse (w.many :: (w.quote value ++ [w.many])) =
      some (.many :: (value.map .literal ++ [.many])) := by
    rw [parse_many, parse_quote_append, parse_many]
    simp
  simp only [Matches, hparse, Option.some.injEq, exists_eq_left', accepts_many,
    accepts_literals_append]
  constructor
  · rintro ⟨before, _, rfl, rest, rfl, -⟩
    exact ⟨before, rest, List.append_assoc before value rest⟩
  · rintro ⟨before, rest, rfl⟩
    exact ⟨before, value ++ rest, List.append_assoc before value rest, rest, rfl, rest, [],
      (List.append_nil rest).symm, rfl⟩

theorem matches_before {w : Wildcards α} {text value : List α} :
    w.Matches (w.quote value ++ [w.many]) text ↔ value <+: text := by
  have hparse : w.parse (w.quote value ++ [w.many]) = some (value.map .literal ++ [.many]) := by
    rw [parse_quote_append, parse_many]
    simp
  simp only [Matches, hparse, Option.some.injEq, exists_eq_left', accepts_literals_append,
    accepts_many]
  constructor
  · rintro ⟨rest, rfl, -⟩
    exact ⟨rest, rfl⟩
  · rintro ⟨rest, rfl⟩
    exact ⟨rest, rfl, rest, [], (List.append_nil rest).symm, rfl⟩

theorem matches_after {w : Wildcards α} {text value : List α} :
    w.Matches (w.many :: w.quote value) text ↔ value <:+ text := by
  have hparse : w.parse (w.many :: w.quote value) = some (.many :: value.map .literal) := by
    rw [parse_many, ← List.append_nil (w.quote value), parse_quote_append]
    simp
  simp only [Matches, hparse, Option.some.injEq, exists_eq_left', accepts_many, accepts_literals]
  constructor
  · rintro ⟨before, _, rfl, rfl⟩
    exact ⟨before, rfl⟩
  · rintro ⟨before, rfl⟩
    exact ⟨before, value, rfl, rfl⟩

end Wildcards
end ProdkitStorage.Foundation

import Mathlib.Data.List.Basic
import ProdkitStorage.Foundation.Truth

/-!
# Row-level security

The statements of a role that is subject to the one policy of a table.  `USING`
hides every row for which it is not true.  `WITH CHECK` rejects a statement that
would write a row for which it is not true, and then nothing is written.
-/

namespace ProdkitStorage.Foundation

/-- A policy for all commands. -/
structure RowPolicy (Row : Type) where
  using_ : Row → Truth
  withCheck : Row → Truth

/-- A statement on the table.  A `WHERE` clause is the set of rows for which it is true. -/
inductive Statement (Row : Type) where
  | select (where_ : Row → Bool)
  | insert (rows : List Row)
  | update (where_ : Row → Bool) (set : Row → Row)
  | delete (where_ : Row → Bool)

/-- What a statement touched: the rows it read, changed or removed, as they were, and the rows
it wrote. -/
structure Access (Row : Type) where
  read : List Row
  written : List Row

variable {Row : Type}

/-- The rows a statement sees. -/
def RowPolicy.visible (policy : RowPolicy Row) (row : Row) : Bool := policy.using_ row == .true

/-- The rows a statement may write. -/
def RowPolicy.permits (policy : RowPolicy Row) (row : Row) : Bool := policy.withCheck row == .true

/-- Run a statement on the rows of its snapshot: what it touched and the rows after it, or
`none` when the policy rejects it. -/
def Statement.run (policy : RowPolicy Row) (rows : List Row) :
    Statement Row → Option (Access Row × List Row)
  | .select where_ =>
      some (⟨rows.filter fun row => policy.visible row && where_ row, []⟩, rows)
  | .insert new => if new.all policy.permits then some (⟨[], new⟩, rows ++ new) else none
  | .update where_ set =>
      let target := fun row => policy.visible row && where_ row
      let new := (rows.filter target).map set
      if new.all policy.permits then
        some (⟨rows.filter target, new⟩, rows.map fun row => if target row then set row else row)
      else none
  | .delete where_ =>
      let target := fun row => policy.visible row && where_ row
      some (⟨rows.filter target, []⟩, rows.filter fun row => !target row)

/-- A statement touches no row the policy does not admit. -/
theorem Statement.run_confined {policy : RowPolicy Row} {rows after : List Row}
    {statement : Statement Row} {access : Access Row}
    (h : statement.run policy rows = some (access, after)) :
    (∀ row ∈ access.read, policy.using_ row = .true) ∧
      ∀ row ∈ access.written, policy.withCheck row = .true := by
  have hvisible : ∀ (where_ : Row → Bool) (row : Row),
      row ∈ rows.filter (fun row => policy.visible row && where_ row) →
        policy.using_ row = .true := by
    intro where_ row hrow
    have hkept := (List.mem_filter.mp hrow).2
    simp only [Bool.and_eq_true] at hkept
    exact eq_of_beq hkept.1
  have hpermitted : ∀ new : List Row, new.all policy.permits = Bool.true →
      ∀ row ∈ new, policy.withCheck row = .true :=
    fun new hnew row hrow => eq_of_beq (List.all_eq_true.mp hnew row hrow)
  cases statement with
  | select where_ =>
      simp only [run, Option.some.injEq, Prod.mk.injEq] at h
      obtain ⟨rfl, -⟩ := h
      exact ⟨hvisible where_, by simp⟩
  | insert new =>
      simp only [run] at h
      split at h
      · rename_i hnew
        simp only [Option.some.injEq, Prod.mk.injEq] at h
        obtain ⟨rfl, -⟩ := h
        exact ⟨by simp, hpermitted new hnew⟩
      · cases h
  | update where_ set =>
      simp only [run] at h
      split at h
      · rename_i hnew
        simp only [Option.some.injEq, Prod.mk.injEq] at h
        obtain ⟨rfl, -⟩ := h
        exact ⟨hvisible where_, hpermitted _ hnew⟩
      · cases h
  | delete where_ =>
      simp only [run, Option.some.injEq, Prod.mk.injEq] at h
      obtain ⟨rfl, -⟩ := h
      exact ⟨hvisible where_, by simp⟩

end ProdkitStorage.Foundation

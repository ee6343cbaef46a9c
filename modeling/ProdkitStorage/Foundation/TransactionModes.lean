import Mathlib.Logic.Basic

/-!
# Transaction modes

The modes of a transaction with savepoints on a database server.  A transaction begins in the
default mode of its server session, and a savepoint in the mode around it.  `SET TRANSACTION` may
make a level read-only at any time.  It may make one that is read-only write again only before the
first query and outside every savepoint.  A statement that fails leaves its level failed until it
is rolled back, and the end of a savepoint, in either way, brings the mode around it back.

`Uniform`: every level has the same mode.  `Keeps`: the command leaves it so, whatever the order.
-/

namespace ProdkitStorage.Foundation.TransactionModes

/-- An open transaction.  Modes are `true` for read-only. -/
structure OpenTransaction where
  /-- The mode of the innermost level. -/
  mode : Bool
  /-- The modes of the levels around it, the innermost first. -/
  outer : List Bool := []
  /-- A query has taken a snapshot. -/
  queried : Bool := false
  /-- A statement of the innermost level has failed. -/
  failed : Bool := false
deriving DecidableEq, Repr

/-- What is sent to the server inside a transaction. -/
inductive Command where
  | setReadOnly
  | setReadWrite
  | query
  | write
  /-- A statement that fails on its own account, with or without a snapshot. -/
  | failure (snapshot : Bool)
  | savepoint
  /-- The release of the savepoint inside which there are this many others. -/
  | release (inside : Nat)
  | rollbackTo (inside : Nat)
deriving DecidableEq, Repr

/-- The one command that a failed level takes. -/
def Command.recovers : Command → Bool
  | .rollbackTo _ => true
  | _ => false

namespace OpenTransaction

/-- The command is refused. -/
def refuse (t : OpenTransaction) : OpenTransaction × Bool := ({ t with failed := true }, false)

/-- A savepoint that exists, taken off with the ones inside it. -/
def around (t : OpenTransaction) (inside : Nat) : Option (Bool × List Bool) :=
  match (t.mode :: t.outer).drop inside with
  | _ :: mode :: outer => some (mode, outer)
  | _ => none

/-- One command, and whether it succeeds.  The level that is rolled back to begins again. -/
def execute (t : OpenTransaction) (command : Command) : OpenTransaction × Bool :=
  if t.failed && !command.recovers then (t, false)
  else match command with
    | .setReadOnly => ({ t with mode := true }, true)
    | .setReadWrite =>
        if t.mode && (t.queried || !t.outer.isEmpty) then t.refuse
        else ({ t with mode := false }, true)
    | .query => ({ t with queried := true }, true)
    | .write =>
        if t.mode then { t with queried := true }.refuse else ({ t with queried := true }, true)
    | .failure snapshot => { t with queried := t.queried || snapshot }.refuse
    | .savepoint => ({ t with outer := t.mode :: t.outer }, true)
    | .release inside =>
        match t.around inside with
        | some (mode, outer) => ({ t with mode, outer }, true)
        | none => t.refuse
    | .rollbackTo inside =>
        match t.around inside with
        | some (mode, outer) => ({ t with mode, outer := mode :: outer, failed := false }, true)
        | none => t.refuse

/-! ## The modes of all levels -/

/-- Every level of the transaction has the mode. -/
def Uniform (mode : Bool) (t : OpenTransaction) : Prop := t.mode = mode ∧ ∀ m ∈ t.outer, m = mode

/-- The command takes no level out of the mode. -/
def Keeps (mode : Bool) (t : OpenTransaction) : Command → Prop
  | .setReadOnly => mode = true ∨ t.failed = true
  | .setReadWrite => mode = true → t.failed = true ∨ t.queried = true ∨ t.outer ≠ []
  | _ => True

variable {t : OpenTransaction} {mode : Bool}

theorem Uniform.around (h : t.Uniform mode) {inside : Nat} {m : Bool} {outer : List Bool}
    (haround : t.around inside = some (m, outer)) : m = mode ∧ ∀ m' ∈ outer, m' = mode := by
  have hall : ∀ m' ∈ t.mode :: t.outer, m' = mode := List.forall_mem_cons.mpr h
  unfold OpenTransaction.around at haround
  split at haround
  · next level m' outer' hdrop =>
      obtain ⟨rfl, rfl⟩ := Prod.mk.inj (Option.some.inj haround)
      have hmem : ∀ m'' ∈ m' :: outer', m'' = mode := fun m'' hm'' =>
        hall m'' (List.mem_of_mem_drop (hdrop ▸ List.mem_cons_of_mem level hm''))
      exact List.forall_mem_cons.mp hmem
  · cases haround

/-- What keeps the mode at each command keeps it. -/
theorem Uniform.execute (h : t.Uniform mode) (command : Command)
    (hkeeps : t.Keeps mode command) : (t.execute command).1.Uniform mode := by
  unfold OpenTransaction.execute
  split
  · exact h
  next hlive =>
  simp only [Bool.and_eq_true, Bool.not_eq_true'] at hlive
  cases command with
  | setReadOnly =>
      have hmode : mode = true := hkeeps.resolve_right fun hfailed => hlive ⟨hfailed, rfl⟩
      exact ⟨hmode.symm, h.2⟩
  | setReadWrite =>
      dsimp only
      cases mode with
      | false =>
          rw [h.1, Bool.false_and, if_neg Bool.false_ne_true]
          exact ⟨rfl, h.2⟩
      | true =>
          have hpinned : (t.mode && (t.queried || !t.outer.isEmpty)) = true := by
            rcases (hkeeps rfl).resolve_left fun hfailed => hlive ⟨hfailed, rfl⟩ with h' | h'
            · simp [h.1, h']
            · simp [h.1, h']
          rw [if_pos hpinned]
          exact h
  | query => exact h
  | write =>
      dsimp only
      split
      · exact h
      · exact h
  | failure snapshot => exact h
  | savepoint => exact ⟨h.1, List.forall_mem_cons.mpr h⟩
  | release inside =>
      dsimp only
      split
      · next m outer haround => exact h.around haround
      · exact h
  | rollbackTo inside =>
      dsimp only
      split
      · next m outer haround =>
          obtain ⟨rfl, houter⟩ := h.around haround
          exact ⟨rfl, List.forall_mem_cons.mpr ⟨rfl, houter⟩⟩
      · exact h

/-- A snapshot is kept to the end of the transaction. -/
theorem queried_execute (h : t.queried = true) (command : Command) :
    (t.execute command).1.queried = true := by
  unfold OpenTransaction.execute
  split
  · exact h
  cases command with
  | setReadOnly => exact h
  | setReadWrite =>
      dsimp only
      split
      · exact h
      · exact h
  | query => rfl
  | write =>
      dsimp only
      split
      · rfl
      · rfl
  | failure snapshot => exact Bool.or_eq_true_iff.mpr (.inl h)
  | savepoint => exact h
  | release inside =>
      dsimp only
      split
      · exact h
      · exact h
  | rollbackTo inside =>
      dsimp only
      split
      · exact h
      · exact h

/-- A write goes through exactly in a level that neither failed nor is read-only. -/
theorem execute_write (t : OpenTransaction) :
    (t.execute .write).2 = (!t.failed && !t.mode) := by
  cases hfailed : t.failed with
  | true => simp [OpenTransaction.execute, hfailed, Command.recovers]
  | false =>
      cases hmode : t.mode with
      | true => simp [OpenTransaction.execute, hfailed, hmode, refuse]
      | false => simp [OpenTransaction.execute, hfailed, hmode]

end OpenTransaction

end ProdkitStorage.Foundation.TransactionModes

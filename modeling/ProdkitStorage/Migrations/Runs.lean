import ProdkitStorage.Foundation.Behaviour
import ProdkitStorage.Migrations.Safety

/-!
# Running a body

The runs of a body built from `if`, `for`, `while`, `try` and `with` statements and calls of
operations (`plainBlock`).  Which branch is taken, how often a loop goes round and whether a
handler matches is left open, and anything may raise.

`certain` says that a table is created on every way through a statement, and `covered` that a
call in it is only come to after that.  Both are exact for the runs (`certain_iff`,
`covered_iff`).
-/

namespace ProdkitStorage.Migrations

open Foundation Foundation.Behaviour

/-! ## Plain bodies -/

/-- No call among these is an `op.create_table`. -/
def quiet (calls : List Call) : Bool := calls.all fun call => opMethod call != some "create_table"

mutual
/-- A call of an operation, or a compound statement of such.  Tables are created by statements
only, not in headers and arguments. -/
def Stmt.plain : Stmt → Bool
  | .expr (.call call) => (opMethod call).isSome && quiet call.inner
  | .with_ false items body => quiet (itemCalls items) && plainSuite body
  | .if_ test body orelse => quiet test.calls && plainSuite body && plainBlock orelse
  | .for_ false target iter body orelse =>
      quiet (target.calls ++ iter.calls) && plainSuite body && plainBlock orelse
  | .while_ test body orelse => quiet test.calls && plainSuite body && plainBlock orelse
  | .try_ false body handlers orelse finalbody =>
      plainSuite body && plainHandlers handlers && plainBlock orelse && plainBlock finalbody
  | _ => false

def plainBlock : List Stmt → Bool
  | [] => true
  | statement :: statements => statement.plain && plainBlock statements

/-- A suite has a statement. -/
def plainSuite : List Stmt → Bool
  | [] => false
  | statement :: statements => statement.plain && plainBlock statements

def plainHandlers : List Handler → Bool
  | [] => true
  | ⟨type, body⟩ :: handlers =>
      quiet (exprCalls type.toList) && plainSuite body && plainHandlers handlers
end

/-! ## Runs -/

/-- A call that was executed, and how that ended. -/
structure Event where
  call : Call
  exit : Exit

/-- The call is executed. -/
def performs (call : Call) : Behaviour Event := fun trace exit => trace = [⟨call, exit⟩]

/-- What comes first may raise: a test, an iterable, a context manager, an argument. -/
def headed (R : Behaviour Event) : Behaviour Event := Either Fails R

/-- An exception leaves a context manager, if it is not ended there. -/
def unwinds (swallowed : Bool) : Behaviour Event := if swallowed then Either Fails Done else Fails

-- `swallows` says which context managers may end an exception
variable (swallows : Expr → Bool)

mutual
def Stmt.runs : Stmt → Behaviour Event
  | .expr (.call call) => headed (performs call)
  | .with_ _ items body =>
      headed (OnExit (blockRuns body) (headed Done)
        (unwinds (items.any fun item => swallows item.contextExpr)))
  | .if_ _ body orelse => headed (Either (blockRuns body) (blockRuns orelse))
  | .for_ _ _ _ body orelse => Then (Loop (blockRuns body)) (blockRuns orelse)
  | .while_ _ body orelse => Then (Loop (blockRuns body)) (blockRuns orelse)
  | .try_ _ body handlers orelse finalbody =>
      OnExit (OnExit (blockRuns body) (blockRuns orelse) (handlerRuns handlers))
        (blockRuns finalbody) (Then (blockRuns finalbody) Fails)
  | _ => fun _ _ => False

def blockRuns : List Stmt → Behaviour Event
  | [] => Done
  | statement :: statements => Then statement.runs (blockRuns statements)

/-- The handlers are tried in order.  One without a type matches. -/
def handlerRuns : List Handler → Behaviour Event
  | [] => Fails
  | ⟨none, body⟩ :: _ => blockRuns body
  | ⟨some _, body⟩ :: handlers => headed (Either (blockRuns body) (handlerRuns handlers))
end

/-! ## What is certain -/

section Analysis

variable (creates here : Call → Bool)

mutual
/-- Whoever comes to the end of the statement has created the table. -/
def Stmt.certain : Stmt → Bool
  | .expr (.call call) => creates call
  | .with_ _ items body => !(items.any fun item => swallows item.contextExpr) && blockCertain body
  | .if_ _ body orelse => blockCertain body && blockCertain orelse
  | .for_ _ _ _ _ orelse => blockCertain orelse
  | .while_ _ _ orelse => blockCertain orelse
  | .try_ _ body handlers orelse finalbody =>
      ((blockCertain body || blockCertain orelse) && handlersCertain handlers) ||
        blockCertain finalbody
  | _ => true

def blockCertain : List Stmt → Bool
  | [] => false
  | statement :: statements => statement.certain || blockCertain statements

def handlersCertain : List Handler → Bool
  | [] => true
  | ⟨none, body⟩ :: _ => blockCertain body
  | ⟨some _, body⟩ :: handlers => blockCertain body && handlersCertain handlers
end

mutual
/-- Whoever comes to the call has created the table. -/
def Stmt.covered : Stmt → Bool → Bool
  | .expr (.call call), known => !here call || known
  | .with_ _ _ body, known => blockCovered body known
  | .if_ _ body orelse, known => blockCovered body known && blockCovered orelse known
  | .for_ _ _ _ body orelse, known => blockCovered body known && blockCovered orelse known
  | .while_ _ body orelse, known => blockCovered body known && blockCovered orelse known
  | .try_ _ body handlers orelse finalbody, known =>
      blockCovered body known && handlersCovered handlers known &&
        blockCovered orelse (known || blockCertain swallows creates body) &&
        blockCovered finalbody known
  | _, _ => true

def blockCovered : List Stmt → Bool → Bool
  | [], _ => true
  | statement :: statements, known =>
      statement.covered known &&
        blockCovered statements (known || statement.certain swallows creates)

def handlersCovered : List Handler → Bool → Bool
  | [], _ => true
  | ⟨none, body⟩ :: _, known => blockCovered body known
  | ⟨some _, body⟩ :: handlers, known => blockCovered body known && handlersCovered handlers known
end

/-- The table was created. -/
def Event.Made (event : Event) : Prop := event.exit = .normal ∧ creates event.call = true

/-- The run comes to the call. -/
def Event.Comes (event : Event) : Prop := here event.call = true

/-! ## The rules for the pieces -/

variable {swallows creates here}

theorem surely_headed_normal {P : Event → Prop} {R : Behaviour Event} :
    (headed R).Surely P .normal ↔ R.Surely P .normal := by
  simp [headed]

theorem surely_headed_raised {P : Event → Prop} {R : Behaviour Event} :
    ¬(headed R).Surely P .raised := by
  simp [headed]

theorem precedes_headed {P Q : Event → Prop} {known : Prop} {R : Behaviour Event} :
    (headed R).Precedes P Q known ↔ R.Precedes P Q known := by
  simp [headed]

theorem surely_performs {call : Call} :
    (performs call).Surely (Event.Made creates) .normal ↔ creates call = true := by
  simp [Surely, performs, Event.Made]

theorem precedes_performs {call : Call} {known : Prop} :
    (performs call).Precedes (Event.Made creates) (Event.Comes here) known ↔
      (here call = true → known) := by
  constructor
  · intro h
    exact (h [⟨call, .normal⟩] .normal rfl).1
  · rintro h _ exit rfl
    exact ⟨h, trivial⟩

theorem surely_unwinds_normal {P : Event → Prop} {swallowed : Bool} :
    (unwinds swallowed).Surely P .normal ↔ swallowed = false := by
  cases swallowed <;> simp [unwinds]

theorem surely_unwinds_raised {P : Event → Prop} {swallowed : Bool} :
    ¬(unwinds swallowed).Surely P .raised := by
  cases swallowed <;> simp [unwinds]

theorem precedes_unwinds {P Q : Event → Prop} {known : Prop} {swallowed : Bool} :
    (unwinds swallowed).Precedes P Q known := by
  cases swallowed <;> simp [unwinds]

/-! ## Any suite may raise before it does anything that matters -/

mutual
theorem not_surely_raised {P : Event → Prop} : ∀ {statement : Stmt}, statement.plain = true →
    ¬(statement.runs swallows).Surely P .raised
  | .expr (.call _), _ => surely_headed_raised
  | .with_ false _ _, _ => surely_headed_raised
  | .if_ _ _ _, _ => surely_headed_raised
  | .for_ false _ _ _ _, _ => by simp [Stmt.runs]
  | .while_ _ _ _, _ => by simp [Stmt.runs]
  | .try_ false body handlers orelse finalbody, h => by
      simp only [Stmt.plain, Bool.and_eq_true] at h
      obtain ⟨⟨⟨hbody, hhandlers⟩, -⟩, hfinal⟩ := h
      have hraise : ¬(blockRuns swallows body).Surely P .raised := not_surely_raised_suite hbody
      have hpass : ¬(handlerRuns swallows handlers).Surely P .raised :=
        not_surely_raised_handlers hhandlers
      have hend : ¬((blockRuns swallows finalbody).Surely P .normal ∧
          (blockRuns swallows finalbody).Surely P .raised) := not_surely_both hfinal
      simp only [Stmt.runs, surely_onExit, surely_then_raised, surely_fails_raised, or_false]
      tauto

theorem not_surely_raised_suite {P : Event → Prop} : ∀ {statements : List Stmt},
    plainSuite statements = true → ¬(blockRuns swallows statements).Surely P .raised
  | statement :: statements, h => by
      simp only [plainSuite, Bool.and_eq_true] at h
      have hfirst : ¬(statement.runs swallows).Surely P .raised := not_surely_raised h.1
      simp [blockRuns, hfirst]

/-- One end or the other can be come to with nothing done. -/
theorem not_surely_both {P : Event → Prop} : ∀ {statements : List Stmt},
    plainBlock statements = true → ¬((blockRuns swallows statements).Surely P .normal ∧
      (blockRuns swallows statements).Surely P .raised)
  | [], _ => by simp [blockRuns]
  | statement :: statements, h => by
      simp only [plainBlock, Bool.and_eq_true] at h
      have hfirst : ¬(statement.runs swallows).Surely P .raised := not_surely_raised h.1
      simp [blockRuns, hfirst]

theorem not_surely_raised_handlers {P : Event → Prop} : ∀ {handlers : List Handler},
    plainHandlers handlers = true → ¬(handlerRuns swallows handlers).Surely P .raised
  | [], _ => surely_fails_raised
  | ⟨none, body⟩ :: _, h => by
      simp only [plainHandlers, Bool.and_eq_true] at h
      exact not_surely_raised_suite h.1.2
  | ⟨some _, _⟩ :: _, _ => surely_headed_raised
end

theorem plainBlock_of_suite : ∀ {statements : List Stmt}, plainSuite statements = true →
    plainBlock statements = true
  | _ :: _, h => h

theorem possible_block : ∀ {statements : List Stmt}, plainBlock statements = true →
    (blockRuns swallows statements).Possible
  | [], _ => possible_done
  | _ :: _, h => .of_not_surely (not_surely_raised_suite (P := fun _ => False) h)

theorem possible_handlers {handlers : List Handler} (h : plainHandlers handlers = true) :
    (handlerRuns swallows handlers).Possible :=
  .of_not_surely (not_surely_raised_handlers (P := fun _ => False) h)

/-! ## The analysis is exact -/

mutual
theorem certain_iff : ∀ {statement : Stmt}, statement.plain = true →
    ((statement.runs swallows).Surely (Event.Made creates) .normal ↔
      statement.certain swallows creates = true)
  | .expr (.call _), _ => surely_headed_normal.trans surely_performs
  | .with_ false items body, h => by
      simp only [Stmt.plain, Bool.and_eq_true] at h
      have hraise : ¬(blockRuns swallows body).Surely (Event.Made creates) .raised :=
        not_surely_raised_suite h.2
      have hbody := blockCertain_iff (plainBlock_of_suite h.2)
      simp only [Stmt.runs, surely_headed_normal, surely_onExit, surely_done_normal,
        surely_unwinds_normal, hraise, hbody, Stmt.certain, or_false, false_or, Bool.and_eq_true,
        Bool.not_eq_true']
      exact and_comm
  | .if_ test body orelse, h => by
      simp only [Stmt.plain, Bool.and_eq_true] at h
      have hbody := blockCertain_iff (plainBlock_of_suite h.1.2)
      have helse := blockCertain_iff h.2
      simp only [Stmt.runs, surely_headed_normal, surely_either, hbody, helse, Stmt.certain,
        Bool.and_eq_true]
  | .for_ false target iter body orelse, h => by
      simp only [Stmt.plain, Bool.and_eq_true] at h
      have helse := blockCertain_iff h.2
      simp [Stmt.runs, Stmt.certain, helse]
  | .while_ test body orelse, h => by
      simp only [Stmt.plain, Bool.and_eq_true] at h
      have helse := blockCertain_iff h.2
      simp [Stmt.runs, Stmt.certain, helse]
  | .try_ false body handlers orelse finalbody, h => by
      simp only [Stmt.plain, Bool.and_eq_true] at h
      obtain ⟨⟨⟨hbody, hhandlers⟩, helse⟩, hfinal⟩ := h
      have hraise : ¬(blockRuns swallows body).Surely (Event.Made creates) .raised :=
        not_surely_raised_suite hbody
      have hbody := blockCertain_iff (plainBlock_of_suite hbody)
      have hhandlers := handlersCertain_iff hhandlers
      have helse := blockCertain_iff helse
      have hfinal := blockCertain_iff hfinal
      simp [Stmt.runs, Stmt.certain, hraise, hbody, hhandlers, helse, hfinal]

theorem blockCertain_iff : ∀ {statements : List Stmt}, plainBlock statements = true →
    ((blockRuns swallows statements).Surely (Event.Made creates) .normal ↔
      blockCertain swallows creates statements = true)
  | [], _ => by simp [blockRuns, blockCertain]
  | statement :: statements, h => by
      simp only [plainBlock, Bool.and_eq_true] at h
      have hfirst := certain_iff h.1
      have hrest := blockCertain_iff h.2
      simp [blockRuns, blockCertain, hfirst, hrest]

theorem handlersCertain_iff : ∀ {handlers : List Handler}, plainHandlers handlers = true →
    ((handlerRuns swallows handlers).Surely (Event.Made creates) .normal ↔
      handlersCertain swallows creates handlers = true)
  | [], _ => by simp [handlerRuns, handlersCertain]
  | ⟨none, body⟩ :: _, h => by
      simp only [plainHandlers, Bool.and_eq_true] at h
      exact blockCertain_iff (plainBlock_of_suite h.1.2)
  | ⟨some _, body⟩ :: handlers, h => by
      simp only [plainHandlers, Bool.and_eq_true] at h
      have hbody := blockCertain_iff (plainBlock_of_suite h.1.2)
      have hrest := handlersCertain_iff h.2
      simp only [handlerRuns, surely_headed_normal, surely_either, hbody, hrest, handlersCertain,
        Bool.and_eq_true]
end

theorem precedes_with {P Q : Event → Prop} {known : Prop} {R : Behaviour Event} {swallowed : Bool} :
    (headed (OnExit R (headed Done) (unwinds swallowed))).Precedes P Q known ↔
      R.Precedes P Q known := by
  have hleave : (headed Done).Possible := .of_not_surely surely_headed_raised (P := P)
  have hunwind : (unwinds swallowed).Possible := .of_not_surely surely_unwinds_raised (P := P)
  rw [precedes_headed, precedes_onExit hleave hunwind]
  simp only [precedes_headed, precedes_done, precedes_unwinds, and_true]

theorem precedes_for {P Q : Event → Prop} {known : Prop} {R S : Behaviour Event} (hS : S.Possible) :
    (Then (Loop R) S).Precedes P Q known ↔ R.Precedes P Q known ∧ S.Precedes P Q known := by
  rw [precedes_then hS]
  simp only [precedes_loop, surely_loop, or_false]

/-- What the last suite finds done does not depend on how it is come to. -/
theorem precedes_finally {P Q : Event → Prop} {known : Prop} {R S : Behaviour Event}
    (hS : S.Possible) (hraise : ¬R.Surely P .raised) :
    (OnExit R S (Then S Fails)).Precedes P Q known ↔
      R.Precedes P Q known ∧ S.Precedes P Q known := by
  rw [precedes_onExit hS (hS.andThen possible_fails), precedes_then possible_fails]
  simp only [hraise, or_false, precedes_fails, and_true]
  exact and_congr_right fun _ => and_iff_right_of_imp fun h => h.mono .inl

mutual
theorem covered_iff : ∀ {statement : Stmt}, statement.plain = true → ∀ known : Bool,
    ((statement.runs swallows).Precedes (Event.Made creates) (Event.Comes here) (known = true) ↔
      statement.covered swallows creates here known = true)
  | .expr (.call call), _, known => by
      rw [Stmt.runs, precedes_headed, precedes_performs, Stmt.covered]
      cases here call <;> simp
  | .with_ false items body, h, known => by
      simp only [Stmt.plain, Bool.and_eq_true] at h
      rw [Stmt.runs, precedes_with]
      exact blockCovered_iff (plainBlock_of_suite h.2) known
  | .if_ test body orelse, h, known => by
      simp only [Stmt.plain, Bool.and_eq_true] at h
      rw [Stmt.runs, precedes_headed, precedes_either, Stmt.covered, Bool.and_eq_true,
        blockCovered_iff (plainBlock_of_suite h.1.2), blockCovered_iff h.2]
  | .for_ false target iter body orelse, h, known => by
      simp only [Stmt.plain, Bool.and_eq_true] at h
      rw [Stmt.runs, precedes_for (possible_block h.2), Stmt.covered, Bool.and_eq_true,
        blockCovered_iff (plainBlock_of_suite h.1.2), blockCovered_iff h.2]
  | .while_ test body orelse, h, known => by
      simp only [Stmt.plain, Bool.and_eq_true] at h
      rw [Stmt.runs, precedes_for (possible_block h.2), Stmt.covered, Bool.and_eq_true,
        blockCovered_iff (plainBlock_of_suite h.1.2), blockCovered_iff h.2]
  | .try_ false body handlers orelse finalbody, h, known => by
      simp only [Stmt.plain, Bool.and_eq_true] at h
      obtain ⟨⟨⟨hbody, hhandlers⟩, helse⟩, hfinal⟩ := h
      have hraise : ¬(blockRuns swallows body).Surely (Event.Made creates) .raised :=
        not_surely_raised_suite hbody
      have hpass : ¬(handlerRuns swallows handlers).Surely (Event.Made creates) .raised :=
        not_surely_raised_handlers hhandlers
      have hfirst : ¬(OnExit (blockRuns swallows body) (blockRuns swallows orelse)
          (handlerRuns swallows handlers)).Surely (Event.Made creates) .raised := by
        simp [hraise, hpass]
      rw [Stmt.runs, precedes_finally (possible_block hfinal) hfirst,
        precedes_onExit (possible_block helse) (possible_handlers hhandlers),
        blockCertain_iff (plainBlock_of_suite hbody), ← Bool.or_eq_true,
        blockCovered_iff (plainBlock_of_suite hbody), blockCovered_iff helse,
        blockCovered_iff hfinal]
      simp only [hraise, or_false]
      rw [handlersCovered_iff hhandlers, Stmt.covered]
      simp only [Bool.and_eq_true]
      tauto

theorem blockCovered_iff : ∀ {statements : List Stmt}, plainBlock statements = true →
    ∀ known : Bool, ((blockRuns swallows statements).Precedes (Event.Made creates)
        (Event.Comes here) (known = true) ↔
      blockCovered swallows creates here statements known = true)
  | [], _, _ => by simp [blockRuns, blockCovered]
  | statement :: statements, h, known => by
      simp only [plainBlock, Bool.and_eq_true] at h
      rw [blockRuns, precedes_then (possible_block h.2), certain_iff h.1, ← Bool.or_eq_true,
        covered_iff h.1, blockCovered_iff h.2, blockCovered, Bool.and_eq_true]

theorem handlersCovered_iff : ∀ {handlers : List Handler}, plainHandlers handlers = true →
    ∀ known : Bool, ((handlerRuns swallows handlers).Precedes (Event.Made creates)
        (Event.Comes here) (known = true) ↔
      handlersCovered swallows creates here handlers known = true)
  | [], _, _ => by simp [handlerRuns, handlersCovered]
  | ⟨none, body⟩ :: _, h, known => by
      simp only [plainHandlers, Bool.and_eq_true] at h
      exact blockCovered_iff (plainBlock_of_suite h.1.2) known
  | ⟨some _, body⟩ :: handlers, h, known => by
      simp only [plainHandlers, Bool.and_eq_true] at h
      rw [handlerRuns, precedes_headed, precedes_either, handlersCovered, Bool.and_eq_true,
        blockCovered_iff (plainBlock_of_suite h.1.2), handlersCovered_iff h.2]
end

end Analysis

end ProdkitStorage.Migrations

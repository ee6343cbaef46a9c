/-!
# Syntax of revisions

The syntax trees of Alembic revisions, as far as `database/migration_safety.py` can tell
them apart: what it does not tell apart is one constructor here, with its parts.
-/

namespace ProdkitStorage.Migrations

/-- `lineno` and `col_offset`. -/
structure Place where
  line : Nat
  column : Nat
deriving DecidableEq

/-- The value of an `ast.Constant`. -/
inductive Constant where
  | none
  | bool (value : Bool)
  | str (value : String)
  /-- A number, bytes or an ellipsis. -/
  | other
deriving DecidableEq

mutual
/-- `ast.expr`. -/
inductive Expr where
  | constant (value : Constant)
  | name (id : String)
  | attribute (value : Expr) (attr : String)
  | call (call : Call)
  | ifExp (test body orelse : Expr)
  | lambda (defaults : List Expr) (body : Expr)
  /-- A comprehension or a generator expression. -/
  | comprehension (elements : List Expr) (generators : List Comprehension)
  /-- A set, a list or a tuple. -/
  | display (elts : List Expr)
  /-- Any other expression: operators, comparisons, subscripts, dicts, `await`, `:=`, … -/
  | operation (operands : List Expr)

/-- `ast.Call`, with its source segment. -/
structure Call where
  place : Place
  segment : String
  func : Expr
  args : List Expr
  keywords : List Keyword

/-- `ast.keyword`.  `**mapping` has no name. -/
structure Keyword where
  arg : Option String
  value : Expr

/-- `ast.comprehension`. -/
structure Comprehension where
  target : Expr
  iter : Expr
  ifs : List Expr
end

/-- `ast.withitem`. -/
structure WithItem where
  contextExpr : Expr
  optionalVars : Option Expr

mutual
/-- `ast.stmt`.  The flags tell `async with`, `async for`, `async def` and `except*` from the
statements without them. -/
inductive Stmt where
  | expr (value : Expr)
  | assign (targets : List Expr) (value : Expr)
  | annAssign (target annotation : Expr) (value : Option Expr)
  /-- Any other simple statement: `pass`, `return`, `raise`, `del`, `x += 1`, … -/
  | simple (exprs : List Expr)
  | with_ (isAsync : Bool) (items : List WithItem) (body : List Stmt)
  | if_ (test : Expr) (body orelse : List Stmt)
  | for_ (isAsync : Bool) (target iter : Expr) (body orelse : List Stmt)
  | while_ (test : Expr) (body orelse : List Stmt)
  | try_ (isStar : Bool) (body : List Stmt) (handlers : List Handler)
      (orelse finalbody : List Stmt)
  | match_ (subject : Expr) (cases : List MatchCase)
  | functionDef (isAsync : Bool) (name : String) (header : List Expr) (body : List Stmt)
  | classDef (name : String) (header : List Expr) (body : List Stmt)

/-- `ast.ExceptHandler`.  A bare `except:` has no type. -/
structure Handler where
  type : Option Expr
  body : List Stmt

/-- `ast.match_case`. -/
structure MatchCase where
  patterns : List Expr
  guard : Option Expr
  body : List Stmt
end

/-- `op.method(args…)` on a line. -/
def opCall (line : Nat) (method : String) (args : List Expr) : Call :=
  ⟨⟨line, 4⟩, "", .attribute (.name "op") method, args, []⟩

/-- `op.create_index("ix", table, [])` on a line. -/
def indexCall (line : Nat) (table : String) : Call :=
  opCall line "create_index" [.constant (.str "ix"), .constant (.str table), .display []]

/-! ## The calls that are written -/

mutual
/-- The calls written in an expression. -/
def Expr.calls : Expr → List Call
  | .constant _ => []
  | .name _ => []
  | .attribute value _ => value.calls
  | .call call => call :: call.inner
  | .ifExp test body orelse => test.calls ++ body.calls ++ orelse.calls
  | .lambda defaults body => exprCalls defaults ++ body.calls
  | .comprehension elements generators => exprCalls elements ++ generatorCalls generators
  | .display elts => exprCalls elts
  | .operation operands => exprCalls operands

/-- The calls written within a call. -/
def Call.inner : Call → List Call
  | ⟨_, _, func, args, keywords⟩ => func.calls ++ exprCalls args ++ keywordCalls keywords

def exprCalls : List Expr → List Call
  | [] => []
  | expr :: exprs => expr.calls ++ exprCalls exprs

def keywordCalls : List Keyword → List Call
  | [] => []
  | ⟨_, value⟩ :: keywords => value.calls ++ keywordCalls keywords

def generatorCalls : List Comprehension → List Call
  | [] => []
  | ⟨target, iter, ifs⟩ :: generators =>
      target.calls ++ iter.calls ++ exprCalls ifs ++ generatorCalls generators
end

/-- The calls written in the items of a `with`. -/
def itemCalls (items : List WithItem) : List Call :=
  items.flatMap fun item => item.contextExpr.calls ++ exprCalls item.optionalVars.toList

mutual
/-- The calls written in a statement. -/
def Stmt.calls : Stmt → List Call
  | .expr value => value.calls
  | .assign targets value => exprCalls targets ++ value.calls
  | .annAssign target annotation value =>
      target.calls ++ annotation.calls ++ exprCalls value.toList
  | .simple exprs => exprCalls exprs
  | .with_ _ items body => itemCalls items ++ blockCalls body
  | .if_ test body orelse => test.calls ++ blockCalls body ++ blockCalls orelse
  | .for_ _ target iter body orelse =>
      target.calls ++ iter.calls ++ blockCalls body ++ blockCalls orelse
  | .while_ test body orelse => test.calls ++ blockCalls body ++ blockCalls orelse
  | .try_ _ body handlers orelse finalbody =>
      blockCalls body ++ handlerCalls handlers ++ blockCalls orelse ++ blockCalls finalbody
  | .match_ subject cases => subject.calls ++ caseCalls cases
  | .functionDef _ _ header body => exprCalls header ++ blockCalls body
  | .classDef _ header body => exprCalls header ++ blockCalls body

/-- The calls written in a block. -/
def blockCalls : List Stmt → List Call
  | [] => []
  | statement :: statements => statement.calls ++ blockCalls statements

def handlerCalls : List Handler → List Call
  | [] => []
  | ⟨type, body⟩ :: handlers => exprCalls type.toList ++ blockCalls body ++ handlerCalls handlers

def caseCalls : List MatchCase → List Call
  | [] => []
  | ⟨patterns, guard, body⟩ :: cases =>
      exprCalls patterns ++ exprCalls guard.toList ++ blockCalls body ++ caseCalls cases
end

end ProdkitStorage.Migrations

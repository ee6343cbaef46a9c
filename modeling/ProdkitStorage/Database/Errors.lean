import ProdkitStorage.Foundation.DepthFirst
import Mathlib.Data.Fintype.Basic

/-!
# Errors of the database

`database/errors.py`.  An exception object is known by its identity, and refers to others
by the identities of these, so that exceptions may be shared and may refer to themselves.

`get_sqlstate` keeps a stack: of the links of an exception it follows `__context__` first,
which it pushed last, and `orig` last.  `get_sqlstate_own_iff`: the code it returns is one
of the error's own exactly when the walk that takes these links in that order ends at one.
-/

namespace ProdkitStorage.Database

open ProdkitStorage.Foundation
open Relation (ReflTransGen)

/-! ## Exceptions -/

/-- `PostgreSQLErrorCode`. -/
inductive PostgreSQLErrorCode where
  | notNullViolation
  | foreignKeyViolation
  | uniqueViolation
  | checkViolation
  | serializationFailure
  | deadlockDetected
  | lockNotAvailable
  | queryCanceled
  | adminShutdown
  | crashShutdown
  | cannotConnectNow
deriving DecidableEq, Repr

/-- The value of a code. -/
def PostgreSQLErrorCode.value : PostgreSQLErrorCode → String
  | notNullViolation => "23502"
  | foreignKeyViolation => "23503"
  | uniqueViolation => "23505"
  | checkViolation => "23514"
  | serializationFailure => "40001"
  | deadlockDetected => "40P01"
  | lockNotAvailable => "55P03"
  | queryCanceled => "57014"
  | adminShutdown => "57P01"
  | crashShutdown => "57P02"
  | cannotConnectNow => "57P03"

/-- `TRANSIENT_SQLSTATES`. -/
def transientSqlstates : List PostgreSQLErrorCode :=
  [.serializationFailure, .deadlockDetected, .adminShutdown, .crashShutdown, .cannotConnectNow]

/-- What is read of an exception object.  An attribute that is missing, or is not of the type that
is asked for, is `none`. -/
structure Exception (ν : Type) where
  sqlstate : Option String := none
  pgcode : Option String := none
  orig : Option ν := none
  cause : Option ν := none
  context : Option ν := none
  /-- `isinstance(error, DBAPIError)`. -/
  isDbapiError : Bool := false
  /-- `isinstance(error, Exception)`: no `KeyboardInterrupt` or `CancelledError`. -/
  isException : Bool := true

/-- The exceptions, by their identities. -/
abbrev Exceptions (ν : Type) := ν → Exception ν

/-- The first of the attributes that is a text of five characters. -/
def Exception.code {ν : Type} (error : Exception ν) : Option String :=
  [error.sqlstate, error.pgcode].findSome? fun value => value.filter fun text => text.length = 5

/-- The links, in the order they are pushed. -/
def Exception.nested {ν : Type} (error : Exception ν) : List ν :=
  [error.orig, error.cause, error.context].filterMap id

section
variable {ν : Type} [DecidableEq ν] (errors : Exceptions ν)

/-- The loop of `get_sqlstate`, and the exceptions it has visited.  The top of the stack is the
head of the list. -/
def sqlstateLoop : List ν → List ν → Option String × List ν
  | [], visited => (none, visited)
  | current :: pending, visited =>
      if visited.length < 16 then
        if current ∈ visited then sqlstateLoop pending visited
        else
          match (errors current).code with
          | some value => (some value, current :: visited)
          | none => sqlstateLoop ((errors current).nested.reverse ++ pending) (current :: visited)
      else (none, visited)
termination_by pending visited => (16 - visited.length, pending.length)

/-- `get_sqlstate`. -/
def getSqlstate (error : ν) : Option String := (sqlstateLoop errors [error] []).1

/-- The exceptions `get_sqlstate` visits. -/
def visitedFrom (error : ν) : List ν := (sqlstateLoop errors [error] []).2

/-- `has_sqlstate`. -/
def hasSqlstate (error : ν) (codes : List PostgreSQLErrorCode) : Bool :=
  match getSqlstate errors error with
  | none => false
  | some sqlstate => sqlstate ∈ codes.map PostgreSQLErrorCode.value

/-- `is_constraint_violation`. -/
def isConstraintViolation (error : ν) : Bool :=
  hasSqlstate errors error
    [.notNullViolation, .foreignKeyViolation, .uniqueViolation, .checkViolation]

/-- `is_unique_violation`. -/
def isUniqueViolation (error : ν) : Bool := hasSqlstate errors error [.uniqueViolation]

/-- `is_foreign_key_violation`. -/
def isForeignKeyViolation (error : ν) : Bool := hasSqlstate errors error [.foreignKeyViolation]

/-- `is_serialization_failure`. -/
def isSerializationFailure (error : ν) : Bool := hasSqlstate errors error [.serializationFailure]

/-- `is_deadlock`. -/
def isDeadlock (error : ν) : Bool := hasSqlstate errors error [.deadlockDetected]

/-- `is_lock_not_available`. -/
def isLockNotAvailable (error : ν) : Bool := hasSqlstate errors error [.lockNotAvailable]

/-- `is_retryable_database_error`. -/
def isRetryableDatabaseError (error : ν) : Bool :=
  (errors error).isDbapiError && hasSqlstate errors error transientSqlstates

end

/-! ## What is visited -/

variable {ν : Type} {errors : Exceptions ν}

theorem sqlstateLoop_visited [DecidableEq ν] {pending visited : List ν} (hnodup : visited.Nodup)
    (hlength : visited.length ≤ 16) :
    (sqlstateLoop errors pending visited).2.Nodup ∧
      (sqlstateLoop errors pending visited).2.length ≤ 16 := by
  fun_induction sqlstateLoop errors pending visited with
  | case1 visited => exact ⟨hnodup, hlength⟩
  | case2 visited current pending hlt hmem ih => exact ih hnodup hlength
  | case3 visited current pending hlt hmem value hvalue =>
      exact ⟨List.nodup_cons.mpr ⟨hmem, hnodup⟩, hlt⟩
  | case4 visited current pending hlt hmem hnone ih =>
      exact ih (List.nodup_cons.mpr ⟨hmem, hnodup⟩) hlt
  | case5 visited current pending hge => exact ⟨hnodup, hlength⟩

/-! ## The search -/

/-- The links of the exceptions, the one pushed last first. -/
def sqlstateSearch (errors : Exceptions ν) : Search ν String where
  links error := (errors error).nested.reverse
  marks _ := true
  found error := (errors error).code

theorem not_onCycle (n : ν) : ¬(sqlstateSearch errors).OnCycle n := by
  intro hcycle
  cases hcycle.unmarked

/-- Once all exceptions were visited none is left to find. -/
theorem run_visited [DecidableEq ν] {visited : List ν} (hall : ∀ n, n ∈ visited) {fuel : Nat}
    {pending : List ν} {out : Option String}
    (hrun : (sqlstateSearch errors).run fuel pending visited = some out) : out = none := by
  induction fuel generalizing pending with
  | zero => cases hrun
  | succ fuel ih =>
      cases pending with
      | nil => exact (Option.some.inj hrun).symm
      | cons n pending =>
          rw [Search.run_skip ⟨rfl, hall n⟩] at hrun
          exact ih hrun

/-- Up to sixteen exceptions, the loop is a search. -/
theorem sqlstateLoop_of_run [Fintype ν] [DecidableEq ν] (hcard : Fintype.card ν ≤ 16)
    {fuel : Nat} {pending visited : List ν} {out : Option String} (hnodup : visited.Nodup)
    (hrun : (sqlstateSearch errors).run fuel pending visited = some out) :
    (sqlstateLoop errors pending visited).1 = out := by
  induction fuel generalizing pending visited with
  | zero => cases hrun
  | succ fuel ih =>
      cases pending with
      | nil =>
          rw [sqlstateLoop]
          exact Option.some.inj hrun
      | cons n pending =>
          rw [sqlstateLoop]
          split
          · next hlt =>
              split
              · next hmem =>
                  rw [Search.run_skip ⟨rfl, hmem⟩] at hrun
                  exact ih hnodup hrun
              · next hmem =>
                  have hskips : ¬(sqlstateSearch errors).Skips visited n := fun h => hmem h.2
                  split
                  · next value hvalue =>
                      rw [Search.run_stop hskips hvalue] at hrun
                      exact Option.some.inj hrun
                  · next hnone =>
                      rw [Search.run_push hskips hnone] at hrun
                      exact ih (List.nodup_cons.mpr ⟨hmem, hnodup⟩) hrun
          · next hge =>
              -- all sixteen were visited
              have hall : ∀ m, m ∈ visited := by
                intro m
                by_contra hm
                have hlonger := (List.nodup_cons.mpr ⟨hm, hnodup⟩).length_le_card
                rw [List.length_cons] at hlonger
                omega
              exact (run_visited hall hrun).symm

/-- The code of an error is the one the walk ends at. -/
theorem getSqlstate_eq_some_iff [Fintype ν] [DecidableEq ν] (hcard : Fintype.card ν ≤ 16)
    {error : ν} {code : String} :
    getSqlstate errors error = some code ↔ (sqlstateSearch errors).Leads [] error code := by
  constructor
  · intro hcode
    by_cases htrouble : (sqlstateSearch errors).Trouble [] error
    · obtain ⟨found, hleads⟩ := Search.leads_of_trouble (fun m _ => not_onCycle m) htrouble
      obtain ⟨fuel, hrun⟩ := Search.run_found_iff.mpr hleads
      have hsame := sqlstateLoop_of_run hcard List.nodup_nil hrun
      rw [getSqlstate, hsame] at hcode
      cases hcode
      exact hleads
    · obtain ⟨fuel, hrun⟩ := Search.run_none_iff.mpr htrouble
      rw [getSqlstate, sqlstateLoop_of_run hcard List.nodup_nil hrun] at hcode
      cases hcode
  · intro hleads
    obtain ⟨fuel, hrun⟩ := Search.run_found_iff.mpr hleads
    exact sqlstateLoop_of_run hcard List.nodup_nil hrun

/-! ## Own codes -/

/-- A link to what an error is made of. -/
def OwnLink (errors : Exceptions ν) (a b : ν) : Prop :=
  (errors a).orig = some b ∨ (errors a).cause = some b

/-- A code the error carries, or an exception reached from it through `orig` and `__cause__`. -/
def OwnCode (errors : Exceptions ν) (error : ν) (code : String) : Prop :=
  ∃ own, ReflTransGen (OwnLink errors) error own ∧ (errors own).code = some code

/-- At most sixteen exceptions are visited, each once, and the code of an error that has codes of
its own is one of these exactly when the walk ends at one of them. -/
theorem getSqlstate_own_iff [Fintype ν] [DecidableEq ν] (errors : Exceptions ν) (error : ν) :
    (visitedFrom errors error).Nodup ∧ (visitedFrom errors error).length ≤ 16 ∧
      (Fintype.card ν ≤ 16 → (∃ code, OwnCode errors error code) →
        ((∃ code, getSqlstate errors error = some code ∧ OwnCode errors error code) ↔
          ∃ code, (sqlstateSearch errors).Leads [] error code ∧ OwnCode errors error code)) := by
  obtain ⟨hnodup, hlength⟩ : (visitedFrom errors error).Nodup ∧
      (visitedFrom errors error).length ≤ 16 := sqlstateLoop_visited List.nodup_nil (Nat.zero_le _)
  refine ⟨hnodup, hlength, fun hcard _ => ?_⟩
  constructor
  · rintro ⟨code, hcode, hown⟩
    exact ⟨code, (getSqlstate_eq_some_iff hcard).mp hcode, hown⟩
  · rintro ⟨code, hleads, hown⟩
    exact ⟨code, (getSqlstate_eq_some_iff hcard).mpr hleads, hown⟩

/-! ## Samples -/

/-- A unique violation, wrapped, and raised while an exception without a code was being handled. -/
def wrapped : Exceptions (Fin 3)
  | 0 => { isDbapiError := true, orig := some 1, cause := some 1, context := some 2 }
  | 1 => { sqlstate := some "23505" }
  | 2 => { }

theorem getSqlstate_wrapped :
    ∃ code, getSqlstate wrapped 0 = some code ∧ OwnCode wrapped 0 code := by
  have hown : OwnCode wrapped 0 "23505" := ⟨1, .single (.inl rfl), rfl⟩
  have hleads : (sqlstateSearch wrapped).Leads [] 0 "23505" := by
    have hstart : ¬(sqlstateSearch wrapped).Skips [] 0 := fun h => (nomatch h.2)
    have horig : ¬(sqlstateSearch wrapped).Skips [0] 1 := by decide
    have hlinks : (sqlstateSearch wrapped).links 0 = [2] ++ 1 :: [1] := rfl
    -- the context comes first, and has nothing ahead of it
    refine .on hstart rfl hlinks ?_ (.here horig rfl)
    intro other hother htrouble
    obtain rfl := List.mem_singleton.mp hother
    cases htrouble with
    | result _ hcode => exact hcode rfl
    | cycle hcycle => exact not_onCycle _ hcycle
    | step _ _ hlink _ => cases hlink
  exact ((getSqlstate_own_iff wrapped 0).2.2 (by decide) ⟨_, hown⟩).mpr ⟨_, hleads, hown⟩

/-- A unique violation, raised while a serialization failure was being handled. -/
def whileHandling : Exceptions (Fin 3)
  | 0 => { isDbapiError := true, orig := some 1, cause := some 1, context := some 2 }
  | 1 => { sqlstate := some "23505" }
  | 2 => { sqlstate := some "40001" }

/-- The violation gets the code of the failure, and is retried. -/
theorem whileHandling_retried : getSqlstate whileHandling 0 = some "40001" ∧
    isRetryableDatabaseError whileHandling 0 = true ∧
      isUniqueViolation whileHandling 0 = false := by
  have hcode : getSqlstate whileHandling 0 = some "40001" := by
    have hstart : ¬(sqlstateSearch whileHandling).Skips [] 0 := fun h => (nomatch h.2)
    have hcontext : ¬(sqlstateSearch whileHandling).Skips [0] 2 := by decide
    exact (getSqlstate_eq_some_iff (by decide)).mpr
      (.first hstart rfl rfl (.here hcontext rfl))
  refine ⟨hcode, ?_, ?_⟩
  · rw [isRetryableDatabaseError, hasSqlstate, hcode]
    decide
  · rw [isUniqueViolation, hasSqlstate, hcode]
    decide

theorem context_code_first :
    ¬∀ {ν : Type} [Fintype ν] [DecidableEq ν] (errors : Exceptions ν) (error : ν),
      Fintype.card ν ≤ 16 → (∃ code, OwnCode errors error code) →
        ∃ code, getSqlstate errors error = some code ∧ OwnCode errors error code := by
  intro hall
  obtain ⟨code, hcode, own, howned, hown⟩ :=
    hall whileHandling 0 (by decide) ⟨"23505", 1, .single (.inl rfl), rfl⟩
  rw [whileHandling_retried.1] at hcode
  have hreached : own = 0 ∨ own = 1 := by
    clear hown
    induction howned with
    | refl => exact .inl rfl
    | tail _ hlink ih =>
        rcases ih with rfl | rfl
        · rcases hlink with hlink | hlink
          · exact .inr (Option.some.inj hlink).symm
          · exact .inr (Option.some.inj hlink).symm
        · rcases hlink with hlink | hlink
          · cases hlink
          · cases hlink
  cases hcode
  rcases hreached with rfl | rfl
  · cases hown
  · exact absurd (Option.some.inj hown) (by decide)

end ProdkitStorage.Database

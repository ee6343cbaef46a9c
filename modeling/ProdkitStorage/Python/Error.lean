import Mathlib.Data.List.Forall2

/-!
# Exceptions

The exceptions the modelled functions raise, with the text the source gives
them.  A Python function that may raise returns `Except PyError`.
-/

namespace ProdkitStorage.Python

/-- An exception, by its class. -/
inductive PyError where
  | valueError (message : String)
  | typeError (message : String)
  | keyError (key : String)
  | runtimeError (message : String)
  /-- `orjson.JSONDecodeError`, a subclass of `ValueError`. -/
  | jsonDecodeError
  | notFoundError (modelName : String)
  | tenantContextError (message : String)
  | idempotencyConflictError (message : String)
  | lockNotAcquiredError (message : String)
  | outboxLeaseLostError (message : String)
  /-- An error of the database server. -/
  | databaseError (message : String)
  /-- `redis.exceptions.ResponseError`. -/
  | responseError (message : String)
  /-- `sqlalchemy.exc.ArgumentError`. -/
  | argumentError (message : String)
  /-- `sqlalchemy.exc.StatementError`. -/
  | statementError (message : String)
  /-- `sqlalchemy.exc.NoResultFound`. -/
  | noResultFound
  /-- `sqlalchemy.exc.MultipleResultsFound`. -/
  | multipleResultsFound
deriving DecidableEq, Repr

/-- `isinstance(error, ValueError)`. -/
def PyError.isValueError : PyError → Bool
  | .valueError _ => true
  | .jsonDecodeError => true
  | _ => false

/-- `orjson.JSONEncodeError` for a time with an offset, which is no value of JSON. -/
def timeHasTzinfo : PyError :=
  .typeError ("datetime's timezone library is not supported: " ++
    "use datetime.timezone.utc, pendulum, pytz, or dateutil")

/-! ## Running a computation that may raise -/

@[simp] theorem ok_bind {ε α β : Type} (a : α) (f : α → Except ε β) :
    (Except.ok a >>= f) = f a := rfl

@[simp] theorem error_bind {ε α β : Type} (e : ε) (f : α → Except ε β) :
    ((Except.error e : Except ε α) >>= f) = .error e := rfl

@[simp] theorem pure_eq_ok {ε α : Type} (a : α) : (pure a : Except ε α) = .ok a := rfl

/-- A computation returns when its two halves do. -/
theorem bind_eq_ok {ε α β : Type} {x : Except ε α} {f : α → Except ε β} {b : β} :
    (x >>= f) = .ok b ↔ ∃ a, x = .ok a ∧ f a = .ok b := by
  cases x with
  | error e => simp
  | ok a => simp

/-- A computation for each item of a list returns when all of them do. -/
theorem mapM_eq_ok {ε α β : Type} {f : α → Except ε β} {items : List α} {results : List β} :
    items.mapM f = .ok results ↔ List.Forall₂ (fun a b => f a = .ok b) items results := by
  induction items generalizing results with
  | nil =>
      cases results with
      | nil => simp
      | cons b results => simp
  | cons a items ih =>
      rw [List.mapM_cons, bind_eq_ok]
      constructor
      · rintro ⟨b, hb, h⟩
        obtain ⟨rest, hrest, h⟩ := bind_eq_ok.mp h
        obtain rfl := Except.ok.inj h
        exact .cons hb (ih.mp hrest)
      · rintro (_ | ⟨hb, hrest⟩)
        exact ⟨_, hb, by rw [ih.mpr hrest]; rfl⟩

end ProdkitStorage.Python

import ProdkitStorage.Context
import ProdkitStorage.Foundation.Json
import ProdkitStorage.Python.Error
import ProdkitStorage.Python.Text

/-!
# Outbox events

`models/outbox.py` and the operations of `outbox.py`.  An operation is one
transaction on the table: it returns the new table, or raises and leaves the
table as it was.  The async functions run the same statements.

The instants a Python `datetime` denotes are counted in microseconds.  A row
changed through the ORM is written back by `session.flush()`, which adds one to
the column `version_id_col` names.
-/

namespace ProdkitStorage.Outbox

open ProdkitStorage.Foundation (Json)
open ProdkitStorage.Python

/-- A `datetime` with a time zone, in microseconds since the epoch. -/
abbrev Instant := Int

/-- The values the check constraint on `status` allows. -/
inductive Status where
  | pending
  | processing
  | published
  | dead
deriving DecidableEq, Repr

/-- A row of `storage_outbox_events`. -/
structure OutboxEvent where
  id : Uuid
  tenantId : Option Uuid
  topic : String
  eventType : String
  aggregateType : Option String
  aggregateId : Option String
  payload : List (String × Json)
  headers : List (String × Json)
  status : Status
  attempts : Nat
  availableAt : Instant
  createdAt : Instant
  publishedAt : Option Instant
  lockedAt : Option Instant
  lockedBy : Option String
  lockToken : Option Uuid
  lastError : Option String
  version : Nat

/-- What `session.flush()` does to a changed row. -/
def OutboxEvent.flush (event : OutboxEvent) : OutboxEvent :=
  { event with version := event.version + 1 }

/-! ## Enqueue -/

/-- `headers.setdefault(key, value)`. -/
def setDefault (headers : List (String × Json)) (key value : String) : List (String × Json) :=
  if headers.any (·.1 == key) then headers else headers ++ [(key, .str value)]

/-- The headers of the caller, with the request and trace of the context. -/
def mergedHeaders (context : RequestContext) (headers : Option (List (String × Json))) :
    List (String × Json) :=
  let merged := headers.getD []
  let merged := match context.requestId with
    | some r => if r != "" then setDefault merged "request_id" r else merged
    | none => merged
  match context.traceId with
  | some t => if t != "" then setDefault merged "trace_id" t else merged
  | none => merged

/-- `enqueue_outbox_event`: the row inserted.  `id` is the `uuid4()` of the
primary key, `createdAt` the server's `now()`. -/
def enqueueOutboxEvent (context : RequestContext) (id : Uuid) (now createdAt : Instant)
    (topic eventType : String) (payload : List (String × Json))
    (headers : Option (List (String × Json)) := none)
    (aggregateType aggregateId : Option String := none)
    (availableAt : Option Instant := none) : OutboxEvent where
  id := id
  tenantId := context.tenantId
  topic := topic
  eventType := eventType
  aggregateType := aggregateType
  aggregateId := aggregateId
  payload := payload
  headers := mergedHeaders context headers
  status := .pending
  attempts := 0
  availableAt := availableAt.getD now
  createdAt := createdAt
  publishedAt := none
  lockedAt := none
  lockedBy := none
  lockToken := none
  lastError := none
  version := 1

/-! ## Claim -/

/-- `_validate_claim_options`.  `staleAfter` is the `timedelta` in microseconds. -/
def validateClaimOptions (workerId : String) (batchSize staleAfter : Int) : Except PyError Unit :=
  if strip workerId = "" then .error (.valueError "worker_id must not be empty")
  else if ¬(1 ≤ batchSize ∧ batchSize ≤ 1000) then
    .error (.valueError "batch_size must be between 1 and 1000")
  else if staleAfter ≤ 0 then .error (.valueError "stale_after must be positive")
  else .ok ()

/-- The `WHERE` clause of the claim. -/
def claimable (now staleBefore : Instant) (event : OutboxEvent) : Bool :=
  decide (event.availableAt ≤ now) &&
    (event.status == .pending ||
      (event.status == .processing &&
        match event.lockedAt with
        | none => true
        | some lockedAt => decide (lockedAt < staleBefore)))

/-- `ORDER BY available_at, created_at`. -/
def dispatchOrder (a b : OutboxEvent) : Bool :=
  decide (a.availableAt < b.availableAt) ||
    (a.availableAt == b.availableAt && decide (a.createdAt ≤ b.createdAt))

/-- `SELECT ... ORDER BY ... LIMIT batch_size FOR UPDATE SKIP LOCKED`.  `locked`
are the rows other transactions hold. -/
def selectForClaim (table : List OutboxEvent) (locked : Uuid → Bool) (batchSize : Int)
    (now staleBefore : Instant) : List OutboxEvent :=
  ((table.filter fun event => claimable now staleBefore event && !locked event.id).mergeSort
    dispatchOrder).take batchSize.toNat

/-- The body of the claim's loop, and the flush. -/
def claimEvent (workerId : String) (now : Instant) (token : Uuid) (event : OutboxEvent) :
    OutboxEvent :=
  { event with
    status := .processing
    lockedAt := some now
    lockedBy := some workerId
    lockToken := some token
    attempts := event.attempts + 1 }.flush

/-- `claim_outbox_events`: the new table and the claimed events.  `uuid4 id` is
the token drawn for the event `id`.  Left out is the `OverflowError` of
`now - stale_after`, where it lies before the year 1. -/
def claimOutboxEvents (table : List OutboxEvent) (locked : Uuid → Bool) (workerId : String)
    (batchSize staleAfter : Int) (now : Instant) (uuid4 : Uuid → Uuid) :
    Except PyError (List OutboxEvent × List OutboxEvent) := do
  validateClaimOptions workerId batchSize staleAfter
  let staleBefore := now - staleAfter
  let events := selectForClaim table locked batchSize now staleBefore
  let claim := fun event : OutboxEvent => claimEvent workerId now (uuid4 event.id) event
  let table' := table.map fun event =>
    if event.id ∈ events.map OutboxEvent.id then claim event else event
  return (table', events.map claim)

/-! ## Settlement -/

/-- The `WHERE` clause of the settling operations. -/
def leased (eventId lockToken : Uuid) (event : OutboxEvent) : Bool :=
  event.id == eventId && event.status == .processing && event.lockToken == some lockToken

/-- The text of `OutboxLeaseLostError`; `shown` is the event id as text. -/
def leaseLost (shown : String) : PyError :=
  .outboxLeaseLostError ("outbox event " ++ shown ++ " lease is no longer owned")

/-- The `SET` clause of `complete_outbox_event`. -/
def publishEvent (publishedAt : Instant) (event : OutboxEvent) : OutboxEvent :=
  { event with
    status := .published
    publishedAt := some publishedAt
    lockedAt := none
    lockedBy := none
    lockToken := none
    lastError := none
    version := event.version + 1 }

/-- `complete_outbox_event`.  `shown` is how the error prints the event id. -/
def completeOutboxEvent (table : List OutboxEvent) (eventId lockToken : Uuid) (shown : String)
    (publishedAt : Instant) : Except PyError (List OutboxEvent) :=
  let rowcount := table.countP (leased eventId lockToken)
  if rowcount ≠ 1 then .error (leaseLost shown)
  else .ok (table.map fun event =>
    if leased eventId lockToken event then publishEvent publishedAt event else event)

/-- `mark_outbox_failed`.  `error` is `str(error)`. -/
def markOutboxFailed (event : OutboxEvent) (error : String) (maxAttempts baseDelaySeconds : Int)
    (now : Instant) : Except PyError OutboxEvent :=
  if maxAttempts ≤ 0 then .error (.valueError "max_attempts must be positive")
  else if baseDelaySeconds ≤ 0 then .error (.valueError "base_delay_seconds must be positive")
  else
    let event := { event with
      lastError := some (takeStr 8000 error)
      lockedAt := none
      lockedBy := none
      lockToken := none }
    if maxAttempts ≤ event.attempts then .ok { event with status := .dead }
    else
      let delay := min (baseDelaySeconds * 2 ^ (event.attempts - 1)) 3600
      .ok { event with status := .pending, availableAt := now + delay * 1000000 }

/-- `fail_outbox_event`: the new table and the failed event. -/
def failOutboxEvent (table : List OutboxEvent) (eventId lockToken : Uuid) (shown error : String)
    (maxAttempts baseDelaySeconds : Int) (now : Instant) :
    Except PyError (List OutboxEvent × OutboxEvent) :=
  match table.find? (leased eventId lockToken) with
  | none => .error (leaseLost shown)
  | some event => do
      let event ← markOutboxFailed event error maxAttempts baseDelaySeconds now
      let event := event.flush
      return (table.map fun row => if row.id = event.id then event else row, event)

end ProdkitStorage.Outbox

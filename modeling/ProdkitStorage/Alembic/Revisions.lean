import Mathlib.Data.List.Dedup
import ProdkitStorage.Outbox.Lease

/-!
# Revisions of the schema

The migrations of `alembic/versions` on the outbox table, and the check of
`database/schema_compatibility.py` that reads the revision they leave.

Alembic runs a migration and writes `storage_alembic_version` in one transaction
(`transaction_per_migration=True`).
-/

namespace ProdkitStorage.Alembic

open ProdkitStorage.Foundation (Json)
open ProdkitStorage.Outbox (Instant OutboxEvent Status)
open ProdkitStorage.Python

/-! ## The migrations -/

/-- A row of `storage_outbox_events` as `20260806_0001` creates the table. -/
structure InitialEvent where
  id : Uuid
  tenantId : Option Uuid
  topic : String
  eventType : String
  aggregateType : Option String
  aggregateId : Option String
  payload : List (String × Json)
  headers : List (String × Json)
  status : Status
  attempts : Nat
  availableAt : Instant
  createdAt : Instant
  publishedAt : Option Instant
  lockedAt : Option Instant
  lockedBy : Option String
  lastError : Option String

/-- `UPDATE ... SET status = 'pending', locked_at = NULL, locked_by = NULL WHERE status =
'processing'`. -/
def releaseInFlight (event : InitialEvent) : InitialEvent :=
  if event.status = .processing then
    { event with status := .pending, lockedAt := none, lockedBy := none }
  else event

/-- `ADD COLUMN version ... DEFAULT 1` and `ADD COLUMN lock_token`. -/
def addLeaseColumns (event : InitialEvent) : OutboxEvent where
  id := event.id
  tenantId := event.tenantId
  topic := event.topic
  eventType := event.eventType
  aggregateType := event.aggregateType
  aggregateId := event.aggregateId
  payload := event.payload
  headers := event.headers
  status := event.status
  attempts := event.attempts
  availableAt := event.availableAt
  createdAt := event.createdAt
  publishedAt := event.publishedAt
  lockedAt := event.lockedAt
  lockedBy := event.lockedBy
  lockToken := none
  lastError := event.lastError
  version := 1

/-- `DROP COLUMN lock_token` and `DROP COLUMN version`. -/
def dropLeaseColumns (event : OutboxEvent) : InitialEvent where
  id := event.id
  tenantId := event.tenantId
  topic := event.topic
  eventType := event.eventType
  aggregateType := event.aggregateType
  aggregateId := event.aggregateId
  payload := event.payload
  headers := event.headers
  status := event.status
  attempts := event.attempts
  availableAt := event.availableAt
  createdAt := event.createdAt
  publishedAt := event.publishedAt
  lockedAt := event.lockedAt
  lockedBy := event.lockedBy
  lastError := event.lastError

/-- `CHECK` of `processing_has_lock_token`. -/
def processingHasLockToken (event : OutboxEvent) : Bool :=
  (event.status == .processing && event.lockToken.isSome) ||
    (event.status != .processing && event.lockToken.isNone)

/-- The rows that the `UPDATE` of `20260807_0002` writes, and holds until the migration ends. -/
def inFlight (table : List InitialEvent) : List Uuid :=
  (table.filter fun event => event.status = .processing).map InitialEvent.id

/-- The table for the migration that has written these rows. -/
def released (written : List Uuid) (table : List InitialEvent) : List InitialEvent :=
  table.map fun event => if written.contains event.id then releaseInFlight event else event

/-- The statements of `upgrade` of `20260807_0002` after the `UPDATE`.  The server rejects a
constraint that a row violates. -/
def hardenLeases (table : List InitialEvent) : Option (List OutboxEvent) :=
  let table := table.map addLeaseColumns
  if table.all processingHasLockToken then some table else none

/-- `downgrade` of `20260807_0002`. -/
def softenLeases (table : List OutboxEvent) : List InitialEvent := table.map dropLeaseColumns

/-! ## The check -/

/-- `SchemaRevisionState`. -/
inductive SchemaRevisionState where
  | current
  | compatible
  | incompatible
  | unversioned
  | multipleHeads
deriving DecidableEq, Repr

/-- The value of a state. -/
def SchemaRevisionState.str : SchemaRevisionState → String
  | .current => "current"
  | .compatible => "compatible"
  | .incompatible => "incompatible"
  | .unversioned => "unversioned"
  | .multipleHeads => "multiple_heads"

/-- `STORAGE_SCHEMA_HEAD`. -/
def storageSchemaHead : String := "20260807_0002"

/-- The revision of the first migration. -/
def initialRevision : String := "20260806_0001"

/-- `SchemaCompatibilityPolicy`. -/
structure SchemaCompatibilityPolicy where
  expectedRevision : String := storageSchemaHead
  compatibleRevisions : List String := [storageSchemaHead]
  compatibilityVersion : Int := 1
  nonempty : strip expectedRevision ≠ "" := by decide
  expected : expectedRevision ∈ compatibleRevisions := by decide
  positive : 1 ≤ compatibilityVersion := by decide

/-- `SchemaCompatibilityPolicy(...)`. -/
def SchemaCompatibilityPolicy.make (expectedRevision : String) (compatibleRevisions : List String)
    (compatibilityVersion : Int) : Except PyError SchemaCompatibilityPolicy :=
  if hempty : strip expectedRevision = "" then
    .error (.valueError "expected_revision must not be empty")
  else if hexpected : expectedRevision ∈ compatibleRevisions then
    if hpositive : 1 ≤ compatibilityVersion then
      .ok ⟨expectedRevision, compatibleRevisions, compatibilityVersion, hempty, hexpected,
        hpositive⟩
    else .error (.valueError "compatibility_version must be positive")
  else .error (.valueError "compatible_revisions must include expected_revision")

/-- `SchemaCompatibilityReport`. -/
structure SchemaCompatibilityReport where
  state : SchemaRevisionState
  revisions : List String
  expectedRevision : String
  compatibilityVersion : Int
deriving DecidableEq, Repr

/-- `compatible`. -/
def SchemaCompatibilityReport.compatible (report : SchemaCompatibilityReport) : Bool :=
  report.state == .current || report.state == .compatible

/-- `dict.fromkeys`: the first of equal items stays. -/
def firstOfEach : List String → List String
  | [] => []
  | item :: items => item :: (firstOfEach items).filter (· != item)

/-- `evaluate_schema_revisions`. -/
def evaluateSchemaRevisions (revisions : List String) (policy : SchemaCompatibilityPolicy) :
    SchemaCompatibilityReport :=
  let normalized := firstOfEach ((revisions.filter fun item => strip item != "").map strip)
  let state : SchemaRevisionState :=
    match normalized with
    | [] => .unversioned
    | [revision] =>
        if revision = policy.expectedRevision then .current
        else if revision ∈ policy.compatibleRevisions then .compatible
        else .incompatible
    | _ => .multipleHeads
  ⟨state, normalized, policy.expectedRevision, policy.compatibilityVersion⟩

/-- The text of `SchemaCompatibilityError`. -/
def schemaCompatibilityError (report : SchemaCompatibilityReport) : PyError :=
  let joined := ", ".intercalate report.revisions
  let revisions := if joined = "" then "<none>" else joined
  .runtimeError ("database schema is not compatible with this storage runtime: state=" ++
    report.state.str ++ ", current=" ++ revisions ++ ", expected=" ++ report.expectedRevision)

/-- `check_schema_compatibility_sync`.  `versions` are the rows of the version table, when there is
one. -/
def checkSchemaCompatibility (versions : Option (List String))
    (policy : SchemaCompatibilityPolicy) : SchemaCompatibilityReport :=
  match versions with
  | none => evaluateSchemaRevisions [] policy
  | some rows => evaluateSchemaRevisions (rows.mergeSort fun a b => decide (a ≤ b)) policy

/-- `require_schema_compatible_sync`. -/
def requireSchemaCompatible (versions : Option (List String))
    (policy : SchemaCompatibilityPolicy) : Except PyError SchemaCompatibilityReport :=
  let report := checkSchemaCompatibility versions policy
  if report.compatible then .ok report else .error (schemaCompatibilityError report)

/-! ## What the check accepts -/

theorem mem_firstOfEach {item : String} {items : List String} :
    item ∈ firstOfEach items ↔ item ∈ items := by
  induction items with
  | nil => simp [firstOfEach]
  | cons first items ih =>
      by_cases h : item = first
      · simp [firstOfEach, h]
      · simp [firstOfEach, h, ih]

theorem firstOfEach_eq_singleton {items : List String} {item : String} :
    firstOfEach items = [item] ↔ items ≠ [] ∧ ∀ other ∈ items, other = item := by
  cases items with
  | nil => simp [firstOfEach]
  | cons first items =>
      simp only [firstOfEach, List.cons.injEq, List.filter_eq_nil_iff, ne_eq, reduceCtorEq,
        not_false_eq_true, true_and, List.forall_mem_cons, mem_firstOfEach]
      constructor
      · rintro ⟨rfl, h⟩
        exact ⟨rfl, fun other hother => by simpa using h other hother⟩
      · rintro ⟨rfl, h⟩
        exact ⟨rfl, fun other hother => by simp [h other hother]⟩

/-- A report is compatible when it found one revision, which the policy accepts. -/
theorem evaluateSchemaRevisions_compatible {revisions : List String}
    {policy : SchemaCompatibilityPolicy} :
    (evaluateSchemaRevisions revisions policy).compatible = true ↔
      ∃ revision ∈ policy.compatibleRevisions,
        (∃ row ∈ revisions, strip row ≠ "") ∧
          ∀ row ∈ revisions, strip row = "" ∨ strip row = revision := by
  have hsingle : ∀ revision, firstOfEach ((revisions.filter fun item => strip item != "").map
      strip) = [revision] ↔ (∃ row ∈ revisions, strip row ≠ "") ∧
        ∀ row ∈ revisions, strip row = "" ∨ strip row = revision := by
    intro revision
    rw [firstOfEach_eq_singleton]
    refine and_congr (by simp) ⟨fun h row hrow => ?_, fun h item hitem => ?_⟩
    · by_cases hblank : strip row = ""
      · exact .inl hblank
      · exact .inr (h _ (List.mem_map_of_mem (List.mem_filter.mpr ⟨hrow, by simp [hblank]⟩)))
    · obtain ⟨row, hrow, rfl⟩ := List.mem_map.mp hitem
      obtain ⟨hmem, hblank⟩ := List.mem_filter.mp hrow
      exact (h row hmem).resolve_left (by simpa using hblank)
  have hstate : (evaluateSchemaRevisions revisions policy).compatible = true ↔
      ∃ revision ∈ policy.compatibleRevisions, firstOfEach ((revisions.filter fun item =>
        strip item != "").map strip) = [revision] := by
    simp only [evaluateSchemaRevisions, SchemaCompatibilityReport.compatible]
    split
    · next h => simp [h]
    · next revision h =>
        have hexpected := policy.expected
        by_cases hcurrent : revision = policy.expectedRevision
        · simp [h, hcurrent, hexpected]
        · by_cases hmem : revision ∈ policy.compatibleRevisions <;> simp [h, hcurrent, hmem]
    · next h =>
        refine ⟨fun hcompatible => absurd hcompatible (by decide), ?_⟩
        rintro ⟨revision, -, hone⟩
        exact absurd hone (h revision)
  rw [hstate]
  exact exists_congr fun revision => and_congr_right fun _ => hsingle revision

/-- The check returns exactly when the version table names one revision, up to blanks around it and
repetitions, and the policy accepts it. -/
theorem requireSchemaCompatible_ok {versions : Option (List String)}
    {policy : SchemaCompatibilityPolicy} :
    (∃ report, requireSchemaCompatible versions policy = .ok report) ↔
      ∃ rows, versions = some rows ∧ ∃ revision ∈ policy.compatibleRevisions,
        (∃ row ∈ rows, strip row ≠ "") ∧ ∀ row ∈ rows, strip row = "" ∨ strip row = revision := by
  have hcheck : (∃ report, requireSchemaCompatible versions policy = .ok report) ↔
      (checkSchemaCompatibility versions policy).compatible = true := by
    simp only [requireSchemaCompatible]
    split
    · next h => simp [h]
    · next h => simp [h]
  rw [hcheck]
  cases versions with
  | none => simp [checkSchemaCompatibility, evaluateSchemaRevisions_compatible]
  | some rows => simp [checkSchemaCompatibility, evaluateSchemaRevisions_compatible]

end ProdkitStorage.Alembic

import ProdkitStorage.Alembic.Revisions

/-!
# Leases across migrations

The outbox of a database that is migrated up and down while it is in use.  At the first revision
an older release writes the table, in any way its constraints allow.  At the head the workers of
`outbox.py` do.  A worker may keep the token it drew before a migration and use it afterwards.

The upgrade releases the events in flight first and locks the table only after that, so that the
older release may claim others in between.

`Locked` is the invariant at the head: a row holds a token drawn since the last upgrade, or none.
It does not need the history of the events, which the upgrade does not know.
-/

namespace ProdkitStorage.Alembic

open ProdkitStorage.Foundation (System)
open ProdkitStorage.Outbox
open ProdkitStorage.Python

/-! ## Deployments -/

/-- The schema, with the rows of the outbox. -/
inductive Schema where
  /-- No revision.  The version table is left behind by a downgrade. -/
  | base (tracked : Bool)
  | initial (table : List InitialEvent)
  /-- The table that is committed, while the upgrade has written these rows of it. -/
  | upgrading (table : List InitialEvent) (written : List Uuid)
  /-- The head, with the log since the last upgrade. -/
  | hardened (outbox : Outbox.State)

/-- The rows of the version table. -/
def Schema.versions : Schema → Option (List String)
  | .base tracked => if tracked then some [] else none
  | .initial _ => some [initialRevision]
  | .upgrading _ _ => some [initialRevision]
  | .hardened _ => some [storageSchemaHead]

/-- A database and the tokens that were drawn before the last upgrade. -/
structure Deployment where
  schema : Schema
  earlier : List Uuid

/-- What is done to the database. -/
inductive Action where
  | createTables
  /-- The `UPDATE` of the upgrade. -/
  | releaseLeases
  /-- The rest of it. -/
  | hardenLeases
  /-- It fails, or is given up. -/
  | rollBack
  | softenLeases
  | dropTables
  /-- A transaction of the older release. -/
  | olderRelease
  | call (call : Call)

/-- One step. -/
inductive Migrates : Deployment → Action → Deployment → Prop where
  | createTables {earlier : List Uuid} (tracked : Bool) :
      Migrates ⟨.base tracked, earlier⟩ .createTables ⟨.initial [], earlier⟩
  | releaseLeases {table : List InitialEvent} {earlier : List Uuid} :
      Migrates ⟨.initial table, earlier⟩ .releaseLeases
        ⟨.upgrading table (inFlight table), earlier⟩
  | hardenLeases {table : List InitialEvent} {written : List Uuid} {table' : List OutboxEvent}
      {earlier : List Uuid} :
      hardenLeases (released written table) = some table' →
      Migrates ⟨.upgrading table written, earlier⟩ .hardenLeases
        ⟨.hardened ⟨table', []⟩, earlier⟩
  | rollBack {table : List InitialEvent} {written earlier : List Uuid} :
      Migrates ⟨.upgrading table written, earlier⟩ .rollBack ⟨.initial table, earlier⟩
  | softenLeases {outbox : Outbox.State} {earlier : List Uuid} :
      Migrates ⟨.hardened outbox, earlier⟩ .softenLeases
        ⟨.initial (softenLeases outbox.table), drawnTokens outbox.log ++ earlier⟩
  | dropTables {table : List InitialEvent} {earlier : List Uuid} :
      Migrates ⟨.initial table, earlier⟩ .dropTables ⟨.base true, earlier⟩
  | olderRelease {table table' : List InitialEvent} {earlier : List Uuid} :
      (table'.map InitialEvent.id).Nodup →
      Migrates ⟨.initial table, earlier⟩ .olderRelease ⟨.initial table', earlier⟩
  /-- It waits for the rows that the upgrade has written. -/
  | meanwhile {table table' : List InitialEvent} {written earlier : List Uuid} :
      (table'.map InitialEvent.id).Nodup →
      (∀ event, event.id ∈ written → (event ∈ table' ↔ event ∈ table)) →
      Migrates ⟨.upgrading table written, earlier⟩ .olderRelease
        ⟨.upgrading table' written, earlier⟩
  | call {outbox outbox' : Outbox.State} {earlier : List Uuid} {call : Call} :
      Step outbox call outbox' →
      (∀ token ∈ drawnTokens outbox'.log, token ∉ earlier) →
      Migrates ⟨.hardened outbox, earlier⟩ (.call call) ⟨.hardened outbox', earlier⟩

/-- The databases, from an empty one. -/
def migrations : System Deployment Action where
  init d := d = ⟨.base false, []⟩
  step := Migrates

/-! ## The migrations -/

theorem releaseInFlight_status (event : InitialEvent) :
    (releaseInFlight event).status ≠ .processing := by
  unfold releaseInFlight
  split
  · simp
  · assumption

theorem releaseInFlight_id (event : InitialEvent) : (releaseInFlight event).id = event.id := by
  unfold releaseInFlight
  split <;> rfl

theorem processingHasLockToken_addLeaseColumns (event : InitialEvent) :
    processingHasLockToken (addLeaseColumns event) = true ↔ event.status ≠ .processing := by
  simp [processingHasLockToken, addLeaseColumns]

theorem hardenLeases_eq_some {table : List InitialEvent} {table' : List OutboxEvent} :
    hardenLeases table = some table' ↔
      (∀ event ∈ table, event.status ≠ .processing) ∧ table' = table.map addLeaseColumns := by
  simp only [hardenLeases]
  split
  next hall =>
    rw [List.all_map, List.all_eq_true] at hall
    simp only [Function.comp_apply, processingHasLockToken_addLeaseColumns] at hall
    simp only [Option.some.injEq, eq_comm (a := table'), iff_and_self]
    exact fun _ => hall
  next hall =>
    rw [List.all_map, List.all_eq_true] at hall
    simp only [Function.comp_apply, processingHasLockToken_addLeaseColumns] at hall
    simp [hall]

theorem mem_inFlight {table : List InitialEvent} {id : Uuid} :
    id ∈ inFlight table ↔ ∃ event ∈ table, event.status = .processing ∧ event.id = id := by
  simp [inFlight, and_assoc]

/-- The constraint is accepted when the events in flight are among those that were released, and
the upgrade has then released all of them. -/
theorem hardenLeases_released {table : List InitialEvent} {written : List Uuid}
    {table' : List OutboxEvent} :
    hardenLeases (released written table) = some table' ↔
      (∀ event ∈ table, event.status = .processing → event.id ∈ written) ∧
        table' = (table.map releaseInFlight).map addLeaseColumns := by
  have hstatus : (∀ event ∈ released written table, event.status ≠ .processing) ↔
      ∀ event ∈ table, event.status = .processing → event.id ∈ written := by
    simp only [released, List.forall_mem_map]
    refine forall₂_congr fun event _ => ?_
    split
    next hwritten => simp [releaseInFlight_status, List.contains_iff_mem.mp hwritten]
    next hwritten =>
      have hunwritten : event.id ∉ written := fun h => hwritten (List.contains_iff_mem.mpr h)
      simp [hunwritten]
  rw [hardenLeases_eq_some, hstatus]
  refine and_congr_right fun hflight => ?_
  have hreleased : released written table = table.map releaseInFlight := by
    refine List.map_congr_left fun event hevent => ?_
    split
    next => rfl
    next hwritten =>
      have hidle : event.status ≠ .processing := fun h =>
        hwritten (List.contains_iff_mem.mpr (hflight event hevent h))
      rw [releaseInFlight, if_neg hidle]
  rw [hreleased]

/-- Nothing is committed in between, and the upgrade succeeds. -/
theorem hardenLeases_inFlight (table : List InitialEvent) :
    hardenLeases (released (inFlight table) table) =
      some ((table.map releaseInFlight).map addLeaseColumns) :=
  hardenLeases_released.mpr
    ⟨fun event hevent hstatus => mem_inFlight.mpr ⟨event, hevent, hstatus, rfl⟩, rfl⟩

/-- An event after a downgrade and an upgrade: no lease and no token, and the first version. -/
def restarted (event : OutboxEvent) : OutboxEvent :=
  { event with
    status := if event.status = .processing then .pending else event.status
    lockedAt := if event.status = .processing then none else event.lockedAt
    lockedBy := if event.status = .processing then none else event.lockedBy
    lockToken := none
    version := 1 }

theorem hardenLeases_softenLeases (table : List OutboxEvent) :
    hardenLeases (released (inFlight (softenLeases table)) (softenLeases table)) =
      some (table.map restarted) := by
  rw [hardenLeases_inFlight, softenLeases, List.map_map, List.map_map]
  congr 2
  funext event
  by_cases h : event.status = .processing
  · simp [releaseInFlight, dropLeaseColumns, addLeaseColumns, restarted, h]
  · simp [releaseInFlight, dropLeaseColumns, addLeaseColumns, restarted, h]

/-! ## The invariant -/

/-- A row is processing under a token of the log, or holds no token. -/
def Holds (log : List Entry) (event : OutboxEvent) : Prop :=
  (event.status = .processing ∧
      ∃ token, event.lockToken = some token ∧ token ∈ drawnTokens log) ∨
    (event.status ≠ .processing ∧ event.lockToken = none)

/-- The rows of the outbox at the head. -/
structure Locked (outbox : Outbox.State) : Prop where
  ids : (outbox.table.map OutboxEvent.id).Nodup
  holds : ∀ event ∈ outbox.table, Holds outbox.log event

theorem Holds.later {log : List Entry} {event : OutboxEvent} (h : Holds log event)
    (later : List Entry) : Holds (later ++ log) event := by
  rcases h with ⟨hstatus, token, htoken, hdrawn⟩ | hidle
  · refine .inl ⟨hstatus, token, htoken, ?_⟩
    rw [drawnTokens, List.filterMap_append]
    exact List.mem_append_right _ hdrawn
  · exact .inr hidle

/-- Every transaction of the workers keeps the invariant. -/
theorem locked_step {outbox outbox' : Outbox.State} {call : Call} (h : Locked outbox)
    (hstep : Step outbox call outbox') : Locked outbox' := by
  cases hstep with
  | enqueue context id now createdAt topic eventType payload headers aggregateType aggregateId
      availableAt hevent hfresh =>
      subst hevent
      refine ⟨?_, ?_⟩
      · rw [List.map_append, List.nodup_append]
        refine ⟨h.ids, by simp, ?_⟩
        intro other hother new hnew hsame
        obtain rfl := List.mem_singleton.mp hnew
        exact hfresh (hsame ▸ hother)
      · intro event hevent
        rcases List.mem_append.mp hevent with hevent | hevent
        · exact (h.holds event hevent).later [_]
        · obtain rfl := List.mem_singleton.mp hevent
          exact .inr ⟨by simp [enqueueOutboxEvent], rfl⟩
  | @claim table events locked workerId batchSize staleAfter now uuid4 hclaim _ =>
      obtain ⟨-, rfl⟩ := claimOutboxEvents_ok hclaim
      refine ⟨?_, ?_⟩
      · rw [List.map_map]
        have hids : (OutboxEvent.id ∘ fun event => if event.id ∈ events.map OutboxEvent.id then
            claimEvent workerId now (uuid4 event.id) event else event) = OutboxEvent.id := by
          funext event
          rw [Function.comp_apply]
          split <;> rfl
        rw [hids]
        exact h.ids
      · intro event hevent
        obtain ⟨row, hrow, rfl⟩ := List.mem_map.mp hevent
        split
        · next hid =>
            obtain ⟨claimed, hclaimed, hsame⟩ := List.mem_map.mp hid
            refine .inl ⟨rfl, uuid4 row.id, rfl, ?_⟩
            rw [drawnTokens, List.filterMap_append, List.mem_append]
            refine .inl (List.mem_filterMap.mpr ⟨.claimed claimed.id (uuid4 claimed.id), ?_, ?_⟩)
            · exact List.mem_map.mpr ⟨claimed, hclaimed, rfl⟩
            · rw [hsame]
              rfl
        · exact (h.holds row hrow).later _
  | complete eventId lockToken shown publishedAt hcomplete =>
      obtain ⟨-, rfl⟩ := completeOutboxEvent_ok hcomplete
      refine ⟨?_, ?_⟩
      · rw [List.map_map]
        have hids : (OutboxEvent.id ∘ fun event => if leased eventId lockToken event then
            publishEvent publishedAt event else event) = OutboxEvent.id := by
          funext event
          rw [Function.comp_apply]
          split <;> rfl
        rw [hids]
        exact h.ids
      · intro event hevent
        obtain ⟨row, hrow, rfl⟩ := List.mem_map.mp hevent
        split
        · exact .inr ⟨by simp [publishEvent], rfl⟩
        · exact (h.holds row hrow).later [_]
  | fail eventId lockToken shown error maxAttempts baseDelaySeconds now hfail =>
      obtain ⟨row, hrow, -, marked, hmarked, rfl, rfl⟩ := failOutboxEvent_ok hfail
      obtain ⟨hid, hstatus, htoken, -⟩ := markOutboxFailed_ok hmarked
      refine ⟨?_, ?_⟩
      · rw [List.map_map]
        have hids : (OutboxEvent.id ∘ fun other => if other.id = row.id then marked.flush
            else other) = OutboxEvent.id := by
          funext other
          rw [Function.comp_apply]
          split
          · next hsame => exact hid.trans hsame.symm
          · rfl
        rw [hids]
        exact h.ids
      · intro event hevent
        obtain ⟨other, hother, rfl⟩ := List.mem_map.mp hevent
        split
        · refine .inr ⟨?_, htoken⟩
          rcases hstatus with h | h <;> simp [OutboxEvent.flush, h]
        · exact (h.holds other hother).later [_]
  | raised call => exact h
  | reorder hperm =>
      exact ⟨(hperm.map _).nodup_iff.mpr h.ids,
        fun event hevent => h.holds event (hperm.mem_iff.mp hevent)⟩

/-- What holds of a database at its revision. -/
def Deployment.Sound (d : Deployment) : Prop :=
  match d.schema with
  | .base _ => True
  | .initial table => (table.map InitialEvent.id).Nodup
  | .upgrading table _ => (table.map InitialEvent.id).Nodup
  | .hardened outbox => Locked outbox ∧ ∀ token ∈ drawnTokens outbox.log, token ∉ d.earlier

theorem sound_step {d d' : Deployment} {action : Action} (h : d.Sound)
    (hstep : Migrates d action d') : d'.Sound := by
  cases hstep with
  | createTables tracked => exact List.nodup_nil
  | releaseLeases => exact h
  | rollBack => exact h
  | meanwhile hids _ => exact hids
  | @hardenLeases table written table' earlier hharden =>
      obtain ⟨-, rfl⟩ := hardenLeases_released.mp hharden
      refine ⟨⟨?_, ?_⟩, by simp [drawnTokens]⟩
      · rw [List.map_map, List.map_map]
        have hids : (OutboxEvent.id ∘ addLeaseColumns) ∘ releaseInFlight = InitialEvent.id :=
          funext releaseInFlight_id
        rw [hids]
        exact h
      · intro event hevent
        rw [List.map_map] at hevent
        obtain ⟨before, -, rfl⟩ := List.mem_map.mp hevent
        exact .inr ⟨releaseInFlight_status before, rfl⟩
  | @softenLeases outbox earlier =>
      have hids : (softenLeases outbox.table).map InitialEvent.id =
          outbox.table.map OutboxEvent.id := by
        rw [softenLeases, List.map_map]
        rfl
      show ((softenLeases outbox.table).map InitialEvent.id).Nodup
      rw [hids]
      exact h.1.ids
  | dropTables => exact trivial
  | olderRelease hids => exact hids
  | call hcall hfresh => exact ⟨locked_step h.1 hcall, hfresh⟩

theorem sound_reaches {history : List Action} {d : Deployment}
    (h : migrations.Reaches history d) : d.Sound := by
  refine h.invariant (I := fun _ d => d.Sound) ?_ ?_
  · rintro d rfl
    exact trivial
  · intro _ _ _ _ _ hd hstep
    exact sound_step hd hstep

/-! ## Main result -/

/-- No worker settles an event with the token. -/
def Refuses (outbox : Outbox.State) (lockToken : Uuid) : Prop :=
  ∀ eventId shown publishedAt error maxAttempts baseDelaySeconds now,
    completeOutboxEvent outbox.table eventId lockToken shown publishedAt =
        .error (leaseLost shown) ∧
      failOutboxEvent outbox.table eventId lockToken shown error maxAttempts baseDelaySeconds now =
        .error (leaseLost shown)

/-- A token that no row holds is refused. -/
theorem Locked.refuses {outbox : Outbox.State} (h : Locked outbox) {lockToken : Uuid}
    (hunknown : lockToken ∉ drawnTokens outbox.log) : Refuses outbox lockToken := by
  have hnone : ∀ eventId, ∀ event ∈ outbox.table, ¬leased eventId lockToken event = true := by
    intro eventId event hevent hleased
    obtain ⟨-, hstatus, htoken⟩ := leased_iff.mp hleased
    rcases h.holds event hevent with ⟨-, token, hheld, hdrawn⟩ | ⟨hidle, -⟩
    · obtain rfl := Option.some.inj (hheld.symm.trans htoken)
      exact hunknown hdrawn
    · exact hidle hstatus
  intro eventId shown publishedAt error maxAttempts baseDelaySeconds now
  constructor
  · have hcount : outbox.table.countP (leased eventId lockToken) = 0 :=
      List.countP_eq_zero.mpr (hnone eventId)
    simp [completeOutboxEvent, hcount]
  · have hfind : outbox.table.find? (leased eventId lockToken) = none :=
      List.find?_eq_none.mpr (hnone eventId)
    simp [failOutboxEvent, hfind]

/-- In every run of migrations, of an older release and of workers:
the upgrade to the head succeeds exactly when no event is in flight but those it released, so
always when the older release commits nothing in between, and it keeps every event;
at the head every row satisfies its constraint and no token drawn before the last upgrade settles
an event;
a downgrade and an upgrade release the events in flight and begin the versions anew;
and the check at start-up passes exactly at the head. -/
theorem leases_across_migrations {history : List Action} {d : Deployment}
    (h : migrations.Reaches history d) :
    (∀ table written, d.schema = .upgrading table written →
      ((∃ table', hardenLeases (released written table) = some table') ↔
        ∀ event ∈ table, event.status = .processing → event.id ∈ written) ∧
      ∀ table', hardenLeases (released written table) = some table' →
        table' = (table.map releaseInFlight).map addLeaseColumns) ∧
    (∀ table, d.schema = .initial table → ∃ table',
      hardenLeases (released (inFlight table) table) = some table') ∧
    (∀ outbox, d.schema = .hardened outbox →
      (outbox.table.map OutboxEvent.id).Nodup ∧
      (∀ event ∈ outbox.table, processingHasLockToken event = true) ∧
      (∀ token ∈ d.earlier, Refuses outbox token) ∧
      hardenLeases (released (inFlight (softenLeases outbox.table)) (softenLeases outbox.table)) =
        some (outbox.table.map restarted)) ∧
    ((∃ report, requireSchemaCompatible d.schema.versions {} = .ok report) ↔
      ∃ outbox, d.schema = .hardened outbox) := by
  have hsound := sound_reaches h
  refine ⟨?_, ?_, ?_, ?_⟩
  · intro table written _
    refine ⟨⟨?_, ?_⟩, fun table' hharden => (hardenLeases_released.mp hharden).2⟩
    · rintro ⟨table', hharden⟩
      exact (hardenLeases_released.mp hharden).1
    · exact fun hflight => ⟨_, hardenLeases_released.mpr ⟨hflight, rfl⟩⟩
  · exact fun table _ => ⟨_, hardenLeases_inFlight table⟩
  · intro outbox hschema
    simp only [Deployment.Sound, hschema] at hsound
    obtain ⟨hlocked, hfresh⟩ := hsound
    refine ⟨hlocked.ids, ?_, ?_, hardenLeases_softenLeases _⟩
    · intro event hevent
      rcases hlocked.holds event hevent with ⟨hstatus, token, htoken, -⟩ | ⟨hstatus, htoken⟩
      · simp [processingHasLockToken, hstatus, htoken]
      · simp [processingHasLockToken, hstatus, htoken]
    · intro token htoken
      exact hlocked.refuses fun hdrawn => hfresh token hdrawn htoken
  · cases hschema : d.schema with
    | base tracked => cases tracked <;> simp [Schema.versions, requireSchemaCompatible_ok]
    | upgrading table written =>
        have hrevision :
            strip initialRevision ≠ "" ∧ strip initialRevision ≠ storageSchemaHead := by
          decide
        simp [Schema.versions, requireSchemaCompatible_ok, hrevision]
    | initial table =>
        have hrevision :
            strip initialRevision ≠ "" ∧ strip initialRevision ≠ storageSchemaHead := by
          decide
        simp [Schema.versions, requireSchemaCompatible_ok, hrevision]
    | hardened outbox =>
        have hrevision : storageSchemaHead ≠ "" ∧
            strip storageSchemaHead = storageSchemaHead := by decide
        simp [Schema.versions, requireSchemaCompatible_ok, hrevision]

/-- A worker claims an event, the lease migration is undone and done again, and the worker's token
is refused. -/
theorem leases_across_migrations_stale : ∃ d outbox, migrations.Reaches
    [.hardenLeases, .releaseLeases, .softenLeases, .call (.claim "worker" 5 1 20),
      .call (.enqueue sampleEvent), .hardenLeases, .releaseLeases, .createTables] d ∧
        d.schema = .hardened outbox ∧ 7 ∈ d.earlier ∧ Refuses outbox 7 := by
  have hempty : migrations.Reaches [] ⟨.base false, []⟩ := .init rfl
  have hhead := ((hempty.step (.createTables false)).step .releaseLeases).step
    (.hardenLeases (hardenLeases_inFlight _))
  have henqueued := hhead.step (.call (.enqueue {} 1 10 10 "orders" "created" [] none none none none
    rfl (by simp)) (by simp [drawnTokens, Entry.drawn]))
  have hclaimed := henqueued.step (.call (.claim (s := ⟨[sampleEvent], [.enqueued 1]⟩)
    (fun _ => false) "worker" 5 1 20 (fun _ => 7) sample_claimOutboxEvents (by decide))
    (by simp))
  have hagain := ((hclaimed.step .softenLeases).step .releaseLeases).step
    (.hardenLeases (hardenLeases_inFlight _))
  refine ⟨_, _, hagain, rfl, by decide, ?_⟩
  exact ((leases_across_migrations hagain).2.2.1 _ rfl).2.2.1 7 (by decide)

end ProdkitStorage.Alembic

import ProdkitStorage.Foundation.Ordering
import ProdkitStorage.Outbox.Lease

/-!
# Dispatch

What a claim takes, and that it can take every event in the end.

A row that no `WHERE` clause of a claim can match is work nobody is told about.
The clause asks for a pending row, or a processing one whose lease is old, so the
only fields that can hide a row for ever are the status and `locked_at`:
`step_row` says what one transaction can write into a row, and none of it is a
processing row without `locked_at`.
-/

namespace ProdkitStorage.Outbox

open ProdkitStorage.Foundation (FirstOf firstOf_take_mergeSort)
open ProdkitStorage.Python

/-! ## What one transaction writes -/

/-- A row that a transaction wrote. -/
inductive Written (s : State) : Call → OutboxEvent → Prop where
  | enqueued {event : OutboxEvent} :
      event.status = .pending → event.attempts = 0 → Written s (.enqueue event) event
  | claimed {row : OutboxEvent} (workerId : String) (batchSize staleAfter : Int) (now : Instant)
      (token : Uuid) :
      row ∈ s.table → claimable now (now - staleAfter) row = true →
      Written s (.claim workerId batchSize staleAfter now) (claimEvent workerId now token row)
  | published {row : OutboxEvent} (eventId lockToken : Uuid) (publishedAt : Instant) :
      row ∈ s.table → Written s (.complete eventId lockToken) (publishEvent publishedAt row)
  | failed {row marked : OutboxEvent} (eventId lockToken : Uuid) (error : String)
      (maxAttempts baseDelaySeconds : Int) (now : Instant) :
      row ∈ s.table → markOutboxFailed row error maxAttempts baseDelaySeconds now = .ok marked →
      Written s (.fail eventId lockToken) marked.flush

/-- A row after a transaction was there before it, or the transaction wrote it. -/
theorem step_row {s t : State} {call : Call} (hs : LeaseInvariant s) (hstep : Step s call t)
    {event : OutboxEvent} (hevent : event ∈ t.table) :
    event ∈ s.table ∨ Written s call event := by
  cases hstep with
  | enqueue context id now createdAt topic eventType payload headers aggregateType aggregateId
      availableAt henqueued _ =>
      rcases List.mem_append.mp hevent with h | h
      · exact .inl h
      · obtain rfl := List.mem_singleton.mp h
        exact .inr (.enqueued (by rw [henqueued]; rfl) (by rw [henqueued]; rfl))
  | @claim table events locked workerId batchSize staleAfter now uuid4 hclaim _ =>
      obtain ⟨hids, rfl⟩ := claimOutboxEvents_ok hclaim
      obtain ⟨row, hrow, rfl⟩ := List.mem_map.mp hevent
      by_cases hid : row.id ∈ events.map OutboxEvent.id
      · rw [if_pos hid]
        rw [hids] at hid
        obtain ⟨selected, hselected, heq⟩ := List.mem_map.mp hid
        obtain ⟨hmem, hclaimable, -⟩ := mem_selectForClaim hselected
        obtain rfl := hs.row_unique hmem hrow heq
        exact .inr (.claimed workerId batchSize staleAfter now _ hrow hclaimable)
      · rw [if_neg hid]
        exact .inl hrow
  | complete eventId lockToken shown publishedAt hcomplete =>
      obtain ⟨-, rfl⟩ := completeOutboxEvent_ok hcomplete
      obtain ⟨row, hrow, rfl⟩ := List.mem_map.mp hevent
      split
      · exact .inr (.published eventId lockToken publishedAt hrow)
      · exact .inl hrow
  | fail eventId lockToken shown error maxAttempts baseDelaySeconds now hfail =>
      obtain ⟨row, hrow, -, marked, hmarked, rfl, rfl⟩ := failOutboxEvent_ok hfail
      obtain ⟨other, hother, rfl⟩ := List.mem_map.mp hevent
      split
      · exact .inr (.failed eventId lockToken error maxAttempts baseDelaySeconds now hrow hmarked)
      · exact .inl hother
  | raised call => exact .inl hevent
  | reorder hperm => exact .inl (hperm.mem_iff.mp hevent)

/-! ## No event is stranded -/

/-- A row the `WHERE` clause of a claim can match. -/
def Recoverable (event : OutboxEvent) : Prop :=
  event.status = .processing → event.lockedAt ≠ none

/-- No operation writes a processing row without `locked_at`. -/
theorem Written.recoverable {s : State} {call : Call} {event : OutboxEvent}
    (hwritten : Written s call event) : Recoverable event := by
  intro hprocessing
  cases hwritten with
  | enqueued hpending _ =>
      rw [hpending] at hprocessing
      cases hprocessing
  | claimed workerId batchSize staleAfter now token _ _ =>
      simp [claimEvent, OutboxEvent.flush]
  | published => cases hprocessing
  | failed eventId lockToken error maxAttempts baseDelaySeconds now _ hmarked =>
      rcases (markOutboxFailed_ok hmarked).2.1 with h | h
      · simp [OutboxEvent.flush, h] at hprocessing
      · simp [OutboxEvent.flush, h] at hprocessing

theorem reaches_recoverable {h : List Call} {s : State} (hr : outbox.Reaches h s) :
    ∀ event ∈ s.table, Recoverable event := by
  refine hr.invariant (I := fun _ s => ∀ event ∈ s.table, Recoverable event) ?_ ?_
  · rintro s rfl event hevent
    cases hevent
  · intro _ s call t hreaches hs hstep event hevent
    rcases step_row (reaches_invariant hreaches) hstep hevent with hold | hwritten
    · exact hs event hold
    · exact hwritten.recoverable

/-- The instant from which on a claim matches the row. -/
def dueAt (staleAfter : Int) (event : OutboxEvent) : Instant :=
  match event.lockedAt with
  | none => event.availableAt
  | some lockedAt => max event.availableAt (lockedAt + staleAfter + 1)

/-- From then on the `WHERE` clause is true of the row. -/
theorem claimable_of_dueAt {event : OutboxEvent} {staleAfter : Int}
    (hstatus : event.status = .pending ∨ event.status = .processing) {now : Instant}
    (hnow : dueAt staleAfter event ≤ now) : claimable now (now - staleAfter) event = true := by
  unfold dueAt at hnow
  cases hlocked : event.lockedAt with
  | none =>
      rw [hlocked] at hnow
      rcases hstatus with h | h
      · simpa [claimable, h] using hnow
      · simpa [claimable, h, hlocked] using hnow
  | some lockedAt =>
      rw [hlocked] at hnow
      have havailable : event.availableAt ≤ now := le_trans (le_max_left _ _) hnow
      have hstale : lockedAt + staleAfter + 1 ≤ now := le_trans (le_max_right _ _) hnow
      rcases hstatus with h | h
      · simpa [claimable, h] using havailable
      · have hbefore : lockedAt < now - staleAfter := by
          rw [Int.lt_sub_right_iff_add_lt]
          exact hstale
        simp [claimable, h, hlocked, havailable, hbefore]

/-! ## What a claim takes -/

theorem dispatchOrder_iff {a b : OutboxEvent} :
    dispatchOrder a b = true ↔ a.availableAt < b.availableAt ∨
      a.availableAt = b.availableAt ∧ a.createdAt ≤ b.createdAt := by
  simp [dispatchOrder]

/-- A claim selects the first rows that it may take. -/
theorem selectForClaim_firstOf (table : List OutboxEvent) (locked : Uuid → Bool) (batchSize : Int)
    (now staleBefore : Instant) :
    FirstOf dispatchOrder batchSize.toNat
      (table.filter fun event => claimable now staleBefore event && !locked event.id)
      (selectForClaim table locked batchSize now staleBefore) := by
  refine firstOf_take_mergeSort ?_ ?_ _ _
  · intro a b c hab hbc
    rw [dispatchOrder_iff] at hab hbc ⊢
    rcases hab with hab | ⟨hab, hab'⟩
    · exact .inl (lt_of_lt_of_le hab (hbc.elim le_of_lt fun h => h.1.le))
    · rw [hab]
      exact hbc.imp_right fun h => ⟨h.1, hab'.trans h.2⟩
  · intro a b
    rw [Bool.or_eq_true, dispatchOrder_iff, dispatchOrder_iff]
    rcases lt_trichotomy a.availableAt b.availableAt with h | h | h
    · exact .inl (.inl h)
    · exact (le_total a.createdAt b.createdAt).imp (fun hc => .inr ⟨h, hc⟩)
        fun hc => .inr ⟨h.symm, hc⟩
    · exact .inr (.inl h)

/-- What a claim does in a state, with the rows `events` it returns. -/
structure Dispatched (s : State) (locked : Uuid → Bool) (workerId : String)
    (batchSize staleAfter : Int) (now : Instant) (uuid4 : Uuid → Uuid)
    (table events : List OutboxEvent) : Prop where
  /-- It takes the first rows of those that are due and not locked by another transaction. -/
  first : ∃ rows, FirstOf dispatchOrder batchSize.toNat
      (s.table.filter fun event => claimable now (now - staleAfter) event && !locked event.id)
        rows ∧
    events = rows.map fun row => claimEvent workerId now (uuid4 row.id) row
  /-- They are what the table now holds under their ids; every other row is as before. -/
  written : ∀ row ∈ s.table, ∃ row' ∈ table, row'.id = row.id ∧
    (row' ∈ events ∨ row.id ∉ events.map OutboxEvent.id ∧ row' = row)
  /-- It takes distinct events. -/
  distinct : (events.map OutboxEvent.id).Nodup
  /-- Each gets a token of its own. -/
  tokens : (events.map OutboxEvent.lockToken).Nodup
  /-- The tokens are no row's and no earlier lease's. -/
  fresh : ∀ event ∈ events, ∃ token, event.lockToken = some token ∧
    (∀ row ∈ s.table, row.lockToken ≠ some token) ∧ token ∉ drawnTokens s.log

theorem claimEvent_id (workerId : String) (now : Instant) (token : Uuid) (event : OutboxEvent) :
    (claimEvent workerId now token event).id = event.id := rfl

/-- A claim whose draws are fresh takes the first rows and fences each with its own token. -/
theorem LeaseInvariant.dispatched {s : State} (hs : LeaseInvariant s) {locked : Uuid → Bool}
    {workerId : String} {batchSize staleAfter : Int} {now : Instant} {uuid4 : Uuid → Uuid}
    {table events : List OutboxEvent}
    (hclaim : claimOutboxEvents s.table locked workerId batchSize staleAfter now uuid4 =
      .ok (table, events))
    (hfresh : (events.map (fun event => uuid4 event.id) ++ drawnTokens s.log).Nodup) :
    Dispatched s locked workerId batchSize staleAfter now uuid4 table events := by
  obtain ⟨hids, htable⟩ := claimOutboxEvents_ok hclaim
  have hevents : events = (selectForClaim s.table locked batchSize now (now - staleAfter)).map
      fun row => claimEvent workerId now (uuid4 row.id) row := by
    unfold claimOutboxEvents at hclaim
    obtain ⟨_, -, hclaim⟩ := bind_eq_ok.mp hclaim
    simp only [pure_eq_ok, Except.ok.injEq, Prod.mk.injEq] at hclaim
    exact hclaim.2.symm
  have hshape : ∀ event ∈ events, event.lockToken = some (uuid4 event.id) := by
    intro event hevent
    rw [hevents] at hevent
    obtain ⟨row, -, rfl⟩ := List.mem_map.mp hevent
    rfl
  obtain ⟨hdrawn, -, hdisjoint⟩ := List.nodup_append.mp hfresh
  refine ⟨⟨_, selectForClaim_firstOf _ _ _ _ _, hevents⟩, ?_, ?_, ?_, ?_⟩
  · intro row hrow
    refine ⟨_, htable ▸ List.mem_map_of_mem hrow, ?_⟩
    by_cases hid : row.id ∈ events.map OutboxEvent.id
    · rw [if_pos hid]
      refine ⟨claimEvent_id _ _ _ _, .inl ?_⟩
      rw [hids] at hid
      obtain ⟨selected, hselected, heq⟩ := List.mem_map.mp hid
      obtain rfl := hs.row_unique (mem_selectForClaim hselected).1 hrow heq
      rw [hevents]
      exact List.mem_map_of_mem hselected
    · rw [if_neg hid]
      exact ⟨rfl, .inr ⟨hid, rfl⟩⟩
  · rw [hids]
    exact selectForClaim_nodup hs.ids _ _ _ _
  · have htokens : events.map OutboxEvent.lockToken =
        (events.map fun event => uuid4 event.id).map some := by
      rw [List.map_map]
      exact List.map_congr_left hshape
    rw [htokens]
    exact hdrawn.map (Option.some_injective _)
  · intro event hevent
    have hnew : uuid4 event.id ∉ drawnTokens s.log := by
      intro hold
      exact hdisjoint _ (List.mem_map_of_mem hevent) _ hold rfl
    refine ⟨uuid4 event.id, hshape event hevent, ?_, hnew⟩
    intro row hrow htoken
    have hlogged := (hs.rows row hrow).token_claimed htoken
    exact hnew (List.mem_filterMap.mpr ⟨_, hlogged, rfl⟩)

/-- What dispatch promises in a state. -/
structure NothingStranded (s : State) : Prop where
  /-- An event that is not settled is pending, or processing under a dated lease. -/
  open_ : ∀ event ∈ s.table, event.status ≠ .published → event.status ≠ .dead →
    event.status = .pending ∨ event.status = .processing ∧ event.lockedAt ≠ none
  /-- There is an instant from which on every claim may take it. -/
  due : ∀ event ∈ s.table, event.status ≠ .published → event.status ≠ .dead → ∀ staleAfter,
    ∃ t : Instant, ∀ now, t ≤ now → claimable now (now - staleAfter) event = true

/-- In every state any interleaving of the workers' transactions reaches, no event is stranded,
and every claim takes the first rows it may take, each under a fresh token of its own. -/
theorem outbox_dispatch {h : List Call} {s : State} (hr : outbox.Reaches h s) :
    NothingStranded s ∧ ∀ locked workerId batchSize staleAfter now uuid4 table events,
      claimOutboxEvents s.table locked workerId batchSize staleAfter now uuid4 =
          .ok (table, events) →
        (events.map (fun event => uuid4 event.id) ++ drawnTokens s.log).Nodup →
          Dispatched s locked workerId batchSize staleAfter now uuid4 table events := by
  have hopen : ∀ event : OutboxEvent, event.status ≠ .published → event.status ≠ .dead →
      event.status = .pending ∨ event.status = .processing := by
    intro event hpublished hdead
    cases hstatus : event.status with
    | pending => exact .inl rfl
    | processing => exact .inr rfl
    | published => exact absurd hstatus hpublished
    | dead => exact absurd hstatus hdead
  refine ⟨⟨?_, ?_⟩, ?_⟩
  · intro event hevent hpublished hdead
    refine (hopen event hpublished hdead).imp_right ?_
    intro hprocessing
    exact ⟨hprocessing, reaches_recoverable hr event hevent hprocessing⟩
  · intro event _ hpublished hdead staleAfter
    exact ⟨dueAt staleAfter event, fun now hnow =>
      claimable_of_dueAt (hopen event hpublished hdead) hnow⟩
  · intro locked workerId batchSize staleAfter now uuid4 table events hclaim hfresh
    exact (reaches_invariant hr).dispatched hclaim hfresh

/-- An event a worker holds is not stranded when the worker is lost. -/
theorem outbox_dispatch_claimed :
    let s : State := ⟨[claimEvent "worker" 20 7 sampleEvent], [.claimed 1 7, .enqueued 1]⟩
    NothingStranded s ∧ ∀ locked workerId batchSize staleAfter now uuid4 table events,
      claimOutboxEvents s.table locked workerId batchSize staleAfter now uuid4 =
          .ok (table, events) →
        (events.map (fun event => uuid4 event.id) ++ drawnTokens s.log).Nodup →
          Dispatched s locked workerId batchSize staleAfter now uuid4 table events :=
  outbox_dispatch sample_claimed

end ProdkitStorage.Outbox

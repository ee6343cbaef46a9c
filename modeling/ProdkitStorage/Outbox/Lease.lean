import Mathlib.Data.List.Nodup
import ProdkitStorage.Foundation.Transition
import ProdkitStorage.Outbox.Event

/-!
# Lease fencing of the outbox

The outbox as a transition system.  A state is the committed table with a ghost
log of what every committed transaction did to which event, newest entry first.
A step is one committed transaction of any worker, or one that raised and left
no trace: the workers share nothing but the table, so every interleaving of
their transactions is a run.  A step takes its clock, its tokens and the event
id from outside, so a worker may stall, retry with an old token or be lost.

A claim is the *current lease* of an event while no later entry of the log
speaks of that event (`latest`).  `LeaseInvariant` ties each row to the log:
the status says which kind of entry came last, the token is the one of the
current lease, and the two counters count entries.  One step lemma per operation keeps it.
-/

namespace ProdkitStorage.Outbox

open ProdkitStorage.Foundation (System)
open ProdkitStorage.Python

/-! ## The log -/

/-- What a committed transaction did to an event. -/
inductive Entry where
  | enqueued (id : Uuid)
  | claimed (id token : Uuid)
  | published (id token : Uuid)
  | failed (id token : Uuid)
deriving DecidableEq

/-- The event an entry speaks of. -/
def Entry.event : Entry → Uuid
  | .enqueued id => id
  | .claimed id _ => id
  | .published id _ => id
  | .failed id _ => id

/-- The token a claim drew. -/
def Entry.drawn : Entry → Option Uuid
  | .claimed _ token => some token
  | _ => none

/-- The token a settlement carried. -/
def Entry.settled : Entry → Option Uuid
  | .published _ token => some token
  | .failed _ token => some token
  | _ => none

/-- The last entry about an event. -/
def latest (id : Uuid) (log : List Entry) : Option Entry :=
  log.find? fun entry => entry.event == id

/-- The number of claims of an event. -/
def claims (id : Uuid) (log : List Entry) : Nat :=
  log.countP fun entry => entry.event == id && entry.drawn.isSome

/-- The number of committed changes of an event after its enqueue. -/
def changes (id : Uuid) (log : List Entry) : Nat :=
  log.countP fun entry => entry.event == id && (entry.drawn.isSome || entry.settled.isSome)

/-- The tokens drawn so far. -/
def drawnTokens (log : List Entry) : List Uuid := log.filterMap Entry.drawn

/-- The number of settlements a token was accepted for. -/
def settlements (token : Uuid) (log : List Entry) : Nat :=
  log.countP fun entry => entry.settled == some token

/-! ## The transition system -/

/-- The committed table and the ghost log. -/
structure State where
  table : List OutboxEvent
  log : List Entry

/-- The transactions. -/
inductive Call where
  | enqueue (event : OutboxEvent)
  | claim (workerId : String) (batchSize staleAfter : Int) (now : Instant)
  | complete (eventId lockToken : Uuid)
  | fail (eventId lockToken : Uuid)
  /-- The server moves rows around; ties of the claim's order may fall differently. -/
  | reorder

/-- One transaction. -/
inductive Step : State → Call → State → Prop where
  | enqueue {s : State} {event : OutboxEvent} (context : RequestContext) (id : Uuid)
      (now createdAt : Instant) (topic eventType : String) (payload : _) (headers : _)
      (aggregateType aggregateId : Option String) (availableAt : Option Instant) :
      event = enqueueOutboxEvent context id now createdAt topic eventType payload headers
        aggregateType aggregateId availableAt →
      id ∉ s.table.map OutboxEvent.id →
      Step s (.enqueue event) ⟨s.table ++ [event], .enqueued id :: s.log⟩
  | claim {s : State} {table events : List OutboxEvent} (locked : Uuid → Bool)
      (workerId : String) (batchSize staleAfter : Int) (now : Instant) (uuid4 : Uuid → Uuid) :
      claimOutboxEvents s.table locked workerId batchSize staleAfter now uuid4 =
        .ok (table, events) →
      (events.map (fun event => uuid4 event.id) ++ drawnTokens s.log).Nodup →
      Step s (.claim workerId batchSize staleAfter now)
        ⟨table, events.map (fun event => .claimed event.id (uuid4 event.id)) ++ s.log⟩
  | complete {s : State} {table : List OutboxEvent} (eventId lockToken : Uuid) (shown : String)
      (publishedAt : Instant) :
      completeOutboxEvent s.table eventId lockToken shown publishedAt = .ok table →
      Step s (.complete eventId lockToken) ⟨table, .published eventId lockToken :: s.log⟩
  | fail {s : State} {table : List OutboxEvent} {event : OutboxEvent} (eventId lockToken : Uuid)
      (shown error : String) (maxAttempts baseDelaySeconds : Int) (now : Instant) :
      failOutboxEvent s.table eventId lockToken shown error maxAttempts baseDelaySeconds now =
        .ok (table, event) →
      Step s (.fail eventId lockToken) ⟨table, .failed eventId lockToken :: s.log⟩
  | raised {s : State} (call : Call) : Step s call s
  | reorder {s : State} {table : List OutboxEvent} :
      table.Perm s.table → Step s .reorder ⟨table, s.log⟩

/-- The outbox, from an empty table. -/
def outbox : System State Call where
  init s := s = ⟨[], []⟩
  step := Step

/-! ## Reading the log -/

@[simp] theorem latest_cons (id : Uuid) (entry : Entry) (log : List Entry) :
    latest id (entry :: log) = if entry.event = id then some entry else latest id log := by
  by_cases h : entry.event = id
  · simp [latest, h]
  · simp [latest, h]

theorem latest_mem {id : Uuid} {log : List Entry} {entry : Entry}
    (h : latest id log = some entry) : entry ∈ log :=
  List.mem_of_find?_eq_some h

@[simp] theorem claims_cons (id : Uuid) (entry : Entry) (log : List Entry) :
    claims id (entry :: log) =
      claims id log + if entry.event = id ∧ entry.drawn.isSome then 1 else 0 := by
  simp [claims, List.countP_cons]

@[simp] theorem changes_cons (id : Uuid) (entry : Entry) (log : List Entry) :
    changes id (entry :: log) = changes id log +
      if entry.event = id ∧ (entry.drawn.isSome ∨ entry.settled.isSome) then 1 else 0 := by
  simp [changes, List.countP_cons]

@[simp] theorem settlements_cons (token : Uuid) (entry : Entry) (log : List Entry) :
    settlements token (entry :: log) =
      settlements token log + if entry.settled = some token then 1 else 0 := by
  simp [settlements, List.countP_cons]

@[simp] theorem drawnTokens_cons (entry : Entry) (log : List Entry) :
    drawnTokens (entry :: log) = entry.drawn.toList ++ drawnTokens log := by
  cases h : entry.drawn with
  | none => simp [drawnTokens, h]
  | some token => simp [drawnTokens, h]

/-- A token is drawn once, so it names one claim. -/
theorem drawn_unique {log : List Entry} (hlog : (drawnTokens log).Nodup) {a b : Entry}
    {token : Uuid} (ha : a ∈ log) (hb : b ∈ log) (hat : a.drawn = some token)
    (hbt : b.drawn = some token) : a = b := by
  induction log with
  | nil => cases ha
  | cons entry log ih =>
      rw [drawnTokens_cons, List.nodup_append] at hlog
      obtain ⟨-, hlog, hdisj⟩ := hlog
      have hmem : ∀ x ∈ log, x.drawn = some token → token ∈ drawnTokens log :=
        fun x hx hxt => List.mem_filterMap.mpr ⟨x, hx, hxt⟩
      rcases List.mem_cons.mp ha with hae | hal
      · rcases List.mem_cons.mp hb with hbe | hbl
        · exact hae.trans hbe.symm
        · exact absurd rfl (hdisj token (by simp [← hae, hat]) token (hmem b hbl hbt))
      · rcases List.mem_cons.mp hb with hbe | hbl
        · exact absurd rfl (hdisj token (by simp [← hbe, hbt]) token (hmem a hal hat))
        · exact ih hlog hal hbl

/-! ### A batch of claims -/

/-- The entries of one claim transaction. -/
def batch (uuid4 : Uuid → Uuid) (ids : List Uuid) : List Entry :=
  ids.map fun id => .claimed id (uuid4 id)

theorem latest_batch (uuid4 : Uuid → Uuid) (id : Uuid) (log : List Entry) :
    ∀ ids : List Uuid, latest id (batch uuid4 ids ++ log) =
      if id ∈ ids then some (.claimed id (uuid4 id)) else latest id log
  | [] => by simp [batch]
  | other :: ids => by
      have ih := latest_batch uuid4 id log ids
      by_cases h : other = id
      · subst h
        simp [batch, Entry.event]
      · have h' : id ≠ other := Ne.symm h
        simp only [batch, List.map_cons, List.cons_append, latest_cons, Entry.event, h, if_false,
          List.mem_cons, h', false_or]
        exact ih

/-- A claim transaction adds one entry for each event it claimed. -/
theorem countP_batch (uuid4 : Uuid → Uuid) (id : Uuid) (log : List Entry) (ids : List Uuid)
    {p : Entry → Bool} (hp : ∀ other token, p (.claimed other token) = (other == id)) :
    (batch uuid4 ids ++ log).countP p = log.countP p + ids.count id := by
  have hids : (batch uuid4 ids).countP p = ids.count id := by
    rw [batch, List.countP_map, List.count]
    exact List.countP_congr fun other _ => by simp [hp]
  rw [List.countP_append, hids, Nat.add_comm]

theorem claims_batch (uuid4 : Uuid → Uuid) (id : Uuid) (log : List Entry) (ids : List Uuid) :
    claims id (batch uuid4 ids ++ log) = claims id log + ids.count id :=
  countP_batch uuid4 id log ids fun _ _ => by simp [Entry.event, Entry.drawn]

theorem changes_batch (uuid4 : Uuid → Uuid) (id : Uuid) (log : List Entry) (ids : List Uuid) :
    changes id (batch uuid4 ids ++ log) = changes id log + ids.count id :=
  countP_batch uuid4 id log ids fun _ _ => by simp [Entry.event, Entry.drawn]

theorem settlements_batch (uuid4 : Uuid → Uuid) (token : Uuid) (log : List Entry)
    (ids : List Uuid) : settlements token (batch uuid4 ids ++ log) = settlements token log := by
  have hnone : (batch uuid4 ids).countP (fun entry => entry.settled == some token) = 0 := by
    rw [List.countP_eq_zero]
    intro entry hentry
    obtain ⟨id, -, rfl⟩ := List.mem_map.mp hentry
    simp [Entry.settled]
  rw [settlements, List.countP_append, hnone, Nat.zero_add, settlements]

theorem drawnTokens_batch (uuid4 : Uuid → Uuid) (log : List Entry) (ids : List Uuid) :
    drawnTokens (batch uuid4 ids ++ log) = ids.map uuid4 ++ drawnTokens log := by
  have hdrawn : (batch uuid4 ids).filterMap Entry.drawn = ids.map uuid4 := by
    rw [batch, List.filterMap_map, ← List.filterMap_eq_map]
    rfl
  rw [drawnTokens, List.filterMap_append, hdrawn, drawnTokens]

/-! ## What an operation does to one row -/

/-- A claim changes the rows it selected and no other. -/
theorem claimOutboxEvents_ok {table table' events : List OutboxEvent} {locked : Uuid → Bool}
    {workerId : String} {batchSize staleAfter : Int} {now : Instant} {uuid4 : Uuid → Uuid}
    (h : claimOutboxEvents table locked workerId batchSize staleAfter now uuid4 =
      .ok (table', events)) :
    events.map OutboxEvent.id =
        (selectForClaim table locked batchSize now (now - staleAfter)).map OutboxEvent.id ∧
      table' = table.map fun event =>
        if event.id ∈ events.map OutboxEvent.id then
          claimEvent workerId now (uuid4 event.id) event else event := by
  unfold claimOutboxEvents at h
  obtain ⟨_, -, h⟩ := bind_eq_ok.mp h
  simp only [pure_eq_ok, Except.ok.injEq, Prod.mk.injEq] at h
  obtain ⟨rfl, rfl⟩ := h
  have hid : ∀ events : List OutboxEvent,
      (events.map fun event => claimEvent workerId now (uuid4 event.id) event).map OutboxEvent.id =
        events.map OutboxEvent.id := by
    intro events
    simp [claimEvent, OutboxEvent.flush, Function.comp_def]
  exact ⟨hid _, by rw [hid]⟩

/-- A row a claim selects satisfies its `WHERE` clause. -/
theorem mem_selectForClaim {table : List OutboxEvent} {locked : Uuid → Bool} {batchSize : Int}
    {now staleBefore : Instant} {event : OutboxEvent}
    (h : event ∈ selectForClaim table locked batchSize now staleBefore) :
    event ∈ table ∧ claimable now staleBefore event = true ∧ locked event.id = false := by
  have h' := List.mem_mergeSort.mp (List.mem_of_mem_take h)
  simpa [and_assoc] using List.mem_filter.mp h'

/-- A claim selects an event at most once. -/
theorem selectForClaim_nodup {table : List OutboxEvent} (hids : (table.map OutboxEvent.id).Nodup)
    (locked : Uuid → Bool) (batchSize : Int) (now staleBefore : Instant) :
    ((selectForClaim table locked batchSize now staleBefore).map OutboxEvent.id).Nodup := by
  unfold selectForClaim
  rw [List.map_take]
  refine List.Nodup.sublist (List.take_sublist _ _) ?_
  refine ((List.mergeSort_perm _ _).map _).nodup_iff.mpr ?_
  exact hids.sublist (List.filter_sublist.map _)

/-- `complete_outbox_event` returns only when a row holds the token. -/
theorem completeOutboxEvent_ok {table table' : List OutboxEvent} {eventId lockToken : Uuid}
    {shown : String} {publishedAt : Instant}
    (h : completeOutboxEvent table eventId lockToken shown publishedAt = .ok table') :
    (∃ event ∈ table, leased eventId lockToken event = true) ∧
      table' = table.map fun event =>
        if leased eventId lockToken event then publishEvent publishedAt event else event := by
  simp only [completeOutboxEvent] at h
  split at h
  · cases h
  · next hcount =>
      refine ⟨?_, (Except.ok.inj h).symm⟩
      rw [← List.countP_pos_iff]
      omega

/-- `mark_outbox_failed` gives up the lease and keeps the counters. -/
theorem markOutboxFailed_ok {event failed : OutboxEvent} {error : String}
    {maxAttempts baseDelaySeconds : Int} {now : Instant}
    (h : markOutboxFailed event error maxAttempts baseDelaySeconds now = .ok failed) :
    failed.id = event.id ∧ (failed.status = .dead ∨ failed.status = .pending) ∧
      failed.lockToken = none ∧ failed.attempts = event.attempts ∧
      failed.version = event.version := by
  unfold markOutboxFailed at h
  split at h
  · cases h
  split at h
  · cases h
  dsimp only at h
  split at h
  · cases h
    exact ⟨rfl, .inl rfl, rfl, rfl, rfl⟩
  · cases h
    exact ⟨rfl, .inr rfl, rfl, rfl, rfl⟩

/-- `mark_outbox_failed` returns when its options are positive. -/
theorem markOutboxFailed_isOk (event : OutboxEvent) (error : String)
    {maxAttempts baseDelaySeconds : Int} (now : Instant) (hmax : 0 < maxAttempts)
    (hdelay : 0 < baseDelaySeconds) :
    ∃ failed, markOutboxFailed event error maxAttempts baseDelaySeconds now = .ok failed := by
  unfold markOutboxFailed
  rw [if_neg (by omega), if_neg (by omega)]
  dsimp only
  split
  · exact ⟨_, rfl⟩
  · exact ⟨_, rfl⟩

/-- `fail_outbox_event` returns only when a row holds the token, and replaces that row. -/
theorem failOutboxEvent_ok {table table' : List OutboxEvent} {failed : OutboxEvent}
    {eventId lockToken : Uuid} {shown error : String} {maxAttempts baseDelaySeconds : Int}
    {now : Instant}
    (h : failOutboxEvent table eventId lockToken shown error maxAttempts baseDelaySeconds now =
      .ok (table', failed)) :
    ∃ event ∈ table, leased eventId lockToken event = true ∧
      ∃ marked, markOutboxFailed event error maxAttempts baseDelaySeconds now = .ok marked ∧
        failed = marked.flush ∧
        table' = table.map fun row => if row.id = event.id then failed else row := by
  unfold failOutboxEvent at h
  cases hf : table.find? (leased eventId lockToken) with
  | none => rw [hf] at h; cases h
  | some event =>
      rw [hf] at h
      obtain ⟨marked, hm, h⟩ := bind_eq_ok.mp h
      simp only [pure_eq_ok, Except.ok.injEq, Prod.mk.injEq] at h
      obtain ⟨rfl, rfl⟩ := h
      refine ⟨event, List.mem_of_find?_eq_some hf, List.find?_some hf, marked, hm, rfl, ?_⟩
      have hid : marked.flush.id = event.id := (markOutboxFailed_ok hm).1
      rw [hid]

theorem leased_iff {eventId lockToken : Uuid} {event : OutboxEvent} :
    leased eventId lockToken event = true ↔
      event.id = eventId ∧ event.status = .processing ∧ event.lockToken = some lockToken := by
  simp [leased, and_assoc]

/-! ## The invariant -/

/-- A row agrees with the log. -/
structure RowInvariant (log : List Entry) (event : OutboxEvent) : Prop where
  /-- A processing event is under its current lease and stores that lease's token. -/
  processing : event.status = .processing →
    ∃ token, event.lockToken = some token ∧ latest event.id log = some (.claimed event.id token)
  /-- Any other event stores no token, and its last lease is settled. -/
  idle : event.status ≠ .processing →
    event.lockToken = none ∧ ∀ token, latest event.id log ≠ some (.claimed event.id token)
  attempts : event.attempts = claims event.id log
  version : event.version = 1 + changes event.id log

/-- The table agrees with the log. -/
structure LeaseInvariant (s : State) : Prop where
  ids : (s.table.map OutboxEvent.id).Nodup
  rows : ∀ event ∈ s.table, RowInvariant s.log event
  /-- The log speaks of stored events only, since no row is ever deleted. -/
  known : ∀ entry ∈ s.log, entry.event ∈ s.table.map OutboxEvent.id
  drawn : (drawnTokens s.log).Nodup
  settledDrawn : ∀ token, 0 < settlements token s.log → token ∈ drawnTokens s.log
  settledFree : ∀ token, 0 < settlements token s.log →
    ∀ event ∈ s.table, event.lockToken ≠ some token
  settledOnce : ∀ token, settlements token s.log ≤ 1

/-- A row a token opens is processing under the lease of that token. -/
theorem RowInvariant.leased {log : List Entry} {event : OutboxEvent} (hrow : RowInvariant log event)
    {eventId lockToken : Uuid} :
    leased eventId lockToken event = true ↔
      event.id = eventId ∧ latest event.id log = some (.claimed event.id lockToken) := by
  rw [leased_iff]
  constructor
  · rintro ⟨hid, hstatus, htoken⟩
    obtain ⟨token, ht, hl⟩ := hrow.processing hstatus
    have heq : token = lockToken := by rw [ht] at htoken; exact Option.some.inj htoken
    exact ⟨hid, heq ▸ hl⟩
  · rintro ⟨hid, hlatest⟩
    by_cases hstatus : event.status = .processing
    · obtain ⟨token, ht, hl⟩ := hrow.processing hstatus
      rw [hl, Option.some.injEq, Entry.claimed.injEq] at hlatest
      exact ⟨hid, hstatus, hlatest.2 ▸ ht⟩
    · exact absurd hlatest ((hrow.idle hstatus).2 lockToken)

/-- A stored token was drawn by a claim of its event. -/
theorem RowInvariant.token_claimed {log : List Entry} {event : OutboxEvent}
    (hrow : RowInvariant log event) {token : Uuid} (h : event.lockToken = some token) :
    Entry.claimed event.id token ∈ log := by
  by_cases hstatus : event.status = .processing
  · obtain ⟨token', ht, hl⟩ := hrow.processing hstatus
    rw [ht, Option.some.injEq] at h
    exact h ▸ latest_mem hl
  · rw [(hrow.idle hstatus).1] at h
    cases h

/-- Two rows never store one token. -/
theorem LeaseInvariant.token_unique {s : State} (hs : LeaseInvariant s) {a b : OutboxEvent}
    (ha : a ∈ s.table) (hb : b ∈ s.table) {token : Uuid} (hat : a.lockToken = some token)
    (hbt : b.lockToken = some token) : a.id = b.id := by
  have hca := (hs.rows a ha).token_claimed hat
  have hcb := (hs.rows b hb).token_claimed hbt
  have heq := drawn_unique hs.drawn hca hcb rfl rfl
  exact congrArg Entry.event heq

/-- An id names one row. -/
theorem LeaseInvariant.row_unique {s : State} (hs : LeaseInvariant s) {a b : OutboxEvent}
    (ha : a ∈ s.table) (hb : b ∈ s.table) (hid : a.id = b.id) : a = b :=
  List.inj_on_of_nodup_map hs.ids ha hb hid

/-- An entry about another event leaves a row in agreement. -/
theorem RowInvariant.cons_other {log : List Entry} {event : OutboxEvent}
    (hrow : RowInvariant log event) {entry : Entry} (h : entry.event ≠ event.id) :
    RowInvariant (entry :: log) event where
  processing hstatus := by
    rw [latest_cons, if_neg h]
    exact hrow.processing hstatus
  idle hstatus := by
    rw [latest_cons, if_neg h]
    exact hrow.idle hstatus
  attempts := by simp [h, hrow.attempts]
  version := by simp [h, hrow.version]

/-- Rewriting the rows of a table keeps its ids. -/
theorem map_id_map {table : List OutboxEvent} {rewrite : OutboxEvent → OutboxEvent}
    (h : ∀ event, (rewrite event).id = event.id) :
    (table.map rewrite).map OutboxEvent.id = table.map OutboxEvent.id := by
  rw [List.map_map]
  exact List.map_congr_left fun event _ => h event

/-! ### Enqueue -/

/-- An event is inserted pending, unclaimed, at version 1. -/
theorem enqueue_invariant {s : State} (hs : LeaseInvariant s) {event : OutboxEvent}
    (hfresh : event.id ∉ s.table.map OutboxEvent.id) (hstatus : event.status = .pending)
    (htoken : event.lockToken = none) (hattempts : event.attempts = 0)
    (hversion : event.version = 1) :
    LeaseInvariant ⟨s.table ++ [event], .enqueued event.id :: s.log⟩ := by
  have hother : ∀ entry ∈ s.log, entry.event ≠ event.id := by
    intro entry hentry heq
    exact hfresh (heq ▸ hs.known entry hentry)
  have hclaims : claims event.id s.log = 0 := by
    rw [claims, List.countP_eq_zero]
    intro entry hentry
    simp [hother entry hentry]
  have hchanges : changes event.id s.log = 0 := by
    rw [changes, List.countP_eq_zero]
    intro entry hentry
    simp [hother entry hentry]
  constructor
  · rw [List.map_append, List.nodup_append]
    refine ⟨hs.ids, by simp, ?_⟩
    rintro a ha b hb rfl
    simp only [List.map_cons, List.map_nil, List.mem_singleton] at hb
    exact hfresh (hb ▸ ha)
  · intro row hrow
    rcases List.mem_append.mp hrow with hrow | hrow
    · refine (hs.rows row hrow).cons_other ?_
      intro heq
      exact hfresh (List.mem_map.mpr ⟨row, hrow, heq.symm⟩)
    · obtain rfl := List.mem_singleton.mp hrow
      constructor
      · intro h
        rw [hstatus] at h
        cases h
      · intro _
        refine ⟨htoken, ?_⟩
        intro token
        simp [Entry.event]
      · simp [hclaims, hattempts, Entry.drawn]
      · simp [hchanges, hversion, Entry.drawn, Entry.settled]
  · intro entry hentry
    rw [List.map_append]
    rcases List.mem_cons.mp hentry with rfl | hentry
    · exact List.mem_append_right _ (by simp [Entry.event])
    · exact List.mem_append_left _ (hs.known entry hentry)
  · simpa [Entry.drawn] using hs.drawn
  · intro token htok
    have h' := hs.settledDrawn token (by simpa [Entry.settled] using htok)
    simpa [Entry.drawn] using h'
  · intro token htok row hrow
    rcases List.mem_append.mp hrow with hrow | hrow
    · exact hs.settledFree token (by simpa [Entry.settled] using htok) row hrow
    · obtain rfl := List.mem_singleton.mp hrow
      simp [htoken]
  · intro token
    simpa [Entry.settled] using hs.settledOnce token

/-! ### Claim -/

/-- A claim opens a new lease on each row it selected, which ends the row's older one. -/
theorem claim_invariant {s : State} (hs : LeaseInvariant s) {ids : List Uuid} (hids : ids.Nodup)
    (hmem : ∀ id ∈ ids, id ∈ s.table.map OutboxEvent.id) (workerId : String) (now : Instant)
    {uuid4 : Uuid → Uuid} (hfresh : (ids.map uuid4 ++ drawnTokens s.log).Nodup) :
    LeaseInvariant
      ⟨s.table.map fun event =>
          if event.id ∈ ids then claimEvent workerId now (uuid4 event.id) event else event,
        batch uuid4 ids ++ s.log⟩ := by
  have hmap : (s.table.map fun event =>
      if event.id ∈ ids then claimEvent workerId now (uuid4 event.id) event else event).map
        OutboxEvent.id = s.table.map OutboxEvent.id := by
    refine map_id_map fun event => ?_
    by_cases h : event.id ∈ ids
    · simp [h, claimEvent, OutboxEvent.flush]
    · simp [h]
  constructor
  · rw [hmap]
    exact hs.ids
  · intro row hrow
    obtain ⟨event, hevent, rfl⟩ := List.mem_map.mp hrow
    have hold := hs.rows event hevent
    by_cases h : event.id ∈ ids
    · have hcount : ids.count event.id = 1 := List.count_eq_one_of_mem hids h
      rw [if_pos h]
      constructor
      · intro _
        refine ⟨uuid4 event.id, rfl, ?_⟩
        simp [latest_batch, claimEvent, OutboxEvent.flush, h]
      · intro hstatus
        exact absurd rfl hstatus
      · simp [claimEvent, OutboxEvent.flush, claims_batch, hcount, hold.attempts]
      · simp [claimEvent, OutboxEvent.flush, changes_batch, hcount, hold.version, Nat.add_assoc]
    · have hcount : ids.count event.id = 0 := List.count_eq_zero_of_not_mem h
      rw [if_neg h]
      constructor
      · intro hstatus
        rw [latest_batch, if_neg h]
        exact hold.processing hstatus
      · intro hstatus
        rw [latest_batch, if_neg h]
        exact hold.idle hstatus
      · rw [claims_batch, hcount, hold.attempts, Nat.add_zero]
      · rw [changes_batch, hcount, hold.version, Nat.add_zero]
  · intro entry hentry
    rw [hmap]
    rcases List.mem_append.mp hentry with hentry | hentry
    · obtain ⟨id, hid, rfl⟩ := List.mem_map.mp hentry
      exact hmem id hid
    · exact hs.known entry hentry
  · rw [drawnTokens_batch]
    exact hfresh
  · intro token htok
    rw [settlements_batch] at htok
    rw [drawnTokens_batch]
    exact List.mem_append_right _ (hs.settledDrawn token htok)
  · intro token htok row hrow
    rw [settlements_batch] at htok
    obtain ⟨event, hevent, rfl⟩ := List.mem_map.mp hrow
    by_cases h : event.id ∈ ids
    · -- a token settled before was drawn before, so it is not the fresh one
      rw [if_pos h]
      intro heq
      have hdrawn : uuid4 event.id = token := Option.some.inj heq
      have hdisj := (List.nodup_append.mp hfresh).2.2
      exact hdisj _ (List.mem_map_of_mem h) _ (hs.settledDrawn token htok) hdrawn
    · rw [if_neg h]
      exact hs.settledFree token htok event hevent
  · intro token
    rw [settlements_batch]
    exact hs.settledOnce token

/-! ### Settlement -/

/-- Settling the current lease of one row ends it for good. -/
theorem settle_invariant {s : State} (hs : LeaseInvariant s) {event : OutboxEvent}
    (settled : OutboxEvent) (entry : Entry) (hevent : event ∈ s.table) {lockToken : Uuid}
    (htoken : event.lockToken = some lockToken)
    (hid : settled.id = event.id) (hstatus : settled.status ≠ .processing)
    (hnone : settled.lockToken = none) (hattempts : settled.attempts = event.attempts)
    (hversion : settled.version = event.version + 1)
    (hentry : entry.event = event.id) (hdrawn : entry.drawn = none)
    (hsettled : entry.settled = some lockToken) :
    LeaseInvariant
      ⟨s.table.map fun row => if row.id = event.id then settled else row, entry :: s.log⟩ := by
  have hmap : (s.table.map fun row => if row.id = event.id then settled else row).map
      OutboxEvent.id = s.table.map OutboxEvent.id := by
    refine map_id_map fun row => ?_
    by_cases h : row.id = event.id
    · simp [h, hid]
    · simp [h]
  have hrow' : ∀ row ∈ s.table.map fun row => if row.id = event.id then settled else row,
      row = settled ∨ (row ∈ s.table ∧ row.id ≠ event.id) := by
    intro row hrow
    obtain ⟨old, hold, rfl⟩ := List.mem_map.mp hrow
    by_cases h : old.id = event.id
    · exact .inl (if_pos h)
    · exact .inr ⟨by rw [if_neg h]; exact hold, by rw [if_neg h]; exact h⟩
  have hclaimed := (hs.rows event hevent).token_claimed htoken
  constructor
  · rw [hmap]
    exact hs.ids
  · intro row hrow
    rcases hrow' row hrow with rfl | ⟨hrow, hne⟩
    · constructor
      · intro h
        exact absurd h hstatus
      · intro _
        refine ⟨hnone, ?_⟩
        intro token
        rw [latest_cons, if_pos (hentry.trans hid.symm), ne_eq, Option.some.injEq]
        rintro rfl
        cases hdrawn
      · simp [hdrawn, hid, hattempts, (hs.rows event hevent).attempts]
      · simp [hdrawn, hsettled, hid, hentry, hversion, (hs.rows event hevent).version,
          Nat.add_assoc]
    · exact (hs.rows row hrow).cons_other (by rw [hentry]; exact hne.symm)
  · intro other hother
    rw [hmap]
    rcases List.mem_cons.mp hother with rfl | hother
    · rw [hentry]
      exact List.mem_map_of_mem hevent
    · exact hs.known other hother
  · simpa [hdrawn] using hs.drawn
  · intro token htok
    rw [drawnTokens_cons, hdrawn]
    by_cases h : lockToken = token
    · subst h
      exact List.mem_filterMap.mpr ⟨_, hclaimed, rfl⟩
    · exact hs.settledDrawn token (by simpa [hsettled, h] using htok)
  · intro token htok row hrow
    rcases hrow' row hrow with rfl | ⟨hrow, hne⟩
    · simp [hnone]
    · by_cases h : lockToken = token
      · subst h
        intro heq
        exact hne (hs.token_unique hrow hevent heq htoken)
      · exact hs.settledFree token (by simpa [hsettled, h] using htok) row hrow
  · intro token
    rw [settlements_cons, hsettled]
    by_cases h : lockToken = token
    · -- the row still stored the token, so no settlement of it is in the log
      subst h
      have hzero : settlements lockToken s.log = 0 := by
        by_contra hne
        exact hs.settledFree lockToken (Nat.pos_of_ne_zero hne) event hevent htoken
      simp [hzero]
    · simpa [h] using hs.settledOnce token

/-! ### Every step -/

/-- Moving rows around changes no row. -/
theorem reorder_invariant {s : State} (hs : LeaseInvariant s) {table : List OutboxEvent}
    (hperm : table.Perm s.table) : LeaseInvariant ⟨table, s.log⟩ where
  ids := (hperm.map _).nodup_iff.mpr hs.ids
  rows event hevent := hs.rows event (hperm.mem_iff.mp hevent)
  known entry hentry := (hperm.map _).mem_iff.mpr (hs.known entry hentry)
  drawn := hs.drawn
  settledDrawn := hs.settledDrawn
  settledFree token htok event hevent := hs.settledFree token htok event (hperm.mem_iff.mp hevent)
  settledOnce := hs.settledOnce

/-- The rows a completion changes are the one row with the id of the leased event. -/
theorem LeaseInvariant.leased_rows {s : State} (hs : LeaseInvariant s) {event row : OutboxEvent}
    (hevent : event ∈ s.table) (hrow : row ∈ s.table) {eventId lockToken : Uuid}
    (hleased : leased eventId lockToken event = true) :
    leased eventId lockToken row = true ↔ row.id = event.id := by
  obtain ⟨hid, -, -⟩ := leased_iff.mp hleased
  constructor
  · intro h
    exact (leased_iff.mp h).1.trans hid.symm
  · intro h
    rwa [hs.row_unique hrow hevent h]

/-- Every transaction keeps the invariant. -/
theorem step_invariant {s t : State} {call : Call} (hs : LeaseInvariant s) (hstep : Step s call t) :
    LeaseInvariant t := by
  cases hstep with
  | enqueue context id now createdAt topic eventType payload headers aggregateType aggregateId
      availableAt hevent hfresh =>
      subst hevent
      exact enqueue_invariant hs hfresh rfl rfl rfl rfl
  | @claim table events locked workerId batchSize staleAfter now uuid4 hclaim hfresh =>
      obtain ⟨hids, rfl⟩ := claimOutboxEvents_ok hclaim
      have hentries : events.map (fun event => Entry.claimed event.id (uuid4 event.id)) =
          batch uuid4 (events.map OutboxEvent.id) := by
        rw [batch, List.map_map]
        rfl
      rw [hentries]
      refine claim_invariant hs ?_ ?_ workerId now ?_
      · rw [hids]
        exact selectForClaim_nodup hs.ids _ _ _ _
      · intro id hid
        rw [hids] at hid
        obtain ⟨event, hevent, rfl⟩ := List.mem_map.mp hid
        exact List.mem_map_of_mem (mem_selectForClaim hevent).1
      · rw [List.map_map]
        exact hfresh
  | complete eventId lockToken shown publishedAt hcomplete =>
      obtain ⟨⟨event, hevent, hleased⟩, rfl⟩ := completeOutboxEvent_ok hcomplete
      obtain ⟨hid, -, htoken⟩ := leased_iff.mp hleased
      have hrows : (s.table.map fun row =>
          if leased eventId lockToken row then publishEvent publishedAt row else row) =
          s.table.map fun row =>
            if row.id = event.id then publishEvent publishedAt event else row := by
        refine List.map_congr_left ?_
        intro row hrow
        by_cases h : row.id = event.id
        · rw [if_pos ((hs.leased_rows hevent hrow hleased).mpr h), if_pos h,
            hs.row_unique hrow hevent h]
        · rw [if_neg (fun hl => h ((hs.leased_rows hevent hrow hleased).mp hl)), if_neg h]
      rw [hrows]
      exact settle_invariant hs (publishEvent publishedAt event) (.published eventId lockToken)
        hevent htoken rfl (by simp [publishEvent]) rfl rfl rfl hid.symm rfl rfl
  | fail eventId lockToken shown error maxAttempts baseDelaySeconds now hfail =>
      obtain ⟨event, hevent, hleased, marked, hmarked, rfl, rfl⟩ := failOutboxEvent_ok hfail
      obtain ⟨hid, -, htoken⟩ := leased_iff.mp hleased
      obtain ⟨hmid, hstatus, hnone, hattempts, hversion⟩ := markOutboxFailed_ok hmarked
      refine settle_invariant hs marked.flush (.failed eventId lockToken) hevent htoken hmid ?_
        hnone hattempts ?_ hid.symm rfl rfl
      · rcases hstatus with h | h
        · simp [OutboxEvent.flush, h]
        · simp [OutboxEvent.flush, h]
      · simp [OutboxEvent.flush, hversion]
  | raised call => exact hs
  | reorder hperm => exact reorder_invariant hs hperm

/-- Every reachable state satisfies the invariant. -/
theorem reaches_invariant {h : List Call} {s : State} (hr : outbox.Reaches h s) :
    LeaseInvariant s := by
  refine hr.invariant (I := fun _ s => LeaseInvariant s) ?_ ?_
  · rintro s rfl
    exact ⟨by simp, by simp, by simp, by simp [drawnTokens], by simp [settlements], by simp,
      by simp [settlements]⟩
  · intro _ s call t _ hs hstep
    exact step_invariant hs hstep

/-! ## Fencing -/

/-- A list whose keys are distinct has one row that passes a test only rows of one key pass. -/
theorem countP_eq_one {α κ : Type} {key : α → κ} {p : α → Bool} {x : α} :
    ∀ {rows : List α}, (rows.map key).Nodup → x ∈ rows → p x = true →
      (∀ y ∈ rows, p y = true → key y = key x) → rows.countP p = 1
  | [], _, hx, _, _ => by cases hx
  | row :: rows, hnodup, hx, hp, hkey => by
      rw [List.map_cons, List.nodup_cons] at hnodup
      rw [List.countP_cons]
      rcases List.mem_cons.mp hx with rfl | hx
      · have hzero : rows.countP p = 0 := by
          rw [List.countP_eq_zero]
          intro y hy hpy
          exact hnodup.1 (List.mem_map.mpr ⟨y, hy, hkey y (List.mem_cons_of_mem _ hy) hpy⟩)
        simp [hzero, hp]
      · have hrow : ¬p row = true := by
          intro hpr
          exact hnodup.1 (List.mem_map.mpr ⟨x, hx, (hkey row (List.mem_cons_self ..) hpr).symm⟩)
        have ih := countP_eq_one hnodup.2 hx hp fun y hy => hkey y (List.mem_cons_of_mem _ hy)
        simp [hrow, ih]

/-- What the leases promise in a state. -/
structure Fenced (s : State) : Prop where
  /-- `processing` is exactly holding a lock token. -/
  processing_iff : ∀ event ∈ s.table, event.status = .processing ↔ event.lockToken ≠ none
  /-- `attempts` counts the claims. -/
  attempts : ∀ event ∈ s.table, event.attempts = claims event.id s.log
  /-- `version` counts the committed changes after the enqueue. -/
  version : ∀ event ∈ s.table, event.version = 1 + changes event.id s.log
  /-- The token of the current lease completes the event. -/
  complete_current : ∀ event ∈ s.table, ∀ lockToken shown publishedAt,
    latest event.id s.log = some (.claimed event.id lockToken) →
      completeOutboxEvent s.table event.id lockToken shown publishedAt =
        .ok (s.table.map fun row =>
          if row.id = event.id then publishEvent publishedAt event else row)
  /-- No other token does. -/
  complete_stale : ∀ eventId lockToken shown publishedAt,
    latest eventId s.log ≠ some (.claimed eventId lockToken) →
      completeOutboxEvent s.table eventId lockToken shown publishedAt = .error (leaseLost shown)
  /-- The token of the current lease fails the event, when the options are valid. -/
  fail_current : ∀ event ∈ s.table, ∀ lockToken shown error maxAttempts baseDelaySeconds now,
    latest event.id s.log = some (.claimed event.id lockToken) →
      0 < maxAttempts → 0 < baseDelaySeconds →
        ∃ marked, markOutboxFailed event error maxAttempts baseDelaySeconds now = .ok marked ∧
          failOutboxEvent s.table event.id lockToken shown error maxAttempts baseDelaySeconds now =
            .ok (s.table.map fun row => if row.id = event.id then marked.flush else row,
              marked.flush)
  /-- No other token does, whatever the options. -/
  fail_stale : ∀ eventId lockToken shown error maxAttempts baseDelaySeconds now,
    latest eventId s.log ≠ some (.claimed eventId lockToken) →
      failOutboxEvent s.table eventId lockToken shown error maxAttempts baseDelaySeconds now =
        .error (leaseLost shown)
  /-- A token names one claim. -/
  drawn_once : (drawnTokens s.log).Nodup
  /-- A claim is settled at most once. -/
  settled_once : ∀ lockToken, settlements lockToken s.log ≤ 1

/-- Without the current lease no row is found. -/
theorem LeaseInvariant.not_leased {s : State} (hs : LeaseInvariant s) {eventId lockToken : Uuid}
    (h : latest eventId s.log ≠ some (.claimed eventId lockToken)) :
    ∀ event ∈ s.table, ¬leased eventId lockToken event = true := by
  intro event hevent hleased
  obtain ⟨rfl, hlatest⟩ := (hs.rows event hevent).leased.mp hleased
  exact h hlatest

theorem LeaseInvariant.fenced {s : State} (hs : LeaseInvariant s) : Fenced s where
  processing_iff event hevent := by
    constructor
    · intro hstatus
      obtain ⟨token, ht, -⟩ := (hs.rows event hevent).processing hstatus
      simp [ht]
    · intro htoken
      by_contra hstatus
      exact htoken ((hs.rows event hevent).idle hstatus).1
  attempts event hevent := (hs.rows event hevent).attempts
  version event hevent := (hs.rows event hevent).version
  complete_current event hevent lockToken shown publishedAt hlatest := by
    have hleased := (hs.rows event hevent).leased.mpr ⟨rfl, hlatest⟩
    have hcount : s.table.countP (leased event.id lockToken) = 1 :=
      countP_eq_one hs.ids hevent hleased
        fun row hrow h => (hs.leased_rows hevent hrow hleased).mp h
    simp only [completeOutboxEvent, hcount, ne_eq, not_true_eq_false, if_false, Except.ok.injEq]
    refine List.map_congr_left ?_
    intro row hrow
    by_cases h : row.id = event.id
    · rw [if_pos ((hs.leased_rows hevent hrow hleased).mpr h), if_pos h,
        hs.row_unique hrow hevent h]
    · rw [if_neg (fun hl => h ((hs.leased_rows hevent hrow hleased).mp hl)), if_neg h]
  complete_stale eventId lockToken shown publishedAt h := by
    have hcount : s.table.countP (leased eventId lockToken) = 0 :=
      List.countP_eq_zero.mpr (hs.not_leased h)
    simp [completeOutboxEvent, hcount]
  fail_current event hevent lockToken shown error maxAttempts baseDelaySeconds now hlatest hmax
      hdelay := by
    have hleased := (hs.rows event hevent).leased.mpr ⟨rfl, hlatest⟩
    obtain ⟨marked, hmarked⟩ := markOutboxFailed_isOk event error now hmax hdelay
    refine ⟨marked, hmarked, ?_⟩
    have hfind : s.table.find? (leased event.id lockToken) = some event := by
      cases hf : s.table.find? (leased event.id lockToken) with
      | none => exact absurd hleased (List.find?_eq_none.mp hf event hevent)
      | some row =>
          have hrow := List.mem_of_find?_eq_some hf
          have hid := (hs.leased_rows hevent hrow hleased).mp (List.find?_some hf)
          rw [hs.row_unique hrow hevent hid]
    have hid : marked.flush.id = event.id := (markOutboxFailed_ok hmarked).1
    simp [failOutboxEvent, hfind, hmarked, hid]
  fail_stale eventId lockToken shown error maxAttempts baseDelaySeconds now h := by
    have hfind : s.table.find? (leased eventId lockToken) = none :=
      List.find?_eq_none.mpr (hs.not_leased h)
    simp [failOutboxEvent, hfind]
  drawn_once := hs.drawn
  settled_once := hs.settledOnce

/-- A published or dead row is in no later `WHERE` clause, so it stays as it is. -/
theorem step_terminal {s t : State} {call : Call} (hs : LeaseInvariant s) (hstep : Step s call t)
    {event : OutboxEvent} (hevent : event ∈ s.table)
    (hterminal : event.status = .published ∨ event.status = .dead) : event ∈ t.table := by
  have hnotProcessing : event.status ≠ .processing := by
    rcases hterminal with h | h
    · simp [h]
    · simp [h]
  have hnotLeased : ∀ eventId lockToken, ¬leased eventId lockToken event = true := by
    intro eventId lockToken hleased
    exact hnotProcessing (leased_iff.mp hleased).2.1
  cases hstep with
  | enqueue => exact List.mem_append_left _ hevent
  | @claim table events locked workerId batchSize staleAfter now uuid4 hclaim _ =>
      obtain ⟨hids, rfl⟩ := claimOutboxEvents_ok hclaim
      refine List.mem_map.mpr ⟨event, hevent, if_neg ?_⟩
      intro hid
      rw [hids] at hid
      obtain ⟨row, hrow, hrid⟩ := List.mem_map.mp hid
      obtain ⟨hmem, hclaimable, -⟩ := mem_selectForClaim hrow
      obtain rfl := hs.row_unique hmem hevent hrid
      rcases hterminal with h | h
      · simp [claimable, h] at hclaimable
      · simp [claimable, h] at hclaimable
  | complete eventId lockToken shown publishedAt hcomplete =>
      obtain ⟨-, rfl⟩ := completeOutboxEvent_ok hcomplete
      exact List.mem_map.mpr ⟨event, hevent, if_neg (hnotLeased eventId lockToken)⟩
  | fail eventId lockToken shown error maxAttempts baseDelaySeconds now hfail =>
      obtain ⟨row, hrow, hleased, marked, -, rfl, rfl⟩ := failOutboxEvent_ok hfail
      refine List.mem_map.mpr ⟨event, hevent, if_neg ?_⟩
      intro hid
      obtain rfl := hs.row_unique hevent hrow hid
      exact hnotLeased eventId lockToken hleased
  | raised call => exact hevent
  | reorder hperm => exact hperm.mem_iff.mpr hevent

/-- In every state any interleaving of the workers' transactions reaches, the leases fence
the events, and no transaction touches an event that is published or dead. -/
theorem outbox_lease_fencing {h : List Call} {s : State} (hr : outbox.Reaches h s) :
    Fenced s ∧ ∀ call t, Step s call t → ∀ event ∈ s.table,
      event.status = .published ∨ event.status = .dead → event ∈ t.table := by
  have hs := reaches_invariant hr
  refine ⟨hs.fenced, ?_⟩
  intro call t hstep event hevent hterminal
  exact step_terminal hs hstep hevent hterminal

/-- An event as `enqueue_outbox_event` inserts it. -/
def sampleEvent : OutboxEvent :=
  enqueueOutboxEvent {} 1 10 10 "orders" "created" []

/-- What a claim of the only event of a table does. -/
theorem claimOutboxEvents_single {event : OutboxEvent} {workerId : String}
    {batchSize staleAfter : Int} {now : Instant} (token : Uuid)
    (hvalid : validateClaimOptions workerId batchSize staleAfter = .ok ())
    (hclaimable : claimable now (now - staleAfter) event = true) :
    claimOutboxEvents [event] (fun _ => false) workerId batchSize staleAfter now (fun _ => token) =
      .ok ([claimEvent workerId now token event], [claimEvent workerId now token event]) := by
  have hpositive : 0 < batchSize.toNat := by
    unfold validateClaimOptions at hvalid
    split at hvalid
    · cases hvalid
    split at hvalid
    · cases hvalid
    · omega
  have hselected : selectForClaim [event] (fun _ => false) batchSize now (now - staleAfter) =
      [event] := by
    rw [selectForClaim, List.filter_cons_of_pos (by simp [hclaimable]), List.filter_nil,
      List.mergeSort_singleton, List.take_of_length_le hpositive]
  simp [claimOutboxEvents, hvalid, hselected]

theorem sample_claimOutboxEvents :
    claimOutboxEvents [sampleEvent] (fun _ => false) "worker" 5 1 20 (fun _ => 7) =
      .ok ([claimEvent "worker" 20 7 sampleEvent], [claimEvent "worker" 20 7 sampleEvent]) :=
  claimOutboxEvents_single 7 (by decide) (by decide)

/-- One worker enqueues an event and another claims it. -/
theorem sample_claimed : outbox.Reaches [.claim "worker" 5 1 20, .enqueue sampleEvent]
    ⟨[claimEvent "worker" 20 7 sampleEvent], [.claimed 1 7, .enqueued 1]⟩ := by
  have henqueued : outbox.Reaches _ ⟨[sampleEvent], [.enqueued 1]⟩ :=
    .step (.init rfl) (.enqueue {} 1 10 10 "orders" "created" [] none none none none rfl (by simp))
  have hstep := Step.claim (s := ⟨[sampleEvent], [.enqueued 1]⟩) (fun _ => false) "worker" 5 1 20
    (fun _ => 7) sample_claimOutboxEvents (by decide)
  exact henqueued.step hstep

/-- Another event. -/
def otherEvent : OutboxEvent :=
  enqueueOutboxEvent {} 2 25 25 "orders" "paid" []

/-- What a claim does beside an event that may not be claimed. -/
theorem claimOutboxEvents_second {event other : OutboxEvent} (hids : event.id ≠ other.id)
    (hrests : claimable 40 10 event = false) (hclaimable : claimable 40 10 other = true)
    (token : Uuid) :
    claimOutboxEvents [event, other] (fun _ => false) "other" 5 30 40 (fun _ => token) =
      .ok ([event, claimEvent "other" 40 token other], [claimEvent "other" 40 token other]) := by
  have hvalid : validateClaimOptions "other" 5 30 = .ok () := by decide
  have hselected : selectForClaim [event, other] (fun _ => false) 5 40 10 = [other] := by
    rw [selectForClaim, List.filter_cons_of_neg (by simp [hrests]),
      List.filter_cons_of_pos (by simp [hclaimable]), List.filter_nil, List.mergeSort_singleton]
    rfl
  simp [claimOutboxEvents, hvalid, hselected, hids]

theorem completeOutboxEvent_second {event other : OutboxEvent} {eventId lockToken : Uuid}
    (hevent : leased eventId lockToken event = false)
    (hother : leased eventId lockToken other = true) (shown : String) (publishedAt : Instant) :
    completeOutboxEvent [event, other] eventId lockToken shown publishedAt =
      .ok [event, publishEvent publishedAt other] := by
  simp [completeOutboxEvent, hevent, hother]

/-- While the first event may not be claimed, the other is enqueued, claimed and published. -/
theorem run_otherEvent {event : OutboxEvent} (hid : event.id = 1)
    (hrests : claimable 40 10 event = false) {log : List Entry}
    (hdrawn : (8 :: drawnTokens log).Nodup) :
    outbox.Run ⟨[event], log⟩
      [.enqueue otherEvent, .claim "other" 5 30 40, .complete 2 8]
      ⟨[event, publishEvent 50 (claimEvent "other" 40 8 otherEvent)],
        .published 2 8 :: .claimed 2 8 :: .enqueued 2 :: log⟩ := by
  have henqueue := Step.enqueue (s := ⟨[event], log⟩) {} 2 25 25 "orders" "paid" [] none none none
    none rfl (by simp [hid])
  have hclaim := Step.claim (s := ⟨[event, otherEvent], .enqueued 2 :: log⟩) (fun _ => false)
    "other" 5 30 40 (fun _ => 8)
    (claimOutboxEvents_second (hid ▸ by decide) hrests (by decide) 8) hdrawn
  have hfirst : leased 2 8 event = false := by simp [leased, hid]
  have hother : leased 2 8 (claimEvent "other" 40 8 otherEvent) = true := by decide
  have hcomplete := Step.complete (s := ⟨_, .claimed 2 8 :: .enqueued 2 :: log⟩) 2 8 "2" 50
    (completeOutboxEvent_second hfirst hother "2" 50)
  exact .cons henqueue (.cons hclaim (.cons hcomplete (.nil _)))

/-- The leases fence an event one worker has claimed. -/
theorem outbox_lease_fencing_claimed :
    let s : State := ⟨[claimEvent "worker" 20 7 sampleEvent], [.claimed 1 7, .enqueued 1]⟩
    Fenced s ∧ ∀ call t, Step s call t → ∀ event ∈ s.table,
      event.status = .published ∨ event.status = .dead → event ∈ t.table :=
  outbox_lease_fencing sample_claimed

end ProdkitStorage.Outbox

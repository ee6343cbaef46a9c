import ProdkitStorage.Outbox.Dispatch

/-!
# Attempts

`attempts` counts the claims of an event, and `mark_outbox_failed` compares it with
`max_attempts`.  The claim itself compares nothing, so an event whose last worker
is lost after the claim is claimed again when its lease is stale, with its
attempts used up or not.

`limited m` is the outbox whose workers all fail events with `max_attempts = m`.
A label also shows the rows that other transactions hold, since they decide which
rows a claim selects.  `Spares` is the condition under which `m` is a bound: no
claim selects a stale lease whose event has used up its attempts.
-/

namespace ProdkitStorage.Outbox

open ProdkitStorage.Foundation (System)
open ProdkitStorage.Python

/-- A transaction, and the rows other transactions hold meanwhile. -/
abbrev Turn := Call × (Uuid → Bool)

/-- One transaction, when every call of `fail_outbox_event` passes `max_attempts = m`. -/
inductive LimitedStep (m : Int) : State → Turn → State → Prop where
  | claim {s : State} {table events : List OutboxEvent} (locked : Uuid → Bool)
      (workerId : String) (batchSize staleAfter : Int) (now : Instant) (uuid4 : Uuid → Uuid) :
      claimOutboxEvents s.table locked workerId batchSize staleAfter now uuid4 =
        .ok (table, events) →
      (events.map (fun event => uuid4 event.id) ++ drawnTokens s.log).Nodup →
      LimitedStep m s (.claim workerId batchSize staleAfter now, locked)
        ⟨table, events.map (fun event => .claimed event.id (uuid4 event.id)) ++ s.log⟩
  | fail {s : State} {table : List OutboxEvent} {event : OutboxEvent} (locked : Uuid → Bool)
      (eventId lockToken : Uuid) (shown error : String) (baseDelaySeconds : Int) (now : Instant) :
      failOutboxEvent s.table eventId lockToken shown error m baseDelaySeconds now =
        .ok (table, event) →
      LimitedStep m s (.fail eventId lockToken, locked) ⟨table, .failed eventId lockToken :: s.log⟩
  | enqueue {s t : State} (locked : Uuid → Bool) (event : OutboxEvent) :
      Step s (.enqueue event) t → LimitedStep m s (.enqueue event, locked) t
  | complete {s t : State} (locked : Uuid → Bool) (eventId lockToken : Uuid) :
      Step s (.complete eventId lockToken) t →
        LimitedStep m s (.complete eventId lockToken, locked) t
  | reorder {s t : State} (locked : Uuid → Bool) :
      Step s .reorder t → LimitedStep m s (.reorder, locked) t
  | raised {s : State} (turn : Turn) : LimitedStep m s turn s

/-- The outbox of workers that agree on `max_attempts`. -/
def limited (m : Int) : System State Turn where
  init := outbox.init
  step := LimitedStep m

/-- A restricted transaction is a transaction. -/
theorem LimitedStep.step {m : Int} {s t : State} {turn : Turn} (h : LimitedStep m s turn t) :
    Step s turn.1 t := by
  cases h with
  | claim locked workerId batchSize staleAfter now uuid4 hclaim hfresh =>
      exact .claim locked workerId batchSize staleAfter now uuid4 hclaim hfresh
  | fail locked eventId lockToken shown error baseDelaySeconds now hfail =>
      exact .fail eventId lockToken shown error m baseDelaySeconds now hfail
  | enqueue _ _ hstep => exact hstep
  | complete _ _ _ hstep => exact hstep
  | reorder _ hstep => exact hstep
  | raised turn => exact .raised turn.1

theorem limited_reaches {m : Int} {turns : List Turn} {s : State}
    (hr : (limited m).Reaches turns s) : outbox.Reaches (turns.map Prod.fst) s := by
  induction hr with
  | init h0 => exact .init h0
  | step _ hstep ih => exact ih.step hstep.step

/-! ## The bound -/

/-- No claim of the turn selects a processing row with `m` attempts. -/
def Spares (m : Int) (s : State) : Turn → Prop
  | (.claim _ batchSize staleAfter now, locked) =>
      ∀ row ∈ selectForClaim s.table locked batchSize now (now - staleAfter),
        row.status = .processing → row.attempts < m
  | _ => True

/-- A failed event waits again only when it has attempts left; else it is dead. -/
theorem markOutboxFailed_status {event failed : OutboxEvent} {error : String}
    {maxAttempts baseDelaySeconds : Int} {now : Instant}
    (h : markOutboxFailed event error maxAttempts baseDelaySeconds now = .ok failed) :
    if maxAttempts ≤ event.attempts then failed.status = .dead
    else failed.status = .pending ∧ failed.attempts = event.attempts := by
  unfold markOutboxFailed at h
  split at h
  · cases h
  split at h
  · cases h
  dsimp only at h
  split at h
  · next hused =>
      cases h
      rw [if_pos hused]
  · next hleft =>
      cases h
      rw [if_neg hleft]
      exact ⟨rfl, rfl⟩

/-- A row has not been claimed more than `m` times, and waits only with attempts left. -/
structure Within (m : Int) (event : OutboxEvent) : Prop where
  attempts : event.attempts ≤ m
  pending : event.status = .pending → event.attempts < m

/-- Failing a row with attempts to spare or none keeps it within `m`. -/
theorem Within.failed {m : Int} {event marked : OutboxEvent} (hevent : Within m event)
    {error : String} {baseDelaySeconds : Int} {now : Instant}
    (hmarked : markOutboxFailed event error m baseDelaySeconds now = .ok marked) :
    Within m marked.flush := by
  have hattempts : marked.attempts = event.attempts := (markOutboxFailed_ok hmarked).2.2.2.1
  have hstatus := markOutboxFailed_status hmarked
  refine ⟨?_, ?_⟩
  · show (marked.attempts : Int) ≤ m
    rw [hattempts]
    exact hevent.attempts
  · show marked.status = .pending → (marked.attempts : Int) < m
    intro hpending
    split at hstatus
    · rw [hstatus] at hpending
      cases hpending
    · omega

/-- A row that a claim selects is pending or processing. -/
theorem claimable_status {now staleBefore : Instant} {event : OutboxEvent}
    (h : claimable now staleBefore event = true) :
    event.status = .pending ∨ event.status = .processing := by
  simp only [claimable, Bool.and_eq_true, Bool.or_eq_true, beq_iff_eq] at h
  exact h.2.imp_right And.left

/-- A turn that spares the exhausted leases keeps every row within `m`. -/
theorem LimitedStep.within {m : Int} (hm : 0 < m) {s t : State} {turn : Turn}
    (hs : LeaseInvariant s) (hrows : ∀ event ∈ s.table, Within m event)
    (hstep : LimitedStep m s turn t) (hspares : Spares m s turn) :
    ∀ event ∈ t.table, Within m event := by
  intro event hevent
  cases hstep with
  | @claim table events locked workerId batchSize staleAfter now uuid4 hclaim _ =>
      obtain ⟨hids, rfl⟩ := claimOutboxEvents_ok hclaim
      obtain ⟨row, hrow, rfl⟩ := List.mem_map.mp hevent
      by_cases hid : row.id ∈ events.map OutboxEvent.id
      · rw [if_pos hid]
        rw [hids] at hid
        obtain ⟨selected, hselected, heq⟩ := List.mem_map.mp hid
        obtain ⟨hmem, hclaimable, -⟩ := mem_selectForClaim hselected
        obtain rfl := hs.row_unique hmem hrow heq
        have hleft : (selected.attempts : Int) < m := by
          rcases claimable_status hclaimable with h | h
          · exact (hrows selected hrow).pending h
          · exact hspares selected hselected h
        refine ⟨?_, fun hpending => by cases hpending⟩
        show ((selected.attempts + 1 : Nat) : Int) ≤ m
        omega
      · rw [if_neg hid]
        exact hrows row hrow
  | fail locked eventId lockToken shown error baseDelaySeconds now hfail =>
      obtain ⟨row, hrow, -, marked, hmarked, rfl, rfl⟩ := failOutboxEvent_ok hfail
      obtain ⟨other, hother, rfl⟩ := List.mem_map.mp hevent
      split
      · exact (hrows row hrow).failed hmarked
      · exact hrows other hother
  | enqueue locked event' hcall =>
      rcases step_row hs hcall hevent with hold | hwritten
      · exact hrows event hold
      · cases hwritten with
        | enqueued _ hzero =>
            have hattempts : (event.attempts : Int) < m := by omega
            exact ⟨le_of_lt hattempts, fun _ => hattempts⟩
  | complete locked eventId lockToken hcall =>
      rcases step_row hs hcall hevent with hold | hwritten
      · exact hrows event hold
      · cases hwritten with
        | published _ _ publishedAt hrow =>
            exact ⟨(hrows _ hrow).attempts, fun hpending => by cases hpending⟩
  | reorder locked hcall =>
      rcases step_row hs hcall hevent with hold | hwritten
      · exact hrows event hold
      · cases hwritten
  | raised turn => exact hrows event hevent

theorem limited_within {m : Int} (hm : 0 < m) {turns : List Turn} {s : State}
    (hr : ((limited m).under (Spares m)).Reaches turns s) : ∀ event ∈ s.table, Within m event := by
  refine hr.invariant (I := fun _ s => ∀ event ∈ s.table, Within m event) ?_ ?_
  · rintro s rfl event hevent
    cases hevent
  · rintro _ s turn t hreaches hrows ⟨hstep, hspares⟩
    exact hstep.within hm (reaches_invariant (limited_reaches hreaches.of_under)) hrows hspares

/-- A claim of an event the log does not know is not in the log. -/
theorem LeaseInvariant.claims_eq {s : State} (hs : LeaseInvariant s) (id : Uuid) :
    claims id s.log = 0 ∨ ∃ event ∈ s.table, event.id = id ∧ event.attempts = claims id s.log := by
  by_cases hid : id ∈ s.table.map OutboxEvent.id
  · obtain ⟨event, hevent, rfl⟩ := List.mem_map.mp hid
    exact .inr ⟨event, hevent, rfl, (hs.rows event hevent).attempts⟩
  · refine .inl (List.countP_eq_zero.mpr ?_)
    intro entry hentry hclaim
    have hentryId : entry.event = id := by
      simp only [Bool.and_eq_true, beq_iff_eq] at hclaim
      exact hclaim.1
    exact hid (hentryId ▸ hs.known entry hentry)

/-- What `max_attempts = m` promises in a state. -/
structure AttemptsBounded (m : Int) (s : State) : Prop where
  /-- No event was handed out more than `m` times. -/
  handedOut : ∀ id, (claims id s.log : Int) ≤ m
  /-- An event whose attempts are used up does not wait for another. -/
  exhausted : ∀ event ∈ s.table, claims event.id s.log = m → event.status ≠ .pending
  /-- Failing its last attempt makes it dead. -/
  dead : ∀ event ∈ s.table, claims event.id s.log = m →
    ∀ lockToken shown error baseDelaySeconds now table failed,
      failOutboxEvent s.table event.id lockToken shown error m baseDelaySeconds now =
        .ok (table, failed) → failed.status = .dead ∧ failed ∈ table

theorem LeaseInvariant.attemptsBounded {m : Int} {s : State} (hs : LeaseInvariant s)
    (hrows : ∀ event ∈ s.table, Within m event) (hm : 0 < m) : AttemptsBounded m s where
  handedOut id := by
    rcases hs.claims_eq id with h | ⟨event, hevent, -, h⟩
    · rw [h]
      exact hm.le
    · rw [← h]
      exact (hrows event hevent).attempts
  exhausted event hevent hused hpending := by
    have hleft := (hrows event hevent).pending hpending
    rw [(hs.rows event hevent).attempts] at hleft
    omega
  dead event hevent hused lockToken shown error baseDelaySeconds now table failed hfail := by
    obtain ⟨row, hrow, hleased, marked, hmarked, rfl, rfl⟩ := failOutboxEvent_ok hfail
    obtain rfl := hs.row_unique hrow hevent (leased_iff.mp hleased).1
    have hstatus := markOutboxFailed_status hmarked
    rw [(hs.rows row hrow).attempts, if_pos hused.ge] at hstatus
    exact ⟨hstatus, List.mem_map.mpr ⟨row, hrow, if_pos rfl⟩⟩

/-- A claim that selects an exhausted lease hands its event out once too often. -/
theorem LeaseInvariant.not_spared {m : Int} {s : State} (hs : LeaseInvariant s)
    {locked : Uuid → Bool} {workerId : String} {batchSize staleAfter : Int} {now : Instant}
    {uuid4 : Uuid → Uuid} {table events : List OutboxEvent}
    (hclaim : claimOutboxEvents s.table locked workerId batchSize staleAfter now uuid4 =
      .ok (table, events)) {row : OutboxEvent}
    (hrow : row ∈ selectForClaim s.table locked batchSize now (now - staleAfter))
    (hused : m ≤ row.attempts) :
    m < claims row.id (events.map (fun event => .claimed event.id (uuid4 event.id)) ++ s.log) := by
  obtain ⟨hids, -⟩ := claimOutboxEvents_ok hclaim
  have hentries : events.map (fun event => Entry.claimed event.id (uuid4 event.id)) =
      batch uuid4 (events.map OutboxEvent.id) := by
    rw [batch, List.map_map]
    rfl
  have hcount : 0 < (events.map OutboxEvent.id).count row.id := by
    rw [hids, List.count_pos_iff]
    exact List.mem_map_of_mem hrow
  rw [hentries, claims_batch, ← (hs.rows row (mem_selectForClaim hrow).1).attempts]
  omega

/-- Along every run whose claims select no stale lease with `m` attempts, no event is handed out
more than `m` times and one whose attempts are used up ends dead.  A claim that the run may go on
with keeps the bound exactly when it meets the condition. -/
theorem max_attempts_bound {m : Int} (hm : 0 < m) {turns : List Turn} {s : State}
    (hr : ((limited m).under (Spares m)).Reaches turns s) :
    AttemptsBounded m s ∧
      ∀ locked workerId batchSize staleAfter now uuid4 table events,
        claimOutboxEvents s.table locked workerId batchSize staleAfter now uuid4 =
            .ok (table, events) →
          (events.map (fun event => uuid4 event.id) ++ drawnTokens s.log).Nodup →
            (AttemptsBounded m
                ⟨table, events.map (fun event => .claimed event.id (uuid4 event.id)) ++ s.log⟩ ↔
              Spares m s (.claim workerId batchSize staleAfter now, locked)) := by
  have hs := reaches_invariant (limited_reaches hr.of_under)
  have hrows := limited_within hm hr
  refine ⟨hs.attemptsBounded hrows hm, ?_⟩
  intro locked workerId batchSize staleAfter now uuid4 table events hclaim hfresh
  constructor
  · intro hbounded row hrow _
    by_contra hused
    have hover := hs.not_spared hclaim hrow (not_lt.mp hused)
    exact absurd (hbounded.handedOut row.id) (not_le.mpr hover)
  · intro hspares
    have hstep : LimitedStep m s (.claim workerId batchSize staleAfter now, locked) _ :=
      .claim locked workerId batchSize staleAfter now uuid4 hclaim hfresh
    exact (step_invariant hs hstep.step).attemptsBounded (hstep.within hm hs hrows hspares) hm

theorem sample_enqueue (m : Int) :
    LimitedStep m ⟨[], []⟩ (.enqueue sampleEvent, fun _ => false) ⟨[sampleEvent], [.enqueued 1]⟩ :=
  .enqueue _ _ (.enqueue {} 1 10 10 "orders" "created" [] none none none none rfl (by simp))

theorem sample_claim (m : Int) :
    LimitedStep m ⟨[sampleEvent], [.enqueued 1]⟩ (.claim "worker" 5 1 20, fun _ => false)
      ⟨[claimEvent "worker" 20 7 sampleEvent], [.claimed 1 7, .enqueued 1]⟩ :=
  LimitedStep.claim (s := ⟨[sampleEvent], [.enqueued 1]⟩) (fun _ => false) "worker" 5 1 20
    (fun _ => 7) sample_claimOutboxEvents (by decide)

/-- The bound along a run whose only event was claimed once, with two attempts. -/
theorem max_attempts_bound_claimed :
    let s : State := ⟨[claimEvent "worker" 20 7 sampleEvent], [.claimed 1 7, .enqueued 1]⟩
    AttemptsBounded 2 s ∧
      ∀ locked workerId batchSize staleAfter now uuid4 table events,
        claimOutboxEvents s.table locked workerId batchSize staleAfter now uuid4 =
            .ok (table, events) →
          (events.map (fun event => uuid4 event.id) ++ drawnTokens s.log).Nodup →
            (AttemptsBounded 2
                ⟨table, events.map (fun event => .claimed event.id (uuid4 event.id)) ++ s.log⟩ ↔
              Spares 2 s (.claim workerId batchSize staleAfter now, locked)) := by
  have henqueued : ((limited 2).under (Spares 2)).Reaches _ ⟨[sampleEvent], [.enqueued 1]⟩ :=
    .step (.init rfl) ⟨sample_enqueue 2, trivial⟩
  refine max_attempts_bound (by decide) (henqueued.step ⟨sample_claim 2, ?_⟩)
  intro row hrow hprocessing
  obtain rfl := List.mem_singleton.mp (mem_selectForClaim hrow).1
  cases hprocessing

/-- A worker claims an event and is lost; the next claim hands the event out again, although its
only attempt is used up and no call of `fail_outbox_event` was ever made. -/
theorem max_attempts_exceeded :
    ¬∀ m : Int, 0 < m → ∀ turns s, (limited m).Reaches turns s → AttemptsBounded m s := by
  intro h
  have henqueued : (limited 1).Reaches _ ⟨[sampleEvent], [.enqueued 1]⟩ :=
    .step (.init rfl) (sample_enqueue 1)
  have hreclaimed : claimOutboxEvents [claimEvent "worker" 20 7 sampleEvent] (fun _ => false)
      "other" 5 1 40 (fun _ => 8) = .ok (_, _) :=
    claimOutboxEvents_single 8 (by decide) (by decide)
  have hagain := LimitedStep.claim (m := 1)
    (s := ⟨[claimEvent "worker" 20 7 sampleEvent], [.claimed 1 7, .enqueued 1]⟩)
    (fun _ => false) "other" 5 1 40 (fun _ => 8) hreclaimed (by decide)
  have hbounded := h 1 (by decide) _ _ ((henqueued.step (sample_claim 1)).step hagain)
  exact absurd (hbounded.handedOut 1) (by decide)

end ProdkitStorage.Outbox

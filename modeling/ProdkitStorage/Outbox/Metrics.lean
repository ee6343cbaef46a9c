import Mathlib.Data.List.Dedup
import ProdkitStorage.Outbox.Backoff

/-!
# Metrics

`get_outbox_metrics`: the number of events in each status, and the age of the oldest pending one.
It makes two statements.  Under `READ COMMITTED` each sees what is committed when it starts, so
the transactions of the workers may come between them: the numbers are those of one state and the
age is that of a later one.

`Accounted` says what the numbers mean.  They are compared with the log, which counts the
transactions themselves.
-/

namespace ProdkitStorage.Outbox

open ProdkitStorage.Foundation (System)
open ProdkitStorage.Python

/-! ## The statements -/

/-- `SELECT status, count(*) ... GROUP BY status`. -/
def countByStatus (table : List OutboxEvent) : List (Status × Nat) :=
  (table.map OutboxEvent.status).dedup.map fun status =>
    (status, table.countP fun event => event.status == status)

/-- `_status_counts`: the `dict` of the rows. -/
def statusCounts (rows : List (Status × Nat)) : Status → Option Nat :=
  rows.foldl (fun counts row status => if status = row.1 then some row.2 else counts status)
    fun _ => none

/-- `SELECT min(created_at) ... WHERE status = 'pending'`. -/
def oldestPending (table : List OutboxEvent) : Option Instant :=
  ((table.filter fun event => event.status == .pending).map OutboxEvent.createdAt).min?

/-- `OutboxMetrics`.  The age is in microseconds. -/
structure OutboxMetrics where
  pending : Nat
  processing : Nat
  published : Nat
  dead : Nat
  oldestPendingAge : Option Int
deriving DecidableEq, Repr

/-- `_build_outbox_metrics`. -/
def buildOutboxMetrics (counts : Status → Option Nat) (oldest : Option Instant) (now : Instant) :
    OutboxMetrics where
  pending := (counts .pending).getD 0
  processing := (counts .processing).getD 0
  published := (counts .published).getD 0
  dead := (counts .dead).getD 0
  oldestPendingAge := oldest.map fun oldest => max (now - oldest) 0

/-- `get_outbox_metrics`.  `first` and `second` are the tables that the two statements see. -/
def getOutboxMetrics (first second : List OutboxEvent) (now : Instant) : OutboxMetrics :=
  buildOutboxMetrics (statusCounts (countByStatus first)) (oldestPending second) now

/-! ## The numbers of a table -/

/-- The number of events in a status. -/
def tally (status : Status) (table : List OutboxEvent) : Nat :=
  table.countP fun event => event.status == status

/-- The `dict` holds the last row of a key. -/
theorem foldl_counts (rows : List (Status × Nat)) (counts : Status → Option Nat) (status : Status) :
    (rows.foldl (fun counts row status => if status = row.1 then some row.2 else counts status)
      counts) status =
      ((rows.reverse.find? fun row => row.1 == status).map Prod.snd).or (counts status) := by
  induction rows generalizing counts with
  | nil => rfl
  | cons row rows ih =>
      rw [List.foldl_cons, ih, List.reverse_cons, List.find?_append]
      by_cases h : row.1 = status
      · cases rows.reverse.find? fun row => row.1 == status <;> simp [h]
      · cases rows.reverse.find? fun row => row.1 == status <;> simp [h, Ne.symm h]

theorem statusCounts_countByStatus (table : List OutboxEvent) (status : Status) :
    (statusCounts (countByStatus table) status).getD 0 = tally status table := by
  rw [statusCounts, foldl_counts, Option.or_none]
  cases hfind : (countByStatus table).reverse.find? fun row => row.1 == status with
  | some row =>
      have hmem := List.mem_reverse.mp (List.mem_of_find?_eq_some hfind)
      obtain ⟨other, -, rfl⟩ := List.mem_map.mp hmem
      have hkey := List.find?_some hfind
      simp only [beq_iff_eq] at hkey
      subst hkey
      rfl
  | none =>
      rw [List.find?_eq_none] at hfind
      symm
      refine List.countP_eq_zero.mpr fun event hevent hstatus => ?_
      simp only [beq_iff_eq] at hstatus
      refine hfind (status, table.countP fun event => event.status == status) ?_ (by simp)
      refine List.mem_reverse.mpr (List.mem_map.mpr ⟨status, ?_, rfl⟩)
      exact List.mem_dedup.mpr (List.mem_map.mpr ⟨event, hevent, hstatus⟩)

/-- Every event is in one status. -/
theorem tally_total (table : List OutboxEvent) :
    tally .pending table + tally .processing table + tally .published table +
      tally .dead table = table.length := by
  induction table with
  | nil => rfl
  | cons event table ih =>
      simp only [tally, List.countP_cons, List.length_cons] at ih ⊢
      cases event.status <;> simp <;> omega

theorem oldestPending_eq_none {table : List OutboxEvent} :
    oldestPending table = none ↔ ∀ event ∈ table, event.status ≠ .pending := by
  simp [oldestPending, List.min?_eq_none_iff, List.filter_eq_nil_iff]

theorem oldestPending_eq_some {table : List OutboxEvent} {oldest : Instant} :
    oldestPending table = some oldest ↔
      (∃ event ∈ table, event.status = .pending ∧ event.createdAt = oldest) ∧
        ∀ event ∈ table, event.status = .pending → oldest ≤ event.createdAt := by
  have hmem : ∀ instant, instant ∈ (table.filter fun event => event.status == .pending).map
      OutboxEvent.createdAt ↔
        ∃ event ∈ table, event.status = .pending ∧ event.createdAt = instant := by
    simp [and_assoc]
  rw [oldestPending, List.min?_eq_some_iff, hmem]
  refine and_congr_right fun _ => ⟨fun h event hevent hpending => ?_, fun h instant hinstant => ?_⟩
  · exact h _ ((hmem _).mpr ⟨event, hevent, hpending, rfl⟩)
  · obtain ⟨event, hevent, hpending, rfl⟩ := (hmem instant).mp hinstant
    exact h event hevent hpending

/-! ## The numbers of a run -/

/-- An insert. -/
def Entry.isEnqueue : Entry → Bool
  | .enqueued _ => true
  | _ => false

/-- An accepted completion. -/
def Entry.isCompletion : Entry → Bool
  | .published _ _ => true
  | _ => false

/-- An accepted failure. -/
def Entry.isFailure : Entry → Bool
  | .failed _ _ => true
  | _ => false

theorem countP_claimed {p : Entry → Bool} (hp : ∀ id token, p (.claimed id token) = false)
    (uuid4 : Uuid → Uuid) (events : List OutboxEvent) (log : List Entry) :
    (events.map (fun event => Entry.claimed event.id (uuid4 event.id)) ++ log).countP p =
      log.countP p := by
  rw [List.countP_append, List.countP_map, List.countP_eq_zero.mpr, Nat.zero_add]
  intro event _
  simp [hp]

/-- Replacing the row of an id. -/
theorem tally_replace {rows : List OutboxEvent} (hids : (rows.map OutboxEvent.id).Nodup)
    {row : OutboxEvent} (hrow : row ∈ rows) (other : OutboxEvent) (status : Status) :
    tally status (rows.map fun r => if r.id = row.id then other else r) +
        (if row.status = status then 1 else 0) =
      tally status rows + if other.status = status then 1 else 0 := by
  induction rows with
  | nil => cases hrow
  | cons r rows ih =>
      rw [List.map_cons, List.nodup_cons] at hids
      by_cases hr : r.id = row.id
      · have hsame : r = row := by
          rcases List.mem_cons.mp hrow with h | h
          · exact h.symm
          · exact absurd (List.mem_map.mpr ⟨row, h, hr.symm⟩) hids.1
        subst hsame
        have hrest : (rows.map fun r' => if r'.id = r.id then other else r') = rows := by
          refine (List.map_congr_left fun r' hr' => ?_).trans (List.map_id' rows)
          have hne : r'.id ≠ r.id := fun h => hids.1 (List.mem_map.mpr ⟨r', hr', h⟩)
          simp [hne]
        simp only [List.map_cons, if_true, tally, List.countP_cons, hrest, beq_iff_eq]
        omega
      · have hmem : row ∈ rows := by
          rcases List.mem_cons.mp hrow with h | h
          · exact absurd (congrArg OutboxEvent.id h.symm) hr
          · exact h
        have hrest := ih hids.2 hmem
        simp only [List.map_cons, if_neg hr, tally, List.countP_cons] at hrest ⊢
        omega

/-- A claim moves only rows that are pending or processing, to processing. -/
theorem tally_claim {s : State} (hs : LeaseInvariant s) {locked : Uuid → Bool} {workerId : String}
    {batchSize staleAfter : Int} {now : Instant} {uuid4 : Uuid → Uuid}
    {table events : List OutboxEvent}
    (hclaim : claimOutboxEvents s.table locked workerId batchSize staleAfter now uuid4 =
      .ok (table, events)) {status : Status} (hstatus : status = .published ∨ status = .dead) :
    tally status table = tally status s.table := by
  obtain ⟨hids, rfl⟩ := claimOutboxEvents_ok hclaim
  rw [tally, List.countP_map]
  refine List.countP_congr fun row hrow => ?_
  by_cases hid : row.id ∈ events.map OutboxEvent.id
  · rw [hids] at hid
    obtain ⟨selected, hselected, heq⟩ := List.mem_map.mp hid
    obtain ⟨hmem, hclaimable, -⟩ := mem_selectForClaim hselected
    obtain rfl := hs.row_unique hmem hrow heq
    rw [← hids] at hid
    have hopen : selected.status = .pending ∨ selected.status = .processing := by
      simp only [claimable, Bool.and_eq_true, Bool.or_eq_true, beq_iff_eq] at hclaimable
      exact hclaimable.2.imp_right And.left
    rw [Function.comp_apply, if_pos hid]
    rcases hstatus with rfl | rfl <;> rcases hopen with h | h <;>
      simp [h, claimEvent, OutboxEvent.flush]
  · rw [Function.comp_apply, if_neg hid]

/-- A completion replaces one row. -/
theorem LeaseInvariant.completed_rows {s : State} (hs : LeaseInvariant s) {event : OutboxEvent}
    (hevent : event ∈ s.table) {eventId lockToken : Uuid} {publishedAt : Instant}
    (hleased : leased eventId lockToken event = true) :
    (s.table.map fun row =>
        if leased eventId lockToken row then publishEvent publishedAt row else row) =
      s.table.map fun row => if row.id = event.id then publishEvent publishedAt event else row := by
  refine List.map_congr_left fun row hrow => ?_
  have hsame := hs.leased_rows hevent hrow hleased
  by_cases h : row.id = event.id
  · rw [if_pos (hsame.mpr h), if_pos h, hs.row_unique hrow hevent h]
  · rw [if_neg fun hl => h (hsame.mp hl), if_neg h]

/-- What one transaction does to the numbers. -/
theorem step_numbers {s t : State} {call : Call} (hs : LeaseInvariant s) (hstep : Step s call t) :
    t.table.length + s.log.countP Entry.isEnqueue =
        s.table.length + t.log.countP Entry.isEnqueue ∧
      tally .published t.table + s.log.countP Entry.isCompletion =
        tally .published s.table + t.log.countP Entry.isCompletion ∧
      tally .dead t.table + s.log.countP Entry.isFailure ≤
        tally .dead s.table + t.log.countP Entry.isFailure ∧
      tally .dead s.table ≤ tally .dead t.table := by
  cases hstep with
  | enqueue context id now createdAt topic eventType payload headers aggregateType aggregateId
      availableAt hevent hfresh =>
      subst hevent
      simp [tally, enqueueOutboxEvent, Entry.isEnqueue, Entry.isCompletion, Entry.isFailure,
        List.countP_cons]
      omega
  | @claim table events locked workerId batchSize staleAfter now uuid4 hclaim _ =>
      have hpublished := tally_claim hs hclaim (.inl rfl)
      have hdead := tally_claim hs hclaim (.inr rfl)
      obtain ⟨-, rfl⟩ := claimOutboxEvents_ok hclaim
      simp only [hpublished, hdead, List.length_map,
        countP_claimed (p := Entry.isEnqueue) (fun _ _ => rfl),
        countP_claimed (p := Entry.isCompletion) (fun _ _ => rfl),
        countP_claimed (p := Entry.isFailure) (fun _ _ => rfl)]
      exact ⟨trivial, trivial, le_rfl, le_rfl⟩
  | complete eventId lockToken shown publishedAt hcomplete =>
      obtain ⟨⟨event, hevent, hleased⟩, rfl⟩ := completeOutboxEvent_ok hcomplete
      obtain ⟨-, hprocessing, -⟩ := leased_iff.mp hleased
      have hpublished := tally_replace hs.ids hevent (publishEvent publishedAt event) .published
      have hdead := tally_replace hs.ids hevent (publishEvent publishedAt event) .dead
      rw [hs.completed_rows hevent hleased]
      simp only [publishEvent, hprocessing, reduceCtorEq, if_true, if_false] at hpublished hdead ⊢
      simp [Entry.isEnqueue, Entry.isCompletion, Entry.isFailure, List.countP_cons]
      omega
  | fail eventId lockToken shown error maxAttempts baseDelaySeconds now hfail =>
      obtain ⟨event, hevent, hleased, marked, hmarked, rfl, rfl⟩ := failOutboxEvent_ok hfail
      obtain ⟨-, hprocessing, -⟩ := leased_iff.mp hleased
      have hpublished := tally_replace hs.ids hevent marked.flush .published
      have hdead := tally_replace hs.ids hevent marked.flush .dead
      have hstatus : marked.flush.status = marked.status := rfl
      rw [hstatus, hprocessing] at hpublished hdead
      rcases (markOutboxFailed_ok hmarked).2.1 with h | h <;>
      · simp only [h, reduceCtorEq, if_true, if_false] at hpublished hdead
        simp [Entry.isEnqueue, Entry.isCompletion, Entry.isFailure, List.countP_cons]
        omega
  | raised call => exact ⟨rfl, rfl, le_rfl, le_rfl⟩
  | reorder hperm =>
      simp [tally, hperm.length_eq, hperm.countP_eq]

theorem reaches_numbers {h : List Call} {s : State} (hr : outbox.Reaches h s) :
    s.table.length = s.log.countP Entry.isEnqueue ∧
      tally .published s.table = s.log.countP Entry.isCompletion ∧
      tally .dead s.table ≤ s.log.countP Entry.isFailure := by
  induction hr with
  | init h0 =>
      cases h0
      simp [tally]
  | step hr hstep ih =>
      obtain ⟨hlength, hpublished, hdead, -⟩ := step_numbers (reaches_invariant hr) hstep
      omega

/-- The log of a run only grows, and so do the settled events. -/
theorem run_numbers {s t : State} {calls : List Call} (hrun : outbox.Run s calls t)
    (hs : LeaseInvariant s) :
    s.table.length ≤ t.table.length ∧ tally .published s.table ≤ tally .published t.table ∧
      tally .dead s.table ≤ tally .dead t.table := by
  induction hrun with
  | nil s => exact ⟨le_rfl, le_rfl, le_rfl⟩
  | @cons s t u call calls hstep _ ih =>
      obtain ⟨hlength, hpublished, -, hdead⟩ := step_numbers hs hstep
      obtain ⟨entries, hlog⟩ := step_log hstep
      rw [hlog, List.countP_append] at hlength hpublished
      have hrest := ih (step_invariant hs hstep)
      omega

/-- A claim of the event is the last that the log says of it. -/
def leaseHeld (log : List Entry) (id : Uuid) : Bool :=
  (latest id log).any fun entry => entry.drawn.isSome

theorem LeaseInvariant.processing_iff_leaseHeld {s : State} (hs : LeaseInvariant s)
    {event : OutboxEvent} (hevent : event ∈ s.table) :
    event.status = .processing ↔ leaseHeld s.log event.id = true := by
  constructor
  · intro hprocessing
    obtain ⟨token, -, hlatest⟩ := (hs.rows event hevent).processing hprocessing
    simp [leaseHeld, hlatest, Entry.drawn]
  · intro hheld
    cases hlatest : latest event.id s.log with
    | none => simp [leaseHeld, hlatest] at hheld
    | some entry =>
        have hid : entry.event = event.id := by
          simpa using List.find?_some hlatest
        cases entry with
        | claimed id token =>
            obtain rfl : id = event.id := hid
            by_contra hidle
            exact ((hs.rows event hevent).idle hidle).2 token hlatest
        | _ => simp [leaseHeld, hlatest, Entry.drawn] at hheld

/-! ## What the numbers mean -/

/-- The numbers are those of the state `s` that the first statement sees, the age is that of the
state `t` that the second one sees. -/
structure Accounted (s t : State) (now : Instant) (metrics : OutboxMetrics) : Prop where
  /-- No event is lost, none is counted twice. -/
  total : metrics.pending + metrics.processing + metrics.published + metrics.dead =
    s.log.countP Entry.isEnqueue
  /-- The published events are the accepted completions. -/
  published : metrics.published = s.log.countP Entry.isCompletion
  /-- The processing events are those under a lease. -/
  processing : metrics.processing =
    s.table.countP fun event => leaseHeld s.log event.id
  /-- Every dead event failed. -/
  dead : metrics.dead ≤ s.log.countP Entry.isFailure
  /-- There is an age when an event is pending. -/
  age_none : metrics.oldestPendingAge = none ↔ ∀ event ∈ t.table, event.status ≠ .pending
  /-- It is the largest age of a pending event, and not negative. -/
  age_some : ∀ age, metrics.oldestPendingAge = some age →
    (∀ event ∈ t.table, event.status = .pending → now - event.createdAt ≤ age) ∧
      0 ≤ age ∧ (age = 0 ∨
        ∃ event ∈ t.table, event.status = .pending ∧ now - event.createdAt = age)

theorem LeaseInvariant.accounted {s t : State} (hs : LeaseInvariant s)
    (hnumbers : s.table.length = s.log.countP Entry.isEnqueue ∧
      tally .published s.table = s.log.countP Entry.isCompletion ∧
      tally .dead s.table ≤ s.log.countP Entry.isFailure) (now : Instant) :
    Accounted s t now (getOutboxMetrics s.table t.table now) where
  total := by
    have htotal := tally_total s.table
    simp only [getOutboxMetrics, buildOutboxMetrics, statusCounts_countByStatus]
    omega
  published := by
    simpa only [getOutboxMetrics, buildOutboxMetrics, statusCounts_countByStatus] using hnumbers.2.1
  processing := by
    simp only [getOutboxMetrics, buildOutboxMetrics, statusCounts_countByStatus, tally]
    refine List.countP_congr fun event hevent => ?_
    rw [beq_iff_eq]
    exact hs.processing_iff_leaseHeld hevent
  dead := by
    simpa only [getOutboxMetrics, buildOutboxMetrics, statusCounts_countByStatus] using hnumbers.2.2
  age_none := by
    rw [← oldestPending_eq_none]
    simp [getOutboxMetrics, buildOutboxMetrics]
  age_some age hage := by
    obtain ⟨oldest, holdest, rfl⟩ := Option.map_eq_some_iff.mp hage
    obtain ⟨⟨event, hevent, hpending, rfl⟩, hleast⟩ := oldestPending_eq_some.mp holdest
    refine ⟨fun other hother hopen => ?_, le_max_right _ _, ?_⟩
    · have hage : now - other.createdAt ≤ now - event.createdAt :=
        Int.sub_le_sub_left (hleast other hother hopen) now
      exact hage.trans (le_max_left _ _)
    · rcases le_total (now - event.createdAt) 0 with h | h
      · exact .inl (max_eq_right h)
      · exact .inr ⟨event, hevent, hpending, (max_eq_left h).symm⟩

/-- In every run, whatever the workers commit between the two statements, the metrics account for
every transaction of the log, and from one reading to a later one the events in all, the published
ones and the dead ones never become fewer. -/
theorem outbox_metrics {h : List Call} {s t : State} {between : List Call}
    (hr : outbox.Reaches h s) (hrun : outbox.Run s between t) (now : Instant) :
    Accounted s t now (getOutboxMetrics s.table t.table now) ∧
      ∀ calls u between' v later, outbox.Run t calls u → outbox.Run u between' v →
        let metrics := getOutboxMetrics s.table t.table now
        let metrics' := getOutboxMetrics u.table v.table later
        metrics.published ≤ metrics'.published ∧ metrics.dead ≤ metrics'.dead ∧
          metrics.pending + metrics.processing + metrics.published + metrics.dead ≤
            metrics'.pending + metrics'.processing + metrics'.published + metrics'.dead := by
  have hs := reaches_invariant hr
  have ht := reaches_invariant (hr.append hrun)
  refine ⟨hs.accounted (reaches_numbers hr) now, ?_⟩
  intro calls u between' v later hcalls _
  have hfirst := run_numbers hrun hs
  have hsecond := run_numbers hcalls ht
  have hbefore := tally_total s.table
  have hafter := tally_total u.table
  simp only [getOutboxMetrics, buildOutboxMetrics, statusCounts_countByStatus]
  omega

/-- The metrics of an outbox whose only event is claimed before the second statement. -/
theorem outbox_metrics_claimed : ∃ s t : State,
    Accounted s t 30 (getOutboxMetrics s.table t.table 30) ∧
      getOutboxMetrics s.table t.table 30 = ⟨1, 0, 0, 0, none⟩ := by
  have henqueued : outbox.Reaches _ ⟨[sampleEvent], [.enqueued 1]⟩ :=
    .step (.init rfl) (.enqueue {} 1 10 10 "orders" "created" [] none none none none rfl (by simp))
  have hclaim := Step.claim (s := ⟨[sampleEvent], [.enqueued 1]⟩) (fun _ => false) "worker" 5 1 20
    (fun _ => 7) sample_claimOutboxEvents (by decide)
  exact ⟨_, _, (outbox_metrics henqueued (.cons hclaim (.nil _)) 30).1, by decide⟩

end ProdkitStorage.Outbox

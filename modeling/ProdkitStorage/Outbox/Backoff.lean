import ProdkitStorage.Outbox.Attempts

/-!
# Backoff

`mark_outbox_failed` puts `available_at` off by a delay that doubles with every attempt.  The
delay is a promise about the next claim, which another worker makes, after any number of other
transactions: a waiting row is changed by a claim of it and by nothing else (`step_waiting`).
-/

namespace ProdkitStorage.Outbox

open ProdkitStorage.Foundation (System)
open ProdkitStorage.Python

/-- The delay in seconds before an event is tried again. -/
def retryDelay (baseDelaySeconds : Int) (attempts : Nat) : Int :=
  min (baseDelaySeconds * 2 ^ (attempts - 1)) 3600

/-- The log only grows. -/
theorem step_log {s t : State} {call : Call} (hstep : Step s call t) :
    ∃ entries, t.log = entries ++ s.log := by
  cases hstep with
  | enqueue => exact ⟨[_], rfl⟩
  | claim => exact ⟨_, rfl⟩
  | complete => exact ⟨[_], rfl⟩
  | fail => exact ⟨[_], rfl⟩
  | raised => exact ⟨[], rfl⟩
  | reorder => exact ⟨[], rfl⟩

theorem step_claims {s t : State} {call : Call} (hstep : Step s call t) (id : Uuid) :
    claims id s.log ≤ claims id t.log := by
  obtain ⟨entries, h⟩ := step_log hstep
  rw [h, claims, claims, List.countP_append]
  omega

theorem run_claims {s t : State} {calls : List Call} (hrun : outbox.Run s calls t) (id : Uuid) :
    claims id s.log ≤ claims id t.log := by
  induction hrun with
  | nil s => exact le_rfl
  | cons hstep _ ih => exact (step_claims hstep id).trans ih

/-- Only a claim changes a row that is not processing. -/
theorem step_waiting {s t : State} {call : Call} (hs : LeaseInvariant s) (hstep : Step s call t)
    {event : OutboxEvent} (hevent : event ∈ s.table) (hidle : event.status ≠ .processing) :
    event ∈ t.table ∨ claims event.id s.log < claims event.id t.log := by
  have hnotLeased : ∀ eventId lockToken, ¬leased eventId lockToken event = true :=
    fun eventId lockToken hleased => hidle (leased_iff.mp hleased).2.1
  cases hstep with
  | enqueue => exact .inl (List.mem_append_left _ hevent)
  | @claim table events locked workerId batchSize staleAfter now uuid4 hclaim _ =>
      obtain ⟨-, rfl⟩ := claimOutboxEvents_ok hclaim
      by_cases hid : event.id ∈ events.map OutboxEvent.id
      · have hentries : events.map (fun event => Entry.claimed event.id (uuid4 event.id)) =
            batch uuid4 (events.map OutboxEvent.id) := by
          rw [batch, List.map_map]
          rfl
        have hcount := List.count_pos_iff.mpr hid
        rw [hentries, claims_batch]
        exact .inr (by omega)
      · exact .inl (List.mem_map.mpr ⟨event, hevent, if_neg hid⟩)
  | complete eventId lockToken shown publishedAt hcomplete =>
      obtain ⟨-, rfl⟩ := completeOutboxEvent_ok hcomplete
      exact .inl (List.mem_map.mpr ⟨event, hevent, if_neg (hnotLeased eventId lockToken)⟩)
  | fail eventId lockToken shown error maxAttempts baseDelaySeconds now hfail =>
      obtain ⟨row, hrow, hleased, marked, -, rfl, rfl⟩ := failOutboxEvent_ok hfail
      refine .inl (List.mem_map.mpr ⟨event, hevent, if_neg ?_⟩)
      intro hid
      obtain rfl := hs.row_unique hevent hrow hid
      exact hnotLeased eventId lockToken hleased
  | raised call => exact .inl hevent
  | reorder hperm => exact .inl (hperm.mem_iff.mpr hevent)

/-- A waiting row stays as it is until it is claimed. -/
theorem run_waiting {s t : State} {calls : List Call} (hrun : outbox.Run s calls t)
    (hs : LeaseInvariant s) {event : OutboxEvent} (hevent : event ∈ s.table)
    (hidle : event.status ≠ .processing)
    (hunclaimed : claims event.id t.log = claims event.id s.log) : event ∈ t.table := by
  induction hrun with
  | nil s => exact hevent
  | @cons s t u call calls hstep hrest ih =>
      have hfirst := step_claims hstep event.id
      have hlater := run_claims hrest event.id
      rcases step_waiting hs hstep hevent hidle with h | h
      · exact ih (step_invariant hs hstep) h (by omega)
      · omega

/-- What `mark_outbox_failed` makes of the status and of `available_at`. -/
theorem markOutboxFailed_due {event failed : OutboxEvent} {error : String}
    {maxAttempts baseDelaySeconds : Int} {now : Instant}
    (h : markOutboxFailed event error maxAttempts baseDelaySeconds now = .ok failed) :
    (maxAttempts ≤ event.attempts ∧ failed.status = .dead) ∨
      (event.attempts < maxAttempts ∧ failed.status = .pending ∧
        failed.availableAt = now + retryDelay baseDelaySeconds event.attempts * 1000000) := by
  unfold markOutboxFailed at h
  split at h
  · cases h
  split at h
  · cases h
  dsimp only at h
  split at h
  · next hused =>
      cases h
      exact .inl ⟨hused, rfl⟩
  · next hleft =>
      cases h
      exact .inr ⟨not_le.mp hleft, rfl, rfl⟩

/-- What a failed event promises for as long as nobody claims it. -/
structure Rests (s : State) (failed : OutboxEvent) (attempts : Nat)
    (maxAttempts baseDelaySeconds : Int) (now : Instant) : Prop where
  /-- The row is as the failure left it. -/
  stored : failed ∈ s.table
  /-- It may be claimed from the end of the delay on, if it has attempts left, and never else. -/
  claimable_iff : ∀ later staleBefore, claimable later staleBefore failed = true ↔
    attempts < maxAttempts ∧ now + retryDelay baseDelaySeconds attempts * 1000000 ≤ later
  /-- A claim that returns the event is made after the delay. -/
  next : ∀ locked workerId batchSize staleAfter later uuid4 table events,
    claimOutboxEvents s.table locked workerId batchSize staleAfter later uuid4 =
        .ok (table, events) →
      failed.id ∈ events.map OutboxEvent.id →
        attempts < maxAttempts ∧ now + retryDelay baseDelaySeconds attempts * 1000000 ≤ later

/-- A failed event rests: in every run after the failure in which it was not claimed again, the
next claim of it is made after a delay of `base * 2 ^ (attempts - 1)` seconds, an hour at most,
and there is none when its attempts are used up. -/
theorem retry_backoff {h : List Call} {s : State} (hr : outbox.Reaches h s)
    {eventId lockToken : Uuid} {shown error : String} {maxAttempts baseDelaySeconds : Int}
    {now : Instant} {table : List OutboxEvent} {failed : OutboxEvent}
    (hfail : failOutboxEvent s.table eventId lockToken shown error maxAttempts baseDelaySeconds
      now = .ok (table, failed)) {calls : List Call} {t : State}
    (hrun : outbox.Run ⟨table, .failed eventId lockToken :: s.log⟩ calls t)
    (hunclaimed : claims eventId t.log = claims eventId s.log) :
    Rests t failed (claims eventId s.log) maxAttempts baseDelaySeconds now := by
  have hs := reaches_invariant hr
  have hstep := Step.fail (s := s) eventId lockToken shown error maxAttempts baseDelaySeconds now
    hfail
  have hafter := step_invariant hs hstep
  have ht := reaches_invariant ((hr.step hstep).append hrun)
  obtain ⟨row, hrow, hleased, marked, hmarked, rfl, rfl⟩ := failOutboxEvent_ok hfail
  obtain ⟨rfl, -, -⟩ := leased_iff.mp hleased
  obtain ⟨hid, hstatus, -⟩ := markOutboxFailed_ok hmarked
  have hidle : marked.flush.status ≠ .processing := by
    rcases hstatus with h | h <;> simp [OutboxEvent.flush, h]
  have hclaims : claims marked.flush.id t.log =
      claims marked.flush.id (.failed row.id lockToken :: s.log) := by
    have hsame : marked.flush.id = row.id := hid
    simp [hsame, hunclaimed, Entry.drawn]
  have hstored : marked.flush ∈ t.table :=
    run_waiting hrun hafter (List.mem_map.mpr ⟨row, hrow, if_pos rfl⟩) hidle hclaims
  have hattempts : row.attempts = claims row.id s.log := (hs.rows row hrow).attempts
  have hclaimable : ∀ later staleBefore, claimable later staleBefore marked.flush = true ↔
      (claims row.id s.log : Int) < maxAttempts ∧
        now + retryDelay baseDelaySeconds (claims row.id s.log) * 1000000 ≤ later := by
    intro later staleBefore
    rw [← hattempts]
    rcases markOutboxFailed_due hmarked with ⟨hused, hdead⟩ | ⟨hleft, hpending, hdue⟩
    · simp [claimable, OutboxEvent.flush, hdead, hused]
    · simp [claimable, OutboxEvent.flush, hpending, hdue, hleft]
  refine ⟨hstored, hclaimable, ?_⟩
  intro locked workerId batchSize staleAfter later uuid4 table events hclaim hmem
  rw [(claimOutboxEvents_ok hclaim).1] at hmem
  obtain ⟨selected, hselected, heq⟩ := List.mem_map.mp hmem
  obtain ⟨hpresent, hmatch, -⟩ := mem_selectForClaim hselected
  obtain rfl := ht.row_unique hpresent hstored heq
  exact (hclaimable later _).mp hmatch

/-- An event fails once and waits five seconds, while another is enqueued, claimed and published. -/
theorem retry_backoff_failed : ∃ failed,
    failOutboxEvent [claimEvent "worker" 20 7 sampleEvent] 1 7 "1" "down" 10 5 30 =
        .ok ([failed], failed) ∧
      Rests ⟨[failed, publishEvent 50 (claimEvent "other" 40 8 otherEvent)],
        [.published 2 8, .claimed 2 8, .enqueued 2, .failed 1 7, .claimed 1 7, .enqueued 1]⟩
        failed 1 10 5 30 := by
  have hfail : failOutboxEvent [claimEvent "worker" 20 7 sampleEvent] 1 7 "1" "down" 10 5 30 =
      .ok _ := rfl
  exact ⟨_, hfail, retry_backoff sample_claimed hfail
    (run_otherEvent rfl (by decide) (by decide)) (by decide)⟩

end ProdkitStorage.Outbox

import ProdkitStorage.Outbox.Backoff

/-!
# Marking

`mark_outbox_published` and `mark_outbox_failed` change an event in memory, and the session of
the worker writes it when it flushes.  No lock token is compared there: the flush compares the
version with the one the event was loaded at.

That is as good a fence.  Every committed change of an event raises its version, so a flush finds
its row exactly when nothing happened to the event since, and for an event loaded under a lease
that is when the lease is still held (`leased_iff_untouched`).
-/

namespace ProdkitStorage.Outbox

open ProdkitStorage.Foundation (System)
open ProdkitStorage.Python

/-- `mark_outbox_published`. -/
def markOutboxPublished (event : OutboxEvent) (publishedAt : Instant) : OutboxEvent :=
  { event with
    status := .published
    publishedAt := some publishedAt
    lockedAt := none
    lockedBy := none
    lockToken := none
    lastError := none }

/-- `SET` of the flush: the columns that the two functions set, where they changed, and the next
version. -/
def writeChanges (loaded marked row : OutboxEvent) : OutboxEvent :=
  { row with
    status := if marked.status = loaded.status then row.status else marked.status
    availableAt :=
      if marked.availableAt = loaded.availableAt then row.availableAt else marked.availableAt
    publishedAt :=
      if marked.publishedAt = loaded.publishedAt then row.publishedAt else marked.publishedAt
    lockedAt := if marked.lockedAt = loaded.lockedAt then row.lockedAt else marked.lockedAt
    lockedBy := if marked.lockedBy = loaded.lockedBy then row.lockedBy else marked.lockedBy
    lockToken := if marked.lockToken = loaded.lockToken then row.lockToken else marked.lockToken
    lastError := if marked.lastError = loaded.lastError then row.lastError else marked.lastError
    version := loaded.version + 1 }

/-- `WHERE id = ... AND version = ...`. -/
def matchesVersion (loaded row : OutboxEvent) : Bool :=
  row.id == loaded.id && row.version == loaded.version

/-- `session.flush()` with an event that was loaded and then marked, which changed it: for an object
as it was loaded the session sends no `UPDATE`.  `none` stands for `StaleDataError`: the statement
did not find one row. -/
def flushMarked (table : List OutboxEvent) (loaded marked : OutboxEvent) :
    Option (List OutboxEvent) :=
  if table.countP (matchesVersion loaded) = 1 then
    some (table.map fun row =>
      if matchesVersion loaded row then writeChanges loaded marked row else row)
  else none

/-! ## Versions along a run -/

theorem run_log {s t : State} {calls : List Call} (hrun : outbox.Run s calls t) :
    ∃ entries, t.log = entries ++ s.log := by
  induction hrun with
  | nil s => exact ⟨[], rfl⟩
  | cons hstep _ ih =>
      obtain ⟨first, hfirst⟩ := step_log hstep
      obtain ⟨rest, hrest⟩ := ih
      exact ⟨rest ++ first, by rw [hrest, hfirst, List.append_assoc]⟩

theorem step_changes {s t : State} {call : Call} (hstep : Step s call t) (id : Uuid) :
    changes id s.log ≤ changes id t.log := by
  obtain ⟨entries, h⟩ := step_log hstep
  rw [h, changes, changes, List.countP_append]
  omega

theorem run_changes {s t : State} {calls : List Call} (hrun : outbox.Run s calls t) (id : Uuid) :
    changes id s.log ≤ changes id t.log := by
  obtain ⟨entries, h⟩ := run_log hrun
  rw [h, changes, changes, List.countP_append]
  omega

/-- A transaction that changes a row says so in the log. -/
theorem step_changed {s t : State} {call : Call} (hstep : Step s call t) {event : OutboxEvent}
    (hevent : event ∈ s.table) :
    event ∈ t.table ∨ changes event.id s.log < changes event.id t.log := by
  cases hstep with
  | enqueue => exact .inl (List.mem_append_left _ hevent)
  | @claim table events locked workerId batchSize staleAfter now uuid4 hclaim _ =>
      obtain ⟨-, rfl⟩ := claimOutboxEvents_ok hclaim
      by_cases hid : event.id ∈ events.map OutboxEvent.id
      · have hentries : events.map (fun event => Entry.claimed event.id (uuid4 event.id)) =
            batch uuid4 (events.map OutboxEvent.id) := by
          rw [batch, List.map_map]
          rfl
        have hcount := List.count_pos_iff.mpr hid
        rw [hentries, changes_batch]
        exact .inr (by omega)
      · exact .inl (List.mem_map.mpr ⟨event, hevent, if_neg hid⟩)
  | complete eventId lockToken shown publishedAt hcomplete =>
      obtain ⟨-, rfl⟩ := completeOutboxEvent_ok hcomplete
      by_cases hleased : leased eventId lockToken event = true
      · refine .inr ?_
        simp [(leased_iff.mp hleased).1, Entry.event, Entry.settled]
      · exact .inl (List.mem_map.mpr ⟨event, hevent, if_neg hleased⟩)
  | fail eventId lockToken shown error maxAttempts baseDelaySeconds now hfail =>
      obtain ⟨row, hrow, hleased, marked, -, rfl, rfl⟩ := failOutboxEvent_ok hfail
      by_cases hid : event.id = row.id
      · refine .inr ?_
        simp [hid, (leased_iff.mp hleased).1, Entry.event, Entry.settled]
      · exact .inl (List.mem_map.mpr ⟨event, hevent, if_neg hid⟩)
  | raised call => exact .inl hevent
  | reorder hperm => exact .inl (hperm.mem_iff.mpr hevent)

theorem run_changed {s t : State} {calls : List Call} (hrun : outbox.Run s calls t)
    {event : OutboxEvent} (hevent : event ∈ s.table) :
    event ∈ t.table ∨ changes event.id s.log < changes event.id t.log := by
  induction hrun with
  | nil s => exact .inl hevent
  | @cons s t u call calls hstep hrest ih =>
      have hfirst := step_changes hstep event.id
      have hlater := run_changes hrest event.id
      rcases step_changed hstep hevent with h | h
      · exact (ih h).imp_right fun h => by omega
      · exact .inr (by omega)

/-- The row of an event is as it was exactly when its version is. -/
theorem matchesVersion_iff {s t : State} {calls : List Call} (hrun : outbox.Run s calls t)
    (hs : LeaseInvariant s) (ht : LeaseInvariant t) {event : OutboxEvent} (hevent : event ∈ s.table)
    {row : OutboxEvent} (hrow : row ∈ t.table) :
    matchesVersion event row = true ↔ row = event := by
  constructor
  · intro hmatch
    simp only [matchesVersion, Bool.and_eq_true, beq_iff_eq] at hmatch
    rcases run_changed hrun hevent with h | h
    · exact ht.row_unique hrow h hmatch.1
    · have hbefore := (hs.rows event hevent).version
      have hafter := (ht.rows row hrow).version
      rw [hmatch.1] at hafter
      omega
  · rintro rfl
    simp [matchesVersion]

/-- A lease is still held exactly when nothing happened to the event. -/
theorem leased_iff_untouched {s t : State} {calls : List Call} (hrun : outbox.Run s calls t)
    (hs : LeaseInvariant s) (ht : LeaseInvariant t) {event : OutboxEvent} (hevent : event ∈ s.table)
    {lockToken : Uuid} (htoken : event.lockToken = some lockToken) {row : OutboxEvent}
    (hrow : row ∈ t.table) :
    leased event.id lockToken row = true ↔ row = event := by
  have hprocessing : event.status = .processing := by
    by_contra hidle
    rw [((hs.rows event hevent).idle hidle).1] at htoken
    cases htoken
  constructor
  · intro hleased
    obtain ⟨hid, hlatest⟩ := (ht.rows row hrow).leased.mp hleased
    rcases run_changed hrun hevent with h | h
    · exact ht.row_unique hrow h hid
    · exfalso
      obtain ⟨entries, hlog⟩ := run_log hrun
      -- the log speaks of the event again, and last of a claim with the token
      have hnew : Entry.claimed event.id lockToken ∈ entries := by
        rw [hlog, changes, changes, List.countP_append] at h
        have hpos : 0 < entries.countP fun entry => entry.event == event.id &&
            (entry.drawn.isSome || entry.settled.isSome) := by omega
        obtain ⟨entry, hentry, habout⟩ := List.countP_pos_iff.mp hpos
        rw [Bool.and_eq_true] at habout
        rw [hid, hlog, latest, List.find?_append] at hlatest
        cases hfind : entries.find? fun entry => entry.event == event.id with
        | none => exact absurd habout.1 (List.find?_eq_none.mp hfind entry hentry)
        | some found =>
            rw [hfind, Option.some_or, Option.some.injEq] at hlatest
            exact hlatest ▸ List.mem_of_find?_eq_some hfind
      have hold := (hs.rows event hevent).token_claimed htoken
      have hdrawn := ht.drawn
      rw [hlog, drawnTokens, List.filterMap_append, List.nodup_append] at hdrawn
      exact hdrawn.2.2 lockToken (List.mem_filterMap.mpr ⟨_, hnew, rfl⟩) lockToken
        (List.mem_filterMap.mpr ⟨_, hold, rfl⟩) rfl
  · rintro rfl
    exact leased_iff.mpr ⟨rfl, hprocessing, htoken⟩

/-! ## Marking and settling -/

/-- What a flush makes of an untouched row. -/
theorem writeChanges_self (loaded marked : OutboxEvent) :
    writeChanges loaded marked loaded = { loaded with
      status := marked.status
      availableAt := marked.availableAt
      publishedAt := marked.publishedAt
      lockedAt := marked.lockedAt
      lockedBy := marked.lockedBy
      lockToken := marked.lockToken
      lastError := marked.lastError
      version := loaded.version + 1 } := by
  simp only [writeChanges, OutboxEvent.mk.injEq, true_and, and_true, ite_eq_right_iff]
  exact ⟨Eq.symm, Eq.symm, Eq.symm, Eq.symm, Eq.symm, Eq.symm, Eq.symm⟩

/-- `mark_outbox_failed` sets no other column. -/
theorem writeChanges_failed {event marked : OutboxEvent} {error : String}
    {maxAttempts baseDelaySeconds : Int} {now : Instant}
    (h : markOutboxFailed event error maxAttempts baseDelaySeconds now = .ok marked) :
    writeChanges event marked event = marked.flush := by
  rw [writeChanges_self]
  unfold markOutboxFailed at h
  split at h
  · cases h
  split at h
  · cases h
  dsimp only at h
  split at h
  · cases h
    rfl
  · cases h
    rfl

theorem markOutboxFailed_options {event marked : OutboxEvent} {error : String}
    {maxAttempts baseDelaySeconds : Int} {now : Instant}
    (h : markOutboxFailed event error maxAttempts baseDelaySeconds now = .ok marked) :
    0 < maxAttempts ∧ 0 < baseDelaySeconds := by
  unfold markOutboxFailed at h
  split at h
  · cases h
  split at h
  · cases h
  · omega

/-- A flush finds its row exactly when nothing happened to the event. -/
theorem countP_matchesVersion {s t : State} {calls : List Call} (hrun : outbox.Run s calls t)
    (hs : LeaseInvariant s) (ht : LeaseInvariant t) {event : OutboxEvent}
    (hevent : event ∈ s.table) :
    t.table.countP (matchesVersion event) = 1 ↔ event ∈ t.table := by
  have hmatch : ∀ row ∈ t.table, (matchesVersion event row = true ↔ row = event) :=
    fun _ hrow => matchesVersion_iff hrun hs ht hevent hrow
  constructor
  · intro hcount
    obtain ⟨row, hrow, hrowMatch⟩ := List.countP_pos_iff.mp (hcount ▸ Nat.one_pos)
    obtain rfl := (hmatch row hrow).mp hrowMatch
    exact hrow
  · intro hstored
    refine countP_eq_one ht.ids hstored ((hmatch event hstored).mpr rfl) fun row hrow h => ?_
    rw [(hmatch row hrow).mp h]

/-- What a flush of a marked event does. -/
theorem flushMarked_eq {s t : State} {calls : List Call} (hrun : outbox.Run s calls t)
    (hs : LeaseInvariant s) (ht : LeaseInvariant t) {event marked : OutboxEvent}
    (hevent : event ∈ s.table) (hstored : event ∈ t.table) :
    flushMarked t.table event marked = some (t.table.map fun row =>
      if row.id = event.id then writeChanges event marked event else row) := by
  rw [flushMarked, if_pos ((countP_matchesVersion hrun hs ht hevent).mpr hstored)]
  refine congrArg some (List.map_congr_left fun row hrow => ?_)
  have hmatch := matchesVersion_iff hrun hs ht hevent hrow
  by_cases h : row.id = event.id
  · have hsame := ht.row_unique hrow hstored h
    rw [if_pos (hmatch.mpr hsame), if_pos h, hsame]
  · rw [if_neg fun hv => h (congrArg OutboxEvent.id (hmatch.mp hv)), if_neg h]

/-- A worker that marks the event it claimed and flushes does what the settling operations do with
the token of the claim, whatever was committed in between: both write the same table or both
refuse.  The flush of any event that was read succeeds exactly when no transaction touched the
event since. -/
theorem marking_settles {h : List Call} {s : State} (hr : outbox.Reaches h s)
    {event : OutboxEvent} (hevent : event ∈ s.table) {calls : List Call} {t : State}
    (hrun : outbox.Run s calls t) :
    (∀ marked, (flushMarked t.table event marked).isSome = true ↔
      changes event.id t.log = changes event.id s.log) ∧
    ∀ lockToken, event.lockToken = some lockToken →
      (∀ shown publishedAt,
        flushMarked t.table event (markOutboxPublished event publishedAt) =
          (completeOutboxEvent t.table event.id lockToken shown publishedAt).toOption) ∧
      ∀ shown error maxAttempts baseDelaySeconds now marked,
        markOutboxFailed event error maxAttempts baseDelaySeconds now = .ok marked →
          flushMarked t.table event marked =
            (failOutboxEvent t.table event.id lockToken shown error maxAttempts baseDelaySeconds
              now).toOption.map Prod.fst := by
  have hs := reaches_invariant hr
  have ht := reaches_invariant (hr.append hrun)
  have hfenced := ht.fenced
  have hfinds : ∀ marked, flushMarked t.table event marked ≠ none ↔ event ∈ t.table := by
    intro marked
    rw [← countP_matchesVersion hrun hs ht hevent, flushMarked]
    split <;> simp_all
  refine ⟨fun marked => ?_, fun lockToken htoken => ?_⟩
  · rw [Option.isSome_iff_ne_none, hfinds]
    constructor
    · intro hstored
      have hbefore := (hs.rows event hevent).version
      have hafter := (ht.rows event hstored).version
      omega
    · intro hsame
      exact (run_changed hrun hevent).resolve_right (by omega)
  have hleased : ∀ row ∈ t.table, (leased event.id lockToken row = true ↔ row = event) :=
    fun _ hrow => leased_iff_untouched hrun hs ht hevent htoken hrow
  by_cases hstored : event ∈ t.table
  · have hlatest : latest event.id t.log = some (.claimed event.id lockToken) :=
      ((ht.rows event hstored).leased.mp ((hleased event hstored).mpr rfl)).2
    constructor
    · intro shown publishedAt
      rw [flushMarked_eq hrun hs ht hevent hstored, writeChanges_self,
        hfenced.complete_current event hstored lockToken shown publishedAt hlatest]
      rfl
    · intro shown error maxAttempts baseDelaySeconds now marked hmarked
      obtain ⟨hmax, hdelay⟩ := markOutboxFailed_options hmarked
      obtain ⟨marked', hmarked', hfail⟩ := hfenced.fail_current event hstored lockToken shown error
        maxAttempts baseDelaySeconds now hlatest hmax hdelay
      obtain rfl := Except.ok.inj (hmarked.symm.trans hmarked')
      rw [flushMarked_eq hrun hs ht hevent hstored, writeChanges_failed hmarked, hfail]
      rfl
  · have hlost : latest event.id t.log ≠ some (.claimed event.id lockToken) := by
      intro hlatest
      obtain ⟨row, hrow, hid⟩ := List.mem_map.mp (ht.known _ (latest_mem hlatest))
      have hid' : row.id = event.id := hid
      have hheld := (ht.rows row hrow).leased.mpr ⟨rfl, hid' ▸ hlatest⟩
      rw [hid'] at hheld
      exact hstored ((hleased row hrow).mp hheld ▸ hrow)
    have hnone : ∀ marked, flushMarked t.table event marked = none :=
      fun marked => not_not.mp fun h => hstored ((hfinds marked).mp h)
    constructor
    · intro shown publishedAt
      rw [hnone, hfenced.complete_stale _ _ shown publishedAt hlost]
      rfl
    · intro shown error maxAttempts baseDelaySeconds now marked _
      rw [hnone, hfenced.fail_stale _ _ shown error maxAttempts baseDelaySeconds now hlost]
      rfl

/-- The worker of an event marks it, after another event was enqueued, claimed and published. -/
theorem marking_settles_claimed :
    let event := claimEvent "worker" 20 7 sampleEvent
    let table := [event, publishEvent 50 (claimEvent "other" 40 8 otherEvent)]
    (flushMarked table event (markOutboxPublished event 60)).isSome = true ∧
      flushMarked table event (markOutboxPublished event 60) =
        (completeOutboxEvent table 1 7 "1" 60).toOption := by
  have hsettles := marking_settles sample_claimed (List.mem_singleton_self _)
    (run_otherEvent rfl (by decide) (by decide))
  exact ⟨(hsettles.1 _).mpr (by decide), (hsettles.2 7 rfl).1 "1" 60⟩

end ProdkitStorage.Outbox

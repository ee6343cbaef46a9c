import ProdkitStorage.Redis.RateLimit

/-!
# The time to wait

What `retry_after_ms` of a denied check promises.  Until the next check is allowed the key tracks
the bucket that the denied check left: denied checks write down what they find, and a key that
expires leaves a full bucket.  So a later check finds what the denied check left and what was
refilled since.
-/

namespace ProdkitStorage.Redis.RateLimit

open ProdkitStorage.Foundation
open ProdkitStorage.Foundation.TokenBucket
open ProdkitStorage.Python

/-- The event is not a check that is allowed. -/
def Event.Refuses : Event → Prop
  | .check _ _ (.ok decision) => decision.allowed = false
  | _ => True

/-- The steps that allow no check. -/
def refusals (key : String) (capacity : ℤ) (rate : ℚ) : System Hashes Event :=
  (checks key capacity rate).under fun _ event => event.Refuses

variable {key : String} {capacity : ℤ} {rate : ℚ}

/-- The server tracks a bucket that holds at every later instant what `left` would hold. -/
structure Holds (key : String) (capacity : ℤ) (rate : ℚ) (left : Bucket ℚ) (ks : Hashes) :
    Prop where
  bucket : ∃ b, Tracks key capacity rate ks b ∧ 0 ≤ b.level ∧
    ∀ later, b.time ≤ later → b.refilled (capacity : ℚ) (rate / 1000) later =
      left.refilled (capacity : ℚ) (rate / 1000) later

/-- A check asks for the positive cost that it was given. -/
theorem validate_ok {cost : ℤ} (h : validate capacity rate cost = .ok ()) :
    0 < capacity ∧ 0 < rate ∧ 0 < cost ∧ cost ≤ capacity := by
  unfold validate at h
  split at h
  · cases h
  · next hpositive =>
      split at h
      · cases h
      · next hcost =>
          rw [not_or, not_or, not_le, not_le, not_le] at hpositive
          exact ⟨hpositive.1, hpositive.2.1, hpositive.2.2, not_lt.mp hcost⟩

/-- What an accepted check answers and writes, in terms of the bucket behind the key. -/
theorem check_decides {ks ks' : Hashes} {b : Bucket ℚ} (h : Tracks key capacity rate ks b)
    {now : ℕ × ℕ} (hnow : nowMs now = ks.now) {cost : ℤ}
    (hvalid : validate capacity rate cost = .ok ()) {outcome : Except PyError RateLimitDecision}
    (hcheck : check ks now key capacity rate cost = (ks', outcome)) :
    ∃ decision, outcome = .ok decision ∧
      (decision.allowed = true ↔ (cost : ℚ) ≤ b.refilled (capacity : ℚ) (rate / 1000) (nowMs now)) ∧
      (decision.allowed = false →
        decision.retryAfterMs =
          ⌈(cost - b.refilled (capacity : ℚ) (rate / 1000) (nowMs now)) / (rate / 1000)⌉ ∧
        Tracks key capacity rate ks'
          ⟨b.refilled (capacity : ℚ) (rate / 1000) (nowMs now), nowMs now⟩) := by
  obtain ⟨hcapacity, hrate, -, -⟩ := validate_ok hvalid
  have htokens := h.refilled hrate hnow
  unfold check at hcheck
  rw [hvalid] at hcheck
  simp only [tokenBucketScript, htokens] at hcheck
  split at hcheck
  · next henough =>
      obtain ⟨rfl, rfl⟩ := Prod.mk.inj hcheck
      exact ⟨_, rfl, ⟨fun _ => henough, fun _ => rfl⟩, fun hdenied => Bool.noConfusion hdenied⟩
  · next hshort =>
      obtain ⟨rfl, rfl⟩ := Prod.mk.inj hcheck
      exact ⟨_, rfl,
        ⟨fun hallowed => Bool.noConfusion hallowed, fun henough => absurd henough hshort⟩,
        fun _ => ⟨rfl, .written hnow hcapacity hrate _⟩⟩

/-- Steps that allow nothing keep what the bucket holds. -/
theorem Holds.step (hcapacity : 0 < capacity) (hrate : 0 < rate) {left : Bucket ℚ}
    {ks ks' : Hashes} {event : Event} (h : Holds key capacity rate left ks)
    (hstep : (refusals key capacity rate).step ks event ks') :
    Holds key capacity rate left ks' := by
  obtain ⟨b, htracks, hlevel, hlater⟩ := h.bucket
  obtain ⟨hstep, hrefuses⟩ := hstep
  cases hstep with
  | @check _ outcome now cost hnow hcheck =>
      cases hvalid : validate capacity rate cost with
      | error error =>
          rw [check, hvalid] at hcheck
          obtain ⟨rfl, -⟩ := Prod.mk.inj hcheck
          exact h
      | ok valid =>
          obtain ⟨decision, rfl, -, hdenied⟩ := check_decides htracks hnow hvalid hcheck
          have htime : b.time ≤ nowMs now := hnow ▸ htracks.time_le
          refine ⟨⟨_, (hdenied hrefuses).2, ?_, fun later hle => ?_⟩⟩
          · exact b.refilled_nonneg (by positivity) (by positivity) hlevel _
          · rw [Bucket.refilled_refilled (by positivity) htime hle]
            exact hlater later (htime.trans hle)
  | tick elapsed => exact ⟨⟨b, htracks.tick hrate hlevel elapsed, hlevel, hlater⟩⟩
  | expire hlive hle => exact ⟨⟨b, htracks.expire hrate hlevel hlive hle, hlevel, hlater⟩⟩

theorem Holds.run (hcapacity : 0 < capacity) (hrate : 0 < rate) {left : Bucket ℚ}
    {ks ks' : Hashes} {events : List Event} (h : Holds key capacity rate left ks)
    (hrun : (refusals key capacity rate).Run ks events ks') : Holds key capacity rate left ks' := by
  induction hrun with
  | nil ks => exact h
  | cons hstep _ ih => exact ih (h.step hcapacity hrate hstep)

/-- The clock of the server does not go back. -/
theorem now_le_of_step {ks ks' : Hashes} {event : Event}
    (hstep : Step key capacity rate ks event ks') :
    ks.now ≤ ks'.now := by
  cases hstep with
  | @check _ outcome now cost hnow hcheck =>
      have hsame : ks'.now = ks.now := by
        unfold check at hcheck
        split at hcheck
        · rw [(Prod.mk.inj hcheck).1]
        · rw [← (Prod.mk.inj hcheck).1]
          unfold tokenBucketScript
          dsimp only
          split
          all_goals
            rw [Keyspace.now_pexpire]
            exact Keyspace.now_upsert ks key _ _
      exact hsame.ge
  | tick elapsed => exact Nat.le_add_right _ _
  | expire hlive hle => exact le_rfl

theorem now_le_of_run {ks ks' : Hashes} {events : List Event}
    (hrun : (refusals key capacity rate).Run ks events ks') : ks.now ≤ ks'.now := by
  induction hrun with
  | nil ks => exact le_rfl
  | cons hstep _ ih => exact (now_le_of_step hstep.1).trans ih

/-- A check that is denied names the exact time to wait: a check of the same cost is denied before,
and allowed from then on, while no other check is allowed in between. -/
theorem retry_after_exact {history between : List Event} {ks ks' ks'' last : Hashes}
    (hr : (checks key capacity rate).Reaches history ks) {now later : ℕ × ℕ} {cost : ℤ}
    {decision : RateLimitDecision} {outcome : Except PyError RateLimitDecision}
    (hnow : nowMs now = ks.now)
    (hcheck : check ks now key capacity rate cost = (ks', .ok decision))
    (hdenied : decision.allowed = false)
    (hbetween : (refusals key capacity rate).Run ks' between ks'')
    (hlater : nowMs later = ks''.now)
    (hagain : check ks'' later key capacity rate cost = (last, outcome)) :
    1 ≤ decision.retryAfterMs ∧ ∃ next, outcome = .ok next ∧
      (next.allowed = true ↔ decision.retryAfterMs ≤ (nowMs later : ℤ) - nowMs now) := by
  have hvalid : validate capacity rate cost = .ok () := by
    cases hvalid : validate capacity rate cost with
    | error error =>
        rw [check, hvalid] at hcheck
        cases hcheck
    | ok valid => rfl
  obtain ⟨hcapacity, hrate, hcost, hle⟩ := validate_ok hvalid
  have hserved : Served key capacity rate history ks :=
    hr.invariant (fun _ h => .init h) fun _ _ _ _ _ h hstep => h.step hcapacity hrate hstep
  obtain ⟨b, hreaches, htracks⟩ := hserved.bucket
  have hlevel := (reaches_bounded (by positivity) (by positivity) hreaches).nonneg
  -- the bucket that the denied check leaves
  obtain ⟨denied, hreply, hallowed, hleft⟩ := check_decides htracks hnow hvalid hcheck
  cases hreply
  obtain ⟨hwait, hwritten⟩ := hleft hdenied
  have hlevel' : 0 ≤ b.refilled (capacity : ℚ) (rate / 1000) (nowMs now) :=
    b.refilled_nonneg (by positivity) (by positivity) hlevel (nowMs now)
  have hshort : b.refilled (capacity : ℚ) (rate / 1000) (nowMs now) < cost := by
    rw [← not_le, ← hallowed, hdenied]
    exact Bool.false_ne_true
  have hholds :
      Holds key capacity rate ⟨b.refilled (capacity : ℚ) (rate / 1000) (nowMs now), nowMs now⟩
        ks' := ⟨⟨_, hwritten, hlevel', fun _ _ => rfl⟩⟩
  obtain ⟨b', htracks', -, hfinds⟩ := (hholds.run hcapacity hrate hbetween).bucket
  obtain ⟨next, rfl, hnext, -⟩ := check_decides htracks' hlater hvalid hagain
  -- what the later check finds
  have hclock : (nowMs now : ℚ) ≤ nowMs later := by
    have hsame : ks.now ≤ ks'.now := now_le_of_step (.check now cost hnow hcheck)
    rw [hnow, hlater]
    exact_mod_cast hsame.trans (now_le_of_run hbetween)
  have hfound : b'.refilled (capacity : ℚ) (rate / 1000) (nowMs later) =
      min (capacity : ℚ) (b.refilled (capacity : ℚ) (rate / 1000) (nowMs now) +
        (nowMs later - nowMs now) * (rate / 1000)) := by
    rw [hfinds _ (hlater ▸ htracks'.time_le), Bucket.refilled, max_eq_right (sub_nonneg.mpr hclock)]
  have hperMs : 0 < rate / 1000 := by positivity
  have hcapacity' : (cost : ℚ) ≤ capacity := by exact_mod_cast hle
  refine ⟨?_, next, rfl, ?_⟩
  · rw [hwait]
    exact Int.one_le_ceil_iff.mpr (div_pos (sub_pos.mpr hshort) hperMs)
  · rw [hnext, hfound, le_min_iff, and_iff_right hcapacity', hwait, Int.ceil_le, div_le_iff₀ hperMs,
      sub_le_iff_le_add', Int.cast_sub, Int.cast_natCast, Int.cast_natCast]

/-! ## A user who is told to wait -/

/-- The key after a denied check. -/
def afterDenied : Hashes := (hset afterFirst "user" ⟨2, 0⟩).pexpire "user" 20000

theorem check_denied : check afterFirst (0, 0) "user" 5 (1 / 2) 5 =
    (afterDenied, .ok ⟨false, 2, 6000⟩) := by
  have hstored : afterFirst.get "user" = some ⟨2, 0⟩ := rfl
  have hfloor : ⌊(2 : ℚ)⌋ = 2 := rfl
  have hceil : ⌈(6000 : ℚ)⌉ = 6000 := rfl
  norm_num [check, validate, sample_ttlMs, tokenBucketScript, hstored, nowMs, hfloor, hceil]
  rfl

theorem retry_after_exact_user : ∃ next,
    (check (afterDenied.tick 6000) (6, 0) "user" 5 (1 / 2) 5).2 = .ok next ∧
      next.allowed = true := by
  have hstart : (checks "user" 5 (1 / 2)).Reaches [] Keyspace.empty := .init rfl
  have hfirst := hstart.step (.check (0, 0) 3 rfl check_first)
  have hlater : nowMs (6, 0) = (afterDenied.tick 6000).now := rfl
  obtain ⟨-, next, hnext, hallowed⟩ := retry_after_exact hfirst rfl check_denied rfl
    (.cons ⟨.tick _ 6000, trivial⟩ (.nil _)) hlater rfl
  exact ⟨next, hnext, hallowed.mpr (by decide)⟩

end ProdkitStorage.Redis.RateLimit

import Mathlib.Algebra.Order.Ring.Rat
import Mathlib.Data.Rat.Floor
import ProdkitStorage.Foundation.Keyspace
import ProdkitStorage.Foundation.TokenBucket
import ProdkitStorage.Python.Error

/-!
# The rate limiter

`redis/rate_limit.py`: the token-bucket script and the client's call of it, over
exact rationals.  The script runs atomically, so a check is one step; the async
limiter runs the same script.

A key that is gone reads like a full bucket.  The time to live of the key outlasts a
refill of the whole bucket, so the bucket that never expires is full by then as well:
`Tracks` relates the two, and the bound on what a window admits is that of the bucket.
-/

namespace ProdkitStorage.Redis.RateLimit

open ProdkitStorage.Foundation
open ProdkitStorage.Foundation.TokenBucket
open ProdkitStorage.Python

/-! ## The script -/

/-- The hash of a key. -/
structure Hash where
  tokens : ℚ
  updatedAt : ℕ

/-- The keys of the server with their hashes. -/
abbrev Hashes := Keyspace String Hash

/-- `now_ms` of a reply of `TIME`: the seconds, and the microseconds past them. -/
def nowMs (now : ℕ × ℕ) : ℕ := now.1 * 1000 + now.2 / 1000

/-- `HSET key ...`, with both fields. -/
def hset (ks : Hashes) (key : String) (hash : Hash) : Hashes := ks.upsert key hash fun _ => hash

/-- `_TOKEN_BUCKET_SCRIPT`, with the reply `now` of `TIME`. -/
def tokenBucketScript (ks : Hashes) (now : ℕ × ℕ) (key : String)
    (capacity refillPerMs requested : ℚ)
    (ttlMs : ℕ) : Hashes × ℤ × ℤ × ℤ :=
  let nowMs := nowMs now
  let state := ks.get key
  let tokens := (state.map Hash.tokens).getD capacity
  let updatedAt := (state.map Hash.updatedAt).getD nowMs
  let elapsed : ℚ := max 0 ((nowMs : ℚ) - updatedAt)
  let tokens := min capacity (tokens + elapsed * refillPerMs)
  if requested ≤ tokens then
    (((hset ks key ⟨tokens - requested, nowMs⟩).pexpire key ttlMs), 1, ⌊tokens - requested⌋, 0)
  else
    ((hset ks key ⟨tokens, nowMs⟩).pexpire key ttlMs, 0, ⌊tokens⌋,
      ⌈(requested - tokens) / refillPerMs⌉)

/-! ## The client -/

/-- `RateLimitDecision`. -/
structure RateLimitDecision where
  allowed : Bool
  remaining : ℤ
  retryAfterMs : ℤ
deriving DecidableEq, Repr

/-- `_validate`. -/
def validate (capacity : ℤ) (rate : ℚ) (cost : ℤ) : Except PyError Unit :=
  if capacity ≤ 0 ∨ rate ≤ 0 ∨ cost ≤ 0 then
    .error (.valueError "capacity, refill rate, and cost must be positive")
  else if capacity < cost then .error (.valueError "cost cannot exceed bucket capacity")
  else .ok ()

/-- `int(number)`: towards zero. -/
def truncate (number : ℚ) : ℤ := if 0 ≤ number then ⌊number⌋ else ⌈number⌉

/-- The `ttl_ms` of a check. -/
def ttlMs (capacity : ℤ) (refillRatePerSecond : ℚ) : ℤ :=
  max 1000 (truncate (capacity / refillRatePerSecond * 2000))

/-- `SyncRateLimiter.check`. -/
def check (ks : Hashes) (now : ℕ × ℕ) (key : String) (capacity : ℤ) (refillRatePerSecond : ℚ)
    (cost : ℤ) : Hashes × Except PyError RateLimitDecision :=
  match validate capacity refillRatePerSecond cost with
  | .error error => (ks, .error error)
  | .ok () =>
      let result := tokenBucketScript ks now key capacity (refillRatePerSecond / 1000) cost
        (ttlMs capacity refillRatePerSecond).toNat
      (result.1, .ok ⟨result.2.1 != 0, result.2.2.1, result.2.2.2⟩)

/-! ## The checks of a key -/

/-- A check with its outcome, or something the server does. -/
inductive Event where
  | check (now : ℕ × ℕ) (cost : ℤ) (outcome : Except PyError RateLimitDecision)
  | tick (elapsed : ℕ)
  | expire

/-- One step. -/
inductive Step (key : String) (capacity : ℤ) (rate : ℚ) : Hashes → Event → Hashes → Prop where
  | check {ks ks' : Hashes} {outcome : Except PyError RateLimitDecision} (now : ℕ × ℕ) (cost : ℤ) :
      nowMs now = ks.now → check ks now key capacity rate cost = (ks', outcome) →
      Step key capacity rate ks (.check now cost outcome) ks'
  | tick (ks : Hashes) (elapsed : ℕ) : Step key capacity rate ks (.tick elapsed) (ks.tick elapsed)
  /-- The server removes the key at its expiry. -/
  | expire {ks : Hashes} {hash : Hash} {expireAt : ℕ} :
      ks.live key = some ⟨hash, some expireAt⟩ → expireAt ≤ ks.now →
      Step key capacity rate ks .expire (ks.del key)

/-- The checks of one key with a fixed capacity and refill rate; the key starts out absent. -/
def checks (key : String) (capacity : ℤ) (rate : ℚ) : System Hashes Event where
  init ks := ks.live key = none
  step := Step key capacity rate

/-- The cost of a check that was allowed at an instant from `s` to `e`. -/
def Event.admitted (s e : ℚ) : Event → ℚ
  | .check now cost (.ok decision) =>
      if decision.allowed = true ∧ s ≤ nowMs now ∧ nowMs now ≤ e then cost else 0
  | _ => 0

/-- The total cost of the checks allowed from `s` to `e`. -/
def admitted (s e : ℚ) (history : List Event) : ℚ := (history.map (Event.admitted s e)).sum

/-- The request a check makes of the bucket. -/
def Event.request : Event → Option (Request ℚ)
  | .check now cost (.ok decision) =>
      if hcost : 0 ≤ (cost : ℚ) then some ⟨nowMs now, cost, decision.allowed, hcost⟩ else none
  | _ => none

/-- The requests of a history, newest first. -/
def requests (history : List Event) : List (Request ℚ) := history.filterMap Event.request

/-! ## The time to live outlasts a refill -/

theorem truncate_of_nonneg {number : ℚ} (h : 0 ≤ number) : truncate number = ⌊number⌋ := if_pos h

/-- Half of a number fits into its integer part, or into 1000. -/
theorem half_le_max_floor (number : ℚ) : number / 2 ≤ ((max 1000 ⌊number⌋ : ℤ) : ℚ) := by
  rw [Int.cast_max]
  rcases le_total number 2 with hsmall | hlarge
  · refine le_max_of_le_left ?_
    norm_num
    linarith
  · have hfloor := Int.sub_one_lt_floor number
    exact le_max_of_le_right (by linarith)

/-- Within the time to live of the key the whole bucket is refilled. -/
theorem capacity_le_refill {capacity : ℤ} {rate : ℚ} (hcapacity : 0 < capacity) (hrate : 0 < rate) :
    (capacity : ℚ) ≤ (ttlMs capacity rate).toNat * (rate / 1000) := by
  have hcapacity' : (0 : ℚ) < capacity := Int.cast_pos.mpr hcapacity
  have hquotient : 0 ≤ capacity / rate * 2000 := by positivity
  have hpos : 0 ≤ ttlMs capacity rate := le_max_of_le_left (by decide)
  have hcast : ((ttlMs capacity rate).toNat : ℚ) = (ttlMs capacity rate : ℚ) := by
    exact_mod_cast congrArg (Int.cast (R := ℚ)) (Int.toNat_of_nonneg hpos)
  rw [hcast, ttlMs, truncate_of_nonneg hquotient]
  calc (capacity : ℚ) = capacity / rate * 2000 / 2 * (rate / 1000) := by
        field_simp
        norm_num
    _ ≤ _ := mul_le_mul_of_nonneg_right (half_le_max_floor _) (by positivity)

/-! ## The bucket behind the key -/

section
variable {key : String} {capacity : ℤ} {rate : ℚ}

/-- The server tracks the bucket: a key that is there stores it, and expires no sooner than the
bucket is full; when the key is gone the bucket is full. -/
structure Tracks (key : String) (capacity : ℤ) (rate : ℚ) (ks : Hashes) (b : Bucket ℚ) : Prop where
  time_le : b.time ≤ ks.now
  stored : ∀ hash expireAt, ks.live key = some ⟨hash, expireAt⟩ →
    hash.tokens = b.level ∧ (hash.updatedAt : ℚ) = b.time ∧
      ∃ until_ : ℕ, expireAt = some until_ ∧ (capacity : ℚ) ≤ (until_ - b.time) * (rate / 1000)
  absent : ks.live key = none → (capacity : ℚ) ≤ b.level + (ks.now - b.time) * (rate / 1000)

/-- A key that is gone at the end of its time to live leaves a full bucket. -/
theorem Tracks.full {ks : Hashes} {b : Bucket ℚ} (h : Tracks key capacity rate ks b)
    (hrate : 0 < rate) (hlevel : 0 ≤ b.level) {hash : Hash} {expireAt : Option ℕ}
    (hlive : ks.live key = some ⟨hash, expireAt⟩) {now : ℕ}
    (hnow : ∀ until_, expireAt = some until_ → until_ ≤ now) :
    (capacity : ℚ) ≤ b.level + (now - b.time) * (rate / 1000) := by
  obtain ⟨-, -, until_, huntil, hrefill⟩ := h.stored _ _ hlive
  have hle : (until_ : ℚ) ≤ now := Nat.cast_le.mpr (hnow until_ huntil)
  have hgain : (until_ - b.time) * (rate / 1000) ≤ (now - b.time) * (rate / 1000) :=
    mul_le_mul_of_nonneg_right (sub_le_sub_right hle _) (by positivity)
  linarith

theorem Tracks.tick {ks : Hashes} {b : Bucket ℚ} (h : Tracks key capacity rate ks b)
    (hrate : 0 < rate) (hlevel : 0 ≤ b.level) (elapsed : ℕ) :
    Tracks key capacity rate (ks.tick elapsed) b := by
  have hle : (ks.now : ℚ) ≤ (ks.tick elapsed).now := Nat.cast_le.mpr (Nat.le_add_right _ _)
  refine ⟨h.time_le.trans hle, fun hash expireAt hlive => ?_, fun hgone => ?_⟩
  · exact h.stored hash expireAt (Keyspace.live_of_tick hlive)
  · cases hlive : ks.live key with
    | none =>
        have hfull := h.absent hlive
        have hgain : (ks.now - b.time) * (rate / 1000) ≤
            ((ks.tick elapsed).now - b.time) * (rate / 1000) :=
          mul_le_mul_of_nonneg_right (sub_le_sub_right hle _) (by positivity)
        linarith
    | some entry =>
        obtain ⟨hash, expireAt⟩ := entry
        refine h.full hrate hlevel hlive fun until_ huntil => ?_
        subst huntil
        by_contra hlate
        have hstays := Keyspace.live_tick hlive (Nat.le_of_lt (not_le.mp hlate))
        rw [hgone] at hstays
        cases hstays

theorem Tracks.expire {ks : Hashes} {b : Bucket ℚ} (h : Tracks key capacity rate ks b)
    (hrate : 0 < rate) (hlevel : 0 ≤ b.level) {hash : Hash} {expireAt : ℕ}
    (hlive : ks.live key = some ⟨hash, some expireAt⟩) (hle : expireAt ≤ ks.now) :
    Tracks key capacity rate (ks.del key) b := by
  have hgone : (ks.del key).live key = none := by rw [Keyspace.live_del, if_pos rfl]
  refine ⟨h.time_le, fun hash expireAt hlive' => ?_, fun _ => ?_⟩
  · rw [hgone] at hlive'
    cases hlive'
  · exact h.full hrate hlevel hlive fun until_ huntil => Option.some.inj huntil ▸ hle

/-- The tokens the script computes are those of the bucket. -/
theorem Tracks.refilled {ks : Hashes} {b : Bucket ℚ} (h : Tracks key capacity rate ks b)
    (hrate : 0 < rate) {nowMs : ℕ} (hnow : nowMs = ks.now) :
    min (capacity : ℚ) (((ks.get key).map Hash.tokens).getD (capacity : ℚ) +
        max 0 ((nowMs : ℚ) - (((ks.get key).map Hash.updatedAt).getD nowMs : ℕ)) * (rate / 1000)) =
      b.refilled (capacity : ℚ) (rate / 1000) nowMs := by
  subst hnow
  cases hlive : ks.live key with
  | none =>
      have hfull := Bucket.refilled_eq_capacity (by positivity) (h.absent hlive)
      rw [Keyspace.get_eq_none.mpr hlive, hfull]
      simp
  | some entry =>
      obtain ⟨hash, expireAt⟩ := entry
      obtain ⟨htokens, htime, -⟩ := h.stored _ _ hlive
      rw [Keyspace.get_eq_some.mpr ⟨expireAt, hlive⟩]
      simp only [Option.map_some, Option.getD_some, htokens, htime, Bucket.refilled]

/-- After a check the key stores the tokens that are left, until they are surely refilled. -/
theorem live_written (ks : Hashes) (key : String) (hash : Hash) (ttlMs : ℕ) :
    ((hset ks key hash).pexpire key ttlMs).live key = some ⟨hash, some (ks.now + ttlMs)⟩ := by
  have hnow : (hset ks key hash).now = ks.now := Keyspace.now_upsert ks key hash fun _ => hash
  cases hlive : ks.live key with
  | none =>
      have hset_ : (hset ks key hash).live key = some ⟨hash, none⟩ :=
        Keyspace.live_upsert_absent hash _ hlive
      rw [Keyspace.live_pexpire_self ttlMs hset_, hnow]
  | some entry =>
      have hset_ : (hset ks key hash).live key = some { entry with value := hash } :=
        Keyspace.live_upsert_present hash _ hlive
      rw [Keyspace.live_pexpire_self ttlMs hset_, hnow]

theorem Tracks.written {ks : Hashes} {nowMs : ℕ} (hnow : nowMs = ks.now) (hcapacity : 0 < capacity)
    (hrate : 0 < rate) (tokens : ℚ) :
    Tracks key capacity rate
      ((hset ks key ⟨tokens, nowMs⟩).pexpire key (ttlMs capacity rate).toNat) ⟨tokens, nowMs⟩ := by
  have hwritten : ((hset ks key ⟨tokens, nowMs⟩).pexpire key (ttlMs capacity rate).toNat).now =
      ks.now := by
    rw [Keyspace.now_pexpire]
    exact Keyspace.now_upsert ks key _ _
  have hlive := live_written ks key ⟨tokens, nowMs⟩ (ttlMs capacity rate).toNat
  refine ⟨by rw [hwritten, hnow], fun hash expireAt hlive' => ?_, fun hgone => ?_⟩
  · rw [hlive] at hlive'
    obtain ⟨rfl, rfl⟩ := (Entry.mk.injEq _ _ _ _).mp (Option.some.inj hlive')
    refine ⟨rfl, rfl, _, rfl, ?_⟩
    have hrefill := capacity_le_refill hcapacity hrate
    rw [hnow, Nat.cast_add, add_sub_cancel_left]
    exact hrefill
  · rw [hlive] at hgone
    cases hgone

/-- What a check does: it raises and sends nothing, or it answers as the bucket does and writes what
is left in it. -/
theorem check_cases {ks ks' : Hashes} {b : Bucket ℚ} (h : Tracks key capacity rate ks b)
    (hrate : 0 < rate) {now : ℕ × ℕ} (hnow : nowMs now = ks.now)
    {cost : ℤ} {outcome : Except PyError RateLimitDecision}
    (hcheck : check ks now key capacity rate cost = (ks', outcome)) :
    (∃ error, outcome = .error error ∧ ks' = ks) ∨
      ∃ decision level, outcome = .ok decision ∧ 0 < cost ∧
        b.take (capacity : ℚ) (rate / 1000) (nowMs now) cost =
          (⟨level, nowMs now⟩, decision.allowed) ∧
        ks' = (hset ks key ⟨level, nowMs now⟩).pexpire key (ttlMs capacity rate).toNat := by
  have htokens := h.refilled hrate hnow
  unfold check at hcheck
  cases hvalid : validate capacity rate cost with
  | error error =>
      rw [hvalid] at hcheck
      obtain ⟨rfl, rfl⟩ := Prod.mk.inj hcheck
      exact .inl ⟨error, rfl, rfl⟩
  | ok valid =>
      have hcost : 0 < cost := by
        by_contra hcost
        rw [validate, if_pos (.inr (.inr (not_lt.mp hcost)))] at hvalid
        cases hvalid
      rw [hvalid] at hcheck
      simp only [tokenBucketScript, htokens] at hcheck
      rw [Bucket.take]
      split at hcheck
      · rename_i henough
        obtain ⟨rfl, rfl⟩ := Prod.mk.inj hcheck
        rw [if_pos henough]
        exact .inr ⟨_, _, rfl, hcost, rfl, rfl⟩
      · rename_i hshort
        obtain ⟨rfl, rfl⟩ := Prod.mk.inj hcheck
        rw [if_neg hshort]
        exact .inr ⟨_, _, rfl, hcost, rfl, rfl⟩

end

/-! ## The bound -/

section
variable {key : String} {capacity : ℤ} {rate : ℚ}

/-- After the checks of a history the server tracks a bucket that served the same requests, and
never expired. -/
structure Served (key : String) (capacity : ℤ) (rate : ℚ) (history : List Event) (ks : Hashes) :
    Prop where
  bucket : ∃ b, (bucket (capacity : ℚ) (rate / 1000)).Reaches (requests history) b ∧
    Tracks key capacity rate ks b
  admitted : ∀ s e, admitted s e history = spent (fun t => s ≤ t ∧ t ≤ e) (requests history)

theorem Served.init {ks : Hashes} (h : ks.live key = none) : Served key capacity rate [] ks := by
  refine ⟨⟨⟨capacity, ks.now⟩, .init rfl, le_rfl, fun hash expireAt hlive => ?_, fun _ => ?_⟩,
    fun _ _ => rfl⟩
  · rw [h] at hlive
    cases hlive
  · simp

/-- The bucket answers a check as the script does. -/
theorem Served.check {ks ks' : Hashes} {history : List Event}
    (h : Served key capacity rate history ks)
    (hcapacity : 0 < capacity) (hrate : 0 < rate) {now : ℕ × ℕ} (hnow : nowMs now = ks.now)
    {cost : ℤ} {outcome : Except PyError RateLimitDecision}
    (hcheck : RateLimit.check ks now key capacity rate cost = (ks', outcome)) :
    Served key capacity rate (.check now cost outcome :: history) ks' := by
  obtain ⟨b, hreaches, htracks⟩ := h.bucket
  rcases check_cases htracks hrate hnow hcheck with
    ⟨error, rfl, rfl⟩ | ⟨decision, level, rfl, hcost, htake, rfl⟩
  · exact ⟨⟨b, hreaches, htracks⟩, fun s e => (zero_add _).trans (h.admitted s e)⟩
  · have hcost' : (0 : ℚ) ≤ cost := Int.cast_nonneg (Int.le_of_lt hcost)
    have hrequest : Event.request (.check now cost (.ok decision)) =
        some ⟨nowMs now, cost, decision.allowed, hcost'⟩ := dif_pos hcost'
    have hrequests : requests (.check now cost (.ok decision) :: history) =
        ⟨nowMs now, cost, decision.allowed, hcost'⟩ :: requests history :=
      List.filterMap_cons_some hrequest
    have htime : b.time ≤ nowMs now := hnow ▸ htracks.time_le
    constructor
    · rw [hrequests]
      exact ⟨⟨level, nowMs now⟩, hreaches.step ⟨htime, htake⟩,
        .written hnow hcapacity hrate level⟩
    · intro s e
      rw [hrequests, spent_cons, ← h.admitted s e]
      refine congrArg (· + RateLimit.admitted s e history) ?_
      simp only [Event.admitted, Request.spent, Request.taken]
      by_cases hin : s ≤ nowMs now ∧ nowMs now ≤ e
      · simp [hin]
      · simp [hin]

theorem Served.step (hcapacity : 0 < capacity) (hrate : 0 < rate) {ks ks' : Hashes}
    {history : List Event} {event : Event} (h : Served key capacity rate history ks)
    (hstep : Step key capacity rate ks event ks') :
    Served key capacity rate (event :: history) ks' := by
  obtain ⟨b, hreaches, htracks⟩ := h.bucket
  have hlevel : 0 ≤ b.level :=
    (reaches_bounded (by positivity) (by positivity) hreaches).nonneg
  cases hstep with
  | check now cost hnow hcheck => exact h.check hcapacity hrate hnow hcheck
  | tick elapsed =>
      exact ⟨⟨b, hreaches, htracks.tick hrate hlevel elapsed⟩,
        fun s e => (zero_add _).trans (h.admitted s e)⟩
  | expire hlive hle =>
      exact ⟨⟨b, hreaches, htracks.expire hrate hlevel hlive hle⟩,
        fun s e => (zero_add _).trans (h.admitted s e)⟩

/-- The tokens stay between 0 and the capacity, the checks of every window admit at most the
capacity and what the window refills, and every check is answered as by a bucket that
never expires. -/
theorem token_bucket_bound (hcapacity : 0 < capacity) (hrate : 0 < rate) {history : List Event}
    {ks : Hashes} (hr : (checks key capacity rate).Reaches history ks) :
    (∀ hash, ks.get key = some hash → 0 ≤ hash.tokens ∧ hash.tokens ≤ capacity) ∧
      (∀ s e, s ≤ e → admitted s e history ≤ capacity + rate * (e - s) / 1000) ∧
      ∃ b, (bucket (capacity : ℚ) (rate / 1000)).Reaches (requests history) b := by
  have hserved : Served key capacity rate history ks :=
    hr.invariant (fun _ h => .init h) fun _ _ _ _ _ h hstep => h.step hcapacity hrate hstep
  obtain ⟨b, hreaches, htracks⟩ := hserved.bucket
  have hbounded := reaches_bounded (by positivity) (by positivity) hreaches
  refine ⟨fun hash hget => ?_, fun s e hse => ?_, b, hreaches⟩
  · obtain ⟨expireAt, hlive⟩ := Keyspace.get_eq_some.mp hget
    rw [(htracks.stored hash expireAt hlive).1]
    exact ⟨hbounded.nonneg, hbounded.le_capacity⟩
  · rw [hserved.admitted]
    have hwindow := hbounded.window s e hse
    have hrefill : rate / 1000 * (e - s) = rate * (e - s) / 1000 := by ring
    rwa [hrefill] at hwindow

end

/-! ## A user who empties the bucket -/

theorem sample_ttlMs : ttlMs 5 (1 / 2) = 20000 := by norm_num [ttlMs, truncate]

/-- The key after a first check. -/
def afterFirst : Hashes := (hset Keyspace.empty "user" ⟨2, 0⟩).pexpire "user" 20000

theorem check_first : check Keyspace.empty (0, 0) "user" 5 (1 / 2) 3 =
    (afterFirst, .ok ⟨true, 2, 0⟩) := by
  have habsent : (Keyspace.empty : Hashes).get "user" = none := rfl
  norm_num [check, validate, sample_ttlMs, tokenBucketScript, habsent, nowMs]
  rfl

/-- The key expired, and the next check finds a full bucket. -/
def afterSecond : Hashes :=
  (hset (afterFirst.tick 21000) "user" ⟨0, 21000⟩).pexpire "user" 20000

theorem check_second : check (afterFirst.tick 21000) (21, 0) "user" 5 (1 / 2) 5 =
    (afterSecond, .ok ⟨true, 0, 0⟩) := by
  have habsent : (afterFirst.tick 21000).get "user" = none := by decide
  norm_num [check, validate, sample_ttlMs, tokenBucketScript, habsent, nowMs]
  rfl

/-- Within 21 seconds the user is allowed no more than 5 and what 21 seconds refill. -/
theorem token_bucket_bound_user :
    admitted 0 21000 [.check (21, 0) 5 (.ok ⟨true, 0, 0⟩), .tick 21000,
      .check (0, 0) 3 (.ok ⟨true, 2, 0⟩)] ≤ (5 : ℤ) + 1 / 2 * (21000 - 0) / 1000 := by
  have hstart : (checks "user" 5 (1 / 2)).Reaches [] Keyspace.empty := .init rfl
  have hfirst := hstart.step (.check (0, 0) 3 rfl check_first)
  have hsecond := (hfirst.step (.tick _ 21000)).step (.check (21, 0) 5 rfl check_second)
  exact (token_bucket_bound (by decide) (by norm_num) hsecond).2.1 0 21000 (by norm_num)

end ProdkitStorage.Redis.RateLimit

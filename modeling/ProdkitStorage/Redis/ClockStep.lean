import ProdkitStorage.Redis.RetryAfter

/-!
# A clock that goes back

What a check does to a stored bucket when the clock of the server went back.  The script
counts no negative time, but it writes the earlier instant down, so that the time since then is
refilled a second time.  A check is harmless exactly when the clock did not go back, when the bucket
is full, or when the check is allowed and takes at least what is refilled twice.
-/

namespace ProdkitStorage.Redis.RateLimit

open ProdkitStorage.Foundation
open ProdkitStorage.Foundation.TokenBucket
open ProdkitStorage.Python

/-- The tokens that a check finds in a stored bucket. -/
def Hash.available (capacity : ℤ) (rate : ℚ) (hash : Hash) (nowMs : ℕ) : ℚ :=
  min (capacity : ℚ) (hash.tokens + max 0 ((nowMs : ℚ) - hash.updatedAt) * (rate / 1000))

/-- A check stores a bucket in which no later check finds more than it would have found in
this one. -/
def NeverEnriches (key : String) (capacity : ℤ) (rate : ℚ) (ks : Hashes) (now : ℕ × ℕ) (cost : ℤ)
    (hash : Hash) : Prop :=
  ∃ after, (check ks now key capacity rate cost).1.get key = some after ∧
    ∀ later : ℕ × ℕ, nowMs now ≤ nowMs later →
      after.available capacity rate (nowMs later) ≤ hash.available capacity rate (nowMs later)

/-- The bucket of a hash. -/
def Hash.bucket (hash : Hash) : Bucket ℚ := ⟨hash.tokens, hash.updatedAt⟩

variable {key : String} {capacity : ℤ} {rate : ℚ}

theorem Hash.available_eq (hash : Hash) (nowMs : ℕ) :
    hash.available capacity rate nowMs =
      hash.bucket.refilled (capacity : ℚ) (rate / 1000) nowMs := rfl

/-- The instant `n` as a reply of `TIME`. -/
theorem nowMs_split (n : ℕ) : nowMs (n / 1000, n % 1000 * 1000) = n := by
  rw [nowMs, Nat.mul_div_cancel _ (by decide)]
  omega

/-- A check stores what the bucket of the hash leaves. -/
theorem check_stores {ks : Hashes} {hash : Hash} (hget : ks.get key = some hash) {cost : ℤ}
    (hvalid : validate capacity rate cost = .ok ()) (now : ℕ × ℕ) :
    ∃ after, (check ks now key capacity rate cost).1.get key = some after ∧
      after.bucket = (hash.bucket.take (capacity : ℚ) (rate / 1000) (nowMs now) cost).1 := by
  have hstored : ∀ tokens : ℚ,
      ((hset ks key ⟨tokens, nowMs now⟩).pexpire key (ttlMs capacity rate).toNat).get key =
        some ⟨tokens, nowMs now⟩ :=
    fun tokens => Keyspace.get_eq_some.mpr ⟨_, live_written ks key _ _⟩
  unfold check Bucket.take
  rw [hvalid]
  simp only [tokenBucketScript, hget, Option.map_some, Option.getD_some]
  rw [← Hash.available, Hash.available_eq]
  split
  · exact ⟨_, hstored _, rfl⟩
  · exact ⟨_, hstored _, rfl⟩

/-- A harmless check is sound: the instant of the bucket shows the tokens that it would add. -/
theorem NeverEnriches.sound {ks : Hashes} {hash : Hash} {now : ℕ × ℕ} {cost : ℤ}
    (h : NeverEnriches key capacity rate ks now cost hash) (hget : ks.get key = some hash)
    (hvalid : validate capacity rate cost = .ok ()) :
    hash.bucket.Sound (capacity : ℚ) (rate / 1000) (nowMs now) cost := by
  obtain ⟨-, hrate, -, -⟩ := validate_ok hvalid
  obtain ⟨after, hafter, hbucket⟩ := check_stores hget hvalid now
  obtain ⟨stored, hstored, hfinds⟩ := h
  obtain rfl := Option.some.inj (hafter.symm.trans hstored)
  by_contra hunsound
  have htime : nowMs now < hash.updatedAt := by
    by_contra hnot
    exact hunsound (.inl (Nat.cast_le.mpr (not_lt.mp hnot)))
  have hmore := Bucket.lt_refilled_take (by positivity) hunsound
  have hfound := hfinds (hash.updatedAt / 1000, hash.updatedAt % 1000 * 1000)
    (by rw [nowMs_split]; exact htime.le)
  rw [nowMs_split, Hash.available_eq, Hash.available_eq, hbucket] at hfound
  exact absurd hfound (not_le.mpr hmore)

/-- When a check of a stored bucket is harmless. -/
theorem never_enriches_iff {ks : Hashes} {hash : Hash} (hget : ks.get key = some hash) {cost : ℤ}
    (hvalid : validate capacity rate cost = .ok ()) (now : ℕ × ℕ) :
    NeverEnriches key capacity rate ks now cost hash ↔
      hash.updatedAt ≤ nowMs now ∨ (capacity : ℚ) ≤ hash.tokens ∨
        ((cost : ℚ) ≤ hash.tokens ∧
          ((hash.updatedAt : ℚ) - nowMs now) * (rate / 1000) ≤ cost) := by
  obtain ⟨-, hrate, hcost, hle⟩ := validate_ok hvalid
  have hsound : hash.bucket.Sound (capacity : ℚ) (rate / 1000) (nowMs now) cost ↔
      hash.updatedAt ≤ nowMs now ∨ (capacity : ℚ) ≤ hash.tokens ∨
        ((cost : ℚ) ≤ hash.tokens ∧
          ((hash.updatedAt : ℚ) - nowMs now) * (rate / 1000) ≤ cost) := by
    rw [Bucket.Sound, Hash.bucket, Nat.cast_le]
  rw [← hsound]
  constructor
  · exact fun h => h.sound hget hvalid
  · intro hsound
    obtain ⟨after, hafter, hbucket⟩ := check_stores hget hvalid now
    refine ⟨after, hafter, fun later hlater => ?_⟩
    rw [Hash.available_eq, Hash.available_eq, hbucket]
    exact Bucket.refilled_take_le (by positivity) (by exact_mod_cast hcost.le)
      (by exact_mod_cast hle) hsound (Nat.cast_le.mpr hlater)

theorem never_enriches_user :
    NeverEnriches "user" 5 (1 / 2) afterDenied (6, 0) 5 ⟨2, 0⟩ := by
  have hget : afterDenied.get "user" = some ⟨2, 0⟩ := rfl
  have hvalid : validate 5 (1 / 2) 5 = .ok () := by norm_num [validate]
  exact (never_enriches_iff hget hvalid (6, 0)).mpr (.inl (Nat.zero_le _))

/-- An empty bucket of an instant that the clock has yet to reach again. -/
def emptied : Hashes := hset Keyspace.empty "user" ⟨0, 1000⟩

/-- A check that is denied a second before that instant fills the bucket. -/
theorem clock_back_enriches : ¬NeverEnriches "user" 1 1 emptied (0, 0) 1 ⟨0, 1000⟩ := by
  have hget : emptied.get "user" = some ⟨0, 1000⟩ := rfl
  have hvalid : validate 1 1 1 = .ok () := by norm_num [validate]
  intro h
  have hsound := h.sound hget hvalid
  norm_num [Bucket.Sound, Hash.bucket, nowMs] at hsound

end ProdkitStorage.Redis.RateLimit

import Mathlib.Algebra.Order.BigOperators.Group.List
import Mathlib.Algebra.Order.Field.Basic
import Mathlib.Tactic.Linarith
import ProdkitStorage.Foundation.Transition

/-!
# Token buckets

A *token bucket* holds up to `capacity` tokens and gains `rate` of them in a unit of
time.  A request takes its cost out of the bucket, or is refused when the bucket
holds less.

What requests spend in a window of time is bounded by the capacity and what the
window refills.  The potential that shows it is the level itself: what was spent since
the instant `s`, together with what is left, never exceeds the capacity and what was
refilled since `s`.
-/

namespace ProdkitStorage.Foundation.TokenBucket

variable {K : Type} [Field K] [LinearOrder K] [IsStrictOrderedRing K]

/-- The tokens in a bucket, as of an instant. -/
structure Bucket (K : Type) where
  level : K
  time : K

/-- A request and its answer. -/
structure Request (K : Type) [LE K] [Zero K] where
  time : K
  cost : K
  allowed : Bool
  cost_nonneg : 0 ≤ cost

variable (capacity rate : K)

/-- The tokens in the bucket at the instant `now`. -/
def Bucket.refilled (bucket : Bucket K) (now : K) : K :=
  min capacity (bucket.level + max 0 (now - bucket.time) * rate)

/-- A request takes its cost out of the bucket, when there is as much. -/
def Bucket.take (bucket : Bucket K) (now cost : K) : Bucket K × Bool :=
  if cost ≤ bucket.refilled capacity rate now then
    (⟨bucket.refilled capacity rate now - cost, now⟩, true)
  else (⟨bucket.refilled capacity rate now, now⟩, false)

/-- A bucket that starts full, with its requests at instants that do not decrease. -/
def bucket : System (Bucket K) (Request K) where
  init b := b.level = capacity
  step b request b' :=
    b.time ≤ request.time ∧
      b.take capacity rate request.time request.cost = (b', request.allowed)

/-! ## What requests spend -/

/-- What a request takes out of the bucket. -/
def Request.taken (request : Request K) : K := if request.allowed then request.cost else 0

/-- What a request spends at the instants that satisfy `p`. -/
def Request.spent (p : K → Prop) [DecidablePred p] (request : Request K) : K :=
  if p request.time then request.taken else 0

/-- What the requests spend at the instants that satisfy `p`. -/
def spent (p : K → Prop) [DecidablePred p] (requests : List (Request K)) : K :=
  (requests.map (Request.spent p)).sum

section
omit [IsStrictOrderedRing K]

@[simp] theorem spent_nil (p : K → Prop) [DecidablePred p] :
    spent p ([] : List (Request K)) = 0 := rfl

@[simp] theorem spent_cons (p : K → Prop) [DecidablePred p] (request : Request K)
    (requests : List (Request K)) :
    spent p (request :: requests) = request.spent p + spent p requests := rfl

theorem Request.taken_nonneg (request : Request K) : 0 ≤ request.taken := by
  unfold taken
  split
  · exact request.cost_nonneg
  · exact le_rfl

theorem Request.spent_inside {p : K → Prop} [DecidablePred p] {request : Request K}
    (h : p request.time) : request.spent p = request.taken := if_pos h

theorem Request.spent_outside {p : K → Prop} [DecidablePred p] {request : Request K}
    (h : ¬p request.time) : request.spent p = 0 := if_neg h

theorem Request.spent_le_spent {p q : K → Prop} [DecidablePred p] [DecidablePred q]
    (hpq : ∀ t, p t → q t) (request : Request K) : request.spent p ≤ request.spent q := by
  by_cases hp : p request.time
  · rw [spent_inside hp, spent_inside (hpq _ hp)]
  · rw [spent_outside hp]
    unfold spent
    split
    · exact request.taken_nonneg
    · exact le_rfl

end

/-- A wider window spends more. -/
theorem spent_le_spent {p q : K → Prop} [DecidablePred p] [DecidablePred q]
    (hpq : ∀ t, p t → q t) (requests : List (Request K)) : spent p requests ≤ spent q requests :=
  List.sum_le_sum fun request _ => request.spent_le_spent hpq

/-! ## One request -/

omit [IsStrictOrderedRing K] in
theorem Bucket.refilled_le_capacity (b : Bucket K) (now : K) :
    b.refilled capacity rate now ≤ capacity :=
  min_le_left _ _

theorem Bucket.refilled_le {b : Bucket K} {now : K} (h : b.time ≤ now) :
    b.refilled capacity rate now ≤ b.level + (now - b.time) * rate := by
  have helapsed : max 0 (now - b.time) = now - b.time := max_eq_right (sub_nonneg.mpr h)
  rw [refilled, helapsed]
  exact min_le_right _ _

variable {capacity rate}

theorem Bucket.refilled_nonneg (hcapacity : 0 ≤ capacity) (hrate : 0 ≤ rate) {b : Bucket K}
    (hlevel : 0 ≤ b.level) (now : K) : 0 ≤ b.refilled capacity rate now := by
  have hgain : 0 ≤ max 0 (now - b.time) * rate := mul_nonneg (le_max_left _ _) hrate
  exact le_min hcapacity (by linarith)

/-- A bucket whose elapsed time refills it is full. -/
theorem Bucket.refilled_eq_capacity (hrate : 0 ≤ rate) {b : Bucket K} {now : K}
    (h : capacity ≤ b.level + (now - b.time) * rate) : b.refilled capacity rate now = capacity := by
  have hgain := mul_le_mul_of_nonneg_right (le_max_right 0 (now - b.time)) hrate
  exact min_eq_left (by linarith)

/-- To refill a bucket on the way does not matter. -/
theorem Bucket.refilled_refilled (hrate : 0 ≤ rate) {b : Bucket K} {now later : K}
    (hnow : b.time ≤ now) (hlater : now ≤ later) :
    (⟨b.refilled capacity rate now, now⟩ : Bucket K).refilled capacity rate later =
      b.refilled capacity rate later := by
  have hgain : 0 ≤ (later - now) * rate := mul_nonneg (sub_nonneg.mpr hlater) hrate
  have hsum : b.level + (now - b.time) * rate + (later - now) * rate =
      b.level + (later - b.time) * rate := by
    rw [add_assoc, ← add_mul, sub_add_sub_cancel']
  simp only [refilled, max_eq_right (sub_nonneg.mpr hnow), max_eq_right (sub_nonneg.mpr hlater),
    max_eq_right (sub_nonneg.mpr (hnow.trans hlater))]
  rcases le_total capacity (b.level + (now - b.time) * rate) with hfull | hroom
  · rw [min_eq_left hfull, min_eq_left (by linarith), min_eq_left (by linarith)]
  · rw [min_eq_right hroom, hsum]

/-! ## A clock that goes back -/

/-- The clock did not go back, or the bucket is full, or what is taken out of it makes up for the
time that is refilled twice. -/
def Bucket.Sound (capacity rate : K) (b : Bucket K) (now cost : K) : Prop :=
  b.time ≤ now ∨ capacity ≤ b.level ∨ (cost ≤ b.level ∧ (b.time - now) * rate ≤ cost)

omit [IsStrictOrderedRing K] in
/-- What a request leaves. -/
theorem Bucket.take_cases (capacity rate : K) (b : Bucket K) (now cost : K) :
    (b.take capacity rate now cost).1 = ⟨b.refilled capacity rate now -
      (if cost ≤ b.refilled capacity rate now then cost else 0), now⟩ := by
  unfold take
  split
  · rfl
  · rw [sub_zero]

/-- A sound request leaves no more in the bucket at any later instant than if it had not
been made. -/
theorem Bucket.refilled_take_le (hrate : 0 ≤ rate) {b : Bucket K} {now cost later : K}
    (hcost : 0 ≤ cost) (hle : cost ≤ capacity) (hsound : b.Sound capacity rate now cost)
    (hlater : now ≤ later) :
    (b.take capacity rate now cost).1.refilled capacity rate later ≤
      b.refilled capacity rate later := by
  have helapsed := mul_le_mul_of_nonneg_right (le_max_right 0 (later - b.time)) hrate
  rw [take_cases]
  rcases hsound with htime | hfull | ⟨henough, htwice⟩
  · have htaken : 0 ≤ if cost ≤ b.refilled capacity rate now then cost else 0 := by
      split
      · exact hcost
      · exact le_rfl
    rw [← refilled_refilled hrate htime hlater]
    refine min_le_min_left _ (add_le_add_left ?_ _)
    exact sub_le_self _ htaken
  · have hgain : 0 ≤ max 0 (later - b.time) * rate := mul_nonneg (le_max_left _ _) hrate
    have hsame : b.refilled capacity rate later = capacity := min_eq_left (by linarith)
    rw [hsame]
    exact refilled_le_capacity capacity rate _ later
  · have hfound : cost ≤ b.refilled capacity rate now := by
      have hgain : 0 ≤ max 0 (now - b.time) * rate := mul_nonneg (le_max_left _ _) hrate
      exact le_min hle (by linarith)
    rcases le_total b.time now with htime | htime
    · rw [if_pos hfound, ← refilled_refilled hrate htime hlater]
      exact min_le_min_left _ (add_le_add_left (sub_le_self _ hcost) _)
    · have hlevel : b.refilled capacity rate now ≤ b.level := by
        rw [refilled, max_eq_left (sub_nonpos.mpr htime), zero_mul, add_zero]
        exact min_le_right _ _
      have hsplit : (later - now) * rate = (later - b.time) * rate + (b.time - now) * rate := by
        rw [← add_mul, sub_add_sub_cancel]
      rw [if_pos hfound]
      refine min_le_min_left _ ?_
      rw [max_eq_right (sub_nonneg.mpr hlater)]
      linarith

/-- At the instant of the bucket a request that is not sound leaves more. -/
theorem Bucket.lt_refilled_take (hrate : 0 < rate) {b : Bucket K} {now cost : K}
    (hsound : ¬b.Sound capacity rate now cost) :
    b.refilled capacity rate b.time <
      (b.take capacity rate now cost).1.refilled capacity rate b.time := by
  rw [Sound, not_or, not_or, not_le, not_le] at hsound
  obtain ⟨htime, hroom, hshort⟩ := hsound
  have hbefore : b.refilled capacity rate b.time = b.level := by
    rw [refilled, sub_self, max_self, zero_mul, add_zero, min_eq_right hroom.le]
  have hfound : b.refilled capacity rate now = b.level := by
    rw [refilled, max_eq_left (sub_nonpos.mpr htime.le), zero_mul, add_zero, min_eq_right hroom.le]
  have hgain : 0 < (b.time - now) * rate := mul_pos (sub_pos.mpr htime) hrate
  rw [take_cases, hbefore, hfound, refilled, max_eq_right (sub_nonneg.mpr htime.le)]
  refine lt_min hroom ?_
  split
  · next henough =>
      have hmore := not_le.mp fun htwice => hshort ⟨henough, htwice⟩
      linarith
  · linarith

/-! ## Steps -/

omit [IsStrictOrderedRing K] in
/-- A step refills the bucket and takes out of it what the request takes. -/
theorem step_cases {b b' : Bucket K} {request : Request K}
    (h : (bucket capacity rate).step b request b') :
    b.time ≤ request.time ∧
      b' = ⟨b.refilled capacity rate request.time - request.taken, request.time⟩ ∧
      (request.taken ≤ b.refilled capacity rate request.time ∨ request.taken = 0) := by
  obtain ⟨htime, htake⟩ := h
  refine ⟨htime, ?_⟩
  unfold Bucket.take at htake
  split at htake
  · rename_i henough
    obtain ⟨rfl, hallowed⟩ := Prod.mk.inj htake
    have htaken : request.taken = request.cost := by rw [Request.taken, ← hallowed, if_pos rfl]
    rw [htaken]
    exact ⟨rfl, .inl henough⟩
  · obtain ⟨rfl, hallowed⟩ := Prod.mk.inj htake
    have htaken : request.taken = 0 := by
      rw [Request.taken, ← hallowed]
      exact if_neg Bool.false_ne_true
    rw [htaken, sub_zero]
    exact ⟨rfl, .inr rfl⟩

/-! ## The bound -/

/-- What holds of a bucket after its requests. -/
structure Bounded (capacity rate : K) (requests : List (Request K)) (b : Bucket K) : Prop where
  nonneg : 0 ≤ b.level
  le_capacity : b.level ≤ capacity
  /-- No request is later than the clock of the bucket. -/
  later : ∀ s, b.time < s → spent (s ≤ ·) requests = 0
  /-- The potential. -/
  since : ∀ s, spent (s ≤ ·) requests + b.level ≤ capacity + rate * max 0 (b.time - s)
  window : ∀ s e, s ≤ e →
    spent (fun t => s ≤ t ∧ t ≤ e) requests ≤ capacity + rate * (e - s)

theorem bounded_init (hcapacity : 0 ≤ capacity) (hrate : 0 ≤ rate) {b : Bucket K}
    (h : (bucket capacity rate).init b) : Bounded capacity rate [] b := by
  have hfull : b.level = capacity := h
  refine ⟨hfull ▸ hcapacity, hfull.le, fun _ _ => rfl, fun s => ?_, fun s e hse => ?_⟩
  · have hgain : 0 ≤ rate * max 0 (b.time - s) := mul_nonneg hrate (le_max_left _ _)
    rw [spent_nil]
    linarith
  · have hgain : 0 ≤ rate * (e - s) := mul_nonneg hrate (sub_nonneg.mpr hse)
    rw [spent_nil]
    linarith

/-- A request keeps the potential. -/
theorem Bounded.since_step (hrate : 0 ≤ rate) {b : Bucket K} {request : Request K}
    {requests : List (Request K)} (hb : Bounded capacity rate requests b)
    (htime : b.time ≤ request.time) (s : K) :
    spent (s ≤ ·) (request :: requests) +
        (b.refilled capacity rate request.time - request.taken) ≤
      capacity + rate * max 0 (request.time - s) := by
  have hsince := hb.since s
  have hgain := b.refilled_le capacity rate htime
  have hfull := b.refilled_le_capacity capacity rate request.time
  rw [spent_cons]
  by_cases hs : s ≤ request.time
  · rw [Request.spent_inside hs, max_eq_right (sub_nonneg.mpr hs)]
    by_cases hold : s ≤ b.time
    · rw [max_eq_right (sub_nonneg.mpr hold)] at hsince
      linarith
    · -- nothing was spent since `s`, and the bucket is never more than full
      have hnone := hb.later s (not_le.mp hold)
      have hrefill : 0 ≤ rate * (request.time - s) := mul_nonneg hrate (sub_nonneg.mpr hs)
      linarith
  · have hlate := not_le.mp hs
    have hnone := hb.later s (htime.trans_lt hlate)
    have htaken := request.taken_nonneg
    have hrefill : 0 ≤ rate * max 0 (request.time - s) := mul_nonneg hrate (le_max_left _ _)
    rw [Request.spent_outside hs]
    linarith

theorem Bounded.step (hcapacity : 0 ≤ capacity) (hrate : 0 ≤ rate) {b b' : Bucket K}
    {request : Request K} {requests : List (Request K)} (hb : Bounded capacity rate requests b)
    (h : (bucket capacity rate).step b request b') :
    Bounded capacity rate (request :: requests) b' := by
  obtain ⟨htime, rfl, henough⟩ := step_cases h
  have hfull := b.refilled_le_capacity capacity rate request.time
  have hrefilled := b.refilled_nonneg hcapacity hrate hb.nonneg request.time
  have htaken := request.taken_nonneg
  have hnonneg : 0 ≤ b.refilled capacity rate request.time - request.taken := by
    rcases henough with henough | henough
    · exact sub_nonneg.mpr henough
    · rw [henough, sub_zero]
      exact hrefilled
  refine ⟨hnonneg, by linarith, fun s hs => ?_, hb.since_step hrate htime, fun s e hse => ?_⟩
  · rw [spent_cons, Request.spent_outside (not_le.mpr hs), hb.later s (htime.trans_lt hs), add_zero]
  · by_cases he : request.time ≤ e
    · have hsince := hb.since_step hrate htime s
      have hwider := spent_le_spent (p := fun t => s ≤ t ∧ t ≤ e) (q := (s ≤ ·)) (fun _ h => h.1)
        (request :: requests)
      have hspan : max 0 (request.time - s) ≤ e - s :=
        max_le (sub_nonneg.mpr hse) (sub_le_sub_right he s)
      have hrefill := mul_le_mul_of_nonneg_left hspan hrate
      linarith
    · rw [spent_cons, Request.spent_outside fun h => he h.2, zero_add]
      exact hb.window s e hse

/-- What the requests in a window spend is bounded by the capacity and what the window refills. -/
theorem reaches_bounded (hcapacity : 0 ≤ capacity) (hrate : 0 ≤ rate) {requests : List (Request K)}
    {b : Bucket K} (hr : (bucket capacity rate).Reaches requests b) :
    Bounded capacity rate requests b :=
  hr.invariant (fun _ h => bounded_init hcapacity hrate h)
    (fun _ _ _ _ _ hb h => hb.step hcapacity hrate h)

end ProdkitStorage.Foundation.TokenBucket

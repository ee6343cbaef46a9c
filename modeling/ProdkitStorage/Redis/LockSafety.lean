import ProdkitStorage.Redis.Lock

/-!
# What handles do to each other, and what they forget

Every script compares the stored token first, so a handle touches its key only
while the key stores its token, whatever its flag says: `Step.of_extend` and
`Step.of_release` are this for one step, and `Run.live_of_holder` for the runs in
which the holder itself does nothing.

The flag is another matter.  Each attempt of `acquire` overwrites it, and an attempt
finds the handle's own token as well as a stranger's, so a call that gives up on
such an attempt leaves the handle without the lock it owns.
-/

namespace ProdkitStorage.Redis.Lock

open ProdkitStorage.Foundation
open ProdkitStorage.Python

variable {ι : Type} [DecidableEq ι] {locks : ι → RedisLock}

/-! ## One step -/

theorem RedisLock.afterAttempt_ok_true {lock : RedisLock} {acquired : Bool} {start clock : Rat} :
    lock.afterAttempt acquired start clock = some (.ok true) ↔ acquired = true := by
  cases acquired with
  | true => simp [afterAttempt]
  | false =>
      simp only [afterAttempt, Bool.false_eq_true, if_false, iff_false]
      split
      · split
        · simp
        · simp
      · simp

/-- An attempt acquires when the key is absent, and otherwise changes nothing on the server. -/
theorem Step.of_attempt {s t : State ι} {i : ι} {start clock : Rat}
    {outcome : Option (Except PyError Bool)} (h : Step locks s (.attempt i start clock outcome) t) :
    (outcome = some (.ok true) ↔ s.server.live (locks i).key = none) ∧
      (s.server.live (locks i).key ≠ none → t.server = s.server) ∧
      ∀ key, key ≠ (locks i).key → t.server.live key = s.server.live key := by
  cases h with
  | attempt i start clock hsent =>
      rw [RedisLock.afterAttempt_ok_true]
      cases hlive : s.server.live (locks i).key with
      | none =>
          rw [RedisLock.attempt, setNx_absent hlive] at hsent
          obtain ⟨rfl, rfl⟩ := Prod.mk.inj hsent
          refine ⟨by simp, fun hne => absurd rfl hne, fun key hkey => ?_⟩
          exact Keyspace.live_setPx_other _ _ _ hkey
      | some entry =>
          rw [RedisLock.attempt, setNx_refused hlive] at hsent
          obtain ⟨rfl, rfl⟩ := Prod.mk.inj hsent
          exact ⟨by simp, fun _ => rfl, fun _ _ => rfl⟩

/-- `extend` changes its own key only, and only while the key stores the token of the handle. -/
theorem Step.of_extend {s t : State ι} {i : ι} {ttlMs : Option Int} {outcome : Except PyError Bool}
    (h : Step locks s (.extend i ttlMs outcome) t) :
    (¬s.Stores locks i → t.server = s.server ∧
        (0 < ttlMs.getD (locks i).ttlMs → outcome = .ok false)) ∧
      ∀ key, key ≠ (locks i).key → t.server.live key = s.server.live key := by
  cases h with
  | extend i ttlMs hdone =>
      constructor
      · intro hother
        obtain ⟨hserver, houtcome⟩ :=
          RedisLock.extend_other hother (s.handles i).acquired ttlMs
        rw [hdone] at hserver houtcome
        exact ⟨hserver, houtcome⟩
      · intro key hkey
        have hframe : ((locks i).extend (s.handles i).acquired ttlMs s.server).1.live key =
            s.server.live key := RedisLock.live_extend _ _ hkey
        rwa [hdone] at hframe

/-- `release` deletes its own key only, and only while the key stores the token of the handle. -/
theorem Step.of_release {s t : State ι} {i : ι} {outcome : Bool}
    (h : Step locks s (.release i outcome) t) :
    (¬s.Stores locks i → t.server = s.server ∧ outcome = false) ∧
      ∀ key, key ≠ (locks i).key → t.server.live key = s.server.live key := by
  cases h with
  | release i hdone =>
      constructor
      · intro hother
        rw [RedisLock.release_other hother] at hdone
        obtain ⟨rfl, rfl⟩ := Prod.mk.inj hdone
        exact ⟨rfl, rfl⟩
      · intro key hkey
        have hframe : ((locks i).release (s.handles i).acquired s.server).1.live key =
            s.server.live key := RedisLock.live_release _ hkey
        rwa [hdone] at hframe

/-! ## The holder is not disturbed -/

omit [DecidableEq ι] in
/-- Two handles of one key do not both find their tokens there. -/
theorem stores_unique (hdistinct : ∀ i j, (locks i).token = (locks j).token → i = j) {s : State ι}
    {i j : ι} (hkey : (locks i).key = (locks j).key) (hi : s.Stores locks i)
    (hj : s.Stores locks j) : i = j := by
  refine hdistinct i j (Option.some.inj ?_)
  rw [← hi, ← hj, hkey]

/-- A step of a handle keeps the entries of the other keys. -/
theorem Step.live_other {s t : State ι} {event : Event ι} (h : Step locks s event t)
    {i : ι} (hhandle : event.handle = some i) {key : String} (hkey : key ≠ (locks i).key) :
    t.server.live key = s.server.live key := by
  cases event with
  | attempt k start clock outcome =>
      obtain rfl := Option.some.inj hhandle
      exact h.of_attempt.2.2 key hkey
  | extend k ttlMs outcome =>
      obtain rfl := Option.some.inj hhandle
      exact h.of_extend.2 key hkey
  | release k outcome =>
      obtain rfl := Option.some.inj hhandle
      exact h.of_release.2 key hkey
  | tick elapsed => cases hhandle
  | expire key => cases hhandle

/-- A step of a handle that finds a stranger's token changes nothing. -/
theorem Step.server_of_stranger {s t : State ι} {event : Event ι} (h : Step locks s event t) {i : ι}
    (hhandle : event.handle = some i) (hpresent : s.server.live (locks i).key ≠ none)
    (hstranger : ¬s.Stores locks i) : t.server = s.server := by
  cases event with
  | attempt k start clock outcome =>
      obtain rfl := Option.some.inj hhandle
      exact h.of_attempt.2.1 hpresent
  | extend k ttlMs outcome =>
      obtain rfl := Option.some.inj hhandle
      exact (h.of_extend.1 hstranger).1
  | release k outcome =>
      obtain rfl := Option.some.inj hhandle
      exact (h.of_release.1 hstranger).1
  | tick elapsed => cases hhandle
  | expire key => cases hhandle

/-- A step of another handle keeps the entry of the holder until its time is up. -/
theorem Step.live_of_holder (hdistinct : ∀ i j, (locks i).token = (locks j).token → i = j)
    {s t : State ι} {event : Event ι} (hstep : Step locks s event t) {j : ι} {entry : Entry String}
    (hother : event.handle ≠ some j) (hexpire : event ≠ .expire (locks j).key)
    (hlive : s.server.live (locks j).key = some entry) (htoken : entry.value = (locks j).token)
    (hfresh : Keyspace.unexpired t.server.now entry = true) :
    t.server.live (locks j).key = some entry := by
  have hstores : s.Stores locks j := by
    rw [State.Stores, Keyspace.get, hlive, ← htoken]
    rfl
  have hpresent : s.server.live (locks j).key ≠ none := by rw [hlive]; exact Option.some_ne_none _
  cases hhandle : event.handle with
  | some i =>
      rw [← hlive]
      by_cases hkey : (locks j).key = (locks i).key
      · -- A handle of the same key finds the token of the holder, which is not its own.
        have hstranger : ¬s.Stores locks i := fun hi =>
          hother (hhandle.trans (congrArg some (stores_unique hdistinct hkey.symm hi hstores)))
        rw [hstep.server_of_stranger hhandle (hkey ▸ hpresent) hstranger]
      · exact hstep.live_other hhandle hkey
  | none =>
      cases hstep with
      | tick elapsed =>
          exact Keyspace.live_eq_some.mpr ⟨(Keyspace.live_eq_some.mp hlive).1, hfresh⟩
      | expire key =>
          refine (Keyspace.live_del ..).trans ((if_neg fun hkey => hexpire ?_).trans hlive)
          rw [hkey]
      | attempt i start clock hsent => cases hhandle
      | extend i ttlMs hdone => cases hhandle
      | release i hdone => cases hhandle

/-- The clock of the server does not go back. -/
theorem Step.now_le {s t : State ι} {event : Event ι} (h : Step locks s event t) :
    s.server.now ≤ t.server.now := by
  cases h with
  | attempt i start clock hsent =>
      cases hlive : s.server.live (locks i).key with
      | none =>
          rw [RedisLock.attempt, setNx_absent hlive] at hsent
          obtain ⟨rfl, -⟩ := Prod.mk.inj hsent
          exact Nat.le_refl _
      | some entry =>
          rw [RedisLock.attempt, setNx_refused hlive] at hsent
          obtain ⟨rfl, -⟩ := Prod.mk.inj hsent
          exact Nat.le_refl _
  | extend i ttlMs hdone =>
      have hnow : ((locks i).extend (s.handles i).acquired ttlMs s.server).1.now = s.server.now :=
        RedisLock.now_extend _ _
      rw [hdone] at hnow
      exact Nat.le_of_eq hnow.symm
  | release i hdone =>
      have hnow : ((locks i).release (s.handles i).acquired s.server).1.now = s.server.now :=
        RedisLock.now_release _
      rw [hdone] at hnow
      exact Nat.le_of_eq hnow.symm
  | tick elapsed => exact Nat.le_add_right _ _
  | expire key => exact Nat.le_refl _

/-- The steps in which the holder does nothing and its key is not dropped before its time. -/
def WithoutHolder (locks : ι → RedisLock) (j : ι) (_ : State ι) (event : Event ι) : Prop :=
  event.handle ≠ some j ∧ event ≠ .expire (locks j).key

/-- Along a run in which the holder does nothing, its entry stays until its time is up. -/
theorem Run.live_of_holder (hdistinct : ∀ i j, (locks i).token = (locks j).token → i = j)
    {s t : State ι} {events : List (Event ι)} {j : ι} {entry : Entry String}
    (hrun : ((lockCalls locks).under (WithoutHolder locks j)).Run s events t)
    (hlive : s.server.live (locks j).key = some entry) (htoken : entry.value = (locks j).token)
    (hfresh : Keyspace.unexpired t.server.now entry = true) :
    t.server.live (locks j).key = some entry := by
  have hkept : Keyspace.unexpired t.server.now entry = true →
      t.server.live (locks j).key = some entry := by
    refine hrun.invariant (I := fun u => Keyspace.unexpired u.server.now entry = true →
      u.server.live (locks j).key = some entry) (fun _ => hlive) ?_
    rintro u event v hu ⟨hstep, hother, hexpire⟩ hfresh
    have hbefore := hu (Keyspace.unexpired_of_le hstep.now_le hfresh)
    exact hstep.live_of_holder hdistinct hother hexpire hbefore htoken hfresh
  exact hkept hfresh

/-- Whatever the handles do, a key stores the token of at most one of them, an attempt succeeds
exactly when the key is absent, a script touches its key only while the key stores the token of its
handle, and a handle whose token is not stored gets `False`; so the entry of a holder stays as it is
until the holder changes it or its time is up. -/
theorem lock_holder_undisturbed
    (hdistinct : ∀ i j, (locks i).token = (locks j).token → i = j) :
    (∀ history s, (lockCalls locks).Reaches history s →
      (∀ i j, (locks i).key = (locks j).key → s.Stores locks i → s.Stores locks j → i = j) ∧
      (∀ i start clock outcome t, Step locks s (.attempt i start clock outcome) t →
        (outcome = some (.ok true) ↔ s.server.live (locks i).key = none) ∧
          (s.server.live (locks i).key ≠ none → t.server = s.server)) ∧
      (∀ i ttlMs outcome t, Step locks s (.extend i ttlMs outcome) t →
        (t.server ≠ s.server → s.Stores locks i) ∧
          (¬s.Stores locks i → 0 < ttlMs.getD (locks i).ttlMs → outcome = .ok false)) ∧
      ∀ i outcome t, Step locks s (.release i outcome) t →
        (t.server ≠ s.server → s.Stores locks i) ∧ (¬s.Stores locks i → outcome = false)) ∧
    ∀ history s events t j entry, (lockCalls locks).Reaches history s →
      ((lockCalls locks).under (WithoutHolder locks j)).Run s events t →
      s.server.live (locks j).key = some entry → entry.value = (locks j).token →
      Keyspace.unexpired t.server.now entry = true →
        t.server.live (locks j).key = some entry := by
  refine ⟨fun history s _ => ⟨?_, ?_, ?_, ?_⟩, ?_⟩
  · intro i j hkey hi hj
    exact stores_unique hdistinct hkey hi hj
  · intro i start clock outcome t hstep
    obtain ⟨hsucceeds, hsame, -⟩ := hstep.of_attempt
    exact ⟨hsucceeds, hsame⟩
  · intro i ttlMs outcome t hstep
    obtain ⟨hrefused, -⟩ := hstep.of_extend
    refine ⟨fun hchanged => ?_, fun hother => (hrefused hother).2⟩
    by_contra hother
    exact hchanged (hrefused hother).1
  · intro i outcome t hstep
    obtain ⟨hrefused, -⟩ := hstep.of_release
    refine ⟨fun hchanged => ?_, fun hother => (hrefused hother).2⟩
    by_contra hother
    exact hchanged (hrefused hother).1
  · intro history s events t j entry _ hrun hlive htoken hfresh
    exact Run.live_of_holder hdistinct hrun hlive htoken hfresh

/-! ## Two workers -/

/-- A lock of a worker. -/
def sampleLock (token : String) : RedisLock where
  key := "job"
  ttlMs := 30000
  blockingTimeoutSeconds := 0
  pollIntervalSeconds := 1
  required := true
  token := token
  ttlMs_pos := by decide
  waits := by decide

/-- The locks of two workers. -/
def workers (first : Bool) : RedisLock := sampleLock (if first then "a" else "b")

theorem workers_distinct (i j : Bool) (h : (workers i).token = (workers j).token) : i = j := by
  cases i with
  | true => cases j with
    | true => rfl
    | false => exact absurd h (by decide)
  | false => cases j with
    | true => exact absurd h (by decide)
    | false => rfl

/-- No worker has called yet. -/
def idleWorkers : State Bool := ⟨Keyspace.empty, fun _ => ⟨false, false⟩⟩

theorem init_idleWorkers : (lockCalls workers).init idleWorkers :=
  ⟨fun _ => rfl, fun _ => nofun⟩

/-- The first worker has the lock. -/
def firstHolds : State Bool :=
  idleWorkers.setHandle (idleWorkers.server.setPx "job" "a" 30000) true ⟨true, false⟩

theorem step_firstHolds :
    Step workers idleWorkers (.attempt true 0 0 (some (.ok true))) firstHolds :=
  .attempt true 0 0 rfl

/-- The lease of the first worker ended, and the second took over. -/
def secondHolds : State Bool :=
  let late := firstHolds.server.tick 40000
  { firstHolds with server := late }.setHandle (late.setPx "job" "b" 30000) false ⟨true, false⟩

theorem reaches_secondHolds :
    (lockCalls workers).Reaches [.attempt false 0 0 (some (.ok true)), .tick 40000,
      .attempt true 0 0 (some (.ok true))] secondHolds := by
  have hfirst := (System.Reaches.init init_idleWorkers).step step_firstHolds
  exact (hfirst.step (.tick _ 40000)).step (.attempt false 0 0 rfl)

/-- The first worker still believes in its lease, and gets `False` from `extend` and `release`. -/
theorem lock_holder_undisturbed_workers :
    (∀ outcome t, Step workers secondHolds (.extend true none outcome) t → outcome = .ok false) ∧
      ∀ outcome t, Step workers secondHolds (.release true outcome) t → outcome = false := by
  obtain ⟨-, -, hextend, hrelease⟩ :=
    (lock_holder_undisturbed workers_distinct).1 _ _ reaches_secondHolds
  have hother : ¬secondHolds.Stores workers true := by decide
  constructor
  · intro outcome t hstep
    exact (hextend true none outcome t hstep).2 hother (by decide)
  · intro outcome t hstep
    exact (hrelease true outcome t hstep).2 hother

/-! ## The flag -/

/-- A handle runs one call at a time: `extend` and `release` wait for the end of `acquire`. -/
def OneCall (s : State ι) : Event ι → Prop
  | .extend i _ _ | .release i _ => (s.handles i).polling = false
  | _ => True

/-- A call of `acquire` does not give up on an attempt that finds the token of its own handle. -/
def Careful (locks : ι → RedisLock) (s : State ι) : Event ι → Prop
  | .attempt i start clock _ => ¬(s.Stores locks i ∧ (locks i).deadline start ≤ clock)
  | _ => True

/-- Between its calls, a handle whose token the key stores has its flag up. -/
def NeverForgets (locks : ι → RedisLock) (s : State ι) : Prop :=
  ∀ i, (s.handles i).polling = false → s.Stores locks i → (s.handles i).acquired = true

/-- A step only adds the token of the handle that attempts. -/
theorem Step.stores_of {s t : State ι} {event : Event ι} (h : Step locks s event t) {j : ι}
    (hdistinct : ∀ i j, (locks i).token = (locks j).token → i = j)
    (hother : ∀ start clock outcome, event ≠ .attempt j start clock outcome)
    (hstores : t.Stores locks j) : s.Stores locks j := by
  unfold State.Stores at hstores ⊢
  cases h with
  | attempt i start clock hsent =>
      have hne : (locks i).token ≠ (locks j).token := fun heq =>
        hother start clock _ (by rw [hdistinct i j heq])
      cases hlive : s.server.live (locks i).key with
      | some entry =>
          rw [RedisLock.attempt, setNx_refused hlive] at hsent
          obtain ⟨rfl, -⟩ := Prod.mk.inj hsent
          exact hstores
      | none =>
          rw [RedisLock.attempt] at hsent
          have hserver : (setNx s.server (locks i).key (locks i).token
              (locks i).ttlMs.toNat).1.get (locks j).key = some (locks j).token := by
            rw [hsent]
            exact hstores
          by_cases hkey : (locks j).key = (locks i).key
          · rw [hkey, get_setNx_absent hlive] at hserver
            exact absurd (Option.some.inj hserver) hne
          · rw [setNx_absent hlive, Keyspace.get, Keyspace.live_setPx_other _ _ _ hkey] at hserver
            exact hserver
  | extend i ttlMs hdone =>
      have hsame : ((locks i).extend (s.handles i).acquired ttlMs s.server).1.get (locks j).key =
          s.server.get (locks j).key := RedisLock.get_extend ..
      rw [hdone] at hsame
      exact hsame.symm.trans hstores
  | release i hdone =>
      have hgone : ((locks i).release (s.handles i).acquired s.server).1.get (locks j).key =
          some (locks j).token := by
        rw [hdone]
        exact hstores
      exact RedisLock.get_release hgone
  | tick elapsed =>
      obtain ⟨expireAt, hlive⟩ := Keyspace.get_eq_some.mp hstores
      exact Keyspace.get_eq_some.mpr ⟨expireAt, Keyspace.live_of_tick hlive⟩
  | expire key =>
      have hkept := (get_del s.server key (locks j).key).symm.trans hstores
      split at hkept
      · cases hkept
      · exact hkept

/-- A step leaves the flags of the other handles alone. -/
theorem Step.handles_other {s t : State ι} {event : Event ι} (h : Step locks s event t) {j : ι}
    (hother : event.handle ≠ some j) : t.handles j = s.handles j := by
  cases h with
  | attempt i start clock hsent => exact if_neg fun hji => hother (congrArg some hji.symm)
  | extend i ttlMs hdone => exact if_neg fun hji => hother (congrArg some hji.symm)
  | release i hdone => exact if_neg fun hji => hother (congrArg some hji.symm)
  | tick elapsed => rfl
  | expire key => rfl

/-- An attempt that did not acquire finds the key as it leaves it, and when its call ended the
deadline has passed. -/
theorem Step.of_failed_attempt {s t : State ι} {i : ι} {start clock : Rat}
    {outcome : Option (Except PyError Bool)} (h : Step locks s (.attempt i start clock outcome) t)
    (hfailed : (t.handles i).acquired = false) :
    t.server = s.server ∧
      ((t.handles i).polling = false → (locks i).deadline start ≤ clock) := by
  obtain ⟨hsucceeds, hsame, -⟩ := h.of_attempt
  cases h with
  | attempt i start clock hsent =>
      rename_i server acquired
      simp only [State.setHandle, if_true] at hfailed ⊢
      subst hfailed
      refine ⟨hsame fun hnone => ?_, fun hidle => ?_⟩
      · have hacquired := RedisLock.afterAttempt_ok_true.mp (hsucceeds.mpr hnone)
        cases hacquired
      · by_contra hearly
        simp [RedisLock.afterAttempt, hearly] at hidle

/-- A careful step of a handle that runs one call at a time does not forget its own lock. -/
theorem Step.remembers (hdistinct : ∀ i j, (locks i).token = (locks j).token → i = j)
    {s t : State ι} {event : Event ι} (hstep : Step locks s event t) (hone : OneCall s event)
    (hcareful : Careful locks s event) (h : NeverForgets locks s) {i : ι}
    (hhandle : event.handle = some i) (hidle : (t.handles i).polling = false)
    (hstores : t.Stores locks i) : (t.handles i).acquired = true := by
  cases event with
  | attempt k start clock outcome =>
      obtain rfl := Option.some.inj hhandle
      by_contra hnot
      -- The attempt failed on the handle's own token, and the call gave up.
      obtain ⟨hserver, hlate⟩ := hstep.of_failed_attempt (Bool.eq_false_iff.mpr hnot)
      rw [State.Stores, hserver] at hstores
      exact hcareful ⟨hstores, hlate hidle⟩
  | extend k ttlMs outcome =>
      obtain rfl := Option.some.inj hhandle
      have hbefore := hstep.stores_of hdistinct (by simp) hstores
      cases hstep with
      | extend k ttlMs hdone =>
          simp only [State.setHandle, if_true] at hidle ⊢
          exact h k hidle hbefore
  | release k outcome =>
      obtain rfl := Option.some.inj hhandle
      have hbefore := hstep.stores_of hdistinct (by simp) hstores
      have hflag := h k hone hbefore
      cases hstep with
      | release k hdone =>
          -- The release deleted the key, so it does not store the token now.
          rw [hflag, RedisLock.release_own hbefore] at hdone
          obtain ⟨rfl, -⟩ := Prod.mk.inj hdone
          have hgone := (get_del s.server (locks k).key (locks k).key).symm.trans hstores
          rw [if_pos rfl] at hgone
          cases hgone
  | tick elapsed => cases hhandle
  | expire key => cases hhandle

/-- A careful step of a handle that runs one call at a time forgets no lock. -/
theorem Step.neverForgets (hdistinct : ∀ i j, (locks i).token = (locks j).token → i = j)
    {s t : State ι} {event : Event ι} (hstep : Step locks s event t) (hone : OneCall s event)
    (hcareful : Careful locks s event) (h : NeverForgets locks s) : NeverForgets locks t := by
  intro j hidle hstores
  by_cases hown : event.handle = some j
  · exact hstep.remembers hdistinct hone hcareful h hown hidle hstores
  · have hbefore : s.Stores locks j :=
      hstep.stores_of hdistinct (fun start clock outcome he => hown (he ▸ rfl)) hstores
    rw [hstep.handles_other hown] at hidle ⊢
    exact h j hidle hbefore

/-- The runs in which every handle runs one call at a time. -/
def sequentialCalls (locks : ι → RedisLock) : System (State ι) (Event ι) :=
  (lockCalls locks).under OneCall

/-- In every run whose steps are careful no handle forgets a lock it owns, so its `release` deletes
the key; and a step that is not careful leaves its handle without the lock it owns. -/
theorem lock_never_forgotten (hdistinct : ∀ i j, (locks i).token = (locks j).token → i = j) :
    (∀ history s, ((sequentialCalls locks).under (Careful locks)).Reaches history s →
      NeverForgets locks s ∧
      ∀ i, (s.handles i).polling = false → s.Stores locks i →
        (locks i).release (s.handles i).acquired s.server =
          (s.server.del (locks i).key, true)) ∧
    ∀ s event t, (sequentialCalls locks).step s event t → ¬Careful locks s event →
      ¬NeverForgets locks t := by
  constructor
  · intro history s hr
    have hnever : NeverForgets locks s := by
      refine hr.invariant (I := fun _ s => NeverForgets locks s) ?_ ?_
      · rintro s ⟨-, hfresh⟩ i _ hstores
        exact absurd hstores (hfresh i)
      · rintro history s event t _ hs ⟨⟨hstep, hone⟩, hcareful⟩
        exact hstep.neverForgets hdistinct hone hcareful hs
    refine ⟨hnever, fun i hidle hstores => ?_⟩
    rw [hnever i hidle hstores]
    exact RedisLock.release_own hstores
  · rintro s event t ⟨hstep, -⟩ hcareless hnever
    cases hstep with
    | attempt i start clock hsent =>
        obtain ⟨hstores, hlate⟩ := not_not.mp hcareless
        obtain ⟨expireAt, hlive⟩ := Keyspace.get_eq_some.mp hstores
        rw [RedisLock.attempt, setNx_refused hlive] at hsent
        obtain ⟨rfl, rfl⟩ := Prod.mk.inj hsent
        have hgaveUp : ((locks i).afterAttempt false start clock).isNone = false := by
          simp only [RedisLock.afterAttempt, Bool.false_eq_true, if_false, if_pos hlate]
          split
          · rfl
          · rfl
        have hflag := hnever i (by simp only [State.setHandle, if_true, hgaveUp]) hstores
        simp [State.setHandle] at hflag
    | extend i ttlMs hdone => exact hcareless trivial
    | release i hdone => exact hcareless trivial
    | tick elapsed => exact hcareless trivial
    | expire key => exact hcareless trivial

/-- The first worker calls `acquire` again while it holds the lock: the key stores its token, its
flag is down, and its `release` leaves the key. -/
theorem acquired_again_forgets :
    ¬∀ history s, (sequentialCalls workers).Reaches history s →
      NeverForgets workers s := by
  intro hnever
  have hstart : (sequentialCalls workers).Reaches [] idleWorkers := .init init_idleWorkers
  have hfirst := hstart.step ⟨step_firstHolds, trivial⟩
  have hgivesUp : (workers true).afterAttempt false 0 0 =
      some (.error (.lockNotAcquiredError "could not acquire Redis lock job")) := by
    simp [RedisLock.afterAttempt, RedisLock.deadline, workers, sampleLock]
  have hsent : (workers true).attempt firstHolds.server = (firstHolds.server, false) := rfl
  have hagain := @Step.attempt _ _ workers firstHolds _ _ true 0 0 hsent
  rw [hgivesUp] at hagain
  have hflag := hnever _ _ (hfirst.step ⟨hagain, trivial⟩) true rfl (by decide)
  cases hflag

/-- The first worker acquires once, and its `release` deletes the key. -/
theorem lock_never_forgotten_workers :
    (workers true).release (firstHolds.handles true).acquired firstHolds.server =
      (firstHolds.server.del "job", true) := by
  have hcareful : Careful workers idleWorkers (.attempt true 0 0 (some (.ok true))) := by
    intro h
    exact absurd h.1 (by decide)
  have hstart : ((sequentialCalls workers).under (Careful workers)).Reaches [] idleWorkers :=
    .init init_idleWorkers
  have hfirst := hstart.step ⟨⟨step_firstHolds, trivial⟩, hcareful⟩
  exact ((lock_never_forgotten workers_distinct).1 _ _ hfirst).2 true rfl (by decide)

end ProdkitStorage.Redis.Lock

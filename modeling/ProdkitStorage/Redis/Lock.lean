import Mathlib.Data.Rat.Defs
import ProdkitStorage.Foundation.Keyspace
import ProdkitStorage.Foundation.Transition
import ProdkitStorage.Python.Error

/-!
# Distributed locks

`redis/locks.py`.  A lock handle sends `SET ... NX PX` and two Lua scripts, and
keeps a flag of what it believes.  Redis runs each of them atomically, so an
attempt of `acquire` is one step and a poll between two attempts is none; a call of
`extend` or `release` is one step as well.  `AsyncRedisLock` sends the same
commands.

The clock of the server passes between the steps, and a key may be gone before
its time (an eviction, a restart).  The readings of `time.monotonic()` are those
of the client.
-/

namespace ProdkitStorage.Redis.Lock

open ProdkitStorage.Foundation
open ProdkitStorage.Python

/-- The keys of the server with their texts. -/
abbrev Texts := Keyspace String String

/-! ## The scripts -/

/-- `_RELEASE_SCRIPT`. -/
def releaseScript (ks : Texts) (key token : String) : Texts × Int :=
  if ks.get key = some token then (ks.del key, 1) else (ks, 0)

/-- `_EXTEND_SCRIPT`. -/
def extendScript (ks : Texts) (key token : String) (ttlMs : Nat) : Texts × Int :=
  if ks.get key = some token then (ks.pexpire key ttlMs, 1) else (ks, 0)

/-- `client.set(key, token, nx=True, px=ttl_ms)`. -/
def setNx (ks : Texts) (key token : String) (ttlMs : Nat) : Texts × Bool :=
  match ks.get key with
  | some _ => (ks, false)
  | none => (ks.setPx key token ttlMs, true)

/-! ## Handles -/

/-- `RedisLock`, after `__init__`; the flag `acquired` is a part of the state. -/
structure RedisLock where
  key : String
  ttlMs : Int
  blockingTimeoutSeconds : Rat
  pollIntervalSeconds : Rat
  required : Bool
  token : String
  ttlMs_pos : 0 < ttlMs
  waits : 0 ≤ blockingTimeoutSeconds ∧ 0 < pollIntervalSeconds

namespace RedisLock

/-- `RedisLock(...)`.  `token` is the `secrets.token_urlsafe(24)` it draws. -/
def make (key : String) (ttlMs : Int) (blockingTimeoutSeconds pollIntervalSeconds : Rat)
    (required : Bool) (token : String) : Except PyError RedisLock :=
  if httl : 0 < ttlMs then
    if hwaits : 0 ≤ blockingTimeoutSeconds ∧ 0 < pollIntervalSeconds then
      .ok { key, ttlMs, blockingTimeoutSeconds, pollIntervalSeconds, required, token
            ttlMs_pos := httl
            waits := hwaits }
    else .error (.valueError
      "lock wait values must be non-negative with a positive poll interval")
  else .error (.valueError "ttl_ms must be positive")

variable (lock : RedisLock)

/-- `deadline` of a call of `acquire` that began at the reading `start`. -/
def deadline (start : Rat) : Rat := start + lock.blockingTimeoutSeconds

/-- The command of an attempt. -/
def attempt (ks : Texts) : Texts × Bool := setNx ks lock.key lock.token lock.ttlMs.toNat

/-- What `acquire` does after an attempt, at the reading `clock`: `none` when it sleeps and tries
again. -/
def afterAttempt (acquired : Bool) (start clock : Rat) : Option (Except PyError Bool) :=
  if acquired then some (.ok true)
  else if lock.deadline start ≤ clock then
    if lock.required then
      some (.error (.lockNotAcquiredError ("could not acquire Redis lock " ++ lock.key)))
    else some (.ok false)
  else none

/-- `extend`, with the flag of the handle. -/
def extend (acquired : Bool) (ttlMs : Option Int) (ks : Texts) : Texts × Except PyError Bool :=
  if !acquired then (ks, .ok false)
  else
    let newTtl := ttlMs.getD lock.ttlMs
    if newTtl ≤ 0 then (ks, .error (.valueError "ttl_ms must be positive"))
    else
      let after := extendScript ks lock.key lock.token newTtl.toNat
      (after.1, .ok (after.2 != 0))

/-- `release`, with the flag of the handle; the flag is down afterwards. -/
def release (acquired : Bool) (ks : Texts) : Texts × Bool :=
  if !acquired then (ks, false)
  else
    let after := releaseScript ks lock.key lock.token
    (after.1, after.2 != 0)

end RedisLock

/-! ## Many handles -/

/-- What a handle knows: its flag, and whether a call of `acquire` polls. -/
structure Handle where
  acquired : Bool
  polling : Bool

variable {ι : Type} [DecidableEq ι]

/-- The server and the handles. -/
structure State (ι : Type) where
  server : Texts
  handles : ι → Handle

/-- The flags of one handle change. -/
def State.setHandle (s : State ι) (server : Texts) (i : ι) (handle : Handle) : State ι where
  server := server
  handles j := if j = i then handle else s.handles j

/-- A step of a handle with its outcome, or something the server does. -/
inductive Event (ι : Type) where
  /-- An attempt of a call of `acquire` that began at `start`; `none` when the call goes on. -/
  | attempt (i : ι) (start clock : Rat) (outcome : Option (Except PyError Bool))
  | extend (i : ι) (ttlMs : Option Int) (outcome : Except PyError Bool)
  | release (i : ι) (outcome : Bool)
  | tick (elapsed : Nat)
  | expire (key : String)

/-- The handle of an event. -/
def Event.handle : Event ι → Option ι
  | .attempt i _ _ _ => some i
  | .extend i _ _ => some i
  | .release i _ => some i
  | _ => none

/-- One step. -/
inductive Step (locks : ι → RedisLock) : State ι → Event ι → State ι → Prop where
  | attempt {s : State ι} {server : Texts} {acquired : Bool} (i : ι) (start clock : Rat) :
      (locks i).attempt s.server = (server, acquired) →
      Step locks s (.attempt i start clock ((locks i).afterAttempt acquired start clock))
        (s.setHandle server i
          ⟨acquired, ((locks i).afterAttempt acquired start clock).isNone⟩)
  | extend {s : State ι} {server : Texts} {outcome : Except PyError Bool} (i : ι)
      (ttlMs : Option Int) :
      (locks i).extend (s.handles i).acquired ttlMs s.server = (server, outcome) →
      Step locks s (.extend i ttlMs outcome) (s.setHandle server i (s.handles i))
  | release {s : State ι} {server : Texts} {outcome : Bool} (i : ι) :
      (locks i).release (s.handles i).acquired s.server = (server, outcome) →
      Step locks s (.release i outcome) (s.setHandle server i ⟨false, (s.handles i).polling⟩)
  | tick (s : State ι) (elapsed : Nat) :
      Step locks s (.tick elapsed) { s with server := s.server.tick elapsed }
  | expire (s : State ι) (key : String) :
      Step locks s (.expire key) { s with server := s.server.del key }

/-- The handles of a server, before any of them acquired. -/
def lockCalls (locks : ι → RedisLock) : System (State ι) (Event ι) where
  init s :=
    (∀ i, s.handles i = ⟨false, false⟩) ∧ ∀ i, s.server.get (locks i).key ≠ some (locks i).token
  step := Step locks

/-- The key stores the token of the handle. -/
def State.Stores (locks : ι → RedisLock) (s : State ι) (i : ι) : Prop :=
  s.server.get (locks i).key = some (locks i).token

instance (locks : ι → RedisLock) (s : State ι) (i : ι) : Decidable (s.Stores locks i) :=
  inferInstanceAs (Decidable (_ = _))

/-! ## What the commands do -/

theorem setNx_refused {ks : Texts} {key : String} {entry : Entry String}
    (h : ks.live key = some entry) (token : String) (ttlMs : Nat) :
    setNx ks key token ttlMs = (ks, false) := by
  rw [setNx, Keyspace.get, h]
  rfl

theorem setNx_absent {ks : Texts} {key : String} (h : ks.live key = none) (token : String)
    (ttlMs : Nat) : setNx ks key token ttlMs = (ks.setPx key token ttlMs, true) := by
  rw [setNx, Keyspace.get_eq_none.mpr h]

/-- After an attempt that acquired, the key stores the token. -/
theorem get_setNx_absent {ks : Texts} {key : String} (h : ks.live key = none) (token : String)
    (ttlMs : Nat) : (setNx ks key token ttlMs).1.get key = some token := by
  rw [setNx_absent h, Keyspace.get, Keyspace.live_setPx_self]
  rfl

theorem releaseScript_other {ks : Texts} {key token : String} (h : ks.get key ≠ some token) :
    releaseScript ks key token = (ks, 0) :=
  if_neg h

theorem releaseScript_own {ks : Texts} {key token : String} (h : ks.get key = some token) :
    releaseScript ks key token = (ks.del key, 1) :=
  if_pos h

theorem extendScript_other {ks : Texts} {key token : String} (h : ks.get key ≠ some token)
    (ttlMs : Nat) : extendScript ks key token ttlMs = (ks, 0) :=
  if_neg h

/-- `_EXTEND_SCRIPT` keeps the value of every key. -/
theorem get_extendScript (ks : Texts) (key token : String) (ttlMs : Nat) (key' : String) :
    (extendScript ks key token ttlMs).1.get key' = ks.get key' := by
  unfold extendScript
  split
  · exact Keyspace.get_pexpire ks key key' ttlMs
  · rfl

theorem get_del (ks : Texts) (key key' : String) :
    (ks.del key).get key' = if key' = key then none else ks.get key' := by
  rw [Keyspace.get, Keyspace.live_del]
  split
  · rfl
  · rfl

/-! ## What a call does -/

variable {lock : RedisLock} {ks : Texts}

/-- A handle whose token is not stored gets `False` from `extend`. -/
theorem RedisLock.extend_other (h : ks.get lock.key ≠ some lock.token) (acquired : Bool)
    (ttlMs : Option Int) :
    (lock.extend acquired ttlMs ks).1 = ks ∧
      (0 < ttlMs.getD lock.ttlMs → (lock.extend acquired ttlMs ks).2 = .ok false) := by
  cases acquired with
  | false => exact ⟨rfl, fun _ => rfl⟩
  | true =>
      by_cases hpos : ttlMs.getD lock.ttlMs ≤ 0
      · simp only [extend, if_pos hpos]
        exact ⟨rfl, fun hlt => absurd hpos (Int.not_le.mpr hlt)⟩
      · simp only [extend, if_neg hpos, extendScript_other h]
        exact ⟨rfl, fun _ => rfl⟩

/-- A handle whose token is not stored gets `False` from `release`. -/
theorem RedisLock.release_other (h : ks.get lock.key ≠ some lock.token) (acquired : Bool) :
    lock.release acquired ks = (ks, false) := by
  cases acquired with
  | false => rfl
  | true => simp only [release, releaseScript_other h]; rfl

/-- A handle whose flag is up deletes the key that stores its token. -/
theorem RedisLock.release_own (h : ks.get lock.key = some lock.token) :
    lock.release true ks = (ks.del lock.key, true) := by
  simp only [release, releaseScript_own h]
  rfl

/-- `extend` keeps the value of every key. -/
theorem RedisLock.get_extend (acquired : Bool) (ttlMs : Option Int) (key : String) :
    (lock.extend acquired ttlMs ks).1.get key = ks.get key := by
  unfold extend
  split
  · rfl
  · dsimp only
    split
    · rfl
    · exact get_extendScript ..

/-- `extend` leaves the other keys alone. -/
theorem RedisLock.live_extend (acquired : Bool) (ttlMs : Option Int) {key : String}
    (h : key ≠ lock.key) : (lock.extend acquired ttlMs ks).1.live key = ks.live key := by
  unfold extend
  split
  · rfl
  · dsimp only
    split
    · rfl
    · unfold extendScript
      split
      · exact Keyspace.live_pexpire_other ks _ h
      · rfl

/-- `release` leaves the other keys alone. -/
theorem RedisLock.live_release (acquired : Bool) {key : String} (h : key ≠ lock.key) :
    (lock.release acquired ks).1.live key = ks.live key := by
  unfold release
  split
  · rfl
  · dsimp only
    unfold releaseScript
    split
    · rw [Keyspace.live_del, if_neg h]
    · rfl

theorem RedisLock.now_extend (acquired : Bool) (ttlMs : Option Int) :
    (lock.extend acquired ttlMs ks).1.now = ks.now := by
  unfold extend
  split
  · rfl
  · dsimp only
    split
    · rfl
    · unfold extendScript
      split
      · exact Keyspace.now_pexpire ..
      · rfl

theorem RedisLock.now_release (acquired : Bool) :
    (lock.release acquired ks).1.now = ks.now := by
  unfold release
  split
  · rfl
  · dsimp only
    unfold releaseScript
    split
    · rfl
    · rfl

/-- `release` gives no key a value. -/
theorem RedisLock.get_release {acquired : Bool} {key value : String}
    (h : (lock.release acquired ks).1.get key = some value) : ks.get key = some value := by
  unfold release at h
  split at h
  · exact h
  · dsimp only at h
    unfold releaseScript at h
    split at h
    · rw [get_del] at h
      split at h
      · cases h
      · exact h
    · exact h

end ProdkitStorage.Redis.Lock

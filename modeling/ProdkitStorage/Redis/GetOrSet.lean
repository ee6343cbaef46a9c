import Mathlib.Tactic.NormNum
import ProdkitStorage.Redis.Cache
import ProdkitStorage.Redis.Lock

/-!
# Calls of `get_or_set`

`SyncCache.get_or_set`, with the other calls of `redis/cache.py` around it.  A call of
`get_or_set` is a program: it looks the key up, acquires the lock of the key, looks it
up again, runs the loader, stores the value and releases the lock.  Each command is
one step, so any number of calls on one server interleave in every order; a call
that is lost takes no step any more.  The loader is not code of this repository: it
returns any value or raises any error, at any time.  `AsyncCache` sends the same
commands.

The codec is a parameter.  `Codec.dumps` and `Codec.loads` are those of `JsonCodec`.
-/

namespace ProdkitStorage.Redis

open ProdkitStorage.Foundation (Keyspace Entry System)
open ProdkitStorage.Python
open Lock (RedisLock)

/-! ## Commands -/

/-- `JsonCodec`. -/
structure Codec (Value : Type) where
  dumps : Value → Except PyError String
  loads : String → Except PyError Value

/-- `client.set(key, token, nx=True, px=ttl_ms)`, on a server with keys of both types. -/
def setNxCommand (ks : Server) (key token : String) (ttlMs : Nat) : Server × Bool :=
  match ks.live key with
  | some _ => (ks, false)
  | none => (ks.setPx key (.text token) ttlMs, true)

/-- `_RELEASE_SCRIPT`, on a server with keys of both types. -/
def releaseCommand (ks : Server) (key token : String) : Server × Except PyError Int :=
  match getCommand ks key with
  | .error error => (ks, .error error)
  | .ok held => if held = some token then (ks.del key, .ok 1) else (ks, .ok 0)

variable {Value ι : Type}

/-- `SyncCache.get`; `none` is the default. -/
def lookup (codec : Codec Value) (ks : Server) (key : String) : Except PyError (Option Value) := do
  match ← getCommand ks key with
  | none => return none
  | some encoded => return some (← codec.loads encoded)

/-- What `SyncCache.set` does before it sends its pipeline. -/
def Cache.prepare (cache : Cache) (codec : Codec Value) (key : String) (value : Value)
    (ttlSeconds : Option Int) (tags : List String) (drawn : Int) :
    Except PyError (List Command) := do
  let ttl ← cache.ttl ttlSeconds drawn
  let encoded ← codec.dumps value
  let tagKeys ← tags.mapM cache.tagKey
  return setPipeline key encoded ttl.toNat tagKeys

/-! ## The program of a call -/

/-- The arguments of a call, and the token its lock draws. -/
structure GetOrSet where
  key : String
  ttlSeconds : Option Int := none
  tags : List String := []
  lockTtlMs : Int := 30000
  lockWaitSeconds : Rat := 5
  token : String

/-- `f"{key}:lock"`. -/
def lockKeyOf (key : String) : String := key ++ ":lock"

/-- The key of the lock. -/
def GetOrSet.lockKey (call : GetOrSet) : String := lockKeyOf call.key

/-- The lock of the call. -/
def GetOrSet.lock (call : GetOrSet) : Except PyError RedisLock :=
  RedisLock.make call.lockKey call.lockTtlMs call.lockWaitSeconds (1 / 20) true call.token

/-- Where a call stands. -/
inductive Phase (Value : Type) where
  /-- Before the first lookup. -/
  | idle
  /-- In `acquire`, called at the reading `start`. -/
  | acquiring (start : Rat)
  /-- With the lock, before the second lookup. -/
  | locked
  /-- In the loader. -/
  | loading
  /-- With the loaded value, before `set`. -/
  | storing (value : Value)
  /-- On the way out of the `with` block. -/
  | leaving (outcome : Except PyError Value)
  | done (outcome : Except PyError Value)

/-- The call is inside the `with` block. -/
def Phase.Inside : Phase Value → Prop
  | .locked => True
  | .loading => True
  | .storing _ => True
  | .leaving _ => True
  | _ => False

/-- After the first lookup. -/
def GetOrSet.afterLook (call : GetOrSet) (start : Rat) :
    Except PyError (Option Value) → Phase Value
  | .error error => .done (.error error)
  | .ok (some value) => .done (.ok value)
  | .ok none =>
      match call.lock with
      | .error error => .done (.error error)
      | .ok _ => .acquiring start

/-- After an attempt at the reading `clock`. -/
def afterAcquire (lock : RedisLock) (acquired : Bool) (start clock : Rat) : Phase Value :=
  match lock.afterAttempt acquired start clock with
  | none => .acquiring start
  | some (.error error) => .done (.error error)
  | some (.ok _) => .locked

/-- After the second lookup. -/
def afterRecheck : Except PyError (Option Value) → Phase Value
  | .error error => .leaving (.error error)
  | .ok (some value) => .leaving (.ok value)
  | .ok none => .loading

/-- After the loader. -/
def afterLoad : Except PyError Value → Phase Value
  | .error error => .leaving (.error error)
  | .ok value => .storing value

/-- After the pipeline of `set`. -/
def afterStore (value : Value) : Except PyError Unit → Phase Value
  | .error error => .leaving (.error error)
  | .ok _ => .leaving (.ok value)

/-- After the release. -/
def afterRelease (outcome : Except PyError Value) : Except PyError Int → Phase Value
  | .error error => .done (.error error)
  | .ok _ => .done outcome

/-! ## The transition system -/

/-- A step with what it brought. -/
inductive Event (ι Value : Type) where
  | look (i : ι) (found : Except PyError (Option Value))
  | attempt (i : ι) (acquired : Bool)
  | recheck (i : ι) (found : Except PyError (Option Value))
  | load (i : ι) (outcome : Except PyError Value)
  /-- A `set` raises before its pipeline is sent: that of a call, or a plain one. -/
  | refuse (i : Option ι) (error : PyError)
  /-- The pipeline of a `set`: that of a call, or a plain one. -/
  | store (i : Option ι) (key : String) (value : Value) (tags : List String)
      (outcome : Except PyError Unit)
  | release (i : ι)
  /-- A plain `get`. -/
  | read (key : String) (found : Except PyError (Option Value))
  | delete (keys : List String)
  | invalidateTag (tag : String) (outcome : Except PyError Nat)
  | tick (elapsed : Nat)

/-- The server and the calls. -/
structure CacheState (ι Value : Type) where
  server : Server
  phase : ι → Phase Value

variable [DecidableEq ι]

/-- One call moves on. -/
def CacheState.move (s : CacheState ι Value) (server : Server) (i : ι) (phase : Phase Value) :
    CacheState ι Value where
  server := server
  phase j := if j = i then phase else s.phase j

/-- One step of a call, one plain call, or time that passes. -/
inductive CacheStep (cache : Cache) (codec : Codec Value) (calls : ι → GetOrSet) :
    CacheState ι Value → Event ι Value → CacheState ι Value → Prop where
  | look {s : CacheState ι Value} (i : ι) (start : Rat) :
      s.phase i = .idle →
      CacheStep cache codec calls s (.look i (lookup codec s.server (calls i).key))
        (s.move s.server i ((calls i).afterLook start (lookup codec s.server (calls i).key)))
  | attempt {s : CacheState ι Value} {server : Server} {acquired : Bool} {lock : RedisLock}
      (i : ι) (start clock : Rat) :
      s.phase i = .acquiring start → (calls i).lock = .ok lock →
      setNxCommand s.server lock.key lock.token lock.ttlMs.toNat = (server, acquired) →
      CacheStep cache codec calls s (.attempt i acquired)
        (s.move server i (afterAcquire lock acquired start clock))
  | recheck {s : CacheState ι Value} (i : ι) :
      s.phase i = .locked →
      CacheStep cache codec calls s (.recheck i (lookup codec s.server (calls i).key))
        (s.move s.server i (afterRecheck (lookup codec s.server (calls i).key)))
  | load {s : CacheState ι Value} (i : ι) (outcome : Except PyError Value) :
      s.phase i = .loading →
      CacheStep cache codec calls s (.load i outcome) (s.move s.server i (afterLoad outcome))
  | refuse {s : CacheState ι Value} {value : Value} {error : PyError} (i : ι) (drawn : Int) :
      s.phase i = .storing value →
      cache.prepare codec (calls i).key value (calls i).ttlSeconds (calls i).tags drawn =
        .error error →
      CacheStep cache codec calls s (.refuse (some i) error)
        (s.move s.server i (.leaving (.error error)))
  | store {s : CacheState ι Value} {value : Value} {pipe : List Command} {server : Server}
      {outcome : Except PyError Unit} (i : ι) (drawn : Int) :
      s.phase i = .storing value →
      cache.prepare codec (calls i).key value (calls i).ttlSeconds (calls i).tags drawn = .ok pipe →
      execute s.server pipe = (server, outcome) →
      CacheStep cache codec calls s (.store (some i) (calls i).key value (calls i).tags outcome)
        (s.move server i (afterStore value outcome))
  | release {s : CacheState ι Value} {outcome : Except PyError Value} {lock : RedisLock}
      {server : Server} {reply : Except PyError Int} (i : ι) :
      s.phase i = .leaving outcome → (calls i).lock = .ok lock →
      releaseCommand s.server lock.key lock.token = (server, reply) →
      CacheStep cache codec calls s (.release i) (s.move server i (afterRelease outcome reply))
  | read {s : CacheState ι Value} (key : String) :
      CacheStep cache codec calls s (.read key (lookup codec s.server key)) s
  | refuseSet {s : CacheState ι Value} {error : PyError} (key : String) (value : Value)
      (ttlSeconds : Option Int) (tags : List String) (drawn : Int) :
      cache.prepare codec key value ttlSeconds tags drawn = .error error →
      CacheStep cache codec calls s (.refuse none error) s
  | set {s : CacheState ι Value} {pipe : List Command} {server : Server}
      {outcome : Except PyError Unit} (key : String) (value : Value) (ttlSeconds : Option Int)
      (tags : List String) (drawn : Int) :
      cache.prepare codec key value ttlSeconds tags drawn = .ok pipe →
      execute s.server pipe = (server, outcome) →
      CacheStep cache codec calls s (.store none key value tags outcome) { s with server := server }
  | delete {s : CacheState ι Value} (keys : List String) :
      CacheStep cache codec calls s (.delete keys)
        { s with server := (deleteCommand s.server keys).1 }
  | invalidateTag {s : CacheState ι Value} {server : Server} {outcome : Except PyError Nat}
      (tag : String) :
      cache.invalidateTag s.server tag = (server, outcome) →
      CacheStep cache codec calls s (.invalidateTag tag outcome) { s with server := server }
  | tick {s : CacheState ι Value} (elapsed : Nat) :
      CacheStep cache codec calls s (.tick elapsed) { s with server := s.server.tick elapsed }

/-- The calls, on the server `start`. -/
def cacheCalls (cache : Cache) (codec : Codec Value) (calls : ι → GetOrSet) (start : Server) :
    System (CacheState ι Value) (Event ι Value) where
  init s := s.server = start ∧ ∀ i, s.phase i = .idle
  step := CacheStep cache codec calls

/-! ## What the commands do -/

@[simp] theorem CacheState.move_server (s : CacheState ι Value) (server : Server) (i : ι)
    (phase : Phase Value) : (s.move server i phase).server = server := rfl

theorem CacheState.move_phase (s : CacheState ι Value) (server : Server) (i j : ι)
    (phase : Phase Value) :
    (s.move server i phase).phase j = if j = i then phase else s.phase j := rfl

/-- The lock of a call has the key and the token of the call. -/
theorem GetOrSet.lock_ok {call : GetOrSet} {lock : RedisLock} (h : call.lock = .ok lock) :
    lock.key = call.lockKey ∧ lock.token = call.token ∧ lock.required = true := by
  unfold GetOrSet.lock RedisLock.make at h
  split at h
  · split at h
    · cases h
      exact ⟨rfl, rfl, rfl⟩
    · cases h
  · cases h

/-- `set` is its preparation and then its pipeline. -/
theorem Cache.set_eq (cache : Cache) (codec : Codec Value) {value : Value} {encoded : String}
    (hencoded : codec.dumps value = .ok encoded) (ks : Server) (key : String)
    (ttlSeconds : Option Int) (tags : List String) (drawn : Int) :
    cache.set ks key encoded ttlSeconds tags drawn =
      match cache.prepare codec key value ttlSeconds tags drawn with
      | .error error => (ks, .error error)
      | .ok pipe => execute ks pipe := by
  rw [Cache.set, Cache.prepare, hencoded]
  rfl

/-- The pipeline of a `set` that is sent. -/
theorem Cache.prepare_ok {cache : Cache} {codec : Codec Value} {key : String} {value : Value}
    {ttlSeconds : Option Int} {tags : List String} {drawn : Int} {pipe : List Command}
    (h : cache.prepare codec key value ttlSeconds tags drawn = .ok pipe) :
    ∃ (ttl : Nat) (encoded : String) (tagKeys : List String), codec.dumps value = .ok encoded ∧
      tags.mapM cache.tagKey = .ok tagKeys ∧ pipe = setPipeline key encoded ttl tagKeys := by
  obtain ⟨ttl, -, h⟩ := bind_eq_ok.mp h
  obtain ⟨encoded, hencoded, h⟩ := bind_eq_ok.mp h
  obtain ⟨tagKeys, htags, h⟩ := bind_eq_ok.mp h
  exact ⟨ttl.toNat, encoded, tagKeys, hencoded, htags, (Except.ok.inj h).symm⟩

theorem getCommand_absent {ks : Server} {key : String} (h : ks.live key = none) :
    getCommand ks key = .ok none := by
  rw [getCommand, h]

theorem getCommand_text {ks : Server} {key encoded : String}
    (h : ks.get key = some (.text encoded)) : getCommand ks key = .ok (some encoded) := by
  obtain ⟨expireAt, hlive⟩ := Keyspace.get_eq_some.mp h
  rw [getCommand, hlive]

theorem lookup_absent {codec : Codec Value} {ks : Server} {key : String}
    (h : ks.live key = none) : lookup codec ks key = .ok none := by
  rw [lookup, getCommand_absent h]
  rfl

/-- A lookup of a key that holds a text decodes it. -/
theorem lookup_text {codec : Codec Value} {ks : Server} {key encoded : String}
    (h : ks.get key = some (.text encoded)) :
    lookup codec ks key = (codec.loads encoded).map some := by
  rw [lookup, getCommand_text h, ok_bind]
  show (codec.loads encoded >>= fun value => pure (some value)) = _
  cases codec.loads encoded with
  | error error => rfl
  | ok value => rfl

theorem setNxCommand_absent {ks : Server} {key : String} (h : ks.live key = none) (token : String)
    (ttlMs : Nat) :
    setNxCommand ks key token ttlMs = (ks.setPx key (.text token) ttlMs, true) := by
  rw [setNxCommand, h]

theorem setNxCommand_present {ks : Server} {key : String} {entry : Entry Content}
    (h : ks.live key = some entry) (token : String) (ttlMs : Nat) :
    setNxCommand ks key token ttlMs = (ks, false) := by
  rw [setNxCommand, h]

theorem live_setNxCommand_other {ks after : Server} {key token other : String} {ttlMs : Nat}
    {acquired : Bool} (h : setNxCommand ks key token ttlMs = (after, acquired))
    (hother : other ≠ key) : after.live other = ks.live other := by
  cases hlive : ks.live key with
  | none =>
      rw [setNxCommand_absent hlive] at h
      cases h
      exact Keyspace.live_setPx_other _ _ _ hother
  | some entry =>
      rw [setNxCommand_present hlive] at h
      cases h
      rfl

/-- The release script deletes the token it is given and nothing else. -/
theorem releaseCommand_own {ks : Server} {key token : String}
    (h : ks.get key = some (.text token)) : releaseCommand ks key token = (ks.del key, .ok 1) := by
  obtain ⟨expireAt, hlive⟩ := Keyspace.get_eq_some.mp h
  rw [releaseCommand, getCommand, hlive]
  exact if_pos rfl

theorem releaseCommand_other {ks : Server} {key token : String}
    (h : ks.get key ≠ some (.text token)) : (releaseCommand ks key token).1 = ks := by
  cases hlive : ks.live key with
  | none => simp [releaseCommand, getCommand, hlive]
  | some entry =>
      obtain ⟨content, expireAt⟩ := entry
      cases content with
      | members keys => simp [releaseCommand, getCommand, hlive]
      | text held =>
          have hne : held ≠ token := by
            intro heq
            exact h (Keyspace.get_eq_some.mpr ⟨expireAt, by rw [hlive, heq]⟩)
          simp [releaseCommand, getCommand, hlive, hne]

theorem live_releaseCommand_other (ks : Server) {key other : String} (token : String)
    (hother : other ≠ key) : (releaseCommand ks key token).1.live other = ks.live other := by
  by_cases hheld : ks.get key = some (.text token)
  · rw [releaseCommand_own hheld, Keyspace.live_del, if_neg hother]
  · rw [releaseCommand_other hheld]

/-! ### Pipelines and texts -/

/-- A command of a pipeline other than its `SET`. -/
def Command.IsForTag : Command → Prop
  | .set _ _ _ => False
  | _ => True

/-- A command for a tag set leaves every text as it is. -/
theorem get_tagCommand {ks : Server} {key encoded : String} {command : Command}
    (hcommand : command.IsForTag) (h : ks.get key = some (.text encoded)) :
    (command.run ks).1.get key = some (.text encoded) := by
  cases command with
  | set key' encoded' ex => exact absurd hcommand id
  | sadd tagKey member =>
      obtain ⟨expireAt, hlive⟩ := Keyspace.get_eq_some.mp h
      by_cases hkey : key = tagKey
      · subst hkey
        simpa [Command.run, hlive] using h
      · have hother : (ks.upsert tagKey (.members [member]) (addMember member)).get key =
            some (.text encoded) := by
          rw [Keyspace.get, Keyspace.live_upsert_other _ _ _ hkey, hlive]
          rfl
        unfold Command.run
        dsimp only
        split
        · exact h
        · exact hother
  | expireNx tagKey seconds => exact (Keyspace.get_expireNx ks tagKey key seconds).trans h
  | expireGt tagKey seconds => exact (Keyspace.get_expireGt ks tagKey key seconds).trans h

/-- The only error a command replies with is the one for a key of the other type. -/
theorem Command.run_error {ks : Server} {command : Command} {error : PyError}
    (h : (command.run ks).2 = some error) : error = wrongType := by
  cases command with
  | set key encoded ex => cases h
  | sadd tagKey member =>
      unfold Command.run at h
      dsimp only at h
      split at h
      · exact (Option.some.inj h).symm
      · cases h
  | expireNx tagKey seconds => cases h
  | expireGt tagKey seconds => cases h

theorem get_execute {key encoded : String} : ∀ {pipe : List Command},
    (∀ command ∈ pipe, command.IsForTag) → ∀ {ks : Server}, ks.get key = some (.text encoded) →
      (execute ks pipe).1.get key = some (.text encoded)
  | [], _, _, h => h
  | command :: _, hpipe, _, h =>
      get_execute (fun other hother => hpipe other (List.mem_cons_of_mem _ hother))
        (get_tagCommand (hpipe command List.mem_cons_self) h)

theorem execute_error : ∀ {pipe : List Command} {ks : Server} {error : PyError},
    (execute ks pipe).2 = .error error → error = wrongType
  | command :: pipe, ks, error, h => by
      rw [execute] at h
      dsimp only at h
      split at h
      · exact execute_error h
      · next error' herror =>
          cases h
          exact Command.run_error herror

theorem tagCommands_isForTag (key : String) (ttl : Nat) (tagKeys : List String) :
    ∀ command ∈ tagKeys.flatMap (tagCommands key ttl), command.IsForTag := by
  intro command hcommand
  obtain ⟨tagKey, -, hmem⟩ := List.mem_flatMap.mp hcommand
  simp only [tagCommands, List.mem_cons, List.not_mem_nil, or_false] at hmem
  rcases hmem with rfl | rfl | rfl
  · trivial
  · trivial
  · trivial

/-- The pipeline of `set` leaves the value under the key, and every other text as it is. -/
theorem get_setPipeline {ks server : Server} {key encoded : String} {ttl : Nat}
    {tagKeys : List String} {outcome : Except PyError Unit}
    (h : execute ks (setPipeline key encoded ttl tagKeys) = (server, outcome)) :
    server.get key = some (.text encoded) ∧
      (∀ other text, other ≠ key → ks.get other = some (.text text) →
        server.get other = some (.text text)) ∧
      ∀ error, outcome = .error error → error = wrongType := by
  have htags := tagCommands_isForTag key ttl tagKeys
  have hserver : (execute (ks.setEx key (.text encoded) ttl)
      (tagKeys.flatMap (tagCommands key ttl))).1 = server := congrArg Prod.fst h
  refine ⟨?_, ?_, ?_⟩
  · rw [← hserver]
    exact get_execute htags
      (Keyspace.get_eq_some.mpr ⟨_, Keyspace.live_setEx_self ks key _ ttl⟩)
  · intro other text hother htext
    rw [← hserver]
    refine get_execute htags ?_
    rw [Keyspace.get, Keyspace.live_setEx_other _ _ _ hother]
    exact htext
  · rintro error rfl
    exact execute_error (congrArg Prod.snd h)

/-! ## What a call loaded and stored -/

/-- What the history records of a call after its second lookup. -/
inductive Record (Value : Type) where
  | loaded (outcome : Except PyError Value)
  | refused (error : PyError)
  | stored (value : Value) (outcome : Except PyError Unit)

/-- The event is a pipeline of a `set`. -/
def Event.isStore : Event ι Value → Bool
  | .store _ _ _ _ _ => true
  | _ => false

/-- What an event records of a call. -/
def Event.record (i : ι) : Event ι Value → Option (Record Value)
  | .load j outcome => if j = i then some (.loaded outcome) else none
  | .refuse (some j) error => if j = i then some (.refused error) else none
  | .store (some j) _ value _ outcome => if j = i then some (.stored value outcome) else none
  | _ => none

/-- The call that an event records something of. -/
def Event.recorded : Event ι Value → Option ι
  | .load i _ => some i
  | .refuse i _ => i
  | .store i _ _ _ _ => i
  | _ => none

/-- What the history records of a call, newest first. -/
def records (i : ι) (h : List (Event ι Value)) : List (Record Value) := h.filterMap (Event.record i)

/-- An event that records something of one call records nothing of another. -/
theorem Event.record_other {event : Event ι Value} {i j : ι} (hevent : event.recorded = some i)
    (hne : j ≠ i) : event.record j = none := by
  unfold Event.recorded at hevent
  split at hevent
  · cases hevent
    exact if_neg (Ne.symm hne)
  · cases hevent
    exact if_neg (Ne.symm hne)
  · cases hevent
    exact if_neg (Ne.symm hne)
  · cases hevent

theorem records_other {i : ι} {event : Event ι Value} (hevent : event.record i = none)
    (h : List (Event ι Value)) : records i (event :: h) = records i h := by
  rw [records, List.filterMap_cons_none hevent, records]

theorem records_self {i : ι} {event : Event ι Value} {record : Record Value}
    (hevent : event.record i = some record) (h : List (Event ι Value)) :
    records i (event :: h) = record :: records i h := by
  rw [records, List.filterMap_cons_some hevent, records]

@[simp] theorem records_load (i : ι) (outcome : Except PyError Value)
    (h : List (Event ι Value)) :
    records i (.load i outcome :: h) = .loaded outcome :: records i h := by
  refine records_self ?_ h
  exact if_pos rfl

@[simp] theorem records_refuse (i : ι) (error : PyError) (h : List (Event ι Value)) :
    records i (.refuse (some i) error :: h) = .refused error :: records i h := by
  refine records_self ?_ h
  exact if_pos rfl

@[simp] theorem records_store (i : ι) (key : String) (value : Value) (tags : List String)
    (outcome : Except PyError Unit) (h : List (Event ι Value)) :
    records i (.store (some i) key value tags outcome :: h) =
      .stored value outcome :: records i h := by
  refine records_self ?_ h
  exact if_pos rfl

theorem mem_records_load {i : ι} {h : List (Event ι Value)} {outcome : Except PyError Value} :
    Record.loaded outcome ∈ records i h ↔ Event.load i outcome ∈ h := by
  constructor
  · intro hmem
    obtain ⟨event, hevent, hrecord⟩ := List.mem_filterMap.mp hmem
    unfold Event.record at hrecord
    split at hrecord
    · split at hrecord
      · next j outcome' heq =>
          subst heq
          cases hrecord
          exact hevent
      · cases hrecord
    · split at hrecord
      · cases hrecord
      · cases hrecord
    · split at hrecord
      · cases hrecord
      · cases hrecord
    · cases hrecord
  · intro hmem
    exact List.mem_filterMap.mpr ⟨_, hmem, if_pos rfl⟩

theorem mem_records_store {i : ι} {h : List (Event ι Value)} {value : Value}
    {outcome : Except PyError Unit} :
    Record.stored value outcome ∈ records i h ↔
      ∃ key tags, Event.store (some i) key value tags outcome ∈ h := by
  constructor
  · intro hmem
    obtain ⟨event, hevent, hrecord⟩ := List.mem_filterMap.mp hmem
    unfold Event.record at hrecord
    split at hrecord
    · split at hrecord
      · cases hrecord
      · cases hrecord
    · split at hrecord
      · cases hrecord
      · cases hrecord
    · split at hrecord
      · next j key value' tags outcome' heq =>
          subst heq
          cases hrecord
          exact ⟨key, tags, hevent⟩
      · cases hrecord
    · cases hrecord
  · rintro ⟨key, tags, hmem⟩
    exact List.mem_filterMap.mpr ⟨_, hmem, if_pos rfl⟩

theorem mem_records_refuse {i : ι} {h : List (Event ι Value)} {error : PyError} :
    Record.refused error ∈ records i h ↔ Event.refuse (some i) error ∈ h := by
  constructor
  · intro hmem
    obtain ⟨event, hevent, hrecord⟩ := List.mem_filterMap.mp hmem
    unfold Event.record at hrecord
    split at hrecord
    · split at hrecord
      · cases hrecord
      · cases hrecord
    · split at hrecord
      · next j error' heq =>
          subst heq
          cases hrecord
          exact hevent
      · cases hrecord
    · split at hrecord
      · cases hrecord
      · cases hrecord
    · cases hrecord
  · intro hmem
    exact List.mem_filterMap.mpr ⟨_, hmem, if_pos rfl⟩

/-! ### What a settled call has done -/

/-- How a call leaves the `with` block, with what the history records of it, newest first. -/
inductive Settled : List (Record Value) → Except PyError Value → Prop where
  /-- It ran no loader. -/
  | unloaded (outcome : Except PyError Value) : Settled [] outcome
  | raised (error : PyError) : Settled [.loaded (.error error)] (.error error)
  | refused (value : Value) (error : PyError) :
      Settled [.refused error, .loaded (.ok value)] (.error error)
  | stored (value : Value) : Settled [.stored value (.ok ()), .loaded (.ok value)] (.ok value)
  | storeRaised (value : Value) (error : PyError) :
      Settled [.stored value (.error error), .loaded (.ok value)] (.error error)

/-- What a call at a phase has loaded and stored. -/
def Recorded (h : List (Event ι Value)) (i : ι) : Phase Value → Prop
  | .storing value => records i h = [.loaded (.ok value)]
  | .leaving outcome => Settled (records i h) outcome
  -- The release may raise in place of the outcome.
  | .done outcome => Settled (records i h) outcome ∨ ∃ error, outcome = .error error
  | _ => records i h = []

theorem Recorded.cons {h : List (Event ι Value)} {i : ι} {phase : Phase Value}
    (hrecorded : Recorded h i phase) {event : Event ι Value} (hevent : event.record i = none) :
    Recorded (event :: h) i phase := by
  have hrecords := records_other hevent h
  cases phase with
  | leaving outcome =>
      show Settled (records i (event :: h)) outcome
      rw [hrecords]
      exact hrecorded
  | done outcome =>
      show Settled (records i (event :: h)) outcome ∨ ∃ error, outcome = .error error
      rw [hrecords]
      exact hrecorded
  | _ => exact hrecords.trans hrecorded

theorem Recorded.move {h : List (Event ι Value)} {s : CacheState ι Value}
    (hs : ∀ j, Recorded h j (s.phase j)) {event : Event ι Value} {i : ι}
    (hothers : ∀ j, j ≠ i → event.record j = none) {phase : Phase Value} (server : Server)
    (hphase : Recorded (event :: h) i phase) (j : ι) :
    Recorded (event :: h) j ((s.move server i phase).phase j) := by
  rw [CacheState.move_phase]
  split
  · next heq => rw [heq]; exact hphase
  · next hne => exact (hs j).cons (hothers j hne)

/-- In every run the phase of a call says what it has loaded and stored. -/
theorem reaches_recorded {cache : Cache} {codec : Codec Value} {calls : ι → GetOrSet}
    {start : Server} {h : List (Event ι Value)} {s : CacheState ι Value}
    (hr : (cacheCalls cache codec calls start).Reaches h s) : ∀ i, Recorded h i (s.phase i) := by
  refine hr.invariant (I := fun h s => ∀ i, Recorded h i (s.phase i)) ?_ ?_
  · rintro s ⟨-, hidle⟩ i
    rw [hidle i]
    rfl
  · intro h s event t _ hs hstep
    cases hstep with
    | look i clock hidle =>
        have hnone : records i h = [] := by
          have hrecorded := hs i
          rwa [hidle] at hrecorded
        refine Recorded.move hs (fun _ _ => rfl) _ ?_
        have hdone : ∀ outcome, Recorded (.look i (lookup codec s.server (calls i).key) :: h) i
            (.done outcome) := by
          intro outcome
          refine .inl ?_
          show Settled (records i h) outcome
          rw [hnone]
          exact .unloaded outcome
        unfold GetOrSet.afterLook
        split
        · exact hdone _
        · exact hdone _
        · split
          · exact hdone _
          · exact hnone
    | attempt i clock clock' hacquiring _ _ =>
        have hnone : records i h = [] := by
          have hrecorded := hs i
          rwa [hacquiring] at hrecorded
        refine Recorded.move hs (fun _ _ => rfl) _ ?_
        unfold afterAcquire
        split
        · exact hnone
        · exact .inr ⟨_, rfl⟩
        · exact hnone
    | recheck i hlocked =>
        have hnone : records i h = [] := by
          have hrecorded := hs i
          rwa [hlocked] at hrecorded
        refine Recorded.move hs (fun _ _ => rfl) _ ?_
        have hleaving : ∀ outcome, Recorded (.recheck i (lookup codec s.server (calls i).key) :: h)
            i (.leaving outcome) := by
          intro outcome
          show Settled (records i h) outcome
          rw [hnone]
          exact .unloaded outcome
        unfold afterRecheck
        split
        · exact hleaving _
        · exact hleaving _
        · exact hnone
    | load i outcome hloading =>
        have hnone : records i h = [] := by
          have hrecorded := hs i
          rwa [hloading] at hrecorded
        refine Recorded.move hs (fun _ hne => Event.record_other rfl hne) _ ?_
        have hloaded : records i (.load i outcome :: h) = [.loaded outcome] := by
          rw [records_load, hnone]
        cases outcome with
        | error error =>
            show Settled (records i (.load i (.error error) :: h)) (.error error)
            rw [hloaded]
            exact .raised error
        | ok value => exact hloaded
    | @refuse value error i drawn hstoring _ =>
        refine Recorded.move hs (fun _ hne => Event.record_other rfl hne) _ ?_
        have hloaded := hs i
        rw [hstoring] at hloaded
        show Settled (records i (.refuse (some i) error :: h)) (.error error)
        rw [records_refuse, show records i h = _ from hloaded]
        exact .refused value error
    | @store value pipe server outcome i drawn hstoring _ _ =>
        refine Recorded.move hs (fun _ hne => Event.record_other rfl hne) _ ?_
        have hloaded := hs i
        rw [hstoring] at hloaded
        cases outcome with
        | error error =>
            show Settled (records i (.store (some i) (calls i).key value (calls i).tags
              (.error error) :: h)) (.error error)
            rw [records_store, show records i h = _ from hloaded]
            exact .storeRaised value error
        | ok done =>
            show Settled (records i (.store (some i) (calls i).key value (calls i).tags
              (.ok done) :: h)) (.ok value)
            rw [records_store, show records i h = _ from hloaded]
            exact .stored value
    | @release outcome lock server reply i hleaving _ _ =>
        refine Recorded.move hs (fun _ _ => rfl) _ ?_
        have hsettled := hs i
        rw [hleaving] at hsettled
        cases reply with
        | error error => exact .inr ⟨error, rfl⟩
        | ok deleted => exact .inl hsettled
    | read key => exact fun i => (hs i).cons rfl
    | refuseSet => exact fun i => (hs i).cons rfl
    | set => exact fun i => (hs i).cons rfl
    | delete => exact fun i => (hs i).cons rfl
    | invalidateTag => exact fun i => (hs i).cons rfl
    | tick => exact fun i => (hs i).cons rfl

/-! ## A call that meets nobody -/

theorem CacheState.move_self (s : CacheState ι Value) (server : Server) (i : ι)
    (phase : Phase Value) : (s.move server i phase).phase i = phase :=
  if_pos rfl

@[simp] theorem CacheState.move_move (s : CacheState ι Value) (between server : Server) (i : ι)
    (phase phase' : Phase Value) :
    (s.move between i phase).move server i phase' = s.move server i phase' := by
  show CacheState.mk server _ = CacheState.mk server _
  congr 1
  funext j
  show (if j = i then phase' else if j = i then phase else s.phase j) = _
  split
  · rfl
  · rfl

/-- The key of a lock is not the key it guards. -/
theorem lockKeyOf_ne (key : String) : lockKeyOf key ≠ key := by
  intro heq
  have hlength := congrArg String.length heq
  rw [lockKeyOf, String.length_append] at hlength
  have hsuffix : ":lock".length = 5 := rfl
  omega

/-- The lock of a call whose arguments are accepted. -/
theorem GetOrSet.lock_make {call : GetOrSet} (httl : 0 < call.lockTtlMs)
    (hwait : 0 ≤ call.lockWaitSeconds) :
    ∃ lock, call.lock = .ok lock ∧ lock.key = call.lockKey ∧ lock.token = call.token ∧
      lock.ttlMs = call.lockTtlMs := by
  have hwaits : 0 ≤ call.lockWaitSeconds ∧ (0 : Rat) < 1 / 20 := ⟨hwait, by norm_num⟩
  refine ⟨⟨call.lockKey, call.lockTtlMs, call.lockWaitSeconds, 1 / 20, true, call.token, httl,
    hwaits⟩, ?_, rfl, rfl, rfl⟩
  rw [GetOrSet.lock, RedisLock.make, dif_pos httl, dif_pos hwaits]

section
variable {cache : Cache} {codec : Codec Value} {calls : ι → GetOrSet} {start : Server}
  {h : List (Event ι Value)} {s : CacheState ι Value} {i : ι}

/-- A call that finds neither its key nor its lock gets to its loader. -/
theorem reaches_loading (hr : (cacheCalls cache codec calls start).Reaches h s)
    (hidle : s.phase i = .idle) (httl : 0 < (calls i).lockTtlMs)
    (hwait : 0 ≤ (calls i).lockWaitSeconds) (habsent : s.server.live (calls i).key = none)
    (hfree : s.server.live (calls i).lockKey = none) :
    (cacheCalls cache codec calls start).Reaches
      (.recheck i (.ok none) :: .attempt i true :: .look i (.ok none) :: h)
      (s.move (s.server.setPx (calls i).lockKey (.text (calls i).token) (calls i).lockTtlMs.toNat) i
        .loading) := by
  obtain ⟨lock, hlock, hlockKey, htoken, hlockTtl⟩ := GetOrSet.lock_make httl hwait
  rw [← hlockKey, ← htoken, ← hlockTtl]
  rw [← hlockKey] at hfree
  have hother : (calls i).key ≠ lock.key := by
    rw [hlockKey]
    exact (lockKeyOf_ne _).symm
  have hlooked := hr.step (.look i 0 hidle)
  rw [lookup_absent habsent] at hlooked
  have hwaits : (calls i).afterLook 0 (.ok (none : Option Value)) = .acquiring 0 := by
    rw [GetOrSet.afterLook, hlock]
  rw [hwaits] at hlooked
  have hacquired := hlooked.step
    (.attempt i 0 0 (CacheState.move_self _ _ _ _) hlock (setNxCommand_absent hfree _ _))
  have hlocked : (afterAcquire lock true 0 0 : Phase Value) = .locked := rfl
  rw [hlocked, CacheState.move_move] at hacquired
  have hrechecked := hacquired.step (.recheck i (CacheState.move_self _ _ _ _))
  rw [lookup_absent (by
      rw [CacheState.move_server, Keyspace.live_setPx_other _ _ _ hother, habsent]),
    CacheState.move_move] at hrechecked
  exact hrechecked

/-- A call whose loader returns stores the value. -/
theorem reaches_stored (hr : (cacheCalls cache codec calls start).Reaches h s)
    (hloading : s.phase i = .loading) (value : Value) {drawn : Int} {pipe : List Command}
    (hprepare : cache.prepare codec (calls i).key value (calls i).ttlSeconds (calls i).tags drawn =
      .ok pipe) {server : Server} {outcome : Except PyError Unit}
    (hexecute : execute s.server pipe = (server, outcome)) :
    (cacheCalls cache codec calls start).Reaches
      (.store (some i) (calls i).key value (calls i).tags outcome :: .load i (.ok value) :: h)
      (s.move server i (afterStore value outcome)) := by
  have hloaded := hr.step (.load i (.ok value) hloading)
  have hstored := hloaded.step
    (.store i drawn (CacheState.move_self _ _ _ _) hprepare hexecute)
  rw [CacheState.move_move] at hstored
  exact hstored

/-- A call whose value is refused leaves the key as it is. -/
theorem reaches_refused (hr : (cacheCalls cache codec calls start).Reaches h s)
    (hloading : s.phase i = .loading) (value : Value) {drawn : Int} {error : PyError}
    (hprepare : cache.prepare codec (calls i).key value (calls i).ttlSeconds (calls i).tags drawn =
      .error error) :
    (cacheCalls cache codec calls start).Reaches
      (.refuse (some i) error :: .load i (.ok value) :: h)
      (s.move s.server i (.leaving (.error error))) := by
  have hloaded := hr.step (.load i (.ok value) hloading)
  have hrefused := hloaded.step (.refuse i drawn (CacheState.move_self _ _ _ _) hprepare)
  rw [CacheState.move_move] at hrefused
  exact hrefused

/-- A call that still holds its lock frees it. -/
theorem reaches_released (hr : (cacheCalls cache codec calls start).Reaches h s)
    {outcome : Except PyError Value} (hleaving : s.phase i = .leaving outcome)
    (httl : 0 < (calls i).lockTtlMs) (hwait : 0 ≤ (calls i).lockWaitSeconds)
    (hheld : s.server.get (calls i).lockKey = some (.text (calls i).token)) :
    (cacheCalls cache codec calls start).Reaches (.release i :: h)
      (s.move (s.server.del (calls i).lockKey) i (.done outcome)) := by
  obtain ⟨lock, hlock, hlockKey, htoken, -⟩ := GetOrSet.lock_make httl hwait
  rw [← hlockKey, ← htoken] at hheld
  rw [← hlockKey]
  exact hr.step (.release i hleaving hlock (releaseCommand_own hheld))

end

/-- A codec of texts. -/
def textCodec : Codec String where
  dumps := .ok
  loads := .ok

end ProdkitStorage.Redis

import ProdkitStorage.Redis.GetOrSet
import ProdkitStorage.Redis.Tags

/-!
# Stampede protection

Calls of `get_or_set` on one key, any number of them, in any order of their steps.
`Calm` is what the calls rely on: no lease runs out while its holder is inside the
`with` block, and the cached key is not expired, deleted or replaced from outside.

`Guarded` ties the state to the history.  The key of the lock stores the token of the
call inside, so only one call is inside; while a call loads or holds a loaded value the
key is absent, since the second lookup found it so and nobody else may store; and once
a value is stored no lookup misses again.  `Agrees` says what a call at each phase has
loaded and stored.
-/

namespace ProdkitStorage.Redis

open ProdkitStorage.Foundation (Keyspace Entry System)
open ProdkitStorage.Python
open Lock (RedisLock)

variable {Value ι : Type}

section
variable [DecidableEq ι]

/-! ## The condition -/

/-- No lease runs out under its holder, and the cached key is left to the calls. -/
def Calm (key : String) (s : CacheState ι Value) : Event ι Value → Prop
  | .store none _ _ _ _ => False
  | .delete _ => False
  | .invalidateTag _ _ => False
  | .tick elapsed =>
      (∀ i, (s.phase i).Inside → (s.server.tick elapsed).live (lockKeyOf key) ≠ none) ∧
        (s.server.live key ≠ none → (s.server.tick elapsed).live key ≠ none)
  | _ => True

/-! ## The invariant -/

section
variable (codec : Codec Value) (calls : ι → GetOrSet) (key : String) (start : Server)

/-- Where the text under the key comes from: it was there at the start, or a call stored what its
loader returned. -/
def Origin (h : List (Event ι Value)) (encoded : String) : Prop :=
  start.get key = some (.text encoded) ∨
    ∃ i value outcome, Event.store (some i) key value (calls i).tags outcome ∈ h ∧
      Event.load i (.ok value) ∈ h ∧ codec.dumps value = .ok encoded

/-- How a call ends, with what the history records of it. -/
inductive Ends (h : List (Event ι Value)) (i : ι) :
    List (Record Value) → Except PyError Value → Prop where
  /-- It found the key. -/
  | hit {encoded : String} {outcome : Except PyError Value} :
      Origin codec calls key start h encoded → codec.loads encoded = outcome → Ends h i [] outcome
  | notAcquired :
      Ends h i []
        (.error (.lockNotAcquiredError ("could not acquire Redis lock " ++ lockKeyOf key)))
  /-- The arguments of the lock are refused. -/
  | noLock {error : PyError} : (calls i).lock = .error error → Ends h i [] (.error error)
  /-- The loader raised. -/
  | raised (error : PyError) : Ends h i [.loaded (.error error)] (.error error)
  /-- `set` refused the value. -/
  | refused (value : Value) (error : PyError) :
      Ends h i [.refused error, .loaded (.ok value)] (.error error)
  | stored (value : Value) : Ends h i [.stored value (.ok ()), .loaded (.ok value)] (.ok value)
  /-- The value is stored, but a tag of the call names a key that holds a text. -/
  | tagged (value : Value) :
      Ends h i [.stored value (.error wrongType), .loaded (.ok value)] (.error wrongType)

/-- What a call at a phase has loaded and stored. -/
def Agrees (h : List (Event ι Value)) (i : ι) : Phase Value → Prop
  | .storing value => records i h = [.loaded (.ok value)]
  | .leaving outcome => Ends codec calls key start h i (records i h) outcome
  | .done outcome => Ends codec calls key start h i (records i h) outcome
  | _ => records i h = []

/-- The call is in its loader, or has a loaded value to store. -/
def Phase.Working : Phase Value → Prop
  | .loading => True
  | .storing _ => True
  | _ => False

/-- A call that works is inside. -/
theorem Phase.Working.inside {phase : Phase Value} (hworking : phase.Working) : phase.Inside := by
  cases phase with
  | loading => trivial
  | storing value => trivial
  | _ => exact False.elim hworking

/-- The state agrees with the history. -/
structure Guarded (h : List (Event ι Value)) (s : CacheState ι Value) : Prop where
  inside : ∀ i, (s.phase i).Inside →
    s.server.get (lockKeyOf key) = some (.text (calls i).token)
  held : ∀ entry, s.server.live (lockKeyOf key) = some entry → ∃ i, (s.phase i).Inside
  working : ∀ i, (s.phase i).Working → s.server.live key = none
  cached : ∀ entry, s.server.live key = some entry →
    ∃ encoded, entry.value = .text encoded ∧ Origin codec calls key start h encoded
  unstored : s.server.live key = none → h.countP Event.isStore = 0
  storedOnce : h.countP Event.isStore ≤ 1
  agrees : ∀ i, Agrees codec calls key start h i (s.phase i)

end

variable {codec : Codec Value} {calls : ι → GetOrSet} {key : String} {start : Server}

/-! ## What the history keeps -/

omit [DecidableEq ι] in
theorem Origin.cons {h : List (Event ι Value)} {encoded : String}
    (horigin : Origin codec calls key start h encoded) (event : Event ι Value) :
    Origin codec calls key start (event :: h) encoded := by
  refine horigin.imp_right ?_
  rintro ⟨i, value, outcome, hstore, hload, hdumps⟩
  exact ⟨i, value, outcome, List.mem_cons_of_mem _ hstore, List.mem_cons_of_mem _ hload, hdumps⟩

omit [DecidableEq ι] in
theorem Ends.cons {h : List (Event ι Value)} {i : ι} {record : List (Record Value)}
    {outcome : Except PyError Value} (hends : Ends codec calls key start h i record outcome)
    (event : Event ι Value) : Ends codec calls key start (event :: h) i record outcome := by
  cases hends with
  | hit horigin hloads => exact .hit (horigin.cons event) hloads
  | notAcquired => exact .notAcquired
  | noLock hlock => exact .noLock hlock
  | raised error => exact .raised error
  | refused value error => exact .refused value error
  | stored value => exact .stored value
  | tagged value => exact .tagged value

/-- An event about another call leaves a call in agreement. -/
theorem Agrees.cons {h : List (Event ι Value)} {i : ι} {phase : Phase Value}
    (hagrees : Agrees codec calls key start h i phase) {event : Event ι Value}
    (hevent : event.record i = none) : Agrees codec calls key start (event :: h) i phase := by
  have hrecords := records_other hevent h
  cases phase with
  | idle => exact hrecords.trans hagrees
  | acquiring start => exact hrecords.trans hagrees
  | locked => exact hrecords.trans hagrees
  | loading => exact hrecords.trans hagrees
  | storing value => exact hrecords.trans hagrees
  | leaving outcome =>
      show Ends _ _ _ _ _ _ (records i (event :: h)) outcome
      rw [hrecords]
      exact Ends.cons hagrees event
  | done outcome =>
      show Ends _ _ _ _ _ _ (records i (event :: h)) outcome
      rw [hrecords]
      exact Ends.cons hagrees event

/-- The other calls stay in agreement when one call moves on. -/
theorem Guarded.agrees_move {h : List (Event ι Value)} {s : CacheState ι Value}
    (hs : Guarded codec calls key start h s) {event : Event ι Value} {i : ι}
    (hothers : ∀ j, j ≠ i → event.record j = none) {phase : Phase Value} (server : Server)
    (hagrees : Agrees codec calls key start (event :: h) i phase) (j : ι) :
    Agrees codec calls key start (event :: h) j ((s.move server i phase).phase j) := by
  rw [CacheState.move_phase]
  split
  · next heq => rw [heq]; exact hagrees
  · next hne => exact (hs.agrees j).cons (hothers j hne)

/-- A call moves on and leaves the server as it is. -/
theorem Guarded.moves {h : List (Event ι Value)} {s : CacheState ι Value}
    (hs : Guarded codec calls key start h s) {event : Event ι Value} {i : ι} {phase : Phase Value}
    (hinside : phase.Inside ↔ (s.phase i).Inside)
    (hworking : phase.Working → s.server.live key = none) (hstore : event.isStore = false)
    (hothers : ∀ j, j ≠ i → event.record j = none)
    (hagrees : Agrees codec calls key start (event :: h) i phase) :
    Guarded codec calls key start (event :: h) (s.move s.server i phase) where
  inside j hj := by
    rw [CacheState.move_phase] at hj
    split at hj
    · next heq => rw [heq]; exact hs.inside i (hinside.mp hj)
    · exact hs.inside j hj
  held entry hlive := by
    obtain ⟨j, hj⟩ := hs.held entry hlive
    refine ⟨j, ?_⟩
    rw [CacheState.move_phase]
    split
    · next heq => rw [heq] at hj; exact hinside.mpr hj
    · exact hj
  working j hj := by
    rw [CacheState.move_phase] at hj
    split at hj
    · exact hworking hj
    · exact hs.working j hj
  cached entry hlive := by
    obtain ⟨encoded, hvalue, horigin⟩ := hs.cached entry hlive
    exact ⟨encoded, hvalue, horigin.cons event⟩
  unstored hlive := by
    rw [List.countP_cons_of_neg (by simp [hstore])]
    exact hs.unstored hlive
  storedOnce := by
    rw [List.countP_cons_of_neg (by simp [hstore])]
    exact hs.storedOnce
  agrees := hs.agrees_move hothers s.server hagrees

/-- A lookup finds nothing, or what the text under the key decodes to. -/
theorem Guarded.lookup_cases {h : List (Event ι Value)} {s : CacheState ι Value}
    (hs : Guarded codec calls key start h s) :
    (s.server.live key = none ∧ lookup codec s.server key = .ok none) ∨
      ∃ encoded, Origin codec calls key start h encoded ∧
        lookup codec s.server key = (codec.loads encoded).map some := by
  cases hlive : s.server.live key with
  | none => exact .inl ⟨rfl, lookup_absent hlive⟩
  | some entry =>
      obtain ⟨encoded, hvalue, horigin⟩ := hs.cached entry hlive
      refine .inr ⟨encoded, horigin, lookup_text ?_⟩
      rw [Keyspace.get, hlive, ← hvalue]
      rfl

/-! ## One step -/

theorem afterLook_hit (call : GetOrSet) (clock : Rat) (outcome : Except PyError Value) :
    call.afterLook clock (outcome.map some) = .done outcome := by
  cases outcome with
  | error error => rfl
  | ok value => rfl

theorem afterRecheck_hit (outcome : Except PyError Value) :
    afterRecheck (outcome.map some) = .leaving outcome := by
  cases outcome with
  | error error => rfl
  | ok value => rfl

variable {s : CacheState ι Value} {h : List (Event ι Value)}

theorem look_guarded (hs : Guarded codec calls key start h s) {i : ι}
    (hkey : (calls i).key = key) (hidle : s.phase i = .idle) (clock : Rat) :
    Guarded codec calls key start (.look i (lookup codec s.server (calls i).key) :: h)
      (s.move s.server i ((calls i).afterLook clock (lookup codec s.server (calls i).key))) := by
  have hnone : records i h = [] := by
    have hagrees := hs.agrees i
    rwa [hidle] at hagrees
  have hmoves : ∀ phase : Phase Value, ¬phase.Inside → ¬phase.Working →
      Agrees codec calls key start (.look i (lookup codec s.server (calls i).key) :: h) i phase →
      Guarded codec calls key start (.look i (lookup codec s.server (calls i).key) :: h)
        (s.move s.server i phase) := by
    intro phase houtside hresting hagrees
    refine hs.moves ?_ (fun hworking => absurd hworking hresting) rfl (fun _ _ => rfl) hagrees
    rw [hidle]
    exact ⟨fun hinside => houtside hinside, False.elim⟩
  have hends : ∀ outcome, Ends codec calls key start
      (.look i (lookup codec s.server (calls i).key) :: h) i [] outcome →
      Agrees codec calls key start (.look i (lookup codec s.server (calls i).key) :: h) i
        (.done outcome) := by
    intro outcome hends
    show Ends _ _ _ _ _ i (records i h) outcome
    rwa [hnone]
  rcases hs.lookup_cases with ⟨-, hfound⟩ | ⟨encoded, horigin, hfound⟩
  · rw [← hkey] at hfound
    rw [show (calls i).afterLook clock (lookup codec s.server (calls i).key) = _ from
      congrArg _ hfound, GetOrSet.afterLook]
    cases hlock : (calls i).lock with
    | error error => exact hmoves _ id id (hends _ (.noLock hlock))
    | ok lock => exact hmoves _ id id hnone
  · rw [← hkey] at hfound
    rw [show (calls i).afterLook clock (lookup codec s.server (calls i).key) = _ from
      congrArg _ hfound, afterLook_hit]
    exact hmoves _ id id (hends _ (.hit (horigin.cons _) rfl))

theorem recheck_guarded (hs : Guarded codec calls key start h s) {i : ι}
    (hkey : (calls i).key = key) (hlocked : s.phase i = .locked) :
    Guarded codec calls key start (.recheck i (lookup codec s.server (calls i).key) :: h)
      (s.move s.server i (afterRecheck (lookup codec s.server (calls i).key))) := by
  have hnone : records i h = [] := by
    have hagrees := hs.agrees i
    rwa [hlocked] at hagrees
  have hinside : (s.phase i).Inside := by
    rw [hlocked]
    trivial
  rcases hs.lookup_cases with ⟨habsent, hfound⟩ | ⟨encoded, horigin, hfound⟩
  · rw [← hkey] at hfound
    rw [show afterRecheck (lookup codec s.server (calls i).key) = _ from congrArg _ hfound]
    exact hs.moves ⟨fun _ => hinside, fun _ => trivial⟩ (fun _ => habsent) rfl (fun _ _ => rfl)
      hnone
  · rw [← hkey] at hfound
    rw [show afterRecheck (lookup codec s.server (calls i).key) = _ from congrArg _ hfound,
      afterRecheck_hit]
    refine hs.moves ⟨fun _ => hinside, fun _ => trivial⟩ False.elim rfl (fun _ _ => rfl) ?_
    show Ends _ _ _ _ _ i (records i h) _
    rw [hnone]
    exact .hit (horigin.cons _) rfl

theorem load_guarded (hs : Guarded codec calls key start h s) {i : ι}
    (hloading : s.phase i = .loading) (outcome : Except PyError Value) :
    Guarded codec calls key start (.load i outcome :: h)
      (s.move s.server i (afterLoad outcome)) := by
  have hrecords : records i (.load i outcome :: h) = [.loaded outcome] := by
    have hagrees := hs.agrees i
    rw [hloading] at hagrees
    rw [records_load, show records i h = [] from hagrees]
  have hinside : (s.phase i).Inside := by
    rw [hloading]
    trivial
  have habsent : s.server.live key = none := by
    refine hs.working i ?_
    rw [hloading]
    trivial
  have hothers : ∀ j, j ≠ i → (Event.load i outcome).record j = none :=
    fun _ hne => Event.record_other rfl hne
  cases outcome with
  | error error =>
      refine hs.moves ⟨fun _ => hinside, fun _ => trivial⟩ False.elim rfl hothers ?_
      show Ends _ _ _ _ _ i (records i _) _
      rw [hrecords]
      exact .raised error
  | ok value =>
      exact hs.moves ⟨fun _ => hinside, fun _ => trivial⟩ (fun _ => habsent) rfl hothers hrecords

theorem refuse_guarded (hs : Guarded codec calls key start h s) {i : ι} {value : Value}
    (hstoring : s.phase i = .storing value) (error : PyError) :
    Guarded codec calls key start (.refuse (some i) error :: h)
      (s.move s.server i (.leaving (.error error))) := by
  have hinside : (s.phase i).Inside := by
    rw [hstoring]
    trivial
  refine hs.moves ⟨fun _ => hinside, fun _ => trivial⟩ False.elim rfl
    (fun _ hne => Event.record_other rfl hne) ?_
  have hagrees := hs.agrees i
  rw [hstoring] at hagrees
  show Ends _ _ _ _ _ i (records i _) _
  rw [records_refuse, show records i h = _ from hagrees]
  exact .refused value error

/-- Steps that move no call and touch nothing the calls look at. -/
theorem Guarded.idles (hs : Guarded codec calls key start h s) {event : Event ι Value}
    (hstore : event.isStore = false) (hevent : ∀ i, event.record i = none) :
    Guarded codec calls key start (event :: h) s where
  inside := hs.inside
  held := hs.held
  working := hs.working
  cached entry hlive := by
    obtain ⟨encoded, hvalue, horigin⟩ := hs.cached entry hlive
    exact ⟨encoded, hvalue, horigin.cons event⟩
  unstored hlive := by
    rw [List.countP_cons_of_neg (by simp [hstore])]
    exact hs.unstored hlive
  storedOnce := by
    rw [List.countP_cons_of_neg (by simp [hstore])]
    exact hs.storedOnce
  agrees i := (hs.agrees i).cons (hevent i)

/-- The call inside is the only one. -/
theorem Guarded.alone (hs : Guarded codec calls key start h s)
    (htokens : Function.Injective fun i => (calls i).token) {i j : ι} (hi : (s.phase i).Inside)
    (hj : (s.phase j).Inside) : i = j := by
  have heq := (hs.inside i hi).symm.trans (hs.inside j hj)
  rw [Option.some.injEq, Content.text.injEq] at heq
  exact htokens heq

theorem attempt_guarded (hs : Guarded codec calls key start h s) {i : ι}
    (hkey : (calls i).key = key) {clock clock' : Rat} (hacquiring : s.phase i = .acquiring clock)
    {lock : RedisLock} (hlock : (calls i).lock = .ok lock) {server : Server} {acquired : Bool}
    (hset : setNxCommand s.server lock.key lock.token lock.ttlMs.toNat = (server, acquired)) :
    Guarded codec calls key start (.attempt i acquired :: h)
      (s.move server i (afterAcquire lock acquired clock clock')) := by
  obtain ⟨hlockKey, htoken, hrequired⟩ := GetOrSet.lock_ok hlock
  have hlockKey' : lock.key = lockKeyOf key := by
    rw [hlockKey, GetOrSet.lockKey, hkey]
  have hnone : records i h = [] := by
    have hagrees := hs.agrees i
    rwa [hacquiring] at hagrees
  cases hlive : s.server.live (lockKeyOf key) with
  | some entry =>
      rw [← hlockKey'] at hlive
      rw [setNxCommand_present hlive, Prod.mk.injEq] at hset
      obtain ⟨rfl, rfl⟩ := hset
      have hmoves : ∀ phase : Phase Value, ¬phase.Inside → ¬phase.Working →
          Agrees codec calls key start (.attempt i false :: h) i phase →
          Guarded codec calls key start (.attempt i false :: h) (s.move s.server i phase) := by
        intro phase houtside hresting hagrees
        refine hs.moves ?_ (fun hworking => absurd hworking hresting) rfl (fun _ _ => rfl) hagrees
        rw [hacquiring]
        exact ⟨fun hinside => houtside hinside, False.elim⟩
      unfold afterAcquire RedisLock.afterAttempt
      rw [if_neg (by simp), hrequired, if_pos rfl, hlockKey']
      by_cases hdeadline : lock.deadline clock ≤ clock'
      · rw [if_pos hdeadline]
        refine hmoves _ id id ?_
        show Ends _ _ _ _ _ i (records i h) _
        rw [hnone]
        exact .notAcquired
      · rw [if_neg hdeadline]
        exact hmoves _ id id hnone
  | none =>
      have houtside : ∀ j, ¬(s.phase j).Inside := by
        intro j hj
        have hget := hs.inside j hj
        rw [Keyspace.get, hlive] at hget
        cases hget
      rw [← hlockKey'] at hlive
      rw [setNxCommand_absent hlive, Prod.mk.injEq] at hset
      obtain ⟨rfl, rfl⟩ := hset
      rw [hlockKey', htoken]
      have hother : (s.server.setPx (lockKeyOf key) (.text (calls i).token) lock.ttlMs.toNat).live
          key = s.server.live key := Keyspace.live_setPx_other _ _ _ (lockKeyOf_ne key).symm
      show Guarded codec calls key start (.attempt i true :: h) (s.move _ i .locked)
      refine ⟨?_, ?_, ?_, ?_, ?_, ?_, ?_⟩
      · intro j hj
        rw [CacheState.move_phase] at hj
        split at hj
        · next heq =>
            rw [heq, CacheState.move_server, Keyspace.get, Keyspace.live_setPx_self]
            rfl
        · exact absurd hj (houtside j)
      · intro entry _
        refine ⟨i, ?_⟩
        rw [CacheState.move_phase, if_pos rfl]
        trivial
      · intro j hj
        rw [CacheState.move_phase] at hj
        rw [CacheState.move_server, hother]
        split at hj
        · exact False.elim hj
        · exact hs.working j hj
      · intro entry hentry
        rw [CacheState.move_server, hother] at hentry
        obtain ⟨encoded, hvalue, horigin⟩ := hs.cached entry hentry
        exact ⟨encoded, hvalue, horigin.cons _⟩
      · intro habsent
        rw [CacheState.move_server, hother] at habsent
        exact hs.unstored habsent
      · exact hs.storedOnce
      · exact hs.agrees_move (fun _ _ => rfl) _ hnone

theorem release_guarded (hs : Guarded codec calls key start h s)
    (htokens : Function.Injective fun i => (calls i).token) {i : ι} (hkey : (calls i).key = key)
    {outcome : Except PyError Value} (hleaving : s.phase i = .leaving outcome) {lock : RedisLock}
    (hlock : (calls i).lock = .ok lock) {server : Server} {reply : Except PyError Int}
    (hrelease : releaseCommand s.server lock.key lock.token = (server, reply)) :
    Guarded codec calls key start (.release i :: h)
      (s.move server i (afterRelease outcome reply)) := by
  obtain ⟨hlockKey, htoken, -⟩ := GetOrSet.lock_ok hlock
  have hinside : (s.phase i).Inside := by
    rw [hleaving]
    trivial
  have hheld := hs.inside i hinside
  rw [hlockKey, htoken, GetOrSet.lockKey, hkey, releaseCommand_own hheld, Prod.mk.injEq] at hrelease
  obtain ⟨rfl, rfl⟩ := hrelease
  have houtside : ∀ j, j ≠ i → ¬(s.phase j).Inside :=
    fun j hne hj => hne (hs.alone htokens hj hinside)
  have hother : (s.server.del (lockKeyOf key)).live key = s.server.live key := by
    rw [Keyspace.live_del, if_neg (lockKeyOf_ne key).symm]
  have hagrees : Agrees codec calls key start (.release i :: h) i (.done outcome) := by
    have hends := hs.agrees i
    rw [hleaving] at hends
    exact Ends.cons hends _
  refine ⟨?_, ?_, ?_, ?_, ?_, ?_, ?_⟩
  · intro j hj
    rw [CacheState.move_phase] at hj
    split at hj
    · exact False.elim hj
    · next hne => exact absurd hj (houtside j hne)
  · intro entry hlive
    rw [CacheState.move_server, Keyspace.live_del, if_pos rfl] at hlive
    cases hlive
  · intro j hj
    rw [CacheState.move_phase] at hj
    rw [CacheState.move_server, hother]
    split at hj
    · exact False.elim hj
    · exact hs.working j hj
  · intro entry hentry
    rw [CacheState.move_server, hother] at hentry
    obtain ⟨encoded, hvalue, horigin⟩ := hs.cached entry hentry
    exact ⟨encoded, hvalue, horigin.cons _⟩
  · intro habsent
    rw [CacheState.move_server, hother] at habsent
    exact hs.unstored habsent
  · exact hs.storedOnce
  · exact hs.agrees_move (fun _ _ => rfl) _ hagrees

theorem store_guarded (hs : Guarded codec calls key start h s)
    (htokens : Function.Injective fun i => (calls i).token) {cache : Cache} {i : ι}
    (hkey : (calls i).key = key) {value : Value} (hstoring : s.phase i = .storing value)
    {drawn : Int} {pipe : List Command}
    (hprepare : cache.prepare codec (calls i).key value (calls i).ttlSeconds (calls i).tags drawn =
      .ok pipe) {server : Server} {outcome : Except PyError Unit}
    (hexecute : execute s.server pipe = (server, outcome)) :
    Guarded codec calls key start (.store (some i) (calls i).key value (calls i).tags outcome :: h)
      (s.move server i (afterStore value outcome)) := by
  obtain ⟨ttl, encoded, tagKeys, hencoded, -, rfl⟩ := Cache.prepare_ok hprepare
  rw [hkey] at hexecute ⊢
  obtain ⟨hstored, hkept, herror⟩ := get_setPipeline hexecute
  have hinside : (s.phase i).Inside := by
    rw [hstoring]
    trivial
  have hloaded : records i h = [.loaded (.ok value)] := by
    have hagrees := hs.agrees i
    rwa [hstoring] at hagrees
  have habsent : s.server.live key = none := by
    refine hs.working i ?_
    rw [hstoring]
    trivial
  have halone : ∀ j, j ≠ i → ¬(s.phase j).Inside :=
    fun j hne hj => hne (hs.alone htokens hj hinside)
  have horigin : Origin codec calls key start
      (.store (some i) key value (calls i).tags outcome :: h) encoded := by
    refine .inr ⟨i, value, outcome, List.mem_cons_self, List.mem_cons_of_mem _ ?_, hencoded⟩
    rw [← mem_records_load, hloaded]
    exact List.mem_singleton_self _
  have hends : Ends codec calls key start (.store (some i) key value (calls i).tags outcome :: h) i
      (records i (.store (some i) key value (calls i).tags outcome :: h))
      (outcome.map fun _ => value) := by
    rw [records_store, hloaded]
    cases outcome with
    | ok done => exact .stored value
    | error error =>
        obtain rfl := herror error rfl
        exact .tagged value
  have hphase : afterStore value outcome = .leaving (outcome.map fun _ => value) := by
    cases outcome with
    | ok done => rfl
    | error error => rfl
  rw [hphase]
  refine ⟨?_, ?_, ?_, ?_, ?_, ?_, ?_⟩
  · intro j hj
    rw [CacheState.move_phase] at hj
    split at hj
    · next heq =>
        rw [heq]
        exact hkept _ _ (lockKeyOf_ne key) (hs.inside i hinside)
    · next hne => exact absurd hj (halone j hne)
  · intro entry _
    refine ⟨i, ?_⟩
    rw [CacheState.move_phase, if_pos rfl]
    trivial
  · intro j hj
    rw [CacheState.move_phase] at hj
    split at hj
    · exact False.elim hj
    · next hne => exact absurd hj.inside (halone j hne)
  · intro entry hlive
    obtain ⟨expireAt, hlive'⟩ := Keyspace.get_eq_some.mp hstored
    rw [CacheState.move_server, hlive'] at hlive
    obtain rfl := Option.some.inj hlive
    exact ⟨encoded, rfl, horigin⟩
  · intro hgone
    rw [CacheState.move_server, ← Keyspace.get_eq_none, hstored] at hgone
    cases hgone
  · rw [List.countP_cons_of_pos (by rfl), hs.unstored habsent]
  · exact hs.agrees_move (fun _ hne => Event.record_other rfl hne) _ hends

theorem tick_guarded (hs : Guarded codec calls key start h s) {elapsed : Nat}
    (hcalm : Calm key s (.tick elapsed : Event ι Value)) :
    Guarded codec calls key start (.tick elapsed :: h)
      { s with server := s.server.tick elapsed } := by
  obtain ⟨hlease, hcached⟩ := hcalm
  have hs' : Guarded codec calls key start (.tick elapsed :: h) s := hs.idles rfl fun _ => rfl
  have hstays : ∀ other, (s.server.tick elapsed).live other ≠ none →
      (s.server.tick elapsed).get other = s.server.get other := by
    intro other hthere
    cases hlive : (s.server.tick elapsed).live other with
    | none => exact absurd hlive hthere
    | some entry => rw [Keyspace.get, hlive, Keyspace.get, Keyspace.live_of_tick hlive]
  refine ⟨?_, ?_, ?_, ?_, ?_, hs'.storedOnce, hs'.agrees⟩
  · intro i hi
    rw [← hs'.inside i hi]
    exact hstays _ (hlease i hi)
  · intro entry hlive
    exact hs'.held entry (Keyspace.live_of_tick hlive)
  · intro i hi
    have habsent := hs'.working i hi
    cases hlive : (s.server.tick elapsed).live key with
    | none => rfl
    | some entry => rw [Keyspace.live_of_tick hlive] at habsent; cases habsent
  · intro entry hlive
    exact hs'.cached entry (Keyspace.live_of_tick hlive)
  · intro hgone
    refine hs'.unstored ?_
    by_contra hthere
    exact hcached hthere hgone

/-! ## Every run -/

theorem step_guarded {cache : Cache} (hkeys : ∀ i, (calls i).key = key)
    (htokens : Function.Injective fun i => (calls i).token)
    (hs : Guarded codec calls key start h s) {event : Event ι Value} {t : CacheState ι Value}
    (hstep : CacheStep cache codec calls s event t) (hcalm : Calm key s event) :
    Guarded codec calls key start (event :: h) t := by
  cases hstep with
  | look i clock hidle => exact look_guarded hs (hkeys i) hidle clock
  | attempt i clock clock' hacquiring hlock hset =>
      exact attempt_guarded hs (hkeys i) hacquiring hlock hset
  | recheck i hlocked => exact recheck_guarded hs (hkeys i) hlocked
  | load i outcome hloading => exact load_guarded hs hloading outcome
  | refuse i drawn hstoring hprepare => exact refuse_guarded hs hstoring _
  | store i drawn hstoring hprepare hexecute =>
      exact store_guarded hs htokens (hkeys i) hstoring hprepare hexecute
  | release i hleaving hlock hrelease =>
      exact release_guarded hs htokens (hkeys i) hleaving hlock hrelease
  | read key' => exact hs.idles rfl fun _ => rfl
  | refuseSet key' value ttlSeconds tags drawn hprepare => exact hs.idles rfl fun _ => rfl
  | set key' value ttlSeconds tags drawn hprepare hexecute => exact False.elim hcalm
  | delete keys => exact False.elim hcalm
  | invalidateTag tag hcall => exact False.elim hcalm
  | tick elapsed => exact tick_guarded hs hcalm

/-- The lock is free and the key holds no set. -/
structure Ready (key : String) (start : Server) : Prop where
  free : start.live (lockKeyOf key) = none
  text : ∀ entry, start.live key = some entry → ∃ encoded, entry.value = .text encoded

theorem reaches_guarded {cache : Cache} (hready : Ready key start)
    (hkeys : ∀ i, (calls i).key = key) (htokens : Function.Injective fun i => (calls i).token)
    (hr : ((cacheCalls cache codec calls start).under (Calm key)).Reaches h s) :
    Guarded codec calls key start h s := by
  refine hr.invariant (I := Guarded codec calls key start) ?_ ?_
  · rintro s ⟨rfl, hidle⟩
    refine ⟨?_, ?_, ?_, ?_, fun _ => rfl, Nat.zero_le _, ?_⟩
    · intro i hi
      rw [hidle i] at hi
      exact False.elim hi
    · intro entry hlive
      rw [hready.free] at hlive
      cases hlive
    · intro i hi
      rw [hidle i] at hi
      exact False.elim hi
    · intro entry hlive
      obtain ⟨encoded, hvalue⟩ := hready.text entry hlive
      refine ⟨encoded, hvalue, .inl ?_⟩
      rw [Keyspace.get, hlive, ← hvalue]
      rfl
    · intro i
      rw [hidle i]
      rfl
  · rintro h s event t _ hs ⟨hstep, hcalm⟩
    exact step_guarded hkeys htokens hs hstep hcalm

/-! ## What the calls of a run share -/

/-- The record of a loader that ran. -/
def Record.isLoad : Record Value → Bool
  | .loaded _ => true
  | _ => false

/-- A call that ran its loader is about to store, or has left the `with` block on its way. -/
theorem Guarded.loaded (hs : Guarded codec calls key start h s) {i : ι}
    {outcome : Except PyError Value} (hload : Event.load i outcome ∈ h) :
    (∃ value, s.phase i = .storing value ∧ records i h = [.loaded (.ok value)]) ∨
      ∃ result, (s.phase i = .leaving result ∨ s.phase i = .done result) ∧
        Ends codec calls key start h i (records i h) result := by
  have hmem := mem_records_load.mpr hload
  have hagrees := hs.agrees i
  cases hphase : s.phase i with
  | storing value =>
      rw [hphase] at hagrees
      exact .inl ⟨value, rfl, hagrees⟩
  | leaving result =>
      rw [hphase] at hagrees
      exact .inr ⟨result, .inl rfl, hagrees⟩
  | done result =>
      rw [hphase] at hagrees
      exact .inr ⟨result, .inr rfl, hagrees⟩
  | _ =>
      rw [hphase] at hagrees
      rw [show records i h = [] from hagrees] at hmem
      cases hmem

/-- A call runs its loader once at most. -/
theorem Guarded.loadedOnce (hs : Guarded codec calls key start h s) (i : ι) :
    (records i h).countP Record.isLoad ≤ 1 := by
  have hends : ∀ {history : List (Record Value)} {result : Except PyError Value},
      Ends codec calls key start h i history result → history.countP Record.isLoad ≤ 1 := by
    intro history result hends
    cases hends with
    | raised error => exact Nat.le_refl 1
    | refused value error => exact Nat.le_refl 1
    | stored value => exact Nat.le_refl 1
    | tagged value => exact Nat.le_refl 1
    | _ => exact Nat.zero_le 1
  have hagrees := hs.agrees i
  cases hphase : s.phase i with
  | storing value =>
      rw [hphase] at hagrees
      rw [show records i h = _ from hagrees]
      exact Nat.le_refl 1
  | leaving result => rw [hphase] at hagrees; exact hends hagrees
  | done result => rw [hphase] at hagrees; exact hends hagrees
  | _ =>
      rw [hphase] at hagrees
      rw [show records i h = [] from hagrees]
      exact Nat.zero_le 1

/-- A loader that raised: nothing is stored, and the call leaves with the error. -/
theorem Guarded.raised (hs : Guarded codec calls key start h s) {i : ι} {error : PyError}
    (hload : Event.load i (.error error) ∈ h) :
    records i h = [.loaded (.error error)] ∧
      (s.phase i = .leaving (.error error) ∨ s.phase i = .done (.error error)) := by
  have hmem := mem_records_load.mpr hload
  rcases hs.loaded hload with ⟨value, -, hrecords⟩ | ⟨result, hphase, hends⟩
  · rw [hrecords] at hmem
    cases List.mem_singleton.mp hmem
  · generalize records i h = history at hmem hends
    cases hends with
    | raised error' =>
        cases List.mem_singleton.mp hmem
        exact ⟨rfl, hphase⟩
    | refused value error' => simp at hmem
    | stored value => simp at hmem
    | tagged value => simp at hmem
    | _ => cases hmem

/-- A value that was loaded and not refused is about to be stored, or is stored. -/
theorem Guarded.kept (hs : Guarded codec calls key start h s) {i : ι} {value : Value}
    (hload : Event.load i (.ok value) ∈ h)
    (hkept : ∀ error, Event.refuse (some i) error ∉ h) :
    s.phase i = .storing value ∨
      ∃ key tags outcome, Event.store (some i) key value tags outcome ∈ h := by
  have hmem := mem_records_load.mpr hload
  rcases hs.loaded hload with ⟨value', hphase, hrecords⟩ | ⟨result, -, hends⟩
  · rw [hrecords] at hmem
    cases List.mem_singleton.mp hmem
    exact .inl hphase
  · refine .inr ?_
    have hstored : ∃ outcome, Record.stored value outcome ∈ records i h := by
      generalize hrecords : records i h = history at hmem hends
      cases hends with
      | raised error => simp at hmem
      | refused value' error =>
          refine absurd (mem_records_refuse.mp ?_) (hkept error)
          rw [hrecords]
          exact List.mem_cons_self
      | stored value' =>
          obtain rfl : value = value' := by simpa using hmem
          exact ⟨_, List.mem_cons_self⟩
      | tagged value' =>
          obtain rfl : value = value' := by simpa using hmem
          exact ⟨_, List.mem_cons_self⟩
      | _ => cases hmem
    obtain ⟨outcome, hstored⟩ := hstored
    obtain ⟨key, tags, hstore⟩ := mem_records_store.mp hstored
    exact ⟨key, tags, outcome, hstore⟩

/-- Of a list with one element that passes a test at most, any two that pass are equal. -/
theorem eq_of_countP_le_one {α : Type} {p : α → Bool} {l : List α} (hone : l.countP p ≤ 1) {a b : α}
    (ha : a ∈ l) (hb : b ∈ l) (hpa : p a = true) (hpb : p b = true) : a = b := by
  rw [List.countP_eq_length_filter] at hone
  have hfa : a ∈ l.filter p := List.mem_filter.mpr ⟨ha, hpa⟩
  have hfb : b ∈ l.filter p := List.mem_filter.mpr ⟨hb, hpb⟩
  match hfilter : l.filter p with
  | [] => rw [hfilter] at hfa; cases hfa
  | [c] =>
      rw [hfilter] at hfa hfb
      rw [List.mem_singleton.mp hfa, List.mem_singleton.mp hfb]
  | c :: d :: rest =>
      rw [hfilter, List.length_cons, List.length_cons] at hone
      omega

/-- Nobody stores while a loaded value waits to be stored. -/
theorem Guarded.not_stored (hs : Guarded codec calls key start h s) {i : ι} {value : Value}
    (hstoring : s.phase i = .storing value) {event : Event ι Value} (hmem : event ∈ h) :
    event.isStore ≠ true := by
  intro hstore
  have hnone := hs.unstored (hs.working i (by rw [hstoring]; trivial))
  have hsome : 0 < h.countP Event.isStore := List.countP_pos_iff.mpr ⟨event, hmem, hstore⟩
  omega

/-- One value at most is loaded and not refused. -/
theorem Guarded.keptOnce (hs : Guarded codec calls key start h s)
    (htokens : Function.Injective fun i => (calls i).token) {i j : ι} {value value' : Value}
    (hi : Event.load i (.ok value) ∈ h) (hj : Event.load j (.ok value') ∈ h)
    (hkepti : ∀ error, Event.refuse (some i) error ∉ h)
    (hkeptj : ∀ error, Event.refuse (some j) error ∉ h) : i = j ∧ value = value' := by
  rcases hs.kept hi hkepti with hstoring | ⟨key', tags, outcome, hstore⟩
  · rcases hs.kept hj hkeptj with hstoring' | ⟨key', tags, outcome, hstore⟩
    · obtain rfl : i = j :=
        hs.alone htokens (by rw [hstoring]; trivial) (by rw [hstoring']; trivial)
      rw [hstoring, Phase.storing.injEq] at hstoring'
      exact ⟨rfl, hstoring'⟩
    · exact absurd rfl (hs.not_stored hstoring hstore)
  · rcases hs.kept hj hkeptj with hstoring' | ⟨key'', tags', outcome', hstore'⟩
    · exact absurd rfl (hs.not_stored hstoring' hstore)
    · have heq := eq_of_countP_le_one hs.storedOnce hstore hstore' rfl rfl
      rw [Event.store.injEq, Option.some.injEq] at heq
      exact ⟨heq.1, heq.2.2.1⟩

/-- What a run of calls of one key comes to. -/
structure Protected (codec : Codec Value) (calls : ι → GetOrSet) (key : String) (start : Server)
    (h : List (Event ι Value)) (s : CacheState ι Value) : Prop where
  /-- No two loaders overlap. -/
  exclusive : ∀ i j, s.phase i = .loading → s.phase j = .loading → i = j
  /-- One loader at most returns a value that `set` takes. -/
  keptOnce : ∀ i j value value', Event.load i (.ok value) ∈ h → Event.load j (.ok value') ∈ h →
    (∀ error, Event.refuse (some i) error ∉ h) → (∀ error, Event.refuse (some j) error ∉ h) →
    i = j ∧ value = value'
  loadedOnce : ∀ i, (records i h).countP Record.isLoad ≤ 1
  storedOnce : h.countP Event.isStore ≤ 1
  /-- A loader that raises stores nothing. -/
  raised : ∀ i error, Event.load i (.error error) ∈ h →
    (∀ key value tags outcome, Event.store (some i) key value tags outcome ∉ h) ∧
      (s.phase i = .leaving (.error error) ∨ s.phase i = .done (.error error))
  /-- A call that is over has freed the lock. -/
  freed : ∀ i outcome, s.phase i = .done outcome →
    s.server.get (lockKeyOf key) ≠ some (.text (calls i).token)
  free : (∀ i, ¬(s.phase i).Inside) → s.server.live (lockKeyOf key) = none
  ends : ∀ i outcome, s.phase i = .done outcome →
    Ends codec calls key start h i (records i h) outcome

/-- In every calm run of calls of one key that starts with the lock free. -/
theorem stampede_protection {cache : Cache} (hready : Ready key start)
    (hkeys : ∀ i, (calls i).key = key) (htokens : Function.Injective fun i => (calls i).token)
    (hr : ((cacheCalls cache codec calls start).under (Calm key)).Reaches h s) :
    Protected codec calls key start h s := by
  have hs := reaches_guarded hready hkeys htokens hr
  refine ⟨?_, fun i j value value' => hs.keptOnce htokens, hs.loadedOnce, hs.storedOnce, ?_, ?_, ?_,
    ?_⟩
  · intro i j hi hj
    exact hs.alone htokens (by rw [hi]; trivial) (by rw [hj]; trivial)
  · intro i error hload
    obtain ⟨hrecords, hphase⟩ := hs.raised hload
    refine ⟨fun key' value tags outcome hstore => ?_, hphase⟩
    have hmem := mem_records_store.mpr ⟨key', tags, hstore⟩
    rw [hrecords] at hmem
    cases List.mem_singleton.mp hmem
  · intro i outcome hdone hheld
    obtain ⟨expireAt, hlive⟩ := Keyspace.get_eq_some.mp hheld
    obtain ⟨j, hj⟩ := hs.held _ hlive
    have heq := (hs.inside j hj).symm.trans hheld
    rw [Option.some.injEq, Content.text.injEq] at heq
    obtain rfl := htokens heq
    rw [hdone] at hj
    exact hj
  · intro houtside
    cases hlive : s.server.live (lockKeyOf key) with
    | none => rfl
    | some entry =>
        obtain ⟨i, hi⟩ := hs.held entry hlive
        exact absurd hi (houtside i)
  · intro i outcome hdone
    have hagrees := hs.agrees i
    rwa [hdone] at hagrees

/-! ### Two calls -/

/-- Two calls for one key. -/
def twoCalls (ttlSeconds : Option Int) (first : Bool) : GetOrSet where
  key := "k"
  ttlSeconds := ttlSeconds
  token := if first then "a" else "b"

theorem twoCalls_tokens (ttlSeconds : Option Int) :
    Function.Injective fun first => (twoCalls ttlSeconds first).token := by
  intro first second heq
  cases first with
  | true => cases second with
    | true => rfl
    | false => exact absurd (show "a" = "b" from heq) (by decide)
  | false => cases second with
    | true => exact absurd (show "b" = "a" from heq) (by decide)
    | false => rfl

/-- Nobody has called yet. -/
def idleCalls : CacheState Bool String := ⟨Keyspace.empty, fun _ => .idle⟩

theorem ready_empty (key : String) : Ready key Keyspace.empty where
  free := rfl
  text _ hlive := by cases hlive

/-- The first call stores what it loaded, and the second finds it. -/
theorem stampede_protection_twoCalls :
    ∃ h s, Protected textCodec (twoCalls none) "k" Keyspace.empty h s ∧
      s.phase true = .done (.ok "v") ∧ s.phase false = .done (.ok "v") := by
  have hstart : (cacheCalls sampleCache textCodec (twoCalls none) Keyspace.empty).Reaches []
      idleCalls := .init ⟨rfl, fun _ => rfl⟩
  have hloading := reaches_loading (i := true) hstart rfl (by decide) (by decide) rfl rfl
  have hprepare : sampleCache.prepare textCodec "k" "v" none [] 0 =
      .ok (setPipeline "k" "v" 300 []) := rfl
  have hstored := reaches_stored (i := true) hloading rfl "v" hprepare rfl
  have hreleased := reaches_released (i := true) hstored rfl (by decide) (by decide) rfl
  have hfound := hreleased.step (.look false 0 rfl)
  have hcalm := hfound.under_of (P := Calm "k") (by simp [Calm])
  exact ⟨_, _, stampede_protection (ready_empty "k") (fun _ => rfl) (twoCalls_tokens none) hcalm,
    rfl, rfl⟩

/-- With `ttl_seconds=0` every call runs its loader, and `set` refuses what it returned. -/
theorem loaded_twice :
    ¬∀ h s, ((cacheCalls sampleCache textCodec (twoCalls (some 0)) Keyspace.empty).under
      (Calm "k")).Reaches h s → ∀ i j value value', Event.load i (.ok value) ∈ h →
        Event.load j (.ok value') ∈ h → i = j := by
  intro hone
  have hstart : (cacheCalls sampleCache textCodec (twoCalls (some 0)) Keyspace.empty).Reaches []
      idleCalls := .init ⟨rfl, fun _ => rfl⟩
  have hrefuses : sampleCache.prepare textCodec "k" "v" (some 0) [] 0 =
      .error (.valueError "ttl_seconds must be positive") := rfl
  have hloading := reaches_loading (i := true) hstart rfl (by decide) (by decide) rfl rfl
  have hrefused := reaches_refused (i := true) hloading rfl "v" hrefuses
  have hreleased := reaches_released (i := true) hrefused rfl (by decide) (by decide) rfl
  have hloading' := reaches_loading (i := false) hreleased rfl (by decide) (by decide) rfl rfl
  have hrefused' := reaches_refused (i := false) hloading' rfl "v" hrefuses
  have hcalm := hrefused'.under_of (P := Calm "k") (by simp [Calm])
  have heq := hone _ _ hcalm true false "v" "v" (by simp) (by simp)
  cases heq

end

end ProdkitStorage.Redis

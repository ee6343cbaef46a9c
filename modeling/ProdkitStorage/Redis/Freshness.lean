import ProdkitStorage.Redis.Stampede
import ProdkitStorage.Redis.Hits

/-!
# Freshness

What invalidations and leases are good for, with calls of `get_or_set` that interleave.
`Coverage` of `Redis/Tags.lean` holds of these runs too, as the keys of locks are neither
cached keys nor keys of tags; so an invalidation that returned leaves no value of its tag,
and `Fresh` follows: the value under a key was stored after every invalidation of its tags.
A loader may have started before, since `set` is sent whatever happened meanwhile.

The key of a lock stores the token of the last call that acquired it, so a call whose
lease is in force is the last one that acquired.
-/

namespace ProdkitStorage.Redis

open ProdkitStorage.Foundation (Keyspace Entry System)
open ProdkitStorage.Python
open Lock (RedisLock)

variable {Value ι : Type}

/-! ## The calls of a history -/

/-- The plain call that an event comes to. -/
def Event.call : Event ι Value → Option Call
  | .store _ key _ tags outcome => some (.set key tags outcome)
  | .delete keys => some (.delete keys)
  | .invalidateTag tag outcome => some (.invalidateTag tag outcome)
  | .tick elapsed => some (.tick elapsed)
  | _ => none

/-- The plain calls of a history. -/
def callsOf (h : List (Event ι Value)) : List Call := h.filterMap Event.call

@[simp] theorem callsOf_cons_none {event : Event ι Value} (hevent : event.call = none)
    (h : List (Event ι Value)) : callsOf (event :: h) = callsOf h :=
  List.filterMap_cons_none hevent

@[simp] theorem callsOf_cons_some {event : Event ι Value} {call : Call}
    (hevent : event.call = some call) (h : List (Event ι Value)) :
    callsOf (event :: h) = call :: callsOf h :=
  List.filterMap_cons_some hevent

/-- Cached keys are neither keys of tags nor keys of locks. -/
def Apart (cache : Cache) (calls : ι → GetOrSet) (_ : CacheState ι Value) : Event ι Value → Prop
  | .store _ key _ _ _ => ¬cache.IsTagKey key ∧ ∀ i, key ≠ (calls i).lockKey
  | .delete keys => ∀ key ∈ keys, ¬cache.IsTagKey key
  | _ => True

/-! ## Coverage with locks -/

/-- A change of a key that is neither a key of a tag nor a cached key. -/
theorem Coverage.frame {cache : Cache} {history : List Call} {ks after : Server}
    (h : Coverage cache history ks) {key : String} (hkey : ¬cache.IsTagKey key)
    (hnone : latestTags key history = none)
    (hsame : ∀ other, other ≠ key → after.live other = ks.live other) :
    Coverage cache history after where
  tagSets tagKey entry htag hlive := by
    rw [hsame tagKey (fun heq => hkey (heq ▸ htag))] at hlive
    exact h.tagSets tagKey entry htag hlive
  cached := h.cached
  covered other tags entry htags hlive := by
    have hother : other ≠ key := by
      rintro rfl
      rw [hnone] at htags
      cases htags
    rw [hsame other hother] at hlive
    obtain ⟨deadline, hexpire, hcov⟩ := h.covered other tags entry htags hlive
    refine ⟨deadline, hexpire, fun tag htag => ?_⟩
    obtain ⟨tagKey, htagKey, members, expireAt, hset, hmem⟩ := hcov tag htag
    refine ⟨tagKey, htagKey, members, expireAt, ?_, hmem⟩
    rw [hsame tagKey (fun heq => hkey (heq ▸ ⟨tag, htagKey⟩)), hset]

/-- The tag sets cover the cached keys, and no key of a lock is a cached key. -/
structure Covered (cache : Cache) (calls : ι → GetOrSet) (h : List (Event ι Value)) (ks : Server) :
    Prop where
  coverage : Coverage cache (callsOf h) ks
  unlocked : ∀ i, latestTags (calls i).lockKey (callsOf h) = none
  storedOk : ∀ i key value tags outcome, Event.store i key value tags outcome ∈ h → outcome = .ok ()

variable {cache : Cache} {codec : Codec Value} {calls : ι → GetOrSet} {h : List (Event ι Value)}

theorem Covered.storedOk_cons {ks : Server} (hs : Covered cache calls h ks) {event : Event ι Value}
    (hevent : event.call = none) : ∀ i key value tags outcome,
      Event.store i key value tags outcome ∈ event :: h → outcome = .ok () := by
  intro i key value tags outcome hmem
  rcases List.mem_cons.mp hmem with rfl | hmem
  · cases hevent
  · exact hs.storedOk i key value tags outcome hmem

/-- A step that leaves all but the key of a lock as it is. -/
theorem Covered.frame {ks after : Server} (hs : Covered cache calls h ks) {i : ι}
    (hlock : ¬cache.IsTagKey (calls i).lockKey) {event : Event ι Value}
    (hevent : event.call = none)
    (hsame : ∀ other, other ≠ (calls i).lockKey → after.live other = ks.live other) :
    Covered cache calls (event :: h) after where
  coverage := by
    rw [callsOf_cons_none hevent]
    exact hs.coverage.frame hlock (hs.unlocked i) hsame
  unlocked j := by
    rw [callsOf_cons_none hevent]
    exact hs.unlocked j
  storedOk := hs.storedOk_cons hevent

theorem Covered.cons {ks : Server} (hs : Covered cache calls h ks) {event : Event ι Value}
    (hevent : event.call = none) : Covered cache calls (event :: h) ks where
  coverage := by
    rw [callsOf_cons_none hevent]
    exact hs.coverage
  unlocked i := by
    rw [callsOf_cons_none hevent]
    exact hs.unlocked i
  storedOk := hs.storedOk_cons hevent

/-- The pipeline of a `set` runs to its end. -/
theorem Covered.store {ks after : Server} (hs : Covered cache calls h ks) {key : String}
    (hkey : ¬cache.IsTagKey key) (hunlocked : ∀ i, key ≠ (calls i).lockKey) {value : Value}
    {ttlSeconds : Option Int} {tags : List String} {drawn : Int} {pipe : List Command}
    (hprepare : cache.prepare codec key value ttlSeconds tags drawn = .ok pipe)
    {outcome : Except PyError Unit} (hexecute : execute ks pipe = (after, outcome))
    (i : Option ι) :
    Covered cache calls (.store i key value tags outcome :: h) after ∧ outcome = .ok () := by
  obtain ⟨ttl, encoded, tagKeys, hencoded, htagKeys, hpipe⟩ := Cache.prepare_ok hprepare
  have hset : cache.set ks key encoded ttlSeconds tags drawn = (after, outcome) := by
    rw [cache.set_eq codec hencoded, hprepare]
    exact hexecute
  have houtcome : outcome = .ok () := by
    have hcommands := execute_tagCommands ttl hkey (mapM_tagKey htagKeys).2
      (setEx_tagSets hkey hs.coverage.tagSets encoded ttl)
    have hsent : (execute (ks.setEx key (.text encoded) ttl)
        (tagKeys.flatMap (tagCommands key ttl))).2 = outcome := by
      rw [hpipe] at hexecute
      exact congrArg Prod.snd hexecute
    rw [← hsent, hcommands]
  refine ⟨⟨coverage_set hs.coverage hkey hset, fun j => ?_, ?_⟩, houtcome⟩
  · show latestTags _ (.set key tags outcome :: callsOf h) = none
    rw [houtcome, latestTags, if_neg (hunlocked j)]
    exact hs.unlocked j
  · intro i' key' value' tags' outcome' hmem
    rcases List.mem_cons.mp hmem with heq | hmem
    · cases heq
      exact houtcome
    · exact hs.storedOk i' key' value' tags' outcome' hmem

/-- In every run whose cached keys are apart from the others. -/
theorem reaches_covered [DecidableEq ι] (hlocks : ∀ i, ¬cache.IsTagKey (calls i).lockKey)
    {s : CacheState ι Value}
    (hr : ((cacheCalls cache codec calls Keyspace.empty).under (Apart cache calls)).Reaches h s) :
    Covered cache calls h s.server := by
  refine hr.invariant (I := fun h s => Covered cache calls h s.server) ?_ ?_
  · rintro s ⟨hserver, -⟩
    rw [hserver]
    exact ⟨coverage_empty cache, fun _ => rfl, by simp⟩
  · rintro h s event t _ hs ⟨hstep, hapart⟩
    cases hstep with
    | look i clock => exact hs.cons rfl
    | @attempt server acquired lock i clock clock' _ hlock hset =>
        refine hs.frame (hlocks i) rfl fun other hother => ?_
        rw [← (GetOrSet.lock_ok hlock).1] at hother
        exact live_setNxCommand_other hset hother
    | recheck i => exact hs.cons rfl
    | load i outcome => exact hs.cons rfl
    | refuse i drawn => exact hs.cons rfl
    | store i drawn _ hprepare hexecute =>
        exact (hs.store hapart.1 hapart.2 hprepare hexecute (some i)).1
    | @release outcome lock server reply i _ hlock hrelease =>
        refine hs.frame (hlocks i) rfl fun other hother => ?_
        rw [← (GetOrSet.lock_ok hlock).1] at hother
        have hserver : (releaseCommand s.server lock.key lock.token).1 = server :=
          congrArg Prod.fst hrelease
        rw [CacheState.move_server, ← hserver]
        exact live_releaseCommand_other s.server lock.token hother
    | read key => exact hs.cons rfl
    | refuseSet key value ttlSeconds tags drawn => exact hs.cons rfl
    | set key value ttlSeconds tags drawn hprepare hexecute =>
        exact (hs.store hapart.1 hapart.2 hprepare hexecute none).1
    | delete keys =>
        exact ⟨coverage_delete hs.coverage hapart, hs.unlocked, by simpa using hs.storedOk⟩
    | invalidateTag tag hcall =>
        exact ⟨coverage_invalidateTag hs.coverage hcall, hs.unlocked, by simpa using hs.storedOk⟩
    | tick elapsed =>
        exact ⟨coverage_tick hs.coverage, hs.unlocked, by simpa using hs.storedOk⟩

/-! ## Values outlive no invalidation of their tags -/

/-- The text was stored under the key, and since then nothing was stored under it and none of its
tags was invalidated. -/
def StoredSince (codec : Codec Value) (h : List (Event ι Value)) (key text : String) : Prop :=
  ∃ newer i value tags outcome older, h = newer ++ .store i key value tags outcome :: older ∧
    codec.dumps value = .ok text ∧
    (∀ i value tags outcome, Event.store i key value tags outcome ∉ newer) ∧
    ∀ tag ∈ tags, ∀ deleted, Event.invalidateTag tag (.ok deleted) ∉ newer

/-- The texts under all keys but those of locks. -/
def Fresh (codec : Codec Value) (calls : ι → GetOrSet) (h : List (Event ι Value)) (ks : Server) :
    Prop :=
  ∀ key text, (∀ i, key ≠ (calls i).lockKey) → ks.get key = some (.text text) →
    StoredSince codec h key text

theorem StoredSince.cons {key text : String} (hsince : StoredSince codec h key text)
    {event : Event ι Value}
    (hstore : ∀ i value tags outcome, event ≠ .store i key value tags outcome)
    (hinvalidate : ∀ tag deleted, event ≠ .invalidateTag tag (.ok deleted)) :
    StoredSince codec (event :: h) key text := by
  obtain ⟨newer, i, value, tags, outcome, older, rfl, hencoded, hlast, hvalid⟩ := hsince
  refine ⟨event :: newer, i, value, tags, outcome, older, rfl, hencoded, ?_, ?_⟩
  · intro i' value' tags' outcome' hmem
    rcases List.mem_cons.mp hmem with heq | hmem
    · exact hstore _ _ _ _ heq.symm
    · exact hlast _ _ _ _ hmem
  · intro tag htag deleted hmem
    rcases List.mem_cons.mp hmem with heq | hmem
    · exact hinvalidate _ _ heq.symm
    · exact hvalid tag htag deleted hmem

/-- Steps that store nothing under a key leave its latest tags. -/
theorem latestTags_append {key : String} {newer : List (Event ι Value)}
    (hnewer : ∀ i value tags outcome, Event.store i key value tags outcome ∉ newer)
    (h : List (Event ι Value)) :
    latestTags key (callsOf (newer ++ h)) = latestTags key (callsOf h) := by
  induction newer with
  | nil => rfl
  | cons event newer ih =>
      have hrest := ih fun i value tags outcome hmem =>
        hnewer i value tags outcome (List.mem_cons_of_mem _ hmem)
      cases event with
      | store i key' value tags outcome =>
          have hkey : key' ≠ key := by
            rintro rfl
            exact hnewer _ _ _ _ List.mem_cons_self
          show latestTags key (.set key' tags outcome :: callsOf (newer ++ h)) = _
          cases outcome with
          | ok done => rw [latestTags, if_neg hkey, hrest]
          | error error => exact hrest
      | _ => exact hrest

theorem Fresh.cons {ks after : Server} (hs : Fresh codec calls h ks) {event : Event ι Value}
    (hafter : ∀ key text, (∀ i, key ≠ (calls i).lockKey) → after.get key = some (.text text) →
      ks.get key = some (.text text))
    (hstore : ∀ i key value tags outcome, event ≠ .store i key value tags outcome)
    (hinvalidate : ∀ tag deleted, event ≠ .invalidateTag tag (.ok deleted)) :
    Fresh codec calls (event :: h) after :=
  fun key text hkey htext => (hs key text hkey (hafter key text hkey htext)).cons
    (fun i value tags outcome => hstore i key value tags outcome) hinvalidate

theorem Fresh.store {ks after : Server} (hs : Fresh codec calls h ks) {key : String} {value : Value}
    {ttlSeconds : Option Int} {tags : List String} {drawn : Int} {pipe : List Command}
    (hprepare : cache.prepare codec key value ttlSeconds tags drawn = .ok pipe)
    {outcome : Except PyError Unit} (hexecute : execute ks pipe = (after, outcome)) (i : Option ι) :
    Fresh codec calls (.store i key value tags outcome :: h) after := by
  obtain ⟨ttl, encoded, tagKeys, hencoded, -, rfl⟩ := Cache.prepare_ok hprepare
  intro other text hother htext
  have hwritten := text_setPipeline hexecute htext
  split at hwritten
  · next heq =>
      rw [heq, hwritten]
      exact ⟨[], i, value, tags, outcome, h, rfl, hencoded, by simp, by simp⟩
  · next hne =>
      refine (hs other text hother hwritten).cons ?_ (fun _ _ heq => by cases heq)
      intro i' value' tags' outcome' heq
      cases heq
      exact hne rfl

/-- A successful invalidation leaves no value of its tag. -/
theorem Fresh.invalidateTag {ks after : Server} (hs : Fresh codec calls h ks)
    (hcovered : Covered cache calls h ks) {tag : String} {outcome : Except PyError Nat}
    (hcall : cache.invalidateTag ks tag = (after, outcome)) :
    Fresh codec calls (.invalidateTag tag outcome :: h) after := by
  intro key text hkey htext
  have hbefore := (noNewContent_invalidateTag hcall).texts key text htext
  obtain ⟨newer, i, value, tags, outcome', older, rfl, hencoded, hlast, hvalid⟩ :=
    hs key text hkey hbefore
  refine ⟨.invalidateTag tag outcome :: newer, i, value, tags, outcome', older, rfl, hencoded,
    ?_, ?_⟩
  · intro i' value' tags' outcome'' hmem
    rcases List.mem_cons.mp hmem with heq | hmem
    · cases heq
    · exact hlast _ _ _ _ hmem
  · intro tag' htag' deleted hmem
    rcases List.mem_cons.mp hmem with heq | hmem
    · cases heq
      have hstored :=
        hcovered.storedOk i key value tags outcome' (List.mem_append_right _ List.mem_cons_self)
      have hlatest : latestTags key (callsOf (newer ++ .store i key value tags outcome' :: older)) =
          some tags := by
        rw [latestTags_append hlast, hstored]
        exact if_pos rfl
      obtain ⟨expireAt, hlive⟩ := Keyspace.get_eq_some.mp htext
      exact hcovered.coverage.invalidated hlatest htag' hcall _ hlive
    · exact hvalid tag' htag' deleted hmem

/-- In every run whose cached keys are apart from the others. -/
theorem reaches_fresh [DecidableEq ι] (hlocks : ∀ i, ¬cache.IsTagKey (calls i).lockKey)
    {s : CacheState ι Value}
    (hr : ((cacheCalls cache codec calls Keyspace.empty).under (Apart cache calls)).Reaches h s) :
    Fresh codec calls h s.server := by
  refine hr.invariant (I := fun h s => Fresh codec calls h s.server) ?_ ?_
  · rintro s ⟨hserver, -⟩ key text _ htext
    rw [hserver] at htext
    cases htext
  · rintro h s event t hr hs ⟨hstep, hapart⟩
    cases hstep with
    | look i clock => exact hs.cons (fun _ _ _ htext => htext) (by simp) (by simp)
    | @attempt server acquired lock i clock clock' _ hlock hset =>
        refine hs.cons (fun key text hkey htext => ?_) (by simp) (by simp)
        have hother : key ≠ lock.key := (GetOrSet.lock_ok hlock).1 ▸ hkey i
        rwa [CacheState.move_server, Keyspace.get, live_setNxCommand_other hset hother] at htext
    | recheck i => exact hs.cons (fun _ _ _ htext => htext) (by simp) (by simp)
    | load i outcome => exact hs.cons (fun _ _ _ htext => htext) (by simp) (by simp)
    | refuse i drawn => exact hs.cons (fun _ _ _ htext => htext) (by simp) (by simp)
    | store i drawn _ hprepare hexecute => exact hs.store hprepare hexecute (some i)
    | @release outcome lock server reply i _ hlock hrelease =>
        have hserver : (releaseCommand s.server lock.key lock.token).1 = server :=
          congrArg Prod.fst hrelease
        refine hs.cons (fun key text _ => ?_) (by simp) (by simp)
        rw [CacheState.move_server, ← hserver]
        exact (noNewContent_release s.server lock.key lock.token).texts key text
    | read key => exact hs.cons (fun _ _ _ htext => htext) (by simp) (by simp)
    | refuseSet key value ttlSeconds tags drawn =>
        exact hs.cons (fun _ _ _ htext => htext) (by simp) (by simp)
    | set key value ttlSeconds tags drawn hprepare hexecute => exact hs.store hprepare hexecute none
    | delete keys =>
        exact hs.cons (fun key text _ => (noNewContent_delete s.server keys).texts key text)
          (by simp)
          (by simp)
    | invalidateTag tag hcall => exact hs.invalidateTag (reaches_covered hlocks hr) hcall
    | tick elapsed =>
        exact hs.cons (fun key text _ => (noNewContent_tick s.server elapsed).texts key text)
          (by simp)
          (by simp)

/-! ## Leases -/

/-- A call whose lease is in force is the last one that acquired the lock. -/
theorem holder_latest [DecidableEq ι] (htokens : Function.Injective fun i => (calls i).token)
    {s : CacheState ι Value}
    (hr : ((cacheCalls cache codec calls Keyspace.empty).under (Apart cache calls)).Reaches h s)
    {i : ι} (hheld : s.server.get (calls i).lockKey = some (.text (calls i).token)) :
    ∃ newer older, h = newer ++ .attempt i true :: older ∧
      ∀ j, (calls j).key = (calls i).key → Event.attempt j true ∉ newer := by
  have hlatest := reaches_textsLatest hr.of_under _ _ hheld
  obtain ⟨newer, event, older, rfl, hwrites, hnewer⟩ := latestText_written hlatest rfl
  refine ⟨newer, older, ?_, ?_⟩
  · rcases Event.writes_some hwrites with ⟨i', value, tags, outcome, rfl⟩ | ⟨j, rfl, -, htoken⟩
    · obtain ⟨-, -, happart⟩ := hr.holds_under _ (List.mem_append_right _ List.mem_cons_self)
      exact absurd rfl (happart i)
    · rw [show j = i from htokens htoken]
  · intro j hkey hmem
    have hnone := hnewer _ hmem
    have hsome : (Event.attempt j true : Event ι Value).writes codec calls (calls i).lockKey =
        some (calls j).token := if_pos (by rw [GetOrSet.lockKey, GetOrSet.lockKey, hkey])
    rw [hsome] at hnone
    cases hnone

/-- A hit returns a value that was stored after every invalidation of its tags; a call whose lease
is in force stores over no value of a later holder, since there is none; and the release of one call
leaves the lock of another. -/
theorem freshness [DecidableEq ι] (hlocks : ∀ i, ¬cache.IsTagKey (calls i).lockKey)
    (htokens : Function.Injective fun i => (calls i).token) {s : CacheState ι Value}
    (hr : ((cacheCalls cache codec calls Keyspace.empty).under (Apart cache calls)).Reaches h s) :
    (∀ event t key read, CacheStep cache codec calls s event t →
      (∀ i, key ≠ (calls i).lockKey) → event.hit calls key = some read →
      ∃ encoded, StoredSince codec h key encoded ∧ codec.loads encoded = .ok read) ∧
    (∀ i, s.server.get (calls i).lockKey = some (.text (calls i).token) →
      ∃ newer older, h = newer ++ .attempt i true :: older ∧
        ∀ j, (calls j).key = (calls i).key → Event.attempt j true ∉ newer) ∧
    ∀ i j server reply, i ≠ j → s.server.get (calls j).lockKey = some (.text (calls j).token) →
      releaseCommand s.server (calls i).lockKey (calls i).token = (server, reply) →
        server.get (calls j).lockKey = some (.text (calls j).token) := by
  refine ⟨?_, fun i => holder_latest htokens hr, ?_⟩
  · intro event t key read hstep hkey hhit
    obtain ⟨text, htext, hloads⟩ := hit_text hstep hhit
    exact ⟨text, reaches_fresh hlocks hr key text hkey htext, hloads⟩
  · intro i j server reply hne hheld hrelease
    have hserver : (releaseCommand s.server (calls i).lockKey (calls i).token).1 = server :=
      congrArg Prod.fst hrelease
    rw [← hserver]
    by_cases hkey : (calls j).lockKey = (calls i).lockKey
    · have hother : s.server.get (calls i).lockKey ≠ some (.text (calls i).token) := by
        intro hown
        rw [← hkey, hheld, Option.some.injEq, Content.text.injEq] at hown
        exact hne (htokens hown).symm
      rw [releaseCommand_other hother, hheld]
    · rw [Keyspace.get, live_releaseCommand_other _ _ hkey]
      exact hheld

/-! ### Two callers and one tag -/

/-- Two calls for one key, with a tag. -/
def taggedCalls (first : Bool) : GetOrSet where
  key := "k"
  tags := ["t"]
  token := if first then "a" else "b"

theorem taggedCalls_tokens : Function.Injective fun first => (taggedCalls first).token :=
  twoCalls_tokens none

theorem taggedCalls_tag : sampleCache.tagKey "t" = .ok "app:v1:tag:t" := by decide

theorem taggedCalls_prepare (value : String) :
    sampleCache.prepare textCodec "k" value none ["t"] 0 =
      .ok (setPipeline "k" value 300 ["app:v1:tag:t"]) := by
  have httl : sampleCache.ttl none 0 = .ok 300 := by decide
  simp [Cache.prepare, httl, taggedCalls_tag, textCodec]

/-- A text with one separator is no key of a tag. -/
theorem not_isTagKey {cache : Cache} {key : String} (hkey : key.toList.count ':' ≤ 1) :
    ¬cache.IsTagKey key := by
  rintro ⟨tag, htag⟩
  have hcolons := KeyBuilder.tag_colons htag
  omega

theorem taggedCalls_locks (i : Bool) : ¬sampleCache.IsTagKey (taggedCalls i).lockKey :=
  not_isTagKey (show "k:lock".toList.count ':' ≤ 1 by decide)

theorem taggedCalls_apart : ¬sampleCache.IsTagKey "k" ∧ ∀ i, "k" ≠ (taggedCalls i).lockKey :=
  ⟨not_isTagKey (by decide), fun _ => (lockKeyOf_ne "k").symm⟩

/-- The first call is in its loader. -/
def firstLoads : CacheState Bool String :=
  idleCalls.move (Keyspace.empty.setPx "k:lock" (.text "a") 30000) true .loading

theorem reaches_firstLoads :
    (cacheCalls sampleCache textCodec taggedCalls Keyspace.empty).Reaches
      [.recheck true (.ok none), .attempt true true, .look true (.ok none)] firstLoads :=
  reaches_loading (i := true) (.init ⟨rfl, fun _ => rfl⟩) rfl (by decide) (by decide) rfl rfl

/-- Its lease ran out, and the second call is in its loader. -/
def secondLoads : CacheState Bool String :=
  CacheState.move { firstLoads with server := firstLoads.server.tick 30001 }
    ((firstLoads.server.tick 30001).setPx "k:lock" (.text "b") 30000) false .loading

theorem reaches_secondLoads :
    (cacheCalls sampleCache textCodec taggedCalls Keyspace.empty).Reaches
      [.recheck false (.ok none), .attempt false true, .look false (.ok none), .tick 30001,
        .recheck true (.ok none), .attempt true true, .look true (.ok none)] secondLoads :=
  reaches_loading (i := false) (reaches_firstLoads.step (.tick 30001)) rfl (by decide) (by decide)
    rfl rfl

/-- A read of the key after a pipeline for it. -/
theorem lookup_setPipeline {ks server : Server} {value : String} {outcome : Except PyError Unit}
    (hexecute : execute ks (setPipeline "k" value 300 ["app:v1:tag:t"]) = (server, outcome)) :
    lookup textCodec server "k" = .ok (some value) :=
  lookup_text (get_setPipeline hexecute).1

/-- While the first call is in its loader, a plain `set` stores a value with the tag, -/
def plainlyStored : Server :=
  (execute firstLoads.server (setPipeline "k" "old" 300 ["app:v1:tag:t"])).1

/-- and the tag is invalidated. -/
def invalidated : Server := (invalidateTagScript plainlyStored "app:v1:tag:t").1

theorem reaches_plainlyStored :
    (cacheCalls sampleCache textCodec taggedCalls Keyspace.empty).Reaches
      [.store none "k" "old" ["t"] (.ok ()),
        .recheck true (.ok none), .attempt true true, .look true (.ok none)]
      { firstLoads with server := plainlyStored } := by
  have hsent : (execute firstLoads.server (setPipeline "k" "old" 300 ["app:v1:tag:t"])).2 =
      .ok () := by rfl
  have hexecute : execute firstLoads.server (setPipeline "k" "old" 300 ["app:v1:tag:t"]) =
      (plainlyStored, .ok ()) := Prod.ext (by rw [plainlyStored]) hsent
  exact reaches_firstLoads.step (.set "k" "old" none ["t"] 0 (taggedCalls_prepare "old") hexecute)

theorem reaches_invalidated :
    (cacheCalls sampleCache textCodec taggedCalls Keyspace.empty).Reaches
      [.invalidateTag "t" (.ok 1), .store none "k" "old" ["t"] (.ok ()),
        .recheck true (.ok none), .attempt true true, .look true (.ok none)]
      { firstLoads with server := invalidated } := by
  have hdeleted : (invalidateTagScript plainlyStored "app:v1:tag:t").2 = .ok 1 := by rfl
  have hcall : sampleCache.invalidateTag plainlyStored "t" = (invalidated, .ok 1) := by
    rw [Cache.invalidateTag, taggedCalls_tag]
    exact Prod.ext (by rw [invalidated]) hdeleted
  refine reaches_plainlyStored.step (.invalidateTag "t" ?_)
  dsimp only
  exact hcall

/-- The invalidation deletes the key, the first call then stores what it loaded while its lease is
in force, and a read finds that. -/
theorem freshness_read :
    ∃ h s, ((cacheCalls sampleCache textCodec taggedCalls Keyspace.empty).under
        (Apart sampleCache taggedCalls)).Reaches h s ∧
      [.invalidateTag "t" (.ok 1), .store none "k" "old" ["t"] (.ok ())].Sublist h ∧
      ∃ encoded, StoredSince textCodec h "k" encoded ∧ textCodec.loads encoded = .ok "v" := by
  generalize hexecute : execute invalidated (setPipeline "k" "v" 300 ["app:v1:tag:t"]) = after
  obtain ⟨server, outcome⟩ := after
  have hstored := reaches_stored (i := true) reaches_invalidated rfl "v" (taggedCalls_prepare "v")
    hexecute
  have hapart := hstored.under_of (P := Apart sampleCache taggedCalls) (by
    intro event hevent s
    simp only [List.mem_cons, List.not_mem_nil, or_false] at hevent
    rcases hevent with rfl | rfl | rfl | rfl | rfl | rfl | rfl
    case inl | inr.inr.inr.inl => exact taggedCalls_apart
    all_goals trivial)
  refine ⟨_, _, hapart, ?_, ?_⟩
  · exact .cons _ (.cons _ (.cons_cons _ (.cons_cons _ (List.nil_sublist _))))
  · refine (freshness taggedCalls_locks taggedCalls_tokens hapart).1 _ _ "k" "v" (.read "k")
      taggedCalls_apart.2 ?_
    rw [CacheState.move_server, lookup_setPipeline hexecute]
    rfl

/-- A value that was loaded before an invalidation is stored and read after it; and a call whose
lease ran out stores over the value of a later holder. -/
theorem stale_values :
    (¬∀ h s, (cacheCalls sampleCache textCodec taggedCalls Keyspace.empty).Reaches h s →
      ∀ i value deleted, ¬[.read "k" (.ok (some value)), .load i (.ok value),
        .invalidateTag "t" (.ok deleted), .recheck i (.ok none)].Sublist h) ∧
    ¬∀ h s, (cacheCalls sampleCache textCodec taggedCalls Keyspace.empty).Reaches h s →
      ∀ i j value value' tags tags' outcome outcome', i ≠ j →
        ¬[.store (some i) "k" value tags outcome, .store (some j) "k" value' tags' outcome',
          .attempt j true, .attempt i true].Sublist h := by
  constructor
  · intro hnever
    have hcall : sampleCache.invalidateTag firstLoads.server "t" =
        (firstLoads.server.del "app:v1:tag:t", .ok 0) := by
      rw [Cache.invalidateTag, taggedCalls_tag]
      rfl
    have hinvalidated := reaches_firstLoads.step (.invalidateTag "t" hcall)
    generalize hexecute : execute (firstLoads.server.del "app:v1:tag:t")
      (setPipeline "k" "old" 300 ["app:v1:tag:t"]) = after
    obtain ⟨server, outcome⟩ := after
    have hstored := reaches_stored (i := true) hinvalidated rfl "old" (taggedCalls_prepare "old")
      hexecute
    have hread := hstored.step (.read "k")
    rw [CacheState.move_server, lookup_setPipeline hexecute] at hread
    refine hnever _ _ hread true "old" 0 ?_
    simp
  · intro hnever
    have hnewer := reaches_stored (i := false) reaches_secondLoads rfl "new"
      (taggedCalls_prepare "new") Prod.mk.eta.symm
    have holder := reaches_stored (i := true) hnewer rfl "old" (taggedCalls_prepare "old")
      Prod.mk.eta.symm
    exact hnever _ _ holder true false _ _ _ _ _ _ (by decide)
      (.cons_cons _ (.cons _ (.cons_cons _ (.cons _ (.cons _ (.cons_cons _
        (.cons _ (.cons _ (.cons _ (.cons_cons _ (List.nil_sublist _)))))))))))

end ProdkitStorage.Redis

import ProdkitStorage.Foundation.Keyspace
import ProdkitStorage.Foundation.Transition
import ProdkitStorage.Redis.Keys

/-!
# The cache and its tags

`redis/cache.py`: `set` with its pipeline, `delete`, and `invalidate_tag` with its
script.  The server is a keyspace whose values are texts and sets; a pipeline
and a script are atomic, so a call is one step, and the clock moves between
calls.  `AsyncCache` sends the same commands.

A tag set has to outlive every entry it lists.  `Covers` says so of one entry,
and every command of a pipeline that touches the set keeps it.
-/

namespace ProdkitStorage.Redis

open ProdkitStorage.Foundation (Keyspace Entry System)
open ProdkitStorage.Python

/-! ## The server -/

/-- What a key holds. -/
inductive Content where
  | text (encoded : String)
  | members (keys : List String)
deriving DecidableEq, Repr

/-- The keyspace of the server. -/
abbrev Server := Keyspace String Content

/-- The reply to a command on a key of the other type. -/
def wrongType : PyError :=
  .responseError "WRONGTYPE Operation against a key holding the wrong kind of value"

/-- A command of the pipeline. -/
inductive Command where
  | set (key encoded : String) (ex : Nat)
  | sadd (key member : String)
  | expireNx (key : String) (seconds : Nat)
  | expireGt (key : String) (seconds : Nat)

/-- `SADD` on the members of a set. -/
def addMember (member : String) : Content → Content
  | .text encoded => .text encoded
  | .members keys => .members (if member ∈ keys then keys else member :: keys)

/-- The effect of one command, and the error it replies with. -/
def Command.run (ks : Server) : Command → Server × Option PyError
  | .set key encoded ex => (ks.setEx key (.text encoded) ex, none)
  | .sadd key member =>
      match ks.live key with
      | some ⟨.text _, _⟩ => (ks, some wrongType)
      | _ => (ks.upsert key (.members [member]) (addMember member), none)
  | .expireNx key seconds => (ks.expireNx key seconds, none)
  | .expireGt key seconds => (ks.expireGt key seconds, none)

/-- `pipe.execute()` in `MULTI`/`EXEC`: every command runs, and the first error is raised. -/
def execute (ks : Server) : List Command → Server × Except PyError Unit
  | [] => (ks, .ok ())
  | command :: pipe =>
      let (ks, error) := command.run ks
      let (ks, outcome) := execute ks pipe
      (ks, match error with
        | none => outcome
        | some error => .error error)

/-! ## The cache -/

/-- `SyncCache`.  `spread ttl` is `int(ttl * self.jitter_ratio)`. -/
structure Cache where
  keys : KeyBuilder
  sha256Hex : String → String
  defaultTtlSeconds : Int
  spread : Int → Int
  defaultTtlSeconds_pos : 0 < defaultTtlSeconds

/-- The key of the set of a tag. -/
def Cache.tagKey (cache : Cache) (tag : String) : Except PyError String :=
  cache.keys.tag cache.sha256Hex tag

/-- `_ttl`.  `drawn` is what `random.randint(-spread, spread)` returned. -/
def Cache.ttl (cache : Cache) (ttlSeconds : Option Int) (drawn : Int) : Except PyError Int :=
  let ttl := ttlSeconds.getD cache.defaultTtlSeconds
  if ttl ≤ 0 then .error (.valueError "ttl_seconds must be positive") else .ok (max 1 (ttl + drawn))

/-- The commands `set` queues for one tag. -/
def tagCommands (key : String) (ttl : Nat) (tagKey : String) : List Command :=
  [.sadd tagKey key, .expireNx tagKey (ttl + 60), .expireGt tagKey (ttl + 60)]

/-- The pipeline of `set`. -/
def setPipeline (key encoded : String) (ttl : Nat) (tagKeys : List String) : List Command :=
  .set key encoded ttl :: tagKeys.flatMap (tagCommands key ttl)

/-- `SyncCache.set`.  `encoded` is the encoded value.  An invalid argument raises before the
pipeline is sent. -/
def Cache.set (cache : Cache) (ks : Server) (key encoded : String) (ttlSeconds : Option Int)
    (tags : List String) (drawn : Int) : Server × Except PyError Unit :=
  let pipeline : Except PyError (List Command) := do
    let ttl ← cache.ttl ttlSeconds drawn
    let tagKeys ← tags.mapM cache.tagKey
    return setPipeline key encoded ttl.toNat tagKeys
  match pipeline with
  | .error error => (ks, .error error)
  | .ok pipe => execute ks pipe

/-- `client.get`. -/
def getCommand (ks : Server) (key : String) : Except PyError (Option String) :=
  match ks.live key with
  | none => .ok none
  | some ⟨.text encoded, _⟩ => .ok (some encoded)
  | some ⟨.members _, _⟩ => .error wrongType

/-- `client.delete`: the keys that were there are counted. -/
def deleteCommand (ks : Server) : List String → Server × Nat
  | [] => (ks, 0)
  | key :: keys =>
      let (after, deleted) := deleteCommand (ks.del key) keys
      (after, (if (ks.live key).isSome then 1 else 0) + deleted)

/-- `_INVALIDATE_TAG_SCRIPT`. -/
def invalidateTagScript (ks : Server) (tagKey : String) : Server × Except PyError Nat :=
  match ks.live tagKey with
  | some ⟨.text _, _⟩ => (ks, .error wrongType)
  | some ⟨.members members, _⟩ =>
      let (after, deleted) := deleteCommand ks members
      (after.del tagKey, .ok deleted)
  | none => (ks.del tagKey, .ok 0)

/-- `SyncCache.invalidate_tag`. -/
def Cache.invalidateTag (cache : Cache) (ks : Server) (tag : String) :
    Server × Except PyError Nat :=
  match cache.tagKey tag with
  | .error error => (ks, .error error)
  | .ok tagKey => invalidateTagScript ks tagKey

/-! ## The transition system -/

/-- A key that is the set of some tag. -/
def Cache.IsTagKey (cache : Cache) (key : String) : Prop := ∃ tag, cache.tagKey tag = .ok key

/-- A call with its outcome, or the time that passed before the next one. -/
inductive Call where
  | set (key : String) (tags : List String) (outcome : Except PyError Unit)
  | delete (keys : List String)
  | invalidateTag (tag : String) (outcome : Except PyError Nat)
  | tick (elapsed : Nat)

/-- One call of any client of the cache, on keys that are not tag sets. -/
inductive Cache.Step (cache : Cache) : Server → Call → Server → Prop where
  | set {ks after : Server} {outcome : Except PyError Unit} (key encoded : String)
      (ttlSeconds : Option Int) (tags : List String) (drawn : Int) :
      ¬cache.IsTagKey key →
      cache.set ks key encoded ttlSeconds tags drawn = (after, outcome) →
      Cache.Step cache ks (.set key tags outcome) after
  | delete {ks : Server} (keys : List String) :
      (∀ key ∈ keys, ¬cache.IsTagKey key) →
      Cache.Step cache ks (.delete keys) (deleteCommand ks keys).1
  | invalidateTag {ks after : Server} {outcome : Except PyError Nat} (tag : String) :
      cache.invalidateTag ks tag = (after, outcome) →
      Cache.Step cache ks (.invalidateTag tag outcome) after
  | tick {ks : Server} (elapsed : Nat) : Cache.Step cache ks (.tick elapsed) (ks.tick elapsed)

/-- The clients of one cache, on a server that starts out without keys. -/
def Cache.clients (cache : Cache) : System Server Call where
  init ks := ks = Keyspace.empty
  step := cache.Step

/-- The tags the latest `set` of a key listed. -/
def latestTags (key : String) : List Call → Option (List String)
  | [] => none
  | .set key' tags (.ok ()) :: history => if key' = key then some tags else latestTags key history
  | _ :: history => latestTags key history

end ProdkitStorage.Redis

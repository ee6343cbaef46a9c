import ProdkitStorage.Redis.Hits
import ProdkitStorage.Redis.KeyRoles

/-!
# Keys keep their roles

Runs of calls that build the keys of cached values from one family of parts and list
tags of one family.  Where the parts are separate, a key keeps its role along every
run: the key of a tag holds the set of the tag, the key of a lock the token of a call
that acquired this lock, and the key of a cached value a value that was stored under it.
`Holds` is an assertion about what each key holds, and one lemma for each kind of
command says what it takes to keep it.
-/

namespace ProdkitStorage.Redis

open ProdkitStorage.Foundation (Keyspace Entry System)
open ProdkitStorage.Python

variable {Value ι : Type}

/-! ## Assertions about what keys hold -/

/-- Whatever a key holds is allowed. -/
def Holds (allowed : String → Content → Prop) (ks : Server) : Prop :=
  ∀ key content, ks.get key = some content → allowed key content

variable {allowed : String → Content → Prop} {ks after : Server}

theorem Holds.mono {allowed' : String → Content → Prop} (h : Holds allowed ks)
    (himp : ∀ key content, allowed key content → allowed' key content) : Holds allowed' ks :=
  fun key content hcontent => himp key content (h key content hcontent)

theorem Holds.of_noNewContent (h : Holds allowed ks) (hafter : NoNewContent ks after) :
    Holds allowed after :=
  fun key content hcontent => h key content (hafter key content hcontent)

theorem Holds.setPx (h : Holds allowed ks) {key text : String} (htext : allowed key (.text text))
    (ttlMs : Nat) : Holds allowed (ks.setPx key (.text text) ttlMs) := by
  intro other content hcontent
  by_cases hother : other = key
  · rw [hother, Keyspace.get, Keyspace.live_setPx_self] at hcontent
    cases hcontent
    exact hother ▸ htext
  · rw [Keyspace.get, Keyspace.live_setPx_other _ _ _ hother] at hcontent
    exact h other content hcontent

theorem Holds.setEx (h : Holds allowed ks) {key text : String} (htext : allowed key (.text text))
    (seconds : Nat) : Holds allowed (ks.setEx key (.text text) seconds) := by
  intro other content hcontent
  by_cases hother : other = key
  · rw [hother, Keyspace.get, Keyspace.live_setEx_self] at hcontent
    cases hcontent
    exact hother ▸ htext
  · rw [Keyspace.get, Keyspace.live_setEx_other _ _ _ hother] at hcontent
    exact h other content hcontent

/-- A key may hold sets, and takes one more member. -/
structure TakesMember (allowed : String → Content → Prop) (tagKey member : String) : Prop where
  first : allowed tagKey (.members [member])
  more : ∀ members, allowed tagKey (.members members) →
    allowed tagKey (addMember member (.members members))

theorem Holds.sadd (h : Holds allowed ks) {tagKey member : String}
    (htakes : TakesMember allowed tagKey member) :
    Holds allowed ((Command.sadd tagKey member).run ks).1 := by
  unfold Command.run
  dsimp only
  split
  · exact h
  · next hnotText =>
      intro other content hcontent
      by_cases hother : other = tagKey
      · subst hother
        cases hlive : ks.live other with
        | none =>
            rw [Keyspace.get, Keyspace.live_upsert_absent _ _ hlive] at hcontent
            cases hcontent
            exact htakes.first
        | some entry =>
            obtain ⟨held, expireAt⟩ := entry
            rw [Keyspace.get, Keyspace.live_upsert_present _ _ hlive] at hcontent
            cases held with
            | text encoded => exact absurd hlive (hnotText encoded expireAt)
            | members members =>
                cases hcontent
                exact htakes.more members (h other _ (Keyspace.get_eq_some.mpr ⟨expireAt, hlive⟩))
      · rw [Keyspace.get, Keyspace.live_upsert_other _ _ _ hother] at hcontent
        exact h other content hcontent

/-- The commands for one tag set. -/
theorem Holds.tagged (h : Holds allowed ks) {tagKey key : String}
    (htakes : TakesMember allowed tagKey key) (seconds : Nat) :
    Holds allowed (((Command.run ks (.sadd tagKey key)).1.expireNx tagKey seconds).expireGt tagKey
      seconds) := by
  intro other content hcontent
  rw [Keyspace.get_expireGt, Keyspace.get_expireNx] at hcontent
  exact h.sadd htakes other content hcontent

/-- The commands for the tag sets of one `set`. -/
theorem Holds.tagCommands {key : String} {ttl : Nat} {tagKeys : List String}
    (htakes : ∀ tagKey ∈ tagKeys, TakesMember allowed tagKey key) (h : Holds allowed ks) :
    Holds allowed (execute ks (tagKeys.flatMap (tagCommands key ttl))).1 := by
  induction tagKeys generalizing ks with
  | nil => exact h
  | cons tagKey tagKeys ih =>
      exact ih (fun other hother => htakes other (List.mem_cons_of_mem _ hother))
        (h.tagged (htakes tagKey List.mem_cons_self) (ttl + 60))

/-- None of them finds a text under the key of a tag set. -/
theorem Holds.tagCommands_ok {key : String} {ttl : Nat} {tagKeys : List String}
    (htakes : ∀ tagKey ∈ tagKeys, TakesMember allowed tagKey key)
    (hsets : ∀ tagKey ∈ tagKeys, ∀ text, ¬allowed tagKey (.text text)) (h : Holds allowed ks) :
    (execute ks (tagKeys.flatMap (Redis.tagCommands key ttl))).2 = .ok () := by
  induction tagKeys generalizing ks with
  | nil => rfl
  | cons tagKey tagKeys ih =>
      have hrest := ih (fun other hother => htakes other (List.mem_cons_of_mem _ hother))
        (fun other hother => hsets other (List.mem_cons_of_mem _ hother))
        (h.tagged (htakes tagKey List.mem_cons_self) (ttl + 60))
      have hadded : (Command.run ks (.sadd tagKey key)).2 = none := by
        unfold Command.run
        dsimp only
        split
        · next encoded expireAt hlive =>
            exact absurd (h _ _ (Keyspace.get_eq_some.mpr ⟨expireAt, hlive⟩))
              (hsets tagKey List.mem_cons_self encoded)
        · rfl
      rw [List.flatMap_cons, Redis.tagCommands, List.cons_append, execute]
      dsimp only
      rw [hadded]
      exact hrest

/-! ## Runs on one family of keys -/

section
variable (cache : Cache) (parts : List String → Prop) (tags : String → Prop)

/-- A key of a cached value. -/
def IsCachedKey (key : String) : Prop :=
  ∃ p, parts p ∧ cache.keys.build cache.sha256Hex p = .ok key

/-- A key of the set of a tag. -/
def IsTagSetKey (key : String) : Prop := ∃ tag, tags tag ∧ cache.tagKey tag = .ok key

/-- A step on keys of the family. -/
def Uses (_ : CacheState ι Value) : Event ι Value → Prop
  | .store _ key _ listed _ => IsCachedKey cache parts key ∧ ∀ tag ∈ listed, tags tag
  | .read key _ => IsCachedKey cache parts key
  | .delete keys => ∀ key ∈ keys, IsCachedKey cache parts key
  | .invalidateTag tag _ => tags tag
  | _ => True

/-- Parts of cached values and tags whose keys have one role each. -/
structure SeparateFamily : Prop where
  cachedTag : ∀ p tag, parts p → tags tag → ¬TakesTagKey cache.sha256Hex cache.keys p tag
  cachedLock : ∀ p q, parts p → parts q → ¬TakesLockKey cache.sha256Hex cache.keys p q
  tagLock : ∀ q tag, parts q → tags tag → ¬TagTakesLockKey cache.keys q tag

/-- Keys of three roles. -/
structure KeysApart : Prop where
  cachedTag : ∀ key, IsCachedKey cache parts key → ¬IsTagSetKey cache tags key
  cachedLock : ∀ key lockedKey, IsCachedKey cache parts key → IsCachedKey cache parts lockedKey →
    key ≠ lockKeyOf lockedKey
  tagLock : ∀ lockedKey, IsCachedKey cache parts lockedKey →
    ¬IsTagSetKey cache tags (lockKeyOf lockedKey)

variable (codec : Codec Value) (calls : ι → GetOrSet)

/-- What a key holds, in its role. -/
structure InRole (h : List (Event ι Value)) (key : String) (content : Content) : Prop where
  tagSet : IsTagSetKey cache tags key →
    ∃ members, content = .members members ∧ ∀ member ∈ members, IsCachedKey cache parts member
  lock : ∀ lockedKey, IsCachedKey cache parts lockedKey → key = lockKeyOf lockedKey →
    ∃ i, (calls i).key = lockedKey ∧ content = .text (calls i).token ∧ Event.attempt i true ∈ h
  cached : IsCachedKey cache parts key →
    ∃ i value listed outcome encoded, Event.store i key value listed outcome ∈ h ∧
      codec.dumps value = .ok encoded ∧ content = .text encoded

end

section
variable {cache : Cache} {parts : List String → Prop} {tags : String → Prop} {codec : Codec Value}
  {calls : ι → GetOrSet} {h : List (Event ι Value)}

theorem SeparateFamily.keysApart (hhex : HexDigest cache.sha256Hex)
    (hsha : ∀ p tag, parts p → tags tag →
      cache.keys.Distinguishes cache.sha256Hex p ["tag", tag])
    (hseparate : SeparateFamily cache parts tags) : KeysApart cache parts tags where
  cachedTag key := by
    rintro ⟨p, hp, hkey⟩ ⟨tag, htag, htagKey⟩
    exact hseparate.cachedTag p tag hp htag
      ((cachedTag_iff hhex (hsha p tag hp htag) hkey htagKey).mp rfl)
  cachedLock key lockedKey := by
    rintro ⟨p, hp, hkey⟩ ⟨q, hq, hlocked⟩ heq
    exact hseparate.cachedLock p q hp hq ((cachedLock_iff hhex hkey hlocked).mp heq)
  tagLock lockedKey := by
    rintro ⟨q, hq, hlocked⟩ ⟨tag, htag, htagKey⟩
    exact hseparate.tagLock q tag hq htag ((tagLock_iff hhex hlocked htagKey).mp rfl)

theorem lockKeyOf_inj {key key' : String} (h : lockKeyOf key = lockKeyOf key') : key = key' := by
  have hlists := congrArg String.toList h
  rw [lockKeyOf, lockKeyOf, String.toList_append, String.toList_append] at hlists
  exact String.toList_inj.mp (List.append_cancel_right hlists)

theorem InRole.cons {key : String} {content : Content}
    (hrole : InRole cache parts tags codec calls h key content) (event : Event ι Value) :
    InRole cache parts tags codec calls (event :: h) key content where
  tagSet := hrole.tagSet
  lock lockedKey hlocked heq := by
    obtain ⟨i, hkey, hcontent, hattempt⟩ := hrole.lock lockedKey hlocked heq
    exact ⟨i, hkey, hcontent, List.mem_cons_of_mem _ hattempt⟩
  cached hkey := by
    obtain ⟨i, value, listed, outcome, encoded, hstore, hencoded⟩ := hrole.cached hkey
    exact ⟨i, value, listed, outcome, encoded, List.mem_cons_of_mem _ hstore, hencoded⟩

/-- Every key keeps its role. -/
abbrev RolesKept (cache : Cache) (parts : List String → Prop) (tags : String → Prop)
    (codec : Codec Value) (calls : ι → GetOrSet) (h : List (Event ι Value)) (ks : Server) : Prop :=
  Holds (InRole cache parts tags codec calls h) ks

/-- A step that writes nothing. -/
theorem RolesKept.cons {ks after : Server} (hs : RolesKept cache parts tags codec calls h ks)
    (hafter : NoNewContent ks after) (event : Event ι Value) :
    RolesKept cache parts tags codec calls (event :: h) after :=
  (hs.of_noNewContent hafter).mono fun _ _ hrole => hrole.cons event

theorem RolesKept.attempt {ks after : Server} (hs : RolesKept cache parts tags codec calls h ks)
    (hapart : KeysApart cache parts tags) {i : ι} (hcall : IsCachedKey cache parts (calls i).key)
    {lock : Lock.RedisLock} (hlock : (calls i).lock = .ok lock) {acquired : Bool}
    (hset : setNxCommand ks lock.key lock.token lock.ttlMs.toNat = (after, acquired)) :
    RolesKept cache parts tags codec calls (.attempt i acquired :: h) after := by
  obtain ⟨hlockKey, htoken, -⟩ := GetOrSet.lock_ok hlock
  cases hlive : ks.live lock.key with
  | some entry =>
      rw [setNxCommand_present hlive] at hset
      cases hset
      exact hs.cons (.refl ks) _
  | none =>
      rw [setNxCommand_absent hlive] at hset
      cases hset
      refine Holds.setPx (hs.cons (.refl ks) _) ?_ _
      rw [hlockKey, htoken]
      refine ⟨fun htag => absurd htag (hapart.tagLock _ hcall), ?_, fun hkey =>
        absurd rfl (hapart.cachedLock _ _ hkey hcall)⟩
      intro lockedKey _ heq
      exact ⟨i, lockKeyOf_inj heq, rfl, List.mem_cons_self⟩

/-- The keys of the tags a `set` lists. -/
theorem isTagSetKey_of_mapM {listed tagKeys : List String}
    (h : listed.mapM cache.tagKey = .ok tagKeys)
    (hlisted : ∀ tag ∈ listed, tags tag) : ∀ tagKey ∈ tagKeys, IsTagSetKey cache tags tagKey := by
  induction listed generalizing tagKeys with
  | nil =>
      cases h
      exact fun _ hmem => absurd hmem List.not_mem_nil
  | cons tag listed ih =>
      rw [List.mapM_cons] at h
      obtain ⟨first, hfirst, h⟩ := bind_eq_ok.mp h
      obtain ⟨rest, hrest, h⟩ := bind_eq_ok.mp h
      cases h
      intro tagKey hmem
      rcases List.mem_cons.mp hmem with rfl | hmem
      · exact ⟨tag, hlisted tag List.mem_cons_self, hfirst⟩
      · exact ih hrest (fun other hother => hlisted other (List.mem_cons_of_mem _ hother)) tagKey
          hmem

/-- The key of a tag takes cached keys as members, and no text. -/
theorem InRole.takesMember (hapart : KeysApart cache parts tags) {tagKey key : String}
    (htagSet : IsTagSetKey cache tags tagKey) (hkey : IsCachedKey cache parts key) :
    TakesMember (InRole cache parts tags codec calls h) tagKey key := by
  have hmembers : ∀ members, (∀ member ∈ members, IsCachedKey cache parts member) →
      InRole cache parts tags codec calls h tagKey (.members members) := by
    intro members hmembers
    refine ⟨fun _ => ⟨members, rfl, hmembers⟩, ?_, fun hcached =>
      absurd htagSet (hapart.cachedTag _ hcached)⟩
    rintro lockedKey hlocked rfl
    exact absurd htagSet (hapart.tagLock _ hlocked)
  constructor
  · refine hmembers _ fun member hmember => ?_
    rw [List.mem_singleton.mp hmember]
    exact hkey
  · intro members hrole
    obtain ⟨members', heq, hcached⟩ := hrole.tagSet htagSet
    cases heq
    refine hmembers _ fun member hmember => ?_
    split at hmember
    · exact hcached member hmember
    · rcases List.mem_cons.mp hmember with rfl | hmember
      · exact hkey
      · exact hcached member hmember

theorem InRole.not_text {tagKey : String} (htagSet : IsTagSetKey cache tags tagKey)
    (text : String) : ¬InRole cache parts tags codec calls h tagKey (.text text) := by
  intro hrole
  obtain ⟨members, heq, -⟩ := hrole.tagSet htagSet
  cases heq

/-- A value that is stored under the key of a cached value. -/
theorem InRole.stored (hapart : KeysApart cache parts tags) {key : String}
    (hkey : IsCachedKey cache parts key) {value : Value} {encoded : String}
    (hencoded : codec.dumps value = .ok encoded) (i : Option ι) (listed : List String)
    (outcome : Except PyError Unit) :
    InRole cache parts tags codec calls (.store i key value listed outcome :: h) key
      (.text encoded) where
  tagSet htag := absurd htag (hapart.cachedTag _ hkey)
  lock _ hlocked heq := absurd heq (hapart.cachedLock _ _ hkey hlocked)
  cached _ := ⟨i, value, listed, outcome, encoded, List.mem_cons_self, hencoded, rfl⟩

theorem RolesKept.store {ks after : Server} (hs : RolesKept cache parts tags codec calls h ks)
    (hapart : KeysApart cache parts tags) {key : String} (hkey : IsCachedKey cache parts key)
    {listed : List String} (hlisted : ∀ tag ∈ listed, tags tag) {value : Value}
    {ttlSeconds : Option Int} {drawn : Int} {pipe : List Command}
    (hprepare : cache.prepare codec key value ttlSeconds listed drawn = .ok pipe)
    {outcome : Except PyError Unit} (hexecute : execute ks pipe = (after, outcome)) (i : Option ι) :
    RolesKept cache parts tags codec calls (.store i key value listed outcome :: h) after ∧
      outcome = .ok () := by
  obtain ⟨ttl, encoded, tagKeys, hencoded, htagKeys, rfl⟩ := Cache.prepare_ok hprepare
  have htagSets := isTagSetKey_of_mapM htagKeys hlisted
  have hset := Holds.setEx (hs.cons (.refl ks) (.store i key value listed outcome))
    (InRole.stored hapart hkey hencoded i listed outcome) ttl
  have htakes : ∀ tagKey ∈ tagKeys, TakesMember (InRole cache parts tags codec calls
      (.store i key value listed outcome :: h)) tagKey key :=
    fun tagKey hmem => InRole.takesMember hapart (htagSets tagKey hmem) hkey
  constructor
  · have hafter : (execute (ks.setEx key (.text encoded) ttl)
        (tagKeys.flatMap (tagCommands key ttl))).1 = after := congrArg Prod.fst hexecute
    exact hafter ▸ Holds.tagCommands htakes hset
  · have houtcome : (execute (ks.setEx key (.text encoded) ttl)
        (tagKeys.flatMap (tagCommands key ttl))).2 = outcome := congrArg Prod.snd hexecute
    exact houtcome ▸ Holds.tagCommands_ok htakes
      (fun tagKey hmem => InRole.not_text (htagSets tagKey hmem)) hset

variable [DecidableEq ι]

/-- In every run on separate keys every key keeps its role. -/
theorem reaches_rolesKept (hapart : KeysApart cache parts tags)
    (hcalls : ∀ i, IsCachedKey cache parts (calls i).key) {s : CacheState ι Value}
    (hr : ((cacheCalls cache codec calls Keyspace.empty).under (Uses cache parts tags)).Reaches h
      s) : RolesKept cache parts tags codec calls h s.server := by
  refine hr.invariant (I := fun h s => RolesKept cache parts tags codec calls h s.server) ?_ ?_
  · rintro s ⟨hserver, -⟩ key content hcontent
    rw [hserver] at hcontent
    cases hcontent
  · rintro h s event t _ hs ⟨hstep, huses⟩
    cases hstep with
    | look i clock => exact hs.cons (.refl _) _
    | attempt i clock clock' _ hlock hset => exact hs.attempt hapart (hcalls i) hlock hset
    | recheck i => exact hs.cons (.refl _) _
    | load i outcome => exact hs.cons (.refl _) _
    | refuse i drawn => exact hs.cons (.refl _) _
    | store i drawn _ hprepare hexecute =>
        exact (hs.store hapart huses.1 huses.2 hprepare hexecute (some i)).1
    | @release outcome lock server reply i _ _ hrelease =>
        refine hs.cons ?_ _
        have hserver : (releaseCommand s.server lock.key lock.token).1 = server :=
          congrArg Prod.fst hrelease
        rw [CacheState.move_server, ← hserver]
        exact noNewContent_release s.server lock.key lock.token
    | read key => exact hs.cons (.refl _) _
    | refuseSet key value ttlSeconds listed drawn => exact hs.cons (.refl _) _
    | set key value ttlSeconds listed drawn hprepare hexecute =>
        exact (hs.store hapart huses.1 huses.2 hprepare hexecute none).1
    | delete keys => exact hs.cons (noNewContent_delete s.server keys) _
    | invalidateTag tag hcall => exact hs.cons (noNewContent_invalidateTag hcall) _
    | tick elapsed => exact hs.cons (noNewContent_tick s.server elapsed) _

/-- What the commands of a cache get to see, where every key keeps its role. -/
structure ServedInRole (cache : Cache) (parts : List String → Prop) (tags : String → Prop)
    (codec : Codec Value) (calls : ι → GetOrSet) (ks : Server) : Prop where
  /-- No lookup finds a set. -/
  looked : ∀ key, IsCachedKey cache parts key → getCommand ks key ≠ .error wrongType
  /-- No `set` finds a text where a tag set belongs. -/
  stored : ∀ key value ttlSeconds listed drawn pipe, IsCachedKey cache parts key →
    (∀ tag ∈ listed, tags tag) →
    cache.prepare codec key value ttlSeconds listed drawn = .ok pipe → (execute ks pipe).2 = .ok ()
  /-- Nor does an invalidation. -/
  invalidated : ∀ tag tagKey, tags tag → cache.tagKey tag = .ok tagKey →
    ∃ deleted, (cache.invalidateTag ks tag).2 = .ok deleted
  /-- A lock is held by a call for the same key. -/
  locked : ∀ i content, ks.get (calls i).lockKey = some content →
    ∃ j, (calls j).key = (calls i).key ∧ content = .text (calls j).token

omit [DecidableEq ι] in
theorem RolesKept.served {ks : Server} (hs : RolesKept cache parts tags codec calls h ks)
    (hapart : KeysApart cache parts tags) (hcalls : ∀ i, IsCachedKey cache parts (calls i).key) :
    ServedInRole cache parts tags codec calls ks where
  looked key hkey := by
    cases hlive : ks.live key with
    | none =>
        rw [getCommand_absent hlive]
        exact fun heq => by cases heq
    | some entry =>
        obtain ⟨content, expireAt⟩ := entry
        obtain ⟨_, _, _, _, encoded, _, _, rfl⟩ :=
          (hs key content (Keyspace.get_eq_some.mpr ⟨expireAt, hlive⟩)).cached hkey
        rw [getCommand_text (Keyspace.get_eq_some.mpr ⟨expireAt, hlive⟩)]
        exact fun heq => by cases heq
  stored key value ttlSeconds listed drawn pipe hkey hlisted hprepare := by
    exact (hs.store hapart hkey hlisted hprepare Prod.mk.eta.symm none).2
  invalidated tag tagKey htag htagKey := by
    rw [Cache.invalidateTag, htagKey]
    dsimp only [invalidateTagScript]
    split
    · next encoded expireAt hlive =>
        exact absurd (hs _ _ (Keyspace.get_eq_some.mpr ⟨expireAt, hlive⟩))
          (InRole.not_text ⟨tag, htag, htagKey⟩ encoded)
    · exact ⟨_, rfl⟩
    · exact ⟨_, rfl⟩
  locked i content hcontent := by
    obtain ⟨j, hkey, hcontent', -⟩ := (hs _ content hcontent).lock _ (hcalls i) rfl
    exact ⟨j, hkey, hcontent'⟩

/-- Keys of three roles are different exactly when their parts are separate; and in every run on
separate keys every key keeps its role. -/
theorem key_roles (hhex : HexDigest cache.sha256Hex)
    (hsha : ∀ p tag, parts p → tags tag →
      cache.keys.Distinguishes cache.sha256Hex p ["tag", tag]) :
    (∀ p q tag key lockedKey tagKey, parts p → parts q → tags tag →
      cache.keys.build cache.sha256Hex p = .ok key →
      cache.keys.build cache.sha256Hex q = .ok lockedKey → cache.tagKey tag = .ok tagKey →
      (RolesApart key tagKey (lockKeyOf lockedKey) ↔
        Separate cache.sha256Hex cache.keys p q tag)) ∧
    (SeparateFamily cache parts tags → (∀ i, IsCachedKey cache parts (calls i).key) →
      ∀ (h : List (Event ι Value)) s,
        ((cacheCalls cache codec calls Keyspace.empty).under (Uses cache parts tags)).Reaches h s →
        RolesKept cache parts tags codec calls h s.server ∧
          ServedInRole cache parts tags codec calls s.server) := by
  constructor
  · intro p q tag key lockedKey tagKey hp _ htag hkey hlocked htagKey
    exact rolesApart_iff hhex (hsha p tag hp htag) hkey hlocked htagKey
  · intro hseparate hcalls h s hr
    have hapart := hseparate.keysApart hhex hsha
    have hkept := reaches_rolesKept hapart hcalls hr
    exact ⟨hkept, hkept.served hapart hcalls⟩

end

/-! ### Two tags -/

/-- A digest of 64 digits. -/
def zeroDigest (_ : String) : String := String.ofList (List.replicate 64 '0')

theorem length_zeros (n : Nat) : (String.ofList (List.replicate n '0')).length = n := by simp

theorem digits_zeroDigest (text : String) :
    ∀ c ∈ (zeroDigest text).toList, c ∈ "0123456789abcdef".toList := by
  intro c hc
  have hzero : c = '0' := by
    unfold zeroDigest at hc
    simpa using hc
  rw [hzero]
  decide

theorem hexDigest_zeroDigest : HexDigest zeroDigest where
  length _ := length_zeros 64
  digits := digits_zeroDigest

/-- A cache with that digest. -/
def digestCache : Cache := { sampleCache with sha256Hex := zeroDigest }

/-- The parts of one user. -/
def userParts (p : List String) : Prop := p = ["user", "7"]

/-- The tag of all users. -/
def usersTag (tag : String) : Prop := tag = "users"

theorem separate_user : SeparateFamily digestCache userParts usersTag where
  cachedTag := by
    rintro p tag rfl rfl htakes
    cases htakes with
    | same hparts => exact absurd hparts (by decide)
    | digest hfits hlong hparts => exact hlong (by decide)
  cachedLock := by
    rintro p q rfl rfl htakes
    cases htakes with
    | longer hfits hparts => exact absurd hparts (by decide)
    | digest hfits hlong hparts => exact hlong hfits
  tagLock := by
    rintro q tag rfl rfl htakes
    exact absurd htakes.parts (by decide)

/-- One call for the user. -/
def userCall (_ : Unit) : GetOrSet where
  key := "app:v1:user:7"
  tags := ["users"]
  token := "a"

/-- A value of the user is stored, under the tag of all users. -/
theorem key_roles_user :
    RolesApart "app:v1:user:7" "app:v1:tag:users" (lockKeyOf "app:v1:user:7") ∧
      ∃ s, ((cacheCalls digestCache textCodec userCall Keyspace.empty).under
        (Uses digestCache userParts usersTag)).Reaches
          [.store none "app:v1:user:7" "v" ["users"] (.ok ())] s ∧
        ServedInRole digestCache userParts usersTag textCodec userCall s.server := by
  have hkey : digestCache.keys.build digestCache.sha256Hex ["user", "7"] = .ok "app:v1:user:7" := by
    decide
  have htag : digestCache.tagKey "users" = .ok "app:v1:tag:users" := by decide
  have hcached : IsCachedKey digestCache userParts "app:v1:user:7" := ⟨_, rfl, hkey⟩
  have hsha : ∀ p tag, userParts p → usersTag tag →
      digestCache.keys.Distinguishes digestCache.sha256Hex p ["tag", tag] := by
    rintro p tag rfl rfl hlong
    exact absurd (by decide) hlong
  have httl : digestCache.ttl none 0 = .ok 300 := by decide
  have hprepare : digestCache.prepare textCodec "app:v1:user:7" "v" none ["users"] 0 =
      .ok (setPipeline "app:v1:user:7" "v" 300 ["app:v1:tag:users"]) := by
    simp [Cache.prepare, httl, htag, textCodec]
  obtain ⟨hiff, hruns⟩ := @key_roles _ _ digestCache userParts usersTag textCodec userCall _
    hexDigest_zeroDigest hsha
  constructor
  · refine (hiff _ _ _ _ _ _ rfl rfl rfl hkey hkey htag).mpr ⟨?_, ?_, ?_⟩
    · exact separate_user.cachedTag _ _ rfl rfl
    · exact separate_user.cachedLock _ _ rfl rfl
    · exact separate_user.tagLock _ _ rfl rfl
  · have hstart : ((cacheCalls digestCache textCodec userCall Keyspace.empty).under
        (Uses digestCache userParts usersTag)).Reaches [] ⟨Keyspace.empty, fun _ => .idle⟩ :=
      .init ⟨rfl, fun _ => rfl⟩
    have hset := hstart.step
      ⟨.set "app:v1:user:7" "v" none ["users"] 0 hprepare rfl, hcached, by simp [usersTag]⟩
    exact ⟨_, hset, (hruns separate_user (fun _ => hcached) _ _ hset).2⟩

/-- `build("tag", "x")` is `tag("x")`, `build("a", "lock")` is the lock of `build("a")`, and
`tag("lock")` the lock of `build("tag")`. -/
theorem roles_collide :
    (¬∀ p q tag key lockedKey tagKey, digestCache.keys.build zeroDigest p = .ok key →
      digestCache.keys.build zeroDigest q = .ok lockedKey → digestCache.tagKey tag = .ok tagKey →
        key ≠ tagKey) ∧
    (¬∀ p q tag key lockedKey tagKey, digestCache.keys.build zeroDigest p = .ok key →
      digestCache.keys.build zeroDigest q = .ok lockedKey → digestCache.tagKey tag = .ok tagKey →
        key ≠ lockKeyOf lockedKey) ∧
    ¬∀ p q tag key lockedKey tagKey, digestCache.keys.build zeroDigest p = .ok key →
      digestCache.keys.build zeroDigest q = .ok lockedKey → digestCache.tagKey tag = .ok tagKey →
        tagKey ≠ lockKeyOf lockedKey := by
  have hx : digestCache.keys.build zeroDigest ["tag", "x"] = .ok "app:v1:tag:x" := by decide
  have hlock : digestCache.tagKey "lock" = .ok "app:v1:tag:lock" := by decide
  have ha : digestCache.keys.build zeroDigest ["a"] = .ok "app:v1:a" := by decide
  have halock : digestCache.keys.build zeroDigest ["a", "lock"] = .ok "app:v1:a:lock" := by decide
  have htag : digestCache.keys.build zeroDigest ["tag"] = .ok "app:v1:tag" := by decide
  refine ⟨fun hapart => ?_, fun hapart => ?_, fun hapart => ?_⟩
  · exact hapart _ _ "x" _ _ _ hx ha hx rfl
  · exact hapart _ _ _ _ _ _ halock ha hlock (by decide)
  · exact hapart _ _ _ _ _ _ ha htag hlock (by decide)

end ProdkitStorage.Redis

import ProdkitStorage.Redis.Cache

/-!
# Tag invalidation misses nothing

A tag set `Covers` a key until an instant when it lists the key and expires no
earlier.  `Coverage` says that every live entry is covered, until a minute after
it expires, by the set of every tag its latest `set` listed.

`touchTag` is what the three commands of a pipeline make of one tag set: it gains
the key, and its expiry becomes the later of its own and the new one, so what it
covered stays covered.  The clock cannot take a tag set away before the entries
it covers, and an invalidation that drops a set drops its members with it.
-/

namespace ProdkitStorage.Redis

open ProdkitStorage.Foundation (Keyspace Entry System)
open ProdkitStorage.Foundation.Keyspace
open ProdkitStorage.Python

/-! ## Commands on the keyspace -/

theorem deleteCommand_server (ks : Server) (keys : List String) :
    (deleteCommand ks keys).1 = ks.delAll keys := by
  induction keys generalizing ks with
  | nil => rfl
  | cons key keys ih => exact ih (ks.del key)

/-- What `set` does to the set of one tag. -/
def touchTag (key : String) (ttl : Nat) (ks : Server) (tagKey : String) : Server :=
  (ks.upsert tagKey (.members [key]) (addMember key)).extend tagKey (ttl + 60)

@[simp] theorem now_touchTag (key : String) (ttl : Nat) (ks : Server) (tagKey : String) :
    (touchTag key ttl ks tagKey).now = ks.now := by
  simp [touchTag]

theorem live_touchTag_other {key : String} {ttl : Nat} {ks : Server} {tagKey other : String}
    (h : other ≠ tagKey) : (touchTag key ttl ks tagKey).live other = ks.live other := by
  rw [touchTag, live_extend_other _ _ h, live_upsert_other _ _ _ h]

/-- An absent set is created with the key as its member. -/
theorem live_touchTag_absent {key : String} {ttl : Nat} {ks : Server} {tagKey : String}
    (h : ks.live tagKey = none) :
    (touchTag key ttl ks tagKey).live tagKey =
      some ⟨.members [key], some (ks.after (ttl + 60))⟩ := by
  have hcreated := live_upsert_absent (.members [key]) (addMember key) h
  rw [touchTag, live_extend_none _ hcreated]
  simp [after]

/-- A set that is there gains the key and keeps the later expiry. -/
theorem live_touchTag_present {key : String} {ttl : Nat} {ks : Server} {tagKey : String}
    {members : List String} {expireAt : Nat}
    (h : ks.live tagKey = some ⟨.members members, some expireAt⟩) :
    (touchTag key ttl ks tagKey).live tagKey =
      some ⟨.members (if key ∈ members then members else key :: members),
        some (max expireAt (ks.after (ttl + 60)))⟩ := by
  have hadded := live_upsert_present (.members [key]) (addMember key) h
  rw [touchTag, live_extend_some _ hadded]
  simp [after, addMember]

/-! ## Tag sets -/

variable {cache : Cache}

/-- The keys of tags hold sets that expire and list no keys of tags. -/
def TagSets (cache : Cache) (ks : Server) : Prop :=
  ∀ tagKey entry, cache.IsTagKey tagKey → ks.live tagKey = some entry →
    ∃ members expireAt, entry = ⟨.members members, some expireAt⟩ ∧
      ∀ member ∈ members, ¬cache.IsTagKey member

/-- The set `tagKey` lists `key` and stays at least until `deadline`. -/
def Covers (ks : Server) (tagKey key : String) (deadline : Nat) : Prop :=
  ∃ members expireAt, ks.live tagKey = some ⟨.members members, some expireAt⟩ ∧
    key ∈ members ∧ deadline ≤ expireAt

theorem touchTag_tagSets {key : String} (ttl : Nat) {ks : Server} (tagKey : String)
    (hkey : ¬cache.IsTagKey key) (hsets : TagSets cache ks) :
    TagSets cache (touchTag key ttl ks tagKey) := by
  intro other entry hother hlive
  by_cases h : other = tagKey
  · subst h
    cases hbefore : ks.live other with
    | none =>
        rw [live_touchTag_absent hbefore] at hlive
        obtain rfl := Option.some.inj hlive
        exact ⟨[key], _, rfl, by simpa using hkey⟩
    | some before =>
        obtain ⟨members, expireAt, rfl, hmembers⟩ := hsets other before hother hbefore
        rw [live_touchTag_present hbefore] at hlive
        obtain rfl := Option.some.inj hlive
        refine ⟨_, _, rfl, ?_⟩
        intro member hmember
        split at hmember
        · exact hmembers member hmember
        · rcases List.mem_cons.mp hmember with rfl | hmember
          · exact hkey
          · exact hmembers member hmember
  · rw [live_touchTag_other h] at hlive
    exact hsets other entry hother hlive

/-- What a set covered stays covered. -/
theorem touchTag_covers {key : String} {ttl : Nat} {ks : Server} {tagKey tagKey' key' : String}
    {deadline : Nat} (h : Covers ks tagKey' key' deadline) :
    Covers (touchTag key ttl ks tagKey) tagKey' key' deadline := by
  obtain ⟨members, expireAt, hlive, hmember, hle⟩ := h
  by_cases htag : tagKey' = tagKey
  · subst htag
    refine ⟨_, _, live_touchTag_present hlive, ?_, Nat.le_trans hle (Nat.le_max_left _ _)⟩
    split
    · exact hmember
    · exact List.mem_cons_of_mem _ hmember
  · exact ⟨members, expireAt, (live_touchTag_other htag).trans hlive, hmember, hle⟩

theorem touchTag_covers_self {key : String} {ttl : Nat} {ks : Server} {tagKey : String}
    (hsets : TagSets cache ks) (htag : cache.IsTagKey tagKey) :
    Covers (touchTag key ttl ks tagKey) tagKey key (ks.after (ttl + 60)) := by
  cases hbefore : ks.live tagKey with
  | none =>
      exact ⟨_, _, live_touchTag_absent hbefore, List.mem_singleton_self key, Nat.le_refl _⟩
  | some before =>
      obtain ⟨members, expireAt, rfl, -⟩ := hsets tagKey before htag hbefore
      refine ⟨_, _, live_touchTag_present hbefore, ?_, Nat.le_max_right _ _⟩
      split
      · assumption
      · exact List.mem_cons_self ..

/-- What the commands of a pipeline leave, after the value was set. -/
structure Touched (cache : Cache) (key : String) (ttl : Nat) (tagKeys : List String)
    (ks after : Server) : Prop where
  tagSets : TagSets cache after
  covers : ∀ tagKey ∈ tagKeys, Covers after tagKey key (ks.after (ttl + 60))
  keeps : ∀ tagKey' key' deadline, Covers ks tagKey' key' deadline →
    Covers after tagKey' key' deadline
  frame : ∀ other, ¬cache.IsTagKey other → after.live other = ks.live other

theorem touched_foldl {key : String} {ttl : Nat} {tagKeys : List String}
    (hkey : ¬cache.IsTagKey key) (htags : ∀ tagKey ∈ tagKeys, cache.IsTagKey tagKey) :
    ∀ {ks : Server}, TagSets cache ks →
      Touched cache key ttl tagKeys ks (tagKeys.foldl (touchTag key ttl) ks) := by
  induction tagKeys with
  | nil =>
      intro ks hsets
      exact ⟨hsets, by simp, fun _ _ _ h => h, fun _ _ => rfl⟩
  | cons tagKey tagKeys ih =>
      intro ks hsets
      have htag := htags tagKey List.mem_cons_self
      have hrest := ih (fun tagKey' h => htags tagKey' (List.mem_cons_of_mem _ h))
        (touchTag_tagSets ttl tagKey hkey hsets)
      have hafter : (touchTag key ttl ks tagKey).after (ttl + 60) = ks.after (ttl + 60) := by
        simp [after]
      refine ⟨hrest.tagSets, ?_, ?_, ?_⟩
      · intro tagKey' hmem
        rcases List.mem_cons.mp hmem with rfl | hmem
        · exact hrest.keeps _ _ _ (touchTag_covers_self hsets htag)
        · exact hafter ▸ hrest.covers tagKey' hmem
      · intro tagKey' key' deadline h
        exact hrest.keeps _ _ _ (touchTag_covers h)
      · intro other hother
        have hne : other ≠ tagKey := fun h => hother (h ▸ htag)
        rw [List.foldl_cons, hrest.frame other hother, live_touchTag_other hne]

/-- The tag commands of a pipeline raise nothing and touch one set after the other. -/
theorem execute_tagCommands {key : String} (ttl : Nat) {tagKeys : List String}
    (hkey : ¬cache.IsTagKey key) (htags : ∀ tagKey ∈ tagKeys, cache.IsTagKey tagKey) :
    ∀ {ks : Server}, TagSets cache ks →
      execute ks (tagKeys.flatMap (tagCommands key ttl)) =
        (tagKeys.foldl (touchTag key ttl) ks, .ok ()) := by
  induction tagKeys with
  | nil => intro ks _; rfl
  | cons tagKey tagKeys ih =>
      intro ks hsets
      have htag := htags tagKey List.mem_cons_self
      have hsadd : (Command.sadd tagKey key).run ks =
          (ks.upsert tagKey (.members [key]) (addMember key), none) := by
        cases hlive : ks.live tagKey with
        | none => simp [Command.run, hlive]
        | some entry =>
            obtain ⟨members, expireAt, rfl, -⟩ := hsets tagKey entry htag hlive
            simp [Command.run, hlive]
      have hrest := ih (fun tagKey' h => htags tagKey' (List.mem_cons_of_mem _ h))
        (touchTag_tagSets ttl tagKey hkey hsets)
      rw [List.flatMap_cons, List.foldl_cons, ← hrest, tagCommands, List.cons_append, execute,
        hsadd]
      rfl

/-! ## Calls of the cache -/

/-- Every tag of a `set` has a key, and the pipeline touches exactly these. -/
theorem mapM_tagKey {tags tagKeys : List String} (h : tags.mapM cache.tagKey = .ok tagKeys) :
    (∀ tag ∈ tags, ∃ tagKey ∈ tagKeys, cache.tagKey tag = .ok tagKey) ∧
      ∀ tagKey ∈ tagKeys, cache.IsTagKey tagKey := by
  induction tags generalizing tagKeys with
  | nil =>
      obtain rfl : [] = tagKeys := by simpa using h
      simp
  | cons tag tags ih =>
      rw [List.mapM_cons] at h
      obtain ⟨tagKey, htag, h⟩ := bind_eq_ok.mp h
      obtain ⟨rest, hrest, h⟩ := bind_eq_ok.mp h
      obtain rfl := Except.ok.inj h
      obtain ⟨htags, hkeys⟩ := ih hrest
      refine ⟨?_, ?_⟩
      · intro tag' hmem
        rcases List.mem_cons.mp hmem with rfl | hmem
        · exact ⟨tagKey, List.mem_cons_self, htag⟩
        · obtain ⟨tagKey', hmem', h⟩ := htags tag' hmem
          exact ⟨tagKey', List.mem_cons_of_mem _ hmem', h⟩
      · intro tagKey' hmem
        rcases List.mem_cons.mp hmem with rfl | hmem
        · exact ⟨tag, htag⟩
        · exact hkeys tagKey' hmem

theorem setEx_tagSets {ks : Server} {key : String} (hkey : ¬cache.IsTagKey key)
    (hsets : TagSets cache ks) (encoded : String) (ttl : Nat) :
    TagSets cache (ks.setEx key (.text encoded) ttl) := by
  intro tagKey entry htag hlive
  rw [live_setEx_other _ _ _ (fun he : tagKey = key => hkey (he ▸ htag))] at hlive
  exact hsets tagKey entry htag hlive

/-- A `set` raises and changes nothing, or runs its pipeline to the end. -/
theorem set_cases {ks after : Server} {outcome : Except PyError Unit} {key encoded : String}
    {ttlSeconds : Option Int} {tags : List String} {drawn : Int} (hkey : ¬cache.IsTagKey key)
    (hsets : TagSets cache ks)
    (h : cache.set ks key encoded ttlSeconds tags drawn = (after, outcome)) :
    (after = ks ∧ ∃ error, outcome = .error error) ∨
      outcome = .ok () ∧ ∃ ttl : Nat, ∃ tagKeys, tags.mapM cache.tagKey = .ok tagKeys ∧
        Touched cache key ttl tagKeys (ks.setEx key (.text encoded) ttl) after := by
  unfold Cache.set at h
  simp only at h
  split at h
  · obtain ⟨rfl, rfl⟩ := Prod.mk.inj h
    exact .inl ⟨rfl, _, rfl⟩
  · rename_i pipe hpipe
    obtain ⟨ttl, -, hpipe⟩ := bind_eq_ok.mp hpipe
    obtain ⟨tagKeys, htags, hpipe⟩ := bind_eq_ok.mp hpipe
    obtain rfl := Except.ok.inj hpipe
    have hkeys := (mapM_tagKey htags).2
    have hset := setEx_tagSets hkey hsets encoded ttl.toNat
    have hexecute := execute_tagCommands ttl.toNat hkey hkeys hset
    rw [setPipeline, execute] at h
    simp only [Command.run, hexecute, Prod.mk.injEq] at h
    obtain ⟨rfl, rfl⟩ := h
    exact .inr ⟨rfl, ttl.toNat, tagKeys, htags, touched_foldl hkey hkeys hset⟩

/-- An invalidation raises and changes nothing, or drops the set of the tag and its members. -/
theorem invalidateTag_cases {ks after : Server} {outcome : Except PyError Nat} {tag : String}
    (hsets : TagSets cache ks) (h : cache.invalidateTag ks tag = (after, outcome)) :
    (after = ks ∧ ∃ error, cache.tagKey tag = .error error) ∨
      ∃ tagKey members, cache.tagKey tag = .ok tagKey ∧
        (∀ member ∈ members, ¬cache.IsTagKey member) ∧
        after = (ks.delAll members).del tagKey ∧
        ∀ key deadline, Covers ks tagKey key deadline → key ∈ members := by
  unfold Cache.invalidateTag at h
  split at h
  · rename_i error herror
    obtain ⟨rfl, rfl⟩ := Prod.mk.inj h
    exact .inl ⟨rfl, error, herror⟩
  · rename_i tagKey htagKey
    refine .inr ⟨tagKey, ?_⟩
    cases hlive : ks.live tagKey with
    | none =>
        simp only [invalidateTagScript, hlive, Prod.mk.injEq] at h
        refine ⟨[], htagKey, by simp, h.1.symm, ?_⟩
        rintro key deadline ⟨members, expireAt, hcovered, -⟩
        rw [hlive] at hcovered
        cases hcovered
    | some entry =>
        obtain ⟨members, expireAt, rfl, hmembers⟩ := hsets tagKey entry ⟨tag, htagKey⟩ hlive
        simp only [invalidateTagScript, hlive, Prod.mk.injEq, deleteCommand_server] at h
        refine ⟨members, htagKey, hmembers, h.1.symm, ?_⟩
        rintro key deadline ⟨members', expireAt', hcovered, hmem, -⟩
        rw [hlive] at hcovered
        simp only [Option.some.injEq, Entry.mk.injEq, Content.members.injEq] at hcovered
        exact hcovered.1 ▸ hmem

/-! ## The invariant -/

/-- Every live entry is covered by the sets of the tags its latest `set` listed. -/
structure Coverage (cache : Cache) (history : List Call) (ks : Server) : Prop where
  tagSets : TagSets cache ks
  cached : ∀ key tags, latestTags key history = some tags → ¬cache.IsTagKey key
  covered : ∀ key tags entry, latestTags key history = some tags → ks.live key = some entry →
    ∃ deadline, entry.expireAt = some deadline ∧ ∀ tag ∈ tags,
      ∃ tagKey, cache.tagKey tag = .ok tagKey ∧ Covers ks tagKey key (deadline + 60000)

theorem coverage_empty (cache : Cache) : Coverage cache [] Keyspace.empty where
  tagSets tagKey entry _ h := by simp [Keyspace.live, Keyspace.empty] at h
  cached key tags h := by cases h
  covered key tags entry h := by cases h

/-- A call other than a successful `set` leaves the latest tags as they were. -/
theorem Coverage.forget {history : List Call} {ks after : Server} {call : Call}
    (h : Coverage cache history ks) (hcall : ∀ key, latestTags key (call :: history) =
      latestTags key history) (hsets : TagSets cache after)
    (hcovered : ∀ key tags entry, latestTags key history = some tags → after.live key = some entry →
      ks.live key = some entry ∧ ∀ tag ∈ tags, ∀ tagKey, cache.tagKey tag = .ok tagKey →
        ∀ deadline, entry.expireAt = some deadline → Covers ks tagKey key (deadline + 60000) →
          Covers after tagKey key (deadline + 60000)) :
    Coverage cache (call :: history) after where
  tagSets := hsets
  cached key tags htags := h.cached key tags (hcall key ▸ htags)
  covered key tags entry htags hlive := by
    rw [hcall] at htags
    obtain ⟨hbefore, hkept⟩ := hcovered key tags entry htags hlive
    obtain ⟨deadline, hexpire, hcov⟩ := h.covered key tags entry htags hbefore
    refine ⟨deadline, hexpire, ?_⟩
    intro tag htag
    obtain ⟨tagKey, htagKey, hc⟩ := hcov tag htag
    exact ⟨tagKey, htagKey, hkept tag htag tagKey htagKey deadline hexpire hc⟩

theorem coverage_set {history : List Call} {ks after : Server} {outcome : Except PyError Unit}
    {key encoded : String} {ttlSeconds : Option Int} {tags : List String} {drawn : Int}
    (h : Coverage cache history ks) (hkey : ¬cache.IsTagKey key)
    (hset : cache.set ks key encoded ttlSeconds tags drawn = (after, outcome)) :
    Coverage cache (.set key tags outcome :: history) after := by
  rcases set_cases hkey h.tagSets hset with ⟨rfl, error, rfl⟩ | ⟨rfl, ttl, tagKeys, htags, ht⟩
  · exact h.forget (fun _ => rfl) h.tagSets fun _ _ _ _ hlive => ⟨hlive, fun _ _ _ _ _ _ hc => hc⟩
  · have hkeys := (mapM_tagKey htags).1
    refine ⟨ht.tagSets, ?_, ?_⟩
    · intro key' tags' h'
      by_cases he : key = key'
      · exact he ▸ hkey
      · rw [latestTags, if_neg he] at h'
        exact h.cached key' tags' h'
    · intro key' tags' entry h' hlive
      by_cases he : key = key'
      · subst he
        rw [latestTags, if_pos rfl] at h'
        obtain rfl := Option.some.inj h'
        rw [ht.frame key hkey, live_setEx_self] at hlive
        obtain rfl := Option.some.inj hlive
        refine ⟨ks.after ttl, rfl, ?_⟩
        intro tag htag
        obtain ⟨tagKey, hmem, htagKey⟩ := hkeys tag htag
        refine ⟨tagKey, htagKey, ?_⟩
        have hafter : (ks.setEx key (.text encoded) ttl).after (ttl + 60) =
            ks.after ttl + 60000 := by
          simp only [Keyspace.after, now_setEx]
          omega
        exact hafter ▸ ht.covers tagKey hmem
      · rw [latestTags, if_neg he] at h'
        rw [ht.frame key' (h.cached key' tags' h'), live_setEx_other _ _ _ (Ne.symm he)] at hlive
        obtain ⟨deadline, hexpire, hcov⟩ := h.covered key' tags' entry h' hlive
        refine ⟨deadline, hexpire, ?_⟩
        intro tag htag
        obtain ⟨tagKey, htagKey, members, expireAt, hlive', hmem, hle⟩ := hcov tag htag
        have hne : tagKey ≠ key := fun hkt => hkey ⟨tag, hkt ▸ htagKey⟩
        refine ⟨tagKey, htagKey, ht.keeps _ _ _ ⟨members, expireAt, ?_, hmem, hle⟩⟩
        rw [live_setEx_other _ _ _ hne, hlive']

theorem coverage_delete {history : List Call} {ks : Server} {keys : List String}
    (h : Coverage cache history ks) (hkeys : ∀ key ∈ keys, ¬cache.IsTagKey key) :
    Coverage cache (.delete keys :: history) (deleteCommand ks keys).1 := by
  have hlive :
      ∀ {key entry}, (ks.delAll keys).live key = some entry → ks.live key = some entry := by
    intro key entry hlive
    rw [live_delAll] at hlive
    split at hlive
    · cases hlive
    · exact hlive
  rw [deleteCommand_server]
  refine h.forget (fun _ => rfl) ?_ ?_
  · intro tagKey entry htag hentry
    exact h.tagSets tagKey entry htag (hlive hentry)
  · intro key tags entry _ hentry
    refine ⟨hlive hentry, ?_⟩
    rintro tag _ tagKey htagKey deadline - ⟨members, expireAt, hset, hmem, hle⟩
    have hkept : tagKey ∉ keys := fun hmem => hkeys tagKey hmem ⟨tag, htagKey⟩
    exact ⟨members, expireAt, by rw [live_delAll, if_neg hkept, hset], hmem, hle⟩

theorem coverage_invalidateTag {history : List Call} {ks after : Server}
    {outcome : Except PyError Nat} {tag : String} (h : Coverage cache history ks)
    (hcall : cache.invalidateTag ks tag = (after, outcome)) :
    Coverage cache (.invalidateTag tag outcome :: history) after := by
  rcases invalidateTag_cases h.tagSets hcall with
    ⟨rfl, -⟩ | ⟨dropped, members, hdropped, hmembers, rfl, hlisted⟩
  · exact h.forget (fun _ => rfl) h.tagSets fun _ _ _ _ hlive => ⟨hlive, fun _ _ _ _ _ _ hc => hc⟩
  · have hlive : ∀ {key entry}, ((ks.delAll members).del dropped).live key = some entry →
        key ≠ dropped ∧ key ∉ members ∧ ks.live key = some entry := by
      intro key entry hlive
      rw [live_del, live_delAll] at hlive
      split at hlive
      · cases hlive
      · split at hlive
        · cases hlive
        · exact ⟨‹_›, ‹_›, hlive⟩
    refine h.forget (fun _ => rfl) ?_ ?_
    · intro tagKey entry htag hentry
      exact h.tagSets tagKey entry htag (hlive hentry).2.2
    · intro key tags entry _ hentry
      obtain ⟨-, hnotListed, hbefore⟩ := hlive hentry
      refine ⟨hbefore, ?_⟩
      intro tag' _ tagKey htagKey deadline _ hcov
      -- the dropped set listed only keys that are gone
      have hne : tagKey ≠ dropped := fun he => hnotListed (hlisted key _ (he ▸ hcov))
      have hkept : tagKey ∉ members := fun hmem => hmembers tagKey hmem ⟨tag', htagKey⟩
      obtain ⟨members', expireAt, hset, hmem, hle⟩ := hcov
      exact ⟨members', expireAt, by rw [live_del, if_neg hne, live_delAll, if_neg hkept, hset],
        hmem, hle⟩

theorem coverage_tick {history : List Call} {ks : Server} {elapsed : Nat}
    (h : Coverage cache history ks) :
    Coverage cache (.tick elapsed :: history) (ks.tick elapsed) := by
  refine h.forget (fun _ => rfl) ?_ ?_
  · intro tagKey entry htag hentry
    exact h.tagSets tagKey entry htag (live_of_tick hentry)
  · intro key tags entry _ hentry
    refine ⟨live_of_tick hentry, ?_⟩
    rintro tag _ tagKey _ deadline hexpire ⟨members, expireAt, hset, hmem, hle⟩
    obtain ⟨value, _⟩ := entry
    obtain rfl : _ = some deadline := hexpire
    have hfresh : ks.now + elapsed ≤ deadline := live_le hentry
    exact ⟨members, expireAt, live_tick hset (by omega), hmem, hle⟩

/-- Every call and every expiry keeps the coverage. -/
theorem reaches_coverage {history : List Call} {ks : Server}
    (hr : cache.clients.Reaches history ks) : Coverage cache history ks := by
  refine hr.invariant (I := Coverage cache) ?_ ?_
  · rintro ks rfl
    exact coverage_empty cache
  · intro history ks call after _ h hstep
    cases hstep with
    | set key encoded ttlSeconds tags drawn hkey hset => exact coverage_set h hkey hset
    | delete keys hkeys => exact coverage_delete h hkeys
    | invalidateTag tag hcall => exact coverage_invalidateTag h hcall
    | tick elapsed => exact coverage_tick h

/-- The set of a tag lists every live entry of the tag, so invalidating it leaves none. -/
theorem Coverage.invalidated {history : List Call} {ks after : Server}
    {outcome : Except PyError Nat} (h : Coverage cache history ks) {key : String}
    {tags : List String} (hlatest : latestTags key history = some tags) {tag : String}
    (htag : tag ∈ tags) (hcall : cache.invalidateTag ks tag = (after, outcome))
    (entry : Entry Content) : after.live key ≠ some entry := by
  intro hlive
  rcases invalidateTag_cases h.tagSets hcall with
    ⟨rfl, error, herror⟩ | ⟨dropped, members, hdropped, -, rfl, hlisted⟩
  · obtain ⟨deadline, -, hcov⟩ := h.covered key tags entry hlatest hlive
    obtain ⟨tagKey, htagKey, -⟩ := hcov tag htag
    rw [herror] at htagKey
    cases htagKey
  · rw [live_del, live_delAll] at hlive
    split at hlive
    · cases hlive
    · split at hlive
      · cases hlive
      · rename_i hnotListed
        obtain ⟨deadline, -, hcov⟩ := h.covered key tags entry hlatest hlive
        obtain ⟨tagKey, htagKey, hc⟩ := hcov tag htag
        obtain rfl := Except.ok.inj (hdropped.symm.trans htagKey)
        exact hnotListed (hlisted key _ hc)

/-- In every reachable state a live entry is in the set of each tag its latest `set` listed,
and the set outlives it by a minute, so invalidating the tag leaves no such entry readable. -/
theorem tag_invalidation (cache : Cache) {history : List Call} {ks : Server}
    (hr : cache.clients.Reaches history ks) {key : String} {tags : List String}
    (hlatest : latestTags key history = some tags) {tag : String} (htag : tag ∈ tags) :
    (∀ entry, ks.live key = some entry → ∃ tagKey members deadline expireAt,
      cache.tagKey tag = .ok tagKey ∧ entry.expireAt = some deadline ∧
        ks.live tagKey = some ⟨.members members, some expireAt⟩ ∧ key ∈ members ∧
        deadline + 60000 ≤ expireAt) ∧
    ∀ after outcome, cache.invalidateTag ks tag = (after, outcome) →
      after.live key = none ∧ getCommand after key = .ok none := by
  have h := reaches_coverage hr
  refine ⟨?_, ?_⟩
  · intro entry hlive
    obtain ⟨deadline, hexpire, hcov⟩ := h.covered key tags entry hlatest hlive
    obtain ⟨tagKey, htagKey, members, expireAt, hset, hmem, hle⟩ := hcov tag htag
    exact ⟨tagKey, members, deadline, expireAt, htagKey, hexpire, hset, hmem, hle⟩
  · intro after outcome hcall
    have hgone : after.live key = none := by
      cases hlive : after.live key with
      | none => rfl
      | some entry => exact absurd hlive (h.invalidated hlatest htag hcall entry)
    exact ⟨hgone, by simp [getCommand, hgone]⟩

/-- A cache without jitter. -/
def sampleCache : Cache where
  keys := ⟨"app", 1, 240, ⟨"app", by decide⟩, by decide, by decide⟩
  sha256Hex := id
  defaultTtlSeconds := 300
  spread _ := 0
  defaultTtlSeconds_pos := by decide

/-- The entry of one tagged `set`, and what an invalidation leaves of it. -/
theorem tag_invalidation_set :
    let ks := (sampleCache.set Keyspace.empty "user-7" "{}" none ["users"] 0).1
    (∀ entry, ks.live "user-7" = some entry → ∃ tagKey members deadline expireAt,
      sampleCache.tagKey "users" = .ok tagKey ∧ entry.expireAt = some deadline ∧
        ks.live tagKey = some ⟨.members members, some expireAt⟩ ∧ "user-7" ∈ members ∧
        deadline + 60000 ≤ expireAt) ∧
    ∀ after outcome, sampleCache.invalidateTag ks "users" = (after, outcome) →
      after.live "user-7" = none ∧ getCommand after "user-7" = .ok none := by
  have hkey : ¬sampleCache.IsTagKey "user-7" := by
    rintro ⟨tag, htag⟩
    exact absurd (KeyBuilder.build_colon htag) (by decide)
  have htag : sampleCache.tagKey "users" = .ok "app:v1:tag:users" := by decide
  have httl : sampleCache.ttl none 0 = .ok 300 := by decide
  have hsent : (sampleCache.set Keyspace.empty "user-7" "{}" none ["users"] 0).2 = .ok () := by
    simp [Cache.set, httl, htag, setPipeline, tagCommands, execute, Command.run, Keyspace.live,
      setEx, put, Keyspace.empty]
  generalize hset : sampleCache.set Keyspace.empty "user-7" "{}" none ["users"] 0 = result at *
  obtain ⟨ks, outcome⟩ := result
  obtain rfl : outcome = .ok () := hsent
  have hstep : sampleCache.Step Keyspace.empty (.set "user-7" ["users"] (.ok ())) ks :=
    .set "user-7" "{}" none ["users"] 0 hkey hset
  have hreached : sampleCache.clients.Reaches [.set "user-7" ["users"] (.ok ())] ks :=
    .step (.init rfl) hstep
  exact tag_invalidation sampleCache hreached rfl List.mem_cons_self

end ProdkitStorage.Redis

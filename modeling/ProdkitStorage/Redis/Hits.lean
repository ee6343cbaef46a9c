import ProdkitStorage.Redis.JsonCodec
import ProdkitStorage.Redis.Tags

/-!
# Cache hits

The caller that ran the loader gets the value itself, every later caller gets what
`loads` makes of the text that was stored.  `latestText` is the text the last `SET` wrote
under a key, and `TextsLatest` says that no key ever holds another text: commands for
tag sets write none, and deletions, invalidations and expiries only take keys away.
So a hit is a function of the last value stored, and whether it equals that value is a
matter of the codec alone.
-/

namespace ProdkitStorage.Redis

open ProdkitStorage.Foundation (Keyspace Entry System Json)
open ProdkitStorage.Python

variable {Value ι : Type}

/-! ## Texts and commands -/

/-- Every content the second server holds, the first holds under the same key. -/
def NoNewContent (ks after : Server) : Prop :=
  ∀ key content, after.get key = some content → ks.get key = some content

/-- Every text the second server holds, the first holds under the same key. -/
def NoNewText (ks after : Server) : Prop :=
  ∀ key text, after.get key = some (.text text) → ks.get key = some (.text text)

theorem NoNewContent.refl (ks : Server) : NoNewContent ks ks := fun _ _ h => h

theorem NoNewContent.trans {ks between after : Server} (h : NoNewContent ks between)
    (h' : NoNewContent between after) : NoNewContent ks after :=
  fun key content hcontent => h key content (h' key content hcontent)

theorem NoNewContent.texts {ks after : Server} (h : NoNewContent ks after) : NoNewText ks after :=
  fun key text htext => h key (.text text) htext

theorem NoNewText.trans {ks between after : Server} (h : NoNewText ks between)
    (h' : NoNewText between after) : NoNewText ks after :=
  fun key text htext => h key text (h' key text htext)

theorem noNewContent_del (ks : Server) (key : String) : NoNewContent ks (ks.del key) := by
  intro other content hcontent
  rw [Keyspace.get, Keyspace.live_del] at hcontent
  split at hcontent
  · cases hcontent
  · exact hcontent

theorem noNewContent_tick (ks : Server) (elapsed : Nat) : NoNewContent ks (ks.tick elapsed) := by
  intro key content hcontent
  obtain ⟨expireAt, hlive⟩ := Keyspace.get_eq_some.mp hcontent
  exact Keyspace.get_eq_some.mpr ⟨expireAt, Keyspace.live_of_tick hlive⟩

theorem noNewContent_delete (ks : Server) (keys : List String) :
    NoNewContent ks (deleteCommand ks keys).1 := by
  induction keys generalizing ks with
  | nil => exact .refl ks
  | cons key keys ih => exact (noNewContent_del ks key).trans (ih (ks.del key))

theorem noNewContent_invalidateTag {cache : Cache} {ks after : Server} {tag : String}
    {outcome : Except PyError Nat} (h : cache.invalidateTag ks tag = (after, outcome)) :
    NoNewContent ks after := by
  unfold Cache.invalidateTag at h
  split at h
  · cases h
    exact .refl ks
  · next tagKey _ =>
      unfold invalidateTagScript at h
      split at h
      · cases h
        exact .refl ks
      · next members _ _ =>
          cases h
          exact (noNewContent_delete ks members).trans (noNewContent_del _ tagKey)
      · cases h
        exact noNewContent_del ks tagKey

theorem noNewContent_release (ks : Server) (key token : String) :
    NoNewContent ks (releaseCommand ks key token).1 := by
  by_cases hheld : ks.get key = some (.text token)
  · rw [releaseCommand_own hheld]
    exact noNewContent_del ks key
  · rw [releaseCommand_other hheld]
    exact .refl ks

/-- A command for a tag set writes no text. -/
theorem noNewText_tagCommand (ks : Server) {command : Command} (hcommand : command.IsForTag) :
    NoNewText ks (command.run ks).1 := by
  intro key text htext
  cases command with
  | set key' encoded ex => exact absurd hcommand id
  | expireNx tagKey seconds => rwa [← Keyspace.get_expireNx ks tagKey key seconds]
  | expireGt tagKey seconds => rwa [← Keyspace.get_expireGt ks tagKey key seconds]
  | sadd tagKey member =>
      unfold Command.run at htext
      dsimp only at htext
      split at htext
      · exact htext
      · next hnotText =>
          by_cases hkey : key = tagKey
          · subst hkey
            cases hlive : ks.live key with
            | none =>
                rw [Keyspace.get, Keyspace.live_upsert_absent _ _ hlive] at htext
                cases htext
            | some entry =>
                obtain ⟨content, expireAt⟩ := entry
                cases content with
                | text encoded => exact absurd hlive (hnotText encoded expireAt)
                | members keys =>
                    rw [Keyspace.get, Keyspace.live_upsert_present _ _ hlive] at htext
                    cases htext
          · rwa [Keyspace.get, Keyspace.live_upsert_other _ _ _ hkey] at htext

theorem noNewText_execute : ∀ {pipe : List Command} (ks : Server),
    (∀ command ∈ pipe, command.IsForTag) → NoNewText ks (execute ks pipe).1
  | [], _, _ => fun _ _ htext => htext
  | _ :: _, ks, hpipe =>
      (noNewText_tagCommand ks (hpipe _ List.mem_cons_self)).trans
        (noNewText_execute _ fun other hother => hpipe other (List.mem_cons_of_mem _ hother))

/-- The pipeline of `set` writes one text, under its key. -/
theorem text_setPipeline {ks server : Server} {key encoded : String} {ttl : Nat}
    {tagKeys : List String} {outcome : Except PyError Unit}
    (h : execute ks (setPipeline key encoded ttl tagKeys) = (server, outcome)) {other text : String}
    (htext : server.get other = some (.text text)) :
    if other = key then text = encoded else ks.get other = some (.text text) := by
  have hserver : (execute (ks.setEx key (.text encoded) ttl)
      (tagKeys.flatMap (tagCommands key ttl))).1 = server := congrArg Prod.fst h
  rw [← hserver] at htext
  have hset := noNewText_execute _ (tagCommands_isForTag key ttl tagKeys) other text htext
  split
  · next heq =>
      rw [heq, Keyspace.get, Keyspace.live_setEx_self] at hset
      cases hset
      rfl
  · next hne => rwa [Keyspace.get, Keyspace.live_setEx_other _ _ _ hne] at hset

/-! ## The text under a key -/

section
variable (codec : Codec Value) (calls : ι → GetOrSet) (start : Server)

/-- The text that a step writes under a key: the text of a value, or the token of a lock. -/
def Event.writes (key : String) : Event ι Value → Option String
  | .store _ key' value _ _ => if key' = key then (codec.dumps value).toOption else none
  | .attempt i true => if (calls i).lockKey = key then some (calls i).token else none
  | _ => none

/-- The text that was written last under a key. -/
def latestText (key : String) : List (Event ι Value) → Option String
  | [] =>
      match start.get key with
      | some (.text text) => some text
      | _ => none
  | event :: h => (event.writes codec calls key).or (latestText key h)

/-- No key holds a text that was not written last. -/
def TextsLatest (h : List (Event ι Value)) (server : Server) : Prop :=
  ∀ key text, server.get key = some (.text text) → latestText codec calls start key h = some text

end

section
variable {codec : Codec Value} {calls : ι → GetOrSet} {start : Server}

/-- A step that writes no text. -/
theorem TextsLatest.cons {h : List (Event ι Value)} {ks after : Server}
    (hlatest : TextsLatest codec calls start h ks) (hafter : NoNewText ks after)
    {event : Event ι Value} (hevent : ∀ key, event.writes codec calls key = none) :
    TextsLatest codec calls start (event :: h) after := by
  intro key text htext
  rw [latestText, hevent key, Option.none_or]
  exact hlatest key text (hafter key text htext)

/-- The pipeline of a `set`. -/
theorem TextsLatest.store {h : List (Event ι Value)} {ks after : Server}
    (hlatest : TextsLatest codec calls start h ks) {key encoded : String} {value : Value}
    (hencoded : codec.dumps value = .ok encoded) {ttl : Nat} {tagKeys : List String}
    {outcome : Except PyError Unit}
    (hexecute : execute ks (setPipeline key encoded ttl tagKeys) = (after, outcome))
    (i : Option ι) (tags : List String) :
    TextsLatest codec calls start (.store i key value tags outcome :: h) after := by
  intro other text htext
  have hwritten := text_setPipeline hexecute htext
  rw [latestText]
  split at hwritten
  · next heq =>
      have hwrites : (Event.store i key value tags outcome).writes codec calls other =
          some encoded := by
        simp [Event.writes, heq, hencoded, Except.toOption]
      rw [hwrites, Option.some_or, hwritten]
  · next hne =>
      have hwrites : (Event.store i key value tags outcome).writes codec calls other = none :=
        if_neg (Ne.symm hne)
      rw [hwrites, Option.none_or]
      exact hlatest other text hwritten

theorem TextsLatest.attempt {h : List (Event ι Value)} {ks after : Server}
    (hlatest : TextsLatest codec calls start h ks) {i : ι} {lock : Lock.RedisLock}
    (hlock : (calls i).lock = .ok lock) {acquired : Bool}
    (hset : setNxCommand ks lock.key lock.token lock.ttlMs.toNat = (after, acquired)) :
    TextsLatest codec calls start (.attempt i acquired :: h) after := by
  obtain ⟨hkey, htoken, -⟩ := GetOrSet.lock_ok hlock
  cases hlive : ks.live lock.key with
  | some entry =>
      rw [setNxCommand_present hlive] at hset
      cases hset
      exact hlatest.cons (fun _ _ htext => htext) fun _ => rfl
  | none =>
      rw [setNxCommand_absent hlive] at hset
      cases hset
      intro other text htext
      rw [latestText]
      by_cases hother : other = lock.key
      · rw [hother, Keyspace.get, Keyspace.live_setPx_self] at htext
        cases htext
        have hwrites : (Event.attempt i true : Event ι Value).writes codec calls other =
            some (calls i).token := if_pos (by rw [hother, hkey])
        rw [hwrites, Option.some_or, htoken]
      · rw [Keyspace.get, Keyspace.live_setPx_other _ _ _ hother] at htext
        have hwrites : (Event.attempt i true : Event ι Value).writes codec calls other = none :=
          if_neg (by rw [← hkey]; exact Ne.symm hother)
        rw [hwrites, Option.none_or]
        exact hlatest other text htext

/-- In every run each key holds the text that was written last, or no text. -/
theorem reaches_textsLatest [DecidableEq ι] {cache : Cache} {h : List (Event ι Value)}
    {s : CacheState ι Value}
    (hr : (cacheCalls cache codec calls start).Reaches h s) :
    TextsLatest codec calls start h s.server := by
  refine hr.invariant (I := fun h s => TextsLatest codec calls start h s.server) ?_ ?_
  · rintro s ⟨rfl, -⟩ key text htext
    rw [latestText, htext]
  · intro h s event t _ hs hstep
    cases hstep with
    | look i clock => exact hs.cons (fun _ _ htext => htext) fun _ => rfl
    | attempt i clock clock' _ hlock hset => exact hs.attempt hlock hset
    | recheck i => exact hs.cons (fun _ _ htext => htext) fun _ => rfl
    | load i outcome => exact hs.cons (fun _ _ htext => htext) fun _ => rfl
    | refuse i drawn => exact hs.cons (fun _ _ htext => htext) fun _ => rfl
    | store i drawn _ hprepare hexecute =>
        obtain ⟨ttl, encoded, tagKeys, hencoded, -, rfl⟩ := Cache.prepare_ok hprepare
        exact hs.store hencoded hexecute (some i) (calls i).tags
    | @release outcome lock server reply i _ _ hrelease =>
        refine hs.cons ?_ fun _ => rfl
        have hserver : (releaseCommand s.server lock.key lock.token).1 = server :=
          congrArg Prod.fst hrelease
        rw [CacheState.move_server, ← hserver]
        exact (noNewContent_release s.server lock.key lock.token).texts
    | read key => exact hs.cons (fun _ _ htext => htext) fun _ => rfl
    | refuseSet key value ttlSeconds tags drawn =>
        exact hs.cons (fun _ _ htext => htext) fun _ => rfl
    | set key value ttlSeconds tags drawn hprepare hexecute =>
        obtain ⟨ttl, encoded, tagKeys, hencoded, -, rfl⟩ := Cache.prepare_ok hprepare
        exact hs.store hencoded hexecute none tags
    | delete keys => exact hs.cons (noNewContent_delete s.server keys).texts fun _ => rfl
    | invalidateTag tag hcall => exact hs.cons (noNewContent_invalidateTag hcall).texts fun _ => rfl
    | tick elapsed => exact hs.cons (noNewContent_tick s.server elapsed).texts fun _ => rfl

/-- Steps that write nothing under a key leave its latest text. -/
theorem latestText_append {key : String} {later : List (Event ι Value)}
    (hlater : ∀ event ∈ later, event.writes codec calls key = none) (h : List (Event ι Value)) :
    latestText codec calls start key (later ++ h) = latestText codec calls start key h := by
  induction later with
  | nil => rfl
  | cons event later ih =>
      rw [List.cons_append, latestText, hlater event List.mem_cons_self, Option.none_or]
      exact ih fun other hother => hlater other (List.mem_cons_of_mem _ hother)

/-- A text is written by a `set`, or is the token of a call that acquired its lock. -/
theorem Event.writes_some {event : Event ι Value} {key text : String}
    (h : event.writes codec calls key = some text) :
    (∃ i value tags outcome, event = .store i key value tags outcome) ∨
      ∃ i, event = .attempt i true ∧ (calls i).lockKey = key ∧ (calls i).token = text := by
  unfold Event.writes at h
  split at h
  · split at h
    · next i key' value tags outcome hkey => exact .inl ⟨i, value, tags, outcome, by rw [hkey]⟩
    · cases h
  · split at h
    · next i hkey => exact .inr ⟨i, rfl, hkey, Option.some.inj h⟩
    · cases h
  · cases h

/-- The latest text was written by some step, if it was not there at the start. -/
theorem latestText_written {key text : String} {h : List (Event ι Value)}
    (hlatest : latestText codec calls start key h = some text) (hstart : start.get key = none) :
    ∃ newer event older, h = newer ++ event :: older ∧
      event.writes codec calls key = some text ∧
        ∀ other ∈ newer, other.writes codec calls key = none := by
  induction h with
  | nil =>
      rw [latestText, hstart] at hlatest
      cases hlatest
  | cons event h ih =>
      rw [latestText] at hlatest
      cases hwrites : event.writes codec calls key with
      | some text' =>
          rw [hwrites, Option.some_or] at hlatest
          exact ⟨[], event, h, rfl, hwrites.trans hlatest, by simp⟩
      | none =>
          rw [hwrites, Option.none_or] at hlatest
          obtain ⟨newer, writer, older, rfl, hwriter, hnewer⟩ := ih hlatest
          refine ⟨event :: newer, writer, older, rfl, hwriter, ?_⟩
          intro other hother
          rcases List.mem_cons.mp hother with rfl | hother
          · exact hwrites
          · exact hnewer other hother

end

/-! ## Hits -/

/-- The value of a lookup of `key'`, where it is `key`. -/
def foundUnder (key key' : String) : Except PyError (Option Value) → Option Value
  | .ok (some value) => if key' = key then some value else none
  | _ => none

/-- The value that a lookup returned for a key. -/
def Event.hit (calls : ι → GetOrSet) (key : String) : Event ι Value → Option Value
  | .look i found => foundUnder key (calls i).key found
  | .recheck i found => foundUnder key (calls i).key found
  | .read key' found => foundUnder key key' found
  | _ => none

theorem foundUnder_some {key key' : String} {found : Except PyError (Option Value)} {value : Value}
    (h : foundUnder key key' found = some value) : key' = key ∧ found = .ok (some value) := by
  unfold foundUnder at h
  split at h
  · split at h
    · next heq =>
        cases h
        exact ⟨heq, rfl⟩
    · cases h
  · cases h

/-- A lookup that finds a value decodes the text of the key. -/
theorem lookup_some {codec : Codec Value} {ks : Server} {key : String} {value : Value}
    (h : lookup codec ks key = .ok (some value)) :
    ∃ text, ks.get key = some (.text text) ∧ codec.loads text = .ok value := by
  cases hlive : ks.live key with
  | none =>
      rw [lookup_absent hlive] at h
      cases h
  | some entry =>
      obtain ⟨content, expireAt⟩ := entry
      cases content with
      | members keys =>
          rw [lookup, getCommand, hlive] at h
          cases h
      | text text =>
          have htext : ks.get key = some (.text text) := Keyspace.get_eq_some.mpr ⟨expireAt, hlive⟩
          refine ⟨text, htext, ?_⟩
          rw [lookup_text htext] at h
          cases hloads : codec.loads text with
          | error error =>
              rw [hloads] at h
              cases h
          | ok read =>
              rw [hloads] at h
              cases h
              rfl

variable [DecidableEq ι]

/-- A hit returns what `loads` makes of the text under the key. -/
theorem hit_text {cache : Cache} {codec : Codec Value} {calls : ι → GetOrSet}
    {s t : CacheState ι Value} {event : Event ι Value}
    (hstep : CacheStep cache codec calls s event t) {key : String} {read : Value}
    (hhit : event.hit calls key = some read) :
    ∃ text, s.server.get key = some (.text text) ∧ codec.loads text = .ok read := by
  have hfound : ∀ key', foundUnder key key' (lookup codec s.server key') = some read →
      ∃ text, s.server.get key = some (.text text) ∧ codec.loads text = .ok read := by
    intro key' hunder
    obtain ⟨rfl, hlookup⟩ := foundUnder_some hunder
    exact lookup_some hlookup
  cases hstep with
  | look i clock => exact hfound _ hhit
  | recheck i => exact hfound _ hhit
  | read key' => exact hfound _ hhit
  | _ => cases hhit

/-- So it returns what `loads` makes of the text that was written last. -/
theorem hit_latest {cache : Cache} {codec : Codec Value} {calls : ι → GetOrSet} {start : Server}
    {h : List (Event ι Value)} {s t : CacheState ι Value} {event : Event ι Value}
    (hr : (cacheCalls cache codec calls start).Reaches h s)
    (hstep : CacheStep cache codec calls s event t) {key : String} {read : Value}
    (hhit : event.hit calls key = some read) :
    ∃ text, latestText codec calls start key h = some text ∧ codec.loads text = .ok read := by
  obtain ⟨text, htext, hloads⟩ := hit_text hstep hhit
  exact ⟨text, reaches_textsLatest hr key text htext, hloads⟩

/-- A stored value was loaded before, and its text is what its key holds next. -/
theorem stored_loaded {cache : Cache} {codec : Codec Value} {calls : ι → GetOrSet} {start : Server}
    {h : List (Event ι Value)} {s t : CacheState ι Value} {i : ι} {key : String} {value : Value}
    {tags : List String} {outcome : Except PyError Unit}
    (hr : (cacheCalls cache codec calls start).Reaches h s)
    (hstep : CacheStep cache codec calls s (.store (some i) key value tags outcome) t) :
    Event.load i (.ok value) ∈ h ∧ ∃ encoded, codec.dumps value = .ok encoded := by
  have hrecorded := reaches_recorded hr i
  cases hstep with
  | store _ drawn hstoring hprepare hexecute =>
      obtain ⟨ttl, encoded, tagKeys, hencoded, -⟩ := Cache.prepare_ok hprepare
      refine ⟨?_, encoded, hencoded⟩
      rw [hstoring] at hrecorded
      rw [← mem_records_load, show records i h = _ from hrecorded]
      exact List.mem_singleton_self _

/-- A call that stored a value and returns, returns this value. -/
theorem stored_returned {cache : Cache} {codec : Codec Value} {calls : ι → GetOrSet}
    {start : Server} {h : List (Event ι Value)} {s : CacheState ι Value} {i : ι} {key : String}
    {value result : Value} {tags : List String} {outcome : Except PyError Unit}
    (hr : (cacheCalls cache codec calls start).Reaches h s)
    (hstored : Event.store (some i) key value tags outcome ∈ h)
    (hdone : s.phase i = .done (.ok result)) : result = value := by
  have hmem := mem_records_store.mpr ⟨key, tags, hstored⟩
  have hrecorded := reaches_recorded hr i
  rw [hdone] at hrecorded
  rcases hrecorded with hsettled | ⟨error, herror⟩
  · generalize records i h = history at hmem hsettled
    cases hsettled with
    | unloaded => cases hmem
    | stored value' =>
        obtain ⟨rfl, -⟩ : value = result ∧ outcome = .ok () := by simpa using hmem
        rfl
  · cases herror

/-- A first lookup that hits is what the call returns. -/
theorem look_returns {cache : Cache} {codec : Codec Value} {calls : ι → GetOrSet}
    {s t : CacheState ι Value} {i : ι} {read : Value}
    (hstep : CacheStep cache codec calls s (.look i (.ok (some read))) t) :
    t.phase i = .done (.ok read) := by
  generalize hevent : Event.look i (.ok (some read)) = event at hstep
  cases hstep with
  | look j clock =>
      rw [Event.look.injEq] at hevent
      obtain ⟨rfl, hfound⟩ := hevent
      rw [← hfound]
      exact CacheState.move_self _ _ _ _
  | _ => cases hevent

/-- In every run, between a stored value and the next write under its key, the caller that loaded
it gets the value itself and every hit the value its document is read as.  They are equal exactly
when a document carries the value. -/
theorem hit_equals_iff {lib : Orjson} {cache : Cache} {calls : ι → GetOrSet} {start : Server}
    {later earlier : List (Event ι Data)} {i : ι} {value read : Data} {tags : List String}
    {outcome : Except PyError Unit} {event : Event ι Data} {s : CacheState ι Data}
    (hr : (cacheCalls cache (jsonCodec lib) calls start).Reaches
      (event :: (later ++ .store (some i) (calls i).key value tags outcome :: earlier)) s)
    (hlater : ∀ other ∈ later, other.writes (jsonCodec lib) calls (calls i).key = none)
    (hhit : event.hit calls (calls i).key = some read)
    (hreads : ∀ document, encode lib value.object = .ok document → lib.Reads document) :
    Event.load i (.ok value) ∈ earlier ∧
      (∀ result, s.phase i = .done (.ok result) → result = value) ∧
      (∀ j, event = .look j (.ok (some read)) → s.phase j = .done (.ok read)) ∧
      ∃ document, encode lib value.object = .ok document ∧ read.object = ofJson document ∧
        (value.object.equals read.object = true ↔ value.object.portable = true) := by
  have hreturned : ∀ result, s.phase i = .done (.ok result) → result = value := by
    intro result hdone
    have hstored : Event.store (some i) (calls i).key value tags outcome ∈
        event :: (later ++ .store (some i) (calls i).key value tags outcome :: earlier) :=
      List.mem_cons_of_mem _ (List.mem_append_right _ List.mem_cons_self)
    exact stored_returned hr hstored hdone
  cases hr with
  | @step _ t _ _ hr hstep =>
      obtain ⟨before, after, hbefore, hstore⟩ := hr.passed
      obtain ⟨hloaded, text, hencoded⟩ := stored_loaded hbefore hstore
      refine ⟨hloaded, hreturned, ?_, ?_⟩
      · rintro j rfl
        exact look_returns hstep
      · obtain ⟨text', hlatest, hloads⟩ := hit_latest hr hstep hhit
        have hwrites :
            (Event.store (some i) (calls i).key value tags outcome).writes (jsonCodec lib)
              calls (calls i).key = some text := by
          simp [Event.writes, hencoded, Except.toOption]
        rw [latestText_append hlater, latestText, hwrites, Option.some_or, Option.some.injEq]
          at hlatest
        obtain ⟨document, hdocument, hwritten⟩ := dumpsObject_ok hencoded
        rw [← hlatest, hwritten, loads_write (hreads document hdocument), Except.ok.injEq] at hloads
        refine ⟨document, hdocument, by rw [← hloads], ?_⟩
        rw [← hloads]
        exact equals_encode_iff value.distinct hdocument

/-! ### A list and a tuple -/

/-- `orjson`, on the document `[1,2]`. -/
def sampleOrjson : Orjson where
  write _ := "[1,2]"
  read _ := some (.arr [.int 1, .int 2])
  floatText _ := ""
  datetimeText _ := ""

/-- `[1, 2]`. -/
def sampleList : Data := ⟨.list [.leaf (.int 1), .leaf (.int 2)], trivial, trivial, trivial⟩

/-- One call for one key. -/
def soleCall (_ : Unit) : GetOrSet where
  key := "k"
  token := "a"

/-- The list is loaded, stored, and found. -/
theorem hit_equals_iff_list :
    ∃ document, encode sampleOrjson sampleList.object = .ok document ∧
      ofJson (.arr [.int 1, .int 2]) = ofJson document ∧
        (sampleList.object.equals (ofJson (.arr [.int 1, .int 2])) = true ↔
          sampleList.object.portable = true) := by
  have hstart : (cacheCalls sampleCache (jsonCodec sampleOrjson) soleCall Keyspace.empty).Reaches []
      ⟨Keyspace.empty, fun _ => .idle⟩ := .init ⟨rfl, fun _ => rfl⟩
  have hloading := reaches_loading hstart (i := ()) rfl (by decide) (by decide) rfl rfl
  have hprepare : sampleCache.prepare (jsonCodec sampleOrjson) "k" sampleList none [] 0 =
      .ok (setPipeline "k" "[1,2]" 300 []) := rfl
  have hstored := reaches_stored (i := ()) hloading rfl sampleList hprepare rfl
  have hread : (cacheCalls sampleCache (jsonCodec sampleOrjson) soleCall Keyspace.empty).Reaches
      (.read "k" _ :: ([] ++ .store (some ()) "k" sampleList [] (.ok ()) :: _)) _ :=
    hstored.step (.read "k")
  have hreads : ∀ document, encode sampleOrjson sampleList.object = .ok document →
      sampleOrjson.Reads document := by
    intro document hdocument
    cases hdocument
    rfl
  have hnone : ∀ other ∈ ([] : List (Event Unit Data)),
      other.writes (jsonCodec sampleOrjson) soleCall "k" = none := by simp
  exact (hit_equals_iff hread hnone rfl hreads).2.2.2

/-- A tuple comes back as a list. -/
theorem tuple_differs :
    ¬∀ (value : Data) (text : String) (read : Data),
      (jsonCodec sampleOrjson).dumps value = .ok text →
      (jsonCodec sampleOrjson).loads text = .ok read → value.object.equals read.object = true := by
  intro hequals
  have htuple :=
    hequals ⟨.tuple [.leaf (.int 1), .leaf (.int 2)], trivial, trivial, trivial⟩ "[1,2]"
    _ rfl rfl
  cases htuple

end ProdkitStorage.Redis

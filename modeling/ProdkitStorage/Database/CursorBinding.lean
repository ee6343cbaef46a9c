import ProdkitStorage.Database.Pagination

/-!
# Cursors are bound to their sort and query

The tokens of one secret carry payloads that `encode` or `encode_state` signed.
`Signed` is the log of these calls.  HMAC is taken to be unforgeable: the tag of a
token verifies only when its payload is in the log (`Unforgeable`).  SHA-256 is
taken to have no collisions among the fingerprints in play, also when it is
truncated (`CollisionFree`), and `orjson` reads what it wrote (`ReadsBackAll`).

A fingerprint then determines what it was made of, so a token whose fingerprint
is that of the active plan was signed for the same terms in the same order.
-/

namespace ProdkitStorage.Database

open ProdkitStorage.Foundation
open ProdkitStorage.Python

/-! ## Fingerprints -/

theorem SortDirection.value_injective {a b : SortDirection} (h : a.value = b.value) : a = b := by
  cases a <;> cases b <;> first | rfl | exact absurd h (by decide)

theorem NullPlacement.value_injective {a b : NullPlacement} (h : a.value = b.value) : a = b := by
  cases a <;> cases b <;> first | rfl | exact absurd h (by decide)

theorem termPayload_injective {a b : String × SortDirection × NullPlacement}
    (h : termPayload a = termPayload b) : a = b := by
  obtain ⟨field, direction, nulls⟩ := a
  obtain ⟨field', direction', nulls'⟩ := b
  simp only [termPayload, Json.obj.injEq, List.cons.injEq, Prod.mk.injEq, true_and, Json.str.injEq,
    and_true] at h
  obtain ⟨hdirection, rfl, hnulls⟩ := h
  rw [SortDirection.value_injective hdirection, NullPlacement.value_injective hnulls]

/-- The payload of a fingerprint determines the registry and the terms. -/
theorem fingerprintPayload_injective {name name' : String}
    {keys keys' : List (String × SortDirection × NullPlacement)}
    (h : fingerprintPayload name keys = fingerprintPayload name' keys') :
    name = name' ∧ keys = keys' := by
  simp only [fingerprintPayload, Json.obj.injEq, List.cons.injEq, Prod.mk.injEq, true_and,
    Json.str.injEq, Json.arr.injEq, and_true] at h
  exact ⟨h.1, List.map_injective_iff.mpr (fun _ _ => termPayload_injective) h.2⟩

variable {Db Env Row : Type} {lib : Primitives}

/-- The fingerprint of a plan is made of the name of its registry and its terms. -/
theorem SortRegistry.resolve_fingerprint {registry : SortRegistry Env Row}
    {terms : List SortCriterion} {plan : SortPlan Env Row}
    (h : registry.resolve lib terms = .ok plan) :
    plan.fingerprint = fingerprintOf lib (fingerprintPayload registry.name plan.keys) := by
  obtain ⟨normalized, -, h⟩ := bind_eq_ok.mp h
  obtain ⟨resolved, -, h⟩ := bind_eq_ok.mp h
  obtain rfl := Except.ok.inj h
  rfl

/-! ## The log of a secret -/

/-- A call that signed a payload.  A call of `encode_state` is for a plan of some registry: its
name and the terms of the plan. -/
inductive Signed where
  | legacy (position tieBreaker : Option PyValue)
  | state (registryName : String) (keys : List (String × SortDirection × NullPlacement))
      (values : List Cell) (queryFingerprint : Option String)

/-- The payload a call signed. -/
def Signed.payload (lib : Primitives) : Signed → Except PyError Json
  | .legacy position tieBreaker => do
      let position ← dumpCell position
      let tieBreaker ← dumpCell tieBreaker
      return legacyPayload position tieBreaker
  | .state registryName keys values queryFingerprint => do
      let state ← CursorCodec.dumpState
        ⟨fingerprintOf lib (fingerprintPayload registryName keys), values, queryFingerprint⟩
      return statePayload state

/-- The bytes of a token and the call that signed their payload. -/
def Carries (lib : Primitives) (token : String) (call : Signed) : Prop :=
  ∃ raw payload, CursorCodec.decodeToken token = some raw ∧ call.payload lib = .ok payload ∧
    raw.drop 32 = lib.dumps payload

/-- The tag of the token verifies only when its payload was signed. -/
def Unforgeable (lib : Primitives) (codec : CursorCodec) (log : List Signed) (token : String) :
    Prop :=
  ∀ raw, CursorCodec.decodeToken token = some raw →
    raw.take 32 = lib.hmacSha256 codec.secret (raw.drop 32) → ∃ call ∈ log, Carries lib token call

/-- `orjson` reads every payload that was signed. -/
def ReadsBackAll (lib : Primitives) (log : List Signed) : Prop :=
  ∀ call ∈ log, ∀ payload, call.payload lib = .ok payload → lib.ReadsBack payload

/-- The terms for which the log has a cursor. -/
def IsSignedFor (log : List Signed) (name : String)
    (keys : List (String × SortDirection × NullPlacement)) : Prop :=
  ∃ values queryFingerprint, .state name keys values queryFingerprint ∈ log

/-- No fingerprint in the log is that of other terms, as far as SHA-256 goes: with the fingerprint
the hashed text is the same. -/
structure CollisionFree (lib : Primitives) (log : List Signed) (name : String)
    (keys : List (String × SortDirection × NullPlacement)) : Prop where
  hash : ∀ name' keys', IsSignedFor log name' keys' →
    fingerprintOf lib (fingerprintPayload name' keys') =
      fingerprintOf lib (fingerprintPayload name keys) →
    lib.dumps (fingerprintPayload name' keys') = lib.dumps (fingerprintPayload name keys)
  readsBack : lib.ReadsBack (fingerprintPayload name keys)
  readsBackAll : ∀ name' keys', IsSignedFor log name' keys' →
    lib.ReadsBack (fingerprintPayload name' keys')

/-! ## Rejection -/

/-- The computation raises `ValueError`, or an exception of a subclass. -/
def RaisesValueError {α : Type} (result : Except PyError α) : Prop :=
  ∃ error, result = .error error ∧ error.isValueError = true

theorem RaisesValueError.bind {α β : Type} {result : Except PyError α} {f : α → Except PyError β}
    (h : RaisesValueError result) : RaisesValueError (result >>= f) := by
  obtain ⟨error, rfl, herror⟩ := h
  exact ⟨error, rfl, herror⟩

theorem raisesValueError_message {α : Type} (message : String) :
    RaisesValueError (.error (.valueError message) : Except PyError α) :=
  ⟨_, rfl, rfl⟩

/-- `_verify` raises `ValueError`, or the token carries a payload that was signed and returns its
members. -/
theorem verify_cases {codec : CursorCodec} {log : List Signed} {token : String}
    (hsigned : Unforgeable lib codec log token) (hjson : ReadsBackAll lib log) :
    RaisesValueError (codec.verify lib token) ∨
      ∃ call ∈ log, Carries lib token call ∧ ∃ payload, call.payload lib = .ok payload ∧
        ∀ members, payload = .obj members → codec.verify lib token = .ok members := by
  unfold CursorCodec.verify
  cases hraw : CursorCodec.decodeToken token with
  | none => exact .inl (raisesValueError_message _)
  | some raw =>
      by_cases hshort : raw.length ≤ 32
      · exact .inl (by simpa [hshort] using raisesValueError_message _)
      · by_cases htag : raw.take 32 = lib.hmacSha256 codec.secret (raw.drop 32)
        · obtain ⟨call, hcall, hcarries⟩ := hsigned raw hraw htag
          obtain ⟨raw', payload, hraw', hpayload, hdrop⟩ := hcarries
          obtain rfl := Option.some.inj (hraw.symm.trans hraw')
          refine .inr ⟨call, hcall, ⟨raw, payload, hraw, hpayload, hdrop⟩, payload, hpayload, ?_⟩
          rintro members rfl
          have hread : lib.loads (raw.drop 32) = some (.obj members) := by
            rw [hdrop]
            exact hjson call hcall _ hpayload
          simp only [if_neg hshort, ne_eq, htag, not_true_eq_false, if_false, hread]
        · exact .inl (by simpa [hshort, htag] using raisesValueError_message _)

theorem dumpState_ok {state : CursorState Cell} {dumped : CursorState Json}
    (h : CursorCodec.dumpState state = .ok dumped) :
    dumped.sortFingerprint = state.sortFingerprint ∧
      dumped.queryFingerprint = state.queryFingerprint ∧
      dumped.values.length = state.values.length := by
  obtain ⟨values, hvalues, h⟩ := bind_eq_ok.mp h
  obtain rfl := Except.ok.inj h
  exact ⟨rfl, rfl, (mapM_eq_ok.mp hvalues).length_eq.symm⟩

/-- The `decode_state` of a legacy payload raises `ValueError`. -/
theorem readState_legacy (position tieBreaker : Json) :
    RaisesValueError (CursorCodec.readState
      [("p", position), ("t", tieBreaker), ("v", .int 1)]) := by
  simpa [CursorCodec.readState] using raisesValueError_message _

/-- The token was signed for the terms of the active plan, the same query and one value for each
term. -/
def BoundTo (lib : Primitives) (log : List Signed) (token name : String)
    (keys : List (String × SortDirection × NullPlacement)) (queryFingerprint : Option String) :
    Prop :=
  ∃ values, .state name keys values queryFingerprint ∈ log ∧ values.length = keys.length ∧
    Carries lib token (.state name keys values queryFingerprint)

/-- The checks of a cursor raise `ValueError` unless it is bound to the plan and the query. -/
theorem cursorValues_bound {codec : CursorCodec} {log : List Signed} {token : String}
    {registry : SortRegistry Env Row} {terms : List SortCriterion} {plan : SortPlan Env Row}
    (hplan : registry.resolve lib terms = .ok plan) (hsigned : Unforgeable lib codec log token)
    (hjson : ReadsBackAll lib log) (hcollision : CollisionFree lib log registry.name plan.keys)
    (queryFingerprint : Option String) :
    BoundTo lib log token registry.name plan.keys queryFingerprint ∨
      RaisesValueError (cursorValues lib codec plan queryFingerprint token) := by
  unfold cursorValues CursorCodec.decodeState
  rcases verify_cases hsigned hjson with hraises |
    ⟨call, hcall, hcarries, payload, hpayload, hverify⟩
  · exact .inr hraises.bind.bind
  cases call with
  | legacy position tieBreaker =>
      obtain ⟨p, -, hpayload⟩ := bind_eq_ok.mp hpayload
      obtain ⟨t, -, hpayload⟩ := bind_eq_ok.mp hpayload
      obtain rfl := Except.ok.inj hpayload
      rw [hverify _ rfl]
      exact .inr (readState_legacy p t).bind
  | state name keys values query =>
      obtain ⟨state, hstate, hpayload⟩ := bind_eq_ok.mp hpayload
      obtain rfl := Except.ok.inj hpayload
      obtain ⟨hsort, hquery, hlength⟩ := dumpState_ok hstate
      rw [hverify _ rfl, ok_bind, CursorCodec.readState_stateMembers, ok_bind]
      by_cases hfingerprint : state.sortFingerprint = plan.fingerprint
      · by_cases hsame : state.queryFingerprint = queryFingerprint
        · by_cases hcount : state.values.length = plan.terms.length
          · -- All three checks pass, so the fingerprint tells the plan.
            rw [hsort, SortRegistry.resolve_fingerprint hplan] at hfingerprint
            have hfor : IsSignedFor log name keys := ⟨values, query, hcall⟩
            obtain ⟨rfl, rfl⟩ := fingerprintPayload_injective
              ((hcollision.readsBackAll name keys hfor).injective hcollision.readsBack
                (hcollision.hash name keys hfor hfingerprint))
            obtain rfl : query = queryFingerprint := hquery.symm.trans hsame
            refine .inl ⟨values, hcall, ?_, hcarries⟩
            rw [SortPlan.keys, List.length_map, ← hcount, hlength]
          · exact .inr (by simpa [hfingerprint, hsame, hcount] using raisesValueError_message _)
        · exact .inr (by simpa [hfingerprint, hsame] using raisesValueError_message _)
      · exact .inr (by simpa [hfingerprint] using raisesValueError_message _)

/-- The two formats do not mix: `decode_state` rejects what `encode` wrote. -/
theorem decodeState_encode {codec : CursorCodec} {position tieBreaker : Option PyValue}
    {token : String} (hencode : codec.encode lib position tieBreaker = .ok token)
    (hjson : ∀ payload, (Signed.legacy position tieBreaker).payload lib = .ok payload →
      lib.ReadsBack payload) :
    RaisesValueError (codec.decodeState lib token) := by
  obtain ⟨p, hp, hencode⟩ := bind_eq_ok.mp hencode
  obtain ⟨t, ht, hencode⟩ := bind_eq_ok.mp hencode
  obtain rfl := Except.ok.inj hencode
  have hpayload : (Signed.legacy position tieBreaker).payload lib = .ok (legacyPayload p t) := by
    simp [Signed.payload, hp, ht]
  have hverify := codec.verify_sign (hjson _ hpayload)
  rw [CursorCodec.decodeState, legacyPayload, hverify]
  exact readState_legacy p t

/-- The two formats do not mix: `decode` rejects what `encode_state` wrote. -/
theorem decode_encodeState {codec : CursorCodec} {state : CursorState Cell} {token : String}
    (hencode : codec.encodeState lib state = .ok token)
    (hjson : ∀ dumped, CursorCodec.dumpState state = .ok dumped →
      lib.ReadsBack (statePayload dumped)) :
    RaisesValueError (codec.decode lib token) := by
  obtain ⟨dumped, hdumped, hencode⟩ := bind_eq_ok.mp hencode
  obtain rfl := Except.ok.inj hencode
  have hverify := codec.verify_sign (hjson dumped hdumped)
  rw [CursorCodec.decode, statePayload, hverify, ok_bind]
  simpa [stateMembers] using raisesValueError_message (α := Json × Json) _

/-- `decode` raises `ValueError` unless the token carries what `encode` signed. -/
theorem decode_legacy {codec : CursorCodec} {log : List Signed} {token : String}
    (hsigned : Unforgeable lib codec log token) (hjson : ReadsBackAll lib log) :
    (∃ position tieBreaker, .legacy position tieBreaker ∈ log ∧
      Carries lib token (.legacy position tieBreaker)) ∨
      RaisesValueError (codec.decode lib token) := by
  unfold CursorCodec.decode
  rcases verify_cases hsigned hjson with hraises |
    ⟨call, hcall, hcarries, payload, hpayload, hverify⟩
  · exact .inr hraises.bind
  cases call with
  | legacy position tieBreaker => exact .inl ⟨position, tieBreaker, hcall, hcarries⟩
  | state name keys values query =>
      obtain ⟨state, -, hpayload⟩ := bind_eq_ok.mp hpayload
      obtain rfl := Except.ok.inj hpayload
      rw [hverify _ rfl, ok_bind]
      exact .inr (by simpa [stateMembers] using raisesValueError_message (α := Json × Json) _)

/-- A token that was signed carries its payload. -/
theorem carries_sign {codec : CursorCodec} {call : Signed} {payload : Json}
    (hpayload : call.payload lib = .ok payload) : Carries lib (codec.sign lib payload) call :=
  ⟨codec.signed lib payload, payload, CursorCodec.decodeToken_sign payload, hpayload,
    List.drop_left' (lib.length_hmacSha256 codec.secret (lib.dumps payload))⟩

/-- A token is accepted by the sorted paginator only when it was signed for the terms of the active
plan, the active query and one value for each term; all other tokens raise `ValueError`, and
neither format is read as the other. -/
theorem cursor_binding {codec : CursorCodec} {log : List Signed} {token : String}
    {registry : SortRegistry Env Row} {terms : List SortCriterion} {plan : SortPlan Env Row}
    (hplan : registry.resolve lib terms = .ok plan) (hsigned : Unforgeable lib codec log token)
    (hjson : ReadsBackAll lib log) (hcollision : CollisionFree lib log registry.name plan.keys)
    (queryFingerprint : Option String) (statement : Select Db Env Row) (limit : Int) :
    (BoundTo lib log token registry.name plan.keys queryFingerprint ∨
      RaisesValueError (prepareSortedQuery lib codec plan queryFingerprint statement (some token)
        limit)) ∧
    ((∃ position tieBreaker, .legacy position tieBreaker ∈ log ∧
        Carries lib token (.legacy position tieBreaker)) ∨
      RaisesValueError (codec.decode lib token)) ∧
    (∀ position tieBreaker legacyToken, .legacy position tieBreaker ∈ log →
      codec.encode lib position tieBreaker = .ok legacyToken →
        RaisesValueError (codec.decodeState lib legacyToken)) ∧
    ∀ name keys values query stateToken, .state name keys values query ∈ log →
      codec.encodeState lib ⟨fingerprintOf lib (fingerprintPayload name keys), values, query⟩ =
        .ok stateToken →
        RaisesValueError (codec.decode lib stateToken) := by
  refine ⟨?_, decode_legacy hsigned hjson, ?_, ?_⟩
  · rcases cursorValues_bound hplan hsigned hjson hcollision queryFingerprint with hbound | hraises
    · exact .inl hbound
    · unfold prepareSortedQuery afterCursor validateLimit
      split
      · exact .inr hraises.bind.bind
      · exact .inr (raisesValueError_message _).bind
  · intro position tieBreaker legacyToken hmem hencode
    exact decodeState_encode hencode (hjson _ hmem)
  · intro name keys values query stateToken hmem hencode
    refine decode_encodeState hencode fun dumped hdumped => hjson _ hmem _ ?_
    simp [Signed.payload, hdumped]

/-! ## A cursor of a table of events -/

/-- The integers, in their order. -/
def intColumn : Column Int where
  key := some "id"
  type := .bigInteger
  nullable := false
  primaryKey := true
  eval id := some (.int id)
  compare := compareOn fun
    | .int n => n
    | _ => 0
  compare_trans := inferInstance

/-- The sort field of the identifiers. -/
def idField : SortField Int Int where
  name := "id"
  expression := intColumn
  accessor := some (.callable fun id => .ok (some (.int id)))
  defaultNulls := .last
  nullable := false
  unique := true
  name_public := by decide

/-- A registry with the identifiers only. -/
def eventRegistry : SortRegistry Int Int where
  name := "events"
  fields := [("id", idField)]
  default := [{ field := "id" }]
  tieBreaker := { field := "id" }
  tieBreakerWasString := true
  tieField := idField
  default_ne := List.cons_ne_nil _ _
  requireField_tie := rfl
  tie_not_nullable := rfl
  tie_unique := rfl

/-- The terms of its default plan. -/
def eventKeys : List (String × SortDirection × NullPlacement) := [("id", .asc, .last)]

/-- The fingerprint of its default plan. -/
def eventFingerprint : String := "22365012baf3c684eb89daac"

/-- The text the fingerprint is made of. -/
def eventFingerprintText : KnownText where
  value := fingerprintPayload "events" eventKeys
  text := "\x7b\"registry\":\"events\",\"terms\":[\x7b\"direction\":\"asc\"," ++
    "\"field\":\"id\",\"nulls\":\"last\"\x7d]\x7d"
  hexdigest := "22365012baf3c684eb89daaca557f904ad7070b69efa12412c1481067c092ff2"

/-- The payload of the cursor after the event 7. -/
def cursorText7 : KnownText where
  value := statePayload ⟨eventFingerprint, [.int 7], some "active"⟩
  text := "\x7b\"q\":\"active\",\"s\":\"22365012baf3c684eb89daac\",\"v\":2,\"values\":[7]\x7d"
  digest := 0x127d40f82265f7cff13258c6eea3b9b3e502d071fbcc4752c3f859534bdc1ff2

/-- The payload of the cursor after the event 9. -/
def cursorText9 : KnownText where
  value := statePayload ⟨eventFingerprint, [.int 9], some "active"⟩
  text := "\x7b\"q\":\"active\",\"s\":\"22365012baf3c684eb89daac\",\"v\":2,\"values\":[9]\x7d"
  digest := 0x788f4f4ae47aec0e9fe8a9373d5cad2c2269f225679aed4c41027157a2b15fc7

/-- The library on the fingerprint of the plan and on these cursors. -/
def eventLibrary : Primitives :=
  .onTexts [eventFingerprintText, cursorText7, cursorText9] fun value =>
    if (value.field "registry").isSome then eventFingerprintText
    else match value.field "values" with
      | some (.arr [.int 9]) => cursorText9
      | _ => cursorText7

/-- The default plan. -/
def eventPlan : SortPlan Int Int := ⟨[⟨idField, .asc, .last⟩], eventFingerprint⟩

/-- The call that signed the cursor after the event 7. -/
def eventCall : Signed := .state "events" eventKeys [some (.int 7)] (some "active")

theorem resolve_eventPlan : eventRegistry.resolve eventLibrary [] = .ok eventPlan := rfl

theorem payload_eventCall : eventCall.payload eventLibrary = .ok cursorText7.value := rfl

theorem readsBack_cursorText7 : eventLibrary.ReadsBack cursorText7.value := rfl

/-- Its token. -/
def eventToken : String := sampleCodec.sign eventLibrary cursorText7.value

/-- All events. -/
def eventStatement : Select (List Int) Int Int where
  source db := db
  entity event := event

/-- The token is accepted for the next page of active events. -/
theorem eventToken_accepted :
    ∃ query, prepareSortedQuery eventLibrary sampleCodec eventPlan (some "active") eventStatement
      (some eventToken) 50 = .ok query := by
  have hdecode : sampleCodec.decodeState eventLibrary eventToken =
      .ok ⟨eventFingerprint, [.int 7], some "active"⟩ :=
    CursorCodec.decodeState_sign readsBack_cursorText7
  have hvalues : cursorValues eventLibrary sampleCodec eventPlan (some "active") eventToken =
      .ok [some (.int 7)] := by
    rw [cursorValues, hdecode]
    rfl
  rw [prepareSortedQuery, afterCursor, hvalues]
  exact ⟨_, rfl⟩

theorem cursor_binding_event :
    (∃ query, prepareSortedQuery eventLibrary sampleCodec eventPlan (some "active") eventStatement
      (some eventToken) 50 = .ok query) ∧
    BoundTo eventLibrary [eventCall] eventToken "events" eventKeys (some "active") := by
  have hsigned : Unforgeable eventLibrary sampleCodec [eventCall] eventToken :=
    fun _ _ _ => ⟨eventCall, List.mem_singleton_self _, carries_sign payload_eventCall⟩
  have hjson : ReadsBackAll eventLibrary [eventCall] := by
    intro call hcall payload hpayload
    rw [List.mem_singleton.mp hcall, payload_eventCall] at hpayload
    obtain rfl := Except.ok.inj hpayload
    exact readsBack_cursorText7
  have hkeys : ∀ name keys, IsSignedFor [eventCall] name keys →
      name = "events" ∧ keys = eventKeys := by
    rintro name keys ⟨values, query, hmem⟩
    cases List.mem_singleton.mp hmem
    exact ⟨rfl, rfl⟩
  have hcollision : CollisionFree eventLibrary [eventCall] eventRegistry.name eventPlan.keys := by
    refine ⟨?_, rfl, ?_⟩
    · intro name keys hfor _
      obtain ⟨rfl, rfl⟩ := hkeys name keys hfor
      rfl
    · intro name keys hfor
      obtain ⟨rfl, rfl⟩ := hkeys name keys hfor
      rfl
  refine ⟨eventToken_accepted, ?_⟩
  have hbinding := cursor_binding resolve_eventPlan hsigned hjson hcollision (some "active")
    eventStatement 50
  rcases hbinding.1 with hbound | ⟨error, herror, -⟩
  · exact hbound
  · obtain ⟨query, hquery⟩ := eventToken_accepted
    rw [hquery] at herror
    cases herror

end ProdkitStorage.Database

import ProdkitStorage.Foundation.Json
import ProdkitStorage.Foundation.Transition
import ProdkitStorage.Python.Error

/-!
# The idempotency store

`redis/idempotency.py`: the three Lua scripts and the client's calls of them.
The value of the key is the JSON object a script stored, and both decoders read
back the object that was written, so the model keeps the object itself.  Redis
runs a script atomically, and a client only inspects the reply, so a call is one
step on the record.  The async store runs the same scripts.

`Record` is what the record is meant to be.  The faithful state stores JSON, and
`Stored` says which JSON each abstract record is.  The argument turns on two facts: a
completed record has no `token` member, so no token matches it, and a token is
drawn once, so only the begin that drew it recognises the record it created.
-/

namespace ProdkitStorage.Redis.Idempotency

open ProdkitStorage.Foundation (Json System)
open ProdkitStorage.Foundation.Json (eqStr)
open ProdkitStorage.Python

/-! ## The scripts -/

/-- `_BEGIN_SCRIPT`: the stored value after it, and the reply. -/
def beginScript (stored : Option Json) (proposed : Json) : Option Json × Json :=
  match stored with
  | some existing => (some existing, existing)
  | none => (some proposed, proposed)

/-- `_COMPLETE_SCRIPT`. -/
def completeScript (stored : Option Json) (token fingerprint : String) (record : Json) :
    Option Json × Int :=
  match stored with
  | none => (none, 0)
  | some current =>
      if !eqStr (current.field "token") token then (some current, -1)
      else if !eqStr (current.field "fingerprint") fingerprint then (some current, -1)
      else (some record, 1)

/-- `_RELEASE_SCRIPT`. -/
def releaseScript (stored : Option Json) (token : String) : Option Json × Int :=
  match stored with
  | none => (none, 0)
  | some current =>
      if !eqStr (current.field "token") token then (some current, -1)
      else (none, 1)

/-! ## The store -/

/-- The values of `IdempotencyResult.status`. -/
inductive Outcome where
  | started
  | inProgress
  | completed
deriving DecidableEq, Repr

/-- `IdempotencyResult`. -/
structure IdempotencyResult where
  status : Outcome
  token : Option String := none
  response : Json := .null

/-- The record `begin` proposes. -/
def inProgressRecord (token fingerprint : String) : Json :=
  .obj [("status", .str "in_progress"), ("token", .str token), ("fingerprint", .str fingerprint)]

/-- The record `complete` stores. -/
def completedRecord (fingerprint : String) (response : Json) : Json :=
  .obj [("status", .str "completed"), ("fingerprint", .str fingerprint), ("response", response)]

/-- What `begin` makes of the script's reply. -/
def readReply (existing : Json) (token fingerprint : String) :
    Except PyError IdempotencyResult :=
  if eqStr (existing.field "token") token then
    .ok { status := .started, token := some token }
  else if !eqStr (existing.field "fingerprint") fingerprint then
    .error (.idempotencyConflictError "idempotency key was reused with a different request")
  else match existing.field "status" with
    | none => .error (.keyError "status")
    | some status =>
        if eqStr (some status) "completed" then
          .ok { status := .completed, response := (existing.field "response").getD .null }
        else .ok { status := .inProgress }

/-- `SyncIdempotencyStore.begin`.  `token` is the `secrets.token_urlsafe(24)` it draws. -/
def beginCall (stored : Option Json) (fingerprint : String) (processingTtlSeconds : Int)
    (token : String) : Option Json × Except PyError IdempotencyResult :=
  if processingTtlSeconds ≤ 0 ∨ fingerprint = "" then
    (stored, .error (.valueError "processing TTL and fingerprint must be valid"))
  else
    let after := beginScript stored (inProgressRecord token fingerprint)
    (after.1, readReply after.2 token fingerprint)

/-- `SyncIdempotencyStore.complete`. -/
def completeCall (stored : Option Json) (token fingerprint : String) (response : Json)
    (ttlSeconds : Int) : Option Json × Except PyError Unit :=
  if ttlSeconds ≤ 0 ∨ fingerprint = "" then
    (stored, .error (.valueError "completion TTL and fingerprint must be valid"))
  else
    let after := completeScript stored token fingerprint (completedRecord fingerprint response)
    (after.1,
      if after.2 ≠ 1 then
        .error (.idempotencyConflictError "idempotency lease is missing or no longer owned")
      else .ok ())

/-- `SyncIdempotencyStore.release`. -/
def releaseCall (stored : Option Json) (token : String) : Option Json × Bool :=
  let after := releaseScript stored token
  (after.1, after.2 == 1)

/-! ## The transition system -/

/-- The value of the key, and the tokens the begins have drawn so far. -/
structure State where
  stored : Option Json
  issued : List String

/-- A call with its outcome, or the end of the record's time to live. -/
inductive Event where
  | begin_ (fingerprint token : String) (outcome : Except PyError IdempotencyResult)
  | complete (token fingerprint : String) (response : Json) (outcome : Except PyError Unit)
  | release (token : String) (outcome : Bool)
  | expire

/-- One call of any client, or an expiry. -/
inductive Step : State → Event → State → Prop where
  | begin_ {s : State} {stored : Option Json} {outcome : Except PyError IdempotencyResult}
      (fingerprint token : String) (processingTtlSeconds : Int) :
      token ∉ s.issued →
      beginCall s.stored fingerprint processingTtlSeconds token = (stored, outcome) →
      Step s (.begin_ fingerprint token outcome) ⟨stored, token :: s.issued⟩
  | complete {s : State} {stored : Option Json} {outcome : Except PyError Unit}
      (token fingerprint : String) (response : Json) (ttlSeconds : Int) :
      completeCall s.stored token fingerprint response ttlSeconds = (stored, outcome) →
      Step s (.complete token fingerprint response outcome) ⟨stored, s.issued⟩
  | release {s : State} {stored : Option Json} {outcome : Bool} (token : String) :
      releaseCall s.stored token = (stored, outcome) →
      Step s (.release token outcome) ⟨stored, s.issued⟩
  | expire (s : State) : Step s .expire ⟨none, s.issued⟩

/-- The store of one key, which starts out absent. -/
def store : System State Event where
  init s := s = ⟨none, []⟩
  step := Step

/-- The key holds a record. -/
def Present (s : State) : Prop := s.stored ≠ none

/-- A begin that returned `started`. -/
def Event.Started (event : Event) (token fingerprint : String) : Prop :=
  event = .begin_ fingerprint token (.ok { status := .started, token := some token })

/-! ## The abstract record -/

/-- What the key holds. -/
inductive Record where
  | absent
  | inProgress (token fingerprint : String)
  | completed (fingerprint : String) (response : Json)

/-- `Stored value record`: the value of the key is the record's JSON. -/
inductive Stored : Option Json → Record → Prop where
  | absent : Stored none .absent
  | inProgress (token fingerprint : String) :
      Stored (some (inProgressRecord token fingerprint)) (.inProgress token fingerprint)
  | completed (fingerprint : String) (response : Json) :
      Stored (some (completedRecord fingerprint response)) (.completed fingerprint response)

/-- `begin` on an abstract record. -/
def Record.begin_ : Record → String → String → Record
  | .absent, token, fingerprint => .inProgress token fingerprint
  | record, _, _ => record

/-- `complete` on an abstract record. -/
def Record.complete : Record → String → String → Json → Record
  | .inProgress token fingerprint, token', fingerprint', response =>
      if token = token' ∧ fingerprint = fingerprint' then .completed fingerprint response
      else .inProgress token fingerprint
  | record, _, _, _ => record

/-- `release` on an abstract record. -/
def Record.release : Record → String → Record
  | .inProgress token fingerprint, token' =>
      if token = token' then .absent else .inProgress token fingerprint
  | record, _ => record

/-- The conflict `begin` raises. -/
def reused : PyError :=
  .idempotencyConflictError "idempotency key was reused with a different request"

/-- What `begin` returns on an abstract record. -/
def Record.reply : Record → String → String → Except PyError IdempotencyResult
  | .absent, token, _ => .ok { status := .started, token := some token }
  | .inProgress token' fingerprint', token, fingerprint =>
      if token' = token then .ok { status := .started, token := some token }
      else if fingerprint' = fingerprint then .ok { status := .inProgress }
      else .error reused
  | .completed fingerprint' response, _, fingerprint =>
      if fingerprint' = fingerprint then .ok { status := .completed, response := response }
      else .error reused

/-- The abstract store: the record, and the tokens drawn so far. -/
structure Spec where
  record : Record
  issued : List String

/-- The steps of the abstract store. -/
inductive Next : Spec → Event → Spec → Prop where
  | beginInvalid {a : Spec} (fingerprint token message : String) :
      token ∉ a.issued →
      Next a (.begin_ fingerprint token (.error (.valueError message)))
        ⟨a.record, token :: a.issued⟩
  | begin_ {a : Spec} (fingerprint token : String) :
      token ∉ a.issued →
      Next a (.begin_ fingerprint token (a.record.reply token fingerprint))
        ⟨a.record.begin_ token fingerprint, token :: a.issued⟩
  | completed {issued : List String} (token fingerprint : String) (response : Json) :
      Next ⟨.inProgress token fingerprint, issued⟩
        (.complete token fingerprint response (.ok ())) ⟨.completed fingerprint response, issued⟩
  | completeRefused {a : Spec} (token fingerprint : String) (response : Json) (error : PyError) :
      Next a (.complete token fingerprint response (.error error)) a
  | released {issued : List String} (token fingerprint : String) :
      Next ⟨.inProgress token fingerprint, issued⟩ (.release token true) ⟨.absent, issued⟩
  | releaseRefused {a : Spec} (token : String) : Next a (.release token false) a
  | expire {a : Spec} : Next a .expire ⟨.absent, a.issued⟩

/-- The abstract store, which starts out absent. -/
def spec : System Spec Event where
  init a := a = ⟨.absent, []⟩
  step := Next

/-- The faithful state holds the abstract record's JSON. -/
structure Represents (s : State) (a : Spec) : Prop where
  stored : Stored s.stored a.record
  issued : s.issued = a.issued

/-! ## The scripts refine the abstract operations -/

@[simp] theorem inProgressRecord_token (token fingerprint : String) :
    (inProgressRecord token fingerprint).field "token" = some (.str token) := rfl

@[simp] theorem inProgressRecord_fingerprint (token fingerprint : String) :
    (inProgressRecord token fingerprint).field "fingerprint" = some (.str fingerprint) := rfl

@[simp] theorem inProgressRecord_status (token fingerprint : String) :
    (inProgressRecord token fingerprint).field "status" = some (.str "in_progress") := rfl

/-- The completed record has dropped the token. -/
@[simp] theorem completedRecord_token (fingerprint : String) (response : Json) :
    (completedRecord fingerprint response).field "token" = none := rfl

@[simp] theorem completedRecord_fingerprint (fingerprint : String) (response : Json) :
    (completedRecord fingerprint response).field "fingerprint" = some (.str fingerprint) := rfl

@[simp] theorem completedRecord_status (fingerprint : String) (response : Json) :
    (completedRecord fingerprint response).field "status" = some (.str "completed") := rfl

@[simp] theorem completedRecord_response (fingerprint : String) (response : Json) :
    (completedRecord fingerprint response).field "response" = some response := rfl

/-- `_BEGIN_SCRIPT` creates the record of an absent key only. -/
theorem beginScript_stored {stored : Option Json} {record : Record} (h : Stored stored record)
    (token fingerprint : String) :
    Stored (beginScript stored (inProgressRecord token fingerprint)).1
      (record.begin_ token fingerprint) := by
  cases h with
  | absent => exact .inProgress token fingerprint
  | inProgress token' fingerprint' => exact .inProgress token' fingerprint'
  | completed fingerprint' response => exact .completed fingerprint' response

/-- `_COMPLETE_SCRIPT` answers 1 exactly for the token and fingerprint of the record in progress. -/
theorem completeScript_stored {stored : Option Json} {record : Record} (h : Stored stored record)
    (token fingerprint : String) (response : Json) :
    let after := completeScript stored token fingerprint (completedRecord fingerprint response)
    Stored after.1 (record.complete token fingerprint response) ∧
      (after.2 = 1 ↔ record = .inProgress token fingerprint) := by
  cases h with
  | absent => exact ⟨.absent, by simp [completeScript]⟩
  | inProgress token' fingerprint' =>
      by_cases ht : token' = token
      · by_cases hf : fingerprint' = fingerprint
        · subst ht hf
          simpa [completeScript, Record.complete] using Stored.completed fingerprint' response
        · simpa [completeScript, Record.complete, ht, hf] using
            Stored.inProgress token fingerprint'
      · simpa [completeScript, Record.complete, ht] using Stored.inProgress token' fingerprint'
  | completed fingerprint' response' =>
      simpa [completeScript, Record.complete] using Stored.completed fingerprint' response'

/-- `_RELEASE_SCRIPT` answers 1 exactly for the token of the record in progress. -/
theorem releaseScript_stored {stored : Option Json} {record : Record} (h : Stored stored record)
    (token : String) :
    Stored (releaseScript stored token).1 (record.release token) ∧
      ((releaseScript stored token).2 = 1 ↔
        ∃ fingerprint, record = .inProgress token fingerprint) := by
  cases h with
  | absent => exact ⟨.absent, by simp [releaseScript]⟩
  | inProgress token' fingerprint' =>
      by_cases ht : token' = token
      · subst ht
        simpa [releaseScript, Record.release] using Stored.absent
      · simpa [releaseScript, Record.release, ht] using Stored.inProgress token' fingerprint'
  | completed fingerprint' response' =>
      simpa [releaseScript, Record.release] using Stored.completed fingerprint' response'

/-- What `begin` returns on each record. -/
theorem readReply_stored {stored : Option Json} {record : Record} (h : Stored stored record)
    (token fingerprint : String) :
    readReply (beginScript stored (inProgressRecord token fingerprint)).2 token fingerprint =
      record.reply token fingerprint := by
  cases h with
  | absent => simp [beginScript, readReply, Record.reply]
  | inProgress token' fingerprint' =>
      by_cases ht : token' = token
      · simp [beginScript, readReply, Record.reply, ht]
      · by_cases hf : fingerprint' = fingerprint
        · simp [beginScript, readReply, Record.reply, ht, hf]
        · simp [beginScript, readReply, Record.reply, reused, ht, hf]
  | completed fingerprint' response =>
      by_cases hf : fingerprint' = fingerprint
      · simp [beginScript, readReply, Record.reply, hf]
      · simp [beginScript, readReply, Record.reply, reused, hf]

/-- Every step of the store is a step of the abstract store. -/
theorem store_simulates : store.Simulates spec Represents := by
  intro s event t hstep a ha
  obtain ⟨h, hissued⟩ := ha
  cases hstep with
  | begin_ fingerprint token processingTtlSeconds hfresh hcall =>
      unfold beginCall at hcall
      rw [hissued] at hfresh ⊢
      split at hcall
      · obtain ⟨rfl, rfl⟩ := Prod.mk.inj hcall
        exact ⟨⟨a.record, token :: a.issued⟩, ⟨h, rfl⟩, .beginInvalid fingerprint token _ hfresh⟩
      · obtain ⟨rfl, rfl⟩ := Prod.mk.inj hcall
        rw [readReply_stored h]
        exact ⟨⟨a.record.begin_ token fingerprint, token :: a.issued⟩,
          ⟨beginScript_stored h token fingerprint, rfl⟩, .begin_ fingerprint token hfresh⟩
  | complete token fingerprint response ttlSeconds hcall =>
      unfold completeCall at hcall
      split at hcall
      · obtain ⟨rfl, rfl⟩ := Prod.mk.inj hcall
        exact ⟨a, ⟨h, hissued⟩, .completeRefused token fingerprint response _⟩
      · obtain ⟨rfl, rfl⟩ := Prod.mk.inj hcall
        obtain ⟨hstored, hone⟩ := completeScript_stored h token fingerprint response
        obtain ⟨record, issued⟩ := a
        by_cases hr : record = .inProgress token fingerprint
        · subst hr
          rw [if_neg (by simpa using hone.mpr rfl)]
          refine ⟨⟨.completed fingerprint response, issued⟩, ⟨?_, hissued⟩,
            .completed token fingerprint response⟩
          simpa [Record.complete] using hstored
        · rw [if_pos (fun h1 => hr (hone.mp h1))]
          refine ⟨⟨record, issued⟩, ⟨?_, hissued⟩,
            .completeRefused token fingerprint response _⟩
          have hsame : record.complete token fingerprint response = record := by
            cases record with
            | absent => rfl
            | inProgress token' fingerprint' =>
                exact if_neg (fun he => hr (by rw [he.1, he.2]))
            | completed fingerprint' response' => rfl
          exact hsame ▸ hstored
  | release token hcall =>
      unfold releaseCall at hcall
      obtain ⟨rfl, rfl⟩ := Prod.mk.inj hcall
      obtain ⟨hstored, hone⟩ := releaseScript_stored h token
      obtain ⟨record, issued⟩ := a
      by_cases hr : ∃ fingerprint, record = .inProgress token fingerprint
      · have htrue : ((releaseScript s.stored token).2 == 1) = true := by simpa using hone.mpr hr
        obtain ⟨fingerprint, rfl⟩ := hr
        rw [htrue]
        refine ⟨⟨.absent, issued⟩, ⟨?_, hissued⟩, .released token fingerprint⟩
        simpa [Record.release] using hstored
      · have hfalse : ((releaseScript s.stored token).2 == 1) = false := by
          simpa using fun h1 => hr (hone.mp h1)
        have hsame : record.release token = record := by
          cases record with
          | absent => rfl
          | inProgress token' fingerprint' =>
              exact if_neg (fun he => hr ⟨fingerprint', by rw [he]⟩)
          | completed fingerprint' response' => rfl
        rw [hfalse]
        exact ⟨⟨record, issued⟩, ⟨hsame ▸ hstored, hissued⟩, .releaseRefused token⟩
  | expire => exact ⟨⟨.absent, a.issued⟩, ⟨.absent, hissued⟩, .expire⟩

/-- Every reachable state represents a reachable abstract state. -/
theorem reaches_represents {h : List Event} {s : State} (hr : store.Reaches h s) :
    ∃ a, Represents s a ∧ spec.Reaches h a := by
  refine store_simulates.reaches ?_ hr
  rintro s rfl
  exact ⟨⟨.absent, []⟩, ⟨.absent, rfl⟩, rfl⟩

/-! ## The abstract protocol -/

/-- A record in progress carries a token some begin drew. -/
def Spec.Invariant (a : Spec) : Prop :=
  ∀ token fingerprint, a.record = .inProgress token fingerprint → token ∈ a.issued

theorem next_invariant {a b : Spec} {event : Event} (ha : a.Invariant) (hnext : Next a event b) :
    b.Invariant := by
  intro token fingerprint hb
  cases hnext with
  | beginInvalid => exact List.mem_cons_of_mem _ (ha token fingerprint hb)
  | begin_ fingerprint' token' hfresh =>
      cases hrec : a.record with
      | absent =>
          rw [hrec] at hb
          simp only [Record.begin_, Record.inProgress.injEq] at hb
          exact hb.1 ▸ List.mem_cons_self ..
      | inProgress token'' fingerprint'' =>
          rw [hrec] at hb
          exact List.mem_cons_of_mem _ (ha token fingerprint (hrec.trans hb))
      | completed fingerprint'' response =>
          rw [hrec] at hb
          cases hb
  | completed => cases hb
  | completeRefused => exact ha token fingerprint hb
  | released => cases hb
  | releaseRefused => exact ha token fingerprint hb
  | expire => cases hb

theorem spec_invariant {h : List Event} {a : Spec} (hr : spec.Reaches h a) : a.Invariant := by
  refine hr.invariant (I := fun _ a => a.Invariant) ?_ ?_
  · rintro a rfl token fingerprint h
    cases h
  · intro _ a event b _ ha hnext
    exact next_invariant ha hnext

/-- A begin returns `started` only when it creates the record, under its own token. -/
theorem next_started {a b : Spec} {event : Event} (ha : a.Invariant) (hnext : Next a event b)
    {token fingerprint : String} (hstarted : event.Started token fingerprint) :
    a.record = .absent ∧ b.record = .inProgress token fingerprint := by
  cases hnext with
  | begin_ fingerprint' token' hfresh =>
      cases hrec : a.record with
      | absent =>
          simp only [Event.Started, Event.begin_.injEq] at hstarted
          obtain ⟨rfl, rfl, -⟩ := hstarted
          exact ⟨rfl, by simp [Record.begin_]⟩
      | inProgress token'' fingerprint'' =>
          -- the token is fresh, so it is not the one the record carries
          have hne : token'' ≠ token' := by
            rintro rfl
            exact hfresh (ha _ _ hrec)
          by_cases hf : fingerprint'' = fingerprint'
          · simp [Event.Started, Record.reply, hrec, hne, hf] at hstarted
          · simp [Event.Started, Record.reply, hrec, hne, hf] at hstarted
      | completed fingerprint'' response =>
          by_cases hf : fingerprint'' = fingerprint'
          · simp [Event.Started, Record.reply, hrec, hf] at hstarted
          · simp [Event.Started, Record.reply, hrec, hf] at hstarted
  | beginInvalid => simp [Event.Started] at hstarted
  | completed => simp [Event.Started] at hstarted
  | completeRefused => simp [Event.Started] at hstarted
  | released => simp [Event.Started] at hstarted
  | releaseRefused => simp [Event.Started] at hstarted
  | expire => simp [Event.Started] at hstarted

/-- Only a begin that returns `started` ends an absence. -/
theorem next_created {a b : Spec} {event : Event} (hnext : Next a event b)
    (habsent : a.record = .absent) (hpresent : b.record ≠ .absent) :
    ∃ token fingerprint, event.Started token fingerprint := by
  cases hnext with
  | beginInvalid => exact absurd habsent hpresent
  | begin_ fingerprint token hfresh =>
      refine ⟨token, fingerprint, ?_⟩
      simp [Event.Started, Record.reply, habsent]
  | completed => cases habsent
  | completeRefused => exact absurd habsent hpresent
  | released => cases habsent
  | releaseRefused => exact absurd habsent hpresent
  | expire => exact absurd rfl hpresent

/-- A token that was drawn and is not in the record never comes back. -/
theorem next_stale {a b : Spec} {event : Event} (hnext : Next a event b) {token : String}
    (h : token ∈ a.issued ∧ ∀ fingerprint, a.record ≠ .inProgress token fingerprint) :
    token ∈ b.issued ∧ ∀ fingerprint, b.record ≠ .inProgress token fingerprint := by
  obtain ⟨hissued, hrecord⟩ := h
  cases hnext with
  | beginInvalid => exact ⟨List.mem_cons_of_mem _ hissued, hrecord⟩
  | begin_ fingerprint' token' hfresh =>
      refine ⟨List.mem_cons_of_mem _ hissued, ?_⟩
      intro fingerprint hb
      cases hrec : a.record with
      | absent =>
          rw [hrec] at hb
          simp only [Record.begin_, Record.inProgress.injEq] at hb
          exact hfresh (hb.1 ▸ hissued)
      | inProgress token'' fingerprint'' =>
          rw [hrec] at hb
          exact hrecord fingerprint (hrec.trans hb)
      | completed fingerprint'' response =>
          rw [hrec] at hb
          cases hb
  | completed => exact ⟨hissued, by simp⟩
  | completeRefused => exact ⟨hissued, hrecord⟩
  | released => exact ⟨hissued, by simp⟩
  | releaseRefused => exact ⟨hissued, hrecord⟩
  | expire => exact ⟨hissued, by simp⟩

/-! ## What the protocol guarantees -/

theorem Stored.completed_inv {record : Record} {fingerprint : String} {response : Json}
    (h : Stored (some (completedRecord fingerprint response)) record) :
    record = .completed fingerprint response := by
  generalize hv : some (completedRecord fingerprint response) = value at h
  cases h with
  | absent => cases hv
  | inProgress token' fingerprint' => simp [inProgressRecord, completedRecord] at hv
  | completed fingerprint' response' =>
      simp only [completedRecord, Option.some.injEq, Json.obj.injEq, List.cons.injEq,
        Prod.mk.injEq, Json.str.injEq, and_true, true_and] at hv
      rw [hv.1, hv.2]

/-- The stored value of an abstract record is determined by it. -/
theorem Stored.inProgress_eq {value : Option Json} {token fingerprint : String}
    (h : Stored value (.inProgress token fingerprint)) :
    value = some (inProgressRecord token fingerprint) := by
  cases h with
  | inProgress => rfl

theorem Stored.completed_eq {value : Option Json} {fingerprint : String} {response : Json}
    (h : Stored value (.completed fingerprint response)) :
    value = some (completedRecord fingerprint response) := by
  cases h with
  | completed => rfl

theorem Stored.absent_iff {value : Option Json} {record : Record} (h : Stored value record) :
    value = none ↔ record = .absent := by
  cases h with
  | absent => simp
  | inProgress => simp
  | completed => simp

/-- Equal records have equal stored values. -/
theorem Stored.unique {value value' : Option Json} {record : Record} (h : Stored value record)
    (h' : Stored value' record) : value = value' := by
  cases h with
  | absent => cases h'; rfl
  | inProgress => cases h'; rfl
  | completed => cases h'; rfl

/-- A call under a token that is not the one in progress. -/
structure Harmless (s : State) (token : String) : Prop where
  complete : ∀ fingerprint response ttlSeconds, ∃ error,
    completeCall s.stored token fingerprint response ttlSeconds = (s.stored, .error error)
  release : releaseCall s.stored token = (s.stored, false)

/-- The guarantees of the protocol in the state `s`. -/
structure Safe (s : State) : Prop where
  /-- The record is absent, in progress or completed. -/
  form : s.stored = none ∨
    (∃ token fingerprint, s.stored = some (inProgressRecord token fingerprint)) ∨
    ∃ fingerprint response, s.stored = some (completedRecord fingerprint response)
  /-- A begin that returns `started` has created the record, under its own token. -/
  started : ∀ event t token fingerprint, Step s event t → event.Started token fingerprint →
    s.stored = none ∧ t.stored = some (inProgressRecord token fingerprint)
  /-- A record is only created by a begin that returns `started`. -/
  created : ∀ event t, Step s event t → s.stored = none → t.stored ≠ none →
    ∃ token fingerprint, event.Started token fingerprint
  /-- `begin` leaves the record that is there. -/
  beginKeeps : ∀ fingerprint token outcome t, Step s (.begin_ fingerprint token outcome) t →
    s.stored ≠ none → t.stored = s.stored
  /-- `complete` changes the record in progress under its token and fingerprint, or raises. -/
  complete : ∀ token fingerprint response outcome t,
    Step s (.complete token fingerprint response outcome) t →
      s.stored = some (inProgressRecord token fingerprint) ∧ outcome = .ok () ∧
          t.stored = some (completedRecord fingerprint response) ∨
        t.stored = s.stored ∧ ∃ error, outcome = .error error
  /-- `release` deletes the record in progress under its token, or returns `False`. -/
  release : ∀ token outcome t, Step s (.release token outcome) t →
    (∃ fingerprint, s.stored = some (inProgressRecord token fingerprint)) ∧ outcome = true ∧
        t.stored = none ∨
      t.stored = s.stored ∧ outcome = false
  /-- A completed record changes only by expiry. -/
  completed : ∀ fingerprint response, s.stored = some (completedRecord fingerprint response) →
    ∀ event t, Step s event t → t.stored = s.stored ∨ event = .expire
  /-- While it lasts, `begin` replays the response or raises the conflict. -/
  replay : ∀ fingerprint response, s.stored = some (completedRecord fingerprint response) →
    ∀ fingerprint' token processingTtlSeconds, 0 < processingTtlSeconds → fingerprint' ≠ "" →
      beginCall s.stored fingerprint' processingTtlSeconds token =
        (s.stored, if fingerprint' = fingerprint
          then .ok { status := .completed, response := response } else .error reused)
  /-- From one absence to the next exactly one begin returns `started`: the first step. -/
  lifetime : ∀ event events t, s.stored = none →
    (store.within Present).Run s (event :: events) t →
      ∃ token fingerprint, event.Started token fingerprint ∧
        ∀ later ∈ events, ∀ token' fingerprint', ¬later.Started token' fingerprint'
  /-- A token whose record is gone never completes or deletes a later record. -/
  stale : ∀ token, token ∈ s.issued →
    (∀ fingerprint, s.stored ≠ some (inProgressRecord token fingerprint)) →
      ∀ events t, store.Run s events t → Harmless t token

/-- A call under a token that is not the one in progress changes nothing. -/
theorem Stored.harmless {s : State} {record : Record} (h : Stored s.stored record) {token : String}
    (hrecord : ∀ fingerprint, record ≠ .inProgress token fingerprint) : Harmless s token where
  complete fingerprint response ttlSeconds := by
    unfold completeCall
    split
    · exact ⟨_, rfl⟩
    · obtain ⟨hstored, hone⟩ := completeScript_stored h token fingerprint response
      have hsame : record.complete token fingerprint response = record := by
        cases record with
        | absent => rfl
        | inProgress token' fingerprint' =>
            exact if_neg (fun he => hrecord fingerprint' (by rw [he.1]))
        | completed fingerprint' response' => rfl
      have hkept := (hsame ▸ hstored).unique h
      exact ⟨.idempotencyConflictError "idempotency lease is missing or no longer owned",
        Prod.ext hkept (if_pos fun h1 => hrecord fingerprint (hone.mp h1))⟩
  release := by
    obtain ⟨hstored, hone⟩ := releaseScript_stored h token
    have hsame : record.release token = record := by
      cases record with
      | absent => rfl
      | inProgress token' fingerprint' =>
          exact if_neg (fun he => hrecord fingerprint' (by rw [he]))
      | completed fingerprint' response' => rfl
    have hfalse : ((releaseScript s.stored token).2 == 1) = false := by
      simpa using fun h1 => (hone.mp h1).elim hrecord
    have hkept := (hsame ▸ hstored).unique h
    exact Prod.ext hkept hfalse

/-- While a record is there, no begin returns `started`. -/
theorem spec_lifetime {a b : Spec} {events : List Event} (ha : a.Invariant)
    (hpresent : a.record ≠ .absent)
    (hrun : (spec.within fun a => a.record ≠ .absent).Run a events b) :
    ∀ event ∈ events, ∀ token fingerprint, ¬event.Started token fingerprint := by
  induction hrun with
  | nil a => simp
  | cons hstep _ ih =>
      intro event hevent token fingerprint hstarted
      rcases List.mem_cons.mp hevent with rfl | hevent
      · exact hpresent (next_started ha hstep.1 hstarted).1
      · exact ih (next_invariant ha hstep.1) hstep.2 event hevent token fingerprint hstarted

/-- The simulation keeps presence. -/
theorem within_simulates :
    (store.within Present).Simulates (spec.within fun a => a.record ≠ .absent) Represents := by
  intro s event t hstep a ha
  obtain ⟨b, hb, hnext⟩ := store_simulates s event t hstep.1 a ha
  exact ⟨b, hb, hnext, fun h => hstep.2 (hb.stored.absent_iff.mpr h)⟩

/-- A state that represents an abstract state with the invariant is safe. -/
theorem Represents.safe {s : State} {a : Spec} (hs : Represents s a) (ha : a.Invariant) :
    Safe s where
  form := by
    obtain ⟨record, issued⟩ := a
    have h := hs.stored
    generalize s.stored = value at h ⊢
    cases h with
    | absent => exact .inl rfl
    | inProgress token fingerprint => exact .inr (.inl ⟨token, fingerprint, rfl⟩)
    | completed fingerprint response => exact .inr (.inr ⟨fingerprint, response, rfl⟩)
  started event t token fingerprint hstep hstarted := by
    obtain ⟨b, hb, hnext⟩ := store_simulates s event t hstep a hs
    obtain ⟨habsent, hcreated⟩ := next_started ha hnext hstarted
    exact ⟨hs.stored.absent_iff.mpr habsent, (hcreated ▸ hb.stored).inProgress_eq⟩
  created event t hstep hnone hsome := by
    obtain ⟨b, hb, hnext⟩ := store_simulates s event t hstep a hs
    exact next_created hnext (hs.stored.absent_iff.mp hnone)
      fun h => hsome (hb.stored.absent_iff.mpr h)
  beginKeeps fingerprint token outcome t hstep hsome := by
    obtain ⟨b, hb, hnext⟩ := store_simulates s _ t hstep a hs
    cases hnext with
    | beginInvalid => exact hb.stored.unique hs.stored
    | begin_ =>
        have hkept : a.record.begin_ token fingerprint = a.record := by
          cases hrec : a.record with
          | absent => exact absurd (hs.stored.absent_iff.mpr hrec) hsome
          | inProgress => rfl
          | completed => rfl
        exact hb.stored.unique (show Stored s.stored (a.record.begin_ _ _) from
          hkept.symm ▸ hs.stored)
  complete token fingerprint response outcome t hstep := by
    obtain ⟨b, hb, hnext⟩ := store_simulates s _ t hstep a hs
    cases hnext with
    | completed => exact .inl ⟨hs.stored.inProgress_eq, rfl, hb.stored.completed_eq⟩
    | completeRefused _ _ _ error => exact .inr ⟨hb.stored.unique hs.stored, error, rfl⟩
  release token outcome t hstep := by
    obtain ⟨b, hb, hnext⟩ := store_simulates s _ t hstep a hs
    cases hnext with
    | released _ fingerprint =>
        exact .inl ⟨⟨fingerprint, hs.stored.inProgress_eq⟩, rfl, hb.stored.absent_iff.mpr rfl⟩
    | releaseRefused => exact .inr ⟨hb.stored.unique hs.stored, rfl⟩
  completed fingerprint response hvalue event t hstep := by
    have hrec : a.record = .completed fingerprint response :=
      (hvalue ▸ hs.stored).completed_inv
    obtain ⟨b, hb, hnext⟩ := store_simulates s event t hstep a hs
    cases hnext with
    | beginInvalid => exact .inl (hb.stored.unique hs.stored)
    | begin_ fingerprint' token' =>
        have hkept : a.record.begin_ token' fingerprint' = a.record := by rw [hrec]; rfl
        exact .inl (hb.stored.unique (show Stored s.stored (a.record.begin_ token' fingerprint')
          from hkept.symm ▸ hs.stored))
    | completed => cases hrec
    | completeRefused => exact .inl (hb.stored.unique hs.stored)
    | released => cases hrec
    | releaseRefused => exact .inl (hb.stored.unique hs.stored)
    | expire => exact .inr rfl
  replay fingerprint response hvalue fingerprint' token processingTtlSeconds httl hfingerprint := by
    have hrec : a.record = .completed fingerprint response :=
      (hvalue ▸ hs.stored).completed_inv
    have hvalid : ¬(processingTtlSeconds ≤ 0 ∨ fingerprint' = "") := by
      simp [hfingerprint, httl]
    have hkept := (beginScript_stored hs.stored token fingerprint').unique
      (by rw [hrec]; exact hrec ▸ hs.stored)
    have hreply := readReply_stored hs.stored token fingerprint'
    rw [beginCall, if_neg hvalid]
    refine Prod.ext hkept (hreply.trans ?_)
    rw [hrec]
    simp [Record.reply, eq_comm]
  lifetime event events t hnone hrun := by
    obtain ⟨b, -, hrun'⟩ := within_simulates.run hrun a hs
    cases hrun' with
    | cons hstep hrest =>
        obtain ⟨token, fingerprint, hstarted⟩ :=
          next_created hstep.1 (hs.stored.absent_iff.mp hnone) hstep.2
        refine ⟨token, fingerprint, hstarted, ?_⟩
        exact spec_lifetime (next_invariant ha hstep.1) hstep.2 hrest
  stale token hissued hgone events t hrun := by
    have hrecord : ∀ fingerprint, a.record ≠ .inProgress token fingerprint := by
      intro fingerprint hrec
      exact hgone fingerprint (hrec ▸ hs.stored).inProgress_eq
    obtain ⟨b, hb, hrun'⟩ := store_simulates.run hrun a hs
    have hstale := hrun'.invariant
      (I := fun a => token ∈ a.issued ∧ ∀ fingerprint, a.record ≠ .inProgress token fingerprint)
      ⟨hs.issued ▸ hissued, hrecord⟩ fun _ _ _ h hnext => next_stale hnext h
    exact hb.stored.harmless hstale.2

/-- The protocol is safe in every state the clients and the expiries reach. -/
theorem idempotency_protocol {h : List Event} {s : State} (hr : store.Reaches h s) : Safe s := by
  obtain ⟨a, hs, ha⟩ := reaches_represents hr
  exact hs.safe (spec_invariant ha)

/-- It is safe after one client completed and a second was given the response. -/
theorem idempotency_protocol_replayed :
    Safe ⟨some (completedRecord "order-7" (.str "done")), ["retry", "first"]⟩ := by
  have hbegun : store.Reaches _ ⟨some (inProgressRecord "first" "order-7"), ["first"]⟩ :=
    .step (.init rfl) (.begin_ "order-7" "first" 60 (by decide) rfl)
  have hdone : store.Reaches _ ⟨some (completedRecord "order-7" (.str "done")), ["first"]⟩ :=
    .step hbegun (.complete "first" "order-7" (.str "done") 60 rfl)
  exact idempotency_protocol (.step hdone (.begin_ "order-7" "retry" 60 (by decide) rfl))

end ProdkitStorage.Redis.Idempotency

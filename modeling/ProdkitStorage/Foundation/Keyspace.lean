import Mathlib.Logic.Basic

/-!
# A keyspace with expiry

A server that maps keys to values, each with an optional instant it expires at,
and that reads one clock, in milliseconds.  A key whose instant has passed is
absent for every command, whether or not the server has dropped it yet, so
`live` is the only way to look at the keyspace.

The commands are those of a Redis server: `GET`, `SET` with `EX` or `PX`, `DEL`,
`PEXPIRE`, `EXPIRE` with its options `NX` and `GT`, and `upsert` for a command that
changes a value and keeps its expiry.  Times to live are positive.
-/

namespace ProdkitStorage.Foundation

/-- A value and the instant it expires at, `none` for never. -/
structure Entry (Value : Type) where
  value : Value
  expireAt : Option Nat
deriving DecidableEq, Repr

/-- The keys with their entries, expired ones included. -/
structure Keyspace (Key Value : Type) where
  /-- The clock, in milliseconds. -/
  now : Nat
  entry : Key → Option (Entry Value)

namespace Keyspace

variable {Key Value : Type} [DecidableEq Key]

/-- The server without keys. -/
def empty : Keyspace Key Value := ⟨0, fun _ => none⟩

/-- An entry has not expired at the instant `now`. -/
def unexpired (now : Nat) (entry : Entry Value) : Bool :=
  match entry.expireAt with
  | none => true
  | some expireAt => decide (now ≤ expireAt)

/-- The entry of a key that is there. -/
def live (ks : Keyspace Key Value) (key : Key) : Option (Entry Value) :=
  (ks.entry key).filter (unexpired ks.now)

/-- Replace the entry of one key. -/
def put (ks : Keyspace Key Value) (key : Key) (entry : Option (Entry Value)) :
    Keyspace Key Value :=
  { ks with entry := fun key' => if key' = key then entry else ks.entry key' }

/-- The clock goes on. -/
def tick (ks : Keyspace Key Value) (elapsed : Nat) : Keyspace Key Value :=
  { ks with now := ks.now + elapsed }

/-- The instant `seconds` from now. -/
def after (ks : Keyspace Key Value) (seconds : Nat) : Nat := ks.now + seconds * 1000

/-- `SET key value EX seconds`. -/
def setEx (ks : Keyspace Key Value) (key : Key) (value : Value) (seconds : Nat) :
    Keyspace Key Value :=
  ks.put key (some ⟨value, some (ks.after seconds)⟩)

/-- `GET key`. -/
def get (ks : Keyspace Key Value) (key : Key) : Option Value := (ks.live key).map Entry.value

/-- `SET key value PX milliseconds`. -/
def setPx (ks : Keyspace Key Value) (key : Key) (value : Value) (milliseconds : Nat) :
    Keyspace Key Value :=
  ks.put key (some ⟨value, some (ks.now + milliseconds)⟩)

/-- `PEXPIRE key milliseconds`. -/
def pexpire (ks : Keyspace Key Value) (key : Key) (milliseconds : Nat) : Keyspace Key Value :=
  match ks.live key with
  | none => ks
  | some entry => ks.put key (some { entry with expireAt := some (ks.now + milliseconds) })

/-- `DEL key`. -/
def del (ks : Keyspace Key Value) (key : Key) : Keyspace Key Value := ks.put key none

/-- `DEL key ...`. -/
def delAll (ks : Keyspace Key Value) (keys : List Key) : Keyspace Key Value := keys.foldl del ks

/-- Change the value of a key and keep its expiry, or create the key without one. -/
def upsert (ks : Keyspace Key Value) (key : Key) (create : Value) (change : Value → Value) :
    Keyspace Key Value :=
  match ks.live key with
  | none => ks.put key (some ⟨create, none⟩)
  | some entry => ks.put key (some { entry with value := change entry.value })

/-- `EXPIRE key seconds NX`: only when the key has no expiry. -/
def expireNx (ks : Keyspace Key Value) (key : Key) (seconds : Nat) : Keyspace Key Value :=
  match ks.live key with
  | some ⟨value, none⟩ => ks.put key (some ⟨value, some (ks.after seconds)⟩)
  | _ => ks

/-- `EXPIRE key seconds GT`: only when the new expiry is later; no expiry counts as latest. -/
def expireGt (ks : Keyspace Key Value) (key : Key) (seconds : Nat) : Keyspace Key Value :=
  match ks.live key with
  | some ⟨value, some expireAt⟩ =>
      if expireAt < ks.after seconds then ks.put key (some ⟨value, some (ks.after seconds)⟩) else ks
  | _ => ks

/-! ## What a command leaves on the server -/

@[simp] theorem unexpired_none (now : Nat) (value : Value) :
    unexpired now ⟨value, none⟩ = true := rfl

@[simp] theorem unexpired_some {now expireAt : Nat} {value : Value} :
    unexpired now ⟨value, some expireAt⟩ = true ↔ now ≤ expireAt := by
  simp [unexpired]

/-- What has not expired at an instant had not expired before it. -/
theorem unexpired_of_le {now later : Nat} {entry : Entry Value} (hle : now ≤ later)
    (h : unexpired later entry = true) : unexpired now entry = true := by
  obtain ⟨value, expireAt⟩ := entry
  cases expireAt with
  | none => rfl
  | some expireAt => exact unexpired_some.mpr (Nat.le_trans hle (unexpired_some.mp h))

@[simp] theorem now_put (ks : Keyspace Key Value) (key : Key) (entry : Option (Entry Value)) :
    (ks.put key entry).now = ks.now := rfl

@[simp] theorem now_del (ks : Keyspace Key Value) (key : Key) : (ks.del key).now = ks.now := rfl

@[simp] theorem now_setPx (ks : Keyspace Key Value) (key : Key) (value : Value)
    (milliseconds : Nat) : (ks.setPx key value milliseconds).now = ks.now := rfl

@[simp] theorem now_pexpire (ks : Keyspace Key Value) (key : Key) (milliseconds : Nat) :
    (ks.pexpire key milliseconds).now = ks.now := by
  unfold pexpire
  split
  · rfl
  · rfl

@[simp] theorem now_setEx (ks : Keyspace Key Value) (key : Key) (value : Value) (seconds : Nat) :
    (ks.setEx key value seconds).now = ks.now := rfl

theorem live_put (ks : Keyspace Key Value) (key key' : Key) (entry : Option (Entry Value)) :
    (ks.put key entry).live key' =
      if key' = key then entry.filter (unexpired ks.now) else ks.live key' := by
  by_cases h : key' = key
  · simp [live, put, h]
  · simp [live, put, h]

theorem live_put_other (ks : Keyspace Key Value) {key key' : Key} (entry : Option (Entry Value))
    (h : key' ≠ key) : (ks.put key entry).live key' = ks.live key' := by
  rw [live_put, if_neg h]

omit [DecidableEq Key] in
/-- A live key has an entry that has not expired. -/
theorem live_eq_some {ks : Keyspace Key Value} {key : Key} {entry : Entry Value} :
    ks.live key = some entry ↔ ks.entry key = some entry ∧ unexpired ks.now entry := by
  simp [live, Option.filter_eq_some_iff]

omit [DecidableEq Key] in
/-- A key that is there has not expired. -/
theorem live_le {ks : Keyspace Key Value} {key : Key} {value : Value} {expireAt : Nat}
    (h : ks.live key = some ⟨value, some expireAt⟩) : ks.now ≤ expireAt :=
  unexpired_some.mp (live_eq_some.mp h).2

theorem live_setEx_self (ks : Keyspace Key Value) (key : Key) (value : Value) (seconds : Nat) :
    (ks.setEx key value seconds).live key = some ⟨value, some (ks.after seconds)⟩ := by
  rw [setEx, live_put, if_pos rfl]
  simp [unexpired, after]

theorem live_setEx_other (ks : Keyspace Key Value) {key key' : Key} (value : Value) (seconds : Nat)
    (h : key' ≠ key) : (ks.setEx key value seconds).live key' = ks.live key' :=
  live_put_other ks _ h

theorem live_del (ks : Keyspace Key Value) (key key' : Key) :
    (ks.del key).live key' = if key' = key then none else ks.live key' := by
  rw [del, live_put]
  rfl

omit [DecidableEq Key] in
theorem get_eq_some {ks : Keyspace Key Value} {key : Key} {value : Value} :
    ks.get key = some value ↔ ∃ expireAt, ks.live key = some ⟨value, expireAt⟩ := by
  constructor
  · intro h
    obtain ⟨⟨value', expireAt⟩, hlive, rfl⟩ := Option.map_eq_some_iff.mp h
    exact ⟨expireAt, hlive⟩
  · rintro ⟨expireAt, hlive⟩
    rw [get, hlive]
    rfl

omit [DecidableEq Key] in
theorem get_eq_none {ks : Keyspace Key Value} {key : Key} :
    ks.get key = none ↔ ks.live key = none :=
  Option.map_eq_none_iff

theorem live_setPx_self (ks : Keyspace Key Value) (key : Key) (value : Value) (milliseconds : Nat) :
    (ks.setPx key value milliseconds).live key = some ⟨value, some (ks.now + milliseconds)⟩ := by
  rw [setPx, live_put, if_pos rfl]
  simp [unexpired]

theorem live_setPx_other (ks : Keyspace Key Value) {key key' : Key} (value : Value)
    (milliseconds : Nat) (h : key' ≠ key) :
    (ks.setPx key value milliseconds).live key' = ks.live key' :=
  live_put_other ks _ h

theorem live_pexpire_other (ks : Keyspace Key Value) {key key' : Key} (milliseconds : Nat)
    (h : key' ≠ key) : (ks.pexpire key milliseconds).live key' = ks.live key' := by
  unfold pexpire
  split
  · rfl
  · exact live_put_other ks _ h

theorem live_pexpire_self {ks : Keyspace Key Value} {key : Key} {entry : Entry Value}
    (milliseconds : Nat) (h : ks.live key = some entry) :
    (ks.pexpire key milliseconds).live key =
      some { entry with expireAt := some (ks.now + milliseconds) } := by
  simp [pexpire, h, live_put, unexpired]

/-- `PEXPIRE` keeps the value of every key. -/
theorem get_pexpire (ks : Keyspace Key Value) (key key' : Key) (milliseconds : Nat) :
    (ks.pexpire key milliseconds).get key' = ks.get key' := by
  by_cases hkey : key' = key
  · rw [hkey]
    cases hlive : ks.live key with
    | none => simp [pexpire, hlive]
    | some entry => rw [get, live_pexpire_self milliseconds hlive, get, hlive]; rfl
  · rw [get, live_pexpire_other ks milliseconds hkey, get]

/-- `DEL` removes exactly the keys it lists. -/
theorem live_delAll (ks : Keyspace Key Value) (keys : List Key) (key : Key) :
    (ks.delAll keys).live key = if key ∈ keys then none else ks.live key := by
  induction keys generalizing ks with
  | nil => simp [delAll]
  | cons first rest ih =>
      have hstep : ks.delAll (first :: rest) = (ks.del first).delAll rest := rfl
      rw [hstep, ih, live_del]
      by_cases hrest : key ∈ rest
      · simp [hrest]
      · by_cases hfirst : key = first
        · simp [hfirst]
        · simp [hrest, hfirst]

omit [DecidableEq Key] in
/-- Time only takes keys away. -/
theorem live_of_tick {ks : Keyspace Key Value} {elapsed : Nat} {key : Key} {entry : Entry Value}
    (h : (ks.tick elapsed).live key = some entry) : ks.live key = some entry := by
  obtain ⟨hentry, hfresh⟩ := live_eq_some.mp h
  refine live_eq_some.mpr ⟨hentry, ?_⟩
  obtain ⟨value, expireAt⟩ := entry
  cases expireAt with
  | none => rfl
  | some expireAt =>
      have hle : ks.now + elapsed ≤ expireAt := unexpired_some.mp hfresh
      exact unexpired_some.mpr (by omega)

omit [DecidableEq Key] in
/-- A key stays until its expiry. -/
theorem live_tick {ks : Keyspace Key Value} {elapsed : Nat} {key : Key} {value : Value}
    {expireAt : Nat} (h : ks.live key = some ⟨value, some expireAt⟩)
    (hle : ks.now + elapsed ≤ expireAt) :
    (ks.tick elapsed).live key = some ⟨value, some expireAt⟩ :=
  live_eq_some.mpr ⟨(live_eq_some.mp h).1, unexpired_some.mpr hle⟩

theorem live_upsert_other (ks : Keyspace Key Value) {key key' : Key} (create : Value)
    (change : Value → Value) (h : key' ≠ key) :
    (ks.upsert key create change).live key' = ks.live key' := by
  unfold upsert
  split
  · exact live_put_other ks _ h
  · exact live_put_other ks _ h

theorem live_upsert_absent {ks : Keyspace Key Value} {key : Key} (create : Value)
    (change : Value → Value) (h : ks.live key = none) :
    (ks.upsert key create change).live key = some ⟨create, none⟩ := by
  simp [upsert, h, live_put, unexpired]

theorem live_upsert_present {ks : Keyspace Key Value} {key : Key} {entry : Entry Value}
    (create : Value) (change : Value → Value) (h : ks.live key = some entry) :
    (ks.upsert key create change).live key = some { entry with value := change entry.value } := by
  have hfresh := (live_eq_some.mp h).2
  simpa [upsert, h, live_put, unexpired] using hfresh

@[simp] theorem now_upsert (ks : Keyspace Key Value) (key : Key) (create : Value)
    (change : Value → Value) : (ks.upsert key create change).now = ks.now := by
  unfold upsert
  split
  · rfl
  · rfl

/-! ## Extending an expiry -/

/-- `EXPIRE ... NX` and then `EXPIRE ... GT`, with the same time to live. -/
def extend (ks : Keyspace Key Value) (key : Key) (seconds : Nat) : Keyspace Key Value :=
  (ks.expireNx key seconds).expireGt key seconds

@[simp] theorem now_expireNx (ks : Keyspace Key Value) (key : Key) (seconds : Nat) :
    (ks.expireNx key seconds).now = ks.now := by
  unfold expireNx
  split
  · rfl
  · rfl

@[simp] theorem now_expireGt (ks : Keyspace Key Value) (key : Key) (seconds : Nat) :
    (ks.expireGt key seconds).now = ks.now := by
  unfold expireGt
  split
  · split
    · rfl
    · rfl
  · rfl

@[simp] theorem now_extend (ks : Keyspace Key Value) (key : Key) (seconds : Nat) :
    (ks.extend key seconds).now = ks.now := by
  simp [extend]

theorem live_expireNx_other (ks : Keyspace Key Value) {key key' : Key} (seconds : Nat)
    (h : key' ≠ key) : (ks.expireNx key seconds).live key' = ks.live key' := by
  unfold expireNx
  split
  · exact live_put_other ks _ h
  · rfl

theorem live_expireGt_other (ks : Keyspace Key Value) {key key' : Key} (seconds : Nat)
    (h : key' ≠ key) : (ks.expireGt key seconds).live key' = ks.live key' := by
  unfold expireGt
  split
  · split
    · exact live_put_other ks _ h
    · rfl
  · rfl

theorem live_extend_other (ks : Keyspace Key Value) {key key' : Key} (seconds : Nat)
    (h : key' ≠ key) : (ks.extend key seconds).live key' = ks.live key' := by
  rw [extend, live_expireGt_other _ _ h, live_expireNx_other _ _ h]

/-- `EXPIRE ... NX` keeps the value of every key. -/
theorem get_expireNx (ks : Keyspace Key Value) (key key' : Key) (seconds : Nat) :
    (ks.expireNx key seconds).get key' = ks.get key' := by
  by_cases hkey : key' = key
  · subst hkey
    cases hlive : ks.live key' with
    | none => simp [expireNx, hlive]
    | some entry =>
        obtain ⟨value, expireAt⟩ := entry
        cases expireAt with
        | none =>
            have hmoved : ks.expireNx key' seconds = ks.setEx key' value seconds := by
              simp [expireNx, hlive, setEx]
            rw [hmoved, get, live_setEx_self, get, hlive]
            rfl
        | some expireAt => simp [expireNx, hlive]
  · rw [get, live_expireNx_other ks seconds hkey, get]

/-- `EXPIRE ... GT` keeps the value of every key. -/
theorem get_expireGt (ks : Keyspace Key Value) (key key' : Key) (seconds : Nat) :
    (ks.expireGt key seconds).get key' = ks.get key' := by
  by_cases hkey : key' = key
  · subst hkey
    cases hlive : ks.live key' with
    | none => simp [expireGt, hlive]
    | some entry =>
        obtain ⟨value, expireAt⟩ := entry
        cases expireAt with
        | none => simp [expireGt, hlive]
        | some expireAt =>
            by_cases hlt : expireAt < ks.after seconds
            · have hmoved : ks.expireGt key' seconds = ks.setEx key' value seconds := by
                simp [expireGt, hlive, hlt, setEx]
              rw [hmoved, get, live_setEx_self, get, hlive]
              rfl
            · simp [expireGt, hlive, hlt]
  · rw [get, live_expireGt_other ks seconds hkey, get]

/-- A key without an expiry gets the new one. -/
theorem live_extend_none {ks : Keyspace Key Value} {key : Key} {value : Value} (seconds : Nat)
    (h : ks.live key = some ⟨value, none⟩) :
    (ks.extend key seconds).live key = some ⟨value, some (ks.after seconds)⟩ := by
  have hnx : ks.expireNx key seconds = ks.put key (some ⟨value, some (ks.after seconds)⟩) := by
    simp [expireNx, h]
  have hlive : (ks.expireNx key seconds).live key = some ⟨value, some (ks.after seconds)⟩ := by
    simp [hnx, live_put, unexpired, after]
  have hafter : (ks.expireNx key seconds).after seconds = ks.after seconds := by simp [after]
  simp [extend, expireGt, hlive, hafter]

/-- A key with an expiry keeps the later of the two. -/
theorem live_extend_some {ks : Keyspace Key Value} {key : Key} {value : Value} {expireAt : Nat}
    (seconds : Nat) (h : ks.live key = some ⟨value, some expireAt⟩) :
    (ks.extend key seconds).live key =
      some ⟨value, some (max expireAt (ks.after seconds))⟩ := by
  have hnx : ks.expireNx key seconds = ks := by simp [expireNx, h]
  rw [extend, hnx]
  by_cases hlt : expireAt < ks.after seconds
  · have hfresh : ks.now ≤ ks.after seconds := by simp [after]
    simp [expireGt, h, hlt, live_put, unexpired, hfresh, Nat.max_eq_right (Nat.le_of_lt hlt)]
  · simp [expireGt, h, hlt, Nat.max_eq_left (Nat.le_of_not_lt hlt)]

end Keyspace

end ProdkitStorage.Foundation

import ProdkitStorage.Python.Base64
import ProdkitStorage.Python.Primitives
import ProdkitStorage.Python.Text

/-!
# Signed cursors

`CursorCodec`, `_serialize` and `_coerce` of `database/pagination.py`.  A token is
the signature and the payload in base64, without the padding.  The payload is a
JSON object; its members are listed in the order of their keys, the order in
which `OPT_SORT_KEYS` writes them.
-/

namespace ProdkitStorage.Database

open ProdkitStorage.Foundation
open ProdkitStorage.Python

/-- `CursorState`.  The values are those of a row before they are written, and JSON values after
they are read. -/
structure CursorState (Value : Type) where
  sortFingerprint : String
  values : List Value
  queryFingerprint : Option String := none

/-- `CursorCodec`, after `__init__`. -/
structure CursorCodec where
  secret : List UInt8
  secret_long : 32 ≤ secret.length

/-- `CursorCodec(secret)`. -/
def CursorCodec.make (secret : List UInt8) : Except PyError CursorCodec :=
  if h : secret.length < 32 then .error (.valueError "cursor secret must be at least 32 bytes")
  else .ok ⟨secret, Nat.le_of_not_lt h⟩

/-- A codec with the secret `b"s" * 32`. -/
def sampleCodec : CursorCodec := ⟨List.replicate 32 0x73, by decide⟩

/-! ## Values in a payload -/

/-- What `_serialize` leaves of a cell. -/
inductive Serialized where
  | null
  | bool (b : Bool)
  | int (n : Int)
  | float (x : PyFloat)
  | str (s : String)
  | time (t : Time)

/-- `_serialize` of a cell. -/
def serialize : Option PyValue → Serialized
  | none => .null
  | some (.uuid u) => .str u.str
  | some (.decimal d) => .str (String.ofList d.str)
  | some (.strEnum _ value) => .str value
  | some (.intEnum _ value) => .int value
  | some (.datetime d) => .str (String.ofList d.isoformat)
  | some (.date d) => .str (String.ofList d.isoformat)
  | some (.bool b) => .bool b
  | some (.int n) => .int n
  | some (.float x) => .float x
  | some (.str s) => .str s
  | some (.time t) => .time t

/-- What `orjson` writes.  It writes NaN and the infinities as `null`. -/
def Serialized.dump : Serialized → Except PyError Json
  | .null => .ok .null
  | .bool b => .ok (.bool b)
  | .int n =>
      if -2 ^ 63 ≤ n ∧ n < 2 ^ 64 then .ok (.int n)
      else .error (.typeError "Integer exceeds 64-bit range")
  | .float (.finite x) => .ok (.float x)
  | .float _ => .ok .null
  | .str s => .ok (.str s)
  | .time ⟨clock, none⟩ => .ok (.str (String.ofList clock.isoformat))
  | .time ⟨_, some _⟩ => .error timeHasTzinfo

/-- The JSON value of a cell. -/
def dumpCell (cell : Option PyValue) : Except PyError Json := (serialize cell).dump

/-- `bool(value)` of a value that `orjson.loads` returns. -/
def truthyJson : Json → Bool
  | .null => false
  | .bool b => b
  | .int n => n != 0
  | .float x => x.mantissa != 0
  | .str s => s != ""
  | .arr items => !items.isEmpty
  | .obj members => !members.isEmpty

/-- `Decimal(value)`. -/
def coerceDecimal (lib : Primitives) (type : ColumnType) (s : String) :
    Except PyError (Option PyValue) :=
  match PyDecimal.ofStr s.toList with
  | some d => .ok (some (.decimal d))
  | none => lib.construct type (.str s)

/-- `_coerce(column, value)` for a column of the type and a value other than `None`. -/
def coerceValue (lib : Primitives) : ColumnType → Json → Except PyError (Option PyValue)
  | .boolean, value => .ok (some (.bool (truthyJson value)))
  | .integer, .int n => .ok (some (.int n))
  | .bigInteger, .int n => .ok (some (.int n))
  | .float false, .float x => .ok (some (.float (.finite x)))
  | .numeric false, .float x => .ok (some (.float (.finite x)))
  | .float true, .str s => coerceDecimal lib (.float true) s
  | .numeric true, .str s => coerceDecimal lib (.numeric true) s
  | .string, .str s => .ok (some (.str s))
  | .uuid false, .str s => .ok (some (.str s))
  | .uuid true, .str s => do
      let u ← Uuid.ofStr s
      return some (.uuid u)
  | .dateTime timezone, .str s =>
      match Datetime.fromisoformat s.toList with
      | some d => .ok (some (.datetime d))
      | none => lib.construct (.dateTime timezone) (.str s)
  | .date, .str s =>
      match Date.fromisoformat s.toList with
      | some d => .ok (some (.date d))
      | none => lib.construct .date (.str s)
  -- `time(value)`: a text of six characters may be a pickled state.
  | .time timezone, .str s =>
      if s.length = 6 then lib.construct (.time timezone) (.str s)
      else .error (.typeError "'str' object cannot be interpreted as an integer")
  | .stringEnum className members, .str s =>
      if s ∈ members then .ok (some (.strEnum className s))
      else .error (.valueError (pyRepr s ++ " is not a valid " ++ className))
  | .integerEnum className members, .int n =>
      if n ∈ members then .ok (some (.intEnum className n))
      else .error (.valueError (toString n ++ " is not a valid " ++ className))
  | type, value => lib.construct type value

/-- `_coerce`. -/
def coerce (lib : Primitives) (type : ColumnType) : Json → Except PyError (Option PyValue)
  | .null => .ok none
  | value => coerceValue lib type value

/-! ## Payloads -/

/-- The JSON value of an optional text. -/
def optionalStr : Option String → Json
  | none => .null
  | some s => .str s

/-- The payload of `encode`. -/
def legacyPayload (position tieBreaker : Json) : Json :=
  .obj [("p", position), ("t", tieBreaker), ("v", .int 1)]

/-- The members of the payload of `encode_state`. -/
def stateMembers (state : CursorState Json) : List (String × Json) :=
  [("q", optionalStr state.queryFingerprint), ("s", .str state.sortFingerprint), ("v", .int 2),
    ("values", .arr state.values)]

/-- The payload of `encode_state`. -/
def statePayload (state : CursorState Json) : Json := .obj (stateMembers state)

/-! ## The codec -/

namespace CursorCodec

/-- The bytes of a token. -/
def signed (lib : Primitives) (codec : CursorCodec) (payload : Json) : List UInt8 :=
  lib.hmacSha256 codec.secret (lib.dumps payload) ++ lib.dumps payload

/-- `_sign`. -/
def sign (lib : Primitives) (codec : CursorCodec) (payload : Json) : String :=
  String.ofList (rstripPadding (urlsafeB64encode (codec.signed lib payload)))

/-- The bytes a token stands for, `none` for an exception. -/
def decodeToken (token : String) : Option (List UInt8) :=
  let padded := addPadding token.toList
  if padded.all fun c => c.toNat < 128 then urlsafeB64decode padded else none

/-- `_verify`. -/
def verify (lib : Primitives) (codec : CursorCodec) (token : String) :
    Except PyError (List (String × Json)) :=
  match decodeToken token with
  | none => .error (.valueError "invalid cursor encoding")
  | some raw =>
      if raw.length ≤ 32 then .error (.valueError "invalid cursor")
      else if raw.take 32 ≠ lib.hmacSha256 codec.secret (raw.drop 32) then
        .error (.valueError "invalid cursor signature")
      else match lib.loads (raw.drop 32) with
        | none => .error .jsonDecodeError
        | some (.obj members) => .ok members
        | some _ => .error (.valueError "invalid cursor payload")

/-- `encode`. -/
def encode (lib : Primitives) (codec : CursorCodec) (position tieBreaker : Option PyValue) :
    Except PyError String := do
  let position ← dumpCell position
  let tieBreaker ← dumpCell tieBreaker
  return codec.sign lib (legacyPayload position tieBreaker)

/-- `data[key]`. -/
def requireMember (members : List (String × Json)) (key : String) : Except PyError Json :=
  match Json.get members key with
  | some value => .ok value
  | none => .error (.keyError key)

/-- `decode`. -/
def decode (lib : Primitives) (codec : CursorCodec) (token : String) :
    Except PyError (Json × Json) := do
  let data ← codec.verify lib token
  if !Json.eqInt (Json.get data "v") 1 then
    .error (.valueError "unsupported legacy cursor version")
  let position ← requireMember data "p"
  let tieBreaker ← requireMember data "t"
  return (position, tieBreaker)

/-- The state with the JSON values of its cells. -/
def dumpState (state : CursorState (Option PyValue)) : Except PyError (CursorState Json) := do
  let values ← state.values.mapM dumpCell
  return ⟨state.sortFingerprint, values, state.queryFingerprint⟩

/-- `encode_state`. -/
def encodeState (lib : Primitives) (codec : CursorCodec) (state : CursorState (Option PyValue)) :
    Except PyError String := do
  let state ← dumpState state
  return codec.sign lib (statePayload state)

/-- The checks of `decode_state` on a payload. -/
def readState (data : List (String × Json)) : Except PyError (CursorState Json) :=
  if !Json.eqInt (Json.get data "v") 2 then .error (.valueError "unsupported cursor version")
  else match Json.get data "s", Json.get data "values" with
    | some (.str sortFingerprint), some (.arr values) =>
        match Json.get data "q" with
        | none => .ok ⟨sortFingerprint, values, none⟩
        | some .null => .ok ⟨sortFingerprint, values, none⟩
        | some (.str q) => .ok ⟨sortFingerprint, values, some q⟩
        | some _ => .error (.valueError "invalid cursor query fingerprint")
    | _, _ => .error (.valueError "invalid cursor payload")

/-- `decode_state`. -/
def decodeState (lib : Primitives) (codec : CursorCodec) (token : String) :
    Except PyError (CursorState Json) := do
  let data ← codec.verify lib token
  readState data

/-! ## Reading back -/

variable {lib : Primitives} {codec : CursorCodec}

theorem decodeToken_sign (payload : Json) :
    decodeToken (codec.sign lib payload) = some (codec.signed lib payload) := by
  obtain ⟨hpadding, hascii⟩ := addPadding_rstripPadding (codec.signed lib payload)
  have hall : (urlsafeB64encode (codec.signed lib payload)).all fun c => c.toNat < 128 :=
    List.all_eq_true.mpr fun c hc => decide_eq_true (hascii c hc)
  rw [decodeToken, sign, String.toList_ofList, hpadding]
  rw [if_pos hall, urlsafeB64decode_encode]

variable (codec) in
/-- A signed payload is verified. -/
theorem verify_sign {members : List (String × Json)} (h : lib.ReadsBack (.obj members)) :
    codec.verify lib (codec.sign lib (.obj members)) = .ok members := by
  have hlength := lib.length_hmacSha256 codec.secret (lib.dumps (.obj members))
  have hpos := List.length_pos_iff.mpr (lib.dumps_ne (.obj members))
  have htake : (codec.signed lib (.obj members)).take 32 =
      lib.hmacSha256 codec.secret (lib.dumps (.obj members)) := List.take_left' hlength
  have hdrop : (codec.signed lib (.obj members)).drop 32 = lib.dumps (.obj members) :=
    List.drop_left' hlength
  have hlong : ¬(codec.signed lib (.obj members)).length ≤ 32 := by
    rw [signed, List.length_append]
    omega
  have hsame : ¬(codec.signed lib (.obj members)).take 32 ≠
      lib.hmacSha256 codec.secret ((codec.signed lib (.obj members)).drop 32) := by
    rw [htake, hdrop]
    exact fun hne => hne rfl
  unfold Primitives.ReadsBack at h
  rw [verify, decodeToken_sign]
  dsimp only
  rw [if_neg hlong, if_neg hsame, hdrop, h]

theorem readState_stateMembers (state : CursorState Json) :
    readState (stateMembers state) = .ok state := by
  obtain ⟨sortFingerprint, values, queryFingerprint⟩ := state
  cases queryFingerprint with
  | none => simp [readState, stateMembers, optionalStr]
  | some q => simp [readState, stateMembers, optionalStr]

/-- What `encode_state` wrote is what `decode_state` reads. -/
theorem decodeState_sign {state : CursorState Json} (h : lib.ReadsBack (statePayload state)) :
    codec.decodeState lib (codec.sign lib (statePayload state)) = .ok state := by
  rw [statePayload] at h ⊢
  rw [decodeState, verify_sign codec h, ok_bind, readState_stateMembers]

end CursorCodec

end ProdkitStorage.Database

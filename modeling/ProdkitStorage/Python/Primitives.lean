import ProdkitStorage.Python.Text
import ProdkitStorage.Python.Value

/-!
# Library functions

The functions of `hmac`, `hashlib` and `orjson` the modelled code calls, and the
constructors of Python types on values the models do not read.  A model takes
them as an argument.
-/

namespace ProdkitStorage.Python

open ProdkitStorage.Foundation

/-- The library functions.  A text is the list of its bytes. -/
structure Primitives where
  /-- `hmac.new(secret, message, hashlib.sha256).digest()`. -/
  hmacSha256 : List UInt8 → List UInt8 → List UInt8
  /-- `hashlib.sha256(message).hexdigest()`. -/
  sha256Hex : List UInt8 → String
  /-- `orjson.dumps(value, option=orjson.OPT_SORT_KEYS)`, for a value whose objects have their
  members in the order of the keys. -/
  dumps : Json → List UInt8
  /-- `orjson.loads(payload)`, `none` for `JSONDecodeError`. -/
  loads : List UInt8 → Option Json
  /-- `python_type(value)` for a column type, where the model of the constructor has no answer. -/
  construct : ColumnType → Json → Except PyError (Option PyValue)
  length_hmacSha256 : ∀ secret message, (hmacSha256 secret message).length = 32
  dumps_ne : ∀ value, dumps value ≠ []

/-- What was written for `value` is read as `value`. -/
def Primitives.ReadsBack (lib : Primitives) (value : Json) : Prop :=
  lib.loads (lib.dumps value) = some value

/-- Different values that are read back have different texts. -/
theorem Primitives.ReadsBack.injective {lib : Primitives} {value other : Json}
    (hvalue : lib.ReadsBack value) (hother : lib.ReadsBack other)
    (h : lib.dumps value = lib.dumps other) : value = other := by
  unfold ReadsBack at hvalue hother
  rw [h, hother] at hvalue
  exact (Option.some.inj hvalue).symm

/-- The 32 bytes of a digest. -/
def digestBytes (digest : Nat) : List UInt8 :=
  (List.range 32).map fun i => UInt8.ofNat (digest / 256 ^ (31 - i))

theorem length_digestBytes (digest : Nat) : (digestBytes digest).length = 32 := by
  simp [digestBytes]

/-- A JSON value with its text, the digest of this text under the secret of the examples and the
hexadecimal digest of SHA-256. -/
structure KnownText where
  value : Json
  text : String
  digest : Nat := 0
  hexdigest : String := ""
  text_ne : encodeUtf8 text ≠ [] := by decide

/-- The library functions on known texts.  `select` finds the text of a value. -/
def Primitives.onTexts (known : List KnownText) (select : Json → KnownText) : Primitives where
  hmacSha256 _ message :=
    digestBytes (((known.find? fun k => encodeUtf8 k.text = message).map KnownText.digest).getD 0)
  sha256Hex message :=
    ((known.find? fun k => encodeUtf8 k.text = message).map KnownText.hexdigest).getD ""
  dumps value := encodeUtf8 (select value).text
  loads message := (known.find? fun k => encodeUtf8 k.text = message).map KnownText.value
  construct _ _ := .error (.typeError "")
  length_hmacSha256 _ _ := length_digestBytes _
  dumps_ne value := (select value).text_ne

/-- The hexadecimal digest of a known text. -/
theorem Primitives.sha256Hex_onTexts {known : List KnownText} {select : Json → KnownText}
    {value : Json} {found : KnownText} (hselect : select value = found)
    (hfound : (known.find? fun k => k.text = found.text) = some found) :
    (onTexts known select).sha256Hex ((onTexts known select).dumps value) = found.hexdigest := by
  subst hselect
  have hbytes : (fun k : KnownText => decide (encodeUtf8 k.text = encodeUtf8 (select value).text)) =
      fun k => decide (k.text = (select value).text) :=
    funext fun k => decide_eq_decide.mpr ⟨encodeUtf8_inj, congrArg encodeUtf8⟩
  show ((known.find? fun k => encodeUtf8 k.text = encodeUtf8 (select value).text).map
    KnownText.hexdigest).getD "" = _
  rw [hbytes, hfound]
  rfl

end ProdkitStorage.Python

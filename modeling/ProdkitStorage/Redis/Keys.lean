import ProdkitStorage.Python.Error
import ProdkitStorage.Python.Text

/-!
# Redis keys

`redis/keys.py`.  The parts of a key are given as the text `str` makes of them.
`sha256Hex` is `hashlib.sha256(text.encode("utf-8")).hexdigest()`.
-/

namespace ProdkitStorage.Redis

open ProdkitStorage.Python

/-- `_segment`. -/
def segment (value : String) : Except PyError String :=
  let value := strip value
  if value = "" then .error (.valueError "Redis key segments must not be empty")
  else .ok (quote value)

/-- `KeyBuilder`, as its constructor leaves it. -/
structure KeyBuilder where
  namespace_ : String
  version : Int
  maxLength : Int
  namespace_segment : ∃ raw, segment raw = .ok namespace_
  version_pos : 1 ≤ version
  maxLength_ge : 80 ≤ maxLength

/-- `KeyBuilder.__init__`. -/
def KeyBuilder.init (raw : String) (version : Int := 1) (maxLength : Int := 240) :
    Except PyError KeyBuilder :=
  if hversion : version < 1 then .error (.valueError "Redis key version must be positive")
  else if hlength : maxLength < 80 then
    .error (.valueError "Redis max key length must be at least 80 bytes")
  else
    match hsegment : segment raw with
    | .error e => .error e
    | .ok namespace_ =>
        .ok ⟨namespace_, version, maxLength, ⟨raw, hsegment⟩, by omega, by omega⟩

/-- `KeyBuilder.build`. -/
def KeyBuilder.build (sha256Hex : String → String) (keys : KeyBuilder) (parts : List String) :
    Except PyError String := do
  let quoted ← parts.mapM segment
  let segments := keys.namespace_ :: ("v" ++ toString keys.version) :: quoted
  let key := String.intercalate ":" segments
  if (key.utf8ByteSize : Int) ≤ keys.maxLength then return key
  let suffix := ":sha256:" ++ sha256Hex key
  let prefixBudget := keys.maxLength - suffix.length
  return takeStr prefixBudget.toNat (String.intercalate ":" (segments.take 2)) ++ suffix

/-- `KeyBuilder.tag`. -/
def KeyBuilder.tag (sha256Hex : String → String) (keys : KeyBuilder) (tag : String) :
    Except PyError String :=
  keys.build sha256Hex ["tag", tag]

/-- Every key has a separator. -/
theorem KeyBuilder.build_colon {sha256Hex : String → String} {keys : KeyBuilder}
    {parts : List String} {key : String} (h : keys.build sha256Hex parts = .ok key) :
    ':' ∈ key.toList := by
  unfold KeyBuilder.build at h
  obtain ⟨quoted, -, h⟩ := bind_eq_ok.mp h
  simp only at h
  split at h
  · obtain rfl := Except.ok.inj h
    simp [String.intercalate_cons_cons]
  · obtain rfl := Except.ok.inj h
    simp

/-- The key of a tag has two separators at least. -/
theorem KeyBuilder.tag_colons {sha256Hex : String → String} {keys : KeyBuilder} {tag key : String}
    (h : keys.tag sha256Hex tag = .ok key) : 2 ≤ key.toList.count ':' := by
  unfold KeyBuilder.tag KeyBuilder.build at h
  obtain ⟨quoted, hquoted, h⟩ := bind_eq_ok.mp h
  simp only at h
  split at h
  · rw [List.mapM_cons] at hquoted
    obtain ⟨first, -, hquoted⟩ := bind_eq_ok.mp hquoted
    obtain ⟨rest, -, hquoted⟩ := bind_eq_ok.mp hquoted
    obtain rfl := Except.ok.inj hquoted
    obtain rfl := Except.ok.inj h
    rw [String.intercalate_cons_cons, String.intercalate_cons_cons]
    simp [List.count_append]
    omega
  · obtain rfl := Except.ok.inj h
    have hsuffix : ":sha256:".toList.count ':' = 2 := by decide
    simp only [String.toList_append, List.count_append, hsuffix]
    omega

end ProdkitStorage.Redis

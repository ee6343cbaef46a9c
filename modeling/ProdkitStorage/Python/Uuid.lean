import ProdkitStorage.Foundation.Numeral
import ProdkitStorage.Python.Error
import ProdkitStorage.Python.Text

/-!
# UUIDs

`uuid.UUID` is a 128-bit number.  `Uuid.str` is the text `str` makes of it and
`Uuid.ofStr` the constructor.
-/

namespace ProdkitStorage.Python

open ProdkitStorage.Foundation

/-- `uuid.UUID`. -/
abbrev Uuid := BitVec 128

/-- The five groups of a UUID, between hyphens. -/
def hyphenate (hex : List Char) : List Char :=
  hex.take 8 ++ '-' :: ((hex.drop 8).take 4 ++ '-' :: ((hex.drop 12).take 4 ++
    '-' :: ((hex.drop 16).take 4 ++ '-' :: hex.drop 20)))

/-- `str(value)`. -/
def Uuid.str (value : Uuid) : String := String.ofList (hyphenate (padded 16 32 value.toNat))

/-- `UUID(text)`.  The texts it is given are read as plain hexadecimal digits; `int(hex, 16)`
also takes signs, spaces, underscores and a leading `0x`. -/
def Uuid.ofStr (text : String) : Except PyError Uuid :=
  let hex := removeText "urn:".toList 0 text.toList
  let hex := removeText "uuid:".toList 0 hex
  let hex := (stripOf ['{', '}'] hex).filter (· != '-')
  if hex.length ≠ 32 then .error (.valueError "badly formed hexadecimal UUID string")
  else match readDigits 16 hex with
    | none => .error (.valueError ("invalid literal for int() with base 16: '" ++
        String.ofList hex ++ "'"))
    | some n => .ok (BitVec.ofNat 128 n)

/-- Every character of the text is a hexadecimal digit or a hyphen. -/
theorem mem_hyphenate {hex : List Char} {c : Char} (h : c ∈ hyphenate hex) : c ∈ hex ∨ c = '-' := by
  simp only [hyphenate, List.mem_append, List.mem_cons] at h
  rcases h with h | h | h | h | h | h | h | h | h
  · exact .inl (List.mem_of_mem_take h)
  · exact .inr h
  · exact .inl (List.mem_of_mem_drop (List.mem_of_mem_take h))
  · exact .inr h
  · exact .inl (List.mem_of_mem_drop (List.mem_of_mem_take h))
  · exact .inr h
  · exact .inl (List.mem_of_mem_drop (List.mem_of_mem_take h))
  · exact .inr h
  · exact .inl (List.mem_of_mem_drop h)

/-- Without the hyphens the digits are there again. -/
theorem filter_hyphenate {hex : List Char} (h : '-' ∉ hex) :
    (hyphenate hex).filter (· != '-') = hex := by
  have hkeep : ∀ cs : List Char, (∀ c ∈ cs, c ∈ hex) → cs.filter (· != '-') = cs := by
    intro cs hcs
    refine List.filter_eq_self.mpr fun c hc => ?_
    simpa using fun he : c = '-' => h (he ▸ hcs c hc)
  have hdrop : ∀ n, ∀ c ∈ hex.drop n, c ∈ hex := fun n c hc => List.mem_of_mem_drop hc
  have htake : ∀ n m, ∀ c ∈ (hex.drop n).take m, c ∈ hex :=
    fun n m c hc => hdrop n c (List.mem_of_mem_take hc)
  simp only [hyphenate, List.filter_append, List.filter_cons, bne_self_eq_false, Bool.false_eq_true,
    if_false, hkeep _ (fun c hc => List.mem_of_mem_take hc), hkeep _ (htake _ _),
      hkeep _ (hdrop 20)]
  have hjoin : ∀ n, (hex.drop n).take 4 ++ hex.drop (n + 4) = hex.drop n := by
    intro n
    rw [← List.drop_drop, List.take_append_drop]
  rw [hjoin 16, hjoin 12, hjoin 8, List.take_append_drop]

theorem digitChar_hex {d : Nat} (h : d < 16) : Nat.digitChar d ∈ "0123456789abcdef".toList := by
  have hall : ∀ d : Fin 16, Nat.digitChar d.val ∈ "0123456789abcdef".toList := by decide
  exact hall ⟨d, h⟩

/-- A UUID is read back from its text. -/
theorem Uuid.ofStr_str (value : Uuid) : Uuid.ofStr value.str = .ok value := by
  have hdigit : ∀ c ∈ padded 16 32 value.toNat, c ∈ "0123456789abcdef".toList := by
    intro c hc
    obtain ⟨d, hd, rfl⟩ := mem_padded (by decide) hc
    exact digitChar_hex hd
  have hmem : ∀ c ∈ hyphenate (padded 16 32 value.toNat), c ∈ "0123456789abcdef-".toList := by
    intro c hc
    rcases mem_hyphenate hc with h | rfl
    · have hsub : "0123456789abcdef".toList ⊆ "0123456789abcdef-".toList := by
        intro d hd
        exact List.mem_append_left ['-'] hd
      exact hsub (hdigit c h)
    · decide
  have habsent : ∀ c, c ∉ "0123456789abcdef-".toList →
      c ∉ hyphenate (padded 16 32 value.toNat) := fun c hc h => hc (hmem c h)
  have hlt : value.toNat < 16 ^ 32 := value.isLt
  have hhyphen : '-' ∉ padded 16 32 value.toNat := by
    intro h
    exact absurd (hdigit '-' h) (by decide)
  have hbraces : ∀ c ∈ ['{', '}'], c ∉ hyphenate (padded 16 32 value.toNat) := by
    intro c hc
    rcases List.mem_pair.mp hc with rfl | rfl
    · exact habsent '{' (by decide)
    · exact habsent '}' (by decide)
  simp only [Uuid.ofStr, Uuid.str, String.toList_ofList]
  rw [removeText_eq_self (c := ':') (by decide) (habsent ':' (by decide)),
    removeText_eq_self (c := ':') (by decide) (habsent ':' (by decide)),
    stripOf_eq_self hbraces,
    filter_hyphenate hhyphen, length_padded, readDigits_padded_of_lt (by decide) (by decide) hlt]
  simp

theorem Uuid.str_ne_empty (value : Uuid) : value.str ≠ "" := by
  intro hempty
  have hread := Uuid.ofStr_str value
  rw [hempty] at hread
  cases hread

end ProdkitStorage.Python

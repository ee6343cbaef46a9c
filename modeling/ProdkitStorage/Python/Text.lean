import Mathlib.Data.List.Basic
import Mathlib.Data.List.DropRight

/-!
# Python strings

The operations on `str` the modelled code uses.  A `str` is a `String`; the
operations are defined on its characters.
-/

namespace ProdkitStorage.Python

/-- `str.isspace` of one character. -/
def isSpace (c : Char) : Bool :=
  c.val ∈ [0x09, 0x0a, 0x0b, 0x0c, 0x0d, 0x1c, 0x1d, 0x1e, 0x1f, 0x20, 0x85, 0xa0, 0x1680,
    0x2028, 0x2029, 0x202f, 0x205f, 0x3000] || (0x2000 ≤ c.val && c.val ≤ 0x200a)

/-- `value.strip()` on characters. -/
def stripChars (cs : List Char) : List Char :=
  ((cs.dropWhile isSpace).reverse.dropWhile isSpace).reverse

/-- `value.strip()`. -/
def strip (s : String) : String := String.ofList (stripChars s.toList)

/-- `value.strip(chars)` on characters. -/
def stripOf (chars cs : List Char) : List Char :=
  ((cs.dropWhile (· ∈ chars)).reverse.dropWhile (· ∈ chars)).reverse

/-- `value.replace(text, "")` on characters, after `skip` characters of an occurrence. -/
def removeText (text : List Char) : Nat → List Char → List Char
  | _, [] => []
  | skip + 1, _ :: cs => removeText text skip cs
  | 0, c :: cs =>
      if text.isPrefixOf (c :: cs) then removeText text (text.length - 1) cs
      else c :: removeText text 0 cs

/-- `value[:n]`. -/
def takeStr (n : Nat) (s : String) : String := String.ofList (s.toList.take n)

/-- `value.startswith(text)`. -/
def startsWith (value text : String) : Bool := text.toList.isPrefixOf value.toList

/-- `value.endswith(text)`. -/
def endsWith (value text : String) : Bool := text.toList.isSuffixOf value.toList

/-- The characters at which `str.splitlines` ends a line. -/
def isLineBoundary (c : Char) : Bool :=
  c.val ∈ [0x0a, 0x0b, 0x0c, 0x0d, 0x1c, 0x1d, 0x1e, 0x85, 0x2028, 0x2029]

/-- `value.splitlines()` on characters, after the characters of a line, the last one first. -/
def splitLines : List Char → List Char → List (List Char)
  | [], [] => []
  | line, [] => [line.reverse]
  | line, '\r' :: '\n' :: cs => line.reverse :: splitLines [] cs
  | line, c :: cs =>
      if isLineBoundary c then line.reverse :: splitLines [] cs else splitLines (c :: line) cs

/-- One character inside `repr`'s quotes, up to the escapes of unprintable characters that are
not in ASCII. -/
def reprChar (quote c : Char) : List Char :=
  if c == quote || c == '\\' then ['\\', c]
  else if c == '\n' then ['\\', 'n']
  else if c == '\r' then ['\\', 'r']
  else if c == '\t' then ['\\', 't']
  else if c.toNat < 32 || c.toNat == 127 then
    ['\\', 'x', Nat.digitChar (c.toNat / 16), Nat.digitChar (c.toNat % 16)]
  else [c]

/-- `repr(value)`. -/
def pyRepr (s : String) : String :=
  let quote := if '\'' ∈ s.toList ∧ '"' ∉ s.toList then '"' else '\''
  String.ofList (quote :: s.toList.flatMap (reprChar quote) ++ [quote])

/-- `repr(values)` of a list of `str`. -/
def pyReprList (values : List String) : String :=
  "[" ++ ", ".intercalate (values.map pyRepr) ++ "]"

/-- A text with a character that does not occur is not there to be removed. -/
theorem removeText_eq_self {text cs : List Char} {c : Char} (hc : c ∈ text) (h : c ∉ cs) :
    removeText text 0 cs = cs := by
  induction cs with
  | nil => rfl
  | cons d cs ih =>
      have hapart : ¬text.isPrefixOf (d :: cs) = true := by
        intro hp
        exact h ((List.isPrefixOf_iff_prefix.mp hp).subset hc)
      rw [removeText, if_neg hapart, ih fun hmem => h (List.mem_cons_of_mem _ hmem)]

/-- Characters that do not occur are not there to be stripped. -/
theorem stripOf_eq_self {chars cs : List Char} (h : ∀ c ∈ chars, c ∉ cs) :
    stripOf chars cs = cs := by
  have hdrop : ∀ cs' : List Char, (∀ c ∈ cs', c ∈ cs) → cs'.dropWhile (· ∈ chars) = cs' := by
    intro cs' hsub
    cases cs' with
    | nil => rfl
    | cons c cs' =>
        have hc : c ∉ chars := fun hmem => h c hmem (hsub c List.mem_cons_self)
        simp [hc]
  rw [stripOf, hdrop cs (fun _ h => h), hdrop cs.reverse (fun c hc => List.mem_reverse.mp hc),
    List.reverse_reverse]

/-- Spaces at the end go, the first character that is none stays. -/
theorem rdropWhile_isSpace_cons {c : Char} (hc : isSpace c = false) (cs : List Char) :
    (c :: cs).rdropWhile isSpace = c :: cs.rdropWhile isSpace := by
  rw [List.rdropWhile, List.reverse_cons, List.dropWhile_append, List.rdropWhile]
  split
  · next hnone =>
      rw [List.isEmpty_iff.mp hnone, List.dropWhile_cons_of_neg (by simp [hc])]
      rfl
  · rw [List.reverse_append]
    rfl

theorem stripChars_cons {c : Char} (hc : isSpace c = false) (cs : List Char) :
    stripChars (c :: cs) = c :: cs.rdropWhile isSpace := by
  rw [stripChars, List.dropWhile_cons_of_neg (by simp [hc])]
  exact rdropWhile_isSpace_cons hc cs

theorem length_stripChars_le (cs : List Char) : (stripChars cs).length ≤ cs.length := by
  rw [stripChars, List.length_reverse]
  refine (List.length_dropWhile_le _ _).trans ?_
  rw [List.length_reverse]
  exact List.length_dropWhile_le _ _

/-- A first character that is a space goes. -/
theorem length_stripChars_lt {c : Char} (hc : isSpace c = true) (cs : List Char) :
    (stripChars (c :: cs)).length < (c :: cs).length := by
  have hstrip : stripChars (c :: cs) = stripChars cs := by
    rw [stripChars, stripChars, List.dropWhile_cons_of_pos hc]
  rw [hstrip, List.length_cons]
  exact Nat.lt_succ_of_le (length_stripChars_le cs)

/-- Nothing is stripped from the end of a text that does not end with a space. -/
theorem rdropWhile_isSpace_iff {cs : List Char} :
    cs.rdropWhile isSpace = cs ↔ ∀ c ∈ cs.getLast?, isSpace c = false := by
  rw [List.rdropWhile_eq_self_iff]
  cases cs with
  | nil => simp
  | cons c cs => simp [List.getLast?_eq_getLast_of_ne_nil (List.cons_ne_nil c cs)]

/-- A character takes a byte at least. -/
theorem length_le_utf8ByteSize (s : String) : s.length ≤ s.utf8ByteSize := by
  obtain ⟨cs, rfl⟩ : ∃ cs, String.ofList cs = s := ⟨s.toList, String.ofList_toList⟩
  induction cs with
  | nil => simp
  | cons c cs ih =>
      have hpos := Char.utf8Size_pos c
      rw [String.ofList_cons, String.length_append, String.utf8ByteSize_append,
        String.utf8ByteSize_singleton,
        String.length_singleton]
      omega

/-- A check of every character of a text. -/
theorem forall_mem_of_all {p : Char → Prop} [DecidablePred p] {cs : List Char}
    (h : (cs.all fun c => decide (p c)) = true) : ∀ c ∈ cs, p c :=
  fun c hc => of_decide_eq_true (List.all_eq_true.mp h c hc)

/-- A text of characters of one byte each. -/
theorem utf8ByteSize_of_ascii {s : String} (h : ∀ c ∈ s.toList, c.utf8Size = 1) :
    s.utf8ByteSize = s.length := by
  obtain ⟨cs, rfl⟩ : ∃ cs, String.ofList cs = s := ⟨s.toList, String.ofList_toList⟩
  rw [String.toList_ofList] at h
  induction cs with
  | nil => rfl
  | cons c cs ih =>
      rw [String.ofList_cons, String.length_append, String.utf8ByteSize_append,
        String.utf8ByteSize_singleton, String.length_singleton, h c List.mem_cons_self,
        ih fun d hd => h d (List.mem_cons_of_mem _ hd)]

theorem utf8Size_of_isDigit {c : Char} (h : c.isDigit) : c.utf8Size = 1 := by
  rw [Char.utf8Size_eq_one_iff]
  simp only [Char.isDigit, Bool.and_eq_true, decide_eq_true_eq] at h
  exact UInt32.le_trans h.2 (by decide)

/-- `value.encode("utf-8")`. -/
def encodeUtf8 (s : String) : List UInt8 := s.toList.flatMap String.utf8EncodeChar

theorem encodeUtf8_inj {s t : String} (h : encodeUtf8 s = encodeUtf8 t) : s = t := by
  have hencoded : s.toList.utf8Encode = t.toList.utf8Encode := congrArg List.toByteArray h
  rw [String.utf8Encode_toList, String.utf8Encode_toList] at hencoded
  exact String.toByteArray_inj.mp hencoded

/-- Texts without the separator are told apart when they are joined. -/
theorem join_inj {c : Char} {texts others : List String} (htexts : ∀ s ∈ texts, c ∉ s.toList)
    (hothers : ∀ s ∈ others, c ∉ s.toList) (hne : texts ≠ []) (hne' : others ≠ [])
    (h : (String.singleton c).intercalate texts = (String.singleton c).intercalate others) :
    texts = others := by
  have hlists := congrArg (fun s => s.toList.splitOn c) h
  simp only [String.toList_intercalate, String.toList_singleton] at hlists
  rw [List.splitOn_intercalate c (by simpa using htexts) (by simpa using hne),
    List.splitOn_intercalate c (by simpa using hothers) (by simpa using hne')] at hlists
  exact List.map_injective_iff.mpr (fun _ _ heq => String.toList_inj.mp heq) hlists

/-! ## Percent-encoding -/

/-- The hexadecimal digit of a number below sixteen, in upper case. -/
def hexUpper (n : Nat) : Char := ("0123456789ABCDEF".toList[n]?).getD '0'

/-- The bytes `urllib.parse.quote` leaves alone when `safe` is `"-_.~"`. -/
def quoteSafe (b : UInt8) : Bool :=
  (0x61 ≤ b && b ≤ 0x7a) || (0x41 ≤ b && b ≤ 0x5a) || (0x30 ≤ b && b ≤ 0x39) ||
    b ∈ [0x2d, 0x5f, 0x2e, 0x7e]

/-- One byte, percent-encoded unless it is safe. -/
def quoteByte (b : UInt8) : List Char :=
  if quoteSafe b then [Char.ofNat b.toNat]
  else ['%', hexUpper (b.toNat / 16), hexUpper (b.toNat % 16)]

/-- `urllib.parse.quote(value, safe="-_.~")`. -/
def quote (s : String) : String := String.ofList ((encodeUtf8 s).flatMap quoteByte)

/-- What is quoted has no separator of keys. -/
theorem colon_not_mem_quoteByte (b : UInt8) : ':' ∉ quoteByte b := by
  have hall : ∀ n : Fin 256, ':' ∉ quoteByte (UInt8.ofNat n) := by decide +kernel
  have hb := hall ⟨b.toNat, UInt8.toNat_lt b⟩
  simpa using hb

theorem colon_not_mem_quote (s : String) : ':' ∉ (quote s).toList := by
  rw [quote, String.toList_ofList]
  intro hmem
  obtain ⟨b, -, hb⟩ := List.mem_flatMap.mp hmem
  exact colon_not_mem_quoteByte b hb

/-- The first byte of what is quoted, and the rest. -/
def unquoteByte : List Char → Option (Nat × List Char)
  | [] => none
  | '%' :: high :: low :: cs =>
      some ("0123456789ABCDEF".toList.idxOf high * 16 + "0123456789ABCDEF".toList.idxOf low, cs)
  | c :: cs => some (c.toNat, cs)

theorem idxOf_hexUpper {n : Nat} (h : n < 16) :
    "0123456789ABCDEF".toList.idxOf (hexUpper n) = n := by
  have hall : ∀ n : Fin 16, "0123456789ABCDEF".toList.idxOf (hexUpper n) = n := by decide
  exact hall ⟨n, h⟩

theorem quoteSafe_char {b : UInt8} (h : quoteSafe b) :
    Char.ofNat b.toNat ≠ '%' ∧ (Char.ofNat b.toNat).toNat = b.toNat := by
  have hall : ∀ n : Fin 256, quoteSafe (UInt8.ofNat n) →
      Char.ofNat n ≠ '%' ∧ (Char.ofNat n).toNat = n := by decide +kernel
  exact hall ⟨b.toNat, UInt8.toNat_lt b⟩ (by simpa using h)

theorem unquoteByte_quoteByte (b : UInt8) (cs : List Char) :
    unquoteByte (quoteByte b ++ cs) = some (b.toNat, cs) := by
  unfold quoteByte
  split
  · next hsafe =>
      obtain ⟨hpercent, hnat⟩ := quoteSafe_char hsafe
      show unquoteByte (Char.ofNat b.toNat :: cs) = _
      unfold unquoteByte
      split
      · next heq => cases heq
      · next heq => exact absurd (List.cons.inj heq).1 hpercent
      · next heq =>
          obtain ⟨rfl, rfl⟩ := List.cons.inj heq
          rw [hnat]
  · have hlt := UInt8.toNat_lt b
    show some (_, cs) = _
    rw [idxOf_hexUpper (by omega), idxOf_hexUpper (by omega), Nat.div_add_mod']

/-- Bytes are told apart when they are quoted. -/
theorem flatMap_quoteByte_inj {bytes others : List UInt8}
    (h : bytes.flatMap quoteByte = others.flatMap quoteByte) : bytes = others := by
  induction bytes generalizing others with
  | nil =>
      cases others with
      | nil => rfl
      | cons b others =>
          have hnone := congrArg unquoteByte h
          rw [List.flatMap_cons, unquoteByte_quoteByte] at hnone
          cases hnone
  | cons b bytes ih =>
      have hsome := congrArg unquoteByte h
      rw [List.flatMap_cons, unquoteByte_quoteByte] at hsome
      cases others with
      | nil => cases hsome
      | cons b' others =>
          rw [List.flatMap_cons, unquoteByte_quoteByte] at hsome
          obtain ⟨hb, hrest⟩ := Prod.mk.inj (Option.some.inj hsome)
          rw [UInt8.toNat_inj.mp hb, ih hrest]

/-- Texts are told apart when they are quoted. -/
theorem quote_inj {s t : String} : quote s = quote t ↔ s = t := by
  constructor
  · intro h
    exact encodeUtf8_inj (flatMap_quoteByte_inj (String.ofList_inj.mp h))
  · exact fun h => congrArg quote h

/-- Characters that are safe in a key are quoted as they are. -/
theorem quote_eq_self {s : String}
    (h : ∀ c ∈ s.toList, (String.utf8EncodeChar c).flatMap quoteByte = [c]) : quote s = s := by
  have hchars : ∀ cs : List Char, (∀ c ∈ cs, (String.utf8EncodeChar c).flatMap quoteByte = [c]) →
      (cs.flatMap String.utf8EncodeChar).flatMap quoteByte = cs := by
    intro cs hcs
    induction cs with
    | nil => rfl
    | cons c cs ih =>
        rw [List.flatMap_cons, List.flatMap_append, hcs c List.mem_cons_self,
          ih fun d hd => hcs d (List.mem_cons_of_mem _ hd)]
        rfl
  rw [quote, encodeUtf8, hchars _ h, String.ofList_toList]

/-- What is quoted has characters of one byte each. -/
theorem utf8Size_of_mem_quote {s : String} : ∀ c ∈ (quote s).toList, c.utf8Size = 1 := by
  have hall : ∀ n : Fin 256,
      ((quoteByte (UInt8.ofNat n)).all fun c => decide (c.utf8Size = 1)) = true := by
    decide +kernel
  intro c hc
  rw [quote, String.toList_ofList] at hc
  obtain ⟨b, -, hb⟩ := List.mem_flatMap.mp hc
  exact forall_mem_of_all (hall ⟨b.toNat, UInt8.toNat_lt b⟩) c (by simpa using hb)

end ProdkitStorage.Python

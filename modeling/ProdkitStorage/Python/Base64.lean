import Mathlib.Data.List.Basic

/-!
# Base64

`base64.urlsafe_b64encode` and `base64.urlsafe_b64decode`.  The decoder is that of
`binascii.a2b_base64`, which is not strict: it skips every character outside the
alphabet, takes both spellings of the last two digits, and stops at the padding
that completes a group.
-/

namespace ProdkitStorage.Python

/-! ## Encoding -/

/-- The digit of a number below 64. -/
def base64Char (n : Nat) : Char :=
  ("ABCDEFGHIJKLMNOPQRSTUVWXYZabcdefghijklmnopqrstuvwxyz0123456789-_".toList[n]?).getD 'A'

/-- `base64.urlsafe_b64encode(bytes)`. -/
def urlsafeB64encode : List UInt8 → List Char
  | [] => []
  | [a] => [base64Char (a.toNat / 4), base64Char (a.toNat % 4 * 16), '=', '=']
  | [a, b] =>
      [base64Char (a.toNat / 4), base64Char (a.toNat % 4 * 16 + b.toNat / 16),
        base64Char (b.toNat % 16 * 4), '=']
  | a :: b :: c :: bytes =>
      base64Char (a.toNat / 4) :: base64Char (a.toNat % 4 * 16 + b.toNat / 16) ::
        base64Char (b.toNat % 16 * 4 + c.toNat / 64) :: base64Char (c.toNat % 64) ::
          urlsafeB64encode bytes

/-- `text.rstrip("=")`. -/
def rstripPadding (cs : List Char) : List Char := (cs.reverse.dropWhile (· == '=')).reverse

/-- `token + "=" * (-len(token) % 4)`. -/
def addPadding (cs : List Char) : List Char :=
  cs ++ List.replicate ((4 - cs.length % 4) % 4) '='

/-! ## Decoding -/

/-- The number of a digit, in the standard and in the URL-safe alphabet. -/
def base64Value (c : Char) : Option Nat :=
  if 'A' ≤ c ∧ c ≤ 'Z' then some (c.toNat - 65)
  else if 'a' ≤ c ∧ c ≤ 'z' then some (c.toNat - 71)
  else if '0' ≤ c ∧ c ≤ '9' then some (c.toNat + 4)
  else if c = '+' ∨ c = '-' then some 62
  else if c = '/' ∨ c = '_' then some 63
  else none

/-- What a digit completes after `quadPos` digits of a group that left `leftchar` over: a byte if
there is one, and what it leaves. -/
def pushDigit (quadPos leftchar n : Nat) : List UInt8 × Nat × Nat :=
  match quadPos with
  | 0 => ([], 1, n)
  | 1 => ([UInt8.ofNat (leftchar * 4 + n / 16)], 2, n % 16)
  | 2 => ([UInt8.ofNat (leftchar * 16 + n / 4)], 3, n % 4)
  | _ => ([UInt8.ofNat (leftchar * 64 + n)], 0, 0)

/-- `a2b_base64`, after `quadPos` digits of a group and `pads` signs of padding; `none` for
`binascii.Error`. -/
def a2bBase64 (quadPos leftchar pads : Nat) : List Char → Option (List UInt8)
  | [] => if quadPos = 0 then some [] else none
  | c :: cs =>
      if c = '=' then
        if 2 ≤ quadPos then
          if 4 ≤ quadPos + (pads + 1) then some [] else a2bBase64 quadPos leftchar (pads + 1) cs
        else a2bBase64 quadPos leftchar pads cs
      else
        match base64Value c with
        | none => a2bBase64 quadPos leftchar pads cs
        | some n =>
            let pushed := pushDigit quadPos leftchar n
            (a2bBase64 pushed.2.1 pushed.2.2 0 cs).map (pushed.1 ++ ·)

/-- `base64.urlsafe_b64decode(text)`. -/
def urlsafeB64decode (cs : List Char) : Option (List UInt8) := a2bBase64 0 0 0 cs

/-! ## Round trip -/

theorem base64Char_spec : ∀ n : Fin 64, base64Value (base64Char n) = some n.val ∧
    base64Char n ≠ '=' ∧ (base64Char n).toNat < 128 := by
  decide +kernel

theorem base64Value_char {n : Nat} (h : n < 64) : base64Value (base64Char n) = some n :=
  (base64Char_spec ⟨n, h⟩).1

theorem base64Char_ne {n : Nat} (h : n < 64) : base64Char n ≠ '=' :=
  (base64Char_spec ⟨n, h⟩).2.1

theorem base64Char_ascii {n : Nat} (h : n < 64) : (base64Char n).toNat < 128 :=
  (base64Char_spec ⟨n, h⟩).2.2

/-- A digit of the alphabet is read. -/
theorem a2bBase64_digit {n : Nat} (h : n < 64) (quadPos leftchar pads : Nat) (cs : List Char) :
    a2bBase64 quadPos leftchar pads (base64Char n :: cs) =
      (a2bBase64 (pushDigit quadPos leftchar n).2.1 (pushDigit quadPos leftchar n).2.2 0 cs).map
        ((pushDigit quadPos leftchar n).1 ++ ·) := by
  rw [a2bBase64, if_neg (base64Char_ne h), base64Value_char h]

/-- What was encoded is decoded. -/
theorem urlsafeB64decode_encode (bytes : List UInt8) :
    urlsafeB64decode (urlsafeB64encode bytes) = some bytes := by
  unfold urlsafeB64decode
  induction bytes using urlsafeB64encode.induct with
  | case1 => rfl
  | case2 a =>
      have ha := a.toNat_lt
      have hfirst : a.toNat / 4 * 4 + a.toNat % 4 * 16 / 16 = a.toNat := by omega
      simp only [urlsafeB64encode, a2bBase64_digit (show a.toNat / 4 < 64 by omega),
        a2bBase64_digit (show a.toNat % 4 * 16 < 64 by omega), pushDigit, hfirst,
        UInt8.ofNat_toNat]
      rfl
  | case3 a b =>
      have ha := a.toNat_lt
      have hb := b.toNat_lt
      have hfirst : a.toNat / 4 * 4 + (a.toNat % 4 * 16 + b.toNat / 16) / 16 = a.toNat := by omega
      have hsecond : (a.toNat % 4 * 16 + b.toNat / 16) % 16 * 16 + b.toNat % 16 * 4 / 4 =
          b.toNat := by omega
      simp only [urlsafeB64encode, a2bBase64_digit (show a.toNat / 4 < 64 by omega),
        a2bBase64_digit (show a.toNat % 4 * 16 + b.toNat / 16 < 64 by omega),
        a2bBase64_digit (show b.toNat % 16 * 4 < 64 by omega), pushDigit, hfirst, hsecond,
        UInt8.ofNat_toNat]
      rfl
  | case4 a b c bytes ih =>
      have ha := a.toNat_lt
      have hb := b.toNat_lt
      have hc := c.toNat_lt
      have hfirst : a.toNat / 4 * 4 + (a.toNat % 4 * 16 + b.toNat / 16) / 16 = a.toNat := by omega
      have hsecond : (a.toNat % 4 * 16 + b.toNat / 16) % 16 * 16 +
          (b.toNat % 16 * 4 + c.toNat / 64) / 4 = b.toNat := by omega
      have hthird : (b.toNat % 16 * 4 + c.toNat / 64) % 4 * 64 + c.toNat % 64 = c.toNat := by omega
      simp only [urlsafeB64encode, a2bBase64_digit (show a.toNat / 4 < 64 by omega),
        a2bBase64_digit (show a.toNat % 4 * 16 + b.toNat / 16 < 64 by omega),
        a2bBase64_digit (show b.toNat % 16 * 4 + c.toNat / 64 < 64 by omega),
        a2bBase64_digit (show c.toNat % 64 < 64 by omega), pushDigit, ih, hfirst, hsecond, hthird,
        UInt8.ofNat_toNat]
      rfl

/-- A text that is all digits and then at most two signs of padding, in whole groups. -/
theorem urlsafeB64encode_shape (bytes : List UInt8) :
    ∃ digits pads, urlsafeB64encode bytes = digits ++ List.replicate pads '=' ∧
      pads < 4 ∧ (digits.length + pads) % 4 = 0 ∧
        ∀ c ∈ digits, c ≠ '=' ∧ c.toNat < 128 := by
  have hdigit : ∀ {n : Nat}, n < 64 → base64Char n ≠ '=' ∧ (base64Char n).toNat < 128 :=
    fun h => ⟨base64Char_ne h, base64Char_ascii h⟩
  induction bytes using urlsafeB64encode.induct with
  | case1 => exact ⟨[], 0, rfl, by decide, rfl, by simp⟩
  | case2 a =>
      have ha := a.toNat_lt
      refine ⟨[_, _], 2, rfl, by decide, by simp, ?_⟩
      simp only [List.mem_cons, List.not_mem_nil, or_false]
      rintro c (rfl | rfl)
      · exact hdigit (by omega)
      · exact hdigit (by omega)
  | case3 a b =>
      have ha := a.toNat_lt
      have hb := b.toNat_lt
      refine ⟨[_, _, _], 1, rfl, by decide, by simp, ?_⟩
      simp only [List.mem_cons, List.not_mem_nil, or_false]
      rintro c (rfl | rfl | rfl)
      · exact hdigit (by omega)
      · exact hdigit (by omega)
      · exact hdigit (by omega)
  | case4 a b c bytes ih =>
      have ha := a.toNat_lt
      have hb := b.toNat_lt
      have hc := c.toNat_lt
      obtain ⟨digits, pads, heq, hpads, hlength, hdigits⟩ := ih
      refine ⟨_ :: _ :: _ :: _ :: digits, pads, by rw [urlsafeB64encode, heq]; rfl, hpads, ?_, ?_⟩
      · simp only [List.length_cons]
        omega
      · simp only [List.mem_cons]
        rintro c (rfl | rfl | rfl | rfl | h)
        · exact hdigit (by omega)
        · exact hdigit (by omega)
        · exact hdigit (by omega)
        · exact hdigit (by omega)
        · exact hdigits c h

/-- The padding that was taken off is put back, and the text is in ASCII. -/
theorem addPadding_rstripPadding (bytes : List UInt8) :
    addPadding (rstripPadding (urlsafeB64encode bytes)) = urlsafeB64encode bytes ∧
      ∀ c ∈ urlsafeB64encode bytes, c.toNat < 128 := by
  obtain ⟨digits, pads, heq, hpads, hlength, hdigits⟩ := urlsafeB64encode_shape bytes
  have hstrip : rstripPadding (digits ++ List.replicate pads '=') = digits := by
    have hreplicate : (List.replicate pads '=').dropWhile (· == '=') = [] := by simp
    have hkeep : digits.reverse.dropWhile (· == '=') = digits.reverse := by
      cases hrev : digits.reverse with
      | nil => rfl
      | cons c cs =>
          have hmem : c ∈ digits := List.mem_reverse.mp (hrev ▸ List.mem_cons_self)
          simp [(hdigits c hmem).1]
    rw [rstripPadding, List.reverse_append, List.reverse_replicate,
      List.dropWhile_append_of_pos (by simp), hkeep, List.reverse_reverse]
  have hcount : (4 - digits.length % 4) % 4 = pads := by omega
  constructor
  · rw [heq, hstrip, addPadding, hcount]
  · intro c hc
    rw [heq] at hc
    rcases List.mem_append.mp hc with h | h
    · exact (hdigits c h).2
    · rw [List.eq_of_mem_replicate h]
      decide

end ProdkitStorage.Python

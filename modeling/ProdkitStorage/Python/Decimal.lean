import ProdkitStorage.Foundation.Numeral

/-!
# Decimals

`decimal.Decimal`, the text `str` makes of one and the reading of such a text by
the constructor.  A NaN has no payload here: PostgreSQL stores none.  The
constructor takes other texts as well (lower case, spaces around, underscores);
`PyDecimal.ofStr` answers `none` on those.
-/

namespace ProdkitStorage.Python

open ProdkitStorage.Foundation

/-- `decimal.Decimal`: `± coefficient · 10 ^ exponent`, an infinity or NaN. -/
inductive PyDecimal where
  | finite (negative : Bool) (coefficient : Nat) (exponent : Int)
  | infinity (negative : Bool)
  | nan
deriving DecidableEq, Repr

/-! ## `str` -/

/-- The sign of a negative number. -/
def signText (negative : Bool) : List Char := if negative then ['-'] else []

/-- `"%+d" % n`. -/
def signedText (n : Int) : List Char :=
  (if n < 0 then '-' else '+') :: Nat.toDigits 10 n.natAbs

/-- `intpart` of `Decimal.__str__`. -/
def intpart (digits : List Char) (dotplace : Int) : List Char :=
  if dotplace ≤ 0 then ['0']
  else if digits.length ≤ dotplace then
    digits ++ List.replicate (dotplace - digits.length).toNat '0'
  else digits.take dotplace.toNat

/-- `fracpart` of `Decimal.__str__`, without its point. -/
def fracpart (digits : List Char) (dotplace : Int) : List Char :=
  if dotplace ≤ 0 then List.replicate (-dotplace).toNat '0' ++ digits
  else if digits.length ≤ dotplace then []
  else digits.drop dotplace.toNat

/-- The position of the point in `Decimal.__str__`: an exponent is written only when the plain
notation would need many zeros. -/
def dotplace (exponent leftdigits : Int) : Int :=
  if exponent ≤ 0 ∧ -6 < leftdigits then leftdigits else 1

/-- A fractional part with its point, nothing when there is none. -/
def fractionText (digits : List Char) : List Char := if digits = [] then [] else '.' :: digits

/-- The exponent, nothing when it is zero. -/
def exponentText (exponent : Int) : List Char :=
  if exponent = 0 then [] else 'E' :: signedText exponent

/-- `str(value)`. -/
def PyDecimal.str : PyDecimal → List Char
  | .nan => "NaN".toList
  | .infinity negative => signText negative ++ "Infinity".toList
  | .finite negative coefficient exponent =>
      let digits := Nat.toDigits 10 coefficient
      let leftdigits := exponent + digits.length
      let dotplace := dotplace exponent leftdigits
      signText negative ++ (intpart digits dotplace ++
        (fractionText (fracpart digits dotplace) ++ exponentText (leftdigits - dotplace)))

/-! ## The constructor -/

/-- The longest prefix of digits, and what comes after it. -/
def spanDigits (cs : List Char) : List Char × List Char :=
  (cs.takeWhile Char.isDigit, cs.dropWhile Char.isDigit)

/-- Read the sign of a number. -/
def readSign : List Char → Bool × List Char
  | '-' :: cs => (true, cs)
  | '+' :: cs => (false, cs)
  | cs => (false, cs)

/-- Read a fractional part. -/
def readFracpart : List Char → List Char × List Char
  | '.' :: cs => spanDigits cs
  | cs => ([], cs)

/-- Read an exponent to the end of the text. -/
def readExponent : List Char → Option Int
  | [] => some 0
  | 'E' :: cs => do
      let (negative, cs) := readSign cs
      if cs = [] then none
      let n ← readDigits 10 cs
      return if negative then -(n : Int) else n
  | _ => none

/-- Read a number after its sign. -/
def readFinite (negative : Bool) (cs : List Char) : Option PyDecimal := do
  let (int, cs) := spanDigits cs
  let (frac, cs) := readFracpart cs
  let exponent ← readExponent cs
  if int ++ frac = [] then none
  let coefficient ← readDigits 10 (int ++ frac)
  return .finite negative coefficient (exponent - frac.length)

/-- `Decimal(text)`, for the texts `str` writes. -/
def PyDecimal.ofStr (cs : List Char) : Option PyDecimal :=
  let (negative, cs) := readSign cs
  if cs = "Infinity".toList then some (.infinity negative)
  else if cs = "NaN".toList then some .nan
  else readFinite negative cs

/-! ## Reading back -/

/-- Every character is a digit. -/
def AllDigits (cs : List Char) : Prop := ∀ c ∈ cs, c.isDigit = true

/-- The text does not go on with a digit. -/
def StopsDigits (cs : List Char) : Prop := ∀ c rest, cs = c :: rest → c.isDigit = false

theorem allDigits_toDigits (n : Nat) : AllDigits (Nat.toDigits 10 n) :=
  fun _ hc => Nat.isDigit_of_mem_toDigits (by decide) (by decide) hc

theorem allDigits_replicate (n : Nat) : AllDigits (List.replicate n '0') := by
  intro c hc
  rw [List.eq_of_mem_replicate hc]
  rfl

theorem AllDigits.append {first second : List Char} (hfirst : AllDigits first)
    (hsecond : AllDigits second) : AllDigits (first ++ second) := by
  intro c hc
  rcases List.mem_append.mp hc with h | h
  · exact hfirst c h
  · exact hsecond c h

theorem allDigits_intpart {digits : List Char} (h : AllDigits digits) (dotplace : Int) :
    AllDigits (intpart digits dotplace) := by
  unfold intpart
  split
  · exact allDigits_replicate 1
  · split
    · exact h.append (allDigits_replicate _)
    · exact fun c hc => h c (List.mem_of_mem_take hc)

theorem allDigits_fracpart {digits : List Char} (h : AllDigits digits) (dotplace : Int) :
    AllDigits (fracpart digits dotplace) := by
  unfold fracpart
  split
  · exact (allDigits_replicate _).append h
  · split
    · exact fun c hc => absurd hc List.not_mem_nil
    · exact fun c hc => h c (List.mem_of_mem_drop hc)

theorem spanDigits_append {digits rest : List Char} (hdigits : AllDigits digits)
    (hrest : StopsDigits rest) : spanDigits (digits ++ rest) = (digits, rest) := by
  have htake : rest.takeWhile Char.isDigit = [] := by
    cases rest with
    | nil => rfl
    | cons c rest => simp [hrest c rest rfl]
  have hdrop : rest.dropWhile Char.isDigit = rest := by
    cases rest with
    | nil => rfl
    | cons c rest => simp [hrest c rest rfl]
  rw [spanDigits, List.takeWhile_append_of_pos hdigits, List.dropWhile_append_of_pos hdigits, htake,
    hdrop, List.append_nil]

theorem stopsDigits_exponentText (exponent : Int) : StopsDigits (exponentText exponent) := by
  intro c rest h
  unfold exponentText at h
  split at h
  · cases h
  · cases h
    rfl

theorem stopsDigits_fractionText (digits : List Char) {rest : List Char}
    (hrest : StopsDigits rest) :
    StopsDigits (fractionText digits ++ rest) := by
  intro c cs h
  unfold fractionText at h
  split at h
  · exact hrest c cs h
  · cases h
    rfl

theorem readExponent_exponentText (exponent : Int) :
    readExponent (exponentText exponent) = some exponent := by
  unfold exponentText
  split
  · rename_i hzero
    rw [hzero]
    rfl
  · unfold signedText
    have hdigits : Nat.toDigits 10 exponent.natAbs ≠ [] := Nat.toDigits_ne_nil
    have hread := readDigits_toDigits (by decide : 1 < 10) (by decide) exponent.natAbs
    by_cases hneg : exponent < 0
    · have habs : -(exponent.natAbs : Int) = exponent := by omega
      generalize exponent.natAbs = size at hdigits hread habs ⊢
      simp [readExponent, hneg, readSign, hdigits, hread, habs]
    · have habs : (exponent.natAbs : Int) = exponent := by omega
      generalize exponent.natAbs = size at hdigits hread habs ⊢
      simp [readExponent, hneg, readSign, hdigits, hread, habs]

theorem readFracpart_fractionText {digits : List Char} (hdigits : AllDigits digits)
    (exponent : Int) :
    readFracpart (fractionText digits ++ exponentText exponent) =
      (digits, exponentText exponent) := by
  unfold fractionText
  split
  · rename_i hnil
    rw [hnil, List.nil_append]
    unfold exponentText
    split
    · rfl
    · rfl
  · exact spanDigits_append hdigits (stopsDigits_exponentText exponent)

/-- Leading zeros do not count. -/
theorem readDigits_zeros (n : Nat) (cs : List Char) :
    readDigits 10 (List.replicate n '0' ++ cs) = readDigits 10 cs := by
  induction n with
  | zero => rfl
  | succ n ih => exact ih

/-- The two parts hold the digits and place the point. -/
theorem parts_toDigits (coefficient : Nat) (exponent : Int) :
    let digits := Nat.toDigits 10 coefficient
    let place := dotplace exponent (exponent + digits.length)
    intpart digits place ≠ [] ∧
      readDigits 10 (intpart digits place ++ fracpart digits place) = some coefficient ∧
      exponent + digits.length - place - (fracpart digits place).length = exponent := by
  intro digits place
  have hread : readDigits 10 digits = some coefficient :=
    readDigits_toDigits (by decide) (by decide) coefficient
  have hpos : 0 < digits.length := Nat.length_toDigits_pos
  have hplace : place = exponent + digits.length ∧ exponent ≤ 0 ∨ place = 1 := by
    simp only [place, dotplace]
    split
    · rename_i h
      exact .inl ⟨rfl, h.1⟩
    · exact .inr rfl
  unfold intpart fracpart
  by_cases hzero : place ≤ 0
  · -- All digits are behind the point.
    rw [if_pos hzero, if_pos hzero]
    refine ⟨List.cons_ne_nil _ _, ?_, ?_⟩
    · rw [List.singleton_append]
      exact (readDigits_zeros ((-place).toNat + 1) digits).trans hread
    · simp only [List.length_append, List.length_replicate]
      omega
  · rw [if_neg hzero, if_neg hzero]
    by_cases hall : digits.length ≤ place
    · -- All digits are before the point, and no zeros have to be added.
      have hadd : (place - digits.length).toNat = 0 := by omega
      rw [if_pos hall, if_pos hall, hadd]
      refine ⟨?_, ?_, ?_⟩
      · simpa using List.ne_nil_of_length_pos hpos
      · simpa using hread
      · simp only [List.length_nil]
        omega
    · rw [if_neg hall, if_neg hall]
      refine ⟨?_, ?_, ?_⟩
      · refine List.ne_nil_of_length_pos ?_
        rw [List.length_take]
        omega
      · rw [List.take_append_drop]
        exact hread
      · rw [List.length_drop]
        omega

theorem readFinite_parts (negative : Bool) {int frac : List Char} {coefficient : Nat}
    (exponent : Int) (hne : int ≠ []) (hint : AllDigits int) (hfrac : AllDigits frac)
    (hcoefficient : readDigits 10 (int ++ frac) = some coefficient) :
    readFinite negative (int ++ (fractionText frac ++ exponentText exponent)) =
      some (.finite negative coefficient (exponent - frac.length)) := by
  have hspan := spanDigits_append hint
    (stopsDigits_fractionText frac (stopsDigits_exponentText exponent))
  simp [readFinite, hspan, readFracpart_fractionText hfrac, readExponent_exponentText, hne,
    hcoefficient]

theorem readSign_signText (negative : Bool) {c : Char} (hc : c ≠ '-' ∧ c ≠ '+')
    (cs : List Char) : readSign (signText negative ++ c :: cs) = (negative, c :: cs) := by
  cases negative with
  | false =>
      unfold readSign
      split
      · rename_i h
        exact absurd (List.cons.inj h).1 hc.1
      · rename_i h
        exact absurd (List.cons.inj h).1 hc.2
      · rfl
  | true => rfl

/-- A decimal is read back from its text. -/
theorem PyDecimal.ofStr_str (value : PyDecimal) : PyDecimal.ofStr value.str = some value := by
  cases value with
  | nan => rfl
  | infinity negative => cases negative <;> rfl
  | finite negative coefficient exponent =>
      obtain ⟨hne, hcoefficient, hexponent⟩ := parts_toDigits coefficient exponent
      have hint := allDigits_intpart (allDigits_toDigits coefficient)
        (dotplace exponent (exponent + (Nat.toDigits 10 coefficient).length))
      have hfrac := allDigits_fracpart (allDigits_toDigits coefficient)
        (dotplace exponent (exponent + (Nat.toDigits 10 coefficient).length))
      simp only [PyDecimal.str]
      generalize intpart _ _ = int at *
      generalize fracpart _ _ = frac at *
      generalize exponent + _ - _ = shown at *
      obtain ⟨c, int, rfl⟩ := List.exists_cons_of_ne_nil hne
      have hc : c.isDigit = true := hint c List.mem_cons_self
      have hsign : c ≠ '-' ∧ c ≠ '+' := by
        constructor
        · rintro rfl
          exact absurd hc (by decide)
        · rintro rfl
          exact absurd hc (by decide)
      have hinfinity : c :: int ++ (fractionText frac ++ exponentText shown) ≠
          "Infinity".toList := by
        intro h
        rw [(List.cons.inj h).1] at hc
        exact absurd hc (by decide)
      have hnan : c :: int ++ (fractionText frac ++ exponentText shown) ≠ "NaN".toList := by
        intro h
        rw [(List.cons.inj h).1] at hc
        exact absurd hc (by decide)
      rw [PyDecimal.ofStr, List.cons_append, readSign_signText negative hsign]
      simp only [← List.cons_append, if_neg hinfinity, if_neg hnan]
      rw [readFinite_parts negative shown hne hint hfrac hcoefficient, hexponent]

end ProdkitStorage.Python

import Mathlib.Algebra.Order.Ring.Nat
import Mathlib.Tactic.Ring

/-!
# Positional numerals

Numbers written in a base of at most sixteen.  `padded base width n` writes the
lowest `width` digits of `n`, with leading zeros; `Nat.toDigits` writes as many
as there are.  `readDigits` reads either back, and rejects a text with a
character that is no digit of the base.
-/

namespace ProdkitStorage.Foundation

/-- The value of a digit, in either letter case. -/
def digitValue (c : Char) : Option Nat :=
  if '0' ≤ c ∧ c ≤ '9' then some (c.toNat - 48)
  else if 'a' ≤ c ∧ c ≤ 'f' then some (c.toNat - 87)
  else if 'A' ≤ c ∧ c ≤ 'F' then some (c.toNat - 55)
  else none

/-- Read digits after a number that has been read. -/
def readDigitsFrom (base : Nat) (read : Nat) : List Char → Option Nat
  | [] => some read
  | c :: cs =>
      match digitValue c with
      | none => none
      | some d => if d < base then readDigitsFrom base (read * base + d) cs else none

/-- The number a text of digits denotes. -/
def readDigits (base : Nat) (cs : List Char) : Option Nat := readDigitsFrom base 0 cs

/-- The lowest `width` digits of a number. -/
def padded (base : Nat) : Nat → Nat → List Char
  | 0, _ => []
  | width + 1, n => padded base width (n / base) ++ [Nat.digitChar (n % base)]

theorem digitValue_digitChar {n : Nat} (h : n < 16) : digitValue (Nat.digitChar n) = some n := by
  have hall : ∀ n : Fin 16, digitValue (Nat.digitChar n.val) = some n.val := by decide
  exact hall ⟨n, h⟩

@[simp] theorem readDigitsFrom_nil (base read : Nat) : readDigitsFrom base read [] = some read :=
  rfl

theorem readDigitsFrom_digit {base read d : Nat} (hbase : base ≤ 16) (hd : d < base)
    (cs : List Char) :
    readDigitsFrom base read (Nat.digitChar d :: cs) =
      readDigitsFrom base (read * base + d) cs := by
  rw [readDigitsFrom, digitValue_digitChar (by omega)]
  exact if_pos hd

@[simp] theorem length_padded (base width n : Nat) : (padded base width n).length = width := by
  induction width generalizing n with
  | zero => rfl
  | succ width ih => rw [padded, List.length_append, ih, List.length_singleton]

/-- Reading a padded numeral gives the number modulo what the width can hold. -/
theorem readDigitsFrom_padded {base : Nat} (hpos : 0 < base) (hbase : base ≤ 16)
    (width n read : Nat) (cs : List Char) :
    readDigitsFrom base read (padded base width n ++ cs) =
      readDigitsFrom base (read * base ^ width + n % base ^ width) cs := by
  induction width generalizing n cs with
  | zero => simp [padded, Nat.mod_one]
  | succ width ih =>
      have hvalue : (read * base ^ width + n / base % base ^ width) * base + n % base =
          read * base ^ (width + 1) + n % base ^ (width + 1) := by
        rw [Nat.pow_succ', Nat.mod_mul]
        ring
      rw [padded, List.append_assoc, ih, List.singleton_append,
        readDigitsFrom_digit hbase (Nat.mod_lt n hpos), hvalue]

theorem readDigits_padded {base : Nat} (hpos : 0 < base) (hbase : base ≤ 16) (width n : Nat) :
    readDigits base (padded base width n) = some (n % base ^ width) := by
  have h := readDigitsFrom_padded hpos hbase width n 0 []
  simpa [readDigits] using h

/-- A numeral that is wide enough is read back. -/
theorem readDigits_padded_of_lt {base width n : Nat} (hpos : 0 < base) (hbase : base ≤ 16)
    (h : n < base ^ width) : readDigits base (padded base width n) = some n := by
  rw [readDigits_padded hpos hbase, Nat.mod_eq_of_lt h]

/-- Every character of a padded numeral is a digit of the base. -/
theorem mem_padded {base width n : Nat} (hpos : 0 < base) {c : Char}
    (h : c ∈ padded base width n) : ∃ d < base, c = Nat.digitChar d := by
  induction width generalizing n with
  | zero => cases h
  | succ width ih =>
      rcases List.mem_append.mp h with h | h
      · exact ih h
      · exact ⟨n % base, Nat.mod_lt n hpos, List.mem_singleton.mp h⟩

/-- Reading the digits of a number after some others. -/
theorem readDigitsFrom_toDigits {base : Nat} (hone : 1 < base) (hbase : base ≤ 16) (n : Nat) :
    ∀ (read : Nat) (cs : List Char),
      readDigitsFrom base read (Nat.toDigits base n ++ cs) =
        readDigitsFrom base (read * base ^ (Nat.toDigits base n).length + n) cs := by
  induction n using Nat.strongRecOn with
  | _ n ih =>
      intro read cs
      by_cases hlt : n < base
      · rw [Nat.toDigits_of_lt_base hlt, List.singleton_append, readDigitsFrom_digit hbase hlt]
        simp
      · have hge : base ≤ n := Nat.le_of_not_lt hlt
        have hdiv : n / base < n := Nat.div_lt_self (by omega) hone
        have hvalue : (read * base ^ (Nat.toDigits base (n / base)).length + n / base) * base +
            n % base = read * base ^ ((Nat.toDigits base (n / base)).length + 1) + n := by
          have hn := Nat.div_add_mod n base
          calc (read * base ^ (Nat.toDigits base (n / base)).length + n / base) * base + n % base
              = read * base ^ ((Nat.toDigits base (n / base)).length + 1) +
                  (base * (n / base) + n % base) := by ring
            _ = read * base ^ ((Nat.toDigits base (n / base)).length + 1) + n := by rw [hn]
        rw [Nat.toDigits_of_base_le hone hge, List.append_assoc, ih _ hdiv, List.singleton_append,
          readDigitsFrom_digit hbase (Nat.mod_lt n (by omega)), hvalue, List.length_append,
          List.length_singleton]

/-- The digits of a number are read back. -/
theorem readDigits_toDigits {base : Nat} (hone : 1 < base) (hbase : base ≤ 16) (n : Nat) :
    readDigits base (Nat.toDigits base n) = some n := by
  have h := readDigitsFrom_toDigits hone hbase n 0 []
  simpa [readDigits] using h

end ProdkitStorage.Foundation

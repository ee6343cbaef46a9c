import ProdkitStorage.Foundation.Numeral

/-!
# Dates and times

`datetime.date`, `time` and `datetime`, with the texts `isoformat` makes of them
and the reading of these texts by `fromisoformat`.  `fromisoformat` takes other
ISO 8601 texts as well; the readers here answer `none` on those.  An aware value
carries its offset from UTC.  `fold` is left out: no text shows it.
-/

namespace ProdkitStorage.Python

open ProdkitStorage.Foundation

/-! ## Values -/

/-- The number of days of a month. -/
def daysInMonth (year month : Nat) : Nat :=
  if month = 2 then
    if year % 4 = 0 ∧ (year % 100 ≠ 0 ∨ year % 400 = 0) then 29 else 28
  else if month = 4 ∨ month = 6 ∨ month = 9 ∨ month = 11 then 30 else 31

/-- `datetime.date`. -/
structure Date where
  year : Nat
  month : Nat
  day : Nat
  year_mem : 1 ≤ year ∧ year ≤ 9999
  month_mem : 1 ≤ month ∧ month ≤ 12
  day_mem : 1 ≤ day ∧ day ≤ daysInMonth year month
deriving DecidableEq, Repr

/-- The hour, minute, second and microsecond of a `time` or a `datetime`. -/
structure Clock where
  hour : Nat
  minute : Nat
  second : Nat
  microsecond : Nat
  hour_lt : hour < 24
  minute_lt : minute < 60
  second_lt : second < 60
  microsecond_lt : microsecond < 1000000
deriving DecidableEq, Repr

/-- An offset from UTC, in microseconds: strictly less than a day. -/
structure UtcOffset where
  microseconds : Int
  natAbs_lt : microseconds.natAbs < 86400000000
deriving DecidableEq, Repr

/-- `datetime.time`. -/
structure Time where
  clock : Clock
  offset : Option UtcOffset
deriving DecidableEq, Repr

/-- `datetime.datetime`. -/
structure Datetime where
  date : Date
  clock : Clock
  offset : Option UtcOffset
deriving DecidableEq, Repr

/-! ## `isoformat` -/

/-- `"%0<width>d" % n`, for a number that fits. -/
def decimal (width n : Nat) : List Char := padded 10 width n

/-- `date.isoformat()`. -/
def Date.isoformat (date : Date) : List Char :=
  decimal 4 date.year ++ '-' :: (decimal 2 date.month ++ '-' :: decimal 2 date.day)

/-- The microseconds, left out when there are none. -/
def fraction (microsecond : Nat) : List Char :=
  if microsecond = 0 then [] else '.' :: decimal 6 microsecond

/-- `HH:MM:SS.ffffff`. -/
def Clock.isoformat (clock : Clock) : List Char :=
  decimal 2 clock.hour ++ ':' :: (decimal 2 clock.minute ++ ':' :: (decimal 2 clock.second ++
    fraction clock.microsecond))

/-- The seconds and microseconds of an offset, left out when both are zero. -/
def offsetSeconds (seconds microseconds : Nat) : List Char :=
  if seconds = 0 ∧ microseconds = 0 then []
  else ':' :: (decimal 2 seconds ++ fraction microseconds)

/-- `_format_offset`. -/
def UtcOffset.isoformat (offset : UtcOffset) : List Char :=
  let size := offset.microseconds.natAbs
  (if offset.microseconds < 0 then '-' else '+') ::
    (decimal 2 (size / 3600000000) ++ ':' :: (decimal 2 (size / 60000000 % 60) ++
      offsetSeconds (size / 1000000 % 60) (size % 1000000)))

/-- The offset of an aware value. -/
def offsetText : Option UtcOffset → List Char
  | none => []
  | some offset => offset.isoformat

/-- `datetime.isoformat()`. -/
def Datetime.isoformat (value : Datetime) : List Char :=
  value.date.isoformat ++ 'T' :: (value.clock.isoformat ++ offsetText value.offset)

/-! ## `fromisoformat` -/

/-- Read a number of `width` digits. -/
def readNumber (width : Nat) (cs : List Char) : Option (Nat × List Char) := do
  let n ← readDigits 10 (cs.take width)
  if (cs.take width).length = width then some (n, cs.drop width) else none

/-- Read one character. -/
def readChar (c : Char) : List Char → Option (List Char)
  | [] => none
  | d :: cs => if d = c then some cs else none

/-- Read a date. -/
def Date.read (cs : List Char) : Option (Date × List Char) := do
  let (year, cs) ← readNumber 4 cs
  let cs ← readChar '-' cs
  let (month, cs) ← readNumber 2 cs
  let cs ← readChar '-' cs
  let (day, cs) ← readNumber 2 cs
  if h : (1 ≤ year ∧ year ≤ 9999) ∧ (1 ≤ month ∧ month ≤ 12) ∧
      1 ≤ day ∧ day ≤ daysInMonth year month then
    some (⟨year, month, day, h.1, h.2.1, h.2.2⟩, cs)
  else none

/-- Read the microseconds, none when there is no point. -/
def readFraction : List Char → Option (Nat × List Char)
  | '.' :: cs => readNumber 6 cs
  | cs => some (0, cs)

/-- Read a clock. -/
def Clock.read (cs : List Char) : Option (Clock × List Char) := do
  let (hour, cs) ← readNumber 2 cs
  let cs ← readChar ':' cs
  let (minute, cs) ← readNumber 2 cs
  let cs ← readChar ':' cs
  let (second, cs) ← readNumber 2 cs
  let (microsecond, cs) ← readFraction cs
  if h : hour < 24 ∧ minute < 60 ∧ second < 60 ∧ microsecond < 1000000 then
    some (⟨hour, minute, second, microsecond, h.1, h.2.1, h.2.2.1, h.2.2.2⟩, cs)
  else none

/-- Read the seconds and microseconds of an offset. -/
def readOffsetSeconds : List Char → Option (Nat × List Char)
  | ':' :: cs => do
      let (second, cs) ← readNumber 2 cs
      let (microsecond, cs) ← readFraction cs
      if second < 60 then some (second * 1000000 + microsecond, cs) else none
  | cs => some (0, cs)

/-- Read an offset to the end of the text. -/
def readOffset : List Char → Option (Option UtcOffset)
  | [] => some none
  | c :: cs => do
      let negative ← if c = '-' then some true else if c = '+' then some false else none
      let (hour, cs) ← readNumber 2 cs
      let cs ← readChar ':' cs
      let (minute, cs) ← readNumber 2 cs
      let (rest, cs) ← readOffsetSeconds cs
      let size := hour * 3600000000 + minute * 60000000 + rest
      let microseconds : Int := if negative then -size else size
      if cs = [] ∧ minute < 60 then
        if h : microseconds.natAbs < 86400000000 then some (some ⟨microseconds, h⟩) else none
      else none

/-- `date.fromisoformat` of a text `isoformat` wrote. -/
def Date.fromisoformat (cs : List Char) : Option Date := do
  let (date, cs) ← Date.read cs
  if cs = [] then some date else none

/-- `datetime.fromisoformat` of a text `isoformat` wrote. -/
def Datetime.fromisoformat (cs : List Char) : Option Datetime := do
  let (date, cs) ← Date.read cs
  let cs ← readChar 'T' cs
  let (clock, cs) ← Clock.read cs
  let offset ← readOffset cs
  return ⟨date, clock, offset⟩

/-! ## Reading back -/

/-- A number of `w` digits is read back. -/
theorem readNumber_decimal {w n : Nat} (h : n < 10 ^ w) (cs : List Char) :
    readNumber w (decimal w n ++ cs) = some (n, cs) := by
  have htake : (decimal w n ++ cs).take w = decimal w n :=
    List.take_left' (length_padded 10 w n)
  have hdrop : (decimal w n ++ cs).drop w = cs :=
    List.drop_left' (length_padded 10 w n)
  have hlength : (decimal w n).length = w := length_padded 10 w n
  have hread : readDigits 10 (decimal w n) = some n :=
    readDigits_padded_of_lt (by decide) (by decide) h
  rw [readNumber, htake, hdrop, hread]
  exact if_pos hlength

@[simp] theorem readChar_self (c : Char) (cs : List Char) : readChar c (c :: cs) = some cs :=
  if_pos rfl

theorem daysInMonth_le (year month : Nat) : daysInMonth year month ≤ 31 := by
  unfold daysInMonth
  split
  · split
    · decide
    · decide
  · split
    · decide
    · decide

theorem Date.read_isoformat (date : Date) (cs : List Char) :
    Date.read (date.isoformat ++ cs) = some (date, cs) := by
  obtain ⟨year, month, day, hyear, hmonth, hday⟩ := date
  have hdays := daysInMonth_le year month
  have hy := readNumber_decimal (w := 4) (n := year) (by omega)
  have hm := readNumber_decimal (w := 2) (n := month) (by omega)
  have hd := readNumber_decimal (w := 2) (n := day) (by omega)
  simp [Date.read, Date.isoformat, hy, hm, hd, hyear, hmonth, hday]

/-- A text that does not go on with a fraction. -/
def NoPoint (cs : List Char) : Prop := ∀ rest, cs ≠ '.' :: rest

theorem readFraction_fraction {microsecond : Nat} (h : microsecond < 1000000) {cs : List Char}
    (hcs : NoPoint cs) : readFraction (fraction microsecond ++ cs) = some (microsecond, cs) := by
  unfold fraction
  split
  · rename_i hzero
    rw [hzero, List.nil_append]
    unfold readFraction
    split
    · exact absurd rfl (hcs _)
    · rfl
  · exact readNumber_decimal h cs

theorem Clock.read_isoformat (clock : Clock) {cs : List Char} (hcs : NoPoint cs) :
    Clock.read (clock.isoformat ++ cs) = some (clock, cs) := by
  obtain ⟨hour, minute, second, microsecond, hh, hm, hs, hu⟩ := clock
  have hreadHour := readNumber_decimal (w := 2) (n := hour) (by omega)
  have hreadMinute := readNumber_decimal (w := 2) (n := minute) (by omega)
  have hreadSecond := readNumber_decimal (w := 2) (n := second) (by omega)
  simp [Clock.read, Clock.isoformat, hreadHour, hreadMinute, hreadSecond,
    readFraction_fraction hu hcs, hh, hm, hs, hu]

theorem readOffsetSeconds_offsetSeconds {second microsecond : Nat} (hs : second < 60)
    (hu : microsecond < 1000000) :
    readOffsetSeconds (offsetSeconds second microsecond) =
      some (second * 1000000 + microsecond, []) := by
  unfold offsetSeconds
  split
  · rename_i hzero
    rw [hzero.1, hzero.2]
    rfl
  · have hreadSecond := readNumber_decimal (w := 2) (n := second) (by omega)
    have hend : NoPoint [] := fun rest h => by cases h
    have hfraction := readFraction_fraction hu hend
    rw [List.append_nil] at hfraction
    simp [readOffsetSeconds, hreadSecond, hfraction, hs]

/-- The fields of an offset add up to it. -/
theorem offset_fields (size : Nat) :
    size / 3600000000 * 3600000000 + size / 60000000 % 60 * 60000000 +
      (size / 1000000 % 60 * 1000000 + size % 1000000) = size := by
  omega

theorem readOffset_offsetText (offset : Option UtcOffset) :
    readOffset (offsetText offset) = some offset := by
  cases offset with
  | none => rfl
  | some offset =>
      obtain ⟨microseconds, hlt⟩ := offset
      obtain ⟨size, hsize⟩ : ∃ size, microseconds.natAbs = size := ⟨_, rfl⟩
      have hsize_lt : size < 86400000000 := hsize ▸ hlt
      have hhour := readNumber_decimal (w := 2) (n := size / 3600000000) (by omega)
      have hminute := readNumber_decimal (w := 2) (n := size / 60000000 % 60) (by omega)
      have hsixty : size / 60000000 % 60 < 60 := Nat.mod_lt _ (by decide)
      have hseconds := readOffsetSeconds_offsetSeconds
        (show size / 1000000 % 60 < 60 from Nat.mod_lt _ (by decide))
        (show size % 1000000 < 1000000 from Nat.mod_lt _ (by decide))
      by_cases hneg : microseconds < 0
      · have habs : -(size : Int) = microseconds := by omega
        simp only [offsetText, UtcOffset.isoformat, hsize, if_pos hneg, readOffset, if_true,
          Option.bind_eq_bind, Option.bind_some, hhour, readChar_self, hminute, hseconds,
          offset_fields, hsixty, and_self, habs]
        exact dif_pos hsize_lt
      · have habs : (size : Int) = microseconds := by omega
        have hsign : '+' ≠ '-' := by decide
        simp only [offsetText, UtcOffset.isoformat, hsize, if_neg hneg, readOffset, if_neg hsign,
          if_true, Option.bind_eq_bind, Option.bind_some, hhour, readChar_self, hminute, hseconds,
          offset_fields, hsixty, and_self, habs, Bool.false_eq_true, if_false]
        exact dif_pos hsize_lt

/-- A date is read back. -/
theorem Date.fromisoformat_isoformat (date : Date) :
    Date.fromisoformat date.isoformat = some date := by
  have h := Date.read_isoformat date []
  rw [List.append_nil] at h
  simp [Date.fromisoformat, h]

/-- A datetime is read back, with its offset. -/
theorem Datetime.fromisoformat_isoformat (value : Datetime) :
    Datetime.fromisoformat value.isoformat = some value := by
  have hoffset : NoPoint (offsetText value.offset) := by
    intro rest h
    cases ho : value.offset with
    | none => rw [ho] at h; cases h
    | some offset =>
        rw [ho] at h
        simp only [offsetText, UtcOffset.isoformat] at h
        have hhead := (List.cons.inj h).1
        split at hhead
        · cases hhead
        · cases hhead
  have hclock := Clock.read_isoformat value.clock hoffset
  have hdate := Date.read_isoformat value.date
    ('T' :: (value.clock.isoformat ++ offsetText value.offset))
  simp [Datetime.fromisoformat, Datetime.isoformat, hdate, hclock, readOffset_offsetText]

end ProdkitStorage.Python

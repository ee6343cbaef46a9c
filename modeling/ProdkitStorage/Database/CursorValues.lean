import ProdkitStorage.Database.Cursor

/-!
# Cursor values across a round trip

Which cells come back from a token as they were.  A cell is written by `dumpCell`
and read by `coerce` for the type of its column; the two agree on every type but
`Time`, whose text no `time(...)` takes, and on every value but the floats that
JSON has no text for, which are written as `null`.
-/

namespace ProdkitStorage.Database

open ProdkitStorage.Foundation
open ProdkitStorage.Python

/-! ## One cell -/

/-- The cell comes back: it is not a value of a `Time` column and not a float that is not finite. -/
def roundTrips : ColumnType → Option PyValue → Bool
  | .time _, some _ => false
  | _, some (.float x) => x.isFinite
  | _, _ => true

/-- The cell is written, and what was written is read as the cell. -/
def Survives (lib : Primitives) (type : ColumnType) (cell : Option PyValue) : Prop :=
  ∃ json, dumpCell cell = .ok json ∧ coerce lib type json = .ok cell

variable {lib : Primitives}

theorem survives_null (type : ColumnType) : Survives lib type none := ⟨.null, rfl, rfl⟩

theorem dumpCell_int {n : Int} (hlo : -2 ^ 63 ≤ n) (hhi : n < 2 ^ 64) :
    dumpCell (some (.int n)) = .ok (.int n) :=
  if_pos ⟨hlo, hhi⟩

/-- The text of a clock is never as short as a pickled state. -/
theorem length_isoformat_ne (clock : Clock) : clock.isoformat.length ≠ 6 := by
  rw [Clock.isoformat]
  simp only [decimal, List.length_append, List.length_cons, length_padded]
  unfold fraction
  split
  · simp
  · simp only [List.length_cons, decimal, length_padded]
    omega

/-- No value of a `Time` column comes back: a text is no argument of `time`, and `orjson` does not
write the time at all when it is aware. -/
theorem not_survives_time (t : Time) (timezone : Bool) :
    ¬Survives lib (.time timezone) (some (.time t)) := by
  rintro ⟨json, hdump, hcoerce⟩
  obtain ⟨clock, offset⟩ := t
  cases offset with
  | some offset => cases hdump
  | none =>
      obtain rfl := Except.ok.inj hdump
      simp [coerce, coerceValue, length_isoformat_ne] at hcoerce

/-- A float that is not finite is written as `null`. -/
theorem not_survives_float (type : ColumnType) {x : PyFloat} (hx : x.isFinite = false) :
    ¬Survives lib type (some (.float x)) := by
  rintro ⟨json, hdump, hcoerce⟩
  cases x with
  | finite x => cases hx
  | infinity negative =>
      obtain rfl := Except.ok.inj hdump
      cases hcoerce
  | nan =>
      obtain rfl := Except.ok.inj hdump
      cases hcoerce

theorem survives_value {type : ColumnType} {value : PyValue} (hholds : type.Holds value)
    (htrips : roundTrips type (some value) = true) : Survives lib type (some value) := by
  cases hholds with
  | boolean b => exact ⟨.bool b, rfl, rfl⟩
  | @integer n hlo hhi => exact ⟨.int n, dumpCell_int (by omega) (by omega), rfl⟩
  | @bigInteger n hlo hhi => exact ⟨.int n, dumpCell_int (by omega) (by omega), rfl⟩
  | float x =>
      cases x with
      | finite x => exact ⟨.float x, rfl, rfl⟩
      | infinity negative => cases htrips
      | nan => cases htrips
  | numericFloat x =>
      cases x with
      | finite x => exact ⟨.float x, rfl, rfl⟩
      | infinity negative => cases htrips
      | nan => cases htrips
  | floatDecimal d =>
      refine ⟨.str (String.ofList d.str), rfl, ?_⟩
      simp [coerce, coerceValue, coerceDecimal, PyDecimal.ofStr_str]
  | numeric d =>
      refine ⟨.str (String.ofList d.str), rfl, ?_⟩
      simp [coerce, coerceValue, coerceDecimal, PyDecimal.ofStr_str]
  | string s => exact ⟨.str s, rfl, rfl⟩
  | uuidString s => exact ⟨.str s, rfl, rfl⟩
  | uuid u =>
      refine ⟨.str u.str, rfl, ?_⟩
      simp [coerce, coerceValue, Uuid.ofStr_str]
  | dateTime d =>
      refine ⟨.str (String.ofList d.isoformat), rfl, ?_⟩
      simp [coerce, coerceValue, Datetime.fromisoformat_isoformat]
  | date d =>
      refine ⟨.str (String.ofList d.isoformat), rfl, ?_⟩
      simp [coerce, coerceValue, Date.fromisoformat_isoformat]
  | time t => cases htrips
  | @stringEnum className members s hmem =>
      exact ⟨.str s, rfl, if_pos hmem⟩
  | @integerEnum className members n hmem hlo hhi =>
      exact ⟨.int n, dumpCell_int (by omega) (by omega), if_pos hmem⟩

/-- A cell of a column comes back exactly when `roundTrips` says so. -/
theorem survives_iff {type : ColumnType} {cell : Option PyValue} (hholds : type.HoldsCell cell) :
    Survives lib type cell ↔ roundTrips type cell = true := by
  cases cell with
  | none => exact ⟨fun _ => by cases type <;> rfl, fun _ => survives_null type⟩
  | some value =>
      refine ⟨fun hsurvives => ?_, survives_value (hholds value rfl)⟩
      cases hholds value rfl with
      | float x =>
          cases hx : x.isFinite with
          | true => exact hx
          | false => exact absurd hsurvives (not_survives_float _ hx)
      | numericFloat x =>
          cases hx : x.isFinite with
          | true => exact hx
          | false => exact absurd hsurvives (not_survives_float _ hx)
      | time t => exact absurd hsurvives (not_survives_time t _)
      | _ => rfl

/-! ## A tuple of cells -/

/-- A position of a cursor: the type of its column and the cell of the row. -/
abbrev Position := ColumnType × Option PyValue

/-- The cursor of a row is written and read, and every position comes back as it was. -/
def CursorSurvives (lib : Primitives) (codec : CursorCodec) (sortFingerprint : String)
    (queryFingerprint : Option String) (positions : List Position) : Prop :=
  ∃ token state,
    codec.encodeState lib ⟨sortFingerprint, positions.map Prod.snd, queryFingerprint⟩ = .ok token ∧
    codec.decodeState lib token = .ok state ∧
    List.Forall₂ (fun position json => coerce lib position.1 json = .ok position.2) positions
      state.values

/-- `orjson` reads what it writes for the cursor of these cells, if it writes it. -/
def PayloadReadsBack (lib : Primitives) (sortFingerprint : String)
    (queryFingerprint : Option String) (positions : List Position) : Prop :=
  ∀ values, (positions.map Prod.snd).mapM dumpCell = .ok values →
    lib.ReadsBack (statePayload ⟨sortFingerprint, values, queryFingerprint⟩)

/-- A cursor comes back when each of its cells does. -/
theorem cursorSurvives_iff {codec : CursorCodec} {sortFingerprint : String}
    {queryFingerprint : Option String} {positions : List Position}
    (hjson : PayloadReadsBack lib sortFingerprint queryFingerprint positions) :
    CursorSurvives lib codec sortFingerprint queryFingerprint positions ↔
      ∀ position ∈ positions, Survives lib position.1 position.2 := by
  constructor
  · rintro ⟨token, state, hencode, hdecode, hcoerce⟩
    obtain ⟨dumped, hdumped, htoken⟩ := bind_eq_ok.mp hencode
    obtain ⟨values, hvalues, hstate⟩ := bind_eq_ok.mp hdumped
    obtain rfl := Except.ok.inj hstate
    obtain rfl := Except.ok.inj htoken
    rw [CursorCodec.decodeState_sign (hjson values hvalues)] at hdecode
    obtain rfl := Except.ok.inj hdecode
    have hdump := mapM_eq_ok.mp hvalues
    rw [List.forall₂_map_left_iff] at hdump
    intro position hmem
    obtain ⟨i, hi, rfl⟩ := List.getElem_of_mem hmem
    exact ⟨values.get ⟨i, hdump.length_eq ▸ hi⟩, hdump.get hi _, hcoerce.get hi _⟩
  · intro hall
    obtain ⟨values, hvalues⟩ : ∃ values, List.Forall₂ (fun position json =>
        dumpCell position.2 = .ok json ∧ coerce lib position.1 json = .ok position.2)
        positions values := by
      clear hjson
      induction positions with
      | nil => exact ⟨[], .nil⟩
      | cons position positions ih =>
          obtain ⟨json, hposition⟩ := hall position List.mem_cons_self
          obtain ⟨values, hvalues⟩ := ih fun p hp => hall p (List.mem_cons_of_mem _ hp)
          exact ⟨json :: values, .cons hposition hvalues⟩
    have hdump : (positions.map Prod.snd).mapM dumpCell = .ok values := by
      rw [mapM_eq_ok, List.forall₂_map_left_iff]
      exact hvalues.imp fun _ _ h => h.1
    refine ⟨codec.sign lib (statePayload ⟨sortFingerprint, values, queryFingerprint⟩),
      ⟨sortFingerprint, values, queryFingerprint⟩, ?_, CursorCodec.decodeState_sign (hjson _ hdump),
      hvalues.imp fun _ _ h => h.2⟩
    simp [CursorCodec.encodeState, CursorCodec.dumpState, hdump]

/-- A cursor comes back exactly when no cell is a value of a `Time` column or a float that is not
finite. -/
theorem cursor_values_survive_iff {codec : CursorCodec} {sortFingerprint : String}
    {queryFingerprint : Option String} {positions : List Position}
    (hholds : ∀ position ∈ positions, position.1.HoldsCell position.2)
    (hjson : PayloadReadsBack lib sortFingerprint queryFingerprint positions) :
    CursorSurvives lib codec sortFingerprint queryFingerprint positions ↔
      ∀ position ∈ positions, roundTrips position.1 position.2 = true := by
  rw [cursorSurvives_iff hjson]
  constructor
  · intro h position hmem
    exact (survives_iff (hholds position hmem)).mp (h position hmem)
  · intro h position hmem
    exact (survives_iff (hholds position hmem)).mpr (h position hmem)

/-! ## Cursors of one row -/

/-- The fingerprint in the cursors below. -/
def sampleFingerprint : String := "0123456789abcdef01234567"

/-- A Boolean, a decimal and a NULL date. -/
def mixedPositions : List Position :=
  [(.boolean, some (.bool true)), (.numeric true, some (.decimal (.finite false 150 (-2)))),
    (.date, none)]

/-- The library on the cursor of `mixedPositions`. -/
def mixedLibrary : Primitives :=
  let cursor : KnownText :=
    { value := statePayload ⟨sampleFingerprint, [.bool true, .str "1.50", .null], some "active"⟩
      text := "\x7b\"q\":\"active\",\"s\":\"0123456789abcdef01234567\",\"v\":2," ++
        "\"values\":[true,\"1.50\",null]\x7d"
      digest := 0x0e14de4d0aa018c1e9d18d51f291b22b460bc933670474b225dfbf869aaf4062 }
  .onTexts [cursor] fun _ => cursor

theorem cursor_values_survive_iff_mixed :
    CursorSurvives mixedLibrary sampleCodec sampleFingerprint (some "active") mixedPositions := by
  refine (cursor_values_survive_iff ?_ ?_).mpr (by decide)
  · simp only [mixedPositions, List.mem_cons, List.not_mem_nil, or_false]
    rintro position (rfl | rfl | rfl) value hvalue
    · obtain rfl := Option.some.inj hvalue
      exact .boolean true
    · obtain rfl := Option.some.inj hvalue
      exact .numeric _
    · cases hvalue
  · intro values hvalues
    obtain rfl := Except.ok.inj hvalues
    rfl

/-- A NaN in a `Float` column. -/
def nanPositions : List Position := [(.float false, some (.float .nan))]

/-- The library on the cursor of `nanPositions`. -/
def nanLibrary : Primitives :=
  let cursor : KnownText :=
    { value := statePayload ⟨sampleFingerprint, [.null], none⟩
      text := "\x7b\"q\":null,\"s\":\"0123456789abcdef01234567\",\"v\":2," ++
        "\"values\":[null]\x7d"
      digest := 0x8459c558c3537c8f9bb750258339fe0d574f49f5390217415007f88bc603f279 }
  .onTexts [cursor] fun _ => cursor

/-- Noon. -/
def noon : Time := ⟨⟨12, 0, 0, 0, by decide, by decide, by decide, by decide⟩, none⟩

/-- Noon in a `Time` column. -/
def noonPositions : List Position := [(.time false, some (.time noon))]

/-- The library on the cursor of `noonPositions`. -/
def noonLibrary : Primitives :=
  let cursor : KnownText :=
    { value := statePayload ⟨sampleFingerprint, [.str "12:00:00"], none⟩
      text := "\x7b\"q\":null,\"s\":\"0123456789abcdef01234567\",\"v\":2," ++
        "\"values\":[\"12:00:00\"]\x7d"
      digest := 0x4acfb2e8ca3b5cc98bd241e0d3da0eb685d6c1c0b7c89ec8e4eac0fb3e49ccad }
  .onTexts [cursor] fun _ => cursor

/-- The NaN comes back as NULL, and the time does not come back at all. -/
theorem nan_and_time_do_not_survive :
    ((∀ position ∈ nanPositions, position.1.HoldsCell position.2) ∧
      PayloadReadsBack nanLibrary sampleFingerprint none nanPositions ∧
      ¬CursorSurvives nanLibrary sampleCodec sampleFingerprint none nanPositions) ∧
    (∀ position ∈ noonPositions, position.1.HoldsCell position.2) ∧
      PayloadReadsBack noonLibrary sampleFingerprint none noonPositions ∧
      ¬CursorSurvives noonLibrary sampleCodec sampleFingerprint none noonPositions := by
  have hnan : PayloadReadsBack nanLibrary sampleFingerprint none nanPositions := by
    intro values hvalues
    obtain rfl := Except.ok.inj hvalues
    rfl
  have hnoon : PayloadReadsBack noonLibrary sampleFingerprint none noonPositions := by
    intro values hvalues
    obtain rfl := Except.ok.inj hvalues
    rfl
  refine ⟨⟨?_, hnan, ?_⟩, ?_, hnoon, ?_⟩
  · simp only [nanPositions, List.mem_singleton]
    rintro position rfl value hvalue
    obtain rfl := Option.some.inj hvalue
    exact .float _
  · rw [cursorSurvives_iff hnan]
    intro h
    exact not_survives_float _ rfl (h _ (List.mem_singleton_self _))
  · simp only [noonPositions, List.mem_singleton]
    rintro position rfl value hvalue
    obtain rfl := Option.some.inj hvalue
    exact ColumnType.Holds.time noon
  · rw [cursorSurvives_iff hnoon]
    intro h
    exact not_survives_time _ _ (h _ (List.mem_singleton_self _))

end ProdkitStorage.Database

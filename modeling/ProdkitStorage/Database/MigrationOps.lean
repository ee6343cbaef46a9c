import ProdkitStorage.Python.Error
import ProdkitStorage.Python.Text

/-!
# Staged schema changes

`database/migration_ops.py`: the statements about one CHECK constraint, as PostgreSQL
receives them, and what they do to a table.

The name of a constraint goes two ways.  In a statement that SQLAlchemy compiles, a name
of more than 63 characters is cut to 55 and a digest is put behind it; the statement of
`validate_constraint` is put together by hand and goes through `text()` with the whole
name in it.  PostgreSQL cuts both to 63 bytes.  `KeepsName` says when the first way keeps
a name, and `PassesText` when the second one does.
-/

namespace ProdkitStorage.Database

open ProdkitStorage.Python

/-! ## Names in statements -/

/-- What SQLAlchemy does with names. -/
structure Renderer where
  /-- `preparer.quote`. -/
  quote : String → String
  /-- The last four hexadecimal digits of the MD5 digest of a name. -/
  digits : String → String
  digits_length : ∀ name, (digits name).length = 4
  digits_hex : ∀ name, ∀ c ∈ (digits name).toList, c ∈ "0123456789abcdef".toList
  /-- `\w` of a regular expression. -/
  isWord : Char → Bool
  /-- The parameters of the driver start with a percent sign, as those of psycopg do. -/
  doublesPercents : Bool

namespace Renderer

variable (renderer : Renderer)

/-- `operations.f(name)` in a statement that is compiled. -/
def constraintName (name : String) : String :=
  if 63 < name.length then takeStr 55 name ++ ("_" ++ renderer.digits name) else name

/-- A character of the name of a parameter, `[\w$]`. -/
def isParameter (c : Char) : Bool := renderer.isWord c || c == '$'

/-- A colon with these characters around it starts a bind parameter. -/
def opensParameter (before : Char) (rest : List Char) : Bool :=
  !(before == ':' || before == '\\' || renderer.isParameter before) &&
    rest.head?.any renderer.isParameter && (rest.dropWhile renderer.isParameter).head? != some ':'

/-- `text()` reads a bind parameter in what follows a character. -/
def bindsParameter : Char → List Char → Bool
  | _, [] => false
  | before, c :: rest => (c == ':' && renderer.opensParameter before rest) || bindsParameter c rest

/-- A backslash in front of these characters escapes a colon, and is dropped. -/
def escapesColon : List Char → Bool
  | ':' :: rest => (rest.dropWhile renderer.isParameter).head? != some ':'
  | _ => false

/-- The characters of a name as the server reads them.  A percent sign is doubled by the preparer,
once more by `text()`, and halved once by the driver; the quotation marks that the preparer
doubles are read as one. -/
def reread : List Char → List Char
  | [] => []
  | c :: rest =>
      if c = '%' ∧ renderer.doublesPercents then '%' :: '%' :: reread rest
      else if c = '\\' ∧ renderer.escapesColon rest then reread rest
      else c :: reread rest

/-- The name the server reads where the quoted name stands in a `text()` without values. -/
def inText (name : String) : Except PyError String :=
  if renderer.bindsParameter '"' name.toList then
    .error (.statementError "a value is required for a bind parameter")
  else .ok (String.ofList (renderer.reread name.toList))

end Renderer

/-! ## Statements -/

/-- A statement, with the names PostgreSQL is given. -/
inductive DdlStatement where
  /-- `ALTER TABLE … ADD CONSTRAINT … CHECK (column IS NOT NULL) NOT VALID`. -/
  | addCheck (schema : Option String) (table name column : String)
  | validateConstraint (schema : Option String) (table name : String)
  | setNotNull (schema : Option String) (table column : String)
  | dropConstraint (schema : Option String) (table name : String)
deriving DecidableEq

/-- The condition of `enforce_not_null`. -/
structure NotNullCondition where
  column : String

/-- The text of the condition. -/
def NotNullCondition.text (renderer : Renderer) (condition : NotNullCondition) : String :=
  renderer.quote condition.column ++ " IS NOT NULL"

/-- `add_check_constraint_not_valid`. -/
def addCheckConstraintNotValid (renderer : Renderer) (name table : String)
    (condition : NotNullCondition) (schema : Option String := none) :
    Except PyError (List DdlStatement) :=
  if strip (condition.text renderer) = "" then
    .error (.valueError "check constraint condition must not be empty")
  else do
    let column ← renderer.inText condition.column
    return [.addCheck schema table (renderer.constraintName name) column]

/-- `validate_constraint`. -/
def validateConstraint (renderer : Renderer) (table name : String)
    (schema : Option String := none) : Except PyError (List DdlStatement) := do
  let schema ← schema.mapM renderer.inText
  let table ← renderer.inText table
  let name ← renderer.inText name
  return [.validateConstraint schema table name]

/-- The name of the temporary constraint. -/
def temporaryCheck (table column : String) (checkName : Option String) : String :=
  match checkName with
  | some name => if name = "" then "ck_" ++ table ++ "_" ++ column ++ "_not_null" else name
  | none => "ck_" ++ table ++ "_" ++ column ++ "_not_null"

/-- `enforce_not_null`: the statements it executes. -/
def enforceNotNull (renderer : Renderer) (table column : String) (schema : Option String := none)
    (checkName : Option String := none) : Except PyError (List DdlStatement) := do
  let name := temporaryCheck table column checkName
  let added ← addCheckConstraintNotValid renderer name table ⟨column⟩ schema
  let validated ← validateConstraint renderer table name schema
  return added ++ validated ++
    [.setNotNull schema table column,
      .dropConstraint schema table (renderer.constraintName name)]

/-! ## The server -/

/-- The identifier PostgreSQL makes of a name. -/
def identifierOf (name : String) : List UInt8 := (encodeUtf8 name).take 63

/-- A table, by its schema and its name. -/
abbrev Relation := Option (List UInt8) × List UInt8

/-- The table of two names. -/
def relationOf (schema : Option String) (table : String) : Relation :=
  (schema.map identifierOf, identifierOf table)

/-- The table a statement alters. -/
def DdlStatement.relation : DdlStatement → Relation
  | .addCheck schema table _ _ => relationOf schema table
  | .validateConstraint schema table _ => relationOf schema table
  | .setNotNull schema table _ => relationOf schema table
  | .dropConstraint schema table _ => relationOf schema table

/-- The constraint a statement is about. -/
def DdlStatement.constraint : DdlStatement → Option (Relation × List UInt8)
  | .addCheck schema table name _ => some (relationOf schema table, identifierOf name)
  | .validateConstraint schema table name => some (relationOf schema table, identifierOf name)
  | .setNotNull _ _ _ => none
  | .dropConstraint schema table name => some (relationOf schema table, identifierOf name)

/-- A constraint of the table. -/
structure Constraint where
  name : List UInt8
  /-- Some row does not meet it. -/
  violated : Bool
  validated : Bool
deriving DecidableEq

/-- A column of the table. -/
structure TableColumn where
  hasNull : Bool
  notNull : Bool
deriving DecidableEq

/-- The table. -/
structure Table where
  relation : Relation
  columns : List UInt8 → Option TableColumn
  constraints : List Constraint

/-- What a statement does to its table. -/
def DdlStatement.alter (table : Table) : DdlStatement → Except PyError Table
  | .addCheck _ _ name column =>
      match table.columns (identifierOf column) with
      | none => .error (.databaseError "column does not exist")
      | some held =>
          if table.constraints.any (·.name = identifierOf name) then
            .error (.databaseError "constraint already exists")
          else .ok { table with
            constraints := table.constraints ++ [⟨identifierOf name, held.hasNull, false⟩] }
  | .validateConstraint _ _ name =>
      match table.constraints.find? (·.name = identifierOf name) with
      | none => .error (.databaseError "constraint does not exist")
      | some constraint =>
          if constraint.violated then .error (.databaseError "constraint is violated by some row")
          else .ok { table with
            constraints := table.constraints.map fun other =>
              if other.name = identifierOf name then { other with validated := true } else other }
  | .setNotNull _ _ column =>
      match table.columns (identifierOf column) with
      | none => .error (.databaseError "column does not exist")
      | some held =>
          if held.hasNull then .error (.databaseError "column contains null values")
          else .ok { table with
            columns := Function.update table.columns (identifierOf column)
              (some { held with notNull := true }) }
  | .dropConstraint _ _ name =>
      if table.constraints.any (·.name = identifierOf name) then
        .ok { table with
          constraints := table.constraints.filter fun other => other.name ≠ identifierOf name }
      else .error (.databaseError "constraint does not exist")

/-- What a statement does to the table; there is no other. -/
def DdlStatement.run (table : Table) (statement : DdlStatement) : Except PyError Table :=
  if statement.relation = table.relation then statement.alter table
  else .error (.databaseError "relation does not exist")

theorem DdlStatement.run_of_relation {table : Table} {statement : DdlStatement}
    (h : statement.relation = table.relation) : statement.run table = statement.alter table :=
  if_pos h

/-- Statements one after the other. -/
def runAll (table : Table) : List DdlStatement → Except PyError Table
  | [] => .ok table
  | statement :: statements => do runAll (← statement.run table) statements

/-! ## Names -/

/-- What is left of a name when SQLAlchemy cuts it. -/
def kept (name : String) : List UInt8 := encodeUtf8 (takeStr 55 name)

/-- Cut by SQLAlchemy or not, the name makes one identifier: it is short enough, or the
first 55 characters take all the bytes, or what the digest has in the bytes that are left the
name has there too. -/
def KeepsName (renderer : Renderer) (name : String) : Prop :=
  name.length ≤ 63 ∨ 63 ≤ (kept name).length ∨
    (58 ≤ (kept name).length ∧
      (encodeUtf8 (String.ofList (name.toList.drop 55))).take (63 - (kept name).length) =
        (encodeUtf8 ("_" ++ renderer.digits name)).take (63 - (kept name).length))

theorem encodeUtf8_append (s t : String) : encodeUtf8 (s ++ t) = encodeUtf8 s ++ encodeUtf8 t := by
  rw [encodeUtf8, String.toList_append, List.flatMap_append]
  rfl

/-- A character takes a byte at least. -/
theorem length_le_encodeUtf8 (cs : List Char) :
    cs.length ≤ (encodeUtf8 (String.ofList cs)).length := by
  rw [encodeUtf8, String.toList_ofList]
  induction cs with
  | nil => exact Nat.le_refl 0
  | cons c cs ih =>
      have hpos := Char.utf8Size_pos c
      rw [List.flatMap_cons, List.length_append, String.length_utf8EncodeChar, List.length_cons]
      omega

theorem length_encodeUtf8_ascii {s : String} (h : ∀ c ∈ s.toList, c.utf8Size = 1) :
    (encodeUtf8 s).length = s.length := by
  rw [encodeUtf8, List.length_flatMap, ← String.length_toList]
  have hones : s.toList.map (fun c => (String.utf8EncodeChar c).length) = s.toList.map fun _ => 1 :=
    List.map_congr_left fun c hc => (String.length_utf8EncodeChar c).trans (h c hc)
  rw [hones]
  simp

/-- The digest has characters of one byte only. -/
theorem Renderer.digits_ascii (renderer : Renderer) (name : String) :
    ∀ c ∈ (renderer.digits name).toList, c.utf8Size = 1 := by
  intro c hc
  have hall : ∀ d ∈ "0123456789abcdef".toList, d.utf8Size = 1 := forall_mem_of_all (by decide)
  exact hall c (renderer.digits_hex name c hc)

theorem length_digest (renderer : Renderer) (name : String) :
    (encodeUtf8 ("_" ++ renderer.digits name)).length = 5 := by
  have hdigits := renderer.digits_length name
  rw [encodeUtf8_append, List.length_append, length_encodeUtf8_ascii (renderer.digits_ascii name),
    hdigits]
  rfl

/-- A name that is cut and the name make one identifier exactly when it is kept. -/
theorem identifierOf_constraintName_iff (renderer : Renderer) (name : String) :
    identifierOf (renderer.constraintName name) = identifierOf name ↔ KeepsName renderer name := by
  unfold Renderer.constraintName KeepsName
  split
  · next hlong =>
      have hname : encodeUtf8 name =
          kept name ++ encodeUtf8 (String.ofList (name.toList.drop 55)) := by
        rw [kept, ← encodeUtf8_append, takeStr, ← String.ofList_append, List.take_append_drop,
          String.ofList_toList]
      have hdigest := length_digest renderer name
      have hrest : 9 ≤ (encodeUtf8 (String.ofList (name.toList.drop 55))).length := by
        have hlength := length_le_encodeUtf8 (name.toList.drop 55)
        rw [List.length_drop, String.length_toList] at hlength
        omega
      rw [identifierOf, identifierOf, encodeUtf8_append, ← kept, hname, List.take_append,
        List.take_append, List.append_cancel_left_eq, eq_comm]
      constructor
      · intro heq
        rcases Nat.lt_or_ge (kept name).length 58 with hshort | hfits
        · -- the digest is whole, and the name has more bytes there
          have hlengths := congrArg List.length heq
          rw [List.length_take, List.length_take, hdigest] at hlengths
          omega
        · exact .inr (.inr ⟨hfits, heq⟩)
      · rintro (hle | hfull | ⟨-, heq⟩)
        · omega
        · rw [Nat.sub_eq_zero_of_le hfull, List.take_zero, List.take_zero]
        · exact heq
  · next hshort => simp [Nat.le_of_not_lt hshort]

/-- A name of characters of one byte is kept when it is short enough, and not otherwise. -/
theorem keepsName_ascii {renderer : Renderer} {name : String}
    (h : ∀ c ∈ name.toList, c.utf8Size = 1) : KeepsName renderer name ↔ name.length ≤ 63 := by
  have hkept : (kept name).length ≤ 55 := by
    rw [kept, length_encodeUtf8_ascii, takeStr, String.length_ofList]
    · exact List.length_take_le _ _
    · intro c hc
      rw [takeStr, String.toList_ofList] at hc
      exact h c (List.mem_of_mem_take hc)
  constructor
  · rintro (hshort | hfull | ⟨hfits, -⟩)
    · exact hshort
    · omega
    · omega
  · exact fun hshort => .inl hshort

/-! ## Names in a text -/

/-- The name the server reads in a text makes the identifier of the name. -/
def PassesText (renderer : Renderer) (name : String) : Prop :=
  ∃ read, renderer.inText name = .ok read ∧ identifierOf read = identifierOf name

theorem inText_eq_ok {renderer : Renderer} {name read : String} :
    renderer.inText name = .ok read ↔ renderer.bindsParameter '"' name.toList = false ∧
      String.ofList (renderer.reread name.toList) = read := by
  unfold Renderer.inText
  split
  · next hbinds => simp [hbinds]
  · next hbinds => simp [hbinds]

/-- The bytes of characters. -/
def bytesOf (cs : List Char) : List UInt8 := cs.flatMap String.utf8EncodeChar

@[simp] theorem bytesOf_nil : bytesOf [] = [] := rfl

@[simp] theorem bytesOf_cons (c : Char) (cs : List Char) :
    bytesOf (c :: cs) = String.utf8EncodeChar c ++ bytesOf cs := rfl

theorem encodeUtf8_ofList (cs : List Char) : encodeUtf8 (String.ofList cs) = bytesOf cs := by
  rw [encodeUtf8, String.toList_ofList]
  rfl

/-- A name without a percent sign and a colon is read as it is. -/
theorem passesText_of_plain {renderer : Renderer} {name : String}
    (h : ∀ c ∈ name.toList, c ≠ '%' ∧ c ≠ ':') : PassesText renderer name := by
  have hreads : ∀ (cs : List Char) (before : Char), (∀ c ∈ cs, c ≠ '%' ∧ c ≠ ':') →
      renderer.bindsParameter before cs = false ∧ renderer.reread cs = cs := by
    intro cs
    induction cs with
    | nil => exact fun _ _ => ⟨rfl, rfl⟩
    | cons c cs ih =>
        intro before hcs
        obtain ⟨⟨hpercent, hcolon⟩, hrest⟩ := List.forall_mem_cons.mp hcs
        obtain ⟨hbinds, hreread⟩ := ih c hrest
        have hescapes : renderer.escapesColon cs = false := by
          cases cs with
          | nil => rfl
          | cons d cs =>
              rw [Renderer.escapesColon]
              intro rest heq
              exact (hrest d List.mem_cons_self).2 (List.cons.inj heq).1
        simp [Renderer.bindsParameter, Renderer.reread, hpercent, hcolon, hbinds, hreread, hescapes]
  obtain ⟨hbinds, hreread⟩ := hreads name.toList '"' h
  exact ⟨name, inText_eq_ok.mpr ⟨hbinds, by rw [hreread, String.ofList_toList]⟩, rfl⟩

/-! ## A cut name and a text -/

/-- How a character is read: as it is, as two percent signs, or not at all in front of a colon. -/
theorem reread_cons (renderer : Renderer) (c : Char) (rest : List Char) :
    renderer.reread (c :: rest) = c :: renderer.reread rest ∨
      (c = '%' ∧ renderer.reread (c :: rest) = '%' :: '%' :: renderer.reread rest) ∨
      (c = '\\' ∧ ∃ tail, rest = ':' :: tail ∧
        renderer.reread (c :: rest) = ':' :: renderer.reread tail) := by
  rw [Renderer.reread]
  split
  · next hpercent => exact .inr (.inl ⟨hpercent.1, rfl⟩)
  · split
    · next hbackslash =>
        obtain ⟨hc, hescapes⟩ := hbackslash
        unfold Renderer.escapesColon at hescapes
        split at hescapes
        · next tail => exact .inr (.inr ⟨hc, tail, rfl, by simp [Renderer.reread]⟩)
        · cases hescapes
    · exact .inl rfl

theorem take_append_congr {x y z : List UInt8} {count : Nat}
    (h : y.take (count - x.length) = z.take (count - x.length)) :
    (x ++ y).take count = (x ++ z).take count := by
  rw [List.take_append, List.take_append, h]

theorem take_append_cancel {x y z : List UInt8} {count : Nat}
    (h : (x ++ y).take count = (x ++ z).take count) :
    y.take (count - x.length) = z.take (count - x.length) := by
  rw [List.take_append, List.take_append] at h
  exact List.append_cancel_left h

/-- Bytes that start alike have their first byte in common, if one is taken at all. -/
theorem head_eq_of_take {a b : UInt8} {x y : List UInt8} {count : Nat} (hcount : count ≠ 0)
    (h : (a :: x).take count = (b :: y).take count) : a = b := by
  obtain ⟨count, rfl⟩ := Nat.exists_eq_succ_of_ne_zero hcount
  exact (List.cons.inj h).1

/-- A percent sign is a byte of its own. -/
theorem eq_percent_of_head {c : Char} {bytes : List UInt8}
    (h : String.utf8EncodeChar c = 0x25 :: bytes) : c = '%' := by
  unfold String.utf8EncodeChar at h
  dsimp only at h
  split at h
  · have hbyte := congrArg UInt8.toNat (List.cons.inj h).1
    rw [UInt8.toNat_ofNat'] at hbyte
    have hval : c.val.toNat = 0x25 := by
      have : (0x25 : UInt8).toNat = 0x25 := rfl
      omega
    exact Char.ext (UInt32.toNat_inj.mp hval)
  · split at h
    · have hbyte := congrArg UInt8.toNat (List.cons.inj h).1
      rw [UInt8.toNat_ofNat'] at hbyte
      have : (0x25 : UInt8).toNat = 0x25 := rfl
      omega
    · split at h
      · have hbyte := congrArg UInt8.toNat (List.cons.inj h).1
        rw [UInt8.toNat_ofNat'] at hbyte
        have : (0x25 : UInt8).toNat = 0x25 := rfl
        omega
      · have hbyte := congrArg UInt8.toNat (List.cons.inj h).1
        rw [UInt8.toNat_ofNat'] at hbyte
        have : (0x25 : UInt8).toNat = 0x25 := rfl
        omega

/-- What a text changes shows in the bytes it is taken for: behind the digest. -/
theorem take_bytesOf_reread {renderer : Renderer} {digest : List UInt8}
    (hdigest : ∀ x ∈ digest, x ≠ 0x25 ∧ x ≠ 0x3a) {cs : List Char} {count : Nat}
    (h : (bytesOf (renderer.reread cs)).take count = digest.take count) :
    (bytesOf (renderer.reread cs)).take count = (bytesOf cs).take count := by
  induction cs generalizing digest count with
  | nil => rfl
  | cons c cs ih =>
      rcases Nat.eq_zero_or_pos count with rfl | hpos
      · simp
      -- A byte that the text puts there is none of the digest.
      have hfirst : ∀ (b : UInt8) (bytes : List UInt8), (b = 0x25 ∨ b = 0x3a) →
          bytesOf (renderer.reread (c :: cs)) ≠ b :: bytes := by
        intro b bytes hb heq
        rw [heq] at h
        cases digest with
        | nil =>
            obtain ⟨count, rfl⟩ := Nat.exists_eq_succ_of_ne_zero hpos.ne'
            cases h
        | cons d digest =>
            obtain rfl := head_eq_of_take hpos.ne' h
            have hd := hdigest b List.mem_cons_self
            rcases hb with rfl | rfl
            · exact hd.1 rfl
            · exact hd.2 rfl
      rcases reread_cons renderer c cs with heq | ⟨-, heq⟩ | ⟨-, tail, -, heq⟩
      · rw [heq, bytesOf_cons] at h ⊢
        rw [bytesOf_cons]
        refine take_append_congr ?_
        rcases Nat.le_total count (String.utf8EncodeChar c).length with hle | hle
        · rw [Nat.sub_eq_zero_of_le hle, List.take_zero, List.take_zero]
        · -- the digest has the bytes of the character too
          have hprefix : String.utf8EncodeChar c =
              digest.take (String.utf8EncodeChar c).length := by
            have hshort := congrArg (List.take (String.utf8EncodeChar c).length) h
            rwa [List.take_take, List.take_take, Nat.min_eq_left hle, List.take_left] at hshort
          rw [← List.take_append_drop (String.utf8EncodeChar c).length digest, ← hprefix] at h
          exact ih (fun x hx => hdigest x (List.mem_of_mem_drop hx)) (take_append_cancel h)
      · exact absurd (congrArg bytesOf heq) (hfirst 0x25 _ (.inl rfl))
      · exact absurd (congrArg bytesOf heq) (hfirst 0x3a _ (.inr rfl))

theorem replicate_append_cons (count : Nat) (b : UInt8) (bytes : List UInt8) :
    List.replicate count b ++ b :: bytes = b :: (List.replicate count b ++ bytes) := by
  rw [List.append_cons, ← List.replicate_succ', List.replicate_succ, List.cons_append]

/-- Behind more percent signs than the name has, nothing is what the cut name has there. -/
theorem take_percents_reread {renderer : Renderer} {digest : List UInt8}
    (hdigest : ∀ x ∈ digest, x ≠ 0x25 ∧ x ≠ 0x3a) {cs later : List Char} {count more : Nat}
    (h : (List.replicate (more + 1) 0x25 ++ bytesOf (renderer.reread (cs ++ later))).take count =
      (bytesOf cs ++ digest).take count) :
    (List.replicate (more + 1) 0x25 ++ bytesOf (renderer.reread (cs ++ later))).take count =
      (bytesOf (cs ++ later)).take count := by
  induction cs generalizing count more with
  | nil =>
      rcases Nat.eq_zero_or_pos count with rfl | hpos
      · simp
      cases digest with
      | nil =>
          obtain ⟨count, rfl⟩ := Nat.exists_eq_succ_of_ne_zero hpos.ne'
          cases h
      | cons d digest =>
          obtain rfl := head_eq_of_take hpos.ne' h
          exact absurd rfl (hdigest _ List.mem_cons_self).1
  | cons c cs ih =>
      rcases Nat.eq_zero_or_pos count with rfl | hpos
      · simp
      obtain ⟨count, rfl⟩ := Nat.exists_eq_succ_of_ne_zero hpos.ne'
      obtain ⟨first, bytes, hbytes⟩ :=
        List.exists_cons_of_ne_nil (String.utf8EncodeChar_ne_nil (c := c))
      -- The name has a percent sign there, and the text one or two for it.
      obtain rfl : c = '%' := by
        rw [bytesOf_cons, hbytes] at h
        obtain rfl := head_eq_of_take (Nat.succ_ne_zero count) h
        exact eq_percent_of_head hbytes
      obtain ⟨others, hothers⟩ : ∃ others, List.replicate (more + 1) 0x25 ++
          bytesOf (renderer.reread ('%' :: cs ++ later)) = 0x25 ::
            (List.replicate (others + 1) 0x25 ++ bytesOf (renderer.reread (cs ++ later))) := by
        rcases reread_cons renderer '%' (cs ++ later) with heq | ⟨-, heq⟩ | ⟨hfalse, -⟩
        · refine ⟨more, ?_⟩
          rw [List.cons_append, heq]
          exact replicate_append_cons _ _ _
        · refine ⟨more + 1, ?_⟩
          rw [List.cons_append, heq, List.replicate_succ (n := more + 1), List.cons_append,
            ← replicate_append_cons, ← replicate_append_cons]
          rfl
        · cases hfalse
      rw [hothers] at h ⊢
      have hrest := ih (List.cons.inj h).2
      exact congrArg (0x25 :: ·) hrest

/-- What a text changes shows: where the name it reads agrees with the characters of the name and a
digest behind them, it agrees with the name. -/
theorem take_reread_of_cut {renderer : Renderer} {digest : List UInt8}
    (hdigest : ∀ x ∈ digest, x ≠ 0x25 ∧ x ≠ 0x3a) {cs later : List Char} {count : Nat}
    (h : (bytesOf (renderer.reread (cs ++ later))).take count =
      (bytesOf cs ++ digest).take count) :
    (bytesOf (renderer.reread (cs ++ later))).take count = (bytesOf (cs ++ later)).take count := by
  induction cs generalizing count with
  | nil => exact take_bytesOf_reread hdigest h
  | cons c cs ih =>
      rcases Nat.eq_zero_or_pos count with rfl | hpos
      · simp
      obtain ⟨count, rfl⟩ := Nat.exists_eq_succ_of_ne_zero hpos.ne'
      rw [List.cons_append] at h ⊢
      rcases reread_cons renderer c (cs ++ later) with heq | ⟨rfl, heq⟩ | ⟨rfl, tail, -, heq⟩
      · rw [heq, bytesOf_cons] at h ⊢
        rw [bytesOf_cons, List.append_assoc] at h
        rw [bytesOf_cons]
        exact take_append_congr (ih (take_append_cancel h))
      · rw [heq] at h ⊢
        have hmore := @take_percents_reread renderer digest hdigest cs later count 0
          (List.cons.inj h).2
        exact congrArg (0x25 :: ·) hmore
      · rw [heq] at h
        exact absurd (head_eq_of_take (Nat.succ_ne_zero count) h) (by decide)

theorem digest_apart (renderer : Renderer) (name : String) :
    ∀ x ∈ encodeUtf8 ("_" ++ renderer.digits name), x ≠ 0x25 ∧ x ≠ 0x3a := by
  have hall : ∀ d ∈ "_0123456789abcdef".toList, ∀ x ∈ String.utf8EncodeChar d,
      x ≠ 0x25 ∧ x ≠ 0x3a := forall_mem_of_all (by decide +kernel)
  intro x hx
  obtain ⟨c, hc, hx⟩ := List.mem_flatMap.mp hx
  rw [String.toList_append] at hc
  rcases List.mem_append.mp hc with hc | hc
  · exact hall c (List.mem_append_left _ hc) x hx
  · exact hall c (List.mem_cons_of_mem _ (renderer.digits_hex name c hc)) x hx

/-- The name of a text agrees with the name that is cut exactly when both agree with the name. -/
theorem identifierOf_read_iff {renderer : Renderer} {name read : String}
    (hread : renderer.inText name = .ok read) :
    identifierOf read = identifierOf (renderer.constraintName name) ↔
      identifierOf read = identifierOf name ∧ KeepsName renderer name := by
  rw [← identifierOf_constraintName_iff]
  constructor
  · intro heq
    have hsame : identifierOf read = identifierOf name := by
      obtain ⟨-, rfl⟩ := inText_eq_ok.mp hread
      unfold Renderer.constraintName at heq
      split at heq
      · have hcut := @take_reread_of_cut renderer _ (digest_apart renderer name)
          (name.toList.take 55) (name.toList.drop 55) 63
        rw [List.take_append_drop] at hcut
        rw [identifierOf, identifierOf, encodeUtf8_append, takeStr, encodeUtf8_ofList,
          encodeUtf8_ofList] at heq
        rw [identifierOf, identifierOf, encodeUtf8_ofList]
        exact hcut heq
      · exact heq
    exact ⟨hsame, heq.symm.trans hsame⟩
  · rintro ⟨hsame, hkept⟩
    exact hsame.trans hkept.symm

/-! ## The statements on a table -/

/-- The statements that name the constraint name one. -/
def NameOne (statements : List DdlStatement) : Prop :=
  ∀ s ∈ statements, ∀ s' ∈ statements, ∀ constraint constraint', s.constraint = some constraint →
    s'.constraint = some constraint' → constraint = constraint'

/-- The table of the call, with the column and no NULL in it. -/
structure HoldsNoNull (schema : Option String) (table column : String) (before : Table) : Prop where
  relation : before.relation = relationOf schema table
  noNull : ∃ held, before.columns (identifierOf column) = some held ∧ held.hasNull = false

/-- The helper names one constraint throughout, succeeds, and leaves the column NOT NULL and no
constraint more or less. -/
def Enforces (renderer : Renderer) (table column : String) (schema checkName : Option String)
    (before : Table) : Prop :=
  ∃ statements, enforceNotNull renderer table column schema checkName = .ok statements ∧
    NameOne statements ∧ ∃ after, runAll before statements = .ok after ∧
      (after.columns (identifierOf column)).any (·.notNull) = true ∧
        after.constraints = before.constraints

theorem strip_ne_empty {s : String} {c : Char} (hc : c ∈ s.toList) (hspace : isSpace c = false) :
    strip s ≠ "" := by
  intro hempty
  have hchars : stripChars s.toList = [] := String.ofList_inj.mp hempty
  have hdrop : ∀ cs : List Char, c ∈ cs → c ∈ cs.dropWhile isSpace := by
    intro cs hmem
    induction cs with
    | nil => cases hmem
    | cons d cs ih =>
        rw [List.dropWhile_cons]
        split
        · next hd =>
            rcases List.mem_cons.mp hmem with rfl | hmem
            · rw [hspace] at hd
              cases hd
            · exact ih hmem
        · exact hmem
  have hmem : c ∈ stripChars s.toList :=
    List.mem_reverse.mpr (hdrop _ (List.mem_reverse.mpr (hdrop _ hc)))
  rw [hchars] at hmem
  cases hmem

theorem passesText_iff {renderer : Renderer} {name read : String}
    (hread : renderer.inText name = .ok read) :
    PassesText renderer name ↔ identifierOf read = identifierOf name := by
  constructor
  · rintro ⟨read', hread', hsame⟩
    obtain rfl := Except.ok.inj (hread.symm.trans hread')
    exact hsame
  · exact fun hsame => ⟨read, hread, hsame⟩

/-- The table that the text names is the one of the call exactly when both names pass. -/
theorem relationOf_read_iff {renderer : Renderer} {schema schema' : Option String}
    {table table' : String} (hschema : schema.mapM renderer.inText = .ok schema')
    (htable : renderer.inText table = .ok table') :
    relationOf schema' table' = relationOf schema table ↔
      (∀ name, schema = some name → PassesText renderer name) ∧ PassesText renderer table := by
  rw [relationOf, relationOf, Prod.mk.injEq, passesText_iff htable]
  refine and_congr_left fun _ => ?_
  cases schema with
  | none =>
      obtain rfl := Except.ok.inj hschema
      exact ⟨fun _ _ => nofun, fun _ => rfl⟩
  | some name =>
      obtain ⟨name', hname, hschema⟩ := bind_eq_ok.mp hschema
      obtain rfl := Except.ok.inj hschema
      rw [Option.map_some, Option.map_some, Option.some_inj, ← passesText_iff hname]
      exact ⟨fun h other hother => Option.some.inj hother ▸ h, fun h => h name rfl⟩

/-- The statements of the helper. -/
theorem enforceNotNull_eq_ok {renderer : Renderer} {table column : String}
    {schema checkName : Option String} {statements : List DdlStatement} :
    enforceNotNull renderer table column schema checkName = .ok statements ↔
      ∃ column' schema' table' name', renderer.inText column = .ok column' ∧
        schema.mapM renderer.inText = .ok schema' ∧ renderer.inText table = .ok table' ∧
        renderer.inText (temporaryCheck table column checkName) = .ok name' ∧
        statements =
          [.addCheck schema table
              (renderer.constraintName (temporaryCheck table column checkName)) column',
            .validateConstraint schema' table' name', .setNotNull schema table column,
            .dropConstraint schema table
              (renderer.constraintName (temporaryCheck table column checkName))] := by
  have hcondition : strip (NotNullCondition.text renderer ⟨column⟩) ≠ "" := by
    refine strip_ne_empty (c := 'N') ?_ (by decide)
    rw [NotNullCondition.text, String.toList_append]
    exact List.mem_append_right _ (by decide)
  rw [enforceNotNull, addCheckConstraintNotValid, if_neg hcondition]
  simp only [bind_eq_ok, validateConstraint]
  constructor
  · rintro ⟨_, ⟨column', hcolumn, hadded⟩, _, ⟨schema', hschema, table', htable, name', hname,
      hvalidated⟩, hstatements⟩
    obtain rfl := Except.ok.inj hadded
    obtain rfl := Except.ok.inj hvalidated
    obtain rfl := Except.ok.inj hstatements
    exact ⟨column', schema', table', name', hcolumn, hschema, htable, hname, rfl⟩
  · rintro ⟨column', schema', table', name', hcolumn, hschema, htable, hname, rfl⟩
    exact ⟨_, ⟨column', hcolumn, rfl⟩, _, ⟨schema', hschema, table', htable, name', hname, rfl⟩,
      rfl⟩

/-- The statements name one constraint exactly when the text names the table and the name. -/
theorem nameOne_iff {schema schema' : Option String}
    {table table' column column' name name' : String} :
    NameOne [.addCheck schema table name column', .validateConstraint schema' table' name',
      .setNotNull schema table column, .dropConstraint schema table name] ↔
        relationOf schema' table' = relationOf schema table ∧
          identifierOf name' = identifierOf name := by
  constructor
  · intro hone
    exact Prod.mk.inj (hone _ (List.mem_cons_of_mem _ List.mem_cons_self) _ List.mem_cons_self _ _
      rfl rfl)
  · rintro ⟨hrelation, hname⟩
    have hall : ∀ s ∈ [DdlStatement.addCheck schema table name column',
        .validateConstraint schema' table' name', .setNotNull schema table column,
        .dropConstraint schema table name], ∀ constraint, s.constraint = some constraint →
          constraint = (relationOf schema table, identifierOf name) := by
      intro s hs constraint hconstraint
      simp only [List.mem_cons, List.not_mem_nil, or_false] at hs
      rcases hs with rfl | rfl | rfl | rfl
      · cases hconstraint
        rfl
      · cases hconstraint
        rw [hrelation, hname]
      · cases hconstraint
      · cases hconstraint
        rfl
    intro s hs s' hs' constraint constraint' hconstraint hconstraint'
    rw [hall s hs constraint hconstraint, hall s' hs' constraint' hconstraint']

/-- A table with one more constraint, of a name no other has. -/
structure Free (constraints : List Constraint) (name : List UInt8) : Prop where
  apart : ∀ other ∈ constraints, other.name ≠ name

theorem Free.find {constraints : List Constraint} {constraint : Constraint}
    (h : Free constraints constraint.name) :
    (constraints ++ [constraint]).find? (·.name = constraint.name) = some constraint := by
  have hnone : constraints.find? (·.name = constraint.name) = none :=
    List.find?_eq_none.mpr fun other hother => by simpa using h.apart other hother
  rw [List.find?_append, hnone]
  simp

theorem Free.validated {constraints : List Constraint} {constraint : Constraint}
    (h : Free constraints constraint.name) :
    ((constraints ++ [constraint]).map fun other =>
      if other.name = constraint.name then { other with validated := true } else other) =
        constraints ++ [{ constraint with validated := true }] := by
  have hothers : (constraints.map fun other =>
      if other.name = constraint.name then { other with validated := true } else other) =
        constraints := by
    refine (List.map_congr_left fun other hother => ?_).trans (List.map_id _)
    exact if_neg (h.apart other hother)
  rw [List.map_append, hothers, List.map_cons, if_pos rfl]
  rfl

theorem Free.dropped {constraints : List Constraint} {constraint : Constraint}
    (h : Free constraints constraint.name) :
    ((constraints ++ [constraint]).filter fun other => other.name ≠ constraint.name) =
      constraints := by
  have hothers : (constraints.filter fun other => other.name ≠ constraint.name) = constraints :=
    List.filter_eq_self.mpr fun other hother => by simpa using h.apart other hother
  rw [List.filter_append, hothers]
  simp

/-! ### One statement on a table -/

section
variable {relation : Relation} {columns : List UInt8 → Option TableColumn}
  {constraints : List Constraint} {schema : Option String} {table column name : String}

theorem run_addCheck {held : TableColumn} (hrelation : relationOf schema table = relation)
    (hheld : columns (identifierOf column) = some held)
    (hfree : Free constraints (identifierOf name)) :
    DdlStatement.run ⟨relation, columns, constraints⟩ (.addCheck schema table name column) =
      .ok ⟨relation, columns, constraints ++ [⟨identifierOf name, held.hasNull, false⟩]⟩ := by
  refine Eq.trans (DdlStatement.run_of_relation hrelation) ?_
  simp only [DdlStatement.alter, hheld]
  refine if_neg ?_
  rw [List.any_eq_true]
  rintro ⟨other, hother, heq⟩
  exact hfree.apart other hother (of_decide_eq_true heq)

theorem run_validateConstraint {added : List UInt8} (hrelation : relationOf schema table = relation)
    (hname : identifierOf name = added) (hfree : Free constraints added) :
    DdlStatement.run ⟨relation, columns, constraints ++ [⟨added, false, false⟩]⟩
        (.validateConstraint schema table name) =
      .ok ⟨relation, columns, constraints ++ [⟨added, false, true⟩]⟩ := by
  have hfound := @Free.find _ ⟨added, false, false⟩ hfree
  have hmarked := @Free.validated _ ⟨added, false, false⟩ hfree
  refine Eq.trans (DdlStatement.run_of_relation hrelation) ?_
  simp only [DdlStatement.alter, hname]
  rw [hfound]
  simp only [Bool.false_eq_true, if_false]
  rw [hmarked]

theorem run_setNotNull {held : TableColumn} (hrelation : relationOf schema table = relation)
    (hheld : columns (identifierOf column) = some held) (hnull : held.hasNull = false) :
    DdlStatement.run ⟨relation, columns, constraints⟩ (.setNotNull schema table column) =
      .ok ⟨relation,
        Function.update columns (identifierOf column) (some { held with notNull := true }),
        constraints⟩ := by
  refine Eq.trans (DdlStatement.run_of_relation hrelation) ?_
  simp only [DdlStatement.alter, hheld, hnull, Bool.false_eq_true, if_false]

theorem run_dropConstraint {validated : Bool} (hrelation : relationOf schema table = relation)
    (hfree : Free constraints (identifierOf name)) :
    DdlStatement.run ⟨relation, columns, constraints ++ [⟨identifierOf name, false, validated⟩]⟩
      (.dropConstraint schema table name) = .ok ⟨relation, columns, constraints⟩ := by
  have hleft := @Free.dropped _ ⟨identifierOf name, false, validated⟩ hfree
  refine Eq.trans (DdlStatement.run_of_relation hrelation) ((if_pos ?_).trans ?_)
  · rw [List.any_eq_true]
    exact ⟨_, List.mem_append_right _ List.mem_cons_self, decide_eq_true rfl⟩
  · rw [hleft]

end

/-- One name on a table without NULLs: the constraint is added, validated and dropped. -/
theorem runAll_one {schema schema' : Option String}
    {table table' column column' name name' : String}
    {before : Table} {held checked : TableColumn}
    (hrelation : before.relation = relationOf schema table)
    (hread : relationOf schema' table' = relationOf schema table)
    (hname : identifierOf name' = identifierOf name)
    (hchecked : before.columns (identifierOf column') = some checked)
    (hvalid : checked.hasNull = false) (hheld : before.columns (identifierOf column) = some held)
    (hnull : held.hasNull = false) (hfree : Free before.constraints (identifierOf name)) :
    runAll before [.addCheck schema table name column', .validateConstraint schema' table' name',
      .setNotNull schema table column, .dropConstraint schema table name] =
        .ok { before with
          columns := Function.update before.columns (identifierOf column)
            (some { held with notNull := true }) } := by
  have hread := hread.trans hrelation.symm
  show (DdlStatement.run _ _ >>= fun first => runAll first _) = _
  rw [run_addCheck hrelation.symm hchecked hfree, ok_bind, hvalid]
  show (DdlStatement.run _ _ >>= fun second => runAll second _) = _
  rw [run_validateConstraint hread hname hfree, ok_bind]
  show (DdlStatement.run _ _ >>= fun third => runAll third _) = _
  rw [run_setNotNull hrelation.symm hheld hnull, ok_bind]
  show (DdlStatement.run _ _ >>= fun last => runAll last []) = _
  rw [run_dropConstraint hrelation.symm hfree]
  rfl

/-- When the constraint is added and validated, the column of its condition holds no NULL, and no
other constraint had its name. -/
theorem runAll_added {schema schema' : Option String} {table table' column' name name' : String}
    {before after : Table} {statements : List DdlStatement}
    (hrelation : before.relation = relationOf schema table)
    (hread : relationOf schema' table' = relationOf schema table)
    (hname : identifierOf name' = identifierOf name)
    (hrun : runAll before (.addCheck schema table name column' ::
      .validateConstraint schema' table' name' :: statements) = .ok after) :
    (∃ checked, before.columns (identifierOf column') = some checked ∧ checked.hasNull = false) ∧
      Free before.constraints (identifierOf name) := by
  obtain ⟨first, hfirst, hrun⟩ := bind_eq_ok.mp hrun
  obtain ⟨second, hsecond, -⟩ := bind_eq_ok.mp hrun
  have hadd : DdlStatement.alter before (.addCheck schema table name column') = .ok first :=
    Eq.trans (Eq.symm (DdlStatement.run_of_relation hrelation.symm)) hfirst
  have hvalidate : first.relation = before.relation →
      DdlStatement.alter first (.validateConstraint schema' table' name') = .ok second :=
    fun hsame => Eq.trans (Eq.symm (DdlStatement.run_of_relation
      (hread.trans (hrelation.symm.trans hsame.symm)))) hsecond
  rw [DdlStatement.alter] at hadd
  cases hchecked : before.columns (identifierOf column') with
  | none =>
      simp only [hchecked] at hadd
      cases hadd
  | some checked =>
      simp only [hchecked] at hadd
      split at hadd
      · cases hadd
      · next hnew =>
          obtain rfl := Except.ok.inj hadd
          have hfree : Free before.constraints (identifierOf name) := by
            refine ⟨fun other hother heq => hnew ?_⟩
            exact List.any_eq_true.mpr ⟨other, hother, decide_eq_true heq⟩
          refine ⟨⟨checked, rfl, ?_⟩, hfree⟩
          have hfound := @Free.find _ ⟨identifierOf name, checked.hasNull, false⟩ hfree
          have hvalid := hvalidate rfl
          simp only [DdlStatement.alter, hname] at hvalid
          rw [hfound] at hvalid
          dsimp only at hvalid
          split at hvalid
          · cases hvalid
          · next hmet => exact Bool.eq_false_iff.mpr hmet

/-- What the names have to be on the table: those in a text pass it, the column that the condition
names holds no NULL, and the name of the constraint is kept and free. -/
structure Renders (renderer : Renderer) (schema : Option String) (table column name : String)
    (before : Table) : Prop where
  schemaPasses : ∀ given, schema = some given → PassesText renderer given
  tablePasses : PassesText renderer table
  columnHolds : ∃ read checked, renderer.inText column = .ok read ∧
    before.columns (identifierOf read) = some checked ∧ checked.hasNull = false
  namePasses : PassesText renderer name
  keeps : KeepsName renderer name
  free : Free before.constraints (identifierOf (renderer.constraintName name))

/-- On a table whose column holds no NULL the helper enforces NOT NULL exactly when it renders the
names. -/
theorem enforceNotNull_iff (renderer : Renderer) (table column : String)
    (schema checkName : Option String) {before : Table}
    (hbefore : HoldsNoNull schema table column before) :
    Enforces renderer table column schema checkName before ↔
      Renders renderer schema table column (temporaryCheck table column checkName) before := by
  obtain ⟨hrelation, held, hheld, hnull⟩ := hbefore
  constructor
  · rintro ⟨statements, hok, hone, after, hrun, -⟩
    obtain ⟨column', schema', table', name', hcolumn, hschema, htable, hname, rfl⟩ :=
      enforceNotNull_eq_ok.mp hok
    obtain ⟨hread, hsame⟩ := nameOne_iff.mp hone
    obtain ⟨hschemaPasses, htablePasses⟩ := (relationOf_read_iff hschema htable).mp hread
    obtain ⟨hpasses, hkeeps⟩ := (identifierOf_read_iff hname).mp hsame
    obtain ⟨⟨checked, hchecked, hvalid⟩, hfree⟩ := runAll_added hrelation hread hsame hrun
    exact ⟨hschemaPasses, htablePasses, ⟨column', checked, hcolumn, hchecked, hvalid⟩,
      (passesText_iff hname).mpr hpasses, hkeeps, hfree⟩
  · intro h
    obtain ⟨column', checked, hcolumn, hchecked, hvalid⟩ := h.columnHolds
    obtain ⟨table', htable, -⟩ := h.tablePasses
    obtain ⟨name', hname, hpasses⟩ := h.namePasses
    obtain ⟨schema', hschema⟩ : ∃ schema', schema.mapM renderer.inText = .ok schema' := by
      cases hgiven : schema with
      | none => exact ⟨none, rfl⟩
      | some given =>
          obtain ⟨read, hread, -⟩ := h.schemaPasses given hgiven
          exact ⟨some read, bind_eq_ok.mpr ⟨read, hread, rfl⟩⟩
    have hread := (relationOf_read_iff hschema htable).mpr ⟨h.schemaPasses, h.tablePasses⟩
    have hsame := (identifierOf_read_iff hname).mpr ⟨hpasses, h.keeps⟩
    refine ⟨_, enforceNotNull_eq_ok.mpr ⟨column', schema', table', name', hcolumn, hschema, htable,
      hname, rfl⟩, nameOne_iff.mpr ⟨hread, hsame⟩, _,
      runAll_one hrelation hread hsame hchecked hvalid hheld hnull h.free, ?_, rfl⟩
    simp

/-! ## Samples -/

/-- Digests of zeros, over psycopg. -/
def zeroDigits : Renderer where
  quote name := name
  digits _ := "0000"
  digits_length _ := rfl
  digits_hex _ := forall_mem_of_all (by decide)
  isWord c := c.isAlphanum || c == '_'
  doublesPercents := true

/-- A table with one column and no constraints. -/
def plainTable (table column : String) : Table where
  relation := relationOf none table
  columns name := if name = identifierOf column then some ⟨false, false⟩ else none
  constraints := []

theorem holdsNoNull_plainTable (table column : String) :
    HoldsNoNull none table column (plainTable table column) :=
  ⟨rfl, _, if_pos rfl, rfl⟩

theorem enforceNotNull_short :
    Enforces zeroDigits "orders" "value" none none (plainTable "orders" "value") := by
  have hvalue : PassesText zeroDigits "value" := passesText_of_plain (forall_mem_of_all (by decide))
  obtain ⟨read, hread, hsame⟩ := hvalue
  exact (enforceNotNull_iff zeroDigits "orders" "value" none none
    (holdsNoNull_plainTable "orders" "value")).mpr
    { schemaPasses := nofun
      tablePasses := passesText_of_plain (forall_mem_of_all (by decide))
      columnHolds := ⟨read, _, hread, if_pos hsame, rfl⟩
      namePasses := passesText_of_plain (forall_mem_of_all (by decide))
      keeps := .inl (by decide)
      free := ⟨fun _ hother => (nomatch hother)⟩ }

/-- The name of a table, 46 characters long: the name of the constraint has 64. -/
def longTable : String := String.ofList (List.replicate 46 't')

/-- One character too many; and a percent sign in a name that is short, which the text has twice. -/
theorem enforceNotNull_long :
    HoldsNoNull none longTable "value" (plainTable longTable "value") ∧
      ¬Enforces zeroDigits longTable "value" none none (plainTable longTable "value") ∧
      HoldsNoNull none "orders" "value" (plainTable "orders" "value") ∧
      ¬Enforces zeroDigits "orders" "value" none (some "ck_100%")
        (plainTable "orders" "value") := by
  refine ⟨holdsNoNull_plainTable _ _, ?_, holdsNoNull_plainTable _ _, ?_⟩
  · rw [enforceNotNull_iff _ _ _ _ _ (holdsNoNull_plainTable longTable "value")]
    intro h
    have hascii : ∀ c ∈ (temporaryCheck longTable "value" none).toList, c.utf8Size = 1 :=
      forall_mem_of_all (by decide +kernel)
    exact absurd ((keepsName_ascii hascii).mp h.keeps) (by decide +kernel)
  · rw [enforceNotNull_iff _ _ _ _ _ (holdsNoNull_plainTable "orders" "value")]
    intro h
    have hread : zeroDigits.inText "ck_100%" = .ok "ck_100%%" := by rfl
    have hsame := (passesText_iff hread).mp h.namePasses
    revert hsame
    decide +kernel

end ProdkitStorage.Database

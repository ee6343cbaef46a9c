import ProdkitStorage.Python.Text

/-!
# Scripts of statements

How a SQL client takes a script apart.  Statements end with `;`.  A comment runs from `--` to the
end of its line, and between two `$$` or two `'` every other character stands for itself.

A text of *plain* characters has none that starts a comment, a quotation or the next statement.
`readScript_plain`, `readScript_dollar` and `readScript_comment` read one statement or one comment
off the front of a script, so a script is read back by one rewriting step for each of its parts.
-/

namespace ProdkitStorage.Foundation

open ProdkitStorage.Python (isSpace)

/-- What the reader is in the middle of. -/
inductive ReadMode where
  | code
  | comment
  | quoted
  | dollar
deriving DecidableEq, Repr

/-- Read a script in this mode.  `held` are the characters of the statement so far, the last one
first. -/
def readFrom : ReadMode → List Char → List Char → List (List Char)
  | .code, held, '-' :: '-' :: cs => readFrom .comment held cs
  | .code, held, '$' :: '$' :: cs => readFrom .dollar ('$' :: '$' :: held) cs
  | .code, held, '\'' :: cs => readFrom .quoted ('\'' :: held) cs
  | .code, held, ';' :: cs => held.reverse :: readFrom .code [] cs
  | .code, held, c :: cs =>
      if held = [] ∧ isSpace c then readFrom .code [] cs else readFrom .code (c :: held) cs
  | .comment, held, '\n' :: cs => readFrom .code held cs
  | .comment, held, _ :: cs => readFrom .comment held cs
  | .quoted, held, '\'' :: cs => readFrom .code ('\'' :: held) cs
  | .quoted, held, c :: cs => readFrom .quoted (c :: held) cs
  | .dollar, held, '$' :: '$' :: cs => readFrom .code ('$' :: '$' :: held) cs
  | .dollar, held, c :: cs => readFrom .dollar (c :: held) cs
  | _, held, [] => if held = [] then [] else [held.reverse]

/-- The statements of a script. -/
def readScript (script : String) : List String :=
  (readFrom .code [] script.toList).map String.ofList

/-- The character starts no comment and no quotation, and it ends no statement. -/
def isPlain (c : Char) : Bool := c != '-' && c != '$' && c != '\'' && c != ';'

/-- All characters are plain. -/
def Plain (text : String) : Prop := ∀ c ∈ text.toList, isPlain c = true

instance (text : String) : Decidable (Plain text) :=
  List.decidableBAll (fun c => isPlain c = true) text.toList

@[simp] theorem plain_append {a b : String} : Plain (a ++ b) ↔ Plain a ∧ Plain b := by
  simp only [Plain, String.toList_append, List.mem_append, or_imp, forall_and]

/-- Plain texts with a plain separator between them. -/
theorem plain_intercalate {separator : String} (hseparator : Plain separator)
    {texts : List String} (h : ∀ text ∈ texts, Plain text) :
    Plain (separator.intercalate texts) := by
  induction texts with
  | nil => simp [Plain]
  | cons text texts ih =>
      cases texts with
      | nil => simpa using h
      | cons other texts =>
          have hrest := ih fun text' htext' => h text' (List.mem_cons_of_mem _ htext')
          simp [hrest, hseparator, h text List.mem_cons_self]

/-- The character does not occur. -/
def Lacks (c : Char) (text : String) : Prop := c ∉ text.toList

instance (c : Char) (text : String) : Decidable (Lacks c text) :=
  inferInstanceAs (Decidable (c ∉ text.toList))

@[simp] theorem lacks_append {c : Char} {a b : String} :
    Lacks c (a ++ b) ↔ Lacks c a ∧ Lacks c b := by
  simp only [Lacks, String.toList_append, List.mem_append, not_or]

/-! ## One part of a script -/

theorem readFrom_semicolon (held cs : List Char) :
    readFrom .code held (';' :: cs) = held.reverse :: readFrom .code [] cs := rfl

theorem readFrom_dashes (held cs : List Char) :
    readFrom .code held ('-' :: '-' :: cs) = readFrom .comment held cs := rfl

theorem readFrom_newline (held cs : List Char) :
    readFrom .comment held ('\n' :: cs) = readFrom .code held cs := rfl

theorem readFrom_open (held cs : List Char) :
    readFrom .code held ('$' :: '$' :: cs) = readFrom .dollar ('$' :: '$' :: held) cs := rfl

theorem readFrom_close (held cs : List Char) :
    readFrom .dollar held ('$' :: '$' :: cs) = readFrom .code ('$' :: '$' :: held) cs := rfl

theorem readFrom_plain_cons {c : Char} (hc : isPlain c = true) (held cs : List Char) :
    readFrom .code held (c :: cs) =
      if held = [] ∧ isSpace c then readFrom .code [] cs else readFrom .code (c :: held) cs := by
  simp only [isPlain, Bool.and_eq_true, bne_iff_ne, ne_eq] at hc
  obtain ⟨⟨⟨hdash, hdollar⟩, hquote⟩, hsemicolon⟩ := hc
  rw [readFrom.eq_5]
  · exact fun _ h => absurd h hdash
  · exact fun _ h => absurd h hdollar
  · exact hquote
  · exact hsemicolon

/-- Once a statement has begun, plain characters are added to it. -/
theorem readFrom_plain {text : List Char} (htext : ∀ c ∈ text, isPlain c = true) {held : List Char}
    (hheld : held ≠ []) (rest : List Char) :
    readFrom .code held (text ++ rest) = readFrom .code (text.reverse ++ held) rest := by
  induction text generalizing held with
  | nil => rfl
  | cons c text ih =>
      rw [List.cons_append, readFrom_plain_cons (htext c List.mem_cons_self),
        if_neg (fun h => hheld h.1), ih (fun d hd => htext d (List.mem_cons_of_mem _ hd))
          (List.cons_ne_nil c held)]
      simp

/-- A plain statement at the front of a script is read as it is. -/
theorem readScript_plain {statement rest : String} (hplain : Plain statement)
    (hfirst : ∀ c ∈ statement.toList.head?, isSpace c = false) (hne : statement ≠ "") :
    readScript (statement ++ ";" ++ rest) = statement :: readScript rest := by
  obtain ⟨c, cs, hchars⟩ : ∃ c cs, statement.toList = c :: cs := by
    cases hlist : statement.toList with
    | nil => exact absurd (String.toList_eq_nil_iff.mp hlist) hne
    | cons c cs => exact ⟨c, cs, rfl⟩
  have hc : isSpace c = false := hfirst c (by simp [hchars])
  have hcons : ∀ d ∈ c :: cs, isPlain d = true := by
    intro d hd
    exact hplain d (by rwa [hchars])
  have hread : readFrom .code [] (c :: cs ++ ';' :: rest.toList) =
      (c :: cs) :: readFrom .code [] rest.toList := by
    rw [List.cons_append, readFrom_plain_cons (hcons c List.mem_cons_self), if_neg (by simp [hc]),
      readFrom_plain (fun d hd => hcons d (List.mem_cons_of_mem _ hd)) (List.cons_ne_nil c []),
      readFrom_semicolon]
    simp
  have htext : (statement ++ ";" ++ rest).toList = c :: cs ++ ';' :: rest.toList := by
    simp [String.toList_append, hchars]
  rw [readScript, htext, hread, List.map_cons, ← hchars, String.ofList_toList]
  rfl

/-- Spaces before a statement are skipped. -/
theorem readScript_space {space rest : String} (hspace : ∀ c ∈ space.toList, isSpace c = true)
    (hplain : Plain space) : readScript (space ++ rest) = readScript rest := by
  have hread : ∀ {cs : List Char}, (∀ c ∈ cs, isSpace c = true) → (∀ c ∈ cs, isPlain c = true) →
      readFrom .code [] (cs ++ rest.toList) = readFrom .code [] rest.toList := by
    intro cs hspaces hplains
    induction cs with
    | nil => rfl
    | cons c cs ih =>
        rw [List.cons_append, readFrom_plain_cons (hplains c List.mem_cons_self),
          if_pos ⟨rfl, hspaces c List.mem_cons_self⟩]
        exact ih (fun d hd => hspaces d (List.mem_cons_of_mem _ hd))
          fun d hd => hplains d (List.mem_cons_of_mem _ hd)
  rw [readScript, String.toList_append, hread hspace hplain]
  rfl

theorem readFrom_comment {line : List Char} (hline : '\n' ∉ line) (held rest : List Char) :
    readFrom .comment held (line ++ '\n' :: rest) = readFrom .code held rest := by
  induction line with
  | nil => exact readFrom_newline held rest
  | cons c line ih =>
      have hc : c ≠ '\n' := fun h => hline (h ▸ List.mem_cons_self)
      rw [List.cons_append, readFrom.eq_7 _ _ _ (fun h => hc h)]
      exact ih fun h => hline (List.mem_cons_of_mem _ h)

/-- A comment between statements is skipped. -/
theorem readScript_comment {line rest : String} (hstart : ['-', '-'] <+: line.toList)
    (hline : Lacks '\n' line) : readScript (line ++ "\n" ++ rest) = readScript rest := by
  obtain ⟨tail, htail⟩ := hstart
  have htext : (line ++ "\n" ++ rest).toList =
      '-' :: '-' :: (tail ++ '\n' :: rest.toList) := by
    simp [String.toList_append, ← htail]
  have hnone : '\n' ∉ tail := by
    intro h
    exact hline (htail ▸ List.mem_append_right _ h)
  rw [readScript, htext, readFrom_dashes, readFrom_comment hnone]
  rfl

theorem readFrom_dollar {body : List Char} (hbody : '$' ∉ body) (held rest : List Char) :
    readFrom .dollar held (body ++ '$' :: '$' :: rest) =
      readFrom .code ('$' :: '$' :: (body.reverse ++ held)) rest := by
  induction body generalizing held with
  | nil => exact readFrom_close held rest
  | cons c body ih =>
      have hc : c ≠ '$' := fun h => hbody (h ▸ List.mem_cons_self)
      have hstep : readFrom .dollar held (c :: (body ++ '$' :: '$' :: rest)) =
          readFrom .dollar (c :: held) (body ++ '$' :: '$' :: rest) := by
        rw [readFrom]
        exact fun _ h => absurd h hc
      rw [List.cons_append, hstep, ih fun h => hbody (List.mem_cons_of_mem _ h)]
      simp

/-- A statement that ends with a body between two `$$` is read as it is, whatever the body has. -/
theorem readScript_dollar {head body rest : String} (hplain : Plain head)
    (hfirst : ∀ c ∈ head.toList.head?, isSpace c = false) (hne : head ≠ "")
    (hbody : Lacks '$' body) :
    readScript (head ++ "$$" ++ body ++ "$$" ++ ";" ++ rest) =
      (head ++ "$$" ++ body ++ "$$") :: readScript rest := by
  obtain ⟨c, cs, hchars⟩ : ∃ c cs, head.toList = c :: cs := by
    cases hlist : head.toList with
    | nil => exact absurd (String.toList_eq_nil_iff.mp hlist) hne
    | cons c cs => exact ⟨c, cs, rfl⟩
  have hc : isSpace c = false := hfirst c (by simp [hchars])
  have hcons : ∀ d ∈ c :: cs, isPlain d = true := by
    intro d hd
    exact hplain d (by rwa [hchars])
  have hread : readFrom .code []
      (c :: cs ++ '$' :: '$' :: (body.toList ++ '$' :: '$' :: (';' :: rest.toList))) =
      (c :: cs ++ '$' :: '$' :: (body.toList ++ ['$', '$'])) :: readFrom .code [] rest.toList := by
    rw [List.cons_append, readFrom_plain_cons (hcons c List.mem_cons_self), if_neg (by simp [hc]),
      readFrom_plain (fun d hd => hcons d (List.mem_cons_of_mem _ hd)) (List.cons_ne_nil c []),
      readFrom_open, readFrom_dollar hbody, readFrom_semicolon]
    simp
  have htext : (head ++ "$$" ++ body ++ "$$" ++ ";" ++ rest).toList =
      c :: cs ++ '$' :: '$' :: (body.toList ++ '$' :: '$' :: (';' :: rest.toList)) := by
    simp [String.toList_append, hchars]
  have hstatement : head ++ "$$" ++ body ++ "$$" =
      String.ofList (c :: cs ++ '$' :: '$' :: (body.toList ++ ['$', '$'])) := by
    rw [← String.toList_inj]
    simp [String.toList_append, hchars]
  rw [readScript, htext, hread, List.map_cons, ← hstatement]
  rfl

/-! ## A whole script -/

/-- A part of a script. -/
inductive ScriptPart where
  | statement (text : String)
  | comment (line : String)
  | newline

/-- The script with these parts. -/
def assemble : List ScriptPart → String
  | [] => ""
  | .statement text :: parts => text ++ ";" ++ assemble parts
  | .comment line :: parts => line ++ "\n" ++ assemble parts
  | .newline :: parts => "\n" ++ assemble parts

/-- The statement a part is. -/
def ScriptPart.statement? : ScriptPart → Option String
  | .statement text => some text
  | _ => none

/-- The text begins like a statement. -/
def Begins (text : String) : Prop := text ≠ "" ∧ ∀ c ∈ text.toList.head?, isSpace c = false

theorem Begins.append {a : String} (ha : Begins a) (b : String) : Begins (a ++ b) := by
  have hne : a.toList ≠ [] := fun h => ha.1 (String.toList_eq_nil_iff.mp h)
  refine ⟨fun h => ha.1 (String.append_eq_empty_iff.mp h).1, ?_⟩
  rw [String.toList_append, List.head?_append_of_ne_nil _ hne]
  exact ha.2

instance (text : String) : Decidable (Begins text) :=
  have : Decidable (∀ c ∈ text.toList.head?, isSpace c = false) := Option.decidableForallMem _
  inferInstanceAs (Decidable (text ≠ "" ∧ ∀ c ∈ text.toList.head?, isSpace c = false))

/-- The reader takes the part for what it is. -/
inductive ScriptPart.Readable : ScriptPart → Prop where
  | plain {text : String} : Begins text → Plain text → Readable (.statement text)
  | dollar {head body : String} : Begins head → Plain head → Lacks '$' body →
      Readable (.statement (head ++ "$$" ++ body ++ "$$"))
  | comment {line : String} : ['-', '-'] <+: line.toList → Lacks '\n' line →
      Readable (.comment line)
  | newline : Readable .newline

theorem plain_join {texts : List String} (h : ∀ text ∈ texts, Plain text) :
    Plain (String.join texts) := by
  intro c hc
  rw [String.toList_join, List.mem_flatMap] at hc
  obtain ⟨text, htext, hc⟩ := hc
  exact h text htext c hc

/-- A statement of plain pieces, the first of which begins like a statement. -/
theorem ScriptPart.readable_join {head : String} {rest : List String} (hbegins : Begins head)
    (h : ∀ text ∈ head :: rest, Plain text) :
    (ScriptPart.statement (String.join (head :: rest))).Readable := by
  refine .plain ?_ (plain_join h)
  rw [String.join_cons]
  exact hbegins.append _

/-- The comments among the parts are comments of one line. -/
def ScriptPart.isLine : ScriptPart → Bool
  | .comment line => ['-', '-'].isPrefixOf line.toList && decide (Lacks '\n' line)
  | _ => true

/-- Parts are readable when their statements are and their comments are single lines. -/
theorem readable_parts {parts : List ScriptPart} (hlines : parts.all ScriptPart.isLine = true)
    (hstatements : ∀ text ∈ parts.filterMap ScriptPart.statement?,
      (ScriptPart.statement text).Readable) : ∀ part ∈ parts, part.Readable := by
  intro part hpart
  cases part with
  | statement text => exact hstatements text (List.mem_filterMap.mpr ⟨_, hpart, rfl⟩)
  | comment line =>
      have hline := List.all_eq_true.mp hlines _ hpart
      simp only [ScriptPart.isLine, Bool.and_eq_true, List.isPrefixOf_iff_prefix,
        decide_eq_true_eq] at hline
      exact .comment hline.1 hline.2
  | newline => exact .newline

/-- A script of readable parts is read back as its statements. -/
theorem readScript_assemble {parts : List ScriptPart} (h : ∀ part ∈ parts, part.Readable) :
    readScript (assemble parts) = parts.filterMap ScriptPart.statement? := by
  induction parts with
  | nil => rfl
  | cons part parts ih =>
      have hrest := ih fun other hother => h other (List.mem_cons_of_mem _ hother)
      cases h part List.mem_cons_self with
      | plain hbegins hplain =>
          rw [assemble, readScript_plain hplain hbegins.2 hbegins.1, hrest]
          rfl
      | dollar hbegins hplain hbody =>
          rw [assemble, readScript_dollar hplain hbegins.2 hbegins.1 hbody, hrest]
          rfl
      | comment hstart hline =>
          rw [assemble, readScript_comment hstart hline, hrest]
          rfl
      | newline =>
          rw [assemble, readScript_space (by simp [isSpace]) (by decide), hrest]
          rfl

end ProdkitStorage.Foundation

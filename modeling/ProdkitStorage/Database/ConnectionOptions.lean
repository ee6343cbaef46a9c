import Mathlib.Data.List.DropRight
import ProdkitStorage.Security.RoleScripts

/-!
# Session defaults of an engine

`_postgres_options` and the server settings of `_create_async_engine` in `database/runtime.py`,
over settings that the validators of `config.py` let through.  The sync engine sends the defaults
as one text of command-line switches, which the server splits again; the async engine sends them
one by one.  `connection_options`: both say the same, and the schema leads the search path alone.
-/

namespace ProdkitStorage.Database

open ProdkitStorage.Python
open ProdkitStorage.Security (isPostgresIdentifier isIdentifierStart isIdentifierChar
  identifier_chars)

/-! ## The settings -/

/-- `_safe_schema`. -/
def safeSchema (value : String) : Except PyError String :=
  let value := strip value
  if isPostgresIdentifier value then .ok value
  else .error (.valueError "database_schema must be a lowercase PostgreSQL identifier")

/-- The settings of `StorageSettings` that the engines send to the server. -/
structure SessionSettingsOf where
  statementTimeoutMs : Nat := 30000
  lockTimeoutMs : Nat := 5000
  idleInTransactionTimeoutMs : Nat := 60000
  databaseSchema : String := "public"
  databaseSchema_safe : safeSchema databaseSchema = .ok databaseSchema

/-- `_postgres_options`. -/
def postgresOptions (settings : SessionSettingsOf) (readonly : Bool) : String :=
  let options := [
    "-c statement_timeout=" ++ toString settings.statementTimeoutMs,
    "-c lock_timeout=" ++ toString settings.lockTimeoutMs,
    "-c idle_in_transaction_session_timeout=" ++ toString settings.idleInTransactionTimeoutMs,
    "-c search_path=" ++ settings.databaseSchema ++ ",public"]
  " ".intercalate (if readonly then options ++ ["-c default_transaction_read_only=on"] else options)

/-- The `server_settings` of `_create_async_engine`, but for the name of the application. -/
def serverSettings (settings : SessionSettingsOf) (readonly : Bool) : List (String × String) :=
  let serverSettings := [
    ("statement_timeout", toString settings.statementTimeoutMs),
    ("lock_timeout", toString settings.lockTimeoutMs),
    ("idle_in_transaction_session_timeout", toString settings.idleInTransactionTimeoutMs),
    ("search_path", settings.databaseSchema ++ ",public")]
  if readonly then serverSettings ++ [("default_transaction_read_only", "on")] else serverSettings

/-! ## The server -/

/-- The server's `isspace`. -/
def isBlank (c : Char) : Bool := c ∈ [' ', '\t', '\n', '\u000b', '\u000c', '\r']

/-- The words of the options, after a part of a word and perhaps a backslash. -/
def splitOptions : Option (List Char) → Bool → List Char → List (List Char)
  | none, _, [] => []
  | some word, _, [] => [word]
  | none, _, c :: cs =>
      if isBlank c then splitOptions none false cs
      else if c = '\\' then splitOptions (some []) true cs
      else splitOptions (some [c]) false cs
  | some word, true, c :: cs => splitOptions (some (word ++ [c])) false cs
  | some word, false, c :: cs =>
      if isBlank c then word :: splitOptions none false cs
      else if c = '\\' then splitOptions (some word) true cs
      else splitOptions (some (word ++ [c])) false cs

/-- A setting, whose name the server reads with underscores. -/
def readSetting (word : List Char) : Option (String × String) :=
  match word.dropWhile (· != '=') with
  | [] => none
  | _ :: value =>
      some (String.ofList ((word.takeWhile (· != '=')).map fun c => if c = '-' then '_' else c),
        String.ofList value)

/-- The switches of the options: `-c` with a setting each. -/
def readSwitches : List (List Char) → Option (List (String × String))
  | [] => some []
  | ['-', 'c'] :: word :: words => do
      let setting ← readSetting word
      let settings ← readSwitches words
      return setting :: settings
  | _ => none

/-- The settings in the options of a connection. -/
def readOptions (options : String) : Option (List (String × String)) :=
  readSwitches (splitOptions none false options.toList)

/-- The schemas of a search path, where none is quoted. -/
def readSearchPath (value : String) : Option (List String) :=
  if '"' ∈ value.toList then none
  else some ((value.toList.splitOn ',').map fun schema =>
    String.ofList (((schema.dropWhile isBlank).rdropWhile isBlank).map Char.toLower))

/-! ## Words -/

/-- A word that the server does not split, and that keeps no character back. -/
def PlainWord (word : List Char) : Prop := ∀ c ∈ word, isBlank c = false ∧ c ≠ '\\'

theorem PlainWord.append {word word' : List Char} (h : PlainWord word) (h' : PlainWord word') :
    PlainWord (word ++ word') := by
  intro c hc
  rcases List.mem_append.mp hc with hc | hc
  · exact h c hc
  · exact h' c hc

theorem splitOptions_append {word : List Char} (h : PlainWord word) (part cs : List Char) :
    splitOptions (some part) false (word ++ cs) =
      splitOptions (some (part ++ word)) false cs := by
  induction word generalizing part with
  | nil => rw [List.nil_append, List.append_nil]
  | cons c word ih =>
      obtain ⟨⟨hblank, hslash⟩, hword⟩ := List.forall_mem_cons.mp h
      rw [List.cons_append, splitOptions, hblank, if_neg Bool.false_ne_true, if_neg hslash,
        ih hword, List.append_assoc, List.singleton_append]

theorem splitOptions_word {word : List Char} (h : PlainWord word) (hne : word ≠ [])
    (cs : List Char) :
    splitOptions none false (word ++ cs) = splitOptions (some word) false cs := by
  cases word with
  | nil => exact absurd rfl hne
  | cons c word =>
      obtain ⟨⟨hblank, hslash⟩, hword⟩ := List.forall_mem_cons.mp h
      rw [List.cons_append, splitOptions, hblank, if_neg Bool.false_ne_true, if_neg hslash,
        splitOptions_append hword, List.singleton_append]

theorem splitOptions_cons {word : List Char} (h : PlainWord word) (hne : word ≠ [])
    (cs : List Char) :
    splitOptions none false (word ++ ' ' :: cs) = word :: splitOptions none false cs := by
  rw [splitOptions_word h hne, splitOptions, show isBlank ' ' = true from rfl, if_pos rfl]

/-- Plain words that a blank sets apart are split again. -/
theorem splitOptions_intercalate {words : List (List Char)}
    (h : ∀ word ∈ words, PlainWord word ∧ word ≠ []) :
    splitOptions none false (List.intercalate [' '] words) = words := by
  induction words with
  | nil => rfl
  | cons word words ih =>
      obtain ⟨⟨hplain, hne⟩, hrest⟩ := List.forall_mem_cons.mp h
      cases words with
      | nil =>
          have hword := splitOptions_word hplain hne []
          rw [List.append_nil] at hword
          simpa [splitOptions] using hword
      | cons word' words =>
          rw [List.intercalate_cons_cons, List.append_assoc, List.singleton_append,
            splitOptions_cons hplain hne, ih hrest]

/-! ## Switches -/

/-- A setting as a switch of the options. -/
def switch (setting : String × String) : String := "-c " ++ setting.1 ++ "=" ++ setting.2

/-- A setting that stays one word, under a name that the server takes as it is. -/
def PlainSetting (setting : String × String) : Prop :=
  PlainWord setting.1.toList ∧ '=' ∉ setting.1.toList ∧ '-' ∉ setting.1.toList ∧
    PlainWord setting.2.toList

/-- The word of a setting. -/
def settingWord (setting : String × String) : List Char :=
  setting.1.toList ++ '=' :: setting.2.toList

theorem PlainSetting.word {setting : String × String} (h : PlainSetting setting) :
    PlainWord (settingWord setting) := by
  refine h.1.append fun c hc => ?_
  rcases List.mem_cons.mp hc with rfl | hc
  · exact ⟨rfl, by decide⟩
  · exact h.2.2.2 c hc

theorem readSetting_word {setting : String × String} (h : PlainSetting setting) :
    readSetting (settingWord setting) = some setting := by
  obtain ⟨-, hequals, hdash, -⟩ := h
  have hname : ∀ c ∈ setting.1.toList, (c != '=') = true := by
    intro c hc
    simp only [bne_iff_ne]
    rintro rfl
    exact hequals hc
  have hdashes : setting.1.toList.map (fun c => if c = '-' then '_' else c) =
      setting.1.toList := by
    refine (List.map_congr_left fun c hc => ?_).trans (List.map_id _)
    exact if_neg (by rintro rfl; exact hdash hc)
  rw [readSetting, settingWord, List.dropWhile_append_of_pos hname,
    List.takeWhile_append_of_pos hname]
  simp [hdashes]

theorem readSwitches_settings {settings : List (String × String)}
    (h : ∀ setting ∈ settings, PlainSetting setting) :
    readSwitches (settings.flatMap fun setting => [['-', 'c'], settingWord setting]) =
      some settings := by
  induction settings with
  | nil => rfl
  | cons setting settings ih =>
      obtain ⟨hsetting, hsettings⟩ := List.forall_mem_cons.mp h
      simp [readSwitches, readSetting_word hsetting, ih hsettings]

theorem toList_switches (settings : List (String × String)) :
    (" ".intercalate (settings.map switch)).toList =
      List.intercalate [' ']
        (settings.flatMap fun setting => [['-', 'c'], settingWord setting]) := by
  induction settings with
  | nil => rfl
  | cons setting settings ih =>
      rw [String.toList_intercalate] at ih ⊢
      cases settings with
      | nil => simp [switch, settingWord, List.intercalate_cons_cons]
      | cons setting' settings =>
          simp only [List.map_cons, List.flatMap_cons] at ih ⊢
          simp only [List.intercalate_cons_cons, List.cons_append, List.nil_append] at ih ⊢
          rw [ih]
          simp [switch, settingWord]

/-- Switches of plain settings are read as these settings. -/
theorem readOptions_switches {settings : List (String × String)}
    (h : ∀ setting ∈ settings, PlainSetting setting) :
    readOptions (" ".intercalate (settings.map switch)) = some settings := by
  rw [readOptions, toList_switches, splitOptions_intercalate, readSwitches_settings h]
  intro word hword
  obtain ⟨setting, hsetting, hword⟩ := List.mem_flatMap.mp hword
  simp only [List.mem_cons, List.not_mem_nil, or_false] at hword
  rcases hword with rfl | rfl
  · exact ⟨by simp [PlainWord, isBlank], by simp⟩
  · exact ⟨(h setting hsetting).word, by simp [settingWord]⟩

/-! ## Both engines -/

theorem postgresOptions_eq (settings : SessionSettingsOf) (readonly : Bool) :
    postgresOptions settings readonly =
      " ".intercalate ((serverSettings settings readonly).map switch) := by
  have hswitch : ∀ name value : String,
      switch (name, value) = ("-c " ++ name ++ "=") ++ value := fun _ _ => rfl
  cases readonly <;>
    simp [postgresOptions, serverSettings, hswitch, String.append_assoc]

theorem SessionSettingsOf.identifier (settings : SessionSettingsOf) :
    isPostgresIdentifier settings.databaseSchema = true := by
  have hsafe := settings.databaseSchema_safe
  simp only [safeSchema] at hsafe
  split at hsafe
  · next hidentifier => rwa [Except.ok.inj hsafe] at hidentifier
  · cases hsafe

theorem identifierChar_ne {c d : Char} (h : isIdentifierChar c = true)
    (hd : isIdentifierChar d = false) : c ≠ d := by
  rintro rfl
  simp [h] at hd

theorem isBlank_of_identifierChar {c : Char} (h : isIdentifierChar c = true) :
    isBlank c = false := by
  simp only [isBlank, decide_eq_false_iff_not, List.mem_cons, List.not_mem_nil, or_false, not_or]
  exact ⟨identifierChar_ne h rfl, identifierChar_ne h rfl, identifierChar_ne h rfl,
    identifierChar_ne h rfl, identifierChar_ne h rfl, identifierChar_ne h rfl⟩

theorem plainWord_of_identifierChars {word : List Char}
    (h : ∀ c ∈ word, isIdentifierChar c = true) : PlainWord word :=
  fun c hc => ⟨isBlank_of_identifierChar (h c hc), identifierChar_ne (h c hc) rfl⟩

theorem identifier_lacks {value : String} (h : isPostgresIdentifier value = true) {c : Char}
    (hc : isIdentifierChar c = false) : c ∉ value.toList := by
  intro hmem
  exact identifierChar_ne (identifier_chars h c hmem) hc rfl

/-- A setting under an identifier, with a value of one word. -/
theorem plainSetting {name value : String} (hname : isPostgresIdentifier name = true)
    (hvalue : PlainWord value.toList) : PlainSetting (name, value) :=
  ⟨plainWord_of_identifierChars (identifier_chars hname), identifier_lacks hname rfl,
    identifier_lacks hname rfl, hvalue⟩

theorem plainWord_toString (n : Nat) : PlainWord (toString n).toList := by
  refine plainWord_of_identifierChars fun c hc => ?_
  rw [Nat.toString_eq_repr, Nat.toList_repr] at hc
  simp [isIdentifierChar, Nat.isDigit_of_mem_toDigits (by decide) (by decide) hc]

theorem plainWord_searchPath (settings : SessionSettingsOf) :
    PlainWord (settings.databaseSchema ++ ",public").toList := by
  rw [String.toList_append]
  refine (plainWord_of_identifierChars (identifier_chars settings.identifier)).append ?_
  simp [PlainWord, isBlank]

theorem serverSettings_plain (settings : SessionSettingsOf) (readonly : Bool) :
    ∀ setting ∈ serverSettings settings readonly, PlainSetting setting := by
  have hdefaults : ∀ setting ∈ serverSettings settings false, PlainSetting setting := by
    simp only [serverSettings, Bool.false_eq_true, if_false, List.forall_mem_cons]
    exact ⟨plainSetting rfl (plainWord_toString _), plainSetting rfl (plainWord_toString _),
      plainSetting rfl (plainWord_toString _), plainSetting rfl (plainWord_searchPath settings),
      fun _ h => absurd h List.not_mem_nil⟩
  cases readonly with
  | false => exact hdefaults
  | true =>
      intro setting hsetting
      rcases List.mem_append.mp hsetting with hsetting | hsetting
      · exact hdefaults setting hsetting
      · rw [List.mem_singleton.mp hsetting]
        exact plainSetting rfl (by simp [PlainWord, isBlank])

/-! ### The search path -/

theorem toLower_identifierChar {c : Char} (h : isIdentifierChar c = true) : c.toLower = c := by
  refine dif_neg fun hupper => ?_
  simp only [isIdentifierChar, isIdentifierStart, Bool.or_eq_true, beq_iff_eq] at h
  simp only [UInt32.le_iff_toNat_le, ge_iff_le] at hupper
  rcases h with (hlower | rfl) | hdigit
  · have hlow : 'a'.val.toNat ≤ c.val.toNat :=
      of_decide_eq_true ((Bool.and_eq_true _ _).mp hlower).1
    exact absurd (hlow.trans hupper.2) (by decide)
  · exact absurd hupper.2 (by decide)
  · have hhigh : c.val.toNat ≤ '9'.val.toNat :=
      of_decide_eq_true ((Bool.and_eq_true _ _).mp hdigit).2
    exact absurd (hupper.1.trans hhigh) (by decide)

theorem readSchema_identifier {value : String} (h : isPostgresIdentifier value = true) :
    String.ofList (((value.toList.dropWhile isBlank).rdropWhile isBlank).map Char.toLower) =
      value := by
  have hblank : ∀ c ∈ value.toList, ¬isBlank c = true := by
    intro c hc
    simp [isBlank_of_identifierChar (identifier_chars h c hc)]
  have hlower : value.toList.map Char.toLower = value.toList :=
    (List.map_congr_left fun c hc => toLower_identifierChar (identifier_chars h c hc)).trans
      (List.map_id _)
  rw [List.dropWhile_eq_self_iff.mpr fun hlength => hblank _ (List.getElem_mem hlength),
    List.rdropWhile_eq_self_iff.mpr fun hne => hblank _ (List.getLast_mem hne), hlower,
    String.ofList_toList]

/-- The path that the sessions search is the schema of the settings, then `public`. -/
theorem readSearchPath_schema (settings : SessionSettingsOf) :
    readSearchPath (settings.databaseSchema ++ ",public") =
      some [settings.databaseSchema, "public"] := by
  have hschema := settings.identifier
  have htext : (settings.databaseSchema ++ ",public").toList =
      List.intercalate [','] [settings.databaseSchema.toList, "public".toList] := by
    simp [List.intercalate_cons_cons]
  have hquote : '"' ∉ (settings.databaseSchema ++ ",public").toList := by
    simp [identifier_lacks hschema (c := '"') rfl]
  have hsplit : (settings.databaseSchema ++ ",public").toList.splitOn ',' =
      [settings.databaseSchema.toList, "public".toList] := by
    rw [htext]
    refine List.splitOn_intercalate ',' ?_ (List.cons_ne_nil _ _)
    simp [identifier_lacks hschema (c := ',') rfl]
  rw [readSearchPath, if_neg hquote, hsplit, List.map_cons, List.map_singleton,
    readSchema_identifier hschema, readSchema_identifier rfl]

/-- **Both engines open sessions with the same defaults.**  The text of switches that the sync
engine sends is taken apart into the settings that the async engine sends, the schema of the
settings leads the search path, and exactly the engines for reading start read-only. -/
theorem connection_options (settings : SessionSettingsOf) (readonly : Bool) :
    readOptions (postgresOptions settings readonly) = some (serverSettings settings readonly) ∧
      ((serverSettings settings readonly).lookup "search_path").bind readSearchPath =
        some [settings.databaseSchema, "public"] ∧
      ((serverSettings settings readonly).lookup "default_transaction_read_only" = some "on" ↔
        readonly = true) := by
  refine ⟨?_, ?_, ?_⟩
  · rw [postgresOptions_eq]
    exact readOptions_switches (serverSettings_plain settings readonly)
  · rw [← readSearchPath_schema]
    cases readonly <;> rfl
  · cases readonly <;> simp [serverSettings, List.lookup_cons]

-- The name of a schema is the one text a deployment writes into the switches.
example : postgresOptions { databaseSchema := "tenants", databaseSchema_safe := rfl } true =
    "-c statement_timeout=30000 -c lock_timeout=5000 " ++
      "-c idle_in_transaction_session_timeout=60000 -c search_path=tenants,public " ++
      "-c default_transaction_read_only=on" := rfl

example : safeSchema "tenants -c role=owner" =
    .error (.valueError "database_schema must be a lowercase PostgreSQL identifier") := rfl

end ProdkitStorage.Database

import Mathlib.Data.String.Basic
import Mathlib.Logic.Function.Basic

/-!
# Commands of the backup verifier

The command lines of `ops/backup/verify_postgres_backup.py`, and what the PostgreSQL client
programs read in them.  `docker exec` takes the container after it and runs the rest; an option
that has a value takes the next word whatever it is; other words that begin with a hyphen are
flags, and what remains are the names.

`means_commands` says that the verifier's command lines mean what they were written for, whatever
the user, the database, the host and the password.
-/

namespace ProdkitStorage.Backup

/-- A parsed URL of a database. -/
structure DatabaseUrl where
  host : Option String
  port : Option Nat
  username : Option String
  password : Option String
  database : Option String
  query : List (String × String) := []

/-- The parameters with which `libpq` goes by the query of a URL where the command lines go by
the rest of it. -/
def redirections : List String := ["dbname", "host", "hostaddr", "port", "service", "user"]

/-- A connection by the URL may go elsewhere than the command lines. -/
def DatabaseUrl.redirects (url : DatabaseUrl) : Bool :=
  url.query.any fun parameter => redirections.contains parameter.1

/-- The texts that Python takes for true. -/
def truthy (text : Option String) : Option String := text.filter fun value => value != ""

/-- `_local_client_environment`: the connection arguments, and `PGPASSWORD`. -/
def localClientEnvironment (url : DatabaseUrl) : List String × Option String :=
  let host := match truthy url.host with
    | some host => ["--host", host]
    | none => []
  let port := match url.port.filter (· != 0) with
    | some port => ["--port", toString port]
    | none => []
  let username := match truthy url.username with
    | some username => ["--username", username]
    | none => []
  (host ++ port ++ username, truthy url.password)

/-- `_docker_command`. -/
def dockerCommand (container : String) (args : List String) : List String :=
  ["docker", "exec", container] ++ args

/-- The command lines of one verification, and the password in their environment. -/
structure Commands where
  dump : List String
  create : List String
  restore : List String
  drop : List String
  cleanupDump : List String
  password : Option String

/-- The commands that `verify` composes. -/
def commands (url : DatabaseUrl) (username database restoreDatabase dumpPath : String)
    (dockerContainer : Option String) : Commands :=
  match truthy dockerContainer with
  | some container => {
      dump := dockerCommand container ["pg_dump", "-U", username, "-d", database,
        "--format=custom", "--no-owner", "--no-acl", "--file", dumpPath]
      create := dockerCommand container ["createdb", "-U", username, restoreDatabase]
      restore := dockerCommand container ["pg_restore", "-U", username, "-d", restoreDatabase,
        "--no-owner", "--no-acl", dumpPath]
      drop := dockerCommand container ["dropdb", "-U", username, "--if-exists", restoreDatabase]
      cleanupDump := dockerCommand container ["rm", "-f", dumpPath]
      password := none }
  | none =>
      let connection := localClientEnvironment url
      { dump := ["pg_dump"] ++ connection.1 ++ ["--dbname", database, "--format=custom",
          "--no-owner", "--no-acl", "--file", dumpPath]
        create := ["createdb"] ++ connection.1 ++ [restoreDatabase]
        restore := ["pg_restore"] ++ connection.1 ++ ["--dbname", restoreDatabase, "--no-owner",
          "--no-acl", dumpPath]
        drop := ["dropdb"] ++ connection.1 ++ ["--if-exists", restoreDatabase]
        cleanupDump := ["rm", "-f", dumpPath]
        password := connection.2 }

/-! ## Reading a command line -/

/-- What a client program is told to do. -/
inductive Action where
  | dump (database file : String)
  /-- The database of a dump is given by a connection string. -/
  | dumpConnection (file : String)
  | create (name : String)
  | restore (database file : String)
  | drop (name : String)
  | remove (file : String)
deriving DecidableEq

/-- The options with a value, by their long names. -/
def valueOption : String → Option String
  | "-U" => some "--username"
  | "-d" => some "--dbname"
  | "--username" => some "--username"
  | "--dbname" => some "--dbname"
  | "--host" => some "--host"
  | "--port" => some "--port"
  | "--file" => some "--file"
  | _ => none

def isFlag (word : String) : Bool := word.toList.head? == some '-'

/-- The options and the names of a command line. -/
structure Arguments where
  options : List (String × String)
  names : List String
deriving DecidableEq

/-- The words of a command line, after an option that waits for its value.  There is none
when the last option has no value. -/
def readArguments : Option String → List String → Option Arguments
  | none, [] => some ⟨[], []⟩
  | some _, [] => none
  | some option, word :: rest =>
      (readArguments none rest).map fun arguments =>
        { arguments with options := (option, word) :: arguments.options }
  | none, word :: rest =>
      match valueOption word with
      | some option => readArguments (some option) rest
      | none =>
          if isFlag word then readArguments none rest
          else (readArguments none rest).map fun arguments =>
            { arguments with names := word :: arguments.names }

/-- `libpq` takes the name of a database for a connection string. -/
def isConnectionString (database : String) : Bool :=
  database.toList.contains '=' || "postgresql://".toList.isPrefixOf database.toList ||
    "postgres://".toList.isPrefixOf database.toList

/-- A client program with its arguments. -/
def readTool : List String → Option Action
  | "pg_dump" :: words => do
      let arguments ← readArguments none words
      let database ← arguments.options.lookup "--dbname"
      let file ← arguments.options.lookup "--file"
      if isConnectionString database then return .dumpConnection file
      return .dump database file
  | "createdb" :: words => do
      match (← readArguments none words).names with
      | [name] => return .create name
      | _ => none
  | "pg_restore" :: words => do
      let arguments ← readArguments none words
      let database ← arguments.options.lookup "--dbname"
      match arguments.names with
      | [file] => return .restore database file
      | _ => none
  | "dropdb" :: words => do
      match (← readArguments none words).names with
      | [name] => return .drop name
      | _ => none
  | ["rm", "-f", file] => if isFlag file then none else some (.remove file)
  | _ => none

/-- A command line. -/
def readCommand : List String → Option Action
  | "docker" :: "exec" :: container :: words => if isFlag container then none else readTool words
  | words => readTool words

/-! ## What the verifier's commands mean -/

@[simp] theorem readArguments_value (option word : String) (rest : List String) :
    readArguments (some option) (word :: rest) = (readArguments none rest).map fun arguments =>
      { arguments with options := (option, word) :: arguments.options } := rfl

theorem readArguments_cons (word : String) (rest : List String) :
    readArguments none (word :: rest) =
      match valueOption word with
      | some option => readArguments (some option) rest
      | none =>
          if isFlag word then readArguments none rest
          else (readArguments none rest).map fun arguments =>
            { arguments with names := word :: arguments.names } := rfl

theorem readArguments_option {word option : String} (h : valueOption word = some option)
    (value : String) (rest : List String) :
    readArguments none (word :: value :: rest) = (readArguments none rest).map fun arguments =>
      { arguments with options := (option, value) :: arguments.options } := by
  rw [readArguments_cons, h]
  rfl

theorem readArguments_flag {word : String} (h : valueOption word = none)
    (hflag : isFlag word = true) (rest : List String) :
    readArguments none (word :: rest) = readArguments none rest := by
  simp [readArguments_cons, h, hflag]

theorem readArguments_name {word : String} (h : isFlag word = false) (rest : List String) :
    readArguments none (word :: rest) = (readArguments none rest).map fun arguments =>
      { arguments with names := word :: arguments.names } := by
  have hoption : valueOption word = none := by
    unfold valueOption
    split <;> first | rfl | simp [isFlag] at h
  simp [readArguments_cons, hoption, h]

/-- The words are options, and none of them names the database or the file. -/
def Connects (words : List String) : Prop :=
  ∃ options : List (String × String),
    options.lookup "--dbname" = none ∧ options.lookup "--file" = none ∧
    ∀ rest, readArguments none (words ++ rest) = (readArguments none rest).map fun arguments =>
      { arguments with options := options ++ arguments.options }

theorem connects_nil : Connects [] :=
  ⟨[], rfl, rfl, fun rest => by simp⟩

theorem connects_option {word option : String} (h : valueOption word = some option)
    (hname : ("--dbname" == option) = false) (hfile : ("--file" == option) = false)
    (value : String) : Connects [word, value] := by
  refine ⟨[(option, value)], by simp [List.lookup_cons, hname],
    by simp [List.lookup_cons, hfile], ?_⟩
  exact fun rest => readArguments_option h value rest

theorem lookup_append {key : String} {first second : List (String × String)}
    (hfirst : first.lookup key = none) : (first ++ second).lookup key = second.lookup key := by
  induction first with
  | nil => rfl
  | cons pair first ih =>
      obtain ⟨name, value⟩ := pair
      cases hkey : key == name with
      | false =>
          rw [List.cons_append, List.lookup_cons, hkey]
          rw [List.lookup_cons, hkey] at hfirst
          exact ih hfirst
      | true =>
          rw [List.lookup_cons, hkey] at hfirst
          cases hfirst

theorem connects_append {first second : List String} (hfirst : Connects first)
    (hsecond : Connects second) : Connects (first ++ second) := by
  obtain ⟨options, hname, hfile, hread⟩ := hfirst
  obtain ⟨later, hname', hfile', hread'⟩ := hsecond
  refine ⟨options ++ later, by rw [lookup_append hname, hname'],
    by rw [lookup_append hfile, hfile'], fun rest => ?_⟩
  rw [List.append_assoc, hread, hread', Option.map_map]
  simp only [Function.comp_def, List.append_assoc]

theorem connects_localClientEnvironment (url : DatabaseUrl) :
    Connects (localClientEnvironment url).1 := by
  refine connects_append (connects_append ?_ ?_) ?_
  · split
    · exact connects_option rfl rfl rfl _
    · exact connects_nil
  · split
    · exact connects_option rfl rfl rfl _
    · exact connects_nil
  · split
    · exact connects_option rfl rfl rfl _
    · exact connects_nil

section Tools

variable {connection : List String} (h : Connects connection)
include h

theorem readTool_dump {word : String} (hword : valueOption word = some "--dbname")
    (database file : String) :
    readTool ("pg_dump" :: (connection ++ [word, database, "--format=custom", "--no-owner",
      "--no-acl", "--file", file])) = some (if isConnectionString database then
        .dumpConnection file else .dump database file) := by
  obtain ⟨options, hname, hfile, hread⟩ := h
  have hrest : readArguments none [word, database, "--format=custom", "--no-owner", "--no-acl",
      "--file", file] = some ⟨[("--dbname", database), ("--file", file)], []⟩ := by
    rw [readArguments_option hword, readArguments_flag rfl rfl, readArguments_flag rfl rfl,
      readArguments_flag rfl rfl, readArguments_option rfl]
    rfl
  simp only [readTool, hread, hrest, Option.map_some, Option.bind_eq_bind, Option.bind_some,
    lookup_append hname, lookup_append hfile]
  cases hconnection : isConnectionString database <;> simp [List.lookup_cons, hconnection]

theorem readTool_create {name : String} (hflag : isFlag name = false) :
    readTool ("createdb" :: (connection ++ [name])) = some (.create name) := by
  obtain ⟨options, -, -, hread⟩ := h
  have hrest : readArguments none [name] = some ⟨[], [name]⟩ := by
    rw [readArguments_name hflag]
    rfl
  show (readArguments none (connection ++ [name])).bind _ = _
  rw [hread, hrest]
  rfl

theorem readTool_restore {word : String} (hword : valueOption word = some "--dbname")
    (database : String) {file : String} (hflag : isFlag file = false) :
    readTool ("pg_restore" :: (connection ++ [word, database, "--no-owner", "--no-acl", file])) =
      some (.restore database file) := by
  obtain ⟨options, hname, -, hread⟩ := h
  have hrest : readArguments none [word, database, "--no-owner", "--no-acl", file] =
      some ⟨[("--dbname", database)], [file]⟩ := by
    rw [readArguments_option hword, readArguments_flag rfl rfl, readArguments_flag rfl rfl,
      readArguments_name hflag]
    rfl
  simp [readTool, hread, hrest, lookup_append hname]

theorem readTool_drop {name : String} (hflag : isFlag name = false) :
    readTool ("dropdb" :: (connection ++ ["--if-exists", name])) = some (.drop name) := by
  obtain ⟨options, -, -, hread⟩ := h
  have hrest : readArguments none ["--if-exists", name] = some ⟨[], [name]⟩ := by
    rw [readArguments_flag rfl rfl, readArguments_name hflag]
    rfl
  show (readArguments none (connection ++ ["--if-exists", name])).bind _ = _
  rw [hread, hrest]
  rfl

end Tools

/-- The commands mean what they were written for. -/
structure Means (commands : Commands) (database restoreDatabase dumpPath : String) : Prop where
  dump : readCommand commands.dump = some (if isConnectionString database then
    .dumpConnection dumpPath else .dump database dumpPath)
  create : readCommand commands.create = some (.create restoreDatabase)
  restore : readCommand commands.restore = some (.restore restoreDatabase dumpPath)
  drop : readCommand commands.drop = some (.drop restoreDatabase)
  cleanupDump : readCommand commands.cleanupDump = some (.remove dumpPath)

theorem readTool_remove {file : String} (hflag : isFlag file = false) :
    readTool ["rm", "-f", file] = some (.remove file) := by
  show (if isFlag file then none else some (Action.remove file)) = _
  rw [hflag]
  rfl

theorem readCommand_docker {container : String} (hflag : isFlag container = false)
    (words : List String) : readCommand (dockerCommand container words) = readTool words := by
  simp [readCommand, dockerCommand, hflag]

theorem means_commands (url : DatabaseUrl) (username database : String)
    {restoreDatabase dumpPath : String} {dockerContainer : Option String}
    (hrestore : isFlag restoreDatabase = false) (hdump : isFlag dumpPath = false)
    (hcontainer : ∀ container, dockerContainer = some container → isFlag container = false) :
    Means (commands url username database restoreDatabase dumpPath dockerContainer) database
      restoreDatabase dumpPath := by
  unfold commands
  split
  next container htruthy =>
    have hflag : isFlag container = false := hcontainer container (by
      cases dockerContainer with
      | none => cases htruthy
      | some name => exact (Option.filter_eq_some_iff.mp htruthy).1)
    have hconnects : Connects ["-U", username] := connects_option rfl rfl rfl username
    constructor
    · rw [readCommand_docker hflag]
      exact readTool_dump hconnects rfl database dumpPath
    · rw [readCommand_docker hflag]
      exact readTool_create hconnects hrestore
    · rw [readCommand_docker hflag]
      exact readTool_restore hconnects rfl restoreDatabase hdump
    · rw [readCommand_docker hflag]
      exact readTool_drop hconnects hrestore
    · rw [readCommand_docker hflag]
      exact readTool_remove hdump
  next htruthy =>
    have hconnects := connects_localClientEnvironment url
    constructor
    · exact readTool_dump hconnects rfl database dumpPath
    · exact readTool_create hconnects hrestore
    · exact readTool_restore hconnects rfl restoreDatabase hdump
    · exact readTool_drop hconnects hrestore
    · exact readTool_remove hdump

end ProdkitStorage.Backup

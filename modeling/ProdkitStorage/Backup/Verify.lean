import ProdkitStorage.Backup.Commands
import ProdkitStorage.Foundation.Program

/-!
# Verification of a backup

`verify` of `ops/backup/verify_postgres_backup.py`: it dumps a database, restores the dump into a
new database and compares the numbers of rows, and its `finally` block drops the new database,
when it was created, and removes the dump.

The programs it runs may fail at every place, after they did their work, in the middle of it or
before.  They and the connections of the URL work on one server, unless the query of the URL leads
elsewhere.  What `pg_dump` writes of a database, and what `pg_restore` makes of a dump, are
relations: that the two fit together is what the verification is to find out.
-/

namespace ProdkitStorage.Backup

open ProdkitStorage.Foundation
open ProdkitStorage.Foundation.Program

/-- A relation of a database, with the number of its rows. -/
structure Relation where
  schema : String
  name : String
  kind : Char
  rows : Nat

abbrev Database := List Relation

/-- `_table_counts`, over the content of the database. -/
def tableCounts (content : Database) (schema : String) : List (String × Nat) :=
  (content.filter fun relation =>
    relation.schema == schema && (relation.kind == 'r' || relation.kind == 'p')).map
      fun relation => (relation.name, relation.rows)

/-- `==` of two `dict`s. -/
def sameCounts (first second : List (String × Nat)) : Bool :=
  first.all (fun item => second.lookup item.1 == some item.2) &&
    second.all (fun item => first.lookup item.1 == some item.2)

/-! ## The server and the client programs -/

/-- The databases of the server, and the dumps in the file system of its client programs. -/
structure World (Dump : Type) where
  databases : String → Option Database
  files : String → Option Dump

namespace World

variable {Dump : Type}

def setDatabase (s : World Dump) (name : String) (content : Option Database) : World Dump :=
  { s with databases := Function.update s.databases name content }

def setFile (s : World Dump) (name : String) (dump : Option Dump) : World Dump :=
  { s with files := Function.update s.files name dump }

end World

/-- What the verifier calls. -/
inductive Call where
  /-- `secrets.token_hex`. -/
  | tokenHex (bytes : Nat)
  /-- `_run`, with the password in the environment. -/
  | run (command : List String) (password : Option String)
  /-- `_table_counts`. -/
  | tableCounts (url : DatabaseUrl) (schema : String)

/-- What a call returns. -/
abbrev Reply : Call → Type
  | .tokenHex _ => String
  | .run _ _ => Unit
  | .tableCounts _ _ => List (String × Nat)

inductive VerifyError where
  | valueError (message : String)
  | runtimeError (source restored : List (String × Nat))
  /-- A program or a connection failed. -/
  | failed (reason : String)

/-- How the client programs work. -/
structure Tools (Dump : Type) where
  dumps : Database → Dump → Prop
  restores : Dump → Database → Prop
  /-- `dropdb` and `rm` do not fail, and a `createdb` that fails has created nothing. -/
  tidy : Bool

variable {Dump : Type} (tools : Tools Dump)

/-- A client program returns. -/
inductive Performs : Action → World Dump → World Dump → Prop where
  | dump {s : World Dump} {database file : String} {content : Database} {dump : Dump} :
      s.databases database = some content → tools.dumps content dump →
      Performs (.dump database file) s (s.setFile file (some dump))
  | dumpConnection (s : World Dump) (file : String) (dump : Dump) :
      Performs (.dumpConnection file) s (s.setFile file (some dump))
  | create {s : World Dump} {name : String} (content : Database) :
      s.databases name = none → Performs (.create name) s (s.setDatabase name (some content))
  | restore {s : World Dump} {database file : String} {before content : Database} {dump : Dump} :
      s.databases database = some before → s.files file = some dump →
      tools.restores dump content →
      Performs (.restore database file) s (s.setDatabase database (some content))
  | drop (s : World Dump) (name : String) : Performs (.drop name) s (s.setDatabase name none)
  | remove (s : World Dump) (file : String) : Performs (.remove file) s (s.setFile file none)

/-- A client program fails. -/
inductive Fails : Action → World Dump → World Dump → Prop where
  | dump (s : World Dump) (database file : String) (written : Option Dump) :
      Fails (.dump database file) s (s.setFile file written)
  | dumpConnection (s : World Dump) (file : String) (written : Option Dump) :
      Fails (.dumpConnection file) s (s.setFile file written)
  | create (s : World Dump) (name : String) : Fails (.create name) s s
  | created {s : World Dump} {name : String} (content : Database) : tools.tidy = false →
      s.databases name = none → Fails (.create name) s (s.setDatabase name (some content))
  | restore (s : World Dump) (database file : String) : Fails (.restore database file) s s
  | restored {s : World Dump} {database file : String} {before : Database} (content : Database) :
      s.databases database = some before →
      Fails (.restore database file) s (s.setDatabase database (some content))
  | drop (s : World Dump) (name : String) : tools.tidy = false → Fails (.drop name) s s
  | dropped (s : World Dump) (name : String) : tools.tidy = false →
      Fails (.drop name) s (s.setDatabase name none)
  | remove (s : World Dump) (file : String) : tools.tidy = false → Fails (.remove file) s s
  | removed (s : World Dump) (file : String) : tools.tidy = false →
      Fails (.remove file) s (s.setFile file none)

/-- How the calls are answered. -/
inductive Serves : World Dump → (call : Call) → Except VerifyError (Reply call) → World Dump → Prop
    where
  | tokenHex (s : World Dump) (bytes : Nat) (token : String) :
      Serves s (.tokenHex bytes) (.ok token) s
  | run {s t : World Dump} {command : List String} {action : Action} (password : Option String) :
      readCommand command = some action → Performs tools action s t →
      Serves s (.run command password) (.ok ()) t
  | runFails {s t : World Dump} {command : List String} {action : Action}
      (password : Option String) (reason : String) :
      readCommand command = some action → Fails tools action s t →
      Serves s (.run command password) (.error (.failed reason)) t
  | refuses {s : World Dump} {command : List String} (password : Option String) (reason : String) :
      readCommand command = none → Serves s (.run command password) (.error (.failed reason)) s
  | tableCounts {s : World Dump} {url : DatabaseUrl} {name : String} {content : Database}
      (schema : String) : url.redirects = false → url.database = some name →
      s.databases name = some content →
      Serves s (.tableCounts url schema) (.ok (tableCounts content schema)) s
  | tableCountsElsewhere (s : World Dump) {url : DatabaseUrl} (schema : String)
      (content : Database) : url.redirects = true →
      Serves s (.tableCounts url schema) (.ok (tableCounts content schema)) s
  | tableCountsFails (s : World Dump) (url : DatabaseUrl) (schema reason : String) :
      Serves s (.tableCounts url schema) (.error (.failed reason)) s

/-! ## The verifier -/

/-- A program that makes these calls. -/
abbrev Code (α : Type) := Program Call Reply VerifyError α

def ask (call : Call) : Code (Reply call) := perform call

/-- `_connection_parts`. -/
def connectionParts (url : DatabaseUrl) : Except VerifyError (String × String) :=
  match url.username, url.database with
  | some username, some database => .ok (username, database)
  | _, _ => .error (.valueError "database URL must contain a username and database name")

/-- `_url_with_database`. -/
def urlWithDatabase (url : DatabaseUrl) (database : String) : DatabaseUrl :=
  { url with database := some database }

/-- What the verifier returns; `healthy` is true. -/
structure Report where
  schema : String
  tables : List (String × Nat)
  restoreDatabase : String

/-- The `finally` block, after the outcome of the block before it. -/
def finally_ (commands : Commands) (created : Bool) (outcome : Except VerifyError Report) :
    Code Report :=
  (if created then ask (.run commands.drop commands.password) else pure ()) >>= fun _ =>
    ask (.run commands.cleanupDump commands.password) >>= fun _ => .done outcome

/-- The `try` block after `created = True`. -/
def restoreAndCompare (url : DatabaseUrl) (schema restoreDatabase : String) (commands : Commands) :
    Code Report := do
  ask (.run commands.restore commands.password)
  let sourceCounts ← ask (.tableCounts url schema)
  let restoredCounts ← ask (.tableCounts (urlWithDatabase url restoreDatabase) schema)
  if sameCounts sourceCounts restoredCounts then
    return { schema, tables := sourceCounts, restoreDatabase }
  else .done (.error (.runtimeError sourceCounts restoredCounts))

/-- The `try` block with its `finally`. -/
def dumpAndRestore (url : DatabaseUrl) (schema restoreDatabase : String) (commands : Commands) :
    Code Report :=
  (ask (.run commands.dump commands.password)).andThen fun dumped =>
    match dumped with
    | .error e => finally_ commands false (.error e)
    | .ok _ => (ask (.run commands.create commands.password)).andThen fun created =>
        match created with
        | .error e => finally_ commands false (.error e)
        | .ok _ =>
            (restoreAndCompare url schema restoreDatabase commands).andThen fun outcome =>
              finally_ commands true outcome

def restoreName (token : String) : String := "prodkit_restore_" ++ token

def dumpName (token : String) : String := "/tmp/prodkit-storage-" ++ token ++ ".dump"

/-- `verify`. -/
def verify (url : DatabaseUrl) (schema : String) (dockerContainer : Option String) :
    Code Report := do
  let parts ← .done (connectionParts url)
  let restoreToken ← ask (.tokenHex 6)
  let dumpToken ← ask (.tokenHex 6)
  dumpAndRestore url schema (restoreName restoreToken)
    (commands url parts.1 parts.2 (restoreName restoreToken) (dumpName dumpToken) dockerContainer)

/-! ## What the calls do -/

variable {tools}

theorem exec_run {command : List String} {password : Option String} {action : Action}
    (hread : readCommand command = some action) {s t : World Dump} {reply : Except VerifyError Unit}
    (h : Exec (Serves tools) (ask (.run command password)) s reply t) :
    (reply = .ok () ∧ Performs tools action s t) ∨
      (∃ e, reply = .error e) ∧ Fails tools action s t := by
  cases exec_perform.mp h with
  | run _ hread' hperforms =>
      cases hread.symm.trans hread'
      exact .inl ⟨rfl, hperforms⟩
  | runFails _ reason hread' hfails =>
      cases hread.symm.trans hread'
      exact .inr ⟨⟨_, rfl⟩, hfails⟩
  | refuses _ reason hread' => cases hread.symm.trans hread'

/-- A connection that goes where the command lines go counts the rows of the database. -/
theorem serves_counts {url : DatabaseUrl} (hdirect : url.redirects = false) {schema : String}
    {s t : World Dump} {counts : List (String × Nat)}
    (h : Serves tools s (.tableCounts url schema) (.ok counts) t) :
    ∃ name content, url.database = some name ∧ s.databases name = some content ∧
      counts = tableCounts content schema ∧ t = s := by
  cases h with
  | tableCounts _ _ hname hcontent => exact ⟨_, _, hname, hcontent, rfl, rfl⟩
  | tableCountsElsewhere _ _ hredirects => exact absurd (hdirect.symm.trans hredirects) (by simp)

/-- The database and the file that an action changes. -/
def Action.Changes (database file : String) : Action → Prop
  | .dump _ name => name = file
  | .dumpConnection name => name = file
  | .create name => name = database
  | .restore name _ => name = database
  | .drop name => name = database
  | .remove name => name = file

/-- A call changes no other database and no other file. -/
def Call.Changes (database file : String) : Call → Prop
  | .run command _ => ∃ action, readCommand command = some action ∧ action.Changes database file
  | _ => True

/-- All the other databases and files are as they were. -/
def Apart (database file : String) (s t : World Dump) : Prop :=
  (∀ name, name ≠ database → t.databases name = s.databases name) ∧
    ∀ name, name ≠ file → t.files name = s.files name

section Apart

variable {database file : String} {s t : World Dump}

theorem Apart.refl : Apart database file s s := ⟨fun _ _ => rfl, fun _ _ => rfl⟩

theorem Apart.setDatabase (h : Apart database file s t) (content : Option Database) :
    Apart database file s (t.setDatabase database content) :=
  ⟨fun name hname => (Function.update_of_ne hname _ _).trans (h.1 name hname), h.2⟩

theorem Apart.setFile (h : Apart database file s t) (dump : Option Dump) :
    Apart database file s (t.setFile file dump) :=
  ⟨h.1, fun name hname => (Function.update_of_ne hname _ _).trans (h.2 name hname)⟩

theorem Performs.apart {action : Action} {u : World Dump} (h : Performs tools action t u)
    (hchanges : action.Changes database file) (hapart : Apart database file s t) :
    Apart database file s u := by
  cases h <;> cases hchanges <;> first | exact hapart.setFile _ | exact hapart.setDatabase _

theorem Fails.apart {action : Action} {u : World Dump} (h : Fails tools action t u)
    (hchanges : action.Changes database file) (hapart : Apart database file s t) :
    Apart database file s u := by
  cases h <;> cases hchanges <;>
    first | exact hapart | exact hapart.setFile _ | exact hapart.setDatabase _

theorem Serves.apart {call : Call} {reply : Except VerifyError (Reply call)} {u : World Dump}
    (h : Serves tools t call reply u) (hchanges : call.Changes database file)
    (hapart : Apart database file s t) : Apart database file s u := by
  cases h with
  | run _ hread hperforms =>
      obtain ⟨action, hread', hchanges⟩ := hchanges
      cases hread.symm.trans hread'
      exact hperforms.apart hchanges hapart
  | runFails _ _ hread hfails =>
      obtain ⟨action, hread', hchanges⟩ := hchanges
      cases hread.symm.trans hread'
      exact hfails.apart hchanges hapart
  | _ => exact hapart

end Apart

/-! ## What a verification does -/

section Verification

variable {commands : Commands} {source restoreDatabase dumpPath : String}
  (hmeans : Means commands source restoreDatabase dumpPath) {url : DatabaseUrl} {schema : String}
include hmeans

theorem calls_finally (created : Bool) (outcome : Except VerifyError Report) :
    (finally_ commands created outcome).Calls (Call.Changes restoreDatabase dumpPath) := by
  unfold finally_
  have hcleanup : (ask (.run commands.cleanupDump commands.password)).Calls
      (Call.Changes restoreDatabase dumpPath) := .perform ⟨_, hmeans.cleanupDump, rfl⟩
  refine .bind ?_ fun _ => hcleanup.bind fun _ => trivial
  split
  · exact .perform ⟨_, hmeans.drop, rfl⟩
  · trivial

theorem calls_dumpAndRestore :
    (dumpAndRestore url schema restoreDatabase commands).Calls
      (Call.Changes restoreDatabase dumpPath) := by
  have hdump : ∀ action, readCommand commands.dump = some action →
      action.Changes restoreDatabase dumpPath := by
    intro action haction
    rw [hmeans.dump] at haction
    cases haction
    split <;> rfl
  refine .andThen (.perform ⟨_, hmeans.dump, hdump _ hmeans.dump⟩) fun dumped => ?_
  cases dumped with
  | error e => exact calls_finally hmeans _ _
  | ok _ =>
      refine .andThen (.perform ⟨_, hmeans.create, rfl⟩) fun created => ?_
      cases created with
      | error e => exact calls_finally hmeans _ _
      | ok _ =>
          refine .andThen ?_ fun outcome => calls_finally hmeans _ _
          refine .bind (.perform ⟨_, hmeans.restore, rfl⟩) fun _ =>
            .bind (.perform trivial) fun _ =>
            .bind (.perform trivial) fun _ => ?_
          split <;> trivial

/-- The removal of the dump. -/
theorem exec_cleanup {outcome result : Except VerifyError Report} {s t : World Dump}
    (h : Exec (Serves tools) (ask (.run commands.cleanupDump commands.password) >>= fun _ =>
      .done outcome) s result t) :
    t.databases = s.databases ∧
      ((result = outcome ∧ t.files dumpPath = none) ∨
        tools.tidy = false ∧ ∃ e, result = .error e) := by
  rcases exec_bind.mp h with ⟨e, hrun, rfl⟩ | ⟨_, u, hrun, hend⟩
  · rcases exec_run hmeans.cleanupDump hrun with ⟨hreply, -⟩ | ⟨-, hfails⟩
    · cases hreply
    · cases hfails with
      | remove _ _ htidy => exact ⟨rfl, .inr ⟨htidy, e, rfl⟩⟩
      | removed _ _ htidy => exact ⟨rfl, .inr ⟨htidy, e, rfl⟩⟩
  · obtain ⟨rfl, rfl⟩ := exec_done.mp hend
    rcases exec_run hmeans.cleanupDump hrun with ⟨-, hperforms⟩ | ⟨⟨e, hreply⟩, -⟩
    · cases hperforms
      exact ⟨rfl, .inl ⟨rfl, Function.update_self _ _ _⟩⟩
    · cases hreply

/-- The `finally` block: it cleans up, or one of its programs failed. -/
theorem exec_finally {created : Bool} {outcome result : Except VerifyError Report}
    {s t : World Dump} (h : Exec (Serves tools) (finally_ commands created outcome) s result t) :
    (created = false → t.databases = s.databases) ∧
      ((result = outcome ∧ t.files dumpPath = none ∧
          (created = true → t.databases restoreDatabase = none)) ∨
        tools.tidy = false ∧ ∃ e, result = .error e) := by
  rw [finally_] at h
  cases created with
  | false =>
      rcases exec_bind.mp h with ⟨e, hpure, -⟩ | ⟨_, u, hpure, hcleanup⟩
      · cases (exec_done.mp hpure).1
      · obtain ⟨-, rfl⟩ := exec_done.mp hpure
        obtain ⟨hsame, hend⟩ := exec_cleanup hmeans hcleanup
        refine ⟨fun _ => hsame, hend.imp_left fun ⟨hresult, hfile⟩ => ?_⟩
        exact ⟨hresult, hfile, by simp⟩
  | true =>
      refine ⟨(by simp), ?_⟩
      rcases exec_bind.mp h with ⟨e, hdrop, rfl⟩ | ⟨_, u, hdrop, hcleanup⟩
      · rcases exec_run hmeans.drop hdrop with ⟨hreply, -⟩ | ⟨-, hfails⟩
        · cases hreply
        · cases hfails with
          | drop _ _ htidy => exact .inr ⟨htidy, e, rfl⟩
          | dropped _ _ htidy => exact .inr ⟨htidy, e, rfl⟩
      · obtain ⟨hsame, hend⟩ := exec_cleanup hmeans hcleanup
        refine hend.imp_left fun ⟨hresult, hfile⟩ => ⟨hresult, hfile, fun _ => ?_⟩
        rcases exec_run hmeans.drop hdrop with ⟨-, hperforms⟩ | ⟨⟨e, hreply⟩, -⟩
        · cases hperforms
          rw [hsame]
          exact Function.update_self _ _ _
        · cases hreply

variable (tools) in
/-- What the report of a verification stands for: a dump of the source, restored, has the number of
rows of the source in every table. -/
def Compared (url : DatabaseUrl) (schema restoreDatabase : String) (s : World Dump)
    (report : Report) : Prop :=
  ∃ name content dump restored, url.database = some name ∧ s.databases name = some content ∧
    tools.dumps content dump ∧ tools.restores dump restored ∧
    report = { schema, tables := tableCounts content schema, restoreDatabase } ∧
    sameCounts (tableCounts content schema) (tableCounts restored schema) = true

variable (tools) in
/-- How a verification may end. -/
structure Verified (url : DatabaseUrl) (schema restoreDatabase dumpPath : String) (s : World Dump)
    (result : Except VerifyError Report) (t : World Dump) : Prop where
  /-- Everything else is as it was. -/
  apart : Apart restoreDatabase dumpPath s t
  /-- A database that was there stays, also when it has the name of the new one. -/
  kept : ∀ content, s.databases restoreDatabase = some content →
    t.databases restoreDatabase = some content
  tidied : tools.tidy = true →
    t.databases restoreDatabase = s.databases restoreDatabase ∧ t.files dumpPath = none
  returned : ∀ report, result = .ok report → t.databases restoreDatabase = none ∧
    t.files dumpPath = none ∧ Compared tools url schema restoreDatabase s report

theorem exec_restoreAndCompare (hdirect : url.redirects = false) {report : Report} {dump : Dump}
    {s t : World Dump}
    (hdump : s.files dumpPath = some dump)
    (h : Exec (Serves tools) (restoreAndCompare url schema restoreDatabase commands) s
      (.ok report) t) :
    ∃ name content restored, url.database = some name ∧
      (s.setDatabase restoreDatabase (some restored)).databases name = some content ∧
      tools.restores dump restored ∧
      report = { schema, tables := tableCounts content schema, restoreDatabase } ∧
      sameCounts (tableCounts content schema) (tableCounts restored schema) = true := by
  rcases exec_bind.mp h with ⟨e, -, herror⟩ | ⟨_, u, hrestore, hcounts⟩
  · cases herror
  rcases exec_run hmeans.restore hrestore with ⟨-, hperforms⟩ | ⟨⟨e, hreply⟩, -⟩
  · cases hperforms with
    | @restore _ _ _ before restored dump' hbefore hfile hrestores =>
        obtain rfl : dump = dump' := Option.some.inj (hdump.symm.trans hfile)
        rcases exec_bind.mp hcounts with ⟨e, -, herror⟩ | ⟨sourceCounts, v, hsource, hcompare⟩
        · cases herror
        rcases exec_bind.mp hcompare with ⟨e, -, herror⟩ | ⟨restoredCounts, w, hrestored, hend⟩
        · cases herror
        obtain ⟨name, content, hname, hcontent, rfl, rfl⟩ :=
          serves_counts hdirect (exec_perform.mp hsource)
        have hdirect' : (urlWithDatabase url restoreDatabase).redirects = false := hdirect
        obtain ⟨name', content', hname', hcontent', rfl, rfl⟩ :=
          serves_counts hdirect' (exec_perform.mp hrestored)
        obtain rfl : restoreDatabase = name' := Option.some.inj hname'
        obtain rfl : restored = content' := by
          simpa [World.setDatabase] using hcontent'
        cases hsame : sameCounts (tableCounts content schema) (tableCounts restored schema) with
        | false =>
            rw [hsame] at hend
            cases (exec_done.mp hend).1
        | true =>
            rw [hsame] at hend
            cases (exec_done.mp hend).1
            exact ⟨name, content, restored, hname, hcontent, hrestores, rfl, hsame⟩
  · cases hreply

theorem exec_dumpAndRestore (hplain : isConnectionString source = false)
    (hurl : url.database = some source) (hdirect : url.redirects = false) {s t : World Dump}
    {result : Except VerifyError Report}
    (h : Exec (Serves tools) (dumpAndRestore url schema restoreDatabase commands) s result t) :
    Verified tools url schema restoreDatabase dumpPath s result t := by
  have hapart : Apart restoreDatabase dumpPath s t :=
    (calls_dumpAndRestore hmeans).keeps (I := Apart restoreDatabase dumpPath s)
      (fun _ _ _ _ hchanges hs hserves => hserves.apart hchanges hs) h .refl
  have hread := hmeans.dump
  rw [hplain] at hread
  -- Until `createdb` has returned, the databases are as they were, or it was not tidy.
  have hearly : ∀ {u : World Dump} {e : VerifyError},
      (∀ content, s.databases restoreDatabase = some content →
        u.databases restoreDatabase = some content) →
      (tools.tidy = true → u.databases restoreDatabase = s.databases restoreDatabase) →
      Exec (Serves tools) (finally_ commands false (.error e)) u result t →
      Verified tools url schema restoreDatabase dumpPath s result t := by
    intro u e hkept htidied hfinally
    obtain ⟨hsame, hend⟩ := exec_finally hmeans hfinally
    have hsame := hsame rfl
    refine ⟨hapart, fun content hcontent => ?_, fun htidy => ?_, fun report hreport => ?_⟩
    · rw [hsame]
      exact hkept content hcontent
    · rcases hend with ⟨-, hfile, -⟩ | ⟨huntidy, -⟩
      · exact ⟨by rw [hsame, htidied htidy], hfile⟩
      · rw [htidy] at huntidy
        cases huntidy
    · rcases hend with ⟨hresult, -, -⟩ | ⟨-, e', hresult⟩ <;> cases hreport.symm.trans hresult
  obtain ⟨dumped, u, hdumped, hrest⟩ := exec_andThen.mp h
  rcases exec_run hread hdumped with ⟨rfl, hperforms⟩ | ⟨⟨e, rfl⟩, hfails⟩
  · cases hperforms with
    | @dump _ _ _ content dump hcontent hdumps =>
        obtain ⟨created, v, hcreated, hrest⟩ := exec_andThen.mp hrest
        rcases exec_run hmeans.create hcreated with ⟨rfl, hperforms⟩ | ⟨⟨e, rfl⟩, hfails⟩
        · cases hperforms with
          | create template hnone =>
              obtain ⟨outcome, w, hbody, hfinally⟩ := exec_andThen.mp hrest
              obtain ⟨-, hend⟩ := exec_finally hmeans hfinally
              refine ⟨hapart, fun content hkept => ?_, fun htidy => ?_, fun report hreport => ?_⟩
              · exact absurd (hnone.symm.trans hkept) (by simp)
              · rcases hend with ⟨-, hfile, hdropped⟩ | ⟨huntidy, -⟩
                · exact ⟨(hdropped rfl).trans hnone.symm, hfile⟩
                · rw [huntidy] at htidy
                  cases htidy
              · rcases hend with ⟨hresult, hfile, hdropped⟩ | ⟨-, e', hresult⟩
                · obtain rfl := hresult.symm.trans hreport
                  obtain ⟨name, found, restored, hname, hfound, hrestores, hreport', hsame⟩ :=
                    exec_restoreAndCompare hmeans hdirect (Function.update_self _ _ _) hbody
                  obtain rfl : source = name := Option.some.inj (hurl.symm.trans hname)
                  have hother : source ≠ restoreDatabase := by
                    rintro rfl
                    exact absurd (hnone.symm.trans hcontent) (by simp)
                  have hsource : s.databases source = some found := by
                    simpa [World.setDatabase, World.setFile, hother] using hfound
                  obtain rfl : content = found := Option.some.inj (hcontent.symm.trans hsource)
                  exact ⟨hdropped rfl, hfile, source, content, dump, restored, hurl, hcontent,
                    hdumps, hrestores, hreport', hsame⟩
                · cases hreport.symm.trans hresult
        · cases hfails with
          | create =>
              exact hearly (u := s.setFile dumpPath (some dump)) (e := e) (fun _ hkept => hkept)
                (fun _ => rfl) hrest
          | created template huntidy hnone =>
              refine hearly (u := (s.setFile dumpPath (some dump)).setDatabase restoreDatabase
                (some template)) (e := e) (fun content hkept => ?_) (fun htidy => ?_) hrest
              · exact absurd (hnone.symm.trans hkept) (by simp)
              · rw [huntidy] at htidy
                cases htidy
  · cases hfails with
    | dump _ _ _ written =>
        exact hearly (u := s.setFile dumpPath written) (e := e) (fun _ hkept => hkept)
          (fun _ => rfl) hrest

end Verification

theorem isFlag_append {first : String} {c : Char} (hfirst : first.toList.head? = some c)
    (hc : c ≠ '-') (rest : String) : isFlag (first ++ rest) = false := by
  rw [isFlag, String.toList_append, List.head?_append, hfirst]
  simpa using hc

theorem isFlag_restoreName (token : String) : isFlag (restoreName token) = false :=
  isFlag_append (c := 'p') rfl (by decide) token

theorem isFlag_dumpName (token : String) : isFlag (dumpName token) = false := by
  have happend : dumpName token = "/tmp/prodkit-storage-" ++ (token ++ ".dump") :=
    String.append_assoc
  have hfirst : "/tmp/prodkit-storage-".toList.head? = some '/' := by simp
  rw [happend]
  exact isFlag_append hfirst (by decide) _

/-- The names that the verifier takes. -/
def Named (restoreDatabase dumpPath : String) : Prop :=
  (∃ token, restoreDatabase = restoreName token) ∧ ∃ token, dumpPath = dumpName token

/-- A verification where nothing fails, and the dump is as good as the database. -/
theorem exec_healthy (restoreToken dumpToken : String) {url : DatabaseUrl}
    {schema username database : String}
    (husername : url.username = some username) (hurl : url.database = some database)
    (hdirect : url.redirects = false) (hdatabase : isConnectionString database = false)
    {s : World Dump} {content restored : Database}
    {dump : Dump} (hcontent : s.databases database = some content)
    (hnew : s.databases (restoreName restoreToken) = none) (hdumps : tools.dumps content dump)
    (hrestores : tools.restores dump restored)
    (hsame : sameCounts (tableCounts content schema) (tableCounts restored schema) = true) :
    ∃ t, Exec (Serves tools) (verify url schema none) s
      (.ok ⟨schema, tableCounts content schema, restoreName restoreToken⟩) t := by
  have hmeans : Means (commands url username database (restoreName restoreToken)
      (dumpName dumpToken) none) database (restoreName restoreToken) (dumpName dumpToken) :=
    means_commands url username database (isFlag_restoreName restoreToken)
      (isFlag_dumpName dumpToken) (by simp)
  have hdump := hmeans.dump
  rw [hdatabase] at hdump
  have hparts : connectionParts url = .ok (username, database) := by
    simp [connectionParts, husername, hurl]
  have hother : database ≠ restoreName restoreToken := by
    rintro rfl
    exact absurd (hnew.symm.trans hcontent) (by simp)
  let created := (s.setFile (dumpName dumpToken) (some dump)).setDatabase
    (restoreName restoreToken) (some [])
  let full := created.setDatabase (restoreName restoreToken) (some restored)
  let clean := (full.setDatabase (restoreName restoreToken) none).setFile (dumpName dumpToken) none
  refine ⟨clean, .checked hparts (.onward (exec_perform.mpr (.tokenHex s 6 restoreToken))
    (.onward (exec_perform.mpr (.tokenHex s 6 dumpToken)) ?_))⟩
  refine exec_andThen.mpr ⟨.ok (), _, exec_perform.mpr (.run _ hdump (.dump hcontent hdumps)), ?_⟩
  refine exec_andThen.mpr ⟨.ok (), created,
    exec_perform.mpr (.run _ hmeans.create (.create [] hnew)), ?_⟩
  refine exec_andThen.mpr ⟨.ok ⟨schema, tableCounts content schema, restoreName restoreToken⟩, full,
    ?_, .onward (exec_perform.mpr (.run _ hmeans.drop (.drop _ _)))
      (.onward (exec_perform.mpr (.run _ hmeans.cleanupDump (.remove _ _))) (.done _ _))⟩
  refine .onward (t := full) (exec_perform.mpr (.run _ hmeans.restore
    (.restore (Function.update_self _ _ _) (Function.update_self _ _ _) hrestores))) ?_
  have hfound : full.databases database = some content := by
    simp [full, created, World.setDatabase, World.setFile, hother, hcontent]
  refine .onward (exec_perform.mpr (.tableCounts schema hdirect hurl hfound)) ?_
  refine .onward (exec_perform.mpr
    (.tableCounts schema hdirect rfl (Function.update_self _ _ _))) ?_
  rw [hsame]
  exact .done _ _

/-- **A verification leaves the server as it was**, and its report can be relied upon: it raised
for the URL and did nothing, or it ended as `Verified` says. -/
theorem backup_verification (url : DatabaseUrl) (schema : String) (dockerContainer : Option String)
    (hcontainer : ∀ container, dockerContainer = some container → isFlag container = false)
    (hdatabase : ∀ database, url.database = some database → isConnectionString database = false)
    (hdirect : url.redirects = false) {s t : World Dump} {result : Except VerifyError Report}
    (h : Exec (Serves tools) (verify url schema dockerContainer) s result t) :
    ((∃ e, connectionParts url = .error e ∧ result = .error e) ∧ t = s) ∨
      ∃ restoreDatabase dumpPath, Named restoreDatabase dumpPath ∧
        Verified tools url schema restoreDatabase dumpPath s result t := by
  rcases exec_bind.mp h with ⟨e, hparts, rfl⟩ | ⟨⟨username, database⟩, u, hparts, hrest⟩
  · obtain ⟨herror, rfl⟩ := exec_done.mp hparts
    exact .inl ⟨⟨e, herror.symm, rfl⟩, rfl⟩
  obtain ⟨hok, rfl⟩ := exec_done.mp hparts
  have hurl : url.database = some database := by
    unfold connectionParts at hok
    split at hok
    next username' database' husername hname =>
      rw [hname, (Prod.mk.inj (Except.ok.inj hok)).2]
    next => cases hok
  rcases exec_bind.mp hrest with ⟨e, htoken, -⟩ | ⟨restoreToken, v, htoken, hrest⟩
  · cases exec_perform.mp htoken
  cases exec_perform.mp htoken
  rcases exec_bind.mp hrest with ⟨e, htoken, -⟩ | ⟨dumpToken, v, htoken, hrest⟩
  · cases exec_perform.mp htoken
  cases exec_perform.mp htoken
  have hmeans := means_commands url username database (isFlag_restoreName restoreToken)
    (isFlag_dumpName dumpToken) hcontainer
  exact .inr ⟨_, _, ⟨⟨restoreToken, rfl⟩, ⟨dumpToken, rfl⟩⟩,
    exec_dumpAndRestore hmeans (hdatabase database hurl) hurl hdirect hrest⟩

/-- Tools that keep everything, and a server with one database. -/
def faithfulTools : Tools Database := ⟨Eq, Eq, true⟩

def appUrl : DatabaseUrl where
  host := none
  port := none
  username := some "app"
  password := none
  database := some "app"
  query := [("sslmode", "require")]

def items : Database := [⟨"public", "items", 'r', 3⟩]

def appServer : World Database where
  databases name := if name = "app" then some items else none
  files _ := none

theorem backup_verification_healthy :
    ∃ (t : World Database) (report : Report),
      Exec (Serves faithfulTools) (verify appUrl "public" none) appServer (.ok report) t ∧
      ((∃ e, connectionParts appUrl = .error e ∧ Except.ok report = .error e) ∧ t = appServer ∨
        ∃ restoreDatabase dumpPath, Named restoreDatabase dumpPath ∧
          Verified faithfulTools appUrl "public" restoreDatabase dumpPath appServer
            (.ok report) t) := by
  obtain ⟨t, hrun⟩ : ∃ t, Exec (Serves faithfulTools) (verify appUrl "public" none) appServer
      (.ok ⟨"public", tableCounts items "public", restoreName "0a"⟩) t :=
    exec_healthy "0a" "0b" rfl rfl (by decide) (by decide) rfl (by decide) (Eq.refl items)
      (Eq.refl items) (by decide)
  exact ⟨t, _, hrun, backup_verification _ _ _ (by simp)
    (fun database hdatabase => by cases hdatabase; decide) (by decide) hrun⟩

end ProdkitStorage.Backup

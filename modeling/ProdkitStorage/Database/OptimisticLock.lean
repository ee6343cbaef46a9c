import ProdkitStorage.Foundation.Transition
import ProdkitStorage.Foundation.Truth

/-!
# Optimistic locking

Rows of a model with `OptimisticLockMixin` of `database/base.py`, and the sessions that
write them through `update` and `bulk_update` of `database/repository.py`.  The
database is read committed: a session sees the committed rows and its own writes, and a
row that a transaction wrote is locked until it ends.  A flush compares and raises
`version_id_col`; an `UPDATE` statement writes the columns it is given.  The session
factories set `expire_on_commit=False`, so an entity outlives a commit with the
version it was loaded at.

`Overtaken` says that another session committed a write to a row after an entity was
loaded from it.  `Behind` is what then keeps a flush of the entity from succeeding: the
version of the row is ahead of the entity's.
-/

namespace ProdkitStorage.Database.OptimisticLock

open ProdkitStorage.Foundation (System Truth)

variable {ι Id Value : Type}

/-! ## Rows and sessions -/

/-- A row of a model with `OptimisticLockMixin`. -/
structure Row (Value : Type) where
  version : Int
  values : String → Value

/-- An item of `values` of `bulk_update`: a column and what is written to it, which may read the
row. -/
inductive Assignment (Value : Type) where
  | column (name : String) (value : Row Value → Value)
  | version (value : Row Value → Int)

/-- One column of a row is written. -/
def Assignment.apply (row : Row Value) (written : Row Value) : Assignment Value → Row Value
  | .column name value =>
      { written with
        values := fun other => if other = name then value row else written.values other }
  | .version value => { written with version := value row }

/-- `SET` of an `UPDATE`: every expression reads the row as it was. -/
def Row.assign (row : Row Value) (values : List (Assignment Value)) : Row Value :=
  values.foldl (Assignment.apply row) row

/-- An entity in the identity map of a session. -/
structure Entity (Value : Type) where
  /-- The row as it is in memory, with the version it was loaded or flushed at. -/
  row : Row Value
  /-- The attributes that were set since. -/
  modified : List String

/-- A session, with its transaction. -/
structure Session (Id Value : Type) where
  /-- The rows it wrote and has not committed. -/
  written : Id → Option (Row Value)
  loaded : Id → Option (Entity Value)

/-- A session that has done nothing. -/
def Session.fresh : Session Id Value := ⟨fun _ => none, fun _ => none⟩

/-- The committed rows and the sessions. -/
structure State (ι Id Value : Type) where
  rows : Id → Option (Row Value)
  session : ι → Session Id Value

/-- The row as a session sees it. -/
def State.visible (s : State ι Id Value) (i : ι) (id : Id) : Option (Row Value) :=
  ((s.session i).written id).or (s.rows id)

/-- No other transaction holds the row. -/
def State.Free (s : State ι Id Value) (i : ι) (id : Id) : Prop :=
  ∀ j, j ≠ i → (s.session j).written id = none

section
variable [DecidableEq ι] [DecidableEq Id]

/-- One session moves on. -/
def State.set (s : State ι Id Value) (i : ι) (session : Session Id Value) : State ι Id Value :=
  { s with session := fun j => if j = i then session else s.session j }

/-- One entity of the identity map changes. -/
def Session.setLoaded (session : Session Id Value) (id : Id) (entity : Entity Value) :
    Session Id Value :=
  { session with loaded := fun other => if other = id then some entity else session.loaded other }

/-- One row is written. -/
def Session.write (session : Session Id Value) (id : Id) (row : Row Value) : Session Id Value :=
  { session with written := fun other => if other = id then some row else session.written other }

/-! ## Writes of the repository -/

/-- `setattr` of each item of `values`, in `update`. -/
def Entity.update (entity : Entity Value) (values : List (String × Value)) : Entity Value :=
  values.foldl (fun entity item => {
    row := { entity.row with values := fun other =>
      if other = item.1 then item.2 else entity.row.values other }
    modified := item.1 :: entity.modified }) entity

/-- The row that a flush writes: the attributes that were set, and the next version. -/
def Entity.flushed (entity : Entity Value) (row : Row Value) : Row Value where
  version := entity.row.version + 1
  values name := if name ∈ entity.modified then entity.row.values name else row.values name

/-- The entity after its flush. -/
def Entity.clean (entity : Entity Value) : Entity Value where
  row := { entity.row with version := entity.row.version + 1 }
  modified := []

/-- A row that the `WHERE` clause of `bulk_update` selects. -/
def Selects (criteria : List (Id → Row Value → Truth)) (id : Id) (row : Row Value) : Prop :=
  ∀ condition ∈ criteria, condition id row = Truth.true

/-- What `bulk_update` does to the entities of its session: `synchronize_session` writes the columns
to an entity in memory as well, in place of what was set there, or leaves the entity. -/
def Synchronizes (values : List (Assignment Value)) (before after : Option (Entity Value)) : Prop :=
  after = before ∨ ∃ entity kept, before = some entity ∧
    after = some { row := entity.row.assign values, modified := entity.modified.filter kept }

/-! ## The transition system -/

/-- A step of a session, with its outcome. -/
inductive Event (ι Id Value : Type) where
  | load (i : ι) (id : Id)
  | refresh (i : ι) (id : Id)
  | update (i : ι) (id : Id)
  /-- A flush of one entity; one that fails raises `StaleDataError`. -/
  | flush (i : ι) (id : Id) (succeeded : Bool)
  | bulkUpdate (i : ι) (values : List (Assignment Value)) (rowcount : Nat)
  /-- A commit, with the rows it wrote. -/
  | commit (i : ι) (wrote : Id → Bool)
  | rollback (i : ι)

/-- One step of one session. -/
inductive Step : State ι Id Value → Event ι Id Value → State ι Id Value → Prop where
  /-- A row that is not in the identity map is read. -/
  | load {s : State ι Id Value} {row : Row Value} (i : ι) (id : Id) :
      (s.session i).loaded id = none → s.visible i id = some row →
      Step s (.load i id) (s.set i ((s.session i).setLoaded id ⟨row, []⟩))
  | refresh {s : State ι Id Value} {row : Row Value} {entity : Entity Value} (i : ι) (id : Id) :
      (s.session i).loaded id = some entity → s.visible i id = some row →
      Step s (.refresh i id) (s.set i ((s.session i).setLoaded id ⟨row, []⟩))
  | update {s : State ι Id Value} {entity : Entity Value} (i : ι) (id : Id)
      (values : List (String × Value)) :
      (s.session i).loaded id = some entity →
      Step s (.update i id) (s.set i ((s.session i).setLoaded id (entity.update values)))
  /-- `UPDATE ... WHERE id = ... AND version = ...` finds the row. -/
  | flush {s : State ι Id Value} {row : Row Value} {entity : Entity Value} (i : ι) (id : Id) :
      (s.session i).loaded id = some entity → entity.modified ≠ [] → s.Free i id →
      s.visible i id = some row → row.version = entity.row.version →
      Step s (.flush i id true)
        (s.set i (((s.session i).write id (entity.flushed row)).setLoaded id entity.clean))
  /-- It finds no row with that version, and the transaction is rolled back. -/
  | stale {s : State ι Id Value} {entity : Entity Value} (i : ι) (id : Id) :
      (s.session i).loaded id = some entity → entity.modified ≠ [] → s.Free i id →
      (∀ row, s.visible i id = some row → row.version ≠ entity.row.version) →
      Step s (.flush i id false) (s.set i .fresh)
  /-- `bulk_update` without values. -/
  | bulkNothing {s : State ι Id Value} (i : ι) : Step s (.bulkUpdate i [] 0) s
  | bulkUpdate {s : State ι Id Value} (i : ι) (values : List (Assignment Value))
      (criteria : List (Id → Row Value → Truth)) (selected : List Id) (session : Session Id Value) :
      values ≠ [] → selected.Nodup →
      (∀ id, id ∈ selected ↔ ∃ row, s.visible i id = some row ∧ Selects criteria id row) →
      (∀ id ∈ selected, s.Free i id) →
      (∀ id ∈ selected, ∀ row, s.visible i id = some row →
        session.written id = some (row.assign values)) →
      (∀ id, id ∉ selected → session.written id = (s.session i).written id) →
      (∀ id ∈ selected, Synchronizes values ((s.session i).loaded id) (session.loaded id)) →
      (∀ id, id ∉ selected → session.loaded id = (s.session i).loaded id) →
      Step s (.bulkUpdate i values selected.length) (s.set i session)
  /-- A commit, after the flushes that it runs; the entities stay loaded. -/
  | commit {s : State ι Id Value} (i : ι) :
      (∀ id entity, (s.session i).loaded id = some entity → entity.modified = []) →
      Step s (.commit i fun id => ((s.session i).written id).isSome)
        (State.set { s with rows := s.visible i } i
          { s.session i with written := fun _ => none })
  | rollback {s : State ι Id Value} (i : ι) : Step s (.rollback i) (s.set i .fresh)

/-- The sessions of a database. -/
def sessions (rows : Id → Option (Row Value)) : System (State ι Id Value) (Event ι Id Value) where
  init s := s.rows = rows ∧ ∀ i, s.session i = .fresh
  step := Step

/-! ## Lost updates -/

/-- Another session committed a write to the row after the session last loaded it. -/
def Overtaken (i : ι) (id : Id) : List (Event ι Id Value) → Prop
  | [] => False
  | .load j other :: h => ¬(j = i ∧ other = id) ∧ Overtaken i id h
  | .refresh j other :: h => ¬(j = i ∧ other = id) ∧ Overtaken i id h
  | .commit j wrote :: h => (j ≠ i ∧ wrote id = true) ∨ Overtaken i id h
  | _ :: h => Overtaken i id h

/-- The assignments leave the version of every row. -/
def Keeps (values : List (Assignment Value)) : Prop :=
  ∀ row : Row Value, (row.assign values).version = row.version

/-- The assignments write the version as a flush does. -/
def Raises (values : List (Assignment Value)) : Prop :=
  ∀ row : Row Value, (row.assign values).version = row.version + 1

/-- `bulk_update` writes the next version if it writes one, and a commit raises the version of the
rows that another session has loaded. -/
def Careful (s : State ι Id Value) : Event ι Id Value → Prop
  | .bulkUpdate _ values _ => Keeps values ∨ Raises values
  | .commit i _ => ∀ id row committed, (s.session i).written id = some row →
      s.rows id = some committed → (∃ j, j ≠ i ∧ (s.session j).loaded id ≠ none) →
        committed.version < row.version
  | _ => True

/-- An entity is at most as new as the row, and older when it is overtaken. -/
structure Behind (overtaken : Prop) (entity : Entity Value) (row : Row Value) : Prop where
  le : entity.row.version ≤ row.version
  lt : overtaken → entity.row.version < row.version

/-- What the versions of rows and entities keep to. -/
structure Versions (h : List (Event ι Id Value)) (s : State ι Id Value) : Prop where
  locked : ∀ i id row, (s.session i).written id = some row → s.Free i id
  written : ∀ i id row, (s.session i).written id = some row →
    ∃ committed, s.rows id = some committed ∧ committed.version ≤ row.version
  loaded : ∀ i id entity, (s.session i).loaded id = some entity →
    ∃ row, s.visible i id = some row ∧ Behind (Overtaken i id h) entity row

end

/-! ## Versions of a run -/

variable {h : List (Event ι Id Value)} {s : State ι Id Value} {i j : ι} {id : Id}

/-- A row that a session sees is at least as new as the committed one. -/
theorem Versions.visible (hv : Versions h s) {row : Row Value} (hrow : s.visible i id = some row) :
    ∃ committed, s.rows id = some committed ∧ committed.version ≤ row.version := by
  cases hwritten : (s.session i).written id with
  | none =>
      rw [State.visible, hwritten] at hrow
      exact ⟨row, hrow, Int.le_refl _⟩
  | some mine =>
      rw [State.visible, hwritten] at hrow
      obtain rfl : mine = row := Option.some.inj hrow
      exact hv.written i id mine hwritten

theorem Behind.loaded {overtaken : Prop} (hovertaken : ¬overtaken) (row : Row Value)
    (modified : List String) : Behind overtaken ⟨row, modified⟩ row :=
  ⟨Int.le_refl _, fun h => absurd h hovertaken⟩

/-- A flush that succeeds is one of an entity that nobody has overtaken. -/
theorem Versions.flush_current (hv : Versions h s) {entity : Entity Value} {row : Row Value}
    (hentity : (s.session i).loaded id = some entity) (hrow : s.visible i id = some row)
    (hversion : row.version = entity.row.version) : ¬Overtaken i id h := by
  intro hovertaken
  obtain ⟨row', hrow', -, hlt⟩ := hv.loaded i id entity hentity
  rw [hrow] at hrow'
  cases hrow'
  have := hlt hovertaken
  omega

@[simp] theorem Entity.version_update (entity : Entity Value) (values : List (String × Value)) :
    (entity.update values).row.version = entity.row.version := by
  induction values generalizing entity with
  | nil => rfl
  | cons item values ih =>
      rw [Entity.update, List.foldl_cons]
      exact ih _

theorem Entity.modified_update (entity : Entity Value) {values : List (String × Value)}
    (hvalues : values ≠ []) : (entity.update values).modified ≠ [] := by
  have hkept : ∀ (values : List (String × Value)) (entity : Entity Value),
      entity.modified ≠ [] → (entity.update values).modified ≠ [] := by
    intro values
    induction values with
    | nil => exact fun _ h => h
    | cons item values ih => exact fun entity _ => ih _ (List.cons_ne_nil _ _)
  cases values with
  | nil => exact absurd rfl hvalues
  | cons item values => exact hkept values _ (List.cons_ne_nil _ _)

/-- What careful assignments do to versions. -/
theorem version_assign {values : List (Assignment Value)} (hvalues : Keeps values ∨ Raises values) :
    ∃ k : Int, 0 ≤ k ∧ ∀ row : Row Value, (row.assign values).version = row.version + k := by
  rcases hvalues with hvalues | hvalues
  · exact ⟨0, Int.le_refl _, fun row => by rw [hvalues, Int.add_zero]⟩
  · exact ⟨1, by decide, hvalues⟩

theorem Behind.assign {overtaken : Prop} {entity after : Entity Value} {row : Row Value}
    {values : List (Assignment Value)} (hvalues : Keeps values ∨ Raises values)
    (hbehind : Behind overtaken entity row)
    (hafter : Synchronizes values (some entity) (some after)) :
    Behind overtaken after (row.assign values) := by
  obtain ⟨hle, hlt⟩ := hbehind
  obtain ⟨k, hk, hassign⟩ := version_assign hvalues
  have hrow := hassign row
  rcases hafter with hsame | ⟨before, kept, hbefore, hafter⟩
  · cases hsame
    exact ⟨by omega, fun h => by have := hlt h; omega⟩
  · cases hbefore
    cases hafter
    have hentity := hassign entity.row
    refine ⟨?_, fun h => ?_⟩
    · show (entity.row.assign values).version ≤ _
      omega
    · show (entity.row.assign values).version < _
      have := hlt h
      omega

theorem Synchronizes.some {values : List (Assignment Value)} {before : Option (Entity Value)}
    {after : Entity Value} (hsync : Synchronizes values before (some after)) :
    ∃ entity, before = some entity := by
  rcases hsync with hsame | ⟨entity, kept, hbefore, -⟩
  · exact ⟨after, hsame.symm⟩
  · exact ⟨entity, hbefore⟩

section
variable [DecidableEq Id]

@[simp] theorem Session.setLoaded_written (session : Session Id Value) (entity : Entity Value) :
    (session.setLoaded id entity).written = session.written := rfl

@[simp] theorem Session.setLoaded_loaded (session : Session Id Value) (entity : Entity Value) :
    (session.setLoaded id entity).loaded id = some entity := if_pos rfl

theorem Session.setLoaded_other (session : Session Id Value) (entity : Entity Value) {other : Id}
    (hne : other ≠ id) : (session.setLoaded id entity).loaded other = session.loaded other :=
  if_neg hne

@[simp] theorem Session.write_loaded (session : Session Id Value) (row : Row Value) :
    (session.write id row).loaded = session.loaded := rfl

@[simp] theorem Session.write_written (session : Session Id Value) (row : Row Value) :
    (session.write id row).written id = some row := if_pos rfl

theorem Session.write_other (session : Session Id Value) (row : Row Value) {other : Id}
    (hne : other ≠ id) : (session.write id row).written other = session.written other :=
  if_neg hne

end

section
variable [DecidableEq ι]

@[simp] theorem State.set_rows (session : Session Id Value) : (s.set i session).rows = s.rows := rfl

@[simp] theorem State.set_session (session : Session Id Value) :
    (s.set i session).session i = session := if_pos rfl

theorem State.set_other (session : Session Id Value) (hne : j ≠ i) :
    (s.set i session).session j = s.session j := if_neg hne

theorem State.visible_set (session : Session Id Value) (id : Id) :
    (s.set i session).visible i id = (session.written id).or (s.rows id) := by
  rw [visible, set_session, set_rows]

theorem State.visible_other (session : Session Id Value) (hne : j ≠ i) (id : Id) :
    (s.set i session).visible j id = s.visible j id := by
  rw [visible, set_other session hne, set_rows, visible]

/-- A step of one session that commits nothing. -/
theorem Versions.set (hv : Versions h s) {event : Event ι Id Value} {session : Session Id Value}
    (hothers : ∀ j id, j ≠ i → Overtaken j id (event :: h) → Overtaken j id h)
    (hlocked : ∀ id row, session.written id = some row → s.Free i id)
    (hwritten : ∀ id row, session.written id = some row →
      ∃ committed, s.rows id = some committed ∧ committed.version ≤ row.version)
    (hloaded : ∀ id entity, session.loaded id = some entity →
      ∃ row, (session.written id).or (s.rows id) = some row ∧
        Behind (Overtaken i id (event :: h)) entity row) :
    Versions (event :: h) (s.set i session) where
  locked j id row hrow := by
    intro k hk
    by_cases hj : j = i
    · subst hj
      rw [State.set_session] at hrow
      rw [State.set_other session hk]
      exact hlocked id row hrow k hk
    · rw [State.set_other session hj] at hrow
      by_cases hki : k = i
      · subst hki
        rw [State.set_session]
        cases hmine : session.written id with
        | none => rfl
        | some mine =>
            have hfree := hlocked id mine hmine j hj
            rw [hrow] at hfree
            cases hfree
      · rw [State.set_other session hki]
        exact hv.locked j id row hrow k hk
  written j id row hrow := by
    by_cases hj : j = i
    · subst hj
      rw [State.set_session] at hrow
      exact hwritten id row hrow
    · rw [State.set_other session hj] at hrow
      exact hv.written j id row hrow
  loaded j id entity hentity := by
    by_cases hj : j = i
    · subst hj
      rw [State.set_session] at hentity
      rw [State.visible_set]
      exact hloaded id entity hentity
    · rw [State.set_other session hj] at hentity
      rw [State.visible_other session hj]
      obtain ⟨row, hrow, hle, hlt⟩ := hv.loaded j id entity hentity
      exact ⟨row, hrow, hle, fun h => hlt (hothers j id hj h)⟩

/-- A session that ends without a commit. -/
theorem Versions.setFresh (hv : Versions h s) {event : Event ι Id Value}
    (hothers : ∀ j id, j ≠ i → Overtaken j id (event :: h) → Overtaken j id h) :
    Versions (event :: h) (s.set i .fresh) :=
  hv.set hothers (fun _ _ hrow => nomatch hrow) (fun _ _ hrow => nomatch hrow)
    (fun _ _ hentity => nomatch hentity)

/-- A commit keeps what its session sees, and shows it to the sessions that have not written it. -/
theorem Versions.commit (hv : Versions h s) {wrote : Id → Bool}
    (hwrote : ∀ id, wrote id = true ↔ ∃ row, (s.session i).written id = some row)
    (hcareful : Careful s (.commit i wrote)) :
    Versions (.commit i wrote :: h) (State.set { s with rows := s.visible i } i
      { s.session i with written := fun _ => none }) where
  locked j id row hrow := by
    by_cases hj : j = i
    · subst hj
      rw [State.set_session] at hrow
      cases hrow
    · rw [State.set_other _ hj] at hrow
      intro k hk
      by_cases hki : k = i
      · rw [hki, State.set_session]
      · rw [State.set_other _ hki]
        exact hv.locked j id row hrow k hk
  written j id row hrow := by
    by_cases hj : j = i
    · subst hj
      rw [State.set_session] at hrow
      cases hrow
    · rw [State.set_other _ hj] at hrow
      have hfree := hv.locked j id row hrow i (Ne.symm hj)
      obtain ⟨committed, hcommitted, hle⟩ := hv.written j id row hrow
      refine ⟨committed, ?_, hle⟩
      show s.visible i id = some committed
      rw [State.visible, hfree, Option.none_or, hcommitted]
  loaded j id entity hentity := by
    by_cases hj : j = i
    · subst hj
      rw [State.set_session] at hentity
      obtain ⟨row, hrow, hle, hlt⟩ := hv.loaded j id entity hentity
      refine ⟨row, ?_, hle, fun hovertaken => hlt ?_⟩
      · rw [State.visible_set, Option.none_or]
        exact hrow
      · rcases hovertaken with ⟨hne, -⟩ | hovertaken
        · exact absurd rfl hne
        · exact hovertaken
    · rw [State.set_other _ hj] at hentity
      obtain ⟨row, hrow, hle, hlt⟩ := hv.loaded j id entity hentity
      rw [State.visible_other _ hj]
      cases hmine : (s.session i).written id with
      | none =>
          -- the row is not one of this transaction
          refine ⟨row, ?_, hle, fun hovertaken => hlt ?_⟩
          · show ((s.session j).written id).or (s.visible i id) = some row
            rw [State.visible, hmine, Option.none_or]
            exact hrow
          · rcases hovertaken with ⟨-, hid⟩ | hovertaken
            · obtain ⟨written, hwritten⟩ := (hwrote id).mp hid
              rw [hmine] at hwritten
              cases hwritten
            · exact hovertaken
      | some written =>
          have hfree := hv.locked i id written hmine j hj
          obtain ⟨committed, hcommitted, -⟩ := hv.written i id written hmine
          have hraised : committed.version < written.version := by
            refine hcareful id written committed hmine hcommitted ⟨j, hj, ?_⟩
            rw [hentity]
            simp
          rw [State.visible, hfree, Option.none_or, hcommitted] at hrow
          cases hrow
          refine ⟨written, ?_, by omega, fun _ => by omega⟩
          show ((s.session j).written id).or (s.visible i id) = some written
          rw [hfree, Option.none_or, State.visible, hmine, Option.some_or]

variable [DecidableEq Id]

/-- One entity of a session changes. -/
theorem Versions.setLoaded (hv : Versions h s) {event : Event ι Id Value} {entity : Entity Value}
    {row : Row Value} (hrow : s.visible i id = some row)
    (hbehind : Behind (Overtaken i id (event :: h)) entity row)
    (hevent : ∀ j other, ¬(j = i ∧ other = id) → Overtaken j other (event :: h) →
      Overtaken j other h) :
    Versions (event :: h) (s.set i ((s.session i).setLoaded id entity)) := by
  refine hv.set (fun j other hj => hevent j other fun heq => hj heq.1) (hv.locked i)
    (hv.written i) ?_
  intro other entity' hentity
  by_cases hother : other = id
  · subst hother
    rw [Session.setLoaded_loaded] at hentity
    cases hentity
    exact ⟨row, hrow, hbehind⟩
  · rw [Session.setLoaded_other _ _ hother] at hentity
    obtain ⟨row', hrow', hle, hlt⟩ := hv.loaded i other entity' hentity
    exact ⟨row', hrow', hle, fun h => hlt (hevent i other (fun heq => hother heq.2) h)⟩

theorem Versions.flush (hv : Versions h s) {entity : Entity Value} {row : Row Value}
    (hentity : (s.session i).loaded id = some entity) (hfree : s.Free i id)
    (hrow : s.visible i id = some row) (hversion : row.version = entity.row.version) :
    Versions (.flush i id true :: h)
      (s.set i (((s.session i).write id (entity.flushed row)).setLoaded id entity.clean)) := by
  obtain ⟨committed, hcommitted, hle⟩ := hv.visible hrow
  have hversion' : (entity.flushed row).version = row.version + 1 := by
    rw [Entity.flushed, hversion]
  refine hv.set (fun _ _ _ h => h) ?_ ?_ ?_
  · intro other row' hrow'
    by_cases hother : other = id
    · rwa [hother]
    · rw [Session.setLoaded_written, Session.write_other _ _ hother] at hrow'
      exact hv.locked i other row' hrow'
  · intro other row' hrow'
    by_cases hother : other = id
    · subst hother
      rw [Session.setLoaded_written, Session.write_written] at hrow'
      cases hrow'
      exact ⟨committed, hcommitted, by omega⟩
    · rw [Session.setLoaded_written, Session.write_other _ _ hother] at hrow'
      exact hv.written i other row' hrow'
  · intro other entity' hentity'
    by_cases hother : other = id
    · subst hother
      rw [Session.setLoaded_loaded] at hentity'
      cases hentity'
      rw [Session.setLoaded_written, Session.write_written]
      exact ⟨entity.flushed row, rfl, Int.le_refl _, fun h =>
        absurd h (hv.flush_current hentity hrow hversion)⟩
    · rw [Session.setLoaded_other _ _ hother, Session.write_loaded] at hentity'
      rw [Session.setLoaded_written, Session.write_other _ _ hother]
      exact hv.loaded i other entity' hentity'

theorem Versions.bulkUpdate (hv : Versions h s) {values : List (Assignment Value)}
    (hvalues : Keeps values ∨ Raises values) {selected : List Id} {session : Session Id Value}
    (hvisible : ∀ id ∈ selected, ∃ row, s.visible i id = some row)
    (hfree : ∀ id ∈ selected, s.Free i id)
    (hwrites : ∀ id ∈ selected, ∀ row, s.visible i id = some row →
      session.written id = some (row.assign values))
    (hothers : ∀ id, id ∉ selected → session.written id = (s.session i).written id)
    (hsync : ∀ id ∈ selected, Synchronizes values ((s.session i).loaded id) (session.loaded id))
    (hleft : ∀ id, id ∉ selected → session.loaded id = (s.session i).loaded id) (rowcount : Nat) :
    Versions (.bulkUpdate i values rowcount :: h) (s.set i session) := by
  obtain ⟨k, hk, hassign⟩ := version_assign hvalues
  refine hv.set (fun _ _ _ h => h) ?_ ?_ ?_
  · intro id row' hrow'
    by_cases hid : id ∈ selected
    · exact hfree id hid
    · rw [hothers id hid] at hrow'
      exact hv.locked i id row' hrow'
  · intro id row' hrow'
    by_cases hid : id ∈ selected
    · obtain ⟨row, hrow⟩ := hvisible id hid
      obtain ⟨committed, hcommitted, hle⟩ := hv.visible hrow
      rw [hwrites id hid row hrow] at hrow'
      cases hrow'
      have hversion := hassign row
      exact ⟨committed, hcommitted, by omega⟩
    · rw [hothers id hid] at hrow'
      exact hv.written i id row' hrow'
  · intro id after hafter
    by_cases hid : id ∈ selected
    · have hsynced := hsync id hid
      rw [hafter] at hsynced
      obtain ⟨entity, hentity⟩ := hsynced.some
      rw [hentity] at hsynced
      obtain ⟨row, hrow, hbehind⟩ := hv.loaded i id entity hentity
      refine ⟨row.assign values, ?_, hbehind.assign hvalues hsynced⟩
      rw [hwrites id hid row hrow, Option.some_or]
    · rw [hleft id hid] at hafter
      rw [hothers id hid]
      exact hv.loaded i id after hafter

/-- In every careful run. -/
theorem reaches_versions {rows : Id → Option (Row Value)}
    (hr : ((sessions rows).under Careful).Reaches h s) : Versions h s := by
  refine hr.invariant (I := Versions) ?_ ?_
  · rintro s ⟨-, hfresh⟩
    constructor
    · intro i id row hrow
      rw [hfresh i] at hrow
      cases hrow
    · intro i id row hrow
      rw [hfresh i] at hrow
      cases hrow
    · intro i id entity hentity
      rw [hfresh i] at hentity
      cases hentity
  · rintro h s event t _ hv ⟨hstep, hcareful⟩
    cases hstep with
    | load i id _ hrow =>
        exact hv.setLoaded hrow (.loaded (fun h => h.1 ⟨rfl, rfl⟩) _ _) fun _ _ _ h => h.2
    | refresh i id _ hrow =>
        exact hv.setLoaded hrow (.loaded (fun h => h.1 ⟨rfl, rfl⟩) _ _) fun _ _ _ h => h.2
    | @update entity i id values hentity =>
        obtain ⟨row, hrow, hle, hlt⟩ := hv.loaded i id entity hentity
        refine hv.setLoaded hrow ⟨?_, fun h => ?_⟩ fun _ _ _ h => h
        · rw [Entity.version_update]
          exact hle
        · rw [Entity.version_update]
          exact hlt h
    | flush i id hentity _ hfree hrow hversion => exact hv.flush hentity hfree hrow hversion
    | stale i id => exact hv.setFresh fun _ _ _ h => h
    | bulkNothing i => exact ⟨hv.locked, hv.written, hv.loaded⟩
    | bulkUpdate i values criteria selected session _ _ hselected hfree hwrites hothers hsync
      hleft =>
        refine hv.bulkUpdate hcareful (fun id hid => ?_) hfree hwrites hothers hsync hleft _
        obtain ⟨row, hrow, -⟩ := (hselected id).mp hid
        exact ⟨row, hrow⟩
    | commit i => exact hv.commit (fun id => Option.isSome_iff_exists) hcareful
    | rollback i => exact hv.setFresh fun _ _ _ h => h

/-- A flush succeeds only if no other session committed a write to the row since the entity was
loaded. -/
theorem optimistic_lock {rows : Id → Option (Row Value)}
    (hr : ((sessions rows).under Careful).Reaches h s) {t : State ι Id Value}
    (hstep : Step s (.flush i id true) t) : ¬Overtaken i id h := by
  cases hstep with
  | flush i id hentity _ _ hrow hversion =>
      exact (reaches_versions hr).flush_current hentity hrow hversion

/-- A session that reads a row again can then change it, unless another holds it. -/
theorem refresh_update_flush {entity : Entity Value}
    (hentity : (s.session i).loaded id = some entity)
    (hfree : s.Free i id) {row : Row Value} (hrow : s.visible i id = some row)
    (values : List (String × Value)) (hvalues : values ≠ []) :
    ∃ t u v, Step s (.refresh i id) t ∧ Step t (.update i id) u ∧ Step u (.flush i id true) v := by
  have hrefresh := Step.refresh i id hentity hrow
  have hloaded : ((s.set i ((s.session i).setLoaded id ⟨row, []⟩)).session i).loaded id =
      some ⟨row, []⟩ := by
    rw [State.set_session, Session.setLoaded_loaded]
  refine ⟨_, _, _, hrefresh, .update i id values hloaded,
    @Step.flush _ _ _ _ _ _ row (Entity.update ⟨row, []⟩ values) i id ?_
      (Entity.modified_update _ hvalues) ?_ ?_ ?_⟩
  · rw [State.set_session, Session.setLoaded_loaded]
  · intro j hj
    rw [State.set_other _ hj, State.set_other _ hj]
    exact hfree j hj
  · rw [State.visible_set, State.set_session, Session.setLoaded_written, Session.setLoaded_written]
    exact hrow
  · rw [Entity.version_update]

/-- A session that has done nothing yet can write any row that is free. -/
theorem Step.bulkUpdate_one (id : Id) (hfresh : s.session i = .fresh) (hfree : s.Free i id)
    {row : Row Value}
    (hrow : s.rows id = some row) {values : List (Assignment Value)} (hvalues : values ≠ []) :
    Step s (.bulkUpdate i values 1) (s.set i (Session.fresh.write id (row.assign values))) := by
  have hvisible : s.visible i = s.rows := by
    funext other
    rw [State.visible, hfresh, Session.fresh, Option.none_or]
  have hselected : ∀ other, other ∈ [id] ↔ ∃ row, s.visible i other = some row ∧
      Selects [fun other (_ : Row Value) => Truth.ofBool (other == id)] other row := by
    intro other
    rw [hvisible, List.mem_singleton]
    constructor
    · rintro rfl
      exact ⟨row, hrow, by simp [Selects, Truth.ofBool]⟩
    · rintro ⟨_, -, hselects⟩
      have hother := hselects _ List.mem_cons_self
      cases hequal : other == id with
      | true => exact eq_of_beq hequal
      | false =>
          rw [hequal] at hother
          cases hother
  refine .bulkUpdate i values _ [id] _ hvalues (by simp) hselected ?_ ?_ ?_ ?_ ?_
  · intro other hother
    rwa [List.mem_singleton.mp hother]
  · intro other hother row' hrow'
    rw [List.mem_singleton.mp hother] at hrow' ⊢
    rw [hvisible, hrow] at hrow'
    cases hrow'
    exact Session.write_written _ _
  · intro other hother
    rw [hfresh]
    exact Session.write_other _ _ fun heq => hother (List.mem_singleton.mpr heq)
  · intro other _
    rw [hfresh]
    exact .inl rfl
  · intro other _
    rw [hfresh, Session.write_loaded]

end

/-! ### Two sessions and one row -/

/-- One row. -/
def sampleRow : Row String := ⟨1, fun _ => "old"⟩

def sampleRows (id : Nat) : Option (Row String) := if id = 1 then some sampleRow else none

/-- The row, changed in memory. -/
def sampleEntity : Entity String := Entity.update ⟨sampleRow, []⟩ [("name", "a")]

/-- One session loads and changes the row; the other writes it with `bulk_update` and commits. -/
theorem bulk_between (values : List (Assignment String)) (hvalues : values ≠ [])
    {P : State Bool Nat String → Event Bool Nat String → Prop}
    (hload : ∀ s i id, P s (.load i id)) (hupdate : ∀ s i id, P s (.update i id))
    (hbulk : ∀ s i n, P s (.bulkUpdate i values n))
    (hcommit : ∀ s i wrote, (∀ id row committed, (s.session i).written id = some row →
      s.rows id = some committed → row = committed.assign values) → P s (.commit i wrote)) :
    ∃ h s, ((sessions sampleRows).under P).Reaches h s ∧ Overtaken true 1 h ∧
      (s.session true).loaded 1 = some sampleEntity ∧
      s.rows 1 = some (sampleRow.assign values) ∧ ∀ i, (s.session i).written 1 = none := by
  have hinit : ((sessions sampleRows).under P).Reaches []
      (⟨sampleRows, fun _ => .fresh⟩ : State Bool Nat String) := .init ⟨rfl, fun _ => rfl⟩
  have hloaded := hinit.step ⟨.load true 1 rfl rfl, hload _ _ _⟩
  have hedited := hloaded.step ⟨.update true 1 [("name", "a")] rfl, hupdate _ _ _⟩
  have hwritten := hedited.step
    ⟨.bulkUpdate_one 1 rfl (fun j _ => by cases j <;> rfl) rfl hvalues, hbulk _ false _⟩
  have hassigned : ∀ id row committed,
      ((Session.fresh : Session Nat String).write 1 (sampleRow.assign values)).written id =
        some row →
      sampleRows id = some committed → row = committed.assign values := by
    intro id row committed hrow hcommitted
    by_cases hid : id = 1
    · subst hid
      cases hrow
      cases hcommitted
      rfl
    · rw [sampleRows, if_neg hid] at hcommitted
      cases hcommitted
  have hcommitted := hwritten.step
    ⟨.commit false (fun _ _ hentity => nomatch hentity), hcommit _ _ _ hassigned⟩
  exact ⟨_, _, hcommitted, .inl ⟨by decide, rfl⟩, rfl, rfl, fun i => by cases i <;> rfl⟩

/-- A session that reads the row again after the other raised its version. -/
theorem optimistic_lock_refresh :
    ∃ (h : List (Event Bool Nat String)) (s t : State Bool Nat String),
    ((sessions sampleRows).under Careful).Reaches h s ∧ Step s (.flush true 1 true) t ∧
      ¬Overtaken true 1 h := by
  have hraises : Raises [.column "name" fun _ => "b", .version fun row => row.version + 1] :=
    fun (row : Row String) => rfl
  obtain ⟨h, s, hr, -, hloaded, hrow, hfree⟩ := bulk_between _ (P := Careful) (List.cons_ne_nil _ _)
    (fun _ _ _ => trivial) (fun _ _ _ => trivial) (fun _ _ _ => .inr hraises)
    (fun s i wrote hassigned id row committed hrow hcommitted _ => by
      rw [hassigned id row committed hrow hcommitted, hraises]
      omega)
  have hvisible : s.visible true 1 = s.rows 1 := by
    rw [State.visible, hfree, Option.none_or]
  obtain ⟨t, u, v, hrefresh, hupdate, hflush⟩ := refresh_update_flush
    hloaded (fun j _ => hfree j) (hvisible.trans hrow) [("name", "a")] (List.cons_ne_nil _ _)
  have hedited := (hr.step ⟨hrefresh, trivial⟩).step ⟨hupdate, trivial⟩
  exact ⟨_, u, v, hedited, hflush, optimistic_lock hedited hflush⟩

/-- A session that does not, and the other left the version as it was. -/
theorem lost_update : ∃ (h : List (Event Bool Nat String)) (s t : State Bool Nat String),
    (sessions sampleRows).Reaches h s ∧ Step s (.flush true 1 true) t ∧ Overtaken true 1 h ∧
      (s.visible true 1).map (fun row => row.values "name") = some "b" ∧
      (t.visible true 1).map (fun row => row.values "name") = some "a" := by
  obtain ⟨h, s, hr, hovertaken, hloaded, hrow, hfree⟩ :=
    bulk_between [.column "name" fun _ => "b"] (P := fun _ _ => True)
      (List.cons_ne_nil _ _) (fun _ _ _ => trivial) (fun _ _ _ => trivial) (fun _ _ _ => trivial)
      (fun _ _ _ _ => trivial)
  have hvisible : s.visible true 1 = some (sampleRow.assign [.column "name" fun _ => "b"]) := by
    rw [State.visible, hfree, Option.none_or, hrow]
  refine ⟨h, s, _, hr.of_under, .flush true 1 hloaded (by decide) (fun j _ => hfree j) hvisible rfl,
    hovertaken, ?_, ?_⟩
  · rw [hvisible]
    rfl
  · rw [State.visible_set, Session.setLoaded_written, Session.write_written]
    rfl

end ProdkitStorage.Database.OptimisticLock

import Mathlib.Data.List.Basic

/-!
# Exclusive locks

A table of exclusive locks and the owners that hold them.  `tryLock` never waits:
it takes a lock unless another owner holds it, and an owner may take a lock it
holds again.  An owner gives up its newest locks, as a transaction does that goes
back to a savepoint, or all of them at its end.

A table may hold locks on behalf of things that are not its keys.  `Keyed` ties
such a table to the things its locks were taken for: what is refused, is refused
for a thing with the same key.
-/

namespace ProdkitStorage.Foundation

/-- The locks that are held, newest first, each with its owner. -/
structure LockTable (Owner Key : Type) where
  held : List (Owner × Key)
  exclusive : ∀ a b key, (a, key) ∈ held → (b, key) ∈ held → a = b

/-- The list without the newest `count` entries of an owner. -/
def dropNewest {Owner Key : Type} [DecidableEq Owner] (owner : Owner) :
    Nat → List (Owner × Key) → List (Owner × Key)
  | _, [] => []
  | 0, entries => entries
  | count + 1, entry :: entries =>
      if entry.1 = owner then dropNewest owner count entries
      else entry :: dropNewest owner (count + 1) entries

/-- The list without the entries of an owner. -/
def dropAll {Owner Key : Type} [DecidableEq Owner] (owner : Owner) (entries : List (Owner × Key)) :
    List (Owner × Key) :=
  entries.filter fun entry => entry.1 ≠ owner

variable {Owner Key Thing : Type}

section Entries

variable [DecidableEq Owner]

theorem dropNewest_sublist (owner : Owner) (count : Nat) (entries : List (Owner × Key)) :
    (dropNewest owner count entries).Sublist entries := by
  induction entries generalizing count with
  | nil => cases count <;> exact List.Sublist.refl _
  | cons entry entries ih =>
      cases count with
      | zero => exact List.Sublist.refl _
      | succ count =>
          unfold dropNewest
          split
          · exact (ih count).cons _
          · exact (ih (count + 1)).cons_cons _

/-- Only entries of the owner are dropped. -/
theorem dropNewest_map (f : Thing → Key) (owner : Owner) (count : Nat)
    (entries : List (Owner × Thing)) :
    dropNewest owner count (entries.map (Prod.map id f)) =
      (dropNewest owner count entries).map (Prod.map id f) := by
  induction entries generalizing count with
  | nil => cases count <;> rfl
  | cons entry entries ih =>
      cases count with
      | zero => rfl
      | succ count =>
          simp only [List.map_cons, dropNewest, Prod.map_fst, id_eq]
          split
          · exact ih count
          · rw [List.map_cons, ih]

theorem dropAll_map (f : Thing → Key) (owner : Owner) (entries : List (Owner × Thing)) :
    dropAll owner (entries.map (Prod.map id f)) = (dropAll owner entries).map (Prod.map id f) := by
  unfold dropAll
  rw [List.filter_map]
  rfl

end Entries

namespace LockTable

/-- No lock is held. -/
def empty : LockTable Owner Key where
  held := []
  exclusive _ _ _ h := by cases h

/-- Another owner holds the lock. -/
def Blocked (table : LockTable Owner Key) (owner : Owner) (key : Key) : Prop :=
  ∃ other, other ≠ owner ∧ (other, key) ∈ table.held

instance [DecidableEq Owner] [DecidableEq Key] (table : LockTable Owner Key) (owner : Owner)
    (key : Key) : Decidable (table.Blocked owner key) :=
  decidable_of_iff (∃ entry ∈ table.held, entry.1 ≠ owner ∧ entry.2 = key) <| by
    constructor
    · rintro ⟨⟨other, _⟩, hmem, hne, rfl⟩
      exact ⟨other, hne, hmem⟩
    · rintro ⟨other, hne, hmem⟩
      exact ⟨(other, key), hmem, hne, rfl⟩

/-- The lock is taken. -/
def take (table : LockTable Owner Key) (owner : Owner) (key : Key)
    (hfree : ¬table.Blocked owner key) : LockTable Owner Key where
  held := (owner, key) :: table.held
  exclusive a b other ha hb := by
    have hnone : ∀ c, (c, key) ∈ table.held → c = owner := by
      intro c hc
      by_contra hne
      exact hfree ⟨c, hne, hc⟩
    rcases List.mem_cons.mp ha with hnew | hold
    · obtain ⟨rfl, rfl⟩ := Prod.mk.inj hnew
      rcases List.mem_cons.mp hb with hnew' | hold'
      · exact (Prod.mk.inj hnew').1.symm
      · exact (hnone b hold').symm
    · rcases List.mem_cons.mp hb with hnew' | hold'
      · obtain ⟨rfl, rfl⟩ := Prod.mk.inj hnew'
        exact hnone a hold
      · exact table.exclusive a b other hold hold'

/-- Take a lock unless another owner holds it. -/
def tryLock [DecidableEq Owner] [DecidableEq Key] (table : LockTable Owner Key) (owner : Owner)
    (key : Key) : Bool × LockTable Owner Key :=
  if h : table.Blocked owner key then (false, table) else (true, table.take owner key h)

/-- A part of the locks is still exclusive. -/
def shrink (table : LockTable Owner Key) (held : List (Owner × Key))
    (hsub : held.Sublist table.held) : LockTable Owner Key where
  held := held
  exclusive a b key ha hb := table.exclusive a b key (hsub.subset ha) (hsub.subset hb)

/-- An owner gives up its newest locks. -/
def rollback [DecidableEq Owner] (table : LockTable Owner Key) (owner : Owner) (count : Nat) :
    LockTable Owner Key :=
  table.shrink (dropNewest owner count table.held) (dropNewest_sublist owner count _)

/-- An owner gives up all its locks. -/
def finish [DecidableEq Owner] (table : LockTable Owner Key) (owner : Owner) :
    LockTable Owner Key :=
  table.shrink (dropAll owner table.held) List.filter_sublist

section TryLock

variable [DecidableEq Owner] [DecidableEq Key] {table : LockTable Owner Key} {owner : Owner}
  {key : Key}

theorem tryLock_blocked (h : table.Blocked owner key) :
    table.tryLock owner key = (false, table) :=
  dif_pos h

theorem tryLock_free (h : ¬table.Blocked owner key) :
    table.tryLock owner key = (true, table.take owner key h) :=
  dif_neg h

end TryLock

/-! ## Locks for things -/

/-- The locks of the table are those of the things they were taken for. -/
def Keyed (table : LockTable Owner Key) (key : Thing → Key) (taken : List (Owner × Thing)) : Prop :=
  table.held = taken.map (Prod.map id key)

/-- A lock is refused for a thing if another owner holds the lock of a thing with its key. -/
theorem Keyed.blocked_iff {table : LockTable Owner Key} {key : Thing → Key}
    {taken : List (Owner × Thing)} (h : table.Keyed key taken) (owner : Owner) (thing : Thing) :
    table.Blocked owner (key thing) ↔
      ∃ other, other ≠ owner ∧ ∃ thing', (other, thing') ∈ taken ∧ key thing' = key thing := by
  unfold Blocked
  rw [h]
  refine exists_congr fun other => and_congr_right fun _ => ?_
  rw [List.mem_map]
  constructor
  · rintro ⟨⟨other', thing'⟩, hmem, heq⟩
    obtain ⟨rfl, hkey⟩ := Prod.mk.inj heq
    exact ⟨thing', hmem, hkey⟩
  · rintro ⟨thing', hmem, hkey⟩
    exact ⟨(other, thing'), hmem, congrArg (Prod.mk other) hkey⟩

theorem Keyed.take {table : LockTable Owner Key} {key : Thing → Key} {taken : List (Owner × Thing)}
    (h : table.Keyed key taken) {owner : Owner} {thing : Thing}
    (hfree : ¬table.Blocked owner (key thing)) :
    (table.take owner (key thing) hfree).Keyed key ((owner, thing) :: taken) :=
  congrArg (List.cons (owner, key thing)) h

theorem Keyed.rollback [DecidableEq Owner] {table : LockTable Owner Key} {key : Thing → Key}
    {taken : List (Owner × Thing)} (h : table.Keyed key taken) (owner : Owner) (count : Nat) :
    (table.rollback owner count).Keyed key (dropNewest owner count taken) := by
  show dropNewest owner count table.held = _
  rw [h, dropNewest_map]

theorem Keyed.finish [DecidableEq Owner] {table : LockTable Owner Key} {key : Thing → Key}
    {taken : List (Owner × Thing)} (h : table.Keyed key taken) (owner : Owner) :
    (table.finish owner).Keyed key (dropAll owner taken) := by
  show dropAll owner table.held = _
  rw [h, dropAll_map]

end LockTable

end ProdkitStorage.Foundation

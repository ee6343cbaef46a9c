import ProdkitStorage.Foundation.DepthFirst
import ProdkitStorage.Python.Error

/-!
# Schemas

`reject_nul_characters` of `integrations/pydantic/schemas.py`, on a graph of objects that
are known by their identities.  It is a search with a stack that marks mappings and
collections, but not models.

A cycle of models alone is looked at again and again.  `rejects_iff`: the search is exact where no
such cycle is ahead, and otherwise only where it meets a NUL character first.
-/

namespace ProdkitStorage.Integrations

open ProdkitStorage.Foundation
open ProdkitStorage.Python
open Relation (ReflTransGen TransGen)

/-! ## Objects -/

/-- What an object is to the search, in the order of its tests. -/
inductive Item (ν : Type) where
  | text (value : String)
  /-- A `BaseModel`, with the values of its `__dict__`. -/
  | model (fields : List ν)
  | mapping (keys values : List ν)
  /-- Any other collection, but `bytes` and `bytearray`. -/
  | collection (items : List ν)
  | other

/-- The objects, by their identities. -/
abbrev Objects (ν : Type) := ν → Item ν

/-- The error of a NUL character. -/
def nulError : PyError := .valueError "value contains a PostgreSQL-incompatible NUL character"

/-- A text that has a NUL character. -/
def hasNul (value : String) : Bool := '\x00' ∈ value.toList

/-- The loop of `reject_nul_characters`, for so many steps.  The end of `pending` is the head of
the list. -/
def rejectLoop {ν : Type} [DecidableEq ν] (objects : Objects ν) :
    Nat → List ν → List ν → Option (Except PyError Unit)
  | 0, _, _ => none
  | _ + 1, [], _ => some (.ok ())
  | fuel + 1, current :: pending, visited =>
      match objects current with
      | .text value =>
          if hasNul value then some (.error nulError) else rejectLoop objects fuel pending visited
      | .model fields => rejectLoop objects fuel (fields.reverse ++ pending) visited
      | .mapping keys values =>
          if current ∈ visited then rejectLoop objects fuel pending visited
          else
            rejectLoop objects fuel (values.reverse ++ (keys.reverse ++ pending))
              (current :: visited)
      | .collection items =>
          if current ∈ visited then rejectLoop objects fuel pending visited
          else rejectLoop objects fuel (items.reverse ++ pending) (current :: visited)
      | .other => rejectLoop objects fuel pending visited

/-- `reject_nul_characters`, for so many steps: `none` where it is still running. -/
def rejectNulCharacters {ν : Type} [DecidableEq ν] (objects : Objects ν) (fuel : Nat) (value : ν) :
    Option (Except PyError Unit) :=
  rejectLoop objects fuel [value] []

/-! ## What it is to find -/

section
variable {ν : Type} (objects : Objects ν)

/-- The parts of an object. -/
def parts (n : ν) : List ν :=
  match objects n with
  | .text _ => []
  | .model fields => fields
  | .mapping keys values => keys ++ values
  | .collection items => items
  | .other => []

/-- One object is a part of another. -/
def Part (a b : ν) : Prop := b ∈ parts objects a

/-- A text with a NUL character can be reached from the value. -/
def NulWithin (value : ν) : Prop :=
  ∃ n text, ReflTransGen (Part objects) value n ∧ objects n = .text text ∧ hasNul text = true

/-- A model that is the value of a field of another. -/
def Field (a b : ν) : Prop := ∃ fields, objects a = .model fields ∧ b ∈ fields

/-- A cycle of models alone can be reached from the value. -/
def ModelCycleWithin (value : ν) : Prop :=
  ∃ n, ReflTransGen (Part objects) value n ∧ TransGen (Field objects) n n

/-- The check terminates, and rejects the value exactly when it has a NUL character in it. -/
def Exact [DecidableEq ν] (value : ν) : Prop :=
  ∃ fuel outcome, rejectNulCharacters objects fuel value = some outcome ∧
    (outcome = .error nulError ↔ NulWithin objects value)

/-! ## The search -/

/-- The search of the check: a model is looked at each time it is met. -/
def nulSearch : Search ν Unit where
  links n := (parts objects n).reverse
  marks n :=
    match objects n with
    | .mapping _ _ => true
    | .collection _ => true
    | _ => false
  found n :=
    match objects n with
    | .text value => if hasNul value then some () else none
    | _ => none

/-- What a search that finds a NUL character, or none, is to the check. -/
def rejected : Option Unit → Except PyError Unit
  | some () => .error nulError
  | none => .ok ()

end

variable {ν : Type} {objects : Objects ν}

/-- The loop is the search. -/
theorem rejectLoop_eq_run [DecidableEq ν] (fuel : Nat) (pending visited : List ν) :
    rejectLoop objects fuel pending visited =
      ((nulSearch objects).run fuel pending visited).map rejected := by
  induction fuel generalizing pending visited with
  | zero => rfl
  | succ fuel ih =>
      cases pending with
      | nil => rfl
      | cons n pending =>
          unfold rejectLoop
          cases hobject : objects n with
          | text value =>
              have hmarks : (nulSearch objects).marks n = false := by simp [nulSearch, hobject]
              have hlinks : (nulSearch objects).links n = [] := by simp [nulSearch, parts, hobject]
              cases hnul : hasNul value with
              | true =>
                  have hfound : (nulSearch objects).found n = some () := by
                    simp [nulSearch, hobject, hnul]
                  rw [Search.run_stop (Search.not_skips_of_unmarked hmarks) hfound]
                  exact if_pos hnul
              | false =>
                  have hfound : (nulSearch objects).found n = none := by
                    simp [nulSearch, hobject, hnul]
                  rw [Search.run_unmarked hmarks hfound, hlinks, ← ih]
                  exact if_neg (by rw [hnul]; exact Bool.false_ne_true)
          | model fields =>
              have hmarks : (nulSearch objects).marks n = false := by simp [nulSearch, hobject]
              have hfound : (nulSearch objects).found n = none := by simp [nulSearch, hobject]
              have hlinks : (nulSearch objects).links n = fields.reverse := by
                simp [nulSearch, parts, hobject]
              rw [Search.run_unmarked hmarks hfound, hlinks, ← ih]
          | mapping keys values =>
              have hmarks : (nulSearch objects).marks n = true := by simp [nulSearch, hobject]
              have hfound : (nulSearch objects).found n = none := by simp [nulSearch, hobject]
              have hlinks : (nulSearch objects).links n = values.reverse ++ keys.reverse := by
                simp [nulSearch, parts, hobject]
              rw [Search.run_marked hmarks hfound, hlinks, List.append_assoc]
              dsimp only
              split
              · rw [ih]
              · rw [ih]
          | collection items =>
              have hmarks : (nulSearch objects).marks n = true := by simp [nulSearch, hobject]
              have hfound : (nulSearch objects).found n = none := by simp [nulSearch, hobject]
              have hlinks : (nulSearch objects).links n = items.reverse := by
                simp [nulSearch, parts, hobject]
              rw [Search.run_marked hmarks hfound, hlinks]
              dsimp only
              split
              · rw [ih]
              · rw [ih]
          | other =>
              have hmarks : (nulSearch objects).marks n = false := by simp [nulSearch, hobject]
              have hfound : (nulSearch objects).found n = none := by simp [nulSearch, hobject]
              have hlinks : (nulSearch objects).links n = [] := by simp [nulSearch, parts, hobject]
              rw [Search.run_unmarked hmarks hfound, hlinks, ← ih]
              rfl

/-! ## When it is exact -/

/-- What can be reached is what the search can reach. -/
theorem linked_iff {a b : ν} : (nulSearch objects).Linked a b ↔ Part objects a b := by
  have hmem : b ∈ (nulSearch objects).links a ↔ b ∈ parts objects a := List.mem_reverse
  constructor
  · exact fun hlink => hmem.mp hlink.2
  · intro hpart
    refine ⟨?_, hmem.mpr hpart⟩
    unfold Part parts at hpart
    cases hobject : objects a with
    | text value =>
        rw [hobject] at hpart
        cases hpart
    | model fields => simp [nulSearch, hobject]
    | mapping keys values => simp [nulSearch, hobject]
    | collection items => simp [nulSearch, hobject]
    | other => simp [nulSearch, hobject]

/-- What is not marked and has links is a model. -/
theorem unmarked_iff {a b : ν} : (nulSearch objects).Unmarked a b ↔ Field objects a b := by
  constructor
  · rintro ⟨hmarks, hfound, hlink⟩
    have hpart : b ∈ parts objects a := List.mem_reverse.mp hlink
    unfold parts at hpart
    cases hobject : objects a with
    | text value =>
        rw [hobject] at hpart
        cases hpart
    | model fields =>
        rw [hobject] at hpart
        exact ⟨fields, hobject, hpart⟩
    | mapping keys values => simp [nulSearch, hobject] at hmarks
    | collection items => simp [nulSearch, hobject] at hmarks
    | other =>
        rw [hobject] at hpart
        cases hpart
  · rintro ⟨fields, hobject, hmem⟩
    refine ⟨by simp [nulSearch, hobject], by simp [nulSearch, hobject], ?_⟩
    refine List.mem_reverse.mpr ?_
    unfold parts
    rw [hobject]
    exact hmem

theorem onCycle_iff {n : ν} : (nulSearch objects).OnCycle n ↔ TransGen (Field objects) n n := by
  have hlinks : (nulSearch objects).Unmarked = Field objects := by
    funext a b
    exact propext unmarked_iff
  rw [Search.OnCycle, hlinks]

theorem found_iff {n : ν} : (nulSearch objects).found n ≠ none ↔
    ∃ text, objects n = .text text ∧ hasNul text = true := by
  cases hobject : objects n with
  | text value => simp [nulSearch, hobject]
  | model fields => simp [nulSearch, hobject]
  | mapping keys values => simp [nulSearch, hobject]
  | collection items => simp [nulSearch, hobject]
  | other => simp [nulSearch, hobject]

theorem linked_eq (objects : Objects ν) : (nulSearch objects).Linked = Part objects := by
  funext a b
  exact propext linked_iff

/-- Ahead of a value there is a NUL character or a cycle of models. -/
theorem trouble_iff {value : ν} : (nulSearch objects).Trouble [] value ↔
    NulWithin objects value ∨ ModelCycleWithin objects value := by
  rw [Search.trouble_nil_iff, linked_eq]
  constructor
  · rintro ⟨n, hreach, hfound | hcycle⟩
    · obtain ⟨text, hobject, hnul⟩ := found_iff.mp hfound
      exact .inl ⟨n, text, hreach, hobject, hnul⟩
    · exact .inr ⟨n, hreach, onCycle_iff.mp hcycle⟩
  · rintro (⟨n, text, hreach, hobject, hnul⟩ | ⟨n, hreach, hcycle⟩)
    · exact ⟨n, hreach, .inl (found_iff.mpr ⟨text, hobject, hnul⟩)⟩
    · exact ⟨n, hreach, .inr (onCycle_iff.mpr hcycle)⟩

/-- The walk that takes, from the last part of each object to the first, the first one with a NUL
character or a cycle of models ahead of it comes to a NUL character. -/
def MeetsNul (objects : Objects ν) (value : ν) : Prop := (nulSearch objects).Leads [] value ()

/-- The check is exact where no cycle of models can be reached; and in general exactly where
there is neither such a cycle nor a NUL character, or the walk comes to a NUL character. -/
theorem exact_iff [Finite ν] [DecidableEq ν] (objects : Objects ν) (value : ν) :
    (¬ModelCycleWithin objects value → Exact objects value) ∧
      (Exact objects value ↔
        (¬NulWithin objects value ∧ ¬ModelCycleWithin objects value) ∨
          MeetsNul objects value) := by
  have hruns : ∀ out, (∃ fuel, (nulSearch objects).run fuel [value] [] = some out) →
      ∃ fuel, rejectNulCharacters objects fuel value = some (rejected out) := by
    rintro out ⟨fuel, hrun⟩
    refine ⟨fuel, ?_⟩
    rw [rejectNulCharacters, rejectLoop_eq_run, hrun]
    rfl
  have hmeets : MeetsNul objects value → Exact objects value := by
    intro hleads
    obtain ⟨fuel, hrun⟩ := hruns (some ()) (Search.run_found_iff.mpr hleads)
    refine ⟨fuel, _, hrun, fun _ => ?_, fun _ => rfl⟩
    obtain ⟨n, hreach, hfound⟩ := hleads.found
    obtain ⟨text, hobject, hnul⟩ := found_iff.mp (by rw [hfound]; exact Option.some_ne_none _)
    rw [linked_eq] at hreach
    exact ⟨n, text, hreach, hobject, hnul⟩
  have hquiet : ¬NulWithin objects value → ¬ModelCycleWithin objects value →
      Exact objects value := by
    intro hnul hcycle
    have hclear : ¬(nulSearch objects).Trouble [] value := fun htrouble =>
      (trouble_iff.mp htrouble).elim hnul hcycle
    obtain ⟨fuel, hrun⟩ := hruns none (Search.run_none_iff.mpr hclear)
    exact ⟨fuel, _, hrun, fun hfails => (nomatch hfails), fun hwithin => absurd hwithin hnul⟩
  refine ⟨fun hcycle => ?_, fun hexact => ?_, ?_⟩
  · by_cases hnul : NulWithin objects value
    · have hacyclic : ∀ m, ReflTransGen (nulSearch objects).Linked value m →
          ¬(nulSearch objects).OnCycle m := by
        intro m hreach hon
        rw [linked_eq] at hreach
        exact hcycle ⟨m, hreach, onCycle_iff.mp hon⟩
      obtain ⟨_, hleads⟩ := Search.leads_of_trouble hacyclic (trouble_iff.mpr (.inl hnul))
      exact hmeets hleads
    · exact hquiet hnul hcycle
  · obtain ⟨fuel, outcome, hends, -⟩ := hexact
    rw [rejectNulCharacters, rejectLoop_eq_run] at hends
    obtain ⟨out, hrun, -⟩ := Option.map_eq_some_iff.mp hends
    rcases Search.run_single hrun with ⟨_, hleads, -⟩ | ⟨hclear, -⟩
    · exact .inr hleads
    · exact .inl (not_or.mp fun hahead => hclear (trouble_iff.mpr hahead))
  · rintro (⟨hnul, hcycle⟩ | hleads)
    · exact hquiet hnul hcycle
    · exact hmeets hleads

/-! ## Samples -/

/-- A model with a list of itself and two texts. -/
def inList : Objects (Fin 4) := [.model [1], .collection [0, 2, 3], .text "a", .text "b"].get

theorem exact_inList : Exact inList 0 := by
  refine (exact_iff inList 0).1 ?_
  have hfield : ∀ a b, Field inList a b → a = 0 ∧ b = 1 := by
    rintro a b ⟨fields, hobject, hmem⟩
    match a, hobject with
    | 0, hobject =>
        cases hobject
        exact ⟨rfl, List.mem_singleton.mp hmem⟩
    | 1, hobject => cases hobject
    | 2, hobject => cases hobject
    | 3, hobject => cases hobject
  rintro ⟨n, -, hcycle⟩
  obtain ⟨m, -, hlast⟩ := Relation.TransGen.tail'_iff.mp hcycle
  obtain ⟨k, hfirst, -⟩ := Relation.TransGen.head'_iff.mp hcycle
  have hone := (hfield _ _ hlast).2
  rw [(hfield _ _ hfirst).1] at hone
  cases hone

/-- A model that is the value of its own field. -/
def selfReference : Objects Unit := fun _ => .model [()]

theorem selfReference_hangs (fuel : Nat) : rejectNulCharacters selfReference fuel () = none := by
  induction fuel with
  | zero => rfl
  | succ fuel ih => exact ih

/-- The check of it never ends. -/
theorem selfReference_not_exact :
    ¬∀ {ν : Type} [Finite ν] [DecidableEq ν] (objects : Objects ν) (value : ν),
      Exact objects value := by
  intro hall
  obtain ⟨fuel, outcome, hends, -⟩ := hall selfReference ()
  rw [selfReference_hangs] at hends
  cases hends

end ProdkitStorage.Integrations

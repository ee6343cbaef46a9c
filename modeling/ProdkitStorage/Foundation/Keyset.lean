import ProdkitStorage.Foundation.Ordering
import ProdkitStorage.Foundation.Transition
import ProdkitStorage.Foundation.Truth

/-!
# Keyset pagination

The rows after a bound, in a lexicographic order, are the rows that agree with it
in the first comparisons and come after it in the next one, for some number of
first comparisons.  `alternatives` lists these conditions.

A keyset walk reads a changing table page by page.  A fetch takes the first items
after the bound, and the last of them is the next bound.  Between two fetches the
table may become any other.  The items returned are sorted strictly, whatever
happens to the table (`Walk.Sound`).  An item that is always there, with a key that
does not change, is still ahead until it is returned (`Walk.Tracks`).
-/

namespace ProdkitStorage.Foundation

open Std (OrientedCmp TransCmp)

variable {α : Type}

/-! ## The rows after a bound -/

/-- The two conditions of one comparison on a row: it comes after the bound, and it agrees with
the bound. -/
structure Bound (α : Type) where
  after : α → Truth
  equality : α → Truth

/-- The conditions are those of the comparison at the row `r`. -/
structure Bound.At (bound : Bound α) (cmp : α → α → Ordering) (r : α) : Prop where
  after : ∀ a, bound.after a = .true ↔ cmp r a = .lt
  equality : ∀ a, bound.equality a = .true ↔ cmp r a = .eq

/-- One conjunction for each comparison, after the conditions of an equal prefix. -/
def alternatives (equalPrefix : List (α → Truth)) : List (Bound α) → List (List (α → Truth))
  | [] => []
  | bound :: bounds =>
      (equalPrefix ++ [bound.after]) :: alternatives (equalPrefix ++ [bound.equality]) bounds

/-- `AND` of a list of conditions on a row. -/
def conjunction (criteria : List (α → Truth)) (a : α) : Truth :=
  Truth.all (criteria.map fun condition => condition a)

/-- `OR` of a list of conditions on a row. -/
def disjunction (criteria : List (α → Truth)) (a : α) : Truth :=
  Truth.any (criteria.map fun condition => condition a)

theorem conjunction_eq_true {criteria : List (α → Truth)} {a : α} :
    conjunction criteria a = .true ↔ ∀ condition ∈ criteria, condition a = .true := by
  simp [conjunction, Truth.all_eq_true]

theorem conjunction_append_eq_true {criteria : List (α → Truth)} {condition : α → Truth} {a : α} :
    conjunction (criteria ++ [condition]) a = .true ↔
      conjunction criteria a = .true ∧ condition a = .true := by
  simp only [conjunction_eq_true, List.mem_append, List.mem_singleton]
  constructor
  · intro h
    exact ⟨fun c hc => h c (.inl hc), h condition (.inr rfl)⟩
  · rintro ⟨h, hcondition⟩ c (hc | rfl)
    · exact h c hc
    · exact hcondition

theorem disjunction_cons_eq_true {criteria : List (α → Truth)} {condition : α → Truth} {a : α} :
    disjunction (condition :: criteria) a = .true ↔
      condition a = .true ∨ disjunction criteria a = .true := by
  simp [disjunction]

/-- The alternatives keep the rows after the bound. -/
theorem disjunction_alternatives {bounds : List (Bound α)} {comparisons : List (α → α → Ordering)}
    {r : α} (h : List.Forall₂ (fun bound cmp => bound.At cmp r) bounds comparisons)
    (equalPrefix : List (α → Truth)) (a : α) :
    disjunction ((alternatives equalPrefix bounds).map conjunction) a = .true ↔
      conjunction equalPrefix a = .true ∧ lex comparisons r a = .lt := by
  induction h generalizing equalPrefix with
  | nil => simp [alternatives, disjunction]
  | @cons bound cmp bounds comparisons hbound _ ih =>
      rw [alternatives, List.map_cons, disjunction_cons_eq_true, ih, conjunction_append_eq_true,
        conjunction_append_eq_true, hbound.after, hbound.equality, lex_cons, Ordering.then_eq_lt]
      constructor
      · rintro (⟨hties, hlt⟩ | ⟨⟨hties, heq⟩, hlt⟩)
        · exact ⟨hties, .inl hlt⟩
        · exact ⟨hties, .inr ⟨heq, hlt⟩⟩
      · rintro ⟨hties, hlt | ⟨heq, hlt⟩⟩
        · exact .inl ⟨hties, hlt⟩
        · exact .inr ⟨⟨hties, heq⟩, hlt⟩

/-! ## Walks -/

/-- A walk: the table a fetch would read, the bound of the next fetch, and all items returned. -/
structure Walk (Item : Type) where
  table : List Item
  bound : Option Item
  returned : List Item
  finished : Bool

/-- What happens between two states of a walk. -/
inductive WalkLabel where
  | write
  | fetch (limit : Nat)
deriving DecidableEq, Repr

variable {Item : Type} (cmp : Item → Item → Ordering)

/-- The item comes after the bound, if there is one. -/
def IsAfter : Option Item → Item → Prop
  | none, _ => True
  | some bound, item => cmp bound item = .lt

instance (bound : Option Item) : DecidablePred (IsAfter cmp bound) := fun item =>
  match bound with
  | none => inferInstanceAs (Decidable True)
  | some bound => inferInstanceAs (Decidable (cmp bound item = .lt))

/-- The items a fetch finds, without a limit. -/
def found (table : List Item) (bound : Option Item) : List Item :=
  sortBy cmp (table.filter fun item => IsAfter cmp bound item)

/-- The order tells any two items of the table apart. -/
def Distinct (table : List Item) : Prop := table.Pairwise fun a b => cmp a b ≠ .eq

/-- The state after a page. -/
def Walk.fetch (walk : Walk Item) (limit : Nat) : Walk Item :=
  let items := found cmp walk.table walk.bound
  { table := walk.table
    bound := (items.take limit).getLast?
    returned := walk.returned ++ items.take limit
    finished := !decide (limit < items.length) }

/-- Walks over a table that changes between the fetches and always tells its items apart. -/
def keysetWalk : System (Walk Item) WalkLabel where
  init walk := walk.bound = none ∧ walk.returned = [] ∧ walk.finished = false ∧
    Distinct cmp walk.table
  step before label after :=
    match label with
    | .write => Distinct cmp after.table ∧ after = { before with table := after.table }
    | .fetch limit => before.finished = false ∧ 0 < limit ∧ after = before.fetch cmp limit

variable {cmp}

theorem mem_found {table : List Item} {bound : Option Item} {item : Item} :
    item ∈ found cmp table bound ↔ item ∈ table ∧ IsAfter cmp bound item := by
  simp [found, mem_sortBy]

/-- Everything comes after no bound. -/
theorem filter_isAfter_none (cmp : Item → Item → Ordering) (table : List Item) :
    table.filter (fun item => IsAfter cmp none item) = table :=
  List.filter_eq_self.mpr fun _ _ => decide_eq_true trivial

theorem found_strict (h : TransCmp cmp) {table : List Item} (hdistinct : Distinct cmp table)
    (bound : Option Item) : (found cmp table bound).Pairwise fun a b => cmp a b = .lt :=
  sortBy_strict h (hdistinct.sublist List.filter_sublist)

/-- What comes after an item after the bound comes after the bound. -/
theorem IsAfter.trans (h : TransCmp cmp) {bound : Option Item} {last item : Item}
    (hlast : IsAfter cmp bound last) (hitem : cmp last item = .lt) : IsAfter cmp bound item := by
  cases bound with
  | none => trivial
  | some b => exact TransCmp.lt_trans hlast hitem

/-- A page that leaves items ends with an item. -/
theorem exists_getLast_take {items : List Item} {limit : Nat} (hlimit : 1 ≤ limit)
    (hlonger : limit < items.length) : ∃ last, (items.take limit).getLast? = some last := by
  refine Option.isSome_iff_exists.mp (List.getLast?_isSome.mpr (List.ne_nil_of_length_pos ?_))
  rw [List.length_take]
  omega

/-- In a list that is sorted strictly every item is the last one or comes before it. -/
theorem le_getLast (h : TransCmp cmp) {items : List Item}
    (hsorted : items.Pairwise fun a b => cmp a b = .lt) {last item : Item}
    (hlast : items.getLast? = some last) (hitem : item ∈ items) : (cmp item last).isLE := by
  obtain ⟨front, rfl⟩ := List.getLast?_eq_some_iff.mp hlast
  rcases List.mem_append.mp hitem with hfront | hself
  · have hlt := (List.pairwise_append.mp hsorted).2.2 item hfront last (List.mem_singleton_self _)
    rw [hlt]
    rfl
  · rw [List.mem_singleton.mp hself]
    exact Std.ReflCmp.isLE_rfl

/-- Every item that is not on the page comes after the last item that is. -/
theorem getLast_lt {items : List Item} (hsorted : items.Pairwise fun a b => cmp a b = .lt)
    {limit : Nat} {last item : Item} (hlast : (items.take limit).getLast? = some last)
    (hitem : item ∈ items.drop limit) : cmp last item = .lt := by
  rw [← List.take_append_drop limit items] at hsorted
  exact (List.pairwise_append.mp hsorted).2.2 last (List.mem_of_getLast? hlast) item hitem

/-! ## What a walk returns -/

/-- The items returned are sorted strictly, and while the walk goes on none of them is after the
bound. -/
structure Walk.Sound (cmp : Item → Item → Ordering) (walk : Walk Item) : Prop where
  distinct : Distinct cmp walk.table
  sorted : walk.returned.Pairwise fun a b => cmp a b = .lt
  behind : walk.finished = false → ∀ item ∈ walk.returned,
    ∃ bound, walk.bound = some bound ∧ (cmp item bound).isLE

theorem Walk.Sound.fetch (h : TransCmp cmp) {walk : Walk Item} (hsound : walk.Sound cmp)
    (hgoing : walk.finished = false) {limit : Nat} (hlimit : 0 < limit) :
    (walk.fetch cmp limit).Sound cmp := by
  have hstrict := found_strict h hsound.distinct walk.bound
  have hpage : ((found cmp walk.table walk.bound).take limit).Pairwise fun a b => cmp a b = .lt :=
    hstrict.sublist (List.take_sublist _ _)
  -- Everything on the page comes after everything returned before.
  have hcross : ∀ old ∈ walk.returned, ∀ new ∈ (found cmp walk.table walk.bound).take limit,
      cmp old new = .lt := by
    intro old hold new hnew
    obtain ⟨bound, hbound, hle⟩ := hsound.behind hgoing old hold
    have hafter := (mem_found.mp (List.mem_of_mem_take hnew)).2
    rw [hbound] at hafter
    exact TransCmp.lt_of_isLE_of_lt hle hafter
  refine ⟨hsound.distinct, List.pairwise_append.mpr ⟨hsound.sorted, hpage, hcross⟩, ?_⟩
  intro hmore item hitem
  have hlonger : limit < (found cmp walk.table walk.bound).length := by
    simpa [Walk.fetch] using hmore
  obtain ⟨last, hlast⟩ := exists_getLast_take hlimit hlonger
  refine ⟨last, hlast, ?_⟩
  rcases List.mem_append.mp hitem with hold | hnew
  · have hlt := hcross item hold last (List.mem_of_getLast? hlast)
    rw [hlt]
    rfl
  · exact le_getLast h hpage hlast hnew

/-- Along every run of a walk. -/
theorem Walk.sound (h : TransCmp cmp) {history : List WalkLabel} {walk : Walk Item}
    (hr : (keysetWalk cmp).Reaches history walk) : walk.Sound cmp := by
  refine hr.invariant (I := fun _ walk => walk.Sound cmp) ?_ ?_
  · rintro walk ⟨-, hreturned, -, hdistinct⟩
    exact ⟨hdistinct, by simp [hreturned], by simp [hreturned]⟩
  · intro history before label after _ hsound hstep
    cases label with
    | write =>
        obtain ⟨hdistinct, hafter⟩ := hstep
        rw [hafter]
        exact ⟨hdistinct, hsound.sorted, hsound.behind⟩
    | fetch limit =>
        obtain ⟨hgoing, hlimit, rfl⟩ := hstep
        exact hsound.fetch h hgoing hlimit

/-- An item that satisfies `Q` was returned, or the walk goes on and all such items are ahead. -/
def Walk.Tracks (cmp : Item → Item → Ordering) (Q : Item → Prop) (walk : Walk Item) : Prop :=
  (∃ item ∈ walk.returned, Q item) ∨
    (walk.finished = false ∧ ∀ item, Q item → IsAfter cmp walk.bound item)

theorem Walk.Tracks.fetch (h : TransCmp cmp) {Q : Item → Prop}
    (hkey : ∀ a b, Q a → Q b → cmp a b = .eq) {walk : Walk Item} (hsound : walk.Sound cmp)
    (htracks : walk.Tracks cmp Q) (hpresent : ∃ item ∈ walk.table, Q item) (limit : Nat)
    (hlimit : 0 < limit) : (walk.fetch cmp limit).Tracks cmp Q := by
  rcases htracks with ⟨item, hitem, hq⟩ | ⟨-, hahead⟩
  · exact .inl ⟨item, List.mem_append_left _ hitem, hq⟩
  · obtain ⟨item, hitem, hq⟩ := hpresent
    have hfound : item ∈ found cmp walk.table walk.bound :=
      mem_found.mpr ⟨hitem, hahead item hq⟩
    rw [← List.take_append_drop limit (found cmp walk.table walk.bound)] at hfound
    rcases List.mem_append.mp hfound with hpage | hrest
    · exact .inl ⟨item, List.mem_append_right _ hpage, hq⟩
    · have hlonger : limit < (found cmp walk.table walk.bound).length := by
        have := List.length_pos_of_mem hrest
        rw [List.length_drop] at this
        omega
      obtain ⟨last, hlast⟩ := exists_getLast_take hlimit hlonger
      refine .inr ⟨by simpa [Walk.fetch] using hlonger, ?_⟩
      intro other hother
      have hlt := getLast_lt (found_strict h hsound.distinct walk.bound) hlast hrest
      have heq := hkey item other hq hother
      simp only [Walk.fetch, hlast, IsAfter]
      exact TransCmp.lt_of_lt_of_eq hlt heq

/-- Along every run in which some item of the table always satisfies `Q`. -/
theorem Walk.tracks (h : TransCmp cmp) {Q : Item → Prop}
    (hkey : ∀ a b, Q a → Q b → cmp a b = .eq) {history : List WalkLabel} {walk : Walk Item}
    (hr : ((keysetWalk cmp).throughout fun walk =>
      ∃ item ∈ walk.table, Q item).Reaches history walk) :
    walk.Tracks cmp Q := by
  refine hr.invariant (I := fun _ walk => walk.Tracks cmp Q) ?_ ?_
  · rintro walk ⟨⟨hbound, -, hgoing, -⟩, -⟩
    exact .inr ⟨hgoing, fun _ _ => by simp [hbound, IsAfter]⟩
  · rintro history before label after hreaches htracks ⟨hstep, -⟩
    cases label with
    | write =>
        obtain ⟨-, hafter⟩ := hstep
        rw [hafter]
        exact htracks
    | fetch limit =>
        obtain ⟨-, hlimit, rfl⟩ := hstep
        exact htracks.fetch h hkey (Walk.sound h hreaches.of_throughout) hreaches.holds_throughout
          limit hlimit

/-- What holds of the table all the time holds of everything returned. -/
theorem Walk.returned_forall {P : Item → Prop} {history : List WalkLabel} {walk : Walk Item}
    (hr : ((keysetWalk cmp).throughout fun walk => ∀ item ∈ walk.table, P item).Reaches history
      walk) : ∀ item ∈ walk.returned, P item := by
  refine hr.invariant (I := fun _ walk => ∀ item ∈ walk.returned, P item) ?_ ?_
  · rintro walk ⟨⟨-, hreturned, -, -⟩, -⟩
    simp [hreturned]
  · rintro history before label after hreaches hall ⟨hstep, -⟩
    cases label with
    | write =>
        obtain ⟨-, hafter⟩ := hstep
        rw [hafter]
        exact hall
    | fetch limit =>
        obtain ⟨-, -, rfl⟩ := hstep
        intro item hitem
        rcases List.mem_append.mp hitem with hold | hnew
        · exact hall item hold
        · exact hreaches.holds_throughout item (mem_found.mp (List.mem_of_mem_take hnew)).1

/-- In a list that is sorted strictly, items that agree in the order occur at most once. -/
theorem countP_le_one {items : List Item} (hsorted : items.Pairwise fun a b => cmp a b = .lt)
    {Q : Item → Bool}
    (hkey : ∀ a ∈ items, ∀ b ∈ items, Q a = true → Q b = true → cmp a b = .eq) :
    items.countP Q ≤ 1 := by
  induction items with
  | nil => exact Nat.zero_le _
  | cons item items ih =>
      rw [List.pairwise_cons] at hsorted
      by_cases hq : Q item = true
      · have hnone : items.countP Q = 0 := by
          refine List.countP_eq_zero.mpr fun other hother hq' => ?_
          have hlt := hsorted.1 other hother
          rw [hkey item List.mem_cons_self other (List.mem_cons_of_mem _ hother) hq hq'] at hlt
          cases hlt
        rw [List.countP_cons_of_pos hq]
        omega
      · rw [List.countP_cons_of_neg hq]
        exact ih hsorted.2 fun a ha b hb =>
          hkey a (List.mem_cons_of_mem _ ha) b (List.mem_cons_of_mem _ hb)

end ProdkitStorage.Foundation

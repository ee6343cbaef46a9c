import ProdkitStorage.Database.Pagination

/-!
# Following the cursors

What a client does with `next_cursor` on a table that does not change: it fetches the
first page without a cursor and every other page with the cursor of the page before,
until `has_more` is false.  `Walked` is a page such a client meets, and `Follows` the
pages from a cursor to the end.
-/

namespace ProdkitStorage.Database

open ProdkitStorage.Python

/-- How a client gets the page after a cursor. -/
abbrev Fetch (Row : Type) := Option String → Except PyError (CursorPage Row)

variable {Row : Type}

/-- A page of a walk, after the rows returned before it and the cursor it was fetched with. -/
inductive Walked (fetch : Fetch Row) : List Row → Option String → CursorPage Row → Prop where
  | first {page : CursorPage Row} : fetch none = .ok page → Walked fetch [] none page
  | next {returned : List Row} {cursor : Option String} {before page : CursorPage Row}
      {token : String} : Walked fetch returned cursor before → before.nextCursor = some token →
      fetch (some token) = .ok page → Walked fetch (returned ++ before.items) (some token) page

/-- The pages from a cursor to the first that has no more. -/
inductive Follows (fetch : Fetch Row) : Option String → List (CursorPage Row) → Prop where
  | last {cursor : Option String} {page : CursorPage Row} :
      fetch cursor = .ok page → page.hasMore = false → Follows fetch cursor [page]
  | next {cursor : Option String} {page : CursorPage Row} {token : String}
      {pages : List (CursorPage Row)} : fetch cursor = .ok page → page.hasMore = true →
      page.nextCursor = some token → Follows fetch (some token) pages →
      Follows fetch cursor (page :: pages)

/-- The rows of the pages. -/
def itemsOf (pages : List (CursorPage Row)) : List Row := pages.flatMap CursorPage.items

@[simp] theorem itemsOf_nil : itemsOf ([] : List (CursorPage Row)) = [] := rfl

@[simp] theorem itemsOf_cons (page : CursorPage Row) (pages : List (CursorPage Row)) :
    itemsOf (page :: pages) = page.items ++ itemsOf pages := rfl

variable {fetch : Fetch Row}

theorem Walked.fetched {returned : List Row} {cursor : Option String} {page : CursorPage Row}
    (h : Walked fetch returned cursor page) : fetch cursor = .ok page := by
  cases h with
  | first hfetch => exact hfetch
  | next _ _ hfetch => exact hfetch

/-- The first of the pages from a cursor. -/
theorem Follows.fetched {cursor : Option String} {pages : List (CursorPage Row)}
    (h : Follows fetch cursor pages) : ∃ page, fetch cursor = .ok page := by
  cases h with
  | last hfetch _ => exact ⟨_, hfetch⟩
  | next hfetch _ _ _ => exact ⟨_, hfetch⟩

/-- The pages from a cursor whose page is the last. -/
theorem Follows.of_last {cursor : Option String} {page : CursorPage Row}
    {pages : List (CursorPage Row)} (h : Follows fetch cursor pages)
    (hpage : fetch cursor = .ok page) (hlast : page.hasMore = false) : pages = [page] := by
  cases h with
  | last hfetch _ =>
      obtain rfl := Except.ok.inj (hpage.symm.trans hfetch)
      rfl
  | next hfetch hmore _ _ =>
      obtain rfl := Except.ok.inj (hpage.symm.trans hfetch)
      rw [hlast] at hmore
      cases hmore

/-- The pages from a cursor whose page has more. -/
theorem Follows.of_more {cursor : Option String} {page : CursorPage Row}
    {pages : List (CursorPage Row)} (h : Follows fetch cursor pages)
    (hpage : fetch cursor = .ok page) (hmore : page.hasMore = true) :
    ∃ token rest, page.nextCursor = some token ∧ Follows fetch (some token) rest ∧
      pages = page :: rest := by
  cases h with
  | last hfetch hlast =>
      obtain rfl := Except.ok.inj (hpage.symm.trans hfetch)
      rw [hmore] at hlast
      cases hlast
  | next hfetch _ hnext hrest =>
      obtain rfl := Except.ok.inj (hpage.symm.trans hfetch)
      exact ⟨_, _, hnext, hrest, rfl⟩

/-- The pages from a cursor are determined. -/
theorem Follows.unique {cursor : Option String} {pages others : List (CursorPage Row)}
    (h : Follows fetch cursor pages) (h' : Follows fetch cursor others) : pages = others := by
  induction h generalizing others with
  | last hfetch hlast => exact (h'.of_last hfetch hlast).symm
  | next hfetch hmore hnext _ ih =>
      obtain ⟨token, rest, hnext', hrest, rfl⟩ := h'.of_more hfetch hmore
      obtain rfl := Option.some.inj (hnext.symm.trans hnext')
      rw [ih hrest]

/-- What holds of the rows of every page holds of all rows returned. -/
theorem Follows.forall_items {P : Row → Prop} {pages : List (CursorPage Row)}
    {cursor : Option String} (h : Follows fetch cursor pages)
    (hfirst : ∀ page, fetch cursor = .ok page → ∀ row ∈ page.items, P row)
    (hnext : ∀ token page, fetch (some token) = .ok page → ∀ row ∈ page.items, P row) :
    ∀ row ∈ itemsOf pages, P row := by
  induction h with
  | last hfetch _ =>
      intro row hrow
      exact hfirst _ hfetch row (by simpa using hrow)
  | next hfetch _ _ _ ih =>
      intro row hrow
      rw [itemsOf_cons] at hrow
      rcases List.mem_append.mp hrow with hpage | hrest
      · exact hfirst _ hfetch row hpage
      · exact ih (hnext _) row hrest

/-- The first row returned is on the first page, unless an empty page has more. -/
theorem Follows.head_mem {cursor : Option String} {pages : List (CursorPage Row)}
    (h : Follows fetch cursor pages) {row : Row} {rest : List Row}
    (hrows : itemsOf pages = row :: rest)
    (hempty : ∀ page, fetch cursor = .ok page → page.items = [] → page.hasMore = false) :
    ∃ page, fetch cursor = .ok page ∧ row ∈ page.items := by
  cases h with
  | @last _ page hfetch _ =>
      refine ⟨page, hfetch, ?_⟩
      rw [itemsOf_cons, itemsOf_nil, List.append_nil] at hrows
      rw [hrows]
      exact List.mem_cons_self
  | @next _ page _ _ hfetch hmore _ _ =>
      refine ⟨page, hfetch, ?_⟩
      cases hitems : page.items with
      | nil =>
          rw [hempty page hfetch hitems] at hmore
          cases hmore
      | cons head items =>
          rw [itemsOf_cons, hitems] at hrows
          obtain ⟨rfl, -⟩ := List.cons.inj hrows
          exact List.mem_cons_self

end ProdkitStorage.Database

import Mathlib.Data.List.Basic

/-!
# Lexicographic orders

The order of an `ORDER BY` clause: a list of comparisons, the first that tells two
rows apart decides.  A column may be NULL, and NULL is placed before or after
every value, in either direction.
-/

namespace ProdkitStorage.Foundation

open Std (OrientedCmp TransCmp)

variable {α : Type}

/-- The first comparison that tells two rows apart. -/
def lex : List (α → α → Ordering) → α → α → Ordering
  | [], _, _ => .eq
  | cmp :: rest, a, b => (cmp a b).then (lex rest a b)

@[simp] theorem lex_nil (a b : α) : lex [] a b = .eq := rfl

@[simp] theorem lex_cons (cmp : α → α → Ordering) (rest : List (α → α → Ordering)) (a b : α) :
    lex (cmp :: rest) a b = (cmp a b).then (lex rest a b) := rfl

theorem lex_append (first second : List (α → α → Ordering)) (a b : α) :
    lex (first ++ second) a b = (lex first a b).then (lex second a b) := by
  induction first with
  | nil => rfl
  | cons cmp first ih => rw [List.cons_append, lex_cons, lex_cons, ih, Ordering.then_assoc]

/-- A lexicographic order of total orders is a total order. -/
theorem transCmp_lex {comparisons : List (α → α → Ordering)}
    (h : ∀ cmp ∈ comparisons, TransCmp cmp) : TransCmp (lex comparisons) := by
  induction comparisons with
  | nil => exact { eq_swap := rfl, isLE_trans := fun _ _ => rfl }
  | cons cmp rest ih =>
      have hcmp := h cmp List.mem_cons_self
      have hrest := ih fun cmp hmem => h cmp (List.mem_cons_of_mem _ hmem)
      exact inferInstanceAs (TransCmp (compareLex cmp (lex rest)))

/-- Two rows that a lexicographic order does not tell apart agree in every comparison. -/
theorem lex_eq_iff {comparisons : List (α → α → Ordering)} {a b : α} :
    lex comparisons a b = .eq ↔ ∀ cmp ∈ comparisons, cmp a b = .eq := by
  induction comparisons with
  | nil => simp
  | cons cmp rest ih => simp [ih]

/-! ## Direction and NULL -/

/-- The other direction. -/
def descending (cmp : α → α → Ordering) : α → α → Ordering := fun a b => cmp b a

/-- NULL before or after every value. -/
def placeNulls (nullsFirst : Bool) (cmp : α → α → Ordering) : Option α → Option α → Ordering
  | none, none => .eq
  | none, some _ => if nullsFirst then .lt else .gt
  | some _, none => if nullsFirst then .gt else .lt
  | some a, some b => cmp a b

theorem transCmp_descending {cmp : α → α → Ordering} (h : TransCmp cmp) :
    TransCmp (descending cmp) :=
  inferInstanceAs (TransCmp fun a b => cmp b a)

theorem transCmp_placeNulls (nullsFirst : Bool) {cmp : α → α → Ordering} (h : TransCmp cmp) :
    TransCmp (placeNulls nullsFirst cmp) where
  eq_swap {a b} := by
    cases a with
    | none => cases b <;> cases nullsFirst <;> rfl
    | some a =>
        cases b with
        | none => cases nullsFirst <;> rfl
        | some b => exact h.eq_swap
  isLE_trans {a b c} hab hbc := by
    cases a with
    | none => cases b <;> cases c <;> cases nullsFirst <;> simp_all [placeNulls]
    | some a =>
        cases b with
        | none => cases c <;> cases nullsFirst <;> simp_all [placeNulls]
        | some b =>
            cases c with
            | none => cases nullsFirst <;> simp_all [placeNulls]
            | some c => exact h.isLE_trans hab hbc

/-! ## Sorting -/

/-- Sort by a comparison; rows it does not tell apart keep their places. -/
def sortBy (cmp : α → α → Ordering) (rows : List α) : List α :=
  rows.mergeSort fun a b => (cmp a b).isLE

theorem sortBy_perm (cmp : α → α → Ordering) (rows : List α) : (sortBy cmp rows).Perm rows :=
  List.mergeSort_perm ..

theorem mem_sortBy {cmp : α → α → Ordering} {rows : List α} {a : α} :
    a ∈ sortBy cmp rows ↔ a ∈ rows :=
  (sortBy_perm cmp rows).mem_iff

theorem sortBy_sorted {cmp : α → α → Ordering} (h : TransCmp cmp) (rows : List α) :
    (sortBy cmp rows).Pairwise fun a b => (cmp a b).isLE := by
  refine List.pairwise_mergeSort ?_ ?_ rows
  · intro a b c hab hbc
    exact TransCmp.isLE_trans hab hbc
  · intro a b
    have hswap : cmp b a = (cmp a b).swap := OrientedCmp.eq_swap
    rw [hswap]
    cases cmp a b <;> rfl

/-- Rows that the order tells apart are sorted strictly. -/
theorem sortBy_strict {cmp : α → α → Ordering} (h : TransCmp cmp) {rows : List α}
    (hdistinct : rows.Pairwise fun a b => cmp a b ≠ .eq) :
    (sortBy cmp rows).Pairwise fun a b => cmp a b = .lt := by
  have hsymm : ∀ {a b : α}, cmp a b ≠ .eq → cmp b a ≠ .eq :=
    fun hab hba => hab (OrientedCmp.eq_symm hba)
  have hapart := ((sortBy_perm cmp rows).pairwise_iff hsymm).mpr hdistinct
  refine ((sortBy_sorted h rows).and hapart).imp ?_
  rintro a b ⟨hle, hne⟩
  cases hab : cmp a b with
  | lt => rfl
  | eq => exact absurd hab hne
  | gt => rw [hab] at hle; cases hle

/-- The order tells the members of a list that is sorted strictly apart. -/
theorem apart_of_sorted {cmp : α → α → Ordering} (h : TransCmp cmp) {rows sorted : List α}
    (hperm : sorted.Perm rows) (hsorted : sorted.Pairwise fun a b => cmp a b = .lt) :
    rows.Pairwise fun a b => cmp a b ≠ .eq := by
  have hsymm : ∀ {a b : α}, cmp a b ≠ .eq → cmp b a ≠ .eq :=
    fun hab hba => hab (OrientedCmp.eq_symm hba)
  refine (hperm.pairwise_iff hsymm).mp (hsorted.imp ?_)
  intro a b hlt heq
  rw [hlt] at heq
  cases heq

/-- A list that is sorted strictly is what sorting its members yields. -/
theorem sortBy_eq {cmp : α → α → Ordering} (h : TransCmp cmp) {rows sorted : List α}
    (hperm : sorted.Perm rows) (hsorted : sorted.Pairwise fun a b => cmp a b = .lt) :
    sortBy cmp rows = sorted := by
  have hdistinct := apart_of_sorted h hperm hsorted
  refine List.Perm.eq_of_pairwise ?_ (sortBy_strict h hdistinct) hsorted
    ((sortBy_perm cmp rows).trans hperm.symm)
  intro a b _ _ hab hba
  rw [OrientedCmp.gt_of_lt hab] at hba
  cases hba

/-- Sorting what a condition keeps is keeping it of what is sorted. -/
theorem sortBy_filter {cmp : α → α → Ordering} (h : TransCmp cmp) {rows : List α}
    (hdistinct : rows.Pairwise fun a b => cmp a b ≠ .eq) (p : α → Bool) :
    sortBy cmp (rows.filter p) = (sortBy cmp rows).filter p :=
  sortBy_eq h ((sortBy_perm cmp rows).filter p)
    ((sortBy_strict h hdistinct).sublist List.filter_sublist)

/-- Two lists of the same rows, one of them sorted strictly, have the same rows after the first ones
exactly when the first ones of the other list come first in the order. -/
theorem drop_perm_iff {cmp : α → α → Ordering} (h : TransCmp cmp) {rows sorted : List α}
    (hperm : rows.Perm sorted) (hsorted : sorted.Pairwise fun a b => cmp a b = .lt) (n : Nat) :
    (rows.drop n).Perm (sorted.drop n) ↔
      ∀ a ∈ rows.take n, ∀ b ∈ rows.drop n, cmp a b = .lt := by
  constructor
  · intro hdrop a ha b hb
    have hboth : (rows.take n ++ rows.drop n).Perm (sorted.take n ++ rows.drop n) := by
      have hmoved : (sorted.take n ++ sorted.drop n).Perm (sorted.take n ++ rows.drop n) :=
        hdrop.symm.append_left _
      rw [List.take_append_drop] at hmoved ⊢
      exact hperm.trans hmoved
    have htake := (List.perm_append_right_iff _).mp hboth
    rw [← List.take_append_drop n sorted] at hsorted
    exact (List.pairwise_append.mp hsorted).2.2 a (htake.mem_iff.mp ha) b (hdrop.mem_iff.mp hb)
  · intro hfirst
    have hapart := apart_of_sorted h hperm.symm hsorted
    have hcross : ∀ a ∈ sortBy cmp (rows.take n), ∀ b ∈ sortBy cmp (rows.drop n), cmp a b = .lt :=
      fun a ha b hb => hfirst a (mem_sortBy.mp ha) b (mem_sortBy.mp hb)
    have hparts : (sortBy cmp (rows.take n) ++ sortBy cmp (rows.drop n)).Perm rows := by
      refine ((sortBy_perm _ _).append (sortBy_perm _ _)).trans ?_
      rw [List.take_append_drop]
    -- Sorting both parts sorts the list, since the first rows come first.
    have hsplit : sorted = sortBy cmp (rows.take n) ++ sortBy cmp (rows.drop n) := by
      rw [← sortBy_eq h hperm.symm hsorted]
      exact sortBy_eq h hparts (List.pairwise_append.mpr
        ⟨sortBy_strict h (hapart.sublist (List.take_sublist _ _)),
          sortBy_strict h (hapart.sublist (List.drop_sublist _ _)), hcross⟩)
    rcases Nat.le_total n rows.length with hle | hge
    · have hlength : (sortBy cmp (rows.take n)).length = n := by
        rw [(sortBy_perm _ _).length_eq, List.length_take, Nat.min_eq_left hle]
      rw [hsplit, List.drop_left' hlength]
      exact (sortBy_perm _ _).symm
    · rw [List.drop_eq_nil_of_le hge, List.drop_eq_nil_of_le (hperm.length_eq ▸ hge)]

/-! ## The first rows -/

/-- `rows` are the first `n` of `candidates` in the order `le`, in order. -/
structure FirstOf (le : α → α → Bool) (n : Nat) (candidates rows : List α) : Prop where
  length : rows.length = min n candidates.length
  sorted : rows.Pairwise fun a b => le a b = true
  /-- The other candidates come after them. -/
  before : ∃ rest, (rows ++ rest).Perm candidates ∧ ∀ a ∈ rows, ∀ b ∈ rest, le a b = true

/-- Sorting and cutting off leaves the first rows. -/
theorem firstOf_take_mergeSort {le : α → α → Bool}
    (htrans : ∀ a b c, le a b = true → le b c = true → le a c = true)
    (htotal : ∀ a b, (le a b || le b a) = true) (n : Nat) (candidates : List α) :
    FirstOf le n candidates ((candidates.mergeSort le).take n) := by
  have hsorted := List.pairwise_mergeSort htrans htotal candidates
  have hsplit : (candidates.mergeSort le).take n ++ (candidates.mergeSort le).drop n =
      candidates.mergeSort le := List.take_append_drop n _
  refine ⟨?_, hsorted.sublist (List.take_sublist _ _), (candidates.mergeSort le).drop n, ?_, ?_⟩
  · rw [List.length_take, List.length_mergeSort]
  · rw [hsplit]
    exact List.mergeSort_perm _ _
  · rw [← hsplit] at hsorted
    exact (List.pairwise_append.mp hsorted).2.2

end ProdkitStorage.Foundation

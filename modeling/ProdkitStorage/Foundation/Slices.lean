import Mathlib.Data.Set.Card
import Mathlib.Order.Interval.Set.Nat

/-!
# Slices of a list

A list cut into slices of one size: slice `i` starts after `i * size` elements.
The first slices together are a prefix, and the slices that have an element are
the first ones, as many as the quotient of the length and the size, rounded up.
`SliceEnds` speaks of the last element of every slice but the last, and of the elements
after it.
-/

namespace ProdkitStorage.Foundation

variable {α : Type}

/-- The slice after `i` slices of the same size. -/
def slice (size : ℕ) (rows : List α) (i : ℕ) : List α := (rows.drop (i * size)).take size

/-- The first slices, one after the other. -/
theorem flatMap_slice (size : ℕ) (rows : List α) (k : ℕ) :
    (List.range k).flatMap (slice size rows) = rows.take (k * size) := by
  induction k with
  | zero => simp
  | succ k ih =>
      rw [List.range_succ, List.flatMap_append, ih, List.flatMap_singleton, slice,
        Nat.succ_mul, List.take_add]

theorem length_slice (size : ℕ) (rows : List α) (i : ℕ) :
    (slice size rows i).length = min size (rows.length - i * size) := by
  rw [slice, List.length_take, List.length_drop]

variable {size : ℕ} {rows : List α} {i : ℕ}

/-- A slice has an element if the slices before it do not exhaust the list. -/
theorem slice_ne_nil_iff (hsize : 0 < size) : slice size rows i ≠ [] ↔ i * size < rows.length := by
  rw [ne_eq, ← List.length_eq_zero_iff, length_slice]
  omega

/-- The slices with an element are the first ones. -/
theorem slice_ne_nil_iff_lt (hsize : 0 < size) :
    slice size rows i ≠ [] ↔ i < (rows.length + size - 1) / size := by
  rw [slice_ne_nil_iff hsize, Nat.lt_div_iff_mul_lt hsize]
  omega

/-- The number of slices with an element. -/
theorem encard_slice_ne_nil (hsize : 0 < size) (rows : List α) :
    {i | slice size rows i ≠ []}.encard = ((rows.length + size - 1) / size : ℕ) := by
  have hset : {i | slice size rows i ≠ []} = Set.Iio ((rows.length + size - 1) / size) :=
    Set.ext fun i => slice_ne_nil_iff_lt hsize
  rw [hset, ← Finset.coe_Iio, Set.encard_coe_eq_coe_finsetCard, Nat.card_Iio]

/-- All slices together are the whole list. -/
theorem flatMap_slice_eq_self {k : ℕ} (hk : rows.length ≤ k * size) :
    (List.range k).flatMap (slice size rows) = rows := by
  rw [flatMap_slice, List.take_of_length_le hk]

theorem pairwise_of_length_le_one {R : α → α → Prop} (h : rows.length ≤ 1) : rows.Pairwise R := by
  refine List.pairwise_iff_getElem.mpr fun i j hi hj hij => ?_
  omega

/-! ## The ends of the slices -/

/-- Every element that ends a slice satisfies the condition with the elements after it, the last
slice apart. -/
def SliceEnds (size : ℕ) (P : α → List α → Prop) (rows : List α) : Prop :=
  ∀ front r later, rows = front ++ r :: later → later ≠ [] → size ∣ front.length + 1 → P r later

/-- A list longer than a slice starts with one, which ends with an element. -/
theorem exists_slice (hsize : 1 ≤ size) (hlong : size < rows.length) :
    ∃ front r later, rows = front ++ r :: later ∧ front.length + 1 = size ∧ later ≠ [] := by
  have hdrop : rows.drop (size - 1) ≠ [] := by
    refine List.ne_nil_of_length_pos ?_
    rw [List.length_drop]
    omega
  obtain ⟨r, later, hrest⟩ := List.exists_cons_of_ne_nil hdrop
  refine ⟨rows.take (size - 1), r, later, ?_, ?_, ?_⟩
  · rw [← hrest, List.take_append_drop]
  · rw [List.length_take]
    omega
  · rintro rfl
    have hone := congrArg List.length hrest
    rw [List.length_drop, List.length_singleton] at hone
    omega

variable {P : α → List α → Prop}

/-- A single slice is the last one. -/
theorem sliceEnds_of_length_le (hshort : rows.length ≤ size) : SliceEnds size P rows := by
  rintro front r later rfl hlater hdvd
  have := Nat.le_of_dvd (Nat.succ_pos _) hdvd
  have := List.length_pos_iff.mpr hlater
  rw [List.length_append, List.length_cons] at hshort
  omega

/-- The first slice ends, and the slices after it do. -/
theorem sliceEnds_append {front : List α} {r : α} {later : List α}
    (hfront : front.length + 1 = size) (hlater : later ≠ []) :
    SliceEnds size P (front ++ r :: later) ↔ P r later ∧ SliceEnds size P later := by
  constructor
  · intro h
    refine ⟨h front r later rfl hlater (hfront ▸ Nat.dvd_refl _), ?_⟩
    rintro front' r' later' rfl hlater' hdvd
    refine h (front ++ r :: front') r' later' (by simp) hlater' ?_
    have hlength : (front ++ r :: front').length + 1 = size + (front'.length + 1) := by
      rw [List.length_append, List.length_cons, ← hfront]
      omega
    rw [hlength]
    exact Nat.dvd_add (Nat.dvd_refl _) hdvd
  · rintro ⟨hends, hrest⟩ front' r' later' hrows hlater' hdvd
    rcases Nat.lt_trichotomy front.length front'.length with hlong | hsame | hshort
    · have hslice : front ++ [r] <+: front ++ r :: later := ⟨later, by simp⟩
      have hlength : (front ++ [r]).length ≤ front'.length := by
        rw [List.length_append, List.length_singleton]
        omega
      obtain ⟨middle, rfl⟩ :=
        List.prefix_of_prefix_length_le hslice (hrows ▸ List.prefix_append _ _) hlength
      have hlater : later = middle ++ r' :: later' := by simpa using hrows
      refine hrest middle r' later' hlater hlater' ?_
      have hlength : (front ++ [r] ++ middle).length + 1 = size + (middle.length + 1) := by
        simp only [List.length_append, List.length_cons, List.length_nil]
        omega
      rw [hlength] at hdvd
      exact (Nat.dvd_add_right (Nat.dvd_refl _)).mp hdvd
    · obtain ⟨rfl, htail⟩ := List.append_inj hrows hsame
      obtain ⟨rfl, rfl⟩ := List.cons.inj htail
      exact hends
    · exact absurd (Nat.le_of_dvd (Nat.succ_pos _) hdvd) (by omega)

/-- The same, by the last element of the first slice. -/
theorem sliceEnds_iff_drop (hlong : size < rows.length) {last : α}
    (hlast : (rows.take size).getLast? = some last) :
    SliceEnds size P rows ↔ P last (rows.drop size) ∧ SliceEnds size P (rows.drop size) := by
  obtain ⟨front, hfront⟩ := List.getLast?_eq_some_iff.mp hlast
  have hlength : front.length + 1 = size := by
    have hsize := congrArg List.length hfront
    rw [List.length_take, List.length_append, List.length_singleton] at hsize
    omega
  have hlater : rows.drop size ≠ [] := by
    refine List.ne_nil_of_length_pos ?_
    rw [List.length_drop]
    omega
  have hrows : front ++ last :: rows.drop size = rows := by
    rw [List.append_cons, ← hfront, List.take_append_drop]
  conv_lhs => rw [← hrows]
  exact sliceEnds_append hlength hlater

end ProdkitStorage.Foundation

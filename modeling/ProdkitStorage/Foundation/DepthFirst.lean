import Mathlib.Data.Fintype.Card
import Mathlib.Data.Set.Card
import Mathlib.Logic.Relation
import Mathlib.Order.RelClasses

/-!
# Search with a stack

A search of a graph that keeps a stack of the nodes it has still to look at.  Some nodes
are marked when they are looked at and passed over when they are met again; the others
are looked at each time, and where these make a cycle the search may go on for ever.
It stops at the first node that carries a result.

`Trouble` says that a result or such a cycle is ahead, and `Leads` is the walk that takes,
at each node, the first link with trouble ahead of it.  The search finds a result exactly
when the walk ends at it (`run_found_iff`), and ends without one exactly when there is no
trouble ahead (`run_none_iff`).
-/

namespace ProdkitStorage.Foundation

open Relation (ReflTransGen TransGen)

/-- A graph to be searched. -/
structure Search (ν ρ : Type) where
  /-- The links of a node, the first one to follow first. -/
  links : ν → List ν
  /-- Whether a node is passed over when it is met again. -/
  marks : ν → Bool
  found : ν → Option ρ

namespace Search

variable {ν ρ : Type} (g : Search ν ρ)

/-! ## The search -/

/-- A node that has been looked at and is not looked at again. -/
def Skips (visited : List ν) (n : ν) : Prop := g.marks n = true ∧ n ∈ visited

instance [DecidableEq ν] (visited : List ν) (n : ν) : Decidable (g.Skips visited n) :=
  inferInstanceAs (Decidable (_ ∧ _))

/-- The nodes that have been looked at, after one more. -/
def mark (n : ν) (visited : List ν) : List ν := if g.marks n then n :: visited else visited

/-- What the search ends with after so many steps, if it ends: the first result, or none. -/
def run [DecidableEq ν] : Nat → List ν → List ν → Option (Option ρ)
  | 0, _, _ => none
  | _ + 1, [], _ => some none
  | fuel + 1, current :: pending, visited =>
      if g.Skips visited current then run fuel pending visited
      else
        match g.found current with
        | some result => some (some result)
        | none => run fuel (g.links current ++ pending) (g.mark current visited)

/-! ## What is ahead -/

/-- A link the search can follow. -/
def Linked (a b : ν) : Prop := g.found a = none ∧ b ∈ g.links a

/-- A link of a node that is not marked. -/
def Unmarked (a b : ν) : Prop := g.marks a = false ∧ g.found a = none ∧ b ∈ g.links a

/-- A node on a cycle of nodes that are not marked. -/
def OnCycle (n : ν) : Prop := TransGen g.Unmarked n n

/-- A result, or a cycle of nodes that are not marked, can be reached without going through
nodes that were passed. -/
inductive Trouble (passed : List ν) : ν → Prop where
  | result {n : ν} : ¬g.Skips passed n → g.found n ≠ none → Trouble passed n
  | cycle {n : ν} : g.OnCycle n → Trouble passed n
  | step {n m : ν} : ¬g.Skips passed n → g.found n = none → m ∈ g.links n → Trouble passed m →
      Trouble passed n

/-- The walk that takes the first link with trouble ahead of it ends at this result. -/
inductive Leads : List ν → ν → ρ → Prop where
  | here {passed : List ν} {n : ν} {result : ρ} : ¬g.Skips passed n → g.found n = some result →
      Leads passed n result
  | on {passed : List ν} {n m : ν} {result : ρ} {before after : List ν} : ¬g.Skips passed n →
      g.found n = none → g.links n = before ++ m :: after →
      (∀ other ∈ before, ¬g.Trouble (g.mark n passed) other) →
      Leads (g.mark n passed) m result → Leads passed n result

variable {g} {passed visited : List ν} {n m : ν} {result : ρ}

theorem mem_mark : m ∈ g.mark n passed ↔ (m = n ∧ g.marks n = true) ∨ m ∈ passed := by
  unfold mark
  split
  · next hmarks => simp [hmarks]
  · next hmarks => simp [hmarks]

theorem Skips.mono (hsub : ∀ n ∈ passed, n ∈ visited) (h : g.Skips passed n) :
    g.Skips visited n := ⟨h.1, hsub n h.2⟩

theorem subset_mark : ∀ m ∈ passed, m ∈ g.mark n passed := fun _ h => mem_mark.mpr (.inr h)

theorem OnCycle.unmarked (h : g.OnCycle n) : g.marks n = false := by
  obtain ⟨_, hlink, _⟩ := Relation.TransGen.head'_iff.mp h
  exact hlink.1

theorem not_skips_of_unmarked (h : g.marks n = false) : ¬g.Skips passed n := by
  rintro ⟨hmarks, -⟩
  rw [h] at hmarks
  cases hmarks

/-- What was passed has no trouble ahead. -/
theorem Trouble.not_skips (h : g.Trouble passed n) : ¬g.Skips passed n := by
  cases h with
  | result hskips => exact hskips
  | cycle hcycle => exact not_skips_of_unmarked hcycle.unmarked
  | step hskips => exact hskips

theorem Trouble.mono (hsub : ∀ n ∈ passed, n ∈ visited) (h : g.Trouble visited n) :
    g.Trouble passed n := by
  induction h with
  | result hskips hfound => exact .result (fun h => hskips (h.mono hsub)) hfound
  | cycle hcycle => exact .cycle hcycle
  | step hskips hfound hlink _ ih => exact .step (fun h => hskips (h.mono hsub)) hfound hlink ih

theorem Leads.trouble (h : g.Leads passed n result) : g.Trouble passed n := by
  induction h with
  | here hskips hfound => exact .result hskips (by rw [hfound]; exact Option.some_ne_none _)
  | on hskips hfound hlinks _ _ ih =>
      refine .step hskips hfound ?_ (ih.mono subset_mark)
      rw [hlinks]
      exact List.mem_append_right _ List.mem_cons_self

/-- The walk follows links to its result. -/
theorem Leads.found (h : g.Leads passed n result) :
    ∃ m, ReflTransGen g.Linked n m ∧ g.found m = some result := by
  induction h with
  | @here passed n result _ hfound => exact ⟨n, .refl, hfound⟩
  | on _ hnone hlinks _ _ ih =>
      obtain ⟨m, hreach, hfound⟩ := ih
      refine ⟨m, .head ⟨hnone, ?_⟩ hreach, hfound⟩
      rw [hlinks]
      exact List.mem_append_right _ List.mem_cons_self

/-- The walk takes the first link. -/
theorem Leads.first {after : List ν} (hskips : ¬g.Skips passed n) (hfound : g.found n = none)
    (hlinks : g.links n = m :: after) (h : g.Leads (g.mark n passed) m result) :
    g.Leads passed n result := by
  refine .on hskips hfound (hlinks.trans (List.nil_append _).symm) ?_ h
  exact fun _ hother => (nomatch hother)

/-- A node that is passed is not needed to reach the trouble, or one of its links is ahead of
it without the node. -/
theorem Trouble.pass (h : g.Trouble passed m) (hfound : g.found n = none) :
    g.Trouble (g.mark n passed) m ∨ ∃ next ∈ g.links n, g.Trouble (g.mark n passed) next := by
  induction h with
  | @result m hskips hresult =>
      refine .inl (.result ?_ hresult)
      rintro ⟨hmarks, hmem⟩
      rcases mem_mark.mp hmem with ⟨rfl, -⟩ | hmem
      · exact hresult hfound
      · exact hskips ⟨hmarks, hmem⟩
  | cycle hcycle => exact .inl (.cycle hcycle)
  | @step m next hskips hnone hlink _ ih =>
      rcases ih with ih | ih
      · by_cases hpassed : g.Skips (g.mark n passed) m
        · rcases mem_mark.mp hpassed.2 with ⟨rfl, -⟩ | hmem
          · exact .inr ⟨next, hlink, ih⟩
          · exact absurd ⟨hpassed.1, hmem⟩ hskips
        · exact .inl (.step hpassed hnone hlink ih)
      · exact .inr ih

/-- Without trouble ahead of its links there is none ahead of a node. -/
theorem not_trouble_of_links (hfound : g.found n = none)
    (hlinks : ∀ next ∈ g.links n, ¬g.Trouble (g.mark n passed) next)
    (h : g.Trouble passed m) : g.Trouble (g.mark n passed) m := by
  rcases h.pass hfound with h | ⟨next, hnext, h⟩
  · exact h
  · exact absurd h (hlinks next hnext)

theorem not_trouble_node (hfound : g.found n = none)
    (hlinks : ∀ next ∈ g.links n, ¬g.Trouble (g.mark n passed) next) : ¬g.Trouble passed n := by
  intro h
  have hself := not_trouble_of_links hfound hlinks h
  cases hself with
  | result _ hresult => exact hresult hfound
  | cycle hcycle =>
      obtain ⟨next, hlink, hrest⟩ := Relation.TransGen.head'_iff.mp hcycle
      rcases Relation.reflTransGen_iff_eq_or_transGen.mp hrest with heq | hrest
      · subst heq
        exact hlinks _ hlink.2.2 (.cycle hcycle)
      · exact hlinks next hlink.2.2 (.cycle (Relation.TransGen.tail' hrest.to_reflTransGen hlink))
  | step _ _ hlink htrouble => exact hlinks _ hlink htrouble

/-- At the start nothing was passed. -/
theorem trouble_nil_iff :
    g.Trouble [] n ↔ ∃ m, ReflTransGen g.Linked n m ∧ (g.found m ≠ none ∨ g.OnCycle m) := by
  have hnew : ∀ m, ¬g.Skips [] m := fun m h => (nomatch h.2)
  constructor
  · intro h
    induction h with
    | @result n _ hresult => exact ⟨n, .refl, .inl hresult⟩
    | @cycle n hcycle => exact ⟨n, .refl, .inr hcycle⟩
    | step _ hfound hlink _ ih =>
        obtain ⟨m, hreach, hm⟩ := ih
        exact ⟨m, .head ⟨hfound, hlink⟩ hreach, hm⟩
  · rintro ⟨m, hreach, hm⟩
    induction hreach using ReflTransGen.head_induction_on with
    | refl =>
        rcases hm with hresult | hcycle
        · exact .result (hnew m) hresult
        · exact .cycle hcycle
    | head hlink _ ih => exact .step (hnew _) hlink.1 hlink.2 ih

/-! ## What was visited -/

/-- What was visited is what was passed and nodes without trouble ahead. -/
structure Cleared (g : Search ν ρ) (visited passed : List ν) : Prop where
  visits : ∀ n ∈ passed, n ∈ visited
  others : ∀ n ∈ visited, n ∉ passed → ¬g.Trouble passed n

theorem Cleared.nil : g.Cleared [] [] := ⟨fun _ h => h, fun _ h => (nomatch h)⟩

theorem Cleared.not_skips (h : g.Cleared visited passed) (htrouble : g.Trouble passed n) :
    ¬g.Skips visited n := by
  rintro ⟨hmarks, hmem⟩
  by_cases hpassed : n ∈ passed
  · exact htrouble.not_skips ⟨hmarks, hpassed⟩
  · exact h.others n hmem hpassed htrouble

theorem Cleared.not_trouble (h : g.Cleared visited passed) (hskips : g.Skips visited n) :
    ¬g.Trouble passed n := fun htrouble => h.not_skips htrouble hskips

/-- A node is looked at, and its links are followed from it. -/
theorem Cleared.enter (h : g.Cleared visited passed) :
    g.Cleared (g.mark n visited) (g.mark n passed) where
  visits m hm := by
    rcases mem_mark.mp hm with hn | hm
    · exact mem_mark.mpr (.inl hn)
    · exact mem_mark.mpr (.inr (h.visits m hm))
  others m hm hnot := by
    rcases mem_mark.mp hm with hn | hm
    · exact absurd (mem_mark.mpr (.inl hn)) hnot
    · have hpassed : m ∉ passed := fun hmem => hnot (mem_mark.mpr (.inr hmem))
      exact fun htrouble => h.others m hm hpassed (htrouble.mono subset_mark)

/-- Its links have no trouble ahead, and neither has the node. -/
theorem Cleared.leave (h : g.Cleared visited (g.mark n passed)) (hfound : g.found n = none)
    (hlinks : ∀ next ∈ g.links n, ¬g.Trouble (g.mark n passed) next) :
    g.Cleared visited passed where
  visits m hm := h.visits m (mem_mark.mpr (.inr hm))
  others m hm hnot htrouble := by
    have hlonger := not_trouble_of_links hfound hlinks htrouble
    by_cases hmem : m ∈ g.mark n passed
    · rcases mem_mark.mp hmem with ⟨rfl, -⟩ | hmem
      · exact not_trouble_node hfound hlinks htrouble
      · exact hnot hmem
    · exact h.others m hm hmem hlonger

/-- A node without trouble ahead is looked at. -/
theorem Cleared.look (h : g.Cleared visited passed) (hclear : ¬g.Trouble passed n) :
    g.Cleared (g.mark n visited) passed where
  visits m hm := mem_mark.mpr (.inr (h.visits m hm))
  others m hm hnot := by
    rcases mem_mark.mp hm with ⟨rfl, -⟩ | hm
    · exact hclear
    · exact h.others m hm hnot

/-! ## What the search ends with -/

section
variable [DecidableEq ν] {fuel : Nat} {pending rest : List ν} {out : Option ρ}

theorem run_skip (h : g.Skips visited n) :
    g.run (fuel + 1) (n :: pending) visited = g.run fuel pending visited := by
  rw [run, if_pos h]

theorem run_stop (h : ¬g.Skips visited n) (hfound : g.found n = some result) :
    g.run (fuel + 1) (n :: pending) visited = some (some result) := by
  rw [run, if_neg h, hfound]

theorem run_push (h : ¬g.Skips visited n) (hfound : g.found n = none) :
    g.run (fuel + 1) (n :: pending) visited =
      g.run fuel (g.links n ++ pending) (g.mark n visited) := by
  rw [run, if_neg h, hfound]

/-- A node that is not marked is looked at. -/
theorem run_unmarked (hmarks : g.marks n = false) (hfound : g.found n = none) :
    g.run (fuel + 1) (n :: pending) visited = g.run fuel (g.links n ++ pending) visited := by
  have hmark : g.mark n visited = visited := by
    unfold mark
    rw [hmarks]
    rfl
  rw [run_push (not_skips_of_unmarked hmarks) hfound, hmark]

/-- A node that is marked is looked at once. -/
theorem run_marked (hmarks : g.marks n = true) (hfound : g.found n = none) :
    g.run (fuel + 1) (n :: pending) visited =
      if n ∈ visited then g.run fuel pending visited
      else g.run fuel (g.links n ++ pending) (n :: visited) := by
  split
  · next hmem => rw [run_skip ⟨hmarks, hmem⟩]
  · next hnew =>
      have hmark : g.mark n visited = n :: visited := by
        unfold mark
        rw [hmarks]
        rfl
      rw [run_push (fun hskips => hnew hskips.2) hfound, hmark]

/-- A search that ends has ended among the first of the pending nodes, at the end of the walk
from the first of these with trouble ahead, or these have no trouble ahead and it has gone
on to the others. -/
theorem run_split (pending rest : List ν) (hrun : g.run fuel (pending ++ rest) visited = some out)
    (hcleared : g.Cleared visited passed) :
    (∃ before m after result, pending = before ++ m :: after ∧
      (∀ other ∈ before, ¬g.Trouble passed other) ∧ g.Leads passed m result ∧
      out = some result) ∨
    ((∀ m ∈ pending, ¬g.Trouble passed m) ∧ ∃ visited' fuel', fuel' ≤ fuel ∧
      g.Cleared visited' passed ∧ g.run fuel' rest visited' = some out) := by
  induction fuel using Nat.strong_induction_on generalizing pending rest visited passed with
  | _ fuel ih =>
  cases pending with
  | nil => exact .inr ⟨fun _ h => (nomatch h), visited, fuel, Nat.le_refl _, hcleared, hrun⟩
  | cons n pending =>
  cases fuel with
  | zero => cases hrun
  | succ fuel =>
  rw [List.cons_append] at hrun
  -- what is left to say once the node itself is known to have no trouble ahead
  have honward : ∀ {visited' : List ν} {fuel' : Nat}, ¬g.Trouble passed n → fuel' ≤ fuel →
      g.Cleared visited' passed → g.run fuel' (pending ++ rest) visited' = some out →
      (∃ before m after result, n :: pending = before ++ m :: after ∧
        (∀ other ∈ before, ¬g.Trouble passed other) ∧ g.Leads passed m result ∧
        out = some result) ∨
      ((∀ m ∈ n :: pending, ¬g.Trouble passed m) ∧ ∃ visited' fuel', fuel' ≤ fuel + 1 ∧
        g.Cleared visited' passed ∧ g.run fuel' rest visited' = some out) := by
    intro visited' fuel' hclear hle hcleared' hrun'
    rcases ih fuel' (by omega) pending rest hrun' hcleared' with
      ⟨before, m, after, result, hsplit, hbefore, hleads, hout⟩ |
      ⟨hclears, visited'', fuel'', hle', hcleared'', hrun''⟩
    · refine .inl
        ⟨n :: before, m, after, result, by rw [hsplit, List.cons_append], ?_, hleads, hout⟩
      intro other hother
      rcases List.mem_cons.mp hother with rfl | hother
      · exact hclear
      · exact hbefore other hother
    · refine .inr ⟨?_, visited'', fuel'', by omega, hcleared'', hrun''⟩
      intro other hother
      rcases List.mem_cons.mp hother with rfl | hother
      · exact hclear
      · exact hclears other hother
  by_cases hskips : g.Skips visited n
  · rw [run_skip hskips] at hrun
    exact honward (hcleared.not_trouble hskips) (Nat.le_refl _) hcleared hrun
  have hpassed : ¬g.Skips passed n := fun h => hskips (h.mono hcleared.visits)
  cases hfound : g.found n with
  | some result =>
      rw [run_stop hskips hfound] at hrun
      exact .inl ⟨[], n, pending, result, rfl, fun _ h => (nomatch h), .here hpassed hfound,
        (Option.some.inj hrun).symm⟩
  | none =>
      rw [run_push hskips hfound] at hrun
      rcases ih fuel (by omega) (g.links n) (pending ++ rest) hrun hcleared.enter with
        ⟨before, m, after, result, hsplit, hbefore, hleads, hout⟩ |
        ⟨hclears, visited', fuel', hle, hcleared', hrun'⟩
      · exact .inl ⟨[], n, pending, result, rfl, fun _ h => (nomatch h),
          .on hpassed hfound hsplit hbefore hleads, hout⟩
      · exact honward (not_trouble_node hfound hclears) hle (hcleared'.leave hfound hclears) hrun'

/-- A search from one node that ends does so with the result the walk ends at, or without one
where there is no trouble ahead. -/
theorem run_single (h : g.run fuel [n] [] = some out) :
    (∃ result, g.Leads [] n result ∧ out = some result) ∨ (¬g.Trouble [] n ∧ out = none) := by
  rcases run_split [n] [] h .nil with
    ⟨before, m, after, result, hsplit, -, hleads, hout⟩ | ⟨hclear, visited', fuel', -, -, hrun⟩
  · cases before with
    | nil =>
        obtain ⟨rfl, -⟩ := List.cons.inj hsplit
        exact .inl ⟨result, hleads, hout⟩
    | cons other before =>
        have hlength := congrArg List.length hsplit
        rw [List.length_append, List.length_cons, List.length_cons] at hlength
        simp only [List.length_cons, List.length_nil] at hlength
        omega
  · refine .inr ⟨hclear n List.mem_cons_self, ?_⟩
    cases fuel' with
    | zero => cases hrun
    | succ fuel' => exact (Option.some.inj hrun).symm

end

/-! ## A finite graph -/

/-- A link from a node that is not marked and not on a cycle of such nodes. -/
def Descends (g : Search ν ρ) (b a : ν) : Prop := g.Unmarked a b ∧ ¬g.OnCycle a

theorem descends_wf [Finite ν] (g : Search ν ρ) : WellFounded g.Descends := by
  have hirrefl : Std.Irrefl (TransGen g.Descends) := by
    refine ⟨fun n hcycle => ?_⟩
    obtain ⟨last, -, hlast⟩ := Relation.TransGen.tail'_iff.mp hcycle
    have hlinks : g.Descends ≤ Function.swap g.Unmarked := fun _ _ hlink => hlink.1
    exact hlast.2 (Relation.transGen_swap.mp (Relation.TransGen.mono hlinks n n hcycle))
  exact Subrelation.wf (fun h => .single h)
    (Finite.wellFounded_of_trans_of_irrefl (TransGen g.Descends))

/-- How many nodes are still to be marked. -/
noncomputable def unvisited (g : Search ν ρ) (visited : List ν) : Nat :=
  {n | g.marks n = true ∧ n ∉ visited}.ncard

/-- A link of a node that is looked at, when as many nodes or more have been. -/
structure Ahead (g : Search ν ρ) (later earlier : List ν × ν) : Prop where
  skips : ¬g.Skips earlier.1 earlier.2
  found : g.found earlier.2 = none
  link : later.2 ∈ g.links earlier.2
  acyclic : ¬g.OnCycle earlier.2
  visits : ∀ n ∈ g.mark earlier.2 earlier.1, n ∈ later.1

theorem unvisited_le [Finite ν] (hsub : ∀ n ∈ passed, n ∈ visited) :
    g.unvisited visited ≤ g.unvisited passed :=
  Set.ncard_le_ncard fun _ h => ⟨h.1, fun hmem => h.2 (hsub _ hmem)⟩

theorem unvisited_lt [Finite ν] (hmarks : g.marks n = true) (hnot : n ∉ passed)
    (hsub : ∀ m ∈ g.mark n passed, m ∈ visited) : g.unvisited visited < g.unvisited passed := by
  refine Set.ncard_lt_ncard (Set.ssubset_iff_exists.mpr ⟨fun m h => ?_, n, ⟨hmarks, hnot⟩, ?_⟩)
  · exact ⟨h.1, fun hmem => h.2 (hsub m (mem_mark.mpr (.inr hmem)))⟩
  · exact fun h => h.2 (hsub n (mem_mark.mpr (.inl ⟨rfl, hmarks⟩)))

/-- A search cannot go ahead for ever outside the cycles. -/
theorem ahead_wf [Finite ν] (g : Search ν ρ) : WellFounded g.Ahead := by
  have hlex : WellFounded (Prod.Lex (· < ·) g.Descends) :=
    Nat.lt_wfRel.wf.prod_lex (descends_wf g)
  refine Subrelation.wf ?_ (InvImage.wf (fun p : List ν × ν => (g.unvisited p.1, p.2)) hlex)
  rintro ⟨visited, m⟩ ⟨passed, n⟩ hahead
  show Prod.Lex (· < ·) g.Descends (g.unvisited visited, m) (g.unvisited passed, n)
  cases hmarks : g.marks n with
  | true =>
      exact .left _ _ (unvisited_lt hmarks (fun hmem => hahead.skips ⟨hmarks, hmem⟩) hahead.visits)
  | false =>
      have hle := unvisited_le (g := g) (fun k hk => hahead.visits k (mem_mark.mpr (.inr hk)))
      rcases Nat.lt_or_eq_of_le hle with hlt | heq
      · exact .left _ _ hlt
      · rw [heq]
        exact .right _ ⟨⟨hmarks, hahead.found, hahead.link⟩, hahead.acyclic⟩

section
variable [DecidableEq ν] {pending others : List ν} {later : List ν}

/-- The search looks at these nodes and at what is ahead of them, and goes on. -/
def Passes (g : Search ν ρ) (pending visited later : List ν) : Prop :=
  ∃ steps, ∀ rest fuel, g.run (fuel + steps) (pending ++ rest) visited = g.run fuel rest later

theorem Passes.nil : g.Passes [] visited visited := ⟨0, fun _ _ => rfl⟩

theorem Passes.append {last : List ν} (h : g.Passes pending visited later)
    (hothers : g.Passes others later last) : g.Passes (pending ++ others) visited last := by
  obtain ⟨steps, hsteps⟩ := h
  obtain ⟨more, hmore⟩ := hothers
  refine ⟨more + steps, fun rest fuel => ?_⟩
  rw [← Nat.add_assoc, List.append_assoc, hsteps, hmore]

/-- The search passes a node from which nothing is ahead. -/
def PassesOver (g : Search ν ρ) (passed visited : List ν) (n : ν) : Prop :=
  ∃ later, g.Passes [n] visited later ∧ (∀ m ∈ visited, m ∈ later) ∧ g.Cleared later passed

/-- It passes nodes that it passes one by one. -/
theorem passes_each (pending : List ν) (hcleared : g.Cleared visited passed)
    (heach : ∀ m ∈ pending, ∀ later, (∀ k ∈ visited, k ∈ later) → g.Cleared later passed →
      g.PassesOver passed later m) :
    ∃ later, g.Passes pending visited later ∧ (∀ m ∈ visited, m ∈ later) ∧
      g.Cleared later passed := by
  induction pending generalizing visited with
  | nil => exact ⟨visited, .nil, fun _ h => h, hcleared⟩
  | cons n pending ih =>
      obtain ⟨later, hfirst, hsub, hcleared'⟩ :=
        heach n List.mem_cons_self visited (fun _ h => h) hcleared
      obtain ⟨last, hrest, hsub', hcleared''⟩ := ih hcleared' fun m hm later' hsub' =>
        heach m (List.mem_cons_of_mem _ hm) later' fun k hk => hsub' k (hsub k hk)
      exact ⟨last, hfirst.append hrest, fun m hm => hsub' m (hsub m hm), hcleared''⟩

theorem passes_over [Finite ν] (hcleared : g.Cleared visited passed)
    (hclear : ¬g.Trouble passed n) : g.PassesOver passed visited n := by
  obtain ⟨at_, hat⟩ : ∃ at_ : List ν × ν, at_ = (visited, n) := ⟨_, rfl⟩
  induction at_ using (ahead_wf g).induction generalizing visited n with
  | _ at_ ih =>
  subst hat
  by_cases hskips : g.Skips visited n
  · exact ⟨visited, ⟨1, fun _ _ => run_skip hskips⟩, fun _ h => h, hcleared⟩
  have hpassed : ¬g.Skips passed n := fun h => hskips (h.mono hcleared.visits)
  have hfound : g.found n = none := by
    cases hfound : g.found n with
    | none => rfl
    | some result =>
        exact absurd (.result hpassed (by rw [hfound]; exact Option.some_ne_none _)) hclear
  obtain ⟨later, ⟨steps, hsteps⟩, hsub, hcleared'⟩ :=
    passes_each (g.links n) (hcleared.look hclear) fun m hm later hsub hcleared' =>
      ih (later, m) ⟨hskips, hfound, hm, fun hcycle => hclear (.cycle hcycle), hsub⟩ hcleared'
        (fun htrouble => hclear (.step hpassed hfound hm htrouble)) rfl
  refine ⟨later, ⟨steps + 1, fun rest fuel => ?_⟩, fun m hm => hsub m (subset_mark m hm), hcleared'⟩
  rw [← Nat.add_assoc]
  show g.run (fuel + steps + 1) (n :: rest) visited = _
  rw [run_push hskips hfound, hsteps]

/-- The walk ends at what the search finds. -/
theorem run_of_leads [Finite ν] (before rest : List ν) (hleads : g.Leads passed m result)
    (hcleared : g.Cleared visited passed) (hbefore : ∀ other ∈ before, ¬g.Trouble passed other) :
    ∃ fuel, g.run fuel (before ++ m :: rest) visited = some (some result) := by
  induction hleads generalizing visited before rest with
  | @here passed m result hskips hfound =>
      have htrouble : g.Trouble passed m :=
        .result hskips (by rw [hfound]; exact Option.some_ne_none _)
      obtain ⟨later, ⟨steps, hsteps⟩, -, hcleared'⟩ := passes_each before hcleared
        fun other hother _ _ hcleared' => passes_over hcleared' (hbefore other hother)
      refine ⟨1 + steps, ?_⟩
      rw [hsteps, run_stop (hcleared'.not_skips htrouble) hfound]
  | @on passed m next result earlier after hskips hfound hlinks hclear hrest ih =>
      have htrouble : g.Trouble passed m := (Leads.on hskips hfound hlinks hclear hrest).trouble
      obtain ⟨later, ⟨steps, hsteps⟩, -, hcleared'⟩ := passes_each before hcleared
        fun other hother _ _ hcleared' => passes_over hcleared' (hbefore other hother)
      obtain ⟨fuel, hfuel⟩ := ih earlier (after ++ rest) hcleared'.enter hclear
      refine ⟨fuel + 1 + steps, ?_⟩
      rw [hsteps, run_push (hcleared'.not_skips htrouble) hfound, hlinks, List.append_assoc,
        List.cons_append, hfuel]

/-- A search finds the result the walk ends at, and no other. -/
theorem run_found_iff [Finite ν] :
    (∃ fuel, g.run fuel [n] [] = some (some result)) ↔ g.Leads [] n result := by
  constructor
  · rintro ⟨fuel, hrun⟩
    rcases run_single hrun with ⟨result', hleads, hout⟩ | ⟨-, hout⟩
    · cases hout
      exact hleads
    · cases hout
  · intro hleads
    exact run_of_leads [] [] hleads .nil fun _ h => (nomatch h)

/-- A search ends without a result where there is no trouble ahead. -/
theorem run_none_iff [Finite ν] :
    (∃ fuel, g.run fuel [n] [] = some none) ↔ ¬g.Trouble [] n := by
  constructor
  · rintro ⟨fuel, hrun⟩
    rcases run_single hrun with ⟨result, -, hout⟩ | ⟨hclear, -⟩
    · cases hout
    · exact hclear
  · intro hclear
    obtain ⟨later, ⟨steps, hsteps⟩, -, -⟩ := passes_over .nil hclear
    exact ⟨1 + steps, hsteps [] 1⟩

end

/-- The first node of a list with trouble ahead. -/
theorem exists_first {pending : List ν} (h : ∃ m ∈ pending, g.Trouble passed m) :
    ∃ before m after, pending = before ++ m :: after ∧
      (∀ other ∈ before, ¬g.Trouble passed other) ∧ g.Trouble passed m := by
  induction pending with
  | nil =>
      obtain ⟨_, hm, -⟩ := h
      cases hm
  | cons n pending ih =>
      by_cases hn : g.Trouble passed n
      · exact ⟨[], n, pending, rfl, fun _ hother => (nomatch hother), hn⟩
      · have hlater : ∃ m ∈ pending, g.Trouble passed m := by
          obtain ⟨m, hm, htrouble⟩ := h
          rcases List.mem_cons.mp hm with rfl | hm
          · exact absurd htrouble hn
          · exact ⟨m, hm, htrouble⟩
        obtain ⟨before, m, after, hsplit, hbefore, htrouble⟩ := ih hlater
        refine ⟨n :: before, m, after, by rw [hsplit, List.cons_append], ?_, htrouble⟩
        intro other hother
        rcases List.mem_cons.mp hother with rfl | hother
        · exact hn
        · exact hbefore other hother

/-- Outside the cycles the walk from a node with trouble ahead ends at a result. -/
theorem leads_of_trouble [Finite ν] (hacyclic : ∀ m, ReflTransGen g.Linked n m → ¬g.OnCycle m)
    (h : g.Trouble passed n) : ∃ result, g.Leads passed n result := by
  obtain ⟨at_, hat⟩ : ∃ at_ : List ν × ν, at_ = (passed, n) := ⟨_, rfl⟩
  induction at_ using (ahead_wf g).induction generalizing passed n with
  | _ at_ ih =>
  subst hat
  cases hfound : g.found n with
  | some result => exact ⟨result, .here h.not_skips hfound⟩
  | none =>
      -- the first link with trouble ahead, once the node itself is passed
      have hlink : ∃ next ∈ g.links n, g.Trouble (g.mark n passed) next := by
        by_contra hnone
        exact not_trouble_node hfound (fun next hnext htrouble => hnone ⟨next, hnext, htrouble⟩) h
      obtain ⟨before, next, after, hlinks, hbefore, htrouble⟩ := exists_first hlink
      have hmem : next ∈ g.links n := by
        rw [hlinks]
        exact List.mem_append_right _ List.mem_cons_self
      obtain ⟨result, hleads⟩ := ih (g.mark n passed, next)
        ⟨h.not_skips, hfound, hmem, hacyclic n .refl, fun _ hk => hk⟩
        (fun m hreach => hacyclic m (.head ⟨hfound, hmem⟩ hreach)) htrouble rfl
      exact ⟨result, .on h.not_skips hfound hlinks hbefore hleads⟩

end Search

end ProdkitStorage.Foundation

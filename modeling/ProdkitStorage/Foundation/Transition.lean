import Mathlib.Logic.Basic

/-!
# Transition systems

A *transition system* has initial states and labelled steps.  A *history* is the
list of the labels a run performed, newest first.  `Reaches h s` says that the
history `h` leads from some initial state to `s`, so an invariant may speak of
the state and of everything that happened before it.

`Run s ls t` is a segment of a run, with its labels in the order they happened.
`within P` keeps the steps whose target satisfies `P`, so a run of `within P` is
a segment along which `P` holds after every step; `under P` keeps the steps
that satisfy `P`.
-/

namespace ProdkitStorage.Foundation

/-- A labelled transition system. -/
structure System (State Label : Type) where
  /-- The states a run may start from. -/
  init : State → Prop
  /-- `step s l t`: the system moves from `s` to `t` and shows `l`. -/
  step : State → Label → State → Prop

namespace System

variable {State Label : Type}

/-- `S.Reaches h s`: a run with the history `h`, newest label first, ends in `s`. -/
inductive Reaches (S : System State Label) : List Label → State → Prop where
  | init {s : State} : S.init s → Reaches S [] s
  | step {h : List Label} {s t : State} {l : Label} :
      Reaches S h s → S.step s l t → Reaches S (l :: h) t

/-- `S.Run s ls t`: performing the labels `ls` in order leads from `s` to `t`. -/
inductive Run (S : System State Label) : State → List Label → State → Prop where
  | nil (s : State) : Run S s [] s
  | cons {s t u : State} {l : Label} {ls : List Label} :
      S.step s l t → Run S t ls u → Run S s (l :: ls) u

/-- The steps whose target satisfies `P`. -/
def within (S : System State Label) (P : State → Prop) : System State Label where
  init := S.init
  step s l t := S.step s l t ∧ P t

/-- The runs along which `P` holds all the time. -/
def throughout (S : System State Label) (P : State → Prop) : System State Label where
  init s := S.init s ∧ P s
  step s l t := S.step s l t ∧ P t

/-- The steps that satisfy `P`, a condition on the state before the step and its label. -/
def under (S : System State Label) (P : State → Label → Prop) : System State Label where
  init := S.init
  step s l t := S.step s l t ∧ P s l

variable {S : System State Label}

/-- What holds initially and is kept by every step holds along every run. -/
theorem Reaches.invariant {I : List Label → State → Prop} {h : List Label} {s : State}
    (hr : S.Reaches h s) (hinit : ∀ s, S.init s → I [] s)
    (hstep : ∀ h s l t, S.Reaches h s → I h s → S.step s l t → I (l :: h) t) : I h s := by
  induction hr with
  | init h0 => exact hinit _ h0
  | step hr hs ih => exact hstep _ _ _ _ hr ih hs

/-- A run segment prolongs a history. -/
theorem Reaches.append {h : List Label} {s t : State} {ls : List Label}
    (hr : S.Reaches h s) (hrun : S.Run s ls t) : S.Reaches (ls.reverse ++ h) t := by
  induction hrun generalizing h with
  | nil s => exact hr
  | @cons s t u l ls hs _ ih =>
      have h' := ih (hr.step hs)
      rwa [List.reverse_cons, List.append_assoc, List.singleton_append]

/-- A run passes through every step of its history. -/
theorem Reaches.passed {later h : List Label} {l : Label} {u : State}
    (hr : S.Reaches (later ++ l :: h) u) : ∃ s t, S.Reaches h s ∧ S.step s l t := by
  induction later generalizing u with
  | nil =>
      cases hr with
      | step hr hs => exact ⟨_, _, hr, hs⟩
  | cons l' later ih =>
      cases hr with
      | step hr _ => exact ih hr

/-- A run whose labels all satisfy `P`, whatever the state before them. -/
theorem Reaches.under_of {P : State → Label → Prop} {h : List Label} {s : State}
    (hr : S.Reaches h s) (hlabels : ∀ l ∈ h, ∀ s, P s l) : (S.under P).Reaches h s := by
  induction hr with
  | init h0 => exact .init h0
  | step _ hs ih =>
      refine (ih fun l hl => hlabels l (List.mem_cons_of_mem _ hl)).step ⟨hs, ?_⟩
      exact hlabels _ List.mem_cons_self _

theorem Reaches.of_under {P : State → Label → Prop} {h : List Label} {s : State}
    (hr : (S.under P).Reaches h s) : S.Reaches h s := by
  induction hr with
  | init h0 => exact .init h0
  | step _ hs ih => exact ih.step hs.1

/-- Every label of a run of `under P` satisfied `P` when it was shown. -/
theorem Reaches.holds_under {P : State → Label → Prop} {h : List Label} {s : State}
    (hr : (S.under P).Reaches h s) : ∀ l ∈ h, ∃ s, P s l := by
  induction hr with
  | init _ => simp
  | step _ hs ih =>
      intro l hl
      rcases List.mem_cons.mp hl with rfl | hl
      · exact ⟨_, hs.2⟩
      · exact ih l hl

theorem Reaches.of_throughout {P : State → Prop} {h : List Label} {s : State}
    (hr : (S.throughout P).Reaches h s) : S.Reaches h s := by
  induction hr with
  | init h0 => exact .init h0.1
  | step _ hs ih => exact ih.step hs.1

theorem Reaches.holds_throughout {P : State → Prop} {h : List Label} {s : State}
    (hr : (S.throughout P).Reaches h s) : P s := by
  cases hr with
  | init h0 => exact h0.2
  | step _ hs => exact hs.2

theorem Reaches.throughout_imp {P P' : State → Prop} (himp : ∀ s, P s → P' s) {h : List Label}
    {s : State} (hr : (S.throughout P).Reaches h s) : (S.throughout P').Reaches h s := by
  induction hr with
  | init h0 => exact .init ⟨h0.1, himp _ h0.2⟩
  | step _ hs ih => exact ih.step ⟨hs.1, himp _ hs.2⟩

/-- What one step keeps, a segment keeps. -/
theorem Run.invariant {I : State → Prop} {s t : State} {ls : List Label} (hrun : S.Run s ls t)
    (hs : I s) (hstep : ∀ s l t, I s → S.step s l t → I t) : I t := by
  induction hrun with
  | nil s => exact hs
  | cons hst _ ih => exact ih (hstep _ _ _ hs hst)

/-! ## Simulation -/

/-- `S.Simulates T R`: every step of `S` from a state `R` relates to one of `T` is matched by
a step of `T` with the same label. -/
def Simulates {Abstract : Type} (S : System State Label) (T : System Abstract Label)
    (R : State → Abstract → Prop) : Prop :=
  ∀ s l t, S.step s l t → ∀ a, R s a → ∃ b, R t b ∧ T.step a l b

/-- A segment is matched by a segment with the same labels. -/
theorem Simulates.run {Abstract : Type} {T : System Abstract Label} {R : State → Abstract → Prop}
    (hsim : S.Simulates T R) {s t : State} {ls : List Label} (hrun : S.Run s ls t) :
    ∀ a, R s a → ∃ b, R t b ∧ T.Run a ls b := by
  induction hrun with
  | nil s => exact fun a ha => ⟨a, ha, .nil a⟩
  | cons hstep _ ih =>
      intro a ha
      obtain ⟨b, hb, hstep'⟩ := hsim _ _ _ hstep a ha
      obtain ⟨c, hc, hrun'⟩ := ih b hb
      exact ⟨c, hc, .cons hstep' hrun'⟩

/-- A simulation also matches the runs along which related conditions hold. -/
theorem Simulates.throughout {Abstract : Type} {T : System Abstract Label}
    {R : State → Abstract → Prop} (hsim : S.Simulates T R) {P : State → Prop}
    {P' : Abstract → Prop} (himp : ∀ s a, R s a → P s → P' a) :
    (S.throughout P).Simulates (T.throughout P') R := by
  rintro s l t ⟨hstep, ht⟩ a ha
  obtain ⟨b, hb, hstep'⟩ := hsim s l t hstep a ha
  exact ⟨b, hb, hstep', himp t b hb ht⟩

/-- A reachable state is matched by a reachable state. -/
theorem Simulates.reaches {Abstract : Type} {T : System Abstract Label}
    {R : State → Abstract → Prop} (hsim : S.Simulates T R)
    (hinit : ∀ s, S.init s → ∃ a, R s a ∧ T.init a) {h : List Label} {s : State}
    (hr : S.Reaches h s) : ∃ a, R s a ∧ T.Reaches h a := by
  induction hr with
  | init h0 =>
      obtain ⟨a, ha, hia⟩ := hinit _ h0
      exact ⟨a, ha, .init hia⟩
  | step _ hstep ih =>
      obtain ⟨a, ha, hra⟩ := ih
      obtain ⟨b, hb, hstep'⟩ := hsim _ _ _ hstep a ha
      exact ⟨b, hb, hra.step hstep'⟩

end System

end ProdkitStorage.Foundation

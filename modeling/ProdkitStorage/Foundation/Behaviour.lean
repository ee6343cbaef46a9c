import Mathlib.Logic.Basic

/-!
# Runs of structured programs

A piece of a program is described by its runs: what each of them does, in order, and
whether it ends normally or raises.  `OnExit` puts a piece before others, one for each way
it can end; blocks, handlers and `finally` are all made of it.

Two questions are asked of a piece.  Is it sure to do something of a kind
(`Behaviour.Surely`)?  Is something of one kind done before each thing of another
(`Behaviour.Precedes`)?  Both are answered exactly, from the pieces: `surely_onExit` and
`precedes_onExit`, with the rules for choices and for loops.
-/

namespace ProdkitStorage.Foundation

/-- How a run ends. -/
inductive Exit where
  | normal
  | raised
deriving DecidableEq

theorem forall_exit {p : Exit → Prop} : (∀ exit, p exit) ↔ p .normal ∧ p .raised := by
  constructor
  · intro h
    exact ⟨h .normal, h .raised⟩
  · rintro ⟨hnormal, hraised⟩ (_ | _)
    · exact hnormal
    · exact hraised

/-- The runs of a piece of a program. -/
abbrev Behaviour (α : Type) := List α → Exit → Prop

namespace Behaviour

variable {α : Type} {P Q : α → Prop} {R S N H : Behaviour α}

/-! ## Pieces -/

/-- It does nothing. -/
inductive Done : Behaviour α where
  | intro : Done [] .normal

/-- It raises before it does anything. -/
inductive Fails : Behaviour α where
  | intro : Fails [] .raised

/-- One or the other is run. -/
def Either (R S : Behaviour α) : Behaviour α := fun trace exit => R trace exit ∨ S trace exit

/-- What follows depends on how the first piece ends. -/
inductive Follow (R : Behaviour α) (next : Exit → Behaviour α) : Behaviour α where
  | intro {a b : List α} {exit exit' : Exit} :
      R a exit → next exit b exit' → Follow R next (a ++ b) exit'

/-- What is run next, after a piece that ends normally and after one that raises. -/
def nextOf (N H : Behaviour α) : Exit → Behaviour α
  | .normal => N
  | .raised => H

/-- One piece for each way the first one can end. -/
def OnExit (R N H : Behaviour α) : Behaviour α := Follow R (nextOf N H)

/-- One piece after the other. -/
def Then (R S : Behaviour α) : Behaviour α := OnExit R S Fails

/-- A loop that is left when its header says so, which may raise itself. -/
inductive Loop (R : Behaviour α) : Behaviour α where
  | stop : Loop R [] .normal
  | fail : Loop R [] .raised
  | again {a b : List α} {exit : Exit} : R a .normal → Loop R b exit → Loop R (a ++ b) exit
  | leave {a : List α} : R a .raised → Loop R a .raised

/-! ## Questions -/

/-- It can be run. -/
def Possible (R : Behaviour α) : Prop := ∃ trace exit, R trace exit

/-- Every run with this end does something of this kind. -/
def Surely (P : α → Prop) (exit : Exit) (R : Behaviour α) : Prop :=
  ∀ trace, R trace exit → ∃ a ∈ trace, P a

/-- Each `Q` of a trace comes after a `P`, unless one is known to have come before the trace. -/
def Guarded (P Q : α → Prop) : Prop → List α → Prop
  | _, [] => True
  | known, a :: trace => (Q a → known) ∧ Guarded P Q (known ∨ P a) trace

/-- Each `Q` of a run comes after a `P`. -/
def Precedes (P Q : α → Prop) (known : Prop) (R : Behaviour α) : Prop :=
  ∀ trace exit, R trace exit → Guarded P Q known trace

/-! ## Guarded traces -/

theorem Guarded.mono {known known' : Prop} {trace : List α} (h : known → known')
    (hg : Guarded P Q known trace) : Guarded P Q known' trace := by
  induction trace generalizing known known' with
  | nil => trivial
  | cons a trace ih => exact ⟨fun hq => h (hg.1 hq), ih (Or.imp_left h) hg.2⟩

theorem guarded_of_known {known : Prop} {trace : List α} (h : known) :
    Guarded P Q known trace := by
  induction trace generalizing known with
  | nil => trivial
  | cons a trace ih => exact ⟨fun _ => h, ih (.inl h)⟩

theorem guarded_append {known : Prop} {a b : List α} :
    Guarded P Q known (a ++ b) ↔
      Guarded P Q known a ∧ Guarded P Q (known ∨ ∃ e ∈ a, P e) b := by
  induction a generalizing known with
  | nil => simp [Guarded]
  | cons e a ih =>
      simp only [List.cons_append, Guarded, ih, List.mem_cons, exists_eq_or_imp, or_assoc,
        and_assoc]

/-- A guarded trace, read off its splits. -/
theorem guarded_iff {known : Prop} {trace : List α} :
    Guarded P Q known trace ↔ ∀ earlier e later, trace = earlier ++ e :: later → Q e →
      known ∨ ∃ e' ∈ earlier, P e' := by
  constructor
  · intro hg earlier e later htrace hq
    rw [htrace, guarded_append] at hg
    exact hg.2.1 hq
  · intro h
    induction trace generalizing known with
    | nil => trivial
    | cons a trace ih =>
        refine ⟨fun hq => ?_, ih fun earlier e later htrace hq => ?_⟩
        · simpa using h [] a trace rfl hq
        · rcases h (a :: earlier) e later (by rw [htrace, List.cons_append]) hq with hknown |
            ⟨e', he', hp⟩
          · exact .inl (.inl hknown)
          · rcases List.mem_cons.mp he' with rfl | he'
            · exact .inl (.inr hp)
            · exact .inr ⟨e', he', hp⟩

theorem Precedes.mono {known known' : Prop} (h : known → known') (hp : R.Precedes P Q known) :
    R.Precedes P Q known' :=
  fun trace exit hrun => (hp trace exit hrun).mono h

theorem precedes_of_known {known : Prop} (h : known) : R.Precedes P Q known :=
  fun _ _ _ => guarded_of_known h

/-- Two pieces together are sure to do a `P` when one of them is. -/
theorem surely_or {exit exit' : Exit}
    (h : ∀ a b, R a exit → S b exit' → ∃ e ∈ a ++ b, P e) :
    R.Surely P exit ∨ S.Surely P exit' := by
  by_cases hsure : R.Surely P exit
  · exact .inl hsure
  · obtain ⟨a, ha, hnone⟩ : ∃ a, R a exit ∧ ∀ e ∈ a, ¬P e := by simpa [Surely] using hsure
    refine .inr fun b hb => ?_
    obtain ⟨e, he, hp⟩ := h a b ha hb
    rcases List.mem_append.mp he with he | he
    · exact absurd hp (hnone e he)
    · exact ⟨e, he, hp⟩

/-- Where a piece is sure to do a `P`, nothing is asked of what follows it. -/
theorem precedes_or_surely {known : Prop} {exit : Exit}
    (h : ∀ trace, R trace exit → S.Precedes P Q (known ∨ ∃ e ∈ trace, P e)) :
    S.Precedes P Q (known ∨ R.Surely P exit) := by
  by_cases hsure : R.Surely P exit
  · exact precedes_of_known (.inr hsure)
  · obtain ⟨trace, hrun, hnone⟩ : ∃ trace, R trace exit ∧ ¬∃ e ∈ trace, P e := by
      simpa [Surely] using hsure
    exact (h trace hrun).mono (Or.imp_right fun hsome => absurd hsome hnone)

/-! ## Rules -/

theorem Possible.of_not_surely {exit : Exit} (h : ¬R.Surely P exit) : R.Possible := by
  obtain ⟨trace, hrun, -⟩ : ∃ trace, R trace exit ∧ _ := by simpa [Surely] using h
  exact ⟨trace, exit, hrun⟩

theorem possible_done : (Done : Behaviour α).Possible := ⟨[], .normal, .intro⟩

theorem possible_fails : (Fails : Behaviour α).Possible := ⟨[], .raised, .intro⟩

theorem Possible.onExit (hR : R.Possible) (hN : N.Possible) (hH : H.Possible) :
    (OnExit R N H).Possible := by
  obtain ⟨a, exit, ha⟩ := hR
  obtain ⟨b, exit', hb⟩ : (nextOf N H exit).Possible := by cases exit <;> assumption
  exact ⟨a ++ b, exit', .intro ha hb⟩

theorem Possible.andThen (hR : R.Possible) (hS : S.Possible) : (Then R S).Possible :=
  hR.onExit hS possible_fails

@[simp] theorem surely_done_normal : ¬(Done : Behaviour α).Surely P .normal := by
  intro h
  obtain ⟨_, hmem, -⟩ := h [] .intro
  exact absurd hmem List.not_mem_nil

@[simp] theorem surely_done_raised : (Done : Behaviour α).Surely P .raised :=
  fun _ hrun => nomatch hrun

@[simp] theorem surely_fails_normal : (Fails : Behaviour α).Surely P .normal :=
  fun _ hrun => nomatch hrun

@[simp] theorem surely_fails_raised : ¬(Fails : Behaviour α).Surely P .raised := by
  intro h
  obtain ⟨_, hmem, -⟩ := h [] .intro
  exact absurd hmem List.not_mem_nil

@[simp] theorem precedes_done {known : Prop} : (Done : Behaviour α).Precedes P Q known := by
  rintro _ _ ⟨⟩
  trivial

@[simp] theorem precedes_fails {known : Prop} : (Fails : Behaviour α).Precedes P Q known := by
  rintro _ _ ⟨⟩
  trivial

@[simp] theorem surely_either {exit : Exit} :
    (Either R S).Surely P exit ↔ R.Surely P exit ∧ S.Surely P exit := by
  constructor
  · intro h
    exact ⟨fun trace hrun => h trace (.inl hrun), fun trace hrun => h trace (.inr hrun)⟩
  · rintro ⟨hR, hS⟩ trace (hrun | hrun)
    · exact hR trace hrun
    · exact hS trace hrun

@[simp] theorem precedes_either {known : Prop} :
    (Either R S).Precedes P Q known ↔ R.Precedes P Q known ∧ S.Precedes P Q known := by
  constructor
  · intro h
    exact ⟨fun trace exit hrun => h trace exit (.inl hrun),
      fun trace exit hrun => h trace exit (.inr hrun)⟩
  · rintro ⟨hR, hS⟩ trace exit (hrun | hrun)
    · exact hR trace exit hrun
    · exact hS trace exit hrun

/-- It is sure when, for each way the first piece can end, that piece or the next one is. -/
theorem surely_follow {next : Exit → Behaviour α} {exit' : Exit} :
    (Follow R next).Surely P exit' ↔ ∀ exit, R.Surely P exit ∨ (next exit).Surely P exit' := by
  constructor
  · intro h exit
    exact surely_or fun a b ha hb => h (a ++ b) (.intro ha hb)
  · intro h trace hrun
    obtain @⟨a, b, exit, _, ha, hb⟩ := hrun
    rcases h exit with h | h
    · obtain ⟨e, he, hp⟩ := h a ha
      exact ⟨e, List.mem_append_left b he, hp⟩
    · obtain ⟨e, he, hp⟩ := h b hb
      exact ⟨e, List.mem_append_right a he, hp⟩

theorem precedes_follow {next : Exit → Behaviour α} {known : Prop}
    (hnext : ∀ exit, (next exit).Possible) :
    (Follow R next).Precedes P Q known ↔ R.Precedes P Q known ∧
      ∀ exit, (next exit).Precedes P Q (known ∨ R.Surely P exit) := by
  constructor
  · intro h
    constructor
    · intro a exit ha
      obtain ⟨b, exit', hb⟩ := hnext exit
      exact (guarded_append.mp (h (a ++ b) exit' (.intro ha hb))).1
    · intro exit
      refine precedes_or_surely fun a ha b exit' hb => ?_
      exact (guarded_append.mp (h (a ++ b) exit' (.intro ha hb))).2
  · rintro ⟨hR, hafter⟩ trace exit' ⟨ha, hb⟩
    rename_i a b exit
    refine guarded_append.mpr ⟨hR a exit ha, (hafter exit b exit' hb).mono ?_⟩
    exact Or.imp_right fun hsure => hsure a ha

@[simp] theorem surely_onExit {exit : Exit} :
    (OnExit R N H).Surely P exit ↔
      (R.Surely P .normal ∨ N.Surely P exit) ∧ (R.Surely P .raised ∨ H.Surely P exit) := by
  rw [OnExit, surely_follow, forall_exit]
  rfl

theorem precedes_onExit {known : Prop} (hN : N.Possible) (hH : H.Possible) :
    (OnExit R N H).Precedes P Q known ↔ R.Precedes P Q known ∧
      N.Precedes P Q (known ∨ R.Surely P .normal) ∧
      H.Precedes P Q (known ∨ R.Surely P .raised) := by
  rw [OnExit, precedes_follow fun exit => by cases exit <;> assumption]
  rw [forall_exit]
  rfl

@[simp] theorem surely_then_normal :
    (Then R S).Surely P .normal ↔ R.Surely P .normal ∨ S.Surely P .normal := by
  simp [Then]

@[simp] theorem surely_then_raised :
    (Then R S).Surely P .raised ↔
      (R.Surely P .normal ∨ S.Surely P .raised) ∧ R.Surely P .raised := by
  simp [Then]

theorem precedes_then {known : Prop} (hS : S.Possible) :
    (Then R S).Precedes P Q known ↔
      R.Precedes P Q known ∧ S.Precedes P Q (known ∨ R.Surely P .normal) := by
  rw [Then, precedes_onExit hS possible_fails]
  simp only [precedes_fails, and_true]

/-- A loop may be left at once. -/
@[simp] theorem surely_loop {exit : Exit} : ¬(Loop R).Surely P exit := by
  intro h
  cases exit with
  | normal =>
      obtain ⟨_, hmem, -⟩ := h [] .stop
      exact absurd hmem List.not_mem_nil
  | raised =>
      obtain ⟨_, hmem, -⟩ := h [] .fail
      exact absurd hmem List.not_mem_nil

/-- The first time round is the one to be asked about. -/
@[simp] theorem precedes_loop {known : Prop} :
    (Loop R).Precedes P Q known ↔ R.Precedes P Q known := by
  constructor
  · intro h trace exit hrun
    cases exit with
    | normal => simpa using h (trace ++ []) .normal (.again hrun .stop)
    | raised => exact h trace .raised (.leave hrun)
  · intro h trace exit hrun
    induction hrun with
    | stop => trivial
    | fail => trivial
    | again ha _ ih => exact guarded_append.mpr ⟨h _ _ ha, ih.mono .inl⟩
    | leave ha => exact h _ _ ha

/-! ## What else a piece may do -/

/-- Everything that a run does is a `P`. -/
def Only (P : α → Prop) (R : Behaviour α) : Prop := ∀ trace exit, R trace exit → ∀ a ∈ trace, P a

theorem only_done : (Done : Behaviour α).Only P := by
  rintro _ _ ⟨⟩ a ha
  exact absurd ha List.not_mem_nil

theorem only_fails : (Fails : Behaviour α).Only P := by
  rintro _ _ ⟨⟩ a ha
  exact absurd ha List.not_mem_nil

theorem Only.either (hR : R.Only P) (hS : S.Only P) : (Either R S).Only P := by
  rintro trace exit (hrun | hrun)
  · exact hR trace exit hrun
  · exact hS trace exit hrun

theorem Only.onExit (hR : R.Only P) (hN : N.Only P) (hH : H.Only P) : (OnExit R N H).Only P := by
  rintro _ exit' ⟨ha, hb⟩ e he
  rename_i a b exit
  rcases List.mem_append.mp he with he | he
  · exact hR a exit ha e he
  · cases exit with
    | normal => exact hN b exit' hb e he
    | raised => exact hH b exit' hb e he

theorem Only.andThen (hR : R.Only P) (hS : S.Only P) : (Then R S).Only P :=
  hR.onExit hS only_fails

theorem Only.loop (hR : R.Only P) : (Loop R).Only P := by
  intro trace exit hrun
  induction hrun with
  | stop => exact fun a ha => absurd ha List.not_mem_nil
  | fail => exact fun a ha => absurd ha List.not_mem_nil
  | again ha _ ih =>
      intro e he
      rcases List.mem_append.mp he with he | he
      · exact hR _ _ ha e he
      · exact ih e he
  | leave ha => exact hR _ _ ha

end Behaviour
end ProdkitStorage.Foundation

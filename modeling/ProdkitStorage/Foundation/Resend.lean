import Mathlib.Logic.Basic

/-!
# Commands that are sent again

A *command* changes the state of a server and replies.  When a reply is lost the
client sends the command again, so the server may run it several times before a
reply arrives: `resend run between s` runs it once more than the list `between` is
long, and `between` says what happened on the server after each lost reply.  The
reply that arrives is that of the last execution.

`last` is the state the last execution meets, and `lost` the states the executions
met whose replies were lost.
-/

namespace ProdkitStorage.Foundation.Resend

variable {State Reply : Type}

/-- The state after all executions, and the reply that arrives. -/
def resend (run : State → State × Reply) : List (State → State) → State → State × Reply
  | [], s => run s
  | happened :: between, s => resend run between (happened (run s).1)

/-- The state the last execution meets. -/
def last (run : State → State × Reply) : List (State → State) → State → State
  | [], s => s
  | happened :: between, s => last run between (happened (run s).1)

/-- The states of the executions whose replies were lost. -/
def lost (run : State → State × Reply) : List (State → State) → State → List State
  | [], _ => []
  | happened :: between, s => s :: lost run between (happened (run s).1)

/-- The states of all executions. -/
def executions (run : State → State × Reply) (between : List (State → State)) (s : State) :
    List State :=
  lost run between s ++ [last run between s]

/-- Others do not bring about `P`. -/
def Foreign (P : State → Prop) (happened : State → State) : Prop := ∀ s, P (happened s) → P s

variable {run : State → State × Reply}

theorem resend_eq (run : State → State × Reply) (between : List (State → State)) (s : State) :
    resend run between s = run (last run between s) := by
  induction between generalizing s with
  | nil => rfl
  | cons happened between ih => exact ih _

theorem mem_executions {between : List (State → State)} {s e : State} :
    e ∈ executions run between s ↔ e ∈ lost run between s ∨ e = last run between s := by
  rw [executions, List.mem_append, List.mem_singleton]

/-- What no execution brings about, and nobody else, does not come about. -/
theorem not_last {P : State → Prop} (hrun : ∀ s, ¬P s → ¬P (run s).1)
    {between : List (State → State)} (hforeign : ∀ happened ∈ between, Foreign P happened)
    {s : State} (h : ¬P s) : ¬P (last run between s) := by
  induction between generalizing s with
  | nil => exact h
  | cons happened between ih =>
      refine ih (fun other hother => hforeign other (List.mem_cons_of_mem _ hother)) ?_
      intro hp
      exact hrun s h (hforeign happened List.mem_cons_self _ hp)

/-- A command that uses up what it needs finds it once: after an execution that met `P` no later
one does. -/
theorem not_last_of_lost {P : State → Prop} (hrun : ∀ s, ¬P (run s).1)
    {between : List (State → State)} (hforeign : ∀ happened ∈ between, Foreign P happened)
    {s e : State} (he : e ∈ lost run between s) : ¬P (last run between s) := by
  cases between with
  | nil => cases he
  | cons happened between =>
      refine not_last (fun s _ => hrun s)
        (fun other hother => hforeign other (List.mem_cons_of_mem _ hother)) ?_
      intro hp
      exact hrun s (hforeign happened List.mem_cons_self _ hp)

/-- So such a command replies that it found it, exactly when no lost execution did. -/
theorem found_once_iff {P : State → Prop} (hrun : ∀ s, ¬P (run s).1)
    {between : List (State → State)} (hforeign : ∀ happened ∈ between, Foreign P happened)
    (s : State) :
    ((∃ e ∈ executions run between s, P e) → P (last run between s)) ↔
      ¬∃ e ∈ lost run between s, P e := by
  constructor
  · rintro hfound ⟨e, he, hp⟩
    have hlast := hfound ⟨e, mem_executions.mpr (.inl he), hp⟩
    exact not_last_of_lost hrun hforeign he hlast
  · rintro hnone ⟨e, he, hp⟩
    rcases mem_executions.mp he with hlost | rfl
    · exact absurd ⟨e, hlost, hp⟩ hnone
    · exact hp

end ProdkitStorage.Foundation.Resend

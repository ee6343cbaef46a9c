import Mathlib.Logic.Basic

/-!
# Programs that call a service

A *program* makes calls and goes on with what it is answered, a reply or an error, until
it returns or fails.  Calls of one kind may be *interpreted* by programs that make calls of
another kind.

A *service* answers the calls: `serves s op reply t` says that in the state `s` it may
answer the call `op` with `reply` and go to the state `t`.  `Exec serves p s outcome t`
says that `p`, started when the service is in the state `s`, may end with `outcome` when
the service is in the state `t`; `Ensures` speaks of all the ways in which it may end.
A service that answers in one way only is a function, and `eval` runs a program on it.
`Records` is the service that answers anything and remembers what happened.
-/

namespace ProdkitStorage.Foundation

/-- A program, with calls `Op` that are answered by `Reply`, errors `ε` and results `α`. -/
inductive Program (Op : Type) (Reply : Op → Type) (ε α : Type) where
  | done (outcome : Except ε α)
  | call (op : Op) (next : Except ε (Reply op) → Program Op Reply ε α)

namespace Program

variable {Op Op' : Type} {Reply : Op → Type} {Reply' : Op' → Type} {ε α β σ : Type}

/-- The second program goes on with the outcome of the first. -/
def andThen : Program Op Reply ε α → (Except ε α → Program Op Reply ε β) → Program Op Reply ε β
  | .done outcome, f => f outcome
  | .call op next, f => .call op fun reply => (next reply).andThen f

/-- An error ends the program. -/
def onOk (f : α → Program Op Reply ε β) : Except ε α → Program Op Reply ε β
  | .ok a => f a
  | .error e => .done (.error e)

instance : Monad (Program Op Reply ε) where
  pure a := .done (.ok a)
  bind p f := p.andThen (onOk f)

/-- One call. -/
def perform (op : Op) : Program Op Reply ε (Reply op) := .call op .done

/-- The calls are made by other programs. -/
def interp (handler : (op : Op) → Program Op' Reply' ε (Reply op)) :
    Program Op Reply ε α → Program Op' Reply' ε α
  | .done outcome => .done outcome
  | .call op next => (handler op).andThen fun reply => (next reply).interp handler

theorem bind_def (p : Program Op Reply ε α) (f : α → Program Op Reply ε β) :
    p >>= f = p.andThen (onOk f) := rfl

/-! ## Execution -/

/-- A way in which a program may end. -/
inductive Exec (serves : σ → (op : Op) → Except ε (Reply op) → σ → Prop) :
    Program Op Reply ε α → σ → Except ε α → σ → Prop where
  | done (outcome : Except ε α) (s : σ) : Exec serves (.done outcome) s outcome s
  | call {op : Op} {next : Except ε (Reply op) → Program Op Reply ε α} {s t u : σ}
      {reply : Except ε (Reply op)} {outcome : Except ε α} :
      serves s op reply t → Exec serves (next reply) t outcome u →
      Exec serves (.call op next) s outcome u

variable {serves : σ → (op : Op) → Except ε (Reply op) → σ → Prop}

theorem exec_done {outcome result : Except ε α} {s t : σ} :
    Exec serves (.done outcome : Program Op Reply ε α) s result t ↔ result = outcome ∧ t = s := by
  constructor
  · intro h
    cases h
    exact ⟨rfl, rfl⟩
  · rintro ⟨rfl, rfl⟩
    exact .done _ _

theorem exec_call {op : Op} {next : Except ε (Reply op) → Program Op Reply ε α} {s u : σ}
    {outcome : Except ε α} :
    Exec serves (.call op next) s outcome u ↔
      ∃ reply t, serves s op reply t ∧ Exec serves (next reply) t outcome u := by
  constructor
  · intro h
    cases h with
    | call hserves hnext => exact ⟨_, _, hserves, hnext⟩
  · rintro ⟨reply, t, hserves, hnext⟩
    exact .call hserves hnext

theorem exec_andThen {p : Program Op Reply ε α} {f : Except ε α → Program Op Reply ε β} {s u : σ}
    {outcome : Except ε β} :
    Exec serves (p.andThen f) s outcome u ↔
      ∃ result t, Exec serves p s result t ∧ Exec serves (f result) t outcome u := by
  induction p generalizing s with
  | done first =>
      simp only [andThen, exec_done]
      constructor
      · exact fun hf => ⟨first, s, ⟨rfl, rfl⟩, hf⟩
      · rintro ⟨result, t, ⟨rfl, rfl⟩, hf⟩
        exact hf
  | call op next ih =>
      simp only [andThen, exec_call, ih]
      constructor
      · rintro ⟨reply, t, hserves, result, v, hnext, hf⟩
        exact ⟨result, v, ⟨reply, t, hserves, hnext⟩, hf⟩
      · rintro ⟨result, v, ⟨reply, t, hserves, hnext⟩, hf⟩
        exact ⟨reply, t, hserves, result, v, hnext, hf⟩

theorem exec_perform {op : Op} {reply : Except ε (Reply op)} {s t : σ} :
    Exec serves (perform op) s reply t ↔ serves s op reply t := by
  simp only [perform, exec_call, exec_done]
  constructor
  · rintro ⟨_, _, hserves, rfl, rfl⟩
    exact hserves
  · exact fun hserves => ⟨reply, t, hserves, rfl, rfl⟩

/-- A program that returns, and the one that follows it. -/
theorem Exec.onward {p : Program Op Reply ε α} {f : α → Program Op Reply ε β} {s t u : σ} {a : α}
    {outcome : Except ε β} (hp : Exec serves p s (.ok a) t) (hf : Exec serves (f a) t outcome u) :
    Exec serves (p >>= f) s outcome u :=
  exec_andThen.mpr ⟨.ok a, t, hp, hf⟩

/-- A program that fails. -/
theorem Exec.fails {p : Program Op Reply ε α} {f : α → Program Op Reply ε β} {s t : σ} {e : ε}
    (hp : Exec serves p s (.error e) t) : Exec serves (p >>= f) s (.error e) t :=
  exec_andThen.mpr ⟨.error e, t, hp, .done _ _⟩

/-- A program fails, or returns and another one follows it. -/
theorem exec_bind {p : Program Op Reply ε α} {f : α → Program Op Reply ε β} {s u : σ}
    {outcome : Except ε β} :
    Exec serves (p >>= f) s outcome u ↔
      (∃ e, Exec serves p s (.error e) u ∧ outcome = .error e) ∨
        ∃ a t, Exec serves p s (.ok a) t ∧ Exec serves (f a) t outcome u := by
  rw [bind_def, exec_andThen]
  constructor
  · rintro ⟨result, t, hp, hf⟩
    cases result with
    | error e =>
        obtain ⟨rfl, rfl⟩ := exec_done.mp hf
        exact .inl ⟨e, hp, rfl⟩
    | ok a => exact .inr ⟨a, t, hp, hf⟩
  · rintro (⟨e, hp, rfl⟩ | ⟨a, t, hp, hf⟩)
    · exact ⟨.error e, u, hp, .done _ _⟩
    · exact ⟨.ok a, t, hp, hf⟩

/-- A check that passes, and the program that follows it. -/
theorem Exec.checked {check : Except ε α} {a : α} {f : α → Program Op Reply ε β} {s t : σ}
    {outcome : Except ε β} (hcheck : check = .ok a) (hf : Exec serves (f a) s outcome t) :
    Exec serves (.done check >>= f) s outcome t := by
  subst hcheck
  exact hf

/-- An interpreted program runs on the service that its interpretation provides. -/
theorem exec_interp {serves : σ → (op : Op') → Except ε (Reply' op) → σ → Prop}
    {handler : (op : Op) → Program Op' Reply' ε (Reply op)} {p : Program Op Reply ε α} {s u : σ}
    {outcome : Except ε α} :
    Exec serves (p.interp handler) s outcome u ↔
      Exec (fun s op reply t => Exec serves (handler op) s reply t) p s outcome u := by
  induction p generalizing s with
  | done result => simp only [interp, exec_done]
  | call op next ih => simp only [interp, exec_andThen, exec_call, ih]

/-- A service that may answer in more ways. -/
theorem Exec.mono {serves' : σ → (op : Op) → Except ε (Reply op) → σ → Prop}
    {p : Program Op Reply ε α} {s t : σ} {outcome : Except ε α} (h : Exec serves p s outcome t)
    (himp : ∀ s op reply t, serves s op reply t → serves' s op reply t) :
    Exec serves' p s outcome t := by
  induction h with
  | done outcome s => exact .done outcome s
  | call hserves _ ih => exact .call (himp _ _ _ _ hserves) ih

/-! ## Postconditions -/

/-- However the program ends, `Q` holds of its outcome and of the state of the service. -/
def Ensures (serves : σ → (op : Op) → Except ε (Reply op) → σ → Prop) (p : Program Op Reply ε α)
    (Q : Except ε α → σ → Prop) (s : σ) : Prop :=
  ∀ outcome t, Exec serves p s outcome t → Q outcome t

/-- The postcondition of a program that another one follows: it returns and `next` holds, or it
fails and `Q` holds. -/
def Passes (Q : Except ε β → σ → Prop) (next : α → σ → Prop) : Except ε α → σ → Prop
  | .ok a, t => next a t
  | .error e, t => Q (.error e) t

variable {Q : Except ε α → σ → Prop} {s : σ}

theorem ensures_done {outcome : Except ε α} :
    Ensures serves (.done outcome : Program Op Reply ε α) Q s ↔ Q outcome s := by
  simp only [Ensures, exec_done, and_imp, forall_eq_apply_imp_iff, forall_eq]

theorem ensures_call {op : Op} {next : Except ε (Reply op) → Program Op Reply ε α} :
    Ensures serves (.call op next) Q s ↔
      ∀ reply t, serves s op reply t → Ensures serves (next reply) Q t := by
  simp only [Ensures, exec_call]
  constructor
  · exact fun h reply t hserves outcome u hnext => h outcome u ⟨reply, t, hserves, hnext⟩
  · exact fun h outcome u ⟨reply, t, hserves, hnext⟩ => h reply t hserves outcome u hnext

theorem ensures_perform {op : Op} {Q : Except ε (Reply op) → σ → Prop} :
    Ensures serves (perform op) Q s ↔ ∀ reply t, serves s op reply t → Q reply t := by
  simp only [perform, ensures_call, ensures_done]

theorem ensures_andThen {p : Program Op Reply ε α} {f : Except ε α → Program Op Reply ε β}
    {Q : Except ε β → σ → Prop} :
    Ensures serves (p.andThen f) Q s ↔
      Ensures serves p (fun result t => Ensures serves (f result) Q t) s := by
  simp only [Ensures, exec_andThen]
  constructor
  · exact fun h result t hp outcome u hf => h outcome u ⟨result, t, hp, hf⟩
  · exact fun h outcome u ⟨result, t, hp, hf⟩ => h result t hp outcome u hf

theorem ensures_bind {p : Program Op Reply ε α} {f : α → Program Op Reply ε β}
    {Q : Except ε β → σ → Prop} :
    Ensures serves (p >>= f) Q s ↔
      Ensures serves p (Passes Q fun a t => Ensures serves (f a) Q t) s := by
  have hpost : (fun result t => Ensures serves (onOk f result) Q t) =
      Passes Q fun a t => Ensures serves (f a) Q t := by
    funext result t
    cases result with
    | ok a => rfl
    | error e => exact propext ensures_done
  rw [bind_def, ensures_andThen, hpost]

/-- An interpreted program, on the service that its interpretation provides. -/
theorem ensures_interp {serves : σ → (op : Op') → Except ε (Reply' op) → σ → Prop}
    {handler : (op : Op) → Program Op' Reply' ε (Reply op)} {p : Program Op Reply ε α} :
    Ensures serves (p.interp handler) Q s ↔
      Ensures (fun s op reply t => Exec serves (handler op) s reply t) p Q s := by
  simp only [Ensures, exec_interp]

theorem Ensures.mono {p : Program Op Reply ε α} {Q' : Except ε α → σ → Prop}
    (h : Ensures serves p Q s) (himp : ∀ outcome t, Q outcome t → Q' outcome t) :
    Ensures serves p Q' s :=
  fun outcome t hp => himp outcome t (h outcome t hp)

/-- A program and the one that follows it. -/
theorem Ensures.bind {p : Program Op Reply ε α} {f : α → Program Op Reply ε β}
    {R : Except ε α → σ → Prop} {Q : Except ε β → σ → Prop} (hp : Ensures serves p R s)
    (hok : ∀ a t, R (.ok a) t → Ensures serves (f a) Q t)
    (herror : ∀ e t, R (.error e) t → Q (.error e) t) : Ensures serves (p >>= f) Q s := by
  refine ensures_bind.mpr (hp.mono ?_)
  intro outcome t hR
  cases outcome with
  | ok a => exact hok a t hR
  | error e => exact herror e t hR

/-- A check and the program that follows it. -/
theorem Ensures.check {outcome : Except ε α} {f : α → Program Op Reply ε β}
    {Q : Except ε β → σ → Prop} (hok : ∀ a, outcome = .ok a → Ensures serves (f a) Q s)
    (herror : ∀ e, outcome = .error e → Q (.error e) s) :
    Ensures serves (.done outcome >>= f) Q s := by
  refine .bind (R := fun result t => result = outcome ∧ t = s) (ensures_done.mpr ⟨rfl, rfl⟩) ?_ ?_
  · rintro a t ⟨ha, rfl⟩
    exact hok a ha.symm
  · rintro e t ⟨he, rfl⟩
    exact herror e he.symm

/-- The postcondition of a program that returns with `Q`, or fails with `E`. -/
def Returns (E : σ → Prop) (Q : α → σ → Prop) : Except ε α → σ → Prop
  | .ok a, t => Q a t
  | .error _, t => E t

/-- A program that returns with more than is asked for. -/
theorem Ensures.returns {p : Program Op Reply ε α} {E : σ → Prop} {R Q : α → σ → Prop}
    (hp : Ensures serves p (Returns E R) s) (himp : ∀ a t, R a t → Q a t) :
    Ensures serves p (Returns E Q) s := by
  refine hp.mono fun outcome t hreturns => ?_
  cases outcome with
  | ok a => exact himp a t hreturns
  | error e => exact hreturns

/-- A program that returns, and the one that follows it. -/
theorem Ensures.onward {p : Program Op Reply ε α} {f : α → Program Op Reply ε β} {E : σ → Prop}
    {R : α → σ → Prop} {Q : β → σ → Prop} (hp : Ensures serves p (Returns E R) s)
    (hf : ∀ a t, R a t → Ensures serves (f a) (Returns E Q) t) :
    Ensures serves (p >>= f) (Returns E Q) s :=
  hp.bind hf fun _ _ herror => herror

/-- A check that passes, and the program that follows it. -/
theorem Ensures.checked {outcome : Except ε α} {a : α} {f : α → Program Op Reply ε β}
    {Q : Except ε β → σ → Prop} (houtcome : outcome = .ok a) (hf : Ensures serves (f a) Q s) :
    Ensures serves (.done outcome >>= f) Q s := by
  subst houtcome
  exact hf

/-! ## The calls a program may make -/

/-- Every call of the program, whatever it is answered, satisfies `P`. -/
def Calls (P : Op → Prop) : Program Op Reply ε α → Prop
  | .done _ => True
  | .call op next => P op ∧ ∀ reply, (next reply).Calls P

theorem Calls.perform {P : Op → Prop} {op : Op} (h : P op) :
    (perform op : Program Op Reply ε (Reply op)).Calls P :=
  ⟨h, fun _ => trivial⟩

theorem Calls.andThen {P : Op → Prop} {p : Program Op Reply ε α}
    {f : Except ε α → Program Op Reply ε β} (hp : p.Calls P) (hf : ∀ outcome, (f outcome).Calls P) :
    (p.andThen f).Calls P := by
  induction p with
  | done outcome => exact hf outcome
  | call op next ih => exact ⟨hp.1, fun reply => ih reply (hp.2 reply)⟩

theorem Calls.bind {P : Op → Prop} {p : Program Op Reply ε α} {f : α → Program Op Reply ε β}
    (hp : p.Calls P) (hf : ∀ a, (f a).Calls P) : (p >>= f).Calls P := by
  refine hp.andThen fun outcome => ?_
  cases outcome with
  | ok a => exact hf a
  | error e => trivial

theorem Calls.check {P : Op → Prop} {outcome : Except ε α} {f : α → Program Op Reply ε β}
    (hf : ∀ a, (f a).Calls P) : (.done outcome >>= f : Program Op Reply ε β).Calls P :=
  .bind (p := .done outcome) trivial hf

theorem Calls.mono {P P' : Op → Prop} {p : Program Op Reply ε α} (hp : p.Calls P)
    (himp : ∀ op, P op → P' op) : p.Calls P' := by
  induction p with
  | done outcome => trivial
  | call op next ih => exact ⟨himp op hp.1, fun reply => ih reply (hp.2 reply)⟩

theorem Calls.any (p : Program Op Reply ε α) : p.Calls fun _ => True := by
  induction p with
  | done outcome => trivial
  | call op next ih => exact ⟨trivial, ih⟩

/-- What the calls that a program may make keep, the program keeps. -/
theorem Calls.keeps {P : Op → Prop} {I : σ → Prop} {p : Program Op Reply ε α} (hp : p.Calls P)
    (hstep : ∀ s op reply t, P op → I s → serves s op reply t → I t) {s t : σ}
    {outcome : Except ε α} (h : Exec serves p s outcome t) (hs : I s) : I t := by
  induction h with
  | done outcome s => exact hs
  | call hserves _ ih => exact ih (hp.2 _) (hstep _ _ _ _ hp.1 hs hserves)

/-! ## Services that answer in one way -/

/-- The outcome of a program, and the state it leaves the service in. -/
def eval (serve : σ → (op : Op) → Except ε (Reply op) × σ) :
    Program Op Reply ε α → σ → Except ε α × σ
  | .done outcome, s => (outcome, s)
  | .call op next, s => (next (serve s op).1).eval serve (serve s op).2

variable {serve : σ → (op : Op) → Except ε (Reply op) × σ}

/-- The way in which a program ends. -/
theorem exec_eval (p : Program Op Reply ε α) (s : σ) :
    Exec (fun s op reply t => serve s op = (reply, t)) p s (p.eval serve s).1
      (p.eval serve s).2 := by
  induction p generalizing s with
  | done outcome => exact .done outcome s
  | call op next ih => exact .call rfl (ih _ _)

/-! ## What happened -/

/-- A call and what it was answered. -/
structure Answered (Op : Type) (Reply : Op → Type) (ε : Type) where
  op : Op
  reply : Except ε (Reply op)

/-- Any answer, remembered; the newest comes first. -/
def Records (history : List (Answered Op Reply ε)) (op : Op) (reply : Except ε (Reply op))
    (after : List (Answered Op Reply ε)) : Prop :=
  after = ⟨op, reply⟩ :: history

/-- A run of the program with these calls, the newest first, ends with this outcome. -/
def Runs (p : Program Op Reply ε α) (history : List (Answered Op Reply ε)) (outcome : Except ε α) :
    Prop :=
  Exec Records p [] outcome history

/-- The service went through these answers, the newest first. -/
inductive Served (serves : σ → (op : Op) → Except ε (Reply op) → σ → Prop) (s : σ) :
    List (Answered Op Reply ε) → σ → Prop where
  | nil : Served serves s [] s
  | cons {history : List (Answered Op Reply ε)} {t u : σ} {op : Op} {reply : Except ε (Reply op)} :
      Served serves s history t → serves t op reply u → Served serves s (⟨op, reply⟩ :: history) u

/-- What a service answers is a run. -/
theorem Exec.runs {p : Program Op Reply ε α} {s t : σ} {outcome : Except ε α}
    (h : Exec serves p s outcome t) :
    ∃ history, Runs p history outcome ∧ Served serves s history t := by
  have hfrom : ∀ {p : Program Op Reply ε α} {s' t : σ} {outcome : Except ε α},
      Exec serves p s' outcome t → ∀ before, Served serves s before s' →
      ∃ history, Exec Records p before outcome history ∧ Served serves s history t := by
    intro p s' t outcome h
    induction h with
    | done outcome s' => exact fun before hbefore => ⟨before, .done _ _, hbefore⟩
    | call hserves _ ih =>
        intro before hbefore
        obtain ⟨history, hrun, hserved⟩ := ih _ (hbefore.cons hserves)
        exact ⟨history, .call rfl hrun, hserved⟩
  exact hfrom h [] .nil

/-- What a program adds to what happened are calls that it may make. -/
theorem Calls.records {P : Op → Prop} {p : Program Op Reply ε α} (hp : p.Calls P)
    {before after : List (Answered Op Reply ε)} {outcome : Except ε α}
    (h : Exec Records p before outcome after) :
    ∃ added, after = added ++ before ∧ ∀ event ∈ added, P event.op := by
  induction h with
  | done outcome before => exact ⟨[], rfl, fun _ hevent => (nomatch hevent)⟩
  | call hserves _ ih =>
      cases hserves
      obtain ⟨added, rfl, hadded⟩ := ih (hp.2 _)
      refine ⟨added ++ [_], List.append_cons _ _ _, fun event hevent => ?_⟩
      rcases List.mem_append.mp hevent with hevent | hevent
      · exact hadded event hevent
      · cases List.mem_singleton.mp hevent
        exact hp.1

/-- Every call was allowed by what had happened before it. -/
def Guarded (allowed : List (Answered Op Reply ε) → Op → Prop) : List (Answered Op Reply ε) → Prop
  | [] => True
  | event :: older => allowed older event.op ∧ Guarded allowed older

theorem Guarded.older {allowed : List (Answered Op Reply ε) → Op → Prop}
    {newer older : List (Answered Op Reply ε)} (h : Guarded allowed (newer ++ older)) :
    Guarded allowed older := by
  induction newer with
  | nil => exact h
  | cons event newer ih => exact ih h.2

theorem ensures_records {op : Op} {Q : Except ε (Reply op) → List (Answered Op Reply ε) → Prop}
    {history : List (Answered Op Reply ε)} :
    Ensures Records (perform op) Q history ↔ ∀ reply, Q reply (⟨op, reply⟩ :: history) := by
  rw [ensures_perform]
  constructor
  · exact fun h reply => h reply _ rfl
  · rintro h reply t rfl
    exact h reply

end Program

end ProdkitStorage.Foundation

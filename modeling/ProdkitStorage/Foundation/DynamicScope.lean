import ProdkitStorage.Foundation.Transition

/-!
# Dynamic scope

A program that reads a variable, gives it a value for the length of a block, starts other
programs and raises.  `meaning` reads it lexically: a block sees the value of the nearest block
around it, and a program that was started sees the value at the place where it was started.

A *machine* runs many programs at once, each a *task* with a cell of its own.  A block stores its
value in the cell, keeps a token with what the cell held, and puts that back when the block is
left, also by an exception; a new task begins with a copy of the cell.  The order in which the
tasks take their steps is arbitrary.  `lexical` says that every task has seen what the
lexical reading says.
-/

namespace ProdkitStorage.Foundation.DynamicScope

variable {V : Type}

/-! ## The lexical reading -/

/-- A program over one variable. -/
inductive Code (V : Type) where
  | done
  | fail
  | read (next : V → Code V)
  /-- The block runs with a value of its own. -/
  | within (value : V) (body next : Code V)
  /-- Another task is started. -/
  | spawn (child next : Code V)
  /-- The handler runs when the body raises. -/
  | guarded (body handler next : Code V)

/-- What a program shows. -/
inductive Seen (V : Type) where
  | read (value : V)
  | spawned (value : V) (child : Code V)

/-- What a program shows until it ends, and whether it ends with an exception. -/
structure Meaning (V : Type) where
  seen : List (Seen V)
  raised : Bool

namespace Meaning

/-- What comes after depends on whether there was an exception. -/
def resume (first : Meaning V) (rest : Bool → Meaning V) : Meaning V :=
  ⟨first.seen ++ (rest first.raised).seen, (rest first.raised).raised⟩

/-- An exception skips what comes after. -/
def andThen (first second : Meaning V) : Meaning V :=
  first.resume fun raised => if raised then ⟨[], true⟩ else second

/-- An exception is caught. -/
def rescue (first handler : Meaning V) : Meaning V :=
  first.resume fun raised => if raised then handler else ⟨[], false⟩

def show_ (item : Seen V) (rest : Meaning V) : Meaning V := ⟨item :: rest.seen, rest.raised⟩

theorem mem_andThen {first second : Meaning V} {item : Seen V}
    (h : item ∈ (first.andThen second).seen) : item ∈ first.seen ∨ item ∈ second.seen := by
  obtain ⟨seen, raised⟩ := first
  cases raised with
  | false => exact List.mem_append.mp h
  | true => exact .inl (by simpa [andThen, resume] using h)

theorem mem_rescue {first handler : Meaning V} {item : Seen V}
    (h : item ∈ (first.rescue handler).seen) : item ∈ first.seen ∨ item ∈ handler.seen := by
  obtain ⟨seen, raised⟩ := first
  cases raised with
  | false => exact .inl (by simpa [rescue, resume] using h)
  | true => exact List.mem_append.mp h

end Meaning

/-- The program where the variable has the value. -/
def meaning (value : V) : Code V → Meaning V
  | .done => ⟨[], false⟩
  | .fail => ⟨[], true⟩
  | .read next => (meaning value (next value)).show_ (.read value)
  | .within inner body next => (meaning inner body).andThen (meaning value next)
  | .spawn child next => (meaning value next).show_ (.spawned value child)
  | .guarded body handler next =>
      ((meaning value body).rescue (meaning value handler)).andThen (meaning value next)

/-- The program leaves the variable alone, and so do the tasks it starts. -/
def Plain : Code V → Prop
  | .done => True
  | .fail => True
  | .read next => ∀ value, Plain (next value)
  | .within _ _ _ => False
  | .spawn child next => Plain child ∧ Plain next
  | .guarded body handler next => Plain body ∧ Plain handler ∧ Plain next

/-- What is shown where the variable has one value. -/
def Seen.Shows (value : V) : Seen V → Prop
  | .read seen => seen = value
  | .spawned seen child => seen = value ∧ Plain child

theorem Plain.shows {value : V} {code : Code V} (h : Plain code) :
    ∀ item ∈ (meaning value code).seen, item.Shows value := by
  induction code with
  | done => exact fun _ hitem => (List.not_mem_nil hitem).elim
  | fail => exact fun _ hitem => (List.not_mem_nil hitem).elim
  | read next ih =>
      intro item hitem
      rcases List.mem_cons.mp hitem with rfl | hitem
      · exact rfl
      · exact ih value (h value) item hitem
  | within inner body next => exact h.elim
  | spawn child next _ ih =>
      intro item hitem
      rcases List.mem_cons.mp hitem with rfl | hitem
      · exact ⟨rfl, h.1⟩
      · exact ih h.2 item hitem
  | guarded body handler next ihbody ihhandler ihnext =>
      intro item hitem
      obtain ⟨hbody, hhandler, hnext⟩ := h
      rcases Meaning.mem_andThen hitem with hitem | hitem
      · rcases Meaning.mem_rescue hitem with hitem | hitem
        · exact ihbody hbody item hitem
        · exact ihhandler hhandler item hitem
      · exact ihnext hnext item hitem

/-! ## The machine -/

/-- What the cell of a task held. -/
structure Token (V : Type) where
  owner : Nat
  old : V

/-- What is left to do. -/
inductive Frame (V : Type) where
  | run (code : Code V)
  | reset (token : Token V)
  | handle (handler : Code V)

/-- A task: what it was started with, and where it is. -/
structure Task (V : Type) where
  inherited : V
  code : Code V
  cell : V
  raising : Bool
  control : List (Frame V)
  log : List (Seen V)

namespace Task

def create (value : V) (code : Code V) : Task V where
  inherited := value
  code := code
  cell := value
  raising := false
  control := [.run code]
  log := []

def goOn (task : Task V) (control : List (Frame V)) : Task V := { task with control := control }

def note (task : Task V) (item : Seen V) : Task V := { task with log := task.log ++ [item] }

/-- Putting a token back, which only its owner may. -/
def putBack (id : Nat) (task : Task V) (token : Token V) : Task V :=
  if token.owner = id then { task with cell := token.old } else { task with raising := true }

/-- A program takes a step, and may start a task. -/
def runCode (id : Nat) (task : Task V) (rest : List (Frame V)) : Code V → Task V × List (Task V)
  | .done => (task.goOn rest, [])
  | .fail => ({ task with raising := true }.goOn rest, [])
  | .read next => ((task.note (.read task.cell)).goOn (.run (next task.cell) :: rest), [])
  | .within value body next =>
      ({ task with cell := value }.goOn
        (.run body :: .reset ⟨id, task.cell⟩ :: .run next :: rest), [])
  | .spawn child next =>
      ((task.note (.spawned task.cell child)).goOn (.run next :: rest), [create task.cell child])
  | .guarded body handler next =>
      (task.goOn (.run body :: .handle handler :: .run next :: rest), [])

/-- One step of a task, unless it has finished. -/
def step (id : Nat) (task : Task V) : Option (Task V × List (Task V)) :=
  match task.control with
  | [] => none
  | .run code :: rest =>
      some (if task.raising then (task.goOn rest, []) else task.runCode id rest code)
  | .reset token :: rest => some ((task.putBack id token).goOn rest, [])
  | .handle handler :: rest =>
      some (if task.raising then ({ task with raising := false }.goOn (.run handler :: rest), [])
        else (task.goOn rest, []))

def finished (task : Task V) : Bool := task.control.isEmpty

end Task

/-- A step of one of the tasks. -/
def stepAt (s : List (Task V)) (id : Nat) : Option (List (Task V)) := do
  let task ← s[id]?
  let (after, started) ← task.step id
  return s.set id after ++ started

/-- The tasks, in any order of steps.  A label is the task that takes the step. -/
def machine (start : List (V × Code V)) : System (List (Task V)) Nat where
  init s := s = start.map fun item => .create item.1 item.2
  step s id t := stepAt s id = some t

theorem stepAt_eq_some {s t : List (Task V)} {id : Nat} (h : stepAt s id = some t) :
    ∃ task after started, s[id]? = some task ∧ task.step id = some (after, started) ∧
      t = s.set id after ++ started := by
  simp only [stepAt, Option.bind_eq_bind, Option.bind_eq_some_iff, Prod.exists, Option.pure_def,
    Option.some.injEq] at h
  obtain ⟨task, hs, after, started, hstep, rfl⟩ := h
  exact ⟨task, after, started, hs, hstep, rfl⟩

/-! ## What is left of a task -/

/-- What the frames show, begun with a value in the cell and with or without an exception. -/
def outlook : V → Bool → List (Frame V) → Meaning V
  | _, raising, [] => ⟨[], raising⟩
  | value, raising, .run code :: rest =>
      if raising then outlook value true rest
      else (meaning value code).resume fun raised => outlook value raised rest
  | _, raising, .reset token :: rest => outlook token.old raising rest
  | value, raising, .handle handler :: rest =>
      if raising then (meaning value handler).resume fun raised => outlook value raised rest
      else outlook value false rest

/-- What the cell holds when every token has been put back. -/
def settled : V → List (Frame V) → V
  | value, [] => value
  | value, .run _ :: rest => settled value rest
  | _, .reset token :: rest => settled token.old rest
  | value, .handle _ :: rest => settled value rest

namespace Task

/-- What a task has shown, and will show. -/
def future (task : Task V) : Meaning V :=
  Meaning.resume ⟨task.log, task.raising⟩ fun raising => outlook task.cell raising task.control

/-- The tokens are the task's own, and it goes the way of the lexical reading. -/
structure Explained (id : Nat) (task : Task V) : Prop where
  owned : ∀ token, Frame.reset token ∈ task.control → token.owner = id
  shows : task.future = meaning task.inherited task.code
  restored : settled task.cell task.control = task.inherited

theorem explained_create (id : Nat) (value : V) (code : Code V) :
    (create value code).Explained id where
  owned token htoken := by simp [create] at htoken
  shows := by simp [future, create, outlook, Meaning.resume]
  restored := rfl

/-- What a program shows does not depend on how far it is. -/
theorem runCode_future (id : Nat) (task : Task V) (rest : List (Frame V)) (code : Code V)
    (hcontrol : task.control = .run code :: rest) (hraising : task.raising = false) :
    (task.runCode id rest code).1.future = task.future := by
  cases code with
  | done => simp [runCode, future, goOn, hcontrol, hraising, outlook, meaning, Meaning.resume]
  | fail => simp [runCode, future, goOn, hcontrol, hraising, outlook, meaning, Meaning.resume]
  | read next =>
      simp [runCode, future, goOn, note, hcontrol, hraising, outlook, meaning, Meaning.resume,
        Meaning.show_]
  | within value body next =>
      cases hbody : (meaning value body).raised <;>
        simp [runCode, future, goOn, hcontrol, hraising, outlook, meaning, Meaning.resume,
          Meaning.andThen, hbody]
  | spawn child next =>
      simp [runCode, future, goOn, note, hcontrol, hraising, outlook, meaning, Meaning.resume,
        Meaning.show_]
  | guarded body handler next =>
      cases hbody : (meaning task.cell body).raised with
      | false =>
          simp [runCode, future, goOn, hcontrol, hraising, outlook, meaning, Meaning.resume,
            Meaning.andThen, Meaning.rescue, hbody]
      | true =>
          cases hhandler : (meaning task.cell handler).raised <;>
            simp [runCode, future, goOn, hcontrol, hraising, outlook, meaning, Meaning.resume,
              Meaning.andThen, Meaning.rescue, hbody, hhandler]

theorem runCode_owned (id : Nat) (task : Task V) (rest : List (Frame V)) (code : Code V)
    (hrest : ∀ token, Frame.reset token ∈ rest → token.owner = id) :
    ∀ token, Frame.reset token ∈ (task.runCode id rest code).1.control → token.owner = id := by
  intro token htoken
  cases code with
  | within value body next =>
      simp only [runCode, goOn, List.mem_cons, reduceCtorEq, false_or, Frame.reset.injEq] at htoken
      rcases htoken with rfl | htoken
      · rfl
      · exact hrest token htoken
  | _ => exact hrest token (by simpa [runCode, goOn, note] using htoken)

theorem runCode_settled (id : Nat) (task : Task V) (rest : List (Frame V)) (code : Code V) :
    settled (task.runCode id rest code).1.cell (task.runCode id rest code).1.control =
      settled task.cell rest := by
  cases code <;> rfl

/-- What a step leaves of a task, and the tasks it starts. -/
structure Advances (task after : Task V) (started : List (Task V)) : Prop where
  inherited : after.inherited = task.inherited
  code : after.code = task.code
  log : ∃ more, after.log = task.log ++ more
  started : ∀ child ∈ started, ∃ value code, child = create value code ∧
    Seen.spawned value code ∈ after.log

theorem runCode_advances (id : Nat) (task : Task V) (rest : List (Frame V)) (code : Code V) :
    task.Advances (task.runCode id rest code).1 (task.runCode id rest code).2 := by
  cases code with
  | spawn child next =>
      refine ⟨rfl, rfl, ⟨_, rfl⟩, fun started hstarted => ?_⟩
      cases List.mem_singleton.mp hstarted
      exact ⟨task.cell, child, rfl, List.mem_append_right _ List.mem_cons_self⟩
  | read next => exact ⟨rfl, rfl, ⟨_, rfl⟩, fun _ hstarted => (List.not_mem_nil hstarted).elim⟩
  | _ =>
      exact ⟨rfl, rfl, ⟨[], (List.append_nil _).symm⟩,
        fun _ hstarted => (List.not_mem_nil hstarted).elim⟩

/-- What does not run a program starts nothing and shows nothing. -/
theorem Advances.still {task after : Task V} (hinherited : after.inherited = task.inherited)
    (hcode : after.code = task.code) (hlog : after.log = task.log) : task.Advances after [] :=
  ⟨hinherited, hcode, ⟨[], by rw [hlog, List.append_nil]⟩,
    fun _ hstarted => (List.not_mem_nil hstarted).elim⟩

variable {id : Nat} {task after : Task V} {started : List (Task V)}

theorem Explained.of (h : task.Explained id) (hadvances : task.Advances after started)
    (howned : ∀ token, Frame.reset token ∈ after.control → token.owner = id)
    (hfuture : after.future = task.future)
    (hsettled : settled after.cell after.control = settled task.cell task.control) :
    after.Explained id where
  owned := howned
  shows := by rw [hfuture, h.shows, hadvances.inherited, hadvances.code]
  restored := by rw [hsettled, h.restored, hadvances.inherited]

/-- A step of a task. -/
theorem Explained.step (h : task.Explained id) (hstep : task.step id = some (after, started)) :
    after.Explained id ∧ task.Advances after started := by
  cases hcontrol : task.control with
  | nil => simp [Task.step, hcontrol] at hstep
  | cons frame rest =>
      have hrest : ∀ token, Frame.reset token ∈ rest → token.owner = id := fun token htoken =>
        h.owned token (hcontrol ▸ List.mem_cons_of_mem frame htoken)
      cases frame with
      | run code =>
          cases hraising : task.raising with
          | false =>
              have hadvances := task.runCode_advances id rest code
              have hfuture := task.runCode_future id rest code hcontrol hraising
              have hsettled := task.runCode_settled id rest code
              have howned := task.runCode_owned id rest code hrest
              have hafter : task.runCode id rest code = (after, started) := by
                simpa [Task.step, hcontrol, hraising] using hstep
              rw [hafter] at hadvances hfuture hsettled howned
              exact ⟨h.of hadvances howned hfuture (by rw [hsettled, hcontrol]; rfl), hadvances⟩
          | true =>
              obtain ⟨rfl, rfl⟩ : task.goOn rest = after ∧ [] = started := by
                simpa [Task.step, hcontrol, hraising] using hstep
              have hadvances : task.Advances (task.goOn rest) [] := .still rfl rfl rfl
              refine ⟨h.of hadvances hrest ?_ (by rw [hcontrol]; rfl), hadvances⟩
              simp [future, goOn, hcontrol, hraising, outlook, Meaning.resume]
      | reset token =>
          have htoken : token.owner = id := h.owned token (hcontrol ▸ List.mem_cons_self)
          obtain ⟨rfl, rfl⟩ : { task with cell := token.old }.goOn rest = after ∧ [] = started := by
            simpa [Task.step, hcontrol, putBack, htoken] using hstep
          have hadvances : task.Advances ({ task with cell := token.old }.goOn rest) [] :=
            .still rfl rfl rfl
          refine ⟨h.of hadvances hrest ?_ (by rw [hcontrol]; rfl), hadvances⟩
          simp [future, goOn, hcontrol, outlook]
      | handle handler =>
          cases hraising : task.raising with
          | false =>
              obtain ⟨rfl, rfl⟩ : task.goOn rest = after ∧ [] = started := by
                simpa [Task.step, hcontrol, hraising] using hstep
              have hadvances : task.Advances (task.goOn rest) [] := .still rfl rfl rfl
              refine ⟨h.of hadvances hrest ?_ (by rw [hcontrol]; rfl), hadvances⟩
              simp [future, goOn, hcontrol, hraising, outlook, Meaning.resume]
          | true =>
              obtain ⟨rfl, rfl⟩ :
                { task with raising := false }.goOn (.run handler :: rest) = after ∧
                  [] = started := by
                simpa [Task.step, hcontrol, hraising] using hstep
              have hadvances : task.Advances
                  ({ task with raising := false }.goOn (.run handler :: rest)) [] :=
                .still rfl rfl rfl
              refine ⟨h.of hadvances ?_ ?_ (by rw [hcontrol]; rfl), hadvances⟩
              · exact fun token htoken => hrest token (by simpa [goOn] using htoken)
              · simp [future, goOn, hcontrol, hraising, outlook, Meaning.resume]

/-- What a finished task has shown and left. -/
theorem Explained.finished (h : task.Explained id) (hfinished : task.finished = true) :
    meaning task.inherited task.code = ⟨task.log, task.raising⟩ ∧ task.cell = task.inherited := by
  have hcontrol : task.control = [] := List.isEmpty_iff.mp hfinished
  constructor
  · rw [← h.shows, future, hcontrol]
    simp [outlook, Meaning.resume]
  · rw [← h.restored, hcontrol]
    rfl

/-- What a task has shown so far. -/
theorem Explained.shown (h : task.Explained id) :
    ∃ later, (meaning task.inherited task.code).seen = task.log ++ later := by
  rw [← h.shows]
  exact ⟨_, rfl⟩

end Task

/-! ## All the tasks -/

/-- The tasks go the way of the lexical reading.  A task that was not there from the start was
started by a task before it, with the value that one had at that place. -/
structure Lexical (start : List (V × Code V)) (s : List (Task V)) : Prop where
  tasks : ∀ (id : Nat) (task : Task V), s[id]? = some task → task.Explained id
  first : ∀ (id : Nat) item, start[id]? = some item →
    ∃ task : Task V, s[id]? = some task ∧ (task.inherited, task.code) = item
  later : ∀ (id : Nat) (task : Task V), s[id]? = some task → start.length ≤ id →
    ∃ (parent : Nat) (creator : Task V), parent < id ∧ s[parent]? = some creator ∧
      Seen.spawned task.inherited task.code ∈ creator.log

variable {start : List (V × Code V)} {s t : List (Task V)} {id : Nat}

theorem Lexical.init : Lexical start (start.map fun item => Task.create item.1 item.2) where
  tasks id task htask := by
    rw [List.getElem?_map, Option.map_eq_some_iff] at htask
    obtain ⟨item, -, rfl⟩ := htask
    exact Task.explained_create _ _ _
  first id item hitem := ⟨_, by rw [List.getElem?_map, hitem]; rfl, rfl⟩
  later id task htask hid := by
    rw [List.getElem?_eq_none (by simpa using hid)] at htask
    cases htask

/-- Where the tasks are after a step. -/
theorem getElem?_stepped {task after : Task V} {started : List (Task V)} (hs : s[id]? = some task)
    {other : Nat} {found : Task V} (hfound : (s.set id after ++ started)[other]? = some found) :
    (other = id ∧ found = after) ∨ (other ≠ id ∧ s[other]? = some found) ∨
      (s.length ≤ other ∧ found ∈ started) := by
  have hid : id < s.length := (List.getElem?_eq_some_iff.mp hs).1
  rcases Nat.lt_or_ge other s.length with hother | hother
  · rw [List.getElem?_append_left (by simpa using hother)] at hfound
    rcases eq_or_ne other id with rfl | hne
    · rw [List.getElem?_set_self hid] at hfound
      exact .inl ⟨rfl, (Option.some.inj hfound).symm⟩
    · rw [List.getElem?_set_ne hne.symm] at hfound
      exact .inr (.inl ⟨hne, hfound⟩)
  · rw [List.getElem?_append_right (by simpa using hother)] at hfound
    exact .inr (.inr ⟨hother, List.mem_of_getElem? hfound⟩)

/-- A task that was there is there after a step, and has not forgotten anything. -/
theorem getElem?_advanced {task after : Task V} {started : List (Task V)} (hs : s[id]? = some task)
    (hadvances : task.Advances after started) {other : Nat} {found : Task V}
    (hfound : s[other]? = some found) :
    ∃ now, (s.set id after ++ started)[other]? = some now ∧ now.inherited = found.inherited ∧
      now.code = found.code ∧ ∃ more, now.log = found.log ++ more := by
  have hother : other < s.length := (List.getElem?_eq_some_iff.mp hfound).1
  rw [List.getElem?_append_left (by simpa using hother)]
  rcases eq_or_ne other id with rfl | hne
  · obtain rfl : task = found := Option.some.inj (hs.symm.trans hfound)
    exact ⟨after, List.getElem?_set_self hother, hadvances.inherited, hadvances.code,
      hadvances.log⟩
  · exact ⟨found, by rw [List.getElem?_set_ne hne.symm, hfound], rfl, rfl, [],
      (List.append_nil _).symm⟩

theorem Lexical.step (h : Lexical start s) (hstep : (machine start).step s id t) :
    Lexical start t := by
  obtain ⟨task, after, started, hs, hafter, rfl⟩ := stepAt_eq_some hstep
  obtain ⟨hexplained, hadvances⟩ := (h.tasks id task hs).step hafter
  refine ⟨fun other found hfound => ?_, fun other item hitem => ?_,
    fun other found hfound hlater => ?_⟩
  · rcases getElem?_stepped hs hfound with ⟨rfl, rfl⟩ | ⟨-, hfound⟩ | ⟨-, hstarted⟩
    · exact hexplained
    · exact h.tasks other found hfound
    · obtain ⟨value, code, rfl, -⟩ := hadvances.started found hstarted
      exact Task.explained_create _ _ _
  · obtain ⟨found, hfound, hitem⟩ := h.first other item hitem
    obtain ⟨now, hnow, hinherited, hcode, -⟩ := getElem?_advanced hs hadvances hfound
    exact ⟨now, hnow, by rw [hinherited, hcode, hitem]⟩
  · have holder : ∀ before : Task V, s[other]? = some before →
        found.inherited = before.inherited → found.code = before.code →
        ∃ (parent : Nat) (creator : Task V), parent < other ∧
          (s.set id after ++ started)[parent]? = some creator ∧
          Seen.spawned found.inherited found.code ∈ creator.log := by
      intro before hbefore hinherited hcode
      obtain ⟨parent, creator, hparent, hcreator, hspawned⟩ := h.later other before hbefore hlater
      obtain ⟨now, hnow, -, -, more, hlog⟩ := getElem?_advanced hs hadvances hcreator
      refine ⟨parent, now, hparent, hnow, ?_⟩
      rw [hinherited, hcode, hlog]
      exact List.mem_append_left _ hspawned
    rcases getElem?_stepped hs hfound with ⟨rfl, rfl⟩ | ⟨-, hbefore⟩ | ⟨hother, hstarted⟩
    · exact holder task hs hadvances.inherited hadvances.code
    · exact holder found hbefore rfl rfl
    · obtain ⟨value, code, rfl, hspawned⟩ := hadvances.started found hstarted
      have hid : id < s.length := (List.getElem?_eq_some_iff.mp hs).1
      refine ⟨id, after, Nat.lt_of_lt_of_le hid hother, ?_, hspawned⟩
      rw [List.getElem?_append_left (by simpa using hid), List.getElem?_set_self hid]

/-- **The tasks see what the lexical reading says**, whatever the order of their steps. -/
theorem lexical {h : List Nat} (hr : (machine start).Reaches h s) : Lexical start s := by
  refine hr.invariant (I := fun _ s => Lexical start s) ?_ ?_
  · rintro s rfl
    exact .init
  · exact fun _ _ _ _ _ hs hstep => hs.step hstep

end ProdkitStorage.Foundation.DynamicScope

import Pylyskom.Coroutine

/-!
# Tasks that share an object

Any number of tasks call methods of one object. A task runs until it waits for a reply.
The requests are served in the order in which they were sent, and the replies are delivered
in that order; what happens when is otherwise left open.
-/

namespace Pylyskom

/-- A task that waits for the reply to a request, with the object's state at the call. -/
structure WaitingTask (σ ρ : Type) (ν : ρ → Type) (ε α : Type) where
  start : σ
  request : ρ
  resume : Except ε (ν request) → σ → Suspended σ ρ ν ε α

/-- A task that waits for its only reply, and finishes with the value of it. -/
abbrev WaitingTask.once {σ ρ ε α : Type} {ν : ρ → Type} (start : σ) (req : ρ)
    (finish : ν req → σ → α × σ) : WaitingTask σ ρ ν ε α where
  start
  request := req
  resume reply s :=
    match reply with
    | .ok value => .done (.ok (finish value s).1) (finish value s).2
    | .error e => .done (.error e) s

/-- A task whose request has been served, with the reply. -/
structure RepliedTask (σ ρ : Type) (ν : ρ → Type) (ε α : Type) extends WaitingTask σ ρ ν ε α where
  reply : Except ε (ν request)

/-- The object, what is outside it, and the tasks that wait. -/
structure TaskPool (σ ω ρ : Type) (ν : ρ → Type) (ε α : Type) where
  state : σ
  world : ω
  /-- The requests of these tasks have not been sent yet. -/
  unsent : List (WaitingTask σ ρ ν ε α)
  /-- The requests of these tasks have been sent, and not been served. -/
  sent : List (WaitingTask σ ρ ν ε α)
  /-- The replies to these tasks are on their way. -/
  replied : List (RepliedTask σ ρ ν ε α)
  /-- The replies to these tasks have been delivered, and they may resume. -/
  ready : List (RepliedTask σ ρ ν ε α)

inductive TaskAction (κ : Type) : Type
  | start (call : κ)
  | send
  | serve (refused : Bool)
  | deliver
  | resume (i : ℕ)

/-- The tasks resume in the order of their replies. -/
def TaskAction.InOrder {κ : Type} : TaskAction κ → Prop
  | resume i => i = 0
  | _ => True

namespace TaskPool

variable {σ ω ρ ε α κ : Type} {ν : ρ → Type}

/-- No task has been started. -/
def init (state : σ) (world : ω) : TaskPool σ ω ρ ν ε α := ⟨state, world, [], [], [], []⟩

/-- No task waits. -/
def Idle (pool : TaskPool σ ω ρ ν ε α) : Prop :=
  pool.unsent = [] ∧ pool.sent = [] ∧ pool.replied = [] ∧ pool.ready = []

/-- The tasks whose requests have been served, in that order. -/
def served (pool : TaskPool σ ω ρ ν ε α) : List (RepliedTask σ ρ ν ε α) :=
  pool.ready ++ pool.replied

/-- A task goes on until it ends or waits for a reply. -/
def proceed (pool : TaskPool σ ω ρ ν ε α) (start : σ) :
    Suspended σ ρ ν ε α → TaskPool σ ω ρ ν ε α
  | .done _ state => { pool with state }
  | .await state request resume =>
    { pool with state, unsent := pool.unsent ++ [⟨start, request, resume⟩] }

theorem proceed_once (pool : TaskPool σ ω ρ ν ε α) (start s : σ) (req : ρ)
    (finish : ν req → σ → α × σ) :
    pool.proceed start (.once s req finish) =
      { pool with state := s, unsent := pool.unsent ++ [.once start req finish] } := rfl

/-- What happens next: `body` is what a call does, and `serves` what becomes of what is
outside the object when a request is served. -/
inductive Step (body : κ → Coroutine σ ρ ν ε α)
    (serves : Bool → (req : ρ) → ω → Except ε (ν req) → ω → Prop) :
    TaskPool σ ω ρ ν ε α → TaskAction κ → TaskPool σ ω ρ ν ε α → Prop
  | start {pool : TaskPool σ ω ρ ν ε α} (call : κ) :
      Step body serves pool (.start call) (pool.proceed pool.state (body call pool.state))
  | send {pool : TaskPool σ ω ρ ν ε α} {before after : List (WaitingTask σ ρ ν ε α)}
      {task : WaitingTask σ ρ ν ε α} (hunsent : pool.unsent = before ++ task :: after) :
      Step body serves pool .send
        { pool with unsent := before ++ after, sent := pool.sent ++ [task] }
  | serve {pool : TaskPool σ ω ρ ν ε α} {task : WaitingTask σ ρ ν ε α}
      {sent : List (WaitingTask σ ρ ν ε α)} {refused : Bool} {reply : Except ε (ν task.request)}
      {world : ω} (hsent : pool.sent = task :: sent)
      (hserves : serves refused task.request pool.world reply world) :
      Step body serves pool (.serve refused)
        { pool with world, sent, replied := pool.replied ++ [{ task with reply }] }
  | deliver {pool : TaskPool σ ω ρ ν ε α} {task : RepliedTask σ ρ ν ε α}
      {replied : List (RepliedTask σ ρ ν ε α)} (hreplied : pool.replied = task :: replied) :
      Step body serves pool .deliver { pool with replied, ready := pool.ready ++ [task] }
  | resume {pool : TaskPool σ ω ρ ν ε α} {before after : List (RepliedTask σ ρ ν ε α)}
      {task : RepliedTask σ ρ ν ε α} (hready : pool.ready = before ++ task :: after) :
      Step body serves pool (.resume before.length)
        ({ pool with ready := before ++ after }.proceed task.start
          (task.resume task.reply pool.state))

end TaskPool

end Pylyskom

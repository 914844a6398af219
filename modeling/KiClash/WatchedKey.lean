import KiClash.AsyncTasks

/-!
# Tasks that share one watched key

A library for server processes that keep their truth under one key of a
store with optimistic transactions: WATCH remembers a version of the key, GET
reads it, EXEC writes only if the key has not been written since. A language
adds its own actions on process memory to the store commands; a runtime says
what these actions do, which interruptions a task can suffer and which tasks
there are. The world records every transaction, and whatever else the runtime
notes, in the order in which it happens.
-/

namespace KiClash.WatchedKey

open AsyncTasks

/-- Commands on the key. A transaction names the call it belongs to and how
many attempts that call has left. -/
inductive StoreOp (Value Call : Type)
  | watch
  | unwatch
  | get
  | exec (token retriesLeft : ℕ) (call : Call) (value : Value)
  | load
  | delete
  | set (onlyIfAbsent : Bool) (call : Call) (value : Value)

/-- What a command returns; EXEC and SET return whether they have written. -/
abbrev StoreOp.Res {Value Call : Type} : StoreOp Value Call → Type
  | .watch => ℕ
  | .get => Option Value
  | .exec .. => Bool
  | .load => Option Value
  | .set .. => Bool
  | .unwatch => Unit
  | .delete => Unit

/-- The values under the key, the calls that write them, and the actions on
process memory with their results and exceptions. -/
structure Language where
  /-- Values under the key. -/
  Value : Type
  /-- Calls that transactions belong to. -/
  Call : Type
  /-- Actions that do not touch the key. -/
  Action : Type
  /-- What an action returns. -/
  Result : Action → Type
  /-- Exceptions. -/
  Exc : Type

/-- An operation: a command on the key or an action. -/
inductive Op (L : Language)
  | store (o : StoreOp L.Value L.Call)
  | act (o : L.Action)

/-- Results of the operations. -/
abbrev Op.Res {L : Language} : Op L → Type
  | .store o => o.Res
  | .act o => L.Result o

/-- The signature of the programs of a language. -/
abbrev Language.sig (L : Language) : Signature := ⟨Op L,Op.Res,L.Exc⟩

/-- What is recorded of a run. -/
inductive Event (Value Call Note : Type)
  | commit (task : ℕ) (call : Call) (before after : Value)
  | conflict (task : ℕ) (call : Call) (retriesLeft : ℕ)
  | deleted (task : ℕ)
  | loaded (task : ℕ) (value : Option Value)
  | note (note : Note)
  deriving DecidableEq, Repr

/-- The processes of a language. -/
structure Runtime (L : Language) where
  /-- What else is recorded. -/
  Note : Type
  /-- Memory of all processes. -/
  Memory : Type
  /-- Names of the tasks that can be started. -/
  Entry : Type
  /-- An action of a task that nothing interrupts, given a choice of the
  environment and the number that a newly started task gets. -/
  act : Bool → ℕ → ℕ → (o : L.Action) → Memory →
    Memory × List Note × Except L.Exc (L.Result o) × Option Entry
  /-- The exception that an operation of a task can raise as things stand. -/
  interrupt : Memory → ℕ → Op L → Option L.Exc
  /-- The operation can only raise. -/
  unavoidable : Memory → ℕ → Op L → Bool
  /-- An exception has reached a task. -/
  deliver : ℕ → L.Exc → Memory → Memory
  /-- How a raised exception is noted. -/
  raised : ℕ → L.Exc → Note
  /-- How the start of a task is noted. -/
  started : ℕ → Entry → Note
  /-- The program of a task. -/
  body : Entry → Prog L.sig Unit
  /-- The environment can start the task. -/
  arrives : Entry → Bool

variable {L : Language} (R : Runtime L)

/-- The key with the number of writes to it, the record and the memory. -/
structure World where
  /-- The value under the key. -/
  value : Option L.Value
  /-- Number of writes, which WATCH compares. -/
  version : ℕ
  /-- What has happened, oldest first. -/
  trace : List (Event L.Value L.Call R.Note)
  /-- Memory of all processes. -/
  memory : R.Memory

variable {R}

namespace World

/-- Append to the record. -/
def log (world : World R) (event : Event L.Value L.Call R.Note) : World R :=
  {world with trace := world.trace++[event]}

/-- A task writes, in a transaction or without one. -/
def commit (world : World R) (task : ℕ) (call : L.Call) (value : L.Value) : World R :=
  { value := some value
    version := world.version+1
    trace := world.trace++[.commit task call (world.value.getD value) value]
    memory := world.memory }

/-- The key is removed; removing a missing key is not a write. -/
def delete (world : World R) (task : ℕ) : World R :=
  match world.value with
  | none => world
  | some _ =>
    { value := none
      version := world.version+1
      trace := world.trace++[.deleted task]
      memory := world.memory }

/-- An exception reaches a task. -/
def deliver (world : World R) (task : ℕ) (exc : L.Exc) : World R :=
  { value := world.value
    version := world.version
    trace := world.trace++[.note (R.raised task exc)]
    memory := R.deliver task exc world.memory }

/-- An action changes the memory, adds notes and may start a task. -/
def acted (world : World R) (fresh : ℕ) (memory : R.Memory) (notes : List R.Note)
    (started : Option R.Entry) : World R :=
  { value := world.value
    version := world.version
    trace := world.trace++
      (notes++(started.map (R.started fresh)).toList).map Event.note
    memory := memory }

end World

/-- What a command does when nothing interrupts it. -/
def StoreOp.effect (task : ℕ) : (o : StoreOp L.Value L.Call) → World R → World R × o.Res
  | .watch,world => (world,world.version)
  | .unwatch,world => (world,())
  | .get,world => (world,world.value)
  | .exec token retriesLeft call value,world =>
    if world.version=token then (world.commit task call value,true)
    else (world.log (.conflict task call retriesLeft),false)
  | .load,world => (world.log (.loaded task world.value),world.value)
  | .delete,world => (world.delete task,())
  | .set onlyIfAbsent call value,world =>
    if onlyIfAbsent && world.value.isSome then (world,false)
    else (world.commit task call value,true)

/-- Commands do not touch the memory. -/
theorem StoreOp.effect_memory (task : ℕ) (o : StoreOp L.Value L.Call) (world : World R) :
    (o.effect task world).1.memory=world.memory := by
  cases o with
  | watch | unwatch | get | load => rfl
  | exec token retriesLeft call value =>
    simp only [StoreOp.effect]
    split <;> rfl
  | set onlyIfAbsent call value =>
    simp only [StoreOp.effect]
    split <;> rfl
  | delete =>
    simp only [StoreOp.effect,World.delete]
    split <;> rfl

/-- What an operation does when nothing interrupts it. -/
def Op.effect (pick : Bool) (task fresh : ℕ) : (o : Op L) → World R →
    World R × Except L.Exc o.Res × Option R.Entry
  | .store o,world => ((o.effect task world).1,.ok (o.effect task world).2,none)
  | .act o,world =>
    let (memory,notes,result,started) := R.act pick task fresh o world.memory
    (world.acted fresh memory notes started,result,started)

/-- How the environment lets an operation turn out: it completes, it raises
before it took effect, or it raises after it took effect. -/
inductive Choice
  | proceed (pick : Bool)
  | raiseBefore
  | raiseAfter (pick : Bool)
  deriving DecidableEq, Repr

/-- One operation of a task under a choice of the environment. A task that an
interrupted action would have started is lost with its result. -/
def perform (choice : Choice) (task fresh : ℕ) (o : Op L) (world : World R) :
    Option (World R × Except L.Exc o.Res × Option R.Entry) :=
  match choice with
  | .proceed pick =>
    if R.unavoidable world.memory task o then none
    else some (o.effect pick task fresh world)
  | .raiseBefore =>
    (R.interrupt world.memory task o).map fun exc => (world.deliver task exc,.error exc,none)
  | .raiseAfter pick =>
    match R.interrupt world.memory task o,(o.effect pick task fresh world).2.2 with
    | some exc,none =>
      some ((o.effect pick task fresh world).1.deliver task exc,.error exc,none)
    | _,_ => none

/-- The environment starts a task. -/
def arrive (fresh : ℕ) (entry : R.Entry) (world : World R) : Option (World R) :=
  if R.arrives entry then some (world.log (.note (R.started fresh entry))) else none

/-- The processes of a runtime as a system of tasks. -/
abbrev Runtime.system (R : Runtime L) : System L.sig :=
  ⟨World R,Choice,R.Entry,R.body,perform,arrive⟩

/-- Everything an operation can do: complete, or raise before or after its effect. -/
theorem perform_cases {choice : Choice} {task fresh : ℕ} {o : Op L} {world world' : World R}
    {r : Except L.Exc o.Res} {started : Option R.Entry}
    (h : perform choice task fresh o world=some (world',r,started)) :
    (∃ pick,R.unavoidable world.memory task o=false ∧
      o.effect pick task fresh world=(world',r,started)) ∨
    (∃ exc,R.interrupt world.memory task o=some exc ∧ r=.error exc ∧ started=none ∧
      (world'=world.deliver task exc ∨
        ∃ pick,(o.effect pick task fresh world).2.2=none ∧
          world'=(o.effect pick task fresh world).1.deliver task exc)) := by
  cases choice with
  | proceed pick =>
    simp only [perform] at h
    split at h
    · cases h
    · next hu => exact .inl ⟨pick,by simpa using hu,Option.some.inj h⟩
  | raiseBefore =>
    obtain ⟨exc,he,hp⟩ := Option.map_eq_some_iff.mp h
    cases hp
    exact .inr ⟨exc,he,rfl,rfl,.inl rfl⟩
  | raiseAfter pick =>
    simp only [perform] at h
    split at h
    · next exc he hs =>
      cases h
      exact .inr ⟨exc,he,rfl,rfl,.inr ⟨pick,hs,rfl⟩⟩
    · cases h

end KiClash.WatchedKey

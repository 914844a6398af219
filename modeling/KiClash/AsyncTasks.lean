import Mathlib.Data.List.Basic

/-!
# Concurrent tasks over shared operations

A library for programs that run as many cooperating tasks over one shared
world. A task is a tree of operations: each node names one operation and
says how the task goes on with its result, or with the exception that the
operation raises. Nothing happens between two operations of one task except
pure code, so a node stands for one await point, or for one shared access of
a preemptive goroutine. A system interprets the operations; a scheduler picks
the task that moves and the way its operation turns out.
-/

namespace KiClash.AsyncTasks

/-- The operations of a language, their results and its exceptions. -/
structure Signature where
  /-- Operations on the shared world. -/
  Op : Type
  /-- What an operation returns. -/
  Res : Op → Type
  /-- What an operation or the program raises. -/
  Exc : Type

/-- A task: either it has ended with a value or an exception, or it is about to
perform an operation. -/
inductive Prog (S : Signature) (α : Type) : Type
  | done (result : Except S.Exc α)
  | op (o : S.Op) (next : Except S.Exc (S.Res o) → Prog S α)

namespace Prog

variable {S : Signature} {α β : Type}

/-- Sequencing; an exception of the first part skips the second. -/
def bind : Prog S α → (α → Prog S β) → Prog S β
  | .done (.ok a),f => f a
  | .done (.error e),_ => .done (.error e)
  | .op o next,f => .op o fun r => (next r).bind f

instance : Monad (Prog S) where
  pure a := .done (.ok a)
  bind := bind

/-- Perform one operation and return its result. -/
def perform (o : S.Op) : Prog S (S.Res o) := .op o .done

/-- Raise an exception. -/
def raise (e : S.Exc) : Prog S α := .done (.error e)

/-- Run to the end and hand the outcome to the rest, exceptions included. -/
def andThen : Prog S α → (Except S.Exc α → Prog S β) → Prog S β
  | .done r,f => f r
  | .op o next,f => .op o fun r => (next r).andThen f

/-- try: ... except: ..., where the handler chooses what it catches. -/
def handle (p : Prog S α) (handler : S.Exc → Prog S α) : Prog S α :=
  p.andThen fun
    | .ok a => .done (.ok a)
    | .error e => handler e

/-- try: ... finally: ...; an exception of the cleanup replaces the outcome. -/
def cleanupWith (p : Prog S α) (cleanup : Prog S Unit) : Prog S α :=
  p.andThen fun r => cleanup.andThen fun
    | .ok _ => .done r
    | .error e => .done (.error e)

/-- Sequencing is the special case that passes exceptions on. -/
theorem bind_eq_andThen (p : Prog S α) (f : α → Prog S β) :
    p >>= f=p.andThen fun
      | .ok a => f a
      | .error e => .done (.error e) := by
  change p.bind f=_
  induction p with
  | done r => cases r <;> rfl
  | op o next ih => simp only [bind,andThen,ih]

/-- Sequencing is associative. -/
theorem bind_assoc {γ : Type} (p : Prog S α) (f : α → Prog S β) (g : β → Prog S γ) :
    p >>= f >>= g=p >>= fun a => f a >>= g := by
  change (p.bind f).bind g=p.bind fun a => (f a).bind g
  induction p with
  | done r => cases r <;> rfl
  | op o next ih => simp only [bind,ih]

/-- Every operation that the program can come to satisfies a predicate. -/
def All (allowed : S.Op → Prop) : Prog S α → Prop
  | .done _ => True
  | .op o next => allowed o ∧ ∀ r,(next r).All allowed

/-- A program followed by another performs the operations of both. -/
theorem All.andThen {allowed : S.Op → Prop} {p : Prog S α} {f : Except S.Exc α → Prog S β}
    (hp : p.All allowed) (hf : ∀ r,(f r).All allowed) : (p.andThen f).All allowed := by
  induction p with
  | done r => exact hf r
  | op o next ih => exact ⟨hp.1,fun r => ih r (hp.2 r)⟩

/-- Sequencing performs the operations of both parts. -/
theorem All.bind {allowed : S.Op → Prop} {p : Prog S α} {f : α → Prog S β}
    (hp : p.All allowed) (hf : ∀ a,(f a).All allowed) : (p >>= f).All allowed := by
  rw [bind_eq_andThen]
  apply hp.andThen
  intro r
  cases r with
  | ok a => exact hf a
  | error e => trivial

/-- A single operation. -/
theorem All.perform {allowed : S.Op → Prop} {o : S.Op} (h : allowed o) :
    (Prog.perform o).All allowed := ⟨h,fun _ => trivial⟩

/-- A handled program performs the operations of its body and of its handler. -/
theorem All.handle {allowed : S.Op → Prop} {p : Prog S α} {handler : S.Exc → Prog S α}
    (hp : p.All allowed) (hh : ∀ e,(handler e).All allowed) :
    (p.handle handler).All allowed := by
  apply hp.andThen
  intro r
  cases r with
  | ok a => trivial
  | error e => exact hh e

/-- What the program returns satisfies a predicate, whatever its operations return. -/
def Yields (Q : α → Prop) : Prog S α → Prop
  | .done (.ok a) => Q a
  | .done (.error _) => True
  | .op _ next => ∀ r,(next r).Yields Q

/-- Sequencing returns what its second part returns. -/
theorem Yields.bind {Q : α → Prop} {Q' : β → Prop} {p : Prog S α} {f : α → Prog S β}
    (hp : p.Yields Q) (hf : ∀ a,Q a → (f a).Yields Q') : (p >>= f).Yields Q' := by
  change (p.bind f).Yields Q'
  induction p with
  | done r =>
    cases r with
    | ok a => exact hf a hp
    | error e => trivial
  | op o next ih => exact fun r => ih r (hp r)

/-- It returns something or other. -/
theorem yields_true (p : Prog S α) : p.Yields fun _ => True := by
  induction p with
  | done r => cases r <;> trivial
  | op o next ih => exact ih

/-- Operations that are allowed more widely stay allowed. -/
theorem All.mono {allowed allowed' : S.Op → Prop} {p : Prog S α}
    (h : ∀ o,allowed o → allowed' o) (hp : p.All allowed) : p.All allowed' := by
  induction p with
  | done r => trivial
  | op o next ih => exact ⟨h o hp.1,fun r => ih r (hp.2 r)⟩

end Prog

/-- The meaning of a signature: a shared world, the ways an operation can turn
out, and the named tasks that operations and the environment can start. -/
structure System (S : Signature) where
  /-- Shared state of all tasks. -/
  World : Type
  /-- How the environment lets an operation turn out. -/
  Choice : Type
  /-- Names of the tasks that can be started. -/
  Entry : Type
  /-- The program of a named task. -/
  body : Entry → Prog S Unit
  /-- One operation of a task, given the number that a newly started task gets;
  none when the choice is not possible. -/
  perform : Choice → ℕ → ℕ → (o : S.Op) → World →
    Option (World×Except S.Exc (S.Res o)×Option Entry)
  /-- The environment starts a task of the given number, if it can. -/
  arrive : ℕ → Entry → World → Option World

namespace System

variable {S : Signature} (sys : System S)

/-- The world and all tasks ever started, in the order of their numbers. -/
structure Config where
  /-- Shared state. -/
  world : sys.World
  /-- What each task has left to do. -/
  tasks : List (Prog S Unit)

/-- A scheduling decision. -/
inductive Move
  | run (task : ℕ) (choice : sys.Choice)
  | open (entry : sys.Entry)

variable {sys}

/-- One move of the whole system. -/
def Config.step (config : sys.Config) : sys.Move → Option sys.Config
  | .open entry =>
    (sys.arrive config.tasks.length entry config.world).map fun world =>
      ⟨world,config.tasks++[sys.body entry]⟩
  | .run task choice =>
    match config.tasks[task]? with
    | some (.op o next) =>
      (sys.perform choice task config.tasks.length o config.world).map fun (world,r,started) =>
        ⟨world,config.tasks.set task (next r)++(started.map sys.body).toList⟩
    | _ => none

/-- A run: the moves are made one after another. -/
def Config.run (config : sys.Config) : List sys.Move → Option sys.Config
  | [] => some config
  | move::moves => (config.step move).bind fun config => config.run moves

/-- A run that is continued by one move. -/
theorem Config.run_concat {config config₁ config₂ : sys.Config} {moves : List sys.Move}
    {move : sys.Move} (h : config.run moves=some config₁) (hs : config₁.step move=some config₂) :
    config.run (moves++[move])=some config₂ := by
  induction moves generalizing config with
  | nil =>
    cases h
    simp only [List.nil_append,run,hs,Option.bind_some]
  | cons first moves ih =>
    obtain ⟨config',hfirst,hrest⟩ := Option.bind_eq_some_iff.mp h
    simp only [List.cons_append,run,hfirst,Option.bind_some]
    exact ih hrest

/-- A configuration that some run leads to. -/
def Config.Reaches (config config' : sys.Config) : Prop := ∃ moves,config.run moves=some config'

/-- What every move keeps holds wherever a run leads to. -/
theorem Config.Reaches.keeps {P : sys.Config → Prop}
    (hstep : ∀ {config config' : sys.Config} {move : sys.Move},P config →
      config.step move=some config' → P config')
    {config config' : sys.Config} (hr : config.Reaches config') (h : P config) : P config' := by
  obtain ⟨moves,hrun⟩ := hr
  induction moves generalizing config with
  | nil =>
    cases hrun
    exact h
  | cons move moves ih =>
    obtain ⟨config₁,hs,hrest⟩ := Option.bind_eq_some_iff.mp hrun
    exact ih (hstep h hs) hrest

/-- What a run of given moves has computed holds of a configuration it reaches. -/
theorem Config.reaches_of_map {config : sys.Config} {moves : List sys.Move} {β : Type}
    {view : sys.Config → β} {b : β} (h : (config.run moves).map view=some b) :
    ∃ config',config.Reaches config' ∧ view config'=b := by
  obtain ⟨config',hrun,hview⟩ := Option.map_eq_some_iff.mp h
  exact ⟨config',⟨moves,hrun⟩,hview⟩

end System

end KiClash.AsyncTasks

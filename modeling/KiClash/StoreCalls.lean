import KiClash.GameStore
import KiClash.OptimisticTransactions
import Mathlib.Data.Rat.Defs

/-!
# Calls of the session store and of the room store

What a client of GameStore (app/core/game_store.py) or of RoomStore
(app/core/room_store.py) can do with one key: watch_and_update with a pure
mutator, save, create, delete and load. Both stores run the same loop; the room
store also sets updated_at on what the mutator has left. A client reports what
its call has returned or raised, so that a record of a run shows it. The stored
JSON text is represented by the value that it decodes to.
-/

namespace KiClash.StoreCalls

open EngineTypes AsyncTasks WatchedKey OptimisticTransactions

/-- RoomStatus. -/
inductive RoomStatus
  | waiting
  | bothPresent
  | inGame
  | finished
  deriving DecidableEq, Repr

/-- RoomPlayer. -/
structure RoomPlayer where
  /-- Identifier of the player. -/
  id : UUID
  /-- Display name. -/
  name : String
  /-- The chosen character. -/
  characterId : Option String
  /-- The player has marked ready. -/
  ready : Bool
  deriving DecidableEq, Repr

/-- RoomState. -/
structure RoomState where
  /-- The shareable code. -/
  code : String
  /-- Who has opened the room. -/
  host : RoomPlayer
  /-- Who has joined it. -/
  guest : Option RoomPlayer
  /-- Where the room is in its life. -/
  status : RoomStatus
  /-- The game that the room has led to. -/
  gameId : Option UUID
  /-- When the room was opened. -/
  createdAt : ℚ
  /-- When it was last written. -/
  updatedAt : ℚ
  deriving DecidableEq, Repr

/-- The values of a store, what it reads from the clock in each attempt, and
what it does with that to a mutated value. -/
structure Store where
  /-- Values under the key. -/
  Value : Type
  /-- What an attempt reads from the clock. -/
  Time : Type
  /-- What is written instead of a mutated value. -/
  stamp : Time → Value → Value

/-- What a mutator raises. A WatchError of the mutator is caught like one of EXEC. -/
inductive Raised (E : Type)
  | watchError
  | other (exc : E)
  deriving DecidableEq, Repr

/-- A pure mutator: what it makes of the loaded value in place, and the fresh
value that it may return instead. -/
abbrev Mutator (V E : Type) := V → Except (Raised E) (V×Option V)

/-- How a call can fail. -/
inductive Failure (E : Type)
  | notFound
  | tooManyConflicts
  | raised (exc : E)
  deriving DecidableEq, Repr

/-- Which call a write belongs to. -/
inductive Call (S : Store) (E : Type)
  | update (mutator : Mutator S.Value E) (now : S.Time)
  | save (value : S.Value)
  | create (value : S.Value)

/-- What a call returns to its client. -/
inductive Returned (S : Store) (E : Type)
  | updated (value : S.Value)
  | saved
  | created (written : Bool)
  | deleted
  | loaded (value : Option S.Value)
  | failed (failure : Failure E)

/-- The calls that clients make; the clock is read once in each attempt. -/
inductive Entry (S : Store) (E : Type)
  | watchAndUpdate (mutator : Mutator S.Value E) (clock : ℕ → S.Time) (maxRetries : ℕ)
  | save (value : S.Value)
  | create (value : S.Value)
  | delete
  | load

/-- What is recorded besides the writes. -/
inductive Note (S : Store) (E : Type)
  | started (task : ℕ) (entry : Entry S E)
  | returned (task : ℕ) (result : Returned S E)
  | raised (task : ℕ) (failure : Failure E)

section Calls

variable {S : Store} {E : Type}

/-- The language of the clients: besides the store commands they only report. -/
abbrev language (S : Store) (E : Type) : Language :=
  ⟨S.Value,Call S E,Returned S E,fun _ => Unit,Failure E⟩

/-- A coroutine of a client. -/
abbrev Coroutine (S : Store) (E α : Type) := Prog (language S E).sig α

/-- await a command on the key. -/
def redis (o : StoreOp S.Value (Call S E)) : Coroutine S E o.Res :=
  Prog.perform (S := (language S E).sig) (.store o)

/-- What an attempt writes: the fresh value if there is one, else the loaded
value as mutated in place. -/
def mutated (mutator : Mutator S.Value E) (now : S.Time) (value : S.Value) :
    Except (Raised E) S.Value :=
  (mutator value).map fun x => S.stamp now (x.2.getD x.1)

/-- watch_and_update, with the number of attempts that are left. -/
def watchAndUpdate (mutator : Mutator S.Value E) (clock : ℕ → S.Time) :
    ℕ → Coroutine S E S.Value
  | 0 => .raise .tooManyConflicts
  | attempts+1 => do
    let token ← redis .watch
    let raw ← redis .get
    match raw with
    | none =>
      redis .unwatch
      .raise .notFound
    | some value =>
      match mutated mutator (clock attempts) value with
      | .error .watchError => watchAndUpdate mutator clock attempts
      | .error (.other e) => .raise (.raised e)
      | .ok value =>
        let committed ← redis (.exec token attempts (.update mutator (clock attempts)) value)
        if committed then pure value
        else watchAndUpdate mutator clock attempts

/-- save: SET. -/
def save (value : S.Value) : Coroutine S E Unit := do
  let _ ← redis (.set false (.save value) value)

/-- An attempt of create on this key: SET NX. -/
def create (value : S.Value) : Coroutine S E Bool := redis (.set true (.create value) value)

/-- delete. -/
def delete : Coroutine S E Unit := redis .delete

/-- load. -/
def load : Coroutine S E (Option S.Value) := redis .load

/-- A client makes a call and reports how it has ended. -/
def reporting {α : Type} (call : Coroutine S E α) (result : α → Returned S E) :
    Coroutine S E Unit :=
  call.andThen fun r =>
    Prog.perform (S := (language S E).sig) (.act (match r with
      | .ok a => result a
      | .error e => .failed e))

/-- The program of a client. -/
def body : Entry S E → Coroutine S E Unit
  | .watchAndUpdate mutator clock maxRetries =>
    reporting (watchAndUpdate mutator clock maxRetries) .updated
  | .save value => reporting (save value) fun _ => .saved
  | .create value => reporting (create value) .created
  | .delete => reporting delete fun _ => .deleted
  | .load => reporting load .loaded

/-- Clients on one key. Any client may come at any time, and every await of a
client comes back with the answer of the store. -/
abbrev clients (S : Store) (E : Type) : Runtime (language S E) where
  Note := Note S E
  Memory := Unit
  Entry := Entry S E
  act _ task _ result memory := (memory,[.returned task result],.ok (),none)
  interrupt _ _ _ := none
  unavoidable _ _ _ := false
  deliver _ _ memory := memory
  raised := .raised
  started := .started
  body := body
  arrives _ := true

/-- The key before any of the calls. -/
def initial (start : Option S.Value) : (clients S E).system.Config := ⟨⟨start,0,[],()⟩,[]⟩

end Calls

end KiClash.StoreCalls

import KiClash.GoSession

/-!
# What an update reports

A call of Store.watchAndUpdate among other writers of the key, with failures of any
command but EXEC. The closure that commits does not hand out the session, so the call
loads it again. What it returns is what it has committed exactly if that load does not
fail, and still finds the session that EXEC has written.
-/

namespace KiClash.GoUpdates

open GoTypes AsyncTasks WatchedKey GoStore GoSession

section Execution

/-- Another goroutine, of any instance, writes the key or removes it. -/
inductive Other
  | writes (call : Call) (sess : PvPSession)
  | removes

/-- What happens at a command of the call: what others do before it, and whether it
fails. -/
structure Turn where
  /-- The others. -/
  others : List Other
  /-- It fails. -/
  fails : Bool

/-- What another goroutine does. The record has it under another number. -/
def Other.apply (task : GoroutineId) (world : World) : Other → World
  | .writes call sess => world.commit (task+1) call sess
  | .removes => world.delete (task+1)

/-- The command finds what the others have left. -/
def Turn.finds (turn : Turn) (task : GoroutineId) (world : World) : World :=
  turn.others.foldl (Other.apply task) world

/-- Nothing happens. -/
def Turn.idle : Turn := ⟨[],false⟩

/-- EXEC does not fail. -/
def canFail : Op language → Bool
  | .store (.exec _ _ _ _) => false
  | _ => true

/-- A command at such a turn. -/
def Turn.perform (turn : Turn) (task : GoroutineId) (o : Op language) (world : World) :
    World×Except Failure o.Res :=
  let world := turn.finds task world
  if turn.fails && canFail o then (world,.error .store)
  else ((o.effect true task 0 world).1,(o.effect true task 0 world).2.1)

/-- A call whose commands have these turns one after another; later ones are idle. -/
def execute {α : Type} (task : GoroutineId) :
    Goroutine α → List Turn → World → World×Except Failure α
  | .done r,_,world => (world,r)
  | .op o next,turns,world =>
    let (world,r) := (turns.headD .idle).perform task o world
    execute task (next r) turns.tail world

/-- A load, with what it finds. -/
structure Load where
  /-- Its turn. -/
  turn : Turn
  /-- What the others have left. -/
  world : World

/-- The operation reads the key without watching it. -/
def isLoad : Op language → Bool
  | .store .load => true
  | _ => false

/-- The loads of a call. -/
def loads {α : Type} (task : GoroutineId) : Goroutine α → List Turn → World → List Load
  | .done _,_,_ => []
  | .op o next,turns,world =>
    let turn := turns.headD .idle
    (if isLoad o then [⟨turn,turn.finds task world⟩] else [])++
      loads task (next (turn.perform task o world).2) turns.tail (turn.perform task o world).1

/-- The sessions that a goroutine has written. -/
def written (task : GoroutineId) (world : World) : List PvPSession :=
  world.trace.filterMap fun event => match event with
    | .commit task' _ _ after => if task'=task then some after else none
    | _ => none

/-- The call reports what it has committed: a session if its EXEC has succeeded, and then
the one that EXEC has written, and an error if it has committed nothing. -/
structure Reports {L : Type} (task : GoroutineId)
    (result : World×Except Failure (L×PvPSession)) : Prop where
  /-- It has returned a session. -/
  session : ∀ captured sess,result.2=.ok (captured,sess) → written task result.1=[sess]
  /-- It has returned an error. -/
  error : ∀ failure,result.2=.error failure → written task result.1=[]

/-- The load does not fail, and finds what EXEC has written. -/
def Kept (task : GoroutineId) (load : Load) : Prop :=
  load.turn.fails=false ∧ ∃ sess,load.world.value=some sess ∧ written task load.world=[sess]

end Execution

section Commands

variable {task : GoroutineId} {turn : Turn} {turns : List Turn} {world : World} {α : Type}

/-- A command and what follows it. -/
theorem execute_bind {o : StoreOp PvPSession Call} (f : o.Res → Goroutine α) :
    execute task (redis o >>= f) turns world=
      match ((turns.headD .idle).perform task (.store o) world).2 with
      | .ok res => execute task (f res) turns.tail
          ((turns.headD .idle).perform task (.store o) world).1
      | .error failure =>
        (((turns.headD .idle).perform task (.store o) world).1,.error failure) := by
  change execute task (((.done ((turns.headD .idle).perform task (.store o) world).2 :
    Goroutine _)).bind f) turns.tail ((turns.headD .idle).perform task (.store o) world).1=_
  cases ((turns.headD .idle).perform task (.store o) world).2 <;> rfl

/-- The loads among them. -/
theorem loads_bind {o : StoreOp PvPSession Call} (f : o.Res → Goroutine α) :
    loads task (redis o >>= f) turns world=
      (if isLoad (.store o) then
          [⟨turns.headD .idle,(turns.headD .idle).finds task world⟩] else [])++
        match ((turns.headD .idle).perform task (.store o) world).2 with
        | .ok res => loads task (f res) turns.tail
            ((turns.headD .idle).perform task (.store o) world).1
        | .error _ => [] := by
  change _++loads task (((.done ((turns.headD .idle).perform task (.store o) world).2 :
    Goroutine _)).bind f) turns.tail ((turns.headD .idle).perform task (.store o) world).1=_
  cases ((turns.headD .idle).perform task (.store o) world).2 <;> rfl

/-- What the others do is not what the call has written. -/
theorem written_finds (turn : Turn) (task : GoroutineId) (world : World) :
    written task (turn.finds task world)=written task world := by
  have hother : ∀ (world : World) (other : Other),
      written task (other.apply task world)=written task world := by
    intro world other
    cases other with
    | writes call sess => simp [written,Other.apply,World.commit]
    | removes =>
      simp only [written,Other.apply,World.delete]
      split
      · rfl
      · simp
  unfold Turn.finds
  induction turn.others generalizing world with
  | nil => rfl
  | cons other others ih => exact (ih _).trans (hother world other)

/-- A command that only reads writes nothing. -/
theorem written_perform {o : StoreOp PvPSession Call}
    (h : ∀ world : World,written task (o.effect task world).1=written task world) :
    written task (turn.perform task (.store o) world).1=written task world := by
  have hfinds := written_finds turn task world
  unfold Turn.perform
  dsimp only
  split
  · exact hfinds
  · exact (h _).trans hfinds

/-- WATCH writes nothing. -/
theorem written_watch :
    written task (turn.perform task (.store .watch) world).1=written task world :=
  written_perform fun _ => rfl

/-- Neither does GET. -/
theorem written_get :
    written task (turn.perform task (.store .get) world).1=written task world :=
  written_perform fun _ => rfl

/-- EXEC returns whether it has written. -/
theorem exec_cases (token retriesLeft : ℕ) (call : Call) (sess : PvPSession) :
    (turn.perform task (.store (.exec token retriesLeft call sess)) world).2=.ok true ∧
      written task (turn.perform task (.store (.exec token retriesLeft call sess)) world).1=
        written task world++[sess] ∨
    (turn.perform task (.store (.exec token retriesLeft call sess)) world).2=.ok false ∧
      written task (turn.perform task (.store (.exec token retriesLeft call sess)) world).1=
        written task world := by
  have hfinds := written_finds turn task world
  simp only [Turn.perform,canFail,Bool.and_false,Bool.false_eq_true,if_false,Op.effect,
    StoreOp.effect]
  split
  · refine .inl ⟨rfl,?_⟩
    rw [←hfinds]
    simp [written,World.commit]
  · refine .inr ⟨rfl,?_⟩
    rw [←hfinds]
    simp [written,World.log]

end Commands

section Updates

variable {L : Type} {task : GoroutineId} {turns : List Turn} {world : World}

/-- What is loaded after EXEC is reported if it is kept, and only then. -/
theorem reports_load {sess : PvPSession} (captured : L) (hwritten : written task world=[sess]) :
    Reports task (execute task (loadSession >>= fun sess => pure (captured,sess)) turns world) ↔
      ∀ load∈loads task (loadSession >>= fun sess => pure (captured,sess)) turns world,
        Kept task load := by
  have hfinds := written_finds (turns.headD .idle) task world
  have hloads : ∀ f : Option PvPSession → Goroutine (L×PvPSession),
      (∀ found turns world,loads task (f found) turns world=[]) →
      loads task (redis .load >>= f) turns world=
        [⟨turns.headD .idle,(turns.headD .idle).finds task world⟩] := by
    intro f hnone
    rw [loads_bind]
    simp only [isLoad,if_true]
    cases ((turns.headD .idle).perform task (.store .load) world).2 with
    | ok found =>
      dsimp only
      rw [hnone,List.append_nil]
    | error failure => rfl
  have hkept : (∀ load∈loads task (loadSession >>= fun sess => pure (captured,sess)) turns world,
      Kept task load) ↔ (turns.headD .idle).fails=false ∧
        ((turns.headD .idle).finds task world).value=some sess := by
    rw [loadSession,Prog.bind_assoc,hloads]
    · rw [List.forall_mem_singleton,Kept,hfinds,hwritten]
      simp only [List.cons.injEq,and_true]
      constructor
      · rintro ⟨hproceeds,found,hvalue,rfl⟩
        exact ⟨hproceeds,hvalue⟩
      · exact fun h => ⟨h.1,sess,h.2,rfl⟩
    · intro found turns world
      cases found <;> rfl
  have hresult : ((turns.headD .idle).perform task (.store .load) world).2=
      if (turns.headD .idle).fails then .error .store
      else .ok ((turns.headD .idle).finds task world).value := by
    simp only [Turn.perform,canFail,Bool.and_true]
    split <;> rfl
  have hstays : written task ((turns.headD .idle).perform task (.store .load) world).1=[sess] := by
    rw [←hwritten]
    refine written_perform fun world => ?_
    simp [StoreOp.effect,written,World.log]
  rw [hkept,loadSession,Prog.bind_assoc,execute_bind,hresult]
  cases (turns.headD .idle).fails with
  | true =>
    refine ⟨fun h => ?_,fun h => Bool.noConfusion h.1⟩
    have hnone := h.error .store rfl
    cases hstays.symm.trans hnone
  | false =>
    simp only [Bool.false_eq_true,if_false,true_and]
    cases hvalue : ((turns.headD .idle).finds task world).value with
    | none =>
      refine ⟨fun h => ?_,fun h => absurd h (by simp)⟩
      have hnone := h.error .gameNotFound rfl
      cases hstays.symm.trans hnone
    | some found =>
      constructor
      · intro h
        cases hstays.symm.trans (h.session captured found rfl)
        rfl
      · intro h
        cases h
        constructor
        · intro captured' sess' hok
          cases hok
          exact hstays
        · intro failure herror
          cases herror

/-- A call that has written nothing and returns an error reports that. -/
theorem reports_error {failure : Failure} (hwritten : written task world=[]) :
    Reports (L := L) task (world,.error failure) :=
  ⟨(fun _ _ hok => nomatch hok),fun _ _ => hwritten⟩

/-- An attempt and those after it. -/
theorem reports_attempts (call : L → Call) (mutator : Mutator L) (attempts : ℕ) (captured : L)
    (turns : List Turn) (world : World) (hwritten : written task world=[]) :
    Reports task (execute task (watchAndUpdate call mutator attempts captured) turns world) ↔
      ∀ load∈loads task (watchAndUpdate call mutator attempts captured) turns world,
        Kept task load := by
  induction attempts generalizing captured turns world with
  | zero => exact ⟨(fun _ _ hload => nomatch hload),fun _ => reports_error hwritten⟩
  | succ attempts ih =>
    have hnothing : ∀ {world : World} {failure : Failure},written task world=[] →
        (Reports (L := L) task (world,.error failure) ↔ ∀ load∈([] : List Load),Kept task load) :=
      fun hwritten => ⟨(fun _ _ hload => nomatch hload),fun _ => reports_error hwritten⟩
    have hwatch := (@written_watch task (turns.headD .idle) world).trans hwritten
    rw [watchAndUpdate,execute_bind,loads_bind]
    simp only [isLoad,Bool.false_eq_true,if_false,List.nil_append]
    cases ((turns.headD .idle).perform task (.store .watch) world).2 with
    | error failure => exact hnothing hwatch
    | ok token =>
      generalize ((turns.headD .idle).perform task (.store .watch) world).1=world at hwatch ⊢
      generalize turns.tail=turns
      have hget := (@written_get task (turns.headD .idle) world).trans hwatch
      dsimp only
      rw [execute_bind,loads_bind]
      simp only [isLoad,Bool.false_eq_true,if_false,List.nil_append]
      cases ((turns.headD .idle).perform task (.store .get) world).2 with
      | error failure => exact hnothing hget
      | ok found =>
        generalize ((turns.headD .idle).perform task (.store .get) world).1=world at hget ⊢
        generalize turns.tail=turns
        cases found with
        | none => exact hnothing hget
        | some sess =>
          dsimp only
          cases mutator captured sess with
          | error e => exact hnothing hget
          | ok mutated =>
            obtain ⟨captured',sess'⟩ := mutated
            dsimp only
            rw [execute_bind,loads_bind]
            simp only [isLoad,Bool.false_eq_true,if_false,List.nil_append]
            -- only a committed attempt loads the session
            obtain ⟨hcommitted,hexec⟩ | ⟨hconflict,hexec⟩ := @exec_cases task (turns.headD .idle)
              world token attempts (call captured) sess'
            · rw [hcommitted]
              rw [hget,List.nil_append] at hexec
              exact reports_load captured' hexec
            · rw [hconflict]
              exact ih captured' _ _ (hexec.trans hget)

/-- A call of watchAndUpdate reports what it has committed exactly if its load neither
fails nor finds another session than the one that EXEC has written. -/
theorem reports_iff (call : L → Call) (mutator : Mutator L) (captured : L) (turns : List Turn)
    (value : Option PvPSession) (version : ℕ) (memory : Memory) :
    Reports task (execute task (watchAndUpdate call mutator defaultMaxWatchRetries captured) turns
        ⟨value,version,[],memory⟩) ↔
      ∀ load∈loads task (watchAndUpdate call mutator defaultMaxWatchRetries captured) turns
        ⟨value,version,[],memory⟩,Kept task load :=
  reports_attempts call mutator defaultMaxWatchRetries captured turns ⟨value,version,[],memory⟩ rfl

/-- The transaction of a resolution commits, and then the load fails. -/
def loadFails : List Turn := [.idle,.idle,.idle,⟨[],true⟩]

/-- The call returns an error although it has committed. -/
theorem committed_error : ¬∀ (call : Unit → Call) (mutator : Mutator Unit) (captured : Unit)
    (turns : List Turn) (value : Option PvPSession) (version : ℕ) (memory : Memory),
    Reports 0 (execute 0 (watchAndUpdate call mutator defaultMaxWatchRetries captured) turns
      ⟨value,version,[],memory⟩) := by
  intro h
  have hreports := h (fun _ => .forfeit "") markAbandoned () loadFails
    (some (goSession GameStore.Pairing.small.session)) 0 .empty
  have hwritten : (written 0 (execute 0 (watchAndUpdate (fun _ => .forfeit "") markAbandoned
      defaultMaxWatchRetries ()) loadFails
      ⟨some (goSession GameStore.Pairing.small.session),0,[],.empty⟩).1).length=1 := by decide
  have hnone := hreports.error .store rfl
  rw [hnone] at hwritten
  cases hwritten

end Updates

end KiClash.GoUpdates

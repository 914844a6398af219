import KiClash.RecordedTasks
import KiClash.SlottedTurns

/-!
# Timers that act for absent seats

A library about tasks over one watched key that act for seats whose time has
passed. A timer is armed for the turn for which the task that starts it has just
prompted the seats. It loads the value, sees which slots are empty, and fills
them later by transactions that look neither at the slots nor at the turn. What
a timer puts into a slot is harmless if nothing that matters has happened since
it was armed and since it has looked.
-/

namespace KiClash.TurnTimers

open AsyncTasks WatchedKey RecordedTasks Histories SlottedTurns

section Pairs

variable {Turn Action : Type} {steps : List (Step Turn Action)}

/-- The pair that the task has just completed; if it has accepted an action without
completing one, there is none. -/
def Step.takenBy (task : ℕ) (slots : Seat → Option (Deposit Turn Action))
    (taken : Option (Seat → Deposit Turn Action)) :
    Step Turn Action → Option (Seat → Deposit Turn Action)
  | .accepted seat deposit => if deposit.task=task then full (put slots seat deposit) else taken
  | .applied _ _ _ _ | .other => taken

/-- The pair that the last accepted action of the task has completed. -/
def taken (task : ℕ) (steps : List (Step Turn Action)) : Option (Seat → Deposit Turn Action) :=
  (steps.foldl (fun (state : Table Turn Action×Option (Seat → Deposit Turn Action)) step =>
    (state.1.advance step,Step.takenBy task state.1.slots state.2 step)) (.empty,none)).2

/-- That pair after one more step. -/
theorem taken_append (task : ℕ) (steps : List (Step Turn Action)) (step : Step Turn Action) :
    taken task (steps++[step])=Step.takenBy task (table steps).slots (taken task steps) step := by
  have htable : ∀ (table : Table Turn Action) (pair : Option (Seat → Deposit Turn Action)),
      (steps.foldl (fun (state : Table Turn Action×Option (Seat → Deposit Turn Action)) step =>
        (state.1.advance step,Step.takenBy task state.1.slots state.2 step)) (table,pair)).1=
      steps.foldl Table.advance table := by
    induction steps with
    | nil => exact fun _ _ => rfl
    | cons step' steps ih => exact fun table pair => ih (table.advance step') _
  unfold taken table
  rw [List.foldl_append,← htable .empty none]
  rfl

/-- It is the pair that the task has taken out last. -/
theorem carried_of_taken {task : ℕ} {pair : Seat → Deposit Turn Action}
    (h : taken task steps=some pair) : (table steps).carried task=some pair := by
  induction steps using List.reverseRecOn with
  | nil => cases h
  | append_singleton steps step ih =>
    rw [taken_append] at h
    rw [table_append]
    cases step with
    | applied | other => exact ih h
    | accepted seat deposit =>
      simp only [Step.takenBy] at h
      simp only [Table.advance]
      by_cases htask : deposit.task=task
      · rw [if_pos htask] at h
        rw [h,← htask]
        exact Function.update_self _ _ _
      · rw [if_neg htask] at h
        split
        · exact ih h
        · dsimp only
          rw [Function.update_of_ne (Ne.symm htask)]
          exact ih h

/-- Who spares a seat ends no turn. -/
theorem ends_of_spares {seat : Seat} {step : Step Turn Action} (h : step.Spares seat) :
    step.ends=false := by
  cases step with
  | accepted | other => rfl
  | applied => exact h.elim

end Pairs

variable {L : Language} {R : Runtime L} {Turn Action : Type}

/-- How a record is read as slots and a clock. -/
structure Reading (R : Runtime L) (Turn Action : Type) where
  /-- What an event means for the slots. -/
  step : Event L.Value L.Call R.Note → Step Turn Action
  /-- What lies in the slots. -/
  pending : L.Value → Seat → Option Action
  /-- The turn that is open. -/
  openTurn : L.Value → Option Turn
  /-- The turn for which a task prompts a seat. -/
  prompted : R.Note → Option (ℕ×Turn)
  /-- The timer that is started. -/
  timer : R.Note → Option ℕ

namespace Reading

variable (reading : Reading R Turn Action)

/-- The steps of a record. -/
abbrev steps (trace : Trace R) : List (Step Turn Action) := trace.map reading.step

section Arming

/-- The turn for which the task has last prompted a seat. -/
def lastPrompt (task : ℕ) (trace : Trace R) : Option Turn :=
  (trace.filterMap fun event => match event with
    | .note note => ((reading.prompted note).filter fun prompt => prompt.1=task).map Prod.snd
    | _ => none).getLast?

/-- The timer that has been started between two configurations. -/
def timerStarted (config config' : R.system.Config) : Option ℕ :=
  match config'.world.trace.drop config.world.trace.length with
  | [.note note] => reading.timer note
  | _ => none

/-- The timer that a move starts, with the turn for which it is armed: the one for
which the task that starts it has just prompted the seats. -/
def arming (config config' : R.system.Config) : R.system.Move → Option (ℕ×Turn)
  | .run task _ => (reading.timerStarted config config').bind fun timer =>
    (reading.lastPrompt task config.world.trace).map fun turn => (timer,turn)
  | .open _ => none

/-- The timers of a run, with the turns for which they are armed. -/
def armings (config : R.system.Config) : List R.system.Move → List (ℕ×Turn)
  | [] => []
  | move::moves =>
    match config.step move with
    | none => []
    | some config' => (reading.arming config config' move).toList++armings config' moves

/-- What is armed in a run has been started as a timer. -/
theorem started_of_armings {config config' : R.system.Config} {moves : List R.system.Move}
    (h : config.run moves=some config') {entry : ℕ×Turn}
    (harmed : entry∈reading.armings config moves) :
    ∃ note,reading.timer note=some entry.1 ∧ .note note∈config'.world.trace := by
  induction moves generalizing config with
  | nil => cases harmed
  | cons move moves ih =>
    obtain ⟨config₁,hs,hrest⟩ := Option.bind_eq_some_iff.mp h
    simp only [armings,hs] at harmed
    obtain hfirst | hlater := List.mem_append.mp harmed
    · cases move with
      | «open» entry => cases hfirst
      | run task choice =>
        obtain ⟨timer,htimer,harm⟩ := Option.bind_eq_some_iff.mp (Option.mem_toList.mp hfirst)
        obtain ⟨turn,-,rfl⟩ := Option.map_eq_some_iff.mp harm
        unfold timerStarted at htimer
        split at htimer
        · next note hdrop =>
          have hin : .note note∈config₁.world.trace.drop config.world.trace.length := by
            rw [hdrop]
            exact List.mem_singleton_self _
          exact ⟨note,htimer,(trace_run hrest).subset (List.mem_of_mem_drop hin)⟩
        · cases htimer
    · exact ih hrest hlater

end Arming

section Harm

variable [DecidableEq Turn] [DecidableEq Action] (armed : List (ℕ×Turn)) (earlier : Trace R)

/-- A timer is in time. When an action of it is accepted, the turn that is open in the
value that it has first loaded is the one for which it was armed, and since then no
action for the same seat has been accepted and no turn has been applied. When a turn
is applied, its pair is the one that the last accepted action of the task has
completed, and if a timer has put a part of it into its slot, no turn has been applied
since. -/
def StepInTime : Step Turn Action → Prop
  | .accepted seat deposit => ∀ entry∈armed,entry.1=deposit.task →
    (∀ loaded∈(loads deposit.task earlier).head?,∀ value∈loaded,
      ∀ turn∈reading.openTurn value,turn=entry.2) ∧
    ∀ event∈sinceLoad deposit.task earlier,(reading.step event).Spares seat
  | .applied task _ first second => ∃ pair∈taken task (reading.steps earlier),∀ seat,
    (pair seat).action=seat.pick first second ∧
    ∀ entry∈armed,entry.1=(pair seat).task →
      ∀ step∈sinceAccepted seat (pair seat) (reading.steps earlier),step.ends=false
  | .other => True

/-- What a timer puts into a slot finds the slot empty, while the turn is open for which
the timer was armed. A turn is played with the pair that the last accepted action of the
task that applies it has completed, and any part of it that a timer has put into its
slot is played in the turn for which that timer was armed. -/
def StepHarmless (before : Option L.Value) : Step Turn Action → Prop
  | .accepted seat deposit => ∀ entry∈armed,entry.1=deposit.task →
    (∀ value∈before,reading.pending value seat=none) ∧ deposit.turn=entry.2
  | .applied task turn first second => ∃ pair∈taken task (reading.steps earlier),∀ seat,
    (pair seat).action=seat.pick first second ∧
    ∀ entry∈armed,entry.1=(pair seat).task → turn=entry.2
  | .other => True

/-- What a transaction replaces. -/
def replaced : Event L.Value L.Call R.Note → Option L.Value
  | .commit _ _ before _ => some before
  | _ => none

/-- The event is in time. -/
def InTime (event : Event L.Value L.Call R.Note) : Prop :=
  reading.StepInTime armed earlier (reading.step event)

/-- The event is harmless. -/
def Harmless (event : Event L.Value L.Call R.Note) : Prop :=
  reading.StepHarmless armed earlier (replaced event) (reading.step event)

instance : ∀ step,Decidable (reading.StepInTime armed earlier step)
  | .accepted seat deposit => inferInstanceAs (Decidable (∀ entry∈armed,entry.1=deposit.task →
    (∀ loaded∈(loads deposit.task earlier).head?,∀ value∈loaded,
      ∀ turn∈reading.openTurn value,turn=entry.2) ∧
    ∀ event∈sinceLoad deposit.task earlier,(reading.step event).Spares seat))
  | .applied task _ first second => inferInstanceAs (Decidable
    (∃ pair∈taken task (reading.steps earlier),∀ seat,
      (pair seat).action=seat.pick first second ∧
      ∀ entry∈armed,entry.1=(pair seat).task →
        ∀ step∈sinceAccepted seat (pair seat) (reading.steps earlier),step.ends=false))
  | .other => instDecidableTrue

instance (before : Option L.Value) :
    ∀ step,Decidable (reading.StepHarmless armed earlier before step)
  | .accepted seat deposit => inferInstanceAs (Decidable (∀ entry∈armed,entry.1=deposit.task →
    (∀ value∈before,reading.pending value seat=none) ∧ deposit.turn=entry.2))
  | .applied task turn first second => inferInstanceAs (Decidable
    (∃ pair∈taken task (reading.steps earlier),∀ seat,
      (pair seat).action=seat.pick first second ∧
      ∀ entry∈armed,entry.1=(pair seat).task → turn=entry.2))
  | .other => instDecidableTrue

instance (event : Event L.Value L.Call R.Note) : Decidable (reading.InTime armed earlier event) :=
  inferInstanceAs (Decidable (reading.StepInTime armed earlier (reading.step event)))

instance (event : Event L.Value L.Call R.Note) :
    Decidable (reading.Harmless armed earlier event) :=
  inferInstanceAs (Decidable
    (reading.StepHarmless armed earlier (replaced event) (reading.step event)))

end Harm

section Laws

variable {reading} {start : Option L.Value} {trace : Trace R}

/-- An accepted action is in the record. -/
theorem event_of_accepted {seat : Seat} {deposit : Deposit Turn Action}
    (h : .accepted seat deposit∈reading.steps trace) :
    ∃ earlier event later,trace=earlier++event::later ∧
      reading.step event=.accepted seat deposit := by
  obtain ⟨event,hevent,hstep⟩ := List.mem_map.mp h
  obtain ⟨earlier,later,hsplit⟩ := List.append_of_mem hevent
  exact ⟨earlier,event,later,hsplit,hstep⟩

variable [LT Turn]

/-- What the records of the programs have to do with their reading. -/
structure Lawful (reading : Reading R Turn Action) (start : Option L.Value) (trace : Trace R) :
    Prop where
  /-- Loads return the value under the key. -/
  truthful : Meets (Truthful start) trace
  /-- The clock goes forward. -/
  clocked : Meets Clocked (reading.steps trace)
  /-- What lies in the slots of the value has been put there. -/
  slots : ∀ {earlier value},earlier <+: trace → valueAfter start earlier=some value →
    ∀ seat,((table (reading.steps earlier)).slots seat).map Deposit.action=
      reading.pending value seat
  /-- An action is accepted by a transaction on the value under the key. -/
  accepts : ∀ {earlier event later seat deposit},trace=earlier++event::later →
    reading.step event=.accepted seat deposit → ∃ before,replaced event=some before ∧
      valueAfter start earlier=some before
  /-- A timer acts for a seat whose slot was empty when it has first loaded the value; if
  no turn has been applied since, it acts in the turn that was open then. -/
  timers : ∀ {earlier event later seat deposit note},trace=earlier++event::later →
    reading.step event=.accepted seat deposit → reading.timer note=some deposit.task →
    .note note∈trace → ∃ value,(loads deposit.task earlier).head?=some (some value) ∧
      reading.pending value seat=none ∧
      ((∀ event∈sinceLoad deposit.task earlier,(reading.step event).ends=false) →
        reading.openTurn value=some deposit.turn)

variable [DecidableEq Turn] [DecidableEq Action] {armed : List (ℕ×Turn)}

/-- What a timer puts into a slot in time is harmless. -/
theorem Lawful.accepted (laws : Lawful reading start trace)
    (harmed : ∀ entry∈armed,∃ note,reading.timer note=some entry.1 ∧ .note note∈trace)
    (htime : Meets (reading.InTime armed) trace) {earlier later : Trace R}
    {event : Event L.Value L.Call R.Note} {seat : Seat} {deposit : Deposit Turn Action}
    (hsplit : trace=earlier++event::later) (hstep : reading.step event=.accepted seat deposit) :
    ∀ entry∈armed,entry.1=deposit.task →
      (∀ value∈replaced event,reading.pending value seat=none) ∧ deposit.turn=entry.2 := by
  intro entry hentry htask
  obtain ⟨note,htimer,hnote⟩ := harmed entry hentry
  rw [htask] at htimer
  obtain ⟨value,hfirst,hempty,hopen⟩ := laws.timers hsplit hstep htimer hnote
  obtain ⟨before,hreplaced,hbefore⟩ := laws.accepts hsplit hstep
  have hintime : reading.StepInTime armed earlier (.accepted seat deposit) := by
    rw [hsplit] at htime
    have hevent : reading.StepInTime armed earlier (reading.step event) := htime.at
    rwa [hstep] at hevent
  obtain ⟨hcurrent,hspares⟩ := hintime entry hentry htask
  -- the record splits at the load and at the submission
  obtain ⟨start₀,hload⟩ := split_load hfirst
  have hshape : earlier=(start₀++[.loaded deposit.task (some value)])++
      sinceLoad deposit.task earlier := by
    rw [← List.append_cons]
    exact hload
  have hpart : earlier <+: trace := ⟨event::later,hsplit.symm⟩
  have hloaded : start₀++[.loaded deposit.task (some value)] <+: earlier :=
    ⟨sinceLoad deposit.task earlier,hshape.symm⟩
  have hvalue : valueAfter start (start₀++[.loaded deposit.task (some value)])=some value := by
    have htruthful : Meets (Truthful start) earlier := laws.truthful.before hpart
    rw [valueAfter_append]
    rw [hload] at htruthful
    exact htruthful.at.symm
  constructor
  · intro value' hvalue'
    obtain rfl : before=value' := Option.some.inj (hreplaced.symm.trans hvalue')
    rw [← laws.slots hpart hbefore seat]
    have hslot : (table (reading.steps
        (start₀++[.loaded deposit.task (some value)]))).slots seat=none := by
      have hslots := laws.slots (hloaded.trans hpart) hvalue seat
      rw [hempty] at hslots
      exact Option.map_eq_none_iff.mp hslots
    rw [hshape,steps,List.map_append,slot_spared hslot]
    · rfl
    · intro step hin
      obtain ⟨event',hevent',rfl⟩ := List.mem_map.mp hin
      exact hspares event' hevent'
  · have hturn := hopen fun event' hin => ends_of_spares (hspares event' hin)
    exact hcurrent _ hfirst value rfl deposit.turn hturn

/-- Timers that are in time throughout a record do no harm in it. -/
theorem Lawful.harmless (laws : Lawful reading start trace)
    (harmed : ∀ entry∈armed,∃ note,reading.timer note=some entry.1 ∧ .note note∈trace)
    (htime : Meets (reading.InTime armed) trace) : Meets (reading.Harmless armed) trace := by
  apply meets_of_splits
  intro earlier event later hsplit
  change reading.StepHarmless armed earlier (replaced event) (reading.step event)
  cases hstep : reading.step event with
  | other => exact True.intro
  | accepted seat deposit => exact laws.accepted harmed htime hsplit hstep
  | applied task turn first second =>
    have hintime : reading.StepInTime armed earlier (.applied task turn first second) := by
      rw [hsplit] at htime
      have hevent : reading.StepInTime armed earlier (reading.step event) := htime.at
      rwa [hstep] at hevent
    obtain ⟨pair,htaken,hpair⟩ := hintime
    refine ⟨pair,htaken,fun seat => ⟨(hpair seat).1,fun entry hentry htask => ?_⟩⟩
    -- the pair was put together in the turn that it plays
    have hsteps : reading.steps trace=
        reading.steps earlier++.applied task turn first second::reading.steps later := by
      rw [hsplit,steps,List.map_append,List.map_cons,hstep]
    obtain ⟨hturn,hin⟩ := turn_of_carried hsteps laws.clocked (carried_of_taken htaken)
      ((hpair seat).2 entry hentry htask)
    -- and the timer's part of it in the turn for which the timer was armed
    obtain ⟨earlier',event',later',hsplit',hstep'⟩ := event_of_accepted hin
    rw [hsplit',List.append_assoc] at hsplit
    rw [← hturn]
    exact (laws.accepted harmed htime hsplit hstep' entry hentry htask).2

end Laws

end Reading

end KiClash.TurnTimers

import KiClash.Histories
import KiClash.WatchedKeyRules
import Mathlib.Data.List.Induction

/-!
# What the record tells of the tasks

A library about the record of a run over one watched key. The record alone
tells the value under the key at any time. What a task does next depends on
what its own operations have returned; a predicate on what a task has loaded
and on what it has left to do, if the programs keep it, holds of all tasks in
every run, and whatever a task writes, it has been about to write.
-/

namespace KiClash.RecordedTasks

open AsyncTasks WatchedKey Histories

variable {L : Language} {R : Runtime L}

/-- Everything that has happened. -/
abbrev Trace (R : Runtime L) := List (Event L.Value L.Call R.Note)

/-- A move only adds to the record. -/
theorem trace_step {config config' : R.system.Config} {move : R.system.Move}
    (h : config.step move=some config') : config.world.trace <+: config'.world.trace := by
  cases move with
  | «open» entry =>
    obtain ⟨world,hw,rfl⟩ := Option.map_eq_some_iff.mp h
    change WatchedKey.arrive _ _ _=some _ at hw
    unfold WatchedKey.arrive at hw
    split at hw
    · cases hw
      exact List.prefix_append _ _
    · cases hw
  | run task choice =>
    simp only [System.Config.step] at h
    split at h
    · obtain ⟨⟨world,r,started⟩,hp,rfl⟩ := Option.map_eq_some_iff.mp h
      exact (Advances.perform hp).trace
    · cases h

/-- So does a run. -/
theorem trace_run {config config' : R.system.Config} {moves : List R.system.Move}
    (h : config.run moves=some config') : config.world.trace <+: config'.world.trace := by
  induction moves generalizing config with
  | nil =>
    cases h
    exact List.prefix_rfl
  | cons move moves ih =>
    obtain ⟨config₁,hs,hrest⟩ := Option.bind_eq_some_iff.mp h
    exact (trace_step hs).trans (ih hrest)

section Value

/-- The value under the key after an event. -/
def written (value : Option L.Value) : Event L.Value L.Call R.Note → Option L.Value
  | .commit _ _ _ after => some after
  | .deleted _ => none
  | .conflict _ _ _ | .loaded _ _ | .note _ => value

/-- The value under the key after so many events. -/
def valueAfter (start : Option L.Value) (trace : Trace R) : Option L.Value :=
  trace.foldl written start

@[simp] theorem valueAfter_append (start : Option L.Value) (trace : Trace R)
    (event : Event L.Value L.Call R.Note) :
    valueAfter start (trace++[event])=written (valueAfter start trace) event := by
  simp [valueAfter]

/-- A load returns the value under the key, and a transaction starts from it. -/
def Truthful (start : Option L.Value) (earlier : Trace R) :
    Event L.Value L.Call R.Note → Prop
  | .loaded _ value => value=valueAfter start earlier
  | .commit _ _ before after => before=(valueAfter start earlier).getD after
  | _ => True

/-- The record tells the value under the key. -/
structure Faithful (start : Option L.Value) (world : World R) : Prop where
  /-- The value under the key now. -/
  value : world.value=valueAfter start world.trace
  /-- The value at any earlier time. -/
  truthful : Meets (Truthful start) world.trace

variable {start : Option L.Value} {world : World R}

/-- An event that leaves the key alone. -/
theorem Faithful.event (h : Faithful start world) (event : Event L.Value L.Call R.Note)
    {world' : World R} (ht : world'.trace=world.trace++[event])
    (hv : world'.value=written world.value event)
    (hfits : Truthful start world.trace event) : Faithful start world' := by
  constructor
  · rw [ht,hv,h.value,valueAfter_append]
  · rw [ht]
    exact meets_append.mpr ⟨h.truthful,hfits⟩

/-- Notes leave the key alone. -/
theorem Faithful.notes (h : Faithful start world) (notes : List R.Note) (memory : R.Memory) :
    Faithful start ⟨world.value,world.version,world.trace++notes.map Event.note,memory⟩ := by
  induction notes using List.reverseRecOn with
  | nil =>
    constructor
    · simpa using h.value
    · simpa using h.truthful
  | append_singleton notes note ih =>
    refine ih.event (.note note) ?_ rfl True.intro
    simp

/-- A command on the key. -/
theorem Faithful.store (h : Faithful start world) (task : ℕ) (o : StoreOp L.Value L.Call) :
    Faithful start (o.effect task world).1 := by
  have hcommit : ∀ call value,Faithful start (world.commit task call value) := by
    intro call value
    refine h.event (.commit task call (world.value.getD value) value) rfl rfl ?_
    change world.value.getD value=_
    rw [h.value]
  cases o with
  | watch | unwatch | get => exact h
  | load => exact h.event (.loaded task world.value) rfl rfl h.value
  | exec token retriesLeft call value =>
    simp only [StoreOp.effect]
    split
    · exact hcommit call value
    · exact h.event (.conflict task call retriesLeft) rfl rfl True.intro
  | set onlyIfAbsent call value =>
    simp only [StoreOp.effect]
    split
    · exact h
    · exact hcommit call value
  | delete =>
    simp only [StoreOp.effect,World.delete]
    split
    · exact h
    · exact h.event (.deleted task) rfl rfl True.intro

/-- However an operation turns out. -/
theorem Faithful.perform (h : Faithful start world) {choice : Choice} {task fresh : ℕ}
    {o : Op L} {world' : World R} {r : Except L.Exc o.Res} {started : Option R.Entry}
    (hp : WatchedKey.perform choice task fresh o world=some (world',r,started)) :
    Faithful start world' := by
  have heffect : ∀ pick,Faithful start (o.effect pick task fresh world).1 := by
    intro pick
    cases o with
    | store o => exact h.store task o
    | act o => exact h.notes _ _
  have hdeliver : ∀ {world : World R} exc,Faithful start world →
      Faithful start (world.deliver task exc) :=
    fun exc h => h.event (.note (R.raised task exc)) rfl rfl True.intro
  obtain ⟨pick,-,he⟩ | ⟨exc,-,-,-,rfl | ⟨pick,-,rfl⟩⟩ := perform_cases hp
  · have := heffect pick
    rwa [he] at this
  · exact hdeliver exc h
  · exact hdeliver exc (heffect pick)

/-- The record of every run tells the value under the key. -/
theorem faithful {config config' : R.system.Config}
    (hrun : config.Reaches config') (htrace : config.world.trace=[]) :
    Faithful config.world.value config'.world := by
  have hinitial : Faithful config.world.value config.world := by
    constructor
    · rw [htrace]
      rfl
    · rw [htrace]
      exact True.intro
  refine hrun.keeps (P := fun config' => Faithful config.world.value config'.world) ?_ hinitial
  intro config₁ config₂ move h hs
  cases move with
  | «open» entry =>
    obtain ⟨world,hw,rfl⟩ := Option.map_eq_some_iff.mp hs
    change WatchedKey.arrive _ _ _=some _ at hw
    unfold WatchedKey.arrive at hw
    split at hw
    · cases hw
      exact h.event (.note (R.started _ entry)) rfl rfl True.intro
    · cases hw
  | run task choice =>
    simp only [System.Config.step] at hs
    split at hs
    · obtain ⟨⟨world,r,started⟩,hp,rfl⟩ := Option.map_eq_some_iff.mp hs
      exact h.perform hp
    · cases hs

end Value

section Programs

/-- What a task has loaded so far. -/
def loads (task : ℕ) (trace : Trace R) : List (Option L.Value) :=
  trace.filterMap fun event => match event with
    | .loaded task' value => if task'=task then some value else none
    | _ => none

@[simp] theorem loads_append (task : ℕ) (trace trace' : Trace R) :
    loads task (trace++trace')=loads task trace++loads task trace' := by
  simp [loads]

/-- The event is a load of the task. -/
def loadsBy (task : ℕ) : Event L.Value L.Call R.Note → Bool
  | .loaded task' _ => task'=task
  | _ => false

/-- What has happened since the task has first loaded the value. -/
def sinceLoad (task : ℕ) : Trace R → Trace R
  | [] => []
  | event::later => if loadsBy task event then later else sinceLoad task later

/-- The record splits where the task has first loaded the value. -/
theorem split_load {task : ℕ} {trace : Trace R} {value : Option L.Value}
    (h : (loads task trace).head?=some value) :
    ∃ earlier,trace=earlier++.loaded task value::sinceLoad task trace := by
  induction trace with
  | nil => cases h
  | cons event later ih =>
    by_cases hl : loadsBy task event=true
    · have hevent : event=.loaded task value := by
        cases event with
        | loaded task' value' =>
          have htask : task'=task := by simpa [loadsBy] using hl
          subst htask
          have hvalue : value'=value := by simpa [loads] using h
          rw [hvalue]
        | commit | conflict | deleted | note => cases hl
      refine ⟨[],?_⟩
      rw [sinceLoad,if_pos hl,hevent]
      rfl
    · have hloads : loads task (event::later)=loads task later := by
        cases event with
        | loaded task' value' =>
          have htask : task'≠task := by simpa [loadsBy] using hl
          simp [loads,htask]
        | commit | conflict | deleted | note => rfl
      rw [hloads] at h
      obtain ⟨earlier,hsplit⟩ := ih h
      refine ⟨event::earlier,?_⟩
      simp only [sinceLoad,if_neg hl]
      rw [List.cons_append,← hsplit]

/-- The command writes the value for the call. -/
def Writes (call : L.Call) (value : L.Value) : StoreOp L.Value L.Call → Prop
  | .exec _ _ call' value' => call'=call ∧ value'=value
  | .set _ call' value' => call'=call ∧ value'=value
  | _ => False

/-- A predicate that the programs of the named tasks keep: it is about the task's
name, what it has loaded and what it has left to do. -/
structure Kept (Q : R.Entry → List (Option L.Value) → Prog L.sig Unit → Prop) : Prop where
  /-- It holds at the start. -/
  starts : ∀ entry,Q entry [] (R.body entry)
  /-- A load returns something. -/
  loaded : ∀ {entry read next} value,Q entry read (.op (.store .load) next) →
    Q entry (read++[value]) (next (.ok value))
  /-- A load raises, and has perhaps returned something before. -/
  raises : ∀ {entry read next} exc,Q entry read (.op (.store .load) next) →
    Q entry read (next (.error exc)) ∧ ∀ value,Q entry (read++[value]) (next (.error exc))
  /-- Any other operation. -/
  goesOn : ∀ {entry read} {o : Op L} {next} r,o≠.store .load → Q entry read (.op o next) →
    Q entry read (next r)

/-- The start of a task can be told from everything else that is noted. -/
structure TellsStarts (R : Runtime L) : Prop where
  /-- Different starts are noted differently. -/
  injective : ∀ {task task' entry entry'},R.started task entry=R.started task' entry' →
    task=task' ∧ entry=entry'
  /-- An exception is no start. -/
  raised : ∀ task exc task' entry,R.raised task exc≠R.started task' entry
  /-- An action notes no start. -/
  act : ∀ pick task fresh o memory task' entry,
    R.started task' entry∉(R.act pick task fresh o memory).2.1

variable {Q : R.Entry → List (Option L.Value) → Prog L.sig Unit → Prop}

/-- A transaction is one that its task has been about to write. -/
def Intended (Q : R.Entry → List (Option L.Value) → Prog L.sig Unit → Prop) (earlier : Trace R) :
    Event L.Value L.Call R.Note → Prop
  | .commit task call _ after => ∃ entry o next,.note (R.started task entry)∈earlier ∧
      Q entry (loads task earlier) (.op (.store o) next) ∧ Writes call after o
  | _ => True

/-- All tasks of a configuration do what their programs keep. -/
structure Programs (Q : R.Entry → List (Option L.Value) → Prog L.sig Unit → Prop)
    (config : R.system.Config) (entries : List R.Entry) : Prop where
  /-- Every task has a name. -/
  length : entries.length=config.tasks.length
  /-- The predicate holds of what each task has left to do. -/
  program : ∀ task entry p,entries[task]?=some entry → config.tasks[task]?=some p →
    Q entry (loads task config.world.trace) p
  /-- The record names the tasks. -/
  started : ∀ task entry,.note (R.started task entry)∈config.world.trace ↔
    entries[task]?=some entry
  /-- A task that has not started has loaded nothing. -/
  fresh : ∀ task,entries.length≤task → loads task config.world.trace=[]
  /-- What has been written was intended. -/
  intended : Meets (Intended Q) config.world.trace

/-- What an operation records when nothing interrupts it. -/
def effectEvents (pick : Bool) (task fresh : ℕ) (world : World R) : Op L → Trace R
  | .store .load => [.loaded task world.value]
  | .store (.exec token retriesLeft call value) =>
    if world.version=token then [.commit task call (world.value.getD value) value]
    else [.conflict task call retriesLeft]
  | .store (.set onlyIfAbsent call value) =>
    if onlyIfAbsent && world.value.isSome then []
    else [.commit task call (world.value.getD value) value]
  | .store .delete => if world.value.isSome then [.deleted task] else []
  | .store .watch | .store .unwatch | .store .get => []
  | .act o => ((R.act pick task fresh o world.memory).2.1++
      ((R.act pick task fresh o world.memory).2.2.2.map (R.started fresh)).toList).map .note

/-- It records just that. -/
theorem effect_trace (pick : Bool) (task fresh : ℕ) (world : World R) (o : Op L) :
    (o.effect pick task fresh world).1.trace=
      world.trace++effectEvents pick task fresh world o := by
  cases o with
  | act o => rfl
  | store o =>
    cases o with
    | watch | unwatch | get => simp [Op.effect,StoreOp.effect,effectEvents]
    | load => rfl
    | exec token retriesLeft call value =>
      simp only [Op.effect,StoreOp.effect,effectEvents]
      split <;> rfl
    | set onlyIfAbsent call value =>
      simp only [Op.effect,StoreOp.effect,effectEvents]
      split
      · simp
      · rfl
    | delete =>
      simp only [Op.effect,StoreOp.effect,effectEvents,World.delete]
      cases world.value <;> simp

/-- What an operation can record: what it does, an exception, or both. -/
theorem perform_events {choice : Choice} {task fresh : ℕ} {o : Op L} {world world' : World R}
    {r : Except L.Exc o.Res} {started : Option R.Entry}
    (hp : WatchedKey.perform choice task fresh o world=some (world',r,started)) :
    (∃ pick,world'.trace=world.trace++effectEvents pick task fresh world o ∧
      r=(o.effect pick task fresh world).2.1 ∧ started=(o.effect pick task fresh world).2.2) ∨
    (∃ exc,r=.error exc ∧ started=none ∧
      (world'.trace=world.trace++[.note (R.raised task exc)] ∨
        ∃ pick,(o.effect pick task fresh world).2.2=none ∧
          world'.trace=world.trace++effectEvents pick task fresh world o++
            [.note (R.raised task exc)])) := by
  obtain ⟨pick,-,he⟩ | ⟨exc,-,hr,hs,rfl | ⟨pick,hn,rfl⟩⟩ := perform_cases hp
  · refine .inl ⟨pick,?_,?_,?_⟩
    · rw [← effect_trace,he]
    · rw [he]
    · rw [he]
  · exact .inr ⟨exc,hr,hs,.inl rfl⟩
  · refine .inr ⟨exc,hr,hs,.inr ⟨pick,hn,?_⟩⟩
    rw [← effect_trace]
    rfl

section Operation

variable {choice : Choice} {pick : Bool} {task other fresh : ℕ} {o : Op L} {world world' : World R}
  {r : Except L.Exc o.Res} {started : Option R.Entry}

/-- Notes load nothing. -/
theorem loads_notes (task : ℕ) (notes : List R.Note) :
    loads task (notes.map Event.note : Trace R)=[] := by
  induction notes with
  | nil => rfl
  | cons note notes ih => simp [loads]

/-- An exception is no load. -/
theorem loads_raised (task other : ℕ) (exc : L.Exc) :
    loads other ([.note (R.raised task exc)] : Trace R)=[] := rfl

/-- Only a load is recorded as one. -/
theorem loads_effectEvents (h : o≠.store .load ∨ other≠task) :
    loads other (effectEvents pick task fresh world o)=[] := by
  cases o with
  | act o => exact loads_notes other _
  | store o =>
    cases o with
    | load =>
      have hne : task≠other := by
        obtain h | h := h
        · exact absurd rfl h
        · exact Ne.symm h
      simp [effectEvents,loads,hne]
    | watch | unwatch | get => rfl
    | exec token retriesLeft call value =>
      simp only [effectEvents]
      split <;> rfl
    | set onlyIfAbsent call value =>
      simp only [effectEvents]
      split <;> rfl
    | delete =>
      simp only [effectEvents]
      split <;> rfl

/-- An operation of one task loads nothing for the others. -/
theorem loads_perform (hp : WatchedKey.perform choice task fresh o world=some (world',r,started))
    (hne : other≠task) : loads other world'.trace=loads other world.trace := by
  obtain ⟨pick,ht,-,-⟩ | ⟨exc,-,-,ht | ⟨pick,-,ht⟩⟩ := perform_events hp
  · rw [ht,loads_append,loads_effectEvents (.inr hne),List.append_nil]
  · rw [ht,loads_append,loads_raised,List.append_nil]
  · rw [ht,loads_append,loads_append,loads_effectEvents (.inr hne),loads_raised,List.append_nil,
      List.append_nil]

/-- A program that keeps the predicate still keeps it after the operation. -/
theorem Kept.perform (hQ : Kept Q) {entry : R.Entry} {next : Except L.Exc o.Res → Prog L.sig Unit}
    (hp : WatchedKey.perform choice task fresh o world=some (world',r,started))
    (h : Q entry (loads task world.trace) (.op o next)) :
    Q entry (loads task world'.trace) (next r) := by
  by_cases ho : o=.store .load
  · subst ho
    have hload : ∀ pick,loads task (effectEvents pick task fresh world (.store .load))=
        [world.value] := by
      intro pick
      simp [effectEvents,loads]
    obtain ⟨pick,ht,rfl,-⟩ | ⟨exc,rfl,-,ht | ⟨pick,-,ht⟩⟩ := perform_events hp
    · rw [ht,loads_append]
      rw [hload pick]
      exact hQ.loaded world.value h
    · rw [ht,loads_append,loads_raised,List.append_nil]
      exact (hQ.raises exc h).1
    · rw [ht,loads_append,loads_append,loads_raised,List.append_nil]
      rw [hload pick]
      exact (hQ.raises exc h).2 world.value
  · have hsame : loads task world'.trace=loads task world.trace := by
      obtain ⟨pick,ht,-,-⟩ | ⟨exc,-,-,ht | ⟨pick,-,ht⟩⟩ := perform_events hp
      · rw [ht,loads_append,loads_effectEvents (.inl ho),List.append_nil]
      · rw [ht,loads_append,loads_raised,List.append_nil]
      · rw [ht,loads_append,loads_append,loads_effectEvents (.inl ho),loads_raised,
          List.append_nil,List.append_nil]
    rw [hsame]
    exact hQ.goesOn r ho h

/-- An operation notes the start of the task that it returns, and no other. -/
theorem started_effectEvents (hT : TellsStarts R) {entry : R.Entry} :
    .note (R.started other entry)∈effectEvents pick task fresh world o ↔
      other=fresh ∧ (o.effect pick task fresh world).2.2=some entry := by
  cases o with
  | act o =>
    constructor
    · intro h
      obtain ⟨note,hnote,he⟩ := List.mem_map.mp h
      cases he
      rcases List.mem_append.mp hnote with hact | hstart
      · exact absurd hact (hT.act _ _ _ _ _ _ _)
      · obtain ⟨entry',he',hsame⟩ := Option.map_eq_some_iff.mp (Option.mem_toList.mp hstart)
        obtain ⟨rfl,rfl⟩ := hT.injective hsame
        exact ⟨rfl,he'⟩
    · rintro ⟨rfl,he⟩
      have hstart : (R.act pick task other o world.memory).2.2.2=some entry := he
      refine List.mem_map_of_mem (List.mem_append_right _ ?_)
      rw [hstart]
      exact List.mem_singleton_self _
  | store o =>
    have hnone : .note (R.started other entry)∉effectEvents pick task fresh world (.store o) := by
      cases o with
      | watch | unwatch | get | load => simp [effectEvents]
      | exec token retriesLeft call value =>
        simp only [effectEvents]
        split <;> simp
      | set onlyIfAbsent call value =>
        simp only [effectEvents]
        split <;> simp
      | delete =>
        simp only [effectEvents]
        split <;> simp
    exact ⟨fun h => absurd h hnone,fun h => nomatch h.2⟩

/-- However it turns out. -/
theorem started_perform (hT : TellsStarts R) {entry : R.Entry}
    (hp : WatchedKey.perform choice task fresh o world=some (world',r,started)) :
    .note (R.started other entry)∈world'.trace ↔
      .note (R.started other entry)∈world.trace ∨ other=fresh ∧ started=some entry := by
  have hraised : ∀ exc,Event.note (R.started other entry)∉
      ([.note (R.raised task exc)] : Trace R) := by
    intro exc hin
    have he := Event.note.inj (List.mem_singleton.mp hin)
    exact hT.raised task exc other entry he.symm
  obtain ⟨pick,ht,-,hs⟩ | ⟨exc,-,rfl,ht | ⟨pick,hn,ht⟩⟩ := perform_events hp
  · rw [ht,List.mem_append,started_effectEvents hT,hs]
  · rw [ht,List.mem_append]
    simp [hraised exc]
  · rw [ht,List.mem_append,List.mem_append,started_effectEvents hT,hn]
    simp [hraised exc]

/-- The list of names after a task may have been started. -/
theorem getElem?_append_toList {entries : List R.Entry} {entry : R.Entry} :
    (entries++started.toList)[other]?=some entry ↔
      entries[other]?=some entry ∨ other=entries.length ∧ started=some entry := by
  cases started with
  | none => simp
  | some entry' =>
    rw [List.getElem?_append]
    split
    · next hlt => simp [Nat.ne_of_lt hlt]
    · next hle =>
      have hnone : entries[other]?=none := List.getElem?_eq_none_iff.mpr (by omega)
      rw [hnone]
      constructor
      · intro he
        obtain ⟨hlt,he⟩ := List.getElem?_eq_some_iff.mp he
        simp only [Option.toList_some,List.length_singleton] at hlt
        have hzero : other-entries.length=0 := by omega
        refine .inr ⟨by omega,?_⟩
        simpa [hzero] using he
      · rintro (he | ⟨rfl,he⟩)
        · cases he
        · simpa using he

/-- Notes are always intended. -/
theorem intended_notes {earlier : Trace R} (h : Meets (Intended Q) earlier) (notes : List R.Note) :
    Meets (Intended Q) (earlier++notes.map Event.note) := by
  induction notes using List.reverseRecOn with
  | nil => simpa using h
  | append_singleton notes note ih =>
    rw [List.map_append,← List.append_assoc]
    exact meets_append.mpr ⟨ih,True.intro⟩

/-- What an operation records is intended by a program that keeps the predicate. -/
theorem intended_effectEvents {entry : R.Entry} {next : Except L.Exc o.Res → Prog L.sig Unit}
    (hname : .note (R.started task entry)∈world.trace)
    (h : Q entry (loads task world.trace) (.op o next)) (hi : Meets (Intended Q) world.trace) :
    Meets (Intended Q) (world.trace++effectEvents pick task fresh world o) := by
  have hone : ∀ event,Intended Q world.trace event → Meets (Intended Q) (world.trace++[event]) :=
    fun event he => meets_append.mpr ⟨hi,he⟩
  cases o with
  | act o => exact intended_notes hi _
  | store o =>
    cases o with
    | watch | unwatch | get => simpa [effectEvents] using hi
    | load => exact hone _ True.intro
    | exec token retriesLeft call value =>
      simp only [effectEvents]
      split
      · exact hone _ ⟨entry,.exec token retriesLeft call value,next,hname,h,rfl,rfl⟩
      · exact hone _ True.intro
    | set onlyIfAbsent call value =>
      simp only [effectEvents]
      split
      · simpa using hi
      · exact hone _ ⟨entry,.set onlyIfAbsent call value,next,hname,h,rfl,rfl⟩
    | delete =>
      simp only [effectEvents]
      split
      · exact hone _ True.intro
      · simpa using hi

/-- However it turns out. -/
theorem intended_perform {entry : R.Entry} {next : Except L.Exc o.Res → Prog L.sig Unit}
    (hp : WatchedKey.perform choice task fresh o world=some (world',r,started))
    (hname : .note (R.started task entry)∈world.trace)
    (h : Q entry (loads task world.trace) (.op o next)) (hi : Meets (Intended Q) world.trace) :
    Meets (Intended Q) world'.trace := by
  obtain ⟨pick,ht,-,-⟩ | ⟨exc,-,-,ht | ⟨pick,-,ht⟩⟩ := perform_events hp
  · rw [ht]
    exact intended_effectEvents hname h hi
  · rw [ht]
    exact meets_append.mpr ⟨hi,True.intro⟩
  · rw [ht]
    exact meets_append.mpr ⟨intended_effectEvents hname h hi,True.intro⟩

end Operation

/-- The task that a move starts gets its name. -/
theorem Programs.start {entries : List R.Entry} {world : World R}
    {tasks : List (Prog L.sig Unit)} (hQ : Kept Q)
    (hlength : entries.length=tasks.length)
    (hprogram : ∀ task entry p,entries[task]?=some entry → tasks[task]?=some p →
      Q entry (loads task world.trace) p)
    (hfresh : ∀ task,entries.length≤task → loads task world.trace=[])
    (hintended : Meets (Intended Q) world.trace) (started : Option R.Entry)
    (hstarted : ∀ task entry,.note (R.started task entry)∈world.trace ↔
      (entries++started.toList)[task]?=some entry) :
    Programs Q ⟨world,tasks++(started.map R.body).toList⟩ (entries++started.toList) where
  length := by cases started <;> simp [hlength]
  program := by
    intro task entry p he hp
    cases started with
    | none => exact hprogram task entry p (by simpa using he) (by simpa using hp)
    | some entry' =>
      change (entries++[entry'])[task]?=_ at he
      change (tasks++[R.body entry'])[task]?=_ at hp
      rw [List.getElem?_append] at he hp
      rw [← hlength] at hp
      split at he
      · next hlt =>
        rw [if_pos hlt] at hp
        exact hprogram task entry p he hp
      · next hle =>
        rw [if_neg hle] at hp
        have htask : task=entries.length := by
          have hlt := (List.getElem?_eq_some_iff.mp he).1
          simp only [List.length_singleton] at hlt
          omega
        subst htask
        simp only [Nat.sub_self,List.getElem?_cons_zero,Option.some.injEq] at he hp
        rw [← he,← hp,hfresh _ (Nat.le_refl _)]
        exact hQ.starts entry'
  started := hstarted
  fresh := fun task hle => hfresh task (by simp at hle; omega)
  intended := hintended

/-- Every move keeps the names and what the programs keep. -/
theorem Programs.step (hT : TellsStarts R) (hQ : Kept Q) {config config' : R.system.Config}
    {entries : List R.Entry} (h : Programs Q config entries) {move : R.system.Move}
    (hs : config.step move=some config') : ∃ entries',Programs Q config' entries' := by
  cases move with
  | «open» entry =>
    obtain ⟨world,hw,rfl⟩ := Option.map_eq_some_iff.mp hs
    change WatchedKey.arrive _ _ _=some _ at hw
    unfold WatchedKey.arrive at hw
    split at hw
    · cases hw
      refine ⟨_,Programs.start hQ h.length ?_ ?_ ?_ (some entry) ?_⟩
      · intro task entry' p he hp
        have hloads : loads task (config.world.log
            (.note (R.started config.tasks.length entry))).trace=loads task config.world.trace := by
          change loads task (config.world.trace++[_])=_
          rw [loads_append]
          exact List.append_nil _
        rw [hloads]
        exact h.program task entry' p he hp
      · intro task hle
        change loads task (config.world.trace++[_])=_
        rw [loads_append,h.fresh task hle]
        rfl
      · exact meets_append.mpr ⟨h.intended,True.intro⟩
      · intro task entry'
        change _∈config.world.trace++[_] ↔ _
        rw [List.mem_append,h.started,getElem?_append_toList,List.mem_singleton,h.length]
        refine or_congr Iff.rfl ⟨fun he => ?_,?_⟩
        · obtain ⟨rfl,rfl⟩ := hT.injective (Event.note.inj he)
          exact ⟨rfl,rfl⟩
        · rintro ⟨rfl,he⟩
          cases he
          rfl
    · cases hw
  | run task choice =>
    simp only [System.Config.step] at hs
    split at hs
    · next o next hp =>
      obtain ⟨⟨world,r,started⟩,hperform,rfl⟩ := Option.map_eq_some_iff.mp hs
      have hlt : task<entries.length := by
        rw [h.length]
        exact (List.getElem?_eq_some_iff.mp hp).1
      have hentry : entries[task]?=some entries[task] := List.getElem?_eq_getElem hlt
      have hQtask := h.program task _ _ hentry hp
      have hname := (h.started task _).mpr hentry
      refine ⟨_,Programs.start hQ (by simpa using h.length) ?_ ?_ ?_ started ?_⟩
      · intro other entry' p he hp'
        by_cases ho : other=task
        · subst ho
          rw [List.getElem?_set_self (by rw [← h.length]; exact hlt)] at hp'
          rw [hentry] at he
          cases he
          cases hp'
          exact hQ.perform hperform hQtask
        · rw [List.getElem?_set_ne (Ne.symm ho)] at hp'
          rw [loads_perform hperform ho]
          exact h.program other entry' p he hp'
      · intro other hle
        rw [loads_perform hperform (by omega)]
        exact h.fresh other hle
      · exact intended_perform hperform hname hQtask h.intended
      · intro other entry'
        rw [started_perform hT hperform,h.started,getElem?_append_toList,h.length]
    · cases hs

/-- In every run the tasks do what their programs keep, and what has been
written was intended. -/
theorem programs (hT : TellsStarts R) (hQ : Kept Q) {config config' : R.system.Config}
    (hrun : config.Reaches config') (htrace : config.world.trace=[]) (htasks : config.tasks=[]) :
    ∃ entries,Programs Q config' entries := by
  refine hrun.keeps (P := fun config' => ∃ entries,Programs Q config' entries) ?_ ⟨[],?_⟩
  · rintro config₁ config₂ move ⟨entries,h⟩ hs
    exact h.step hT hQ hs
  · constructor
    · rw [htasks]
      rfl
    · intro task entry p he
      cases he
    · intro task entry
      rw [htrace]
      exact ⟨nofun,nofun⟩
    · intro task _
      rw [htrace]
      rfl
    · rw [htrace]
      exact True.intro

end Programs

end KiClash.RecordedTasks

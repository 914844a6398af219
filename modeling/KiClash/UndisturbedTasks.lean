import KiClash.WatchedKey

/-!
# A task that is left alone

A library for tasks over a watched key that run without being overtaken. Such a task goes
on until it comes to an operation of a given kind, at which it pauses; nothing else moves
meanwhile, and an operation raises only if it cannot do anything else. What a program does
when it is left alone is put together from what its parts do, and it is a run of the system
in which only this task moves.
-/

namespace KiClash.UndisturbedTasks

open AsyncTasks WatchedKey

variable {L : Language} {R : Runtime L} {α β : Type}

section Programs

/-- An operation of a task that nothing overtakes: it raises if it can only raise. -/
def leftAlone (task fresh : ℕ) (o : Op L) (world : World R) :
    World R×Except L.Exc o.Res×Option R.Entry :=
  match R.unavoidable world.memory task o,R.interrupt world.memory task o with
  | true,some exc => (world.deliver task exc,.error exc,none)
  | _,_ => o.effect true task fresh world

/-- How far a program has got. -/
structure Progress (R : Runtime L) (α : Type) where
  /-- The world. -/
  world : World R
  /-- The tasks that have been started. -/
  started : List R.Entry
  /-- What is left of the program. -/
  rest : Prog L.sig α

variable (pauses : Op L → Bool)

/-- A program goes on until it pauses. So many tasks have been started before. -/
def advance (task : ℕ) : Prog L.sig α → World R → ℕ → Progress R α
  | .done r,world,_ => ⟨world,[],.done r⟩
  | .op o next,world,fresh =>
    if pauses o then ⟨world,[],.op o next⟩
    else
      let (moved,r,started) := leftAlone task fresh o world
      let progress := advance task (next r) moved (fresh+started.toList.length)
      {progress with started := started.toList++progress.started}

/-- A task that has paused goes on until it pauses again. -/
def resume (task : ℕ) : Prog L.sig α → World R → ℕ → Progress R α
  | .done r,world,_ => ⟨world,[],.done r⟩
  | .op o next,world,fresh =>
    let (moved,r,started) := leftAlone task fresh o world
    let progress := advance pauses task (next r) moved (fresh+started.toList.length)
    {progress with started := started.toList++progress.started}

/-- A program that hands its outcome to another one. -/
theorem advance_andThen (task : ℕ) (p : Prog L.sig α) (f : Except L.Exc α → Prog L.sig β)
    (world : World R) (fresh : ℕ) :
    advance pauses task (p.andThen f) world fresh=
      let first := advance pauses task p world fresh
      match first.rest with
      | .done r =>
        let second := advance pauses task (f r) first.world (fresh+first.started.length)
        {second with started := first.started++second.started}
      | .op o next => ⟨first.world,first.started,(Prog.op o next).andThen f⟩ := by
  induction p generalizing world fresh with
  | done r => simp [advance,Prog.andThen]
  | op o next ih =>
    simp only [Prog.andThen,advance]
    split
    · rfl
    · rw [ih]
      dsimp only
      cases (advance pauses task (next (leftAlone task fresh o world).2.1)
        (leftAlone task fresh o world).1
        (fresh+(leftAlone task fresh o world).2.2.toList.length)).rest with
      | done r => simp [Nat.add_assoc]
      | op o' next' => simp [Prog.andThen]

/-- An operation that need not raise takes effect. -/
theorem leftAlone_eq {task fresh : ℕ} {o : Op L} {world : World R}
    (h : R.unavoidable world.memory task o=false) :
    leftAlone task fresh o world=o.effect true task fresh world := by
  simp [leftAlone,h]

/-- An operation of a task that nothing overtakes is a move of the system. -/
theorem leftAlone_move (task fresh : ℕ) (o : Op L) (world : World R)
    (h : R.unavoidable world.memory task o → (R.interrupt world.memory task o).isSome) :
    ∃ choice,perform choice task fresh o world=some (leftAlone task fresh o world) := by
  unfold leftAlone
  cases hu : R.unavoidable world.memory task o with
  | false => exact ⟨.proceed true,by simp [perform,hu]⟩
  | true =>
    obtain ⟨exc,hexc⟩ := Option.isSome_iff_exists.mp (h hu)
    exact ⟨.raiseBefore,by simp [perform,hexc]⟩

/-- What the system makes of the progress of a task. -/
def Progress.config (progress : Progress R Unit) (task : ℕ) (tasks : List (Prog L.sig Unit)) :
    R.system.Config :=
  ⟨progress.world,tasks.set task progress.rest++progress.started.map R.body⟩

/-- Two runs after each other. -/
theorem reaches_trans {config₁ config₂ config₃ : R.system.Config} (h : config₁.Reaches config₂)
    (h' : config₂.Reaches config₃) : config₁.Reaches config₃ := by
  obtain ⟨moves,hrun⟩ := h
  refine h'.keeps ?_ ⟨moves,hrun⟩
  rintro config config' move ⟨moves,hrun⟩ hstep
  exact ⟨moves++[move],System.Config.run_concat hrun hstep⟩

/-- A task that can only raise has something to raise. -/
def Raises (R : Runtime L) : Prop :=
  ∀ (world : World R) (task : ℕ) (o : Op L),
    R.unavoidable world.memory task o → (R.interrupt world.memory task o).isSome

variable {pauses}

/-- An operation that starts no task, and what follows it. -/
theorem advance_perform {task fresh : ℕ} {o : Op L} {world moved : World R} {x : o.Res}
    (hp : pauses o=false) (h : leftAlone task fresh o world=(moved,.ok x,none))
    (f : o.Res → Prog L.sig α) :
    advance pauses task (Prog.perform (S := L.sig) o >>= f) world fresh=
      advance pauses task (f x) moved fresh := by
  have hop : Prog.perform (S := L.sig) o >>= f=
      .op o fun r => (Prog.done r : Prog L.sig o.Res).bind f := rfl
  rw [hop]
  simp [advance,hp,h,Prog.bind]

/-- A task whose program stays as it is. -/
theorem set_self {tasks : List (Prog L.sig Unit)} {task : ℕ} {p : Prog L.sig Unit}
    (ht : tasks[task]?=some p) : tasks.set task p=tasks := by
  obtain ⟨_,hget⟩ := List.getElem?_eq_some_iff.mp ht
  rw [←hget,List.set_getElem_self]

/-- A task that goes on is a run of the system if the rest of it is. -/
theorem resume_op_reaches (hraise : Raises R) {task : ℕ} {o : Op L}
    {next : Except L.Exc o.Res → Prog L.sig Unit} {world : World R}
    {tasks : List (Prog L.sig Unit)} (ht : tasks[task]?=some (.op o next))
    (hrest : ∀ r {world : World R} {tasks : List (Prog L.sig Unit)},tasks[task]?=some (next r) →
      (⟨world,tasks⟩ : R.system.Config).Reaches
        ((advance pauses task (next r) world tasks.length).config task tasks)) :
    (⟨world,tasks⟩ : R.system.Config).Reaches
      ((resume pauses task (.op o next) world tasks.length).config task tasks) := by
  have hlt : task<tasks.length := (List.getElem?_eq_some_iff.mp ht).1
  obtain ⟨choice,hmove⟩ := leftAlone_move task tasks.length o world (hraise world task o)
  rcases hl : leftAlone task tasks.length o world with ⟨moved,r,started⟩
  rw [hl] at hmove
  have hstep : (⟨world,tasks⟩ : R.system.Config).step (.run task choice)=
      some ⟨moved,tasks.set task (next r)++(started.map R.body).toList⟩ := by
    simp [System.Config.step,ht,hmove]
  have hnext : (tasks.set task (next r)++(started.map R.body).toList)[task]?=
      some (next r) := by
    rw [List.getElem?_append_left (by simpa using hlt)]
    simp [hlt]
  have hlen : (tasks.set task (next r)++(started.map R.body).toList).length=
      tasks.length+started.toList.length := by
    cases started <;> simp
  obtain ⟨moves,hrun⟩ := @hrest r moved _ hnext
  simp only [Progress.config] at hrun
  rw [hlen,List.set_append_left _ _ (by simpa using hlt)] at hrun
  refine ⟨.run task choice::moves,?_⟩
  simp only [System.Config.run,hstep,Option.bind_some,hrun,resume,hl,Progress.config]
  cases started <;> simp

/-- A program that is left alone is a run of the system. -/
theorem advance_reaches (hraise : Raises R) {task : ℕ} {p : Prog L.sig Unit} {world : World R}
    {tasks : List (Prog L.sig Unit)} (ht : tasks[task]?=some p) :
    (⟨world,tasks⟩ : R.system.Config).Reaches
      ((advance pauses task p world tasks.length).config task tasks) := by
  induction p generalizing world tasks with
  | done r => exact ⟨[],by simp [System.Config.run,advance,Progress.config,set_self ht]⟩
  | op o next ih =>
    by_cases hp : pauses o
    · exact ⟨[],by simp [System.Config.run,advance,Progress.config,hp,set_self ht]⟩
    · have h := @resume_op_reaches _ _ pauses hraise _ _ _ world _ ht fun r {_ _} hr => ih r hr
      simpa only [advance,resume,hp,Bool.false_eq_true,if_false] using h

/-- So is a task that goes on after a pause. -/
theorem resume_reaches (hraise : Raises R) {task : ℕ} {p : Prog L.sig Unit} {world : World R}
    {tasks : List (Prog L.sig Unit)} (ht : tasks[task]?=some p) :
    (⟨world,tasks⟩ : R.system.Config).Reaches
      ((resume pauses task p world tasks.length).config task tasks) := by
  cases p with
  | done r => exact ⟨[],by simp [System.Config.run,resume,Progress.config,set_self ht]⟩
  | op o next => exact resume_op_reaches hraise ht fun r {_ _} hr => advance_reaches hraise hr

end Programs

section Results

variable {σ M : Type}

/-- What is watched of a task that is left alone: where it pauses, what a state of its
surroundings says when so many tasks have been started, and which notes count. -/
structure Setting (R : Runtime L) (σ M : Type) where
  /-- The operations at which the task pauses. -/
  pauses : Op L → Bool
  /-- The world is in the state. -/
  holds : σ → ℕ → World R → Prop
  /-- What a note reports. -/
  reports : R.Note → Option M

variable (S : Setting R σ M)

/-- What some events report. -/
def Setting.reported (events : List (Event L.Value L.Call R.Note)) : List M :=
  events.filterMap fun
    | .note note => S.reports note
    | _ => none

/-- What notes report. -/
theorem Setting.reported_notes (notes : List R.Note) :
    S.reported (notes.map .note)=notes.filterMap S.reports := by
  rw [Setting.reported,List.filterMap_map]
  rfl

/-- Left alone in a state, the program comes to a program at which the task pauses or which
has ended; it leaves another state and reports some messages. -/
def Setting.Comes (task : ℕ) (p : Prog L.sig α) (s : σ) (rest : Prog L.sig α) (s' : σ)
    (messages : List M) : Prop :=
  ∀ world fresh,S.holds s fresh world →
    ∃ moved started events,advance S.pauses task p world fresh=⟨moved,started,rest⟩ ∧
      moved.trace=world.trace++events ∧ S.reported events=messages ∧
      S.holds s' (fresh+started.length) moved

/-- The program returns a result. -/
abbrev Setting.Returns (task : ℕ) (p : Prog L.sig α) (s : σ) (a : α) (s' : σ)
    (messages : List M) : Prop :=
  S.Comes task p s (.done (.ok a)) s' messages

variable {S} {task : ℕ} {s s' s'' : σ} {a : α} {messages messages' : List M}

/-- A program that stays where it is. -/
theorem comes_self {p : Prog L.sig α}
    (h : ∀ (world : World R) fresh,advance S.pauses task p world fresh=⟨world,[],p⟩) :
    S.Comes task p s p s [] := by
  intro world fresh hs
  exact ⟨world,[],[],h world fresh,by simp,rfl,by simpa using hs⟩

/-- A program that only returns. -/
theorem returns_pure : S.Returns task (pure a) s a s [] := comes_self fun _ _ => rfl

/-- An operation at which the task does not pause. -/
theorem returns_perform {o : Op L} {x : o.Res} (hp : S.pauses o=false)
    (h : ∀ fresh (world : World R),S.holds s fresh world →
      ∃ moved events started,leftAlone task fresh o world=(moved,.ok x,started) ∧
        moved.trace=world.trace++events ∧ S.reported events=messages ∧
        S.holds s' (fresh+started.toList.length) moved) :
    S.Returns task (Prog.perform (S := L.sig) o) s x s' messages := by
  intro world fresh hs
  obtain ⟨moved,events,started,hmove,htrace,hrep,hs'⟩ := h fresh world hs
  refine ⟨moved,started.toList,events,?_,htrace,hrep,hs'⟩
  simp [Prog.perform,advance,hp,hmove]

/-- A program whose outcome is handed to another one. -/
theorem Setting.Returns.andThen {p : Prog L.sig α} {f : Except L.Exc α → Prog L.sig β}
    {rest : Prog L.sig β} (hp : S.Returns task p s a s' messages)
    (hf : S.Comes task (f (.ok a)) s' rest s'' messages') :
    S.Comes task (p.andThen f) s rest s'' (messages++messages') := by
  intro world fresh hs
  obtain ⟨moved,started,events,hadv,htrace,hrep,hs'⟩ := hp world fresh hs
  obtain ⟨moved',started',events',hadv',htrace',hrep',hs''⟩ := hf moved _ hs'
  refine ⟨moved',started++started',events++events',?_,?_,?_,?_⟩
  · rw [advance_andThen,hadv]
    simp only [hadv']
  · rw [htrace',htrace,List.append_assoc]
  · simp only [Setting.reported,List.filterMap_append] at hrep hrep' ⊢
    rw [hrep,hrep']
  · rw [List.length_append,←Nat.add_assoc]
    exact hs''

/-- One program after another. -/
theorem Setting.Returns.bind {p : Prog L.sig α} {f : α → Prog L.sig β} {rest : Prog L.sig β}
    (hp : S.Returns task p s a s' messages) (hf : S.Comes task (f a) s' rest s'' messages') :
    S.Comes task (p >>= f) s rest s'' (messages++messages') := by
  rw [Prog.bind_eq_andThen]
  exact hp.andThen hf

/-- A program that reports nothing, and another one. -/
theorem Setting.Returns.silent {p : Prog L.sig α} {f : α → Prog L.sig β} {rest : Prog L.sig β}
    (hp : S.Returns task p s a s' []) (hf : S.Comes task (f a) s' rest s'' messages) :
    S.Comes task (p >>= f) s rest s'' messages := hp.bind hf

/-- A program whose result is used by a function. -/
theorem Setting.Returns.map {p : Prog L.sig α} (f : α → β)
    (hp : S.Returns task p s a s' messages) :
    S.Returns task (f <$> p) s (f a) s' messages := by
  have h := hp.bind (f := fun a => pure (f a)) returns_pure
  rwa [List.append_nil] at h

/-- A program that raises nothing is not handled. -/
theorem Setting.Returns.handle {p : Prog L.sig α} {handler : L.Exc → Prog L.sig α}
    (hp : S.Returns task p s a s' messages) :
    S.Returns task (p.handle handler) s a s' messages := by
  have h : S.Returns task (p.handle handler) s a s' (messages++[]) := hp.andThen returns_pure
  rwa [List.append_nil] at h

/-- A program that comes to an operation comes to it as well when its outcome is handed to
another one. -/
theorem Setting.Comes.andThen {p : Prog L.sig α} {o : Op L} {next : Except L.Exc o.Res → Prog L.sig α}
    {f : Except L.Exc α → Prog L.sig β} (hp : S.Comes task p s (.op o next) s' messages) :
    S.Comes task (p.andThen f) s ((Prog.op o next).andThen f) s' messages := by
  intro world fresh hs
  obtain ⟨moved,started,events,hadv,htrace,hrep,hs'⟩ := hp world fresh hs
  refine ⟨moved,started,events,?_,htrace,hrep,hs'⟩
  rw [advance_andThen,hadv]

/-- So does one whose exceptions are handled. -/
theorem Setting.Comes.handle {p : Prog L.sig α} {o : Op L} {next : Except L.Exc o.Res → Prog L.sig α}
    (hp : S.Comes task p s (.op o next) s' messages) (handler : L.Exc → Prog L.sig α) :
    S.Comes task (p.handle handler) s ((Prog.op o next).handle handler) s' messages :=
  hp.andThen

/-- So does one that is cleaned up after. -/
theorem Setting.Comes.cleanupWith {p : Prog L.sig α} {o : Op L}
    {next : Except L.Exc o.Res → Prog L.sig α} (hp : S.Comes task p s (.op o next) s' messages)
    (cleanup : Prog L.sig Unit) :
    S.Comes task (p.cleanupWith cleanup) s ((Prog.op o next).cleanupWith cleanup) s' messages :=
  hp.andThen

/-- A task that goes on after a pause. -/
theorem resume_comes {o : Op L} {next : Except L.Exc o.Res → Prog L.sig α}
    {rest : Prog L.sig α} {x : o.Res}
    (ho : ∀ fresh (world : World R),S.holds s fresh world →
      ∃ moved events started,leftAlone task fresh o world=(moved,.ok x,started) ∧
        moved.trace=world.trace++events ∧ S.reported events=messages ∧
        S.holds s' (fresh+started.toList.length) moved)
    (hnext : S.Comes task (next (.ok x)) s' rest s'' messages') {world : World R} {fresh : ℕ}
    (hs : S.holds s fresh world) :
    ∃ moved started events,
      resume S.pauses task (.op o next) world fresh=⟨moved,started,rest⟩ ∧
      moved.trace=world.trace++events ∧ S.reported events=messages++messages' ∧
      S.holds s'' (fresh+started.length) moved := by
  obtain ⟨moved,events,started,hmove,htrace,hrep,hs'⟩ := ho fresh world hs
  obtain ⟨moved',started',events',hadv',htrace',hrep',hs''⟩ := hnext moved _ hs'
  refine ⟨moved',started.toList++started',events++events',?_,?_,?_,?_⟩
  · simp only [resume,hmove,hadv']
  · rw [htrace',htrace,List.append_assoc]
  · simp only [Setting.reported,List.filterMap_append] at hrep hrep' ⊢
    rw [hrep,hrep']
  · rw [List.length_append,←Nat.add_assoc]
    exact hs''

end Results

section Systems

variable {σ M : Type} (S : Setting R σ M)

/-- The program of a task. -/
def programOf (config : R.system.Config) (task : ℕ) : Prog L.sig Unit :=
  (config.tasks[task]?).getD (pure ())

/-- A task of a system begins and goes on until it pauses. -/
def begins (pauses : Op L → Bool) (config : R.system.Config) (task : ℕ) : R.system.Config :=
  (advance pauses task (programOf config task) config.world config.tasks.length).config task
    config.tasks

/-- A task that has paused goes on until it pauses again. -/
def serves (pauses : Op L → Bool) (config : R.system.Config) (task : ℕ) : R.system.Config :=
  (resume pauses task (programOf config task) config.world config.tasks.length).config task
    config.tasks

/-- A task has moved alone: where it is now, what the world says, and what has been
reported. -/
structure Setting.Moves (task : ℕ) (config config' : R.system.Config) (rest : Prog L.sig Unit)
    (s' : σ) (messages : List M) : Prop where
  /-- It is a run of the system. -/
  reached : config.Reaches config'
  /-- The task has got on. -/
  rest : config'.tasks[task]?=some rest
  /-- The others have not. -/
  others : ∀ other≠task,∀ p,config.tasks[other]?=some p → config'.tasks[other]?=some p
  /-- The world is in this state. -/
  holds : S.holds s' config'.tasks.length config'.world
  /-- These messages have been reported. -/
  reported : S.reported config'.world.trace=S.reported config.world.trace++messages

variable {S} {config : R.system.Config} {task : ℕ} {s s' s'' : σ} {messages messages' : List M}

/-- A task moves alone as it progresses. -/
theorem moves_of_progress {progress : Progress R Unit}
    {events : List (Event L.Value L.Call R.Note)} (hlt : task<config.tasks.length)
    (hreached : config.Reaches (progress.config task config.tasks))
    (htrace : progress.world.trace=config.world.trace++events)
    (hreported : S.reported events=messages)
    (hholds : S.holds s' (config.tasks.length+progress.started.length) progress.world) :
    S.Moves task config (progress.config task config.tasks) progress.rest s' messages := by
  refine ⟨hreached,?_,?_,?_,?_⟩
  · have hset : task<(config.tasks.set task progress.rest).length := by simpa using hlt
    simp only [Progress.config]
    rw [List.getElem?_append_left hset,List.getElem?_set_self hlt]
  · intro other hne p hp
    have hother : other<config.tasks.length := (List.getElem?_eq_some_iff.mp hp).1
    simp only [Progress.config]
    rw [List.getElem?_append_left (by simpa using hother),List.getElem?_set_ne hne.symm,hp]
  · simpa [Progress.config] using hholds
  · simp only [Setting.reported] at hreported ⊢
    simp [Progress.config,htrace,List.filterMap_append,hreported]

/-- A task that begins. -/
theorem begins_moves (hraise : Raises R) {p rest : Prog L.sig Unit}
    (hp : config.tasks[task]?=some p) (hs : S.holds s config.tasks.length config.world)
    (hcomes : S.Comes task p s rest s' messages) :
    S.Moves task config (begins S.pauses config task) rest s' messages := by
  obtain ⟨moved,started,events,hadv,htrace,hreported,hholds⟩ := hcomes _ _ hs
  have hreached := @advance_reaches _ _ S.pauses hraise _ _ config.world _ hp
  rw [begins,programOf,hp,Option.getD_some]
  rw [hadv] at hreached ⊢
  exact moves_of_progress (List.getElem?_eq_some_iff.mp hp).1 hreached htrace hreported hholds

/-- A task that goes on after a pause. -/
theorem serves_moves (hraise : Raises R) {o : Op L} {next : Except L.Exc o.Res → Prog L.sig Unit}
    {rest : Prog L.sig Unit} {x : o.Res} (hp : config.tasks[task]?=some (.op o next))
    (hs : S.holds s config.tasks.length config.world)
    (ho : ∀ fresh (world : World R),S.holds s fresh world →
      ∃ moved events started,leftAlone task fresh o world=(moved,.ok x,started) ∧
        moved.trace=world.trace++events ∧ S.reported events=messages ∧
        S.holds s' (fresh+started.toList.length) moved)
    (hnext : S.Comes task (next (.ok x)) s' rest s'' messages') :
    S.Moves task config (serves S.pauses config task) rest s'' (messages++messages') := by
  obtain ⟨moved,started,events,hres,htrace,hreported,hholds⟩ := resume_comes ho hnext hs
  have hreached := @resume_reaches _ _ S.pauses hraise _ _ config.world _ hp
  rw [serves,programOf,hp,Option.getD_some]
  rw [hres] at hreached ⊢
  exact moves_of_progress (List.getElem?_eq_some_iff.mp hp).1 hreached htrace hreported hholds

end Systems

end KiClash.UndisturbedTasks

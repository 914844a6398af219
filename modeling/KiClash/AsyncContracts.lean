import KiClash.AsyncTasks
import Mathlib.Tactic.TypeStar

/-!
# Contracts for concurrent tasks

A rely-guarantee logic for the tasks of a system. A contract names an
invariant of the shared world, the changes that a task has to expect from
the others, what must hold when a task starts, whenever it is about to
perform an operation, and when it has ended. A task is safe when each of its
operations keeps the invariant and stays within what every other task
expects; the soundness theorem lifts this to every run of the whole system.
-/

namespace KiClash.AsyncContracts

open AsyncTasks

variable {S : Signature} {sys : System S} {α β : Type}

/-- The shared part of a proof about all runs of a system. Obligations are
only owed in worlds that are allowed, which is how a proof confines itself to
the runs that meet a condition on their recorded steps. -/
structure Contract (sys : System S) where
  /-- Worlds in which something is owed. -/
  allowed : sys.World → Prop
  /-- Invariant of the shared world with so many tasks started. -/
  inv : ℕ → sys.World → Prop
  /-- Changes that the given task expects from all other tasks. -/
  rely : ℕ → sys.World → sys.World → Prop
  /-- What holds whenever the given task is about to perform an operation. -/
  ready : ℕ → S.Op → sys.World → Prop
  /-- What holds when the given task starts. -/
  entry : ℕ → sys.Entry → sys.World → Prop
  /-- What holds when the given task has ended. -/
  finish : ℕ → sys.World → Prop

/-- An operation of a task keeps the invariant, surprises nobody else and may
start the task it starts. -/
structure Contract.Keeps (C : Contract sys) (task count : ℕ) (world world' : sys.World)
    (started : Option sys.Entry) : Prop where
  /-- The invariant holds with the started task counted. -/
  inv : C.inv (count+started.toList.length) world'
  /-- Every other task expects the change. -/
  others : ∀ other,other≠task → C.rely other world world'
  /-- The started task may start. -/
  entry : ∀ entry,started=some entry → C.entry count entry world'

/-- The rest of a task is safe from a world on: whatever the other tasks do
first, its next operation is allowed and leads to a world from which the rest
is safe, and at its end the postcondition holds. -/
def Safe (C : Contract sys) (task : ℕ) :
    Prog S α → (Except S.Exc α → sys.World → Prop) → sys.World → Prop
  | .done r,post,world => ∀ count world₁,C.inv count world₁ → C.rely task world world₁ →
      post r world₁
  | .op o next,post,world => ∀ count world₁,task<count → C.inv count world₁ →
      C.rely task world world₁ → C.ready task o world₁ ∧
      ∀ choice world' r started,
        sys.perform choice task count o world₁=some (world',r,started) → C.allowed world' →
        C.Keeps task count world₁ world' started ∧ Safe C task (next r) post world'

/-- Expected changes are closed under doing nothing and under repetition. -/
structure Contract.Lawful (C : Contract sys) : Prop where
  /-- Nothing happening is expected. -/
  rely_refl : ∀ task world,C.rely task world world
  /-- Expected changes compose. -/
  rely_trans : ∀ task {world₁ world₂ world₃},C.rely task world₁ world₂ →
    C.rely task world₂ world₃ → C.rely task world₁ world₃

/-- What a contract has to be shown to satisfy. -/
structure Contract.Verified (C : Contract sys) : Prop extends C.Lawful where
  /-- A world that is not allowed is never left by an operation. -/
  allowed_perform : ∀ {choice task count o world world' r started},
    sys.perform choice task count o world=some (world',r,started) → C.allowed world' →
    C.allowed world
  /-- A world that is not allowed is never left by an arrival. -/
  allowed_arrive : ∀ {count entry world world'},sys.arrive count entry world=some world' →
    C.allowed world' → C.allowed world
  /-- An arriving task keeps the invariant, is expected by all and may start. -/
  arrive : ∀ {count entry world world'},C.inv count world →
    sys.arrive count entry world=some world' → C.allowed world' →
    C.inv (count+1) world' ∧ (∀ task,C.rely task world world') ∧ C.entry count entry world'
  /-- Every task that may start is safe. -/
  body : ∀ {task count entry world},task<count → C.inv count world →
    C.entry task entry world →
    Safe C task (sys.body entry) (fun _ world => C.finish task world) world

section Rules

variable {C : Contract sys} {task : ℕ} {world world' : sys.World}

/-- Safety is stable under expected changes. -/
theorem Safe.later (hC : C.Lawful) {p : Prog S α}
    {post : Except S.Exc α → sys.World → Prop} (h : Safe C task p post world)
    (hr : C.rely task world world') : Safe C task p post world' := by
  cases p with
  | done r => exact fun count world₁ hi hr' => h count world₁ hi (hC.rely_trans task hr hr')
  | op o next =>
    exact fun count world₁ ht hi hr' => h count world₁ ht hi (hC.rely_trans task hr hr')

/-- Consequence: the postcondition may be weakened. -/
theorem Safe.mono {p : Prog S α} {post post' : Except S.Exc α → sys.World → Prop}
    (h : Safe C task p post world) (hpost : ∀ r world,post r world → post' r world) :
    Safe C task p post' world := by
  induction p generalizing world with
  | done r => exact fun count world₁ hi hr => hpost r world₁ (h count world₁ hi hr)
  | op o next ih =>
    intro count world₁ ht hi hr
    obtain ⟨hready,hstep⟩ := h count world₁ ht hi hr
    refine ⟨hready,fun choice world₂ r started hp ha => ?_⟩
    obtain ⟨hk,hs⟩ := hstep choice world₂ r started hp ha
    exact ⟨hk,ih r hs⟩

/-- Composition: the rest has to be safe from every outcome of the first part. -/
theorem Safe.andThen (hC : C.Lawful) {p : Prog S α} {f : Except S.Exc α → Prog S β}
    {post : Except S.Exc β → sys.World → Prop}
    (h : Safe C task p (fun r world => Safe C task (f r) post world) world) :
    Safe C task (p.andThen f) post world := by
  induction p generalizing world with
  | done r =>
    -- the rest was shown safe from every later world, in particular from now on
    have hnow : ∀ count world₁,C.inv count world₁ → C.rely task world world₁ →
        Safe C task (f r) post world₁ := h
    change Safe C task (f r) post world
    cases hf : f r with
    | done r' =>
      intro count world₁ hi hr
      have hs := hnow count world₁ hi hr
      rw [hf] at hs
      exact hs count world₁ hi (hC.rely_refl task world₁)
    | op o next =>
      intro count world₁ ht hi hr
      have hs := hnow count world₁ hi hr
      rw [hf] at hs
      exact hs count world₁ ht hi (hC.rely_refl task world₁)
  | op o next ih =>
    intro count world₁ ht hi hr
    obtain ⟨hready,hstep⟩ := h count world₁ ht hi hr
    refine ⟨hready,fun choice world₂ r started hp ha => ?_⟩
    obtain ⟨hk,hs⟩ := hstep choice world₂ r started hp ha
    exact ⟨hk,ih r hs⟩

/-- Composition for sequencing: an exception ends the program. -/
theorem Safe.bind (hC : C.Lawful) {p : Prog S α} {f : α → Prog S β}
    {post : Except S.Exc β → sys.World → Prop}
    (h : Safe C task p (fun r world => match r with
      | .ok a => Safe C task (f a) post world
      | .error e => Safe C task (.done (.error e)) post world) world) :
    Safe C task (p >>= f) post world := by
  rw [Prog.bind_eq_andThen]
  apply Safe.andThen hC
  apply h.mono
  intro r world hr
  cases r with
  | ok a => exact hr
  | error e => exact hr

/-- An assertion that survives whatever the other tasks do. -/
def Stable (C : Contract sys) (task : ℕ) (P : sys.World → Prop) : Prop :=
  ∀ ⦃world world'⦄,C.rely task world world' → P world → P world'

/-- Two stable assertions at once. -/
theorem Stable.and {P P' : sys.World → Prop} (h : Stable C task P) (h' : Stable C task P') :
    Stable C task fun world => P world ∧ P' world :=
  fun _ _ hr hp => ⟨h hr hp.1,h' hr hp.2⟩

/-- One assertion for results and one for exceptions. -/
def Outcome {W ε : Type} (Q : α → W → Prop) (E : ε → W → Prop) : Except ε α → W → Prop
  | .ok a,world => Q a world
  | .error e,world => E e world

/-- From a world with the precondition, the program is safe and ends with a
result or an exception in a world with the assertion for it. -/
def Triple (C : Contract sys) (task : ℕ) (P : sys.World → Prop) (p : Prog S α)
    (Q : α → sys.World → Prop) (E : S.Exc → sys.World → Prop) : Prop :=
  ∀ ⦃world⦄,P world → Safe C task p (Outcome Q E) world

section Triples

variable {P P' : sys.World → Prop} {Q Q' : α → sys.World → Prop}
  {E E' : S.Exc → sys.World → Prop}

/-- A returned value. -/
theorem Triple.pure {a : α} (hs : Stable C task (Q a)) (h : ∀ world,P world → Q a world) :
    Triple C task P (pure a : Prog S α) Q E :=
  fun _ hP _ _ _ hr => hs hr (h _ hP)

/-- A raised exception. -/
theorem Triple.raise {e : S.Exc} (hs : Stable C task (E e)) (h : ∀ world,P world → E e world) :
    Triple C task P (.raise e) Q E :=
  fun _ hP _ _ _ hr => hs hr (h _ hP)

/-- Consequence. -/
theorem Triple.consequence {p : Prog S α} (h : Triple C task P' p Q' E')
    (hP : ∀ world,P world → P' world) (hQ : ∀ a world,Q' a world → Q a world)
    (hE : ∀ e world,E' e world → E e world) : Triple C task P p Q E := by
  intro world hp
  apply (h (hP world hp)).mono
  intro r world hr
  cases r with
  | ok a => exact hQ a world hr
  | error e => exact hE e world hr

/-- Sequencing; an exception of the first part ends the program. -/
theorem Triple.bind (hC : C.Lawful) {p : Prog S α} {f : α → Prog S β}
    {Q' : β → sys.World → Prop} (hE : ∀ e,Stable C task (E e)) (h : Triple C task P p Q E)
    (hf : ∀ a,Triple C task (Q a) (f a) Q' E) : Triple C task P (p >>= f) Q' E := by
  intro world hP
  apply Safe.bind hC
  apply (h hP).mono
  intro r world hr
  cases r with
  | ok a => exact hf a hr
  | error e => exact fun _ _ _ hrely => hE e hrely hr

/-- A handler continues from the exceptions of the program. -/
theorem Triple.handle (hC : C.Lawful) {p : Prog S α} {handler : S.Exc → Prog S α}
    (hQ : ∀ a,Stable C task (Q a)) (h : Triple C task P p Q E')
    (hh : ∀ e,Triple C task (E' e) (handler e) Q E) :
    Triple C task P (p.handle handler) Q E := by
  intro world hP
  apply Safe.andThen hC
  apply (h hP).mono
  intro r world hr
  cases r with
  | ok a => exact fun _ _ _ hrely => hQ a hrely hr
  | error e => exact hh e hr

/-- A cleanup runs after results and after exceptions. -/
theorem Triple.cleanupWith (hC : C.Lawful) {p : Prog S α} {cleanup : Prog S Unit}
    (hQ : ∀ a,Stable C task (Q a)) (hE : ∀ e,Stable C task (E e)) (h : Triple C task P p Q' E')
    (hok : ∀ a,Triple C task (Q' a) cleanup (fun _ => Q a) E)
    (herror : ∀ e,Triple C task (E' e) cleanup (fun _ => E e) E) :
    Triple C task P (p.cleanupWith cleanup) Q E := by
  intro world hP
  apply Safe.andThen hC
  apply (h hP).mono
  intro r world hr
  apply Safe.andThen hC
  cases r with
  | ok a =>
    apply (hok a hr).mono
    intro r' world hr'
    cases r' with
    | ok _ => exact fun _ _ _ hrely => hQ a hrely hr'
    | error e => exact fun _ _ _ hrely => hE e hrely hr'
  | error e =>
    apply (herror e hr).mono
    intro r' world hr'
    cases r' with
    | ok _ => exact fun _ _ _ hrely => hE e hrely hr'
    | error e' => exact fun _ _ _ hrely => hE e' hrely hr'

/-- The sequencing of an operation with the rest of a program. -/
theorem Triple.perform {o : S.Op} {Q : S.Res o → sys.World → Prop}
    (h : ∀ ⦃world count⦄,task<count → C.inv count world → P world →
      C.ready task o world ∧ ∀ choice world' r started,
        sys.perform choice task count o world=some (world',r,started) → C.allowed world' →
        C.Keeps task count world world' started ∧ Outcome Q E r world')
    (hP : Stable C task P) (hQ : ∀ a,Stable C task (Q a)) (hE : ∀ e,Stable C task (E e)) :
    Triple C task P (Prog.perform o) Q E := by
  intro world hp count world₁ ht hi hr
  obtain ⟨hready,hstep⟩ := h ht hi (hP hr hp)
  refine ⟨hready,fun choice world₂ r started hp ha => ?_⟩
  obtain ⟨hk,ho⟩ := hstep choice world₂ r started hp ha
  refine ⟨hk,?_⟩
  cases r with
  | ok a => exact fun _ _ _ hrely => hQ a hrely ho
  | error e => exact fun _ _ _ hrely => hE e hrely ho

end Triples

end Rules

/-- What holds of a whole configuration: the invariant, and every task is safe. -/
structure Contract.Good (C : Contract sys) (config : sys.Config) : Prop where
  /-- The invariant holds with all tasks counted. -/
  inv : C.inv config.tasks.length config.world
  /-- The rest of every task is safe. -/
  safe : ∀ task p,config.tasks[task]?=some p →
    Safe C task p (fun _ world => C.finish task world) config.world

/-- The step lemma: a move into an allowed world keeps every task safe. -/
theorem Contract.Good.step {C : Contract sys} (hC : C.Verified) {config config' : sys.Config}
    (h : C.Good config) {move : sys.Move} (hs : config.step move=some config')
    (ha : C.allowed config'.world) : C.Good config' := by
  cases move with
  | «open» entry =>
    obtain ⟨world,hw,rfl⟩ := Option.map_eq_some_iff.mp hs
    obtain ⟨hi,hr,he⟩ := hC.arrive h.inv hw ha
    refine ⟨by simpa using hi,fun task p hp => ?_⟩
    rcases Nat.lt_or_ge task config.tasks.length with hlt | hge
    · rw [List.getElem?_append_left hlt] at hp
      exact (h.safe task p hp).later hC.toLawful (hr task)
    · rw [List.getElem?_append_right hge,List.getElem?_singleton] at hp
      split at hp
      · cases hp
        have ht : task=config.tasks.length := by omega
        rw [ht]
        exact hC.body (Nat.lt_succ_self _) hi he
      · cases hp
  | run task choice =>
    simp only [System.Config.step] at hs
    split at hs
    next o next htask =>
      obtain ⟨⟨world,r,started⟩,hp,rfl⟩ := Option.map_eq_some_iff.mp hs
      have hlt : task<config.tasks.length := (List.getElem?_eq_some_iff.mp htask).1
      obtain ⟨-,hstep⟩ := h.safe task _ htask _ config.world hlt h.inv
        (hC.rely_refl task config.world)
      obtain ⟨hk,hsafe⟩ := hstep choice world r started hp ha
      have hlen : (config.tasks.set task (next r)++(started.map sys.body).toList).length=
          config.tasks.length+started.toList.length := by
        cases started <;> simp
      refine ⟨by rw [hlen]; exact hk.inv,fun other p ho => ?_⟩
      rcases Nat.lt_or_ge other config.tasks.length with hlt' | hge
      · rw [List.getElem?_append_left (by simpa using hlt')] at ho
        by_cases he : task=other
        · subst he
          rw [List.getElem?_set_self hlt] at ho
          cases ho
          exact hsafe
        · rw [List.getElem?_set_ne he] at ho
          exact (h.safe other p ho).later hC.toLawful (hk.others other fun e => he e.symm)
      · rw [List.getElem?_append_right (by simpa using hge),List.length_set] at ho
        cases started with
        | none => simp at ho
        | some entry =>
          simp only [Option.map_some,Option.toList_some,List.getElem?_singleton] at ho
          split at ho
          · cases ho
            have ht : other=config.tasks.length := by omega
            rw [ht]
            refine hC.body ?_ hk.inv (hk.entry entry rfl)
            simp
          · cases ho
    next => cases hs

/-- The condition on worlds is inherited by everything a run started from. -/
theorem Contract.Verified.allowed_run {C : Contract sys} (hC : C.Verified)
    {config config' : sys.Config} {moves : List sys.Move}
    (hrun : config.run moves=some config') (ha : C.allowed config'.world) :
    C.allowed config.world := by
  induction moves generalizing config with
  | nil =>
    cases hrun
    exact ha
  | cons move moves ih =>
    obtain ⟨config₁,hs,hrun⟩ := Option.bind_eq_some_iff.mp hrun
    have h₁ := ih hrun
    cases move with
    | «open» entry =>
      obtain ⟨world,hw,rfl⟩ := Option.map_eq_some_iff.mp hs
      exact hC.allowed_arrive hw h₁
    | run task choice =>
      simp only [System.Config.step] at hs
      split at hs
      next o next htask =>
        obtain ⟨⟨world,r,started⟩,hp,rfl⟩ := Option.map_eq_some_iff.mp hs
        exact hC.allowed_perform hp h₁
      next => cases hs

/-- The run lemma: in a run that ends in an allowed world every task stays safe. -/
theorem Contract.Good.run {C : Contract sys} (hC : C.Verified) {config config' : sys.Config}
    (h : C.Good config) {moves : List sys.Move} (hrun : config.run moves=some config')
    (ha : C.allowed config'.world) : C.Good config' := by
  induction moves generalizing config with
  | nil =>
    cases hrun
    exact h
  | cons move moves ih =>
    obtain ⟨config₁,hs,hrun⟩ := Option.bind_eq_some_iff.mp hrun
    exact ih (h.step hC hs (hC.allowed_run hrun ha)) hrun

/-- A task that is about to perform an operation has met its assertion. -/
theorem Contract.Good.ready {C : Contract sys} (hC : C.Verified) {config : sys.Config}
    (h : C.Good config) {task : ℕ} {o : S.Op} {next : Except S.Exc (S.Res o) → Prog S Unit}
    (ht : config.tasks[task]?=some (.op o next)) : C.ready task o config.world := by
  have hlt : task<config.tasks.length := (List.getElem?_eq_some_iff.mp ht).1
  exact (h.safe task _ ht _ config.world hlt h.inv (hC.rely_refl task config.world)).1

/-- A task that has ended has met its final assertion. -/
theorem Contract.Good.finish {C : Contract sys} (hC : C.Verified) {config : sys.Config}
    (h : C.Good config) {task : ℕ} {r : Except S.Exc Unit}
    (ht : config.tasks[task]?=some (.done r)) : C.finish task config.world :=
  h.safe task _ ht _ config.world h.inv (hC.rely_refl task config.world)

end KiClash.AsyncContracts

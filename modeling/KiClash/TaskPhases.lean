import KiClash.RecordedTasks

/-!
# Phases of the tasks of a run

A library that watches a run. Every task is in a phase, which a watcher computes
from the operations that the task has performed and from how they have turned
out. A program follows its phases if it performs only what its current phase
allows and ends only where it may; whatever follows its phases at the start does
so throughout every run. Properties of runs are then properties of the
configurations and phases that a run passes through.
-/

namespace KiClash.TaskPhases

open AsyncTasks WatchedKey RecordedTasks Histories

variable {L : Language} {R : Runtime L} {α β : Type}

/-- The operation takes effect; for a command that writes conditionally this
means that it writes. -/
def took (choice : Choice) (o : Op L) (world : World R) : Bool :=
  match choice,o with
  | .raiseBefore,_ => false
  | _,.store (.exec token _ _ _) => world.version=token
  | _,.store (.set onlyIfAbsent _ _) => !(onlyIfAbsent && world.value.isSome)
  | _,_ => true

/-- The phases of the tasks of a runtime. -/
structure Watcher (R : Runtime L) where
  /-- The phases. -/
  Phase : Type
  /-- The phase in which a task starts. -/
  start : R.Entry → Phase
  /-- The phase after an operation, which has taken effect or not, and its result. -/
  next : Phase → (o : Op L) → Bool → Except L.Exc o.Res → Phase
  /-- The operations that a task may perform in a phase. -/
  allows : Phase → Op L → Prop
  /-- The phases in which a task may end. -/
  ends : Phase → Prop

/-- A way in which an operation can turn out. -/
def Outcome (R : Runtime L) (o : Op L) (effective : Bool) (r : Except L.Exc o.Res) : Prop :=
  ∃ choice task fresh world world' started,
    WatchedKey.perform (R := R) choice task fresh o world=some (world',r,started) ∧
      took choice o world=effective

/-- A command that has returned has taken effect, unless it says that it has not
written. -/
def Effective : (o : StoreOp L.Value L.Call) → o.Res → Bool → Prop
  | .exec _ _ _ _,committed,effective => effective=committed
  | .set _ _ _,written,effective => effective=written
  | _,_,effective => effective=true

section Outcomes

variable {effective : Bool}

/-- A command raises, or it returns whether it has taken effect. -/
theorem Outcome.store {o : StoreOp L.Value L.Call} {r : Except L.Exc o.Res}
    (h : Outcome R (.store o) effective r) :
    (∃ exc,r=.error exc) ∨ ∃ res,r=.ok res ∧ Effective o res effective := by
  obtain ⟨choice,task,fresh,world,world',started,hp,htook⟩ := h
  cases choice with
  | raiseBefore =>
    obtain ⟨exc,-,he⟩ := Option.map_eq_some_iff.mp hp
    cases he
    exact .inl ⟨exc,rfl⟩
  | raiseAfter pick =>
    simp only [WatchedKey.perform] at hp
    split at hp
    · next exc _ _ =>
      cases hp
      exact .inl ⟨exc,rfl⟩
    · cases hp
  | proceed pick =>
    simp only [WatchedKey.perform] at hp
    split at hp
    · cases hp
    · cases hp
      refine .inr ⟨_,rfl,?_⟩
      cases o with
      | watch | unwatch | get | load | delete => exact htook.symm
      | exec token retriesLeft call value =>
        have hv : decide (world.version=token)=effective := htook
        change effective=(StoreOp.effect task (.exec token retriesLeft call value) world).2
        rw [← hv]
        simp only [StoreOp.effect]
        split <;> simp_all
      | set onlyIfAbsent call value =>
        have hv : (!(onlyIfAbsent && world.value.isSome))=effective := htook
        change effective=(StoreOp.effect task (.set onlyIfAbsent call value) world).2
        rw [← hv]
        simp only [StoreOp.effect]
        split
        · next hfound =>
          rw [hfound]
          rfl
        · next hfound =>
          rw [Bool.not_eq_true] at hfound
          rw [hfound]
          rfl

/-- An action raises, or it takes effect and returns what the runtime says. -/
theorem Outcome.act {o : L.Action} {r : Except L.Exc (L.Result o)}
    (h : Outcome R (.act o) effective r) :
    (∃ memory task exc,R.interrupt memory task (.act o)=some exc ∧ r=.error exc) ∨
      effective=true ∧ ∃ pick task fresh memory,r=(R.act pick task fresh o memory).2.2.1 := by
  obtain ⟨choice,task,fresh,world,world',started,hp,htook⟩ := h
  cases choice with
  | raiseBefore =>
    obtain ⟨exc,hraise,he⟩ := Option.map_eq_some_iff.mp hp
    cases he
    exact .inl ⟨world.memory,task,exc,hraise,rfl⟩
  | raiseAfter pick =>
    simp only [WatchedKey.perform] at hp
    split at hp
    · next exc hraise _ =>
      cases hp
      exact .inl ⟨world.memory,task,exc,hraise,rfl⟩
    · cases hp
  | proceed pick =>
    simp only [WatchedKey.perform] at hp
    split at hp
    · cases hp
    · cases hp
      exact .inr ⟨htook.symm,pick,task,fresh,world.memory,rfl⟩

end Outcomes

/-- The program cannot end with an exception. -/
def Returns (R : Runtime L) : Prog L.sig α → Prop
  | .done r => ∃ a,r=.ok a
  | .op o next => ∀ effective r,Outcome R o effective r → Returns R (next r)

/-- Sequencing. -/
theorem Returns.bind {p : Prog L.sig α} {f : α → Prog L.sig β} (h : Returns R p)
    (hf : ∀ a,Returns R (f a)) : Returns R (p >>= f) := by
  rw [Prog.bind_eq_andThen]
  induction p with
  | done r =>
    obtain ⟨a,rfl⟩ := h
    exact hf a
  | op o next ih => exact fun effective r ho => ih r (h effective r ho)

/-- What handles every exception cannot end with one. -/
theorem returns_andThen {p : Prog L.sig α} {f : Except L.Exc α → Prog L.sig β}
    (hf : ∀ r,Returns R (f r)) : Returns R (p.andThen f) := by
  induction p with
  | done r => exact hf r
  | op o next ih => exact fun effective r _ => ih r

namespace Watcher

variable (P : Watcher R)

/-- The program performs only what its phases allow, and what holds of the phase
in which it ends and of its result is given. -/
def Follows (Q : P.Phase → Except L.Exc α → Prop) : P.Phase → Prog L.sig α → Prop
  | phase,.done r => Q phase r
  | phase,.op o next => P.allows phase o ∧
    ∀ effective r,Outcome R o effective r → Follows Q (P.next phase o effective r) (next r)

variable {P}

section Rules

variable {Q Q' : P.Phase → Except L.Exc α → Prop} {phase : P.Phase}

/-- More may hold at the end. -/
theorem Follows.mono {p : Prog L.sig α} (h : P.Follows Q phase p)
    (hq : ∀ phase r,Q phase r → Q' phase r) : P.Follows Q' phase p := by
  induction p generalizing phase with
  | done r => exact hq phase r h
  | op o next ih => exact ⟨h.1,fun effective r ho => ih r (h.2 effective r ho)⟩

/-- A program goes on in the phase in which its first part ends. -/
theorem Follows.andThen {Q : P.Phase → Except L.Exc β → Prop} {p : Prog L.sig α}
    {f : Except L.Exc α → Prog L.sig β} (h : P.Follows Q' phase p)
    (hf : ∀ phase r,Q' phase r → P.Follows Q phase (f r)) : P.Follows Q phase (p.andThen f) := by
  induction p generalizing phase with
  | done r => exact hf phase r h
  | op o next ih => exact ⟨h.1,fun effective r ho => ih r (h.2 effective r ho)⟩

/-- Sequencing. -/
theorem Follows.bind {Q : P.Phase → Except L.Exc β → Prop} {p : Prog L.sig α}
    {f : α → Prog L.sig β} (h : P.Follows Q' phase p)
    (hok : ∀ phase a,Q' phase (.ok a) → P.Follows Q phase (f a))
    (herror : ∀ phase exc,Q' phase (.error exc) → Q phase (.error exc)) :
    P.Follows Q phase (p >>= f) := by
  rw [Prog.bind_eq_andThen]
  apply h.andThen
  intro phase r hq
  cases r with
  | ok a => exact hok phase a hq
  | error exc => exact herror phase exc hq

/-- The operation is allowed and leaves the phase. -/
def Idle (P : Watcher R) (phase : P.Phase) (o : Op L) : Prop :=
  P.allows phase o ∧ ∀ effective r,Outcome R o effective r → P.next phase o effective r=phase

/-- A program of such operations stays in its phase. -/
theorem Follows.idle {p : Prog L.sig α} (h : p.All (P.Idle phase)) :
    P.Follows (fun phase' _ => phase'=phase) phase p := by
  induction p with
  | done r => rfl
  | op o next ih =>
    refine ⟨h.1.1,fun effective r ho => ?_⟩
    rw [h.1.2 effective r ho]
    exact ih r (h.2 r)

/-- A program of operations that are allowed in a class of phases and do not leave it. -/
theorem Follows.among {C : P.Phase → Prop} {free : Op L → Prop} {p : Prog L.sig α} (h : p.All free)
    (hfree : ∀ phase o,C phase → free o → P.allows phase o ∧
      ∀ effective r,C (P.next phase o effective r)) (hphase : C phase) :
    P.Follows (fun phase _ => C phase) phase p := by
  induction p generalizing phase with
  | done r => exact hphase
  | op o next ih =>
    obtain ⟨hallows,hstays⟩ := hfree phase o hphase h.1
    exact ⟨hallows,fun effective r _ => ih r (h.2 r) (hstays effective r)⟩

/-- A program that cannot end with an exception does not. -/
theorem Follows.returns {p : Prog L.sig α} (h : P.Follows Q phase p) (hr : Returns R p) :
    P.Follows (fun phase r => Q phase r ∧ ∃ a,r=.ok a) phase p := by
  induction p generalizing phase with
  | done r => exact ⟨h,hr⟩
  | op o next ih =>
    exact ⟨h.1,fun effective r ho => ih r (h.2 effective r ho) (hr effective r ho)⟩

end Rules

/-- Two watchers at once. -/
abbrev both (P P' : Watcher R) : Watcher R where
  Phase := P.Phase×P'.Phase
  start entry := (P.start entry,P'.start entry)
  next phase o effective r := (P.next phase.1 o effective r,P'.next phase.2 o effective r)
  allows phase o := P.allows phase.1 o ∧ P'.allows phase.2 o
  ends phase := P.ends phase.1 ∧ P'.ends phase.2

/-- A program that follows both. -/
theorem Follows.both {P' : Watcher R} {Q : P.Phase → Except L.Exc α → Prop}
    {Q' : P'.Phase → Except L.Exc α → Prop} {phase : P.Phase} {phase' : P'.Phase}
    {p : Prog L.sig α} (h : P.Follows Q phase p) (h' : P'.Follows Q' phase' p) :
    (P.both P').Follows (fun phase r => Q phase.1 r ∧ Q' phase.2 r) (phase,phase') p := by
  induction p generalizing phase phase' with
  | done r => exact ⟨h,h'⟩
  | op o next ih =>
    exact ⟨⟨h.1,h'.1⟩,fun effective r ho => ih r (h.2 effective r ho) (h'.2 effective r ho)⟩

/-- The watcher that sees nothing. -/
abbrev blank (R : Runtime L) : Watcher R where
  Phase := Unit
  start _ := ()
  next _ _ _ _ := ()
  allows _ _ := True
  ends _ := True

/-- Every program follows it. -/
theorem follows_blank (p : Prog L.sig α) : (blank R).Follows (fun _ _ => True) () p := by
  induction p with
  | done r => exact True.intro
  | op o next ih => exact ⟨True.intro,fun _ r _ => ih r⟩

end Watcher

/-- A configuration with the phases of its tasks. -/
structure Seen (P : Watcher R) where
  /-- The configuration. -/
  config : R.system.Config
  /-- The phase of each task. -/
  phases : List P.Phase

namespace Seen

variable {P : Watcher R}

/-- No task has been started yet. -/
def initial (P : Watcher R) (config : R.system.Config) : Seen P := ⟨config,[]⟩

/-- The phases after a move. -/
def advance (seen : Seen P) : R.system.Move → List P.Phase
  | .open entry => seen.phases++[P.start entry]
  | .run task choice =>
    match seen.config.tasks[task]? with
    | some (.op o _) =>
      match WatchedKey.perform choice task seen.config.tasks.length o seen.config.world with
      | some (_,r,started) =>
        seen.phases.modify task (fun phase => P.next phase o (took choice o seen.config.world) r)++
          (started.map P.start).toList
      | none => seen.phases
    | _ => seen.phases

/-- One move. -/
def step (seen : Seen P) (move : R.system.Move) : Option (Seen P) :=
  (seen.config.step move).map fun config => ⟨config,seen.advance move⟩

/-- A run. -/
def run (seen : Seen P) : List R.system.Move → Option (Seen P)
  | [] => some seen
  | move::moves => (seen.step move).bind fun seen => seen.run moves

/-- The moves of a run, each with what it finds. -/
def moments (seen : Seen P) : List R.system.Move → List (Seen P×R.system.Move)
  | [] => []
  | move::moves =>
    (seen,move)::match seen.step move with
    | none => []
    | some seen => seen.moments moves

/-- A run that is watched is a run. -/
theorem run_config {seen seen' : Seen P} {moves : List R.system.Move}
    (h : seen.run moves=some seen') : seen.config.run moves=some seen'.config := by
  induction moves generalizing seen with
  | nil =>
    cases h
    rfl
  | cons move moves ih =>
    obtain ⟨seen₁,hs,hrest⟩ := Option.bind_eq_some_iff.mp h
    obtain ⟨config,hc,rfl⟩ := Option.map_eq_some_iff.mp hs
    simp only [System.Config.run,hc]
    exact ih hrest

/-- Every run can be watched. -/
theorem exists_run {seen : Seen P} {config : R.system.Config} {moves : List R.system.Move}
    (h : seen.config.run moves=some config) : ∃ seen',seen.run moves=some seen' ∧
      seen'.config=config := by
  induction moves generalizing seen with
  | nil =>
    cases h
    exact ⟨seen,rfl,rfl⟩
  | cons move moves ih =>
    obtain ⟨config₁,hs,hrest⟩ := Option.bind_eq_some_iff.mp h
    obtain ⟨seen',hrun,hconfig⟩ := @ih ⟨config₁,seen.advance move⟩ hrest
    refine ⟨seen',?_,hconfig⟩
    simp only [run,step,hs]
    exact hrun

/-- What a watcher of two sees of the first one. -/
def first {P' : Watcher R} (seen : Seen (P.both P')) : Seen P :=
  ⟨seen.config,seen.phases.map Prod.fst⟩

/-- It sees the first one's moves. -/
theorem first_step {P' : Watcher R} {seen seen' : Seen (P.both P')} {move : R.system.Move}
    (h : seen.step move=some seen') : seen.first.step move=some seen'.first := by
  obtain ⟨config,hs,rfl⟩ := Option.map_eq_some_iff.mp h
  have hadvance : seen.first.advance move=(seen.advance move).map Prod.fst := by
    cases move with
    | «open» entry => simp [advance,first]
    | run task choice =>
      simp only [advance,first]
      split
      · next o rest htask =>
        cases hp : WatchedKey.perform choice task seen.config.tasks.length o seen.config.world with
        | none => rfl
        | some outcome =>
          obtain ⟨world,r,started⟩ := outcome
          have hmodify : ∀ k : ℕ,((seen.phases.map Prod.fst).modify task fun phase =>
              P.next phase o (took choice o seen.config.world) r)[k]?=
              ((seen.phases.modify task fun phase =>
                (P.both P').next phase o (took choice o seen.config.world) r).map Prod.fst)[k]? := by
            intro k
            rw [List.getElem?_modify,List.getElem?_map,List.getElem?_map,List.getElem?_modify]
            cases seen.phases[k]? with
            | none => rfl
            | some phase =>
              simp only [Option.map_some,Option.map_eq_map]
              split <;> rfl
          dsimp only
          rw [List.map_append,List.ext_getElem? hmodify]
          cases started <;> rfl
      · rfl
  change Option.map _ _=_
  rw [hadvance]
  exact Option.map_eq_some_iff.mpr ⟨config,hs,rfl⟩

/-- It sees the first one's runs. -/
theorem first_run {P' : Watcher R} {seen seen' : Seen (P.both P')} {moves : List R.system.Move}
    (h : seen.run moves=some seen') : seen.first.run moves=some seen'.first ∧
      seen.first.moments moves=(seen.moments moves).map fun moment => (moment.1.first,moment.2) := by
  induction moves generalizing seen with
  | nil =>
    cases h
    exact ⟨rfl,rfl⟩
  | cons move moves ih =>
    obtain ⟨seen₁,hs,hrest⟩ := Option.bind_eq_some_iff.mp h
    obtain ⟨hrun,hmoments⟩ := ih hrest
    have hfirst := first_step hs
    constructor
    · simp only [run,hfirst]
      exact hrun
    · simp only [moments,hfirst,hs,hmoments,List.map_cons]

/-- What holds at the start and is kept by every move holds at the end. -/
theorem keeps {I : Seen P → Prop} {F : Seen P → R.system.Move → Prop}
    (hstep : ∀ {seen seen' : Seen P} {move},I seen → F seen move →
      seen.step move=some seen' → I seen')
    {seen seen' : Seen P} {moves : List R.system.Move} (hrun : seen.run moves=some seen')
    (hfits : ∀ moment∈seen.moments moves,F moment.1 moment.2) (h : I seen) : I seen' := by
  induction moves generalizing seen with
  | nil =>
    cases hrun
    exact h
  | cons move moves ih =>
    obtain ⟨seen₁,hs,hrest⟩ := Option.bind_eq_some_iff.mp hrun
    simp only [moments,hs] at hfits
    exact ih hrest (fun moment hm => hfits moment (List.mem_cons_of_mem _ hm))
      (hstep h (hfits _ List.mem_cons_self) hs)

/-- What a run passes through cuts it in two. -/
theorem split {seen seen' : Seen P} {moves : List R.system.Move}
    (hrun : seen.run moves=some seen') {earlier later : List (Seen P×R.system.Move)}
    {seen₁ : Seen P} {move : R.system.Move}
    (h : seen.moments moves=earlier++(seen₁,move)::later) :
    ∃ moves₁ moves₂ seen₂,moves=moves₁++move::moves₂ ∧ seen.run moves₁=some seen₁ ∧
      seen.moments moves₁=earlier ∧ seen₁.step move=some seen₂ ∧ seen₂.run moves₂=some seen' ∧
      seen₂.moments moves₂=later := by
  induction moves generalizing seen earlier with
  | nil => cases earlier <;> cases h
  | cons first moves ih =>
    obtain ⟨next,hs,hrest⟩ := Option.bind_eq_some_iff.mp hrun
    simp only [moments,hs] at h
    cases earlier with
    | nil =>
      cases h
      exact ⟨[],moves,next,rfl,rfl,rfl,hs,hrest,rfl⟩
    | cons moment earlier =>
      obtain ⟨rfl,htail⟩ := List.cons.inj h
      obtain ⟨moves₁,moves₂,seen₂,rfl,hrun₁,hmoments,hmove,hrun₂,hlater⟩ := ih hrest htail
      refine ⟨first::moves₁,moves₂,seen₂,rfl,?_,?_,hmove,hrun₂,hlater⟩
      · simp only [run,hs]
        exact hrun₁
      · simp only [moments,hs,hmoments]

/-- Every task is in a phase. -/
def Phased (seen : Seen P) : Prop := seen.phases.length=seen.config.tasks.length

/-- What a move can be: the environment starts a task, or a task performs an
operation in its phase. -/
inductive Moved (seen : Seen P) : R.system.Move → Seen P → Prop
  | opened (entry : R.Entry) (harrives : R.arrives entry=true) :
    Moved seen (.open entry)
      ⟨⟨seen.config.world.log (.note (R.started seen.config.tasks.length entry)),
        seen.config.tasks++[R.body entry]⟩,seen.phases++[P.start entry]⟩
  | performed (task : ℕ) (choice : Choice) (phase : P.Phase) (o : Op L)
      (rest : Except L.Exc o.Res → Prog L.sig Unit) (world : World R) (r : Except L.Exc o.Res)
      (started : Option R.Entry) (htask : seen.config.tasks[task]?=some (.op o rest))
      (hphase : seen.phases[task]?=some phase)
      (hp : WatchedKey.perform choice task seen.config.tasks.length o seen.config.world=
        some (world,r,started)) :
    Moved seen (.run task choice)
      ⟨⟨world,seen.config.tasks.set task (rest r)++(started.map R.body).toList⟩,
        seen.phases.set task (P.next phase o (took choice o seen.config.world) r)++
          (started.map P.start).toList⟩

/-- What a watcher of two sees of the first one moves with it. -/
theorem Moved.first {P' : Watcher R} {seen seen' : Seen (P.both P')} {move : R.system.Move}
    (h : Moved seen move seen') : Moved seen.first move seen'.first := by
  cases h with
  | opened entry harrives =>
    have hmoved := @Moved.opened _ _ _ seen.first entry harrives
    have hphases : (seen.phases++[(P.both P').start entry]).map Prod.fst=
        seen.first.phases++[P.start entry] := by simp [Seen.first]
    simp only [Seen.first] at hmoved hphases ⊢
    rwa [hphases]
  | performed task choice phase o rest world r started htask hphase hp =>
    have hfirst : seen.first.phases[task]?=some phase.1 := by
      simp [Seen.first,hphase]
    have hmoved := @Moved.performed _ _ _ seen.first task choice phase.1 o rest world r started
      htask hfirst hp
    have hphases : (seen.phases.set task ((P.both P').next phase o
          (took choice o seen.config.world) r)++(started.map (P.both P').start).toList).map Prod.fst=
        seen.first.phases.set task (P.next phase.1 o (took choice o seen.config.world) r)++
          (started.map P.start).toList := by
      cases started <;> simp [Seen.first,List.map_set]
    simp only [Seen.first] at hmoved hphases ⊢
    rwa [hphases]

/-- Every move is one of these. -/
theorem moved {seen seen' : Seen P} {move : R.system.Move} (hphased : seen.Phased)
    (h : seen.step move=some seen') : Moved seen move seen' := by
  obtain ⟨config,hs,rfl⟩ := Option.map_eq_some_iff.mp h
  cases move with
  | «open» entry =>
    obtain ⟨world,hw,rfl⟩ := Option.map_eq_some_iff.mp hs
    change WatchedKey.arrive _ _ _=some _ at hw
    unfold WatchedKey.arrive at hw
    split at hw
    · next harrives =>
      cases hw
      exact .opened entry harrives
    · cases hw
  | run task choice =>
    simp only [System.Config.step] at hs
    split at hs
    · next o rest htask =>
      obtain ⟨⟨world,r,started⟩,hp,rfl⟩ := Option.map_eq_some_iff.mp hs
      have hp' : WatchedKey.perform choice task seen.config.tasks.length o seen.config.world=
        some (world,r,started) := hp
      have hlt : task < seen.phases.length := by
        rw [hphased]
        exact (List.getElem?_eq_some_iff.mp htask).1
      have hphase : seen.phases[task]?=some seen.phases[task] := List.getElem?_eq_getElem hlt
      have hmoved := Moved.performed task choice _ o rest world r started htask hphase hp'
      have hadvance : seen.advance (.run task choice)=
          seen.phases.set task (P.next seen.phases[task] o (took choice o seen.config.world) r)++
            (started.map P.start).toList := by
        simp only [advance,htask,hp']
        rw [List.modify_eq_set_getElem?,hphase]
        rfl
      rw [hadvance]
      exact hmoved
    · cases hs

/-- A move leads to the next configuration. -/
theorem Moved.config {seen seen' : Seen P} {move : R.system.Move} (h : Moved seen move seen') :
    seen.config.step move=some seen'.config := by
  cases h with
  | opened entry harrives => exact Option.map_eq_some_iff.mpr ⟨_,if_pos harrives,rfl⟩
  | performed task choice phase o rest world r started htask hphase hp =>
    simp only [System.Config.step,htask]
    exact Option.map_eq_some_iff.mpr ⟨_,hp,rfl⟩

/-- The task has something left to do. -/
def runs (seen : Seen P) (task : ℕ) : Bool :=
  match seen.config.tasks[task]? with
  | some (.op _ _) => true
  | _ => false

/-- A task that has something left to do after a move had something to do before it. -/
theorem Moved.runs {seen seen' : Seen P} {move : R.system.Move} (hs : Moved seen move seen')
    (hphased : seen.Phased) {task : ℕ} (hlt : task < seen.phases.length)
    (h : seen'.runs task=true) : seen.runs task=true := by
  rw [hphased] at hlt
  unfold Seen.runs at h ⊢
  cases hs with
  | opened entry harrives =>
    rw [List.getElem?_append_left hlt] at h
    exact h
  | performed moving choice phase o rest world r started hmoving hphase hp =>
    by_cases he : task=moving
    · rw [he,hmoving]
    · rw [List.getElem?_append_left (by rwa [List.length_set]),
        List.getElem?_set_ne (Ne.symm he)] at h
      exact h

/-- Every task is in a phase, and its program follows its phases. -/
structure Conforms (seen : Seen P) : Prop where
  /-- Every task is in a phase. -/
  phased : seen.Phased
  /-- What it has left to do follows its phases. -/
  follows : ∀ (task : ℕ) (phase : P.Phase) (p : Prog L.sig Unit),seen.phases[task]?=some phase →
    seen.config.tasks[task]?=some p → P.Follows (fun phase _ => P.ends phase) phase p

/-- A task performs only what its phase allows. -/
theorem Conforms.allows {seen : Seen P} (h : seen.Conforms) {task : ℕ} {phase : P.Phase} {o : Op L}
    {rest : Except L.Exc o.Res → Prog L.sig Unit} (hphase : seen.phases[task]?=some phase)
    (htask : seen.config.tasks[task]?=some (.op o rest)) : P.allows phase o :=
  (h.follows task phase _ hphase htask).1

section Entries

variable {γ : Type} {entries : List γ} {more : Option γ} {task k : ℕ} {next entry : γ}

/-- The entry of a list that has been extended by at most one entry. -/
theorem getElem?_extended (h : (entries++more.toList)[k]?=some entry) :
    entries[k]?=some entry ∨ k=entries.length ∧ more=some entry := by
  rcases Nat.lt_or_ge k entries.length with hk | hk
  · rw [List.getElem?_append_left hk] at h
    exact .inl h
  · rw [List.getElem?_append_right hk] at h
    cases more with
    | none => cases h
    | some e =>
      cases hd : k-entries.length with
      | zero =>
        rw [hd] at h
        cases h
        exact .inr ⟨by omega,rfl⟩
      | succ n =>
        rw [hd] at h
        cases h

/-- The entries after a move: the moved one, the others, and the new one. -/
theorem getElem?_moved (h : (entries.set task next++more.toList)[k]?=some entry) :
    (k=task ∧ entry=next) ∨ (k≠task ∧ entries[k]?=some entry) ∨
      k=entries.length ∧ more=some entry := by
  obtain h | ⟨hk,hmore⟩ := getElem?_extended h
  · rw [List.getElem?_set] at h
    split at h
    · next he =>
      split at h
      · cases h
        exact .inl ⟨he.symm,rfl⟩
      · cases h
    · next hne => exact .inr (.inl ⟨fun he => hne he.symm,h⟩)
  · rw [List.length_set] at hk
    exact .inr (.inr ⟨hk,hmore⟩)

/-- The moved entry. -/
theorem getElem?_moved_self (h : entries[task]?=some entry) :
    (entries.set task next++more.toList)[task]?=some next := by
  have hlt := (List.getElem?_eq_some_iff.mp h).1
  rw [List.getElem?_append_left (by rwa [List.length_set]),List.getElem?_set_self hlt]

/-- The others. -/
theorem getElem?_moved_other (hne : k≠task) (h : entries[k]?=some entry) :
    (entries.set task next++more.toList)[k]?=some entry := by
  have hlt := (List.getElem?_eq_some_iff.mp h).1
  rw [List.getElem?_append_left (by rwa [List.length_set]),
    List.getElem?_set_ne fun he => hne he.symm,h]

end Entries

/-- A move lets the programs go on in their phases. -/
theorem Conforms.step (hbody : ∀ entry,P.Follows (fun phase _ => P.ends phase) (P.start entry)
    (R.body entry)) {seen seen' : Seen P} {move : R.system.Move} (h : seen.Conforms)
    (hs : Moved seen move seen') : seen'.Conforms := by
  obtain ⟨hphased,hfollows⟩ := h
  have hlength : seen.phases.length=seen.config.tasks.length := hphased
  cases hs with
  | opened entry harrives =>
    constructor
    · simp [Phased,hlength]
    · intro task phase p hphase hp
      obtain hphase | ⟨hk,hphase⟩ := @getElem?_extended _ _ (some (P.start entry)) _ _ hphase
      · have hlt : task < seen.config.tasks.length :=
          hlength ▸ (List.getElem?_eq_some_iff.mp hphase).1
        rw [List.getElem?_append_left hlt] at hp
        exact hfollows task phase p hphase hp
      · cases hphase
        rw [hlength] at hk
        subst hk
        rw [List.getElem?_append_right (Nat.le_refl _),Nat.sub_self] at hp
        cases hp
        exact hbody entry
  | performed task choice phase o rest world r started htask hphase hp =>
    constructor
    · cases started <;> simp [Phased,hlength]
    · intro other phase' p hphase' hprog
      obtain ⟨rfl,rfl⟩ | ⟨hne,hother⟩ | ⟨hk,hstarted⟩ := getElem?_moved hphase'
      · rw [getElem?_moved_self htask] at hprog
        cases hprog
        exact (hfollows other phase _ hphase htask).2 _ r ⟨choice,other,_,_,world,started,hp,rfl⟩
      · have hlt : other < seen.config.tasks.length :=
          hlength ▸ (List.getElem?_eq_some_iff.mp hother).1
        rw [getElem?_moved_other hne (List.getElem?_eq_getElem hlt)] at hprog
        cases hprog
        exact hfollows other phase' _ hother (List.getElem?_eq_getElem hlt)
      · obtain ⟨entry,rfl,rfl⟩ := Option.map_eq_some_iff.mp hstarted
        rw [hk,hlength,List.getElem?_append_right (Nat.le_of_eq (List.length_set ..)),
          List.length_set,Nat.sub_self] at hprog
        cases hprog
        exact hbody entry

/-- Without tasks there is nothing to follow. -/
theorem conforms_initial {config : R.system.Config} (h : config.tasks=[]) :
    (initial P config).Conforms := by
  constructor
  · rw [Phased,initial,h]
    rfl
  · intro task phase p hphase
    cases hphase

/-- A moment of a run: what a move finds, and the move. -/
abbrev Moment (P : Watcher R) : Type := Seen P×R.system.Move

section Induction

variable {config : R.system.Config} {F Q : List (Moment P) → Moment P → Prop} {seen : Seen P}
  {moves : List R.system.Move}

/-- The induction over a run: what is known of the start and of the moments so far
is known at the end. -/
theorem along (hbody : ∀ entry,P.Follows (fun phase _ => P.ends phase) (P.start entry)
    (R.body entry)) (hconfig : config.tasks=[]) {I : List (Moment P) → Seen P → Prop}
    (hstep : ∀ {history} {seen seen' : Seen P} {move},config.Reaches seen.config →
      seen.Conforms → I history seen → F history (seen,move) → Moved seen move seen' →
      I (history++[(seen,move)]) seen')
    (hrun : (initial P config).run moves=some seen)
    (hfits : Meets F ((initial P config).moments moves)) (h : I [] (initial P config)) :
    I ((initial P config).moments moves) seen ∧ config.Reaches seen.config ∧ seen.Conforms := by
  have hfrom : ∀ (moves : List R.system.Move) (history : List (Moment P)) (first : Seen P),
      config.Reaches first.config → first.Conforms → I history first →
      first.run moves=some seen → MeetsFrom F history (first.moments moves) →
      I (history++first.moments moves) seen ∧ config.Reaches seen.config ∧ seen.Conforms := by
    intro moves
    induction moves with
    | nil =>
      intro history first hreach hconforms hi hrun _
      cases hrun
      rw [moments,List.append_nil]
      exact ⟨hi,hreach,hconforms⟩
    | cons move moves ih =>
      rintro history first ⟨earlier,hearlier⟩ hconforms hi hrun hfits
      obtain ⟨second,hs,hrest⟩ := Option.bind_eq_some_iff.mp hrun
      simp only [moments,hs] at hfits ⊢
      obtain ⟨hf,hlater⟩ := hfits
      have hmoved := moved hconforms.phased hs
      have hnext := hstep ⟨earlier,hearlier⟩ hconforms hi hf hmoved
      obtain ⟨config',hc,rfl⟩ := Option.map_eq_some_iff.mp hs
      have hreach := System.Config.run_concat hearlier hc
      have hall := ih _ _ ⟨_,hreach⟩ (hconforms.step hbody hmoved) hnext hrest hlater
      rwa [List.append_assoc] at hall
  exact hfrom moves [] (initial P config) ⟨[],rfl⟩ (conforms_initial hconfig) h hrun hfits

/-- A condition that concerns each moment alone. -/
theorem meets_of_forall {F : Moment P → Prop} {history : List (Moment P)}
    (h : ∀ moment∈history,F moment) : Meets (fun _ => F) history := by
  apply meets_of_splits
  rintro earlier moment later rfl
  exact h moment (List.mem_append_right _ List.mem_cons_self)

/-- The same for what is known of the end alone. -/
theorem invariant (hbody : ∀ entry,P.Follows (fun phase _ => P.ends phase) (P.start entry)
    (R.body entry)) (hconfig : config.tasks=[]) {I : Seen P → Prop}
    {F : Seen P → R.system.Move → Prop}
    (hstep : ∀ {seen seen' : Seen P} {move},config.Reaches seen.config → seen.Conforms →
      I seen → F seen move → Moved seen move seen' → I seen')
    (hrun : (initial P config).run moves=some seen)
    (hfits : ∀ moment∈(initial P config).moments moves,F moment.1 moment.2)
    (h : I (initial P config)) : I seen ∧ seen.Conforms := by
  have hall := along (F := fun _ moment => F moment.1 moment.2) hbody hconfig
    (I := fun _ seen => I seen) hstep hrun (meets_of_forall hfits) h
  exact ⟨hall.1,hall.2.2⟩

/-- What follows at each moment from what came before it holds of all moments. -/
theorem meets_of_moments (h : ∀ {moves₁ : List R.system.Move} {seen₁ seen₂ : Seen P} {move},
      (initial P config).run moves₁=some seen₁ → seen₁.step move=some seen₂ →
      Meets F ((initial P config).moments moves₁) →
      F ((initial P config).moments moves₁) (seen₁,move) →
      Q ((initial P config).moments moves₁) (seen₁,move))
    (hrun : (initial P config).run moves=some seen)
    (hfits : Meets F ((initial P config).moments moves)) :
    Meets Q ((initial P config).moments moves) := by
  apply meets_of_splits
  rintro earlier ⟨seen₁,move⟩ later hsplit
  obtain ⟨moves₁,moves₂,seen₂,-,hrun₁,rfl,hmove,-,-⟩ := split hrun hsplit
  rw [hsplit] at hfits
  exact h hrun₁ hmove (hfits.before ⟨_,rfl⟩) hfits.at

end Induction

end Seen

/-- An operation of a run: who performs it in which phase, and how it turns out. -/
structure Performed (P : Watcher R) where
  /-- The task. -/
  task : ℕ
  /-- Its phase. -/
  phase : P.Phase
  /-- The operation. -/
  op : Op L
  /-- It takes effect. -/
  effective : Bool
  /-- Its result. -/
  result : Except L.Exc op.Res

namespace Seen

variable {P : Watcher R}

/-- What a move performs. -/
def performed (seen : Seen P) : R.system.Move → Option (Performed P)
  | .open _ => none
  | .run task choice =>
    match seen.config.tasks[task]?,seen.phases[task]? with
    | some (.op o _),some phase =>
      (WatchedKey.perform choice task seen.config.tasks.length o seen.config.world).map
        fun outcome => ⟨task,phase,o,took choice o seen.config.world,outcome.2.1⟩
    | _,_ => none

/-- A task that moves performs its next operation. -/
theorem performed_eq {seen : Seen P} {task : ℕ} {choice : Choice} {phase : P.Phase} {o : Op L}
    {rest : Except L.Exc o.Res → Prog L.sig Unit} {world : World R} {r : Except L.Exc o.Res}
    {started : Option R.Entry} (htask : seen.config.tasks[task]?=some (.op o rest))
    (hphase : seen.phases[task]?=some phase)
    (hp : WatchedKey.perform choice task seen.config.tasks.length o seen.config.world=
      some (world,r,started)) :
    seen.performed (.run task choice)=
      some ⟨task,phase,o,took choice o seen.config.world,r⟩ := by
  simp only [performed,htask,hphase,hp]
  rfl

/-- What a move performs is the next operation of a task, in the phase of that task. -/
theorem performed_cases {seen : Seen P} {move : R.system.Move} {performed : Performed P}
    (h : seen.performed move=some performed) :
    seen.phases[performed.task]?=some performed.phase ∧
      ∃ rest,seen.config.tasks[performed.task]?=some (.op performed.op rest) := by
  cases move with
  | «open» entry => cases h
  | run task choice =>
    simp only [Seen.performed] at h
    split at h
    · next o rest phase htask hphase =>
      obtain ⟨outcome,-,rfl⟩ := Option.map_eq_some_iff.mp h
      exact ⟨hphase,rest,htask⟩
    · cases h

end Seen

end KiClash.TaskPhases

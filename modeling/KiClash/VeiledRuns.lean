import KiClash.VeiledPrograms
import KiClash.WatchedKeyRules
import Mathlib.Data.List.Forall2

/-!
# Two runs that look alike

A library for showing that an observer of tasks over a watched key cannot tell
two runs apart that differ in one input of one task. Up to the transaction that
writes the input, the runs have the same key and the same memory, and all other
tasks are the same. From then on they have values that look alike, and the
tasks stay alike as long as the secret stays covered.
-/

namespace KiClash.VeiledRuns

open AsyncTasks WatchedKey

variable {L : Language} {V : Veil L} {R : Runtime L} {α : Type}

/-- The runtime does not show the observer what is hidden. -/
structure Conceals (V : Veil L) (R : Runtime L) : Prop where
  /-- Commands are interrupted whatever they write. -/
  store : ∀ memory task (o o' : StoreOp L.Value L.Call),
    R.interrupt memory task (.store o)=R.interrupt memory task (.store o') ∧
      R.unavoidable memory task (.store o)=R.unavoidable memory task (.store o')
  /-- Hidden actions are interrupted alike. -/
  action : ∀ {o o'},V.hides o o' → ∀ memory task,
    R.interrupt memory task (.act o)=R.interrupt memory task (.act o') ∧
      R.unavoidable memory task (.act o)=R.unavoidable memory task (.act o')
  /-- Hidden actions differ in their notes alone. -/
  act : ∀ {o o'},V.hides o o' → ∀ pick task fresh memory,
    (R.act pick task fresh o memory).1=(R.act pick task fresh o' memory).1 ∧
      HEq (R.act pick task fresh o memory).2.2.1 (R.act pick task fresh o' memory).2.2.1 ∧
      (R.act pick task fresh o memory).2.2.2=(R.act pick task fresh o' memory).2.2.2

section Moves

variable {config config₁ : R.system.Config}

/-- The environment starts a task. -/
theorem step_open {entry : R.Entry} (h : config.step (.open entry)=some config₁) :
    R.arrives entry=true ∧ config₁=⟨config.world.log
      (.note (R.started config.tasks.length entry)),config.tasks++[R.body entry]⟩ := by
  obtain ⟨world,hw,rfl⟩ := Option.map_eq_some_iff.mp h
  change WatchedKey.arrive _ _ _=some _ at hw
  unfold WatchedKey.arrive at hw
  split at hw
  · next harrives =>
    cases hw
    exact ⟨harrives,rfl⟩
  · cases hw

/-- It can start it in every configuration. -/
theorem open_step {entry : R.Entry} (harrives : R.arrives entry=true) (config : R.system.Config) :
    config.step (.open entry)=some ⟨config.world.log
      (.note (R.started config.tasks.length entry)),config.tasks++[R.body entry]⟩ := by
  simp only [System.Config.step,WatchedKey.arrive,if_pos harrives]
  rfl

/-- A task performs an operation. -/
theorem step_run {task : ℕ} {choice : Choice} (h : config.step (.run task choice)=some config₁) :
    ∃ (o : Op L) (next : Except L.Exc o.Res → Prog L.sig Unit) (world₁ : World R)
      (r : Except L.Exc o.Res) (started : Option R.Entry),
      config.tasks[task]?=some (.op o next) ∧
      WatchedKey.perform choice task config.tasks.length o config.world=
        some (world₁,r,started) ∧
      config₁=⟨world₁,config.tasks.set task (next r)++(started.map R.body).toList⟩ := by
  simp only [System.Config.step] at h
  split at h
  · next o next htask =>
    obtain ⟨⟨world₁,r,started⟩,hp,rfl⟩ := Option.map_eq_some_iff.mp h
    exact ⟨o,next,world₁,r,started,htask,hp,rfl⟩
  · cases h

/-- It performs it wherever it can be performed. -/
theorem run_step {task : ℕ} {choice : Choice} {o : Op L}
    {next : Except L.Exc o.Res → Prog L.sig Unit} {world₁ : World R} {r : Except L.Exc o.Res}
    {started : Option R.Entry} (htask : config.tasks[task]?=some (.op o next))
    (hp : WatchedKey.perform choice task config.tasks.length o config.world=
      some (world₁,r,started)) :
    config.step (.run task choice)=some
      ⟨world₁,config.tasks.set task (next r)++(started.map R.body).toList⟩ := by
  simp only [System.Config.step,htask]
  exact Option.map_eq_some_iff.mpr ⟨_,hp,rfl⟩

end Moves

section Worlds

/-- Worlds with related values under the key and the same versions and memories. -/
structure SameWorld (S : Option L.Value → Option L.Value → Prop) (world world' : World R) :
    Prop where
  /-- The values under the key. -/
  value : S world.value world'.value
  /-- The numbers of writes. -/
  version : world'.version=world.version
  /-- The memories. -/
  memory : world'.memory=world.memory

/-- Worlds that differ in their records alone. -/
abbrev Twin (world world' : World R) : Prop := SameWorld Eq world world'

/-- Values under the key that look alike. -/
def SameKey (V : Veil L) : Option L.Value → Option L.Value → Prop
  | none,none => True
  | some value,some value' => V.looksLike value value'
  | _,_ => False

variable {S : Option L.Value → Option L.Value → Prop} {world world' : World R} {task fresh : ℕ}

/-- An exception reaches a task in both worlds. -/
theorem SameWorld.deliver (h : SameWorld S world world') (exc : L.Exc) :
    SameWorld S (world.deliver task exc) (world'.deliver task exc) where
  value := h.value
  version := h.version
  memory := by
    change R.deliver task exc world'.memory=_
    rw [h.memory]
    rfl

/-- Both worlds record something. -/
theorem SameWorld.log (h : SameWorld S world world')
    (event event' : Event L.Value L.Call R.Note) :
    SameWorld S (world.log event) (world'.log event') := ⟨h.value,h.version,h.memory⟩

/-- Both worlds are written to. -/
theorem SameWorld.commit {S' : Option L.Value → Option L.Value → Prop}
    (h : SameWorld S world world') {call call' : L.Call} {value value' : L.Value}
    (hvalue : S' (some value) (some value')) :
    SameWorld S' (world.commit task call value) (world'.commit task call' value') :=
  ⟨hvalue,congrArg (· + 1) h.version,h.memory⟩

/-- The key is removed in both worlds. -/
theorem SameWorld.delete (h : SameWorld S world world') (hnone : S none none)
    (hboth : world.value=none ↔ world'.value=none) :
    SameWorld S (world.delete task) (world'.delete task) := by
  unfold World.delete
  cases hv : world.value with
  | none =>
    rw [hboth.mp hv]
    exact h
  | some value =>
    cases hv' : world'.value with
    | none => rw [hboth.mpr hv'] at hv; cases hv
    | some value' => exact ⟨hnone,congrArg (· + 1) h.version,h.memory⟩

/-- Hidden actions of the same task leave worlds that are as alike as before. -/
theorem SameWorld.hidden (hc : Conceals V R) (h : SameWorld S world world') (pick : Bool)
    (task fresh : ℕ) {o o' : L.Action} (ho : V.hides o o') :
    SameWorld S ((Op.act o).effect pick task fresh world).1
        ((Op.act o').effect pick task fresh world').1 ∧
      HEq ((Op.act o).effect pick task fresh world).2.1
        ((Op.act o').effect pick task fresh world').2.1 ∧
      ((Op.act o).effect pick task fresh world).2.2=
        ((Op.act o').effect pick task fresh world').2.2 := by
  obtain ⟨hvalue,hversion,hmemory⟩ := h
  obtain ⟨hm,hr,hs⟩ := hc.act ho pick task fresh world.memory
  simp only [Op.effect,hmemory]
  exact ⟨⟨hvalue,hversion,hm.symm⟩,hr,hs⟩

/-- The same action. -/
theorem SameWorld.act (h : SameWorld S world world') (pick : Bool) (task fresh : ℕ)
    (o : L.Action) :
    SameWorld S ((Op.act o).effect pick task fresh world).1
        ((Op.act o).effect pick task fresh world').1 ∧
      ((Op.act o).effect pick task fresh world).2=
        ((Op.act o).effect pick task fresh world').2 := by
  obtain ⟨hvalue,hversion,hmemory⟩ := h
  simp only [Op.effect,hmemory]
  exact ⟨⟨hvalue,hversion,rfl⟩,True.intro⟩

/-- The same operation in worlds that differ in their records alone. -/
theorem Twin.effect (h : Twin world world') (pick : Bool) (o : Op L) :
    Twin (o.effect pick task fresh world).1 (o.effect pick task fresh world').1 ∧
      (o.effect pick task fresh world).2=(o.effect pick task fresh world').2 := by
  cases o with
  | act o => exact SameWorld.act h pick task fresh o
  | store o =>
    obtain ⟨hvalue,hversion,hmemory⟩ := h
    cases o with
    | watch =>
      simp only [Op.effect,StoreOp.effect,hversion]
      exact ⟨⟨hvalue,hversion,hmemory⟩,True.intro⟩
    | unwatch => exact ⟨⟨hvalue,hversion,hmemory⟩,rfl⟩
    | get | load =>
      simp only [Op.effect,StoreOp.effect,← hvalue]
      exact ⟨⟨hvalue,hversion,hmemory⟩,True.intro⟩
    | exec token retriesLeft call value =>
      simp only [Op.effect,StoreOp.effect,hversion]
      split
      · exact ⟨SameWorld.commit ⟨hvalue,hversion,hmemory⟩ rfl,rfl⟩
      · exact ⟨⟨hvalue,hversion,hmemory⟩,rfl⟩
    | delete =>
      exact ⟨SameWorld.delete ⟨hvalue,hversion,hmemory⟩ rfl (by rw [hvalue]),rfl⟩
    | set onlyIfAbsent call value =>
      simp only [Op.effect,StoreOp.effect,← hvalue]
      split
      · exact ⟨⟨hvalue,hversion,hmemory⟩,rfl⟩
      · exact ⟨SameWorld.commit ⟨hvalue,hversion,hmemory⟩ rfl,rfl⟩

end Worlds

section Performed

variable {S T : Option L.Value → Option L.Value → Prop} {world world' : World R}
  {task fresh : ℕ}

/-- Two operations that can be interrupted in the same ways, and that have related effects, turn
out in related ways. -/
theorem SameWorld.perform (h : SameWorld S world world') {choice : Choice} {o o' : Op L}
    {Q : Except L.Exc o.Res → Except L.Exc o'.Res → Prop}
    (hinterrupt : R.interrupt world.memory task o=R.interrupt world.memory task o')
    (hunavoidable : R.unavoidable world.memory task o=R.unavoidable world.memory task o')
    (herror : ∀ exc,Q (.error exc) (.error exc)) {world₁ : World R} {r : Except L.Exc o.Res}
    {started : Option R.Entry}
    (hp : WatchedKey.perform choice task fresh o world=some (world₁,r,started))
    (heffect : ∀ pick,(world₁=(o.effect pick task fresh world).1 ∨ ∃ exc,
        world₁=(o.effect pick task fresh world).1.deliver task exc) →
      SameWorld T (o.effect pick task fresh world).1 (o'.effect pick task fresh world').1 ∧
      Q (o.effect pick task fresh world).2.1 (o'.effect pick task fresh world').2.1 ∧
      (o.effect pick task fresh world).2.2=(o'.effect pick task fresh world').2.2) :
    ∃ world₁' r',WatchedKey.perform choice task fresh o' world'=some (world₁',r',started) ∧
      (SameWorld T world₁ world₁' ∨ SameWorld S world₁ world₁') ∧ Q r r' := by
  cases choice with
  | proceed pick =>
    simp only [WatchedKey.perform] at hp ⊢
    rw [h.memory,← hunavoidable]
    split at hp
    · cases hp
    · next hfree =>
      rw [if_neg hfree]
      have he := Option.some.inj hp
      obtain ⟨hw,hq,hs⟩ := heffect pick (.inl (by rw [he]))
      rw [he] at hw hq hs
      exact ⟨_,_,congrArg some (Prod.ext rfl (Prod.ext rfl hs.symm)),.inl hw,hq⟩
  | raiseBefore =>
    simp only [WatchedKey.perform] at hp ⊢
    obtain ⟨exc,he,hp⟩ := Option.map_eq_some_iff.mp hp
    cases hp
    rw [h.memory,← hinterrupt,he]
    exact ⟨_,_,rfl,.inr (h.deliver exc),herror exc⟩
  | raiseAfter pick =>
    simp only [WatchedKey.perform] at hp ⊢
    rw [h.memory,← hinterrupt]
    split at hp
    · next exc he hstarted =>
      cases hp
      obtain ⟨hw,-,hs⟩ := heffect pick (.inr ⟨exc,rfl⟩)
      rw [he,← hs,hstarted]
      exact ⟨_,_,rfl,.inl (hw.deliver exc),herror exc⟩
    · cases hp

end Performed

section Alike

variable {world world' : World R} {task fresh : ℕ}

/-- Values that look alike are read by programs that stay alike. -/
theorem SameKey.read {value value' : Option L.Value}
    {next next' : Except L.Exc (Option L.Value) → Prog L.sig α} (h : SameKey V value value')
    (hnone : Alike V (next (.ok none)) (next' (.ok none)))
    (hsome : ∀ value value',V.looksLike value value' →
      Alike V (next (.ok (some value))) (next' (.ok (some value')))) :
    Alike V (next (.ok value)) (next' (.ok value')) := by
  cases value with
  | none =>
    cases value' with
    | none => exact hnone
    | some value' => exact h.elim
  | some value =>
    cases value' with
    | none => exact h.elim
    | some value' => exact hsome value value' h

/-- Values that look alike are there or not. -/
theorem SameKey.none_iff {value value' : Option L.Value} (h : SameKey V value value') :
    value=none ↔ value'=none := by
  cases value with
  | none =>
    cases value' with
    | none => simp
    | some value' => exact h.elim
  | some value =>
    cases value' with
    | none => exact h.elim
    | some value' => simp

variable {o o' : Op L} {next : Except L.Exc o.Res → Prog L.sig α}
  {next' : Except L.Exc o'.Res → Prog L.sig α}

/-- Alike programs can be interrupted in the same ways. -/
theorem Alike.interrupt (hc : Conceals V R) (h : Alike V (.op o next) (.op o' next'))
    (memory : R.Memory) (task : ℕ) :
    R.interrupt memory task o=R.interrupt memory task o' ∧
      R.unavoidable memory task o=R.unavoidable memory task o' := by
  cases h with
  | act | command | get | load => exact ⟨rfl,rfl⟩
  | hidden ho => exact hc.action ho memory task
  | exec => exact hc.store memory task _ _

/-- Alike programs go on alike after an exception. -/
theorem Alike.error (h : Alike V (.op o next) (.op o' next')) (exc : L.Exc) :
    Alike V (next (.error exc)) (next' (.error exc)) := by
  cases h with
  | act _ hnext => exact hnext _
  | hidden ho hnext => exact hnext _ _ (V.heq_error ho exc)
  | command _ hnext => exact hnext _
  | get _ _ herror => exact herror exc
  | load _ _ herror => exact herror exc
  | exec _ _ _ herror => exact herror exc

/-- What alike programs do next leaves alike programs in worlds that look alike. -/
theorem Alike.effect (hc : Conceals V R) (h : SameWorld (SameKey V) world world') (pick : Bool)
    (halike : Alike V (.op o next) (.op o' next'))
    (hcovered : ∀ value∈(o.effect pick task fresh world).1.value,V.covered value) :
    SameWorld (SameKey V) (o.effect pick task fresh world).1 (o'.effect pick task fresh world').1 ∧
      Alike V (next (o.effect pick task fresh world).2.1)
        (next' (o'.effect pick task fresh world').2.1) ∧
      (o.effect pick task fresh world).2.2=(o'.effect pick task fresh world').2.2 := by
  have hsame := h
  obtain ⟨hvalue,hversion,hmemory⟩ := h
  cases halike with
  | act o hnext =>
    obtain ⟨hw,he⟩ := hsame.act pick task fresh o
    rw [he]
    exact ⟨hw,hnext _,rfl⟩
  | hidden ho hnext =>
    obtain ⟨hw,hr,hs⟩ := hsame.hidden hc pick task fresh ho
    exact ⟨hw,hnext _ _ hr,hs⟩
  | @command o _ _ ho hnext =>
    cases o with
    | watch =>
      simp only [Op.effect,StoreOp.effect,hversion]
      exact ⟨hsame,hnext _,True.intro⟩
    | unwatch => exact ⟨hsame,hnext _,rfl⟩
    | delete => exact ⟨hsame.delete True.intro hvalue.none_iff,hnext _,rfl⟩
    | get | load | exec | set => exact ho.elim
  | get hnone hsome herror => exact ⟨hsame,hvalue.read hnone hsome,rfl⟩
  | load hnone hsome herror => exact ⟨hsame.log _ _,hvalue.read hnone hsome,rfl⟩
  | exec hlike hcommit hconflict herror =>
    simp only [Op.effect,StoreOp.effect,hversion] at hcovered ⊢
    split
    · next htoken =>
      rw [if_pos htoken] at hcovered
      have hc := hcovered _ rfl
      exact ⟨hsame.commit (hlike hc),hcommit hc,True.intro⟩
    · exact ⟨hsame.log _ _,hconflict,True.intro⟩

/-- Whatever way the operation turns out. -/
theorem Alike.perform (hc : Conceals V R) (h : SameWorld (SameKey V) world world')
    {choice : Choice} (halike : Alike V (.op o next) (.op o' next')) {world₁ : World R}
    {r : Except L.Exc o.Res} {started : Option R.Entry}
    (hp : WatchedKey.perform choice task fresh o world=some (world₁,r,started))
    (hcovered : ∀ value∈world₁.value,V.covered value) :
    ∃ world₁' r',WatchedKey.perform choice task fresh o' world'=some (world₁',r',started) ∧
      SameWorld (SameKey V) world₁ world₁' ∧ Alike V (next r) (next' r') := by
  obtain ⟨hinterrupt,hunavoidable⟩ := halike.interrupt hc world.memory task
  obtain ⟨world₁',r',hp',hw | hw,hnext⟩ := h.perform (Q := fun r r' => Alike V (next r) (next' r'))
    hinterrupt hunavoidable halike.error hp fun pick hwhich =>
      halike.effect hc h pick (by
        rintro value hvalue
        obtain rfl | ⟨exc,rfl⟩ := hwhich
        · exact hcovered value hvalue
        · exact hcovered value hvalue)
  · exact ⟨world₁',r',hp',hw,hnext⟩
  · exact ⟨world₁',r',hp',hw,hnext⟩

end Alike

/-- The two operations look the same to the observer. -/
inductive SameOp (V : Veil L) : Op L → Op L → Prop
  | same (o : Op L) : SameOp V o o
  | hidden {o o' : L.Action} (h : V.hides o o') : SameOp V (.act o) (.act o')
  | exec {token retriesLeft : ℕ} {call call' : L.Call} {value value' : L.Value} :
      SameOp V (.store (.exec token retriesLeft call value))
        (.store (.exec token retriesLeft call' value'))

/-- The two programs have ended, or are about to do what looks the same. -/
inductive SameNext (V : Veil L) : Prog L.sig α → Prog L.sig α → Prop
  | done (r : Except L.Exc α) : SameNext V (.done r) (.done r)
  | op {o o' : Op L} {next : Except L.Exc o.Res → Prog L.sig α}
      {next' : Except L.Exc o'.Res → Prog L.sig α} (h : SameOp V o o') :
      SameNext V (.op o next) (.op o' next')

/-- The same program. -/
theorem SameNext.refl (p : Prog L.sig α) : SameNext V p p := by
  cases p with
  | done r => exact .done r
  | op o next => exact .op (.same o)

/-- Alike programs are about to do what looks the same. -/
theorem Alike.sameNext {p p' : Prog L.sig α} (h : Alike V p p') : SameNext V p p' := by
  cases h with
  | done r => exact .done r
  | act o | command | get | load => exact .op (.same _)
  | hidden ho => exact .op (.hidden ho)
  | exec => exact .op .exec

/-- So are those of the task that is poised to differ. -/
theorem Poised.sameNext {n : ℕ} {p p' : Prog L.sig α} (h : Poised V n p p') :
    SameNext V p p' := by
  cases h with
  | past => exact .refl p
  | op => exact .op (.same _)
  | input ho => exact .op (.hidden ho)
  | exec => exact .op .exec

section Lists

variable {γ δ : Type}

/-- Related lists have related members at the same place. -/
theorem forall₂_getElem? {S : γ → δ → Prop} {as : List γ} {bs : List δ} {k : ℕ} {a : γ}
    (h : List.Forall₂ S as bs) (ha : as[k]?=some a) : ∃ b,bs[k]?=some b ∧ S a b := by
  induction h generalizing k with
  | nil => cases ha
  | cons hab _ ih =>
    cases k with
    | zero =>
      cases ha
      exact ⟨_,rfl,hab⟩
    | succ k => exact ih ha

/-- Related members put at the same place leave related lists. -/
theorem forall₂_set {S : γ → δ → Prop} {as : List γ} {bs : List δ} (k : ℕ) {a : γ} {b : δ}
    (h : List.Forall₂ S as bs) (hab : S a b) : List.Forall₂ S (as.set k a) (bs.set k b) := by
  induction h generalizing k with
  | nil => exact .nil
  | cons hab' htail ih =>
    cases k with
    | zero => exact .cons hab htail
    | succ k => exact .cons hab' (ih k)

/-- Where a list comes from in which a member has been replaced and others have been added. -/
theorem getElem?_set_append {as added : List γ} {k i : ℕ} {a b : γ}
    (h : (as.set k a++added)[i]?=some b) :
    (i=k ∧ b=a) ∨ (i≠k ∧ as[i]?=some b) ∨ b∈added := by
  by_cases hi : i<(as.set k a).length
  · rw [List.getElem?_append_left hi] at h
    by_cases he : i=k
    · subst he
      rw [List.getElem?_set_self (by simpa using hi)] at h
      exact .inl ⟨rfl,(Option.some.inj h).symm⟩
    · rw [List.getElem?_set_ne (Ne.symm he)] at h
      exact .inr (.inl ⟨he,h⟩)
  · rw [List.getElem?_append_right (by omega)] at h
    exact .inr (.inr (List.mem_of_getElem? h))

end Lists

/-- Configurations that look alike. -/
structure SameConfig (V : Veil L) (config config' : R.system.Config) : Prop where
  /-- The world. -/
  world : SameWorld (SameKey V) config.world config'.world
  /-- What the tasks have left to do. -/
  tasks : List.Forall₂ (Alike V) config.tasks config'.tasks

/-- A move leaves configurations that look alike while the secret stays covered. -/
theorem SameConfig.step (hc : Conceals V R) (hbody : ∀ entry,Tame V True (R.body entry))
    {config config' config₁ : R.system.Config} (h : SameConfig V config config')
    {move : R.system.Move} (hs : config.step move=some config₁)
    (hcovered : ∀ value∈config₁.world.value,V.covered value) :
    ∃ config₁',config'.step move=some config₁' ∧ SameConfig V config₁ config₁' := by
  obtain ⟨hworld,htasks⟩ := h
  have hlength : config'.tasks.length=config.tasks.length := htasks.length_eq.symm
  cases move with
  | «open» entry =>
    obtain ⟨harrives,rfl⟩ := step_open hs
    exact ⟨_,open_step harrives config',hworld.log _ _,
      List.rel_append htasks (.cons (hbody entry).alike .nil)⟩
  | run task choice =>
    obtain ⟨o,next,world₁,r,started,htask,hp,rfl⟩ := step_run hs
    obtain ⟨p',htask',halike⟩ := forall₂_getElem? htasks htask
    cases halike.sameNext with
    | @op _ o' _ next' hop =>
      obtain ⟨world₁',r',hp',hw,hnext⟩ := halike.perform hc hworld hp hcovered
      rw [← hlength] at hp'
      have hstarted : List.Forall₂ (Alike V) (started.map R.body).toList
          (started.map R.body).toList := by
        cases started with
        | none => exact .nil
        | some entry => exact .cons (hbody entry).alike .nil
      exact ⟨_,run_step htask' hp',hw,List.rel_append (forall₂_set task htasks hnext) hstarted⟩

section Records

variable {world world₁ : World R} {task fresh : ℕ} {choice : Choice} {o : Op L}
  {r : Except L.Exc o.Res} {started : Option R.Entry}

/-- What lies under the key has been there before or has just been written. -/
theorem value_perform (hp : perform choice task fresh o world=some (world₁,r,started)) :
    ∃ events,world₁.trace=world.trace++events ∧ ∀ value∈world₁.value,
      value∈world.value ∨ ∃ call before,.commit task call before value∈events := by
  have heffect : ∀ pick,∃ events,(o.effect pick task fresh world).1.trace=world.trace++events ∧
      ∀ value∈(o.effect pick task fresh world).1.value,
        value∈world.value ∨ ∃ call before,.commit task call before value∈events := by
    intro pick
    cases o with
    | act o => exact ⟨_,rfl,fun value hv => .inl hv⟩
    | store o =>
      cases o with
      | watch | unwatch | get => exact ⟨[],(List.append_nil _).symm,fun value hv => .inl hv⟩
      | load => exact ⟨_,rfl,fun value hv => .inl hv⟩
      | exec token retriesLeft call value =>
        simp only [Op.effect,StoreOp.effect]
        split
        · refine ⟨_,rfl,?_⟩
          rintro _ ⟨⟩
          exact .inr ⟨_,_,List.mem_singleton.mpr rfl⟩
        · exact ⟨_,rfl,fun value hv => .inl hv⟩
      | delete =>
        simp only [Op.effect,StoreOp.effect,World.delete]
        split
        · exact ⟨[],(List.append_nil _).symm,fun value hv => .inl hv⟩
        · exact ⟨_,rfl,fun value hv => absurd hv (Option.not_mem_none value)⟩
      | set onlyIfAbsent call value =>
        simp only [Op.effect,StoreOp.effect]
        split
        · exact ⟨[],(List.append_nil _).symm,fun value hv => .inl hv⟩
        · refine ⟨_,rfl,?_⟩
          rintro _ ⟨⟩
          exact .inr ⟨_,_,List.mem_singleton.mpr rfl⟩
  obtain ⟨pick,-,he⟩ | ⟨exc,-,-,-,rfl | ⟨pick,-,rfl⟩⟩ := perform_cases hp
  · have h := heffect pick
    rwa [he] at h
  · exact ⟨_,rfl,fun value hv => .inl hv⟩
  · obtain ⟨events,ht,hv⟩ := heffect pick
    refine ⟨events++[.note (R.raised task exc)],?_,?_⟩
    · change _++_=_
      rw [ht,List.append_assoc]
    · intro value hvalue
      obtain hbefore | ⟨call,before,hin⟩ := hv value hvalue
      · exact .inl hbefore
      · exact .inr ⟨call,before,List.mem_append_left _ hin⟩

end Records

/-- What a transaction writes has the secret in it. -/
def Covers (V : Veil L) {Note : Type} : Event L.Value L.Call Note → Prop
  | .commit _ _ _ after => V.covered after
  | _ => True

section Observers

variable {K M : Type} {config config' config₁ : R.system.Config}

/-- The operation takes effect. -/
def takesEffect : Choice → Bool
  | .proceed _ => true
  | .raiseBefore => false
  | .raiseAfter _ => true

/-- Somebody who sees some of what the tasks do; which tasks the environment has started may
matter. -/
structure Observer (R : Runtime L) (K M : Type) where
  /-- What is known once the environment has started this task. -/
  opened : ℕ → R.Entry → K → K
  /-- What is seen of an operation of a task. -/
  sees : K → ℕ → Op L → List M

variable (O : Observer R K M)

/-- What is known after a move. -/
def Observer.knows (known : K) (config : R.system.Config) : R.system.Move → K
  | .open entry => O.opened config.tasks.length entry known
  | .run _ _ => known

/-- What is seen of a move. -/
def Observer.seesMove (known : K) (config : R.system.Config) : R.system.Move → List M
  | .open _ => []
  | .run task choice =>
    match config.tasks[task]? with
    | some (.op o _) => if takesEffect choice then O.sees known task o else []
    | _ => []

/-- What is seen of a run. -/
def Observer.seen : K → R.system.Config → List R.system.Move → List M
  | _,_,[] => []
  | known,config,move::moves =>
    match config.step move with
    | none => []
    | some config' =>
      O.seesMove known config move++seen (O.knows known config move) config' moves

variable {O}

/-- A run in two parts. -/
theorem Observer.seen_cons {known : K} {move : R.system.Move} {moves : List R.system.Move}
    (hs : config.step move=some config₁) :
    O.seen known config (move::moves)=
      O.seesMove known config move++O.seen (O.knows known config move) config₁ moves := by
  simp only [Observer.seen,hs]

/-- A run that is continued by other moves. -/
theorem run_append {moves rest : List R.system.Move} {final : R.system.Config}
    (h : config.run (moves++rest)=some final) (hrun : config.run moves=some config₁) :
    config₁.run rest=some final := by
  induction moves generalizing config with
  | nil =>
    cases hrun
    exact h
  | cons move moves ih =>
    obtain ⟨config₂,hs,hrest⟩ := Option.bind_eq_some_iff.mp hrun
    obtain ⟨config₃,hs',hrest'⟩ := Option.bind_eq_some_iff.mp h
    rw [hs] at hs'
    obtain rfl := Option.some.inj hs'
    exact ih hrest' hrest

/-- Runs with the same beginning are seen alike if they are seen alike after it. -/
theorem Observer.seen_append {moves rest rest' : List R.system.Move}
    (hrun : config.run moves=some config₁)
    (h : ∀ known,O.seen known config₁ rest=O.seen known config₁ rest') (known : K) :
    O.seen known config (moves++rest)=O.seen known config (moves++rest') := by
  induction moves generalizing config known with
  | nil =>
    cases hrun
    exact h known
  | cons move moves ih =>
    obtain ⟨config₂,hs,hrest⟩ := Option.bind_eq_some_iff.mp hrun
    rw [List.cons_append,List.cons_append,O.seen_cons hs,O.seen_cons hs,ih hrest]

/-- The tasks of both configurations are about to do what looks the same. -/
structure SameSight (V : Veil L) (config config' : R.system.Config) : Prop where
  /-- There are as many. -/
  length : config'.tasks.length=config.tasks.length
  /-- Each of them. -/
  tasks : ∀ (task : ℕ) (p : Prog L.sig Unit),config.tasks[task]?=some p →
    ∃ p',config'.tasks[task]?=some p' ∧ SameNext V p p'

/-- So it is in configurations that look alike. -/
theorem SameConfig.sameSight (h : SameConfig V config config') : SameSight V config config' where
  length := h.tasks.length_eq.symm
  tasks := by
    intro task p hp
    obtain ⟨p',hp',halike⟩ := forall₂_getElem? h.tasks hp
    exact ⟨p',hp',halike.sameNext⟩

/-- A move looks the same. -/
theorem SameSight.seesMove (h : SameSight V config config')
    (hsees : ∀ known task o o',SameOp V o o' → O.sees known task o=O.sees known task o')
    (known : K) (move : R.system.Move) :
    O.seesMove known config move=O.seesMove known config' move ∧
      O.knows known config move=O.knows known config' move := by
  cases move with
  | «open» entry => exact ⟨rfl,by simp only [Observer.knows,h.length]⟩
  | run task choice =>
    refine ⟨?_,rfl⟩
    simp only [Observer.seesMove]
    cases hp : config.tasks[task]? with
    | none =>
      have hlen := List.getElem?_eq_none_iff.mp hp
      rw [← h.length] at hlen
      rw [List.getElem?_eq_none_iff.mpr hlen]
    | some p =>
      obtain ⟨p',hp',hnext⟩ := h.tasks task p hp
      rw [hp']
      cases hnext with
      | done r => rfl
      | op hop => simp only [hsees known task _ _ hop]

/-- What a move records, and what it leaves under the key. -/
theorem value_step {move : R.system.Move} (hs : config.step move=some config₁) :
    ∃ events,config₁.world.trace=config.world.trace++events ∧ ∀ value∈config₁.world.value,
      value∈config.world.value ∨ ∃ task call before,.commit task call before value∈events := by
  cases move with
  | «open» entry =>
    obtain ⟨-,rfl⟩ := step_open hs
    exact ⟨_,rfl,fun value hv => .inl hv⟩
  | run task choice =>
    obtain ⟨o,next,world₁,r,started,-,hp,rfl⟩ := step_run hs
    obtain ⟨events,ht,hv⟩ := value_perform hp
    exact ⟨events,ht,fun value hvalue => (hv value hvalue).imp id fun h => ⟨task,h⟩⟩

/-- A run only adds to the record. -/
theorem trace_run {moves : List R.system.Move} {final : R.system.Config}
    (h : config.run moves=some final) : ∃ later,final.world.trace=config.world.trace++later := by
  induction moves generalizing config with
  | nil =>
    cases h
    exact ⟨[],(List.append_nil _).symm⟩
  | cons move moves ih =>
    obtain ⟨config₁,hs,hrest⟩ := Option.bind_eq_some_iff.mp h
    obtain ⟨events,ht,-⟩ := value_step hs
    obtain ⟨later,hl⟩ := ih hrest
    exact ⟨events++later,by rw [hl,ht,List.append_assoc]⟩

variable {moves : List R.system.Move} {last : R.system.Move}
  {final final' end' end₁ : R.system.Config} {known : K}

/-- Runs that look alike are seen alike, up to the first move that uncovers the secret. -/
theorem SameConfig.seen (hc : Conceals V R) (hbody : ∀ entry,Tame V True (R.body entry))
    (hsees : ∀ known task o o',SameOp V o o' → O.sees known task o=O.sees known task o')
    (h : SameConfig V config config') (hcovered : ∀ value∈config.world.value,V.covered value)
    (hrun : config.run moves=some final) (hrun' : config'.run moves=some final')
    (hlast : final.step last=some end₁) (hlast' : final'.step last=some end')
    (hcovers : ∀ later,final.world.trace=config.world.trace++later →
      ∀ event∈later,Covers V event) :
    O.seen known config (moves++[last])=O.seen known config' (moves++[last]) := by
  induction moves generalizing config config' known with
  | nil =>
    cases hrun
    cases hrun'
    rw [List.nil_append,O.seen_cons hlast,O.seen_cons hlast',
      (h.sameSight.seesMove hsees known last).1]
    rfl
  | cons move moves ih =>
    obtain ⟨config₁,hs,hrest⟩ := Option.bind_eq_some_iff.mp hrun
    obtain ⟨config₁',hs',hrest'⟩ := Option.bind_eq_some_iff.mp hrun'
    obtain ⟨events,ht,hvalue⟩ := value_step hs
    obtain ⟨later,hl⟩ := trace_run hrest
    have hall := hcovers (events++later) (by rw [hl,ht,List.append_assoc])
    have hcovered₁ : ∀ value∈config₁.world.value,V.covered value := by
      intro value hv
      obtain hbefore | ⟨task,call,before,hin⟩ := hvalue value hv
      · exact hcovered value hbefore
      · exact hall _ (List.mem_append_left _ hin)
    obtain ⟨config₂,hs₂,hsame⟩ := h.step hc hbody hs hcovered₁
    rw [hs'] at hs₂
    obtain rfl := Option.some.inj hs₂
    obtain ⟨hmove,hknows⟩ := h.sameSight.seesMove hsees known move
    rw [List.cons_append,O.seen_cons hs,O.seen_cons hs',hmove,hknows,
      ih hsame hcovered₁ hrest hrest' fun later' hl' => ?_]
    intro event hin
    have he : later'=later := List.append_cancel_left (hl'.symm.trans hl)
    exact hall event (List.mem_append_right _ (he ▸ hin))

end Observers

end KiClash.VeiledRuns

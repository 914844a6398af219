import KiClash.AsyncContracts
import KiClash.WatchedKey

/-!
# Proof rules for tasks over one watched key

The store commands get one rule each. The point of WATCH is in the rules for
GET and EXEC: what GET has read is still under the key when EXEC writes. A
contract that speaks only about the key and the record gets the rules for
actions and interruptions from the events that they append.
-/

namespace KiClash.WatchedKey

open AsyncTasks AsyncContracts

variable {L : Language} {R : Runtime L} {α : Type}

/-- What any number of operations does to the key and the record: versions
count the writes, and the record only grows. -/
structure Advances (world world' : World R) : Prop where
  /-- The version never goes back. -/
  version : world.version≤world'.version
  /-- An unchanged version means an unchanged value. -/
  value : world'.version=world.version → world'.value=world.value
  /-- Nothing is removed from the record. -/
  trace : world.trace <+: world'.trace

namespace Advances

/-- Nothing has happened. -/
theorem refl (world : World R) : Advances world world := ⟨Nat.le_refl _,fun _ => rfl,List.prefix_rfl⟩

/-- One thing after the other. -/
theorem trans {world₁ world₂ world₃ : World R} (h : Advances world₁ world₂)
    (h' : Advances world₂ world₃) : Advances world₁ world₃ where
  version := Nat.le_trans h.version h'.version
  value he := by
    have h₂ : world₂.version=world₁.version := by
      have := h.version
      have := h'.version
      omega
    rw [h'.value (by omega),h.value h₂]
  trace := h.trace.trans h'.trace

/-- Recording an event leaves the key alone. -/
theorem log (world : World R) (event : Event L.Value L.Call R.Note) :
    Advances world (world.log event) := ⟨Nat.le_refl _,fun _ => rfl,List.prefix_append _ _⟩

/-- A write takes a new version. -/
theorem commit (world : World R) (task : ℕ) (call : L.Call) (value : L.Value) :
    Advances world (world.commit task call value) :=
  ⟨Nat.le_succ _,fun h => absurd h (Nat.succ_ne_self _),List.prefix_append _ _⟩

/-- So does a removal. -/
theorem delete (world : World R) (task : ℕ) : Advances world (world.delete task) := by
  unfold World.delete
  split
  · exact refl world
  · exact ⟨Nat.le_succ _,fun h => absurd h (Nat.succ_ne_self _),List.prefix_append _ _⟩

/-- A raised exception leaves the key alone. -/
theorem deliver (world : World R) (task : ℕ) (exc : L.Exc) :
    Advances world (world.deliver task exc) := ⟨Nat.le_refl _,fun _ => rfl,List.prefix_append _ _⟩

/-- An action leaves the key alone. -/
theorem acted (world : World R) (fresh : ℕ) (memory : R.Memory) (notes : List R.Note)
    (started : Option R.Entry) : Advances world (world.acted fresh memory notes started) :=
  ⟨Nat.le_refl _,fun _ => rfl,List.prefix_append _ _⟩

/-- Every operation advances the world. -/
theorem effect (pick : Bool) (task fresh : ℕ) (o : Op L) (world : World R) :
    Advances world (o.effect pick task fresh world).1 := by
  cases o with
  | act o => exact acted world fresh _ _ _
  | store o =>
    cases o with
    | watch => exact refl world
    | unwatch => exact refl world
    | get => exact refl world
    | load => exact log world _
    | delete => exact delete world task
    | exec token retriesLeft call value =>
      simp only [Op.effect,StoreOp.effect]
      split
      · exact commit world task call value
      · exact log world _
    | set onlyIfAbsent call value =>
      simp only [Op.effect,StoreOp.effect]
      split
      · exact refl world
      · exact commit world task call value

/-- However an operation turns out, it advances the world. -/
theorem perform {choice : Choice} {task fresh : ℕ} {o : Op L} {world world' : World R}
    {r : Except L.Exc o.Res} {started : Option R.Entry}
    (h : WatchedKey.perform choice task fresh o world=some (world',r,started)) :
    Advances world world' := by
  obtain ⟨pick,-,he⟩ | ⟨exc,-,-,-,rfl | ⟨pick,-,rfl⟩⟩ := perform_cases h
  · have ha := effect pick task fresh o world
    rwa [he] at ha
  · exact deliver world task exc
  · exact (effect pick task fresh o world).trans (deliver _ task exc)

end Advances

/-- The task can go from one world to the next without starting a task. -/
structure Lets (C : Contract R.system) (task count : ℕ) (world world' : World R) : Prop where
  /-- The invariant is kept. -/
  inv : C.inv count world'
  /-- Every other task expects the change. -/
  others : ∀ other,other≠task → C.rely other world world'

theorem Lets.keeps {C : Contract R.system} {task count : ℕ} {world world' : World R}
    (h : Lets C task count world world') : C.Keeps task count world world' none :=
  ⟨h.inv,h.others,fun _ he => nomatch he⟩

/-- What a contract over one key has to satisfy. -/
structure Tracks (C : Contract R.system) : Prop extends C.Lawful where
  /-- Expected changes advance the world. -/
  rely_advances : ∀ task {world world'},C.rely task world world' → Advances world world'
  /-- The condition on worlds is one on the record, and holds of its prefixes. -/
  allowed_prefix : ∀ {world world' : World R},world.trace <+: world'.trace →
    C.allowed world' → C.allowed world
  /-- An arriving task keeps the invariant, is expected by all and may start. -/
  arrive : ∀ {count entry world},C.inv count world → R.arrives entry=true →
    C.allowed (world.log (.note (R.started count entry))) →
    C.inv (count+1) (world.log (.note (R.started count entry))) ∧
      (∀ task,C.rely task world (world.log (.note (R.started count entry)))) ∧
      C.entry count entry (world.log (.note (R.started count entry)))
  /-- Store commands carry no assertion. -/
  ready : ∀ task o world,C.ready task (.store o) world

/-- With safe task bodies such a contract is verified. -/
theorem Tracks.verified {C : Contract R.system} (h : Tracks C)
    (hbody : ∀ {task count entry world},task<count → C.inv count world →
      C.entry task entry world →
      Safe C task (R.body entry) (fun _ world => C.finish task world) world) :
    C.Verified where
  rely_refl := h.rely_refl
  rely_trans := h.rely_trans
  allowed_perform hp ha := h.allowed_prefix (Advances.perform hp).trace ha
  allowed_arrive hw ha := by
    change WatchedKey.arrive _ _ _=some _ at hw
    unfold WatchedKey.arrive at hw
    split at hw
    · cases hw
      exact h.allowed_prefix (List.prefix_append _ _) ha
    · cases hw
  arrive hi hw ha := by
    change WatchedKey.arrive _ _ _=some _ at hw
    unfold WatchedKey.arrive at hw
    split at hw
    · next hentry =>
      cases hw
      exact h.arrive hi hentry ha
    · cases hw
  body := hbody

section Rules

variable {C : Contract R.system} {task : ℕ}

/-- From the assertion P the task may change the world so, which leads to Q. -/
def Moves (C : Contract R.system) (task : ℕ) (P : World R → Prop) (change : World R → World R)
    (Q : World R → Prop) : Prop :=
  ∀ ⦃count world⦄,task<count → C.inv count world → P world → C.allowed (change world) →
    Lets C task count world (change world) ∧ Q (change world)

/-- An exception at an operation is within the contract and leads to E. -/
def Interruptible (C : Contract R.system) (task : ℕ) (P : World R → Prop)
    (E : L.Exc → World R → Prop) (o : Op L) : Prop :=
  ∀ exc,Moves C task (fun world => P world ∧ R.interrupt world.memory task o=some exc)
    (fun world => world.deliver task exc) (E exc)

/-- One change after the other. -/
theorem Lets.trans (hC : C.Lawful) {count : ℕ} {world₁ world₂ world₃ : World R}
    (h : Lets C task count world₁ world₂) (h' : Lets C task count world₂ world₃) :
    Lets C task count world₁ world₃ :=
  ⟨h'.inv,fun other ho => hC.rely_trans other (h.others other ho) (h'.others other ho)⟩

section Commands

variable {P : World R → Prop} {E : L.Exc → World R → Prop}

/-- A command on the key: what it does when nothing interrupts it decides,
and an interruption can come before or after that. -/
theorem Triple.store (hT : Tracks C) {o : StoreOp L.Value L.Call}
    {Q : o.Res → World R → Prop} (hP : Stable C task P) (hQ : ∀ a,Stable C task (Q a))
    (hE : ∀ e,Stable C task (E e))
    (h : ∀ ⦃count world⦄,task<count → C.inv count world → P world →
      C.allowed (o.effect task world).1 →
      Lets C task count world (o.effect task world).1 ∧
        Q (o.effect task world).2 (o.effect task world).1)
    (hbefore : Interruptible C task P E (.store o))
    (hafter : ∀ a,Interruptible C task (Q a) E (.store o)) :
    Triple C task P (Prog.perform (S := L.sig) (.store o)) Q E := by
  apply Triple.perform _ hP hQ hE
  intro world count ht hinv hp
  refine ⟨hT.ready task o world,fun choice world' r started hperf ha => ?_⟩
  obtain ⟨pick,-,he⟩ | ⟨exc,hint,rfl,rfl,rfl | ⟨pick,-,rfl⟩⟩ := perform_cases hperf
  · cases he
    obtain ⟨hl,hq⟩ := h ht hinv hp ha
    exact ⟨hl.keeps,hq⟩
  · obtain ⟨hl,he⟩ := hbefore exc ht hinv ⟨hp,hint⟩ ha
    exact ⟨hl.keeps,he⟩
  · -- the interruption comes after the command
    have hmem : (o.effect task world).1.memory=world.memory := o.effect_memory task world
    have ha₁ : C.allowed (o.effect task world).1 :=
      hT.allowed_prefix (Advances.deliver _ task exc).trace ha
    obtain ⟨hl,hq⟩ := h ht hinv hp ha₁
    obtain ⟨hl',he⟩ := hafter _ exc ht hl.inv ⟨hq,by rw [hmem]; exact hint⟩ ha
    exact ⟨(hl.trans hT.toLawful hl').keeps,he⟩

/-- An action: likewise, except that it can fail by itself and start a task;
one that starts a task is not interrupted. -/
theorem Triple.act (hT : Tracks C) {o : L.Action} {Q : L.Result o → World R → Prop}
    (hP : Stable C task P) (hQ : ∀ a,Stable C task (Q a)) (hE : ∀ e,Stable C task (E e))
    (hready : ∀ ⦃count world⦄,C.inv count world → P world → C.ready task (.act o) world)
    (h : ∀ ⦃count world⦄ pick,task<count → C.inv count world → P world →
      C.allowed ((Op.act o).effect pick task count world).1 →
      C.Keeps task count world ((Op.act o).effect pick task count world).1
          ((Op.act o).effect pick task count world).2.2 ∧
        Outcome Q E ((Op.act o).effect pick task count world).2.1
          ((Op.act o).effect pick task count world).1)
    (hbefore : Interruptible C task P E (.act o))
    (hafter : ∀ ⦃count world⦄ pick r exc,
      R.interrupt world.memory task (.act o)=some exc →
      task<count → C.inv count ((Op.act o).effect pick task count world).1 →
      Outcome Q E r ((Op.act o).effect pick task count world).1 →
      C.allowed (((Op.act o).effect pick task count world).1.deliver task exc) →
      Lets C task count ((Op.act o).effect pick task count world).1
          (((Op.act o).effect pick task count world).1.deliver task exc) ∧
        E exc (((Op.act o).effect pick task count world).1.deliver task exc)) :
    Triple C task P (Prog.perform (S := L.sig) (.act o)) Q E := by
  apply Triple.perform _ hP hQ hE
  intro world count ht hinv hp
  refine ⟨hready hinv hp,fun choice world' r started hperf ha => ?_⟩
  obtain ⟨pick,-,he⟩ | ⟨exc,hint,rfl,rfl,rfl | ⟨pick,hs,rfl⟩⟩ := perform_cases hperf
  · have hk := h pick ht hinv hp (by rw [he]; exact ha)
    rwa [he] at hk
  · obtain ⟨hl,he⟩ := hbefore exc ht hinv ⟨hp,hint⟩ ha
    exact ⟨hl.keeps,he⟩
  · have ha₁ : C.allowed ((Op.act o).effect pick task count world).1 :=
      hT.allowed_prefix (Advances.deliver _ task exc).trace ha
    obtain ⟨hk,ho⟩ := h pick ht hinv hp ha₁
    rw [hs] at hk
    obtain ⟨hl',he⟩ := hafter pick _ exc hint ht hk.inv ho ha
    have hl : Lets C task count world _ := ⟨hk.inv,hk.others⟩
    exact ⟨(hl.trans hT.toLawful hl').keeps,he⟩

end Commands

end Rules

end KiClash.WatchedKey

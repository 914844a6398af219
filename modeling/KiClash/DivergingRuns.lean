import KiClash.VeiledRuns

/-!
# Two runs that differ in one input

A library for two runs over a watched key in which one task takes one
different input. Until the input is written under the key, the worlds differ in
their records alone and all other tasks are the same. The transaction that
writes it makes runs that look alike, if its call keeps to what it has written
and the secret is covered.
-/

namespace KiClash.VeiledRuns

open AsyncTasks WatchedKey

variable {L : Language} {V : Veil L} {R : Runtime L} {α : Type}

/-- The input in which two runs differ: the task that takes it, which one of its inputs it is, and
how the runtime notes that the task has taken one. -/
structure Input (V : Veil L) (R : Runtime L) where
  /-- The task. -/
  task : ℕ
  /-- Counted from one. -/
  number : ℕ
  /-- The task has taken an input. -/
  note : R.Note → Bool
  /-- Nothing else is noted like that. -/
  act : ∀ pick other fresh (o : L.Action) memory,
    (R.act pick other fresh o memory).2.1.countP note=
      if other=task ∧ V.inputs o=true then 1 else 0
  /-- Nor is the start of a task. -/
  started : ∀ other entry,note (R.started other entry)=false
  /-- Nor an exception. -/
  raised : ∀ other exc,note (R.raised other exc)=false

section Inputs

variable (I : Input V R)

/-- The event is the note that the task has taken an input. -/
def Input.taking : Event L.Value L.Call R.Note → Bool
  | .note note => I.note note
  | _ => false

/-- How many inputs the task has taken. -/
def Input.taken (trace : List (Event L.Value L.Call R.Note)) : ℕ := trace.countP I.taking

/-- The event is the transaction that writes the input. -/
def Input.Writes (earlier : List (Event L.Value L.Call R.Note)) :
    Event L.Value L.Call R.Note → Prop
  | .commit task call _ _ => task=I.task ∧ V.writes call ∧ I.taken earlier=I.number
  | _ => False

/-- What the call of a transaction keeps to. -/
def Keeps (V : Veil L) {Note : Type} : Event L.Value L.Call Note → Prop
  | .commit _ call _ _ => V.keeps call
  | _ => True

/-- The call that writes the input keeps to it, and from then on the secret is covered. -/
def Input.Stays (trace : List (Event L.Value L.Call R.Note)) : Prop :=
  ∀ earlier event later,trace=earlier++event::later → I.Writes earlier event →
    Keeps V event ∧ Covers V event ∧ ∀ event∈later,Covers V event

variable {I} {world world₁ : World R} {task fresh : ℕ}

/-- The notes of an action. -/
theorem Input.taken_acted (memory : R.Memory) (notes : List R.Note) (started : Option R.Entry) :
    I.taken (world.acted fresh memory notes started).trace=
      I.taken world.trace+notes.countP I.note := by
  have hstarted : (started.map (R.started fresh)).toList.countP I.note=0 := by
    cases started with
    | none => rfl
    | some entry => simp [I.started]
  have hmap : ∀ notes : List R.Note,
      (notes.map (.note : R.Note → Event L.Value L.Call R.Note)).countP I.taking=
        notes.countP I.note := by
    intro notes
    rw [List.countP_map]
    rfl
  rw [Input.taken,World.acted,List.countP_append,hmap,List.countP_append,hstarted]
  rfl

/-- An operation counts if it is the task's and takes an input. -/
theorem Input.taken_effect (world : World R) (pick : Bool) (task fresh : ℕ) (o : Op L) :
    I.taken (o.effect pick task fresh world).1.trace=
      I.taken world.trace+if task=I.task ∧ V.takes o=true then 1 else 0 := by
  cases o with
  | act o =>
    simp only [Op.effect]
    rw [I.taken_acted,I.act]
    rfl
  | store o =>
    have hother : ∀ event : Event L.Value L.Call R.Note,I.taking event=false →
        I.taken (world.trace++[event])=I.taken world.trace := by
      intro event he
      rw [Input.taken,List.countP_append,List.countP_singleton,he]
      rfl
    have hstore : ∀ o : StoreOp L.Value L.Call,
        (if task=I.task ∧ V.takes (.store o)=true then 1 else 0)=0 :=
      fun o => if_neg fun h => Bool.false_ne_true h.2
    rw [hstore,Nat.add_zero]
    cases o with
    | watch | unwatch | get => rfl
    | load => exact hother _ rfl
    | exec token retriesLeft call value =>
      simp only [Op.effect,StoreOp.effect]
      split
      · exact hother _ rfl
      · exact hother _ rfl
    | delete =>
      simp only [Op.effect,StoreOp.effect,World.delete]
      split
      · rfl
      · exact hother _ rfl
    | set onlyIfAbsent call value =>
      simp only [Op.effect,StoreOp.effect]
      split
      · rfl
      · exact hother _ rfl

/-- An exception does not count. -/
theorem Input.taken_deliver (exc : L.Exc) :
    I.taken (world.deliver task exc).trace=I.taken world.trace := by
  rw [Input.taken,World.deliver,List.countP_append,List.countP_singleton,Input.taking,I.raised]
  rfl

variable {choice : Choice} {o : Op L} {r : Except L.Exc o.Res} {started : Option R.Entry}

/-- What takes no input of the task does not count, however it turns out. -/
theorem Input.taken_same (hp : perform choice task fresh o world=some (world₁,r,started))
    (ho : ¬(task=I.task ∧ V.takes o=true)) : I.taken world₁.trace=I.taken world.trace := by
  obtain ⟨pick,-,he⟩ | ⟨exc,-,-,-,rfl | ⟨pick,-,rfl⟩⟩ := perform_cases hp
  · have ht := I.taken_effect world pick task fresh o
    rwa [he,if_neg ho] at ht
  · exact I.taken_deliver exc
  · rw [I.taken_deliver,I.taken_effect,if_neg ho,Nat.add_zero]

/-- An input of the task that is taken without an exception counts. -/
theorem Input.taken_next {a : o.Res}
    (hp : perform choice task fresh o world=some (world₁,.ok a,started)) (htask : task=I.task)
    (ho : V.takes o=true) : I.taken world₁.trace=I.taken world.trace+1 := by
  obtain ⟨pick,-,he⟩ | ⟨exc,-,hr,-⟩ := perform_cases hp
  · have ht := I.taken_effect world pick task fresh o
    rwa [he,if_pos ⟨htask,ho⟩] at ht
  · cases hr

/-- What an operation returns while a valid value lies under the key. -/
theorem returns_perform (hp : perform choice task fresh o world=some (world₁,r,started))
    (hvalid : ∀ value∈world.value,V.valid value) : V.Returns o r := by
  obtain ⟨pick,-,he⟩ | ⟨exc,-,rfl,-⟩ := perform_cases hp
  · cases o with
    | act o => exact True.intro
    | store o =>
      cases o with
      | get =>
        cases he
        change V.Returns (.store .get) (.ok world.value)
        cases hv : world.value with
        | none => exact True.intro
        | some value => exact hvalid value hv
      | load =>
        cases he
        change V.Returns (.store .load) (.ok world.value)
        cases hv : world.value with
        | none => exact True.intro
        | some value => exact hvalid value hv
      | watch | unwatch | exec | delete | set => exact True.intro
  · cases o with
    | act o => exact True.intro
    | store o => cases o <;> exact True.intro

end Inputs

section Divergence

variable {I : Input V R} {world world' world₁ : World R} {task fresh : ℕ} {choice : Choice}

/-- Of two transactions of the same task that write different values either both do, or neither. -/
theorem perform_exec (hc : Conceals V R) (h : Twin world world') {token retriesLeft : ℕ}
    {call call' : L.Call} {value value' : L.Value} {r : Except L.Exc Bool}
    {started : Option R.Entry}
    (hp : perform choice task fresh (.store (.exec token retriesLeft call value)) world=
      some (world₁,r,started)) :
    ∃ world₁',perform choice task fresh (.store (.exec token retriesLeft call' value')) world'=
        some (world₁',r,none) ∧ started=none ∧
      ((Twin world₁ world₁' ∧ r≠.ok true) ∨
        (SameWorld (fun v v' => v=some value ∧ v'=some value') world₁ world₁' ∧ r≠.ok false ∧
          (∃ before rest,world₁.trace=world.trace++.commit task call before value::rest) ∧
          ∃ before rest,world₁'.trace=world'.trace++.commit task call' before value'::rest)) := by
  obtain ⟨hinterrupt,hunavoidable⟩ := hc.store world.memory task
    (.exec token retriesLeft call value) (.exec token retriesLeft call' value')
  have hwritten : SameWorld (fun v v' => v=some value ∧ v'=some value')
      (world.commit task call value) (world'.commit task call' value') := h.commit ⟨rfl,rfl⟩
  have hcommitted : (.ok true : Except L.Exc Bool)≠.ok false := by simp
  have hconflict : (.ok false : Except L.Exc Bool)≠.ok true := by simp
  have herror : ∀ exc written,(.error exc : Except L.Exc Bool)≠.ok written := by simp
  cases choice with
  | proceed pick =>
    simp only [perform] at hp ⊢
    rw [h.memory,← hunavoidable]
    split at hp
    · cases hp
    · next hfree =>
      rw [if_neg hfree]
      simp only [Op.effect,StoreOp.effect,h.version] at hp ⊢
      split at hp
      · next htoken =>
        cases hp
        rw [if_pos htoken]
        exact ⟨_,rfl,rfl,.inr ⟨hwritten,hcommitted,⟨_,[],rfl⟩,_,[],rfl⟩⟩
      · next htoken =>
        cases hp
        rw [if_neg htoken]
        exact ⟨_,rfl,rfl,.inl ⟨h.log _ _,hconflict⟩⟩
  | raiseBefore =>
    simp only [perform] at hp ⊢
    obtain ⟨exc,he,hp⟩ := Option.map_eq_some_iff.mp hp
    cases hp
    rw [h.memory,← hinterrupt,he]
    exact ⟨_,rfl,rfl,.inl ⟨h.deliver exc,herror exc _⟩⟩
  | raiseAfter pick =>
    simp only [perform,Op.effect,StoreOp.effect,h.version] at hp ⊢
    rw [h.memory,← hinterrupt]
    split at hp
    · next exc _ _ =>
      cases hp
      by_cases htoken : world.version=token
      · rw [if_pos htoken,if_pos htoken]
        refine ⟨_,rfl,rfl,.inr ⟨hwritten.deliver exc,herror exc _,⟨world.value.getD value,
          [.note (R.raised task exc)],?_⟩,world'.value.getD value',[.note (R.raised task exc)],?_⟩⟩
        · change (_++_)++_=_
          rw [List.append_assoc]
          rfl
        · change (_++_)++_=_
          rw [List.append_assoc]
          rfl
      · rw [if_neg htoken,if_neg htoken]
        exact ⟨_,rfl,rfl,.inl ⟨(h.log _ _).deliver exc,herror exc _⟩⟩
    · cases hp

/-- What the task of the input has left to do in the two runs. -/
inductive Own (I : Input V R) (world world' : World R) :
    Prog L.sig Unit → Prog L.sig Unit → Prop
  | past {p : Prog L.sig Unit} (h : Tame V True p) : Own I world world' p p
  | poised {n : ℕ} {p p' : Prog L.sig Unit} (h : Poised V n p p')
      (htaken : I.taken world.trace+n=I.number) (htaken' : I.taken world'.trace+n=I.number) :
      Own I world world' p p'

/-- Two runs before the input that differs has been written. -/
structure Diverging (I : Input V R) (config config' : R.system.Config) : Prop where
  /-- The worlds. -/
  world : Twin config.world config'.world
  /-- The task of the input; all others are the same. -/
  own : ∃ p p',config.tasks[I.task]?=some p ∧ config'.tasks=config.tasks.set I.task p' ∧
    Own I config.world config'.world p p'
  /-- The others are tame. -/
  others : ∀ other p,other≠I.task → config.tasks[other]?=some p → Tame V True p

/-- The move has written the input in both runs, and if the call keeps to it and the secret is
covered then the runs look alike. -/
def Parts (I : Input V R) (config config' config₁ config₁' : R.system.Config) : Prop :=
  ∃ event event' later later',config₁.world.trace=config.world.trace++event::later ∧
    config₁'.world.trace=config'.world.trace++event'::later' ∧
    I.Writes config.world.trace event ∧ I.Writes config'.world.trace event' ∧
    (Keeps V event → Keeps V event' → Covers V event → Covers V event' →
      SameConfig V config₁ config₁' ∧ ∀ value∈config₁.world.value,V.covered value)

/-- Other tasks. -/
theorem Own.other {world world' world₁ world₁' : World R} {p p' : Prog L.sig Unit}
    (h : Own I world world' p p') (ht : I.taken world₁.trace=I.taken world.trace)
    (ht' : I.taken world₁'.trace=I.taken world'.trace) : Own I world₁ world₁' p p' := by
  cases h with
  | past h => exact .past h
  | poised h htaken htaken' => exact .poised h (by rw [ht,htaken]) (by rw [ht',htaken'])

variable {config config' config₁ : R.system.Config}

/-- Runs that have moved on to these worlds and programs. -/
theorem Diverging.moved (hbody : ∀ entry,Tame V True (R.body entry))
    (h : Diverging I config config') {world world' : World R} {task : ℕ}
    {started : Option R.Entry} {q q' : Prog L.sig Unit}
    (hw : Twin world world') (hq : task≠I.task → Tame V True q ∧ q'=q)
    (hown : ∃ p p',(config.tasks.set task q)[I.task]?=some p ∧
      config'.tasks.set task q'=(config.tasks.set task q).set I.task p' ∧
      Own I world world' p p') :
    Diverging I ⟨world,config.tasks.set task q++(started.map R.body).toList⟩
      ⟨world',config'.tasks.set task q'++(started.map R.body).toList⟩ where
  world := hw
  own := by
    obtain ⟨p,p',hp,htasks,hown⟩ := hown
    have hlt : I.task<(config.tasks.set task q).length := (List.getElem?_eq_some_iff.mp hp).1
    refine ⟨p,p',?_,?_,hown⟩
    · exact (List.getElem?_append_left hlt).trans hp
    · change _++_=List.set (_++_) _ _
      rw [htasks,List.set_append_left _ _ hlt]
  others := by
    intro other p hother hp
    obtain ⟨rfl,rfl⟩ | ⟨-,hp⟩ | hin := getElem?_set_append hp
    · exact (hq hother).1
    · exact h.others other p hother hp
    · cases started with
      | none => cases hin
      | some entry =>
        obtain rfl := List.mem_singleton.mp hin
        exact hbody entry

/-- A task starts in both runs. -/
theorem Diverging.opened (h : Diverging I config config') {entry entry' : R.Entry}
    (hbody : Tame V True (R.body entry)) (hentry : R.body entry'=R.body entry) :
    Diverging I
      ⟨config.world.log (.note (R.started config.tasks.length entry)),config.tasks++[R.body entry]⟩
      ⟨config'.world.log (.note (R.started config'.tasks.length entry')),
        config'.tasks++[R.body entry']⟩ where
  world := h.world.log _ _
  own := by
    obtain ⟨p,p',hp,htasks,hown⟩ := h.own
    have hlt : I.task<config.tasks.length := (List.getElem?_eq_some_iff.mp hp).1
    have htaken : ∀ (world : World R) other entry,
        I.taken (world.log (.note (R.started other entry))).trace=I.taken world.trace := by
      intro world other entry
      rw [Input.taken,World.log,List.countP_append,List.countP_singleton,Input.taking,I.started]
      rfl
    refine ⟨p,p',?_,?_,hown.other (htaken _ _ _) (htaken _ _ _)⟩
    · exact (List.getElem?_append_left hlt).trans hp
    · change _++_=List.set (_++_) _ _
      rw [htasks,hentry,List.set_append_left _ _ hlt]
  others := by
    intro other p hother hp
    by_cases hlt : other<config.tasks.length
    · rw [List.getElem?_append_left hlt] at hp
      exact h.others other p hother hp
    · rw [List.getElem?_append_right (by omega)] at hp
      obtain rfl := List.mem_singleton.mp (List.mem_of_getElem? hp)
      exact hbody

/-- A hidden action turns out the same in both runs. -/
theorem Twin.hidden (hc : Conceals V R) (h : Twin world world') {o o' : L.Action}
    (ho : V.hides o o') {r : Except L.Exc (L.Result o)} {started : Option R.Entry}
    (hp : perform choice task fresh (.act o) world=some (world₁,r,started)) :
    ∃ world₁' r',perform choice task fresh (.act o') world'=some (world₁',r',started) ∧
      Twin world₁ world₁' ∧ HEq r r' := by
  obtain ⟨hinterrupt,hunavoidable⟩ := hc.action ho world.memory task
  obtain ⟨world₁',r',hp',hw | hw,hr⟩ := h.perform (Q := fun r r' => HEq r r') (T := Eq)
    hinterrupt hunavoidable (V.heq_error ho) hp fun pick _ =>
      SameWorld.hidden hc h pick task fresh ho
  · exact ⟨world₁',r',hp',hw,hr⟩
  · exact ⟨world₁',r',hp',hw,hr⟩

/-- So does the same operation. -/
theorem Twin.perform (h : Twin world world') {o : Op L} {r : Except L.Exc o.Res}
    {started : Option R.Entry}
    (hp : WatchedKey.perform choice task fresh o world=some (world₁,r,started)) :
    ∃ world₁',WatchedKey.perform choice task fresh o world'=some (world₁',r,started) ∧
      Twin world₁ world₁' := by
  obtain ⟨world₁',r',hp',hw,rfl⟩ := SameWorld.perform h (Q := Eq) (T := Eq) rfl rfl
    (fun _ => rfl) hp fun pick _ =>
      ⟨(h.effect pick o).1,congrArg Prod.fst (h.effect pick o).2,
        congrArg Prod.snd (h.effect pick o).2⟩
  exact ⟨world₁',hp',hw.elim id id⟩

/-- The outcomes of two hidden actions are two exceptions or two results. -/
theorem outcomes_of_heq {γ δ : Type} (hgd : γ=δ) {r : Except L.Exc γ} {r' : Except L.Exc δ}
    (h : HEq r r') : (∃ e,r=.error e ∧ r'=.error e) ∨
      ∃ a a',r=.ok a ∧ r'=.ok a' ∧ HEq (.ok a : Except L.Exc γ) (.ok a' : Except L.Exc δ) := by
  subst hgd
  obtain rfl := eq_of_heq h
  cases r with
  | error e => exact .inl ⟨e,rfl,rfl⟩
  | ok a => exact .inr ⟨a,a,rfl,rfl,HEq.rfl⟩

/-- The runs have parted: all tasks are alike from here on. -/
theorem Diverging.sameConfig (hbody : ∀ entry,Tame V True (R.body entry))
    (h : Diverging I config config') {world world' : World R} {started : Option R.Entry}
    {q q' : Prog L.sig Unit} (hw : SameWorld (SameKey V) world world') (hq : Alike V q q') :
    SameConfig V ⟨world,config.tasks.set I.task q++(started.map R.body).toList⟩
      ⟨world',config'.tasks.set I.task q'++(started.map R.body).toList⟩ where
  world := hw
  tasks := by
    obtain ⟨p,p',hp,htasks,-⟩ := h.own
    have hstarted : List.Forall₂ (Alike V) (started.map R.body).toList
        (started.map R.body).toList := by
      cases started with
      | none => exact .nil
      | some entry => exact .cons (hbody entry).alike .nil
    apply List.rel_append _ hstarted
    rw [htasks,List.set_set]
    apply List.forall₂_iff_get.mpr
    refine ⟨by rw [List.length_set,List.length_set],fun i h₁ h₂ => ?_⟩
    rw [List.get_eq_getElem,List.get_eq_getElem]
    by_cases hi : i=I.task
    · subst hi
      rw [List.getElem_set_self,List.getElem_set_self]
      exact hq
    · rw [List.getElem_set_ne (Ne.symm hi),List.getElem_set_ne (Ne.symm hi)]
      exact (h.others i _ hi (List.getElem?_eq_getElem _)).alike

/-- The runs go on diverging if the task of the input does. -/
theorem Diverging.own_moved (hbody : ∀ entry,Tame V True (R.body entry))
    (h : Diverging I config config') {world world' : World R} {started : Option R.Entry}
    {q q' : Prog L.sig Unit} (hw : Twin world world') (hq : Own I world world' q q') :
    Diverging I ⟨world,config.tasks.set I.task q++(started.map R.body).toList⟩
      ⟨world',config'.tasks.set I.task q'++(started.map R.body).toList⟩ := by
  obtain ⟨p,p',hp,htasks,-⟩ := h.own
  have hlt : I.task<config.tasks.length := (List.getElem?_eq_some_iff.mp hp).1
  refine h.moved hbody hw (fun hne => absurd rfl hne) ⟨_,_,List.getElem?_set_self hlt,?_,hq⟩
  rw [htasks,List.set_set,List.set_set]

/-- The step of the task in the second run, when its operation turns out in this way. -/
theorem own_run {p : Prog L.sig Unit} (hp : config.tasks[I.task]?=some p) {o : Op L}
    {next : Except L.Exc o.Res → Prog L.sig Unit}
    (htasks : config'.tasks=config.tasks.set I.task (.op o next)) {r : Except L.Exc o.Res}
    {started : Option R.Entry}
    (hperf : perform choice I.task config.tasks.length o config'.world=some (world₁,r,started)) :
    config'.step (.run I.task choice)=some
      ⟨world₁,config'.tasks.set I.task (next r)++(started.map R.body).toList⟩ := by
  have hlt : I.task<config.tasks.length := (List.getElem?_eq_some_iff.mp hp).1
  have htask : config'.tasks[I.task]?=some (.op o next) := by
    rw [htasks,List.getElem?_set_self hlt]
  have hlength : config'.tasks.length=config.tasks.length := by rw [htasks,List.length_set]
  exact run_step htask (hlength ▸ hperf)

/-- The transaction that writes the input in both runs: after a conflict the task may try again,
and if it commits then the runs part. -/
theorem Diverging.own_exec (hc : Conceals V R) (hbody : ∀ entry,Tame V True (R.body entry))
    (h : Diverging I config config') {token retriesLeft : ℕ} {call call' : L.Call}
    {value value' : L.Value} {next next' : Except L.Exc Bool → Prog L.sig Unit}
    (htask : config.tasks[I.task]?=some (.op (.store (.exec token retriesLeft call value)) next))
    (htasks : config'.tasks=
      config.tasks.set I.task (.op (.store (.exec token retriesLeft call' value')) next'))
    (hwrites : V.writes call) (hwrites' : V.writes call')
    (hvalue : V.covered value → V.covered value' → V.looksLike value value')
    (hcommit : V.keeps call → V.keeps call' → V.covered value → V.covered value' →
      Alike V (next (.ok true)) (next' (.ok true)))
    (hconflict : Poised V 0 (next (.ok false)) (next' (.ok false)))
    (herror : ∀ e,Tame V True (next (.error e)) ∧ next' (.error e)=next (.error e))
    (htaken : I.taken config.world.trace=I.number) (htaken' : I.taken config'.world.trace=I.number)
    {r : Except L.Exc Bool} {started : Option R.Entry}
    (hp : perform choice I.task config.tasks.length (.store (.exec token retriesLeft call value))
      config.world=some (world₁,r,started)) :
    ∃ config₁',config'.step (.run I.task choice)=some config₁' ∧
      (Diverging I
          ⟨world₁,config.tasks.set I.task (next r)++(started.map R.body).toList⟩ config₁' ∨
        Parts I config config'
          ⟨world₁,config.tasks.set I.task (next r)++(started.map R.body).toList⟩ config₁') := by
  obtain ⟨world₁',hp',rfl,⟨hw,hr⟩ | ⟨hw,hr,⟨before,later,ht⟩,before',later',ht'⟩⟩ :=
    perform_exec hc h.world hp
  · refine ⟨_,own_run htask htasks hp',.inl (h.own_moved hbody hw ?_)⟩
    have hno : ∀ {call : L.Call} {value : L.Value} {token retriesLeft : ℕ},
        ¬(I.task=I.task ∧ V.takes (.store (.exec token retriesLeft call value))=true) :=
      fun hin => Bool.false_ne_true hin.2
    cases r with
    | error e =>
      rw [(herror e).2]
      exact .past (herror e).1
    | ok written =>
      cases written with
      | true => exact absurd rfl hr
      | false =>
        refine .poised hconflict ?_ ?_
        · rw [I.taken_same hp hno,htaken,Nat.add_zero]
        · rw [I.taken_same hp' hno,htaken',Nat.add_zero]
  · refine ⟨_,own_run htask htasks hp',.inr ⟨_,_,later,later',ht,ht',⟨rfl,hwrites,htaken⟩,
      ⟨rfl,hwrites',htaken'⟩,fun hk hk' hcov hcov' => ⟨?_,?_⟩⟩⟩
    · refine h.sameConfig hbody ⟨?_,hw.version,hw.memory⟩ ?_
      · rw [hw.value.1,hw.value.2]
        exact hvalue hcov hcov'
      · cases r with
        | error e =>
          rw [(herror e).2]
          exact (herror e).1.alike
        | ok written =>
          cases written with
          | true => exact hcommit hk hk' hcov hcov'
          | false => exact absurd rfl hr
    · intro value hv
      rw [show _=_ from hw.value.1] at hv
      cases hv
      exact hcov

/-- What the task of the input does in both runs. -/
theorem Diverging.own_step (hc : Conceals V R) (hbody : ∀ entry,Tame V True (R.body entry))
    (h : Diverging I config config') (hvalid : ∀ value∈config.world.value,V.valid value) {o : Op L}
    {next : Except L.Exc o.Res → Prog L.sig Unit}
    (htask : config.tasks[I.task]?=some (.op o next)) {r : Except L.Exc o.Res}
    {started : Option R.Entry}
    (hp : WatchedKey.perform choice I.task config.tasks.length o config.world=
      some (world₁,r,started)) :
    ∃ config₁',config'.step (.run I.task choice)=some config₁' ∧
      (Diverging I
          ⟨world₁,config.tasks.set I.task (next r)++(started.map R.body).toList⟩ config₁' ∨
        Parts I config config'
          ⟨world₁,config.tasks.set I.task (next r)++(started.map R.body).toList⟩ config₁') := by
  obtain ⟨p,p',hp₀,htasks,hown⟩ := h.own
  rw [htask] at hp₀
  obtain rfl := Option.some.inj hp₀
  have hreturns := returns_perform hp hvalid
  cases hown with
  | past htame =>
    obtain ⟨world₁',hp',hw⟩ := h.world.perform hp
    cases htame with
    | op _ _ hnext =>
      exact ⟨_,own_run htask htasks hp',.inl (h.own_moved hbody hw (.past (hnext r hreturns)))⟩
  | poised hpoised htaken htaken' =>
    cases hpoised with
    | past htame =>
      obtain ⟨world₁',hp',hw⟩ := h.world.perform hp
      cases htame with
      | op _ _ hnext =>
        exact ⟨_,own_run htask htasks hp',.inl (h.own_moved hbody hw (.past (hnext r hreturns)))⟩
    | op ho hnext =>
      obtain ⟨world₁',hp',hw⟩ := h.world.perform hp
      have hno : ¬(I.task=I.task ∧ V.takes o=true) := fun hin => by rw [ho] at hin; cases hin.2
      refine ⟨_,own_run htask htasks hp',
        .inl (h.own_moved hbody hw (.poised (hnext r hreturns) ?_ ?_))⟩
      · rw [I.taken_same hp hno,htaken]
      · rw [I.taken_same hp' hno,htaken']
    | input hidden ho ho' hok herror =>
      obtain ⟨world₁',r',hp',hw,hr⟩ := Twin.hidden hc h.world hidden hp
      refine ⟨_,own_run htask htasks hp',.inl (h.own_moved hbody hw ?_)⟩
      obtain ⟨e,rfl,rfl⟩ | ⟨a,a',rfl,rfl,heq⟩ := outcomes_of_heq (V.result hidden) hr
      · rw [(herror e).2]
        exact .past (herror e).1
      · refine .poised (hok a a' heq) ?_ ?_
        · rw [I.taken_next hp rfl ho]
          omega
        · rw [I.taken_next hp' rfl ho']
          omega
    | exec hwrites hwrites' hvalue hcommit hconflict herror =>
      exact h.own_exec hc hbody htask htasks hwrites hwrites' hvalue hcommit hconflict herror
        htaken htaken' hp

/-- A move of two diverging runs. -/
theorem Diverging.step (hc : Conceals V R) (hbody : ∀ entry,Tame V True (R.body entry))
    (h : Diverging I config config') (hvalid : ∀ value∈config.world.value,V.valid value)
    {move : R.system.Move} (hs : config.step move=some config₁) :
    ∃ config₁',config'.step move=some config₁' ∧
      (Diverging I config₁ config₁' ∨ Parts I config config' config₁ config₁') := by
  obtain ⟨p,p',hp₀,htasks,hown⟩ := h.own
  have hlength : config'.tasks.length=config.tasks.length := by rw [htasks,List.length_set]
  cases move with
  | «open» entry =>
    obtain ⟨harrives,rfl⟩ := step_open hs
    exact ⟨_,open_step harrives config',.inl (h.opened (hbody entry) rfl)⟩
  | run task choice =>
    obtain ⟨o,next,world₁,r,started,htask,hp,rfl⟩ := step_run hs
    by_cases he : task=I.task
    · subst he
      exact h.own_step hc hbody hvalid htask hp
    · obtain ⟨world₁',hp',hw⟩ := h.world.perform hp
      have htask' : config'.tasks[task]?=some (.op o next) := by
        rw [htasks,List.getElem?_set_ne (Ne.symm he),htask]
      have hno : ¬(task=I.task ∧ V.takes o=true) := fun hin => he hin.1
      refine ⟨_,run_step htask' (hlength ▸ hp'),.inl (h.moved hbody hw (fun _ => ⟨?_,rfl⟩)
        ⟨p,p',?_,?_,hown.other (I.taken_same hp hno) (I.taken_same hp' hno)⟩)⟩
      · cases h.others task _ he htask with
        | op _ _ hnext => exact hnext r (returns_perform hp hvalid)
      · rw [List.getElem?_set_ne he,hp₀]
      · rw [htasks,List.set_comm _ _ (Ne.symm he)]

/-- Before the task of an input has started. -/
structure Untouched (V : Veil L) (config : R.system.Config) : Prop where
  /-- All tasks are tame. -/
  tame : ∀ p∈config.tasks,Tame V True p
  /-- Tasks that have not started have taken no inputs. -/
  untaken : ∀ I : Input V R,config.tasks.length≤I.task → I.taken config.world.trace=0

/-- It stays so with every move. -/
theorem Untouched.step (hbody : ∀ entry,Tame V True (R.body entry)) (h : Untouched V config)
    (hvalid : ∀ value∈config.world.value,V.valid value) {move : R.system.Move}
    (hs : config.step move=some config₁) : Untouched V config₁ := by
  cases move with
  | «open» entry =>
    obtain ⟨-,rfl⟩ := step_open hs
    refine ⟨fun p hp => ?_,fun I hi => ?_⟩
    · obtain hold | hnew := List.mem_append.mp hp
      · exact h.tame p hold
      · rw [List.mem_singleton.mp hnew]
        exact hbody entry
    · rw [List.length_append] at hi
      change I.taken (config.world.trace++[_])=0
      rw [Input.taken,List.countP_append,List.countP_singleton,Input.taking,I.started]
      exact h.untaken I (by omega)
  | run task choice =>
    obtain ⟨o,next,world₁,r,started,htask,hp,rfl⟩ := step_run hs
    have hlt : task<config.tasks.length := (List.getElem?_eq_some_iff.mp htask).1
    refine ⟨fun p hin => ?_,fun I hi => ?_⟩
    · obtain hset | hnew := List.mem_append.mp hin
      · obtain hold | rfl := List.mem_or_eq_of_mem_set hset
        · exact h.tame p hold
        · cases h.tame _ (List.mem_of_getElem? htask) with
          | op _ _ hnext => exact hnext r (returns_perform hp hvalid)
      · cases started with
        | none => cases hnew
        | some entry =>
          rw [List.mem_singleton.mp hnew]
          exact hbody entry
    · rw [List.length_append,List.length_set] at hi
      have hne : task≠I.task := by omega
      rw [I.taken_same hp fun hin => hne hin.1]
      exact h.untaken I (by omega)

/-- Two runs diverge when a task starts with different inputs. -/
theorem Untouched.diverging (h : Untouched V config) (I : Input V R)
    (htask : I.task=config.tasks.length) {entry entry' : R.Entry}
    (hpoised : Poised V I.number (R.body entry) (R.body entry')) :
    Diverging I
      ⟨config.world.log (.note (R.started config.tasks.length entry)),config.tasks++[R.body entry]⟩
      ⟨config.world.log (.note (R.started config.tasks.length entry')),
        config.tasks++[R.body entry']⟩ where
  world := ⟨rfl,rfl,rfl⟩
  own := by
    have htaken : ∀ entry,
        I.taken (config.world.log (.note (R.started config.tasks.length entry))).trace+I.number=
          I.number := by
      intro entry
      rw [Input.taken,World.log,List.countP_append,List.countP_singleton,Input.taking,I.started]
      have hzero : config.world.trace.countP I.taking=0 := h.untaken I (Nat.le_of_eq htask.symm)
      simp [hzero]
    refine ⟨R.body entry,R.body entry',?_,?_,.poised hpoised (htaken entry) (htaken entry')⟩
    · rw [htask,List.getElem?_append_right (Nat.le_refl _),Nat.sub_self]
      rfl
    · rw [htask,List.set_append_right _ _ (Nat.le_refl _),Nat.sub_self]
      rfl
  others := by
    intro other p hother hp
    rw [htask] at hother
    have hlt : other<config.tasks.length := by
      have hlen := (List.getElem?_eq_some_iff.mp hp).1
      rw [List.length_append,List.length_singleton] at hlen
      omega
    rw [List.getElem?_append_left hlt] at hp
    exact h.tame p (List.mem_of_getElem? hp)

end Divergence

section Seen

variable {K M : Type} {O : Observer R K M} {I : Input V R}
  {config config' final final' end₁ end' : R.system.Config} {moves : List R.system.Move}
  {last : R.system.Move} {known : K}

/-- The tasks of diverging runs are about to do what looks the same. -/
theorem Diverging.sameSight (h : Diverging I config config') :
    SameSight V config config' := by
  obtain ⟨p,p',hp,htasks,hown⟩ := h.own
  refine ⟨by rw [htasks,List.length_set],fun task q hq => ?_⟩
  rw [htasks]
  by_cases he : task=I.task
  · subst he
    rw [hp] at hq
    obtain rfl := Option.some.inj hq
    refine ⟨p',List.getElem?_set_self (List.getElem?_eq_some_iff.mp hp).1,?_⟩
    cases hown with
    | past => exact .refl _
    | poised hpoised => exact hpoised.sameNext
  · exact ⟨q,by rw [List.getElem?_set_ne (Ne.symm he),hq],.refl q⟩

/-- Two runs that differ in one input are seen alike, up to the first move that uncovers the secret
after the input has been written. -/
theorem Diverging.seen (hc : Conceals V R) (hbody : ∀ entry,Tame V True (R.body entry))
    (hsees : ∀ known task o o',SameOp V o o' → O.sees known task o=O.sees known task o')
    (h : Diverging I config config') (hvalid : ∀ value∈config.world.value,V.valid value)
    (hvalids : ∀ task call before after,.commit task call before after∈final.world.trace →
      V.valid after) (hrun : config.run moves=some final)
    (hrun' : config'.run moves=some final') (hlast : final.step last=some end₁)
    (hlast' : final'.step last=some end') (hstays : I.Stays final.world.trace)
    (hstays' : I.Stays final'.world.trace) :
    O.seen known config (moves++[last])=O.seen known config' (moves++[last]) := by
  induction moves generalizing config config' known with
  | nil =>
    cases hrun
    cases hrun'
    rw [List.nil_append,O.seen_cons hlast,O.seen_cons hlast',
      (h.sameSight.seesMove hsees known last).1]
    rfl
  | cons move moves ih =>
    obtain ⟨config₁,hs,hrest⟩ := Option.bind_eq_some_iff.mp hrun
    obtain ⟨config₁',hs',hrest'⟩ := Option.bind_eq_some_iff.mp hrun'
    obtain ⟨config₂,hs₂,hnext⟩ := h.step hc hbody hvalid hs
    rw [hs'] at hs₂
    obtain rfl := Option.some.inj hs₂
    obtain ⟨hmove,hknows⟩ := h.sameSight.seesMove hsees known move
    rw [List.cons_append,O.seen_cons hs,O.seen_cons hs',hmove,hknows]
    congr 1
    obtain hdiverging | ⟨event,event',later,later',ht,ht',hwrites,hwrites',hparts⟩ := hnext
    · refine ih hdiverging (fun value hv => ?_) hrest hrest'
      obtain ⟨events,ht,hvalue⟩ := value_step hs
      obtain ⟨later,hl⟩ := trace_run hrest
      obtain hbefore | ⟨task,call,before,hin⟩ := hvalue value hv
      · exact hvalid value hbefore
      · refine hvalids task call before value ?_
        rw [hl,ht]
        exact List.mem_append_left _ (List.mem_append_right _ hin)
    · obtain ⟨rest,hl⟩ := trace_run hrest
      obtain ⟨rest',hl'⟩ := trace_run hrest'
      obtain ⟨hkeeps,hcov,hcovers⟩ := hstays config.world.trace event (later++rest)
        (by rw [hl,ht,List.append_assoc,List.cons_append]) hwrites
      obtain ⟨hkeeps',hcov',-⟩ := hstays' config'.world.trace event' (later'++rest')
        (by rw [hl',ht',List.append_assoc,List.cons_append]) hwrites'
      obtain ⟨hsame,hcovered⟩ := hparts hkeeps hkeeps' hcov hcov'
      refine hsame.seen hc hbody hsees hcovered hrest hrest' hlast hlast' fun rest₁ hl₁ => ?_
      have he : rest₁=rest := List.append_cancel_left (hl₁.symm.trans hl)
      intro event hin
      exact hcovers event (List.mem_append_right _ (he ▸ hin))

end Seen

end KiClash.VeiledRuns

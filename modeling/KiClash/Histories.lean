import Mathlib.Data.List.Basic

/-!
# Conditions on histories and things handed over

A library about histories, which are lists of events that only grow. A
condition on a history says of each event whether it fits the events before
it. A hand-over is a history in which tasks take items, give them away and
may drop them: if nothing is taken while something is held, if only the
holder gives and if nothing held is dropped, then what has been given is what
has been taken, in order, up to the one item that is still held. A decision is
taken once, and its task then tells it in the order that the decision names. A
deposit lies where it is until it is used.
-/

namespace KiClash.Histories

variable {E : Type}

/-- Each event fits the events before it, which the first argument starts with. -/
def MeetsFrom (fits : List E → E → Prop) : List E → List E → Prop
  | _,[] => True
  | earlier,event::events => fits earlier event ∧ MeetsFrom fits (earlier++[event]) events

/-- Each event fits the events before it. -/
def Meets (fits : List E → E → Prop) (history : List E) : Prop := MeetsFrom fits [] history

instance MeetsFrom.decide {fits : List E → E → Prop}
    [∀ earlier event,Decidable (fits earlier event)] :
    ∀ earlier events,Decidable (MeetsFrom fits earlier events)
  | _,[] => isTrue True.intro
  | earlier,event::events =>
    have : Decidable (MeetsFrom fits (earlier++[event]) events) := MeetsFrom.decide _ _
    inferInstanceAs (Decidable (fits earlier event ∧ MeetsFrom fits (earlier++[event]) events))

instance {fits : List E → E → Prop} [∀ earlier event,Decidable (fits earlier event)]
    (history : List E) : Decidable (Meets fits history) :=
  MeetsFrom.decide [] history

/-- A history in two parts. -/
theorem meetsFrom_append {fits : List E → E → Prop} {earlier events events' : List E} :
    MeetsFrom fits earlier (events++events') ↔
      MeetsFrom fits earlier events ∧ MeetsFrom fits (earlier++events) events' := by
  induction events generalizing earlier with
  | nil => simp [MeetsFrom]
  | cons event events ih => simp [MeetsFrom,ih,and_assoc]

/-- A history that has grown by an event. -/
theorem meets_append {fits : List E → E → Prop} {history : List E} {event : E} :
    Meets fits (history++[event]) ↔ Meets fits history ∧ fits history event := by
  simp [Meets,meetsFrom_append,MeetsFrom]

/-- A condition holds of every earlier part of a history. -/
theorem Meets.before {fits : List E → E → Prop} {history history' : List E}
    (h : history <+: history') (hm : Meets fits history') : Meets fits history := by
  obtain ⟨events,rfl⟩ := h
  exact (meetsFrom_append.mp hm).1

/-- An event of a history fits the events before it. -/
theorem Meets.at {fits : List E → E → Prop} {earlier later : List E} {event : E}
    (h : Meets fits (earlier++event::later)) : fits earlier event := (meetsFrom_append.mp h).2.1

/-- A history meets a condition if all its events do. -/
theorem meets_of_splits {fits : List E → E → Prop} {history : List E}
    (h : ∀ earlier event later,history=earlier++event::later → fits earlier event) :
    Meets fits history := by
  have hfrom : ∀ earlier events,history=earlier++events → MeetsFrom fits earlier events := by
    intro earlier events
    induction events generalizing earlier with
    | nil => exact fun _ => True.intro
    | cons event events ih =>
      intro hsplit
      exact ⟨h earlier event events hsplit,ih _ (by simp [hsplit])⟩
  exact hfrom [] history rfl

/-- Each event of a history has fitted what was before it. -/
theorem Meets.of_mem {fits : List E → E → Prop} {history : List E} (h : Meets fits history)
    {event : E} (hin : event∈history) : ∃ earlier,fits earlier event := by
  obtain ⟨earlier,later,rfl⟩ := List.append_of_mem hin
  exact ⟨_,(meetsFrom_append.mp h).2.1⟩

section HandOver

variable {Item : Type}

/-- What an event means for a hand-over. -/
inductive Step (Item : Type)
  | taken (task : ℕ) (item : Item)
  | given (task : ℕ) (item : Item)
  | dropped (task : ℕ)
  | other
  deriving DecidableEq, Repr

/-- What is held after a step: the latest item taken, until its task gives or
drops it. -/
def Step.advance (held : Option (ℕ×Item)) : Step Item → Option (ℕ×Item)
  | .taken task item => some (task,item)
  | .given task _ => held.filter fun holder => holder.1≠task
  | .dropped task => held.filter fun holder => holder.1≠task
  | .other => held

/-- The item that is held after so many steps, with its task. -/
def held (steps : List (Step Item)) : Option (ℕ×Item) := steps.foldl Step.advance none

@[simp] theorem held_append (steps : List (Step Item)) (step : Step Item) :
    held (steps++[step])=step.advance (held steps) := by
  simp [held]

/-- The task holds something. -/
def heldBy (steps : List (Step Item)) (task : ℕ) : Bool :=
  (held steps).any fun holder => holder.1=task

/-- The task holds some item. -/
theorem heldBy_iff {steps : List (Step Item)} {task : ℕ} :
    heldBy steps task=true ↔ ∃ item,held steps=some (task,item) := by
  unfold heldBy
  cases held steps with
  | none => simp
  | some holder =>
    constructor
    · intro h
      have ht : holder.1=task := by simpa using h
      exact ⟨holder.2,by rw [← ht]⟩
    · rintro ⟨item,h⟩
      cases h
      simp

/-- A step that the given task makes. -/
def Step.By (task : ℕ) : Step Item → Prop
  | .taken task' _ => task'=task
  | .given task' _ => task'=task
  | .dropped task' => task'=task
  | .other => True

/-- A step of one task leaves what another holds alone, unless it takes
something while something is held. -/
theorem advance_other {held : Option (ℕ×Item)} {step : Step Item} {task other : ℕ} {item : Item}
    (hby : step.By task) (hfree : ∀ item',step=.taken task item' → held=none)
    (hne : other≠task) :
    step.advance held=some (other,item) ↔ held=some (other,item) := by
  have hfilter : held.filter (fun holder => holder.1≠task)=some (other,item) ↔
      held=some (other,item) := by
    rw [Option.filter_eq_some_iff]
    exact and_iff_left (by simpa using hne)
  cases step with
  | taken task' item' =>
    cases hby
    rw [hfree item' rfl]
    simp only [Step.advance,Option.some.injEq,Prod.mk.injEq,reduceCtorEq,iff_false,not_and]
    exact fun he => absurd he.symm hne
  | given task' item' =>
    cases hby
    exact hfilter
  | dropped task' =>
    cases hby
    exact hfilter
  | other => rfl

/-- A step that takes nothing leaves at most what was held. -/
theorem held_of_advance {held : Option (ℕ×Item)} {step : Step Item} {task : ℕ} {item : Item}
    (hfree : ∀ task' item',step≠.taken task' item')
    (h : step.advance held=some (task,item)) : held=some (task,item) := by
  cases step with
  | taken task' item' => exact absurd rfl (hfree task' item')
  | given task' item' => exact (Option.filter_eq_some_iff.mp h).1
  | dropped task' => exact (Option.filter_eq_some_iff.mp h).1
  | other => exact h

/-- A task that holds nothing drops nothing. -/
theorem advance_dropped {held : Option (ℕ×Item)} {task : ℕ}
    (h : ∀ item,held≠some (task,item)) : (Step.dropped task).advance held=held := by
  cases held with
  | none => rfl
  | some holder =>
    have hne : holder.1≠task := fun he => h holder.2 (by rw [← he])
    simp [Step.advance,Option.filter,hne]

/-- Between two histories the task holds what it held. -/
def KeepsHeld (classify : E → Step Item) (task : ℕ) (history history' : List E) : Prop :=
  ∀ item,held (history'.map classify)=some (task,item) ↔
    held (history.map classify)=some (task,item)

section Keeping

variable {classify : E → Step Item} {task other : ℕ} {history history' history'' : List E}
  {event : E}

theorem KeepsHeld.refl (classify : E → Step Item) (task : ℕ) (history : List E) :
    KeepsHeld classify task history history := fun _ => Iff.rfl

theorem KeepsHeld.trans (h : KeepsHeld classify task history history')
    (h' : KeepsHeld classify task history' history'') : KeepsHeld classify task history history'' :=
  fun item => (h' item).trans (h item)

/-- An event that means nothing. -/
theorem KeepsHeld.unchanged (hstep : classify event=.other) (task : ℕ) (history : List E) :
    KeepsHeld classify task history (history++[event]) := by
  intro item
  rw [List.map_append,List.map_singleton,held_append,hstep]
  rfl

/-- An event of one task for the others, if it takes nothing while something is held. -/
theorem KeepsHeld.others (hby : (classify event).By task)
    (hfree : ∀ item,classify event=.taken task item → held (history.map classify)=none)
    (hne : other≠task) : KeepsHeld classify other history (history++[event]) := by
  intro item
  rw [List.map_append,List.map_singleton,held_append]
  exact advance_other hby hfree hne

/-- An event with which a task drops nothing. -/
theorem KeepsHeld.dropped (hstep : classify event=.dropped task)
    (hfree : heldBy (history.map classify) task=false) (other : ℕ) :
    KeepsHeld classify other history (history++[event]) := by
  intro item
  rw [List.map_append,List.map_singleton,held_append,hstep,advance_dropped]
  intro item' hheld
  rw [heldBy_iff.mpr ⟨item',hheld⟩] at hfree
  cases hfree

end Keeping

/-- All items that are taken and neither given nor dropped by their tasks. -/
def outstanding (steps : List (Step Item)) : List (ℕ×Item) :=
  steps.foldl (fun holders step => match step with
    | .taken task item => holders++[(task,item)]
    | .given task _ => holders.filter fun holder => holder.1≠task
    | .dropped task => holders.filter fun holder => holder.1≠task
    | .other => holders) []

/-- If things are only taken while nothing is held, only one can be outstanding. -/
theorem outstanding_append {steps : List (Step Item)} {step : Step Item}
    (h : outstanding steps=(held steps).toList)
    (hfree : ∀ task item,step=.taken task item → held steps=none) :
    outstanding (steps++[step])=(held (steps++[step])).toList := by
  have hfilter : ∀ task : ℕ,
      (held steps).toList.filter (fun holder => holder.1≠task)=
        ((held steps).filter fun holder => holder.1≠task).toList := by
    intro task
    cases held steps with
    | none => rfl
    | some holder =>
      by_cases hh : holder.1=task <;> simp [hh,Option.filter]
  unfold outstanding at h ⊢
  rw [List.foldl_append,h,held_append]
  cases step with
  | taken task item =>
    rw [hfree task item rfl]
    rfl
  | given task item => exact hfilter task
  | dropped task => exact hfilter task
  | other => rfl

/-- The item that a step takes. -/
def Step.takes : Step Item → Option Item
  | .taken _ item => some item
  | _ => none

/-- The item that a step gives. -/
def Step.gives : Step Item → Option Item
  | .given _ item => some item
  | _ => none

/-- Nothing is taken while something is held, what is given is what its task
holds, and nothing held is dropped. -/
def Step.Orderly (held : Option (ℕ×Item)) : Step Item → Prop
  | .taken _ _ => held=none
  | .given task item => held=some (task,item)
  | .dropped task => ∀ item,held≠some (task,item)
  | .other => True

/-- What has been taken is what has been given and what is held. -/
def Accounted (steps : List (Step Item)) : Prop :=
  steps.filterMap Step.takes=steps.filterMap Step.gives++((held steps).map Prod.snd).toList

/-- Orderly steps keep the account. -/
theorem Accounted.step {steps : List (Step Item)} (h : Accounted steps) {step : Step Item}
    (ho : step.Orderly (held steps)) : Accounted (steps++[step]) := by
  unfold Accounted at h ⊢
  rw [held_append,List.filterMap_append,List.filterMap_append,h]
  cases step with
  | taken task item =>
    have hnone : held steps=none := ho
    simp [List.filterMap_cons,Step.takes,Step.gives,Step.advance,hnone]
  | given task item =>
    have hsome : held steps=some (task,item) := ho
    simp [List.filterMap_cons,Step.takes,Step.gives,Step.advance,hsome,Option.filter]
  | dropped task =>
    have hne : ∀ item,held steps≠some (task,item) := ho
    rw [advance_dropped hne]
    simp [List.filterMap_cons,Step.takes,Step.gives]
  | other => simp [List.filterMap_cons,Step.takes,Step.gives,Step.advance]

end HandOver

section Deposits

variable {Party Part Item : Type} {deposits : E → Option (Party×Part)} {uses : E → Option Item}
  {share : Party → Item → Part} {slot slot' : Party → Option Part} {lies lies' : Party → Part → Prop}
  {history : List E} {event : E}

/-- Whatever a party has deposited is its share of the first use that follows,
or still lies where the party has put it. -/
def Kept (deposits : E → Option (Party×Part)) (uses : E → Option Item)
    (share : Party → Item → Part) (slot : Party → Option Part) (history : List E) : Prop :=
  ∀ earlier event later party part,history=earlier++event::later →
    deposits event=some (party,part) →
    match ((event::later).filterMap uses).head? with
    | some item => share party item=part
    | none => slot party=some part

/-- As before, where a predicate says what lies where a party has put it. -/
def KeptWhere (deposits : E → Option (Party×Part)) (uses : E → Option Item)
    (share : Party → Item → Part) (lies : Party → Part → Prop) (history : List E) : Prop :=
  ∀ earlier event later party part,history=earlier++event::later →
    deposits event=some (party,part) →
    match ((event::later).filterMap uses).head? with
    | some item => share party item=part
    | none => lies party part

/-- An event keeps what has been deposited if it uses what lies there, or
leaves it there. -/
theorem KeptWhere.step (h : KeptWhere deposits uses share lies history)
    (hold : ∀ party part,lies party part → match uses event with
      | some item => share party item=part
      | none => lies' party part)
    (hnew : ∀ party part,deposits event=some (party,part) → match uses event with
      | some item => share party item=part
      | none => lies' party part) :
    KeptWhere deposits uses share lies' (history++[event]) := by
  intro earlier first later party part hsplit hdeposit
  rcases List.eq_nil_or_concat later with rfl | ⟨later,last,rfl⟩
  · obtain ⟨-,hfirst⟩ := List.append_inj' hsplit rfl
    cases hfirst
    have huses : ([event].filterMap uses).head?=uses event := by
      cases hu : uses event <;> simp [hu]
    rw [huses]
    exact hnew party part hdeposit
  · rw [List.concat_eq_append,← List.cons_append,← List.append_assoc] at hsplit
    obtain ⟨hhistory,hlast⟩ := List.append_inj' hsplit rfl
    cases hlast
    have hbefore := h earlier first later party part hhistory hdeposit
    rw [List.concat_eq_append,← List.cons_append,List.filterMap_append]
    cases hused : (first::later).filterMap uses with
    | cons item items =>
      rw [hused] at hbefore
      exact hbefore
    | nil =>
      rw [hused] at hbefore
      have huses : ([]++[event].filterMap uses).head?=uses event := by
        cases hu : uses event <;> simp [hu]
      rw [huses]
      exact hold party part hbefore

/-- While nothing has been used, everything that has been deposited still lies there. -/
theorem KeptWhere.lies_of_mem (h : KeptWhere deposits uses share lies history) {party : Party}
    {part : Part} (hmem : (party,part)∈history.filterMap deposits)
    (hunused : history.filterMap uses=[]) : lies party part := by
  obtain ⟨event,hevent,hdeposit⟩ := List.mem_filterMap.mp hmem
  obtain ⟨earlier,later,hsplit⟩ := List.append_of_mem hevent
  have hlater : (event::later).filterMap uses=[] := by
    rw [hsplit,List.filterMap_append] at hunused
    exact (List.append_eq_nil_iff.mp hunused).2
  have hkept := h earlier event later party part hsplit hdeposit
  rw [hlater] at hkept
  exact hkept

/-- The same for what lies in slots. -/
theorem Kept.step (h : Kept deposits uses share slot history)
    (hold : ∀ party part,slot party=some part → match uses event with
      | some item => share party item=part
      | none => slot' party=some part)
    (hnew : ∀ party part,deposits event=some (party,part) → match uses event with
      | some item => share party item=part
      | none => slot' party=some part) : Kept deposits uses share slot' (history++[event]) :=
  @KeptWhere.step _ _ _ _ deposits uses share (fun party part => slot party=some part)
    (fun party part => slot' party=some part) history event h hold hnew

/-- An event that deposits and uses nothing. -/
theorem Kept.unchanged (h : Kept deposits uses share slot history)
    (hdeposits : deposits event=none) (huses : uses event=none)
    (hslot : ∀ party,slot' party=slot party) :
    Kept deposits uses share slot' (history++[event]) := by
  apply h.step
  · intro party part hs
    rw [huses]
    exact (hslot party).trans hs
  · intro party part hd
    rw [hdeposits] at hd
    cases hd

end Deposits

section Decisions

variable {Message : Type}

/-- What an event means for a decision and its announcement. -/
inductive Notice (Message : Type)
  | decided (task : ℕ) (messages : List Message)
  | told (task : ℕ) (message : Message)
  | other

/-- The decision of an event, with what its task is going to tell. -/
def Notice.decision : Notice Message → Option (ℕ×List Message)
  | .decided task messages => some (task,messages)
  | _ => none

/-- The message of an event. -/
def Notice.message : Notice Message → Option Message
  | .told _ message => some message
  | _ => none

/-- All decisions. -/
def decisions (notices : List (Notice Message)) : List (ℕ×List Message) :=
  notices.filterMap Notice.decision

/-- All messages told. -/
def told (notices : List (Notice Message)) : List Message := notices.filterMap Notice.message

/-- There is at most one decision, and what has been told is the beginning of
what it has its task tell. -/
structure ToldInOrder (notices : List (Notice Message)) : Prop where
  /-- At most one decision. -/
  once : (decisions notices).length≤1
  /-- Told in order. -/
  inOrder : told notices<+:(decisions notices).flatMap Prod.snd

/-- The task has taken the decision and has told so much of it. -/
def DecidedBy (notices : List (Notice Message)) (task : ℕ) (messages sofar : List Message) :
    Prop :=
  decisions notices=[(task,messages)] ∧ told notices=sofar

@[simp] theorem decisions_append (notices : List (Notice Message)) (notice : Notice Message) :
    decisions (notices++[notice])=decisions notices++notice.decision.toList := by
  cases notice <;> simp [decisions,List.filterMap_cons,Notice.decision]

@[simp] theorem told_append (notices : List (Notice Message)) (notice : Notice Message) :
    told (notices++[notice])=told notices++notice.message.toList := by
  cases notice <;> simp [told,List.filterMap_cons,Notice.message]

theorem toldInOrder_nil : ToldInOrder ([] : List (Notice Message)) :=
  ⟨Nat.zero_le _,List.prefix_rfl⟩

/-- The first decision. -/
theorem ToldInOrder.decide {notices : List (Notice Message)} (h : ToldInOrder notices)
    (hnone : decisions notices=[]) (task : ℕ) (messages : List Message) :
    ToldInOrder (notices++[.decided task messages]) ∧
      DecidedBy (notices++[.decided task messages]) task messages [] := by
  have htold : told notices=[] := by
    have hin := h.inOrder
    rw [hnone] at hin
    exact List.prefix_nil.mp hin
  have hdecided : decisions (notices++[.decided task messages])=[(task,messages)] := by
    rw [decisions_append,hnone]
    rfl
  have hsofar : told (notices++[.decided task messages])=[] := by
    rw [told_append,htold]
    rfl
  refine ⟨⟨?_,?_⟩,hdecided,hsofar⟩
  · rw [hdecided]
    exact Nat.le_refl 1
  · rw [hsofar]
    exact List.nil_prefix

/-- The next message of the decision. -/
theorem DecidedBy.tell {notices : List (Notice Message)} {task : ℕ}
    {messages sofar : List Message} (h : DecidedBy notices task messages sofar)
    {message : Message} (hnext : sofar++[message]<+:messages) :
    ToldInOrder (notices++[.told task message]) ∧
      DecidedBy (notices++[.told task message]) task messages (sofar++[message]) := by
  have hdecided : decisions (notices++[.told task message])=[(task,messages)] := by
    rw [decisions_append,h.1]
    rfl
  have hsofar : told (notices++[.told task message])=sofar++[message] := by
    rw [told_append,h.2]
    rfl
  refine ⟨⟨?_,?_⟩,hdecided,hsofar⟩
  · rw [hdecided]
    exact Nat.le_refl 1
  · rw [hdecided,hsofar]
    simpa using hnext

/-- Only the task that has decided tells anything. -/
theorem DecidedBy.unique {notices : List (Notice Message)} {task task' : ℕ}
    {messages messages' sofar sofar' : List Message}
    (h : DecidedBy notices task messages sofar) (h' : DecidedBy notices task' messages' sofar') :
    task=task' := by
  have he := h.1.symm.trans h'.1
  simp only [List.cons.injEq,Prod.mk.injEq,and_true] at he
  exact he.1

/-- An event that means nothing. -/
theorem notice_other {notices : List (Notice Message)} :
    decisions (notices++[.other])=decisions notices ∧ told (notices++[.other])=told notices := by
  simp [Notice.decision,Notice.message]

end Decisions

end KiClash.Histories

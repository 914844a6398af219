import KiClash.Histories

/-!
# One end that is announced once

A library for something that several tasks can bring to an end. An event of its
history decides the end and says what its task is going to tell of it, or it
tells one of these messages, or it means neither. If the end is only decided
while it is open, and if only the task that has decided tells what it has to
tell, then there is one end and everyone is told of it at most once.
-/

namespace KiClash.Endings

open Histories

/-- How the events of a history and the stored value are read. -/
structure Reading (Event Value Message : Type) where
  /-- What an event means. -/
  notice : Event → Notice Message
  /-- The event changes the value from open to over. -/
  leaves : Event → Bool
  /-- The event does not change how it has ended. -/
  lasts : Event → Bool
  /-- The value says that it is over. -/
  isOver : Option Value → Prop
  /-- What may be told of an end. -/
  fair : List Message → Prop

section Rules

variable {Event Value Message : Type} {R : Reading Event Value Message}
  {value value' : Option Value} {trace : List Event} {event : Event} {task : ℕ}
  {messages sofar : List Message} {message : Message}

/-- There is one end, after which it is over, and it is told in order. -/
structure Reading.Announced (R : Reading Event Value Message) (value : Option Value)
    (trace : List Event) : Prop where
  /-- There is one end, and it is told in order. -/
  inOrder : ToldInOrder (trace.map R.notice)
  /-- After the end it is over. -/
  isOver : decisions (trace.map R.notice)≠[] → R.isOver value
  /-- What is told is fair. -/
  fair : ∀ decision∈decisions (trace.map R.notice),R.fair decision.2
  /-- Every end is a decision. -/
  leaves : (trace.filter R.leaves).length=(decisions (trace.map R.notice)).length
  /-- It stays ended as it is. -/
  lasts : ∀ event∈trace,R.lasts event=true

/-- The task has decided the end and has told so much of it. -/
abbrev Reading.Ended (R : Reading Event Value Message) (trace : List Event) (task : ℕ)
    (messages sofar : List Message) : Prop := DecidedBy (trace.map R.notice) task messages sofar

/-- What a task expects of the others: nobody else decides or tells in its
place, and what is over stays over. -/
structure Reading.Expects (R : Reading Event Value Message) (task : ℕ)
    (value value' : Option Value) (trace trace' : List Event) : Prop where
  /-- What is over stays over. -/
  isOver : R.isOver value → R.isOver value'
  /-- The task has decided and told what it had. -/
  mine : ∀ messages sofar,R.Ended trace' task messages sofar ↔ R.Ended trace task messages sofar

theorem Reading.Expects.refl (R : Reading Event Value Message) (task : ℕ) (value : Option Value)
    (trace : List Event) : R.Expects task value value trace trace :=
  ⟨fun h => h,fun _ _ => Iff.rfl⟩

theorem Reading.Expects.trans {value'' : Option Value} {trace' trace'' : List Event}
    (h : R.Expects task value value' trace trace')
    (h' : R.Expects task value' value'' trace' trace'') :
    R.Expects task value value'' trace trace'' :=
  ⟨fun ho => h'.isOver (h.isOver ho),fun m s => (h'.mine m s).trans (h.mine m s)⟩

/-- Nothing has happened yet. -/
theorem Reading.announced_nil (R : Reading Event Value Message) (value : Option Value) :
    R.Announced value [] :=
  ⟨toldInOrder_nil,fun h => absurd rfl h,fun _ h => absurd h List.not_mem_nil,rfl,
    fun _ h => absurd h List.not_mem_nil⟩

/-- An event that means nothing leaves the decisions and what has been told alone. -/
theorem decisions_other (trace : List Event) (h : R.notice event=.other) :
    decisions ((trace++[event]).map R.notice)=decisions (trace.map R.notice) ∧
      told ((trace++[event]).map R.notice)=told (trace.map R.notice) := by
  rw [List.map_append,List.map_singleton,h]
  exact notice_other

/-- An event that neither decides nor tells. -/
theorem Reading.Announced.other (h : R.Announced value trace) (hnotice : R.notice event=.other)
    (hleaves : R.leaves event=false) (hlasts : R.lasts event=true)
    (hover : R.isOver value → R.isOver value') : R.Announced value' (trace++[event]) := by
  obtain ⟨hdecisions,htold⟩ := decisions_other trace hnotice
  refine ⟨⟨?_,?_⟩,?_,?_,?_,?_⟩
  · rw [hdecisions]
    exact h.inOrder.once
  · rw [hdecisions,htold]
    exact h.inOrder.inOrder
  · intro hne
    rw [hdecisions] at hne
    exact hover (h.isOver hne)
  · rw [hdecisions]
    exact h.fair
  · rw [hdecisions,List.filter_append,List.filter_singleton,hleaves]
    simpa using h.leaves
  · intro e he
    rcases List.mem_append.mp he with he | he
    · exact h.lasts e he
    · rw [List.mem_singleton.mp he]
      exact hlasts

/-- Such an event is expected by everyone. -/
theorem Reading.Expects.other (hnotice : R.notice event=.other)
    (hover : R.isOver value → R.isOver value') (task : ℕ) :
    R.Expects task value value' trace (trace++[event]) where
  isOver := hover
  mine messages sofar := by
    obtain ⟨hdecisions,htold⟩ := decisions_other trace hnotice
    unfold Reading.Ended DecidedBy
    rw [hdecisions,htold]

/-- Nothing has been decided while it is open. -/
theorem Reading.Announced.undecided (h : R.Announced value trace) (hopen : ¬R.isOver value) :
    decisions (trace.map R.notice)=[] := by
  by_contra hne
  exact hopen (h.isOver hne)

/-- The end is decided. -/
theorem Reading.Announced.decides (h : R.Announced value trace)
    (hnotice : R.notice event=.decided task messages) (hfair : R.fair messages)
    (hleaves : R.leaves event=true) (hlasts : R.lasts event=true) (hopen : ¬R.isOver value)
    (hover : R.isOver value') :
    R.Announced value' (trace++[event]) ∧
      (∀ other,other≠task → R.Expects other value value' trace (trace++[event])) ∧
      R.Ended (trace++[event]) task messages [] := by
  have hnone := h.undecided hopen
  obtain ⟨hinOrder,hended⟩ := h.inOrder.decide hnone task messages
  have hmap : (trace++[event]).map R.notice=trace.map R.notice++[.decided task messages] := by
    rw [List.map_append,List.map_singleton,hnotice]
  unfold Reading.Ended
  rw [hmap]
  refine ⟨⟨?_,fun _ => hover,?_,?_,?_⟩,fun other hne => ⟨fun ho => absurd ho hopen,?_⟩,hended⟩
  · rw [hmap]
    exact hinOrder
  · rw [hmap,hended.1]
    intro decision hd
    rw [List.mem_singleton.mp hd]
    exact hfair
  · rw [hmap,hended.1,List.filter_append,List.length_append,h.leaves,hnone,
      List.filter_singleton,hleaves]
    rfl
  · intro e he
    rcases List.mem_append.mp he with he | he
    · exact h.lasts e he
    · rw [List.mem_singleton.mp he]
      exact hlasts
  · intro messages' sofar'
    unfold Reading.Ended
    rw [hmap]
    constructor
    · exact fun hother => absurd (hother.unique hended) hne
    · intro hother
      rw [DecidedBy,hnone] at hother
      cases hother.1

/-- The task that has decided tells the next message. -/
theorem Reading.Announced.tells (h : R.Announced value trace) (event : Event)
    (hended : R.Ended trace task messages sofar) (hnext : sofar++[message]<+:messages)
    (hnotice : R.notice event=.told task message) (hleaves : R.leaves event=false)
    (hlasts : R.lasts event=true) :
    R.Announced value (trace++[event]) ∧
      (∀ other,other≠task → R.Expects other value value trace (trace++[event])) ∧
      R.Ended (trace++[event]) task messages (sofar++[message]) := by
  obtain ⟨hinOrder,htold⟩ := hended.tell hnext
  have hmap : (trace++[event]).map R.notice=trace.map R.notice++[.told task message] := by
    rw [List.map_append,List.map_singleton,hnotice]
  have hdecisions : decisions (trace.map R.notice++[.told task message])=
      decisions (trace.map R.notice) := htold.1.trans hended.1.symm
  unfold Reading.Ended
  rw [hmap]
  refine ⟨⟨?_,?_,?_,?_,?_⟩,fun other hne => ⟨fun ho => ho,fun m s => ?_⟩,htold⟩
  · rw [hmap]
    exact hinOrder
  · rw [hmap,hdecisions]
    exact h.isOver
  · rw [hmap,hdecisions]
    exact h.fair
  · rw [hmap,hdecisions,List.filter_append,List.filter_singleton,hleaves]
    simpa using h.leaves
  · intro e he
    rcases List.mem_append.mp he with he | he
    · exact h.lasts e he
    · rw [List.mem_singleton.mp he]
      exact hlasts
  · unfold Reading.Ended
    rw [hmap]
    constructor
    · exact fun hother => absurd (hother.unique htold) hne
    · exact fun hother => absurd (hother.unique hended) hne

/-- What has been told is the beginning of something fair, if anything. -/
theorem Reading.Announced.told_fair (h : R.Announced value trace) :
    told (trace.map R.notice)=[] ∨
      ∃ messages,R.fair messages ∧ told (trace.map R.notice)<+:messages := by
  have hin := h.inOrder.inOrder
  have honce := h.inOrder.once
  cases hd : decisions (trace.map R.notice) with
  | nil =>
    rw [hd] at hin
    exact .inl (List.prefix_nil.mp hin)
  | cons decision rest =>
    have hfair := h.fair decision (by rw [hd]; exact List.mem_cons_self)
    rw [hd] at hin honce
    have hrest : rest=[] := by simpa using honce
    rw [hrest] at hin
    exact .inr ⟨decision.2,hfair,by simpa using hin⟩

end Rules

section Sides

variable {Event Value Player Label : Type} {agrees : Label → Label → Prop}
  {p1 p2 : Player} {messages : List (Player×Label)}

/-- What is told to two sides does not contradict itself: one message to each,
which agree, or a single message. -/
def Fair (agrees : Label → Label → Prop) (p1 p2 : Player) (messages : List (Player×Label)) : Prop :=
  (∃ label₁ label₂,messages=[(p1,label₁),(p2,label₂)] ∧ agrees label₁ label₂) ∨
    ∃ message,messages=[message]

/-- Fair messages to both sides agree. -/
theorem Fair.agree (hne : p1≠p2) (h : Fair agrees p1 p2 messages) {label₁ label₂ : Label}
    (h₁ : (p1,label₁)∈messages) (h₂ : (p2,label₂)∈messages) : agrees label₁ label₂ := by
  obtain ⟨l₁,l₂,rfl,hagree⟩ | ⟨message,rfl⟩ := h
  · have hl₁ : label₁=l₁ := by simpa [hne] using h₁
    have hl₂ : label₂=l₂ := by simpa [hne.symm] using h₂
    rw [hl₁,hl₂]
    exact hagree
  · rw [List.mem_singleton] at h₁ h₂
    have he := h₁.trans h₂.symm
    exact absurd (Prod.mk.inj he).1 hne

variable [DecidableEq Player]

/-- What one side is told. -/
def labelsFor (player : Player) (messages : List (Player×Label)) : List Label :=
  messages.filterMap fun message => if message.1=player then some message.2 else none

/-- Something told to a side is among the messages. -/
theorem mem_labelsFor {player : Player} {label : Label} :
    label∈labelsFor player messages ↔ (player,label)∈messages := by
  unfold labelsFor
  rw [List.mem_filterMap]
  constructor
  · rintro ⟨message,hmessage,hsome⟩
    split at hsome
    · next hplayer =>
      cases hsome
      rwa [← hplayer]
    · cases hsome
  · exact fun h => ⟨(player,label),h,if_pos rfl⟩

/-- Fair messages hold at most one for each side. -/
theorem Fair.once (hne : p1≠p2) (h : Fair agrees p1 p2 messages) (player : Player) :
    (labelsFor player messages).length≤1 := by
  unfold labelsFor
  obtain ⟨label₁,label₂,rfl,-⟩ | ⟨message,rfl⟩ := h
  · by_cases h₁ : p1=player
    · have h₂ : p2≠player := fun he => hne (h₁.trans he.symm)
      simp [h₁,h₂]
    · by_cases h₂ : p2=player <;> simp [h₁,h₂]
  · by_cases hm : message.1=player <;> simp [hm]

variable {R : Reading Event Value (Player×Label)} {value : Option Value} {trace : List Event}

/-- Each side is told at most once. -/
theorem Reading.Announced.once (h : R.Announced value trace)
    (hfair : ∀ messages,R.fair messages → Fair agrees p1 p2 messages) (hne : p1≠p2)
    (player : Player) : (labelsFor player (told (trace.map R.notice))).length≤1 := by
  obtain htold | ⟨messages,hm,hbegins⟩ := h.told_fair
  · rw [htold]
    exact Nat.zero_le 1
  · exact Nat.le_trans (hbegins.filterMap _).length_le ((hfair messages hm).once hne player)

/-- What both sides are told agrees. -/
theorem Reading.Announced.agree (h : R.Announced value trace)
    (hfair : ∀ messages,R.fair messages → Fair agrees p1 p2 messages) (hne : p1≠p2)
    {label₁ label₂ : Label} (h₁ : label₁∈labelsFor p1 (told (trace.map R.notice)))
    (h₂ : label₂∈labelsFor p2 (told (trace.map R.notice))) : agrees label₁ label₂ := by
  rw [mem_labelsFor] at h₁ h₂
  obtain htold | ⟨messages,hm,hbegins⟩ := h.told_fair
  · rw [htold] at h₁
    cases h₁
  · exact (hfair messages hm).agree hne (hbegins.subset h₁) (hbegins.subset h₂)

end Sides

end KiClash.Endings

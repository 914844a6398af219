import KiClash.GoPendingPairs

/-!
# Which turns of the Go session are applied exactly once

submitAction clears a pair in one transaction and hands it to resolveTurn,
which applies it in another one. If nothing comes between them, each cleared
pair is applied once, as the turn for which it was cleared, and a stored action
is part of the next pair. The condition names what may not come between; the
session does not exclude any of it.
-/

namespace KiClash.GoTurnApplication

open GoTypes GoEngine Histories AsyncTasks WatchedKey RecordContracts
open GameStore (Pairing)
open GoStore GoSession GoSessionContracts GoSessionSafety GoPendingPairs

/-- What an event means for the pairs that are handed from submitAction to
resolveTurn. A pair is dropped when its goroutine gives up without applying it. -/
def turnStep : GoStore.Event → Step TurnPair
  | .commit task (.submit playerId action _) before _ =>
    match completedPair playerId action before with
    | some pair => .taken task pair
    | none => .other
  | .commit task (.resolve p1 p2) before _ =>
    match openRound before with
    | some cr => .given task (.now cr p1 p2)
    | none => .other
  | .conflict task (.resolve _ _) 0 => .dropped task
  | .note (.failed task _) => .dropped task
  | _ => .other

/-- The pairs that committed submissions have cleared. -/
def clearedPairs (trace : List GoStore.Event) : List TurnPair :=
  (trace.map turnStep).filterMap Step.takes

/-- The pairs that committed resolutions have applied, each for its turn. -/
def appliedPairs (trace : List GoStore.Event) : List TurnPair :=
  (trace.map turnStep).filterMap Step.gives

/-- The cleared pair that waits to be applied, with its goroutine. -/
def waiting (trace : List GoStore.Event) : Option (GoroutineId×TurnPair) :=
  held (trace.map turnStep)

@[simp] theorem waiting_append (trace : List GoStore.Event) (event : GoStore.Event) :
    waiting (trace++[event])=(turnStep event).advance (waiting trace) := by
  simp [waiting]

/-- The pair that submitAction goes on to resolve after its mutator has run on
the session with captured variables as they are. -/
def resolution (playerId : String) (action : Action) (stale : SubmitCaptured)
    (sess : PvPSession) : Option (Action×Action) :=
  match storeAction playerId action stale sess with
  | .ok (captured,_) =>
    if captured.validationErr="" ∧ captured.shouldResolve=true then
      some (captured.p1ToResolve,captured.p2ToResolve)
    else none
  | .error _ => none

/-- A committed submission only goes on to resolve the pair that it has cleared. -/
def ResolvesOwnPair : GoStore.Event → Prop
  | .commit _ (.submit playerId action stale) before _ =>
    ∀ p1 p2,resolution playerId action stale before=some (p1,p2) →
      ∃ pair,completedPair playerId action before=some pair ∧ pair.p1=p1 ∧ pair.p2=p2
  | _ => True

/-- The player and the action of a submission that has been accepted. -/
def acceptedAction : GoStore.Event → Option (String×Action)
  | .commit _ (.submit playerId action _) before _ =>
    (acceptingRound playerId action before).map fun _ => (playerId,action)
  | _ => none

/-- The pair that an event clears. -/
def clearedPair (event : GoStore.Event) : Option TurnPair := (turnStep event).takes

/-- The player's action of a pair. -/
def actionOf (pairing : Pairing) (playerId : String) (pair : TurnPair) : Action :=
  if playerId=p1Of pairing then pair.p1 else pair.p2

/-- The player's pending action under the key. -/
def pendingAction (value : Option PvPSession) (playerId : String) : Option Action :=
  value.bind (slotOf playerId)

/-- Turn resolution is exactly-once. -/
structure ExactlyOnce (pairing : Pairing) (config : instances.Config) : Prop where
  /-- The pairs that have been applied are the cleared ones in the same order,
  each applied as the turn for which it was cleared; at most the latest one is
  still to be applied. -/
  accounted : clearedPairs config.world.trace=appliedPairs config.world.trace++
    ((waiting config.world.trace).map Prod.snd).toList
  /-- The goroutine of a waiting pair is on the way to apply it. -/
  underWay : ∀ task pair,waiting config.world.trace=some (task,pair) → ¬Rests config task
  /-- A submission only resolves the pair that its committed attempt has cleared. -/
  ownPair : ∀ event∈config.world.trace,ResolvesOwnPair event
  /-- An accepted action is part of the next cleared pair, or still pending. -/
  kept : Kept acceptedAction clearedPair (actionOf pairing) (pendingAction config.world.value)
    config.world.trace

/-- Both actions can be paid for in the open round. -/
def PairAffordable (sess : PvPSession) (pair : TurnPair) : Prop :=
  ∃ cr∈openRound sess,Affordable cr pair.p1 pair.p2

instance (sess : PvPSession) (pair : TurnPair) : Decidable (PairAffordable sess pair) :=
  inferInstanceAs (Decidable (∃ cr∈openRound sess,_))

/-- The player has no other action pending. -/
def SlotFree (playerId : String) (action : Action) (sess : PvPSession) : Prop :=
  ∀ pending∈slotOf playerId sess,pending=action

instance (playerId : String) (action : Action) (sess : PvPSession) :
    Decidable (SlotFree playerId action sess) :=
  inferInstanceAs (Decidable (∀ pending∈slotOf playerId sess,_))

/-- Nothing disturbs the way from an accepted action to its turn. An action is
not accepted over another pending action of its player. A pair is cleared while
none waits, can be paid for, and is not hidden behind an error that an aborted
attempt of the same call has left; a call that clears nothing does not resolve
what an aborted attempt has left; no forfeit is written while a pair waits; and
the goroutine of a waiting pair neither fails nor runs out of attempts. -/
def Undisturbed (earlier : List GoStore.Event) : GoStore.Event → Prop
  | .commit _ (.submit playerId action stale) before _ =>
    ((acceptingRound playerId action before).isSome=true → SlotFree playerId action before) ∧
    match completedPair playerId action before with
    | some pair =>
      waiting earlier=none ∧ PairAffordable before pair ∧ stale.validationErr=""
    | none => (acceptingRound playerId action before).isSome=true →
      ¬(stale.validationErr="" ∧ stale.shouldResolve=true)
  | .commit _ (.forfeit _) _ _ => waiting earlier=none
  | .conflict task (.resolve _ _) 0 => heldBy (earlier.map turnStep) task=false
  | .note (.failed task _) => heldBy (earlier.map turnStep) task=false
  | _ => True

instance (earlier : List GoStore.Event) : ∀ event : GoStore.Event,Decidable (Undisturbed earlier event)
  | .commit _ (.submit playerId action stale) before _ =>
    show Decidable (_ ∧ match completedPair playerId action before with
      | some pair =>
        waiting earlier=none ∧ PairAffordable before pair ∧ stale.validationErr=""
      | none => (acceptingRound playerId action before).isSome=true →
        ¬(stale.validationErr="" ∧ stale.shouldResolve=true)) from
    match completedPair playerId action before with
    | some _ | none => inferInstance
  | .commit _ (.forfeit _) _ _ => inferInstanceAs (Decidable (waiting earlier=none))
  | .conflict task (.resolve _ _) 0 =>
    inferInstanceAs (Decidable (heldBy (earlier.map turnStep) task=false))
  | .note (.failed task _) =>
    inferInstanceAs (Decidable (heldBy (earlier.map turnStep) task=false))
  | .commit _ (.connect _) _ _ | .commit _ .start _ _ | .commit _ (.disconnect _) _ _
  | .commit _ (.resolve _ _) _ _ | .conflict _ (.connect _) _ | .conflict _ .start _
  | .conflict _ (.submit _ _ _) _ | .conflict _ (.disconnect _) _ | .conflict _ (.forfeit _) _
  | .conflict _ (.resolve _ _) (_+1) | .deleted _ | .loaded _ _ | .note (.started _ _)
  | .note (.received _ _) | .note (.sent _ _ _) => instDecidableTrue

/-- The invariant: the record is in order, a waiting pair fits the open round,
and nothing accepted has been lost. -/
structure TurnInvariant (pairing : Pairing) (count : ℕ) (record : SessionRecord) : Prop where
  /-- There is a session, and it belongs to the two players. -/
  stored : ∃ sess,record.value=some sess ∧ Belongs pairing sess
  /-- Cleared pairs are applied or wait. -/
  accounted : Accounted (record.trace.map turnStep)
  /-- A waiting pair can be applied now. -/
  applicable : ∀ task pair,waiting record.trace=some (task,pair) → task<count ∧
    ∃ sess cr,record.value=some sess ∧ openRound sess=some cr ∧ pair=.now cr pair.p1 pair.p2 ∧
      Affordable cr pair.p1 pair.p2
  /-- Submissions resolve their own pairs. -/
  ownPair : ∀ event∈record.trace,ResolvesOwnPair event
  /-- Accepted actions are part of the next pair or pending. -/
  kept : Kept acceptedAction clearedPair (actionOf pairing) (pendingAction record.value)
    record.trace

/-- A goroutine holds a pair between its clearing and its application. -/
def HoldsAs (task : GoroutineId) (phase : Phase) (record : SessionRecord) : Prop :=
  match phase with
  | .holding p1 p2 => ∃ pair,waiting record.trace=some (task,pair) ∧ pair.p1=p1 ∧ pair.p2=p2
  | _ => ∀ pair,waiting record.trace≠some (task,pair)

/-- The contract behind exactly-once application. -/
def turnContract (pairing : Pairing) : SessionContract where
  pairing := pairing
  allowed := Meets Undisturbed
  inv := TurnInvariant pairing
  expects task record record' := KeepsHeld turnStep task record.trace record'.trace
  phase := HoldsAs
  captures _ _ := True

section Slots

variable {pairing : Pairing} {playerId other : String} {action : Action} {sess : PvPSession}

/-- The slots after an action has been stored. -/
theorem slotOf_storeInSlot (playerId other : String) (action : Action) (sess : PvPSession) :
    slotOf other (storeInSlot playerId action sess)=
      if (other=sess.player1Id ↔ playerId=sess.player1Id) then some action
      else slotOf other sess := by
  unfold slotOf storeInSlot
  by_cases h : other=sess.player1Id <;> by_cases h' : playerId=sess.player1Id <;> simp [h,h']

/-- An action that is stored in a free slot replaces nothing else. -/
theorem slot_kept (hfree : SlotFree playerId action sess) {pending : Action}
    (h : slotOf other sess=some pending) :
    slotOf other (storeInSlot playerId action sess)=some pending := by
  rw [slotOf_storeInSlot]
  split
  · next hsame =>
    have hslot : slotOf playerId sess=some pending := by
      rw [← h]
      unfold slotOf
      simp only [hsame]
    rw [hfree pending hslot]
  · exact h

/-- The player's own slot holds his action. -/
theorem slot_stored : slotOf playerId (storeInSlot playerId action sess)=some action := by
  rw [slotOf_storeInSlot,if_pos Iff.rfl]

/-- The share of a pair is what was in the slot. -/
theorem actionOf_now (cr : RoundState) {p1 p2 : Action} {sess : PvPSession}
    (hbelongs : Belongs pairing sess) (h₁ : sess.p1Action=some p1) (h₂ : sess.p2Action=some p2) :
    slotOf other sess=some (actionOf pairing other (.now cr p1 p2)) := by
  unfold slotOf actionOf
  rw [hbelongs.1,h₁,h₂]
  split <;> rfl

end Slots

section Steps

variable {pairing : Pairing} {count : ℕ} {record : SessionRecord} {task : GoroutineId}
  {sess sess' : PvPSession}

/-- What a change of the record has to satisfy. -/
def Within (pairing : Pairing) (task : GoroutineId) (count : ℕ) (record record' : SessionRecord)
    (phase : Phase) : Prop :=
  TurnInvariant pairing count record' ∧
    (∀ other,other≠task → KeepsHeld turnStep other record.trace record'.trace) ∧
    HoldsAs task phase record'

/-- An assertion about the held pair survives what is expected of others. -/
theorem HoldsAs.stable {phase : Phase} {record' : SessionRecord}
    (he : KeepsHeld turnStep task record.trace record'.trace) (h : HoldsAs task phase record) :
    HoldsAs task phase record' := by
  cases phase with
  | holding p1 p2 =>
    obtain ⟨pair,hw,ha⟩ := h
    exact ⟨pair,(he pair).mpr hw,ha⟩
  | idle | resolved | telling | forfeiting => exact fun pair hw => h pair ((he pair).mp hw)

/-- An event that clears nothing accepts nothing and resolves nothing, except
for a submission. -/
theorem event_own (event : GoStore.Event)
    (hcall : ∀ task' player action stale before after,
      event≠.commit task' (.submit player action stale) before after) :
    acceptedAction event=none ∧ clearedPair event=none ∧ ResolvesOwnPair event := by
  cases event with
  | commit task' call before after =>
    cases call with
    | submit player action stale => exact absurd rfl (hcall task' player action stale before after)
    | resolve p1 p2 =>
      refine ⟨rfl,?_,True.intro⟩
      simp only [clearedPair,turnStep]
      split <;> rfl
    | connect | start | disconnect | forfeit => exact ⟨rfl,rfl,True.intro⟩
  | conflict task' call retriesLeft =>
    refine ⟨rfl,?_,True.intro⟩
    simp only [clearedPair,turnStep]
    split <;> first | rfl | contradiction
  | note note => cases note <;> exact ⟨rfl,rfl,True.intro⟩
  | deleted | loaded => exact ⟨rfl,rfl,True.intro⟩

/-- What holds of all events holds of one more. -/
theorem forall_append {P : GoStore.Event → Prop} {event : GoStore.Event}
    (h : ∀ e∈record.trace,P e) (he : P event) : ∀ e∈record.trace++[event],P e := by
  intro e hin
  rcases List.mem_append.mp hin with hin | hin
  · exact h e hin
  · rw [List.mem_singleton.mp hin]
    exact he

/-- The value does not change: the record grows by an event that drops nothing
held. -/
theorem log_other (task : GoroutineId) (event : GoStore.Event)
    (hcall : ∀ task' player action stale before after,
      event≠.commit task' (.submit player action stale) before after)
    (hstep : turnStep event=.other ∨ turnStep event=.dropped task)
    (hfree : turnStep event=.dropped task → heldBy (record.trace.map turnStep) task=false)
    (hinv : TurnInvariant pairing count record) :
    TurnInvariant pairing count (record.log event) ∧
      ∀ other,KeepsHeld turnStep other record.trace (record.log event).trace := by
  obtain ⟨hdeposits,huses,hown⟩ := event_own event hcall
  have hsame : ∀ other,KeepsHeld turnStep other record.trace (record.trace++[event]) := by
    obtain hstep | hstep := hstep
    · exact fun other => KeepsHeld.unchanged hstep other record.trace
    · exact KeepsHeld.dropped hstep (hfree hstep)
  have horderly : (turnStep event).Orderly (held (record.trace.map turnStep)) := by
    obtain hstep | hstep := hstep
    · rw [hstep]
      exact True.intro
    · rw [hstep]
      intro pair hheld
      have hfree := hfree hstep
      rw [heldBy_iff.mpr ⟨pair,hheld⟩] at hfree
      cases hfree
  refine ⟨⟨hinv.stored,?_,?_,forall_append hinv.ownPair hown,
    hinv.kept.unchanged hdeposits huses fun _ => rfl⟩,hsame⟩
  · change Accounted ((record.trace++[event]).map turnStep)
    rw [List.map_append,List.map_singleton]
    exact hinv.accounted.step horderly
  · intro task' pair hw
    exact hinv.applicable task' pair ((hsame task' pair).mp hw)

/-- An event that means nothing leaves every phase alone. -/
theorem log_unchanged (event : GoStore.Event) (phase : Phase)
    (hcall : ∀ task' player action stale before after,
      event≠.commit task' (.submit player action stale) before after)
    (hstep : turnStep event=.other) (hinv : TurnInvariant pairing count record)
    (hphase : HoldsAs task phase record) :
    Within pairing task count record (record.log event) phase := by
  obtain ⟨hi,he⟩ := log_other task event hcall (.inl hstep)
    (fun hd => by rw [hstep] at hd; cases hd) hinv
  exact ⟨hi,fun other _ => he other,hphase.stable (he task)⟩

/-- A transaction after which the open round is as before, and that stores,
clears and applies nothing. -/
theorem commit_unchanged (task : GoroutineId) (call : Call) (sess sess' : PvPSession)
    (hcall : ∀ player action stale,call≠.submit player action stale)
    (hstep : turnStep (.commit task call sess sess')=.other)
    (hround : waiting record.trace=none ∨ openRound sess'=openRound sess)
    (h₁ : sess'.player1Id=sess.player1Id) (h₂ : sess'.player2Id=sess.player2Id)
    (hp1 : sess'.p1Action=sess.p1Action) (hp2 : sess'.p2Action=sess.p2Action)
    (hinv : TurnInvariant pairing count record) (hv : record.value=some sess) :
    TurnInvariant pairing count (record.commit task call sess') ∧
      ∀ other,KeepsHeld turnStep other record.trace (record.commit task call sess').trace := by
  obtain ⟨hdeposits,huses,hown⟩ := event_own (.commit task call sess sess') fun _ _ _ _ _ _ he => by
    cases he
    exact hcall _ _ _ rfl
  obtain ⟨s,hs,hbelongs⟩ := hinv.stored
  cases hv.symm.trans hs
  rw [record.commit_of_value hv]
  have hsame := fun other => KeepsHeld.unchanged hstep other record.trace
  refine ⟨⟨⟨sess',rfl,?_⟩,?_,?_,forall_append hinv.ownPair hown,
    hinv.kept.unchanged hdeposits huses fun player => ?_⟩,hsame⟩
  · unfold Belongs
    rw [h₁,h₂]
    exact hbelongs
  · rw [List.map_append,List.map_singleton]
    exact hinv.accounted.step (by rw [hstep]; exact True.intro)
  · intro task' pair hw
    have hw := (hsame task' pair).mp hw
    obtain ⟨hlt,s,cr,hs,hopen,hrest⟩ := hinv.applicable task' pair hw
    cases hv.symm.trans hs
    obtain hnone | hround := hround
    · rw [waiting] at hnone
      rw [hnone] at hw
      cases hw
    · exact ⟨hlt,sess',cr,rfl,hround.trans hopen,hrest⟩
  · simp only [pendingAction,hv,Option.bind_some,slotOf,h₁,hp1,hp2]

/-- What a submission means for the pairs. -/
theorem turnStep_submit {playerId : String} {action : Action} {stale : SubmitCaptured} :
    turnStep (.commit task (.submit playerId action stale) sess sess')=
      match completedPair playerId action sess with
      | some pair => .taken task pair
      | none => .other := rfl

/-- A rejected submission changes nothing. -/
theorem commit_rejected {playerId : String} {action : Action} {stale : SubmitCaptured}
    {message : String} (hmessage : message≠"")
    (hreject : acceptingRound playerId action sess=none)
    (hm : storeAction playerId action stale sess=.ok ({stale with validationErr := message},sess))
    (hinv : TurnInvariant pairing count record) (hidle : HoldsAs task .idle record)
    (hv : record.value=some sess) :
    Within pairing task count record (record.commit task (.submit playerId action stale) sess)
      .idle := by
  have hnone : completedPair playerId action sess=none := by
    simp only [completedPair,hreject]
  have hstep : turnStep (.commit task (.submit playerId action stale) sess sess)=.other := by
    rw [turnStep_submit,hnone]
  have hown : ResolvesOwnPair (.commit task (.submit playerId action stale) sess sess) := by
    intro p1 p2 hr
    simp [resolution,hm,hmessage] at hr
  obtain ⟨s,hs,hbelongs⟩ := hinv.stored
  cases hv.symm.trans hs
  rw [record.commit_of_value hv]
  have hsame := fun other => KeepsHeld.unchanged hstep other record.trace
  refine ⟨⟨⟨sess,rfl,hbelongs⟩,?_,?_,forall_append hinv.ownPair hown,
    hinv.kept.unchanged ?_ ?_ fun player => ?_⟩,fun other _ => hsame other,hidle.stable (hsame task)⟩
  · rw [List.map_append,List.map_singleton]
    exact hinv.accounted.step (by rw [hstep]; exact True.intro)
  · intro task' pair hw
    obtain ⟨hlt,hrest⟩ := hinv.applicable task' pair ((hsame task' pair).mp hw)
    rw [hv] at hrest
    exact ⟨hlt,hrest⟩
  · simp only [acceptedAction,hreject,Option.map_none]
  · rw [clearedPair,hstep]
    rfl
  · rw [hv]

/-- A submission that only stores its action. -/
theorem commit_stores {playerId : String} {action : Action} {stale : SubmitCaptured}
    {cr : RoundState} (haccept : acceptingRound playerId action sess=some cr)
    (hnone : completedPair playerId action sess=none)
    (hm : storeAction playerId action stale sess=
      .ok ({stale with confirmedTurn := cr.turnNumber+1},storeInSlot playerId action sess))
    (hslot : SlotFree playerId action sess)
    (hstale : ¬(stale.validationErr="" ∧ stale.shouldResolve=true))
    (hinv : TurnInvariant pairing count record) (hidle : HoldsAs task .idle record)
    (hv : record.value=some sess) :
    Within pairing task count record
      (record.commit task (.submit playerId action stale) (storeInSlot playerId action sess))
      .idle := by
  have hstep : ∀ after,turnStep (.commit task (.submit playerId action stale) sess after)=
      .other := by
    intro after
    rw [turnStep_submit,hnone]
  have hown : ∀ after,ResolvesOwnPair (.commit task (.submit playerId action stale) sess after) := by
    intro after p1 p2 hr
    simp only [resolution,hm,if_neg hstale] at hr
    cases hr
  obtain ⟨s,hs,hbelongs⟩ := hinv.stored
  cases hv.symm.trans hs
  rw [record.commit_of_value hv]
  have hsame := fun other => KeepsHeld.unchanged (hstep (storeInSlot playerId action sess)) other
    record.trace
  have huses : ∀ after,
      clearedPair (.commit task (.submit playerId action stale) sess after)=none := by
    intro after
    rw [clearedPair,hstep]
    rfl
  refine ⟨⟨⟨_,rfl,?_⟩,?_,?_,forall_append hinv.ownPair (hown _),hinv.kept.step ?_ ?_⟩,
    fun other _ => hsame other,hidle.stable (hsame task)⟩
  · unfold Belongs
    rw [storeInSlot_player1Id,storeInSlot_player2Id]
    exact hbelongs
  · rw [List.map_append,List.map_singleton]
    exact hinv.accounted.step (by rw [hstep]; exact True.intro)
  · intro task' pair hw
    obtain ⟨hlt,s,cr',hs,hopen,hrest⟩ := hinv.applicable task' pair ((hsame task' pair).mp hw)
    cases hv.symm.trans hs
    exact ⟨hlt,_,cr',rfl,(openRound_congr (storeInSlot_gameState _ _ _)).trans hopen,hrest⟩
  · intro other pending hpending
    rw [huses]
    rw [pendingAction,hv] at hpending
    exact slot_kept hslot hpending
  · intro other pending hdeposit
    rw [huses]
    simp only [acceptedAction,haccept,Option.map_some,Option.some.injEq,Prod.mk.injEq] at hdeposit
    rw [← hdeposit.1,← hdeposit.2]
    exact slot_stored

/-- A submission that completes a pair: its goroutine holds it from now on. -/
theorem commit_clears {playerId : String} {action : Action} {stale : SubmitCaptured}
    {cr : RoundState} {p1 p2 : Action}
    (haccept : acceptingRound playerId action sess=some cr)
    (h₁ : (storeInSlot playerId action sess).p1Action=some p1)
    (h₂ : (storeInSlot playerId action sess).p2Action=some p2)
    (hpair : completedPair playerId action sess=some (.now cr p1 p2))
    (hm : storeAction playerId action stale sess=
      .ok (⟨stale.validationErr,true,p1,p2,cr.turnNumber+1⟩,cleared (storeInSlot playerId action sess)))
    (hslot : SlotFree playerId action sess) (hwaiting : waiting record.trace=none)
    (hafford : Affordable cr p1 p2) (hlt : task<count) (hinv : TurnInvariant pairing count record)
    (hv : record.value=some sess) :
    Within pairing task count record
      (record.commit task (.submit playerId action stale)
        (cleared (storeInSlot playerId action sess)))
      (.holding p1 p2) := by
  have hstep : ∀ after,turnStep (.commit task (.submit playerId action stale) sess after)=
      .taken task (.now cr p1 p2) := by
    intro after
    rw [turnStep_submit,hpair]
  have hown : ∀ after,ResolvesOwnPair (.commit task (.submit playerId action stale) sess after) := by
    intro after p1' p2' hr
    simp only [resolution,hm] at hr
    split at hr
    · cases hr
      exact ⟨_,hpair,rfl,rfl⟩
    · cases hr
  obtain ⟨s,hs,hbelongs⟩ := hinv.stored
  cases hv.symm.trans hs
  have hbelongs' : Belongs pairing (storeInSlot playerId action sess) := by
    unfold Belongs
    rw [storeInSlot_player1Id,storeInSlot_player2Id]
    exact hbelongs
  have hopen := (acceptingRound_eq_some.mp haccept).1
  have hgame : (cleared (storeInSlot playerId action sess)).gameState=sess.gameState :=
    storeInSlot_gameState playerId action sess
  -- what lies in a slot after the action has been stored is the share of the pair
  have hshare : ∀ {other pending},slotOf other (storeInSlot playerId action sess)=some pending →
      actionOf pairing other (.now cr p1 p2)=pending := by
    intro other pending hpending
    rw [actionOf_now cr hbelongs' h₁ h₂] at hpending
    exact Option.some.inj hpending
  have huses : ∀ after,clearedPair (.commit task (.submit playerId action stale) sess after)=
      some (.now cr p1 p2) := by
    intro after
    rw [clearedPair,hstep]
    rfl
  rw [record.commit_of_value hv]
  refine ⟨⟨⟨_,rfl,hbelongs'⟩,?_,?_,forall_append hinv.ownPair (hown _),hinv.kept.step ?_ ?_⟩,
    fun other hne => ?_,?_⟩
  · rw [List.map_append,List.map_singleton,hstep]
    exact hinv.accounted.step hwaiting
  · intro task' pair hw
    rw [waiting_append,hstep] at hw
    cases hw
    exact ⟨hlt,_,cr,rfl,(openRound_congr hgame).trans hopen,rfl,hafford⟩
  · intro other pending hpending
    rw [huses]
    rw [pendingAction,hv] at hpending
    exact hshare (slot_kept hslot hpending)
  · intro other pending hdeposit
    rw [huses]
    simp only [acceptedAction,haccept,Option.map_some,Option.some.injEq,Prod.mk.injEq] at hdeposit
    rw [← hdeposit.1,← hdeposit.2]
    exact hshare slot_stored
  · exact KeepsHeld.others (by rw [hstep]; rfl) (fun _ _ => hwaiting) hne
  · exact ⟨_,by rw [waiting_append,hstep]; rfl,rfl,rfl⟩

/-- Whatever submitAction writes keeps the contract. -/
theorem commit_submits {playerId : String} {action : Action} {stale captured' : SubmitCaptured}
    (hm : storeAction playerId action stale sess=.ok (captured',sess'))
    (hfits : Undisturbed record.trace (.commit task (.submit playerId action stale) sess sess'))
    (hlt : task<count) (hinv : TurnInvariant pairing count record)
    (hidle : HoldsAs task .idle record) (hv : record.value=some sess) :
    Within pairing task count record (record.commit task (.submit playerId action stale) sess')
      (concluded captured') := by
  cases storeAction_cases hm with
  | rejected message hmessage hreject =>
    have hconcluded : concluded {stale with validationErr := message}=.idle :=
      if_neg fun h => hmessage h.1
    rw [hconcluded]
    exact commit_rejected hmessage hreject hm hinv hidle hv
  | stored cr haccept hnone =>
    obtain ⟨hslot,hstale⟩ := hfits
    rw [haccept] at hslot hstale
    rw [hnone] at hstale
    have hconcluded : concluded {stale with confirmedTurn := cr.turnNumber+1}=.idle :=
      if_neg (hstale rfl)
    rw [hconcluded]
    exact commit_stores haccept hnone hm (hslot rfl) (hstale rfl) hinv hidle hv
  | completed cr p1 p2 haccept h₁ h₂ hpair =>
    obtain ⟨hslot,hfits⟩ := hfits
    rw [haccept] at hslot
    rw [hpair] at hfits
    obtain ⟨hnone,⟨cr',hcr',hafford⟩,hstale⟩ := hfits
    have hopen := (acceptingRound_eq_some.mp haccept).1
    have hround : cr'=cr := Option.some.inj (hcr'.symm.trans hopen)
    rw [hround] at hafford
    have hconcluded : concluded ⟨stale.validationErr,true,p1,p2,cr.turnNumber+1⟩=.holding p1 p2 :=
      if_pos ⟨hstale,rfl⟩
    rw [hconcluded]
    exact commit_clears haccept h₁ h₂ hpair hm (hslot rfl) hnone hafford hlt hinv hv

/-- A resolution of the goroutine that holds the pair applies just this pair. -/
theorem commit_applies {p1 p2 : Action} {gameState : GameState} {report : TurnReport}
    (hsubmit : submitTurn sess.gameState p1 p2=(gameState,.ok report))
    (hinv : TurnInvariant pairing count record) (hholds : HoldsAs task (.holding p1 p2) record)
    (hv : record.value=some sess) :
    Within pairing task count record
      (record.commit task (.resolve p1 p2) {sess with gameState := gameState})
      (.resolved report) := by
  rw [record.commit_of_value hv]
  obtain ⟨cr,hopen,-,-⟩ := openRound_of_submitTurn hsubmit
  obtain ⟨pair,hw,rfl,rfl⟩ := hholds
  obtain ⟨-,s,cr',hs,hopen',hnow,-⟩ := hinv.applicable task pair hw
  cases hv.symm.trans hs
  cases hopen.symm.trans hopen'
  have hstep : ∀ after,turnStep (.commit task (.resolve pair.p1 pair.p2) sess after)=
      .given task pair := by
    intro after
    simp only [turnStep,hopen]
    rw [← hnow]
  have hnone : ∀ after,
      waiting (record.trace++[.commit task (.resolve pair.p1 pair.p2) sess after])=none := by
    intro after
    rw [waiting_append,hstep,hw]
    simp [Step.advance,Option.filter]
  obtain ⟨s,hs,hbelongs⟩ := hinv.stored
  cases hv.symm.trans hs
  refine ⟨⟨⟨_,rfl,hbelongs⟩,?_,?_,forall_append hinv.ownPair True.intro,
    hinv.kept.unchanged rfl ?_ fun other => ?_⟩,fun other hne => ?_,?_⟩
  · rw [List.map_append,List.map_singleton,hstep]
    exact hinv.accounted.step hw
  · intro task' pair' hw'
    rw [hnone] at hw'
    cases hw'
  · rw [clearedPair,hstep]
    rfl
  · rw [hv]
    rfl
  · refine KeepsHeld.others (by rw [hstep]; rfl) (fun pair' he => ?_) hne
    rw [hstep] at he
    cases he
  · intro pair' hw'
    rw [hnone] at hw'
    cases hw'

/-- A forfeit while no pair waits. -/
theorem commit_forfeits (phase : Phase) {disconnected : String}
    (hwaiting : waiting record.trace=none)
    (hinv : TurnInvariant pairing count record) (hv : record.value=some sess)
    (hphase : HoldsAs task phase record) :
    Within pairing task count record
      (record.commit task (.forfeit disconnected)
        {sess with gameState := {sess.gameState with status := matchAbandoned}}) phase := by
  obtain ⟨hi,he⟩ := commit_unchanged task (.forfeit disconnected) sess
    {sess with gameState := {sess.gameState with status := matchAbandoned}}
    (fun _ _ _ h => nomatch h) rfl (.inl hwaiting) rfl rfl rfl rfl hinv hv
  exact ⟨hi,fun other _ => he other,hphase.stable (he task)⟩

/-- The holder of a pair can always apply it. -/
theorem holding_applicable {p1 p2 : Action} (hinv : TurnInvariant pairing count record)
    (hholds : HoldsAs task (.holding p1 p2) record) :
    ∃ sess gameState report,record.value=some sess ∧
      submitTurn sess.gameState p1 p2=(gameState,.ok report) := by
  obtain ⟨pair,hw,rfl,rfl⟩ := hholds
  obtain ⟨-,sess,cr,hs,hopen,-,hafford⟩ := hinv.applicable task pair hw
  obtain ⟨gameState,report,hok⟩ := submitTurn_ok hopen hafford
  exact ⟨sess,gameState,report,hs,hok⟩

/-- A new goroutine holds nothing. -/
theorem start_first {entry : Entry} (hinv : TurnInvariant pairing count record) :
    TurnInvariant pairing (count+1) (record.log (.note (.started count entry))) ∧
      (∀ task,KeepsHeld turnStep task record.trace
        (record.log (.note (.started count entry))).trace) ∧
      HoldsAs count (firstPhase entry) (record.log (.note (.started count entry))) := by
  obtain ⟨hi,he⟩ := log_other count (.note (.started count entry))
    (fun _ _ _ _ _ _ h => nomatch h) (.inl rfl) (fun h => nomatch h) hinv
  have hnew : ∀ pair,
      waiting (record.log (.note (.started count entry))).trace≠some (count,pair) :=
    fun pair hw => absurd (hi.applicable count pair hw).1 (Nat.lt_irrefl count)
  refine ⟨⟨hi.stored,hi.accounted,fun task pair hw => ?_,hi.ownPair,hi.kept⟩,he,?_⟩
  · obtain ⟨hlt,hrest⟩ := hi.applicable task pair hw
    exact ⟨Nat.lt_succ_of_lt hlt,hrest⟩
  · cases entry <;> exact hnew

/-- A command of a goroutine that holds nothing fails. -/
theorem fail_idle {exc : Failure} (hfree : heldBy (record.trace.map turnStep) task=false)
    (hinv : TurnInvariant pairing count record) (phase : Phase) :
    Within pairing task count record (record.log (.note (.failed task exc)))
      phase.afterFailure := by
  obtain ⟨hi,he⟩ := log_other task (.note (.failed task exc))
    (fun _ _ _ _ _ _ h => nomatch h) (.inr rfl) (fun _ => hfree) hinv
  have hnone : ∀ pair,waiting (record.log (.note (.failed task exc))).trace≠some (task,pair) := by
    intro pair hw
    have hheld := (he task pair).mp hw
    rw [heldBy_iff.mpr ⟨pair,hheld⟩] at hfree
    cases hfree
  refine ⟨hi,fun other _ => he other,?_⟩
  cases phase <;> exact hnone

/-- A resolution that conflicts goes on, since it is not at its last attempt. -/
theorem resolve_conflicts {p1 p2 : Action} {retriesLeft : ℕ}
    (hfits : Undisturbed record.trace (.conflict task (.resolve p1 p2) retriesLeft))
    (hinv : TurnInvariant pairing count record) (hholds : HoldsAs task (.holding p1 p2) record) :
    retriesLeft≠0 ∧ Within pairing task count record
      (record.log (.conflict task (.resolve p1 p2) retriesLeft)) (.holding p1 p2) := by
  cases retriesLeft with
  | zero =>
    have hfree : heldBy (record.trace.map turnStep) task=false := hfits
    obtain ⟨pair,hw,-⟩ := hholds
    rw [heldBy_iff.mpr ⟨pair,hw⟩] at hfree
    cases hfree
  | succ retriesLeft =>
    exact ⟨Nat.succ_ne_zero _,log_unchanged _ _ (fun _ _ _ _ _ _ h => nomatch h) rfl hinv hholds⟩

end Steps

/-- Whatever the code appends to an undisturbed record keeps the contract. -/
theorem upheld (pairing : Pairing) : (turnContract pairing).Upheld where
  expects_refl task record := KeepsHeld.refl turnStep task record.trace
  expects_trans _ _ _ _ h h' := h.trans h'
  allowed_prefix := Meets.before
  stable _ _ _ _ he h := HoldsAs.stable he h
  stored hinv := hinv.stored
  untold := ⟨fun _ h => h,fun _ h => h,fun _ h => h⟩
  announces h := h
  starts hinv _ := start_first hinv
  loaded task value _ _ hinv _ _ := log_other task (.loaded task value)
    (fun _ _ _ _ _ _ h => nomatch h) (.inl rfl) (fun h => nomatch h) hinv
  sent task player message _ _ _ hinv _ _ :=
    log_other task (.note (.sent task player message)) (fun _ _ _ _ _ _ h => nomatch h)
      (.inl rfl) (fun h => nomatch h) hinv
  received task frame _ _ hinv _ _ := log_other task (.note (.received task frame))
    (fun _ _ _ _ _ _ h => nomatch h) (.inl rfl) (fun h => nomatch h) hinv
  failed _ phase _ _ _ _ hinv _ ha := fail_idle (meets_append.mp ha).2 hinv phase
  conflict := by
    intro task call retriesLeft phase hcall _ count record _ hinv hphase _
    have hstep : turnStep (.conflict task call retriesLeft)=.other := by
      cases call with
      | resolve p1 p2 => exact absurd rfl (hcall p1 p2)
      | connect | start | submit | disconnect | forfeit => rfl
    exact log_unchanged _ phase (fun _ _ _ _ _ _ h => nomatch h) hstep hinv hphase
  resolveConflict := by
    intro task p1 p2 retriesLeft count record _ hinv hholds ha
    obtain ⟨hne,hwithin⟩ := resolve_conflicts (meets_append.mp ha).2 hinv hholds
    rw [if_neg hne]
    exact hwithin
  keeps := by
    intro task call sess sess' hcall hkeeps count record _ hinv hp _
    have hstep : turnStep (.commit task call sess sess')=.other ∧
        ∀ player action stale,call≠.submit player action stale := by
      obtain rfl | ⟨player,rfl | rfl⟩ := hcall <;> exact ⟨rfl,fun _ _ _ h => nomatch h⟩
    obtain ⟨hi,he⟩ := commit_unchanged task call sess sess' hstep.2 hstep.1
      (.inr (openRound_congr hkeeps.gameState)) hkeeps.player1Id hkeeps.player2Id hkeeps.p1Action
      hkeeps.p2Action hinv hp.2
    have hidle : HoldsAs task .idle record := hp.1
    exact ⟨hi,fun other _ => he other,hidle.stable (he task)⟩
  captures_zero _ := True.intro
  captured _ _ _ _ := True.intro
  submit _ _ _ _ _ _ _ _ _ hm _ _ hlt hinv hp ha :=
    commit_submits hm (meets_commit hp.2 ha) hlt hinv hp.1 hp.2
  resolve _ _ _ _ _ _ hsubmit _ _ _ hinv hp _ := commit_applies hsubmit hinv hp.1 hp.2
  refused := by
    intro task count p1 p2 record sess error hinv hholds hv hrefused
    obtain ⟨sess',gameState,report,hs,hok⟩ := holding_applicable hinv hholds
    cases hv.symm.trans hs
    rw [hok] at hrefused
    cases hrefused
  forfeit _ _ opponent _ _ _ _ _ hinv hp ha :=
    commit_forfeits (.forfeiting opponent) (meets_commit hp.2 ha) hinv hp.2 hp.1
  tell _ _ _ messages _ _ _ hinv hp _ :=
    log_unchanged _ (.telling messages) (fun _ _ _ _ _ _ h => nomatch h) rfl hinv hp
  informOpponent _ opponent _ _ _ _ _ _ hinv hp _ :=
    log_unchanged _ (.forfeiting opponent) (fun _ _ _ _ _ _ h => nomatch h) rfl hinv hp

/-- In every run without a disturbance each cleared pair is applied exactly
once, as the turn for which it was cleared, and no accepted action is lost. -/
theorem turns_resolved_exactly_once (pairing : Pairing) {config : instances.Config}
    (hrun : (initial pairing).Reaches config) (hu : Meets Undisturbed config.world.trace) :
    ExactlyOnce pairing config := by
  have hinitial : TurnInvariant pairing 0 ⟨some (goSession pairing.session),[]⟩ := by
    refine ⟨⟨_,rfl,rfl,rfl⟩,rfl,fun _ _ hw => (nomatch hw),
      fun _ he => absurd he List.not_mem_nil,?_⟩
    intro earlier event later party part hsplit
    cases earlier <;> cases hsplit
  have hgood := good (upheld pairing) hinitial hrun hu
  have hinv : TurnInvariant pairing config.tasks.length config.world.record := hgood.inv
  refine ⟨hinv.accounted,fun task pair hw hrests => ?_,hinv.ownPair,hinv.kept⟩
  have hlt := (hinv.applicable task pair hw).1
  exact rests_idle (upheld pairing) hgood hlt hrests pair hw

/-- Both players connect and submit a charge, and the second one's goroutine
resolves. -/
def oneTurn : List instances.Move :=
  opens 1 ["charge"]::proceeds 0 10++opens 2 ["charge"]::proceeds 1 14++
    proceeds 0 6++proceeds 1 10

/-- The pair of that run is applied. -/
theorem consumed_pair_applied : ∃ config,(initial .small).Reaches config ∧
    appliedPairs config.world.trace=[⟨1,1,"charge","charge"⟩] ∧ ExactlyOnce .small config := by
  have hrun : ((initial .small).run oneTurn).map (fun config =>
      (decide (Meets Undisturbed config.world.trace),appliedPairs config.world.trace))=
      some (true,[⟨1,1,"charge","charge"⟩]) := by decide
  obtain ⟨config,hreach,hview⟩ := System.Config.reaches_of_map hrun
  obtain ⟨hu,happlied⟩ := Prod.mk.inj hview
  exact ⟨config,hreach,happlied,
    turns_resolved_exactly_once .small hreach (of_decide_eq_true hu)⟩

/-- Player 2's submission completes a pair; before it is applied, player 1
submits again and the turn timer submits for player 2, which completes a
second pair for the same turn. Both are then applied. -/
def twoPairsForOneTurn : List instances.Move :=
  opens 1 ["charge","charge"]::proceeds 0 10++opens 2 ["charge"]::proceeds 1 14++
    proceeds 0 6++proceeds 1 6++proceeds 0 6++proceeds 2 6++proceeds 1 4++proceeds 2 4

/-- The second pair is applied as a turn for which it was not cleared. -/
theorem cleared_pair_applied_late :
    ¬∀ pairing config,(initial pairing).Reaches config → ExactlyOnce pairing config := by
  intro h
  have hrun : ((initial .small).run twoPairsForOneTurn).map (fun config =>
      (clearedPairs config.world.trace,appliedPairs config.world.trace))=
      some ([⟨1,1,"charge","charge"⟩,⟨1,1,"charge","charge"⟩],
        [⟨1,1,"charge","charge"⟩,⟨1,2,"charge","charge"⟩]) := by decide
  obtain ⟨config,hreach,hview⟩ := System.Config.reaches_of_map hrun
  obtain ⟨hcleared,happlied⟩ := Prod.mk.inj hview
  have haccounted := (h .small config hreach).accounted
  rw [hcleared,happlied] at haccounted
  simp at haccounted

end KiClash.GoTurnApplication

import KiClash.SessionChronicle

/-!
# The turns of the Python session as slots and a clock

The pending actions of the stored session are the slots of the two seats, the
numbers of the open round are the clock. An accepted submission puts an action
into a slot, whoever made it and whatever was there; a resolution ends the turn
and is the only thing that does.
-/

namespace KiClash.SessionTurns

open EngineTypes OutcomeMatrix Engine EngineRuns Histories AsyncTasks WatchedKey RecordedTasks
open SlottedTurns GameStore GameSession SessionContracts PendingPairs SessionChronicle

/-- A round and a turn of it, in the order in which they are played. -/
abbrev TurnKey := ℤ ×ₗ ℤ

/-- The turn that is current in the open round. -/
def turnOf (round : RoundState) : TurnKey := toLex (round.roundNumber,round.turnNumber+1)

/-- The seat of a player. -/
def seatOf (pairing : Pairing) (player : UUID) : Seat :=
  if player=pairing.player1Id then .first else .second

/-- What an event means for the slots. -/
def slotStep (pairing : Pairing) : GameStore.Event → Step TurnKey Action
  | .commit task (.submit player action _) before _ =>
    match acceptingRound player action before with
    | some round => .accepted (seatOf pairing player) ⟨task,turnOf round,action⟩
    | none => .other
  | .commit task (.resolve p1Action p2Action) before _ =>
    match openRound before with
    | some round => .applied task (turnOf round) p1Action p2Action
    | none => .other
  | _ => .other

/-- The pending action of a seat. -/
def pending (session : PvPSessionState) : Seat → Option Action :=
  Seat.pick session.p1Action session.p2Action

/-- The turn is in the stored history. -/
def Recorded (steps : List (Step TurnKey Action)) (round : RoundState) (result : TurnResult) :
    Prop :=
  ∃ task,.applied task (toLex (round.roundNumber,result.turnNumber)) result.p1Action
    result.p2Action∈steps

/-- What the record as slots and clock has to do with the stored session. -/
structure Fits (pairing : Pairing) (steps : List (Step TurnKey Action))
    (session : PvPSessionState) : Prop where
  /-- The pending actions are what lies in the slots. -/
  slots : ∀ seat,((table steps).slots seat).map Deposit.action=pending session seat
  /-- Rounds are numbered in the order in which they are played. -/
  numbered : ∀ round,session.gameState.currentRound=some round →
    round.roundNumber=session.gameState.roundResults.length+1
  /-- The open round shows the current turn, which is later than all applied ones. -/
  clock : ∀ round,openRound session=some round → (∀ turn∈clock steps,turn=turnOf round) ∧
    ∀ turn∈appliedTurns steps,turn<turnOf round
  /-- The stored history has been applied. -/
  history : ∀ round,session.gameState.currentRound=some round →
    ∀ result∈round.turnHistory,Recorded steps round result

section Steps

variable {pairing : Pairing} {steps : List (Step TurnKey Action)} {session session' : PvPSessionState}
  {task : TaskId}

/-- What is recorded stays recorded. -/
theorem Recorded.append {round : RoundState} {result : TurnResult}
    (h : Recorded steps round result) (step : Step TurnKey Action) :
    Recorded (steps++[step]) round result := by
  obtain ⟨task,hin⟩ := h
  exact ⟨task,List.mem_append_left _ hin⟩

/-- A change that touches neither the pending actions nor the rounds. -/
theorem Fits.unchanged (h : Fits pairing steps session)
    (hpending : pending session'=pending session)
    (hround : session'.gameState.currentRound=session.gameState.currentRound)
    (hresults : session'.gameState.roundResults=session.gameState.roundResults)
    (hopen : ∀ round,openRound session'=some round → openRound session=some round) :
    Fits pairing (steps++[.other]) session' where
  slots := by
    intro seat
    rw [table_append,hpending]
    exact h.slots seat
  numbered := by
    intro round hr
    rw [hresults]
    exact h.numbered round (hround ▸ hr)
  clock := by
    intro round hr
    have hc := h.clock round (hopen round hr)
    simpa [appliedTurns] using hc
  history := by
    intro round hr result hmem
    exact (h.history round (hround ▸ hr) result hmem).append _

/-- Storing an action fills the slot of the player's seat. -/
theorem pending_storeInSlot {player : UUID} {action : Action}
    (hplayers : BelongsTo pairing session)
    (hplayer : player=pairing.player1Id ∨ player=pairing.player2Id) :
    pending (storeInSlot player action session)=
      Function.update (pending session) (seatOf pairing player) (some action) := by
  obtain ⟨h₁,h₂⟩ := hplayers
  funext seat
  unfold storeInSlot seatOf pending
  rw [h₁,h₂]
  by_cases hp : player=pairing.player1Id
  · rw [if_pos hp,if_pos hp]
    cases seat <;> simp [Seat.pick]
  · have hp₂ : player=pairing.player2Id := by
      obtain hp' | hp' := hplayer
      · exact absurd hp' hp
      · exact hp'
    rw [if_neg hp,if_neg hp,if_pos hp₂]
    cases seat <;> simp [Seat.pick]

/-- A pair is complete in the slots when it is in the session. -/
theorem full_of_slots {slots : Seat → Option (Deposit TurnKey Action)}
    (h : ∀ seat,(slots seat).map Deposit.action=pending session seat) :
    (full slots).isSome ↔ session.p1Action.isSome ∧ session.p2Action.isSome := by
  have h₁ : (slots .first).isSome=session.p1Action.isSome := by
    rw [← Option.isSome_map (f := Deposit.action),h .first]
    rfl
  have h₂ : (slots .second).isSome=session.p2Action.isSome := by
    rw [← Option.isSome_map (f := Deposit.action),h .second]
    rfl
  rw [← h₁,← h₂]
  unfold full
  cases slots .first <;> cases slots .second <;> simp

/-- An accepted submission. -/
theorem Fits.submit {player : UUID} {action : Action} {stale captured : SubmitCaptured}
    (h : Fits pairing steps session) (hplayers : BelongsTo pairing session)
    (hplayer : player=pairing.player1Id ∨ player=pairing.player2Id)
    (hstores : Stores player action stale session captured session') :
    Fits pairing (steps++[slotStep pairing
      (.commit task (.submit player action stale) session session')]) session' := by
  have hput : ∀ deposit : Deposit TurnKey Action,deposit.action=action → ∀ seat,
      (put (table steps).slots (seatOf pairing player) deposit seat).map Deposit.action=
        pending (storeInSlot player action session) seat := by
    intro deposit ha seat
    rw [pending_storeInSlot hplayers hplayer]
    by_cases hs : seat=seatOf pairing player
    · subst hs
      simp [put,ha]
    · simp only [put,Function.update_of_ne hs]
      exact h.slots seat
  -- the match is what it was, and the clock shows its turn
  have hrest : ∀ {round session₁} deposit,acceptingRound player action session=some round →
      deposit=(⟨task,turnOf round,action⟩ : Deposit TurnKey Action) →
      session₁.gameState=session.gameState →
      (∀ seat,((table (steps++[.accepted (seatOf pairing player) deposit])).slots seat).map
        Deposit.action=pending session₁ seat) →
      Fits pairing (steps++[.accepted (seatOf pairing player) deposit]) session₁ := by
    intro round session₁ deposit haccept hdeposit hgame hslots
    refine ⟨hslots,?_,?_,?_⟩
    · rw [hgame]
      exact h.numbered
    · intro round' hr
      rw [openRound_congr hgame] at hr
      have hround : round'=round :=
        Option.some.inj (hr.symm.trans (acceptingRound_eq_some.mp haccept).1)
      obtain ⟨-,happlied⟩ := h.clock round' hr
      simp only [clock_append,appliedTurns_append,hdeposit]
      refine ⟨fun turn ht => ?_,?_⟩
      · rw [hround]
        exact (Option.some.inj ht).symm
      · simpa [appliedTurns] using happlied
    · rw [hgame]
      intro round' hr result hmem
      exact (h.history round' hr result hmem).append _
  cases hstores with
  | rejected message hreject =>
    have hstep : slotStep pairing (.commit task (.submit player action stale) session session)=
        .other := by simp only [slotStep,hreject]
    rw [hstep]
    exact h.unchanged rfl rfl rfl fun _ hr => hr
  | stored round haccept hpair =>
    have hstep : ∀ after,slotStep pairing (.commit task (.submit player action stale) session after)=
        .accepted (seatOf pairing player) ⟨task,turnOf round,action⟩ := by
      intro after
      simp only [slotStep,haccept]
    rw [hstep]
    refine hrest _ haccept rfl (storeInSlot_gameState player action session) fun seat => ?_
    have hput' := hput ⟨task,turnOf round,action⟩ rfl
    have hfull : full (put (table steps).slots (seatOf pairing player)
        ⟨task,turnOf round,action⟩)=none := by
      rw [← Option.not_isSome_iff_eq_none,full_of_slots hput']
      rintro ⟨h₁,h₂⟩
      obtain ⟨p1Action,h₁⟩ := Option.isSome_iff_exists.mp h₁
      obtain ⟨p2Action,h₂⟩ := Option.isSome_iff_exists.mp h₂
      simp [completedPair,haccept,h₁,h₂] at hpair
    rw [table_append]
    simp only [Table.advance,hfull]
    exact hput' seat
  | completed round p1Action p2Action haccept h₁ h₂ hpair =>
    have hstep : ∀ after,slotStep pairing (.commit task (.submit player action stale) session after)=
        .accepted (seatOf pairing player) ⟨task,turnOf round,action⟩ := by
      intro after
      simp only [slotStep,haccept]
    rw [hstep]
    have hgame : (cleared (storeInSlot player action session)).gameState=session.gameState :=
      storeInSlot_gameState player action session
    refine hrest _ haccept rfl hgame fun seat => ?_
    obtain ⟨pair,hfull⟩ := Option.isSome_iff_exists.mp
      ((full_of_slots (hput ⟨task,turnOf round,action⟩ rfl)).mpr (by simp [h₁,h₂]))
    rw [table_append]
    simp only [Table.advance,hfull]
    cases seat <;> rfl

/-- The turn after an accepted one is a later one. -/
theorem turn_advances {gameState gameState' : GameState} {round round' : RoundState}
    {p1Action p2Action : Action} {report : TurnReport}
    (h : Accepted gameState p1Action p2Action gameState' report)
    (hround : gameState.currentRound=some round)
    (hnumbered : round.roundNumber=gameState.roundResults.length+1)
    (hround' : gameState'.currentRound=some round') : turnOf round<turnOf round' := by
  unfold turnOf
  rw [Prod.Lex.toLex_lt_toLex]
  cases h with
  | roundGoesOn round₁ h₁ =>
    cases hround.symm.trans h₁
    cases hround'
    right
    constructor
    · rfl
    · simp only [advanceRound,OutcomeMatrix.resolveTurn]
      omega
  | roundCloses round₁ h₁ roundResult =>
    cases hround'
    left
    rw [hnumbered]
    dsimp only
    omega
  | matchCloses => cases hround'

/-- Rounds stay numbered. -/
theorem numbered_advances {gameState gameState' : GameState} {round' : RoundState}
    {p1Action p2Action : Action} {report : TurnReport}
    (h : Accepted gameState p1Action p2Action gameState' report)
    (hnumbered : ∀ round,gameState.currentRound=some round →
      round.roundNumber=gameState.roundResults.length+1)
    (hround' : gameState'.currentRound=some round') :
    round'.roundNumber=gameState'.roundResults.length+1 := by
  cases h with
  | roundGoesOn round h =>
    cases hround'
    exact hnumbered round h
  | roundCloses round h roundResult =>
    cases hround'
    simp only [List.length_append,List.length_singleton]
    omega
  | matchCloses => cases hround'

/-- The history after an accepted turn is that before it, with the turn. -/
theorem history_advances {gameState gameState' : GameState} {round round' : RoundState}
    {p1Action p2Action : Action} {report : TurnReport}
    (h : Accepted gameState p1Action p2Action gameState' report)
    (hround : gameState.currentRound=some round) (hround' : gameState'.currentRound=some round') :
    round'.turnHistory=[] ∨ round'.roundNumber=round.roundNumber ∧
      round'.turnHistory=round.turnHistory++[nextTurn round p1Action p2Action] := by
  cases h with
  | roundGoesOn round₁ h₁ =>
    cases hround.symm.trans h₁
    cases hround'
    exact .inr ⟨rfl,rfl⟩
  | roundCloses =>
    cases hround'
    exact .inl rfl
  | matchCloses => cases hround'

/-- A resolution. -/
theorem Fits.resolve {p1Action p2Action : Action} {gameState : GameState} {report : TurnReport}
    (h : Fits pairing steps session)
    (hsubmit : submitTurn session.gameState p1Action p2Action=(gameState,.ok report)) :
    Fits pairing (steps++[slotStep pairing (.commit task (.resolve p1Action p2Action) session
      {session with gameState := gameState})]) {session with gameState := gameState} := by
  obtain ⟨round,hopen,-,haccepted⟩ := openRound_of_submitTurn hsubmit
  obtain ⟨-,hround⟩ := openRound_eq_some.mp hopen
  have hstep : ∀ after,slotStep pairing (.commit task (.resolve p1Action p2Action) session after)=
      .applied task (turnOf round) p1Action p2Action := by
    intro after
    simp only [slotStep,hopen]
  rw [hstep]
  constructor
  · intro seat
    rw [table_append]
    exact h.slots seat
  · exact fun round' hr => numbered_advances haccepted h.numbered hr
  · intro round' hr
    have hlater : turnOf round<turnOf round' :=
      turn_advances haccepted hround (h.numbered round hround) (openRound_eq_some.mp hr).2
    obtain ⟨-,happlied⟩ := h.clock round hopen
    rw [clock_append,appliedTurns_append]
    refine ⟨nofun,fun turn ht => ?_⟩
    rcases List.mem_append.mp ht with ht | ht
    · exact lt_trans (happlied turn ht) hlater
    · rw [List.mem_singleton.mp ht]
      exact hlater
  · intro round' hr result hmem
    obtain hnil | ⟨hnumber,hhistory⟩ := history_advances haccepted hround hr
    · rw [hnil] at hmem
      cases hmem
    · rw [hhistory] at hmem
      rcases List.mem_append.mp hmem with hmem | hmem
      · have hold := (h.history round hround result hmem).append
          (.applied task (turnOf round) p1Action p2Action)
        unfold Recorded at hold ⊢
        rw [hnumber]
        exact hold
      · rw [List.mem_singleton.mp hmem]
        refine ⟨task,List.mem_append_right _ ?_⟩
        rw [hnumber]
        exact List.mem_singleton_self _

/-- Every transaction of the chronicle keeps the reading. -/
theorem Fits.effect {call : Call} (h : Fits pairing steps session)
    (hplayers : BelongsTo pairing session) (heffect : Effect pairing call session session') :
    Fits pairing (steps++[slotStep pairing (.commit task call session session')]) session' := by
  cases heffect with
  | connect player session =>
    have hpending : pending (session.markConnected player)=pending session := by
      unfold PvPSessionState.markConnected
      split <;> rfl
    have hgame := markConnected_gameState player session
    exact h.unchanged hpending (by rw [hgame]) (by rw [hgame]) fun round hr =>
      (openRound_congr hgame).symm.trans hr
  | start session => exact h.unchanged rfl rfl rfl fun _ hr => hr
  | submit hplayer hstores => exact h.submit hplayers hplayer hstores
  | resolve hsubmit => exact h.resolve hsubmit
  | forfeit forfeiting session =>
    refine h.unchanged rfl rfl rfl fun round hr => ?_
    exact absurd (openRound_eq_some.mp hr).1 nofun

/-- A transaction of the chronicle shows the current turn. -/
theorem Fits.clocked {call : Call} (h : Fits pairing steps session) :
    Clocked steps (slotStep pairing (.commit task call session session')) := by
  intro turn ht
  have hstep : ∃ round,openRound session=some round ∧ turn=turnOf round := by
    cases call with
    | submit player action stale =>
      simp only [slotStep] at ht
      split at ht
      · next round haccept =>
        exact ⟨round,(acceptingRound_eq_some.mp haccept).1,(Option.some.inj ht).symm⟩
      · cases ht
    | resolve p1Action p2Action =>
      simp only [slotStep] at ht
      split at ht
      · next round hopen => exact ⟨round,hopen,(Option.some.inj ht).symm⟩
      · cases ht
    | connect | start | forfeit => cases ht
  obtain ⟨round,hopen,rfl⟩ := hstep
  exact h.clock round hopen

end Steps

/-- The steps of a record. -/
abbrev slotSteps (pairing : Pairing) (trace : List GameStore.Event) : List (Step TurnKey Action) :=
  trace.map (slotStep pairing)

/-- Every resolution applies the pair that its own call has taken out with the
last submission that was accepted, before anything else is applied. -/
def Prompt (pairing : Pairing) (trace : List GameStore.Event) : Prop :=
  Meets Unhurried (slotSteps pairing trace)

instance (pairing : Pairing) (trace : List GameStore.Event) : Decidable (Prompt pairing trace) :=
  inferInstanceAs (Decidable (Meets Unhurried _))

/-- A record read as slots and clock. -/
structure Turns (pairing : Pairing) (trace : List GameStore.Event) : Prop where
  /-- The stored session fits the reading. -/
  fits : ∀ session,sessionAfter pairing trace=some session →
    Fits pairing (slotSteps pairing trace) session
  /-- The clock goes forward. -/
  clocked : Meets Clocked (slotSteps pairing trace)

/-- The session that has just been saved has empty slots and no history. -/
theorem turns_nil (pairing : Pairing) : Turns pairing [] := by
  refine ⟨fun session hs => ?_,True.intro⟩
  cases hs
  constructor
  · intro seat
    cases seat <;> rfl
  · intro round hr
    cases hr
    rfl
  · intro round hr
    exact ⟨nofun,nofun⟩
  · intro round hr result hmem
    cases hr
    cases hmem

/-- Every event of the chronicle keeps the reading. -/
theorem Turns.step {pairing : Pairing} {trace : List GameStore.Event} (h : Turns pairing trace)
    {event : GameStore.Event} (hfollows : Follows pairing trace event) :
    Turns pairing (trace++[event]) := by
  have hmap : slotSteps pairing (trace++[event])=
      slotSteps pairing trace++[slotStep pairing event] := by simp [slotSteps]
  -- an event that leaves the key alone means nothing for the slots
  have hquiet : slotStep pairing event=.other →
      sessionAfter pairing (trace++[event])=sessionAfter pairing trace →
      Turns pairing (trace++[event]) := by
    intro hstep hvalue
    refine ⟨fun session hs => ?_,?_⟩
    · rw [hvalue] at hs
      rw [hmap,hstep]
      exact (h.fits session hs).unchanged rfl rfl rfl fun _ hr => hr
    · rw [hmap,hstep]
      refine meets_append.mpr ⟨h.clocked,fun turn ht => ?_⟩
      cases ht
  cases event with
  | commit task call before after =>
    obtain ⟨hv,hplayers,heffect⟩ := hfollows
    have hfits := h.fits before hv
    refine ⟨fun session hs => ?_,?_⟩
    · rw [sessionAfter,valueAfter_append] at hs
      cases hs
      rw [hmap]
      exact hfits.effect hplayers heffect
    · rw [hmap]
      exact meets_append.mpr ⟨h.clocked,hfits.clocked⟩
  | deleted task =>
    refine ⟨fun session hs => ?_,?_⟩
    · rw [sessionAfter,valueAfter_append] at hs
      cases hs
    · rw [hmap]
      refine meets_append.mpr ⟨h.clocked,fun turn ht => ?_⟩
      cases ht
  | conflict | loaded | note =>
    exact hquiet rfl (valueAfter_append _ _ _)

/-- Every chronicle can be read as slots and clock. -/
theorem turns_of_follows {pairing : Pairing} {trace : List GameStore.Event}
    (h : Meets (Follows pairing) trace) : Turns pairing trace := by
  induction trace using List.reverseRecOn with
  | nil => exact turns_nil pairing
  | append_singleton trace event ih =>
    obtain ⟨hbefore,hlast⟩ := meets_append.mp h
    exact (ih hbefore).step hlast

/-- So can the record of every run. -/
theorem turns {pairing : Pairing} {config : workers.Config}
    (hrun : (initial pairing).Reaches config) : Turns pairing config.world.trace :=
  turns_of_follows (chronicle hrun).follows

end KiClash.SessionTurns

import KiClash.SessionTurns

/-!
# When a confirmation of the Python session is binding

A player is told for which turn his action has been accepted. The slot in which
it waits names no turn, and between taking a pair out and applying it the
session still accepts actions for the turn that is about to be played. If
nothing is accepted in between, every turn is recorded with the last actions
that were accepted for it.
-/

namespace KiClash.Confirmations

open EngineTypes Engine EngineRuns ServerMessages Histories AsyncTasks WatchedKey RecordedTasks
open SlottedTurns GameStore GameSession PendingPairs SessionChronicle SessionTurns

/-- The task tells the player that his action is confirmed for the turn. -/
def confirms (task : TaskId) (player : UUID) (turnNumber : ℤ) (action : Action)
    (event : GameStore.Event) : Bool :=
  event=.note (.sent task player (.actionConfirmed turnNumber action.value))

/-- The transaction accepts an action of the player for the turn, and the same
task confirms it later. -/
def confirmedBy (player : UUID) (turn : TurnKey) (later : List GameStore.Event) :
    GameStore.Event → Bool
  | .commit task (.submit player' action _) before _ =>
    player'=player && (acceptingRound player action before).any fun round =>
      turnOf round=turn && later.any (confirms task player (round.turnNumber+1) action)
  | _ => false

/-- The player has been sent a confirmation of an action for the turn. -/
def Confirmed (player : UUID) (turn : TurnKey) : List GameStore.Event → Prop
  | [] => False
  | event::later => confirmedBy player turn later event=true ∨ Confirmed player turn later

instance Confirmed.decide (player : UUID) (turn : TurnKey) :
    ∀ trace,Decidable (Confirmed player turn trace)
  | [] => isFalse id
  | _::later =>
    have : Decidable (Confirmed player turn later) := Confirmed.decide player turn later
    inferInstanceAs (Decidable (_=true ∨ Confirmed player turn later))

/-- The last action that a committed submission of the player has had accepted
for the turn. -/
def lastAccepted (pairing : Pairing) (player : UUID) (turn : TurnKey)
    (trace : List GameStore.Event) : Option Action :=
  latest (seatOf pairing player) turn (slotSteps pairing trace)

/-- The turn has been recorded with these actions: it is in the stored history,
or was when its round was closed. -/
def RecordedAs (config : workers.Config) (turn : TurnKey) (p1Action p2Action : Action) : Prop :=
  (∃ session∈config.world.value,∃ round∈session.gameState.currentRound,
    ∃ result∈round.turnHistory,turn=toLex (round.roundNumber,result.turnNumber) ∧
      p1Action=result.p1Action ∧ p2Action=result.p2Action) ∨
  ∃ pair∈appliedPairs config.world.trace,turn=toLex (pair.roundNumber,pair.turnNumber) ∧
    p1Action=pair.p1Action ∧ p2Action=pair.p2Action

/-- Whenever a turn has been recorded for which a player's action was confirmed,
his action in it is the last one that was accepted from him for it. -/
def Binding (pairing : Pairing) (config : workers.Config) : Prop :=
  ∀ player∈[pairing.player1Id,pairing.player2Id],∀ turn p1Action p2Action,
    Confirmed player turn config.world.trace → RecordedAs config turn p1Action p2Action →
      lastAccepted pairing player turn config.world.trace=
        some ((seatOf pairing player).pick p1Action p2Action)

/-- An applied pair is a step of the clock. -/
theorem applied_of_appliedPairs {pairing : Pairing} {trace : List GameStore.Event}
    {pair : TurnPair} (h : pair∈appliedPairs trace) :
    ∃ task,.applied task (toLex (pair.roundNumber,pair.turnNumber)) pair.p1Action pair.p2Action∈
      slotSteps pairing trace := by
  obtain ⟨step,hstep,hgives⟩ := List.mem_filterMap.mp h
  obtain ⟨event,hevent,rfl⟩ := List.mem_map.mp hstep
  cases event with
  | commit task call before after =>
    cases call with
    | resolve p1Action p2Action =>
      cases hopen : openRound before with
      | none =>
        simp only [turnStep,hopen] at hgives
        cases hgives
      | some round =>
        simp only [turnStep,hopen] at hgives
        cases hgives
        refine ⟨task,List.mem_map.mpr ⟨_,hevent,?_⟩⟩
        simp only [slotStep,hopen,turnOf,TurnPair.now]
    | submit player action stale =>
      simp only [turnStep] at hgives
      split at hgives <;> cases hgives
    | connect | start | forfeit => cases hgives
  | conflict task call retriesLeft =>
    cases call with
    | resolve p1Action p2Action => cases retriesLeft <;> cases hgives
    | submit | connect | start | forfeit => cases hgives
  | deleted | loaded => cases hgives
  | note note => cases note <;> cases hgives

/-- A recorded turn is a step of the clock. -/
theorem applied_of_recordedAs {pairing : Pairing} {config : workers.Config}
    (hrun : (initial pairing).Reaches config) {turn : TurnKey} {p1Action p2Action : Action}
    (h : RecordedAs config turn p1Action p2Action) :
    ∃ task,.applied task turn p1Action p2Action∈slotSteps pairing config.world.trace := by
  obtain ⟨session,hs,round,hr,result,hmem,rfl,rfl,rfl⟩ | ⟨pair,hpair,rfl,rfl,rfl⟩ := h
  · have hvalue : config.world.value=sessionAfter pairing config.world.trace :=
      (chronicle hrun).value
    have hfits := (turns hrun).fits session (hvalue.symm.trans hs)
    exact hfits.history round hr result hmem
  · exact applied_of_appliedPairs hpair

/-- In every run whose resolutions are prompt, confirmations are binding. -/
theorem confirmations_binding (pairing : Pairing) {config : workers.Config}
    (hrun : (initial pairing).Reaches config) (hprompt : Prompt pairing config.world.trace) :
    Binding pairing config := by
  intro player _ turn p1Action p2Action _ hrecorded
  obtain ⟨task,hstep⟩ := applied_of_recordedAs hrun hrecorded
  obtain ⟨earlier,later,hsplit⟩ := List.append_of_mem hstep
  exact applied_latest hsplit (turns hrun).clocked hprompt (seatOf pairing player)

/-- Both players submit a charge, and the second one's task resolves. -/
def chargesResolved : List workers.Move :=
  opens 1 ["charge"]::proceeds 0 8++opens 2 ["charge"]::proceeds 1 14++
    proceeds 0 5++proceeds 1 8

/-- Both confirmations of that run are binding. -/
theorem charges_binding : ∃ config,(initial .small).Reaches config ∧
    appliedPairs config.world.trace=[⟨1,1,.charge,.charge⟩] ∧
    Confirmed (.small 1) (toLex (1,1)) config.world.trace ∧ Binding .small config := by
  have hrun : ((initial .small).run chargesResolved).map (fun config =>
      (appliedPairs config.world.trace,
        decide (Confirmed (.small 1) (toLex (1,1)) config.world.trace),
        decide (Prompt .small config.world.trace)))=
      some ([⟨1,1,.charge,.charge⟩],true,true) := by decide
  obtain ⟨config,hreach,hview⟩ := System.Config.reaches_of_map hrun
  obtain ⟨happlied,hview⟩ := Prod.mk.inj hview
  obtain ⟨hconfirmed,hprompt⟩ := Prod.mk.inj hview
  exact ⟨config,hreach,happlied,of_decide_eq_true hconfirmed,
    confirmations_binding .small hreach (of_decide_eq_true hprompt)⟩

/-- Player 2's submission completes a pair; before it is applied, player 1
submits a block, which is accepted and confirmed for the same turn. -/
def blockBeforeResolution : List workers.Move :=
  opens 1 ["charge","block"]::proceeds 0 8++opens 2 ["charge"]::proceeds 1 14++
    proceeds 0 5++proceeds 1 4++proceeds 0 5++proceeds 1 4

/-- The turn is recorded with the charge. -/
theorem confirmed_block_not_binding :
    ¬∀ pairing config,(initial pairing).Reaches config → Binding pairing config := by
  intro h
  have hrun : ((initial .small).run blockBeforeResolution).map (fun config =>
      (appliedPairs config.world.trace,
        decide (Confirmed (.small 1) (toLex (1,1)) config.world.trace),
        lastAccepted .small (.small 1) (toLex (1,1)) config.world.trace))=
      some ([⟨1,1,.charge,.charge⟩],true,some .block) := by decide
  obtain ⟨config,hreach,hview⟩ := System.Config.reaches_of_map hrun
  obtain ⟨happlied,hview⟩ := Prod.mk.inj hview
  obtain ⟨hconfirmed,hlast⟩ := Prod.mk.inj hview
  have hrecorded : RecordedAs config (toLex (1,1)) .charge .charge := by
    refine .inr ⟨⟨1,1,.charge,.charge⟩,?_,rfl,rfl,rfl⟩
    rw [happlied]
    exact List.mem_singleton_self _
  have hbinding := h .small config hreach (.small 1) List.mem_cons_self _ _ _
    (of_decide_eq_true hconfirmed) hrecorded
  rw [hlast] at hbinding
  cases hbinding

end KiClash.Confirmations

import KiClash.GameServiceRuns
import KiClash.PvPClient

/-!
# The client of an AI game

The hook useGame of web/src/hooks/useGame.ts, the answers of the endpoints in games.py, and
the page in web/src/app/play/page.tsx, which offers in each phase only what belongs there. A
call of the hook ends before the page offers anything else, so it is one step here: the
request may be lost, or be served with its answer lost, or be answered. The server ends each
request before it begins the next, also those of others: two that overlap at their awaits
stay outside of this model. After a 401 the client goes on as another guest, so every request
names its own player. Analytics, sounds and animations are left out.
-/

namespace KiClash.AiClient

open EngineTypes Engine GameService GameServiceRuns

section Responses

/-- TurnResultResponse. -/
structure TurnResultResponse where
  /-- turn_number. -/
  turnNumber : ℤ
  /-- p1_action. -/
  p1Action : Action
  /-- p2_action. -/
  p2Action : Action
  /-- outcome. -/
  outcome : TurnOutcome
  /-- p1_ki_after. -/
  p1KiAfter : ℤ
  /-- p2_ki_after. -/
  p2KiAfter : ℤ
  deriving DecidableEq, Repr

/-- RoundResultResponse. -/
structure RoundResultResponse where
  /-- round_number. -/
  roundNumber : ℤ
  /-- winner. -/
  winner : RoundWinner
  /-- total_turns. -/
  totalTurns : ℤ
  deriving DecidableEq, Repr

/-- MatchResultResponse. -/
structure MatchResultResponse where
  /-- winner. -/
  winner : RoundWinner
  /-- rounds_won_p1. -/
  roundsWonP1 : ℤ
  /-- rounds_won_p2. -/
  roundsWonP2 : ℤ
  /-- total_turns. -/
  totalTurns : ℤ
  deriving DecidableEq, Repr

/-- RoundStateResponse. -/
structure RoundStateResponse where
  /-- round_number. -/
  roundNumber : ℤ
  /-- p1_ki. -/
  p1Ki : ℤ
  /-- p2_ki. -/
  p2Ki : ℤ
  /-- turn_number. -/
  turnNumber : ℤ
  /-- turn_history. -/
  turnHistory : List TurnResultResponse
  deriving DecidableEq, Repr

/-- GameStateResponse. -/
structure GameStateResponse where
  /-- game_id. -/
  gameId : UUID
  /-- match_type. -/
  matchType : String
  /-- status. -/
  status : MatchStatus
  /-- rounds_won_p1. -/
  roundsWonP1 : ℤ
  /-- rounds_won_p2. -/
  roundsWonP2 : ℤ
  /-- current_round. -/
  currentRound : Option RoundStateResponse
  /-- round_results. -/
  roundResults : List RoundResultResponse
  deriving DecidableEq, Repr

/-- SubmitActionResponse. -/
structure SubmitActionResponse where
  /-- turn_result. -/
  turnResult : TurnResultResponse
  /-- round_result. -/
  roundResult : Option RoundResultResponse
  /-- match_result. -/
  matchResult : Option MatchResultResponse
  /-- game_state. -/
  gameState : GameStateResponse
  deriving DecidableEq, Repr

/-- The response for a turn. -/
def turnResultResponse (t : TurnResult) : TurnResultResponse :=
  ⟨t.turnNumber,t.p1Action,t.p2Action,t.outcome,t.p1KiAfter,t.p2KiAfter⟩

/-- The response for a round. -/
def roundResultResponse (r : RoundResult) : RoundResultResponse :=
  ⟨r.roundNumber,r.winner,r.totalTurns⟩

/-- The response for a match. -/
def matchResultResponse (result : MatchResult) : MatchResultResponse :=
  ⟨result.winner,result.roundsWonP1,result.roundsWonP2,result.totalTurns⟩

/-- _game_state_response. -/
def gameStateResponse (state : GameState) : GameStateResponse :=
  { gameId := state.gameId
    matchType := state.matchType.value
    status := state.status
    roundsWonP1 := state.roundsWonP1
    roundsWonP2 := state.roundsWonP2
    currentRound := state.currentRound.map fun round =>
      { roundNumber := round.roundNumber
        p1Ki := round.p1Ki
        p2Ki := round.p2Ki
        turnNumber := round.turnNumber
        turnHistory := round.turnHistory.map turnResultResponse }
    roundResults := state.roundResults.map roundResultResponse }

/-- What submit_action of games.py makes of what the service returns. -/
def submitActionResponse (state : GameState) (report : TurnReport) : SubmitActionResponse :=
  ⟨turnResultResponse report.turnResult,report.roundResult.map roundResultResponse,
    report.matchResult.map matchResultResponse,gameStateResponse state⟩

end Responses

section Hook

/-- GamePhase. -/
inductive GamePhase
  | lobby | characterSelect | loading | playing | revealing | roundEnd | matchEnd
  deriving DecidableEq, Repr

/-- The state of the hook. -/
structure Hook where
  /-- phase. -/
  phase : GamePhase
  /-- gameState. -/
  gameState : Option GameStateResponse
  /-- lastTurn. -/
  lastTurn : Option TurnResultResponse
  /-- lastRound. -/
  lastRound : Option RoundResultResponse
  /-- matchResult. -/
  matchResult : Option MatchResultResponse
  /-- playerName. -/
  playerName : String
  /-- playerCharacterId. -/
  playerCharacterId : Option String
  /-- aiCharacterId. -/
  aiCharacterId : Option String
  /-- error. -/
  error : Option String
  /-- difficultyRef. -/
  difficulty : Difficulty
  deriving DecidableEq, Repr

namespace Hook

/-- The component has been mounted. -/
def mounted : Hook := ⟨.lobby,none,none,none,none,"Player",none,none,none,.easy⟩

/-- selectDifficulty. -/
def selectDifficulty (hook : Hook) (difficulty : Difficulty) : Hook :=
  {hook with difficulty := difficulty,phase := .characterSelect}

/-- startGame up to ensureAuth. -/
def starts (hook : Hook) (characterId aiCharacterId : String) : Hook :=
  {hook with
    error := none
    phase := .loading
    playerCharacterId := some characterId
    aiCharacterId := some aiCharacterId}

/-- startGame once ensureAuth has returned; the name is what getDisplayName finds. -/
def authorized (hook : Hook) (displayName : Option String) : Hook :=
  {hook with
    playerName := match displayName with
      | none | some "" => "Player"
      | some name => name}

/-- startGame once createAIGame has returned. -/
def created (hook : Hook) (state : GameStateResponse) : Hook :=
  {hook with
    gameState := some state
    lastTurn := none
    lastRound := none
    matchResult := none
    phase := .playing}

/-- The catch block of startGame. -/
def startFailed (hook : Hook) (message : Option String) : Hook :=
  {hook with error := some (message.getD "Failed to start game"),phase := .lobby}

/-- playAction up to submitAction. -/
def submits (hook : Hook) : Hook := {hook with error := none,phase := .loading}

/-- playAction once submitAction has returned. -/
def answered (hook : Hook) (response : SubmitActionResponse) : Hook :=
  let hook :=
    {hook with lastTurn := some response.turnResult,gameState := some response.gameState}
  match response.matchResult,response.roundResult with
  | some result,roundResult =>
    {hook with matchResult := some result,lastRound := roundResult,phase := .matchEnd}
  | none,some roundResult => {hook with lastRound := some roundResult,phase := .roundEnd}
  | none,none => {hook with phase := .revealing}

/-- The catch block of playAction. -/
def submitFailed (hook : Hook) (message : Option String) : Hook :=
  {hook with error := some (message.getD "Failed to submit action"),phase := .playing}

/-- continueFromReveal. -/
def continueFromReveal (hook : Hook) : Hook := {hook with phase := .playing}

/-- continueFromRound. -/
def continueFromRound (hook : Hook) : Hook :=
  {hook with lastTurn := none,lastRound := none,phase := .playing}

/-- backToLobby. -/
def backToLobby (hook : Hook) : Hook :=
  {hook with
    gameState := none
    lastTurn := none
    lastRound := none
    matchResult := none
    playerCharacterId := none
    aiCharacterId := none
    error := none
    phase := .lobby}

/-- The card of an action is shown and enabled. -/
def cardEnabled (hook : Hook) (action : Action) : Bool :=
  match hook.phase,hook.gameState with
  | .playing,some state =>
    (state.currentRound.map RoundStateResponse.p1Ki).getD 0≥PvPClient.cardCost action
  | _,_ => false

/-- What GameBoard submits: an action whose card is enabled, or charge when the countdown has
run out. -/
def offers (hook : Hook) (action : Action) : Bool :=
  hook.cardEnabled action || action=.charge

end Hook

end Hook

section Table

/-- The client and the server. -/
structure Table where
  /-- The client. -/
  hook : Hook
  /-- The server. -/
  service : Service

/-- What becomes of a request: it does not reach the server, or is not accepted from this
client; it is served, but its answer does not reach the client; or it is answered. The
outcomes are those of the statements of the database. -/
inductive Delivery
  | lost (message : Option String)
  | cut (outcomes : List Outcome) (message : Option String)
  | answered (outcomes : List Outcome)

/-- What can happen: what the page offers, and requests of others. None of these overlaps with
a request of the client or with another one. -/
inductive Move
  | selectDifficulty (difficulty : Difficulty)
  | startGame (characterId aiCharacterId : String)
      (auth : Except (Option String) (Option String)) (gameId roundId playerId : UUID)
      (delivery : Delivery)
  | playAction (action : Action) (playerId roundId : UUID)
      (choose : Difficulty → GameState → Option Action) (delivery : Delivery)
  | continueFromReveal
  | continueFromRound
  | backToLobby
  | other (request : Request) (outcomes : List Outcome)

/-- The text of the error that apiFetch throws for an exception of the server. -/
abbrev Wording := Exc → String

/-- The answer of create_ai_game, with what it leaves behind. -/
def createAiGame (wording : Wording) (gameId roundId playerId : UUID) (difficulty : Difficulty)
    (service : Service) : Delivery → Service×Except (Option String) GameStateResponse
  | .lost message => (service,.error message)
  | .cut outcomes message =>
    ((serve (.createAiGame gameId roundId playerId difficulty) outcomes service).1,
      .error message)
  | .answered outcomes =>
    let served := serve (.createAiGame gameId roundId playerId difficulty) outcomes service
    (served.1,
      match served.2 with
      | .error exc => .error (some (wording exc))
      | .ok () => .ok (gameStateResponse (newGame gameId difficulty)))

/-- What submit_action returns when nothing overtakes it: the state and the report of the
engine for the action that the AI chooses. The endpoint builds game_state from the live state
after the awaits of the service, so a request that overlaps may have moved it on by then. -/
def returned (service : Service) (submit : Submit) : Option (GameState×TurnReport) := do
  let held ← service.games submit.gameId
  let (_,aiAction) ← (checked service submit).toOption
  let report ← (submitTurn held.state submit.action aiAction).2.toOption
  pure ((submitTurn held.state submit.action aiAction).1,report)

/-- The answer of submit_action, while no other request is being served. -/
def submitAction (wording : Wording) (submit : Submit) (service : Service) :
    Delivery → Service×Except (Option String) SubmitActionResponse
  | .lost message => (service,.error message)
  | .cut outcomes message => ((serve (.submitAction submit) outcomes service).1,.error message)
  | .answered outcomes =>
    let served := serve (.submitAction submit) outcomes service
    (served.1,
      match served.2,returned service submit with
      | .ok (),some (state,report) => .ok (submitActionResponse state report)
      | .error exc,_ => .error (some (wording exc))
      | .ok (),none => .error none)

/-- The game that a request is about. -/
def target : Request → UUID
  | .createAiGame gameId _ _ _ => gameId
  | .submitAction submit => submit.gameId

/-- The identifier that uuid4 draws for a request. -/
def drawn : Request → Option UUID
  | .createAiGame gameId _ _ _ => some gameId
  | .submitAction _ => none

/-- The game on the screen. -/
def Table.gameId (table : Table) : Option UUID :=
  table.hook.gameState.map GameStateResponse.gameId

variable (wording : Wording)

/-- startGame. -/
def Table.startGame (table : Table) (characterId aiCharacterId : String)
    (auth : Except (Option String) (Option String)) (gameId roundId playerId : UUID)
    (delivery : Delivery) : Table :=
  let hook := table.hook.starts characterId aiCharacterId
  match auth with
  | .error message => ⟨hook.startFailed message,table.service⟩
  | .ok displayName =>
    let hook := hook.authorized displayName
    let (service,answer) :=
      createAiGame wording gameId roundId playerId hook.difficulty table.service delivery
    match answer with
    | .ok state => ⟨hook.created state,service⟩
    | .error message => ⟨hook.startFailed message,service⟩

/-- playAction. -/
def Table.playAction (table : Table) (action : Action) (playerId roundId : UUID)
    (choose : Difficulty → GameState → Option Action) (delivery : Delivery) : Table :=
  match table.hook.gameState with
  | none => table
  | some state =>
    let hook := table.hook.submits
    let (service,answer) :=
      submitAction wording ⟨state.gameId,playerId,action,choose,roundId⟩ table.service delivery
    match answer with
    | .ok response => ⟨hook.answered response,service⟩
    | .error message => ⟨hook.submitFailed message,service⟩

/-- A move, if the page offers it in this phase; a request of others is served from its
beginning to its end. uuid4 does not draw the identifier of the game on the screen once
more. -/
def Table.step (table : Table) (move : Move) : Table :=
  match table.hook.phase,move with
  | .lobby,.selectDifficulty difficulty =>
    ⟨table.hook.selectDifficulty difficulty,table.service⟩
  | .characterSelect,.startGame characterId aiCharacterId auth gameId roundId playerId delivery =>
    table.startGame wording characterId aiCharacterId auth gameId roundId playerId delivery
  | .playing,.playAction action playerId roundId choose delivery =>
    if table.hook.offers action then
      table.playAction wording action playerId roundId choose delivery
    else table
  | .revealing,.continueFromReveal => ⟨table.hook.continueFromReveal,table.service⟩
  | .roundEnd,.continueFromRound => ⟨table.hook.continueFromRound,table.service⟩
  | .matchEnd,.backToLobby => ⟨table.hook.backToLobby,table.service⟩
  | _,.other request outcomes =>
    if (drawn request).isSome && drawn request=table.gameId then table
    else ⟨table.hook,(serve request outcomes table.service).1⟩
  | _,_ => table

/-- Moves one after another. -/
def Table.run (table : Table) (moves : List Move) : Table :=
  moves.foldl (Table.step wording) table

end Table

end KiClash.AiClient

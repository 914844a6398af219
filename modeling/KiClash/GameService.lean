import KiClash.AsyncTasks
import KiClash.Engine
import Mathlib.Logic.Function.Basic

/-!
# The AI games

app/services/game_service.py behind the endpoints of games.py: the games that are held in
memory, the rows of the database, and the requests as coroutines that stop at every
query, flush and commit. A session collects its writes, and they reach the other
sessions with its commit; that a session waits for another one's row only restricts the
order of the commits. What the AI chooses from a state is an argument of each request,
and so are the identifiers that uuid4 draws. The times of a match are left out.
-/

namespace KiClash.GameService

open EngineTypes OutcomeMatrix Engine AsyncTasks

section Tables

/-- Difficulty. -/
inductive Difficulty
  | novice | easy | medium | hard | expert | grandmaster
  deriving DecidableEq, Repr

/-- _DIFFICULTY_TO_MATCH_TYPE. -/
def Difficulty.matchType : Difficulty → MatchType
  | .novice => .aiNovice
  | .easy => .aiEasy
  | .medium => .aiMedium
  | .hard => .aiHard
  | .expert => .aiExpert
  | .grandmaster => .aiGrandmaster

/-- difficulty_map.get of submit_action. -/
def difficultyOf : MatchType → Option Difficulty
  | .aiNovice => some .novice
  | .aiEasy => some .easy
  | .aiMedium => some .medium
  | .aiHard => some .hard
  | .aiExpert => some .expert
  | .aiGrandmaster => some .grandmaster
  | .pvp => none

/-- A row of matches. -/
structure MatchRow where
  /-- The primary key. -/
  id : UUID
  /-- The human player. -/
  player1Id : UUID
  /-- The kind of match. -/
  matchType : MatchType
  /-- Where the match stands. -/
  status : MatchStatus
  /-- Who has won, if player 1 has. -/
  winnerId : Option UUID
  /-- Rounds won by player 1. -/
  roundsWonP1 : ℤ
  /-- Rounds won by player 2. -/
  roundsWonP2 : ℤ
  deriving DecidableEq, Repr

/-- A row of rounds. -/
structure RoundRow where
  /-- The primary key. -/
  id : UUID
  /-- The match. -/
  matchId : UUID
  /-- The position in the match. -/
  roundNumber : ℤ
  /-- Who has won, once it is over. -/
  winner : Option RoundWinner
  /-- The number of turns, once it is over. -/
  totalTurns : ℤ
  deriving DecidableEq, Repr

/-- A row of turns; its other columns are those of the turn. -/
structure TurnRow where
  /-- The round. -/
  roundId : UUID
  /-- The turn. -/
  turn : TurnResult
  deriving DecidableEq, Repr

/-- The statistics of a player. -/
structure Stats where
  /-- Matches won. -/
  wins : ℤ
  /-- Matches lost. -/
  losses : ℤ
  /-- Drawn matches. -/
  draws : ℤ
  deriving DecidableEq, Repr

/-- The committed rows. -/
structure Database where
  /-- matches. -/
  matchRows : List MatchRow
  /-- rounds. -/
  roundRows : List RoundRow
  /-- turns. -/
  turnRows : List TurnRow
  /-- The statistics in players. -/
  players : UUID → Option Stats

/-- A write of a session. Of an updated row only the columns that have changed are
written. -/
inductive Write
  | insertMatch (row : MatchRow)
  | insertRound (row : RoundRow)
  | insertTurn (row : TurnRow)
  | updateRound (id : UUID) (winner : Option RoundWinner) (totalTurns : Option ℤ)
  | updateScore (id : UUID) (roundsWonP1 roundsWonP2 : Option ℤ)
  | completeMatch (id : UUID) (winnerId : Option UUID)
  | updateStats (playerId : UUID) (winner : RoundWinner) (count : ℤ)
  deriving DecidableEq, Repr

/-- The column that counts such a result. -/
def Stats.count (stats : Stats) : RoundWinner → ℤ
  | .p1 => stats.wins
  | .p2 => stats.losses
  | .draw => stats.draws

/-- The column is set. -/
def Stats.set (stats : Stats) (winner : RoundWinner) (count : ℤ) : Stats :=
  match winner with
  | .p1 => {stats with wins := count}
  | .p2 => {stats with losses := count}
  | .draw => {stats with draws := count}

namespace Database

/-- The row with this key is updated. -/
def updateMatch (db : Database) (id : UUID) (f : MatchRow → MatchRow) : Database :=
  {db with matchRows := db.matchRows.map fun row => if row.id=id then f row else row}

/-- A write reaches the tables. -/
def write (db : Database) : Write → Database
  | .insertMatch row => {db with matchRows := db.matchRows++[row]}
  | .insertRound row => {db with roundRows := db.roundRows++[row]}
  | .insertTurn row => {db with turnRows := db.turnRows++[row]}
  | .updateRound id winner totalTurns =>
    {db with roundRows := db.roundRows.map fun row =>
      if row.id=id then
        {row with winner := winner.or row.winner,totalTurns := totalTurns.getD row.totalTurns}
      else row}
  | .updateScore id roundsWonP1 roundsWonP2 =>
    db.updateMatch id fun row =>
      {row with
        roundsWonP1 := roundsWonP1.getD row.roundsWonP1
        roundsWonP2 := roundsWonP2.getD row.roundsWonP2}
  | .completeMatch id winnerId =>
    db.updateMatch id fun row =>
      {row with status := .completed,winnerId := winnerId.or row.winnerId}
  | .updateStats playerId winner count =>
    let stats := (db.players playerId).map fun stats => stats.set winner count
    {db with players := Function.update db.players playerId stats}

/-- All writes of a session. -/
def writeAll (db : Database) (writes : List Write) : Database := writes.foldl write db

/-- A row with the key of an inserted one is there. -/
def conflicts (db : Database) : Write → Bool
  | .insertMatch row => db.matchRows.any fun row' => row'.id=row.id
  | .insertRound row => db.roundRows.any fun row' => row'.id=row.id
  | _ => false

end Database

end Tables

section Operations

/-- A game that a request can hold a reference to. -/
structure Held where
  /-- The state, which the engine changes in place. -/
  state : GameState
  /-- It is in _active_games. -/
  active : Bool
  /-- Who has created it, which the source does not keep. -/
  creator : UUID
  deriving DecidableEq

/-- The process and the database. -/
structure Service where
  /-- The games that have ever been in _active_games. -/
  games : UUID → Option Held
  /-- The committed rows. -/
  db : Database

/-- The game is replaced. -/
def Service.hold (service : Service) (gameId : UUID) (held : Held) : Service :=
  ⟨Function.update service.games gameId (some held),service.db⟩

/-- The exceptions. -/
inductive Exc
  | notFoundError (resource : String)
  | gameError (message : String)
  | assertionError
  | aiError
  | valueError (error : EngineError)
  | multipleResultsFound
  | noResultFound
  | keyError
  | integrityError
  | databaseError
  deriving DecidableEq, Repr

/-- submit_action of a player, with what the AI chooses from a state and the key of a new
round. -/
structure Submit where
  /-- The game. -/
  gameId : UUID
  /-- The caller. -/
  playerId : UUID
  /-- The action. -/
  action : Action
  /-- choose_action, which may raise. -/
  choose : Difficulty → GameState → Option Action
  /-- The key of the round that it may create. -/
  roundId : UUID

/-- The operations: the queries with what a session has written so far, the flush and the
commit, and between them the parts of the requests that nothing interrupts. -/
inductive ServiceOp
  | selectPlayer (playerId : UUID)
  | selectRound (gameId : UUID) (roundNumber : ℤ)
  | selectMatch (gameId : UUID) (writes : List Write)
  | flush (writes : List Write)
  | commit (writes : List Write)
  | start (gameId playerId : UUID) (difficulty : Difficulty)
  | check (submit : Submit)
  | resolve (submit : Submit) (aiAction : Action)
  | score (gameId : UUID) (finished : Bool)
  | remove (gameId : UUID)

/-- What they return. -/
abbrev ServiceOp.Res : ServiceOp → Type
  | .selectPlayer _ => Option Stats
  | .selectRound _ _ => List RoundRow
  | .selectMatch _ _ => Option MatchRow
  | .flush _ | .commit _ | .start _ _ _ | .remove _ => Unit
  | .check _ => ℤ×Action
  | .resolve _ _ => TurnReport
  | .score _ _ => (ℤ×ℤ)×Option ℤ

/-- The signature of the coroutines. -/
abbrev sig : Signature := ⟨ServiceOp,ServiceOp.Res,Exc⟩

/-- A coroutine. -/
abbrev Coroutine (α : Type) := Prog sig α

/-- An operation. -/
def perform (o : ServiceOp) : Coroutine o.Res := Prog.perform (S := sig) o

/-- What the operation stops at is a statement of the database. -/
def ServiceOp.queries : ServiceOp → Bool
  | .selectPlayer _ | .selectRound _ _ | .selectMatch _ _ | .flush _ | .commit _ => true
  | _ => false

/-- The state that the engine starts a match with, and its first round. -/
def newGame (gameId : UUID) (difficulty : Difficulty) : GameState :=
  (startMatch gameId difficulty.matchType).1

/-- submit_action up to its first query. -/
def checked (service : Service) (submit : Submit) : Except Exc (ℤ×Action) :=
  match (service.games submit.gameId).filter Held.active with
  | none => .error (.notFoundError "Game")
  | some held =>
    if held.state.status≠.inProgress then .error (.gameError "Game is not in progress")
    else
      match difficultyOf held.state.matchType with
      | none => .error (.gameError "Not an AI game")
      | some difficulty =>
        match held.state.currentRound with
        | none => .error .assertionError
        | some round =>
          if !validateAction submit.action round.p1Ki then
            .error (.gameError ("Cannot afford "++submit.action.value++" (ki="++
              toString round.p1Ki++")"))
          else
            match submit.choose difficulty held.state with
            | none => .error .aiError
            | some aiAction => .ok (round.roundNumber,aiAction)

/-- The engine's part of submit_action. If the round goes on, the state is put back into
_active_games before the next await. -/
def resolved (service : Service) (submit : Submit) (aiAction : Action) :
    Service×Except Exc TurnReport :=
  match service.games submit.gameId with
  | none => (service,.error (.notFoundError "Game"))
  | some held =>
    let (state,result) := submitTurn held.state submit.action aiAction
    match result with
    | .error e =>
      (service.hold submit.gameId {held with state := state},.error (.valueError e))
    | .ok report =>
      let active := if report.roundResult.isNone then true else held.active
      (service.hold submit.gameId {held with state := state,active := active},.ok report)

/-- What the game shows when the match has been loaded. If the match goes on, the state is
put back. -/
def scored (service : Service) (gameId : UUID) (finished : Bool) :
    Service×Except Exc ((ℤ×ℤ)×Option ℤ) :=
  match service.games gameId with
  | none => (service,.error (.notFoundError "Game"))
  | some held =>
    (service.hold gameId {held with active := if finished then held.active else true},
      .ok ((held.state.roundsWonP1,held.state.roundsWonP2),
        held.state.currentRound.map RoundState.roundNumber))

/-- del _active_games[game_id]. -/
def removed (service : Service) (gameId : UUID) : Service×Except Exc Unit :=
  match (service.games gameId).filter Held.active with
  | none => (service,.error .keyError)
  | some held =>
    (service.hold gameId {held with active := false},.ok ())

/-- What an operation does when nothing fails. -/
def effect (service : Service) : (o : ServiceOp) → Service×Except Exc o.Res
  | .selectPlayer playerId => (service,.ok (service.db.players playerId))
  | .selectRound gameId roundNumber =>
    (service,.ok (service.db.roundRows.filter fun row =>
      row.matchId=gameId && row.roundNumber=roundNumber))
  | .selectMatch gameId writes =>
    if writes.any service.db.conflicts then (service,.error .integrityError)
    else (service,.ok (service.db.matchRows.find? fun row => row.id=gameId))
  | .flush writes =>
    if writes.any service.db.conflicts then (service,.error .integrityError)
    else (service,.ok ())
  | .commit writes =>
    if writes.any service.db.conflicts then (service,.error .integrityError)
    else ({service with db := service.db.writeAll writes},.ok ())
  | .start gameId playerId difficulty =>
    (service.hold gameId ⟨newGame gameId difficulty,true,playerId⟩,.ok ())
  | .check submit => (service,checked service submit)
  | .resolve submit aiAction => resolved service submit aiAction
  | .score gameId finished => scored service gameId finished
  | .remove gameId => removed service gameId

/-- How an operation turns out: it completes, or the database fails before or after the
statement has taken effect. -/
inductive Outcome
  | proceeds | failsBefore | failsAfter
  deriving DecidableEq, Repr

/-- An operation under such an outcome. Nothing fails between two statements. -/
def turnsOut (outcome : Outcome) (o : ServiceOp) (service : Service) :
    Service×Except Exc o.Res :=
  match o.queries,outcome with
  | true,.failsBefore => (service,.error .databaseError)
  | true,.failsAfter => ((effect service o).1,.error .databaseError)
  | _,_ => effect service o

end Operations

section Requests

/-- The value to write into a column, if it is another one. -/
def changed {α : Type} [DecidableEq α] (loaded value : α) : Option α :=
  if value=loaded then none else some value

/-- get_current_player. -/
def getCurrentPlayer (playerId : UUID) : Coroutine Stats := do
  match ← perform (.selectPlayer playerId) with
  | none => .raise (.notFoundError "Player")
  | some player => pure player

/-- _get_current_round_db. -/
def getCurrentRoundDb (gameId : UUID) (roundNumber : ℤ) : Coroutine RoundRow := do
  match ← perform (.selectRound gameId roundNumber) with
  | [] => .raise (.notFoundError "Round")
  | [row] => pure row
  | _ => .raise .multipleResultsFound

/-- _get_match_db. The pending writes are flushed first. -/
def getMatchDb (gameId : UUID) (writes : List Write) : Coroutine MatchRow := do
  match ← perform (.selectMatch gameId writes) with
  | none => .raise (.notFoundError "Match")
  | some row => pure row

/-- The writes when the turn has ended its round: the result of the round, the score of the
match, and a new round if the match goes on. -/
def endRound (submit : Submit) (roundDb : RoundRow) (report : TurnReport) (writes : List Write) :
    Coroutine (List Write) :=
  match report.roundResult with
  | none => pure writes
  | some result => do
    let writes := writes++[.updateRound roundDb.id
      (if roundDb.winner=some result.winner then none else some result.winner)
      (changed roundDb.totalTurns result.totalTurns)]
    let matchDb ← getMatchDb submit.gameId writes
    let ((roundsWonP1,roundsWonP2),roundNumber) ←
      perform (.score submit.gameId report.matchResult.isSome)
    let writes := writes++[.updateScore submit.gameId (changed matchDb.roundsWonP1 roundsWonP1)
      (changed matchDb.roundsWonP2 roundsWonP2)]
    match report.matchResult,roundNumber with
    | none,some roundNumber =>
      pure (writes++[.insertRound ⟨submit.roundId,submit.gameId,roundNumber,none,0⟩])
    | _,_ => pure writes

/-- The writes when it has ended the match. The session has loaded the player when it
authenticated the caller, and does not load him again. -/
def endMatch (submit : Submit) (player : Stats) (report : TurnReport) (writes : List Write) :
    Coroutine (List Write) :=
  match report.matchResult with
  | none => pure writes
  | some result => do
    let _ ← getMatchDb submit.gameId writes
    let writes := writes++[.completeMatch submit.gameId
      (if result.winner=.p1 then some submit.playerId else none)]
    match ← perform (.selectPlayer submit.playerId) with
    | none => .raise .noResultFound
    | some _ =>
      perform (.remove submit.gameId)
      pure (writes++[.updateStats submit.playerId result.winner (player.count result.winner+1)])

/-- submit_action, with the caller as the session has loaded him and the writes that it
leaves to be committed. -/
def submitAction (submit : Submit) (player : Stats) : Coroutine (List Write) := do
  let (roundNumber,aiAction) ← perform (.check submit)
  let roundDb ← getCurrentRoundDb submit.gameId roundNumber
  let report ← perform (.resolve submit aiAction)
  let writes ← endRound submit roundDb report [.insertTurn ⟨roundDb.id,report.turnResult⟩]
  let writes ← endMatch submit player report writes
  perform (.flush writes)
  pure writes

/-- create_ai_game, with the writes that it leaves to be committed. -/
def createAiGame (gameId roundId playerId : UUID) (difficulty : Difficulty) :
    Coroutine (List Write) := do
  let state := newGame gameId difficulty
  let writes := .insertMatch ⟨gameId,playerId,difficulty.matchType,.inProgress,none,0,0⟩::
    (state.currentRound.map fun round =>
      .insertRound ⟨roundId,gameId,round.roundNumber,none,0⟩).toList
  perform (.flush writes)
  perform (.start gameId playerId difficulty)
  pure writes

/-- A request. -/
inductive Request
  | createAiGame (gameId roundId playerId : UUID) (difficulty : Difficulty)
  | submitAction (submit : Submit)

/-- The endpoint of a request in the session of get_db, which commits when it has
returned. -/
def handler : Request → Coroutine Unit
  | .createAiGame gameId roundId playerId difficulty => do
    let _ ← getCurrentPlayer playerId
    let writes ← createAiGame gameId roundId playerId difficulty
    perform (.commit writes)
  | .submitAction submit => do
    let player ← getCurrentPlayer submit.playerId
    let writes ← submitAction submit player
    perform (.commit writes)

/-- The requests of one process as tasks. Nothing fails between two statements. -/
abbrev requests : System sig where
  World := Service
  Choice := Outcome
  Entry := Request
  body := handler
  perform outcome _ _ o service :=
    if o.queries || outcome=.proceeds then
      some ((turnsOut outcome o service).1,(turnsOut outcome o service).2,none)
    else none
  arrive _ _ service := some service

/-- A coroutine that runs alone, with the outcomes of its operations one after another;
when there are none left, nothing fails any more. -/
def alone {α : Type} : Coroutine α → List Outcome → Service → Service×Except Exc α
  | .done r,_,service => (service,r)
  | .op o next,outcomes,service =>
    let (service,r) := turnsOut (outcomes.headD .proceeds) o service
    alone (next r) outcomes.tail service

/-- A request that is served alone. -/
def serve (request : Request) (outcomes : List Outcome) (service : Service) :
    Service×Except Exc Unit := alone (handler request) outcomes service

end Requests

end KiClash.GameService

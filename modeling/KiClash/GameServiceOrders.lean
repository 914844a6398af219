import KiClash.GameServiceRuns
import KiClash.Histories

/-!
# Concurrent requests on one AI game

The submit_action requests on an AI game, in any interleaving of their statements. A
request has the AI choose and looks up the row of the round before the engine resolves its
turn, and other requests may resolve theirs in between. As long as each turn is resolved
while the checks of its request would still find the same round and the same choice, what
the requests leave behind is what those that succeed leave behind when they are served one
after another: the engine resolves the next turn of a round, or a closed round is not
looked up by anybody before it has been committed.
-/

namespace KiClash.GameServiceOrders

open EngineTypes OutcomeMatrix Engine EngineRuns AsyncTasks Histories GameService
open GameServiceRuns

/-- create_ai_game with keys that nothing has yet. -/
structure NewGame where
  /-- What it finds. -/
  before : Service
  /-- The game. -/
  gameId : UUID
  /-- Its first round. -/
  roundId : UUID
  /-- The caller. -/
  playerId : UUID
  /-- The AI. -/
  difficulty : Difficulty
  /-- The caller has an account. -/
  player : (before.db.players playerId).isSome=true
  /-- No match has the key of the game. -/
  newMatch : ∀ row∈before.db.matchRows,row.id≠gameId
  /-- No round belongs to it, or has the key of its first round. -/
  newRound : ∀ row∈before.db.roundRows,row.matchId≠gameId ∧ row.id≠roundId

/-- What it leaves behind. -/
def NewGame.service (game : NewGame) : Service :=
  (serve (.createAiGame game.gameId game.roundId game.playerId game.difficulty) [] game.before).1

/-- The game has been created, and no request on it has come. -/
def NewGame.start (game : NewGame) : requests.Config := ⟨game.service,[]⟩

section Statements

/-- An operation of a request, with what it finds. -/
structure Moment where
  /-- The request. -/
  task : ℕ
  /-- The operation. -/
  op : ServiceOp
  /-- What it finds. -/
  service : Service

/-- The operation that a move performs. -/
def moment (config : requests.Config) : requests.Move → Option Moment
  | .open _ => none
  | .run task _ =>
    match config.tasks[task]? with
    | some (.op o _) => some ⟨task,o,config.world⟩
    | _ => none

/-- The operations of a run. -/
def momentsOf (config : requests.Config) : List requests.Move → List Moment
  | [] => []
  | move::moves => (moment config move).toList++
    match config.step move with
    | none => []
    | some config => momentsOf config moves

/-- The requests that come in a run. -/
def submitted : List requests.Move → List Submit
  | [] => []
  | .open (.submitAction submit)::moves => submit::submitted moves
  | _::moves => submitted moves

/-- Only requests on the game come, and no statement fails. -/
def Fits (gameId : UUID) : requests.Move → Prop
  | .open (.submitAction submit) => submit.gameId=gameId
  | .open (.createAiGame _ _ _ _) => False
  | .run _ outcome => outcome=.proceeds

/-- The rounds that they may create have keys that nothing has yet. -/
structure Fresh (game : NewGame) (submits : List Submit) : Prop where
  /-- Each has its own one. -/
  nodup : (submits.map Submit.roundId).Nodup
  /-- It is not that of the first round. -/
  first : ∀ submit∈submits,submit.roundId≠game.roundId
  /-- It is not that of an older round. -/
  older : ∀ submit∈submits,∀ row∈game.before.db.roundRows,row.id≠submit.roundId

/-- The round and the choice of the AI that the latest checks of a request have found. -/
def found (task : ℕ) (history : List Moment) : Option (ℤ×Action) :=
  (history.filterMap fun moment =>
    match moment.op with
    | .check submit => if moment.task=task then (checked moment.service submit).toOption else none
    | _ => none).getLast?

/-- The turn that the engine resolves at this moment. -/
def accepted (moment : Moment) : Option TurnReport :=
  match moment.op with
  | .resolve submit aiAction => (resolved moment.service submit aiAction).2.toOption
  | _ => none

/-- When the engine resolves the turn of a request, its checks would find what they have
found. -/
def Rechecked (earlier : List Moment) (moment : Moment) : Prop :=
  match moment.op with
  | .resolve submit _ => (accepted moment).isSome=true →
    (checked moment.service submit).toOption=found moment.task earlier
  | _ => True

/-- The rows of a round of a game. -/
def lookup (service : Service) (gameId : UUID) (number : ℤ) : List RoundRow :=
  service.db.roundRows.filter fun row => row.matchId=gameId && row.roundNumber=number

/-- The number of the open round of a game that goes on. -/
def openRound (service : Service) (gameId : UUID) : Option ℤ :=
  (service.games gameId).bind fun held =>
    if held.state.status=.inProgress then held.state.currentRound.map RoundState.roundNumber
    else none

/-- The turns that the engine has resolved, each with its round. -/
def turns (gameId : UUID) (history : List Moment) : List (ℤ×TurnResult) :=
  history.filterMap fun moment =>
    (accepted moment).bind fun report =>
      (openRound moment.service gameId).map fun number => (number,report.turnResult)

/-- Who has ended the match, and its result. -/
def ending (history : List Moment) : Option (UUID×RoundWinner) :=
  history.findSome? fun moment =>
    match moment.op with
    | .resolve submit _ => (accepted moment).bind fun report =>
        report.matchResult.map fun result => (submit.playerId,result.winner)
    | _ => none

/-- The match is credited to the statistics of a player. -/
def credited (players : UUID → Option Stats) : Option (UUID×RoundWinner) → UUID → Option Stats
  | none => players
  | some (playerId,winner) => Function.update players playerId
      ((players playerId).map fun stats => stats.set winner (stats.count winner+1))

/-- The turn is in a row of its round. -/
def Recorded (db : Database) (gameId : UUID) (turn : ℤ×TurnResult) (row : TurnRow) : Prop :=
  row.turn=turn.2 ∧ ∃ round∈db.roundRows,round.id=row.roundId ∧ round.matchId=gameId ∧
    round.roundNumber=turn.1

/-- The rows of a game say what has been played: each turn is in its own round, each round
that is over has its own result, and a match that is over is credited once. -/
structure Kept (game : NewGame) (turns : List (ℤ×TurnResult)) (ending : Option (UUID×RoundWinner))
    (service : Service) : Prop where
  /-- The turns. -/
  turnRows : ∃ rows,service.db.turnRows.Perm (game.before.db.turnRows++rows) ∧
    List.Forall₂ (Recorded service.db game.gameId) turns rows
  /-- The rounds. -/
  roundRows : ∃ held,service.games game.gameId=some held ∧
    (service.db.roundRows.filter (·.matchId=game.gameId)).map
        (fun row => (row.roundNumber,row.winner,row.totalTurns))=
      held.state.roundResults.map
          (fun result => (result.roundNumber,some result.winner,result.totalTurns))++
        (held.state.currentRound.map fun round => (round.roundNumber,none,0)).toList
  /-- The match is over once somebody has ended it. -/
  ended : ∃ held,service.games game.gameId=some held ∧
    (held.state.status≠.inProgress ↔ ending.isSome=true)
  /-- The statistics. -/
  players : service.db.players=credited game.before.db.players ending

/-- The same up to the order of the turns, of which the second one has more. -/
structure Lacks (rows : List TurnRow) (service service' : Service) : Prop where
  /-- The games in memory. -/
  games : service'.games=service.games
  /-- matches. -/
  matchRows : service'.db.matchRows=service.db.matchRows
  /-- rounds. -/
  roundRows : service'.db.roundRows=service.db.roundRows
  /-- turns. -/
  turnRows : service'.db.turnRows.Perm (service.db.turnRows++rows)
  /-- The statistics. -/
  players : service'.db.players=service.db.players

/-- The requests in an order. -/
def calls (submits : List Submit) (order : List ℕ) : List Call :=
  order.filterMap fun task => submits[task]?.map fun submit => (.submitAction submit,[])

/-- What the requests leave behind is what those that succeed leave behind when they are
served in some order, and the rows say what has been played. -/
def Serializable (game : NewGame) (moves : List requests.Move) (config : requests.Config) : Prop :=
  ∃ order : List ℕ,order.Nodup ∧
    (∀ task,task∈order ↔ config.tasks[task]?=some (.done (.ok ()))) ∧
    (∀ step∈steps (calls (submitted moves) order) game.service,
      (serve step.2.1 step.2.2 step.1).2=.ok ()) ∧
    Lacks [] (serveAll (calls (submitted moves) order) game.service) config.world ∧
    Kept game (turns game.gameId (momentsOf game.start moves))
      (ending (momentsOf game.start moves)) config.world

end Statements

section Missing

variable {rows rows' : List TurnRow} {service service' service'' : Service}

theorem Lacks.refl (service : Service) : Lacks [] service service := by
  refine ⟨rfl,rfl,rfl,?_,rfl⟩
  rw [List.append_nil]

/-- Rows that are missing from the first one may be added to it. -/
theorem Lacks.added (h : Lacks rows service service') (hadded : Lacks rows' service service'')
    {rest : List TurnRow} (hrows : rows.Perm (rows'++rest)) : Lacks rest service'' service' := by
  refine ⟨h.games.trans hadded.games.symm,h.matchRows.trans hadded.matchRows.symm,
    h.roundRows.trans hadded.roundRows.symm,?_,h.players.trans hadded.players.symm⟩
  have hall := h.turnRows.trans (hrows.append_left service.db.turnRows)
  rw [←List.append_assoc] at hall
  exact hall.trans (hadded.turnRows.symm.append_right rest)

/-- The second one may have still more. -/
theorem Lacks.trans (h : Lacks rows service service') (h' : Lacks rows' service' service'') :
    Lacks (rows++rows') service service'' := by
  refine ⟨h'.games.trans h.games,h'.matchRows.trans h.matchRows,h'.roundRows.trans h.roundRows,?_,
    h'.players.trans h.players⟩
  rw [←List.append_assoc]
  exact h'.turnRows.trans (h.turnRows.append_right rows')

/-- Both may hold the same game. -/
theorem Lacks.hold (h : Lacks rows service service') (gameId : UUID) (held : Held) :
    Lacks rows (service.hold gameId held) (service'.hold gameId held) := by
  refine ⟨?_,h.matchRows,h.roundRows,h.turnRows,h.players⟩
  simp only [Service.hold,h.games]

/-- Whether a write is in conflict does not depend on the turns. -/
theorem Lacks.conflicts (h : Lacks rows service service') (writes : List Write) :
    writes.any service'.db.conflicts=writes.any service.db.conflicts := by
  have heq : service'.db.conflicts=service.db.conflicts := by
    funext write
    cases write with
    | insertMatch row => simp only [Database.conflicts,h.matchRows]
    | insertRound row => simp only [Database.conflicts,h.roundRows]
    | _ => rfl
  rw [heq]

/-- A write reaches both. -/
theorem Lacks.write (h : Lacks rows service service') (write : Write) :
    Lacks rows ⟨service.games,service.db.write write⟩ ⟨service'.games,service'.db.write write⟩ := by
  obtain ⟨hgames,hmatchRows,hroundRows,hturnRows,hplayers⟩ := h
  cases write with
  | insertMatch row =>
    refine ⟨hgames,?_,hroundRows,hturnRows,hplayers⟩
    simp only [Database.write,hmatchRows]
  | insertRound row =>
    refine ⟨hgames,hmatchRows,?_,hturnRows,hplayers⟩
    simp only [Database.write,hroundRows]
  | insertTurn row =>
    refine ⟨hgames,hmatchRows,hroundRows,?_,hplayers⟩
    simp only [Database.write]
    have hmoved : (service.db.turnRows++rows++[row]).Perm (service.db.turnRows++[row]++rows) := by
      rw [List.append_assoc,List.append_assoc]
      exact List.Perm.append_left _ List.perm_append_comm
    exact (hturnRows.append_right [row]).trans hmoved
  | updateRound id winner totalTurns =>
    refine ⟨hgames,hmatchRows,?_,hturnRows,hplayers⟩
    simp only [Database.write,hroundRows]
  | updateScore id roundsWonP1 roundsWonP2 =>
    refine ⟨hgames,?_,hroundRows,hturnRows,hplayers⟩
    simp only [Database.write,Database.updateMatch,hmatchRows]
  | completeMatch id winnerId =>
    refine ⟨hgames,?_,hroundRows,hturnRows,hplayers⟩
    simp only [Database.write,Database.updateMatch,hmatchRows]
  | updateStats playerId winner count =>
    refine ⟨hgames,hmatchRows,hroundRows,hturnRows,?_⟩
    simp only [Database.write,hplayers]

/-- So do all writes of a session. -/
theorem Lacks.writeAll (h : Lacks rows service service') (writes : List Write) :
    Lacks rows ⟨service.games,service.db.writeAll writes⟩
      ⟨service'.games,service'.db.writeAll writes⟩ := by
  induction writes generalizing service service' with
  | nil => exact h
  | cons write writes ih => exact ih (h.write write)

/-- No operation depends on the turns that are there. -/
theorem Lacks.effect (h : Lacks rows service service') (o : ServiceOp) :
    (effect service' o).2=(effect service o).2 ∧
      Lacks rows (effect service o).1 (effect service' o).1 := by
  have hgames := h.games
  cases o with
  | selectPlayer playerId => exact ⟨by simp only [GameService.effect,h.players],h⟩
  | selectRound gameId roundNumber => exact ⟨by simp only [GameService.effect,h.roundRows],h⟩
  | selectMatch gameId writes =>
    simp only [GameService.effect,h.conflicts,h.matchRows]
    split
    · exact ⟨rfl,h⟩
    · exact ⟨rfl,h⟩
  | flush writes =>
    simp only [GameService.effect,h.conflicts]
    split
    · exact ⟨rfl,h⟩
    · exact ⟨rfl,h⟩
  | commit writes =>
    simp only [GameService.effect,h.conflicts]
    split
    · exact ⟨rfl,h⟩
    · exact ⟨rfl,h.writeAll writes⟩
  | start gameId playerId difficulty => exact ⟨rfl,h.hold _ _⟩
  | check submit =>
    refine ⟨?_,h⟩
    simp only [GameService.effect,checked,hgames]
  | resolve submit aiAction =>
    simp only [GameService.effect,resolved,hgames]
    split
    · exact ⟨rfl,h⟩
    · split
      · exact ⟨rfl,h.hold _ _⟩
      · exact ⟨rfl,h.hold _ _⟩
  | score gameId finished =>
    simp only [GameService.effect,scored,hgames]
    split
    · exact ⟨rfl,h⟩
    · exact ⟨rfl,h.hold _ _⟩
  | remove gameId =>
    simp only [GameService.effect,removed,hgames]
    split
    · exact ⟨rfl,h⟩
    · exact ⟨rfl,h.hold _ _⟩

/-- Nor does a coroutine that nothing interrupts. -/
theorem Lacks.alone {α : Type} (h : Lacks rows service service') (p : Coroutine α) :
    (alone p [] service').2=(alone p [] service).2 ∧
      Lacks rows (alone p [] service).1 (alone p [] service').1 := by
  induction p generalizing service service' with
  | done r => exact ⟨rfl,h⟩
  | op o next ih =>
    obtain ⟨hresult,hservice⟩ := h.effect o
    simp only [GameService.alone,List.headD_nil,List.tail_nil,turnsOut_proceeds,hresult]
    exact ih _ hservice

end Missing

section Rows

variable {game : NewGame} {turns : List (ℤ×TurnResult)} {ending : Option (UUID×RoundWinner)}
  {held : Held} {service : Service} {round : RoundState}

/-- What a round row says of its round. -/
abbrev standing (row : RoundRow) : ℤ×Option RoundWinner×ℤ :=
  (row.roundNumber,row.winner,row.totalTurns)

/-- The game as the requests leave it that are served one after another. -/
structure Tidy (game : NewGame) (turns : List (ℤ×TurnResult)) (ending : Option (UUID×RoundWinner))
    (held : Held) (service : Service) : Prop where
  /-- The game in memory. -/
  inMemory : service.games game.gameId=some held
  /-- It is served while it goes on. -/
  active : held.state.status=.inProgress → held.active=true
  /-- It is a match of the engine. -/
  invariant : ∃ accepted,MatchInvariant held.state accepted
  /-- The rounds that are over come before the open one. -/
  numbers : ∀ result∈held.state.roundResults,
    result.roundNumber ≤ held.state.roundResults.length
  /-- Its match has a row. -/
  matchRow : ∃ row,(service.db.matchRows.find? fun row => row.id=game.gameId)=some row
  /-- The keys of its rounds are theirs alone. -/
  keyed : ∀ row∈service.db.roundRows,row.matchId=game.gameId →
    ∀ row'∈service.db.roundRows,row'.id=row.id → row'=row
  /-- Its rows say what has been played. -/
  kept : Kept game turns ending service

/-- The rows of the rounds of such a game. -/
theorem Tidy.roundRows (h : Tidy game turns ending held service) :
    (service.db.roundRows.filter (·.matchId=game.gameId)).map standing=
      held.state.roundResults.map
          (fun result => (result.roundNumber,some result.winner,result.totalTurns))++
        (held.state.currentRound.map fun round => (round.roundNumber,none,0)).toList := by
  obtain ⟨held',hheld',hrows⟩ := h.kept.roundRows
  cases h.inMemory.symm.trans hheld'
  exact hrows

/-- The match is over once it has been ended. -/
theorem Tidy.ended (h : Tidy game turns ending held service) :
    held.state.status≠.inProgress ↔ ending.isSome=true := by
  obtain ⟨held',hheld',hover⟩ := h.kept.ended
  cases h.inMemory.symm.trans hheld'
  exact hover

/-- The open round comes after the rounds that are over. -/
theorem Tidy.numbered (h : Tidy game turns ending held service)
    (hround : held.state.currentRound=some round) :
    round.roundNumber=held.state.roundResults.length+1 := by
  obtain ⟨accepted,hinvariant⟩ := h.invariant
  exact (hinvariant.openRound round hround).numbered

/-- A game that goes on has an open round. -/
theorem Tidy.inProgress (h : Tidy game turns ending held service)
    (hround : held.state.currentRound=some round) : held.state.status=.inProgress := by
  obtain ⟨accepted,hinvariant⟩ := h.invariant
  rw [hinvariant.openIff,hround]
  rfl

/-- The row of the open round is the last one of its game. -/
theorem Tidy.openRow (h : Tidy game turns ending held service)
    (hround : held.state.currentRound=some round) :
    ∃ rows row,service.db.roundRows.filter (·.matchId=game.gameId)=rows++[row] ∧
      standing row=(round.roundNumber,none,0) ∧
      rows.map standing=held.state.roundResults.map
        (fun result => (result.roundNumber,some result.winner,result.totalTurns)) ∧
      ∀ row'∈rows,row'.roundNumber<round.roundNumber := by
  have hrows := h.roundRows
  rw [hround,Option.map_some,Option.toList_some] at hrows
  obtain ⟨rows,last,hsplit,hover,hlast⟩ := List.map_eq_append_iff.mp hrows
  obtain ⟨row,rfl,hrow⟩ : ∃ row,last=[row] ∧ standing row=(round.roundNumber,none,0) := by
    obtain ⟨row,rest,rfl,hrow,hrest⟩ := List.map_eq_cons_iff.mp hlast
    rw [List.map_eq_nil_iff] at hrest
    exact ⟨row,by rw [hrest],hrow⟩
  refine ⟨rows,row,hsplit,hrow,hover,fun row' hrow' => ?_⟩
  have hin : standing row'∈held.state.roundResults.map
      (fun result => (result.roundNumber,some result.winner,result.totalTurns)) := by
    rw [←hover]
    exact List.mem_map_of_mem hrow'
  obtain ⟨result,hresult,heq⟩ := List.mem_map.mp hin
  have hnumber : result.roundNumber=row'.roundNumber := congrArg Prod.fst heq
  have hle := h.numbers result hresult
  have hopen := h.numbered hround
  omega

/-- It is what a request on the open round looks up. -/
theorem Tidy.lookup_open (h : Tidy game turns ending held service)
    (hround : held.state.currentRound=some round) {row : RoundRow}
    (hrow : lookup service game.gameId round.roundNumber=[row]) :
    ∃ rows,service.db.roundRows.filter (·.matchId=game.gameId)=rows++[row] ∧
      standing row=(round.roundNumber,none,0) ∧
      rows.map standing=held.state.roundResults.map
        (fun result => (result.roundNumber,some result.winner,result.totalTurns)) ∧
      ∀ row'∈rows,row'.roundNumber<round.roundNumber := by
  obtain ⟨rows,last,hsplit,hlast,hover,hbefore⟩ := h.openRow hround
  have hnumber : last.roundNumber=round.roundNumber := congrArg Prod.fst hlast
  have hnone : rows.filter (·.roundNumber=round.roundNumber)=[] := by
    rw [List.filter_eq_nil_iff]
    intro row' hrow'
    have hlt := hbefore row' hrow'
    simp only [decide_eq_true_eq]
    omega
  have hlookup : lookup service game.gameId round.roundNumber=[last] := by
    have hboth : lookup service game.gameId round.roundNumber=
        (service.db.roundRows.filter (·.matchId=game.gameId)).filter
          (·.roundNumber=round.roundNumber) := by
      rw [List.filter_filter,lookup]
      simp only [Bool.and_comm]
    rw [hboth,hsplit,List.filter_append,hnone]
    simp [hnumber]
  cases hlookup.symm.trans hrow
  exact ⟨rows,hsplit,hlast,hover,hbefore⟩

/-- A round that has not been opened has no row. -/
theorem Tidy.lookup_later (h : Tidy game turns ending held service)
    (hround : held.state.currentRound=some round) {number : ℤ} (hlater : round.roundNumber<number) :
    lookup service game.gameId number=[] := by
  obtain ⟨rows,last,hsplit,hlast,-,hbefore⟩ := h.openRow hround
  have hnumber : last.roundNumber=round.roundNumber := congrArg Prod.fst hlast
  rw [lookup,List.filter_eq_nil_iff]
  intro row hrow hfound
  rw [Bool.and_eq_true,decide_eq_true_eq,decide_eq_true_eq] at hfound
  have hin : row∈rows++[last] := by
    rw [←hsplit,List.mem_filter,decide_eq_true_eq]
    exact ⟨hrow,hfound.1⟩
  obtain hold | hnew := List.mem_append.mp hin
  · have hlt := hbefore row hold
    omega
  · rw [List.mem_singleton.mp hnew] at hfound
    omega

end Rows

section Turns

variable {service service' : Service} {submit : Submit} {player : Stats} {row : RoundRow}
  {matchRow : MatchRow} {report : TurnReport} {held : Held} {result : RoundResult}

/-- An operation that goes through. -/
theorem alone_ok {α : Type} {o : ServiceOp} {res : o.Res} (h : effect service o=(service',.ok res))
    (f : o.Res → Coroutine α) : alone (perform o >>= f) [] service=alone (f res) [] service' := by
  rw [alone_perform,List.headD_nil,turnsOut_proceeds,h]
  rfl

/-- The match is loaded. -/
theorem alone_getMatchDb {α : Type} {gameId : UUID} {writes : List Write}
    (hrow : (service.db.matchRows.find? fun row => row.id=gameId)=some matchRow)
    (hconflicts : writes.any service.db.conflicts=false) (f : MatchRow → Coroutine α) :
    alone (getMatchDb gameId writes >>= f) [] service=alone (f matchRow) [] service := by
  have heffect : effect service (.selectMatch gameId writes)=(service,.ok (some matchRow)) := by
    simp only [effect,hconflicts,hrow]
    rfl
  rw [getMatchDb,Prog.bind_assoc,alone_ok heffect]
  rfl

/-- The writes are committed. -/
theorem alone_commit {writes : List Write} (hconflicts : writes.any service.db.conflicts=false) :
    alone (perform (.flush writes) >>= fun _ => perform (.commit writes)) [] service=
      (⟨service.games,service.db.writeAll writes⟩,.ok ()) := by
  have hflush : effect service (.flush writes)=(service,.ok ()) := by
    simp only [effect,hconflicts]
    rfl
  rw [alone_ok hflush]
  simp only [perform,Prog.perform,alone,List.headD_nil,turnsOut_proceeds,effect,hconflicts]
  rfl

/-- What is written when the round goes on. -/
def turnWrites (row : RoundRow) (report : TurnReport) : List Write :=
  [.insertTurn ⟨row.id,report.turnResult⟩]

/-- What is written when it is over. -/
def roundWrites (submit : Submit) (row : RoundRow) (matchRow : MatchRow) (report : TurnReport)
    (result : RoundResult) (state : GameState) : List Write :=
  turnWrites row report++
    [.updateRound row.id (if row.winner=some result.winner then none else some result.winner)
      (changed row.totalTurns result.totalTurns)]++
    [.updateScore submit.gameId (changed matchRow.roundsWonP1 state.roundsWonP1)
      (changed matchRow.roundsWonP2 state.roundsWonP2)]

/-- What is written when the match is over. -/
def matchWrites (submit : Submit) (player : Stats) (row : RoundRow) (matchRow : MatchRow)
    (report : TurnReport) (result : RoundResult) (state : GameState) (winner : RoundWinner) :
    List Write :=
  roundWrites submit row matchRow report result state++
    [.completeMatch submit.gameId (if winner=.p1 then some submit.playerId else none)]++
    [.updateStats submit.playerId winner (player.count winner+1)]

/-- When the round goes on, only the turn is written. -/
theorem afterTurn_goesOn (hround : report.roundResult=none) (hmatch : report.matchResult=none) :
    afterTurn submit player row report=
      (perform (.flush (turnWrites row report)) >>= fun _ =>
        perform (.commit (turnWrites row report))) := by
  rw [afterTurn,endRound,hround]
  change (endMatch submit player report (turnWrites row report) >>= _)=_
  rw [endMatch,hmatch]
  rfl

/-- The round goes on. -/
theorem alone_roundGoesOn (hround : report.roundResult=none) (hmatch : report.matchResult=none) :
    alone (afterTurn submit player row report) [] service=
      (⟨service.games,service.db.writeAll (turnWrites row report)⟩,.ok ()) := by
  rw [afterTurn_goesOn hround hmatch]
  exact alone_commit rfl

/-- The round is over, and its result and the score of the match are written. -/
theorem alone_endRound {α : Type} (hheld : service.games submit.gameId=some held)
    (hactive : held.active=true) (hround : report.roundResult=some result)
    (hrow : (service.db.matchRows.find? fun row => row.id=submit.gameId)=some matchRow)
    (f : List Write → Coroutine α) :
    alone (endRound submit row report (turnWrites row report) >>= f) [] service=
      alone (f (roundWrites submit row matchRow report result held.state++
        (match report.matchResult,held.state.currentRound.map RoundState.roundNumber with
        | none,some number => [.insertRound ⟨submit.roundId,submit.gameId,number,none,0⟩]
        | _,_ => []))) [] service := by
  have hscore : effect service (.score submit.gameId report.matchResult.isSome)=(service,
      .ok ((held.state.roundsWonP1,held.state.roundsWonP2),
        held.state.currentRound.map RoundState.roundNumber)) := by
    have hsame : ({held with active := true} : Held)=held := by
      rw [←hactive]
    simp only [effect,scored,hheld,hactive,ite_self,hsame,hold_self hheld]
  rw [endRound,hround]
  simp only [Prog.bind_assoc]
  rw [alone_getMatchDb hrow rfl,alone_ok hscore]
  dsimp only
  cases report.matchResult with
  | some matchResult =>
    rw [List.append_nil]
    rfl
  | none =>
    cases held.state.currentRound with
    | none =>
      rw [Option.map_none,List.append_nil]
      rfl
    | some next => rfl

/-- The round is over, and the next one begins. -/
theorem alone_roundCloses {next : RoundState} (hheld : service.games submit.gameId=some held)
    (hactive : held.active=true) (hround : report.roundResult=some result)
    (hmatch : report.matchResult=none) (hnext : held.state.currentRound=some next)
    (hrow : (service.db.matchRows.find? fun row => row.id=submit.gameId)=some matchRow)
    (hfresh : ∀ row∈service.db.roundRows,row.id≠submit.roundId) :
    alone (afterTurn submit player row report) [] service=
      (⟨service.games,service.db.writeAll (roundWrites submit row matchRow report result held.state++
        [.insertRound ⟨submit.roundId,submit.gameId,next.roundNumber,none,0⟩])⟩,.ok ()) := by
  have hconflicts : (roundWrites submit row matchRow report result held.state++
      [Write.insertRound ⟨submit.roundId,submit.gameId,next.roundNumber,none,0⟩]).any
        service.db.conflicts=false := by
    rw [List.any_append,roundWrites]
    simp only [turnWrites,List.any_append,List.any_cons,List.any_nil,Database.conflicts,
      Bool.false_or,Bool.or_false,List.any_eq_false,decide_eq_true_eq]
    exact hfresh
  rw [afterTurn]
  refine (alone_endRound hheld hactive hround hrow _).trans ?_
  rw [hmatch,hnext,endMatch,hmatch]
  exact alone_commit hconflicts

/-- The match is over. -/
theorem alone_matchCloses {matchResult : MatchResult} {stats : Stats}
    (hheld : service.games submit.gameId=some held) (hactive : held.active=true)
    (hround : report.roundResult=some result) (hmatch : report.matchResult=some matchResult)
    (hrow : (service.db.matchRows.find? fun row => row.id=submit.gameId)=some matchRow)
    (hstats : service.db.players submit.playerId=some stats) :
    alone (afterTurn submit player row report) [] service=
      (⟨(service.hold submit.gameId {held with active := false}).games,
        service.db.writeAll (matchWrites submit player row matchRow report result held.state
          matchResult.winner)⟩,.ok ()) := by
  have hremove : effect service (.remove submit.gameId)=
      (service.hold submit.gameId {held with active := false},.ok ()) := by
    have hfound : (service.games submit.gameId).filter Held.active=some held := by
      rw [hheld,Option.filter_some,if_pos hactive]
    simp only [effect,removed,hfound]
  have hplayer : effect service (.selectPlayer submit.playerId)=(service,.ok (some stats)) := by
    simp only [effect,hstats]
  have hwrites : (match report.matchResult,held.state.currentRound.map RoundState.roundNumber with
      | none,some number =>
        [Write.insertRound ⟨submit.roundId,submit.gameId,number,none,0⟩]
      | _,_ => [])=[] := by
    rw [hmatch]
  rw [afterTurn]
  refine (alone_endRound hheld hactive hround hrow _).trans ?_
  rw [hwrites,List.append_nil,endMatch,hmatch]
  simp only [Prog.bind_assoc]
  rw [alone_getMatchDb hrow rfl,alone_ok hplayer]
  dsimp only
  rw [Prog.bind_assoc,alone_ok hremove]
  exact alone_commit rfl

end Turns

end KiClash.GameServiceOrders

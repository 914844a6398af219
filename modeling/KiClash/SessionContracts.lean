import KiClash.GameSession
import KiClash.RecordContracts

/-!
# What a proof about the Python session owes

The programs of the Python workers are walked through once and for all. A task
is in one of a few phases, and a proof about the stored session says what each
phase asserts about the record and shows for each event that the code can
append what it does to the invariant and to the phase. That the code appends
these events in these phases, and no others, is the result of this module.
-/

namespace KiClash.SessionContracts

open EngineTypes Engine ServerMessages AsyncTasks AsyncContracts WatchedKey RecordContracts
open GameStore GameSession

/-- The stored session and what has happened. -/
abbrev SessionRecord := Record runtime

/-- Where a task is between its transactions. -/
inductive Phase
  /-- Nothing is outstanding. -/
  | idle
  /-- A pair is to be resolved. -/
  | holding (p1Action p2Action : Action)
  /-- A turn has been applied, and its announcement is outstanding. -/
  | resolved (report : TurnReport)
  /-- These messages are still to be sent, and then perhaps the next prompt. -/
  | telling (messages : List (UUID×ServerMessage)) (prompts : Bool)
  /-- A forfeit has been written, and its announcement is outstanding. -/
  | forfeited (opponent : UUID)

/-- Nothing is being announced. -/
def Phase.quiet : Phase → Bool
  | .resolved _ | .telling _ _ => false
  | _ => true

/-- The messages with which _resolve_turn announces a turn. -/
def announcement (pairing : Pairing) (report : TurnReport) : List (UUID×ServerMessage) :=
  [(pairing.player1Id,turnResultForP1 report.turnResult),
    (pairing.player2Id,turnResultForP2 report.turnResult)]++
  report.roundResult.elim [] (fun result =>
    [(pairing.player1Id,roundResultFor result pairing.player1Id pairing.player1Id),
      (pairing.player2Id,roundResultFor result pairing.player2Id pairing.player1Id)])++
  report.matchResult.elim [] (fun result =>
    [(pairing.player1Id,matchResultMessage result pairing.player1Id pairing.player1Id),
      (pairing.player2Id,matchResultMessage result pairing.player2Id pairing.player1Id)])

/-- The messages that prompt the players for the next turn of a round. -/
def roundPrompt (pairing : Pairing) (round : RoundState) : List (UUID×ServerMessage) :=
  [(pairing.player1Id,.waitingForAction (round.turnNumber+1) turnTimeLimitSeconds
      round.roundNumber round.p1Ki round.p2Ki),
    (pairing.player2Id,.waitingForAction (round.turnNumber+1) turnTimeLimitSeconds
      round.roundNumber round.p2Ki round.p1Ki)]

/-- The messages of _send_waiting_for_action. -/
def promptFor (pairing : Pairing) (session : PvPSessionState) : List (UUID×ServerMessage) :=
  session.gameState.currentRound.elim [] (roundPrompt pairing)

/-- What submit_action concludes from its captured variables. -/
def concluded (captured : SubmitCaptured) : Phase :=
  match captured.validationError,captured.shouldResolve,captured.p1ActionToResolve,
      captured.p2ActionToResolve with
  | none,true,some p1Action,some p2Action => .holding p1Action p2Action
  | _,_,_,_ => .idle

/-- The match is over, or the session is gone; this is where sockets clean up. -/
def Over (record : SessionRecord) : Prop :=
  ∀ session,record.value=some session → session.gameState.status≠.inProgress

/-- Without a session the match is over. -/
theorem over_none (trace : List GameStore.Event) : Over ⟨none,trace⟩ := by
  intro session h
  cases h

/-- A timer forfeits one of the two players and tells the other. -/
def Opposes (pairing : Pairing) (forfeiting : RoundWinner) (opponent : UUID) : Prop :=
  (forfeiting=.p1 ∧ opponent=pairing.player2Id) ∨ (forfeiting=.p2 ∧ opponent=pairing.player1Id)

/-- What is known of a task from the way it was started. -/
def StartedFor (pairing : Pairing) : Entry → Prop
  | .forfeitAfterTimeout _ disconnected opponent =>
    opponent=if disconnected=pairing.player1Id then pairing.player2Id else pairing.player1Id
  | _ => True

/-- The parts of a proof about the stored session. -/
structure SessionContract where
  /-- The players. -/
  pairing : Pairing
  /-- Records in which something is owed. -/
  allowed : List GameStore.Event → Prop
  /-- Invariant with so many tasks started. -/
  inv : ℕ → SessionRecord → Prop
  /-- Changes that the given task expects from all other tasks. -/
  expects : TaskId → SessionRecord → SessionRecord → Prop
  /-- What the phase of a task asserts. -/
  phase : TaskId → Phase → SessionRecord → Prop

namespace SessionContract

/-- The contract: tasks rest in the idle phase. -/
def recordContract (S : SessionContract) : RecordContract runtime where
  allowed := S.allowed
  inv := S.inv
  expects := S.expects
  rest task := S.phase task .idle
  waits o := ∃ frame,o=.receive frame
  entry task entry record := S.phase task .idle record ∧ StartedFor S.pairing entry

/-- An event that concerns nobody. -/
def Neutral (S : SessionContract) (P : SessionRecord → Prop) (event : GameStore.Event) : Prop :=
  ∀ ⦃count record⦄,S.inv count record → P record → S.allowed (record.log event).trace →
    S.inv count (record.log event) ∧ ∀ task,S.expects task record (record.log event)

/-- What has to be shown of the events that the code appends. -/
structure Upheld (S : SessionContract) : Prop where
  /-- Nothing happening is expected. -/
  expects_refl : ∀ task record,S.expects task record record
  /-- Expected changes compose. -/
  expects_trans : ∀ task {record₁ record₂ record₃},S.expects task record₁ record₂ →
    S.expects task record₂ record₃ → S.expects task record₁ record₃
  /-- The condition on the record holds of its prefixes. -/
  allowed_prefix : ∀ {trace trace'},trace <+: trace' → S.allowed trace' → S.allowed trace
  /-- The other tasks do not end a phase. -/
  stable : ∀ task phase,S.recordContract.Stable task (S.phase task phase)
  /-- A match that is over stays over. -/
  over_stable : ∀ {task record record'},S.expects task record record' → Over record → Over record'
  /-- Nothing is left to tell. -/
  told : ∀ {task record},S.phase task (.telling [] false) record → S.phase task .idle record
  /-- The opponent need not be told of a forfeit. -/
  untold : ∀ {task opponent record},S.phase task (.forfeited opponent) record →
    S.phase task .idle record
  /-- The stored session belongs to the two players. -/
  players : ∀ {count record session},S.inv count record → record.value=some session →
    session.player1Id=S.pairing.player1Id ∧ session.player2Id=S.pairing.player2Id
  /-- A new task is idle. -/
  starts : ∀ {count entry record},S.inv count record →
    S.allowed (record.log (.note (.started count entry))).trace →
    S.inv (count+1) (record.log (.note (.started count entry))) ∧
      (∀ task,S.expects task record (record.log (.note (.started count entry)))) ∧
      S.phase count .idle (record.log (.note (.started count entry)))
  /-- Reads while nothing is being announced. -/
  loaded : ∀ task phase value,phase.quiet=true →
    S.Neutral (S.phase task phase) (.loaded task value)
  /-- Messages other than match results, likewise. -/
  sent : ∀ task phase player message,phase.quiet=true → message.isMatchResult=false →
    S.Neutral (S.phase task phase) (.note (.sent task player message))
  /-- Frames from a client. -/
  received : ∀ task frame,
    S.Neutral (fun record => S.phase task .idle record) (.note (.received task frame))
  /-- The key is removed after the match. -/
  deleted : ∀ task,S.recordContract.Moves task
    (fun record => S.phase task .idle record ∧ Over record) (fun record => record.delete task)
    (S.phase task .idle)
  /-- An exception ends whatever is outstanding. -/
  raised : ∀ task phase,
    S.recordContract.Raises task (S.phase task phase) fun _ => S.phase task .idle
  /-- A transaction other than that of a resolution conflicts. -/
  conflict : ∀ task call retriesLeft,(∀ p1Action p2Action,call≠.resolve p1Action p2Action) →
    S.recordContract.Moves task (S.phase task .idle)
      (fun record => record.log (.conflict task call retriesLeft)) (S.phase task .idle)
  /-- A resolution conflicts; the last attempt gives up. -/
  resolveConflict : ∀ task p1Action p2Action retriesLeft,
    S.recordContract.Moves task (S.phase task (.holding p1Action p2Action))
      (fun record => record.log (.conflict task (.resolve p1Action p2Action) retriesLeft))
      (if retriesLeft=0 then S.phase task .idle else S.phase task (.holding p1Action p2Action))
  /-- A connection. -/
  connect : ∀ task player session,S.recordContract.Moves task
    (fun record => S.phase task .idle record ∧ record.value=some session)
    (fun record => record.commit task (.connect player) (session.markConnected player))
    (S.phase task .idle)
  /-- The start of the match. -/
  start : ∀ task session,S.recordContract.Moves task
    (fun record => S.phase task .idle record ∧ record.value=some session)
    (fun record => record.commit task .start {session with started := true})
    (S.phase task .idle)
  /-- A submission by one of the players. -/
  submit : ∀ task player action stale session captured' session',
    (player=S.pairing.player1Id ∨ player=S.pairing.player2Id) →
    storeAction player action stale session=.ok (captured',session') →
    S.recordContract.Moves task
      (fun record => S.phase task .idle record ∧ record.value=some session)
      (fun record => record.commit task (.submit player action stale) session')
      (S.phase task (concluded captured'))
  /-- A resolution that the engine accepts. -/
  resolve : ∀ task p1Action p2Action session gameState report,
    submitTurn session.gameState p1Action p2Action=(gameState,.ok report) →
    S.recordContract.Moves task
      (fun record => S.phase task (.holding p1Action p2Action) record ∧ record.value=some session)
      (fun record => record.commit task (.resolve p1Action p2Action)
        {session with gameState := gameState})
      (S.phase task (.resolved report))
  /-- A resolution that the engine refuses. -/
  refused : ∀ {task count p1Action p2Action record session error},S.inv count record →
    S.phase task (.holding p1Action p2Action) record → record.value=some session →
    (submitTurn session.gameState p1Action p2Action).2=.error error → S.phase task .idle record
  /-- A resolution without a session. -/
  missing : ∀ {task count p1Action p2Action record},S.inv count record →
    S.phase task (.holding p1Action p2Action) record → record.value=none →
    S.phase task .idle record
  /-- A forfeit. -/
  forfeit : ∀ task forfeiting opponent session,Opposes S.pairing forfeiting opponent →
    S.recordContract.Moves task
      (fun record => S.phase task .idle record ∧ record.value=some session)
      (fun record => record.commit task (.forfeit forfeiting)
        {session with gameState := (Engine.forfeit session.gameState forfeiting).1})
      (S.phase task (.forfeited opponent))
  /-- The ids of the players are read. -/
  read : ∀ task report session,S.recordContract.Moves task
    (fun record => S.phase task (.resolved report) record ∧ record.value=some session)
    (fun record => record.log (.loaded task (some session)))
    (S.phase task (.telling (announcement S.pairing report) report.matchResult.isNone))
  /-- There is no session to read them from. -/
  unread : ∀ task report,S.recordContract.Moves task
    (fun record => S.phase task (.resolved report) record ∧ record.value=none)
    (fun record => record.log (.loaded task none)) (S.phase task .idle)
  /-- A player is told what he is to be told next. -/
  tell : ∀ task player message messages prompts,S.recordContract.Moves task
    (S.phase task (.telling ((player,message)::messages) prompts))
    (fun record => record.log (.note (.sent task player message)))
    (S.phase task (.telling messages prompts))
  /-- The session is read for the next prompt. -/
  prompt : ∀ task session,session.gameState.status=.inProgress → S.recordContract.Moves task
    (fun record => S.phase task (.telling [] true) record ∧ record.value=some session)
    (fun record => record.log (.loaded task (some session)))
    (S.phase task (.telling (promptFor S.pairing session) false))
  /-- There is no next prompt after the match. -/
  unprompted : ∀ task value,(∀ session,value=some session → session.gameState.status≠.inProgress) →
    S.recordContract.Moves task
      (fun record => S.phase task (.telling [] true) record ∧ record.value=value)
      (fun record => record.log (.loaded task value)) (S.phase task .idle)
  /-- The opponent is told that he has won by forfeit. -/
  informOpponent : ∀ task opponent roundsWonP1 roundsWonP2 totalTurns,
    S.recordContract.Moves task (S.phase task (.forfeited opponent))
      (fun record => record.log (.note (.sent task opponent
        (.matchResult "you" roundsWonP1 roundsWonP2 totalTurns))))
      (S.phase task .idle)

end SessionContract

end KiClash.SessionContracts

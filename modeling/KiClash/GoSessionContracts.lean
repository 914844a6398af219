import KiClash.GoSession
import KiClash.RecordContracts

/-!
# What a proof about the Go session owes

The counterpart of the Python walk: the phases of a goroutine and the events
that the Go code appends in them. Three things differ. A transaction reads the
session once more after its commit, and that read can fail; a forfeit announces
itself whether or not its write has succeeded; and nothing removes the key.
-/

namespace KiClash.GoSessionContracts

open GoTypes GoEngine ServerMessages AsyncTasks AsyncContracts WatchedKey RecordContracts
open GameStore (Pairing)
open GoStore GoSession

/-- The stored session and what has happened. -/
abbrev SessionRecord := Record runtime

/-- Where a goroutine is between its transactions. -/
inductive Phase
  /-- Nothing is outstanding. -/
  | idle
  /-- A pair is to be resolved. -/
  | holding (p1 p2 : Action)
  /-- A turn has been applied, and its announcement is outstanding. -/
  | resolved (report : TurnReport)
  /-- These messages are still to be sent. -/
  | telling (messages : List (String×ServerMessage))
  /-- A forfeit is to be written, if it has not been written yet, and announced. -/
  | forfeiting (opponent : String)

/-- The phase in which a failure leaves a goroutine. -/
def Phase.afterFailure : Phase → Phase
  | .forfeiting opponent => .forfeiting opponent
  | _ => .idle

/-- The identifier of player 1 as the Go server has it. -/
abbrev p1Of (pairing : Pairing) : String := pairing.player1Id.text

/-- The identifier of player 2. -/
abbrev p2Of (pairing : Pairing) : String := pairing.player2Id.text

/-- The messages with which resolveTurn announces a turn, up to the next prompt. -/
def announcement (pairing : Pairing) (report : TurnReport) : List (String×ServerMessage) :=
  [(p1Of pairing,turnResultForP1 report.turnResult),
    (p2Of pairing,turnResultForP2 report.turnResult)]++
  report.roundResult.elim [] (fun rr =>
    [(p1Of pairing,roundResultFor rr (p1Of pairing) (p1Of pairing)),
      (p2Of pairing,roundResultFor rr (p2Of pairing) (p1Of pairing))])++
  report.matchResult.elim [] (fun mr =>
    [(p1Of pairing,matchResultFor mr (p1Of pairing) (p1Of pairing)),
      (p2Of pairing,matchResultFor mr (p2Of pairing) (p1Of pairing))])

/-- What submitAction concludes from its captured variables. -/
def concluded (captured : SubmitCaptured) : Phase :=
  if captured.validationErr="" ∧ captured.shouldResolve=true then
    .holding captured.p1ToResolve captured.p2ToResolve
  else .idle

/-- One of the two players. -/
def IsPlayer (pairing : Pairing) (playerId : String) : Prop :=
  playerId=p1Of pairing ∨ playerId=p2Of pairing

/-- The session belongs to the two players. -/
def Belongs (pairing : Pairing) (sess : PvPSession) : Prop :=
  sess.player1Id=p1Of pairing ∧ sess.player2Id=p2Of pairing

/-- A timer forfeits one of the two players and tells the other. -/
def Opposes (pairing : Pairing) (disconnected opponent : String) : Prop :=
  (disconnected=p1Of pairing ∧ opponent=p2Of pairing) ∨
    (disconnected=p2Of pairing ∧ opponent=p1Of pairing)

/-- What is known of a goroutine from the way it was started. -/
def StartedFor (pairing : Pairing) : Entry → Prop
  | .forfeitAfterTimeout _ disconnected opponent => Opposes pairing disconnected opponent
  | _ => True

/-- The phase in which a goroutine starts. -/
def firstPhase : Entry → Phase
  | .forfeitAfterTimeout _ _ opponent => .forfeiting opponent
  | _ => .idle

/-- The parts of a proof about the stored session. -/
structure SessionContract where
  /-- The players. -/
  pairing : Pairing
  /-- Records in which something is owed. -/
  allowed : List GoStore.Event → Prop
  /-- Invariant with so many goroutines started. -/
  inv : ℕ → SessionRecord → Prop
  /-- Changes that the given goroutine expects from all others. -/
  expects : GoroutineId → SessionRecord → SessionRecord → Prop
  /-- What the phase of a goroutine asserts. -/
  phase : GoroutineId → Phase → SessionRecord → Prop
  /-- What the variables captured by the submission of an action satisfy. -/
  captures : Action → SubmitCaptured → Prop

namespace SessionContract

/-- The contract: goroutines rest in the idle phase. -/
def recordContract (S : SessionContract) : RecordContract runtime where
  allowed := S.allowed
  inv := S.inv
  expects := S.expects
  rest task := S.phase task .idle
  waits o := ∃ frame,o=.readMessage frame
  entry task entry record := S.phase task (firstPhase entry) record ∧ StartedFor S.pairing entry

/-- An event that concerns nobody. -/
def Neutral (S : SessionContract) (P : SessionRecord → Prop) (event : GoStore.Event) : Prop :=
  ∀ ⦃count record⦄,S.inv count record → P record → S.allowed (record.log event).trace →
    S.inv count (record.log event) ∧ ∀ task,S.expects task record (record.log event)

/-- A transaction that leaves the match and the pending actions alone, and lets
nobody but the players connect. -/
structure Keeps (pairing : Pairing) (sess sess' : PvPSession) : Prop where
  /-- The match. -/
  gameState : sess'.gameState=sess.gameState
  /-- Player 1. -/
  player1Id : sess'.player1Id=sess.player1Id
  /-- Player 2. -/
  player2Id : sess'.player2Id=sess.player2Id
  /-- Player 1's pending action. -/
  p1Action : sess'.p1Action=sess.p1Action
  /-- Player 2's pending action. -/
  p2Action : sess'.p2Action=sess.p2Action
  /-- The list of the present players does not become nil. -/
  connected : sess.connectedPlayers.isSome=true → sess'.connectedPlayers.isSome=true
  /-- Who is present. -/
  present : ∀ player∈sess'.connectedPlayers.elements,
    player∈sess.connectedPlayers.elements ∨ IsPlayer pairing player

/-- What has to be shown of the events that the code appends. -/
structure Upheld (S : SessionContract) : Prop where
  /-- Nothing happening is expected. -/
  expects_refl : ∀ task record,S.expects task record record
  /-- Expected changes compose. -/
  expects_trans : ∀ task {record₁ record₂ record₃},S.expects task record₁ record₂ →
    S.expects task record₂ record₃ → S.expects task record₁ record₃
  /-- The condition on the record holds of its prefixes. -/
  allowed_prefix : ∀ {trace trace'},trace <+: trace' → S.allowed trace' → S.allowed trace
  /-- The other goroutines do not end a phase. -/
  stable : ∀ task phase,S.recordContract.Stable task (S.phase task phase)
  /-- There always is a session, and it belongs to the two players. -/
  stored : ∀ {count record},S.inv count record →
    ∃ sess,record.value=some sess ∧ Belongs S.pairing sess
  /-- Announcements may be left out. -/
  untold : ∀ {task record},
    (∀ report,S.phase task (.resolved report) record → S.phase task .idle record) ∧
    (∀ messages,S.phase task (.telling messages) record → S.phase task .idle record) ∧
    (∀ opponent,S.phase task (.forfeiting opponent) record → S.phase task .idle record)
  /-- The announcement of a turn begins. -/
  announces : ∀ {task report record},S.phase task (.resolved report) record →
    S.phase task (.telling (announcement S.pairing report)) record
  /-- A new goroutine is in its first phase. -/
  starts : ∀ {count entry record},S.inv count record →
    S.allowed (record.log (.note (.started count entry))).trace →
    S.inv (count+1) (record.log (.note (.started count entry))) ∧
      (∀ task,S.expects task record (record.log (.note (.started count entry)))) ∧
      S.phase count (firstPhase entry) (record.log (.note (.started count entry)))
  /-- Reads. -/
  loaded : ∀ task value,S.Neutral (fun _ => True) (.loaded task value)
  /-- Messages other than match results. -/
  sent : ∀ task player message,message.isMatchResult=false →
    S.Neutral (fun _ => True) (.note (.sent task player message))
  /-- Frames from a client. -/
  received : ∀ task frame,
    S.Neutral (fun record => S.phase task .idle record) (.note (.received task frame))
  /-- A failed command ends whatever is outstanding, except for a forfeit. -/
  failed : ∀ task phase exc,S.recordContract.Moves task (S.phase task phase)
    (fun record => record.deliver task exc) (S.phase task phase.afterFailure)
  /-- A transaction other than that of a resolution conflicts. -/
  conflict : ∀ task call retriesLeft phase,(∀ p1 p2,call≠.resolve p1 p2) →
    (∀ p1 p2,phase≠.holding p1 p2) →
    S.recordContract.Moves task (S.phase task phase)
      (fun record => record.log (.conflict task call retriesLeft)) (S.phase task phase)
  /-- A resolution conflicts; the last attempt gives up. -/
  resolveConflict : ∀ task p1 p2 retriesLeft,
    S.recordContract.Moves task (S.phase task (.holding p1 p2))
      (fun record => record.log (.conflict task (.resolve p1 p2) retriesLeft))
      (if retriesLeft=0 then S.phase task .idle else S.phase task (.holding p1 p2))
  /-- A connection, the start of the match or a disconnection. -/
  keeps : ∀ task call sess sess',(call=.start ∨ ∃ player,call=.connect player ∨
      call=.disconnect player) → Keeps S.pairing sess sess' →
    S.recordContract.Moves task
      (fun record => S.phase task .idle record ∧ record.value=some sess)
      (fun record => record.commit task call sess') (S.phase task .idle)
  /-- A submission starts with the zero values. -/
  captures_zero : ∀ action,S.captures action .zero
  /-- An attempt assigns the captured variables. -/
  captured : ∀ {count record player action captured sess captured' sess'},S.inv count record →
    record.value=some sess → S.captures action captured →
    storeAction player action captured sess=.ok (captured',sess') → S.captures action captured'
  /-- A submission by one of the players. -/
  submit : ∀ task player action stale sess captured' sess',IsPlayer S.pairing player →
    S.captures action stale → storeAction player action stale sess=.ok (captured',sess') →
    S.recordContract.Moves task
      (fun record => S.phase task .idle record ∧ record.value=some sess)
      (fun record => record.commit task (.submit player action stale) sess')
      (S.phase task (concluded captured'))
  /-- A resolution that the engine accepts. -/
  resolve : ∀ task p1 p2 sess gameState report,
    submitTurn sess.gameState p1 p2=(gameState,.ok report) →
    S.recordContract.Moves task
      (fun record => S.phase task (.holding p1 p2) record ∧ record.value=some sess)
      (fun record => record.commit task (.resolve p1 p2) {sess with gameState := gameState})
      (S.phase task (.resolved report))
  /-- A resolution that the engine refuses. -/
  refused : ∀ {task count p1 p2 record sess error},S.inv count record →
    S.phase task (.holding p1 p2) record → record.value=some sess →
    (submitTurn sess.gameState p1 p2).2=.error error → S.phase task .idle record
  /-- A forfeit, whatever the session says by now. -/
  forfeit : ∀ task disconnected opponent sess,Opposes S.pairing disconnected opponent →
    S.recordContract.Moves task
      (fun record => S.phase task (.forfeiting opponent) record ∧ record.value=some sess)
      (fun record => record.commit task (.forfeit disconnected)
        {sess with gameState := {sess.gameState with status := matchAbandoned}})
      (S.phase task (.forfeiting opponent))
  /-- A player is told what he is to be told next. -/
  tell : ∀ task player message messages,S.recordContract.Moves task
    (S.phase task (.telling ((player,message)::messages)))
    (fun record => record.log (.note (.sent task player message)))
    (S.phase task (.telling messages))
  /-- The opponent is told that he has won by forfeit. -/
  informOpponent : ∀ task opponent roundsWonP1 roundsWonP2 totalTurns,
    S.recordContract.Moves task (S.phase task (.forfeiting opponent))
      (fun record => record.log (.note (.sent task opponent
        (.matchResult "you" roundsWonP1 roundsWonP2 totalTurns))))
      (S.phase task .idle)

end SessionContract

end KiClash.GoSessionContracts

import KiClash.EngineRuns
import KiClash.GameService

/-!
# What a request leaves behind

A submit_action request that is served alone changes nothing before the engine has
resolved the turn; from then on the state in memory is another one, whatever the database
makes of the rest. So a request that fails leaves the game as it was exactly if it has not
got that far, and a request on somebody else's game leaves everything as it was exactly
if the service turns it down.
-/

namespace KiClash.GameServiceRuns

open EngineTypes OutcomeMatrix Engine EngineRuns AsyncTasks GameService

/-- The rows say the same as the state of a game. -/
structure AgreesWith (db : Database) (gameId : UUID) (state : GameState) : Prop where
  /-- The match. -/
  matchRow : ∃ row,db.matchRows.filter (·.id=gameId)=[row] ∧ row.status=state.status ∧
    row.winnerId=none ∧ row.roundsWonP1=state.roundsWonP1 ∧ row.roundsWonP2=state.roundsWonP2
  /-- The rounds that are over, and the open one. -/
  roundRows : (db.roundRows.filter (·.matchId=gameId)).map
      (fun row => (row.roundNumber,row.winner,row.totalTurns))=
    state.roundResults.map (fun result => (result.roundNumber,some result.winner,result.totalTurns))++
      (state.currentRound.map fun round => (round.roundNumber,none,0)).toList
  /-- The turns of the open round. -/
  turnRows : ∀ round,state.currentRound=some round → ∀ row∈db.roundRows,row.matchId=gameId →
    row.roundNumber=round.roundNumber →
    (db.turnRows.filter (·.roundId=row.id)).map TurnRow.turn=round.turnHistory

/-- A game in memory agrees with its rows. -/
def Agrees (service : Service) (gameId : UUID) : Prop :=
  ∀ held,service.games gameId=some held → held.active=true →
    AgreesWith service.db gameId held.state

/-- The game is as it was, and agrees with its rows if it did. -/
def Restored (service service' : Service) (gameId : UUID) : Prop :=
  service'.games gameId=service.games gameId ∧
    (Agrees service gameId → Agrees service' gameId)

/-- The request comes to the point where the engine resolves the turn: its player is there,
its checks pass, its round has a row that can be read, and the AI can pay for its
action. -/
def Resolves (service : Service) (submit : Submit) (outcomes : List Outcome) : Prop :=
  outcomes.headD .proceeds=.proceeds ∧ (service.db.players submit.playerId).isSome=true ∧
    ∃ roundNumber aiAction,checked service submit=.ok (roundNumber,aiAction) ∧
      outcomes.tail.tail.headD .proceeds=.proceeds ∧
      (∃ row,(service.db.roundRows.filter fun row =>
        row.matchId=submit.gameId && row.roundNumber=roundNumber)=[row]) ∧
      ∃ held round,service.games submit.gameId=some held ∧ held.state.currentRound=some round ∧
        validateAction aiAction round.p2Ki=true

section Operations

variable {service : Service} {outcome : Outcome} {o : ServiceOp}

/-- The operation leaves the states of the games as they are. -/
def Keeps : ServiceOp → Prop
  | .start _ _ _ | .resolve _ _ => False
  | _ => True

/-- Replacing a game by itself changes nothing. -/
theorem hold_self {gameId : UUID} {held : Held} (h : service.games gameId=some held) :
    service.hold gameId held=service := by
  unfold Service.hold
  rw [←h,Function.update_eq_self]

/-- Whether it is served does not matter to the view of a game. -/
def Lasting {β : Type} (view : Held → β) : Prop :=
  ∀ held active,view {held with active := active}=view held

/-- Replacing a game by one that looks the same does not change the view of any game. -/
theorem hold_view {β : Type} {view : Held → β} {gameId : UUID} {held held' : Held}
    (h : service.games gameId=some held) (hview : view held'=view held) (id : UUID) :
    ((service.hold gameId held').games id).map view=(service.games id).map view := by
  simp only [Service.hold]
  by_cases hid : id=gameId
  · subst hid
    rw [Function.update_self,h,Option.map_some,Option.map_some,hview]
  · rw [Function.update_of_ne hid]

/-- What such an operation does to the games. -/
theorem effect_view {β : Type} {view : Held → β} (hview : Lasting view) (h : Keeps o) (id : UUID) :
    ((effect service o).1.games id).map view=(service.games id).map view := by
  cases o with
  | start | resolve => exact h.elim
  | selectPlayer | selectRound | check => rfl
  | selectMatch gameId writes =>
    simp only [effect]
    split <;> rfl
  | flush writes =>
    simp only [effect]
    split <;> rfl
  | commit writes =>
    simp only [effect]
    split <;> rfl
  | score gameId finished =>
    simp only [effect,scored]
    split
    · rfl
    · next held hheld => exact hold_view hheld (hview held _) id
  | remove gameId =>
    simp only [effect,removed]
    split
    · rfl
    · next held hheld =>
      rw [Option.filter_eq_some_iff] at hheld
      exact hold_view hheld.1 (hview held _) id

/-- So does a coroutine of such operations, however they turn out. -/
theorem alone_view {α β : Type} {view : Held → β} (hview : Lasting view) {p : Coroutine α}
    (h : p.All Keeps) (outcomes : List Outcome) (service : Service) (id : UUID) :
    ((alone p outcomes service).1.games id).map view=(service.games id).map view := by
  induction p generalizing outcomes service with
  | done r => rfl
  | op o next ih =>
    refine (ih _ (h.2 _) _ _).trans ?_
    split
    · rfl
    · exact effect_view hview h.1 id
    · exact effect_view hview h.1 id

/-- The state of a game is such a view. -/
theorem lasting_state : Lasting Held.state := fun _ _ => rfl

/-- Neither does it commit anything. -/
def Prepares : ServiceOp → Prop
  | .start _ _ _ | .resolve _ _ | .commit _ => False
  | _ => True

/-- The rows are those from before. -/
theorem effect_db (h : Prepares o) : (effect service o).1.db=service.db := by
  cases o with
  | start | resolve | commit => exact h.elim
  | selectPlayer | selectRound | check => rfl
  | selectMatch gameId writes =>
    simp only [effect]
    split <;> rfl
  | flush writes =>
    simp only [effect]
    split <;> rfl
  | score gameId finished =>
    simp only [effect,scored]
    split <;> rfl
  | remove gameId =>
    simp only [effect,removed]
    split <;> rfl

/-- The same for a coroutine. -/
theorem alone_db {α : Type} {p : Coroutine α} (h : p.All Prepares) (outcomes : List Outcome)
    (service : Service) : (alone p outcomes service).1.db=service.db := by
  induction p generalizing outcomes service with
  | done r => rfl
  | op o next ih =>
    refine (ih _ (h.2 _) _ _).trans ?_
    split
    · rfl
    · exact effect_db h.1
    · exact effect_db h.1

/-- What prepares keeps the states. -/
theorem keeps_of_prepares {o : ServiceOp} (h : Prepares o) : Keeps o := by
  cases o with
  | start | resolve => exact h
  | _ => exact True.intro

end Operations

section Turns

/-- A resolved turn changes the state. -/
theorem accepted_ne {state state' : GameState} {p1Action p2Action : Action} {report : TurnReport}
    (h : Accepted state p1Action p2Action state' report) : state'≠state := by
  intro he
  cases h with
  | roundGoesOn round hround hw =>
    have hcurrent := (congrArg GameState.currentRound he).trans hround
    have hturn := congrArg RoundState.turnNumber (Option.some.inj hcurrent)
    simp only [advanceRound,resolveTurn] at hturn
    omega
  | roundCloses round hround roundResult =>
    have hlength := congrArg (fun state => state.roundResults.length) he
    simp at hlength
  | matchCloses round hround roundResult =>
    have hlength := congrArg (fun state => state.roundResults.length) he
    simp at hlength

/-- What has been checked. -/
theorem checked_ok {service : Service} {submit : Submit} {roundNumber : ℤ} {aiAction : Action}
    (h : checked service submit=.ok (roundNumber,aiAction)) :
    ∃ held difficulty round,service.games submit.gameId=some held ∧ held.active=true ∧
      held.state.status=.inProgress ∧ difficultyOf held.state.matchType=some difficulty ∧
      held.state.currentRound=some round ∧ validateAction submit.action round.p1Ki=true ∧
      submit.choose difficulty held.state=some aiAction ∧ roundNumber=round.roundNumber := by
  unfold checked at h
  split at h
  · cases h
  · next held hheld =>
    rw [Option.filter_eq_some_iff] at hheld
    split at h
    · cases h
    · next hstatus =>
      split at h
      · cases h
      · next difficulty hdifficulty =>
        split at h
        · cases h
        · next round hround =>
          split at h
          · cases h
          · next hvalid =>
            split at h
            · cases h
            · next hchoose =>
              cases h
              rw [Bool.not_eq_true',Bool.not_eq_false] at hvalid
              exact ⟨held,difficulty,round,hheld.1,hheld.2,not_not.mp hstatus,hdifficulty,hround,
                hvalid,hchoose,rfl⟩

/-- What the request does once the engine has resolved the turn. -/
def afterTurn (submit : Submit) (player : Stats) (roundDb : RoundRow) (report : TurnReport) :
    Coroutine Unit := do
  let writes ← endRound submit roundDb report [.insertTurn ⟨roundDb.id,report.turnResult⟩]
  let writes ← endMatch submit player report writes
  perform (.flush writes)
  perform (.commit writes)

/-- The same up to the commit, with the writes that are committed. -/
def beforeCommit (submit : Submit) (player : Stats) (roundDb : RoundRow) (report : TurnReport) :
    Coroutine (List Write) := do
  let writes ← endRound submit roundDb report [.insertTurn ⟨roundDb.id,report.turnResult⟩]
  let writes ← endMatch submit player report writes
  perform (.flush writes)
  pure writes

/-- The commit comes last. -/
theorem afterTurn_eq (submit : Submit) (player : Stats) (roundDb : RoundRow)
    (report : TurnReport) : afterTurn submit player roundDb report=
      (beforeCommit submit player roundDb report >>= fun writes => perform (.commit writes)) := by
  simp only [afterTurn,beforeCommit,Prog.bind_assoc]
  rfl

/-- The operations that load the match. -/
theorem getMatchDb_all {allowed : ServiceOp → Prop} {gameId : UUID}
    (hmatch : ∀ writes,allowed (.selectMatch gameId writes)) (writes : List Write) :
    (getMatchDb gameId writes).All allowed := by
  refine Prog.All.bind (Prog.All.perform (hmatch writes)) ?_
  intro row
  cases row <;> exact True.intro

/-- Those at the end of a round. -/
theorem endRound_all {allowed : ServiceOp → Prop} {submit : Submit} {report : TurnReport}
    (roundDb : RoundRow) (hmatch : ∀ writes,allowed (.selectMatch submit.gameId writes))
    (hscore : allowed (.score submit.gameId report.matchResult.isSome)) (writes : List Write) :
    (endRound submit roundDb report writes).All allowed := by
  unfold endRound
  split
  · exact True.intro
  · refine Prog.All.bind (getMatchDb_all hmatch _) fun matchDb => ?_
    refine Prog.All.bind (Prog.All.perform hscore) fun score => ?_
    dsimp only
    split <;> exact True.intro

/-- Before the commit come queries, the score of the match, and at its end the removal of
the game. -/
theorem beforeCommit_all {allowed : ServiceOp → Prop} (submit : Submit) (player : Stats)
    (roundDb : RoundRow) (report : TurnReport)
    (hmatch : ∀ writes,allowed (.selectMatch submit.gameId writes))
    (hplayer : allowed (.selectPlayer submit.playerId)) (hflush : ∀ writes,allowed (.flush writes))
    (hscore : allowed (.score submit.gameId report.matchResult.isSome))
    (hremove : report.matchResult.isSome=true → allowed (.remove submit.gameId)) :
    (beforeCommit submit player roundDb report).All allowed := by
  have hend : ∀ writes,(endMatch submit player report writes).All allowed := by
    intro writes
    unfold endMatch
    split
    · exact True.intro
    · next result hresult =>
      refine Prog.All.bind (getMatchDb_all hmatch _) fun matchDb => ?_
      refine Prog.All.bind (Prog.All.perform hplayer) fun found => ?_
      cases found with
      | none => exact True.intro
      | some found =>
        refine Prog.All.bind (Prog.All.perform (hremove ?_)) fun _ => True.intro
        rw [hresult]
        rfl
  refine Prog.All.bind (endRound_all roundDb hmatch hscore _) fun writes => ?_
  refine Prog.All.bind (hend _) fun writes => ?_
  exact Prog.All.bind (Prog.All.perform (hflush _)) fun _ => True.intro

/-- Nothing of it resolves another turn. -/
theorem afterTurn_keeps (submit : Submit) (player : Stats) (roundDb : RoundRow)
    (report : TurnReport) : (afterTurn submit player roundDb report).All Keeps := by
  rw [afterTurn_eq]
  refine Prog.All.bind ?_ fun writes => Prog.All.perform True.intro
  exact beforeCommit_all submit player roundDb report (fun _ => True.intro) True.intro
    (fun _ => True.intro) True.intro fun _ => True.intro

/-- A request in the steps up to the turn. -/
theorem handler_eq (submit : Submit) : handler (.submitAction submit)=
    (getCurrentPlayer submit.playerId >>= fun player =>
      perform (.check submit) >>= fun found =>
      getCurrentRoundDb submit.gameId found.1 >>= fun roundDb =>
      perform (.resolve submit found.2) >>= fun report =>
      afterTurn submit player roundDb report) := by
  simp only [handler,submitAction,afterTurn,Prog.bind_assoc]
  rfl

end Turns

section Alone

variable {α : Type} {outcome : Outcome} {o : ServiceOp} (outcomes : List Outcome)
  (service : Service)

/-- Without a failure an operation takes effect. -/
theorem turnsOut_proceeds : turnsOut .proceeds o service=effect service o := by
  unfold turnsOut
  cases o.queries <;> rfl

/-- So does a part that nothing interrupts. -/
theorem turnsOut_plain (h : o.queries=false) : turnsOut outcome o service=effect service o := by
  unfold turnsOut
  rw [h]

/-- A statement that fails raises. -/
theorem turnsOut_fails (h : o.queries=true) (hfails : outcome≠.proceeds) :
    (turnsOut outcome o service).2=.error .databaseError := by
  unfold turnsOut
  rw [h]
  cases outcome with
  | proceeds => exact absurd rfl hfails
  | failsBefore | failsAfter => rfl

/-- A query changes nothing. -/
theorem turnsOut_idle (h : ∀ service,(effect service o).1=service) :
    (turnsOut outcome o service).1=service := by
  unfold turnsOut
  split
  · rfl
  · exact h service
  · exact h service

/-- An operation and what follows it. -/
theorem alone_perform (f : o.Res → Coroutine α) :
    alone (perform o >>= f) outcomes service=
      match (turnsOut (outcomes.headD .proceeds) o service).2 with
      | .ok res => alone (f res) outcomes.tail (turnsOut (outcomes.headD .proceeds) o service).1
      | .error exc => ((turnsOut (outcomes.headD .proceeds) o service).1,.error exc) := by
  change alone (((.done (turnsOut (outcomes.headD .proceeds) o service).2 : Coroutine _)).bind f)
    outcomes.tail (turnsOut (outcomes.headD .proceeds) o service).1=_
  cases (turnsOut (outcomes.headD .proceeds) o service).2 <;> rfl

/-- A query either goes through, or it ends the request without a trace. -/
theorem alone_query (hquery : o.queries=true) (hidle : ∀ service,(effect service o).1=service)
    (f : o.Res → Coroutine α) :
    (outcomes.headD .proceeds=.proceeds ∧ alone (perform o >>= f) outcomes service=
      match (effect service o).2 with
      | .ok res => alone (f res) outcomes.tail service
      | .error exc => (service,.error exc)) ∨
    outcomes.headD .proceeds≠.proceeds ∧ (alone (perform o >>= f) outcomes service).1=service := by
  rw [alone_perform,turnsOut_idle service hidle]
  by_cases houtcome : outcomes.headD .proceeds=.proceeds
  · rw [houtcome,turnsOut_proceeds]
    exact .inl ⟨rfl,rfl⟩
  · rw [turnsOut_fails service hquery houtcome]
    exact .inr ⟨houtcome,rfl⟩

/-- Sequencing: the second part has the outcomes that the first one leaves. -/
theorem alone_bind {β : Type} (p : Coroutine α) (f : α → Coroutine β) :
    ∃ rest,alone (p >>= f) outcomes service=
      match (alone p outcomes service).2 with
      | .ok a => alone (f a) rest (alone p outcomes service).1
      | .error exc => ((alone p outcomes service).1,.error exc) := by
  induction p generalizing outcomes service with
  | done r =>
    refine ⟨outcomes,?_⟩
    cases r <;> rfl
  | op o next ih => exact ih _ outcomes.tail _

/-- What a coroutine returns. -/
theorem alone_yields {Q : α → Prop} {p : Coroutine α} (h : p.Yields Q) {a : α}
    (hok : (alone p outcomes service).2=.ok a) : Q a := by
  induction p generalizing outcomes service with
  | done r =>
    cases r with
    | ok a' =>
      cases hok
      exact h
    | error exc => cases hok
  | op o next ih => exact ih _ outcomes.tail _ (h _) hok

/-- A commit writes everything or nothing. -/
theorem alone_commit_cases (writes : List Write) :
    (alone (perform (.commit writes)) outcomes service).1=service ∨
      (alone (perform (.commit writes)) outcomes service).1=
        ⟨service.games,service.db.writeAll writes⟩ := by
  change (turnsOut (outcomes.headD .proceeds) (.commit writes) service).1=service ∨
    (turnsOut (outcomes.headD .proceeds) (.commit writes) service).1=_
  have heffect : (effect service (.commit writes)).1=service ∨
      (effect service (.commit writes)).1=⟨service.games,service.db.writeAll writes⟩ := by
    simp only [effect]
    split
    · exact .inl rfl
    · exact .inr rfl
  unfold turnsOut
  split
  · exact .inl rfl
  · exact heffect
  · exact heffect

/-- get_current_player finds the player, or the request has done nothing. -/
theorem alone_getCurrentPlayer (playerId : UUID) (f : Stats → Coroutine α) :
    (∃ player,outcomes.headD .proceeds=.proceeds ∧ service.db.players playerId=some player ∧
      alone (getCurrentPlayer playerId >>= f) outcomes service=
        alone (f player) outcomes.tail service) ∨
    ¬(outcomes.headD .proceeds=.proceeds ∧ (service.db.players playerId).isSome=true) ∧
      (alone (getCurrentPlayer playerId >>= f) outcomes service).1=service := by
  rw [getCurrentPlayer,Prog.bind_assoc]
  obtain ⟨houtcome,heq⟩ | ⟨hfails,hsame⟩ :=
    @alone_query α (.selectPlayer playerId) outcomes service rfl (fun _ => rfl) _
  · rw [heq]
    cases hplayer : service.db.players playerId with
    | none =>
      refine .inr ⟨(fun h => nomatch h.2),?_⟩
      simp only [effect,hplayer]
      rfl
    | some player =>
      refine .inl ⟨player,houtcome,rfl,?_⟩
      simp only [effect,hplayer]
      rfl
  · exact .inr ⟨fun h => hfails h.1,hsame⟩

/-- _get_current_round_db finds the row, or the request has done nothing. -/
theorem alone_getCurrentRoundDb (gameId : UUID) (roundNumber : ℤ) (f : RoundRow → Coroutine α) :
    (∃ row,outcomes.headD .proceeds=.proceeds ∧
      (service.db.roundRows.filter fun row =>
        row.matchId=gameId && row.roundNumber=roundNumber)=[row] ∧
      alone (getCurrentRoundDb gameId roundNumber >>= f) outcomes service=
        alone (f row) outcomes.tail service) ∨
    ¬(outcomes.headD .proceeds=.proceeds ∧ ∃ row,(service.db.roundRows.filter fun row =>
        row.matchId=gameId && row.roundNumber=roundNumber)=[row]) ∧
      (alone (getCurrentRoundDb gameId roundNumber >>= f) outcomes service).1=service := by
  rw [getCurrentRoundDb,Prog.bind_assoc]
  obtain ⟨houtcome,heq⟩ | ⟨hfails,hsame⟩ :=
    @alone_query α (.selectRound gameId roundNumber) outcomes service rfl (fun _ => rfl) _
  · rw [heq]
    simp only [effect]
    match hrows : service.db.roundRows.filter fun row =>
        row.matchId=gameId && row.roundNumber=roundNumber with
    | [] =>
      refine .inr ⟨?_,by rw [hrows]; rfl⟩
      rintro ⟨-,row,hrow⟩
      cases hrows.symm.trans hrow
    | [row] =>
      refine .inl ⟨row,houtcome,hrows,?_⟩
      rw [hrows]
      rfl
    | row::row'::rows =>
      refine .inr ⟨?_,by rw [hrows]; rfl⟩
      rintro ⟨-,row'',hrow⟩
      cases hrows.symm.trans hrow
  · exact .inr ⟨fun h => hfails h.1,hsame⟩

/-- The request plays a turn: what it finds, and what it does after that. -/
structure Plays (submit : Submit) (outcomes : List Outcome) (service : Service) (held : Held)
    (state' : GameState) (report : TurnReport) (player : Stats) (roundDb : RoundRow)
    (rest : List Outcome) : Prop where
  /-- The game is there. -/
  inMemory : service.games submit.gameId=some held
  /-- It is served. -/
  active : held.active=true
  /-- It goes on. -/
  inProgress : held.state.status=.inProgress
  /-- So is the player. -/
  loaded : service.db.players submit.playerId=some player
  /-- The engine resolves the turn. -/
  accepted : ∃ aiAction,Accepted held.state submit.action aiAction state' report
  /-- The rest of the request. -/
  goesOn : serve (.submitAction submit) outcomes service=
    alone (afterTurn submit player roundDb report) rest
      (service.hold submit.gameId {held with
        state := state',active := if report.roundResult.isNone then true else held.active})

/-- A request either comes to the turn and plays it, or it leaves everything as it was. -/
theorem serve_cases (submit : Submit) (outcomes : List Outcome) (service : Service) :
    (Resolves service submit outcomes ∧ ∃ held state' report player roundDb rest,
        Plays submit outcomes service held state' report player roundDb rest) ∨
      ¬Resolves service submit outcomes ∧
        (serve (.submitAction submit) outcomes service).1=service := by
  have heq := congrArg (fun p => alone p outcomes service) (handler_eq submit)
  change serve (.submitAction submit) outcomes service=_ at heq
  rw [heq]
  obtain ⟨player,houtcome,hplayer,heq₁⟩ | ⟨hnone,hsame⟩ :=
    alone_getCurrentPlayer outcomes service submit.playerId _
  · rw [heq₁,alone_perform,turnsOut_plain _ rfl] at heq
    rw [heq₁,alone_perform,turnsOut_plain _ rfl]
    cases hchecked : checked service submit with
    | error exc =>
      refine .inr ⟨?_,?_⟩
      · rintro ⟨-,-,roundNumber,aiAction,hok,-⟩
        cases hchecked.symm.trans hok
      · simp only [effect,hchecked]
    | ok found =>
      obtain ⟨roundNumber,aiAction⟩ := found
      obtain ⟨held,difficulty,round,hheld,hactive,hstatus,hdifficulty,hround,hvalid,hchoose,hnumber⟩ :=
        checked_ok hchecked
      simp only [effect,hchecked] at heq ⊢
      obtain ⟨row,houtcome',hrow,heq₂⟩ | ⟨hnone,hsame⟩ := alone_getCurrentRoundDb
        outcomes.tail.tail service submit.gameId roundNumber _
      · rw [heq₂,alone_perform,turnsOut_plain _ rfl] at heq
        rw [heq₂,alone_perform,turnsOut_plain _ rfl]
        simp only [effect,resolved,hheld] at heq ⊢
        obtain ⟨e,hturn,hrefused⟩ | ⟨-,round',state',report,hround',hafford,hturn,haccepted⟩ :=
          submitTurn_cases held.state submit.action aiAction
        · simp only [hturn]
          refine .inr ⟨?_,hold_self hheld⟩
          rintro ⟨-,-,roundNumber',aiAction',hok,-,-,held',round',hheld',hround',hvalid'⟩
          cases hchecked.symm.trans hok
          cases hheld.symm.trans hheld'
          cases hround.symm.trans hround'
          exact hrefused hstatus round hround
            ⟨(validateAction_iff _ _).mp hvalid,(validateAction_iff _ _).mp hvalid'⟩
        · simp only [hturn] at heq
          cases hround.symm.trans hround'
          refine .inl ⟨⟨houtcome,by rw [hplayer]; rfl,roundNumber,aiAction,hchecked,houtcome',⟨row,hrow⟩,
            held,round,hheld,hround,(validateAction_iff _ _).mpr hafford.2⟩,held,state',report,player,
            row,outcomes.tail.tail.tail.tail,hheld,hactive,hstatus,hplayer,⟨aiAction,haccepted⟩,heq⟩
      · refine .inr ⟨?_,hsame⟩
        rintro ⟨-,-,roundNumber',aiAction',hok,hlookup,hrows,-⟩
        cases hchecked.symm.trans hok
        exact hnone ⟨hlookup,hrows⟩
  · refine .inr ⟨?_,hsame⟩
    rintro ⟨hproceeds,hsome,-⟩
    exact hnone ⟨hproceeds,hsome⟩

/-- A turn that has been played leaves another state in memory. -/
theorem Plays.state {submit : Submit} {outcomes : List Outcome} {service : Service} {held : Held}
    {state' : GameState} {report : TurnReport} {player : Stats} {roundDb : RoundRow}
    {rest : List Outcome} (h : Plays submit outcomes service held state' report player roundDb rest) :
    ((serve (.submitAction submit) outcomes service).1.games submit.gameId).map Held.state=
        some state' ∧ state'≠held.state := by
  obtain ⟨aiAction,haccepted⟩ := h.accepted
  refine ⟨?_,accepted_ne haccepted⟩
  rw [h.goesOn,alone_view lasting_state (afterTurn_keeps submit player roundDb report)]
  simp only [Service.hold,Function.update_self,Option.map_some]

end Alone

section Failures

/-- A request that fails leaves the game as it was, and in agreement with its rows, exactly
if it has not come to the turn. -/
theorem restored_iff (submit : Submit) (outcomes : List Outcome) (service : Service) {exc : Exc}
    (_hfails : (serve (.submitAction submit) outcomes service).2=.error exc) :
    Restored service (serve (.submitAction submit) outcomes service).1 submit.gameId ↔
      ¬Resolves service submit outcomes := by
  obtain ⟨hresolves,held,state',report,player,roundDb,rest,hplays⟩ | ⟨hnot,hsame⟩ :=
    serve_cases submit outcomes service
  · refine ⟨fun hrestored => ?_,fun hnot => absurd hresolves hnot⟩
    obtain ⟨hstate,hne⟩ := hplays.state
    rw [hrestored.1,hplays.inMemory] at hstate
    exact absurd (Option.some.inj hstate).symm hne
  · rw [hsame]
    exact ⟨fun _ => hnot,fun _ => ⟨rfl,id⟩⟩

/-- The players 1 and 2, who have not played yet. -/
def twoPlayers : Service where
  games _ := none
  db := ⟨[],[],[],fun playerId =>
    if playerId=.small 1 ∨ playerId=.small 2 then some ⟨0,0,0⟩ else none⟩

/-- Player 1 has created game 9. -/
def createdGame : Service :=
  (serve (.createAiGame (.small 9) (.small 10) (.small 1) .novice) [] twoPlayers).1

/-- A player's request for game 9, to which the AI answers with charge. -/
def submits (player : Fin 16) (action : Action) : Submit :=
  ⟨.small 9,.small player,action,fun _ _ => some .charge,.small 11⟩

/-- An attack that player 1 cannot pay for leaves his game as it was. -/
theorem unaffordable_restored :
    (serve (.submitAction (submits 1 .attack)) [] createdGame).2=
        .error (.gameError "Cannot afford attack (ki=0)") ∧
      Restored createdGame (serve (.submitAction (submits 1 .attack)) [] createdGame).1
        (.small 9) := by
  have hfails : (serve (.submitAction (submits 1 .attack)) [] createdGame).2=
      .error (.gameError "Cannot afford attack (ki=0)") := by rfl
  have hchecked : checked createdGame (submits 1 .attack)=
      .error (.gameError "Cannot afford attack (ki=0)") := by rfl
  refine ⟨hfails,(restored_iff (submits 1 .attack) [] createdGame hfails).mpr ?_⟩
  rintro ⟨-,-,roundNumber,aiAction,hok,-⟩
  cases hchecked.symm.trans hok

/-- The flush of player 1's charge fails. -/
def flushFails : List Outcome := [.proceeds,.proceeds,.proceeds,.proceeds,.failsBefore]

/-- The game in memory has gone on all the same. -/
theorem failed_turn_stays : ¬∀ (submit : Submit) (outcomes : List Outcome) (service : Service)
    (exc : Exc),(serve (.submitAction submit) outcomes service).2=.error exc →
      Restored service (serve (.submitAction submit) outcomes service).1 submit.gameId := by
  intro h
  have hfails : (serve (.submitAction (submits 1 .charge)) flushFails createdGame).2=
      .error .databaseError := by rfl
  have hrestored := (h (submits 1 .charge) flushFails createdGame .databaseError hfails).1
  have hturns : ((serve (.submitAction (submits 1 .charge)) flushFails createdGame).1.games
      (.small 9)).map (fun held => held.state.currentRound.map RoundState.turnNumber)=
        some (some 1) := by decide
  have hnone : (createdGame.games (.small 9)).map
      (fun held => held.state.currentRound.map RoundState.turnNumber)=some (some 0) := by decide
  have hsame := congrArg (Option.map fun held => held.state.currentRound.map RoundState.turnNumber)
    hrestored
  rw [show (submits 1 .charge).gameId=.small 9 from rfl,hturns,hnone] at hsame
  simp at hsame

end Failures

section Isolation

/-- A request with the outcomes of its operations. -/
abbrev Call := Request×List Outcome

/-- One request after another. -/
def serveAll : List Call → Service → Service
  | [],service => service
  | (request,outcomes)::calls,service => serveAll calls (serve request outcomes service).1

/-- The requests, each with what it finds. -/
def steps : List Call → Service → List (Service×Call)
  | [],_ => []
  | (request,outcomes)::calls,service =>
    (service,request,outcomes)::steps calls (serve request outcomes service).1

/-- The request addresses a game that somebody else has created. -/
def foreign (service : Service) : Request → Bool
  | .submitAction submit =>
    (service.games submit.gameId).any fun held => held.creator≠submit.playerId
  | .createAiGame _ _ _ _ => false

/-- The requests that do not. -/
def purge : List Call → Service → List Call
  | [],_ => []
  | (request,outcomes)::calls,service =>
    let rest := purge calls (serve request outcomes service).1
    if foreign service request then rest else (request,outcomes)::rest

/-- A request on somebody else's game changes nothing. -/
def Harmless (step : Service×Call) : Prop :=
  foreign step.1 step.2.1=true → (serve step.2.1 step.2.2 step.1).1=step.1

/-- A request on somebody else's game does not come to the turn. -/
def Refused (step : Service×Call) : Prop :=
  ∀ submit,step.2.1=.submitAction submit → foreign step.1 step.2.1=true →
    ¬Resolves step.1 submit step.2.2

/-- It changes nothing exactly if it does not come to the turn. -/
theorem harmless_iff (step : Service×Call) : Harmless step ↔ Refused step := by
  obtain ⟨service,request,outcomes⟩ := step
  cases request with
  | createAiGame gameId roundId playerId difficulty =>
    exact ⟨(fun _ _ hsubmit => nomatch hsubmit),(fun _ hforeign => nomatch hforeign)⟩
  | submitAction submit =>
    have hcases := serve_cases submit outcomes service
    constructor
    · intro hharmless other hother hforeign
      cases hother
      obtain ⟨hresolves,held,state',report,player,roundDb,rest,hplays⟩ | ⟨hnot,-⟩ := hcases
      · obtain ⟨hstate,hne⟩ := hplays.state
        rw [show (serve (.submitAction submit) outcomes service).1=service from hharmless hforeign,
          hplays.inMemory] at hstate
        exact absurd (Option.some.inj hstate).symm hne
      · exact hnot
    · intro hrefused hforeign
      obtain ⟨hresolves,-⟩ | ⟨-,hsame⟩ := hcases
      · exact absurd hresolves (hrefused submit rfl hforeign)
      · exact hsame

/-- What changes nothing can be left out. -/
theorem serveAll_purge {calls : List Call} {service : Service}
    (h : ∀ step∈steps calls service,Harmless step) :
    serveAll (purge calls service) service=serveAll calls service := by
  induction calls generalizing service with
  | nil => rfl
  | cons call calls ih =>
    obtain ⟨request,outcomes⟩ := call
    have hfirst := h _ List.mem_cons_self
    have hrest := ih fun step hstep => h step (List.mem_cons_of_mem _ hstep)
    simp only [purge]
    split
    · next hforeign =>
      have hsame : (serve request outcomes service).1=service := hfirst hforeign
      simp only [serveAll]
      rw [hsame] at hrest ⊢
      exact hrest
    · exact hrest

/-- In a sequence of requests those on somebody else's game change nothing, and can be left
out, exactly if none of them comes to the turn. -/
theorem isolated_iff (calls : List Call) (service : Service) :
    ((∀ step∈steps calls service,Harmless step) ∧
        serveAll (purge calls service) service=serveAll calls service) ↔
      ∀ step∈steps calls service,Refused step := by
  constructor
  · exact fun h step hstep => (harmless_iff step).mp (h.1 step hstep)
  · intro h
    have hharmless : ∀ step∈steps calls service,Harmless step :=
      fun step hstep => (harmless_iff step).mpr (h step hstep)
    exact ⟨hharmless,serveAll_purge hharmless⟩

/-- Player 2 charges in player 1's game. -/
theorem foreign_turn_counts : ¬∀ (calls : List Call) (service : Service),
    (∀ step∈steps calls service,Harmless step) ∧
      serveAll (purge calls service) service=serveAll calls service := by
  intro h
  have hforeign : foreign createdGame (.submitAction (submits 2 .charge))=true := by decide
  have hsame := (h [(.submitAction (submits 2 .charge),[])] createdGame).1 _ List.mem_cons_self
    hforeign
  have hturns : ((serve (.submitAction (submits 2 .charge)) [] createdGame).1.games
      (.small 9)).map (fun held => held.state.currentRound.map RoundState.turnNumber)=
        some (some 1) := by decide
  have hnone : (createdGame.games (.small 9)).map
      (fun held => held.state.currentRound.map RoundState.turnNumber)=some (some 0) := by decide
  dsimp only at hsame
  rw [hsame,hnone] at hturns
  simp at hturns

end Isolation

end KiClash.GameServiceRuns

import KiClash.AiClient
import KiClash.RoundSimulation

/-!
# Requests and the games in memory

What a request that is served alone does to a game. One about another game does nothing. A
submission either plays a turn, and then the game is served until the match is over, or it is
turned down and has done nothing; and the turn that it plays is the one that its answer tells.
-/

namespace KiClash.ServedRequests

open EngineTypes OutcomeMatrix Engine EngineRuns AsyncTasks GameService GameServiceRuns AiClient

section Operations

variable {α : Type} {gameId : UUID} {o : ServiceOp}

/-- What every operation keeps is kept by a coroutine that runs alone. -/
theorem alone_keeps {P : Service → Prop} {p : Coroutine α}
    (h : p.All fun o => ∀ service,P service → P (effect service o).1) (outcomes : List Outcome)
    {service : Service} (hservice : P service) : P (alone p outcomes service).1 := by
  induction p generalizing outcomes service with
  | done r => exact hservice
  | op o next ih =>
    refine ih _ (h.2 _) _ ?_
    split
    · exact hservice
    · exact h.1 service hservice
    · exact h.1 service hservice

/-- The operation is not about a game. -/
def Spares (gameId : UUID) : ServiceOp → Prop
  | .start id _ _ | .score id _ | .remove id => id≠gameId
  | .resolve submit _ => submit.gameId≠gameId
  | _ => True

/-- Another game is as it was when a game is replaced. -/
theorem hold_other {id : UUID} (h : id≠gameId) (service : Service) (held : Held) :
    (service.hold id held).games gameId=service.games gameId :=
  Function.update_of_ne h.symm _ _

/-- Such an operation leaves the game. -/
theorem effect_spares (h : Spares gameId o) (service : Service) :
    (effect service o).1.games gameId=service.games gameId := by
  cases o with
  | selectPlayer | selectRound | check => rfl
  | selectMatch id writes =>
    simp only [effect]
    split <;> rfl
  | flush writes =>
    simp only [effect]
    split <;> rfl
  | commit writes =>
    simp only [effect]
    split <;> rfl
  | start id playerId difficulty => exact hold_other h _ _
  | resolve submit aiAction =>
    simp only [effect,resolved]
    split
    · rfl
    · split <;> exact hold_other h _ _
  | score id finished =>
    simp only [effect,scored]
    split
    · rfl
    · exact hold_other h _ _
  | remove id =>
    simp only [effect,removed]
    split
    · rfl
    · exact hold_other h _ _

/-- So does a coroutine of such operations. -/
theorem alone_spares {p : Coroutine α} (h : p.All (Spares gameId)) (outcomes : List Outcome)
    (service : Service) : (alone p outcomes service).1.games gameId=service.games gameId :=
  @alone_keeps α (fun service' => service'.games gameId=service.games gameId) p
    (Prog.All.mono (fun _ ho service' hsame => (effect_spares ho service').trans hsame) h) outcomes service rfl

/-- The game is served. -/
def Serves (service : Service) (gameId : UUID) : Prop :=
  ∃ held,service.games gameId=some held ∧ held.active=true

/-- The operation does not end a match. -/
def GoesOn : ServiceOp → Prop
  | .start _ _ _ | .resolve _ _ | .remove _ => False
  | _ => True

/-- A game that is served is served after such an operation. -/
theorem effect_serves (h : GoesOn o) {service : Service} (hserves : Serves service gameId) :
    Serves (effect service o).1 gameId := by
  cases o with
  | start | resolve | remove => exact h.elim
  | selectPlayer | selectRound | check => exact hserves
  | selectMatch id writes =>
    simp only [effect]
    split <;> exact hserves
  | flush writes =>
    simp only [effect]
    split <;> exact hserves
  | commit writes =>
    simp only [effect]
    split <;> exact hserves
  | score id finished =>
    obtain ⟨held,hheld,hactive⟩ := hserves
    simp only [effect,scored]
    split
    · exact ⟨held,hheld,hactive⟩
    · next held' hheld' =>
      by_cases hid : id=gameId
      · subst hid
        rw [hheld] at hheld'
        cases hheld'
        refine ⟨_,Function.update_self _ _ _,?_⟩
        dsimp only
        rw [hactive,ite_self]
      · exact ⟨held,(hold_other hid _ _).trans hheld,hactive⟩

end Operations

section Requests

variable {gameId : UUID}

/-- The operation of get_current_player. -/
theorem getCurrentPlayer_all {allowed : ServiceOp → Prop} {playerId : UUID}
    (h : allowed (.selectPlayer playerId)) : (getCurrentPlayer playerId).All allowed := by
  refine Prog.All.bind (Prog.All.perform h) fun player => ?_
  cases player <;> exact True.intro

/-- The operation of _get_current_round_db. -/
theorem getCurrentRoundDb_all {allowed : ServiceOp → Prop} {gameId : UUID} {roundNumber : ℤ}
    (h : allowed (.selectRound gameId roundNumber)) :
    (getCurrentRoundDb gameId roundNumber).All allowed := by
  refine Prog.All.bind (Prog.All.perform h) fun rows => ?_
  rcases rows with _ | ⟨row,_ | ⟨row',rows⟩⟩ <;> exact True.intro

/-- A request about another game leaves this one. -/
theorem serve_other {request : Request} (h : target request≠gameId) (outcomes : List Outcome)
    (service : Service) :
    (serve request outcomes service).1.games gameId=service.games gameId := by
  refine alone_spares ?_ outcomes service
  cases request with
  | createAiGame id roundId playerId difficulty =>
    refine Prog.All.bind (getCurrentPlayer_all True.intro) fun player => ?_
    refine Prog.All.bind ?_ fun writes => Prog.All.perform True.intro
    refine Prog.All.bind (Prog.All.perform True.intro) fun _ => ?_
    exact Prog.All.bind (Prog.All.perform h) fun _ => True.intro
  | submitAction submit =>
    rw [handler_eq]
    refine Prog.All.bind (getCurrentPlayer_all True.intro) fun player => ?_
    refine Prog.All.bind (Prog.All.perform True.intro) fun found => ?_
    refine Prog.All.bind (getCurrentRoundDb_all True.intro) fun roundDb => ?_
    refine Prog.All.bind (Prog.All.perform h) fun report => ?_
    rw [afterTurn_eq]
    refine Prog.All.bind ?_ fun writes => Prog.All.perform True.intro
    exact beforeCommit_all submit player roundDb report (fun _ => True.intro) True.intro
      (fun _ => True.intro) h fun _ => h

end Requests

section Submissions

variable {submit : Submit} {outcomes : List Outcome} {service : Service}

/-- The request plays a turn. -/
structure TurnPlayed (submit : Submit) (outcomes : List Outcome) (service : Service)
    (held : Held) (state' : GameState) (report : TurnReport) : Prop where
  /-- The game is there. -/
  inMemory : service.games submit.gameId=some held
  /-- It is served. -/
  active : held.active=true
  /-- It goes on. -/
  inProgress : held.state.status=.inProgress
  /-- The player's action and the one that the AI chooses are what the engine resolves. -/
  turn : ∃ roundNumber aiAction,checked service submit=.ok (roundNumber,aiAction) ∧
    submitTurn held.state submit.action aiAction=(state',.ok report) ∧
    Accepted held.state submit.action aiAction state' report
  /-- The rest of the request. -/
  goesOn : ∃ player roundDb rest,serve (.submitAction submit) outcomes service=
    alone (afterTurn submit player roundDb report) rest
      (service.hold submit.gameId {held with
        state := state',active := if report.roundResult.isNone then true else held.active})

/-- The request is turned down and has done nothing. -/
def TurnedDown {α : Type} (service : Service) (served : Service×Except Exc α) : Prop :=
  served.1=service ∧ ∃ exc,served.2=.error exc

/-- An operation goes through, or it raises. -/
theorem alone_perform_cases {α : Type} {o : ServiceOp} (f : o.Res → Coroutine α)
    (outcomes : List Outcome) (service : Service) :
    (∃ res,(turnsOut (outcomes.headD .proceeds) o service).2=.ok res ∧
      alone (perform o >>= f) outcomes service=
        alone (f res) outcomes.tail (turnsOut (outcomes.headD .proceeds) o service).1) ∨
    ∃ exc,(turnsOut (outcomes.headD .proceeds) o service).2=.error exc ∧
      alone (perform o >>= f) outcomes service=
        ((turnsOut (outcomes.headD .proceeds) o service).1,.error exc) := by
  rw [alone_perform]
  cases (turnsOut (outcomes.headD .proceeds) o service).2 with
  | ok res => exact .inl ⟨res,rfl,rfl⟩
  | error exc => exact .inr ⟨exc,rfl,rfl⟩

/-- A query that changes nothing goes through, or the request is turned down. -/
theorem alone_idle_cases {α : Type} {o : ServiceOp} (hidle : ∀ service,(effect service o).1=service)
    (f : o.Res → Coroutine α) (outcomes : List Outcome) (service : Service) :
    (∃ res,alone (perform o >>= f) outcomes service=alone (f res) outcomes.tail service ∧
      (o.queries=false → (effect service o).2=.ok res)) ∨
    TurnedDown service (alone (perform o >>= f) outcomes service) := by
  have hsame : (turnsOut (outcomes.headD .proceeds) o service).1=service :=
    turnsOut_idle service hidle
  obtain ⟨res,hres,heq⟩ | ⟨exc,-,heq⟩ := alone_perform_cases f outcomes service
  · rw [hsame] at heq
    refine .inl ⟨res,heq,fun hplain => ?_⟩
    rwa [turnsOut_plain service hplain] at hres
  · rw [hsame] at heq
    refine .inr ?_
    rw [heq]
    exact ⟨rfl,exc,rfl⟩

/-- get_current_player finds a player, or the request is turned down. -/
theorem getCurrentPlayer_cases {α : Type} (playerId : UUID) (f : Stats → Coroutine α)
    (outcomes : List Outcome) (service : Service) :
    (∃ player rest,alone (getCurrentPlayer playerId >>= f) outcomes service=
      alone (f player) rest service) ∨
    TurnedDown service (alone (getCurrentPlayer playerId >>= f) outcomes service) := by
  rw [getCurrentPlayer,Prog.bind_assoc]
  obtain ⟨found,heq,-⟩ | hdown :=
    @alone_idle_cases α (.selectPlayer playerId) (fun _ => rfl) _ outcomes service
  · rw [heq]
    cases found with
    | none => exact .inr ⟨rfl,_,rfl⟩
    | some player => exact .inl ⟨player,_,rfl⟩
  · exact .inr hdown

/-- _get_current_round_db finds a row, or the request is turned down. -/
theorem getCurrentRoundDb_cases {α : Type} (gameId : UUID) (roundNumber : ℤ)
    (f : RoundRow → Coroutine α) (outcomes : List Outcome) (service : Service) :
    (∃ row rest,alone (getCurrentRoundDb gameId roundNumber >>= f) outcomes service=
      alone (f row) rest service) ∨
    TurnedDown service (alone (getCurrentRoundDb gameId roundNumber >>= f) outcomes service) := by
  rw [getCurrentRoundDb,Prog.bind_assoc]
  obtain ⟨found,heq,-⟩ | hdown :=
    @alone_idle_cases α (.selectRound gameId roundNumber) (fun _ => rfl) _ outcomes service
  · rw [heq]
    rcases found with _ | ⟨row,_ | ⟨row',rows⟩⟩
    · exact .inr ⟨rfl,_,rfl⟩
    · exact .inl ⟨row,_,rfl⟩
    · exact .inr ⟨rfl,_,rfl⟩
  · exact .inr hdown

/-- A submission plays a turn, or it is turned down. -/
theorem served_cases (submit : Submit) (outcomes : List Outcome) (service : Service) :
    (∃ held state' report,TurnPlayed submit outcomes service held state' report) ∨
      TurnedDown service (serve (.submitAction submit) outcomes service) := by
  have hserve : serve (.submitAction submit) outcomes service=_ :=
    congrArg (fun p => alone p outcomes service) (handler_eq submit)
  obtain ⟨player,rest,heq⟩ | hdown := getCurrentPlayer_cases submit.playerId _ outcomes service
  · rw [heq] at hserve
    obtain ⟨⟨roundNumber,aiAction⟩,heq,hfound⟩ | hdown :=
      @alone_idle_cases _ (.check submit) (fun _ => rfl) _ rest service
    · have hchecked : checked service submit=.ok (roundNumber,aiAction) := hfound rfl
      rw [heq] at hserve
      obtain ⟨row,rest',heq⟩ | hdown :=
        getCurrentRoundDb_cases submit.gameId roundNumber _ rest.tail service
      · rw [heq,alone_perform,turnsOut_plain service rfl] at hserve
        obtain ⟨held,difficulty,round,hheld,hactive,hstatus,-,-,-,-,-⟩ := checked_ok hchecked
        simp only [effect,resolved,hheld] at hserve
        obtain ⟨e,hturn,-⟩ | ⟨-,-,state',report,-,-,hturn,haccepted⟩ :=
          submitTurn_cases held.state submit.action aiAction
        · simp only [hturn] at hserve
          refine .inr ⟨?_,_,congrArg Prod.snd hserve⟩
          rw [hserve]
          exact hold_self hheld
        · simp only [hturn] at hserve
          exact .inl ⟨held,state',report,hheld,hactive,hstatus,
            ⟨roundNumber,aiAction,hchecked,hturn,haccepted⟩,player,row,_,hserve⟩
      · exact .inr (hserve ▸ hdown)
    · exact .inr (hserve ▸ hdown)
  · exact .inr (hserve ▸ hdown)

/-- After a turn the game is in the state that the turn leads to, and it is served if the match
goes on. -/
theorem TurnPlayed.after {held : Held} {state' : GameState} {report : TurnReport}
    (h : TurnPlayed submit outcomes service held state' report) :
    ∃ held',(serve (.submitAction submit) outcomes service).1.games submit.gameId=some held' ∧
      held'.state=state' ∧ (state'.status=.inProgress → held'.active=true) := by
  obtain ⟨player,roundDb,rest,heq⟩ := h.goesOn
  obtain ⟨roundNumber,aiAction,-,-,haccepted⟩ := h.turn
  have hview := alone_view lasting_state (afterTurn_keeps submit player roundDb report) rest
    (service.hold submit.gameId {held with
      state := state',active := if report.roundResult.isNone then true else held.active})
    submit.gameId
  rw [←heq] at hview
  simp only [Service.hold,Function.update_self,Option.map_some] at hview
  obtain ⟨held',hheld',hstate⟩ := Option.map_eq_some_iff.mp hview
  refine ⟨held',hheld',hstate,fun hstatus => ?_⟩
  have hgoesOn : report.matchResult=none := by
    rw [←Option.not_isSome_iff_eq_none,haccepted.closes_iff h.inProgress]
    exact not_not.mpr hstatus
  have hall : (afterTurn submit player roundDb report).All GoesOn := by
    rw [afterTurn_eq]
    refine Prog.All.bind ?_ fun writes => Prog.All.perform True.intro
    refine beforeCommit_all submit player roundDb report (fun _ => True.intro) True.intro
      (fun _ => True.intro) True.intro fun hsome => ?_
    rw [hgoesOn] at hsome
    cases hsome
  have hserves : Serves (service.hold submit.gameId {held with
      state := state',active := if report.roundResult.isNone then true else held.active})
      submit.gameId := by
    refine ⟨_,Function.update_self _ _ _,?_⟩
    dsimp only
    rw [h.active,ite_self]
  have hafter := @alone_keeps _ (fun service => Serves service submit.gameId) _
    (Prog.All.mono (fun o ho service hserves => effect_serves ho hserves) hall) rest _ hserves
  rw [←heq] at hafter
  obtain ⟨held'',hheld'',hactive⟩ := hafter
  cases hheld'.symm.trans hheld''
  exact hactive

/-- The answer tells the turn that has been played. -/
theorem TurnPlayed.returned {held : Held} {state' : GameState} {report : TurnReport}
    (h : TurnPlayed submit outcomes service held state' report) :
    returned service submit=some (state',report) := by
  obtain ⟨roundNumber,aiAction,hchecked,hturn,-⟩ := h.turn
  unfold AiClient.returned
  rw [h.inMemory,hchecked]
  change (submitTurn held.state submit.action aiAction).2.toOption.bind _=_
  rw [hturn]
  rfl

/-- The turn is a call of the engine. -/
theorem TurnPlayed.play {held : Held} {state' : GameState} {report : TurnReport}
    (h : TurnPlayed submit outcomes service held state' report) :
    ∃ call,state'=play held.state [call] := by
  obtain ⟨roundNumber,aiAction,-,hturn,-⟩ := h.turn
  refine ⟨(submit.action,aiAction),?_⟩
  simp only [EngineRuns.play,hturn]

end Submissions

section Games

variable {gameId : UUID} {service : Service}

/-- A game that has been created is in memory, and is served. -/
theorem serve_created {roundId playerId : UUID} {difficulty : Difficulty} {outcomes : List Outcome}
    (hok : (serve (.createAiGame gameId roundId playerId difficulty) outcomes service).2=.ok ()) :
    (serve (.createAiGame gameId roundId playerId difficulty) outcomes service).1.games gameId=
      some ⟨newGame gameId difficulty,true,playerId⟩ := by
  have hflush : ∀ writes service,(effect service (.flush writes)).1=service := by
    intro writes service
    simp only [effect]
    split <;> rfl
  have hserve : serve (.createAiGame gameId roundId playerId difficulty) outcomes service=
      alone (getCurrentPlayer playerId >>= fun _ =>
        createAiGame gameId roundId playerId difficulty >>= fun writes =>
        perform (.commit writes)) outcomes service := rfl
  obtain ⟨player,rest,heq⟩ | ⟨-,exc,hexc⟩ := getCurrentPlayer_cases playerId _ outcomes service
  · rw [heq,GameService.createAiGame] at hserve
    simp only [Prog.bind_assoc] at hserve
    obtain ⟨found,heq,-⟩ | ⟨-,exc,hexc⟩ := alone_idle_cases (hflush _) _ rest service
    · rw [heq,alone_perform,turnsOut_plain _ rfl] at hserve
      simp only [effect] at hserve
      obtain hsame | hcommitted := alone_commit_cases rest.tail.tail
        (service.hold gameId ⟨newGame gameId difficulty,true,playerId⟩) _
      · rw [hserve]
        exact (congrArg (fun service' => service'.games gameId) hsame).trans (Function.update_self _ _ _)
      · rw [hserve]
        exact (congrArg (fun service' => service'.games gameId) hcommitted).trans
          (Function.update_self _ _ _)
    · rw [hserve,hexc] at hok
      cases hok
  · rw [hserve,hexc] at hok
    cases hok

/-- A match that goes on is served. -/
def Live (held : Held) : Prop := held.state.status=.inProgress → held.active=true

/-- Whatever is requested, a game only goes on, and stays served until its match is over. -/
theorem serve_later {held : Held} (hheld : service.games gameId=some held) (hlive : Live held)
    (request : Request) (hdrawn : drawn request≠some gameId) (outcomes : List Outcome) :
    ∃ held' calls,(serve request outcomes service).1.games gameId=some held' ∧ Live held' ∧
      held'.state=play held.state calls := by
  by_cases htarget : target request=gameId
  · cases request with
    | createAiGame id roundId playerId difficulty =>
      exact absurd (congrArg some htarget) hdrawn
    | submitAction submit =>
      subst htarget
      obtain ⟨held₁,state',report,hplayed⟩ | ⟨hsame,-⟩ := served_cases submit outcomes service
      · cases hplayed.inMemory.symm.trans hheld
        obtain ⟨held',hheld',hstate,hactive⟩ := hplayed.after
        obtain ⟨call,hcall⟩ := hplayed.play
        refine ⟨held',[call],hheld',?_,hstate.trans hcall⟩
        rw [←hstate] at hactive
        exact hactive
      · rw [hsame]
        exact ⟨held,[],hheld,hlive,rfl⟩
  · exact ⟨held,[],(serve_other htarget outcomes service).trans hheld,hlive,rfl⟩

end Games

end KiClash.ServedRequests

import KiClash.ServedRequests

/-!
# An AI match on the screen

A client and the server, the client's requests lost, cut or answered, the player picking
anything the page offers, and others requesting what they like, where the server ends each
request before it begins the next. What the client shows is a state that its match has been in,
and while no error is displayed it is the present one unless others have played in the match. A
client whose match has ended behind its back stays on the board for ever.
-/

namespace KiClash.AiMatchOnScreen

open EngineTypes OutcomeMatrix Engine EngineRuns GameService GameServiceRuns AiClient
  ServedRequests

section Engine

/-- An accepted turn keeps the identity of the match. -/
theorem accepted_same {state state' : GameState} {p1Action p2Action : Action}
    {report : TurnReport} (h : Accepted state p1Action p2Action state' report) :
    state'.gameId=state.gameId ∧ state'.matchType=state.matchType := by
  cases h with
  | roundGoesOn => exact ⟨rfl,rfl⟩
  | roundCloses => exact ⟨scoreRound_gameId _ _,scoreRound_matchType _ _⟩
  | matchCloses => exact ⟨scoreRound_gameId _ _,scoreRound_matchType _ _⟩

/-- So do any calls. -/
theorem play_same (state : GameState) (calls : List (Action×Action)) :
    (play state calls).gameId=state.gameId ∧ (play state calls).matchType=state.matchType := by
  induction calls generalizing state with
  | nil => exact ⟨rfl,rfl⟩
  | cons call calls ih =>
    have hrest := ih (submitTurn state call.1 call.2).1
    obtain ⟨e,he,-⟩ | ⟨-,round,state',report,-,-,he,haccepted⟩ :=
      submitTurn_cases state call.1 call.2
    · rw [he] at hrest
      simpa only [play,he] using hrest
    · rw [he] at hrest
      obtain ⟨hid,htype⟩ := accepted_same haccepted
      simp only [play,he]
      exact ⟨hrest.1.trans hid,hrest.2.trans htype⟩

/-- A match that is over stays as it is. -/
theorem play_over {state : GameState} (h : state.status≠.inProgress)
    (calls : List (Action×Action)) : play state calls=state := by
  induction calls with
  | nil => rfl
  | cons call calls ih =>
    obtain ⟨e,he,-⟩ | ⟨hstatus,-⟩ := submitTurn_cases state call.1 call.2
    · simp only [play,he]
      exact ih
    · exact absurd hstatus h

end Engine

section Screens

/-- What the page shows of a state, beside the state itself: the cards, the last turn, the
round that has ended, or the end of the match. -/
inductive PageShows (hook : Hook) (shown : GameState) : Prop
  | cards (hphase : hook.phase=.playing) (hstatus : shown.status=.inProgress)
  | turn (round : RoundState) (turn : TurnResult) (hphase : hook.phase=.revealing)
      (hstatus : shown.status=.inProgress) (hround : shown.currentRound=some round)
      (hlast : round.turnHistory.getLast?=some turn)
      (hturn : hook.lastTurn=some (turnResultResponse turn))
  | round (result : RoundResult) (hphase : hook.phase=.roundEnd)
      (hstatus : shown.status=.inProgress) (hlast : shown.roundResults.getLast?=some result)
      (hround : hook.lastRound=some (roundResultResponse result))
  | result (result : MatchResult) (hphase : hook.phase=.matchEnd)
      (hstatus : shown.status≠.inProgress) (hends : checkMatchEnd shown=some result)
      (hresult : hook.matchResult=some (matchResultResponse result))

/-- The answer brings its state. -/
theorem answered_gameState (hook : Hook) (response : SubmitActionResponse) :
    (hook.answered response).gameState=some response.gameState := by
  unfold Hook.answered
  dsimp only
  split <;> rfl

/-- A turn that is answered is shown. -/
theorem pageShows_answered {state state' : GameState} {p1Action p2Action : Action}
    {report : TurnReport} (h : Accepted state p1Action p2Action state' report)
    (hstatus : state.status=.inProgress) (hook : Hook) :
    PageShows (hook.answered (submitActionResponse state' report)) state' := by
  cases h with
  | roundGoesOn round hround hnext =>
    exact .turn (nextRound round p1Action p2Action) (nextTurn round p1Action p2Action) rfl hstatus
      rfl List.getLast?_concat rfl
  | roundCloses round hround roundResult hover hgoesOn =>
    have hopen : (closedState state roundResult).status=.inProgress :=
      (scoreRound_status state roundResult.winner).trans hstatus
    exact .round roundResult rfl hopen List.getLast?_concat rfl
  | matchCloses round hround roundResult hover matchResult hends =>
    have hcompleted : MatchStatus.completed≠MatchStatus.inProgress := by decide
    exact .result matchResult rfl hcompleted hends rfl

/-- What the client shows is a state of its match, from which the match has gone on by these
calls. -/
structure Follows (table : Table) (gameId : UUID) (shown : GameState) (held : Held)
    (calls : List (Action×Action)) : Prop where
  /-- The match has been in that state. -/
  played : ∃ difficulty earlier,shown=play (newGame gameId difficulty) earlier
  /-- The client shows it. -/
  onScreen : table.hook.gameState=some (gameStateResponse shown)
  /-- The page shows what belongs to it. -/
  page : PageShows table.hook shown
  /-- The server has the match. -/
  inMemory : table.service.games gameId=some held
  /-- It serves it until it is over. -/
  live : Live held
  /-- The match has gone on. -/
  goesOn : held.state=play shown calls

variable {wording : Wording} {table table' : Table} {gameId : UUID} {shown : GameState}
  {held : Held} {calls : List (Action×Action)}

/-- The state is one of this match. -/
theorem Follows.gameId_eq (h : Follows table gameId shown held calls) : shown.gameId=gameId := by
  obtain ⟨difficulty,earlier,rfl⟩ := h.played
  exact (play_same _ _).1

/-- The card of an action is enabled while the page shows the cards and the player's ki
suffices. -/
theorem cardEnabled_playing {hook : Hook} (hphase : hook.phase=.playing)
    (hshown : hook.gameState=some (gameStateResponse shown)) (action : Action) :
    hook.cardEnabled action=
      validateAction action ((shown.currentRound.map RoundState.p1Ki).getD 0) := by
  unfold Hook.cardEnabled validateAction
  rw [hphase,hshown]
  simp only [gameStateResponse,Option.map_map,PvPClient.cardCost_eq]
  rfl

/-- While the present state is shown, the enabled cards are the actions that the server takes,
unless the AI fails to choose one. -/
theorem Follows.cards (h : Follows table gameId shown held calls)
    (hphase : table.hook.phase=.playing) (hpresent : held.state=shown) {submit : Submit}
    (hgame : submit.gameId=gameId) :
    table.hook.cardEnabled submit.action=true ↔
      (∃ found,checked table.service submit=.ok found) ∨
        checked table.service submit=.error .aiError := by
  obtain ⟨difficulty,earlier,hplayed⟩ := h.played
  have hinvariant := play_invariant (startMatch_invariant gameId difficulty.matchType) earlier
  change MatchInvariant (play (newGame gameId difficulty) earlier) _ at hinvariant
  rw [←hplayed] at hinvariant
  have hstatus : shown.status=.inProgress := by
    cases h.page with
    | cards _ hstatus => exact hstatus
    | turn _ _ hother | round _ hother | result _ hother =>
      cases hphase.symm.trans hother
  obtain ⟨round,hround⟩ := Option.isSome_iff_exists.mp (hinvariant.openIff.mp hstatus)
  have htype : difficultyOf shown.matchType=some difficulty := by
    rw [hplayed,(play_same _ _).2]
    cases difficulty <;> rfl
  have hactive : held.active=true := h.live (hpresent ▸ hstatus)
  have hheld : (table.service.games submit.gameId).filter Held.active=some held := by
    rw [hgame,h.inMemory,Option.filter_eq_some_iff]
    exact ⟨rfl,hactive⟩
  rw [cardEnabled_playing hphase h.onScreen,hround,Option.map_some,Option.getD_some]
  unfold checked
  rw [hheld]
  dsimp only
  rw [hpresent,if_neg (not_not.mpr hstatus),htype]
  dsimp only
  rw [hround]
  dsimp only
  cases hvalid : validateAction submit.action round.p1Ki with
  | false => simp
  | true => cases submit.choose difficulty shown <;> simp

end Screens

section Steps

/-- Everything a move can do. -/
inductive Steps (wording : Wording) (table : Table) : Move → Table → Prop
  | idle (move : Move) : Steps wording table move table
  | selectDifficulty (difficulty : Difficulty) (hphase : table.hook.phase=.lobby) :
    Steps wording table (.selectDifficulty difficulty)
      ⟨table.hook.selectDifficulty difficulty,table.service⟩
  | startGame (characterId aiCharacterId : String)
      (auth : Except (Option String) (Option String)) (gameId roundId playerId : UUID)
      (delivery : Delivery) (hphase : table.hook.phase=.characterSelect) :
    Steps wording table
      (.startGame characterId aiCharacterId auth gameId roundId playerId delivery)
      (table.startGame wording characterId aiCharacterId auth gameId roundId playerId delivery)
  | playAction (action : Action) (playerId roundId : UUID)
      (choose : Difficulty → GameState → Option Action) (delivery : Delivery)
      (hphase : table.hook.phase=.playing) :
    Steps wording table (.playAction action playerId roundId choose delivery)
      (table.playAction wording action playerId roundId choose delivery)
  | continueFromReveal (hphase : table.hook.phase=.revealing) :
    Steps wording table .continueFromReveal ⟨table.hook.continueFromReveal,table.service⟩
  | continueFromRound (hphase : table.hook.phase=.roundEnd) :
    Steps wording table .continueFromRound ⟨table.hook.continueFromRound,table.service⟩
  | backToLobby (hphase : table.hook.phase=.matchEnd) :
    Steps wording table .backToLobby ⟨table.hook.backToLobby,table.service⟩
  | other (request : Request) (outcomes : List Outcome)
      (hdrawn : ∀ gameId,table.gameId=some gameId → drawn request≠some gameId) :
    Steps wording table (.other request outcomes)
      ⟨table.hook,(serve request outcomes table.service).1⟩

/-- A request of others does not draw the identifier of the game on the screen. -/
theorem steps_other (wording : Wording) (table : Table) (request : Request)
    (outcomes : List Outcome) :
    Steps wording table (.other request outcomes)
      (if (drawn request).isSome && drawn request=table.gameId then table
        else ⟨table.hook,(serve request outcomes table.service).1⟩) := by
  split
  · exact .idle _
  · next hfresh =>
    refine .other request outcomes fun gameId hgame hdrawn => hfresh ?_
    rw [hgame,hdrawn]
    simp

/-- A move does one of these. -/
theorem step_steps (wording : Wording) (table : Table) (move : Move) :
    Steps wording table move (table.step wording move) := by
  unfold Table.step
  split
  · next hphase => exact .selectDifficulty _ hphase
  · next hphase => exact .startGame _ _ _ _ _ _ _ hphase
  · next hphase =>
    split
    · exact .playAction _ _ _ _ _ hphase
    · exact .idle _
  · next hphase => exact .continueFromReveal hphase
  · next hphase => exact .continueFromRound hphase
  · next hphase => exact .backToLobby hphase
  · exact steps_other wording table _ _
  · exact .idle _

end Steps

section Runs

variable {wording : Wording} {table table' : Table} {move : Move} {gameId : UUID}
  {shown : GameState} {held : Held} {calls : List (Action×Action)}

/-- The client is in no match. -/
def Outside (hook : Hook) : Prop :=
  hook.gameState=none ∧ (hook.phase=.lobby ∨ hook.phase=.characterSelect)

/-- A match begins with its first state on the screen. -/
theorem follows_created {hook : Hook} {service : Service} {difficulty : Difficulty}
    {playerId : UUID} (hheld : service.games gameId=some ⟨newGame gameId difficulty,true,playerId⟩) :
    Follows ⟨hook.created (gameStateResponse (newGame gameId difficulty)),service⟩ gameId
      (newGame gameId difficulty) ⟨newGame gameId difficulty,true,playerId⟩ [] where
  played := ⟨difficulty,[],rfl⟩
  onScreen := rfl
  page := .cards rfl rfl
  inMemory := hheld
  live := fun _ => rfl
  goesOn := rfl

/-- startGame ends in the lobby again, or at the beginning of a match. -/
theorem startGame_cases (hnone : table.hook.gameState=none) (characterId aiCharacterId : String)
    (auth : Except (Option String) (Option String)) (gameId roundId playerId : UUID)
    (delivery : Delivery) :
    let table' :=
      table.startGame wording characterId aiCharacterId auth gameId roundId playerId delivery
    Outside table'.hook ∨ ∃ shown held,Follows table' gameId shown held [] := by
  cases auth with
  | error message => exact .inl ⟨hnone,.inl rfl⟩
  | ok displayName =>
    cases delivery with
    | lost message => exact .inl ⟨hnone,.inl rfl⟩
    | cut outcomes message => exact .inl ⟨hnone,.inl rfl⟩
    | answered outcomes =>
      simp only [Table.startGame,AiClient.createAiGame]
      cases hserved : (serve (.createAiGame gameId roundId playerId
        ((table.hook.starts characterId aiCharacterId).authorized displayName).difficulty) outcomes
          table.service).2 with
      | error exc => exact .inl ⟨hnone,.inl rfl⟩
      | ok => exact .inr ⟨_,_,follows_created (serve_created hserved)⟩

/-- What can happen to a client that is in no match. -/
theorem Steps.outside (hstep : Steps wording table move table') (h : Outside table.hook) :
    Outside table'.hook ∨ ∃ gameId shown held,Follows table' gameId shown held [] := by
  obtain ⟨hnone,hphase⟩ := h
  cases hstep with
  | idle => exact .inl ⟨hnone,hphase⟩
  | selectDifficulty difficulty => exact .inl ⟨hnone,.inr rfl⟩
  | startGame characterId aiCharacterId auth gameId roundId playerId delivery =>
    obtain hout | hbegun := @startGame_cases wording table hnone characterId aiCharacterId auth gameId
      roundId playerId delivery
    · exact .inl hout
    · exact .inr ⟨gameId,hbegun⟩
  | playAction _ _ _ _ _ hother | continueFromReveal hother | continueFromRound hother
  | backToLobby hother =>
    rw [hother] at hphase
    simp at hphase
  | other request outcomes => exact .inl ⟨hnone,hphase⟩

/-- A submission that fails leaves the client where it is, whatever the match does. -/
theorem Follows.fails (h : Follows table gameId shown held calls)
    (hstatus : shown.status=.inProgress) {service' : Service} {held' : Held}
    {calls' : List (Action×Action)} (hheld : service'.games gameId=some held') (hlive : Live held')
    (hlater : held'.state=play held.state calls') (message : Option String) :
    Follows ⟨table.hook.submits.submitFailed message,service'⟩ gameId shown held'
      (calls++calls') where
  played := h.played
  onScreen := h.onScreen
  page := .cards rfl hstatus
  inMemory := hheld
  live := hlive
  goesOn := by rw [RoundSimulation.play_append,←h.goesOn,hlater]

/-- What a submission comes to: it fails and the client stays where it is, or the client shows
the present state. -/
theorem Follows.playAction (h : Follows table gameId shown held calls)
    (hstatus : shown.status=.inProgress) (action : Action) (playerId roundId : UUID)
    (choose : Difficulty → GameState → Option Action) (delivery : Delivery) :
    ∃ shown' held' calls',
      let table' := table.playAction wording action playerId roundId choose delivery
      Follows table' gameId shown' held' calls' ∧ (table'.hook.error=none → calls'=[]) := by
  have hgame : (gameStateResponse shown).gameId=gameId := h.gameId_eq
  have hlater : ∀ submit outcomes,∃ held' calls',
      (serve (.submitAction submit) outcomes table.service).1.games gameId=some held' ∧
        Live held' ∧ held'.state=play held.state calls' :=
    fun submit outcomes => serve_later h.inMemory h.live _ (by simp [drawn]) outcomes
  unfold Table.playAction
  rw [h.onScreen]
  dsimp only
  rw [hgame]
  cases delivery with
  | lost message =>
    have hidle : held.state=play held.state [] := rfl
    exact ⟨_,_,_,h.fails hstatus h.inMemory h.live hidle message,fun hnone => by cases hnone⟩
  | cut outcomes message =>
    obtain ⟨held',calls',hheld',hlive',hstate'⟩ :=
      hlater ⟨gameId,playerId,action,choose,roundId⟩ outcomes
    exact ⟨_,_,_,h.fails hstatus hheld' hlive' hstate' message,fun hnone => by cases hnone⟩
  | answered outcomes =>
    obtain ⟨held',calls',hheld',hlive',hstate'⟩ :=
      hlater ⟨gameId,playerId,action,choose,roundId⟩ outcomes
    dsimp only [AiClient.submitAction]
    cases hserved : (serve (.submitAction
      ⟨gameId,playerId,action,choose,roundId⟩) outcomes table.service).2 with
    | error exc =>
      exact ⟨_,_,_,h.fails hstatus hheld' hlive' hstate' (some (wording exc)),
        fun hnone => by cases hnone⟩
    | ok served =>
      cases served
      obtain ⟨held₁,state',report,hplayed⟩ | ⟨-,exc,hexc⟩ := served_cases
        ⟨gameId,playerId,action,choose,roundId⟩ outcomes table.service
      · rw [hplayed.returned]
        obtain ⟨held₂,hheld₂,hstate₂,-⟩ := hplayed.after
        obtain ⟨roundNumber,aiAction,-,hturn,haccepted⟩ := hplayed.turn
        cases h.inMemory.symm.trans hplayed.inMemory
        cases hheld'.symm.trans hheld₂
        obtain ⟨call,hcall⟩ := hplayed.play
        obtain ⟨difficulty,earlier,hearlier⟩ := h.played
        refine ⟨state',held',[],⟨⟨difficulty,earlier++calls++[call],?_⟩,answered_gameState _ _,?_,
          hheld',hlive',hstate₂⟩,fun _ => rfl⟩
        · rw [RoundSimulation.play_append,RoundSimulation.play_append,←hearlier,←h.goesOn,hcall]
        · exact pageShows_answered haccepted hplayed.inProgress _
      · cases hexc.symm.trans hserved

/-- A request of others leaves what is on the screen. -/
theorem Follows.other (h : Follows table gameId shown held calls) {service' : Service}
    {held' : Held} {calls' : List (Action×Action)} (hheld : service'.games gameId=some held')
    (hlive : Live held') (hlater : held'.state=play held.state calls') :
    Follows ⟨table.hook,service'⟩ gameId shown held' (calls++calls') where
  played := h.played
  onScreen := h.onScreen
  page := h.page
  inMemory := hheld
  live := hlive
  goesOn := by rw [RoundSimulation.play_append,←h.goesOn,hlater]

/-- A move ends the match on the screen, or the client goes on following it. While no error is
displayed, what it shows stays the present state, unless the move is somebody else's in this
match. -/
theorem Follows.steps (h : Follows table gameId shown held calls)
    (hstep : Steps wording table move table') :
    Outside table'.hook ∨ ∃ shown' held' calls',Follows table' gameId shown' held' calls' ∧
      ((∀ request outcomes,move=.other request outcomes → target request≠gameId) →
        (table.hook.error=none → calls=[]) → table'.hook.error=none → calls'=[]) := by
  cases hstep with
  | idle => exact .inr ⟨_,_,_,h,fun _ hpresent => hpresent⟩
  | selectDifficulty _ hphase =>
    cases h.page with
    | cards hother | turn _ _ hother | round _ hother | result _ hother =>
      cases hphase.symm.trans hother
  | startGame _ _ _ _ _ _ _ hphase =>
    cases h.page with
    | cards hother | turn _ _ hother | round _ hother | result _ hother =>
      cases hphase.symm.trans hother
  | playAction action playerId roundId choose delivery hphase =>
    cases h.page with
    | cards _ hstatus =>
      obtain ⟨shown',held',calls',hfollows,hnow⟩ :=
        h.playAction hstatus action playerId roundId choose delivery
      exact .inr ⟨shown',held',calls',hfollows,fun _ _ => hnow⟩
    | turn _ _ hother | round _ hother | result _ hother => cases hphase.symm.trans hother
  | continueFromReveal hphase =>
    cases h.page with
    | turn _ _ _ hstatus =>
      exact .inr ⟨_,_,_,⟨h.played,h.onScreen,.cards rfl hstatus,h.inMemory,h.live,h.goesOn⟩,
        fun _ hpresent => hpresent⟩
    | cards hother | round _ hother | result _ hother => cases hphase.symm.trans hother
  | continueFromRound hphase =>
    cases h.page with
    | round _ _ hstatus =>
      exact .inr ⟨_,_,_,⟨h.played,h.onScreen,.cards rfl hstatus,h.inMemory,h.live,h.goesOn⟩,
        fun _ hpresent => hpresent⟩
    | cards hother | turn _ _ hother | result _ hother => cases hphase.symm.trans hother
  | backToLobby => exact .inl ⟨rfl,.inl rfl⟩
  | other request outcomes hdrawn =>
    have hshown : table.gameId=some gameId := by
      rw [Table.gameId,h.onScreen,Option.map_some]
      exact congrArg some h.gameId_eq
    by_cases htarget : target request=gameId
    · obtain ⟨held',calls',hheld',hlive',hstate'⟩ :=
        serve_later h.inMemory h.live request (hdrawn gameId hshown) outcomes
      exact .inr ⟨_,_,_,h.other hheld' hlive' hstate',
        fun hother => absurd htarget (hother request outcomes rfl)⟩
    · have hsame := (serve_other htarget outcomes table.service).trans h.inMemory
      have hidle : held.state=play held.state [] := rfl
      refine .inr ⟨_,_,_,h.other hsame h.live hidle,fun _ hpresent hnone => ?_⟩
      rw [hpresent hnone]
      rfl

/-- After any moves the client is in no match, or it follows one. -/
theorem run_follows (wording : Wording) (service : Service) (moves : List Move) :
    let table := Table.run wording ⟨Hook.mounted,service⟩ moves
    Outside table.hook ∨ ∃ gameId shown held calls,Follows table gameId shown held calls ∧
      ((∀ request outcomes,Move.other request outcomes∈moves → target request≠gameId) →
        table.hook.error=none → calls=[]) := by
  induction moves using List.reverseRecOn with
  | nil => exact .inl ⟨rfl,.inl rfl⟩
  | append_singleton moves move ih =>
    rw [Table.run,List.foldl_append]
    have hstep := step_steps wording (Table.run wording ⟨Hook.mounted,service⟩ moves) move
    obtain hout | ⟨gameId,shown,held,calls,hfollows,hpresent⟩ := ih
    · obtain hout' | ⟨gameId,shown,held,hfollows⟩ := hstep.outside hout
      · exact .inl hout'
      · exact .inr ⟨gameId,shown,held,[],hfollows,fun _ _ => rfl⟩
    · obtain hout | ⟨shown',held',calls',hfollows',hnext⟩ := hfollows.steps hstep
      · exact .inl hout
      · refine .inr ⟨gameId,shown',held',calls',hfollows',fun hothers => ?_⟩
        have hearlier := hpresent fun request outcomes hmem =>
          hothers request outcomes (List.mem_append_left _ hmem)
        refine hnext (fun request outcomes hmove => ?_) hearlier
        exact hothers request outcomes (by simp [hmove])

end Runs

section Stranded

variable {wording : Wording} {table table' : Table} {move : Move} {response : GameStateResponse}

/-- The match is over, but the page still shows its cards. -/
def Stranded (table : Table) (response : GameStateResponse) : Prop :=
  table.hook.phase=.playing ∧ table.hook.gameState=some response ∧
    ∃ held,table.service.games response.gameId=some held ∧ held.state.status≠.inProgress

/-- A submission to a match that is over is turned down. -/
theorem turnedDown_over {service : Service} {submit : Submit} {held : Held}
    (hheld : service.games submit.gameId=some held) (hover : held.state.status≠.inProgress)
    (outcomes : List Outcome) :
    TurnedDown service (serve (.submitAction submit) outcomes service) := by
  obtain ⟨held',state',report,hplayed⟩ | hdown := served_cases submit outcomes service
  · cases hplayed.inMemory.symm.trans hheld
    exact absurd hplayed.inProgress hover
  · exact hdown

/-- No move leads out of it. -/
theorem Stranded.steps (h : Stranded table response) (hstep : Steps wording table move table') :
    Stranded table' response := by
  have hstranded := h
  obtain ⟨hphase,hshown,held,hheld,hover⟩ := h
  cases hstep with
  | idle => exact hstranded
  | selectDifficulty _ hother | startGame _ _ _ _ _ _ _ hother | continueFromReveal hother
  | continueFromRound hother | backToLobby hother => cases hphase.symm.trans hother
  | playAction action playerId roundId choose delivery =>
    have hdown : ∀ outcomes,TurnedDown table.service (serve (.submitAction
        ⟨response.gameId,playerId,action,choose,roundId⟩) outcomes table.service) :=
      fun outcomes => turnedDown_over hheld hover outcomes
    unfold Table.playAction
    rw [hshown]
    cases delivery with
    | lost message => exact ⟨rfl,hshown,held,hheld,hover⟩
    | cut outcomes message =>
      have hsame := (hdown outcomes).1
      dsimp only [AiClient.submitAction]
      rw [hsame]
      exact ⟨rfl,hshown,held,hheld,hover⟩
    | answered outcomes =>
      obtain ⟨hsame,exc,hexc⟩ := hdown outcomes
      dsimp only [AiClient.submitAction]
      rw [hsame,hexc]
      exact ⟨rfl,hshown,held,hheld,hover⟩
  | other request outcomes hdrawn =>
    have hgame : table.gameId=some response.gameId := by
      rw [Table.gameId,hshown,Option.map_some]
    obtain ⟨held',calls,hheld',-,hstate⟩ := serve_later hheld (fun hgoesOn => absurd hgoesOn hover)
      request (hdrawn response.gameId hgame) outcomes
    rw [play_over hover calls] at hstate
    exact ⟨hphase,hshown,held',hheld',hstate ▸ hover⟩

/-- So the client stays there. -/
theorem Stranded.run (h : Stranded table response) (moves : List Move) :
    Stranded (Table.run wording table moves) response := by
  induction moves generalizing table with
  | nil => exact h
  | cons move moves ih => exact ih (h.steps (step_steps wording table move))

end Stranded

section Main

/-- After any moves, with the requests served one after another, the client that shows a match
follows it: the state on its screen is one that the match has been in, with the cards, the turn,
the round or the result that belong to it, and it is the present one as long as no error is
displayed and nobody else has played in the match.
The cards of the present state are enabled exactly if the server takes their actions, up to
what the AI does. If the match has ended and the cards are still there, they stay there
whatever happens. -/
theorem screen_follows (wording : Wording) (service : Service) (moves : List Move)
    {response : GameStateResponse}
    (hshown : (Table.run wording ⟨Hook.mounted,service⟩ moves).hook.gameState=some response) :
    let table := Table.run wording ⟨Hook.mounted,service⟩ moves
    ∃ shown held calls,Follows table response.gameId shown held calls ∧
      ((∀ request outcomes,Move.other request outcomes∈moves → target request≠response.gameId) →
        table.hook.error=none → held.state=shown) ∧
      (table.hook.phase=.playing → held.state=shown → ∀ submit : Submit,
        submit.gameId=response.gameId →
        (table.hook.cardEnabled submit.action=true ↔
          (∃ found,checked table.service submit=.ok found) ∨
            checked table.service submit=.error .aiError)) ∧
      (table.hook.phase=.playing → held.state.status≠.inProgress → ∀ later,
        (Table.run wording table later).hook.phase=.playing ∧
          (Table.run wording table later).hook.gameState=some response) := by
  intro table
  obtain hout | ⟨gameId,shown,held,calls,hfollows,hpresent⟩ := run_follows wording service moves
  · cases hout.1.symm.trans hshown
  · have hresponse : gameStateResponse shown=response :=
      Option.some.inj (hfollows.onScreen.symm.trans hshown)
    have hgame : response.gameId=gameId := by
      rw [←hresponse]
      exact hfollows.gameId_eq
    rw [hgame]
    refine ⟨shown,held,calls,hfollows,fun hothers herror => ?_,fun hphase hnow submit hsubmit =>
      hfollows.cards hphase hnow hsubmit,fun hphase hover later => ?_⟩
    · have hstate := hfollows.goesOn
      rwa [hpresent hothers herror] at hstate
    · have hheld := hfollows.inMemory
      rw [←hgame] at hheld
      have hstranded : Stranded table response := ⟨hphase,hshown,held,hheld,hover⟩
      obtain ⟨hphase',hshown',-⟩ := hstranded.run later
      exact ⟨hphase',hshown'⟩

/-- Player 1 wins a match against an AI that only charges, but the answer to the last attack is
cut. -/
def lostResult : List Move :=
  let submits (action : Action) (delivery : Delivery) : Move :=
    .playAction action (.small 1) (.small 11) (fun _ _ => some .charge) delivery
  [.selectDifficulty .novice,
    .startGame "monk" "robot" (.ok none) (.small 9) (.small 10) (.small 1) (.answered []),
    submits .charge (.answered []),.continueFromReveal,submits .attack (.answered []),
    .continueFromRound,submits .charge (.answered []),.continueFromReveal,
    submits .attack (.cut [] (some "Failed to fetch"))]

/-- The server has completed the match, but he never gets to see the result. -/
theorem lost_result_stays :
    ((Table.run (fun _ => "API error") ⟨Hook.mounted,twoPlayers⟩ lostResult).service.games
      (.small 9)).map (fun held => held.state.status)=some .completed ∧
    ∀ later,(Table.run (fun _ => "API error")
      (Table.run (fun _ => "API error") ⟨Hook.mounted,twoPlayers⟩ lostResult) later).hook.phase=
        .playing := by
  have hphase : (Table.run (fun _ => "API error") ⟨Hook.mounted,twoPlayers⟩ lostResult).hook.phase=
      .playing := by decide
  have hsome : (Table.run (fun _ => "API error") ⟨Hook.mounted,twoPlayers⟩
      lostResult).hook.gameState.isSome=true := by decide
  have hgame : (Table.run (fun _ => "API error") ⟨Hook.mounted,twoPlayers⟩
      lostResult).hook.gameState.map GameStateResponse.gameId=some (.small 9) := by decide
  have hover : ((Table.run (fun _ => "API error") ⟨Hook.mounted,twoPlayers⟩
      lostResult).service.games (.small 9)).map (fun held => held.state.status)=
        some .completed := by decide
  refine ⟨hover,?_⟩
  obtain ⟨response,hshown⟩ := Option.isSome_iff_exists.mp hsome
  obtain ⟨shown,held,calls,hfollows,-,-,hstays⟩ :=
    screen_follows (fun _ => "API error") twoPlayers lostResult hshown
  rw [hshown] at hgame
  have hheld := hfollows.inMemory
  rw [Option.some.inj hgame] at hheld
  rw [hheld] at hover
  have hcompleted : held.state.status=.completed := Option.some.inj hover
  intro later
  exact (hstays hphase (by rw [hcompleted]; decide) later).1

end Main

end KiClash.AiMatchOnScreen

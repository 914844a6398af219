import KiClash.GameServiceRuns

/-!
# The match history

get_match_history of app/services/player_service.py tells the result of a match from its
row. The statistics are counted when the match ends, from the result of the engine. Along
any sequence of requests in which only their creators play the games of a player, the two
agree exactly if the AI has won none of his games: the row of such a game names no winner,
as that of a draw does.
-/

namespace KiClash.MatchHistory

open EngineTypes OutcomeMatrix Engine EngineRuns AsyncTasks GameService GameServiceRuns

section History

/-- The result that the history shows. -/
inductive Label
  | inProgress | win | draw | loss
  deriving DecidableEq, Repr

/-- The result of a match for a player. -/
def labelOf (playerId : UUID) (row : MatchRow) : Label :=
  if row.status≠.completed then .inProgress
  else if row.winnerId=some playerId then .win
  else if row.winnerId=none then .draw
  else .loss

/-- get_match_history: the player's matches, most recent first. The other player of these
matches is an AI, which has no identifier. -/
def getMatchHistory (db : Database) (playerId : UUID) (limit : ℕ) : List (MatchRow×Label) :=
  ((db.matchRows.filter fun row => row.player1Id=playerId).reverse.take limit).map fun row =>
    (row,labelOf playerId row)

/-- The entries with this label. -/
def labelled (label : Label) (history : List (MatchRow×Label)) : ℕ :=
  history.countP fun entry => entry.2=label

/-- Some players have registered, and nobody has played yet. -/
def registered (players : UUID → Option Stats) : Service := ⟨fun _ => none,⟨[],[],[],players⟩⟩

/-- The history of a player agrees with what has been added to his statistics. -/
structure Agreement (stats : Stats) (service : Service) (playerId : UUID) (limit : ℕ) : Prop where
  /-- Matches won. -/
  wins : ∃ stats',service.db.players playerId=some stats' ∧
    stats'.wins-stats.wins=labelled .win (getMatchHistory service.db playerId limit)
  /-- Matches lost. -/
  losses : ∃ stats',service.db.players playerId=some stats' ∧
    stats'.losses-stats.losses=labelled .loss (getMatchHistory service.db playerId limit)
  /-- Drawn matches. -/
  draws : ∃ stats',service.db.players playerId=some stats' ∧
    stats'.draws-stats.draws=labelled .draw (getMatchHistory service.db playerId limit)

/-- Who has won so many rounds. -/
def winnerOf (state : GameState) : RoundWinner :=
  if state.roundsWonP1≥roundsToWin then .p1
  else if state.roundsWonP2≥roundsToWin then .p2
  else .draw

/-- The AI has won none of the player's matches that are over. -/
def Unbeaten (service : Service) (playerId : UUID) : Prop :=
  ∀ row∈service.db.matchRows,row.player1Id=playerId → row.status=.completed →
    ∀ held,service.games row.id=some held → winnerOf held.state≠.p2

/-- What is known of a game: its state and its creator. -/
def known (service : Service) (gameId : UUID) : Option (GameState×UUID) :=
  (service.games gameId).map fun held => (held.state,held.creator)

end History

section Requests

variable {submit : Submit} {player : Stats} {roundDb : RoundRow} {report : TurnReport}

/-- A write that neither ends a match nor counts it. -/
def Minor : Write → Prop
  | .insertTurn _ | .updateRound _ _ _ | .updateScore _ _ _ | .insertRound _ => True
  | _ => False

/-- The writes that end a match. -/
def endingWrites (submit : Submit) (player : Stats) (report : TurnReport) : List Write :=
  match report.matchResult with
  | none => []
  | some result =>
    [.completeMatch submit.gameId (if result.winner=.p1 then some submit.playerId else none),
      .updateStats submit.playerId result.winner (player.count result.winner+1)]

/-- What a request has to commit: minor writes, and then those that end the match. -/
def ToCommit (submit : Submit) (player : Stats) (report : TurnReport) (writes : List Write) : Prop :=
  ∃ minor,(∀ write∈minor,Minor write) ∧ writes=minor++endingWrites submit player report

/-- The writes of a turn and its round are minor. -/
theorem endRound_yields : (endRound submit roundDb report
    [.insertTurn ⟨roundDb.id,report.turnResult⟩]).Yields fun writes => ∀ write∈writes,Minor write := by
  unfold endRound
  split
  · intro write hwrite
    rw [List.mem_singleton.mp hwrite]
    exact True.intro
  · refine (Prog.yields_true _).bind fun matchDb _ => ?_
    refine (Prog.yields_true _).bind fun score _ => ?_
    dsimp only
    split
    · intro write hwrite
      simp only [List.mem_append,List.mem_singleton] at hwrite
      obtain ((rfl | rfl) | rfl) | rfl := hwrite <;> exact True.intro
    · intro write hwrite
      simp only [List.mem_append,List.mem_singleton] at hwrite
      obtain (rfl | rfl) | rfl := hwrite <;> exact True.intro

/-- The writes of the end of the match come after them. -/
theorem endMatch_yields {minor : List Write} (hminor : ∀ write∈minor,Minor write) :
    (endMatch submit player report minor).Yields (ToCommit submit player report) := by
  unfold endMatch
  split
  · next hnone =>
    refine ⟨minor,hminor,?_⟩
    simp only [endingWrites,hnone,List.append_nil]
  · next result hresult =>
    refine (Prog.yields_true _).bind fun matchDb _ => ?_
    refine (Prog.yields_true _).bind fun found _ => ?_
    cases found with
    | none => exact True.intro
    | some found =>
      refine (Prog.yields_true _).bind fun _ _ => ⟨minor,hminor,?_⟩
      simp only [endingWrites,hresult,List.append_assoc,List.singleton_append]

/-- So this is what a request has to commit. -/
theorem beforeCommit_yields :
    (beforeCommit submit player roundDb report).Yields (ToCommit submit player report) := by
  refine endRound_yields.bind fun writes hminor => ?_
  refine (endMatch_yields hminor).bind fun writes hwrites => ?_
  exact (Prog.yields_true _).bind fun _ _ => hwrites

/-- A match that is ended has a row. -/
theorem endMatch_row {writes writes' : List Write} {outcomes : List Outcome} {service : Service}
    (hok : (alone (endMatch submit player report writes) outcomes service).2=.ok writes')
    (hends : report.matchResult.isSome=true) : ∃ row∈service.db.matchRows,row.id=submit.gameId := by
  unfold endMatch at hok
  split at hok
  · next hnone =>
    rw [hnone] at hends
    cases hends
  · next result hresult =>
    obtain ⟨rest,heq⟩ := alone_bind outcomes service (getMatchDb submit.gameId writes) _
    rw [heq] at hok
    cases hloaded : (alone (getMatchDb submit.gameId writes) outcomes service).2 with
    | error exc =>
      rw [hloaded] at hok
      cases hok
    | ok matchDb =>
      have hfound : ∀ found,effect service (.selectMatch submit.gameId writes)=(service,.ok found) →
          found=service.db.matchRows.find? fun row => row.id=submit.gameId := by
        intro found heffect
        simp only [effect] at heffect
        split at heffect <;> cases heffect
        rfl
      rw [getMatchDb,alone_perform] at hloaded
      have hselect : ∃ found,(turnsOut (outcomes.headD .proceeds)
          (.selectMatch submit.gameId writes) service).2=.ok found ∧ found.isSome=true := by
        split at hloaded
        · next found hselected =>
          refine ⟨found,hselected,?_⟩
          cases found with
          | none => cases hloaded
          | some row => rfl
        · cases hloaded
      obtain ⟨found,hselected,hsome⟩ := hselect
      have heffect : effect service (.selectMatch submit.gameId writes)=(service,.ok found) := by
        by_cases houtcome : outcomes.headD .proceeds=.proceeds
        · rw [houtcome,turnsOut_proceeds] at hselected
          refine Prod.ext ?_ hselected
          simp only [effect]
          split <;> rfl
        · rw [turnsOut_fails service rfl houtcome] at hselected
          cases hselected
      rw [hfound found heffect] at hsome
      obtain ⟨row,hrow⟩ := Option.isSome_iff_exists.mp hsome
      exact ⟨row,List.mem_of_find?_eq_some hrow,by simpa using List.find?_some hrow⟩

/-- What is known of a game does not depend on whether it is served. -/
theorem lasting_known : Lasting fun held => (held.state,held.creator) := fun _ _ => rfl

/-- A turn that is played leaves the next state of its game, and commits nothing or what
there is to commit. -/
theorem committed_of_plays {outcomes rest : List Outcome} {service : Service} {held : Held}
    {state' : GameState} (h : Plays submit outcomes service held state' report player roundDb rest) :
    known (serve (.submitAction submit) outcomes service).1=
        Function.update (known service) submit.gameId (some (state',held.creator)) ∧
      ((serve (.submitAction submit) outcomes service).1.db=service.db ∨
        ∃ writes,ToCommit submit player report writes ∧
          (serve (.submitAction submit) outcomes service).1.db=service.db.writeAll writes ∧
          (report.matchResult.isSome=true →
            ∃ row∈service.db.matchRows,row.id=submit.gameId)) := by
  rw [h.goesOn]
  generalize hnext : service.hold submit.gameId {held with
    state := state',active := if report.roundResult.isNone then true else held.active}=next
  have hdb : next.db=service.db := by
    rw [←hnext]
    rfl
  constructor
  · funext id
    refine (alone_view lasting_known (afterTurn_keeps submit player roundDb report) rest next id).trans
      ?_
    rw [←hnext]
    simp only [Service.hold]
    by_cases hid : id=submit.gameId
    · subst hid
      rw [Function.update_self,Function.update_self]
      rfl
    · rw [Function.update_of_ne hid,Function.update_of_ne hid]
      rfl
  · rw [afterTurn_eq]
    have hall : (beforeCommit submit player roundDb report).All Prepares :=
      beforeCommit_all submit player roundDb report (fun _ => True.intro) True.intro
        (fun _ => True.intro) True.intro fun _ => True.intro
    have hbefore := (alone_db hall rest next).trans hdb
    obtain ⟨rest',heq⟩ := alone_bind rest next (beforeCommit submit player roundDb report)
      (fun writes => perform (.commit writes))
    rw [heq]
    cases hresult : (alone (beforeCommit submit player roundDb report) rest next).2 with
    | error exc => exact .inl hbefore
    | ok writes =>
      obtain hnothing | hwritten := alone_commit_cases rest'
        (alone (beforeCommit submit player roundDb report) rest next).1 writes
      · refine .inl ?_
        dsimp only
        rw [hnothing]
        exact hbefore
      · refine .inr ⟨writes,alone_yields rest next beforeCommit_yields hresult,?_,fun hends => ?_⟩
        · dsimp only
          rw [hwritten]
          exact congrArg (fun db => db.writeAll writes) hbefore
        · have hround := alone_db (@endRound_all Prepares submit report roundDb
            (fun _ => True.intro) True.intro [.insertTurn ⟨roundDb.id,report.turnResult⟩]) rest next
          obtain ⟨rest₁,hparts⟩ := alone_bind rest next (endRound submit roundDb report
            [.insertTurn ⟨roundDb.id,report.turnResult⟩]) _
          rw [beforeCommit,hparts] at hresult
          cases hended : (alone (endRound submit roundDb report
              [.insertTurn ⟨roundDb.id,report.turnResult⟩]) rest next).2 with
          | error exc =>
            rw [hended] at hresult
            cases hresult
          | ok minor =>
            rw [hended] at hresult
            dsimp only at hresult
            generalize (alone (endRound submit roundDb report
              [.insertTurn ⟨roundDb.id,report.turnResult⟩]) rest next).1=ended at hround hresult
            obtain ⟨rest₂,hlast⟩ := alone_bind rest₁ ended (endMatch submit player report minor) _
            rw [hlast] at hresult
            cases hover : (alone (endMatch submit player report minor) rest₁ ended).2 with
            | error exc =>
              rw [hover] at hresult
              cases hresult
            | ok writes' =>
              have hrow := endMatch_row hover hends
              rw [hround,hdb] at hrow
              exact hrow

/-- The rows of a new game. -/
def newRows (gameId roundId playerId : UUID) (difficulty : Difficulty) : List Write :=
  .insertMatch ⟨gameId,playerId,difficulty.matchType,.inProgress,none,0,0⟩::
    ((newGame gameId difficulty).currentRound.map fun round =>
      .insertRound ⟨roundId,gameId,round.roundNumber,none,0⟩).toList

/-- create_ai_game does nothing, or it starts a game whose key no match has, and then it
may commit its rows. -/
theorem serve_createAiGame (gameId roundId playerId : UUID) (difficulty : Difficulty)
    (outcomes : List Outcome) (service : Service) :
    (serve (.createAiGame gameId roundId playerId difficulty) outcomes service).1=service ∨
      (∀ row∈service.db.matchRows,row.id≠gameId) ∧
        known (serve (.createAiGame gameId roundId playerId difficulty) outcomes service).1=
          Function.update (known service) gameId (some (newGame gameId difficulty,playerId)) ∧
        ((serve (.createAiGame gameId roundId playerId difficulty) outcomes service).1.db=
            service.db ∨
          (serve (.createAiGame gameId roundId playerId difficulty) outcomes service).1.db=
            service.db.writeAll (newRows gameId roundId playerId difficulty)) := by
  have hheld : ∀ db,known ⟨(service.hold gameId
      ⟨newGame gameId difficulty,true,playerId⟩).games,db⟩=
        Function.update (known service) gameId (some (newGame gameId difficulty,playerId)) := by
    intro db
    funext id
    simp only [known,Service.hold]
    by_cases hid : id=gameId
    · subst hid
      rw [Function.update_self,Function.update_self]
      rfl
    · rw [Function.update_of_ne hid,Function.update_of_ne hid]
      rfl
  unfold serve
  obtain ⟨player,-,-,heq⟩ | ⟨-,hsame⟩ := alone_getCurrentPlayer outcomes service playerId
    fun _ => createAiGame gameId roundId playerId difficulty >>= fun writes =>
      perform (.commit writes)
  · have hhandler : alone (handler (.createAiGame gameId roundId playerId difficulty)) outcomes
        service=alone (perform (.flush (newRows gameId roundId playerId difficulty)) >>= fun _ =>
          perform (.start gameId playerId difficulty) >>= fun _ =>
          perform (.commit (newRows gameId roundId playerId difficulty))) outcomes.tail service := by
      refine heq.trans ?_
      simp only [createAiGame,Prog.bind_assoc]
      rfl
    rw [hhandler]
    obtain ⟨-,hflush⟩ | ⟨-,hsame⟩ := @alone_query Unit
      (.flush (newRows gameId roundId playerId difficulty)) outcomes.tail service rfl
      (fun service => by simp only [effect]; split <;> rfl)
      fun _ => perform (.start gameId playerId difficulty) >>= fun _ =>
        perform (.commit (newRows gameId roundId playerId difficulty))
    · rw [hflush]
      simp only [effect]
      cases hconflicts : (newRows gameId roundId playerId difficulty).any service.db.conflicts with
      | true => exact .inl rfl
      | false =>
        have hnew : ∀ row∈service.db.matchRows,row.id≠gameId := by
          rw [List.any_eq_false] at hconflicts
          have hfirst := hconflicts _ List.mem_cons_self
          simpa [Database.conflicts] using hfirst
        refine .inr ⟨hnew,?_⟩
        simp only [Bool.false_eq_true,if_false]
        rw [alone_perform,turnsOut_plain _ rfl]
        simp only [effect]
        obtain hnothing | hwritten := alone_commit_cases outcomes.tail.tail.tail
          (service.hold gameId ⟨newGame gameId difficulty,true,playerId⟩)
          (newRows gameId roundId playerId difficulty)
        · rw [hnothing]
          exact ⟨hheld _,.inl rfl⟩
        · rw [hwritten]
          exact ⟨hheld _,.inr rfl⟩
    · exact .inl hsame
  · exact .inl hsame

end Requests

section Ledger

variable {start players : UUID → Option Stats} {games games' : UUID → Option (GameState×UUID)}
  {rows : List MatchRow}

/-- A row without the score. -/
def bare (row : MatchRow) : MatchRow := {row with roundsWonP1 := 0,roundsWonP2 := 0}

/-- The player's match is over, with this winner. -/
def wonBy (games : UUID → Option (GameState×UUID)) (playerId : UUID) (winner : RoundWinner)
    (row : MatchRow) : Bool :=
  row.player1Id=playerId && row.status=.completed &&
    (games row.id).any fun game => winnerOf game.1=winner

/-- The row says what is known of its game. -/
structure Tells (row : MatchRow) (game : GameState×UUID) : Prop where
  /-- Who has created it. -/
  creator : game.2=row.player1Id
  /-- It is over. -/
  ended : row.status=.completed → game.1.status≠.inProgress ∧
    row.winnerId=if winnerOf game.1=.p1 then some row.player1Id else none
  /-- It goes on. -/
  goesOn : row.status≠.completed → row.winnerId=none

/-- The statistics count the matches that are over. -/
structure Ledger (start : UUID → Option Stats) (games : UUID → Option (GameState×UUID))
    (rows : List MatchRow) (players : UUID → Option Stats) : Prop where
  /-- No two matches have the same key. -/
  unique : (rows.map MatchRow.id).Nodup
  /-- Each of them has a game. -/
  tells : ∀ row∈rows,∃ game,games row.id=some game ∧ Tells row game
  /-- The statistics. -/
  counts : ∀ playerId stats,start playerId=some stats → ∃ stats',players playerId=some stats' ∧
    ∀ winner,stats'.count winner=stats.count winner+rows.countP (wonBy games playerId winner)

/-- What is known of games changes, but not of those that are over. -/
theorem Ledger.update (h : Ledger start games rows players)
    (hgames : ∀ row∈rows,∀ game,games row.id=some game → ∃ game',games' row.id=some game' ∧
      game'.2=game.2 ∧ (row.status=.completed → game'=game)) :
    Ledger start games' rows players := by
  refine ⟨h.unique,fun row hrow => ?_,fun playerId stats hstats => ?_⟩
  · obtain ⟨game,hgame,htells⟩ := h.tells row hrow
    obtain ⟨game',hgame',hcreator,hover⟩ := hgames row hrow game hgame
    refine ⟨game',hgame',hcreator.trans htells.creator,fun hcompleted => ?_,htells.goesOn⟩
    rw [hover hcompleted]
    exact htells.ended hcompleted
  · obtain ⟨stats',hstats',hcounts⟩ := h.counts playerId stats hstats
    refine ⟨stats',hstats',fun winner => ?_⟩
    rw [hcounts winner]
    have hsame : rows.countP (wonBy games playerId winner)=
        rows.countP (wonBy games' playerId winner) := by
      refine List.countP_congr fun row hrow => ?_
      obtain ⟨game,hgame,-⟩ := h.tells row hrow
      obtain ⟨game',hgame',-,hover⟩ := hgames row hrow game hgame
      by_cases hcompleted : row.status=.completed
      · rw [hover hcompleted] at hgame'
        simp only [wonBy,hgame,hgame']
      · simp [wonBy,hcompleted]
    rw [hsame]

/-- A match begins. -/
theorem Ledger.insert (h : Ledger start games rows players) {row : MatchRow} {game : GameState×UUID}
    (hgame : games row.id=some game) (hcreator : game.2=row.player1Id)
    (hstatus : row.status=.inProgress) (hwinner : row.winnerId=none)
    (hnew : ∀ row'∈rows,row'.id≠row.id) : Ledger start games (rows++[row]) players := by
  refine ⟨?_,?_,?_⟩
  · rw [List.map_append,List.nodup_append]
    refine ⟨h.unique,List.nodup_cons.mpr ⟨List.not_mem_nil,List.nodup_nil⟩,?_⟩
    intro id hid id' hid'
    obtain ⟨row',hrow',rfl⟩ := List.mem_map.mp hid
    rw [List.map_singleton,List.mem_singleton] at hid'
    rw [hid']
    exact hnew row' hrow'
  · intro row' hrow'
    obtain hold | hlast := List.mem_append.mp hrow'
    · exact h.tells row' hold
    · rw [List.mem_singleton] at hlast
      subst hlast
      refine ⟨game,hgame,hcreator,fun hcompleted => ?_,fun _ => hwinner⟩
      rw [hstatus] at hcompleted
      cases hcompleted
  · intro playerId stats hstats
    obtain ⟨stats',hstats',hcounts⟩ := h.counts playerId stats hstats
    refine ⟨stats',hstats',fun winner => ?_⟩
    have hnone : wonBy games playerId winner row=false := by
      simp [wonBy,hstatus]
    rw [hcounts winner,List.countP_append,List.countP_singleton,hnone]
    simp

/-- The columns of the statistics are counted apart. -/
theorem count_set (stats : Stats) (winner winner' : RoundWinner) (count : ℤ) :
    (stats.set winner count).count winner'=if winner'=winner then count else stats.count winner' := by
  cases winner <;> cases winner' <;> rfl

/-- The row of a match that has ended so. -/
def finished (state : GameState) (row : MatchRow) : MatchRow :=
  {row with
    status := .completed
    winnerId := if winnerOf state=.p1 then some row.player1Id else none}

section Finish

variable {earlier later : List MatchRow} {row : MatchRow}

/-- No other row has the key of a row. -/
theorem id_ne_of_unique (hunique : ((earlier++row::later).map MatchRow.id).Nodup) :
    ∀ row'∈earlier++later,row'.id≠row.id := by
  rw [List.map_append,List.map_cons,List.nodup_append,List.nodup_cons] at hunique
  obtain ⟨-,⟨hlater,-⟩,hearlier⟩ := hunique
  intro row' hrow' hid
  obtain hbefore | hafter := List.mem_append.mp hrow'
  · exact hearlier row'.id (List.mem_map_of_mem hbefore) row.id List.mem_cons_self hid
  · exact hlater (hid ▸ List.mem_map_of_mem hafter)

/-- An update by the key changes that row alone. -/
theorem map_of_unique (hunique : ((earlier++row::later).map MatchRow.id).Nodup)
    (update : MatchRow → MatchRow) :
    (earlier++row::later).map (fun row' => if row'.id=row.id then update row' else row')=
      earlier++update row::later := by
  have hother := id_ne_of_unique hunique
  have hsame : ∀ rows' : List MatchRow,(∀ row'∈rows',row'∈earlier++later) →
      rows'.map (fun row' => if row'.id=row.id then update row' else row')=rows' := by
    intro rows' hin
    have hid : ∀ row'∈rows',(if row'.id=row.id then update row' else row')=id row' :=
      fun row' hrow' => if_neg (hother row' (hin row' hrow'))
    exact (List.map_congr_left hid).trans (List.map_id rows')
  rw [List.map_append,List.map_cons,hsame earlier fun _ hin => List.mem_append_left _ hin,
    hsame later fun _ hin => List.mem_append_right _ hin,if_pos rfl]

/-- A row counts by itself. -/
theorem countP_between (test : MatchRow → Bool) : (earlier++row::later).countP test=
    (earlier++later).countP test+if test row=true then 1 else 0 := by
  rw [List.countP_append,List.countP_append,List.countP_cons]
  omega

/-- The match that has ended is counted for its player and its winner alone. -/
theorem countP_finished (hunique : ((earlier++row::later).map MatchRow.id).Nodup)
    (hopen : row.status≠.completed) (state : GameState) (creator playerId : UUID)
    (winner : RoundWinner) :
    (earlier++finished state row::later).countP
        (wonBy (Function.update games row.id (some (state,creator))) playerId winner)=
      (earlier++row::later).countP (wonBy games playerId winner)+
        if row.player1Id=playerId ∧ winnerOf state=winner then 1 else 0 := by
  have hrest : (earlier++later).countP
      (wonBy (Function.update games row.id (some (state,creator))) playerId winner)=
        (earlier++later).countP (wonBy games playerId winner) := by
    refine List.countP_congr fun row' hin => ?_
    simp only [wonBy,Function.update_of_ne (id_ne_of_unique hunique row' hin)]
  have hbefore : wonBy games playerId winner row=false := by simp [wonBy,hopen]
  have hafter : wonBy (Function.update games row.id (some (state,creator))) playerId winner
      (finished state row)=true ↔ row.player1Id=playerId ∧ winnerOf state=winner := by
    simp only [wonBy,finished,Function.update_self,Option.any_some,Bool.and_eq_true,
      decide_eq_true_eq,and_true]
    exact and_congr_left fun _ => decide_eq_true_iff
  rw [countP_between,hrest,countP_between,hbefore]
  simp only [hafter,Bool.false_eq_true,if_false,Nat.add_zero]

end Finish

/-- A match ends, and is counted for its player. -/
theorem Ledger.finish (h : Ledger start games rows players) {row : MatchRow} (hrow : row∈rows)
    {state state' : GameState} {creator : UUID} (hgame : games row.id=some (state,creator))
    (hstatus : state.status=.inProgress) (hover : state'.status≠.inProgress) :
    Ledger start (Function.update games row.id (some (state',creator)))
      (rows.map fun row' => if row'.id=row.id then
        {row' with
          status := .completed
          winnerId := (if winnerOf state'=.p1 then some creator else none).or row'.winnerId}
        else row')
      (Function.update players creator ((players creator).map fun stats =>
        stats.set (winnerOf state') (stats.count (winnerOf state')+1))) := by
  obtain ⟨earlier,later,rfl⟩ := List.append_of_mem hrow
  have hother := id_ne_of_unique h.unique
  obtain ⟨game,hgame',htells⟩ := h.tells row hrow
  cases hgame.symm.trans hgame'
  have hcreator : creator=row.player1Id := htells.creator
  have hopen : row.status≠.completed := fun hcompleted => (htells.ended hcompleted).1 hstatus
  have hended : {row with
      status := .completed
      winnerId := (if winnerOf state'=.p1 then some creator else none).or row.winnerId}=
        finished state' row := by
    simp only [finished,htells.goesOn hopen,Option.or_none,hcreator]
  rw [map_of_unique h.unique fun row' => {row' with
    status := .completed
    winnerId := (if winnerOf state'=.p1 then some creator else none).or row'.winnerId},hended]
  refine ⟨?_,?_,?_⟩
  · have hids := h.unique
    rw [List.map_append,List.map_cons] at hids ⊢
    exact hids
  · intro row' hrow'
    obtain rfl | hold : row'=finished state' row ∨ row'∈earlier++later := by
      rw [List.mem_append,List.mem_cons] at hrow'
      rw [List.mem_append]
      tauto
    · refine ⟨(state',creator),Function.update_self _ _ _,hcreator,fun _ => ⟨hover,rfl⟩,?_⟩
      exact fun hne => absurd rfl hne
    · rw [Function.update_of_ne (hother row' hold)]
      refine h.tells row' ?_
      rw [List.mem_append] at hold
      rw [List.mem_append,List.mem_cons]
      tauto
  · intro playerId stats hstats
    obtain ⟨stats',hstats',hcounts⟩ := h.counts playerId stats hstats
    by_cases hplayer : playerId=creator
    · subst hplayer
      refine ⟨_,by rw [Function.update_self,hstats']; rfl,fun winner => ?_⟩
      rw [countP_finished h.unique hopen,count_set]
      have hcount := hcounts winner
      by_cases hw : winner=winnerOf state'
      · subst hw
        rw [if_pos rfl,if_pos ⟨hcreator.symm,rfl⟩]
        push_cast
        omega
      · rw [if_neg hw,if_neg fun hboth => hw hboth.2.symm]
        exact hcount
    · refine ⟨stats',by rw [Function.update_of_ne hplayer,hstats'],fun winner => ?_⟩
      rw [countP_finished h.unique hopen,
        if_neg fun hboth => hplayer (hboth.1.symm.trans hcreator.symm)]
      exact hcounts winner

end Ledger

section Runs

variable {start : UUID → Option Stats} {service : Service}

/-- The ledger of a service. -/
def Balanced (start : UUID → Option Stats) (service : Service) : Prop :=
  Ledger start (known service) (service.db.matchRows.map bare) service.db.players

/-- Nobody has played. -/
theorem balanced_registered (start : UUID → Option Stats) : Balanced start (registered start) := by
  refine ⟨List.nodup_nil,(fun _ hrow => nomatch hrow),fun playerId stats hstats => ?_⟩
  refine ⟨stats,hstats,fun winner => ?_⟩
  simp [registered]

/-- Minor writes change neither the players nor the rows of the matches up to the score. -/
theorem writeAll_minor {writes : List Write} (h : ∀ write∈writes,Minor write) (db : Database) :
    (db.writeAll writes).matchRows.map bare=db.matchRows.map bare ∧
      (db.writeAll writes).players=db.players := by
  induction writes generalizing db with
  | nil => exact ⟨rfl,rfl⟩
  | cons write writes ih =>
    have hfirst : (db.write write).matchRows.map bare=db.matchRows.map bare ∧
        (db.write write).players=db.players := by
      have hminor := h write List.mem_cons_self
      cases write with
      | insertMatch | completeMatch | updateStats => exact hminor.elim
      | insertRound | insertTurn | updateRound => exact ⟨rfl,rfl⟩
      | updateScore id roundsWonP1 roundsWonP2 =>
        refine ⟨?_,rfl⟩
        simp only [Database.write,Database.updateMatch,List.map_map]
        refine List.map_congr_left fun row _ => ?_
        simp only [Function.comp_apply]
        split <;> rfl
    obtain ⟨hrows,hplayers⟩ := ih (fun write hwrite => h write (List.mem_cons_of_mem _ hwrite))
      (db.write write)
    exact ⟨hrows.trans hfirst.1,hplayers.trans hfirst.2⟩

/-- The result of a match is that of its rounds. -/
theorem winner_of_accepted {state state' : GameState} {p1Action p2Action : Action}
    {report : TurnReport} (h : Accepted state p1Action p2Action state' report)
    {result : MatchResult} (hresult : report.matchResult=some result) :
    result.winner=winnerOf state' ∧ state'.status≠.inProgress := by
  cases h with
  | roundGoesOn round hround hw => cases hresult
  | roundCloses round hround roundResult hw hm => cases hresult
  | matchCloses round hround roundResult hw matchResult hm =>
    cases hresult
    refine ⟨?_,by simp⟩
    unfold checkMatchEnd at hm
    unfold winnerOf
    dsimp only at hm ⊢
    split at hm
    · next h1 =>
      rw [if_pos h1,←Option.some.inj hm]
      rfl
    · next h1 =>
      rw [if_neg h1]
      split at hm
      · next h2 =>
        rw [if_pos h2,←Option.some.inj hm]
        rfl
      · next h2 =>
        rw [if_neg h2]
        split at hm
        · rw [←Option.some.inj hm]
          rfl
        · cases hm

/-- A turn that has been played keeps the balance, if the creator has played it. -/
theorem Balanced.played (h : Balanced start service) {submit : Submit} {outcomes rest : List Outcome}
    {held : Held} {state' : GameState} {report : TurnReport} {player : Stats} {roundDb : RoundRow}
    (hplays : Plays submit outcomes service held state' report player roundDb rest)
    (hown : held.creator=submit.playerId) :
    Balanced start (serve (.submitAction submit) outcomes service).1 := by
  obtain ⟨hknown,hdb⟩ := committed_of_plays hplays
  obtain ⟨aiAction,haccepted⟩ := hplays.accepted
  have hgame : known service submit.gameId=some (held.state,held.creator) := by
    simp only [known,hplays.inMemory,Option.map_some]
  -- the state may change, as the match is not over
  have hmoved : Ledger start (Function.update (known service) submit.gameId
      (some (state',held.creator))) (service.db.matchRows.map bare) service.db.players := by
    refine h.update fun row hrow game hrowGame => ?_
    by_cases hid : row.id=submit.gameId
    · rw [hid] at hrowGame ⊢
      cases hgame.symm.trans hrowGame
      refine ⟨(state',held.creator),Function.update_self _ _ _,rfl,fun hcompleted => ?_⟩
      obtain ⟨game,hgame',htells⟩ := h.tells row hrow
      rw [hid] at hgame'
      cases hgame.symm.trans hgame'
      exact absurd hplays.inProgress (htells.ended hcompleted).1
    · exact ⟨game,by rw [Function.update_of_ne hid,hrowGame],rfl,fun _ => rfl⟩
  unfold Balanced
  rw [hknown]
  obtain hsame | ⟨writes,⟨minor,hminor,rfl⟩,hwritten,hrow⟩ := hdb
  · rw [hsame]
    exact hmoved
  · rw [hwritten]
    obtain ⟨hrows,hplayers⟩ := writeAll_minor hminor service.db
    have hsplit : service.db.writeAll (minor++endingWrites submit player report)=
        (service.db.writeAll minor).writeAll (endingWrites submit player report) :=
      List.foldl_append
    rw [hsplit]
    generalize service.db.writeAll minor=db at hrows hplayers ⊢
    cases hresult : report.matchResult with
    | none =>
      rw [endingWrites,hresult]
      change Ledger start _ (db.matchRows.map bare) db.players
      rw [hrows,hplayers]
      exact hmoved
    | some result =>
      obtain ⟨hwinner,hover⟩ := winner_of_accepted haccepted hresult
      obtain ⟨row,hin,hid⟩ := hrow (by rw [hresult]; rfl)
      have hbare : (bare row).id=submit.gameId := hid
      have hended := h.finish (List.mem_map_of_mem hin) (by rw [hbare,hgame]) hplays.inProgress
        hover
      rw [hbare,hown] at hended
      rw [hown]
      have hboth : ∀ rows : List MatchRow,(rows.map fun row => if row.id=submit.gameId then
            {row with
              status := .completed
              winnerId := (if result.winner=.p1 then some submit.playerId else none).or row.winnerId}
            else row).map bare=
          (rows.map bare).map fun row => if row.id=submit.gameId then
            {row with
              status := .completed
              winnerId := (if winnerOf state'=.p1 then some submit.playerId else none).or
                row.winnerId}
            else row := by
        intro rows
        rw [List.map_map,List.map_map,hwinner]
        refine List.map_congr_left fun row _ => ?_
        simp only [Function.comp_apply]
        have hid : (bare row).id=row.id := rfl
        by_cases hgameId : row.id=submit.gameId
        · rw [if_pos hgameId,if_pos (hid.trans hgameId)]
          rfl
        · rw [if_neg hgameId,if_neg (hid ▸ hgameId)]
      rw [endingWrites,hresult]
      change Ledger start _ ((db.matchRows.map _).map bare) (Function.update db.players submit.playerId
        ((db.players submit.playerId).map fun stats =>
          stats.set result.winner (player.count result.winner+1)))
      rw [hboth,hrows,hplayers,hwinner]
      rw [hplays.loaded] at hended ⊢
      exact hended

/-- So does the creation of a game. -/
theorem Balanced.created (h : Balanced start service) (gameId roundId playerId : UUID)
    (difficulty : Difficulty) (outcomes : List Outcome) :
    Balanced start (serve (.createAiGame gameId roundId playerId difficulty) outcomes service).1 := by
  obtain hsame | ⟨hnew,hknown,hdb⟩ :=
    serve_createAiGame gameId roundId playerId difficulty outcomes service
  · rw [hsame]
    exact h
  · have hother : ∀ row∈service.db.matchRows.map bare,row.id≠gameId := by
      intro row hrow
      obtain ⟨row',hrow',rfl⟩ := List.mem_map.mp hrow
      exact hnew row' hrow'
    have hstarted : Ledger start (Function.update (known service) gameId
        (some (newGame gameId difficulty,playerId))) (service.db.matchRows.map bare)
          service.db.players := by
      refine h.update fun row hrow game hgame => ⟨game,?_,rfl,fun _ => rfl⟩
      rw [Function.update_of_ne (hother row hrow),hgame]
    unfold Balanced
    rw [hknown]
    obtain hsame | hwritten := hdb
    · rw [hsame]
      exact hstarted
    · have hrows : (service.db.writeAll (newRows gameId roundId playerId difficulty)).matchRows=
          service.db.matchRows++
            [⟨gameId,playerId,difficulty.matchType,.inProgress,none,0,0⟩] := rfl
      have hplayers : (service.db.writeAll (newRows gameId roundId playerId difficulty)).players=
          service.db.players := rfl
      rw [hwritten,hrows,hplayers,List.map_append]
      exact hstarted.insert (Function.update_self _ _ _) rfl rfl rfl hother

/-- In a sequence of requests in which only the creators of games play them, the
statistics count the matches that are over. -/
theorem balanced_run {calls : List Call} (h : Balanced start service)
    (hown : ∀ step∈steps calls service,foreign step.1 step.2.1=false) :
    Balanced start (serveAll calls service) := by
  induction calls generalizing service with
  | nil => exact h
  | cons call calls ih =>
    obtain ⟨request,outcomes⟩ := call
    refine ih ?_ fun step hstep => hown step (List.mem_cons_of_mem _ hstep)
    cases request with
    | createAiGame gameId roundId playerId difficulty =>
      exact h.created gameId roundId playerId difficulty outcomes
    | submitAction submit =>
      obtain ⟨-,held,state',report,player,roundDb,rest,hplays⟩ | ⟨-,hsame⟩ :=
        serve_cases submit outcomes service
      · have hforeign : foreign service (.submitAction submit)=false :=
          hown (service,.submitAction submit,outcomes) List.mem_cons_self
        simp only [foreign,hplays.inMemory,Option.any_some,decide_eq_false_iff_not,
          not_not] at hforeign
        exact h.played hplays hforeign
      · rw [hsame]
        exact h

/-- A count that is the sum of two others row by row. -/
theorem countP_add {p q r : MatchRow → Bool} {rows : List MatchRow}
    (h : ∀ row∈rows,(p row).toNat=(q row).toNat+(r row).toNat) :
    rows.countP p=rows.countP q+rows.countP r := by
  induction rows with
  | nil => rfl
  | cons row rows ih =>
    have hrest := ih fun row' hrow' => h row' (List.mem_cons_of_mem _ hrow')
    have hfirst := h row List.mem_cons_self
    rw [List.countP_cons,List.countP_cons,List.countP_cons,hrest]
    cases hp : p row <;> cases hq : q row <;> cases hr : r row <;>
      simp [hp,hq,hr] at hfirst ⊢ <;> omega

/-- The labels of the whole history count the player's matches. -/
theorem labelled_history {db : Database} {playerId : UUID} {limit : ℕ}
    (hall : (db.matchRows.filter fun row => row.player1Id=playerId).length ≤ limit) (label : Label) :
    labelled label (getMatchHistory db playerId limit)=
      db.matchRows.countP fun row => labelOf playerId row=label && row.player1Id=playerId := by
  unfold labelled getMatchHistory
  rw [List.take_of_length_le (by rwa [List.length_reverse]),List.countP_map,List.countP_reverse,
    List.countP_filter]
  rfl

/-- What the history shows of the player's matches: those that he has won are won, and all
others that are over are drawn. -/
theorem labels (h : Balanced start service) (playerId : UUID) :
    (service.db.matchRows.countP fun row => labelOf playerId row=.win && row.player1Id=playerId)=
        (service.db.matchRows.map bare).countP (wonBy (known service) playerId .p1) ∧
      (service.db.matchRows.countP fun row => labelOf playerId row=.draw && row.player1Id=playerId)=
        (service.db.matchRows.map bare).countP (wonBy (known service) playerId .draw)+
          (service.db.matchRows.map bare).countP (wonBy (known service) playerId .p2) ∧
      (service.db.matchRows.countP fun row =>
        labelOf playerId row=.loss && row.player1Id=playerId)=0 := by
  have hrow : ∀ row∈service.db.matchRows,row.player1Id=playerId → ∃ game,
      known service row.id=some game ∧ (row.status=.completed →
        row.winnerId=if winnerOf game.1=.p1 then some playerId else none) := by
    intro row hrow hplayer
    obtain ⟨game,hgame,htells⟩ := h.tells (bare row) (List.mem_map_of_mem hrow)
    refine ⟨game,hgame,fun hcompleted => ?_⟩
    rw [←hplayer]
    exact (htells.ended hcompleted).2
  refine ⟨?_,?_,?_⟩
  · rw [List.countP_map]
    refine List.countP_congr fun row hin => ?_
    by_cases hplayer : row.player1Id=playerId
    · obtain ⟨game,hgame,hwinner⟩ := hrow row hin hplayer
      by_cases hcompleted : row.status=.completed
      · have hw := hwinner hcompleted
        cases hresult : winnerOf game.1 <;>
          simp [labelOf,wonBy,bare,hplayer,hcompleted,hgame,hw,hresult]
      · simp [labelOf,wonBy,bare,hcompleted]
    · simp [wonBy,bare,hplayer]
  · rw [List.countP_map,List.countP_map]
    refine countP_add fun row hin => ?_
    by_cases hplayer : row.player1Id=playerId
    · obtain ⟨game,hgame,hwinner⟩ := hrow row hin hplayer
      by_cases hcompleted : row.status=.completed
      · have hw := hwinner hcompleted
        cases hresult : winnerOf game.1 <;>
          simp [labelOf,wonBy,bare,hplayer,hcompleted,hgame,hw,hresult]
      · simp [labelOf,wonBy,bare,hcompleted]
    · simp [wonBy,bare,hplayer]
  · rw [List.countP_eq_zero]
    intro row hin
    by_cases hplayer : row.player1Id=playerId
    · obtain ⟨game,hgame,hwinner⟩ := hrow row hin hplayer
      by_cases hcompleted : row.status=.completed
      · have hw := hwinner hcompleted
        cases hresult : winnerOf game.1 <;> simp [labelOf,hcompleted,hw,hresult]
      · simp [labelOf,hcompleted]
    · simp [hplayer]

/-- The AI has won none of the player's matches. -/
theorem unbeaten_iff (playerId : UUID) : Unbeaten service playerId ↔
    (service.db.matchRows.map bare).countP (wonBy (known service) playerId .p2)=0 := by
  rw [List.countP_eq_zero]
  constructor
  · intro hunbeaten row hrow hwon
    obtain ⟨row,hin,rfl⟩ := List.mem_map.mp hrow
    simp only [wonBy,Bool.and_eq_true,decide_eq_true_eq,Option.any_eq_true] at hwon
    obtain ⟨⟨hplayer,hcompleted⟩,game,hgame,hwinner⟩ := hwon
    obtain ⟨held,hheld,rfl⟩ := Option.map_eq_some_iff.mp hgame
    exact hunbeaten row hin hplayer hcompleted held hheld hwinner
  · intro hnone row hin hplayer hcompleted held hheld hwinner
    refine hnone (bare row) (List.mem_map_of_mem hin) ?_
    have hgame : known service (bare row).id=some (held.state,held.creator) := by
      rw [known,show (bare row).id=row.id from rfl,hheld,Option.map_some]
    have hplayer' : (bare row).player1Id=playerId := hplayer
    have hcompleted' : (bare row).status=.completed := hcompleted
    simp [wonBy,hplayer',hcompleted',hgame,hwinner]

end Runs

/-- In any sequence of requests in which only the creators of games play them, whatever
fails, the whole history of a player agrees with what has been added to his statistics
exactly if the AI has won none of his matches. -/
theorem agreement_iff {players : UUID → Option Stats} {calls : List Call} {playerId : UUID}
    {stats : Stats} {limit : ℕ} (hplayer : players playerId=some stats)
    (hown : ∀ step∈steps calls (registered players),foreign step.1 step.2.1=false)
    (hall : ((serveAll calls (registered players)).db.matchRows.filter fun row =>
      row.player1Id=playerId).length ≤ limit) :
    Agreement stats (serveAll calls (registered players)) playerId limit ↔
      Unbeaten (serveAll calls (registered players)) playerId := by
  have hbalanced := balanced_run (balanced_registered players) hown
  generalize serveAll calls (registered players)=service at hall hbalanced
  obtain ⟨hwin,hdraw,hloss⟩ := labels hbalanced playerId
  obtain ⟨stats',hstats',hcounts⟩ := hbalanced.counts playerId stats hplayer
  have hwins := hcounts .p1
  have hlosses := hcounts .p2
  have hdraws := hcounts .draw
  simp only [Stats.count] at hwins hlosses hdraws
  rw [unbeaten_iff]
  constructor
  · intro hagrees
    obtain ⟨stats'',hstats'',hequal⟩ := hagrees.losses
    cases hstats'.symm.trans hstats''
    rw [labelled_history hall,hloss] at hequal
    omega
  · intro hnone
    constructor
    · refine ⟨stats',hstats',?_⟩
      rw [labelled_history hall,hwin]
      omega
    · refine ⟨stats',hstats',?_⟩
      rw [labelled_history hall,hloss]
      omega
    · refine ⟨stats',hstats',?_⟩
      rw [labelled_history hall,hdraw]
      omega

/-- Player 1 creates a game and plays it with these actions, to which the AI answers with
its own ones. -/
def plays (choose : GameState → Action) (actions : List Action) : List Call :=
  (.createAiGame (.small 9) (.small 10) (.small 1) .novice,[])::actions.map fun action =>
    (.submitAction ⟨.small 9,.small 1,action,fun _ state => some (choose state),.small 11⟩,[])

/-- The players 1 and 2 have registered. -/
def newcomers : UUID → Option Stats := twoPlayers.db.players

/-- Player 1 wins two rounds against an AI that only charges. -/
def winsTwo : List Call := plays (fun _ => .charge) [.charge,.attack,.charge,.attack]

/-- His history agrees. -/
theorem win_agrees : Agreement ⟨0,0,0⟩ (serveAll winsTwo (registered newcomers)) (.small 1) 20 ∧
    labelled .win (getMatchHistory (serveAll winsTwo (registered newcomers)).db (.small 1) 20)=1 := by
  have hown : ∀ step∈steps winsTwo (registered newcomers),foreign step.1 step.2.1=false := by decide
  have hlength : ((serveAll winsTwo (registered newcomers)).db.matchRows.filter fun row =>
      row.player1Id=.small 1).length=1 := by decide
  have hwon : ∀ row∈(serveAll winsTwo (registered newcomers)).db.matchRows,
      ((serveAll winsTwo (registered newcomers)).games row.id).all
        (fun held => winnerOf held.state≠.p2)=true := by decide
  have hunbeaten : Unbeaten (serveAll winsTwo (registered newcomers)) (.small 1) := by
    intro row hrow _ _ held hheld
    have hrow' := hwon row hrow
    rw [hheld,Option.all_some,decide_eq_true_eq] at hrow'
    exact hrow'
  have hplayer : newcomers (.small 1)=some ⟨0,0,0⟩ := by decide
  refine ⟨(agreement_iff hplayer hown ?_).mpr hunbeaten,by decide⟩
  rw [hlength]
  decide

/-- He loses two rounds to an AI that attacks in every second turn. -/
def losesTwo : List Call := plays
  (fun state => if state.currentRound.any (fun round => round.turnNumber=0) then .charge else .attack)
  [.charge,.charge,.charge,.charge]

/-- His history shows a draw, and his statistics count a loss. -/
theorem loss_shown_as_draw : ¬∀ (players : UUID → Option Stats) (calls : List Call) (playerId : UUID)
    (stats : Stats) (limit : ℕ),players playerId=some stats →
    (∀ step∈steps calls (registered players),foreign step.1 step.2.1=false) →
    ((serveAll calls (registered players)).db.matchRows.filter fun row =>
      row.player1Id=playerId).length ≤ limit →
    Agreement stats (serveAll calls (registered players)) playerId limit := by
  intro h
  have hown : ∀ step∈steps losesTwo (registered newcomers),foreign step.1 step.2.1=false := by decide
  have hlength : ((serveAll losesTwo (registered newcomers)).db.matchRows.filter fun row =>
      row.player1Id=.small 1).length=1 := by decide
  have hplayer : newcomers (.small 1)=some ⟨0,0,0⟩ := by decide
  have hstats : (serveAll losesTwo (registered newcomers)).db.players (.small 1)=some ⟨0,1,0⟩ := by
    decide
  have hlabel : labelled .loss
      (getMatchHistory (serveAll losesTwo (registered newcomers)).db (.small 1) 20)=0 := by decide
  have hagrees := h newcomers losesTwo (.small 1) ⟨0,0,0⟩ 20 hplayer hown (by rw [hlength]; decide)
  obtain ⟨stats',hstats',hlosses⟩ := hagrees.losses
  cases hstats.symm.trans hstats'
  rw [hlabel] at hlosses
  cases hlosses

end KiClash.MatchHistory

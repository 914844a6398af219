import KiClash.GameServiceOrders
import Mathlib.Data.List.Forall2

/-!
# One turn after another

What a submit_action request does to the rows of its game when it is served alone: it adds
its turn to the open round, and when that ends the round or the match, the result of the
round, the score, the next round or the end of the match with it. Afterwards the rows say
again what has been played.
-/

namespace KiClash.GameServiceTurns

open EngineTypes OutcomeMatrix Engine EngineRuns AsyncTasks Histories GameService
open GameServiceRuns GameServiceOrders

section Rows

variable {game : NewGame} {turns : List (ℤ×TurnResult)} {ending : Option (UUID×RoundWinner)}
  {held : Held} {service : Service} {round : RoundState} {row : RoundRow} {result : RoundResult}

/-- A game that goes on has not been ended. -/
theorem unended (h : Tidy game turns ending held service) (hstatus : held.state.status=.inProgress) :
    ending=none := by
  have hnot := mt h.ended.mpr (not_not.mpr hstatus)
  rwa [Bool.not_eq_true,Option.isSome_eq_false_iff,Option.isNone_iff_eq_none] at hnot

/-- The row of a round once its result is in it; the other rows stay as they are. -/
def finished (row : RoundRow) (result : RoundResult) (other : RoundRow) : RoundRow :=
  if other.id=row.id then
    {other with winner := some result.winner,totalTurns := result.totalTurns}
  else other

@[simp] theorem finished_id (other : RoundRow) : (finished row result other).id=other.id := by
  unfold finished
  split <;> rfl

@[simp] theorem finished_matchId (other : RoundRow) :
    (finished row result other).matchId=other.matchId := by
  unfold finished
  split <;> rfl

@[simp] theorem finished_roundNumber (other : RoundRow) :
    (finished row result other).roundNumber=other.roundNumber := by
  unfold finished
  split <;> rfl

/-- A changed column has the new value. -/
theorem changed_getD {α : Type} [DecidableEq α] (loaded value : α) :
    (changed loaded value).getD loaded=value := by
  unfold changed
  split
  · next heq => exact heq.symm
  · rfl

/-- A turn stays in its round while the rounds keep their keys. -/
theorem recorded_later {db db' : Database} {gameId : UUID}
    (hrows : ∀ row∈db.roundRows,∃ row'∈db'.roundRows,row'.id=row.id ∧ row'.matchId=row.matchId ∧
      row'.roundNumber=row.roundNumber) {turn : ℤ×TurnResult} {turnRow : TurnRow}
    (h : Recorded db gameId turn turnRow) : Recorded db' gameId turn turnRow := by
  obtain ⟨hturn,row,hrow,hid,hmatch,hnumber⟩ := h
  obtain ⟨row',hrow',hid',hmatch',hnumber'⟩ := hrows row hrow
  exact ⟨hturn,row',hrow',hid'.trans hid,hmatch'.trans hmatch,hnumber'.trans hnumber⟩

/-- The turns with one more. -/
theorem kept_turnRows {db' : Database} {number : ℤ} {turn : TurnResult}
    (h : Tidy game turns ending held service)
    (hrows : ∀ row∈service.db.roundRows,∃ row'∈db'.roundRows,row'.id=row.id ∧
      row'.matchId=row.matchId ∧ row'.roundNumber=row.roundNumber)
    (hrow : row∈service.db.roundRows) (hmatch : row.matchId=game.gameId)
    (hnumber : row.roundNumber=number)
    (hturns : db'.turnRows=service.db.turnRows++[⟨row.id,turn⟩]) :
    ∃ rows,db'.turnRows.Perm (game.before.db.turnRows++rows) ∧
      List.Forall₂ (Recorded db' game.gameId) (turns++[(number,turn)]) rows := by
  obtain ⟨rows,hperm,hrecorded⟩ := h.kept.turnRows
  refine ⟨rows++[⟨row.id,turn⟩],?_,?_⟩
  · rw [hturns,←List.append_assoc]
    exact hperm.append_right _
  · have hall : List.Forall₂ (Recorded db' game.gameId) turns rows :=
      hrecorded.imp fun _ _ => recorded_later hrows
    obtain ⟨row',hrow',hid',hmatch',hnumber'⟩ := hrows row hrow
    have hlast : Recorded db' game.gameId (number,turn) ⟨row.id,turn⟩ :=
      ⟨rfl,row',hrow',hid',hmatch'.trans hmatch,hnumber'.trans hnumber⟩
    exact List.rel_append hall (.cons hlast .nil)

/-- The row that a request has looked up is there. -/
theorem mem_of_lookup {gameId : UUID} {number : ℤ} (h : lookup service gameId number=[row]) :
    row∈service.db.roundRows ∧ row.matchId=gameId ∧ row.roundNumber=number := by
  have hin : row∈lookup service gameId number := by
    rw [h]
    exact List.mem_singleton_self row
  rw [lookup,List.mem_filter,Bool.and_eq_true,decide_eq_true_eq,decide_eq_true_eq] at hin
  exact hin

/-- The rows of the rounds when the open one is over. -/
theorem finished_rows (h : Tidy game turns ending held service)
    (hround : held.state.currentRound=some round)
    (hrow : lookup service game.gameId round.roundNumber=[row]) :
    ((service.db.roundRows.map (finished row result)).filter (·.matchId=game.gameId)).map standing=
      held.state.roundResults.map
          (fun result => (result.roundNumber,some result.winner,result.totalTurns))++
        [(round.roundNumber,some result.winner,result.totalTurns)] := by
  obtain ⟨rows,hsplit,hlast,hover,hbefore⟩ := h.lookup_open hround hrow
  obtain ⟨hin,hmatch,hnumber⟩ := mem_of_lookup hrow
  have hothers : rows.map (standing∘finished row result)=rows.map standing := by
    refine List.map_congr_left fun row' hrow' => ?_
    have hin' : row'∈service.db.roundRows := by
      have hmem : row'∈service.db.roundRows.filter (·.matchId=game.gameId) := by
        rw [hsplit]
        exact List.mem_append_left _ hrow'
      exact (List.mem_filter.mp hmem).1
    have hne : row'.id≠row.id := by
      intro hid
      have hlt := hbefore row' hrow'
      rw [h.keyed row hin hmatch row' hin' hid] at hlt
      omega
    simp only [Function.comp,finished,if_neg hne]
  have hfilter : (service.db.roundRows.map (finished row result)).filter (·.matchId=game.gameId)=
      (rows++[row]).map (finished row result) := by
    rw [List.filter_map,←hsplit]
    simp only [Function.comp_def,finished_matchId]
  rw [hfilter,List.map_map,List.map_append,hothers,hover]
  simp only [List.map_cons,List.map_nil,Function.comp,finished,if_true,hnumber]

/-- Their keys are still theirs alone. -/
theorem finished_keyed (h : Tidy game turns ending held service) :
    ∀ row'∈service.db.roundRows.map (finished row result),row'.matchId=game.gameId →
      ∀ row''∈service.db.roundRows.map (finished row result),row''.id=row'.id → row''=row' := by
  intro row' hrow' hmatch row'' hrow'' hid
  obtain ⟨old,hold,rfl⟩ := List.mem_map.mp hrow'
  obtain ⟨old',hold',rfl⟩ := List.mem_map.mp hrow''
  rw [finished_matchId] at hmatch
  rw [finished_id,finished_id] at hid
  rw [h.keyed old hold hmatch old' hold' hid]

/-- An update of a match leaves its key. -/
theorem find_updated {rows : List MatchRow} {gameId : UUID} {f : MatchRow → MatchRow}
    (hf : ∀ row,(f row).id=row.id)
    (h : ∃ row,(rows.find? fun row => row.id=gameId)=some row) :
    ∃ row,((rows.map fun row => if row.id=gameId then f row else row).find?
      fun row => row.id=gameId)=some row := by
  obtain ⟨row,hrow⟩ := h
  have hkey : (fun row : MatchRow => decide ((if row.id=gameId then f row else row).id=gameId))=
      fun row => decide (row.id=gameId) := by
    funext row
    split <;> simp only [hf]
  rw [List.find?_map,Function.comp_def,hkey,hrow]
  exact ⟨_,rfl⟩

end Rows

section Turns

variable {game : NewGame} {turns : List (ℤ×TurnResult)} {ending : Option (UUID×RoundWinner)}
  {held : Held} {service service' : Service} {round : RoundState} {row : RoundRow}
  {result : RoundResult} {submit : Submit} {player : Stats} {matchRow : MatchRow}
  {report : TurnReport} {state' : GameState} {p1Action p2Action aiAction : Action} {number : ℤ}

/-- The round numbered so is behind the game, or the game is over. -/
def Past (state : GameState) (number : ℤ) : Prop :=
  ∀ round,state.currentRound=some round → number<round.roundNumber

/-- The score of the match in its row. -/
def rescored (gameId : UUID) (roundsWonP1 roundsWonP2 : Option ℤ) (rows : List MatchRow) :
    List MatchRow :=
  rows.map fun row =>
    if row.id=gameId then
      {row with
        roundsWonP1 := roundsWonP1.getD row.roundsWonP1
        roundsWonP2 := roundsWonP2.getD row.roundsWonP2}
    else row

/-- A finished round is recorded under its number. -/
theorem roundNumber_of_checkRoundEnd
    (h : checkRoundEnd (nextTurn round p1Action p2Action) (nextRound round p1Action p2Action)=
      some result) : result.roundNumber=round.roundNumber := by
  unfold checkRoundEnd at h
  obtain ⟨winner,-,rfl⟩ := Option.map_eq_some_iff.mp h
  rfl

/-- The rows once the result of a round and the score of the match are in them. -/
theorem writeAll_roundWrites (h : Tidy game turns ending held service)
    (hround : held.state.currentRound=some round)
    (hrow : lookup service game.gameId round.roundNumber=[row]) (state : GameState) :
    service.db.writeAll (roundWrites submit row matchRow report result state)=
      ⟨rescored submit.gameId (changed matchRow.roundsWonP1 state.roundsWonP1)
          (changed matchRow.roundsWonP2 state.roundsWonP2) service.db.matchRows,
        service.db.roundRows.map (finished row result),
        service.db.turnRows++[⟨row.id,report.turnResult⟩],service.db.players⟩ := by
  obtain ⟨-,-,hstanding,-,-⟩ := h.lookup_open hround hrow
  obtain ⟨hin,hmatch,-⟩ := mem_of_lookup hrow
  have hwinner : row.winner=none := congrArg (fun standing => standing.2.1) hstanding
  have hrows : service.db.roundRows.map (fun other =>
      if other.id=row.id then
        {other with
          winner := (if row.winner=some result.winner then none else some result.winner).or
            other.winner
          totalTurns := (changed row.totalTurns result.totalTurns).getD other.totalTurns}
      else other)=service.db.roundRows.map (finished row result) := by
    refine List.map_congr_left fun other hother => ?_
    unfold finished
    split
    · next hid =>
      rw [h.keyed row hin hmatch other hother hid,changed_getD,hwinner]
      rfl
    · rfl
  rw [←hrows]
  rfl

/-- What a turn leaves behind that has been played alone. -/
structure Advanced (game : NewGame) (turns : List (ℤ×TurnResult))
    (ending : Option (UUID×RoundWinner)) (service : Service) (submit : Submit) (number : ℤ)
    (report : TurnReport) (held' : Held) (service' : Service) : Prop where
  /-- The rows say what has been played. -/
  tidy : Tidy game (turns++[(number,report.turnResult)])
    (ending.or (report.matchResult.map fun result => (submit.playerId,result.winner)))
    held' service'
  /-- The request adds no key but its own one. -/
  keys : ∀ row∈service'.db.roundRows,
    row.id=submit.roundId ∨ ∃ row'∈service.db.roundRows,row'.id=row.id
  /-- In a round that goes on it adds a turn. -/
  goesOn : report.roundResult=none → service'.db.roundRows=service.db.roundRows ∧
    held'.state.currentRound.map RoundState.roundNumber=some number
  /-- A round that is over is behind the game. -/
  closes : report.roundResult≠none → Past held'.state number

/-- The turn is played inside a round. -/
theorem advanced_roundGoesOn (h : Tidy game turns ending held service)
    (hround : held.state.currentRound=some round)
    (hrow : lookup service game.gameId round.roundNumber=[row])
    (hnext : checkRoundEnd (nextTurn round p1Action p2Action)
      (nextRound round p1Action p2Action)=none) (held' : Held)
    (hheld : held'={held with
      state := {held.state with currentRound := some (nextRound round p1Action p2Action)}
      active := true}) :
    Advanced game turns ending service submit round.roundNumber
      ⟨nextTurn round p1Action p2Action,none,none⟩ held'
      ⟨(service.hold game.gameId held').games,
        service.db.writeAll (turnWrites row ⟨nextTurn round p1Action p2Action,none,none⟩)⟩ := by
  subst hheld
  obtain ⟨hin,hmatch,hnumber⟩ := mem_of_lookup hrow
  have hstatus := h.inProgress hround
  have hnumbered : (nextRound round p1Action p2Action).roundNumber=round.roundNumber := rfl
  obtain ⟨accepted,hinvariant⟩ := h.invariant
  have haccepted := (Accepted.roundGoesOn round hround hnext).invariant hinvariant hstatus
  have hover : ending.or none=ending := by
    cases ending <;> rfl
  have hkept : Kept game (turns++[(round.roundNumber,nextTurn round p1Action p2Action)]) ending
      ⟨(service.hold game.gameId {held with
          state := {held.state with currentRound := some (nextRound round p1Action p2Action)}
          active := true}).games,
        service.db.writeAll (turnWrites row ⟨nextTurn round p1Action p2Action,none,none⟩)⟩ := by
    refine ⟨?_,⟨_,Function.update_self _ _ _,?_⟩,⟨_,Function.update_self _ _ _,h.ended⟩,
      h.kept.players⟩
    · exact kept_turnRows h (fun row hrow => ⟨row,hrow,rfl,rfl,rfl⟩) hin hmatch hnumber rfl
    · have hrows := h.roundRows
      rw [hround] at hrows
      exact hrows
  refine ⟨⟨Function.update_self _ _ _,fun _ => rfl,⟨_,haccepted⟩,h.numbers,h.matchRow,h.keyed,?_⟩,
    ?_,?_,?_⟩
  · rw [Option.map_none,hover]
    exact hkept
  · exact fun row hrow => .inr ⟨row,hrow,rfl⟩
  · exact fun _ => ⟨rfl,rfl⟩
  · exact fun hover => absurd rfl hover

/-- The new rows of rounds are one at most, which has the key of the request. -/
def Opens (game : NewGame) (submit : Submit) (service : Service) (state' : GameState)
    (opened : List RoundRow) : Prop :=
  opened=[] ∧ state'.currentRound=none ∨
    ∃ next,state'.currentRound=some next ∧
      opened=[⟨submit.roundId,game.gameId,next.roundNumber,none,0⟩] ∧
      ∀ row∈service.db.roundRows,row.id≠submit.roundId

/-- Such a row says what the open round says. -/
theorem Opens.standing {opened : List RoundRow} (h : Opens game submit service state' opened) :
    (opened.filter (·.matchId=game.gameId)).map standing=
      (state'.currentRound.map fun round => (round.roundNumber,none,0)).toList := by
  obtain ⟨rfl,hnone⟩ | ⟨next,hnext,rfl,-⟩ := h
  · rw [hnone]
    rfl
  · rw [hnext]
    simp

/-- The keys are still unambiguous. -/
theorem Opens.keyed {opened : List RoundRow} (hopens : Opens game submit service state' opened)
    (h : Tidy game turns ending held service) :
    ∀ row'∈service.db.roundRows.map (finished row result)++opened,row'.matchId=game.gameId →
      ∀ row''∈service.db.roundRows.map (finished row result)++opened,row''.id=row'.id →
        row''=row' := by
  obtain ⟨rfl,-⟩ | ⟨next,-,rfl,hfresh⟩ := hopens
  · rw [List.append_nil]
    exact finished_keyed h
  · have hold : ∀ other∈service.db.roundRows.map (finished row result),other.id≠submit.roundId := by
      intro other hother
      obtain ⟨old,hold,rfl⟩ := List.mem_map.mp hother
      rw [finished_id]
      exact hfresh old hold
    intro row' hrow' hmatch row'' hrow'' hid
    obtain hrow' | hrow' := List.mem_append.mp hrow'
    · obtain hrow'' | hrow'' := List.mem_append.mp hrow''
      · exact finished_keyed h row' hrow' hmatch row'' hrow'' hid
      · rw [List.mem_singleton.mp hrow''] at hid
        exact absurd hid.symm (hold row' hrow')
    · obtain hrow'' | hrow'' := List.mem_append.mp hrow''
      · rw [List.mem_singleton.mp hrow'] at hid
        exact absurd hid (hold row'' hrow'')
      · rw [List.mem_singleton.mp hrow',List.mem_singleton.mp hrow'']

/-- The turn ends its round. -/
theorem advanced_closes {held' : Held} {opened : List RoundRow} {db' : Database}
    {games' : UUID → Option Held} (h : Tidy game turns ending held service)
    (hround : held.state.currentRound=some round)
    (hrow : lookup service game.gameId round.roundNumber=[row])
    (haccepted : Accepted held.state p1Action p2Action held'.state report)
    (hreport : report.roundResult=some result) (hresult : result.roundNumber=round.roundNumber)
    (hresults : held'.state.roundResults=held.state.roundResults++[result])
    (hopens : Opens game submit service held'.state opened)
    (hpast : Past held'.state round.roundNumber)
    (hmemory : games' game.gameId=some held')
    (hactive : held'.state.status=.inProgress → held'.active=true)
    (hmatchRow : ∃ row,(db'.matchRows.find? fun row => row.id=game.gameId)=some row)
    (hrounds : db'.roundRows=service.db.roundRows.map (finished row result)++opened)
    (hturns : db'.turnRows=service.db.turnRows++[⟨row.id,report.turnResult⟩])
    (hplayers : db'.players=credited game.before.db.players
      (ending.or (report.matchResult.map fun result => (submit.playerId,result.winner)))) :
    Advanced game turns ending service submit round.roundNumber report held' ⟨games',db'⟩ := by
  obtain ⟨hin,hmatch,hnumber⟩ := mem_of_lookup hrow
  have hstatus := h.inProgress hround
  obtain ⟨accepted,hinvariant⟩ := h.invariant
  have hlength : held'.state.roundResults.length=held.state.roundResults.length+1 := by
    rw [hresults,List.length_append,List.length_singleton]
  have hending := unended h hstatus
  have hkeys : ∀ row∈service.db.roundRows,∃ row'∈db'.roundRows,row'.id=row.id ∧
      row'.matchId=row.matchId ∧ row'.roundNumber=row.roundNumber := by
    intro other hother
    refine ⟨finished row result other,?_,finished_id _,finished_matchId _,finished_roundNumber _⟩
    rw [hrounds]
    exact List.mem_append_left _ (List.mem_map_of_mem hother)
  have hkept : Kept game (turns++[(round.roundNumber,report.turnResult)])
      (ending.or (report.matchResult.map fun result => (submit.playerId,result.winner)))
      ⟨games',db'⟩ := by
    refine ⟨?_,⟨held',hmemory,?_⟩,⟨held',hmemory,?_⟩,hplayers⟩
    · exact kept_turnRows h hkeys hin hmatch hnumber hturns
    · rw [hrounds,List.filter_append,List.map_append,hresults,List.map_append]
      have hrest := hopens.standing
      rw [hrest,finished_rows h hround hrow,List.map_singleton,hresult]
    · rw [hending,Option.none_or,Option.isSome_map]
      exact (haccepted.closes_iff hstatus).symm
  refine ⟨⟨hmemory,hactive,⟨_,haccepted.invariant hinvariant hstatus⟩,?_,hmatchRow,?_,hkept⟩,?_,?_,?_⟩
  · intro other hother
    rw [hresults] at hother
    obtain hold | hnew := List.mem_append.mp hother
    · have hle := h.numbers other hold
      omega
    · have hopen := h.numbered hround
      rw [List.mem_singleton.mp hnew]
      omega
  · dsimp only
    rw [hrounds]
    exact hopens.keyed h
  · intro other hother
    dsimp only at hother
    rw [hrounds] at hother
    obtain hold | hnew := List.mem_append.mp hother
    · obtain ⟨old,hin,rfl⟩ := List.mem_map.mp hold
      exact .inr ⟨old,hin,(finished_id old).symm⟩
    · obtain ⟨rfl,-⟩ | ⟨next,-,rfl,-⟩ := hopens
      · cases hnew
      · rw [List.mem_singleton.mp hnew]
        exact .inl rfl
  · intro hnone
    cases hreport.symm.trans hnone
  · exact fun _ => hpast

/-- Writes one after another. -/
theorem writeAll_append (db : Database) (writes writes' : List Write) :
    db.writeAll (writes++writes')=(db.writeAll writes).writeAll writes' :=
  List.foldl_append

/-- The turn ends its round, and the next one begins. -/
theorem advanced_roundCloses (h : Tidy game turns ending held service)
    (hgame : submit.gameId=game.gameId) (hround : held.state.currentRound=some round)
    (hrow : lookup service game.gameId round.roundNumber=[row])
    (hfresh : ∀ row∈service.db.roundRows,row.id≠submit.roundId)
    (hmatchRow : (service.db.matchRows.find? fun row => row.id=game.gameId)=some matchRow)
    (hover : checkRoundEnd (nextTurn round p1Action p2Action)
      (nextRound round p1Action p2Action)=some result)
    (hgoesOn : checkMatchEnd (closedState held.state result)=none) (held' : Held)
    (hheld : held'={held with
      state := {closedState held.state result with
        currentRound := some ⟨held.state.roundResults.length+2,0,0,0,[]⟩}}) :
    Advanced game turns ending service submit round.roundNumber
      ⟨nextTurn round p1Action p2Action,some result,none⟩ held'
      ⟨(service.hold game.gameId held').games,
        service.db.writeAll (roundWrites submit row matchRow
          ⟨nextTurn round p1Action p2Action,some result,none⟩ result held'.state++
            [.insertRound ⟨submit.roundId,submit.gameId,held.state.roundResults.length+2,none,0⟩])⟩ := by
  subst hheld
  have haccepted := Accepted.roundCloses round hround result hover hgoesOn
  have hending : ending.or none=ending := by
    cases ending <;> rfl
  rw [writeAll_append,writeAll_roundWrites h hround hrow]
  refine advanced_closes h hround hrow haccepted rfl (roundNumber_of_checkRoundEnd hover) rfl
    (.inr ⟨_,rfl,?_,hfresh⟩) ?_ (Function.update_self _ _ _) ?_ ?_ rfl rfl ?_
  · rw [hgame]
  · intro next hnext
    have hopen := h.numbered hround
    cases hnext
    dsimp only
    omega
  · exact fun _ => h.active (h.inProgress hround)
  · rw [hgame]
    exact find_updated (fun _ => rfl) ⟨matchRow,hmatchRow⟩
  · rw [Option.map_none,hending]
    exact h.kept.players

/-- The turn ends the match. -/
theorem advanced_matchCloses (h : Tidy game turns ending held service)
    (hgame : submit.gameId=game.gameId) (hround : held.state.currentRound=some round)
    (hrow : lookup service game.gameId round.roundNumber=[row])
    (hplayer : game.before.db.players submit.playerId=some player)
    (hmatchRow : (service.db.matchRows.find? fun row => row.id=game.gameId)=some matchRow)
    (hover : checkRoundEnd (nextTurn round p1Action p2Action)
      (nextRound round p1Action p2Action)=some result) {matchResult : MatchResult}
    (hends : checkMatchEnd (closedState held.state result)=some matchResult) (held' : Held)
    (hheld : held'={held with
      state := {closedState held.state result with status := .completed},active := false}) :
    Advanced game turns ending service submit round.roundNumber
      ⟨nextTurn round p1Action p2Action,some result,some matchResult⟩ held'
      ⟨(service.hold game.gameId held').games,
        service.db.writeAll (matchWrites submit player row matchRow
          ⟨nextTurn round p1Action p2Action,some result,some matchResult⟩ result held'.state
            matchResult.winner)⟩ := by
  subst hheld
  have haccepted := Accepted.matchCloses round hround result hover matchResult hends
  have hending := unended h (h.inProgress hround)
  rw [matchWrites,writeAll_append,writeAll_append,writeAll_roundWrites h hround hrow]
  have hopens : Opens game submit service
      {closedState held.state result with status := .completed} [] := .inl ⟨rfl,rfl⟩
  refine advanced_closes h hround hrow haccepted rfl
    (roundNumber_of_checkRoundEnd hover) rfl hopens (fun next hnext => by cases hnext)
    (Function.update_self _ _ _) (fun hstatus => by cases hstatus) ?_ ?_ rfl ?_
  · rw [hgame]
    exact find_updated (fun _ => rfl) (find_updated (fun _ => rfl) ⟨matchRow,hmatchRow⟩)
  · exact (List.append_nil _).symm
  · have hplayers := h.kept.players
    rw [hending] at hplayers ⊢
    change Function.update service.db.players submit.playerId
      ((service.db.players submit.playerId).map fun stats =>
        stats.set matchResult.winner (player.count matchResult.winner+1))=_
    rw [hplayers]
    simp only [credited,Option.none_or,Option.map_some,hplayer]

/-- The game that has been put back. -/
theorem hold_games (hgame : submit.gameId=game.gameId) :
    (service.hold game.gameId held).games submit.gameId=some held := by
  rw [hgame]
  exact Function.update_self _ _ _

/-- A request that is served alone plays its turn, and the rows say what has been played. -/
theorem advance (h : Tidy game turns ending held service) (hgame : submit.gameId=game.gameId)
    (hplayer : game.before.db.players submit.playerId=some player)
    (hchecked : checked service submit=.ok (number,aiAction))
    (hrow : lookup service game.gameId number=[row])
    (hfresh : ∀ row∈service.db.roundRows,row.id≠submit.roundId)
    (hresolved : resolved service submit aiAction=(service',.ok report)) :
    ∃ held' service'',service'.db=service.db ∧
      (service'.games game.gameId).map Held.state=some held'.state ∧
      (held.state.status=.inProgress ∧ held.state.currentRound.map RoundState.roundNumber=
        some number) ∧
      alone (afterTurn submit player row report) [] service'=(service'',.ok ()) ∧
      Advanced game turns ending service submit number report held' service'' := by
  obtain ⟨held₁,difficulty,round,hheld,hactive,hstatus,-,hround,-,-,rfl⟩ := checked_ok hchecked
  rw [hgame,h.inMemory] at hheld
  cases hheld
  obtain ⟨matchRow,hmatchRow⟩ := h.matchRow
  have hloaded : (service.db.matchRows.find? fun row => row.id=submit.gameId)=some matchRow := by
    rw [hgame]
    exact hmatchRow
  have hopen : held.state.currentRound.map RoundState.roundNumber=some round.roundNumber := by
    rw [hround]
    rfl
  have hstats : service.db.players submit.playerId=some player := by
    rw [h.kept.players,unended h hstatus]
    exact hplayer
  simp only [resolved,hgame,h.inMemory] at hresolved
  obtain ⟨e,hturn,-⟩ | ⟨-,round',state',report',-,-,hturn,haccepted⟩ :=
    submitTurn_cases held.state submit.action aiAction
  · rw [hturn] at hresolved
    cases hresolved
  · rw [hturn] at hresolved
    cases hresolved
    cases haccepted with
    | roundGoesOn round'' hround'' hnext =>
      cases hround.symm.trans hround''
      refine ⟨_,_,rfl,?_,⟨hstatus,hopen⟩,alone_roundGoesOn rfl rfl,
        advanced_roundGoesOn h hround hrow hnext _ rfl⟩
      simp only [Service.hold,Function.update_self,Option.map_some]
    | roundCloses round'' hround'' result hover hgoesOn =>
      cases hround.symm.trans hround''
      refine ⟨_,_,rfl,?_,⟨hstatus,hopen⟩,
        alone_roundCloses (hold_games hgame) hactive rfl rfl rfl hloaded hfresh,
        advanced_roundCloses h hgame hround hrow hfresh hmatchRow hover hgoesOn _ rfl⟩
      simp only [Service.hold,Function.update_self,Option.map_some]
    | matchCloses round'' hround'' result hover matchResult hends =>
      cases hround.symm.trans hround''
      have hsame : ((service.hold game.gameId {held with
          state := {closedState held.state result with status := .completed}}).hold submit.gameId
            {held with
              state := {closedState held.state result with status := .completed}
              active := false}).games=
          (service.hold game.gameId {held with
            state := {closedState held.state result with status := .completed}
            active := false}).games := by
        rw [hgame]
        exact Function.update_idem _ _ _
      have hadvanced := advanced_matchCloses h hgame hround hrow hplayer hmatchRow hover hends _ rfl
      rw [←hsame] at hadvanced
      refine ⟨_,_,rfl,?_,⟨hstatus,hopen⟩,
        alone_matchCloses (hold_games hgame) hactive rfl rfl hloaded hstats,hadvanced⟩
      simp only [Service.hold,Function.update_self,Option.map_some]

end Turns

end KiClash.GameServiceTurns

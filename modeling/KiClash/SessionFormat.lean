import KiClash.GoSession
import KiClash.Identifiers
import KiClash.JsonValues

/-!
# The stored session as JSON

What encoding/json makes of the structs of go-server/types.go, and what the
pydantic models of app/core/game_engine/types.py and app/core/game_store.py
read. Both sides agree about what a JSON text says, so the text is left out.
The lax mode of pydantic also reads an integer or a boolean from some other
kinds of values; neither server writes these fields so, and they are refused
here. Unknown fields are ignored.
-/

namespace KiClash.SessionFormat

open JsonValues EngineTypes GameStore

section Go

/-- The JSON of a slice; nil is null. -/
def marshalSlice {α : Type} (marshal : α → Json) : GoTypes.Slice α → Json
  | none => .null
  | some elements => .arr (elements.map marshal)

/-- The JSON of a pointer. -/
def marshalPointer {α : Type} (marshal : α → Json) : Option α → Json
  | none => .null
  | some value => marshal value

/-- The JSON of a TurnResult. -/
def marshalTurnResult (tr : GoTypes.TurnResult) : Json :=
  .obj [("turn_number",.num tr.turnNumber),
    ("p1_action",.str tr.p1Action),
    ("p2_action",.str tr.p2Action),
    ("outcome",.str tr.outcome),
    ("p1_ki_before",.num tr.p1KiBefore),
    ("p2_ki_before",.num tr.p2KiBefore),
    ("p1_ki_after",.num tr.p1KiAfter),
    ("p2_ki_after",.num tr.p2KiAfter)]

/-- The JSON of a RoundState. -/
def marshalRoundState (cr : GoTypes.RoundState) : Json :=
  .obj [("round_number",.num cr.roundNumber),
    ("p1_ki",.num cr.p1Ki),
    ("p2_ki",.num cr.p2Ki),
    ("turn_number",.num cr.turnNumber),
    ("turn_history",marshalSlice marshalTurnResult cr.turnHistory)]

/-- The JSON of a RoundResult. -/
def marshalRoundResult (rr : GoTypes.RoundResult) : Json :=
  .obj [("round_number",.num rr.roundNumber),
    ("winner",.str rr.winner),
    ("total_turns",.num rr.totalTurns),
    ("final_p1_ki",.num rr.finalP1Ki),
    ("final_p2_ki",.num rr.finalP2Ki)]

/-- The JSON of a GameState. -/
def marshalGameState (gs : GoTypes.GameState) : Json :=
  .obj [("game_id",.str gs.gameId),
    ("match_type",.str gs.matchType),
    ("status",.str gs.status),
    ("rounds_won_p1",.num gs.roundsWonP1),
    ("rounds_won_p2",.num gs.roundsWonP2),
    ("current_round",marshalPointer marshalRoundState gs.currentRound),
    ("round_results",marshalSlice marshalRoundResult gs.roundResults)]

/-- The JSON of a PvPSession. -/
def marshalSession (sess : GoTypes.PvPSession) : Json :=
  .obj [("game_state",marshalGameState sess.gameState),
    ("player1_id",.str sess.player1Id),
    ("player2_id",.str sess.player2Id),
    ("connected_players",marshalSlice .str sess.connectedPlayers),
    ("started",.bool sess.started),
    ("p1_action",marshalPointer .str sess.p1Action),
    ("p2_action",marshalPointer .str sess.p2Action)]

end Go

section Python

/-- A member of an enumeration by its value. -/
def enumMember {α : Type} (members : List α) (value : α → String) : Decoder α :=
  textual fun text => members.find? fun a => value a=text

/-- An Action. -/
def action : Decoder Action := textual Action.ofValue?

/-- A TurnOutcome. -/
def turnOutcome : Decoder TurnOutcome :=
  enumMember [.p1WinsRound,.p2WinsRound,.clash,.blocked,.dodged,.neutral] TurnOutcome.value

/-- A MatchType. -/
def matchType : Decoder MatchType :=
  enumMember [.aiNovice,.aiEasy,.aiMedium,.aiHard,.aiExpert,.aiGrandmaster,.pvp] MatchType.value

/-- A MatchStatus. -/
def matchStatus : Decoder MatchStatus :=
  enumMember [.inProgress,.completed,.abandoned] MatchStatus.value

/-- A RoundWinner. -/
def roundWinner : Decoder RoundWinner := enumMember [.p1,.p2,.draw] RoundWinner.value

/-- A UUID. -/
def uuid : Decoder UUID := textual Identifiers.uuid?

/-- The model TurnResult. -/
def turnResult : Decoder TurnResult := fun json => do
  let turnNumber ← required "turn_number" integer json
  let p1Action ← required "p1_action" action json
  let p2Action ← required "p2_action" action json
  let outcome ← required "outcome" turnOutcome json
  let p1KiBefore ← required "p1_ki_before" integer json
  let p2KiBefore ← required "p2_ki_before" integer json
  let p1KiAfter ← required "p1_ki_after" integer json
  let p2KiAfter ← required "p2_ki_after" integer json
  pure ⟨turnNumber,p1Action,p2Action,outcome,p1KiBefore,p2KiBefore,p1KiAfter,p2KiAfter⟩

/-- The model RoundState with its field constraints. -/
def roundState : Decoder RoundState := fun json => do
  let roundNumber ← required "round_number" integer json
  let p1Ki ← defaulted "p1_ki" 0 integer json
  let p2Ki ← defaulted "p2_ki" 0 integer json
  let turnNumber ← defaulted "turn_number" 0 integer json
  let turnHistory ← defaulted "turn_history" [] (listOf turnResult) json
  checked RoundState.Valid ⟨roundNumber,p1Ki,p2Ki,turnNumber,turnHistory⟩

/-- The model RoundResult. -/
def roundResult : Decoder RoundResult := fun json => do
  let roundNumber ← required "round_number" integer json
  let winner ← required "winner" roundWinner json
  let totalTurns ← required "total_turns" integer json
  let finalP1Ki ← required "final_p1_ki" integer json
  let finalP2Ki ← required "final_p2_ki" integer json
  pure ⟨roundNumber,winner,totalTurns,finalP1Ki,finalP2Ki⟩

/-- The field constraints of GameState. -/
def ValidScore (state : GameState) : Prop :=
  (0≤ state.roundsWonP1 ∧ state.roundsWonP1≤roundsToWin) ∧
    (0≤ state.roundsWonP2 ∧ state.roundsWonP2≤roundsToWin)

instance : DecidablePred ValidScore := fun _ => inferInstanceAs (Decidable ((_ ∧ _) ∧ (_ ∧ _)))

/-- The model GameState; uuid4 is called when there is no identifier. -/
def gameState (uuid4 : UUID) : Decoder GameState := fun json => do
  let gameId ← defaulted "game_id" uuid4 uuid json
  let matchType ← required "match_type" matchType json
  let status ← defaulted "status" .inProgress matchStatus json
  let roundsWonP1 ← defaulted "rounds_won_p1" 0 integer json
  let roundsWonP2 ← defaulted "rounds_won_p2" 0 integer json
  let currentRound ← defaulted "current_round" none (nullable roundState) json
  let roundResults ← defaulted "round_results" [] (listOf roundResult) json
  checked ValidScore
    ⟨gameId,matchType,status,roundsWonP1,roundsWonP2,currentRound,roundResults⟩

/-- PvPSessionState.model_validate_json. -/
def pvpSessionState (uuid4 : UUID) : Decoder PvPSessionState := fun json => do
  let gameState ← required "game_state" (gameState uuid4) json
  let player1Id ← required "player1_id" uuid json
  let player2Id ← required "player2_id" uuid json
  let connectedPlayers ← defaulted "connected_players" [] (listOf uuid) json
  let started ← defaulted "started" false boolean json
  let p1Action ← defaulted "p1_action" none (nullable action) json
  let p2Action ← defaulted "p2_action" none (nullable action) json
  pure ⟨gameState,player1Id,player2Id,connectedPlayers,started,p1Action,p2Action⟩

end Python

section RoundTrips

open EngineSimulation GoSession

/-- Enumerations are read back. -/
@[simp] theorem action_value (a : Action) : action (.str a.value)=some a := Action.ofValue?_value a

@[simp] theorem turnOutcome_value (outcome : TurnOutcome) :
    turnOutcome (.str outcome.value)=some outcome := by
  cases outcome <;> decide

@[simp] theorem matchType_value (type : MatchType) : matchType (.str type.value)=some type := by
  cases type <;> decide

@[simp] theorem matchStatus_value (status : MatchStatus) :
    matchStatus (.str status.value)=some status := by
  cases status <;> decide

@[simp] theorem roundWinner_value (winner : RoundWinner) :
    roundWinner (.str winner.value)=some winner := by
  cases winner <;> decide

@[simp] theorem uuid_text (id : UUID) : uuid (.str id.text)=some id := Identifiers.uuid_text id

/-- A turn is read back. -/
theorem turnResult_marshal (result : TurnResult) :
    turnResult (marshalTurnResult (goTurnResult result))=some result := by
  simp [turnResult,marshalTurnResult,goTurnResult,required,member,List.lookup_cons,integer]

/-- A finished round is read back. -/
theorem roundResult_marshal (result : RoundResult) :
    roundResult (marshalRoundResult (goRoundResult result))=some result := by
  simp [roundResult,marshalRoundResult,goRoundResult,required,member,List.lookup_cons,integer]

/-- The history is read back. -/
theorem turnHistory_marshal (history : List TurnResult) :
    listOf turnResult (marshalSlice marshalTurnResult (some (history.map goTurnResult)))=
      some history := by
  rw [marshalSlice,List.map_map]
  exact listOf_map fun result _ => turnResult_marshal result

/-- The open round is read back if it is within its bounds. -/
theorem roundState_marshal {round : RoundState} (h : round.Valid) :
    roundState (marshalRoundState (goRoundState round))=some round := by
  have hhistory := turnHistory_marshal round.turnHistory
  simp [roundState,marshalRoundState,goRoundState,required,defaulted,member,List.lookup_cons,integer,hhistory,
    checked_of_valid h]

/-- The bounds of a stored match. -/
structure InBounds (state : GameState) : Prop where
  /-- The score. -/
  score : ValidScore state
  /-- The open round. -/
  round : ∀ round,state.currentRound=some round → round.Valid

/-- What passes a check satisfies the constraint. -/
theorem valid_of_checked {α : Type} {valid : α → Prop} [DecidablePred valid] {value value' : α}
    (h : checked valid value=some value') : valid value' := by
  unfold checked at h
  split at h
  · next hvalid =>
    cases h
    exact hvalid
  · cases h

/-- An open round that has been read is within its bounds. -/
theorem valid_of_roundState {json : Json} {round : RoundState} (h : roundState json=some round) :
    round.Valid := by
  simp only [roundState,Option.bind_eq_bind,Option.bind_eq_some_iff] at h
  obtain ⟨_,-,_,-,_,-,_,-,_,-,hchecked⟩ := h
  exact valid_of_checked hchecked

/-- A match that has been read is within its bounds. -/
theorem inBounds_of_gameState {uuid4 : UUID} {json : Json} {state : GameState}
    (h : gameState uuid4 json=some state) : InBounds state := by
  simp only [gameState,Option.bind_eq_bind,Option.bind_eq_some_iff] at h
  obtain ⟨gameId,-,matchType,-,status,-,won₁,-,won₂,-,currentRound,hround,results,-,hchecked⟩ := h
  refine ⟨valid_of_checked hchecked,fun round hr => ?_⟩
  have hcurrent : state.currentRound=currentRound := by
    unfold checked at hchecked
    split at hchecked <;> cases hchecked
    rfl
  rw [← hcurrent,hr] at hround
  unfold defaulted at hround
  cases hmember : member "current_round" json with
  | none => simp [hmember] at hround
  | some value =>
    rw [hmember] at hround
    change nullable roundState value=some (some round) at hround
    unfold nullable at hround
    split at hround
    · cases hround
    · obtain ⟨round',hread,he⟩ := Option.map_eq_some_iff.mp hround
      cases he
      exact valid_of_roundState hread

/-- A session that has been read is within its bounds. -/
theorem inBounds_of_session {uuid4 : UUID} {json : Json} {session : PvPSessionState}
    (h : pvpSessionState uuid4 json=some session) : InBounds session.gameState := by
  simp only [pvpSessionState,Option.bind_eq_bind,Option.bind_eq_some_iff] at h
  obtain ⟨gameState,hgame,_,-,_,-,_,-,_,-,_,-,_,-,hsession⟩ := h
  cases hsession
  unfold required at hgame
  obtain ⟨value,-,hread⟩ := Option.bind_eq_some_iff.mp hgame
  exact inBounds_of_gameState hread

/-- A match within its bounds is read back. -/
theorem gameState_marshal {state : GameState} (h : InBounds state) (uuid4 : UUID) :
    gameState uuid4 (marshalGameState (goGameState state))=some state := by
  have hresults : listOf roundResult (marshalSlice marshalRoundResult
      (some (state.roundResults.map goRoundResult)))=some state.roundResults := by
    rw [marshalSlice,List.map_map]
    exact listOf_map fun result _ => roundResult_marshal result
  have hround : nullable roundState (marshalPointer marshalRoundState
      (state.currentRound.map goRoundState))=some state.currentRound := by
    cases hr : state.currentRound with
    | none => rfl
    | some round => exact nullable_some nofun (roundState_marshal (h.round round hr))
  simp [gameState,marshalGameState,goGameState,required,defaulted,member,List.lookup_cons,integer,hresults,hround,
    checked_of_valid h.score]

/-- A session within its bounds is read back from what Go writes. -/
theorem session_marshal {session : PvPSessionState} (h : InBounds session.gameState)
    (uuid4 : UUID) :
    pvpSessionState uuid4 (marshalSession (goSession session))=some session := by
  have hgame := gameState_marshal h uuid4
  have hconnected : listOf uuid (marshalSlice .str (some (session.connectedPlayers.map UUID.text)))=
      some session.connectedPlayers := by
    rw [marshalSlice,List.map_map]
    exact listOf_map fun id _ => uuid_text id
  have hslot : ∀ slot : Option Action,
      nullable action (marshalPointer .str (slot.map Action.value))=some slot := by
    intro slot
    cases slot with
    | none => rfl
    | some a => exact nullable_some nofun (action_value a)
  simp [pvpSessionState,marshalSession,goSession,required,defaulted,member,List.lookup_cons,boolean,hgame,
    hconnected,hslot]

end RoundTrips

end KiClash.SessionFormat

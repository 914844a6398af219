import KiClash.SharedFormat

/-!
# The session codec across the two servers

What pydantic writes and encoding/json reads, next to what SessionFormat has of the
other direction. A session whose integers fit in 64 bits goes through both codecs
unchanged: Go writes what Python has written. The integers of a match that the engine
plays stay small, so every mutation of the Go server decodes what is stored, and what it
encodes is read by Python as the state that Go has. Go also takes a key whose letters
differ in case from the name of a field; neither server writes one.
-/

namespace KiClash.SessionCodec

open JsonValues EngineTypes OutcomeMatrix Engine EngineRuns EngineSimulation
open GameStore (PvPSessionState)
open GoSession SessionFormat

section Python

/-- What model_dump_json makes of a TurnResult. -/
def dumpTurnResult (result : TurnResult) : Json :=
  .obj [("turn_number",.num result.turnNumber),
    ("p1_action",.str result.p1Action.value),
    ("p2_action",.str result.p2Action.value),
    ("outcome",.str result.outcome.value),
    ("p1_ki_before",.num result.p1KiBefore),
    ("p2_ki_before",.num result.p2KiBefore),
    ("p1_ki_after",.num result.p1KiAfter),
    ("p2_ki_after",.num result.p2KiAfter)]

/-- What it makes of a RoundState. -/
def dumpRoundState (round : RoundState) : Json :=
  .obj [("round_number",.num round.roundNumber),
    ("p1_ki",.num round.p1Ki),
    ("p2_ki",.num round.p2Ki),
    ("turn_number",.num round.turnNumber),
    ("turn_history",.arr (round.turnHistory.map dumpTurnResult))]

/-- What it makes of a RoundResult. -/
def dumpRoundResult (result : RoundResult) : Json :=
  .obj [("round_number",.num result.roundNumber),
    ("winner",.str result.winner.value),
    ("total_turns",.num result.totalTurns),
    ("final_p1_ki",.num result.finalP1Ki),
    ("final_p2_ki",.num result.finalP2Ki)]

/-- A value that may be None. -/
def dumpOptional {α : Type} (dump : α → Json) : Option α → Json
  | none => .null
  | some value => dump value

/-- What it makes of a GameState. -/
def dumpGameState (state : GameState) : Json :=
  .obj [("game_id",.str state.gameId.text),
    ("match_type",.str state.matchType.value),
    ("status",.str state.status.value),
    ("rounds_won_p1",.num state.roundsWonP1),
    ("rounds_won_p2",.num state.roundsWonP2),
    ("current_round",dumpOptional dumpRoundState state.currentRound),
    ("round_results",.arr (state.roundResults.map dumpRoundResult))]

/-- PvPSessionState.model_dump_json. -/
def dumpSession (session : PvPSessionState) : Json :=
  .obj [("game_state",dumpGameState session.gameState),
    ("player1_id",.str session.player1Id.text),
    ("player2_id",.str session.player2Id.text),
    ("connected_players",.arr (session.connectedPlayers.map fun id => .str id.text)),
    ("started",.bool session.started),
    ("p1_action",dumpOptional (fun action => .str action.value) session.p1Action),
    ("p2_action",dumpOptional (fun action => .str action.value) session.p2Action)]

end Python

section Go

variable {α : Type}

/-- A number that fits in a Go int. -/
def FitsInt (value : ℤ) : Prop := -2^63≤value ∧ value<2^63

instance (value : ℤ) : Decidable (FitsInt value) := inferInstanceAs (Decidable (_ ∧ _))

/-- json.Unmarshal into an int; null leaves the zero value. -/
def unmarshalInt : Decoder ℤ
  | .null => some 0
  | .num value => checked FitsInt value
  | _ => none

/-- json.Unmarshal into a string. -/
def unmarshalString : Decoder String
  | .null => some ""
  | .str text => some text
  | _ => none

/-- json.Unmarshal into a bool. -/
def unmarshalBool : Decoder Bool
  | .null => some false
  | .bool value => some value
  | _ => none

/-- json.Unmarshal into a slice; null leaves it nil, and an empty array does not. -/
def unmarshalSlice (decode : Decoder α) : Decoder (GoTypes.Slice α)
  | .null => some none
  | .arr elements => (elements.mapM decode).map some
  | _ => none

/-- json.Unmarshal into a pointer. -/
def unmarshalPointer (decode : Decoder α) : Decoder (Option α) := nullable decode

/-- json.Unmarshal into a struct; null leaves the zero value, whose fields are the zero
values that absent fields have. -/
def unmarshalStruct (decode : Decoder α) : Decoder α
  | .null => decode .null
  | .obj fields => decode (.obj fields)
  | _ => none

/-- A TurnResult. -/
def unmarshalTurnResult : Decoder GoTypes.TurnResult := unmarshalStruct fun json => do
  let turnNumber ← defaulted "turn_number" 0 unmarshalInt json
  let p1Action ← defaulted "p1_action" "" unmarshalString json
  let p2Action ← defaulted "p2_action" "" unmarshalString json
  let outcome ← defaulted "outcome" "" unmarshalString json
  let p1KiBefore ← defaulted "p1_ki_before" 0 unmarshalInt json
  let p2KiBefore ← defaulted "p2_ki_before" 0 unmarshalInt json
  let p1KiAfter ← defaulted "p1_ki_after" 0 unmarshalInt json
  let p2KiAfter ← defaulted "p2_ki_after" 0 unmarshalInt json
  pure ⟨turnNumber,p1Action,p2Action,outcome,p1KiBefore,p2KiBefore,p1KiAfter,p2KiAfter⟩

/-- A RoundState. -/
def unmarshalRoundState : Decoder GoTypes.RoundState := unmarshalStruct fun json => do
  let roundNumber ← defaulted "round_number" 0 unmarshalInt json
  let p1Ki ← defaulted "p1_ki" 0 unmarshalInt json
  let p2Ki ← defaulted "p2_ki" 0 unmarshalInt json
  let turnNumber ← defaulted "turn_number" 0 unmarshalInt json
  let turnHistory ← defaulted "turn_history" none (unmarshalSlice unmarshalTurnResult) json
  pure ⟨roundNumber,p1Ki,p2Ki,turnNumber,turnHistory⟩

/-- A RoundResult. -/
def unmarshalRoundResult : Decoder GoTypes.RoundResult := unmarshalStruct fun json => do
  let roundNumber ← defaulted "round_number" 0 unmarshalInt json
  let winner ← defaulted "winner" "" unmarshalString json
  let totalTurns ← defaulted "total_turns" 0 unmarshalInt json
  let finalP1Ki ← defaulted "final_p1_ki" 0 unmarshalInt json
  let finalP2Ki ← defaulted "final_p2_ki" 0 unmarshalInt json
  pure ⟨roundNumber,winner,totalTurns,finalP1Ki,finalP2Ki⟩

/-- A GameState. -/
def unmarshalGameState : Decoder GoTypes.GameState := unmarshalStruct fun json => do
  let gameId ← defaulted "game_id" "" unmarshalString json
  let matchType ← defaulted "match_type" "" unmarshalString json
  let status ← defaulted "status" "" unmarshalString json
  let roundsWonP1 ← defaulted "rounds_won_p1" 0 unmarshalInt json
  let roundsWonP2 ← defaulted "rounds_won_p2" 0 unmarshalInt json
  let currentRound ← defaulted "current_round" none (unmarshalPointer unmarshalRoundState) json
  let roundResults ← defaulted "round_results" none (unmarshalSlice unmarshalRoundResult) json
  pure ⟨gameId,matchType,status,roundsWonP1,roundsWonP2,currentRound,roundResults⟩

/-- The zero value of a GameState. -/
def zeroGameState : GoTypes.GameState := ⟨"","","",0,0,none,none⟩

/-- A PvPSession. -/
def unmarshalSession : Decoder GoTypes.PvPSession := unmarshalStruct fun json => do
  let gameState ← defaulted "game_state" zeroGameState unmarshalGameState json
  let player1Id ← defaulted "player1_id" "" unmarshalString json
  let player2Id ← defaulted "player2_id" "" unmarshalString json
  let connectedPlayers ← defaulted "connected_players" none (unmarshalSlice unmarshalString) json
  let started ← defaulted "started" false unmarshalBool json
  let p1Action ← defaulted "p1_action" none (unmarshalPointer unmarshalString) json
  let p2Action ← defaulted "p2_action" none (unmarshalPointer unmarshalString) json
  pure ⟨gameState,player1Id,player2Id,connectedPlayers,started,p1Action,p2Action⟩

end Go

section Integers

/-- The integers of a turn. -/
def turnIntegers (result : TurnResult) : List ℤ :=
  [result.turnNumber,result.p1KiBefore,result.p2KiBefore,result.p1KiAfter,result.p2KiAfter]

/-- The integers of an open round. -/
def roundIntegers (round : RoundState) : List ℤ :=
  [round.roundNumber,round.p1Ki,round.p2Ki,round.turnNumber]++
    round.turnHistory.flatMap turnIntegers

/-- The integers of a finished round. -/
def resultIntegers (result : RoundResult) : List ℤ :=
  [result.roundNumber,result.totalTurns,result.finalP1Ki,result.finalP2Ki]

/-- The integers of a match. -/
def gameIntegers (state : GameState) : List ℤ :=
  [state.roundsWonP1,state.roundsWonP2]++state.currentRound.elim [] roundIntegers++
    state.roundResults.flatMap resultIntegers

/-- All integers fit in 64 bits. -/
def Fits (session : PvPSessionState) : Prop := ∀ value∈gameIntegers session.gameState,FitsInt value

end Integers

section RoundTrips

/-- A number that fits is read as it is. -/
@[simp] theorem unmarshalInt_num {value : ℤ} (h : FitsInt value) :
    unmarshalInt (.num value)=some value := checked_of_valid h

/-- Slices are read element by element. -/
theorem unmarshalSlice_map {α β : Type} {decode : Decoder β} {encode : α → Json} {f : α → β}
    {values : List α} (h : ∀ value∈values,decode (encode value)=some (f value)) :
    unmarshalSlice decode (.arr (values.map encode))=some (some (values.map f)) := by
  have hlist : (values.map encode).mapM decode=some (values.map f) := by
    induction values with
    | nil => rfl
    | cons value values ih =>
      have hvalue := h value List.mem_cons_self
      have hvalues := ih fun value' hin => h value' (List.mem_cons_of_mem _ hin)
      simp [hvalue,hvalues]
  rw [unmarshalSlice,hlist]
  rfl

/-- Go reads a turn. -/
theorem unmarshalTurnResult_dump {result : TurnResult}
    (h : ∀ value∈turnIntegers result,FitsInt value) :
    unmarshalTurnResult (dumpTurnResult result)=some (goTurnResult result) := by
  simp only [turnIntegers,List.forall_mem_cons] at h
  obtain ⟨h₁,h₂,h₃,h₄,h₅,-⟩ := h
  simp [unmarshalTurnResult,unmarshalStruct,dumpTurnResult,goTurnResult,defaulted,member,
    List.lookup_cons,unmarshalString,h₁,h₂,h₃,h₄,h₅]

/-- Go reads a finished round. -/
theorem unmarshalRoundResult_dump {result : RoundResult}
    (h : ∀ value∈resultIntegers result,FitsInt value) :
    unmarshalRoundResult (dumpRoundResult result)=some (goRoundResult result) := by
  simp only [resultIntegers,List.forall_mem_cons] at h
  obtain ⟨h₁,h₂,h₃,h₄,-⟩ := h
  simp [unmarshalRoundResult,unmarshalStruct,dumpRoundResult,goRoundResult,defaulted,member,
    List.lookup_cons,unmarshalString,h₁,h₂,h₃,h₄]

/-- Go reads an open round. -/
theorem unmarshalRoundState_dump {round : RoundState}
    (h : ∀ value∈roundIntegers round,FitsInt value) :
    unmarshalRoundState (dumpRoundState round)=some (goRoundState round) := by
  simp only [roundIntegers,List.forall_mem_append,List.forall_mem_cons] at h
  obtain ⟨⟨h₁,h₂,h₃,h₄,-⟩,hturns⟩ := h
  have hhistory : unmarshalSlice unmarshalTurnResult (.arr (round.turnHistory.map dumpTurnResult))=
      some (some (round.turnHistory.map goTurnResult)) :=
    unmarshalSlice_map fun result hresult => unmarshalTurnResult_dump fun value hvalue =>
      hturns value (List.mem_flatMap.mpr ⟨result,hresult,hvalue⟩)
  simp [unmarshalRoundState,unmarshalStruct,dumpRoundState,goRoundState,defaulted,member,
    List.lookup_cons,hhistory,h₁,h₂,h₃,h₄]

/-- Go reads a match. -/
theorem unmarshalGameState_dump {state : GameState}
    (h : ∀ value∈gameIntegers state,FitsInt value) :
    unmarshalGameState (dumpGameState state)=some (goGameState state) := by
  simp only [gameIntegers,List.forall_mem_append,List.forall_mem_cons] at h
  obtain ⟨⟨⟨h₁,h₂,-⟩,hround⟩,hfinished⟩ := h
  have hresults : unmarshalSlice unmarshalRoundResult
      (.arr (state.roundResults.map dumpRoundResult))=
        some (some (state.roundResults.map goRoundResult)) :=
    unmarshalSlice_map fun result hresult => unmarshalRoundResult_dump fun value hvalue =>
      hfinished value (List.mem_flatMap.mpr ⟨result,hresult,hvalue⟩)
  have hcurrent : unmarshalPointer unmarshalRoundState
      (dumpOptional dumpRoundState state.currentRound)=
        some (state.currentRound.map goRoundState) := by
    cases hr : state.currentRound with
    | none => rfl
    | some round =>
      rw [hr] at hround
      exact nullable_some nofun (unmarshalRoundState_dump hround)
  simp [unmarshalGameState,unmarshalStruct,dumpGameState,goGameState,defaulted,member,
    List.lookup_cons,unmarshalString,hresults,hcurrent,h₁,h₂]

/-- Go reads a session that Python has written. -/
theorem unmarshalSession_dump {session : PvPSessionState} (h : Fits session) :
    unmarshalSession (dumpSession session)=some (goSession session) := by
  have hgame := unmarshalGameState_dump h
  have hconnected : unmarshalSlice unmarshalString
      (.arr (session.connectedPlayers.map fun id => .str id.text))=
        some (some (session.connectedPlayers.map UUID.text)) :=
    unmarshalSlice_map fun _ _ => rfl
  have hslot : ∀ slot : Option Action,unmarshalPointer unmarshalString
      (dumpOptional (fun action => .str action.value) slot)=some (slot.map Action.value) := by
    intro slot
    cases slot <;> rfl
  simp [unmarshalSession,unmarshalStruct,dumpSession,goSession,defaulted,member,
    List.lookup_cons,unmarshalString,unmarshalBool,hgame,hconnected,hslot]

/-- Go writes a match as Python does. -/
theorem marshalGameState_eq (state : GameState) :
    marshalGameState (goGameState state)=dumpGameState state := by
  have hturn : marshalTurnResult ∘ goTurnResult=dumpTurnResult := rfl
  have hresult : marshalRoundResult ∘ goRoundResult=dumpRoundResult := rfl
  have hround : ∀ round,marshalRoundState (goRoundState round)=dumpRoundState round := by
    intro round
    simp [marshalRoundState,goRoundState,dumpRoundState,marshalSlice,hturn]
  have hcurrent : marshalPointer marshalRoundState (state.currentRound.map goRoundState)=
      dumpOptional dumpRoundState state.currentRound := by
    cases state.currentRound with
    | none => rfl
    | some round => exact hround round
  simp [marshalGameState,goGameState,dumpGameState,marshalSlice,hresult,hcurrent]

/-- Go writes a session as Python does. -/
theorem marshalSession_eq (session : PvPSessionState) :
    marshalSession (goSession session)=dumpSession session := by
  have hgame := marshalGameState_eq session.gameState
  have hslot : ∀ slot : Option Action,marshalPointer .str (slot.map Action.value)=
      dumpOptional (fun action => .str action.value) slot := by
    intro slot
    cases slot <;> rfl
  have hconnected : marshalSlice .str (some (session.connectedPlayers.map UUID.text))=
      .arr (session.connectedPlayers.map fun id => .str id.text) := by
    simp [marshalSlice,Function.comp_def]
  simp only [marshalSession,goSession,dumpSession,hgame,hslot,hconnected]

/-- Python reads what Python has written. -/
theorem pvpSessionState_dump {session : PvPSessionState} (h : InBounds session.gameState)
    (uuid4 : UUID) : pvpSessionState uuid4 (dumpSession session)=some session := by
  rw [← marshalSession_eq]
  exact session_marshal h uuid4

end RoundTrips

/-- A mutation of the Go server, with what its closure has captured in earlier attempts. -/
inductive Mutation
  | connect (playerId : String) (captured : ConnectCaptured)
  | start (captured : StartCaptured)
  | submit (playerId : String) (action : Action) (captured : GoStore.SubmitCaptured)
  | resolve (p1 p2 : Action) (captured : ResolveCaptured)
  | disconnect (playerId : String) (captured : String)
  | forfeit

/-- What the mutator makes of a session. -/
def Mutation.mutate : Mutation → GoTypes.PvPSession → Except String GoTypes.PvPSession
  | .connect playerId captured,sess => (markConnected playerId captured sess).map Prod.snd
  | .start captured,sess => (markStarted captured sess).map Prod.snd
  | .submit playerId action captured,sess =>
    (storeAction playerId action.value captured sess).map Prod.snd
  | .resolve p1 p2 captured,sess =>
    (GoSession.applyTurn p1.value p2.value captured sess).map Prod.snd
  | .disconnect playerId captured,sess => (markDisconnected playerId captured sess).map Prod.snd
  | .forfeit,sess => (markAbandoned () sess).map Prod.snd

/-- watchAndUpdate on what is stored: decode, mutate, encode; a mutator that returns an
error writes nothing. -/
def Mutation.update (mutation : Mutation) (stored : Json) : Option Json :=
  (unmarshalSession stored).map fun sess =>
    match mutation.mutate sess with
    | .error _ => stored
    | .ok sess => marshalSession sess

/-- Mutations one after another. -/
def updates (stored : Json) : List Mutation → Option Json
  | [] => some stored
  | mutation::mutations => (mutation.update stored).bind fun stored => updates stored mutations

section Mutations

/-- An integer of a match that the engine plays. -/
def Small (value : ℤ) : Prop := 0≤value ∧ value≤20

/-- A match that the engine has played, or has played before it was abandoned. -/
structure Played (state : GameState) : Prop where
  /-- The engine has played it. -/
  played : ∃ before accepted,MatchInvariant before accepted ∧
    (state=before ∨ state={before with status := .abandoned})
  /-- Its integers are small. -/
  small : ∀ value∈gameIntegers state,Small value

/-- The image of a session whose match the engine has played. -/
def Shared (sess : GoTypes.PvPSession) : Prop :=
  ∃ session,sess=goSession session ∧ Played session.gameState

/-- Small integers fit. -/
theorem Played.fits {session : PvPSessionState} (h : Played session.gameState) :
    Fits session := by
  intro value hvalue
  have hsmall := h.small value hvalue
  unfold Small at hsmall
  unfold FitsInt
  omega

/-- A match that the engine has played is within its bounds. -/
theorem Played.inBounds {state : GameState} (h : Played state) : InBounds state := by
  obtain ⟨before,accepted,hinvariant,rfl | rfl⟩ := h.played
  · exact SharedFormat.inBounds_of_invariant hinvariant
  · have hbefore := SharedFormat.inBounds_of_invariant hinvariant
    exact ⟨hbefore.score,hbefore.round⟩

/-- A turn in an open round within its bounds has small integers. -/
theorem small_nextTurn {round : RoundState} {finished : ℕ} (h : RoundInvariant round finished)
    (p1Action p2Action : Action) :
    ∀ value∈turnIntegers (nextTurn round p1Action p2Action),Small value := by
  have hp₁ := h.p1Ki
  have hp₂ := h.p2Ki
  have hrecorded := h.recorded
  have hturns := h.turnsLeft
  have hki₁ := calculateKiAfter_bounds p1Action p2Action round.p1Ki
    (OutcomeMatrix.resolveActions p1Action p2Action)
  have hki₂ := calculateKiAfter_bounds p2Action p1Action round.p2Ki
    (OutcomeMatrix.resolveActions p1Action p2Action)
  simp only [turnIntegers,nextTurn,OutcomeMatrix.resolveTurn,List.forall_mem_cons,Small,kiCap,
    turnLimit] at *
  refine ⟨⟨?_,?_⟩,⟨?_,?_⟩,⟨?_,?_⟩,⟨?_,?_⟩,⟨?_,?_⟩,fun _ hin => absurd hin List.not_mem_nil⟩ <;>
    omega

/-- What has been recorded of a match has small integers. -/
structure SmallRecords (state : GameState) : Prop where
  /-- The turns of the open round. -/
  turns : ∀ round,state.currentRound=some round → ∀ result∈round.turnHistory,
    ∀ value∈turnIntegers result,Small value
  /-- The finished rounds. -/
  rounds : ∀ result∈state.roundResults,∀ value∈resultIntegers result,Small value

/-- The integers of a match are small when those of its records are. -/
theorem SmallRecords.small {state : GameState} (h : SmallRecords state) {accepted : ℕ}
    (hinvariant : MatchInvariant state accepted) : ∀ value∈gameIntegers state,Small value := by
  have hwon₁ := hinvariant.p1Score
  have hwon₂ := hinvariant.p2Score
  have htwo₁ := hinvariant.p1AtMostTwo
  have htwo₂ := hinvariant.p2AtMostTwo
  simp only [gameIntegers,List.forall_mem_append,List.forall_mem_cons,List.mem_flatMap,
    forall_exists_index,and_imp]
  refine ⟨⟨⟨?_,?_,fun _ hin => nomatch hin⟩,?_⟩,fun value result hin hvalue =>
    h.rounds result hin value hvalue⟩
  · unfold Small
    omega
  · unfold Small
    omega
  · cases hround : state.currentRound with
    | none => exact fun _ hin => nomatch hin
    | some round =>
      have hopen := hinvariant.openRound round hround
      have hnumbered := hopen.numbered
      have hthree := hopen.atMostThree
      have hki₁ := hopen.p1Ki
      have hki₂ := hopen.p2Ki
      have hrecorded := hopen.recorded
      have hlimit := hopen.turnsLeft
      simp only [Option.elim,roundIntegers,List.forall_mem_append,List.forall_mem_cons,
        List.mem_flatMap,forall_exists_index,and_imp,Small,kiCap,turnLimit] at *
      refine ⟨⟨?_,?_,?_,?_,fun _ hin => nomatch hin⟩,fun value result hin hvalue =>
        h.turns round hround result hin value hvalue⟩ <;> omega

/-- A finished round has small integers. -/
theorem small_roundResult {round : RoundState} {finished : ℕ} (h : RoundInvariant round finished)
    {p1Action p2Action : Action} {result : RoundResult}
    (hend : checkRoundEnd (nextTurn round p1Action p2Action) (nextRound round p1Action p2Action)=
      some result) : ∀ value∈resultIntegers result,Small value := by
  have hturn := small_nextTurn h p1Action p2Action
  have hnumbered := h.numbered
  have hthree := h.atMostThree
  obtain ⟨winner,-,rfl⟩ := Option.map_eq_some_iff.mp hend
  simp only [turnIntegers,resultIntegers,List.forall_mem_cons] at hturn ⊢
  obtain ⟨hnumber,-,-,hki₁,hki₂,-⟩ := hturn
  refine ⟨?_,hnumber,hki₁,hki₂,fun _ hin => nomatch hin⟩
  simp only [Small,nextRound,advanceRound]
  omega

/-- An accepted call records small integers. -/
theorem SmallRecords.accepted {state state' : GameState} (h : SmallRecords state) {accepted : ℕ}
    (hinvariant : MatchInvariant state accepted) {p1Action p2Action : Action} {report : TurnReport}
    (haccepted : Accepted state p1Action p2Action state' report) : SmallRecords state' := by
  cases haccepted with
  | roundGoesOn round hround hend =>
    refine ⟨?_,h.rounds⟩
    intro round' hround' result hresult
    cases hround'
    obtain hold | hnew := List.mem_append.mp hresult
    · exact h.turns round hround result hold
    · rw [List.mem_singleton.mp hnew]
      exact small_nextTurn (hinvariant.openRound round hround) p1Action p2Action
  | roundCloses round hround result hend =>
    refine ⟨?_,?_⟩
    · intro round' hround' result' hresult'
      cases hround'
      cases hresult'
    · intro result' hresult'
      obtain hold | hnew := List.mem_append.mp hresult'
      · exact h.rounds result' hold
      · rw [List.mem_singleton.mp hnew]
        exact small_roundResult (hinvariant.openRound round hround) hend
  | matchCloses round hround result hend =>
    refine ⟨(fun round' hround' => nomatch hround'),?_⟩
    intro result' hresult'
    obtain hold | hnew := List.mem_append.mp hresult'
    · exact h.rounds result' hold
    · rw [List.mem_singleton.mp hnew]
      exact small_roundResult (hinvariant.openRound round hround) hend

/-- Small integers have small records. -/
theorem smallRecords_of_small {state : GameState} (h : ∀ value∈gameIntegers state,Small value) :
    SmallRecords state := by
  constructor
  · intro round hround result hresult value hvalue
    apply h
    have hin : value∈roundIntegers round :=
      List.mem_append_right _ (List.mem_flatMap.mpr ⟨result,hresult,hvalue⟩)
    simp [gameIntegers,hround,hin]
  · intro result hresult value hvalue
    exact h value (List.mem_append_right _ (List.mem_flatMap.mpr ⟨result,hresult,hvalue⟩))

/-- An accepted call keeps a match that the engine plays. -/
theorem Played.accepted {state state' : GameState} (h : Played state)
    (hstatus : state.status=.inProgress) {p1Action p2Action : Action} {report : TurnReport}
    (haccepted : Accepted state p1Action p2Action state' report) : Played state' := by
  obtain ⟨before,accepted,hinvariant,rfl | rfl⟩ := h.played
  · have hnext := haccepted.invariant hinvariant hstatus
    have hrecords := (smallRecords_of_small h.small).accepted hinvariant haccepted
    exact ⟨⟨state',accepted+1,hnext,.inl rfl⟩,hrecords.small hnext⟩
  · cases hstatus

/-- A state that the engine reaches from start_match, by calls of submit_turn and forfeit. -/
def Reached (state : GameState) : Prop :=
  ∃ gameId matchType calls,
    state=play (startMatch gameId matchType).1 calls ∨
      ∃ player,state=(forfeit (play (startMatch gameId matchType).1 calls) player).1

/-- A fresh match and what the calls make of it. -/
theorem played_of_play {state : GameState} {accepted : ℕ} (hinvariant : MatchInvariant state accepted)
    (h : SmallRecords state) (calls : List (Action×Action)) : SmallRecords (play state calls) := by
  induction calls generalizing state accepted with
  | nil => exact h
  | cons call calls ih =>
    obtain ⟨p1Action,p2Action⟩ := call
    simp only [play]
    obtain ⟨e,he,-⟩ | ⟨hs,round,state',report,-,-,he,haccepted⟩ :=
      submitTurn_cases state p1Action p2Action
    · rw [he]
      exact ih hinvariant h
    · rw [he]
      exact ih (haccepted.invariant hinvariant hs) (h.accepted hinvariant haccepted)

/-- Whatever is reached from start_match has been played. -/
theorem Reached.played {state : GameState} (h : Reached state) : Played state := by
  obtain ⟨gameId,matchType,calls,hstate⟩ := h
  have hfresh := startMatch_invariant gameId matchType
  have hinvariant := play_invariant hfresh calls
  have hrecords : SmallRecords (startMatch gameId matchType).1 := by
    rw [startMatch_eq]
    refine ⟨fun round hround => ?_,fun result hresult => nomatch hresult⟩
    cases hround
    exact fun result hresult => nomatch hresult
  have hsmall := (played_of_play hfresh hrecords calls).small hinvariant
  obtain rfl | ⟨player,rfl⟩ := hstate
  · exact ⟨⟨_,_,hinvariant,.inl rfl⟩,hsmall⟩
  · exact ⟨⟨_,_,hinvariant,.inr rfl⟩,hsmall⟩

/-- A player who connects is one of the two. -/
theorem shared_connect {session : PvPSessionState} (h : Played session.gameState)
    {playerId : String} {captured captured' : ConnectCaptured} {sess' : GoTypes.PvPSession}
    (hm : markConnected playerId captured (goSession session)=.ok (captured',sess')) :
    Shared sess' := by
  unfold markConnected at hm
  split at hm
  · cases hm
  · next hplayer =>
    cases hm
    have hid : ∃ id : UUID,playerId=id.text := by
      rw [Bool.not_eq_true',Bool.not_eq_false,GoTypes.PvPSession.isPlayer,Bool.or_eq_true] at hplayer
      obtain hfirst | hsecond := hplayer
      · exact ⟨_,of_decide_eq_true hfirst⟩
      · exact ⟨_,of_decide_eq_true hsecond⟩
    obtain ⟨id,rfl⟩ := hid
    split
    · refine ⟨{session with connectedPlayers := session.connectedPlayers++[id]},?_,h⟩
      unfold GoTypes.PvPSession.markConnected
      split
      · next hnew hold =>
        rw [hold] at hnew
        cases hnew
      · simp [goSession,GoTypes.Slice.append,GoTypes.Slice.elements]
    · exact ⟨session,rfl,h⟩

/-- A submission stores an action and may take the pair out. -/
theorem shared_submit {session : PvPSessionState} (h : Played session.gameState)
    {playerId : String} {action : Action} {captured captured' : GoStore.SubmitCaptured}
    {sess' : GoTypes.PvPSession}
    (hm : storeAction playerId action.value captured (goSession session)=.ok (captured',sess')) :
    Shared sess' := by
  have hstored : ∃ session',GoPendingPairs.storeInSlot playerId action.value (goSession session)=
      goSession session' ∧ session'.gameState=session.gameState := by
    unfold GoPendingPairs.storeInSlot
    split
    · exact ⟨{session with p1Action := some action},rfl,rfl⟩
    · exact ⟨{session with p2Action := some action},rfl,rfl⟩
  obtain ⟨session',hsession',hgame⟩ := hstored
  cases GoPendingPairs.storeAction_cases hm with
  | rejected => exact ⟨session,rfl,h⟩
  | stored => exact ⟨session',hsession',hgame ▸ h⟩
  | completed =>
    refine ⟨{session' with p1Action := none,p2Action := none},?_,hgame ▸ h⟩
    rw [hsession']
    rfl

/-- A resolution plays a turn. -/
theorem shared_resolve {session : PvPSessionState} (h : Played session.gameState) {p1 p2 : Action}
    {captured captured' : ResolveCaptured} {sess' : GoTypes.PvPSession}
    (hm : GoSession.applyTurn p1.value p2.value captured (goSession session)=
      .ok (captured',sess')) : Shared sess' := by
  unfold GoSession.applyTurn at hm
  obtain ⟨hstate,hagree⟩ := submitTurn_value session.gameState p1 p2
  split at hm
  · cases hm
  · next gameState report hsubmit =>
    cases hm
    change GoEngine.submitTurn (goGameState session.gameState) p1.value p2.value=_ at hsubmit
    rw [hsubmit] at hstate hagree
    obtain ⟨e,he,-⟩ | ⟨hs,round,state',report',-,-,he,haccepted⟩ :=
      submitTurn_cases session.gameState p1 p2
    · rw [he] at hagree
      exact hagree.elim
    · rw [he] at hstate
      refine ⟨{session with gameState := state'},?_,h.accepted hs haccepted⟩
      exact congrArg (fun gs => {goSession session with gameState := gs}) hstate

/-- The session that a mutator returns comes with what it captures. -/
theorem ok_of_map {L : Type} {result : Except String (L×GoTypes.PvPSession)}
    {sess : GoTypes.PvPSession} (h : result.map Prod.snd=.ok sess) :
    ∃ captured,result=.ok (captured,sess) := by
  cases result with
  | error message => cases h
  | ok pair =>
    cases h
    exact ⟨pair.1,rfl⟩

/-- Every mutation with one of the five actions keeps a session shared. -/
theorem Shared.mutate {sess sess' : GoTypes.PvPSession} (h : Shared sess) {mutation : Mutation}
    (hm : mutation.mutate sess=.ok sess') : Shared sess' := by
  obtain ⟨session,rfl,hplayed⟩ := h
  cases mutation with
  | connect playerId captured =>
    obtain ⟨captured',hmutated⟩ := ok_of_map hm
    exact shared_connect hplayed hmutated
  | submit playerId action captured =>
    obtain ⟨captured',hmutated⟩ := ok_of_map hm
    exact shared_submit hplayed hmutated
  | resolve p1 p2 captured =>
    obtain ⟨captured',hmutated⟩ := ok_of_map hm
    exact shared_resolve hplayed hmutated
  | start captured =>
    obtain ⟨captured',hmutated⟩ := ok_of_map hm
    unfold markStarted at hmutated
    split at hmutated
    · cases hmutated
      exact ⟨session,rfl,hplayed⟩
    · split at hmutated <;> cases hmutated
      · exact ⟨session,rfl,hplayed⟩
      · exact ⟨{session with started := true},rfl,hplayed⟩
  | disconnect playerId captured =>
    cases hm
    refine ⟨{session with connectedPlayers :=
      session.connectedPlayers.filter fun id => id.text≠playerId},?_,hplayed⟩
    simp [goSession,List.filter_map,Function.comp_def]
  | forfeit =>
    cases hm
    refine ⟨{session with gameState := {session.gameState with status := .abandoned}},rfl,?_⟩
    obtain ⟨before,accepted,hinvariant,hbefore⟩ := hplayed.played
    refine ⟨⟨before,accepted,hinvariant,.inr ?_⟩,hplayed.small⟩
    obtain hsame | habandoned := hbefore
    · rw [hsame]
    · rw [habandoned]

/-- A shared session that is stored is decoded, and the mutated one is stored. -/
theorem Shared.update {sess : GoTypes.PvPSession} (h : Shared sess) (mutation : Mutation) :
    ∃ sess',Shared sess' ∧ mutation.update (marshalSession sess)=some (marshalSession sess') := by
  obtain ⟨session,rfl,hplayed⟩ := h
  have hdecoded : unmarshalSession (marshalSession (goSession session))=some (goSession session) := by
    rw [marshalSession_eq]
    exact unmarshalSession_dump hplayed.fits
  unfold Mutation.update
  rw [hdecoded,Option.map_some]
  cases hm : mutation.mutate (goSession session) with
  | error message => exact ⟨goSession session,⟨session,rfl,hplayed⟩,rfl⟩
  | ok sess' => exact ⟨sess',Shared.mutate ⟨session,rfl,hplayed⟩ hm,rfl⟩

/-- So it goes on. -/
theorem Shared.updates {sess : GoTypes.PvPSession} (h : Shared sess) (mutations : List Mutation) :
    ∃ sess',Shared sess' ∧
      SessionCodec.updates (marshalSession sess) mutations=some (marshalSession sess') := by
  induction mutations generalizing sess with
  | nil => exact ⟨sess,h,rfl⟩
  | cons mutation mutations ih =>
    obtain ⟨sess₁,h₁,hupdate⟩ := h.update mutation
    obtain ⟨sess',h',hupdates⟩ := ih h₁
    refine ⟨sess',h',?_⟩
    rw [SessionCodec.updates,hupdate,Option.bind_some,hupdates]

/-- A session within its bounds whose integers fit goes through both codecs unchanged.
Whatever the Go server makes of a session that has been reached from start_match, it can
decode and encode, and Python reads the state that Go has, field by field. -/
theorem codec_shared :
    (∀ (session : PvPSessionState) (uuid4 : UUID),InBounds session.gameState → Fits session →
      ∃ sess,unmarshalSession (dumpSession session)=some sess ∧
        marshalSession sess=dumpSession session ∧
        pvpSessionState uuid4 (marshalSession sess)=some session) ∧
    ∀ (session : PvPSessionState) (uuid4 : UUID) (mutations : List Mutation),
      Reached session.gameState →
      ∃ stored sess session',updates (dumpSession session) mutations=some stored ∧
        unmarshalSession stored=some sess ∧ marshalSession sess=stored ∧
        pvpSessionState uuid4 stored=some session' ∧ sess=goSession session' := by
  constructor
  · intro session uuid4 hbounds hfits
    exact ⟨goSession session,unmarshalSession_dump hfits,marshalSession_eq session,
      session_marshal hbounds uuid4⟩
  · intro session uuid4 mutations hreached
    have hplayed := hreached.played
    obtain ⟨sess,⟨session',rfl,hplayed'⟩,hupdates⟩ :=
      Shared.updates ⟨session,rfl,hplayed⟩ mutations
    rw [marshalSession_eq,marshalSession_eq] at hupdates
    exact ⟨_,_,session',hupdates,unmarshalSession_dump hplayed'.fits,marshalSession_eq session',
      pvpSessionState_dump hplayed'.inBounds uuid4,rfl⟩

/-- A game that is connected, started and played for a turn, and then left and forfeited. -/
def wholeGame : List Mutation :=
  [.connect (UUID.small 1).text ⟨"",false⟩,.connect (UUID.small 2).text ⟨"",false⟩,
    .start ⟨false,0⟩,.submit (UUID.small 1).text .charge .zero,
    .submit (UUID.small 2).text .block .zero,.resolve .charge .block ⟨zeroTurnResult,none,none⟩,
    .disconnect (UUID.small 2).text "",.forfeit]

/-- It is played on both servers from the session that is saved for two players. -/
theorem codec_shared_wholeGame :
    (∃ sess,unmarshalSession (dumpSession GameStore.Pairing.small.session)=some sess ∧
      marshalSession sess=dumpSession GameStore.Pairing.small.session ∧
      pvpSessionState (.small 0) (marshalSession sess)=some GameStore.Pairing.small.session) ∧
    ∃ stored sess session',
      updates (dumpSession GameStore.Pairing.small.session) wholeGame=some stored ∧
        unmarshalSession stored=some sess ∧ marshalSession sess=stored ∧
        pvpSessionState (.small 0) stored=some session' ∧ sess=goSession session' := by
  have hreached : Reached GameStore.Pairing.small.session.gameState :=
    ⟨.small 0,.pvp,[],.inl rfl⟩
  have hplayed := hreached.played
  exact ⟨codec_shared.1 GameStore.Pairing.small.session (.small 0) hplayed.inBounds hplayed.fits,
    codec_shared.2 GameStore.Pairing.small.session (.small 0) wholeGame hreached⟩

end Mutations

end KiClash.SessionCodec

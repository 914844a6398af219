import KiClash.GamePhases

/-!
# The transactions of the Python workers

What the transactions of a run make of the stored session: who is connected,
whether the match has started, and which turn is open. Connecting, starting and
playing only ever add to a session; nothing takes a player out of it, and the open
turn only goes forward.
-/

namespace KiClash.GameTransactions

open EngineTypes Engine AsyncTasks WatchedKey TaskPhases TransactionReads Histories
open GameStore GameSession PendingPairs SessionChronicle SessionTurns GamePhases

section Effects

variable {call : Call} {session session' : PvPSessionState} {pairing : Pairing}

/-- The mutator of handle_connect. -/
theorem markConnected_cases {player : UUID} {c c' : ConnectCaptured}
    (h : markConnected player c session=.ok (c',session')) :
    session'=session.markConnected player := by
  unfold markConnected at h
  split at h
  · next hc =>
    cases h
    rw [PvPSessionState.markConnected,if_pos (of_decide_eq_true hc)]
  · cases h
    rfl

/-- The mutator of start. -/
theorem markStarted_cases {c c' : StartCaptured} (h : markStarted c session=.ok (c',session')) :
    session'={session with started := true} := by
  unfold markStarted at h
  split at h
  · next hs =>
    cases h
    rw [← hs]
  · cases h
    rfl

/-- The mutator of _resolve_turn. -/
theorem applyTurn_cases {p1Action p2Action : Action} {c c' : ResolveCaptured}
    (h : GameSession.applyTurn p1Action p2Action c session=.ok (c',session')) : ∃ gameState report,
      submitTurn session.gameState p1Action p2Action=(gameState,.ok report) ∧
        session'={session with gameState := gameState} := by
  unfold GameSession.applyTurn at h
  split at h
  · cases h
  · next gameState report he =>
    cases h
    exact ⟨gameState,report,he,rfl⟩

/-- A submission touches the pending actions only. -/
theorem stores_rest {player : UUID} {action : Action} {stale captured : SubmitCaptured}
    (h : Stores player action stale session captured session') :
    session'.gameState=session.gameState ∧
      session'.connectedPlayers=session.connectedPlayers ∧ session'.started=session.started := by
  have hslot : (storeInSlot player action session).connectedPlayers=session.connectedPlayers ∧
      (storeInSlot player action session).started=session.started := by
    unfold storeInSlot
    split
    · exact ⟨rfl,rfl⟩
    · split <;> exact ⟨rfl,rfl⟩
  have hgame := storeInSlot_gameState player action session
  cases h with
  | rejected message h => exact ⟨rfl,rfl,rfl⟩
  | stored round h hpair => exact ⟨hgame,hslot⟩
  | completed round p1Action p2Action h h₁ h₂ hpair => exact ⟨hgame,hslot⟩

/-- A player that connects is connected. -/
theorem hasConnected_markConnected (session : PvPSessionState) (other player : UUID) :
    (session.markConnected other).hasConnected player=
      (session.hasConnected player || other=player) := by
  unfold PvPSessionState.markConnected PvPSessionState.hasConnected
  split
  · next h =>
    by_cases he : other=player
    · subst he
      simp [h]
    · simp [he]
  · by_cases he : other=player
    · simp [he]
    · simp [he,Ne.symm he]

/-- Only connecting changes who is connected. -/
theorem hasConnected_of_makes (h : Makes call session session') (player : UUID) :
    session'.hasConnected player=(session.hasConnected player || call=.connect player) := by
  cases h with
  | connect h =>
    cases markConnected_cases h
    rw [hasConnected_markConnected]
    simp
  | start h =>
    cases markStarted_cases h
    simp [PvPSessionState.hasConnected]
  | submit h =>
    obtain ⟨-,hconnected,-⟩ := stores_rest (storeAction_cases h)
    simp [PvPSessionState.hasConnected,hconnected]
  | resolve h =>
    obtain ⟨gameState,report,-,rfl⟩ := applyTurn_cases h
    simp [PvPSessionState.hasConnected]
  | forfeit h =>
    cases h
    simp [PvPSessionState.hasConnected]

/-- Only start starts the match. -/
theorem started_of_makes (h : Makes call session session') :
    session'.started=(session.started || call=.start) := by
  cases h with
  | connect h =>
    cases markConnected_cases h
    unfold PvPSessionState.markConnected
    split <;> simp
  | start h =>
    cases markStarted_cases h
    simp
  | submit h =>
    obtain ⟨-,-,hstarted⟩ := stores_rest (storeAction_cases h)
    simp [hstarted]
  | resolve h =>
    obtain ⟨gameState,report,-,rfl⟩ := applyTurn_cases h
    simp
  | forfeit h =>
    cases h
    simp

/-- Nobody becomes another player. -/
theorem ids_of_makes (h : Makes call session session') :
    session'.player1Id=session.player1Id ∧ session'.player2Id=session.player2Id := by
  cases h with
  | connect h =>
    cases markConnected_cases h
    exact ⟨markConnected_player1Id _ _,markConnected_player2Id _ _⟩
  | start h =>
    cases markStarted_cases h
    exact ⟨rfl,rfl⟩
  | @submit player action _ _ _ _ h =>
    have hids := And.intro (storeInSlot_player1Id player action session)
      (storeInSlot_player2Id player action session)
    cases storeAction_cases h with
    | rejected => exact ⟨rfl,rfl⟩
    | stored => exact hids
    | completed => exact hids
  | resolve h =>
    obtain ⟨gameState,report,-,rfl⟩ := applyTurn_cases h
    exact ⟨rfl,rfl⟩
  | forfeit h =>
    cases h
    exact ⟨rfl,rfl⟩

/-- The player of a seat. -/
def idOf (session : PvPSessionState) : SlottedTurns.Seat → UUID :=
  SlottedTurns.Seat.pick session.player1Id session.player2Id

/-- An action lies in a slot after storing one if it did so before or is the one that
has been stored. -/
theorem pending_of_storeInSlot {player : UUID} {action : Action} {seat : SlottedTurns.Seat}
    (h : (pending (storeInSlot player action session) seat).isSome=true) :
    (pending session seat).isSome=true ∨ player=idOf session seat := by
  unfold storeInSlot at h
  split at h
  · next hfirst =>
    cases seat with
    | first => exact .inr hfirst
    | second => exact .inl h
  · split at h
    · next hsecond =>
      cases seat with
      | first => exact .inl h
      | second => exact .inr hsecond
    · exact .inl h

/-- Only the submission of its player puts an action into a slot. -/
theorem pending_of_makes (h : Makes call session session') {seat : SlottedTurns.Seat}
    (hpending : (pending session' seat).isSome=true) : (pending session seat).isSome=true ∨
      ∃ action stale,call=.submit (idOf session seat) action stale := by
  cases h with
  | connect h =>
    cases markConnected_cases h
    unfold PvPSessionState.markConnected at hpending
    split at hpending <;> exact .inl hpending
  | start h =>
    cases markStarted_cases h
    exact .inl hpending
  | @submit player action stale _ _ _ h =>
    cases storeAction_cases h with
    | rejected => exact .inl hpending
    | stored =>
      obtain hold | hplayer := pending_of_storeInSlot hpending
      · exact .inl hold
      · exact .inr ⟨action,stale,congrArg (Call.submit · action stale) hplayer⟩
    | completed => cases seat <;> cases hpending
  | resolve h =>
    obtain ⟨gameState,report,-,rfl⟩ := applyTurn_cases h
    exact .inl hpending
  | forfeit h =>
    cases h
    exact .inl hpending

/-- In a complete pair there is an action of each player, which has been there or is the
one that completes it. -/
theorem pending_of_completes {player : UUID} {action : Action}
    (h : (completedPair player action session).isSome=true) (seat : SlottedTurns.Seat) :
    (pending session seat).isSome=true ∨ player=idOf session seat := by
  apply pending_of_storeInSlot
  unfold completedPair at h
  split at h
  · next h₁ h₂ =>
    cases seat with
    | first => exact Option.isSome_of_eq_some h₁
    | second => exact Option.isSome_of_eq_some h₂
  · cases h

/-- The call resolves a turn. -/
def resolves : Call → Bool
  | .resolve _ _ => true
  | _ => false

/-- Only a resolution changes the current turn. -/
theorem currentTurn_of_makes (h : Makes call session session') (hresolves : resolves call=false) :
    currentTurn session'=currentTurn session := by
  unfold currentTurn
  cases h with
  | connect h =>
    cases markConnected_cases h
    rw [markConnected_gameState]
  | start h =>
    cases markStarted_cases h
    rfl
  | submit h => rw [(stores_rest (storeAction_cases h)).1]
  | resolve h => cases hresolves
  | forfeit h =>
    cases h
    rfl

/-- A turn that is current after a call was current before it, or the resolution of an
earlier one has led to it. -/
theorem turn_of_makes (h : Makes call session session') {turn' : TurnKey}
    (hnumbered : ∀ round,session.gameState.currentRound=some round →
      round.roundNumber=session.gameState.roundResults.length+1)
    (hcurrent : currentTurn session'=some turn') : ∃ turn,currentTurn session=some turn ∧
      if resolves call then turn<turn' else turn=turn' := by
  cases hresolves : resolves call with
  | false =>
    rw [currentTurn_of_makes h hresolves] at hcurrent
    exact ⟨turn',hcurrent,rfl⟩
  | true =>
    cases h with
    | resolve h =>
      obtain ⟨gameState,report,hsubmit,rfl⟩ := applyTurn_cases h
      obtain ⟨round,hopen,-,haccepted⟩ := openRound_of_submitTurn hsubmit
      have hround := (openRound_eq_some.mp hopen).2
      obtain ⟨round',hround',rfl⟩ := Option.map_eq_some_iff.mp hcurrent
      refine ⟨turnOf round,by rw [currentTurn,hround]; rfl,?_⟩
      exact turn_advances haccepted hround (hnumbered round hround) hround'
    | connect | start | submit | forfeit => cases hresolves

end Effects

section Phases

/-- What a task that submits actions is doing, and whether one of its submissions has
found a complete pair. -/
def plays : Control → Option (Doing×Bool)
  | .socket _ _ (.playing doing paired) => some (doing,paired)
  | .turnTimer _ (.playing doing paired) => some (doing,paired)
  | _ => none

/-- What an operation can make of that. -/
inductive Turns (attempt : Attempt PvPSessionState) :
    (o : Op language) → Except Exc o.Res → Doing×Bool → Doing×Bool → Prop
  | same (o : Op language) (r : Except Exc o.Res) (now : Doing×Bool) : Turns attempt o r now now
  | told (o : Op language) (r : Except Exc o.Res) (doing : Doing) (paired : Bool) :
      Turns attempt o r (doing,paired) (.idle,paired)
  | loaded (value : Option PvPSessionState) (doing : Doing) (paired : Bool) :
      Turns attempt (.store .load) (.ok value) (doing,paired) (doing.loaded value,paired)
  | aborted (token retriesLeft : ℕ) (player : UUID) (action : Action) (stale : SubmitCaptured)
      (session : PvPSessionState) (r : Except Exc Bool) (doing : Doing) (paired : Bool) :
      Turns attempt (.store (.exec token retriesLeft (.submit player action stale) session)) r
        (doing,paired) (.idle,paired || completes attempt player action)
  | submitted (token retriesLeft : ℕ) (player : UUID) (action : Action) (stale : SubmitCaptured)
      (session : PvPSessionState) (doing : Doing) (paired : Bool) :
      Turns attempt (.store (.exec token retriesLeft (.submit player action stale) session))
        (.ok true) (doing,paired)
        (.submitted (acceptedTurn attempt player action),paired || completes attempt player action)
  | resolved (token retriesLeft : ℕ) (p1Action p2Action : Action) (session : PvPSessionState)
      (doing : Doing) (paired : Bool) :
      Turns attempt (.store (.exec token retriesLeft (.resolve p1Action p2Action) session))
        (.ok true) (doing,paired) (.resolved (openTurn attempt) (currentTurn session),paired)

/-- It makes that of it. -/
theorem turns_next (attempt : Attempt PvPSessionState) (doing : Doing) (paired : Bool)
    (o : Op language) (r : Except Exc o.Res) :
    Turns attempt o r (doing,paired) (doing.next attempt paired o r) := by
  unfold Doing.next
  split
  · split
    · exact .submitted _ _ _ _ _ _ _ _
    · exact .aborted _ _ _ _ _ _ _ _ _
  · exact .resolved _ _ _ _ _ _ _
  · exact .loaded _ _ _
  · cases doing with
    | submitted => exact .told _ _ _ _
    | idle | resolved => exact .same _ _ _
  · exact .same _ _ _

/-- What an operation can make of the stage of a handler. -/
inductive Passes (attempt : Attempt PvPSessionState) (player : UUID) :
    Stage → (o : Op language) → Except Exc o.Res → Stage → Prop
  | same (stage : Stage) (o : Op language) (r : Except Exc o.Res) :
      Passes attempt player stage o r stage
  | dismissed (stage : Stage) (o : Op language) (r : Except Exc o.Res) {stage' : Stage}
      (h : stage'=.refusing ∨ stage'=.gone) : Passes attempt player stage o r stage'
  | accepted (u : Unit) : Passes attempt player .arriving (.act .accept) (.ok u) .accepted
  | entering (worker : Worker) (player' : UUID) (u : Unit) :
      Passes attempt player .accepted (.act (.register worker player')) (.ok u) .entering
  | connecting (session : PvPSessionState) (h : session.isPlayer player=true) :
      Passes attempt player .entering (.store .load) (.ok (some session)) (.connecting false)
  | missing (found : Bool) :
      Passes attempt player (.connecting found) (.store .get) (.ok none) .counting
  | connected (found : Bool) (token retriesLeft : ℕ) (call : Call) (session : PvPSessionState)
      (h : (found || reads attempt fun session => session.hasConnected player)=false) :
      Passes attempt player (.connecting found) (.store (.exec token retriesLeft call session))
        (.ok true) .counting
  | returning (found : Bool) (token retriesLeft : ℕ) (call : Call) (session : PvPSessionState)
      (h : (found || reads attempt fun session => session.hasConnected player)=true) :
      Passes attempt player (.connecting found) (.store (.exec token retriesLeft call session))
        (.ok true) .returning
  | reconnecting (found : Bool) (token retriesLeft : ℕ) (call : Call) (session : PvPSessionState) :
      Passes attempt player (.connecting found) (.store (.exec token retriesLeft call session))
        (.ok false) (.connecting (found || reads attempt fun session => session.hasConnected player))
  | full (stage : Stage) (h : stage=.returning ∨ stage=.counting) (worker : Worker) (size : ℕ)
      (hsize : size ≥ 2) :
      Passes attempt player stage (.act (.roomSize worker)) (.ok size) (.starting false)
  | alone (stage : Stage) (h : stage=.returning ∨ stage=.counting) (worker : Worker) (size : ℕ)
      (hsize : ¬size ≥ 2) :
      Passes attempt player stage (.act (.roomSize worker)) (.ok size) (.playing .idle false)
  | unknown (found : Bool) :
      Passes attempt player (.starting found) (.store .get) (.ok none) (.playing .idle false)
  | late (found : Bool) (token retriesLeft : ℕ) (call : Call) (session : PvPSessionState)
      (h : (found || reads attempt fun session => session.started)=true) :
      Passes attempt player (.starting found) (.store (.exec token retriesLeft call session))
        (.ok true) (.playing .idle false)
  | started (found : Bool) (token retriesLeft : ℕ) (call : Call) (session : PvPSessionState)
      (h : (found || reads attempt fun session => session.started)=false) {stage' : Stage}
      (hstage : stage'=announces session) :
      Passes attempt player (.starting found) (.store (.exec token retriesLeft call session))
        (.ok true) stage'
  | restarting (found : Bool) (token retriesLeft : ℕ) (call : Call) (session : PvPSessionState) :
      Passes attempt player (.starting found) (.store (.exec token retriesLeft call session))
        (.ok false) (.starting (found || reads attempt fun session => session.started))
  | prompted (turn : TurnKey) (untold : List UUID) (worker : Worker) (player' : UUID)
      (message : ServerMessages.ServerMessage) (u : Unit) :
      Passes attempt player (.prompting turn untold) (.act (.send worker player' message)) (.ok u)
        (.prompting turn (if message.isPrompt then untold.tail else untold))
  | armed (turn : TurnKey) (untold : List UUID) (worker : Worker) (u : Unit) :
      Passes attempt player (.prompting turn untold) (.act (.restartTimeout worker)) (.ok u)
        (.playing .idle false)
  | played (doing doing' : Doing) (paired paired' : Bool) (o : Op language) (r : Except Exc o.Res)
      (h : Turns attempt o r (doing,paired) (doing',paired')) :
      Passes attempt player (.playing doing paired) o r (.playing doing' paired')
  | left (doing : Doing) (paired : Bool) (o : Op language) (r : Except Exc o.Res) {stage' : Stage}
      (h : stage'=.leaving ∨ stage'=.closing) :
      Passes attempt player (.playing doing paired) o r stage'
  | closing (o : Op language) (r : Except Exc o.Res) :
      Passes attempt player .leaving o r .closing

/-- handle_connect's transaction. -/
theorem passes_connecting (attempt : Attempt PvPSessionState) (player : UUID) (found : Bool)
    (o : Op language) (r : Except Exc o.Res) : Passes attempt player (.connecting found) o r
      (GamePhases.connected attempt player found o r) := by
  unfold GamePhases.connected
  split
  · exact .missing found
  · next token retriesLeft call session written =>
    dsimp only
    cases written with
    | true =>
      rw [if_pos rfl]
      split
      · next h => exact .returning found _ _ _ _ h
      · next h => exact .connected found _ _ _ _ (Bool.eq_false_iff.mpr h)
    | false =>
      rw [if_neg Bool.false_ne_true]
      split
      · exact .dismissed _ _ _ (.inr rfl)
      · exact .reconnecting found _ _ _ _
  · exact .same _ _ _
  · exact .dismissed _ _ _ (.inr rfl)

/-- Where the room is counted. -/
theorem passes_counting (attempt : Attempt PvPSessionState) (player : UUID) {stage : Stage}
    (h : stage=.returning ∨ stage=.counting) (o : Op language) (r : Except Exc o.Res) :
    Passes attempt player stage o r (counted stage o r) := by
  unfold counted
  split
  · split
    · next hsize => exact .full stage h _ _ hsize
    · next hsize => exact .alone stage h _ _ hsize
  · exact .same _ _ _
  · exact .dismissed _ _ _ (.inr rfl)

/-- start's transaction. -/
theorem passes_starting (attempt : Attempt PvPSessionState) (player : UUID) (found : Bool)
    (o : Op language) (r : Except Exc o.Res) : Passes attempt player (.starting found) o r
      (GamePhases.started attempt found o r) := by
  unfold GamePhases.started
  split
  · exact .unknown found
  · next token retriesLeft call session written =>
    dsimp only
    cases written with
    | true =>
      rw [if_pos rfl]
      split
      · next h => exact .late found _ _ _ _ h
      · next h => exact .started found _ _ _ _ (Bool.eq_false_iff.mpr h) rfl
    | false =>
      rw [if_neg Bool.false_ne_true]
      split
      · exact .dismissed _ _ _ (.inr rfl)
      · exact .restarting found _ _ _ _
  · exact .same _ _ _
  · exact .dismissed _ _ _ (.inr rfl)

/-- The prompts of start. -/
theorem passes_prompting (attempt : Attempt PvPSessionState) (player : UUID) (turn : TurnKey)
    (untold : List UUID) (o : Op language) (r : Except Exc o.Res) :
    Passes attempt player (.prompting turn untold) o r (GamePhases.prompted turn untold o r) := by
  unfold GamePhases.prompted
  split
  · exact .prompted turn untold _ _ _ _
  · exact .armed turn untold _ _
  · exact .same _ _ _
  · exact .dismissed _ _ _ (.inr rfl)

/-- The receive loop. -/
theorem passes_playing (attempt : Attempt PvPSessionState) (player : UUID) (doing : Doing)
    (paired : Bool) (o : Op language) (r : Except Exc o.Res) :
    Passes attempt player (.playing doing paired) o r
      (GamePhases.played attempt doing paired o r) := by
  unfold GamePhases.played
  split
  · exact .left _ _ _ _ (.inr rfl)
  · split
    · exact .left _ _ _ _ (.inl rfl)
    · exact .left _ _ _ _ (.inr rfl)
  · exact .played _ _ _ _ _ _ (turns_next attempt doing paired _ _)

/-- It makes that of it. -/
theorem passes_next (attempt : Attempt PvPSessionState) (player : UUID) (stage : Stage)
    (o : Op language) (r : Except Exc o.Res) :
    Passes attempt player stage o r (stage.next attempt player o r) := by
  unfold Stage.next
  split
  · exact .accepted _
  · exact .same _ _ _
  · exact .entering _ _ _
  · exact .same _ _ _
  · split
    · next h => exact .connecting _ h
    · exact .dismissed _ _ _ (.inl rfl)
  · exact .dismissed _ _ _ (.inl rfl)
  · exact .same _ _ _
  · exact passes_connecting _ _ _ _ _
  · exact passes_counting _ _ (.inl rfl) _ _
  · exact passes_counting _ _ (.inr rfl) _ _
  · exact passes_starting _ _ _ _ _
  · exact passes_prompting _ _ _ _ _ _
  · exact passes_playing _ _ _ _ _ _
  · exact .closing _ _
  · exact .same _ _ _
  · exact .same _ _ _
  · exact .dismissed _ _ _ (.inr rfl)

/-- A handler that plays has just begun to, or has played before. -/
theorem playing_next {attempt : Attempt PvPSessionState} {player : UUID} {stage : Stage}
    {o : Op language} {r : Except Exc o.Res} {doing : Doing} {paired : Bool}
    (h : stage.next attempt player o r=.playing doing paired) :
    (doing,paired)=(.idle,false) ∨ ∃ doing₀ paired₀,stage=.playing doing₀ paired₀ ∧
      Turns attempt o r (doing₀,paired₀) (doing,paired) := by
  have hpasses := passes_next attempt player stage o r
  rw [h] at hpasses
  cases hpasses with
  | same => exact .inr ⟨doing,paired,rfl,.same _ _ _⟩
  | dismissed _ _ _ hover => obtain he | he := hover <;> cases he
  | left _ _ _ _ hleft => obtain he | he := hleft <;> cases he
  | alone | unknown | late | armed => exact .inl rfl
  | started _ _ _ _ session _ hstage =>
    unfold announces at hstage
    split at hstage <;> cases hstage
    exact .inl rfl
  | played doing₀ _ paired₀ _ _ _ hturns => exact .inr ⟨doing₀,paired₀,rfl,hturns⟩

/-- A turn timer that submits has just begun to, or has submitted before. -/
theorem submitting_next {attempt : Attempt PvPSessionState} {stage : TimerStage} {o : Op language}
    {r : Except Exc o.Res} {doing : Doing} {paired : Bool}
    (h : stage.next attempt o r=.playing doing paired) :
    (doing,paired)=(.idle,false) ∨ ∃ doing₀ paired₀,stage=.playing doing₀ paired₀ ∧
      Turns attempt o r (doing₀,paired₀) (doing,paired) := by
  unfold TimerStage.next at h
  split at h
  any_goals cases h
  · split at h <;> cases h
    exact .inl rfl
  · exact .inr ⟨_,_,rfl,turns_next attempt _ _ _ _⟩

/-- A task that submits actions has just begun to, or it has gone on. -/
theorem plays_before {attempt : Attempt PvPSessionState} {control : Control} {o : Op language}
    {r : Except Exc o.Res} {now : Doing×Bool} (h : plays (control.next attempt o r)=some now) :
    now=(.idle,false) ∨ ∃ before,plays control=some before ∧ Turns attempt o r before now := by
  cases control with
  | forfeitTimer => cases h
  | turnTimer worker stage =>
    cases hstage : stage.next attempt o r with
    | playing doing paired =>
      rw [Control.next,hstage] at h
      cases h
      obtain hidle | ⟨doing₀,paired₀,rfl,hturns⟩ := submitting_next hstage
      · exact .inl hidle
      · exact .inr ⟨_,rfl,hturns⟩
    | waiting | checking | _ =>
      rw [Control.next,hstage] at h
      cases h
  | socket worker player stage =>
    cases hstage : stage.next attempt player o r with
    | playing doing paired =>
      rw [Control.next,hstage] at h
      cases h
      obtain hidle | ⟨doing₀,paired₀,rfl,hturns⟩ := playing_next hstage
      · exact .inl hidle
      · exact .inr ⟨_,rfl,hturns⟩
    | arriving | accepted | entering | refusing | connecting | returning | counting | starting
    | prompting | leaving | closing | gone =>
      rw [Control.next,hstage] at h
      cases h

/-- What it is doing is part of that. -/
theorem doing_eq (control : Control) : control.doing=(plays control).map Prod.fst := by
  cases control with
  | socket worker player stage => cases stage <;> rfl
  | turnTimer worker stage => cases stage <;> rfl
  | forfeitTimer => rfl

/-- What a task that submits actions can come to be doing. -/
theorem doing_before {attempt : Attempt PvPSessionState} {control : Control} {o : Op language}
    {r : Except Exc o.Res} {doing : Doing} (h : (control.next attempt o r).doing=some doing) :
    doing=.idle ∨ ∃ before now,control.doing=some before.1 ∧ now.1=doing ∧
      Turns attempt o r before now := by
  rw [doing_eq] at h
  obtain ⟨now,hnow,rfl⟩ := Option.map_eq_some_iff.mp h
  obtain rfl | ⟨before,hbefore,hturns⟩ := plays_before hnow
  · exact .inl rfl
  · exact .inr ⟨before,now,by rw [doing_eq,hbefore]; rfl,rfl,hturns⟩

end Phases

/-- A moment of a run of the workers. -/
abbrev Moment := Seen.Moment watcher

/-- The moments of a run. -/
abbrev momentsOf (pairing : Pairing) (moves : List workers.Move) : List Moment :=
  (Seen.initial watcher (initial pairing)).moments moves

/-- The move of the moment performs such an operation. -/
def performs (test : Performed watcher → Bool) (moment : Moment) : Bool :=
  (moment.1.performed moment.2).any test

section Moments

variable {seen : Seen watcher} {test : Performed watcher → Bool}

/-- What a task performs. -/
theorem performs_run {task : TaskId} {choice : Choice} {phase : Phase} {o : Op language}
    {rest : Except Exc o.Res → Coroutine Unit} {world : World} {r : Except Exc o.Res}
    {started : Option Entry} (htask : seen.config.tasks[task]?=some (.op o rest))
    (hphase : seen.phases[task]?=some phase)
    (hp : WatchedKey.perform (R := runtime) choice task seen.config.tasks.length o
      seen.config.world=some (world,r,started)) :
    performs test (seen,System.Move.run task choice)=
      test ⟨task,phase,o,took choice o seen.config.world,r⟩ := by
  rw [performs,Seen.performed_eq htask hphase hp,Option.any_some]

end Moments

/-- What is known of the workers at any time of a run. -/
structure Regular (pairing : Pairing) (seen : Seen watcher) : Prop where
  /-- They have been reached. -/
  reaches : (initial pairing).Reaches seen.config
  /-- Every task is in its phase. -/
  conforms : seen.Conforms
  /-- Every attempt knows the key. -/
  informed : Informed (P := watcher) Phase.attempt seen

section Runs

variable {pairing : Pairing} {seen : Seen watcher} {moves : List workers.Move}

/-- Every run is regular. -/
theorem regular (hrun : (Seen.initial watcher (initial pairing)).run moves=some seen) :
    Regular pairing seen := by
  obtain ⟨hinformed,hconforms⟩ := informed_of_run tracks body_follows rfl hrun
  exact ⟨⟨moves,Seen.run_config hrun⟩,hconforms,hinformed⟩

/-- A move keeps the workers regular. -/
theorem Regular.step {seen' : Seen watcher} {move : workers.Move} (h : Regular pairing seen)
    (hs : Seen.Moved seen move seen') : Regular pairing seen' where
  reaches := by
    obtain ⟨earlier,hearlier⟩ := h.reaches
    exact ⟨_,System.Config.run_concat hearlier hs.config⟩
  conforms := h.conforms.step body_follows hs
  informed := h.informed.step tracks hs

/-- The stored session belongs to the two players. -/
theorem Regular.belongs (h : Regular pairing seen) {session : PvPSessionState}
    (hs : seen.config.world.value=some session) : BelongsTo pairing session :=
  (chronicle h.reaches).players session hs

/-- Rounds are numbered in the order in which they are played. -/
theorem Regular.numbered (h : Regular pairing seen) {session : PvPSessionState}
    (hs : seen.config.world.value=some session) {round : RoundState}
    (hround : session.gameState.currentRound=some round) :
    round.roundNumber=session.gameState.roundResults.length+1 := by
  have hchronicle := chronicle h.reaches
  have hfits := (turns_of_follows hchronicle.follows).fits session (hchronicle.value.symm.trans hs)
  exact hfits.numbered round hround

/-- The induction over a run of the workers. -/
theorem along {I : List Moment → Seen watcher → Prop} {F : List Moment → Moment → Prop}
    (hstep : ∀ {history : List Moment} {seen seen' : Seen watcher} {move : workers.Move},
      Regular pairing seen → I history seen → F history (seen,move) →
      Seen.Moved seen move seen' → I (history++[(seen,move)]) seen')
    (hrun : (Seen.initial watcher (initial pairing)).run moves=some seen)
    (hfits : Meets F (momentsOf pairing moves)) (h : I [] (Seen.initial watcher (initial pairing))) :
    I (momentsOf pairing moves) seen := by
  refine (Seen.along (F := F) body_follows rfl
    (I := fun history seen => I history seen ∧ Informed (P := watcher) Phase.attempt seen)
    ?_ hrun hfits ⟨h,fun _ _ hphase => nomatch hphase⟩).1.1
  rintro history seen seen' move hreaches hconforms ⟨hi,hinformed⟩ hf hs
  exact ⟨hstep ⟨hreaches,hconforms,hinformed⟩ hi hf hs,hinformed.step tracks hs⟩

/-- An operation writes what its transaction makes of the session that it has read, or
it leaves the session as it is, or it deletes it. -/
theorem Regular.key_cases (h : Regular pairing seen) {task : TaskId} {choice : Choice}
    {phase : Phase} {o : Op language} {rest : Except Exc o.Res → Coroutine Unit} {world : World}
    {r : Except Exc o.Res} {started : Option Entry}
    (htask : seen.config.tasks[task]?=some (.op o rest)) (hphase : seen.phases[task]?=some phase)
    (hp : WatchedKey.perform (R := runtime) choice task seen.config.tasks.length o
      seen.config.world=some (world,r,started)) :
    (∃ token retriesLeft call before after,
      o=.store (.exec token retriesLeft call after) ∧ took choice o seen.config.world=true ∧
        phase.control.Runs call ∧ seen.config.world.value=some before ∧ world.value=some after ∧
        phase.attempt=.found token before ∧ Makes call before after) ∨
    (world.value=seen.config.world.value ∨ world.value=none ∧ o=.store .delete) ∧
      ∀ token retriesLeft call after,
        o=.store (.exec token retriesLeft call after) → took choice o seen.config.world=false := by
  have hallows := h.conforms.allows hphase htask
  have hreadOnly : ReadOnly o →
      (world.value=seen.config.world.value ∨ world.value=none ∧ o=.store .delete) ∧
      ∀ token retriesLeft call after,
        o=.store (.exec token retriesLeft call after) → took choice o seen.config.world=false := by
    intro hr
    refine ⟨.inl (perform_readOnly hr hp).2,?_⟩
    rintro token retriesLeft call after rfl
    exact hr.elim
  match o with
  | .store .watch | .store .unwatch | .store .get | .store .load | .act _ =>
    exact .inr (hreadOnly True.intro)
  | .store (.set _ _ _) => exact hallows.1.elim
  | .store .delete =>
    have hvalue := perform_delete (L := language) (R := runtime) hp
    refine .inr ⟨?_,fun _ _ _ _ he => nomatch he⟩
    obtain hsame | hnone := hvalue
    · exact .inl hsame
    · exact .inr ⟨hnone,rfl⟩
  | .store (.exec token retriesLeft call value) =>
    have hexec := perform_exec hp
    cases htook : took choice (.store (.exec token retriesLeft call value)) seen.config.world with
    | true =>
      rw [htook,if_pos rfl] at hexec
      obtain ⟨before,hbefore,hfound,hmakes⟩ := found_of_exec tracks h.informed h.conforms hphase
        htask htook
      exact .inl ⟨token,retriesLeft,call,before,value,rfl,rfl,hallows.1,hbefore,hexec.2.1,hfound,
        hmakes⟩
    | false =>
      rw [htook,if_neg Bool.false_ne_true] at hexec
      exact .inr ⟨.inl hexec.2,fun _ _ _ _ _ => rfl⟩

/-- A transaction that is known to have committed. -/
theorem Regular.committed (h : Regular pairing seen) {task : TaskId} {choice : Choice}
    {phase : Phase} {token retriesLeft : ℕ} {call : Call} {session : PvPSessionState}
    {rest : Except Exc Bool → Coroutine Unit} {world : World} {started : Option Entry}
    (htask : seen.config.tasks[task]?=some (.op (.store (.exec token retriesLeft call session)) rest))
    (hphase : seen.phases[task]?=some phase)
    (hp : WatchedKey.perform (R := runtime) choice task seen.config.tasks.length
      (.store (.exec token retriesLeft call session)) seen.config.world=
        some (world,.ok true,started)) :
    took choice (.store (.exec token retriesLeft call session)) seen.config.world=true ∧
      ∃ before,seen.config.world.value=some before ∧ world.value=some session ∧
        phase.attempt=.found token before ∧ phase.control.Runs call ∧ Makes call before session := by
  have htook : took choice (.store (.exec token retriesLeft call session))
      seen.config.world=true := by
    obtain ⟨exc,he⟩ | ⟨res,he,heffective⟩ := Outcome.store ⟨choice,task,_,_,_,_,hp,rfl⟩
    · cases he
    · cases he
      exact heffective
  refine ⟨htook,?_⟩
  obtain ⟨_,_,_,before,_,he,-,hruns,hbefore,hafter,hfound,hmakes⟩ | ⟨-,hnone⟩ :=
    h.key_cases htask hphase hp
  · cases he
    exact ⟨before,hbefore,hafter,hfound,hruns,hmakes⟩
  · rw [hnone _ _ _ _ rfl] at htook
    cases htook

/-- The turn is over in the stored session. -/
def IsPast (turn : TurnKey) (config : workers.Config) : Prop :=
  ∀ session,config.world.value=some session → ∀ current,currentTurn session=some current →
    turn<current

/-- A turn that is over stays so. -/
theorem IsPast.step {turn : TurnKey} {seen' : Seen watcher} {move : workers.Move}
    (hregular : Regular pairing seen)
    (h : IsPast turn seen.config) (hs : Seen.Moved seen move seen') :
    IsPast turn seen'.config := by
  cases hs with
  | opened entry harrives => exact h
  | performed task choice phase o rest world r started htask hphase hp =>
    intro session' hsession' current' hcurrent'
    obtain ⟨token,retriesLeft,call,before,after,rfl,-,-,hbefore,hafter,-,hmakes⟩ |
      ⟨hsame | ⟨hnone,-⟩,-⟩ := hregular.key_cases htask hphase hp
    · cases hafter.symm.trans hsession'
      obtain ⟨current,hcurrent,hturn⟩ :=
        turn_of_makes hmakes (fun _ => hregular.numbered hbefore) hcurrent'
      have hlt := h before hbefore current hcurrent
      split at hturn
      · exact lt_trans hlt hturn
      · rwa [← hturn]
    · exact h session' (hsame.symm.trans hsession') current' hcurrent'
    · cases hnone.symm.trans hsession'

/-- A resolution ends its turn, and no session after it has an earlier one. -/
theorem Regular.past_of_resolves (h : Regular pairing seen) {task : TaskId} {choice : Choice}
    {phase : Phase} {token retriesLeft : ℕ} {p1Action p2Action : Action} {session : PvPSessionState}
    {rest : Except Exc Bool → Coroutine Unit} {world : World} {started : Option Entry}
    (htask : seen.config.tasks[task]?=
      some (.op (.store (.exec token retriesLeft (.resolve p1Action p2Action) session)) rest))
    (hphase : seen.phases[task]?=some phase)
    (hp : WatchedKey.perform (R := runtime) choice task seen.config.tasks.length
      (.store (.exec token retriesLeft (.resolve p1Action p2Action) session)) seen.config.world=
        some (world,.ok true,started)) {turn : TurnKey} (hopen : openTurn phase.attempt=some turn)
    {tasks : List (Coroutine Unit)} : IsPast turn ⟨world,tasks⟩ := by
  obtain ⟨-,before,hbefore,hafter,hfound,-,hmakes⟩ := h.committed htask hphase hp
  intro session' hsession' current hcurrent
  cases hafter.symm.trans hsession'
  obtain ⟨turn',hturn',hlt⟩ := turn_of_makes hmakes (fun _ => h.numbered hbefore) hcurrent
  rw [openTurn,hfound] at hopen
  obtain ⟨round,hround,rfl⟩ := Option.map_eq_some_iff.mp hopen
  rw [currentTurn,(openRound_eq_some.mp hround).2] at hturn'
  cases hturn'
  exact hlt

/-- A key that is gone stays so. -/
theorem Regular.missing {seen' : Seen watcher} {move : workers.Move} (hregular : Regular pairing seen)
    (hs : Seen.Moved seen move seen')
    (h : seen.config.world.value=none) : seen'.config.world.value=none := by
  cases hs with
  | opened entry harrives => exact h
  | performed task choice phase o rest world r started htask hphase hp =>
    obtain ⟨_,_,_,before,_,-,-,-,hbefore,-⟩ | ⟨hsame | ⟨hnone,-⟩,-⟩ :=
      hregular.key_cases htask hphase hp
    · rw [h] at hbefore
      cases hbefore
    · exact hsame.trans h
    · exact hnone

/-- The tasks that the code starts are timers: a turn timer after the prompts, and a
forfeit timer for a player who has left. -/
theorem started_cases {task fresh : TaskId} {choice : Choice} {o : Op language}
    {world world' : World} {r : Except Exc o.Res} {entry : Entry}
    (hp : WatchedKey.perform (R := runtime) choice task fresh o world=some (world',r,some entry)) :
    (∃ worker,o=.act (.restartTimeout worker) ∧ entry=.turnTimeout worker) ∨
      ∃ worker player opponent,o=.act (.startDisconnect worker player opponent) ∧
        entry=.forfeitAfterTimeout worker player opponent := by
  obtain ⟨pick,-,he⟩ | ⟨exc,-,-,hnone,-⟩ := perform_cases hp
  · cases o with
    | store o => cases he
    | act o =>
      cases o with
      | restartTimeout worker =>
        cases he
        exact .inl ⟨worker,rfl,rfl⟩
      | startDisconnect worker player opponent =>
        cases he
        exact .inr ⟨worker,player,opponent,rfl,rfl⟩
      | receive frame => cases frame <;> cases he
      | send | sendJson | accept | safeClose | sleep | register | unregister | isConnected
      | roomSize | cancelTimeout | cancelDisconnect | cleanup => cases he
  · cases hnone

end Runs

end KiClash.GameTransactions

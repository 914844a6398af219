import KiClash.HiddenActions
import KiClash.SubmitRetries

/-!
# Submissions while an action is hidden

A submission of the other player is refused or completes the pair, and one of
the player replaces what is hidden. The submission in which two runs differ
ends with a message to its player, unless an aborted attempt has left a pair
behind, which is resolved although the committed attempt has only stored the
action.
-/

namespace KiClash.HiddenActions

open EngineTypes OutcomeMatrix Engine ServerMessages AsyncTasks WatchedKey VeiledRuns Histories
open GameStore GameSession PendingPairs SessionChronicle SessionTurns SlottedTurns
open GameHandshake

variable {pairing : Pairing} {seat : Seat} {worker : Worker}

section Submissions

variable {player : UUID} {action : Action} {session session' : PvPSessionState}

/-- Sessions that look alike accept the same actions. -/
theorem LooksLike.acceptingRound (h : LooksLike pairing seat session session') (player : UUID)
    (action : Action) :
    PendingPairs.acceptingRound player action session'=
      PendingPairs.acceptingRound player action session := by
  unfold PendingPairs.acceptingRound openRound kiOf
  rw [h.gameState,h.player1Id]

/-- Why an action is refused. -/
def refusal (player : UUID) (action : Action) (session : PvPSessionState) : String :=
  if session.gameState.status≠.inProgress then "Game is not in progress"
  else match session.gameState.currentRound with
  | none => "Round not active"
  | some round => cannotAfford action (kiOf player session round)

/-- It is refused alike in sessions that look alike. -/
theorem LooksLike.refusal (h : LooksLike pairing seat session session') (player : UUID)
    (action : Action) :
    HiddenActions.refusal player action session'=HiddenActions.refusal player action session := by
  unfold HiddenActions.refusal kiOf
  rw [h.gameState,h.player1Id]

/-- A refused action. -/
theorem storeAction_refused (h : PendingPairs.acceptingRound player action session=none)
    (captured : SubmitCaptured) : storeAction player action captured session=
      .ok ({captured with validationError := some (refusal player action session)},session) := by
  unfold storeAction refusal
  unfold PendingPairs.acceptingRound openRound at h
  by_cases hs : session.gameState.status=.inProgress
  · rw [if_pos hs] at h
    rw [if_neg (by simpa using hs),if_neg (by simpa using hs)]
    cases hr : session.gameState.currentRound with
    | none => rfl
    | some round =>
      rw [hr,Option.filter_some] at h
      have hv : ¬validateAction action (kiOf player session round)=true := by
        intro hv
        rw [if_pos hv] at h
        cases h
      exact if_pos hv
  · rw [if_pos (by simpa using hs),if_pos (by simpa using hs)]

/-- What an accepted action does depends on the session with the action in its slot. -/
theorem storeAction_accepted {round : RoundState}
    (h : PendingPairs.acceptingRound player action session=some round) (captured : SubmitCaptured) :
    storeAction player action captured session=
      match (storeInSlot player action session).p1Action,
        (storeInSlot player action session).p2Action with
      | some p1Action,some p2Action =>
        .ok (⟨captured.validationError,true,some p1Action,some p2Action,round.turnNumber+1⟩,
          cleared (storeInSlot player action session))
      | _,_ => .ok ({captured with confirmedTurnNumber := round.turnNumber+1},
          storeInSlot player action session) := by
  obtain ⟨hopen,hv⟩ := acceptingRound_eq_some.mp h
  obtain ⟨hs,hr⟩ := openRound_eq_some.mp hopen
  unfold storeAction
  rw [if_neg (by simpa using hs),hr]
  dsimp only
  rw [if_neg (by simpa [kiOf] using hv)]
  rfl

/-- An action of the player of the seat takes the place of whatever is hidden. -/
theorem LooksLike.storeInSlot (h : LooksLike pairing seat session session') (action : Action) :
    GameSession.storeInSlot (playerOf pairing seat) action session'=
      GameSession.storeInSlot (playerOf pairing seat) action session := by
  obtain ⟨hbelongs,hgame,h₁,h₂,hconnected,hstarted,hothers,-,-⟩ := h
  have hne : session.player1Id≠session.player2Id := by
    rw [hbelongs.1,hbelongs.2]
    exact pairing.distinct
  obtain ⟨gameState,player1Id,player2Id,connectedPlayers,started,p1Action,p2Action⟩ := session
  obtain ⟨gameState',player1Id',player2Id',connectedPlayers',started',p1Action',p2Action'⟩ :=
    session'
  obtain ⟨hb₁,hb₂⟩ := hbelongs
  simp only at hgame h₁ h₂ hconnected hstarted hne hb₁ hb₂
  subst hgame h₁ h₂ hconnected hstarted
  cases seat with
  | first =>
    have ho : p2Action'=p2Action := hothers .second nofun
    have hp : playerOf pairing .first=player1Id' := hb₁.symm
    simp only [GameSession.storeInSlot,hp,if_true,ho]
  | second =>
    have ho : p1Action'=p1Action := hothers .first nofun
    have hp : ¬playerOf pairing .second=player1Id' := fun he => hne (he.symm.trans hb₂.symm)
    have hp₂ : playerOf pairing .second=player2Id' := hb₂.symm
    simp only [GameSession.storeInSlot,if_neg hp,if_pos hp₂,ho]

/-- Nothing is pending after a pair has been taken out. -/
theorem pending_cleared (session : PvPSessionState) (seat : Seat) :
    ¬(pending (cleared session) seat).isSome=true := by
  cases seat <;> nofun

/-- submit_action after its transaction, if there was a session. -/
def afterSubmit (worker : Worker) (playerId : UUID) (action : Action) :
    Option (SubmitCaptured×PvPSessionState) → Coroutine Unit
  | none => send worker playerId (.errorMsg "Game not found")
  | some (captured,_) => concludeSubmit worker playerId action captured

/-- The rest of submit_action. -/
theorem quiet_afterSubmit (player : UUID) (action : Action)
    (outcome : Option (SubmitCaptured×PvPSessionState)) :
    Quiet pairing seat (afterSubmit worker player action outcome) := by
  cases outcome with
  | none => exact quiet_send _ _
  | some x =>
    change Quiet pairing seat (concludeSubmit worker player action x.1)
    unfold concludeSubmit
    split
    · exact quiet_send _ _
    · refine (quiet_send _ _).bind fun _ => ?_
      split
      · exact quiet_resolveTurn _ _
      · exact quiet_done _

/-- A submission keeps the players. -/
theorem belongs_storeAction (hplayer : player=pairing.player1Id ∨ player=pairing.player2Id)
    (captured : SubmitCaptured) (x : SubmitCaptured×PvPSessionState)
    (hbelongs : BelongsTo pairing session)
    (hx : storeAction player action captured session=.ok x) : BelongsTo pairing x.2 :=
  (Effect.submit hplayer (storeAction_cases hx)).belongsTo hbelongs

/-- The players of a pairing. -/
theorem playerOf_mem (pairing : Pairing) (seat : Seat) :
    playerOf pairing seat=pairing.player1Id ∨ playerOf pairing seat=pairing.player2Id := by
  cases seat with
  | first => exact .inl rfl
  | second => exact .inr rfl

/-- A submission of the player of the seat replaces what is hidden. -/
theorem updates_own (action : Action) :
    Updates pairing seat (storeAction (playerOf pairing seat) action) Eq
      (afterSubmit worker (playerOf pairing seat) action) where
  rest := quiet_afterSubmit _ action
  belongs captured _ x hbelongs hx :=
    belongs_storeAction (playerOf_mem pairing seat) captured x hbelongs hx
  refl _ _ _ _ _ := rfl
  alike := by
    rintro captured _ session session' rfl hsame
    cases haccept : PendingPairs.acceptingRound (playerOf pairing seat) action session with
    | none =>
      rw [storeAction_refused haccept,
        storeAction_refused ((hsame.acceptingRound _ _).trans haccept),hsame.refusal]
      exact .ok ⟨rfl,fun _ => ⟨hsame,(quiet_afterSubmit _ action (some (_,session))).alike⟩⟩
    | some round =>
      rw [storeAction_accepted haccept,
        storeAction_accepted ((hsame.acceptingRound _ _).trans haccept),hsame.storeInSlot]
      split
      · exact .ok ⟨rfl,fun hcovered => absurd hcovered (pending_cleared _ seat)⟩
      · refine .ok ⟨rfl,fun hcovered => ⟨(veil pairing seat).refl ?_ hcovered,
          (quiet_afterSubmit _ action _).alike⟩⟩
        exact ⟨(storeInSlot_player1Id _ _ session).trans hsame.belongs.1,
          (storeInSlot_player2Id _ _ session).trans hsame.belongs.2⟩

/-- The seat of a player of the pairing. -/
theorem playerOf_seatOf (hplayer : player=pairing.player1Id ∨ player=pairing.player2Id) :
    playerOf pairing (seatOf pairing player)=player := by
  unfold seatOf
  split
  · next h => exact h.symm
  · next h => exact (hplayer.resolve_left h).symm

/-- An action of the other player completes a pair. -/
theorem filled_storeInSlot (hplayer : player=pairing.player1Id ∨ player=pairing.player2Id)
    (hother : player≠playerOf pairing seat) (action : Action) (hbelongs : BelongsTo pairing session)
    (hfilled : (pending session seat).isSome=true) (which : Seat) :
    (pending (storeInSlot player action session) which).isSome=true := by
  rw [pending_storeInSlot hbelongs hplayer]
  by_cases hw : which=seatOf pairing player
  · rw [hw,Function.update_self]
    rfl
  · rw [Function.update_of_ne hw]
    have hseat : seatOf pairing player≠seat := by
      rintro rfl
      exact hother (playerOf_seatOf hplayer).symm
    have he : which=seat := by
      cases which <;> cases seat <;> cases hs : seatOf pairing player <;> simp_all
    rw [he]
    exact hfilled

/-- A submission of the other player while an action is hidden is refused or completes the pair. -/
theorem updates_other (hplayer : player=pairing.player1Id ∨ player=pairing.player2Id)
    (hother : player≠playerOf pairing seat) (action : Action) :
    Updates pairing seat (storeAction player action)
      (fun captured captured' => captured'.validationError=captured.validationError)
      (afterSubmit worker player action) where
  rest := quiet_afterSubmit _ action
  belongs captured _ x hbelongs hx := belongs_storeAction hplayer captured x hbelongs hx
  refl _ _ _ _ _ := rfl
  alike := by
    intro captured captured' session session' hlike hsame
    cases haccept : PendingPairs.acceptingRound player action session with
    | none =>
      rw [storeAction_refused haccept,
        storeAction_refused ((hsame.acceptingRound _ _).trans haccept),hsame.refusal]
      exact .ok ⟨rfl,fun _ => ⟨hsame,(quiet_send player _).alike⟩⟩
    | some round =>
      rw [storeAction_accepted haccept,
        storeAction_accepted ((hsame.acceptingRound _ _).trans haccept)]
      have hfilled := filled_storeInSlot hplayer hother action hsame.belongs hsame.filled
      have hbelongs' : BelongsTo pairing session' :=
        ⟨hsame.player1Id.trans hsame.belongs.1,hsame.player2Id.trans hsame.belongs.2⟩
      have hfilled' := filled_storeInSlot hplayer hother action hbelongs' hsame.filled'
      obtain ⟨p1Action,h₁⟩ := Option.isSome_iff_exists.mp (hfilled .first)
      obtain ⟨p2Action,h₂⟩ := Option.isSome_iff_exists.mp (hfilled .second)
      obtain ⟨p1Action',h₁'⟩ := Option.isSome_iff_exists.mp (hfilled' .first)
      obtain ⟨p2Action',h₂'⟩ := Option.isSome_iff_exists.mp (hfilled' .second)
      rw [show (storeInSlot player action session).p1Action=_ from h₁,
        show (storeInSlot player action session).p2Action=_ from h₂,
        show (storeInSlot player action session').p1Action=_ from h₁',
        show (storeInSlot player action session').p2Action=_ from h₂']
      exact .ok ⟨hlike,fun hcovered => absurd hcovered (pending_cleared _ seat)⟩

/-- submit_action of a player of the pairing. -/
theorem quiet_submitAction (hplayer : player=pairing.player1Id ∨ player=pairing.player2Id)
    (action : Action) : Quiet pairing seat (submitAction worker player action) := by
  by_cases hown : player=playerOf pairing seat
  · subst hown
    exact (updates_own action).quiet _ rfl
  · exact (updates_other hplayer hown action).quiet _ rfl

end Submissions

section Bodies

/-- _turn_timeout for one player. -/
theorem quiet_submitDefault {player : UUID}
    (hplayer : player=pairing.player1Id ∨ player=pairing.player2Id) (needs : Bool) :
    Quiet pairing seat (submitDefault worker needs player) := by
  cases needs with
  | false => exact quiet_done _
  | true => exact quiet_submitAction hplayer _

/-- Whether an action is pending is seen alike. -/
theorem LooksLike.isNone {session session' : PvPSessionState}
    (h : LooksLike pairing seat session session') (which : Seat) :
    (pending session' which).isNone=(pending session which).isNone := by
  by_cases hw : which=seat
  · subst hw
    rw [Option.isNone_eq_false_iff.mpr h.filled,Option.isNone_eq_false_iff.mpr h.filled']
  · rw [h.others which hw]

/-- _turn_timeout. -/
theorem quiet_turnTimeout : Quiet pairing seat (turnTimeout worker) := by
  refine (quiet_act (.sleep _) rfl).bind fun _ =>
    quiet_tryLoad (quiet_done _) (quiet_done _) (fun session hbelongs => ?_) ?_
  · dsimp only
    split
    · exact quiet_done _
    · exact (quiet_submitDefault (.inl hbelongs.1) _).bind fun _ =>
        quiet_submitDefault (.inr hbelongs.2) _
  · intro session session' h
    have h₁ : session'.p1Action.isNone=session.p1Action.isNone := h.isNone .first
    have h₂ : session'.p2Action.isNone=session.p2Action.isNone := h.isNone .second
    simp only [h.gameState,h.player1Id,h.player2Id,h₁,h₂]

/-- What game_ws does with a frame. -/
theorem quiet_handleFrame {player : UUID}
    (hplayer : player=pairing.player1Id ∨ player=pairing.player2Id) (frame : Frame) :
    Quiet pairing seat (handleFrame worker player frame) := by
  cases frame with
  | malformed | other => exact quiet_done _
  | ping => exact quiet_act _ rfl
  | submitAction text =>
    dsimp only [handleFrame]
    split
    · exact quiet_act _ rfl
    · exact quiet_submitAction hplayer _

/-- The receive loop. -/
theorem tame_receiveLoop {player : UUID}
    (hplayer : player=pairing.player1Id ∨ player=pairing.player2Id) (frames : List Frame) :
    Tame (veil pairing seat) True (receiveLoop worker player frames) := by
  induction frames with
  | nil => exact (quiet_act (.receive none) rfl).mono
  | cons frame frames ih =>
    refine Tame.act (V := veil pairing seat) (o := .receive (some frame)) (fun _ => True.intro)
      fun r => ?_
    cases r with
    | error e => exact .done _
    | ok _ => exact (quiet_handleFrame hplayer frame).mono.bind fun _ => ih

/-- What the receive loop has raised. -/
theorem quiet_lost (player : UUID) (r : Except Exc Unit) :
    Quiet pairing seat ((Prog.done r : Coroutine Unit).handle fun e =>
      if e=.webSocketDisconnect then handleDisconnect worker player else .raise e) := by
  cases r with
  | ok _ => exact quiet_done _
  | error e =>
    change Quiet pairing seat (if e=.webSocketDisconnect then handleDisconnect worker player
      else .raise e)
    split
    · exact quiet_handleDisconnect player
    · exact quiet_done _

/-- The end of game_ws. -/
theorem quiet_closed (player : UUID) (r : Except Exc Unit) :
    Quiet pairing seat
      ((Prog.done r : Coroutine Unit).cleanupWith (closeSocket worker player)) := by
  apply (quiet_closeSocket player).andThen
  intro r'
  cases r' <;> exact quiet_done _

/-- game_ws once the player may play. -/
theorem tame_playGame {player : UUID}
    (hplayer : player=pairing.player1Id ∨ player=pairing.player2Id) (frames : List Frame) :
    Tame (veil pairing seat) True (playGame worker player frames) := by
  refine (quiet_handleConnect player).mono.bind fun _ => quiet_startWhenFull.mono.bind fun _ => ?_
  apply Tame.andThen
  · apply (tame_receiveLoop hplayer frames).andThen
    exact fun r => (quiet_lost player r).mono
  · exact fun r => (quiet_closed player r).mono

/-- A session of the pairing knows its players. -/
theorem player_of_isPlayer {player : UUID} {session : PvPSessionState}
    (hbelongs : BelongsTo pairing session) (h : session.isPlayer player=true) :
    player=pairing.player1Id ∨ player=pairing.player2Id := by
  simpa [PvPSessionState.isPlayer,hbelongs.1,hbelongs.2] using h

/-- game_ws. -/
theorem tame_gameWs (player : UUID) (frames : List Frame) :
    Tame (veil pairing seat) True (gameWs worker player frames) := by
  refine (quiet_act .accept rfl).mono.bind fun _ =>
    (quiet_act (.safeClose _ _) rfl).mono.bind fun _ =>
    (quiet_act (.register _ _) rfl).mono.bind fun _ => ?_
  refine Tame.load (quiet_refuse _ _).mono (fun session hbelongs => ?_) (fun e => .done _) ?_
  · change Tame (veil pairing seat) True (if !session.isPlayer player then
      refuse worker player "Not a player in this game" else playGame worker player frames)
    cases hp : session.isPlayer player with
    | false => exact (quiet_refuse _ _).mono
    | true => exact tame_playGame (player_of_isPlayer hbelongs hp) frames
  · intro session session' h
    have hp : session'.isPlayer player=session.isPlayer player := by
      unfold PvPSessionState.isPlayer
      rw [h.player1Id,h.player2Id]
    change (if !session.isPlayer player then _ else _)=if !session'.isPlayer player then _ else _
    rw [hp]

/-- All tasks of the workers. -/
theorem tame_body (entry : Entry) : Tame (veil pairing seat) True (body entry) := by
  cases entry with
  | gameWs worker player frames => exact tame_gameWs player frames
  | turnTimeout worker => exact quiet_turnTimeout.mono
  | forfeitAfterTimeout worker disconnected opponent => exact (quiet_forfeitAfterTimeout _ _).mono

end Bodies

section Secret

variable {player : UUID} {action action' : Action}

/-- A submission that leaves an action of its player pending, and that leaves no stale pair behind,
ends with a message to the player. -/
theorem conclude_own (worker : Worker) {session : PvPSessionState} {stale : SubmitCaptured}
    {x : SubmitCaptured×PvPSessionState} (hkeeps : leavesNoPair stale)
    (hx : storeAction player action stale session=.ok x)
    (hcovered : (pending x.2 seat).isSome=true) :
    ∃ message,concludeSubmit worker player action x.1=send worker player message := by
  cases haccept : PendingPairs.acceptingRound player action session with
  | none =>
    rw [storeAction_refused haccept] at hx
    cases hx
    exact ⟨_,rfl⟩
  | some round =>
    rw [storeAction_accepted haccept] at hx
    split at hx
    · cases hx
      exact absurd hcovered (pending_cleared _ seat)
    · cases hx
      unfold concludeSubmit
      cases hv : stale.validationError with
      | some message => exact ⟨.errorMsg message,rfl⟩
      | none =>
        refine ⟨.actionConfirmed (round.turnNumber+1) action.value,?_⟩
        simp only [hkeeps hv]
        refine congrArg (Prog.op _) (funext fun r => ?_)
        cases r <;> rfl

/-- A seat is that of its player. -/
theorem seatOf_playerOf (pairing : Pairing) (seat : Seat) :
    seatOf pairing (playerOf pairing seat)=seat := by
  cases seat with
  | first => exact if_pos rfl
  | second => exact if_neg pairing.distinct.symm

/-- What a submission leaves alone that leaves an action of its player pending. -/
theorem rest_own {session : PvPSessionState} {stale : SubmitCaptured}
    {x : SubmitCaptured×PvPSessionState} (hbelongs : BelongsTo pairing session)
    (hx : storeAction (playerOf pairing seat) action stale session=.ok x)
    (hcovered : (pending x.2 seat).isSome=true) (other : Seat) (hother : other≠seat) :
    pending x.2 other=pending session other := by
  have hstores := storeAction_cases hx
  clear hx
  obtain ⟨captured,session'⟩ := x
  dsimp only at hcovered hstores ⊢
  cases hstores with
  | rejected => rfl
  | stored =>
    rw [pending_storeInSlot hbelongs (playerOf_mem pairing seat),seatOf_playerOf,
      Function.update_of_ne hother]
  | completed => exact absurd hcovered (pending_cleared _ seat)

/-- Two submissions of different actions leave sessions that look alike. -/
theorem looksLike_own {session : PvPSessionState} {stale stale' : SubmitCaptured}
    {x x' : SubmitCaptured×PvPSessionState} (hbelongs : BelongsTo pairing session)
    (hx : storeAction (playerOf pairing seat) action stale session=.ok x)
    (hx' : storeAction (playerOf pairing seat) action' stale' session=.ok x')
    (hcovered : (pending x.2 seat).isSome=true) (hcovered' : (pending x'.2 seat).isSome=true) :
    LooksLike pairing seat x.2 x'.2 := by
  obtain ⟨hgame,hconnected,hstarted⟩ := GameTransactions.stores_rest (storeAction_cases hx)
  obtain ⟨hgame',hconnected',hstarted'⟩ := GameTransactions.stores_rest (storeAction_cases hx')
  have hids := belongs_storeAction (playerOf_mem pairing seat) stale x hbelongs hx
  have hids' := belongs_storeAction (playerOf_mem pairing seat) stale' x' hbelongs hx'
  refine ⟨hids,hgame'.trans hgame.symm,hids'.1.trans hids.1.symm,hids'.2.trans hids.2.symm,
    hconnected'.trans hconnected.symm,hstarted'.trans hstarted.symm,fun other ho => ?_,hcovered,
    hcovered'⟩
  rw [rest_own hbelongs hx hcovered other ho,rest_own hbelongs hx' hcovered' other ho]

/-- The transaction of the submission in which two runs differ. -/
theorem poised_watchAndUpdate (attempts : ℕ) (captured captured' : SubmitCaptured) :
    Poised (veil pairing seat) 0
      ((watchAndUpdate (.submit (playerOf pairing seat) action)
        (storeAction (playerOf pairing seat) action) attempts captured).andThen
          (afterUpdate (afterSubmit worker (playerOf pairing seat) action)))
      ((watchAndUpdate (.submit (playerOf pairing seat) action')
        (storeAction (playerOf pairing seat) action') attempts captured').andThen
          (afterUpdate (afterSubmit worker (playerOf pairing seat) action'))) := by
  -- an exception ends both in the same way
  have hraised : ∀ e,Poised (veil pairing seat) 0
      (afterUpdate (afterSubmit worker (playerOf pairing seat) action) (.error e))
      (afterUpdate (afterSubmit worker (playerOf pairing seat) action') (.error e)) :=
    fun e => .past ((updates_own action).quiet_rest (.error e)).mono
  induction attempts generalizing captured captured' with
  | zero => exact hraised .tooManyConflicts
  | succ attempts ih =>
    refine Poised.op (o := .store .watch) rfl fun token _ => ?_
    cases token with
    | error e => exact hraised e
    | ok token =>
      refine Poised.op (o := .store .get) rfl fun raw hraw => ?_
      obtain e | _ | session := raw
      · exact hraised e
      · refine Poised.op (o := .store .unwatch) rfl fun r _ => ?_
        cases r with
        | error e => exact hraised e
        | ok r => exact hraised .gameNotFound
      · have hbelongs : BelongsTo pairing session := hraw
        obtain ⟨next,hx⟩ := SubmitRetries.storeAction_ok (playerOf pairing seat) action captured
          session
        obtain ⟨next',hx'⟩ := SubmitRetries.storeAction_ok (playerOf pairing seat) action' captured'
          session
        generalize SubmitRetries.captures (playerOf pairing seat) action captured session=stale
          at hx
        generalize SubmitRetries.captures (playerOf pairing seat) action' captured' session=stale'
          at hx'
        change Poised (veil pairing seat) 0
          ((decided (.submit (playerOf pairing seat) action)
            (storeAction (playerOf pairing seat) action) attempts token captured session).andThen
              (afterUpdate (afterSubmit worker (playerOf pairing seat) action)))
          ((decided (.submit (playerOf pairing seat) action')
            (storeAction (playerOf pairing seat) action') attempts token captured' session).andThen
              (afterUpdate (afterSubmit worker (playerOf pairing seat) action')))
        unfold decided
        rw [hx,hx']
        refine Poised.exec rfl rfl (fun hc hc' => looksLike_own hbelongs hx hx' hc hc')
          (fun hk hk' hc hc' => ?_) (ih stale stale')
          fun e => ⟨((updates_own action).quiet_rest (.error e)).mono,rfl⟩
        obtain ⟨message,hm⟩ := conclude_own worker hk hx hc
        obtain ⟨message',hm'⟩ := conclude_own worker hk' hx' hc'
        change Alike (veil pairing seat)
          (concludeSubmit worker (playerOf pairing seat) action stale)
          (concludeSubmit worker (playerOf pairing seat) action' stale')
        rw [show concludeSubmit _ _ _ _=_ from hm,show concludeSubmit _ _ _ _=_ from hm']
        refine Alike.hidden (.send worker message message') fun r r' hr => ?_
        obtain rfl := eq_of_heq hr
        exact .done _

/-- The submission in which two runs differ. -/
theorem poised_submitAction : Poised (veil pairing seat) 0
    (submitAction worker (playerOf pairing seat) action)
    (submitAction worker (playerOf pairing seat) action') := by
  have hbind : ∀ action,submitAction worker (playerOf pairing seat) action=
      (watchAndUpdate (.submit (playerOf pairing seat) action)
        (storeAction (playerOf pairing seat) action) defaultMaxRetries .fresh).andThen
          (afterUpdate (afterSubmit worker (playerOf pairing seat) action)) :=
    fun action => update_bind _ (afterSubmit worker (playerOf pairing seat) action)
  rw [hbind,hbind]
  exact poised_watchAndUpdate _ _ _

/-- The receive loops: so many frames come first. -/
theorem poised_receiveLoop (earlier later : List Frame) :
    Poised (veil pairing seat) (earlier.length+1)
      (receiveLoop worker (playerOf pairing seat) (earlier++.submitAction action.value::later))
      (receiveLoop worker (playerOf pairing seat)
        (earlier++.submitAction action'.value::later)) := by
  have hplayer := playerOf_mem pairing seat
  induction earlier with
  | nil =>
    refine Poised.input (.receive _ _) rfl rfl (fun _ _ _ => ?_) fun e => ⟨.done _,rfl⟩
    have hframe : ∀ action : Action,
        handleFrame worker (playerOf pairing seat) (.submitAction action.value)=
          submitAction worker (playerOf pairing seat) action := by
      intro action
      simp only [handleFrame,Action.ofValue?_value]
    change Poised (veil pairing seat) 0
      (handleFrame worker (playerOf pairing seat) (.submitAction action.value) >>=
        fun _ => receiveLoop worker (playerOf pairing seat) later)
      (handleFrame worker (playerOf pairing seat) (.submitAction action'.value) >>=
        fun _ => receiveLoop worker (playerOf pairing seat) later)
    rw [hframe,hframe]
    exact poised_submitAction.bind fun _ => tame_receiveLoop hplayer later
  | cons frame earlier ih =>
    refine Poised.input (.receive frame frame) rfl rfl (fun _ _ _ => ?_) fun e => ⟨.done _,rfl⟩
    exact (quiet_handleFrame hplayer frame).poised_bind fun _ => ih

/-- The handlers once the player may play. -/
theorem poised_playGame (earlier later : List Frame) :
    Poised (veil pairing seat) (earlier.length+1)
      (playGame worker (playerOf pairing seat) (earlier++.submitAction action.value::later))
      (playGame worker (playerOf pairing seat) (earlier++.submitAction action'.value::later)) := by
  refine (quiet_handleConnect _).poised_bind fun _ => quiet_startWhenFull.poised_bind fun _ => ?_
  apply Poised.andThen
  · apply (poised_receiveLoop earlier later).andThen
    exact fun r => (quiet_lost _ r).mono
  · exact fun r => (quiet_closed _ r).mono

/-- The handlers of the game socket. -/
theorem poised_gameWs (earlier later : List Frame) :
    Poised (veil pairing seat) (earlier.length+1)
      (gameWs worker (playerOf pairing seat) (earlier++.submitAction action.value::later))
      (gameWs worker (playerOf pairing seat) (earlier++.submitAction action'.value::later)) := by
  refine (quiet_act .accept rfl).poised_bind fun _ =>
    (quiet_act (.safeClose _ _) rfl).poised_bind fun _ =>
    (quiet_act (.register _ _) rfl).poised_bind fun _ => ?_
  refine Poised.op (o := .store .load) rfl fun raw hraw => ?_
  obtain e | _ | session := raw
  · exact .past (.done _)
  · exact .past (quiet_refuse _ _).mono
  · have hbelongs : BelongsTo pairing session := hraw
    have hp : session.isPlayer (playerOf pairing seat)=true := by
      simpa [PvPSessionState.isPlayer,hbelongs.1,hbelongs.2] using playerOf_mem pairing seat
    change Poised (veil pairing seat) (earlier.length+1)
      (if !session.isPlayer (playerOf pairing seat) then
        refuse worker (playerOf pairing seat) "Not a player in this game"
        else playGame worker (playerOf pairing seat) (earlier++.submitAction action.value::later))
      (if !session.isPlayer (playerOf pairing seat) then
        refuse worker (playerOf pairing seat) "Not a player in this game"
        else playGame worker (playerOf pairing seat) (earlier++.submitAction action'.value::later))
    rw [hp]
    exact poised_playGame earlier later

end Secret

end KiClash.HiddenActions

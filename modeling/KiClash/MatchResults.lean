import KiClash.Endings
import KiClash.PendingPairs

/-!
# When the players of the Python session agree on the result

Three writers compete for the end of a match: the turn that decides it and the
forfeit timers of the two players. As long as a forfeit is only written while
the match is in progress there is one end, and only the task that has written
it tells the players, each at most once.
-/

namespace KiClash.MatchResults

open EngineTypes Engine EngineRuns ServerMessages Histories Endings AsyncTasks AsyncContracts
open WatchedKey RecordContracts GameStore GameSession SessionContracts SessionSafety PendingPairs

/-- A transaction with which the match leaves IN_PROGRESS. -/
def leavesProgress : GameStore.Event → Bool
  | .commit _ _ before after =>
    before.gameState.status=.inProgress && after.gameState.status≠.inProgress
  | _ => false

/-- A transaction does not change a terminal status. -/
def keepsTerminal : GameStore.Event → Bool
  | .commit _ _ before after =>
    before.gameState.status=.inProgress || after.gameState.status=before.gameState.status
  | _ => true

/-- The winner that a match result names to the player. -/
def resultFor (player : UUID) : GameStore.Event → Option String
  | .note (.sent _ player' (.matchResult winner _ _ _)) =>
    if player'=player then some winner else none
  | _ => none

/-- The match results that the player has been sent. -/
def resultsFor (player : UUID) (trace : List GameStore.Event) : List String :=
  trace.filterMap (resultFor player)

/-- One end of the match, on which the players agree. -/
structure OneResult (pairing : Pairing) (config : workers.Config) : Prop where
  /-- The match leaves IN_PROGRESS at most once. -/
  leavesOnce : (config.world.trace.filter leavesProgress).length≤1
  /-- A terminal status never changes. -/
  terminal : ∀ event∈config.world.trace,keepsTerminal event=true
  /-- Each player is sent at most one result. -/
  once : ∀ player,(resultsFor player config.world.trace).length≤1
  /-- The results do not contradict each other. -/
  agree : ∀ winner₁∈resultsFor pairing.player1Id config.world.trace,
    ∀ winner₂∈resultsFor pairing.player2Id config.world.trace,Agree winner₁ winner₂

/-- A forfeit is written while the match is in progress. -/
def ForfeitsOpenMatch (_earlier : List GameStore.Event) : GameStore.Event → Prop
  | .commit _ (.forfeit _) before _ => before.gameState.status=.inProgress
  | _ => True

instance (earlier : List GameStore.Event) (event : GameStore.Event) :
    Decidable (ForfeitsOpenMatch earlier event) := by
  unfold ForfeitsOpenMatch
  split <;> infer_instance

/-- What the two players are told when a turn decides the match. -/
def resultMessages (result : MatchResult) (p1Id p2Id : UUID) : List (UUID×String) :=
  [(p1Id,winnerForPlayer result.winner p1Id p1Id),(p2Id,winnerForPlayer result.winner p2Id p1Id)]

/-- The player who is told that the other one has forfeited. -/
def opponentOf (forfeiting : RoundWinner) (session : PvPSessionState) : UUID :=
  if forfeiting=.p1 then session.player2Id else session.player1Id

/-- What an event means for the end of the match and its announcement. -/
def noticeOf : GameStore.Event → Notice (UUID×String)
  | .commit task (.resolve p1Action p2Action) before after =>
    match (submitTurn before.gameState p1Action p2Action).2 with
    | .ok ⟨_,_,some result⟩ =>
      .decided task (resultMessages result after.player1Id after.player2Id)
    | _ => .other
  | .commit task (.forfeit forfeiting) before after =>
    if before.gameState.status=.inProgress then
      .decided task [(opponentOf forfeiting after,"you")]
    else .other
  | .note (.sent task player (.matchResult winner _ _ _)) => .told task (player,winner)
  | _ => .other

/-- How the record is read as a history with one end. -/
abbrev reading (pairing : Pairing) : Reading GameStore.Event PvPSessionState (UUID×String) where
  notice := noticeOf
  leaves := leavesProgress
  lasts := keepsTerminal
  isOver value := ∀ session,value=some session → session.gameState.status≠.inProgress
  fair := Fair Agree pairing.player1Id pairing.player2Id

/-- The invariant: the end of the match is told in order, and after it the
match is over. -/
structure ResultInvariant (pairing : Pairing) (record : SessionRecord) : Prop where
  /-- The stored session belongs to the two players. -/
  players : ∀ session,record.value=some session →
    session.player1Id=pairing.player1Id ∧ session.player2Id=pairing.player2Id
  /-- There is one end, and it is told in order. -/
  announced : (reading pairing).Announced record.value record.trace

/-- The task has ended the match and has told so much of it. -/
abbrev Ended (pairing : Pairing) (record : SessionRecord) (task : TaskId)
    (messages sofar : List (UUID×String)) : Prop :=
  (reading pairing).Ended record.trace task messages sofar

/-- What a task expects of the others: nobody else tells the end that it has
written, and a match that is over stays over. -/
abbrev ExpectsEnd (pairing : Pairing) (task : TaskId) (record record' : SessionRecord) : Prop :=
  (reading pairing).Expects task record.value record'.value record.trace record'.trace

/-- The match results among messages, with the players whom they are for. -/
def resultsAmong (messages : List (UUID×ServerMessage)) : List (UUID×String) :=
  messages.filterMap fun message => match message.2 with
    | .matchResult winner _ _ _ => some (message.1,winner)
    | _ => none

/-- What a task has to tell. -/
def HasToTell (pairing : Pairing) (task : TaskId) (phase : Phase) (record : SessionRecord) :
    Prop :=
  match phase with
  | .resolved report => ∀ result,report.matchResult=some result →
    Ended pairing record task (resultMessages result pairing.player1Id pairing.player2Id) []
  | .telling messages _ => resultsAmong messages=[] ∨ ∃ sofar,
    Ended pairing record task (sofar++resultsAmong messages) sofar
  | .forfeited opponent => Ended pairing record task [(opponent,"you")] []
  | _ => True

/-- The contract behind one agreed result. -/
def resultContract (pairing : Pairing) : SessionContract where
  pairing := pairing
  allowed := Meets ForfeitsOpenMatch
  inv _ := ResultInvariant pairing
  expects := ExpectsEnd pairing
  phase := HasToTell pairing

section Steps

variable {pairing : Pairing} {record : SessionRecord} {event : GameStore.Event} {task : TaskId}
  {session session' : PvPSessionState}

/-- What a change of the record has to satisfy. -/
def Within (pairing : Pairing) (task : TaskId) (record record' : SessionRecord)
    (phase : Phase) : Prop :=
  ResultInvariant pairing record' ∧
    (∀ other,other≠task → ExpectsEnd pairing other record record') ∧
    HasToTell pairing task phase record'

/-- What a task has to tell survives what is expected of others. -/
theorem HasToTell.stable {phase : Phase} {record' : SessionRecord}
    (he : ExpectsEnd pairing task record record') (h : HasToTell pairing task phase record) :
    HasToTell pairing task phase record' := by
  cases phase with
  | resolved report => exact fun result hr => (he.mine _ _).mpr (h result hr)
  | telling messages prompts =>
    obtain hnone | ⟨sofar,hended⟩ := h
    · exact .inl hnone
    · exact .inr ⟨sofar,(he.mine _ _).mpr hended⟩
  | forfeited opponent => exact (he.mine _ _).mpr h
  | idle | holding => exact True.intro

/-- An event that neither writes the key nor tells the end concerns nobody. -/
theorem neutral_event {P : SessionRecord → Prop} (hnotice : noticeOf event=.other)
    (hleaves : leavesProgress event=false) (hlasts : keepsTerminal event=true) :
    (resultContract pairing).Neutral P event := by
  intro count record hinv _ _
  exact ⟨⟨hinv.players,hinv.announced.other hnotice hleaves hlasts fun hover => hover⟩,
    Reading.Expects.other hnotice fun hover => hover⟩

/-- It leaves every phase alone. -/
theorem log_unchanged (phase : Phase) (event : GameStore.Event) (hnotice : noticeOf event=.other)
    (hleaves : leavesProgress event=false) (hlasts : keepsTerminal event=true)
    (hinv : ResultInvariant pairing record) (htell : HasToTell pairing task phase record) :
    Within pairing task record (record.log event) phase := by
  have he : ∀ other,ExpectsEnd pairing other record (record.log event) :=
    Reading.Expects.other hnotice fun hover => hover
  exact ⟨⟨hinv.players,hinv.announced.other hnotice hleaves hlasts fun hover => hover⟩,
    fun other _ => he other,htell.stable (he task)⟩

/-- A transaction after which the match stands as before or goes on. -/
theorem commit_other (phase : Phase) (session : PvPSessionState) {call : Call}
    (hnotice : noticeOf (.commit task call session session')=.other)
    (hgame : session'.gameState=session.gameState ∨
      (session.gameState.status=.inProgress ∧ session'.gameState.status=.inProgress))
    (h₁ : session'.player1Id=session.player1Id) (h₂ : session'.player2Id=session.player2Id)
    (hinv : ResultInvariant pairing record) (hv : record.value=some session)
    (hphase : ∀ record',HasToTell pairing task phase record') :
    Within pairing task record (record.commit task call session') phase := by
  have hstatus : session'.gameState.status=session.gameState.status := by
    obtain hgame | ⟨hbefore,hafter⟩ := hgame
    · rw [hgame]
    · rw [hbefore,hafter]
  have hover : (reading pairing).isOver record.value → (reading pairing).isOver (some session') := by
    intro ho s hs
    cases hs
    rw [hstatus]
    exact ho session hv
  rw [record.commit_of_value hv]
  refine ⟨⟨?_,hinv.announced.other hnotice ?_ ?_ hover⟩,
    fun other _ => Reading.Expects.other hnotice hover other,hphase _⟩
  · intro s hs
    cases hs
    rw [h₁,h₂]
    exact hinv.players session hv
  · simp [leavesProgress,hstatus]
  · simp [keepsTerminal,hstatus]

/-- A transaction that ends the match. -/
theorem commit_ends {call : Call} {phase : Phase} {messages : List (UUID×String)}
    (hnotice : noticeOf (.commit task call session session')=.decided task messages)
    (hfair : Fair Agree pairing.player1Id pairing.player2Id messages)
    (hbefore : session.gameState.status=.inProgress)
    (hafter : session'.gameState.status≠.inProgress) (h₁ : session'.player1Id=session.player1Id)
    (h₂ : session'.player2Id=session.player2Id) (hinv : ResultInvariant pairing record)
    (hv : record.value=some session)
    (hphase : ∀ record',Ended pairing record' task messages [] →
      HasToTell pairing task phase record') :
    Within pairing task record (record.commit task call session') phase := by
  have hopen : ¬(reading pairing).isOver record.value := fun ho => ho session hv hbefore
  have hover : (reading pairing).isOver (some session') := by
    intro s hs
    cases hs
    exact hafter
  rw [record.commit_of_value hv]
  obtain ⟨hannounced,hothers,hended⟩ := hinv.announced.decides hnotice hfair
    (by simp [leavesProgress,hbefore,hafter]) (by simp [keepsTerminal,hbefore]) hopen hover
  refine ⟨⟨?_,hannounced⟩,hothers,hphase _ hended⟩
  intro s hs
  cases hs
  rw [h₁,h₂]
  exact hinv.players session hv

/-- The task that has ended the match tells the next message. -/
theorem log_tells (phase : Phase) {player : UUID} {winner : String} {a b c : ℤ}
    {messages sofar : List (UUID×String)} (hended : Ended pairing record task messages sofar)
    (hnext : sofar++[(player,winner)]<+:messages) (hinv : ResultInvariant pairing record)
    (hphase : ∀ record',Ended pairing record' task messages (sofar++[(player,winner)]) →
      HasToTell pairing task phase record') :
    Within pairing task record
      (record.log (.note (.sent task player (.matchResult winner a b c)))) phase := by
  obtain ⟨hannounced,hothers,htold⟩ := hinv.announced.tells
    (.note (.sent task player (.matchResult winner a b c))) hended hnext rfl rfl rfl
  exact ⟨⟨hinv.players,hannounced⟩,hothers,hphase _ htold⟩

/-- The key is removed. -/
theorem delete_within (hinv : ResultInvariant pairing record) :
    Within pairing task record (record.delete task) .idle := by
  have hover : (reading pairing).isOver record.value → (reading pairing).isOver none :=
    fun _ s hs => nomatch hs
  have hnotice : noticeOf (.deleted task)=.other := rfl
  unfold Record.delete
  split
  · exact ⟨hinv,fun other _ => Reading.Expects.refl _ other _ _,True.intro⟩
  · refine ⟨⟨fun s hs => (nomatch hs),hinv.announced.other hnotice rfl rfl hover⟩,
      fun other _ => Reading.Expects.other hnotice hover other,True.intro⟩

/-- The results of a match are fair. -/
theorem fair_result (result : MatchResult) : Fair Agree pairing.player1Id pairing.player2Id
    (resultMessages result pairing.player1Id pairing.player2Id) := by
  refine .inl ⟨_,_,rfl,?_⟩
  rw [winnerForPlayer_p1,winnerForPlayer_p2 result.winner pairing.distinct]
  cases result.winner with
  | p1 => exact .inl ⟨rfl,rfl⟩
  | p2 => exact .inr (.inl ⟨rfl,rfl⟩)
  | draw => exact .inr (.inr ⟨rfl,rfl⟩)

/-- The announcement of a turn holds the results of the match, if it is over. -/
theorem resultsAmong_announcement (pairing : Pairing) (report : TurnReport) :
    resultsAmong (announcement pairing report)=report.matchResult.elim []
      fun result => resultMessages result pairing.player1Id pairing.player2Id := by
  obtain ⟨turnResult,roundResult,matchResult⟩ := report
  cases roundResult <;> cases matchResult <;> rfl

/-- A prompt holds none. -/
theorem resultsAmong_promptFor (session : PvPSessionState) :
    resultsAmong (promptFor pairing session)=[] := by
  unfold promptFor
  cases session.gameState.currentRound <;> rfl

/-- The ids of the players are read for an announcement. -/
theorem log_reads {report : TurnReport} (hinv : ResultInvariant pairing record)
    (htell : HasToTell pairing task (.resolved report) record) :
    Within pairing task record (record.log (.loaded task (some session)))
      (.telling (announcement pairing report) report.matchResult.isNone) := by
  obtain ⟨hi,ho,hresolved⟩ :=
    log_unchanged (.resolved report) (.loaded task (some session)) rfl rfl rfl hinv htell
  refine ⟨hi,ho,?_⟩
  have hamong := resultsAmong_announcement pairing report
  cases hr : report.matchResult with
  | none => exact .inl (by rw [hamong,hr]; rfl)
  | some result =>
    refine .inr ⟨[],?_⟩
    rw [hamong,hr]
    exact hresolved result hr

/-- A player is told the next message. -/
theorem log_next (prompts : Bool) {player : UUID} {message : ServerMessage}
    {messages : List (UUID×ServerMessage)}
    (hinv : ResultInvariant pairing record)
    (htell : HasToTell pairing task (.telling ((player,message)::messages) prompts) record) :
    Within pairing task record (record.log (.note (.sent task player message)))
      (.telling messages prompts) := by
  cases message with
  | matchResult winner a b c =>
    obtain hnone | ⟨sofar,hended⟩ := htell
    · cases hnone
    · refine log_tells (.telling messages prompts) hended ?_ hinv ?_
      · exact ⟨resultsAmong messages,List.append_assoc sofar [(player,winner)] _⟩
      · intro record' hended'
        refine .inr ⟨sofar++[(player,winner)],?_⟩
        rw [List.append_assoc]
        exact hended'
  | _ => exact log_unchanged (.telling messages prompts) _ rfl rfl rfl hinv htell

/-- A resolution: the match goes on, or it ends with a result to tell. -/
theorem commit_resolves {p1Action p2Action : Action} {gameState : GameState}
    {report : TurnReport}
    (hsubmit : submitTurn session.gameState p1Action p2Action=(gameState,.ok report))
    (hinv : ResultInvariant pairing record) (hv : record.value=some session) :
    Within pairing task record
      (record.commit task (.resolve p1Action p2Action) {session with gameState := gameState})
      (.resolved report) := by
  obtain ⟨round,hopen,-,haccepted⟩ := openRound_of_submitTurn hsubmit
  have hbefore := (openRound_eq_some.mp hopen).1
  obtain ⟨turnResult,roundResult,matchResult⟩ := report
  obtain ⟨hm,hafter⟩ | ⟨result,hm,hafter⟩ := accepted_status haccepted hbefore
  · cases hm
    refine commit_other _ _ ?_ (.inr ⟨hbefore,hafter⟩) ?_ ?_ hinv hv ?_
    · simp only [noticeOf,hsubmit]
    · rfl
    · rfl
    · exact fun _ _ h => nomatch h
  · cases hm
    obtain ⟨h₁,h₂⟩ := hinv.players session hv
    refine commit_ends ?_ (fair_result result) hbefore ?_ ?_ ?_ hinv hv ?_
    · simp only [noticeOf,hsubmit]
      rw [h₁,h₂]
    · dsimp only
      rw [hafter]
      exact nofun
    · rfl
    · rfl
    · intro record' hended result' hresult
      cases hresult
      exact hended

/-- A forfeit of a match in progress. -/
theorem commit_forfeits {forfeiting : RoundWinner} {opponent : UUID}
    (hopposes : Opposes pairing forfeiting opponent)
    (hbefore : session.gameState.status=.inProgress)
    (hinv : ResultInvariant pairing record) (hv : record.value=some session) :
    Within pairing task record
      (record.commit task (.forfeit forfeiting)
        {session with gameState := (forfeit session.gameState forfeiting).1})
      (.forfeited opponent) := by
  obtain ⟨h₁,h₂⟩ := hinv.players session hv
  refine commit_ends ?_ (.inr ⟨(opponent,"you"),rfl⟩) hbefore nofun ?_ ?_ hinv hv ?_
  · simp only [noticeOf,if_pos hbefore,opponentOf]
    obtain ⟨rfl,rfl⟩ | ⟨rfl,rfl⟩ := hopposes
    · rw [if_pos rfl,h₂]
    · rw [if_neg nofun,h₁]
  · rfl
  · rfl
  · exact fun _ hended => hended

end Steps

/-- Whatever the code appends while forfeits are only written to an open match
keeps the contract. -/
theorem upheld (pairing : Pairing) : (resultContract pairing).Upheld where
  expects_refl task record := Reading.Expects.refl _ task record.value record.trace
  expects_trans _ _ _ _ h h' := h.trans h'
  allowed_prefix := Meets.before
  stable _ _ _ _ he h := HasToTell.stable he h
  over_stable he h := he.isOver h
  told _ := True.intro
  untold _ := True.intro
  players hinv hv := hinv.players _ hv
  starts hinv _ := by
    obtain ⟨hi,he⟩ := neutral_event (P := fun _ => True) rfl rfl rfl hinv True.intro ‹_›
    exact ⟨hi,he,True.intro⟩
  loaded _ _ _ _ := neutral_event rfl rfl rfl
  sent _ _ _ message _ hm := by
    cases message with
    | matchResult => cases hm
    | _ => exact neutral_event rfl rfl rfl
  received _ _ := neutral_event rfl rfl rfl
  deleted _ _ _ _ hinv _ _ := delete_within hinv
  raised task _ exc _ _ _ hinv _ _ :=
    log_unchanged .idle (.note (.raised task exc)) rfl rfl rfl hinv True.intro
  conflict task call retriesLeft _ _ _ _ hinv hidle _ :=
    log_unchanged .idle (.conflict task call retriesLeft) rfl rfl rfl hinv hidle
  resolveConflict := by
    intro task p1Action p2Action retriesLeft count record _ hinv _ _
    have hlog : ∀ phase,HasToTell pairing task phase record → _ := fun phase htell =>
      log_unchanged phase (.conflict task (.resolve p1Action p2Action)
        retriesLeft) rfl rfl rfl hinv htell
    split
    · exact hlog .idle True.intro
    · exact hlog (.holding p1Action p2Action) True.intro
  connect _ player session _ _ _ hinv hp _ :=
    commit_other .idle _ rfl (.inl (markConnected_gameState player session))
      (markConnected_player1Id player session) (markConnected_player2Id player session) hinv hp.2
      fun _ => True.intro
  start _ session _ _ _ hinv hp _ :=
    commit_other .idle session rfl (.inl rfl) rfl rfl hinv hp.2
      fun _ => True.intro
  submit := by
    intro task playerId action stale session captured' session' _ hm count record _ hinv hp _
    have hphase : ∀ record',HasToTell pairing task (concluded captured') record' := by
      intro record'
      unfold concluded
      split <;> exact True.intro
    cases storeAction_cases hm with
    | rejected message hreject => exact commit_other _ _ rfl (.inl rfl) rfl rfl hinv hp.2 hphase
    | stored round haccept hnone =>
      exact commit_other _ _ rfl (.inl (storeInSlot_gameState playerId action session))
        (storeInSlot_player1Id playerId action session)
        (storeInSlot_player2Id playerId action session) hinv hp.2 hphase
    | completed round p1Action p2Action haccept h₁ h₂ hpair =>
      exact commit_other _ _ rfl (.inl (storeInSlot_gameState playerId action session))
        (storeInSlot_player1Id playerId action session)
        (storeInSlot_player2Id playerId action session) hinv hp.2 hphase
  resolve _ _ _ _ _ _ hsubmit _ _ _ hinv hp _ := commit_resolves hsubmit hinv hp.2
  refused _ _ _ _ := True.intro
  missing _ _ _ := True.intro
  forfeit _ _ _ _ hopposes _ _ _ hinv hp ha :=
    commit_forfeits hopposes (meets_commit hp.2 ha) hinv hp.2
  read _ _ _ _ _ _ hinv hp _ := log_reads hinv hp.1
  unread task _ _ _ _ hinv _ _ :=
    log_unchanged .idle (.loaded task none) rfl rfl rfl hinv True.intro
  tell _ _ _ _ prompts _ _ _ hinv htell _ := log_next prompts hinv htell
  prompt task session _ _ _ _ hinv _ _ :=
    log_unchanged (.telling (promptFor pairing session) false) (.loaded task (some session)) rfl rfl rfl
      hinv
      (.inl (resultsAmong_promptFor session))
  unprompted task value _ _ _ _ hinv _ _ :=
    log_unchanged .idle (.loaded task value) rfl rfl rfl hinv True.intro
  informOpponent task opponent _ _ _ _ _ _ hinv htell _ :=
    log_tells .idle htell List.prefix_rfl hinv fun _ _ => True.intro

section Results

variable {pairing : Pairing}

/-- The results for a player are the messages told to him. -/
theorem resultsFor_eq (player : UUID) (trace : List GameStore.Event) :
    resultsFor player trace=labelsFor player (told (trace.map noticeOf)) := by
  unfold resultsFor told labelsFor
  rw [List.filterMap_map,List.filterMap_filterMap]
  congr 1
  funext event
  cases event with
  | commit task call before after =>
    cases call with
    | resolve p1Action p2Action =>
      simp only [Function.comp,noticeOf]
      split <;> rfl
    | forfeit forfeiting =>
      simp only [Function.comp,noticeOf]
      split <;> rfl
    | connect | start | submit => rfl
  | note note =>
    cases note with
    | sent task player' message => cases message <;> rfl
    | started | received | raised => rfl
  | conflict | deleted | loaded => rfl

/-- The invariant gives one agreed result. -/
theorem ResultInvariant.oneResult {config : workers.Config}
    (h : ResultInvariant pairing config.world.record) : OneResult pairing config where
  leavesOnce := by
    have hleaves : (config.world.trace.filter leavesProgress).length=_ := h.announced.leaves
    rw [hleaves]
    exact h.announced.inOrder.once
  terminal := h.announced.lasts
  once player := by
    rw [resultsFor_eq]
    exact h.announced.once (fun _ hm => hm) pairing.distinct player
  agree := by
    intro winner₁ h₁ winner₂ h₂
    rw [resultsFor_eq] at h₁ h₂
    exact h.announced.agree (fun _ hm => hm) pairing.distinct h₁ h₂

end Results

/-- In every run that only forfeits a match in progress there is one end of the
match, and the players agree on it. -/
theorem one_agreed_result (pairing : Pairing) {config : workers.Config}
    (hrun : (initial pairing).Reaches config)
    (hf : Meets ForfeitsOpenMatch config.world.trace) : OneResult pairing config := by
  have hinitial : ResultInvariant pairing ⟨some pairing.session,[]⟩ := by
    refine ⟨?_,Reading.announced_nil _ _⟩
    intro session hs
    cases hs
    exact ⟨rfl,rfl⟩
  exact (good (upheld pairing) hinitial hrun hf).inv.oneResult

/-- Player 1 disconnects, and his forfeit timer runs out. -/
def oneForfeit : List workers.Move :=
  opens 1 []::proceeds 0 8++opens 2 []::proceeds 1 14++proceeds 0 6++proceeds 3 8

/-- Player 2 has won that match. -/
theorem one_forfeit_result : ∃ config,(initial .small).Reaches config ∧
    resultsFor (.small 2) config.world.trace=["you"] ∧ OneResult .small config := by
  have hrun : ((initial .small).run oneForfeit).map (fun config =>
      (decide (Meets ForfeitsOpenMatch config.world.trace),
        resultsFor (.small 2) config.world.trace))=some (true,["you"]) := by decide
  obtain ⟨config,hreach,hview⟩ := System.Config.reaches_of_map hrun
  obtain ⟨hf,hresults⟩ := Prod.mk.inj hview
  exact ⟨config,hreach,hresults,one_agreed_result .small hreach (of_decide_eq_true hf)⟩

/-- Both players disconnect, and both forfeit timers run out. -/
def twoForfeits : List workers.Move :=
  opens 1 []::proceeds 0 8++opens 2 []::proceeds 1 14++proceeds 0 6++proceeds 1 6++
    proceeds 3 8++proceeds 4 8

/-- Each player is told that he has won. -/
theorem both_told_you :
    ¬∀ pairing config,(initial pairing).Reaches config → OneResult pairing config := by
  intro h
  have hrun : ((initial .small).run twoForfeits).map (fun config =>
      (resultsFor (.small 1) config.world.trace,resultsFor (.small 2) config.world.trace))=
      some (["you"],["you"]) := by decide
  obtain ⟨config,hreach,hview⟩ := System.Config.reaches_of_map hrun
  obtain ⟨h₁,h₂⟩ := Prod.mk.inj hview
  have hagree := (h .small config hreach).agree "you"
    (by change "you"∈resultsFor (.small 1) config.world.trace; rw [h₁]; exact List.mem_singleton_self _)
    "you"
    (by change "you"∈resultsFor (.small 2) config.world.trace; rw [h₂]; exact List.mem_singleton_self _)
  revert hagree
  unfold Agree
  decide

end KiClash.MatchResults

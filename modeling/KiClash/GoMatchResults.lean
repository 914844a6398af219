import KiClash.Endings
import KiClash.GoPendingPairs

/-!
# When the players of the Go session agree on the result

forfeitAfterTimeout looks at the session before its transaction, not in it, and
announces the forfeit whether or not the transaction has succeeded. As long as
it finds the match in progress when it writes, and only announces what it has
written, there is one end of the match and the players agree on it.
-/

namespace KiClash.GoMatchResults

open GoTypes GoEngine ServerMessages Histories Endings AsyncTasks WatchedKey RecordContracts
open GameStore (Pairing)
open GoStore GoSession GoSessionContracts GoSessionSafety GoPendingPairs

/-- A write does not change the status of a match that is over. -/
def keepsTerminal : GoStore.Event → Bool
  | .commit _ _ before after =>
    !(before.gameState.status=matchCompleted || before.gameState.status=matchAbandoned) ||
      after.gameState.status=before.gameState.status
  | _ => true

/-- The winner that a match result names to the player. -/
def resultFor (player : String) : GoStore.Event → Option String
  | .note (.sent _ player' (.matchResult winner _ _ _)) =>
    if player'=player then some winner else none
  | _ => none

/-- The match results that the player has been sent. -/
def resultsFor (player : String) (trace : List GoStore.Event) : List String :=
  trace.filterMap (resultFor player)

/-- One end of the match, on which the players agree. -/
structure OneResult (pairing : Pairing) (config : instances.Config) : Prop where
  /-- A terminal status never changes. -/
  terminal : ∀ event∈config.world.trace,keepsTerminal event=true
  /-- Each player is sent at most one result. -/
  once : ∀ player,(resultsFor player config.world.trace).length≤1
  /-- The results do not contradict each other. -/
  agree : ∀ winner₁∈resultsFor (p1Of pairing) config.world.trace,
    ∀ winner₂∈resultsFor (p2Of pairing) config.world.trace,Agree winner₁ winner₂

/-- The goroutine is a forfeit timer. -/
def isForfeitTimer (task : GoroutineId) : GoStore.Event → Bool
  | .note (.started task' (.forfeitAfterTimeout ..)) => task'=task
  | _ => false

/-- The goroutine has written a forfeit. -/
def writesForfeit (task : GoroutineId) : GoStore.Event → Bool
  | .commit task' (.forfeit _) _ _ => task'=task
  | _ => false

/-- A forfeit is written while the match is in progress, and a forfeit timer
announces what it has written. -/
def ForfeitsOpenMatch (earlier : List GoStore.Event) : GoStore.Event → Prop
  | .commit _ (.forfeit _) before _ => before.gameState.status=matchInProgress
  | .note (.sent task _ (.matchResult ..)) =>
    earlier.any (isForfeitTimer task)=true → earlier.any (writesForfeit task)=true
  | _ => True

instance (earlier : List GoStore.Event) (event : GoStore.Event) :
    Decidable (ForfeitsOpenMatch earlier event) := by
  unfold ForfeitsOpenMatch
  split <;> infer_instance

/-- A transaction with which the match leaves in_progress. -/
def leavesProgress : GoStore.Event → Bool
  | .commit _ _ before after =>
    before.gameState.status=matchInProgress && after.gameState.status≠matchInProgress
  | _ => false

/-- What the two players are told when a turn decides the match. -/
def resultMessages (mr : MatchResult) (p1id p2id : String) : List (String×String) :=
  [(p1id,winnerLabelFor mr.winner p1id p1id),(p2id,winnerLabelFor mr.winner p2id p1id)]

/-- What an event means for the end of the match and its announcement. -/
def noticeOf : GoStore.Event → Notice (String×String)
  | .commit task (.resolve p1 p2) before after =>
    match (submitTurn before.gameState p1 p2).2 with
    | .ok ⟨_,_,some mr⟩ => .decided task (resultMessages mr after.player1Id after.player2Id)
    | _ => .other
  | .commit task (.forfeit disconnected) before after =>
    if before.gameState.status=matchInProgress then
      .decided task [(opponentOf disconnected after,"you")]
    else .other
  | .note (.sent task player (.matchResult winner _ _ _)) => .told task (player,winner)
  | _ => .other

/-- How the record is read as a history with one end. -/
abbrev reading (pairing : Pairing) : Reading GoStore.Event PvPSession (String×String) where
  notice := noticeOf
  leaves := leavesProgress
  lasts := keepsTerminal
  isOver value := ∀ sess,value=some sess → sess.gameState.status≠matchInProgress
  fair := Fair Agree (p1Of pairing) (p2Of pairing)

/-- The invariant: the end of the match is told in order, and after it the
match is over. -/
structure ResultInvariant (pairing : Pairing) (count : ℕ) (record : SessionRecord) : Prop where
  /-- There is a session, and it belongs to the two players. -/
  stored : ∃ sess,record.value=some sess ∧ Belongs pairing sess
  /-- There is one end, and it is told in order. -/
  announced : (reading pairing).Announced record.value record.trace
  /-- A goroutine that has decided the end has been started. -/
  deciders : ∀ decision∈decisions (record.trace.map noticeOf),decision.1<count

/-- The goroutine has ended the match and has told so much of it. -/
abbrev Ended (pairing : Pairing) (record : SessionRecord) (task : GoroutineId)
    (messages sofar : List (String×String)) : Prop :=
  (reading pairing).Ended record.trace task messages sofar

/-- What a goroutine expects of the others. -/
structure ExpectsEnd (pairing : Pairing) (task : GoroutineId) (record record' : SessionRecord) :
    Prop where
  /-- Nobody else tells the end that it has written. -/
  ending : (reading pairing).Expects task record.value record'.value record.trace record'.trace
  /-- Nothing is removed from the record. -/
  grows : ∀ event∈record.trace,event∈record'.trace

/-- The match results among messages, with the players whom they are for. -/
def resultsAmong (messages : List (String×ServerMessage)) : List (String×String) :=
  messages.filterMap fun message => match message.2 with
    | .matchResult winner _ _ _ => some (message.1,winner)
    | _ => none

/-- What a goroutine has to tell. A forfeit timer may or may not have written. -/
def HasToTell (pairing : Pairing) (task : GoroutineId) (phase : Phase) (record : SessionRecord) :
    Prop :=
  match phase with
  | .resolved report => ∀ mr,report.matchResult=some mr →
    Ended pairing record task (resultMessages mr (p1Of pairing) (p2Of pairing)) []
  | .telling messages => resultsAmong messages=[] ∨ ∃ sofar,
    Ended pairing record task (sofar++resultsAmong messages) sofar
  | .forfeiting opponent => (∃ event∈record.trace,isForfeitTimer task event=true) ∧
    ∀ messages sofar,Ended pairing record task messages sofar →
      messages=[(opponent,"you")] ∧ sofar=[]
  | _ => True

/-- The contract behind one agreed result. -/
def resultContract (pairing : Pairing) : SessionContract where
  pairing := pairing
  allowed := Meets ForfeitsOpenMatch
  inv := ResultInvariant pairing
  expects := ExpectsEnd pairing
  phase := HasToTell pairing
  captures _ _ := True

section Steps

variable {pairing : Pairing} {count : ℕ} {record : SessionRecord} {event : GoStore.Event}
  {task : GoroutineId} {sess sess' : PvPSession}

/-- What a change of the record has to satisfy. -/
def Within (pairing : Pairing) (task : GoroutineId) (count : ℕ) (record record' : SessionRecord)
    (phase : Phase) : Prop :=
  ResultInvariant pairing count record' ∧
    (∀ other,other≠task → ExpectsEnd pairing other record record') ∧
    HasToTell pairing task phase record'

/-- What a goroutine has to tell survives what is expected of others. -/
theorem HasToTell.stable {phase : Phase} {record' : SessionRecord}
    (he : ExpectsEnd pairing task record record') (h : HasToTell pairing task phase record) :
    HasToTell pairing task phase record' := by
  cases phase with
  | resolved report => exact fun mr hr => (he.ending.mine _ _).mpr (h mr hr)
  | telling messages =>
    obtain hnone | ⟨sofar,hended⟩ := h
    · exact .inl hnone
    · exact .inr ⟨sofar,(he.ending.mine _ _).mpr hended⟩
  | forfeiting opponent =>
    obtain ⟨⟨event,hin,htimer⟩,honly⟩ := h
    exact ⟨⟨event,he.grows event hin,htimer⟩,fun messages sofar hended =>
      honly messages sofar ((he.ending.mine _ _).mp hended)⟩
  | idle | holding => exact True.intro

/-- An appended event is expected if it is expected of the history. -/
theorem ExpectsEnd.append {value : Option PvPSession}
    (h : (reading pairing).Expects task record.value value record.trace (record.trace++[event])) :
    ExpectsEnd pairing task record ⟨value,record.trace++[event]⟩ :=
  ⟨h,fun _ he => List.mem_append_left _ he⟩

/-- The deciders after an event that neither decides nor tells. -/
theorem deciders_other (hnotice : noticeOf event=.other)
    (h : ∀ decision∈decisions (record.trace.map noticeOf),decision.1<count) :
    ∀ decision∈decisions ((record.trace++[event]).map noticeOf),decision.1<count := by
  intro decision hd
  rw [List.map_append,List.map_singleton,hnotice,notice_other.1] at hd
  exact h decision hd

/-- An event that neither writes the key nor tells the end concerns nobody. -/
theorem log_other (event : GoStore.Event) (hnotice : noticeOf event=.other) 
    (hleaves : leavesProgress event=false) (hlasts : keepsTerminal event=true)
    (hinv : ResultInvariant pairing count record) :
    ResultInvariant pairing count (record.log event) ∧
      ∀ task,ExpectsEnd pairing task record (record.log event) :=
  ⟨⟨hinv.stored,hinv.announced.other hnotice hleaves hlasts fun hover => hover,
    deciders_other hnotice hinv.deciders⟩,
    fun task => .append (Reading.Expects.other hnotice (fun hover => hover) task)⟩

/-- It leaves every phase alone. -/
theorem log_unchanged (event : GoStore.Event) (phase : Phase) (hnotice : noticeOf event=.other)
    (hleaves : leavesProgress event=false) (hlasts : keepsTerminal event=true)
    (hinv : ResultInvariant pairing count record) (htell : HasToTell pairing task phase record) :
    Within pairing task count record (record.log event) phase := by
  obtain ⟨hi,he⟩ := log_other event hnotice hleaves hlasts hinv
  exact ⟨hi,fun other _ => he other,htell.stable (he task)⟩

/-- A transaction after which the match stands as before. -/
theorem commit_other {call : Call} (phase : Phase)
    (hnotice : noticeOf (.commit task call sess sess')=.other)
    (hstatus : sess'.gameState.status=sess.gameState.status)
    (h₁ : sess'.player1Id=sess.player1Id) (h₂ : sess'.player2Id=sess.player2Id)
    (hinv : ResultInvariant pairing count record) (hv : record.value=some sess)
    (hphase : ∀ record',HasToTell pairing task phase record') :
    Within pairing task count record (record.commit task call sess') phase := by
  have hover : (reading pairing).isOver record.value → (reading pairing).isOver (some sess') := by
    intro ho s hs
    cases hs
    rw [hstatus]
    exact ho sess hv
  obtain ⟨s,hs,hbelongs⟩ := hinv.stored
  cases hv.symm.trans hs
  rw [record.commit_of_value hv]
  refine ⟨⟨⟨sess',rfl,?_⟩,hinv.announced.other hnotice ?_ ?_ hover,
    deciders_other hnotice hinv.deciders⟩,
    fun other _ => .append (Reading.Expects.other hnotice hover other),hphase _⟩
  · unfold Belongs
    rw [h₁,h₂]
    exact hbelongs
  · simp [leavesProgress,hstatus]
  · simp [keepsTerminal,hstatus]

/-- A transaction that ends the match. -/
theorem commit_ends {call : Call} (phase : Phase) (messages : List (String×String))
    (hnotice : noticeOf (.commit task call sess sess')=.decided task messages)
    (hfair : Fair Agree (p1Of pairing) (p2Of pairing) messages)
    (hbefore : sess.gameState.status=matchInProgress)
    (hafter : sess'.gameState.status≠matchInProgress) (h₁ : sess'.player1Id=sess.player1Id)
    (h₂ : sess'.player2Id=sess.player2Id) (hlt : task<count)
    (hinv : ResultInvariant pairing count record) (hv : record.value=some sess)
    (hphase : Ended pairing (record.commit task call sess') task messages [] →
      HasToTell pairing task phase (record.commit task call sess')) :
    Within pairing task count record (record.commit task call sess') phase := by
  have hopen : ¬(reading pairing).isOver record.value := fun ho => ho sess hv hbefore
  have hover : (reading pairing).isOver (some sess') := by
    intro s hs
    cases hs
    exact hafter
  obtain ⟨s,hs,hbelongs⟩ := hinv.stored
  cases hv.symm.trans hs
  rw [record.commit_of_value hv] at hphase ⊢
  have hlasts : keepsTerminal (.commit task call sess sess')=true := by
    have hne : matchInProgress≠matchCompleted ∧ matchInProgress≠matchAbandoned := by decide
    simp [keepsTerminal,hbefore,hne]
  obtain ⟨hannounced,hothers,hended⟩ := hinv.announced.decides hnotice hfair
    (by simp [leavesProgress,hbefore,hafter]) hlasts hopen hover
  refine ⟨⟨⟨sess',rfl,?_⟩,hannounced,?_⟩,fun other hne => .append (hothers other hne),
    hphase hended⟩
  · unfold Belongs
    rw [h₁,h₂]
    exact hbelongs
  · intro decision hd
    rw [hended.1] at hd
    rw [List.mem_singleton.mp hd]
    exact hlt

/-- The goroutine that has ended the match tells the next message. -/
theorem log_tells (phase : Phase) {player : String} {winner : String} {a b c : ℤ}
    {messages sofar : List (String×String)} (hended : Ended pairing record task messages sofar)
    (hnext : sofar++[(player,winner)]<+:messages) (hinv : ResultInvariant pairing count record)
    (hphase : ∀ record',Ended pairing record' task messages (sofar++[(player,winner)]) →
      HasToTell pairing task phase record') :
    Within pairing task count record
      (record.log (.note (.sent task player (.matchResult winner a b c)))) phase := by
  obtain ⟨hannounced,hothers,htold⟩ := hinv.announced.tells
    (.note (.sent task player (.matchResult winner a b c))) hended hnext rfl rfl rfl
  refine ⟨⟨hinv.stored,hannounced,?_⟩,fun other hne => .append (hothers other hne),hphase _ htold⟩
  intro decision hd
  apply hinv.deciders decision
  rw [hended.1]
  have hd : decision∈decisions ((record.trace++[_]).map noticeOf) := hd
  rwa [htold.1] at hd

/-- Whoever has won, the two labels do not contradict each other. -/
theorem fair_result (mr : MatchResult) : Fair Agree (p1Of pairing) (p2Of pairing)
    (resultMessages mr (p1Of pairing) (p2Of pairing)) := by
  have hne : p2Of pairing≠p1Of pairing := (players_distinct pairing).symm
  have hlabel : winnerP1≠winnerDraw := by decide
  refine .inl ⟨_,_,rfl,?_⟩
  unfold winnerLabelFor Agree
  by_cases hdraw : mr.winner=winnerDraw
  · simp [hdraw]
  · by_cases hp1 : mr.winner=winnerP1 <;> simp [hdraw,hp1,hne,hlabel]

/-- The announcement of a turn holds the results of the match, if it is over. -/
theorem resultsAmong_announcement (report : TurnReport) :
    resultsAmong (announcement pairing report)=report.matchResult.elim []
      fun mr => resultMessages mr (p1Of pairing) (p2Of pairing) := by
  obtain ⟨turnResult,roundResult,matchResult⟩ := report
  cases roundResult <;> cases matchResult <;> rfl

/-- The announcement of a turn begins. -/
theorem HasToTell.announces {report : TurnReport}
    (h : HasToTell pairing task (.resolved report) record) :
    HasToTell pairing task (.telling (announcement pairing report)) record := by
  have hamong : resultsAmong (announcement pairing report)=_ := resultsAmong_announcement report
  cases hr : report.matchResult with
  | none => exact .inl (by rw [hamong,hr]; rfl)
  | some mr =>
    refine .inr ⟨[],?_⟩
    rw [hamong,hr]
    exact h mr hr

/-- A player is told the next message. -/
theorem log_next {player : String} {message : ServerMessage}
    {messages : List (String×ServerMessage)} (hinv : ResultInvariant pairing count record)
    (htell : HasToTell pairing task (.telling ((player,message)::messages)) record) :
    Within pairing task count record (record.log (.note (.sent task player message)))
      (.telling messages) := by
  cases message with
  | matchResult winner a b c =>
    obtain hnone | ⟨sofar,hended⟩ := htell
    · cases hnone
    · refine log_tells (.telling messages) hended ?_ hinv ?_
      · exact ⟨resultsAmong messages,List.append_assoc sofar [(player,winner)] _⟩
      · intro record' hended'
        refine .inr ⟨sofar++[(player,winner)],?_⟩
        rw [List.append_assoc]
        exact hended'
  | _ => exact log_unchanged _ (.telling messages) rfl rfl rfl hinv htell

/-- A resolution: the match goes on, or it ends with a result to tell. -/
theorem commit_resolves {p1 p2 : Action} {gameState : GameState} {report : TurnReport}
    (hsubmit : submitTurn sess.gameState p1 p2=(gameState,.ok report)) (hlt : task<count)
    (hinv : ResultInvariant pairing count record) (hv : record.value=some sess) :
    Within pairing task count record
      (record.commit task (.resolve p1 p2) {sess with gameState := gameState})
      (.resolved report) := by
  obtain ⟨cr,hopen,-,hstatus⟩ := openRound_of_submitTurn hsubmit
  have hbefore := (openRound_eq_some.mp hopen).1
  obtain ⟨s,hs,hbelongs⟩ := hinv.stored
  cases hv.symm.trans hs
  obtain ⟨turnResult,roundResult,matchResult⟩ := report
  obtain ⟨hm,hafter⟩ | ⟨mr,hm,hafter⟩ := hstatus
  · cases hm
    refine commit_other _ ?_ (hafter.trans hbefore.symm) rfl rfl hinv hv ?_
    · simp only [noticeOf,hsubmit]
    · exact fun _ _ h => nomatch h
  · cases hm
    refine commit_ends _ (resultMessages mr (p1Of pairing) (p2Of pairing)) ?_ (fair_result mr)
      hbefore ?_ rfl rfl hlt hinv hv ?_
    · simp only [noticeOf,hsubmit]
      rw [hbelongs.1,hbelongs.2]
    · dsimp only
      rw [hafter]
      decide
    · intro hended mr' hmr
      cases hmr
      exact hended

/-- A forfeit of a match in progress. -/
theorem commit_forfeits {disconnected opponent : String}
    (hopposes : Opposes pairing disconnected opponent)
    (hbefore : sess.gameState.status=matchInProgress) (hlt : task<count)
    (hinv : ResultInvariant pairing count record)
    (htell : HasToTell pairing task (.forfeiting opponent) record)
    (hv : record.value=some sess) :
    Within pairing task count record
      (record.commit task (.forfeit disconnected)
        {sess with gameState := {sess.gameState with status := matchAbandoned}})
      (.forfeiting opponent) := by
  obtain ⟨s,hs,hbelongs⟩ := hinv.stored
  cases hv.symm.trans hs
  have hne := players_distinct pairing
  have hopponent : opponentOf disconnected sess=opponent := by
    unfold opponentOf
    rw [hbelongs.1,hbelongs.2]
    obtain ⟨rfl,rfl⟩ | ⟨rfl,rfl⟩ := hopposes
    · exact if_pos rfl
    · exact if_neg hne.symm
  have hafter : matchAbandoned≠matchInProgress := by decide
  refine commit_ends _ [(opponent,"you")] ?_ (.inr ⟨_,rfl⟩) hbefore hafter rfl rfl hlt
    hinv hv ?_
  · simp only [noticeOf,if_pos hbefore]
    rw [← hopponent]
    rfl
  · intro hended
    obtain ⟨event,hin,htimer⟩ := htell.1
    refine ⟨⟨event,?_,htimer⟩,fun messages sofar hended' => ?_⟩
    · rw [record.commit_of_value hv]
      exact List.mem_append_left _ hin
    · have he := hended.1.symm.trans hended'.1
      simp only [List.cons.injEq,Prod.mk.injEq,true_and,and_true] at he
      exact ⟨he.symm,hended'.2.symm.trans hended.2⟩

/-- A forfeit timer that announces a forfeit has written it. -/
theorem ended_of_forfeiting {opponent : String} {winner : String} {a b c : ℤ}
    (ha : Meets ForfeitsOpenMatch
      (record.log (.note (.sent task opponent (.matchResult winner a b c)))).trace)
    (hinv : ResultInvariant pairing count record)
    (htell : HasToTell pairing task (.forfeiting opponent) record) :
    Ended pairing record task [(opponent,"you")] [] := by
  obtain ⟨hearlier,hfits⟩ := meets_append.mp ha
  obtain ⟨⟨event,hin,htimer⟩,honly⟩ := htell
  have hwritten := hfits (List.any_eq_true.mpr ⟨event,hin,htimer⟩)
  obtain ⟨commit,hcommit,hwrites⟩ := List.any_eq_true.mp hwritten
  -- the write found the match in progress, so it is the decision
  have hdecided : ∃ messages,(task,messages)∈decisions (record.trace.map noticeOf) := by
    obtain ⟨earlier,hfits⟩ := hearlier.of_mem hcommit
    cases commit with
    | commit task' call before after =>
      cases call with
      | forfeit disconnected =>
        have htask : task'=task := by simpa [writesForfeit] using hwrites
        have hbefore : before.gameState.status=matchInProgress := hfits
        refine ⟨[(opponentOf disconnected after,"you")],?_⟩
        unfold decisions
        rw [List.filterMap_map,List.mem_filterMap]
        refine ⟨_,hcommit,?_⟩
        simp [noticeOf,hbefore,Notice.decision,htask]
      | connect | start | submit | disconnect | resolve => cases hwrites
    | conflict | deleted | loaded | note => cases hwrites
  obtain ⟨messages,hmem⟩ := hdecided
  have honce := hinv.announced.inOrder.once
  have hall : decisions (record.trace.map noticeOf)=[(task,messages)] := by
    cases hd : decisions (record.trace.map noticeOf) with
    | nil =>
      rw [hd] at hmem
      cases hmem
    | cons decision rest =>
      have honce : (decisions (record.trace.map noticeOf)).length≤1 := honce
      rw [hd] at hmem honce
      have hrest : rest=[] := by simpa using honce
      rw [hrest] at hmem ⊢
      rw [List.mem_singleton.mp hmem]
  obtain ⟨hmessages,hsofar⟩ := honly messages _ ⟨hall,rfl⟩
  rw [hmessages] at hall
  exact ⟨hall,hsofar⟩

/-- A new goroutine has decided nothing. -/
theorem start_first {entry : Entry} (hinv : ResultInvariant pairing count record) :
    ResultInvariant pairing (count+1) (record.log (.note (.started count entry))) ∧
      (∀ task,ExpectsEnd pairing task record (record.log (.note (.started count entry)))) ∧
      HasToTell pairing count (firstPhase entry) (record.log (.note (.started count entry))) := by
  obtain ⟨hi,he⟩ := log_other (.note (.started count entry)) rfl rfl rfl hinv
  refine ⟨⟨hi.stored,hi.announced,fun d hd => Nat.lt_succ_of_lt (hi.deciders d hd)⟩,he,?_⟩
  cases entry with
  | gameWebsocket | turnTimeoutLoop => exact True.intro
  | forfeitAfterTimeout instance' disconnected opponent =>
    refine ⟨⟨_,List.mem_append_right _ (List.mem_singleton_self _),?_⟩,fun messages sofar hended => ?_⟩
    · simp [isForfeitTimer]
    · have hlt := hi.deciders (count,messages) (by rw [hended.1]; exact List.mem_singleton_self _)
      exact absurd hlt (Nat.lt_irrefl count)

end Steps

/-- Whatever the code appends while forfeits are only written to an open match,
and only announced when written, keeps the contract. -/
theorem upheld (pairing : Pairing) : (resultContract pairing).Upheld where
  expects_refl _ record := ⟨Reading.Expects.refl _ _ record.value record.trace,fun _ he => he⟩
  expects_trans _ _ _ _ h h' := ⟨h.ending.trans h'.ending,fun e he => h'.grows e (h.grows e he)⟩
  allowed_prefix := Meets.before
  stable _ _ _ _ he h := HasToTell.stable he h
  stored hinv := hinv.stored
  untold := ⟨fun _ _ => True.intro,fun _ _ => True.intro,fun _ _ => True.intro⟩
  announces := HasToTell.announces
  starts hinv _ := start_first hinv
  loaded _ _ _ _ hinv _ _ := log_other _ rfl rfl rfl hinv
  sent _ _ message hm _ _ hinv _ _ := by
    cases message with
    | matchResult => cases hm
    | _ => exact log_other _ rfl rfl rfl hinv
  received _ _ _ _ hinv _ _ := log_other _ rfl rfl rfl hinv
  failed := by
    intro task phase exc count record _ hinv htell _
    have hwithin : Within pairing task count record (record.deliver task exc) phase :=
      log_unchanged (.note (.failed task exc)) phase rfl rfl rfl hinv htell
    cases phase with
    | forfeiting opponent => exact hwithin
    | idle | holding | resolved | telling => exact ⟨hwithin.1,hwithin.2.1,True.intro⟩
  conflict task call retriesLeft phase _ _ _ _ _ hinv htell _ :=
    log_unchanged (.conflict task call retriesLeft) phase rfl rfl rfl hinv htell
  resolveConflict := by
    intro task p1 p2 retriesLeft count record _ hinv _ _
    have hlog : ∀ phase,HasToTell pairing task phase record → _ := fun phase htell =>
      log_unchanged (.conflict task (.resolve p1 p2) retriesLeft) phase rfl rfl rfl hinv htell
    split
    · exact hlog .idle True.intro
    · exact hlog (.holding p1 p2) True.intro
  keeps := by
    intro task call sess sess' hcall hkeeps count record _ hinv hp _
    have hnotice : noticeOf (.commit task call sess sess')=.other := by
      obtain rfl | ⟨player,rfl | rfl⟩ := hcall <;> rfl
    exact commit_other .idle hnotice (by rw [hkeeps.gameState]) hkeeps.player1Id hkeeps.player2Id
      hinv hp.2 fun _ => True.intro
  captures_zero _ := True.intro
  captured _ _ _ _ := True.intro
  submit := by
    intro task player action stale sess captured' sess' _ _ hm count record _ hinv hp _
    obtain ⟨hgame,h₁,h₂⟩ := (storeAction_cases hm).unchanged
    have hphase : ∀ record',HasToTell pairing task (concluded captured') record' := by
      intro record'
      unfold concluded
      split <;> exact True.intro
    exact commit_other _ rfl (by rw [hgame]) h₁ h₂ hinv hp.2 hphase
  resolve _ _ _ _ _ _ hsubmit _ _ hlt hinv hp _ := commit_resolves hsubmit hlt hinv hp.2
  refused _ _ _ _ := True.intro
  forfeit _ _ _ _ hopposes _ _ hlt hinv hp ha :=
    commit_forfeits hopposes (meets_commit hp.2 ha) hlt hinv hp.1 hp.2
  tell _ _ _ _ _ _ _ hinv htell _ := log_next hinv htell
  informOpponent _ _ _ _ _ _ _ _ hinv htell ha :=
    log_tells .idle (ended_of_forfeiting ha hinv htell) List.prefix_rfl hinv
      fun _ _ => True.intro

section Results

variable {pairing : Pairing}

/-- The results for a player are the messages told to him. -/
theorem resultsFor_eq (player : String) (trace : List GoStore.Event) :
    resultsFor player trace=labelsFor player (told (trace.map noticeOf)) := by
  unfold resultsFor told labelsFor
  rw [List.filterMap_map,List.filterMap_filterMap]
  congr 1
  funext event
  cases event with
  | commit task call before after =>
    cases call with
    | resolve p1 p2 =>
      simp only [Function.comp,noticeOf]
      split <;> rfl
    | forfeit disconnected =>
      simp only [Function.comp,noticeOf]
      split <;> rfl
    | connect | start | submit | disconnect => rfl
  | note note =>
    cases note with
    | sent task player' message => cases message <;> rfl
    | started | received | failed => rfl
  | conflict | deleted | loaded => rfl

/-- The invariant gives one agreed result. -/
theorem ResultInvariant.oneResult {config : instances.Config} {count : ℕ}
    (h : ResultInvariant pairing count config.world.record) : OneResult pairing config where
  terminal := h.announced.lasts
  once player := by
    rw [resultsFor_eq]
    exact h.announced.once (fun _ hm => hm) (players_distinct pairing) player
  agree := by
    intro winner₁ h₁ winner₂ h₂
    rw [resultsFor_eq] at h₁ h₂
    exact h.announced.agree (fun _ hm => hm) (players_distinct pairing) h₁ h₂

end Results

/-- In every run that only forfeits a match in progress, and announces no
forfeit that it has not written, the players agree on one result. -/
theorem instances_agree_on_result (pairing : Pairing) {config : instances.Config}
    (hrun : (initial pairing).Reaches config)
    (hf : Meets ForfeitsOpenMatch config.world.trace) : OneResult pairing config := by
  have hinitial : ResultInvariant pairing 0 ⟨some (goSession pairing.session),[]⟩ :=
    ⟨⟨_,rfl,rfl,rfl⟩,Reading.announced_nil _ _,fun _ hd => absurd hd List.not_mem_nil⟩
  exact ((good (upheld pairing) hinitial hrun hf).inv).oneResult

/-- Player 1 disconnects, and his forfeit timer runs out. -/
def oneForfeit : List instances.Move :=
  opens 1 []::proceeds 0 10++opens 2 []::proceeds 1 14++proceeds 0 8++proceeds 3 7

/-- Player 2 has won that match. -/
theorem result_of_disconnection : ∃ config,(initial .small).Reaches config ∧
    resultsFor (p2Of .small) config.world.trace=["you"] ∧ OneResult .small config := by
  have hrun : ((initial .small).run oneForfeit).map (fun config =>
      (decide (Meets ForfeitsOpenMatch config.world.trace),
        resultsFor (p2Of .small) config.world.trace))=some (true,["you"]) := by decide
  obtain ⟨config,hreach,hview⟩ := System.Config.reaches_of_map hrun
  obtain ⟨hf,hresults⟩ := Prod.mk.inj hview
  exact ⟨config,hreach,hresults,instances_agree_on_result .small hreach (of_decide_eq_true hf)⟩

/-- Both players disconnect, and both forfeit timers find the match in progress
before one of them writes. -/
def twoForfeits : List instances.Move :=
  opens 1 []::proceeds 0 10++opens 2 []::proceeds 1 14++proceeds 0 8++proceeds 1 8++
    proceeds 3 2++proceeds 4 2++proceeds 3 5++proceeds 4 5

/-- Each player is told that he has won. -/
theorem both_opponents_told_you :
    ¬∀ pairing config,(initial pairing).Reaches config → OneResult pairing config := by
  intro h
  have hrun : ((initial .small).run twoForfeits).map (fun config =>
      (resultsFor (p1Of .small) config.world.trace,resultsFor (p2Of .small) config.world.trace))=
      some (["you"],["you"]) := by decide
  obtain ⟨config,hreach,hview⟩ := System.Config.reaches_of_map hrun
  obtain ⟨h₁,h₂⟩ := Prod.mk.inj hview
  have hagree := (h .small config hreach).agree "you"
    (by rw [h₁]; exact List.mem_singleton_self _) "you"
    (by rw [h₂]; exact List.mem_singleton_self _)
  revert hagree
  unfold Agree
  decide

end KiClash.GoMatchResults

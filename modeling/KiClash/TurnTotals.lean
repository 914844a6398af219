import KiClash.CountedWrites
import KiClash.GamePrograms
import KiClash.GameTransactions

/-!
# What the Python match results count

The totals of the match results next to the number of turns that have been resolved. A
resolution that ends the match counts them all. A forfeit timer counts the finished
rounds of the session that it reads after its write, so it leaves out the turns of a
round that the forfeit has left open.
-/

namespace KiClash.TurnTotals

open EngineTypes Engine EngineRuns AsyncTasks WatchedKey TaskPhases Histories CountedWrites
open ServerMessages GameStore GameSession PendingPairs SessionChronicle GamePhases GameTransactions

section Matches

variable {state state' : GameState} {p1Action p2Action : Action} {report : TurnReport}

/-- The turns of a match: those of finished rounds and those of the open one. -/
def turns (state : GameState) : ℤ := finishedTurns state+openTurns state

/-- An accepted call plays one turn. -/
theorem turns_accepted (h : Accepted state p1Action p2Action state' report) :
    turns state'=turns state+1 := by
  unfold turns
  cases h with
  | roundGoesOn round hr hw =>
    have hopen : openTurns state=round.turnNumber := by simp [openTurns,hr]
    have hnext : (nextRound round p1Action p2Action).turnNumber=round.turnNumber+1 := rfl
    simp only [finishedTurns,openTurns] at hopen ⊢
    omega
  | roundCloses round hr roundResult hw hm =>
    have hopen : openTurns state=round.turnNumber := by simp [openTurns,hr]
    have htotal : roundResult.totalTurns=round.turnNumber+1 := totalTurns_of_checkRoundEnd hw
    have hfinished := closedState_finishedTurns state roundResult
    simp only [finishedTurns,openTurns] at hopen hfinished ⊢
    omega
  | matchCloses round hr roundResult hw matchResult hm =>
    have hopen : openTurns state=round.turnNumber := by simp [openTurns,hr]
    have htotal : roundResult.totalTurns=round.turnNumber+1 := totalTurns_of_checkRoundEnd hw
    have hfinished := closedState_finishedTurns state roundResult
    simp only [finishedTurns,openTurns] at hopen hfinished ⊢
    omega

/-- The result that ends a match counts all of its turns. -/
theorem totalTurns_accepted {result : MatchResult}
    (h : Accepted state p1Action p2Action state' report) (hr : report.matchResult=some result) :
    state'.status≠.inProgress ∧ result.totalTurns=turns state' := by
  cases h with
  | roundGoesOn => cases hr
  | roundCloses => cases hr
  | matchCloses round hround roundResult hw matchResult hm =>
    obtain rfl : matchResult=result := Option.some.inj hr
    refine ⟨nofun,?_⟩
    have htotal : matchResult.totalTurns=finishedTurns (closedState state roundResult) := by
      unfold checkMatchEnd at hm
      split_ifs at hm <;> cases hm <;> rfl
    have hnone : openTurns {closedState state roundResult with status := .completed}=0 := by
      simp [openTurns]
    rw [turns,hnone,htotal]
    simp [finishedTurns]

/-- The turns of a stored session. -/
def counter (pairing : Pairing) : Counter (L := language) (Effect pairing) GameState where
  counted := resolves
  part session := {session.gameState with status := .inProgress}
  total := turns
  final session := session.gameState.status≠.inProgress
  adds heffect hcall := by
    cases heffect with
    | resolve h =>
      obtain ⟨round,hopen,-,haccepted⟩ := openRound_of_submitTurn h
      have hturns := turns_accepted haccepted
      exact ⟨hturns,fun hover => hover (openRound_eq_some.mp hopen).1⟩
    | connect | start | submit | forfeit => cases hcall
  leaves heffect hcall := by
    cases heffect with
    | resolve h => cases hcall
    | connect player session =>
      rw [markConnected_gameState]
      exact ⟨rfl,fun h => h⟩
    | start session => exact ⟨rfl,fun h => h⟩
    | submit hplayer h =>
      rw [(stores_rest h).1]
      exact ⟨rfl,fun h => h⟩
    | forfeit forfeiting session => exact ⟨rfl,fun _ => nofun⟩

end Matches

section Phases

/-- What a task bases the total of a match result on. -/
inductive Basis
  /-- A handler or a turn timer: the session that its last resolution has written. -/
  | playing (wrote : Option PvPSessionState)
  /-- A forfeit timer that has not written. -/
  | waiting
  /-- A forfeit timer that has written. -/
  | forfeited
  /-- A forfeit timer that has read the session after its write. -/
  | reporting (session : PvPSessionState)

/-- The basis after an operation. -/
def Basis.next : Basis → (o : Op language) → Except Exc o.Res → Basis
  | .playing _,.store (.exec _ _ (.resolve _ _) session),.ok true => .playing (some session)
  | .waiting,.store (.exec _ _ (.forfeit _) _),.ok true => .forfeited
  | .forfeited,.store .load,.ok (some session) => .reporting session
  | basis,_,_ => basis

/-- The totals that may be sent. -/
def Basis.Sends (total : ℤ) : Basis → Prop
  | .playing wrote => ∃ session,wrote=some session ∧ session.gameState.status≠.inProgress ∧
      total=turns session.gameState
  | .reporting session => total=finishedTurns session.gameState
  | _ => False

/-- What a task may perform. -/
def Basis.Allows (basis : Basis) : Op language → Prop
  | .store (.exec _ _ (.forfeit _) session) => session.gameState.status≠.inProgress
  | .act (.send _ _ (.matchResult _ _ _ total)) => basis.Sends total
  | _ => True

/-- The bases of the tasks. -/
abbrev totals : Watcher runtime where
  Phase := Basis
  start
    | .forfeitAfterTimeout _ _ _ => .waiting
    | _ => .playing none
  next basis o _ r := basis.next o r
  allows := Basis.Allows
  ends _ := True

variable {α β : Type} {worker : Worker}

/-- A task that plays goes on to play. -/
theorem next_playing (wrote : Option PvPSessionState) (o : Op language) (r : Except Exc o.Res) :
    ∃ wrote',(Basis.playing wrote).next o r=.playing wrote' := by
  unfold Basis.next
  split <;> simp_all

/-- An operation that neither forfeits nor tells a result. -/
def Free : Op language → Prop
  | .store (.exec _ _ (.forfeit _) _) => False
  | .act (.send _ _ message) => message.isMatchResult=false
  | _ => True

/-- It is allowed. -/
theorem allows_free {o : Op language} (h : Free o) (basis : Basis) : basis.Allows o := by
  unfold Basis.Allows
  split
  · exact h.elim
  · cases h
  · exact True.intro

/-- A program of a task that plays. -/
abbrev Plays (p : Coroutine α) : Prop :=
  ∀ wrote,totals.Follows (fun basis _ => ∃ wrote',basis=.playing wrote') (.playing wrote) p

theorem plays_done (r : Except Exc α) : Plays (.done r) := fun wrote => ⟨wrote,rfl⟩

theorem Plays.andThen {p : Coroutine α} {f : Except Exc α → Coroutine β} (h : Plays p)
    (hf : ∀ r,Plays (f r)) : Plays (p.andThen f) := by
  intro wrote
  apply (h wrote).andThen
  rintro _ r ⟨wrote',rfl⟩
  exact hf r wrote'

theorem Plays.bind {p : Coroutine α} {f : α → Coroutine β} (h : Plays p)
    (hf : ∀ a,Plays (f a)) : Plays (p >>= f) := by
  intro wrote
  apply (h wrote).bind
  · rintro _ a ⟨wrote',rfl⟩
    exact hf a wrote'
  · exact fun _ _ hplays => hplays

/-- A program of free operations. -/
theorem plays_free {p : Coroutine α} (h : p.All Free) : Plays p := by
  intro wrote
  apply Watcher.Follows.among h
  · rintro _ o ⟨wrote',rfl⟩ hfree
    exact ⟨allows_free hfree _,fun _ r => next_playing wrote' o r⟩
  · exact ⟨wrote,rfl⟩

end Phases

section Programs

variable {α β : Type} {worker : Worker}

/-- A transaction that is no forfeit. -/
theorem free_watchAndUpdate {L : Type} {call : L → Call} {mutator : Mutator L}
    (hcall : ∀ c forfeiting,call c≠.forfeit forfeiting) (attempts : ℕ) (c : L) :
    (watchAndUpdate call mutator attempts c).All Free := by
  induction attempts generalizing c with
  | zero => exact True.intro
  | succ attempts ih =>
    refine ⟨True.intro,fun r => ?_⟩
    cases r with
    | error exc => exact True.intro
    | ok token =>
      refine ⟨True.intro,fun r => ?_⟩
      rcases r with exc | _ | session
      · exact True.intro
      · exact ⟨True.intro,fun r => by cases r <;> exact True.intro⟩
      · dsimp only [Prog.bind]
        cases mutator c session with
        | error e => exact True.intro
        | ok result =>
          refine ⟨?_,fun r => ?_⟩
          · have hfree : ∀ call',(∀ forfeiting,call'≠.forfeit forfeiting) →
                Free (.store (.exec token attempts call' result.2)) := by
              intro call' hcall'
              cases call' with
              | forfeit forfeiting => exact absurd rfl (hcall' forfeiting)
              | connect | start | submit | resolve => exact True.intro
            exact hfree (call c) (hcall c)
          · rcases r with exc | _ | _
            · exact True.intro
            · exact ih result.1
            · exact True.intro

/-- The programs of a task that plays, as far as they say nothing about the match. -/
theorem walk : GamePrograms.Walk fun _ p => Plays p where
  done := plays_done
  andThen := Plays.andThen
  send hcasual := plays_free (Prog.All.perform hcasual.2)
  act o ho := by
    apply plays_free (Prog.All.perform _)
    cases o with
    | send => cases ho
    | _ => exact True.intro
  load := plays_free (Prog.All.perform True.intro)
  delete := plays_free (Prog.All.perform True.intro)
  update attempts c hcall := plays_free (free_watchAndUpdate hcall attempts c)

theorem plays_sendWaitingForAction (worker : Worker) (session : PvPSessionState) :
    Plays (sendWaitingForAction worker session) := by
  have hsend : ∀ player number limit round yours theirs,Plays (send worker player
      (.waitingForAction number limit round yours theirs)) :=
    fun _ _ _ _ _ _ => plays_free (Prog.All.perform rfl)
  unfold sendWaitingForAction
  split
  · exact plays_done _
  · apply (hsend _ _ _ _ _ _).bind
    intro _
    apply (hsend _ _ _ _ _ _).bind
    exact fun _ => walk.act (.restartTimeout _) rfl

/-- The transaction of a resolution: the session that it returns is the one that it has
written, and the captured variables are what the mutator has made with it. -/
theorem follows_resolve {L : Type} {mutator : Mutator L} (p1Action p2Action : Action)
    (attempts : ℕ) (c : L) (wrote : Option PvPSessionState) :
    totals.Follows (fun basis (r : Except Exc (L×PvPSessionState)) =>
      (∃ wrote',basis=.playing wrote') ∧ ∀ result,r=.ok result →
        basis=.playing (some result.2) ∧ ∃ c session,mutator c session=.ok result)
      (.playing wrote)
      (watchAndUpdate (fun _ => .resolve p1Action p2Action) mutator attempts c) := by
  have hraised : ∀ exc,(∃ wrote',Basis.playing wrote=.playing wrote') ∧ ∀ result,
      (.error exc : Except Exc (L×PvPSessionState))=.ok result →
        Basis.playing wrote=.playing (some result.2) ∧ ∃ c session,
          mutator c session=.ok result :=
    fun exc => ⟨⟨wrote,rfl⟩,fun result he => nomatch he⟩
  induction attempts generalizing c with
  | zero => exact hraised _
  | succ attempts ih =>
    refine ⟨True.intro,fun _ r _ => ?_⟩
    cases r with
    | error exc => exact hraised exc
    | ok token =>
      refine ⟨True.intro,fun _ r _ => ?_⟩
      rcases r with exc | _ | session
      · exact hraised exc
      · refine ⟨True.intro,fun _ r _ => ?_⟩
        cases r with
        | error exc => exact hraised exc
        | ok u => exact hraised _
      · dsimp only [Prog.bind]
        cases hm : mutator c session with
        | error e => exact hraised e
        | ok result =>
          refine ⟨True.intro,fun _ r _ => ?_⟩
          rcases r with exc | _ | _
          · exact hraised exc
          · exact ih result.1
          · refine ⟨⟨_,rfl⟩,fun result' he => ?_⟩
            obtain rfl : result=result' := Except.ok.inj he
            exact ⟨rfl,c,session,hm⟩

/-- The result that ends a match counts the turns of the session that has been written. -/
theorem counts_applyTurn {p1Action p2Action : Action} {c captured : ResolveCaptured}
    {session session' : PvPSessionState}
    (h : GameSession.applyTurn p1Action p2Action c session=.ok (captured,session'))
    {result : MatchResult} (hr : captured.matchResult=some result) :
    session'.gameState.status≠.inProgress ∧ result.totalTurns=turns session'.gameState := by
  unfold GameSession.applyTurn at h
  split at h
  · cases h
  · next gameState report hsubmit =>
    cases h
    obtain ⟨round,hopen,-,haccepted⟩ := openRound_of_submitTurn hsubmit
    exact totalTurns_accepted haccepted hr

/-- An operation that leaves the basis of a task that plays. -/
def Keeps : Op language → Prop
  | .act (.send _ _ message) => message.isMatchResult=false
  | .act _ | .store .load => True
  | _ => False

/-- A program of such operations. -/
theorem follows_keeps {wrote : Option PvPSessionState} {p : Coroutine α} (h : p.All Keeps) :
    totals.Follows (fun basis _ => basis=.playing wrote) (.playing wrote) p := by
  apply Watcher.Follows.idle
  refine h.mono fun o ho => ?_
  match o with
  | .store .load => exact ⟨True.intro,fun _ _ _ => rfl⟩
  | .act o =>
    refine ⟨allows_free ?_ _,fun _ _ _ => rfl⟩
    cases o with
    | send => exact ho
    | _ => exact True.intro
  | .store .watch | .store .get | .store .unwatch | .store .delete | .store (.exec _ _ _ _)
  | .store (.set _ _ _) => exact ho.elim

/-- The announcement of a turn. -/
theorem follows_announceTurn {captured : ResolveCaptured} {session : PvPSessionState}
    (h : ∀ result,captured.matchResult=some result →
      session.gameState.status≠.inProgress ∧ result.totalTurns=turns session.gameState)
    (turnResult : TurnResult) (p1Id p2Id : UUID) :
    totals.Follows (fun basis _ => ∃ wrote',basis=.playing wrote') (.playing (some session))
      (announceTurn worker turnResult captured p1Id p2Id) := by
  have hsend : ∀ {player message},message.isMatchResult=false →
      (send worker player message).All Keeps := fun hmessage => Prog.All.perform hmessage
  have hround : ∀ result,(announceRound worker p1Id p2Id result).All Keeps := by
    intro result
    cases result with
    | none => exact True.intro
    | some result => exact (hsend rfl).bind fun _ => hsend rfl
  have hstays : ∀ {p : Coroutine Unit} {f : Unit → Coroutine Unit},p.All Keeps →
      (∀ u,totals.Follows (fun basis _ => ∃ wrote',basis=.playing wrote')
        (.playing (some session)) (f u)) →
      totals.Follows (fun basis _ => ∃ wrote',basis=.playing wrote') (.playing (some session))
        (p >>= f) := by
    intro p f hp hf
    apply (follows_keeps hp).bind
    · rintro _ u rfl
      exact hf u
    · exact fun _ _ hbasis => ⟨_,hbasis⟩
  apply hstays (hsend rfl)
  intro _
  apply hstays (hsend rfl)
  intro _
  apply hstays (hround _)
  intro _
  cases hm : captured.matchResult with
  | none =>
    exact walk.promptNextTurn plays_sendWaitingForAction _ _
  | some result =>
    obtain ⟨hover,htotal⟩ := h result hm
    have htells : ∀ player,totals.allows (.playing (some session))
        (.act (.send worker player (matchResultMessage result player p1Id))) :=
      fun player => ⟨session,rfl,hover,htotal⟩
    refine ⟨htells p1Id,fun _ r _ => ?_⟩
    cases r with
    | error exc => exact ⟨_,rfl⟩
    | ok u => exact ⟨htells p2Id,fun _ r _ => ⟨_,rfl⟩⟩

theorem plays_resolveTurn (p1Action p2Action : Action) :
    Plays (resolveTurn worker p1Action p2Action) := by
  intro wrote
  apply GamePrograms.follows_except (follows_resolve p1Action p2Action defaultMaxRetries _ wrote)
  · rintro _ ⟨captured,session⟩ ⟨-,hwritten⟩
    obtain ⟨rfl,c,before,hm⟩ := hwritten _ rfl
    have hcounts := fun result (hr : captured.matchResult=some result) => counts_applyTurn hm hr
    have hkeep : ∀ {β : Type} {p : Coroutine β} {f : β → Coroutine Unit},p.All Keeps →
        (∀ b,totals.Follows (fun basis _ => ∃ wrote',basis=.playing wrote')
          (.playing (some session)) (f b)) →
        totals.Follows (fun basis _ => ∃ wrote',basis=.playing wrote') (.playing (some session))
          (p >>= f) := by
      intro β p f hp hf
      apply (follows_keeps hp).bind
      · rintro _ b rfl
        exact hf b
      · exact fun _ _ hbasis => ⟨_,hbasis⟩
    have hcancel : (act (.cancelTimeout worker)).All Keeps := Prog.All.perform True.intro
    have hload : load.All Keeps := Prog.All.perform True.intro
    apply hkeep hcancel
    intro _
    dsimp only
    cases captured.turnResult with
    | none => exact ⟨_,rfl⟩
    | some turnResult =>
      apply hkeep hload
      intro value
      cases value with
      | none => exact ⟨_,rfl⟩
      | some read => exact follows_announceTurn hcounts turnResult _ _
  · rintro _ exc ⟨hplays,-⟩
    exact hplays
  · exact fun _ _ hraised => hraised.1

/-- A forfeit timer tells the total of the session that it reads after its write. -/
theorem follows_writeForfeit (opponent : UUID) (forfeiting : RoundWinner) :
    totals.Follows (fun _ _ => True) .waiting (writeForfeit worker opponent forfeiting) := by
  have hwrites : totals.Follows (fun basis (r : Except Exc (Unit×PvPSessionState)) => ∀ result,
      r=.ok result → basis=.forfeited) .waiting
      (watchAndUpdate (fun _ => .forfeit forfeiting) (forfeitMatch forfeiting) defaultMaxRetries
        ()) := by
    generalize defaultMaxRetries=attempts
    induction attempts with
    | zero => exact fun result he => nomatch he
    | succ attempts ih =>
      refine ⟨True.intro,fun _ r _ => ?_⟩
      cases r with
      | error exc => exact fun result he => nomatch he
      | ok token =>
        refine ⟨True.intro,fun _ r _ => ?_⟩
        rcases r with exc | _ | session
        · exact fun result he => nomatch he
        · refine ⟨True.intro,fun _ r _ => ?_⟩
          cases r with
          | error exc => exact fun result he => nomatch he
          | ok u => exact fun result he => nomatch he
        · have hover : totals.allows .waiting (.store (.exec token attempts (.forfeit forfeiting)
              {session with gameState := (forfeit session.gameState forfeiting).1})) := nofun
          refine ⟨hover,fun _ r _ => ?_⟩
          rcases r with exc | _ | _
          · exact fun result he => nomatch he
          · exact ih
          · exact fun _ _ => rfl
  apply GamePrograms.follows_except hwrites
  · intro basis result hbasis
    rw [hbasis result rfl]
    refine ⟨True.intro,fun _ r _ => ?_⟩
    rcases r with exc | _ | session
    · exact True.intro
    · exact True.intro
    · exact ⟨rfl,fun _ _ _ => True.intro⟩
  · exact fun _ _ _ => True.intro
  · exact fun _ _ _ => True.intro

theorem follows_forfeitAfterTimeout (disconnected opponent : UUID) :
    totals.Follows (fun _ _ => True) .waiting
      (forfeitAfterTimeout worker disconnected opponent) := by
  have hload : totals.Follows (fun basis (_ : Except Exc (Option PvPSessionState)) =>
      basis=.waiting) .waiting load := ⟨True.intro,fun _ _ _ => rfl⟩
  refine ⟨True.intro,fun _ r _ => ?_⟩
  cases r with
  | error exc => exact True.intro
  | ok u =>
    refine ⟨True.intro,fun _ r _ => ?_⟩
    rcases r with exc | _ | _
    · exact True.intro
    · apply GamePrograms.follows_except hload
      · rintro _ value rfl
        cases value with
        | none => exact True.intro
        | some session => exact follows_writeForfeit opponent _
      · exact fun _ _ _ => True.intro
      · exact fun _ _ _ => True.intro
    · exact True.intro

/-- Every task follows its bases. -/
theorem body_follows (entry : Entry) :
    totals.Follows (fun basis _ => totals.ends basis) (totals.start entry) (body entry) := by
  cases entry with
  | gameWs worker player frames =>
    have hplays : Plays (gameWs worker player frames) :=
      walk.gameWs (fun _ => plays_resolveTurn)
        (fun _ => walk.handleConnect plays_sendWaitingForAction)
        (fun _ => walk.start plays_sendWaitingForAction) player frames
    exact (hplays none).mono fun _ _ _ => True.intro
  | turnTimeout worker =>
    have hplays : Plays (turnTimeout worker) := walk.turnTimeout fun _ => plays_resolveTurn
    exact (hplays none).mono fun _ _ _ => True.intro
  | forfeitAfterTimeout worker disconnected opponent =>
    exact follows_forfeitAfterTimeout disconnected opponent

end Programs

section Runs

variable {pairing : Pairing} {config config' : workers.Config} {seen seen' : Seen totals}
  {move : workers.Move} {moves : List workers.Move}

/-- The turns that have been resolved. -/
def resolved (config : workers.Config) : ℕ := tally resolves config.world.trace

/-- Every transaction of a run continues from the stored session. -/
theorem continues (hrun : (initial pairing).Reaches config) :
    Meets (Continues (L := language) (R := runtime) (Effect pairing) (some pairing.session))
      config.world.trace := by
  apply meets_of_splits
  intro earlier event later hsplit
  have hfollows := (chronicle hrun).follows
  change Meets (Follows pairing) config.world.trace at hfollows
  rw [hsplit] at hfollows
  have hevent := hfollows.at
  cases event with
  | commit task call before after => exact ⟨hevent.1,hevent.2.2⟩
  | conflict | deleted | loaded | note => exact True.intro

/-- The stored session is the one that the record tells. -/
theorem value_eq (hrun : (initial pairing).Reaches config) :
    config.world.value=sessionAfter pairing config.world.trace := (chronicle hrun).value

/-- No turn can be resolved any more. -/
def Closed (config : workers.Config) : Prop :=
  ∀ session,config.world.value=some session → session.gameState.status≠.inProgress

/-- The stored session tells the number of turns. -/
theorem turns_eq (hrun : (initial pairing).Reaches config) {session : PvPSessionState}
    (hvalue : config.world.value=some session) : turns session.gameState=resolved config := by
  have htally := (counter pairing).tally_eq (continues hrun) rfl
    ((value_eq hrun).symm.trans hvalue)
  have hzero : turns pairing.session.gameState=0 := rfl
  change turns session.gameState=turns pairing.session.gameState+(resolved config : ℤ) at htally
  omega

/-- Once the match is closed it stays so, with the turns that it has had. -/
theorem closed_later (hrun : (initial pairing).Reaches config)
    (hrun' : (initial pairing).Reaches config')
    (hlater : config.world.trace <+: config'.world.trace) (hclosed : Closed config) :
    resolved config'=resolved config ∧ Closed config' := by
  obtain ⟨later,hlater⟩ := hlater
  have hcontinues := continues hrun'
  rw [← hlater] at hcontinues
  have hsettled : (counter pairing).Settled (sessionAfter pairing config.world.trace) := by
    rw [← value_eq hrun]
    exact hclosed
  obtain ⟨htally,hover,-⟩ := (counter pairing).settled hcontinues hsettled
  rw [hlater] at htally hover
  refine ⟨htally,?_⟩
  unfold Closed
  rw [value_eq hrun']
  exact hover

/-- What the basis of a task knows of the match. -/
def Basis.Knows (config : workers.Config) : Basis → Prop
  | .playing (some session) => session.gameState.status≠.inProgress →
    Closed config ∧ turns session.gameState=resolved config
  | .forfeited => Closed config
  | .reporting session => Closed config ∧ turns session.gameState=resolved config
  | _ => True

/-- It stays true. -/
theorem Basis.Knows.later {basis : Basis} (h : basis.Knows config)
    (hrun : (initial pairing).Reaches config) (hrun' : (initial pairing).Reaches config')
    (hlater : config.world.trace <+: config'.world.trace) : basis.Knows config' := by
  have hboth : ∀ {session : PvPSessionState},
      Closed config ∧ turns session.gameState=resolved config →
      Closed config' ∧ turns session.gameState=resolved config' := by
    rintro session ⟨hclosed,hturns⟩
    obtain ⟨hsame,hclosed'⟩ := closed_later hrun hrun' hlater hclosed
    exact ⟨hclosed',hsame ▸ hturns⟩
  match basis with
  | .playing (some session) => exact fun hover => hboth (h hover)
  | .forfeited => exact (closed_later hrun hrun' hlater h).2
  | .reporting session => exact hboth h
  | .playing none | .waiting => exact True.intro

/-- An operation of the task itself keeps it true. -/
theorem Basis.Knows.next {basis : Basis} {task : TaskId} {choice : Choice} {o : Op language}
    {r : Except Exc o.Res} {started : Option Entry} (h : basis.Knows config)
    (hallows : basis.Allows o) (hrun : (initial pairing).Reaches config)
    (hrun' : (initial pairing).Reaches config')
    (hlater : config.world.trace <+: config'.world.trace)
    (hp : WatchedKey.perform (R := runtime) choice task config.tasks.length o config.world=
      some (config'.world,r,started)) : (basis.next o r).Knows config' := by
  have hsame := h.later hrun hrun' hlater
  have hclosed : ∀ {session : PvPSessionState},config'.world.value=some session →
      session.gameState.status≠.inProgress → Closed config' := by
    intro session hvalue hover session' hvalue'
    rw [hvalue] at hvalue'
    cases hvalue'
    exact hover
  unfold Basis.next
  split
  · next wrote token retriesLeft p1Action p2Action session =>
    intro hover
    have hvalue := value_of_exec hp
    exact ⟨hclosed hvalue hover,turns_eq hrun' hvalue⟩
  · exact hclosed (value_of_exec hp) hallows
  · have hvalue := (value_of_load hp).2
    exact ⟨hsame,turns_eq hrun' hvalue⟩
  · exact hsame

/-- What all bases know. -/
def Known (seen : Seen totals) : Prop :=
  ∀ (task : TaskId) (basis : Basis),seen.phases[task]?=some basis → basis.Knows seen.config

/-- Throughout a run they know it. -/
theorem known (hrun : (Seen.initial totals (initial pairing)).run moves=some seen) :
    Known seen ∧ seen.Conforms := by
  apply Seen.invariant (F := fun _ _ => True) body_follows rfl ?_ hrun (fun _ _ => True.intro)
  · exact fun _ _ hphase => nomatch hphase
  · intro seen seen' move hreach hconforms hknown _ hmoved
    -- whatever has moved, the record has only grown
    have hstep := hmoved.config
    have hreach' : (initial pairing).Reaches seen'.config := by
      obtain ⟨earlier,hearlier⟩ := hreach
      exact ⟨_,System.Config.run_concat hearlier hstep⟩
    have hlater := RecordedTasks.trace_step hstep
    cases hmoved with
    | opened entry harrives =>
      intro task basis hbasis
      obtain hold | ⟨-,hnew⟩ := @Seen.getElem?_extended _ _ (some (totals.start entry)) _ _ hbasis
      · exact (hknown task basis hold).later hreach hreach' hlater
      · cases hnew
        cases entry <;> exact True.intro
    | performed task choice before o rest world r started htask hphase hp =>
      intro other basis hbasis
      obtain ⟨rfl,rfl⟩ | ⟨-,hother⟩ | ⟨-,hstarted⟩ := Seen.getElem?_moved hbasis
      · exact (hknown other before hphase).next (hconforms.allows hphase htask) hreach hreach'
          hlater hp
      · exact (hknown other basis hother).later hreach hreach' hlater
      · obtain ⟨entry,-,rfl⟩ := Option.map_eq_some_iff.mp hstarted
        cases entry <;> exact True.intro

/-- The match result that a move sends, with the basis of its total. -/
def report (moment : Seen.Moment totals) : Option (Basis×ℤ) :=
  match moment.1.performed moment.2 with
  | some ⟨_,basis,.act (.send _ _ (.matchResult _ _ _ total)),true,_⟩ => some (basis,total)
  | _ => none

/-- The match results of a run. -/
def reports (pairing : Pairing) (moves : List workers.Move) : List (Basis×ℤ) :=
  ((Seen.initial totals (initial pairing)).moments moves).filterMap report

/-- The session that a forfeit timer has read has no turns in an open round. -/
def Basis.AtRoundStart : Basis → Prop
  | .reporting session => openTurns session.gameState=0
  | _ => True

instance (basis : Basis) : Decidable basis.AtRoundStart := by
  unfold Basis.AtRoundStart
  split <;> infer_instance

/-- A match result that is sent may be sent. -/
theorem sends_of_report {moment : Seen.Moment totals} {basis : Basis} {total : ℤ}
    (hconforms : moment.1.Conforms) (h : report moment=some (basis,total)) :
    (∃ task : ℕ,moment.1.phases[task]?=some basis) ∧ basis.Sends total := by
  unfold report at h
  split at h
  · next task basis' worker player winner won₁ won₂ total' r hperformed =>
    cases h
    obtain ⟨hphase,rest,htask⟩ := Seen.performed_cases hperformed
    exact ⟨⟨task,hphase⟩,hconforms.allows hphase htask⟩
  · cases h

/-- The total of a match result is the number of turns of the match exactly if no turns
of an open round are left out. -/
theorem report_iff (hrun : (Seen.initial totals (initial pairing)).run moves=some seen)
    {basis : Basis} {total : ℤ} (h : (basis,total)∈reports pairing moves) :
    total=resolved seen.config ↔ basis.AtRoundStart := by
  obtain ⟨⟨seen₁,move⟩,hmoment,hreport⟩ := List.mem_filterMap.mp h
  obtain ⟨earlier,later,hsplit⟩ := List.append_of_mem hmoment
  obtain ⟨moves₁,moves₂,seen₂,-,hrun₁,-,hmove,hrun₂,-⟩ := Seen.split hrun hsplit
  obtain ⟨hknown,hconforms⟩ := known hrun₁
  have hreach₁ : (initial pairing).Reaches seen₁.config := ⟨moves₁,Seen.run_config hrun₁⟩
  have hreach : (initial pairing).Reaches seen.config := ⟨moves,Seen.run_config hrun⟩
  have hlater : seen₁.config.world.trace <+: seen.config.world.trace := by
    obtain ⟨config,hstep,rfl⟩ := Option.map_eq_some_iff.mp hmove
    exact (RecordedTasks.trace_step hstep).trans (RecordedTasks.trace_run (Seen.run_config hrun₂))
  obtain ⟨⟨task,hphase⟩,hsends⟩ := sends_of_report hconforms hreport
  have hknows := (hknown task basis hphase).later hreach₁ hreach hlater
  match basis with
  | .playing wrote =>
    obtain ⟨session,rfl,hover,htotal⟩ := hsends
    have hturns := (hknows hover).2
    exact ⟨fun _ => True.intro,fun _ => htotal.trans hturns⟩
  | .reporting session =>
    have htotal : total=finishedTurns session.gameState := hsends
    have hturns : finishedTurns session.gameState+openTurns session.gameState=
        resolved seen.config := hknows.2
    change total=resolved seen.config ↔ openTurns session.gameState=0
    omega
  | .waiting | .forfeited => exact hsends.elim

/-- All match results of a run count the turns of the match exactly if none of them
leaves out the turns of an open round. -/
theorem reported_iff (hrun : (Seen.initial totals (initial pairing)).run moves=some seen) :
    (∀ report∈reports pairing moves,report.2=resolved seen.config) ↔
      ∀ report∈reports pairing moves,report.1.AtRoundStart := by
  constructor
  · exact fun h report hreport => (report_iff hrun hreport).mp (h report hreport)
  · exact fun h report hreport => (report_iff hrun hreport).mpr (h report hreport)

/-- Player 1 loses the first round by his second turn. Then he disconnects, and his forfeit
timer runs out. -/
def forfeitAfterRound : List workers.Move :=
  opens 1 ["charge","attack"]::proceeds 0 8++opens 2 ["charge","charge"]::proceeds 1 14++
    proceeds 0 5++proceeds 1 18++proceeds 0 5++proceeds 1 14++proceeds 0 6++proceeds 4 8

/-- Player 1 disconnects after the first turn, and his forfeit timer runs out. -/
def forfeitAfterTurn : List workers.Move :=
  opens 1 ["charge"]::proceeds 0 8++opens 2 ["charge"]::proceeds 1 14++proceeds 0 5++
    proceeds 1 12++proceeds 0 6++proceeds 3 8

end Runs

end KiClash.TurnTotals

import KiClash.CountedWrites
import KiClash.GoOperations
import KiClash.GoTurns
import KiClash.TurnTotals

/-!
# What the Go match results count

A forfeit timer of the Go server counts the turns of the open round too, but in the
session that it has read before its write. Turns that are resolved after that are left
out, and after a write that has failed the match goes on anyway.
-/

namespace KiClash.GoTurnTotals

open GoTypes GoEngine AsyncTasks WatchedKey TaskPhases Histories CountedWrites
open ServerMessages GoStore GoSession GoOperations GoPendingPairs GoTurns GoChronicle
open GameStore (Pairing)

section Matches

variable {gs gs' : GameState} {p1 p2 : Action}

/-- Recording a round adds its turns. -/
theorem sumTurns_append (results : Slice RoundResult) (rr : RoundResult) :
    sumTurns (results.append rr).elements=sumTurns results.elements+rr.totalTurns := by
  change sumTurns (results.elements++[rr])=_
  induction results.elements with
  | nil => simp [sumTurns]
  | cons result results ih =>
    simp only [List.cons_append,sumTurns,ih]
    omega

/-- A finished round has had the turns of the round. -/
theorem totalTurns_of_checkRoundEnd {tr : TurnResult} {rs : RoundState} {rr : RoundResult}
    (h : checkRoundEnd tr rs=some rr) : rr.totalTurns=rs.turnNumber := by
  unfold checkRoundEnd at h
  dsimp only at h
  split at h
  · cases h
  · cases h
    rfl

/-- The result of a match counts the turns of its rounds. -/
theorem totalTurns_of_checkMatchEnd {mr : MatchResult} (h : checkMatchEnd gs=some mr) :
    mr.totalTurns=sumTurns gs.roundResults.elements := by
  unfold checkMatchEnd at h
  split_ifs at h <;> cases h <;> rfl

/-- The turns of a match with a finished round. -/
theorem sumTurns_closed {cr : RoundState} {rr : RoundResult}
    (hw : checkRoundEnd (nextTurn cr p1 p2) (nextRound cr p1 p2)=some rr) :
    sumTurns (gs.roundResults.append rr).elements=
      sumTurns gs.roundResults.elements+cr.turnNumber+1 := by
  have hturns : rr.totalTurns=cr.turnNumber+1 := totalTurns_of_checkRoundEnd hw
  rw [sumTurns_append,hturns]
  omega

/-- An accepted turn counts. -/
theorem forfeitTurns_accepted {cr : RoundState} (hr : gs.currentRound=some cr)
    (h : Accepted gs cr p1 p2 gs') : forfeitTurns gs'=forfeitTurns gs+1 := by
  have hbefore : forfeitTurns gs=sumTurns gs.roundResults.elements+cr.turnNumber := by
    simp [forfeitTurns,hr]
  rw [hbefore]
  cases h with
  | roundGoesOn =>
    simp only [forfeitTurns,Option.map_some,Option.getD_some]
    omega
  | roundCloses rr hw =>
    have hclosed := @sumTurns_closed gs p1 p2 cr rr hw
    simp only [forfeitTurns,startNewRound,Option.map_some,Option.getD_some]
    omega
  | matchCloses rr hw =>
    have hclosed := @sumTurns_closed gs p1 p2 cr rr hw
    simp only [forfeitTurns,Option.map_none,Option.getD_none]
    omega

/-- The result that ends a match counts all of its turns. -/
theorem totalTurns_applyTurn {cr : RoundState} {mr : MatchResult}
    (h : (GoEngine.applyTurn gs cr p1 p2).2.matchResult=some mr) :
    (GoEngine.applyTurn gs cr p1 p2).1.status≠matchInProgress ∧
      mr.totalTurns=forfeitTurns (GoEngine.applyTurn gs cr p1 p2).1 := by
  unfold GoEngine.applyTurn at h ⊢
  dsimp only at h ⊢
  split at h
  · cases h
  · split at h
    · next mr' hmatch =>
      cases h
      have hover : matchCompleted≠matchInProgress := by decide
      refine ⟨hover,?_⟩
      rw [totalTurns_of_checkMatchEnd hmatch]
      simp [forfeitTurns]
    · cases h

/-- The turns of a stored session. -/
def counter (pairing : Pairing) : Counter (L := language) (Effect pairing) GameState where
  counted
    | .resolve _ _ => true
    | _ => false
  part sess := {sess.gameState with status := matchInProgress}
  total := forfeitTurns
  final sess := sess.gameState.status≠matchInProgress
  adds heffect hcall := by
    cases heffect with
    | resolve h =>
      obtain ⟨cr,hstatus,hr,-,-,haccepted⟩ := accepted_of_submitTurn h
      have hturns := forfeitTurns_accepted hr haccepted
      exact ⟨hturns,fun hover => hover hstatus⟩
    | keeps hcall' => obtain rfl | ⟨player,rfl | rfl⟩ := hcall' <;> cases hcall
    | submit | forfeit => cases hcall
  leaves heffect hcall := by
    cases heffect with
    | resolve h => cases hcall
    | keeps hcall' hkeeps =>
      rw [hkeeps.gameState]
      exact ⟨rfl,fun h => h⟩
    | submit hplayer h =>
      rw [h.unchanged.1]
      exact ⟨rfl,fun h => h⟩
    | forfeit disconnected sess =>
      have hover : matchAbandoned≠matchInProgress := by decide
      exact ⟨rfl,fun _ => hover⟩

end Matches

section Phases

/-- What a goroutine bases the total of a match result on. -/
inductive Basis
  /-- A handler or a turn timer: the session that its last resolution has written. -/
  | playing (wrote : Option PvPSession)
  /-- A forfeit timer that has not read the session. -/
  | waiting
  /-- A forfeit timer that has. -/
  | reading (sess : PvPSession)

/-- The basis after an operation. -/
def Basis.next : Basis → (o : Op language) → Except Failure o.Res → Basis
  | .playing _,.store (.exec _ _ (.resolve _ _) sess),.ok true => .playing (some sess)
  | .waiting,.store .load,.ok (some sess) => .reading sess
  | basis,_,_ => basis

/-- The session that a forfeit timer has read. -/
def Basis.read : Basis → Option PvPSession
  | .reading sess => some sess
  | _ => none

/-- It is kept. -/
theorem Basis.read_next {basis : Basis} {sess : PvPSession} (h : basis.read=some sess)
    (o : Op language) (r : Except Failure o.Res) : (basis.next o r).read=some sess := by
  cases basis with
  | playing | waiting => cases h
  | reading sess' => exact h

/-- The totals that may be sent. -/
def Basis.Sends (total : ℤ) : Basis → Prop
  | .playing wrote => ∃ sess,wrote=some sess ∧ sess.gameState.status≠matchInProgress ∧
      total=forfeitTurns sess.gameState
  | .reading sess => total=forfeitTurns sess.gameState
  | .waiting => False

/-- What a goroutine may perform. -/
def Basis.Allows (basis : Basis) : Op language → Prop
  | .act (.send _ _ (.matchResult _ _ _ total)) => basis.Sends total
  | _ => True

/-- The bases of the goroutines. -/
abbrev totals : Watcher runtime where
  Phase := Basis
  start
    | .forfeitAfterTimeout _ _ _ => .waiting
    | _ => .playing none
  next basis o _ r := basis.next o r
  allows := Basis.Allows
  ends _ := True

variable {α β : Type} {instance' : Instance}

/-- A goroutine that plays goes on to play. -/
theorem next_playing (wrote : Option PvPSession) (o : Op language) (r : Except Failure o.Res) :
    ∃ wrote',(Basis.playing wrote).next o r=.playing wrote' := by
  unfold Basis.next
  split <;> simp_all

/-- An operation that tells no result. -/
def Free : Op language → Prop
  | .act (.send _ _ message) => message.isMatchResult=false
  | _ => True

/-- It is allowed. -/
theorem allows_free {o : Op language} (h : Free o) (basis : Basis) : basis.Allows o := by
  unfold Basis.Allows
  split
  · cases h
  · exact True.intro

/-- A program of a goroutine that plays. -/
abbrev Plays (p : Goroutine α) : Prop :=
  ∀ wrote,totals.Follows (fun basis _ => ∃ wrote',basis=.playing wrote') (.playing wrote) p

theorem plays_done (r : Except Failure α) : Plays (.done r) := fun wrote => ⟨wrote,rfl⟩

theorem Plays.bind {p : Goroutine α} {f : α → Goroutine β} (h : Plays p)
    (hf : ∀ a,Plays (f a)) : Plays (p >>= f) := by
  intro wrote
  apply (h wrote).bind
  · rintro _ a ⟨wrote',rfl⟩
    exact hf a wrote'
  · exact fun _ _ hplays => hplays

/-- A program of free operations. -/
theorem plays_free {p : Goroutine α} (h : p.All Free) : Plays p := by
  intro wrote
  apply Watcher.Follows.among h
  · rintro _ o ⟨wrote',rfl⟩ hfree
    exact ⟨allows_free hfree _,fun _ r => next_playing wrote' o r⟩
  · exact ⟨wrote,rfl⟩

end Phases

section Programs

variable {α β : Type} {instance' : Instance}

/-- An error that a program hands to its caller as a value. -/
theorem follows_returned {Q : Basis → Except Failure α → Prop}
    {Q' : Basis → Except Failure β → Prop} {basis : Basis} {p : Goroutine β}
    {f : Except Failure β → Goroutine α} (h : totals.Follows Q' basis p)
    (hf : ∀ basis r,Q' basis r → totals.Follows Q basis (f r)) :
    totals.Follows Q basis (returned p >>= f) := by
  have hreturned : totals.Follows
      (fun basis (r : Except Failure (Except Failure β)) => ∃ r',r=.ok r' ∧ Q' basis r')
      basis (returned p) := h.andThen fun basis r hq => ⟨r,rfl,hq⟩
  apply hreturned.bind
  · rintro basis r ⟨r',he,hq⟩
    cases he
    exact hf basis r hq
  · rintro basis exc ⟨r',he,-⟩
    cases he

theorem plays_returned {p : Goroutine β} {f : Except Failure β → Goroutine α} (h : Plays p)
    (hf : ∀ r,Plays (f r)) : Plays (returned p >>= f) := by
  intro wrote
  apply follows_returned (h wrote)
  rintro _ r ⟨wrote',rfl⟩
  exact hf r wrote'

theorem plays_act {o : LocalOp} (h : Free (.act o)) : Plays (act o) :=
  plays_free (Prog.All.perform h)

theorem plays_send {player : String} {message : ServerMessage}
    (h : message.isMatchResult=false) : Plays (send instance' player message) := plays_act h

theorem free_loadSession : loadSession.All Free := by
  apply (Prog.All.perform True.intro).bind
  intro value
  cases value with
  | none => exact all_done _
  | some sess => exact all_done _

/-- A transaction tells nobody. -/
theorem free_watchAndUpdate {L : Type} {call : L → Call} {mutator : Mutator L} (attempts : ℕ)
    (c : L) : (watchAndUpdate call mutator attempts c).All Free := by
  induction attempts generalizing c with
  | zero => exact all_done _
  | succ attempts ih =>
    apply (Prog.All.perform True.intro).bind
    intro token
    apply (Prog.All.perform True.intro).bind
    intro value
    cases value with
    | none => exact all_done _
    | some sess =>
      dsimp only
      cases mutator c sess with
      | error e => exact all_done _
      | ok result =>
        apply (Prog.All.perform True.intro).bind
        intro committed
        cases committed with
        | true => exact free_loadSession.bind fun _ => all_done _
        | false => exact ih result.1

theorem plays_sendWaitingForAction (sess : PvPSession) :
    Plays (sendWaitingForAction instance' sess) := by
  unfold sendWaitingForAction
  split
  · exact plays_done _
  · apply (plays_send rfl).bind
    intro _
    apply (plays_send rfl).bind
    intro _
    apply (plays_act (o := .cancelTurnTimeout _) True.intro).bind
    exact fun _ => plays_act (o := .setTurnTimeout _) True.intro

theorem plays_promptNextTurn (roundEnded : Bool) : Plays (promptNextTurn instance' roundEnded) := by
  apply (plays_act (o := .sleep _) True.intro).bind
  intro _
  apply plays_returned (plays_free free_loadSession)
  intro result
  cases result with
  | error e => exact plays_done _
  | ok fresh =>
    dsimp only
    split
    · exact plays_sendWaitingForAction fresh
    · exact plays_done _

/-- What a transaction returns has been made by its mutator and written. -/
def Wrote {L : Type} (mutator : Mutator L) (basis : Basis) (c : L) : Prop :=
  ∃ c' before written,mutator c' before=.ok (c,written) ∧ basis=.playing (some written)

/-- The transaction of a resolution. -/
theorem follows_resolve {L : Type} {mutator : Mutator L} (p1 p2 : Action) (attempts : ℕ) (c : L)
    (wrote : Option PvPSession) :
    totals.Follows (fun basis (r : Except Failure (L×PvPSession)) =>
      (∃ wrote',basis=.playing wrote') ∧ ∀ result,r=.ok result → Wrote mutator basis result.1)
      (.playing wrote) (watchAndUpdate (fun _ => .resolve p1 p2) mutator attempts c) := by
  have hraised : ∀ wrote exc,(∃ wrote',Basis.playing wrote=.playing wrote') ∧ ∀ result,
      (.error exc : Except Failure (L×PvPSession))=.ok result →
        Wrote mutator (.playing wrote) result.1 :=
    fun wrote exc => ⟨⟨wrote,rfl⟩,fun result he => nomatch he⟩
  induction attempts generalizing c with
  | zero => exact hraised _ _
  | succ attempts ih =>
    refine ⟨True.intro,fun _ r _ => ?_⟩
    cases r with
    | error exc => exact hraised _ exc
    | ok token =>
      refine ⟨True.intro,fun _ r _ => ?_⟩
      rcases r with exc | _ | sess
      · exact hraised _ exc
      · exact hraised _ _
      · dsimp only [Prog.bind]
        cases hm : mutator c sess with
        | error e => exact hraised _ _
        | ok result =>
          refine ⟨True.intro,fun _ r _ => ?_⟩
          rcases r with exc | _ | _
          · exact hraised _ exc
          · exact ih result.1
          · -- the session that is read again is not the one that has been written
            refine ⟨True.intro,fun _ r _ => ?_⟩
            rcases r with exc | _ | read
            · exact hraised _ exc
            · exact hraised _ _
            · refine ⟨⟨_,rfl⟩,fun result' he => ?_⟩
              cases he
              exact ⟨c,sess,result.2,hm,rfl⟩

/-- The result that ends a match counts the turns of the session that has been written. -/
theorem counts_applyTurn {p1 p2 : Action} {c captured : ResolveCaptured} {sess sess' : PvPSession}
    (h : GoSession.applyTurn p1 p2 c sess=.ok (captured,sess')) {mr : MatchResult}
    (hmr : captured.matchResult=some mr) :
    sess'.gameState.status≠matchInProgress ∧ mr.totalTurns=forfeitTurns sess'.gameState := by
  unfold GoSession.applyTurn at h
  split at h
  · cases h
  · next gameState report hsubmit =>
    cases h
    obtain ⟨e,he,-⟩ | ⟨cr,-,-,-,-,he⟩ := submitTurn_cases sess.gameState p1 p2
    · rw [hsubmit] at he
      cases he
    · rw [hsubmit] at he
      cases he
      exact totalTurns_applyTurn hmr

/-- An operation that leaves the basis of a goroutine that plays. -/
def Keeps : Op language → Prop
  | .act (.send _ _ message) => message.isMatchResult=false
  | .act _ => True
  | _ => False

/-- A program of such operations. -/
theorem follows_keeps {wrote : Option PvPSession} {p : Goroutine α} (h : p.All Keeps) :
    totals.Follows (fun basis _ => basis=.playing wrote) (.playing wrote) p := by
  apply Watcher.Follows.idle
  refine h.mono fun o ho => ?_
  cases o with
  | store o => exact ho.elim
  | act o =>
    refine ⟨allows_free ?_ _,fun _ _ _ => rfl⟩
    cases o with
    | send => exact ho
    | _ => exact True.intro

/-- The announcement of a turn. -/
theorem follows_concludeResolve {captured : ResolveCaptured} {written : PvPSession}
    (h : ∀ mr,captured.matchResult=some mr →
      written.gameState.status≠matchInProgress ∧ mr.totalTurns=forfeitTurns written.gameState)
    (sess : PvPSession) :
    totals.Follows (fun basis _ => ∃ wrote',basis=.playing wrote') (.playing (some written))
      (concludeResolve instance' captured sess) := by
  have hsend : ∀ {player message},message.isMatchResult=false →
      (send instance' player message).All Keeps := fun hmessage => Prog.All.perform hmessage
  have hround : ∀ result,(sendRoundResult instance' sess.player1Id sess.player2Id result).All
      Keeps := by
    intro result
    cases result with
    | none => exact all_done _
    | some rr => exact (hsend rfl).bind fun _ => hsend rfl
  have hstays : ∀ {p : Goroutine Unit} {f : Unit → Goroutine Unit},p.All Keeps →
      (∀ u,totals.Follows (fun basis _ => ∃ wrote',basis=.playing wrote')
        (.playing (some written)) (f u)) →
      totals.Follows (fun basis _ => ∃ wrote',basis=.playing wrote') (.playing (some written))
        (p >>= f) := by
    intro p f hp hf
    apply (follows_keeps hp).bind
    · rintro _ u rfl
      exact hf u
    · exact fun _ _ hbasis => ⟨_,hbasis⟩
  have hcancel : (act (.cancelTurnTimeout instance')).All Keeps := Prog.All.perform True.intro
  apply hstays hcancel
  intro _
  apply hstays (hsend rfl)
  intro _
  apply hstays (hsend rfl)
  intro _
  apply hstays (hround _)
  intro _
  cases hm : captured.matchResult with
  | none => exact plays_promptNextTurn _ _
  | some mr =>
    obtain ⟨hover,htotal⟩ := h mr hm
    have htells : ∀ player,totals.allows (.playing (some written))
        (.act (.send instance' player (matchResultFor mr player sess.player1Id))) :=
      fun player => ⟨written,rfl,hover,htotal⟩
    refine ⟨htells _,fun _ r _ => ?_⟩
    cases r with
    | error exc => exact ⟨_,rfl⟩
    | ok u => exact ⟨htells _,fun _ r _ => ⟨_,rfl⟩⟩

theorem plays_resolveTurn (p1 p2 : Action) : Plays (resolveTurn instance' p1 p2) := by
  intro wrote
  apply follows_returned (follows_resolve p1 p2 defaultMaxWatchRetries _ wrote)
  rintro basis r ⟨⟨wrote',rfl⟩,hwrote⟩
  cases r with
  | error exc => exact ⟨_,rfl⟩
  | ok result =>
    obtain ⟨c,before,written,hm,hbasis⟩ := hwrote result rfl
    cases hbasis
    exact follows_concludeResolve (fun mr hmr => counts_applyTurn hm hmr) result.2

theorem plays_submitAction (player : String) (action : Action) :
    Plays (submitAction instance' player action) := by
  apply plays_returned (plays_free (free_watchAndUpdate _ _))
  intro result
  cases result with
  | error e => cases e <;> exact plays_send rfl
  | ok result =>
    change Plays (concludeSubmit instance' player action result.1)
    unfold concludeSubmit
    split
    · exact plays_send rfl
    · apply (plays_send rfl).bind
      intro _
      split
      · exact plays_resolveTurn _ _
      · exact plays_done _

theorem plays_handleConnect (player : String) : Plays (handleConnect instance' player) := by
  apply plays_returned (plays_free (free_watchAndUpdate _ _))
  intro result
  cases result with
  | error e =>
    cases e with
    | gameNotFound => exact plays_send rfl
    | tooManyWatchRetries | mutator | store => exact plays_done _
  | ok result =>
    dsimp only
    split
    · apply (plays_act (o := .cancelDisconnectTimer _ _) True.intro).bind
      intro _
      apply (plays_send rfl).bind
      intro _
      split
      · exact plays_sendWaitingForAction _
      · exact plays_done _
    · exact plays_done _

theorem plays_start : Plays (start instance') := by
  apply plays_returned (plays_free (free_watchAndUpdate _ _))
  intro result
  cases result with
  | error e => exact plays_done _
  | ok result =>
    dsimp only
    split
    · exact plays_done _
    · exact plays_sendWaitingForAction _

theorem plays_handleDisconnect (player : String) : Plays (handleDisconnect instance' player) := by
  apply plays_returned (plays_free (free_watchAndUpdate _ _))
  intro result
  cases result with
  | error e => exact plays_done _
  | ok result =>
    apply (plays_act (o := .cancelTurnTimeout _) True.intro).bind
    intro _
    apply (plays_send rfl).bind
    exact fun _ => plays_act (o := .startDisconnect _ _ _) True.intro

theorem plays_readLoop (player : String) (frames : List Frame) :
    Plays (readLoop instance' player frames) := by
  induction frames with
  | nil =>
    apply (plays_act (o := .readMessage none) True.intro).bind
    exact fun _ => plays_handleDisconnect player
  | cons frame frames ih =>
    apply (plays_act (o := .readMessage (some frame)) True.intro).bind
    intro _
    refine Plays.bind ?_ fun _ => ih
    cases frame with
    | malformed | other => exact plays_done _
    | ping => exact plays_act (o := .writeJSON _) True.intro
    | submitAction action =>
      change Plays (if action="" then _ else _)
      split
      · exact plays_act (o := .writeJSON _) True.intro
      · exact plays_submitAction player action

theorem plays_gameWebsocket (player : String) (frames : List Frame) :
    Plays (gameWebsocket instance' player frames) := by
  apply plays_returned (plays_free free_loadSession)
  intro result
  cases result with
  | error e => exact plays_done _
  | ok sess =>
    dsimp only
    split
    · exact plays_done _
    · apply (plays_act (o := .upgrade _ _) True.intro).bind
      intro upgraded
      cases upgraded with
      | false => exact plays_done _
      | true =>
        apply (plays_handleConnect player).bind
        intro _
        apply plays_start.bind
        intro _
        exact plays_readLoop player frames

theorem plays_turnTimeoutLoop : Plays (turnTimeoutLoop instance') := by
  have hdefault : ∀ needs player,Plays (submitDefault instance' needs player) := by
    intro needs player
    cases needs with
    | false => exact plays_done _
    | true => exact plays_submitAction _ _
  apply (plays_act (o := .selectTimer _) True.intro).bind
  intro passed
  cases passed with
  | false => exact plays_done _
  | true =>
    apply plays_returned (plays_free free_loadSession)
    intro result
    cases result with
    | error e => exact plays_done _
    | ok sess =>
      dsimp only
      split
      · exact plays_done _
      · exact (hdefault _ _).bind fun _ => hdefault _ _

/-- A forfeit timer tells the total of the session that it has read at first. -/
theorem follows_forfeitAfterTimeout (disconnected opponent : String) :
    totals.Follows (fun _ _ => True) .waiting
      (forfeitAfterTimeout instance' disconnected opponent) := by
  have hload : totals.Follows (fun basis (r : Except Failure PvPSession) => ∀ sess,
      r=.ok sess → basis=.reading sess) .waiting loadSession := by
    refine ⟨True.intro,fun _ r _ => ?_⟩
    rcases r with exc | _ | sess
    · exact fun _ he => nomatch he
    · exact fun _ he => nomatch he
    · intro sess' he
      cases he
      rfl
  have hwrite : ∀ sess,totals.Follows (fun _ _ => True) (.reading sess)
      (writeForfeit instance' disconnected opponent sess) := by
    intro sess
    have hforfeit : totals.Follows (fun basis (_ : Except Failure (Unit×PvPSession)) =>
        basis=.reading sess) (.reading sess)
        (watchAndUpdate (fun _ => .forfeit disconnected) markAbandoned defaultMaxWatchRetries
          ()) := by
      apply Watcher.Follows.among (free_watchAndUpdate _ _)
      · rintro _ o rfl hfree
        exact ⟨allows_free hfree _,fun _ _ => rfl⟩
      · rfl
    apply follows_returned hforfeit
    rintro _ r rfl
    have htotal : Basis.Sends (forfeitTurns sess.gameState) (.reading sess) := rfl
    exact ⟨htotal,fun _ _ _ => True.intro⟩
  refine ⟨True.intro,fun _ r _ => ?_⟩
  rcases r with exc | _ | _
  · exact True.intro
  · exact True.intro
  · apply follows_returned hload
    intro basis r hread
    cases r with
    | error exc => exact True.intro
    | ok sess =>
      rw [hread sess rfl]
      dsimp only
      split
      · exact True.intro
      · split
        · exact True.intro
        · exact hwrite sess

/-- Every goroutine follows its bases. -/
theorem body_follows (entry : Entry) :
    totals.Follows (fun basis _ => totals.ends basis) (totals.start entry) (body entry) := by
  cases entry with
  | gameWebsocket instance' player frames =>
    exact (plays_gameWebsocket player frames none).mono fun _ _ _ => True.intro
  | turnTimeoutLoop instance' => exact (plays_turnTimeoutLoop none).mono fun _ _ _ => True.intro
  | forfeitAfterTimeout instance' disconnected opponent =>
    exact follows_forfeitAfterTimeout disconnected opponent

end Programs

section Runs

variable {pairing : Pairing} {config config' : instances.Config} {seen seen' : Seen totals}
  {move : instances.Move} {moves : List instances.Move}

/-- The turns that have been resolved. -/
def resolved (pairing : Pairing) (config : instances.Config) : ℕ :=
  tally (counter pairing).counted config.world.trace

/-- Every transaction of a run continues from the stored session. -/
theorem continues (hrun : (initial pairing).Reaches config) :
    Meets (Continues (L := language) (R := runtime) (Effect pairing)
      (some (goSession pairing.session))) config.world.trace := by
  apply meets_of_splits
  intro earlier event later hsplit
  have hfollows := (chronicle hrun).follows
  change Meets (Follows pairing) config.world.trace at hfollows
  rw [hsplit] at hfollows
  have hevent := hfollows.at
  cases event with
  | commit task call before after => exact ⟨hevent.1,hevent.2.2⟩
  | conflict | deleted | loaded | note => exact True.intro

/-- The stored session is the one that the record tells. -/
theorem value_eq (hrun : (initial pairing).Reaches config) :
    config.world.value=sessionAfter pairing config.world.trace := (chronicle hrun).value

/-- No turn can be resolved any more. -/
def Closed (config : instances.Config) : Prop :=
  ∀ sess,config.world.value=some sess → sess.gameState.status≠matchInProgress

/-- The stored session tells the number of turns. -/
theorem turns_eq (hrun : (initial pairing).Reaches config) {sess : PvPSession}
    (hvalue : config.world.value=some sess) :
    forfeitTurns sess.gameState=resolved pairing config := by
  have htally := (counter pairing).tally_eq (continues hrun) rfl
    ((value_eq hrun).symm.trans hvalue)
  have hzero : forfeitTurns (goSession pairing.session).gameState=0 := rfl
  change forfeitTurns sess.gameState=forfeitTurns (goSession pairing.session).gameState+
    (resolved pairing config : ℤ) at htally
  omega

/-- Once the match is closed it stays so, with the turns that it has had. -/
theorem closed_later (hrun : (initial pairing).Reaches config)
    (hrun' : (initial pairing).Reaches config')
    (hlater : config.world.trace <+: config'.world.trace) (hclosed : Closed config) :
    resolved pairing config'=resolved pairing config ∧ Closed config' := by
  obtain ⟨later,hlater⟩ := hlater
  have hcontinues := continues hrun'
  rw [← hlater] at hcontinues
  have hsettled : (counter pairing).Settled (sessionAfter pairing config.world.trace) := by
    rw [← value_eq hrun]
    exact hclosed
  obtain ⟨htally,hover,-⟩ := (counter pairing).settled hcontinues hsettled
  rw [hlater] at htally hover
  refine ⟨htally,?_⟩
  unfold Closed
  rw [value_eq hrun']
  exact hover

/-- The session that a forfeit timer has read. -/
def readBy (task : GoroutineId) (seen : Seen totals) : Option PvPSession :=
  seen.phases[task]?.bind Basis.read

/-- The move resolves a turn. -/
def resolves (pairing : Pairing) (moment : Seen.Moment totals) : Bool :=
  match moment.1.performed moment.2 with
  | some performed => executes (counter pairing).counted performed.op && performed.effective
  | none => false

/-- The move resolves a turn after a forfeit timer has read the session. -/
def Disturbs (pairing : Pairing) (task : GoroutineId) (moment : Seen.Moment totals) : Bool :=
  resolves pairing moment && (readBy task moment.1).isSome

/-- Every move counts the turn that it resolves. -/
theorem resolved_moved (hmoved : Seen.Moved seen move seen') :
    resolved pairing seen'.config=
      resolved pairing seen.config+(resolves pairing (seen,move)).toNat := by
  cases hmoved with
  | opened entry harrives =>
    unfold resolved
    change tally _ (seen.config.world.trace++[_])=_
    rw [tally_append]
    rfl
  | performed task choice basis o rest world r started htask hphase hp =>
    have htally := tally_perform (counter pairing).counted hp
    unfold resolved resolves
    rw [Seen.performed_eq htask hphase hp]
    exact htally

/-- A forfeit timer keeps the session that it has read. -/
theorem readBy_moved {task : GoroutineId} {sess : PvPSession} (hmoved : Seen.Moved seen move seen')
    (h : readBy task seen=some sess) : readBy task seen'=some sess := by
  obtain ⟨basis,hbasis,hread⟩ := Option.bind_eq_some_iff.mp h
  unfold readBy
  cases hmoved with
  | opened entry harrives =>
    have hlt := (List.getElem?_eq_some_iff.mp hbasis).1
    rw [List.getElem?_append_left hlt,hbasis]
    exact hread
  | performed other choice before o rest world r started htask hphase hp =>
    rcases Decidable.em (task=other) with rfl | hne
    · have hkept : ((before.next o r).read)=some sess := by
        have hsame : basis=before := Option.some.inj (hbasis.symm.trans hphase)
        rw [← hsame]
        exact Basis.read_next hread o r
      rw [Seen.getElem?_moved_self hphase]
      exact hkept
    · rw [Seen.getElem?_moved_other hne hbasis]
      exact hread

/-- What a forfeit timer has read it has had before, or it has just read the stored one. -/
theorem readBy_cases {task : GoroutineId} {sess : PvPSession} (hmoved : Seen.Moved seen move seen')
    (h : readBy task seen'=some sess) : readBy task seen=some sess ∨
      readBy task seen=none ∧ seen'.config.world.value=some sess := by
  obtain ⟨basis,hbasis,hread⟩ := Option.bind_eq_some_iff.mp h
  have hstart : ∀ entry,(totals.start entry).read≠some sess := by
    intro entry
    cases entry <;> exact nofun
  unfold readBy
  cases hmoved with
  | opened entry harrives =>
    obtain hold | ⟨-,hnew⟩ := @Seen.getElem?_extended _ _ (some (totals.start entry)) _ _ hbasis
    · exact .inl (Option.bind_eq_some_iff.mpr ⟨basis,hold,hread⟩)
    · cases hnew
      exact absurd hread (hstart entry)
  | performed other choice before o rest world r started htask hphase hp =>
    obtain ⟨rfl,hnext⟩ | ⟨-,hother⟩ | ⟨-,hstarted⟩ := Seen.getElem?_moved hbasis
    · rw [hphase]
      have hnext : basis=before.next o r := hnext
      subst hnext
      unfold Basis.next at hread
      split at hread
      · cases hread
      · obtain rfl := Option.some.inj hread
        exact .inr ⟨rfl,(value_of_load hp).2⟩
      · exact .inl hread
    · exact .inl (Option.bind_eq_some_iff.mpr ⟨basis,hother,hread⟩)
    · obtain ⟨entry,-,rfl⟩ := Option.map_eq_some_iff.mp hstarted
      exact absurd hread (hstart entry)

/-- What the moves of a run and the bases know of the turns. -/
structure Counting (pairing : Pairing) (history : List (Seen.Moment totals)) (seen : Seen totals) :
    Prop where
  /-- What a forfeit timer has read it keeps. -/
  keeps : ∀ moment∈history,∀ task sess,readBy task moment.1=some sess →
    readBy task seen=some sess
  /-- It lacks the turns that have been resolved since. -/
  lacks : ∀ task sess,readBy task seen=some sess →
    forfeitTurns sess.gameState+history.countP (Disturbs pairing task)=resolved pairing seen.config
  /-- A resolution that has ended the match has had all turns. -/
  wrote : ∀ (task : GoroutineId) (sess : PvPSession),
    seen.phases[task]?=some (.playing (some sess)) → sess.gameState.status≠matchInProgress →
      Closed seen.config ∧ forfeitTurns sess.gameState=resolved pairing seen.config

/-- A move keeps it. -/
theorem Counting.moved {history : List (Seen.Moment totals)} (h : Counting pairing history seen)
    (hreach : (initial pairing).Reaches seen.config)
    (hmoved : Seen.Moved seen move seen') :
    Counting pairing (history++[(seen,move)]) seen' := by
  have hstep := hmoved.config
  have hreach' : (initial pairing).Reaches seen'.config := by
    obtain ⟨earlier,hearlier⟩ := hreach
    exact ⟨_,System.Config.run_concat hearlier hstep⟩
  have hlater := RecordedTasks.trace_step hstep
  constructor
  · intro moment hmoment task sess hread
    obtain hold | hnew := List.mem_append.mp hmoment
    · exact readBy_moved hmoved (h.keeps moment hold task sess hread)
    · obtain rfl := List.mem_singleton.mp hnew
      exact readBy_moved hmoved hread
  · intro task sess hread
    rw [List.countP_append,List.countP_singleton]
    obtain hbefore | ⟨hnone,hvalue⟩ := readBy_cases hmoved hread
    · have hcount := h.lacks task sess hbefore
      have hresolved := @resolved_moved pairing _ _ _ hmoved
      have hdisturbs : Disturbs pairing task (seen,move)=resolves pairing (seen,move) := by
        simp [Disturbs,hbefore]
      rw [hdisturbs]
      cases hr : resolves pairing (seen,move) <;> rw [hr] at hresolved <;>
        simp at hresolved ⊢ <;> omega
    · have hnever : history.countP (Disturbs pairing task)=0 := by
        rw [List.countP_eq_zero]
        intro moment hmoment hdisturbs
        obtain ⟨sess',hsess⟩ := Option.isSome_iff_exists.mp (Bool.and_eq_true_iff.mp hdisturbs).2
        have hkept := h.keeps moment hmoment task sess' hsess
        rw [hnone] at hkept
        cases hkept
      have hdisturbs : Disturbs pairing task (seen,move)=false := by
        simp [Disturbs,hnone]
      have hturns := turns_eq hreach' hvalue
      rw [hnever,hdisturbs]
      simpa using hturns
  · have hkeeps : ∀ {sess : PvPSession},
        Closed seen.config ∧ forfeitTurns sess.gameState=resolved pairing seen.config →
        Closed seen'.config ∧ forfeitTurns sess.gameState=resolved pairing seen'.config := by
      rintro sess ⟨hclosed,hturns⟩
      obtain ⟨hsame,hclosed'⟩ := closed_later hreach hreach' hlater hclosed
      exact ⟨hclosed',hsame ▸ hturns⟩
    intro task sess hbasis hover
    cases hmoved with
    | opened entry harrives =>
      obtain hold | ⟨-,hnew⟩ := @Seen.getElem?_extended _ _ (some (totals.start entry)) _ _ hbasis
      · exact hkeeps (h.wrote task sess hold hover)
      · cases entry <;> cases hnew
    | performed other choice before o rest world r started htask hphase hp =>
      obtain ⟨rfl,hnext⟩ | ⟨-,hother⟩ | ⟨-,hstarted⟩ := Seen.getElem?_moved hbasis
      · have hnext : Basis.playing (some sess)=before.next o r := hnext
        unfold Basis.next at hnext
        split at hnext
        · cases hnext
          have hvalue : world.value=some sess := value_of_exec hp
          refine ⟨?_,turns_eq hreach' hvalue⟩
          intro sess' hvalue'
          change world.value=some sess' at hvalue'
          rw [hvalue] at hvalue'
          cases hvalue'
          exact hover
        · cases hnext
        · subst hnext
          exact hkeeps (h.wrote task sess hphase hover)
      · exact hkeeps (h.wrote task sess hother hover)
      · obtain ⟨entry,-,hentry⟩ := Option.map_eq_some_iff.mp hstarted
        cases entry <;> cases hentry

/-- Throughout a run they know it. -/
theorem counting (hrun : (Seen.initial totals (initial pairing)).run moves=some seen) :
    Counting pairing ((Seen.initial totals (initial pairing)).moments moves) seen ∧
      (initial pairing).Reaches seen.config ∧ seen.Conforms := by
  apply Seen.along (F := fun _ _ => True) body_follows rfl (I := Counting pairing)
    (fun hreach _ hcounting _ hmoved => hcounting.moved hreach hmoved) hrun
    (Seen.meets_of_forall fun _ _ => True.intro)
  constructor
  · exact fun _ hmoment => nomatch hmoment
  · exact fun _ _ hread => nomatch hread
  · exact fun _ _ hphase => nomatch hphase

/-- The match result that a move sends, with the goroutine and the basis of its total. -/
def report (moment : Seen.Moment totals) : Option (GoroutineId×Basis×ℤ) :=
  match moment.1.performed moment.2 with
  | some ⟨task,basis,.act (.send _ _ (.matchResult _ _ _ total)),true,_⟩ => some (task,basis,total)
  | _ => none

/-- The match results of a run. -/
def reports (pairing : Pairing) (moves : List instances.Move) :
    List (GoroutineId×Basis×ℤ) :=
  ((Seen.initial totals (initial pairing)).moments moves).filterMap report

/-- The forfeit timer has read the session, and no turn is resolved after that. -/
def Undisturbed (pairing : Pairing) (moves : List instances.Move) (task : GoroutineId) :
    Basis → Prop
  | .reading _ => ∀ moment∈(Seen.initial totals (initial pairing)).moments moves,
      Disturbs pairing task moment=false
  | _ => True

instance (moves : List instances.Move) (task : GoroutineId) (basis : Basis) :
    Decidable (Undisturbed pairing moves task basis) := by
  unfold Undisturbed
  split <;> infer_instance

/-- A match result that is sent may be sent. -/
theorem sends_of_report {moment : Seen.Moment totals} {task : GoroutineId} {basis : Basis}
    {total : ℤ} (hconforms : moment.1.Conforms) (h : report moment=some (task,basis,total)) :
    moment.1.phases[task]?=some basis ∧ basis.Sends total := by
  unfold report at h
  split at h
  · next task' basis' instance' player winner won₁ won₂ total' r hperformed =>
    cases h
    obtain ⟨hphase,rest,htask⟩ := Seen.performed_cases hperformed
    exact ⟨hphase,hconforms.allows hphase htask⟩
  · cases h

/-- The total of a match result is the number of turns of the match exactly if no turn is
resolved after a forfeit timer has read the session. -/
theorem report_iff (hrun : (Seen.initial totals (initial pairing)).run moves=some seen)
    {task : GoroutineId} {basis : Basis} {total : ℤ} (h : (task,basis,total)∈reports pairing moves) :
    total=resolved pairing seen.config ↔ Undisturbed pairing moves task basis := by
  obtain ⟨⟨seen₁,move⟩,hmoment,hreport⟩ := List.mem_filterMap.mp h
  obtain ⟨earlier,later,hsplit⟩ := List.append_of_mem hmoment
  obtain ⟨moves₁,moves₂,seen₂,-,hrun₁,-,hmove,hrun₂,-⟩ := Seen.split hrun hsplit
  obtain ⟨hcounting₁,hreach₁,hconforms₁⟩ := counting hrun₁
  obtain ⟨hcounting,hreach,-⟩ := counting hrun
  obtain ⟨hphase,hsends⟩ := sends_of_report hconforms₁ hreport
  match basis with
  | .playing wrote =>
    obtain ⟨sess,rfl,hover,htotal⟩ := hsends
    have hlater : seen₁.config.world.trace <+: seen.config.world.trace := by
      obtain ⟨config,hstep,rfl⟩ := Option.map_eq_some_iff.mp hmove
      exact (RecordedTasks.trace_step hstep).trans
        (RecordedTasks.trace_run (Seen.run_config hrun₂))
    obtain ⟨hclosed,hturns⟩ := hcounting₁.wrote task sess hphase hover
    have hsame := (closed_later hreach₁ hreach hlater hclosed).1
    exact ⟨fun _ => True.intro,fun _ => by rw [htotal,hturns,hsame]⟩
  | .reading sess =>
    have hread₁ : readBy task seen₁=some sess := by
      unfold readBy
      rw [hphase]
      rfl
    have hread := hcounting.keeps _ hmoment task sess hread₁
    have hlacks := hcounting.lacks task sess hread
    have htotal : total=forfeitTurns sess.gameState := hsends
    have hnever : Undisturbed pairing moves task (.reading sess) ↔
        ((Seen.initial totals (initial pairing)).moments moves).countP (Disturbs pairing task)=0 := by
      simp only [Undisturbed,List.countP_eq_zero,Bool.not_eq_true]
    rw [hnever]
    omega
  | .waiting => exact hsends.elim

/-- All match results of a run count the turns of the match exactly if no turn is resolved
between the reading and the result of a forfeit timer or later. -/
theorem reported_iff (hrun : (Seen.initial totals (initial pairing)).run moves=some seen) :
    (∀ report∈reports pairing moves,report.2.2=resolved pairing seen.config) ↔
      ∀ report∈reports pairing moves,Undisturbed pairing moves report.1 report.2.1 := by
  constructor
  · exact fun h report hreport => (report_iff hrun hreport).mp (h report hreport)
  · exact fun h report hreport => (report_iff hrun hreport).mpr (h report hreport)

/-- Player 1 disconnects after the first turn, and his forfeit timer runs out. -/
def forfeitAfterTurn : List instances.Move :=
  opens 1 ["charge"]::proceeds 0 10++opens 2 ["charge"]::proceeds 1 14++proceeds 0 6++
    proceeds 1 9++proceeds 0 8++proceeds 3 7

/-- Player 1 disconnects, and player 2 completes the first turn after the forfeit timer of
player 1 has read the session. -/
def turnDuringForfeit : List instances.Move :=
  opens 1 ["charge"]::proceeds 0 10++opens 2 ["charge"]::proceeds 1 14++proceeds 0 14++
    proceeds 3 2++proceeds 1 9++proceeds 3 5

/-- Exactly if a Python forfeit timer that sends a result has read no open turns, and no turn
is resolved after a Go forfeit timer that sends a result has read the session, the totals
that are sent are the numbers of turns. -/
theorem total_counts_turns (pairing : Pairing) :
    (∀ moves seen,(Seen.initial TurnTotals.totals (GameSession.initial pairing)).run moves=
        some seen →
      ((∀ report∈TurnTotals.reports pairing moves,report.2=TurnTotals.resolved seen.config) ↔
        ∀ report∈TurnTotals.reports pairing moves,report.1.AtRoundStart)) ∧
    ∀ moves seen,(Seen.initial totals (initial pairing)).run moves=some seen →
      ((∀ report∈reports pairing moves,report.2.2=resolved pairing seen.config) ↔
        ∀ report∈reports pairing moves,Undisturbed pairing moves report.1 report.2.1) :=
  ⟨fun _ _ hrun => TurnTotals.reported_iff hrun,fun _ _ hrun => reported_iff hrun⟩

/-- The totals after one round of two turns, and after one turn. -/
theorem turns_are_counted :
    (∃ seen,(Seen.initial TurnTotals.totals (GameSession.initial .small)).run
        TurnTotals.forfeitAfterRound=some seen ∧ TurnTotals.resolved seen.config=2 ∧
      (TurnTotals.reports .small TurnTotals.forfeitAfterRound).length=1 ∧
      ∀ report∈TurnTotals.reports .small TurnTotals.forfeitAfterRound,report.2=2) ∧
    ∃ seen,(Seen.initial totals (initial .small)).run forfeitAfterTurn=some seen ∧
      resolved .small seen.config=1 ∧ (reports .small forfeitAfterTurn).length=1 ∧
      ∀ report∈reports .small forfeitAfterTurn,report.2.2=1 := by
  have hround : ((Seen.initial TurnTotals.totals (GameSession.initial .small)).run
      TurnTotals.forfeitAfterRound).map (fun seen => TurnTotals.resolved seen.config)=some 2 := by
    decide
  have hstart : ∀ report∈TurnTotals.reports .small TurnTotals.forfeitAfterRound,
      report.1.AtRoundStart := by decide
  have hturn : ((Seen.initial totals (initial .small)).run forfeitAfterTurn).map
      (fun seen => resolved .small seen.config)=some 1 := by decide
  have hcalm : ∀ report∈reports .small forfeitAfterTurn,
      Undisturbed .small forfeitAfterTurn report.1 report.2.1 := by decide
  obtain ⟨seen,hrun,hresolved⟩ := Option.map_eq_some_iff.mp hround
  obtain ⟨seen',hrun',hresolved'⟩ := Option.map_eq_some_iff.mp hturn
  have hboth := total_counts_turns .small
  have htotals := (hboth.1 _ seen hrun).mpr hstart
  have htotals' := (hboth.2 _ seen' hrun').mpr hcalm
  rw [hresolved] at htotals
  rw [hresolved'] at htotals'
  exact ⟨⟨seen,hrun,hresolved,by decide,htotals⟩,⟨seen',hrun',hresolved',by decide,htotals'⟩⟩

/-- The turn before a forfeit is left out, in Python because its round is open and in Go
because the forfeit timer has read too early. -/
theorem forfeits_leave_turns_out :
    (¬∀ pairing moves seen,(Seen.initial TurnTotals.totals (GameSession.initial pairing)).run
        moves=some seen →
      ∀ report∈TurnTotals.reports pairing moves,report.2=TurnTotals.resolved seen.config) ∧
    ¬∀ pairing moves seen,(Seen.initial totals (initial pairing)).run moves=some seen →
      ∀ report∈reports pairing moves,report.2.2=resolved pairing seen.config := by
  constructor
  · intro h
    have hrun : ((Seen.initial TurnTotals.totals (GameSession.initial .small)).run
        TurnTotals.forfeitAfterTurn).map (fun seen => (TurnTotals.resolved seen.config,
          (TurnTotals.reports .small TurnTotals.forfeitAfterTurn).map Prod.snd))=some (1,[0]) := by
      decide
    obtain ⟨seen,hrun,hview⟩ := Option.map_eq_some_iff.mp hrun
    obtain ⟨hresolved,htotals⟩ := Prod.mk.inj hview
    obtain ⟨report,hreport,htotal⟩ := List.mem_map.mp (htotals ▸ List.mem_singleton_self 0)
    have hequal := h .small _ seen hrun report hreport
    rw [hresolved,htotal] at hequal
    omega
  · intro h
    have hrun : ((Seen.initial totals (initial .small)).run turnDuringForfeit).map (fun seen =>
        (resolved .small seen.config,(reports .small turnDuringForfeit).map fun report =>
          report.2.2))=some (1,[0]) := by decide
    obtain ⟨seen,hrun,hview⟩ := Option.map_eq_some_iff.mp hrun
    obtain ⟨hresolved,htotals⟩ := Prod.mk.inj hview
    obtain ⟨report,hreport,htotal⟩ := List.mem_map.mp (htotals ▸ List.mem_singleton_self 0)
    have hequal := h .small _ seen hrun report hreport
    rw [hresolved,htotal] at hequal
    omega

end Runs

end KiClash.GoTurnTotals

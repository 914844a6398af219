import KiClash.GameSession
import KiClash.TaskPhases

/-!
# Walking through the programs of the Python session

A property of programs that sequencing keeps and that the single operations have holds
of the programs of the game session, as far as it holds of the parts that say something
about the turns. These parts are left to whoever uses the rules.
-/

namespace KiClash.GamePrograms

open EngineTypes Engine ServerMessages AsyncTasks WatchedKey TaskPhases GameStore GameSession

/-- What is caught on the way. -/
theorem follows_except {P : Watcher runtime} {α β : Type} {Q : P.Phase → Except Exc α → Prop}
    {Q' : P.Phase → Except Exc β → Prop} {phase : P.Phase} {catches : Exc → Bool}
    {p : Coroutine β} {f : Option β → Coroutine α} (h : P.Follows Q' phase p)
    (hok : ∀ phase b,Q' phase (.ok b) → P.Follows Q phase (f (some b)))
    (hcaught : ∀ phase exc,Q' phase (.error exc) → P.Follows Q phase (f none))
    (herror : ∀ phase exc,Q' phase (.error exc) → Q phase (.error exc)) :
    P.Follows Q phase (except catches p >>= f) := by
  have hexcept : P.Follows (fun phase (r : Except Exc (Option β)) =>
      (∃ b,r=.ok (some b) ∧ Q' phase (.ok b)) ∨
        ∃ exc,(r=.ok none ∨ r=.error exc) ∧ Q' phase (.error exc)) phase (except catches p) := by
    have hmap : P.Follows (fun phase (r : Except Exc (Option β)) =>
        (∃ b,r=.ok (some b) ∧ Q' phase (.ok b)) ∨ ∃ exc,r=.error exc ∧ Q' phase (.error exc))
        phase (some <$> p) := by
      change P.Follows _ _ (p >>= fun b => pure (some b))
      apply h.bind
      · exact fun phase b hq => .inl ⟨b,rfl,hq⟩
      · exact fun phase exc hq => .inr ⟨exc,rfl,hq⟩
    apply hmap.andThen
    rintro phase r (⟨b,rfl,hq⟩ | ⟨exc,rfl,hq⟩)
    · exact .inl ⟨b,rfl,hq⟩
    · dsimp only
      cases hc : catches exc with
      | true => exact .inr ⟨exc,.inl rfl,hq⟩
      | false => exact .inr ⟨exc,.inr rfl,hq⟩
  apply hexcept.bind
  · rintro phase value (⟨b,he,hq⟩ | ⟨exc,he | he,hq⟩)
    · cases he
      exact hok phase b hq
    · cases he
      exact hcaught phase exc hq
    · cases he
  · rintro phase exc (⟨b,he,-⟩ | ⟨exc',he | he,hq⟩)
    · cases he
    · cases he
    · cases he
      exact herror phase exc hq

/-- The message says nothing about the turns to play or the end of the match. -/
def Casual (message : ServerMessage) : Prop :=
  message.isPrompt=false ∧ message.isMatchResult=false

/-- The operation sends a message to a player. -/
def isSend : LocalOp → Bool
  | .send _ _ _ => true
  | _ => false

/-- A property of programs that holds of programs that are put together from others, of
the local operations, of reading and of the transactions that do not end a match. -/
structure Walk (Good : ∀ α : Type,Coroutine α → Prop) : Prop where
  /-- A program that is over. -/
  done : ∀ {α : Type} (r : Except Exc α),Good α (.done r)
  /-- A program that handles the result of another one. -/
  andThen : ∀ {α β : Type} {p : Coroutine α} {f : Except Exc α → Coroutine β},Good α p →
    (∀ r,Good β (f r)) → Good β (p.andThen f)
  /-- Messages. -/
  send : ∀ {worker player message},Casual message → Good Unit (GameSession.send worker player message)
  /-- The other local operations. -/
  act : ∀ o : LocalOp,isSend o=false → Good o.Res (GameSession.act o)
  /-- Reading the session. -/
  load : Good _ GameSession.load
  /-- Removing it. -/
  delete : Good Unit (redis .delete)
  /-- A transaction. -/
  update : ∀ {L : Type} {call : L → Call} {mutator : Mutator L} (attempts : ℕ) (c : L),
    (∀ c forfeiting,call c≠.forfeit forfeiting) → Good _ (watchAndUpdate call mutator attempts c)

namespace Walk

variable {Good : ∀ α : Type,Coroutine α → Prop} (h : Walk Good) {α β : Type} {worker : Worker}

include h

/-- Sequencing. -/
theorem bind {p : Coroutine α} {f : α → Coroutine β} (hp : Good α p) (hf : ∀ a,Good β (f a)) :
    Good β (p >>= f) := by
  rw [Prog.bind_eq_andThen]
  apply h.andThen hp
  intro r
  cases r with
  | ok a => exact hf a
  | error exc => exact h.done _

/-- What is caught on the way. -/
theorem except {catches : Exc → Bool} {p : Coroutine β} (hp : Good β p) :
    Good (Option β) (GameSession.except catches p) := by
  have hmap : Good (Option β) (some <$> p) := h.bind hp fun b => h.done _
  apply h.andThen hmap
  intro r
  cases r with
  | ok b => exact h.done _
  | error exc =>
    dsimp only
    split <;> exact h.done _

section Parts

variable (hprompts : ∀ worker session,Good Unit (sendWaitingForAction worker session))

include hprompts in
theorem handleConnect (player : UUID) : Good Unit (GameSession.handleConnect worker player) := by
  apply h.bind (h.except (h.update _ _ fun _ _ => by simp))
  intro outcome
  cases outcome with
  | none => exact h.send ⟨rfl,rfl⟩
  | some result =>
    dsimp only
    split
    · apply h.bind (h.act (.cancelDisconnect _ _) rfl)
      intro _
      apply h.bind (h.send ⟨rfl,rfl⟩)
      intro _
      split
      · exact h.done _
      · split
        · exact hprompts _ _
        · exact h.done _
    · exact h.done _

include hprompts in
theorem start : Good Unit (GameSession.start worker) := by
  apply h.bind (h.except (h.update _ _ fun _ _ => by simp))
  intro outcome
  cases outcome with
  | none => exact h.done _
  | some result =>
    dsimp only
    split
    · exact h.done _
    · split
      · exact h.done _
      · exact hprompts _ _

include hprompts in
theorem promptNextTurn (roundEnded : Bool) :
    Good Unit (GameSession.promptNextTurn worker roundEnded) := by
  apply h.bind (h.act (.sleep _) rfl)
  intro _
  apply h.bind h.load
  intro value
  cases value with
  | none => exact h.done _
  | some session =>
    dsimp only
    split
    · exact hprompts _ _
    · exact h.done _

variable (hresolve : ∀ worker p1Action p2Action,Good Unit (resolveTurn worker p1Action p2Action))

include hresolve in
theorem submitAction (player : UUID) (action : Action) :
    Good Unit (GameSession.submitAction worker player action) := by
  apply h.bind (h.except (h.update _ _ fun _ _ => by simp))
  intro outcome
  cases outcome with
  | none => exact h.send ⟨rfl,rfl⟩
  | some result =>
    change Good Unit (concludeSubmit worker player action result.1)
    unfold concludeSubmit
    cases result.1.validationError with
    | some message => exact h.send ⟨rfl,rfl⟩
    | none =>
      apply h.bind (h.send ⟨rfl,rfl⟩)
      intro _
      split
      · exact hresolve _ _ _
      · exact h.done _

theorem handleDisconnect (player : UUID) :
    Good Unit (GameSession.handleDisconnect worker player) := by
  apply h.bind (h.except h.load)
  intro value
  rcases value with _ | _ | session
  · exact h.done _
  · exact h.done _
  · exact h.bind (h.send ⟨rfl,rfl⟩) fun _ => h.act (.startDisconnect _ _ _) rfl

include hresolve in
theorem receiveLoop (player : UUID) (frames : List Frame) :
    Good Unit (GameSession.receiveLoop worker player frames) := by
  induction frames with
  | nil => exact h.act (.receive none) rfl
  | cons frame frames ih =>
    apply h.bind (h.act (.receive (some frame)) rfl)
    intro _
    refine h.bind ?_ fun _ => ih
    cases frame with
    | malformed | other => exact h.done _
    | ping => exact h.act (.sendJson _) rfl
    | submitAction text =>
      dsimp only [handleFrame]
      cases Action.ofValue? text with
      | none => exact h.act (.sendJson _) rfl
      | some action => exact h.submitAction hresolve player action

theorem closeSocket (player : UUID) : Good Unit (GameSession.closeSocket worker player) := by
  apply h.bind (h.act (.unregister _ _) rfl)
  intro _
  apply h.bind h.load
  intro value
  cases value with
  | none => exact h.done _
  | some session =>
    dsimp only
    split
    · exact h.bind (h.act (.cleanup _) rfl) fun _ => h.delete
    · exact h.done _

variable (hconnect : ∀ worker player,Good Unit (GameSession.handleConnect worker player))
  (hstart : ∀ worker,Good Unit (GameSession.start worker))

include hconnect hstart hresolve in
theorem playGame (player : UUID) (frames : List Frame) :
    Good Unit (GameSession.playGame worker player frames) := by
  apply h.bind (hconnect _ player)
  intro _
  have hfull : Good Unit (startWhenFull worker) := by
    apply h.bind (h.act (.roomSize _) rfl)
    intro size
    split
    · exact hstart _
    · exact h.done _
  apply h.bind hfull
  intro _
  have hloop : Good Unit ((GameSession.receiveLoop worker player frames).handle fun e =>
      if e=.webSocketDisconnect then GameSession.handleDisconnect worker player else .raise e) := by
    apply h.andThen (h.receiveLoop hresolve player frames)
    intro r
    cases r with
    | ok u => exact h.done _
    | error exc =>
      dsimp only
      split
      · exact h.handleDisconnect player
      · exact h.done _
  apply h.andThen hloop
  intro r
  apply h.andThen (h.closeSocket player)
  intro r'
  cases r' <;> exact h.done _

include hconnect hstart hresolve in
theorem gameWs (player : UUID) (frames : List Frame) :
    Good Unit (GameSession.gameWs worker player frames) := by
  have hrefuse : ∀ message,Good Unit (refuse worker player message) := fun message =>
    h.bind (h.act (.sendJson _) rfl) fun _ => h.act (.unregister _ _) rfl
  apply h.bind (h.act (.accept) rfl)
  intro _
  apply h.bind (h.act (.safeClose _ _) rfl)
  intro _
  apply h.bind (h.act (.register _ _) rfl)
  intro _
  apply h.bind h.load
  intro value
  cases value with
  | none => exact hrefuse _
  | some session =>
    dsimp only
    split
    · exact hrefuse _
    · exact h.playGame hresolve hconnect hstart player frames

include hresolve in
theorem turnTimeout : Good Unit (GameSession.turnTimeout worker) := by
  have hdefault : ∀ needs player,Good Unit (submitDefault worker needs player) := by
    intro needs player
    cases needs with
    | false => exact h.done _
    | true => exact h.submitAction hresolve player _
  apply h.bind (h.act (.sleep _) rfl)
  intro _
  apply h.bind (h.except h.load)
  intro value
  rcases value with _ | _ | session
  · exact h.done _
  · exact h.done _
  · dsimp only
    split
    · exact h.done _
    · exact h.bind (hdefault _ _) fun _ => hdefault _ _

end Parts

end Walk

end KiClash.GamePrograms

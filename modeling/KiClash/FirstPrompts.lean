import KiClash.TurnPrompts
import Mathlib.Data.List.Perm.Subperm

/-!
# The first prompts of a Python match

When each player opens a single socket, both of them on the same worker, the match is
started as soon as both handlers are through, and each player is prompted once for the
first turn. The handler that is last to count the room finds both players in it; only
one start call finds the match not started; and what that call has still to send and
what it has sent make one prompt for each player.
-/

namespace KiClash.FirstPrompts

open EngineTypes ServerMessages AsyncTasks WatchedKey TaskPhases TransactionReads Histories
open SlottedTurns (Seat)
open GameStore GameSession PendingPairs SessionChronicle SessionTurns GamePhases
open GameTransactions GameHandshake
open TurnPrompts (openingTurn turns_step)

/-- The player is prompted for the first turn. -/
def promptsFirst (player : UUID) (performed : Performed watcher) : Bool :=
  performed.effective && match performed.op with
    | .act (.send _ other (.waitingForAction number _ round _ _)) =>
      other=player ∧ number=1 ∧ round=1
    | _ => false

/-- How often the player has been prompted for the first turn. -/
def told (player : UUID) (history : List Moment) : ℕ :=
  history.countP (performs (promptsFirst player))

/-- A start transaction takes effect. -/
def starts (performed : Performed watcher) : Bool :=
  performed.effective && match performed.op with
    | .store (.exec _ _ .start _) => true
    | _ => false

/-- The match has been started. -/
def begun (history : List Moment) : Bool := history.any (performs starts)

/-- Somebody takes part in the match. -/
def IsPlayer (pairing : Pairing) (player : UUID) : Prop :=
  ∃ seat,player=playerOf pairing seat

/-- The handler takes no part in the match any more. -/
def parted : Stage → Bool
  | .refusing | .leaving | .closing | .gone => true
  | _ => false

section Handlers

variable {pairing : Pairing} {seen seen' : Seen watcher} {move : workers.Move}

/-- How a handler has come to its stage with a move. -/
inductive Handler (seen : Seen watcher) (move : workers.Move) (seen' : Seen watcher) (task : TaskId)
    (worker : Worker) (player : UUID) (stage' : Stage) : Prop
  | arriving (h : stage'=.arriving)
  | kept (attempt : Attempt PvPSessionState)
      (hphase : seen.phases[task]?=some ⟨.socket worker player stage',attempt⟩)
  | passed (choice : Choice) (o : Op language) (rest : Except Exc o.Res → Coroutine Unit)
      (r : Except Exc o.Res) (started : Option Entry) (stage : Stage)
      (attempt : Attempt PvPSessionState) (hmove : move=.run task choice)
      (htask : seen.config.tasks[task]?=some (.op o rest))
      (hphase : seen.phases[task]?=some ⟨.socket worker player stage,attempt⟩)
      (hp : WatchedKey.perform (R := runtime) choice task seen.config.tasks.length o
        seen.config.world=some (seen'.config.world,r,started))
      (hpasses : Passes attempt player stage o r stage')

/-- Every handler has come to its stage in one of these ways. -/
theorem handler_cases (hs : Seen.Moved seen move seen') {task : TaskId} {worker : Worker}
    {player : UUID} {stage' : Stage} {attempt' : Attempt PvPSessionState}
    (hphase' : seen'.phases[task]?=some ⟨.socket worker player stage',attempt'⟩) :
    Handler seen move seen' task worker player stage' := by
  cases hs with
  | opened entry harrives =>
    obtain hold | ⟨-,hnew⟩ := @Seen.getElem?_extended _ _ (some (watcher.start entry)) _ _ hphase'
    · exact .kept attempt' hold
    · cases entry <;> cases hnew
      exact .arriving rfl
  | performed other choice phase o rest world r started htask hphase hp =>
    obtain ⟨rfl,hnext⟩ | ⟨-,hold⟩ | ⟨-,hstarted⟩ := Seen.getElem?_moved hphase'
    · obtain ⟨control,attempt⟩ := phase
      cases control with
      | turnTimer | forfeitTimer => cases hnext
      | socket worker₀ player₀ stage =>
        cases hnext
        exact .passed choice o rest r started stage attempt rfl htask hphase hp
          (passes_next attempt player stage o r)
    · exact .kept attempt' hold
    · obtain ⟨entry,-,he⟩ := Option.map_eq_some_iff.mp hstarted
      cases entry <;> cases he
      exact .arriving rfl

/-- Every handler is still there after a move. -/
theorem handler_kept (hs : Seen.Moved seen move seen') {task : TaskId} {worker : Worker}
    {player : UUID} {stage : Stage} {attempt : Attempt PvPSessionState}
    (hphase : seen.phases[task]?=some ⟨.socket worker player stage,attempt⟩) :
    ∃ stage' attempt',seen'.phases[task]?=some ⟨.socket worker player stage',attempt'⟩ ∧
      (stage'=stage ∨ ∃ o r,stage'=stage.next attempt player o r) := by
  cases hs with
  | opened entry harrives =>
    refine ⟨stage,attempt,?_,.inl rfl⟩
    exact (List.getElem?_append_left (List.getElem?_eq_some_iff.mp hphase).1).trans hphase
  | performed other choice phase o rest world r started htask hphase₀ hp =>
    by_cases he : task=other
    · subst he
      cases hphase₀.symm.trans hphase
      exact ⟨_,_,Seen.getElem?_moved_self hphase₀,.inr ⟨o,r,rfl⟩⟩
    · exact ⟨stage,attempt,Seen.getElem?_moved_other he hphase,.inl rfl⟩

/-- Who is out of the match stays so. -/
theorem parted_next {attempt : Attempt PvPSessionState} {player : UUID} {stage : Stage}
    {o : Op language} {r : Except Exc o.Res} (h : parted stage=true) :
    parted (stage.next attempt player o r)=true := by
  have hpasses := passes_next attempt player stage o r
  generalize stage.next attempt player o r=stage' at hpasses
  cases hpasses with
  | same => exact h
  | dismissed _ _ _ hover => obtain rfl | rfl := hover <;> rfl
  | left _ _ _ _ hleft => obtain rfl | rfl := hleft <;> rfl
  | closing => rfl
  | full _ hcounts | alone _ hcounts => obtain rfl | rfl := hcounts <;> cases h
  | accepted | entering | connecting | missing | connected | returning | reconnecting | unknown
  | late | started | restarting | prompted | armed | played => cases h

/-- The players open one socket each, both of them to this worker. -/
def Together (pairing : Pairing) (worker : Worker) (seen : Seen watcher) : Prop :=
  ∀ (task : TaskId) (worker' : Worker) (player : UUID) (stage : Stage)
    (attempt : Attempt PvPSessionState),
    seen.phases[task]?=some ⟨.socket worker' player stage,attempt⟩ → IsPlayer pairing player →
    worker'=worker ∧ ∀ (task' : TaskId) (worker'' : Worker) (stage' : Stage)
      (attempt' : Attempt PvPSessionState),
      seen.phases[task']?=some ⟨.socket worker'' player stage',attempt'⟩ → task'=task

/-- No handler of a player has failed, and nobody has left. -/
def Unbroken (pairing : Pairing) (seen : Seen watcher) : Prop :=
  ∀ (task : TaskId) (worker : Worker) (player : UUID) (stage : Stage)
    (attempt : Attempt PvPSessionState),
    seen.phases[task]?=some ⟨.socket worker player stage,attempt⟩ → IsPlayer pairing player →
    parted stage=false

/-- Both of this. -/
structure Tidy (pairing : Pairing) (worker : Worker) (seen : Seen watcher) : Prop where
  /-- Where the players are. -/
  together : Together pairing worker seen
  /-- They stay there. -/
  unbroken : Unbroken pairing seen

/-- What is known of a socket of a player. -/
theorem Tidy.socket {worker worker' : Worker} (h : Tidy pairing worker seen) {task : TaskId}
    {player : UUID} {stage : Stage} {attempt : Attempt PvPSessionState}
    (hphase : seen.phases[task]?=some ⟨.socket worker' player stage,attempt⟩)
    (hplayer : IsPlayer pairing player) : worker'=worker ∧ parted stage=false ∧
      ∀ {task' : TaskId} {worker'' : Worker} {stage' : Stage} {attempt' : Attempt PvPSessionState},
        seen.phases[task']?=some ⟨.socket worker'' player stage',attempt'⟩ → task'=task := by
  obtain ⟨hworker,hunique⟩ := h.together task worker' player stage attempt hphase hplayer
  exact ⟨hworker,h.unbroken task worker' player stage attempt hphase hplayer,
    fun hphase' => hunique _ _ _ _ hphase'⟩

/-- It has been so before. -/
theorem Tidy.before {worker : Worker} (h : Tidy pairing worker seen')
    (hs : Seen.Moved seen move seen') : Tidy pairing worker seen := by
  constructor
  · intro task worker' player stage attempt hphase hplayer
    obtain ⟨stage₁,attempt₁,hphase₁,-⟩ := handler_kept hs hphase
    obtain ⟨hworker,-,hunique⟩ := h.socket hphase₁ hplayer
    refine ⟨hworker,fun task' worker'' stage' attempt' hphase' => ?_⟩
    obtain ⟨stage₂,attempt₂,hphase₂,-⟩ := handler_kept hs hphase'
    exact hunique hphase₂
  · intro task worker' player stage attempt hphase hplayer
    obtain ⟨stage₁,attempt₁,hphase₁,hstage₁⟩ := handler_kept hs hphase
    obtain ⟨-,hstays,-⟩ := h.socket hphase₁ hplayer
    obtain rfl | ⟨o,r,rfl⟩ := hstage₁
    · exact hstays
    · apply Bool.eq_false_iff.mpr
      intro hparted
      rw [parted_next hparted] at hstays
      cases hstays

end Handlers

section Anyone

variable {pairing : Pairing} {history : List Moment} {seen seen' : Seen watcher}
  {move : workers.Move} {player : UUID}

/-- The handler has not connected. -/
def early : Stage → Bool
  | .arriving | .accepted | .entering | .connecting _ => true
  | _ => false

/-- What a handler can be doing for somebody who is no player. -/
def outside : Stage → Bool
  | .arriving | .accepted | .entering | .refusing | .gone => true
  | _ => false

/-- What is known of a run whoever takes part in it: a handler that is admitted belongs
to a player, a player has joined only through a handler of his, no turn comes before the
first one, and who has resolved a turn prompts for later ones. -/
structure Anyone (pairing : Pairing) (history : List Moment) (seen : Seen watcher) : Prop where
  /-- Who is admitted. -/
  members : ∀ (task : TaskId) (worker : Worker) (player : UUID) (stage : Stage)
    (attempt : Attempt PvPSessionState),
    seen.phases[task]?=some ⟨.socket worker player stage,attempt⟩ → outside stage=false →
    IsPlayer pairing player
  /-- Who has joined. -/
  handled : ∀ player,joined player history=true →
    ∃ (task : TaskId) (worker : Worker) (stage : Stage) (attempt : Attempt PvPSessionState),
      seen.phases[task]?=some ⟨.socket worker player stage,attempt⟩ ∧ early stage=false
  /-- Which turns are played. -/
  turns : ∀ session,seen.config.world.value=some session →
    ∀ turn,currentTurn session=some turn → openingTurn ≤ turn
  /-- Which turns are prompted after a resolution. -/
  later : ∀ (task : TaskId) (phase : Phase) (turn upcoming : Option TurnKey),
    seen.phases[task]?=some phase → phase.control.doing=some (.resolved turn upcoming) →
    IsPast openingTurn seen.config ∧ ∀ turn'∈upcoming,openingTurn<turn'

/-- A handler that has connected does not do so again. -/
theorem early_next {attempt : Attempt PvPSessionState} {stage : Stage} {o : Op language}
    {r : Except Exc o.Res} (h : early stage=false) :
    early (stage.next attempt player o r)=false := by
  have hpasses := passes_next attempt player stage o r
  generalize stage.next attempt player o r=stage' at hpasses
  cases hpasses with
  | same => exact h
  | dismissed _ _ _ hover => obtain rfl | rfl := hover <;> rfl
  | left _ _ _ _ hleft => obtain rfl | rfl := hleft <;> rfl
  | started found _ _ _ _ _ hstage =>
    rw [hstage]
    unfold announces
    split <;> rfl
  | accepted | entering | connecting | reconnecting => cases h
  | missing | connected | returning | full | alone | unknown | late | restarting | prompted
  | armed | played | closing => rfl

/-- Only players are admitted. -/
theorem Anyone.members_step (hregular : Regular pairing seen) (h : Anyone pairing history seen)
    (hs : Seen.Moved seen move seen') {task' : TaskId} {worker : Worker} {stage' : Stage}
    {attempt' : Attempt PvPSessionState}
    (hphase' : seen'.phases[task']?=some ⟨.socket worker player stage',attempt'⟩)
    (hinside : outside stage'=false) : IsPlayer pairing player := by
  cases hs with
  | opened entry harrives =>
    obtain hold | ⟨-,hnew⟩ := @Seen.getElem?_extended _ _ (some (watcher.start entry)) _ _ hphase'
    · exact h.members task' worker player stage' attempt' hold hinside
    · cases entry <;> cases hnew
      cases hinside
  | performed task choice phase o rest world r started htask hphase hp =>
    obtain ⟨rfl,hnext⟩ | ⟨-,hold⟩ | ⟨-,hstarted⟩ := Seen.getElem?_moved hphase'
    · obtain ⟨control,attempt⟩ := phase
      cases control with
      | turnTimer | forfeitTimer => cases hnext
      | socket worker₀ player₀ stage =>
        injection hnext with hcontrol
        injection hcontrol with _ hplayer hstage
        subst hplayer
        have hmember : outside stage=false → IsPlayer pairing player :=
          h.members task' worker₀ player stage attempt hphase
        have hpasses := passes_next attempt player stage o r
        rw [← hstage] at hpasses
        cases hpasses with
        | same => exact hmember hinside
        | dismissed _ _ _ hover => obtain rfl | rfl := hover <;> cases hinside
        | connecting session hplayer =>
          have hbelongs := hregular.belongs (perform_load hp).symm
          rw [PvPSessionState.isPlayer,hbelongs.1,hbelongs.2,Bool.or_eq_true] at hplayer
          obtain hfirst | hsecond := hplayer
          · exact ⟨.first,of_decide_eq_true hfirst⟩
          · exact ⟨.second,of_decide_eq_true hsecond⟩
        | accepted | entering => cases hinside
        | full _ hcounts | alone _ hcounts =>
          obtain rfl | rfl := hcounts <;> exact hmember rfl
        | missing | connected | returning | reconnecting | unknown | late | started | restarting
        | prompted | armed | played | left | closing => exact hmember rfl
    · exact h.members task' worker player stage' attempt' hold hinside
    · obtain ⟨entry,hentry,he⟩ := Option.map_eq_some_iff.mp hstarted
      cases entry <;> cases he
      cases hinside

/-- A handler that has connected is still there. -/
theorem handled_kept (hs : Seen.Moved seen move seen') {task : TaskId} {worker : Worker}
    {stage : Stage} {attempt : Attempt PvPSessionState}
    (hphase : seen.phases[task]?=some ⟨.socket worker player stage,attempt⟩)
    (hstage : early stage=false) : ∃ (task : TaskId) (worker : Worker) (stage : Stage)
      (attempt : Attempt PvPSessionState),
      seen'.phases[task]?=some ⟨.socket worker player stage,attempt⟩ ∧ early stage=false := by
  cases hs with
  | opened entry harrives =>
    refine ⟨task,worker,stage,attempt,?_,hstage⟩
    exact (List.getElem?_append_left (List.getElem?_eq_some_iff.mp hphase).1).trans hphase
  | performed other choice phase o rest world r started htask hphase₀ hp =>
    by_cases he : task=other
    · subst he
      cases hphase₀.symm.trans hphase
      exact ⟨task,worker,_,_,Seen.getElem?_moved_self hphase₀,early_next hstage⟩
    · exact ⟨task,worker,stage,attempt,Seen.getElem?_moved_other he hphase,hstage⟩

/-- Who joins does so through a handler of his. -/
theorem Anyone.handled_step (hregular : Regular pairing seen) (h : Anyone pairing history seen)
    (hs : Seen.Moved seen move seen') (hjoined : joined player (history++[(seen,move)])=true) :
    ∃ (task : TaskId) (worker : Worker) (stage : Stage) (attempt : Attempt PvPSessionState),
      seen'.phases[task]?=some ⟨.socket worker player stage,attempt⟩ ∧ early stage=false := by
  rw [joined_append,Bool.or_eq_true] at hjoined
  obtain hold | hnew := hjoined
  · obtain ⟨task,worker,stage,attempt,hphase,hstage⟩ := h.handled player hold
    exact handled_kept hs hphase hstage
  · cases hs with
    | opened entry harrives => cases hnew
    | performed task choice phase o rest world r started htask hphase hp =>
      rw [performs_run htask hphase hp,connects,Bool.and_eq_true] at hnew
      obtain ⟨htook,hop⟩ := hnew
      have hallows := (hregular.conforms.allows hphase htask).1
      split at hop
      · next token retriesLeft other session heq =>
        dsimp only at heq htook
        subst heq
        cases of_decide_eq_true hop
        have hruns : phase.control.Runs (.connect player) := hallows
        obtain ⟨control,attempt⟩ := phase
        cases control with
        | turnTimer worker stage => cases stage <;> cases (show False from hruns)
        | forfeitTimer worker p q stage => cases stage <;> cases (show False from hruns)
        | socket worker own stage =>
          cases stage with
          | connecting found =>
            cases (show player=own from hruns)
            refine ⟨task,worker,_,_,Seen.getElem?_moved_self hphase,?_⟩
            rcases r with exc | committed
            · rfl
            · obtain ⟨exc,he⟩ | ⟨res,he,heffective⟩ :=
                Outcome.store ⟨choice,task,_,_,_,_,hp,rfl⟩
              · cases he
              · cases he
                have hcommitted : committed=true := heffective.symm.trans htook
                subst hcommitted
                change early (if found || reads attempt _ then .returning else .counting)=false
                split <;> rfl
          | arriving | accepted | entering | returning | counting | starting | prompting | playing
          | refusing | leaving | closing | gone => cases (show False from hruns)
      · cases hop

/-- A resolution leads to later turns than the first one. -/
theorem Anyone.resolves (hregular : Regular pairing seen) (h : Anyone pairing history seen)
    {task : TaskId} {choice : Choice} {phase : Phase} {token retriesLeft : ℕ}
    {p1Action p2Action : Action} {session : PvPSessionState}
    {rest : Except Exc Bool → Coroutine Unit} {world : World} {started : Option Entry}
    (htask : seen.config.tasks[task]?=
      some (.op (.store (.exec token retriesLeft (.resolve p1Action p2Action) session)) rest))
    (hphase : seen.phases[task]?=some phase)
    (hp : WatchedKey.perform (R := runtime) choice task seen.config.tasks.length
      (.store (.exec token retriesLeft (.resolve p1Action p2Action) session)) seen.config.world=
        some (world,.ok true,started)) {tasks : List (Coroutine Unit)} :
    IsPast openingTurn ⟨world,tasks⟩ ∧ ∀ turn∈currentTurn session,openingTurn<turn := by
  obtain ⟨-,before,hbefore,hafter,-,-,hmakes⟩ := hregular.committed htask hphase hp
  have hlater : ∀ turn∈currentTurn session,openingTurn<turn := by
    intro turn hturn
    obtain ⟨turn₀,hturn₀,hlt⟩ := turn_of_makes hmakes (fun _ => hregular.numbered hbefore) hturn
    exact lt_of_le_of_lt (h.turns before hbefore turn₀ hturn₀) hlt
  refine ⟨?_,hlater⟩
  intro session' hsession' turn hturn
  cases hafter.symm.trans hsession'
  exact hlater turn hturn

/-- Who has resolved a turn prompts for later turns than the first one. -/
theorem Anyone.later_step (hregular : Regular pairing seen) (h : Anyone pairing history seen)
    (hs : Seen.Moved seen move seen') {task' : TaskId} {phase' : Phase}
    {turn upcoming : Option TurnKey} (hphase' : seen'.phases[task']?=some phase')
    (hdoing : phase'.control.doing=some (.resolved turn upcoming)) :
    IsPast openingTurn seen'.config ∧ ∀ turn'∈upcoming,openingTurn<turn' := by
  have hkept : ∀ {task : TaskId} {phase : Phase} {turn upcoming : Option TurnKey},
      seen.phases[task]?=some phase → phase.control.doing=some (.resolved turn upcoming) →
      IsPast openingTurn seen'.config ∧ ∀ turn'∈upcoming,openingTurn<turn' := by
    intro task phase turn upcoming hold hdoing
    obtain ⟨hpast,hlater⟩ := h.later task phase turn upcoming hold hdoing
    exact ⟨hpast.step hregular hs,hlater⟩
  cases hs with
  | opened entry harrives =>
    obtain hold | ⟨-,hnew⟩ := @Seen.getElem?_extended _ _ (some (watcher.start entry)) _ _ hphase'
    · exact hkept hold hdoing
    · cases hnew
      cases entry <;> cases hdoing
  | performed task choice phase o rest world r started htask hphase hp =>
    obtain ⟨rfl,rfl⟩ | ⟨-,hold⟩ | ⟨-,hstarted⟩ := Seen.getElem?_moved hphase'
    · obtain hidle | ⟨before,now,hbefore,hnow,hturns⟩ := doing_before hdoing
      · cases hidle
      · cases hturns with
        | same => exact hkept hphase (hbefore.trans (congrArg some hnow))
        | loaded value doing =>
          cases doing with
          | resolved turn' upcoming' =>
            cases hnow
            obtain ⟨hpast,-⟩ := h.later task' phase turn upcoming' hphase hbefore
            refine ⟨(hkept hphase hbefore).1,fun turn₁ hturn₁ => ?_⟩
            obtain ⟨session,hsession,hcurrent⟩ := Option.bind_eq_some_iff.mp hturn₁
            exact hpast session ((perform_load hp).symm.trans hsession) turn₁ hcurrent
          | idle | submitted => cases hnow
        | resolved token retriesLeft p1Action p2Action session =>
          cases hnow
          exact h.resolves hregular htask hphase hp
        | told | aborted | submitted => cases hnow
    · exact hkept hold hdoing
    · obtain ⟨entry,-,rfl⟩ := Option.map_eq_some_iff.mp hstarted
      cases entry <;> cases hdoing

/-- The moves keep what is known of any run. -/
theorem Anyone.step (hregular : Regular pairing seen) (h : Anyone pairing history seen)
    (hs : Seen.Moved seen move seen') : Anyone pairing (history++[(seen,move)]) seen' where
  members _ _ _ _ _ hphase hinside := h.members_step hregular hs hphase hinside
  handled _ hjoined := h.handled_step hregular hs hjoined
  turns := turns_step h.turns hregular hs
  later _ _ _ _ hphase hdoing := h.later_step hregular hs hphase hdoing

/-- At the start nobody is there, and the first turn is open. -/
theorem anyone_initial : Anyone pairing [] (Seen.initial watcher (initial pairing)) where
  members _ _ _ _ _ hphase := nomatch hphase
  handled _ hjoined := nomatch hjoined
  turns := by
    intro session hsession turn hturn
    cases hsession
    cases hturn
    exact le_refl openingTurn
  later _ _ _ _ hphase := nomatch hphase

end Anyone

section Rooms

variable {choice : Choice} {task fresh : TaskId} {world world' : World} {started : Option Entry}
  {worker : Worker} {player : UUID}

/-- Whatever happens to an operation, the memory is as before or as the operation leaves
it, except for a cancellation that has been delivered. -/
theorem rooms_of_perform {o : Op language} {r : Except Exc o.Res}
    (hp : WatchedKey.perform (R := runtime) choice task fresh o world=some (world',r,started)) :
    world'.memory.rooms=world.memory.rooms ∨ ∃ o' : LocalOp,o=.act o' ∧
      world'.memory.rooms=(o'.effect task fresh world.memory).1.rooms := by
  have hdeliver : ∀ (exc : Exc) (world₀ : World),
      (world₀.deliver task exc).memory.rooms=world₀.memory.rooms := by
    intro exc world₀
    change (world₀.memory.deliver task exc).rooms=world₀.memory.rooms
    unfold Memory.deliver
    split <;> rfl
  obtain ⟨pick,-,he⟩ | ⟨exc,-,-,-,rfl | ⟨pick,-,rfl⟩⟩ := perform_cases hp
  · cases o with
    | store o =>
      cases he
      exact .inl (congrArg Memory.rooms (StoreOp.effect_memory task o world))
    | act o =>
      cases he
      exact .inr ⟨o,rfl,rfl⟩
  · exact .inl (hdeliver exc world)
  · rw [hdeliver]
    cases o with
    | store o => exact .inl (congrArg Memory.rooms (StoreOp.effect_memory task o world))
    | act o => exact .inr ⟨o,rfl,rfl⟩

/-- Nobody leaves a room unless he is unregistered. -/
theorem rooms_kept {o : Op language} {r : Except Exc o.Res}
    (hp : WatchedKey.perform (R := runtime) choice task fresh o world=some (world',r,started))
    (h : (worker,player)∈world.memory.rooms) :
    (worker,player)∈world'.memory.rooms ∨ o=.act (.unregister worker player) := by
  obtain hsame | ⟨o,rfl,hrooms⟩ := rooms_of_perform hp
  · rw [hsame]
    exact .inl h
  · rw [hrooms]
    cases o with
    | register worker' player' =>
      left
      simp only [LocalOp.effect,Memory.register]
      split
      · exact h
      · exact List.mem_cons_of_mem _ h
    | unregister worker' player' =>
      by_cases he : worker=worker' ∧ player=player'
      · obtain ⟨rfl,rfl⟩ := he
        exact .inr rfl
      · exact .inl (List.mem_filter.mpr ⟨h,by grind⟩)
    | receive frame => cases frame <;> exact .inl h
    | cancelTimeout worker' =>
      left
      simp only [LocalOp.effect,Memory.cancelTimeout]
      split <;> exact h
    | restartTimeout worker' =>
      left
      simp only [LocalOp.effect,Memory.setTimeout,Memory.cancelTimeout]
      split <;> exact h
    | cleanup worker' =>
      left
      simp only [LocalOp.effect,Memory.cancelDisconnect,Memory.cancelTimeout]
      split <;> exact h
    | send | sendJson | accept | safeClose | sleep | isConnected | roomSize | cancelDisconnect
    | startDisconnect => exact .inl h

/-- Who has been registered is in the room. -/
theorem rooms_registered {r : Except Exc Unit}
    (hp : WatchedKey.perform (R := runtime) choice task fresh (.act (.register worker player)) world=
      some (world',r,started)) : (worker,player)∈world'.memory.rooms := by
  obtain ⟨pick,-,he⟩ | ⟨exc,hinterrupt,-⟩ := perform_cases hp
  · cases he
    change (worker,player)∈(world.memory.register worker player task).rooms
    simp only [Memory.register]
    split
    · next h => exact h
    · exact List.mem_cons_self
  · cases hinterrupt

/-- A room of which two players are known to be in it is full. -/
theorem full_of_rooms {other : UUID} {size : ℕ} (hne : player≠other)
    (h : (worker,player)∈world.memory.rooms) (h' : (worker,other)∈world.memory.rooms)
    (hp : WatchedKey.perform (R := runtime) choice task fresh (.act (.roomSize worker)) world=
      some (world',.ok size,started)) : size ≥ 2 := by
  obtain ⟨pick,-,he⟩ | ⟨exc,hinterrupt,-⟩ := perform_cases hp
  · have hsize : world.memory.rooms.countP (fun entry => entry.1=worker)=size := by
      have hr := congrArg (fun x => x.2.1) he
      exact Except.ok.inj hr
    rw [← hsize,List.countP_eq_length_filter]
    have hsub : [(worker,player),(worker,other)]⊆
        world.memory.rooms.filter fun entry => decide (entry.1=worker) := by
      simp [h,h']
    have hnodup : [(worker,player),(worker,other)].Nodup := by simpa using hne
    exact (List.subperm_of_subset hnodup hsub).length_le
  · cases hinterrupt

end Rooms

section Orderly

variable {pairing : Pairing} {worker : Worker} {history : List Moment} {seen seen' : Seen watcher}
  {move : workers.Move}

/-- The handler has counted the room. -/
def hasCounted : Stage → Bool
  | .starting _ | .prompting _ _ | .playing _ _ => true
  | _ => false

/-- The handler has been registered. -/
def registered : Stage → Bool
  | .arriving | .accepted => false
  | _ => true

/-- The player of the seat has a handler in such a stage. -/
def Has (pairing : Pairing) (seen : Seen watcher) (seat : Seat) (test : Stage → Bool) : Prop :=
  ∃ (task : TaskId) (worker : Worker) (stage : Stage) (attempt : Attempt PvPSessionState),
    seen.phases[task]?=some ⟨.socket worker (playerOf pairing seat) stage,attempt⟩ ∧ test stage=true

/-- The handler plays. -/
def isPlaying : Stage → Bool
  | .playing _ _ => true
  | _ => false

/-- The handler is about to start the match. -/
def isStarting : Stage → Bool
  | .starting _ => true
  | _ => false

/-- What a session tells about the run. -/
structure Plausible (pairing : Pairing) (history : List Moment) (seen : Seen watcher)
    (session : PvPSessionState) : Prop where
  /-- It belongs to the two players. -/
  belongs : BelongsTo pairing session
  /-- It is started when the match has been. -/
  started : session.started=true → begun history=true
  /-- Who is connected. -/
  connected : ∀ player,session.hasConnected player=true → joined player history=true
  /-- Whose action is pending. -/
  pending : ∀ seat,(SessionTurns.pending session seat).isSome=true →
    begun history=true ∨ Has pairing seen seat isPlaying

/-- The prompts that a task has still to send to the player. -/
def debt (player : UUID) (phase : Phase) : ℕ :=
  match phase.control with
  | .socket _ _ (.prompting _ untold) => untold.count player
  | _ => 0

/-- What all tasks have still to send to the player. -/
def debts (player : UUID) (seen : Seen watcher) : ℕ := (seen.phases.map (debt player)).sum

/-- What is known of a run in which every player has at most one socket, on one worker,
and nobody has left. -/
structure Orderly (pairing : Pairing) (worker : Worker) (history : List Moment)
    (seen : Seen watcher) : Prop where
  /-- The stored session. -/
  stored : ∃ session,seen.config.world.value=some session ∧
    (begun history=true → session.started=true) ∧
    (begun history=false → currentTurn session=some openingTurn)
  /-- The sessions that are stored and read. -/
  sessions : Everywhere (P := watcher) Phase.attempt (Plausible pairing history seen) seen
  /-- Nobody comes back. -/
  alone : ∀ (task : TaskId) (worker' : Worker) (player : UUID) (stage : Stage)
    (attempt : Attempt PvPSessionState),
    seen.phases[task]?=some ⟨.socket worker' player stage,attempt⟩ → IsPlayer pairing player →
    stage≠.connecting true ∧ stage≠.returning
  /-- Who has found the match started. -/
  found : ∀ (task : TaskId) (worker' : Worker) (player : UUID)
    (attempt : Attempt PvPSessionState),
    seen.phases[task]?=some ⟨.socket worker' player (.starting true),attempt⟩ →
    begun history=true
  /-- Who is in the room. -/
  room : ∀ (task : TaskId) (worker' : Worker) (player : UUID) (stage : Stage)
    (attempt : Attempt PvPSessionState),
    seen.phases[task]?=some ⟨.socket worker' player stage,attempt⟩ → IsPlayer pairing player →
    registered stage=true → (worker,player)∈seen.config.world.memory.rooms
  /-- When both handlers have counted the room. -/
  met : (∀ seat,Has pairing seen seat hasCounted) →
    begun history=true ∨ ∃ seat,Has pairing seen seat isStarting
  /-- Who has to do with the turns. -/
  quiet : ∀ (task : TaskId) (phase : Phase),seen.phases[task]?=some phase →
    engaged phase.control=true → begun history=true
  /-- What start prompts for. -/
  turn : ∀ (task : TaskId) (worker' : Worker) (player : UUID) (turn : TurnKey)
    (untold : List UUID) (attempt : Attempt PvPSessionState),
    seen.phases[task]?=some ⟨.socket worker' player (.prompting turn untold),attempt⟩ →
    turn=openingTurn
  /-- The prompts that have been sent and those that have still to be sent. -/
  counts : ∀ seat,told (playerOf pairing seat) history+debts (playerOf pairing seat) seen=
    if begun history then 1 else 0

/-- What a further moment changes. -/
theorem begun_append {moment : Moment} :
    begun (history++[moment])=(begun history || performs starts moment) := by
  simp [begun]

theorem begun_later (h : begun history=true) (moment : Moment) :
    begun (history++[moment])=true := by
  rw [begun_append,h,Bool.true_or]

/-- A start transaction that commits starts the match. -/
theorem begun_committed {task : TaskId} {choice : Choice} {phase : Phase} {token retriesLeft : ℕ}
    {session : PvPSessionState} {rest : Except Exc Bool → Coroutine Unit} {world : World}
    {r : Except Exc Bool} {started : Option Entry}
    (htask : seen.config.tasks[task]?=some (.op (.store (.exec token retriesLeft Call.start session)) rest))
    (hphase : seen.phases[task]?=some phase)
    (hp : WatchedKey.perform (R := runtime) choice task seen.config.tasks.length
      (.store (.exec token retriesLeft Call.start session)) seen.config.world=some (world,r,started))
    (htook : took choice (.store (.exec token retriesLeft Call.start session)) seen.config.world=true) :
    begun (history++[(seen,.run task choice)])=true := by
  rw [begun_append,performs_run htask hphase hp,htook]
  simp [starts]

/-- A handler of a seat that has stayed where it was or gone on. -/
theorem Has.step {seat : Seat} {test : Stage → Bool} (h : Has pairing seen seat test)
    (hs : Seen.Moved seen move seen')
    (htest : ∀ {stage attempt o r},test stage=true → parted (stage.next attempt (playerOf pairing seat) o r)=false →
      test (stage.next attempt (playerOf pairing seat) o r)=true)
    (htidy : Tidy pairing worker seen') : Has pairing seen' seat test := by
  obtain ⟨task,worker',stage,attempt,hphase,hstage⟩ := h
  obtain ⟨stage',attempt',hphase',rfl | ⟨o,r,rfl⟩⟩ := handler_kept hs hphase
  · exact ⟨task,worker',stage',attempt',hphase',hstage⟩
  · exact ⟨task,worker',_,attempt',hphase',
      htest hstage (htidy.socket hphase' ⟨seat,rfl⟩).2.1⟩

/-- Who plays goes on to play, unless he leaves. -/
theorem isPlaying_next {attempt : Attempt PvPSessionState} {player : UUID} {stage : Stage}
    {o : Op language} {r : Except Exc o.Res} (h : isPlaying stage=true)
    (hover : parted (stage.next attempt player o r)=false) :
    isPlaying (stage.next attempt player o r)=true := by
  have hpasses := passes_next attempt player stage o r
  generalize stage.next attempt player o r=stage' at hpasses hover
  cases hpasses with
  | same => exact h
  | played => rfl
  | dismissed _ _ _ hdismissed => obtain rfl | rfl := hdismissed <;> cases hover
  | left _ _ _ _ hleft => obtain rfl | rfl := hleft <;> cases hover
  | full _ hcounts | alone _ hcounts => obtain rfl | rfl := hcounts <;> cases h
  | accepted | entering | connecting | missing | connected | returning | reconnecting | unknown
  | late | started | restarting | prompted | armed | closing => cases h

/-- Who plays has counted the room. -/
theorem counted_of_isPlaying {stage : Stage} (h : isPlaying stage=true) :
    hasCounted stage=true := by
  cases stage with
  | playing => rfl
  | arriving | accepted | entering | refusing | connecting | returning | counting | starting
  | prompting | leaving | closing | gone => cases h

/-- When both handlers play, the match has been started. -/
theorem Orderly.begun_of_playing (h : Orderly pairing worker history seen)
    (htidy : Tidy pairing worker seen) (hboth : ∀ seat,Has pairing seen seat isPlaying) :
    begun history=true := by
  have hcounted : ∀ seat,Has pairing seen seat hasCounted := by
    intro seat
    obtain ⟨task,worker',stage,attempt,hphase,hstage⟩ := hboth seat
    exact ⟨task,worker',stage,attempt,hphase,counted_of_isPlaying hstage⟩
  obtain hbegun | ⟨seat,task,worker',stage,attempt,hphase,hstage⟩ := h.met hcounted
  · exact hbegun
  · obtain ⟨task',worker'',stage',attempt',hphase',hstage'⟩ := hboth seat
    obtain ⟨-,-,hunique⟩ := htidy.socket hphase ⟨seat,rfl⟩
    cases hunique hphase'
    cases hphase.symm.trans hphase'
    cases stage with
    | playing => cases hstage
    | arriving | accepted | entering | refusing | connecting | returning | counting | starting
    | prompting | leaving | closing | gone => cases hstage'

/-- Who submits an action for a player plays for him, or the match has been started. -/
theorem Orderly.submitter (h : Orderly pairing worker history seen) {task : TaskId} {phase : Phase}
    (hphase : seen.phases[task]?=some phase) {seat : Seat} {action : EngineTypes.Action}
    {stale : SubmitCaptured}
    (hruns : phase.control.Runs (.submit (playerOf pairing seat) action stale)) :
    begun history=true ∨ Has pairing seen seat isPlaying := by
  obtain ⟨control,attempt⟩ := phase
  cases control with
  | forfeitTimer worker' disconnected opponent stage =>
    cases stage <;> cases (show False from hruns)
  | turnTimer worker' stage => exact .inl (h.quiet task _ hphase rfl)
  | socket worker' own stage =>
    cases stage with
    | playing doing paired =>
      obtain rfl : playerOf pairing seat=own := hruns
      exact .inr ⟨task,worker',_,attempt,hphase,rfl⟩
    | arriving | accepted | entering | refusing | connecting | returning | counting | starting
    | prompting | leaving | closing | gone => cases (show False from hruns)

/-- Who finds a complete pair finds it after the start. -/
theorem Orderly.completes (h : Orderly pairing worker history seen)
    (htidy : Tidy pairing worker seen) {task : TaskId} {phase : Phase}
    (hphase : seen.phases[task]?=some phase) {player : UUID} {action : EngineTypes.Action}
    {stale : SubmitCaptured} (hruns : phase.control.Runs (.submit player action stale))
    (hcompletes : completes phase.attempt player action=true) : begun history=true := by
  obtain ⟨session,hfound,hpair⟩ := (Option.any_eq_true _ _).mp hcompletes
  have hplausible := h.sessions.2 task phase hphase session hfound
  have hseat : ∀ seat,begun history=true ∨ Has pairing seen seat isPlaying := by
    intro seat
    obtain hpending | hplayer := pending_of_completes hpair seat
    · exact hplausible.pending seat hpending
    · rw [idOf_eq hplausible.belongs] at hplayer
      rw [hplayer] at hruns
      exact h.submitter hphase hruns
  by_contra hbegun
  exact hbegun (h.begun_of_playing htidy fun seat => (hseat seat).resolve_left hbegun)

/-- What a session tells about the run it tells later. -/
theorem Plausible.later {session : PvPSessionState} (h : Plausible pairing history seen session)
    (hs : Seen.Moved seen move seen') (htidy : Tidy pairing worker seen') :
    Plausible pairing (history++[(seen,move)]) seen' session where
  belongs := h.belongs
  started hstarted := begun_later (h.started hstarted) _
  connected player hconnected := joined_later (h.connected player hconnected) _
  pending seat hpending := by
    obtain hbegun | hplays := h.pending seat hpending
    · exact .inl (begun_later hbegun _)
    · exact .inr (hplays.step hs isPlaying_next htidy)

/-- The stored session tells about the run after a move. -/
theorem Orderly.plausible_step (hregular : Regular pairing seen)
    (h : Orderly pairing worker history seen) (htidy : Tidy pairing worker seen')
    (hs : Seen.Moved seen move seen') {session' : PvPSessionState}
    (hsession' : seen'.config.world.value=some session') :
    Plausible pairing (history++[(seen,move)]) seen' session' := by
  have hmoved := hs
  cases hs with
  | opened entry harrives => exact (h.sessions.1 session' hsession').later hmoved htidy
  | performed task choice phase o rest world r started htask hphase hp =>
    obtain ⟨token,retriesLeft,call,before,after,rfl,htook,hruns,hbefore,hafter,-,hmakes⟩ |
      ⟨hsame | ⟨hnone,-⟩,-⟩ := hregular.key_cases htask hphase hp
    · cases hafter.symm.trans hsession'
      have hplausible := (h.sessions.1 before hbefore).later hmoved htidy
      obtain ⟨hid₁,hid₂⟩ := ids_of_makes hmakes
      refine ⟨⟨hid₁.trans hplausible.belongs.1,hid₂.trans hplausible.belongs.2⟩,?_,?_,?_⟩
      · intro hstarted
        rw [started_of_makes hmakes,Bool.or_eq_true] at hstarted
        obtain hold | hcall := hstarted
        · exact hplausible.started hold
        · obtain rfl := of_decide_eq_true hcall
          exact begun_committed htask hphase hp htook
      · intro player hconnected
        rw [hasConnected_of_makes hmakes,Bool.or_eq_true] at hconnected
        obtain hold | hcall := hconnected
        · exact hplausible.connected player hold
        · rw [joined_append,performs_run htask hphase hp,htook,of_decide_eq_true hcall]
          simp [connects]
      · intro seat hpending
        obtain hold | ⟨action,stale,rfl⟩ := pending_of_makes hmakes hpending
        · exact hplausible.pending seat hold
        · rw [idOf_eq (h.sessions.1 before hbefore).belongs] at hruns
          obtain hbegun | hplays := h.submitter hphase hruns
          · exact .inl (begun_later hbegun _)
          · exact .inr (hplays.step hmoved isPlaying_next htidy)
    · exact (h.sessions.1 session' (hsame.symm.trans hsession')).later hmoved htidy
    · cases hnone.symm.trans hsession'

/-- Who has to do with the turns does so after the start. -/
theorem Orderly.quiet_step (hregular : Regular pairing seen)
    (h : Orderly pairing worker history seen) (htidy : Tidy pairing worker seen)
    (halone : ∀ (task : TaskId) (worker' : Worker) (player : UUID) (attempt : Attempt PvPSessionState),
      seen'.phases[task]?≠some ⟨.socket worker' player .returning,attempt⟩)
    (hs : Seen.Moved seen move seen') {task' : TaskId} {phase' : Phase}
    (hphase' : seen'.phases[task']?=some phase') (hengaged : engaged phase'.control=true) :
    begun (history++[(seen,move)])=true := by
  cases hs with
  | opened entry harrives =>
    obtain hold | ⟨-,hnew⟩ := @Seen.getElem?_extended _ _ (some (watcher.start entry)) _ _ hphase'
    · exact begun_later (h.quiet task' phase' hold hengaged) _
    · cases hnew
      cases entry with
      | gameWs | forfeitAfterTimeout => cases hengaged
      | turnTimeout => cases harrives
  | performed task choice phase o rest world r started htask hphase hp =>
    have hallows := (hregular.conforms.allows hphase htask).1
    obtain ⟨rfl,rfl⟩ | ⟨-,hold⟩ | ⟨-,hstarted⟩ := Seen.getElem?_moved hphase'
    · obtain hbefore | hwelcomes | ⟨player,action,⟨_,_,_,_,rfl⟩,hcompletes⟩ :=
        engaged_next hallows hengaged
      · exact begun_later (h.quiet task' phase hphase hbefore) _
      · obtain ⟨control,attempt⟩ := phase
        unfold welcomes at hwelcomes
        split at hwelcomes
        · next worker₀ player found token retriesLeft call session hcontrol =>
          cases hcontrol
          refine absurd (hphase'.trans ?_) (halone task' worker₀ player .idle)
          change some (Phase.mk (.socket _ _ (if _ then _ else _)) _)=_
          rw [hwelcomes,if_pos rfl]
          cases attempt <;> rfl
        · next worker₀ player found token retriesLeft call session hcontrol =>
          cases hcontrol
          obtain ⟨htook,-⟩ := hregular.committed htask hphase hp
          cases call with
          | start => exact begun_committed htask hphase hp htook
          | connect | submit | resolve | forfeit => cases (show False from hallows)
        · cases hwelcomes
      · exact begun_later (h.completes htidy hphase hallows hcompletes) _
    · exact begun_later (h.quiet task' phase' hold hengaged) _
    · obtain ⟨entry,rfl,rfl⟩ := Option.map_eq_some_iff.mp hstarted
      obtain ⟨worker,rfl,rfl⟩ | ⟨_,_,_,-,rfl⟩ := started_cases hp
      · exact begun_later (h.quiet task phase hphase (engaged_of_arms hallows.2)) _
      · cases hengaged

/-- Nobody comes back, after a move too. -/
theorem Orderly.alone_step (hanyone : Anyone pairing history seen)
    (h : Orderly pairing worker history seen) (htidy : Tidy pairing worker seen)
    (hs : Seen.Moved seen move seen') {task' : TaskId} {worker' : Worker} {player : UUID}
    {stage' : Stage} {attempt' : Attempt PvPSessionState}
    (hphase' : seen'.phases[task']?=some ⟨.socket worker' player stage',attempt'⟩)
    (hplayer : IsPlayer pairing player) : stage'≠.connecting true ∧ stage'≠.returning := by
  cases handler_cases hs hphase' with
  | arriving harriving =>
    subst harriving
    exact ⟨nofun,nofun⟩
  | kept attempt hphase => exact h.alone task' worker' player stage' attempt hphase hplayer
  | passed choice o rest r started stage attempt hmove htask hphase hp hpasses =>
    have hold := h.alone task' worker' player stage attempt hphase hplayer
    -- the attempt of a handler that is connecting has not found its player connected
    have hnew : ∀ {found : Bool},stage=.connecting found →
        (found || reads attempt fun session => session.hasConnected player)=false := by
      rintro found rfl
      rw [Bool.or_eq_false_iff]
      refine ⟨Bool.eq_false_iff.mpr fun hfound => hold.1 (by rw [hfound]),?_⟩
      apply Bool.eq_false_iff.mpr
      intro hreads
      obtain ⟨session,hfound,hconnected⟩ := (Option.any_eq_true _ _).mp hreads
      have hjoined := (h.sessions.2 task' _ hphase session hfound).connected player hconnected
      obtain ⟨task,worker₁,stage₁,attempt₁,hphase₁,hearly⟩ := hanyone.handled player hjoined
      cases (htidy.socket hphase hplayer).2.2 hphase₁
      cases hphase.symm.trans hphase₁
      cases hearly
    cases hpasses with
    | same => exact hold
    | dismissed _ _ _ hover => obtain rfl | rfl := hover <;> exact ⟨nofun,nofun⟩
    | left _ _ _ _ hleft => obtain rfl | rfl := hleft <;> exact ⟨nofun,nofun⟩
    | returning found _ _ _ _ hfound =>
      rw [hnew rfl] at hfound
      cases hfound
    | reconnecting found =>
      rw [hnew rfl]
      exact ⟨nofun,nofun⟩
    | started found _ _ _ _ _ hstage =>
      rw [hstage]
      unfold announces
      split <;> exact ⟨nofun,nofun⟩
    | accepted | entering | connecting | missing | connected | full | alone | unknown | late
    | restarting | prompted | armed | played | closing => exact ⟨nofun,nofun⟩

/-- Who finds the match started, or has found it started, does so after the start. -/
theorem Orderly.begun_of_found (h : Orderly pairing worker history seen) {task : TaskId}
    {worker' : Worker} {player : UUID} {found : Bool} {attempt : Attempt PvPSessionState}
    (hphase : seen.phases[task]?=some ⟨.socket worker' player (.starting found),attempt⟩)
    (hfound : (found || reads attempt fun session => session.started)=true) :
    begun history=true := by
  rw [Bool.or_eq_true] at hfound
  obtain rfl | hreads := hfound
  · exact h.found task worker' player attempt hphase
  · obtain ⟨session,hread,hstarted⟩ := (Option.any_eq_true _ _).mp hreads
    exact (h.sessions.2 task _ hphase session hread).started hstarted

/-- Who has found the match started does so after the start, after a move too. -/
theorem Orderly.found_step (h : Orderly pairing worker history seen)
    (hs : Seen.Moved seen move seen') {task' : TaskId} {worker' : Worker} {player : UUID}
    {attempt' : Attempt PvPSessionState}
    (hphase' : seen'.phases[task']?=some ⟨.socket worker' player (.starting true),attempt'⟩) :
    begun (history++[(seen,move)])=true := by
  apply begun_later
  generalize hstage' : Stage.starting true=stage' at hphase'
  cases handler_cases hs hphase' with
  | arriving harriving =>
    subst harriving
    cases hstage'
  | kept attempt hphase =>
    subst hstage'
    exact h.found task' worker' player attempt hphase
  | passed choice o rest r started stage attempt hmove htask hphase hp hpasses =>
    cases hpasses with
    | same =>
      subst hstage'
      exact h.found task' worker' player attempt hphase
    | dismissed _ _ _ hover => obtain rfl | rfl := hover <;> cases hstage'
    | left _ _ _ _ hleft => obtain rfl | rfl := hleft <;> cases hstage'
    | restarting found => exact h.begun_of_found hphase (Stage.starting.inj hstage').symm
    | started found _ _ _ _ _ hstage =>
      rw [hstage] at hstage'
      unfold announces at hstage'
      split at hstage' <;> cases hstage'
    | accepted | entering | connecting | missing | connected | returning | reconnecting | full
    | alone | unknown | late | prompted | armed | played | closing => cases hstage'

/-- Who unregisters a player of the match leaves it. -/
theorem unregister_leaves (hregular : Regular pairing seen) (htidy : Tidy pairing worker seen)
    {task : TaskId} {phase : Phase} {worker' : Worker} {player : UUID}
    {rest : Except Exc Unit → Coroutine Unit} {r : Except Exc Unit}
    (hplayer : IsPlayer pairing player)
    (htask : seen.config.tasks[task]?=some (.op (.act (.unregister worker' player)) rest))
    (hphase : seen.phases[task]?=some phase) :
    ∃ attempt doing paired,phase=⟨.socket worker' player (.playing doing paired),attempt⟩ ∧
      parted (Stage.next attempt player (.playing doing paired)
        (.act (.unregister worker' player)) r)=true := by
  obtain ⟨control,attempt⟩ := phase
  obtain ⟨stage,rfl,hstage⟩ := (hregular.conforms.allows hphase htask).1
  obtain ⟨-,hover,-⟩ := htidy.socket hphase hplayer
  obtain rfl | rfl | rfl | ⟨doing,paired,rfl⟩ := hstage
  · cases hover
  · cases hover
  · cases hover
  · exact ⟨attempt,doing,paired,rfl,rfl⟩

/-- Who is in the room stays there. -/
theorem Orderly.room_kept (hregular : Regular pairing seen) (htidy : Tidy pairing worker seen)
    (htidy' : Tidy pairing worker seen') (hs : Seen.Moved seen move seen') {player : UUID}
    (hplayer : IsPlayer pairing player) (h : (worker,player)∈seen.config.world.memory.rooms) :
    (worker,player)∈seen'.config.world.memory.rooms := by
  cases hs with
  | opened entry harrives => exact h
  | performed task choice phase o rest world r started htask hphase hp =>
    obtain hkept | rfl := rooms_kept hp h
    · exact hkept
    · obtain ⟨attempt,doing,paired,rfl,hover⟩ :=
        unregister_leaves (r := r) hregular htidy hplayer htask hphase
      obtain ⟨-,hstays,-⟩ := htidy'.socket (Seen.getElem?_moved_self hphase) hplayer
      exact absurd (hover.symm.trans hstays) nofun

/-- Who has been registered is in the room, after a move too. -/
theorem Orderly.room_step (hregular : Regular pairing seen)
    (h : Orderly pairing worker history seen) (htidy : Tidy pairing worker seen)
    (htidy' : Tidy pairing worker seen') (hs : Seen.Moved seen move seen') {task' : TaskId}
    {worker' : Worker} {player : UUID} {stage' : Stage} {attempt' : Attempt PvPSessionState}
    (hphase' : seen'.phases[task']?=some ⟨.socket worker' player stage',attempt'⟩)
    (hplayer : IsPlayer pairing player) (hregistered : registered stage'=true) :
    (worker,player)∈seen'.config.world.memory.rooms := by
  have hkept : ∀ {stage : Stage} {attempt : Attempt PvPSessionState},
      seen.phases[task']?=some ⟨.socket worker' player stage,attempt⟩ → registered stage=true →
      (worker,player)∈seen'.config.world.memory.rooms := fun hphase hstage =>
    Orderly.room_kept hregular htidy htidy' hs hplayer (h.room task' worker' player _ _ hphase hplayer
      hstage)
  cases handler_cases hs hphase' with
  | arriving harriving =>
    subst harriving
    cases hregistered
  | kept attempt hphase => exact hkept hphase hregistered
  | passed choice o rest r started stage attempt hmove htask hphase hp hpasses =>
    cases hpasses with
    | same => exact hkept hphase hregistered
    | accepted => cases hregistered
    | entering worker₁ player₁ =>
      have hallows := (hregular.conforms.allows hphase htask).1
      cases hallows
      obtain ⟨rfl,-,-⟩ := htidy.socket hphase hplayer
      exact rooms_registered hp
    | dismissed _ _ _ hover =>
      obtain ⟨-,hout,-⟩ := htidy'.socket hphase' hplayer
      obtain rfl | rfl := hover <;> cases hout
    | full _ hcounts | alone _ hcounts => obtain rfl | rfl := hcounts <;> exact hkept hphase rfl
    | connecting | missing | connected | returning | reconnecting | unknown | late | started
    | restarting | prompted | armed | played | left | closing => exact hkept hphase rfl

/-- The two players are different. -/
theorem players_distinct {seat seat' : Seat} (hne : seat≠seat') :
    playerOf pairing seat≠playerOf pairing seat' := by
  cases seat with
  | first =>
    cases seat' with
    | first => exact absurd rfl hne
    | second => exact pairing.distinct
  | second =>
    cases seat' with
    | first => exact pairing.distinct.symm
    | second => exact absurd rfl hne

/-- The handler of the seat finds its player alone in the room. -/
def CountsOne (pairing : Pairing) (seen : Seen watcher) (move : workers.Move)
    (seen' : Seen watcher) (seat : Seat) : Prop :=
  ∃ (task : TaskId) (choice : Choice) (worker : Worker) (stage : Stage)
    (attempt : Attempt PvPSessionState) (rest : Except Exc ℕ → Coroutine Unit) (size : ℕ)
    (started : Option Entry),move=.run task choice ∧
    seen.config.tasks[task]?=some (.op (.act (.roomSize worker)) rest) ∧
    seen.phases[task]?=some ⟨.socket worker (playerOf pairing seat) stage,attempt⟩ ∧
    registered stage=true ∧ WatchedKey.perform (R := runtime) choice task seen.config.tasks.length
      (.act (.roomSize worker)) seen.config.world=some (seen'.config.world,.ok size,started) ∧
    ¬size ≥ 2

/-- A handler that has counted the room has done so before, or it starts the match now, or
it finds its player alone. -/
theorem counted_before (hregular : Regular pairing seen) (hs : Seen.Moved seen move seen')
    {seat : Seat} (h : Has pairing seen' seat hasCounted) :
    Has pairing seen seat hasCounted ∨ Has pairing seen' seat isStarting ∨
      CountsOne pairing seen move seen' seat := by
  obtain ⟨task,worker',stage',attempt',hphase',hcounted⟩ := h
  cases handler_cases hs hphase' with
  | arriving harriving =>
    subst harriving
    cases hcounted
  | kept attempt hphase => exact .inl ⟨task,worker',stage',attempt,hphase,hcounted⟩
  | passed choice o rest r started stage attempt hmove htask hphase hp hpasses =>
    have hbefore : ∀ {test : Stage → Bool},test stage=true → Has pairing seen seat test :=
      fun htest => ⟨task,worker',stage,attempt,hphase,htest⟩
    cases hpasses with
    | same => exact .inl (hbefore hcounted)
    | full => exact .inr (.inl ⟨task,worker',_,attempt',hphase',rfl⟩)
    | alone _ hcounts worker₁ size hsize =>
      have hallows := (hregular.conforms.allows hphase htask).1
      obtain ⟨player₁,hcontrol⟩ := hallows
      have hworker : worker'=worker₁ := by obtain he | he := hcontrol <;> cases he <;> rfl
      subst hworker
      refine .inr (.inr ⟨task,choice,worker',stage,attempt,rest,size,started,hmove,htask,hphase,
        ?_,hp,hsize⟩)
      obtain rfl | rfl := hcounts <;> rfl
    | dismissed _ _ _ hover => obtain rfl | rfl := hover <;> cases hcounted
    | left _ _ _ _ hleft => obtain rfl | rfl := hleft <;> cases hcounted
    | unknown | late | started | restarting | prompted | armed | played => exact .inl (hbefore rfl)
    | accepted | entering | connecting | missing | connected | returning | reconnecting
    | closing => cases hcounted

/-- Nobody finds his player alone when the other one has counted the room before. -/
theorem Orderly.not_alone (h : Orderly pairing worker history seen)
    (htidy : Tidy pairing worker seen) {seat seat' : Seat} (hne : seat≠seat')
    (hother : Has pairing seen seat' hasCounted) :
    ¬CountsOne pairing seen move seen' seat := by
  rintro ⟨task,choice,worker₁,stage,attempt,rest,size,started,-,htask,hphase,hregistered,hp,hsize⟩
  obtain ⟨task',worker',stage',attempt',hphase',hcounted⟩ := hother
  have hroom := h.room task worker₁ _ stage attempt hphase ⟨seat,rfl⟩ hregistered
  have hroom' : (worker,playerOf pairing seat')∈seen.config.world.memory.rooms := by
    apply h.room task' worker' _ stage' attempt' hphase' ⟨seat',rfl⟩
    cases stage' with
    | arriving | accepted => cases hcounted
    | entering | refusing | connecting | returning | counting | starting | prompting | playing
    | leaving | closing | gone => rfl
  obtain ⟨rfl,-,-⟩ := htidy.socket hphase ⟨seat,rfl⟩
  exact hsize (full_of_rooms (players_distinct hne) hroom hroom' hp)

/-- Who is about to start the match starts it, or it has been started. -/
theorem Orderly.starting_step (hregular : Regular pairing seen)
    (h : Orderly pairing worker history seen) (htidy' : Tidy pairing worker seen')
    (hs : Seen.Moved seen move seen') {seat : Seat} (hstarting : Has pairing seen seat isStarting) :
    begun (history++[(seen,move)])=true ∨ Has pairing seen' seat isStarting := by
  obtain ⟨task,worker',stage,attempt,hphase,hstage⟩ := hstarting
  cases hs with
  | opened entry harrives =>
    have hlt := (List.getElem?_eq_some_iff.mp hphase).1
    exact .inr ⟨task,worker',stage,attempt,(List.getElem?_append_left hlt).trans hphase,hstage⟩
  | performed other choice phase o rest world r started htask hphase₀ hp =>
    by_cases he : task=other
    · subst he
      cases hphase₀.symm.trans hphase
      have hphase' : (seen.phases.set task (watcher.next
          ⟨.socket worker' (playerOf pairing seat) stage,attempt⟩ o
          (took choice o seen.config.world) r)++(started.map watcher.start).toList)[task]?=
            some ⟨.socket worker' (playerOf pairing seat)
              (stage.next attempt (playerOf pairing seat) o r),_⟩ :=
        Seen.getElem?_moved_self hphase
      have hin := (htidy'.socket hphase' ⟨seat,rfl⟩).2.1
      have hpasses := passes_next attempt (playerOf pairing seat) stage o r
      generalize hnext : stage.next attempt (playerOf pairing seat) o r=stage' at hpasses hin
      cases hpasses with
      | same => exact .inr ⟨task,worker',_,_,hphase',(congrArg isStarting hnext).trans hstage⟩
      | restarting => exact .inr ⟨task,worker',_,_,hphase',congrArg isStarting hnext⟩
      | dismissed _ _ _ hover => obtain rfl | rfl := hover <;> cases hin
      | unknown found =>
        obtain ⟨session,hsession,-⟩ := h.stored
        cases (perform_get hp).trans hsession
      | late found _ _ _ _ hfound => exact .inl (begun_later (h.begun_of_found hphase hfound) _)
      | started found token retriesLeft call session =>
        obtain ⟨htook,-,-,-,-,hruns,-⟩ := hregular.committed htask hphase hp
        cases call with
        | start => exact .inl (begun_committed htask hphase hp htook)
        | connect | submit | resolve | forfeit => cases (show False from hruns)
      | full _ hcounts | alone _ hcounts => obtain rfl | rfl := hcounts <;> cases hstage
      | accepted | entering | connecting | missing | connected | returning | reconnecting
      | prompted | armed | played | left | closing => cases hstage
    · exact .inr ⟨task,worker',stage,attempt,Seen.getElem?_moved_other he hphase,hstage⟩

/-- When both handlers have counted the room, the match has been started or is about to be. -/
theorem Orderly.met_step (hregular : Regular pairing seen)
    (h : Orderly pairing worker history seen) (htidy : Tidy pairing worker seen)
    (htidy' : Tidy pairing worker seen') (hs : Seen.Moved seen move seen')
    (hcounted : ∀ seat,Has pairing seen' seat hasCounted) :
    begun (history++[(seen,move)])=true ∨ ∃ seat,Has pairing seen' seat isStarting := by
  have hseat : ∀ seat,(∃ seat,Has pairing seen' seat isStarting) ∨
      Has pairing seen seat hasCounted ∨ CountsOne pairing seen move seen' seat := by
    intro seat
    obtain hbefore | hstarts | hone := counted_before hregular hs (hcounted seat)
    · exact .inr (.inl hbefore)
    · exact .inl ⟨seat,hstarts⟩
    · exact .inr (.inr hone)
  have hne : Seat.first≠Seat.second := nofun
  obtain hstarts | hfirst := hseat .first
  · exact .inr hstarts
  obtain hstarts | hsecond := hseat .second
  · exact .inr hstarts
  obtain hfirst | hone := hfirst
  · obtain hsecond | hone := hsecond
    · have hboth : ∀ seat,Has pairing seen seat hasCounted := by
        intro seat
        cases seat with
        | first => exact hfirst
        | second => exact hsecond
      obtain hbegun | ⟨seat,hstarting⟩ := h.met hboth
      · exact .inl (begun_later hbegun _)
      · obtain hbegun | hstarts := h.starting_step hregular htidy' hs hstarting
        · exact .inl hbegun
        · exact .inr ⟨seat,hstarts⟩
    · exact absurd hone (h.not_alone htidy hne.symm hfirst)
  · obtain hsecond | hone' := hsecond
    · exact absurd hone (h.not_alone htidy hne hsecond)
    · -- one handler moves at a time
      obtain ⟨task,choice,_,_,_,_,_,_,rfl,-,hphase,-⟩ := hone
      obtain ⟨task',choice',_,_,_,_,_,_,hmove,-,hphase',-⟩ := hone'
      cases hmove
      have hsame := congrArg Phase.control (Option.some.inj (hphase.symm.trans hphase'))
      injection hsame with _ hplayer
      exact absurd hplayer (players_distinct hne)

/-- Nobody deletes the session of a match that nobody has left. -/
theorem not_deleted (hregular : Regular pairing seen) (hanyone : Anyone pairing history seen)
    (htidy : Tidy pairing worker seen) {task : TaskId} {phase : Phase}
    {rest : Except Exc Unit → Coroutine Unit} (hphase : seen.phases[task]?=some phase) :
    seen.config.tasks[task]?≠some (.op (.store .delete) rest) := by
  intro htask
  obtain ⟨control,attempt⟩ := phase
  obtain ⟨worker',player,rfl⟩ := (hregular.conforms.allows hphase htask).1
  have hplayer := hanyone.members task worker' player .closing attempt hphase rfl
  cases (htidy.socket hphase hplayer).2.1

/-- No turn is resolved before the start. -/
theorem Orderly.not_resolves (h : Orderly pairing worker history seen)
    (hbegun : begun history=false) {task : TaskId} {phase : Phase} {call : Call}
    (hphase : seen.phases[task]?=some phase) (hruns : phase.control.Runs call) :
    resolves call=false := by
  cases call with
  | connect | start | submit | forfeit => rfl
  | resolve p1Action p2Action =>
    have hengaged : engaged phase.control=true := by
      obtain ⟨control,attempt⟩ := phase
      cases control with
      | turnTimer => rfl
      | forfeitTimer _ _ _ stage => cases stage <;> cases (show False from hruns)
      | socket worker' player stage =>
        cases stage with
        | playing doing paired =>
          have hpaired : paired=true := hruns
          subst hpaired
          cases doing <;> rfl
        | arriving | accepted | entering | refusing | connecting | returning | counting | starting
        | prompting | leaving | closing | gone => cases (show False from hruns)
    rw [h.quiet task phase hphase hengaged] at hbegun
    cases hbegun

/-- An operation that writes nothing does not start the match. -/
theorem not_starts {task : TaskId} {phase : Phase} {o : Op language} {effective : Bool}
    {r : Except Exc o.Res} (h : ∀ token retriesLeft call after,
      o=.store (.exec token retriesLeft call after) → effective=false) :
    starts ⟨task,phase,o,effective,r⟩=false := by
  unfold starts
  dsimp only
  split
  · next token retriesLeft session =>
    rw [h token retriesLeft .start session rfl]
    rfl
  · exact Bool.and_false _

/-- The session is still there after a move. It is started once the match has been, and
before that the first turn is open. -/
theorem Orderly.stored_step (hregular : Regular pairing seen) (hanyone : Anyone pairing history seen)
    (h : Orderly pairing worker history seen) (htidy : Tidy pairing worker seen)
    (hs : Seen.Moved seen move seen') : ∃ session,seen'.config.world.value=some session ∧
      (begun (history++[(seen,move)])=true → session.started=true) ∧
      (begun (history++[(seen,move)])=false → currentTurn session=some openingTurn) := by
  obtain ⟨session,hsession,hstarted,hturn⟩ := h.stored
  cases hs with
  | opened entry harrives =>
    refine ⟨session,hsession,?_⟩
    rw [begun_append]
    simpa [performs,Seen.performed] using And.intro hstarted hturn
  | performed task choice phase o rest world r started htask hphase hp =>
    rw [begun_append,performs_run htask hphase hp]
    obtain ⟨token,retriesLeft,call,before,after,rfl,htook,hruns,hbefore,hafter,-,hmakes⟩ |
      ⟨hsame | ⟨-,rfl⟩,hnone⟩ := hregular.key_cases htask hphase hp
    · cases hsession.symm.trans hbefore
      refine ⟨after,hafter,fun hbegun => ?_,fun hbegun => ?_⟩
      · rw [started_of_makes hmakes,Bool.or_eq_true]
        obtain hold | hnew := Bool.or_eq_true_iff.mp hbegun
        · exact .inl (hstarted hold)
        · cases call with
          | start => exact .inr rfl
          | connect | submit | resolve | forfeit => simp [starts] at hnew
      · obtain ⟨hbegun,-⟩ := Bool.or_eq_false_iff.mp hbegun
        rw [currentTurn_of_makes hmakes (h.not_resolves hbegun hphase hruns)]
        exact hturn hbegun
    · rw [not_starts hnone,Bool.or_false]
      exact ⟨session,hsame.trans hsession,hstarted,hturn⟩
    · exact absurd htask (not_deleted hregular hanyone htidy hphase)

/-- A start transaction that has not found the match started starts it at its first turn. -/
theorem Orderly.starts_first (hregular : Regular pairing seen)
    (h : Orderly pairing worker history seen) {task : TaskId} {choice : Choice} {worker' : Worker}
    {player : UUID} {found : Bool} {attempt : Attempt PvPSessionState} {token retriesLeft : ℕ}
    {call : Call} {session : PvPSessionState} {rest : Except Exc Bool → Coroutine Unit}
    {world : World} {started : Option Entry}
    (htask : seen.config.tasks[task]?=some (.op (.store (.exec token retriesLeft call session)) rest))
    (hphase : seen.phases[task]?=some ⟨.socket worker' player (.starting found),attempt⟩)
    (hp : WatchedKey.perform (R := runtime) choice task seen.config.tasks.length
      (.store (.exec token retriesLeft call session)) seen.config.world=
        some (world,.ok true,started))
    (hfound : (found || reads attempt fun session => session.started)=false) :
    call=.start ∧ begun history=false ∧ currentTurn session=some openingTurn ∧
      BelongsTo pairing session := by
  obtain ⟨-,before,hbefore,-,hattempt,hruns,hmakes⟩ := hregular.committed htask hphase hp
  have hcall : call=.start := by
    cases call with
    | start => rfl
    | connect | submit | resolve | forfeit => cases (show False from hruns)
  subst hcall
  obtain ⟨session₀,hsession,hstarted,hturn⟩ := h.stored
  cases hsession.symm.trans hbefore
  have hbegun : begun history=false := by
    apply Bool.eq_false_iff.mpr
    intro hbegun
    dsimp only at hattempt
    rw [hattempt] at hfound
    simp [reads,Attempt.value,hstarted hbegun] at hfound
  obtain ⟨hid₁,hid₂⟩ := ids_of_makes hmakes
  have hbelongs := hregular.belongs hbefore
  refine ⟨rfl,hbegun,?_,hid₁.trans hbelongs.1,hid₂.trans hbelongs.2⟩
  rw [currentTurn_of_makes hmakes rfl]
  exact hturn hbegun

/-- What start prompts for, after a move too. -/
theorem Orderly.turn_step (hregular : Regular pairing seen)
    (h : Orderly pairing worker history seen) (hs : Seen.Moved seen move seen') {task' : TaskId}
    {worker' : Worker} {player : UUID} {turn : TurnKey} {untold : List UUID}
    {attempt' : Attempt PvPSessionState}
    (hphase' : seen'.phases[task']?=some ⟨.socket worker' player (.prompting turn untold),attempt'⟩) :
    turn=openingTurn := by
  generalize hstage' : Stage.prompting turn untold=stage' at hphase'
  cases handler_cases hs hphase' with
  | arriving harriving =>
    subst harriving
    cases hstage'
  | kept attempt hphase =>
    subst hstage'
    exact h.turn task' worker' player turn untold attempt hphase
  | passed choice o rest r started stage attempt hmove htask hphase hp hpasses =>
    cases hpasses with
    | same =>
      subst hstage'
      exact h.turn task' worker' player turn untold attempt hphase
    | prompted turn₀ untold₀ =>
      obtain ⟨rfl,-⟩ := Stage.prompting.inj hstage'
      exact h.turn task' worker' player turn untold₀ attempt hphase
    | started found token retriesLeft call session hfound hstage =>
      obtain ⟨-,-,hcurrent,-⟩ := h.starts_first hregular htask hphase hp hfound
      rw [hstage,announces,hcurrent] at hstage'
      exact (Stage.prompting.inj hstage').1
    | dismissed _ _ _ hover => obtain rfl | rfl := hover <;> cases hstage'
    | left _ _ _ _ hleft => obtain rfl | rfl := hleft <;> cases hstage'
    | accepted | entering | connecting | missing | connected | returning | reconnecting | full
    | alone | unknown | late | restarting | armed | played | closing => cases hstage'

/-- What a further moment changes. -/
theorem told_append {player : UUID} {moment : Moment} : told player (history++[moment])=
    told player history+if performs (promptsFirst player) moment then 1 else 0 := by
  simp [told,List.countP_append,List.countP_singleton]

/-- What the tasks have to send when one of them goes on. -/
theorem debts_set (player : UUID) {phases : List Phase} {task : TaskId} {phase : Phase}
    (h : phases[task]?=some phase) (phase' : Phase) :
    ((phases.set task phase').map (debt player)).sum+debt player phase=
      (phases.map (debt player)).sum+debt player phase' := by
  induction phases generalizing task with
  | nil => cases h
  | cons first phases ih =>
    cases task with
    | zero =>
      cases h
      simp only [List.set_cons_zero,List.map_cons,List.sum_cons]
      omega
    | succ task =>
      have hrest := @ih task h
      simp only [List.set_cons_succ,List.map_cons,List.sum_cons]
      omega

/-- Who has just begun has nothing to send. -/
theorem debt_start (player : UUID) (entry : Entry) : debt player (watcher.start entry)=0 := by
  cases entry <;> rfl

/-- Who prompts for the first turn does so in start. -/
theorem Orderly.prompter (hanyone : Anyone pairing history seen)
    (h : Orderly pairing worker history seen) {task : TaskId} {phase : Phase} {player : UUID}
    (hphase : seen.phases[task]?=some phase)
    (hprompts : phase.control.Prompts player openingTurn) :
    ∃ worker' own turn untold attempt,phase=⟨.socket worker' own (.prompting turn untold),attempt⟩ := by
  have hlater : ∀ resolved,phase.control.doing≠some (.resolved resolved (some openingTurn)) :=
    fun resolved hdoing =>
      lt_irrefl openingTurn ((hanyone.later task phase resolved _ hphase hdoing).2 openingTurn rfl)
  obtain ⟨control,attempt⟩ := phase
  cases control with
  | turnTimer | forfeitTimer =>
    obtain ⟨resolved,hdoing⟩ := hprompts
    exact absurd hdoing (hlater resolved)
  | socket worker' own stage =>
    cases stage with
    | prompting turn untold => exact ⟨worker',own,turn,untold,attempt,rfl⟩
    | returning =>
      have hplayer := hanyone.members task worker' own .returning attempt hphase rfl
      exact absurd rfl (h.alone task worker' own .returning attempt hphase hplayer).2
    | arriving | accepted | entering | refusing | connecting | counting | starting | playing
    | leaving | closing | gone =>
      obtain ⟨resolved,hdoing⟩ := hprompts
      exact absurd hdoing (hlater resolved)

/-- The prompts of start, one of which may be sent now. -/
theorem Orderly.prompting_pays (hregular : Regular pairing seen)
    (h : Orderly pairing worker history seen)
    {task : TaskId} {choice : Choice} {worker' : Worker} {own player : UUID} {turn : TurnKey}
    {untold : List UUID} {attempt attempt' : Attempt PvPSessionState} {o : Op language}
    {rest : Except Exc o.Res → Coroutine Unit} {world : World} {r : Except Exc o.Res}
    {started : Option Entry} (htask : seen.config.tasks[task]?=some (.op o rest))
    (hphase : seen.phases[task]?=some ⟨.socket worker' own (.prompting turn untold),attempt⟩)
    (hp : WatchedKey.perform (R := runtime) choice task seen.config.tasks.length o
      seen.config.world=some (world,r,started))
    (hin : parted (Stage.next attempt own (.prompting turn untold) o r)=false) :
    (if promptsFirst player ⟨task,⟨.socket worker' own (.prompting turn untold),attempt⟩,o,
        took choice o seen.config.world,r⟩ then 1 else 0)+
      debt player ⟨.socket worker' own (Stage.next attempt own (.prompting turn untold) o r),attempt'⟩=
        debt player ⟨.socket worker' own (.prompting turn untold),attempt⟩ := by
  have hallows := (hregular.conforms.allows hphase htask).1
  have hturn : turn=openingTurn := h.turn task worker' own turn untold attempt hphase
  subst hturn
  cases r with
  | error exc =>
    cases o with
    | store o => cases hin
    | act o => cases o <;> cases hin
  | ok res =>
    cases o with
    | store o => simp [promptsFirst,Stage.next,prompted,debt]
    | act o =>
      obtain ⟨_,_,_,-,he⟩ | ⟨htook,-⟩ := Outcome.act ⟨choice,task,_,_,_,_,hp,rfl⟩
      · cases he
      rw [htook]
      cases o with
      | send worker₁ other message =>
        cases message with
        | waitingForAction number limit round p1Ki p2Ki =>
          obtain ⟨-,hfirst,hhead⟩ := hallows
          obtain ⟨rfl,rfl⟩ : round=1 ∧ number=1 := by
            have hpair := congrArg ofLex hfirst
            exact ⟨(congrArg Prod.fst hpair).symm,(congrArg Prod.snd hpair).symm⟩
          cases untold with
          | nil => cases hhead
          | cons first rest =>
            cases hhead
            by_cases he : other=player
            · subst he
              simp [promptsFirst,Stage.next,prompted,debt,ServerMessage.isPrompt]
              omega
            · simp [promptsFirst,Stage.next,prompted,debt,ServerMessage.isPrompt,he]
        | turnResult | roundResult | matchResult | actionConfirmed | opponentDisconnected
        | opponentReconnected | errorMsg | pong =>
          simp [promptsFirst,Stage.next,prompted,debt,ServerMessage.isPrompt]
      | restartTimeout worker₁ =>
        obtain ⟨-,hnil⟩ := hallows
        cases hnil
        rfl
      | sendJson | accept | safeClose | receive | sleep | register | unregister | isConnected
      | roomSize | cancelTimeout | cancelDisconnect | startDisconnect | cleanup =>
        simp [promptsFirst,Stage.next,prompted,debt]

/-- A prompt for the first turn. -/
theorem first_of_promptsFirst {player : UUID} {performed : Performed watcher}
    (h : promptsFirst player performed=true) : ∃ worker' limit p1Ki p2Ki,
      performed.op=.act (.send worker' player (.waitingForAction 1 limit 1 p1Ki p2Ki)) := by
  obtain ⟨-,hop⟩ := Bool.and_eq_true_iff.mp h
  split at hop
  · next heq =>
    obtain ⟨rfl,rfl,rfl⟩ := of_decide_eq_true hop
    exact ⟨_,_,_,_,heq⟩
  · cases hop

/-- A handler that is not prompting has nothing to send. -/
theorem debt_other {attempt : Attempt PvPSessionState} {worker' : Worker} {own player : UUID}
    {stage : Stage} (h : ∀ turn untold,stage≠.prompting turn untold) :
    debt player ⟨.socket worker' own stage,attempt⟩=0 := by
  cases stage with
  | prompting turn untold => exact absurd rfl (h turn untold)
  | arriving | accepted | entering | refusing | connecting | returning | counting | starting
  | playing | leaving | closing | gone => rfl

/-- What a task sends and what it has then to send, unless it starts the match. -/
theorem Orderly.pays (hregular : Regular pairing seen) (hanyone : Anyone pairing history seen)
    (h : Orderly pairing worker history seen) (player : UUID) {task : TaskId} {choice : Choice}
    {phase : Phase} {o : Op language} {rest : Except Exc o.Res → Coroutine Unit} {world : World}
    {r : Except Exc o.Res} {started : Option Entry}
    (htask : seen.config.tasks[task]?=some (.op o rest)) (hphase : seen.phases[task]?=some phase)
    (hp : WatchedKey.perform (R := runtime) choice task seen.config.tasks.length o
      seen.config.world=some (world,r,started))
    (hin : ∀ worker' own stage attempt,watcher.next phase o (took choice o seen.config.world) r=
      ⟨.socket worker' own stage,attempt⟩ → IsPlayer pairing own → parted stage=false)
    (hstarts : starts ⟨task,phase,o,took choice o seen.config.world,r⟩=false) :
    (if promptsFirst player ⟨task,phase,o,took choice o seen.config.world,r⟩ then 1 else 0)+
      debt player (watcher.next phase o (took choice o seen.config.world) r)=debt player phase := by
  have hallows := (hregular.conforms.allows hphase htask).1
  have hnever : (∀ worker' own turn untold attempt,
      phase≠⟨.socket worker' own (.prompting turn untold),attempt⟩) →
      promptsFirst player ⟨task,phase,o,took choice o seen.config.world,r⟩=false := by
    intro hphase'
    apply Bool.eq_false_iff.mpr
    intro hfirst
    obtain ⟨worker',limit,p1Ki,p2Ki,hop⟩ := first_of_promptsFirst hfirst
    dsimp only at hop
    subst hop
    obtain ⟨_,_,_,_,_,he⟩ := h.prompter hanyone hphase hallows.2
    exact hphase' _ _ _ _ _ he
  obtain ⟨control,attempt⟩ := phase
  cases control with
  | turnTimer | forfeitTimer =>
    have hnone := hnever fun _ _ _ _ _ he => by cases he
    rw [hnone]
    rfl
  | socket worker' own stage =>
    by_cases hprompting : ∃ turn untold,stage=.prompting turn untold
    · obtain ⟨turn,untold,rfl⟩ := hprompting
      have hplayer := hanyone.members task worker' own _ attempt hphase rfl
      exact h.prompting_pays hregular htask hphase hp (hin worker' own _ _ rfl hplayer)
    · have hstage : ∀ turn untold,stage≠.prompting turn untold :=
        fun turn untold he => hprompting ⟨turn,untold,he⟩
      have hnone := hnever fun _ _ turn untold _ he => by
        injection he with hcontrol
        injection hcontrol with _ _ hstage'
        exact hstage turn untold hstage'
      rw [hnone,if_neg Bool.false_ne_true,Nat.zero_add,debt_other hstage]
      apply debt_other
      have hpasses := passes_next attempt own stage o r
      generalize stage.next attempt own o r=stage' at hpasses
      cases hpasses with
      | same => exact hstage
      | prompted turn untold => exact absurd rfl (hstage turn untold)
      | started found token retriesLeft call session =>
        obtain ⟨htook,-,-,-,-,hruns,-⟩ := hregular.committed htask hphase hp
        rw [htook] at hstarts
        cases call with
        | start => cases hstarts
        | connect | submit | resolve | forfeit => cases (show False from hruns)
      | dismissed _ _ _ hover => obtain rfl | rfl := hover <;> exact nofun
      | left _ _ _ _ hleft => obtain rfl | rfl := hleft <;> exact nofun
      | accepted | entering | connecting | missing | connected | returning | reconnecting | full
      | alone | unknown | late | restarting | armed | played | closing => exact nofun

/-- What a start transaction has to send. -/
theorem Orderly.pays_start (hregular : Regular pairing seen) (hanyone : Anyone pairing history seen)
    (h : Orderly pairing worker history seen) (seat : Seat) {task : TaskId} {choice : Choice}
    {phase : Phase} {o : Op language} {rest : Except Exc o.Res → Coroutine Unit} {world : World}
    {r : Except Exc o.Res} {started : Option Entry}
    (htask : seen.config.tasks[task]?=some (.op o rest)) (hphase : seen.phases[task]?=some phase)
    (hp : WatchedKey.perform (R := runtime) choice task seen.config.tasks.length o
      seen.config.world=some (world,r,started))
    (hin : ∀ worker' own stage attempt,watcher.next phase o (took choice o seen.config.world) r=
      ⟨.socket worker' own stage,attempt⟩ → IsPlayer pairing own → parted stage=false)
    (hstarts : starts ⟨task,phase,o,took choice o seen.config.world,r⟩=true) :
    (if promptsFirst (playerOf pairing seat)
        ⟨task,phase,o,took choice o seen.config.world,r⟩ then 1 else 0)+
      debt (playerOf pairing seat) (watcher.next phase o (took choice o seen.config.world) r)+
      (if begun history then 1 else 0)=debt (playerOf pairing seat) phase+1 := by
  obtain ⟨htook,hop⟩ := Bool.and_eq_true_iff.mp hstarts
  dsimp only at htook hop
  split at hop
  swap
  · cases hop
  next token retriesLeft session =>
  have hruns : phase.control.Runs .start := (hregular.conforms.allows hphase htask).1
  obtain ⟨control,attempt⟩ := phase
  cases control with
  | turnTimer worker' stage => cases stage <;> cases (show False from hruns)
  | forfeitTimer worker' p q stage => cases stage <;> cases (show False from hruns)
  | socket worker' own stage =>
    cases stage with
    | starting found =>
      have hplayer := hanyone.members task worker' own _ attempt hphase rfl
      rw [htook]
      rcases r with exc | written
      · cases hin worker' own .gone _ rfl hplayer
      · obtain ⟨exc,he⟩ | ⟨res,he,heffective⟩ := Outcome.store ⟨choice,task,_,_,_,_,hp,rfl⟩
        · cases he
        · cases he
          have hwritten : written=true := heffective.symm.trans htook
          subst hwritten
          have hnext : Stage.next attempt own (.starting found)
              (.store (.exec token retriesLeft Call.start session)) (.ok true)=
              if found || reads attempt fun session => session.started then .playing .idle false
              else announces session := rfl
          simp only [watcher,Control.next,hnext]
          cases hfound : found || reads attempt fun session => session.started with
          | true =>
            rw [h.begun_of_found hphase hfound]
            rfl
          | false =>
            obtain ⟨-,hbegun,hcurrent,hbelongs⟩ :=
              h.starts_first hregular htask hphase hp hfound
            have hone : [session.player1Id,session.player2Id].count (playerOf pairing seat)=1 := by
              rw [hbelongs.1,hbelongs.2]
              cases seat with
              | first => simp [playerOf,Seat.pick,pairing.distinct.symm]
              | second => simp [playerOf,Seat.pick,pairing.distinct]
            rw [if_neg Bool.false_ne_true,announces,hcurrent,hbegun]
            simpa [promptsFirst,debt] using hone
    | arriving | accepted | entering | refusing | connecting | returning | counting | prompting
    | playing | leaving | closing | gone => cases (show False from hruns)

/-- The prompts that have been sent and those that have still to be sent, after a move too. -/
theorem Orderly.counts_step (hregular : Regular pairing seen) (hanyone : Anyone pairing history seen)
    (h : Orderly pairing worker history seen) (htidy' : Tidy pairing worker seen')
    (hs : Seen.Moved seen move seen') (seat : Seat) :
    told (playerOf pairing seat) (history++[(seen,move)])+debts (playerOf pairing seat) seen'=
      if begun (history++[(seen,move)]) then 1 else 0 := by
  have hbefore := h.counts seat
  unfold debts at hbefore ⊢
  rw [told_append,begun_append]
  cases hs with
  | opened entry harrives =>
    rw [List.map_append,List.sum_append,List.map_singleton,List.sum_singleton,debt_start]
    simpa [performs,Seen.performed] using hbefore
  | performed task choice phase o rest world r started htask hphase hp =>
    rw [performs_run htask hphase hp,performs_run htask hphase hp]
    have hset := debts_set (playerOf pairing seat) hphase
      (watcher.next phase o (took choice o seen.config.world) r)
    have hmore : ((started.map watcher.start).toList.map (debt (playerOf pairing seat))).sum=0 := by
      cases started with
      | none => rfl
      | some entry =>
        rw [Option.map_some,Option.toList_some,List.map_singleton,List.sum_singleton,debt_start]
    have hin : ∀ worker' own stage attempt,watcher.next phase o (took choice o seen.config.world) r=
        ⟨.socket worker' own stage,attempt⟩ → IsPlayer pairing own → parted stage=false := by
      intro worker' own stage attempt hnext hplayer
      exact (htidy'.socket ((Seen.getElem?_moved_self hphase).trans (congrArg some hnext))
        hplayer).2.1
    rw [List.map_append,List.sum_append,hmore,Nat.add_zero]
    cases hstarts : starts ⟨task,phase,o,took choice o seen.config.world,r⟩ with
    | false =>
      have hpays := h.pays hregular hanyone (playerOf pairing seat) htask hphase hp hin hstarts
      rw [Bool.or_false]
      omega
    | true =>
      have hpays := h.pays_start hregular hanyone seat htask hphase hp hin hstarts
      rw [Bool.or_true,if_pos rfl]
      omega

/-- The moves keep what is known of such a run. -/
theorem Orderly.step (hregular : Regular pairing seen) (hanyone : Anyone pairing history seen)
    (h : Orderly pairing worker history seen) (htidy' : Tidy pairing worker seen')
    (hs : Seen.Moved seen move seen') : Orderly pairing worker (history++[(seen,move)]) seen' := by
  have htidy : Tidy pairing worker seen := htidy'.before hs
  exact {
    stored := h.stored_step hregular hanyone htidy hs
    sessions := h.sessions.step tracks (fun _ hv => hv.later hs htidy') hs
      fun _ hv => h.plausible_step hregular htidy' hs hv
    alone := fun _ _ _ _ _ hphase hplayer => h.alone_step hanyone htidy hs hphase hplayer
    found := fun _ _ _ _ hphase => h.found_step hs hphase
    room := fun _ _ _ _ _ hphase hplayer hregistered =>
      h.room_step hregular htidy htidy' hs hphase hplayer hregistered
    met := h.met_step hregular htidy htidy' hs
    quiet := fun _ _ hphase hengaged => h.quiet_step hregular htidy
      (fun _ _ _ _ hphase' => (h.alone_step hanyone htidy hs hphase'
        (hanyone.members_step hregular hs hphase' rfl)).2 rfl) hs hphase hengaged
    turn := fun _ _ _ _ _ _ hphase => h.turn_step hregular hs hphase
    counts := h.counts_step hregular hanyone htidy' hs }

/-- At the start nobody has been prompted, and nobody has anything to send. -/
theorem orderly_initial : Orderly pairing worker [] (Seen.initial watcher (initial pairing)) where
  stored := ⟨pairing.session,rfl,nofun,fun _ => rfl⟩
  sessions := by
    refine ⟨fun session hsession => ?_,fun _ _ hphase => nomatch hphase⟩
    cases hsession
    refine ⟨⟨rfl,rfl⟩,nofun,nofun,fun seat hpending => ?_⟩
    cases seat <;> cases hpending
  alone := fun _ _ _ _ _ hphase => nomatch hphase
  found := fun _ _ _ _ hphase => nomatch hphase
  room := fun _ _ _ _ _ hphase => nomatch hphase
  met hcounted := by
    obtain ⟨_,_,_,_,hphase,-⟩ := hcounted .first
    cases hphase
  quiet := fun _ _ hphase => nomatch hphase
  turn := fun _ _ _ _ _ _ hphase => nomatch hphase
  counts := fun _ => rfl

end Orderly

section Runs

variable {pairing : Pairing} {moves : List workers.Move} {seen : Seen watcher}

/-- What is known of a run. -/
theorem orderly_of_run (worker : Worker)
    (hrun : (Seen.initial watcher (initial pairing)).run moves=some seen) :
    Anyone pairing (momentsOf pairing moves) seen ∧
      (Tidy pairing worker seen → Orderly pairing worker (momentsOf pairing moves) seen) := by
  refine along (F := fun _ _ => True) (I := fun history seen => Anyone pairing history seen ∧
    (Tidy pairing worker seen → Orderly pairing worker history seen)) ?_ hrun
    (Seen.meets_of_forall fun _ _ => True.intro) ⟨anyone_initial,fun _ => orderly_initial⟩
  rintro history seen seen' move hregular ⟨hanyone,horderly⟩ - hs
  exact ⟨hanyone.step hregular hs,fun htidy =>
    (horderly (htidy.before hs)).step hregular hanyone htidy hs⟩

/-- Once the handlers of both players are through with connecting and neither has failed or
left, the match has been started, and each of them has been prompted once for the first
turn. -/
def StartsOnce (pairing : Pairing) (history : List Moment) (seen : Seen watcher) : Prop :=
  Unbroken pairing seen → (∀ seat,Has pairing seen seat isPlaying) →
  seen.config.world.value.any (fun session => session.started)=true ∧
    ∀ seat,told (playerOf pairing seat) history=1

/-- Two players who open one socket each to the same worker are through with connecting only
when the match has been started and each has been prompted once. -/
theorem startsOnce_of_run {worker : Worker}
    (hrun : (Seen.initial watcher (initial pairing)).run moves=some seen)
    (htogether : Together pairing worker seen) :
    StartsOnce pairing (momentsOf pairing moves) seen := by
  intro hunbroken hplaying
  have htidy : Tidy pairing worker seen := ⟨htogether,hunbroken⟩
  obtain ⟨hanyone,horderly⟩ := orderly_of_run worker hrun
  have h := horderly htidy
  have hbegun := h.begun_of_playing htidy hplaying
  obtain ⟨session,hsession,hstarted,-⟩ := h.stored
  refine ⟨by rw [hsession]; exact hstarted hbegun,fun seat => ?_⟩
  -- nobody has a prompt left to send
  have hdebts : debts (playerOf pairing seat) seen=0 := by
    apply List.sum_eq_zero_iff_forall_eq_nat.mpr
    intro debt hdebt
    obtain ⟨⟨control,attempt⟩,hmem,rfl⟩ := List.mem_map.mp hdebt
    obtain ⟨task,hphase⟩ := List.getElem?_of_mem hmem
    cases control with
    | turnTimer | forfeitTimer => rfl
    | socket worker' player stage =>
      apply debt_other
      rintro turn untold rfl
      obtain ⟨seat',rfl⟩ := hanyone.members task worker' player _ attempt hphase rfl
      obtain ⟨task',worker'',stage',attempt',hphase',hstage'⟩ := hplaying seat'
      cases (htidy.socket hphase ⟨seat',rfl⟩).2.2 hphase'
      cases hphase.symm.trans hphase'
      cases hstage'
  have hcounts := h.counts seat
  rwa [hbegun,hdebts] at hcounts

/-- The prompts of a match. In a run in which no handler comes to prompt on a session that
misses a player, turns are prompted and timed only after both players have connected. When
each player has opened one socket, both of them to the same worker, and both handlers are
through with connecting, the match has been started and each player has been prompted once
for the first turn. -/
theorem both_prompted_once (pairing : Pairing) {moves : List workers.Move} {seen : Seen watcher}
    (hrun : (Seen.initial watcher (initial pairing)).run moves=some seen) :
    (Meets (fun _ => Complete) (momentsOf pairing moves) →
      Meets (AfterBoth pairing) (momentsOf pairing moves)) ∧
    ((∃ worker,Together pairing worker seen) →
      StartsOnce pairing (momentsOf pairing moves) seen) :=
  ⟨opened_after_both pairing hrun,fun ⟨_,htogether⟩ => startsOnce_of_run hrun htogether⟩

end Runs

section Instances

/-- The handlers of the two players, who play, and perhaps a turn timer. -/
def pair (worker worker' : Worker) (timers : List Phase) : List Phase :=
  ⟨.socket worker (.small 1) (.playing .idle false),.idle⟩::
    ⟨.socket worker' (.small 2) (.playing .idle false),.idle⟩::timers

/-- The sockets among them. -/
theorem sockets_of_pair {worker worker' own : Worker} {timers : List Phase} {task : TaskId}
    {player : UUID} {stage : Stage} {attempt : Attempt PvPSessionState}
    (htimers : ∀ phase∈timers,∃ worker stage,phase.control=.turnTimer worker stage)
    (h : (pair worker worker' timers)[task]?=some ⟨.socket own player stage,attempt⟩) :
    stage=.playing .idle false ∧ (task=0 ∧ own=worker ∧ player=.small 1 ∨
      task=1 ∧ own=worker' ∧ player=.small 2) := by
  match task,h with
  | 0,h =>
    cases h
    exact ⟨rfl,.inl ⟨rfl,rfl,rfl⟩⟩
  | 1,h =>
    cases h
    exact ⟨rfl,.inr ⟨rfl,rfl,rfl⟩⟩
  | task+2,h =>
    obtain ⟨_,_,he⟩ := htimers _ (List.mem_of_getElem? h)
    cases he

/-- Both handlers play. -/
theorem playing_of_pair {seen : Seen watcher} {worker worker' : Worker} {timers : List Phase}
    (h : seen.phases=pair worker worker' timers) (seat : Seat) :
    Has .small seen seat isPlaying := by
  unfold Has
  rw [h]
  cases seat with
  | first => exact ⟨0,worker,_,_,rfl,rfl⟩
  | second => exact ⟨1,worker',_,_,rfl,rfl⟩

/-- Both players connect to the same worker, and the second one's handler starts the match. -/
def bothJoin : List workers.Move := opens 1 []::proceeds 0 8++opens 2 []::proceeds 1 14

/-- Each is prompted once, after both have connected. -/
theorem second_connect_prompts : Meets (AfterBoth .small) (momentsOf .small bothJoin) ∧
    ∀ seat,told (playerOf .small seat) (momentsOf .small bothJoin)=1 := by
  have hcomplete : Meets (fun _ => Complete) (momentsOf .small bothJoin) := by decide
  have hrun : ((Seen.initial watcher (initial .small)).run bothJoin).map (fun seen =>
      seen.phases)=some (pair 0 0 [⟨.turnTimer 0 .waiting,.idle⟩]) := by decide
  have htimers : ∀ phase∈[(⟨.turnTimer 0 .waiting,.idle⟩ : Phase)],
      ∃ worker stage,phase.control=.turnTimer worker stage := by simp
  obtain ⟨seen,hseen,hphases⟩ := Option.map_eq_some_iff.mp hrun
  obtain ⟨hafter,honce⟩ := both_prompted_once .small hseen
  refine ⟨hafter hcomplete,(honce ⟨0,?_⟩ ?_ (playing_of_pair hphases)).2⟩
  · intro task worker player stage attempt hphase _
    rw [hphases] at hphase
    obtain ⟨-,hfirst⟩ := sockets_of_pair htimers hphase
    refine ⟨by obtain ⟨-,h,-⟩ | ⟨-,h,-⟩ := hfirst <;> exact h,?_⟩
    intro task' worker' stage' attempt' hphase'
    rw [hphases] at hphase'
    obtain ⟨-,hsecond⟩ := sockets_of_pair htimers hphase'
    have hdistinct : UUID.small 1≠UUID.small 2 := by decide
    obtain ⟨rfl,-,rfl⟩ | ⟨rfl,-,rfl⟩ := hfirst
    · exact (hsecond.resolve_right fun h => hdistinct h.2.2).1
    · exact (hsecond.resolve_left fun h => hdistinct h.2.2.symm).1
  · intro task worker player stage attempt hphase _
    rw [hphases] at hphase
    rw [(sockets_of_pair htimers hphase).1]
    rfl

/-- The players connect to two workers. -/
def apart : List workers.Move :=
  opens 1 []::proceeds 0 8++.open (.gameWs 1 (.small 2) [])::proceeds 1 8

/-- Each worker counts one player in its room, and nobody starts the match. -/
theorem apart_never_started : ¬∀ (pairing : Pairing) (moves : List workers.Move)
    (seen : Seen watcher),(Seen.initial watcher (initial pairing)).run moves=some seen →
      Meets (AfterBoth pairing) (momentsOf pairing moves) ∧
        StartsOnce pairing (momentsOf pairing moves) seen := by
  intro h
  have hrun : ((Seen.initial watcher (initial .small)).run apart).map (fun seen =>
      (seen.phases,seen.config.world.value.any fun session => session.started))=
        some (pair 0 1 [],false) := by decide
  obtain ⟨seen,hseen,hphases⟩ := Option.map_eq_some_iff.mp hrun
  obtain ⟨hphases,hstarted⟩ := Prod.mk.inj hphases
  have hunbroken : Unbroken .small seen := by
    intro task worker player stage attempt hphase _
    rw [hphases] at hphase
    rw [(sockets_of_pair (fun _ hmem => absurd hmem List.not_mem_nil) hphase).1]
    rfl
  obtain ⟨hstarts,-⟩ := (h .small apart seen hseen).2 hunbroken (playing_of_pair hphases)
  rw [hstarted] at hstarts
  cases hstarts

-- Player 2's socket is in the room, which is enough for player 1's handler to start the match;
-- but he has not connected yet.
example : ¬Meets (AfterBoth .small)
    (momentsOf .small (opens 1 []::opens 2 []::proceeds 1 3++proceeds 0 14)) := by decide

end Instances

end KiClash.FirstPrompts

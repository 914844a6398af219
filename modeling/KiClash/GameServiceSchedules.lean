import KiClash.GameServiceTurns
import Mathlib.Data.List.Nodup

/-!
# Any interleaving of requests

The requests on an AI game in any order of their statements. They can be put in the order
in which the engine resolves their turns. A request that plays a turn inside a round has
only the row of its turn left to commit, which nobody else reads. One that ends a round or
the match keeps everybody else out until it has committed, because the next round has no
row before that. So in the end the game, the rows and the statistics are those of the
requests one after another.
-/

namespace KiClash.GameServiceSchedules

open EngineTypes OutcomeMatrix Engine EngineRuns AsyncTasks Histories GameService
open GameServiceRuns GameServiceOrders GameServiceTurns

section Histories

variable {gameId : UUID} {history : List Moment} {moment : Moment}

/-- A moment that is not an accepted turn adds no turn. -/
theorem turns_idle (h : accepted moment=none) :
    turns gameId (history++[moment])=turns gameId history := by
  simp only [turns,List.filterMap_append,List.filterMap_cons,List.filterMap_nil,h,Option.bind_none,
    List.append_nil]

/-- An accepted one does. -/
theorem turns_accepted {report : TurnReport} {number : ℤ} (h : accepted moment=some report)
    (hopen : openRound moment.service gameId=some number) :
    turns gameId (history++[moment])=turns gameId history++[(number,report.turnResult)] := by
  simp only [turns,List.filterMap_append,List.filterMap_cons,List.filterMap_nil,h,hopen,
    Option.bind_some,Option.map_some]

/-- Nor does it end the match. -/
theorem ending_idle (h : accepted moment=none) : ending (history++[moment])=ending history := by
  obtain ⟨task,op,service⟩ := moment
  have hlast : ending [⟨task,op,service⟩]=none := by
    cases op with
    | resolve submit aiAction => simp only [ending,List.findSome?_cons,List.findSome?_nil,h,Option.bind_none]
    | _ => rfl
  have hall : ending (history++[⟨task,op,service⟩])=
      (ending history).or (ending [⟨task,op,service⟩]) := List.findSome?_append
  rw [hall,hlast]
  cases ending history <;> rfl

/-- An accepted turn may. -/
theorem ending_accepted {task : ℕ} {submit : Submit} {aiAction : Action} {service : Service}
    {report : TurnReport} (h : accepted ⟨task,.resolve submit aiAction,service⟩=some report) :
    ending (history++[⟨task,.resolve submit aiAction,service⟩])=
      (ending history).or (report.matchResult.map fun result => (submit.playerId,result.winner)) := by
  have hlast : ending [⟨task,.resolve submit aiAction,service⟩]=
      report.matchResult.map fun result => (submit.playerId,result.winner) := by
    simp only [ending,List.findSome?_cons,List.findSome?_nil,h,Option.bind_some]
    cases report.matchResult <;> rfl
  rw [←hlast]
  exact List.findSome?_append

/-- What a request has found does not change with what others do, or with what it does
itself after the checks. -/
theorem found_other {task : ℕ} (h : ∀ submit,moment.op=.check submit → moment.task≠task) :
    found task (history++[moment])=found task history := by
  obtain ⟨task',op,service⟩ := moment
  unfold found
  rw [List.filterMap_append]
  cases op with
  | check submit =>
    have hne : task'≠task := h submit rfl
    simp only [List.filterMap_cons,List.filterMap_nil,if_neg hne,List.append_nil]
  | _ => simp only [List.filterMap_cons,List.filterMap_nil,List.append_nil]

/-- What it has found when its checks have passed. -/
theorem found_check {task : ℕ} {submit : Submit} {service : Service} {finds : ℤ×Action}
    (h : checked service submit=.ok finds) :
    found task (history++[⟨task,.check submit,service⟩])=some finds := by
  unfold found
  rw [List.filterMap_append]
  simp only [List.filterMap_cons,List.filterMap_nil,if_true,h,Except.toOption,
    List.getLast?_append,List.getLast?_singleton,Option.some_or]

end Histories

section Requests

variable {game : NewGame} {submits : List Submit} {order : List ℕ} {service service' : Service}
  {state state' : GameState} {closing : Option ℕ} {finds : Option (ℤ×Action)} {submit : Submit}
  {player : Stats} {row : RoundRow}

/-- The game after the requests of an order. -/
abbrev serial (game : NewGame) (submits : List Submit) (order : List ℕ) : Service :=
  serveAll (calls submits order) game.service

/-- The rest of a request that has passed its checks. -/
def afterCheck (submit : Submit) (player : Stats) (number : ℤ) (aiAction : Action) :
    Coroutine Unit :=
  getCurrentRoundDb submit.gameId number >>= fun row =>
    perform (.resolve submit aiAction) >>= fun report => afterTurn submit player row report

/-- The rest once it has loaded the player. -/
def afterLoad (submit : Submit) (player : Stats) : Coroutine Unit :=
  perform (.check submit) >>= fun finds => afterCheck submit player finds.1 finds.2

/-- The player has been loaded as he is until the match is over. -/
def Loaded (game : NewGame) (state : GameState) (submit : Submit) (player : Stats) : Prop :=
  state.status=.inProgress → game.before.db.players submit.playerId=some player

/-- A row that a request has looked up is that of the round, if nobody has closed it. -/
def Known (gameId : UUID) (service : Service) (state : GameState) (closing : Option ℕ)
    (number : ℤ) (row : RoundRow) : Prop :=
  closing=none ∧ lookup service gameId number=[row] ∨ Past state number

/-- What a request has left to do that has not come to its turn. -/
inductive Waits (game : NewGame) (service : Service) (state : GameState) (closing : Option ℕ)
    (finds : Option (ℤ×Action)) (submit : Submit) (p : Coroutine Unit) : Prop
  | calls (hp : p=handler (.submitAction submit))
  | loaded (player : Stats) (hplayer : Loaded game state submit player)
      (hp : p=afterLoad submit player)
  | checked (player : Stats) (number : ℤ) (aiAction : Action)
      (hplayer : Loaded game state submit player) (hfinds : finds=some (number,aiAction))
      (hp : p=afterCheck submit player number aiAction)
  | ready (player : Stats) (number : ℤ) (aiAction : Action) (row : RoundRow)
      (hplayer : Loaded game state submit player) (hfinds : finds=some (number,aiAction))
      (hrow : Known game.gameId service state closing number row)
      (hp : p=(perform (.resolve submit aiAction) >>= fun report =>
        afterTurn submit player row report))
  | failed (exc : Exc) (hp : p=.done (.error exc))

/-- It waits on while the match goes on and its round is not closed unnoticed. -/
theorem Waits.later {p : Coroutine Unit} {closing' : Option ℕ}
    (h : Waits game service state closing finds submit p)
    (hstatus : state'.status=.inProgress → state.status=.inProgress)
    (hknown : ∀ number row,Known game.gameId service state closing number row →
      Known game.gameId service' state' closing' number row) :
    Waits game service' state' closing' finds submit p := by
  cases h with
  | calls hp => exact .calls hp
  | loaded player hplayer hp => exact .loaded player (hplayer∘hstatus) hp
  | checked player number aiAction hplayer hfinds hp =>
    exact .checked player number aiAction (hplayer∘hstatus) hfinds hp
  | ready player number aiAction row hplayer hfinds hrow hp =>
    exact .ready player number aiAction row (hplayer∘hstatus) hfinds (hknown number row hrow) hp
  | failed exc hp => exact .failed exc hp

/-- A request is what it does before its player is loaded, and after that. -/
theorem handler_afterLoad (submit : Submit) : handler (.submitAction submit)=
    (getCurrentPlayer submit.playerId >>= afterLoad submit) := handler_eq submit

/-- A request that comes to its turn when it is served alone. -/
theorem serve_eq {number : ℤ} {aiAction : Action} {report : TurnReport}
    (hplayer : service.db.players submit.playerId=some player)
    (hchecked : checked service submit=.ok (number,aiAction))
    (hrow : lookup service submit.gameId number=[row])
    (hresolved : resolved service submit aiAction=(service',.ok report)) :
    serve (.submitAction submit) [] service=
      alone (afterTurn submit player row report) [] service' := by
  have hload : effect service (.selectPlayer submit.playerId)=(service,.ok (some player)) := by
    simp only [effect,hplayer]
  have hcheck : effect service (.check submit)=(service,.ok (number,aiAction)) := by
    simp only [effect,hchecked]
  have hlookup : effect service (.selectRound submit.gameId number)=(service,.ok [row]) := by
    rw [←hrow]
    rfl
  have hturn : effect service (.resolve submit aiAction)=(service',.ok report) := hresolved
  unfold serve
  rw [handler_afterLoad,getCurrentPlayer,Prog.bind_assoc,alone_ok hload]
  change alone (afterLoad submit player) [] service=_
  rw [afterLoad,alone_ok hcheck,afterCheck,getCurrentRoundDb,Prog.bind_assoc,alone_ok hlookup]
  change alone (perform (.resolve submit aiAction) >>= fun report =>
    afterTurn submit player row report) [] service=_
  rw [alone_ok hturn]

/-- The order with one more request. -/
theorem calls_concat {task : ℕ} (hsubmit : submits[task]?=some submit) :
    calls submits (order++[task])=calls submits order++[(.submitAction submit,[])] := by
  rw [calls,List.filterMap_append]
  simp only [List.filterMap_cons,List.filterMap_nil,hsubmit,Option.map_some]
  rfl

/-- One more request is served. -/
theorem serveAll_concat (earlier : List Call) (call : Call) (service : Service) :
    serveAll (earlier++[call]) service=(serve call.1 call.2 (serveAll earlier service)).1 := by
  induction earlier generalizing service with
  | nil => rfl
  | cons first earlier ih => exact ih _

/-- It finds what the others leave behind. -/
theorem steps_concat (earlier : List Call) (call : Call) (service : Service) :
    steps (earlier++[call]) service=
      steps earlier service++[(serveAll earlier service,call.1,call.2)] := by
  induction earlier generalizing service with
  | nil => rfl
  | cons first earlier ih => exact congrArg _ (ih _)

end Requests

section Runs

variable {game : NewGame} {submits : List Submit} {history : List Moment} {order : List ℕ}
  {late : List (ℕ×TurnRow)} {closing : Option ℕ} {held : Held} {config config' : requests.Config}
  {task : ℕ}

/-- The commit of a turn inside a round. -/
def commits (row : TurnRow) : Coroutine Unit := perform (.commit [.insertTurn row])

/-- The flush before it. -/
def flushes (row : TurnRow) : Coroutine Unit :=
  perform (.flush [.insertTurn row]) >>= fun _ => commits row

/-- How the rows differ from those of the requests one after another: turns are missing
that are still to be committed, and what the request writes that closes a round. -/
inductive Phase (game : NewGame) (service : Service) (rows : List TurnRow) (held : Held)
    (config : requests.Config) : Option ℕ → Prop
  | level (hlacks : Lacks rows config.world service) : Phase game service rows held config none
  | closing (task : ℕ) (q : Coroutine (List Write))
      (htask : config.tasks[task]?=some (q >>= fun writes => perform (.commit writes)))
      (hprepares : q.All Prepares)
      (hok : (alone (q >>= fun writes => perform (.commit writes)) [] config.world).2=.ok ())
      (hlacks : Lacks rows
        (alone (q >>= fun writes => perform (.commit writes)) [] config.world).1 service)
      (hplayers : config.world.db.players=game.before.db.players)
      (hrows : ∀ round,held.state.currentRound=some round → ∀ row∈config.world.db.roundRows,
        row.matchId=game.gameId → row.roundNumber<round.roundNumber)
      (hstate : (config.world.games game.gameId).map Held.state=some held.state) :
      Phase game service rows held config (some task)

/-- The requests in the order of their turns, with the turns that are still to be
committed and the request that is closing a round. -/
structure Stands (game : NewGame) (submits : List Submit) (history : List Moment)
    (order : List ℕ) (late : List (ℕ×TurnRow)) (closing : Option ℕ) (held : Held)
    (config : requests.Config) : Prop where
  /-- Nobody plays two turns. -/
  nodup : order.Nodup
  /-- The requests have come. -/
  bound : ∀ task∈order,task<config.tasks.length
  /-- What they leave behind one after another. -/
  tidy : Tidy game (turns game.gameId history) (ending history) held (serial game submits order)
  /-- All of them succeed so. -/
  served : ∀ step∈steps (calls submits order) game.service,(serve step.2.1 step.2.2 step.1).2=.ok ()
  /-- The keys of the rounds. -/
  keys : ∀ row∈(serial game submits order).db.roundRows,
    (∃ old∈game.before.db.roundRows,old.id=row.id) ∨ row.id=game.roundId ∨
      ∃ task∈order,∃ submit,submits[task]?=some submit ∧ row.id=submit.roundId
  /-- The others wait for their turns, or have failed. -/
  waits : ∀ task p,config.tasks[task]?=some p → task∉order → ∃ submit,submits[task]?=some submit ∧
    Waits game (serial game submits order) held.state closing (found task history) submit p
  /-- The turns that are still to be committed. -/
  later : ∀ entry∈late,entry.1∈order ∧ (config.tasks[entry.1]?=some (flushes entry.2) ∨
    config.tasks[entry.1]?=some (commits entry.2))
  /-- Each is one of its own. -/
  single : (late.map Prod.fst).Nodup
  /-- Who has played his turn commits it, closes the round or is done. -/
  rest : ∀ task∈order,(∃ row,(task,row)∈late) ∨ closing=some task ∨
    config.tasks[task]?=some (.done (.ok ()))
  /-- One request at most closes a round, and it has played its turn. -/
  closer : ∀ task,closing=some task → task∈order ∧ task∉late.map Prod.fst
  /-- The rows. -/
  phase : Phase game (serial game submits order) (late.map Prod.snd) held config closing

/-- A move of a request performs its next operation. -/
theorem move_run (h : config.step (.run task .proceeds)=some config') :
    ∃ o next,config.tasks[task]?=some (.op o next) ∧
      moment config (.run task .proceeds)=some ⟨task,o,config.world⟩ ∧
      config'=⟨(effect config.world o).1,config.tasks.set task (next (effect config.world o).2)⟩ := by
  simp only [System.Config.step] at h
  split at h
  · next o next htask =>
    rw [Option.map_eq_some_iff] at h
    obtain ⟨result,hresult,rfl⟩ := h
    simp only [requests,Bool.or_true,if_true,decide_true,turnsOut_proceeds] at hresult
    cases hresult
    refine ⟨o,next,htask,?_,?_⟩
    · simp only [moment,htask]
    · simp only [Option.map_none,Option.toList_none,List.append_nil]
  · cases h

/-- What the game is, whoever is closing a round. -/
theorem Phase.state {service : Service} {rows : List TurnRow} {turns : List (ℤ×TurnResult)}
    {ending : Option (UUID×RoundWinner)} (h : Phase game service rows held config closing)
    (htidy : Tidy game turns ending held service) :
    (config.world.games game.gameId).map Held.state=some held.state := by
  cases h with
  | level hlacks => rw [←hlacks.games,htidy.inMemory,Option.map_some]
  | closing task q htask hprepares hok hlacks hplayers hrows hstate => exact hstate

/-- The phase does not depend on what the other requests have left to do. -/
theorem Phase.tasks {service : Service} {rows : List TurnRow}
    (h : Phase game service rows held config closing) (hworld : config'.world=config.world)
    (htasks : ∀ task,closing=some task → config'.tasks[task]?=config.tasks[task]?) :
    Phase game service rows held config' closing := by
  cases h with
  | level hlacks =>
    rw [←hworld] at hlacks
    exact .level hlacks
  | closing task q htask hprepares hok hlacks hplayers hrows hstate =>
    rw [←htasks task rfl] at htask
    rw [←hworld] at hok hlacks hplayers hrows hstate
    exact .closing task q htask hprepares hok hlacks hplayers hrows hstate

/-- A request that waits for its turn goes on waiting or fails, and changes nothing. -/
theorem Stands.waiting {moment : Moment} {p p' : Coroutine Unit}
    (h : Stands game submits history order late closing held config) (hout : task∉order)
    (htask : config.tasks[task]?=some p)
    (hconfig : config'=⟨config.world,config.tasks.set task p'⟩) (hidle : accepted moment=none)
    (hmoment : moment.task=task)
    (hwaits : ∀ submit,submits[task]?=some submit →
      Waits game (serial game submits order) held.state closing (found task history) submit p →
      Waits game (serial game submits order) held.state closing (found task (history++[moment]))
        submit p') :
    Stands game submits (history++[moment]) order late closing held config' := by
  subst hconfig
  have hother : ∀ other,other∈order → (config.tasks.set task p')[other]?=config.tasks[other]? := by
    intro other hin
    refine List.getElem?_set_ne fun heq => ?_
    rw [heq] at hout
    exact hout hin
  have hlength : (config.tasks.set task p').length=config.tasks.length := List.length_set
  refine ⟨h.nodup,?_,?_,h.served,h.keys,?_,?_,h.single,?_,h.closer,?_⟩
  · dsimp only
    rw [hlength]
    exact h.bound
  · rw [turns_idle hidle,ending_idle hidle]
    exact h.tidy
  · intro other q hq hother
    by_cases heq : task=other
    · subst heq
      obtain ⟨submit,hsubmit,hp⟩ := h.waits task p htask hout
      have hlt := (List.getElem?_eq_some_iff.mp htask).1
      rw [List.getElem?_set_self hlt] at hq
      cases hq
      exact ⟨submit,hsubmit,hwaits submit hsubmit hp⟩
    · rw [List.getElem?_set_ne heq] at hq
      rw [found_other fun _ _ => by rw [hmoment]; exact heq]
      exact h.waits other q hq hother
  · intro entry hentry
    dsimp only
    rw [hother _ (h.later entry hentry).1]
    exact h.later entry hentry
  · intro other hin
    dsimp only
    rw [hother other hin]
    exact h.rest other hin
  · exact h.phase.tasks rfl fun closer hcloser => hother closer (h.closer closer hcloser).1

/-- While the match goes on nobody's statistics have changed. -/
theorem Stands.players (h : Stands game submits history order late closing held config)
    (hstatus : held.state.status=.inProgress) :
    config.world.db.players=game.before.db.players := by
  have hending := unended h.tidy hstatus
  have hplayers := h.tidy.kept.players
  rw [hending] at hplayers
  cases h.phase with
  | level hlacks => exact hlacks.players.symm.trans hplayers
  | closing task q htask hprepares hok hlacks hplayers hrows hstate => exact hplayers

/-- The row that is looked up is the one that the request needs. -/
theorem Stands.known {number : ℤ} {row : RoundRow}
    (h : Stands game submits history order late closing held config)
    (hrow : lookup config.world game.gameId number=[row]) :
    Known game.gameId (serial game submits order) held.state closing number row := by
  cases h.phase with
  | level hlacks =>
    refine .inl ⟨rfl,?_⟩
    rw [←hrow]
    simp only [lookup,hlacks.roundRows]
  | closing task q htask hprepares hok hlacks hplayers hrows hstate =>
    obtain ⟨hin,hmatch,hnumber⟩ := mem_of_lookup hrow
    refine .inr fun round hround => ?_
    rw [←hnumber]
    exact hrows round hround row hin hmatch

/-- A turn that is refused changes nothing. -/
theorem resolved_error {service service' : Service} {submit : Submit} {aiAction : Action} {exc : Exc}
    (h : resolved service submit aiAction=(service',.error exc)) : service'=service := by
  unfold resolved at h
  split at h
  · cases h
    rfl
  · next held hheld =>
    obtain ⟨e,hturn,-⟩ | ⟨-,round,state',report,-,-,hturn,-⟩ :=
      submitTurn_cases held.state submit.action aiAction
    · rw [hturn] at h
      cases h
      exact hold_self hheld
    · rw [hturn] at h
      cases h

/-- An operation at the beginning of a coroutine. -/
theorem op_eq {o o' : ServiceOp} {next : Except Exc o.Res → Coroutine Unit}
    {f : o'.Res → Coroutine Unit} (h : Prog.op o next=perform o' >>= f) (world : Service) :
    o=o' ∧ next (effect world o).2=(Prog.done (effect world o').2 : Coroutine o'.Res) >>= f := by
  have heq : (Prog.op o next : Coroutine Unit)=Prog.op o' fun r => (Prog.done r : Coroutine _) >>= f := h
  cases heq
  exact ⟨rfl,rfl⟩

/-- A commit is the last operation. -/
theorem op_commit {o : ServiceOp} {next : Except Exc o.Res → Coroutine Unit} {writes : List Write}
    (h : Prog.op o next=(perform (.commit writes) : Coroutine Unit)) (world : Service) :
    o=.commit writes ∧ next (effect world o).2=.done (effect world (.commit writes)).2 := by
  have heq : (Prog.op o next : Coroutine Unit)=Prog.op (S := sig) (ServiceOp.commit writes) .done := h
  cases heq
  exact ⟨rfl,rfl⟩

/-- A request before its turn goes on waiting, or fails. -/
theorem Stands.step_idle {o : ServiceOp} {next : Except Exc o.Res → Coroutine Unit}
    (h : Stands game submits history order late closing held config) (hout : task∉order)
    (hgame : ∀ submit∈submits,submit.gameId=game.gameId)
    (htask : config.tasks[task]?=some (.op o next))
    (hconfig : config'=⟨(effect config.world o).1,
      config.tasks.set task (next (effect config.world o).2)⟩)
    (hidle : accepted ⟨task,o,config.world⟩=none) :
    Stands game submits (history++[⟨task,o,config.world⟩]) order late closing held config' := by
  obtain ⟨submit,hsubmit,hwaits⟩ := h.waits task _ htask hout
  have hmine := hgame submit (List.mem_of_getElem? hsubmit)
  cases hwaits with
  | calls hp =>
    rw [handler_afterLoad,getCurrentPlayer,Prog.bind_assoc] at hp
    obtain ⟨rfl,hnext⟩ := op_eq hp config.world
    refine h.waiting hout htask hconfig hidle rfl fun submit' hsubmit' _ => ?_
    cases hsubmit.symm.trans hsubmit'
    rw [hnext]
    cases hplayer : config.world.db.players submit.playerId with
    | none =>
      simp only [effect,hplayer]
      exact .failed (.notFoundError "Player") rfl
    | some player =>
      simp only [effect,hplayer]
      refine .loaded player (fun hstatus => ?_) rfl
      rw [←h.players hstatus]
      exact hplayer
  | loaded player hplayer hp =>
    obtain ⟨rfl,hnext⟩ := op_eq hp config.world
    refine h.waiting hout htask hconfig hidle rfl fun submit' hsubmit' _ => ?_
    cases hsubmit.symm.trans hsubmit'
    rw [hnext]
    cases hchecked : checked config.world submit with
    | error exc =>
      simp only [effect,hchecked]
      exact .failed exc rfl
    | ok finds =>
      simp only [effect,hchecked]
      exact .checked player finds.1 finds.2 hplayer (found_check hchecked) rfl
  | checked player number aiAction hplayer hfinds hp =>
    rw [afterCheck,getCurrentRoundDb,Prog.bind_assoc] at hp
    obtain ⟨rfl,hnext⟩ := op_eq hp config.world
    refine h.waiting hout htask hconfig hidle rfl fun submit' hsubmit' _ => ?_
    cases hsubmit.symm.trans hsubmit'
    rw [hnext,found_other fun _ hcheck => by cases hcheck]
    have heffect : (effect config.world (.selectRound submit.gameId number)).2=
        .ok (lookup config.world game.gameId number) := by
      rw [←hmine]
      rfl
    rw [heffect]
    rcases hrows : lookup config.world game.gameId number with _ | ⟨row,_ | ⟨row',rows⟩⟩
    · exact .failed (.notFoundError "Round") rfl
    · exact .ready player number aiAction row hplayer hfinds (h.known hrows) rfl
    · exact .failed .multipleResultsFound rfl
  | ready player number aiAction row hplayer hfinds hrow hp =>
    obtain ⟨rfl,hnext⟩ := op_eq hp config.world
    rcases hresolved : resolved config.world submit aiAction with ⟨world,exc | report⟩
    · have hworld := resolved_error hresolved
      have heffect : effect config.world (.resolve submit aiAction)=(world,.error exc) := hresolved
      rw [heffect,hworld] at hconfig
      refine h.waiting hout htask hconfig hidle rfl fun submit' hsubmit' _ => ?_
      have hlast : next (.error exc)=.done (.error exc) := by
        rw [heffect] at hnext
        exact hnext
      exact .failed exc hlast
    · simp only [accepted,hresolved] at hidle
      cases hidle
  | failed exc hp => cases hp

/-- A request that has played its turn moves on; the others have left to do what they had. -/
theorem Stands.moved {moment : Moment} {p' : Coroutine Unit} {late' : List (ℕ×TurnRow)}
    {closing' : Option ℕ} (h : Stands game submits history order late closing held config)
    (hin : task∈order) (hidle : accepted moment=none)
    (hmoment : moment.task=task)
    (htasks : config'.tasks=config.tasks.set task p')
    (hlater : ∀ entry∈late',entry.1=task ∧ p'=commits entry.2 ∨ entry.1≠task ∧ entry∈late)
    (hsingle : (late'.map Prod.fst).Nodup)
    (hlate : ∀ entry∈late,entry.1≠task → entry∈late')
    (htask : (∃ row,(task,row)∈late') ∨ closing'=some task ∨ p'=.done (.ok ()))
    (hclosing : closing'=closing ∨ closing'=none ∧ closing=some task)
    (hcloser : closing'=some task → task∉late'.map Prod.fst)
    (hphase : Phase game (serial game submits order) (late'.map Prod.snd) held config' closing') :
    Stands game submits (history++[moment]) order late' closing' held config' := by
  have hlt := h.bound task hin
  have hself : config'.tasks[task]?=some p' := by
    rw [htasks]
    exact List.getElem?_set_self hlt
  have hother : ∀ other,other≠task → config'.tasks[other]?=config.tasks[other]? := by
    intro other hne
    rw [htasks]
    exact List.getElem?_set_ne fun heq => hne heq.symm
  have hwhose : ∀ closer,closing'=some closer → closing=some closer := by
    intro closer hcloser
    obtain heq | ⟨hnone,-⟩ := hclosing
    · exact heq.symm.trans hcloser
    · cases hnone.symm.trans hcloser
  refine ⟨h.nodup,?_,?_,h.served,h.keys,?_,?_,hsingle,?_,?_,hphase⟩
  · rw [htasks,List.length_set]
    exact h.bound
  · rw [turns_idle hidle,ending_idle hidle]
    exact h.tidy
  · intro other q hq hout
    have hne : other≠task := by
      rintro rfl
      exact hout hin
    rw [hother other hne] at hq
    rw [found_other fun _ _ => by rw [hmoment]; exact hne.symm]
    obtain ⟨submit,hsubmit,hwaits⟩ := h.waits other q hq hout
    refine ⟨submit,hsubmit,hwaits.later id fun number row hknown => ?_⟩
    obtain ⟨hnone,hrow⟩ | hpast := hknown
    · have hnone' : closing'=none := by
        obtain heq | ⟨hnone',-⟩ := hclosing
        · exact heq.trans hnone
        · exact hnone'
      exact .inl ⟨hnone',hrow⟩
    · exact .inr hpast
  · intro entry hentry
    obtain ⟨rfl,rfl⟩ | ⟨hne,hold⟩ := hlater entry hentry
    · exact ⟨hin,.inr hself⟩
    · rw [hother _ hne]
      exact h.later entry hold
  · intro other hother'
    by_cases hne : other=task
    · subst hne
      rw [hself]
      obtain hrow | hclosing | rfl := htask
      · exact .inl hrow
      · exact .inr (.inl hclosing)
      · exact .inr (.inr rfl)
    · rw [hother other hne]
      obtain ⟨row,hrow⟩ | hcloses | hdone := h.rest other hother'
      · exact .inl ⟨row,hlate _ hrow hne⟩
      · obtain heq | ⟨-,hmine⟩ := hclosing
        · exact .inr (.inl (heq.trans hcloses))
        · cases hmine.symm.trans hcloses
          exact absurd rfl hne
      · exact .inr (.inr hdone)
  · intro closer hcloser'
    have hwas := h.closer closer (hwhose closer hcloser')
    refine ⟨hwas.1,fun hmem => ?_⟩
    by_cases hne : closer=task
    · subst hne
      exact hcloser hcloser' hmem
    · obtain ⟨entry,hentry,heq⟩ := List.mem_map.mp hmem
      obtain ⟨hsame,-⟩ | ⟨-,hold⟩ := hlater entry hentry
      · exact hne (heq.symm.trans hsame)
      · exact hwas.2 (List.mem_map.mpr ⟨entry,hold,heq⟩)

/-- The turn of a request reaches the rows. -/
theorem Phase.committed {service : Service} {rows rest : List TurnRow} {row : TurnRow}
    (h : Phase game service rows held config closing) (hrows : rows.Perm (row::rest))
    (hworld : config'.world=⟨config.world.games,config.world.db.write (.insertTurn row)⟩)
    (htasks : ∀ task,closing=some task → config'.tasks[task]?=config.tasks[task]?) :
    Phase game service rest held config' closing := by
  have hadded : Lacks [row] config.world config'.world := by
    rw [hworld]
    exact ⟨rfl,rfl,rfl,List.Perm.refl _,rfl⟩
  cases h with
  | level hlacks => exact .level (hlacks.added hadded hrows)
  | closing task q htask hprepares hok hlacks hplayers hopen hstate =>
    obtain ⟨hresult,hboth⟩ := hadded.alone (q >>= fun writes => perform (.commit writes))
    rw [←htasks task rfl] at htask
    refine .closing task q htask hprepares (hresult.trans hok) (hlacks.added hboth hrows) ?_ ?_ ?_
    · rw [hworld]
      exact hplayers
    · rw [hworld]
      exact hopen
    · rw [hworld]
      exact hstate

/-- A request commits its turn. -/
theorem Stands.step_late {o : ServiceOp} {next : Except Exc o.Res → Coroutine Unit} {row : TurnRow}
    (h : Stands game submits history order late closing held config) (hrow : (task,row)∈late)
    (htask : config.tasks[task]?=some (.op o next))
    (hconfig : config'=⟨(effect config.world o).1,
      config.tasks.set task (next (effect config.world o).2)⟩) :
    ∃ late',Stands game submits (history++[⟨task,o,config.world⟩]) order late' closing held
      config' := by
  obtain ⟨hin,hprogram⟩ := h.later _ hrow
  have hfree : ∀ closer,closing=some closer → closer≠task := by
    rintro closer hcloser rfl
    exact (h.closer closer hcloser).2 (List.mem_map.mpr ⟨_,hrow,rfl⟩)
  have hkeep : ∀ closer,closing=some closer → config'.tasks[closer]?=config.tasks[closer]? := by
    intro closer hcloser
    rw [hconfig]
    exact List.getElem?_set_ne fun heq => hfree closer hcloser heq.symm
  obtain hflush | hcommit := hprogram
  · obtain ⟨rfl,hnext⟩ := op_eq (Option.some.inj (htask.symm.trans hflush)) config.world
    have heffect : effect config.world (.flush [.insertTurn row])=(config.world,.ok ()) := rfl
    rw [hnext,heffect] at hconfig
    refine ⟨late,h.moved hin rfl rfl (by rw [hconfig]) ?_ h.single
      (fun entry hentry _ => hentry) (.inl ⟨row,hrow⟩) (.inl rfl)
      (fun hcloser => absurd rfl (hfree task hcloser)) ?_⟩
    · intro entry hentry
      by_cases hne : entry.1=task
      · refine .inl ⟨hne,?_⟩
        have hpair : entry=(task,row) := by
          exact List.inj_on_of_nodup_map h.single hentry hrow hne
        rw [hpair]
        rfl
      · exact .inr ⟨hne,hentry⟩
    · exact h.phase.tasks (by rw [hconfig]) hkeep
  · obtain ⟨rfl,hnext⟩ := op_commit (Option.some.inj (htask.symm.trans hcommit)) config.world
    have heffect : effect config.world (.commit [.insertTurn row])=
        (⟨config.world.games,config.world.db.write (.insertTurn row)⟩,.ok ()) := rfl
    rw [hnext,heffect] at hconfig
    have hperm := List.perm_cons_erase hrow
    have hnodup := (hperm.map Prod.fst).nodup_iff.mp h.single
    rw [List.map_cons,List.nodup_cons] at hnodup
    refine ⟨late.erase (task,row),h.moved hin rfl rfl (by rw [hconfig])
      ?_ hnodup.2 ?_ (.inr (.inr rfl)) (.inl rfl)
      (fun hcloser => absurd rfl (hfree task hcloser)) ?_⟩
    · intro entry hentry
      refine .inr ⟨?_,List.mem_of_mem_erase hentry⟩
      intro heq
      exact hnodup.1 (List.mem_map.mpr ⟨entry,hentry,heq⟩)
    · intro entry hentry hne
      refine (List.mem_erase_of_ne ?_).mpr hentry
      rintro rfl
      exact hne rfl
    · exact h.phase.committed (hperm.map Prod.snd) (by rw [hconfig]) hkeep

/-- What runs alone begins with its first operation. -/
theorem alone_op {o : ServiceOp} (next : Except Exc o.Res → Coroutine Unit) (service : Service) :
    alone (.op o next) [] service=
      alone (next (effect service o).2) [] (effect service o).1 := by
  simp only [alone,List.headD_nil,List.tail_nil,turnsOut_proceeds]

/-- Nothing that only prepares plays a turn. -/
theorem accepted_prepares {o : ServiceOp} {service : Service} (h : Prepares o) :
    accepted ⟨task,o,service⟩=none := by
  cases o with
  | resolve submit aiAction => exact h.elim
  | _ => rfl

/-- The request that closes a round goes on with it, until it has committed. -/
theorem Stands.step_closing {o : ServiceOp} {next : Except Exc o.Res → Coroutine Unit}
    (h : Stands game submits history order late closing held config) (hclosing : closing=some task)
    (htask : config.tasks[task]?=some (.op o next))
    (hconfig : config'=⟨(effect config.world o).1,
      config.tasks.set task (next (effect config.world o).2)⟩) :
    ∃ closing',Stands game submits (history++[⟨task,o,config.world⟩]) order late closing' held
      config' := by
  obtain ⟨hin,hfree⟩ := h.closer task hclosing
  have hlater : ∀ p',∀ entry∈late,entry.1=task ∧ p'=commits entry.2 ∨ entry.1≠task ∧ entry∈late := by
    intro p' entry hentry
    refine .inr ⟨fun heq => ?_,hentry⟩
    exact hfree (List.mem_map.mpr ⟨entry,hentry,heq⟩)
  have hphase := h.phase
  rw [hclosing] at hphase
  cases hphase with
  | closing task q hprogram hprepares hok hlacks hplayers hrows hstate =>
    have hp := Option.some.inj (htask.symm.trans hprogram)
    rw [←hp,alone_op] at hok hlacks
    cases q with
    | done r =>
      cases r with
      | error exc => cases hp
      | ok writes =>
        obtain ⟨rfl,hnext⟩ := op_commit hp config.world
        rw [hnext] at hok hlacks hconfig
        have hdone : (effect config.world (.commit writes)).2=.ok () := hok
        rw [hdone] at hconfig
        refine ⟨none,h.moved hin rfl rfl (by rw [hconfig])
          (hlater _) h.single (fun entry hentry _ => hentry) (.inr (.inr rfl))
          (.inr ⟨rfl,hclosing⟩) (fun hnone => by cases hnone) (.level ?_)⟩
        rw [hconfig]
        exact hlacks
    | op o' next' =>
      have heq : (Prog.op o next : Coroutine Unit)=
          Prog.op o' fun r => next' r >>= fun writes => perform (.commit writes) := hp
      cases heq
      have hall : Prepares o ∧ ∀ r,(next' r).All Prepares := hprepares
      refine ⟨some task,h.moved hin (accepted_prepares hall.1) rfl (by rw [hconfig]) (hlater _)
        h.single (fun entry hentry _ => hentry) (.inr (.inl rfl)) (.inl hclosing.symm)
        (fun _ => hfree) ?_⟩
      have hself : config'.tasks[task]?=some (next' (effect config.world o).2 >>= fun writes =>
          perform (.commit writes)) := by
        rw [hconfig]
        exact List.getElem?_set_self (h.bound task hin)
      have hworld : config'.world=(effect config.world o).1 := by
        rw [hconfig]
      have hdb : (effect config.world o).1.db=config.world.db := effect_db hall.1
      refine .closing task _ hself (hall.2 _) ?_ ?_ ?_ ?_ ?_
      · rw [hworld]
        exact hok
      · rw [hworld]
        exact hlacks
      · rw [hworld,hdb]
        exact hplayers
      · rw [hworld,hdb]
        exact hrows
      · rw [hworld,effect_view lasting_state (keeps_of_prepares hall.1)]
        exact hstate

/-- A row that is known stays known over the turn of another request, or its round is past. -/
theorem known_later {turns : List (ℤ×TurnResult)} {ending : Option (UUID×RoundWinner)}
    {service service' : Service} {submit : Submit} {number number' : ℤ} {report : TurnReport}
    {held' : Held} {row : RoundRow} (htidy : Tidy game turns ending held service)
    (hadvanced : Advanced game turns ending service submit number report held' service')
    (hopen : held.state.currentRound.map RoundState.roundNumber=some number)
    (hclosing : report.roundResult=none → closing=none)
    (hknown : Known game.gameId service held.state none number' row) :
    Known game.gameId service' held'.state closing number' row := by
  obtain ⟨round,hround,hnumber⟩ := Option.map_eq_some_iff.mp hopen
  cases hresult : report.roundResult with
  | none =>
    obtain ⟨hrows,hsame⟩ := hadvanced.goesOn hresult
    obtain ⟨-,hrow⟩ | hpast := hknown
    · refine .inl ⟨hclosing hresult,?_⟩
      rw [←hrow]
      simp only [lookup,hrows]
    · refine .inr fun round' hround' => ?_
      rw [hround'] at hsame
      have heq : round'.roundNumber=number := Option.some.inj hsame
      have hlt := hpast round hround
      omega
  | some result =>
    have hcloses := hadvanced.closes (by rw [hresult]; exact Option.some_ne_none result)
    have hle : number' ≤ number := by
      obtain ⟨-,hrow⟩ | hpast := hknown
      · by_contra hlt
        have hbehind : round.roundNumber<number' := by omega
        have hnone := htidy.lookup_later hround hbehind
        cases hrow.symm.trans hnone
      · have hlt := hpast round hround
        omega
    refine .inr fun round' hround' => ?_
    have hlt := hcloses round' hround'
    omega

/-- The key of the round that a request may create is still free. -/
theorem Stands.fresh {submit : Submit}
    (h : Stands game submits history order late closing held config) (hfresh : Fresh game submits)
    (hout : task∉order) (hsubmit : submits[task]?=some submit) :
    ∀ row∈(serial game submits order).db.roundRows,row.id≠submit.roundId := by
  intro row hrow heq
  have hin := List.mem_of_getElem? hsubmit
  obtain ⟨old,hold,hid⟩ | hid | ⟨other,hother,submit',hsubmit',hid⟩ := h.keys row hrow
  · exact hfresh.older submit hin old hold (hid.trans heq)
  · exact hfresh.first submit hin (heq.symm.trans hid)
  · have hlt : task<(submits.map Submit.roundId).length := by
      rw [List.length_map]
      exact (List.getElem?_eq_some_iff.mp hsubmit).1
    have hsame : (submits.map Submit.roundId)[task]?=(submits.map Submit.roundId)[other]? := by
      rw [List.getElem?_map,List.getElem?_map,hsubmit,hsubmit',Option.map_some,Option.map_some,
        ←heq,hid]
    rw [(List.getElem?_inj hlt hfresh.nodup).mp hsame] at hout
    exact hout hother

/-- A request plays its turn: what it finds in the rows and in those of the requests one
after another, and what it leaves behind there. -/
structure Played (game : NewGame) (submits : List Submit) (history : List Moment)
    (order : List ℕ) (late : List (ℕ×TurnRow)) (held : Held) (config : requests.Config) (task : ℕ)
    (submit : Submit) (player : Stats) (row : RoundRow) (number : ℤ) (aiAction : Action)
    (report : TurnReport) (held' : Held) (world service₁ service' : Service) : Prop where
  /-- It has not played before. -/
  out : task∉order
  /-- It has come. -/
  running : task<config.tasks.length
  /-- The request. -/
  submitted : submits[task]?=some submit
  /-- Its player. -/
  loaded : (serial game submits order).db.players submit.playerId=some player
  /-- Its checks. -/
  checks : checked (serial game submits order) submit=.ok (number,aiAction)
  /-- The row of its round. -/
  found : lookup (serial game submits order) submit.gameId number=[row]
  /-- The game goes on. -/
  inProgress : held.state.status=.inProgress
  /-- The open round. -/
  opened : held.state.currentRound.map RoundState.roundNumber=some number
  /-- It is the one in memory. -/
  openRound : openRound config.world game.gameId=some number
  /-- The turn in memory. -/
  inMemory : resolved config.world submit aiAction=(world,.ok report)
  /-- The turn after the others. -/
  inOrder : resolved (serial game submits order) submit aiAction=(service₁,.ok report)
  /-- They differ as before. -/
  lacks : Lacks (late.map Prod.snd) world service₁
  /-- The state after it. -/
  state : (service₁.games game.gameId).map Held.state=some held'.state
  /-- The rest of the request. -/
  alone : alone (afterTurn submit player row report) [] service₁=(service',.ok ())
  /-- The rows say what has been played. -/
  advanced : Advanced game (turns game.gameId history) (ending history)
    (serial game submits order) submit number report held' service'

variable {submit : Submit} {player : Stats} {row : RoundRow} {number : ℤ} {aiAction : Action}
  {report : TurnReport} {held' : Held} {world service₁ service' : Service}

/-- The moment is an accepted turn. -/
theorem Played.accepted (hplayed : Played game submits history order late held config task submit
    player row number aiAction report held' world service₁ service') :
    accepted ⟨task,.resolve submit aiAction,config.world⟩=some report := by
  simp only [GameServiceOrders.accepted,hplayed.inMemory]
  rfl

/-- The request has played its turn, and comes next in the order. -/
theorem Stands.played {p' : Coroutine Unit} {late' : List (ℕ×TurnRow)} {closing' : Option ℕ}
    (h : Stands game submits history order late none held config)
    (hplayed : Played game submits history order late held config task submit player row number
      aiAction report held' world service₁ service')
    (htasks : config'.tasks=config.tasks.set task p')
    (hclosing : report.roundResult=none → closing'=none)
    (hlater : ∀ entry∈late',entry∈late ∨ entry.1=task ∧ p'=flushes entry.2)
    (hlate : ∀ entry∈late,entry∈late')
    (hsingle : (late'.map Prod.fst).Nodup)
    (hmine : (∃ turn,(task,turn)∈late') ∨ closing'=some task)
    (hcloser : ∀ closer,closing'=some closer → closer=task ∧ task∉late'.map Prod.fst)
    (hphase : Phase game service' (late'.map Prod.snd) held' config' closing') :
    Stands game submits (history++[⟨task,.resolve submit aiAction,config.world⟩]) (order++[task])
      late' closing' held' config' := by
  have hsubmit := hplayed.submitted
  have hserve : serve (.submitAction submit) [] (serial game submits order)=(service',.ok ()) :=
    (serve_eq hplayed.loaded hplayed.checks hplayed.found hplayed.inOrder).trans hplayed.alone
  have hserial : serial game submits (order++[task])=service' := by
    rw [serial,calls_concat hsubmit,serveAll_concat,hserve]
  have hlt := hplayed.running
  have hself : config'.tasks[task]?=some p' := by
    rw [htasks]
    exact List.getElem?_set_self hlt
  have hother : ∀ other,other≠task → config'.tasks[other]?=config.tasks[other]? := by
    intro other hne
    rw [htasks]
    exact List.getElem?_set_ne fun heq => hne heq.symm
  have hne : ∀ other∈order,other≠task := by
    rintro other hin rfl
    exact hplayed.out hin
  refine ⟨?_,?_,?_,?_,?_,?_,?_,hsingle,?_,?_,?_⟩
  · rw [List.nodup_append]
    refine ⟨h.nodup,List.nodup_singleton _,fun other hin last hlast => ?_⟩
    rw [List.mem_singleton.mp hlast]
    exact hne other hin
  · intro other hin
    rw [htasks,List.length_set]
    obtain hin | hlast := List.mem_append.mp hin
    · exact h.bound other hin
    · rw [List.mem_singleton.mp hlast]
      exact hlt
  · rw [hserial,turns_accepted hplayed.accepted hplayed.openRound,ending_accepted hplayed.accepted]
    exact hplayed.advanced.tidy
  · rw [calls_concat hsubmit,steps_concat]
    intro step hstep
    obtain hold | hlast := List.mem_append.mp hstep
    · exact h.served step hold
    · rw [List.mem_singleton.mp hlast]
      exact congrArg Prod.snd hserve
  · rw [hserial]
    intro other hrow'
    obtain hid | ⟨old,hold,hid⟩ := hplayed.advanced.keys other hrow'
    · exact .inr (.inr ⟨task,List.mem_append_right _ (List.mem_singleton_self _),submit,hsubmit,hid⟩)
    · rw [←hid]
      obtain hbefore | hfirst | ⟨task',htask',hkey⟩ := h.keys old hold
      · exact .inl hbefore
      · exact .inr (.inl hfirst)
      · exact .inr (.inr ⟨task',List.mem_append_left _ htask',hkey⟩)
  · intro other q hq hnot
    have hnot' : other∉order := fun hin => hnot (List.mem_append_left _ hin)
    have hne' : other≠task := by
      rintro rfl
      exact hnot (List.mem_append_right _ (List.mem_singleton_self _))
    rw [hother other hne'] at hq
    rw [hserial,found_other fun _ hcheck => by cases hcheck]
    obtain ⟨submit',hsubmit',hwaits⟩ := h.waits other q hq hnot'
    exact ⟨submit',hsubmit',hwaits.later (fun _ => hplayed.inProgress) fun number' row' hknown =>
      known_later h.tidy hplayed.advanced hplayed.opened hclosing hknown⟩
  · intro entry hentry
    obtain hold | ⟨rfl,rfl⟩ := hlater entry hentry
    · obtain ⟨hin,hprogram⟩ := h.later entry hold
      rw [hother _ (hne _ hin)]
      exact ⟨List.mem_append_left _ hin,hprogram⟩
    · exact ⟨List.mem_append_right _ (List.mem_singleton_self _),.inl hself⟩
  · intro other hin
    obtain hin | hlast := List.mem_append.mp hin
    · rw [hother other (hne other hin)]
      obtain ⟨turn,hturn⟩ | hcloses | hdone := h.rest other hin
      · exact .inl ⟨turn,hlate _ hturn⟩
      · cases hcloses
      · exact .inr (.inr hdone)
    · rw [List.mem_singleton.mp hlast]
      obtain hturn | hcloses := hmine
      · exact .inl hturn
      · exact .inr (.inl hcloses)
  · intro closer hcloses
    obtain ⟨rfl,hfree⟩ := hcloser closer hcloses
    exact ⟨List.mem_append_right _ (List.mem_singleton_self _),hfree⟩
  · rw [hserial]
    exact hphase

/-- An accepted turn is one that the engine has resolved. -/
theorem resolved_of_accepted {submit : Submit} {aiAction : Action} {service : Service}
    {report : TurnReport} (h : accepted ⟨task,.resolve submit aiAction,service⟩=some report) :
    ∃ service',resolved service submit aiAction=(service',.ok report) := by
  rcases hresolved : resolved service submit aiAction with ⟨service',exc | report'⟩
  · simp only [accepted,hresolved] at h
    cases h
  · simp only [accepted,hresolved] at h
    cases h
    exact ⟨service',rfl⟩

/-- The match goes on while the round does. -/
theorem resolved_goesOn {submit : Submit} {aiAction : Action} {service service' : Service}
    {report : TurnReport} (h : resolved service submit aiAction=(service',.ok report))
    (hround : report.roundResult=none) : report.matchResult=none := by
  unfold resolved at h
  split at h
  · cases h
  · next held hheld =>
    obtain ⟨e,hturn,-⟩ | ⟨-,round,state',report',-,-,hturn,haccepted⟩ :=
      submitTurn_cases held.state submit.action aiAction
    · rw [hturn] at h
      cases h
    · rw [hturn] at h
      cases h
      cases haccepted with
      | roundGoesOn => rfl
      | roundCloses => rfl
      | matchCloses => cases hround

/-- A turn writes nothing before its request does. -/
theorem resolved_db {submit : Submit} {aiAction : Action} {service : Service} :
    (resolved service submit aiAction).1.db=service.db := by
  unfold resolved
  split
  · rfl
  · split
    split <;> rfl

/-- It is none of those that are still to be committed. -/
theorem Stands.unlisted (h : Stands game submits history order late closing held config)
    (hout : task∉order) : task∉late.map Prod.fst := by
  intro hmem
  obtain ⟨entry,hentry,rfl⟩ := List.mem_map.mp hmem
  exact hout (h.later entry hentry).1

/-- The round goes on, and only the turn is still to be committed. -/
theorem Stands.goesOn (h : Stands game submits history order late none held config)
    (hplayed : Played game submits history order late held config task submit player row number
      aiAction report held' world service₁ service')
    (hround : report.roundResult=none)
    (hconfig : config'=⟨world,config.tasks.set task (afterTurn submit player row report)⟩) :
    ∃ order' late' closing' held',Stands game submits
      (history++[⟨task,.resolve submit aiAction,config.world⟩]) order' late' closing' held'
        config' := by
  have hover := resolved_goesOn hplayed.inMemory hround
  have hwrites : afterTurn submit player row report=flushes ⟨row.id,report.turnResult⟩ :=
    afterTurn_goesOn hround hover
  obtain ⟨hsame,hboth⟩ := hplayed.lacks.alone (afterTurn submit player row report)
  rw [hplayed.alone] at hsame hboth
  have hafter : Lacks [⟨row.id,report.turnResult⟩] world
      (alone (afterTurn submit player row report) [] world).1 := by
    rw [alone_roundGoesOn hround hover]
    exact ⟨rfl,rfl,rfl,List.Perm.refl _,rfl⟩
  have hall := hafter.trans hboth
  have htasks : config'.tasks=config.tasks.set task (flushes ⟨row.id,report.turnResult⟩) := by
    rw [hconfig,hwrites]
  refine ⟨order++[task],(task,⟨row.id,report.turnResult⟩)::late,none,held',
    h.played hplayed htasks (fun _ => rfl) ?_ (fun entry hentry => List.mem_cons_of_mem _ hentry)
      (List.nodup_cons.mpr ⟨h.unlisted hplayed.out,h.single⟩) (.inl ⟨_,List.mem_cons_self⟩)
      (fun closer hcloser => by cases hcloser) (.level ?_)⟩
  · intro entry hentry
    obtain rfl | hold := List.mem_cons.mp hentry
    · exact .inr ⟨rfl,rfl⟩
    · exact .inl hold
  · rw [hconfig]
    exact hall

/-- The request closes the round, and nobody finds a row of the next one before it
commits. -/
theorem Stands.closes {result : RoundResult}
    (h : Stands game submits history order late none held config)
    (hplayed : Played game submits history order late held config task submit player row number
      aiAction report held' world service₁ service')
    (hlacks : Lacks (late.map Prod.snd) config.world (serial game submits order))
    (hround : report.roundResult=some result)
    (hconfig : config'=⟨world,config.tasks.set task (afterTurn submit player row report)⟩) :
    ∃ order' late' closing' held',Stands game submits
      (history++[⟨task,.resolve submit aiAction,config.world⟩]) order' late' closing' held'
        config' := by
  obtain ⟨hsame,hboth⟩ := hplayed.lacks.alone (afterTurn submit player row report)
  rw [hplayed.alone] at hsame hboth
  have hself : config'.tasks[task]?=some (beforeCommit submit player row report >>=
      fun writes => perform (.commit writes)) := by
    rw [hconfig,←afterTurn_eq]
    exact List.getElem?_set_self hplayed.running
  have hprepares : (beforeCommit submit player row report).All Prepares :=
    beforeCommit_all submit player row report (fun _ => True.intro) True.intro
      (fun _ => True.intro) True.intro fun _ => True.intro
  have hdb : world.db=config.world.db := by
    have hkeep : (resolved config.world submit aiAction).1.db=config.world.db := resolved_db
    rwa [hplayed.inMemory] at hkeep
  have hcloses := hplayed.advanced.closes (by rw [hround]; exact Option.some_ne_none result)
  obtain ⟨round,hopen,hnumber⟩ := Option.map_eq_some_iff.mp hplayed.opened
  subst hconfig
  refine ⟨order++[task],late,some task,held',
    h.played hplayed rfl (fun hnone => by cases hround.symm.trans hnone)
      (fun entry hentry => .inl hentry) (fun entry hentry => hentry) h.single (.inr rfl)
      (fun closer hcloser => ⟨(Option.some.inj hcloser).symm,h.unlisted hplayed.out⟩)
      (.closing task _ hself hprepares ?_ ?_ ?_ ?_ ?_)⟩
  · rw [←afterTurn_eq]
    exact hsame.symm
  · rw [←afterTurn_eq]
    exact hboth
  · rw [hdb]
    exact h.players hplayed.inProgress
  · dsimp only
    rw [hdb]
    intro next' hnext' row' hrow' hmatch
    have hlater := hcloses next' hnext'
    by_contra hle
    have hbehind : round.roundNumber<row'.roundNumber := by omega
    have hnone := h.tidy.lookup_later hopen hbehind
    rw [lookup,List.filter_eq_nil_iff,hlacks.roundRows] at hnone
    exact hnone row' hrow' (by simp [hmatch])
  · dsimp only
    rw [←hplayed.lacks.games]
    exact hplayed.state

/-- The engine resolves the turn of a request whose checks would find the same again. -/
theorem Stands.step_accepted {o : ServiceOp} {next : Except Exc o.Res → Coroutine Unit}
    {report : TurnReport} (h : Stands game submits history order late closing held config)
    (hout : task∉order) (hgame : ∀ submit∈submits,submit.gameId=game.gameId)
    (hfresh : Fresh game submits) (htask : config.tasks[task]?=some (.op o next))
    (hconfig : config'=⟨(effect config.world o).1,
      config.tasks.set task (next (effect config.world o).2)⟩)
    (hreport : accepted ⟨task,o,config.world⟩=some report)
    (hrechecked : Rechecked history ⟨task,o,config.world⟩) :
    ∃ order' late' closing' held',Stands game submits (history++[⟨task,o,config.world⟩]) order' late'
      closing' held' config' := by
  obtain ⟨submit,hsubmit,hwaits⟩ := h.waits task _ htask hout
  have hmine := hgame submit (List.mem_of_getElem? hsubmit)
  cases hwaits with
  | calls hp =>
    rw [handler_afterLoad,getCurrentPlayer,Prog.bind_assoc] at hp
    obtain ⟨rfl,-⟩ := op_eq hp config.world
    cases hreport
  | loaded player hplayer hp =>
    obtain ⟨rfl,-⟩ := op_eq hp config.world
    cases hreport
  | checked player number aiAction hplayer hfinds hp =>
    rw [afterCheck,getCurrentRoundDb,Prog.bind_assoc] at hp
    obtain ⟨rfl,-⟩ := op_eq hp config.world
    cases hreport
  | failed exc hp => cases hp
  | ready player number aiAction row hplayer hfinds hrow hp =>
    obtain ⟨rfl,hnext⟩ := op_eq hp config.world
    have hsome : (accepted ⟨task,.resolve submit aiAction,config.world⟩).isSome=true := by
      rw [hreport]
      rfl
    -- the checks would find the same, so the round of the request is the open one
    have hchecked : checked config.world submit=.ok (number,aiAction) := by
      have hagain := (hrechecked hsome).trans hfinds
      cases hfound : checked config.world submit with
      | error exc =>
        rw [hfound] at hagain
        cases hagain
      | ok finds =>
        rw [hfound] at hagain
        cases hagain
        rfl
    obtain ⟨held₁,-,round,hheld,-,hstatus,-,hround,-,-,hnumber⟩ := checked_ok hchecked
    rw [hmine] at hheld
    have hstate : held₁.state=held.state := by
      have hsame := h.phase.state h.tidy
      rw [hheld,Option.map_some] at hsame
      exact Option.some.inj hsame
    rw [hstate] at hstatus hround
    have hopen : held.state.currentRound.map RoundState.roundNumber=some number := by
      rw [hround,hnumber]
      rfl
    have hopenRound : openRound config.world game.gameId=some number := by
      simp only [openRound,hheld,Option.bind_some,hstate,hstatus,if_true,hopen]
    obtain ⟨rfl,hlookup⟩ : closing=none ∧
        lookup (serial game submits order) game.gameId number=[row] := by
      obtain hknown | hpast := hrow
      · exact hknown
      · have hlt := hpast round hround
        omega
    cases h.phase with
    | level hlacks =>
      obtain ⟨world₁,hworld⟩ := resolved_of_accepted hreport
      have heffect : effect config.world (.resolve submit aiAction)=(world₁,.ok report) := hworld
      obtain ⟨hresult,hturned⟩ := hlacks.effect (.resolve submit aiAction)
      rw [heffect] at hresult hturned hnext hconfig
      have hchecked' : checked (serial game submits order) submit=.ok (number,aiAction) :=
        (hlacks.effect (.check submit)).1.trans hchecked
      obtain ⟨service₁,hresolved⟩ : ∃ service₁,
          effect (serial game submits order) (.resolve submit aiAction)=(service₁,.ok report) :=
        ⟨_,Prod.ext rfl hresult⟩
      rw [hresolved] at hturned
      have hplayer' : (serial game submits order).db.players submit.playerId=some player := by
        rw [hlacks.players,h.players hstatus]
        exact hplayer hstatus
      obtain ⟨held',service',hdb,hstate',-,halone,hadvanced⟩ := advance h.tidy hmine
        (hplayer hstatus) hchecked' hlookup (h.fresh hfresh hout hsubmit) hresolved
      have hrow' : lookup (serial game submits order) submit.gameId number=[row] := by
        rw [hmine]
        exact hlookup
      have hafter : next (.ok report)=afterTurn submit player row report := hnext
      rw [hafter] at hconfig
      have hplayed : Played game submits history order late held config task submit player row number
          aiAction report held' world₁ service₁ service' :=
        ⟨hout,(List.getElem?_eq_some_iff.mp htask).1,hsubmit,hplayer',hchecked',hrow',hstatus,hopen,
          hopenRound,hworld,hresolved,hturned,hstate',halone,hadvanced⟩
      cases hround' : report.roundResult with
      | none => exact h.goesOn hplayed hround' hconfig
      | some result => exact h.closes hplayed hlacks hround' hconfig

/-- A request comes. -/
theorem Stands.opened {submit : Submit}
    (h : Stands game submits history order late closing held config)
    (hsubmit : submits[config.tasks.length]?=some submit)
    (hconfig : config'=⟨config.world,config.tasks++[handler (.submitAction submit)]⟩) :
    Stands game submits history order late closing held config' := by
  subst hconfig
  have hold : ∀ other,other<config.tasks.length →
      (config.tasks++[handler (.submitAction submit)])[other]?=config.tasks[other]? :=
    fun other hlt => List.getElem?_append_left hlt
  refine ⟨h.nodup,?_,h.tidy,h.served,h.keys,?_,?_,h.single,?_,h.closer,?_⟩
  · intro task hin
    have hlt := h.bound task hin
    dsimp only
    rw [List.length_append]
    omega
  · intro task p hp hout
    obtain hlt | heq := Nat.lt_or_eq_of_le (show task ≤ config.tasks.length by
      have hlt := (List.getElem?_eq_some_iff.mp hp).1
      dsimp only at hlt
      rw [List.length_append,List.length_singleton] at hlt
      omega)
    · dsimp only at hp
      rw [hold task hlt] at hp
      exact h.waits task p hp hout
    · subst heq
      dsimp only at hp
      rw [List.getElem?_concat_length] at hp
      exact ⟨submit,hsubmit,.calls (Option.some.inj hp).symm⟩
  · intro entry hentry
    have hlater := h.later entry hentry
    dsimp only
    rw [hold _ (h.bound _ hlater.1)]
    exact hlater
  · intro task hin
    dsimp only
    rw [hold _ (h.bound _ hin)]
    exact h.rest task hin
  · exact h.phase.tasks rfl fun task htask => hold task (h.bound task (h.closer task htask).1)

/-- Any move of a request. -/
theorem Stands.step_run {o : ServiceOp} {next : Except Exc o.Res → Coroutine Unit}
    (h : Stands game submits history order late closing held config)
    (hgame : ∀ submit∈submits,submit.gameId=game.gameId) (hfresh : Fresh game submits)
    (htask : config.tasks[task]?=some (.op o next))
    (hconfig : config'=⟨(effect config.world o).1,
      config.tasks.set task (next (effect config.world o).2)⟩)
    (hrechecked : Rechecked history ⟨task,o,config.world⟩) :
    ∃ order' late' closing' held',Stands game submits (history++[⟨task,o,config.world⟩]) order' late'
      closing' held' config' := by
  by_cases hin : task∈order
  · obtain ⟨row,hrow⟩ | hclosing | hdone := h.rest task hin
    · obtain ⟨late',hstands⟩ := h.step_late hrow htask hconfig
      exact ⟨_,_,_,_,hstands⟩
    · obtain ⟨closing',hstands⟩ := h.step_closing hclosing htask hconfig
      exact ⟨_,_,_,_,hstands⟩
    · cases htask.symm.trans hdone
  · cases hreport : accepted ⟨task,o,config.world⟩ with
    | none => exact ⟨_,_,_,_,h.step_idle hin hgame htask hconfig hreport⟩
    | some report => exact h.step_accepted hin hgame hfresh htask hconfig hreport hrechecked

/-- A run of requests keeps them in order. -/
theorem Stands.run {moves : List requests.Move}
    (h : Stands game submits history order late closing held config)
    (hgame : ∀ submit∈submits,submit.gameId=game.gameId) (hfresh : Fresh game submits)
    (hfits : ∀ move∈moves,Fits game.gameId move)
    (hcoming : submits.drop config.tasks.length=submitted moves)
    (hrun : config.run moves=some config')
    (hmeets : MeetsFrom Rechecked history (momentsOf config moves)) :
    ∃ order' late' closing' held',Stands game submits (history++momentsOf config moves) order' late'
      closing' held' config' := by
  induction moves generalizing config history order late closing held with
  | nil =>
    cases hrun
    rw [momentsOf,List.append_nil]
    exact ⟨_,_,_,_,h⟩
  | cons move moves ih =>
    obtain ⟨config₁,hstep,hrest⟩ := Option.bind_eq_some_iff.mp hrun
    have hfirst := hfits move List.mem_cons_self
    have hothers : ∀ move∈moves,Fits game.gameId move :=
      fun move hmove => hfits move (List.mem_cons_of_mem _ hmove)
    simp only [momentsOf,hstep] at hmeets ⊢
    cases move with
    | «open» request =>
      cases request with
      | createAiGame gameId roundId playerId difficulty => exact hfirst.elim
      | submitAction submit =>
        have hconfig : config₁=⟨config.world,config.tasks++[handler (.submitAction submit)]⟩ :=
          (Option.some.inj hstep).symm
        have hnext : submits[config.tasks.length]?=some submit := by
          have hhead := congrArg (fun rest => rest[0]?) hcoming
          simp only [List.getElem?_drop,Nat.add_zero,submitted,List.getElem?_cons_zero] at hhead
          exact hhead
        have htail : submits.drop config₁.tasks.length=submitted moves := by
          have hdrop := congrArg List.tail hcoming
          rw [List.tail_drop] at hdrop
          rw [hconfig,List.length_append,List.length_singleton]
          exact hdrop
        exact ih (h.opened hnext hconfig) hothers htail hrest hmeets
    | run task outcome =>
      have houtcome : outcome=.proceeds := hfirst
      subst houtcome
      obtain ⟨o,next,htask,hmoment,hconfig⟩ := move_run hstep
      rw [hmoment,Option.toList_some,meetsFrom_append] at hmeets
      rw [hmoment,Option.toList_some,←List.append_assoc]
      obtain ⟨order',late',closing',held',hstands⟩ :=
        h.step_run hgame hfresh htask hconfig hmeets.1.1
      have htail : submits.drop config₁.tasks.length=submitted moves := by
        rw [hconfig,List.length_set]
        exact hcoming
      exact ih hstands hothers htail hrest hmeets.2

end Runs

section Orders

variable {game : NewGame}

/-- The game as it has been created. -/
def createdHeld (game : NewGame) : Held :=
  ⟨newGame game.gameId game.difficulty,true,game.playerId⟩

/-- The rows of a new game. -/
def createdRows (game : NewGame) : List Write :=
  [.insertMatch ⟨game.gameId,game.playerId,game.difficulty.matchType,.inProgress,none,0,0⟩,
    .insertRound ⟨game.roundId,game.gameId,1,none,0⟩]

/-- What create_ai_game leaves behind. -/
theorem service_eq (game : NewGame) : game.service=
    ⟨(game.before.hold game.gameId (createdHeld game)).games,game.before.db.writeAll (createdRows game)⟩ := by
  obtain ⟨player,hplayer⟩ := Option.isSome_iff_exists.mp game.player
  have hload : effect game.before (.selectPlayer game.playerId)=(game.before,.ok (some player)) := by
    simp only [effect,hplayer]
  have hconflicts : (createdRows game).any game.before.db.conflicts=false := by
    simp only [createdRows,List.any_cons,List.any_nil,Database.conflicts,Bool.or_false,
      Bool.or_eq_false_iff,List.any_eq_false,decide_eq_true_eq]
    exact ⟨game.newMatch,fun row hrow => (game.newRound row hrow).2⟩
  have hflush : effect game.before (.flush (createdRows game))=(game.before,.ok ()) := by
    simp only [effect,hconflicts]
    rfl
  have hcommit : effect (game.before.hold game.gameId (createdHeld game)) (.commit (createdRows game))=
      (⟨(game.before.hold game.gameId (createdHeld game)).games,game.before.db.writeAll (createdRows game)⟩,
        .ok ()) := by
    have hsame : (createdRows game).any (game.before.hold game.gameId (createdHeld game)).db.conflicts=false :=
      hconflicts
    simp only [effect,hsame]
    rfl
  have hhandler : handler (.createAiGame game.gameId game.roundId game.playerId game.difficulty)=
      (getCurrentPlayer game.playerId >>= fun _ => perform (.flush (createdRows game)) >>= fun _ =>
        perform (.start game.gameId game.playerId game.difficulty) >>= fun _ =>
        perform (.commit (createdRows game))) := by
    simp only [handler,createAiGame,Prog.bind_assoc]
    rfl
  unfold NewGame.service serve
  rw [hhandler,getCurrentPlayer,Prog.bind_assoc,alone_ok hload]
  change (alone (perform (.flush (createdRows game)) >>= fun _ =>
    perform (.start game.gameId game.playerId game.difficulty) >>= fun _ =>
    perform (.commit (createdRows game))) [] game.before).1=_
  have hstart : effect game.before (.start game.gameId game.playerId game.difficulty)=
      (game.before.hold game.gameId (createdHeld game),.ok ()) := rfl
  rw [alone_ok hflush,alone_ok hstart]
  simp only [perform,Prog.perform,alone_op,hcommit]
  rfl

/-- Its rows say that nothing has been played. -/
theorem tidy_created (game : NewGame) : Tidy game [] none (createdHeld game) game.service := by
  rw [service_eq]
  have hnone : game.before.db.roundRows.filter (·.matchId=game.gameId)=[] := by
    rw [List.filter_eq_nil_iff]
    intro row hrow
    rw [decide_eq_true_eq]
    exact (game.newRound row hrow).1
  have hmatch : game.before.db.matchRows.find? (fun row => row.id=game.gameId)=none := by
    rw [List.find?_eq_none]
    intro row hrow
    rw [decide_eq_true_eq]
    exact game.newMatch row hrow
  have hkept : GameServiceOrders.Kept game [] none
      ⟨(game.before.hold game.gameId (createdHeld game)).games,game.before.db.writeAll (createdRows game)⟩ := by
    refine ⟨⟨[],?_,.nil⟩,⟨(createdHeld game),Function.update_self _ _ _,?_⟩,
      ⟨(createdHeld game),Function.update_self _ _ _,?_⟩,rfl⟩
    · rw [List.append_nil]
      exact List.Perm.refl _
    · change ((game.before.db.roundRows++[(⟨game.roundId,game.gameId,1,none,0⟩ : RoundRow)]).filter
        fun row => row.matchId=game.gameId).map standing=_
      rw [List.filter_append,hnone]
      simp only [List.filter_cons,decide_true,if_true,List.filter_nil,List.nil_append]
      rfl
    · exact ⟨fun hstatus => absurd rfl hstatus,fun hnone => by cases hnone⟩
  refine ⟨Function.update_self _ _ _,fun _ => rfl,⟨0,startMatch_invariant _ _⟩,
    (fun result hresult => by cases hresult),?_,?_,hkept⟩
  · refine ⟨⟨game.gameId,game.playerId,game.difficulty.matchType,.inProgress,none,0,0⟩,?_⟩
    change (game.before.db.matchRows++[_]).find? _=_
    rw [List.find?_append,hmatch,Option.none_or]
    simp
  · intro row hrow hgame row' hrow' hid
    obtain hold | hnew := List.mem_append.mp hrow
    · exact absurd hgame (game.newRound row hold).1
    · rw [List.mem_singleton.mp hnew] at hid ⊢
      obtain hold' | hnew' := List.mem_append.mp hrow'
      · exact absurd hid (game.newRound row' hold').2
      · exact List.mem_singleton.mp hnew'

/-- Before any request has come. -/
theorem stands_start (game : NewGame) (submits : List Submit) :
    Stands game submits [] [] [] none (createdHeld game) game.start where
  nodup := List.nodup_nil
  bound := fun _ h => by cases h
  tidy := tidy_created game
  served := fun _ h => by cases h
  keys := by
    intro row hrow
    change row∈game.service.db.roundRows at hrow
    rw [service_eq] at hrow
    obtain hold | hnew := List.mem_append.mp hrow
    · exact .inl ⟨row,hold,rfl⟩
    · rw [List.mem_singleton.mp hnew]
      exact .inr (.inl rfl)
  waits := fun _ _ h => by cases h
  later := fun _ h => by cases h
  single := List.nodup_nil
  rest := fun _ h => by cases h
  closer := fun _ h => by cases h
  phase := .level (Lacks.refl _)

/-- Rows that nothing is missing from. -/
theorem lacks_symm {service service' : Service} (h : Lacks [] service service') :
    Lacks [] service' service := by
  refine ⟨h.games.symm,h.matchRows.symm,h.roundRows.symm,?_,h.players.symm⟩
  have hturns := h.turnRows
  rw [List.append_nil] at hturns ⊢
  exact hturns.symm

/-- They say the same of what has been played. -/
theorem lacks_kept {service service' : Service} {turns : List (ℤ×TurnResult)}
    {ending : Option (UUID×RoundWinner)} (h : Lacks [] service service')
    (hkept : GameServiceOrders.Kept game turns ending service') :
    GameServiceOrders.Kept game turns ending service := by
  obtain ⟨⟨rows,hperm,hrecorded⟩,hrounds,hended,hplayers⟩ := hkept
  have hturns := h.turnRows
  rw [List.append_nil] at hturns
  refine ⟨⟨rows,hturns.symm.trans hperm,?_⟩,?_,?_,h.players.symm.trans hplayers⟩
  · refine hrecorded.imp fun _ _ => recorded_later fun row hrow => ⟨row,?_,rfl,rfl,rfl⟩
    rw [←h.roundRows]
    exact hrow
  · rw [←h.games,←h.roundRows]
    exact hrounds
  · rw [←h.games]
    exact hended

/-- Once all requests are done, nothing is left to be committed. -/
theorem Stands.settled {submits : List Submit} {history : List Moment} {order : List ℕ}
    {late : List (ℕ×TurnRow)} {closing : Option ℕ} {held : Held} {config : requests.Config}
    (h : Stands game submits history order late closing held config)
    (hdone : ∀ p∈config.tasks,∃ r,p=(Prog.done r : Coroutine Unit)) :
    late=[] ∧ closing=none := by
  have hends : ∀ task p,config.tasks[task]?=some p → ∃ r,p=(Prog.done r : Coroutine Unit) :=
    fun task p hp => hdone p (List.mem_of_getElem? hp)
  refine ⟨?_,?_⟩
  · cases hlate : late with
    | nil => rfl
    | cons entry rest =>
      obtain ⟨-,hflush | hcommit⟩ := h.later entry (by rw [hlate]; exact List.mem_cons_self)
      · obtain ⟨r,hr⟩ := hends _ _ hflush
        cases hr
      · obtain ⟨r,hr⟩ := hends _ _ hcommit
        cases hr
  · cases h.phase with
    | level => rfl
    | closing task q htask hprepares hok hlacks hplayers hrows hstate =>
      obtain ⟨r,hr⟩ := hends _ _ htask
      rw [hr] at hok
      cases q with
      | op o next => cases hr
      | done result =>
        cases result with
        | ok writes => cases hr
        | error exc =>
          cases hr
          cases hok

/-- If each turn is resolved while the checks of its request would still find the same
round and the same choice of the AI, then what the requests leave behind is what those that
succeed leave behind one after another. -/
theorem serializable (game : NewGame) (moves : List requests.Move) (config : requests.Config)
    (hrun : game.start.run moves=some config) (hfits : ∀ move∈moves,Fits game.gameId move)
    (hfresh : Fresh game (submitted moves)) (hdone : ∀ p∈config.tasks,∃ r,p=(Prog.done r : Coroutine Unit))
    (hmeets : Meets Rechecked (momentsOf game.start moves)) : Serializable game moves config := by
  have hgame : ∀ submit∈submitted moves,submit.gameId=game.gameId := by
    clear hrun hfresh hmeets
    induction moves with
    | nil => exact fun submit hsubmit => by cases hsubmit
    | cons move moves ih =>
      have hrest := ih fun move hmove => hfits move (List.mem_cons_of_mem _ hmove)
      have hfirst := hfits move List.mem_cons_self
      cases move with
      | run task outcome => exact hrest
      | «open» request =>
        cases request with
        | createAiGame gameId roundId playerId difficulty => exact hfirst.elim
        | submitAction submit =>
          intro other hother
          obtain rfl | hold := List.mem_cons.mp hother
          · exact hfirst
          · exact hrest other hold
  obtain ⟨order,late,closing,held,h⟩ := (stands_start game (submitted moves)).run hgame hfresh hfits
    rfl hrun hmeets
  rw [List.nil_append] at h
  obtain ⟨rfl,rfl⟩ := h.settled hdone
  cases h.phase with
  | level hlacks =>
    refine ⟨order,h.nodup,?_,h.served,lacks_symm hlacks,lacks_kept hlacks h.tidy.kept⟩
    intro task
    refine ⟨fun hin => ?_,fun htask => ?_⟩
    · obtain ⟨row,hrow⟩ | hclosing | hended := h.rest task hin
      · cases hrow
      · cases hclosing
      · exact hended
    · by_contra hout
      obtain ⟨submit,-,hwaits⟩ := h.waits task _ htask hout
      cases hwaits with
      | calls hp =>
        rw [handler_afterLoad,getCurrentPlayer,Prog.bind_assoc] at hp
        cases hp
      | loaded player hplayer hp => cases hp
      | checked player number aiAction hplayer hfinds hp =>
        rw [afterCheck,getCurrentRoundDb,Prog.bind_assoc] at hp
        cases hp
      | ready player number aiAction row hplayer hfinds hrow hp => cases hp
      | failed exc hp => cases hp

end Orders

section Instances

instance Rechecked.decide (earlier : List Moment) :
    (moment : Moment) → Decidable (Rechecked earlier moment)
  | ⟨task,.resolve submit aiAction,service⟩ =>
    inferInstanceAs (Decidable ((accepted ⟨task,.resolve submit aiAction,service⟩).isSome=true →
      (checked service submit).toOption=found task earlier))
  | ⟨_,.selectPlayer _,_⟩ => instDecidableTrue
  | ⟨_,.selectRound _ _,_⟩ => instDecidableTrue
  | ⟨_,.selectMatch _ _,_⟩ => instDecidableTrue
  | ⟨_,.flush _,_⟩ => instDecidableTrue
  | ⟨_,.commit _,_⟩ => instDecidableTrue
  | ⟨_,.start _ _ _,_⟩ => instDecidableTrue
  | ⟨_,.check _,_⟩ => instDecidableTrue
  | ⟨_,.score _ _,_⟩ => instDecidableTrue
  | ⟨_,.remove _,_⟩ => instDecidableTrue

/-- Player 1's game against the novice. -/
def noviceGame : NewGame where
  before := twoPlayers
  gameId := .small 9
  roundId := .small 10
  playerId := .small 1
  difficulty := .novice
  player := by decide
  newMatch := fun _ h => absurd h List.not_mem_nil
  newRound := fun _ h => absurd h List.not_mem_nil

/-- A request of player 1 with a key for a new round, to which the AI answers with charge. -/
def request (action : Action) (roundId : Fin 16) : Submit :=
  ⟨.small 9,.small 1,action,fun _ _ => some .charge,.small roundId⟩

/-- So many operations of a request. -/
def operations (task count : ℕ) : List requests.Move := List.replicate count (.run task .proceeds)

/-- The request has nothing left to do. -/
def isDone : Coroutine Unit → Bool
  | .done _ => true
  | .op _ _ => false

/-- All requests are done. -/
theorem done_of_all {config : requests.Config} (h : config.tasks.all isDone=true) :
    ∀ p∈config.tasks,∃ r,p=(Prog.done r : Coroutine Unit) := by
  intro p hp
  have hdone := List.all_eq_true.mp h p hp
  cases p with
  | done r => exact ⟨r,rfl⟩
  | op o next => cases hdone

/-- Two charges, of which the second is played before the first has been committed. -/
def twoCharges : List requests.Move :=
  [.open (.submitAction (request .charge 11)),.open (.submitAction (request .charge 12))]++
    operations 0 2++operations 1 1++operations 0 2++operations 1 5++operations 0 2

/-- They leave behind what they do one after another. -/
theorem two_charges_serializable : ∃ config,noviceGame.start.run twoCharges=some config ∧
    Serializable noviceGame twoCharges config := by
  have hdone : (noviceGame.start.run twoCharges).any (fun config => config.tasks.all isDone)=true := by
    decide
  have hmeets : Meets Rechecked (momentsOf noviceGame.start twoCharges) := by decide
  have hfits : ∀ move∈twoCharges,Fits noviceGame.gameId move := by
    simp [twoCharges,operations,Fits,noviceGame,request]
  have hfresh : Fresh noviceGame (submitted twoCharges) := by
    refine ⟨by decide,by decide,fun _ _ row hrow => absurd hrow List.not_mem_nil⟩
  cases hrun : noviceGame.start.run twoCharges with
  | none =>
    rw [hrun] at hdone
    cases hdone
  | some config =>
    rw [hrun,Option.any_some] at hdone
    exact ⟨config,rfl,serializable noviceGame twoCharges config hrun hfits hfresh
      (done_of_all hdone) hmeets⟩

/-- A charge; then an attack that ends the round, while a second charge has looked up its row
and is played in the next one. -/
def staleLookup : List requests.Move :=
  [.open (.submitAction (request .charge 11))]++operations 0 6++
  [.open (.submitAction (request .attack 12)),.open (.submitAction (request .charge 13))]++
    operations 2 3++operations 1 8++operations 2 3

/-- What is related to a list has something for each member of it. -/
theorem exists_related {α β : Type} {R : α → β → Prop} {xs : List α} {ys : List β}
    (h : List.Forall₂ R xs ys) {x : α} (hx : x∈xs) : ∃ y∈ys,R x y := by
  induction h with
  | nil => cases hx
  | cons hr hrest ih =>
    obtain rfl | hx := List.mem_cons.mp hx
    · exact ⟨_,List.mem_cons_self,hr⟩
    · obtain ⟨y,hy,hxy⟩ := ih hx
      exact ⟨y,List.mem_cons_of_mem _ hy,hxy⟩

/-- The row of its turn belongs to the round before. -/
theorem stale_round_row : ¬∀ (game : NewGame) (moves : List requests.Move)
    (config : requests.Config),game.start.run moves=some config →
    (∀ move∈moves,Fits game.gameId move) → Fresh game (submitted moves) →
    (∀ p∈config.tasks,∃ r,p=(Prog.done r : Coroutine Unit)) → Serializable game moves config := by
  intro h
  have hrows : (noviceGame.start.run staleLookup).any (fun config => config.tasks.all isDone &&
      config.world.db.turnRows.all (fun row => row.roundId=.small 10) &&
      config.world.db.roundRows.all fun row => row.id≠.small 10 || row.roundNumber=1)=true := by
    decide
  have hturn : ((turns noviceGame.gameId (momentsOf noviceGame.start staleLookup)).any
      fun turn => turn.1=2)=true := by decide
  have hfits : ∀ move∈staleLookup,Fits noviceGame.gameId move := by
    simp [staleLookup,operations,Fits,noviceGame,request]
  have hfresh : Fresh noviceGame (submitted staleLookup) :=
    ⟨by decide,by decide,fun _ _ row hrow => absurd hrow List.not_mem_nil⟩
  cases hrun : noviceGame.start.run staleLookup with
  | none =>
    rw [hrun] at hrows
    cases hrows
  | some config =>
    rw [hrun,Option.any_some,Bool.and_eq_true,Bool.and_eq_true] at hrows
    obtain ⟨⟨hdone,hold⟩,hfirst⟩ := hrows
    obtain ⟨order,-,-,-,-,hkept⟩ := h noviceGame staleLookup config hrun hfits hfresh
      (done_of_all hdone)
    obtain ⟨rows,hperm,hrecorded⟩ := hkept.turnRows
    obtain ⟨turn,hin,htwo⟩ := List.any_eq_true.mp hturn
    obtain ⟨row,hrow,-,round,hround,hid,-,hnumber⟩ := exists_related hrecorded hin
    have hstored := List.all_eq_true.mp hold row (hperm.mem_iff.mpr hrow)
    have hone := List.all_eq_true.mp hfirst round hround
    simp only [decide_eq_true_eq] at hstored htwo
    simp [hid,hstored,hnumber,htwo] at hone

end Instances

end KiClash.GameServiceSchedules

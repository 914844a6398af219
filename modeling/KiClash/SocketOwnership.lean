import KiClash.ConnectionTasks

/-!
# Whose registration a cleanup removes

Both servers key their registrations by the player. WSManager.disconnect and
PubSub.unregister remove whatever is registered for the player, so a handler whose socket has
been superseded removes the registration of the newer socket when it ends. If every handler
ends while the registration is its own or there is none, then nobody loses a newer one, and
a message reaches the newest live socket.
-/

namespace KiClash.SocketOwnership

open EngineTypes Connections ConnectionTasks

section Python

/-- The registration that a move makes. -/
def registers (moment : Manager×Move) : Option (UUID×Socket) :=
  match moment.2 with
  | .accepted socket true => (moment.1.handlers[socket]?).bind fun handler =>
    if handler.stage=.accepting ∧ (moment.1.route handler.player).isSome=false then
      some (handler.player,socket)
    else none
  | .closed socket => (moment.1.handlers[socket]?).bind fun handler =>
    if handler.stage=.closing then some (handler.player,socket) else none
  | _ => none

/-- The socket that has been registered last for the player. -/
def newest (player : UUID) (moments : List (Manager×Move)) : Option Socket :=
  moments.foldl (fun last moment =>
    match registers moment with
    | some (player',socket) => if player'=player then some socket else last
    | none => last) none

/-- The registration, the rooms and the subscription of the player are what they were. -/
structure Same (manager manager' : Manager) (player : UUID) : Prop where
  /-- _connections. -/
  connections : manager'.registry.connections player=manager.registry.connections player
  /-- _player_rooms. -/
  playerRooms : manager'.registry.playerRooms player=manager.registry.playerRooms player
  /-- _rooms. -/
  rooms : ∀ room,player∈manager'.registry.roomPlayers room ↔
    player∈manager.registry.roomPlayers room
  /-- _subscribers. -/
  subscribers : manager'.subscribers player=manager.subscribers player

/-- The cleanup of a handler leaves what another socket is registered with. -/
def KeepsOthers (redis : Bool) (moment : Manager×Move) : Prop :=
  ∀ socket manager',moment.2=.leaves socket → moment.1.step redis moment.2=some manager' →
    ∀ player other,moment.1.registry.connections player=some other → other≠socket →
      Same moment.1 manager' player

/-- The cleanup of a handler finds its own socket registered, or none. -/
def OwnCleanup (moment : Manager×Move) : Prop :=
  match moment.2 with
  | .leaves socket => ∀ handler∈moment.1.handlers[socket]?,handler.stage=.serving →
    ∀ other∈moment.1.registry.connections handler.player,other=socket
  | _ => True

instance (moment : Manager×Move) : Decidable (OwnCleanup moment) := by
  unfold OwnCleanup
  split <;> infer_instance

/-- When all superseded handlers of a player have ended, a message for him is sent to his
newest socket if that is live. -/
def Delivered (manager : Manager) (moments : List (Manager×Move)) : Prop :=
  ∀ player socket,newest player moments=some socket →
    (∀ (other : Socket) (handler : Handler),manager.handlers[other]?=some handler →
      handler.player=player → handler.stage=.serving → other=socket) →
    ∀ handler,manager.handlers[socket]?=some handler → handler.stage=.serving →
      handler.client=.connected → manager.route player=some socket

variable {redis : Bool} {manager manager' : Manager} {move : Move} {player : UUID}
  {moments : List (Manager×Move)}

/-- A further registration is the newest one. -/
theorem newest_append (moment : Manager×Move) : newest player (moments++[moment])=
    match registers moment with
    | some (player',socket) => if player'=player then some socket else newest player moments
    | none => newest player moments := by
  rw [newest,List.foldl_append]
  rfl

/-- A disconnect moves only its player. -/
theorem mem_disconnect {registry : Registry} {room : String} {player other : UUID}
    (hne : other≠player) : other∈(registry.disconnect player).1.roomPlayers room ↔
      other∈registry.roomPlayers room := by
  have hleave : ∀ roomId,other∈((registry.leaveRoom roomId player) room).getD ∅ ↔
      other∈registry.roomPlayers room := by
    intro roomId
    rw [leaveRoom_players]
    split
    · simp [hne]
    · rfl
  unfold Registry.disconnect
  cases registry.playerRooms player with
  | none => rfl
  | some roomId =>
    dsimp only
    split
    · rfl
    · exact hleave roomId

/-- A disconnect leaves everything that belongs to the other players. -/
theorem same_disconnect {other : UUID} (hne : other≠player) :
    Same manager (manager.disconnect player) other where
  connections := by simp [Manager.disconnect,Registry.disconnect,hne]
  playerRooms := by simp [Manager.disconnect,Registry.disconnect,hne]
  rooms _ := mem_disconnect hne
  subscribers := by simp [Manager.disconnect,hne]

/-- A cleanup keeps what belongs to other sockets exactly if it finds none of them
registered. -/
theorem keepsOthers_iff (moment : Manager×Move) : KeepsOthers redis moment ↔ OwnCleanup moment := by
  obtain ⟨manager,move⟩ := moment
  constructor
  · intro hkeeps
    unfold OwnCleanup
    dsimp only
    split
    · next socket =>
      intro handler hsocket hstage other hregistered
      by_contra hne
      have hstep : manager.step redis (.leaves socket)=
          some ((manager.moves socket {handler with stage := .ended}).disconnect handler.player) := by
        have hsocket : manager.handlers[socket]?=some handler := hsocket
        simp only [Manager.step,Manager.resumes,hsocket,Option.bind_some,if_pos hstage]
      have hsame := (hkeeps socket _ rfl hstep handler.player other hregistered hne).connections
      have hnone : ((manager.moves socket {handler with stage := .ended}).disconnect
          handler.player).registry.connections handler.player=none := by
        simp [Manager.disconnect,Registry.disconnect]
      rw [hnone] at hsame
      cases hsame.trans hregistered
    · exact True.intro
  · rintro hown socket manager' hmove hstep player other hregistered hne
    dsimp only at hmove
    subst hmove
    cases moved hstep with
    | registered _ _ _ _ _ _ _ hmove => obtain ⟨hmove,-⟩ | ⟨hmove,-⟩ := hmove <;> cases hmove
    | left _ handler hsocket hstage =>
      by_cases hplayer : player=handler.player
      · subst hplayer
        exact absurd (hown handler hsocket hstage other hregistered) hne
      · have hsame : Same (manager.moves socket {handler with stage := .ended})
            ((manager.moves socket {handler with stage := .ended}).disconnect handler.player)
            player := same_disconnect hplayer
        exact ⟨hsame.connections,hsame.playerRooms,hsame.rooms,hsame.subscribers⟩

/-- Whoever is registered was registered last, and the newest socket of a player is
registered as long as its handler goes on. -/
structure Owned (manager : Manager) (moments : List (Manager×Move)) : Prop where
  /-- The registered sockets are the newest ones. -/
  registered : ∀ player socket,manager.registry.connections player=some socket →
    newest player moments=some socket
  /-- The newest sockets. -/
  serving : ∀ player socket,newest player moments=some socket →
    ∃ handler,manager.handlers[socket]?=some handler ∧ handler.player=player ∧
      (handler.stage=.serving ∧ manager.registry.connections player=some socket ∨
        handler.stage=.ended)

theorem owned_initial : Owned .initial [] where
  registered _ _ hregistered := nomatch hregistered
  serving _ _ hnewest := nomatch hnewest

/-- A move that registers nothing and leaves the registry as it is. -/
theorem Owned.quiet (h : Owned manager moments) (hregisters : registers (manager,move)=none)
    (hregistry : manager'.registry=manager.registry)
    (hkeeps : ∀ (socket : Socket) (handler : Handler),manager.handlers[socket]?=some handler →
      handler.stage=.serving ∨ handler.stage=.ended →
      ∃ handler',manager'.handlers[socket]?=some handler' ∧ handler'.player=handler.player ∧
        (handler'.stage=handler.stage ∨ handler'.stage=.ended)) :
    Owned manager' (moments++[(manager,move)]) where
  registered player socket hregistered := by
    rw [newest_append,hregisters]
    rw [hregistry] at hregistered
    exact h.registered player socket hregistered
  serving player socket hnewest := by
    rw [newest_append,hregisters] at hnewest
    obtain ⟨handler,hsocket,hplayer,hstage⟩ := h.serving player socket hnewest
    obtain ⟨handler',hsocket',hplayer',hstage'⟩ :=
      hkeeps socket handler hsocket (hstage.imp (·.1) id)
    refine ⟨handler',hsocket',hplayer'.trans hplayer,?_⟩
    obtain hsame | hended := hstage'
    · rw [hsame,hregistry]
      exact hstage
    · exact .inr hended

/-- One handler goes on so. -/
theorem Owned.moves (h : Owned manager moments) (hregisters : registers (manager,move)=none)
    {socket : Socket} {handler handler' : Handler}
    (hsocket : manager.handlers[socket]?=some handler)
    (hnext : handler.stage=.serving ∨ handler.stage=.ended →
      handler'.player=handler.player ∧ (handler'.stage=handler.stage ∨ handler'.stage=.ended)) :
    Owned (manager.moves socket handler') (moments++[(manager,move)]) := by
  have hregistry : (manager.moves socket handler').registry=manager.registry := rfl
  refine h.quiet hregisters hregistry ?_
  intro other handler₁ hother hstage
  by_cases he : socket=other
  · subst he
    cases hsocket.symm.trans hother
    have hlt := (List.getElem?_eq_some_iff.mp hsocket).1
    exact ⟨handler',List.getElem?_set_self hlt,hnext hstage⟩
  · exact ⟨handler₁,(List.getElem?_set_ne he).trans hother,rfl,.inl rfl⟩

/-- The registry after a connect has come to its end. -/
theorem register_registry (socket : Socket) (handler : Handler) :
    (manager.register redis socket handler).registry=
      manager.registry.connect socket handler.room handler.player := by
  unfold Manager.register
  split <;> rfl

/-- So does the handler. -/
theorem register_handlers (socket : Socket) (handler : Handler) :
    (manager.register redis socket handler).handlers=
      manager.handlers.set socket {handler with stage := .serving} := by
  unfold Manager.register
  split <;> rfl

/-- The step lemma. -/
theorem Owned.step (h : Owned manager moments) (hown : OwnCleanup (manager,move))
    (hgives : ∀ player,move≠.gives player) (hs : manager.step redis move=some manager') :
    Owned manager' (moments++[(manager,move)]) := by
  cases moved hs with
  | opened player room =>
    refine h.quiet rfl rfl fun socket handler hsocket _ => ?_
    have hlt := (List.getElem?_eq_some_iff.mp hsocket).1
    exact ⟨handler,(List.getElem?_append_left hlt).trans hsocket,rfl,.inl rfl⟩
  | refused socket handler hsocket hstage =>
    exact h.moves rfl hsocket fun _ => ⟨rfl,.inr rfl⟩
  | superseding socket handler hsocket hstage hroute =>
    refine h.moves ?_ hsocket fun hpast => ?_
    · have hlive : manager.route handler.player≠none := by
        intro hnone
        rw [hnone] at hroute
        cases hroute
      simp [registers,hsocket,hlive]
    · rw [hstage] at hpast
      obtain hpast | hpast := hpast <;> cases hpast
  | dropped socket handler hsocket => exact h.moves rfl hsocket fun _ => ⟨rfl,.inl rfl⟩
  | crashed socket handler hsocket hstage => exact h.moves rfl hsocket fun _ => ⟨rfl,.inr rfl⟩
  | given player => exact absurd rfl (hgives player)
  | listened task poll listener htask hstage =>
    exact h.quiet rfl rfl fun socket handler hsocket _ => ⟨handler,hsocket,rfl,.inl rfl⟩
  | left socket handler hsocket hstage =>
    have hlt := (List.getElem?_eq_some_iff.mp hsocket).1
    have hothers : ∀ player,player≠handler.player →
        ((manager.moves socket {handler with stage := .ended}).disconnect
          handler.player).registry.connections player=manager.registry.connections player := by
      intro player hne
      simp [Manager.disconnect,Manager.moves,Registry.disconnect,hne]
    constructor
    · intro player other hregistered
      rw [newest_append]
      by_cases hplayer : player=handler.player
      · subst hplayer
        simp [Manager.disconnect,Registry.disconnect] at hregistered
      · rw [hothers player hplayer] at hregistered
        exact h.registered player other hregistered
    · intro player other hnewest
      rw [newest_append] at hnewest
      obtain ⟨handler₁,hother,hplayer₁,hstage₁⟩ := h.serving player other hnewest
      by_cases he : socket=other
      · subst he
        cases hsocket.symm.trans hother
        exact ⟨_,List.getElem?_set_self hlt,hplayer₁,.inr rfl⟩
      · refine ⟨handler₁,(List.getElem?_set_ne he).trans hother,hplayer₁,?_⟩
        obtain ⟨hserving,hregistered⟩ | hended := hstage₁
        · -- the cleanup would have found this socket registered
          have hplayer : player≠handler.player := by
            rintro rfl
            exact he (hown handler hsocket hstage other hregistered).symm
          exact .inl ⟨hserving,(hothers player hplayer).trans hregistered⟩
        · exact .inr hended
  | registered _ socket handler handler' hsocket hplayer hroom hmove =>
    have hlt := (List.getElem?_eq_some_iff.mp hsocket).1
    have hregisters : registers (manager,move)=some (handler.player,socket) := by
      obtain ⟨rfl,hstage,hroute⟩ | ⟨rfl,hstage⟩ := hmove
      · have hnone : manager.route handler.player=none := by simpa using hroute
        simp [registers,hsocket,hstage,hnone]
      · simp [registers,hsocket,hstage]
    have hstage : handler.stage≠.serving ∧ handler.stage≠.ended := by
      obtain ⟨-,hstage,-⟩ | ⟨-,hstage⟩ := hmove <;> rw [hstage] <;> decide
    have hconnections : ∀ player,(manager.register redis socket handler').registry.connections player=
        Function.update manager.registry.connections handler.player (some socket) player := by
      intro player
      rw [register_registry,hplayer]
      rfl
    constructor
    · intro player other hregistered
      rw [hconnections] at hregistered
      rw [newest_append,hregisters]
      dsimp only
      by_cases he : handler.player=player
      · subst he
        rw [Function.update_self] at hregistered
        rw [if_pos rfl,hregistered]
      · rw [Function.update_of_ne (Ne.symm he)] at hregistered
        rw [if_neg he]
        exact h.registered player other hregistered
    · intro player other hnewest
      rw [newest_append,hregisters] at hnewest
      dsimp only at hnewest
      rw [hconnections,register_handlers]
      split at hnewest
      · next he =>
        cases hnewest
        subst he
        rw [Function.update_self]
        exact ⟨_,List.getElem?_set_self hlt,hplayer,.inl ⟨rfl,rfl⟩⟩
      · next he =>
        obtain ⟨handler₁,hother,hplayer₁,hstage₁⟩ := h.serving player other hnewest
        have hne : socket≠other := by
          rintro rfl
          cases hsocket.symm.trans hother
          exact hstage₁.elim (fun hserving => hstage.1 hserving.1) hstage.2
        rw [Function.update_of_ne (Ne.symm he)]
        exact ⟨handler₁,(List.getElem?_set_ne hne).trans hother,hplayer₁,hstage₁⟩

/-- Then messages are delivered. -/
theorem Owned.delivered (h : Owned manager moments) : Delivered manager moments := by
  intro player socket hnewest _ handler hsocket hstage hclient
  obtain ⟨handler',hsocket',-,⟨-,hregistered⟩ | hended⟩ := h.serving player socket hnewest
  · have hlive : manager.connected socket=true := by
      simp [Manager.connected,hsocket,hclient]
    rw [Manager.route,hregistered,Option.filter_some,if_pos hlive]
  · cases hsocket.symm.trans hsocket'
    rw [hstage] at hended
    cases hended

/-- Every cleanup of the run leaves the other sockets what is theirs, and after it messages
are delivered. -/
def Owns (redis : Bool) (moves : List Move) : Prop :=
  (∀ moment∈Manager.initial.moments redis moves,KeepsOthers redis moment) ∧
    ∀ manager,Manager.initial.run redis moves=some manager →
      Delivered manager (Manager.initial.moments redis moves)

/-- A run whose handlers end with their own registration or none. -/
theorem owned_of_run {moves : List Move} (hgives : ∀ player,.gives player∉moves)
    (hown : ∀ moment∈Manager.initial.moments redis moves,OwnCleanup moment)
    (hrun : Manager.initial.run redis moves=some manager) :
    Owned manager (Manager.initial.moments redis moves) := by
  have hall : ∀ (moves : List Move) (first : Manager) (history : List (Manager×Move)),
      Owned first history → (∀ player,.gives player∉moves) →
      (∀ moment∈first.moments redis moves,OwnCleanup moment) →
      first.run redis moves=some manager → Owned manager (history++first.moments redis moves) := by
    intro moves
    induction moves with
    | nil =>
      intro first history h _ _ hrun
      cases hrun
      rw [Manager.moments,List.append_nil]
      exact h
    | cons move moves ih =>
      intro first history h hgives hown hrun
      obtain ⟨second,hs,hrest⟩ := Option.bind_eq_some_iff.mp hrun
      simp only [Manager.moments,hs] at hown ⊢
      have hnot : ∀ player,move≠.gives player := by
        rintro player rfl
        exact hgives player List.mem_cons_self
      have hnext := h.step (hown _ List.mem_cons_self) hnot hs
      rw [List.append_cons]
      exact ih second _ hnext (fun player hmem => hgives player (List.mem_cons_of_mem _ hmem))
        (fun moment hmoment => hown moment (List.mem_cons_of_mem _ hmoment)) hrest
  simpa using hall moves .initial [] owned_initial hgives hown hrun

end Python

section Go

/-- The connection of a handler of gameWebsocket; its number is also that of its
subscription and of the context of that. -/
structure Conn where
  /-- The player. -/
  playerID : String
  /-- The handler has returned. -/
  ended : Bool
  deriving DecidableEq, Repr

/-- PubSub of pubsub.go. -/
structure PubSub where
  /-- The connection of a player. -/
  locals : String → Option ℕ
  /-- His subscription. -/
  subs : String → Option ℕ
  /-- The context of its relayLoop. -/
  cancels : String → Option ℕ
  /-- The subscriptions that have been closed. -/
  closed : List ℕ
  /-- The contexts that have been cancelled. -/
  cancelled : List ℕ
  /-- The connections that have been registered. -/
  conns : List Conn

/-- What handlers do under the lock. -/
inductive GoMove
  /-- register, by a new connection. -/
  | registers (playerID : String)
  /-- The deferred calls of a handler that returns. -/
  | leaves (conn : ℕ)
  deriving DecidableEq, Repr

namespace PubSub

/-- newPubSub. -/
def new : PubSub := ⟨fun _ => none,fun _ => none,fun _ => none,[],[],[]⟩

/-- register. -/
def register (p : PubSub) (playerID : String) : PubSub where
  locals := Function.update p.locals playerID (some p.conns.length)
  subs := Function.update p.subs playerID (some p.conns.length)
  cancels := Function.update p.cancels playerID (some p.conns.length)
  closed := (p.subs playerID).toList++p.closed
  cancelled := (p.cancels playerID).toList++p.cancelled
  conns := p.conns++[⟨playerID,false⟩]

/-- unregister. -/
def unregister (p : PubSub) (playerID : String) : PubSub :=
  {p with
    locals := Function.update p.locals playerID none
    subs := Function.update p.subs playerID none
    cancels := Function.update p.cancels playerID none
    closed := (p.subs playerID).toList++p.closed
    cancelled := (p.cancels playerID).toList++p.cancelled}

/-- unregister, then sessionCancel. -/
def leave (p : PubSub) (conn : ℕ) (playerID : String) : PubSub :=
  {p.unregister playerID with
    cancelled := conn::(p.unregister playerID).cancelled
    conns := p.conns.set conn ⟨playerID,true⟩}

/-- One move. -/
def step (p : PubSub) : GoMove → Option PubSub
  | .registers playerID => some (p.register playerID)
  | .leaves conn => (p.conns[conn]?).bind fun c =>
    if c.ended then none else some (p.leave conn c.playerID)

/-- One move after another. -/
def run : PubSub → List GoMove → Option PubSub
  | p,[] => some p
  | p,move::moves => (p.step move).bind fun p => p.run moves

/-- The moves of a run, each with what it finds. -/
def moments : PubSub → List GoMove → List (PubSub×GoMove)
  | _,[] => []
  | p,move::moves =>
    (p,move)::match p.step move with
      | some p => p.moments moves
      | none => []

/-- The connection and the subscription of a player are those, and both are in use. -/
structure Serves (p : PubSub) (playerID : String) (conn : ℕ) : Prop where
  /-- sendToPlayer writes to it. -/
  locals : p.locals playerID=some conn
  /-- Its subscription is the one of the player. -/
  subs : p.subs playerID=some conn
  /-- Nobody has closed it. -/
  opened : conn∉p.closed
  /-- relayLoop goes on. -/
  relays : conn∉p.cancelled

/-- The connection is the last one that has been registered for its player. -/
def Newest (p : PubSub) (conn : ℕ) (playerID : String) : Prop :=
  ∀ later c,p.conns[later]?=some c → c.playerID=playerID → later≤conn

/-- The connection and the subscription of a player are what they were. -/
structure Same (p p' : PubSub) (playerID : String) : Prop where
  /-- The connection. -/
  locals : p'.locals playerID=p.locals playerID
  /-- The subscription. -/
  subs : p'.subs playerID=p.subs playerID
  /-- It is not closed. -/
  opened : ∀ sub,p.subs playerID=some sub → sub∉p.closed → sub∉p'.closed
  /-- Its relayLoop goes on. -/
  relays : ∀ sub,p.subs playerID=some sub → sub∉p.cancelled → sub∉p'.cancelled

/-- The end of a handler leaves what another connection is registered with. -/
def KeepsOthers (moment : PubSub×GoMove) : Prop :=
  ∀ conn p',moment.2=.leaves conn → moment.1.step moment.2=some p' →
    ∀ playerID other,moment.1.locals playerID=some other → other≠conn →
      Same moment.1 p' playerID

/-- The end of a handler finds its own connection registered, or none. -/
def OwnCleanup (moment : PubSub×GoMove) : Prop :=
  match moment.2 with
  | .leaves conn => ∀ c∈moment.1.conns[conn]?,c.ended=false →
    ∀ other∈moment.1.locals c.playerID,other=conn
  | _ => True

instance (moment : PubSub×GoMove) : Decidable (OwnCleanup moment) := by
  unfold OwnCleanup
  split <;> infer_instance

/-- When all superseded handlers of a player have ended, his newest connection is served. -/
def Delivered (p : PubSub) : Prop :=
  ∀ (conn : ℕ) (playerID : String),p.conns[conn]?=some ⟨playerID,false⟩ → p.Newest conn playerID →
    (∀ other c,p.conns[other]?=some c → c.playerID=playerID → c.ended=false → other=conn) →
    p.Serves playerID conn

/-- Every end of a handler leaves the other connections what is theirs, and after it messages
are delivered. -/
def Owns (moves : List GoMove) : Prop :=
  (∀ moment∈new.moments moves,KeepsOthers moment) ∧
    ∀ p,new.run moves=some p → Delivered p

/-- The maps agree, and the newest connection of a player is served as long as its handler
goes on. -/
structure Owned (p : PubSub) : Prop where
  /-- The connections are those of the players. -/
  registered : ∀ playerID conn,p.locals playerID=some conn →
    ∃ ended,p.conns[conn]?=some ⟨playerID,ended⟩
  /-- The subscriptions are those of the connections. -/
  subs : ∀ playerID,p.subs playerID=p.locals playerID
  /-- So are their contexts. -/
  cancels : ∀ playerID,p.cancels playerID=p.locals playerID
  /-- The closed subscriptions are old. -/
  closed : ∀ conn∈p.closed,conn<p.conns.length
  /-- So are the cancelled contexts. -/
  cancelled : ∀ conn∈p.cancelled,conn<p.conns.length
  /-- The newest connections. -/
  serves : ∀ (conn : ℕ) (playerID : String),p.conns[conn]?=some ⟨playerID,false⟩ →
    p.Newest conn playerID → p.Serves playerID conn

variable {p p' : PubSub} {move : GoMove}

theorem owned_new : Owned new where
  registered _ _ hlocal := nomatch hlocal
  subs _ := rfl
  cancels _ := rfl
  closed _ hclosed := nomatch hclosed
  cancelled _ hcancelled := nomatch hcancelled
  serves _ _ hconn := nomatch hconn

/-- The connection of a player is not that of another one. -/
theorem Owned.apart (h : Owned p) {playerID playerID' : String} (hne : playerID'≠playerID)
    {conn : ℕ} (hlocal : p.locals playerID=some conn) : p.locals playerID'≠some conn := by
  intro hlocal'
  obtain ⟨ended,hconn⟩ := h.registered playerID conn hlocal
  obtain ⟨ended',hconn'⟩ := h.registered playerID' conn hlocal'
  cases hconn.symm.trans hconn'
  exact hne rfl

/-- A new connection takes over from the one that its player has had. -/
theorem Owned.register (h : Owned p) (playerID : String) : Owned (p.register playerID) := by
  have hlength : (p.register playerID).conns.length=p.conns.length+1 := by
    simp [PubSub.register]
  have hold : ∀ {conn : ℕ} {c : Conn},p.conns[conn]?=some c →
      (p.register playerID).conns[conn]?=some c := fun {conn c} hconn =>
    (List.getElem?_append_left (List.getElem?_eq_some_iff.mp hconn).1).trans hconn
  have hlast : (p.register playerID).conns[p.conns.length]?=some ⟨playerID,false⟩ := by
    simp [PubSub.register]
  have hlt : ∀ playerID conn,p.locals playerID=some conn → conn<p.conns.length := by
    intro playerID' conn hlocal
    obtain ⟨ended,hconn⟩ := h.registered playerID' conn hlocal
    exact (List.getElem?_eq_some_iff.mp hconn).1
  constructor
  · intro playerID' conn hlocal
    by_cases he : playerID'=playerID
    · subst he
      cases (Function.update_self ..).symm.trans hlocal
      exact ⟨false,hlast⟩
    · obtain ⟨ended,hconn⟩ := h.registered playerID' conn
        ((Function.update_of_ne he ..).symm.trans hlocal)
      exact ⟨ended,hold hconn⟩
  · intro playerID'
    simp only [PubSub.register,Function.update_apply,h.subs]
  · intro playerID'
    simp only [PubSub.register,Function.update_apply,h.cancels]
  · intro conn hclosed
    rw [hlength]
    obtain hsub | hclosed := List.mem_append.mp hclosed
    · rw [Option.mem_toList,h.subs] at hsub
      have := hlt playerID conn hsub
      omega
    · have := h.closed conn hclosed
      omega
  · intro conn hcancelled
    rw [hlength]
    obtain hsub | hcancelled := List.mem_append.mp hcancelled
    · rw [Option.mem_toList,h.cancels] at hsub
      have := hlt playerID conn hsub
      omega
    · have := h.cancelled conn hcancelled
      omega
  · intro conn playerID' hconn hnewest
    by_cases he : playerID'=playerID
    · subst he
      have hle := hnewest _ _ hlast rfl
      have hbound := (List.getElem?_eq_some_iff.mp hconn).1
      obtain rfl : conn=p.conns.length := by omega
      refine ⟨Function.update_self ..,Function.update_self ..,fun hclosed => ?_,fun hcancelled => ?_⟩
      · obtain hsub | hclosed := List.mem_append.mp hclosed
        · rw [Option.mem_toList,h.subs] at hsub
          exact (hlt _ _ hsub).ne rfl
        · exact (h.closed _ hclosed).ne rfl
      · obtain hsub | hcancelled := List.mem_append.mp hcancelled
        · rw [Option.mem_toList,h.cancels] at hsub
          exact (hlt _ _ hsub).ne rfl
        · exact (h.cancelled _ hcancelled).ne rfl
    · have hbefore : p.conns[conn]?=some ⟨playerID',false⟩ := by
        obtain hlt | hge := lt_or_ge conn p.conns.length
        · exact (List.getElem?_append_left hlt).symm.trans hconn
        · have hbound := (List.getElem?_eq_some_iff.mp hconn).1
          obtain rfl : conn=p.conns.length := by omega
          cases hlast.symm.trans hconn
          exact absurd rfl he
      have hserves := h.serves conn playerID' hbefore fun later c hlater =>
        hnewest later c (hold hlater)
      refine ⟨(Function.update_of_ne he ..).trans hserves.locals,
        (Function.update_of_ne he ..).trans hserves.subs,fun hclosed => ?_,fun hcancelled => ?_⟩
      · obtain hsub | hclosed := List.mem_append.mp hclosed
        · rw [Option.mem_toList,h.subs] at hsub
          exact h.apart he hsub hserves.locals
        · exact hserves.opened hclosed
      · obtain hsub | hcancelled := List.mem_append.mp hcancelled
        · rw [Option.mem_toList,h.cancels] at hsub
          exact h.apart he hsub hserves.locals
        · exact hserves.relays hcancelled

/-- What the end of a handler leaves of the other players. -/
theorem Owned.leave_same (h : Owned p) {conn : ℕ} {playerID playerID' : String}
    (hconn : p.conns[conn]?=some ⟨playerID,false⟩) (hne : playerID'≠playerID) :
    Same p (p.leave conn playerID) playerID' where
  locals := Function.update_of_ne hne ..
  subs := Function.update_of_ne hne ..
  opened sub hsub hopen hclosed := by
    rw [h.subs] at hsub
    obtain hown | hclosed := List.mem_append.mp hclosed
    · rw [Option.mem_toList,h.subs] at hown
      exact h.apart hne hown hsub
    · exact hopen hclosed
  relays sub hsub hrelays hcancelled := by
    rw [h.subs] at hsub
    obtain rfl | hcancelled := List.mem_cons.mp hcancelled
    · obtain ⟨ended,hconn'⟩ := h.registered playerID' sub hsub
      cases hconn.symm.trans hconn'
      exact hne rfl
    · obtain hown | hcancelled := List.mem_append.mp hcancelled
      · rw [Option.mem_toList,h.cancels] at hown
        exact h.apart hne hown hsub
      · exact hrelays hcancelled

/-- The end of a handler that finds no other connection of its player registered. -/
theorem Owned.leave (h : Owned p) {conn : ℕ} {playerID : String}
    (hconn : p.conns[conn]?=some ⟨playerID,false⟩)
    (hown : ∀ other,p.locals playerID=some other → other=conn) : Owned (p.leave conn playerID) := by
  have hbound := (List.getElem?_eq_some_iff.mp hconn).1
  have hlength : (p.leave conn playerID).conns.length=p.conns.length := List.length_set ..
  have hlt : ∀ conn,p.locals playerID=some conn → conn<p.conns.length := by
    intro conn hlocal
    obtain ⟨ended,hconn⟩ := h.registered playerID conn hlocal
    exact (List.getElem?_eq_some_iff.mp hconn).1
  constructor
  · intro playerID' other hlocal
    by_cases he : playerID'=playerID
    · subst he
      cases (Function.update_self ..).symm.trans hlocal
    · obtain ⟨ended,hother⟩ := h.registered playerID' other
        ((Function.update_of_ne he ..).symm.trans hlocal)
      have hne : conn≠other := by
        rintro rfl
        cases hconn.symm.trans hother
        exact he rfl
      exact ⟨ended,(List.getElem?_set_ne hne).trans hother⟩
  · intro playerID'
    simp only [PubSub.leave,PubSub.unregister,Function.update_apply,h.subs]
  · intro playerID'
    simp only [PubSub.leave,PubSub.unregister,Function.update_apply,h.cancels]
  · intro other hclosed
    rw [hlength]
    obtain hsub | hclosed := List.mem_append.mp hclosed
    · rw [Option.mem_toList,h.subs] at hsub
      exact hlt other hsub
    · exact h.closed other hclosed
  · intro other hcancelled
    rw [hlength]
    obtain rfl | hcancelled := List.mem_cons.mp hcancelled
    · exact hbound
    · obtain hsub | hcancelled := List.mem_append.mp hcancelled
      · rw [Option.mem_toList,h.cancels] at hsub
        exact hlt other hsub
      · exact h.cancelled other hcancelled
  · intro other playerID' hother hnewest
    have hne : conn≠other := by
      rintro rfl
      cases (List.getElem?_set_self hbound).symm.trans hother
    have hbefore : p.conns[other]?=some ⟨playerID',false⟩ := (List.getElem?_set_ne hne).symm.trans hother
    have hserves := h.serves other playerID' hbefore fun later c hlater hplayer => by
      by_cases he : conn=later
      · subst he
        cases hconn.symm.trans hlater
        exact hnewest _ _ (List.getElem?_set_self hbound) hplayer
      · exact hnewest later c ((List.getElem?_set_ne he).trans hlater) hplayer
    by_cases he : playerID'=playerID
    · subst he
      exact absurd (hown other hserves.locals).symm hne
    · have hsame := h.leave_same hconn he
      exact ⟨hsame.locals.trans hserves.locals,hsame.subs.trans hserves.subs,
        hsame.opened other hserves.subs hserves.opened,
        hsame.relays other hserves.subs hserves.relays⟩

/-- The step lemma. -/
theorem Owned.step (h : Owned p) (hown : OwnCleanup (p,move)) (hs : p.step move=some p') :
    Owned p' := by
  cases move with
  | registers playerID =>
    cases hs
    exact h.register playerID
  | leaves conn =>
    obtain ⟨⟨playerID,ended⟩,hconn,hleaves⟩ := Option.bind_eq_some_iff.mp hs
    cases ended with
    | true => cases hleaves
    | false =>
      cases hleaves
      exact h.leave hconn (hown ⟨playerID,false⟩ hconn rfl)

/-- The end of a handler that keeps what belongs to other connections finds none of them
registered. -/
theorem ownCleanup_of_keeps (h : KeepsOthers (p,move)) : OwnCleanup (p,move) := by
  unfold OwnCleanup
  dsimp only
  split
  · next conn =>
    intro c hconn hended other hlocal
    by_contra hne
    have hconn : p.conns[conn]?=some c := hconn
    have hstep : p.step (.leaves conn)=some (p.leave conn c.playerID) := by
      simp only [PubSub.step,hconn,Option.bind_some,hended,Bool.false_eq_true,if_false]
    have hsame := (h conn _ rfl hstep c.playerID other hlocal hne).locals
    have hnone : (p.leave conn c.playerID).locals c.playerID=none := Function.update_self ..
    cases (hnone.symm.trans hsame).trans hlocal
  · exact True.intro

/-- One that finds none of them keeps it. -/
theorem Owned.keepsOthers (h : Owned p) (hown : OwnCleanup (p,move)) : KeepsOthers (p,move) := by
  rintro conn p' hmove hstep playerID other hlocal hne
  dsimp only at hmove
  subst hmove
  obtain ⟨⟨playerID',ended⟩,hconn,hleaves⟩ := Option.bind_eq_some_iff.mp hstep
  cases ended with
  | true => cases hleaves
  | false =>
    cases hleaves
    by_cases he : playerID=playerID'
    · subst he
      exact absurd (hown ⟨playerID,false⟩ hconn rfl other hlocal) hne
    · exact h.leave_same hconn he

/-- A run whose handlers end with their own registration or none, or until the first one that
does not. -/
theorem owned_of_run {moves : List GoMove} {first : PubSub} (h : Owned first)
    (hown : ∀ moment∈first.moments moves,OwnCleanup moment) :
    (∀ moment∈first.moments moves,Owned moment.1) ∧
      ∀ p,first.run moves=some p → Owned p := by
  induction moves generalizing first with
  | nil =>
    refine ⟨(fun _ hmoment => nomatch hmoment),fun p hrun => ?_⟩
    cases hrun
    exact h
  | cons move moves ih =>
    have hfirst := hown (first,move) List.mem_cons_self
    cases hs : first.step move with
    | none =>
      refine ⟨fun moment hmoment => ?_,fun p hrun => ?_⟩
      · simp only [PubSub.moments,hs,List.mem_singleton] at hmoment
        rw [hmoment]
        exact h
      · rw [PubSub.run,hs] at hrun
        cases hrun
    | some second =>
      simp only [PubSub.moments,hs] at hown ⊢
      obtain ⟨hmoments,hfinal⟩ := ih (h.step hfirst hs)
        fun moment hmoment => hown moment (List.mem_cons_of_mem _ hmoment)
      constructor
      · intro moment hmoment
        obtain rfl | hlater := List.mem_cons.mp hmoment
        · exact h
        · exact hmoments moment hlater
      · intro p hrun
        rw [PubSub.run,hs] at hrun
        exact hfinal p hrun

/-- The newest connection of a player is served as long as its handler goes on. -/
theorem Owned.delivered (h : Owned p) : Delivered p :=
  fun conn playerID hconn hnewest _ => h.serves conn playerID hconn hnewest

end PubSub

end Go

/-- On both servers, the cleanups of a run leave every newer socket what is its own, and
messages reach the newest live socket, if and only if every cleanup finds its own socket
registered, or none. -/
theorem ownership_iff (redis : Bool) (moves : List Move) (hgives : ∀ player,.gives player∉moves)
    (moves' : List GoMove) :
    (Owns redis moves ↔ ∀ moment∈Manager.initial.moments redis moves,OwnCleanup moment) ∧
      (PubSub.Owns moves' ↔ ∀ moment∈PubSub.new.moments moves',PubSub.OwnCleanup moment) := by
  constructor
  · constructor
    · exact fun howns moment hmoment => (keepsOthers_iff moment).mp (howns.1 moment hmoment)
    · intro hown
      exact ⟨fun moment hmoment => (keepsOthers_iff moment).mpr (hown moment hmoment),
        fun manager hrun => (owned_of_run hgives hown hrun).delivered⟩
  · constructor
    · exact fun howns moment hmoment => PubSub.ownCleanup_of_keeps (howns.1 moment hmoment)
    · intro hown
      obtain ⟨hmoments,hfinal⟩ := PubSub.owned_of_run PubSub.owned_new hown
      exact ⟨fun moment hmoment => (hmoments moment hmoment).keepsOthers (hown moment hmoment),
        fun p hrun => (hfinal p hrun).delivered⟩

/-- Player 1 waits for a match, leaves and opens his game. -/
def inTurn : List Move :=
  [.opens (.small 1) "matchmaking",.accepted 0 true,.leaves 0,.opens (.small 1) "game",
    .accepted 1 true]

/-- His game socket keeps its registration; so it does on the other server. -/
theorem inTurn_owns : Owns true inTurn ∧
    PubSub.Owns [.registers "1",.leaves 0,.registers "1"] := by
  have hgives : ∀ player,Move.gives player∉inTurn := by
    intro player hmem
    simp [inTurn] at hmem
  have hiff := ownership_iff true inTurn hgives [.registers "1",.leaves 0,.registers "1"]
  exact ⟨hiff.1.mpr (by decide),hiff.2.mpr (by decide)⟩

/-- He opens his game while his matchmaking socket is still registered; connect closes that,
and its handler comes to its cleanup afterwards. -/
def overlapping : List Move :=
  [.opens (.small 1) "matchmaking",.accepted 0 true,.opens (.small 1) "game",.accepted 1 true,
    .closed 1,.drops 0,.leaves 0]

/-- His game socket loses its registration, and on the other server as well. -/
theorem newer_socket_lost :
    ¬(∀ moves : List Move,(∀ player,.gives player∉moves) → Owns true moves) ∧
      ¬∀ moves : List GoMove,PubSub.Owns moves := by
  constructor
  · intro h
    have hgives : ∀ player,Move.gives player∉overlapping := by
      intro player hmem
      simp [overlapping] at hmem
    have hrun : (Manager.initial.run true overlapping).map (fun manager =>
        (manager.route (.small 1),manager.handlers))=
        some (none,[⟨.small 1,"matchmaking",.disconnected,.ended⟩,
          ⟨.small 1,"game",.connected,.serving⟩]) := by decide
    have hnewest : newest (.small 1) (Manager.initial.moments true overlapping)=some 1 := by decide
    obtain ⟨manager,hmanager,hview⟩ := Option.map_eq_some_iff.mp hrun
    obtain ⟨hroute,hhandlers⟩ := Prod.mk.inj hview
    have hdelivered := (h overlapping hgives).2 manager hmanager (.small 1) 1 hnewest
    rw [hhandlers,hroute] at hdelivered
    have hother : ∀ (other : Socket) (handler : Handler),
        [Handler.mk (.small 1) "matchmaking" .disconnected .ended,
          Handler.mk (.small 1) "game" .connected .serving][other]?=some handler →
        handler.player=.small 1 → handler.stage=.serving → other=1 := by
      intro other handler hhandler _ hstage
      match other,hhandler with
      | 0,hhandler =>
        cases hhandler
        cases hstage
      | 1,_ => rfl
    cases hdelivered hother _ rfl rfl rfl
  · intro h
    have hrun : (PubSub.new.run [.registers "1",.registers "1",.leaves 0]).map (fun p =>
        (p.locals "1",p.conns))=some (none,[⟨"1",true⟩,⟨"1",false⟩]) := by decide
    obtain ⟨p,hp,hview⟩ := Option.map_eq_some_iff.mp hrun
    obtain ⟨hlocal,hconns⟩ := Prod.mk.inj hview
    have hdelivered := (h _).2 p hp 1 "1"
    rw [PubSub.Newest,hconns] at hdelivered
    have hnewest : ∀ later c,[Conn.mk "1" true,Conn.mk "1" false][later]?=some c →
        c.playerID="1" → later≤1 := by
      intro later c hlater _
      have hlt := (List.getElem?_eq_some_iff.mp hlater).1
      exact Nat.lt_succ_iff.mp hlt
    have hother : ∀ other c,[Conn.mk "1" true,Conn.mk "1" false][other]?=some c →
        c.playerID="1" → c.ended=false → other=1 := by
      intro other c hc _ hended
      match other,hc with
      | 0,hc =>
        cases hc
        cases hended
      | 1,_ => rfl
    have hserves := hdelivered rfl hnewest hother
    cases hlocal.symm.trans hserves.locals

end KiClash.SocketOwnership

import KiClash.RoomRuns

/-!
# What a request changes of a room that is not its own

leave_room reads the room in one step and writes in another one. As long as the room has
not changed hands in between, every character, ready and leave request changes only what
belongs to its player; and a room in game stays bound to its guest and its game until one
of the two leaves, unless the guest joins it again. Each of the two conditions is exact.
-/

namespace KiClash.RoomGuards

open EngineTypes Engine AsyncTasks WatchedKey TaskPhases TransactionReads Histories
open Rooms RoomPhases RoomRuns

/-- A write of leave_room finds the room without a guest or with the guest that the
request has read, or, if it deletes the room, with the host that it has read. -/
def unmoved (room : RoomState) (performed : Performed watcher) : Bool :=
  !performed.effective || match performed.phase.stage,performed.op with
    | .leaving _ loaded,.store (.exec _ _ _ _) =>
      room.guest.all fun guest => loaded.guest.any fun guest' => guest'.id=guest.id
    | .destroying _ loaded,.store .delete => loaded.host.id=room.host.id
    | _,_ => true

/-- The guest joins the room again. -/
def rejoins (room : RoomState) (performed : Performed watcher) : Bool :=
  performed.effective && match performed.phase.stage,performed.op with
    | .updating (.join player),.store (.exec _ _ _ _) =>
      room.guest.any fun guest => guest.id=player.id
    | _,_ => false

/-- What a moment performs passes a test on the room that is stored. -/
def passes (test : RoomState → Performed watcher → Bool) (moment : Moment) : Bool :=
  (moment.1.performed moment.2).all fun performed =>
    moment.1.config.world.value.all fun room => test room performed

/-- No write of leave_room finds that the room has changed hands. -/
def Unmoved (moment : Moment) : Prop := passes unmoved moment=true

/-- The same of a room in game, which the guest does not join again. -/
def Respected (moment : Moment) : Prop :=
  passes (fun room performed =>
    room.status≠.inGame || (unmoved room performed && !rejoins room performed)) moment=true

instance (moment : Moment) : Decidable (Unmoved moment) := inferInstanceAs (Decidable (_=_))

instance (moment : Moment) : Decidable (Respected moment) := inferInstanceAs (Decidable (_=_))

/-- The player of a character, ready or leave request. -/
def actor : Stage → Option UUID
  | .updating (.character playerId _) | .updating (.ready playerId _) => some playerId
  | .asking playerId | .leaving playerId _ | .destroying playerId _ => some playerId
  | _ => none

/-- The rooms differ only in the slot of the player, in whether he is in the room, and in
the status that follows from that. -/
structure FrameOf (playerId : UUID) (room room' : RoomState) : Prop where
  /-- The code. -/
  code : room'.code=room.code
  /-- The game. -/
  gameId : room'.gameId=room.gameId
  /-- The host stays. -/
  host : room'.host.id=room.host.id ∧ room'.host.name=room.host.name
  /-- The slot of another host. -/
  otherHost : room.host.id≠playerId → room'.host=room.host
  /-- The slot of another guest. -/
  otherGuest : ∀ guest,room.guest=some guest → guest.id≠playerId → room'.guest=some guest
  /-- The player is not replaced by another guest. -/
  ownGuest : ∀ guest',room'.guest=some guest' →
    ∃ guest,room.guest=some guest ∧ guest'.id=guest.id ∧ guest'.name=guest.name
  /-- The status. -/
  status : room'.status=if room'.guest.isSome=room.guest.isSome then room.status else .waiting

/-- A character, ready or leave request changes only what belongs to its player; it
deletes only a room of which he is the host, and creates none. -/
def OwnOnly (moment : Moment) : Prop :=
  ∀ performed,moment.1.performed moment.2=some performed →
    ∀ playerId,actor performed.phase.stage=some playerId →
    ∀ seen',moment.1.step moment.2=some seen' →
      match moment.1.config.world.value,seen'.config.world.value with
      | some room,some room' => FrameOf playerId room room'
      | some room,none => room.host.id=playerId
      | none,after => after=none

/-- The guest leaves the room, or the host does. -/
def memberLeaves (room : RoomState) (performed : Performed watcher) : Prop :=
  match performed.phase.stage with
  | .leaving playerId _ => ∃ guest,room.guest=some guest ∧ guest.id=playerId
  | .destroying playerId _ => room.host.id=playerId
  | _ => False

/-- A room in game stays in game with its guest and its game, unless the host or the guest
leaves. -/
def Bound (moment : Moment) : Prop :=
  ∀ seen',moment.1.step moment.2=some seen' →
    ∀ room,moment.1.config.world.value=some room → room.status=.inGame →
      (∃ room',seen'.config.world.value=some room' ∧ room'.status=.inGame ∧
        room'.guest.map RoomPlayer.id=room.guest.map RoomPlayer.id ∧ room'.gameId=room.gameId) ∨
      ∃ performed,moment.1.performed moment.2=some performed ∧ memberLeaves room performed

section Loaded

variable {seen seen' : Seen watcher} {move : rooms.Move}

/-- What leave_room has read. -/
structure Loaded (seen : Seen watcher) : Prop where
  /-- The player is the guest. -/
  leaving : ∀ (task : ℕ) (phase : Phase) (playerId : UUID) (loaded : RoomState),
    seen.phases[task]?=some phase → phase.stage=.leaving playerId loaded →
    ∃ guest,loaded.guest=some guest ∧ guest.id=playerId
  /-- The player is the host. -/
  destroying : ∀ (task : ℕ) (phase : Phase) (playerId : UUID) (loaded : RoomState),
    seen.phases[task]?=some phase → phase.stage=.destroying playerId loaded →
    loaded.host.id=playerId

/-- Who leaves as a guest has read so, just now or before. -/
theorem leaving_next {attempt : Attempt RoomState} {stage : Stage} {o : Op language}
    {r : Except Exc o.Res} {playerId : UUID} {loaded : RoomState}
    (h : stage.next attempt o r=.leaving playerId loaded) :
    stage=.leaving playerId loaded ∨ ∃ guest,loaded.guest=some guest ∧ guest.id=playerId := by
  unfold Stage.next at h
  split at h
  · cases h
  · cases h
  · cases h
  · split at h
    · unfold written at h
      split at h <;> cases h
    · cases h
  · cases h
  · split at h
    · cases h
    · next hhost =>
      split at h
      · next hmember =>
        cases h
        right
        rw [RoomState.isMember,Bool.or_eq_true] at hmember
        obtain hid | hguest := hmember
        · exact absurd (of_decide_eq_true hid).symm hhost
        · obtain ⟨guest,hsome,hid⟩ := (Option.any_eq_true _ _).mp hguest
          exact ⟨guest,hsome,(of_decide_eq_true hid).symm⟩
      · cases h
  · cases h
  · exact .inl h

/-- So has who leaves as the host. -/
theorem destroying_next {attempt : Attempt RoomState} {stage : Stage} {o : Op language}
    {r : Except Exc o.Res} {playerId : UUID} {loaded : RoomState}
    (h : stage.next attempt o r=.destroying playerId loaded) :
    stage=.destroying playerId loaded ∨ loaded.host.id=playerId := by
  unfold Stage.next at h
  split at h
  · cases h
  · cases h
  · cases h
  · split at h
    · unfold written at h
      split at h <;> cases h
    · cases h
  · cases h
  · split at h
    · next hhost =>
      cases h
      exact .inr hhost
    · split at h <;> cases h
  · cases h
  · exact .inl h

/-- Every move keeps what leave_room has read. -/
theorem Loaded.step (h : Loaded seen) (hs : Seen.Moved seen move seen') : Loaded seen' := by
  constructor
  · intro task phase' playerId loaded hphase' hstage
    cases hs with
    | opened entry harrives =>
      obtain hold | ⟨-,hnew⟩ := @Seen.getElem?_extended _ _ (some (watcher.start entry)) _ _ hphase'
      · exact h.leaving task phase' playerId loaded hold hstage
      · cases entry <;> cases hnew <;> cases hstage
    | performed other choice phase o rest world r started htask hphase hp =>
      obtain ⟨rfl,rfl⟩ | ⟨-,hold⟩ | ⟨-,hstarted⟩ := Seen.getElem?_moved hphase'
      · obtain hbefore | hread := leaving_next hstage
        · exact h.leaving task phase playerId loaded hphase hbefore
        · exact hread
      · exact h.leaving task phase' playerId loaded hold hstage
      · obtain ⟨entry,-,rfl⟩ := Option.map_eq_some_iff.mp hstarted
        cases entry <;> cases hstage
  · intro task phase' playerId loaded hphase' hstage
    cases hs with
    | opened entry harrives =>
      obtain hold | ⟨-,hnew⟩ := @Seen.getElem?_extended _ _ (some (watcher.start entry)) _ _ hphase'
      · exact h.destroying task phase' playerId loaded hold hstage
      · cases entry <;> cases hnew <;> cases hstage
    | performed other choice phase o rest world r started htask hphase hp =>
      obtain ⟨rfl,rfl⟩ | ⟨-,hold⟩ | ⟨-,hstarted⟩ := Seen.getElem?_moved hphase'
      · obtain hbefore | hread := destroying_next hstage
        · exact h.destroying task phase playerId loaded hphase hbefore
        · exact hread
      · exact h.destroying task phase' playerId loaded hold hstage
      · obtain ⟨entry,-,rfl⟩ := Option.map_eq_some_iff.mp hstarted
        cases entry <;> cases hstage

end Loaded

section Frames

variable {room room' : RoomState} {playerId : UUID}

/-- Nothing has changed. -/
theorem frameOf_refl (playerId : UUID) (room : RoomState) : FrameOf playerId room room :=
  ⟨rfl,rfl,⟨rfl,rfl⟩,fun _ => rfl,fun _ hguest _ => hguest,
    fun guest hguest => ⟨guest,hguest,rfl,rfl⟩,(if_pos rfl).symm⟩

/-- The host changes his slot. -/
theorem frameOf_host (hid : playerId=room.host.id) {host : RoomPlayer}
    (hhost : host.id=room.host.id ∧ host.name=room.host.name) :
    FrameOf playerId room {room with host := host} :=
  ⟨rfl,rfl,hhost,fun hne => absurd hid.symm hne,fun _ hguest _ => hguest,
    fun guest hguest => ⟨guest,hguest,rfl,rfl⟩,(if_pos rfl).symm⟩

/-- The guest changes his slot. -/
theorem frameOf_guest {guest guest' : RoomPlayer} (hguest : room.guest=some guest)
    (hid : playerId=guest.id) (hsame : guest'.id=guest.id ∧ guest'.name=guest.name) :
    FrameOf playerId room {room with guest := some guest'} := by
  refine ⟨rfl,rfl,⟨rfl,rfl⟩,fun _ => rfl,?_,?_,?_⟩
  · intro other hother hne
    cases hguest.symm.trans hother
    exact absurd hid.symm hne
  · intro other hother
    cases hother
    exact ⟨guest,hguest,hsame⟩
  · rw [hguest]
    exact (if_pos rfl).symm

/-- A character request changes only the slot of its player. -/
theorem frameOf_character {characterId : String}
    (h : Rewrites room (.character playerId characterId) room') :
    FrameOf playerId room room' := by
  cases h with
  | hostPicked _ _ hhost => exact frameOf_host hhost ⟨rfl,rfl⟩
  | guestPicked _ _ hhost guest hguest hid => exact frameOf_guest hguest hid ⟨rfl,rfl⟩

/-- So does a ready request. -/
theorem frameOf_ready {ready : Bool} (h : Rewrites room (.ready playerId ready) room') :
    FrameOf playerId room room' := by
  cases h with
  | hostReady _ _ hhost => exact frameOf_host hhost ⟨rfl,rfl⟩
  | guestReady _ _ hhost guest hguest hid => exact frameOf_guest hguest hid ⟨rfl,rfl⟩

/-- A guest who leaves removes nobody else exactly if he is the guest, or there is none. -/
theorem frameOf_leave (hconsistent : Consistent room) :
    FrameOf playerId room {room with guest := none,status := .waiting} ↔
      ∀ guest,room.guest=some guest → guest.id=playerId := by
  constructor
  · intro h guest hguest
    by_contra hne
    exact nomatch h.otherGuest guest hguest hne
  · intro h
    refine ⟨rfl,rfl,⟨rfl,rfl⟩,fun _ => rfl,?_,nofun,?_⟩
    · intro guest hguest hne
      exact absurd (h guest hguest) hne
    · cases hguest : room.guest with
      | none => exact (hconsistent.waiting.mpr hguest).symm
      | some guest => rfl

end Frames

section Moments

variable {seen seen' : Seen watcher} {task : ℕ} {choice : Choice} {phase : Phase} {o : Op language}
  {rest : Except Exc o.Res → Coroutine Unit} {world : World runtime} {r : Except Exc o.Res}
  {started : Option Entry}

/-- A test on what a request performs. -/
theorem passes_run {test : RoomState → Performed watcher → Bool}
    (htask : seen.config.tasks[task]?=some (.op o rest)) (hphase : seen.phases[task]?=some phase)
    (hp : WatchedKey.perform (R := runtime) choice task seen.config.tasks.length o
      seen.config.world=some (world,r,started)) :
    passes test (seen,System.Move.run task choice)=seen.config.world.value.all fun room =>
      test room ⟨task,phase,o,took choice o seen.config.world,r⟩ := by
  rw [passes,Seen.performed_eq htask hphase hp,Option.all_some]

/-- What an operation that writes nothing finds does not matter. -/
theorem unmoved_of_idle (room : RoomState)
    (h : ReadOnly o ∨ took choice o seen.config.world=false) :
    unmoved room ⟨task,phase,o,took choice o seen.config.world,r⟩=true := by
  obtain hread | hidle := h
  · obtain ⟨stage,attempt⟩ := phase
    match o with
    | .store .watch | .store .unwatch | .store .get | .store .load | .act _ =>
      cases stage <;> exact Bool.or_true _
    | .store (.exec _ _ _ _) | .store (.set _ _ _) | .store .delete => exact hread.elim
  · simp [unmoved,hidle]

/-- The transaction of a request that does not leave finds nothing that has changed hands. -/
theorem unmoved_of_stays (room : RoomState) (effective : Bool) {token retriesLeft : ℕ} {call : Call}
    {after : RoomState} {r : Except Exc Bool}
    (hstage : ∀ playerId loaded,phase.stage≠.leaving playerId loaded) :
    unmoved room ⟨task,phase,.store (.exec token retriesLeft call after),effective,r⟩=true := by
  obtain ⟨stage,attempt⟩ := phase
  cases stage with
  | leaving playerId loaded => exact absurd rfl (hstage playerId loaded)
  | _ => exact Bool.or_true _

/-- The player of a leave request has the room as its guest exactly if the room has the
guest that the request has read. -/
theorem unmoved_of_leaving {room loaded after : RoomState} {playerId : UUID}
    {attempt : Attempt RoomState} {token retriesLeft : ℕ} {call : Call} {r : Except Exc Bool}
    (hloaded : ∃ guest,loaded.guest=some guest ∧ guest.id=playerId) :
    unmoved room ⟨task,⟨.leaving playerId loaded,attempt⟩,
        .store (.exec token retriesLeft call after),true,r⟩=true ↔
      ∀ guest,room.guest=some guest → guest.id=playerId := by
  obtain ⟨guest,hguest,rfl⟩ := hloaded
  simp only [unmoved,Bool.not_true,Bool.false_or,hguest,Option.any_some]
  cases room.guest with
  | none => exact ⟨(fun _ _ h => nomatch h),fun _ => rfl⟩
  | some other =>
    rw [Option.all_some,decide_eq_true_iff]
    constructor
    · intro he guest' hguest'
      cases hguest'
      exact he.symm
    · intro h
      exact (h other rfl).symm

/-- A character, ready or leave request changes only what belongs to its player exactly if
what it finds has not changed hands. -/
theorem ownOnly_iff (hregular : Regular seen) (hsettled : Settled seen) (hloaded : Loaded seen)
    {move : rooms.Move} (hstep : seen.step move=some seen') :
    OwnOnly (seen,move) ↔ Unmoved (seen,move) := by
  have hmoved := Seen.moved hregular.conforms.phased hstep
  cases hmoved with
  | opened entry harrives => exact ⟨(fun _ => rfl),(fun _ _ hperformed => nomatch hperformed)⟩
  | performed task choice phase o rest world r started htask hphase hp =>
    have hperformed := Seen.performed_eq htask hphase hp
    have hown : OwnOnly (seen,System.Move.run task choice) ↔
        ∀ playerId,actor phase.stage=some playerId →
          match seen.config.world.value,world.value with
          | some room,some room' => FrameOf playerId room room'
          | some room,none => room.host.id=playerId
          | none,after => after=none := by
      constructor
      · exact fun h playerId hactor => h _ hperformed playerId hactor _ hstep
      · intro h performed hperformed' playerId hactor seen'' hstep'
        cases hperformed.symm.trans hperformed'
        cases hstep.symm.trans hstep'
        exact h playerId hactor
    rw [hown,Unmoved,passes_run htask hphase hp]
    cases hregular.wrote htask hphase hp with
    | transaction token retriesLeft call before after _ htook hruns hbefore hafter hfound hmakes =>
      have hrewrites := rewrites_of_makes hmakes
      rw [hbefore,hafter,Option.all_some,htook]
      obtain ⟨stage,attempt⟩ := phase
      cases stage with
      | updating call' =>
        refine ⟨fun _ => unmoved_of_stays before true nofun,fun _ playerId hactor => ?_⟩
        obtain ⟨rfl,hordinary⟩ := hruns
        cases call with
        | create | start | leave => exact hordinary.elim
        | join player => cases hactor
        | character =>
          cases hactor
          exact frameOf_character hrewrites
        | ready =>
          cases hactor
          exact frameOf_ready hrewrites
      | starting playerId stale =>
        exact ⟨(fun _ => unmoved_of_stays before true nofun),(fun _ _ hactor => nomatch hactor)⟩
      | leaving playerId loaded =>
        have hread := hloaded.leaving task _ playerId loaded hphase rfl
        have hcall : call=.leave playerId := hruns
        subst hcall
        cases hrewrites
        have hframe := @frameOf_leave before playerId (hsettled.consistent.1 before hbefore)
        rw [unmoved_of_leaving hread,← hframe]
        constructor
        · exact fun h => h playerId rfl
        · intro h playerId' hactor
          cases hactor
          exact h
      | _ => exact hruns.elim
    | created code host _ hstage htook hbefore hafter =>
      rw [hbefore]
      refine ⟨fun _ => rfl,fun _ playerId hactor => ?_⟩
      rw [hstage] at hactor
      cases hactor
    | deleted playerId loaded _ hstage htook hafter =>
      have hread := hloaded.destroying task phase playerId loaded hphase hstage
      rw [hafter]
      cases hroom : seen.config.world.value with
      | none => exact ⟨fun _ => rfl,fun _ _ _ => rfl⟩
      | some room =>
        simp only [Option.all_some,unmoved,htook,hstage,hread,actor,Option.some.injEq,
          Bool.not_true,Bool.false_or,decide_eq_true_iff,forall_eq']
        exact eq_comm
    | kept _ _ hvalue hidle =>
      rw [hvalue]
      cases hroom : seen.config.world.value with
      | none => exact ⟨fun _ => rfl,fun _ _ _ => rfl⟩
      | some room =>
        refine ⟨fun _ => ?_,fun _ playerId _ => frameOf_refl playerId room⟩
        rw [Option.all_some]
        exact unmoved_of_idle room hidle

/-- What an operation that writes nothing makes is no new join. -/
theorem rejoins_of_idle (room : RoomState)
    (h : ReadOnly o ∨ took choice o seen.config.world=false) :
    rejoins room ⟨task,phase,o,took choice o seen.config.world,r⟩=false := by
  obtain hread | hidle := h
  · obtain ⟨stage,attempt⟩ := phase
    match o with
    | .store .watch | .store .unwatch | .store .get | .store .load | .act _ =>
      cases stage with
      | updating call => cases call <;> exact Bool.and_false _
      | _ => exact Bool.and_false _
    | .store (.exec _ _ _ _) | .store (.set _ _ _) | .store .delete => exact hread.elim
  · simp [rejoins,hidle]

/-- The transaction of a request that does not join a room is no new join. -/
theorem rejoins_of_stays (room : RoomState) {token retriesLeft : ℕ} {call : Call}
    {after : RoomState} {r : Except Exc Bool}
    (hstage : ∀ player,phase.stage≠.updating (.join player)) :
    rejoins room ⟨task,phase,.store (.exec token retriesLeft call after),true,r⟩=false := by
  obtain ⟨stage,attempt⟩ := phase
  cases stage with
  | updating call =>
    cases call with
    | join player => exact absurd rfl (hstage player)
    | create | character | ready | start | leave => rfl
  | _ => rfl

/-- The room is in game with the same guest and the same game. -/
def StaysBound (room : RoomState) (after : Option RoomState) : Prop :=
  ∃ room',after=some room' ∧ room'.status=.inGame ∧
    room'.guest.map RoomPlayer.id=room.guest.map RoomPlayer.id ∧ room'.gameId=room.gameId

/-- An operation that is not a new join and finds the room unmoved keeps a room in game
bound, unless a member leaves; any other one does not. -/
theorem staysBound_or_leaves_iff (hregular : Regular seen) (hloaded : Loaded seen)
    (htask : seen.config.tasks[task]?=some (.op o rest)) (hphase : seen.phases[task]?=some phase)
    (hp : WatchedKey.perform (R := runtime) choice task seen.config.tasks.length o
      seen.config.world=some (world,r,started))
    {room : RoomState} (hconsistent : Consistent room)
    (hroom : seen.config.world.value=some room) (hgame : room.status=.inGame) :
    (StaysBound room world.value ∨
        memberLeaves room ⟨task,phase,o,took choice o seen.config.world,r⟩) ↔
      unmoved room ⟨task,phase,o,took choice o seen.config.world,r⟩=true ∧
        rejoins room ⟨task,phase,o,took choice o seen.config.world,r⟩=false := by
  obtain ⟨-,-,guest,hguest,-⟩ := hconsistent.inGame hgame
  cases hregular.wrote htask hphase hp with
  | transaction token retriesLeft call before after _ htook hruns hbefore hafter hfound hmakes =>
    obtain rfl : before=room := Option.some.inj (hbefore.symm.trans hroom)
    have hrewrites := rewrites_of_makes hmakes
    rw [hafter,htook]
    obtain ⟨stage,attempt⟩ := phase
    cases stage with
    | updating call' =>
      obtain ⟨rfl,hordinary⟩ := hruns
      have hunmoved := fun r => @unmoved_of_stays task ⟨.updating call,attempt⟩ before true token
        retriesLeft call after r nofun
      cases hrewrites with
      | startedBefore | started | left => exact hordinary.elim
      | welcomed player hhost =>
        refine ⟨fun _ => ⟨hunmoved r,?_⟩,fun _ => .inl ⟨before,rfl,hgame,rfl,rfl⟩⟩
        have hother : guest.id≠player.id := fun he => hconsistent.distinct guest hguest (he.trans hhost.symm)
        simp [rejoins,hguest,hother]
      | joined player hhost hfree =>
        have hagain := hfree guest hguest
        constructor
        · intro h
          obtain ⟨room',hroom',hstatus,-⟩ | hleaves := h
          · cases hroom'
            cases hstatus
          · exact hleaves.elim
        · intro h
          have hrejoins := h.2
          simp [rejoins,hguest,hagain] at hrejoins
      | hostPicked | hostReady =>
        exact ⟨fun _ => ⟨hunmoved r,rejoins_of_stays before nofun⟩,
          fun _ => .inl ⟨_,rfl,hgame,rfl,rfl⟩⟩
      | guestPicked playerId characterId hhost guest' hguest' hid =>
        refine ⟨fun _ => ⟨hunmoved r,rejoins_of_stays before nofun⟩,
          fun _ => .inl ⟨_,rfl,hgame,?_,rfl⟩⟩
        rw [hguest']
        rfl
      | guestReady playerId ready hhost guest' hguest' hid hpicked =>
        refine ⟨fun _ => ⟨hunmoved r,rejoins_of_stays before nofun⟩,
          fun _ => .inl ⟨_,rfl,hgame,?_,rfl⟩⟩
        rw [hguest']
        rfl
    | starting playerId stale =>
      have hcall : call=.start playerId := hruns
      subst hcall
      cases hrewrites with
      | startedBefore =>
        exact ⟨fun _ => ⟨unmoved_of_stays before true nofun,rejoins_of_stays before nofun⟩,
          fun _ => .inl ⟨before,rfl,hgame,rfl,rfl⟩⟩
      | started _ _ _ hstatus => exact absurd hgame hstatus
    | leaving playerId loaded =>
      have hread := hloaded.leaving task _ playerId loaded hphase rfl
      have hcall : call=.leave playerId := hruns
      subst hcall
      cases hrewrites
      rw [unmoved_of_leaving hread]
      constructor
      · intro h
        refine ⟨?_,rejoins_of_stays before nofun⟩
        obtain ⟨room',hroom',hstatus,-⟩ | ⟨guest',hguest',hid⟩ := h
        · cases hroom'
          cases hstatus
        · intro guest'' hguest''
          cases hguest'.symm.trans hguest''
          exact hid
      · exact fun h => .inr ⟨guest,hguest,h.1 guest hguest⟩
    | _ => exact hruns.elim
  | created code host _ hstage htook hbefore hafter => cases hbefore.symm.trans hroom
  | deleted playerId loaded _ hstage htook hafter =>
    have hread := hloaded.destroying task phase playerId loaded hphase hstage
    have hgone : ¬StaysBound room world.value := by
      rintro ⟨room',hroom',-⟩
      cases hafter.symm.trans hroom'
    rw [or_iff_right hgone]
    simp only [memberLeaves,unmoved,rejoins,htook,hstage,hread,Bool.not_true,Bool.false_or,
      Bool.and_false,decide_eq_true_iff,and_true]
    exact eq_comm
  | kept _ _ hvalue hidle =>
    refine ⟨fun _ => ⟨unmoved_of_idle room hidle,rejoins_of_idle room hidle⟩,fun _ => .inl ?_⟩
    exact ⟨room,hvalue.trans hroom,hgame,rfl,rfl⟩

/-- A room in game stays bound exactly if nobody leaves it who has not read so, and the
guest does not join it again. -/
theorem bound_iff (hregular : Regular seen) (hsettled : Settled seen) (hloaded : Loaded seen)
    {move : rooms.Move} (hstep : seen.step move=some seen') :
    Bound (seen,move) ↔ Respected (seen,move) := by
  have hmoved := Seen.moved hregular.conforms.phased hstep
  cases hmoved with
  | opened entry harrives =>
    refine ⟨(fun _ => rfl),fun _ seen'' hstep' room hroom hstatus => .inl ?_⟩
    cases hstep.symm.trans hstep'
    exact ⟨room,hroom,hstatus,rfl,rfl⟩
  | performed task choice phase o rest world r started htask hphase hp =>
    have hperformed := Seen.performed_eq htask hphase hp
    have hbound : Bound (seen,System.Move.run task choice) ↔
        ∀ room,seen.config.world.value=some room → room.status=.inGame →
          StaysBound room world.value ∨
            memberLeaves room ⟨task,phase,o,took choice o seen.config.world,r⟩ := by
      constructor
      · intro h room hroom hstatus
        obtain hstays | ⟨performed,hperformed',hleaves⟩ := h _ hstep room hroom hstatus
        · exact .inl hstays
        · cases hperformed.symm.trans hperformed'
          exact .inr hleaves
      · intro h seen'' hstep' room hroom hstatus
        cases hstep.symm.trans hstep'
        exact (h room hroom hstatus).imp_right fun hleaves => ⟨_,hperformed,hleaves⟩
    rw [hbound,Respected,passes_run htask hphase hp]
    cases hroom : seen.config.world.value with
    | none => exact ⟨(fun _ => rfl),(fun _ _ hsome => nomatch hsome)⟩
    | some room =>
      have hcore := staysBound_or_leaves_iff hregular hloaded htask hphase hp
        (hsettled.consistent.1 room hroom) hroom
      rw [Option.all_some]
      by_cases hgame : room.status=.inGame
      · simp only [Option.some.injEq,forall_eq',hgame,ne_eq,not_true_eq_false,decide_false,
          Bool.false_or,Bool.and_eq_true,Bool.not_eq_true',forall_const]
        exact hcore hgame
      · refine ⟨fun _ => by simp [hgame],?_⟩
        rintro - other ⟨⟩ hgame'
        exact absurd hgame' hgame

end Moments

section Runs

variable {seen : Seen watcher} {moves : List rooms.Move}

/-- In every run leave_room has read what it goes by. -/
theorem loaded (hrun : (Seen.initial watcher initial).run moves=some seen) : Loaded seen :=
  (Seen.invariant (I := Loaded) (F := fun _ _ => True) handler_follows rfl
    (fun _ _ h _ hs => h.step hs) hrun (fun _ _ => True.intro)
    ⟨(fun _ _ _ _ hphase => nomatch hphase),(fun _ _ _ _ hphase => nomatch hphase)⟩).1

/-- What is known of each moment of a run from the run before it holds of all of them. -/
theorem forall_moments_iff {F Q : Moment → Prop}
    (hrun : (Seen.initial watcher initial).run moves=some seen)
    (h : ∀ {moves₁ : List rooms.Move} {seen₁ seen₂ : Seen watcher} {move : rooms.Move},
      (Seen.initial watcher initial).run moves₁=some seen₁ → seen₁.step move=some seen₂ →
      (Q (seen₁,move) ↔ F (seen₁,move))) :
    (∀ moment∈momentsOf moves,Q moment) ↔ ∀ moment∈momentsOf moves,F moment := by
  have hmoment : ∀ moment∈momentsOf moves,Q moment ↔ F moment := by
    rintro ⟨seen₁,move⟩ hm
    obtain ⟨earlier,later,hsplit⟩ := List.append_of_mem hm
    obtain ⟨moves₁,moves₂,seen₂,-,hrun₁,-,hstep,-,-⟩ := Seen.split hrun hsplit
    exact h hrun₁ hstep
  exact forall₂_congr hmoment

/-- In a run the character, ready and leave requests change only what belongs to their
players exactly if no write of leave_room finds that the room has changed hands. -/
theorem only_own_changed_iff (hrun : (Seen.initial watcher initial).run moves=some seen) :
    (∀ moment∈momentsOf moves,OwnOnly moment) ↔ ∀ moment∈momentsOf moves,Unmoved moment := by
  refine forall_moments_iff hrun ?_
  intro moves₁ seen₁ seen₂ move hrun₁ hstep
  obtain ⟨hregular,hsettled⟩ := settled hrun₁
  exact ownOnly_iff hregular hsettled (loaded hrun₁) hstep

/-- In a run the rooms in game stay bound until a member leaves exactly if no write of
leave_room finds that a room in game has changed hands, and no guest joins one again. -/
theorem games_stay_bound_iff (hrun : (Seen.initial watcher initial).run moves=some seen) :
    (∀ moment∈momentsOf moves,Bound moment) ↔ ∀ moment∈momentsOf moves,Respected moment := by
  refine forall_moments_iff hrun ?_
  intro moves₁ seen₁ seen₂ move hrun₁ hstep
  obtain ⟨hregular,hsettled⟩ := settled hrun₁
  exact bound_iff hregular hsettled (loaded hrun₁) hstep

end Runs

section Examples

/-- Player 2 leaves the lobby, and player 3 joins. -/
def handOver : List rooms.Move := requests 0
  (lobby++[(.leaveRoom (.small 2),4),(.joinRoom (.small 3),3)])

/-- There nothing changes hands under a request. -/
theorem handOver_only_own : ∃ seen,(Seen.initial watcher initial).run handOver=some seen ∧
    seen.config.world.value.map (fun room => room.guest.map RoomPlayer.id)=some (some (.small 3)) ∧
    ∀ moment∈momentsOf handOver,OwnOnly moment := by
  have hguest : ((Seen.initial watcher initial).run handOver).map (fun seen =>
      seen.config.world.value.map fun room => room.guest.map RoomPlayer.id)=
        some (some (some (.small 3))) := by decide
  have hunmoved : ∀ moment∈momentsOf handOver,Unmoved moment := by decide
  obtain ⟨seen,hrun,hseen⟩ := Option.map_eq_some_iff.mp hguest
  exact ⟨seen,hrun,hseen,(only_own_changed_iff hrun).mpr hunmoved⟩

/-- Player 2 sends two leave requests, of which the first one only reads the room; player 3
joins; then the first request goes on. -/
def lateLeave : List rooms.Move :=
  requests 0 lobby++.open (.leaveRoom (.small 2))::proceeds 2 1++
    requests 3 [(.leaveRoom (.small 2),4),(.joinRoom (.small 3),3)]++proceeds 2 3

/-- It removes player 3. -/
theorem late_leave_removes_another : ¬∀ (moves : List rooms.Move) (seen : Seen watcher),
    (Seen.initial watcher initial).run moves=some seen →
      ∀ moment∈momentsOf moves,OwnOnly moment := by
  intro h
  have hrun : ((Seen.initial watcher initial).run lateLeave).isSome=true := by decide
  have hmoved : ¬∀ moment∈momentsOf lateLeave,Unmoved moment := by decide
  obtain ⟨seen,hseen⟩ := Option.isSome_iff_exists.mp hrun
  have howned := h lateLeave seen hseen
  apply hmoved
  refine (forall_moments_iff hseen ?_).mp howned
  intro moves₁ seen₁ seen₂ move hrun₁ hstep
  obtain ⟨hregular,hsettled⟩ := settled hrun₁
  exact ownOnly_iff hregular hsettled (loaded hrun₁) hstep

/-- The host starts the game, the guest picks another character, and then he leaves. -/
def gameLeft : List rooms.Move := requests 0 (lobby++readies++starts++
  [(.setCharacter (.small 2) "kai",3),(.leaveRoom (.small 2),4)])

/-- The game is bound until then. -/
theorem gameLeft_bound : ∃ seen,(Seen.initial watcher initial).run gameLeft=some seen ∧
    (∃ moment∈momentsOf gameLeft,
      moment.1.config.world.value.any (fun room => room.status=.inGame)=true) ∧
    ∀ moment∈momentsOf gameLeft,Bound moment := by
  have hrun : ((Seen.initial watcher initial).run gameLeft).isSome=true := by decide
  have hgame : ∃ moment∈momentsOf gameLeft,
      moment.1.config.world.value.any (fun room => room.status=.inGame)=true := by decide
  have hrespected : ∀ moment∈momentsOf gameLeft,Respected moment := by decide
  obtain ⟨seen,hseen⟩ := Option.isSome_iff_exists.mp hrun
  exact ⟨seen,hseen,hgame,(games_stay_bound_iff hseen).mpr hrespected⟩

/-- The host starts the game, and the guest joins the room once more. -/
def joinsAgain : List rooms.Move := requests 0 (lobby++readies++starts++
  [(.joinRoom (.small 2),3)])

/-- That takes the room out of the game. -/
theorem join_unbinds : ¬∀ (moves : List rooms.Move) (seen : Seen watcher),
    (Seen.initial watcher initial).run moves=some seen →
      ∀ moment∈momentsOf moves,Bound moment := by
  intro h
  have hrun : ((Seen.initial watcher initial).run joinsAgain).isSome=true := by decide
  have hjoined : ¬∀ moment∈momentsOf joinsAgain,Respected moment := by decide
  obtain ⟨seen,hseen⟩ := Option.isSome_iff_exists.mp hrun
  have hbound := h joinsAgain seen hseen
  apply hjoined
  refine (forall_moments_iff hseen ?_).mp hbound
  intro moves₁ seen₁ seen₂ move hrun₁ hstep
  obtain ⟨hregular,hsettled⟩ := settled hrun₁
  exact bound_iff hregular hsettled (loaded hrun₁) hstep

end Examples

end KiClash.RoomGuards

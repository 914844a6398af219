import KiClash.Histories
import Mathlib.Data.List.Induction
import Mathlib.Logic.Function.Basic
import Mathlib.Order.Basic

/-!
# Two slots and a clock

A library about turns for which two seats each put an action into a slot. When
both slots are full, the pair is taken out by the task that has filled the
second one, and is applied later, which ends the turn. The slots name no turn.
If every pair is applied before anything else is accepted, then what a turn is
played with is what the seats have last put into their slots during this turn.
-/

namespace KiClash.SlottedTurns

open Histories

/-- The two seats. -/
inductive Seat
  | first | second
  deriving DecidableEq, Repr

/-- What holds of both seats. -/
theorem Seat.forall_iff {P : Seat → Prop} : (∀ seat,P seat) ↔ P .first ∧ P .second := by
  constructor
  · intro h
    exact ⟨h .first,h .second⟩
  · intro h seat
    cases seat with
    | first => exact h.1
    | second => exact h.2

instance {P : Seat → Prop} [DecidablePred P] : Decidable (∀ seat,P seat) :=
  decidable_of_iff _ Seat.forall_iff.symm

variable {Turn Action : Type}

/-- The entry of the given seat. -/
def Seat.pick (first second : Action) : Seat → Action
  | .first => first
  | .second => second

/-- An action in a slot, with the task that has put it there and the turn in
which it has. -/
structure Deposit (Turn Action : Type) where
  /-- Who has put it there. -/
  task : ℕ
  /-- The turn at that time. -/
  turn : Turn
  /-- The action. -/
  action : Action
  deriving DecidableEq, Repr

/-- What an event means for the slots. -/
inductive Step (Turn Action : Type)
  | accepted (seat : Seat) (deposit : Deposit Turn Action)
  | applied (task : ℕ) (turn : Turn) (first second : Action)
  | other
  deriving DecidableEq, Repr

/-- The slots, and the pairs that have been taken out of them. -/
structure Table (Turn Action : Type) where
  /-- What lies in the slots. -/
  slots : Seat → Option (Deposit Turn Action)
  /-- The pair that each task has taken out last. -/
  carried : ℕ → Option (Seat → Deposit Turn Action)
  /-- The task that has taken a pair out, until anything is accepted or applied. -/
  ready : Option ℕ

/-- Empty slots. -/
def Table.empty : Table Turn Action := ⟨fun _ => none,fun _ => none,none⟩

/-- Put something into the slot of a seat. -/
def put (slots : Seat → Option (Deposit Turn Action)) (seat : Seat)
    (deposit : Deposit Turn Action) : Seat → Option (Deposit Turn Action) :=
  Function.update slots seat (some deposit)

/-- The pair in two full slots. -/
def full (slots : Seat → Option (Deposit Turn Action)) : Option (Seat → Deposit Turn Action) :=
  match slots .first,slots .second with
  | some first,some second => some (Seat.pick first second)
  | _,_ => none

/-- What a step does to the slots. -/
def Table.advance (table : Table Turn Action) : Step Turn Action → Table Turn Action
  | .accepted seat deposit =>
    match full (put table.slots seat deposit) with
    | none => ⟨put table.slots seat deposit,table.carried,none⟩
    | some pair =>
      ⟨fun _ => none,Function.update table.carried deposit.task (some pair),some deposit.task⟩
  | .applied _ _ _ _ => ⟨table.slots,table.carried,none⟩
  | .other => table

/-- The slots after so many steps. -/
def table (steps : List (Step Turn Action)) : Table Turn Action :=
  steps.foldl Table.advance .empty

@[simp] theorem table_append (steps : List (Step Turn Action)) (step : Step Turn Action) :
    table (steps++[step])=(table steps).advance step := by
  simp [table]

/-- Full slots hold the pair. -/
theorem full_eq_some {slots : Seat → Option (Deposit Turn Action)}
    {pair : Seat → Deposit Turn Action} :
    full slots=some pair ↔ ∀ seat,slots seat=some (pair seat) := by
  rw [Seat.forall_iff]
  unfold full
  constructor
  · intro h
    split at h
    · next first second h₁ h₂ =>
      cases h
      exact ⟨h₁,h₂⟩
    · cases h
  · rintro ⟨h₁,h₂⟩
    have hpair : Seat.pick (pair .first) (pair .second)=pair := by
      funext seat
      cases seat <;> rfl
    rw [h₁,h₂]
    exact congrArg some hpair

section Slots

variable {steps later : List (Step Turn Action)} {seat : Seat}

/-- The step neither fills the slot of the seat nor ends the turn. -/
def Step.Spares (seat : Seat) : Step Turn Action → Prop
  | .accepted seat' _ => seat'≠seat
  | .applied _ _ _ _ => False
  | .other => True

instance (seat : Seat) (step : Step Turn Action) : Decidable (step.Spares seat) := by
  unfold Step.Spares
  split <;> infer_instance

/-- A slot stays empty until it is filled. -/
theorem slot_spared (hempty : (table steps).slots seat=none)
    (h : ∀ step∈later,step.Spares seat) : (table (steps++later)).slots seat=none := by
  induction later using List.reverseRecOn with
  | nil => simpa using hempty
  | append_singleton later step ih =>
    have hbefore := ih fun step' hin => h step' (List.mem_append_left _ hin)
    have hspares := h step (List.mem_append_right _ (List.mem_singleton_self _))
    rw [← List.append_assoc,table_append]
    cases step with
    | accepted seat' deposit =>
      simp only [Table.advance]
      split
      · simpa [put,Function.update_of_ne (Ne.symm hspares)] using hbefore
      · rfl
    | applied => exact hspares.elim
    | other => exact hbefore

/-- Whatever lies in a slot or is carried has been accepted. -/
theorem deposit_accepted (steps : List (Step Turn Action)) :
    (∀ seat deposit,(table steps).slots seat=some deposit → .accepted seat deposit∈steps) ∧
      ∀ task pair,(table steps).carried task=some pair →
        ∀ seat,.accepted seat (pair seat)∈steps := by
  induction steps using List.reverseRecOn with
  | nil => exact ⟨nofun,nofun⟩
  | append_singleton steps step ih =>
    obtain ⟨hslots,hcarried⟩ := ih
    rw [table_append]
    have hold : ∀ {seat deposit},.accepted seat deposit∈steps →
        Step.accepted seat deposit∈steps++[step] := fun h => List.mem_append_left _ h
    cases step with
    | applied | other =>
      exact ⟨fun seat deposit hs => hold (hslots seat deposit hs),
        fun task pair hc seat => hold (hcarried task pair hc seat)⟩
    | accepted seat deposit =>
      have hput : ∀ seat' deposit',put (table steps).slots seat deposit seat'=some deposit' →
          .accepted seat' deposit'∈steps++[.accepted seat deposit] := by
        intro seat' deposit' hs
        by_cases hseat : seat'=seat
        · subst hseat
          have he : deposit=deposit' := by simpa [put] using hs
          rw [he]
          exact List.mem_append_right _ (List.mem_singleton_self _)
        · exact hold (hslots seat' deposit' (by simpa [put,hseat] using hs))
      simp only [Table.advance]
      split
      · exact ⟨hput,fun task pair hc seat => hold (hcarried task pair hc seat)⟩
      · next pair hfull =>
        refine ⟨nofun,fun task pair' hc seat' => ?_⟩
        by_cases htask : task=deposit.task
        · subst htask
          have he : pair=pair' := by simpa using hc
          rw [← he]
          exact hput seat' _ (full_eq_some.mp hfull seat')
        · exact hold (hcarried task pair' (by simpa [htask] using hc) seat')

end Slots

section Clock

/-- The turn of the latest step, until it has been applied. -/
def clock (steps : List (Step Turn Action)) : Option Turn :=
  steps.foldl (fun turn step => match step with
    | .accepted _ deposit => some deposit.turn
    | .applied _ _ _ _ => none
    | .other => turn) none

/-- The turns that have been applied. -/
def appliedTurns (steps : List (Step Turn Action)) : List Turn :=
  steps.filterMap fun step => match step with
    | .applied _ turn _ _ => some turn
    | _ => none

/-- The turn of a step. -/
def Step.turn : Step Turn Action → Option Turn
  | .accepted _ deposit => some deposit.turn
  | .applied _ turn _ _ => some turn
  | .other => none

/-- Between two applied turns the turn does not change, and then it is a later one. -/
def Clocked [LT Turn] (earlier : List (Step Turn Action)) (step : Step Turn Action) : Prop :=
  ∀ turn∈step.turn,(∀ turn'∈clock earlier,turn'=turn) ∧ ∀ turn'∈appliedTurns earlier,turn'<turn

@[simp] theorem clock_append (steps : List (Step Turn Action)) (step : Step Turn Action) :
    clock (steps++[step])=match step with
      | .accepted _ deposit => some deposit.turn
      | .applied _ _ _ _ => none
      | .other => clock steps := by
  simp [clock]

@[simp] theorem appliedTurns_append (steps steps' : List (Step Turn Action)) :
    appliedTurns (steps++steps')=appliedTurns steps++appliedTurns steps' := by
  simp [appliedTurns]

/-- The step ends the turn. -/
def Step.ends : Step Turn Action → Bool
  | .applied _ _ _ _ => true
  | _ => false

/-- What has happened since the seat has first put the deposit into its slot. -/
def sinceAccepted [DecidableEq Turn] [DecidableEq Action] (seat : Seat)
    (deposit : Deposit Turn Action) : List (Step Turn Action) → List (Step Turn Action)
  | [] => []
  | step::later => if step=.accepted seat deposit then later else sinceAccepted seat deposit later

/-- The history splits where the deposit has been put into the slot. -/
theorem split_accepted [DecidableEq Turn] [DecidableEq Action] {seat : Seat}
    {deposit : Deposit Turn Action} {steps : List (Step Turn Action)}
    (h : .accepted seat deposit∈steps) :
    ∃ start,steps=start++.accepted seat deposit::sinceAccepted seat deposit steps := by
  induction steps with
  | nil => cases h
  | cons step later ih =>
    by_cases hs : step=.accepted seat deposit
    · refine ⟨[],?_⟩
      rw [sinceAccepted,if_pos hs,hs]
      rfl
    · have hlater : .accepted seat deposit∈later := by
        cases h with
        | head => exact absurd rfl hs
        | tail _ hlater => exact hlater
      obtain ⟨start,hsplit⟩ := ih hlater
      refine ⟨step::start,?_⟩
      rw [sinceAccepted,if_neg hs,List.cons_append,← hsplit]

/-- While no turn ends, the clock shows the turn in which the deposit was made. -/
theorem clock_of_accepted [LT Turn] {seat : Seat} {deposit : Deposit Turn Action}
    {start later : List (Step Turn Action)}
    (hclock : Meets Clocked (start++.accepted seat deposit::later))
    (h : ∀ step∈later,step.ends=false) :
    clock (start++.accepted seat deposit::later)=some deposit.turn := by
  induction later using List.reverseRecOn with
  | nil => simp
  | append_singleton later step ih =>
    rw [← List.cons_append,← List.append_assoc] at hclock ⊢
    obtain ⟨hbefore,hlast⟩ := meets_append.mp hclock
    have hclock' := ih hbefore fun step' hin => h step' (List.mem_append_left _ hin)
    have hends := h step (List.mem_append_right _ (List.mem_singleton_self _))
    rw [clock_append]
    cases step with
    | accepted seat' deposit' =>
      have hturn : deposit.turn=deposit'.turn := (hlast deposit'.turn rfl).1 _ hclock'
      rw [hturn]
    | applied => cases hends
    | other => exact hclock'

/-- A pair that is applied before any other turn ends has been put into the slots
in the turn that it plays. -/
theorem turn_of_carried [DecidableEq Turn] [DecidableEq Action] [LT Turn]
    {steps earlier later : List (Step Turn Action)} {task : ℕ} {turn : Turn}
    {first second : Action} (hsplit : steps=earlier++.applied task turn first second::later)
    (hclock : Meets Clocked steps) {pair : Seat → Deposit Turn Action}
    (hcarried : (table earlier).carried task=some pair) {seat : Seat}
    (h : ∀ step∈sinceAccepted seat (pair seat) earlier,step.ends=false) :
    (pair seat).turn=turn ∧ .accepted seat (pair seat)∈earlier := by
  have hin := (deposit_accepted earlier).2 task pair hcarried seat
  obtain ⟨start,hstart⟩ := split_accepted hin
  rw [hsplit] at hclock
  have hearlier : Meets Clocked earlier := hclock.before (List.prefix_append _ _)
  rw [hstart] at hearlier
  have hturn := clock_of_accepted hearlier h
  rw [← hstart] at hturn
  exact ⟨(hclock.at turn rfl).1 _ hturn,hin⟩

end Clock

section Latest

variable [DecidableEq Turn] {seat : Seat} {turn : Turn} {steps : List (Step Turn Action)}
  {step : Step Turn Action}

/-- What the seat puts into its slot in the given turn. -/
def Step.puts (seat : Seat) (turn : Turn) : Step Turn Action → Option Action
  | .accepted seat' deposit =>
    if seat'=seat ∧ deposit.turn=turn then some deposit.action else none
  | _ => none

/-- The last action that the seat has put into its slot during a turn. -/
def latest (seat : Seat) (turn : Turn) (steps : List (Step Turn Action)) : Option Action :=
  (steps.filterMap (Step.puts seat turn)).getLast?

/-- The latest action after one more step. -/
theorem latest_append : latest seat turn (steps++[step])=
    (step.puts seat turn).or (latest seat turn steps) := by
  unfold latest
  cases hp : step.puts seat turn <;> simp [hp]

/-- Steps that put nothing there leave the latest action. -/
theorem latest_append_of_none {later : List (Step Turn Action)}
    (h : ∀ step∈later,step.puts seat turn=none) :
    latest seat turn (steps++later)=latest seat turn steps := by
  have hnone : later.filterMap (Step.puts seat turn)=[] := List.filterMap_eq_nil_iff.mpr h
  simp [latest,hnone]

end Latest

section Runs

variable [DecidableEq Turn] {steps : List (Step Turn Action)}

/-- A pair is applied by the task that has taken it out, before anything else is
accepted or applied. -/
def Unhurried (earlier : List (Step Turn Action)) : Step Turn Action → Prop
  | .applied task _ first second => (table earlier).ready=some task ∧
    ∀ pair∈(table earlier).carried task,∀ seat,(pair seat).action=seat.pick first second
  | _ => True

instance [DecidableEq Action] (earlier : List (Step Turn Action)) (step : Step Turn Action) :
    Decidable (Unhurried earlier step) := by
  unfold Unhurried
  split <;> infer_instance

/-- The deposit is the latest of its seat in the current turn. -/
def Current (steps : List (Step Turn Action)) (seat : Seat) (deposit : Deposit Turn Action) :
    Prop :=
  clock steps=some deposit.turn ∧ latest seat deposit.turn steps=some deposit.action

/-- The invariant: everything in the slots, and the pair that is ready to be
applied, is the latest of the current turn. -/
structure InTurn (steps : List (Step Turn Action)) : Prop where
  /-- What lies in the slots. -/
  slots : ∀ seat deposit,(table steps).slots seat=some deposit → Current steps seat deposit
  /-- The pair that is ready to be applied. -/
  ready : ∀ task,(table steps).ready=some task → (∀ seat,(table steps).slots seat=none) ∧
    ∃ pair,(table steps).carried task=some pair ∧ ∀ seat,Current steps seat (pair seat)

/-- Nothing lies in the slots at the beginning. -/
theorem inTurn_nil : InTurn ([] : List (Step Turn Action)) := ⟨nofun,nofun⟩

variable [Preorder Turn]

/-- An accepted action is the latest of its seat, and leaves the other seat's. -/
theorem current_put {seat seat' : Seat} {deposit deposit' : Deposit Turn Action}
    (hclock : Clocked steps (.accepted seat deposit))
    (hslots : ∀ seat deposit,(table steps).slots seat=some deposit → Current steps seat deposit)
    (h : put (table steps).slots seat deposit seat'=some deposit') :
    Current (steps++[.accepted seat deposit]) seat' deposit' := by
  by_cases hs : seat'=seat
  · subst hs
    have he : deposit=deposit' := by simpa [put] using h
    subst he
    exact ⟨by simp,by simp [latest_append,Step.puts]⟩
  · have hold : (table steps).slots seat'=some deposit' := by simpa [put,hs] using h
    obtain ⟨hc,hl⟩ := hslots seat' deposit' hold
    have hturn : deposit'.turn=deposit.turn := (hclock deposit.turn rfl).1 deposit'.turn hc
    have hputs : (Step.accepted seat deposit).puts seat' deposit'.turn=none := by
      simp [Step.puts,Ne.symm hs]
    exact ⟨by simp [hturn],by rw [latest_append,hputs,hl]; rfl⟩

/-- Every step keeps the slots in turn. -/
theorem InTurn.step (h : InTurn steps) {step : Step Turn Action}
    (hclock : Clocked steps step) (hunhurried : Unhurried steps step) :
    InTurn (steps++[step]) := by
  cases step with
  | other =>
    have hcurrent : ∀ seat deposit,Current steps seat deposit →
        Current (steps++[.other]) seat deposit := by
      intro seat deposit hc
      exact ⟨by simpa using hc.1,by simpa [latest_append,Step.puts] using hc.2⟩
    constructor
    · intro seat deposit hs
      rw [table_append] at hs
      exact hcurrent seat deposit (h.slots seat deposit hs)
    · intro task hr
      rw [table_append] at hr ⊢
      obtain ⟨hempty,pair,hcarried,hpair⟩ := h.ready task hr
      exact ⟨hempty,pair,hcarried,fun seat => hcurrent seat _ (hpair seat)⟩
  | applied task turn first second =>
    have hempty := (h.ready task hunhurried.1).1
    constructor
    · intro seat deposit hs
      rw [table_append] at hs
      change (table steps).slots seat=some deposit at hs
      rw [hempty] at hs
      cases hs
    · intro task' hr
      rw [table_append] at hr
      cases hr
  | accepted seat deposit =>
    have hput : ∀ seat' deposit',put (table steps).slots seat deposit seat'=some deposit' →
        Current (steps++[.accepted seat deposit]) seat' deposit' := by
      intro seat' deposit' hs
      exact current_put hclock h.slots hs
    cases hf : full (put (table steps).slots seat deposit) with
    | none =>
      have htable : table (steps++[.accepted seat deposit])=
          ⟨put (table steps).slots seat deposit,(table steps).carried,none⟩ := by
        simp [Table.advance,hf]
      constructor
      · intro seat' deposit' hs
        rw [htable] at hs
        exact hput seat' deposit' hs
      · intro task hr
        rw [htable] at hr
        cases hr
    | some pair =>
      have htable : table (steps++[.accepted seat deposit])=
          ⟨fun _ => none,Function.update (table steps).carried deposit.task (some pair),
            some deposit.task⟩ := by
        simp [Table.advance,hf]
      constructor
      · intro seat' deposit' hs
        rw [htable] at hs
        cases hs
      · intro task hr
        rw [htable] at hr ⊢
        cases hr
        refine ⟨fun _ => rfl,pair,by simp,fun seat' => ?_⟩
        exact hput seat' _ (full_eq_some.mp hf seat')

/-- The slots stay in turn over every unhurried history. -/
theorem inTurn_of_meets (hclock : Meets Clocked steps) (hunhurried : Meets Unhurried steps) :
    InTurn steps := by
  induction steps using List.reverseRecOn with
  | nil => exact inTurn_nil
  | append_singleton steps step ih =>
    obtain ⟨hc,hcs⟩ := meets_append.mp hclock
    obtain ⟨hu,hus⟩ := meets_append.mp hunhurried
    exact (ih hc hu).step hcs hus

/-- A pair that is applied has been put together in the turn that it plays. -/
theorem applied_in_turn {earlier later : List (Step Turn Action)} {task : ℕ} {turn : Turn}
    {first second : Action} (hsplit : steps=earlier++.applied task turn first second::later)
    (hclock : Meets Clocked steps) (hunhurried : Meets Unhurried steps) :
    ∃ pair,(table earlier).carried task=some pair ∧
      ∀ seat,(pair seat).turn=turn ∧ latest seat turn earlier=some (seat.pick first second) := by
  rw [hsplit,List.append_cons] at hclock hunhurried
  have hbefore := List.prefix_append (earlier++[Step.applied task turn first second]) later
  obtain ⟨hc,hcs⟩ := meets_append.mp (hclock.before hbefore)
  obtain ⟨hu,hready,hus⟩ := meets_append.mp (hunhurried.before hbefore)
  obtain ⟨-,pair,hcarried,hpair⟩ := (inTurn_of_meets hc hu).ready task hready
  refine ⟨pair,hcarried,fun seat => ?_⟩
  obtain ⟨hclock',hlatest⟩ := hpair seat
  have hturn : (pair seat).turn=turn := (hcs turn rfl).1 _ hclock'
  have haction : (pair seat).action=seat.pick first second := hus pair hcarried seat
  rw [hturn,haction] at hlatest
  exact ⟨hturn,hlatest⟩

/-- A turn that has been applied is not played again. -/
theorem puts_eq_none_of_applied {earlier later : List (Step Turn Action)} {task : ℕ}
    {turn : Turn} {first second : Action}
    (hsplit : steps=earlier++.applied task turn first second::later)
    (hclock : Meets Clocked steps) (seat : Seat) : ∀ step∈later,step.puts seat turn=none := by
  intro step hstep
  obtain ⟨middle,rest,rfl⟩ := List.append_of_mem hstep
  have hshape : steps=(earlier++.applied task turn first second::middle)++step::rest := by
    simp [hsplit]
  rw [hshape] at hclock
  have hfits : Clocked (earlier++.applied task turn first second::middle) step :=
    (meetsFrom_append.mp hclock).2.1
  cases step with
  | accepted seat' deposit =>
    have hlater : turn<deposit.turn := (hfits deposit.turn rfl).2 turn (by simp [appliedTurns])
    simp [Step.puts,(ne_of_lt hlater).symm]
  | applied | other => rfl

/-- The actions with which a turn is played are the last ones that the two seats
have put into their slots in this turn. -/
theorem applied_latest {earlier later : List (Step Turn Action)} {task : ℕ} {turn : Turn}
    {first second : Action} (hsplit : steps=earlier++.applied task turn first second::later)
    (hclock : Meets Clocked steps) (hunhurried : Meets Unhurried steps) (seat : Seat) :
    latest seat turn steps=some (seat.pick first second) := by
  obtain ⟨pair,-,hpair⟩ := applied_in_turn hsplit hclock hunhurried
  have hnone := puts_eq_none_of_applied hsplit hclock seat
  rw [hsplit,List.append_cons,latest_append_of_none hnone,latest_append]
  exact (hpair seat).2

end Runs

end KiClash.SlottedTurns

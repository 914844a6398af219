import KiClash.AsyncContracts

/-!
# Tasks over a world that grows

The contracts for tasks whose operations only add to their world: what a task has learnt stays
true, whatever the other tasks do meanwhile. So a program can be judged on its own, from the
world in which it was last seen, and a system whose programs are all sound keeps its invariant
in every run.
-/

namespace KiClash.GrowingWorlds

open AsyncTasks AsyncContracts

/-- An invariant of the worlds of a system, and how they grow. -/
structure Growth {S : Signature} (sys : System S) where
  /-- The second world has grown from the first one. -/
  Grows : sys.World → sys.World → Prop
  /-- The invariant. -/
  Holds : sys.World → Prop
  /-- What a task may rely on when it starts. -/
  Admits : ℕ → sys.Entry → sys.World → Prop
  refl : ∀ world,Grows world world
  trans : ∀ {world world' world''},Grows world world' → Grows world' world'' → Grows world world''

variable {S : Signature} {sys : System S} (growth : Growth sys) (task : ℕ) {α β : Type}

/-- The contract: each task expects from the others that the world grows. -/
def Growth.contract : Contract sys where
  allowed _ := True
  inv _ world := growth.Holds world
  rely _ world world' := growth.Grows world world'
  ready _ _ _ := True
  entry task entry world := growth.Admits task entry world
  finish _ _ := True

/-- Growing is closed under doing nothing and under repetition. -/
theorem Growth.lawful : growth.contract.Lawful := ⟨fun _ => growth.refl,fun _ _ _ _ => growth.trans⟩

/-- From this world on every operation of the program keeps the invariant and the world grows by
it; and what the program returns is right. -/
def Sound (p : Prog S α) (Q : α → sys.World → Prop) (world : sys.World) : Prop :=
  Safe growth.contract task p (Outcome Q fun _ _ => True) world

variable {growth task} {p : Prog S α} {Q : α → sys.World → Prop} {world world' start : sys.World}

/-- Where a safe program ends, the world has grown from the start, the invariant holds and the
postcondition is there to stay. -/
theorem safe_tracked {post : Except S.Exc α → sys.World → Prop}
    (h : Safe growth.contract task p post world) (hstart : growth.Grows start world) :
    Safe growth.contract task p (fun r later => growth.Grows start later ∧ growth.Holds later ∧
      ∀ after,growth.Grows later after → growth.Holds after → post r after) world := by
  induction p generalizing world with
  | done r =>
    intro count world₁ hholds hgrows
    refine ⟨growth.trans hstart hgrows,hholds,fun after hafter hholds' => ?_⟩
    exact h count after hholds' (growth.trans hgrows hafter)
  | op o next ih =>
    intro count world₁ hcount hholds hgrows
    obtain ⟨hready,hstep⟩ := h count world₁ hcount hholds hgrows
    refine ⟨hready,fun choice world₂ r started hperform hallowed => ?_⟩
    obtain ⟨hkeeps,hrest⟩ := hstep choice world₂ r started hperform hallowed
    -- what any other task has to expect of the operation
    have hgrows' : growth.Grows world₁ world₂ := hkeeps.others (task+1) (Nat.succ_ne_self task)
    exact ⟨hkeeps,ih r hrest (growth.trans hstart (growth.trans hgrows hgrows'))⟩

/-- A program and what is done with its outcome. What it returns is right from then on. -/
theorem Sound.andThen {f : Except S.Exc α → Prog S β} {Q' : β → sys.World → Prop}
    (h : Sound growth task p Q world)
    (hok : ∀ a world',growth.Grows world world' → growth.Holds world' →
      (∀ later,growth.Grows world' later → growth.Holds later → Q a later) →
      Sound growth task (f (.ok a)) Q' world')
    (herror : ∀ e world',growth.Grows world world' → Sound growth task (f (.error e)) Q' world') :
    Sound growth task (p.andThen f) Q' world := by
  apply Safe.andThen growth.lawful
  apply (safe_tracked h (growth.refl world)).mono
  rintro r world' ⟨hgrows,hholds,hright⟩
  cases r with
  | ok a => exact hok a world' hgrows hholds hright
  | error e => exact herror e world' hgrows

/-- One program after another. -/
theorem Sound.bind {f : α → Prog S β} {Q' : β → sys.World → Prop}
    (h : Sound growth task p Q world)
    (hf : ∀ a world',growth.Grows world world' → growth.Holds world' → Q a world' →
      Sound growth task (f a) Q' world') :
    Sound growth task (p >>= f) Q' world := by
  rw [Prog.bind_eq_andThen]
  refine h.andThen (fun a world' hgrows hholds hright => ?_) fun _ _ _ _ _ _ _ => True.intro
  exact hf a world' hgrows hholds (hright world' (growth.refl world') hholds)

/-- try and except. -/
theorem Sound.handle {handler : S.Exc → Prog S α} (h : Sound growth task p Q world)
    (hhandler : ∀ e world',growth.Grows world world' → Sound growth task (handler e) Q world') :
    Sound growth task (p.handle handler) Q world :=
  h.andThen (fun _ _ _ _ hright _ later hholds hlater => hright later hlater hholds) hhandler

/-- Weaker claims about what is returned. -/
theorem Sound.consequence {Q' : α → sys.World → Prop} (h : Sound growth task p Q world)
    (hQ : ∀ a world',Q a world' → Q' a world') : Sound growth task p Q' world := by
  apply h.mono
  intro r world' hr
  cases r with
  | ok a => exact hQ a world' hr
  | error e => exact True.intro

/-- A program that ends, with what it knows. -/
theorem sound_pure {a : α}
    (h : ∀ world',growth.Grows world world' → growth.Holds world' → Q a world') :
    Sound growth task (pure a : Prog S α) Q world :=
  fun _ world' hholds hgrows => h world' hgrows hholds

/-- An exception. -/
theorem sound_raise {e : S.Exc} : Sound growth task (.raise e : Prog S α) Q world :=
  fun _ _ _ _ => True.intro

/-- A single operation, which starts no task. -/
theorem sound_perform {o : S.Op} {Q : S.Res o → sys.World → Prop}
    (h : ∀ world',growth.Grows world world' → growth.Holds world' →
      ∀ choice fresh world'' r started,
        sys.perform choice task fresh o world'=some (world'',r,started) →
        started=none ∧ growth.Holds world'' ∧ growth.Grows world' world'' ∧
          ∀ a,r=.ok a → ∀ later,growth.Grows world'' later → growth.Holds later → Q a later) :
    Sound growth task (Prog.perform o) Q world := by
  intro count world' _ hholds hgrows
  refine ⟨True.intro,fun choice world'' r started hperform _ => ?_⟩
  obtain ⟨rfl,hholds',hgrows',hright⟩ := h world' hgrows hholds choice count world'' r started
    hperform
  refine ⟨⟨hholds',fun _ _ => hgrows',fun _ hstarted => by cases hstarted⟩,?_⟩
  cases r with
  | error e => exact fun _ _ _ _ => True.intro
  | ok a => exact fun _ later hlater hgrows'' => hright a rfl later hgrows'' hlater

/-- What a system has to be shown to satisfy: an arrival keeps the invariant, the world grows by
it, and what may start is sound. -/
structure Tended (growth : Growth sys) : Prop where
  /-- An arrival. -/
  arrive : ∀ {task entry world world'},growth.Holds world →
    sys.arrive task entry world=some world' →
    growth.Holds world' ∧ growth.Grows world world' ∧ growth.Admits task entry world'
  /-- A task that may start. -/
  body : ∀ {task entry world},growth.Admits task entry world →
    Sound growth task (sys.body entry) (fun _ _ => True) world

/-- It meets its contract. -/
theorem Tended.verified (h : Tended growth) : growth.contract.Verified where
  toLawful := growth.lawful
  allowed_perform _ _ := True.intro
  allowed_arrive _ _ := True.intro
  arrive hholds harrive _ := by
    obtain ⟨hholds',hgrows,hadmits⟩ := h.arrive hholds harrive
    exact ⟨hholds',fun _ => hgrows,hadmits⟩
  body _ _ hadmits := (h.body hadmits).mono fun _ _ _ => True.intro

/-- The invariant holds in every run. -/
theorem Tended.holds (h : Tended growth) {config : sys.Config}
    {moves : List sys.Move} (hstart : growth.Holds world)
    (hrun : (⟨world,[]⟩ : sys.Config).run moves=some config) : growth.Holds config.world := by
  have hgood : growth.contract.Good (⟨world,[]⟩ : sys.Config) :=
    ⟨hstart,fun _ _ hnone => by cases hnone⟩
  exact (hgood.run h.verified hrun True.intro).inv

end KiClash.GrowingWorlds

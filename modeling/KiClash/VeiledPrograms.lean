import KiClash.WatchedKey

/-!
# Programs that look alike

A library for showing that an observer of tasks over a watched key cannot tell
two runs apart that differ in one input of one task. Up to the transaction that
writes the input under the key, the runs have the same key and the same memory,
and all other tasks are the same; the task with the input is poised to differ.
From that transaction on, values that look alike lie under the key as long as a
secret in them is covered, and the tasks do the same with such values, up to
actions that the observer does not see.
-/

namespace KiClash.VeiledRuns

open AsyncTasks WatchedKey

/-- What hides a secret in the values under the key. -/
structure Veil (L : Language) where
  /-- Values that differ in the secret alone. -/
  looksLike : L.Value → L.Value → Prop
  /-- There is a secret in the value. -/
  covered : L.Value → Prop
  /-- Values that can lie under the key. -/
  valid : L.Value → Prop
  /-- Actions that the observer does not tell apart. -/
  hides : L.Action → L.Action → Prop
  /-- Actions that take an input. -/
  inputs : L.Action → Bool
  /-- Calls that write an input under the key. -/
  writes : L.Call → Prop
  /-- Those of them that keep to the value that they have written. -/
  keeps : L.Call → Prop
  /-- A value looks like itself. -/
  refl : ∀ {value},valid value → covered value → looksLike value value
  /-- Values that look alike can lie under the key. -/
  valid_of_looksLike : ∀ {value value'},looksLike value value' → valid value
  /-- Actions that are not told apart return the same kind of result. -/
  result : ∀ {o o'},hides o o' → L.Result o=L.Result o'

variable {L : Language} {V : Veil L} {α β : Type}

/-- The operation takes an input. -/
def Veil.takes (V : Veil L) : Op L → Bool
  | .act o => V.inputs o
  | .store _ => false

/-- The operation can return this while valid values lie under the key. -/
def Veil.Returns (V : Veil L) : (o : Op L) → Except L.Exc o.Res → Prop
  | .store .get,.ok (some value) => V.valid value
  | .store .load,.ok (some value) => V.valid value
  | _,_ => True

/-- The same exception of two actions that are not told apart. -/
theorem Veil.heq_error (V : Veil L) {o o' : L.Action} (h : V.hides o o') (exc : L.Exc) :
    HEq (.error exc : Except L.Exc (L.Result o)) (.error exc : Except L.Exc (L.Result o')) := by
  rw [V.result h]

section Programs

/-- The command neither reads nor writes a value. -/
def blind : StoreOp L.Value L.Call → Prop
  | .watch => True
  | .unwatch => True
  | .delete => True
  | _ => False

/-- Programs that do the same for the observer while the secret is covered. -/
inductive Alike (V : Veil L) : Prog L.sig α → Prog L.sig α → Prop
  | done (r : Except L.Exc α) : Alike V (.done r) (.done r)
  | act (o : L.Action) {next next' : Except L.Exc (L.Result o) → Prog L.sig α}
      (h : ∀ r,Alike V (next r) (next' r)) : Alike V (.op (.act o) next) (.op (.act o) next')
  | hidden {o o' : L.Action} {next : Except L.Exc (L.Result o) → Prog L.sig α}
      {next' : Except L.Exc (L.Result o') → Prog L.sig α} (hidden : V.hides o o')
      (h : ∀ r r',HEq r r' → Alike V (next r) (next' r')) :
      Alike V (.op (.act o) next) (.op (.act o') next')
  | command {o : StoreOp L.Value L.Call} {next next' : Except L.Exc o.Res → Prog L.sig α}
      (ho : blind o) (h : ∀ r,Alike V (next r) (next' r)) :
      Alike V (.op (.store o) next) (.op (.store o) next')
  | get {next next' : Except L.Exc (Option L.Value) → Prog L.sig α}
      (hnone : Alike V (next (.ok none)) (next' (.ok none)))
      (hsome : ∀ value value',V.looksLike value value' →
        Alike V (next (.ok (some value))) (next' (.ok (some value'))))
      (herror : ∀ e,Alike V (next (.error e)) (next' (.error e))) :
      Alike V (.op (.store .get) next) (.op (.store .get) next')
  | load {next next' : Except L.Exc (Option L.Value) → Prog L.sig α}
      (hnone : Alike V (next (.ok none)) (next' (.ok none)))
      (hsome : ∀ value value',V.looksLike value value' →
        Alike V (next (.ok (some value))) (next' (.ok (some value'))))
      (herror : ∀ e,Alike V (next (.error e)) (next' (.error e))) :
      Alike V (.op (.store .load) next) (.op (.store .load) next')
  | exec {token retriesLeft : ℕ} {call call' : L.Call} {value value' : L.Value}
      {next next' : Except L.Exc Bool → Prog L.sig α}
      (hvalue : V.covered value → V.looksLike value value')
      (hcommit : V.covered value → Alike V (next (.ok true)) (next' (.ok true)))
      (hconflict : Alike V (next (.ok false)) (next' (.ok false)))
      (herror : ∀ e,Alike V (next (.error e)) (next' (.error e))) :
      Alike V (.op (.store (.exec token retriesLeft call value)) next)
        (.op (.store (.exec token retriesLeft call' value')) next')

/-- Alike programs stay alike with the same rest. -/
theorem Alike.andThen {p p' : Prog L.sig α} {f : Except L.Exc α → Prog L.sig β}
    (h : Alike V p p') (hf : ∀ r,Alike V (f r) (f r)) :
    Alike V (p.andThen f) (p'.andThen f) := by
  induction h with
  | done r => exact hf r
  | act o _ ih => exact .act o ih
  | hidden ho _ ih => exact .hidden ho ih
  | command ho _ ih => exact .command ho ih
  | get _ _ _ ihnone ihsome iherror => exact .get ihnone ihsome iherror
  | load _ _ _ ihnone ihsome iherror => exact .load ihnone ihsome iherror
  | exec hvalue _ _ _ ihcommit ihconflict iherror =>
    exact .exec hvalue ihcommit ihconflict iherror

/-- Programs that are alike before WATCH are alike after it. -/
theorem Alike.after_watch {next next' : Except L.Exc ℕ → Prog L.sig α}
    (h : Alike V (.op (.store .watch) next) (.op (.store .watch) next')) (r : Except L.Exc ℕ) :
    Alike V (next r) (next' r) := by
  cases h with
  | command _ h => exact h r

/-- A program that is alike to itself, now and whatever it does, and that may take inputs or
may not. -/
inductive Tame (V : Veil L) (mayInput : Prop) : Prog L.sig α → Prop
  | done (r : Except L.Exc α) : Tame V mayInput (.done r)
  | op {o : Op L} {next : Except L.Exc o.Res → Prog L.sig α}
      (ho : V.takes o=true → mayInput)
      (h : Alike V (.op o next) (.op o next))
      (hnext : ∀ r,V.Returns o r → Tame V mayInput (next r)) :
      Tame V mayInput (.op o next)

variable {mayInput : Prop}

/-- A tame program is alike to itself. -/
theorem Tame.alike {p : Prog L.sig α} (h : Tame V mayInput p) : Alike V p p := by
  cases h with
  | done r => exact .done r
  | op _ h _ => exact h

/-- A program that may not take inputs may as well. -/
theorem Tame.mono {p : Prog L.sig α} (h : Tame V False p) : Tame V mayInput p := by
  induction h with
  | done r => exact .done r
  | op ho h _ ih => exact .op (fun hin => (ho hin).elim) h ih

/-- A tame program with a tame rest. -/
theorem Tame.andThen {p : Prog L.sig α} {f : Except L.Exc α → Prog L.sig β}
    (h : Tame V mayInput p) (hf : ∀ r,Tame V mayInput (f r)) :
    Tame V mayInput (p.andThen f) := by
  induction h with
  | done r => exact hf r
  | op ho h _ ih => exact .op ho (h.andThen fun r => (hf r).alike) ih

/-- Tame programs one after the other. -/
theorem Tame.bind {p : Prog L.sig α} {f : α → Prog L.sig β} (h : Tame V mayInput p)
    (hf : ∀ a,Tame V mayInput (f a)) : Tame V mayInput (p >>= f) := by
  rw [Prog.bind_eq_andThen]
  apply h.andThen
  intro r
  cases r with
  | ok a => exact hf a
  | error e => exact .done _

/-- An action. -/
theorem Tame.act {o : L.Action} {next : Except L.Exc (L.Result o) → Prog L.sig α}
    (ho : V.inputs o=true → mayInput) (h : ∀ r,Tame V mayInput (next r)) :
    Tame V mayInput (.op (.act o) next) := .op ho (.act o fun r => (h r).alike) fun r _ => h r

/-- A command that neither reads nor writes. -/
theorem Tame.command {o : StoreOp L.Value L.Call} {next : Except L.Exc o.Res → Prog L.sig α}
    (ho : blind o) (h : ∀ r,Tame V mayInput (next r)) : Tame V mayInput (.op (.store o) next) :=
  .op (fun hin => nomatch hin) (.command ho fun r => (h r).alike) fun r _ => h r

/-- A program that reads and does the same with values that look alike. -/
theorem Tame.load {next : Except L.Exc (Option L.Value) → Prog L.sig α}
    (hnone : Tame V mayInput (next (.ok none)))
    (hsome : ∀ value,V.valid value → Tame V mayInput (next (.ok (some value))))
    (herror : ∀ e,Tame V mayInput (next (.error e)))
    (hsame : ∀ value value',V.looksLike value value' →
      next (.ok (some value))=next (.ok (some value'))) :
    Tame V mayInput (.op (.store .load) next) := by
  refine .op (fun hin => nomatch hin) ?_ ?_
  · refine .load hnone.alike (fun value value' hlike => ?_) fun e => (herror e).alike
    rw [← hsame value value' hlike]
    exact (hsome value (V.valid_of_looksLike hlike)).alike
  · intro r hr
    cases r with
    | error e => exact herror e
    | ok result =>
      cases result with
      | none => exact hnone
      | some value => exact hsome value hr

/-- The task in two runs that differ in one of its inputs: so many inputs are left until the one
that differs has been taken, and then comes the transaction that writes it. -/
inductive Poised (V : Veil L) : ℕ → Prog L.sig α → Prog L.sig α → Prop
  | past {n : ℕ} {p : Prog L.sig α} (h : Tame V True p) : Poised V n p p
  | op {n : ℕ} {o : Op L} {next next' : Except L.Exc o.Res → Prog L.sig α}
      (ho : V.takes o=false)
      (h : ∀ r,V.Returns o r → Poised V n (next r) (next' r)) :
      Poised V n (.op o next) (.op o next')
  | input {n : ℕ} {o o' : L.Action} {next : Except L.Exc (L.Result o) → Prog L.sig α}
      {next' : Except L.Exc (L.Result o') → Prog L.sig α} (hidden : V.hides o o')
      (ho : V.inputs o=true) (ho' : V.inputs o'=true)
      (hok : ∀ a a',HEq (.ok a : Except L.Exc (L.Result o)) (.ok a' : Except L.Exc (L.Result o')) →
        Poised V n (next (.ok a)) (next' (.ok a')))
      (herror : ∀ e,Tame V True (next (.error e)) ∧ next' (.error e)=next (.error e)) :
      Poised V (n+1) (.op (.act o) next) (.op (.act o') next')
  | exec {token retriesLeft : ℕ} {call call' : L.Call} {value value' : L.Value}
      {next next' : Except L.Exc Bool → Prog L.sig α} (hw : V.writes call) (hw' : V.writes call')
      (hvalue : V.covered value → V.covered value' → V.looksLike value value')
      (hcommit : V.keeps call → V.keeps call' → V.covered value → V.covered value' →
        Alike V (next (.ok true)) (next' (.ok true)))
      (hconflict : Poised V 0 (next (.ok false)) (next' (.ok false)))
      (herror : ∀ e,Tame V True (next (.error e)) ∧ next' (.error e)=next (.error e)) :
      Poised V 0 (.op (.store (.exec token retriesLeft call value)) next)
        (.op (.store (.exec token retriesLeft call' value')) next')

/-- A task that is poised to differ goes on with the same rest. -/
theorem Poised.andThen {n : ℕ} {p p' : Prog L.sig α} {f : Except L.Exc α → Prog L.sig β}
    (h : Poised V n p p') (hf : ∀ r,Tame V True (f r)) :
    Poised V n (p.andThen f) (p'.andThen f) := by
  induction h with
  | past h => exact .past (h.andThen hf)
  | op ho _ ih => exact .op ho ih
  | input hidden ho ho' _ herror ih =>
    refine .input hidden ho ho' ih fun e => ⟨(herror e).1.andThen hf,?_⟩
    rw [(herror e).2]
  | exec hw hw' hvalue hcommit _ herror ih =>
    refine .exec hw hw' hvalue (fun hk hk' hc hc' => ?_) ih fun e => ⟨(herror e).1.andThen hf,?_⟩
    · exact (hcommit hk hk' hc hc').andThen fun r => (hf r).alike
    · rw [(herror e).2]

/-- Likewise for what it returns. -/
theorem Poised.bind {n : ℕ} {p p' : Prog L.sig α} {f : α → Prog L.sig β} (h : Poised V n p p')
    (hf : ∀ a,Tame V True (f a)) : Poised V n (p >>= f) (p' >>= f) := by
  rw [Prog.bind_eq_andThen,Prog.bind_eq_andThen]
  apply h.andThen
  intro r
  cases r with
  | ok a => exact hf a
  | error e => exact .done _

/-- What comes before the inputs is the same. -/
theorem Tame.poised {n : ℕ} {p : Prog L.sig α} {f f' : Except L.Exc α → Prog L.sig β}
    (h : Tame V False p) (hf : ∀ r,Poised V n (f r) (f' r)) :
    Poised V n (p.andThen f) (p.andThen f') := by
  induction h with
  | done r => exact hf r
  | op ho _ _ ih =>
    refine .op ?_ ih
    cases hin : V.takes _ with
    | false => rfl
    | true => exact (ho hin).elim

/-- Likewise for programs one after the other. -/
theorem Tame.poised_bind {n : ℕ} {p : Prog L.sig α} {f f' : α → Prog L.sig β}
    (h : Tame V False p) (hf : ∀ a,Poised V n (f a) (f' a)) :
    Poised V n (p >>= f) (p >>= f') := by
  rw [Prog.bind_eq_andThen,Prog.bind_eq_andThen]
  apply h.poised
  intro r
  cases r with
  | ok a => exact hf a
  | error e => exact .past (.done _)

end Programs

end KiClash.VeiledRuns

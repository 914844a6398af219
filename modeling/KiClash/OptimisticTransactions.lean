import KiClash.RecordContracts

/-!
# Optimistic transactions

One attempt of a retry loop: remember the version of the key, read it, let a
mutator compute a new value, and write this value if the key has not been
written since. What follows in each case is left open, so that the rule below
serves every such loop, whatever it does about a missing value, a refusal, a
commit or a conflict.
-/

namespace KiClash.OptimisticTransactions

open AsyncTasks AsyncContracts WatchedKey RecordContracts

variable {L : Language} {R : Runtime L} {M ε α : Type}

/-- A command on the key. -/
abbrev command (o : StoreOp L.Value L.Call) : Prog L.sig o.Res :=
  Prog.perform (S := L.sig) (.store o)

/-- One attempt; the mutator also returns what it tells its caller. -/
def attempt (call : L.Call) (retriesLeft : ℕ) (mutate : L.Value → Except ε (M×L.Value))
    (missing : Prog L.sig α) (refused : ε → Prog L.sig α) (committed : M×L.Value → Prog L.sig α)
    (conflicted : M → Prog L.sig α) : Prog L.sig α := do
  let token ← command .watch
  match ← command .get with
  | none => missing
  | some value =>
    match mutate value with
    | .error e => refused e
    | .ok (told,value) =>
      if ← command (.exec token retriesLeft call value) then committed (told,value)
      else conflicted told

/-- What an attempt owes: from A it leads to D when there is nothing to write,
to B when it has written and to A' when it has lost a conflict; K holds of all
that the mutator tells its caller. -/
structure Attempt (C : RecordContract R) (task : ℕ) (call : L.Call) (retriesLeft : ℕ)
    (mutate : L.Value → Except ε (M×L.Value)) (K : M → Prop) (A D A' : Record R → Prop)
    (B : M×L.Value → Record R → Prop) (E : L.Exc → Record R → Prop) : Prop where
  /-- Others do not end the assertions. -/
  stable : C.Stable task A ∧ C.Stable task D ∧ C.Stable task A' ∧ (∀ x,C.Stable task (B x)) ∧
    ∀ e,C.Stable task (E e)
  /-- Exceptions lead to E. -/
  raises : C.Raises task A E ∧ C.Raises task D E ∧ C.Raises task A' E ∧ ∀ x,C.Raises task (B x) E
  /-- There is no value. -/
  missing : ∀ {count record},C.inv count record → A record → record.value=none → D record
  /-- The mutator refuses. -/
  refused : ∀ {count record value error},C.inv count record → A record →
    record.value=some value → mutate value=.error error → D record
  /-- The mutator tells its caller something. -/
  told : ∀ {count record value told value'},C.inv count record → A record →
    record.value=some value → mutate value=.ok (told,value') → K told
  /-- The attempt writes. -/
  commit : ∀ value told value',mutate value=.ok (told,value') →
    C.Moves task (fun record => A record ∧ record.value=some value)
      (fun record => record.commit task call value') (B (told,value'))
  /-- The attempt loses a conflict. -/
  conflict : C.Moves task A (fun record => record.log (.conflict task call retriesLeft)) A'

section Rule

variable {C : RecordContract R} {task retriesLeft : ℕ} {call : L.Call}
  {mutate : L.Value → Except ε (M×L.Value)} {K : M → Prop} {A D A' : Record R → Prop}
  {B : M×L.Value → Record R → Prop} {E : L.Exc → Record R → Prop}

/-- What GET leaves known: without a value, or with a refusal, there is nothing
to write. -/
def Fetched (mutate : L.Value → Except ε (M×L.Value)) (K : M → Prop) (A D : Record R → Prop) :
    Option L.Value → Record R → Prop
  | none => D
  | some value =>
    match mutate value with
    | .error _ => D
    | .ok (told,_) => fun record => A record ∧ K told

/-- It is one of the two assertions. -/
theorem fetched_cases (mutate : L.Value → Except ε (M×L.Value)) (K : M → Prop)
    (A D : Record R → Prop) (value : Option L.Value) : Fetched mutate K A D value=D ∨
      ∃ told,Fetched mutate K A D value=fun record => A record ∧ K told := by
  cases value with
  | none => exact .inl rfl
  | some value =>
    cases hm : mutate value with
    | error e => exact .inl (by simp only [Fetched,hm])
    | ok x => exact .inr ⟨x.1,by simp only [Fetched,hm]⟩

/-- It holds of what is under the key. -/
theorem Attempt.fetched (h : Attempt C task call retriesLeft mutate K A D A' B E) {count : ℕ}
    {record : Record R} (hinv : C.inv count record) (ha : A record) :
    Fetched mutate K A D record.value record := by
  cases hv : record.value with
  | none => exact h.missing hinv ha hv
  | some value =>
    cases hm : mutate value with
    | error e =>
      simp only [Fetched,hm]
      exact h.refused hinv ha hv hm
    | ok x =>
      simp only [Fetched,hm]
      exact ⟨ha,h.told hinv ha hv hm⟩

/-- The rule: each way to go on has to be safe from where its case leads. -/
theorem Attempt.triple (hC : C.Laws) (h : Attempt C task call retriesLeft mutate K A D A' B E)
    {missing : Prog L.sig α} {refused : ε → Prog L.sig α} {committed : M×L.Value → Prog L.sig α}
    {conflicted : M → Prog L.sig α} {Q : α → World R → Prop}
    (hmissing : Triple C.contract task (RecordContract.On D) missing Q
      fun e => RecordContract.On (E e))
    (hrefused : ∀ e,Triple C.contract task (RecordContract.On D) (refused e) Q
      fun e => RecordContract.On (E e))
    (hcommitted : ∀ x : M×L.Value,K x.1 → Triple C.contract task (RecordContract.On (B x)) (committed x) Q
      fun e => RecordContract.On (E e))
    (hconflicted : ∀ told,K told → Triple C.contract task (RecordContract.On A') (conflicted told) Q
      fun e => RecordContract.On (E e)) :
    Triple C.contract task (RecordContract.On A)
      (attempt call retriesLeft mutate missing refused committed conflicted) Q
      fun e => RecordContract.On (E e) := by
  obtain ⟨hA,hD,hA',hB,hE⟩ := h.stable
  obtain ⟨hraiseA,hraiseD,hraiseA',hraiseB⟩ := h.raises
  have hlawful := hC.tracks.toLawful
  have hon : ∀ e,AsyncContracts.Stable C.contract task (RecordContract.On (E e)) :=
    fun e => (hE e).on
  have hknown : ∀ value,C.Stable task (Fetched mutate K A D value) := by
    intro value
    obtain he | ⟨told,he⟩ := fetched_cases mutate K A D value
    · rw [he]
      exact hD
    · rw [he]
      exact fun _ _ hexp hk => ⟨hA hexp hk.1,hk.2⟩
  have hraise : ∀ value,C.Raises task (Fetched mutate K A D value) E := by
    intro value
    obtain he | ⟨told,he⟩ := fetched_cases mutate K A D value
    · rw [he]
      exact hraiseD
    · rw [he]
      exact fun exc _ _ ht hinv hk ha => hraiseA exc ht hinv hk.1 ha
  unfold attempt
  apply Triple.bind hlawful hon (hC.watch hA hE hraiseA)
  intro token
  apply Triple.bind hlawful hon (hC.get hA hknown hE h.fetched hraiseA hraise)
  intro value
  cases value with
  | none => exact Triple.consequence hmissing (fun _ hk => hk.1) (fun _ _ hq => hq) fun _ _ he => he
  | some value =>
    dsimp only
    cases hm : mutate value with
    | error e =>
      simp only [Fetched,hm]
      exact Triple.consequence (hrefused e) (fun _ hk => hk.1) (fun _ _ hq => hq) fun _ _ he => he
    | ok x =>
      obtain ⟨told,value'⟩ := x
      simp only [Fetched,hm]
      rintro world ⟨⟨ha,hk⟩,hread⟩
      refine Triple.bind hlawful hon (hC.exec hA hA' (hB (told,value')) hE
        (h.commit value told value' hm) h.conflict hraiseA hraiseA' (hraiseB _)) ?_ ⟨ha,hread⟩
      intro committed
      cases committed with
      | false => exact hconflicted told hk
      | true => exact hcommitted (told,value') hk

end Rule

end KiClash.OptimisticTransactions

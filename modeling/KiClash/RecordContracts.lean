import KiClash.WatchedKeyRules

/-!
# Contracts about the key and the record

A contract whose invariant and assertions look only at the value under the
key and at the record, so that the memory of the processes does not matter.
Its obligations speak about records: what each event that a task appends does
to the invariant and to the assertions. The rules below turn them into rules
for operations, in which WATCH gives its guarantee: what GET has read is
still under the key when EXEC writes.
-/

namespace KiClash.RecordContracts

open AsyncTasks AsyncContracts WatchedKey

variable {L : Language} {R : Runtime L} {α : Type}

/-- The value under the key and what has happened. -/
structure Record (R : Runtime L) where
  /-- The value under the key. -/
  value : Option L.Value
  /-- What has happened, oldest first. -/
  trace : List (Event L.Value L.Call R.Note)

namespace Record

/-- Append to the record. -/
def log (record : Record R) (event : Event L.Value L.Call R.Note) : Record R :=
  ⟨record.value,record.trace++[event]⟩

/-- A transaction of a task writes. -/
def commit (record : Record R) (task : ℕ) (call : L.Call) (value : L.Value) : Record R :=
  ⟨some value,record.trace++[.commit task call (record.value.getD value) value]⟩

/-- The key is removed; removing a missing key is not recorded. -/
def delete (record : Record R) (task : ℕ) : Record R :=
  match record.value with
  | none => record
  | some _ => ⟨none,record.trace++[.deleted task]⟩

/-- A transaction that finds a value records it. -/
theorem commit_of_value {record : Record R} {value : L.Value} (h : record.value=some value)
    (task : ℕ) (call : L.Call) (value' : L.Value) :
    record.commit task call value'=
      ⟨some value',record.trace++[.commit task call value value']⟩ := by
  simp [commit,h]

/-- An action adds notes and may start a task. -/
def acted (record : Record R) (fresh : ℕ) (notes : List R.Note) (started : Option R.Entry) :
    Record R :=
  ⟨record.value,record.trace++
    (notes++(started.map (R.started fresh)).toList).map Event.note⟩

/-- An exception reaches a task. -/
def deliver (record : Record R) (task : ℕ) (exc : L.Exc) : Record R :=
  record.log (.note (R.raised task exc))

end Record

end KiClash.RecordContracts

namespace KiClash.WatchedKey

open RecordContracts

/-- The part of the world that record contracts look at. -/
def World.record {L : Language} {R : Runtime L} (world : World R) : Record R :=
  ⟨world.value,world.trace⟩

end KiClash.WatchedKey

namespace KiClash.RecordContracts

open AsyncTasks AsyncContracts WatchedKey

variable {L : Language} {R : Runtime L} {α : Type}

/-- Removing the key, as the record shows it. -/
theorem record_delete (world : World R) (task : ℕ) :
    (world.delete task).record=world.record.delete task := by
  obtain ⟨value,version,trace,memory⟩ := world
  cases value <;> rfl

/-- A contract about the key and the record. -/
structure RecordContract (R : Runtime L) where
  /-- Records in which something is owed. -/
  allowed : List (Event L.Value L.Call R.Note) → Prop
  /-- Invariant with so many tasks started. -/
  inv : ℕ → Record R → Prop
  /-- Changes that the given task expects from all other tasks. -/
  expects : ℕ → Record R → Record R → Prop
  /-- What holds of a task that rests: it has ended or waits for its next input. -/
  rest : ℕ → Record R → Prop
  /-- The actions that wait for an input. -/
  waits : L.Action → Prop
  /-- What holds when the given task starts. -/
  entry : ℕ → R.Entry → Record R → Prop

namespace RecordContract

/-- The contract for the whole system. -/
def contract (C : RecordContract R) : Contract R.system where
  allowed world := C.allowed world.trace
  inv count world := C.inv count world.record
  rely task world world' := Advances world world' ∧ C.expects task world.record world'.record
  ready task o world :=
    match o with
    | .store _ => True
    | .act o => C.waits o → C.rest task world.record
  entry task entry world := C.entry task entry world.record
  finish task world := C.rest task world.record

/-- What a record contract has to satisfy apart from its programs. -/
structure Laws (C : RecordContract R) : Prop where
  /-- Nothing happening is expected. -/
  expects_refl : ∀ task record,C.expects task record record
  /-- Expected changes compose. -/
  expects_trans : ∀ task {record₁ record₂ record₃},C.expects task record₁ record₂ →
    C.expects task record₂ record₃ → C.expects task record₁ record₃
  /-- The condition on the record holds of its prefixes. -/
  allowed_prefix : ∀ {trace trace'},trace <+: trace' → C.allowed trace' → C.allowed trace
  /-- An arriving task keeps the invariant, is expected by all and may start. -/
  arrive : ∀ {count entry record},C.inv count record → R.arrives entry=true →
    C.allowed (record.log (.note (R.started count entry))).trace →
    C.inv (count+1) (record.log (.note (R.started count entry))) ∧
      (∀ task,C.expects task record (record.log (.note (R.started count entry)))) ∧
      C.entry count entry (record.log (.note (R.started count entry)))

variable {C : RecordContract R}

/-- The laws are those of contracts over one key. -/
theorem Laws.tracks (h : C.Laws) : Tracks C.contract where
  rely_refl task world := ⟨Advances.refl world,h.expects_refl task _⟩
  rely_trans task _ _ _ h₁ h₂ := ⟨h₁.1.trans h₂.1,h.expects_trans task h₁.2 h₂.2⟩
  rely_advances _ _ _ hr := hr.1
  allowed_prefix := h.allowed_prefix
  arrive hi hentry ha := by
    obtain ⟨hinv,hexpects,he⟩ := h.arrive hi hentry ha
    exact ⟨hinv,fun task => ⟨Advances.log _ _,hexpects task⟩,he⟩
  ready _ _ _ := True.intro

/-- An assertion on records that survives whatever the other tasks do. -/
def Stable (C : RecordContract R) (task : ℕ) (A : Record R → Prop) : Prop :=
  ∀ ⦃record record'⦄,C.expects task record record' → A record → A record'

/-- The assertion holds of the record of a world. -/
abbrev On (A : Record R → Prop) (world : World R) : Prop := A world.record

theorem Stable.on {task : ℕ} {A : Record R → Prop} (h : C.Stable task A) :
    AsyncContracts.Stable C.contract task (On A) := fun _ _ hr ha => h hr.2 ha

/-- From the assertion A the task may change the record so, which leads to B. -/
def Moves (C : RecordContract R) (task : ℕ) (A : Record R → Prop)
    (change : Record R → Record R) (B : Record R → Prop) : Prop :=
  ∀ ⦃count record⦄,task<count → C.inv count record → A record →
    C.allowed (change record).trace →
    C.inv count (change record) ∧
      (∀ other,other≠task → C.expects other record (change record)) ∧ B (change record)

/-- Any exception may reach the task. -/
def Raises (C : RecordContract R) (task : ℕ) (A : Record R → Prop)
    (E : L.Exc → Record R → Prop) : Prop :=
  ∀ exc,C.Moves task A (fun record => record.deliver task exc) (E exc)

theorem Raises.interruptible {task : ℕ} {A : Record R → Prop} {E : L.Exc → Record R → Prop}
    (h : C.Raises task A E) (o : Op L) :
    Interruptible C.contract task (On A) (fun exc => On (E exc)) o := by
  intro exc count world ht hinv hA ha
  obtain ⟨hi,ho,he⟩ := h exc ht hinv hA.1 ha
  exact ⟨⟨hi,fun other hne => ⟨Advances.deliver _ _ _,ho other hne⟩⟩,he⟩

section Commands

variable {task : ℕ} {A B : Record R → Prop} {E : L.Exc → Record R → Prop}

/-- WATCH: the returned version is not in the future. -/
theorem Laws.watch (h : C.Laws) (hA : C.Stable task A) (hE : ∀ e,C.Stable task (E e))
    (hraise : C.Raises task A E) :
    Triple C.contract task (On A) (Prog.perform (S := L.sig) (.store .watch))
      (fun token world => A world.record ∧ token≤world.version) (fun e => On (E e)) := by
  have hstable : ∀ token : ℕ,AsyncContracts.Stable C.contract task
      fun world => A world.record ∧ token≤world.version :=
    fun token _ _ hr hp => ⟨hA hr.2 hp.1,Nat.le_trans hp.2 hr.1.version⟩
  apply Triple.store h.tracks hA.on hstable (fun e => (hE e).on)
  · intro count world ht hinv hp ha
    exact ⟨⟨hinv,fun other _ => h.tracks.rely_refl other world⟩,hp,Nat.le_refl _⟩
  · exact hraise.interruptible _
  · intro token exc count world ht hinv hp ha
    exact hraise.interruptible _ exc ht hinv ⟨hp.1.1,hp.2⟩ ha

/-- What GET has read still belongs to the remembered version. -/
def Read (token : ℕ) (value : Option L.Value) (world : World R) : Prop :=
  token≤world.version ∧ (world.version=token → world.value=value)

/-- This does not change. -/
theorem Read.stable (token : ℕ) (value : Option L.Value) :
    AsyncContracts.Stable C.contract task (Read (R := R) token value) := by
  intro world world' hr hp
  have hv := hr.1.version
  obtain ⟨hle,hval⟩ := hp
  refine ⟨by omega,fun he => ?_⟩
  rw [hr.1.value (by omega),hval (by omega)]

/-- GET after WATCH: the value belongs to the remembered version, and whatever
follows from it now and is stable can be kept. -/
theorem Laws.get (h : C.Laws) {token : ℕ} {K : Option L.Value → Record R → Prop}
    (hA : C.Stable task A) (hK : ∀ value,C.Stable task (K value))
    (hE : ∀ e,C.Stable task (E e))
    (hkeep : ∀ {count record},C.inv count record → A record → K record.value record)
    (hraise : C.Raises task A E) (hraise' : ∀ value,C.Raises task (K value) E) :
    Triple C.contract task (fun world => A world.record ∧ token≤world.version)
      (Prog.perform (S := L.sig) (.store .get))
      (fun value world => K value world.record ∧ Read token value world)
      (fun e => On (E e)) := by
  apply Triple.store h.tracks
  · exact fun _ _ hr hp => ⟨hA hr.2 hp.1,Nat.le_trans hp.2 hr.1.version⟩
  · exact fun value => (hK value).on.and (Read.stable token value)
  · exact fun e => (hE e).on
  · intro count world ht hinv hp ha
    exact ⟨⟨hinv,fun other _ => h.tracks.rely_refl other world⟩,hkeep hinv hp.1,hp.2,
      fun _ => rfl⟩
  · intro exc count world ht hinv hp ha
    exact hraise.interruptible _ exc ht hinv ⟨hp.1.1,hp.2⟩ ha
  · intro value exc count world ht hinv hp ha
    exact (hraise' value).interruptible _ exc ht hinv ⟨hp.1.1,hp.2⟩ ha

/-- UNWATCH changes nothing. -/
theorem Laws.unwatch (h : C.Laws) (hA : C.Stable task A) (hE : ∀ e,C.Stable task (E e))
    (hraise : C.Raises task A E) :
    Triple C.contract task (On A) (Prog.perform (S := L.sig) (.store .unwatch))
      (fun _ => On A) (fun e => On (E e)) := by
  apply Triple.store h.tracks hA.on (fun _ => hA.on) (fun e => (hE e).on)
  · intro count world ht hinv hp ha
    exact ⟨⟨hinv,fun other _ => h.tracks.rely_refl other world⟩,hp⟩
  · exact hraise.interruptible _
  · exact fun _ => hraise.interruptible _

/-- EXEC: if it writes, the key still has the value that GET has read. -/
theorem Laws.exec (h : C.Laws) {token retriesLeft : ℕ} {call : L.Call}
    {value value' : L.Value} {A' : Record R → Prop} (hA : C.Stable task A)
    (hA' : C.Stable task A') (hB : C.Stable task B) (hE : ∀ e,C.Stable task (E e))
    (hcommit : C.Moves task (fun record => A record ∧ record.value=some value)
      (fun record => record.commit task call value') B)
    (hconflict : C.Moves task A (fun record => record.log (.conflict task call retriesLeft)) A')
    (hraise : C.Raises task A E) (hraiseA' : C.Raises task A' E) (hraiseB : C.Raises task B E) :
    Triple C.contract task (fun world => A world.record ∧ Read token (some value) world)
      (Prog.perform (S := L.sig) (.store (.exec token retriesLeft call value')))
      (fun committed world => if committed then B world.record else A' world.record)
      (fun e => On (E e)) := by
  apply Triple.store h.tracks
  · exact hA.on.and (Read.stable token _)
  · intro committed world world' hr hp
    cases committed with
    | false => exact hA' hr.2 hp
    | true => exact hB hr.2 hp
  · exact fun e => (hE e).on
  · intro count world ht hinv hp ha
    by_cases hv : world.version=token
    · simp only [StoreOp.effect,if_pos hv] at ha ⊢
      obtain ⟨hi,ho,hb⟩ := hcommit ht hinv ⟨hp.1,hp.2.2 hv⟩ ha
      exact ⟨⟨hi,fun other hne => ⟨Advances.commit _ _ _ _,ho other hne⟩⟩,hb⟩
    · simp only [StoreOp.effect,if_neg hv] at ha ⊢
      obtain ⟨hi,ho,hb⟩ := hconflict ht hinv hp.1 ha
      exact ⟨⟨hi,fun other hne => ⟨Advances.log _ _,ho other hne⟩⟩,hb⟩
  · intro exc count world ht hinv hp ha
    exact hraise.interruptible _ exc ht hinv ⟨hp.1.1,hp.2⟩ ha
  · intro committed exc count world ht hinv hp ha
    cases committed with
    | false => exact hraiseA'.interruptible _ exc ht hinv hp ha
    | true => exact hraiseB.interruptible _ exc ht hinv hp ha

/-- GET outside of a transaction is recorded. -/
theorem Laws.load (h : C.Laws) {K : Option L.Value → Record R → Prop}
    (hA : C.Stable task A) (hK : ∀ value,C.Stable task (K value))
    (hE : ∀ e,C.Stable task (E e))
    (hload : ∀ value,C.Moves task (fun record => A record ∧ record.value=value)
      (fun record => record.log (.loaded task value)) (K value))
    (hraise : C.Raises task A E) (hraise' : ∀ value,C.Raises task (K value) E) :
    Triple C.contract task (On A) (Prog.perform (S := L.sig) (.store .load))
      (fun value => On (K value)) (fun e => On (E e)) := by
  apply Triple.store (o := .load) h.tracks hA.on (fun value => (hK value).on)
    (fun e => (hE e).on)
  · intro count world ht hinv hp ha
    obtain ⟨hi,ho,hk⟩ := hload world.value ht hinv ⟨hp,rfl⟩ ha
    exact ⟨⟨hi,fun other hne => ⟨Advances.log _ _,ho other hne⟩⟩,hk⟩
  · exact hraise.interruptible _
  · exact fun value => (hraise' value).interruptible _

/-- DELETE. -/
theorem Laws.delete (h : C.Laws) (hA : C.Stable task A) (hB : C.Stable task B)
    (hE : ∀ e,C.Stable task (E e))
    (hdelete : C.Moves task A (fun record => record.delete task) B)
    (hraise : C.Raises task A E) (hraise' : C.Raises task B E) :
    Triple C.contract task (On A) (Prog.perform (S := L.sig) (.store .delete))
      (fun _ => On B) (fun e => On (E e)) := by
  apply Triple.store h.tracks hA.on (fun _ => hB.on) (fun e => (hE e).on)
  · intro count world ht hinv hp ha
    change C.allowed (world.delete task).record.trace at ha
    rw [record_delete] at ha
    obtain ⟨hi,ho,hb⟩ := hdelete ht hinv hp ha
    simp only [← record_delete] at hi ho hb
    exact ⟨⟨hi,fun other hne => ⟨Advances.delete _ _,ho other hne⟩⟩,hb⟩
  · exact hraise.interruptible _
  · exact fun _ => hraise'.interruptible _

/-- SET: it writes, unless it is only to create the key and finds one. -/
theorem Laws.set (h : C.Laws) {onlyIfAbsent : Bool} {call : L.Call} {value : L.Value}
    {Q : Bool → Record R → Prop} (hA : C.Stable task A) (hQ : ∀ b,C.Stable task (Q b))
    (hE : ∀ e,C.Stable task (E e))
    (hwrite : C.Moves task
      (fun record => A record ∧ (onlyIfAbsent=true → record.value=none))
      (fun record => record.commit task call value) (Q true))
    (hfound : onlyIfAbsent=true → ∀ record,A record → Q false record)
    (hraise : C.Raises task A E) (hraise' : ∀ b,C.Raises task (Q b) E) :
    Triple C.contract task (On A)
      (Prog.perform (S := L.sig) (.store (.set onlyIfAbsent call value)))
      (fun b => On (Q b)) (fun e => On (E e)) := by
  apply Triple.store (o := .set onlyIfAbsent call value) h.tracks hA.on (fun b => (hQ b).on)
    (fun e => (hE e).on)
  · intro count world ht hinv hp ha
    by_cases hfind : (onlyIfAbsent && world.value.isSome)=true
    · simp only [StoreOp.effect,if_pos hfind] at ha ⊢
      exact ⟨⟨hinv,fun other _ => h.tracks.rely_refl other world⟩,
        hfound (Bool.and_eq_true _ _ ▸ hfind).1 _ hp⟩
    · have habsent : onlyIfAbsent=true → world.value=none := by
        intro ho
        simpa [ho] using hfind
      simp only [StoreOp.effect,if_neg hfind] at ha ⊢
      obtain ⟨hi,ho,hb⟩ := hwrite ht hinv ⟨hp,habsent⟩ ha
      exact ⟨⟨hi,fun other hne => ⟨Advances.commit _ _ _ _,ho other hne⟩⟩,hb⟩
  · exact hraise.interruptible _
  · exact fun b => (hraise' b).interruptible _

/-- What an action appends to the record is within the contract. -/
structure Acts (C : RecordContract R) (task count : ℕ) (record : Record R)
    (notes : List R.Note) (started : Option R.Entry) (B : Record R → Prop) : Prop where
  /-- The invariant holds with the started task counted. -/
  inv : C.inv (count+started.toList.length) (record.acted count notes started)
  /-- Every other task expects the change. -/
  others : ∀ other,other≠task → C.expects other record (record.acted count notes started)
  /-- The started task may start. -/
  entry : ∀ entry,started=some entry → C.entry count entry (record.acted count notes started)
  /-- It leads to the assertion B. -/
  post : B (record.acted count notes started)

/-- An action without notes that starts nothing does nothing to the record. -/
theorem Laws.silent (h : C.Laws) {count : ℕ} {record : Record R} (hinv : C.inv count record)
    (hB : B record) : C.Acts task count record [] none B := by
  have hrecord : record.acted count [] none=record := by simp [Record.acted]
  refine ⟨?_,fun other _ => ?_,(fun _ hne => nomatch hne),?_⟩
  · rw [hrecord]
    exact hinv
  · rw [hrecord]
    exact h.expects_refl other record
  · rw [hrecord]
    exact hB

/-- What an action does when nothing interrupts it. -/
theorem Acts.keeps {o : L.Action} {B : L.Result o → Record R → Prop}
    (hact : ∀ {pick count record memory memory' notes result started},
      R.act pick task count o memory=(memory',notes,result,started) →
      task<count → C.inv count record → A record →
      C.allowed (record.acted count notes started).trace →
      C.Acts task count record notes started (Outcome B E result))
    ⦃count : ℕ⦄ ⦃world : World R⦄ (pick : Bool) (ht : task<count)
    (hinv : C.contract.inv count world) (hp : On A world)
    (ha : C.contract.allowed ((Op.act o).effect pick task count world).1) :
    C.contract.Keeps task count world ((Op.act o).effect pick task count world).1
        ((Op.act o).effect pick task count world).2.2 ∧
      Outcome (fun a => On (B a)) (fun e => On (E e))
        ((Op.act o).effect pick task count world).2.1
        ((Op.act o).effect pick task count world).1 := by
  obtain ⟨hi,ho,hentry,hpost⟩ := hact rfl ht hinv hp ha
  refine ⟨⟨hi,fun other hne => ⟨Advances.acted _ _ _ _ _,ho other hne⟩,hentry⟩,?_⟩
  change Outcome _ _ (R.act pick task count o world.memory).2.2.1 _
  cases hr : (R.act pick task count o world.memory).2.2.1 with
  | ok a =>
    rw [hr] at hpost
    exact hpost
  | error e =>
    rw [hr] at hpost
    exact hpost

/-- Any other action. -/
theorem Laws.act (h : C.Laws) {o : L.Action} {B : L.Result o → Record R → Prop}
    (hA : C.Stable task A) (hB : ∀ a,C.Stable task (B a)) (hE : ∀ e,C.Stable task (E e))
    (hwaits : C.waits o → ∀ record,A record → C.rest task record)
    (hact : ∀ {pick count record memory memory' notes result started},
      R.act pick task count o memory=(memory',notes,result,started) →
      task<count → C.inv count record → A record →
      C.allowed (record.acted count notes started).trace →
      C.Acts task count record notes started (Outcome B E result))
    (hraise : C.Raises task A E) (hraiseB : ∀ a,C.Raises task (B a) E)
    (hraiseE : ∀ e,C.Raises task (E e) E) :
    Triple C.contract task (On A) (Prog.perform (S := L.sig) (.act o)) (fun a => On (B a))
      (fun e => On (E e)) := by
  apply Triple.act h.tracks hA.on (fun a => (hB a).on) (fun e => (hE e).on)
  · exact fun count world _ hp hw => hwaits hw _ hp
  · exact Acts.keeps hact
  · exact hraise.interruptible _
  · intro count world pick r exc hint ht hinv hp ha
    cases r with
    | ok a =>
      obtain ⟨hi,ho,he⟩ := hraiseB a exc ht hinv hp ha
      exact ⟨⟨hi,fun other hne => ⟨Advances.deliver _ _ _,ho other hne⟩⟩,he⟩
    | error e =>
      obtain ⟨hi,ho,he⟩ := hraiseE e exc ht hinv hp ha
      exact ⟨⟨hi,fun other hne => ⟨Advances.deliver _ _ _,ho other hne⟩⟩,he⟩

/-- An action that nothing can interrupt. -/
theorem Laws.actFree (h : C.Laws) {o : L.Action} {B : L.Result o → Record R → Prop}
    (hA : C.Stable task A) (hB : ∀ a,C.Stable task (B a)) (hE : ∀ e,C.Stable task (E e))
    (hwaits : C.waits o → ∀ record,A record → C.rest task record)
    (hact : ∀ {pick count record memory memory' notes result started},
      R.act pick task count o memory=(memory',notes,result,started) →
      task<count → C.inv count record → A record →
      C.allowed (record.acted count notes started).trace →
      C.Acts task count record notes started (Outcome B E result))
    (hfree : ∀ memory,R.interrupt memory task (.act o)=none) :
    Triple C.contract task (On A) (Prog.perform (S := L.sig) (.act o)) (fun a => On (B a))
      (fun e => On (E e)) := by
  apply Triple.act h.tracks hA.on (fun a => (hB a).on) (fun e => (hE e).on)
  · exact fun count world _ hp hw => hwaits hw _ hp
  · exact Acts.keeps hact
  · intro exc count world ht hinv hp ha
    have hint := hp.2
    rw [hfree] at hint
    cases hint
  · intro count world pick r exc hint ht hinv hp ha
    rw [hfree] at hint
    cases hint

end Commands

end RecordContract

end KiClash.RecordContracts

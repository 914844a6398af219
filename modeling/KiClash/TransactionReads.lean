import KiClash.TaskPhases

/-!
# Transactions compute what they write from what they replace

A library for programs that watch the key, read it, and write what a relation
allows them to make of it. A watcher follows each task through the attempt that
is under way. If the key has not been written since the task has watched it, the
value that the task has read is still the value under the key; so a transaction
that commits relates the value before it to the value after it.
-/

namespace KiClash.TransactionReads

open AsyncTasks WatchedKey TaskPhases

variable {L : Language} {R : Runtime L} {α β : Type}

/-- The attempt that is under way. -/
inductive Attempt (Value : Type)
  /-- The key has not been watched. -/
  | idle
  /-- The key has been watched at a version. -/
  | watched (token : ℕ)
  /-- It has been watched, and then this value has been read. -/
  | found (token : ℕ) (value : Value)
  deriving DecidableEq

/-- The attempt after an operation. -/
def Attempt.next : Attempt L.Value → (o : Op L) → Except L.Exc o.Res → Attempt L.Value
  | _,.store .watch,.ok token => .watched token
  | .watched token,.store .get,.ok (some value) => .found token value
  | .found token _,.store .get,.ok (some value) => .found token value
  | _,.store .get,.ok none => .idle
  | _,.store (.exec _ _ _ _),_ => .idle
  | attempt,_,_ => attempt

/-- The value that has been read. -/
def Attempt.value {Value : Type} : Attempt Value → Option Value
  | .found _ value => some value
  | _ => none

/-- A transaction writes what the relation makes of the value that has been read. -/
def Attempt.Allows (Makes : L.Call → L.Value → L.Value → Prop) (attempt : Attempt L.Value) :
    Op L → Prop
  | .store (.exec token _ call value') => ∃ value,attempt=.found token value ∧
    Makes call value value'
  | _ => True

/-- The attempts of all tasks. -/
abbrev attempts (R : Runtime L) (Makes : L.Call → L.Value → L.Value → Prop) : Watcher R where
  Phase := Attempt L.Value
  start _ := .idle
  next attempt o _ r := attempt.next o r
  allows := Attempt.Allows Makes
  ends _ := True

/-- The program writes only what the relation makes of what it has read. -/
abbrev Reads (R : Runtime L) (Makes : L.Call → L.Value → L.Value → Prop) (p : Prog L.sig α) :
    Prop :=
  ∀ attempt,(attempts R Makes).Follows (fun _ _ => True) attempt p

section Programs

variable {Makes : L.Call → L.Value → L.Value → Prop}

/-- A program that has ended writes nothing. -/
theorem Reads.done (r : Except L.Exc α) : Reads R Makes (.done r) := fun _ => True.intro

/-- One program after the other. -/
theorem Reads.andThen {p : Prog L.sig α} {f : Except L.Exc α → Prog L.sig β}
    (h : Reads R Makes p) (hf : ∀ r,Reads R Makes (f r)) : Reads R Makes (p.andThen f) :=
  fun attempt => (h attempt).andThen fun attempt r _ => hf r attempt

/-- Sequencing. -/
theorem Reads.bind {p : Prog L.sig α} {f : α → Prog L.sig β} (h : Reads R Makes p)
    (hf : ∀ a,Reads R Makes (f a)) : Reads R Makes (p >>= f) :=
  fun attempt => (h attempt).bind (fun attempt a _ => hf a attempt) fun _ _ _ => True.intro

/-- An operation that is no transaction. -/
def Plain : Op L → Prop
  | .store (.exec _ _ _ _) => False
  | _ => True

/-- A program without transactions. -/
theorem Reads.plain {p : Prog L.sig α} (h : p.All Plain) : Reads R Makes p := by
  induction p with
  | done r => exact .done r
  | op o next ih =>
    intro attempt
    refine ⟨?_,fun effective r _ => ih r (h.2 r) _⟩
    have hplain : Plain o := h.1
    match o with
    | .store (.exec _ _ _ _) => exact hplain.elim
    | .store .watch | .store .unwatch | .store .get | .store .load | .store .delete
    | .store (.set _ _ _) | .act _ => exact True.intro

/-- An attempt: the value that GET returns is the one that the transaction is
computed from. -/
theorem Reads.attempt {found : ℕ → Option L.Value → Prog L.sig α}
    (h : ∀ token value,match value with
      | none => Reads R Makes (found token none)
      | some value => (attempts R Makes).Follows (fun _ _ => True) (.found token value)
        (found token (some value))) :
    Reads R Makes (Prog.perform (S := L.sig) (.store .watch) >>= fun token =>
      Prog.perform (S := L.sig) (.store .get) >>= fun value => found token value) := by
  intro attempt
  refine ⟨True.intro,fun effective r _ => ?_⟩
  cases r with
  | error exc => exact True.intro
  | ok token =>
    refine ⟨True.intro,fun effective r _ => ?_⟩
    rcases r with exc | _ | value
    · exact True.intro
    · exact h token none _
    · exact h token (some value)

/-- The transaction of an attempt. -/
theorem follows_exec {token : ℕ} {value value' : L.Value} {call : L.Call} {retriesLeft : ℕ}
    {f : Bool → Prog L.sig α} (hmakes : Makes call value value')
    (hf : ∀ committed,Reads R Makes (f committed)) :
    (attempts R Makes).Follows (fun _ _ => True) (.found token value)
      (Prog.perform (S := L.sig) (.store (.exec token retriesLeft call value')) >>= f) := by
  refine ⟨⟨value,rfl,hmakes⟩,fun effective r _ => ?_⟩
  cases r with
  | error exc => exact True.intro
  | ok committed => exact hf committed _

end Programs

section Commands

variable {choice : Choice} {task fresh : ℕ} {world world' : World R} {started : Option R.Entry}

/-- The key as it is. -/
def Untouched (world world' : World R) : Prop :=
  world'.version=world.version ∧ world'.value=world.value

/-- A command writes, which a version tells, or leaves the key as it is. -/
theorem effect_version (o : StoreOp L.Value L.Call) (world : World R) :
    world.version<(o.effect task world).1.version ∨ Untouched world (o.effect task world).1 := by
  cases o with
  | watch | unwatch | get | load => exact .inr ⟨rfl,rfl⟩
  | exec token retriesLeft call value =>
    simp only [StoreOp.effect]
    split
    · exact .inl (Nat.lt_succ_self _)
    · exact .inr ⟨rfl,rfl⟩
  | set onlyIfAbsent call value =>
    simp only [StoreOp.effect]
    split
    · exact .inr ⟨rfl,rfl⟩
    · exact .inl (Nat.lt_succ_self _)
  | delete =>
    simp only [StoreOp.effect,World.delete]
    split
    · exact .inr ⟨rfl,rfl⟩
    · exact .inl (Nat.lt_succ_self _)

/-- Whatever happens to an operation, it writes or leaves the key as it is. -/
theorem perform_version {o : Op L} {r : Except L.Exc o.Res}
    (hp : WatchedKey.perform choice task fresh o world=some (world',r,started)) :
    world.version<world'.version ∨ Untouched world world' := by
  have heffect : ∀ pick,world.version<(o.effect pick task fresh world).1.version ∨
      Untouched world (o.effect pick task fresh world).1 := by
    intro pick
    cases o with
    | store o => exact effect_version o world
    | act o => exact .inr ⟨rfl,rfl⟩
  obtain ⟨pick,-,he⟩ | ⟨exc,-,rfl,rfl,rfl | ⟨pick,-,rfl⟩⟩ := perform_cases hp
  · have hworld := heffect pick
    rwa [he] at hworld
  · exact .inr ⟨rfl,rfl⟩
  · exact heffect pick

/-- An operation that cannot write. -/
def ReadOnly : Op L → Prop
  | .store (.exec _ _ _ _) => False
  | .store (.set _ _ _) => False
  | .store .delete => False
  | _ => True

/-- It leaves the key as it is. -/
theorem perform_readOnly {o : Op L} {r : Except L.Exc o.Res} (h : ReadOnly o)
    (hp : WatchedKey.perform choice task fresh o world=some (world',r,started)) :
    Untouched world world' := by
  have heffect : ∀ pick,Untouched world (o.effect pick task fresh world).1 := by
    intro pick
    match o with
    | .store .watch | .store .unwatch | .store .get | .store .load | .act _ => exact ⟨rfl,rfl⟩
    | .store (.exec _ _ _ _) | .store (.set _ _ _) | .store .delete => exact h.elim
  obtain ⟨pick,-,he⟩ | ⟨exc,-,rfl,rfl,rfl | ⟨pick,-,rfl⟩⟩ := perform_cases hp
  · have hworld := heffect pick
    rwa [he] at hworld
  · exact ⟨rfl,rfl⟩
  · exact heffect pick

/-- A transaction. -/
theorem perform_exec {token retriesLeft : ℕ} {call : L.Call} {value : L.Value}
    {r : Except L.Exc Bool} (hp : WatchedKey.perform (R := R) choice task fresh
      (.store (.exec token retriesLeft call value)) world=some (world',r,started)) :
    if took choice (.store (.exec token retriesLeft call value)) world then
      world.version=token ∧ world'.value=some value ∧ world.version<world'.version
    else Untouched world world' := by
  have heffect : ∀ world₁ : World R,
      Untouched ((StoreOp.exec token retriesLeft call value).effect task world).1 world₁ →
      if decide (world.version=token) then
        world.version=token ∧ world₁.value=some value ∧ world.version<world₁.version
      else Untouched world world₁ := by
    rintro world₁ ⟨hversion,hvalue⟩
    by_cases hv : world.version=token
    · rw [if_pos (decide_eq_true hv),hvalue,hversion]
      simp only [StoreOp.effect,if_pos hv]
      exact ⟨hv,rfl,Nat.lt_succ_self _⟩
    · rw [if_neg (by simpa using hv)]
      simp only [StoreOp.effect,if_neg hv] at hversion hvalue
      exact ⟨hversion,hvalue⟩
  cases choice with
  | raiseBefore =>
    obtain ⟨exc,-,he⟩ := Option.map_eq_some_iff.mp hp
    cases he
    exact ⟨rfl,rfl⟩
  | proceed pick =>
    simp only [WatchedKey.perform] at hp
    split at hp
    · cases hp
    · cases hp
      exact heffect _ ⟨rfl,rfl⟩
  | raiseAfter pick =>
    simp only [WatchedKey.perform] at hp
    split at hp
    · cases hp
      exact heffect _ ⟨rfl,rfl⟩
    · cases hp

/-- DEL removes the value, unless it fails. -/
theorem perform_delete {r : Except L.Exc Unit} (hp : WatchedKey.perform (R := R) choice task fresh
    (.store .delete) world=some (world',r,started)) :
    world'.value=world.value ∨ world'.value=none := by
  have hdelete : (StoreOp.effect task (.delete : StoreOp L.Value L.Call) world).1.value=none := by
    simp only [StoreOp.effect,World.delete]
    split
    · next hnone => exact hnone
    · rfl
  obtain ⟨pick,-,he⟩ | ⟨exc,-,-,-,rfl | ⟨pick,-,rfl⟩⟩ := perform_cases hp
  · cases he
    exact .inr hdelete
  · exact .inl rfl
  · exact .inr hdelete

/-- DEL removes the value if it takes effect. -/
theorem perform_delete_took {r : Except L.Exc Unit} (hp : WatchedKey.perform (R := R) choice task
    fresh (.store .delete) world=some (world',r,started)) :
    if took choice (.store (.delete : StoreOp L.Value L.Call)) world then world'.value=none
    else Untouched world world' := by
  have hdelete : (StoreOp.effect task (.delete : StoreOp L.Value L.Call) world).1.value=none := by
    simp only [StoreOp.effect,World.delete]
    split
    · next hnone => exact hnone
    · rfl
  cases choice with
  | raiseBefore =>
    obtain ⟨exc,-,he⟩ := Option.map_eq_some_iff.mp hp
    cases he
    exact ⟨rfl,rfl⟩
  | proceed pick =>
    simp only [WatchedKey.perform] at hp
    split at hp
    · cases hp
    · cases hp
      exact hdelete
  | raiseAfter pick =>
    simp only [WatchedKey.perform] at hp
    split at hp
    · cases hp
      exact hdelete
    · cases hp

/-- SET writes if it takes effect; with NX it does so only if there is no value. -/
theorem perform_set {onlyIfAbsent : Bool} {call : L.Call} {value : L.Value}
    {r : Except L.Exc Bool} (hp : WatchedKey.perform (R := R) choice task fresh
      (.store (.set onlyIfAbsent call value)) world=some (world',r,started)) :
    if took choice (.store (.set onlyIfAbsent call value)) world then
      (onlyIfAbsent=true → world.value=none) ∧ world'.value=some value
    else Untouched world world' := by
  have heffect : ∀ world₁ : World R,
      Untouched ((StoreOp.set onlyIfAbsent call value).effect task world).1 world₁ →
      if !(onlyIfAbsent && world.value.isSome) then
        (onlyIfAbsent=true → world.value=none) ∧ world₁.value=some value
      else Untouched world world₁ := by
    intro world₁ hsame
    cases hfound : onlyIfAbsent && world.value.isSome with
    | true =>
      simp only [StoreOp.effect,hfound,if_true] at hsame
      exact hsame
    | false =>
      simp only [StoreOp.effect,hfound,Bool.false_eq_true,if_false] at hsame
      refine ⟨fun honly => ?_,hsame.2⟩
      rw [honly,Bool.true_and] at hfound
      exact Option.isNone_iff_eq_none.mp (by simpa using hfound)
  cases choice with
  | raiseBefore =>
    obtain ⟨exc,-,he⟩ := Option.map_eq_some_iff.mp hp
    cases he
    exact ⟨rfl,rfl⟩
  | proceed pick =>
    simp only [WatchedKey.perform] at hp
    split at hp
    · cases hp
    · cases hp
      exact heffect _ ⟨rfl,rfl⟩
  | raiseAfter pick =>
    simp only [WatchedKey.perform] at hp
    split at hp
    · cases hp
      exact heffect _ ⟨rfl,rfl⟩
    · cases hp

/-- WATCH returns the version. -/
theorem perform_watch {token : ℕ} (hp : WatchedKey.perform (R := R) choice task fresh
    (.store .watch) world=some (world',.ok token,started)) : token=world.version := by
  obtain ⟨pick,-,he⟩ | ⟨exc,-,he,-⟩ := perform_cases hp
  · cases he
    rfl
  · cases he

/-- GET returns the value. -/
theorem perform_get {value : Option L.Value} (hp : WatchedKey.perform (R := R) choice task fresh
    (.store .get) world=some (world',.ok value,started)) : value=world.value := by
  obtain ⟨pick,-,he⟩ | ⟨exc,-,he,-⟩ := perform_cases hp
  · cases he
    rfl
  · cases he

/-- So does GET outside of a transaction. -/
theorem perform_load {value : Option L.Value} (hp : WatchedKey.perform (R := R) choice task fresh
    (.store .load) world=some (world',.ok value,started)) : value=world.value := by
  obtain ⟨pick,-,he⟩ | ⟨exc,-,he,-⟩ := perform_cases hp
  · cases he
    rfl
  · cases he

end Commands

section Runs

/-- What an attempt knows about the key. -/
def Attempt.Fits (world : World R) : Attempt L.Value → Prop
  | .idle => True
  | .watched token => token ≤ world.version
  | .found token value => token ≤ world.version ∧ (world.version=token → world.value=some value)

/-- The others do not make it wrong. -/
theorem Attempt.Fits.later {attempt : Attempt L.Value} {world world' : World R}
    (h : attempt.Fits world) (hw : world.version<world'.version ∨ Untouched world world') :
    attempt.Fits world' := by
  cases attempt with
  | idle => exact True.intro
  | watched token =>
    have hle : token ≤ world.version := h
    change token ≤ world'.version
    obtain hlt | ⟨hv,-⟩ := hw <;> omega
  | found token value =>
    obtain ⟨hle,hvalue⟩ := h
    obtain hlt | ⟨hv,hsame⟩ := hw
    · exact ⟨by omega,fun he => by omega⟩
    · exact ⟨by omega,fun he => hsame.trans (hvalue (hv.symm.trans he))⟩

/-- An operation of the task itself keeps it right. -/
theorem Attempt.Fits.next {attempt : Attempt L.Value} {choice : Choice} {task fresh : ℕ} {o : Op L}
    {world world' : World R} {r : Except L.Exc o.Res} {started : Option R.Entry}
    (h : attempt.Fits world)
    (hp : WatchedKey.perform choice task fresh o world=some (world',r,started)) :
    (attempt.next o r).Fits world' := by
  have hlater := h.later (perform_version hp)
  unfold Attempt.next
  split
  · next token =>
    cases perform_watch hp
    obtain hlt | ⟨hv,-⟩ := perform_version hp
    · exact Nat.le_of_lt hlt
    · exact Nat.le_of_eq hv.symm
  · next token value =>
    have hvalue := perform_get hp
    obtain hlt | ⟨hv,hsame⟩ := perform_version hp
    · exact ⟨hlater,fun he => absurd hlt (by have hle : token ≤ world.version := h; omega)⟩
    · exact ⟨hlater,fun _ => hsame.trans hvalue.symm⟩
  · next token _ value =>
    have hvalue := perform_get hp
    obtain hlt | ⟨hv,hsame⟩ := perform_version hp
    · exact ⟨hlater.1,fun he => absurd hlt (by have hle : token ≤ world.version := h.1; omega)⟩
    · exact ⟨hlater.1,fun _ => hsame.trans hvalue.symm⟩
  · exact True.intro
  · exact True.intro
  · exact hlater

variable {P : Watcher R} {Makes : L.Call → L.Value → L.Value → Prop}
  {attempt : P.Phase → Attempt L.Value}

/-- The phases of a watcher tell the attempts. -/
structure Tracks (P : Watcher R) (Makes : L.Call → L.Value → L.Value → Prop)
    (attempt : P.Phase → Attempt L.Value) : Prop where
  /-- At first there is none. -/
  start : ∀ entry,attempt (P.start entry)=.idle
  /-- They go on with the operations. -/
  next : ∀ phase o effective r,attempt (P.next phase o effective r)=(attempt phase).next o r
  /-- What is written is what the relation makes of what has been read. -/
  allows : ∀ {phase : P.Phase} {o : Op L},P.allows phase o → (attempt phase).Allows Makes o

/-- Every attempt of a configuration knows the key. -/
def Informed (attempt : P.Phase → Attempt L.Value) (seen : Seen P) : Prop :=
  ∀ (task : ℕ) (phase : P.Phase),seen.phases[task]?=some phase →
    (attempt phase).Fits seen.config.world

/-- A move keeps the attempts informed. -/
theorem Informed.step (htracks : Tracks P Makes attempt) {seen seen' : Seen P}
    {move : R.system.Move} (h : Informed attempt seen) (hs : Seen.Moved seen move seen') :
    Informed attempt seen' := by
  cases hs with
  | opened entry harrives =>
    intro task phase hphase
    obtain hold | ⟨-,hnew⟩ := @Seen.getElem?_extended _ _ (some (P.start entry)) _ _ hphase
    · exact (h task phase hold).later (.inr ⟨rfl,rfl⟩)
    · cases hnew
      rw [htracks.start]
      exact True.intro
  | performed task choice before o rest world r started htask hphase hp =>
    intro other phase hphase'
    obtain ⟨rfl,rfl⟩ | ⟨-,hother⟩ | ⟨-,hstarted⟩ := Seen.getElem?_moved hphase'
    · rw [htracks.next]
      exact (h other before hphase).next hp
    · exact (h other phase hother).later (perform_version hp)
    · obtain ⟨entry,-,rfl⟩ := Option.map_eq_some_iff.mp hstarted
      rw [htracks.start]
      exact True.intro

/-- Throughout a run the attempts are informed. -/
theorem informed_of_run (htracks : Tracks P Makes attempt)
    (hbody : ∀ entry,P.Follows (fun phase _ => P.ends phase) (P.start entry) (R.body entry))
    {config : R.system.Config} (hconfig : config.tasks=[]) {moves : List R.system.Move}
    {seen : Seen P} (hrun : (Seen.initial P config).run moves=some seen) :
    Informed attempt seen ∧ seen.Conforms :=
  Seen.invariant (F := fun _ _ => True) hbody hconfig (I := Informed attempt)
    (fun _ _ hi _ hs => hi.step htracks hs) hrun (fun _ _ => True.intro)
    fun _ _ hphase => nomatch hphase

/-- A transaction that takes effect relates the value that it replaces, which is the
one that its attempt has found, to the value that it writes. -/
theorem found_of_exec (htracks : Tracks P Makes attempt) {seen : Seen P}
    (hinformed : Informed attempt seen) (hconforms : seen.Conforms) {choice : Choice}
    {task token retriesLeft : ℕ} {call : L.Call} {value : L.Value}
    {rest : Except L.Exc Bool → Prog L.sig Unit} {phase : P.Phase}
    (hphase : seen.phases[task]?=some phase)
    (htask : seen.config.tasks[task]?=some (.op (.store (.exec token retriesLeft call value)) rest))
    (htook : took choice (.store (.exec token retriesLeft call value)) seen.config.world=true) :
    ∃ before,seen.config.world.value=some before ∧ attempt phase=.found token before ∧
      Makes call before value := by
  obtain ⟨before,hfound,hmakes⟩ := htracks.allows (hconforms.allows hphase htask)
  have hfits := hinformed task phase hphase
  rw [hfound] at hfits
  have hversion : seen.config.world.version=token := by
    cases choice with
    | raiseBefore => cases htook
    | proceed pick | raiseAfter pick => exact of_decide_eq_true htook
  exact ⟨before,hfits.2 hversion,hfound,hmakes⟩

/-- What holds of the stored value and of every value that an attempt has read. -/
def Everywhere (attempt : P.Phase → Attempt L.Value) (I : L.Value → Prop) (seen : Seen P) : Prop :=
  (∀ value,seen.config.world.value=some value → I value) ∧
    ∀ (task : ℕ) (phase : P.Phase),seen.phases[task]?=some phase →
      ∀ value,(attempt phase).value=some value → I value

/-- An attempt reads what is stored. -/
theorem value_next {before : Attempt L.Value} {choice : Choice} {task fresh : ℕ} {o : Op L}
    {world world' : World R} {r : Except L.Exc o.Res} {started : Option R.Entry} {value : L.Value}
    (hp : WatchedKey.perform choice task fresh o world=some (world',r,started))
    (h : (before.next o r).value=some value) :
    before.value=some value ∨ world.value=some value := by
  unfold Attempt.next at h
  split at h
  · cases h
  · cases h
    exact .inr (perform_get hp).symm
  · cases h
    exact .inr (perform_get hp).symm
  · cases h
  · cases h
  · exact .inl h

/-- It is enough to look at the stored value. -/
theorem Everywhere.step (htracks : Tracks P Makes attempt) {I I' : L.Value → Prop}
    {seen seen' : Seen P} {move : R.system.Move} (h : Everywhere attempt I seen)
    (hweaker : ∀ value,I value → I' value) (hs : Seen.Moved seen move seen')
    (hstored : ∀ value,seen'.config.world.value=some value → I' value) :
    Everywhere attempt I' seen' := by
  refine ⟨hstored,?_⟩
  obtain ⟨hvalue,hread⟩ := h
  cases hs with
  | opened entry harrives =>
    intro task phase hphase value hfound
    obtain hold | ⟨-,hnew⟩ := @Seen.getElem?_extended _ _ (some (P.start entry)) _ _ hphase
    · exact hweaker value (hread task phase hold value hfound)
    · cases hnew
      rw [htracks.start] at hfound
      cases hfound
  | performed task choice before o rest world r started htask hphase hp =>
    intro other phase hphase' value hfound
    obtain ⟨rfl,rfl⟩ | ⟨-,hother⟩ | ⟨-,hstarted⟩ := Seen.getElem?_moved hphase'
    · rw [htracks.next] at hfound
      obtain hold | hnew := value_next hp hfound
      · exact hweaker value (hread other before hphase value hold)
      · exact hweaker value (hvalue value hnew)
    · exact hweaker value (hread other phase hother value hfound)
    · obtain ⟨entry,-,rfl⟩ := Option.map_eq_some_iff.mp hstarted
      rw [htracks.start] at hfound
      cases hfound

/-- A watcher together with the attempts. -/
abbrev withAttempts (P : Watcher R) (Makes : L.Call → L.Value → L.Value → Prop) : Watcher R :=
  P.both (attempts R Makes)

/-- It tells the attempts. -/
theorem tracks_withAttempts (P : Watcher R) (Makes : L.Call → L.Value → L.Value → Prop) :
    Tracks (withAttempts P Makes) Makes Prod.snd :=
  ⟨fun _ => rfl,fun _ _ _ _ => rfl,fun h => h.2⟩

/-- A run that is watched can be watched together with the attempts. -/
theorem exists_withAttempts (hP : ∀ entry,P.Follows (fun phase _ => P.ends phase) (P.start entry)
    (R.body entry)) (hbody : ∀ entry,Reads R Makes (R.body entry)) {config : R.system.Config}
    (hconfig : config.tasks=[]) {moves : List R.system.Move} {seen : Seen P}
    (hrun : (Seen.initial P config).run moves=some seen) :
    ∃ seen' : Seen (withAttempts P Makes),(Seen.initial _ config).run moves=some seen' ∧
      seen'.first=seen ∧ Informed Prod.snd seen' ∧ seen'.Conforms := by
  have hmoves : config.run moves=some seen.config := Seen.run_config hrun
  obtain ⟨seen',hseen',-⟩ := @Seen.exists_run _ _ (withAttempts P Makes) (Seen.initial _ config) _ _
    hmoves
  have hfirst := (Seen.first_run hseen').1
  obtain ⟨hinformed,hconforms⟩ := informed_of_run (tracks_withAttempts P Makes)
    (fun entry => (hP entry).both (hbody entry .idle)) hconfig hseen'
  exact ⟨seen',hseen',Option.some.inj (hfirst.symm.trans hrun),hinformed,hconforms⟩

/-- In every run a transaction that takes effect relates the value that it
replaces to the value that it writes. -/
theorem makes_of_exec (hbody : ∀ entry,Reads R Makes (R.body entry)) {config config' : R.system.Config}
    (hconfig : config.tasks=[]) (hrun : config.Reaches config') {choice : Choice}
    {task token retriesLeft : ℕ} {call : L.Call} {value : L.Value}
    {rest : Except L.Exc Bool → Prog L.sig Unit}
    (htask : config'.tasks[task]?=some (.op (.store (.exec token retriesLeft call value)) rest))
    (htook : took choice (.store (.exec token retriesLeft call value)) config'.world=true) :
    ∃ before,config'.world.value=some before ∧ Makes call before value := by
  obtain ⟨moves,hmoves⟩ := hrun
  obtain ⟨blank,hblank,rfl⟩ := @Seen.exists_run _ _ (Watcher.blank R) (Seen.initial _ config) _ _
    hmoves
  obtain ⟨seen,-,rfl,hinformed,hconforms⟩ := exists_withAttempts
    (fun entry => Watcher.follows_blank (R.body entry)) hbody hconfig hblank
  have hlt : task < seen.phases.length := by
    rw [hconforms.phased]
    exact (List.getElem?_eq_some_iff.mp htask).1
  have hphase := List.getElem?_eq_getElem hlt
  obtain ⟨before,hbefore,-,hmakes⟩ := found_of_exec (tracks_withAttempts _ Makes) hinformed
    hconforms hphase htask htook
  exact ⟨before,hbefore,hmakes⟩

end Runs

end KiClash.TransactionReads

import KiClash.StoreCalls

/-!
# The stores are linearizable

Whatever the clients of one key do, and however their commands interleave, the
value under the key is what the calls that have taken effect make of it one
after another, in the order of their writes. A call takes effect at most once;
one that fails has none; and watch_and_update returns what it has written.
-/

namespace KiClash.LinearizableStores

open AsyncTasks AsyncContracts WatchedKey RecordContracts OptimisticTransactions StoreCalls

variable {S : Store} {E : Type}

/-- What a call has done to the key. -/
inductive Effect (S : Store) (E : Type)
  | wrote (call : Call S E)
  | removed

/-- The sequential meaning of an effect. -/
def Effect.apply : Effect S E → Option S.Value → Option S.Value
  | .wrote (.update mutator now),value =>
    value.map fun v => (mutated mutator now v).toOption.getD v
  | .wrote (.save v),_ => some v
  | .wrote (.create v),value => some (value.getD v)
  | .removed,_ => none

/-- What the effects make of a start value, one after another. -/
def sequential (start : Option S.Value) (effects : List (ℕ×Effect S E)) : Option S.Value :=
  effects.foldl (fun value effect => effect.2.apply value) start

/-- The recorded events. -/
abbrev Event (S : Store) (E : Type) := WatchedKey.Event S.Value (Call S E) (Note S E)

/-- The effect of an event, with the task that has had it. -/
def effectOf : Event S E → Option (ℕ×Effect S E)
  | .commit task call _ _ => some (task,.wrote call)
  | .deleted task => some (task,.removed)
  | _ => none

/-- All effects in the order in which they took place. -/
def effects (trace : List (Event S E)) : List (ℕ×Effect S E) := trace.filterMap effectOf

/-- The effect is one that the call can have. -/
def Makes : Entry S E → Effect S E → Prop
  | .watchAndUpdate mutator clock maxRetries,.wrote (.update mutator' now) =>
    mutator'=mutator ∧ ∃ attempt< maxRetries,now=clock attempt
  | .save value,.wrote (.save value') => value'=value
  | .create value,.wrote (.create value') => value'=value
  | .delete,.removed => True
  | _,_ => False

/-- The result of a call fits the effects. A successful watch_and_update has
found the value that the effects before its own lead to, and returns what its
mutator made of it; a failed call has no effect. -/
def Answers (start : Option S.Value) (done : List (ℕ×Effect S E)) (task : ℕ) :
    Returned S E → Prop
  | .updated value => ∃ mutator now before later found,
      done=before++(task,.wrote (.update mutator now))::later ∧
      sequential start before=some found ∧ mutated mutator now found=.ok value
  | .saved => ∃ value,(task,.wrote (.save value))∈done
  | .created true => ∃ value,(task,.wrote (.create value))∈done
  | .created false | .failed _ => ∀ effect,(task,effect)∉done
  | .deleted | .loaded _ => True

/-- What holds at every point of a run. -/
structure Linearizable (start value : Option S.Value) (trace : List (Event S E)) : Prop where
  /-- The key holds what the effects lead to. -/
  stored : value=sequential start (effects trace)
  /-- No call takes effect twice. -/
  once : ((effects trace).map Prod.fst).Nodup
  /-- Every effect belongs to a call that was made. -/
  made : ∀ task effect,(task,effect)∈effects trace →
    ∃ entry,.note (.started task entry)∈trace ∧ Makes entry effect
  /-- Every result fits the effects. -/
  answered : ∀ task result,.note (.returned task result)∈trace →
    Answers start (effects trace) task result

section Effects

variable {start : Option S.Value} {trace : List (Event S E)}

/-- One more event. -/
theorem effects_append (trace : List (Event S E)) (event : Event S E) :
    effects (trace++[event])=effects trace++(effectOf event).toList := by
  rw [effects,effects,List.filterMap_append]
  cases h : effectOf event <;> simp [h]

/-- One more effect. -/
theorem sequential_append (done : List (ℕ×Effect S E)) (effect : ℕ×Effect S E) :
    sequential start (done++[effect])=effect.2.apply (sequential start done) := by
  simp [sequential]

/-- A record that begins with another has its effects first. -/
theorem effects_of_begins {trace trace' : List (Event S E)} (h : trace <+: trace') :
    effects trace <+: effects trace' := h.filterMap effectOf

/-- The effects of other calls do not change whether a result fits. -/
theorem Answers.later {done done' : List (ℕ×Effect S E)} {task : ℕ} {result : Returned S E}
    (h : Answers start done task result) (hbegins : done <+: done')
    (hnone : ∀ effect,(task,effect)∈done' → (task,effect)∈done) :
    Answers start done' task result := by
  cases result with
  | updated value =>
    obtain ⟨mutator,now,before,later,found,rfl,hfound,hvalue⟩ := h
    obtain ⟨more,rfl⟩ := hbegins
    refine ⟨mutator,now,before,later++more,found,?_,hfound,hvalue⟩
    rw [List.append_assoc,List.cons_append]
  | saved =>
    obtain ⟨value,hmem⟩ := h
    exact ⟨value,hbegins.subset hmem⟩
  | created written =>
    cases written with
    | true =>
      obtain ⟨value,hmem⟩ := h
      exact ⟨value,hbegins.subset hmem⟩
    | false => exact fun effect hmem => h effect (hnone effect hmem)
  | failed failure => exact fun effect hmem => h effect (hnone effect hmem)
  | deleted | loaded value => exact h

end Effects

/-- The call has neither taken effect nor returned. -/
structure Silent (task : ℕ) (trace : List (Event S E)) : Prop where
  /-- It has no effect. -/
  effect : ∀ effect,(task,effect)∉effects trace
  /-- It has not returned. -/
  returned : ∀ result,.note (.returned task result)∉trace

/-- The record grows without anything of the task's own. -/
structure Apart (task : ℕ) (trace trace' : List (Event S E)) : Prop where
  /-- It grows. -/
  begins : trace <+: trace'
  /-- The task has no new effect. -/
  effect : ∀ effect,(task,effect)∈effects trace' → (task,effect)∈effects trace
  /-- The task does not return. -/
  returned : ∀ result,.note (.returned task result)∈trace' → .note (.returned task result)∈trace

/-- No exception has been raised into a client. -/
def Undisturbed (trace : List (Event S E)) : Prop :=
  ∀ task failure,.note (.raised task failure)∉trace

/-- The contract of the clients. -/
def storeContract (S : Store) (E : Type) (start : Option S.Value) :
    RecordContract (clients S E) where
  allowed := Undisturbed
  inv count record := Linearizable start record.value record.trace ∧
    ∀ task≥count,Silent task record.trace
  expects task record record' := Apart task record.trace record'.trace
  rest task record := ∃ result,.note (.returned task result)∈record.trace
  waits _ := False
  entry task entry record := Silent task record.trace ∧ .note (.started task entry)∈record.trace

section Changes

variable {start value : Option S.Value} {trace : List (Event S E)} {event : Event S E}

theorem Apart.refl (task : ℕ) (trace : List (Event S E)) : Apart task trace trace :=
  ⟨List.prefix_rfl,fun _ h => h,fun _ h => h⟩

theorem Apart.trans {task : ℕ} {trace trace' trace'' : List (Event S E)}
    (h : Apart task trace trace') (h' : Apart task trace' trace'') : Apart task trace trace'' :=
  ⟨h.begins.trans h'.begins,fun effect he => h.effect effect (h'.effect effect he),
    fun result hr => h.returned result (h'.returned result hr)⟩

/-- An event of another task. -/
theorem apart_append {task : ℕ} (heffect : ∀ effect,effectOf event≠some (task,effect))
    (hreturned : ∀ result,event≠.note (.returned task result)) :
    Apart task trace (trace++[event]) where
  begins := List.prefix_append _ _
  effect effect hmem := by
    rw [effects_append] at hmem
    rcases List.mem_append.mp hmem with hold | hnew
    · exact hold
    · exact absurd (Option.mem_toList.mp hnew) (heffect effect)
  returned result hmem := by
    rcases List.mem_append.mp hmem with hold | hnew
    · exact hold
    · exact absurd (List.mem_singleton.mp hnew).symm (hreturned result)

/-- A silent call stays silent while it is apart. -/
theorem Silent.later {task : ℕ} {trace trace' : List (Event S E)} (h : Silent task trace)
    (ha : Apart task trace trace') : Silent task trace' :=
  ⟨fun effect hmem => h.effect effect (ha.effect effect hmem),
    fun result hmem => h.returned result (ha.returned result hmem)⟩

/-- An event that changes nothing and returns nothing. -/
theorem Linearizable.other (h : Linearizable start value trace) (hother : effectOf event=none)
    (hreturned : ∀ task result,event≠.note (.returned task result)) :
    Linearizable start value (trace++[event]) := by
  have hsame : effects (trace++[event])=effects trace := by
    rw [effects_append,hother]
    exact List.append_nil _
  refine ⟨?_,?_,?_,?_⟩
  · rw [hsame]
    exact h.stored
  · rw [hsame]
    exact h.once
  · intro task effect hmem
    rw [hsame] at hmem
    obtain ⟨entry,hstarted,hmakes⟩ := h.made task effect hmem
    exact ⟨entry,List.mem_append_left _ hstarted,hmakes⟩
  · intro task result hmem
    rw [hsame]
    rcases List.mem_append.mp hmem with hold | hnew
    · exact h.answered task result hold
    · exact absurd (List.mem_singleton.mp hnew).symm (hreturned task result)

/-- A result that fits is returned. -/
theorem Linearizable.returns {task : ℕ} {result : Returned S E}
    (h : Linearizable start value trace) (hfits : Answers start (effects trace) task result) :
    Linearizable start value (trace++[.note (.returned task result)]) := by
  have hsame : effects (trace++[.note (.returned task result)])=effects trace := by
    rw [effects_append]
    exact List.append_nil _
  refine ⟨?_,?_,?_,?_⟩
  · rw [hsame]
    exact h.stored
  · rw [hsame]
    exact h.once
  · intro other effect hmem
    rw [hsame] at hmem
    obtain ⟨entry,hstarted,hmakes⟩ := h.made other effect hmem
    exact ⟨entry,List.mem_append_left _ hstarted,hmakes⟩
  · intro other result' hmem
    rw [hsame]
    rcases List.mem_append.mp hmem with hold | hnew
    · exact h.answered other result' hold
    · cases List.mem_singleton.mp hnew
      exact hfits

/-- A silent call takes effect. -/
theorem Linearizable.effect {task : ℕ} {effect : Effect S E} {entry : Entry S E}
    (h : Linearizable start value trace) (hsilent : Silent task trace)
    (heffect : effectOf event=some (task,effect)) (hstarted : .note (.started task entry)∈trace)
    (hmakes : Makes entry effect) :
    Linearizable start (effect.apply value) (trace++[event]) := by
  have hadd : effects (trace++[event])=effects trace++[(task,effect)] := by
    rw [effects_append,heffect]
    rfl
  refine ⟨?_,?_,?_,?_⟩
  · rw [hadd,sequential_append,h.stored]
  · rw [hadd,List.map_append,List.map_singleton]
    refine List.nodup_append.mpr ⟨h.once,by simp,?_⟩
    intro other hmem other' hmem' he
    obtain ⟨⟨other,effect'⟩,hin,rfl⟩ := List.mem_map.mp hmem
    have htask : other=task := he.trans (List.mem_singleton.mp hmem')
    rw [htask] at hin
    exact hsilent.effect effect' hin
  · intro other effect' hmem
    rw [hadd] at hmem
    rcases List.mem_append.mp hmem with hold | hnew
    · obtain ⟨entry',hstarted',hmakes'⟩ := h.made other effect' hold
      exact ⟨entry',List.mem_append_left _ hstarted',hmakes'⟩
    · cases List.mem_singleton.mp hnew
      exact ⟨entry,List.mem_append_left _ hstarted,hmakes⟩
  · intro other result hmem
    have hold : .note (.returned other result)∈trace := by
      rcases List.mem_append.mp hmem with hold | hnew
      · exact hold
      · rw [← List.mem_singleton.mp hnew] at heffect
        cases heffect
    have hne : other≠task := by
      rintro rfl
      exact hsilent.returned result hold
    refine (h.answered other result hold).later (effects_of_begins (List.prefix_append _ _)) ?_
    intro effect' hin
    rw [hadd] at hin
    rcases List.mem_append.mp hin with hin | hin
    · exact hin
    · cases List.mem_singleton.mp hin
      exact absurd rfl hne

end Changes

section Clients

variable {start : Option S.Value} {task : ℕ} {entry : Entry S E}

/-- The call may still take effect. -/
def Ready (task : ℕ) (entry : Entry S E) (record : Record (clients S E)) : Prop :=
  Silent task record.trace ∧ .note (.started task entry)∈record.trace

/-- The call may return the result. -/
def Due (start : Option S.Value) (task : ℕ) (result : Returned S E)
    (record : Record (clients S E)) : Prop :=
  Answers start (effects record.trace) task result ∧
    ∀ result',.note (.returned task result')∉record.trace

theorem ready_stable (task : ℕ) (entry : Entry S E) :
    (storeContract S E start).Stable task (Ready task entry) :=
  fun _ _ ha h => ⟨h.1.later ha,ha.begins.subset h.2⟩

theorem due_stable (task : ℕ) (result : Returned S E) :
    (storeContract S E start).Stable task (Due start task result) :=
  fun _ _ ha h => ⟨h.1.later (effects_of_begins ha.begins) ha.effect,
    fun result' hmem => h.2 result' (ha.returned result' hmem)⟩

/-- A call that has not taken effect may fail. -/
theorem Ready.fails {record : Record (clients S E)} (h : Ready task entry record)
    (failure : Failure E) : Due start task (.failed failure) record :=
  ⟨h.1.effect,h.1.returned⟩

/-- Nothing interrupts a client. -/
theorem raises_nothing (task : ℕ) (A : Record (clients S E) → Prop)
    (D : Failure E → Record (clients S E) → Prop) :
    (storeContract S E start).Raises task A D := by
  intro failure count record ht hinv hA ha
  exact absurd (List.mem_append_right _ (List.mem_singleton_self _)) (ha task failure)

/-- An event that is no effect and no result. -/
theorem log_other (event : Event S E) {A : Record (clients S E) → Prop}
    (hother : effectOf event=none) (hreturned : ∀ other result,event≠.note (.returned other result))
    (hA : (storeContract S E start).Stable task A) :
    (storeContract S E start).Moves task A (fun record => record.log event) A := by
  intro count record ht hinv hA' ha
  have happart : ∀ other,Apart other record.trace (record.trace++[event]) := fun other =>
    apart_append (fun effect he => by rw [hother] at he; cases he) (hreturned other)
  exact ⟨⟨hinv.1.other hother hreturned,fun other ho => (hinv.2 other ho).later (happart other)⟩,
    fun other _ => happart other,hA (happart task) hA'⟩

/-- An event by which the call takes effect. -/
theorem takes_effect (event : Event S E) (effect : Effect S E) {count : ℕ}
    {record : Record (clients S E)} (ht : task<count) (hinv : (storeContract S E start).inv count record)
    (hready : Ready task entry record) (heffect : effectOf event=some (task,effect))
    (hmakes : Makes entry effect) :
    (storeContract S E start).inv count
        ⟨effect.apply record.value,record.trace++[event]⟩ ∧
      (∀ other,other≠task → Apart other record.trace (record.trace++[event])) ∧
      effects (record.trace++[event])=effects record.trace++[(task,effect)] ∧
      ∀ result,.note (.returned task result)∉record.trace++[event] := by
  have hnote : ∀ other result,event≠.note (.returned other result) := by
    intro other result he
    rw [he] at heffect
    cases heffect
  have happart : ∀ other,other≠task → Apart other record.trace (record.trace++[event]) := by
    intro other hne
    refine apart_append (fun effect' he => hne ?_) (hnote other)
    rw [heffect] at he
    cases he
    rfl
  refine ⟨⟨hinv.1.effect hready.1 heffect hready.2 hmakes,fun other ho => ?_⟩,happart,?_,?_⟩
  · exact (hinv.2 other ho).later (happart other (by omega))
  · rw [effects_append,heffect]
    rfl
  · intro result hmem
    rcases List.mem_append.mp hmem with hold | hnew
    · exact hready.1.returned result hold
    · exact hnote task result (List.mem_singleton.mp hnew).symm

/-- The contract meets the laws of contracts about the key and the record. -/
theorem laws : (storeContract S E start).Laws where
  expects_refl task record := Apart.refl task record.trace
  expects_trans _ _ _ _ := Apart.trans
  allowed_prefix hp h task failure hmem := h task failure (hp.subset hmem)
  arrive := by
    intro count entry record hinv _ _
    have happart : ∀ task,Apart task record.trace (record.log (.note (.started count entry))).trace :=
      fun task => apart_append (fun _ h => nomatch h) fun _ h => nomatch h
    refine ⟨⟨hinv.1.other rfl (fun _ _ h => nomatch h),fun task ht => ?_⟩,happart,?_,?_⟩
    · exact (hinv.2 task (Nat.le_of_succ_le ht)).later (happart task)
    · exact (hinv.2 count (Nat.le_refl _)).later (happart count)
    · exact List.mem_append_right _ (List.mem_singleton_self _)

/-- One attempt of watch_and_update is an optimistic transaction. -/
theorem watchAndUpdate_succ (mutator : Mutator S.Value E) (clock : ℕ → S.Time) (attempts : ℕ) :
    watchAndUpdate mutator clock (attempts+1)=
      attempt (L := language S E) (.update mutator (clock attempts)) attempts
        (fun value => (mutated mutator (clock attempts) value).map fun value => ((),value))
        (do redis .unwatch; .raise .notFound)
        (fun
          | .watchError => watchAndUpdate mutator clock attempts
          | .other e => .raise (.raised e))
        (fun x => pure x.2) (fun _ => watchAndUpdate mutator clock attempts) := by
  change _=bind _ _
  rw [watchAndUpdate]
  congr 1
  funext token
  change bind _ _=bind _ _
  congr 1
  funext raw
  cases raw with
  | none => rfl
  | some value =>
    dsimp only
    cases mutated mutator (clock attempts) value with
    | error e => cases e <;> rfl
    | ok value' => rfl

/-- Such an attempt leaves the call ready, or due to return what it has written. -/
theorem update_attempt (mutator : Mutator S.Value E) (clock : ℕ → S.Time) {attempts maxRetries : ℕ}
    (hlt : attempts< maxRetries) :
    Attempt (storeContract S E start) task (.update mutator (clock attempts)) attempts
      (fun value => (mutated mutator (clock attempts) value).map fun value => ((),value))
      (fun _ => True) (Ready task (.watchAndUpdate mutator clock maxRetries))
      (Ready task (.watchAndUpdate mutator clock maxRetries))
      (Ready task (.watchAndUpdate mutator clock maxRetries))
      (fun x => Due start task (.updated x.2)) (fun failure => Due start task (.failed failure)) where
  stable := ⟨ready_stable task _,ready_stable task _,ready_stable task _,
    fun _ => due_stable task _,fun _ => due_stable task _⟩
  raises := ⟨raises_nothing task _ _,raises_nothing task _ _,raises_nothing task _ _,
    fun _ => raises_nothing task _ _⟩
  missing _ h _ := h
  refused _ h _ _ := h
  told _ _ _ _ := True.intro
  commit value told value' hm := by
    intro count record ht hinv hA ha
    obtain ⟨hready,hv⟩ := hA
    have hmutated : mutated mutator (clock attempts) value=.ok value' := by
      cases h : mutated mutator (clock attempts) value with
      | error e =>
        rw [h] at hm
        cases hm
      | ok v =>
        rw [h] at hm
        cases hm
        rfl
    have happly : (Effect.wrote (.update mutator (clock attempts))).apply record.value=
        some value' := by
      rw [hv]
      simp only [Effect.apply,hmutated,Option.map_some,Except.toOption,Option.getD_some]
    obtain ⟨hi,ho,heffects,hr⟩ := takes_effect (.commit task _ value value')
      (.wrote (.update mutator (clock attempts))) ht hinv hready rfl ⟨rfl,attempts,hlt,rfl⟩
    rw [happly] at hi
    simp only [record.commit_of_value hv]
    refine ⟨hi,ho,⟨mutator,clock attempts,effects record.trace,[],value,heffects,?_,hmutated⟩,hr⟩
    rw [← hinv.1.stored,hv]
  conflict := log_other _ rfl (fun _ _ h => nomatch h) (ready_stable task _)

/-- watch_and_update fails without an effect or returns what it has written. -/
theorem watchAndUpdate_spec (mutator : Mutator S.Value E) (clock : ℕ → S.Time) {maxRetries : ℕ}
    {attempts : ℕ} (hle : attempts≤ maxRetries) :
    Triple (storeContract S E start).contract task
      (RecordContract.On (Ready task (.watchAndUpdate mutator clock maxRetries)))
      (watchAndUpdate mutator clock attempts)
      (fun value => RecordContract.On (Due start task (.updated value)))
      (fun failure => RecordContract.On (Due start task (.failed failure))) := by
  induction attempts with
  | zero => exact Triple.raise (due_stable task _).on fun _ h => h.fails _
  | succ attempts ih =>
    have hih := ih (Nat.le_of_succ_le hle)
    rw [watchAndUpdate_succ]
    apply (update_attempt mutator clock hle).triple laws
    · apply Triple.bind laws.tracks.toLawful (fun _ => (due_stable task _).on)
        (laws.unwatch (ready_stable task _) (fun _ => due_stable task _) (raises_nothing task _ _))
      intro _
      exact Triple.raise (due_stable task _).on fun _ h => h.fails _
    · intro e
      cases e with
      | watchError => exact hih
      | other e => exact Triple.raise (due_stable task _).on fun _ h => h.fails _
    · exact fun x _ => Triple.pure (due_stable task _).on fun _ h => h
    · exact fun _ _ => hih

/-- SET takes effect, unless it finds the key that it was only to create. -/
theorem set_spec (result : Bool → Returned S E) {onlyIfAbsent : Bool} {call : Call S E}
    {value : S.Value} (hmakes : Makes entry (.wrote call))
    (happly : ∀ found,(onlyIfAbsent=true → found=none) →
      (Effect.wrote call).apply found=some value)
    (hwritten : ∀ done : List (ℕ×Effect S E),(task,.wrote call)∈done →
      Answers start done task (result true))
    (hfound : onlyIfAbsent=true → ∀ done : List (ℕ×Effect S E),(∀ effect,(task,effect)∉done) →
      Answers start done task (result false)) :
    Triple (storeContract S E start).contract task (RecordContract.On (Ready task entry))
      (redis (.set onlyIfAbsent call value))
      (fun written => RecordContract.On (Due start task (result written)))
      (fun failure => RecordContract.On (Due start task (.failed failure))) := by
  apply laws.set (ready_stable task _) (fun _ => due_stable task _) (fun _ => due_stable task _)
  · intro count record ht hinv hA ha
    obtain ⟨hready,habsent⟩ := hA
    obtain ⟨hi,ho,heffects,hr⟩ := takes_effect (.commit task call (record.value.getD value) value)
      (.wrote call) ht hinv hready rfl hmakes
    rw [happly record.value habsent] at hi
    refine ⟨hi,ho,hwritten _ ?_,hr⟩
    change _∈effects (record.trace++[_])
    rw [heffects]
    exact List.mem_append_right _ (List.mem_singleton_self _)
  · exact fun ho record h => ⟨hfound ho _ h.1.effect,h.1.returned⟩
  · exact raises_nothing task _ _
  · exact fun _ => raises_nothing task _ _

/-- DELETE. -/
theorem delete_spec : Triple (storeContract S E start).contract task
    (RecordContract.On (Ready task .delete)) delete
    (fun _ => RecordContract.On (Due start task .deleted))
    (fun failure => RecordContract.On (Due start task (.failed failure))) := by
  apply laws.delete (ready_stable task _) (due_stable task _) (fun _ => due_stable task _)
  · intro count record ht hinv hready ha
    cases hv : record.value with
    | none =>
      simp only [Record.delete,hv]
      exact ⟨hinv,fun other _ => Apart.refl other _,True.intro,hready.1.returned⟩
    | some value =>
      obtain ⟨hi,ho,-,hr⟩ := takes_effect (.deleted task) .removed ht hinv hready rfl True.intro
      simp only [Record.delete,hv]
      exact ⟨hi,ho,True.intro,hr⟩
  · exact raises_nothing task _ _
  · exact raises_nothing task _ _

/-- GET outside of a transaction. -/
theorem load_spec : Triple (storeContract S E start).contract task
    (RecordContract.On (Ready task .load)) load
    (fun value => RecordContract.On (Due start task (.loaded value)))
    (fun failure => RecordContract.On (Due start task (.failed failure))) := by
  apply laws.load (ready_stable task _) (fun _ => due_stable task _) (fun _ => due_stable task _)
  · intro value count record ht hinv hA ha
    obtain ⟨hi,ho,hready⟩ := log_other (.loaded task value) rfl (fun _ _ h => nomatch h)
      (ready_stable task .load) ht hinv hA.1 ha
    exact ⟨hi,ho,True.intro,hready.1.returned⟩
  · exact raises_nothing task _ _
  · exact fun _ => raises_nothing task _ _

/-- Reporting a result that is due. -/
theorem report_spec (result : Returned S E) : Triple (storeContract S E start).contract task
    (RecordContract.On (Due start task result))
    (Prog.perform (S := (language S E).sig) (.act result))
    (fun _ => RecordContract.On ((storeContract S E start).rest task))
    (fun _ => RecordContract.On ((storeContract S E start).rest task)) := by
  have hrest : (storeContract S E start).Stable task ((storeContract S E start).rest task) := by
    rintro record record' ha ⟨result',hmem⟩
    exact ⟨result',ha.begins.subset hmem⟩
  apply laws.actFree (due_stable task _) (fun _ => hrest) (fun _ => hrest)
  · exact fun h => nomatch h
  · intro pick count record memory memory' notes result' started he ht hinv hA ha
    cases he
    have happart : ∀ other,other≠task →
        Apart other record.trace (record.trace++[.note (.returned task result)]) := by
      intro other hne
      refine apart_append (fun _ h => nomatch h) fun result' h => hne ?_
      cases h
      rfl
    refine ⟨⟨hinv.1.returns hA.1,fun other ho => ?_⟩,happart,(fun _ h => nomatch h),result,?_⟩
    · have hge : other≥count := ho
      exact (hinv.2 other hge).later (happart other (by omega))
    · exact List.mem_append_right _ (List.mem_singleton_self _)
  · exact fun _ => rfl

/-- A client that reports its call ends with a result that fits. -/
theorem reporting_spec {α : Type} {call : Coroutine S E α} {result : α → Returned S E}
    (h : Triple (storeContract S E start).contract task (RecordContract.On (Ready task entry)) call
      (fun a => RecordContract.On (Due start task (result a)))
      (fun failure => RecordContract.On (Due start task (.failed failure)))) :
    Triple (storeContract S E start).contract task (RecordContract.On (Ready task entry))
      (reporting call result)
      (fun _ => RecordContract.On ((storeContract S E start).rest task))
      (fun _ => RecordContract.On ((storeContract S E start).rest task)) := by
  intro world hready
  apply Safe.andThen laws.tracks.toLawful
  apply (h hready).mono
  intro r world hdue
  cases r with
  | ok a => exact report_spec _ hdue
  | error e => exact report_spec _ hdue

/-- Every client keeps the contract. -/
theorem verified (S : Store) (E : Type) (start : Option S.Value) :
    (storeContract S E start).contract.Verified := by
  apply laws.tracks.verified
  intro task count entry world _ _ hentry
  have hbody : Triple (storeContract S E start).contract task
      (RecordContract.On (Ready task entry)) (body entry)
      (fun _ => RecordContract.On ((storeContract S E start).rest task))
      (fun _ => RecordContract.On ((storeContract S E start).rest task)) := by
    cases entry with
    | watchAndUpdate mutator clock maxRetries =>
      exact reporting_spec (watchAndUpdate_spec mutator clock (Nat.le_refl maxRetries))
    | save value =>
      have hmakes : Makes (.save value) (.wrote (.save value) : Effect S E) := rfl
      apply reporting_spec
      apply Triple.bind laws.tracks.toLawful (fun _ => (due_stable task _).on)
        (set_spec (fun _ => .saved) hmakes (fun _ _ => rfl) (fun _ h => ⟨value,h⟩)
          (by intro ho; cases ho))
      exact fun _ => Triple.pure (due_stable task _).on fun _ h => h
    | create value =>
      have hmakes : Makes (.create value) (.wrote (.create value) : Effect S E) := rfl
      apply reporting_spec
      refine set_spec .created hmakes ?_ (fun _ h => ⟨value,h⟩) (fun _ _ h => h)
      intro found habsent
      rw [habsent rfl]
      rfl
    | delete => exact reporting_spec delete_spec
    | load => exact reporting_spec load_spec
  apply (hbody hentry).mono
  intro r world hrest
  cases r with
  | ok _ => exact hrest
  | error _ => exact hrest

/-- An event that is no such exception. -/
theorem Undisturbed.append {trace : List (Event S E)} {event : Event S E} (h : Undisturbed trace)
    (hevent : ∀ task failure,event≠.note (.raised task failure)) : Undisturbed (trace++[event]) := by
  intro task failure hmem
  rcases List.mem_append.mp hmem with hold | hnew
  · exact h task failure hold
  · exact hevent task failure (List.mem_singleton.mp hnew).symm

end Clients

end KiClash.LinearizableStores

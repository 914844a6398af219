import KiClash.TaskPhases
import Mathlib.Data.Int.Notation

/-!
# Counting transactions

A library about the record of one watched key whose value counts transactions of a
kind. Every one of them adds one to the count that the value tells, and the others
leave it; a value that is final accepts no more of them. So the value tells how many
there have been, and once it is final that number stays.
-/

namespace KiClash.CountedWrites

open AsyncTasks WatchedKey Histories RecordedTasks TaskPhases

variable {L : Language} {R : Runtime L} {β : Type}

/-- A transaction continues from the value under the key, and writes what the relation
makes of it. -/
def Continues (Makes : L.Call → L.Value → L.Value → Prop) (start : Option L.Value)
    (earlier : Trace R) : Event L.Value L.Call R.Note → Prop
  | .commit _ call before after => valueAfter start earlier=some before ∧ Makes call before after
  | _ => True

/-- The event is a transaction of the kind. -/
def counts (counted : L.Call → Bool) : Event L.Value L.Call R.Note → Bool
  | .commit _ call _ _ => counted call
  | _ => false

/-- The number of such transactions in a record. -/
def tally (counted : L.Call → Bool) (trace : Trace R) : ℕ := trace.countP (counts counted)

/-- One more event. -/
theorem tally_append (counted : L.Call → Bool) (trace : Trace R)
    (event : Event L.Value L.Call R.Note) :
    tally counted (trace++[event])=tally counted trace+(counts counted event).toNat := by
  rw [tally,List.countP_append,List.countP_singleton]
  cases counts counted event <;> rfl

/-- How values count the transactions of a kind. -/
structure Counter (Makes : L.Call → L.Value → L.Value → Prop) (β : Type) where
  /-- The transactions that are counted. -/
  counted : L.Call → Bool
  /-- The part of a value that only they change. -/
  part : L.Value → β
  /-- The count that it tells. -/
  total : β → ℤ
  /-- Values that accept no more of them. -/
  final : L.Value → Prop
  /-- A counted transaction. -/
  adds : ∀ {call value value'},Makes call value value' → counted call=true →
    total (part value')=total (part value)+1 ∧ ¬final value
  /-- The others. -/
  leaves : ∀ {call value value'},Makes call value value' → counted call=false →
    part value'=part value ∧ (final value → final value')

namespace Counter

variable {Makes : L.Call → L.Value → L.Value → Prop} (C : Counter Makes β)

/-- The value under the key is final, or there is none. -/
def Settled (value : Option L.Value) : Prop := ∀ v,value=some v → C.final v

variable {start : Option L.Value} {trace : Trace R}

/-- The value under the key tells the number of counted transactions. -/
theorem tally_eq (h : Meets (Continues Makes start) trace) {first value : L.Value}
    (hstart : start=some first) (hvalue : valueAfter start trace=some value) :
    C.total (C.part value)=C.total (C.part first)+tally C.counted trace := by
  induction trace using List.reverseRecOn generalizing value with
  | nil =>
    have hsame : some first=some value := hstart.symm.trans hvalue
    rw [Option.some.inj hsame]
    simp [tally]
  | append_singleton trace event ih =>
    obtain ⟨hbefore,hevent⟩ := meets_append.mp h
    rw [valueAfter_append] at hvalue
    rw [tally_append]
    cases event with
    | commit task call before after =>
      have hafter : after=value := Option.some.inj hvalue
      subst hafter
      obtain ⟨hfound,hmakes⟩ := hevent
      have htotal := ih hbefore hfound
      cases hcall : C.counted call with
      | true =>
        have hadds := (C.adds hmakes hcall).1
        have hcounts : counts C.counted (.commit task call before after : Event L.Value L.Call R.Note)=
            true := hcall
        rw [hcounts,Bool.toNat_true]
        push_cast
        omega
      | false =>
        have hleaves := (C.leaves hmakes hcall).1
        have hcounts : counts C.counted (.commit task call before after : Event L.Value L.Call R.Note)=
            false := hcall
        rw [hcounts,hleaves]
        simpa using htotal
    | deleted task => cases hvalue
    | conflict | loaded | note =>
      have htotal := ih hbefore hvalue
      simpa [counts] using htotal

/-- Once the value is final the number stays, and so does what the value tells. -/
theorem settled {later : Trace R} (h : Meets (Continues Makes start) (trace++later))
    (hsettled : C.Settled (valueAfter start trace)) :
    tally C.counted (trace++later)=tally C.counted trace ∧ C.Settled (valueAfter start (trace++later)) ∧
      ∀ value',valueAfter start (trace++later)=some value' →
        ∃ value,valueAfter start trace=some value ∧ C.part value'=C.part value := by
  induction later using List.reverseRecOn with
  | nil =>
    rw [List.append_nil]
    exact ⟨rfl,hsettled,fun value' hvalue' => ⟨value',hvalue',rfl⟩⟩
  | append_singleton later event ih =>
    rw [← List.append_assoc] at h ⊢
    obtain ⟨hbefore,hevent⟩ := meets_append.mp h
    obtain ⟨htally,hfinal,hpart⟩ := ih hbefore
    rw [tally_append,valueAfter_append]
    cases event with
    | commit task call before after =>
      obtain ⟨hfound,hmakes⟩ := hevent
      have hover := hfinal before hfound
      have hcall : C.counted call=false := by
        by_contra hcall
        exact (C.adds hmakes (Bool.not_eq_false _ ▸ hcall)).2 hover
      obtain ⟨hsame,hkeeps⟩ := C.leaves hmakes hcall
      have hcounts : counts C.counted (.commit task call before after : Event L.Value L.Call R.Note)=
          false := hcall
      obtain ⟨value,hvalue,hvalue'⟩ := hpart before hfound
      refine ⟨by rw [hcounts,htally]; simp,?_,?_⟩
      · intro v hv
        cases hv
        exact hkeeps hover
      · intro v hv
        cases hv
        exact ⟨value,hvalue,hsame.trans hvalue'⟩
    | deleted task =>
      refine ⟨by simpa [counts] using htally,?_,?_⟩
      · intro v hv
        cases hv
      · intro v hv
        cases hv
    | conflict | loaded | note => exact ⟨by simpa [counts] using htally,hfinal,hpart⟩

end Counter

section Commands

variable {choice : Choice} {task fresh : ℕ} {world world' : World R} {started : Option R.Entry}

/-- A transaction that says so has written. -/
theorem value_of_exec {token retriesLeft : ℕ} {call : L.Call} {value : L.Value}
    (hp : WatchedKey.perform (R := R) choice task fresh
      (.store (.exec token retriesLeft call value)) world=some (world',.ok true,started)) :
    world'.value=some value := by
  obtain ⟨pick,-,he⟩ | ⟨exc,-,he,-⟩ := perform_cases hp
  · simp only [Op.effect,StoreOp.effect] at he
    split at he
    · cases he
      rfl
    · cases he
  · cases he

/-- A load returns the value and leaves it. -/
theorem value_of_load {value : Option L.Value} (hp : WatchedKey.perform (R := R) choice task fresh
    (.store .load) world=some (world',.ok value,started)) :
    world.value=value ∧ world'.value=value := by
  obtain ⟨pick,-,he⟩ | ⟨exc,-,he,-⟩ := perform_cases hp
  · cases he
    exact ⟨rfl,rfl⟩
  · cases he

/-- The operation writes in a transaction of the kind. -/
def executes (counted : L.Call → Bool) : Op L → Bool
  | .store (.exec _ _ call _) => counted call
  | .store (.set _ call _) => counted call
  | _ => false

/-- Notes are not counted. -/
theorem tally_notes (counted : L.Call → Bool) (notes : List R.Note) :
    tally counted (notes.map Event.note : Trace R)=0 := by
  induction notes with
  | nil => rfl
  | cons note notes ih =>
    rw [tally] at ih ⊢
    rw [List.map_cons,List.countP_cons,ih]
    rfl

/-- An operation that nothing interrupts is counted if it writes. -/
theorem tally_effect (counted : L.Call → Bool) (pick : Bool) (task fresh : ℕ) (world : World R)
    (o : Op L) : tally counted (o.effect pick task fresh world).1.trace=
      tally counted world.trace+(executes counted o && took (.proceed pick) o world).toNat := by
  have happend : ∀ trace : Trace R,tally counted (world.trace++trace)=
      tally counted world.trace+tally counted trace := fun trace => List.countP_append
  rw [effect_trace,happend]
  congr 1
  cases o with
  | act o => exact tally_notes counted _
  | store o =>
    cases o with
    | watch | unwatch | get | load => rfl
    | delete =>
      simp only [effectEvents]
      cases world.value <;> rfl
    | exec token retriesLeft call value =>
      simp only [effectEvents,executes,took]
      by_cases hv : world.version=token
      · rw [if_pos hv,decide_eq_true hv,Bool.and_true]
        cases hcall : counted call <;> simp [tally,counts,hcall]
      · rw [if_neg hv,decide_eq_false hv,Bool.and_false]
        rfl
    | set onlyIfAbsent call value =>
      simp only [effectEvents,executes,took]
      cases hfound : onlyIfAbsent && world.value.isSome with
      | true =>
        rw [if_pos rfl,Bool.not_true,Bool.and_false]
        rfl
      | false =>
        rw [if_neg Bool.false_ne_true,Bool.not_false,Bool.and_true]
        cases hcall : counted call <;> simp [tally,counts,hcall]

/-- However an operation turns out, it is counted if it takes effect and writes. -/
theorem tally_perform (counted : L.Call → Bool) {o : Op L} {r : Except L.Exc o.Res}
    (hp : WatchedKey.perform choice task fresh o world=some (world',r,started)) :
    tally counted world'.trace=
      tally counted world.trace+(executes counted o && took choice o world).toNat := by
  have hdeliver : ∀ (world : World R) exc,tally counted (world.deliver task exc).trace=
      tally counted world.trace := by
    intro world exc
    change tally counted (world.trace++[.note (R.raised task exc)])=_
    rw [tally_append]
    rfl
  cases choice with
  | raiseBefore =>
    obtain ⟨exc,-,he⟩ := Option.map_eq_some_iff.mp hp
    cases he
    rw [hdeliver]
    simp [took]
  | proceed pick =>
    simp only [WatchedKey.perform] at hp
    split at hp
    · cases hp
    · have heffect := tally_effect counted pick task fresh world o
      rw [Option.some.inj hp] at heffect
      exact heffect
  | raiseAfter pick =>
    simp only [WatchedKey.perform] at hp
    split at hp
    · cases hp
      have hsame : took (.raiseAfter pick) o world=took (.proceed pick) o world := by
        unfold took
        split <;> simp_all
      rw [hdeliver,hsame]
      exact tally_effect counted pick task fresh world o
    · cases hp

end Commands

end KiClash.CountedWrites

import KiClash.TaskPhases

/-!
# Timers that act against who is absent

A library about timers that ask once whether their party is there and act against it
if the answer is no. What they do comes after a full absence of the party as long as
the answers know better: a party that has had a socket since its timer was started is
there for whoever is asked, and it does not come back while a timer goes on after its
question.
-/

namespace KiClash.Absences

open AsyncTasks WatchedKey TaskPhases Histories

variable {L : Language} {R : Runtime L} {Party : Type}

/-- How the timers and the sockets of a runtime are read off the phases of its tasks. -/
structure Reading (P : Watcher R) (Party : Type) where
  /-- The party for which a timer asks. -/
  asks : Performed P → Option Party
  /-- The answer that it gets. -/
  isThere : World R → Performed P → Party → Bool
  /-- The party against which a timer goes on in a phase. -/
  pursues : P.Phase → Option Party
  /-- The party against which it acts. -/
  strikes : Performed P → Option Party
  /-- The task handles a live socket of the party. -/
  isLive : Party → ℕ → Seen P → Bool

namespace Reading

variable {P : Watcher R} (reading : Reading P Party)

/-- The party against which a timer goes on after its question, until its task is over. -/
def pursued (timer : ℕ) (seen : Seen P) : Option Party :=
  (seen.phases[timer]?.filter fun _ => seen.runs timer).bind reading.pursues

/-- A timer acts against a party that has had no live socket since the timer was
started. -/
def AfterAbsence (history : List (Seen.Moment P)) (moment : Seen.Moment P) : Prop :=
  ∀ performed∈moment.1.performed moment.2,∀ party∈reading.strikes performed,
    ∀ past∈history++[moment],performed.task<past.1.phases.length →
      ∀ socket< past.1.phases.length,reading.isLive party socket past.1=false

/-- When a timer asks, its party is there if it has had a live socket since the timer was
started; and while a timer goes on after its question, its party has no live socket. -/
def WellInformed (history : List (Seen.Moment P)) (moment : Seen.Moment P) : Prop :=
  (∀ performed∈moment.1.performed moment.2,∀ party∈reading.asks performed,
    ∀ past∈history++[moment],performed.task<past.1.phases.length →
      ∀ socket< past.1.phases.length,reading.isLive party socket past.1=true →
        reading.isThere moment.1.config.world performed party=true) ∧
  ∀ timer< moment.1.phases.length,∀ party∈reading.pursued timer moment.1,
    ∀ socket< moment.1.phases.length,reading.isLive party socket moment.1=false

instance (history : List (Seen.Moment P)) (moment : Seen.Moment P) :
    Decidable (reading.AfterAbsence history moment) := by
  unfold AfterAbsence
  infer_instance

instance (history : List (Seen.Moment P)) (moment : Seen.Moment P) :
    Decidable (reading.WellInformed history moment) := by
  unfold WellInformed
  infer_instance

variable {reading} {history : List (Seen.Moment P)} {seen seen' : Seen P} {move : R.system.Move}

/-- A timer goes on against a party. -/
theorem pursued_eq_some {timer : ℕ} {party : Party} : reading.pursued timer seen=some party ↔
    seen.runs timer=true ∧ ∃ phase,seen.phases[timer]?=some phase ∧
      reading.pursues phase=some party := by
  unfold pursued
  constructor
  · intro h
    obtain ⟨phase,hphase,hparty⟩ := Option.bind_eq_some_iff.mp h
    obtain ⟨hphase,hruns⟩ := Option.filter_eq_some_iff.mp hphase
    exact ⟨hruns,phase,hphase,hparty⟩
  · rintro ⟨hruns,phase,hphase,hparty⟩
    rw [hphase,Option.filter_some,if_pos hruns]
    exact hparty

/-- What timers have to do with their phases. -/
structure Lawful (reading : Reading P Party) : Prop where
  /-- A task that starts goes on against nobody. -/
  start : ∀ entry,reading.pursues (P.start entry)=none
  /-- A timer that goes on after an operation has gone on before it, or it has asked, and
  the answer has been no. -/
  next : ∀ {task fresh choice phase} {o : Op L} {world world' r started party},
    P.allows phase o →
    WatchedKey.perform (R := R) choice task fresh o world=some (world',r,started) →
    reading.pursues (P.next phase o (took choice o world) r)=some party →
    reading.pursues phase=some party ∨
      reading.asks ⟨task,phase,o,took choice o world,r⟩=some party ∧
        reading.isThere world ⟨task,phase,o,took choice o world,r⟩ party=false
  /-- A timer acts only against whom it goes on. -/
  strikes : ∀ {performed party},reading.strikes performed=some party →
    reading.pursues performed.phase=some party

/-- Against whom a timer goes on has had no live socket since the timer was started. -/
def Absent (reading : Reading P Party) (history : List (Seen.Moment P)) (seen : Seen P) : Prop :=
  ∀ timer,∀ party∈reading.pursued timer seen,∀ past∈history,timer<past.1.phases.length →
    ∀ socket< past.1.phases.length,reading.isLive party socket past.1=false

/-- Against whom it went on before a move has had none up to it. -/
theorem Absent.before {timer : ℕ} {party : Party} (h : reading.Absent history seen)
    (hinformed : reading.WellInformed history (seen,move))
    (hpursued : reading.pursued timer seen=some party) :
    ∀ past∈history++[(seen,move)],timer<past.1.phases.length →
      ∀ socket< past.1.phases.length,reading.isLive party socket past.1=false := by
  intro past hpast hstarted socket hsocket
  obtain hpast | hpast := List.mem_append.mp hpast
  · exact h timer party hpursued past hpast hstarted socket hsocket
  · obtain rfl := List.mem_singleton.mp hpast
    exact hinformed.2 timer hstarted party hpursued socket hsocket

/-- The moves keep it. -/
theorem Absent.step (laws : reading.Lawful) (hconforms : seen.Conforms)
    (h : reading.Absent history seen) (hinformed : reading.WellInformed history (seen,move))
    (hs : Seen.Moved seen move seen') : reading.Absent (history++[(seen,move)]) seen' := by
  intro timer party hpursued
  obtain ⟨hruns,phase',hphase',hparty⟩ := pursued_eq_some.mp hpursued
  -- a timer that others let go on has gone on before
  have hother : seen.phases[timer]?=some phase' → reading.pursued timer seen=some party := by
    intro hphase
    have hlt := (List.getElem?_eq_some_iff.mp hphase).1
    exact pursued_eq_some.mpr ⟨hs.runs hconforms.phased hlt hruns,phase',hphase,hparty⟩
  have hnobody : ∀ entry,phase'≠P.start entry := by
    rintro entry rfl
    cases (laws.start entry).symm.trans hparty
  cases hs with
  | opened entry harrives =>
    obtain hold | ⟨-,hnew⟩ := @Seen.getElem?_extended _ _ (some (P.start entry)) _ _ hphase'
    · exact h.before hinformed (hother hold)
    · exact absurd (Option.some.inj hnew).symm (hnobody entry)
  | performed task choice phase o rest world r started htask hphase hp =>
    obtain ⟨rfl,rfl⟩ | ⟨-,hold⟩ | ⟨-,hstarted⟩ := Seen.getElem?_moved hphase'
    · obtain hbefore | ⟨hasks,hnot⟩ := laws.next (hconforms.allows hphase htask) hp hparty
      · have hruns₀ : seen.runs timer=true := by rw [Seen.runs,htask]
        exact h.before hinformed (pursued_eq_some.mpr ⟨hruns₀,phase,hphase,hbefore⟩)
      · -- the answer to its question has been no
        intro past hpast hstarted socket hsocket
        apply Bool.eq_false_iff.mpr
        intro hlive
        have hthere := hinformed.1 _ (Seen.performed_eq htask hphase hp) party hasks past hpast
          hstarted socket hsocket hlive
        cases hnot.symm.trans hthere
    · exact h.before hinformed (hother hold)
    · obtain ⟨entry,-,hnew⟩ := Option.map_eq_some_iff.mp hstarted
      exact absurd hnew.symm (hnobody entry)

/-- In every run whose timers are well informed, they act after a full absence. -/
theorem Lawful.afterAbsence (laws : reading.Lawful)
    (hbody : ∀ entry,P.Follows (fun phase _ => P.ends phase) (P.start entry) (R.body entry))
    {config : R.system.Config} (hconfig : config.tasks=[]) {moves : List R.system.Move}
    (hrun : (Seen.initial P config).run moves=some seen)
    (hinformed : Meets reading.WellInformed ((Seen.initial P config).moments moves)) :
    Meets reading.AfterAbsence ((Seen.initial P config).moments moves) := by
  refine Seen.meets_of_moments (F := reading.WellInformed) ?_ hrun hinformed
  intro moves₁ seen₁ seen₂ move hrun₁ _ hbefore hnow performed hperformed party hstrikes
  have habsent : reading.Absent ((Seen.initial P config).moments moves₁) seen₁ :=
    (Seen.along (F := reading.WellInformed) hbody hconfig (I := reading.Absent)
      (fun _ hconforms h hf hs => h.step laws hconforms hf hs) hrun₁ hbefore
      fun _ _ _ _ hpast => nomatch hpast).1
  obtain ⟨hphase,rest,htask⟩ := Seen.performed_cases hperformed
  have hruns : seen₁.runs performed.task=true := by rw [Seen.runs,htask]
  exact habsent.before hnow
    (pursued_eq_some.mpr ⟨hruns,performed.phase,hphase,laws.strikes hstrikes⟩)

end Reading

end KiClash.Absences

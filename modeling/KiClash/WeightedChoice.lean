import Mathlib.Algebra.BigOperators.Group.List.Basic
import Mathlib.Algebra.Order.BigOperators.Group.List
import Mathlib.Algebra.Order.Field.Basic
import Mathlib.Data.Rat.Lemmas
import Mathlib.Tactic.Linarith
import Mathlib.Tactic.NormNum
import Mathlib.Tactic.Positivity

/-!
# Weighted random choices

A library for programs that draw random numbers and compute with floating-point numbers:
the draws are a list that the program consumes, every result of the arithmetic is rounded,
and what the rounding and the library functions guarantee are the fields of a structure.
A choice with weights returns a member of its population whenever some weight is positive,
however the sums are rounded.
-/

namespace KiClash.WeightedChoice

section Arithmetic

/-- Floating-point numbers as rationals, with the arithmetic of a language: the results of
the operations are rounded, and sums, powers and the exponential are those of its
library. -/
structure Floats where
  /-- The nearest number. -/
  round : ℚ → ℚ
  /-- The sum of a list. -/
  sum : List ℚ → ℚ
  /-- A power. -/
  pow : ℚ → ℕ → ℚ
  /-- The exponential; none if it overflows. -/
  exp : ℚ → Option ℚ
  /-- Rounding keeps the order. -/
  mono : Monotone round
  /-- Numbers are not rounded any more. -/
  idem : ∀ x,round (round x)=round x
  /-- The short binary fractions are numbers. -/
  dyadic : ∀ m n : ℕ,m≤2^53 → n≤1000 → round (m/2^n)=m/2^n
  /-- Nothing has the sum zero. -/
  sum_zero : ∀ xs : List ℚ,(∀ x∈xs,x=0) → sum xs=0
  /-- A sum with a positive term is positive. -/
  sum_pos : ∀ xs : List ℚ,(∀ x∈xs,0≤x) → (∃ x∈xs,0<x) → 0< sum xs
  /-- A short sum is not far from the exact one. -/
  sum_le : ∀ xs : List ℚ,xs.length≤1000 → (∀ x∈xs,0≤x) → sum xs≤2*xs.sum
  /-- The first power. -/
  pow_zero : ∀ x,pow x 0=1
  /-- Powers of nonnegative numbers are nonnegative. -/
  pow_nonneg : ∀ x n,0≤x → 0≤pow x n
  /-- The exponential of zero. -/
  exp_zero : exp 0=some 1
  /-- It does not overflow below. -/
  exp_nonpos : ∀ x,x≤0 → ∃ y,exp x=some y ∧ 0≤y

/-- What is raised. -/
inductive Exc
  | valueError | zeroDivisionError | indexError | keyError | overflowError
  deriving DecidableEq, Repr

/-- What random.random returns. -/
structure Draw where
  /-- The number. -/
  value : ℚ
  /-- It is not negative. -/
  nonneg : 0≤value
  /-- It is less than 1. -/
  lt_one : value<1

/-- A program that draws random numbers: it consumes the draws that are still to come. -/
abbrev Draws (α : Type) := StateT (List Draw) (Except Exc) α

/-- random.random; when the draws that are given are used up, it returns 0. -/
def random : Draws ℚ
  | [] => .ok (0,[])
  | draw::draws => .ok (draw.value,draws)

/-- Something is raised. -/
def raise {α : Type} (exc : Exc) : Draws α := fun _ => .error exc

/-- The program returns something of this kind, whatever it draws. -/
def Returns {α : Type} (program : Draws α) (P : α → Prop) : Prop :=
  ∀ draws,∃ a rest,program draws=.ok (a,rest) ∧ P a

end Arithmetic

section Choices

variable (floats : Floats)

/-- A quotient. -/
def Floats.divide (x y : ℚ) : Except Exc ℚ :=
  if y=0 then .error .zeroDivisionError else .ok (floats.round (x/y))

/-- The weights divided by their total. -/
def normalized (weights : List ℚ) (total : ℚ) : Except Exc (List ℚ) :=
  weights.mapM fun weight => floats.divide weight total

/-- The sums that follow this one. -/
def runningSums (total : ℚ) : List ℚ → List ℚ
  | [] => [total]
  | x::xs => total::runningSums (floats.round (total+x)) xs

/-- itertools.accumulate. -/
def accumulate : List ℚ → List ℚ
  | [] => []
  | x::xs => runningSums floats x xs

/-- bisect between two positions, with so many steps at most. -/
def bisect (sums : List ℚ) (x : ℚ) : ℕ → ℕ → ℕ → ℕ
  | 0,lo,_ => lo
  | steps+1,lo,hi =>
    if lo<hi then
      if x< sums.getD ((lo+hi)/2) 0 then bisect sums x steps lo ((lo+hi)/2)
      else bisect sums x steps ((lo+hi)/2+1) hi
    else lo

/-- random.choices for a single choice. -/
def choices {α : Type} (population : List α) (weights : List ℚ) : Draws α := do
  let sums := accumulate floats weights
  if sums.length≠population.length then raise .valueError
  else
    match sums.getLast? with
    | none => raise .indexError
    | some last =>
      let total := floats.round (last+0)
      if total≤0 then raise .valueError
      else
        let draw ← random
        match population[bisect sums (floats.round (draw*total)) population.length 0
          (population.length-1)]? with
        | none => raise .indexError
        | some a => pure a

end Choices

section Programs

variable {α β : Type} {P : α → Prop} {Q : β → Prop}

theorem returns_pure {a : α} (h : P a) : Returns (pure a) P := fun draws => ⟨a,draws,rfl,h⟩

/-- Sequencing. -/
theorem Returns.bind {program : Draws α} {f : α → Draws β} (h : Returns program P)
    (hf : ∀ a,P a → Returns (f a) Q) : Returns (program >>= f) Q := by
  intro draws
  obtain ⟨a,rest,hprogram,ha⟩ := h draws
  obtain ⟨b,rest',hb,hq⟩ := hf a ha rest
  refine ⟨b,rest',?_,hq⟩
  change (program draws >>= fun found => f found.1 found.2)=_
  rw [hprogram]
  exact hb

/-- A number may be drawn. -/
theorem returns_random : Returns random fun draw => 0≤draw ∧ draw<1
  | [] => ⟨0,[],rfl,le_rfl,zero_lt_one⟩
  | draw::draws => ⟨draw.value,draws,rfl,draw.nonneg,draw.lt_one⟩

/-- A number is drawn first. -/
theorem returns_random_bind {f : ℚ → Draws β} (h : ∀ draw,Returns (f draw) Q) :
    Returns (random >>= f) Q := returns_random.bind fun draw _ => h draw

/-- A part that does not draw. -/
theorem returns_lift_bind {a : α} {part : Except Exc α} {f : α → Draws β} (hpart : part=.ok a)
    (h : Returns (f a) Q) : Returns ((liftM part : Draws α) >>= f) Q := by
  rw [hpart]
  exact h

/-- Something of a kind is something of a weaker kind. -/
theorem Returns.weaken {P' : α → Prop} {program : Draws α} (h : Returns program P)
    (hP : ∀ a,P a → P' a) : Returns program P' := by
  intro draws
  obtain ⟨a,rest,hprogram,ha⟩ := h draws
  exact ⟨a,rest,hprogram,hP a ha⟩

/-- A list of parts that do not raise. -/
theorem mapM_ok {f : α → Except Exc β} {xs : List α} (h : ∀ x∈xs,∃ y,f x=.ok y) :
    ∃ ys,xs.mapM f=.ok ys ∧ ys.length=xs.length ∧ (∀ x∈xs,∃ y∈ys,f x=.ok y) ∧
      ∀ y∈ys,∃ x∈xs,f x=.ok y := by
  induction xs with
  | nil => exact ⟨[],rfl,rfl,by simp,by simp⟩
  | cons x xs ih =>
    obtain ⟨y,hy⟩ := h x List.mem_cons_self
    obtain ⟨ys,hys,hlength,hto,hfrom⟩ := ih fun x' hx' => h x' (List.mem_cons_of_mem _ hx')
    refine ⟨y::ys,?_,congrArg (·+1) hlength,?_,?_⟩
    · rw [List.mapM_cons,hy,hys]
      rfl
    · rw [List.forall_mem_cons]
      refine ⟨⟨y,List.mem_cons_self,hy⟩,fun x' hx' => ?_⟩
      obtain ⟨y',hmem,hy'⟩ := hto x' hx'
      exact ⟨y',List.mem_cons_of_mem _ hmem,hy'⟩
    · rw [List.forall_mem_cons]
      refine ⟨⟨x,List.mem_cons_self,hy⟩,fun y' hy' => ?_⟩
      obtain ⟨x',hmem,hx'⟩ := hfrom y' hy'
      exact ⟨x',List.mem_cons_of_mem _ hmem,hx'⟩

/-- A loop whose steps do not raise and keep an invariant. -/
theorem foldlM_ok {f : β → α → Except Exc β} {xs : List α} {b : β} (hb : Q b)
    (hstep : ∀ b,∀ x∈xs,Q b → ∃ b',f b x=.ok b' ∧ Q b') :
    ∃ b',xs.foldlM f b=.ok b' ∧ Q b' := by
  induction xs generalizing b with
  | nil => exact ⟨b,rfl,hb⟩
  | cons x xs ih =>
    obtain ⟨b₁,hb₁,hq₁⟩ := hstep b x List.mem_cons_self hb
    obtain ⟨b',hb',hq'⟩ := ih hq₁ fun b x' hx' => hstep b x' (List.mem_cons_of_mem _ hx')
    refine ⟨b',?_,hq'⟩
    rw [List.foldlM_cons,hb₁]
    exact hb'

end Programs

section Sums

variable {floats : Floats}

/-- Zero is a number. -/
theorem Floats.zero (floats : Floats) : floats.round 0=0 := by
  have hzero := floats.dyadic 0 0 (Nat.zero_le _) (Nat.zero_le _)
  simpa using hzero

/-- Nonnegative results stay nonnegative. -/
theorem Floats.nonneg (floats : Floats) {x : ℚ} (h : 0≤x) : 0≤floats.round x := by
  have hmono := floats.mono h
  rwa [floats.zero] at hmono

/-- Results stay above short binary fractions. -/
theorem Floats.ge_dyadic (floats : Floats) {m n : ℕ} {x : ℚ} (hm : m≤2^53) (hn : n≤1000)
    (h : m/2^n≤x) : m/2^n≤floats.round x := by
  have hmono := floats.mono h
  rwa [floats.dyadic m n hm hn] at hmono

/-- They stay below them. -/
theorem Floats.le_dyadic (floats : Floats) {m n : ℕ} {x : ℚ} (hm : m≤2^53) (hn : n≤1000)
    (h : x≤ m/2^n) : floats.round x≤ m/2^n := by
  have hmono := floats.mono h
  rwa [floats.dyadic m n hm hn] at hmono

/-- Quotients that are not too small are positive. -/
theorem Floats.pos (floats : Floats) {x : ℚ} (h : 1/64≤x) : 0<floats.round x := by
  have hge := @Floats.ge_dyadic floats 1 6 x (by norm_num) (by norm_num) (by norm_num; linarith)
  norm_num at hge
  linarith

theorem length_runningSums (total : ℚ) (xs : List ℚ) :
    (runningSums floats total xs).length=xs.length+1 := by
  induction xs generalizing total with
  | nil => rfl
  | cons x xs ih => simp only [runningSums,List.length_cons,ih]

/-- The last sum is at least the first one and every term. -/
theorem runningSums_ge {total : ℚ} {xs : List ℚ} (htotal : floats.round total=total)
    (hpos : 0≤total) (hxs : ∀ x∈xs,floats.round x=x ∧ 0≤x) :
    ∃ last,(runningSums floats total xs).getLast?=some last ∧ floats.round last=last ∧
      total≤last ∧ ∀ x∈xs,x≤last := by
  induction xs generalizing total with
  | nil => exact ⟨total,rfl,htotal,le_rfl,fun _ hx => nomatch hx⟩
  | cons x xs ih =>
    obtain ⟨hx,hxpos⟩ := hxs x List.mem_cons_self
    have hsum : total≤floats.round (total+x) := by
      have hmono := floats.mono (by linarith : total≤total+x)
      rwa [htotal] at hmono
    have hterm : x≤floats.round (total+x) := by
      have hmono := floats.mono (by linarith : x≤total+x)
      rwa [hx] at hmono
    obtain ⟨last,hlast,hround,hge,hall⟩ := ih (floats.idem _) (hpos.trans hsum)
      fun x' hx' => hxs x' (List.mem_cons_of_mem _ hx')
    refine ⟨last,?_,hround,hsum.trans hge,fun x' hx' => ?_⟩
    · have hne : runningSums floats (floats.round (total+x)) xs≠[] := by
        intro hnil
        have hlength := @length_runningSums floats (floats.round (total+x)) xs
        rw [hnil] at hlength
        cases hlength
      rw [runningSums,List.getLast?_cons_of_ne_nil hne]
      exact hlast
    · obtain rfl | hrest := List.mem_cons.mp hx'
      · exact hterm.trans hge
      · exact hall x' hrest

/-- bisect ends between its two positions. -/
theorem bisect_le (sums : List ℚ) (x : ℚ) (steps : ℕ) {lo hi : ℕ} (h : lo≤hi) :
    bisect sums x steps lo hi≤hi := by
  induction steps generalizing lo hi with
  | zero => exact h
  | succ steps ih =>
    unfold bisect
    split
    · next hlt =>
      split
      · exact (ih (by omega)).trans (by omega)
      · exact ih (by omega)
    · exact h

/-- A choice with nonnegative weights, one of them positive, is one from the population. -/
theorem returns_choices {α : Type} {population : List α} {weights : List ℚ}
    (hlength : weights.length=population.length)
    (hweights : ∀ w∈weights,floats.round w=w ∧ 0≤w) (hpos : ∃ w∈weights,0<w) :
    Returns (choices floats population weights) fun a => a∈population := by
  cases weights with
  | nil =>
    obtain ⟨w,hw,-⟩ := hpos
    cases hw
  | cons first weights =>
    obtain ⟨hfirst,hnonneg⟩ := hweights first List.mem_cons_self
    obtain ⟨last,hlast,hround,hge,hall⟩ := runningSums_ge hfirst hnonneg
      fun w hw => hweights w (List.mem_cons_of_mem _ hw)
    have htotal : 0<floats.round (last+0) := by
      obtain ⟨w,hw,hwpos⟩ := hpos
      rw [add_zero,hround]
      obtain rfl | hrest := List.mem_cons.mp hw
      · linarith
      · exact hwpos.trans_le (hall w hrest)
    have hsums : (accumulate floats (first::weights)).length=population.length := by
      rw [accumulate,length_runningSums,←hlength,List.length_cons]
    unfold choices
    rw [if_neg (not_not.mpr hsums)]
    rw [accumulate,hlast]
    dsimp only
    rw [if_neg (not_le.mpr htotal)]
    refine returns_random_bind fun draw => ?_
    have hindex : bisect (runningSums floats first weights)
        (floats.round (draw*floats.round (last+0))) population.length 0 (population.length-1)<
          population.length := by
      have hle := bisect_le (runningSums floats first weights)
        (floats.round (draw*floats.round (last+0))) population.length
        (Nat.zero_le (population.length-1))
      rw [←hlength,List.length_cons] at hle ⊢
      omega
    rw [List.getElem?_eq_getElem hindex]
    exact returns_pure (List.getElem_mem hindex)

/-- Nonnegative numbers with a positive one among them can be normalized, and one of the
results is positive. -/
theorem normalized_ok {weights : List ℚ} (hweights : ∀ w∈weights,0≤w) (hpos : ∃ w∈weights,0<w)
    (hlength : weights.length≤5) :
    ∃ shares,normalized floats weights (floats.sum weights)=.ok shares ∧
      shares.length=weights.length ∧ (∀ w∈shares,floats.round w=w ∧ 0≤w) ∧ ∃ w∈shares,0<w := by
  have htotal := floats.sum_pos weights hweights hpos
  have hle := floats.sum_le weights (hlength.trans (by norm_num)) hweights
  have hshares : normalized floats weights (floats.sum weights)=
      .ok (weights.map fun w => floats.round (w/floats.sum weights)) := by
    unfold normalized
    have hdivide : (fun w => floats.divide w (floats.sum weights))=
        fun w => (pure (floats.round (w/floats.sum weights)) : Except Exc ℚ) := by
      funext w
      exact if_neg (ne_of_gt htotal)
    rw [hdivide,List.mapM_pure]
    rfl
  refine ⟨_,hshares,List.length_map _,fun w hw => ?_,?_⟩
  · obtain ⟨w',hw',rfl⟩ := List.mem_map.mp hw
    exact ⟨floats.idem _,floats.nonneg (div_nonneg (hweights w' hw') htotal.le)⟩
  · -- some weight is at least the average
    have hlarge : ∃ w∈weights,floats.sum weights≤16*w := by
      by_contra hnone
      push Not at hnone
      have hsum : weights.sum≤weights.length*(floats.sum weights/16) := by
        have hall := List.sum_le_card_nsmul weights (floats.sum weights/16) fun w hw => by
          have hlt := hnone w hw
          linarith
        simpa [nsmul_eq_mul] using hall
      have hcard : (weights.length : ℚ)≤5 := by exact_mod_cast hlength
      nlinarith
    obtain ⟨w,hw,hwle⟩ := hlarge
    refine ⟨floats.round (w/floats.sum weights),List.mem_map_of_mem hw,floats.pos ?_⟩
    have hshare : 1/16≤w/floats.sum weights := by
      rw [le_div_iff₀ htotal]
      linarith
    linarith

/-- A choice among at most five, with normalized weights. -/
theorem returns_normalized {α β : Type} {population : List α} {weights : List ℚ}
    {f : List ℚ → Draws β} {Q : β → Prop} (hlength : weights.length=population.length)
    (hfive : population.length≤5) (hweights : ∀ w∈weights,0≤w) (hpos : ∃ w∈weights,0<w)
    (h : ∀ shares,Returns (choices floats population shares) (fun a => a∈population) →
      Returns (f shares) Q) :
    Returns ((liftM (normalized floats weights (floats.sum weights)) : Draws (List ℚ)) >>= f) Q := by
  obtain ⟨shares,hok,hshares,hround,hpos'⟩ := normalized_ok hweights hpos (hlength.trans_le hfive)
  exact returns_lift_bind hok (h shares (returns_choices (hshares.trans hlength) hround hpos'))

end Sums

section Exact

/-- Exact arithmetic, with an exponential that is close enough. -/
def exact : Floats where
  round x := x
  sum xs := xs.sum
  pow x n := x^n
  exp x := some (if x < -1024 then 0 else (1+x/1024)^1024)
  mono := monotone_id
  idem _ := rfl
  dyadic _ _ _ _ := rfl
  sum_zero xs h := List.sum_eq_zero h
  sum_pos xs h hpos := by
    obtain ⟨x,hx,hxpos⟩ := hpos
    exact hxpos.trans_le (List.single_le_sum h x hx)
  sum_le xs _ h := by
    have hnonneg := List.sum_nonneg h
    linarith
  pow_zero _ := by norm_num
  pow_nonneg _ n h := pow_nonneg h n
  exp_zero := by norm_num
  exp_nonpos x h := by
    refine ⟨_,rfl,?_⟩
    split
    · exact le_rfl
    · exact Even.pow_nonneg (by decide) _

/-- Where bisect ends: below the first sum that is larger, if it has enough steps. -/
theorem bisect_spec (sums : List ℚ) (x : ℚ) (steps : ℕ) {lo hi : ℕ} (h : lo≤hi)
    (hsteps : hi≤lo+steps) :
    let found := bisect sums x steps lo hi
    lo≤found ∧ found≤hi ∧ (found<hi → x< sums.getD found 0) ∧
      (lo<found → sums.getD (found-1) 0≤x) := by
  induction steps generalizing lo hi with
  | zero => exact ⟨le_rfl,h,fun hlt => absurd hlt (by simp [bisect]; omega),by simp [bisect]⟩
  | succ steps ih =>
    unfold bisect
    split
    · next hlt =>
      split
      · next hbelow =>
        obtain ⟨hlo,hhi,habove,hleft⟩ := @ih lo ((lo+hi)/2) (by omega) (by omega)
        refine ⟨hlo,by omega,fun _ => ?_,hleft⟩
        obtain hfound | hfound := hhi.lt_or_eq
        · exact habove hfound
        · rw [hfound]
          exact hbelow
      · next hbelow =>
        obtain ⟨hlo,hhi,habove,hleft⟩ := @ih ((lo+hi)/2+1) hi (by omega) (by omega)
        refine ⟨by omega,hhi,habove,fun _ => ?_⟩
        obtain hfound | hfound := hlo.lt_or_eq
        · exact hleft hfound
        · rw [← hfound,Nat.add_sub_cancel]
          exact not_lt.mp hbelow
    · exact ⟨le_rfl,h,fun hlt => by omega,fun hlt => by omega⟩

/-- A running sum is the one before it and one number more. -/
theorem runningSums_succ {total : ℚ} {xs : List ℚ} {i : ℕ} (h : i< xs.length) :
    (runningSums exact total xs).getD (i+1) 0=
      (runningSums exact total xs).getD i 0+xs.getD i 0 := by
  induction xs generalizing total i with
  | nil => cases h
  | cons x xs ih =>
    rw [runningSums,List.getD_cons_succ]
    cases i with
    | zero => cases xs <;> rfl
    | succ i =>
      rw [ih (Nat.lt_of_succ_lt_succ h)]
      rfl

/-- The number at a place, if the running sums before and at the place are on the two sides
of another number. -/
theorem weight_pos_of_between {first x : ℚ} {rest : List ℚ} {i : ℕ} (hi : i≤rest.length)
    (hx : 0≤x) (habove : x<(runningSums exact first rest).getD i 0)
    (hbelow : 0< i → (runningSums exact first rest).getD (i-1) 0≤x) :
    0<(first::rest).getD i 0 := by
  cases i with
  | zero =>
    have hfirst : (runningSums exact first rest).getD 0 0=first := by cases rest <;> rfl
    rw [hfirst] at habove
    exact hx.trans_lt habove
  | succ i =>
    have hle := hbelow (Nat.succ_pos i)
    rw [runningSums_succ hi] at habove
    rw [Nat.add_sub_cancel] at hle
    rw [List.getD_cons_succ]
    linarith

/-- In exact arithmetic what is chosen has a positive weight. -/
theorem returns_choices_exact {α : Type} {population : List α} {weights : List ℚ}
    (hlength : weights.length=population.length) (hweights : ∀ w∈weights,0≤w)
    (hpos : ∃ w∈weights,0<w) :
    Returns (choices exact population weights) fun a =>
      ∃ i,population[i]?=some a ∧ 0<weights.getD i 0 := by
  cases weights with
  | nil =>
    obtain ⟨w,hw,-⟩ := hpos
    cases hw
  | cons first rest =>
    have hn : population.length=rest.length+1 := hlength.symm
    obtain ⟨last,hlast,-,hge,hall⟩ := @runningSums_ge exact first rest rfl
      (hweights first List.mem_cons_self)
      fun w hw => ⟨rfl,hweights w (List.mem_cons_of_mem _ hw)⟩
    have htotal : 0<last := by
      obtain ⟨w,hw,hwpos⟩ := hpos
      obtain rfl | hrest := List.mem_cons.mp hw
      · exact hwpos.trans_le hge
      · exact hwpos.trans_le (hall w hrest)
    have hsums := @length_runningSums exact first rest
    have hend : (runningSums exact first rest).getD rest.length 0=last := by
      rw [List.getLast?_eq_getElem?,hsums,Nat.add_sub_cancel] at hlast
      rw [List.getD_eq_getElem?_getD,hlast,Option.getD_some]
    unfold choices
    rw [accumulate,if_neg (not_not.mpr (hsums.trans hn.symm)),hlast]
    dsimp only
    have hround : exact.round (last+0)=last := add_zero last
    rw [hround,if_neg (not_le.mpr htotal)]
    refine returns_random.bind fun draw hdraw => ?_
    have hx : 0≤draw*last := mul_nonneg hdraw.1 htotal.le
    have hlt : draw*last<last := mul_lt_of_lt_one_left htotal hdraw.2
    obtain ⟨-,hhi,habove,hbelow⟩ := bisect_spec (runningSums exact first rest) (draw*last)
      population.length (Nat.zero_le (population.length-1)) (by omega)
    change Returns (match population[bisect (runningSums exact first rest) (draw*last)
      population.length 0 (population.length-1)]? with
      | none => raise .indexError
      | some a => pure a) _
    generalize bisect (runningSums exact first rest) (draw*last) population.length 0
      (population.length-1)=found at hhi habove hbelow ⊢
    rw [hn,Nat.add_sub_cancel] at hhi habove
    have hfound : found<population.length := by omega
    have hbetween : draw*last<(runningSums exact first rest).getD found 0 := by
      obtain hinside | rfl := hhi.lt_or_eq
      · exact habove hinside
      · rwa [hend]
    rw [List.getElem?_eq_getElem hfound]
    exact returns_pure ⟨found,List.getElem?_eq_getElem hfound,
      weight_pos_of_between hhi hx hbetween hbelow⟩

end Exact

end KiClash.WeightedChoice

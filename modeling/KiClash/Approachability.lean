import KiClash.MatrixGames
import Mathlib.Algebra.Order.Group.MinMax
import Mathlib.Analysis.Real.Sqrt

/-!
# Approachability

A library for regret matching. A player who plays his actions in proportion to their
positive regrets, against anything, raises the sum of the squares of the positive regrets by
at most the squares of what one play differs from its average. So the regrets grow with the
square root of the number of plays only.
-/

namespace KiClash.Approachability

open MatrixGames

section Potential

variable {A 𝕜 : Type*} [Field 𝕜] [LinearOrder 𝕜]

/-- The sum of the squares of the positive regrets. -/
def potential (actions : Finset A) (regret : A → 𝕜) : 𝕜 := ∑ a∈actions,max (regret a) 0^2

/-- The strategy is proportional to the positive regrets; it is any if there are none. -/
def Matched (actions : Finset A) (regret x : A → 𝕜) : Prop :=
  ∀ a∈actions,x a*∑ b∈actions,max (regret b) 0=max (regret a) 0

variable [IsStrictOrderedRing 𝕜]

/-- The square of a positive part after a change. -/
theorem posPart_sq_le (r d : 𝕜) : max (r+d) 0^2≤ max r 0^2+2*(max r 0*d)+d^2 := by
  have hexpand : max r 0^2+2*(max r 0*d)+d^2=(max r 0+d)^2 := by ring
  rw [hexpand]
  rcases le_total (r+d) 0 with hneg | hpos
  · rw [max_eq_right hneg]
    have hsq := sq_nonneg (max r 0+d)
    simpa using hsq
  · rw [max_eq_left hpos]
    exact pow_le_pow_left₀ hpos (by linarith [le_max_left r 0]) 2

variable {actions : Finset A} {regret x utility : A → 𝕜} {value : 𝕜}

omit [IsStrictOrderedRing 𝕜] in
/-- The changes are orthogonal to the positive regrets. -/
theorem Matched.orthogonal (h : Matched actions regret x) (hx : Mixed actions x)
    (hvalue : value=∑ a∈actions,x a*utility a) :
    ∑ a∈actions,max (regret a) 0*(utility a-value)=0 := by
  have hcentered : ∑ a∈actions,x a*(utility a-value)=0 := by
    calc ∑ a∈actions,x a*(utility a-value)
        =∑ a∈actions,x a*utility a-(∑ a∈actions,x a)*value := by
          rw [Finset.sum_mul,← Finset.sum_sub_distrib]
          exact Finset.sum_congr rfl fun a _ => by ring
      _=0 := by rw [hx.sum,one_mul,← hvalue,sub_self]
  calc ∑ a∈actions,max (regret a) 0*(utility a-value)
      =(∑ b∈actions,max (regret b) 0)*∑ a∈actions,x a*(utility a-value) := by
        rw [Finset.mul_sum]
        refine Finset.sum_congr rfl fun a ha => ?_
        rw [← h a ha]
        ring
    _=0 := by rw [hcentered,mul_zero]

/-- One play of a matched strategy, with utilities that are at most 1 from their average. -/
theorem Matched.potential_le (h : Matched actions regret x) (hx : Mixed actions x)
    (hvalue : value=∑ a∈actions,x a*utility a)
    (hunit : ∀ a∈actions,(utility a-value)^2≤1) :
    potential actions (fun a => regret a+(utility a-value))≤
      potential actions regret+actions.card := by
  have hsquares : ∑ a∈actions,(utility a-value)^2≤actions.card := by
    simpa using Finset.sum_le_card_nsmul actions (fun a => (utility a-value)^2) 1 hunit
  calc potential actions (fun a => regret a+(utility a-value))
      ≤∑ a∈actions,(max (regret a) 0^2+2*(max (regret a) 0*(utility a-value))+
          (utility a-value)^2) := Finset.sum_le_sum fun a _ => posPart_sq_le _ _
    _=potential actions regret+2*∑ a∈actions,max (regret a) 0*(utility a-value)+
          ∑ a∈actions,(utility a-value)^2 := by
        rw [Finset.sum_add_distrib,Finset.sum_add_distrib,← Finset.mul_sum]
        rfl
    _≤potential actions regret+actions.card := by
        rw [h.orthogonal hx hvalue,mul_zero,add_zero]
        exact add_le_add_right hsquares _

/-- Utilities within an interval of length 1 differ by at most 1 from their average. -/
theorem unit_deviation (hx : Mixed actions x) (hvalue : value=∑ a∈actions,x a*utility a) {lo : 𝕜}
    (hlo : ∀ a∈actions,lo≤utility a) (hhi : ∀ a∈actions,utility a≤lo+1) :
    ∀ a∈actions,(utility a-value)^2≤1 := by
  intro a ha
  have hge : lo≤value := hvalue ▸ hx.le_sum hlo
  have hle : value≤lo+1 := hvalue ▸ hx.sum_le hhi
  rw [sq_le_one_iff_abs_le_one,abs_le]
  have hloa := hlo a ha
  have hhia := hhi a ha
  constructor <;> linarith

end Potential

section Rate

variable {A : Type*} {actions : Finset A} {regret : A → ℝ}

/-- No regret is larger than the root of the potential. -/
theorem regret_le_sqrt {bound : ℝ} (h : potential actions regret≤bound) {a : A} (ha : a∈actions) :
    regret a≤√bound := by
  have hterm : max (regret a) 0^2≤potential actions regret :=
    Finset.single_le_sum (f := fun a => max (regret a) 0^2) (fun b _ => sq_nonneg _) ha
  have hroot : max (regret a) 0≤√bound := Real.le_sqrt_of_sq_le (hterm.trans h)
  exact (le_max_left _ _).trans hroot

/-- Regrets of two players after so many plays, as an average over the plays. -/
theorem average_rate (n m : ℕ) {t : ℕ} (h : 1≤t) :
    (√(n*t : ℝ)+√(m*t : ℝ))/t=(√(n : ℝ)+√(m : ℝ))/√(t : ℝ) := by
  have ht : 0<(t : ℝ) := by exact_mod_cast h
  have hroot : 0<√(t : ℝ) := Real.sqrt_pos.mpr ht
  rw [Real.sqrt_mul (Nat.cast_nonneg n),Real.sqrt_mul (Nat.cast_nonneg m),← add_mul,
    div_eq_div_iff ht.ne' hroot.ne',mul_assoc,Real.mul_self_sqrt ht.le]

end Rate

end KiClash.Approachability

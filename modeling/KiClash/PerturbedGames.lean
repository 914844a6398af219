import KiClash.SimultaneousGames

/-!
# Games whose payoffs are changed a little

A library for games of simultaneous moves: when every payoff moves by at most so much, what
a game is worth moves by no more, and a strategy secures no less than that much less.
-/

namespace KiClash.PerturbedGames

open SimultaneousGames Game

variable {A B O 𝕜 : Type*} [Field 𝕜] [LinearOrder 𝕜] [IsStrictOrderedRing 𝕜] {u u' : O → 𝕜}

omit [IsStrictOrderedRing 𝕜] in
/-- What is more than enough is secured as well. -/
theorem secures_of_le {g : Game A B O} {v w : 𝕜} {σ : SimultaneousGames.Strategy A B A 𝕜}
    (h : Secures u g v σ) (hw : w≤v) : Secures u g w σ :=
  ⟨h.plays,fun τ hτ => hw.trans (h.secures τ hτ)⟩

/-- Higher payoffs secure as much. -/
theorem secures_mono {g : Game A B O} {v : 𝕜} {σ : SimultaneousGames.Strategy A B A 𝕜}
    (h : Secures u g v σ) (hu : ∀ outcome,u outcome≤u' outcome) : Secures u' g v σ :=
  ⟨h.plays,fun τ hτ => (h.secures τ hτ).trans (expected_mono hu h.plays hτ)⟩

/-- All payoffs less by so much secure so much less. -/
theorem secures_shift {g : Game A B O} {v : 𝕜} {σ : SimultaneousGames.Strategy A B A 𝕜}
    (h : Secures u g v σ) (c : 𝕜) : Secures (fun outcome => u outcome-c) g (v-c) σ := by
  have hshift := h.affine (-c) zero_le_one
  simp only [one_mul,neg_add_eq_sub] at hshift
  exact hshift

/-- Payoffs that are lower by no more than so much secure no less than so much less. -/
theorem secures_near {g : Game A B O} {v ε : 𝕜} {σ : SimultaneousGames.Strategy A B A 𝕜}
    (h : Secures u g v σ) (hu : ∀ outcome,u outcome-ε≤u' outcome) : Secures u' g (v-ε) σ :=
  secures_mono (secures_shift h ε) hu

/-- Near payoffs make a game worth nearly as much. -/
theorem worth_near {g : Game A B O} {v v' ε : 𝕜} (h : Worth u g v) (h' : Worth u' g v')
    (hu : ∀ outcome,|u outcome-u' outcome|≤ε) : |v-v'|≤ε := by
  obtain ⟨σ,hσ⟩ := h.secures
  obtain ⟨τ,hτ⟩ := h.holds
  obtain ⟨σ',hσ'⟩ := h'.secures
  obtain ⟨τ',hτ'⟩ := h'.holds
  have hlow : v-ε≤v' := by
    refine (secures_near hσ fun outcome => ?_).le hτ'
    linarith [(abs_le.mp (hu outcome)).2]
  have hhigh : v'-ε≤v := by
    refine (secures_near hσ' fun outcome => ?_).le hτ
    linarith [(abs_le.mp (hu outcome)).1]
  rw [abs_le]
  constructor <;> linarith

end KiClash.PerturbedGames

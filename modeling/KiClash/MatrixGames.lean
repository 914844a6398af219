import Mathlib.Algebra.BigOperators.Field
import Mathlib.Algebra.Order.BigOperators.Ring.Finset
import Mathlib.Algebra.Order.Field.Basic
import Mathlib.Data.Finset.Sum
import Mathlib.Order.CountableDenseLinearOrder
import Mathlib.Tactic.Linarith
import Mathlib.Tactic.LinearCombination
import Mathlib.Tactic.Positivity
import Mathlib.Tactic.Ring

/-!
# Matrix games

A library for games in which two players choose simultaneously and the row
player gets what the column player loses. Everything is over an arbitrary
ordered field, so no limits are taken: that a matrix game has a value follows
from a theorem of the alternative for finitely many strict linear
inequalities, applied to a symmetric game that contains the given one.
-/

namespace KiClash.MatrixGames

variable {A B 𝕜 : Type*} [Field 𝕜] [LinearOrder 𝕜] [IsStrictOrderedRing 𝕜]

/-- A mixed strategy over a finite set of actions. -/
structure Mixed (actions : Finset A) (x : A → 𝕜) : Prop where
  /-- Weights are not negative. -/
  nonneg : ∀ a,0≤x a
  /-- Other actions are not played. -/
  support : ∀ a,a∉actions → x a=0
  /-- The weights add up to one. -/
  sum : ∑ a∈actions,x a=1

/-- The value of a matrix game: what the row player can secure and the column
player can hold him to. -/
structure IsValue (rows : Finset A) (cols : Finset B) (M : A → B → 𝕜) (v : 𝕜) : Prop where
  /-- Some row strategy gets at least this against every column. -/
  secures : ∃ x,Mixed rows x ∧ ∀ b∈cols,v≤∑ a∈rows,x a*M a b
  /-- Some column strategy concedes at most this to every row. -/
  holds : ∃ y,Mixed cols y ∧ ∀ a∈rows,∑ b∈cols,y b*M a b≤v

section Averages

variable {actions : Finset A} {x f : A → 𝕜} {v : 𝕜}

/-- An average is at least what every entry is at least. -/
theorem Mixed.le_sum (h : Mixed actions x) (hle : ∀ a∈actions,v≤f a) :
    v≤∑ a∈actions,x a*f a := by
  calc v=∑ a∈actions,x a*v := by rw [← Finset.sum_mul,h.sum,one_mul]
    _≤∑ a∈actions,x a*f a :=
      Finset.sum_le_sum fun a ha => mul_le_mul_of_nonneg_left (hle a ha) (h.nonneg a)

/-- An average is at most what every entry is at most. -/
theorem Mixed.sum_le (h : Mixed actions x) (hle : ∀ a∈actions,f a≤v) :
    ∑ a∈actions,x a*f a≤v := by
  calc ∑ a∈actions,x a*f a≤∑ a∈actions,x a*v :=
        Finset.sum_le_sum fun a ha => mul_le_mul_of_nonneg_left (hle a ha) (h.nonneg a)
    _=v := by rw [← Finset.sum_mul,h.sum,one_mul]

/-- Weights that are not all zero can be scaled to a mixed strategy. -/
theorem mixed_of_nonneg (hx : ∀ a,0≤x a) (hsupport : ∀ a,a∉actions → x a=0)
    (hpos : 0<∑ a∈actions,x a) : Mixed actions fun a => x a/∑ a∈actions,x a where
  nonneg a := div_nonneg (hx a) hpos.le
  support a ha := by rw [hsupport a ha,zero_div]
  sum := by rw [← Finset.sum_div,div_self hpos.ne']

omit [IsStrictOrderedRing 𝕜] in
/-- The average on another scale. -/
theorem Mixed.sum_affine (h : Mixed actions x) (c k : 𝕜) :
    ∑ a∈actions,x a*(c+k*f a)=c+k*∑ a∈actions,x a*f a := by
  have hconst : ∑ a∈actions,x a*c=c := by rw [← Finset.sum_mul,h.sum,one_mul]
  rw [Finset.mul_sum,← hconst,← Finset.sum_add_distrib,hconst]
  exact Finset.sum_congr rfl fun a _ => by ring

end Averages

section Values

variable {rows : Finset A} {cols : Finset B} {M : A → B → 𝕜} {v w : 𝕜}

/-- What a row strategy secures is at most what a column strategy holds it to. -/
theorem secured_le {x : A → 𝕜} {y : B → 𝕜} (hx : Mixed rows x) (hy : Mixed cols y)
    (hv : ∀ b∈cols,v≤∑ a∈rows,x a*M a b) (hw : ∀ a∈rows,∑ b∈cols,y b*M a b≤w) : v≤w := by
  calc v≤∑ b∈cols,y b*∑ a∈rows,x a*M a b := hy.le_sum hv
    _=∑ a∈rows,x a*∑ b∈cols,y b*M a b := by
      simp only [Finset.mul_sum]
      rw [Finset.sum_comm]
      refine Finset.sum_congr rfl fun a _ => Finset.sum_congr rfl fun b _ => ?_
      ring
    _≤w := hx.sum_le hw

/-- A matrix game has at most one value. -/
theorem IsValue.unique (h : IsValue rows cols M v) (h' : IsValue rows cols M w) : v=w := by
  obtain ⟨⟨x,hx,hv⟩,⟨y,hy,hv'⟩⟩ := h
  obtain ⟨⟨x',hx',hw⟩,⟨y',hy',hw'⟩⟩ := h'
  exact le_antisymm (secured_le hx hy' hv hw') (secured_le hx' hy hw hv')

/-- On another scale the value is on this scale too. -/
theorem IsValue.affine (h : IsValue rows cols M v) (c : 𝕜) {k : 𝕜} (hk : 0≤k) :
    IsValue rows cols (fun a b => c+k*M a b) (c+k*v) := by
  obtain ⟨⟨x,hx,hv⟩,⟨y,hy,hv'⟩⟩ := h
  refine ⟨⟨x,hx,fun b hb => ?_⟩,⟨y,hy,fun a ha => ?_⟩⟩
  · rw [hx.sum_affine]
    exact add_le_add_right (mul_le_mul_of_nonneg_left (hv b hb) hk) c
  · rw [hy.sum_affine]
    exact add_le_add_right (mul_le_mul_of_nonneg_left (hv' a ha) hk) c

/-- With the players exchanged and the payoffs counted from the other side, the
value is the rest to one. -/
theorem IsValue.mirror (h : IsValue rows cols M v) :
    IsValue cols rows (fun b a => 1-M a b) (1-v) := by
  obtain ⟨⟨x,hx,hv⟩,⟨y,hy,hv'⟩⟩ := h
  have hflip : ∀ m : 𝕜,1-m=1+(-1)*m := fun m => by ring
  simp only [hflip]
  refine ⟨⟨y,hy,fun a ha => ?_⟩,⟨x,hx,fun b hb => ?_⟩⟩
  · rw [hy.sum_affine]
    have := hv' a ha
    linarith
  · rw [hx.sum_affine]
    have := hv b hb
    linarith

omit [IsStrictOrderedRing 𝕜] in
/-- Only the entries at allowed actions matter. -/
theorem IsValue.congr {N : A → B → 𝕜} (h : IsValue rows cols M v)
    (he : ∀ a∈rows,∀ b∈cols,M a b=N a b) : IsValue rows cols N v := by
  obtain ⟨⟨x,hx,hv⟩,⟨y,hy,hv'⟩⟩ := h
  refine ⟨⟨x,hx,fun b hb => (hv b hb).trans_eq ?_⟩,⟨y,hy,fun a ha => (hv' a ha).trans_eq' ?_⟩⟩
  · exact Finset.sum_congr rfl fun a ha => by rw [he a ha b hb]
  · exact Finset.sum_congr rfl fun b hb => by rw [he a ha b hb]

end Values

section Alternative

/-- The vectors that finitely many given ones lead to by adding and by
positive scaling. -/
inductive Combination (C : List (A → 𝕜)) : (A → 𝕜) → Prop
  | mem {c : A → 𝕜} (h : c∈C) : Combination C c
  | add {c d : A → 𝕜} (hc : Combination C c) (hd : Combination C d) :
    Combination C fun a => c a+d a
  | scale {c : A → 𝕜} {k : 𝕜} (hk : 0<k) (hc : Combination C c) : Combination C fun a => k*c a

omit [IsStrictOrderedRing 𝕜] in
/-- Combinations of combinations are combinations. -/
theorem Combination.lift {C D : List (A → 𝕜)} {c : A → 𝕜} (h : Combination D c)
    (hD : ∀ d∈D,Combination C d) : Combination C c := by
  induction h with
  | mem h => exact hD _ h
  | add hc hd ihc ihd => exact ihc.add ihd
  | scale hk hc ih => exact ih.scale hk

/-- A coordinate that is nowhere positive stays so. -/
theorem Combination.nonpos {C : List (A → 𝕜)} {c : A → 𝕜} {a : A} (h : Combination C c)
    (hC : ∀ d∈C,d a≤0) : c a≤0 := by
  induction h with
  | mem h => exact hC _ h
  | add hc hd ihc ihd => exact add_nonpos ihc ihd
  | scale hk hc ih => exact mul_nonpos_of_nonneg_of_nonpos hk.le ih

/-- What is left of the inequalities when the coordinate a is eliminated: those
that do not ask it to be positive, and each lower bound on it combined with each
upper bound. -/
def eliminate (a : A) (C : List (A → 𝕜)) : List (A → 𝕜) :=
  C.filter (fun c => c a≤0)++
    (C.filter (fun p => 0<p a)).flatMap fun p =>
      (C.filter fun n => n a<0).map fun n => fun b => p a*n b+(-n a)*p b

/-- What is left are combinations without a positive coordinate a. -/
theorem eliminate_combination {a : A} {C : List (A → 𝕜)} :
    ∀ c∈eliminate a C,Combination C c ∧ c a≤0 := by
  intro c hc
  rcases List.mem_append.mp hc with hc | hc
  · obtain ⟨hmem,hle⟩ := List.mem_filter.mp hc
    exact ⟨.mem hmem,of_decide_eq_true hle⟩
  · obtain ⟨p,hp,hc⟩ := List.mem_flatMap.mp hc
    obtain ⟨n,hn,rfl⟩ := List.mem_map.mp hc
    obtain ⟨hp,hpos⟩ := List.mem_filter.mp hp
    obtain ⟨hn,hneg⟩ := List.mem_filter.mp hn
    have hpos := of_decide_eq_true hpos
    have hneg := of_decide_eq_true hneg
    refine ⟨((Combination.mem hn).scale hpos).add ((Combination.mem hp).scale (neg_pos.mpr hneg)),?_⟩
    have : p a*n a+(-n a)*p a=0 := by ring
    exact this.le

/-- A weight for the eliminated coordinate: it has to be between the bounds. -/
theorem exists_weight {a : A} {C : List (A → 𝕜)} {s : (A → 𝕜) → 𝕜}
    (hs : ∀ c∈C,c a≤0 → 0< s c)
    (hpair : ∀ p∈C,∀ n∈C,0<p a → n a<0 → 0<p a*s n+(-n a)*s p) :
    ∃ z,0≤z ∧ ∀ c∈C,0<z*c a+s c := by
  classical
  let lo := insert 0 (((C.filter fun p => 0<p a).map fun p => -s p/p a).toFinset)
  let hi := ((C.filter fun n => n a<0).map fun n => s n/(-n a)).toFinset
  have hlohi : ∀ l∈lo,∀ u∈hi,l<u := by
    intro l hl u hu
    obtain ⟨n,hn,rfl⟩ := List.mem_map.mp (List.mem_toFinset.mp hu)
    obtain ⟨hn,hneg⟩ := List.mem_filter.mp hn
    have hneg : n a<0 := of_decide_eq_true hneg
    rcases Finset.mem_insert.mp hl with rfl | hl
    · exact div_pos (hs n hn hneg.le) (neg_pos.mpr hneg)
    · obtain ⟨p,hp,rfl⟩ := List.mem_map.mp (List.mem_toFinset.mp hl)
      obtain ⟨hp,hpos⟩ := List.mem_filter.mp hp
      have hpos : 0<p a := of_decide_eq_true hpos
      rw [div_lt_div_iff₀ hpos (neg_pos.mpr hneg)]
      have := hpair p hp n hn hpos hneg
      linarith
  obtain ⟨z,hlo,hhi⟩ := Order.exists_between_finsets lo hi hlohi
  refine ⟨z,(hlo 0 (Finset.mem_insert_self _ _)).le,fun c hc => ?_⟩
  rcases lt_trichotomy (c a) 0 with hneg | hzero | hpos
  · have hmem : s c/(-c a)∈hi := by
      refine List.mem_toFinset.mpr (List.mem_map.mpr ⟨c,List.mem_filter.mpr ⟨hc,?_⟩,rfl⟩)
      exact decide_eq_true hneg
    have := hhi _ hmem
    rw [lt_div_iff₀ (neg_pos.mpr hneg)] at this
    linarith
  · rw [hzero,mul_zero,zero_add]
    exact hs c hc hzero.le
  · have hmem : -s c/c a∈lo := by
      refine Finset.mem_insert_of_mem (List.mem_toFinset.mpr (List.mem_map.mpr ?_))
      exact ⟨c,List.mem_filter.mpr ⟨hc,decide_eq_true hpos⟩,rfl⟩
    have := hlo _ hmem
    rw [div_lt_iff₀ hpos] at this
    linarith

/-- The theorem of the alternative: either some weights make every given vector
positive on average, or some combination of the vectors is nowhere positive. -/
theorem alternative (rows : Finset A) (C : List (A → 𝕜)) :
    (∃ x : A → 𝕜,(∀ a,0≤x a) ∧ (∀ a,a∉rows → x a=0) ∧ ∀ c∈C,0<∑ a∈rows,x a*c a) ∨
      ∃ c,Combination C c ∧ ∀ a∈rows,c a≤0 := by
  classical
  -- the induction eliminates one coordinate after the other
  induction rows using Finset.induction_on generalizing C with
  | empty =>
    cases C with
    | nil => exact .inl ⟨0,fun _ => le_rfl,fun _ _ => rfl,fun _ h => absurd h List.not_mem_nil⟩
    | cons c C => exact .inr ⟨c,.mem List.mem_cons_self,fun a h => absurd h (Finset.notMem_empty a)⟩
  | insert a rows ha ih =>
    obtain ⟨x,hx,hsupport,hpos⟩ | ⟨c,hc,hle⟩ := ih (eliminate a C)
    · left
      obtain ⟨z,hz,hC⟩ := exists_weight (a := a) (C := C) (s := fun c => ∑ b∈rows,x b*c b)
        (fun c hc hle => hpos c (List.mem_append_left _ (List.mem_filter.mpr
          ⟨hc,decide_eq_true hle⟩))) (by
        intro p hp n hn hpa hna
        have hmem : (fun b => p a*n b+(-n a)*p b)∈eliminate a C := by
          refine List.mem_append_right _ (List.mem_flatMap.mpr ⟨p,?_,List.mem_map.mpr ⟨n,?_,rfl⟩⟩)
          · exact List.mem_filter.mpr ⟨hp,decide_eq_true hpa⟩
          · exact List.mem_filter.mpr ⟨hn,decide_eq_true hna⟩
        have := hpos _ hmem
        rw [Finset.mul_sum,Finset.mul_sum,← Finset.sum_add_distrib]
        refine this.trans_eq (Finset.sum_congr rfl fun b _ => ?_)
        ring)
      refine ⟨Function.update x a z,fun b => ?_,fun b hb => ?_,fun c hc => ?_⟩
      · by_cases hba : b=a
        · rw [hba,Function.update_self]
          exact hz
        · rw [Function.update_of_ne hba]
          exact hx b
      · have hba : b≠a := fun he => hb (he ▸ Finset.mem_insert_self _ _)
        rw [Function.update_of_ne hba]
        exact hsupport b fun h => hb (Finset.mem_insert_of_mem h)
      · rw [Finset.sum_insert ha,Function.update_self]
        have hsame : ∑ b∈rows,Function.update x a z b*c b=∑ b∈rows,x b*c b := by
          refine Finset.sum_congr rfl fun b hb => ?_
          have hba : b≠a := fun he => ha (he ▸ hb)
          rw [Function.update_of_ne hba]
        rw [hsame]
        exact hC c hc
    · right
      refine ⟨c,hc.lift fun d hd => (eliminate_combination d hd).1,fun b hb => ?_⟩
      rcases Finset.mem_insert.mp hb with rfl | hb
      · exact hc.nonpos fun d hd => (eliminate_combination d hd).2
      · exact hle b hb

/-- The weights of a combination of the columns of a matrix. -/
theorem Combination.weights {cols : Finset B} {M : A → B → 𝕜} {c : A → 𝕜}
    (h : Combination (cols.toList.map fun b a => M a b) c) :
    ∃ y : B → 𝕜,(∀ b,0≤y b) ∧ (∀ b,b∉cols → y b=0) ∧ 0<∑ b∈cols,y b ∧
      ∀ a,c a=∑ b∈cols,y b*M a b := by
  classical
  induction h with
  | mem h =>
    obtain ⟨b,hb,rfl⟩ := List.mem_map.mp h
    have hb : b∈cols := Finset.mem_toList.mp hb
    refine ⟨Pi.single b 1,fun b' => ?_,fun b' hb' => ?_,?_,fun a => ?_⟩
    · by_cases he : b'=b
      · rw [he,Pi.single_eq_same]
        exact zero_le_one
      · rw [Pi.single_eq_of_ne he]
    · have he : b'≠b := fun he => hb' (he ▸ hb)
      exact Pi.single_eq_of_ne he 1
    · rw [Finset.sum_pi_single',if_pos hb]
      exact one_pos
    · simp [Pi.single_apply,hb]
  | add hc hd ihc ihd =>
    obtain ⟨y,hy,hy',hpos,hc⟩ := ihc
    obtain ⟨z,hz,hz',hpos',hd⟩ := ihd
    refine ⟨fun b => y b+z b,fun b => add_nonneg (hy b) (hz b),fun b hb => ?_,?_,fun a => ?_⟩
    · dsimp only
      rw [hy' b hb,hz' b hb,add_zero]
    · rw [Finset.sum_add_distrib]
      exact add_pos hpos hpos'
    · dsimp only
      rw [hc a,hd a,← Finset.sum_add_distrib]
      exact Finset.sum_congr rfl fun b _ => by ring
  | @scale c k hk hc ih =>
    obtain ⟨y,hy,hy',hpos,hc⟩ := ih
    refine ⟨fun b => k*y b,fun b => mul_nonneg hk.le (hy b),fun b hb => ?_,?_,fun a => ?_⟩
    · dsimp only
      rw [hy' b hb,mul_zero]
    · rw [← Finset.mul_sum]
      exact mul_pos hk hpos
    · dsimp only
      rw [hc a,Finset.mul_sum]
      exact Finset.sum_congr rfl fun b _ => by ring

/-- Either a row strategy gets something positive against every column, or a
column strategy concedes nothing positive to any row. -/
theorem positive_or_nonpos (rows : Finset A) {cols : Finset B} (hcols : cols.Nonempty)
    (M : A → B → 𝕜) : (∃ x,Mixed rows x ∧ ∀ b∈cols,0<∑ a∈rows,x a*M a b) ∨
      ∃ y,Mixed cols y ∧ ∀ a∈rows,∑ b∈cols,y b*M a b≤0 := by
  obtain ⟨x,hx,hsupport,hpos⟩ | ⟨c,hc,hle⟩ :=
    alternative rows (cols.toList.map fun b a => M a b)
  · left
    have hall : ∀ b∈cols,0<∑ a∈rows,x a*M a b := fun b hb =>
      hpos _ (List.mem_map.mpr ⟨b,Finset.mem_toList.mpr hb,rfl⟩)
    have htotal : 0<∑ a∈rows,x a := by
      obtain ⟨b,hb⟩ := hcols
      refine (Finset.sum_nonneg fun a _ => hx a).lt_of_ne fun hzero => ?_
      have hx0 := (Finset.sum_eq_zero_iff_of_nonneg fun a _ => hx a).mp hzero.symm
      have h0 : ∑ a∈rows,x a*M a b=0 := Finset.sum_eq_zero fun a ha => by rw [hx0 a ha,zero_mul]
      exact (hall b hb).ne' h0
    refine ⟨_,mixed_of_nonneg hx hsupport htotal,fun b hb => ?_⟩
    have hdiv : ∑ a∈rows,x a/(∑ a∈rows,x a)*M a b=(∑ a∈rows,x a*M a b)/∑ a∈rows,x a := by
      rw [Finset.sum_div]
      exact Finset.sum_congr rfl fun a _ => by ring
    rw [hdiv]
    exact div_pos (hall b hb) htotal
  · right
    obtain ⟨y,hy,hsupport,htotal,hc'⟩ := hc.weights
    refine ⟨_,mixed_of_nonneg hy hsupport htotal,fun a ha => ?_⟩
    have hdiv : ∑ b∈cols,y b/(∑ b∈cols,y b)*M a b=(∑ b∈cols,y b*M a b)/∑ b∈cols,y b := by
      rw [Finset.sum_div]
      exact Finset.sum_congr rfl fun b _ => by ring
    rw [hdiv,← hc' a]
    exact div_nonpos_of_nonpos_of_nonneg (hle a ha) htotal.le

/-- In a symmetric game each player can hold the other to nothing. -/
theorem exists_symmetric {actions : Finset A} (hne : actions.Nonempty) {K : A → A → 𝕜}
    (hskew : ∀ a b,K a b=-K b a) : ∃ z,Mixed actions z ∧ ∀ a∈actions,∑ b∈actions,z b*K a b≤0 := by
  obtain ⟨x,hx,hpos⟩ | h := positive_or_nonpos actions hne K
  · exfalso
    -- x would get something positive against itself
    have hself : 0<∑ b∈actions,x b*∑ a∈actions,x a*K a b := by
      obtain ⟨b,hb,hxb⟩ : ∃ b∈actions,0<x b := by
        by_contra hnone
        push Not at hnone
        have : ∑ a∈actions,x a≤0 := Finset.sum_nonpos hnone
        rw [hx.sum] at this
        exact absurd this (not_le.mpr one_pos)
      exact Finset.sum_pos' (fun b hb => mul_nonneg (hx.nonneg b) (hpos b hb).le)
        ⟨b,hb,mul_pos hxb (hpos b hb)⟩
    have hanti : ∑ b∈actions,x b*∑ a∈actions,x a*K a b=
        -∑ b∈actions,x b*∑ a∈actions,x a*K a b := by
      calc ∑ b∈actions,x b*∑ a∈actions,x a*K a b
          =∑ a∈actions,∑ b∈actions,x b*(x a*K a b) := by
            simp only [Finset.mul_sum]
            rw [Finset.sum_comm]
        _=∑ a∈actions,∑ b∈actions,-(x a*(x b*K b a)) := by
            refine Finset.sum_congr rfl fun a _ => Finset.sum_congr rfl fun b _ => ?_
            rw [hskew a b]
            ring
        _=-∑ b∈actions,x b*∑ a∈actions,x a*K a b := by
            simp only [Finset.mul_sum,Finset.sum_neg_distrib]
    linarith
  · exact h

end Alternative

section Minimax

variable {rows : Finset A} {cols : Finset B} {M : A → B → 𝕜}

/-- The symmetric game that contains a matrix game: each player may take the
part of the row player, the part of the column player, or the role of the bank,
whose weight becomes the value. -/
def symmetrize (M : A → B → 𝕜) : A⊕(B⊕Unit) → A⊕(B⊕Unit) → 𝕜
  | .inl a,.inr (.inl b) => M a b
  | .inr (.inl b),.inl a => -M a b
  | .inl _,.inr (.inr _) => -1
  | .inr (.inr _),.inl _ => 1
  | .inr (.inl _),.inr (.inr _) => 1
  | .inr (.inr _),.inr (.inl _) => -1
  | _,_ => 0

omit [LinearOrder 𝕜] [IsStrictOrderedRing 𝕜] in
theorem symmetrize_skew (M : A → B → 𝕜) (c d : A⊕(B⊕Unit)) :
    symmetrize M c d=-symmetrize M d c := by
  rcases c with a | b | u <;> rcases d with a' | b' | u' <;> simp [symmetrize]

/-- A matrix game with positive entries has a value. -/
theorem exists_value_of_pos (hrows : rows.Nonempty) (hcols : cols.Nonempty)
    (hpos : ∀ a∈rows,∀ b∈cols,0<M a b) : ∃ v,IsValue rows cols M v := by
  have hsides : (rows.disjSum (cols.disjSum {()})).Nonempty := ⟨.inr (.inr ()),by simp⟩
  obtain ⟨z,hz,hle⟩ := exists_symmetric hsides (symmetrize_skew M)
  let p := fun a => z (.inl a)
  let q := fun b => z (.inr (.inl b))
  let t := z (.inr (.inr ()))
  have hp : ∀ a,0≤p a := fun a => hz.nonneg _
  have hq : ∀ b,0≤q b := fun b => hz.nonneg _
  have ht : 0≤t := hz.nonneg _
  have hp' : ∀ a,a∉rows → p a=0 := fun a ha => hz.support _ (by simpa using ha)
  have hq' : ∀ b,b∉cols → q b=0 := fun b hb => hz.support _ (by simpa using hb)
  have hsum : ∑ a∈rows,p a+(∑ b∈cols,q b+t)=1 := by
    have := hz.sum
    rwa [Finset.sum_disjSum,Finset.sum_disjSum,Finset.sum_singleton] at this
  have hrow : ∀ a∈rows,∑ b∈cols,q b*M a b≤t := by
    intro a ha
    have := hle (.inl a) (by simpa using ha)
    simp only [Finset.sum_disjSum,Finset.sum_singleton,symmetrize,mul_zero,mul_neg,mul_one,
      Finset.sum_const_zero,zero_add] at this
    change ∑ b∈cols,q b*M a b+-t≤0 at this
    linarith
  have hcol : ∀ b∈cols,t≤∑ a∈rows,p a*M a b := by
    intro b hb
    have := hle (.inr (.inl b)) (by simpa using hb)
    simp only [Finset.sum_disjSum,Finset.sum_singleton,symmetrize,mul_zero,mul_neg,mul_one,
      Finset.sum_const_zero,zero_add,Finset.sum_neg_distrib] at this
    change -∑ a∈rows,p a*M a b+t≤0 at this
    linarith
  have hbank : ∑ a∈rows,p a≤∑ b∈cols,q b := by
    have := hle (.inr (.inr ())) (by simp)
    simp only [Finset.sum_disjSum,Finset.sum_singleton,symmetrize,mul_zero,mul_neg,mul_one,
      Finset.sum_neg_distrib,add_zero] at this
    change ∑ a∈rows,p a+-∑ b∈cols,q b≤0 at this
    linarith
  have htpos : 0<t := by
    obtain ⟨a,ha⟩ := hrows
    refine ht.lt_of_ne fun hzero => ?_
    have hterms : ∑ b∈cols,q b*M a b=0 :=
      le_antisymm (hzero ▸ hrow a ha) (Finset.sum_nonneg fun b hb =>
        mul_nonneg (hq b) (hpos a ha b hb).le)
    have hnone : ∀ b∈cols,q b=0 := by
      intro b hb
      have := (Finset.sum_eq_zero_iff_of_nonneg fun b hb =>
        mul_nonneg (hq b) (hpos a ha b hb).le).mp hterms b hb
      exact (mul_eq_zero.mp this).resolve_right (hpos a ha b hb).ne'
    rw [Finset.sum_eq_zero hnone] at hbank hsum
    linarith
  have hppos : 0<∑ a∈rows,p a := by
    obtain ⟨b,hb⟩ := hcols
    refine (Finset.sum_nonneg fun a _ => hp a).lt_of_ne fun hzero => ?_
    have hnone := (Finset.sum_eq_zero_iff_of_nonneg fun a _ => hp a).mp hzero.symm
    have := hcol b hb
    rw [Finset.sum_eq_zero fun a ha => by rw [hnone a ha,zero_mul]] at this
    exact absurd htpos (not_lt.mpr this)
  have hqpos : 0<∑ b∈cols,q b := hppos.trans_le hbank
  -- both parts get the same weight, since each secures the bank's weight times the other's
  have hbalance : t*∑ b∈cols,q b≤t*∑ a∈rows,p a := by
    calc t*∑ b∈cols,q b=∑ b∈cols,q b*t := by rw [Finset.mul_sum]; simp only [mul_comm]
      _≤∑ b∈cols,q b*∑ a∈rows,p a*M a b :=
        Finset.sum_le_sum fun b hb => mul_le_mul_of_nonneg_left (hcol b hb) (hq b)
      _=∑ a∈rows,p a*∑ b∈cols,q b*M a b := by
        simp only [Finset.mul_sum]
        rw [Finset.sum_comm]
        exact Finset.sum_congr rfl fun a _ => Finset.sum_congr rfl fun b _ => by ring
      _≤∑ a∈rows,p a*t :=
        Finset.sum_le_sum fun a ha => mul_le_mul_of_nonneg_left (hrow a ha) (hp a)
      _=t*∑ a∈rows,p a := by rw [Finset.mul_sum]; simp only [mul_comm]
  have hsame : ∑ b∈cols,q b=∑ a∈rows,p a := le_antisymm (le_of_mul_le_mul_left hbalance htpos) hbank
  refine ⟨t/∑ a∈rows,p a,⟨_,mixed_of_nonneg hp hp' hppos,fun b hb => ?_⟩,
    ⟨_,mixed_of_nonneg hq hq' hqpos,fun a ha => ?_⟩⟩
  · calc t/∑ a∈rows,p a≤(∑ a∈rows,p a*M a b)/∑ a∈rows,p a :=
          div_le_div_of_nonneg_right (hcol b hb) hppos.le
      _=∑ a∈rows,p a/(∑ a∈rows,p a)*M a b := by
        rw [Finset.sum_div]
        exact Finset.sum_congr rfl fun a _ => by ring
  · calc ∑ b∈cols,q b/(∑ b∈cols,q b)*M a b=(∑ b∈cols,q b*M a b)/∑ b∈cols,q b := by
          rw [Finset.sum_div]
          exact Finset.sum_congr rfl fun b _ => by ring
      _≤t/∑ a∈rows,p a := by
        rw [hsame]
        exact div_le_div_of_nonneg_right (hrow a ha) hppos.le

/-- Every matrix game has a value. -/
theorem exists_value (hrows : rows.Nonempty) (hcols : cols.Nonempty) (M : A → B → 𝕜) :
    ∃ v,IsValue rows cols M v := by
  let k := 1+∑ a∈rows,∑ b∈cols,|M a b|
  have hshift : ∀ a∈rows,∀ b∈cols,0<M a b+k := by
    intro a ha b hb
    have hrow : ∑ b∈cols,|M a b|≤∑ a∈rows,∑ b∈cols,|M a b| :=
      Finset.single_le_sum (f := fun a => ∑ b∈cols,|M a b|)
        (fun a _ => Finset.sum_nonneg fun b _ => abs_nonneg _) ha
    have hentry : |M a b|≤∑ b∈cols,|M a b| :=
      Finset.single_le_sum (f := fun b => |M a b|) (fun b _ => abs_nonneg _) hb
    have := neg_abs_le (M a b)
    change 0<M a b+(1+∑ a∈rows,∑ b∈cols,|M a b|)
    linarith
  obtain ⟨v,hv⟩ := exists_value_of_pos hrows hcols hshift
  exact ⟨_,(hv.affine (-k) zero_le_one).congr fun a _ b _ => by ring⟩

/-- What a row strategy secures and no row strategy can beat is the value. -/
theorem isValue_of_maximin {v : 𝕜} {x : A → 𝕜} (hcols : cols.Nonempty) (hx : Mixed rows x)
    (hv : ∀ b∈cols,v≤∑ a∈rows,x a*M a b)
    (hbest : ∀ x',Mixed rows x' → ∃ b∈cols,∑ a∈rows,x' a*M a b≤v) : IsValue rows cols M v := by
  have hrows : rows.Nonempty := by
    by_contra hempty
    have := hx.sum
    rw [Finset.not_nonempty_iff_eq_empty.mp hempty,Finset.sum_empty] at this
    exact zero_ne_one this
  obtain ⟨w,⟨x',hx',hw⟩,⟨y,hy,hw'⟩⟩ := exists_value hrows hcols M
  have hle : v≤w := secured_le hx hy hv hw'
  obtain ⟨b,hb,hbv⟩ := hbest x' hx'
  have hge : w≤v := (hw b hb).trans hbv
  exact ⟨⟨x,hx,hv⟩,⟨y,hy,fun a ha => (hw' a ha).trans hge⟩⟩

end Minimax

end KiClash.MatrixGames

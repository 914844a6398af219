import Mathlib.Algebra.Order.Archimedean.Real.Basic
import Mathlib.Algebra.Order.Round
import Mathlib.Tactic.FieldSimp
import Mathlib.Tactic.Linarith
import Mathlib.Tactic.NormNum
import Mathlib.Tactic.Push
import Mathlib.Tactic.Ring

/-!
# Rounding to decimal places

A library for numbers that are rounded to the nearest one with so many decimal places, where
of two that are equally near the one with an even last place is taken. It rests on what
singles out the nearest integer; the text of a rounded number determines it.
-/

namespace KiClash.DecimalRounding

variable {K : Type} [Field K] [LinearOrder K] [FloorRing K]

/-- The nearest integer; of two, the even one. -/
def roundHalfEven (x : K) : ℤ :=
  if Int.fract x<1-Int.fract x then ⌊x⌋
  else if Int.fract x=1-Int.fract x ∧ Even ⌊x⌋ then ⌊x⌋ else ⌊x⌋+1

/-- The nearest number with so many decimal places. -/
def roundDecimals (decimals : ℕ) (x : K) : K := (roundHalfEven (x*10^decimals) : ℤ)/10^decimals

/-- What singles out the nearest integer. -/
structure Nearest (x : K) (n : ℤ) : Prop where
  /-- None is nearer. -/
  near : |x-n|≤1/2
  /-- If another one is as near, this one is even. -/
  even : |x-n|=1/2 → Even n

variable [IsStrictOrderedRing K]

/-- It is nearest. -/
theorem nearest_roundHalfEven (x : K) : Nearest x (roundHalfEven x) := by
  have hfract : x=⌊x⌋+Int.fract x := (Int.floor_add_fract x).symm
  have hzero := Int.fract_nonneg x
  have hone := Int.fract_lt_one x
  unfold roundHalfEven
  split_ifs with hlow hhalf
  · have habs : |x-⌊x⌋|=Int.fract x := by
      rw [Int.self_sub_floor,abs_of_nonneg hzero]
    have hless : Int.fract x< 1/2 := by linarith
    exact ⟨habs ▸ hless.le,fun h => absurd (habs ▸ h) hless.ne⟩
  · have habs : |x-⌊x⌋|=Int.fract x := by
      rw [Int.self_sub_floor,abs_of_nonneg hzero]
    have hequal : Int.fract x=1/2 := by linarith [hhalf.1]
    exact ⟨(habs.trans hequal).le,fun _ => hhalf.2⟩
  · have habs : |x-((⌊x⌋+1 : ℤ) : K)|=1-Int.fract x := by
      push_cast
      rw [abs_of_nonpos (by linarith)]
      linarith
    have hge : 1/2≤Int.fract x := by linarith [not_lt.mp hlow]
    refine ⟨by rw [habs]; linarith,fun h => ?_⟩
    rw [habs] at h
    have hodd : ¬Even ⌊x⌋ := fun he => hhalf ⟨by linarith,he⟩
    exact Int.even_add_one.mpr hodd

/-- Only one integer is. -/
theorem Nearest.unique {x : K} {n m : ℤ} (h : Nearest x n) (h' : Nearest x m) : n=m := by
  by_contra hne
  wlog hlt : n< m generalizing n m
  · exact this h' h (Ne.symm hne) (lt_of_le_of_ne (not_lt.mp hlt) (Ne.symm hne))
  have hn := abs_le.mp h.near
  have hm := abs_le.mp h'.near
  -- they are neighbours, and both are half a unit away
  have hgap : (m : K)≤n+1 := by linarith
  have hnext : m=n+1 := by
    have hle : m≤n+1 := by exact_mod_cast hgap
    omega
  subst hnext
  push_cast at hm
  have hhalf : x-n=1/2 := by linarith
  have heven : Even n := h.even (by rw [hhalf,abs_of_pos one_half_pos])
  have heven' : Even (n+1) := by
    apply h'.even
    push_cast
    rw [show x-(n+1)=-(1/2) by linarith,abs_neg,abs_of_pos one_half_pos]
  exact Int.even_add_one.mp heven' heven

/-- The nearest integer is the one that is nearest. -/
theorem roundHalfEven_eq {x : K} {n : ℤ} (h : Nearest x n) : roundHalfEven x=n :=
  (nearest_roundHalfEven x).unique h

@[simp] theorem roundHalfEven_intCast (n : ℤ) : roundHalfEven (n : K)=n := by
  refine roundHalfEven_eq ⟨?_,fun h => ?_⟩
  · rw [sub_self,abs_zero]
    exact one_half_pos.le
  · rw [sub_self,abs_zero] at h
    exact absurd h.symm one_half_pos.ne'

/-- Mirrored at half an even integer, the nearest integer is mirrored as well. -/
theorem roundHalfEven_sub {n : ℤ} (hn : Even n) (x : K) :
    roundHalfEven (n-x)=n-roundHalfEven x := by
  obtain ⟨hnear,heven⟩ := nearest_roundHalfEven x
  have hsame : |n-x-((n-roundHalfEven x : ℤ) : K)|=|x-roundHalfEven x| := by
    push_cast
    rw [← abs_neg]
    congr 1
    ring
  exact roundHalfEven_eq ⟨hsame ▸ hnear,fun h => hn.sub (heven (hsame ▸ h))⟩

/-- Larger numbers are not rounded to smaller ones. -/
theorem roundHalfEven_mono {x y : K} (h : x≤y) : roundHalfEven x≤roundHalfEven y := by
  have hx := nearest_roundHalfEven x
  have hy := nearest_roundHalfEven y
  by_contra hlt
  have hstep : roundHalfEven y+1≤roundHalfEven x := not_le.mp hlt
  have hcast : ((roundHalfEven y : ℤ) : K)+1≤roundHalfEven x := by exact_mod_cast hstep
  have hnx := abs_le.mp hx.near
  have hny := abs_le.mp hy.near
  -- then both lie halfway between the two
  obtain rfl : x=y := le_antisymm h (by linarith)
  exact hlt le_rfl

/-- Rounding moves a number by at most half a unit of the last place. -/
theorem abs_roundDecimals_sub_le (decimals : ℕ) (x : K) :
    |roundDecimals decimals x-x|≤1/2/10^decimals := by
  have hpos : (0 : K)<10^decimals := by positivity
  have hnear := (nearest_roundHalfEven (x*10^decimals)).near
  have heq : roundDecimals decimals x-x=
      -((x*10^decimals-roundHalfEven (x*10^decimals))/10^decimals) := by
    unfold roundDecimals
    field_simp
    ring
  rw [heq,abs_neg,abs_div,abs_of_pos hpos]
  exact div_le_div_of_nonneg_right hnear hpos.le

/-- A number with few decimal places stays as it is. -/
theorem roundDecimals_div (decimals : ℕ) (n : ℤ) :
    roundDecimals decimals ((n : K)/10^decimals)=n/10^decimals := by
  have hpos : (10 : K)^decimals≠0 := by positivity
  rw [roundDecimals,div_mul_cancel₀ _ hpos,roundHalfEven_intCast]

/-- So nothing is rounded twice. -/
@[simp] theorem roundDecimals_idem (decimals : ℕ) (x : K) :
    roundDecimals decimals (roundDecimals decimals x)=roundDecimals decimals x :=
  roundDecimals_div decimals _

theorem roundDecimals_mono (decimals : ℕ) {x y : K} (h : x≤y) :
    roundDecimals decimals x≤roundDecimals decimals y := by
  have hpos : (0 : K)<10^decimals := by positivity
  have hle := roundHalfEven_mono (mul_le_mul_of_nonneg_right h hpos.le)
  exact div_le_div_of_nonneg_right (by exact_mod_cast hle) hpos.le

@[simp] theorem roundDecimals_zero (decimals : ℕ) : roundDecimals decimals (0 : K)=0 := by
  have h := roundDecimals_div (K := K) decimals 0
  simpa using h

@[simp] theorem roundDecimals_one (decimals : ℕ) : roundDecimals decimals (1 : K)=1 := by
  have h := roundDecimals_div (K := K) decimals (10^decimals)
  have hpos : (10 : K)^decimals≠0 := by positivity
  simpa [hpos] using h

/-- A share stays one. -/
theorem roundDecimals_bounds (decimals : ℕ) {x : K} (hzero : 0≤x) (hone : x≤1) :
    0≤roundDecimals decimals x ∧ roundDecimals decimals x≤1 := by
  have h := roundDecimals_mono decimals hzero
  have h' := roundDecimals_mono decimals hone
  rw [roundDecimals_zero] at h
  rw [roundDecimals_one] at h'
  exact ⟨h,h'⟩

/-- What is left of one is rounded to what is left of it, as ten is even. -/
theorem roundDecimals_one_sub {decimals : ℕ} (hd : decimals≠0) (x : K) :
    roundDecimals decimals (1-x)=1-roundDecimals decimals x := by
  have hpos : (10 : K)^decimals≠0 := by positivity
  have heven : Even ((10 : ℤ)^decimals) := (show Even (10 : ℤ) by decide).pow_of_ne_zero hd
  have hscale : (1-x)*10^decimals=((10^decimals : ℤ) : K)-x*10^decimals := by
    push_cast
    ring
  unfold roundDecimals
  rw [hscale,roundHalfEven_sub heven]
  push_cast
  field_simp

section Texts

/-- So many digits of a number, the lowest ones. -/
def digitsOf : ℕ → ℕ → List Char
  | 0,_ => []
  | width+1,n => digitsOf width (n/10)++[Nat.digitChar (n%10)]

/-- A number of units of the last place, written with its decimal point. -/
def fixedPoint (decimals : ℕ) (n : ℤ) : String :=
  (if n< 0 then "-" else "")++toString (n.natAbs/10^decimals)++"."++
    String.ofList (digitsOf decimals (n.natAbs%10^decimals))

/-- The text of a number that is rounded. -/
def formatDecimals (decimals : ℕ) (x : K) : String :=
  fixedPoint decimals (roundHalfEven (x*10^decimals))

@[simp] theorem digitsOf_length (width n : ℕ) : (digitsOf width n).length=width := by
  induction width generalizing n with
  | zero => rfl
  | succ width ih => simp [digitsOf,ih]

theorem digitChar_inj {n m : ℕ} (hn : n< 10) (hm : m< 10)
    (h : Nat.digitChar n=Nat.digitChar m) : n=m := by
  have hall : ∀ n : Fin 10,∀ m : Fin 10,Nat.digitChar n=Nat.digitChar m → n=m := by decide
  exact congrArg Fin.val (hall ⟨n,hn⟩ ⟨m,hm⟩ h)

/-- The digits determine a number that has no more. -/
theorem digitsOf_inj {width n m : ℕ} (hn : n< 10^width) (hm : m< 10^width)
    (h : digitsOf width n=digitsOf width m) : n=m := by
  induction width generalizing n m with
  | zero =>
    rw [pow_zero] at hn hm
    omega
  | succ width ih =>
    obtain ⟨hrest,hlast⟩ := List.append_inj' h rfl
    have hlow := digitChar_inj (Nat.mod_lt n (by norm_num)) (Nat.mod_lt m (by norm_num))
      (List.cons.inj hlast).1
    rw [pow_succ] at hn hm
    have hhigh := ih (by omega) (by omega) hrest
    omega

/-- The text of a number without a sign determines its units. -/
theorem fixedPoint_inj {decimals : ℕ} {n m : ℤ} (hn : 0≤n) (hm : 0≤ m)
    (h : fixedPoint decimals n=fixedPoint decimals m) : n=m := by
  unfold fixedPoint at h
  rw [if_neg (not_lt.mpr hn),if_neg (not_lt.mpr hm)] at h
  have hlist := congrArg String.toList h
  simp only [String.toList_append,String.toList_ofList] at hlist
  obtain ⟨hfront,hback⟩ := List.append_inj' hlist (by simp)
  obtain ⟨hwhole,-⟩ := List.append_inj' hfront rfl
  have hquotient : n.natAbs/10^decimals=m.natAbs/10^decimals := by
    have hdigits := congrArg (fun text => Nat.ofDigitChars 10 text 0) (List.append_cancel_left hwhole)
    simpa [Nat.toString_eq_repr,Nat.repr,Nat.ofDigitChars_ten_toDigits] using hdigits
  have hrest := digitsOf_inj (Nat.mod_lt _ (by positivity)) (Nat.mod_lt _ (by positivity)) hback
  have hsame : n.natAbs=m.natAbs := by
    rw [← Nat.div_add_mod n.natAbs (10^decimals),← Nat.div_add_mod m.natAbs (10^decimals),
      hquotient,hrest]
  omega

end Texts


end KiClash.DecimalRounding

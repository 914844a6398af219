import KiClash.MatrixGames

/-!
# Finite games with simultaneous moves

A library for games that two players play in stages: in each stage both choose
at once, both see what was chosen, and the pair of choices decides how the game
goes on. A strategy may randomize and may depend on everything that has been
chosen so far. What a game is worth is built up from its last stages: a stage
is a matrix game whose entries are the worths of what follows. Games can be
played one after another, with full memory of the earlier ones.
-/

namespace KiClash.SimultaneousGames

open MatrixGames

variable {A B C O O' 𝕜 : Type*}

/-- A finite game: an outcome, or a stage with the actions that each player has
and the game that each pair of actions leads to. -/
inductive Game (A B O : Type*)
  | leaf (outcome : O)
  | stage (rows : Finset A) (cols : Finset B) (next : A → B → Game A B O)

/-- How a player with actions C chooses: weights that depend on the pairs of
actions so far, oldest first. -/
abbrev Strategy (A B C 𝕜 : Type*) := List (A×B) → C → 𝕜

/-- The strategy for the rest of the game, once a pair of actions was played. -/
def Strategy.after (σ : Strategy A B C 𝕜) (a : A) (b : B) : Strategy A B C 𝕜 :=
  fun history => σ ((a,b)::history)

/-- A strategy that starts with the given weights and then goes on as the
strategy chosen for the first pair of actions. -/
def Strategy.start (x : C → 𝕜) (rest : A → B → Strategy A B C 𝕜) : Strategy A B C 𝕜
  | [] => x
  | (a,b)::history => rest a b history

namespace Game

/-- The game is over after at most n stages. -/
def Within : Game A B O → ℕ → Prop
  | leaf _,_ => True
  | stage _ _ _,0 => False
  | stage rows cols next,n+1 => ∀ a∈rows,∀ b∈cols,(next a b).Within n

/-- Play one game and then the game for its outcome. -/
def bind : Game A B O → (O → Game A B O') → Game A B O'
  | leaf outcome,f => f outcome
  | stage rows cols next,f => stage rows cols fun a b => (next a b).bind f

/-- The predicate holds of every outcome of the game together with the strategy
for what comes after it. -/
def AtLeaves (P : O → Strategy A B C 𝕜 → Prop) : Game A B O → Strategy A B C 𝕜 → Prop
  | leaf outcome,σ => P outcome σ
  | stage rows cols next,σ => ∀ a∈rows,∀ b∈cols,(next a b).AtLeaves P (σ.after a b)

/-- Play the given strategy in the game and then the one for its outcome. -/
def splice : Game A B O → Strategy A B C 𝕜 → (O → Strategy A B C 𝕜) → Strategy A B C 𝕜
  | leaf outcome,_,rest => rest outcome
  | stage _ _ next,σ,rest => .start (σ []) fun a b => (next a b).splice (σ.after a b) rest

/-- The same game up to what follows actions that nobody has. -/
inductive Agree : Game A B O → Game A B O → Prop
  | leaf (outcome : O) : Agree (leaf outcome) (leaf outcome)
  | stage {rows : Finset A} {cols : Finset B} {next next' : A → B → Game A B O}
      (h : ∀ a∈rows,∀ b∈cols,Agree (next a b) (next' a b)) :
      Agree (stage rows cols next) (stage rows cols next')

section Play

variable [Field 𝕜] [LinearOrder 𝕜]

/-- The row player's strategy mixes the actions he has in every stage. -/
def RowPlays : Game A B O → Strategy A B A 𝕜 → Prop
  | leaf _,_ => True
  | stage rows cols next,σ =>
    Mixed rows (σ []) ∧ ∀ a∈rows,∀ b∈cols,(next a b).RowPlays (σ.after a b)

/-- The column player's strategy mixes the actions he has in every stage. -/
def ColPlays : Game A B O → Strategy A B B 𝕜 → Prop
  | leaf _,_ => True
  | stage rows cols next,τ =>
    Mixed cols (τ []) ∧ ∀ a∈rows,∀ b∈cols,(next a b).ColPlays (τ.after a b)

/-- In every stage the row strategy gives each action at least the share κ of
the weight that another one gives it. -/
def Retains (κ : 𝕜) : Game A B O → Strategy A B A 𝕜 → Strategy A B A 𝕜 → Prop
  | leaf _,_,_ => True
  | stage rows cols next,σ,σ' =>
    (∀ a∈rows,κ*σ' [] a≤σ [] a) ∧
      ∀ a∈rows,∀ b∈cols,(next a b).Retains κ (σ.after a b) (σ'.after a b)

/-- The expected payoff of the row player. -/
def expected (u : O → 𝕜) : Game A B O → Strategy A B A 𝕜 → Strategy A B B 𝕜 → 𝕜
  | leaf outcome,_,_ => u outcome
  | stage rows cols next,σ,τ =>
    ∑ a∈rows,σ [] a*∑ b∈cols,τ [] b*(next a b).expected u (σ.after a b) (τ.after a b)

/-- The row strategy gets at least v, whatever the column player does. -/
structure Secures (u : O → 𝕜) (g : Game A B O) (v : 𝕜) (σ : Strategy A B A 𝕜) : Prop where
  /-- It is a strategy for the game. -/
  plays : g.RowPlays σ
  /-- It gets so much. -/
  secures : ∀ τ,g.ColPlays τ → v≤g.expected u σ τ

/-- The column strategy concedes at most v, whatever the row player does. -/
structure Holds (u : O → 𝕜) (g : Game A B O) (v : 𝕜) (τ : Strategy A B B 𝕜) : Prop where
  /-- It is a strategy for the game. -/
  plays : g.ColPlays τ
  /-- It concedes no more. -/
  holds : ∀ σ,g.RowPlays σ → g.expected u σ τ≤v

/-- What the row player can secure and the column player can hold him to. -/
structure Worth (u : O → 𝕜) (g : Game A B O) (v : 𝕜) : Prop where
  /-- Some row strategy secures it. -/
  secures : ∃ σ,Secures u g v σ
  /-- Some column strategy holds the row player to it. -/
  holds : ∃ τ,Holds u g v τ

end Play

section Rules

variable [Field 𝕜] [LinearOrder 𝕜] [IsStrictOrderedRing 𝕜]
  {u : O → 𝕜} {rows : Finset A} {cols : Finset B} {next : A → B → Game A B O}
  {w : A → B → 𝕜} {v : 𝕜}

omit [IsStrictOrderedRing 𝕜] in
/-- A game that is over. -/
theorem secures_leaf (outcome : O) (σ : Strategy A B A 𝕜) :
    Secures u (leaf outcome) (u outcome) σ := ⟨True.intro,fun _ _ => le_rfl⟩

omit [IsStrictOrderedRing 𝕜] in
theorem holds_leaf (outcome : O) (τ : Strategy A B B 𝕜) :
    Holds u (leaf outcome) (u outcome) τ := ⟨True.intro,fun _ _ => le_rfl⟩

omit [IsStrictOrderedRing 𝕜] in
/-- A game that is over is worth its payoff. -/
theorem worth_leaf (outcome : O) :
    Worth u (leaf outcome : Game A B O) (u outcome) :=
  ⟨⟨fun _ _ => 0,secures_leaf outcome _⟩,⟨fun _ _ => 0,holds_leaf outcome _⟩⟩

/-- The row player's rule for a stage: the weights secure v in the matrix game
of what the strategy secures afterwards. -/
theorem secures_stage {σ : Strategy A B A 𝕜} (hx : Mixed rows (σ []))
    (hnext : ∀ a∈rows,∀ b∈cols,Secures u (next a b) (w a b) (σ.after a b))
    (hv : ∀ b∈cols,v≤∑ a∈rows,σ [] a*w a b) : Secures u (stage rows cols next) v σ where
  plays := ⟨hx,fun a ha b hb => (hnext a ha b hb).plays⟩
  secures τ hτ := by
    obtain ⟨hy,hrest⟩ := hτ
    calc v≤∑ b∈cols,τ [] b*∑ a∈rows,σ [] a*w a b := hy.le_sum hv
      _=∑ a∈rows,σ [] a*∑ b∈cols,τ [] b*w a b := by
        simp only [Finset.mul_sum]
        rw [Finset.sum_comm]
        exact Finset.sum_congr rfl fun a _ => Finset.sum_congr rfl fun b _ => by ring
      _≤∑ a∈rows,σ [] a*∑ b∈cols,τ [] b*(next a b).expected u (σ.after a b) (τ.after a b) := by
        refine Finset.sum_le_sum fun a ha => mul_le_mul_of_nonneg_left ?_ (hx.nonneg a)
        refine Finset.sum_le_sum fun b hb => mul_le_mul_of_nonneg_left ?_ (hy.nonneg b)
        exact (hnext a ha b hb).secures _ (hrest a ha b hb)

/-- The column player's rule for a stage. -/
theorem holds_stage {τ : Strategy A B B 𝕜} (hy : Mixed cols (τ []))
    (hnext : ∀ a∈rows,∀ b∈cols,Holds u (next a b) (w a b) (τ.after a b))
    (hv : ∀ a∈rows,∑ b∈cols,τ [] b*w a b≤v) : Holds u (stage rows cols next) v τ where
  plays := ⟨hy,fun a ha b hb => (hnext a ha b hb).plays⟩
  holds σ hσ := by
    obtain ⟨hx,hrest⟩ := hσ
    calc ∑ a∈rows,σ [] a*∑ b∈cols,τ [] b*(next a b).expected u (σ.after a b) (τ.after a b)
        ≤∑ a∈rows,σ [] a*∑ b∈cols,τ [] b*w a b := by
          refine Finset.sum_le_sum fun a ha => mul_le_mul_of_nonneg_left ?_ (hx.nonneg a)
          refine Finset.sum_le_sum fun b hb => mul_le_mul_of_nonneg_left ?_ (hy.nonneg b)
          exact (hnext a ha b hb).holds _ (hrest a ha b hb)
      _≤v := hx.sum_le hv

/-- The worth of a stage is the value of the matrix game of the worths of what
follows. -/
theorem worth_stage (hnext : ∀ a∈rows,∀ b∈cols,Worth u (next a b) (w a b))
    (hvalue : IsValue rows cols w v) : Worth u (stage rows cols next) v := by
  classical
  obtain ⟨⟨x,hx,hv⟩,⟨y,hy,hv'⟩⟩ := hvalue
  have hrow : ∀ a b,∃ σ : Strategy A B A 𝕜,a∈rows → b∈cols → Secures u (next a b) (w a b) σ := by
    intro a b
    by_cases hab : a∈rows ∧ b∈cols
    · obtain ⟨σ,hσ⟩ := (hnext a hab.1 b hab.2).secures
      exact ⟨σ,fun _ _ => hσ⟩
    · exact ⟨fun _ _ => 0,fun ha hb => absurd ⟨ha,hb⟩ hab⟩
  have hcol : ∀ a b,∃ τ : Strategy A B B 𝕜,a∈rows → b∈cols → Holds u (next a b) (w a b) τ := by
    intro a b
    by_cases hab : a∈rows ∧ b∈cols
    · obtain ⟨τ,hτ⟩ := (hnext a hab.1 b hab.2).holds
      exact ⟨τ,fun _ _ => hτ⟩
    · exact ⟨fun _ _ => 0,fun ha hb => absurd ⟨ha,hb⟩ hab⟩
  choose σ hσ using hrow
  choose τ hτ using hcol
  refine ⟨⟨.start x σ,secures_stage hx ?_ hv⟩,⟨.start y τ,holds_stage hy ?_ hv'⟩⟩
  · exact fun a ha b hb => hσ a b ha hb
  · exact fun a ha b hb => hτ a b ha hb

omit [IsStrictOrderedRing 𝕜] in
/-- What is secured is at most what is conceded. -/
theorem Secures.le {g : Game A B O} {v w : 𝕜} {σ : Strategy A B A 𝕜} {τ : Strategy A B B 𝕜}
    (hσ : Secures u g v σ) (hτ : Holds u g w τ) : v≤w :=
  (hσ.secures τ hτ.plays).trans (hτ.holds σ hσ.plays)

omit [IsStrictOrderedRing 𝕜] in
/-- A game has at most one worth. -/
theorem Worth.unique {g : Game A B O} {v w : 𝕜} (h : Worth u g v) (h' : Worth u g w) : v=w := by
  obtain ⟨⟨σ,hσ⟩,⟨τ,hτ⟩⟩ := h
  obtain ⟨⟨σ',hσ'⟩,⟨τ',hτ'⟩⟩ := h'
  exact le_antisymm (hσ.le hτ') (hσ'.le hτ)

omit [IsStrictOrderedRing 𝕜] in
/-- Payoffs on another scale. -/
theorem expected_affine {g : Game A B O} {σ : Strategy A B A 𝕜} {τ : Strategy A B B 𝕜}
    (hσ : g.RowPlays σ) (hτ : g.ColPlays τ) (c k : 𝕜) :
    g.expected (fun o => c+k*u o) σ τ=c+k*g.expected u σ τ := by
  induction g generalizing σ τ with
  | leaf outcome => rfl
  | stage rows cols next ih =>
    obtain ⟨hx,hσ⟩ := hσ
    obtain ⟨hy,hτ⟩ := hτ
    have hinner : ∀ a∈rows,
        ∑ b∈cols,τ [] b*(next a b).expected (fun o => c+k*u o) (σ.after a b) (τ.after a b)=
          c+k*∑ b∈cols,τ [] b*(next a b).expected u (σ.after a b) (τ.after a b) := by
      intro a ha
      rw [← hy.sum_affine]
      exact Finset.sum_congr rfl fun b hb => by rw [ih a b (hσ a ha b hb) (hτ a ha b hb)]
    simp only [expected]
    rw [← hx.sum_affine]
    exact Finset.sum_congr rfl fun a ha => by rw [hinner a ha]

/-- A strategy secures the same on another scale. -/
theorem Secures.affine {g : Game A B O} {v : 𝕜} {σ : Strategy A B A 𝕜} (h : Secures u g v σ)
    (c : 𝕜) {k : 𝕜} (hk : 0≤k) : Secures (fun o => c+k*u o) g (c+k*v) σ where
  plays := h.plays
  secures τ hτ := by
    rw [expected_affine h.plays hτ]
    exact add_le_add_right (mul_le_mul_of_nonneg_left (h.secures τ hτ) hk) c

theorem Holds.affine {g : Game A B O} {v : 𝕜} {τ : Strategy A B B 𝕜} (h : Holds u g v τ)
    (c : 𝕜) {k : 𝕜} (hk : 0≤k) : Holds (fun o => c+k*u o) g (c+k*v) τ where
  plays := h.plays
  holds σ hσ := by
    rw [expected_affine hσ h.plays]
    exact add_le_add_right (mul_le_mul_of_nonneg_left (h.holds σ hσ) hk) c

/-- A game is worth the same on another scale. -/
theorem Worth.affine {g : Game A B O} {v : 𝕜} (h : Worth u g v) (c : 𝕜) {k : 𝕜} (hk : 0≤k) :
    Worth (fun o => c+k*u o) g (c+k*v) := by
  obtain ⟨⟨σ,hσ⟩,⟨τ,hτ⟩⟩ := h
  exact ⟨⟨σ,hσ.affine c hk⟩,⟨τ,hτ.affine c hk⟩⟩

section Sequence

variable {u' : O' → 𝕜} {worth : O → 𝕜} {f : O → Game A B O'}

omit [IsStrictOrderedRing 𝕜] in
/-- A column strategy for a sequence of games is one for the first of them. -/
theorem ColPlays.of_bind {g : Game A B O} {τ : Strategy A B B 𝕜} (h : (g.bind f).ColPlays τ) :
    g.ColPlays τ := by
  induction g generalizing τ with
  | leaf outcome => exact True.intro
  | stage rows cols next ih => exact ⟨h.1,fun a ha b hb => ih a b (h.2 a ha b hb)⟩

omit [IsStrictOrderedRing 𝕜] in
theorem RowPlays.of_bind {g : Game A B O} {σ : Strategy A B A 𝕜} (h : (g.bind f).RowPlays σ) :
    g.RowPlays σ := by
  induction g generalizing σ with
  | leaf outcome => exact True.intro
  | stage rows cols next ih => exact ⟨h.1,fun a ha b hb => ih a b (h.2 a ha b hb)⟩

omit [IsStrictOrderedRing 𝕜] in
/-- A row strategy for the first game that goes on with one for each following. -/
theorem RowPlays.bind {g : Game A B O} {σ : Strategy A B A 𝕜} (h : g.RowPlays σ)
    (hrest : g.AtLeaves (fun outcome σ' => (f outcome).RowPlays σ') σ) :
    (g.bind f).RowPlays σ := by
  induction g generalizing σ with
  | leaf outcome => exact hrest
  | stage rows cols next ih =>
    exact ⟨h.1,fun a ha b hb => ih a b (h.2 a ha b hb) (hrest a ha b hb)⟩

omit [IsStrictOrderedRing 𝕜] in
theorem ColPlays.bind {g : Game A B O} {τ : Strategy A B B 𝕜} (h : g.ColPlays τ)
    (hrest : g.AtLeaves (fun outcome τ' => (f outcome).ColPlays τ') τ) :
    (g.bind f).ColPlays τ := by
  induction g generalizing τ with
  | leaf outcome => exact hrest
  | stage rows cols next ih =>
    exact ⟨h.1,fun a ha b hb => ih a b (h.2 a ha b hb) (hrest a ha b hb)⟩

omit [Field 𝕜] [LinearOrder 𝕜] [IsStrictOrderedRing 𝕜] in
/-- What holds at the leaves may be weakened. -/
theorem AtLeaves.mono {P Q : O → Strategy A B C 𝕜 → Prop} {g : Game A B O}
    {σ : Strategy A B C 𝕜} (h : g.AtLeaves P σ) (hPQ : ∀ outcome σ',P outcome σ' → Q outcome σ') :
    g.AtLeaves Q σ := by
  induction g generalizing σ with
  | leaf outcome => exact hPQ outcome σ h
  | stage rows cols next ih => exact fun a ha b hb => ih a b (h a ha b hb)

/-- What the row player gets in a sequence of games, when he secures in each
following game what its outcome counts. -/
theorem expected_le_bind {g : Game A B O} {σ : Strategy A B A 𝕜} {τ : Strategy A B B 𝕜}
    (hσ : g.RowPlays σ) (hτ : (g.bind f).ColPlays τ)
    (hrest : g.AtLeaves (fun outcome σ' => Secures u' (f outcome) (worth outcome) σ') σ) :
    g.expected worth σ τ≤(g.bind f).expected u' σ τ := by
  induction g generalizing σ τ with
  | leaf outcome => exact hrest.secures τ hτ
  | stage rows cols next ih =>
    obtain ⟨hx,hσ⟩ := hσ
    obtain ⟨hy,hτ⟩ := hτ
    refine Finset.sum_le_sum fun a ha => mul_le_mul_of_nonneg_left ?_ (hx.nonneg a)
    refine Finset.sum_le_sum fun b hb => mul_le_mul_of_nonneg_left ?_ (hy.nonneg b)
    exact ih a b (hσ a ha b hb) (hτ a ha b hb) (hrest a ha b hb)

/-- What the column player concedes in a sequence of games. -/
theorem bind_le_expected {g : Game A B O} {σ : Strategy A B A 𝕜} {τ : Strategy A B B 𝕜}
    (hσ : (g.bind f).RowPlays σ) (hτ : g.ColPlays τ)
    (hrest : g.AtLeaves (fun outcome τ' => Holds u' (f outcome) (worth outcome) τ') τ) :
    (g.bind f).expected u' σ τ≤g.expected worth σ τ := by
  induction g generalizing σ τ with
  | leaf outcome => exact hrest.holds σ hσ
  | stage rows cols next ih =>
    obtain ⟨hx,hσ⟩ := hσ
    obtain ⟨hy,hτ⟩ := hτ
    refine Finset.sum_le_sum fun a ha => mul_le_mul_of_nonneg_left ?_ (hx.nonneg a)
    refine Finset.sum_le_sum fun b hb => mul_le_mul_of_nonneg_left ?_ (hy.nonneg b)
    exact ih a b (hσ a ha b hb) (hτ a ha b hb) (hrest a ha b hb)

/-- One game after another: a strategy that secures v when the outcomes count
what it secures in the following games secures v in the whole. -/
theorem Secures.bind {g : Game A B O} {v : 𝕜} {σ : Strategy A B A 𝕜} (h : Secures worth g v σ)
    (hrest : g.AtLeaves (fun outcome σ' => Secures u' (f outcome) (worth outcome) σ') σ) :
    Secures u' (g.bind f) v σ where
  plays := h.plays.bind (hrest.mono fun _ _ hs => hs.plays)
  secures τ hτ := (h.secures τ hτ.of_bind).trans (expected_le_bind h.plays hτ hrest)

theorem Holds.bind {g : Game A B O} {v : 𝕜} {τ : Strategy A B B 𝕜} (h : Holds worth g v τ)
    (hrest : g.AtLeaves (fun outcome τ' => Holds u' (f outcome) (worth outcome) τ') τ) :
    Holds u' (g.bind f) v τ where
  plays := h.plays.bind (hrest.mono fun _ _ hs => hs.plays)
  holds σ hσ := (bind_le_expected hσ h.plays hrest).trans (h.holds σ hσ.of_bind)

omit [Field 𝕜] [LinearOrder 𝕜] [IsStrictOrderedRing 𝕜] in
/-- After a spliced strategy for a game comes the strategy for its outcome. -/
theorem atLeaves_splice {P : O → Strategy A B C 𝕜 → Prop} (g : Game A B O)
    (σ : Strategy A B C 𝕜) {rest : O → Strategy A B C 𝕜} (h : ∀ outcome,P outcome (rest outcome)) :
    g.AtLeaves P (g.splice σ rest) := by
  induction g generalizing σ with
  | leaf outcome => exact h outcome
  | stage rows cols next ih => exact fun a _ b _ => ih a b (σ.after a b)

omit [IsStrictOrderedRing 𝕜] in
theorem Secures.splice {g : Game A B O} {v : 𝕜} {σ : Strategy A B A 𝕜} (h : Secures u g v σ)
    (rest : O → Strategy A B A 𝕜) : Secures u g v (g.splice σ rest) := by
  have hsame : ∀ (g : Game A B O) (σ : Strategy A B A 𝕜),
      (g.RowPlays σ → g.RowPlays (g.splice σ rest)) ∧
        ∀ τ,g.expected u (g.splice σ rest) τ=g.expected u σ τ := by
    intro g
    induction g with
    | leaf outcome => exact fun σ => ⟨fun _ => True.intro,fun _ => rfl⟩
    | stage rows cols next ih =>
      refine fun σ => ⟨fun hσ => ⟨hσ.1,fun a ha b hb => ?_⟩,fun τ => ?_⟩
      · exact (ih a b (σ.after a b)).1 (hσ.2 a ha b hb)
      · refine Finset.sum_congr rfl fun a _ => congrArg _ (Finset.sum_congr rfl fun b _ => ?_)
        exact congrArg _ ((ih a b (σ.after a b)).2 _)
  refine ⟨(hsame g σ).1 h.plays,fun τ hτ => ?_⟩
  rw [(hsame g σ).2]
  exact h.secures τ hτ

omit [IsStrictOrderedRing 𝕜] in
theorem Holds.splice {g : Game A B O} {v : 𝕜} {τ : Strategy A B B 𝕜} (h : Holds u g v τ)
    (rest : O → Strategy A B B 𝕜) : Holds u g v (g.splice τ rest) := by
  have hsame : ∀ (g : Game A B O) (τ : Strategy A B B 𝕜),
      (g.ColPlays τ → g.ColPlays (g.splice τ rest)) ∧
        ∀ σ,g.expected u σ (g.splice τ rest)=g.expected u σ τ := by
    intro g
    induction g with
    | leaf outcome => exact fun τ => ⟨fun _ => True.intro,fun _ => rfl⟩
    | stage rows cols next ih =>
      refine fun τ => ⟨fun hτ => ⟨hτ.1,fun a ha b hb => ?_⟩,fun σ => ?_⟩
      · exact (ih a b (τ.after a b)).1 (hτ.2 a ha b hb)
      · refine Finset.sum_congr rfl fun a _ => congrArg _ (Finset.sum_congr rfl fun b _ => ?_)
        exact congrArg _ ((ih a b (τ.after a b)).2 _)
  refine ⟨(hsame g τ).1 h.plays,fun σ hσ => ?_⟩
  rw [(hsame g τ).2]
  exact h.holds σ hσ

/-- A sequence of games is worth what the first is worth when each outcome
counts what the game after it is worth. -/
theorem Worth.bind {g : Game A B O} {v : 𝕜} (h : Worth worth g v)
    (hrest : ∀ outcome,Worth u' (f outcome) (worth outcome)) : Worth u' (g.bind f) v := by
  obtain ⟨⟨σ,hσ⟩,⟨τ,hτ⟩⟩ := h
  choose σ' hσ' using fun outcome => (hrest outcome).secures
  choose τ' hτ' using fun outcome => (hrest outcome).holds
  exact ⟨⟨_,(hσ.splice σ').bind (atLeaves_splice g σ hσ')⟩,
    ⟨_,(hτ.splice τ').bind (atLeaves_splice g τ hτ')⟩⟩

end Sequence

section Comparison

omit [IsStrictOrderedRing 𝕜] in
theorem Agree.symm {g g' : Game A B O} (h : Agree g g') : Agree g' g := by
  induction h with
  | leaf outcome => exact .leaf outcome
  | stage _ ih => exact .stage ih

omit [IsStrictOrderedRing 𝕜] in
theorem Agree.rowPlays {g g' : Game A B O} (h : Agree g g') {σ : Strategy A B A 𝕜}
    (hσ : g.RowPlays σ) : g'.RowPlays σ := by
  induction h generalizing σ with
  | leaf outcome => exact True.intro
  | stage _ ih => exact ⟨hσ.1,fun a ha b hb => ih a ha b hb (hσ.2 a ha b hb)⟩

omit [IsStrictOrderedRing 𝕜] in
theorem Agree.colPlays {g g' : Game A B O} (h : Agree g g') {τ : Strategy A B B 𝕜}
    (hτ : g.ColPlays τ) : g'.ColPlays τ := by
  induction h generalizing τ with
  | leaf outcome => exact True.intro
  | stage _ ih => exact ⟨hτ.1,fun a ha b hb => ih a ha b hb (hτ.2 a ha b hb)⟩

omit [LinearOrder 𝕜] [IsStrictOrderedRing 𝕜] in
/-- Games that agree have the same expected payoffs. -/
theorem Agree.expected_eq {g g' : Game A B O} (h : Agree g g') (σ : Strategy A B A 𝕜)
    (τ : Strategy A B B 𝕜) : g.expected u σ τ=g'.expected u σ τ := by
  induction h generalizing σ τ with
  | leaf outcome => rfl
  | stage _ ih =>
    refine Finset.sum_congr rfl fun a ha => congrArg _ (Finset.sum_congr rfl fun b hb => ?_)
    rw [ih a ha b hb]

omit [IsStrictOrderedRing 𝕜] in
/-- What is secured in a game is secured in one that agrees with it. -/
theorem Agree.secures {g g' : Game A B O} (h : Agree g g') {σ : Strategy A B A 𝕜}
    (hσ : Secures u g v σ) : Secures u g' v σ where
  plays := h.rowPlays hσ.plays
  secures τ hτ := h.expected_eq σ τ ▸ hσ.secures τ (h.symm.colPlays hτ)

omit [IsStrictOrderedRing 𝕜] in
theorem Agree.holds {g g' : Game A B O} (h : Agree g g') {τ : Strategy A B B 𝕜}
    (hτ : Holds u g v τ) : Holds u g' v τ where
  plays := h.colPlays hτ.plays
  holds σ hσ := h.expected_eq σ τ ▸ hτ.holds σ (h.symm.rowPlays hσ)

omit [IsStrictOrderedRing 𝕜] in
theorem Agree.worth {g g' : Game A B O} (h : Agree g g') (hw : Worth u g v) : Worth u g' v := by
  obtain ⟨⟨σ,hσ⟩,⟨τ,hτ⟩⟩ := hw
  exact ⟨⟨σ,h.secures hσ⟩,⟨τ,h.holds hτ⟩⟩

/-- Higher payoffs give a higher expectation. -/
theorem expected_mono {u' : O → 𝕜} (hu : ∀ outcome,u outcome≤u' outcome) {g : Game A B O}
    {σ : Strategy A B A 𝕜} {τ : Strategy A B B 𝕜} (hσ : g.RowPlays σ) (hτ : g.ColPlays τ) :
    g.expected u σ τ≤g.expected u' σ τ := by
  induction g generalizing σ τ with
  | leaf outcome => exact hu outcome
  | stage rows cols next ih =>
    refine Finset.sum_le_sum fun a ha => mul_le_mul_of_nonneg_left ?_ (hσ.1.nonneg a)
    refine Finset.sum_le_sum fun b hb => mul_le_mul_of_nonneg_left ?_ (hτ.1.nonneg b)
    exact ih a b (hσ.2 a ha b hb) (hτ.2 a ha b hb)

/-- A game with higher payoffs is worth more. -/
theorem Worth.mono {u' : O → 𝕜} (hu : ∀ outcome,u outcome≤u' outcome) {g : Game A B O} {v' : 𝕜}
    (h : Worth u g v) (h' : Worth u' g v') : v≤v' := by
  obtain ⟨σ,hσ⟩ := h.secures
  obtain ⟨τ,hτ⟩ := h'.holds
  calc v≤g.expected u σ τ := hσ.secures τ hτ.plays
    _≤g.expected u' σ τ := expected_mono hu hσ.plays hτ.plays
    _≤v' := hτ.holds σ hσ.plays

/-- Payoffs that are not negative have such an expectation. -/
theorem expected_nonneg (hu : ∀ outcome,0≤u outcome) {g : Game A B O} {σ : Strategy A B A 𝕜}
    {τ : Strategy A B B 𝕜} (hσ : g.RowPlays σ) (hτ : g.ColPlays τ) : 0≤g.expected u σ τ := by
  induction g generalizing σ τ with
  | leaf outcome => exact hu outcome
  | stage rows cols next ih =>
    refine Finset.sum_nonneg fun a ha => mul_nonneg (hσ.1.nonneg a) ?_
    refine Finset.sum_nonneg fun b hb => mul_nonneg (hτ.1.nonneg b) ?_
    exact ih a b (hσ.2 a ha b hb) (hτ.2 a ha b hb)

/-- A strategy that retains the share κ of another one in each of at most n
stages gets at least the share κ ^ n of its payoff, against everything. -/
theorem Retains.expected_le {κ : 𝕜} (hκ : 0≤κ) (hone : κ≤1) (hu : ∀ outcome,0≤u outcome)
    {g : Game A B O} {n : ℕ} (hn : g.Within n) {σ σ' : Strategy A B A 𝕜} (h : g.Retains κ σ σ')
    (hσ' : g.RowPlays σ') {τ : Strategy A B B 𝕜} (hτ : g.ColPlays τ) :
    κ^n*g.expected u σ' τ≤g.expected u σ τ := by
  induction g generalizing n σ σ' τ with
  | leaf outcome =>
    have hpow : κ^n≤1 := pow_le_one₀ hκ hone
    exact (mul_le_mul_of_nonneg_right hpow (hu outcome)).trans_eq (one_mul _)
  | stage rows cols next ih =>
    cases n with
    | zero => exact hn.elim
    | succ n =>
      simp only [expected,Finset.mul_sum]
      refine Finset.sum_le_sum fun a ha => Finset.sum_le_sum fun b hb => ?_
      have hrest := ih a b (hn a ha b hb) (h.2 a ha b hb) (hσ'.2 a ha b hb) (hτ.2 a ha b hb)
      have hpos := expected_nonneg hu (hσ'.2 a ha b hb) (hτ.2 a ha b hb)
      calc κ^(n+1)*(σ' [] a*(τ [] b*(next a b).expected u (σ'.after a b) (τ.after a b)))
          =κ*σ' [] a*(τ [] b*(κ^n*(next a b).expected u (σ'.after a b) (τ.after a b))) := by ring
        _≤σ [] a*(τ [] b*(κ^n*(next a b).expected u (σ'.after a b) (τ.after a b))) :=
          mul_le_mul_of_nonneg_right (h.1 a ha)
            (mul_nonneg (hτ.1.nonneg b) (mul_nonneg (pow_nonneg hκ n) hpos))
        _≤σ [] a*(τ [] b*(next a b).expected u (σ.after a b) (τ.after a b)) := by
          have hweight : 0≤σ [] a := (mul_nonneg hκ (hσ'.1.nonneg a)).trans (h.1 a ha)
          exact mul_le_mul_of_nonneg_left (mul_le_mul_of_nonneg_left hrest (hτ.1.nonneg b)) hweight

end Comparison

end Rules

end Game

end KiClash.SimultaneousGames

import Calculator.Proofs.Doubles

/-!
# The nearest decimal on a grid

The reals that round to a double form an interval around it. On a decimal grid
that has a point in it, one of the two neighbours of the double is such a
point, and the nearer one is the nearest of all, where the even one is taken
of two that are equally near.
-/

namespace Calculator.Decimal

/-- The exact value of a decimal. -/
def Scaled.value (decimal : Scaled) : ℚ :=
  decimal.digits * 10 ^ decimal.exponent

theorem zpow_eq_div {b : ℚ} (nonzero : b ≠ 0) (n : ℤ) : b ^ n = b ^ n.toNat / b ^ (-n).toNat := by
  rw [← zpow_natCast, ← zpow_natCast, ← zpow_sub₀ nonzero]
  congr 1
  omega

theorem Scaled.compareBinary_eq (decimal : Scaled) (mantissa : Nat) (exponent : Int) :
    decimal.compareBinary mantissa exponent =
      compare decimal.value ((mantissa : ℚ) * 2 ^ exponent) := by
  have ten (n : Nat) : (0 : ℚ) < 10 ^ n := by positivity
  have two (n : Nat) : (0 : ℚ) < 2 ^ n := by positivity
  let scale : ℚ := 10 ^ (-decimal.exponent).toNat * 2 ^ (-exponent).toNat
  have increasing : StrictMono fun n : Nat => (n : ℚ) / scale := by
    intro a b less
    exact div_lt_div_of_pos_right (Nat.cast_lt.2 less) (mul_pos (ten _) (two _))
  have left : decimal.value =
      ((decimal.digits * tenTo decimal.exponent.toNat * twoTo (-exponent).toNat : Nat) : ℚ) /
        scale := by
    rw [Scaled.value, zpow_eq_div (by norm_num)]
    simp only [tenTo, twoTo, Nat.pow_eq, Nat.cast_mul, Nat.cast_pow, Nat.cast_ofNat, scale]
    field_simp
  have right : (mantissa : ℚ) * 2 ^ exponent =
      ((mantissa * twoTo exponent.toNat * tenTo (-decimal.exponent).toNat : Nat) : ℚ) /
        scale := by
    rw [zpow_eq_div (by norm_num)]
    simp only [tenTo, twoTo, Nat.pow_eq, Nat.cast_mul, Nat.cast_pow, Nat.cast_ofNat, scale]
    field_simp
  rw [left, right, ← cmp_eq_compare, increasing.cmp_map_eq, cmp_eq_compare]
  rfl

theorem grid_pos (grid : Int) : (0 : ℚ) < 10 ^ grid :=
  zpow_pos (by norm_num) grid

theorem Scaled.value_mono {a b : Nat} (less : a ≤ b) (grid : Int) :
    Scaled.value ⟨a, grid⟩ ≤ Scaled.value ⟨b, grid⟩ :=
  mul_le_mul_of_nonneg_right (Nat.cast_le.2 less) (grid_pos grid).le

theorem Scaled.value_strictMono {a b : Nat} (less : a < b) (grid : Int) :
    Scaled.value ⟨a, grid⟩ < Scaled.value ⟨b, grid⟩ :=
  mul_lt_mul_of_pos_right (Nat.cast_lt.2 less) (grid_pos grid)

/-- A point of a grid is one of every finer grid. -/
theorem Scaled.value_of_le {coarse fine : Int} (finer : fine ≤ coarse) (n : Nat) :
    Scaled.value ⟨n, coarse⟩ = Scaled.value ⟨n * 10 ^ (coarse - fine).toNat, fine⟩ := by
  rw [Scaled.value, Scaled.value, Nat.cast_mul, mul_assoc]
  congr 1
  rw [Nat.cast_pow, Nat.cast_ofNat, ← zpow_natCast, ← zpow_add₀ (by norm_num)]
  congr 1
  dsimp only
  omega

theorem Scaled.stripZeros_eq_self {decimal : Scaled} (last : decimal.digits % 10 ≠ 0) :
    decimal.stripZeros = decimal := by
  rw [Scaled.stripZeros, dif_neg (fun divides => last divides.2)]

theorem Scaled.stripZeros_ten (grid : Int) : Scaled.stripZeros ⟨10, grid⟩ = ⟨1, grid + 1⟩ := by
  have divides : 0 < 10 ∧ 10 % 10 = 0 := by decide
  rw [Scaled.stripZeros, dif_pos divides,
    Scaled.stripZeros_eq_self (show 10 / 10 % 10 ≠ 0 by decide)]
  simp

namespace Binary

/-! ## The reals that round to a double -/

def value (x : Binary) : ℚ :=
  x.mantissa * 2 ^ x.exponent

/-- Halfway to the double below. -/
def low (x : Binary) : ℚ :=
  (x.mantissa - (if x.narrowBelow then 1 / 4 else 1 / 2)) * 2 ^ x.exponent

/-- Halfway to the double above. -/
def high (x : Binary) : ℚ :=
  (x.mantissa + 1 / 2) * 2 ^ x.exponent

/-- A real is nearer to the double than to any other; a tie goes to the even mantissa. -/
def Rounds (x : Binary) (v : ℚ) : Prop :=
  (x.low < v ∨ Even x.mantissa ∧ v = x.low) ∧ (v < x.high ∨ Even x.mantissa ∧ v = x.high)

/-- The parts of a finite double that is not zero. -/
structure Canonical (x : Binary) : Prop where
  positive : 0 < x.mantissa
  mantissa_lt : x.mantissa < 2 ^ 53
  least : -1074 ≤ x.exponent
  greatest : x.exponent ≤ 971
  normal : x.exponent = -1074 ∨ 2 ^ 52 ≤ x.mantissa
  narrow : x.narrowBelow = true → x.mantissa = 2 ^ 52

variable {x : Binary} {decimal : Scaled}

theorem unit_pos (exponent : Int) : (0 : ℚ) < 2 ^ exponent :=
  zpow_pos two_pos exponent

theorem readsBack_iff (positive : 0 < x.mantissa) :
    x.readsBack decimal = true ↔ x.Rounds decimal.value := by
  have quarter : (2 : ℚ) ^ (x.exponent - 2) = 2 ^ x.exponent / 4 := by
    rw [zpow_sub₀ (by norm_num)]
    norm_num
  have lowIs : (((if x.narrowBelow then 4 * x.mantissa - 1 else 4 * x.mantissa - 2 : Nat) : ℚ)) *
      2 ^ (x.exponent - 2) = x.low := by
    rw [quarter, low]
    split
    · rw [Nat.cast_sub (by omega)]
      push_cast
      ring
    · rw [Nat.cast_sub (by omega)]
      push_cast
      ring
  have highIs : ((4 * x.mantissa + 2 : Nat) : ℚ) * 2 ^ (x.exponent - 2) = x.high := by
    rw [quarter, high]
    push_cast
    ring
  unfold readsBack Rounds
  dsimp only
  rw [Scaled.compareBinary_eq, Scaled.compareBinary_eq, lowIs, highIs]
  simp only [Bool.and_eq_true, Bool.or_eq_true, beq_iff_eq, compare_gt_iff_gt, compare_eq_iff_eq,
    compare_lt_iff_lt, Nat.even_iff]

/-- Between two reals that round to a double all do. -/
theorem Rounds.between {a b v : ℚ} (first : x.Rounds a) (last : x.Rounds b) (above : a ≤ v)
    (below : v ≤ b) : x.Rounds v := by
  refine ⟨?_, ?_⟩
  · rcases first.1 with inside | ⟨even, bound⟩
    · exact .inl (inside.trans_le above)
    · rcases (bound ▸ above).lt_or_eq with inside | same
      · exact .inl inside
      · exact .inr ⟨even, same.symm⟩
  · rcases last.2 with inside | ⟨even, bound⟩
    · exact .inl (below.trans_lt inside)
    · rcases (bound ▸ below).lt_or_eq with inside | same
      · exact .inl inside
      · exact .inr ⟨even, same⟩

theorem low_lt_value (x : Binary) : x.low < x.value := by
  refine mul_lt_mul_of_pos_right (sub_lt_self _ ?_) (unit_pos _)
  split <;> norm_num

theorem value_lt_high (x : Binary) : x.value < x.high :=
  mul_lt_mul_of_pos_right (by linarith) (unit_pos _)

theorem rounds_value (x : Binary) : x.Rounds x.value :=
  ⟨.inl x.low_lt_value, .inl x.value_lt_high⟩

theorem Rounds.le_high {v : ℚ} (rounds : x.Rounds v) : v ≤ x.high := by
  rcases rounds.2 with inside | ⟨-, bound⟩
  · exact inside.le
  · exact bound.le

theorem Rounds.low_le {v : ℚ} (rounds : x.Rounds v) : x.low ≤ v := by
  rcases rounds.1 with inside | ⟨-, bound⟩
  · exact inside.le
  · exact bound.ge

theorem one_le_cast (positive : 0 < x.mantissa) : (1 : ℚ) ≤ x.mantissa :=
  Nat.one_le_cast.2 positive

theorem low_pos (positive : 0 < x.mantissa) : 0 < x.low := by
  have one := one_le_cast positive
  refine mul_pos ?_ (unit_pos _)
  split <;> linarith

/-- A real that rounds to a double is less than twice as large. -/
theorem Rounds.lt_double {v : ℚ} (rounds : x.Rounds v) (positive : 0 < x.mantissa) :
    v < 2 * x.value := by
  have one := one_le_cast positive
  refine rounds.le_high.trans_lt ?_
  rw [high, value, ← mul_assoc]
  exact mul_lt_mul_of_pos_right (by linarith) (unit_pos _)

/-! ## One grid -/

/-- A decimal that rounds to the double and is nearest to it among those on its grid that do. -/
structure Nearest (x : Binary) (decimal : Scaled) : Prop where
  rounds : x.Rounds decimal.value
  closest : ∀ n : Nat, x.Rounds (Scaled.value ⟨n, decimal.exponent⟩) →
    |decimal.value - x.value| ≤ |Scaled.value ⟨n, decimal.exponent⟩ - x.value|
  /-- Of two that are equally near the even one is taken. -/
  even : ∀ n : Nat, n ≠ decimal.digits → x.Rounds (Scaled.value ⟨n, decimal.exponent⟩) →
    |decimal.value - x.value| = |Scaled.value ⟨n, decimal.exponent⟩ - x.value| →
      Even decimal.digits

/-- Halfway between two even points of a grid there is another one, which is nearer to the double. -/
theorem Nearest.not_lt {a b : Nat} {grid : Int} (first : Nearest x ⟨a, grid⟩)
    (second : Nearest x ⟨b, grid⟩) : ¬ a < b := by
  intro less
  have strict := Scaled.value_strictMono less grid
  have same := (first.closest b second.rounds).antisymm (second.closest a first.rounds)
  obtain ⟨m, evenFirst⟩ := first.even b less.ne' second.rounds same
  obtain ⟨n, evenSecond⟩ := second.even a less.ne first.rounds same.symm
  dsimp only at evenFirst evenSecond
  have middle : Scaled.value ⟨m + n, grid⟩ = x.value := by
    rcases abs_eq_abs.1 same with equal | opposite
    · linarith
    · have sum : Scaled.value ⟨a, grid⟩ + Scaled.value ⟨b, grid⟩ =
          2 * Scaled.value ⟨m + n, grid⟩ := by
        rw [evenFirst, evenSecond]
        simp only [Scaled.value, Nat.cast_add]
        ring
      linarith
  have nearer := first.closest (m + n) (middle ▸ x.rounds_value)
  have here : Scaled.value ⟨a, grid⟩ = x.value := by
    rw [middle, sub_self, abs_zero] at nearer
    exact sub_eq_zero.1 (abs_nonpos_iff.1 nearer)
  have there : Scaled.value ⟨b, grid⟩ = x.value := by
    rw [here, sub_self, abs_zero] at same
    exact sub_eq_zero.1 (abs_eq_zero.1 same.symm)
  exact strict.ne (here.trans there.symm)

section

variable {f : Nat} {grid : Int}

/-- The two neighbours of a double on a grid. -/
structure Neighbours (x : Binary) (f : Nat) (grid : Int) : Prop where
  atLeast : Scaled.value ⟨f, grid⟩ ≤ x.value
  below : x.value < Scaled.value ⟨f + 1, grid⟩

/-- A point on the grid that rounds to the double has a neighbour of the double before it. -/
theorem Neighbours.rounds (neighbours : Neighbours x f grid) {n : Nat}
    (rounds : x.Rounds (Scaled.value ⟨n, grid⟩)) :
    (n ≤ f ∧ x.Rounds (Scaled.value ⟨f, grid⟩)) ∨
      (f + 1 ≤ n ∧ x.Rounds (Scaled.value ⟨f + 1, grid⟩)) := by
  rcases Nat.lt_or_ge f n with above | notAbove
  · refine .inr ⟨above, ?_⟩
    exact x.rounds_value.between rounds neighbours.below.le (Scaled.value_mono above grid)
  · refine .inl ⟨notAbove, ?_⟩
    exact rounds.between x.rounds_value (Scaled.value_mono notAbove grid) neighbours.atLeast

theorem Neighbours.abs_lower (neighbours : Neighbours x f grid) {n : Nat} (low : n ≤ f) :
    |Scaled.value ⟨n, grid⟩ - x.value| = x.value - Scaled.value ⟨n, grid⟩ := by
  rw [abs_sub_comm, abs_of_nonneg]
  exact sub_nonneg.2 ((Scaled.value_mono low grid).trans neighbours.atLeast)

theorem Neighbours.abs_upper (neighbours : Neighbours x f grid) {n : Nat} (high : f + 1 ≤ n) :
    |Scaled.value ⟨n, grid⟩ - x.value| = Scaled.value ⟨n, grid⟩ - x.value := by
  rw [abs_of_nonneg]
  exact sub_nonneg.2 (neighbours.below.le.trans (Scaled.value_mono high grid))

theorem Neighbours.nearest_lower (neighbours : Neighbours x f grid)
    (lower : x.Rounds (Scaled.value ⟨f, grid⟩))
    (nearer : x.Rounds (Scaled.value ⟨f + 1, grid⟩) →
      x.value - Scaled.value ⟨f, grid⟩ ≤ Scaled.value ⟨f + 1, grid⟩ - x.value)
    (tie : x.Rounds (Scaled.value ⟨f + 1, grid⟩) →
      x.value - Scaled.value ⟨f, grid⟩ = Scaled.value ⟨f + 1, grid⟩ - x.value → Even f) :
    Nearest x ⟨f, grid⟩ where
  rounds := lower
  closest n rounds := by
    rw [neighbours.abs_lower le_rfl]
    rcases neighbours.rounds rounds with ⟨low, -⟩ | ⟨high, upper⟩
    · rw [neighbours.abs_lower low]
      exact sub_le_sub_left (Scaled.value_mono low grid) _
    · rw [neighbours.abs_upper high]
      exact (nearer upper).trans (sub_le_sub_right (Scaled.value_mono high grid) _)
  even n other rounds same := by
    rw [neighbours.abs_lower le_rfl] at same
    rcases neighbours.rounds rounds with ⟨low, -⟩ | ⟨high, upper⟩
    · rw [neighbours.abs_lower low] at same
      have strict := Scaled.value_strictMono (lt_of_le_of_ne low other) grid
      linarith
    · rw [neighbours.abs_upper high] at same
      have further := Scaled.value_mono high grid
      exact tie upper ((nearer upper).antisymm (by linarith))

theorem Neighbours.nearest_upper (neighbours : Neighbours x f grid)
    (upper : x.Rounds (Scaled.value ⟨f + 1, grid⟩))
    (nearer : x.Rounds (Scaled.value ⟨f, grid⟩) →
      Scaled.value ⟨f + 1, grid⟩ - x.value ≤ x.value - Scaled.value ⟨f, grid⟩)
    (tie : x.Rounds (Scaled.value ⟨f, grid⟩) →
      Scaled.value ⟨f + 1, grid⟩ - x.value = x.value - Scaled.value ⟨f, grid⟩ → Even (f + 1)) :
    Nearest x ⟨f + 1, grid⟩ where
  rounds := upper
  closest n rounds := by
    rw [neighbours.abs_upper le_rfl]
    rcases neighbours.rounds rounds with ⟨low, lower⟩ | ⟨high, -⟩
    · rw [neighbours.abs_lower low]
      exact (nearer lower).trans (sub_le_sub_left (Scaled.value_mono low grid) _)
    · rw [neighbours.abs_upper high]
      exact sub_le_sub_right (Scaled.value_mono high grid) _
  even n other rounds same := by
    rw [neighbours.abs_upper le_rfl] at same
    rcases neighbours.rounds rounds with ⟨low, lower⟩ | ⟨high, -⟩
    · rw [neighbours.abs_lower low] at same
      have further := Scaled.value_mono low grid
      exact tie lower ((nearer lower).antisymm (by linarith))
    · rw [neighbours.abs_upper high] at same
      have strict := Scaled.value_strictMono (lt_of_le_of_ne high (Ne.symm other)) grid
      linarith

end

/-- The quotient of a double on a grid, whole and as it is. -/
theorem onGrid_spec (x : Binary) (grid : Int) :
    0 < (x.onGrid grid).2 ∧
      ((x.onGrid grid).1 : ℚ) * 10 ^ grid = x.value * (x.onGrid grid).2 := by
  have ten (n : Nat) : (0 : ℚ) < 10 ^ n := by positivity
  have two (n : Nat) : (0 : ℚ) < 2 ^ n := by positivity
  unfold onGrid value
  simp only [tenTo, twoTo, Nat.pow_eq]
  refine ⟨by positivity, ?_⟩
  rw [@zpow_eq_div 10 (by norm_num), @zpow_eq_div 2 (by norm_num)]
  push_cast
  field_simp

theorem neighbours_onGrid (x : Binary) (grid : Int) :
    Neighbours x ((x.onGrid grid).1 / (x.onGrid grid).2) grid := by
  obtain ⟨positive, quotient⟩ := x.onGrid_spec grid
  generalize (x.onGrid grid).1 = numerator at quotient
  generalize (x.onGrid grid).2 = denominator at quotient positive
  have divisor : (0 : ℚ) < denominator := Nat.cast_pos.2 positive
  have grid_pos := grid_pos grid
  constructor
  · have whole : ((numerator / denominator : Nat) : ℚ) * denominator ≤ numerator :=
      mod_cast Nat.div_mul_le_self numerator denominator
    refine le_of_mul_le_mul_right ?_ divisor
    rw [← quotient, Scaled.value, mul_right_comm]
    exact mul_le_mul_of_nonneg_right whole grid_pos.le
  · have next : (numerator : ℚ) < ((numerator / denominator + 1 : Nat) : ℚ) * denominator :=
      mod_cast Nat.lt_mul_of_div_lt (Nat.lt_succ_self _) positive
    refine lt_of_mul_lt_mul_right ?_ divisor.le
    rw [← quotient, Scaled.value, mul_right_comm]
    exact mul_lt_mul_of_pos_right next grid_pos

/-- What one grid has for a double. -/
inductive Found (x : Binary) (grid : Int) : Option Scaled → Prop where
  | none (nothing : ∀ n : Nat, ¬ x.Rounds (Scaled.value ⟨n, grid⟩)) : Found x grid none
  | some {digits : Nat} (nearest : Nearest x ⟨digits, grid⟩) : Found x grid (some ⟨digits, grid⟩)

theorem found_nearest? (positive : 0 < x.mantissa) (grid : Int) :
    Found x grid (x.nearest? grid) := by
  have neighbours := x.neighbours_onGrid grid
  obtain ⟨divisor, quotient⟩ := x.onGrid_spec grid
  unfold nearest?
  dsimp only
  generalize (x.onGrid grid).1 = numerator at neighbours quotient
  generalize (x.onGrid grid).2 = denominator at neighbours quotient divisor
  generalize numerator / denominator = f at neighbours
  have denominator_pos : (0 : ℚ) < denominator := Nat.cast_pos.2 divisor
  -- Twice the quotient against the middle of the neighbours, in units of the grid.
  have middle : (2 * (numerator : ℚ) - (2 * f + 1) * denominator) * 10 ^ grid =
      ((x.value - Scaled.value ⟨f, grid⟩) - (Scaled.value ⟨f + 1, grid⟩ - x.value)) *
        denominator := by
    rw [sub_mul, mul_assoc, quotient, Scaled.value, Scaled.value]
    push_cast
    ring
  split
  next lower upper =>
    refine .none fun n rounds => ?_
    rcases neighbours.rounds rounds with ⟨-, low⟩ | ⟨-, high⟩
    · rw [(readsBack_iff positive).2 low] at lower
      cases lower
    · rw [(readsBack_iff positive).2 high] at upper
      cases upper
  next lower upper =>
    have notUpper : ¬ x.Rounds (Scaled.value ⟨f + 1, grid⟩) := by
      rw [← readsBack_iff positive, upper]
      exact Bool.false_ne_true
    exact .some (neighbours.nearest_lower ((readsBack_iff positive).1 lower)
      (fun rounds => absurd rounds notUpper) fun rounds => absurd rounds notUpper)
  next lower upper =>
    have notLower : ¬ x.Rounds (Scaled.value ⟨f, grid⟩) := by
      rw [← readsBack_iff positive, lower]
      exact Bool.false_ne_true
    exact .some (neighbours.nearest_upper ((readsBack_iff positive).1 upper)
      (fun rounds => absurd rounds notLower) fun rounds => absurd rounds notLower)
  next lower upper =>
    have lower := (readsBack_iff positive).1 lower
    have upper := (readsBack_iff positive).1 upper
    have grid_pos := grid_pos grid
    split
    next less =>
      have less : 2 * (numerator : ℚ) < (2 * f + 1) * denominator :=
        mod_cast Nat.compare_eq_lt.1 less
      have nearer : x.value - Scaled.value ⟨f, grid⟩ < Scaled.value ⟨f + 1, grid⟩ - x.value := by
        refine sub_neg.1 (neg_of_mul_neg_left ?_ denominator_pos.le)
        rw [← middle]
        exact mul_neg_of_neg_of_pos (sub_neg.2 less) grid_pos
      exact .some (neighbours.nearest_lower lower (fun _ => nearer.le) fun _ tie =>
        absurd tie nearer.ne)
    next more =>
      have more : (2 * f + 1) * (denominator : ℚ) < 2 * numerator :=
        mod_cast Nat.compare_eq_gt.1 more
      have nearer : Scaled.value ⟨f + 1, grid⟩ - x.value < x.value - Scaled.value ⟨f, grid⟩ := by
        rw [← sub_pos, ← mul_pos_iff_of_pos_right denominator_pos, ← middle]
        exact mul_pos (sub_pos.2 more) grid_pos
      exact .some (neighbours.nearest_upper upper (fun _ => nearer.le) fun _ tie =>
        absurd tie nearer.ne)
    next same =>
      have same : 2 * (numerator : ℚ) = (2 * f + 1) * denominator :=
        mod_cast Nat.compare_eq_eq.1 same
      have tie : x.value - Scaled.value ⟨f, grid⟩ = Scaled.value ⟨f + 1, grid⟩ - x.value := by
        rw [same, sub_self, zero_mul, eq_comm, mul_eq_zero, sub_eq_zero] at middle
        exact middle.resolve_right denominator_pos.ne'
      split
      next even =>
        exact .some (neighbours.nearest_lower lower (fun _ => tie.le) fun _ _ =>
          Nat.even_iff.2 even)
      next odd =>
        exact .some (neighbours.nearest_upper upper (fun _ => tie.ge) fun _ _ =>
          Nat.even_add_one.2 (mt Nat.even_iff.1 odd))

end Binary

end Calculator.Decimal

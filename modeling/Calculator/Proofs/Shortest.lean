import Calculator.Proofs.Nearest

/-!
# The shortest decimal

A search from coarse grids to fine ones finds the coarsest grid with a point
that rounds to a double, and on it the nearest one. The search starts below
the magnitude of the double, and seventeen digits always suffice. No other
decimal has these properties.
-/

namespace Calculator.Decimal.Binary

variable {x : Binary} {decimal : Scaled}

/-! ## The magnitude -/

/-- Powers of two numbers that differ by less than a factor of two. -/
theorem pow_bounds {a b : ℚ} {q n : Nat} (power : b = 2 ^ q) (least : b ≤ a) (most : a ≤ 2 * b)
    (small : n ≤ q) : b ^ n ≤ a ^ n ∧ a ^ n ≤ b ^ (n + 1) := by
  have b_pos : 0 < b := power ▸ pow_pos two_pos q
  refine ⟨pow_le_pow_left₀ b_pos.le least n, ?_⟩
  calc a ^ n ≤ (2 * b) ^ n := pow_le_pow_left₀ (b_pos.le.trans least) most n
    _ = 2 ^ n * b ^ n := mul_pow 2 b n
    _ ≤ b * b ^ n := by
        refine mul_le_mul_of_nonneg_right ?_ (pow_pos b_pos n).le
        exact power ▸ pow_le_pow_right₀ one_le_two small
    _ = b ^ (n + 1) := (pow_succ' b n).symm

theorem zpow_bounds {a b : ℚ} {q : Nat} (power : b = 2 ^ q) (least : b ≤ a) (most : a ≤ 2 * b)
    {l : Int} (small : l.natAbs ≤ q) : b ^ (l - 1) ≤ a ^ l ∧ a ^ l ≤ b ^ (l + 1) := by
  have b_pos : 0 < b := power ▸ pow_pos two_pos q
  have a_pos : 0 < a := b_pos.trans_le least
  have one : 1 ≤ b := power ▸ one_le_pow₀ one_le_two
  obtain ⟨lower, upper⟩ := pow_bounds power least most small
  rcases Int.natAbs_eq l with positive | negative
  · rw [positive, zpow_natCast]
    refine ⟨?_, mod_cast upper⟩
    refine le_trans ?_ lower
    rw [← zpow_natCast]
    exact zpow_le_zpow_right₀ one (sub_le_self _ zero_le_one)
  · rw [negative, zpow_neg, zpow_natCast]
    constructor
    · have shifted : -(l.natAbs : Int) - 1 = -((l.natAbs + 1 : Nat) : Int) := by omega
      rw [shifted, zpow_neg, zpow_natCast]
      exact inv_anti₀ (pow_pos a_pos _) upper
    · calc (a ^ l.natAbs)⁻¹ ≤ (b ^ l.natAbs)⁻¹ := inv_anti₀ (pow_pos b_pos _) lower
        _ = b ^ (-(l.natAbs : Int)) := by rw [zpow_neg, zpow_natCast]
        _ ≤ b ^ (-(l.natAbs : Int) + 1) := zpow_le_zpow_right₀ one (by omega)

/-- A ratio of logarithms tells the decade of a power of two. -/
theorem decade_bounds {p q : Nat} (least : 2 ^ q ≤ 10 ^ p) (most : 10 ^ p ≤ 2 * 2 ^ q)
    {l decade : Int} (small : l.natAbs ≤ q) (floor : decade * q ≤ p * l)
    (ceil : p * l < (decade + 1) * q) :
    (10 : ℚ) ^ decade ≤ 2 ^ (l + 1) ∧ (2 : ℚ) ^ (l - 1) ≤ 10 ^ (decade + 1) := by
  have leastCast : (2 : ℚ) ^ q ≤ 10 ^ p := mod_cast least
  have mostCast : (10 : ℚ) ^ p ≤ 2 * 2 ^ q := mod_cast most
  obtain ⟨lower, upper⟩ := zpow_bounds rfl leastCast mostCast small
  have nonzero : q ≠ 0 := by
    rintro rfl
    simp only [Nat.cast_zero, mul_zero] at floor ceil
    exact absurd ceil (Int.not_lt.2 floor)
  have ten (e : Int) : (0 : ℚ) ≤ 10 ^ e := (grid_pos e).le
  have two (e : Int) : (0 : ℚ) ≤ 2 ^ e := (unit_pos e).le
  have twos (e : Int) : ((2 : ℚ) ^ q) ^ e = (2 ^ e) ^ q := by
    rw [← zpow_natCast, ← zpow_natCast, zpow_comm]
  have tens : ((10 : ℚ) ^ p) ^ l = 10 ^ (p * l) := by
    rw [← zpow_natCast, zpow_mul]
  have decades (e : Int) : ((10 : ℚ) ^ e) ^ q = 10 ^ (e * q) := by
    rw [← zpow_natCast, zpow_mul]
  rw [twos, tens] at lower upper
  constructor
  · rw [← pow_le_pow_iff_left₀ (ten _) (two _) nonzero, decades]
    exact (zpow_le_zpow_right₀ (by norm_num) floor).trans upper
  · rw [← pow_le_pow_iff_left₀ (two _) (ten _) nonzero, decades]
    exact lower.trans (zpow_le_zpow_right₀ (by norm_num) ceil.le)

/-- The binary logarithm of a double, rounded down. -/
theorem value_bounds (positive : 0 < x.mantissa) :
    (2 : ℚ) ^ ((x.mantissa.log2 : Int) + x.exponent) ≤ x.value ∧
      x.value < 2 ^ ((x.mantissa.log2 : Int) + x.exponent + 1) := by
  have least : (2 : ℚ) ^ x.mantissa.log2 ≤ x.mantissa :=
    mod_cast Nat.log2_self_le positive.ne'
  have most : (x.mantissa : ℚ) < 2 ^ (x.mantissa.log2 + 1) :=
    mod_cast @Nat.lt_log2_self x.mantissa
  rw [value, add_right_comm, zpow_add₀ two_ne_zero, zpow_add₀ two_ne_zero]
  constructor
  · exact mul_le_mul_of_nonneg_right (mod_cast least) (unit_pos _).le
  · exact mul_lt_mul_of_pos_right (mod_cast most) (unit_pos _)

/-- A ratio of logarithms is close enough to estimate the power of ten above a double. -/
theorem estimate_bounds (canonical : x.Canonical) {estimate : Int}
    (same : estimate = Int.fdiv (((x.mantissa.log2 : Int) + x.exponent) * 30103) 100000) :
    (10 : ℚ) ^ (estimate - 2) ≤ x.value ∧ x.value < 10 ^ (estimate + 3) := by
  have bits : x.mantissa.log2 < 53 := (Nat.log2_lt canonical.positive.ne').2 canonical.mantissa_lt
  have least := canonical.least
  have greatest := canonical.greatest
  obtain ⟨low, high⟩ := value_bounds canonical.positive
  have small : ((x.mantissa.log2 : Int) + x.exponent).natAbs ≤ 100000 := by omega
  generalize (x.mantissa.log2 : Int) + x.exponent = l at *
  rw [Int.fdiv_eq_ediv_of_nonneg _ (by decide)] at same
  have floor : estimate * (100000 : Nat) ≤ (30103 : Nat) * l := by omega
  have ceil : (30103 : Nat) * l < (estimate + 1) * (100000 : Nat) := by omega
  obtain ⟨upper, lower⟩ := decade_bounds (by decide +kernel : 2 ^ 100000 ≤ 10 ^ 30103)
    (by decide +kernel) small floor ceil
  rw [zpow_add_one₀ two_ne_zero] at upper high
  rw [zpow_sub_one₀ two_ne_zero, zpow_add_one₀ (by norm_num)] at lower
  rw [zpow_sub₀ (by norm_num), zpow_add₀ (by norm_num)]
  have one := unit_pos l
  constructor <;> norm_num <;> linarith

/-- In a run of consecutive powers of ten the first one above a number is directly above it. -/
theorem find_above {v : ℚ} {power last : Int} {rest : List Int}
    (reached : (10 : ℚ) ^ (power - 1) ≤ v)
    (later : (10 : ℚ) ^ power ≤ v →
      (10 : ℚ) ^ ((rest.find? fun p => decide (v < 10 ^ p)).getD last - 1) ≤ v ∧
        v < 10 ^ ((rest.find? fun p => decide (v < 10 ^ p)).getD last)) :
    (10 : ℚ) ^ (((power :: rest).find? fun p => decide (v < 10 ^ p)).getD last - 1) ≤ v ∧
      v < 10 ^ (((power :: rest).find? fun p => decide (v < 10 ^ p)).getD last) := by
  rcases lt_or_ge v (10 ^ power) with below | beyond
  · rw [List.find?_cons_of_pos (by simpa using below), Option.getD_some]
    exact ⟨reached, below⟩
  · rw [List.find?_cons_of_neg (by simpa using beyond)]
    exact later beyond

/-- The magnitude is the power of ten directly above the double. -/
theorem magnitude_spec (canonical : x.Canonical) :
    (10 : ℚ) ^ (x.magnitude - 1) ≤ x.value ∧ x.value < 10 ^ x.magnitude := by
  have above (power : Int) : ((Scaled.mk 1 power).compareBinary x.mantissa x.exponent == .gt) =
      decide (x.value < 10 ^ power) := by
    rw [Scaled.compareBinary_eq, Bool.eq_iff_iff, beq_iff_eq, compare_gt_iff_gt, decide_eq_true_eq,
      Scaled.value, Nat.cast_one, one_mul]
    exact Iff.rfl
  unfold magnitude
  dsimp only
  simp only [above]
  generalize same : Int.fdiv (((x.mantissa.log2 : Int) + x.exponent) * 30103) 100000 = estimate
  obtain ⟨lowest, highest⟩ := estimate_bounds canonical same.symm
  -- what none of the four powers tried is above, the default `estimate + 3` is above
  refine find_above (by rwa [sub_sub]) fun first => find_above first fun second => ?_
  refine find_above (by rwa [add_sub_cancel_right]) fun third => ?_
  refine find_above (by rwa [show estimate + 2 - 1 = estimate + 1 by omega]) fun fourth => ?_
  rw [List.find?_nil, Option.getD_none]
  exact ⟨by rwa [show estimate + 3 - 1 = estimate + 2 by omega], highest⟩

/-! ## Seventeen digits -/

theorem exists_multiple_between {step low high : ℚ} (positive : 0 < step) (notNegative : 0 ≤ low)
    (wide : step < high - low) : ∃ n : Nat, low < n * step ∧ n * step < high := by
  have floor : (⌊low / step⌋₊ : ℚ) * step ≤ low :=
    (le_div_iff₀ positive).1 (Nat.floor_le (div_nonneg notNegative positive.le))
  have next : low < (⌊low / step⌋₊ + 1) * step :=
    (div_lt_iff₀ positive).1 (Nat.lt_floor_add_one _)
  refine ⟨⌊low / step⌋₊ + 1, ?_, ?_⟩
  · exact_mod_cast next
  · push_cast
    linarith

/-- Of the decimals with seventeen digits at the magnitude of a double one rounds to it. -/
theorem exists_rounds (canonical : x.Canonical) :
    ∃ n : Nat, x.Rounds (Scaled.value ⟨n, x.magnitude - 17⟩) := by
  have unit := unit_pos x.exponent
  have atLeast := (magnitude_spec canonical).1
  have spacing : (10 : ℚ) ^ (x.magnitude - 1) = 10 ^ (x.magnitude - 17) * 10 ^ 16 := by
    rw [show x.magnitude - 1 = x.magnitude - 17 + 16 by omega, zpow_add₀ (by norm_num)]
    rfl
  rw [spacing, value] at atLeast
  have wide : (10 : ℚ) ^ (x.magnitude - 17) < x.high - x.low := by
    rw [high, low]
    split
    next narrow =>
      rw [canonical.narrow narrow] at atLeast ⊢
      push_cast at atLeast ⊢
      linarith
    next =>
      have few : (x.mantissa : ℚ) * 2 ^ x.exponent < 2 ^ 53 * 2 ^ x.exponent :=
        mul_lt_mul_of_pos_right (mod_cast canonical.mantissa_lt) unit
      linarith
  obtain ⟨n, above, below⟩ := exists_multiple_between (grid_pos (x.magnitude - 17))
    (low_pos canonical.positive).le wide
  exact ⟨n, .inl above, .inl below⟩

/-! ## The search -/

theorem findSome?_range {α : Type} {f : Nat → Option α} {count : Nat} {a : α}
    (found : (List.range count).findSome? f = some a) :
    ∃ i < count, f i = some a ∧ ∀ j < i, f j = none := by
  induction count with
  | zero => cases found
  | succ count ih =>
      rw [List.range_succ, List.findSome?_append] at found
      cases earlier : (List.range count).findSome? f with
      | some b =>
          rw [earlier] at found ih
          obtain ⟨i, below, rest⟩ := ih found
          exact ⟨i, below.trans count.lt_succ_self, rest⟩
      | none =>
          rw [earlier, Option.none_or, List.findSome?_singleton] at found
          refine ⟨count, count.lt_succ_self, found, fun j below => ?_⟩
          exact List.findSome?_eq_none_iff.1 earlier j (List.mem_range.2 below)

/-- The decimal on the coarsest grid with a point that rounds to the double, and the nearest there. -/
structure Shortest (x : Binary) (decimal : Scaled) : Prop extends Nearest x decimal where
  coarsest : ∀ (n : Nat) (grid : Int), decimal.exponent < grid →
    ¬ x.Rounds (Scaled.value ⟨n, grid⟩)

theorem digits_pos (positive : 0 < x.mantissa) {n : Nat} {grid : Int}
    (rounds : x.Rounds (Scaled.value ⟨n, grid⟩)) : 0 < n := by
  rcases Nat.eq_zero_or_pos n with rfl | some
  · have zero : Scaled.value ⟨0, grid⟩ = 0 := by simp [Scaled.value]
    have above := (low_pos positive).trans_le rounds.low_le
    rw [zero] at above
    exact absurd above (lt_irrefl 0)
  · exact some

theorem Rounds.on_finer {n : Nat} {coarse : Int} (rounds : x.Rounds (Scaled.value ⟨n, coarse⟩))
    {fine : Int} (finer : fine ≤ coarse) :
    x.Rounds (Scaled.value ⟨n * 10 ^ (coarse - fine).toNat, fine⟩) :=
  Scaled.value_of_le finer n ▸ rounds

/-- The least positive double against the powers of ten around it. -/
theorem least_double : (10 : ℚ) ^ (-324 : Int) * 19 < 2 ^ (-1074 : Int) * 4 ∧
    (2 : ℚ) ^ (-1074 : Int) * 3 < 10 ^ (-323 : Int) * 2 := by
  have above : (19 : ℚ) * 2 ^ 1074 < 4 * 10 ^ 324 :=
    mod_cast (by decide +kernel : 19 * 2 ^ 1074 < 4 * 10 ^ 324)
  have below : (3 : ℚ) * 10 ^ 323 < 2 * 2 ^ 1074 :=
    mod_cast (by decide +kernel : 3 * 10 ^ 323 < 2 * 2 ^ 1074)
  have ten (n : Nat) : (0 : ℚ) < 10 ^ n := pow_pos (by norm_num) n
  have two (n : Nat) : (0 : ℚ) < 2 ^ n := pow_pos two_pos n
  have inverse (b : ℚ) (n : Nat) : b ^ (-(n : Int)) = (b ^ n)⁻¹ := by
    rw [zpow_neg, zpow_natCast]
  have ten324 : (10 : ℚ) ^ (-324 : Int) = (10 ^ 324)⁻¹ := inverse 10 324
  have ten323 : (10 : ℚ) ^ (-323 : Int) = (10 ^ 323)⁻¹ := inverse 10 323
  have two1074 : (2 : ℚ) ^ (-1074 : Int) = (2 ^ 1074)⁻¹ := inverse 2 1074
  rw [ten324, ten323, two1074]
  constructor
  · rw [inv_mul_lt_iff₀ (ten 324), ← mul_assoc, mul_right_comm, lt_mul_inv_iff₀ (two 1074),
      mul_comm (10 ^ 324)]
    exact above
  · rw [inv_mul_lt_iff₀ (two 1074), ← mul_assoc, mul_right_comm, lt_mul_inv_iff₀ (ten 323),
      mul_comm (2 ^ 1074)]
    exact below

/-- Only the power of ten directly below the least double is less than a factor of ten below it. -/
theorem eq_of_power_below_least {power : Int} (below : (10 : ℚ) ^ power < 2 ^ (-1074 : Int))
    (near : (2 : ℚ) ^ (-1074 : Int) < 10 ^ power * 10) : power = -324 := by
  obtain ⟨above324, below323⟩ := least_double
  have next : (10 : ℚ) ^ (-324 : Int) = 10 ^ (-325 : Int) * 10 :=
    zpow_add_one₀ (by norm_num) (-325)
  have unit := grid_pos (-325)
  have notAbove : power < -323 := by
    refine (zpow_lt_zpow_iff_right₀ (by norm_num : (1 : ℚ) < 10)).1 ?_
    linarith
  have notBelow : -325 < power := by
    refine (zpow_lt_zpow_iff_right₀ (by norm_num : (1 : ℚ) < 10)).1 ?_
    linarith
  omega

/-- Only a double with the least exponent has few units. -/
theorem exponent_of_few (canonical : x.Canonical) (few : x.value < 10 * 2 ^ x.exponent) :
    x.exponent = -1074 := by
  have units : (x.mantissa : ℚ) < 10 := lt_of_mul_lt_mul_right few (unit_pos x.exponent).le
  have small : x.mantissa < 10 := mod_cast units
  rcases canonical.normal with least | normal
  · exact least
  · omega

theorem unit_le_value (positive : 0 < x.mantissa) : 2 ^ x.exponent ≤ x.value :=
  le_mul_of_one_le_left (unit_pos x.exponent).le (one_le_cast positive)

/-- The power of ten above a double rounds to it only if the double is close below it. -/
theorem value_of_rounds_magnitude (canonical : x.Canonical)
    (rounds : x.Rounds (10 ^ x.magnitude)) : 10 ^ (x.magnitude - 1) * 19 ≤ x.value * 2 := by
  by_contra! far
  obtain ⟨atLeast, below⟩ := magnitude_spec canonical
  have next : (10 : ℚ) ^ x.magnitude = 10 ^ (x.magnitude - 1) * 10 := by
    rw [← zpow_add_one₀ (by norm_num), sub_add_cancel]
  have reached := rounds.le_high
  have distance : x.high = x.value + 2 ^ x.exponent / 2 := by
    rw [high, value]
    ring
  rw [next] at below reached
  rw [distance] at reached
  -- The gap is wider than a tenth of the double, which is then the least one.
  have unit := unit_le_value canonical.positive
  have tiny := exponent_of_few canonical (by linarith)
  rw [tiny] at reached unit
  have exactly := eq_of_power_below_least (by linarith) (unit.trans_lt below)
  have power : (10 : ℚ) ^ (-323 : Int) = 10 ^ (-324 : Int) * 10 :=
    zpow_add_one₀ (by norm_num) (-324)
  obtain ⟨above324, below323⟩ := least_double
  rw [exactly] at far reached
  have single : x.mantissa < 2 := by
    by_contra! several
    have double : (2 : ℚ) * 2 ^ x.exponent ≤ x.value :=
      mul_le_mul_of_nonneg_right (mod_cast several) (unit_pos _).le
    rw [tiny] at double
    linarith
  have least : x.value = 2 ^ (-1074 : Int) := by
    have one : x.mantissa = 1 := Nat.le_antisymm (Nat.le_of_lt_succ single) canonical.positive
    rw [value, tiny, one, Nat.cast_one, one_mul]
  linarith

theorem Nearest.shortest {digits : Nat} {grid : Int}
    (nearest : Nearest x ⟨digits, grid⟩)
    (nothing : ∀ n : Nat, ¬ x.Rounds (Scaled.value ⟨n, grid + 1⟩)) :
    Shortest x (Scaled.stripZeros ⟨digits, grid⟩) := by
  have stripped : Scaled.stripZeros ⟨digits, grid⟩ = ⟨digits, grid⟩ := by
    refine Scaled.stripZeros_eq_self fun divides => nothing (digits / 10) ?_
    rw [Scaled.value_of_le (le_add_of_nonneg_right zero_le_one : grid ≤ grid + 1)]
    have tenfold : digits / 10 * 10 ^ (grid + 1 - grid).toNat = digits := by
      rw [add_sub_cancel_left]
      exact Nat.div_mul_cancel (Nat.dvd_of_mod_eq_zero divides)
    rw [tenfold]
    exact nearest.rounds
  rw [stripped]
  refine ⟨nearest, fun n coarse coarser rounds => ?_⟩
  exact nothing _ (rounds.on_finer (Int.add_one_le_of_lt coarser))

/-- When the power of ten above a double rounds to it, the first grid finds that power. -/
theorem Nearest.digits_eq_ten (canonical : x.Canonical) (rounds : x.Rounds (10 ^ x.magnitude))
    {digits : Nat} (nearest : Nearest x ⟨digits, x.magnitude - 1⟩) : digits = 10 := by
  have close := value_of_rounds_magnitude canonical rounds
  have below := (magnitude_spec canonical).2
  have unit := grid_pos (x.magnitude - 1)
  have power : (10 : ℚ) ^ x.magnitude = Scaled.value ⟨10, x.magnitude - 1⟩ := by
    rw [Scaled.value, Nat.cast_ofNat, mul_comm, ← zpow_add_one₀ (by norm_num), sub_add_cancel]
  rw [power] at rounds below
  have closest := nearest.closest 10 rounds
  have distance := abs_of_pos (sub_pos.2 below)
  rw [distance] at closest
  have atMost : digits ≤ 10 := by
    by_contra! above
    have further := Scaled.value_strictMono above (x.magnitude - 1)
    linarith [le_abs_self (Scaled.value ⟨digits, x.magnitude - 1⟩ - x.value)]
  have atLeast : 9 ≤ digits := by
    by_contra! low
    have further := Scaled.value_mono (Nat.le_of_lt_succ low) (x.magnitude - 1)
    have far := neg_abs_le (Scaled.value ⟨digits, x.magnitude - 1⟩ - x.value)
    simp only [Scaled.value, Nat.cast_ofNat] at *
    linarith
  rcases Nat.lt_or_ge digits 10 with nine | ten
  · obtain rfl : digits = 9 := Nat.le_antisymm (Nat.le_of_lt_succ nine) atLeast
    have far := neg_abs_le (Scaled.value ⟨9, x.magnitude - 1⟩ - x.value)
    have tie : |Scaled.value ⟨9, x.magnitude - 1⟩ - x.value| =
        |Scaled.value ⟨10, x.magnitude - 1⟩ - x.value| := by
      rw [distance]
      refine closest.antisymm ?_
      simp only [Scaled.value, Nat.cast_ofNat] at *
      linarith
    exact absurd (nearest.even 10 (show 10 ≠ 9 by decide) rounds tie) (show ¬ Even 9 by decide)
  · exact Nat.le_antisymm atMost ten

theorem shortest_power (canonical : x.Canonical) (rounds : x.Rounds (10 ^ x.magnitude)) :
    Shortest x ⟨1, x.magnitude⟩ := by
  have below := (magnitude_spec canonical).2
  have power : Scaled.value ⟨1, x.magnitude⟩ = 10 ^ x.magnitude := by
    rw [Scaled.value, Nat.cast_one, one_mul]
  have single {n : Nat} (inside : x.Rounds (Scaled.value ⟨n, x.magnitude⟩)) : n = 1 := by
    refine Nat.le_antisymm ?_ (digits_pos canonical.positive inside)
    by_contra! several
    have double : 2 * 10 ^ x.magnitude ≤ Scaled.value ⟨n, x.magnitude⟩ :=
      Scaled.value_mono several x.magnitude
    linarith [inside.lt_double canonical.positive]
  refine ⟨⟨power ▸ rounds, ?_, ?_⟩, ?_⟩
  · intro n inside
    rw [single inside]
  · intro n other inside
    exact absurd (single inside) other
  · intro n coarse coarser inside
    have one := single (inside.on_finer coarser.le)
    have exponent : (coarse - x.magnitude).toNat ≠ 0 := by
      dsimp only at coarser
      omega
    have ten : 10 ∣ 1 := one ▸ Dvd.dvd.mul_left (dvd_pow_self 10 exponent) n
    exact absurd ten (by decide)

/-- The shortest decimal of a double is the one that the search finds. -/
theorem shortest_spec (canonical : x.Canonical) : Shortest x x.shortest := by
  have positive := canonical.positive
  unfold shortest
  dsimp only
  rw [List.findSome?_map, Function.comp_def]
  have some : ((List.range 17).findSome? fun (count : Nat) =>
      x.nearest? (x.magnitude - ((count : Int) + 1))).isSome = true := by
    refine List.findSome?_isSome_iff.2 ⟨16, by decide, ?_⟩
    obtain ⟨n, rounds⟩ := exists_rounds canonical
    have last : x.magnitude - (((16 : Nat) : Int) + 1) = x.magnitude - 17 := by omega
    have found := found_nearest? positive (x.magnitude - 17)
    rw [last]
    generalize x.nearest? (x.magnitude - 17) = result at found
    cases found with
    | none nothing => exact absurd rounds (nothing n)
    | some nearest => rfl
  obtain ⟨decimal, found⟩ := Option.isSome_iff_exists.1 some
  rw [found, Option.getD_some]
  obtain ⟨count, -, here, earlier⟩ := findSome?_range found
  have shape := found_nearest? positive (x.magnitude - ((count : Int) + 1))
  rw [here] at shape
  cases shape with
  | some nearest =>
      rcases Nat.eq_zero_or_pos count with rfl | later
      · have first : x.magnitude - (((0 : Nat) : Int) + 1) = x.magnitude - 1 := rfl
        rw [first] at nearest ⊢
        by_cases power : x.Rounds (10 ^ x.magnitude)
        · rw [nearest.digits_eq_ten canonical power]
          rw [Scaled.stripZeros_ten, sub_add_cancel]
          exact shortest_power canonical power
        · refine nearest.shortest fun n rounds => power ?_
          rw [sub_add_cancel] at rounds
          have some := digits_pos positive rounds
          have atLeast := Scaled.value_mono some x.magnitude
          rw [Scaled.value, Nat.cast_one, one_mul] at atLeast
          exact x.rounds_value.between rounds (magnitude_spec canonical).2.le atLeast
      · have before := found_nearest? positive (x.magnitude - (((count - 1 : Nat) : Int) + 1))
        rw [earlier (count - 1) (by omega)] at before
        have coarser : x.magnitude - (((count - 1 : Nat) : Int) + 1) =
            x.magnitude - ((count : Int) + 1) + 1 := by omega
        rw [coarser] at before
        cases before with
        | none nothing => exact nearest.shortest nothing

/-- A double has one shortest decimal. -/
theorem Shortest.unique {other : Scaled} (first : Shortest x decimal) (second : Shortest x other) :
    decimal = other := by
  obtain ⟨digits, grid⟩ := decimal
  obtain ⟨otherDigits, otherGrid⟩ := other
  obtain rfl : grid = otherGrid := by
    rcases lt_trichotomy grid otherGrid with finer | same | coarser
    · exact absurd second.rounds (first.coarsest _ _ finer)
    · exact same
    · exact absurd first.rounds (second.coarsest _ _ coarser)
  rcases Nat.lt_trichotomy digits otherDigits with less | rfl | more
  · exact absurd less (first.toNearest.not_lt second.toNearest)
  · rfl
  · exact absurd more (second.toNearest.not_lt first.toNearest)

end Calculator.Decimal.Binary

import Calculator.Proofs.Faults

/-!
# Misdeclared arities

A rule may pull more or fewer operands than its definition declares. The
reads then no longer follow the tree of the expression, but the counts still
tell: a pull that ends in a value has read items that leave one value when
each counts with the operands it draws, and the operand check has found that
all items leave one value when each counts with the operands it declares. So
what some definitions draw too much others must draw too little.
-/

namespace Calculator

/--
A value of the rule comes after exactly this many pulls. A fault of its own may come at any time,
and the rule may ask what is left.
-/
inductive Rule.Draws : Nat → Rule → Prop where
  | value (x : Float) : Draws 0 (.value x)
  | fault {count : Nat} (cause : ArithmeticFault) : Draws count (.fault cause)
  | pull {count : Nat} {next : Float → Rule} (rest : ∀ x, Draws count (next x)) :
      Draws (count + 1) (.pull next)
  | remaining {count : Nat} {next : Nat → Rule} (rest : ∀ left, Draws count (next left)) :
      Draws count (.remaining next)

theorem Rule.Takes.draws {count : Nat} {rule : Rule} (takes : rule.Takes count) :
    rule.Draws count := by
  induction takes with
  | value x => exact .value x
  | pull _ ih => exact .pull ih
  | remaining _ ih => exact .remaining ih

/-- How many operands an item draws beyond those it declares. -/
def Item.excess (drawn : Item → Nat) (item : Item) : Int :=
  drawn item - item.arity

namespace Cursor

section

variable {drawn : Item → Nat} {faultless : Prop}

/-- The items draw so many operands each, without a fault of their own where this is required. -/
def AllDraw (drawn : Item → Nat) (faultless : Prop) (items : List Item) : Prop :=
  ∀ item ∈ items, item.rule.Draws (drawn item) ∧ (faultless → item.rule.Takes (drawn item))

/--
How pulls for so many values end. Those that give them have read items that leave just as many,
counted with the operands they draw.
-/
inductive Tallied (drawn : Item → Nat) (faultless : Prop) (items : List Item) (count : Nat) :
    Except PullFault Float × Cursor → Prop where
  | value {x : Float} {moved : Cursor} (read : List Item) (order : read ++ moved.rest = items)
      (tally : sumOver (fun item => 1 - (drawn item : Int)) read = count) :
      Tallied drawn faultless items count (.ok x, moved)
  | fault {failure : PullFault} {moved : Cursor}
      (foreign : faultless → ∀ cause, failure ≠ .arithmetic cause) :
      Tallied drawn faultless items count (.error failure, moved)

/-- Every pull gives one value or ends in a fault. -/
def Tallies (drawn : Item → Nat) (faultless : Prop)
    (pull : Cursor → Except PullFault Float × Cursor) : Prop :=
  ∀ cursor, AllDraw drawn faultless cursor.rest →
    Tallied drawn faultless cursor.rest 1 (pull cursor)

theorem tallied_run {pull : Cursor → Except PullFault Float × Cursor}
    (tallies : Tallies drawn faultless pull) {count : Nat} {rule : Rule}
    (draws : rule.Draws count) (takes : faultless → rule.Takes count) (cursor : Cursor)
    (each : AllDraw drawn faultless cursor.rest) :
    Tallied drawn faultless cursor.rest count (rule.run pull cursor) := by
  induction draws generalizing cursor with
  | value x => exact .value [] rfl rfl
  | fault cause => exact .fault fun required => nomatch takes required
  | remaining _ ih =>
      refine ih _ ?_ cursor each
      intro required
      cases takes required with
      | remaining rest => exact rest _
  | @pull count next _ ih =>
      have first := tallies cursor each
      rw [Rule.run]
      revert first
      generalize pull cursor = outcome
      intro first
      cases first with
      | fault foreign => exact .fault foreign
      | @value x moved read order tally =>
          have left : AllDraw drawn faultless moved.rest := fun item member =>
            each item (order ▸ List.mem_append_right _ member)
          have takesRest : faultless → (next x).Takes count := by
            intro required
            cases takes required with
            | pull rest => exact rest x
          have later := ih x takesRest moved left
          dsimp only
          revert later
          generalize (next x).run pull moved = ending
          intro later
          cases later with
          | fault foreign => exact .fault foreign
          | value readLater orderLater tallyLater =>
              refine .value (read ++ readLater) ?_ ?_
              · rw [List.append_assoc, orderLater, order]
              · rw [sumOver_append, tally, tallyLater]
                omega

theorem tallied_runItem {pull : Cursor → Except PullFault Float × Cursor}
    (tallies : Tallies drawn faultless pull) {item : Item} (cursor : Cursor)
    (each : AllDraw drawn faultless (item :: cursor.rest)) :
    Tallied drawn faultless (item :: cursor.rest) 1 (runItem pull cursor item) := by
  obtain ⟨draws, takes⟩ := each item (List.mem_cons_self ..)
  have below : AllDraw drawn faultless cursor.rest := fun other member =>
    each other (List.mem_cons_of_mem _ member)
  by_cases literal : ∃ x, item = .literal x
  · obtain ⟨x, rfl⟩ := literal
    have none : drawn (.literal x) = 0 := by
      generalize drawn (.literal x) = count at draws
      cases draws
      rfl
    exact .value [.literal x] rfl (by simp [sumOver, none])
  · rw [runItem_of_not_literal (fun x same => literal ⟨x, same⟩)]
    by_cases limit : cursor.maxDepth ≤ cursor.depth
    · rw [if_pos limit]
      exact .fault fun _ _ => by simp
    · rw [if_neg limit]
      have operands :=
        tallied_run tallies draws takes { cursor with depth := cursor.depth + 1 } below
      revert operands
      generalize item.rule.run pull { cursor with depth := cursor.depth + 1 } = ending
      intro operands
      cases operands with
      | fault foreign => exact .fault foreign
      | @value y moved read order tally =>
          refine .value (item :: read) (congrArg (item :: ·) order) ?_
          rw [sumOver, tally]
          omega

theorem tallies_pull (drawn : Item → Nat) (faultless : Prop) (stack : Nat) :
    Tallies drawn faultless (pull stack) := by
  induction stack with
  | zero =>
      intro cursor _
      exact .fault fun _ _ => by simp
  | succ stack ih =>
      rintro ⟨rest, depth, maxDepth⟩ each
      cases rest with
      | nil => exact .fault fun _ _ => by simp
      | cons item rest => exact tallied_runItem ih ⟨rest, depth, maxDepth⟩ each

end

end Cursor

/-- A program that has a value leaves one value when its items count with what they draw. -/
theorem Program.tally_of_evaluateWithin {drawn : Item → Nat} {program : Program}
    (draws : ∀ item ∈ program.items, item.rule.Draws (drawn item)) {stack : Nat} {value : Float}
    (evaluated : program.evaluateWithin stack = .ok value) :
    sumOver (fun item => 1 - (drawn item : Int)) program.items = 1 := by
  have tallied := Cursor.tallies_pull drawn False stack
    (Cursor.ofItems program.items program.evaluationDepth)
    fun item member => ⟨draws item (List.mem_reverse.1 member), False.elim⟩
  unfold evaluateWithin at evaluated
  revert tallied evaluated
  generalize (Cursor.ofItems program.items program.evaluationDepth).pull stack = ending
  intro evaluated tallied
  cases tallied with
  | fault _ => cases evaluated
  | @value x moved read order tally =>
      dsimp only at evaluated
      split at evaluated
      next nothing =>
        rw [List.eq_nil_of_length_eq_zero nothing, List.append_nil] at order
        subst order
        rw [← sumOver_reverse]
        exact tally
      next => cases evaluated

/-- Rules without faults of their own leave only those of the evaluation. -/
theorem Program.ne_arithmetic_of_takes {drawn : Item → Nat} {program : Program}
    (takes : ∀ item ∈ program.items, item.rule.Takes (drawn item)) {stack : Nat}
    {fault : EvaluationFault} (failed : program.evaluateWithin stack = .error fault)
    (cause : ArithmeticFault) : fault ≠ .arithmetic cause := by
  have tallied := Cursor.tallies_pull drawn True stack
    (Cursor.ofItems program.items program.evaluationDepth)
    fun item member =>
      have fixed := takes item (List.mem_reverse.1 member)
      ⟨fixed.draws, fun _ => fixed⟩
  unfold evaluateWithin at failed
  revert tallied failed
  generalize (Cursor.ofItems program.items program.evaluationDepth).pull stack = ending
  intro failed tallied
  cases tallied with
  | @fault failure moved foreign =>
      cases failed
      cases failure with
      | arithmetic other => exact absurd rfl (foreign trivial other)
      | exhausted | tooDeep _ | stackOverflow => nofun
  | value _ _ _ =>
      dsimp only at failed
      split at failed
      next => cases failed
      next => cases failed; nofun

/-- A compiled program leaves one value when its items count with what they declare. -/
theorem tally_of_compile {registry : Registry} {expression : String} {maxDepth : Int}
    {program : Program} (compiled : compile registry expression maxDepth = .ok program) :
    sumOver (fun item => 1 - (item.arity : Int)) program.items = 1 := by
  obtain ⟨items, _, passes, rfl⟩ := compile_eq_ok_iff.1 compiled
  obtain ⟨tree, complete, _, order⟩ := checkOperands_eq_ok_iff.1 passes
  have one := Tree.surplus_of_complete tree complete
  rwa [Tree.surplus, Tree.itemsOf, Tree.itemsOf, List.append_nil, order] at one

/-- Where both counts agree, no excess lies on one side only. -/
theorem Item.excess_eq_zero {drawn : Item → Nat} {items : List Item}
    (same : sumOver (fun item => 1 - (drawn item : Int)) items =
      sumOver (fun item => 1 - (item.arity : Int)) items)
    (oneSided : (∀ item ∈ items, 0 ≤ item.excess drawn) ∨ ∀ item ∈ items, item.excess drawn ≤ 0)
    {item : Item} (member : item ∈ items) : item.excess drawn = 0 := by
  simp only [excess] at oneSided ⊢
  rcases oneSided with tooMany | tooFew
  · have below : ∀ other ∈ items, 1 - (drawn other : Int) ≤ 1 - (other.arity : Int) := by
      intro other inside
      have known := tooMany other inside
      omega
    have equal := eq_of_sumOver_eq below same item member
    omega
  · have below : ∀ other ∈ items, 1 - (other.arity : Int) ≤ 1 - (drawn other : Int) := by
      intro other inside
      have known := tooFew other inside
      omega
    have equal := eq_of_sumOver_eq below same.symm item member
    omega

/--
A compiled program has a value only where the operands that its items draw beyond their arities add
up to none. So it ends in a fault when a definition in it is misdeclared, unless some draw too many
and others too few; one misdeclared definition alone is always found. The fault is one of the
evaluation when no rule has a fault of its own.
-/
theorem evaluateWithin_of_misdeclared {registry : Registry} {drawn : Item → Nat}
    (draws : registry.Ensures fun item => item.rule.Draws (drawn item)) {expression : String}
    {maxDepth : Int} {program : Program}
    (compiled : compile registry expression maxDepth = .ok program) (stack : Nat) :
    (∀ value, program.evaluateWithin stack = .ok value →
      sumOver (Item.excess drawn) program.items = 0) ∧
    ∀ wrong ∈ program.items, wrong.excess drawn ≠ 0 →
      ((∀ item ∈ program.items, 0 ≤ item.excess drawn) ∨
        (∀ item ∈ program.items, item.excess drawn ≤ 0) ∨
        ∀ item ∈ program.items, item.excess drawn ≠ 0 → item = wrong) →
      ∃ fault, program.evaluateWithin stack = .error fault ∧
        ((∀ item ∈ program.items, item.rule.Takes (drawn item)) →
          ∀ cause, fault ≠ .arithmetic cause) := by
  have itemsDraw : ∀ item ∈ program.items, item.rule.Draws (drawn item) := by
    obtain ⟨items, assembled, _, rfl⟩ := compile_eq_ok_iff.1 compiled
    exact draws.assemble assembled
  have agree : ∀ value, program.evaluateWithin stack = .ok value →
      sumOver (fun item => 1 - (drawn item : Int)) program.items =
        sumOver (fun item => 1 - (item.arity : Int)) program.items := fun _ evaluated =>
    (Program.tally_of_evaluateWithin itemsDraw evaluated).trans (tally_of_compile compiled).symm
  constructor
  · intro value evaluated
    have difference (item : Item) :
        item.excess drawn = 1 - (item.arity : Int) - (1 - (drawn item : Int)) := by
      rw [Item.excess]
      omega
    rw [funext difference, sumOver_sub, agree value evaluated, Int.sub_self]
  · intro wrong member misdeclared sided
    have oneSided : (∀ item ∈ program.items, 0 ≤ item.excess drawn) ∨
        ∀ item ∈ program.items, item.excess drawn ≤ 0 := by
      rcases sided with tooMany | tooFew | single
      · exact .inl tooMany
      · exact .inr tooFew
      · by_cases positive : 0 ≤ wrong.excess drawn
        · refine .inl fun item inside => ?_
          by_cases declared : item.excess drawn = 0
          · omega
          · rwa [single item inside declared]
        · refine .inr fun item inside => ?_
          by_cases declared : item.excess drawn = 0
          · omega
          · rw [single item inside declared]
            omega
    cases outcome : program.evaluateWithin stack with
    | ok value =>
        exact absurd (Item.excess_eq_zero (agree value outcome) oneSided member) misdeclared
    | error fault =>
        exact ⟨fault, rfl, fun takes => Program.ne_arithmetic_of_takes takes outcome⟩

/-- A difference that is declared with one operand. -/
def Function.gap : Function :=
  ⟨"gap", 1, .binary fun x y => .ok (x - y), "gap(x)"⟩

/-- A choice that is declared with two operands and draws one. -/
def Function.pick : Function :=
  ⟨"pick", 2, .unary fun x => .ok x, "pick(x, y)"⟩

def Registry.misdeclared : Registry where
  operators := .ofList []
  functions := .ofList [("gap", .gap), ("pick", .pick)]
  bindings := .ofList [("a", 1.5), ("b", 2.5)]

/-- What the rules of these definitions draw. -/
def Item.drawn : Item → Nat
  | .literal _ => 0
  | .operator _ => 2
  | .function definition => if definition.name = "gap" then 2 else 1

theorem Registry.draws_misdeclared :
    Registry.misdeclared.Ensures fun item => item.rule.Draws item.drawn where
  literal value := .value value
  operator found := by
    have listed := Table.mem_of_find?_ofList found
    cases listed
  function found := by
    have listed := Table.mem_of_find?_ofList found
    simp only [List.mem_cons, List.not_mem_nil, or_false] at listed
    rcases listed with same | same
    · cases same
      exact .pull fun _ => .pull fun _ => .value _
    · cases same
      exact .pull fun _ => .value _

/-- The two definitions make up for each other, and one alone is found. -/
theorem evaluateWithin_of_misdeclared_pick :
    let both : Program :=
      ⟨[.literal 1.5, .literal 2.5, .function .pick, .function .gap], "gap(pick(a,b))", 4⟩
    let one : Program := ⟨[.literal 1.5, .literal 2.5, .function .pick], "pick(a,b)", 4⟩
    compile Registry.misdeclared "gap(pick(a, b))" 4 = .ok both ∧
      both.evaluateWithin 4 = .ok (1.5 - 2.5) ∧ sumOver (Item.excess Item.drawn) both.items = 0 ∧
      compile Registry.misdeclared "pick(a, b)" 4 = .ok one ∧
      ∃ fault, one.evaluateWithin 4 = .error fault ∧ ∀ cause, fault ≠ .arithmetic cause := by
  intro both one
  have compiledBoth : compile Registry.misdeclared "gap(pick(a, b))" 4 = .ok both := by rfl
  have compiledOne : compile Registry.misdeclared "pick(a, b)" 4 = .ok one := by rfl
  have evaluated : both.evaluateWithin 4 = .ok (1.5 - 2.5) := by rfl
  have tooFew : ∀ item ∈ one.items, item.excess Item.drawn ≤ 0 := by
    simp only [one, List.mem_cons, List.not_mem_nil, or_false]
    rintro item (rfl | rfl | rfl)
    · decide
    · decide
    · decide
  have takes : ∀ item ∈ one.items, item.rule.Takes item.drawn := by
    simp only [one, List.mem_cons, List.not_mem_nil, or_false]
    rintro item (rfl | rfl | rfl)
    · exact .value _
    · exact .value _
    · exact .pull fun _ => .value _
  refine ⟨compiledBoth, evaluated, ?_, compiledOne, ?_⟩
  · exact (evaluateWithin_of_misdeclared Registry.draws_misdeclared compiledBoth 4).1 _ evaluated
  · obtain ⟨fault, failed, foreign⟩ :=
      (evaluateWithin_of_misdeclared Registry.draws_misdeclared compiledOne 4).2 (.function .pick)
        (by simp [one]) (by decide) (.inr (.inl tooFew))
    exact ⟨fault, failed, foreign takes⟩

end Calculator

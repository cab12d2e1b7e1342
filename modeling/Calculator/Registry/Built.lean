import Calculator.Registry

/-!
# Registries and their history

A registry is built when accepted definitions lead to it from the empty one,
in any order. What every definition keeps holds of every built registry: its
functions take arguments and its operators stand under their own symbols.
-/

namespace Calculator.Registry

inductive Built : Registry → Prop where
  | empty : Built empty
  | operator {registry next : Registry} {symbol : String} {precedence : Precedence} {arity : Int}
      {rule : Rule} {usage : String} (built : Built registry)
      (accepted : registry.registerOperator symbol precedence arity rule usage = .ok next) :
      Built next
  | function {registry next : Registry} {name : String} {arity : Int} {rule : Rule}
      {usage : String} (built : Built registry)
      (accepted : registry.registerFunction name arity rule usage = .ok next) : Built next
  | value {registry next : Registry} {name : String} {value : Float} (built : Built registry)
      (accepted : registry.defineVariable name value = .ok next) : Built next
  | layer {registry next : Registry} {values : Table String Float} (built : Built registry)
      (accepted : registry.withVariables values = .ok next) : Built next

theorem registerOperator_eq_ok {registry next : Registry} {symbol : String}
    {precedence : Precedence} {arity : Int} {rule : Rule} {usage : String}
    (accepted : registry.registerOperator symbol precedence arity rule usage = .ok next) :
    ∃ c, checkSymbol symbol = .ok c ∧ registry.operators.contains c = false ∧ arity = 2 ∧
      next = { registry with
        operators := registry.operators.insert c ⟨c, precedence, rule, usage⟩ } := by
  unfold registerOperator at accepted
  cases checked : checkSymbol symbol with
  | error error => simp [checked, bind, Except.bind] at accepted
  | ok c =>
      by_cases two : arity = 2
      · by_cases known : registry.operators.contains c = true
        · simp [checked, two, known, bind, Except.bind, throw, throwThe, MonadExceptOf.throw]
            at accepted
        · simp [checked, two, known, bind, Except.bind, pure, Except.pure] at accepted
          exact ⟨c, rfl, by simpa using known, two, accepted.symm⟩
      · simp [checked, two, bind, Except.bind, throw, throwThe, MonadExceptOf.throw] at accepted

theorem registerFunction_eq_ok {registry next : Registry} {name : String} {arity : Int}
    {rule : Rule} {usage : String}
    (accepted : registry.registerFunction name arity rule usage = .ok next) :
    registry.checkName .function name = .ok () ∧ 1 ≤ arity ∧
      registry.functions.contains name = false ∧
      next = { registry with
        functions := registry.functions.insert name ⟨name, arity.toNat, rule, usage⟩ } := by
  unfold registerFunction at accepted
  cases checked : registry.checkName .function name with
  | error error => simp [checked, bind, Except.bind] at accepted
  | ok _ =>
      by_cases none : arity < 1
      · simp [checked, none, bind, Except.bind, throw, throwThe, MonadExceptOf.throw] at accepted
      · by_cases known : registry.functions.contains name = true
        · simp [checked, none, known, bind, Except.bind, throw, throwThe, MonadExceptOf.throw]
            at accepted
        · simp [checked, none, known, bind, Except.bind, pure, Except.pure] at accepted
          exact ⟨rfl, by omega, by simpa using known, accepted.symm⟩

theorem setVariable_eq_ok {registry next : Registry} {name : String} {value : Float}
    (accepted : registry.setVariable name value = .ok next) :
    registry.checkName .variable name = .ok () ∧
      next = { registry with bindings := registry.bindings.insert name value } := by
  unfold setVariable at accepted
  cases checked : registry.checkName .variable name with
  | error error => simp [checked, bind, Except.bind] at accepted
  | ok _ =>
      simp [checked, bind, Except.bind, pure, Except.pure] at accepted
      exact ⟨rfl, accepted.symm⟩

theorem defineVariable_eq_ok {registry next : Registry} {name : String} {value : Float}
    (accepted : registry.defineVariable name value = .ok next) :
    registry.bindings.contains name = false ∧ registry.setVariable name value = .ok next := by
  unfold defineVariable at accepted
  cases checked : registry.checkName .variable name with
  | error error => simp [checked, bind, Except.bind] at accepted
  | ok _ =>
      by_cases known : registry.bindings.contains name = true
      · simp [checked, known, bind, Except.bind, throw, throwThe, MonadExceptOf.throw] at accepted
      · simp [checked, known, bind, Except.bind, pure, Except.pure] at accepted
        exact ⟨by simpa using known, by
          simp [setVariable, checked, bind, Except.bind, pure, Except.pure, accepted]⟩

/-- What holds of a registry and is kept by every new value holds after a layer of variables. -/
theorem of_withVariables {motive : Registry → Prop}
    (kept : ∀ {registry next : Registry} {name : String} {value : Float},
      registry.setVariable name value = .ok next → motive registry → motive next)
    {registry next : Registry} {values : Table String Float}
    (accepted : registry.withVariables values = .ok next) (start : motive registry) :
    motive next := by
  unfold withVariables at accepted
  generalize values.entries = entries at accepted
  induction entries generalizing registry with
  | nil => cases accepted; exact start
  | cons entry rest ih =>
      rw [List.foldlM_cons] at accepted
      cases step : registry.setVariable entry.1 entry.2 with
      | error error => simp [step, bind, Except.bind] at accepted
      | ok derived =>
          simp only [step, bind, Except.bind] at accepted
          exact ih (kept step start) accepted

namespace Built

/-- What definitions keep holds of the operators and the functions of a built registry. -/
theorem definitions {motive : Table Char Operator → Table String Function → Prop}
    (empty : motive .empty .empty)
    (operator : ∀ {operators functions} (c : Char) (precedence : Precedence) (rule : Rule)
      (usage : String), motive operators functions →
        motive (operators.insert c ⟨c, precedence, rule, usage⟩) functions)
    (function : ∀ {operators functions} (name : String) {arity : Int} (rule : Rule)
      (usage : String), 1 ≤ arity → motive operators functions →
        motive operators (functions.insert name ⟨name, arity.toNat, rule, usage⟩))
    {registry : Registry} (built : Built registry) :
    motive registry.operators registry.functions := by
  have kept {registry next : Registry} {name : String} {value : Float}
      (accepted : registry.setVariable name value = .ok next)
      (before : motive registry.operators registry.functions) :
      motive next.operators next.functions := by
    rw [(setVariable_eq_ok accepted).2]; exact before
  induction built with
  | empty => exact empty
  | operator _ accepted ih =>
      obtain ⟨c, _, _, _, rfl⟩ := registerOperator_eq_ok accepted
      exact operator c _ _ _ ih
  | function _ accepted ih =>
      obtain ⟨_, takes, _, rfl⟩ := registerFunction_eq_ok accepted
      exact function _ _ _ takes ih
  | value _ accepted ih => exact kept (defineVariable_eq_ok accepted).2 ih
  | layer _ accepted ih => exact of_withVariables kept accepted ih

theorem arity_pos {registry : Registry} (built : Built registry) {name : String}
    {function : Function} (found : registry.functions.find? name = some function) :
    0 < function.arity := by
  refine definitions (motive := fun _ functions =>
    ∀ name function, functions.find? name = some function → 0 < function.arity)
    ?_ ?_ ?_ built name function found
  · intro name function found; simp at found
  · intro _ _ _ _ _ _ before; exact before
  · intro _ functions known arity rule usage takes before name function found
    rw [Table.find?_insert] at found
    split at found
    · cases found; exact Int.lt_toNat.2 takes
    · exact before name function found

theorem symbol_eq {registry : Registry} (built : Built registry) {c : Char}
    {operator : Operator} (found : registry.operators.find? c = some operator) :
    operator.symbol = c := by
  refine definitions (motive := fun operators _ =>
    ∀ c operator, operators.find? c = some operator → operator.symbol = c)
    ?_ ?_ ?_ built c operator found
  · intro c operator found; simp at found
  · intro operators _ known _ _ _ before c operator found
    rw [Table.find?_insert] at found
    split at found
    next same => cases found; exact same.symm
    next => exact before c operator found
  · intro _ _ _ _ _ _ _ before; exact before

theorem name_eq {registry : Registry} (built : Built registry) {name : String}
    {function : Function} (found : registry.functions.find? name = some function) :
    function.name = name := by
  refine definitions (motive := fun _ functions =>
    ∀ name function, functions.find? name = some function → function.name = name)
    ?_ ?_ ?_ built name function found
  · intro name function found; simp at found
  · intro _ _ _ _ _ _ before; exact before
  · intro _ functions known arity rule usage takes before name function found
    rw [Table.find?_insert] at found
    split at found
    next same => cases found; exact same.symm
    next => exact before name function found

end Built

end Calculator.Registry

import Calculator.Proofs.Balance
import Calculator.Proofs.Catalog

/-!
# Compilation and the grammar

Compilation accepts the expressions of the grammar whose trees are low enough,
and others: an operand that follows a closing bracket directly passes when an
operator without a right operand takes it.
-/

namespace Calculator

variable {registry : Registry}

/--
A detached source compiles exactly when it is an expression of the grammar whose tree is no higher
than the limit, into the postfix order of that tree. The tree of an expression is unique.
-/
theorem compile_eq_ok_iff_derives (built : registry.Built) (ranked : registry.Ranked)
    (avoids : registry.NamesAvoidSymbols) {expression : String}
    (detached : Detached registry.isOperator (Text.stripBlanks expression).toList) :
    (∀ (maxDepth : Int) (program : Program), compile registry expression maxDepth = .ok program ↔
      ∃ chain, Derives registry Context.allowsSign (.expression chain) .start
          (Text.stripBlanks expression).toList ∧
        (chain.tree.height : Int) ≤ maxDepth ∧
        program = ⟨chain.tree.items, Text.stripBlanks expression, maxDepth⟩) ∧
    ∀ first second : Chain Tree,
      Derives registry Context.allowsSign (.expression first) .start
        (Text.stripBlanks expression).toList →
      Derives registry Context.allowsSign (.expression second) .start
        (Text.stripBlanks expression).toList →
      first.tree = second.tree := by
  have legible := built.legible avoids
  constructor
  · intro maxDepth program
    rw [compile_eq_ok_iff]
    constructor
    · rintro ⟨items, assembled, passes, rfl⟩
      obtain ⟨chain, derives, rfl⟩ := exists_derives legible ranked detached assembled passes
      obtain ⟨tree, complete, fits, same⟩ := checkOperands_eq_ok_iff.1 passes
      have unique := Tree.items_injective complete (Tree.complete_of_all derives.complete) same
      subst unique
      exact ⟨chain, derives, fits, rfl⟩
    · rintro ⟨chain, derives, fits, rfl⟩
      refine ⟨_, derives.assemble legible ranked, ?_, rfl⟩
      exact checkOperands_eq_ok_iff.2
        ⟨chain.tree, Tree.complete_of_all derives.complete, fits, rfl⟩
  · intro first second derivesFirst derivesSecond
    have assembled := derivesFirst.assemble legible ranked
    rw [derivesSecond.assemble legible ranked] at assembled
    exact Tree.items_injective (Tree.complete_of_all derivesFirst.complete)
      (Tree.complete_of_all derivesSecond.complete) (Except.ok.inj assembled).symm

theorem compile_eq_ok_iff_derives_catalog :
    ∃ program chain, compile Catalog.registry "(-1 + PI) * 2" defaultMaxDepth = .ok program ∧
      Derives Catalog.registry Context.allowsSign (.expression chain) .start
        (Text.stripBlanks "(-1 + PI) * 2").toList ∧
      program.items = chain.tree.items := by
  have listed : Detached Catalog.registry.isOperator
      (['(', '-', '1', '+', 'P', 'I'] ++ ')' :: (['*', '2'] ++ [])) :=
    .append _ (by decide) (.close (.operator rfl _) (.append _ (by decide) .nil))
  have detached : Detached Catalog.registry.isOperator
      (Text.stripBlanks "(-1 + PI) * 2").toList := listed
  obtain ⟨characterised, _⟩ := compile_eq_ok_iff_derives (Catalog.built .machine)
    (Catalog.ranked .machine) (Catalog.namesAvoidSymbols .machine) detached
  have compiled : ∃ program, compile Catalog.registry "(-1 + PI) * 2" defaultMaxDepth = .ok program :=
    ⟨_, by rfl⟩
  obtain ⟨program, compiled⟩ := compiled
  obtain ⟨chain, derives, _, rfl⟩ := (characterised defaultMaxDepth program).1 compiled
  exact ⟨_, chain, compiled, derives, rfl⟩

/--
Of the sources that compile, the detached ones are expressions of the grammar and the others are
not, even when signs may stand before every number.
-/
theorem derives_iff_detached (built : registry.Built) (ranked : registry.Ranked)
    (avoids : registry.NamesAvoidSymbols) {expression : String} {maxDepth : Int}
    {program : Program} (compiled : compile registry expression maxDepth = .ok program) :
    (∃ chain, Derives registry (fun _ => true) (.expression chain) .start
      (Text.stripBlanks expression).toList) ↔
      Detached registry.isOperator (Text.stripBlanks expression).toList := by
  have legible := built.legible avoids
  constructor
  · rintro ⟨chain, derives⟩
    have all := derives.detached legible .nil .nil
    rwa [List.append_nil] at all
  · intro detached
    obtain ⟨items, assembled, passes, _⟩ := compile_eq_ok_iff.1 compiled
    obtain ⟨chain, derives, _⟩ := exists_derives legible ranked detached assembled passes
    exact ⟨chain, derives.mono fun _ _ => rfl⟩

theorem derives_iff_detached_catalog :
    ∃ program, compile Catalog.registry "(2) - 3" defaultMaxDepth = .ok program ∧
      ((∃ chain, Derives Catalog.registry (fun _ => true) (.expression chain) .start
          (Text.stripBlanks "(2) - 3").toList) ↔
        Detached Catalog.registry.isOperator (Text.stripBlanks "(2) - 3").toList) := by
  have compiled : ∃ program, compile Catalog.registry "(2) - 3" defaultMaxDepth = .ok program :=
    ⟨_, by rfl⟩
  obtain ⟨program, compiled⟩ := compiled
  exact ⟨program, compiled, derives_iff_detached (Catalog.built .machine)
    (Catalog.ranked .machine) (Catalog.namesAvoidSymbols .machine) compiled⟩

/-- The operator after both operands compiles with the catalog, and is no expression. -/
theorem not_derives_of_adjacent :
    (∃ program, compile Catalog.registry "(2)3*" defaultMaxDepth = .ok program) ∧
      ¬ ∃ chain, Derives Catalog.registry (fun _ => true) (.expression chain) .start
        (Text.stripBlanks "(2)3*").toList := by
  refine ⟨⟨_, by rfl⟩, ?_⟩
  rintro ⟨chain, derives⟩
  have legible := (Catalog.built .machine).legible (Catalog.namesAvoidSymbols .machine)
  have detached := derives.detached legible .nil .nil
  rcases detached ['(', '2'] ['3', '*'] rfl '3' rfl with operator | comma | closing
  · cases operator
  · cases comma
  · cases closing

end Calculator

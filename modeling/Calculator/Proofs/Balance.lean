import Calculator.Proofs.Acceptance

/-!
# What is accepted from a detached source is derived

The operand check counts the values of the whole source only. Where no operand
follows a closing bracket, no part of the source has a value too many, so a
value that some part lacks is not made up for anywhere else.
-/

namespace Calculator

variable {registry : Registry}

/-- How many values a part has over those it should leave: one, or one for each argument. -/
def Part.excess : Part → Int
  | .operands forest => Tree.surplus forest - 1
  | .chain row => row.total Tree.surplus - 1
  | .arguments count forest => Tree.surplus forest - count

theorem Shape.eq_operand {shape : Shape} {forest : List Tree}
    (same : shape.part = .operands forest) : ∃ tree, shape = .operand tree ∧ forest = [tree] := by
  cases shape with
  | operand tree => cases same; exact ⟨tree, rfl, rfl⟩
  | expression chain => cases same
  | arguments trees => cases same

theorem Shape.eq_expression {shape : Shape} {chain : Chain (List Tree)}
    (same : shape.part = .chain chain) :
    ∃ trees, shape = .expression trees ∧ chain = trees.map fun tree => [tree] := by
  cases shape with
  | operand tree => cases same
  | expression trees => cases same; exact ⟨trees, rfl, rfl⟩
  | arguments trees => cases same

theorem Shape.eq_arguments {shape : Shape} {count : Nat} {forest : List Tree}
    (same : shape.part = .arguments count forest) :
    shape = .arguments forest ∧ forest.length = count := by
  cases shape with
  | operand tree => cases same
  | expression trees => cases same
  | arguments trees => cases same; exact ⟨rfl, rfl⟩

theorem Phrase.nothing_of_joins {forest : List Tree} {tokens : List Token}
    (phrase : Phrase registry (.operands forest) tokens)
    (joins : ∀ token ∈ tokens.head?, token.Joins) : forest = [] ∧ tokens = [] := by
  cases phrase with
  | empty => exact ⟨rfl, rfl⟩
  | word known later => exact absurd (joins _ rfl) id
  | bracket inside later => exact absurd (joins _ rfl) id
  | call known inside later => exact absurd (joins _ rfl) id

theorem Derives.word (legible : registry.Legible) {context : Context} {word : List Char}
    {value : Float} (wordAt : WordAt registry.isOperator context.position word)
    (known : registry.valueOf (String.ofList word) = .ok value) :
    Derives registry Context.allowsSign (.operand (.node (.literal value) [])) context word := by
  cases wordAt with
  | @intro c rest _ sign tail =>
      rcases Registry.exists_of_valueOf legible (fun other member => (tail other member).2) known with
        ⟨written, valid, chars, rfl⟩ | found
      · rw [← chars]
        refine .number ⟨?_, valid.digits, valid.nonempty⟩
        intro s member
        obtain ⟨_, plusOrMinus, operator⟩ := valid.sign s member
        have head : s = c := by
          rw [Written.chars, Option.mem_def.1 member] at chars
          exact (List.cons.inj chars).1
        exact ⟨(context.allowsSign_iff).2 (sign (head ▸ operator)), plusOrMinus, operator⟩
      · have derives : Derives registry Context.allowsSign _ context _ := .binding found
        rwa [String.toList_ofList] at derives

theorem Tree.surplus_joinForests (operator : Operator) (left right : List Tree) :
    surplus (joinForests operator left right) = surplus left + surplus right - 1 := by
  rw [joinForests, surplus_node, surplus_append]
  simp [Item.arity]
  omega

theorem Phrase.surplus_grouped (ranked : registry.Ranked) {chain : Chain (List Tree)}
    {tokens : List Token} (phrase : Phrase registry (.chain chain) tokens) :
    Tree.surplus (chain.grouped Tree.joinForests) = chain.total Tree.surplus :=
  Chain.weight_grouped Tree.surplus_joinForests (phrase.ranked ranked)

/-- The part has no value too many, and is derived when it has none too few. -/
def Balanced (registry : Registry) (part : Part) (context : Context) (tokens : List Token) : Prop :=
  part.excess ≤ 0 ∧ (part.excess = 0 → ∃ shape : Shape, shape.part = part ∧
    Derives registry Context.allowsSign shape context (tokens.flatMap Token.chars))

namespace Balanced

variable {context : Context}

theorem empty : Balanced registry (.operands []) context [] := by
  have none : Part.excess (.operands []) = -1 := rfl
  rw [Balanced, none]
  constructor
  · decide
  · intro even
    exact absurd even (by decide)

theorem word (legible : registry.Legible) {word : List Char} {value : Float}
    (wordAt : WordAt registry.isOperator context.position word)
    (known : registry.valueOf (String.ofList word) = .ok value) :
    Balanced registry (.operands [.node (.literal value) []]) context
      [.word (String.ofList word)] := by
  have one : Part.excess (.operands [.node (.literal value) []]) = 0 := by
    rw [Part.excess, Tree.surplus_node]
    rfl
  constructor
  · exact Int.le_of_eq one
  · intro _
    refine ⟨.operand (.node (.literal value) []), rfl, ?_⟩
    have derives := Derives.word legible wordAt known
    simpa [Token.chars] using derives

theorem bracket (ranked : registry.Ranked) {chain : Chain (List Tree)} {inner : List Token}
    (phrase : Phrase registry (.chain chain) inner)
    (inside : Balanced registry (.chain chain) (.bracket context) inner) :
    Balanced registry (.operands (chain.grouped Tree.joinForests)) context
      (.openBracket :: (inner ++ [.closeBracket])) := by
  have same : Part.excess (.operands (chain.grouped Tree.joinForests)) =
      Part.excess (.chain chain) := by
    simp only [Part.excess]
    rw [phrase.surplus_grouped ranked]
  rw [Balanced, same]
  constructor
  · exact inside.1
  · intro balanced
    obtain ⟨shape, part, derives⟩ := inside.2 balanced
    obtain ⟨trees, rfl, rfl⟩ := Shape.eq_expression part
    refine ⟨.operand trees.tree, ?_, ?_⟩
    · rw [Chain.grouped_singletons]
      rfl
    · simpa [Token.chars] using Derives.bracket derives

theorem call {word : List Char} {definition : Function} {arguments : List Tree}
    {inner : List Token} (known : registry.callee (String.ofList word) = .ok definition)
    (inside : Balanced registry (.arguments definition.arity arguments) .call inner) :
    Balanced registry (.operands [.node (.function definition) arguments]) context
      (.call (String.ofList word) :: (inner ++ [.closeBracket])) := by
  have same : Part.excess (.operands [.node (.function definition) arguments]) =
      Part.excess (.arguments definition.arity arguments) := by
    simp only [Part.excess, Tree.surplus_node, Item.arity]
    omega
  rw [Balanced, same]
  constructor
  · exact inside.1
  · intro balanced
    obtain ⟨shape, part, derives⟩ := inside.2 balanced
    obtain ⟨rfl, count⟩ := Shape.eq_arguments part
    refine ⟨.operand (.node (.function definition) arguments), rfl, ?_⟩
    have called : Derives registry Context.allowsSign _ context _ :=
      .call (Registry.find?_of_callee known) derives count
    simpa [Token.chars] using called

theorem single {forest : List Tree} {tokens : List Token}
    (operands : Balanced registry (.operands forest) context tokens) :
    Balanced registry (.chain (.single forest)) context tokens := by
  have same : Part.excess (.chain (.single forest)) = Part.excess (.operands forest) := by
    simp only [Part.excess, Chain.total_single]
  rw [Balanced, same]
  constructor
  · exact operands.1
  · intro balanced
    obtain ⟨shape, part, derives⟩ := operands.2 balanced
    obtain ⟨tree, rfl, rfl⟩ := Shape.eq_operand part
    exact ⟨.expression (.single tree), rfl, .single derives⟩

theorem operator {chain : Chain (List Tree)} {symbol : Char} {definition : Operator}
    {forest : List Tree} {before after : List Token}
    (left : Balanced registry (.chain chain) context before)
    (known : registry.operators.find? symbol = some definition)
    (right : Balanced registry (.operands forest) .operator after) :
    Balanced registry (.chain (chain.extend definition forest)) context
      (before ++ .operator symbol :: after) := by
  have sum : Part.excess (.chain (chain.extend definition forest)) =
      Part.excess (.chain chain) + Part.excess (.operands forest) := by
    simp only [Part.excess, Chain.total_extend]
    omega
  obtain ⟨atMostLeft, evenLeft⟩ := left
  obtain ⟨atMostRight, evenRight⟩ := right
  rw [Balanced, sum]
  constructor
  · omega
  · intro balanced
    obtain ⟨first, partLeft, derivesLeft⟩ := evenLeft (by omega)
    obtain ⟨second, partRight, derivesRight⟩ := evenRight (by omega)
    obtain ⟨trees, rfl, rfl⟩ := Shape.eq_expression partLeft
    obtain ⟨tree, rfl, rfl⟩ := Shape.eq_operand partRight
    refine ⟨.expression (trees.extend definition tree), ?_, ?_⟩
    · rw [← Chain.map_extend]
      rfl
    · simpa [Token.chars] using Derives.operator derivesLeft known derivesRight

theorem argument (ranked : registry.Ranked) {chain : Chain (List Tree)} {tokens : List Token}
    (phrase : Phrase registry (.chain chain) tokens)
    (only : Balanced registry (.chain chain) context tokens) :
    Balanced registry (.arguments 1 (chain.grouped Tree.joinForests)) context tokens := by
  have same : Part.excess (.arguments 1 (chain.grouped Tree.joinForests)) =
      Part.excess (.chain chain) := by
    simp only [Part.excess]
    rw [phrase.surplus_grouped ranked]
    rfl
  rw [Balanced, same]
  constructor
  · exact only.1
  · intro balanced
    obtain ⟨shape, part, derives⟩ := only.2 balanced
    obtain ⟨trees, rfl, rfl⟩ := Shape.eq_expression part
    refine ⟨.arguments [trees.tree], ?_, .argument derives⟩
    rw [Chain.grouped_singletons]
    rfl

theorem separator (ranked : registry.Ranked) {count : Nat} {chain : Chain (List Tree)}
    {forest : List Tree} {before after : List Token}
    (left : Balanced registry (.arguments count forest) context before)
    (phrase : Phrase registry (.chain chain) after)
    (right : Balanced registry (.chain chain) .separator after) :
    Balanced registry (.arguments (count + 1) (forest ++ chain.grouped Tree.joinForests)) context
      (before ++ .separator :: after) := by
  have sum : Part.excess (.arguments (count + 1) (forest ++ chain.grouped Tree.joinForests)) =
      Part.excess (.arguments count forest) + Part.excess (.chain chain) := by
    simp only [Part.excess]
    rw [Tree.surplus_append, phrase.surplus_grouped ranked]
    omega
  obtain ⟨atMostLeft, evenLeft⟩ := left
  obtain ⟨atMostRight, evenRight⟩ := right
  rw [Balanced, sum]
  constructor
  · omega
  · intro balanced
    obtain ⟨first, partLeft, derivesLeft⟩ := evenLeft (by omega)
    obtain ⟨second, partRight, derivesRight⟩ := evenRight (by omega)
    obtain ⟨rfl, length⟩ := Shape.eq_arguments partLeft
    obtain ⟨trees, rfl, rfl⟩ := Shape.eq_expression partRight
    refine ⟨.arguments (forest ++ [trees.tree]), ?_, ?_⟩
    · rw [Chain.grouped_singletons, Shape.part, List.length_append, length]
      rfl
    · simpa [Token.chars] using Derives.separator derivesLeft derivesRight

end Balanced

/-- Tokens that fit are balanced, since nothing may stand after a word or a closing bracket. -/
theorem Phrase.balanced (legible : registry.Legible) (ranked : registry.Ranked) {part : Part}
    {tokens : List Token} (phrase : Phrase registry part tokens) (context : Context)
    (fits : Fits registry.isOperator context.position tokens) :
    Balanced registry part context tokens := by
  induction phrase generalizing context with
  | empty => exact .empty
  | word known later =>
      cases fits with
      | word wordAt joins _ =>
          obtain ⟨rfl, rfl⟩ := later.nothing_of_joins joins
          exact .word legible wordAt known
  | bracket inside later ihInside =>
      cases fits with
      | openBracket fitsAll =>
          obtain ⟨_, closing⟩ := fitsAll.drop
          cases closing with
          | closeBracket joins _ =>
              obtain ⟨rfl, rfl⟩ := later.nothing_of_joins joins
              rw [List.append_nil]
              exact .bracket ranked inside (ihInside (.bracket context) fitsAll.take)
  | call known inside later ihInside =>
      cases fits with
      | call wordAt fitsAll =>
          obtain ⟨_, closing⟩ := fitsAll.drop
          cases closing with
          | closeBracket joins _ =>
              obtain ⟨rfl, rfl⟩ := later.nothing_of_joins joins
              rw [List.append_nil]
              exact .call known (ihInside .call fitsAll.take)
  | single _ ih => exact (ih context fits).single
  | operator _ known _ ihLeft ihRight =>
      obtain ⟨_, fromOperator⟩ := fits.drop
      cases fromOperator with
      | operator fitsRight =>
          exact (ihLeft context fits.take).operator known (ihRight .operator fitsRight)
  | argument only ih => exact .argument ranked only (ih context fits)
  | separator _ right ihLeft ihRight =>
      obtain ⟨_, fromSeparator⟩ := fits.drop
      cases fromSeparator with
      | separator fitsRight =>
          exact .separator ranked (ihLeft context fits.take) right (ihRight .separator fitsRight)

theorem Phrase.placed {part : Part} {tokens : List Token} (phrase : Phrase registry part tokens) :
    .misplacedSign ∉ tokens := by
  induction phrase with
  | empty => simp
  | word _ _ ih => simp [ih]
  | bracket _ _ ihInside ihLater => simp [ihInside, ihLater]
  | call _ _ _ ihInside ihLater => simp [ihInside, ihLater]
  | single _ ih => exact ih
  | operator _ _ _ ihLeft ihRight => simp [ihLeft, ihRight]
  | argument _ ih => exact ih
  | separator _ _ ihLeft ihRight => simp [ihLeft, ihRight]

/-- A detached source whose items pass the operand check is derived. -/
theorem exists_derives (legible : registry.Legible) (ranked : registry.Ranked)
    {source : List Char} (detached : Detached registry.isOperator source) {items : List Item}
    (assembled : assemble registry source = .ok items) {maxDepth : Int}
    (passes : checkOperands items maxDepth = .ok ()) :
    ∃ chain, Derives registry Context.allowsSign (.expression chain) .start source ∧
      items = chain.tree.items := by
  obtain ⟨row, phrase, rfl⟩ := (assemble_eq_ok_iff ranked).1 assembled
  have placed := phrase.placed
  have fits : Fits registry.isOperator Context.start.position
      (Token.ofSource registry.isOperator source) :=
    Scan.fits_tokens legible.not_reserved (.inl ⟨rfl, rfl⟩) detached placed
  have balanced : Part.excess (.chain row) = 0 := by
    have one := Tree.surplus_of_checkOperands passes
    rw [phrase.surplus_grouped ranked] at one
    rw [Part.excess, one]
    rfl
  obtain ⟨shape, part, derives⟩ := (phrase.balanced legible ranked .start fits).2 balanced
  obtain ⟨trees, rfl, rfl⟩ := Shape.eq_expression part
  refine ⟨trees, ?_, ?_⟩
  · rw [Token.ofSource, Scan.chars_tokens legible.not_reserved placed] at derives
    exact derives
  · rw [Chain.grouped_singletons]
    simp [Tree.itemsOf]

end Calculator

import Calculator.Proofs.Brackets
import Calculator.Proofs.Conservation
import Calculator.Proofs.Numeral
import Calculator.Proofs.Phrase
import Calculator.Proofs.Postorder

/-!
# Reading names back

A name is checked against the operators that are known when it is registered,
and an operator that is registered later may use a character of it. A function
can still be called when no operator symbol stands after the first character of
its name; a variable can still be read when it does not look like a number
either.
-/

namespace Calculator

variable {registry : Registry}

/-- No operator symbol stands after the first character of the name. -/
def Registry.ReadsWhole (registry : Registry) (name : String) : Prop :=
  ∀ c ∈ name.toList.tail, registry.isOperator c = false

instance (registry : Registry) (name : String) : Decidable (registry.ReadsWhole name) :=
  List.decidableBAll _ _

/-! ## The source of a name -/

theorem Text.stripBlanks_of_free {text : String} (free : ∀ c ∈ text.toList, isBlank c = false) :
    stripBlanks text = text := by
  have all : text.toList.filter (fun c => !isBlank c) = text.toList := by
    refine List.filter_eq_self.2 ?_
    intro c member
    rw [free c member]
    rfl
  rw [stripBlanks, all, String.ofList_toList]

theorem Registry.notBlank_of_usable {name : String} (usable : ¬ registry.Unusable name) {c : Char}
    (member : c ∈ name.toList) : Text.isBlank c = false := by
  rw [Bool.eq_false_iff]
  intro blank
  exact usable (.inr (.inl ⟨c, member, .inl blank⟩))

/-- A name that is read as a whole is one word at the start of a source. -/
theorem Registry.ReadsWhole.wordAt {name : String} (whole : registry.ReadsWhole name)
    (usable : ¬ Registry.empty.Unusable name) :
    WordAt registry.isOperator .start name.toList := by
  have free (c : Char) (member : c ∈ name.toList) : isReserved c = false :=
    (not_reserved_of_usable usable member).1
  unfold ReadsWhole at whole
  cases shape : name.toList with
  | nil => exact absurd shape (ne_empty_of_usable usable)
  | cons c rest =>
      rw [shape] at free whole
      refine .intro (free c (List.mem_cons_self ..)) (fun _ => .inl rfl) ?_
      intro other member
      exact ⟨free other (List.mem_cons_of_mem _ member), whole other member⟩

/-- Inside a word the scan finds an operator that comes before anything else that ends the word. -/
theorem Scan.exists_operator_mem_tokens {isOperator : Char → Bool} {chars : List Char}
    (free : ∀ c ∈ chars, isReserved c = false) (broken : ∃ c ∈ chars, isOperator c = true)
    (word after : List Char) :
    ∃ symbol, isOperator symbol = true ∧
      .operator symbol ∈ tokens isOperator ⟨.operand, word⟩ (chars ++ after) := by
  induction chars generalizing word with
  | nil =>
      obtain ⟨c, member, _⟩ := broken
      cases member
  | cons c rest ih =>
      cases known : isOperator c with
      | true =>
          rw [List.cons_append, tokens_operator known rfl]
          exact ⟨c, known, List.mem_append_right _ (List.mem_cons_self ..)⟩
      | false =>
          have sign : isOperator c = true → Position.TakesSign .operand := by
            intro operator
            rw [known] at operator
            cases operator
          rw [List.cons_append, tokens_extend (free c (List.mem_cons_self ..)) sign]
          refine ih (fun other member => free other (List.mem_cons_of_mem _ member)) ?_ _
          obtain ⟨symbol, member, operator⟩ := broken
          rcases List.mem_cons.1 member with rfl | later
          · rw [known] at operator
            cases operator
          · exact ⟨symbol, later, operator⟩

/-- A name that is not read as a whole is broken at an operator. -/
theorem exists_operator_mem_tokens {name : String} (broken : ¬ registry.ReadsWhole name)
    (usable : ¬ Registry.empty.Unusable name) (after : List Char) :
    ∃ symbol, registry.isOperator symbol = true ∧
      .operator symbol ∈ Token.ofSource registry.isOperator (name.toList ++ after) := by
  have free (c : Char) (member : c ∈ name.toList) : isReserved c = false :=
    (Registry.not_reserved_of_usable usable member).1
  simp only [Registry.ReadsWhole, Classical.not_forall, Bool.not_eq_false] at broken
  obtain ⟨symbol, inTail, operator⟩ := broken
  cases shape : name.toList with
  | nil => exact absurd shape (Registry.ne_empty_of_usable usable)
  | cons c rest =>
      rw [shape] at free inTail
      have begun : Token.ofSource registry.isOperator (c :: rest ++ after) =
          Scan.tokens registry.isOperator ⟨.operand, [c]⟩ (rest ++ after) :=
        Scan.tokens_extend (free c (List.mem_cons_self ..)) (fun _ => .inl rfl) _
      rw [begun]
      exact Scan.exists_operator_mem_tokens
        (fun other member => free other (List.mem_cons_of_mem _ member))
        ⟨symbol, inTail, operator⟩ [c] after

/-- Where the brackets match, an operator of the source is an item of the program. -/
theorem exists_operator_mem_items (symbols : Unreserved registry.isOperator) {source : List Char}
    {items : List Item} (assembled : assemble registry source = .ok items)
    (even : source.count ')' = source.count '(') {symbol : Char}
    (known : registry.isOperator symbol = true)
    (member : .operator symbol ∈ Token.ofSource registry.isOperator source) :
    ∃ definition, .operator definition ∈ items := by
  obtain ⟨definition, found⟩ := Option.isSome_iff_exists.1 known
  have total := count_close_eq symbols assembled
  have none : registry.openingOperators source = 0 := by omega
  rw [registry.openingOperators_eq, List.countP_eq_zero] at none
  have above : definition.precedence ≠ .openBracket := by
    intro lowest
    apply none _ member
    rw [Registry.opensWith, found]
    simpa using lowest
  refine ⟨definition, (items_perm_of_assemble assembled).mem_iff.2 ?_⟩
  refine List.mem_filterMap.2 ⟨_, member, ?_⟩
  rw [Registry.itemOf?, found, Option.bind_some, Assembly.entryOf, if_neg above]
  rfl

/-! ## A variable -/

theorem assemble_word {name : String} (wordAt : WordAt registry.isOperator .start name.toList)
    (symbols : Unreserved registry.isOperator) :
    assemble registry name.toList = (registry.valueOf name).map fun value => [.literal value] := by
  have tokens : Token.ofSource registry.isOperator name.toList = [.word name] := by
    have scanned := Scan.tokens_word symbols wordAt Ends.nil
    rw [List.append_nil, String.ofList_toList] at scanned
    exact scanned
  rw [assemble, tokens]
  cases known : registry.valueOf name with
  | error error => simp [Assembly.acceptAll, Assembly.accept_word_eq, known, bind, Except.bind, Except.map]
  | ok value =>
      simp [Assembly.acceptAll, Assembly.accept_word_eq, known, bind, Except.bind, Except.map,
        Assembly.emit, Assembly.finish, Assembly.unwind, Assembly.release, Assembly.empty, pure,
        Except.pure]

/-- The value of a variable is read unless its name now looks like another number. -/
theorem Registry.valueOf_eq_ok_iff {name : String} {value : Float}
    (found : registry.bindings.find? name = some value) :
    registry.valueOf name = .ok value ↔
      (registry.isNumberWord name = true → number? name = some value) := by
  unfold valueOf
  by_cases numeric : registry.isNumberWord name = true
  · rw [if_pos numeric]
    cases number? name with
    | none => simp [numeric]
    | some read => simp [numeric]
  · simp [numeric, found]

/-! ## A call -/

/-- The call of a function on as many zeros. -/
def zeroCall (name : String) (count : Nat) : String :=
  name ++ "(" ++ ",".intercalate (List.replicate count "0") ++ ")"

def zeros (count : Nat) : List Char :=
  [','].intercalate (List.replicate count ['0'])

theorem zeros_succ (count : Nat) : zeros (count + 2) = '0' :: ',' :: zeros (count + 1) :=
  List.intercalate_cons_cons

theorem mem_zeros {count : Nat} {c : Char} (member : c ∈ zeros (count + 1)) :
    c = '0' ∨ c = ',' := by
  induction count with
  | zero => exact .inl (List.mem_singleton.1 member)
  | succ count ih =>
      rw [zeros_succ, List.mem_cons, List.mem_cons] at member
      rcases member with zero | comma | later
      · exact .inl zero
      · exact .inr comma
      · exact ih later

theorem toList_zeroCall (name : String) (count : Nat) :
    (zeroCall name count).toList = name.toList ++ '(' :: (zeros count ++ [')']) := by
  simp [zeroCall, zeros, String.toList_append, String.toList_intercalate]

/-- The tokens of zeros with separators between them. -/
def zeroTokens : Nat → List Token
  | 0 => [.word "0"]
  | count + 1 => .word "0" :: .separator :: zeroTokens count

theorem tokens_zeros {isOperator : Char → Bool} (symbols : Unreserved isOperator)
    (plain : isOperator '0' = false) (count : Nat) (position : Position) :
    Scan.tokens isOperator ⟨position, []⟩ (zeros (count + 1) ++ [')']) =
      zeroTokens count ++ [.closeBracket] := by
  have wordAt (position : Position) : WordAt isOperator position ['0'] := by
    refine .intro rfl ?_ (by simp)
    intro operator
    rw [plain] at operator
    cases operator
  induction count generalizing position with
  | zero =>
      have scanned := Scan.tokens_word symbols (wordAt position) (Ends.closeBracket [])
      rw [Scan.tokens_closeBracket (symbols.not_operator rfl)] at scanned
      exact scanned
  | succ count ih =>
      have scanned := Scan.tokens_word symbols (wordAt position)
        (Ends.separator (zeros (count + 1) ++ [')']))
      rw [Scan.tokens_separator (symbols.not_operator rfl), ih .operand] at scanned
      rw [zeros_succ]
      exact scanned

theorem Registry.valueOf_zero (registry : Registry) : registry.valueOf "0" = .ok 0.0 := by
  have numeric : registry.isNumberWord "0" = true := rfl
  rw [valueOf, if_pos numeric]
  rfl

namespace Assembly

/-- Zeros are put out one by one, and the bracket below them counts the separators. -/
theorem acceptAll_zeros (registry : Registry) (call : Option Function) (separators : Nat)
    (pending : List Pending) (output : List Item) (count : Nat) :
    acceptAll registry ⟨.bracket call separators :: pending, output⟩ (zeroTokens count) =
      .ok ⟨.bracket call (separators + count) :: pending,
        List.replicate (count + 1) (.literal 0.0) ++ output⟩ := by
  induction count generalizing separators output with
  | zero =>
      rw [zeroTokens, acceptAll_cons (accept_word registry.valueOf_zero _)]
      rfl
  | succ count ih =>
      have separated : accept registry ⟨.bracket call separators :: pending, .literal 0.0 :: output⟩
          .separator = .ok ⟨.bracket call (separators + 1) :: pending, .literal 0.0 :: output⟩ :=
        accept_separator rfl
      rw [zeroTokens, acceptAll_cons (accept_word registry.valueOf_zero _), emit,
        acceptAll_cons separated, ih, Nat.add_assoc, Nat.add_comm 1 count,
        List.replicate_succ' (n := count + 1), List.append_assoc]
      rfl

end Assembly

theorem assemble_zeroCall {name : String} {definition : Function} {count : Nat}
    (wordAt : WordAt registry.isOperator .start name.toList)
    (symbols : Unreserved registry.isOperator) (plain : registry.isOperator '0' = false)
    (found : registry.functions.find? name = some definition)
    (takes : definition.arity = count + 1) :
    assemble registry (name.toList ++ '(' :: (zeros (count + 1) ++ [')'])) =
      .ok (List.replicate (count + 1) (.literal 0.0) ++ [.function definition]) := by
  have tokens : Token.ofSource registry.isOperator
      (name.toList ++ '(' :: (zeros (count + 1) ++ [')'])) =
      .call name :: (zeroTokens count ++ [.closeBracket]) := by
    rw [Token.ofSource, Scan.initial, Scan.tokens_wordCall symbols wordAt,
      tokens_zeros symbols plain, String.ofList_toList]
  have called : registry.callee name = .ok definition := by
    rw [Registry.callee, found]
  have inside := Assembly.acceptAll_zeros registry (some definition) 0 [.function definition] []
    count
  have closes : Assembly.Closes (some definition) (0 + count) := by
    rw [Assembly.Closes, takes, Nat.zero_add]
  have closed (output : List Item) : Assembly.accept registry
      ⟨[.bracket (some definition) (0 + count), .function definition], output⟩ .closeBracket =
        .ok ⟨[.function definition], output⟩ :=
    Assembly.accept_closeBracket rfl closes
  have accepted : Assembly.empty.acceptAll registry
      (.call name :: (zeroTokens count ++ [.closeBracket])) =
      .ok ⟨[.function definition], List.replicate (count + 1) (.literal 0.0) ++ []⟩ := by
    rw [Assembly.acceptAll_cons (Assembly.accept_call called _)]
    refine (Assembly.acceptAll_append_of_ok inside _).trans ?_
    rw [Assembly.acceptAll_cons (closed _)]
    rfl
  rw [assemble, tokens, accepted]
  change Except.ok _ = Except.ok _
  simp

theorem foldlM_literals {maxDepth : Int} (fits : 1 ≤ maxDepth) (value : Float) (count : Nat)
    (below : List Nat) :
    (List.replicate count (.literal value)).foldlM (Item.stack maxDepth) below =
      .ok (List.replicate count 1 ++ below) := by
  induction count generalizing below with
  | zero => rfl
  | succ count ih =>
      have pushed : Item.stack maxDepth below (.literal value) = .ok (1 :: below) :=
        if_neg (Int.not_lt.2 fits)
      rw [List.replicate_succ, List.foldlM_cons, pushed, List.replicate_succ', List.append_assoc]
      exact ih (1 :: below)

theorem heightOver_ones_le (count : Nat) : heightOver (List.replicate count 1) ≤ 2 := by
  induction count with
  | zero => decide
  | succ count ih =>
      have low := Nat.max_le.2 ⟨Nat.le_refl 1, Nat.le_of_succ_le_succ ih⟩
      exact Nat.succ_le_succ low

theorem checkOperands_zeroCall (definition : Function) {maxDepth : Int} (fits : 2 ≤ maxDepth) :
    checkOperands (List.replicate definition.arity (.literal 0.0) ++ [.function definition])
      maxDepth = .ok () := by
  have operands := foldlM_literals (Int.le_trans (by decide) fits) 0.0 definition.arity []
  have low := heightOver_ones_le definition.arity
  have notTooDeep : ¬ maxDepth < (heightOver (List.replicate definition.arity 1) : Int) := by omega
  rw [checkOperands, List.foldlM_append, operands]
  simp [bind, Except.bind, pure, Except.pure, Item.stack, Item.arity, notTooDeep]

/-! ## Names that stay usable -/

theorem compile_source {items : List Item} {text : String} {maxDepth : Int}
    (free : ∀ c ∈ text.toList, Text.isBlank c = false) :
    compile registry text maxDepth = .ok ⟨items, text, maxDepth⟩ ↔
      assemble registry text.toList = .ok items ∧ checkOperands items maxDepth = .ok () := by
  rw [compile_eq_ok_iff, Text.stripBlanks_of_free free]
  constructor
  · rintro ⟨_, assembled, passes, same⟩
    cases same
    exact ⟨assembled, passes⟩
  · rintro ⟨assembled, passes⟩
    exact ⟨items, assembled, passes, rfl⟩

/-- A program without operators is compiled from a name that is read as a whole. -/
theorem readsWhole_of_assemble (symbols : Unreserved registry.isOperator) {name : String}
    (usable : ¬ Registry.empty.Unusable name) {after : List Char} {items : List Item}
    (assembled : assemble registry (name.toList ++ after) = .ok items)
    (even : after.count ')' = after.count '(')
    (plain : ∀ definition, .operator definition ∉ items) : registry.ReadsWhole name := by
  apply Classical.byContradiction
  intro broken
  have free {c : Char} (reserved : isReserved c = true) : c ∉ name.toList := by
    intro member
    rw [(Registry.not_reserved_of_usable usable member).1] at reserved
    cases reserved
  have matching : (name.toList ++ after).count ')' = (name.toList ++ after).count '(' := by
    rw [List.count_append, List.count_append, List.count_eq_zero.2 (free rfl),
      List.count_eq_zero.2 (free rfl), even]
  obtain ⟨symbol, known, member⟩ := exists_operator_mem_tokens broken usable after
  obtain ⟨definition, inItems⟩ :=
    exists_operator_mem_items symbols assembled matching known member
  exact plain definition inItems

theorem compile_binding_iff (built : registry.Built) {name : String} {value : Float}
    (found : registry.bindings.find? name = some value) {maxDepth : Int} (fits : 1 ≤ maxDepth) :
    compile registry name maxDepth = .ok ⟨[.literal value], name, maxDepth⟩ ↔
      registry.ReadsWhole name ∧
        (registry.isNumberWord name = true → Registry.number? name = some value) := by
  have usable := built.checked.binding found
  have passes : checkOperands [.literal value] maxDepth = .ok () := by
    have pushed := foldlM_literals fits value 1 []
    rw [List.replicate_one] at pushed
    rw [checkOperands, pushed]
    rfl
  rw [compile_source fun c member => Registry.notBlank_of_usable usable member]
  constructor
  · rintro ⟨assembled, _⟩
    have whole : registry.ReadsWhole name := by
      have source : assemble registry (name.toList ++ []) = .ok [.literal value] := by
        rw [List.append_nil, assembled]
      exact readsWhole_of_assemble built.unreserved usable source rfl (by simp)
    rw [assemble_word (whole.wordAt usable) built.unreserved] at assembled
    obtain ⟨read, known, same⟩ := map_eq_ok assembled
    cases same
    exact ⟨whole, (Registry.valueOf_eq_ok_iff found).1 known⟩
  · rintro ⟨whole, read⟩
    rw [assemble_word (whole.wordAt usable) built.unreserved,
      (Registry.valueOf_eq_ok_iff found).2 read]
    exact ⟨rfl, passes⟩

theorem compile_zeroCall_iff (built : registry.Built) {name : String} {definition : Function}
    (found : registry.functions.find? name = some definition) {maxDepth : Int}
    (fits : 2 ≤ maxDepth) :
    compile registry (zeroCall name definition.arity) maxDepth =
        .ok ⟨List.replicate definition.arity (.literal 0.0) ++ [.function definition],
          zeroCall name definition.arity, maxDepth⟩ ↔
      registry.ReadsWhole name := by
  have usable := built.checked.function found
  obtain ⟨count, takes⟩ := Nat.exists_eq_add_one.2 (built.arity_pos found)
  have free : ∀ c ∈ (zeroCall name definition.arity).toList, Text.isBlank c = false := by
    intro c member
    rw [toList_zeroCall, takes, List.mem_append, List.mem_cons, List.mem_append] at member
    rcases member with inName | rfl | inZeros | last
    · exact Registry.notBlank_of_usable usable inName
    · rfl
    · rcases mem_zeros inZeros with rfl | rfl
      · rfl
      · rfl
    · rw [List.mem_singleton.1 last]
      rfl
  rw [compile_source free, toList_zeroCall, takes]
  constructor
  · rintro ⟨assembled, _⟩
    refine readsWhole_of_assemble built.unreserved usable assembled ?_ (by simp)
    have noBracket {bracket : Char} (notZero : bracket ≠ '0') (notComma : bracket ≠ ',') :
        (zeros (count + 1)).count bracket = 0 := by
      refine List.count_eq_zero.2 ?_
      intro member
      rcases mem_zeros member with zero | comma
      · exact notZero zero
      · exact notComma comma
    simp [noBracket]
  · intro whole
    have plain : registry.isOperator '0' = false := by
      rw [Bool.eq_false_iff]
      intro operator
      exact absurd (built.checked.operator operator).notNumber (by decide)
    refine ⟨assemble_zeroCall (whole.wordAt usable) built.unreserved plain found takes, ?_⟩
    rw [← takes]
    exact checkOperands_zeroCall definition fits

/-- A name without operator symbols is read as a whole, and is no number. -/
theorem readsWhole_of_avoids {name : String} (usable : ¬ Registry.empty.Unusable name)
    (avoids : ∀ c ∈ name.toList, registry.isOperator c = false) :
    registry.ReadsWhole name ∧ registry.isNumberWord name = false := by
  constructor
  · intro c member
    exact avoids c (List.mem_of_mem_tail member)
  · rw [Bool.eq_false_iff]
    intro numeric
    refine usable (.inr (.inr ?_))
    intro c member
    have char := List.all_eq_true.1 numeric c member
    rw [avoids c member, Bool.or_false] at char
    exact Registry.isNumberChar_iff.1 char

/--
A variable is read from its name, and a function called by its name, exactly when no operator that
was registered later breaks the name or makes a number of it. Names without symbols always stay
usable.
-/
theorem usable_iff_readsWhole (built : registry.Built) :
    (∀ name value, registry.bindings.find? name = some value → ∀ maxDepth : Int, 1 ≤ maxDepth →
      (compile registry name maxDepth = .ok ⟨[.literal value], name, maxDepth⟩ ↔
        registry.ReadsWhole name ∧
          (registry.isNumberWord name = true → Registry.number? name = some value))) ∧
    (∀ name definition, registry.functions.find? name = some definition →
      ∀ maxDepth : Int, 2 ≤ maxDepth →
        (compile registry (zeroCall name definition.arity) maxDepth =
            .ok ⟨List.replicate definition.arity (.literal 0.0) ++ [.function definition],
              zeroCall name definition.arity, maxDepth⟩ ↔
          registry.ReadsWhole name)) ∧
    ∀ name, registry.functions.contains name = true ∨ registry.bindings.contains name = true →
      (∀ c ∈ name.toList, registry.isOperator c = false) →
      registry.ReadsWhole name ∧ registry.isNumberWord name = false := by
  refine ⟨?_, ?_, ?_⟩
  · intro name value found maxDepth fits
    exact compile_binding_iff built found fits
  · intro name definition found maxDepth fits
    exact compile_zeroCall_iff built found fits
  · rintro name (function | binding) avoids
    · obtain ⟨definition, found⟩ := Option.isSome_iff_exists.1 function
      exact readsWhole_of_avoids (built.checked.function found) avoids
    · obtain ⟨value, found⟩ := Option.isSome_iff_exists.1 binding
      exact readsWhole_of_avoids (built.checked.binding found) avoids

/-- Two variables and a function whose names have a plus, which became an operator after them. -/
def Registry.belated : Registry where
  operators := .ofList [('+', ⟨'+', .add, .binary fun x y => .ok (x + y), "x + y"⟩)]
  functions := .ofList [("+f", ⟨"+f", 2, .binary fun x _ => .ok x, "+f(x, y)"⟩)]
  bindings := .ofList [("a+b", 1.5), ("+c", 2.5)]

theorem Registry.built_belated : belated.Built :=
  @Built.operator _ _ "+" .add 2 (.binary fun x y => .ok (x + y)) "x + y"
    (@Built.function _ _ "+f" 2 (.binary fun x _ => .ok x) "+f(x, y)"
      (@Built.value _ _ "+c" 2.5 (@Built.value _ _ "a+b" 1.5 .empty rfl) rfl) rfl) rfl

theorem usable_iff_readsWhole_belated :
    compile Registry.belated "+c" 1 = .ok ⟨[.literal 2.5], "+c", 1⟩ ∧
      (∃ definition, compile Registry.belated "+f(0,0)" 2 =
        .ok ⟨[.literal 0.0, .literal 0.0, .function definition], "+f(0,0)", 2⟩) ∧
      compile Registry.belated "a+b" 1 ≠ .ok ⟨[.literal 1.5], "a+b", 1⟩ := by
  obtain ⟨ofVariable, ofFunction, _⟩ := usable_iff_readsWhole Registry.built_belated
  refine ⟨?_, ?_, ?_⟩
  · refine (ofVariable "+c" 2.5 rfl 1 (by decide)).2 ⟨by decide, ?_⟩
    intro numeric
    cases numeric
  · exact ⟨_, (ofFunction "+f" _ rfl 2 (by decide)).2 (by decide)⟩
  · intro compiled
    have whole := ((ofVariable "a+b" 1.5 rfl 1 (by decide)).1 compiled).1
    exact absurd (whole '+' (by decide)) (by decide)

/-- The variable is no longer what its name is compiled to. -/
theorem not_usable_of_later_operator :
    Registry.belated.Built ∧ Registry.belated.bindings.find? "a+b" = some 1.5 ∧
      compile Registry.belated "a+b" defaultMaxDepth = .error ⟨.variable, "a"⟩ :=
  ⟨Registry.built_belated, rfl, rfl⟩

end Calculator

import Mathlib.Data.List.Basic
import Calculator.Proofs.Agreement
import Calculator.Proofs.Catalog
import Calculator.Proofs.Conservation
import Calculator.Proofs.Phrase
import Calculator.Proofs.Scan

/-!
# Pieces of a source

A source falls into pieces: a word, which may be empty, and what ends it. One
bit says how to read an operator symbol: as a sign that joins the word at the
start and after an operator or an opening bracket, and as an end elsewhere.
The pieces leave no character out, and a program that compiles holds exactly
what they stand for. Its literals are in the order of their words, although
operators and calls move to the output past them.
-/

namespace Calculator

inductive Ending where
  | openBracket
  | closeBracket
  | separator
  | operator (symbol : Char)
deriving Repr, DecidableEq

namespace Ending

def char : Ending → Char
  | .openBracket => '('
  | .closeBracket => ')'
  | .separator => ','
  | .operator symbol => symbol

/-- An operator symbol that comes next is a sign. -/
def opens : Ending → Bool
  | .openBracket | .operator _ => true
  | .closeBracket | .separator => false

/-- How a character ends a word, if it does. -/
def ofChar? (isOperator : Char → Bool) (opened : Bool) (c : Char) : Option Ending :=
  if isOperator c then if opened then none else some (.operator c)
  else if c = '(' then some .openBracket
  else if c = ')' then some .closeBracket
  else if c = ',' then some .separator
  else none

theorem char_of_ofChar? {isOperator : Char → Bool} {opened : Bool} {c : Char} {ending : Ending}
    (ends : ofChar? isOperator opened c = some ending) : ending.char = c := by
  unfold ofChar? at ends
  split at ends
  · split at ends
    · cases ends
    · cases ends
      rfl
  · split at ends
    next same => cases ends; exact same.symm
    next =>
      split at ends
      next same => cases ends; exact same.symm
      next =>
        split at ends
        next same => cases ends; exact same.symm
        next => cases ends

/-- A sign and an ordinary character join the word. -/
theorem ofChar?_eq_none {isOperator : Char → Bool} {opened : Bool} {c : Char}
    (notReserved : isReserved c = false) (sign : isOperator c = true → opened = true) :
    ofChar? isOperator opened c = none := by
  rw [isReserved_eq_false_iff] at notReserved
  cases known : isOperator c with
  | false => simp [ofChar?, known, notReserved]
  | true => simp [ofChar?, known, sign known]

end Ending

/-- A word and what ends it; the last piece of a source has no end. -/
structure Piece where
  word : List Char
  ending : Option Ending
deriving Repr, DecidableEq

namespace Piece

variable {isOperator : Char → Bool}

def chars (piece : Piece) : List Char :=
  piece.word ++ (piece.ending.map Ending.char).toList

/-- The pieces of the remaining characters after the begun word. -/
def split (isOperator : Char → Bool) (opened : Bool) (word : List Char) : List Char → List Piece
  | [] => [⟨word, none⟩]
  | c :: rest =>
      match Ending.ofChar? isOperator opened c with
      | some ending => ⟨word, some ending⟩ :: split isOperator ending.opens [] rest
      | none => split isOperator false (word ++ [c]) rest

def ofSource (isOperator : Char → Bool) (source : List Char) : List Piece :=
  split isOperator true [] source

/-- The word of a piece that stands for a value. -/
def valueWord? (piece : Piece) : Option String :=
  if piece.word = [] ∨ piece.ending = some .openBracket then none
  else some (String.ofList piece.word)

/-- The word of a piece that calls a function. -/
def callWord? (piece : Piece) : Option String :=
  if piece.word ≠ [] ∧ piece.ending = some .openBracket then some (String.ofList piece.word)
  else none

/-- The symbol of an operator that ends a piece, which is not a sign. -/
def symbol? (piece : Piece) : Option Char :=
  match piece.ending with
  | some (.operator symbol) => some symbol
  | _ => none

theorem flatMap_chars_split (opened : Bool) (word source : List Char) :
    (split isOperator opened word source).flatMap chars = word ++ source := by
  induction source generalizing opened word with
  | nil => simp [split, chars]
  | cons c rest ih =>
      rw [split]
      split
      next ending ends =>
        rw [List.flatMap_cons, ih, chars]
        simp [Ending.char_of_ofChar? ends]
      next => simp [ih]

theorem flatMap_chars_ofSource (source : List Char) :
    (ofSource isOperator source).flatMap chars = source :=
  flatMap_chars_split true [] source

/-! ## The tokens of the pieces -/

def wordTokens (piece : Piece) : List Token :=
  if piece.word = [] then [] else [.word (String.ofList piece.word)]

/-- The tokens that a piece stands for. -/
def tokens (piece : Piece) : List Token :=
  match piece.ending with
  | none => piece.wordTokens
  | some .openBracket =>
      if piece.word = [] then [.openBracket] else [.call (String.ofList piece.word)]
  | some .closeBracket => piece.wordTokens ++ [.closeBracket]
  | some .separator => piece.wordTokens ++ [.separator]
  | some (.operator symbol) => piece.wordTokens ++ [.operator symbol]

end Piece

namespace Token

/-- The symbol of an operator. -/
def symbol? : Token → Option Char
  | .operator symbol => some symbol
  | _ => none

/-- The word of a call. -/
def callWord? : Token → Option String
  | .call text => some text
  | _ => none

end Token

theorem Position.allowsSign_afterBracket (position : Position) :
    position.afterBracket.allowsSign = true := by
  cases position <;> rfl

theorem Position.TakesSign.allowsSign {position : Position} (takes : position.TakesSign) :
    position.allowsSign = true := by
  rcases takes with rfl | rfl
  · rfl
  · rfl

namespace Scan

variable {isOperator : Char → Bool}

theorem finish_eq_wordTokens (scan : Scan) (ending : Option Ending) :
    scan.finish = Piece.wordTokens ⟨scan.word.reverse, ending⟩ := by
  simp [finish, Piece.wordTokens, text]

/-- The scan reads a sign where the pieces do, and emits their tokens. -/
theorem tokens_eq_flatMap_split (symbols : Unreserved isOperator) {source : List Char}
    {scan : Scan} (placed : .misplacedSign ∉ scan.tokens isOperator source) :
    scan.tokens isOperator source =
      (Piece.split isOperator scan.position.allowsSign scan.word.reverse source).flatMap
        Piece.tokens := by
  induction source generalizing scan with
  | nil => simp [tokens, Piece.split, Piece.tokens, scan.finish_eq_wordTokens none]
  | cons c rest ih =>
      rcases read_cases symbols scan c with ⟨operator, inside⟩ | ⟨operator, nested⟩ |
        ⟨_, rfl | rfl | rfl⟩ | ⟨notReserved, sign⟩
      · have ends : Ending.ofChar? isOperator scan.position.allowsSign c = some (.operator c) := by
          simp [Ending.ofChar?, operator, inside, Position.allowsSign]
        rw [tokens_operator operator inside] at placed ⊢
        simp only [List.mem_append, List.mem_cons, not_or] at placed
        rw [Piece.split, ends, ih placed.2.2, scan.finish_eq_wordTokens (some (.operator c))]
        simp [Piece.tokens, Position.allowsSign, Ending.opens]
      -- Only here do both part: the pieces would go on with a sign.
      · simp [tokens, read_misplacedSign operator nested] at placed
      · have notOperator := symbols.not_operator (c := '(') rfl
        by_cases empty : scan.word = []
        · rw [tokens_openBracket scan notOperator empty] at placed ⊢
          rw [List.mem_cons, not_or] at placed
          simp [Piece.split, Ending.ofChar?, notOperator, ih placed.2, Piece.tokens, empty,
            Ending.opens, Position.allowsSign_afterBracket]
        · rw [tokens_call notOperator empty] at placed ⊢
          rw [List.mem_cons, not_or] at placed
          simp [Piece.split, Ending.ofChar?, notOperator, ih placed.2, Piece.tokens, empty,
            Ending.opens, Position.allowsSign_afterBracket, text]
      · have notOperator := symbols.not_operator (c := ')') rfl
        rw [tokens_closeBracket notOperator] at placed ⊢
        simp only [List.mem_append, List.mem_cons, not_or] at placed
        rw [ih placed.2.2, scan.finish_eq_wordTokens (some .closeBracket)]
        simp [Piece.split, Ending.ofChar?, notOperator, Piece.tokens, Position.allowsSign,
          Ending.opens]
      · have notOperator := symbols.not_operator (c := ',') rfl
        rw [tokens_separator notOperator] at placed ⊢
        simp only [List.mem_append, List.mem_cons, not_or] at placed
        rw [ih placed.2.2, scan.finish_eq_wordTokens (some .separator)]
        simp [Piece.split, Ending.ofChar?, notOperator, Piece.tokens, Position.allowsSign,
          Ending.opens]
      · have goesOn := Ending.ofChar?_eq_none notReserved fun known => (sign known).allowsSign
        rw [tokens_extend notReserved sign] at placed ⊢
        rw [Piece.split, goesOn, ih placed, List.reverse_cons]
        rfl

end Scan

namespace Piece

/-- What the tokens of pieces stand for is read off the pieces, one by one. -/
theorem filterMap_tokens {α : Type} {ofToken : Token → Option α} {ofPiece : Piece → Option α}
    (each : ∀ piece : Piece, piece.tokens.filterMap ofToken = (ofPiece piece).toList)
    (pieces : List Piece) :
    (pieces.flatMap tokens).filterMap ofToken = pieces.filterMap ofPiece := by
  rw [List.filterMap_flatMap, funext each, List.filterMap_eq_flatMap_toList]

theorem filterMap_tokens_piece (piece : Piece) :
    piece.tokens.filterMap Token.valueWord? = piece.valueWord?.toList ∧
      piece.tokens.filterMap Token.symbol? = piece.symbol?.toList ∧
      piece.tokens.filterMap Token.callWord? = piece.callWord?.toList := by
  obtain ⟨word, ending⟩ := piece
  by_cases empty : word = []
  · rcases ending with _ | _ | _ | _ | symbol <;>
      simp [tokens, wordTokens, valueWord?, symbol?, callWord?, Token.valueWord?, Token.symbol?,
        Token.callWord?, empty]
  · rcases ending with _ | _ | _ | _ | symbol <;>
      simp [tokens, wordTokens, valueWord?, symbol?, callWord?, Token.valueWord?, Token.symbol?,
        Token.callWord?, empty, List.filterMap_cons]

end Piece

/-! ## The items of the tokens -/

namespace Item

def literal? : Item → Option Float
  | .literal value => some value
  | _ => none

def operator? : Item → Option Operator
  | .operator definition => some definition
  | _ => none

def function? : Item → Option Function
  | .function definition => some definition
  | _ => none

end Item

variable {registry : Registry}

namespace Assembly

/-- The values in the output, the first one first. -/
def literals (assembly : Assembly) : List Float :=
  assembly.output.reverse.filterMap Item.literal?

/-- What waits on the stack is no literal. -/
theorem literals_release (bound : Precedence) (pending : List Pending) (output : List Item) :
    (release bound pending output).literals = literals ⟨pending, output⟩ := by
  obtain ⟨moved, kept, rfl, _, _, released⟩ := release_spec bound pending output
  have none : (moved.filterMap Pending.item?).filterMap Item.literal? = [] := by
    rw [List.filterMap_filterMap, List.filterMap_eq_nil_iff]
    intro entry _
    cases entry <;> rfl
  rw [released, literals, literals, List.reverse_append, List.reverse_reverse,
    List.filterMap_append, none, List.append_nil]

theorem literals_unwind {assembly unwound : Assembly} (same : assembly.unwind = unwound) :
    unwound.literals = assembly.literals := by
  rw [← same]
  exact literals_release .openBracket assembly.pending assembly.output

theorem literals_acceptAll {tokens : List Token} {assembly : Assembly}
    (accepted : empty.acceptAll registry tokens = .ok assembly) :
    assembly.literals.map .ok = (tokens.filterMap Token.valueWord?).map registry.valueOf := by
  refine acceptAll_induction (motive := fun read reached =>
    reached.literals.map .ok = (read.filterMap Token.valueWord?).map registry.valueOf) ?_ [] rfl
    accepted
  intro read reached token next before accepts
  rw [List.filterMap_append, List.map_append, ← before]
  cases accepts with
  | word known => simp [literals, emit, Item.literal?, Token.valueWord?, known]
  | call known => simp [literals, openCall, push, Token.valueWord?]
  | @operator symbol definition known =>
      have kept := literals_release definition.precedence reached.pending reached.output
      unfold literals at kept ⊢
      simp [pushOperator, push, Token.valueWord?, kept]
  | openBracket => simp [literals, push, Token.valueWord?]
  | separator unwound =>
      rw [← literals_unwind unwound]
      simp [literals, Token.valueWord?]
  | closeBracket unwound closes =>
      rw [← literals_unwind unwound]
      simp [literals, Token.valueWord?]

end Assembly

/-- What the items of a source stand for, when every accepted token tells it of its own item. -/
theorem filterMap_perm_of_assemble {α β κ : Type} {part : Item → Option α} {value : α → β}
    {ofToken : Token → Option κ} {look : κ → β}
    (each : ∀ {before token after}, Assembly.Accepts registry before token after →
      ((registry.itemOf? token).bind part).map value = (ofToken token).map look)
    {source : List Char} {items : List Item} (assembled : assemble registry source = .ok items) :
    ((items.filterMap part).map value).Perm
      (((Token.ofSource registry.isOperator source).filterMap ofToken).map look) := by
  obtain ⟨assembly, accepted, _⟩ := assemble_eq_ok assembled
  have parts : ((Token.ofSource registry.isOperator source).filterMap fun token =>
      (registry.itemOf? token).bind part).map value =
        ((Token.ofSource registry.isOperator source).filterMap ofToken).map look := by
    rw [List.map_filterMap, List.map_filterMap]
    apply List.filterMap_congr
    intro token member
    obtain ⟨_, _, accepts⟩ := Assembly.exists_accepts_of_mem accepted member
    exact each accepts
  have held := ((items_perm_of_assemble assembled).filterMap part).map value
  rw [List.filterMap_filterMap, parts] at held
  exact held

/-- The symbol of an accepted operator is registered, and the operator waits as itself. -/
theorem operator?_itemOf? (ranked : registry.Ranked) {before after : Assembly} {token : Token}
    (accepts : Assembly.Accepts registry before token after) :
    ((registry.itemOf? token).bind Item.operator?).map some =
      token.symbol?.map registry.operators.find? := by
  cases accepts with
  | word known => simp [Registry.itemOf?, known, Except.toOption, Item.operator?, Token.symbol?]
  | call known => simp [Registry.itemOf?, known, Except.toOption, Item.operator?, Token.symbol?]
  | operator known =>
      simp [Registry.itemOf?, known, Assembly.entryOf, ranked known, Pending.item?,
        Item.operator?, Token.symbol?]
  | openBracket | separator _ | closeBracket _ _ => rfl

theorem function?_itemOf? (ranked : registry.Ranked) {before after : Assembly} {token : Token}
    (accepts : Assembly.Accepts registry before token after) :
    ((registry.itemOf? token).bind Item.function?).map .ok =
      token.callWord?.map registry.callee := by
  cases accepts with
  | word known => simp [Registry.itemOf?, known, Except.toOption, Item.function?, Token.callWord?]
  | call known => simp [Registry.itemOf?, known, Except.toOption, Item.function?, Token.callWord?]
  | operator known =>
      simp [Registry.itemOf?, known, Assembly.entryOf, ranked known, Pending.item?,
        Item.function?, Token.callWord?]
  | openBracket | separator _ | closeBracket _ _ => rfl

theorem literals_of_assemble {source : List Char} {items : List Item}
    (assembled : assemble registry source = .ok items) :
    (items.filterMap Item.literal?).map .ok =
      ((Token.ofSource registry.isOperator source).filterMap Token.valueWord?).map
        registry.valueOf := by
  obtain ⟨assembly, accepted, finished⟩ := assemble_eq_ok assembled
  obtain ⟨output, unwound, rfl⟩ := Assembly.finish_eq_ok finished
  have kept := Assembly.literals_acceptAll accepted
  rw [← Assembly.literals_unwind unwound] at kept
  exact kept

/--
The pieces of a source are its characters, and a program that compiles has lost, doubled or added
nothing: its literals are the values of the words that no opening bracket ends, in their order, its
operators are those of the symbols that are no signs, and its functions those of the words that an
opening bracket ends, both in some order. Nothing is asked of how operands and brackets stand next
to each other.
-/
theorem Registry.Built.compile_conserves_pieces (built : registry.Built) (ranked : registry.Ranked)
    {expression : String} {maxDepth : Int} {program : Program}
    (compiled : compile registry expression maxDepth = .ok program) :
    let source := (Text.stripBlanks expression).toList
    let pieces := Piece.ofSource registry.isOperator source
    pieces.flatMap Piece.chars = source ∧
      (program.items.filterMap Item.literal?).map .ok =
        (pieces.filterMap Piece.valueWord?).map registry.valueOf ∧
      ((program.items.filterMap Item.operator?).map some).Perm
        ((pieces.filterMap Piece.symbol?).map registry.operators.find?) ∧
      ((program.items.filterMap Item.function?).map .ok).Perm
        ((pieces.filterMap Piece.callWord?).map registry.callee) := by
  intro source pieces
  obtain ⟨items, assembled, _, rfl⟩ := compile_eq_ok_iff.1 compiled
  obtain ⟨assembly, accepted, _⟩ := assemble_eq_ok assembled
  have placed : .misplacedSign ∉ Token.ofSource registry.isOperator source := by
    intro member
    obtain ⟨_, _, accepts⟩ := Assembly.exists_accepts_of_mem accepted member
    cases accepts
  have tokens : Token.ofSource registry.isOperator source = pieces.flatMap Piece.tokens :=
    Scan.tokens_eq_flatMap_split built.unreserved placed
  have values := literals_of_assemble assembled
  have operators := filterMap_perm_of_assemble (operator?_itemOf? ranked) assembled
  have functions := filterMap_perm_of_assemble (function?_itemOf? ranked) assembled
  rw [tokens, Piece.filterMap_tokens fun piece => piece.filterMap_tokens_piece.1] at values
  rw [tokens, Piece.filterMap_tokens fun piece => piece.filterMap_tokens_piece.2.1] at operators
  rw [tokens, Piece.filterMap_tokens fun piece => piece.filterMap_tokens_piece.2.2] at functions
  exact ⟨Piece.flatMap_chars_ofSource source, values, operators, functions⟩

/-- An operand follows a closing bracket, and its operator follows it. -/
theorem Registry.Built.compile_conserves_pieces_catalog :
    ∃ program, compile Catalog.registry "max(-4, 5) - (2)3*" defaultMaxDepth = .ok program ∧
      (program.items.filterMap Item.literal?).map .ok =
        ["-4", "5", "2", "3"].map Catalog.registry.valueOf ∧
      ((program.items.filterMap Item.operator?).map some).Perm
        (['-', '*'].map Catalog.registry.operators.find?) ∧
      ((program.items.filterMap Item.function?).map .ok).Perm
        (["max"].map Catalog.registry.callee) := by
  have compiled : ∃ program,
      compile Catalog.registry "max(-4, 5) - (2)3*" defaultMaxDepth = .ok program := ⟨_, by rfl⟩
  obtain ⟨program, compiled⟩ := compiled
  obtain ⟨_, values, operators, functions⟩ :=
    (Catalog.built .machine).compile_conserves_pieces (Catalog.ranked .machine) compiled
  exact ⟨program, compiled, values, operators, functions⟩

end Calculator

import Calculator.Registry
import Calculator.ParseError

/-!
# Words

What a word of an expression stands for. A word that an opening bracket ends
names a function. Any other word is a number when all its characters are
digits, points or operator symbols, and a variable otherwise.
-/

namespace Calculator.Registry

def isNumberWord (registry : Registry) (word : String) : Bool :=
  word.toList.all fun c => isNumberChar c || registry.isOperator c

/-- The double of a numeral in plain characters. -/
def number? (word : String) : Option Float :=
  if word.toList.all fun c => c.toNat < 128 then Decimal.float? word else none

def callee (registry : Registry) (word : String) : Except ParseError Function :=
  match registry.functions.find? word with
  | some function => .ok function
  | none => .error ⟨.function, word⟩

def valueOf (registry : Registry) (word : String) : Except ParseError Float :=
  if registry.isNumberWord word then
    match number? word with
    | some value => .ok value
    | none => .error ⟨.number, word⟩
  else
    match registry.bindings.find? word with
    | some value => .ok value
    | none =>
        if registry.functions.contains word then .error ⟨.functionVariable, word⟩
        else .error ⟨.variable, word⟩

/-- The item of a word, which is a function when the word is called. -/
def classify (registry : Registry) (word : String) (called : Bool) : Except ParseError Item :=
  if called then (registry.callee word).map .function else (registry.valueOf word).map .literal

theorem classify_word (registry : Registry) (word : String) :
    registry.classify word false = (registry.valueOf word).map .literal :=
  rfl

theorem classify_call (registry : Registry) (word : String) :
    registry.classify word true = (registry.callee word).map .function :=
  rfl

end Calculator.Registry

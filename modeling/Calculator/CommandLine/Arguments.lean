/-!
# Arguments of a command line

Arguments are options and operands. A long option may carry its value after
an equals sign and a short one right after its letter; otherwise the next
argument is the value, whatever it looks like. After a double dash all
arguments are operands. A command either takes options among its operands or
hands everything from the first operand on to someone else.
-/

namespace Calculator.CommandLine

structure OptionSpec (α : Type) where
  key : α
  spellings : List String
  takesValue : Bool

/-- The options of a command line in their order, with the empty value where none is taken. -/
structure Parsed (α : Type) where
  given : List (α × String)
  operands : List String

inductive UsageError where
  | unknownOption
  | missingValue
  | unexpectedValue
deriving Repr, DecidableEq

/-- An argument as it is written: an operand, or an option and the value attached to it. -/
inductive Shape where
  | operand
  | option (spelling : String) (attached : Option String)
deriving Repr, DecidableEq

/-- Splits a text at its first equals sign. -/
def splitEquals (characters : List Char) : List Char × Option (List Char) :=
  (characters.takeWhile (· ≠ '='),
    match characters.dropWhile (· ≠ '=') with
    | [] => none
    | _ :: value => some value)

def Shape.ofArgument (argument : String) : Shape :=
  match argument.toList with
  | '-' :: '-' :: rest =>
      let (spelling, value) := splitEquals ('-' :: '-' :: rest)
      .option (String.ofList spelling) (value.map String.ofList)
  | '-' :: c :: rest =>
      .option (String.ofList ['-', c]) (if rest = [] then none else some (String.ofList rest))
  | _ => .operand

namespace Parsed

variable {α : Type}

def addOption (key : α) (value : String) (parsed : Parsed α) : Parsed α :=
  { parsed with given := (key, value) :: parsed.given }

def addOperand (operand : String) (parsed : Parsed α) : Parsed α :=
  { parsed with operands := operand :: parsed.operands }

def find (specs : List (OptionSpec α)) (spelling : String) : Option (OptionSpec α) :=
  specs.find? fun spec => spec.spellings.contains spelling

/-- Reads arguments; without `interspersed` the first operand and all that follows are operands. -/
def ofArguments (specs : List (OptionSpec α)) (interspersed : Bool) :
    List String → Except UsageError (Parsed α)
  | [] => .ok ⟨[], []⟩
  | argument :: rest =>
      if argument = "--" then .ok ⟨[], rest⟩
      else match Shape.ofArgument argument with
        | .operand =>
            if interspersed then (ofArguments specs interspersed rest).map (addOperand argument)
            else .ok ⟨[], argument :: rest⟩
        | .option spelling attached =>
            match find specs spelling with
            | none => .error .unknownOption
            | some spec =>
                match spec.takesValue, attached, rest with
                | true, some value, rest =>
                    (ofArguments specs interspersed rest).map (addOption spec.key value)
                | true, none, value :: rest =>
                    (ofArguments specs interspersed rest).map (addOption spec.key value)
                | true, none, [] => .error .missingValue
                | false, none, rest =>
                    (ofArguments specs interspersed rest).map (addOption spec.key "")
                | false, some _, _ => .error .unexpectedValue
termination_by arguments => arguments.length

variable [DecidableEq α]

def has (parsed : Parsed α) (key : α) : Bool :=
  parsed.given.any fun option => option.1 = key

/-- Every value of an option, in order. -/
def values (parsed : Parsed α) (key : α) : List String :=
  (parsed.given.filter fun option => option.1 = key).map Prod.snd

/-- The last value of an option. -/
def value? (parsed : Parsed α) (key : α) : Option String :=
  (parsed.values key).getLast?

end Parsed

end Calculator.CommandLine

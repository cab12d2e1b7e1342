import Calculator.Registry

/-!
# Variables from numbers of any size

Variables may be given as integers that no double comes near. An unusable
name is reported before a number out of range, and the first bad entry of a
table before the later ones.
-/

namespace Calculator

inductive SupplyError where
  | registry (error : RegistryError)
  | overflow
deriving Repr, DecidableEq

namespace Registry

open Decimal (Quantity)

/-- Puts a number into a registry; the name is judged even when the number is out of range. -/
def supply (put : Float → Except RegistryError Registry) (number : Quantity) :
    Except SupplyError Registry :=
  match number.toDouble? with
  | some value => (put value).mapError .registry
  | none =>
      match put 0.0 with
      | .error error => .error (.registry error)
      | .ok _ => .error .overflow

def supplyVariable (registry : Registry) (name : String) (number : Quantity) :
    Except SupplyError Registry :=
  supply (registry.defineVariable name) number

def defineAll (registry : Registry) (numbers : Table String Quantity) :
    Except SupplyError Registry :=
  numbers.entries.foldlM (fun derived entry => derived.supplyVariable entry.1 entry.2) registry

def withNumbers (registry : Registry) (numbers : Table String Quantity) :
    Except SupplyError Registry :=
  numbers.entries.foldlM
    (fun derived entry => supply (derived.setVariable entry.1) entry.2) registry

end Registry

end Calculator

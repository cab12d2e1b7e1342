import Calculator.Item

/-!
# Chains of operators

A chain is operands with an operator between any two neighbours. Its
grouping applies the operators class by class, the tightest class first and
each class from left to right. So the last of the loosest operators is applied
at the end, to the groupings of what stands on its left and on its right.
-/

namespace Calculator

/-- The classes of operators, the tightest first. -/
def Precedence.classes : List Precedence := [.function, .exponential, .multiply, .add]

/-- Every class of operators has the classes that bind tighter before it. -/
theorem Precedence.exists_split {precedence : Precedence} (ranked : precedence ≠ .openBracket) :
    ∃ tighter looser, classes = tighter ++ precedence :: looser ∧ precedence ∉ tighter ∧
      ∀ other : Precedence, (precedence.rank ≤ other.rank → other ∈ precedence :: tighter) ∧
        (precedence.rank < other.rank → other ∈ tighter) := by
  cases precedence with
  | openBracket => exact absurd rfl ranked
  | add =>
      refine ⟨[.function, .exponential, .multiply], [], rfl, by decide, ?_⟩
      intro other
      cases other <;> decide
  | multiply =>
      refine ⟨[.function, .exponential], [.add], rfl, by decide, ?_⟩
      intro other
      cases other <;> decide
  | exponential =>
      refine ⟨[.function], [.multiply, .add], rfl, by decide, ?_⟩
      intro other
      cases other <;> decide
  | function =>
      refine ⟨[], [.exponential, .multiply, .add], rfl, by decide, ?_⟩
      intro other
      cases other <;> decide

def sumOver {α : Type} (weight : α → Int) : List α → Int
  | [] => 0
  | x :: rest => weight x + sumOver weight rest

theorem sumOver_append {α : Type} (weight : α → Int) (first second : List α) :
    sumOver weight (first ++ second) = sumOver weight first + sumOver weight second := by
  induction first with
  | nil => simp [sumOver]
  | cons x rest ih =>
      rw [List.cons_append, sumOver, sumOver, ih]
      omega

theorem sumOver_reverse {α : Type} (weight : α → Int) (items : List α) :
    sumOver weight items.reverse = sumOver weight items := by
  induction items with
  | nil => rfl
  | cons x rest ih =>
      rw [List.reverse_cons, sumOver_append, ih, sumOver, sumOver, sumOver]
      omega

theorem sumOver_sub {α : Type} (first second : α → Int) (items : List α) :
    sumOver (fun x => first x - second x) items = sumOver first items - sumOver second items := by
  induction items with
  | nil => rfl
  | cons x rest ih =>
      simp only [sumOver, ih]
      omega

theorem sumOver_le {α : Type} {lower upper : α → Int} {items : List α}
    (below : ∀ x ∈ items, lower x ≤ upper x) : sumOver lower items ≤ sumOver upper items := by
  induction items with
  | nil => exact Int.le_refl 0
  | cons x rest ih =>
      have first := below x (List.mem_cons_self ..)
      have later := ih fun other member => below other (List.mem_cons_of_mem _ member)
      simp only [sumOver]
      omega

/-- Sums are equal only where nothing lies below. -/
theorem eq_of_sumOver_eq {α : Type} {lower upper : α → Int} {items : List α}
    (below : ∀ x ∈ items, lower x ≤ upper x) (same : sumOver lower items = sumOver upper items) :
    ∀ x ∈ items, lower x = upper x := by
  induction items with
  | nil => simp
  | cons x rest ih =>
      have first := below x (List.mem_cons_self ..)
      have belowRest := fun other member => below other (List.mem_cons_of_mem x member)
      have later := sumOver_le belowRest
      simp only [sumOver] at same
      intro other member
      rcases List.mem_cons.1 member with rfl | inRest
      · omega
      · exact ih belowRest (by omega) other inRest

structure Chain (α : Type) where
  first : α
  rest : List (Operator × α)

namespace Chain

variable {α β : Type}

def single (operand : α) : Chain α := ⟨operand, []⟩

def operators (chain : Chain α) : List Operator :=
  chain.rest.map Prod.fst

/-- Two chains with an operator between them. -/
def join (left : Chain α) (operator : Operator) (right : Chain α) : Chain α :=
  ⟨left.first, left.rest ++ (operator, right.first) :: right.rest⟩

def extend (chain : Chain α) (operator : Operator) (operand : α) : Chain α :=
  chain.join operator (single operand)

def map (f : α → β) (chain : Chain α) : Chain β :=
  ⟨f chain.first, chain.rest.map fun entry => (entry.1, f entry.2)⟩

theorem join_extend (left : Chain α) (operator later : Operator) (right : Chain α) (operand : α) :
    left.join operator (right.extend later operand) =
      (left.join operator right).extend later operand := by
  simp [join, extend, single]

theorem operators_join (left : Chain α) (operator : Operator) (right : Chain α) :
    (left.join operator right).operators = left.operators ++ operator :: right.operators := by
  simp [join, operators]

theorem operators_extend (chain : Chain α) (operator : Operator) (operand : α) :
    (chain.extend operator operand).operators = chain.operators ++ [operator] :=
  operators_join chain operator (single operand)

theorem map_extend (f : α → β) (chain : Chain α) (operator : Operator) (operand : α) :
    (chain.extend operator operand).map f = (chain.map f).extend operator (f operand) := by
  simp [map, extend, join, single]

theorem rest_eq_nil {chain : Chain α} (none : chain.operators = []) : chain.rest = [] :=
  List.map_eq_nil_iff.1 none

/-! ## Grouping -/

variable (node : Operator → α → α → α)

def contractFrom (precedence : Precedence) : α → List (Operator × α) → Chain α
  | first, [] => single first
  | first, (operator, operand) :: rest =>
      if operator.precedence = precedence then
        contractFrom precedence (node operator first operand) rest
      else (single first).join operator (contractFrom precedence operand rest)

/-- Applies the operators of one class, from left to right. -/
def contract (chain : Chain α) (precedence : Precedence) : Chain α :=
  contractFrom node precedence chain.first chain.rest

def contractAll (classes : List Precedence) (chain : Chain α) : Chain α :=
  classes.foldl (contract node) chain

/-- What is left when all operators are applied, those of the tightest class first. -/
def grouped (chain : Chain α) : α :=
  (contractAll node Precedence.classes chain).first

theorem operators_contract (chain : Chain α) (precedence : Precedence) :
    (chain.contract node precedence).operators =
      chain.operators.filter fun operator => operator.precedence ≠ precedence := by
  obtain ⟨first, rest⟩ := chain
  unfold contract operators
  induction rest generalizing first with
  | nil => rfl
  | cons entry rest ih =>
      obtain ⟨operator, operand⟩ := entry
      by_cases same : operator.precedence = precedence
      · simp [contractFrom, same, ih]
      · simp [contractFrom, same, join, single, ih]

theorem operators_contractAll (classes : List Precedence) (chain : Chain α) :
    (contractAll node classes chain).operators =
      chain.operators.filter fun operator => operator.precedence ∉ classes := by
  induction classes generalizing chain with
  | nil => exact (List.filter_eq_self.2 (by simp)).symm
  | cons precedence rest ih =>
      unfold contractAll at ih ⊢
      rw [List.foldl_cons, ih, operators_contract, List.filter_filter]
      congr 1
      funext operator
      by_cases same : operator.precedence = precedence
      · simp [same]
      · simp [same]

theorem contractAll_single (classes : List Precedence) (operand : α) :
    contractAll node classes (single operand) = single operand := by
  induction classes with
  | nil => rfl
  | cons precedence rest ih => exact ih

/-- An operator of another class stays where it is. -/
theorem contract_join_of_ne {precedence : Precedence} {operator : Operator}
    (other : operator.precedence ≠ precedence) (left right : Chain α) :
    (left.join operator right).contract node precedence =
      (left.contract node precedence).join operator (right.contract node precedence) := by
  obtain ⟨first, rest⟩ := left
  unfold contract
  induction rest generalizing first with
  | nil => simp [join, contractFrom, other, single]
  | cons entry rest ih =>
      obtain ⟨earlier, operand⟩ := entry
      by_cases same : earlier.precedence = precedence
      · have later := ih (node earlier first operand)
        simp only [join, List.cons_append, contractFrom, if_pos same] at later ⊢
        exact later
      · have later := ih operand
        simp only [join, List.cons_append, contractFrom, if_neg same, single, List.nil_append]
          at later ⊢
        rw [later]

theorem contractAll_join_of_not_mem {classes : List Precedence} {operator : Operator}
    (other : operator.precedence ∉ classes) (left right : Chain α) :
    contractAll node classes (left.join operator right) =
      (contractAll node classes left).join operator (contractAll node classes right) := by
  induction classes generalizing left right with
  | nil => rfl
  | cons precedence rest ih =>
      rw [List.mem_cons, not_or] at other
      unfold contractAll at ih ⊢
      rw [List.foldl_cons, contract_join_of_ne node other.1, ih other.2]
      rfl

/-- Operators of one class are applied from left to right. -/
theorem contract_extend_of_eq {precedence : Precedence} {operator : Operator}
    (same : operator.precedence = precedence) {left : Chain α}
    (all : ∀ earlier ∈ left.operators, earlier.precedence = precedence) (operand : α) :
    (left.extend operator operand).contract node precedence =
      single (node operator (left.contract node precedence).first operand) := by
  obtain ⟨first, rest⟩ := left
  unfold contract
  induction rest generalizing first with
  | nil => simp [extend, join, single, contractFrom, same]
  | cons entry rest ih =>
      obtain ⟨earlier, next⟩ := entry
      have here : earlier.precedence = precedence := all earlier (List.mem_cons_self ..)
      have later := ih (node earlier first next) fun other member =>
        all other (List.mem_cons_of_mem _ member)
      simp only [extend, join, List.cons_append, contractFrom, if_pos here] at later ⊢
      exact later

/-- The operator that is applied last takes the groupings of both sides. -/
theorem contractAll_join {tighter looser : List Precedence} {operator : Operator}
    (notTighter : operator.precedence ∉ tighter) {left right : Chain α}
    (before : ∀ earlier ∈ left.operators, earlier.precedence ∈ operator.precedence :: tighter)
    (after : ∀ later ∈ right.operators, later.precedence ∈ tighter) :
    contractAll node (tighter ++ operator.precedence :: looser) (left.join operator right) =
      single (node operator
        (contractAll node (tighter ++ operator.precedence :: looser) left).first
        (contractAll node (tighter ++ operator.precedence :: looser) right).first) := by
  have unfolded (chain : Chain α) :
      contractAll node (tighter ++ operator.precedence :: looser) chain =
        contractAll node looser
          ((contractAll node tighter chain).contract node operator.precedence) := by
    simp [contractAll]
  -- The tighter classes leave the operators of this class on the left and none on the right.
  have remaining : ∀ earlier ∈ (contractAll node tighter left).operators,
      earlier.precedence = operator.precedence := by
    intro earlier member
    rw [operators_contractAll, List.mem_filter] at member
    rcases List.mem_cons.1 (before earlier member.1) with same | tight
    · exact same
    · exact absurd tight (by simpa using member.2)
  have alone : (contractAll node tighter right).rest = [] := by
    apply rest_eq_nil
    rw [operators_contractAll, List.filter_eq_nil_iff]
    intro later member
    simpa using after later member
  obtain ⟨rightValue, rightSingle⟩ : ∃ operand, contractAll node tighter right = single operand :=
    ⟨_, by rw [single, ← alone]⟩
  obtain ⟨leftValue, leftSingle⟩ :
      ∃ operand, (contractAll node tighter left).contract node operator.precedence =
        single operand := by
    refine ⟨((contractAll node tighter left).contract node operator.precedence).first, ?_⟩
    have none := operators_contract node (contractAll node tighter left) operator.precedence
    rw [List.filter_eq_nil_iff.2 (by simpa using remaining)] at none
    rw [single, ← rest_eq_nil none]
  have middle := contract_extend_of_eq node rfl remaining rightValue
  rw [unfolded, unfolded, unfolded, contractAll_join_of_not_mem node notTighter, rightSingle, leftSingle]
  change contractAll node looser (((contractAll node tighter left).extend operator
    rightValue).contract node operator.precedence) = _
  rw [middle, leftSingle, contractAll_single, contractAll_single]
  change _ = single (node operator leftValue (contractAll node looser (single rightValue)).first)
  rw [contractAll_single]
  rfl

/-- The last of the loosest operators takes the groupings of what stands on both sides of it. -/
theorem grouped_join {operator : Operator} (ranked : operator.precedence ≠ .openBracket)
    {left right : Chain α}
    (before : ∀ earlier ∈ left.operators, operator.precedence.rank ≤ earlier.precedence.rank)
    (after : ∀ later ∈ right.operators, operator.precedence.rank < later.precedence.rank) :
    grouped node (left.join operator right) =
      node operator (grouped node left) (grouped node right) := by
  obtain ⟨tighter, looser, order, notTighter, bounds⟩ := Precedence.exists_split ranked
  unfold grouped
  rw [order, contractAll_join node notTighter
    (fun earlier member => (bounds earlier.precedence).1 (before earlier member))
    fun later member => (bounds later.precedence).2 (after later member)]
  rfl

/-! ## What the grouping keeps -/

/-- A property of all operands. -/
def All (holds : α → Prop) (chain : Chain α) : Prop :=
  holds chain.first ∧ ∀ entry ∈ chain.rest, holds entry.2

variable {node}

theorem All.extend {holds : α → Prop} {chain : Chain α} (all : chain.All holds)
    (operator : Operator) {operand : α} (last : holds operand) :
    (chain.extend operator operand).All holds := by
  refine ⟨all.1, ?_⟩
  intro entry member
  rcases List.mem_append.1 member with earlier | new
  · exact all.2 entry earlier
  · rw [List.mem_singleton.1 new]
    exact last

theorem All.contract {holds : α → Prop}
    (applied : ∀ operator left right, holds left → holds right → holds (node operator left right))
    {chain : Chain α} (all : chain.All holds) (precedence : Precedence) :
    (chain.contract node precedence).All holds := by
  obtain ⟨first, rest⟩ := chain
  obtain ⟨holdsFirst, holdsRest⟩ := all
  unfold Chain.contract
  induction rest generalizing first with
  | nil => exact ⟨holdsFirst, by simp [contractFrom, single]⟩
  | cons entry rest ih =>
      obtain ⟨operator, operand⟩ := entry
      have here : holds operand := holdsRest (operator, operand) (List.mem_cons_self ..)
      have later : ∀ entry ∈ rest, holds entry.2 := by
        intro entry member
        exact holdsRest entry (List.mem_cons_of_mem _ member)
      by_cases same : operator.precedence = precedence
      · have grown := ih (node operator first operand) (applied operator first operand holdsFirst here)
          later
        simpa only [contractFrom, if_pos same] using grown
      · obtain ⟨holdsNext, holdsLater⟩ := ih operand here later
        simp only [contractFrom, if_neg same]
        refine ⟨holdsFirst, ?_⟩
        intro entry member
        rcases List.mem_cons.1 member with rfl | inLater
        · exact holdsNext
        · exact holdsLater entry inLater

theorem All.grouped {holds : α → Prop}
    (applied : ∀ operator left right, holds left → holds right → holds (node operator left right))
    {chain : Chain α} (all : chain.All holds) : holds (chain.grouped node) := by
  have kept (classes : List Precedence) {chain : Chain α} (all : chain.All holds) :
      (contractAll node classes chain).All holds := by
    induction classes generalizing chain with
    | nil => exact all
    | cons precedence rest ih => exact ih (all.contract applied precedence)
  exact (kept Precedence.classes all).1

theorem contract_map {f : α → β} {image : Operator → β → β → β}
    (applied : ∀ operator left right, f (node operator left right) = image operator (f left) (f right))
    (chain : Chain α) (precedence : Precedence) :
    (chain.map f).contract image precedence = (chain.contract node precedence).map f := by
  obtain ⟨first, rest⟩ := chain
  unfold contract
  induction rest generalizing first with
  | nil => rfl
  | cons entry rest ih =>
      obtain ⟨operator, operand⟩ := entry
      by_cases same : operator.precedence = precedence
      · have later := ih (node operator first operand)
        simp only [map, List.map_cons, contractFrom, if_pos same, applied] at later ⊢
        exact later
      · have later := ih operand
        simp only [map, List.map_cons, contractFrom, if_neg same, join, single, List.nil_append]
          at later ⊢
        rw [later]

/-- A map that turns applications into applications keeps the grouping. -/
theorem grouped_map {f : α → β} {image : Operator → β → β → β}
    (applied : ∀ operator left right, f (node operator left right) = image operator (f left) (f right))
    (chain : Chain α) : (chain.map f).grouped image = f (chain.grouped node) := by
  have kept (classes : List Precedence) (chain : Chain α) :
      contractAll image classes (chain.map f) = (contractAll node classes chain).map f := by
    induction classes generalizing chain with
    | nil => rfl
    | cons precedence rest ih =>
        unfold contractAll at ih ⊢
        rw [List.foldl_cons, contract_map applied, ih]
        rfl
  unfold grouped
  rw [kept]
  rfl

/-- The weights of the operands, with one taken off for every operator. -/
def total (weight : α → Int) (chain : Chain α) : Int :=
  weight chain.first + sumOver (fun entry => weight entry.2 - 1) chain.rest

theorem total_single (weight : α → Int) (operand : α) : (single operand).total weight = weight operand :=
  Int.add_zero _

theorem total_extend (weight : α → Int) (chain : Chain α) (operator : Operator) (operand : α) :
    (chain.extend operator operand).total weight = chain.total weight + weight operand - 1 := by
  simp only [total, extend, join, single, sumOver_append, sumOver]
  omega

theorem total_contract {weight : α → Int}
    (applied : ∀ operator left right,
      weight (node operator left right) = weight left + weight right - 1)
    (chain : Chain α) (precedence : Precedence) :
    (chain.contract node precedence).total weight = chain.total weight := by
  obtain ⟨first, rest⟩ := chain
  unfold contract
  induction rest generalizing first with
  | nil => rfl
  | cons entry rest ih =>
      obtain ⟨operator, operand⟩ := entry
      by_cases same : operator.precedence = precedence
      · have later := ih (node operator first operand)
        simp only [contractFrom, if_pos same]
        rw [later]
        simp only [total, applied, sumOver]
        omega
      · have later := ih operand
        simp only [contractFrom, if_neg same]
        simp only [total, join, single, List.nil_append, sumOver] at later ⊢
        omega

/-- An application that takes one off the weights of its sides has the total weight at the end. -/
theorem weight_grouped {weight : α → Int}
    (applied : ∀ operator left right,
      weight (node operator left right) = weight left + weight right - 1)
    {chain : Chain α} (ranked : ∀ operator ∈ chain.operators, operator.precedence ≠ .openBracket) :
    weight (chain.grouped node) = chain.total weight := by
  have kept (classes : List Precedence) (chain : Chain α) :
      (contractAll node classes chain).total weight = chain.total weight := by
    induction classes generalizing chain with
    | nil => rfl
    | cons precedence rest ih => exact (ih _).trans (total_contract applied chain precedence)
  have nothing : (contractAll node Precedence.classes chain).rest = [] := by
    apply rest_eq_nil
    rw [operators_contractAll, List.filter_eq_nil_iff]
    intro operator member
    have known := ranked operator member
    cases precedence : operator.precedence with
    | openBracket => exact absurd precedence known
    | add => simp [Precedence.classes]
    | multiply => simp [Precedence.classes]
    | exponential => simp [Precedence.classes]
    | function => simp [Precedence.classes]
  rw [← kept Precedence.classes chain, total, nothing, grouped, sumOver, Int.add_zero]

end Chain

end Calculator

import Calculator.Proofs.Stack

/-!
# Items of the tokens

A word stands for its value, and an operator or a call for its definition. No
token loses its item: what an assembly holds, in the output and on the stack,
are the items of the tokens that it has accepted, in some order. Only an
operator that is kept as a bracket has none.
-/

namespace Calculator

variable {registry : Registry}

def Registry.itemOf? (registry : Registry) : Token → Option Item
  | .word text => (registry.valueOf text).toOption.map .literal
  | .call text => (registry.callee text).toOption.map .function
  | .operator symbol =>
      (registry.operators.find? symbol).bind fun definition => (Assembly.entryOf definition).item?
  | _ => none

namespace Assembly

/-- The items of the stack and of the output. -/
def items (assembly : Assembly) : List Item :=
  assembly.pending.filterMap Pending.item? ++ assembly.output

theorem items_release (bound : Precedence) (pending : List Pending) (output : List Item) :
    (release bound pending output).items.Perm (items ⟨pending, output⟩) := by
  obtain ⟨moved, kept, rfl, _, _, released⟩ := release_spec bound pending output
  rw [released, items, items, List.filterMap_append]
  -- The entries that are moved change places with those that stay, and their own order.
  calc kept.filterMap Pending.item? ++ ((moved.filterMap Pending.item?).reverse ++ output)
    _ = kept.filterMap Pending.item? ++ (moved.filterMap Pending.item?).reverse ++ output :=
      (List.append_assoc ..).symm
    List.Perm _
        ((moved.filterMap Pending.item?).reverse ++ kept.filterMap Pending.item? ++ output) :=
      List.perm_append_comm.append_right output
    List.Perm _ (moved.filterMap Pending.item? ++ kept.filterMap Pending.item? ++ output) :=
      ((List.reverse_perm _).append_right _).append_right output

theorem items_unwind {assembly unwound : Assembly} (same : assembly.unwind = unwound) :
    unwound.items.Perm assembly.items := by
  rw [← same]
  exact items_release .openBracket assembly.pending assembly.output

theorem items_push (assembly : Assembly) (entry : Pending) :
    (assembly.push entry).items = entry.item?.toList ++ assembly.items := by
  cases entry with
  | operator definition => rfl
  | function definition => rfl
  | bracket call separators => rfl

theorem items_emit (assembly : Assembly) (item : Item) :
    (assembly.emit item).items.Perm (item :: assembly.items) :=
  List.perm_middle

/-- An accepted token adds its item to what is held. -/
theorem items_accepts {assembly next : Assembly} {token : Token}
    (accepts : Accepts registry assembly token next) :
    next.items.Perm ((registry.itemOf? token).toList ++ assembly.items) := by
  cases accepts with
  | word known =>
      rw [Registry.itemOf?, known]
      exact items_emit _ _
  | call known =>
      rw [Registry.itemOf?, known, openCall, items_push, items_push]
      exact .refl _
  | operator known =>
      rw [Registry.itemOf?, known, pushOperator, items_push]
      exact (items_release _ _ _).append_left _
  | openBracket => exact .refl _
  -- A bracket has no item, so neither its separators nor its end are seen.
  | separator unwound =>
      have kept := items_unwind unwound
      exact kept
  | closeBracket unwound closes =>
      have kept := items_unwind unwound
      exact kept

theorem items_acceptAll {tokens : List Token} {assembly : Assembly}
    (accepted : empty.acceptAll registry tokens = .ok assembly) :
    assembly.items.Perm (tokens.filterMap registry.itemOf?) := by
  refine acceptAll_induction (motive := fun read reached =>
    reached.items.Perm (read.filterMap registry.itemOf?)) ?_ [] (.refl _) accepted
  intro read reached token next before accepts
  have last : [token].filterMap registry.itemOf? = (registry.itemOf? token).toList := by
    cases found : registry.itemOf? token with
    | none => simp [found]
    | some item => simp [found]
  rw [List.filterMap_append, last]
  exact (items_accepts accepts).trans ((before.append_left _).trans List.perm_append_comm)

end Assembly

/-- The items of an assembled source are those of its tokens. -/
theorem items_perm_of_assemble {source : List Char} {items : List Item}
    (assembled : assemble registry source = .ok items) :
    items.Perm ((Token.ofSource registry.isOperator source).filterMap registry.itemOf?) := by
  obtain ⟨assembly, accepted, finished⟩ := assemble_eq_ok assembled
  obtain ⟨output, unwound, rfl⟩ := Assembly.finish_eq_ok finished
  have held := (Assembly.items_unwind unwound).trans (Assembly.items_acceptAll accepted)
  exact (List.reverse_perm output).trans held

end Calculator

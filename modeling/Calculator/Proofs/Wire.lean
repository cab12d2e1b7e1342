import Calculator.Client

/-!
# Requests and responses over the wire

A request arrives as it was sent, and a response without a result that is
not finite. What a client may send are expressions that are not empty and
doubles that are finite.
-/

namespace Calculator

/-! ## Reading back -/

theorem VariableEntry.ofJson?_toJson (entry : String × Float) :
    ofJson? (toJson entry) = some entry := rfl

theorem VariableEntry.mapM_ofJson?_toJson (entries : List (String × Float)) :
    (entries.map toJson).mapM ofJson? = some entries := by
  induction entries with
  | nil => rfl
  | cons entry rest ih =>
      rw [List.map_cons, List.mapM_cons, ofJson?_toJson, ih]
      rfl

theorem EvaluationRequest.ofJson?_toJson {request : EvaluationRequest}
    (nonempty : request.expression ≠ "") : ofJson? request.toJson = some request := by
  have arrived : bindings? (some (.list (request.bindings.map VariableEntry.toJson))) =
      some request.bindings := VariableEntry.mapM_ofJson?_toJson request.bindings
  change (bindings? (some (.list (request.bindings.map VariableEntry.toJson)))).bind _ = _
  rw [arrived]
  exact if_neg nonempty

theorem ErrorKind.ofLabel?_label (kind : ErrorKind) : ofLabel? kind.label = some kind := by
  cases kind <;> rfl

namespace Response

/-- The response as it arrives. -/
def received (response : Response) : Response :=
  ⟨response.sent, response.error⟩

theorem ofJson?_toJson (response : Response) :
    ofJson? response.toJson = some response.received := by
  obtain ⟨result, kind, target⟩ := response
  have error : error? (.object [("target_type", .text kind.label), ("target", .text target)]) =
      some ⟨kind, target⟩ := by
    change (ErrorKind.ofLabel? kind.label).bind _ = _
    rw [ErrorKind.ofLabel?_label]
    rfl
  unfold received
  cases arrives : sent ⟨result, kind, target⟩ with
  | none =>
      simp only [toJson, arrives]
      change (error? (.object _)).bind _ = _
      rw [error]
      rfl
  | some x =>
      simp only [toJson, arrives]
      change (error? (.object _)).bind _ = _
      rw [error]
      rfl

/-- A response that has arrived is sent on as it was. -/
theorem sent_received (response : Response) : response.received.sent = response.sent := by
  unfold received sent
  rw [Option.filter_filter]
  simp

theorem toJson_received (response : Response) : response.received.toJson = response.toJson := by
  rw [toJson, sent_received]
  rfl

@[simp] theorem ok_received (response : Response) : response.received.ok = response.ok := rfl

@[simp] theorem error_received (response : Response) :
    response.received.error = response.error := rfl

/-- The result arrives unless it is not finite. -/
theorem result_received (response : Response) :
    response.received.result = response.result.filter Float.isFinite := rfl

end Response

/-! ## What may be sent -/

namespace Client

/-- Variables that are doubles are sent in their order. -/
theorem numbers?_double (bindings : Table String Float) :
    numbers? (bindings.mapValues .double) = some bindings.entries := by
  have each (entries : List (String × Float)) :
      (entries.map fun entry => (entry.1, Decimal.Quantity.double entry.2)).mapM
        (fun entry => entry.2.toDouble?.map fun x => (entry.1, x)) = some entries := by
    induction entries with
    | nil => rfl
    | cons entry rest ih =>
        rw [List.map_cons, List.mapM_cons, ih]
        rfl
  exact each bindings.entries

/-- What the request for an evaluation needs: something to evaluate and doubles that can be sent. -/
structure Sendable (expression : String) (bindings : Table String Float) : Prop where
  nonempty : expression ≠ ""
  finite : ∀ entry ∈ bindings.entries, entry.2.isFinite = true

theorem request_of_sendable {expression : String} {bindings : Table String Float}
    (sendable : Sendable expression bindings) :
    request expression (bindings.mapValues .double) = .ok ⟨expression, bindings.entries⟩ := by
  rw [request, numbers?_double]
  dsimp only
  rw [if_neg sendable.nonempty, if_pos (List.all_eq_true.2 sendable.finite)]

/-- A request that cannot be sent breaks down, for want of an expression before anything else. -/
theorem request_of_not_sendable {expression : String} {bindings : Table String Float}
    (unsendable : ¬ Sendable expression bindings) :
    request expression (bindings.mapValues .double) =
      .error (if expression = "" then .invalid else .notFinite) := by
  rw [request, numbers?_double]
  dsimp only
  by_cases empty : expression = ""
  · rw [if_pos empty, if_pos empty]
  · have someNotFinite : ¬ (bindings.entries.all fun number => number.2.isFinite) = true :=
      fun all => unsendable ⟨empty, List.all_eq_true.1 all⟩
    rw [if_neg empty, if_neg empty, if_neg someNotFinite]

/-- A response of the service arrives at the client that asked for it. -/
theorem evaluateWithin_of_response {elementary : Elementary} {stack : Nat} {settings : Settings}
    {expression : String} {bindings : Table String Float} {response : Response}
    (sendable : Sendable expression bindings)
    (answered : Service.evaluateWithin elementary stack settings expression bindings =
      .ok response) :
    evaluateWithin elementary stack settings expression (bindings.mapValues .double) =
      .ok response.received := by
  have replied : (Http.evaluateWithin elementary stack settings
      (EvaluationRequest.toJson ⟨expression, bindings.entries⟩)).mapError Fault.server =
        .ok (.success response.toJson) := by
    rw [Http.evaluateWithin, EvaluationRequest.ofJson?_toJson sendable.nonempty]
    dsimp only
    rw [Table.ofList_entries, answered]
    rfl
  rw [evaluateWithin, request_of_sendable sendable]
  simp only [bind, Except.bind, replied, accept, Http.Reply.success, Response.ofJson?_toJson, pure,
    Except.pure]

theorem evaluateWithin_of_not_sendable {elementary : Elementary} {stack : Nat}
    {settings : Settings} {expression : String} {bindings : Table String Float}
    (unsendable : ¬ Sendable expression bindings) :
    evaluateWithin elementary stack settings expression (bindings.mapValues .double) =
      .error (if expression = "" then .invalid else .notFinite) := by
  rw [evaluateWithin, request_of_not_sendable unsendable]
  rfl

end Client

end Calculator

import Calculator.CommandLine.Run
import Calculator.Proofs.Service
import Calculator.Proofs.Wire

/-!
# Evaluations here and elsewhere

A command line may evaluate an expression itself or ask a service with the
same settings. Both end with the same exit code and show the same, a result
that is not finite apart, exactly when the request can be sent; otherwise
only the run that asks the service breaks down.
-/

namespace Calculator

/-- With loaded settings every expression that is not empty gets a response. -/
theorem Service.exists_response {elementary : Elementary} (lawful : elementary.Lawful) {stack : Nat}
    (enough : maxDepthLimit ≤ stack) {settings : Settings} (limits : settings.Loaded)
    {expression : String} (nonempty : expression ≠ "") (request : List (String × Float)) :
    ∃ response,
      evaluateWithin elementary stack settings expression (.ofList request) = .ok response := by
  obtain ⟨values, doubles⟩ := limits.doubles
  have room : settings.maxDepth ≤ stack := by
    have atMost := limits.atMost
    omega
  rw [evaluateWithin, if_neg nonempty, merged_double doubles, Registry.withNumbers_double]
  rcases (Catalog.registryOver elementary).usable_or_first_unusable
      (values.insertAll request).entries with usable | ⟨_, _, _, _, split, usable, first⟩
  · rw [Registry.withVariables_of_usable usable]
    obtain ⟨response, done, _⟩ := answers_of_usable lawful usable room expression
    exact ⟨response, done⟩
  · obtain ⟨error, refused, _⟩ := Registry.withVariables_of_unusable split usable first
    rw [refused]
    exact ⟨_, rfl⟩

namespace CommandLine

/-! ## The arguments of an evaluation -/

namespace Parsed

variable {α : Type} {specs : List (OptionSpec α)} {interspersed : Bool} {argument : String}

theorem ofArguments_operand (operand : Shape.ofArgument argument = .operand) (rest : List String) :
    ofArguments specs interspersed (argument :: rest) =
      if interspersed then (ofArguments specs interspersed rest).map (addOperand argument)
      else .ok ⟨[], argument :: rest⟩ := by
  have noDashes : argument ≠ "--" := by
    rintro rfl
    exact absurd operand (by decide)
  rw [ofArguments, if_neg noDashes, operand]

theorem ofArguments_value (noDashes : argument ≠ "--") {spelling : String} {spec : OptionSpec α}
    (option : Shape.ofArgument argument = .option spelling none)
    (found : find specs spelling = some spec) (takes : spec.takesValue = true) (value : String)
    (rest : List String) :
    ofArguments specs interspersed (argument :: value :: rest) =
      (ofArguments specs interspersed rest).map (addOption spec.key value) := by
  rw [ofArguments, if_neg noDashes, option]
  simp only [found, takes]

end Parsed

/-- The arguments ask for the evaluation of an expression with variables. -/
structure Asks (arguments : List String) (parsed : Parsed CommandOption) (expression : String)
    (bindings : List (String × Float)) : Prop where
  parses : Parsed.ofArguments CommandName.eval.options true arguments = .ok parsed
  noHelp : parsed.has .help = false
  operands : parsed.operands = [expression]
  accepted : (parsed.values .variable).mapM assignment? = some bindings

section

variable {arguments : List String} {parsed : Parsed CommandOption} {expression : String}
  {bindings : List (String × Float)}

theorem Asks.command? (asks : Asks arguments parsed expression bindings) :
    CommandName.eval.command? arguments =
      some (.evaluate (.ofParsed parsed expression bindings)) := by
  have read : evaluation? parsed = some (.evaluate (.ofParsed parsed expression bindings)) := by
    rw [evaluation?, asks.operands]
    change ((parsed.values .variable).mapM assignment?).bind _ = _
    rw [asks.accepted]
    rfl
  rw [CommandName.command?, asks.parses]
  simp only [asks.noHelp]
  exact read

/-- An address in front asks for the same evaluation. -/
theorem Asks.withRemote (asks : Asks arguments parsed expression bindings) (address : String) :
    Asks ("--remote" :: address :: arguments) (parsed.addOption .remote address) expression
      bindings where
  parses := by
    have shape : Shape.ofArgument "--remote" = .option "--remote" none := by decide
    have found : Parsed.find CommandName.eval.options "--remote" =
      some ⟨.remote, ["--remote", "-r"], true⟩ := rfl
    rw [Parsed.ofArguments_value (by decide) shape found rfl, asks.parses]
    rfl
  noHelp := asks.noHelp
  operands := asks.operands
  accepted := asks.accepted

theorem values_remote_eq_nil (here : parsed.has .remote = false) :
    parsed.values .remote = [] := by
  rw [Parsed.values, List.map_eq_nil_iff, List.filter_eq_nil_iff]
  intro option member same
  have given : parsed.has .remote = true := List.any_eq_true.2 ⟨option, member, same⟩
  rw [here] at given
  cases given

theorem remote_ofParsed (here : parsed.has .remote = false) (expression : String)
    (bindings : List (String × Float)) :
    (Evaluation.ofParsed parsed expression bindings).remote = false := by
  simp [Evaluation.ofParsed, Parsed.value?, values_remote_eq_nil here, nonempty?]

theorem remote_ofParsed_addOption (here : parsed.has .remote = false) (expression : String)
    (bindings : List (String × Float)) {address : String} (somewhere : address ≠ "") :
    (Evaluation.ofParsed (parsed.addOption .remote address) expression bindings).remote =
      true := by
  have one : (parsed.addOption .remote address).values .remote =
      address :: parsed.values .remote := rfl
  simp [Evaluation.ofParsed, Parsed.value?, one, values_remote_eq_nil here, nonempty?, somewhere]

end

/-! ## Two runs of one evaluation -/

/--
The runs end alike: neither breaks down, the exit codes are the same and so is the output, except
that one run shows something before it, and the other no result that is not finite.
-/
inductive Agrees (before : String) : Outcome → Outcome → Prop where
  | same {code : Nat} {text : String} (known : code ≤ 2) :
      Agrees before (.exit code (before ++ text)) (.exit code text)
  | notFinite {x : Float} (special : x.isFinite = false) :
      Agrees before (.exit 0 (before ++ Console.line (resultText (some x)).toList))
        (.exit 0 (Console.line (resultText none).toList))

theorem Agrees.crash_eq_none {before : String} {here there : Outcome}
    (agrees : Agrees before here there) : here.crash = none ∧ there.crash = none := by
  cases agrees with
  | same known => exact ⟨rfl, rfl⟩
  | notFinite special => exact ⟨rfl, rfl⟩

/-- The text of a response that has arrived differs in a result that is not finite only. -/
theorem agrees_report (before : String) (json : Bool) (response : Response) :
    Agrees before (report before json response) (report "" json response.received) := by
  have alike (same : responseText json response.received = responseText json response) :
      Agrees before (report before json response) (report "" json response.received) := by
    have known : (if response.ok then 0 else 1) ≤ 2 := by split <;> decide
    rw [report, report, same, Response.ok_received, String.empty_append]
    exact .same known
  cases json with
  | true =>
      apply alike
      simp only [responseText, if_true, Response.toJson_received]
  | false =>
      cases fine : response.ok with
      | false =>
          apply alike
          simp [responseText, fine]
      | true =>
          cases result : response.result with
          | none =>
              apply alike
              simp [responseText, fine, Response.result_received, result]
          | some x =>
              have arrives : response.received.result = (some x).filter Float.isFinite := by
                rw [Response.result_received, result]
              rw [Option.filter_some] at arrives
              cases finite : x.isFinite with
              | true =>
                  apply alike
                  rw [if_pos finite] at arrives
                  rw [responseText, responseText, Response.ok_received, arrives, result]
                  rfl
              | false =>
                  rw [if_neg (by rw [finite]; decide)] at arrives
                  have shown : report before false response =
                      .exit 0 (before ++ Console.line (resultText (some x)).toList) := by
                    rw [report, responseText, fine, result]
                    rfl
                  have told : report "" false response.received =
                      .exit 0 (Console.line (resultText none).toList) := by
                    rw [report, responseText, Response.ok_received, fine, arrives,
                      String.empty_append]
                    rfl
                  rw [shown, told]
                  exact .notFinite finite

section

variable {elementary : Elementary} {stack : Nat} {settings : Settings}

theorem evaluateHere_of_response {evaluation : Evaluation} {response : Response}
    (answered : Service.evaluateWithin elementary stack settings evaluation.expression
      evaluation.bindings = .ok response) :
    evaluateHere elementary stack settings evaluation =
      report (preamble elementary settings evaluation) evaluation.json response := by
  rw [evaluateHere, answered]

theorem evaluateThere_of_response {remote : Remote} {evaluation : Evaluation} {response : Response}
    (sendable : Client.Sendable evaluation.expression evaluation.bindings)
    (answered : Service.evaluateWithin elementary stack remote.settings evaluation.expression
      evaluation.bindings = .ok response) :
    evaluateThere elementary stack remote evaluation =
      report "" evaluation.json response.received := by
  rw [evaluateThere, Evaluation.quantities, Client.evaluateWithin_of_response sendable answered]

theorem evaluateThere_of_not_sendable (remote : Remote) {evaluation : Evaluation}
    (unsendable : ¬ Client.Sendable evaluation.expression evaluation.bindings) :
    evaluateThere elementary stack remote evaluation =
      .crashed "" (.client (if evaluation.expression = "" then .invalid else .notFinite)) := by
  rw [evaluateThere, Evaluation.quantities, Client.evaluateWithin_of_not_sendable unsendable]
  by_cases empty : evaluation.expression = ""
  · simp only [if_pos empty]
  · simp only [if_neg empty]

/-- An empty expression is a usage error, and every other one is evaluated. -/
theorem evaluateHere_handled (lawful : elementary.Lawful) (enough : maxDepthLimit ≤ stack)
    (limits : settings.Loaded) (expression : String) (request : List (String × Float))
    {evaluation : Evaluation} (asked : evaluation.expression = expression)
    (bound : evaluation.bindings = .ofList request) :
    (evaluateHere elementary stack settings evaluation).crash = none := by
  by_cases empty : expression = ""
  · rw [evaluateHere, asked, Service.evaluateWithin, if_pos empty]
    rfl
  · obtain ⟨response, answered⟩ := Service.exists_response lawful enough limits empty request
    rw [← asked, ← bound] at answered
    rw [evaluateHere_of_response answered]
    rfl

end

section

variable {elementary : Elementary} {stack : Nat} {surroundings : Surroundings}
  {path : Option String} {settings : Settings} {arguments : List String}
  {parsed : Parsed CommandOption} {expression : String} {bindings : List (String × Float)}

/-- A command line that asks for an evaluation runs it with the settings it loads. -/
theorem Asks.runCommand (asks : Asks arguments parsed expression bindings)
    (loaded : Settings.load surroundings.directory path surroundings.environment = .ok settings) :
    CommandLine.runCommand elementary stack surroundings path .eval arguments =
      (Command.evaluate (.ofParsed parsed expression bindings)).run elementary stack surroundings
        settings := by
  rw [CommandLine.runCommand, loaded, asks.command?]

theorem Asks.runCommand_here (asks : Asks arguments parsed expression bindings)
    (loaded : Settings.load surroundings.directory path surroundings.environment = .ok settings)
    (noRemote : parsed.has .remote = false) :
    CommandLine.runCommand elementary stack surroundings path .eval arguments =
      evaluateHere elementary stack settings (.ofParsed parsed expression bindings) := by
  rw [asks.runCommand loaded, Command.run, remote_ofParsed noRemote]
  rfl

theorem Asks.runCommand_there (asks : Asks arguments parsed expression bindings)
    (loaded : Settings.load surroundings.directory path surroundings.environment = .ok settings)
    (noRemote : parsed.has .remote = false) {remote : Remote}
    (reachable : surroundings.remote = some remote) {address : String} (somewhere : address ≠ "") :
    CommandLine.runCommand elementary stack surroundings path .eval
        ("--remote" :: address :: arguments) =
      evaluateThere elementary stack remote
        (.ofParsed (parsed.addOption .remote address) expression bindings) := by
  rw [(asks.withRemote address).runCommand loaded, Command.run,
    remote_ofParsed_addOption noRemote _ _ somewhere, reachable]
  rfl

end

/-- Without options before it, the command of an evaluation gets all other arguments. -/
theorem run_eval (surroundings : Surroundings) (arguments : List String) :
    run surroundings ("eval" :: arguments) =
      runCommand .machine stackLimit surroundings none .eval arguments := by
  rw [run, runWithin, Parsed.ofArguments_operand (by decide)]
  rfl

/--
An evaluation ends alike here and at a service with the same settings exactly when there is an
expression and every variable has a finite value. Otherwise the run that asks the service breaks
down, while the one that does not still ends properly.
-/
theorem runCommand_agrees_iff {elementary : Elementary} (lawful : elementary.Lawful) {stack : Nat}
    (enough : maxDepthLimit ≤ stack) {surroundings : Surroundings} {path : Option String}
    {settings : Settings}
    (loaded : Settings.load surroundings.directory path surroundings.environment = .ok settings)
    {remote : Remote} (reachable : surroundings.remote = some remote)
    (alike : remote.settings = settings) {arguments : List String} {parsed : Parsed CommandOption}
    {expression : String} {bindings : List (String × Float)}
    (asks : Asks arguments parsed expression bindings) (noRemote : parsed.has .remote = false)
    {address : String} (somewhere : address ≠ "") :
    let before := preamble elementary settings (.ofParsed parsed expression bindings)
    let here := runCommand elementary stack surroundings path .eval arguments
    let there := runCommand elementary stack surroundings path .eval
      ("--remote" :: address :: arguments)
    (Agrees before here there ↔ Client.Sendable expression (.ofList bindings)) ∧
    (¬ Client.Sendable expression (.ofList bindings) → here.crash = none ∧
      there = .crashed "" (.client (if expression = "" then .invalid else .notFinite))) := by
  have limits := Settings.loaded_of_load loaded
  have breaks (unsendable : ¬ Client.Sendable expression (.ofList bindings)) :
      runCommand elementary stack surroundings path .eval ("--remote" :: address :: arguments) =
        .crashed "" (.client (if expression = "" then .invalid else .notFinite)) := by
    rw [asks.runCommand_there loaded noRemote reachable somewhere]
    exact evaluateThere_of_not_sendable remote unsendable
  refine ⟨⟨?_, ?_⟩, ?_⟩
  · intro agrees
    by_cases sendable : Client.Sendable expression (.ofList bindings)
    · exact sendable
    · have handled := agrees.crash_eq_none.2
      rw [breaks sendable] at handled
      cases handled
  · intro sendable
    obtain ⟨response, answered⟩ :=
      Service.exists_response lawful enough limits sendable.nonempty bindings
    rw [asks.runCommand_here loaded noRemote,
      asks.runCommand_there loaded noRemote reachable somewhere,
      evaluateHere_of_response answered, evaluateThere_of_response sendable (alike ▸ answered)]
    exact agrees_report _ _ _
  · intro unsendable
    refine ⟨?_, breaks unsendable⟩
    rw [asks.runCommand_here loaded noRemote]
    exact evaluateHere_handled lawful enough limits expression bindings rfl rfl

/-- Surroundings whose service elsewhere has the settings that are loaded here. -/
def sharedSurroundings (environment : Settings.Environment) (settings : Settings) :
    Surroundings where
  directory := .empty
  environment := environment
  remote := some ⟨settings, "http://calc.test", ""⟩

theorem runCommand_agrees_iff_shallow :
    let settings := { Settings.default with maxDepth := 5 }
    let elementary := Elementary.machineWith fun x => if x == 1.0 then 0.0 else 1.0
    let run := runCommand elementary stackLimit
      (sharedSurroundings Service.shallowEnvironment settings) none .eval
    Settings.load .empty none Service.shallowEnvironment = .ok settings ∧
      Agrees "" (run ["x / 0", "--var", "x=2"])
        (run ["--remote", "http://calc.test", "x / 0", "--var", "x=2"]) := by
  have parses : Parsed.ofArguments CommandName.eval.options true ["x / 0", "--var", "x=2"] =
      .ok ⟨[(.variable, "x=2")], ["x / 0"]⟩ := by
    have shape : Shape.ofArgument "--var" = .option "--var" none := by decide
    have found : Parsed.find CommandName.eval.options "--var" =
      some ⟨.variable, ["--var", "-v"], true⟩ := rfl
    rw [Parsed.ofArguments_operand (by decide),
      Parsed.ofArguments_value (by decide) shape found rfl, Parsed.ofArguments]
    rfl
  have asks : Asks ["x / 0", "--var", "x=2"] ⟨[(.variable, "x=2")], ["x / 0"]⟩ "x / 0"
      [("x", 2.0)] := ⟨parses, rfl, rfl, rfl⟩
  refine ⟨rfl, (runCommand_agrees_iff Elementary.lawful_machineWith_atOne
    (by decide : maxDepthLimit ≤ stackLimit) rfl rfl rfl asks rfl
    (by decide : "http://calc.test" ≠ "")).1.2 ⟨by decide, ?_⟩⟩
  intro entry member
  have entry_eq : entry = ("x", 2.0) := List.mem_singleton.1 member
  rw [entry_eq]
  decide

/-- Nothing to evaluate is a usage error here and breaks the run down that asks a service. -/
theorem not_agrees_of_empty :
    let run := run (sharedSurroundings (fun _ => none) .default)
    run ["eval", ""] = .usage ∧
      run ["eval", "--remote", "http://calc.test", ""] = .crashed "" (.client .invalid) ∧
      ∀ before, ¬ Agrees before (run ["eval", ""])
        (run ["eval", "--remote", "http://calc.test", ""]) := by
  have asks : Asks [""] ⟨[], [""]⟩ "" [] := by
    refine ⟨?_, rfl, rfl, rfl⟩
    rw [Parsed.ofArguments_operand (by decide), Parsed.ofArguments]
    rfl
  have here : run (sharedSurroundings (fun _ => none) .default) ["eval", ""] = .usage := by
    rw [run_eval, asks.runCommand rfl]
    rfl
  have there : run (sharedSurroundings (fun _ => none) .default)
      ["eval", "--remote", "http://calc.test", ""] = .crashed "" (.client .invalid) := by
    rw [run_eval, (asks.withRemote "http://calc.test").runCommand rfl]
    rfl
  refine ⟨here, there, ?_⟩
  intro before agrees
  have handled := agrees.crash_eq_none.2
  rw [there] at handled
  cases handled

end CommandLine

end Calculator

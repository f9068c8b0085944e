/-
The program: what it does when it is called with arguments, among the variables of its environment.

Results are printed apart from remarks, so that they can be read by machines. A question is asked through a bridge that
is made for it; the report on the cache, the counters and the error, if there is one, come after it.
-/
import ChainBridge.CommandLine.Question
import ChainBridge.CommandLine.Session
import ChainBridge.CommandLine.Summary

namespace ChainBridge.CommandLine

/-- variables of the environment and their values -/
abbrev Variables := List (String × String)

/-- an error of configuration -/
def configError (text : String) : String := "Config(" ++ Text.Quoted.text text ++ ")"

/-- the configuration at a path -/
def loadConfig (env : Variables) (path : String) (next : Config → Procedure) : Procedure :=
  .look path fun here => .look (Config.withEnding path) fun beside =>
    match Config.load? (Config.chosen path here.text? beside.text?) env with
    | some c => next c
    | none => .fail (configError "the configuration cannot be read")

/-! ## Configurations -/

def validate (env : Variables) (file : String) : Procedure :=
  .look file fun
    | .nothing => .remark (trouble ("Configuration file not found: " ++ file))
        (.fail (configError ("File not found: " ++ file)))
    | _ => .remark (info ("Loading configuration from " ++ file ++ "...")) <|
      loadConfig env file fun c => .remark (info "Validating configuration...") <|
        match c.validate with
        | .error fault => .fail (configError fault.message)
        | .ok () => .remarkAll (success "Configuration is valid!" :: summary c) (.exit 0)

def display (env : Variables) (file : String) : Procedure :=
  loadConfig env file fun c => .printAll (("Configuration from " ++ file ++ ":") :: listing c) (.exit 0)

def generate (output : String) (force : Bool) : Procedure :=
  .look output fun there =>
    if there ≠ .nothing ∧ !force then
      .fail (configError ("File " ++ output ++ " already exists. Use --force to overwrite."))
    else
      .write output sample fun
        | some fault => .fail ("Io(" ++ fault.debug ++ ")")
        | none => .remarkAll [
            success ("Sample configuration written to " ++ output),
            info "Review the [defi] addresses before pointing the bridge at a live node."] (.exit 0)

/-! ## Questions -/

/-- asks through a bridge -/
def answer (i : Invocation) (q : Question) (plan : Bridge.Blueprint) (node : Config.Node) : Procedure :=
  (Session.new plan node).follow (fun s result =>
    let last : Procedure := match result with
      | .ok _ => .exit 0
      | .error e => .fail ("Query(" ++ e.debug ++ ")")
    let counted := if i.metrics then .expose s.cache.metrics last else last
    let reported := if i.stats then .remark s.stats.toJson.pretty counted else counted
    match result with
    | .ok v => .print v.pretty reported
    | .error _ => reported) (q.task plan.options)

def inquire (env : Variables) (i : Invocation) (q : Question) : Procedure :=
  loadConfig env (i.config.getD (Config.pathFrom env)) fun c =>
    match Bridge.build (some c) (.http none) true with
    | .ok plan => answer i q plan c.node
    | .error (.tooManyPermits limit) => .remark (Bridge.Error.reason (.tooManyPermits limit)) (.exit 101)
    | .error e => .fail ("Runtime(" ++ e.debug ++ ")")

/-! ## All -/

def invoke (env : Variables) (i : Invocation) : Procedure :=
  match i.command with
  | .ask q => inquire env i q
  | .validate file => validate env file
  | .display file => display env file
  | .generate output force => generate output force

/-- how a refusal of arguments is shown -/
def refusal (reason : String) : List String := ["error: " ++ reason, "", "For more information, try '--help'."]

def program (env : Variables) (args : List String) : Procedure :=
  match choose menu general args with
  | .help page => .printAll page (.exit 0)
  | .refused reason => .remarkAll (refusal reason) (.exit 2)
  | .selection s =>
    match invocationOf? s with
    | some i => invoke env i
    | none => .remarkAll (refusal "unknown command") (.exit 2)

end ChainBridge.CommandLine

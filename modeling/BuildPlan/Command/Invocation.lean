/-
  BuildPlan.Command.Invocation
  ────────────────────────────
  **FROM ARGUMENTS TO A COMMAND.**

      [-v] [--version] [--help]  order     [options] [workspace]
                                 discover            [workspace]

  Options before the command stand in front of everything else; those of a command
  may stand on either side of the workspace, and `--` ends them.  An option that
  takes a value takes it after an equals sign or from the next argument, whatever
  that looks like.  What is not given as an argument may be given by a variable of
  the environment, and one that is empty counts as not given.  Arguments that make
  no command are misuse, and nothing is read from them.  A call for help goes before
  the workspace, and the workspace before all that only the environment sets.
-/
import BuildPlan.Command.Options
import BuildPlan.Workspace.Path

namespace BuildPlan.Command

/-! ## §1. The environment. -/

/-- The variables of the environment. -/
abbrev Environment := List (String × String)

namespace Environment

/-- The value of a variable, unless it is empty. -/
def get? (env : Environment) (name : String) : Option String :=
  (env.lookup name).filter (· ≠ "")

/-- The words that set a flag. -/
def onWords : List String := ["1", "true", "t", "yes", "y", "on"]

/-- The words that leave a flag unset, none at all among them. -/
def offWords : List String := ["", "0", "false", "f", "no", "n", "off"]

/-- Whether a word sets a flag; padding and case do not count, and any other word is misuse. -/
def readFlag? (s : String) : Option Bool :=
  let word := (Text.trim s).map Char.toLower
  if word ∈ onWords then some true else if word ∈ offWords then some false else none

/-- Whether a variable sets a flag. -/
def flag? (env : Environment) (name : String) : Option Bool :=
  match env.get? name with
  | none => some false
  | some s => readFlag? s

/-- The words of a variable. -/
def words (env : Environment) (name : String) : List String :=
  match env.get? name with
  | none => []
  | some s => (Text.words s.toList).map String.ofList

end Environment

/-! ## §2. The options before the command. -/

/-- An option before the command. -/
inductive GeneralOption where
  | verbose
  | version
  | help
deriving DecidableEq, Repr

/-- Whether an argument has the form of an option. -/
def isOption : List Char → Bool
  | '-' :: _ :: _ => true
  | _ => false

/-- The options that one argument before the command holds. -/
def generalOptions? (arg : String) : Option (List GeneralOption) :=
  if arg = "--verbose" then some [.verbose]
  else if arg = "--version" then some [.version]
  else if arg = "--help" then some [.help]
  else
    match arg.toList with
    | '-' :: letters =>
      if letters.all (· = 'v') then some (letters.map fun _ => .verbose) else none
    | _ => none

/-- The options in front of the arguments and what follows them. -/
def splitGeneral : List String → Option (List GeneralOption × List String)
  | [] => some ([], [])
  | arg :: rest =>
    if arg = "--" then some ([], rest)
    else if isOption arg.toList then do
      let here ← generalOptions? arg
      let (more, rest) ← splitGeneral rest
      return (here ++ more, rest)
    else some ([], arg :: rest)

/-! ## §3. The arguments of a command. -/

/-- One argument of the command that shows the build order. -/
inductive OrderArgument where
  | projects (value : String)
  | exclude (value : String)
  | resumeFrom (value : String)
  | alsoMake
  | alsoMakeDependents
  | asJson
  | help
  /-- Anything that is no option. -/
  | positional (value : String)
deriving DecidableEq, Repr

/-- The option of the given name that takes a value. -/
def valueOption? (name : String) : Option (String → OrderArgument) :=
  if name = "-pl" ∨ name = "--projects" then some .projects
  else if name = "--exclude" then some .exclude
  else if name = "-rf" ∨ name = "--resume-from" then some .resumeFrom
  else none

/-- The option of the given name that takes none. -/
def flagOption? (name : String) : Option OrderArgument :=
  if name = "-am" ∨ name = "--also-make" then some .alsoMake
  else if name = "-amd" ∨ name = "--also-make-dependents" then some .alsoMakeDependents
  else if name = "--json" then some .asJson
  else if name = "--help" then some .help
  else none

/-- The arguments of the command that shows the build order. -/
def orderArguments : List String → Option (List OrderArgument)
  | [] => some []
  | arg :: rest =>
    if arg = "--" then some (rest.map .positional)
    else if isOption arg.toList then
      let (name, given) := Text.cut '=' arg.toList
      match valueOption? (String.ofList name), given with
      | some option, some value => (orderArguments rest).map (option (String.ofList value) :: ·)
      | some option, none =>
        match rest with
        | [] => none
        | value :: rest => (orderArguments rest).map (option value :: ·)
      | none, none => do
        let option ← flagOption? (String.ofList name)
        return option :: (← orderArguments rest)
      | none, some _ => none
    else (orderArguments rest).map (.positional arg :: ·)

/-- The arguments of the command that lists the projects: positional ones only, or a call for
help. -/
def discoverArguments (args : List String) : Option (List OrderArgument) := do
  let all ← orderArguments args
  if all.all (fun a => a matches .positional _ | .help) then some all else none

/-- The arguments that are no options. -/
def places (args : List OrderArgument) : List String :=
  let positional? : OrderArgument → Option String
    | .positional s => some s
    | _ => none
  args.filterMap positional?

/-- The workspace among the arguments: at most one of them is positional. -/
def workspaceOf (args : List OrderArgument) : Option String :=
  match places args with
  | [] => some "."
  | [s] => some s
  | _ => none

/-- Whether the first place that the arguments name is one that no file system takes. -/
def namesNowhere (args : List OrderArgument) : Bool :=
  (places args).head?.any Workspace.Path.holdsNull

/-- What the environment calls the options of a command. -/
def orderVariable (name : String) : String := "REACTOR_GRAPH_ORDER_" ++ name

/-- The first list, or the second if the first is empty. -/
def orElseList {α : Type} (l fallback : List α) : List α := if l.isEmpty then fallback else l

/-- The options that the arguments and the environment set. -/
def orderOptions? (env : Environment) (args : List OrderArgument) : Option OrderOptions := do
  let flag (a : OrderArgument) (name : String) : Option Bool :=
    if a ∈ args then some true else env.flag? (orderVariable name)
  let projects? : OrderArgument → Option String
    | .projects s => some s
    | _ => none
  let exclude? : OrderArgument → Option String
    | .exclude s => some s
    | _ => none
  let resumeFrom? : OrderArgument → Option String
    | .resumeFrom s => some s
    | _ => none
  return {
    projects := orElseList (args.filterMap projects?) (env.words (orderVariable "PROJECTS"))
    exclude := orElseList (args.filterMap exclude?) (env.words (orderVariable "EXCLUDE"))
    resumeFrom :=
      (args.filterMap resumeFrom?).getLast?.or (env.get? (orderVariable "RESUME_FROM"))
    alsoMake := ← flag .alsoMake "ALSO_MAKE"
    alsoMakeDependents := ← flag .alsoMakeDependents "ALSO_MAKE_DEPENDENTS"
    asJson := ← flag .asJson "AS_JSON" }

/-! ## §4. The whole command line. -/

/-- What a command does. -/
inductive Action where
  | order (options : OrderOptions)
  | discover
deriving DecidableEq, Repr

/-- What the program is called for. -/
inductive Invocation where
  | version
  | help
  | run (verbose : Bool) (workspace : String) (action : Action)
  /-- To carry out a command at a place that no file system takes. -/
  | nowhere
deriving DecidableEq, Repr

/-- What the program shows of itself, if an option asks for it; the first that does decides. -/
def informed? (options : List GeneralOption) : Option Invocation :=
  (options.find? (· ≠ .verbose)).map fun o => if o = .version then .version else .help

/-- The command that a word and its arguments make. -/
def command? (env : Environment) (verbose : Bool) (word : String) (args : List String) :
    Option Invocation :=
  if word = "order" then do
    let args ← orderArguments args
    if .help ∈ args then return .help
    if namesNowhere args then return .nowhere
    return .run verbose (← workspaceOf args) (.order (← orderOptions? env args))
  else if word = "discover" then do
    let args ← discoverArguments args
    if .help ∈ args then return .help
    if namesNowhere args then return .nowhere
    return .run verbose (← workspaceOf args) .discover
  else do
    -- a word with the form of an option is read as one after all
    let (options, _) ← splitGeneral (word :: args)
    informed? options

/-- What the arguments call for; nothing is misuse, and so are no arguments at all. -/
def parse? (env : Environment) : List String → Option Invocation
  | [] => none
  | args => do
    let (options, rest) ← splitGeneral args
    match informed? options with
    | some invocation => return invocation
    | none =>
      if ← env.flag? "REACTOR_GRAPH_VERSION" then return .version
      let verbose ← if .verbose ∈ options then some true else env.flag? "REACTOR_GRAPH_VERBOSE"
      match rest with
      | [] => none
      | word :: rest => command? env verbose word rest

end BuildPlan.Command

/-! # Arguments of the command line

The first word that is no option and no value of one names the command; its own arguments follow.
Options for all commands may stand on either side of that word, and what comes after it counts more.
Arguments are read from left to right, and the first that asks for help or cannot be understood
decides. An option takes the next argument as its value unless that looks like an option itself. -/

namespace LuauWorkspace

/-- What the program is asked to do. -/
inductive Command where
  /-- Find the module that a require names, in a file if one is given. -/
  | resolve (require : String) (context : Option String)
  /-- Name the module in a file. -/
  | moduleName (file : String)
  /-- Show the source of a module. -/
  | read (module : String)
  /-- Show the configuration of a file. -/
  | config (file : String)
deriving DecidableEq

/-- A command with the options for all commands. -/
structure Invocation where
  root : Option String
  sourcemap : Option String
  command : Command
deriving DecidableEq

/-- Why arguments do not lead to a command. -/
inductive Refusal where
  /-- They ask for help or for the version. -/
  | help
  | misuse
deriving DecidableEq

/-- An option of the command line. -/
inductive Switch where
  | quiet
  | verbose
  | root
  | sourcemap
  | context
  | help
  | version
deriving DecidableEq

/-- Whether an option has a value. -/
def Switch.takesValue : Switch → Bool
  | root | sourcemap | context => true
  | _ => false

/-! ## Levels -/

/-- What is understood at a level: before the name of a command, or after it. -/
structure Grammar where
  /-- The options by their names, which follow two dashes. -/
  names : List (String × Switch)
  /-- The options by their letters, which follow one dash. -/
  letters : List (Char × Switch)
  /-- How many arguments are no options. -/
  operands : Nat

namespace Grammar

/-- The options for all commands. -/
def sharedNames : List (String × Switch) :=
  [("quiet", .quiet), ("verbose", .verbose), ("root", .root), ("sourcemap", .sourcemap),
    ("help", .help)]

/-- The letters of options for all commands. -/
def sharedLetters : List (Char × Switch) := [('q', .quiet), ('v', .verbose), ('h', .help)]

/-- Before the name of a command. -/
def outer : Grammar where
  names := ("version", .version) :: sharedNames
  letters := ('V', .version) :: sharedLetters
  operands := 0

/-- After the name of a command that takes one argument. -/
def plain : Grammar where
  names := sharedNames
  letters := sharedLetters
  operands := 1

/-- After the name of the command that resolves a require. -/
def resolving : Grammar := { plain with names := ("from", .context) :: sharedNames }

/-- The commands by their names. -/
def commands : List (String × Grammar) :=
  [("resolve", resolving), ("module-name", plain), ("read", plain), ("config", plain)]

/-- The word that asks for help on a command. -/
def helpWord : String := "help"

end Grammar

/-! ## What has been given -/

/-- The arguments that have been read at one level. The value of the latest option is not looked at
before the next argument is. -/
structure Given where
  /-- The options, each with its value. -/
  switches : List (Switch × String) := []
  /-- The arguments that are no options, in order. -/
  operands : List String := []
  /-- An option whose value comes next, or has just come. -/
  latest : Option (Switch × Option String) := none

namespace Given

/-- Whether the next argument may be the value of an option. -/
def awaitsValue (given : Given) : Bool :=
  match given.latest with
  | some (_, none) => true
  | _ => false

/-- Enter an option. Only `verbose` may be given twice. -/
def enter (given : Given) (switch : Switch) (value : String) : Except Refusal Given :=
  if switch ≠ .verbose ∧ (given.switches.lookup switch).isSome then .error .misuse
  else .ok { given with switches := (switch, value) :: given.switches }

/-- Enter the latest option, which needs its value. -/
def settle (given : Given) : Except Refusal Given :=
  match given.latest with
  | none => .ok given
  | some (_, none) => .error .misuse
  | some (switch, some value) => { given with latest := none }.enter switch value

/-- Take an option without a value. -/
def take (given : Given) (switch : Switch) : Except Refusal Given := do
  let given ← given.settle
  if switch = .help ∨ switch = .version then .error .help else given.enter switch ""

/-- Take an option by its name and the value attached to it. -/
def takeNamed (given : Given) (grammar : Grammar) (name : String) (value : Option String) :
    Except Refusal Given :=
  match grammar.names.lookup name, value with
  | none, _ => .error .misuse
  | some switch, some value =>
    if switch.takesValue then do (← given.settle).enter switch value else .error .misuse
  | some switch, none =>
    if switch.takesValue then do return { (← given.settle) with latest := some (switch, none) }
    else given.take switch

/-- Take options by their letters. -/
def takeLetters (given : Given) (grammar : Grammar) : List Char → Except Refusal Given
  | [] => .ok given
  | letter :: rest =>
    match grammar.letters.lookup letter with
    | some switch => do takeLetters (← given.take switch) grammar rest
    | none => .error .misuse

/-- Take an argument that is no option. -/
def takeOperand (given : Given) (grammar : Grammar) (text : String) : Except Refusal Given := do
  if given.operands.length < grammar.operands then
    let given ← given.settle
    return { given with operands := given.operands ++ [text] }
  else .error .misuse

/-- Take a value for the latest option, or an argument that is no option. -/
def takeText (given : Given) (grammar : Grammar) (text : String) : Except Refusal Given :=
  match given.latest with
  | some (switch, none) => .ok { given with latest := some (switch, some text) }
  | _ => given.takeOperand grammar text

/-- Take an argument. Two dashes and an equals sign give a name and a value. -/
def takeArgument (given : Given) (grammar : Grammar) (text : String) : Except Refusal Given :=
  match text.toList with
  | '-' :: '-' :: named =>
    let name := String.ofList (named.takeWhile (· ≠ '='))
    match named.dropWhile (· ≠ '=') with
    | _ :: value => given.takeNamed grammar name (some (String.ofList value))
    | [] => given.takeNamed grammar name none
  | '-' :: letters@(_ :: _) => given.takeLetters grammar letters
  | _ => given.takeText grammar text

/-- Take all arguments of a level up to the name of a command, which is given back with what follows
it. After `--` no argument is an option. -/
def takeAll (grammar : Grammar) (isCommand : String → Bool) :
    Given → List String → Except Refusal (Given × List String)
  | given, [] => .ok (given, [])
  | given, text :: rest =>
    if !given.awaitsValue && isCommand text then .ok (given, text :: rest)
    else if text = "--" then do
      let given ← given.settle
      return (← rest.foldlM (fun given text => given.takeOperand grammar text) given, [])
    else do takeAll grammar isCommand (← given.takeArgument grammar text) rest

/-- The options of a level that has been read to its end. Two options do not go together. -/
def finish (given : Given) : Except Refusal Given := do
  let given ← given.settle
  if (given.switches.lookup .quiet).isSome && (given.switches.lookup .verbose).isSome then
    .error .misuse
  else return given

end Given

namespace Invocation

/-- Help on a command: its name, or that of help itself, comes alone or not at all. -/
def helpOn : List String → Refusal
  | [] => .help
  | [name] =>
    if name = Grammar.helpWord || (Grammar.commands.lookup name).isSome then .help else .misuse
  | _ => .misuse

/-- The command with a name, given its arguments. -/
def command? (name : String) (given : Given) : Option Command :=
  match name, given.operands with
  | "resolve", [require] => some (.resolve require (given.switches.lookup .context))
  | "module-name", [file] => some (.moduleName file)
  | "read", [module] => some (.read module)
  | "config", [file] => some (.config file)
  | _, _ => none

/-- Read the arguments of the program. -/
def ofArguments (arguments : List String) : Except Refusal Invocation := do
  let isCommand (word : String) : Bool :=
    word = Grammar.helpWord || (Grammar.commands.lookup word).isSome
  let (outer, rest) ← Given.takeAll Grammar.outer isCommand {} arguments
  match rest with
  | [] => .error .misuse
  | name :: rest =>
    match Grammar.commands.lookup name with
    | none => .error (helpOn rest)
    | some grammar =>
      let (inner, _) ← Given.takeAll grammar (fun _ => false) {} rest
      let inner ← inner.finish
      let some command := command? name inner | .error .misuse
      let outer ← outer.finish
      let option (switch : Switch) : Option String :=
        inner.switches.lookup switch <|> outer.switches.lookup switch
      return { root := option .root, sourcemap := option .sourcemap, command }

end Invocation

end LuauWorkspace

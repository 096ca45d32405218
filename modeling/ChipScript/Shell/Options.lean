import ChipScript.CommandLine
import ChipScript.Shell.Similarity

/-!
# Command line options

Arguments are read in two passes. `scan` cuts them into options with their values and other
arguments, from left to right: long options may have a value after an equals sign, short ones may be
joined and have a value at the end, and after `--` there are no more options. `interpret` then
checks the values, in the order in which the options were first given, the program file last.

The first fault of either pass is the `UsageError` that is reported.
-/

namespace ChipScript.Shell

open CommandLine

inductive Flag where
  | steps | field | set | device | ast | logLevel | verbose | version | help
deriving DecidableEq, Repr

namespace Flag

def all : List Flag :=
  [steps, field, set, device, ast, logLevel, verbose, version, help]

def letter? : Flag → Option Char
  | steps => some 'n'
  | field => some 'f'
  | set => some 's'
  | device => some 'd'
  | verbose => some 'v'
  | _ => none

def longName : Flag → String
  | steps => "--steps"
  | field => "--field"
  | set => "--set"
  | device => "--device"
  | ast => "--ast"
  | logLevel => "--log-level"
  | verbose => "--verbose"
  | version => "--version"
  | help => "--help"

def takesValue : Flag → Bool
  | steps | field | set | device | logLevel => true
  | _ => false

/-- The names of an option in quotation marks. -/
def hint (flag : Flag) : String :=
  let short := flag.letter?.toList.map fun c => Text.quoted (String.ofList ['-', c])
  " / ".intercalate (short ++ [Text.quoted flag.longName])

end Flag

/-- Why the arguments are refused. -/
inductive UsageError where
  | noSuchOption (name : String) (suggestions : List String)
  | valueMissing (name : String)
  | valueUnexpected (name : String)
  | badValue (hint detail : String)
  | fileMissing
  | extraArguments (args : List String)
deriving DecidableEq, Repr

def UsageError.message : UsageError → String
  | noSuchOption name [] => s!"No such option: {name}"
  | noSuchOption name [one] => s!"No such option: {name} Did you mean {one}?"
  | noSuchOption name several =>
    s!"No such option: {name} (Possible options: " ++ ", ".intercalate several.mergeSort ++ ")"
  | valueMissing name => "Option " ++ Text.quoted name ++ " requires an argument."
  | valueUnexpected name => "Option " ++ Text.quoted name ++ " does not take a value."
  | badValue hint detail => s!"Invalid value for {hint}: {detail}"
  | fileMissing => "Missing argument 'PROGRAM_FILE'."
  | extraArguments args =>
    "Got unexpected extra argument" ++ (if args.length = 1 then "" else "s") ++ " (" ++
      " ".intercalate args ++ ")"

/-! ### First pass -/

/-- What one argument is. -/
inductive Scanned where
  | other
  /-- Options that are complete. -/
  | options (given : List (Flag × String))
  /-- Options the last of which, named as it was given, still needs a value. -/
  | incomplete (given : List (Flag × String)) (last : Flag) (name : String)

/-- Reads joined short options, after those in `given`. -/
def scanLetters (given : List (Flag × String)) : List Char → Except UsageError Scanned
  | [] => .ok (.options given)
  | c :: rest =>
    let name := String.ofList ['-', c]
    match Flag.all.find? (·.letter? = some c) with
    | none => .error (.noSuchOption name [])
    | some flag =>
      if !flag.takesValue then scanLetters (given ++ [(flag, "")]) rest
      else if rest.isEmpty then .ok (.incomplete given flag name)
      else .ok (.options (given ++ [(flag, String.ofList rest)]))

/-- Reads an argument on its own. -/
def scanArgument (arg : String) : Except UsageError Scanned :=
  match arg.toList with
  | '-' :: first :: rest =>
    let (name, value?) := match Assignment.split? arg.toList with
      | some (name, value) => (String.ofList name, some (String.ofList value))
      | none => (arg, none)
    match Flag.all.find? (·.longName = name), value? with
    | some flag, none =>
      .ok (if flag.takesValue then .incomplete [] flag name else .options [(flag, "")])
    | some flag, some value =>
      if flag.takesValue then .ok (.options [(flag, value)]) else .error (.valueUnexpected name)
    | none, _ =>
      if first = '-' then
        .error (.noSuchOption name (Similarity.suggestions name (Flag.all.map Flag.longName)))
      else scanLetters [] (first :: rest)
  | _ => .ok .other

/-- The options in the order in which they were given, and the other arguments. -/
structure Arguments where
  given : List (Flag × String) := []
  others : List String := []

/-- Cuts the arguments into options and others. -/
def scan : List String → Except UsageError Arguments
  | [] => .ok {}
  | arg :: rest =>
    if arg = "--" then .ok { others := rest }
    else do
      match ← scanArgument arg with
      | .other =>
        let args ← scan rest
        return { args with others := arg :: args.others }
      | .options given =>
        let args ← scan rest
        return { args with given := given ++ args.given }
      | .incomplete given flag name =>
        match rest with
        | [] => throw (.valueMissing name)
        | value :: rest =>
          let args ← scan rest
          return { args with given := given ++ (flag, value) :: args.given }

/-! ### Second pass -/

/-- What a path leads to. -/
inductive FileState where
  | missing
  | directory
  | unreadable
  | file (bytes : List UInt8)
deriving Inhabited

/-- What the arguments ask for. -/
inductive Command where
  | version
  | help
  | run (invocation : Invocation)
deriving DecidableEq

def stepsOf (s : String) : Except UsageError Nat :=
  match Numeral.whole? s with
  | none => .error (.badValue Flag.steps.hint (Text.quoted s ++ " is not a valid integer range."))
  | some n =>
    if n < 0 then .error (.badValue Flag.steps.hint s!"{n} is not in the range x>=0.")
    else .ok n.toNat

/-- What an option comes to whose texts are read by the command itself. -/
def readBy {α : Type} (read : List String → Except BadParameter α) (flag : Flag)
    (values : List String) : Except UsageError α :=
  (read values).mapError fun why => .badValue flag.hint why.message

/-- The log level of a name in any case. -/
def levelOf (s : String) : Except UsageError Level :=
  match Level.ofName? (String.ofList (s.toList.map Char.toUpper)) with
  | some level => .ok level
  | none =>
    let names := ", ".intercalate (Level.all.map fun l => Text.quoted l.name)
    .error (.badValue Flag.logLevel.hint (Text.quoted s ++ s!" is not one of {names}."))

def fileOf (path : String) (state : FileState) : Except UsageError (List UInt8) :=
  let refuse (detail : String) : Except UsageError (List UInt8) :=
    .error (.badValue "'PROGRAM_FILE'" ("File " ++ Text.quoted path ++ " " ++ detail))
  match state with
  | .missing => refuse "does not exist."
  | .directory => refuse "is a directory."
  | .unreadable => refuse "is not readable."
  | .file bytes => .ok bytes

namespace Arguments

/-- The values given for an option, in order. -/
def valuesOf (args : Arguments) (flag : Flag) : List String :=
  (args.given.filter (·.1 = flag)).map (·.2)

def has (args : Arguments) (flag : Flag) : Bool :=
  args.given.any (·.1 = flag)

/-- Takes the values of an option over into an invocation; of several values for an option that has
one the last counts. -/
def take (args : Arguments) (flag : Flag) (inv : Invocation) : Except UsageError Invocation :=
  let values := args.valuesOf flag
  let last := values.getLastD ""
  match flag with
  | .steps => do return { inv with steps := some (← stepsOf last) }
  | .field => do return { inv with fields := ← readBy fieldsOf .field values }
  | .set => do return { inv with locals := ← readBy assignmentsOf .set values }
  | .device => .ok { inv with device := last }
  | .ast => .ok { inv with ast := true }
  | .logLevel => do return { inv with logLevel := some (← levelOf last) }
  | .verbose => .ok { inv with verbose := true }
  | .version | .help => .ok inv

/-- Checks the options and the program file. -/
def interpret (args : Arguments) (look : String → FileState) : Except UsageError Command := do
  match args.given.find? fun (flag, _) => flag = .version || flag = .help with
  | some (.version, _) => return .version
  | some _ => return .help
  | none =>
    let flags := (args.given.map Prod.fst).eraseDups
    let inv ← flags.foldlM (fun inv flag => args.take flag inv) { path := "", bytes := [] }
    match args.others with
    | [] => throw .fileMissing
    | path :: extra =>
      let bytes ← fileOf path (look path)
      if extra.isEmpty then return .run { inv with path, bytes }
      else throw (.extraArguments extra)

end Arguments

end ChipScript.Shell

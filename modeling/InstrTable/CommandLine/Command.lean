import InstrTable.CommandLine.Arguments

/-!
The commands, and how arguments ask for them.
-/

namespace InstrTable.CommandLine

/-- The options of all commands. -/
inductive OptionKey where
  | help
  | config
  | target
  | verbose
  | strict
  | test
  deriving DecidableEq, Repr

namespace OptionKey

def help? : Flag OptionKey := ⟨.help, ["-h", "--help"], false⟩

def configFlag : Flag OptionKey := ⟨.config, ["-c", "--config"], true⟩

def targetFlag : Flag OptionKey := ⟨.target, ["-t", "--target"], true⟩

def verboseFlag : Flag OptionKey := ⟨.verbose, ["-v", "--verbose"], false⟩

def strictFlag : Flag OptionKey := ⟨.strict, ["--strict"], false⟩

def testFlag : Flag OptionKey := ⟨.test, ["--test"], false⟩

end OptionKey

namespace Parsed

/-- The last value that an option was given. -/
def value? (p : Parsed OptionKey) (key : OptionKey) : Option String :=
  (p.options.filterMap fun (k, v) => if k = key then some v else none).getLast?

def has (p : Parsed OptionKey) (key : OptionKey) : Bool := (p.value? key).isSome

/-- The target, which is x86 unless another is given. -/
def target (p : Parsed OptionKey) : String := (p.value? .target).getD "x86"

end Parsed

/-- What to compile: a file or the table of a target, and how. -/
structure Compilation where
  file : String := ""
  target : String := "x86"
  verbose : Bool := false
  strict : Bool := false
  /-- Compile a small table as a test instead. -/
  test : Bool := false
  deriving DecidableEq, Repr

/-- The table that a listing is made of: a file or the table of a target. -/
structure TableChoice where
  config : String := ""
  target : String := "x86"
  deriving DecidableEq, Repr

inductive Command where
  | overview
  | compile (c : Compilation)
  | query (names : List String) (t : TableChoice)
  | list (t : TableChoice)
  | check (t : TableChoice)
  | test
  | version
  deriving DecidableEq, Repr

variable (clustering : Clustering)

open OptionKey in
/-- Reads arguments, of which none may ask for help. That is answered before anything else. -/
def parsed (flags : List (Flag OptionKey)) (arity : Arity) (arguments : List String) :
    Except UsageError (Parsed OptionKey) := do
  let p ← (⟨help? :: flags, arity, clustering⟩ : Usage OptionKey).parse arguments
  if p.has .help then .error .help else if p.isMisused then .error .misuse else .ok p

namespace Compilation

open OptionKey in
/-- What the arguments of the compiler ask for. -/
def ofArguments (arguments : List String) : Except UsageError Compilation := do
  let p ← parsed clustering [targetFlag, verboseFlag, strictFlag, testFlag] .atMostOne arguments
  return { file := p.operands.headD "", target := p.target, verbose := p.has .verbose,
           strict := p.has .strict, test := p.has .test }

open OptionKey in
/-- What the arguments of the compile command ask for. It has no test. -/
def ofCommandArguments (arguments : List String) : Except UsageError Compilation := do
  let p ← parsed clustering [targetFlag, verboseFlag, strictFlag] .atMostOne arguments
  return { file := p.operands.headD "", target := p.target, verbose := p.has .verbose,
           strict := p.has .strict }

/-- Arguments for the compiler that ask for a compilation. -/
def arguments (c : Compilation) : List String :=
  ["--target", c.target] ++ (if c.file = "" then [] else [c.file]) ++
    (if c.verbose then ["-v"] else []) ++ if c.strict then ["--strict"] else []

end Compilation

namespace TableChoice

def ofParsed (p : Parsed OptionKey) : TableChoice :=
  { config := (p.value? .config).getD "", target := p.target }

end TableChoice

namespace Command

open OptionKey in
/-- What the arguments of a command ask for. The compile command hands its options
on to the compiler as arguments. -/
def ofName (name : String) (arguments : List String) : Except UsageError Command :=
  match name with
  | "parse" => do
    let c ← Compilation.ofCommandArguments clustering arguments
    return .compile (← Compilation.ofArguments clustering c.arguments)
  | "query" => do
    let p ← parsed clustering [configFlag, targetFlag] .atLeastOne arguments
    return .query p.operands (.ofParsed p)
  | "list" =>
    return .list (.ofParsed (← parsed clustering [configFlag, targetFlag] .zero arguments))
  | "check" =>
    return .check (.ofParsed (← parsed clustering [configFlag, targetFlag] .zero arguments))
  | "test" => do
    let _ ← parsed clustering [] .zero arguments
    return .test
  | "version" => do
    let _ ← parsed clustering [] .zero arguments
    return .version
  | _ => .error .misuse

open OptionKey in
/-- The options in front of a command. -/
def frontUsage : Usage OptionKey := ⟨[help?], .zero, clustering⟩

/-- What arguments ask for. The first of them names the command; an option in front of it can only
ask for help. -/
def ofArguments : List String → Except UsageError Command
  | [] => .ok .overview
  | name :: arguments =>
    match (frontUsage clustering).argument name with
    | .ok (.option flag name value) =>
      match (frontUsage clustering).option flag name value with
      | .ok _ => .error .help
      | .error e => .error e
    | .ok .unknown =>
      match ofArguments arguments with
      | .error e => .error e
      | .ok _ => .error .misuse
    | _ => ofName clustering name arguments

end Command

end InstrTable.CommandLine

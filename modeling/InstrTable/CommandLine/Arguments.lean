import InstrTable.Text.Blank
import InstrTable.Text.Digit
import InstrTable.Text.Piece

/-!
Arguments of a command: options, which begin with a hyphen and may stand anywhere,
and operands. A long option may be shortened as long as it remains one option's,
short options may be written in one, and a double hyphen ends the options.
-/

namespace InstrTable.CommandLine

/-- An option, the names it has, and whether a value follows it. -/
structure Flag (α : Type) where
  key : α
  names : List String
  takesValue : Bool
  deriving Repr

/-- How many operands a command takes. -/
inductive Arity where
  | zero
  | atMostOne
  | atLeastOne
  deriving DecidableEq, Repr

/-- How short options are read that are written in one. -/
inductive Clustering where
  /-- All behind an option that takes a value is its value. What is no option is an error at
  once. -/
  | keepsEquals
  /-- An equals sign stands in front of a value only, as behind a long option. What is no option
  is left over, while the options in front of it count. -/
  | dropsEquals
  deriving DecidableEq, Repr

/-- What a command accepts. -/
structure Usage (α : Type) where
  flags : List (Flag α)
  arity : Arity
  clustering : Clustering

/-- The arguments cannot be understood, or ask only how to be written. -/
inductive UsageError where
  | misuse
  | help
  deriving DecidableEq, Repr

/-- An argument by itself. The value of an option may be written into it. -/
inductive Argument (α : Type) where
  | operand (text : String)
  | terminator
  | option (flag : Flag α) (name : String) (value : Option String)
  | unknown

/-- What was asked for: options with their values, in order, and operands. -/
structure Parsed (α : Type) where
  options : List (α × String)
  operands : List String
  /-- Whether there was an argument that could not be understood. The options are then those that
  count all the same. -/
  isMisused : Bool := false
  deriving DecidableEq, Repr

namespace Parsed

variable {α : Type}

/-- The same with some options in front. -/
def after (p : Parsed α) (options : List (α × String)) : Parsed α :=
  { p with options := options ++ p.options }

def misused (p : Parsed α) : Parsed α := { p with isMisused := true }

/-- Nothing is read any further. -/
def stopped : Parsed α := { options := [], operands := [], isMisused := true }

end Parsed

/-- What is still to come when options that are written in one are read. -/
inductive Ending (α : Type) where
  | nothing
  /-- The value of the last option. -/
  | value (key : α)
  /-- A text that is no option. -/
  | leftover
  deriving DecidableEq, Repr

namespace Usage

variable {α : Type}

/-- The option with a name. -/
def named (u : Usage α) (name : String) : Option (Flag α) := u.flags.find? (·.names.contains name)

/-- A text divided at its first equals sign. -/
def splitValue (text : String) : String × Option String :=
  match Text.cutFirst? '=' text.toList with
  | some (name, value) => (String.ofList name, some (String.ofList value))
  | none => (text, none)

/-- The options whose long names begin with a text. -/
def completions (u : Usage α) (front : String) (value : Option String) : List (Argument α) :=
  u.flags.flatMap fun flag =>
    (flag.names.filter fun name => (Text.after? front.toList name.toList).isSome).map fun name =>
      .option flag name value

/-- The options that an argument which is no option's name may stand for. -/
def candidates (u : Usage α) (text : String) : List (Argument α) :=
  match text.toList with
  | '-' :: '-' :: _ =>
    let (front, value) := splitValue text
    u.completions front value
  | '-' :: c :: rest =>
    let short := String.ofList ['-', c]
    match u.named short with
    | some flag => [.option flag short (some (String.ofList rest))]
    | none => []
  | _ => []

/-- Whether a text is a negative number, which is no option. -/
def isNegativeNumber (text : String) : Bool :=
  match Text.dropFinalNewline text.toList with
  | '-' :: cs =>
    match Text.cutFirst? '.' cs with
    | none => !cs.isEmpty && cs.all Text.isDigit
    | some (whole, fraction) =>
      whole.all Text.isDigit && !fraction.isEmpty && fraction.all Text.isDigit
  | _ => false

/-- What an option finds behind an equals sign. The sign is part of that if it should not be
there. -/
def textBehind (u : Usage α) (flag : Flag α) (text : String) : String :=
  if u.clustering = .dropsEquals ∧ !flag.takesValue then "=" ++ text else text

/-- Reads an argument in front of the double hyphen. -/
def argument (u : Usage α) (text : String) : Except UsageError (Argument α) :=
  if text = "--" then .ok .terminator
  else if text.toList.head? ≠ some '-' ∨ text = "-" then .ok (.operand text)
  else match u.named text with
    | some flag => .ok (.option flag text none)
    | none =>
      let (name, value) := splitValue text
      match u.named name, value with
      | some flag, some v => .ok (.option flag name (some (u.textBehind flag v)))
      | _, _ =>
        match u.candidates text with
        | [a] => .ok a
        | _ :: _ :: _ => .error .misuse
        | [] =>
          if isNegativeNumber text ∨ text.toList.contains ' ' then .ok (.operand text)
          else .ok .unknown

/-- Reads all arguments. Behind the double hyphen they are operands. -/
def arguments (u : Usage α) : List String → Except UsageError (List (Argument α))
  | [] => .ok []
  | text :: rest => do
    match ← u.argument text with
    | .terminator => return .terminator :: rest.map .operand
    | a => return a :: (← u.arguments rest)

/-- The value of a short option, from what is written behind it. -/
def clusteredValue (u : Usage α) (cs : List Char) : String :=
  match u.clustering, cs with
  | .dropsEquals, '=' :: value => String.ofList value
  | _, value => String.ofList value

/-- Whether a character may be left over where it is no option. -/
def mayBeLeft (u : Usage α) (c : Char) : Bool :=
  u.clustering = .dropsEquals && c ≠ '-' && c ≠ '='

/-- Reads options that are written in one with a first one that takes no value.
The last of them may take one, which is written in one with them or is the next
argument. -/
def cluster (u : Usage α) : List Char → Except UsageError (List (α × String) × Ending α)
  | [] => .ok ([], .nothing)
  | c :: cs =>
    match u.named (String.ofList ['-', c]) with
    | none => if u.mayBeLeft c then .ok ([], .leftover) else .error .misuse
    | some flag =>
      if flag.takesValue then
        match cs with
        | [] => .ok ([], .value flag.key)
        | cs => .ok ([(flag.key, u.clusteredValue cs)], .nothing)
      else do
        let (options, ending) ← u.cluster cs
        return ((flag.key, "") :: options, ending)

/-- Reads one option: what it asks for, and what is still to come. -/
def option (u : Usage α) (flag : Flag α) (name : String) (value : Option String) :
    Except UsageError (List (α × String) × Ending α) :=
  match flag.takesValue, value with
  | true, some v => .ok ([(flag.key, v)], .nothing)
  | true, none => .ok ([], .value flag.key)
  | false, none => .ok ([(flag.key, "")], .nothing)
  | false, some v =>
    match name.toList with
    | ['-', _] =>
      if v = "" then .error .misuse
      else do
        let (options, ending) ← u.cluster v.toList
        return ((flag.key, "") :: options, ending)
    | _ => .error .misuse

/-- The operands up to the next option, without the first double hyphen. -/
def operandRun : List (Argument α) → List String
  | .operand text :: rest => text :: operandRun rest
  | .terminator :: rest =>
    rest.filterMap fun
      | .operand text => some text
      | _ => none
  | _ => []

def afterRun : List (Argument α) → List (Argument α)
  | .operand _ :: rest => afterRun rest
  | .terminator :: _ => []
  | rest => rest

theorem afterRun_length (as : List (Argument α)) : (afterRun as).length ≤ as.length := by
  induction as with
  | nil => exact Nat.le_refl _
  | cons a as ih =>
    cases a with
    | operand text => exact Nat.le_succ_of_le ih
    | terminator => exact Nat.zero_le _
    | option flag name value => exact Nat.le_refl _
    | unknown => exact Nat.le_refl _

/-- Whether a run of operands may be all operands of a command. -/
def accepts : Arity → List String → Bool
  | .zero, _ => false
  | .atMostOne, ts => ts.length ≤ 1
  | .atLeastOne, ts => !ts.isEmpty

/-- Goes through arguments. The operands must stand together: `operands` are those
that were found. -/
def collect (u : Usage α) (operands : Option (List String)) : List (Argument α) → Parsed α
  | [] =>
    { options := [], operands := operands.getD []
      isMisused := decide (u.arity = .atLeastOne) && operands.isNone }
  | .unknown :: rest => (u.collect operands rest).misused
  | .option flag name value :: rest =>
    match u.option flag name value with
    | .error _ => .stopped
    | .ok (options, .nothing) => (u.collect operands rest).after options
    | .ok (options, .leftover) => (u.collect operands rest).misused.after options
    | .ok (options, .value key) =>
      match rest with
      | .operand v :: rest => (u.collect operands rest).after (options ++ [(key, v)])
      | _ => .stopped
  | .operand text :: rest =>
    let run := text :: operandRun rest
    if operands.isNone ∧ accepts u.arity run then u.collect (some run) (afterRun rest)
    else (u.collect operands (afterRun rest)).misused
  | .terminator :: rest =>
    let run := operandRun (.terminator :: rest)
    if operands.isNone ∧ accepts u.arity run then u.collect (some run) []
    else (u.collect operands []).misused
termination_by as => as.length
decreasing_by
  all_goals first
    | exact Nat.lt_succ_self _
    | exact Nat.lt_succ_of_le (afterRun_length _)
    | exact Nat.succ_pos _
    | (simp only [List.length_cons]; omega)

/-- Reads the arguments of a command, of which some may not be understood. -/
def parse (u : Usage α) (texts : List String) : Except UsageError (Parsed α) :=
  (u.arguments texts).map (u.collect none)

end Usage

end InstrTable.CommandLine

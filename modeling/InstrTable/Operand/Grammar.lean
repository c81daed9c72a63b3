import InstrTable.Diagnostic
import InstrTable.Operand
import InstrTable.Text.Digit
import InstrTable.TopLevel

/-!
Reading one operand. The decorations around it are the same in every dialect; a
grammar says how the rest is divided into alternatives and what each of them is.
-/

namespace InstrTable

namespace Operand

/-- Reads an access letter, an optional range of bits, and a colon. -/
def takeAccess? (cs : List Char) : Option (Access × Option (Nat × Nat) × List Char) :=
  match cs with
  | [] => none
  | c :: cs =>
    match Access.ofLetter? c.toString with
    | none => none
    | some access =>
      match cs with
      | ':' :: rest => some (access, none, rest)
      | '[' :: cs =>
        let high := cs.takeWhile Text.isDigit
        match cs.dropWhile Text.isDigit with
        | ':' :: cs =>
          let low := cs.takeWhile Text.isDigit
          match cs.dropWhile Text.isDigit with
          | ']' :: ':' :: rest =>
            match Text.nat? high, Text.nat? low with
            | some hi, some lo => some (access, some (hi, lo), rest)
            | _, _ => none
          | _ => none
        | _ => none
      | _ => none

/-- Reads a broadcast size such as `/b64` at the end. -/
def takeBroadcast? (cs : List Char) : Option (List Char × Nat) :=
  match Text.cutLast? '/' cs with
  | some (rest, 'b' :: size) => (Text.nat? size).map fun n => (rest, n)
  | _ => none

/-- The inside of a text that begins with `opening` and ends with `closing`. -/
def inside? (opening closing : Char) (cs : List Char) : Option (List Char) :=
  match cs with
  | c :: rest => if c = opening ∧ rest.getLast? = some closing then some rest.dropLast else none
  | [] => none

/-- An operand token divided into its decorations and its core. -/
structure Peeled where
  core : List Char
  access : Option Access
  bitRange : Option (Nat × Nat)
  broadcast : Nat
  implicit : Bool
  optional : Bool
  deriving DecidableEq, Repr

/-- Peels off, from the outside in, the access, the broadcast size, one pair of
angle brackets, and one pair of braces. -/
def peel (token : String) : Peeled :=
  let cs := Text.trim token.toList
  let (access, bitRange, cs) := match takeAccess? cs with
    | some (access, bitRange, rest) => (some access, bitRange, rest)
    | none => (none, none, cs)
  let (cs, broadcast) := (takeBroadcast? cs).getD (cs, 0)
  let (cs, implicit) := match inside? '<' '>' cs with
    | some inner => (inner, true)
    | none => (cs, false)
  let (cs, optional) := match inside? '{' '}' cs with
    | some inner => (inner, true)
    | none => (cs, false)
  { core := cs, access, bitRange, broadcast, implicit, optional }

end Operand

/-- What a dialect says of the core of an operand. -/
structure Grammar where
  /-- Takes a shift operator off the front. -/
  takeShift : List Char → String × List Char
  alternatives : String → Except SplitError (List String)
  /-- The form of an alternative, if it has one, and what was wrong with it. -/
  classify : String → Except SplitError (Option Form) × List Diagnostic
  /-- The access of an operand that states none, from its forms and its place. -/
  access : List Form → Option Access → Option Access

namespace Grammar

/-- The forms of the alternatives, up to one that cannot be split. An alternative
without a form is reported. -/
def forms (g : Grammar) (token : String) :
    List String → Except SplitError (List Form) × List Diagnostic
  | [] => (.ok [], [])
  | alt :: alts =>
    match g.classify alt with
    | (.error e, ds) => (.error e, ds)
    | (.ok none, ds) =>
      let (rest, ds') := g.forms token alts
      (rest, ds ++ .unknownOperand alt token :: ds')
    | (.ok (some form), ds) =>
      let (rest, ds') := g.forms token alts
      (rest.map (form :: ·), ds ++ ds')

/-- Reads an operand. There is none if no alternative has a form. `fallback` is
the access that an operand in its place has. -/
def read (g : Grammar) (token : String) (fallback : Option Access) :
    Except SplitError (Option Operand) × List Diagnostic :=
  let p := Operand.peel token
  let (shift, core) := g.takeShift p.core
  let text := String.ofList core
  match g.alternatives text with
  | .error e => (.error e, [])
  | .ok alts =>
    match g.forms token alts with
    | (.error e, ds) => (.error e, ds)
    | (.ok forms, ds) =>
      if h : forms = [] then (.ok none, ds)
      else
        let implicit := p.implicit || forms.any Form.isLiteral
        let clash := implicit && forms.any Form.isMemoryOrEncoded
        let access := match p.access with
          | some a => some a
          | none => if forms.any Form.isAccessed then g.access forms fallback else none
        (.ok (some {
            text, forms, access
            bitRange := p.bitRange, implicit, optional := p.optional
            broadcast := p.broadcast, shift, forms_ne_nil := h }),
          ds ++ if clash then [.implicitEncoded token] else [])

end Grammar

end InstrTable

import AccMachine.CommandLine.Options
import AccMachine.Text.Visible

/-!
Reading the arguments of the command line from the left. A switch or a program name is settled
only when the next one begins or the arguments end, so that an error in what follows may be
reported first.
-/
namespace AccMachine.CommandLine

inductive UsageError where
  | unexpectedArgument (arg : String)
  | repeated (s : Switch)
  | missingValue (s : Switch)
  | emptyProgram
  | unexpectedValue (value : String) (s : Switch)
  | invalidValue (value : String) (s : Switch) (e : ValueError)
  deriving DecidableEq, Repr, Inhabited

namespace UsageError
open Text (marked)

def cause : UsageError → String
  | .unexpectedArgument arg => s!"unexpected argument '{marked arg}' found"
  | .repeated s => s!"the argument '{marked s.text}' cannot be used multiple times"
  | .missingValue s => s!"a value is required for '{marked s.text}' but none was supplied"
  | .emptyProgram => "a value is required for '[PROGRAM]' but none was supplied"
  | .unexpectedValue value s =>
    s!"unexpected value '{marked value}' for '{marked s.name}' found; no more were expected"
  | .invalidValue value s e =>
    s!"invalid value '{marked value}' for '{marked s.text}': {e.message}"

def hint : String := s!"For more information, try '{marked Switch.help.name}'."

def message (e : UsageError) : String :=
  String.ofList (Text.visible s!"error: {e.cause}\n\n{hint}\n".toList)

end UsageError

inductive Pending where
  | nothing
  | switch (s : Switch) (value : Option String)
  | program (path : String)
  deriving DecidableEq, Repr, Inhabited

/-- `literal` says that no argument is a switch any more, and `named` that a program was given. -/
structure Reading where
  options : Options := {}
  seen : List Switch := []
  named : Bool := false
  literal : Bool := false
  pending : Pending := .nothing
  deriving DecidableEq, Repr, Inhabited

namespace Reading

/-- Only `--set` may be used several times. -/
def accept (r : Reading) (s : Switch) (value : String) : Except UsageError Reading :=
  if s ≠ .set ∧ s ∈ r.seen then .error (.repeated s)
  else match r.options.assign s value with
    | .error e => .error (.invalidValue value s e)
    | .ok options => .ok { r with options, seen := s :: r.seen, pending := .nothing }

def settle (r : Reading) : Except UsageError Reading :=
  match r.pending with
  | .nothing => .ok r
  | .switch s none => .error (.missingValue s)
  | .switch s (some value) => r.accept s value
  | .program path =>
    if path.isEmpty then .error .emptyProgram
    else .ok { r with options.program := some path, pending := .nothing }

def awaiting (r : Reading) : Option Switch :=
  match r.pending with
  | .switch s none => some s
  | _ => none

def fill (r : Reading) (s : Switch) (value : String) : Reading :=
  { r with pending := .switch s (some value) }

def positional (r : Reading) (arg : String) : Except UsageError Reading :=
  if r.named then .error (.unexpectedArgument arg)
  else r.settle.map fun r => { r with named := true, pending := .program arg }

def bareSwitch (r : Reading) (s : Switch) : Except UsageError Reading :=
  match r.settle with
  | .error e => .error e
  | .ok r =>
    if s.valueName?.isSome then .ok { r with pending := .switch s none }
    else if s ∈ r.seen then .error (.repeated s)
    else .ok { r with options := r.options.raise s, seen := s :: r.seen }

def attached (r : Reading) (s : Switch) (value : String) : Except UsageError Reading :=
  if s.valueName?.isNone then .error (.unexpectedValue value s)
  else match r.settle with
    | .error e => .error e
    | .ok r => r.accept s value

def long (r : Reading) (arg : String) : Except UsageError Reading :=
  let (name, rest) := arg.toList.span (· ≠ '=')
  match Switch.ofName? (String.ofList name) with
  | none => .error (.unexpectedArgument (String.ofList name))
  | some s => match rest with
    | [] => r.bareSwitch s
    | _ :: value => r.attached s (String.ofList value)

/-- The value of `--set` may begin with a hyphen; no other value does. Help may be asked for with
its first letter and one hyphen. -/
def argument (r : Reading) (arg : String) : Except UsageError Reading :=
  if r.awaiting = some .set then .ok (r.fill .set arg)
  else if r.literal then r.positional arg
  else match arg.toList with
    | ['-', '-'] => .ok { r with literal := true }
    | '-' :: '-' :: _ => r.long arg
    | '-' :: 'h' :: _ => r.bareSwitch .help
    | '-' :: c :: _ => .error (.unexpectedArgument (String.ofList ['-', c]))
    | _ => match r.awaiting with
      | some s => .ok (r.fill s arg)
      | none => r.positional arg

def arguments (r : Reading) : List String → Except UsageError Reading
  | [] => r.settle
  | arg :: args => match r.argument arg with
    | .error e => .error e
    | .ok r => if r.options.help then .ok r else r.arguments args

end Reading

def parse (args : List String) : Except UsageError Options :=
  (({} : Reading).arguments args).map (·.options)

end AccMachine.CommandLine

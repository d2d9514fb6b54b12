import AccMachine.Sweep

/-!
The switches of the command line, what they are set to, and how their values are read.
-/
namespace AccMachine.CommandLine

inductive AssignmentError where
  | noEquals (text : String)
  | address (e : Text.IntegerError)
  | value (e : Text.IntegerError)
  deriving DecidableEq, Repr, Inhabited

def AssignmentError.message : AssignmentError → String
  | .noEquals text => s!"Invalid cell assignment '{text}', expected ADDR=VALUE"
  | .address e => s!"Invalid cell address: {e.message}"
  | .value e => s!"Invalid cell value: {e.message}"

/-- An address and a value with the first `=` between them. Blanks around either are allowed, and
the address is read first. -/
def readAssignment (cs : List Char) : Except AssignmentError (Int64 × Int64) :=
  match cs.span (· ≠ '=') with
  | (_, []) => .error (.noEquals (String.ofList cs))
  | (left, _ :: right) =>
    match Text.signed64 (Text.trim left) with
    | .error e => .error (.address e)
    | .ok a =>
      match Text.signed64 (Text.trim right) with
      | .error e => .error (.value e)
      | .ok v => .ok (a, v)

inductive Switch where
  | set | list | noRun | maxOperations | quiet | ramSize | maxValue | benchmark | seed | images
  | programLength | help
  deriving DecidableEq, Repr, Inhabited

namespace Switch

def all : List Switch :=
  [.set, .list, .noRun, .maxOperations, .quiet, .ramSize, .maxValue, .benchmark, .seed, .images,
   .programLength, .help]

def name : Switch → String
  | .set => "--set" | .list => "--list" | .noRun => "--no-run"
  | .maxOperations => "--max-operations" | .quiet => "--quiet" | .ramSize => "--ram-size"
  | .maxValue => "--max-value" | .benchmark => "--benchmark" | .seed => "--seed"
  | .images => "--images" | .programLength => "--program-len"
  | .help => "--help"

def valueName? : Switch → Option String
  | .set => some "ADDR=VALUE"
  | .maxOperations => some "MAX_OPERATIONS"
  | .ramSize => some "RAM_SIZE"
  | .maxValue => some "MAX_VALUE"
  | .seed => some "SEED"
  | .images => some "IMAGES"
  | .programLength => some "PROGRAM_LEN"
  | .list | .noRun | .quiet | .benchmark | .help => none

def text (s : Switch) : String :=
  match s.valueName? with
  | some v => s!"{s.name} <{v}>"
  | none => s.name

def ofName? (name : String) : Option Switch := all.find? (·.name == name)

end Switch

structure Options where
  program : Option String := none
  cells : List (Int64 × Int64) := []
  list : Bool := false
  noRun : Bool := false
  maxOperations : Option UInt64 := none
  quiet : Bool := false
  bounds : Bounds := {}
  benchmark : Bool := false
  seed : UInt64 := 0
  images : Nat := ({} : Sweep).images
  programLength : Address := ({} : Sweep).programLength
  help : Bool := false
  deriving DecidableEq, Repr, Inhabited

inductive ValueError where
  | integer (e : Text.IntegerError)
  | outOfRange (value : Int64)
  | assignment (e : AssignmentError)
  deriving DecidableEq, Repr, Inhabited

def largestWord : Int64 := 4294967295

def ValueError.message : ValueError → String
  | .integer e => e.message
  | .outOfRange value => s!"{value.toInt} is not in 0..={largestWord.toInt}"
  | .assignment e => e.message

/-- A word is read as a signed number, and its range is checked after that. -/
def readWord (cs : List Char) : Except ValueError Word :=
  match Text.signed64 cs with
  | .error e => .error (.integer e)
  | .ok v => if 0 ≤ v ∧ v ≤ largestWord then .ok v.toUInt64.toUInt32 else .error (.outOfRange v)

def readWord64 (cs : List Char) : Except ValueError UInt64 :=
  (Text.word64 cs).mapError .integer

namespace Options

def raise (o : Options) : Switch → Options
  | .list => { o with list := true }
  | .noRun => { o with noRun := true }
  | .quiet => { o with quiet := true }
  | .benchmark => { o with benchmark := true }
  | .help => { o with help := true }
  | _ => o

def assign (o : Options) (s : Switch) (value : String) : Except ValueError Options :=
  let cs := value.toList
  match s with
  | .set => (readAssignment cs).mapError .assignment |>.map fun c =>
    { o with cells := o.cells ++ [c] }
  | .maxOperations => (readWord64 cs).map fun n => { o with maxOperations := some n }
  | .ramSize => (readWord64 cs).map fun n => { o with bounds.ramSize := n }
  | .maxValue => (readWord cs).map fun v => { o with bounds.maxValue := v }
  | .seed => (readWord64 cs).map fun n => { o with seed := n }
  | .images => (readWord64 cs).map fun n => { o with images := n.toNat }
  | .programLength => (readWord64 cs).map fun n => { o with programLength := n }
  | .list | .noRun | .quiet | .benchmark | .help => .ok o

end Options

end AccMachine.CommandLine

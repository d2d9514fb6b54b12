import AccMachine.Assembly
import AccMachine.CommandLine.Arguments

/-!
What the program answers to its arguments: an exit code and the texts on the two outputs.
-/
namespace AccMachine.CommandLine

structure Report where
  exit : UInt8
  out : String := ""
  err : String := ""
  deriving DecidableEq, Repr, Inhabited

namespace Report

/-- Puts `rest` before every line of a text but the first, and `first` before that one. -/
def indented (first rest : String) (text : String) : String :=
  first ++ (("\n" ++ rest).intercalate (text.splitOn "\n"))

/-- Several causes are numbered from zero, a single one is not. -/
def causeLines (causes : List String) : List String :=
  match causes with
  | [cause] => [indented "    " "    " cause]
  | _ => causes.mapIdx fun n cause =>
    indented (Text.rightAligned 5 n ++ ": ") "       " cause

def failure (out what : String) (causes : List String) : Report where
  exit := 1
  out := out
  err := "Error: " ++ what ++ "\n" ++
    if causes.isEmpty then "" else
      "\nCaused by:\n" ++ String.join ((causeLines causes).map (· ++ "\n"))

end Report

def help : Report :=
  let switches := Switch.all.map fun s => s!"  {s.text}\n"
  { exit := 0, out := "Arguments: [SWITCHES] [PROGRAM]\n\nSwitches:\n" ++ String.join switches }

def benchmark (o : Options) : Report :=
  let sweep : Sweep :=
    { images := o.images, programLength := o.programLength, bounds := o.bounds,
      maxOperations := o.maxOperations.getD ({} : Sweep).maxOperations }
  let tally := (Sweep.run sweep.maxOperations (sweep.memories o.seed)).2
  let lines :=
    ["Benchmark results:",
     s!"  Images:              {o.images}",
     s!"  Halted:              {tally.halted}",
     s!"  Out of bounds:       {tally.outOfBounds}",
     s!"  Value out of range:  {tally.valueOutOfRange}",
     s!"  Illegal instruction: {tally.illegalInstruction}",
     s!"  Operation limit:     {tally.operationLimit}",
     s!"  Operations:          {tally.operations.toNat}"]
  { exit := 0, err := String.join (lines.map (· ++ "\n")) }

def setCells (m : Memory) : List (Int64 × Int64) → Except (Int64 × Fault) Memory
  | [] => .ok m
  | (a, v) :: cells => match m.setCell a v with
    | .error f => .error (a, f)
    | .ok m => setCells m cells

def loadProgram (read : String → Except ReadError String) (o : Options) : Except Report Memory :=
  match o.program with
  | none => .ok (.zeroed o.bounds)
  | some path => match Assembly.loadFile read (.zeroed o.bounds) path with
    | (m, .ok _) => .ok m
    | (_, .error e) => .error (.failure "" s!"loading {path}" (e.message :: e.source?.toList))

def prepare (read : String → Except ReadError String) (o : Options) : Except Report Memory :=
  match loadProgram read o with
  | .error r => .error r
  | .ok m => match setCells m o.cells with
    | .error (a, f) => .error (.failure "" s!"setting cell {a.toInt}" [f.message])
    | .ok m => .ok m

def showTrace (quiet : Bool) (out : String) (t : Trace) : String :=
  if quiet then out else out ++ t.effect.line ++ "\n"

def runMemory (o : Options) (out : String) (m : Memory) : Option Report :=
  let (out, e) := executeWith (showTrace o.quiet) out m o.maxOperations
  match e.result? with
  | none => none
  | some (.ok outcome) =>
    let n := outcome.operations.toNat
    some { exit := 0, out := out ++ s!"Execution terminated successfully after {n} operations.\n" }
  | some (.error f) => some (Report.failure out "execution failed" [f.message])

def nothingToRun : String := "nothing to run: pass a program file or --set cells"

def perform (read : String → Except ReadError String) (o : Options) : Option Report :=
  if o.benchmark then some (benchmark o)
  else match prepare read o with
    | .error r => some r
    | .ok m =>
      let out := if o.list then listing m else ""
      if o.noRun then some { exit := 0, out }
      else if o.program.isNone ∧ o.cells = [] then some (Report.failure out nothingToRun [])
      else runMemory o out m

/-- The whole program. There is no report of a run that never ends. -/
def respond (read : String → Except ReadError String) (args : List String) : Option Report :=
  match parse args with
  | .error e => some { exit := 2, err := e.message }
  | .ok o => if o.help then some help else perform read o

end AccMachine.CommandLine

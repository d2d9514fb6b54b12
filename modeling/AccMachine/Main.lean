import AccMachine.CommandLine.Report

/-!
The executable: it fetches the program file, asks for the report and puts it out.
-/
namespace AccMachine.CommandLine

/-- The system names a directory where a file is wanted, and a file where a directory is, by one
kind of error, and gives the number of some errors with the sign turned. -/
def readErrorOf : IO.Error → ReadError
  | .noFileOrDirectory .. => .missing
  | e@(.invalidArgument _ code _) =>
    if code = 36 ∨ code = -36 then .nameTooLong else .other (toString e)
  | .inappropriateType _ code _ => if code = 21 then .isDirectory else .notDirectory
  | .permissionDenied .. => .other "Permission denied (os error 13)"
  | e => .other (toString e)

def fetch (path : String) : IO (Except ReadError String) := do
  if path.contains '\x00' then return .error .nulInName
  match ← (IO.FS.readBinFile path).toBaseIO with
  | .error e => return .error (readErrorOf e)
  | .ok bytes => return match String.fromUTF8? bytes with
    | some text => .ok text
    | none => .error .notText

def programPath? (args : List String) : Option String :=
  match parse args with
  | .ok o => if o.help ∨ o.benchmark then none else o.program
  | .error _ => none

end AccMachine.CommandLine

open AccMachine CommandLine

def main (args : List String) : IO UInt32 := do
  let text ← match programPath? args with
    | some path => fetch path
    | none => pure (.error .missing)
  match respond (fun _ => text) args with
  | none => return 0
  | some report =>
    (← IO.getStdout).putStr report.out
    (← IO.getStderr).putStr report.err
    return report.exit.toUInt32

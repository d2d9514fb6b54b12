import AccMachine.Memory
import AccMachine.Text.Writing

/-!
Program text: read from a file, assembled into a memory from its first cell on, one instruction a
line, and listed from a memory. The first line that is refused ends the assembly, and the cells
before it keep what was assembled into them.
-/
namespace AccMachine

inductive ReadError where
  | missing
  | isDirectory
  | notDirectory
  | notText
  | nulInName
  | nameTooLong
  | other (text : String)
  deriving DecidableEq, Repr, Inhabited

def ReadError.message : ReadError → String
  | .missing => "No such file or directory (os error 2)"
  | .isDirectory => "Is a directory (os error 21)"
  | .notDirectory => "Not a directory (os error 20)"
  | .notText => "stream did not contain valid UTF-8"
  | .nulInName => "file name contained an unexpected NUL byte"
  | .nameTooLong => "File name too long (os error 36)"
  | .other text => text

structure Directory where
  files : List (String × ByteArray) := []

namespace Directory

def longestName : Nat := 255

def longestPath : Nat := 4095

/-- Follows the names of a path. A path that leaves the directory, by `..` or by starting at the
root, comes to directories of which no file is known. -/
def follow (d : Directory) (inside : Bool) : List String → Except ReadError ByteArray
  | [] => .error .isDirectory
  | name :: names =>
    if name = "" ∨ name = "." then d.follow inside names
    else if name = ".." then d.follow false names
    else if longestName < name.utf8ByteSize then .error .nameTooLong
    else match d.files.lookup name with
      | some bytes =>
        if !inside then .error .missing
        else if names.isEmpty then .ok bytes
        else .error .notDirectory
      | none => .error .missing

def read (d : Directory) (path : String) : Except ReadError String :=
  if path.contains '\x00' then .error .nulInName
  else if path.isEmpty then .error .missing
  else if longestPath < path.utf8ByteSize then .error .nameTooLong
  else match d.follow (!path.startsWith "/") (path.splitOn "/") with
    | .error e => .error e
    | .ok bytes => match String.fromUTF8? bytes with
      | some text => .ok text
      | none => .error .notText

end Directory

/-- Lines are counted from one. -/
inductive LoadError where
  | malformed (line : Nat) (text : String)
  | unknownMnemonic (line : Nat) (mnemonic : String)
  | invalidOperand (line : Nat) (text : String) (source : Text.IntegerError)
  | fault (line : Nat) (source : Fault)
  | tooLong (capacity : Nat)
  | unreadable (path : String) (source : ReadError)
  deriving DecidableEq, Repr, Inhabited

namespace LoadError

def message : LoadError → String
  | .malformed line text =>
    s!"line {line}: expected `<MNEMONIC> <OPERAND>`, got {Text.quote text}"
  | .unknownMnemonic line mnemonic => s!"line {line}: instruction {mnemonic} not in code list"
  | .invalidOperand line text _ => s!"line {line}: operand {Text.quote text} is not an integer"
  | .fault line source => s!"line {line}: {source.message}"
  | .tooLong capacity => s!"program has more than {capacity} lines"
  | .unreadable path source => s!"cannot read {path}: {source.message}"

def source? : LoadError → Option String
  | .invalidOperand _ _ source => some source.message
  | .fault _ source => some source.message
  | .unreadable _ source => some source.message
  | _ => none

end LoadError

namespace Assembly

def parseLine (b : Bounds) (line : Nat) (text : List Char) : Except LoadError Instruction :=
  match Text.words text with
  | [name, operand] =>
    match Mnemonic.ofName? (String.ofList name) with
    | none => .error (.unknownMnemonic line (String.ofList name))
    | some op =>
      match Text.signed64 operand with
      | .error e => .error (.invalidOperand line (String.ofList operand) e)
      | .ok a =>
        if b.IsAddress a then .ok ⟨.known op, a.toUInt64⟩
        else .error (.fault line (.outOfBounds "instruction operand" a b.ramSize))
  | _ => .error (.malformed line (String.ofList text))

/-- Assembles lines into the cells from `index` on. A line is read before the room for it is
looked at. -/
def loadLines (m : Memory) (index : Nat) : List (List Char) → Memory × Except LoadError Nat
  | [] => (m, .ok index)
  | text :: rest =>
    match parseLine m.bounds (index + 1) text with
    | .error e => (m, .error e)
    | .ok i =>
      if m.size ≤ index then (m, .error (.tooLong m.size))
      else match i.encode m.bounds with
        | .error f => (m, .error (.fault (index + 1) f))
        | .ok code => match m.write index.toUInt64 code with
          | .error f => (m, .error (.fault (index + 1) f))
          | .ok m => loadLines m (index + 1) rest

def load (m : Memory) (source : String) : Memory × Except LoadError Nat :=
  loadLines m 0 (Text.lines source.toList)

def loadFile (read : String → Except ReadError String) (m : Memory) (path : String) :
    Memory × Except LoadError Nat :=
  match read path with
  | .ok source => load m source
  | .error e => (m, .error (.unreadable path e))

end Assembly

def listingLine (ramSize : Address) (address : Nat) (value : Word) : String :=
  let i := Instruction.split ramSize value
  s!"[{Text.rightAligned 3 address}] [{Text.rightAligned 5 value.toNat}] "
    ++ s!"{Text.Column.fill ⟨.left, 4, none⟩ i.opcode.text} "
    ++ s!"[{Text.rightAligned 4 i.operand.toNat}]\n"

def listing (m : Memory) : String :=
  let last := m.highestNonzero?.getD 0
  String.join ((m.cells.toList.take (last + 1)).mapIdx (listingLine m.bounds.ramSize))

end AccMachine

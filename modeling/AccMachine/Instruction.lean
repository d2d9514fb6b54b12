import AccMachine.Bounds

/-!
Operation codes, what can go wrong with them, and the format of instructions in a cell: the code is
the quotient and the operand the remainder of the cell on division by the number of cells.
-/
namespace AccMachine

inductive Mnemonic where
  | noop | take | add | sub | save | jmp | tst | inc | dec | null | hlt
  deriving DecidableEq, Repr, Inhabited

namespace Mnemonic

def all : List Mnemonic :=
  [.noop, .take, .add, .sub, .save, .jmp, .tst, .inc, .dec, .null, .hlt]

def number : Mnemonic → Word
  | .noop => 0 | .take => 1 | .add => 2 | .sub => 3 | .save => 4 | .jmp => 5
  | .tst => 6 | .inc => 7 | .dec => 8 | .null => 9 | .hlt => 10

def name : Mnemonic → String
  | .noop => "NOOP" | .take => "TAKE" | .add => "ADD" | .sub => "SUB" | .save => "SAVE"
  | .jmp => "JMP" | .tst => "TST" | .inc => "INC" | .dec => "DEC" | .null => "NULL"
  | .hlt => "HLT"

def ofNumber? (n : Word) : Option Mnemonic := all[n.toNat]?

def ofName? (s : String) : Option Mnemonic := all.find? (·.name == s)

theorem ofNumber?_number (m : Mnemonic) : ofNumber? m.number = some m := by
  cases m <;> rfl

theorem number_of_ofNumber? {n : Word} {m : Mnemonic} (h : ofNumber? n = some m) :
    m.number = n := by
  have lt : n.toNat < 11 := (List.getElem?_eq_some_iff.mp h).1
  have numbers : ∀ k : Fin 11, all[k.val]?.map number = some (.ofNat k.val) := by decide
  have named := numbers ⟨n.toNat, lt⟩
  rw [show all[n.toNat]? = some m from h] at named
  simpa using named

end Mnemonic

inductive Opcode where
  | known (m : Mnemonic)
  | unknown (n : Word)
  deriving DecidableEq, Repr, Inhabited

namespace Opcode

def ofNumber (n : Word) : Opcode :=
  match Mnemonic.ofNumber? n with
  | some m => .known m
  | none => .unknown n

def number : Opcode → Word
  | .known m => m.number
  | .unknown n => n

def mnemonic? : Opcode → Option Mnemonic
  | .known m => some m
  | .unknown _ => none

def text : Opcode → String
  | .known m => m.name
  | .unknown n => "?" ++ toString n.toNat

theorem number_ofNumber (n : Word) : (ofNumber n).number = n := by
  unfold ofNumber
  split
  · rename_i m h
    exact Mnemonic.number_of_ofNumber? h
  · rfl

end Opcode

inductive Fault where
  | outOfBounds (what : String) (address : Int64) (ramSize : Address)
  | valueOutOfRange (what : String) (value : Int64) (maxValue : Word)
  | illegalInstruction (opcode : Opcode) (operand address : Address)
  | operationLimitExceeded (limit : UInt64)
  deriving DecidableEq, Repr, Inhabited

namespace Fault

def message : Fault → String
  | .outOfBounds what address ramSize =>
    s!"{what} {address.toInt} not in [0, {ramSize.toNat})"
  | .valueOutOfRange what value maxValue =>
    s!"{what} {value.toInt} not in [0, {maxValue.toNat}]"
  | .illegalInstruction opcode operand address =>
    s!"illegal instruction {opcode.text} {operand.toNat} at cell {address.toNat}"
  | .operationLimitExceeded limit =>
    s!"exceeded the number of operations {limit.toNat}"

end Fault

structure Instruction where
  opcode : Opcode
  operand : Address
  deriving DecidableEq, Repr, Inhabited

namespace Instruction

def split (ramSize : Address) (code : Word) : Instruction :=
  ⟨.ofNumber (code.toUInt64 / ramSize).toUInt32, code.toUInt64 % ramSize⟩

def decode (b : Bounds) (code : Int64) : Except Fault Instruction :=
  if b.IsValue code ∧ b.ramSize ≠ 0 then
    .ok (split b.ramSize code.toUInt64.toUInt32)
  else .error (.valueOutOfRange "code" code b.maxValue)

def reportable : Nat := 0x7FFFFFFFFFFFFFFF

/-- The cell that holds an instruction. Only named operations have one, and a value above what a
fault can report is reported as the largest such value. -/
def encode (b : Bounds) (i : Instruction) : Except Fault Word :=
  match i.opcode with
  | .unknown _ => .error (.illegalInstruction i.opcode i.operand 0)
  | .known m =>
    if b.ramSize ≤ i.operand then
      .error (.outOfBounds "instruction operand" i.operand.toInt64 b.ramSize)
    else
      let code := m.number.toNat * b.ramSize.toNat + i.operand.toNat
      if b.maxValue.toNat < code then
        .error (.valueOutOfRange "encoded instruction" (.ofNat (min code reportable)) b.maxValue)
      else .ok (.ofNat code)

def text (i : Instruction) : String := s!"{i.opcode.text} {i.operand.toNat}"

end Instruction

end AccMachine

import Mathlib.Logic.Function.Iterate
import AccMachine.Instruction

/-!
The specified machine on numbers without bound: plain arithmetic, cells as a list, operation codes
and operands by division.
-/
namespace AccMachine.Ideal

inductive Opcode where
  | known (m : Mnemonic)
  | unknown (n : Nat)
  deriving DecidableEq, Repr

inductive Effect where
  | noop
  | take (cell value : Nat)
  | add (cell addend acc : Nat)
  | sub (cell subtrahend acc : Nat)
  | save (cell acc : Nat)
  | jmp (target : Nat)
  | tst (cell acc : Nat) (skipped : Bool)
  | inc (cell acc : Nat)
  | dec (cell acc : Nat)
  | null (cell : Nat)
  deriving DecidableEq, Repr

inductive Fault where
  | outOfBounds (what : String) (address : Int) (ramSize : Nat)
  | valueOutOfRange (what : String) (value : Int) (maxValue : Nat)
  | illegalInstruction (opcode : Opcode) (operand address : Nat)
  | operationLimitExceeded (limit : Nat)
  deriving DecidableEq, Repr

structure Trace where
  address : Nat
  operation : Nat
  effect : Effect
  deriving DecidableEq, Repr

inductive Status where
  | running
  | halted
  | failed (f : Fault)
  deriving DecidableEq, Repr

structure Machine where
  ramSize : Nat
  maxValue : Nat
  limit : Option Nat
  cells : List Nat
  acc : Nat := 0
  ip : Nat := 0
  operations : Nat := 0
  status : Status := .running
  deriving DecidableEq, Repr

abbrev Answer := Option (Except Fault Trace)

def mnemonic? : Nat → Option Mnemonic
  | 0 => some .noop
  | 1 => some .take
  | 2 => some .add
  | 3 => some .sub
  | 4 => some .save
  | 5 => some .jmp
  | 6 => some .tst
  | 7 => some .inc
  | 8 => some .dec
  | 9 => some .null
  | 10 => some .hlt
  | _ => none

namespace Machine

def cell (m : Machine) (a : Nat) : Nat := m.cells.getD a 0

def fail (m : Machine) (f : Fault) : Machine × Answer :=
  ({ m with status := .failed f }, some (.error f))

def did (m : Machine) (f : Effect) (next : Machine) : Machine × Answer :=
  (next, some (.ok ⟨m.ip, m.operations, f⟩))

/-- The table of operations. Subtraction stops at zero. -/
def apply (m : Machine) (op : Mnemonic) (a : Nat) : Machine × Answer :=
  let v := m.cell a
  match op with
  | .noop => m.did .noop { m with ip := m.ip + 1 }
  | .take => m.did (.take a v) { m with acc := v, ip := m.ip + 1 }
  | .add =>
    let sum := min m.maxValue (m.acc + v)
    m.did (.add a v sum) { m with acc := sum, ip := m.ip + 1 }
  | .sub => m.did (.sub a v (m.acc - v)) { m with acc := m.acc - v, ip := m.ip + 1 }
  | .save => m.did (.save a m.acc) { m with cells := m.cells.set a m.acc, ip := m.ip + 1 }
  | .jmp => m.did (.jmp a) { m with ip := a }
  | .tst => m.did (.tst a v (v = 0)) { m with acc := v, ip := m.ip + if v = 0 then 2 else 1 }
  | .inc =>
    let sum := min m.maxValue (v + 1)
    m.did (.inc a sum) { m with acc := sum, cells := m.cells.set a sum, ip := m.ip + 1 }
  | .dec =>
    m.did (.dec a (v - 1)) { m with acc := v - 1, cells := m.cells.set a (v - 1), ip := m.ip + 1 }
  | .null => m.did (.null a) { m with acc := 0, cells := m.cells.set a 0, ip := m.ip + 1 }
  | .hlt => ({ m with status := .halted }, none)

def obey (m : Machine) (code : Nat) : Machine × Answer :=
  match mnemonic? (code / m.ramSize) with
  | some op => m.apply op (code % m.ramSize)
  | none => m.fail (.illegalInstruction (.unknown (code / m.ramSize)) (code % m.ramSize) m.ip)

def step (m : Machine) : Machine × Answer :=
  match m.status with
  | .running =>
    if m.ramSize ≤ m.ip then m.fail (.outOfBounds "instruction pointer" m.ip m.ramSize)
    else
      let counted := { m with operations := m.operations + 1 }
      match counted.limit.filter (· ≤ counted.operations) with
      | some l => counted.fail (.operationLimitExceeded l)
      | none => counted.obey (m.cell m.ip)
  | _ => (m, none)

def answers : Nat → Machine → List Answer
  | 0, _ => []
  | n + 1, m => m.step.2 :: answers n m.step.1

def later (n : Nat) (m : Machine) : Machine := (fun m => m.step.1)^[n] m

end Machine

def start (ramSize maxValue : Nat) (limit : Option Nat) (cells : List Nat) : Machine :=
  { ramSize, maxValue, limit, cells }

end AccMachine.Ideal

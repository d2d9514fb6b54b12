import AccMachine.Memory

/-!
The machine with one accumulator, and what each operation does to it. An access that is refused
ends the operation with a fault, and leaves what the operation had done up to there.
-/
namespace AccMachine

inductive Effect where
  | noop
  | take (cell : Address) (value : Word)
  | add (cell : Address) (addend acc : Word)
  | sub (cell : Address) (subtrahend acc : Word)
  | save (cell : Address) (acc : Word)
  | jmp (target : Address)
  | tst (cell : Address) (acc : Word) (skipped : Bool)
  | inc (cell : Address) (acc : Word)
  | dec (cell : Address) (acc : Word)
  | null (cell : Address)
  deriving DecidableEq, Repr, Inhabited

def Effect.line : Effect → String
  | .noop => "NOOP"
  | .take cell value => s!"TAKE: acc <- {value.toNat} (from cell {cell.toNat})"
  | .add cell addend acc =>
    s!" ADD: acc += {addend.toNat} (from cell {cell.toNat}), new value = {acc.toNat}"
  | .sub cell subtrahend acc =>
    s!" SUB: acc -= {subtrahend.toNat} (from cell {cell.toNat}), new value = {acc.toNat}"
  | .save cell acc => s!"SAVE: cell {cell.toNat} <- {acc.toNat} (from acc)"
  | .jmp target => s!" JMP: ip <- {target.toNat}"
  | .tst cell acc false =>
    s!" TST: acc != 0 (value {acc.toNat}, loaded from cell {cell.toNat})"
  | .tst cell _ true =>
    s!" TST: acc == 0 (loaded from cell {cell.toNat}), skipping next instruction"
  | .inc cell acc => s!" INC: cell {cell.toNat} <- acc <- {acc.toNat}"
  | .dec cell acc => s!" DEC: cell {cell.toNat} <- acc <- {acc.toNat}"
  | .null cell => s!"NULL: cell {cell.toNat} <- acc <- 0"

structure Machine where
  memory : Memory
  acc : Word := 0
  ip : Address := 0
  deriving DecidableEq, Repr, Inhabited

inductive Reaction where
  | did (effect : Effect)
  | halt
  | fault (f : Fault)
  deriving DecidableEq, Repr, Inhabited

namespace Machine

@[inline] def bounds (m : Machine) : Bounds := m.memory.bounds

@[inline] def advance (m : Machine) (n : Address) : Machine := { m with ip := m.ip + n }

@[inline] def reading (m : Machine) (cell : Address) (next : Word → Machine × Reaction) :
    Machine × Reaction :=
  match m.memory.read cell with
  | .ok v => next v
  | .error f => (m, .fault f)

@[inline] def storing (m : Machine) (cell : Address) (next : Machine → Machine × Reaction) :
    Machine × Reaction :=
  match m.memory.write cell m.acc with
  | .ok memory => next { m with memory }
  | .error f => (m, .fault f)

def exec (m : Machine) (op : Mnemonic) (cell : Address) : Machine × Reaction :=
  match op with
  | .noop => (m.advance 1, .did .noop)
  | .take => m.reading cell fun v => ({ m with acc := v }.advance 1, .did (.take cell v))
  | .add => m.reading cell fun v =>
    let acc := m.bounds.saturate (Word.signed m.acc + Word.signed v)
    ({ m with acc }.advance 1, .did (.add cell v acc))
  | .sub => m.reading cell fun v =>
    let acc := m.bounds.saturate (Word.signed m.acc - Word.signed v)
    ({ m with acc }.advance 1, .did (.sub cell v acc))
  | .save => m.storing cell fun m => (m.advance 1, .did (.save cell m.acc))
  | .jmp => ({ m with ip := cell }, .did (.jmp cell))
  | .tst => m.reading cell fun v =>
    ({ m with acc := v }.advance (if v = 0 then 2 else 1), .did (.tst cell v (v = 0)))
  | .inc => m.reading cell fun v =>
    { m with acc := m.bounds.saturate (Word.signed v + 1) }.storing cell fun m =>
      (m.advance 1, .did (.inc cell m.acc))
  | .dec => m.reading cell fun v =>
    { m with acc := m.bounds.saturate (Word.signed v - 1) }.storing cell fun m =>
      (m.advance 1, .did (.dec cell m.acc))
  | .null => { m with acc := 0 }.storing cell fun m => (m.advance 1, .did (.null cell))
  | .hlt => (m, .halt)

def perform (m : Machine) (i : Instruction) : Machine × Reaction :=
  match i.opcode with
  | .known op => m.exec op i.operand
  | .unknown n => (m, .fault (.illegalInstruction (.unknown n) i.operand m.ip))

end Machine

end AccMachine

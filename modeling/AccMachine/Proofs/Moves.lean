import AccMachine.Execution

/-!
What one step can do. On a well-formed memory no access is refused, so that the record of an
operation says by itself how the machine changed.
-/
namespace AccMachine

theorem Word.toUInt32_signed (w : Word) : (Word.signed w).toUInt64.toUInt32 = w := by
  rw [Word.signed, UInt64.toUInt64_toInt64, UInt32.toUInt32_toUInt64]

theorem Bounds.saturate_le (b : Bounds) (v : Int64) : b.saturate v ≤ b.maxValue := by
  have exact := b.toNat_saturate v
  rw [UInt32.le_iff_toNat_le]
  omega

theorem Bounds.isValue_signed {b : Bounds} {w : Word} (small : w ≤ b.maxValue) :
    b.IsValue (Word.signed w) := by
  rw [Bounds.isValue_iff, Word.toInt_signed]
  rw [UInt32.le_iff_toNat_le] at small
  omega

theorem Opcode.ofNumber_unknown {k n : Word} (unnamed : ofNumber k = .unknown n) :
    k = n ∧ Mnemonic.ofNumber? k = none := by
  unfold ofNumber at unnamed
  split at unnamed
  · cases unnamed
  · rename_i missing
    exact ⟨Opcode.unknown.inj unnamed, missing⟩

theorem Instruction.exact_number (ramSize : Address) (code : Word) :
    (code.toUInt64 / ramSize).toUInt32.toNat = code.toNat / ramSize.toNat := by
  have small : code.toNat / ramSize.toNat < 2 ^ 32 :=
    Nat.lt_of_le_of_lt (Nat.div_le_self _ _) code.toNat_lt
  rw [UInt64.toNat_toUInt32, UInt64.toNat_div, UInt32.toNat_toUInt64, Nat.mod_eq_of_lt small]

theorem Instruction.exact_operand (ramSize : Address) (code : Word) :
    (split ramSize code).operand.toNat = code.toNat % ramSize.toNat := by
  rw [split, UInt64.toNat_mod, UInt32.toNat_toUInt64]

namespace Memory

def get (m : Memory) (a : Address) : Word := m.cells[a.toNat]?.getD 0

def put (m : Memory) (a : Address) (v : Word) : Memory :=
  { m with cells := m.cells.setIfInBounds a.toNat v }

theorem WellFormed.inside {m : Memory} (h : m.WellFormed) {a : Address}
    (lt : a < m.bounds.ramSize) : a.toNat < m.cells.size := by
  rw [h.1]
  exact UInt64.lt_iff_toNat_lt.mp lt

theorem get_le {m : Memory} (h : m.WellFormed) (a : Address) : m.get a ≤ m.bounds.maxValue := by
  unfold get
  by_cases inside : a.toNat < m.cells.size
  · simpa [inside] using h.2 _ (Array.getElem_mem inside)
  · simp [inside]

theorem read_inside {m : Memory} (h : m.WellFormed) {a : Address}
    (lt : a < m.bounds.ramSize) : m.read a = .ok (m.get a) := by
  have inside := h.inside lt
  simp [read, get, inside]

theorem write_inside {m : Memory} (h : m.WellFormed) {a : Address}
    (lt : a < m.bounds.ramSize) {v : Word} (small : v ≤ m.bounds.maxValue) :
    m.write a v = .ok (m.put a v) := by
  have inside := h.inside lt
  simp [write, put, inside, UInt32.not_lt.mpr small, Array.setIfInBounds]

theorem put_wellFormed {m : Memory} (h : m.WellFormed) (a : Address) {v : Word}
    (small : v ≤ m.bounds.maxValue) : (m.put a v).WellFormed := by
  constructor
  · simpa [put] using h.1
  · intro w member
    rcases Array.mem_or_eq_of_mem_setIfInBounds member with old | rfl
    · exact h.2 w old
    · exact small

end Memory

/-- How a machine changes, from the record of the operation alone. -/
def Effect.replay : Effect → Machine → Machine
  | .noop, m => m.advance 1
  | .take _ value, m => { m with acc := value }.advance 1
  | .add _ _ acc, m | .sub _ _ acc, m => { m with acc }.advance 1
  | .save cell acc, m => { m with memory := m.memory.put cell acc }.advance 1
  | .jmp target, m => { m with ip := target }
  | .tst _ acc skipped, m => { m with acc }.advance (if skipped then 2 else 1)
  | .inc cell acc, m | .dec cell acc, m =>
    { m with acc, memory := m.memory.put cell acc }.advance 1
  | .null cell, m => { m with acc := 0, memory := m.memory.put cell 0 }.advance 1

namespace Machine

def instruction (m : Machine) : Instruction := .split m.bounds.ramSize (m.memory.get m.ip)

def effect? (m : Machine) (op : Mnemonic) (cell : Address) : Option Effect :=
  let v := m.memory.get cell
  match op with
  | .noop => some .noop
  | .take => some (.take cell v)
  | .add => some (.add cell v (m.bounds.saturate (Word.signed m.acc + Word.signed v)))
  | .sub => some (.sub cell v (m.bounds.saturate (Word.signed m.acc - Word.signed v)))
  | .save => some (.save cell m.acc)
  | .jmp => some (.jmp cell)
  | .tst => some (.tst cell v (v = 0))
  | .inc => some (.inc cell (m.bounds.saturate (Word.signed v + 1)))
  | .dec => some (.dec cell (m.bounds.saturate (Word.signed v - 1)))
  | .null => some (.null cell)
  | .hlt => none

theorem operand_lt (m : Machine) {a : Address} (here : a < m.bounds.ramSize) :
    m.instruction.operand < m.bounds.ramSize := by
  rw [UInt64.lt_iff_toNat_lt] at here ⊢
  simp only [instruction, Instruction.split, UInt64.toNat_mod]
  exact Nat.mod_lt _ (by omega)

theorem effect?_eq_none_iff (m : Machine) (op : Mnemonic) (cell : Address) :
    m.effect? op cell = none ↔ op = .hlt := by
  cases op <;> simp [effect?]

theorem reading_inside {m : Machine} (h : m.memory.WellFormed) {cell : Address}
    (lt : cell < m.bounds.ramSize) (next : Word → Machine × Reaction) :
    m.reading cell next = next (m.memory.get cell) := by
  rw [reading, Memory.read_inside h lt]

theorem storing_inside {m : Machine} (h : m.memory.WellFormed) {cell : Address}
    (lt : cell < m.bounds.ramSize) (small : m.acc ≤ m.bounds.maxValue)
    (next : Machine → Machine × Reaction) :
    m.storing cell next = next { m with memory := m.memory.put cell m.acc } := by
  rw [storing, Memory.write_inside h lt small]

theorem exec_of_effect {m : Machine} (h : m.memory.WellFormed) (small : m.acc ≤ m.bounds.maxValue)
    {op : Mnemonic} {cell : Address} (lt : cell < m.bounds.ramSize) {f : Effect}
    (does : m.effect? op cell = some f) : m.exec op cell = (f.replay m, .did f) := by
  have reads := fun next => reading_inside h lt next
  -- INC, DEC and NULL store only after they have set the accumulator
  have stores : ∀ v ≤ m.bounds.maxValue, ∀ next, storing { m with acc := v } cell next =
      next { m with acc := v, memory := m.memory.put cell v } :=
    fun v le next => storing_inside (m := { m with acc := v }) h lt le next
  cases op with
  | noop | jmp => obtain rfl := Option.some.inj does; rfl
  | take | add | sub => obtain rfl := Option.some.inj does; exact reads _
  | tst =>
    obtain rfl := Option.some.inj does
    simp only [exec, reads, Effect.replay, decide_eq_true_eq]
  | save =>
    obtain rfl := Option.some.inj does
    exact stores m.acc small (fun m => (m.advance 1, .did (.save cell m.acc)))
  | inc | dec =>
    obtain rfl := Option.some.inj does
    exact (reads _).trans (stores _ (m.bounds.saturate_le _) _)
  | null =>
    obtain rfl := Option.some.inj does
    exact stores 0 UInt32.zero_le (fun m => (m.advance 1, .did (.null cell)))
  | hlt => cases does

theorem exec_hlt (m : Machine) (cell : Address) : m.exec .hlt cell = (m, .halt) := rfl

end Machine

namespace Execution

def counted (e : Execution) : Execution := { e with operations := e.operations + 1 }

def failing (e : Execution) (f : Fault) : Execution × Option (Except Fault Trace) :=
  ({ e with status := .failed f }, some (.error f))

/-- The moves of a running execution whose memory is well-formed: state and answer after a step. -/
inductive Move (e : Execution) : Execution × Option (Except Fault Trace) → Prop where
  | outside (out : e.machine.bounds.ramSize ≤ e.machine.ip) :
      Move e (e.failing (.outOfBounds "instruction pointer" e.machine.ip.toInt64
        e.machine.bounds.ramSize))
  | cut (here : e.machine.ip < e.machine.bounds.ramSize) (l : UInt64)
      (reached : reachedLimit? e.limit (e.operations + 1) = some l) :
      Move e (e.counted.failing (.operationLimitExceeded l))
  | illegal (here : e.machine.ip < e.machine.bounds.ramSize)
      (free : reachedLimit? e.limit (e.operations + 1) = none) (n : Word)
      (unnamed : e.machine.instruction.opcode = .unknown n) :
      Move e (e.counted.failing (.illegalInstruction (.unknown n) e.machine.instruction.operand
        e.machine.ip))
  | halt (here : e.machine.ip < e.machine.bounds.ramSize)
      (free : reachedLimit? e.limit (e.operations + 1) = none)
      (named : e.machine.instruction.opcode = .known .hlt) :
      Move e ({ e.counted with status := .halted }, none)
  | act (here : e.machine.ip < e.machine.bounds.ramSize)
      (free : reachedLimit? e.limit (e.operations + 1) = none) (op : Mnemonic)
      (named : e.machine.instruction.opcode = .known op) (f : Effect)
      (does : e.machine.effect? op e.machine.instruction.operand = some f) :
      Move e ({ e.counted with machine := f.replay e.machine },
        some (.ok ⟨e.machine.ip, e.operations + 1, f⟩))

theorem decode_cell {m : Machine} (h : m.memory.WellFormed) (here : m.ip < m.bounds.ramSize) :
    Instruction.decode m.bounds (Word.signed (m.memory.get m.ip)) = .ok m.instruction := by
  have value := Bounds.isValue_signed (Memory.get_le h m.ip)
  have nonzero : m.bounds.ramSize ≠ 0 := by
    rintro zero
    rw [zero] at here
    exact UInt64.not_lt_zero here
  rw [Instruction.decode, if_pos ⟨value, nonzero⟩, Word.toUInt32_signed, Machine.instruction]

def settled (e : Execution) (address : Address) : Reaction → Execution × Option (Except Fault Trace)
  | .did f => (e, some (.ok ⟨address, e.operations, f⟩))
  | .halt => ({ e with status := .halted }, none)
  | .fault f => e.failing f

theorem step_of_fetch {e : Execution} (h : e.machine.memory.WellFormed)
    (running : e.status = .running) (here : e.machine.ip < e.machine.bounds.ramSize)
    (free : reachedLimit? e.limit (e.operations + 1) = none) {m : Machine} {r : Reaction}
    (performed : e.machine.perform e.machine.instruction = (m, r)) :
    e.step = settled { e.counted with machine := m } e.machine.ip r := by
  obtain ⟨m, limit, operations, status⟩ := e
  obtain rfl : status = .running := running
  have inside : ¬ m.bounds.ramSize ≤ m.ip := UInt64.not_le.mpr here
  simp only [step, cycle, if_neg inside, Memory.read_inside h here, free, decode_cell h here,
    performed]
  cases r <;> rfl

theorem step_move {e : Execution} (h : e.machine.memory.WellFormed)
    (small : e.machine.acc ≤ e.machine.bounds.maxValue) (running : e.status = .running) :
    e.Move e.step := by
  by_cases out : e.machine.bounds.ramSize ≤ e.machine.ip
  · have stepped : e.step = e.failing (.outOfBounds "instruction pointer" e.machine.ip.toInt64
        e.machine.bounds.ramSize) := by
      simp only [step, cycle, running, if_pos out, failing]
    rw [stepped]
    exact .outside out
  · have here : e.machine.ip < e.machine.bounds.ramSize := UInt64.not_le.mp out
    have lt := e.machine.operand_lt here
    cases reached : reachedLimit? e.limit (e.operations + 1) with
    | some l =>
      have stepped : e.step = e.counted.failing (.operationLimitExceeded l) := by
        simp only [step, cycle, running, if_neg out, Memory.read_inside h here, reached, failing,
          counted]
      rw [stepped]
      exact .cut here l reached
    | none =>
      have stepped := fun m r => step_of_fetch (m := m) (r := r) h running here reached
      cases opcode : e.machine.instruction.opcode with
      | unknown n =>
        have refused : e.machine.perform e.machine.instruction = (e.machine,
            .fault (.illegalInstruction (.unknown n) e.machine.instruction.operand
              e.machine.ip)) := by
          rw [Machine.perform, opcode]
        rw [stepped _ _ refused]
        exact .illegal here reached n opcode
      | known op =>
        have executed : e.machine.perform e.machine.instruction =
            e.machine.exec op e.machine.instruction.operand := by
          rw [Machine.perform, opcode]
        cases does : e.machine.effect? op e.machine.instruction.operand with
        | none =>
          obtain rfl := (e.machine.effect?_eq_none_iff op _).mp does
          rw [stepped _ _ (executed.trans (e.machine.exec_hlt _))]
          exact .halt here reached opcode
        | some f =>
          rw [stepped _ _ (executed.trans (Machine.exec_of_effect h small lt does))]
          exact .act here reached op opcode f does

theorem Move.unique {e : Execution} {r r' : Execution × Option (Except Fault Trace)}
    (move : e.Move r) (other : e.Move r') : r = r' := by
  cases move with
  | outside out =>
    cases other with
    | outside => rfl
    | cut here | illegal here | halt here | act here => exact absurd out (UInt64.not_le.mpr here)
  | cut here l reached =>
    cases other with
    | outside out => exact absurd out (UInt64.not_le.mpr here)
    | cut _ l' reached' =>
      obtain rfl : l = l' := Option.some.inj (reached.symm.trans reached')
      rfl
    | illegal _ free | halt _ free | act _ free => simp [reached] at free
  | illegal here free n unnamed =>
    cases other with
    | outside out => exact absurd out (UInt64.not_le.mpr here)
    | cut _ l reached => simp [free] at reached
    | illegal _ _ n' unnamed' =>
      obtain rfl : n = n' := Opcode.unknown.inj (unnamed.symm.trans unnamed')
      rfl
    | halt _ _ named => simp [unnamed] at named
    | act _ _ op named => simp [unnamed] at named
  | halt here free named =>
    cases other with
    | outside out => exact absurd out (UInt64.not_le.mpr here)
    | cut _ l reached => simp [free] at reached
    | illegal _ _ n unnamed => simp [named] at unnamed
    | halt => rfl
    | act _ _ op named' f does =>
      obtain rfl : .hlt = op := Opcode.known.inj (named.symm.trans named')
      cases does
  | act here free op named f does =>
    cases other with
    | outside out => exact absurd out (UInt64.not_le.mpr here)
    | cut _ l reached => simp [free] at reached
    | illegal _ _ n unnamed => simp [named] at unnamed
    | halt _ _ named' =>
      obtain rfl : op = .hlt := Opcode.known.inj (named.symm.trans named')
      cases does
    | act _ _ op' named' f' does' =>
      obtain rfl : op = op' := Opcode.known.inj (named.symm.trans named')
      obtain rfl : f = f' := Option.some.inj (does.symm.trans does')
      rfl

def withLimit (e : Execution) (limit : Option UInt64) : Execution := { e with limit }

theorem Move.with_limit {e : Execution} {r : Execution × Option (Except Fault Trace)}
    (move : e.Move r) {limit : Option UInt64}
    (free : e.machine.ip < e.machine.bounds.ramSize →
      reachedLimit? e.limit (e.operations + 1) = none ∧
        reachedLimit? limit (e.operations + 1) = none) :
    (e.withLimit limit).Move (r.1.withLimit limit, r.2) := by
  cases move with
  | outside out => exact Move.outside (e := e.withLimit limit) out
  | cut here l reached =>
    have unreached := (free here).1
    simp [reached] at unreached
  | illegal here _ n unnamed =>
    exact Move.illegal (e := e.withLimit limit) here (free here).2 n unnamed
  | halt here _ named => exact Move.halt (e := e.withLimit limit) here (free here).2 named
  | act here _ op named f does =>
    exact Move.act (e := e.withLimit limit) here (free here).2 op named f does

end Execution
end AccMachine

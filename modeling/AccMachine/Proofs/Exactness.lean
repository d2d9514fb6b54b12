import Mathlib.Algebra.Group.Int.Defs
import AccMachine.Proofs.Fetches
import AccMachine.Proofs.Ideal

/-!
Words and addresses of fixed width lose nothing. Step by step, an execution is the ideal machine
on the same numbers, as long as its fetches can be counted.
-/
namespace AccMachine

def Opcode.exact : Opcode → Ideal.Opcode
  | .known m => .known m
  | .unknown n => .unknown n.toNat

def Effect.exact : Effect → Ideal.Effect
  | .noop => .noop
  | .take cell value => .take cell.toNat value.toNat
  | .add cell addend acc => .add cell.toNat addend.toNat acc.toNat
  | .sub cell subtrahend acc => .sub cell.toNat subtrahend.toNat acc.toNat
  | .save cell acc => .save cell.toNat acc.toNat
  | .jmp target => .jmp target.toNat
  | .tst cell acc skipped => .tst cell.toNat acc.toNat skipped
  | .inc cell acc => .inc cell.toNat acc.toNat
  | .dec cell acc => .dec cell.toNat acc.toNat
  | .null cell => .null cell.toNat

def Fault.exact : Fault → Ideal.Fault
  | .outOfBounds what address ramSize => .outOfBounds what address.toInt ramSize.toNat
  | .valueOutOfRange what value maxValue => .valueOutOfRange what value.toInt maxValue.toNat
  | .illegalInstruction opcode operand address =>
    .illegalInstruction opcode.exact operand.toNat address.toNat
  | .operationLimitExceeded limit => .operationLimitExceeded limit.toNat

def Trace.exact (t : Trace) : Ideal.Trace :=
  ⟨t.address.toNat, t.operation.toNat, t.effect.exact⟩

def Status.exact : Status → Ideal.Status
  | .running => .running
  | .halted => .halted
  | .failed f => .failed f.exact

def exactAnswer : Option (Except Fault Trace) → Ideal.Answer
  | none => none
  | some (.ok t) => some (.ok t.exact)
  | some (.error f) => some (.error f.exact)

def Memory.exactCells (m : Memory) : List Nat := m.cells.toList.map UInt32.toNat

def Execution.exact (e : Execution) : Ideal.Machine where
  ramSize := e.machine.bounds.ramSize.toNat
  maxValue := e.machine.bounds.maxValue.toNat
  limit := e.limit.map UInt64.toNat
  cells := e.machine.memory.exactCells
  acc := e.machine.acc.toNat
  ip := e.machine.ip.toNat
  operations := e.operations.toNat
  status := e.status.exact

theorem toInt_add_small {x y : Int64} (low : -2 ^ 62 ≤ x.toInt + y.toInt)
    (high : x.toInt + y.toInt < 2 ^ 62) : (x + y).toInt = x.toInt + y.toInt := by
  rw [Int64.toInt_add]
  exact Int.bmod_eq_of_le (by omega) (by omega)

theorem toInt_sub_small {x y : Int64} (low : -2 ^ 62 ≤ x.toInt - y.toInt)
    (high : x.toInt - y.toInt < 2 ^ 62) : (x - y).toInt = x.toInt - y.toInt := by
  rw [Int64.toInt_sub]
  exact Int.bmod_eq_of_le (by omega) (by omega)

theorem toNat_add_small {x y : UInt64} (fits : x.toNat + y.toNat < 2 ^ 64) :
    (x + y).toNat = x.toNat + y.toNat := by
  rw [UInt64.toNat_add]
  exact Nat.mod_eq_of_lt fits

namespace Bounds

variable (b : Bounds)

theorem toNat_saturate_add (x y : Word) :
    (b.saturate (Word.signed x + Word.signed y)).toNat =
      min b.maxValue.toNat (x.toNat + y.toNat) := by
  have exact := b.toNat_saturate (Word.signed x + Word.signed y)
  have hx := x.toNat_lt
  have hy := y.toNat_lt
  rw [toInt_add_small, Word.toInt_signed, Word.toInt_signed] at exact
  · omega
  all_goals rw [Word.toInt_signed, Word.toInt_signed]; omega

theorem toNat_saturate_sub {x : Word} (small : x ≤ b.maxValue) (y : Word) :
    (b.saturate (Word.signed x - Word.signed y)).toNat = x.toNat - y.toNat := by
  have exact := b.toNat_saturate (Word.signed x - Word.signed y)
  have hx := x.toNat_lt
  have hy := y.toNat_lt
  rw [UInt32.le_iff_toNat_le] at small
  rw [toInt_sub_small, Word.toInt_signed, Word.toInt_signed] at exact
  · omega
  all_goals rw [Word.toInt_signed, Word.toInt_signed]; omega

theorem toNat_saturate_inc (x : Word) :
    (b.saturate (Word.signed x + 1)).toNat = min b.maxValue.toNat (x.toNat + 1) :=
  b.toNat_saturate_add x 1

theorem toNat_saturate_dec {x : Word} (small : x ≤ b.maxValue) :
    (b.saturate (Word.signed x - 1)).toNat = x.toNat - 1 :=
  b.toNat_saturate_sub small 1

end Bounds

theorem Memory.getD_exactCells (m : Memory) (a : Address) :
    m.exactCells.getD a.toNat 0 = (m.get a).toNat := by
  simp only [exactCells, get, List.getD_eq_getElem?_getD, List.getElem?_map, Array.getElem?_toList]
  cases m.cells[a.toNat]? <;> rfl

theorem Memory.exactCells_put (m : Memory) (a : Address) (v : Word) :
    (m.put a v).exactCells = m.exactCells.set a.toNat v.toNat := by
  simp only [exactCells, put, Array.toList_setIfInBounds, List.map_set]

theorem mnemonic?_toNat (n : Word) : Ideal.mnemonic? n.toNat = Mnemonic.ofNumber? n := by
  have table : ∀ k, Ideal.mnemonic? k = Mnemonic.all[k]? := by
    intro k
    match k with
    | 0 | 1 | 2 | 3 | 4 | 5 | 6 | 7 | 8 | 9 | 10 => rfl
    | k + 11 => rfl
  exact table n.toNat

theorem Instruction.mnemonic_of_known {ramSize : Address} {code : Word} {op : Mnemonic}
    (named : (split ramSize code).opcode = .known op) :
    Ideal.mnemonic? (code.toNat / ramSize.toNat) = some op := by
  rw [← exact_number, mnemonic?_toNat]
  simp only [split, Opcode.ofNumber] at named
  split at named
  · rename_i found
    rw [found, Opcode.known.inj named]
  · cases named

theorem Instruction.mnemonic_of_unknown {ramSize : Address} {code : Word} {n : Word}
    (unnamed : (split ramSize code).opcode = .unknown n) :
    n.toNat = code.toNat / ramSize.toNat ∧
      Ideal.mnemonic? (code.toNat / ramSize.toNat) = none := by
  obtain ⟨rfl, missing⟩ := Opcode.ofNumber_unknown unnamed
  rw [← exact_number, mnemonic?_toNat]
  exact ⟨rfl, missing⟩

namespace Execution

theorem exact_reached (limit : Option UInt64) (n : UInt64) :
    (reachedLimit? limit n).map UInt64.toNat =
      (limit.map UInt64.toNat).filter (· ≤ n.toNat) := by
  cases limit with
  | none => rfl
  | some l =>
    by_cases le : l ≤ n
    · have leNat := UInt64.le_iff_toNat_le.mp le
      simp [reachedLimit?, Option.filter, le, leNat]
    · have leNat : ¬ l.toNat ≤ n.toNat := fun h => le (UInt64.le_iff_toNat_le.mpr h)
      simp [reachedLimit?, Option.filter, le, leNat]

theorem exact_cell (e : Execution) (a : Address) :
    e.exact.cell a.toNat = (e.machine.memory.get a).toNat :=
  e.machine.memory.getD_exactCells a

theorem exact_counted {e : Execution} (count : e.operations.toNat + 1 < 2 ^ 64) :
    e.counted.exact = { e.exact with operations := e.exact.operations + 1 } := by
  have counts : (e.operations + 1).toNat = e.operations.toNat + 1 := toNat_add_small count
  simp only [exact, counted, counts]

theorem exact_apply {e : Execution} {b : Bounds} (sound : e.machine.Sound b)
    (near : e.machine.ip.toNat + 2 < 2 ^ 64) {op : Mnemonic} {cell : Address} {f : Effect}
    (does : e.machine.effect? op cell = some f) :
    e.exact.apply op cell.toNat = ({ e with machine := f.replay e.machine }.exact,
      some (.ok (Trace.mk e.machine.ip e.operations f).exact)) := by
  have v := e.exact_cell cell
  have next : e.exact.ip + 1 = (e.machine.ip + 1).toNat :=
    (toNat_add_small (x := e.machine.ip) (y := 1) (Nat.lt_of_succ_lt near)).symm
  have skip : e.exact.ip + 2 = (e.machine.ip + 2).toNat :=
    (toNat_add_small (x := e.machine.ip) (y := 2) near).symm
  have stored : ∀ w : Word, e.exact.cells.set cell.toNat w.toNat =
      (e.machine.memory.put cell w).exactCells :=
    fun w => (e.machine.memory.exactCells_put cell w).symm
  have add : min e.exact.maxValue (e.exact.acc + (e.machine.memory.get cell).toNat) = _ :=
    (e.machine.bounds.toNat_saturate_add e.machine.acc (e.machine.memory.get cell)).symm
  have sub : e.exact.acc - (e.machine.memory.get cell).toNat = _ :=
    (e.machine.bounds.toNat_saturate_sub sound.acc_le_bounds (e.machine.memory.get cell)).symm
  have inc : min e.exact.maxValue ((e.machine.memory.get cell).toNat + 1) = _ :=
    (e.machine.bounds.toNat_saturate_inc (e.machine.memory.get cell)).symm
  have dec : (e.machine.memory.get cell).toNat - 1 = _ :=
    (e.machine.bounds.toNat_saturate_dec (Memory.get_le sound.wellFormed cell)).symm
  cases op with
  | hlt => cases does
  | noop =>
    obtain rfl := Option.some.inj does
    simp only [Ideal.Machine.apply, next]
    rfl
  | take =>
    obtain rfl := Option.some.inj does
    simp only [Ideal.Machine.apply, v, next]
    rfl
  | add =>
    obtain rfl := Option.some.inj does
    simp only [Ideal.Machine.apply, v, next, add]
    rfl
  | sub =>
    obtain rfl := Option.some.inj does
    simp only [Ideal.Machine.apply, v, next, sub]
    rfl
  | save =>
    obtain rfl := Option.some.inj does
    have saved : e.exact.cells.set cell.toNat e.exact.acc = _ := stored e.machine.acc
    simp only [Ideal.Machine.apply, next, saved]
    rfl
  | jmp =>
    obtain rfl := Option.some.inj does
    rfl
  | tst =>
    obtain rfl := Option.some.inj does
    have zero_iff : (e.machine.memory.get cell).toNat = 0 ↔ e.machine.memory.get cell = 0 :=
      UInt32.toNat_inj (b := 0)
    have flag : decide ((e.machine.memory.get cell).toNat = 0) =
        decide (e.machine.memory.get cell = 0) := decide_eq_decide.mpr zero_iff
    have moved : (e.exact.ip + if (e.machine.memory.get cell).toNat = 0 then 2 else 1) =
        (e.machine.ip + if decide (e.machine.memory.get cell = 0) = true then 2 else 1).toNat := by
      by_cases zero : e.machine.memory.get cell = 0
      · rw [if_pos (zero_iff.mpr zero), if_pos (decide_eq_true zero), skip]
      · have nonzero : ¬ decide (e.machine.memory.get cell = 0) = true := by simpa using zero
        rw [if_neg (fun h => zero (zero_iff.mp h)), if_neg nonzero, next]
    simp only [Ideal.Machine.apply, v, flag, moved]
    rfl
  | inc =>
    obtain rfl := Option.some.inj does
    simp only [Ideal.Machine.apply, v, next, inc, stored]
    rfl
  | dec =>
    obtain rfl := Option.some.inj does
    simp only [Ideal.Machine.apply, v, next, dec, stored]
    rfl
  | null =>
    obtain rfl := Option.some.inj does
    have cleared : e.exact.cells.set cell.toNat 0 = _ := stored 0
    simp only [Ideal.Machine.apply, next, cleared]
    rfl

theorem exact_failing (e : Execution) (f : Fault) :
    e.exact.fail f.exact = ((e.failing f).1.exact, exactAnswer (e.failing f).2) := rfl

theorem exact_fetch {e : Execution} (count : e.operations.toNat + 1 < 2 ^ 64)
    (running : e.status = .running) (here : e.machine.ip < e.machine.bounds.ramSize) :
    e.exact.step = match (reachedLimit? e.limit (e.operations + 1)).map UInt64.toNat with
      | some l => e.counted.exact.fail (.operationLimitExceeded l)
      | none => e.counted.exact.obey (e.machine.memory.get e.machine.ip).toNat := by
  have started : e.exact.status = .running := congrArg Status.exact running
  have inside : ¬ e.exact.ramSize ≤ e.exact.ip :=
    Nat.not_le.mpr (UInt64.lt_iff_toNat_lt.mp here)
  have code : e.exact.cell e.exact.ip = _ := e.exact_cell e.machine.ip
  have counted := exact_counted count
  have counts : e.exact.operations + 1 = (e.operations + 1).toNat :=
    (toNat_add_small (x := e.operations) (y := 1) count).symm
  rw [counted, exact_reached, Ideal.Machine.step, started]
  simp only [if_neg inside, code, counts, started]
  rfl

theorem exact_obey_known {e : Execution} {op : Mnemonic}
    (named : e.machine.instruction.opcode = .known op) :
    e.exact.obey (e.machine.memory.get e.machine.ip).toNat =
      e.exact.apply op e.machine.instruction.operand.toNat := by
  have operand : (e.machine.memory.get e.machine.ip).toNat % e.exact.ramSize = _ :=
    (Instruction.exact_operand e.machine.bounds.ramSize _).symm
  have found : Ideal.mnemonic? (_ / e.exact.ramSize) = some op :=
    Instruction.mnemonic_of_known named
  rw [Ideal.Machine.obey, found, operand]
  rfl

theorem exact_obey_unknown {e : Execution} {n : Word}
    (unnamed : e.machine.instruction.opcode = .unknown n) :
    e.exact.obey (e.machine.memory.get e.machine.ip).toNat =
      e.exact.fail (Fault.illegalInstruction (.unknown n) e.machine.instruction.operand
        e.machine.ip).exact := by
  have operand : (e.machine.memory.get e.machine.ip).toNat % e.exact.ramSize = _ :=
    (Instruction.exact_operand e.machine.bounds.ramSize _).symm
  obtain ⟨number, missing⟩ := Instruction.mnemonic_of_unknown unnamed
  have number : (e.machine.memory.get e.machine.ip).toNat / e.exact.ramSize = n.toNat := number.symm
  have missing : Ideal.mnemonic? (_ / e.exact.ramSize) = none := missing
  rw [Ideal.Machine.obey, missing, operand, number]
  rfl

theorem exact_step {e : Execution} {b : Bounds} (sound : e.machine.Sound b)
    (small : b.ramSize.toNat ≤ 2 ^ 61) (count : e.operations.toNat + 1 < 2 ^ 64) :
    e.exact.step = (e.after.exact, exactAnswer e.step.2) := by
  have ip_le := sound.ip_le
  have near : e.machine.ip.toNat + 2 < 2 ^ 64 := by omega
  cases status : e.status with
  | halted | failed =>
    have stuck : e.step = (e, none) := step_of_stopped (by rw [stopped, status])
    have stuckExact : e.exact.status = e.status.exact := rfl
    rw [status] at stuckExact
    rw [after, stuck, Ideal.Machine.step, stuckExact]
    rfl
  | running =>
    have fetch := exact_fetch count status
    have move := Move.of_sound sound status
    rw [after]
    generalize e.step = r at move
    cases move with
    | outside out =>
      have outNat : e.exact.ramSize ≤ e.exact.ip := UInt64.le_iff_toNat_le.mp out
      have address : e.machine.ip.toInt64.toInt = e.machine.ip.toNat := toInt_toInt64 (by omega)
      have started : e.exact.status = .running := congrArg Status.exact status
      rw [Ideal.Machine.step, started, ← exact_failing, Fault.exact, address]
      simp only [if_pos outNat]
      rfl
    | cut here l reached =>
      rw [fetch here, reached]
      exact exact_failing e.counted (.operationLimitExceeded l)
    | illegal here free n unnamed =>
      rw [fetch here, free, ← exact_failing]
      exact exact_obey_unknown (e := e.counted) unnamed
    | halt here free named =>
      rw [fetch here, free]
      exact exact_obey_known (e := e.counted) named
    | act here free op named f does =>
      rw [fetch here, free]
      exact (exact_obey_known (e := e.counted) named).trans
        (exact_apply (e := e.counted) sound near does)

theorem exact_run {e : Execution} {b : Bounds} (sound : e.machine.Sound b)
    (small : b.ramSize.toNat ≤ 2 ^ 61) (k : Nat) (count : e.operations.toNat + k < 2 ^ 64) :
    (e.answers k).map exactAnswer = e.exact.answers k ∧ (e.later k).exact = e.exact.later k := by
  induction k generalizing e with
  | zero => exact ⟨rfl, rfl⟩
  | succ k ih =>
    have step := exact_step sound small (by omega)
    have counted : e.after.operations.toNat ≤ e.operations.toNat + 1 := by
      rw [after_operations sound]
      split
      · rw [toNat_add_small (y := 1) (by simp; omega)]
        exact Nat.le_refl _
      · simp
    obtain ⟨answered, ended⟩ := ih (after_sound sound) (by omega)
    constructor
    · rw [answers, Ideal.Machine.answers, List.map_cons, answered, step]
    · have next : e.exact.later (k + 1) = e.exact.step.1.later k := rfl
      rw [next, step]
      exact ended

/-- No cast and no sum of an execution ever wraps: its answers and its states are those of the
ideal machine, whatever the program does to itself. -/
theorem execution_is_ideal {m : Memory} (h : m.WellFormed)
    (small : m.bounds.ramSize.toNat ≤ 2 ^ 61) (limit : Option UInt64) {k : Nat}
    (countable : k < 2 ^ 64) :
    let ideal := Ideal.start m.bounds.ramSize.toNat m.bounds.maxValue.toNat
      (limit.map UInt64.toNat) (m.cells.toList.map UInt32.toNat)
    ((start m limit).answers k).map exactAnswer = ideal.answers k ∧
      ((start m limit).later k).exact = ideal.later k :=
  exact_run (start_sound h limit) small k (by rw [start]; simpa using countable)

theorem execution_is_ideal_at_the_top :
    let m : Memory := ⟨⟨4, 4294967295⟩, #[30, 20, 4294967295, 0]⟩
    let ideal := Ideal.start 4 4294967295 none [30, 20, 4294967295, 0]
    m.WellFormed ∧ m.bounds.ramSize.toNat ≤ 2 ^ 61 ∧ 5 < 2 ^ 64 ∧
      ((start m none).answers 5).map exactAnswer = ideal.answers 5 ∧
      ((start m none).later 5).exact = ideal.later 5 := by
  intro m ideal
  have wellFormed : m.WellFormed := ⟨rfl, by simp [m]⟩
  have four : m.bounds.ramSize.toNat = 4 := rfl
  have small : m.bounds.ramSize.toNat ≤ 2 ^ 61 := by omega
  have countable : 5 < 2 ^ 64 := by omega
  exact ⟨wellFormed, small, countable, execution_is_ideal wellFormed small none countable⟩

end Execution
end AccMachine

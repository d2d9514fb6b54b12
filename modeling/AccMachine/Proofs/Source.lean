import Mathlib.Data.List.Forall2
import AccMachine.Proofs.Coding
import AccMachine.Proofs.Edits
import AccMachine.Proofs.Exactness
import AccMachine.Proofs.Loading
import AccMachine.Proofs.Log

/-!
Programs as they are written. Where nothing has overwritten the cell of a line, a machine does what
the line says, and as long as that is so it is an interpreter of the lines.
-/
namespace AccMachine

structure Statement where
  op : Mnemonic
  operand : Address
  deriving DecidableEq, Repr

abbrev Program := List Statement

/-- The program has a statement for every line of the text, and the line spells it. -/
def Written (source : String) (program : Program) : Prop :=
  ∃ lines, Text.Lines source.toList lines ∧
    List.Forall₂ (fun line s => Assembly.Spells line s.op s.operand.toNat) lines program

theorem Written.unique {source : String} {program other : Program}
    (written : Written source program) (written' : Written source other) : program = other := by
  obtain ⟨lines, split, spelled⟩ := written
  obtain ⟨lines', split', spelled'⟩ := written'
  obtain rfl : lines = lines' :=
    (Text.lines_eq_iff.mpr split).symm.trans (Text.lines_eq_iff.mpr split')
  refine List.right_unique_forall₂' ?_ spelled spelled'
  rintro line ⟨op, operand⟩ ⟨op', operand'⟩ spells spells'
  obtain ⟨same, sameOperand⟩ := spells.unique spells'
  obtain rfl : op = op' := same
  obtain rfl : operand = operand' := UInt64.toNat_inj.mp (Int.ofNat.inj sameOperand)
  rfl

namespace Effect

def mnemonic : Effect → Mnemonic
  | .noop => .noop
  | .take .. => .take
  | .add .. => .add
  | .sub .. => .sub
  | .save .. => .save
  | .jmp .. => .jmp
  | .tst .. => .tst
  | .inc .. => .inc
  | .dec .. => .dec
  | .null .. => .null

def operand? : Effect → Option Address
  | .noop => none
  | .take cell _ | .add cell _ _ | .sub cell _ _ | .save cell _ | .tst cell _ _ | .inc cell _
  | .dec cell _ | .null cell => some cell
  | .jmp target => some target

def stored? : Effect → Option Address
  | .save cell _ | .inc cell _ | .dec cell _ | .null cell => some cell
  | _ => none

end Effect

namespace Program

/-- One step of the program itself: the pointer is the number of a statement, and no cell is taken
for an instruction. Behind the last statement there is nothing to do. -/
def step (program : Program) (e : Execution) : Execution × Option (Except Fault Trace) :=
  if e.stopped then (e, none)
  else if e.machine.bounds.ramSize ≤ e.machine.ip then
    e.failing (.outOfBounds "instruction pointer" e.machine.ip.toInt64 e.machine.bounds.ramSize)
  else match program[e.machine.ip.toNat]? with
    | none => (e, none)
    | some s =>
      match Execution.reachedLimit? e.limit (e.operations + 1) with
      | some l => e.counted.failing (.operationLimitExceeded l)
      | none =>
        let (machine, reaction) := e.machine.exec s.op s.operand
        Execution.settled { e.counted with machine } e.machine.ip reaction

def later (program : Program) (n : Nat) (e : Execution) : Execution :=
  (fun e => (program.step e).1)^[n] e

def answers (program : Program) : Nat → Execution → List (Option (Except Fault Trace))
  | 0, _ => []
  | n + 1, e => (program.step e).2 :: program.answers n (program.step e).1

/-- One step of the program on numbers without bound, by the specified table of operations. -/
def idealStep (program : Program) (m : Ideal.Machine) : Ideal.Machine × Ideal.Answer :=
  match m.status with
  | .running =>
    if m.ramSize ≤ m.ip then m.fail (.outOfBounds "instruction pointer" m.ip m.ramSize)
    else match program[m.ip]? with
      | none => (m, none)
      | some s =>
        let counted := { m with operations := m.operations + 1 }
        match counted.limit.filter (· ≤ counted.operations) with
        | some l => counted.fail (.operationLimitExceeded l)
        | none => counted.apply s.op s.operand.toNat
  | _ => (m, none)

def idealLater (program : Program) (n : Nat) (m : Ideal.Machine) : Ideal.Machine :=
  (fun m => (program.idealStep m).1)^[n] m

def idealAnswers (program : Program) : Nat → Ideal.Machine → List Ideal.Answer
  | 0, _ => []
  | n + 1, m => (program.idealStep m).2 :: program.idealAnswers n (program.idealStep m).1

end Program

/-- The machine does what the statement says, unless that fetch is one too many. -/
inductive Performs (e : Execution) (s : Statement) : Prop where
  | exceeded (l : UInt64) (given : e.limit = some l)
      (fails : e.step = e.counted.failing (.operationLimitExceeded l))
  | halts (op : s.op = .hlt) (silent : e.step = ({ e.counted with status := .halted }, none))
  | acts (f : Effect) (op : f.mnemonic = s.op)
      (operand : f.operand? = if s.op = .noop then none else some s.operand)
      (left : e.step.2 = some (.ok ⟨e.machine.ip, e.operations + 1, f⟩))
      (does : e.machine.exec s.op s.operand = (e.after.machine, .did f))
      (specified : e.machine.bounds.ramSize.toNat ≤ 2 ^ 61 →
        e.counted.exact.apply s.op s.operand.toNat = (e.after.exact, exactAnswer e.step.2))

/-- Neither the calls nor the operations recorded since then overwrote the cell. -/
structure Intact (b : Bounds) (edits : List Edit) (ts : List Trace) (cell : Address) : Prop where
  calls : ∀ e ∈ edits, e.target? b ≠ some cell
  operations : ∀ t ∈ ts, t.effect.stored? ≠ some cell

def FetchesIntact (m : Memory) (edits : List Edit) (limit : Option UInt64) (program : Program)
    (k : Nat) : Prop :=
  ∀ j < k, ∀ e, e = (Execution.start m limit).later j → e.fetching = true →
    e.machine.ip.toNat < program.length ∧
      Intact m.bounds edits ((Execution.start m limit).records j) e.machine.ip

/-- The runs over the memory `m`, on which the calls `edits` came last, follow the program wherever
it is intact. While all that they fetch is intact, they are runs of the program alone, in words of
fixed width and in numbers without bound. -/
structure Follows (m : Memory) (edits : List Edit) (limit : Option UInt64) (program : Program) :
    Prop where
  step : ∀ (k : Nat) (e : Execution) (s : Statement), e = (Execution.start m limit).later k →
    e.status = .running → program[e.machine.ip.toNat]? = some s →
    Intact m.bounds edits ((Execution.start m limit).records k) e.machine.ip → Performs e s
  run : ∀ k, FetchesIntact m edits limit program k →
    (Execution.start m limit).answers k = program.answers k (Execution.start m limit) ∧
      (Execution.start m limit).later k = program.later k (Execution.start m limit)
  ideal : m.bounds.ramSize.toNat ≤ 2 ^ 61 → ∀ k < 2 ^ 64, FetchesIntact m edits limit program k →
    let ideal := Ideal.start m.bounds.ramSize.toNat m.bounds.maxValue.toNat
      (limit.map UInt64.toNat) (m.cells.toList.map UInt32.toNat)
    ((Execution.start m limit).answers k).map exactAnswer = program.idealAnswers k ideal ∧
      ((Execution.start m limit).later k).exact = program.idealLater k ideal

theorem Effect.get_replay {f : Effect} {a : Address} (other : f.stored? ≠ some a) (m : Machine) :
    (f.replay m).memory.get a = m.memory.get a := by
  cases f with
  | noop | take | add | sub | jmp | tst => rfl
  | save cell | inc cell | dec cell | null cell =>
    exact m.memory.get_put_of_ne (fun same => other (congrArg some same)) _

theorem Machine.get_replayed {ts : List Trace} {a : Address}
    (others : ∀ t ∈ ts, t.effect.stored? ≠ some a) (m : Machine) :
    (m.replayed ts).memory.get a = m.memory.get a := by
  induction ts generalizing m with
  | nil => rfl
  | cons t ts ih =>
    obtain ⟨first, rest⟩ := List.forall_mem_cons.mp others
    exact (ih rest (t.effect.replay m)).trans (Effect.get_replay first m)

theorem Machine.effect?_says {m : Machine} {op : Mnemonic} {cell : Address} {f : Effect}
    (does : m.effect? op cell = some f) :
    f.mnemonic = op ∧ f.operand? = if op = .noop then none else some cell := by
  cases op with
  | hlt => cases does
  | noop | take | add | sub | save | jmp | tst | inc | dec | null =>
    obtain rfl := Option.some.inj does
    exact ⟨rfl, rfl⟩

namespace Assembly

theorem written_of_accepted {b : Bounds} {index : Nat} {lines : List (List Char)}
    (all : refusal? b index lines = none) : ∃ program : Program,
      List.Forall₂ (fun line s => Spells line s.op s.operand.toNat) lines program ∧
      List.Forall₂ (fun w s => Instruction.split b.ramSize w = ⟨.known s.op, s.operand⟩)
        (accepted b index lines) program := by
  induction lines generalizing index with
  | nil => exact ⟨[], .nil, .nil⟩
  | cons line rest ih =>
    cases judged : judge b index line with
    | error e => simp [refusal?, judged] at all
    | ok w =>
      simp only [refusal?, judged] at all
      simp only [accepted, judged]
      obtain ⟨program, spelled, split⟩ := ih all
      obtain ⟨op, operand, spells, encoded⟩ := judge_eq_ok judged
      exact ⟨⟨op, operand⟩ :: program, .cons spells spelled,
        .cons (Instruction.split_of_encode encoded) split⟩

theorem load_written {m : Memory} (h : m.WellFormed) {source : String} {n : Nat}
    (taken : (load m source).2 = .ok n) : ∃ program : Program,
      Written source program ∧ program.length = n ∧
      (∀ (a : Address) (s : Statement), program[a.toNat]? = some s →
        Instruction.split m.bounds.ramSize ((load m source).1.get a) =
          ⟨.known s.op, s.operand⟩) ∧ program.length ≤ m.bounds.ramSize.toNat := by
  obtain ⟨all, rfl⟩ := (load_eq_ok_iff h).mp taken
  obtain ⟨program, spelled, split⟩ := written_of_accepted all
  have short := accepted_length_le_size m.bounds (Text.lines source.toList)
  rw [split.length_eq] at short
  refine ⟨program, ⟨_, Text.lines_eq_iff.mp rfl, spelled⟩, spelled.length_eq.symm, ?_, short⟩
  intro a s stands
  obtain ⟨before, rfl⟩ := List.getElem?_eq_some_iff.mp stands
  have word := split.length_eq ▸ before
  have cell := getElem?_loadLines h (Text.lines source.toList) a.toNat
  rw [List.getElem?_eq_getElem word, Option.some_or] at cell
  rw [load, Memory.get, cell]
  exact split.get word before

end Assembly

namespace Program

variable {program : Program} {m : Ideal.Machine}

def HeldBy (program : Program) (m : Ideal.Machine) : Prop :=
  m.status = .running → m.ip < m.ramSize → ∃ s, program[m.ip]? = some s ∧
    Ideal.mnemonic? (m.cell m.ip / m.ramSize) = some s.op ∧
    m.cell m.ip % m.ramSize = s.operand.toNat

theorem idealStep_eq_of_held (held : program.HeldBy m) : program.idealStep m = m.step := by
  rw [idealStep, Ideal.Machine.step]
  cases status : m.status with
  | halted | failed => rfl
  | running =>
    by_cases out : m.ramSize ≤ m.ip
    · simp only [if_pos out]
    · obtain ⟨s, stands, named, operand⟩ := held status (Nat.not_le.mp out)
      cases reached : m.limit.filter (· ≤ m.operations + 1) with
      | some l => simp only [if_neg out, stands, reached]
      | none => simp only [if_neg out, stands, reached, Ideal.Machine.obey, named, operand]

theorem idealRun_eq_of_held {k : Nat} (held : ∀ j < k, program.HeldBy (m.later j)) :
    m.answers k = program.idealAnswers k m ∧ m.later k = program.idealLater k m := by
  induction k generalizing m with
  | zero => exact ⟨rfl, rfl⟩
  | succ k ih =>
    have first : program.idealStep m = m.step := idealStep_eq_of_held (held 0 (Nat.succ_pos k))
    obtain ⟨answered, ended⟩ := ih (m := m.step.1) fun j lt => held (j + 1) (Nat.succ_lt_succ lt)
    rw [Ideal.Machine.answers, idealAnswers, first, answered]
    refine ⟨rfl, ?_⟩
    rw [idealLater, Function.iterate_succ_apply, first]
    exact ended

end Program

namespace Execution

variable {e : Execution} {b : Bounds} {s : Statement}

theorem performs (sound : e.machine.Sound b) (running : e.status = .running)
    (here : e.machine.ip < e.machine.bounds.ramSize)
    (held : e.machine.instruction = ⟨.known s.op, s.operand⟩) : Performs e s := by
  have opcode : e.machine.instruction.opcode = .known s.op := congrArg (·.opcode) held
  have operand : e.machine.instruction.operand = s.operand := congrArg (·.operand) held
  have move := Move.of_sound sound running
  generalize stepped : e.step = r at move
  cases move with
  | outside out => exact absurd out (UInt64.not_le.mpr here)
  | cut _ l reached => exact .exceeded l (Option.filter_eq_some_iff.mp reached).1 stepped
  | illegal _ _ n unnamed => simp [opcode] at unnamed
  | halt _ _ named => exact .halts (Opcode.known.inj (opcode.symm.trans named)) stepped
  | act _ _ op named f does =>
    obtain rfl : s.op = op := Opcode.known.inj (opcode.symm.trans named)
    have inside := e.machine.operand_lt here
    rw [operand] at does inside
    obtain ⟨op, shown⟩ := Machine.effect?_says does
    have executed := Machine.exec_of_effect sound.wellFormed sound.acc_le_bounds inside does
    refine .acts f op shown (by rw [stepped]) ?_ fun small => ?_
    · rw [executed, after, stepped]
    · have near : e.machine.ip.toNat + 2 < 2 ^ 64 := by
        have hereNat := UInt64.lt_iff_toNat_lt.mp here
        omega
      rw [after, stepped]
      exact exact_apply (e := e.counted) sound near does

theorem step_eq_of_held {program : Program} (sound : e.machine.Sound b)
    (held : e.fetching = true → ∃ s, program[e.machine.ip.toNat]? = some s ∧
      e.machine.instruction = ⟨.known s.op, s.operand⟩) : program.step e = e.step := by
  rcases e.running_or_stopped with running | ended
  · have going := not_stopped_iff.mpr running
    have move := Move.of_sound sound running
    rw [Program.step, going, if_neg Bool.false_ne_true]
    by_cases out : e.machine.bounds.ramSize ≤ e.machine.ip
    · rw [if_pos out]
      exact (Move.outside out).unique move
    · have here := UInt64.not_le.mp out
      obtain ⟨s, stands, code⟩ := held (fetching_iff.mpr ⟨running, here⟩)
      simp only [if_neg out, stands]
      cases reached : reachedLimit? e.limit (e.operations + 1) with
      | some l => exact (Move.cut here l reached).unique move
      | none =>
        have performed : e.machine.perform e.machine.instruction =
            e.machine.exec s.op s.operand := by
          rw [code, Machine.perform]
        exact (step_of_fetch sound.wellFormed running here reached performed).symm
  · rw [Program.step, if_pos ended, step_of_stopped ended]

theorem exact_heldBy {program : Program}
    (held : e.fetching = true → ∃ s, program[e.machine.ip.toNat]? = some s ∧
      e.machine.instruction = ⟨.known s.op, s.operand⟩) : program.HeldBy e.exact := by
  intro running here
  have fetching : e.fetching = true := by
    refine fetching_iff.mpr ⟨?_, UInt64.lt_iff_toNat_lt.mpr here⟩
    cases status : e.status with
    | running => rfl
    | halted | failed => simp [exact, status, Status.exact] at running
  obtain ⟨s, stands, code⟩ := held fetching
  have cell : e.exact.cell e.exact.ip = _ := e.exact_cell e.machine.ip
  have operand := Instruction.exact_operand e.machine.bounds.ramSize
    (e.machine.memory.get e.machine.ip)
  rw [cell]
  exact ⟨s, stands, Instruction.mnemonic_of_known (congrArg (·.opcode) code),
    operand.symm.trans (congrArg (·.operand.toNat) code)⟩

theorem run_eq_of_held {program : Program} (sound : e.machine.Sound b) {k : Nat}
    (held : ∀ j < k, (e.later j).fetching = true → ∃ s,
      program[(e.later j).machine.ip.toNat]? = some s ∧
        (e.later j).machine.instruction = ⟨.known s.op, s.operand⟩) :
    e.answers k = program.answers k e ∧ e.later k = program.later k e := by
  induction k generalizing e with
  | zero => exact ⟨rfl, rfl⟩
  | succ k ih =>
    have first : program.step e = e.step := step_eq_of_held sound (held 0 (Nat.succ_pos k))
    obtain ⟨answered, ended⟩ := ih (after_sound sound)
      fun j lt => held (j + 1) (Nat.succ_lt_succ lt)
    rw [answers, Program.answers, first, answered]
    refine ⟨rfl, ?_⟩
    rw [Program.later, Function.iterate_succ_apply, first]
    exact ended

section

variable {m : Memory} (h : m.WellFormed) {program : Program}
  (placed : ∀ (a : Address) (s : Statement), program[a.toNat]? = some s →
    Instruction.split m.bounds.ramSize (m.get a) = ⟨.known s.op, s.operand⟩)
  (edits : List Edit) (limit : Option UInt64)
include h placed

theorem held_of_intact (k : Nat) {a : Address} (stands : program[a.toNat]? = some s)
    (intact : Intact m.bounds edits ((start (m.editedAll edits) limit).records k) a)
    (here : ((start (m.editedAll edits) limit).later k).machine.ip = a) :
    ((start (m.editedAll edits) limit).later k).machine.instruction = ⟨.known s.op, s.operand⟩ := by
  obtain ⟨same, wellFormed⟩ := Memory.editedAll_wellFormed h edits
  have log := logged_later wellFormed limit k
  have bounds := (later_sound (start_sound wellFormed limit) k).bounds_eq
  have kept : ((start (m.editedAll edits) limit).later k).machine.memory.get a = m.get a := by
    rw [log.machine_eq, Machine.get_replayed intact.operations]
    exact Memory.get_editedAll h intact.calls
  rw [Machine.instruction, here, kept, bounds, same]
  exact placed a s stands

theorem held_of_fetchesIntact {k : Nat}
    (intact : FetchesIntact (m.editedAll edits) edits limit program k) :
    ∀ j < k, ((start (m.editedAll edits) limit).later j).fetching = true → ∃ s,
      program[((start (m.editedAll edits) limit).later j).machine.ip.toNat]? = some s ∧
        ((start (m.editedAll edits) limit).later j).machine.instruction =
          ⟨.known s.op, s.operand⟩ := by
  intro j lt fetch
  obtain ⟨within, whole⟩ := intact j lt _ rfl fetch
  rw [(Memory.editedAll_wellFormed h edits).1] at whole
  have stands := List.getElem?_eq_getElem within
  exact ⟨_, stands, held_of_intact h placed edits limit j stands whole rfl⟩

theorem follows_of_placed (short : program.length ≤ m.bounds.ramSize.toNat) :
    Follows (m.editedAll edits) edits limit program := by
  obtain ⟨same, wellFormed⟩ := Memory.editedAll_wellFormed h edits
  have sound := start_sound wellFormed limit
  constructor
  case step =>
    rintro k e s rfl running stands intact
    rw [same] at intact
    have within := (List.getElem?_eq_some_iff.mp stands).1
    refine performs (later_sound sound k) running ?_
      (held_of_intact h placed edits limit k stands intact rfl)
    rw [(later_sound sound k).bounds_eq, same, UInt64.lt_iff_toNat_lt]
    omega
  case run =>
    intro k intact
    exact run_eq_of_held sound (held_of_fetchesIntact h placed edits limit intact)
  case ideal =>
    intro small k countable intact
    have held := held_of_fetchesIntact h placed edits limit intact
    have exactly := fun j (le : j ≤ k) =>
      exact_run sound small j (by rw [start]; simpa using Nat.lt_of_le_of_lt le countable)
    have heldBy : ∀ j < k, program.HeldBy ((start (m.editedAll edits) limit).exact.later j) := by
      intro j lt
      rw [← (exactly j (Nat.le_of_lt lt)).2]
      exact exact_heldBy (held j lt)
    rw [(exactly k (Nat.le_refl k)).1, (exactly k (Nat.le_refl k)).2]
    exact Program.idealRun_eq_of_held heldBy

end

/-- A program that is assembled into a memory runs as it is written, until something overwrites its
cells: calls between loading and running, or the program itself. -/
theorem assembled_runs_as_written {m : Memory} (h : m.WellFormed) {source : String} {n : Nat}
    (taken : (Assembly.load m source).2 = .ok n) (edits : List Edit) (limit : Option UInt64) :
    (∃ program : Program, Written source program ∧ program.length = n) ∧
      ∀ program : Program, Written source program →
        Follows ((Assembly.load m source).1.editedAll edits) edits limit program := by
  obtain ⟨program, written, length, placed, short⟩ := Assembly.load_written h taken
  obtain ⟨bounds, loaded⟩ := Assembly.loadLines_wellFormed h 0 (Text.lines source.toList)
  rw [← bounds] at placed short
  refine ⟨⟨program, written, length⟩, fun other written' => ?_⟩
  rw [written'.unique written]
  exact follows_of_placed loaded placed edits limit short

theorem assembled_runs_as_written_at_increment :
    let m := Memory.zeroed ⟨10, 199⟩
    let program : Program := [⟨.inc, 1⟩, ⟨.hlt, 0⟩]
    m.WellFormed ∧ (Assembly.load m "INC 1\nHLT 0").2 = .ok 2 ∧ Written "INC 1\nHLT 0" program ∧
      Follows ((Assembly.load m "INC 1\nHLT 0").1.editedAll [.setCell 5 7]) [.setCell 5 7] none
        program := by
  intro m program
  have wellFormed := Memory.zeroed_wellFormed ⟨10, 199⟩
  have taken : (Assembly.load m "INC 1\nHLT 0").2 = .ok 2 :=
    (Assembly.load_eq_ok_iff wellFormed).mpr (by decide)
  have inc : Assembly.Spells "INC 1".toList .inc 1 := Assembly.spells_iff.mpr
    ⟨"1".toList, Text.words_eq_pair_iff.mp (by decide), .plain (by decide)⟩
  have hlt : Assembly.Spells "HLT 0".toList .hlt 0 := Assembly.spells_iff.mpr
    ⟨"0".toList, Text.words_eq_pair_iff.mp (by decide), .plain (by decide)⟩
  have written : Written "INC 1\nHLT 0" program :=
    ⟨["INC 1".toList, "HLT 0".toList], Text.lines_eq_iff.mp (by decide),
      .cons inc (.cons hlt .nil)⟩
  exact ⟨wellFormed, taken, written,
    (assembled_runs_as_written wellFormed taken [.setCell 5 7] none).2 program written⟩

end Execution
end AccMachine

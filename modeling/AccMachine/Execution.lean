import AccMachine.Machine
import AccMachine.Text.Writing

/-!
Running a machine: fetches are counted and may be limited, every executed instruction leaves a
record, and a machine that has stopped does not change any more. Its steps are repeated until it
stops, and more often than it has states.
-/
namespace AccMachine

namespace Iteration

variable {α : Type}

@[specialize] def burst (step : α → α) (stopped : α → Bool) : (k : Nat) → α → α
  | 0, a => step a
  | k + 1, a =>
    let b := burst step stopped k a
    if stopped b then b else burst step stopped k b

@[specialize] def bursts (step : α → α) (stopped : α → Bool) : (rounds k : Nat) → α → α
  | 0, _, a => a
  | rounds + 1, k, a =>
    let b := burst step stopped k a
    if stopped b then b else bursts step stopped rounds (k + 1) b

/-- Repeats `step` until `stopped` holds, but at most `1 <<< bits - 1` times. -/
@[specialize] def exhaust (step : α → α) (stopped : α → Bool) (bits : Nat) (a : α) : α :=
  bursts step stopped bits 0 a

end Iteration

structure Trace where
  address : Address
  operation : UInt64
  effect : Effect
  deriving DecidableEq, Repr, Inhabited

def Trace.line (t : Trace) : String :=
  s!"[{Text.rightAligned 3 t.address.toNat}] {t.effect.line}"

inductive Status where
  | running
  | halted
  | failed (f : Fault)
  deriving DecidableEq, Repr, Inhabited

/-- How a halted machine was left; the pointer stays on the halting instruction, and its fetch is
counted. -/
structure Outcome where
  operations : UInt64
  accumulator : Word
  instructionPointer : Address
  deriving DecidableEq, Repr, Inhabited

structure Execution where
  machine : Machine
  limit : Option UInt64
  operations : UInt64 := 0
  status : Status := .running
  deriving DecidableEq, Repr, Inhabited

namespace Execution

def start (memory : Memory) (limit : Option UInt64) : Execution :=
  { machine := { memory }, limit }

def stopped (e : Execution) : Bool :=
  match e.status with
  | .running => false
  | _ => true

def outcome (e : Execution) : Outcome := ⟨e.operations, e.machine.acc, e.machine.ip⟩

def result? (e : Execution) : Option (Except Fault Outcome) :=
  match e.status with
  | .running => none
  | .halted => some (.ok e.outcome)
  | .failed f => some (.error f)

def reachedLimit? (limit : Option UInt64) (operations : UInt64) : Option UInt64 :=
  limit.filter (· ≤ operations)

/-- One fetch and the operation it fetches. The limit is looked at after the fetch is counted and
before the operation takes effect. -/
@[inline] def cycle (e : Execution) : Execution × Reaction :=
  if e.machine.bounds.ramSize ≤ e.machine.ip then
    let ip := e.machine.ip.toInt64
    (e, .fault (.outOfBounds "instruction pointer" ip e.machine.bounds.ramSize))
  else match e.machine.memory.read e.machine.ip with
    | .error f => (e, .fault f)
    | .ok code =>
      let e := { e with operations := e.operations + 1 }
      match reachedLimit? e.limit e.operations with
      | some l => (e, .fault (.operationLimitExceeded l))
      | none => match Instruction.decode e.machine.bounds (Word.signed code) with
        | .error f => (e, .fault f)
        | .ok i =>
          let ⟨machine, limit, operations, status⟩ := e
          let (machine, r) := machine.perform i
          (⟨machine, limit, operations, status⟩, r)

def step (e : Execution) : Execution × Option (Except Fault Trace) :=
  match e.status with
  | .running =>
    let address := e.machine.ip
    match e.cycle with
    | (e, .did effect) => (e, some (.ok ⟨address, e.operations, effect⟩))
    | (e, .halt) => ({ e with status := .halted }, none)
    | (e, .fault f) => ({ e with status := .failed f }, some (.error f))
  | _ => (e, none)

/-- More than the binary digits of any instruction pointer, accumulator and cells taken together:
an execution that is still going after as many steps has been in one state twice. -/
def stateBits (e : Execution) : Nat := 64 + 32 * (e.machine.memory.size + 2)

def after (e : Execution) : Execution := e.step.1

/-- Runs to the end. An execution that is still going afterwards never ends. -/
def run (e : Execution) : Execution :=
  if e.stopped then e else Iteration.exhaust after stopped e.stateBits e

def stepWith (visit : σ → Trace → σ) : σ × Execution → σ × Execution
  | (s, e) => match e.step with
    | (e, some (.ok t)) => (visit s t, e)
    | (e, _) => (s, e)

def runWith (visit : σ → Trace → σ) (s : σ) (e : Execution) : σ × Execution :=
  if e.stopped then (s, e)
  else Iteration.exhaust (stepWith visit) (fun p => p.2.stopped) e.stateBits (s, e)

theorem step_of_stopped {e : Execution} (h : e.stopped = true) : e.step = (e, none) := by
  unfold stopped at h
  unfold step
  split <;> simp_all

theorem after_of_stopped (e : Execution) (h : e.stopped = true) : e.after = e := by
  rw [after, step_of_stopped h]

theorem stepWith_of_stopped (visit : σ → Trace → σ) (p : σ × Execution)
    (h : p.2.stopped = true) : stepWith visit p = p := by
  obtain ⟨s, e⟩ := p
  rw [stepWith, step_of_stopped h]

end Execution

def execute (memory : Memory) (limit : Option UInt64) : Execution :=
  (Execution.start memory limit).run

def executeWith (visit : σ → Trace → σ) (s : σ) (memory : Memory) (limit : Option UInt64) :
    σ × Execution :=
  (Execution.start memory limit).runWith visit s

end AccMachine

import AccMachine.Proofs.Fetches

/-!
The ways a run can fail. Of the faults that the checks on its way could raise only three are left,
and the step that fails changes neither the cells nor the accumulator nor the pointer.
-/
namespace AccMachine

theorem Instruction.unnamed_parts {ramSize : Address} {code n : Word}
    (unnamed : (split ramSize code).opcode = .unknown n) :
    11 ≤ n.toNat ∧
      n.toNat * ramSize.toNat + (split ramSize code).operand.toNat = code.toNat := by
  obtain ⟨rfl, missing⟩ := Opcode.ofNumber_unknown unnamed
  refine ⟨List.getElem?_eq_none_iff.mp missing, ?_⟩
  rw [exact_number, exact_operand, Nat.mul_comm]
  exact Nat.div_add_mod _ _

namespace Execution

inductive Reached (m : Memory) (limit : Option UInt64) : Execution → Prop where
  | start : Reached m limit (start m limit)
  | step {e : Execution} (h : Reached m limit e) : Reached m limit e.after
  | run {e : Execution} (h : Reached m limit e) : Reached m limit e.run

/-- The faults that end a run, with what each says of the execution it leaves. -/
inductive FailsWith (b : Bounds) (limit : Option UInt64) (e : Execution) : Fault → Prop where
  | past (address : Int64) (here : address.toInt = e.machine.ip.toNat)
      (near : e.machine.ip.toNat = b.ramSize.toNat ∨ e.machine.ip.toNat = b.ramSize.toNat + 1) :
      FailsWith b limit e (.outOfBounds "instruction pointer" address b.ramSize)
  | illegal (n code : Word) (operand : Address) (unnamed : 11 ≤ n.toNat)
      (lt : operand < b.ramSize) (here : e.machine.ip < b.ramSize)
      (held : e.machine.memory.read e.machine.ip = .ok code)
      (parts : n.toNat * b.ramSize.toNat + operand.toNat = code.toNat) :
      FailsWith b limit e (.illegalInstruction (.unknown n) operand e.machine.ip)
  | exceeded (l : UInt64) (given : limit = some l) :
      FailsWith b limit e (.operationLimitExceeded l)

theorem reached_later {m : Memory} {limit : Option UInt64} {e : Execution}
    (reached : Reached m limit e) : ∃ n, e = (start m limit).later n := by
  induction reached with
  | start => exact ⟨0, rfl⟩
  | step _ ih =>
    obtain ⟨n, rfl⟩ := ih
    exact ⟨n + 1, (later_succ n _).symm⟩
  | run _ ih =>
    obtain ⟨n, rfl⟩ := ih
    rw [run_eq_last, ← later_add]
    exact ⟨_, rfl⟩

theorem limit_of_reached {limit : Option UInt64} {n l : UInt64}
    (reached : reachedLimit? limit n = some l) : limit = some l :=
  (Option.filter_eq_some_iff.mp reached).1

theorem Move.fails {e : Execution} {b : Bounds} (sound : e.machine.Sound b)
    (small : b.ramSize.toNat ≤ 2 ^ 61) (running : e.status = .running)
    {r : Execution × Option (Except Fault Trace)} (move : e.Move r) {f : Fault}
    (failed : r.1.status = .failed f) :
    FailsWith b e.limit r.1 f ∧ r.2 = some (.error f) ∧ r.1.machine = e.machine := by
  have bounds := sound.bounds_eq
  cases move with
  | outside out =>
    obtain rfl := Status.failed.inj failed
    have near := sound.past out
    rw [bounds]
    exact ⟨.past _ (toInt_toInt64 (by omega)) near, rfl, rfl⟩
  | cut here l reached =>
    obtain rfl := Status.failed.inj failed
    exact ⟨.exceeded l (limit_of_reached reached), rfl, rfl⟩
  | illegal here free n unnamed =>
    obtain rfl := Status.failed.inj failed
    obtain ⟨large, parts⟩ := Instruction.unnamed_parts unnamed
    have held := Memory.read_inside sound.wellFormed here
    have lt := e.machine.operand_lt here
    rw [bounds] at here lt
    rw [← Machine.instruction, bounds] at parts
    exact ⟨.illegal n _ _ large lt here held parts, rfl, rfl⟩
  | halt => cases failed
  | act =>
    have kept : e.status = .failed f := failed
    rw [running] at kept
    cases kept

theorem FailsWith.pointer {b : Bounds} {limit : Option UInt64} {e : Execution} {what : String}
    {address : Int64} {ramSize : Address}
    (fails : FailsWith b limit e (.outOfBounds what address ramSize)) :
    what = "instruction pointer" := by
  cases fails
  rfl

theorem FailsWith.illegal_needs_room {b : Bounds} {limit : Option UInt64} {e : Execution}
    (sound : e.machine.Sound b) {opcode : Opcode} {operand address : Address}
    (fails : FailsWith b limit e (.illegalInstruction opcode operand address)) :
    11 * b.ramSize.toNat ≤ b.maxValue.toNat := by
  cases fails with
  | illegal n code _ unnamed _ here held parts =>
    rw [← sound.bounds_eq] at here
    rw [Memory.read_inside sound.wellFormed here] at held
    have le := sound.get_le e.machine.ip
    rw [Except.ok.inj held, UInt32.le_iff_toNat_le, ← parts] at le
    have wide := Nat.mul_le_mul_right b.ramSize.toNat unnamed
    omega

/-- A failed run has left whole operations and then a step without effect. Nothing is out of range
but the pointer, and every other fault is a code without a name or the limit that was given. -/
theorem failures_classified {m : Memory} (h : m.WellFormed)
    (small : m.bounds.ramSize.toNat ≤ 2 ^ 61) (limit : Option UInt64) {e : Execution}
    (reached : Reached m limit e) {f : Fault} (failed : e.status = .failed f) :
    FailsWith m.bounds limit e f ∧
      (∀ what value maxValue, f ≠ .valueOutOfRange what value maxValue) ∧
      (∀ address ramSize, f ≠ .outOfBounds "cell id" address ramSize) ∧
      (m.bounds.maxValue.toNat < 11 * m.bounds.ramSize.toNat →
        ∀ opcode operand address, f ≠ .illegalInstruction opcode operand address) ∧
      ∃ (k : Nat) (ts : List Trace), ts.length = k ∧ e = (start m limit).later (k + 1) ∧
        ((start m limit).later k).status = .running ∧
        (start m limit).answers (k + 1) = ts.map (fun t => some (.ok t)) ++ [some (.error f)] ∧
        e.machine = ((start m limit).later k).machine := by
  obtain ⟨n, rfl⟩ := reached_later reached
  have ended : ((start m limit).later n).stopped = true := by rw [stopped, failed]
  obtain ⟨k, -, going, same⟩ := stops_at rfl ended
  have sound := later_sound (start_sound h limit) k
  have given := later_limit (start_sound h limit) k
  have running := not_stopped_iff.mp going
  obtain ⟨-, ts, length, records⟩ := records_of_running (start_sound h limit) going
  rw [same, later_succ, after] at failed
  obtain ⟨fails, answered, unchanged⟩ :=
    Move.fails sound small running (Move.of_sound sound running) failed
  have limits := later_sound (start_sound h limit) (k + 1)
  rw [given, ← after, ← later_succ] at fails
  rw [← after, ← later_succ] at unchanged
  rw [same]
  refine ⟨fails, ?_, ?_, ?_, k, ts, length, rfl, running, ?_, unchanged⟩
  · rintro what value maxValue rfl
    cases fails
  · rintro address ramSize rfl
    exact absurd fails.pointer (by decide)
  · rintro low opcode operand address rfl
    have room := FailsWith.illegal_needs_room limits fails
    omega
  · rw [answers_succ, records, answered]

theorem failures_classified_at_unnamed :
    let m : Memory := ⟨⟨2, 99⟩, #[25, 0]⟩
    let e := (start m none).after
    m.WellFormed ∧ m.bounds.ramSize.toNat ≤ 2 ^ 61 ∧ Reached m none e ∧
      e.status = .failed (.illegalInstruction (.unknown 12) 1 0) ∧
      FailsWith m.bounds none e (.illegalInstruction (.unknown 12) 1 0) := by
  intro m e
  have wellFormed : m.WellFormed := ⟨rfl, by simp [m]⟩
  have two : m.bounds.ramSize.toNat = 2 := rfl
  have small : m.bounds.ramSize.toNat ≤ 2 ^ 61 := by omega
  have reached : Reached m none e := .step .start
  have failed : e.status = .failed (.illegalInstruction (.unknown 12) 1 0) := by decide
  exact ⟨wellFormed, small, reached, failed,
    (failures_classified wellFormed small none reached failed).1⟩

end Execution
end AccMachine

import AccMachine.Proofs.Endless
import AccMachine.Proofs.Exactness

/-!
The largest value, and what a run notices of it. Sums above it are cut back, and nothing else tells
it from a larger one: a run in which no sum is cut back takes the same course under a larger one.
-/
namespace AccMachine

def Bounds.upTo (b : Bounds) (top : Word) : Bounds := { b with maxValue := top }

def Memory.upTo (m : Memory) (top : Word) : Memory := { m with bounds := m.bounds.upTo top }

def Machine.upTo (m : Machine) (top : Word) : Machine := { m with memory := m.memory.upTo top }

def Execution.upTo (e : Execution) (top : Word) : Execution :=
  { e with machine := e.machine.upTo top }

/-- No sum above the largest value: `m` is the machine before the operation. -/
def Effect.Uncut (m : Machine) : Effect → Prop
  | .add _ addend _ => m.acc.toNat + addend.toNat ≤ m.bounds.maxValue.toNat
  | .inc cell _ => (m.memory.get cell).toNat + 1 ≤ m.bounds.maxValue.toNat
  | _ => True

def Execution.Uncut (e : Execution) (k : Nat) : Prop :=
  ∀ j < k, ∀ t, (e.later j).step.2 = some (.ok t) → t.effect.Uncut (e.later j).machine

variable {top : Word}

namespace Bounds

variable {b : Bounds} (le : b.maxValue ≤ top)
include le

theorem saturate_upTo {v : Int64} (uncut : v.toInt ≤ b.maxValue.toNat) :
    (b.upTo top).saturate v = b.saturate v := by
  have exact := b.toNat_saturate v
  have exact' := (b.upTo top).toNat_saturate v
  have higher : b.maxValue.toNat ≤ (b.upTo top).maxValue.toNat := UInt32.le_iff_toNat_le.mp le
  rw [← UInt32.toNat_inj]
  omega

theorem saturate_add_upTo {x y : Word} (uncut : x.toNat + y.toNat ≤ b.maxValue.toNat) :
    (b.upTo top).saturate (Word.signed x + Word.signed y) =
      b.saturate (Word.signed x + Word.signed y) := by
  apply saturate_upTo le
  have hx := x.toNat_lt
  have hy := y.toNat_lt
  rw [toInt_add_small] <;> rw [Word.toInt_signed, Word.toInt_signed] <;> omega

theorem saturate_sub_upTo {x : Word} (small : x ≤ b.maxValue) (y : Word) :
    (b.upTo top).saturate (Word.signed x - Word.signed y) =
      b.saturate (Word.signed x - Word.signed y) := by
  apply saturate_upTo le
  have hx := x.toNat_lt
  have hy := y.toNat_lt
  rw [UInt32.le_iff_toNat_le] at small
  rw [toInt_sub_small] <;> rw [Word.toInt_signed, Word.toInt_signed] <;> omega

end Bounds

theorem Memory.upTo_wellFormed {m : Memory} (h : m.WellFormed) (le : m.bounds.maxValue ≤ top) :
    (m.upTo top).WellFormed :=
  ⟨h.1, fun v member => UInt32.le_trans (h.2 v member) le⟩

namespace Machine

theorem Sound.upTo {b : Bounds} {m : Machine} (h : m.Sound b) (le : b.maxValue ≤ top) :
    (m.upTo top).Sound (b.upTo top) := by
  obtain ⟨rfl, wellFormed, acc_le, ip_le⟩ := h
  exact ⟨rfl, Memory.upTo_wellFormed wellFormed le, UInt32.le_trans acc_le le, ip_le⟩

theorem effect?_upTo {m : Machine} (h : m.Sound m.bounds) (le : m.bounds.maxValue ≤ top)
    {op : Mnemonic} {cell : Address} {f : Effect} (does : m.effect? op cell = some f)
    (uncut : f.Uncut m) : (m.upTo top).effect? op cell = some f := by
  cases op with
  | noop | take | save | jmp | tst | null | hlt => exact does
  | add =>
    obtain rfl := Option.some.inj does
    have same := Bounds.saturate_add_upTo le uncut
    exact congrArg (fun acc => some (Effect.add cell (m.memory.get cell) acc)) same
  | inc =>
    obtain rfl := Option.some.inj does
    have same := Bounds.saturate_add_upTo (y := 1) le uncut
    exact congrArg (fun acc => some (Effect.inc cell acc)) same
  | sub =>
    obtain rfl := Option.some.inj does
    have same := Bounds.saturate_sub_upTo le h.acc_le (m.memory.get cell)
    exact congrArg (fun acc => some (Effect.sub cell (m.memory.get cell) acc)) same
  | dec =>
    obtain rfl := Option.some.inj does
    have same := Bounds.saturate_sub_upTo le (h.get_le cell) 1
    exact congrArg (fun acc => some (Effect.dec cell acc)) same

theorem replay_upTo (f : Effect) (m : Machine) : f.replay (m.upTo top) = (f.replay m).upTo top := by
  cases f <;> rfl

end Machine

namespace Execution

variable {e : Execution} {b : Bounds}

theorem Move.upTo (sound : e.machine.Sound b) (le : b.maxValue ≤ top)
    {r : Execution × Option (Except Fault Trace)} (move : e.Move r)
    (uncut : ∀ t, r.2 = some (.ok t) → t.effect.Uncut e.machine) :
    (e.upTo top).Move (r.1.upTo top, r.2) := by
  obtain rfl := sound.bounds_eq
  cases move with
  | outside out => exact Move.outside (e := e.upTo top) out
  | cut here l reached => exact Move.cut (e := e.upTo top) here l reached
  | illegal here free n unnamed => exact Move.illegal (e := e.upTo top) here free n unnamed
  | halt here free named => exact Move.halt (e := e.upTo top) here free named
  | act here free op named f does =>
    have does := Machine.effect?_upTo sound le does (uncut _ rfl)
    have acts := Move.act (e := e.upTo top) here free op named f does
    rw [show (e.upTo top).machine = e.machine.upTo top from rfl, Machine.replay_upTo] at acts
    exact acts

theorem step_upTo (sound : e.machine.Sound b) (le : b.maxValue ≤ top)
    (uncut : ∀ t, e.step.2 = some (.ok t) → t.effect.Uncut e.machine) :
    (e.upTo top).step = (e.after.upTo top, e.step.2) := by
  rcases e.running_or_stopped with running | ended
  · have higher : (e.upTo top).machine.Sound (b.upTo top) := sound.upTo le
    apply (Move.of_sound higher running).unique
    exact (Move.of_sound sound running).upTo sound le uncut
  · rw [after_of_stopped e ended, step_of_stopped ended]
    exact step_of_stopped (e := e.upTo top) ended

theorem later_upTo (sound : e.machine.Sound b) (le : b.maxValue ≤ top) {k : Nat}
    (uncut : e.Uncut k) :
    (e.upTo top).answers k = e.answers k ∧ (e.upTo top).later k = (e.later k).upTo top := by
  induction k with
  | zero => exact ⟨rfl, rfl⟩
  | succ k ih =>
    obtain ⟨answered, same⟩ := ih fun j lt => uncut j (Nat.lt_succ_of_lt lt)
    have step := step_upTo (later_sound sound k) le (uncut k (Nat.lt_succ_self k))
    rw [answers_succ, answers_succ, answered, later_succ, later_succ, same, after, step]
    exact ⟨rfl, rfl⟩

/-- The largest value matters only where it cuts a sum back. Up to the first such sum, a run over
the same cells under a larger one gives the same answers and leaves the same state. -/
theorem larger_limit_unnoticed {m : Memory} (h : m.WellFormed) {top : Word}
    (le : m.bounds.maxValue ≤ top) (limit : Option UInt64) {k : Nat}
    (uncut : (start m limit).Uncut k) :
    (m.upTo top).WellFormed ∧
      (start (m.upTo top) limit).answers k = (start m limit).answers k ∧
      ((start (m.upTo top) limit).later k).machine.SameState ((start m limit).later k).machine ∧
      ((start (m.upTo top) limit).later k).operations = ((start m limit).later k).operations ∧
      ((start (m.upTo top) limit).later k).status = ((start m limit).later k).status := by
  obtain ⟨answered, same⟩ := later_upTo (start_sound h limit) le uncut
  rw [show start (m.upTo top) limit = (start m limit).upTo top from rfl, same]
  exact ⟨Memory.upTo_wellFormed h le, answered, ⟨rfl, rfl, rfl⟩, rfl, rfl⟩

theorem larger_limit_unnoticed_at_unnamed :
    let m : Memory := ⟨⟨6, 70⟩, #[43, 65, 0, 0, 0, 0]⟩
    m.WellFormed ∧ m.bounds.maxValue ≤ 0xFFFFFFFF ∧ (start m none).Uncut 2 ∧
      (start (m.upTo 0xFFFFFFFF) none).answers 2 =
        [some (.ok ⟨0, 1, .inc 1 66⟩), some (.error (.illegalInstruction (.unknown 11) 0 1))] := by
  intro m
  have wellFormed : m.WellFormed := ⟨rfl, by simp [m]⟩
  have le : m.bounds.maxValue ≤ 0xFFFFFFFF := by decide
  have first : (start m none).step.2 = some (.ok ⟨0, 1, .inc 1 66⟩) := by decide
  have second : (start m none).after.step.2 =
      some (.error (.illegalInstruction (.unknown 11) 0 1)) := by decide
  have uncut : (start m none).Uncut 2 := by
    intro j lt t left
    obtain rfl | rfl : j = 0 ∨ j = 1 := by omega
    · obtain rfl := Except.ok.inj (Option.some.inj (first.symm.trans left))
      have room : (65 : Nat) + 1 ≤ 70 := by decide
      exact room
    · cases second.symm.trans left
  refine ⟨wellFormed, le, uncut, ?_⟩
  rw [(larger_limit_unnoticed wellFormed le none uncut).2.1]
  simp only [answers, first, second]

end Execution
end AccMachine

import AccMachine.Assembly
import AccMachine.Proofs.Moves
import AccMachine.Proofs.Runs

/-!
The limits of a machine hold throughout. Cells and accumulator support each other: a cell is
written from the accumulator, and the accumulator is read from cells or cut back to the limits.
-/
namespace AccMachine

/-- A machine within the limits `b`. Its pointer may have run past the cells, by two at most. -/
structure Machine.Sound (b : Bounds) (m : Machine) : Prop where
  bounds_eq : m.bounds = b
  wellFormed : m.memory.WellFormed
  acc_le : m.acc ≤ b.maxValue
  ip_le : m.ip.toNat ≤ b.ramSize.toNat + 1

namespace Machine.Sound

variable {b : Bounds} {m : Machine}

theorem fresh {memory : Memory} (h : memory.WellFormed) :
    Machine.Sound memory.bounds { memory } :=
  ⟨rfl, h, UInt32.zero_le, Nat.zero_le _⟩

theorem acc_le_bounds (h : m.Sound b) : m.acc ≤ m.bounds.maxValue := by
  rw [h.bounds_eq]
  exact h.acc_le

theorem get_le (h : m.Sound b) (cell : Address) : m.memory.get cell ≤ b.maxValue := by
  rw [← h.bounds_eq]
  exact Memory.get_le h.wellFormed cell

theorem saturate_le (h : m.Sound b) (v : Int64) : m.bounds.saturate v ≤ b.maxValue := by
  rw [h.bounds_eq]
  exact b.saturate_le v

theorem set_acc (h : m.Sound b) {v : Word} (small : v ≤ b.maxValue) :
    Machine.Sound b { m with acc := v } :=
  { h with acc_le := small }

theorem put (h : m.Sound b) (cell : Address) {v : Word} (small : v ≤ b.maxValue) :
    Machine.Sound b { m with memory := m.memory.put cell v } := by
  have stored : (m.memory.put cell v).WellFormed := by
    apply Memory.put_wellFormed h.wellFormed
    rw [show m.memory.bounds = b from h.bounds_eq]
    exact small
  exact ⟨h.bounds_eq, stored, h.acc_le, h.ip_le⟩

theorem jump (h : m.Sound b) {target : Address} (lt : target < b.ramSize) :
    Machine.Sound b { m with ip := target } := by
  have near := UInt64.lt_iff_toNat_lt.mp lt
  have ip_le : target.toNat ≤ b.ramSize.toNat + 1 := by omega
  exact { h with ip_le }

theorem advance (h : m.Sound b) (here : m.ip < b.ramSize) {n : Address} (short : n.toNat ≤ 2) :
    (m.advance n).Sound b := by
  have near := UInt64.lt_iff_toNat_lt.mp here
  have wrapped : (m.ip + n).toNat ≤ m.ip.toNat + n.toNat := by
    rw [UInt64.toNat_add]
    exact Nat.mod_le _ _
  have ip_le : (m.ip + n).toNat ≤ b.ramSize.toNat + 1 := by omega
  exact ⟨h.bounds_eq, h.wellFormed, h.acc_le, ip_le⟩

theorem past (h : m.Sound b) (out : m.bounds.ramSize ≤ m.ip) :
    m.ip.toNat = b.ramSize.toNat ∨ m.ip.toNat = b.ramSize.toNat + 1 := by
  rw [h.bounds_eq] at out
  have beyond := UInt64.le_iff_toNat_le.mp out
  have ip_le := h.ip_le
  omega

theorem replay (h : m.Sound b) (here : m.ip < b.ramSize) {op : Mnemonic} {cell : Address}
    (lt : cell < b.ramSize) {f : Effect} (does : m.effect? op cell = some f) :
    (f.replay m).Sound b := by
  have one : (1 : Address).toNat ≤ 2 := by decide
  cases op with
  | hlt => cases does
  | noop =>
    obtain rfl := Option.some.inj does
    exact h.advance here one
  | take =>
    obtain rfl := Option.some.inj does
    exact (h.set_acc (h.get_le cell)).advance here one
  | add | sub =>
    obtain rfl := Option.some.inj does
    exact (h.set_acc (h.saturate_le _)).advance here one
  | save =>
    obtain rfl := Option.some.inj does
    exact (h.put cell h.acc_le).advance here one
  | jmp =>
    obtain rfl := Option.some.inj does
    exact h.jump lt
  | tst =>
    obtain rfl := Option.some.inj does
    refine (h.set_acc (h.get_le cell)).advance here ?_
    split <;> decide
  | inc | dec =>
    obtain rfl := Option.some.inj does
    exact ((h.set_acc (h.saturate_le _)).put cell (h.saturate_le _)).advance here one
  | null =>
    obtain rfl := Option.some.inj does
    exact ((h.set_acc UInt32.zero_le).put cell UInt32.zero_le).advance here one

end Machine.Sound

namespace Execution

theorem Move.sound {e : Execution} {b : Bounds} (h : e.machine.Sound b)
    {r : Execution × Option (Except Fault Trace)} (move : e.Move r) : r.1.machine.Sound b := by
  cases move with
  | outside | cut | illegal | halt => exact h
  | act here free op named f does =>
    rw [h.bounds_eq] at here
    have lt := e.machine.operand_lt (h.bounds_eq ▸ here)
    rw [h.bounds_eq] at lt
    exact h.replay here lt does

theorem Move.of_sound {e : Execution} {b : Bounds} (h : e.machine.Sound b)
    (running : e.status = .running) : e.Move e.step :=
  step_move h.wellFormed h.acc_le_bounds running

theorem after_sound {e : Execution} {b : Bounds} (h : e.machine.Sound b) :
    e.after.machine.Sound b := by
  rcases e.running_or_stopped with running | ended
  · exact Move.sound h (Move.of_sound h running)
  · rw [after_of_stopped e ended]
    exact h

theorem later_sound {e : Execution} {b : Bounds} (h : e.machine.Sound b) (n : Nat) :
    (e.later n).machine.Sound b :=
  Function.Iterate.rec (fun e : Execution => e.machine.Sound b) h (fun _ => after_sound) n

theorem run_sound {e : Execution} {b : Bounds} (h : e.machine.Sound b) : e.run.machine.Sound b := by
  rw [e.run_eq_last]
  exact later_sound h _

theorem start_sound {m : Memory} (h : m.WellFormed) (limit : Option UInt64) :
    (start m limit).machine.Sound m.bounds := Machine.Sound.fresh h

theorem after_limit {e : Execution} {b : Bounds} (sound : e.machine.Sound b) :
    e.after.limit = e.limit := by
  rcases e.running_or_stopped with running | ended
  · have move := Move.of_sound sound running
    rw [after]
    generalize e.step = r at move
    cases move <;> rfl
  · rw [after_of_stopped e ended]

theorem later_limit {e : Execution} {b : Bounds} (sound : e.machine.Sound b) (n : Nat) :
    (e.later n).limit = e.limit := by
  induction n with
  | zero => rfl
  | succ n ih => rw [later_succ, after_limit (later_sound sound n), ih]

end Execution

theorem Assembly.loadLines_wellFormed {m : Memory} (h : m.WellFormed) (index : Nat)
    (lines : List (List Char)) :
    (loadLines m index lines).1.bounds = m.bounds ∧ (loadLines m index lines).1.WellFormed := by
  induction lines generalizing m index with
  | nil => exact ⟨rfl, h⟩
  | cons text rest ih =>
    unfold loadLines
    split
    · exact ⟨rfl, h⟩
    · split
      · exact ⟨rfl, h⟩
      · split
        · exact ⟨rfl, h⟩
        · split
          · exact ⟨rfl, h⟩
          · rename_i written
            obtain ⟨same, kept⟩ := Memory.write_wellFormed h written
            obtain ⟨sameRest, keptRest⟩ := ih kept (index + 1)
            exact ⟨sameRest.trans same, keptRest⟩

end AccMachine

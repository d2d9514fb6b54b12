import Mathlib.Data.Fintype.BigOperators
import Mathlib.Data.Fintype.Pigeonhole
import AccMachine.Proofs.Ceiling

/-!
Machines within given limits are in finitely many states. Without a limit on its fetches, an
execution that comes back to a state never stops; so one that stops does so within as many steps as
there are states, and running to the end comes to that end.
-/
namespace AccMachine

/-- How many states there are for a machine whose pointer is on a cell. -/
def Bounds.states (b : Bounds) : Nat :=
  b.ramSize.toNat * (b.maxValue.toNat + 1) ^ (b.ramSize.toNat + 1)

namespace Machine

abbrev Point (b : Bounds) : Type :=
  Fin b.ramSize.toNat × Fin (b.maxValue.toNat + 1) ×
    (Fin b.ramSize.toNat → Fin (b.maxValue.toNat + 1))

theorem card_point (b : Bounds) : Fintype.card (Point b) = b.states := by
  simp only [Point, Fintype.card_prod, Fintype.card_fun, Fintype.card_fin, Bounds.states]
  rw [Nat.pow_succ']

variable {b : Bounds} {m m' : Machine}

def Sound.point (h : m.Sound b) (here : m.ip < b.ramSize) : Point b :=
  (⟨m.ip.toNat, UInt64.lt_iff_toNat_lt.mp here⟩,
   ⟨m.acc.toNat, Nat.lt_succ_of_le (UInt32.le_iff_toNat_le.mp h.acc_le)⟩,
   fun i => ⟨(m.memory.get (.ofNat i)).toNat,
    Nat.lt_succ_of_le (UInt32.le_iff_toNat_le.mp (h.get_le _))⟩)

theorem Sound.size_eq (h : m.Sound b) : m.memory.cells.size = b.ramSize.toNat := by
  have size := h.wellFormed.1
  rw [show m.memory.bounds = b from h.bounds_eq] at size
  exact size

theorem Sound.eq_of_point (h : m.Sound b) (h' : m'.Sound b) {here : m.ip < b.ramSize}
    {here' : m'.ip < b.ramSize} (same : h.point here = h'.point here') : m = m' := by
  have ip : m.ip = m'.ip := UInt64.toNat_inj.mp (congrArg (fun p => p.1.val) same)
  have acc : m.acc = m'.acc := UInt32.toNat_inj.mp (congrArg (fun p => p.2.1.val) same)
  have cells : m.memory.cells = m'.memory.cells := by
    apply Array.ext
    · rw [h.size_eq, h'.size_eq]
    · intro i inside inside'
      have lt : i < b.ramSize.toNat := h.size_eq ▸ inside
      have small := Nat.lt_trans lt b.ramSize.toNat_lt
      have read := congrArg (fun p => (p.2.2 ⟨i, lt⟩).val) same
      have got : m.memory.get (.ofNat i) = m'.memory.get (.ofNat i) := UInt32.toNat_inj.mp read
      simpa [Memory.get, UInt64.toNat_ofNat', Nat.mod_eq_of_lt small, inside, inside'] using got
  have memory : m.memory = m'.memory := by
    have bounds : m.memory.bounds = m'.memory.bounds := h.bounds_eq.trans h'.bounds_eq.symm
    cases hm : m.memory
    cases hm' : m'.memory
    simp_all
  cases m
  cases m'
  simp_all

end Machine

namespace Execution

variable {e e' : Execution} {b : Bounds}

theorem revisits (sound : e.machine.Sound b)
    (fetching : ∀ i ≤ b.states, (e.later i).fetching = true) :
    ∃ i j, i < j ∧ j ≤ b.states ∧ (e.later i).machine = (e.later j).machine := by
  have sounds := later_sound sound
  have here : ∀ i : Fin (b.states + 1), (e.later i).machine.ip < b.ramSize := by
    intro i
    have inside := (fetching_iff.mp (fetching i (Nat.le_of_lt_succ i.isLt))).2
    rw [(sounds i).bounds_eq] at inside
    exact inside
  obtain ⟨i, j, distinct, same⟩ := Fintype.exists_ne_map_eq_of_card_lt
    (fun i : Fin (b.states + 1) => (sounds i).point (here i))
    (by rw [Machine.card_point, Fintype.card_fin]; exact Nat.lt_succ_self _)
  have machines := (sounds i).eq_of_point (sounds j) same
  rcases Nat.lt_or_gt_of_ne (Fin.val_ne_of_ne distinct) with lt | gt
  · exact ⟨i, j, lt, Nat.le_of_lt_succ j.isLt, machines⟩
  · exact ⟨j, i, gt, Nat.le_of_lt_succ i.isLt, machines.symm⟩

/-- The same but for the count of fetches. -/
structure Alike (e e' : Execution) : Prop where
  machine_eq : e.machine = e'.machine
  limit_eq : e.limit = e'.limit
  status_eq : e.status = e'.status

theorem Alike.move (alike : Alike e e') (free : e.limit = none)
    {r : Execution × Option (Except Fault Trace)} (move : e.Move r) :
    ∃ r', e'.Move r' ∧ Alike r.1 r'.1 := by
  obtain ⟨machine, limit, n, status⟩ := e
  obtain ⟨machine', limit', n', status'⟩ := e'
  obtain ⟨rfl, rfl, rfl⟩ := alike
  obtain rfl : limit = none := free
  let other : Execution := ⟨machine, none, n', status⟩
  cases move with
  | outside out => exact ⟨_, Move.outside (e := other) out, ⟨rfl, rfl, rfl⟩⟩
  | cut here l reached => cases reached
  | illegal here _ k unnamed =>
    exact ⟨_, Move.illegal (e := other) here rfl k unnamed, ⟨rfl, rfl, rfl⟩⟩
  | halt here _ named => exact ⟨_, Move.halt (e := other) here rfl named, ⟨rfl, rfl, rfl⟩⟩
  | act here _ op named f does =>
    exact ⟨_, Move.act (e := other) here rfl op named f does, ⟨rfl, rfl, rfl⟩⟩

theorem Alike.stopped_eq (alike : Alike e e') : e.stopped = e'.stopped := by
  rw [stopped, stopped, alike.status_eq]

theorem Alike.after (alike : Alike e e') (sound : e.machine.Sound b) (free : e.limit = none) :
    Alike e.after e'.after := by
  rcases e.running_or_stopped with running | ended
  · obtain ⟨r', move', same⟩ := alike.move free (Move.of_sound sound running)
    have sound' : e'.machine.Sound b := alike.machine_eq ▸ sound
    rw [Execution.after, Execution.after,
      (Move.of_sound sound' (alike.status_eq ▸ running)).unique move']
    exact same
  · rw [after_of_stopped e ended, after_of_stopped e' (alike.stopped_eq ▸ ended)]
    exact alike

theorem Alike.later (alike : Alike e e') (sound : e.machine.Sound b) (free : e.limit = none)
    (n : Nat) : Alike (e.later n) (e'.later n) := by
  induction n with
  | zero => exact alike
  | succ n ih =>
    rw [later_succ, later_succ]
    exact ih.after (later_sound sound n) ((later_limit sound n).trans free)

theorem going_of_revisit (sound : e.machine.Sound b) (free : e.limit = none) {i j : Nat}
    (lt : i < j) (same : (e.later i).machine = (e.later j).machine)
    (going : (e.later j).stopped = false) (n : Nat) : (e.later n).stopped = false := by
  have alike : Alike (e.later i) (e.later j) := by
    refine ⟨same, ?_, ?_⟩
    · rw [later_limit sound, later_limit sound]
    · rw [not_stopped_iff.mp going, not_stopped_iff.mp (going_of_le going (Nat.le_of_lt lt))]
  induction n using Nat.strongRecOn with
  | ind n ih =>
    rcases Nat.lt_or_ge j n with beyond | early
    · -- as many steps behind the first visit, the execution was in the same state
      obtain ⟨d, rfl⟩ := Nat.exists_eq_add_of_le (Nat.le_of_lt beyond)
      have again := alike.later (later_sound sound i) ((later_limit sound i).trans free) d
      rw [← later_add, ← later_add] at again
      rw [← again.stopped_eq]
      exact ih (i + d) (by omega)
    · exact going_of_le going early

def Ends (e : Execution) : Prop := ∃ n, (e.later n).stopped = true

theorem states_lt_steps (sound : e.machine.Sound b) : b.states + 1 < 2 ^ e.stateBits := by
  have bits : e.stateBits = 64 + 32 * (b.ramSize.toNat + 2) := by
    rw [stateBits, Memory.size, sound.size_eq]
  have wide : (b.maxValue.toNat + 1) ^ (b.ramSize.toNat + 1) ≤
      (2 ^ 32) ^ (b.ramSize.toNat + 1) := Nat.pow_le_pow_left b.maxValue.toNat_lt _
  have most : b.states ≤ 2 ^ 64 * (2 ^ 32) ^ (b.ramSize.toNat + 1) :=
    Nat.mul_le_mul (Nat.le_of_lt b.ramSize.toNat_lt) wide
  have double : 2 ^ e.stateBits = 2 ^ 32 * (2 ^ 64 * (2 ^ 32) ^ (b.ramSize.toNat + 1)) := by
    rw [bits, ← Nat.pow_mul, ← Nat.pow_add, ← Nat.pow_add]
    congr 1
    omega
  have positive : 0 < (2 ^ 32) ^ (b.ramSize.toNat + 1) := Nat.pow_pos (by decide)
  omega

theorem run_stopped_of_free (sound : e.machine.Sound b) (free : e.limit = none)
    (ends : Ends e) : e.run.stopped = true := by
  cases last : e.run.stopped with
  | true => rfl
  | false =>
    rw [run_eq_last] at last
    have room := states_lt_steps sound
    have going : ∀ i ≤ b.states + 1, (e.later i).stopped = false :=
      fun i le => going_of_le last (by omega)
    have fetching : ∀ i ≤ b.states, (e.later i).fetching = true := by
      intro i le
      have next := going (i + 1) (Nat.succ_le_succ le)
      rw [later_succ] at next
      exact (act_of_running (later_sound sound i) next).1
    obtain ⟨i, j, lt, le, same⟩ := revisits sound fetching
    obtain ⟨n, ended⟩ := ends
    rw [going_of_revisit sound free lt same (going j (Nat.le_succ_of_le le)) n] at ended
    cases ended

theorem execute_stopped {m : Memory} (h : m.WellFormed) {limit : Option UInt64}
    (ends : Ends (start m limit)) : (execute m limit).stopped = true := by
  cases limit with
  | none => exact run_stopped_of_free (start_sound h none) rfl ends
  | some l =>
    obtain ⟨ended, last⟩ := execute_limited h l
    rw [last]
    exact ended

end Execution
end AccMachine

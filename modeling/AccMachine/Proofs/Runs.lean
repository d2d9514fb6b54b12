import Mathlib.Algebra.Group.Nat.Defs
import Mathlib.Logic.Function.Iterate
import AccMachine.Execution

/-!
Runs as sequences of steps: the answers a run gives, its records among them, and how an execution
that has stopped stays as it is.
-/
namespace AccMachine

namespace Iteration

variable {α : Type} {step : α → α} {stopped : α → Bool}
  (fixed : ∀ a, stopped a = true → step a = a)
include fixed

theorem burst_eq_iterate (k : Nat) (a : α) : burst step stopped k a = step^[1 <<< k] a := by
  induction k generalizing a with
  | zero => rfl
  | succ k ih =>
    have double : 1 <<< (k + 1) = 1 <<< k + 1 <<< k := by rw [Nat.shiftLeft_succ, Nat.two_mul]
    rw [burst, double, Function.iterate_add_apply, ih]
    split
    · next ended => exact (Function.iterate_fixed (fixed _ ended) _).symm
    · exact ih _

theorem bursts_eq_iterate (rounds k : Nat) (a : α) :
    bursts step stopped rounds k a = step^[1 <<< k * (1 <<< rounds - 1)] a := by
  induction rounds generalizing k a with
  | zero => simp [bursts]
  | succ rounds ih =>
    have one : 1 ≤ 1 <<< rounds := by
      rw [Nat.one_shiftLeft]
      exact Nat.one_le_two_pow
    have count : 1 <<< k * (1 <<< (rounds + 1) - 1) =
        1 <<< (k + 1) * (1 <<< rounds - 1) + 1 <<< k := by
      have odd : 2 * 1 <<< rounds - 1 = 2 * (1 <<< rounds - 1) + 1 := by omega
      rw [Nat.shiftLeft_succ, Nat.shiftLeft_succ, odd, Nat.mul_add, Nat.mul_one,
        Nat.mul_left_comm, Nat.mul_assoc]
    rw [bursts, count, Function.iterate_add_apply, burst_eq_iterate fixed]
    split
    · next ended => exact (Function.iterate_fixed (fixed _ ended) _).symm
    · exact ih _ _

/-- Stopping early is invisible where a stopped state no longer changes. -/
theorem exhaust_eq_iterate (bits : Nat) (a : α) :
    exhaust step stopped bits a = step^[2 ^ bits - 1] a := by
  rw [exhaust, bursts_eq_iterate fixed, Nat.shiftLeft_zero, Nat.one_mul, Nat.one_shiftLeft]

end Iteration

namespace Execution

theorem not_stopped_iff {e : Execution} : e.stopped = false ↔ e.status = .running := by
  unfold stopped
  split <;> simp_all

theorem running_or_stopped (e : Execution) : e.status = .running ∨ e.stopped = true := by
  rw [← not_stopped_iff]
  exact (Bool.eq_false_or_eq_true e.stopped).symm

def answers : Nat → Execution → List (Option (Except Fault Trace))
  | 0, _ => []
  | n + 1, e => e.step.2 :: answers n e.after

def later (n : Nat) (e : Execution) : Execution := after^[n] e

@[simp] theorem later_zero (e : Execution) : e.later 0 = e := rfl

theorem later_succ (n : Nat) (e : Execution) : e.later (n + 1) = (e.later n).after :=
  Function.iterate_succ_apply' after n e

theorem later_add (m n : Nat) (e : Execution) : e.later (m + n) = (e.later m).later n := by
  rw [Nat.add_comm]
  exact Function.iterate_add_apply after n m e

theorem answers_add (m n : Nat) (e : Execution) :
    e.answers (m + n) = e.answers m ++ (e.later m).answers n := by
  induction m generalizing e with
  | zero => simp [answers]
  | succ m ih =>
    rw [Nat.succ_add, answers, answers, ih e.after]
    rfl

theorem answers_succ (n : Nat) (e : Execution) :
    e.answers (n + 1) = e.answers n ++ [(e.later n).step.2] := answers_add n 1 e

theorem later_of_stopped {e : Execution} (h : e.stopped = true) (n : Nat) : e.later n = e :=
  Function.iterate_fixed (after_of_stopped e h) n

theorem later_eq_of_stopped {e : Execution} {m n : Nat} (h : (e.later m).stopped = true)
    (le : m ≤ n) : e.later n = e.later m := by
  obtain ⟨d, rfl⟩ := Nat.exists_eq_add_of_le le
  rw [later_add, later_of_stopped h]

theorem lt_of_stops_later {e : Execution} {m n : Nat} (going : (e.later m).stopped = false)
    (ended : (e.later n).stopped = true) : m < n := by
  apply Nat.lt_of_not_le
  intro le
  rw [later_eq_of_stopped ended le, ended] at going
  cases going

theorem going_of_le {e : Execution} {m n : Nat} (going : (e.later n).stopped = false)
    (le : m ≤ n) : (e.later m).stopped = false := by
  cases ended : (e.later m).stopped with
  | false => rfl
  | true =>
    rw [later_eq_of_stopped ended le, ended] at going
    cases going

theorem stops_at {e : Execution} {n : Nat} (going : e.stopped = false)
    (ended : (e.later n).stopped = true) :
    ∃ k < n, (e.later k).stopped = false ∧ e.later n = e.later (k + 1) := by
  induction n with
  | zero =>
    rw [later_zero, going] at ended
    cases ended
  | succ n ih =>
    cases before : (e.later n).stopped with
    | false => exact ⟨n, Nat.lt_succ_self n, before, rfl⟩
    | true =>
      obtain ⟨k, lt, running, same⟩ := ih before
      refine ⟨k, Nat.lt_succ_of_lt lt, running, ?_⟩
      rw [later_eq_of_stopped before (Nat.le_succ n), same]

/-- A run is a number of steps that no state can outlast. -/
theorem run_eq_last (e : Execution) : e.run = e.later (2 ^ e.stateBits - 1) := by
  unfold run
  split
  · next ended => exact (later_of_stopped ended _).symm
  · exact Iteration.exhaust_eq_iterate after_of_stopped _ e

theorem runWith_eq_iterate (visit : σ → Trace → σ) (s : σ) (e : Execution) :
    runWith visit s e = (stepWith visit)^[2 ^ e.stateBits - 1] (s, e) := by
  unfold runWith
  split
  · next ended =>
    exact (Function.iterate_fixed (stepWith_of_stopped visit (s, e) ended) _).symm
  · exact Iteration.exhaust_eq_iterate (stepWith_of_stopped visit) _ _

theorem run_eq_later {e : Execution} {n : Nat} (h : (e.later n).stopped = true)
    (soon : n < 2 ^ e.stateBits) : e.run = e.later n := by
  have le : n ≤ 2 ^ e.stateBits - 1 := by omega
  rw [run_eq_last]
  exact later_eq_of_stopped h le

theorem two_pow_64_le_stateBits (e : Execution) : 2 ^ 64 ≤ 2 ^ e.stateBits := by
  apply Nat.pow_le_pow_right (by decide)
  rw [stateBits]
  omega

theorem stepWith_snd (visit : σ → Trace → σ) (p : σ × Execution) :
    (stepWith visit p).2 = p.2.after := by
  obtain ⟨s, e⟩ := p
  simp only [stepWith, after]
  split
  · rename_i stepped
    rw [stepped]
  · rename_i stepped
    rw [stepped]

theorem runWith_snd (visit : σ → Trace → σ) (s : σ) (e : Execution) :
    (e.runWith visit s).2 = e.run := by
  have steps : Function.Semiconj Prod.snd (stepWith visit) after := stepWith_snd visit
  rw [runWith_eq_iterate, run_eq_last]
  exact steps.iterate_right _ (s, e)

end Execution

theorem executeWith_snd (visit : σ → Trace → σ) (s : σ) (m : Memory) (limit : Option UInt64) :
    (executeWith visit s m limit).2 = execute m limit :=
  Execution.runWith_snd visit s _

end AccMachine

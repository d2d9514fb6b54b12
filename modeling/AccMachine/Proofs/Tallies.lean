import Mathlib.Algebra.Group.Action.Defs
import Mathlib.Algebra.Order.BigOperators.Group.List
import Mathlib.Algebra.Order.Ring.Nat
import AccMachine.Proofs.Ceiling
import AccMachine.Sweep

/-!
What sweeps report. Every memory is left as a run of its own leaves it, the tally counts how these
runs end, and neither depends on the order in which machines run and tallies are merged.
-/
namespace AccMachine

inductive Ending where
  | halted | outOfBounds | valueOutOfRange | illegalInstruction | operationLimit
  deriving DecidableEq, Repr

def Status.ending? : Status → Option Ending
  | .running => none
  | .halted => some .halted
  | .failed (.outOfBounds ..) => some .outOfBounds
  | .failed (.valueOutOfRange ..) => some .valueOutOfRange
  | .failed (.illegalInstruction ..) => some .illegalInstruction
  | .failed (.operationLimitExceeded ..) => some .operationLimit

def endings (w : Ending) (es : List Execution) : Nat :=
  es.countP fun e => e.status.ending? = some w

namespace Tally

def count (t : Tally) : Ending → Nat
  | .halted => t.halted
  | .outOfBounds => t.outOfBounds
  | .valueOutOfRange => t.valueOutOfRange
  | .illegalInstruction => t.illegalInstruction
  | .operationLimit => t.operationLimit

variable (s t u : Tally)

theorem merge_assoc : (s.merge t).merge u = s.merge (t.merge u) := by
  simp only [merge, Nat.add_assoc, UInt64.add_assoc]

theorem merge_comm : s.merge t = t.merge s := by
  simp only [merge, Nat.add_comm, UInt64.add_comm]

theorem empty_merge : merge {} s = s := by
  simp only [merge, Nat.zero_add, UInt64.zero_add]

theorem merge_empty : s.merge {} = s := by
  rw [merge_comm, empty_merge]

theorem count_merge (w : Ending) : (s.merge t).count w = s.count w + t.count w := by
  cases w <;> rfl

instance : Std.Associative merge := ⟨merge_assoc⟩

def ofExecutions (es : List Execution) : Tally := (es.map ofExecution).foldl merge {}

theorem ofExecutions_append (es fs : List Execution) :
    ofExecutions (es ++ fs) = (ofExecutions es).merge (ofExecutions fs) := by
  have regrouped : (fs.map ofExecution).foldl merge ((ofExecutions es).merge {}) =
      (ofExecutions es).merge (ofExecutions fs) := List.foldl_assoc
  rw [merge_empty] at regrouped
  rw [ofExecutions, List.map_append, List.foldl_append]
  exact regrouped

theorem ofExecutions_cons (e : Execution) (es : List Execution) :
    ofExecutions (e :: es) = (ofExecution e).merge (ofExecutions es) := by
  have single : ofExecutions [e] = ofExecution e := empty_merge _
  rw [← List.singleton_append, ofExecutions_append, single]

theorem count_ofExecution (w : Ending) (e : Execution) :
    (ofExecution e).count w = if e.status.ending? = some w then 1 else 0 := by
  obtain ⟨machine, limit, operations, _ | _ | f⟩ := e
  · cases w <;> rfl
  · cases w <;> rfl
  · cases f <;> cases w <;> rfl

theorem count_ofExecutions (w : Ending) (es : List Execution) :
    (ofExecutions es).count w = endings w es := by
  induction es with
  | nil => cases w <;> rfl
  | cons e es ih =>
    rw [ofExecutions_cons, count_merge, ih, count_ofExecution, endings, endings, List.countP_cons,
      Nat.add_comm]
    simp only [decide_eq_true_eq]

theorem total_eq_counts (t : Tally) : t.total = t.count .halted + t.count .outOfBounds +
    t.count .valueOutOfRange + t.count .illegalInstruction + t.count .operationLimit := rfl

theorem total_ofExecution {e : Execution} (ended : e.stopped = true) :
    (ofExecution e).total = 1 := by
  obtain ⟨machine, limit, operations, _ | _ | f⟩ := e
  · cases ended
  · rfl
  · cases f <;> rfl

theorem total_ofExecutions {es : List Execution} (ended : ∀ e ∈ es, e.stopped = true) :
    (ofExecutions es).total = es.length := by
  induction es with
  | nil => rfl
  | cons e es ih =>
    obtain ⟨first, rest⟩ := List.forall_mem_cons.mp ended
    have one := total_ofExecution first
    have others := ih rest
    rw [total_eq_counts] at one others ⊢
    rw [ofExecutions_cons, List.length_cons]
    simp only [count_merge]
    omega

theorem operations_ofExecution (e : Execution) : (ofExecution e).operations = e.operations := by
  obtain ⟨machine, limit, operations, _ | _ | f⟩ := e
  · rfl
  · rfl
  · cases f <;> rfl

theorem operations_ofExecutions (es : List Execution) :
    (ofExecutions es).operations = .ofNat (es.map (·.operations.toNat)).sum := by
  induction es with
  | nil => rfl
  | cons e es ih =>
    rw [ofExecutions_cons, merge, ih, operations_ofExecution, List.map_cons, List.sum_cons,
      UInt64.ofNat_add, UInt64.ofNat_toNat]

end Tally

namespace Execution

theorem Move.in_range {e : Execution} {r : Execution × Option (Except Fault Trace)}
    (move : e.Move r) (running : e.status = .running) :
    r.1.status.ending? ≠ some .valueOutOfRange := by
  cases move with
  | outside | cut | illegal | halt => nofun
  | act => simp [counted, running, Status.ending?]

theorem later_in_range {e : Execution} {b : Bounds} (sound : e.machine.Sound b)
    (first : e.status.ending? ≠ some .valueOutOfRange) (n : Nat) :
    (e.later n).status.ending? ≠ some .valueOutOfRange := by
  induction n with
  | zero => exact first
  | succ n ih =>
    rw [later_succ]
    rcases (e.later n).running_or_stopped with running | ended
    · exact (Move.of_sound (later_sound sound n) running).in_range running
    · rwa [after_of_stopped _ ended]

end Execution

namespace Sweep

def alone (l : UInt64) (m : Memory) : Execution := execute m (some l)

def spent (l : UInt64) (m : Memory) : Memory := (alone l m).machine.memory

def swept (l : UInt64) (ms : List Memory) (n : Nat) : List Memory :=
  (fun ms => (run l ms).1)^[n] ms

/-- A way to run memories on machines and to merge their tallies, two at a time. -/
inductive Plan where
  | idle
  | machine (m : Memory)
  | fork (left right : Plan)

namespace Plan

def memories : Plan → List Memory
  | .idle => []
  | .machine m => [m]
  | .fork left right => left.memories ++ right.memories

def run (l : UInt64) : Plan → List Memory × Tally
  | .idle => ([], {})
  | .machine m => ([spent l m], .ofExecution (alone l m))
  | .fork left right =>
    ((left.run l).1 ++ (right.run l).1, (left.run l).2.merge (right.run l).2)

end Plan

section

variable {m : Memory} (h : m.WellFormed) (l : UInt64)
include h

theorem alone_stopped : (alone l m).stopped = true := by
  obtain ⟨ended, last⟩ := Execution.execute_limited h l
  rw [alone, last]
  exact ended

theorem alone_eq_later {n : Nat} (ended : ((Execution.start m (some l)).later n).stopped = true) :
    alone l m = (Execution.start m (some l)).later n := by
  obtain ⟨stopped, last⟩ := Execution.execute_limited h l
  rw [alone, last]
  rcases Nat.le_total (max l.toNat 1) n with le | le
  · exact (Execution.later_eq_of_stopped stopped le).symm
  · exact Execution.later_eq_of_stopped ended le

theorem alone_operations {n : Nat} (ended : ((Execution.start m (some l)).later n).stopped = true) :
    (alone l m).operations.toNat = (Execution.start m (some l)).fetches n := by
  have few := Execution.limited_fetches h l n
  have narrow := l.toNat_lt
  rw [alone_eq_later h l ended]
  exact Execution.start_operations_toNat h (by omega)

theorem alone_operations_le : (alone l m).operations.toNat ≤ max l.toNat 1 := by
  rw [alone_operations h l (Execution.execute_limited h l).1]
  exact Execution.limited_fetches h l _

theorem alone_in_range : (alone l m).status.ending? ≠ some .valueOutOfRange := by
  rw [alone_eq_later h l (Execution.execute_limited h l).1]
  exact Execution.later_in_range (Execution.start_sound h _) nofun _

theorem spent_wellFormed : (spent l m).WellFormed := by
  rw [spent, alone]
  exact (Execution.run_sound (Execution.start_sound h _)).wellFormed

end

theorem run_eq (l : UInt64) (ms : List Memory) :
    run l ms = (ms.map (spent l), .ofExecutions (ms.map (alone l))) := by
  have runs : ms.map (execute · (some l)) = ms.map (alone l) := rfl
  rw [run, runs, List.map_map, Tally.ofExecutions]
  rfl

theorem run_append (l : UInt64) (ms ns : List Memory) : run l (ms ++ ns) =
    ((run l ms).1 ++ (run l ns).1, (run l ms).2.merge (run l ns).2) := by
  simp only [run_eq, List.map_append, Tally.ofExecutions_append]

theorem run_operations (l : UInt64) (ms : List Memory) :
    (run l ms).2.operations = .ofNat (ms.map fun m => (alone l m).operations.toNat).sum := by
  rw [run_eq, Tally.operations_ofExecutions, List.map_map]
  rfl

theorem Plan.run_eq (l : UInt64) (plan : Plan) : plan.run l = Sweep.run l plan.memories := by
  induction plan with
  | idle => rfl
  | machine m =>
    rw [Sweep.run_eq, memories, List.map_singleton, List.map_singleton, Tally.ofExecutions,
      List.map_singleton, List.foldl_cons, List.foldl_nil, Tally.empty_merge]
    rfl
  | fork left right ihLeft ihRight => rw [memories, run_append, run, ihLeft, ihRight]

theorem swept_eq (l : UInt64) (ms : List Memory) (n : Nat) :
    swept l ms n = ms.map (spent l)^[n] := by
  induction n generalizing ms with
  | zero => exact (List.map_id ms).symm
  | succ n ih =>
    have onward : swept l ms (n + 1) = swept l (run l ms).1 n := rfl
    rw [onward, ih, run_eq, List.map_map]
    rfl

/-- What a sweep makes of the memories `ms`. Each is left as its own run leaves it, and the tally
counts how these runs end and what they fetch. -/
structure Tallied (l : UInt64) (ms : List Memory) (r : List Memory × Tally) : Prop where
  length_eq : r.1.length = ms.length
  left : ∀ (i : Nat) (m : Memory), ms[i]? = some m → r.1[i]? = some (spent l m)
  counts : ∀ w, r.2.count w = endings w (ms.map (alone l))
  in_range : r.2.valueOutOfRange = 0
  total_eq : r.2.total = ms.length
  counters : ∀ m ∈ ms, (alone l m).stopped = true ∧
    ∀ n, ((Execution.start m (some l)).later n).stopped = true →
      (alone l m).operations.toNat = (Execution.start m (some l)).fetches n
  operations_eq : (ms.map fun m => (alone l m).operations.toNat).sum < 2 ^ 64 →
    r.2.operations.toNat = (ms.map fun m => (alone l m).operations.toNat).sum
  operations_le : r.2.operations.toNat ≤ ms.length * max l.toNat 1
  planned : ∀ plan : Plan, plan.memories = ms → plan.run l = r

theorem tallied_run {ms : List Memory} (h : ∀ m ∈ ms, m.WellFormed) (l : UInt64) :
    Tallied l ms (run l ms) := by
  have operations : (run l ms).2.operations.toNat =
      (ms.map fun m => (alone l m).operations.toNat).sum % 2 ^ 64 := by
    rw [run_operations, UInt64.toNat_ofNat']
  constructor
  case length_eq => rw [run_eq, List.length_map]
  case left =>
    intro i m there
    rw [run_eq, List.getElem?_map, there, Option.map_some]
  case counts =>
    intro w
    rw [run_eq, Tally.count_ofExecutions]
  case in_range =>
    have none : (run l ms).2.count .valueOutOfRange = 0 := by
      rw [run_eq, Tally.count_ofExecutions, endings, List.countP_eq_zero, List.forall_mem_map]
      intro m member
      simpa using alone_in_range (h m member) l
    exact none
  case total_eq =>
    rw [run_eq, Tally.total_ofExecutions, List.length_map]
    exact List.forall_mem_map.mpr fun m member => alone_stopped (h m member) l
  case counters =>
    intro m member
    exact ⟨alone_stopped (h m member) l, fun n => alone_operations (h m member) l⟩
  case operations_eq =>
    intro small
    rw [operations, Nat.mod_eq_of_lt small]
  case operations_le =>
    have sum : (ms.map fun m => (alone l m).operations.toNat).sum ≤ ms.length * max l.toNat 1 := by
      have each := List.sum_le_card_nsmul (ms.map fun m => (alone l m).operations.toNat)
        (max l.toNat 1) (List.forall_mem_map.mpr fun m member => alone_operations_le (h m member) l)
      rwa [List.length_map, smul_eq_mul] at each
    rw [operations]
    exact Nat.le_trans (Nat.mod_le _ _) sum
  case planned =>
    rintro plan rfl
    exact plan.run_eq l

/-- Sweeps come to the runs of their memories by themselves, however often the memories are swept,
and whichever machines are run and merged first. -/
theorem sweeps_tally_lone_runs {ms : List Memory} (h : ∀ m ∈ ms, m.WellFormed) (l : UInt64) :
    (∀ n, swept l ms n = ms.map (spent l)^[n] ∧
      Tallied l (swept l ms n) (run l (swept l ms n))) ∧
    (∀ s t u : Tally, (s.merge t).merge u = s.merge (t.merge u)) ∧
    (∀ s t : Tally, s.merge t = t.merge s) ∧
    ∀ s : Tally, Tally.merge {} s = s ∧ s.merge {} = s := by
  refine ⟨fun n => ⟨swept_eq l ms n, ?_⟩, Tally.merge_assoc, Tally.merge_comm,
    fun s => ⟨s.empty_merge, s.merge_empty⟩⟩
  have kept : ∀ m ∈ swept l ms n, m.WellFormed := by
    rw [swept_eq, List.forall_mem_map]
    intro m member
    exact Function.Iterate.rec Memory.WellFormed (h m member)
      (fun _ kept => spent_wellFormed kept l) n
  exact tallied_run kept l

theorem sweeps_tally_halt_and_overrun :
    Tallied 5 (swept 5 [⟨⟨1, 10⟩, #[10]⟩, .zeroed ⟨1, 10⟩] 2)
        (run 5 (swept 5 [⟨⟨1, 10⟩, #[10]⟩, .zeroed ⟨1, 10⟩] 2)) ∧
      (run 5 [⟨⟨1, 10⟩, #[10]⟩, .zeroed ⟨1, 10⟩]).2.total = 2 := by
  have wellFormed : ∀ m ∈ [⟨⟨1, 10⟩, #[10]⟩, Memory.zeroed ⟨1, 10⟩], m.WellFormed :=
    List.forall_mem_cons.mpr ⟨⟨rfl, by simp⟩,
      List.forall_mem_singleton.mpr (Memory.zeroed_wellFormed _)⟩
  have tallied := (sweeps_tally_lone_runs wellFormed 5).1
  exact ⟨(tallied 2).2, (tallied 0).2.total_eq⟩

example : (run 5 [⟨⟨1, 10⟩, #[10]⟩, .zeroed ⟨1, 10⟩]).2 =
    { halted := 1, outOfBounds := 1, operations := 2 } := by decide

end Sweep
end AccMachine

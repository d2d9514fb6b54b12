import AccMachine.Proofs.Drivers

/-!
Runs that never end by themselves. A run that comes back to a state goes round for ever, and so does
one with more records than there are states; whatever limit is put on it, it ends there.
-/
namespace AccMachine

structure Machine.SameState (m m' : Machine) : Prop where
  ip_eq : m.ip = m'.ip
  acc_eq : m.acc = m'.acc
  cells_eq : m.memory.cells = m'.memory.cells

theorem Machine.Sound.eq_of_sameState {m m' : Machine} {b : Bounds} (h : m.Sound b)
    (h' : m'.Sound b) (same : m.SameState m') : m = m' := by
  have bounds : m.memory.bounds = m'.memory.bounds := h.bounds_eq.trans h'.bounds_eq.symm
  obtain ⟨⟨b₁, cells⟩, acc, ip⟩ := m
  obtain ⟨⟨b₂, cells'⟩, acc', ip'⟩ := m'
  obtain ⟨rfl, rfl, rfl⟩ := same
  obtain rfl : b₁ = b₂ := bounds
  rfl

namespace Execution

/-- No run over the memory ends before its limit: it goes on, or the limit has cut it off. -/
structure Endless (m : Memory) : Prop where
  runs : ∀ limit n, ((start m limit).later n).status = .running ∨
    ∃ l, limit = some l ∧ ((start m limit).later n).status = .failed (.operationLimitExceeded l)
  executed : ∀ l, (execute m (some l)).result? = some (.error (.operationLimitExceeded l))

theorem going_of_records {e : Execution} {b : Bounds} (sound : e.machine.Sound b)
    (running : e.status = .running) {n k : Nat} (many : n ≤ (e.records k).length) :
    (e.later n).stopped = false := by
  induction n generalizing e k with
  | zero => exact not_stopped_iff.mpr running
  | succ n ih =>
    cases k with
    | zero => exact absurd many (Nat.not_succ_le_zero n)
    | succ k =>
      rcases records_cases sound k with ⟨t, left, records⟩ | empty
      · have status := (Move.of_sound sound running).status_eq running
        rw [left] at status
        rw [records, List.length_cons] at many
        exact ih (after_sound sound) status (Nat.le_of_succ_le_succ many)
      · rw [empty] at many
        exact absurd many (Nat.not_succ_le_zero n)

section

variable {m : Memory} (h : m.WellFormed)
include h

theorem later_eq_unlimited {limit : Option UInt64} {k : Nat}
    (going : ((start m limit).later k).stopped = false) :
    (start m limit).later k = ((start m none).later k).withLimit limit := by
  cases limit with
  | none =>
    have free := later_limit (start_sound h none) k
    exact congrArg (fun l => { (start m none).later k with limit := l }) free
  | some l =>
    have before := lt_of_stops_later going (execute_limited h l).1
    have unlimited : ∀ l' ∈ (none : Option UInt64), l ≤ l' := by simp
    refine (agree_until_reached h unlimited (k := k) ?_).1
    intro j lt _
    omega

theorem exceeding_of_going (going : ∀ n, ((start m none).later n).stopped = false) (l : UInt64) :
    (start m (some l)).later (max l.toNat 1) =
      ((start m none).later (max l.toNat 1 - 1)).exceeding l := by
  have unlimited : ∀ l' ∈ (none : Option UInt64), l ≤ l' := by simp
  have sound := later_sound (start_sound h none) (max l.toNat 1 - 1)
  have next := going (max l.toNat 1 - 1 + 1)
  rw [later_succ] at next
  exact (exceed_with_fetch h unlimited (act_of_running sound next).1).1

theorem endless_of_going (going : ∀ n, ((start m none).later n).stopped = false) : Endless m := by
  have cut := exceeding_of_going h going
  constructor
  · intro limit n
    cases ended : ((start m limit).later n).stopped with
    | false => exact .inl (not_stopped_iff.mp ended)
    | true =>
      cases limit with
      | none =>
        rw [going n] at ended
        cases ended
      | some l =>
        have last : (start m (some l)).later n = (start m (some l)).later (max l.toNat 1) := by
          have limited := (execute_limited h l).1
          rcases Nat.le_total n (max l.toNat 1) with early | late
          · exact (later_eq_of_stopped ended early).symm
          · exact later_eq_of_stopped limited late
        rw [last, cut l]
        exact .inr ⟨l, rfl, rfl⟩
  · intro l
    rw [(execute_limited h l).2, cut l]
    rfl

theorem endless_of_revisit {limit : Option UInt64} {i j : Nat} (lt : i < j)
    (same : ((start m limit).later i).machine = ((start m limit).later j).machine)
    (going : ((start m limit).later j).stopped = false) : Endless m := by
  have before := going_of_le going (Nat.le_of_lt lt)
  rw [later_eq_unlimited h going] at same going
  rw [later_eq_unlimited h before] at same
  have sound := start_sound h none
  exact endless_of_going h fun n => going_of_revisit sound rfl lt same going n

theorem endless_of_records {limit : Option UInt64} {k : Nat}
    (many : m.bounds.states < ((start m limit).records k).length) : Endless m := by
  have sound := start_sound h limit
  have going := going_of_records sound rfl (Nat.succ_le_of_lt many)
  have fetching : ∀ i ≤ m.bounds.states, ((start m limit).later i).fetching = true := by
    intro i le
    have next := going_of_le going (Nat.succ_le_succ le)
    rw [later_succ] at next
    exact (act_of_running (later_sound sound i) next).1
  obtain ⟨i, j, lt, le, same⟩ := revisits sound fetching
  exact endless_of_revisit h lt same (going_of_le going (Nat.le_succ_of_le le))

end

/-- A run that was in one state before two of its operations never ends by itself, and neither does
one that leaves more records than a machine with such limits has states. -/
theorem revisiting_run_never_ends {m : Memory} (h : m.WellFormed) (limit : Option UInt64) :
    (∀ (i j : Nat) (t u : Trace), i ≠ j → ((start m limit).later i).step.2 = some (.ok t) →
      ((start m limit).later j).step.2 = some (.ok u) →
      ((start m limit).later i).machine.SameState ((start m limit).later j).machine →
      Endless m) ∧
    (∀ k, m.bounds.ramSize.toNat * (m.bounds.maxValue.toNat + 1) ^ (m.bounds.ramSize.toNat + 1) <
        ((start m limit).records k).length → Endless m) := by
  have sound := later_sound (start_sound h limit)
  have going : ∀ (i : Nat) (t : Trace), ((start m limit).later i).step.2 = some (.ok t) →
      ((start m limit).later i).stopped = false :=
    fun i t left => not_stopped_iff.mpr (fetching_iff.mp (fetching_of_record (sound i) left)).1
  refine ⟨?_, fun k many => endless_of_records h many⟩
  intro i j t u apart left left' same
  have machines := (sound i).eq_of_sameState (sound j) same
  rcases Nat.lt_or_gt_of_ne apart with lt | gt
  · exact endless_of_revisit h lt machines (going j u left')
  · exact endless_of_revisit h gt machines.symm (going i t left)

theorem revisiting_run_never_ends_up_and_down :
    let m : Memory := ⟨⟨4, 40⟩, #[31, 35, 20, 0]⟩
    let jumping : Memory := ⟨⟨1, 5⟩, #[5]⟩
    m.WellFormed ∧ ((start m none).later 0).step.2 = some (.ok ⟨0, 1, .inc 3 1⟩) ∧
      ((start m none).later 3).step.2 = some (.ok ⟨0, 4, .inc 3 1⟩) ∧
      ((start m none).later 0).machine.SameState ((start m none).later 3).machine ∧ Endless m ∧
      jumping.WellFormed ∧ 1 * (5 + 1) ^ (1 + 1) < ((start jumping (some 50)).records 37).length ∧
      Endless jumping := by
  intro m jumping
  have wellFormed : m.WellFormed := ⟨rfl, by simp [m]⟩
  have wellFormed' : jumping.WellFormed := ⟨rfl, by simp [jumping]⟩
  have first : ((start m none).later 0).step.2 = some (.ok ⟨0, 1, .inc 3 1⟩) := by decide
  have again : ((start m none).later 3).step.2 = some (.ok ⟨0, 4, .inc 3 1⟩) := by decide
  have same : ((start m none).later 0).machine.SameState ((start m none).later 3).machine :=
    ⟨by decide, by decide, by decide⟩
  have many : 1 * (5 + 1) ^ (1 + 1) < ((start jumping (some 50)).records 37).length := by decide
  exact ⟨wellFormed, first, again, same,
    (revisiting_run_never_ends wellFormed none).1 0 3 _ _ (by decide) first again same,
    wellFormed', many, (revisiting_run_never_ends wellFormed' (some 50)).2 37 many⟩

end Execution
end AccMachine

import AccMachine.Proofs.Soundness

/-!
Counting fetches without bound, and what a run has answered while it goes on.
-/
namespace AccMachine.Execution

def fetching (e : Execution) : Bool :=
  !e.stopped && decide (e.machine.ip < e.machine.bounds.ramSize)

theorem fetching_iff {e : Execution} :
    e.fetching = true ↔ e.status = .running ∧ e.machine.ip < e.machine.bounds.ramSize := by
  rw [fetching, Bool.and_eq_true, Bool.not_eq_true', not_stopped_iff, decide_eq_true_eq]

/-- How many of the next `n` steps fetch a cell. -/
def fetches : Nat → Execution → Nat
  | 0, _ => 0
  | n + 1, e => (if e.fetching then 1 else 0) + fetches n e.after

theorem fetches_add (m n : Nat) (e : Execution) :
    e.fetches (m + n) = e.fetches m + (e.later m).fetches n := by
  induction m generalizing e with
  | zero => simp [fetches]
  | succ m ih =>
    rw [Nat.succ_add, fetches, fetches, ih e.after, Nat.add_assoc]
    rfl

theorem fetches_le (n : Nat) (e : Execution) : e.fetches n ≤ n := by
  induction n generalizing e with
  | zero => exact Nat.le_refl 0
  | succ n ih =>
    have rest := ih e.after
    rw [fetches]
    split <;> omega

theorem fetches_mono {m n : Nat} (le : m ≤ n) (e : Execution) : e.fetches m ≤ e.fetches n := by
  obtain ⟨d, rfl⟩ := Nat.exists_eq_add_of_le le
  rw [fetches_add]
  exact Nat.le_add_right _ _

theorem fetches_of_stopped {e : Execution} (h : e.stopped = true) (n : Nat) : e.fetches n = 0 := by
  induction n with
  | zero => rfl
  | succ n ih => simp [fetches, fetching, h, after_of_stopped e h, ih]

theorem after_operations {e : Execution} {b : Bounds} (sound : e.machine.Sound b) :
    e.after.operations = e.operations + if e.fetching then 1 else 0 := by
  rcases e.running_or_stopped with running | ended
  · have move := Move.of_sound sound running
    rw [after]
    generalize e.step = r at move
    cases move with
    | outside out => simp [fetching_iff, UInt64.not_lt.mpr out, failing]
    | cut here | illegal here | halt here | act here =>
      simp [fetching_iff, running, here, failing, counted]
  · simp [after_of_stopped e ended, fetching, ended]

theorem later_operations {e : Execution} {b : Bounds} (sound : e.machine.Sound b) (n : Nat) :
    (e.later n).operations = e.operations + UInt64.ofNat (e.fetches n) := by
  induction n generalizing e with
  | zero => simp [fetches]
  | succ n ih =>
    have rest : (e.later (n + 1)).operations = _ := ih (after_sound sound)
    rw [rest, after_operations sound, fetches, UInt64.ofNat_add, UInt64.add_assoc]
    split <;> rfl

theorem act_of_running {e : Execution} {b : Bounds} (sound : e.machine.Sound b)
    (going : e.after.stopped = false) : e.fetching = true ∧ ∃ t, e.step.2 = some (.ok t) := by
  rcases e.running_or_stopped with running | ended
  · have move := Move.of_sound sound running
    rw [after] at going
    generalize e.step = r at move going
    cases move with
    | outside | cut | illegal | halt => cases going
    | act here => exact ⟨fetching_iff.mpr ⟨running, here⟩, _, rfl⟩
  · rw [after_of_stopped e ended, ended] at going
    cases going

theorem act_of_record {e : Execution} {b : Bounds} (sound : e.machine.Sound b) {t : Trace}
    (left : e.step.2 = some (.ok t)) : e.status = .running ∧
      e.machine.ip < e.machine.bounds.ramSize ∧ t.address = e.machine.ip ∧
      e.after.machine = t.effect.replay e.machine ∧ ∃ op,
        e.machine.instruction.opcode = .known op ∧
        e.machine.effect? op e.machine.instruction.operand = some t.effect := by
  rcases e.running_or_stopped with running | ended
  · have move := Move.of_sound sound running
    rw [after]
    generalize e.step = r at move left
    cases move with
    | outside | cut | illegal | halt => cases left
    | act here free op named f does =>
      obtain rfl := Except.ok.inj (Option.some.inj left)
      exact ⟨running, here, rfl, rfl, op, named, does⟩
  · rw [step_of_stopped ended] at left
    cases left

theorem fetching_of_record {e : Execution} {b : Bounds} (sound : e.machine.Sound b) {t : Trace}
    (left : e.step.2 = some (.ok t)) : e.fetching = true := by
  obtain ⟨running, here, -⟩ := act_of_record sound left
  exact fetching_iff.mpr ⟨running, here⟩

theorem stopped_without_fetch {e : Execution} {b : Bounds} (sound : e.machine.Sound b)
    (rest : e.fetching = false) : e.after.stopped = true := by
  cases h : e.after.stopped with
  | true => rfl
  | false =>
    rw [(act_of_running sound h).1] at rest
    cases rest

theorem records_of_running {e : Execution} {b : Bounds} (sound : e.machine.Sound b) {n : Nat}
    (going : (e.later n).stopped = false) :
    e.fetches n = n ∧ ∃ ts : List Trace, ts.length = n ∧
      e.answers n = ts.map fun t => some (.ok t) := by
  induction n generalizing e with
  | zero => exact ⟨rfl, [], rfl, rfl⟩
  | succ n ih =>
    have first : e.after.stopped = false := by
      cases h : e.after.stopped with
      | false => rfl
      | true =>
        have stuck : e.later (n + 1) = e.after := later_of_stopped h n
        rw [stuck, h] at going
        cases going
    obtain ⟨fetched, t, answered⟩ := act_of_running sound first
    obtain ⟨counted, ts, length, rest⟩ := ih (after_sound sound) going
    refine ⟨?_, t :: ts, ?_, ?_⟩
    · rw [fetches, counted, fetched, if_pos rfl, Nat.add_comm]
    · rw [List.length_cons, length]
    · rw [answers, answered, rest, List.map_cons]

theorem fetches_of_fetching {e : Execution} {b : Bounds} (sound : e.machine.Sound b) {k : Nat}
    (fetch : (e.later k).fetching = true) : e.fetches (k + 1) = k + 1 := by
  have going := not_stopped_iff.mpr (fetching_iff.mp fetch).1
  have last : e.fetches (k + 1) = e.fetches k + if (e.later k).fetching then 1 else 0 :=
    fetches_add k 1 e
  rw [last, fetch, if_pos rfl, (records_of_running sound going).1]

end AccMachine.Execution

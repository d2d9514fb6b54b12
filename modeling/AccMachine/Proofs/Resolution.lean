import AccMachine.Proofs.Endless
import AccMachine.Proofs.Tallies

/-!
Sweeps under a higher limit. It only decides how machines end that the lower limit cut off; all
others end as before and leave the same memory.
-/
namespace AccMachine.Sweep

section

variable {m : Memory} (h : m.WellFormed) {l l' : UInt64} (le : l ≤ l')
include h le

/-- A run under the lower limit is the run under the higher one, or it was cut off and the higher
limit lets it fetch at least as often. -/
theorem alone_cases : alone l m = (alone l' m).withLimit (some l) ∨
    (alone l m).status = .failed (.operationLimitExceeded l) ∧
      (alone l m).operations ≤ (alone l' m).operations := by
  have longer : ∀ k ∈ some l', l ≤ k := by
    intro k same
    exact Option.some.inj same ▸ le
  have last := (Execution.execute_limited h l).2
  cases fetch : ((Execution.start m (some l')).later (max l.toNat 1 - 1)).fetching with
  | false =>
    obtain ⟨same, -, natural⟩ := Execution.agree_without_fetch h longer fetch
    left
    rw [alone_eq_later h l' (Execution.stopped_of_natural natural), ← same]
    exact last
  | true =>
    right
    have cut : alone l m = _ := last.trans (Execution.exceed_with_fetch h longer fetch).1
    refine ⟨by rw [cut]; rfl, ?_⟩
    have most : max l.toNat 1 ≤ (alone l' m).operations.toNat := by
      have limited := Execution.execute_limited h l'
      have many : max l.toNat 1 ≤ max l'.toNat 1 := by
        have leNat := UInt64.le_iff_toNat_le.mp le
        omega
      obtain ⟨k, positive⟩ := Execution.last_fetch l
      rw [positive, Nat.add_sub_cancel] at fetch
      rw [alone_operations h l' limited.1, positive,
        ← Execution.fetches_of_fetching (Execution.start_sound h _) fetch, ← positive]
      exact Execution.fetches_mono many _
    rw [UInt64.le_iff_toNat_le, cut]
    exact (Execution.toNat_max_one l).trans_le most

theorem alone_operations_mono : (alone l m).operations ≤ (alone l' m).operations := by
  rcases alone_cases h le with same | ⟨-, fewer⟩
  · rw [same]
    exact UInt64.le_refl _
  · exact fewer

theorem ending_mono {w : Ending} (decided : w ≠ .operationLimit)
    (ends : (alone l m).status.ending? = some w) : (alone l' m).status.ending? = some w := by
  rcases alone_cases h le with same | ⟨cut, -⟩
  · rwa [same] at ends
  · rw [cut] at ends
    exact absurd (Option.some.inj ends).symm decided

theorem operationLimit_anti (ends : (alone l' m).status.ending? = some .operationLimit) :
    (alone l m).status.ending? = some .operationLimit := by
  rcases alone_cases h le with same | ⟨cut, -⟩
  · rwa [same]
  · rw [cut]
    rfl

end

def fetched (l : UInt64) (ms : List Memory) : Nat :=
  (ms.map fun m => (alone l m).operations.toNat).sum

/-- What the limit `l'` makes of the memories `ms` where `l` is no higher. The counter of all
fetches says nothing once they have no room in it. -/
structure Resolved (l l' : UInt64) (ms : List Memory) : Prop where
  halted_le : (run l ms).2.halted ≤ (run l' ms).2.halted
  outOfBounds_le : (run l ms).2.outOfBounds ≤ (run l' ms).2.outOfBounds
  illegalInstruction_le : (run l ms).2.illegalInstruction ≤ (run l' ms).2.illegalInstruction
  operationLimit_le : (run l' ms).2.operationLimit ≤ (run l ms).2.operationLimit
  fetched_le : fetched l ms ≤ fetched l' ms
  operations_le : fetched l' ms < 2 ^ 64 → (run l ms).2.operations ≤ (run l' ms).2.operations
  total_eq : (run l ms).2.total = (run l' ms).2.total
  decided : ∀ (i : Nat) (m : Memory), ms[i]? = some m →
    (alone l m).status.ending? ≠ some .operationLimit →
    (alone l' m).result? = (alone l m).result? ∧ (run l ms).1[i]? = some (spent l m) ∧
      (run l' ms).1[i]? = some (spent l m)

theorem count_le {ms : List Memory} {l l' : UInt64} {w : Ending}
    (also : ∀ m ∈ ms, (alone l m).status.ending? = some w → (alone l' m).status.ending? = some w) :
    (run l ms).2.count w ≤ (run l' ms).2.count w := by
  simp only [run_eq, Tally.count_ofExecutions, endings, List.countP_map]
  apply List.countP_mono_left
  intro m member ends
  simp only [Function.comp_apply, decide_eq_true_eq] at ends ⊢
  exact also m member ends

section

variable {ms : List Memory} (h : ∀ m ∈ ms, m.WellFormed) {l l' : UInt64} (le : l ≤ l')
include h le

theorem endings_le {w : Ending} (decided : w ≠ .operationLimit) :
    (run l ms).2.count w ≤ (run l' ms).2.count w :=
  count_le fun m member => ending_mono (h m member) le decided

theorem limited_endings_le :
    (run l' ms).2.count .operationLimit ≤ (run l ms).2.count .operationLimit :=
  count_le fun m member => operationLimit_anti (h m member) le

theorem fetched_mono : fetched l ms ≤ fetched l' ms := by
  apply List.sum_le_sum
  intro m member
  exact UInt64.le_iff_toNat_le.mp (alone_operations_mono (h m member) le)

end

theorem alone_operations_of_going {m : Memory} (h : m.WellFormed)
    (going : ∀ n, ((Execution.start m none).later n).stopped = false) (l : UInt64) :
    (alone l m).operations = max l 1 := by
  rw [alone, (Execution.execute_limited h l).2, Execution.exceeding_of_going h going l]
  rfl

/-- A higher limit resolves machines and changes nothing else. -/
theorem higher_limits_resolve {ms : List Memory} (h : ∀ m ∈ ms, m.WellFormed) {l l' : UInt64}
    (le : l ≤ l') : Resolved l l' ms := by
  have tallied := tallied_run h l
  have tallied' := tallied_run h l'
  have fetches := fetched_mono h le
  constructor
  case halted_le => exact endings_le h le (w := .halted) (by decide)
  case outOfBounds_le => exact endings_le h le (w := .outOfBounds) (by decide)
  case illegalInstruction_le => exact endings_le h le (w := .illegalInstruction) (by decide)
  case operationLimit_le => exact limited_endings_le h le
  case fetched_le => exact fetches
  case operations_le =>
    intro room
    rw [UInt64.le_iff_toNat_le, tallied.operations_eq (Nat.lt_of_le_of_lt fetches room),
      tallied'.operations_eq room]
    exact fetches
  case total_eq => rw [tallied.total_eq, tallied'.total_eq]
  case decided =>
    intro i m there decided
    rcases alone_cases (h m (List.mem_of_getElem? there)) le with same | ⟨cut, -⟩
    · have spentAlike : spent l' m = spent l m := by
        rw [spent, spent, same]
        rfl
      have resultAlike : (alone l' m).result? = (alone l m).result? := by
        rw [same]
        rfl
      rw [tallied.left i m there, tallied'.left i m there, spentAlike]
      exact ⟨resultAlike, rfl, rfl⟩
    · rw [cut] at decided
      exact absurd rfl decided

theorem higher_limits_resolve_overrun :
    let ms : List Memory := [⟨⟨1, 10⟩, #[5]⟩, ⟨⟨1, 10⟩, #[0]⟩]
    (∀ m ∈ ms, m.WellFormed) ∧ (1 : UInt64) ≤ 3 ∧ Resolved 1 3 ms ∧
      (run 1 ms).2 = { operationLimit := 2, operations := 2 } ∧
      (run 3 ms).2 = { outOfBounds := 1, operationLimit := 1, operations := 4 } := by
  intro ms
  have wellFormed : ∀ m ∈ ms, m.WellFormed :=
    List.forall_mem_cons.mpr ⟨⟨rfl, by simp⟩, List.forall_mem_singleton.mpr ⟨rfl, by simp⟩⟩
  have le : (1 : UInt64) ≤ 3 := by decide
  exact ⟨wellFormed, le, higher_limits_resolve wellFormed le, by decide, by decide⟩

/-- Two machines that jump in place fetch so often under the higher limit that the counter of all
fetches comes round to zero. -/
theorem higher_limit_reports_fewer_fetches :
    let ms : List Memory := [⟨⟨1, 10⟩, #[5]⟩, ⟨⟨1, 10⟩, #[5]⟩]
    (∀ m ∈ ms, m.WellFormed) ∧ (1 : UInt64) ≤ 0x8000000000000000 ∧
      (run 1 ms).2.operations = 2 ∧ (run 0x8000000000000000 ms).2.operations = 0 ∧
      ¬ (run 1 ms).2.operations ≤ (run 0x8000000000000000 ms).2.operations := by
  intro ms
  have wellFormed : Memory.WellFormed ⟨⟨1, 10⟩, #[5]⟩ := ⟨rfl, by simp⟩
  have going := Execution.going_of_revisit (Execution.start_sound wellFormed none) rfl
    (Nat.lt_succ_self 0) (by decide) (by decide)
  have counted : ∀ l, (run l ms).2.operations = .ofNat ((max l 1).toNat + (max l 1).toNat) := by
    intro l
    rw [run_operations]
    simp only [ms, List.map_cons, List.map_nil, List.sum_cons, List.sum_nil, Nat.add_zero,
      alone_operations_of_going wellFormed going]
  have two : (run 1 ms).2.operations = 2 := (counted 1).trans (by decide)
  have wrapped : (run 0x8000000000000000 ms).2.operations = 0 := (counted _).trans (by decide)
  refine ⟨List.forall_mem_cons.mpr ⟨wellFormed, List.forall_mem_singleton.mpr wellFormed⟩,
    by decide, two, wrapped, ?_⟩
  rw [two, wrapped]
  decide

end AccMachine.Sweep

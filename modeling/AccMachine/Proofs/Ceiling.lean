import AccMachine.Proofs.Fetches

/-!
Runs under a limit. A limited run is a longer run cut off: it agrees with it up to the fetch that
reaches the limit, and that fetch takes no effect.
-/
namespace AccMachine

def Status.Natural : Status → Prop
  | .halted => True
  | .failed (.illegalInstruction ..) => True
  | .failed (.outOfBounds what _ _) => what = "instruction pointer"
  | _ => False

namespace Execution

/-- The execution stopped at the limit `l`, on a fetch without effect. -/
def exceeding (e : Execution) (l : UInt64) : Execution :=
  { e with limit := some l, operations := max l 1, status := .failed (.operationLimitExceeded l) }

theorem stopped_of_natural {e : Execution} (natural : e.status.Natural) : e.stopped = true := by
  rcases e.running_or_stopped with running | ended
  · rw [running] at natural
    cases natural
  · exact ended

theorem answers_of_stopped {e : Execution} (h : e.stopped = true) (n : Nat) :
    e.answers n = List.replicate n none := by
  induction n with
  | zero => rfl
  | succ n ih =>
    rw [answers, after_of_stopped e h, ih, step_of_stopped h]
    rfl

theorem reachedLimit?_eq_none {l n : UInt64} (below : n < l) :
    reachedLimit? (some l) n = none := by
  simp [reachedLimit?, Option.filter, UInt64.not_le.mpr below]

theorem reachedLimit?_eq_some {l n : UInt64} (le : l ≤ n) :
    reachedLimit? (some l) n = some l := by
  simp [reachedLimit?, Option.filter, le]

theorem reachedLimit?_none_of_longer {l n : UInt64} {longer : Option UInt64} (below : n < l)
    (le : ∀ l' ∈ longer, l ≤ l') : reachedLimit? longer n = none := by
  cases longer with
  | none => rfl
  | some l' => exact reachedLimit?_eq_none (UInt64.lt_of_lt_of_le below (le l' rfl))

theorem Move.natural {e : Execution} {r : Execution × Option (Except Fault Trace)}
    (move : e.Move r) (running : e.status = .running)
    (free : e.fetching = true → reachedLimit? e.limit (e.operations + 1) = none)
    (ended : r.1.stopped = true) : r.1.status.Natural := by
  cases move with
  | outside => rfl
  | cut here l reached =>
    have unreached := free (fetching_iff.mpr ⟨running, here⟩)
    simp [reached] at unreached
  | illegal | halt => trivial
  | act =>
    have going : e.stopped = false := not_stopped_iff.mpr running
    exact absurd ended (by simpa [stopped, counted] using going)

theorem step_with_limit {e : Execution} {b : Bounds} (sound : e.machine.Sound b)
    {limit : Option UInt64}
    (free : e.fetching = true → reachedLimit? e.limit (e.operations + 1) = none ∧
      reachedLimit? limit (e.operations + 1) = none) :
    (e.withLimit limit).step = (e.after.withLimit limit, e.step.2) := by
  rcases e.running_or_stopped with running | ended
  · apply (Move.of_sound (e := e.withLimit limit) sound running).unique
    apply (Move.of_sound sound running).with_limit
    intro here
    exact free (fetching_iff.mpr ⟨running, here⟩)
  · rw [after_of_stopped e ended, step_of_stopped ended]
    exact step_of_stopped (e := e.withLimit limit) ended

theorem toNat_max_one (l : UInt64) : (max l 1).toNat = max l.toNat 1 := by
  have one : (1 : UInt64).toNat = 1 := rfl
  by_cases le : l ≤ 1
  · have leNat := UInt64.le_iff_toNat_le.mp le
    rw [show max l 1 = 1 from if_pos le]
    omega
  · have leNat : ¬ l.toNat ≤ 1 := fun h => le (UInt64.le_iff_toNat_le.mpr h)
    rw [show max l 1 = l from if_neg le]
    omega

theorem last_fetch (l : UInt64) : ∃ k, max l.toNat 1 = k + 1 :=
  ⟨max l.toNat 1 - 1, by omega⟩

section

variable {m : Memory} (h : m.WellFormed)
include h

theorem start_operations (limit : Option UInt64) (n : Nat) :
    ((start m limit).later n).operations = UInt64.ofNat ((start m limit).fetches n) := by
  have counted := later_operations (start_sound h limit) n
  rw [counted]
  exact UInt64.zero_add _

theorem start_operations_toNat {limit : Option UInt64} {n : Nat}
    (small : (start m limit).fetches n < 2 ^ 64) :
    ((start m limit).later n).operations.toNat = (start m limit).fetches n := by
  rw [start_operations h, UInt64.toNat_ofNat']
  exact Nat.mod_eq_of_lt small

theorem next_operation {limit : Option UInt64} {k : Nat}
    (going : ((start m limit).later k).stopped = false) (small : k + 1 < 2 ^ 64) :
    (((start m limit).later k).operations + 1).toNat = k + 1 := by
  have one : (1 : UInt64).toNat = 1 := rfl
  have fetched := (records_of_running (start_sound h limit) going).1
  have counts : ((start m limit).later k).operations.toNat = k := by
    rw [start_operations_toNat h (by omega), fetched]
  rw [UInt64.toNat_add]
  omega

variable {l : UInt64} {long : Option UInt64} (longer : ∀ l' ∈ long, l ≤ l')
include longer

theorem unreached_below {k : Nat} (going : ((start m long).later k).stopped = false)
    (below : k + 1 < max l.toNat 1) :
    reachedLimit? ((start m long).later k).limit (((start m long).later k).operations + 1) = none ∧
      reachedLimit? (some l) (((start m long).later k).operations + 1) = none := by
  have bounded := l.toNat_lt
  have near : ((start m long).later k).operations + 1 < l := by
    rw [UInt64.lt_iff_toNat_lt, next_operation h going (by omega)]
    omega
  rw [later_limit (start_sound h long) k]
  exact ⟨reachedLimit?_none_of_longer near longer, reachedLimit?_eq_none near⟩

theorem agree_until_reached {k : Nat}
    (below : ∀ j < k, ((start m long).later j).fetching = true → j + 1 < max l.toNat 1) :
    (start m (some l)).later k = ((start m long).later k).withLimit (some l) ∧
      (start m (some l)).answers k = (start m long).answers k ∧
      (((start m long).later k).stopped = true → ((start m long).later k).status.Natural) := by
  induction k with
  | zero => exact ⟨rfl, rfl, nofun⟩
  | succ k ih =>
    obtain ⟨same, answered, natural⟩ := ih fun j lt => below j (Nat.lt_succ_of_lt lt)
    have sound := later_sound (start_sound h long) k
    have free := fun fetch => unreached_below h longer
      (not_stopped_iff.mpr (fetching_iff.mp fetch).1) (below k (Nat.lt_succ_self k) fetch)
    have step := step_with_limit sound free
    rw [later_succ, later_succ, answers_succ, answers_succ, same, answered]
    refine ⟨?_, ?_, ?_⟩
    · rw [after, step]
    · rw [step]
    · intro ended
      rcases ((start m long).later k).running_or_stopped with running | before
      · exact (Move.of_sound sound running).natural running (fun fetch => (free fetch).1) ended
      · rw [after_of_stopped _ before]
        exact natural before

theorem agree_without_fetch
    (rest : ((start m long).later (max l.toNat 1 - 1)).fetching = false) :
    (start m (some l)).later (max l.toNat 1) =
        ((start m long).later (max l.toNat 1)).withLimit (some l) ∧
      (start m (some l)).answers (max l.toNat 1) = (start m long).answers (max l.toNat 1) ∧
      ((start m long).later (max l.toNat 1)).status.Natural := by
  have ended : ((start m long).later (max l.toNat 1)).stopped = true := by
    obtain ⟨k, cut⟩ := last_fetch l
    rw [cut, Nat.add_sub_cancel] at rest
    rw [cut, later_succ]
    exact stopped_without_fetch (later_sound (start_sound h long) k) rest
  obtain ⟨same, answered, natural⟩ := agree_until_reached h longer (k := max l.toNat 1) (by
    intro j lt fetch
    by_cases last : j = max l.toNat 1 - 1
    · rw [last, rest] at fetch
      cases fetch
    · omega)
  exact ⟨same, answered, natural ended⟩

theorem exceed_with_fetch
    (fetch : ((start m long).later (max l.toNat 1 - 1)).fetching = true) :
    (start m (some l)).later (max l.toNat 1) =
        ((start m long).later (max l.toNat 1 - 1)).exceeding l ∧
      ∃ ts : List Trace, ts.length = max l.toNat 1 - 1 ∧
        (start m long).answers (max l.toNat 1 - 1) = ts.map (fun t => some (.ok t)) ∧
        (start m (some l)).answers (max l.toNat 1) =
          ts.map (fun t => some (.ok t)) ++ [some (.error (.operationLimitExceeded l))] := by
  obtain ⟨k, cut⟩ := last_fetch l
  have bounded := l.toNat_lt
  obtain ⟨same, answered, -⟩ := agree_until_reached h longer (k := k) (by
    intro j lt _
    omega)
  rw [cut, Nat.add_sub_cancel] at fetch ⊢
  obtain ⟨running, here⟩ := fetching_iff.mp fetch
  have going := not_stopped_iff.mpr running
  have sound := later_sound (start_sound h long) k
  obtain ⟨-, ts, length, records⟩ := records_of_running (start_sound h long) going
  have counted : ((start m long).later k).operations + 1 = max l 1 := by
    rw [← UInt64.toNat_inj, toNat_max_one, next_operation h going (by omega), cut]
  have reached : reachedLimit? (some l) (((start m long).later k).operations + 1) = some l := by
    rw [counted]
    exact reachedLimit?_eq_some (by rw [UInt64.le_iff_toNat_le, toNat_max_one]; omega)
  have cutting := Move.cut (e := ((start m long).later k).withLimit (some l)) here l reached
  have step := (Move.of_sound (e := ((start m long).later k).withLimit (some l)) sound
    running).unique cutting
  rw [later_succ, answers_succ, same, answered, records]
  refine ⟨?_, ts, length, rfl, ?_⟩
  · rw [after, step, exceeding, ← counted]
    rfl
  · rw [step]
    rfl

theorem limited_stops : ((start m (some l)).later (max l.toNat 1)).stopped = true := by
  cases fetch : ((start m long).later (max l.toNat 1 - 1)).fetching with
  | false =>
    obtain ⟨same, -, natural⟩ := agree_without_fetch h longer fetch
    rw [same]
    exact stopped_of_natural natural
  | true =>
    rw [(exceed_with_fetch h longer fetch).1]
    rfl

end

theorem execute_eq_later {m : Memory} {limit : Option UInt64} {n : Nat}
    (ended : ((start m limit).later n).stopped = true) (soon : n < 2 ^ 64) :
    execute m limit = (start m limit).later n := by
  have wide := two_pow_64_le_stateBits (start m limit)
  exact run_eq_later ended (by omega)

theorem execute_limited {m : Memory} (h : m.WellFormed) (l : UInt64) :
    ((start m (some l)).later (max l.toNat 1)).stopped = true ∧
      execute m (some l) = (start m (some l)).later (max l.toNat 1) := by
  have own : ∀ l' ∈ some l, l ≤ l' := by
    rintro l' ⟨⟩
    exact UInt64.le_refl l
  have bounded : max l.toNat 1 < 2 ^ 64 := by
    have := l.toNat_lt
    omega
  have ended := limited_stops h own
  exact ⟨ended, execute_eq_later ended bounded⟩

theorem limited_fetches {m : Memory} (h : m.WellFormed) (l : UInt64) (k : Nat) :
    (start m (some l)).fetches k ≤ max l.toNat 1 := by
  have ended := (execute_limited h l).1
  have bound := fetches_le (max l.toNat 1) (start m (some l))
  rcases Nat.le_total k (max l.toNat 1) with early | late
  · exact Nat.le_trans (fetches_le k _) early
  · obtain ⟨d, rfl⟩ := Nat.exists_eq_add_of_le late
    rw [fetches_add, fetches_of_stopped ended]
    exact bound

end Execution
end AccMachine

import AccMachine.Proofs.Ceiling

/-!
The records of a run are its log. Without a look at the cells, their effects alone give the address
of every instruction that was executed and the machine that is left.
-/
namespace AccMachine

def Machine.replayed (m : Machine) (ts : List Trace) : Machine :=
  ts.foldl (fun m t => t.effect.replay m) m

theorem Machine.replayed_append (m : Machine) (ts us : List Trace) :
    m.replayed (ts ++ us) = (m.replayed ts).replayed us := List.foldl_append

theorem getElem?_snoc {α : Type} {xs : List α} {x y : α} {i : Nat}
    (found : (xs ++ [x])[i]? = some y) :
    i < xs.length ∧ xs[i]? = some y ∨ i = xs.length ∧ y = x := by
  rcases Nat.lt_or_ge i xs.length with old | new
  · rw [List.getElem?_append_left old] at found
    exact .inl ⟨old, found⟩
  · rw [List.getElem?_append_right new, List.getElem?_singleton] at found
    split at found
    · exact .inr ⟨by omega, (Option.some.inj found).symm⟩
    · cases found

def Status.unrecorded : Status → Nat
  | .running => 0
  | .failed (.outOfBounds _ _ _) => 0
  | .failed _ => 1
  | .halted => 1

namespace Execution

def record? : Option (Except Fault Trace) → Option Trace
  | some (.ok t) => some t
  | _ => none

def records (n : Nat) (e : Execution) : List Trace := (e.answers n).filterMap record?

theorem records_succ (n : Nat) (e : Execution) :
    e.records (n + 1) = e.records n ++ (record? (e.later n).step.2).toList := by
  rw [records, answers_succ, List.filterMap_append, records]
  cases h : record? (e.later n).step.2 <;> simp [h]

theorem Move.recorded {e : Execution} (running : e.status = .running)
    {r : Execution × Option (Except Fault Trace)} (move : e.Move r) :
    (record? r.2).toList.length + r.1.status.unrecorded = if e.fetching then 1 else 0 := by
  cases move with
  | outside out =>
    simp [fetching_iff, UInt64.not_lt.mpr out, failing, record?, Status.unrecorded]
  | cut here | illegal here | halt here | act here =>
    simp [fetching_iff, running, here, failing, counted, record?, Status.unrecorded]

theorem records_length {e : Execution} {b : Bounds} (sound : e.machine.Sound b)
    (running : e.status = .running) (n : Nat) :
    (e.records n).length + (e.later n).status.unrecorded = e.fetches n := by
  induction n with
  | zero => simp [records, answers, running, Status.unrecorded, fetches]
  | succ n ih =>
    have last : e.fetches (n + 1) = e.fetches n + if (e.later n).fetching then 1 else 0 :=
      fetches_add n 1 e
    rw [records_succ, List.length_append, later_succ, last, ← ih, after]
    rcases (e.later n).running_or_stopped with going | ended
    · rw [Nat.add_assoc, (Move.of_sound (later_sound sound n) going).recorded going, going]
      rfl
    · simp [step_of_stopped ended, record?, fetching, ended]

theorem Move.halts {e : Execution} (running : e.status = .running)
    {r : Execution × Option (Except Fault Trace)} (move : e.Move r)
    (halted : r.1.status = .halted) :
    r.1.machine = e.machine ∧ e.machine.ip < e.machine.bounds.ramSize ∧
      e.machine.instruction.opcode = .known .hlt := by
  cases move with
  | outside | cut | illegal => cases halted
  | halt here free named => exact ⟨rfl, here, named⟩
  | act =>
    have kept : e.status = .halted := halted
    rw [running] at kept
    cases kept

/-- The records `ts` account for the execution `e` that a start on the memory `m` has led to. -/
structure Logged (m : Memory) (ts : List Trace) (e : Execution) : Prop where
  operation_eq : ∀ (i : Nat) (t : Trace), ts[i]? = some t → t.operation = .ofNat (i + 1)
  address_eq : ∀ (i : Nat) (t : Trace), ts[i]? = some t →
    t.address = (Machine.replayed { memory := m } (ts.take i)).ip
  machine_eq : e.machine = Machine.replayed { memory := m } ts

namespace Logged

variable {m : Memory} {ts : List Trace} {e : Execution}

theorem start (m : Memory) (limit : Option UInt64) : Logged m [] (start m limit) :=
  ⟨nofun, nofun, rfl⟩

theorem without_record (log : Logged m ts e) {e' : Execution} (same : e'.machine = e.machine) :
    Logged m (ts ++ []) e' := by
  rw [List.append_nil]
  exact { log with machine_eq := same.trans log.machine_eq }

theorem with_record (log : Logged m ts e) (count : e.operations = .ofNat ts.length)
    (f : Effect) : Logged m (ts ++ [⟨e.machine.ip, e.operations + 1, f⟩])
      { e.counted with machine := f.replay e.machine } where
  operation_eq := by
    intro i t found
    rcases getElem?_snoc found with ⟨-, old⟩ | ⟨rfl, rfl⟩
    · exact log.operation_eq i t old
    · rw [count, UInt64.ofNat_add]
      rfl
  address_eq := by
    intro i t found
    rcases getElem?_snoc found with ⟨lt, old⟩ | ⟨rfl, rfl⟩
    · rw [List.take_append_of_le_length (Nat.le_of_lt lt)]
      exact log.address_eq i t old
    · rw [List.take_left, ← log.machine_eq]
  machine_eq := by
    rw [Machine.replayed_append, ← log.machine_eq]
    rfl

theorem step (log : Logged m ts e) (count : e.operations = .ofNat ts.length)
    {r : Execution × Option (Except Fault Trace)} (move : e.Move r) :
    Logged m (ts ++ (record? r.2).toList) r.1 := by
  cases move with
  | outside | cut | illegal | halt => exact log.without_record rfl
  | act here free op named f does => exact log.with_record count f

end Logged

section

variable {m : Memory} (h : m.WellFormed) (limit : Option UInt64) (k : Nat)
include h

theorem recorded_operations : ((start m limit).later k).operations =
    .ofNat (((start m limit).records k).length + ((start m limit).later k).status.unrecorded) := by
  rw [start_operations h, records_length (start_sound h limit) rfl]

theorem logged_later : Logged m ((start m limit).records k) ((start m limit).later k) := by
  induction k with
  | zero => exact .start m limit
  | succ k log =>
    have sound := later_sound (start_sound h limit) k
    rw [records_succ, later_succ, after]
    rcases ((start m limit).later k).running_or_stopped with running | ended
    · have count := recorded_operations h limit k
      rw [running] at count
      exact log.step count (Move.of_sound sound running)
    · rw [step_of_stopped ended]
      exact log.without_record rfl

theorem halted_on_halt (halted : ((start m limit).later k).status = .halted) :
    ∃ code operand,
      ((start m limit).later k).machine.memory.read ((start m limit).later k).machine.ip =
        .ok code ∧
      Instruction.decode m.bounds (Word.signed code) = .ok ⟨.known .hlt, operand⟩ := by
  have ended : ((start m limit).later k).stopped = true := by rw [stopped, halted]
  obtain ⟨j, -, going, same⟩ := stops_at rfl ended
  have sound := later_sound (start_sound h limit) j
  have running := not_stopped_iff.mp going
  rw [same, later_succ] at halted ⊢
  obtain ⟨unchanged, here, named⟩ := (Move.of_sound sound running).halts running halted
  have decoded := decode_cell sound.wellFormed here
  rw [sound.bounds_eq] at decoded
  refine ⟨((start m limit).later j).machine.memory.get ((start m limit).later j).machine.ip,
    ((start m limit).later j).machine.instruction.operand, ?_, ?_⟩
  · rw [after, unchanged]
    exact Memory.read_inside sound.wellFormed here
  · rw [decoded, ← named]

end

theorem fetches_fit {m : Memory} (h : m.WellFormed) {limit : Option UInt64} {k : Nat}
    (room : limit.isSome = true ∨ k < 2 ^ 64) : (start m limit).fetches k < 2 ^ 64 := by
  rcases room with limited | short
  · obtain ⟨l, rfl⟩ := Option.isSome_iff_exists.mp limited
    have few := limited_fetches h l k
    have bounded := l.toNat_lt
    omega
  · exact Nat.lt_of_le_of_lt (fetches_le k _) short

/-- The records of any number of steps are numbered without a gap, and their effects alone give
each address and what is left in the end, also of a run that has stopped: the step that stopped it
changed nothing. The counter is the number of records, and one more behind a fetch that left none. -/
theorem trace_is_complete_log {m : Memory} (h : m.WellFormed) (limit : Option UInt64) (k : Nat) :
    let e := (start m limit).later k
    let ts := (start m limit).records k
    Logged m ts e ∧ (∀ t, ts.head? = some t → t.address = 0) ∧
      e.operations = .ofNat (ts.length + e.status.unrecorded) ∧
      (e.status = .halted → ∃ code operand, e.machine.memory.read e.machine.ip = .ok code ∧
        Instruction.decode m.bounds (Word.signed code) = .ok ⟨.known .hlt, operand⟩) ∧
      (limit.isSome = true ∨ k < 2 ^ 64 →
        (∀ (i : Nat) (t : Trace), ts[i]? = some t → t.operation.toNat = i + 1) ∧
          e.operations.toNat = ts.length + e.status.unrecorded) := by
  intro e ts
  have log : Logged m ts e := logged_later h limit k
  have count : ts.length + e.status.unrecorded = _ := records_length (start_sound h limit) rfl k
  refine ⟨log, ?_, recorded_operations h limit k, halted_on_halt h limit k, ?_⟩
  · intro t first
    rw [List.head?_eq_getElem?] at first
    exact log.address_eq 0 t first
  · intro room
    have fit := fetches_fit h room
    refine ⟨?_, ?_⟩
    · intro i t found
      have lt := (List.getElem?_eq_some_iff.mp found).1
      rw [log.operation_eq i t found, UInt64.toNat_ofNat']
      exact Nat.mod_eq_of_lt (by omega)
    · rw [count]
      exact start_operations_toNat h fit

theorem trace_is_complete_log_at_skip :
    let m : Memory := ⟨⟨10, 199⟩, #[89, 69, 50, 100, 0, 0, 0, 0, 0, 1]⟩
    let e := (start m none).later 4
    let ts := (start m none).records 4
    m.WellFormed ∧ ts = [⟨0, 1, .dec 9 0⟩, ⟨1, 2, .tst 9 0 true⟩] ∧ e.status = .halted ∧
      Logged m ts e ∧ e.operations.toNat = 3 := by
  intro m e ts
  have wellFormed : m.WellFormed := ⟨rfl, by simp [m]⟩
  have found : ts = [⟨0, 1, .dec 9 0⟩, ⟨1, 2, .tst 9 0 true⟩] := by decide
  have halted : e.status = .halted := by decide
  obtain ⟨log, -, -, -, exact⟩ := trace_is_complete_log wellFormed none 4
  have count : e.operations.toNat = ts.length + e.status.unrecorded :=
    (exact (.inr (by decide))).2
  rw [found, halted] at count
  exact ⟨wellFormed, found, halted, log, count⟩

end Execution
end AccMachine

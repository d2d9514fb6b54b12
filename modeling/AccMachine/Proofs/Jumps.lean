import Mathlib.Data.List.Chain
import AccMachine.Proofs.Coding
import AccMachine.Proofs.Drivers

/-!
What can keep a machine running. Every operation but a jump moves the pointer forward, so a run goes
on only by jumping back, whatever it does to its own cells.
-/
namespace AccMachine

/-- The record of a jump to its own cell or to one before it. -/
def Trace.JumpsBack (t : Trace) : Prop :=
  ∃ target, t.effect = .jmp target ∧ target ≤ t.address

def Trace.Precedes (t u : Trace) : Prop := t.JumpsBack ∨ t.address < u.address

namespace Machine

theorem number_mul_lt {m : Machine} {op : Mnemonic} (named : m.instruction.opcode = .known op) :
    op.number.toNat * m.bounds.ramSize.toNat < 2 ^ 32 := by
  have whole := Instruction.number_split m.bounds.ramSize (m.memory.get m.ip)
  rw [← instruction, named, Opcode.number] at whole
  have word := (m.memory.get m.ip).toNat_lt
  omega

theorem ip_lt_replay {m : Machine} (here : m.ip < m.bounds.ramSize) {op : Mnemonic} {f : Effect}
    (named : m.instruction.opcode = .known op)
    (does : m.effect? op m.instruction.operand = some f)
    (forward : ∀ target, f = .jmp target → m.ip < target) : m.ip < (f.replay m).ip := by
  have near := UInt64.lt_iff_toNat_lt.mp here
  have room := m.bounds.ramSize.toNat_lt
  have next : m.ip < m.ip + 1 := by
    rw [UInt64.lt_iff_toNat_lt, UInt64.toNat_add, UInt64.toNat_one]
    omega
  cases op with
  | hlt => cases does
  | noop | take | add | sub | save | inc | dec | null =>
    obtain rfl := Option.some.inj does
    exact next
  | jmp =>
    obtain rfl := Option.some.inj does
    exact forward _ rfl
  | tst =>
    obtain rfl := Option.some.inj does
    have few : 6 * m.bounds.ramSize.toNat < 2 ^ 32 := number_mul_lt named
    have two : (2 : Address).toNat = 2 := rfl
    have skip : m.ip < m.ip + 2 := by
      rw [UInt64.lt_iff_toNat_lt, UInt64.toNat_add, two]
      omega
    simp only [Effect.replay, advance]
    split
    · exact skip
    · exact next

end Machine

namespace Execution

variable {e : Execution} {b : Bounds}

theorem record_advances (sound : e.machine.Sound b) {t : Trace} (left : e.step.2 = some (.ok t)) :
    t.address = e.machine.ip ∧ t.address < b.ramSize ∧
      (t.JumpsBack ∨ t.address < e.after.machine.ip) := by
  obtain ⟨-, here, address, moved, op, named, does⟩ := act_of_record sound left
  rw [address, moved]
  refine ⟨rfl, sound.bounds_eq ▸ here, ?_⟩
  by_cases forward : ∀ target, t.effect = .jmp target → e.machine.ip < target
  · exact .inr (Machine.ip_lt_replay here named does forward)
  · obtain ⟨target, back⟩ := Classical.not_forall.mp forward
    obtain ⟨jump, near⟩ := Classical.not_imp.mp back
    exact .inl ⟨target, jump, address ▸ UInt64.not_lt.mp near⟩

theorem head_records (sound : e.machine.Sound b) {k : Nat} {t : Trace}
    (first : t ∈ (e.records k).head?) : t.address = e.machine.ip := by
  cases k with
  | zero => cases first
  | succ k =>
    rcases records_cases sound k with ⟨u, left, records⟩ | empty
    · rw [records] at first
      obtain rfl := Option.some.inj first
      exact (record_advances sound left).1
    · rw [empty] at first
      cases first

theorem address_lt_of_mem_records (sound : e.machine.Sound b) {k : Nat} {t : Trace}
    (member : t ∈ e.records k) : t.address < b.ramSize :=
  forall_mem_records sound (fun _ sound _ left => (record_advances sound left).2.1) k t member

theorem isChain_records (sound : e.machine.Sound b) (k : Nat) :
    (e.records k).IsChain Trace.Precedes := by
  induction k generalizing e with
  | zero => exact .nil
  | succ k ih =>
    rcases records_cases sound k with ⟨t, left, records⟩ | empty
    · rw [records]
      refine List.isChain_cons.mpr ⟨?_, ih (after_sound sound)⟩
      intro u next
      rw [Trace.Precedes, head_records (after_sound sound) next]
      exact (record_advances sound left).2.2
    · rw [empty]
      exact .nil

theorem le_address {ts : List Trace} (chain : ts.IsChain Trace.Precedes) (i d : Nat)
    (inside : i + d < ts.length)
    (forward : ∀ j t, i ≤ j → j < i + d → ts[j]? = some t → ¬ t.JumpsBack) :
    d ≤ ts[i + d].address.toNat := by
  induction d with
  | zero => exact Nat.zero_le _
  | succ d ih =>
    have before : i + d < ts.length := by omega
    have climbed := ih before fun j t low high => forward j t low (by omega)
    have last := List.getElem?_eq_getElem before
    rcases List.isChain_iff_getElem.mp chain (i + d) inside with back | lt
    · exact absurd back (forward _ _ (by omega) (by omega) last)
    · have ltNat := UInt64.lt_iff_toNat_lt.mp lt
      exact Nat.le_trans (Nat.succ_le_succ climbed) ltNat

inductive EndsByItself (b : Bounds) (e : Execution) : Prop where
  | halted (status : e.status = .halted)
  | illegal (n : Word) (operand : Address)
      (status : e.status = .failed (.illegalInstruction (.unknown n) operand e.machine.ip))
  | past (status : e.status =
        .failed (.outOfBounds "instruction pointer" e.machine.ip.toInt64 b.ramSize))
      (near : e.machine.ip.toNat = b.ramSize.toNat ∨ e.machine.ip.toNat = b.ramSize.toNat + 1)

theorem Move.endsByItself (sound : e.machine.Sound b) (free : e.limit = none)
    (running : e.status = .running) {r : Execution × Option (Except Fault Trace)}
    (move : e.Move r) (ended : r.1.stopped = true) : EndsByItself b r.1 := by
  cases move with
  | outside out =>
    have near := sound.past out
    rw [sound.bounds_eq]
    exact .past rfl near
  | cut here l reached =>
    rw [free] at reached
    cases reached
  | illegal here _ n unnamed => exact .illegal n _ rfl
  | halt => exact .halted rfl
  | act =>
    have going : e.stopped = false := not_stopped_iff.mpr running
    exact absurd ended (by simpa [stopped, counted] using going)

section

variable {m : Memory} (h : m.WellFormed)
include h

theorem endsByItself_of_stopped {n : Nat} (ended : ((start m none).later n).stopped = true) :
    EndsByItself m.bounds ((start m none).later n) := by
  obtain ⟨k, -, going, same⟩ := stops_at rfl ended
  have sound := later_sound (start_sound h none) k
  have running := not_stopped_iff.mp going
  rw [same, later_succ] at ended ⊢
  exact (Move.of_sound sound running).endsByItself sound (later_limit (start_sound h none) k)
    running ended

theorem exists_jumpsBack (limit : Option UInt64) (k i : Nat)
    (inside : i + m.bounds.ramSize.toNat < ((start m limit).records k).length) :
    ∃ j t, i ≤ j ∧ j < i + m.bounds.ramSize.toNat ∧
      ((start m limit).records k)[j]? = some t ∧ t.JumpsBack := by
  have sound := start_sound h limit
  apply Classical.byContradiction
  intro missing
  have far := le_address (isChain_records sound k) i _ inside fun j t low high found back =>
    missing ⟨j, t, low, high, found, back⟩
  have near := UInt64.lt_iff_toNat_lt.mp (address_lt_of_mem_records sound (List.getElem_mem inside))
  omega

end

/-- Of as many records in a row as there are cells one is a jump back, if there is another record
behind them. So a run without jumps back leaves at most as many records as there are cells, and
without a limit it ends by itself. -/
theorem only_jumping_back_goes_on {m : Memory} (h : m.WellFormed) (limit : Option UInt64) :
    (∀ k i, i + m.bounds.ramSize.toNat < ((start m limit).records k).length →
      ∃ j t, i ≤ j ∧ j < i + m.bounds.ramSize.toNat ∧
        ((start m limit).records k)[j]? = some t ∧ t.JumpsBack) ∧
    ((∀ k, ∀ t ∈ (start m limit).records k,
        ∀ target, t.effect = .jmp target → t.address < target) →
      (∀ k, ((start m limit).records k).length ≤ m.bounds.ramSize.toNat) ∧
      (limit = none → EndsByItself m.bounds (execute m none))) := by
  refine ⟨exists_jumpsBack h limit, fun forward => ?_⟩
  have few : ∀ k, ((start m limit).records k).length ≤ m.bounds.ramSize.toNat := by
    intro k
    apply Nat.le_of_not_lt
    intro many
    obtain ⟨j, t, -, -, found, target, jump, back⟩ := exists_jumpsBack h limit k 0 (by omega)
    have ahead := forward k t (List.mem_of_getElem? found) target jump
    exact absurd back (UInt64.not_le.mpr ahead)
  refine ⟨few, ?_⟩
  rintro rfl
  have sound := start_sound h none
  have ends : Ends (start m none) := by
    refine ⟨m.bounds.ramSize.toNat + 1, ?_⟩
    cases going : ((start m none).later (m.bounds.ramSize.toNat + 1)).stopped with
    | true => rfl
    | false =>
      obtain ⟨fetched, -⟩ := records_of_running sound going
      have counted := records_length sound rfl (m.bounds.ramSize.toNat + 1)
      rw [not_stopped_iff.mp going, fetched] at counted
      have most := few (m.bounds.ramSize.toNat + 1)
      exact absurd counted (by simp only [Status.unrecorded]; omega)
  have ended := execute_stopped h ends
  have last : execute m none = (start m none).later _ := run_eq_last _
  rw [last] at ended ⊢
  exact endsByItself_of_stopped h ended

theorem only_jumping_back_goes_on_at_two_jumps :
    let looping : Memory := ⟨⟨2, 99⟩, #[0, 10]⟩
    let m : Memory := ⟨⟨4, 99⟩, #[22, 0, 40, 0]⟩
    looping.WellFormed ∧ 0 + looping.bounds.ramSize.toNat < ((start looping none).records 3).length ∧
      (∃ j t, 0 ≤ j ∧ j < 0 + looping.bounds.ramSize.toNat ∧
        ((start looping none).records 3)[j]? = some t ∧ t.JumpsBack) ∧
      m.WellFormed ∧
      (∀ k, ∀ t ∈ (start m none).records k, ∀ target, t.effect = .jmp target → t.address < target) ∧
      (start m none).records 4 = [⟨0, 1, .jmp 2⟩] ∧ EndsByItself m.bounds (execute m none) := by
  intro looping m
  have wellFormed : looping.WellFormed := ⟨rfl, by simp [looping]⟩
  have wellFormed' : m.WellFormed := ⟨rfl, by simp [m]⟩
  have inside : 0 + looping.bounds.ramSize.toNat < ((start looping none).records 3).length := by
    decide
  have jump : (start m none).step.2 = some (.ok ⟨0, 1, .jmp 2⟩) := by decide
  have halt : (start m none).after.step.2 = none := by decide
  have records : ∀ k, (start m none).records (k + 1) = [⟨0, 1, .jmp 2⟩] := by
    intro k
    have sound := after_sound (start_sound wellFormed' none)
    rw [records_cons, jump, records_of_silent sound (by simp [halt])]
    rfl
  have forward : ∀ k, ∀ t ∈ (start m none).records k, ∀ target, t.effect = .jmp target →
      t.address < target := by
    intro k t member target jumps
    cases k with
    | zero => cases member
    | succ k =>
      rw [records, List.mem_singleton] at member
      subst member
      cases jumps
      decide
  exact ⟨wellFormed, inside, (only_jumping_back_goes_on wellFormed none).1 3 0 inside, wellFormed',
    forward, records 3, ((only_jumping_back_goes_on wellFormed' none).2 forward).2 rfl⟩

end Execution
end AccMachine

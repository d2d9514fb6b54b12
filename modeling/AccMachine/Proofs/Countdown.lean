import AccMachine.Proofs.Endless
import AccMachine.Proofs.Exactness
import AccMachine.Proofs.Unseen

/-!
A loop that moves the content of one cell to another: it counts the one down and the other up until
the one is zero. For all contents it halts, after five operations for each unit that it moves.
-/
namespace AccMachine

theorem Instruction.encodable_of_wide {b : Bounds}
    (wide : 10 * b.ramSize.toNat ≤ b.maxValue.toNat) {op : Mnemonic} (other : op ≠ .hlt)
    {a : Address} (inside : a < b.ramSize) : Encodable b ⟨.known op, a⟩ := by
  have lt := UInt64.lt_iff_toNat_lt.mp inside
  have low : op.number.toNat ≤ 9 := by
    cases op with
    | hlt => contradiction
    | noop | take | add | sub | save | jmp | tst | inc | dec | null => decide
  have most := Nat.mul_le_mul_right b.ramSize.toNat low
  refine ⟨op, rfl, lt, ?_⟩
  change op.number.toNat * b.ramSize.toNat + a.toNat ≤ b.maxValue.toNat
  omega

/-- Tests cell `x` and halts if it is zero; otherwise counts `x` down and `y` up and starts over. -/
def countdown (x y : Address) : Program :=
  [⟨.tst, x⟩, ⟨.jmp, 3⟩, ⟨.hlt, 0⟩, ⟨.dec, x⟩, ⟨.inc, y⟩, ⟨.jmp, 0⟩]

namespace Memory

def Holds (m : Memory) (program : Program) : Prop :=
  ∀ i : Fin program.length,
    Instruction.encode m.bounds ⟨.known program[i].op, program[i].operand⟩ = .ok (m.get (.ofNat i))

instance (m : Memory) (program : Program) : Decidable (m.Holds program) :=
  inferInstanceAs (Decidable (∀ _ : Fin _, _))

theorem read_eq_of_get {m m' : Memory} (h : m.WellFormed) (h' : m'.WellFormed)
    (bounds : m'.bounds = m.bounds) {a : Address} (same : m'.get a = m.get a) :
    m'.read a = m.read a := by
  by_cases inside : a < m.bounds.ramSize
  · rw [read_inside h inside, read_inside h' (bounds ▸ inside), same]
  · have size := h.1
    have size' := h'.1
    rw [UInt64.lt_iff_toNat_lt] at inside
    rw [bounds] at size'
    simp [read, noCell, size, size', inside, bounds]

end Memory

namespace Execution

/-- After `k` steps the execution is still going, and its machine is `machine`. -/
structure ComesTo (e : Execution) (k : Nat) (machine : Machine) : Prop where
  running : (e.later k).status = .running
  machine_eq : (e.later k).machine = machine

theorem ComesTo.sound {e : Execution} {b : Bounds} (sound : e.machine.Sound b) {k : Nat}
    {machine : Machine} (comes : e.ComesTo k machine) : machine.Sound b :=
  comes.machine_eq ▸ later_sound sound k

theorem ComesTo.act {e : Execution} {b : Bounds} (sound : e.machine.Sound b) (free : e.limit = none)
    {k : Nat} {machine : Machine} (comes : e.ComesTo k machine)
    (here : machine.ip < machine.bounds.ramSize) {op : Mnemonic} {cell : Address}
    (held : machine.instruction = ⟨.known op, cell⟩) {f : Effect}
    (does : machine.effect? op cell = some f) : e.ComesTo (k + 1) (f.replay machine) := by
  obtain ⟨running, rfl⟩ := comes
  have unlimited : reachedLimit? (e.later k).limit ((e.later k).operations + 1) = none := by
    rw [later_limit sound, free]
    rfl
  have operand : (e.later k).machine.instruction.operand = cell := by rw [held]
  rw [← operand] at does
  have acts := Move.act here unlimited op (by rw [held]) f does
  have stepped := (Move.of_sound (later_sound sound k) running).unique acts
  constructor
  · rw [later_succ, after, stepped]
    exact running
  · rw [later_succ, after, stepped]

section

variable {m : Memory} (h : m.WellFormed) {k : Nat} {machine : Machine}
  (comes : (start m none).ComesTo k machine) (here : machine.ip < machine.bounds.ramSize)
include h comes here

theorem ComesTo.fetching {j : Nat} (le : j ≤ k) : ((start m none).later j).fetching = true := by
  have sound := start_sound h none
  rcases Nat.lt_or_eq_of_le le with lt | rfl
  · have next := going_of_le (not_stopped_iff.mpr comes.running) (Nat.succ_le_of_lt lt)
    rw [later_succ] at next
    exact (act_of_running (later_sound sound j) next).1
  · obtain ⟨running, rfl⟩ := comes
    exact fetching_iff.mpr ⟨running, here⟩

theorem ComesTo.later_halted (named : machine.instruction.opcode = .known .hlt) :
    (start m none).later (k + 1) = ⟨machine, none, .ofNat (k + 1), .halted⟩ := by
  have sound := start_sound h none
  have counted := start_operations h none k
  rw [(records_of_running sound (not_stopped_iff.mpr comes.running)).1] at counted
  obtain ⟨running, rfl⟩ := comes
  have free := later_limit sound k
  have unlimited : reachedLimit? ((start m none).later k).limit
      (((start m none).later k).operations + 1) = none := by
    rw [free]
    rfl
  have stepped := (Move.of_sound (later_sound sound k) running).unique
    (Move.halt here unlimited named)
  rw [later_succ, after, stepped, UInt64.ofNat_add, ← counted]
  exact congrArg (fun l => Execution.mk _ l _ _) free

theorem ComesTo.execute_halted (named : machine.instruction.opcode = .known .hlt)
    (short : k + 1 < 2 ^ 64) {limit : Option UInt64} (above : ∀ l ∈ limit, k + 1 < l.toNat) :
    execute m limit = ⟨machine, limit, .ofNat (k + 1), .halted⟩ := by
  have last := ComesTo.later_halted h comes here named
  have same : (start m limit).later (k + 1) = ⟨machine, limit, .ofNat (k + 1), .halted⟩ := by
    cases limit with
    | none => exact last
    | some l =>
      have few := above l rfl
      have unlimited : ∀ l' ∈ (none : Option UInt64), l ≤ l' := by simp
      have agreed := (agree_until_reached h unlimited (k := k + 1) (by intros; omega)).1
      rw [agreed, last]
      rfl
  rw [← same]
  apply execute_eq_later _ short
  rw [same]
  rfl

theorem ComesTo.execute_exceeded {l : UInt64} (low : l.toNat ≤ k + 1) :
    (execute m (some l)).result? = some (.error (.operationLimitExceeded l)) := by
  have unlimited : ∀ l' ∈ (none : Option UInt64), l ≤ l' := by simp
  have fetch := ComesTo.fetching h comes here (j := max l.toNat 1 - 1) (by omega)
  rw [(execute_limited h l).2, (exceed_with_fetch h unlimited fetch).1]
  rfl

end

end Execution

theorem Memory.Holds.put {m : Memory} {x y : Address} (holds : m.Holds (countdown x y))
    {a : Address} (behind : 6 ≤ a) (v : Word) : (m.put a v).Holds (countdown x y) := by
  intro i
  have lt : i.val < 6 := i.isLt
  have elsewhere : a ≠ .ofNat i := by
    rintro rfl
    rw [UInt64.le_iff_toNat_le, UInt64.toNat_ofNat', Nat.mod_eq_of_lt (by omega)] at behind
    exact absurd lt (Nat.not_lt.mpr behind)
  rw [m.get_put_of_ne elsewhere]
  exact holds i

/-- The memory `m` after `i` units have been moved from cell `x` to cell `y`. -/
structure Moved (m : Memory) (x y : Address) (i : Nat) (m' : Memory) : Prop where
  source : (m'.get x).toNat = (m.get x).toNat - i
  target : (m'.get y).toNat = min m.bounds.maxValue.toNat ((m.get y).toNat + i)
  others : ∀ a, a ≠ x → a ≠ y → m'.get a = m.get a

theorem Moved.none {m : Memory} (h : m.WellFormed) (x y : Address) : Moved m x y 0 m := by
  have small := UInt32.le_iff_toNat_le.mp (Memory.get_le h y)
  exact ⟨rfl, by omega, fun _ _ _ => rfl⟩

theorem Moved.next {m m' : Memory} (h : m'.WellFormed) (bounds : m'.bounds = m.bounds)
    {x y : Address} (apart : x ≠ y) (inside : x < m.bounds.ramSize ∧ y < m.bounds.ramSize) {i : Nat}
    (moved : Moved m x y i m') {d u : Word} (down : d.toNat = (m'.get x).toNat - 1)
    (up : u.toNat = min m.bounds.maxValue.toNat ((m'.get y).toNat + 1)) :
    Moved m x y (i + 1) ((m'.put x d).put y u) := by
  have source : ((m'.put x d).put y u).get x = d := by
    rw [Memory.get_put_of_ne _ apart.symm, Memory.get_put_self h (bounds ▸ inside.1)]
  have target : ((m'.put x d).put y u).get y = u := by
    rw [m'.put_comm apart, Memory.get_put_of_ne _ apart, Memory.get_put_self h (bounds ▸ inside.2)]
  constructor
  · rw [source, down, moved.source]
    omega
  · rw [target, up, moved.target]
    omega
  · intro a other other'
    rw [Memory.get_put_of_ne _ other'.symm, Memory.get_put_of_ne _ other.symm]
    exact moved.others a other other'

namespace Execution

section

variable {e : Execution} {b : Bounds} (sound : e.machine.Sound b) (free : e.limit = none)
  {x y : Address} {k : Nat} {memory : Memory} {acc : Word} (room : 6 ≤ b.ramSize)
include sound free room

theorem ComesTo.performs {ip : Address} (comes : e.ComesTo k ⟨memory, acc, ip⟩)
    (holds : memory.Holds (countdown x y)) {i : Nat} {s : Statement}
    (stands : (countdown x y)[i]? = some s) (here : ip = .ofNat i) {f : Effect}
    (does : Machine.effect? ⟨memory, acc, ip⟩ s.op s.operand = some f) :
    e.ComesTo (k + 1) (f.replay ⟨memory, acc, ip⟩) := by
  have bounds : memory.bounds = b := (ComesTo.sound sound comes).bounds_eq
  obtain ⟨lt, rfl⟩ := List.getElem?_eq_some_iff.mp stands
  subst here
  have within : UInt64.ofNat i < memory.bounds.ramSize := by
    have six : i < 6 := lt
    rw [bounds]
    rw [UInt64.le_iff_toNat_le] at room
    rw [UInt64.lt_iff_toNat_lt, UInt64.toNat_ofNat', Nat.mod_eq_of_lt (by omega)]
    exact Nat.lt_of_lt_of_le six room
  exact comes.act sound free within (Instruction.split_of_encode (holds ⟨i, lt⟩)) does

theorem ComesTo.round (behind : 6 ≤ x) (behind' : 6 ≤ y)
    (comes : e.ComesTo k ⟨memory, acc, 0⟩)
    (holds : memory.Holds (countdown x y)) (left : memory.get x ≠ 0) :
    let d := b.saturate (Word.signed (memory.get x) - 1)
    let u := b.saturate (Word.signed ((memory.put x d).get y) + 1)
    e.ComesTo (k + 5) ⟨(memory.put x d).put y u, u, 0⟩ := by
  obtain rfl : memory.bounds = b := (ComesTo.sound sound comes).bounds_eq
  intro d u
  have tested : e.ComesTo (k + 1) ⟨memory, memory.get x, 1⟩ := by
    have stepped := comes.performs sound free room holds (i := 0) rfl rfl rfl
    rwa [decide_eq_false left] at stepped
  have jumped : e.ComesTo (k + 2) ⟨memory, memory.get x, 3⟩ :=
    tested.performs sound free room holds (i := 1) rfl rfl rfl
  have counted : e.ComesTo (k + 3) ⟨memory.put x d, d, 4⟩ :=
    jumped.performs sound free room holds (i := 3) rfl rfl rfl
  have kept := holds.put behind d
  have added : e.ComesTo (k + 4) ⟨(memory.put x d).put y u, u, 5⟩ :=
    counted.performs sound free room kept (i := 4) rfl rfl rfl
  exact added.performs sound free room (kept.put behind' u) (i := 5) rfl rfl rfl

theorem ComesTo.leave (comes : e.ComesTo k ⟨memory, acc, 0⟩)
    (holds : memory.Holds (countdown x y)) (spent : memory.get x = 0) :
    e.ComesTo (k + 1) ⟨memory, 0, 2⟩ := by
  have stepped := comes.performs sound free room holds (i := 0) rfl rfl rfl
  rw [decide_eq_true spent, spent] at stepped
  exact stepped

end

theorem countdown_rounds {m : Memory} (h : m.WellFormed) {x y : Address} (apart : x ≠ y)
    (behind : 6 ≤ x ∧ 6 ≤ y) (inside : x < m.bounds.ramSize ∧ y < m.bounds.ramSize)
    (holds : m.Holds (countdown x y)) {i : Nat} (le : i ≤ (m.get x).toNat) :
    ∃ memory acc, (start m none).ComesTo (5 * i) ⟨memory, acc, 0⟩ ∧
      memory.Holds (countdown x y) ∧ Moved m x y i memory := by
  have sound := start_sound h none
  have room := UInt64.le_trans behind.1 (UInt64.le_of_lt inside.1)
  induction i with
  | zero => exact ⟨m, 0, ⟨rfl, rfl⟩, holds, .none h x y⟩
  | succ i ih =>
    obtain ⟨memory, acc, comes, kept, moved⟩ := ih (by omega)
    have within := ComesTo.sound sound comes
    have bounds : memory.bounds = m.bounds := within.bounds_eq
    have left : memory.get x ≠ 0 := by
      intro zero
      have source := moved.source
      rw [zero, UInt32.toNat_zero] at source
      omega
    have round := comes.round sound rfl room behind.1 behind.2 kept left
    refine ⟨_, _, round, (kept.put behind.1 _).put behind.2 _, ?_⟩
    apply moved.next within.wellFormed bounds apart inside
    · exact m.bounds.toNat_saturate_dec (within.get_le x)
    · rw [Memory.get_put_of_ne _ apart]
      exact m.bounds.toNat_saturate_inc _

structure Transferred (m : Memory) (x y : Address) (e : Execution) : Prop where
  result : e.result? = some (.ok ⟨e.operations, 0, 2⟩)
  operations : e.operations.toNat = 5 * (m.get x).toNat + 2
  source : e.machine.memory.read x = .ok 0
  target : ∃ w, e.machine.memory.read y = .ok w ∧
    w.toNat = min m.bounds.maxValue.toNat ((m.get y).toNat + (m.get x).toNat)
  others : ∀ a, a ≠ x → a ≠ y → e.machine.memory.read a = m.read a

section

variable {m : Memory} (h : m.WellFormed) {x y : Address} (apart : x ≠ y)
  (behind : 6 ≤ x ∧ 6 ≤ y) (inside : x < m.bounds.ramSize ∧ y < m.bounds.ramSize)
  (holds : m.Holds (countdown x y))
include h apart behind inside holds

theorem countdown_comes_to_halt : ∃ memory, memory.bounds = m.bounds ∧ memory.WellFormed ∧
    (start m none).ComesTo (5 * (m.get x).toNat + 1) ⟨memory, 0, 2⟩ ∧ 2 < memory.bounds.ramSize ∧
    Machine.instruction ⟨memory, 0, 2⟩ = ⟨.known .hlt, 0⟩ ∧ memory.get x = 0 ∧
    Moved m x y (m.get x).toNat memory := by
  have sound := start_sound h none
  have room := UInt64.le_trans behind.1 (UInt64.le_of_lt inside.1)
  obtain ⟨memory, acc, comes, kept, moved⟩ :=
    countdown_rounds h apart behind inside holds (Nat.le_refl _)
  have spent : memory.get x = 0 := by
    rw [← UInt32.toNat_inj, moved.source, Nat.sub_self, UInt32.toNat_zero]
  have within := ComesTo.sound sound comes
  have bounds : memory.bounds = m.bounds := within.bounds_eq
  have low := UInt64.lt_of_lt_of_le (a := 2) (by decide) behind.1
  have here : 2 < memory.bounds.ramSize := bounds ▸ UInt64.lt_trans low inside.1
  exact ⟨memory, bounds, within.wellFormed, comes.leave sound rfl room kept spent, here,
    Instruction.split_of_encode (kept ⟨2, by simp [countdown]⟩), spent, moved⟩

theorem transferred_of_above {limit : Option UInt64}
    (above : ∀ l ∈ limit, 5 * (m.get x).toNat + 2 < l.toNat) :
    Transferred m x y (execute m limit) := by
  obtain ⟨memory, bounds, wellFormed, comes, here, held, spent, moved⟩ :=
    countdown_comes_to_halt h apart behind inside holds
  have small := (m.get x).toNat_lt
  rw [ComesTo.execute_halted h comes here (by rw [held]) (by omega) above]
  constructor
  · rfl
  · change (UInt64.ofNat _).toNat = _
    rw [UInt64.toNat_ofNat']
    omega
  · rw [Memory.read_inside wellFormed (bounds ▸ inside.1), spent]
  · exact ⟨_, Memory.read_inside wellFormed (bounds ▸ inside.2), moved.target⟩
  · intro a other other'
    exact Memory.read_eq_of_get h wellFormed bounds (moved.others a other other')

theorem exceeded_of_le {l : UInt64} (le : l.toNat ≤ 5 * (m.get x).toNat + 2) :
    (execute m (some l)).result? = some (.error (.operationLimitExceeded l)) := by
  obtain ⟨memory, -, -, comes, here, -⟩ := countdown_comes_to_halt h apart behind inside holds
  exact ComesTo.execute_exceeded h comes here le

end

theorem countdown_encodable {b : Bounds} (wide : 10 * b.ramSize.toNat ≤ b.maxValue.toNat)
    {x y : Address} (behind : 6 ≤ x) (inside : x < b.ramSize ∧ y < b.ramSize) :
    ∀ s ∈ countdown x y, ∃ w, Instruction.encode b ⟨.known s.op, s.operand⟩ = .ok w := by
  have low : ∀ a : Address, a ≤ 6 → a < b.ramSize := fun a le =>
    UInt64.lt_of_le_of_lt (UInt64.le_trans le behind) inside.1
  intro s member
  rw [Instruction.exists_encode_iff]
  simp only [countdown, List.mem_cons, List.not_mem_nil, or_false] at member
  rcases member with rfl | rfl | rfl | rfl | rfl | rfl
  · exact Instruction.encodable_of_wide wide (by simp) inside.1
  · exact Instruction.encodable_of_wide wide (by simp) (low 3 (by decide))
  · have positive := UInt64.lt_iff_toNat_lt.mp (low 0 (by decide))
    exact ⟨.hlt, rfl, positive, wide⟩
  · exact Instruction.encodable_of_wide wide (by simp) inside.1
  · exact Instruction.encodable_of_wide wide (by simp) inside.2
  · exact Instruction.encodable_of_wide wide (by simp) (low 0 (by decide))

/-- The loop moves what cell `x` holds to cell `y`, where saturation keeps what has no room, and
halts after five operations for each unit and two more. Limits up to these are exceeded. -/
theorem countdown_transfers {b : Bounds} (wide : 10 * b.ramSize.toNat ≤ b.maxValue.toNat)
    {x y : Address} (apart : x ≠ y) (behind : 6 ≤ x ∧ 6 ≤ y)
    (inside : x < b.ramSize ∧ y < b.ramSize) :
    (∀ s ∈ countdown x y, ∃ w, Instruction.encode b ⟨.known s.op, s.operand⟩ = .ok w) ∧
    ∀ m : Memory, m.WellFormed → m.bounds = b → m.Holds (countdown x y) →
      (∀ limit, (∀ l ∈ limit, 5 * (m.get x).toNat + 2 < l.toNat) →
        Transferred m x y (execute m limit)) ∧
      ∀ l, l.toNat ≤ 5 * (m.get x).toNat + 2 →
        (execute m (some l)).result? = some (.error (.operationLimitExceeded l)) := by
  refine ⟨countdown_encodable wide behind.1 inside, ?_⟩
  rintro m h rfl holds
  exact ⟨fun limit above => transferred_of_above h apart behind inside holds above,
    fun l le => exceeded_of_le h apart behind inside holds le⟩

theorem countdown_transfers_into_full_cell :
    let m : Memory := ⟨⟨8, 99⟩, #[54, 43, 80, 70, 63, 40, 2, 98]⟩
    m.WellFormed ∧ m.Holds (countdown 6 7) ∧ Transferred m 6 7 (execute m none) ∧
      Transferred m 6 7 (execute m (some 13)) ∧
      (execute m (some 12)).result? = some (.error (.operationLimitExceeded 12)) := by
  intro m
  have wellFormed : m.WellFormed := ⟨rfl, by simp [m]⟩
  have holds : m.Holds (countdown 6 7) := by decide
  have wide : 10 * m.bounds.ramSize.toNat ≤ m.bounds.maxValue.toNat := by decide
  have apart : (6 : Address) ≠ 7 := by decide
  have behind : (6 : Address) ≤ 6 ∧ (6 : Address) ≤ 7 := by decide
  have inside : 6 < m.bounds.ramSize ∧ 7 < m.bounds.ramSize := by decide
  have above : ∀ l ∈ (some 13 : Option UInt64), 5 * (m.get 6).toNat + 2 < l.toNat := by
    rintro l ⟨⟩
    decide
  obtain ⟨transfers, exceeds⟩ :=
    (countdown_transfers wide apart behind inside).2 m wellFormed rfl holds
  exact ⟨wellFormed, holds, transfers none (by simp), transfers (some 13) above,
    exceeds 12 (by decide)⟩

end Execution
end AccMachine

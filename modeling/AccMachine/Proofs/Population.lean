import AccMachine.Proofs.Draws

/-!
What the random memories of a sweep hold. Whatever is drawn, as long as it is drawn in its range,
every cell holds a named instruction: a value stands in place of an instruction only where the
limit is too low for any other.
-/
namespace AccMachine

theorem Bounds.ramSize_pos (b : Bounds) {a : Address} (inside : a < b.ramSize) :
    0 < b.ramSize.toNat :=
  Nat.zero_lt_of_lt (UInt64.lt_iff_toNat_lt.mp inside)

theorem Bounds.code_lt (b : Bounds) (op : Mnemonic) {a : Nat} (inside : a < b.ramSize.toNat) :
    b.code op a < 11 * b.ramSize.toNat := by
  have blocks := Nat.mul_le_mul_right b.ramSize.toNat (Nat.le_of_lt_succ op.number_lt)
  rw [code]
  omega

def Instruction.Choice (b : Bounds) (i : Instruction) : Prop :=
  ∃ op ∈ Mnemonic.all, i.opcode = .known op ∧ i.operand < b.ramSize

/-- What draws within their ranges can make of a cell of the program: the code of the instruction
that was chosen, or any value there is if it has none. -/
inductive Drawn (b : Bounds) (w : Word) : Prop where
  | code (i : Instruction) (choice : i.Choice b) (encoded : i.encode b = .ok w)
  | value (i : Instruction) (choice : i.Choice b) (f : Fault) (refused : i.encode b = .error f)
      (small : w ≤ b.maxValue)

theorem Instruction.Choice.maxValue_lt {b : Bounds} {i : Instruction} (choice : i.Choice b)
    {f : Fault} (refused : i.encode b = .error f) :
    b.maxValue.toNat < 11 * b.ramSize.toNat - 1 := by
  obtain ⟨op, -, named, inside⟩ := choice
  have operand := UInt64.lt_iff_toNat_lt.mp inside
  have above : b.maxValue.toNat < b.code op i.operand.toNat := by
    by_contra within
    obtain ⟨w, encoded⟩ := exists_encode_iff.mpr ⟨op, named, operand, Nat.le_of_not_lt within⟩
    rw [encoded] at refused
    cases refused
  have last := b.code_lt op operand
  omega

theorem Drawn.mem_codes {b : Bounds} {w : Word} (drawn : Drawn b w) : w ∈ Instruction.codes b := by
  cases drawn with
  | code i choice encoded =>
    obtain ⟨-, -, -, inside⟩ := choice
    exact Instruction.mem_codes_of_encode (b.ramSize_pos inside) encoded
  | value i choice f refused small =>
    have le := UInt32.le_iff_toNat_le.mp small
    have low := choice.maxValue_lt refused
    exact Instruction.mem_codes_iff.mpr ⟨small, by omega⟩

namespace Instruction

variable {b : Bounds}

theorem min_eq_of_mem_codes {w : Word} (code : w ∈ codes b) : min w b.maxValue = w :=
  if_pos (mem_codes_iff.mp code).1

theorem zero_mem_codes (cells : 0 < b.ramSize.toNat) : 0 ∈ codes b :=
  mem_codes_iff.mpr ⟨UInt32.zero_le, Nat.mul_pos (by decide) cells⟩

end Instruction

/-- Every cell holds the code of a named operation, and so the first fetch of a run, with all cells
as they were, cannot fail for want of a name. -/
structure Memory.AllNamed (m : Memory) : Prop where
  below : ∀ a w, m.read a = .ok w → w.toNat < 11 * m.bounds.ramSize.toNat
  decodes : ∀ a w, m.read a = .ok w → ∃ op operand,
    Instruction.decode m.bounds (Word.signed w) = .ok ⟨.known op, operand⟩
  first_fetch : ∀ limit opcode operand address,
    (Execution.start m limit).step.2 ≠ some (.error (.illegalInstruction opcode operand address))

theorem Memory.inside_of_read {m : Memory} (h : m.WellFormed) {a : Address} {w : Word}
    (held : m.read a = .ok w) : a < m.bounds.ramSize := by
  unfold read at held
  split at held
  · rename_i inside
    rw [h.1] at inside
    exact UInt64.lt_iff_toNat_lt.mpr inside
  · cases held

section

variable {m : Memory} (h : m.WellFormed)
  (codes : ∀ a, a < m.bounds.ramSize → ∃ w, m.read a = .ok w ∧ w ∈ Instruction.codes m.bounds)
include h codes

theorem Memory.mem_codes_of_read {a : Address} {w : Word} (held : m.read a = .ok w) :
    w ∈ Instruction.codes m.bounds := by
  obtain ⟨v, held', code⟩ := codes a (inside_of_read h held)
  obtain rfl : w = v := Except.ok.inj (held.symm.trans held')
  exact code

theorem Memory.split_of_read {a : Address} {w : Word} (held : m.read a = .ok w) :
    ∃ op operand, Instruction.split m.bounds.ramSize w = ⟨.known op, operand⟩ := by
  have cells := m.bounds.ramSize_pos (inside_of_read h held)
  have low := (Instruction.mem_codes_iff.mp (mem_codes_of_read h codes held)).2
  obtain ⟨op, named⟩ := (Instruction.split_named_iff cells).mpr low
  refine ⟨op, (Instruction.split m.bounds.ramSize w).operand, ?_⟩
  rw [← named]

theorem Memory.AllNamed.of_codes : m.AllNamed := by
  constructor
  case below =>
    intro a w held
    exact (Instruction.mem_codes_iff.mp (mem_codes_of_read h codes held)).2
  case decodes =>
    intro a w held
    have cells := m.bounds.ramSize_pos (inside_of_read h held)
    have small := (Instruction.mem_codes_iff.mp (mem_codes_of_read h codes held)).1
    obtain ⟨op, operand, parts⟩ := split_of_read h codes held
    exact ⟨op, operand, (Instruction.decode_eq_ok_iff cells).mpr ⟨w, small, rfl, parts⟩⟩
  case first_fetch =>
    intro limit opcode operand address answered
    have move := Execution.step_move (e := .start m limit) h UInt32.zero_le rfl
    generalize Execution.step (.start m limit) = r at move answered
    cases move with
    | illegal here free n unnamed =>
      obtain ⟨op, a, parts⟩ := split_of_read h codes (read_inside h here)
      have named : (Execution.start m limit).machine.instruction = ⟨.known op, a⟩ := parts
      rw [named] at unnamed
      cases unnamed
    | outside | cut | halt | act => cases answered

end

namespace Sweep

variable {s : Sweep}

/-- A memory whose program was drawn within the ranges, each cell cut to the limit, and that is zero
behind the program. -/
structure Populated (s : Sweep) (m : Memory) : Prop where
  bounds_eq : m.bounds = s.bounds
  wellFormed : m.WellFormed
  program : ∀ a, a < s.programLength → a < s.bounds.ramSize →
    ∃ w, Drawn s.bounds w ∧ m.read a = .ok (min w s.bounds.maxValue)
  behind : ∀ a, s.programLength ≤ a → a < s.bounds.ramSize → m.read a = .ok 0

theorem Populated.allNamed {m : Memory} (populated : s.Populated m) : m.AllNamed := by
  have bounds := populated.bounds_eq
  apply Memory.AllNamed.of_codes populated.wellFormed
  intro a inside
  rw [bounds] at inside ⊢
  by_cases within : a < s.programLength
  · obtain ⟨w, drawn, held⟩ := populated.program a within inside
    rw [Instruction.min_eq_of_mem_codes drawn.mem_codes] at held
    exact ⟨w, held, drawn.mem_codes⟩
  · exact ⟨0, populated.behind a (UInt64.not_lt.mp within) inside,
      Instruction.zero_mem_codes (s.bounds.ramSize_pos inside)⟩

theorem drawnInstruction_choice {b : Bounds} (cells : 0 < b.ramSize.toNat) (g : Random.Generator) :
    (drawnInstruction b g).Choice b := by
  have fits : 64 ≤ 64 := Nat.le_refl 64
  have number := Random.below_lt (n := Mnemonic.all.length) fits (by decide) g
  have operand := Random.below_lt fits cells (Random.below 64 Mnemonic.all.length g).2
  refine ⟨_, List.getElem_mem number, ?_, ?_⟩
  · simp only [drawnInstruction, List.getElem?_eq_getElem number, Option.getD_some]
  · rw [UInt64.lt_iff_toNat_lt, drawnInstruction,
      UInt64.toNat_ofNat_of_lt' (Nat.lt_trans operand b.ramSize.toNat_lt)]
    exact operand

theorem drawn_drawInstruction {b : Bounds} (cells : 0 < b.ramSize.toNat) (g : Random.Generator) :
    Drawn b (drawInstruction b g).1 := by
  have choice := drawnInstruction_choice cells g
  cases encoded : (drawnInstruction b g).encode b with
  | ok w =>
    rw [drawInstruction_encoded encoded]
    exact .code _ choice encoded
  | error f => exact .value _ choice f encoded (drawInstruction_le b g)

theorem populated_image (i : Nat) (g : Random.Generator) : s.Populated (s.image i g) := by
  constructor
  case bounds_eq => rfl
  case wellFormed => exact Memory.fill_wellFormed _ _ _
  case program =>
    intro a within inside
    refine ⟨_, ?_, Memory.read_fill _ _ _ inside⟩
    rw [drawCell, if_neg (UInt64.not_le.mpr within)]
    exact drawn_drawInstruction (s.bounds.ramSize_pos inside) _
  case behind =>
    intro a behind inside
    rw [s.read_image i g inside, drawCell, if_pos behind]

/-- Every cell of every memory holds a named instruction, and nothing is cut off what is drawn. Both
hold of whatever draws within their ranges can make of a memory. -/
theorem memories_hold_named_instructions (s : Sweep) (seed : UInt64) :
    (s.memories seed).length = s.images ∧
    (∀ m ∈ s.memories seed, s.Populated m ∧ m.AllNamed) ∧
    (∀ a g, min (s.drawCell a g).1 s.bounds.maxValue = (s.drawCell a g).1) ∧
    (∀ w, Drawn s.bounds w →
      min w s.bounds.maxValue = w ∧ w.toNat < 11 * s.bounds.ramSize.toNat) ∧
    ∀ m, s.Populated m → m.AllNamed := by
  refine ⟨(s.threaded seed).count, ?_, ?_, ?_, fun m populated => populated.allNamed⟩
  · intro m drawn
    obtain ⟨i, there⟩ := List.mem_iff_getElem?.mp drawn
    obtain ⟨-, rfl⟩ := (s.getElem?_memories seed).mp there
    have populated : s.Populated (s.image i (.ofSeed seed)) := populated_image i _
    exact ⟨populated, populated.allNamed⟩
  · intro a g
    exact if_pos (s.drawCell_le a g)
  · intro w drawn
    have code := drawn.mem_codes
    exact ⟨Instruction.min_eq_of_mem_codes code, (Instruction.mem_codes_iff.mp code).2⟩

theorem memories_hold_named_instructions_at_low_limit :
    let s : Sweep := { images := 1, programLength := 1, bounds := ⟨2, 3⟩ }
    let m : Memory := ⟨⟨2, 3⟩, #[3, 0]⟩
    (s.memories 7).length = 1 ∧ (∀ m ∈ s.memories 7, m.AllNamed) ∧
      Drawn s.bounds 3 ∧ min 3 s.bounds.maxValue = 3 ∧ s.Populated m ∧ m.AllNamed := by
  intro s m
  have drawn : Drawn s.bounds 3 :=
    .value ⟨.known .hlt, 0⟩ ⟨.hlt, by decide, rfl, by decide⟩ _ rfl (by decide)
  have populated : s.Populated m := by
    constructor
    case bounds_eq => rfl
    case wellFormed => exact ⟨rfl, by simp [m]⟩
    case program =>
      intro a within _
      obtain rfl : a = 0 := by
        rw [UInt64.lt_iff_toNat_lt] at within
        exact UInt64.toNat_inj.mp (Nat.lt_one_iff.mp within)
      exact ⟨3, drawn, rfl⟩
    case behind =>
      intro a behind inside
      obtain rfl : a = 1 := by
        rw [UInt64.le_iff_toNat_le] at behind
        rw [UInt64.lt_iff_toNat_lt] at inside
        exact UInt64.toNat_inj.mp (Nat.le_antisymm (Nat.le_of_lt_succ inside) behind)
      rfl
  obtain ⟨count, images, -, kept, named⟩ := memories_hold_named_instructions s 7
  exact ⟨count, fun m drawn => (images m drawn).2, drawn, (kept 3 drawn).1, populated,
    named m populated⟩

end Sweep
end AccMachine

import AccMachine.Proofs.Reassembly
import AccMachine.Proofs.Soundness

/-!
What the lines of a listing say about a memory. They show the instructions that its cells would be
executed as, and all of its cells can be told from them.
-/
namespace AccMachine

theorem Mnemonic.name_ne_unknown (op : Mnemonic) (n : Word) : op.name ≠ (Opcode.unknown n).text := by
  intro same
  have named := ofName?_eq_some_iff.mpr same
  rw [ofName?_unknown] at named
  cases named

theorem Opcode.text_injective {o o' : Opcode} (same : o.text = o'.text) : o = o' := by
  cases o with
  | known op =>
    cases o' with
    | known op' => rw [Mnemonic.name_injective same]
    | unknown n => exact absurd same (op.name_ne_unknown n)
  | unknown n =>
    cases o' with
    | known op' => exact absurd same.symm (op'.name_ne_unknown n)
    | unknown n' =>
      have digits : toString n.toNat = toString n'.toNat := (String.append_right_inj "?").mp same
      rw [UInt32.toNat_inj.mp (Text.toString_injective (congrArg String.toList digits))]

theorem Instruction.words_injective {i j : Instruction}
    (opcode : i.opcode.text.toList = j.opcode.text.toList)
    (operand : (toString i.operand.toNat).toList = (toString j.operand.toNat).toList) : i = j := by
  obtain ⟨o, a⟩ := i
  obtain ⟨o', a'⟩ := j
  obtain rfl : o = o' := Opcode.text_injective (String.toList_inj.mp opcode)
  obtain rfl : a = a' := UInt64.toNat_inj.mp (Text.toString_injective operand)
  rfl

namespace Memory

inductive Highest (m : Memory) : Nat → Prop where
  | nonzero {a : Nat} {v : Word} (there : m.cells[a]? = some v) (filled : v ≠ 0)
      (above : ∀ i w, a < i → m.cells[i]? = some w → w = 0) : Highest m a
  | cleared (all : ∀ (i : Nat) (w : Word), m.cells[i]? = some w → w = 0) : Highest m 0

theorem highestNonzeroBelow_eq_some {cells : Array Word} {n a : Nat}
    (found : highestNonzeroBelow cells n = some a) : a < n ∧ cells[a]?.getD 0 ≠ 0 := by
  induction n with
  | zero => cases found
  | succ n ih =>
    rw [highestNonzeroBelow] at found
    split at found
    · rename_i nonzero
      obtain rfl := Option.some.inj found
      exact ⟨Nat.lt_succ_self n, nonzero⟩
    · obtain ⟨lt, nonzero⟩ := ih found
      exact ⟨Nat.lt_succ_of_lt lt, nonzero⟩

theorem highest_eq (m : Memory) : m.Highest (m.highestNonzero?.getD 0) := by
  have zero := fun i w => zero_of_above (m := m) (i := i) (v := w)
  cases found : m.highestNonzero? with
  | some a =>
    obtain ⟨lt, nonzero⟩ := highestNonzeroBelow_eq_some found
    have there := Array.getElem?_eq_getElem lt
    rw [there] at nonzero
    refine .nonzero there nonzero fun i w above content => zero i w content ?_
    rintro _ last
    obtain rfl := Option.some.inj (found.symm.trans last)
    exact above
  | none => exact .cleared fun i w content => zero i w content (by simp [found])

theorem getElem?_of_shownWords {m : Memory} (h : m.WellFormed) (i : Nat) : m.cells[i]? =
    m.shownWords[i]?.or (if i < m.bounds.ramSize.toNat then some 0 else none) := by
  have whole := congrArg (fun m : Memory => m.cells[i]?) (stored_shownWords h)
  exact whole.symm.trans (getElem?_stored_zeroed (shownWords_length_le h) i)

end Memory

namespace Execution

structure StandsOn (e : Execution) (m : Memory) (a : Nat) : Prop where
  running : e.status = .running
  memory_eq : e.machine.memory = m
  ip_eq : e.machine.ip.toNat = a
  acc_le : e.machine.acc ≤ m.bounds.maxValue
  free : reachedLimit? e.limit (e.operations + 1) = none

theorem illegal_iff {e : Execution} (h : e.machine.memory.WellFormed)
    (small : e.machine.acc ≤ e.machine.bounds.maxValue) (running : e.status = .running)
    (here : e.machine.ip < e.machine.bounds.ramSize)
    (free : reachedLimit? e.limit (e.operations + 1) = none) {n : Word} {operand : Address} :
    e.step.2 = some (.error (.illegalInstruction (.unknown n) operand e.machine.ip)) ↔
      e.machine.instruction = ⟨.unknown n, operand⟩ := by
  have move := step_move h small running
  constructor
  · intro failed
    generalize e.step = r at move failed
    cases move with
    | outside | cut | halt | act => cases failed
    | illegal _ _ n' unnamed =>
      cases failed
      rw [← unnamed]
  · intro held
    have unnamed : e.machine.instruction.opcode = .unknown n := by rw [held]
    rw [move.unique (Move.illegal here free n unnamed), held]
    rfl

end Execution

namespace Memory

/-- What the line `row` of a listing says about the cell `a`: its words are the address, the content
and what the content decodes to, and they tell whether it is refused where it is executed. -/
structure Describes (m : Memory) (a : Nat) (row : List Char) : Prop where
  words : ∃ v i, m.cells[a]? = some v ∧ Instruction.decode m.bounds (Word.signed v) = .ok i ∧
    Text.words (Text.unbracketed row) = [(toString a).toList, (toString v.toNat).toList,
      i.opcode.text.toList, (toString i.operand.toNat).toList]
  illegal_iff : ∀ e : Execution, e.StandsOn m a → ∀ n operand,
    e.step.2 = some (.error (.illegalInstruction (.unknown n) operand e.machine.ip)) ↔
      (Text.words (Text.unbracketed row)).drop 2 =
        [("?" ++ toString n.toNat).toList, (toString operand.toNat).toList]

theorem describes_listedRow {m : Memory} (h : m.WellFormed) {a : Nat} {v : Word}
    (there : m.cells[a]? = some v) : m.Describes a (listedRow m.bounds.ramSize a v) := by
  obtain ⟨inside, content⟩ := Array.getElem?_eq_some_iff.mp there
  have small : v ≤ m.bounds.maxValue := h.2 v (content ▸ Array.getElem_mem inside)
  have lt : a < m.bounds.ramSize.toNat := h.1 ▸ inside
  have cells : 0 < m.bounds.ramSize.toNat := Nat.lt_of_le_of_lt (Nat.zero_le a) lt
  refine ⟨⟨v, _, there, (Instruction.decode_eq_ok_iff cells).mpr ⟨v, small, rfl, rfl⟩,
    words_listedRow _ a v⟩, ?_⟩
  rintro e ⟨running, rfl, rfl, acc_le, free⟩ n operand
  have held : e.machine.instruction = .split e.machine.memory.bounds.ramSize v := by
    rw [Machine.instruction, get, there]
    rfl
  rw [Execution.illegal_iff h acc_le running (UInt64.lt_iff_toNat_lt.mpr lt) free, held,
    words_listedRow]
  constructor
  · intro unnamed
    rw [unnamed]
    rfl
  · intro shown
    obtain ⟨opcode, rest⟩ := List.cons.inj shown
    exact Instruction.words_injective opcode (List.cons.inj rest).1

theorem second_words_listedRows (m : Memory) :
    (listedRows m).map (fun row => (Text.words (Text.unbracketed row))[1]?) =
      m.shownWords.map fun v => some (toString v.toNat).toList := by
  apply List.ext_getElem?
  intro i
  simp only [listedRows, shownWords, List.getElem?_map, List.getElem?_mapIdx, Option.map_map,
    Function.comp_def, words_listedRow]
  rfl

theorem shownWords_eq_of_listing_eq {m m' : Memory} (same : listing m = listing m') :
    m.shownWords = m'.shownWords := by
  have rows : listedRows m = listedRows m' := by rw [← lines_listing, ← lines_listing, same]
  have printed := second_words_listedRows m
  rw [rows, second_words_listedRows] at printed
  refine ((List.map_inj_right ?_).mp printed).symm
  intro v w alike
  exact UInt32.toNat_inj.mp (Text.toString_injective (Option.some.inj alike))

theorem listing_eq_of_cells_eq {m m' : Memory} (size : m.bounds.ramSize = m'.bounds.ramSize)
    (same : m.cells = m'.cells) : listing m = listing m' := by
  simp only [listing, highestNonzero?, size, same]

theorem shown_le_size {m : Memory} (some : 0 < m.cells.size) : m.shown ≤ m.cells.size := by
  rw [shown]
  cases found : m.highestNonzero? with
  | none => exact some
  | some a => exact (highestNonzeroBelow_eq_some found).1

/-- A listing has a line for every cell up to the last that is not zero, each line shows what its
cell is executed as, and of memories with as many cells the listing gives the cells. -/
theorem listing_is_lossless {m : Memory} (h : m.WellFormed)
    (cells : 1 ≤ m.bounds.ramSize.toNat) :
    (∃ last, m.Highest last ∧ (Text.lines (listing m).toList).length = last + 1 ∧
      ∀ a ≤ last, ∃ row, (Text.lines (listing m).toList)[a]? = some row ∧ m.Describes a row) ∧
    ∀ m' : Memory, m'.WellFormed → m'.bounds.ramSize = m.bounds.ramSize →
      (listing m = listing m' ↔ m.cells = m'.cells) := by
  have few : m.shown ≤ m.cells.size := shown_le_size (h.1 ▸ cells)
  refine ⟨⟨_, highest_eq m, ?_, ?_⟩, ?_⟩
  · rw [← shownWords_length, shownWords, List.length_take, Array.length_toList]
    exact Nat.min_eq_left few
  · intro a le
    have lt : a < m.shown := Nat.lt_succ_of_le le
    have there := Array.getElem?_eq_getElem (Nat.lt_of_lt_of_le lt few)
    refine ⟨_, ?_, describes_listedRow h there⟩
    rw [lines_listing, listedRows, List.getElem?_mapIdx, List.getElem?_take_of_lt lt,
      Array.getElem?_toList, there, Option.map_some]
  · intro m' h' size
    constructor
    · intro same
      apply Array.ext_getElem?
      intro i
      rw [getElem?_of_shownWords h, getElem?_of_shownWords h', shownWords_eq_of_listing_eq same,
        size]
    · exact listing_eq_of_cells_eq size.symm

theorem listing_is_lossless_with_two_cells :
    let m : Memory := ⟨⟨2, 99⟩, #[0, 25]⟩
    let lower : Memory := ⟨⟨2, 25⟩, #[0, 25]⟩
    let other : Memory := ⟨⟨2, 99⟩, #[1, 25]⟩
    let e : Execution := { machine := { memory := m, ip := 1 }, limit := none }
    m.WellFormed ∧ 1 ≤ m.bounds.ramSize.toNat ∧ lower.WellFormed ∧ other.WellFormed ∧
      listing m = listing lower ∧ listing m ≠ listing other ∧ e.StandsOn m 1 ∧
      ∃ row, (Text.lines (listing m).toList)[1]? = some row ∧
        (Text.words (Text.unbracketed row)).drop 2 = ["?12".toList, "1".toList] := by
  intro m lower other e
  have wellFormed : m.WellFormed := ⟨rfl, by simp [m]⟩
  have wellFormed' : lower.WellFormed := ⟨rfl, by simp [lower]⟩
  have wellFormed'' : other.WellFormed := ⟨rfl, by simp [other]⟩
  have cells : 1 ≤ m.bounds.ramSize.toNat := by decide
  obtain ⟨⟨last, highest, -, rows⟩, told⟩ := listing_is_lossless wellFormed cells
  have high : 1 ≤ last := by
    cases highest with
    | nonzero there filled above =>
      apply Nat.le_of_not_lt
      exact fun low => absurd (above 1 25 low rfl) (by decide)
    | cleared all => exact absurd (all 1 25 rfl) (by decide)
  obtain ⟨row, there, described⟩ := rows 1 high
  have stands : e.StandsOn m 1 := ⟨rfl, rfl, rfl, by decide, rfl⟩
  have refused : e.step.2 = some (.error (.illegalInstruction (.unknown 12) 1 1)) := by decide
  refine ⟨wellFormed, cells, wellFormed', wellFormed'', (told lower wellFormed' rfl).mpr rfl, ?_,
    stands, row, there, ?_⟩
  · intro same
    have alike := (told other wellFormed'' rfl).mp same
    simp [m, other] at alike
  · rw [(described.illegal_iff e stands 12 1).mp refused]
    decide

end Memory

end AccMachine

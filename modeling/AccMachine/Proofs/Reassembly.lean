import AccMachine.Proofs.Coding
import AccMachine.Proofs.Listed
import AccMachine.Proofs.Loading

/-!
A listing read back as a program. The last two words of its lines spell the instructions in the
cells, and loading them brings back the memory, or stops at the first cell without a mnemonic.
-/
namespace AccMachine

namespace Text

def lastWords (line : List Char) : List Char :=
  [' '].intercalate ((words line).drop ((words line).length - 2))

theorem unbracketed_feeds (ls : List (List Char)) : unbracketed (ls.flatMap (· ++ ['\n'])) =
    (ls.map unbracketed).flatMap (· ++ ['\n']) := by
  induction ls with
  | nil => rfl
  | cons l ls ih =>
    rw [List.flatMap_cons, unbracketed_append, unbracketed_append, ih]
    rfl

theorem unbroken_unbracketed {cs : List Char} (unbroken : Unbroken cs) :
    Unbroken (unbracketed cs) :=
  ⟨fun member => unbroken.1 (List.mem_filter.mp member).1,
    fun member => unbroken.2 (List.mem_filter.mp member).1⟩

end Text

/-- The program text in a listing: the last two words of every line, without the brackets. -/
def disassembly (listed : String) : String :=
  String.ofList (((Text.lines (Text.unbracketed listed.toList)).map Text.lastWords).flatMap
    (· ++ ['\n']))

theorem Mnemonic.ofName?_unknown (n : Word) : ofName? (Opcode.unknown n).text = none := by
  have head : (Opcode.unknown n).text.toList.head? = some '?' := by
    rw [Opcode.text, String.toList_append]
    rfl
  cases found : ofName? (Opcode.unknown n).text with
  | none => rfl
  | some op =>
    rw [← ofName?_eq_some_iff.mp found] at head
    cases op <;> cases head

namespace Instruction

variable (i : Instruction)

theorem toList_text : i.text.toList =
    i.opcode.text.toList ++ [' '] ++ (toString i.operand.toNat).toList := by
  have parts : i.text = i.opcode.text ++ " " ++ toString i.operand.toNat := rfl
  rw [parts, String.toList_append, String.toList_append]
  rfl

theorem pair_text :
    Text.Pair i.text.toList i.opcode.text.toList (toString i.operand.toNat).toList :=
  ⟨[], [' '], [], by rw [toList_text, List.nil_append, List.append_nil], nofun,
    i.opcode.solid_text, List.forall_mem_singleton.mpr rfl, by simp,
    Text.solid_toString _, nofun⟩

theorem unbroken_text : Text.Unbroken i.text.toList := by
  have name := Text.unbroken_of_solid i.opcode.solid_text
  have operand := Text.unbroken_toString i.operand.toNat
  rw [toList_text, Text.unbroken_append, Text.unbroken_append]
  exact ⟨⟨name, by decide⟩, operand⟩

def disassembled (ramSize : Address) (w : Word) : List Char := (split ramSize w).text.toList

end Instruction

theorem lastWords_listedRow (ramSize : Address) (address : Nat) (value : Word) :
    Text.lastWords (Text.unbracketed (listedRow ramSize address value)) =
      Instruction.disassembled ramSize value := by
  rw [Text.lastWords, words_listedRow, Instruction.disassembled, Instruction.toList_text]
  simp [List.intercalate]

def Memory.shownWords (m : Memory) : List Word := m.cells.toList.take m.shown

theorem lines_disassembly (m : Memory) : Text.lines (disassembly (listing m)).toList =
    m.shownWords.map (Instruction.disassembled m.bounds.ramSize) := by
  have bare : Text.lines (Text.unbracketed (listing m).toList) =
      (listedRows m).map Text.unbracketed := by
    rw [toList_listing, Text.unbracketed_feeds]
    refine Text.lines_eq_iff.mpr (Text.lines_feeds (List.forall_mem_map.mpr fun row member => ?_))
    exact Text.unbroken_unbracketed (unbroken_listedRows row member)
  have spelled : ((listedRows m).map Text.unbracketed).map Text.lastWords =
      m.shownWords.map (Instruction.disassembled m.bounds.ramSize) := by
    apply List.ext_getElem?
    intro i
    simp only [listedRows, Memory.shownWords, List.getElem?_map, List.getElem?_mapIdx,
      Option.map_map, Function.comp_def, lastWords_listedRow]
  rw [disassembly, String.toList_ofList, bare, spelled]
  refine Text.lines_eq_iff.mpr (Text.lines_feeds (List.forall_mem_map.mpr fun w _ => ?_))
  exact Instruction.unbroken_text _

namespace Assembly

variable {b : Bounds} {index : Nat} {w : Word}

theorem judge_text (small : w ≤ b.maxValue) (room : index < b.ramSize.toNat) {op : Mnemonic}
    (named : (Instruction.split b.ramSize w).opcode = .known op) :
    judge b index (Instruction.disassembled b.ramSize w) = .ok w := by
  have cells := Nat.lt_of_le_of_lt (Nat.zero_le index) room
  have encoded := Instruction.encode_split small cells named
  have value := Instruction.exact_operand b.ramSize w
  have least := Nat.mod_le w.toNat b.ramSize.toNat
  have inside := Nat.mod_lt w.toNat cells
  have narrow := w.toNat_lt
  rw [← value] at least inside
  rw [Instruction.disassembled]
  generalize Instruction.split b.ramSize w = i at *
  have pair := i.pair_text
  rw [named] at pair
  have spells : Spells i.text.toList op i.operand.toNat :=
    spells_iff.mpr ⟨_, pair, Text.spelling_toString _⟩
  obtain ⟨operand, same, parsed⟩ :=
    parseLine_inside (b := b) (n := index + 1) spells inside (by omega)
  obtain rfl : i = ⟨.known op, operand⟩ := by
    rw [UInt64.toNat_inj.mp same, ← named]
  simp only [judge, parsed, if_neg (Nat.not_le.mpr room), encoded]
  rfl

theorem judge_text_unnamed (cells : 0 < b.ramSize.toNat) (high : 11 * b.ramSize.toNat ≤ w.toNat) :
    judge b index (Instruction.disassembled b.ramSize w) = .error
      (.unknownMnemonic (index + 1) ("?" ++ toString (w.toNat / b.ramSize.toNat))) := by
  have pair := (Instruction.split b.ramSize w).pair_text
  have number := Instruction.exact_number b.ramSize w
  cases opcode : (Instruction.split b.ramSize w).opcode with
  | known op =>
    have low := (Instruction.split_named_iff cells).mp ⟨op, opcode⟩
    omega
  | unknown n =>
    rw [opcode] at pair
    rw [(Opcode.ofNumber_unknown opcode).1] at number
    simp only [judge, parseLine, Instruction.disassembled, Text.words_eq_pair_iff.mpr pair,
      String.ofList_toList, Mnemonic.ofName?_unknown]
    rw [Opcode.text, number]

theorem accepted_texts {ws : List Word} (small : ∀ w ∈ ws, w ≤ b.maxValue)
    (named : ∀ w ∈ ws, w.toNat < 11 * b.ramSize.toNat) (room : index + ws.length ≤ b.ramSize.toNat)
    (rest : List (List Char)) :
    accepted b index (ws.map (Instruction.disassembled b.ramSize) ++ rest) =
        ws ++ accepted b (index + ws.length) rest ∧
      refusal? b index (ws.map (Instruction.disassembled b.ramSize) ++ rest) =
        refusal? b (index + ws.length) rest := by
  induction ws generalizing index with
  | nil => exact ⟨rfl, rfl⟩
  | cons w ws ih =>
    obtain ⟨small_w, small⟩ := List.forall_mem_cons.mp small
    obtain ⟨named_w, named⟩ := List.forall_mem_cons.mp named
    rw [List.length_cons] at room
    obtain ⟨op, known⟩ := (Instruction.split_named_iff (by omega)).mpr named_w
    have judged := judge_text small_w (show index < b.ramSize.toNat by omega) known
    have onward := ih small named (show index + 1 + ws.length ≤ b.ramSize.toNat by omega)
    simp only [List.map_cons, List.cons_append, accepted, refusal?, judged, onward,
      List.length_cons, Nat.add_assoc, Nat.add_comm 1, and_self]

theorem exists_first_unnamed {ws : List Word} {n : Nat} (some : ∃ w ∈ ws, n ≤ w.toNat) :
    ∃ front w rest, ws = front ++ w :: rest ∧ n ≤ w.toNat ∧ ∀ v ∈ front, v.toNat < n := by
  obtain ⟨v, member, high⟩ := some
  obtain ⟨w, found⟩ : ∃ w, ws.find? (fun w => n ≤ w.toNat) = Option.some w := by
    rw [← Option.isSome_iff_exists, List.find?_isSome]
    exact ⟨v, member, decide_eq_true high⟩
  obtain ⟨first, front, rest, parts, others⟩ := List.find?_eq_some_iff_append.mp found
  refine ⟨front, w, rest, parts, of_decide_eq_true first, fun u there => ?_⟩
  simpa using others u there

end Assembly

namespace Memory

variable {m : Memory}

theorem eq_of_cells {m' : Memory} (bounds : m.bounds = m'.bounds)
    (cells : ∀ i : Nat, m.cells[i]? = m'.cells[i]?) : m = m' := by
  obtain ⟨b, cs⟩ := m
  obtain ⟨b', cs'⟩ := m'
  obtain rfl : b = b' := bounds
  obtain rfl : cs = cs' := Array.ext_getElem? cells
  rfl

theorem getElem?_shownWords {i : Nat} (lt : i < m.shownWords.length) :
    m.shownWords[i]? = m.cells[i]? := by
  rw [shownWords, List.length_take, Nat.lt_min] at lt
  rw [shownWords, List.getElem?_take_of_lt lt.1, Array.getElem?_toList]

theorem shownWords_length_le (h : m.WellFormed) : m.shownWords.length ≤ m.bounds.ramSize.toNat := by
  rw [shownWords, List.length_take, Array.length_toList, h.1]
  exact Nat.min_le_right _ _

theorem getElem?_zeroed (b : Bounds) (i : Nat) :
    (zeroed b).cells[i]? = if i < b.ramSize.toNat then some 0 else none := by
  rw [zeroed, Array.getElem?_replicate]

theorem getElem?_stored_zeroed {b : Bounds} {ws : List Word}
    (fits : ws.length ≤ b.ramSize.toNat) (i : Nat) : ((zeroed b).stored 0 ws).cells[i]? =
      ws[i]?.or (if i < b.ramSize.toNat then some 0 else none) := by
  have size : (zeroed b).cells.size = b.ramSize.toNat := Array.size_replicate
  have narrow := b.ramSize.toNat_lt
  rw [getElem?_stored (by omega) (by omega), if_neg (Nat.not_lt_zero i), Nat.sub_zero,
    getElem?_zeroed]

theorem stored_shownWords (h : m.WellFormed) : (zeroed m.bounds).stored 0 m.shownWords = m := by
  refine eq_of_cells (stored_bounds _ _ _) fun i => ?_
  rw [getElem?_stored_zeroed (shownWords_length_le h)]
  by_cases lt : i < m.shownWords.length
  · rw [← getElem?_shownWords lt, List.getElem?_eq_getElem lt, Option.some_or]
  · rw [List.getElem?_eq_none (Nat.not_lt.mp lt), Option.none_or, ← h.1]
    rw [shownWords, List.length_take, Array.length_toList] at lt
    split
    · rename_i inside
      have there := Array.getElem?_eq_getElem inside
      rw [there, zero_of_not_shown there (by omega)]
    · rename_i past
      rw [Array.getElem?_eq_none (Nat.not_lt.mp past)]

theorem shownWords_length : m.shownWords.length = (Text.lines (listing m).toList).length := by
  rw [lines_listing, listedRows, List.length_mapIdx, shownWords]

/-- A memory that has the cells of `m` below the cell `a` and is cleared from there on. -/
structure CutAt (a : Nat) (m m' : Memory) : Prop where
  bounds_eq : m'.bounds = m.bounds
  size_eq : m'.cells.size = m.cells.size
  below : ∀ i < a, m'.cells[i]? = m.cells[i]?
  cleared : ∀ i, a ≤ i → i < m.cells.size → m'.cells[i]? = some 0

theorem cutAt_stored (h : m.WellFormed) {ws rest : List Word} (parts : m.shownWords = ws ++ rest) :
    m.CutAt ws.length ((zeroed m.bounds).stored 0 ws) := by
  have shown := congrArg List.length parts
  rw [List.length_append] at shown
  have few := shownWords_length_le h
  have cells := getElem?_stored_zeroed (show ws.length ≤ m.bounds.ramSize.toNat by omega)
  refine ⟨stored_bounds _ _ _, ?_, fun i lt => ?_, fun i le lt => ?_⟩
  · rw [stored_size, h.1]
    exact Array.size_replicate
  · rw [cells, ← getElem?_shownWords (by omega), parts, List.getElem?_append_left lt,
      List.getElem?_eq_getElem lt, Option.some_or]
  · rw [cells, List.getElem?_eq_none le, Option.none_or, if_pos (h.1 ▸ lt)]

end Memory

namespace Assembly

theorem load_disassembly {m : Memory} (h : m.WellFormed) {ws rest : List Word}
    (parts : m.shownWords = ws ++ rest)
    (named : ∀ w ∈ ws, w.toNat < 11 * m.bounds.ramSize.toNat) :
    load (.zeroed m.bounds) (disassembly (listing m)) =
      ((Memory.zeroed m.bounds).stored 0 (ws ++
          accepted m.bounds ws.length (rest.map (Instruction.disassembled m.bounds.ramSize))),
        match refusal? m.bounds ws.length
          (rest.map (Instruction.disassembled m.bounds.ramSize)) with
        | none => .ok (Text.lines (listing m).toList).length
        | some e => .error e) := by
  have few := Memory.shownWords_length_le h
  have small : ∀ w ∈ ws, w ≤ m.bounds.maxValue := by
    intro w member
    have shown : w ∈ m.shownWords := parts ▸ List.mem_append_left _ member
    exact h.2 w (Array.mem_toList_iff.mp (List.mem_of_mem_take shown))
  have room : 0 + ws.length ≤ m.bounds.ramSize.toNat := by
    rw [parts, List.length_append] at few
    omega
  obtain ⟨taken, refused⟩ := accepted_texts small named room
    (rest.map (Instruction.disassembled m.bounds.ramSize))
  rw [Nat.zero_add] at taken refused
  have same : (Memory.zeroed m.bounds).bounds = m.bounds := rfl
  have loaded := loadLines_eq (Memory.zeroed_wellFormed m.bounds) 0
    (m.shownWords.map (Instruction.disassembled m.bounds.ramSize))
  rw [same, List.length_map, Memory.shownWords_length, Nat.zero_add, parts, List.map_append, taken,
    refused] at loaded
  rw [load, lines_disassembly, parts, List.map_append]
  exact loaded

/-- A listing is program text again. Loaded into a cleared memory it brings back the one that it
was made of, or stops at the first cell without a name for its operation. -/
theorem listing_reassembles {m : Memory} (h : m.WellFormed) :
    ((∀ i < (Text.lines (listing m).toList).length, ∀ w, m.cells[i]? = some w →
        w.toNat < 11 * m.bounds.ramSize.toNat) →
      load (.zeroed m.bounds) (disassembly (listing m)) =
        (m, .ok (Text.lines (listing m).toList).length)) ∧
    ((∃ i < (Text.lines (listing m).toList).length, ∃ w, m.cells[i]? = some w ∧
        11 * m.bounds.ramSize.toNat ≤ w.toNat) →
      ∃ a w, m.cells[a]? = some w ∧ 11 * m.bounds.ramSize.toNat ≤ w.toNat ∧
        (∀ i < a, ∀ v, m.cells[i]? = some v → v.toNat < 11 * m.bounds.ramSize.toNat) ∧
        (load (.zeroed m.bounds) (disassembly (listing m))).2 = .error
          (.unknownMnemonic (a + 1) ("?" ++ toString (w.toNat / m.bounds.ramSize.toNat))) ∧
        m.CutAt a (load (.zeroed m.bounds) (disassembly (listing m))).1) := by
  rw [← Memory.shownWords_length]
  constructor
  · intro all
    have named : ∀ w ∈ m.shownWords, w.toNat < 11 * m.bounds.ramSize.toNat := by
      intro w member
      obtain ⟨i, there⟩ := List.getElem?_of_mem member
      obtain ⟨lt, -⟩ := List.getElem?_eq_some_iff.mp there
      exact all i lt w ((Memory.getElem?_shownWords lt).symm.trans there)
    rw [load_disassembly h (List.append_nil _).symm named, Memory.shownWords_length]
    simp only [List.map_nil, accepted, refusal?, List.append_nil, Memory.stored_shownWords h]
  · rintro ⟨i, lt, v, there, high⟩
    have shown : v ∈ m.shownWords :=
      List.mem_of_getElem? ((Memory.getElem?_shownWords lt).trans there)
    obtain ⟨ws, w, rest, parts, unnamed, named⟩ := exists_first_unnamed ⟨v, shown, high⟩
    have length := congrArg List.length parts
    rw [List.length_append, List.length_cons] at length
    refine ⟨ws.length, w, ?_, unnamed, ?_, ?_⟩
    · rw [← Memory.getElem?_shownWords (by omega), parts,
        List.getElem?_append_right (Nat.le_refl _), Nat.sub_self, List.getElem?_cons_zero]
    · intro i lt u there
      rw [← Memory.getElem?_shownWords (by omega), parts, List.getElem?_append_left lt] at there
      exact named u (List.mem_of_getElem? there)
    · have cells : 0 < m.bounds.ramSize.toNat := by
        have few := Memory.shownWords_length_le h
        omega
      rw [load_disassembly h parts named]
      simp only [List.map_cons, accepted, refusal?, judge_text_unnamed cells unnamed,
        List.append_nil, Memory.cutAt_stored h parts, and_self]

theorem listing_reassembles_with_three_cells :
    load (.zeroed ⟨3, 99⟩) (disassembly (listing ⟨⟨3, 99⟩, #[4, 32, 0]⟩)) =
      (⟨⟨3, 99⟩, #[4, 32, 0]⟩, .ok 2) ∧
    ∃ a w, (#[4, 35, 0] : Array Word)[a]? = some w ∧ 33 ≤ w.toNat ∧
      (load (.zeroed ⟨3, 99⟩) (disassembly (listing ⟨⟨3, 99⟩, #[4, 35, 0]⟩))).2 =
        .error (.unknownMnemonic (a + 1) ("?" ++ toString (w.toNat / 3))) := by
  have count : ∀ w : Word, w ≠ 0 →
      (Text.lines (listing ⟨⟨3, 99⟩, #[4, w, 0]⟩).toList).length = 2 := by
    intro w some
    rw [← Memory.shownWords_length]
    simp [Memory.shownWords, Memory.shown, Memory.highestNonzero?, Memory.highestNonzeroBelow, some]
  have named := (listing_reassembles (m := ⟨⟨3, 99⟩, #[4, 32, 0]⟩) ⟨rfl, by simp⟩).1
  have unnamed := (listing_reassembles (m := ⟨⟨3, 99⟩, #[4, 35, 0]⟩) ⟨rfl, by simp⟩).2
  rw [count _ (by decide)] at named unnamed
  obtain ⟨a, w, there, high, -, stops, -⟩ := unnamed ⟨1, by decide, 35, rfl, by decide⟩
  refine ⟨named ?_, a, w, there, high, stops⟩
  intro i lt w there
  obtain rfl | rfl : i = 0 ∨ i = 1 := by omega
  · obtain rfl : 4 = w := Option.some.inj there
    decide
  · obtain rfl : 32 = w := Option.some.inj there
    decide

example : disassembly (listing ⟨⟨3, 99⟩, #[4, 35, 0]⟩) = "TAKE 1\n?11 2\n" := by decide

end Assembly
end AccMachine

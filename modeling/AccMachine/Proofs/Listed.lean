import AccMachine.Assembly
import AccMachine.Proofs.Moves
import AccMachine.Proofs.Printing
import AccMachine.Proofs.Verdict

/-!
What a listing shows: its lines, which are as many as there are cells up to the last one that is not
zero, and the words of each line between its brackets.
-/
namespace AccMachine

namespace Memory

def shown (m : Memory) : Nat := m.highestNonzero?.getD 0 + 1

theorem zero_above_highest {cells : Array Word} {n i : Nat} (lt : i < n)
    (above : ∀ a, highestNonzeroBelow cells n = some a → a < i) : cells[i]?.getD 0 = 0 := by
  induction n with
  | zero => omega
  | succ n ih =>
    rw [highestNonzeroBelow] at above
    split at above
    · have far := above n rfl
      omega
    · rename_i zero
      rcases Nat.lt_or_eq_of_le (Nat.le_of_lt_succ lt) with below | rfl
      · exact ih below above
      · exact Decidable.not_not.mp zero

theorem zero_of_above {m : Memory} {i : Nat} {v : Word} (there : m.cells[i]? = some v)
    (above : ∀ a, m.highestNonzero? = some a → a < i) : v = 0 := by
  obtain ⟨lt, -⟩ := Array.getElem?_eq_some_iff.mp there
  have zero := zero_above_highest lt above
  rwa [there] at zero

theorem zero_of_not_shown {m : Memory} {i : Nat} {v : Word} (there : m.cells[i]? = some v)
    (hidden : m.shown ≤ i) : v = 0 := by
  apply zero_of_above there
  intro a found
  rwa [shown, found] at hidden

end Memory

namespace Text

def unbracketed (cs : List Char) : List Char := cs.filter fun c => c ≠ '[' ∧ c ≠ ']'

theorem unbracketed_append (cs ds : List Char) :
    unbracketed (cs ++ ds) = unbracketed cs ++ unbracketed ds := List.filter_append _ _

theorem unbracketed_eq_self {cs : List Char} (opened : '[' ∉ cs) (closed : ']' ∉ cs) :
    unbracketed cs = cs := by
  rw [unbracketed, List.filter_eq_self]
  intro c member
  have apart : c ≠ '[' ∧ c ≠ ']' :=
    ⟨fun same => opened (same ▸ member), fun same => closed (same ▸ member)⟩
  exact decide_eq_true apart

theorem unbracketed_toString (n : Nat) :
    unbracketed (toString n).toList = (toString n).toList := by
  apply unbracketed_eq_self <;> intro member <;> cases (digits_toString n).2 _ member

theorem unbracketed_blanks (n : Nat) : unbracketed (blanks n) = blanks n := by
  apply unbracketed_eq_self <;> intro member <;> cases List.eq_of_mem_replicate member

end Text

theorem Opcode.solid_text (o : Opcode) : Text.Solid o.text.toList := by
  cases o with
  | known op => exact op.solid_name
  | unknown n =>
    have mark : Text.Solid "?".toList := by decide
    have digits := Text.solid_toString n.toNat
    rw [text, String.toList_append]
    exact ⟨by simp, List.forall_mem_append.mpr ⟨mark.2, digits.2⟩⟩

def listedRow (ramSize : Address) (address : Nat) (value : Word) : List Char :=
  (listingLine ramSize address value).toList.dropLast

def listedRows (m : Memory) : List (List Char) :=
  (m.cells.toList.take m.shown).mapIdx (listedRow m.bounds.ramSize)

/-- The columns of a line: brackets stand around the numbers, and blanks only outside of words. -/
theorem listingLine_columns (ramSize : Address) (address : Nat) (value : Word) :
    ∃ i j k l, (listingLine ramSize address value).toList =
      ['['] ++ Text.blanks i ++ (toString address).toList ++ [']', ' ', '['] ++ Text.blanks j ++
        (toString value.toNat).toList ++ [']', ' '] ++
        (Instruction.split ramSize value).opcode.text.toList ++ Text.blanks k ++ [' ', '['] ++
        Text.blanks l ++ (toString (Instruction.split ramSize value).operand.toNat).toList ++
        [']'] ++ ['\n'] := by
  obtain ⟨i, addressColumn⟩ := Text.toList_rightAligned 3 address
  obtain ⟨j, valueColumn⟩ := Text.toList_rightAligned 5 value.toNat
  obtain ⟨k, nameColumn⟩ :=
    Text.toList_fill_left 4 (Instruction.split ramSize value).opcode.text
  obtain ⟨l, operandColumn⟩ :=
    Text.toList_rightAligned 4 (Instruction.split ramSize value).operand.toNat
  refine ⟨i, j, k, l, ?_⟩
  have parts : listingLine ramSize address value =
      "[" ++ Text.rightAligned 3 address ++ "] [" ++ Text.rightAligned 5 value.toNat ++ "] " ++
        (Text.Column.fill ⟨.left, 4, none⟩ (Instruction.split ramSize value).opcode.text ++ " ") ++
        ("[" ++ Text.rightAligned 4 (Instruction.split ramSize value).operand.toNat ++ "]\n") := rfl
  rw [parts]
  simp [addressColumn, valueColumn, nameColumn, operandColumn]

theorem Opcode.unbracketed_text (o : Opcode) :
    Text.unbracketed o.text.toList = o.text.toList := by
  cases o with
  | known op => cases op <;> decide
  | unknown n =>
    have digits := Text.unbracketed_toString n.toNat
    rw [text, String.toList_append, Text.unbracketed_append, digits]
    rfl

section

variable (ramSize : Address) (address : Nat) (value : Word)

theorem toList_listingLine :
    (listingLine ramSize address value).toList = listedRow ramSize address value ++ ['\n'] := by
  obtain ⟨i, j, k, l, columns⟩ := listingLine_columns ramSize address value
  rw [listedRow, columns, List.dropLast_concat]

theorem unbroken_listedRow : Text.Unbroken (listedRow ramSize address value) := by
  obtain ⟨i, j, k, l, columns⟩ := listingLine_columns ramSize address value
  have name := Text.unbroken_of_solid (Instruction.split ramSize value).opcode.solid_text
  rw [listedRow, columns, List.dropLast_concat]
  simp only [Text.unbroken_append, Text.unbroken_toString, name, Text.unbroken_blanks, and_true]
  decide

theorem words_listedRow : Text.words (Text.unbracketed (listedRow ramSize address value)) =
    [(toString address).toList, (toString value.toNat).toList,
      (Instruction.split ramSize value).opcode.text.toList,
      (toString (Instruction.split ramSize value).operand.toNat).toList] := by
  obtain ⟨i, j, k, l, columns⟩ := listingLine_columns ramSize address value
  have name := (Instruction.split ramSize value).opcode.solid_text
  have number := Text.solid_toString
  have blanks := Text.blank_blanks
  have second : Text.Blank (' ' :: Text.blanks j) := List.forall_mem_cons.mpr ⟨rfl, blanks j⟩
  have third : Text.Blank [' '] := List.forall_mem_singleton.mpr rfl
  have fourth : Text.Blank (Text.blanks k ++ ' ' :: Text.blanks l) :=
    List.forall_mem_append.mpr ⟨blanks k, List.forall_mem_cons.mpr ⟨rfl, blanks l⟩⟩
  have row : Text.unbracketed (listedRow ramSize address value) =
      Text.blanks i ++ ((toString address).toList ++ ((' ' :: Text.blanks j) ++
        ((toString value.toNat).toList ++ ([' '] ++
          ((Instruction.split ramSize value).opcode.text.toList ++
            ((Text.blanks k ++ ' ' :: Text.blanks l) ++
              ((toString (Instruction.split ramSize value).operand.toNat).toList ++ []))))))) := by
    rw [listedRow, columns, List.dropLast_concat]
    simp only [Text.unbracketed_append, Text.unbracketed_toString, Text.unbracketed_blanks,
      Opcode.unbracketed_text]
    simp [Text.unbracketed]
  rw [row, Text.words_blank_append (blanks i),
    Text.words_solid_append (number _) (Text.parted_gap second (by simp) _),
    Text.words_blank_append second,
    Text.words_solid_append (number _) (Text.parted_gap third (by simp) _),
    Text.words_blank_append third,
    Text.words_solid_append name (Text.parted_gap fourth (by simp) _),
    Text.words_blank_append fourth, Text.words_solid_append (number _) (by rintro _ ⟨⟩)]
  rfl

end

theorem toList_listing (m : Memory) :
    (listing m).toList = (listedRows m).flatMap (· ++ ['\n']) := by
  have rows : ((m.cells.toList.take m.shown).mapIdx (listingLine m.bounds.ramSize)).map
      String.toList = (listedRows m).map (· ++ ['\n']) := by
    apply List.ext_getElem?
    intro i
    simp [listedRows, toList_listingLine, Function.comp_def]
  rw [List.flatMap_def, ← rows, ← List.flatMap_def, ← String.toList_join]
  rfl

theorem unbroken_listedRows {m : Memory} : ∀ row ∈ listedRows m, Text.Unbroken row := by
  intro row member
  obtain ⟨i, lt, rfl⟩ := List.mem_mapIdx.mp member
  exact unbroken_listedRow _ _ _

theorem lines_listing (m : Memory) : Text.lines (listing m).toList = listedRows m := by
  rw [toList_listing]
  exact Text.lines_eq_iff.mpr (Text.lines_feeds unbroken_listedRows)

end AccMachine

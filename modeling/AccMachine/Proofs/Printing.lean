import AccMachine.Proofs.Grammar
import AccMachine.Text.Writing

/-!
Printed text, as the readers of words, integers and lines find it.
-/
namespace AccMachine.Text

theorem digits_toString (n : Nat) : Digits (toString n).toList := by
  rw [Nat.toString_eq_ofList_toDigits, String.toList_ofList]
  exact ⟨Nat.toDigits_ne_nil, fun c member =>
    Nat.isDigit_of_mem_toDigits (by decide) (by decide) member⟩

theorem ofDigitChars_toString (n : Nat) : Nat.ofDigitChars 10 (toString n).toList 0 = n := by
  rw [Nat.toString_eq_ofList_toDigits, String.toList_ofList]
  exact Nat.ofDigitChars_toDigits (by decide) (by decide)

theorem spelling_toString (n : Nat) : Spelling (toString n).toList n := by
  have plain := Spelling.plain (digits_toString n)
  rwa [ofDigitChars_toString] at plain

theorem spelling_toString_int (i : Int) : Spelling (toString i).toList i := by
  cases i with
  | ofNat n => exact spelling_toString n
  | negSucc n =>
    have minus := Spelling.minus (digits_toString (n + 1))
    rw [ofDigitChars_toString] at minus
    rw [show toString (Int.negSucc n) = "-" ++ toString (n + 1) from rfl, String.toList_append]
    exact minus

theorem toString_injective {m n : Nat} (same : (toString m).toList = (toString n).toList) :
    m = n := by
  rw [← ofDigitChars_toString m, same, ofDigitChars_toString]

theorem solid_toString (n : Nat) : Solid (toString n).toList :=
  solid_of_spelling (spelling_toString n)

theorem blank_blanks (n : Nat) : Blank (blanks n) := by
  intro c member
  rw [List.eq_of_mem_replicate member]
  rfl

theorem toList_rightAligned (width n : Nat) :
    ∃ free, (rightAligned width n).toList = blanks free ++ (toString n).toList :=
  ⟨width - (toString n).toList.length, by
    simp [rightAligned, Column.fill, Column.fillChars, Column.leading, blanks]⟩

theorem toList_fill_left (width : Nat) (s : String) :
    ∃ free, (Column.fill ⟨.left, width, none⟩ s).toList = s.toList ++ blanks free :=
  ⟨width - s.toList.length, by
    simp [Column.fill, Column.fillChars, Column.leading, blanks]⟩

def Unbroken (cs : List Char) : Prop := '\n' ∉ cs ∧ '\r' ∉ cs

instance (cs : List Char) : Decidable (Unbroken cs) := inferInstanceAs (Decidable (_ ∧ _))

@[simp] theorem unbroken_append {cs ds : List Char} :
    Unbroken (cs ++ ds) ↔ Unbroken cs ∧ Unbroken ds := by
  simp only [Unbroken, List.mem_append, not_or]
  exact and_and_and_comm

theorem unbroken_of_solid {w : List Char} (solid : Solid w) : Unbroken w := by
  constructor
  · intro member
    cases solid.2 _ member
  · intro member
    cases solid.2 _ member

theorem unbroken_toString (n : Nat) : Unbroken (toString n).toList :=
  unbroken_of_solid (solid_toString n)

theorem unbroken_blanks (n : Nat) : Unbroken (blanks n) := by
  constructor <;> intro member <;> cases List.eq_of_mem_replicate member

theorem lines_feeds {ls : List (List Char)} (unbroken : ∀ l ∈ ls, Unbroken l) :
    Lines (ls.flatMap (· ++ ['\n'])) ls := by
  induction ls with
  | nil => exact .none
  | cons l ls ih =>
    obtain ⟨⟨inner, plain⟩, rest⟩ := List.forall_mem_cons.mp unbroken
    have open_end : l.getLast? ≠ some '\r' := fun last => plain (List.mem_of_getLast? last)
    have fed := Lines.feed inner open_end (ih rest)
    rwa [List.flatMap_cons, List.append_assoc]

end AccMachine.Text

import Mathlib.Data.List.TakeDrop
import AccMachine.CommandLine.Options
import AccMachine.Proofs.Misspelling
import AccMachine.Proofs.Printing

/-!
Assignments to cells, said from how a text is put together: an address and a value with the first
`=` between them. A text that is no assignment is refused for the first thing that is wrong with it,
and the address comes before the value.
-/
namespace AccMachine.Text

/-- The text is `w` with blanks around it, and `w` has a blank at neither of its ends. -/
def Trimmed (cs w : List Char) : Prop :=
  ∃ before after, cs = before ++ w ++ after ∧ Blank before ∧ Blank after ∧
    (∀ c ∈ w.head?, isBlank c = false) ∧ ∀ c ∈ w.getLast?, isBlank c = false

theorem dropWhile_isBlank_append {gap cs : List Char} (blank : Blank gap)
    (opens : ∀ c ∈ cs.head?, isBlank c = false) : (gap ++ cs).dropWhile isBlank = cs := by
  rw [List.dropWhile_append_of_pos blank]
  cases cs with
  | nil => rfl
  | cons c cs => exact List.dropWhile_cons_of_neg (by simp [opens c rfl])

theorem exists_blank_dropWhile (cs : List Char) : ∃ gap, Blank gap ∧
    cs = gap ++ cs.dropWhile isBlank ∧ ∀ c ∈ (cs.dropWhile isBlank).head?, isBlank c = false := by
  refine ⟨cs.takeWhile isBlank, fun c member => List.all_eq_true.mp List.all_takeWhile c member,
    List.takeWhile_append_dropWhile.symm, ?_⟩
  intro c head
  have stopped := List.head?_dropWhile_not isBlank cs
  rwa [Option.mem_def.mp head] at stopped

theorem trimmed_trim (cs : List Char) : Trimmed cs (trim cs) := by
  obtain ⟨before, blank, split, opens⟩ := exists_blank_dropWhile cs
  obtain ⟨after, blank', split', closes⟩ := exists_blank_dropWhile (cs.dropWhile isBlank).reverse
  have rest : cs.dropWhile isBlank = trim cs ++ after.reverse := by
    rw [← List.reverse_inj, List.reverse_append, List.reverse_reverse, trim, List.reverse_reverse]
    exact split'
  refine ⟨before, after.reverse, ?_, blank, ?_, ?_, ?_⟩
  · rw [List.append_assoc, ← rest]
    exact split
  · exact fun c member => blank' c (List.mem_reverse.mp member)
  · intro c head
    rw [rest, List.head?_append] at opens
    exact opens c (Option.or_eq_some_iff.mpr (.inl head))
  · intro c last
    rw [trim, List.getLast?_reverse] at last
    exact closes c last

theorem trim_eq_iff {cs w : List Char} : trim cs = w ↔ Trimmed cs w := by
  constructor
  · rintro rfl
    exact trimmed_trim cs
  · rintro ⟨before, after, rfl, blank, blank', opens, closes⟩
    have backwards : Blank after.reverse := fun c member => blank' c (List.mem_reverse.mp member)
    by_cases none : w = []
    · subst none
      have all : Blank (before ++ [] ++ after) := by
        intro c member
        rw [List.append_nil, List.mem_append] at member
        exact member.elim (blank c) (blank' c)
      have nothing : (before ++ [] ++ after ++ []).dropWhile isBlank = [] :=
        dropWhile_isBlank_append all (by simp)
      rw [List.append_nil] at nothing
      rw [trim, nothing]
      rfl
    · have opens' : ∀ c ∈ (w ++ after).head?, isBlank c = false := by
        intro c head
        rw [List.head?_append, Option.or_of_isSome (by simpa using none)] at head
        exact opens c head
      have closes' : ∀ c ∈ w.reverse.head?, isBlank c = false := by
        intro c head
        rw [List.head?_reverse] at head
        exact closes c head
      rw [trim, List.append_assoc, dropWhile_isBlank_append blank opens', List.reverse_append,
        dropWhile_isBlank_append backwards closes', List.reverse_reverse]

theorem exists_trimmed_iff {cs : List Char} {p : List Char → Prop} :
    (∃ w, Trimmed cs w ∧ p w) ↔ p (trim cs) := by
  simp only [← trim_eq_iff, exists_eq_left']

theorem trimmed_solid {before w after : List Char} (blank : Blank before) (solid : Solid w)
    (blank' : Blank after) : Trimmed (before ++ w ++ after) w :=
  ⟨before, after, rfl, blank, blank', fun c head => solid.2 c (List.mem_of_mem_head? head),
    fun c last => solid.2 c (List.mem_of_getLast? last)⟩

end AccMachine.Text

namespace AccMachine.CommandLine
open Text

def Parts (cs left right : List Char) : Prop := cs = left ++ '=' :: right ∧ '=' ∉ left

def Padded (cs : List Char) (i : Int) : Prop := ∃ w, Trimmed cs w ∧ Spelling w i

def Assigns (cs : List Char) (a v : Int) : Prop :=
  ∃ left right, Parts cs left right ∧ Padded left a ∧ Padded right v

/-- Why a text is no assignment. What is wrong with the address decides, whatever stands in the
place of the value. -/
inductive Refused : List Char → AssignmentError → Prop where
  | noEquals {cs : List Char} (missing : '=' ∉ cs) : Refused cs (.noEquals (String.ofList cs))
  | address {cs left right w : List Char} {e : IntegerError} (parts : Parts cs left right)
      (trimmed : Trimmed left w) (wrong : Misspelled w e) : Refused cs (.address e)
  | value {cs left right w : List Char} {a : Int64} {e : IntegerError} (parts : Parts cs left right)
      (address : Padded left a.toInt) (trimmed : Trimmed right w) (wrong : Misspelled w e) :
      Refused cs (.value e)

theorem span_append {left rest : List Char} (free : '=' ∉ left)
    (opens : ∀ c ∈ rest.head?, c = '=') : (left ++ rest).span (· ≠ '=') = (left, rest) := by
  have before : ∀ c ∈ left, decide (c ≠ '=') = true :=
    fun c member => decide_eq_true (ne_of_mem_of_not_mem member free)
  rw [List.span_eq_takeWhile_dropWhile, List.takeWhile_append_of_pos before,
    List.dropWhile_append_of_pos before]
  cases rest with
  | nil => simp
  | cons c rest =>
    obtain rfl := opens c rfl
    simp

theorem span_of_parts {cs left right : List Char} (parts : Parts cs left right) :
    cs.span (· ≠ '=') = (left, '=' :: right) := by
  obtain ⟨rfl, free⟩ := parts
  exact span_append free (by simp)

theorem span_of_missing {cs : List Char} (missing : '=' ∉ cs) :
    cs.span (· ≠ '=') = (cs, []) := by
  have whole : (cs ++ []).span (· ≠ '=') = (cs, []) := span_append missing (by simp)
  rwa [List.append_nil] at whole

theorem signed64_trim_eq_ok_iff {cs : List Char} {v : Int64} :
    signed64 (trim cs) = .ok v ↔ Padded cs v.toInt := by
  rw [Padded, exists_trimmed_iff, signed64_eq_ok_iff]

theorem signed64_trim_eq_error_iff {cs : List Char} {e : IntegerError} :
    signed64 (trim cs) = .error e ↔ ∃ w, Trimmed cs w ∧ Misspelled w e := by
  rw [exists_trimmed_iff, signed64_eq_error_iff]

theorem Assigns.read {cs : List Char} {a v : Int64} (assigns : Assigns cs a.toInt v.toInt) :
    readAssignment cs = .ok (a, v) := by
  obtain ⟨left, right, parts, address, value⟩ := assigns
  simp only [readAssignment, span_of_parts parts, signed64_trim_eq_ok_iff.mpr address,
    signed64_trim_eq_ok_iff.mpr value]

theorem Refused.read {cs : List Char} {e : AssignmentError} (refused : Refused cs e) :
    readAssignment cs = .error e := by
  cases refused with
  | noEquals missing => simp only [readAssignment, span_of_missing missing]
  | address parts trimmed wrong =>
    simp only [readAssignment, span_of_parts parts,
      signed64_trim_eq_error_iff.mpr ⟨_, trimmed, wrong⟩]
  | value parts address trimmed wrong =>
    simp only [readAssignment, span_of_parts parts, signed64_trim_eq_ok_iff.mpr address,
      signed64_trim_eq_error_iff.mpr ⟨_, trimmed, wrong⟩]

theorem assigns_or_refused (cs : List Char) :
    (∃ a v : Int64, Assigns cs a.toInt v.toInt) ∨ ∃ e, Refused cs e := by
  by_cases present : '=' ∈ cs
  · obtain ⟨left, right, parts⟩ : ∃ left right, Parts cs left right :=
      List.eq_append_cons_of_mem present
    cases address : signed64 (trim left) with
    | error e =>
      obtain ⟨w, trimmed, wrong⟩ := signed64_trim_eq_error_iff.mp address
      exact .inr ⟨_, .address parts trimmed wrong⟩
    | ok a =>
      have padded := signed64_trim_eq_ok_iff.mp address
      cases value : signed64 (trim right) with
      | error e =>
        obtain ⟨w, trimmed, wrong⟩ := signed64_trim_eq_error_iff.mp value
        exact .inr ⟨_, .value parts padded trimmed wrong⟩
      | ok v => exact .inl ⟨a, v, left, right, parts, padded, signed64_trim_eq_ok_iff.mp value⟩
  · exact .inr ⟨_, .noEquals present⟩

theorem readAssignment_eq_ok_iff {cs : List Char} {a v : Int64} :
    readAssignment cs = .ok (a, v) ↔ Assigns cs a.toInt v.toInt := by
  constructor
  · intro read
    rcases assigns_or_refused cs with ⟨a', v', assigns⟩ | ⟨e, refused⟩
    · obtain ⟨rfl, rfl⟩ := Prod.mk.inj (Except.ok.inj (assigns.read.symm.trans read))
      exact assigns
    · rw [refused.read] at read
      cases read
  · exact Assigns.read

theorem readAssignment_eq_error_iff {cs : List Char} {e : AssignmentError} :
    readAssignment cs = .error e ↔ Refused cs e := by
  constructor
  · intro read
    rcases assigns_or_refused cs with ⟨a, v, assigns⟩ | ⟨e', refused⟩
    · rw [assigns.read] at read
      cases read
    · obtain rfl := Except.error.inj (refused.read.symm.trans read)
      exact refused
  · exact Refused.read

theorem padded_spelling {before w after : List Char} {i : Int} (blank : Blank before)
    (spelled : Spelling w i) (blank' : Blank after) : Padded (before ++ w ++ after) i :=
  ⟨w, trimmed_solid blank (solid_of_spelling spelled) blank', spelled⟩

theorem equals_not_mem_of_blank {gap : List Char} (blank : Blank gap) : '=' ∉ gap :=
  fun member => absurd (blank _ member) (by decide)

theorem equals_not_mem_of_spelling {w : List Char} {i : Int} (spelled : Spelling w i) :
    '=' ∉ w := by
  have not_digits {ds : List Char} (digits : Digits ds) : '=' ∉ ds :=
    fun member => absurd (digits.2 _ member) (by decide)
  cases spelled with
  | plain digits => exact not_digits digits
  | plus digits => simpa using not_digits digits
  | minus digits => simpa using not_digits digits

theorem assigns_of_padded {left right : List Char} {a v : Int} (address : Padded left a)
    (value : Padded right v) : Assigns (left ++ '=' :: right) a v := by
  refine ⟨left, right, ⟨rfl, ?_⟩, address, value⟩
  obtain ⟨w, ⟨before, after, rfl, blank, blank', -⟩, spelled⟩ := address
  simp only [List.mem_append, not_or]
  exact ⟨⟨equals_not_mem_of_blank blank, equals_not_mem_of_spelling spelled⟩,
    equals_not_mem_of_blank blank'⟩

/-- A text is read as the address and the value that it assigns, or refused for the first thing that
is wrong with it, and printed numbers are read back from between any blanks. -/
theorem assignments_read_back :
    (∀ (cs : List Char) (a v : Int64),
      readAssignment cs = .ok (a, v) ↔ Assigns cs a.toInt v.toInt) ∧
    (∀ (cs : List Char) (e : AssignmentError), readAssignment cs = .error e ↔ Refused cs e) ∧
    ∀ (a v : Int64) (w₁ w₂ w₃ w₄ : List Char), Blank w₁ → Blank w₂ → Blank w₃ → Blank w₄ →
      readAssignment (w₁ ++ (toString a.toInt).toList ++ w₂ ++
        '=' :: (w₃ ++ (toString v.toInt).toList ++ w₄)) = .ok (a, v) := by
  refine ⟨fun cs a v => readAssignment_eq_ok_iff, fun cs e => readAssignment_eq_error_iff, ?_⟩
  intro a v w₁ w₂ w₃ w₄ blank₁ blank₂ blank₃ blank₄
  have address := padded_spelling blank₁ (spelling_toString_int a.toInt) blank₂
  have value := padded_spelling blank₃ (spelling_toString_int v.toInt) blank₄
  exact (assigns_of_padded address value).read

theorem assignments_read_back_at_the_ends :
    Blank "\t\u3000".toList ∧ Blank "\u00a0".toList ∧ Blank [] ∧ Blank "\n".toList ∧
      readAssignment "\t\u3000-9223372036854775808\u00a0=9223372036854775807\n".toList =
        .ok (Int64.minValue, Int64.maxValue) ∧
      readAssignment "+007=-0".toList = .ok (7, 0) ∧
      readAssignment "9223372036854775808=x".toList = .error (.address .tooLarge) := by
  have blank₁ : Blank "\t\u3000".toList := by decide
  have blank₂ : Blank "\u00a0".toList := by decide
  have bare : Blank [] := by decide
  have blank₄ : Blank "\n".toList := by decide
  obtain ⟨reads, refuses, printed⟩ := assignments_read_back
  have least : toString Int64.minValue.toInt = "-9223372036854775808" := by cbv
  have greatest : toString Int64.maxValue.toInt = "9223372036854775807" := by cbv
  have ends := printed .minValue .maxValue _ _ _ _ blank₁ blank₂ bare blank₄
  rw [least, greatest] at ends
  have seven : Spelling "+007".toList 7 := @Spelling.plus "007".toList (by decide)
  have zero : Spelling "-0".toList 0 := @Spelling.minus "0".toList (by decide)
  have large : Spelling "9223372036854775808".toList 9223372036854775808 := .plain (by decide)
  have wrong : Misspelled "9223372036854775808".toList .tooLarge := by
    have followed : Misspelled ("9223372036854775808".toList ++ []) .tooLarge :=
      .tooLarge large (by decide)
    rwa [List.append_nil] at followed
  have whole := trimmed_solid bare (solid_of_spelling large) bare
  refine ⟨blank₁, blank₂, bare, blank₄, by simpa using ends, ?_, ?_⟩
  · exact (reads _ 7 0).mpr
      (assigns_of_padded (padded_spelling bare seven bare) (padded_spelling bare zero bare))
  · exact (refuses _ _).mpr (.address ⟨rfl, by decide⟩ whole wrong)

end AccMachine.CommandLine

import Mathlib.Algebra.Group.Int.Defs
import AccMachine.Proofs.Grammar

/-!
What is wrong with a text that spells no number of 64 binary digits, said from what it begins with.
Together with the spellings of the numbers that fit, this is every answer to a text.
-/
namespace AccMachine.Text

/-- The first thing that is wrong with a text that spells no number of 64 binary digits. A number
is out of range once the digits read so far are, whatever follows them. -/
inductive Misspelled : List Char → IntegerError → Prop where
  | empty : Misspelled [] .empty
  | tooLarge {w rest : List Char} {i : Int} (spelled : Spelling w i) (large : 2 ^ 63 ≤ i) :
      Misspelled (w ++ rest) .tooLarge
  | tooSmall {w rest : List Char} {i : Int} (spelled : Spelling w i) (small : i < -2 ^ 63) :
      Misspelled (w ++ rest) .tooSmall
  | invalidDigit {cs : List Char} (some : cs ≠ []) (unspelled : ∀ i, ¬ Spelling cs i)
      (within : ∀ w rest i, cs = w ++ rest → Spelling w i → -2 ^ 63 ≤ i ∧ i < 2 ^ 63) :
      Misspelled cs .invalidDigit

section

variable {bound n : Nat} {excess e : IntegerError}

def Exceeds (bound : Nat) (cs : List Char) : Prop :=
  ∃ ds rest, cs = ds ++ rest ∧ Digits ds ∧ bound < Nat.ofDigitChars 10 ds 0

theorem digitsFrom_excess {ds : List Char} (digits : ∀ c ∈ ds, c.isDigit = true) (small : n ≤ bound)
    (large : bound < Nat.ofDigitChars 10 ds n) (rest : List Char) :
    digitsFrom bound excess n (ds ++ rest) = .error excess := by
  induction ds generalizing n with
  | nil => exact absurd large (Nat.not_lt.mpr small)
  | cons c ds ih =>
    obtain ⟨digit, others⟩ := List.forall_mem_cons.mp digits
    rw [Nat.ofDigitChars_cons] at large
    simp only [List.cons_append, digitsFrom, digit?, digit, if_true]
    split
    · rfl
    · rename_i le
      exact ih others (Nat.not_lt.mp le) large

theorem digitsFrom_error {cs : List Char} (read : digitsFrom bound excess n cs = .error e) :
    e = .invalidDigit ∨ e = excess ∧ ∃ ds rest, cs = ds ++ rest ∧
      (∀ c ∈ ds, c.isDigit = true) ∧ ds ≠ [] ∧ bound < Nat.ofDigitChars 10 ds n := by
  induction cs generalizing n with
  | nil => cases read
  | cons c cs ih =>
    by_cases digit : c.isDigit = true
    · simp only [digitsFrom, digit?, digit, if_true] at read
      split at read
      · rename_i large
        right
        refine ⟨(Except.error.inj read).symm, [c], cs, rfl, by simpa using digit, by simp, ?_⟩
        rwa [Nat.ofDigitChars_cons]
      · rcases ih read with invalid | ⟨rfl, ds, rest, rfl, digits, -, large⟩
        · exact .inl invalid
        · right
          refine ⟨rfl, c :: ds, rest, rfl, List.forall_mem_cons.mpr ⟨digit, digits⟩, by simp, ?_⟩
          rwa [Nat.ofDigitChars_cons]
    · simp only [digitsFrom, digit?, digit] at read
      exact .inl (Except.error.inj read).symm

theorem digits_excess {cs : List Char} (exceeds : Exceeds bound cs) :
    digits bound excess cs = .error excess := by
  obtain ⟨ds, rest, rfl, all, large⟩ := exceeds
  have some : (ds ++ rest).isEmpty = false := by simp [all.1]
  rw [digits, some]
  exact digitsFrom_excess all.2 (Nat.zero_le bound) large rest

theorem digits_error {cs : List Char} (read : digits bound excess cs = .error e) :
    e = .invalidDigit ∨ e = excess ∧ Exceeds bound cs := by
  unfold digits at read
  split at read
  · exact .inl (Except.error.inj read).symm
  · rcases digitsFrom_error read with invalid | ⟨same, ds, rest, split, all, some, large⟩
    · exact .inl invalid
    · exact .inr ⟨same, ds, rest, split, ⟨some, all⟩, large⟩

theorem signed64_minus_error {ds : List Char} :
    signed64 ('-' :: ds) = .error e ↔ digits 0x8000000000000000 .tooSmall ds = .error e := by
  rw [signed64_minus_eq, map_eq_error_iff]

theorem signed64_plus_error {ds : List Char} :
    signed64 ('+' :: ds) = .error e ↔ digits 0x7FFFFFFFFFFFFFFF .tooLarge ds = .error e := by
  rw [signed64, map_eq_error_iff, natural]
  simp

theorem signed64_plain_error {c : Char} {cs : List Char} (unsigned : c ≠ '+' ∧ c ≠ '-') :
    signed64 (c :: cs) = .error e ↔ digits 0x7FFFFFFFFFFFFFFF .tooLarge (c :: cs) = .error e := by
  rw [signed64, map_eq_error_iff, natural]
  · simp
  · simp [unsigned.1]
  · simp [unsigned.2]

theorem signed64_tooLarge {w : List Char} {i : Int} (spelled : Spelling w i) (large : 2 ^ 63 ≤ i)
    (rest : List Char) : signed64 (w ++ rest) = .error .tooLarge := by
  cases spelled with
  | plain digits =>
    obtain ⟨c, ds, rfl⟩ := List.exists_cons_of_ne_nil digits.1
    exact (signed64_plain_error (sign_of_digits digits)).mpr
      (digits_excess ⟨c :: ds, rest, rfl, digits, by omega⟩)
  | plus digits => exact signed64_plus_error.mpr (digits_excess ⟨_, rest, rfl, digits, by omega⟩)
  | minus => omega

theorem signed64_tooSmall {w : List Char} {i : Int} (spelled : Spelling w i) (small : i < -2 ^ 63)
    (rest : List Char) : signed64 (w ++ rest) = .error .tooSmall := by
  cases spelled with
  | plain => omega
  | plus => omega
  | minus digits => exact signed64_minus_error.mpr (digits_excess ⟨_, rest, rfl, digits, by omega⟩)

theorem signed64_error {cs : List Char} (read : signed64 cs = .error e) :
    e = .invalidDigit ∨ Misspelled cs e := by
  cases cs with
  | nil =>
    obtain rfl := Except.error.inj read
    exact .inr .empty
  | cons c cs =>
    by_cases minus : c = '-'
    · subst minus
      rcases digits_error (signed64_minus_error.mp read) with
        invalid | ⟨rfl, ds, rest, rfl, all, large⟩
      · exact .inl invalid
      · rw [← List.cons_append]
        exact .inr (.tooSmall (.minus all) (by omega))
    by_cases plus : c = '+'
    · subst plus
      rcases digits_error (signed64_plus_error.mp read) with
        invalid | ⟨rfl, ds, rest, rfl, all, large⟩
      · exact .inl invalid
      · rw [← List.cons_append]
        exact .inr (.tooLarge (.plus all) (by omega))
    · rcases digits_error ((signed64_plain_error ⟨plus, minus⟩).mp read) with
        invalid | ⟨rfl, ds, rest, split, all, large⟩
      · exact .inl invalid
      · rw [split]
        exact .inr (.tooLarge (.plain all) (by omega))

theorem within_of_invalidDigit {w rest : List Char} {i : Int}
    (read : signed64 (w ++ rest) = .error .invalidDigit) (spelled : Spelling w i) :
    -2 ^ 63 ≤ i ∧ i < 2 ^ 63 := by
  refine ⟨Int.not_lt.mp fun small => ?_, Int.not_le.mp fun large => ?_⟩
  · rw [signed64_tooSmall spelled small rest] at read
    cases read
  · rw [signed64_tooLarge spelled large rest] at read
    cases read

theorem misspelled_of_invalidDigit {cs : List Char} (read : signed64 cs = .error .invalidDigit) :
    Misspelled cs .invalidDigit := by
  have within : ∀ w rest i, cs = w ++ rest → Spelling w i → -2 ^ 63 ≤ i ∧ i < 2 ^ 63 := by
    rintro w rest i rfl spelled
    exact within_of_invalidDigit read spelled
  refine .invalidDigit ?_ ?_ within
  · rintro rfl
    cases read
  · intro i spelled
    obtain ⟨low, high⟩ := within cs [] i (List.append_nil cs).symm spelled
    have value := Int64.toInt_ofInt_of_le low high
    rw [signed64_eq_ok_iff.mpr (value ▸ spelled)] at read
    cases read

theorem Misspelled.read {cs : List Char} (wrong : Misspelled cs e) : signed64 cs = .error e := by
  cases wrong with
  | empty => rfl
  | tooLarge spelled large => exact signed64_tooLarge spelled large _
  | tooSmall spelled small => exact signed64_tooSmall spelled small _
  | invalidDigit some unspelled within =>
    cases read : signed64 cs with
    | ok v => exact absurd (signed64_eq_ok_iff.mp read) (unspelled v.toInt)
    | error e =>
      rcases signed64_error read with rfl | other
      · rfl
      · cases other with
        | empty => exact absurd rfl some
        | tooLarge spelled large =>
          have below := (within _ _ _ rfl spelled).2
          omega
        | tooSmall spelled small =>
          have above := (within _ _ _ rfl spelled).1
          omega
        | invalidDigit => rfl

theorem signed64_eq_error_iff {cs : List Char} : signed64 cs = .error e ↔ Misspelled cs e := by
  constructor
  · intro read
    rcases signed64_error read with rfl | wrong
    · exact misspelled_of_invalidDigit read
    · exact wrong
  · exact Misspelled.read

end

end AccMachine.Text

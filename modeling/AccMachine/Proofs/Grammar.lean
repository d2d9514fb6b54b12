import AccMachine.Text.Reading

/-!
Words, integers and lines, said without a scan: how a text may be put together. The scans find
exactly the parts that a text was put together from.
-/
namespace AccMachine.Text

def Blank (cs : List Char) : Prop := ∀ c ∈ cs, isBlank c = true

instance (cs : List Char) : Decidable (Blank cs) :=
  decidable_of_iff (cs.all isBlank = true) (by simp [Blank])

def Solid (w : List Char) : Prop := w ≠ [] ∧ ∀ c ∈ w, isBlank c = false

instance (w : List Char) : Decidable (Solid w) :=
  decidable_of_iff (w ≠ [] ∧ w.all (!isBlank ·) = true) (by simp [Solid])

def Parted (rest : List Char) : Prop := ∀ c ∈ rest.head?, isBlank c = true

theorem words_blank_append {gap : List Char} (blank : Blank gap) (cs : List Char) :
    words (gap ++ cs) = words cs := by
  induction gap with
  | nil => rfl
  | cons c gap ih =>
    have first := blank c List.mem_cons_self
    have others := ih fun d member => blank d (List.mem_cons_of_mem c member)
    simpa [words, wordsFrom, closeWord, first] using others

theorem words_of_blank {gap : List Char} (blank : Blank gap) : words gap = [] := by
  have none := words_blank_append blank []
  rwa [List.append_nil] at none

theorem wordsFrom_append {w : List Char} (solid : ∀ c ∈ w, isBlank c = false)
    (word cs : List Char) : wordsFrom word (w ++ cs) = wordsFrom (w.reverse ++ word) cs := by
  induction w generalizing word with
  | nil => rfl
  | cons c w ih =>
    have first := solid c List.mem_cons_self
    have others := ih (fun d member => solid d (List.mem_cons_of_mem c member)) (c :: word)
    simpa [wordsFrom, first] using others

theorem words_solid_append {w : List Char} (solid : Solid w) {rest : List Char}
    (parted : Parted rest) : words (w ++ rest) = w :: words rest := by
  have open_word : w.reverse.isEmpty = false := by simpa using solid.1
  rw [words, wordsFrom_append solid.2, List.append_nil]
  cases rest with
  | nil => simp [wordsFrom, closeWord, open_word, words]
  | cons c rest =>
    have blank : isBlank c = true := parted c rfl
    simp [wordsFrom, closeWord, open_word, words, blank]

theorem parted_gap {gap : List Char} (blank : Blank gap) (some : gap ≠ []) (rest : List Char) :
    Parted (gap ++ rest) := by
  obtain ⟨c, gap', rfl⟩ := List.exists_cons_of_ne_nil some
  rintro d ⟨⟩
  exact blank c List.mem_cons_self

theorem blank_or_word (cs : List Char) :
    Blank cs ∨ ∃ gap w rest, cs = gap ++ (w ++ rest) ∧ Blank gap ∧ Solid w ∧ Parted rest := by
  induction cs with
  | nil => exact .inl nofun
  | cons c cs ih =>
    cases first : isBlank c with
    | true =>
      rcases ih with blank | ⟨gap, w, rest, rfl, blank, solid, parted⟩
      · exact .inl (List.forall_mem_cons.mpr ⟨first, blank⟩)
      · exact .inr ⟨c :: gap, w, rest, rfl, List.forall_mem_cons.mpr ⟨first, blank⟩, solid, parted⟩
    | false =>
      right
      have single : Solid [c] := ⟨by simp, by simpa using first⟩
      rcases ih with blank | ⟨gap, w, rest, rfl, blank, solid, parted⟩
      · exact ⟨[], [c], cs, rfl, nofun, single,
          fun d head => blank d (List.mem_of_mem_head? head)⟩
      · cases gap with
        | nil =>
          have longer : Solid (c :: w) := ⟨by simp, List.forall_mem_cons.mpr ⟨first, solid.2⟩⟩
          exact ⟨[], c :: w, rest, rfl, nofun, longer, parted⟩
        | cons d gap =>
          refine ⟨[], [c], d :: gap ++ (w ++ rest), rfl, nofun, single, ?_⟩
          rintro d' ⟨⟩
          exact blank d List.mem_cons_self

theorem words_eq_nil_iff {cs : List Char} : words cs = [] ↔ Blank cs := by
  constructor
  · intro none
    rcases blank_or_word cs with blank | ⟨gap, w, rest, rfl, blank, solid, parted⟩
    · exact blank
    · rw [words_blank_append blank, words_solid_append solid parted] at none
      cases none
  · exact words_of_blank

theorem words_eq_cons_iff {cs w : List Char} {ws : List (List Char)} :
    words cs = w :: ws ↔ ∃ gap rest, cs = gap ++ (w ++ rest) ∧ Blank gap ∧ Solid w ∧
      Parted rest ∧ words rest = ws := by
  constructor
  · intro found
    rcases blank_or_word cs with blank | ⟨gap, v, rest, rfl, blank, solid, parted⟩
    · rw [words_of_blank blank] at found
      cases found
    · rw [words_blank_append blank, words_solid_append solid parted] at found
      obtain ⟨rfl, same⟩ := List.cons.inj found
      exact ⟨gap, rest, rfl, blank, solid, parted, same⟩
  · rintro ⟨gap, rest, rfl, blank, solid, parted, same⟩
    rw [words_blank_append blank, words_solid_append solid parted, same]

def Pair (cs v w : List Char) : Prop :=
  ∃ before between after, cs = before ++ v ++ between ++ w ++ after ∧
    Blank before ∧ Solid v ∧ Blank between ∧ between ≠ [] ∧ Solid w ∧ Blank after

theorem words_eq_pair_iff {cs v w : List Char} : words cs = [v, w] ↔ Pair cs v w := by
  constructor
  · intro found
    obtain ⟨before, rest, rfl, blank, solid, parted, second⟩ := words_eq_cons_iff.mp found
    obtain ⟨between, after, rfl, blank', solid', parted', none⟩ := words_eq_cons_iff.mp second
    refine ⟨before, between, after, by simp, blank, solid, blank', ?_, solid',
      words_eq_nil_iff.mp none⟩
    rintro rfl
    obtain ⟨c, w', rfl⟩ := List.exists_cons_of_ne_nil solid'.1
    have isBlank_c := parted c rfl
    rw [solid'.2 c List.mem_cons_self] at isBlank_c
    cases isBlank_c
  · rintro ⟨before, between, after, rfl, blank, solid, blank', apart, solid', blank''⟩
    have parted := parted_gap blank' apart (w ++ after)
    have parted' : Parted after := fun c head => blank'' c (List.mem_of_mem_head? head)
    rw [List.append_assoc, List.append_assoc, List.append_assoc, words_blank_append blank,
      words_solid_append solid parted, words_blank_append blank', words_solid_append solid' parted',
      words_of_blank blank'']

def Digits (cs : List Char) : Prop := cs ≠ [] ∧ ∀ c ∈ cs, c.isDigit = true

instance (cs : List Char) : Decidable (Digits cs) :=
  decidable_of_iff (cs ≠ [] ∧ cs.all Char.isDigit = true) (by simp [Digits])

/-- An optional sign and then decimal digits, of which the first may be zeros. -/
inductive Spelling : List Char → Int → Prop where
  | plain {ds : List Char} (digits : Digits ds) : Spelling ds (Nat.ofDigitChars 10 ds 0)
  | plus {ds : List Char} (digits : Digits ds) : Spelling ('+' :: ds) (Nat.ofDigitChars 10 ds 0)
  | minus {ds : List Char} (digits : Digits ds) : Spelling ('-' :: ds) (-Nat.ofDigitChars 10 ds 0)

theorem le_ofDigitChars (ds : List Char) (n : Nat) : n ≤ Nat.ofDigitChars 10 ds n := by
  induction ds generalizing n with
  | nil => exact Nat.le_refl n
  | cons c ds ih =>
    rw [Nat.ofDigitChars_cons]
    have rest := ih (10 * n + (c.toNat - '0'.toNat))
    omega

theorem digitsFrom_eq_ok_iff {bound n v : Nat} {excess : IntegerError} {cs : List Char}
    (small : n ≤ bound) : digitsFrom bound excess n cs = .ok v ↔
      (∀ c ∈ cs, c.isDigit = true) ∧ Nat.ofDigitChars 10 cs n = v ∧ v ≤ bound := by
  induction cs generalizing n with
  | nil =>
    simp only [digitsFrom, Except.ok.injEq, Nat.ofDigitChars, List.foldl_nil]
    constructor
    · rintro rfl
      exact ⟨nofun, rfl, small⟩
    · exact fun h => h.2.1
  | cons c cs ih =>
    have least := le_ofDigitChars cs (10 * n + (c.toNat - '0'.toNat))
    rw [List.forall_mem_cons, Nat.ofDigitChars_cons]
    by_cases digit : c.isDigit = true
    · simp only [digitsFrom, digit?, digit, if_true, true_and]
      split
      · constructor
        · nofun
        · rintro ⟨-, rfl, le⟩
          omega
      · rename_i le
        exact ih (Nat.not_lt.mp le)
    · simp [digitsFrom, digit?, digit]

theorem digits_eq_ok_iff {bound v : Nat} {excess : IntegerError} {cs : List Char} :
    digits bound excess cs = .ok v ↔ Digits cs ∧ Nat.ofDigitChars 10 cs 0 = v ∧ v ≤ bound := by
  rw [digits, Digits]
  cases cs with
  | nil => simp
  | cons c cs => simp [digitsFrom_eq_ok_iff (Nat.zero_le bound)]

theorem sign_of_digits {c : Char} {ds : List Char} (digits : Digits (c :: ds)) :
    c ≠ '+' ∧ c ≠ '-' := by
  have digit := digits.2 c List.mem_cons_self
  constructor <;> rintro rfl <;> cases digit

theorem Spelling.unique {cs : List Char} {i j : Int} (spelled : Spelling cs i)
    (other : Spelling cs j) : i = j := by
  cases spelled with
  | plain digits =>
    cases other with
    | plain => rfl
    | plus => exact absurd rfl (sign_of_digits digits).1
    | minus => exact absurd rfl (sign_of_digits digits).2
  | plus =>
    cases other with
    | plain digits => exact absurd rfl (sign_of_digits digits).1
    | plus => rfl
  | minus =>
    cases other with
    | plain digits => exact absurd rfl (sign_of_digits digits).2
    | minus => rfl

theorem natural_eq_ok_iff {bound v : Nat} {cs : List Char} :
    natural bound cs = .ok v ↔ ∃ ds, (cs = ds ∨ cs = '+' :: ds) ∧ Digits ds ∧
      Nat.ofDigitChars 10 ds 0 = v ∧ v ≤ bound := by
  unfold natural
  split
  · simp [Digits]
  · rename_i ds
    rw [digits_eq_ok_iff]
    constructor
    · exact fun read => ⟨ds, .inr rfl, read⟩
    · rintro ⟨ds', rfl | same, read⟩
      · exact absurd rfl (sign_of_digits read.1).1
      · rwa [(List.cons.inj same).2]
  · rename_i unsigned
    rw [digits_eq_ok_iff]
    constructor
    · exact fun read => ⟨cs, .inl rfl, read⟩
    · rintro ⟨ds, rfl | same, read⟩
      · exact read
      · exact absurd same (unsigned ds)

theorem map_eq_ok_iff {ε α β : Type} {x : Except ε α} {f : α → β} {b : β} :
    x.map f = .ok b ↔ ∃ a, x = .ok a ∧ f a = b := by
  cases x <;> simp [Except.map]

theorem map_eq_error_iff {ε α β : Type} {x : Except ε α} {f : α → β} {e : ε} :
    x.map f = .error e ↔ x = .error e := by
  cases x <;> simp [Except.map]

theorem signed64_minus_eq (ds : List Char) : signed64 ('-' :: ds) =
    (digits 0x8000000000000000 .tooSmall ds).map fun n => .ofInt (-(n : Int)) := by
  rw [signed64]
  cases digits 0x8000000000000000 .tooSmall ds <;> rfl

theorem signed64_minus {ds : List Char} {v : Int64} : signed64 ('-' :: ds) = .ok v ↔
    Digits ds ∧ -(Nat.ofDigitChars 10 ds 0 : Int) = v.toInt := by
  have low := v.le_toInt
  simp only [signed64_minus_eq, map_eq_ok_iff, digits_eq_ok_iff]
  constructor
  · rintro ⟨n, ⟨digits, rfl, le⟩, rfl⟩
    exact ⟨digits, (Int64.toInt_ofInt_of_le (by omega) (by omega)).symm⟩
  · rintro ⟨digits, value⟩
    refine ⟨_, ⟨digits, rfl, by omega⟩, ?_⟩
    rw [value, Int64.ofInt_toInt]

theorem signed64_unsigned {cs : List Char} {v : Int64} (unsigned : ∀ ds, cs ≠ '-' :: ds) :
    signed64 cs = .ok v ↔ ∃ ds, (cs = ds ∨ cs = '+' :: ds) ∧ Digits ds ∧
      (Nat.ofDigitChars 10 ds 0 : Int) = v.toInt := by
  have high := v.toInt_lt
  rw [signed64]
  · rw [map_eq_ok_iff]
    simp only [natural_eq_ok_iff]
    constructor
    · rintro ⟨n, ⟨ds, form, digits, rfl, le⟩, rfl⟩
      exact ⟨ds, form, digits, (Int64.toInt_ofNat_of_lt (by omega)).symm⟩
    · rintro ⟨ds, form, digits, value⟩
      refine ⟨_, ⟨ds, form, digits, rfl, by omega⟩, ?_⟩
      rw [← Int64.toInt_inj, Int64.toInt_ofNat_of_lt (by omega), value]
  · exact unsigned

theorem signed64_eq_ok_iff {cs : List Char} {v : Int64} :
    signed64 cs = .ok v ↔ Spelling cs v.toInt := by
  constructor
  · intro read
    by_cases signed : ∃ ds, cs = '-' :: ds
    · obtain ⟨ds, rfl⟩ := signed
      obtain ⟨digits, value⟩ := signed64_minus.mp read
      rw [← value]
      exact .minus digits
    · obtain ⟨ds, rfl | rfl, digits, value⟩ :=
        (signed64_unsigned fun ds same => signed ⟨ds, same⟩).mp read
      · rw [← value]
        exact .plain digits
      · rw [← value]
        exact .plus digits
  · intro spelled
    generalize value : v.toInt = i at spelled
    cases spelled with
    | plain digits =>
      refine (signed64_unsigned ?_).mpr ⟨cs, .inl rfl, digits, value.symm⟩
      rintro ds rfl
      exact (sign_of_digits digits).2 rfl
    | @plus ds digits =>
      refine (signed64_unsigned ?_).mpr ⟨ds, .inr rfl, digits, value.symm⟩
      intro ds' same
      cases same
    | minus digits => exact signed64_minus.mpr ⟨digits, value.symm⟩

theorem not_isBlank_of_isDigit {c : Char} (digit : c.isDigit = true) : isBlank c = false := by
  obtain ⟨low, high⟩ : 48 ≤ c.toNat ∧ c.toNat ≤ 57 := by
    simpa [Char.isDigit, UInt32.le_iff_toNat_le] using digit
  have apart : ∀ r ∈ blankRanges, r.last < 48 ∨ 57 < r.first := by decide
  rw [isBlank, CharRange.holds, List.any_eq_false]
  intro r member
  have beside := apart r member
  rw [decide_eq_true_eq, CharRange.Contains]
  omega

theorem solid_of_spelling {cs : List Char} {i : Int} (spelled : Spelling cs i) : Solid cs := by
  cases spelled with
  | plain digits => exact ⟨digits.1, fun c member => not_isBlank_of_isDigit (digits.2 c member)⟩
  | plus digits =>
    exact ⟨by simp, List.forall_mem_cons.mpr
      ⟨rfl, fun c member => not_isBlank_of_isDigit (digits.2 c member)⟩⟩
  | minus digits =>
    exact ⟨by simp, List.forall_mem_cons.mpr
      ⟨rfl, fun c member => not_isBlank_of_isDigit (digits.2 c member)⟩⟩

/-- Lines end with a line feed, which the last one may lack unless it is empty. A carriage return
belongs to the end of its line if the line feed follows directly, and to the line otherwise. -/
inductive Lines : List Char → List (List Char) → Prop where
  | none : Lines [] []
  | last {line : List Char} (some : line ≠ []) (inner : '\n' ∉ line) : Lines line [line]
  | feed {line cs : List Char} {rest : List (List Char)} (inner : '\n' ∉ line)
      (plain : line.getLast? ≠ some '\r') (others : Lines cs rest) :
      Lines (line ++ '\n' :: cs) (line :: rest)
  | returnFeed {line cs : List Char} {rest : List (List Char)} (inner : '\n' ∉ line)
      (others : Lines cs rest) : Lines (line ++ '\r' :: '\n' :: cs) (line :: rest)

theorem closeLine_eq {line : List Char} (plain : line.head? ≠ some '\r') :
    closeLine line = line.reverse := by
  unfold closeLine
  split
  · exact absurd rfl plain
  · rfl

theorem lines_linesFrom (cs : List Char) {line : List Char} (inner : '\n' ∉ line) :
    Lines (line.reverse ++ cs) (linesFrom line cs) := by
  induction cs generalizing line with
  | nil =>
    cases line with
    | nil => exact .none
    | cons c line =>
      rw [List.append_nil]
      exact .last (by simp) (by simpa [and_comm] using inner)
  | cons c cs ih =>
    rw [linesFrom]
    split
    · rename_i fed
      subst fed
      have others := ih List.not_mem_nil
      by_cases returned : line.head? = some '\r'
      · obtain ⟨line', rfl⟩ := List.head?_eq_some_iff.mp returned
        have inner' : '\n' ∉ line'.reverse := by simp_all
        simpa [closeLine] using Lines.returnFeed inner' others
      · rw [closeLine_eq returned]
        exact .feed (by simpa using inner) (by simpa using returned) others
    · rename_i other
      have longer : '\n' ∉ c :: line := by simp_all [Ne.symm other]
      simpa using ih longer

theorem linesFrom_append {w : List Char} (inner : '\n' ∉ w) (line cs : List Char) :
    linesFrom line (w ++ cs) = linesFrom (w.reverse ++ line) cs := by
  induction w generalizing line with
  | nil => rfl
  | cons c w ih =>
    obtain ⟨other, inner'⟩ := List.ne_and_not_mem_of_not_mem_cons inner
    rw [List.cons_append, linesFrom, if_neg (Ne.symm other), ih inner']
    simp

theorem lines_eq_iff {cs : List Char} {ls : List (List Char)} : lines cs = ls ↔ Lines cs ls := by
  constructor
  · rintro rfl
    exact lines_linesFrom cs List.not_mem_nil
  · intro parts
    induction parts with
    | none => rfl
    | @last line some inner =>
      have closed := linesFrom_append inner [] []
      simpa [lines, linesFrom, some] using closed
    | @feed line cs rest inner plain _ ih =>
      rw [lines, linesFrom_append inner, List.append_nil, linesFrom, if_pos rfl,
        closeLine_eq (by simpa using plain), List.reverse_reverse, ← ih]
      rfl
    | @returnFeed line cs rest inner _ ih =>
      have inner' : '\n' ∉ line ++ ['\r'] := by simp [inner]
      have closed := linesFrom_append inner' [] ('\n' :: cs)
      rw [List.append_assoc] at closed
      rw [lines, show line ++ '\r' :: '\n' :: cs = line ++ (['\r'] ++ '\n' :: cs) from rfl, closed,
        linesFrom, if_pos rfl, ← ih]
      simp [closeLine, lines]

end AccMachine.Text

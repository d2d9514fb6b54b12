import AccMachine.Proofs.Soundness
import AccMachine.Proofs.Verdict

/-!
Loading a program goes through its lines up to the first one that is refused. The words of the
lines before it lie in the first cells, and all other cells are as they were.
-/
namespace AccMachine

namespace Memory

def stored (m : Memory) (index : Nat) : List Word → Memory
  | [] => m
  | w :: ws => (m.put index.toUInt64 w).stored (index + 1) ws

theorem stored_size (m : Memory) (index : Nat) (ws : List Word) :
    (m.stored index ws).cells.size = m.cells.size := by
  induction ws generalizing m index with
  | nil => rfl
  | cons w ws ih => rw [stored, ih, put, Array.size_setIfInBounds]

theorem stored_bounds (m : Memory) (index : Nat) (ws : List Word) :
    (m.stored index ws).bounds = m.bounds := by
  induction ws generalizing m index with
  | nil => rfl
  | cons w ws ih => rw [stored, ih, put]

theorem getElem?_put (m : Memory) {index : Nat} (inside : index < m.cells.size)
    (narrow : m.cells.size < 2 ^ 64) (w : Word) (i : Nat) :
    (m.put index.toUInt64 w).cells[i]? = if index = i then some w else m.cells[i]? := by
  have same : index.toUInt64.toNat = index :=
    UInt64.toNat_ofNat_of_lt' (Nat.lt_trans inside narrow)
  rw [put, same, Array.getElem?_setIfInBounds, if_pos inside]

theorem getElem?_stored {m : Memory} {index : Nat} {ws : List Word}
    (fits : index + ws.length ≤ m.cells.size) (narrow : m.cells.size < 2 ^ 64) (i : Nat) :
    (m.stored index ws).cells[i]? =
      if i < index then m.cells[i]? else ws[i - index]?.or m.cells[i]? := by
  induction ws generalizing m index with
  | nil => simp [stored]
  | cons w ws ih =>
    rw [List.length_cons] at fits
    have put := m.getElem?_put (show index < m.cells.size by omega) narrow w i
    have size : (m.put index.toUInt64 w).cells.size = m.cells.size := m.stored_size index [w]
    rw [stored, ih (by omega) (by omega), put]
    rcases Nat.lt_trichotomy i index with before | rfl | behind
    · simp [before, show i < index + 1 by omega, show index ≠ i by omega]
    · simp
    · obtain ⟨d, rfl⟩ : ∃ d, i = index + 1 + d := ⟨i - (index + 1), by omega⟩
      have shift : index + 1 + d - index = d + 1 := by omega
      rw [if_neg (by omega), if_neg (by omega), if_neg (by omega), shift, Nat.add_sub_cancel_left,
        List.getElem?_cons_succ]

end Memory

namespace Assembly

def accepted (b : Bounds) (index : Nat) : List (List Char) → List Word
  | [] => []
  | line :: rest =>
    match judge b index line with
    | .error _ => []
    | .ok w => w :: accepted b (index + 1) rest

def refusal? (b : Bounds) (index : Nat) : List (List Char) → Option LoadError
  | [] => none
  | line :: rest =>
    match judge b index line with
    | .error e => some e
    | .ok _ => refusal? b (index + 1) rest

section
variable {b : Bounds} {index : Nat} {lines : List (List Char)}

theorem judge_of_accepted {i : Nat} {w : Word} (stands : (accepted b index lines)[i]? = some w) :
    ∃ line, lines[i]? = some line ∧ judge b (index + i) line = .ok w := by
  induction lines generalizing index i with
  | nil => cases stands
  | cons line rest ih =>
    cases judged : judge b index line with
    | error e => simp [accepted, judged] at stands
    | ok v =>
      simp only [accepted, judged] at stands
      cases i with
      | zero => exact ⟨line, rfl, judged.trans (congrArg Except.ok (Option.some.inj stands))⟩
      | succ i =>
        obtain ⟨line', there, judged'⟩ := ih stands
        exact ⟨line', there, by rwa [Nat.add_right_comm] at judged'⟩

theorem judge_of_refusal {e : LoadError} (refused : refusal? b index lines = some e) :
    ∃ line, lines[(accepted b index lines).length]? = some line ∧
      judge b (index + (accepted b index lines).length) line = .error e := by
  induction lines generalizing index with
  | nil => cases refused
  | cons line rest ih =>
    cases judged : judge b index line with
    | error e' =>
      simp only [refusal?, judged, Option.some.injEq] at refused
      simp only [accepted, judged]
      exact ⟨line, rfl, judged.trans (congrArg Except.error refused)⟩
    | ok w =>
      simp only [refusal?, judged] at refused
      simp only [accepted, judged]
      obtain ⟨line', there, judged'⟩ := ih refused
      exact ⟨line', there, by rwa [Nat.add_right_comm] at judged'⟩

theorem verdict_of_accepted (few : b.ramSize.toNat ≤ 2 ^ 60) {i : Nat} {w : Word}
    (stands : (accepted b 0 lines)[i]? = some w) {line : List Char}
    (there : lines[i]? = some line) : Verdict b i line (.ok w) := by
  obtain ⟨line', there', judged⟩ := judge_of_accepted stands
  obtain rfl : line = line' := Option.some.inj (there.symm.trans there')
  rw [Nat.zero_add] at judged
  exact (judge_eq_iff few).mp judged

theorem verdict_of_refusal (few : b.ramSize.toNat ≤ 2 ^ 60) {e : LoadError}
    (refused : refusal? b 0 lines = some e) :
    ∃ line, lines[(accepted b 0 lines).length]? = some line ∧
      Verdict b (accepted b 0 lines).length line (.error e) := by
  obtain ⟨line, there, judged⟩ := judge_of_refusal refused
  rw [Nat.zero_add] at judged
  exact ⟨line, there, (judge_eq_iff few).mp judged⟩

theorem accepted_length_le (b : Bounds) (index : Nat) (lines : List (List Char)) :
    (accepted b index lines).length ≤ lines.length := by
  induction lines generalizing index with
  | nil => exact Nat.le_refl 0
  | cons line rest ih =>
    unfold accepted
    split
    · exact Nat.zero_le _
    · exact Nat.succ_le_succ (ih _)

theorem accepted_length (all : refusal? b index lines = none) :
    (accepted b index lines).length = lines.length := by
  induction lines generalizing index with
  | nil => rfl
  | cons line rest ih =>
    cases judged : judge b index line with
    | error e => simp [refusal?, judged] at all
    | ok w =>
      simp only [refusal?, judged] at all
      simp only [accepted, judged, List.length_cons, ih all]

theorem refusal?_congr {e : LoadError} (refused : refusal? b index lines = some e)
    {lines' : List (List Char)} (same : lines'.take ((accepted b index lines).length + 1) =
      lines.take ((accepted b index lines).length + 1)) : refusal? b index lines' = some e := by
  induction lines generalizing index lines' with
  | nil => cases refused
  | cons line rest ih =>
    cases lines' with
    | nil => simp at same
    | cons line' rest' =>
      rw [List.take_succ_cons, List.take_succ_cons] at same
      obtain ⟨rfl, same⟩ := List.cons.inj same
      cases judged : judge b index line' with
      | error e' => simpa only [refusal?, judged] using refused
      | ok w =>
        simp only [refusal?, judged] at refused ⊢
        simp only [accepted, judged, List.length_cons] at same
        exact ih refused same

end

theorem loadLines_cons {m : Memory} (h : m.WellFormed) (index : Nat) (line : List Char)
    (rest : List (List Char)) : loadLines m index (line :: rest) =
      match judge m.bounds index line with
      | .error e => (m, .error e)
      | .ok w => loadLines (m.put index.toUInt64 w) (index + 1) rest := by
  rw [loadLines, judge, show m.size = m.bounds.ramSize.toNat from h.1]
  cases parseLine m.bounds (index + 1) line with
  | error e => rfl
  | ok i =>
    by_cases full : m.bounds.ramSize.toNat ≤ index
    · simp only [if_pos full]
    · simp only [if_neg full]
      cases encoded : i.encode m.bounds with
      | error f => rfl
      | ok w =>
        have inside : index.toUInt64 < m.bounds.ramSize := by
          have lt := Nat.not_le.mp full
          have narrow := Nat.lt_trans lt m.bounds.ramSize.toNat_lt
          rwa [UInt64.lt_iff_toNat_lt, Nat.toUInt64, UInt64.toNat_ofNat_of_lt' narrow]
        have stored := Memory.write_inside h inside (Instruction.encode_le encoded)
        simp only [stored]
        rfl

theorem loadLines_eq {m : Memory} (h : m.WellFormed) (index : Nat) (lines : List (List Char)) :
    loadLines m index lines = (m.stored index (accepted m.bounds index lines),
      match refusal? m.bounds index lines with
      | none => .ok (index + lines.length)
      | some e => .error e) := by
  induction lines generalizing m index with
  | nil => rfl
  | cons line rest ih =>
    rw [loadLines_cons h]
    cases judged : judge m.bounds index line with
    | error e => simp only [accepted, refusal?, judged, Memory.stored]
    | ok w =>
      have kept := Memory.put_wellFormed h index.toUInt64 (judge_within judged).2
      have onward := ih kept (index + 1)
      simp only [accepted, refusal?, judged, Memory.stored, List.length_cons, onward]
      rw [show (m.put index.toUInt64 w).bounds = m.bounds from rfl, Nat.add_right_comm,
        Nat.add_assoc]

theorem load_eq_ok_iff {m : Memory} (h : m.WellFormed) {source : String} {n : Nat} :
    (load m source).2 = .ok n ↔ refusal? m.bounds 0 (Text.lines source.toList) = none ∧
      (Text.lines source.toList).length = n := by
  rw [load, loadLines_eq h]
  cases refusal? m.bounds 0 (Text.lines source.toList) <;> simp

theorem load_eq_error_iff {m : Memory} (h : m.WellFormed) {source : String} {e : LoadError} :
    (load m source).2 = .error e ↔
      refusal? m.bounds 0 (Text.lines source.toList) = some e := by
  rw [load, loadLines_eq h]
  cases refusal? m.bounds 0 (Text.lines source.toList) <;> simp

theorem accepted_length_le_size (b : Bounds) (lines : List (List Char)) :
    (accepted b 0 lines).length ≤ b.ramSize.toNat := by
  cases count : (accepted b 0 lines).length with
  | zero => exact Nat.zero_le _
  | succ n =>
    have last : n < (accepted b 0 lines).length := by omega
    obtain ⟨line, _, judged⟩ := judge_of_accepted (List.getElem?_eq_getElem last)
    rw [Nat.zero_add] at judged
    exact (judge_within judged).1

theorem getElem?_loadLines {m : Memory} (h : m.WellFormed) (lines : List (List Char)) (i : Nat) :
    (loadLines m 0 lines).1.cells[i]? = (accepted m.bounds 0 lines)[i]?.or m.cells[i]? := by
  have fits : 0 + (accepted m.bounds 0 lines).length ≤ m.cells.size := by
    rw [Nat.zero_add, h.1]
    exact accepted_length_le_size m.bounds lines
  have narrow : m.cells.size < 2 ^ 64 := by
    rw [h.1]
    exact m.bounds.ramSize.toNat_lt
  rw [loadLines_eq h, Memory.getElem?_stored fits narrow, if_neg (Nat.not_lt_zero i), Nat.sub_zero]

/-- A line that can be kept in a cell: its instruction has an address that there is and a number
that no cell is too small for. -/
def Fits (b : Bounds) (line : List Char) : Prop :=
  ∃ (op : Mnemonic) (a : Nat), Spells line op a ∧ a < b.ramSize.toNat ∧
    b.code op a ≤ b.maxValue.toNat

structure Loaded (m m' : Memory) (lines : List (List Char)) : Prop where
  bounds_eq : m'.bounds = m.bounds
  size_eq : m'.cells.size = m.cells.size
  fits : ∀ line ∈ lines, Fits m.bounds line
  holds : ∀ (i : Nat) (line : List Char) (op : Mnemonic) (a : Int), lines[i]? = some line →
    Spells line op a → ∃ w, m'.cells[i]? = some w ∧
      (w.toNat : Int) = op.number.toNat * m.bounds.ramSize.toNat + a
  keeps : ∀ i, lines.length ≤ i → m'.cells[i]? = m.cells[i]?

section
variable {m : Memory} (h : m.WellFormed) (few : m.bounds.ramSize.toNat ≤ 2 ^ 60)
include h few

theorem loaded_accepted (lines : List (List Char)) : Loaded m (loadLines m 0 lines).1
    (lines.take (accepted m.bounds 0 lines).length) := by
  have cells := getElem?_loadLines h lines
  have short := accepted_length_le m.bounds 0 lines
  generalize words : accepted m.bounds 0 lines = ws at cells short
  have taken : ∀ (i : Nat) (line : List Char), (lines.take ws.length)[i]? = some line →
      ∃ w, ws[i]? = some w ∧ Verdict m.bounds i line (.ok w) := by
    intro i line there
    rw [List.getElem?_take, Option.ite_none_right_eq_some] at there
    obtain ⟨before, there⟩ := there
    obtain ⟨w, stands⟩ : ∃ w, ws[i]? = some w := ⟨_, List.getElem?_eq_getElem before⟩
    exact ⟨w, stands, verdict_of_accepted few (words ▸ stands) there⟩
  refine ⟨(loadLines_wellFormed h 0 lines).1, ?_, ?_, ?_, ?_⟩
  · rw [loadLines_eq h, Memory.stored_size]
  · intro line member
    obtain ⟨i, there⟩ := List.getElem?_of_mem member
    obtain ⟨w, _, verdict⟩ := taken i line there
    cases verdict with
    | assembled op a spells inside room small _ value => exact ⟨op, a, spells, inside, small⟩
  · intro i line op a there spells
    obtain ⟨w, stands, verdict⟩ := taken i line there
    cases verdict with
    | assembled op' a' spells' inside room small _ value =>
      obtain ⟨rfl, rfl⟩ := spells.unique spells'
      refine ⟨w, by rw [cells, stands, Option.some_or], ?_⟩
      rw [value, Bounds.code]
      push_cast
      rfl
  · intro i behind
    rw [List.length_take, Nat.min_eq_left short] at behind
    rw [cells, List.getElem?_eq_none behind, Option.none_or]

theorem refusal?_eq_none_iff (lines : List (List Char)) : refusal? m.bounds 0 lines = none ↔
    lines.length ≤ m.bounds.ramSize.toNat ∧ ∀ line ∈ lines, Fits m.bounds line := by
  constructor
  · intro all
    have length := accepted_length all
    have whole := loaded_accepted h few lines
    rw [length, List.take_length] at whole
    exact ⟨length ▸ accepted_length_le_size m.bounds lines, whole.fits⟩
  · rintro ⟨short, fits⟩
    cases refused : refusal? m.bounds 0 lines with
    | none => rfl
    | some e =>
      obtain ⟨line, there, bad⟩ := verdict_of_refusal few refused
      obtain ⟨op, a, spells, inside, small⟩ := fits line (List.mem_of_getElem? there)
      obtain ⟨before, _⟩ := List.getElem?_eq_some_iff.mp there
      have word := Nat.lt_of_le_of_lt small m.bounds.maxValue.toNat_lt
      have good : Verdict m.bounds _ line _ := .assembled op a spells inside
        (Nat.lt_of_lt_of_le before short) small _ (UInt32.toNat_ofNat_of_lt' word)
      cases bad.unique few good

end

/-- Loading takes the texts whose lines all fit, if there are cells enough, and no others. The
lines of such a text are put into the first cells. -/
theorem load_takes_what_fits {m : Memory} (h : m.WellFormed)
    (few : m.bounds.ramSize.toNat ≤ 2 ^ 60) (source : String) (n : Nat) :
    ((load m source).2 = .ok n ↔ ∃ lines, Text.Lines source.toList lines ∧ lines.length = n ∧
      n ≤ m.bounds.ramSize.toNat ∧ ∀ line ∈ lines, Fits m.bounds line) ∧
    ((load m source).2 = .ok n → ∀ lines, Text.Lines source.toList lines →
      Loaded m (load m source).1 lines) := by
  rw [load_eq_ok_iff h]
  refine ⟨⟨?_, ?_⟩, ?_⟩
  · rintro ⟨all, rfl⟩
    exact ⟨_, Text.lines_eq_iff.mp rfl, rfl, (refusal?_eq_none_iff h few _).mp all⟩
  · rintro ⟨lines, split, rfl, fit⟩
    obtain rfl := Text.lines_eq_iff.mpr split
    exact ⟨(refusal?_eq_none_iff h few _).mpr fit, rfl⟩
  · rintro ⟨all, -⟩ lines split
    obtain rfl := Text.lines_eq_iff.mpr split
    have whole := loaded_accepted h few (Text.lines source.toList)
    rwa [accepted_length all, List.take_length] at whole

theorem load_takes_padded_lines :
    (load (.zeroed ⟨100, 9999⟩) "  TAKE\t+007 \r\nHLT -0").2 = .ok 2 ∧
      Loaded (.zeroed ⟨100, 9999⟩) (load (.zeroed ⟨100, 9999⟩) "  TAKE\t+007 \r\nHLT -0").1
        ["  TAKE\t+007 ".toList, "HLT -0".toList] := by
  have split : Text.Lines "  TAKE\t+007 \r\nHLT -0".toList
      ["  TAKE\t+007 ".toList, "HLT -0".toList] := Text.lines_eq_iff.mp (by decide)
  have take : Fits ⟨100, 9999⟩ "  TAKE\t+007 ".toList := by
    have spells : Spells "  TAKE\t+007 ".toList .take 7 := spells_iff.mpr
      ⟨"+007".toList, Text.words_eq_pair_iff.mp (by decide), .plus (by decide)⟩
    exact ⟨.take, 7, spells, by decide, by decide⟩
  have hlt : Fits ⟨100, 9999⟩ "HLT -0".toList := by
    have spells : Spells "HLT -0".toList .hlt 0 := spells_iff.mpr
      ⟨"-0".toList, Text.words_eq_pair_iff.mp (by decide), .minus (by decide)⟩
    exact ⟨.hlt, 0, spells, by decide, by decide⟩
  have takes := load_takes_what_fits (Memory.zeroed_wellFormed ⟨100, 9999⟩) (by decide)
    "  TAKE\t+007 \r\nHLT -0" 2
  have loaded := takes.1.mpr ⟨_, split, rfl, by decide,
    List.forall_mem_cons.mpr ⟨take, List.forall_mem_singleton.mpr hlt⟩⟩
  exact ⟨loaded, takes.2 loaded _ split⟩

/-- What is left behind when the line `k` is refused for the reason `e`. -/
structure Refused (m m' : Memory) (lines : List (List Char)) (k : Nat) (e : LoadError) : Prop where
  verdict : ∃ line, lines[k]? = some line ∧ Verdict m.bounds k line (.error e)
  first : ∀ i < k, ∀ line, lines[i]? = some line → ∀ e', ¬ Verdict m.bounds i line (.error e')
  loaded : Loaded m m' (lines.take k)
  full : ∀ capacity, e = .tooLong capacity →
    k = capacity ∧ capacity = m.bounds.ramSize.toNat ∧ 0 < capacity
  fault : ∀ n f, e = .fault n f →
    (∃ a, f = .outOfBounds "instruction operand" a m.bounds.ramSize) ∨
      ∃ v, f = .valueOutOfRange "encoded instruction" v m.bounds.maxValue

theorem refused_of_refusal {m : Memory} (h : m.WellFormed)
    (few : m.bounds.ramSize.toNat ≤ 2 ^ 60) {lines : List (List Char)} {e : LoadError}
    (refused : refusal? m.bounds 0 lines = some e) : Refused m (loadLines m 0 lines).1 lines
      (accepted m.bounds 0 lines).length e := by
  obtain ⟨line, there, verdict⟩ := verdict_of_refusal few refused
  refine ⟨⟨line, there, verdict⟩, ?_, loaded_accepted h few lines, ?_, ?_⟩
  · intro i before line' there' e' bad
    have good := verdict_of_accepted few (List.getElem?_eq_getElem before) there'
    cases good.unique few bad
  · rintro capacity rfl
    have short := accepted_length_le_size m.bounds lines
    cases verdict with
    | tooLong op a spells inside full => exact ⟨by omega, rfl, by omega⟩
  · rintro n f rfl
    cases verdict with
    | outOfBounds op a => exact .inl ⟨a, rfl⟩
    | valueOutOfRange op a _ _ _ _ value => exact .inr ⟨value, rfl⟩

/-- A text that is not taken fails at its first line that is refused, and what lies behind that
line or in the cells makes no difference to the result. -/
theorem load_stops_at_first_refused {m : Memory} (h : m.WellFormed)
    (few : m.bounds.ramSize.toNat ≤ 2 ^ 60) (source : String) :
    (∀ e, (load m source).2 = .error e → ∃ lines k, Text.Lines source.toList lines ∧
      Refused m (load m source).1 lines k e ∧
      ∀ (other : Memory) (source' : String) (lines' : List (List Char)), other.WellFormed →
        other.bounds = m.bounds → Text.Lines source'.toList lines' →
        lines'.take (k + 1) = lines.take (k + 1) → (load other source').2 = .error e) ∧
    ∀ other : Memory, other.WellFormed → other.bounds = m.bounds →
      (load other source).2 = (load m source).2 := by
  constructor
  · intro e failed
    have refused := (load_eq_error_iff h).mp failed
    refine ⟨_, _, Text.lines_eq_iff.mp rfl, refused_of_refusal h few refused, ?_⟩
    intro other source' lines' wellFormed bounds split same
    obtain rfl := Text.lines_eq_iff.mpr split
    rw [load_eq_error_iff wellFormed, bounds]
    exact refusal?_congr refused same
  · intro other wellFormed bounds
    rw [load, load, loadLines_eq wellFormed, loadLines_eq h, bounds]

theorem load_stops_at_third_word :
    ∃ lines k, Text.Lines "INC 7\nADD 1 2\nHLT 0".toList lines ∧
      Refused (.zeroed ⟨100, 999⟩) (load (.zeroed ⟨100, 999⟩) "INC 7\nADD 1 2\nHLT 0").1 lines k
        (.malformed 2 "ADD 1 2") := by
  have wellFormed := Memory.zeroed_wellFormed ⟨100, 999⟩
  have failed : (load (.zeroed ⟨100, 999⟩) "INC 7\nADD 1 2\nHLT 0").2 =
      .error (.malformed 2 "ADD 1 2") := (load_eq_error_iff wellFormed).mpr (by decide)
  obtain ⟨lines, k, split, refused, _⟩ :=
    (load_stops_at_first_refused wellFormed (by decide) _).1 _ failed
  exact ⟨lines, k, split, refused⟩

/-- A code of more than 63 binary digits is refused, and not reported as what it is. -/
theorem load_reports_less_than_the_code :
    (Memory.zeroed ⟨0x1000000000000000, 99⟩).WellFormed ∧
      (Memory.zeroed ⟨0x1000000000000000, 99⟩).bounds.ramSize.toNat ≤ 2 ^ 60 ∧
      Spells "DEC 0".toList .dec 0 ∧
      ∃ v : Int64, (load (.zeroed ⟨0x1000000000000000, 99⟩) "DEC 0").2 =
          .error (.fault 1 (.valueOutOfRange "encoded instruction" v 99)) ∧
        v.toInt ≠ Bounds.code ⟨0x1000000000000000, 99⟩ .dec 0 := by
  have wellFormed := Memory.zeroed_wellFormed ⟨0x1000000000000000, 99⟩
  have spells : Spells "DEC 0".toList .dec 0 := spells_iff.mpr
    ⟨"0".toList, Text.words_eq_pair_iff.mp (by decide), .plain (by decide)⟩
  exact ⟨wellFormed, by decide, spells, 0x7FFFFFFFFFFFFFFF,
    (load_eq_error_iff wellFormed).mpr (by decide), by decide⟩

end Assembly
end AccMachine

import Mathlib.Algebra.Group.Int.Defs
import Mathlib.Algebra.Group.Nat.Defs
import AccMachine.Assembly
import AccMachine.Proofs.Grammar

/-!
What becomes of one line of a program, said from how the line is put together: the word that it
assembles to, or the first thing that is wrong with it. Every line has one verdict.
-/
namespace AccMachine

theorem Mnemonic.ofName?_eq_some_iff {s : String} {op : Mnemonic} :
    ofName? s = some op ↔ op.name = s := by
  constructor
  · intro found
    simpa using List.find?_some found
  · rintro rfl
    cases op <;> decide

theorem Mnemonic.ofName?_name (op : Mnemonic) : ofName? (String.ofList op.name.toList) = some op :=
  ofName?_eq_some_iff.mpr String.ofList_toList.symm

theorem Mnemonic.name_injective {op other : Mnemonic} (same : op.name = other.name) :
    op = other := by
  have found := ofName?_eq_some_iff.mpr same
  exact Option.some.inj ((ofName?_eq_some_iff.mpr rfl).symm.trans found).symm

theorem Mnemonic.solid_name (op : Mnemonic) : Text.Solid op.name.toList := by
  cases op <;> decide

def Bounds.code (b : Bounds) (op : Mnemonic) (a : Nat) : Nat :=
  op.number.toNat * b.ramSize.toNat + a

namespace Instruction

variable {b : Bounds}

theorem encode_known {op : Mnemonic} {operand : Address}
    (inside : operand.toNat < b.ramSize.toNat) : encode b ⟨.known op, operand⟩ =
      if b.maxValue.toNat < b.code op operand.toNat then
        .error (.valueOutOfRange "encoded instruction"
          (.ofNat (min (b.code op operand.toNat) reportable)) b.maxValue)
      else .ok (.ofNat (b.code op operand.toNat)) := by
  have within : ¬ b.ramSize ≤ operand := by
    rw [UInt64.le_iff_toNat_le]
    omega
  exact if_neg within

theorem encode_eq_ok_iff {i : Instruction} {w : Word} : i.encode b = .ok w ↔
    ∃ op, i.opcode = .known op ∧ i.operand.toNat < b.ramSize.toNat ∧
      b.code op i.operand.toNat ≤ b.maxValue.toNat ∧ w.toNat = b.code op i.operand.toNat := by
  obtain ⟨opcode, operand⟩ := i
  cases opcode with
  | unknown n => simp [encode]
  | known op =>
    by_cases inside : operand.toNat < b.ramSize.toNat
    · rw [encode_known inside]
      by_cases small : b.code op operand.toNat ≤ b.maxValue.toNat
      · have fits := Nat.lt_of_le_of_lt small b.maxValue.toNat_lt
        have value := UInt32.toNat_ofNat_of_lt' fits
        rw [if_neg (Nat.not_lt.mpr small), Except.ok.injEq, ← UInt32.toNat_inj, value]
        simp [inside, small, eq_comm]
      · simp [Nat.not_le.mp small, small]
    · have outside : b.ramSize ≤ operand := UInt64.le_iff_toNat_le.mpr (Nat.not_lt.mp inside)
      simp [encode, outside, inside]

theorem encode_le {i : Instruction} {w : Word} (encoded : i.encode b = .ok w) :
    w ≤ b.maxValue := by
  obtain ⟨op, -, -, small, value⟩ := encode_eq_ok_iff.mp encoded
  rw [UInt32.le_iff_toNat_le, value]
  exact small

end Instruction

namespace Assembly

/-- Blanks, a mnemonic, blanks, a number and blanks, where only the blanks in the middle must be
there. The number may be any. -/
def Spells (line : List Char) (op : Mnemonic) (a : Int) : Prop :=
  ∃ before between number after, line = before ++ op.name.toList ++ between ++ number ++ after ∧
    Text.Blank before ∧ Text.Blank between ∧ between ≠ [] ∧ Text.Spelling number a ∧
    Text.Blank after

theorem spells_iff {line : List Char} {op : Mnemonic} {a : Int} : Spells line op a ↔
    ∃ number, Text.Pair line op.name.toList number ∧ Text.Spelling number a := by
  constructor
  · rintro ⟨before, between, number, after, form, blank, blank', apart, spelled, blank''⟩
    exact ⟨number, ⟨before, between, after, form, blank, op.solid_name, blank', apart,
      Text.solid_of_spelling spelled, blank''⟩, spelled⟩
  · rintro ⟨number, ⟨before, between, after, form, blank, _, blank', apart, _, blank''⟩, spelled⟩
    exact ⟨before, between, number, after, form, blank, blank', apart, spelled, blank''⟩

theorem Spells.unique {line : List Char} {op op' : Mnemonic} {a a' : Int} (spells : Spells line op a)
    (other : Spells line op' a') : op = op' ∧ a = a' := by
  obtain ⟨number, pair, spelled⟩ := spells_iff.mp spells
  obtain ⟨number', pair', spelled'⟩ := spells_iff.mp other
  have words := (Text.words_eq_pair_iff.mpr pair).symm.trans (Text.words_eq_pair_iff.mpr pair')
  obtain ⟨name, rest⟩ := List.cons.inj words
  obtain rfl := (List.cons.inj rest).1
  exact ⟨Mnemonic.name_injective (String.toList_inj.mp name), spelled.unique spelled'⟩

/-- What becomes of the line behind `index` others. Of the things that are wrong with a line the
first one decides. -/
inductive Verdict (b : Bounds) (index : Nat) (line : List Char) : Except LoadError Word → Prop where
  | malformed (unpaired : ∀ name operand, ¬ Text.Pair line name operand) :
      Verdict b index line (.error (.malformed (index + 1) (String.ofList line)))
  | unknownMnemonic (name operand : List Char) (pair : Text.Pair line name operand)
      (unnamed : ∀ op : Mnemonic, op.name.toList ≠ name) :
      Verdict b index line (.error (.unknownMnemonic (index + 1) (String.ofList name)))
  | invalidOperand (op : Mnemonic) (operand : List Char)
      (pair : Text.Pair line op.name.toList operand)
      (unread : ∀ v : Int64, ¬ Text.Spelling operand v.toInt) (source : Text.IntegerError)
      (cause : Text.signed64 operand = .error source) :
      Verdict b index line (.error (.invalidOperand (index + 1) (String.ofList operand) source))
  | outOfBounds (op : Mnemonic) (a : Int64) (spells : Spells line op a.toInt)
      (outside : a.toInt < 0 ∨ b.ramSize.toNat ≤ a.toInt) :
      Verdict b index line
        (.error (.fault (index + 1) (.outOfBounds "instruction operand" a b.ramSize)))
  | tooLong (op : Mnemonic) (a : Nat) (spells : Spells line op a) (inside : a < b.ramSize.toNat)
      (full : b.ramSize.toNat ≤ index) :
      Verdict b index line (.error (.tooLong b.ramSize.toNat))
  | valueOutOfRange (op : Mnemonic) (a : Nat) (spells : Spells line op a)
      (inside : a < b.ramSize.toNat) (room : index < b.ramSize.toNat)
      (large : b.maxValue.toNat < b.code op a) (value : Int64)
      (reported : value.toInt = min (b.code op a) (2 ^ 63 - 1)) :
      Verdict b index line
        (.error (.fault (index + 1) (.valueOutOfRange "encoded instruction" value b.maxValue)))
  | assembled (op : Mnemonic) (a : Nat) (spells : Spells line op a) (inside : a < b.ramSize.toNat)
      (room : index < b.ramSize.toNat) (small : b.code op a ≤ b.maxValue.toNat) (w : Word)
      (value : w.toNat = b.code op a) : Verdict b index line (.ok w)

def judge (b : Bounds) (index : Nat) (line : List Char) : Except LoadError Word :=
  match parseLine b (index + 1) line with
  | .error e => .error e
  | .ok i =>
    if b.ramSize.toNat ≤ index then .error (.tooLong b.ramSize.toNat)
    else (i.encode b).mapError (.fault (index + 1))

theorem judge_within {b : Bounds} {index : Nat} {line : List Char} {w : Word}
    (judged : judge b index line = .ok w) : index < b.ramSize.toNat ∧ w ≤ b.maxValue := by
  unfold judge at judged
  split at judged
  · cases judged
  · split at judged
    · cases judged
    · rename_i i _ room
      refine ⟨Nat.not_le.mp room, ?_⟩
      cases encoded : i.encode b with
      | error f =>
        rw [encoded] at judged
        cases judged
      | ok v =>
        rw [encoded] at judged
        obtain rfl : v = w := Except.ok.inj judged
        exact Instruction.encode_le encoded

theorem parseLine_eq_ok {b : Bounds} {n : Nat} {line : List Char} {i : Instruction}
    (parsed : parseLine b n line = .ok i) : ∃ (op : Mnemonic) (a : Int64),
      Spells line op a.toInt ∧ b.IsAddress a ∧ i = ⟨.known op, a.toUInt64⟩ := by
  unfold parseLine at parsed
  split at parsed
  · rename_i name operand words
    split at parsed
    · cases parsed
    · rename_i op named
      split at parsed
      · cases parsed
      · rename_i a read
        split at parsed
        · rename_i address
          have pair := Text.words_eq_pair_iff.mp words
          have same : op.name.toList = name := by
            rw [Mnemonic.ofName?_eq_some_iff.mp named, String.toList_ofList]
          rw [← same] at pair
          exact ⟨op, a, spells_iff.mpr ⟨operand, pair, Text.signed64_eq_ok_iff.mp read⟩, address,
            (Except.ok.inj parsed).symm⟩
        · cases parsed
  · cases parsed

theorem judge_eq_ok {b : Bounds} {index : Nat} {line : List Char} {w : Word}
    (judged : judge b index line = .ok w) : ∃ (op : Mnemonic) (a : Address),
      Spells line op a.toNat ∧ Instruction.encode b ⟨.known op, a⟩ = .ok w := by
  unfold judge at judged
  split at judged
  · cases judged
  · rename_i i parsed
    split at judged
    · cases judged
    · obtain ⟨op, a, spells, address, rfl⟩ := parseLine_eq_ok parsed
      have value := toNat_toUInt64 (Bounds.isAddress_iff.mp address).1
      refine ⟨op, a.toUInt64, value ▸ spells, ?_⟩
      cases encoded : Instruction.encode b ⟨.known op, a.toUInt64⟩ with
      | error f =>
        rw [encoded] at judged
        cases judged
      | ok v =>
        rw [encoded] at judged
        exact congrArg Except.ok (Except.ok.inj judged)

theorem parseLine_malformed {b : Bounds} {n : Nat} {line : List Char}
    (unpaired : ∀ name operand, ¬ Text.Pair line name operand) :
    parseLine b n line = .error (.malformed n (String.ofList line)) := by
  unfold parseLine
  split
  · rename_i name operand words
    exact absurd (Text.words_eq_pair_iff.mp words) (unpaired name operand)
  · rfl

theorem parseLine_spelled {b : Bounds} {n : Nat} {line : List Char} {op : Mnemonic} {a : Int64}
    (spells : Spells line op a.toInt) : parseLine b n line =
      if b.IsAddress a then .ok ⟨.known op, a.toUInt64⟩
      else .error (.fault n (.outOfBounds "instruction operand" a b.ramSize)) := by
  obtain ⟨number, pair, spelled⟩ := spells_iff.mp spells
  simp only [parseLine, Text.words_eq_pair_iff.mpr pair, op.ofName?_name,
    Text.signed64_eq_ok_iff.mpr spelled]

theorem parseLine_inside {b : Bounds} {n : Nat} {line : List Char} {op : Mnemonic} {a : Nat}
    (spells : Spells line op a) (inside : a < b.ramSize.toNat) (short : a < 2 ^ 63) :
    ∃ operand : Address, operand.toNat = a ∧ parseLine b n line = .ok ⟨.known op, operand⟩ := by
  have value : (Int64.ofNat a).toInt = a := Int64.toInt_ofNat_of_lt (by omega)
  have address : b.IsAddress (.ofNat a) := by
    rw [Bounds.isAddress_iff, value]
    omega
  have same := toNat_toUInt64 (v := .ofNat a) (by omega)
  refine ⟨(Int64.ofNat a).toUInt64, by omega, ?_⟩
  rw [parseLine_spelled (a := .ofNat a) (value ▸ spells), if_pos address]

theorem Verdict.judged {b : Bounds} (few : b.ramSize.toNat ≤ 2 ^ 60) {index : Nat}
    {line : List Char} {r : Except LoadError Word} (verdict : Verdict b index line r) :
    judge b index line = r := by
  cases verdict with
  | malformed unpaired => rw [judge, parseLine_malformed unpaired]
  | unknownMnemonic name operand pair unnamed =>
    have missing : Mnemonic.ofName? (String.ofList name) = none := by
      cases found : Mnemonic.ofName? (String.ofList name) with
      | none => rfl
      | some op =>
        have named := Mnemonic.ofName?_eq_some_iff.mp found
        exact absurd (by rw [named, String.toList_ofList]) (unnamed op)
    simp only [judge, parseLine, Text.words_eq_pair_iff.mpr pair, missing]
  | invalidOperand op operand pair unread source cause =>
    simp only [judge, parseLine, Text.words_eq_pair_iff.mpr pair, op.ofName?_name, cause]
  | outOfBounds op a spells outside =>
    have refused : ¬ b.IsAddress a := by
      rw [Bounds.isAddress_iff]
      omega
    rw [judge, parseLine_spelled spells, if_neg refused]
  | tooLong op a spells inside full =>
    obtain ⟨operand, rfl, parsed⟩ := parseLine_inside (n := index + 1) spells inside (by omega)
    simp only [judge, parsed, if_pos full]
  | valueOutOfRange op a spells inside room large value reported =>
    obtain ⟨operand, rfl, parsed⟩ := parseLine_inside (n := index + 1) spells inside (by omega)
    have same : Int64.ofNat (min (b.code op operand.toNat) Instruction.reportable) = value := by
      rw [← Int64.toInt_inj, reported, Int64.toInt_ofNat_of_lt] <;>
        simp only [Instruction.reportable] <;> omega
    simp only [judge, parsed, if_neg (Nat.not_le.mpr room), Instruction.encode_known inside,
      if_pos large, same]
    rfl
  | assembled op a spells inside room small w value =>
    obtain ⟨operand, rfl, parsed⟩ := parseLine_inside (n := index + 1) spells inside (by omega)
    have same : UInt32.ofNat (b.code op operand.toNat) = w := by
      rw [← value, UInt32.ofNat_toNat]
    simp only [judge, parsed, if_neg (Nat.not_le.mpr room), Instruction.encode_known inside,
      if_neg (Nat.not_lt.mpr small), same]
    rfl

theorem exists_verdict (b : Bounds) (index : Nat) (line : List Char) :
    ∃ r, Verdict b index line r := by
  -- the cases are split in the order in which the checks are made
  by_cases paired : ∃ name operand, Text.Pair line name operand
  · obtain ⟨name, operand, pair⟩ := paired
    by_cases named : ∃ op : Mnemonic, op.name.toList = name
    · obtain ⟨op, rfl⟩ := named
      cases read : Text.signed64 operand with
      | error source =>
        refine ⟨_, .invalidOperand op operand pair (fun v spelled => ?_) source read⟩
        rw [Text.signed64_eq_ok_iff.mpr spelled] at read
        cases read
      | ok v =>
        have spells := spells_iff.mpr ⟨operand, pair, Text.signed64_eq_ok_iff.mp read⟩
        by_cases outside : v.toInt < 0 ∨ b.ramSize.toNat ≤ v.toInt
        · exact ⟨_, .outOfBounds op v spells outside⟩
        · obtain ⟨a, value⟩ : ∃ a : Nat, v.toInt = a := ⟨v.toInt.toNat, by omega⟩
          have inside : a < b.ramSize.toNat := by omega
          rw [value] at spells
          by_cases room : index < b.ramSize.toNat
          · by_cases small : b.code op a ≤ b.maxValue.toNat
            · have fits := Nat.lt_of_le_of_lt small b.maxValue.toNat_lt
              exact ⟨_, .assembled op a spells inside room small (.ofNat (b.code op a))
                (UInt32.toNat_ofNat_of_lt fits)⟩
            · exact ⟨_, .valueOutOfRange op a spells inside room (Nat.not_le.mp small)
                (.ofNat (min (b.code op a) (2 ^ 63 - 1)))
                (Int64.toInt_ofNat_of_lt (by omega))⟩
          · exact ⟨_, .tooLong op a spells inside (Nat.not_lt.mp room)⟩
    · exact ⟨_, .unknownMnemonic name operand pair fun op same => named ⟨op, same⟩⟩
  · exact ⟨_, .malformed fun name operand pair => paired ⟨name, operand, pair⟩⟩

theorem judge_eq_iff {b : Bounds} (few : b.ramSize.toNat ≤ 2 ^ 60) {index : Nat}
    {line : List Char} {r : Except LoadError Word} :
    judge b index line = r ↔ Verdict b index line r := by
  constructor
  · rintro rfl
    obtain ⟨r, verdict⟩ := exists_verdict b index line
    rwa [verdict.judged few]
  · exact Verdict.judged few

theorem Verdict.unique {b : Bounds} (few : b.ramSize.toNat ≤ 2 ^ 60) {index : Nat}
    {line : List Char} {r r' : Except LoadError Word} (verdict : Verdict b index line r)
    (other : Verdict b index line r') : r = r' :=
  (verdict.judged few).symm.trans (other.judged few)

end Assembly
end AccMachine

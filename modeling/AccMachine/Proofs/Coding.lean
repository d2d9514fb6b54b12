import Mathlib.Data.Set.Function
import AccMachine.Proofs.Edits
import AccMachine.Proofs.Verdict

/-!
Taking a cell apart and putting an instruction together undo each other, where an instruction has a
cell and where a cell has an instruction. So the instructions that have a cell correspond to the
codes of named operations.
-/
namespace AccMachine

theorem Mnemonic.number_lt (op : Mnemonic) : op.number.toNat < 11 := by
  cases op <;> decide

theorem Opcode.ofNumber_number (op : Mnemonic) : ofNumber op.number = .known op := by
  rw [ofNumber, op.ofNumber?_number]

namespace Instruction

variable {b : Bounds}

theorem number_split (ramSize : Address) (code : Word) :
    (split ramSize code).opcode.number.toNat * ramSize.toNat +
      (split ramSize code).operand.toNat = code.toNat := by
  rw [exact_operand, split, Opcode.number_ofNumber, exact_number, Nat.mul_comm]
  exact Nat.div_add_mod _ _

theorem split_of_encode {i : Instruction} {w : Word} (encoded : i.encode b = .ok w) :
    split b.ramSize w = i := by
  obtain ⟨opcode, operand⟩ := i
  obtain ⟨op, rfl, inside, -, value⟩ := encode_eq_ok_iff.mp encoded
  rw [Bounds.code, Nat.mul_comm] at value
  have positive : 0 < b.ramSize.toNat := Nat.lt_of_le_of_lt (Nat.zero_le _) inside
  have number : (w.toUInt64 / b.ramSize).toUInt32 = op.number := by
    rw [← UInt32.toNat_inj, exact_number, value, Nat.mul_add_div positive,
      Nat.div_eq_of_lt inside, Nat.add_zero]
  have rest : (split b.ramSize w).operand = operand := by
    rw [← UInt64.toNat_inj, exact_operand, value, Nat.mul_add_mod, Nat.mod_eq_of_lt inside]
  rw [← rest, split, number, Opcode.ofNumber_number]

theorem encode_split {w : Word} (small : w ≤ b.maxValue) (cells : 0 < b.ramSize.toNat)
    {op : Mnemonic} (named : (split b.ramSize w).opcode = .known op) :
    (split b.ramSize w).encode b = .ok w := by
  have whole := number_split b.ramSize w
  rw [named, Opcode.number, ← Bounds.code] at whole
  refine encode_eq_ok_iff.mpr ⟨op, named, ?_, ?_, whole.symm⟩
  · rw [exact_operand]
    exact Nat.mod_lt _ cells
  · rw [whole]
    exact UInt32.le_iff_toNat_le.mp small

theorem split_named_iff {ramSize : Address} (cells : 0 < ramSize.toNat) {w : Word} :
    (∃ op, (split ramSize w).opcode = .known op) ↔ w.toNat < 11 * ramSize.toNat := by
  have number : (split ramSize w).opcode.number.toNat = w.toNat / ramSize.toNat := by
    rw [split, Opcode.number_ofNumber, exact_number]
  rw [← Nat.div_lt_iff_lt_mul cells, ← number]
  constructor
  · rintro ⟨op, named⟩
    rw [named]
    exact op.number_lt
  · intro low
    cases opcode : (split ramSize w).opcode with
    | known op => exact ⟨op, rfl⟩
    | unknown n =>
      obtain ⟨rfl, missing⟩ := Opcode.ofNumber_unknown opcode
      have high := List.getElem?_eq_none_iff.mp missing
      rw [opcode] at low
      exact absurd low (Nat.not_lt.mpr high)

/-- The instruction has a cell: its operation is named, its operand is the number of a cell, and the
number of the whole is a value. -/
def Encodable (b : Bounds) (i : Instruction) : Prop :=
  ∃ op, i.opcode = .known op ∧ i.operand.toNat < b.ramSize.toNat ∧
    b.code op i.operand.toNat ≤ b.maxValue.toNat

theorem exists_encode_iff {i : Instruction} : (∃ w, i.encode b = .ok w) ↔ i.Encodable b := by
  constructor
  · intro encoded
    obtain ⟨w, encoded⟩ := encoded
    obtain ⟨op, named, inside, small, -⟩ := encode_eq_ok_iff.mp encoded
    exact ⟨op, named, inside, small⟩
  · intro encodable
    obtain ⟨op, named, inside, small⟩ := encodable
    have fits := Nat.lt_of_le_of_lt small b.maxValue.toNat_lt
    have value := UInt32.toNat_ofNat_of_lt' fits
    exact ⟨_, encode_eq_ok_iff.mpr ⟨op, named, inside, small, value⟩⟩

theorem encode_of_unknown {i : Instruction} {n : Word} (unnamed : i.opcode = .unknown n) :
    i.encode b = .error (.illegalInstruction (.unknown n) i.operand 0) := by
  rw [encode, unnamed]

theorem decode_eq_ok_iff (cells : 0 < b.ramSize.toNat) {code : Int64} {i : Instruction} :
    decode b code = .ok i ↔
      ∃ w, w ≤ b.maxValue ∧ Word.signed w = code ∧ split b.ramSize w = i := by
  have nonzero : b.ramSize ≠ 0 := by
    intro zero
    rw [zero] at cells
    exact Nat.lt_irrefl 0 cells
  constructor
  · intro decoded
    by_cases value : b.IsValue code
    · rw [decode, if_pos ⟨value, nonzero⟩] at decoded
      exact ⟨_, Bounds.toUInt32_le value, Bounds.signed_toUInt32 value, Except.ok.inj decoded⟩
    · rw [decode, if_neg (fun h => value h.1)] at decoded
      cases decoded
  · intro held
    obtain ⟨w, small, rfl, rfl⟩ := held
    rw [decode, if_pos ⟨Bounds.isValue_signed small, nonzero⟩, Word.toUInt32_signed]

theorem exists_decode_iff (cells : 0 < b.ramSize.toNat) {code : Int64} :
    (∃ i, decode b code = .ok i) ↔ 0 ≤ code.toInt ∧ code.toInt ≤ b.maxValue.toNat := by
  rw [← Bounds.isValue_iff]
  constructor
  · intro decodes
    obtain ⟨i, decoded⟩ := decodes
    obtain ⟨w, small, rfl, -⟩ := (decode_eq_ok_iff cells).mp decoded
    exact Bounds.isValue_signed small
  · intro value
    have held := (decode_eq_ok_iff cells).mpr
      ⟨_, Bounds.toUInt32_le value, Bounds.signed_toUInt32 value, rfl⟩
    exact ⟨_, held⟩

/-- What a code says that was taken for the instruction `i`, and what becomes of `i` when it is put
together again. -/
structure Decoded (b : Bounds) (code : Int64) (i : Instruction) : Prop where
  operand_lt : i.operand < b.ramSize
  whole : (i.opcode.number.toNat * b.ramSize.toNat + i.operand.toNat : Nat) = code.toInt
  named_iff : (∃ op, i.opcode = .known op) ↔ code.toInt < (11 * b.ramSize.toNat : Nat)
  restored : ∀ op, i.opcode = .known op → ∃ w, i.encode b = .ok w ∧ Word.signed w = code
  refused : ∀ n, i.opcode = .unknown n →
    i.encode b = .error (.illegalInstruction (.unknown n) i.operand 0)

theorem Decoded.of_decode (cells : 0 < b.ramSize.toNat) {code : Int64} {i : Instruction}
    (decoded : decode b code = .ok i) : Decoded b code i := by
  obtain ⟨w, small, rfl, rfl⟩ := (decode_eq_ok_iff cells).mp decoded
  constructor
  · rw [UInt64.lt_iff_toNat_lt, exact_operand]
    exact Nat.mod_lt _ cells
  · rw [number_split, Word.toInt_signed]
  · rw [split_named_iff cells, Word.toInt_signed]
    omega
  · intro op named
    exact ⟨w, encode_split small cells named, rfl⟩
  · intro n unnamed
    exact encode_of_unknown unnamed

def codes (b : Bounds) : Set Word :=
  {w | w.toNat < min (b.maxValue.toNat + 1) (11 * b.ramSize.toNat)}

theorem mem_codes_iff {w : Word} :
    w ∈ codes b ↔ w ≤ b.maxValue ∧ w.toNat < 11 * b.ramSize.toNat := by
  rw [UInt32.le_iff_toNat_le, ← Nat.lt_succ_iff]
  exact Nat.lt_min

theorem mem_codes_of_encode (cells : 0 < b.ramSize.toNat) {i : Instruction} {w : Word}
    (encoded : i.encode b = .ok w) : w ∈ codes b := by
  obtain ⟨op, named, -⟩ := encode_eq_ok_iff.mp encoded
  have low : w.toNat < 11 * b.ramSize.toNat := by
    rw [← split_named_iff cells, split_of_encode encoded]
    exact ⟨op, named⟩
  exact mem_codes_iff.mpr ⟨encode_le encoded, low⟩

theorem encode_split_of_mem_codes (cells : 0 < b.ramSize.toNat) {w : Word} (code : w ∈ codes b) :
    (split b.ramSize w).encode b = .ok w := by
  obtain ⟨small, low⟩ := mem_codes_iff.mp code
  obtain ⟨op, named⟩ := (split_named_iff cells).mpr low
  exact encode_split small cells named

theorem bijOn_encode (cells : 0 < b.ramSize.toNat) :
    Set.BijOn (encode b) {i | i.Encodable b} (Except.ok '' codes b) := by
  refine ⟨?_, ?_, ?_⟩
  · intro i encodable
    obtain ⟨w, encoded⟩ := exists_encode_iff.mpr encodable
    exact ⟨w, mem_codes_of_encode cells encoded, encoded.symm⟩
  · intro i encodable j _ same
    obtain ⟨w, encoded⟩ := exists_encode_iff.mpr encodable
    have other : j.encode b = .ok w := same.symm.trans encoded
    rw [← split_of_encode encoded, ← split_of_encode other]
  · intro result member
    obtain ⟨w, code, rfl⟩ := member
    have encoded := encode_split_of_mem_codes cells code
    exact ⟨_, exists_encode_iff.mp ⟨w, encoded⟩, encoded⟩

theorem code_fits (few : b.ramSize.toNat ≤ 2 ^ 60) (op : Mnemonic) {a : Address}
    (inside : a < b.ramSize) :
    (op.number.toUInt64 * b.ramSize + a).toNat = b.code op a.toNat := by
  have lt := UInt64.lt_iff_toNat_lt.mp inside
  have most : op.number.toNat * b.ramSize.toNat ≤ 10 * 2 ^ 60 :=
    Nat.mul_le_mul (Nat.le_of_lt_succ op.number_lt) few
  rw [UInt64.toNat_add, UInt64.toNat_mul, UInt32.toNat_toUInt64, Bounds.code,
    Nat.mod_eq_of_lt (a := op.number.toNat * b.ramSize.toNat) (by omega)]
  exact Nat.mod_eq_of_lt (by omega)

/-- Instructions and codes correspond. Putting an instruction together succeeds exactly where it has
a cell, and taking the cell apart gives it back; taking a code apart succeeds exactly on values, and
gives an instruction that is put together into the code again if it is named, and that is refused
if it is not. -/
theorem instructions_correspond_to_codes {b : Bounds} (cells : 1 ≤ b.ramSize.toNat)
    (few : b.ramSize.toNat ≤ 2 ^ 60) :
    (∀ (op : Mnemonic) (a : Address), a < b.ramSize →
      (op.number.toUInt64 * b.ramSize + a).toNat = b.code op a.toNat) ∧
    (∀ i : Instruction, (∃ w, i.encode b = .ok w) ↔ i.Encodable b) ∧
    (∀ (i : Instruction) (w : Word), i.encode b = .ok w → decode b (Word.signed w) = .ok i) ∧
    (∀ code : Int64,
      (∃ i, decode b code = .ok i) ↔ 0 ≤ code.toInt ∧ code.toInt ≤ b.maxValue.toNat) ∧
    (∀ (code : Int64) (i : Instruction), decode b code = .ok i → Decoded b code i) ∧
    Set.BijOn (encode b) {i | i.Encodable b} (Except.ok '' codes b) := by
  refine ⟨fun op a => code_fits few op, fun i => exists_encode_iff, ?_,
    fun code => exists_decode_iff cells, fun code i => Decoded.of_decode cells, bijOn_encode cells⟩
  intro i w encoded
  exact (decode_eq_ok_iff cells).mpr ⟨w, encode_le encoded, rfl, split_of_encode encoded⟩

theorem instructions_correspond_to_codes_at_cut :
    let b : Bounds := ⟨10, 25⟩
    1 ≤ b.ramSize.toNat ∧ b.ramSize.toNat ≤ 2 ^ 60 ∧
      encode b ⟨.known .add, 5⟩ = .ok 25 ∧ decode b 25 = .ok ⟨.known .add, 5⟩ ∧
      ¬ Encodable b ⟨.known .add, 6⟩ ∧ Decoded b 25 ⟨.known .add, 5⟩ := by
  intro b
  have ten : b.ramSize.toNat = 10 := rfl
  have cells : 1 ≤ b.ramSize.toNat := by omega
  have few : b.ramSize.toNat ≤ 2 ^ 60 := by omega
  have encoded : encode b ⟨.known .add, 5⟩ = .ok 25 := by decide
  have refused : ¬ ∃ w, encode b ⟨.known .add, 6⟩ = .ok w := by
    intro h
    obtain ⟨w, h⟩ := h
    cases h
  obtain ⟨-, encodes, decodes, -, parts, -⟩ := instructions_correspond_to_codes cells few
  have decoded := decodes _ _ encoded
  exact ⟨cells, few, encoded, decoded, fun h => refused ((encodes _).mpr h), parts _ _ decoded⟩

end Instruction
end AccMachine

/-!
The limits of a machine: how many cells it has and the largest value that a cell or the
accumulator holds. Words and addresses have fixed width; sums of words are taken in a signed
width that has room for them and are then cut back into the limits.
-/
namespace AccMachine

abbrev Word := UInt32

/-- Number of a cell, whether or not a given machine has that cell. -/
abbrev Address := UInt64

def Word.signed (w : Word) : Int64 := w.toUInt64.toInt64

theorem toInt_toInt64 {x : UInt64} (h : x.toNat < 0x8000000000000000) :
    x.toInt64.toInt = x.toNat := by
  change x.toBitVec.toInt = x.toNat
  rw [BitVec.toInt_eq_toNat_of_lt (by simpa using (by omega : 2 * x.toNat < 2 ^ 64))]
  rfl

theorem toNat_toUInt64 {v : Int64} (h : 0 ≤ v.toInt) : (v.toUInt64.toNat : Int) = v.toInt := by
  change (v.toBitVec.toNat : Int) = v.toBitVec.toInt
  change 0 ≤ v.toBitVec.toInt at h
  rw [BitVec.toInt_eq_toNat_cond] at h ⊢
  have := v.toBitVec.isLt
  split at h
  · rename_i c; simp [c]
  · omega

theorem Word.toInt_signed (w : Word) : (Word.signed w).toInt = w.toNat := by
  have small := w.toNat_lt
  rw [signed, toInt_toInt64 (by simp; omega)]
  simp

structure Bounds where
  ramSize : Address := 1000
  maxValue : Word := 99999
  deriving DecidableEq, Repr, Inhabited

namespace Bounds

def IsAddress (b : Bounds) (a : Int64) : Prop := 0 ≤ a ∧ a.toUInt64 < b.ramSize

def IsValue (b : Bounds) (v : Int64) : Prop := 0 ≤ v ∧ v ≤ Word.signed b.maxValue

instance (b : Bounds) (a : Int64) : Decidable (b.IsAddress a) :=
  inferInstanceAs (Decidable (_ ∧ _))

instance (b : Bounds) (v : Int64) : Decidable (b.IsValue v) :=
  inferInstanceAs (Decidable (_ ∧ _))

def saturate (b : Bounds) (v : Int64) : Word :=
  if v < 0 then 0
  else if Word.signed b.maxValue < v then b.maxValue
  else v.toUInt64.toUInt32

theorem isAddress_iff {b : Bounds} {a : Int64} :
    b.IsAddress a ↔ 0 ≤ a.toInt ∧ a.toInt < b.ramSize.toNat := by
  simp only [IsAddress, Int64.le_iff_toInt_le, UInt64.lt_iff_toNat_lt, Int64.toInt_zero]
  constructor
  · rintro ⟨h, lt⟩
    have := toNat_toUInt64 h
    omega
  · rintro ⟨h, lt⟩
    have := toNat_toUInt64 h
    omega

theorem isValue_iff {b : Bounds} {v : Int64} :
    b.IsValue v ↔ 0 ≤ v.toInt ∧ v.toInt ≤ b.maxValue.toNat := by
  simp [IsValue, Int64.le_iff_toInt_le, Word.toInt_signed]

theorem toNat_saturate (b : Bounds) (v : Int64) :
    ((b.saturate v).toNat : Int) = max 0 (min v.toInt b.maxValue.toNat) := by
  have small := b.maxValue.toNat_lt
  unfold saturate
  simp only [Int64.lt_iff_toInt_lt, Int64.toInt_zero, Word.toInt_signed]
  split
  · simp; omega
  · split
    · omega
    · have := toNat_toUInt64 (v := v) (by omega)
      simp only [UInt64.toNat_toUInt32]
      omega

end Bounds
end AccMachine

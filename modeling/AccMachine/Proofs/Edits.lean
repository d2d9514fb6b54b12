import AccMachine.Proofs.Moves

/-!
Calls that overwrite one cell of a memory, from arguments of any origin. A call is refused, or it
overwrites the cell that it names and no other.
-/
namespace AccMachine

namespace Memory

theorem get_put_of_ne (m : Memory) {a a' : Address} (apart : a ≠ a') (v : Word) :
    (m.put a v).get a' = m.get a' := by
  have distinct : a.toNat ≠ a'.toNat := fun same => apart (UInt64.toNat_inj.mp same)
  rw [get, put, Array.getElem?_setIfInBounds_ne distinct, get]

theorem get_put_self {m : Memory} (h : m.WellFormed) {a : Address} (lt : a < m.bounds.ramSize)
    (v : Word) : (m.put a v).get a = v := by
  have inside := h.inside lt
  simp [get, put, inside]

theorem put_put (m : Memory) (a : Address) (v w : Word) : (m.put a v).put a w = m.put a w := by
  simp [put]

theorem put_comm (m : Memory) {a a' : Address} (apart : a ≠ a') (v w : Word) :
    (m.put a v).put a' w = (m.put a' w).put a v := by
  have distinct : a.toNat ≠ a'.toNat := fun same => apart (UInt64.toNat_inj.mp same)
  simp only [put, Array.setIfInBounds_comm _ _ distinct]

theorem read_put_self {m : Memory} (h : m.WellFormed) {a : Address} (lt : a < m.bounds.ramSize)
    (v : Word) : (m.put a v).read a = .ok v := by
  have inside := h.inside lt
  simp [read, put, inside]

theorem read_put_of_ne (m : Memory) {a a' : Address} (apart : a ≠ a') (v : Word) :
    (m.put a v).read a' = m.read a' := by
  have distinct : a.toNat ≠ a'.toNat := fun same => apart (UInt64.toNat_inj.mp same)
  by_cases inside : a'.toNat < m.cells.size
  · simp [read, put, inside, Array.getElem_setIfInBounds_ne inside distinct]
  · simp [read, put, noCell, inside]

theorem write_eq_ok_iff {m m' : Memory} (h : m.WellFormed) {a : Address} {v : Word} :
    m.write a v = .ok m' ↔ (a < m.bounds.ramSize ∧ v ≤ m.bounds.maxValue) ∧ m.put a v = m' := by
  by_cases inside : a < m.bounds.ramSize
  · by_cases small : v ≤ m.bounds.maxValue
    · simp [write_inside h inside small, inside, small]
    · have lt := h.inside inside
      simp [write, lt, UInt32.not_le.mp small, small]
  · have past : ¬ a.toNat < m.cells.size := by
      rw [h.1]
      exact fun lt => inside (UInt64.lt_iff_toNat_lt.mpr lt)
    simp [write, past, inside]

end Memory

theorem Bounds.toUInt32_le {b : Bounds} {v : Int64} (value : b.IsValue v) :
    v.toUInt64.toUInt32 ≤ b.maxValue := by
  obtain ⟨low, high⟩ := Bounds.isValue_iff.mp value
  have same := toNat_toUInt64 low
  have cut := Nat.mod_le v.toUInt64.toNat (2 ^ 32)
  rw [UInt32.le_iff_toNat_le, UInt64.toNat_toUInt32]
  omega

theorem Bounds.signed_toUInt32 {b : Bounds} {v : Int64} (value : b.IsValue v) :
    Word.signed v.toUInt64.toUInt32 = v := by
  obtain ⟨low, high⟩ := Bounds.isValue_iff.mp value
  have same := toNat_toUInt64 low
  have word := b.maxValue.toNat_lt
  have fits : v.toUInt64.toNat < 2 ^ 32 := by omega
  apply Int64.toInt_inj.mp
  rw [Word.toInt_signed, UInt64.toNat_toUInt32, Nat.mod_eq_of_lt fits]
  exact same

inductive Edit where
  | write (a : Address) (v : Word)
  | setCell (a v : Int64)
  deriving DecidableEq, Repr

namespace Edit

/-- The cell that the call overwrites under the limits `b`; a refused call overwrites none. -/
def target? (b : Bounds) : Edit → Option Address
  | .write a v => if a < b.ramSize ∧ v ≤ b.maxValue then some a else none
  | .setCell a v => if b.IsAddress a ∧ b.IsValue v then some a.toUInt64 else none

def value : Edit → Word
  | .write _ v => v
  | .setCell _ v => v.toUInt64.toUInt32

end Edit

namespace Memory

def edit (m : Memory) : Edit → Except Fault Memory
  | .write a v => m.write a v
  | .setCell a v => m.setCell a v

def edited (m : Memory) (e : Edit) : Memory :=
  match m.edit e with
  | .ok m' => m'
  | .error _ => m

def editedAll (m : Memory) (edits : List Edit) : Memory := edits.foldl edited m

variable {m : Memory}

theorem edit_eq_ok_iff {m' : Memory} (h : m.WellFormed) {e : Edit} :
    m.edit e = .ok m' ↔ ∃ a, e.target? m.bounds = some a ∧ m.put a e.value = m' := by
  cases e with
  | write a v =>
    simp only [edit, Edit.target?, Edit.value, write_eq_ok_iff h, Option.ite_none_right_eq_some,
      Option.some.injEq]
    constructor
    · rintro ⟨within, done⟩
      exact ⟨a, ⟨within, rfl⟩, done⟩
    · rintro ⟨_, ⟨within, rfl⟩, done⟩
      exact ⟨within, done⟩
  | setCell a v =>
    by_cases address : m.bounds.IsAddress a
    · by_cases value : m.bounds.IsValue v
      · have inside : a.toUInt64 < m.bounds.ramSize := address.2
        have small := Bounds.toUInt32_le value
        simp [edit, setCell, address, value, write_eq_ok_iff h, inside, small, Edit.target?,
          Edit.value]
      · simp [edit, setCell, address, value, Edit.target?]
    · simp [edit, setCell, address, Edit.target?]

theorem edited_eq (h : m.WellFormed) (e : Edit) : m.edited e =
    match e.target? m.bounds with
    | some a => m.put a e.value
    | none => m := by
  unfold edited
  cases target : e.target? m.bounds with
  | some a => rw [(edit_eq_ok_iff h).mpr ⟨a, target, rfl⟩]
  | none =>
    cases done : m.edit e with
    | error f => rfl
    | ok m' =>
      obtain ⟨a, found, -⟩ := (edit_eq_ok_iff h).mp done
      rw [target] at found
      cases found

theorem edited_wellFormed (h : m.WellFormed) (e : Edit) :
    (m.edited e).bounds = m.bounds ∧ (m.edited e).WellFormed := by
  unfold edited
  split
  · rename_i m' done
    cases e with
    | write a v => exact write_wellFormed h done
    | setCell a v => exact setCell_wellFormed h done
  · exact ⟨rfl, h⟩

theorem get_edited (h : m.WellFormed) {e : Edit} {a : Address}
    (other : e.target? m.bounds ≠ some a) : (m.edited e).get a = m.get a := by
  rw [edited_eq h]
  split
  · rename_i a' target
    apply m.get_put_of_ne
    rintro rfl
    exact other target
  · rfl

theorem editedAll_wellFormed (h : m.WellFormed) (edits : List Edit) :
    (m.editedAll edits).bounds = m.bounds ∧ (m.editedAll edits).WellFormed := by
  induction edits generalizing m with
  | nil => exact ⟨rfl, h⟩
  | cons e edits ih =>
    obtain ⟨same, kept⟩ := edited_wellFormed h e
    obtain ⟨sameRest, keptRest⟩ := ih kept
    exact ⟨sameRest.trans same, keptRest⟩

theorem get_editedAll (h : m.WellFormed) {edits : List Edit} {a : Address}
    (others : ∀ e ∈ edits, e.target? m.bounds ≠ some a) : (m.editedAll edits).get a = m.get a := by
  induction edits generalizing m with
  | nil => rfl
  | cons e edits ih =>
    obtain ⟨first, rest⟩ := List.forall_mem_cons.mp others
    obtain ⟨same, kept⟩ := edited_wellFormed h e
    have later : ((m.edited e).editedAll edits).get a = (m.edited e).get a :=
      ih kept (by rwa [same])
    exact later.trans (get_edited h first)

end Memory
end AccMachine

import AccMachine.Proofs.Edits

/-!
A memory as a store. Whatever calls it has had, a cell holds what the last one that was taken there
was to store. A call that is refused changes nothing, and calls on different cells may change places.
-/
namespace AccMachine

namespace Edit

def address : Edit → Int
  | .write a _ => a.toNat
  | .setCell a _ => a.toInt

def amount : Edit → Int
  | .write _ v => v.toNat
  | .setCell _ v => v.toInt

def reportedAddress : Edit → Int64
  | .write a _ => a.toInt64
  | .setCell a _ => a

def reportedValue : Edit → Int64
  | .write _ v => Word.signed v
  | .setCell _ v => v

def what : Edit → String
  | .write _ _ => "cell value"
  | .setCell _ _ => "cell desired value"

def Inside (b : Bounds) (e : Edit) : Prop := 0 ≤ e.address ∧ e.address < b.ramSize.toNat

def Fits (b : Bounds) (e : Edit) : Prop := 0 ≤ e.amount ∧ e.amount ≤ b.maxValue.toNat

def Takes (b : Bounds) (a : Address) (e : Edit) : Prop :=
  e.address = a.toNat ∧ e.Inside b ∧ e.Fits b

instance (b : Bounds) (e : Edit) : Decidable (e.Inside b) := inferInstanceAs (Decidable (_ ∧ _))

instance (b : Bounds) (e : Edit) : Decidable (e.Fits b) := inferInstanceAs (Decidable (_ ∧ _))

instance (b : Bounds) (a : Address) (e : Edit) : Decidable (e.Takes b a) :=
  inferInstanceAs (Decidable (_ ∧ _))

variable {b : Bounds} {a : Address} {e : Edit}

theorem target?_eq_some_iff : e.target? b = some a ↔ e.Takes b a := by
  cases e with
  | write a' v =>
    have same : (a'.toNat : Int) = a.toNat ↔ a' = a := by
      rw [Int.ofNat_inj, UInt64.toNat_inj]
    simp only [target?, Takes, Inside, Fits, address, amount, same, Option.ite_none_right_eq_some,
      Option.some.injEq, UInt64.lt_iff_toNat_lt, UInt32.le_iff_toNat_le]
    constructor
    · rintro ⟨⟨inside, fits⟩, rfl⟩
      exact ⟨rfl, by omega, by omega⟩
    · rintro ⟨rfl, inside, fits⟩
      exact ⟨by omega, rfl⟩
  | setCell a' v =>
    simp only [target?, Takes, Inside, Fits, address, amount, Option.ite_none_right_eq_some,
      Option.some.injEq, Bounds.isAddress_iff, Bounds.isValue_iff]
    constructor
    · rintro ⟨within, rfl⟩
      exact ⟨(toNat_toUInt64 within.1.1).symm, within⟩
    · rintro ⟨same, within⟩
      have exact := toNat_toUInt64 within.1.1
      exact ⟨within, UInt64.toNat_inj.mp (by omega)⟩

theorem exists_target?_iff : (∃ a, e.target? b = some a) ↔ e.Inside b ∧ e.Fits b := by
  simp only [target?_eq_some_iff]
  constructor
  · rintro ⟨a, -, within⟩
    exact within
  · intro within
    have named : (e.address.toNat : Int) = e.address := Int.toNat_of_nonneg within.1.1
    have fits : e.address.toNat < 2 ^ 64 := by
      have inside := within.1.2
      have bounded := b.ramSize.toNat_lt
      omega
    refine ⟨.ofNat e.address.toNat, ?_, within⟩
    rw [UInt64.toNat_ofNat_of_lt' fits, named]

theorem toNat_value (fits : e.Fits b) : (e.value.toNat : Int) = e.amount := by
  cases e with
  | write a v => rfl
  | setCell a v =>
    rw [value, ← Word.toInt_signed, Bounds.signed_toUInt32 (Bounds.isValue_iff.mpr fits)]
    rfl

end Edit

namespace Memory

/-- How a memory within the limits `b` answers a call. The address decides before the value. -/
structure Answers (b : Bounds) (m : Memory) (e : Edit) : Prop where
  taken_iff : (∃ m', m.edit e = .ok m') ↔ e.Inside b ∧ e.Fits b
  outside : ¬ e.Inside b → m.edit e = .error (.outOfBounds "cell id" e.reportedAddress b.ramSize)
  unfit : e.Inside b → ¬ e.Fits b →
    m.edit e = .error (.valueOutOfRange e.what e.reportedValue b.maxValue)
  refused : (∀ m', m.edit e ≠ .ok m') → m.edited e = m

/-- The memory `m` is a store for the calls `edits`, whichever they are. -/
structure KeepsLast (m : Memory) (edits : List Edit) : Prop where
  answers : ∀ before e after, edits = before ++ e :: after →
    (m.editedAll before).Answers m.bounds e
  inside : ∀ a, a < m.bounds.ramSize → ∃ v w, m.read a = .ok v ∧
    (m.editedAll edits).read a = .ok w ∧
    (w.toNat : Int) =
      ((edits.filter (·.Takes m.bounds a)).getLast?.map Edit.amount).getD v.toNat
  outside : ∀ a, m.bounds.ramSize ≤ a → (m.editedAll edits).read a =
    .error (.outOfBounds "cell id" a.toInt64 m.bounds.ramSize)
  exchange : ∀ before e e' after a a', edits = before ++ e :: e' :: after →
    e.Takes m.bounds a → e'.Takes m.bounds a' → a ≠ a' →
    m.editedAll edits = m.editedAll (before ++ e' :: e :: after)

theorem editedAll_append (m : Memory) (before after : List Edit) :
    m.editedAll (before ++ after) = (m.editedAll before).editedAll after := List.foldl_append

section

variable {m : Memory} (h : m.WellFormed)
include h

theorem edit_outside {e : Edit} (outside : ¬ e.Inside m.bounds) :
    m.edit e = .error (.outOfBounds "cell id" e.reportedAddress m.bounds.ramSize) := by
  cases e with
  | write a v =>
    have past : ¬ a.toNat < m.cells.size := by
      rw [h.1]
      exact fun lt => outside ⟨Int.natCast_nonneg _, Int.ofNat_lt.mpr lt⟩
    simp [edit, write, past, noCell, Edit.reportedAddress]
  | setCell a v =>
    have unnamed : ¬ m.bounds.IsAddress a := fun named => outside (Bounds.isAddress_iff.mp named)
    simp [edit, setCell, unnamed, noCell, Edit.reportedAddress]

theorem edit_unfit {e : Edit} (inside : e.Inside m.bounds) (unfit : ¬ e.Fits m.bounds) :
    m.edit e = .error (.valueOutOfRange e.what e.reportedValue m.bounds.maxValue) := by
  cases e with
  | write a v =>
    have there : a.toNat < m.cells.size := by
      rw [h.1]
      exact Int.ofNat_lt.mp inside.2
    have high : m.bounds.maxValue < v := by
      apply UInt32.not_le.mp
      intro small
      exact unfit ⟨Int.natCast_nonneg _, Int.ofNat_le.mpr (UInt32.le_iff_toNat_le.mp small)⟩
    simp [edit, write, there, high, Edit.what, Edit.reportedValue]
  | setCell a v =>
    have named : m.bounds.IsAddress a := Bounds.isAddress_iff.mpr inside
    have high : ¬ m.bounds.IsValue v := fun value => unfit (Bounds.isValue_iff.mp value)
    simp [edit, setCell, named, high, Edit.what, Edit.reportedValue]

theorem answers (e : Edit) : m.Answers m.bounds e where
  taken_iff := by
    rw [← Edit.exists_target?_iff]
    simp only [edit_eq_ok_iff h]
    constructor
    · rintro ⟨m', a, target, -⟩
      exact ⟨a, target⟩
    · rintro ⟨a, target⟩
      exact ⟨_, a, target, rfl⟩
  outside := edit_outside h
  unfit := edit_unfit h
  refused := by
    intro missing
    unfold edited
    split
    · rename_i m' taken
      exact absurd taken (missing m')
    · rfl

theorem get_editedAll_last (edits : List Edit) {a : Address} (inside : a < m.bounds.ramSize) :
    ((m.editedAll edits).get a).toNat =
      ((edits.filter (·.Takes m.bounds a)).getLast?.map Edit.amount).getD (m.get a).toNat := by
  induction edits generalizing m with
  | nil => rfl
  | cons e edits ih =>
    obtain ⟨same, kept⟩ := edited_wellFormed h e
    have rest := ih kept (same ▸ inside)
    rw [same] at rest
    rw [editedAll, List.foldl_cons, ← editedAll, rest, List.filter_cons]
    by_cases takes : e.Takes m.bounds a
    · have stored : (m.edited e).get a = e.value := by
        rw [edited_eq h, Edit.target?_eq_some_iff.mpr takes]
        exact get_put_self h inside _
      rw [if_pos (decide_eq_true takes), List.getLast?_cons, stored, Edit.toNat_value takes.2.2]
      cases (edits.filter (·.Takes m.bounds a)).getLast? <;> rfl
    · have missed : e.target? m.bounds ≠ some a := fun target =>
        takes (Edit.target?_eq_some_iff.mp target)
      rw [if_neg (by simpa using takes), get_edited h missed]

theorem read_outside {a : Address} (past : m.bounds.ramSize ≤ a) :
    m.read a = .error (.outOfBounds "cell id" a.toInt64 m.bounds.ramSize) := by
  have beyond : ¬ a.toNat < m.cells.size := by
    rw [h.1]
    exact Nat.not_lt.mpr (UInt64.le_iff_toNat_le.mp past)
  rw [read, dif_neg beyond]
  rfl

theorem edited_comm {e e' : Edit} {a a' : Address} (takes : e.Takes m.bounds a)
    (takes' : e'.Takes m.bounds a') (apart : a ≠ a') :
    (m.edited e).edited e' = (m.edited e').edited e := by
  obtain ⟨same, kept⟩ := edited_wellFormed h e
  obtain ⟨same', kept'⟩ := edited_wellFormed h e'
  rw [edited_eq kept, edited_eq kept', same, same', edited_eq h, edited_eq h,
    Edit.target?_eq_some_iff.mpr takes, Edit.target?_eq_some_iff.mpr takes']
  exact m.put_comm apart _ _

/-- Calls of any kind, in any order and with any arguments, leave in every cell what the last one
that was taken there was to store. -/
theorem calls_keep_last (edits : List Edit) : m.KeepsLast edits := by
  obtain ⟨same, kept⟩ := editedAll_wellFormed h edits
  constructor
  · intro before e after _
    obtain ⟨same, kept⟩ := editedAll_wellFormed h before
    rw [← same]
    exact answers kept e
  · intro a inside
    exact ⟨_, _, read_inside h inside, read_inside kept (same ▸ inside),
      get_editedAll_last h edits inside⟩
  · intro a past
    rw [← same] at past ⊢
    exact read_outside kept past
  · rintro before e e' after a a' rfl takes takes' apart
    obtain ⟨same, kept⟩ := editedAll_wellFormed h before
    rw [← same] at takes takes'
    have exchanged := edited_comm kept takes takes' apart
    rw [editedAll_append, editedAll_append]
    exact congrArg (·.editedAll after) exchanged

end

theorem calls_keep_last_of_six :
    let m : Memory := ⟨⟨3, 99⟩, #[7, 8, 9]⟩
    let edits : List Edit := [.write 1 50, .setCell 1 60, .write 0xFFFFFFFFFFFFFFFF 1,
      .setCell (-1) (-5), .setCell 0 100, .write 2 99]
    m.WellFormed ∧ m.KeepsLast edits ∧ (m.editedAll edits).read 1 = .ok 60 := by
  intro m edits
  have wellFormed : m.WellFormed := ⟨rfl, by simp [m]⟩
  have keeps := calls_keep_last wellFormed edits
  obtain ⟨v, w, -, read, value⟩ := keeps.inside 1 (by decide)
  obtain rfl : w = 60 := by
    rw [← UInt32.toNat_inj]
    exact Int.ofNat_inj.mp value
  exact ⟨wellFormed, keeps, read⟩

end Memory
end AccMachine

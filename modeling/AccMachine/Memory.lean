import AccMachine.Instruction

/-!
The cells of a machine. Every access is checked: reads and writes stay within the cells that
there are, and no cell takes a value above the limit.
-/
namespace AccMachine

structure Memory where
  bounds : Bounds
  cells : Array Word
  deriving DecidableEq, Repr, Inhabited

namespace Memory

/-- As many cells as the limits say, and none above the largest value. -/
def WellFormed (m : Memory) : Prop :=
  m.cells.size = m.bounds.ramSize.toNat ∧ ∀ v ∈ m.cells, v ≤ m.bounds.maxValue

instance (m : Memory) : Decidable m.WellFormed :=
  decidable_of_iff (m.cells.size = m.bounds.ramSize.toNat ∧
    m.cells.all (fun v => v ≤ m.bounds.maxValue) = true) (by
      simp only [WellFormed, Array.all_eq_true', decide_eq_true_eq])

def zeroed (b : Bounds) : Memory := ⟨b, Array.replicate b.ramSize.toNat 0⟩

/-- Appends `count` cells to those drawn so far. Each cell is drawn from its address and a state
that is handed on, and a value above the limit is replaced by the limit. -/
def fillFrom (maxValue : Word) (draw : Address → σ → Word × σ) :
    (count : Nat) → Array Word → σ → Array Word × σ
  | 0, cells, s => (cells, s)
  | count + 1, cells, s =>
    let (v, s) := draw cells.size.toUInt64 s
    fillFrom maxValue draw count (cells.push (min v maxValue)) s

def fill (b : Bounds) (draw : Address → σ → Word × σ) (s : σ) : Memory × σ :=
  let (cells, s) := fillFrom b.maxValue draw b.ramSize.toNat #[] s
  (⟨b, cells⟩, s)

def ofFn (b : Bounds) (f : Address → Word) : Memory :=
  (fill b (fun a _ => (f a, ())) ()).1

def size (m : Memory) : Nat := m.cells.size

@[inline] def noCell (m : Memory) (a : Int64) : Fault := .outOfBounds "cell id" a m.bounds.ramSize

@[inline] def read (m : Memory) (a : Address) : Except Fault Word :=
  if h : a.toNat < m.cells.size then .ok m.cells[a.toNat]
  else .error (m.noCell a.toInt64)

@[inline] def write (m : Memory) (a : Address) (v : Word) : Except Fault Memory :=
  if h : a.toNat < m.cells.size then
    if m.bounds.maxValue < v then
      .error (.valueOutOfRange "cell value" (Word.signed v) m.bounds.maxValue)
    else .ok { m with cells := m.cells.set a.toNat v h }
  else .error (m.noCell a.toInt64)

/-- Overwrites a cell from signed numbers of any origin; the address is checked first. -/
def setCell (m : Memory) (a v : Int64) : Except Fault Memory :=
  if ¬ m.bounds.IsAddress a then .error (m.noCell a)
  else if ¬ m.bounds.IsValue v then
    .error (.valueOutOfRange "cell desired value" v m.bounds.maxValue)
  else m.write a.toUInt64 v.toUInt64.toUInt32

def highestNonzeroBelow (cells : Array Word) : Nat → Option Nat
  | 0 => none
  | n + 1 => if cells[n]?.getD 0 ≠ 0 then some n else highestNonzeroBelow cells n

def highestNonzero? (m : Memory) : Option Nat := highestNonzeroBelow m.cells m.cells.size

theorem zeroed_wellFormed (b : Bounds) : (zeroed b).WellFormed := by
  refine ⟨by simp [zeroed], fun v hv => ?_⟩
  have : v = 0 := by simpa [zeroed] using (Array.mem_replicate.mp hv).2
  simp [this]

theorem write_wellFormed {m m' : Memory} {a : Address} {v : Word} (h : m.WellFormed)
    (written : m.write a v = .ok m') : m'.bounds = m.bounds ∧ m'.WellFormed := by
  unfold write at written
  split at written
  · rename_i inside
    split at written
    · cases written
    · rename_i small
      cases written
      refine ⟨rfl, ⟨by simpa using h.1, fun w hw => ?_⟩⟩
      have hw : w ∈ m.cells.set a.toNat v inside := hw
      rcases Array.mem_or_eq_of_mem_set hw with old | rfl
      · exact h.2 w old
      · exact UInt32.not_lt.mp small
  · cases written

theorem setCell_wellFormed {m m' : Memory} {a v : Int64} (h : m.WellFormed)
    (written : m.setCell a v = .ok m') : m'.bounds = m.bounds ∧ m'.WellFormed := by
  unfold setCell at written
  split at written
  · cases written
  · split at written
    · cases written
    · exact write_wellFormed h written

theorem fillFrom_size (maxValue : Word) (draw : Address → σ → Word × σ) (count : Nat)
    (cells : Array Word) (s : σ) :
    (fillFrom maxValue draw count cells s).1.size = cells.size + count := by
  induction count generalizing cells s with
  | zero => rfl
  | succ count ih =>
    simp only [fillFrom]
    rw [ih, Array.size_push]
    omega

theorem fillFrom_le {maxValue : Word} (draw : Address → σ → Word × σ) (count : Nat)
    {cells : Array Word} (s : σ) (h : ∀ v ∈ cells, v ≤ maxValue) :
    ∀ v ∈ (fillFrom maxValue draw count cells s).1, v ≤ maxValue := by
  induction count generalizing cells s with
  | zero => exact h
  | succ count ih =>
    refine ih _ fun v hv => ?_
    rcases Array.mem_push.mp hv with old | rfl
    · exact h v old
    · exact Std.min_le_right

theorem fill_wellFormed (b : Bounds) (draw : Address → σ → Word × σ) (s : σ) :
    (fill b draw s).1.WellFormed :=
  ⟨by simp [fill, fillFrom_size], fillFrom_le draw _ s (by simp)⟩

end Memory
end AccMachine

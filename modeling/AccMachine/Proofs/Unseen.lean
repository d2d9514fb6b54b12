import AccMachine.Proofs.Source

/-!
Cells that a run never looks at. Two runs over memories that differ in such a cell stay in step:
each keeps its own content of the cell until an operation replaces it, and from then on the two are
the same.
-/
namespace AccMachine

namespace Effect

def read? : Effect → Option Address
  | .take cell _ | .add cell _ _ | .sub cell _ _ | .tst cell _ _ | .inc cell _ | .dec cell _ =>
    some cell
  | _ => none

def replaced? : Effect → Option Address
  | .save cell _ | .null cell => some cell
  | _ => none

theorem stored?_ne {f : Effect} {a : Address} (unread : f.read? ≠ some a)
    (kept : f.replaced? ≠ some a) : f.stored? ≠ some a := by
  cases f with
  | save | null => exact kept
  | inc | dec => exact unread
  | noop | take | add | sub | jmp | tst => nofun

end Effect

namespace Machine

def withCell (m : Machine) (a : Address) (v : Word) : Machine :=
  { m with memory := m.memory.put a v }

variable {m : Machine} {a : Address} (v : Word)

theorem instruction_withCell (elsewhere : m.ip ≠ a) :
    (m.withCell a v).instruction = m.instruction := by
  have same : (m.memory.put a v).get m.ip = m.memory.get m.ip :=
    m.memory.get_put_of_ne (Ne.symm elsewhere) v
  rw [instruction, withCell, same]
  rfl

theorem effect?_withCell {op : Mnemonic} {cell : Address} {f : Effect}
    (does : m.effect? op cell = some f) (unread : f.read? ≠ some a) :
    (m.withCell a v).effect? op cell = some f := by
  have same : cell ≠ a → (m.withCell a v).memory.get cell = m.memory.get cell :=
    fun apart => m.memory.get_put_of_ne (Ne.symm apart) v
  cases op with
  | noop | jmp | save | null | hlt => exact does
  | take | tst =>
    obtain rfl := Option.some.inj does
    have apart : cell ≠ a := fun here => unread (congrArg some here)
    simp only [effect?, same apart]
  | add | sub | inc | dec =>
    obtain rfl := Option.some.inj does
    have apart : cell ≠ a := fun here => unread (congrArg some here)
    simp only [effect?, same apart]
    rfl

theorem replay_withCell {f : Effect} (kept : f.stored? ≠ some a) (m : Machine) :
    f.replay (m.withCell a v) = (f.replay m).withCell a v := by
  cases f with
  | noop | take | add | sub | jmp | tst => rfl
  | save cell | inc cell | dec cell | null cell =>
    have apart : a ≠ cell := fun here => kept (congrArg some here.symm)
    simp only [Effect.replay, withCell, advance, m.memory.put_comm apart]

theorem replay_withCell_of_replaced {f : Effect} (replaced : f.replaced? = some a) (m : Machine) :
    f.replay (m.withCell a v) = f.replay m := by
  cases f with
  | noop | take | add | sub | jmp | tst | inc | dec => cases replaced
  | save cell | null cell =>
    obtain rfl : cell = a := Option.some.inj replaced
    simp only [Effect.replay, withCell, Memory.put_put]

end Machine

namespace Execution

def withCell (e : Execution) (a : Address) (v : Word) : Execution :=
  { e with machine := e.machine.withCell a v }

variable {e : Execution} {b : Bounds} {a : Address} (v : Word)

theorem Move.act_with_cell (here : e.machine.ip < e.machine.bounds.ramSize)
    (free : reachedLimit? e.limit (e.operations + 1) = none) {op : Mnemonic}
    (named : e.machine.instruction.opcode = .known op) {f : Effect}
    (does : e.machine.effect? op e.machine.instruction.operand = some f)
    (elsewhere : e.machine.ip ≠ a) (unread : f.read? ≠ some a) :
    (e.withCell a v).Move ({ e.counted with machine := f.replay (e.machine.withCell a v) },
      some (.ok ⟨e.machine.ip, e.operations + 1, f⟩)) := by
  have does := Machine.effect?_withCell v does unread
  rw [← e.machine.instruction_withCell v elsewhere] at named does
  exact Move.act (e := e.withCell a v) here free op named f does

theorem Move.with_cell {r : Execution × Option (Except Fault Trace)} (move : e.Move r)
    (elsewhere : e.machine.ip < e.machine.bounds.ramSize → e.machine.ip ≠ a)
    (unread : ∀ t, r.2 = some (.ok t) → t.effect.read? ≠ some a)
    (kept : ∀ t, r.2 = some (.ok t) → t.effect.replaced? ≠ some a) :
    (e.withCell a v).Move (r.1.withCell a v, r.2) := by
  have instruction := fun here => e.machine.instruction_withCell v (elsewhere here)
  cases move with
  | outside out => exact Move.outside (e := e.withCell a v) out
  | cut here l reached => exact Move.cut (e := e.withCell a v) here l reached
  | illegal here free n unnamed =>
    rw [← instruction here] at unnamed ⊢
    exact Move.illegal (e := e.withCell a v) here free n unnamed
  | halt here free named =>
    rw [← instruction here] at named
    exact Move.halt (e := e.withCell a v) here free named
  | act here free op named f does =>
    have unread := unread _ rfl
    have acts := Move.act_with_cell v here free named does (elsewhere here) unread
    rw [Machine.replay_withCell v (Effect.stored?_ne unread (kept _ rfl))] at acts
    exact acts

theorem Move.with_cell_replaced {e' : Execution} {t : Trace} (move : e.Move (e', some (.ok t)))
    (elsewhere : e.machine.ip ≠ a) (replaced : t.effect.replaced? = some a)
    (unread : t.effect.read? ≠ some a) : (e.withCell a v).Move (e', some (.ok t)) := by
  cases move with
  | act here free op named f does =>
    have acts := Move.act_with_cell v here free named does elsewhere unread
    rw [Machine.replay_withCell_of_replaced v replaced] at acts
    exact acts

theorem step_withCell (sound : e.machine.Sound b) (small : v ≤ b.maxValue)
    (elsewhere : e.fetching = true → e.machine.ip ≠ a)
    (unread : ∀ t, e.step.2 = some (.ok t) → t.effect.read? ≠ some a)
    (kept : ∀ t, e.step.2 = some (.ok t) → t.effect.replaced? ≠ some a) :
    (e.withCell a v).step = (e.after.withCell a v, e.step.2) := by
  rcases e.running_or_stopped with running | ended
  · have other : (e.withCell a v).machine.Sound b := sound.put a small
    apply (Move.of_sound other running).unique
    exact (Move.of_sound sound running).with_cell v
      (fun here => elsewhere (fetching_iff.mpr ⟨running, here⟩)) unread kept
  · rw [after_of_stopped e ended, step_of_stopped ended]
    exact step_of_stopped (e := e.withCell a v) ended

theorem step_withCell_of_replaced (sound : e.machine.Sound b) (small : v ≤ b.maxValue) {t : Trace}
    (left : e.step.2 = some (.ok t)) (elsewhere : e.fetching = true → e.machine.ip ≠ a)
    (unread : t.effect.read? ≠ some a) (replaced : t.effect.replaced? = some a) :
    (e.withCell a v).step = e.step := by
  have fetched := fetching_of_record sound left
  have running := (fetching_iff.mp fetched).1
  have other : (e.withCell a v).machine.Sound b := sound.put a small
  have move := Move.of_sound sound running
  apply (Move.of_sound other running).unique
  rw [show e.step = (e.after, some (.ok t)) from Prod.ext rfl left] at move ⊢
  exact move.with_cell_replaced v (elsewhere fetched) replaced unread

theorem get_after (sound : e.machine.Sound b)
    (kept : ∀ t, e.step.2 = some (.ok t) → t.effect.stored? ≠ some a) :
    e.after.machine.memory.get a = e.machine.memory.get a := by
  rcases e.running_or_stopped with running | ended
  · have move := Move.of_sound sound running
    rw [after]
    generalize e.step = r at move kept
    cases move with
    | outside | cut | illegal | halt => rfl
    | act here free op named f does => exact Effect.get_replay (kept _ rfl) e.machine
  · rw [after_of_stopped e ended]

def KeepsCell (e : Execution) (a : Address) (k : Nat) : Prop :=
  ∀ t ∈ e.records k, t.effect.replaced? ≠ some a

/-- Up to the first step that replaces the content of the cell, and in that step too, nothing is
fetched from the cell and no operation looks at it. -/
structure Unseen (e : Execution) (a : Address) : Prop where
  fetches : ∀ k, e.KeepsCell a k → (e.later k).fetching = true → (e.later k).machine.ip ≠ a
  reads : ∀ k t, e.KeepsCell a k → (e.later k).step.2 = some (.ok t) → t.effect.read? ≠ some a

theorem keepsCell_succ_iff (k : Nat) : e.KeepsCell a (k + 1) ↔
    e.KeepsCell a k ∧ ∀ t, (e.later k).step.2 = some (.ok t) → t.effect.replaced? ≠ some a := by
  have last : ∀ t, t ∈ (record? (e.later k).step.2).toList ↔
      (e.later k).step.2 = some (.ok t) := by
    intro t
    match (e.later k).step.2 with
    | none | some (.error f) => simp [record?]
    | some (.ok u) => simp [record?, eq_comm]
  simp only [KeepsCell, records_succ, List.forall_mem_append, last]

theorem later_withCell (sound : e.machine.Sound b) (small : v ≤ b.maxValue) (unseen : e.Unseen a)
    (k : Nat) :
    (e.withCell a v).answers k = e.answers k ∧
      (e.KeepsCell a k ∧ (e.withCell a v).later k = (e.later k).withCell a v ∧
          (e.later k).machine.memory.get a = e.machine.memory.get a ∨
        ¬ e.KeepsCell a k ∧ (e.withCell a v).later k = e.later k) := by
  induction k with
  | zero => exact ⟨rfl, .inl ⟨nofun, rfl, rfl⟩⟩
  | succ k ih =>
    obtain ⟨answered, state⟩ := ih
    rw [answers_succ, answers_succ, answered, keepsCell_succ_iff, later_succ, later_succ]
    have soundLater := later_sound sound k
    rcases state with ⟨keeps, apart, content⟩ | ⟨gone, same⟩
    · have elsewhere := unseen.fetches k keeps
      have unread := fun t => unseen.reads k t keeps
      by_cases kept : ∀ t, (e.later k).step.2 = some (.ok t) → t.effect.replaced? ≠ some a
      · have step := step_withCell v soundLater small elsewhere unread kept
        have stays := get_after soundLater
          fun t left => Effect.stored?_ne (unread t left) (kept t left)
        rw [apart, after, step]
        exact ⟨rfl, .inl ⟨⟨keeps, kept⟩, rfl, stays.trans content⟩⟩
      · obtain ⟨t, replacing⟩ := Classical.not_forall.mp kept
        obtain ⟨left, replaced⟩ := Classical.not_imp.mp replacing
        have step := step_withCell_of_replaced v soundLater small left elsewhere (unread t left)
          (Classical.not_not.mp replaced)
        rw [apart, after, step]
        exact ⟨rfl, .inr ⟨fun both => kept both.2, rfl⟩⟩
    · rw [same]
      exact ⟨rfl, .inr ⟨fun both => gone both.1, rfl⟩⟩

structure SameButFor (a : Address) (e e' : Execution) : Prop where
  ip_eq : e.machine.ip = e'.machine.ip
  acc_eq : e.machine.acc = e'.machine.acc
  operations_eq : e.operations = e'.operations
  status_eq : e.status = e'.status
  read_eq : ∀ c, c ≠ a → e.machine.memory.read c = e'.machine.memory.read c

theorem sameButFor_withCell (e : Execution) (a : Address) (v : Word) :
    SameButFor a e (e.withCell a v) :=
  ⟨rfl, rfl, rfl, rfl,
    fun _ other => (e.machine.memory.read_put_of_ne (Ne.symm other) v).symm⟩

/-- What a run does not look at does not influence it. Whatever else the cell holds, the run gives the
same answers and leaves the same machine, but for the cell itself until its content is replaced. -/
theorem unseen_cell_has_no_influence {m : Memory} (h : m.WellFormed) (limit : Option UInt64)
    {a : Address} (inside : a < m.bounds.ramSize) {v : Word} (small : v ≤ m.bounds.maxValue)
    (unseen : (start m limit).Unseen a) :
    ∃ m', m.write a v = .ok m' ∧ ∀ k,
      (start m' limit).answers k = (start m limit).answers k ∧
      SameButFor a ((start m limit).later k) ((start m' limit).later k) ∧
      ((start m limit).KeepsCell a k →
        ((start m limit).later k).machine.memory.read a = m.read a ∧
        ((start m' limit).later k).machine.memory.read a = .ok v) ∧
      (¬ (start m limit).KeepsCell a k →
        ((start m limit).later k).machine.memory.read a =
          ((start m' limit).later k).machine.memory.read a) := by
  have sound := start_sound h limit
  have bounds := fun k => (later_sound sound k).bounds_eq
  refine ⟨m.put a v, Memory.write_inside h inside small, fun k => ?_⟩
  obtain ⟨answered, state⟩ := later_withCell v sound small unseen k
  rw [show start (m.put a v) limit = (start m limit).withCell a v from rfl]
  refine ⟨answered, ?_⟩
  rcases state with ⟨keeps, apart, content⟩ | ⟨gone, same⟩
  · have here : a < ((start m limit).later k).machine.memory.bounds.ramSize := by
      rw [show ((start m limit).later k).machine.memory.bounds = m.bounds from bounds k]
      exact inside
    rw [apart]
    refine ⟨sameButFor_withCell _ a v, fun _ => ⟨?_, ?_⟩, fun gone => absurd keeps gone⟩
    · rw [Memory.read_inside (later_sound sound k).wellFormed here, content,
        Memory.read_inside h inside]
      rfl
    · exact Memory.read_put_self (later_sound sound k).wellFormed here v
  · rw [same]
    exact ⟨⟨rfl, rfl, rfl, rfl, fun _ _ => rfl⟩, fun keeps => absurd keeps gone, fun _ => rfl⟩

theorem unseen_cell_has_no_influence_until_saved :
    let m : Memory := ⟨⟨5, 99⟩, #[39, 23, 50, 7, 0]⟩
    m.WellFormed ∧ (3 : Address) < m.bounds.ramSize ∧ (8 : Word) ≤ m.bounds.maxValue ∧
      (start m none).Unseen 3 ∧ ∃ m', m.write 3 8 = .ok m' ∧
        ((start m none).later 1).machine.memory.read 3 = .ok 7 ∧
        ((start m' none).later 1).machine.memory.read 3 = .ok 8 ∧
        ((start m none).later 2).machine.memory.read 3 =
          ((start m' none).later 2).machine.memory.read 3 := by
  intro m
  have wellFormed : m.WellFormed := ⟨rfl, by simp [m]⟩
  have inside : (3 : Address) < m.bounds.ramSize := by decide
  have small : (8 : Word) ≤ m.bounds.maxValue := by decide
  have first : (start m none).step.2 = some (.ok ⟨0, 1, .inc 4 1⟩) := by decide
  have second : (start m none).after.step.2 = some (.ok ⟨1, 2, .save 3 1⟩) := by decide
  have gone : ∀ k, ¬ (start m none).KeepsCell 3 (k + 2) := by
    intro k keeps
    refine keeps ⟨1, 2, .save 3 1⟩ ?_ rfl
    simp [records, answers, first, second, record?]
  have early : ∀ k, (start m none).KeepsCell 3 k → k = 0 ∨ k = 1 := by
    intro k keeps
    apply Classical.byContradiction
    intro late
    obtain ⟨d, rfl⟩ := Nat.exists_eq_add_of_le' (show 2 ≤ k by omega)
    exact gone d keeps
  have unseen : (start m none).Unseen 3 := by
    constructor
    · intro k keeps _
      rcases early k keeps with rfl | rfl <;> decide
    · intro k t keeps left
      rcases early k keeps with rfl | rfl
      · obtain rfl := Except.ok.inj (Option.some.inj (first.symm.trans left))
        decide
      · obtain rfl := Except.ok.inj (Option.some.inj (second.symm.trans left))
        decide
  have keeps : (start m none).KeepsCell 3 1 := by
    unfold KeepsCell
    decide
  obtain ⟨m', changed, runs⟩ := unseen_cell_has_no_influence wellFormed none inside small unseen
  obtain ⟨-, -, before, -⟩ := runs 1
  obtain ⟨-, -, -, behind⟩ := runs 2
  exact ⟨wellFormed, inside, small, unseen, m', changed, (before keeps).1, (before keeps).2,
    behind (gone 0)⟩

end Execution
end AccMachine

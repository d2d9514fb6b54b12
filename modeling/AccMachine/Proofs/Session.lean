import AccMachine.Proofs.Soundness

/-!
Sessions: any calls in any order on one memory and on the execution that holds it. Whatever the
calls, the memory keeps its limits and is well-formed, and so is the machine of an execution.
-/
namespace AccMachine

inductive Session where
  | empty
  | idle (memory : Memory)
  | driven (e : Execution)

/-- The calls of a session. Cells may be drawn from any state that is handed on, and records may be
shown to anyone. -/
inductive Call : Type 1 where
  | zeroed
  | fill {σ : Type} (draw : Address → σ → Word × σ) (s : σ)
  | write (a : Address) (v : Word)
  | setCell (a v : Int64)
  | load (source : String)
  | start (limit : Option UInt64)
  | step
  | run
  | execute (limit : Option UInt64)
  | executeWith {σ : Type} (visit : σ → Trace → σ) (s : σ) (limit : Option UInt64)

namespace Session

def memory? : Session → Option Memory
  | .empty => none
  | .idle m => some m
  | .driven e => some e.machine.memory

def onMemory (s : Session) (f : Memory → Session) : Session :=
  match s.memory? with
  | none => s
  | some m => f m

def onExecution (s : Session) (f : Execution → Execution) : Session :=
  match s with
  | .driven e => .driven (f e)
  | s => s

def keeping (m : Memory) : Except Fault Memory → Session
  | .ok m' => .idle m'
  | .error _ => .idle m

def call (b : Bounds) (s : Session) : Call → Session
  | .zeroed => .idle (.zeroed b)
  | .fill draw t => .idle (Memory.fill b draw t).1
  | .write a v => s.onMemory fun m => keeping m (m.write a v)
  | .setCell a v => s.onMemory fun m => keeping m (m.setCell a v)
  | .load source => s.onMemory fun m => .idle (Assembly.load m source).1
  | .start limit => s.onMemory fun m => .driven (.start m limit)
  | .step => s.onExecution Execution.after
  | .run => s.onExecution Execution.run
  | .execute limit => s.onMemory fun m => .idle (AccMachine.execute m limit).machine.memory
  | .executeWith visit t limit => s.onMemory fun m =>
    .idle (AccMachine.executeWith visit t m limit).2.machine.memory

def after (b : Bounds) (calls : List Call) : Session := calls.foldl (call b) .empty

def Sound (b : Bounds) : Session → Prop
  | .empty => True
  | .idle m => m.bounds = b ∧ m.WellFormed
  | .driven e => e.machine.Sound b

variable {b : Bounds} {s : Session}

theorem memory_sound (h : s.Sound b) {m : Memory} (held : s.memory? = some m) :
    m.bounds = b ∧ m.WellFormed := by
  cases s with
  | empty => cases held
  | idle m' =>
    obtain rfl := Option.some.inj held
    exact h
  | driven e =>
    obtain rfl := Option.some.inj held
    exact ⟨h.bounds_eq, h.wellFormed⟩

theorem onMemory_sound (h : s.Sound b) {f : Memory → Session}
    (keeps : ∀ m : Memory, m.bounds = b → m.WellFormed → (f m).Sound b) :
    (s.onMemory f).Sound b := by
  unfold onMemory
  split
  · exact h
  · rename_i m held
    obtain ⟨same, wellFormed⟩ := memory_sound h held
    exact keeps m same wellFormed

theorem onExecution_sound (h : s.Sound b) {f : Execution → Execution}
    (keeps : ∀ e : Execution, e.machine.Sound b → (f e).machine.Sound b) :
    (s.onExecution f).Sound b := by
  cases s with
  | driven e => exact keeps e h
  | empty | idle => exact h

theorem keeping_sound {m : Memory} (same : m.bounds = b) (h : m.WellFormed)
    {written : Except Fault Memory}
    (accepted : ∀ m', written = .ok m' → m'.bounds = m.bounds ∧ m'.WellFormed) :
    (keeping m written).Sound b := by
  cases written with
  | error f => exact ⟨same, h⟩
  | ok m' =>
    obtain ⟨kept, wellFormed⟩ := accepted m' rfl
    exact ⟨kept.trans same, wellFormed⟩

theorem execute_sound {m : Memory} (same : m.bounds = b) (h : m.WellFormed)
    (limit : Option UInt64) : (AccMachine.execute m limit).machine.Sound b := by
  subst same
  exact Execution.run_sound (Execution.start_sound h limit)

theorem call_sound (h : s.Sound b) (c : Call) : (s.call b c).Sound b := by
  cases c with
  | zeroed => exact ⟨rfl, Memory.zeroed_wellFormed b⟩
  | fill draw t => exact ⟨rfl, Memory.fill_wellFormed b draw t⟩
  | write a v =>
    exact onMemory_sound h fun m same wellFormed =>
      keeping_sound same wellFormed fun _ => Memory.write_wellFormed wellFormed
  | setCell a v =>
    exact onMemory_sound h fun m same wellFormed =>
      keeping_sound same wellFormed fun _ => Memory.setCell_wellFormed wellFormed
  | load source =>
    apply onMemory_sound h
    intro m same wellFormed
    obtain ⟨kept, loaded⟩ := Assembly.loadLines_wellFormed wellFormed 0 (Text.lines source.toList)
    exact ⟨kept.trans same, loaded⟩
  | start limit =>
    apply onMemory_sound h
    rintro m rfl wellFormed
    exact Execution.start_sound wellFormed limit
  | step => exact onExecution_sound h fun _ => Execution.after_sound
  | run => exact onExecution_sound h fun _ => Execution.run_sound
  | execute limit =>
    apply onMemory_sound h
    intro m same wellFormed
    have sound := execute_sound same wellFormed limit
    exact ⟨sound.bounds_eq, sound.wellFormed⟩
  | executeWith visit t limit =>
    apply onMemory_sound h
    intro m same wellFormed
    have sound := execute_sound same wellFormed limit
    rw [← executeWith_snd visit t] at sound
    exact ⟨sound.bounds_eq, sound.wellFormed⟩

/-- The limits hold after any calls in any order, whether they succeed or fail. -/
theorem limits_hold_after_calls (b : Bounds) (calls : List Call) : (after b calls).Sound b := by
  have runs : ∀ (calls : List Call) (s : Session), s.Sound b →
      (calls.foldl (call b) s).Sound b := by
    intro calls
    induction calls with
    | nil => intro s h; exact h
    | cons c calls ih => intro s h; exact ih _ (call_sound h c)
  exact runs calls .empty trivial

end Session
end AccMachine

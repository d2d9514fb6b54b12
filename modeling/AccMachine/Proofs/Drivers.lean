import AccMachine.Proofs.Log
import AccMachine.Proofs.Recurrence

/-!
The ways to drive an execution: by single steps, by loops over its answers that end with the first
fault, and by any mixture. They all come to one end, and at the end nothing moves any more.
-/
namespace AccMachine

def Status.ended : Option Fault → Status
  | none => .halted
  | some f => .failed f

namespace Execution

variable {σ : Type}

/-- What a loop over the answers of an execution comes to: the records that it was given, the fault
that broke it off, and the execution it leaves. -/
inductive Drained : Execution → List Trace → Option Fault → Execution → Prop where
  | done {e : Execution} (silent : e.step.2 = none) : Drained e [] none e.after
  | fault {e : Execution} {f : Fault} (failed : e.step.2 = some (.error f)) :
      Drained e [] (some f) e.after
  | record {e last : Execution} {t : Trace} {ts : List Trace} {fault? : Option Fault}
      (left : e.step.2 = some (.ok t)) (rest : Drained e.after ts fault? last) :
      Drained e (t :: ts) fault? last

/-- The result of a loop that asks for the state behind it. -/
def reread (last : Execution) : Option Fault → Except Fault Outcome
  | some f => .error f
  | none => match last.status with
    | .failed f => .error f
    | _ => .ok last.outcome

/-- The result of a loop that takes its own end for a halt. -/
def presumed (last : Execution) : Option Fault → Except Fault Outcome
  | some f => .error f
  | none => .ok last.outcome

inductive Drive where
  | step | next | run
  deriving DecidableEq, Repr

inductive Reply where
  | item (answer : Option (Except Fault Trace))
  | result (r : Option (Except Fault Outcome))

def ask (e : Execution) : Drive → Execution × Reply
  | .step | .next => (e.after, .item e.step.2)
  | .run => (e.run, .result e.run.result?)

def asked (e : Execution) : List Drive → Execution × List Reply
  | [] => (e, [])
  | d :: ds => (((e.ask d).1.asked ds).1, (e.ask d).2 :: ((e.ask d).1.asked ds).2)

def stepsBeforeRun : List Drive → Nat
  | [] | .run :: _ => 0
  | .step :: ds | .next :: ds => stepsBeforeRun ds + 1

def standing (e : Execution) : Drive → Reply
  | .step | .next => .item none
  | .run => .result e.result?

theorem Move.status_eq {e : Execution} (running : e.status = .running)
    {r : Execution × Option (Except Fault Trace)} (move : e.Move r) :
    r.1.status = match r.2 with
      | none => .halted
      | some (.ok _) => .running
      | some (.error f) => .failed f := by
  cases move with
  | outside | cut | illegal | halt => rfl
  | act => exact running

theorem answers_cons (n : Nat) (e : Execution) :
    e.answers (n + 1) = e.step.2 :: e.after.answers n := rfl

theorem records_cons (n : Nat) (e : Execution) :
    e.records (n + 1) = (record? e.step.2).toList ++ e.after.records n := by
  rw [records, answers_cons, List.filterMap_cons, records]
  cases record? e.step.2 <;> rfl

theorem run_of_stopped {e : Execution} (h : e.stopped = true) : e.run = e := by
  rw [run_eq_last, later_of_stopped h]

theorem iterate_stepWith (visit : σ → Trace → σ) (n : Nat) (s : σ) (e : Execution) :
    (stepWith visit)^[n] (s, e) = ((e.records n).foldl visit s, e.later n) := by
  induction n generalizing s e with
  | zero => rfl
  | succ n ih =>
    have stepped : stepWith visit (s, e) =
        ((record? e.step.2).toList.foldl visit s, e.after) := by
      rw [stepWith, after]
      rcases e.step with ⟨e', _ | (f | t)⟩ <;> rfl
    rw [Function.iterate_succ_apply, stepped, ih, records_cons, List.foldl_append]
    rfl

theorem records_of_stopped {e : Execution} (h : e.stopped = true) (n : Nat) :
    e.records n = [] := by
  rw [records, answers_of_stopped h]
  exact List.filterMap_replicate_of_none rfl

theorem runWith_eq_foldl (visit : σ → Trace → σ) (s : σ) (e : Execution) :
    e.runWith visit s = ((e.records (2 ^ e.stateBits - 1)).foldl visit s, e.run) := by
  rw [runWith_eq_iterate, iterate_stepWith, run_eq_last]

namespace Drained

variable {e last : Execution} {b : Bounds} {ts : List Trace} {fault? : Option Fault}

theorem unique (drained : Drained e ts fault? last) {us : List Trace} {g? : Option Fault}
    {last' : Execution} (other : Drained e us g? last') :
    us = ts ∧ g? = fault? ∧ last' = last := by
  induction drained generalizing us with
  | done silent =>
    cases other with
    | done => exact ⟨rfl, rfl, rfl⟩
    | fault failed => simp [silent] at failed
    | record left => simp [silent] at left
  | fault failed =>
    cases other with
    | done silent => simp [failed] at silent
    | fault failed' => simp_all
    | record left => simp [failed] at left
  | record left _ ih =>
    cases other with
    | done silent => simp [left] at silent
    | fault failed => simp [left] at failed
    | record left' rest' =>
      obtain ⟨rfl, rfl, rfl⟩ := ih rest'
      simp_all

theorem of_stopped (h : e.stopped = true) : Drained e [] none e := by
  have silent : e.step.2 = none := by rw [step_of_stopped h]
  simpa [after_of_stopped e h] using Drained.done silent

theorem behind (ended : e.after.stopped = true) (j : Nat) :
    Drained (e.later (j + 1)) [] none e.after := by
  have stays : e.later (j + 1) = e.after := later_of_stopped ended j
  rw [stays]
  exact of_stopped ended

theorem exists_of_ends (ended : Ends e) : ∃ ts fault? last, Drained e ts fault? last := by
  obtain ⟨n, ended⟩ := ended
  induction n generalizing e with
  | zero => exact ⟨_, _, _, of_stopped ended⟩
  | succ n ih =>
    obtain ⟨ts, fault?, last, rest⟩ := ih (e := e.after) ended
    match answered : e.step.2 with
    | none => exact ⟨_, _, _, .done answered⟩
    | some (.error f) => exact ⟨_, _, _, .fault answered⟩
    | some (.ok t) => exact ⟨_, _, _, .record answered rest⟩

theorem eq_later (drained : Drained e ts fault? last) : last = e.later (ts.length + 1) := by
  induction drained with
  | done | fault => rfl
  | record _ _ ih => exact ih

theorem after_stopped (sound : e.machine.Sound b) (silent : ∀ t, e.step.2 ≠ some (.ok t)) :
    e.after.stopped = true := by
  cases going : e.after.stopped with
  | true => rfl
  | false =>
    obtain ⟨-, t, left⟩ := act_of_running sound going
    exact absurd left (silent t)

theorem stopped (sound : e.machine.Sound b) (drained : Drained e ts fault? last) :
    last.stopped = true := by
  induction drained with
  | done silent => exact after_stopped sound (by simp [silent])
  | fault failed => exact after_stopped sound (by simp [failed])
  | record _ _ ih => exact ih (after_sound sound)

theorem status_eq (sound : e.machine.Sound b) (running : e.status = .running)
    (drained : Drained e ts fault? last) : last.status = .ended fault? := by
  induction drained with
  | done silent =>
    have ends := (Move.of_sound sound running).status_eq running
    rwa [silent] at ends
  | fault failed =>
    have ends := (Move.of_sound sound running).status_eq running
    rwa [failed] at ends
  | record left _ ih =>
    have goes := (Move.of_sound sound running).status_eq running
    rw [left] at goes
    exact ih (after_sound sound) goes

theorem going (sound : e.machine.Sound b) (running : e.status = .running)
    (drained : Drained e ts fault? last) : (e.later ts.length).stopped = false := by
  induction drained with
  | done | fault => exact not_stopped_iff.mpr running
  | record left _ ih =>
    have goes := (Move.of_sound sound running).status_eq running
    rw [left] at goes
    exact ih (after_sound sound) goes

theorem answers_eq (sound : e.machine.Sound b) (drained : Drained e ts fault? last) (n : Nat) :
    e.answers (ts.length + fault?.toList.length + n) =
      (ts.map fun t => some (.ok t)) ++ (fault?.toList.map fun f => some (.error f)) ++
        List.replicate n none := by
  induction drained with
  | @done e silent =>
    have ended := after_stopped sound (by simp [silent])
    cases n with
    | zero => rfl
    | succ n =>
      change e.answers (0 + 0 + (n + 1)) = _
      rw [Nat.zero_add, answers_cons, silent, answers_of_stopped ended]
      rfl
  | @fault e f failed =>
    have ended := after_stopped sound (by simp [failed])
    change e.answers (0 + 1 + n) = _
    rw [Nat.zero_add, Nat.add_comm, answers_cons, failed, answers_of_stopped ended]
    rfl
  | @record e last t ts fault? left _ ih =>
    rw [List.length_cons, show ts.length + 1 + fault?.toList.length + n =
      ts.length + fault?.toList.length + n + 1 by omega, answers_cons, left, ih (after_sound sound)]
    rfl

theorem records_eq (sound : e.machine.Sound b) (drained : Drained e ts fault? last) (n : Nat) :
    e.records (ts.length + fault?.toList.length + n) = ts := by
  rw [records, drained.answers_eq sound]
  cases fault? <;> simp [List.filterMap_map, Function.comp_def, record?]

theorem all_records (sound : e.machine.Sound b) (drained : Drained e ts fault? last) :
    e.records (ts.length + 1) = ts := by
  cases fault? with
  | none => exact drained.records_eq sound 1
  | some f => exact drained.records_eq sound 0

theorem drop (sound : e.machine.Sound b) (drained : Drained e ts fault? last) (j : Nat) :
    Drained (e.later j) (ts.drop j) (if j ≤ ts.length then fault? else none) last := by
  induction drained generalizing j with
  | @done e silent =>
    cases j with
    | zero => exact .done silent
    | succ j => exact behind (after_stopped sound (by simp [silent])) j
  | @fault e f failed =>
    cases j with
    | zero => exact .fault failed
    | succ j => exact behind (after_stopped sound (by simp [failed])) j
  | @record e last t ts fault? left rest ih =>
    cases j with
    | zero => exact .record left rest
    | succ j =>
      simp only [List.length_cons, Nat.add_le_add_iff_right]
      exact ih (after_sound sound) j

end Drained

theorem records_of_silent {e : Execution} {b : Bounds} (sound : e.machine.Sound b)
    (silent : ∀ t, e.step.2 ≠ some (.ok t)) (n : Nat) : e.records n = [] := by
  cases n with
  | zero => rfl
  | succ n =>
    have ended := Drained.after_stopped sound silent
    rw [records_cons, records_of_stopped ended, List.append_nil]
    match answered : e.step.2 with
    | none | some (.error f) => rfl
    | some (.ok t) => exact absurd answered (silent t)

theorem records_cases {e : Execution} {b : Bounds} (sound : e.machine.Sound b) (n : Nat) :
    (∃ t, e.step.2 = some (.ok t) ∧ e.records (n + 1) = t :: e.after.records n) ∨
      e.records (n + 1) = [] := by
  by_cases acts : ∃ t, e.step.2 = some (.ok t)
  · obtain ⟨t, left⟩ := acts
    refine .inl ⟨t, left, ?_⟩
    rw [records_cons, left]
    rfl
  · exact .inr (records_of_silent sound (not_exists.mp acts) (n + 1))

theorem forall_mem_records {e : Execution} {b : Bounds} (sound : e.machine.Sound b)
    {P : Trace → Prop}
    (left : ∀ e : Execution, e.machine.Sound b → ∀ t, e.step.2 = some (.ok t) → P t) (n : Nat) :
    ∀ t ∈ e.records n, P t := by
  induction n generalizing e with
  | zero => nofun
  | succ n ih =>
    rcases records_cases sound n with ⟨t, first, records⟩ | empty
    · rw [records]
      exact List.forall_mem_cons.mpr ⟨left e sound t first, ih (after_sound sound)⟩
    · rw [empty]
      nofun

theorem asked_of_stopped {e : Execution} (h : e.stopped = true) (ds : List Drive) :
    e.asked ds = (e, ds.map e.standing) := by
  induction ds with
  | nil => rfl
  | cons d ds ih =>
    have still : e.ask d = (e, e.standing d) := by
      cases d with
      | step | next => simp only [ask, standing, after_of_stopped e h, step_of_stopped h]
      | run => simp only [ask, standing, run_of_stopped h]
    simp only [asked, still, ih, List.map_cons]

theorem asked_of_runs {e last : Execution} (ended : last.stopped = true)
    (runs : ∀ j, (e.later j).run = last) (ds : List Drive) :
    e.asked ds = (if .run ∈ ds then last else e.later ds.length,
      (e.answers (stepsBeforeRun ds)).map .item ++
        (ds.drop (stepsBeforeRun ds)).map last.standing) := by
  induction ds generalizing e with
  | nil => rfl
  | cons d ds ih =>
    have rest := ih (e := e.after) fun j => runs (j + 1)
    cases d with
    | step | next =>
      simp only [asked, ask, rest, List.mem_cons, reduceCtorEq, false_or]
      rfl
    | run =>
      have at_once : e.run = last := runs 0
      simp only [asked, ask, at_once, asked_of_stopped ended, List.mem_cons, true_or, if_true]
      rfl

/-- What a run over the memory `m` hands out and returns, however it is driven: the records `ts`,
then a fault if there is one, and the result `r`. -/
structure Agreed (m : Memory) (limit : Option UInt64) (ts : List Trace) (fault? : Option Fault)
    (r : Except Fault Outcome) : Prop where
  steps : ∀ n, (start m limit).answers (ts.length + fault?.toList.length + n) =
    (ts.map fun t => some (.ok t)) ++ (fault?.toList.map fun f => some (.error f)) ++
      List.replicate n none
  stopped : (execute m limit).stopped = true
  result : (execute m limit).result? = some r
  runs : ∀ j, ((start m limit).later j).run = execute m limit
  visits : ∀ (σ : Type) (visit : σ → Trace → σ) (s : σ),
    executeWith visit s m limit = (ts.foldl visit s, execute m limit)
  loops : ∀ (j : Nat) (us : List Trace) (g? : Option Fault) (last : Execution),
    Drained ((start m limit).later j) us g? last ↔
      us = ts.drop j ∧ g? = (if j ≤ ts.length then fault? else none) ∧ last = execute m limit
  rereads : ∀ j, reread (execute m limit) (if j ≤ ts.length then fault? else none) = r
  presumes : presumed (execute m limit) fault? = r
  calls : ∀ ds : List Drive, (start m limit).asked ds =
    (if .run ∈ ds then execute m limit else (start m limit).later ds.length,
      ((start m limit).answers (stepsBeforeRun ds)).map .item ++
        (ds.drop (stepsBeforeRun ds)).map (execute m limit).standing)
  frozen : ∀ ds : List Drive, ((start m limit).asked ds).1.stopped = true →
    ((start m limit).asked ds).1 = execute m limit ∧
      ∀ ds', (execute m limit).asked ds' = (execute m limit, ds'.map (execute m limit).standing)

theorem later_run {m : Memory} {limit : Option UInt64} (h : m.WellFormed)
    (ended : (execute m limit).stopped = true) (j : Nat) :
    ((start m limit).later j).run = execute m limit := by
  have bits : ((start m limit).later j).stateBits = (start m limit).stateBits := by
    rw [stateBits, stateBits, Memory.size, Memory.size,
      (later_sound (start_sound h limit) j).size_eq, (start_sound h limit).size_eq]
  have last : execute m limit = (start m limit).later (2 ^ (start m limit).stateBits - 1) :=
    run_eq_last _
  rw [last] at ended
  rw [run_eq_last, bits, ← later_add, later_eq_of_stopped ended (Nat.le_add_left _ _), last]

/-- All ways to drive a run that ends agree, from any point of it and in any order. -/
theorem drivers_agree {m : Memory} (h : m.WellFormed) {limit : Option UInt64}
    (ends : Ends (start m limit)) : ∃ ts fault? r, Agreed m limit ts fault? r := by
  have sound := start_sound h limit
  have stopped := execute_stopped h ends
  have runs := later_run h stopped
  obtain ⟨ts, fault?, last, drained⟩ := Drained.exists_of_ends ends
  have same : last = execute m limit := by
    have ended := drained.stopped sound
    rw [drained.eq_later] at ended ⊢
    rw [← runs (ts.length + 1), run_of_stopped ended]
  subst same
  have status := drained.status_eq sound rfl
  refine ⟨ts, fault?, presumed (execute m limit) fault?, drained.answers_eq sound, stopped, ?_,
    runs, ?_, ?_, ?_, rfl, asked_of_runs stopped runs, ?_⟩
  · cases fault? <;> simp [result?, status, Status.ended, presumed]
  · intro σ visit s
    have end_of_run : ((start m limit).later (2 ^ (start m limit).stateBits - 1)).stopped = true := by
      rw [← run_eq_last]
      exact stopped
    have late := lt_of_stops_later (drained.going sound rfl) end_of_run
    have room : ts.length + fault?.toList.length ≤ 2 ^ (start m limit).stateBits - 1 := by
      cases fault? <;> simp <;> omega
    obtain ⟨n, all⟩ := Nat.exists_eq_add_of_le room
    rw [executeWith, runWith_eq_foldl, all, drained.records_eq sound]
    rfl
  · intro j us g? last
    have given := drained.drop sound j
    constructor
    · exact given.unique
    · rintro ⟨rfl, rfl, rfl⟩
      exact given
  · intro j
    cases fault? with
    | none => simp [reread, status, Status.ended, presumed]
    | some f => by_cases early : j ≤ ts.length <;> simp [reread, status, Status.ended, presumed, early]
  · intro ds ended
    refine ⟨?_, asked_of_stopped stopped⟩
    rw [asked_of_runs stopped runs] at ended ⊢
    split at ended
    · rename_i asks
      rw [if_pos asks]
    · rename_i steps
      rw [if_neg steps, ← runs ds.length, run_of_stopped ended]

theorem drivers_agree_at_fault :
    let m : Memory := ⟨⟨2, 99⟩, #[0, 25]⟩
    let unnamed : Fault := .illegalInstruction (.unknown 12) 1 1
    m.WellFormed ∧ Ends (start m none) ∧
      Agreed m none [⟨0, 1, .noop⟩] (some unnamed) (.error unnamed) := by
  intro m unnamed
  have wellFormed : m.WellFormed := ⟨rfl, by simp [m]⟩
  have ends : Ends (start m none) := ⟨2, by decide⟩
  obtain ⟨ts, fault?, r, agreed⟩ := drivers_agree wellFormed ends
  have left : (start m none).step.2 = some (.ok ⟨0, 1, .noop⟩) := by decide
  have failed : (start m none).after.step.2 = some (.error unnamed) := by decide
  obtain ⟨records, broken, -⟩ := (agreed.loops 0 _ _ _).mp (.record left (.fault failed))
  rw [if_pos (Nat.zero_le _)] at broken
  obtain rfl : [⟨0, 1, .noop⟩] = ts := records
  subst broken
  obtain rfl : .error unnamed = r := agreed.presumes
  exact ⟨wellFormed, ends, agreed⟩

end Execution
end AccMachine

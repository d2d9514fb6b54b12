import AccMachine.Proofs.Log
import AccMachine.Proofs.Transcript

/-!
What the program answers to its options, said by the memory that they come to and the run of that
memory.
-/
namespace AccMachine.CommandLine

open Execution

inductive Sets : Memory → List (Int64 × Int64) → Memory → Prop where
  | done (m : Memory) : Sets m [] m
  | one {m m' last : Memory} {a v : Int64} {cells : List (Int64 × Int64)}
      (taken : m.setCell a v = .ok m') (rest : Sets m' cells last) : Sets m ((a, v) :: cells) last

section

variable (read : String → Except ReadError String) (o : Options)

inductive Loads : Memory → Prop where
  | fresh (unnamed : o.program = none) : Loads (.zeroed o.bounds)
  | file {path source : String} {m : Memory} {n : Nat} (named : o.program = some path)
      (text : read path = .ok source)
      (loaded : Assembly.load (.zeroed o.bounds) source = (m, .ok n)) : Loads m

inductive LoadFails : (path : String) → LoadError → Prop where
  | unreadable {path : String} {e : ReadError} (named : o.program = some path)
      (failed : read path = .error e) : LoadFails path (.unreadable path e)
  | refused {path source : String} {e : LoadError} (named : o.program = some path)
      (text : read path = .ok source)
      (failed : (Assembly.load (.zeroed o.bounds) source).2 = .error e) : LoadFails path e

/-- What the options come to before anything is put out: a memory, or the report of the first
failure. -/
inductive Prepares : Except Report Memory → Prop where
  | ready {m m' : Memory} (loads : Loads read o m) (sets : Sets m o.cells m') : Prepares (.ok m')
  | unloaded {path : String} {e : LoadError} (fails : LoadFails read o path e) :
      Prepares (.error (.failure "" s!"loading {path}" (e.message :: e.source?.toList)))
  | refused {m m' : Memory} {before after : List (Int64 × Int64)} {a v : Int64} {f : Fault}
      (loads : Loads read o m) (parts : o.cells = before ++ (a, v) :: after)
      (sets : Sets m before m') (failed : m'.setCell a v = .error f) :
      Prepares (.error (.failure "" s!"setting cell {a.toInt}" [f.message]))

/-- The options bring about a run of the memory `m`: it leaves the records `ts` and ends in the
state `last`, with a fault or without. -/
structure Runs (m : Memory) (ts : List Trace) (fault? : Option Fault) (last : Execution) :
    Prop where
  prepared : Prepares read o (.ok m)
  wanted : o.noRun = false
  given : o.program ≠ none ∨ o.cells ≠ []
  drained : Drained (start m o.maxOperations) ts fault? last

end

theorem setCells_eq_ok_iff {m last : Memory} {cells : List (Int64 × Int64)} :
    setCells m cells = .ok last ↔ Sets m cells last := by
  constructor
  · intro set
    induction cells generalizing m with
    | nil =>
      obtain rfl := Except.ok.inj set
      exact .done m
    | cons cell cells ih =>
      obtain ⟨a, v⟩ := cell
      rw [setCells] at set
      split at set
      · cases set
      · rename_i m' taken
        exact .one taken (ih set)
  · intro sets
    induction sets with
    | done => rfl
    | one taken _ ih => rw [setCells, taken]; exact ih

theorem setCells_eq_error_iff {m : Memory} {cells : List (Int64 × Int64)} {a : Int64} {f : Fault} :
    setCells m cells = .error (a, f) ↔ ∃ before v after m', cells = before ++ (a, v) :: after ∧
      Sets m before m' ∧ m'.setCell a v = .error f := by
  constructor
  · intro failed
    induction cells generalizing m with
    | nil => cases failed
    | cons cell cells ih =>
      obtain ⟨a', v⟩ := cell
      rw [setCells] at failed
      split at failed
      · rename_i f' refused
        obtain ⟨rfl, rfl⟩ := Prod.mk.inj (Except.error.inj failed)
        exact ⟨[], v, cells, m, rfl, .done m, refused⟩
      · rename_i m' taken
        obtain ⟨before, v', after, last, rfl, sets, refused⟩ := ih failed
        exact ⟨(a', v) :: before, v', after, last, rfl, .one taken sets, refused⟩
  · rintro ⟨before, v, after, m', rfl, sets, refused⟩
    induction sets with
    | done => rw [List.nil_append, setCells, refused]
    | one taken _ ih => rw [List.cons_append, setCells, taken]; exact ih refused

theorem Sets.wellFormed {m last : Memory} {cells : List (Int64 × Int64)} (sets : Sets m cells last)
    (h : m.WellFormed) : last.WellFormed := by
  induction sets with
  | done => exact h
  | one taken _ ih => exact ih (Memory.setCell_wellFormed h taken).2

section

variable {read : String → Except ReadError String} {o : Options}

theorem Loads.loadProgram_eq {m : Memory} (loads : Loads read o m) :
    loadProgram read o = .ok m := by
  cases loads with
  | fresh unnamed => rw [loadProgram, unnamed]
  | file named text loaded => simp only [loadProgram, named, Assembly.loadFile, text, loaded]

theorem LoadFails.loadProgram_eq {path : String} {e : LoadError} (fails : LoadFails read o path e) :
    loadProgram read o =
      .error (.failure "" s!"loading {path}" (e.message :: e.source?.toList)) := by
  cases fails with
  | unreadable named failed => simp only [loadProgram, named, Assembly.loadFile, failed]
  | refused named text failed =>
    rename_i source
    have loaded : Assembly.load (.zeroed o.bounds) source =
        ((Assembly.load (.zeroed o.bounds) source).1, .error e) := Prod.ext rfl failed
    simp only [loadProgram, named, Assembly.loadFile, text]
    rw [loaded]

theorem Loads.wellFormed {m : Memory} (loads : Loads read o m) : m.WellFormed := by
  cases loads with
  | fresh => exact Memory.zeroed_wellFormed _
  | file named text loaded =>
    rename_i source _
    have kept := (Assembly.loadLines_wellFormed (Memory.zeroed_wellFormed o.bounds) 0
      (Text.lines source.toList)).2
    rwa [← Assembly.load, loaded] at kept

theorem Prepares.prepare_eq {r : Except Report Memory} (prepares : Prepares read o r) :
    prepare read o = r := by
  cases prepares with
  | ready loads sets => simp only [prepare, loads.loadProgram_eq, setCells_eq_ok_iff.mpr sets]
  | unloaded fails => simp only [prepare, fails.loadProgram_eq]
  | refused loads parts sets failed =>
    have set := setCells_eq_error_iff.mpr ⟨_, _, _, _, parts, sets, failed⟩
    simp only [prepare, loads.loadProgram_eq, set]

theorem Prepares.unique {r r' : Except Report Memory} (prepares : Prepares read o r)
    (prepares' : Prepares read o r') : r = r' :=
  prepares.prepare_eq.symm.trans prepares'.prepare_eq

theorem Prepares.wellFormed {m : Memory} (prepares : Prepares read o (.ok m)) : m.WellFormed := by
  cases prepares with
  | ready loads sets => exact sets.wellFormed loads.wellFormed

def preface (o : Options) (m : Memory) : String := if o.list then listing m else ""

def shownRecords (o : Options) (ts : List Trace) : String := if o.quiet then "" else transcript ts

def ofRun (out : String) (operations : Nat) : Option Fault → Report
  | none => { exit := 0, out := out ++ terminated operations ++ "\n" }
  | some f => .failure out "execution failed" [f.message]

theorem executeWith_of_drained {m : Memory} (h : m.WellFormed) {limit : Option UInt64}
    {ts : List Trace} {fault? : Option Fault} {last : Execution}
    (drained : Drained (start m limit) ts fault? last) {σ : Type} (visit : σ → Trace → σ) (s : σ) :
    executeWith visit s m limit = (ts.foldl visit s, last) := by
  have sound := start_sound h limit
  have ended := drained.stopped sound
  rw [drained.eq_later] at ended
  have stopped := execute_stopped h ⟨_, ended⟩
  have same : last = execute m limit := by
    rw [drained.eq_later, ← later_run h stopped (ts.length + 1), run_of_stopped ended]
  have late : ts.length + fault?.toList.length ≤ 2 ^ (start m limit).stateBits - 1 := by
    rw [execute, run_eq_last] at stopped
    have more := lt_of_stops_later (drained.going sound rfl) stopped
    cases fault? <;> simp <;> omega
  obtain ⟨n, all⟩ := Nat.exists_eq_add_of_le late
  rw [executeWith, runWith_eq_foldl, all, drained.records_eq sound, same]
  rfl

theorem runMemory_of_drained {m : Memory} (h : m.WellFormed) {ts : List Trace}
    {fault? : Option Fault} {last : Execution}
    (drained : Drained (start m o.maxOperations) ts fault? last) (out : String) :
    runMemory o out m =
      some (ofRun (out ++ shownRecords o ts) last.operations.toNat fault?) := by
  have status := drained.status_eq (start_sound h _) rfl
  rw [runMemory, executeWith_of_drained h drained, foldl_showTrace, ← shownRecords]
  cases fault? with
  | none =>
    simp only [result?, status, Status.ended, outcome, ofRun]
    rw [terminated_feed, ← String.append_assoc]
  | some f => simp only [result?, status, Status.ended, ofRun]

theorem perform_of_prepared (plain : o.benchmark = false) {m : Memory}
    (prepared : Prepares read o (.ok m)) : perform read o =
      if o.noRun then some { exit := 0, out := preface o m }
      else if o.program = none ∧ o.cells = [] then some (.failure (preface o m) nothingToRun [])
      else runMemory o (preface o m) m := by
  simp only [perform, plain, prepared.prepare_eq, Bool.false_eq_true, if_false, preface,
    Option.isNone_iff_eq_none]

theorem Runs.perform_eq (plain : o.benchmark = false) {m : Memory} {ts : List Trace}
    {fault? : Option Fault} {last : Execution} (runs : Runs read o m ts fault? last) :
    perform read o =
      some (ofRun (preface o m ++ shownRecords o ts) last.operations.toNat fault?) := by
  rw [perform_of_prepared plain runs.prepared, runs.wanted, if_neg Bool.false_ne_true,
    if_neg (not_and_or.mpr runs.given), runMemory_of_drained runs.prepared.wellFormed runs.drained]

end
end AccMachine.CommandLine

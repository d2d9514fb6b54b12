import AccMachine.Proofs.Reports

/-!
What the answers show. The output falls into the listing, the lines of the records and the last
line of a halt, and the switches for the first two put their parts in or leave them out.
-/
namespace AccMachine.CommandLine

open Execution

variable {read : String → Except ReadError String} {o : Options}

structure Answers (o : Options) (m : Memory) (ts : List Trace) (fault? : Option Fault)
    (last : Execution) (r : Report) : Prop where
  lines : Text.lines r.out.toList = (if o.list then Text.lines (listing m).toList else []) ++
    (if o.quiet then [] else recordLines ts) ++
      if fault? = none then [(terminated last.operations.toNat).toList] else []
  err_eq : r.err = match fault? with
    | none => ""
    | some f => (Report.failure "" "execution failed" [f.message]).err
  halts : last.status = .halted ↔ r.exit = 0 ∧
    (Text.lines r.out.toList).getLast? = some (terminated last.operations.toNat).toList
  faults : (∃ f, last.status = .failed f) ↔ r.exit = 1 ∧
    ∀ n, (terminated n).toList ∉ Text.lines r.out.toList
  operations_eq : last.status = .halted → last.operations = .ofNat (ts.length + 1)
  operations_toNat : last.status = .halted →
    o.maxOperations.isSome = true ∨ ts.length + 1 < 2 ^ 64 →
    last.operations.toNat = ts.length + 1

def shownLines (o : Options) (m : Memory) (ts : List Trace) : List (List Char) :=
  (if o.list then listedRows m else []) ++ if o.quiet then [] else recordLines ts

theorem toList_preface_shownRecords (o : Options) (m : Memory) (ts : List Trace) :
    (preface o m ++ shownRecords o ts).toList = (shownLines o m ts).flatMap (· ++ ['\n']) := by
  have listed : (preface o m).toList =
      (if o.list then listedRows m else []).flatMap (· ++ ['\n']) := by
    rw [preface]
    split
    · exact toList_listing m
    · rfl
  have recorded : (shownRecords o ts).toList =
      (if o.quiet then [] else recordLines ts).flatMap (· ++ ['\n']) := by
    rw [shownRecords]
    split
    · rfl
    · exact toList_transcript ts
  rw [String.toList_append, listed, recorded, shownLines, List.flatMap_append]

theorem unbroken_shownLines {o : Options} {m : Memory} {ts : List Trace} :
    ∀ line ∈ shownLines o m ts, Text.Unbroken line := by
  intro line member
  rcases List.mem_append.mp member with listed | recorded
  · split at listed
    · exact unbroken_listedRows line listed
    · cases listed
  · split at recorded
    · cases recorded
    · exact unbroken_recordLines line recorded

theorem lines_of_faulted (o : Options) (m : Memory) (ts : List Trace) :
    Text.lines (preface o m ++ shownRecords o ts).toList = shownLines o m ts := by
  rw [toList_preface_shownRecords]
  exact Text.lines_eq_iff.mpr (Text.lines_feeds unbroken_shownLines)

theorem lines_of_halted (o : Options) (m : Memory) (ts : List Trace) (n : Nat) :
    Text.lines (preface o m ++ shownRecords o ts ++ terminated n ++ "\n").toList =
      shownLines o m ts ++ [(terminated n).toList] := by
  have fed : (preface o m ++ shownRecords o ts ++ terminated n ++ "\n").toList =
      (shownLines o m ts ++ [(terminated n).toList]).flatMap (· ++ ['\n']) := by
    rw [String.toList_append, String.toList_append, toList_preface_shownRecords,
      List.flatMap_append, List.flatMap_singleton, List.append_assoc]
    rfl
  rw [fed]
  exact Text.lines_eq_iff.mpr (Text.lines_feeds (List.forall_mem_append.mpr
    ⟨unbroken_shownLines, List.forall_mem_singleton.mpr (unbroken_terminated n)⟩))

section

variable {m : Memory} {ts : List Trace} {fault? : Option Fault} {last : Execution}

theorem Runs.status_eq (runs : Runs read o m ts fault? last) : last.status = .ended fault? :=
  runs.drained.status_eq (start_sound runs.prepared.wellFormed _) rfl

theorem Runs.fetches_eq (runs : Runs read o m ts none last) :
    (start m o.maxOperations).fetches (ts.length + 1) = ts.length + 1 := by
  have sound := start_sound runs.prepared.wellFormed o.maxOperations
  have counted := records_length sound rfl (ts.length + 1)
  have status : last.status = .halted := runs.status_eq
  have recorded := runs.drained.all_records sound
  rw [← runs.drained.eq_later, status, recorded] at counted
  exact counted.symm

theorem Runs.operations_eq (runs : Runs read o m ts none last) :
    last.operations = .ofNat (ts.length + 1) := by
  rw [runs.drained.eq_later, start_operations runs.prepared.wellFormed, runs.fetches_eq]

theorem Runs.operations_toNat (runs : Runs read o m ts none last)
    (room : o.maxOperations.isSome = true ∨ ts.length + 1 < 2 ^ 64) :
    last.operations.toNat = ts.length + 1 := by
  have fit := fetches_fit runs.prepared.wellFormed room
  rw [runs.drained.eq_later, start_operations_toNat runs.prepared.wellFormed fit, runs.fetches_eq]

end

end AccMachine.CommandLine

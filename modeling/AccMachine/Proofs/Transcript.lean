import AccMachine.CommandLine.Report
import AccMachine.Proofs.Drivers
import AccMachine.Proofs.Listed

/-!
What is put out of a run: a line for every record and, behind a halt, a last one. The lines of
listings, records and halts are told apart by their first characters.
-/
namespace AccMachine

namespace Effect

variable (f : Effect)

theorem unbroken_line : Text.Unbroken f.line.toList := by
  unfold line
  cases f with
  | tst cell acc skipped =>
    cases skipped <;>
      simp only [String.toList_append, Text.unbroken_append, Text.unbroken_toString] <;> decide
  | _ =>
    simp only [String.toList_append, Text.unbroken_append, Text.unbroken_toString]
    decide

theorem head_line : ∃ c ∈ [' ', 'N', 'S', 'T'], f.line.toList.head? = some c := by
  unfold line
  cases f with
  | tst cell acc skipped =>
    cases skipped <;> simp only [String.toList_append, List.head?_append] <;>
      exact ⟨_, by decide, rfl⟩
  | _ => simp only [String.toList_append, List.head?_append]; exact ⟨_, by decide, rfl⟩

end Effect

theorem head_listedRow (ramSize : Address) (address : Nat) (value : Word) :
    (listedRow ramSize address value).head? = some '[' := by
  obtain ⟨i, j, k, l, columns⟩ := listingLine_columns ramSize address value
  rw [listedRow, columns, List.dropLast_concat]
  simp only [List.append_assoc, List.cons_append, List.head?_cons]

theorem head_of_listedRows {m : Memory} : ∀ row ∈ listedRows m, row.head? = some '[' := by
  intro row member
  obtain ⟨i, lt, rfl⟩ := List.mem_mapIdx.mp member
  exact head_listedRow _ _ _

namespace CommandLine

def terminated (operations : Nat) : String :=
  s!"Execution terminated successfully after {operations} operations."

theorem toList_terminated (n : Nat) : (terminated n).toList =
    "Execution terminated successfully after ".toList ++ (toString n).toList ++
      " operations.".toList := by
  have parts : terminated n = "Execution terminated successfully after " ++ toString n ++
      " operations." := rfl
  rw [parts, String.toList_append, String.toList_append]

theorem terminated_feed (n : Nat) :
    s!"Execution terminated successfully after {n} operations.\n" = terminated n ++ "\n" := by
  unfold terminated
  simp only [String.append_assoc]
  rfl

theorem unbroken_terminated (n : Nat) : Text.Unbroken (terminated n).toList := by
  rw [toList_terminated]
  simp only [Text.unbroken_append, Text.unbroken_toString]
  decide

theorem head_terminated (n : Nat) : (terminated n).toList.head? = some 'E' := by
  rw [toList_terminated, List.append_assoc, List.head?_append]
  rfl

def recordLines (ts : List Trace) : List (List Char) := ts.map (·.effect.line.toList)

def transcript (ts : List Trace) : String := String.join (ts.map (·.effect.line ++ "\n"))

theorem toList_transcript (ts : List Trace) :
    (transcript ts).toList = (recordLines ts).flatMap (· ++ ['\n']) := by
  rw [transcript, String.toList_join, recordLines, List.flatMap_map, List.flatMap_map]
  simp only [String.toList_append]
  rfl

theorem foldl_showTrace (quiet : Bool) (out : String) (ts : List Trace) :
    ts.foldl (showTrace quiet) out = out ++ if quiet then "" else transcript ts := by
  cases quiet with
  | true =>
    have kept : ∀ out, ts.foldl (showTrace true) out = out := by
      intro out
      induction ts generalizing out with
      | nil => rfl
      | cons t ts ih => exact ih out
    simp [kept]
  | false =>
    apply String.toList_inj.mp
    induction ts generalizing out with
    | nil => simp [transcript]
    | cons t ts ih =>
      have next : (t :: ts).foldl (showTrace false) out =
          ts.foldl (showTrace false) (out ++ t.effect.line ++ "\n") := rfl
      rw [next, ih]
      simp [transcript, String.join_cons]

theorem unbroken_recordLines {ts : List Trace} : ∀ line ∈ recordLines ts, Text.Unbroken line :=
  List.forall_mem_map.mpr fun t _ => t.effect.unbroken_line

end CommandLine
end AccMachine

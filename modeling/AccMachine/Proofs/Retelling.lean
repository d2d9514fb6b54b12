import AccMachine.Proofs.Output

/-!
The lines of records, read back. Their first characters and their numbers give the effects, so that
what is put out of a run gives the machine that the run leaves.
-/
namespace AccMachine

namespace Text

def Plain (cs : List Char) : Prop := ∀ c ∈ cs, c.isDigit = false

instance (cs : List Char) : Decidable (Plain cs) :=
  decidable_of_iff (cs.all (!·.isDigit) = true) (by simp [Plain])

def digitsOnly (cs : List Char) : List Char := cs.map fun c => if c.isDigit then c else ' '

def numbers (cs : List Char) : List Nat :=
  (words (digitsOnly cs)).map (Nat.ofDigitChars 10 · 0)

def spliced (piece : String) : (pieces : List String) → (ns : List Nat) → List Char
  | next :: pieces, n :: ns => piece.toList ++ ((toString n).toList ++ spliced next pieces ns)
  | _, _ => piece.toList

def Separating (piece : String) : List String → Prop
  | [] => Plain piece.toList
  | next :: pieces => Plain piece.toList ∧ (next = "" → pieces = []) ∧ Separating next pieces

instance Separating.decidable : ∀ (piece : String) (pieces : List String),
    Decidable (Separating piece pieces)
  | piece, [] => inferInstanceAs (Decidable (Plain piece.toList))
  | piece, next :: pieces =>
    have := Separating.decidable next pieces
    inferInstanceAs (Decidable (Plain piece.toList ∧ (next = "" → pieces = []) ∧
      Separating next pieces))

theorem digitsOnly_append (cs ds : List Char) :
    digitsOnly (cs ++ ds) = digitsOnly cs ++ digitsOnly ds := List.map_append

theorem blank_digitsOnly {cs : List Char} (plain : Plain cs) : Blank (digitsOnly cs) := by
  intro c member
  obtain ⟨d, there, rfl⟩ := List.mem_map.mp member
  rw [plain d there]
  rfl

theorem digitsOnly_toString (n : Nat) : digitsOnly (toString n).toList = (toString n).toList := by
  have kept : ∀ c ∈ (toString n).toList, (if c.isDigit then c else ' ') = id c :=
    fun c member => if_pos ((digits_toString n).2 c member)
  rw [digitsOnly, List.map_congr_left kept, List.map_id]

theorem numbers_plain_append {cs : List Char} (plain : Plain cs) (ds : List Char) :
    numbers (cs ++ ds) = numbers ds := by
  rw [numbers, digitsOnly_append, words_blank_append (blank_digitsOnly plain), numbers]

theorem numbers_toString_append (n : Nat) {rest : List Char} (parted : Parted (digitsOnly rest)) :
    numbers ((toString n).toList ++ rest) = n :: numbers rest := by
  rw [numbers, digitsOnly_append, digitsOnly_toString, words_solid_append (solid_toString n) parted,
    List.map_cons, ofDigitChars_toString, numbers]

theorem Separating.parted {piece : String} {pieces : List String}
    (separating : Separating piece pieces) (kept : piece = "" → pieces = []) (ns : List Nat) :
    Parted (digitsOnly (spliced piece pieces ns)) := by
  have alone : Plain piece.toList → Parted (digitsOnly piece.toList) := fun plain c head =>
    blank_digitsOnly plain c (List.mem_of_mem_head? head)
  cases pieces with
  | nil => exact alone separating
  | cons next pieces =>
    obtain ⟨plain, -, -⟩ := separating
    cases ns with
    | nil => exact alone plain
    | cons n ns =>
      rw [spliced, digitsOnly_append]
      refine parted_gap (blank_digitsOnly plain) ?_ _
      intro empty
      have nothing : piece = "" := by
        rwa [digitsOnly, List.map_eq_nil_iff, String.toList_eq_nil_iff] at empty
      cases kept nothing

theorem numbers_spliced {piece : String} {pieces : List String}
    (separating : Separating piece pieces) {ns : List Nat} (same : ns.length = pieces.length) :
    numbers (spliced piece pieces ns) = ns := by
  induction pieces generalizing piece ns with
  | nil =>
    obtain rfl := List.length_eq_zero_iff.mp same
    have none := numbers_plain_append separating []
    rwa [List.append_nil] at none
  | cons next pieces ih =>
    obtain ⟨n, ns, rfl⟩ := List.exists_cons_of_length_eq_add_one same
    obtain ⟨plain, kept, rest⟩ := separating
    rw [spliced, numbers_plain_append plain, numbers_toString_append n (rest.parted kept ns),
      ih rest (Nat.succ.inj same)]

end Text

namespace Effect

def figures : Effect → List Nat
  | .noop => []
  | .take cell value => [value.toNat, cell.toNat]
  | .add cell addend acc => [addend.toNat, cell.toNat, acc.toNat]
  | .sub cell subtrahend acc => [subtrahend.toNat, cell.toNat, acc.toNat]
  | .save cell acc => [cell.toNat, acc.toNat]
  | .jmp target => [target.toNat]
  | .tst cell acc false => [0, acc.toNat, cell.toNat]
  | .tst cell _ true => [0, cell.toNat]
  | .inc cell acc => [cell.toNat, acc.toNat]
  | .dec cell acc => [cell.toNat, acc.toNat]
  | .null cell => [cell.toNat, 0]

def wording : Effect → String × List String
  | .noop => ("NOOP", [])
  | .take _ _ => ("TAKE: acc <- ", [" (from cell ", ")"])
  | .add _ _ _ => (" ADD: acc += ", [" (from cell ", "), new value = ", ""])
  | .sub _ _ _ => (" SUB: acc -= ", [" (from cell ", "), new value = ", ""])
  | .save _ _ => ("SAVE: cell ", [" <- ", " (from acc)"])
  | .jmp _ => (" JMP: ip <- ", [""])
  | .tst _ _ false => (" TST: acc != ", [" (value ", ", loaded from cell ", ")"])
  | .tst _ _ true => (" TST: acc == ", [" (loaded from cell ", "), skipping next instruction"])
  | .inc _ _ => (" INC: cell ", [" <- acc <- ", ""])
  | .dec _ _ => (" DEC: cell ", [" <- acc <- ", ""])
  | .null _ => ("NULL: cell ", [" <- acc <- ", ""])

theorem toList_line (f : Effect) :
    f.line.toList = Text.spliced f.wording.1 f.wording.2 f.figures := by
  have plain : ∀ s : String, toString s = s := fun _ => rfl
  have unequal : " TST: acc != 0 (value ".toList =
      " TST: acc != ".toList ++ ((toString 0).toList ++ " (value ".toList) := by decide
  have equal : " TST: acc == 0 (loaded from cell ".toList =
      " TST: acc == ".toList ++ ((toString 0).toList ++ " (loaded from cell ".toList) := by decide
  have cleared : " <- acc <- 0".toList = " <- acc <- ".toList ++ (toString 0).toList := by decide
  unfold line
  cases f with
  | tst cell acc skipped =>
    cases skipped <;>
      simp only [plain, unequal, equal, wording, figures, Text.spliced, String.toList_append,
        List.append_assoc]
  | _ =>
    simp only [plain, cleared, wording, figures, Text.spliced, String.toList_append,
      List.append_assoc, String.toList_empty, List.append_nil]

/-- The effect that a line shows, by its first characters and its numbers. -/
def ofLine? (cs : List Char) : Option Effect :=
  match String.ofList (cs.take 5), Text.numbers cs with
  | "NOOP", [] => some .noop
  | "TAKE:", [value, cell] => some (.take (.ofNat cell) (.ofNat value))
  | " ADD:", [addend, cell, acc] => some (.add (.ofNat cell) (.ofNat addend) (.ofNat acc))
  | " SUB:", [subtrahend, cell, acc] =>
    some (.sub (.ofNat cell) (.ofNat subtrahend) (.ofNat acc))
  | "SAVE:", [cell, acc] => some (.save (.ofNat cell) (.ofNat acc))
  | " JMP:", [target] => some (.jmp (.ofNat target))
  | " TST:", [_, acc, cell] => some (.tst (.ofNat cell) (.ofNat acc) false)
  | " TST:", [_, cell] => some (.tst (.ofNat cell) 0 true)
  | " INC:", [cell, acc] => some (.inc (.ofNat cell) (.ofNat acc))
  | " DEC:", [cell, acc] => some (.dec (.ofNat cell) (.ofNat acc))
  | "NULL:", [cell, _] => some (.null (.ofNat cell))
  | _, _ => none

/-- A skipped test shows no accumulator. It tells it all the same if tests skip exactly for zero. -/
def Telling : Effect → Prop
  | .tst _ acc skipped => skipped = decide (acc = 0)
  | _ => True

theorem numbers_line (f : Effect) : Text.numbers f.line.toList = f.figures := by
  rw [toList_line]
  cases f with
  | tst cell acc skipped =>
    cases skipped <;> simp only [wording] <;> exact Text.numbers_spliced (by decide) rfl
  | _ =>
    simp only [wording]
    exact Text.numbers_spliced (by decide) rfl

def tag : Effect → String
  | .noop => "NOOP"
  | .take _ _ => "TAKE:"
  | .add _ _ _ => " ADD:"
  | .sub _ _ _ => " SUB:"
  | .save _ _ => "SAVE:"
  | .jmp _ => " JMP:"
  | .tst _ _ _ => " TST:"
  | .inc _ _ => " INC:"
  | .dec _ _ => " DEC:"
  | .null _ => "NULL:"

theorem take_line (f : Effect) : f.line.toList.take 5 = f.tag.toList := by
  rw [toList_line]
  cases f with
  | tst cell acc skipped => cases skipped <;> simp only [wording, figures, Text.spliced, tag] <;> rfl
  | _ => simp only [wording, figures, Text.spliced, tag]; rfl

theorem ofLine?_line {f : Effect} (telling : f.Telling) : ofLine? f.line.toList = some f := by
  rw [ofLine?, numbers_line, take_line, String.ofList_toList]
  cases f with
  | tst cell acc skipped =>
    cases skipped with
    | false => simp [tag, figures]
    | true =>
      have zero : acc = 0 := by simpa [Telling] using telling
      simp [tag, figures, zero]
  | _ => simp [tag, figures]

theorem line_injective {f g : Effect} (telling : f.Telling) (telling' : g.Telling)
    (same : f.line = g.line) : f = g := by
  have read := ofLine?_line telling
  rw [same, ofLine?_line telling'] at read
  exact (Option.some.inj read).symm

example : (tst 0 1 true).line = (tst 0 0 true).line := rfl

theorem take_of_ofLine? {cs : List Char} {f : Effect} (read : ofLine? cs = some f) :
    cs.take 5 = f.tag.toList := by
  rw [ofLine?] at read
  split at read <;> cases read <;> rename_i tagged _ <;>
    rw [tag, ← tagged, String.toList_ofList]

theorem head_of_ofLine? {cs : List Char} {f : Effect} (read : ofLine? cs = some f) :
    cs.head? = f.line.toList.head? := by
  have tagged := congrArg List.head? (take_of_ofLine? read)
  rwa [← take_line, List.head?_take, List.head?_take] at tagged

theorem ofLine?_eq_none {cs : List Char} {c : Char} (head : cs.head? = some c)
    (other : c ∉ [' ', 'N', 'S', 'T']) : ofLine? cs = none := by
  cases read : ofLine? cs with
  | none => rfl
  | some f =>
    obtain ⟨d, among, first⟩ := f.head_line
    rw [← head_of_ofLine? read, head] at first
    obtain rfl := Option.some.inj first
    exact absurd among other

theorem telling_of_effect? {m : Machine} {op : Mnemonic} {cell : Address} {f : Effect}
    (does : m.effect? op cell = some f) : f.Telling := by
  cases op with
  | hlt => cases does
  | tst => obtain rfl := Option.some.inj does; rfl
  | _ => obtain rfl := Option.some.inj does; trivial

end Effect

def Machine.retold (m : Machine) (ls : List (List Char)) : Machine :=
  (ls.filterMap Effect.ofLine?).foldl (fun m f => f.replay m) m

namespace Trace

def Arises (t : Trace) : Prop :=
  ∃ (m : Memory) (limit : Option UInt64) (k : Nat), m.WellFormed ∧
    t ∈ (Execution.start m limit).records k

theorem line_eq (t : Trace) :
    t.line = "[" ++ Text.rightAligned 3 t.address.toNat ++ "] " ++ t.effect.line := rfl

theorem numbers_line (t : Trace) :
    Text.numbers t.line.toList = t.address.toNat :: t.effect.figures := by
  obtain ⟨free, column⟩ := Text.toList_rightAligned 3 t.address.toNat
  have parts : t.line.toList = ('[' :: Text.blanks free) ++
      ((toString t.address.toNat).toList ++ (']' :: ' ' :: t.effect.line.toList)) := by
    simp [line_eq, column]
  have before : Text.Plain ('[' :: Text.blanks free) := by
    intro c member
    rcases List.mem_cons.mp member with rfl | blank
    · rfl
    · rw [(List.mem_replicate.mp blank).2]
      rfl
  have behind : Text.Plain [']', ' '] := by decide
  have parted : Text.Parted (Text.digitsOnly (']' :: ' ' :: t.effect.line.toList)) := by
    rintro _ ⟨⟩
    rfl
  have rest := Text.numbers_plain_append behind t.effect.line.toList
  rw [parts, Text.numbers_plain_append before, Text.numbers_toString_append _ parted,
    ← t.effect.numbers_line, ← rest]
  rfl

theorem line_injective {t u : Trace} (telling : t.effect.Telling) (telling' : u.effect.Telling)
    (same : t.line = u.line) : t.address = u.address ∧ t.effect = u.effect := by
  have shown := t.numbers_line
  rw [same, u.numbers_line] at shown
  have address : t.address = u.address := UInt64.toNat_inj.mp (List.cons.inj shown).1.symm
  rw [line_eq, line_eq, address, String.append_right_inj] at same
  exact ⟨address, Effect.line_injective telling telling' same⟩

end Trace

namespace Execution

theorem telling_of_mem_records {e : Execution} {b : Bounds} (sound : e.machine.Sound b) (k : Nat) :
    ∀ t ∈ e.records k, t.effect.Telling := by
  refine forall_mem_records sound (fun e sound t left => ?_) k
  obtain ⟨-, -, -, -, op, -, does⟩ := act_of_record sound left
  exact Effect.telling_of_effect? does

end Execution

theorem Trace.Arises.telling {t : Trace} (arises : t.Arises) : t.effect.Telling := by
  obtain ⟨m, limit, k, h, member⟩ := arises
  exact Execution.telling_of_mem_records (Execution.start_sound h limit) k t member

namespace CommandLine

open Execution

variable {m : Memory} {ts : List Trace}

theorem ofLine?_listedRow {row : List Char} (listed : row ∈ listedRows m) :
    Effect.ofLine? row = none :=
  Effect.ofLine?_eq_none (head_of_listedRows row listed) (by decide)

theorem ofLine?_terminated (n : Nat) : Effect.ofLine? (terminated n).toList = none :=
  Effect.ofLine?_eq_none (head_terminated n) (by decide)

theorem filterMap_recordLines (telling : ∀ t ∈ ts, t.effect.Telling) :
    (recordLines ts).filterMap Effect.ofLine? = ts.map (·.effect) := by
  rw [recordLines, List.filterMap_map, ← List.filterMap_eq_map]
  exact List.filterMap_congr fun t member => Effect.ofLine?_line (telling t member)

theorem retold_shownLines {o : Options} (loud : o.quiet = false)
    (telling : ∀ t ∈ ts, t.effect.Telling) (start : Machine) (behind : List (List Char))
    (others : ∀ line ∈ behind, Effect.ofLine? line = none) :
    start.retold (shownLines o m ts ++ behind) = start.replayed ts := by
  have listed : (if o.list then listedRows m else []).filterMap Effect.ofLine? = [] := by
    rw [List.filterMap_eq_nil_iff]
    split
    · exact fun row => ofLine?_listedRow
    · nofun
  have nothing : behind.filterMap Effect.ofLine? = [] := List.filterMap_eq_nil_iff.mpr others
  rw [Machine.retold, shownLines, loud, if_neg Bool.false_ne_true, List.filterMap_append,
    List.filterMap_append, listed, nothing, filterMap_recordLines telling, List.nil_append,
    List.append_nil, List.foldl_map, Machine.replayed]

theorem retold_records {o : Options} (loud : o.quiet = false) (h : m.WellFormed) (k : Nat)
    (behind : List (List Char)) (others : ∀ line ∈ behind, Effect.ofLine? line = none) :
    ((start m o.maxOperations).later k).machine = Machine.retold { memory := m }
      (shownLines o m ((start m o.maxOperations).records k) ++ behind) := by
  have telling := telling_of_mem_records (start_sound h o.maxOperations) k
  rw [retold_shownLines loud telling _ behind others]
  exact (logged_later h o.maxOperations k).machine_eq

theorem Runs.machine_eq {read : String → Except ReadError String} {o : Options}
    {fault? : Option Fault} {last : Execution} (runs : Runs read o m ts fault? last)
    (loud : o.quiet = false) (behind : List (List Char))
    (others : ∀ line ∈ behind, Effect.ofLine? line = none) :
    last.machine = Machine.retold { memory := m } (shownLines o m ts ++ behind) := by
  have h := runs.prepared.wellFormed
  have told := retold_records loud h (ts.length + 1) behind others
  rwa [← runs.drained.eq_later, runs.drained.all_records (start_sound h _)] at told

/-- The lines of records that runs leave give their effects and, where they show them, their
addresses. So the machine behind any number of records, in a run that goes on or that has ended, is
the one that the lines put out up to there lead to. -/
theorem printed_trace_identifies_run :
    (∀ t u : Trace, t.Arises → u.Arises → (t.effect.line = u.effect.line → t.effect = u.effect) ∧
      (t.line = u.line → t.address = u.address ∧ t.effect = u.effect)) ∧
    (∀ (o : Options) (m : Memory) (k : Nat), o.quiet = false → m.WellFormed →
      ((start m o.maxOperations).later k).machine = Machine.retold { memory := m }
        (Text.lines (((start m o.maxOperations).records k).foldl (showTrace o.quiet)
          (preface o m)).toList)) ∧
    ∀ (read : String → Except ReadError String) (o : Options) (m : Memory) (ts : List Trace)
      (fault? : Option Fault) (last : Execution), o.benchmark = false → o.quiet = false →
      Runs read o m ts fault? last → ∃ r, perform read o = some r ∧
        last.machine = Machine.retold { memory := m } (Text.lines r.out.toList) := by
  refine ⟨fun t u arises arises' => ⟨?_, ?_⟩, ?_, ?_⟩
  · exact Effect.line_injective arises.telling arises'.telling
  · exact Trace.line_injective arises.telling arises'.telling
  · intro o m k loud h
    have told := retold_records loud h k [] nofun
    rw [foldl_showTrace, ← shownRecords, lines_of_faulted]
    rwa [List.append_nil] at told
  · intro read o m ts fault? last plain loud runs
    refine ⟨_, runs.perform_eq plain, ?_⟩
    cases fault? with
    | none =>
      rw [ofRun, lines_of_halted]
      exact runs.machine_eq loud _ (List.forall_mem_singleton.mpr (ofLine?_terminated _))
    | some f =>
      have told := runs.machine_eq loud [] nofun
      rw [ofRun, Report.failure, lines_of_faulted]
      rwa [List.append_nil] at told

theorem printed_trace_identifies_run_at_count :
    let m : Memory := ⟨⟨3, 99⟩, #[26, 30, 5]⟩
    let o : Options := { cells := [(0, 26), (1, 30), (2, 5)], bounds := ⟨3, 99⟩, list := true }
    let t : Trace := ⟨0, 1, .dec 2 4⟩
    let u : Trace := ⟨0, 1, .dec 2 5⟩
    t.Arises ∧ u.Arises ∧ t.effect.line ≠ u.effect.line ∧ t.line ≠ u.line ∧ m.WellFormed ∧
      (start m none).records 1 = [t] ∧ ∃ r, perform (fun _ => .error .missing) o = some r ∧
        Machine.retold { memory := m } (Text.lines r.out.toList) =
          ⟨⟨⟨3, 99⟩, #[26, 30, 4]⟩, 4, 1⟩ := by
  intro m o t u
  obtain ⟨identified, -, printed⟩ := printed_trace_identifies_run
  have wellFormed : m.WellFormed := ⟨rfl, by simp [m]⟩
  have arises : t.Arises := ⟨m, none, 1, wellFormed, by decide⟩
  have arises' : u.Arises := ⟨⟨⟨3, 99⟩, #[26, 30, 6]⟩, none, 1, ⟨rfl, by simp⟩, by decide⟩
  have runs : Runs (fun _ => .error .missing) o m [t] none ((start m none).later 2) :=
    ⟨.ready (.fresh rfl) (setCells_eq_ok_iff.mp (by decide)), rfl, .inr (by simp [o]),
      .record (by decide) (.done (by decide))⟩
  have other : t.effect ≠ u.effect := by decide
  obtain ⟨r, performed, told⟩ := printed _ o m [t] none _ rfl rfl runs
  refine ⟨arises, arises', fun same => other ((identified t u arises arises').1 same),
    fun same => other ((identified t u arises arises').2 same).2, wellFormed, by decide, r,
    performed, ?_⟩
  rw [← told]
  decide

end CommandLine

end AccMachine

import AccMachine.Proofs.Coding
import AccMachine.Proofs.Runs
import AccMachine.Sweep

/-!
How the random memories of a sweep are drawn. One generator is handed on from cell to cell and from
memory to memory, so what is drawn depends only on the draws before it, and not on how many
memories or cells are drawn behind it.
-/
namespace AccMachine

namespace Memory

variable {σ : Type} (draw : Address → σ → Word × σ) (s : σ)

def drawState : Nat → σ
  | 0 => s
  | n + 1 => (draw (.ofNat n) (drawState n)).2

theorem drawState_congr {draw draw' : Address → σ → Word × σ} {n : Nat}
    (same : ∀ i < n, ∀ t, draw (.ofNat i) t = draw' (.ofNat i) t) :
    drawState draw s n = drawState draw' s n := by
  induction n with
  | zero => rfl
  | succ n ih =>
    have before := ih fun i lt => same i (Nat.lt_succ_of_lt lt)
    rw [drawState, drawState, before, same n (Nat.lt_succ_self n)]

theorem fillFrom_drawState (maxValue : Word) (count : Nat) (cells : Array Word) :
    (fillFrom maxValue draw count cells (drawState draw s cells.size)).1.toList =
        cells.toList ++ (List.range' cells.size count).map
          (fun i => min (draw (.ofNat i) (drawState draw s i)).1 maxValue) ∧
      (fillFrom maxValue draw count cells (drawState draw s cells.size)).2 =
        drawState draw s (cells.size + count) := by
  induction count generalizing cells with
  | zero => simp [fillFrom]
  | succ count ih =>
    have rest := ih (cells.push
      (min (draw (.ofNat cells.size) (drawState draw s cells.size)).1 maxValue))
    rw [Array.size_push] at rest
    rw [fillFrom]
    obtain ⟨contents, state⟩ := rest
    constructor
    · refine contents.trans ?_
      simp [List.range'_succ]
    · refine state.trans ?_
      rw [Nat.add_assoc, Nat.add_comm 1]

variable (b : Bounds)

theorem fill_state : (fill b draw s).2 = drawState draw s b.ramSize.toNat := by
  have filled := (fillFrom_drawState draw s b.maxValue b.ramSize.toNat #[]).2
  rw [Array.size_empty, Nat.zero_add] at filled
  exact filled

theorem read_fill {a : Address} (inside : a < b.ramSize) : (fill b draw s).1.read a =
    .ok (min (draw a (drawState draw s a.toNat)).1 b.maxValue) := by
  have filled := (fillFrom_drawState draw s b.maxValue b.ramSize.toNat #[]).1
  have lt := UInt64.lt_iff_toNat_lt.mp inside
  have size : a.toNat < (fill b draw s).1.cells.size := by
    rw [(fill_wellFormed b draw s).1]
    exact lt
  have held : (fill b draw s).1.cells.toList[a.toNat]? =
      some (min (draw a (drawState draw s a.toNat)).1 b.maxValue) := by
    refine (congrArg (·[a.toNat]?) filled).trans ?_
    simp [lt]
  rw [read, dif_pos size]
  rw [Array.getElem?_toList, Array.getElem?_eq_getElem size] at held
  exact congrArg Except.ok (Option.some.inj held)

end Memory

namespace Random

theorem candidate_lt {bits n v : Nat} {word : UInt64} (fits : bits ≤ 64) (pos : 0 < n)
    (h : candidate bits n word = some v) : v < n := by
  simp only [candidate, Nat.shiftRight_eq_div_pow] at h
  split at h
  · cases h
    have top : word.toNat / 2 ^ (64 - bits) < 2 ^ bits := by
      apply Nat.div_lt_of_lt_mul
      rw [← Nat.pow_add, show 64 - bits + bits = 64 by omega]
      exact word.toNat_lt
    exact Nat.div_lt_of_lt_mul (Nat.mul_lt_mul_of_pos_right top pos)
  · cases h

theorem redraw_fixed {bits n : Nat} (p : Option Nat × Generator) (h : p.1.isSome = true) :
    redraw bits n p = p := by
  obtain ⟨v, g⟩ := p
  cases v with
  | none => cases h
  | some v => rfl

theorem redraw_lt {bits n : Nat} (fits : bits ≤ 64) (pos : 0 < n) (p : Option Nat × Generator)
    (h : ∀ v, p.1 = some v → v < n) : ∀ v, (redraw bits n p).1 = some v → v < n := by
  obtain ⟨o, g⟩ := p
  cases o with
  | none => exact fun v accepted => candidate_lt fits pos accepted
  | some w => exact h

theorem below_lt {bits n : Nat} (fits : bits ≤ 64) (pos : 0 < n) (g : Generator) :
    (below bits n g).1 < n := by
  have undrawn : ∀ v, (none, g).1 = some v → v < n := by simp
  have small := Function.Iterate.rec (fun p : Option Nat × Generator => ∀ v, p.1 = some v → v < n)
    undrawn (redraw_lt fits pos) (2 ^ generatorBits - 1)
  rw [← Iteration.exhaust_eq_iterate redraw_fixed] at small
  unfold below
  split
  · next v _ drawn => exact small v (by rw [drawn])
  · exact pos

def spend (draws : List (Nat × Nat)) (g : Generator) : Generator :=
  draws.foldl (fun g d => (below d.1 d.2 g).2) g

end Random

namespace Sweep

def instructionDraws (b : Bounds) : List (Nat × Nat) :=
  [(64, Mnemonic.all.length), (64, b.ramSize.toNat)]

def valueDraw (b : Bounds) : Nat × Nat := (32, b.maxValue.toNat + 1)

def drawnInstruction (b : Bounds) (g : Random.Generator) : Instruction :=
  let first := Random.below 64 Mnemonic.all.length g
  let second := Random.below 64 b.ramSize.toNat first.2
  ⟨.known (Mnemonic.all[first.1]?.getD .noop), .ofNat second.1⟩

/-- The draws for a cell: none behind the program, and otherwise three where the instruction has no
code and two where it has. -/
def cellDraws (s : Sweep) (a : Address) (g : Random.Generator) : List (Nat × Nat) :=
  if s.programLength ≤ a then []
  else match (drawnInstruction s.bounds g).encode s.bounds with
    | .ok _ => instructionDraws s.bounds
    | .error _ => instructionDraws s.bounds ++ [valueDraw s.bounds]

section

variable {b : Bounds} {g : Random.Generator}

theorem drawInstruction_eq (b : Bounds) (g : Random.Generator) :
    drawInstruction b g = match (drawnInstruction b g).encode b with
      | .ok w => (w, Random.spend (instructionDraws b) g)
      | .error _ =>
        (.ofNat (Random.below 32 (b.maxValue.toNat + 1) (Random.spend (instructionDraws b) g)).1,
          Random.spend (instructionDraws b ++ [valueDraw b]) g) := by
  unfold drawInstruction drawnInstruction instructionDraws valueDraw Random.spend
  -- both sides agree whatever the draws are, and so none of them is carried out
  obtain ⟨draw, same⟩ : ∃ draw, draw = Random.below := ⟨_, rfl⟩
  rw [← same]
  rfl

theorem drawInstruction_encoded {w : Word} (encoded : (drawnInstruction b g).encode b = .ok w) :
    drawInstruction b g = (w, Random.spend (instructionDraws b) g) := by
  rw [drawInstruction_eq, encoded]

theorem drawInstruction_refused {f : Fault} (refused : (drawnInstruction b g).encode b = .error f) :
    drawInstruction b g =
      (.ofNat (Random.below 32 (b.maxValue.toNat + 1) (Random.spend (instructionDraws b) g)).1,
        Random.spend (instructionDraws b ++ [valueDraw b]) g) := by
  rw [drawInstruction_eq, refused]

theorem drawInstruction_le (b : Bounds) (g : Random.Generator) :
    (drawInstruction b g).1 ≤ b.maxValue := by
  cases encoded : (drawnInstruction b g).encode b with
  | ok w =>
    rw [drawInstruction_encoded encoded]
    exact Instruction.encode_le encoded
  | error f =>
    have lt : (Random.below 32 (b.maxValue.toNat + 1) (Random.spend (instructionDraws b) g)).1 <
        b.maxValue.toNat + 1 := Random.below_lt (by decide) (by omega) _
    have small := b.maxValue.toNat_lt
    rw [drawInstruction_refused encoded, UInt32.le_iff_toNat_le,
      UInt32.toNat_ofNat_of_lt' (Nat.lt_of_lt_of_le lt small)]
    exact Nat.le_of_lt_succ lt

end

variable (s : Sweep)

theorem drawCell_le (a : Address) (g : Random.Generator) :
    (s.drawCell a g).1 ≤ s.bounds.maxValue := by
  unfold drawCell
  split
  · exact UInt32.zero_le
  · exact drawInstruction_le s.bounds g

theorem drawCell_snd (a : Address) (g : Random.Generator) :
    (s.drawCell a g).2 = Random.spend (s.cellDraws a g) g := by
  unfold drawCell cellDraws
  split
  · rfl
  · cases encoded : (drawnInstruction s.bounds g).encode s.bounds with
    | ok w => rw [drawInstruction_encoded encoded]
    | error f => rw [drawInstruction_refused encoded]

def imageState (i : Nat) (g : Random.Generator) : Random.Generator :=
  (fun g => (Memory.fill s.bounds s.drawCell g).2)^[i] g

def image (i : Nat) (g : Random.Generator) : Memory :=
  (Memory.fill s.bounds s.drawCell (s.imageState i g)).1

theorem drawImages_eq (count : Nat) (g : Random.Generator) :
    s.drawImages count g = (List.range count).map fun i => s.image i g := by
  induction count generalizing g with
  | zero => rfl
  | succ count ih =>
    rw [List.range_succ_eq_map, List.map_cons, List.map_map]
    exact congrArg (s.image 0 g :: ·) (ih _)

theorem getElem?_memories (seed : UInt64) {i : Nat} {m : Memory} :
    (s.memories seed)[i]? = some m ↔ i < s.images ∧ s.image i (.ofSeed seed) = m := by
  rw [memories, drawImages_eq, List.getElem?_map, Option.map_eq_some_iff]
  simp only [List.getElem?_eq_some_iff, List.getElem_range, List.length_range]
  constructor
  · intro found
    obtain ⟨j, ⟨lt, rfl⟩, same⟩ := found
    exact ⟨lt, same⟩
  · intro drawn
    exact ⟨i, ⟨drawn.1, rfl⟩, drawn.2⟩

theorem read_image (i : Nat) (g : Random.Generator) {a : Address} (inside : a < s.bounds.ramSize) :
    (s.image i g).read a = .ok (s.drawCell a
      (Memory.drawState s.drawCell (s.imageState i g) a.toNat)).1 := by
  rw [image, Memory.read_fill _ _ _ inside]
  exact congrArg Except.ok (if_pos (s.drawCell_le a _))

/-- How the draws of a sweep follow one another, where cell `a` of memory `i` is drawn from the
generator `gs i a`: memory by memory and cell by cell, each cell with draws of its own number. -/
structure Threaded (s : Sweep) (seed : UInt64) (gs : Nat → Nat → Random.Generator) : Prop where
  count : (s.memories seed).length = s.images
  first : gs 0 0 = .ofSeed seed
  next_cell : ∀ i a, gs i (a + 1) = Random.spend (s.cellDraws (.ofNat a) (gs i a)) (gs i a)
  handed_on : ∀ i a, (s.drawCell (.ofNat a) (gs i a)).2 = gs i (a + 1)
  next_memory : ∀ i, gs (i + 1) 0 = gs i s.bounds.ramSize.toNat
  read_eq : ∀ (i : Nat) (m : Memory), (s.memories seed)[i]? = some m →
    ∀ a : Address, a < s.bounds.ramSize → m.read a = .ok (s.drawCell a (gs i a.toNat)).1

theorem threaded (seed : UInt64) :
    s.Threaded seed fun i a => Memory.drawState s.drawCell (s.imageState i (.ofSeed seed)) a := by
  constructor
  case count => rw [memories, drawImages_eq, List.length_map, List.length_range]
  case first => rfl
  case next_cell =>
    intro i a
    exact s.drawCell_snd _ _
  case handed_on =>
    intro i a
    rfl
  case next_memory =>
    intro i
    rw [← Memory.fill_state]
    exact Function.iterate_succ_apply' _ i _
  case read_eq =>
    intro i m there a inside
    obtain ⟨-, rfl⟩ := (s.getElem?_memories seed).mp there
    exact s.read_image i _ inside

section

variable {s} {s' : Sweep}

theorem drawCell_within (same : s'.bounds = s.bounds)
    (longer : s.programLength ≤ s'.programLength) {a : Address} (within : a < s.programLength) :
    s'.drawCell a = s.drawCell a := by
  funext g
  rw [drawCell, drawCell, same, if_neg (UInt64.not_le.mpr within),
    if_neg (UInt64.not_le.mpr (UInt64.lt_of_lt_of_le within longer))]

theorem image_congr (same : s'.bounds = s.bounds) (programs : s'.programLength = s.programLength) :
    s'.image = s.image := by
  have cells : s'.drawCell = s.drawCell := by
    funext a g
    rw [drawCell, drawCell, same, programs]
  funext i g
  rw [image, image, imageState, imageState, same, cells]

theorem read_first (same : s'.bounds = s.bounds) (longer : s.programLength ≤ s'.programLength)
    (g : Random.Generator) {a : Address} (within : a < s.programLength)
    (inside : a < s.bounds.ramSize) : (s'.image 0 g).read a = (s.image 0 g).read a := by
  have before : ∀ i < a.toNat, ∀ t, s'.drawCell (.ofNat i) t = s.drawCell (.ofNat i) t := by
    intro i lt t
    have early : UInt64.ofNat i < a := by
      rw [UInt64.lt_iff_toNat_lt, UInt64.toNat_ofNat_of_lt' (Nat.lt_trans lt a.toNat_lt)]
      exact lt
    rw [drawCell_within same longer (UInt64.lt_trans early within)]
  rw [s.read_image 0 g inside, s'.read_image 0 g (same ▸ inside), imageState, imageState,
    Function.iterate_zero_apply, Function.iterate_zero_apply, Memory.drawState_congr g before,
    drawCell_within same longer within]

end

/-- More memories leave those that there were as they are, and so does a longer program with the
cells of the first memory that held the shorter one. How long the memories run does not matter. -/
theorem memories_stable {s s' : Sweep} (same : s'.bounds = s.bounds) (seed : UInt64) :
    (s'.programLength = s.programLength → s.images ≤ s'.images →
      s.memories seed = (s'.memories seed).take s.images) ∧
    (s.programLength ≤ s'.programLength → 0 < s.images → 0 < s'.images →
      ∃ m m', (s.memories seed)[0]? = some m ∧ (s'.memories seed)[0]? = some m' ∧
        ∀ a : Address, a < s.programLength → a < s.bounds.ramSize →
          ∃ w, m.read a = .ok w ∧ m'.read a = .ok w) ∧
    ∃ gs, s.Threaded seed gs := by
  refine ⟨?_, ?_, _, s.threaded seed⟩
  · intro programs more
    rw [memories, memories, drawImages_eq, drawImages_eq, image_congr same programs,
      ← List.map_take, List.take_range, Nat.min_eq_left more]
  · intro longer drawn drawn'
    refine ⟨_, _, (s.getElem?_memories seed).mpr ⟨drawn, rfl⟩,
      (s'.getElem?_memories seed).mpr ⟨drawn', rfl⟩, ?_⟩
    intro a within inside
    refine ⟨_, s.read_image 0 _ inside, ?_⟩
    rw [read_first same longer _ within inside]
    exact s.read_image 0 _ inside

/-- Three draws make the first cell, because its instruction has no code. Behind them a 6 is drawn,
for the first cell of a second memory as for the second cell of a longer program. -/
theorem memories_stable_two_cells :
    let s : Sweep := { images := 1, programLength := 1, bounds := ⟨2, 12⟩ }
    let more : Sweep := { s with images := 2 }
    let longer : Sweep := { s with programLength := 2 }
    more.memories 7 = [⟨⟨2, 12⟩, #[1, 0]⟩, ⟨⟨2, 12⟩, #[6, 0]⟩] ∧
      longer.memories 7 = [⟨⟨2, 12⟩, #[1, 6]⟩] ∧
      s.memories 7 = (more.memories 7).take 1 ∧
      (∃ m m', (s.memories 7)[0]? = some m ∧ (longer.memories 7)[0]? = some m' ∧
        m.read 0 = .ok 1 ∧ m'.read 0 = .ok 1) ∧
      ∃ gs, more.Threaded 7 gs ∧
        gs 1 0 = Random.spend [(64, 11), (64, 2), (32, 13)] (.ofSeed 7) ∧
        (more.drawCell 0 (gs 1 0)).1 = 6 := by
  intro s more longer
  have two : more.memories 7 = [⟨⟨2, 12⟩, #[1, 0]⟩, ⟨⟨2, 12⟩, #[6, 0]⟩] := by decide +kernel
  have one : longer.memories 7 = [⟨⟨2, 12⟩, #[1, 6]⟩] := by decide +kernel
  have alike : more.bounds = s.bounds := rfl
  have alike' : longer.bounds = s.bounds := rfl
  have grown := (memories_stable alike 7).1 rfl (by decide)
  obtain ⟨m, m', first, first', shared⟩ := (memories_stable alike' 7).2.1
    (by decide) (by decide) (by decide)
  obtain ⟨w, held, held'⟩ := shared 0 (by decide) (by decide)
  obtain rfl : (⟨⟨2, 12⟩, #[1, 6]⟩ : Memory) = m' := by simpa [one] using first'
  obtain rfl : 1 = w := Except.ok.inj held'
  obtain ⟨gs, threaded⟩ := (memories_stable alike.symm 7).2.2
  have drawn : more.cellDraws 0 (.ofSeed 7) = [(64, 11), (64, 2), (32, 13)] := by decide +kernel
  have undrawn : more.cellDraws 1 (gs 0 1) = [] := if_pos (by decide)
  have behind : gs 1 0 = Random.spend [(64, 11), (64, 2), (32, 13)] (.ofSeed 7) := calc
    gs 1 0 = gs 0 2 := threaded.next_memory 0
    _ = Random.spend (more.cellDraws 1 (gs 0 1)) (gs 0 1) := threaded.next_cell 0 1
    _ = gs 0 1 := by rw [undrawn]; rfl
    _ = Random.spend (more.cellDraws 0 (gs 0 0)) (gs 0 0) := threaded.next_cell 0 0
    _ = _ := by rw [threaded.first, drawn]
  have second := threaded.read_eq 1 ⟨⟨2, 12⟩, #[6, 0]⟩ (by rw [two]; rfl) 0 (by decide)
  exact ⟨two, one, grown, ⟨m, _, first, first', held, held'⟩, gs, threaded, behind,
    (Except.ok.inj second).symm⟩

end Sweep
end AccMachine

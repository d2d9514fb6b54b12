import AccMachine.Execution

/-!
Random words, numbers below a bound, and sweeps over random memories: each holds a random program,
each runs on a machine of its own, and what is reported is how many of them ended in which way.
-/
namespace AccMachine

namespace Random

structure Generator where
  s0 : UInt64
  s1 : UInt64
  s2 : UInt64
  s3 : UInt64
  deriving DecidableEq, Repr, Inhabited

def rotateLeft (x : UInt64) (n : UInt64) : UInt64 := x <<< n ||| x >>> (64 - n)

def rotateRight (x : UInt32) (n : UInt32) : UInt32 := x >>> n ||| x <<< (32 - n)

def spread (state : UInt64) : UInt64 := state * 6364136223846793005 + 11634580027462260723

def halfWord (state : UInt64) : UInt32 :=
  rotateRight (((state >>> 18 ^^^ state) >>> 27).toUInt32) (state >>> 59).toUInt32

namespace Generator

def ofSeed (seed : UInt64) : Generator :=
  let word (state : UInt64) : UInt64 :=
    (halfWord (spread state)).toUInt64
      ||| (halfWord (spread (spread state))).toUInt64 <<< 32
  let skip (state : UInt64) : UInt64 := spread (spread state)
  ⟨word seed, word (skip seed), word (skip (skip seed)), word (skip (skip (skip seed)))⟩

def next (g : Generator) : UInt64 × Generator :=
  let s2 := g.s2 ^^^ g.s0
  let s3 := g.s3 ^^^ g.s1
  (rotateLeft (g.s0 + g.s3) 23 + g.s0,
    ⟨g.s0 ^^^ s3, g.s1 ^^^ s2, s2 ^^^ g.s1 <<< 17, rotateLeft s3 45⟩)

end Generator

/-- The last low part that is accepted: the largest multiple of `n` by a power of two that fits
into `bits` binary digits, less one. -/
def zone (bits n : Nat) : Nat := n <<< (bits - 1 - n.log2) - 1

def candidate (bits n : Nat) (word : UInt64) : Option Nat :=
  let product := word.toNat >>> (64 - bits) * n
  if product % 1 <<< bits ≤ zone bits n then some (product >>> bits) else none

def redraw (bits n : Nat) : Option Nat × Generator → Option Nat × Generator
  | (some v, g) => (some v, g)
  | (none, g) =>
    let (word, g) := g.next
    (candidate bits n word, g)

/-- More than the binary digits of a generator: after as many refusals none of its words is ever
accepted. -/
def generatorBits : Nat := 257

def below (bits n : Nat) (g : Generator) : Nat × Generator :=
  match Iteration.exhaust (redraw bits n) (·.1.isSome) generatorBits (none, g) with
  | (some v, g) => (v, g)
  | (none, g) => (0, g)

end Random

/-- `programLength` is the number of leading cells that are drawn, as far as there are so many. -/
structure Sweep where
  images : Nat := 4096
  programLength : Address := 32
  maxOperations : UInt64 := 8192
  bounds : Bounds := {}
  deriving DecidableEq, Repr, Inhabited

structure Tally where
  halted : Nat := 0
  outOfBounds : Nat := 0
  valueOutOfRange : Nat := 0
  illegalInstruction : Nat := 0
  operationLimit : Nat := 0
  operations : UInt64 := 0
  deriving DecidableEq, Repr, Inhabited

namespace Tally

def ofExecution (e : Execution) : Tally :=
  match e.status with
  | .running => { operations := e.operations }
  | .halted => { halted := 1, operations := e.operations }
  | .failed (.outOfBounds ..) => { outOfBounds := 1, operations := e.operations }
  | .failed (.valueOutOfRange ..) => { valueOutOfRange := 1, operations := e.operations }
  | .failed (.illegalInstruction ..) => { illegalInstruction := 1, operations := e.operations }
  | .failed (.operationLimitExceeded ..) => { operationLimit := 1, operations := e.operations }

def merge (s t : Tally) : Tally where
  halted := s.halted + t.halted
  outOfBounds := s.outOfBounds + t.outOfBounds
  valueOutOfRange := s.valueOutOfRange + t.valueOutOfRange
  illegalInstruction := s.illegalInstruction + t.illegalInstruction
  operationLimit := s.operationLimit + t.operationLimit
  operations := s.operations + t.operations

def total (t : Tally) : Nat :=
  t.halted + t.outOfBounds + t.valueOutOfRange + t.illegalInstruction + t.operationLimit

end Tally

namespace Sweep

/-- A random instruction, or a random value where the instruction does not fit into a cell. -/
def drawInstruction (b : Bounds) (g : Random.Generator) : Word × Random.Generator :=
  let (op, g) := Random.below 64 Mnemonic.all.length g
  let (operand, g) := Random.below 64 b.ramSize.toNat g
  let i : Instruction := ⟨.known (Mnemonic.all[op]?.getD .noop), .ofNat operand⟩
  match i.encode b with
  | .ok code => (code, g)
  | .error _ =>
    let (v, g) := Random.below 32 (b.maxValue.toNat + 1) g
    (.ofNat v, g)

def drawCell (s : Sweep) (a : Address) (g : Random.Generator) : Word × Random.Generator :=
  if s.programLength ≤ a then (0, g) else drawInstruction s.bounds g

/-- One generator serves all memories, one after the other, each from its first cell on. -/
def drawImages (s : Sweep) : (count : Nat) → Random.Generator → List Memory
  | 0, _ => []
  | count + 1, g =>
    let (m, g) := Memory.fill s.bounds s.drawCell g
    m :: s.drawImages count g

def memories (s : Sweep) (seed : UInt64) : List Memory := s.drawImages s.images (.ofSeed seed)

def run (limit : UInt64) (ms : List Memory) : List Memory × Tally :=
  let ends := ms.map (execute · (some limit))
  (ends.map (·.machine.memory), (ends.map Tally.ofExecution).foldl Tally.merge {})

end Sweep

end AccMachine

/-!
Reading texts: classes of characters, lines, words and integers. An integer is an optional sign and
then decimal digits, nothing else; the first thing that is wrong decides the error.
-/
namespace AccMachine.Text

structure CharRange where
  first : Nat
  last : Nat
  deriving DecidableEq, Repr, Inhabited

def CharRange.Contains (r : CharRange) (c : Char) : Prop := r.first ≤ c.toNat ∧ c.toNat ≤ r.last

instance (r : CharRange) (c : Char) : Decidable (r.Contains c) :=
  inferInstanceAs (Decidable (_ ∧ _))

def CharRange.holds (ranges : List CharRange) (c : Char) : Bool := ranges.any (·.Contains c)

def closeLine : List Char → List Char
  | '\r' :: line => line.reverse
  | line => line.reverse

/-- The lines of a text behind the open line `line`, which is held in reverse. -/
def linesFrom (line : List Char) : List Char → List (List Char)
  | [] => if line.isEmpty then [] else [line.reverse]
  | c :: cs => if c = '\n' then closeLine line :: linesFrom [] cs else linesFrom (c :: line) cs

def lines (cs : List Char) : List (List Char) := linesFrom [] cs

/-- The characters with the property White_Space. -/
def blankRanges : List CharRange :=
  [⟨0x09, 0x0D⟩, ⟨0x20, 0x20⟩, ⟨0x85, 0x85⟩, ⟨0xA0, 0xA0⟩, ⟨0x1680, 0x1680⟩, ⟨0x2000, 0x200A⟩,
   ⟨0x2028, 0x2029⟩, ⟨0x202F, 0x202F⟩, ⟨0x205F, 0x205F⟩, ⟨0x3000, 0x3000⟩]

def isBlank (c : Char) : Bool := CharRange.holds blankRanges c

def closeWord (word : List Char) (rest : List (List Char)) : List (List Char) :=
  if word.isEmpty then rest else word.reverse :: rest

def wordsFrom (word : List Char) : List Char → List (List Char)
  | [] => closeWord word []
  | c :: cs =>
    if isBlank c then closeWord word (wordsFrom [] cs) else wordsFrom (c :: word) cs

def words (cs : List Char) : List (List Char) := wordsFrom [] cs

def trim (cs : List Char) : List Char :=
  ((cs.dropWhile isBlank).reverse.dropWhile isBlank).reverse

inductive IntegerError where
  | empty
  | invalidDigit
  | tooLarge
  | tooSmall
  deriving DecidableEq, Repr, Inhabited

def IntegerError.message : IntegerError → String
  | .empty => "cannot parse integer from empty string"
  | .invalidDigit => "invalid digit found in string"
  | .tooLarge => "number too large to fit in target type"
  | .tooSmall => "number too small to fit in target type"

def digit? (c : Char) : Option Nat :=
  if c.isDigit then some (c.toNat - '0'.toNat) else none

/-- Reads on behind digits of value `n`. A value above `bound` is the error `excess`. -/
def digitsFrom (bound : Nat) (excess : IntegerError) (n : Nat) : List Char → Except IntegerError Nat
  | [] => .ok n
  | c :: cs =>
    match digit? c with
    | none => .error .invalidDigit
    | some d =>
      if bound < 10 * n + d then .error excess else digitsFrom bound excess (10 * n + d) cs

def digits (bound : Nat) (excess : IntegerError) (cs : List Char) : Except IntegerError Nat :=
  if cs.isEmpty then .error .invalidDigit else digitsFrom bound excess 0 cs

def natural (bound : Nat) : List Char → Except IntegerError Nat
  | [] => .error .empty
  | '+' :: cs => digits bound .tooLarge cs
  | cs => digits bound .tooLarge cs

def word64 (cs : List Char) : Except IntegerError UInt64 :=
  (natural 0xFFFFFFFFFFFFFFFF cs).map .ofNat

def signed64 : List Char → Except IntegerError Int64
  | '-' :: cs => (digits 0x8000000000000000 .tooSmall cs).map fun n => .ofInt (-n)
  | cs => (natural 0x7FFFFFFFFFFFFFFF cs).map .ofNat

end AccMachine.Text

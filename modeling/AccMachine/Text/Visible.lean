/-!
What is left of a text where no terminal reads it: escape sequences are taken out, and so are the
controls that are not blanks.
-/
namespace AccMachine.Text

def isControl (c : Char) : Bool := c.toNat < 0x20 || c.toNat = 0x7F

def isBlankControl (c : Char) : Bool := c = '\t' || c = '\n' || c = '\x0c' || c = '\r'

/-- What has been begun: an escape sequence without and with intermediate characters, a control
sequence up to its final character, the head of a string for a device, a command up to the bell, or
a string up to its terminator. -/
inductive Sequence where
  | escape | intermediate | control | device | command | string
  deriving DecidableEq, Repr, Inhabited

/-- In a text, or in a sequence. A text that stands inside an unfinished sequence holds on to it. -/
inductive Place where
  | text (held : Option Sequence)
  | inside (s : Sequence)
  deriving DecidableEq, Repr, Inhabited

/-- The terminator of a string is a byte, wherever in a character it comes. -/
def endsString (c : Char) : Bool := (String.utf8EncodeChar c).contains 0x9C

namespace Sequence

def interruptible : Sequence → Bool
  | .escape | .intermediate | .control => true
  | .device | .command | .string => false

def afterEscape (c : Char) : Place :=
  if ' ' ≤ c ∧ c ≤ '/' then .inside .intermediate
  else if c = '[' then .inside .control
  else if c = ']' then .inside .command
  else if c = 'P' then .inside .device
  else if c = 'X' ∨ c = '^' ∨ c = '_' then .inside .string
  else if '0' ≤ c ∧ c ≤ '~' then .text none
  else .inside .escape

def after (s : Sequence) (c : Char) : Place :=
  match s with
  | .escape => afterEscape c
  | .intermediate => if '0' ≤ c ∧ c ≤ '~' then .text none else .inside s
  | .control => if '@' ≤ c ∧ c ≤ '~' then .text none else .inside s
  | .device => if '@' ≤ c ∧ c ≤ '~' then .inside .string else .inside s
  | .command => if c = '\x07' then .text none else .inside s
  | .string => if endsString c then .text none else .inside s

end Sequence

namespace Place

def resumed : Option Sequence → Place
  | none => .text none
  | some s => .inside s

/-- The place behind a character. The escape character begins a sequence anywhere, and the
characters for cancelling and substituting end one. -/
def after (p : Place) (c : Char) : Place :=
  if c = '\x1b' then .inside .escape
  else if c = '\x18' ∨ c = '\x1a' then .text none
  else match p with
    | .text held =>
      if isBlankControl c then p
      else if isControl c then resumed held
      else if c.toNat < 0x80 then p
      else .text none
    | .inside s => if s.interruptible ∧ isBlankControl c then .text (some s) else s.after c

def shows : Place → Char → Bool
  | .text _, c => isBlankControl c || !isControl c
  | .inside s, c => s.interruptible && isBlankControl c

end Place

def visibleFrom (p : Place) : List Char → List Char
  | [] => []
  | c :: cs => if p.shows c then c :: visibleFrom (p.after c) cs else visibleFrom (p.after c) cs

def visible (cs : List Char) : List Char := visibleFrom (.text none) cs

def marked (s : String) : String := "\x1b[1m" ++ s ++ "\x1b[0m"

end AccMachine.Text

import UtilityCss.Pattern

/-!
# Programs of Patterns

Patterns as lists of steps that a search follows.

A program reads one character at a time, keeps places under numbers, and goes
on at two places where a pattern has a choice, the preferred one first. Code is
built for the place where it will stand and falls through at its end, so code
for one pattern after another is code after code.

A repetition without a bound loops. Where the repeated pattern can match the
empty text, the loop is entered once before it can be left, so an empty round
counts as one round and never as endlessly many.

## Main definitions

* `Instruction`: One step.
* `Code`: Steps for any place in a program.
* `Pattern.code`: The steps of a pattern.
* `Pattern.program`: The program of a pattern.
-/

namespace UtilityCss

/-- One step of a program. -/
inductive Instruction where
  /-- Read a character of a set. -/
  | consume (s : CharSet)
  /-- Go on if a condition holds here. -/
  | look (l : Look)
  /-- Keep the place under a number. -/
  | keep (slot : Nat)
  /-- Go on at the first place or, with less preference, at the second. -/
  | split (first second : Nat)
  /-- Go on at a place. -/
  | jump (target : Nat)
deriving DecidableEq, Repr, Inhabited

/-- Steps for any place in a program. They go on behind their end. -/
abbrev Code := Nat → List Instruction

namespace Code

/-- No steps. -/
def nothing : Code := fun _ => []

/-- One step. -/
def single (i : Instruction) : Code := fun _ => [i]

/-- Steps after steps. -/
def andThen (a b : Code) : Code := fun base =>
  let first := a base
  first ++ b (base + first.length)

/-- A choice of two places, with the preference that is asked for. -/
def choice (greedy : Bool) (inside outside : Nat) : Instruction :=
  if greedy then .split inside outside else .split outside inside

/-- Steps or, with less preference, other steps. -/
def orElse (a b : Code) : Code := fun base =>
  let first := a (base + 1)
  let middle := base + 1 + first.length + 1
  let second := b middle
  .split (base + 1) middle :: first ++ .jump (middle + second.length) :: second

/-- Steps that may be left out. -/
def optional (greedy : Bool) (a : Code) : Code := fun base =>
  let inner := a (base + 1)
  choice greedy (base + 1) (base + 1 + inner.length) :: inner

/-- Steps once or more often. -/
def atLeastOnce (greedy : Bool) (a : Code) : Code := fun base =>
  let inner := a base
  inner ++ [choice greedy base (base + inner.length + 1)]

/-- Steps any number of times, none included. -/
def anyTimes (greedy : Bool) (a : Code) : Code := fun base =>
  let inner := a (base + 1)
  choice greedy (base + 1) (base + 1 + inner.length + 1) :: inner ++ [.jump base]

/-- Steps so many times. -/
def times (a : Code) : Nat → Code
  | 0 => nothing
  | n + 1 => andThen a (times a n)

/-- Steps at most so many times. -/
def atMost (greedy : Bool) (a : Code) : Nat → Code
  | 0 => nothing
  | n + 1 => optional greedy (andThen a (atMost greedy a n))

/-- Steps a number of times between bounds. -/
def repeated (greedy loose : Bool) (a : Code) (least : Nat) : Option Nat → Code
  | some most => andThen (times a least) (atMost greedy a (most - least))
  | none =>
    match least with
    | 0 => if loose then optional greedy (atLeastOnce greedy a) else anyTimes greedy a
    | n + 1 => andThen (times a n) (atLeastOnce greedy a)

end Code

namespace Pattern

/-- The steps of a pattern. -/
def code : Pattern → Code
  | empty => Code.nothing
  | one s => Code.single (.consume s)
  | look l => Code.single (.look l)
  | seq p q => Code.andThen p.code q.code
  | alt p q => Code.orElse p.code q.code
  | group n p =>
    Code.andThen (Code.single (.keep (2 * n)))
      (Code.andThen p.code (Code.single (.keep (2 * n + 1))))
  | .repeat p least most greedy => Code.repeated greedy p.canBeEmpty p.code least most

/-- The program of a pattern. Its whole match is group 0; it ends behind its
    last step. -/
def program (p : Pattern) : Array Instruction := ((group 0 p).code 0).toArray

end Pattern

end UtilityCss

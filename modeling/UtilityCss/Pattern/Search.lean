import UtilityCss.Pattern.Program

/-!
# Searching

The matches of a pattern in a text.

A search goes through the text once. At every character it holds the threads
that are still alive, in order of preference: each is a place in the program
with the places in the text that it has kept. Two threads at one place in the
program have the same future, so the less preferred one is dropped; this bounds
the threads by the length of the program.

A match starts as far left as there is one. Among the matches that start there
the preferred one counts, so a thread that ends cuts off all after it, while
those before it go on.

Matches do not overlap. An empty match does not stand directly behind the match
before it.

## Main definitions

* `Thread.settle`: The threads that wait for a character, and the match.
* `Pattern.searchFrom`: The first match in the rest of a text.
* `Pattern.occurrences`: All matches of a text.
* `Pattern.matched`: The texts of the matches.
* `Pattern.captured`: What the matches capture.
-/

namespace UtilityCss

/-- The places kept so far, by number. -/
abbrev Slots := Array (Option Nat)

/-- A place in a program, and the places in the text on the way to it. -/
structure Thread where
  /-- The next step. -/
  pc : Nat
  /-- The places kept. -/
  slots : Slots
deriving Repr, Inhabited

/-- A place in a text. -/
structure Spot where
  /-- The number of characters before it. -/
  index : Nat
  /-- The character before it. -/
  before : Option Char
  /-- The character after it. -/
  after : Option Char
deriving Repr, Inhabited

namespace Thread

/-- The thread at another step. -/
def goTo (t : Thread) (pc : Nat) : Thread := { t with pc }

/-- Threads followed, in order of preference, to the steps that read a
    character: those that wait there, and what the first thread to end has
    kept. `seen` has a bit for every step passed. The fuel bounds the steps. -/
def settleFrom (program : Array Instruction) (here : Spot) :
    Nat → Nat → List Thread → List Thread → List Thread × Option Slots
  | 0, _, _, waiting => (waiting.reverse, none)
  | _ + 1, _, [], waiting => (waiting.reverse, none)
  | fuel + 1, seen, t :: rest, waiting =>
    if seen.testBit t.pc then settleFrom program here fuel seen rest waiting
    else
      let seen := seen ||| 1 <<< t.pc
      match program[t.pc]? with
      | none => (waiting.reverse, some t.slots)
      | some (.consume _) => settleFrom program here fuel seen rest (t :: waiting)
      | some (.look l) =>
        if l.holds here.before here.after then
          settleFrom program here fuel seen (t.goTo (t.pc + 1) :: rest) waiting
        else settleFrom program here fuel seen rest waiting
      | some (.keep slot) =>
        let t := ⟨t.pc + 1, t.slots.setIfInBounds slot (some here.index)⟩
        settleFrom program here fuel seen (t :: rest) waiting
      | some (.split first second) =>
        settleFrom program here fuel seen (t.goTo first :: t.goTo second :: rest) waiting
      | some (.jump target) =>
        settleFrom program here fuel seen (t.goTo target :: rest) waiting

/-- Threads followed to the steps that read a character. Every step is passed
    once and leads to at most two others. -/
def settle (program : Array Instruction) (here : Spot) (threads : List Thread) :
    List Thread × Option Slots :=
  settleFrom program here (threads.length + 2 * program.size + 3) 0 threads []

/-- A thread that waits for a character, after reading it. -/
def read? (program : Array Instruction) (c : Char) (t : Thread) : Option Thread :=
  match program[t.pc]? with
  | some (.consume s) => if s.holds c then some (t.goTo (t.pc + 1)) else none
  | _ => none

end Thread

/-- A match: the places kept, by number. -/
structure Match where
  /-- The start of the match. -/
  start : Nat
  /-- The end of the match. -/
  stop : Nat
  /-- The places kept. -/
  slots : Slots
deriving Repr, Inhabited

namespace Match

/-- The match with some places kept. -/
def ofSlots (slots : Slots) : Match :=
  ⟨((slots[0]?).getD none).getD 0, ((slots[1]?).getD none).getD 0, slots⟩

/-- The start and the end of a group that took part in the match. -/
def group? (m : Match) (number : Nat) : Option (Nat × Nat) :=
  match (m.slots[2 * number]?).getD none, (m.slots[2 * number + 1]?).getD none with
  | some start, some stop => some (start, stop)
  | _, _ => none

/-- The text of the whole match. -/
def whole (m : Match) (cs : List Char) : List Char := (cs.drop m.start).take (m.stop - m.start)

end Match

namespace Pattern

/-- The first match of a program from a place on. Threads are in order of
    preference; a new one starts here, after all others, as long as there is no
    match. -/
def searchFrom (program : Array Instruction) (fresh : Slots) :
    Nat → Option Char → List Thread → Option Slots → List Char → Option Slots
  | index, before, threads, found, cs =>
    let threads := if found.isNone then threads ++ [⟨0, fresh⟩] else threads
    let (waiting, hit) := Thread.settle program ⟨index, before, cs.head?⟩ threads
    let found := hit <|> found
    match cs with
    | [] => found
    | c :: rest =>
      let threads := waiting.filterMap (Thread.read? program c)
      if threads.isEmpty && found.isSome then found
      else searchFrom program fresh (index + 1) (some c) threads found rest

/-- The matches of a program from a place on. `last` is where the last match
    ended. Each round ends further right, which bounds the rounds. -/
def matchesFrom (program : Array Instruction) (fresh : Slots) :
    Nat → Nat → Option Char → Option Nat → List Char → List Match
  | 0, _, _, _, _ => []
  | fuel + 1, index, before, last, cs =>
    match searchFrom program fresh index before [] none cs with
    | none => []
    | some slots =>
      let m := Match.ofSlots slots
      if m.start = m.stop && last = some m.stop then
        match cs with
        | [] => []
        | c :: rest => matchesFrom program fresh fuel (index + 1) (some c) last rest
      else
        let passed := cs.take (m.stop - index)
        m :: matchesFrom program fresh fuel m.stop (passed.getLast? <|> before)
          (some m.stop) (cs.drop (m.stop - index))

/-- No places kept yet. Only the whole match and its first group are asked
    for. -/
def freshSlots : Slots := #[none, none, none, none]

/-- The matches of a pattern, from left to right. -/
def occurrences (p : Pattern) (cs : List Char) : List Match :=
  matchesFrom p.program freshSlots (2 * cs.length + 2) 0 none none cs

/-- The texts of the matches of a pattern, from left to right. -/
def matched (p : Pattern) (cs : List Char) : List (List Char) :=
  (p.occurrences cs).map fun m => m.whole cs

/-- What the matches of a pattern capture: the first group, where it took part,
    and the whole match elsewhere. -/
def captured (p : Pattern) (cs : List Char) : List (List Char) :=
  (p.occurrences cs).map fun m =>
    let (start, stop) := (m.group? 1).getD (m.start, m.stop)
    (cs.drop start).take (stop - start)

end Pattern

end UtilityCss

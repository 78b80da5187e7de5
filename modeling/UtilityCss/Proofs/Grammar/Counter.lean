import Mathlib.Data.List.Nodup
import UtilityCss.Build
import UtilityCss.Proofs.Grammar.History

/-!
# Counting Ranks with 32 Bits

How far what a grammar remembers holds of a build.

A build counts ranks with 32 bits, and the default grammar has used some of them up. Only a
registration of a new name uses up another one, so how far the counter has gone can be told
from the registrations (`Grammar.newcomers`). As long as ranks are left, a build has the grammar
that counting without end leads to, and it makes no difference what would happen at the end of
the counter. So such a grammar remembers all that there is to remember.

The bound is exact. The registration that uses up the last rank has no number to count on to. It
ends a build that checks for this. A build that does not has a counter of 0 then, and all its
ranks are above the one that is said to be next.

## Main definitions

* `Grammar.enterCounted?`: Registrations made in order, with a counter of 32 bits.
* `Grammar.newcomers`: How many registrations are of new names.

## Theorems

* `nextRank_enterAll`: The counter goes on by one for each newcomer.
* `newcomers_eq_length`: Registrations of different new names are all newcomers.
* `enterCounted?_eq`: As long as ranks are left, counting does not end.
* `isSome_enterCounted?_stop_iff`: The bound is exact.
* `remembers_enterCounted`: What is remembered as long as ranks are left.
-/

namespace UtilityCss

namespace Grammar

/-- The grammar with registrations made in order, if the counter of ranks has 32 bits. -/
def enterCounted? (overflow : Overflow) (g : Grammar) (entries : List Registration) :
    Option Grammar :=
  entries.foldlM (fun g entry => (g.enter entry).counted? overflow) g

/-- How many registrations write an entry that is not there by then. -/
def newcomers : Grammar → List Registration → Nat
  | _, [] => 0
  | g, entry :: entries =>
    (if (g.rankOf? (entryOf entry)).isSome then 0 else 1) + newcomers (g.enter entry) entries

/-! ### Newcomers -/

section

variable (g : Grammar)

/-- The counter goes on by one for each newcomer. -/
theorem nextRank_enterAll (entries : List Registration) :
    (g.enterAll entries).nextRank = g.nextRank + newcomers g entries := by
  induction entries generalizing g with
  | nil => rfl
  | cons entry entries ih =>
      rw [enterAll_cons, ih, (writes_enter g entry).next, newcomers]
      split <;> omega

theorem newcomers_append (before later : List Registration) :
    newcomers g (before ++ later) = newcomers g before + newcomers (g.enterAll before) later := by
  have hboth := nextRank_enterAll g (before ++ later)
  have hbefore := nextRank_enterAll g before
  have hlater := nextRank_enterAll (g.enterAll before) later
  rw [enterAll_append] at hboth
  omega

theorem newcomers_le_of_prefix {made entries : List Registration} (h : made <+: entries) :
    newcomers g made ≤ newcomers g entries := by
  rcases h with ⟨later, rfl⟩
  rw [newcomers_append]
  exact Nat.le_add_right _ _

/-- Registrations of different new names are all newcomers. -/
theorem newcomers_eq_length {entries : List Registration} (hdistinct : (entries.map entryOf).Nodup)
    (hnew : ∀ entry ∈ entries, g.rankOf? (entryOf entry) = none) :
    newcomers g entries = entries.length := by
  induction entries generalizing g with
  | nil => rfl
  | cons entry entries ih =>
      rw [List.map_cons, List.nodup_cons] at hdistinct
      rcases List.forall_mem_cons.1 hnew with ⟨hfirst, hrest⟩
      -- The first registration writes its own entry only, so the others stay new.
      have hothers : ∀ other ∈ entries, (g.enter entry).rankOf? (entryOf other) = none := by
        intro other hother
        have hne : entryOf other ≠ entryOf entry := fun heq =>
          hdistinct.1 (heq ▸ List.mem_map_of_mem hother)
        rcases (writes_enter g entry).others _ hne with hsame | hnone
        · rw [hsame, hrest other hother]
        · exact hnone
      rw [newcomers, hfirst, ih _ hdistinct.2 hothers, List.length_cons, Nat.add_comm]
      rfl

end

/-! ### The counter -/

section

variable {overflow : Overflow} {g : Grammar}

theorem counted?_eq (h : g.nextRank < rankLimit) : g.counted? overflow = some g := if_pos h

theorem enterCounted?_cons (entry : Registration) (entries : List Registration) :
    g.enterCounted? overflow (entry :: entries)
      = ((g.enter entry).counted? overflow).bind fun g => g.enterCounted? overflow entries :=
  List.foldlM_cons

theorem enterCounted?_append (before later : List Registration) :
    g.enterCounted? overflow (before ++ later)
      = (g.enterCounted? overflow before).bind fun g => g.enterCounted? overflow later :=
  List.foldlM_append

/-- As long as ranks are left, counting does not end. -/
theorem enterCounted?_eq {entries : List Registration}
    (h : g.nextRank + newcomers g entries < rankLimit) :
    g.enterCounted? overflow entries = some (g.enterAll entries) := by
  induction entries generalizing g with
  | nil => rfl
  | cons entry entries ih =>
      have hall := nextRank_enterAll g (entry :: entries)
      have hrest := nextRank_enterAll (g.enter entry) entries
      rw [enterAll_cons] at hall
      have hfits : (g.enter entry).nextRank < rankLimit := by omega
      rw [enterCounted?_cons, counted?_eq hfits, enterAll_cons]
      exact ih (by omega)

/-- The bound is exact: with checks, counting ends as soon as no rank is left. -/
theorem isSome_enterCounted?_stop_iff (hg : g.nextRank < rankLimit)
    {entries : List Registration} :
    (g.enterCounted? .stop entries).isSome = true
      ↔ g.nextRank + newcomers g entries < rankLimit := by
  refine ⟨fun h => ?_, fun h => by rw [enterCounted?_eq h, Option.isSome_some]⟩
  induction entries generalizing g with
  | nil => exact hg
  | cons entry entries ih =>
      have hall := nextRank_enterAll g (entry :: entries)
      have hrest := nextRank_enterAll (g.enter entry) entries
      rw [enterAll_cons] at hall
      rw [enterCounted?_cons, counted?] at h
      split at h
      · next hfits =>
          have hlater := ih hfits h
          omega
      · exact absurd h Bool.false_ne_true

/-- The newcomer that uses up the last rank ends the build, or the counter starts at 0 again. -/
theorem enterCounted?_last {before : List Registration} {entry : Registration}
    (hlast : g.nextRank + newcomers g before + 1 = rankLimit)
    (hnew : (g.enterAll before).rankOf? (entryOf entry) = none) :
    g.enterCounted? .stop (before ++ [entry]) = none ∧
      g.enterCounted? .wrap (before ++ [entry])
        = some { g.enterAll (before ++ [entry]) with nextRank := 0 } := by
  have hnext : ((g.enterAll before).enter entry).nextRank = rankLimit := by
    rw [(writes_enter _ entry).next, hnew, nextRank_enterAll, ← hlast]
    rfl
  have hfits : g.nextRank + newcomers g before < rankLimit := by omega
  have hover : ¬ ((g.enterAll before).enter entry).nextRank < rankLimit := by
    rw [hnext]
    exact Nat.lt_irrefl _
  rw [enterCounted?_append, enterCounted?_append, enterCounted?_eq hfits, enterCounted?_eq hfits,
    enterAll_append]
  constructor
  · show (counted? _ _).bind _ = _
    rw [counted?, if_neg hover]
    rfl
  · show (counted? _ _).bind _ = _
    rw [counted?, if_neg hover, hnext, Nat.mod_self]
    rfl

end

/-- An entry that is there before and after a registration is there throughout. -/
theorem stays_singleton {g : Grammar} {entry : Registration} {e : Entry}
    (hbefore : (g.rankOf? e).isSome = true) (hafter : ((g.enter entry).rankOf? e).isSome = true) :
    Stays g [entry] e := by
  intro made hmade
  rcases made with _ | ⟨first, made⟩
  · exact hbefore
  · rcases List.cons_prefix_cons.1 hmade with ⟨rfl, hnil⟩
    rw [List.prefix_nil.1 hnil]
    exact hafter

/-- As long as ranks are left, a build has made the registrations after each of them, and its
    grammar remembers them. -/
theorem remembers_enterCounted (mode : DarkMode) {entries : List Registration}
    (h : reservedRanks + newcomers (Grammar.default.withDarkMode mode) entries < rankLimit)
    (overflow : Overflow) {made : List Registration} (hmade : made <+: entries) :
    ∃ g, (Grammar.default.withDarkMode mode).enterCounted? overflow made = some g ∧
      g = (Grammar.default.withDarkMode mode).enterAll made ∧ g.nextRank < rankLimit ∧
      Remembers (Grammar.default.withDarkMode mode) made := by
  have hstart : (Grammar.default.withDarkMode mode).nextRank = reservedRanks := nextRank_default
  have hle := newcomers_le_of_prefix (Grammar.default.withDarkMode mode) hmade
  have hfits : (Grammar.default.withDarkMode mode).nextRank
      + newcomers (Grammar.default.withDarkMode mode) made < rankLimit := by omega
  refine ⟨_, enterCounted?_eq hfits, rfl, ?_, remembers_enterAll mode made⟩
  rw [nextRank_enterAll]
  exact hfits

end Grammar

namespace Layered

/-- The default grammar. -/
def start : Grammar := Grammar.default.withDarkMode .media

/-- A static rule in some layer. -/
def btn (layer : Layer) : StaticRule := ⟨"btn", [⟨"color", "red"⟩], layer⟩

/-- Another static rule. -/
def card : StaticRule := ⟨"card", [⟨"color", "blue"⟩], .utilities⟩

/-- The first rule is registered behind the other one in the base layer, and again among the
    utilities. -/
def moved : List Registration := [.static card, .static (btn .base), .static (btn .utilities)]

/-- The grammar with both rules. -/
def first : Grammar := (start.enter (.static card)).enter (.static (btn .base))

/-- The grammar with the first rule registered again. -/
def second : Grammar := first.enter (.static (btn .utilities))

/-- A static rule with a number in its name. -/
def numberedRule (i : Nat) : Registration := .static ⟨"n" ++ Nat.repr i, [], .utilities⟩

/-- Static rules that are told apart by numbers. -/
def numbered (n : Nat) : List Registration := (List.range n).map numberedRule

theorem newcomers_moved : Grammar.newcomers start moved = 2 := by decide +kernel

theorem lt_rankLimit :
    Grammar.reservedRanks + Grammar.newcomers start moved < Grammar.rankLimit := by
  rw [newcomers_moved]
  decide

/-- The rule that was registered last is found, and the next rank is left. -/
theorem remembers_enterCounted_moved :
    Grammar.reservedRanks + Grammar.newcomers start moved < Grammar.rankLimit ∧
      ∃ g, start.enterCounted? .wrap moved = some g ∧ g.nextRank < Grammar.rankLimit ∧
        (g.staticRule? "btn").map Ranked.item = some (btn .utilities) := by
  rcases Grammar.remembers_enterCounted .media lt_rankLimit .wrap List.prefix_rfl with
    ⟨g, hrun, hg, hnext, hremembers⟩
  refine ⟨lt_rankLimit, g, hrun, hnext, ?_⟩
  have hnone : ∀ entry ∈ ([] : List Registration), entry.name ≠ "btn" := fun _ hentry =>
    absurd hentry List.not_mem_nil
  rw [hg]
  exact hremembers.static [.static card, .static (btn .base)] (btn .utilities) [] rfl hnone

theorem name_injective {i j : Nat} (h : "n" ++ Nat.repr i = "n" ++ Nat.repr j) : i = j := by
  have hdigits : Nat.toDigits 10 i = Nat.toDigits 10 j := by
    have hlists := congrArg String.toList h
    rw [String.toList_append, String.toList_append, Nat.toList_repr, Nat.toList_repr] at hlists
    exact List.append_cancel_left hlists
  rw [← Nat.ofDigitChars_ten_toDigits (n := i), hdigits, Nat.ofDigitChars_ten_toDigits]

theorem nodup_entryOf_numbered (n : Nat) : ((numbered n).map Grammar.entryOf).Nodup := by
  rw [numbered, List.map_map]
  refine List.nodup_range.map fun i j h => ?_
  exact name_injective (Grammar.Entry.static.inj h)

theorem rankOf?_start (name : String) : start.rankOf? (.static name) = none := by
  have hstatics : start.statics = SortedMap.empty := by
    rw [start, Grammar.withDarkMode]
    dsimp only
    rw [Grammar.statics_default]
  rw [Grammar.rankOf?, hstatics]
  rfl

/-- All of them are new. -/
theorem newcomers_numbered (n : Nat) : Grammar.newcomers start (numbered n) = n := by
  rw [Grammar.newcomers_eq_length start (nodup_entryOf_numbered n), numbered, List.length_map,
    List.length_range]
  intro entry hentry
  rcases List.mem_map.1 hentry with ⟨i, -, rfl⟩
  exact rankOf?_start _

theorem numbered_succ (n : Nat) : numbered (n + 1) = numbered n ++ [numberedRule n] := by
  rw [numbered, List.range_succ, List.map_append]
  rfl

/-- One static rule too many: a build that checks ends, and in one that does not the utilities have
    ranks that are not below the next one. -/
theorem enterCounted?_numbered {n : Nat}
    (hn : Grammar.reservedRanks + n + 1 = Grammar.rankLimit) :
    start.enterCounted? .stop (numbered (n + 1)) = none ∧
      ∃ g rank, start.enterCounted? .wrap (numbered (n + 1)) = some g ∧
        g.rankOf? (.utility "p") = some rank ∧ ¬rank < g.nextRank := by
  have hstart : start.nextRank = Grammar.reservedRanks := Grammar.nextRank_default
  -- There would be one newcomer less if the last name were there.
  have hnew : (start.enterAll (numbered n)).rankOf? (Grammar.entryOf (numberedRule n)) = none := by
    have hcount := newcomers_numbered (n + 1)
    rw [numbered_succ, Grammar.newcomers_append, newcomers_numbered, Grammar.newcomers] at hcount
    by_contra hsome
    rw [if_pos (Option.isSome_iff_ne_none.2 hsome)] at hcount
    exact absurd hcount (Nat.ne_of_lt (Nat.lt_succ_self n))
  have hp : ∃ rank, start.rankOf? (.utility "p") = some rank :=
    Option.isSome_iff_exists.1 (by decide +kernel)
  rcases hp with ⟨rank, hp⟩
  have hlast : start.nextRank + Grammar.newcomers start (numbered n) + 1 = Grammar.rankLimit := by
    rw [hstart, newcomers_numbered, hn]
  have hutility : (start.enterAll (numbered (n + 1))).utility? "p" = start.utility? "p" := by
    refine Grammar.utility?_enterAll fun u hu => ?_
    rcases List.mem_map.1 hu with ⟨i, -, heq⟩
    cases heq
  rcases Grammar.enterCounted?_last hlast hnew with ⟨hstop, hwrap⟩
  rw [← numbered_succ] at hstop hwrap
  refine ⟨hstop, _, rank, hwrap, ?_, Nat.not_lt_zero rank⟩
  exact (congrArg (Option.map Ranked.rank) hutility).trans hp

/-- The first rule comes before the other one in a stylesheet. -/
def isBtnFirst? (g : Grammar) : Option Bool := do
  let r ← (⟨Theme.default, g⟩ : Design).ruleOf? "btn"
  let r' ← (⟨Theme.default, g⟩ : Design).ruleOf? "card"
  return r.precedes r'

theorem isBtnFirst?_first : isBtnFirst? first = some true ∧ isBtnFirst? second = some false := by
  decide +kernel

theorem rankOf?_first : first.rankOf? (.static "btn") = some 57 ∧
    first.rankOf? (.static "card") = some 56 ∧ second.rankOf? (.static "btn") = some 57 ∧
    second.rankOf? (.static "card") = some 56 := by decide +kernel

theorem layer?_first : first.layer? (.static "btn") = some .base ∧
    first.layer? (.static "card") = some .utilities ∧
    second.layer? (.static "btn") = some .utilities ∧
    second.layer? (.static "card") = some .utilities := by decide +kernel

/-- Too many names for the counter, though fewer than it has numbers; and a rule that another one
    overtakes in the cascade when it is registered again for another layer, though both are there
    throughout. -/
theorem not_remembers_moved :
    ((numbered (Grammar.rankLimit - Grammar.reservedRanks)).length < Grammar.rankLimit ∧
      start.enterCounted? .stop (numbered (Grammar.rankLimit - Grammar.reservedRanks)) = none ∧
      ∃ g rank, start.enterCounted? .wrap (numbered (Grammar.rankLimit - Grammar.reservedRanks))
          = some g ∧ g.rankOf? (.utility "p") = some rank ∧ ¬rank < g.nextRank) ∧
    first.Stays [.static (btn .utilities)] (.static "btn") ∧
    first.Stays [.static (btn .utilities)] (.static "card") ∧
    first.ComesBefore (.static "btn") (.static "card") ∧
    second.ComesBefore (.static "card") (.static "btn") ∧
    isBtnFirst? first = some true ∧ isBtnFirst? second = some false := by
  have hlength :
      (numbered (Grammar.rankLimit - Grammar.reservedRanks)).length < Grammar.rankLimit := by
    rw [numbered, List.length_map, List.length_range]
    decide
  have hlast : ∃ n, Grammar.reservedRanks + n + 1 = Grammar.rankLimit :=
    ⟨Grammar.rankLimit - Grammar.reservedRanks - 1, by decide⟩
  rcases hlast with ⟨n, hn⟩
  have hcount : Grammar.rankLimit - Grammar.reservedRanks = n + 1 := by omega
  refine ⟨⟨hlength, ?_⟩, ?_⟩
  · rw [hcount]
    exact enterCounted?_numbered hn
  · rcases rankOf?_first with ⟨hbtn, hcard, hbtn', hcard'⟩
    rcases layer?_first with ⟨hbase, hutilities, hmoved, hutilities'⟩
    refine ⟨Grammar.stays_singleton (Option.isSome_of_mem hbtn) (Option.isSome_of_mem hbtn'),
      Grammar.stays_singleton (Option.isSome_of_mem hcard) (Option.isSome_of_mem hcard'), ?_, ?_,
      isBtnFirst?_first⟩
    · exact ⟨_, _, _, _, hbase, hutilities, hbtn, hcard, .inl (by decide)⟩
    · exact ⟨_, _, _, _, hutilities', hmoved, hcard', hbtn', .inr ⟨rfl, by decide⟩⟩

end Layered

end UtilityCss

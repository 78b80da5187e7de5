import Mathlib.Data.List.Chain
import UtilityCss.Proofs.Theme.Breakpoints
import UtilityCss.Proofs.Variant

/-!
# Ranks of At-Rules

Whether two variants that wrap a rule in an at-rule can be told apart by their ranks.

There are two kinds of them, and each is ranked in itself. Breakpoints have their places in a
list that ascends by width, counted from one, so two of them have different ranks and the
narrower one has the smaller rank. The dark mode and the media features have the places of
their names in a table, counted from `firstMediaRank`.

Between the kinds nothing but that number keeps the ranks apart, and a theme can have as many
breakpoints as its configuration names. So the breakpoints come before the media features
exactly if there are fewer of them than the rank of the first media feature that the theme
does not shadow. Below `firstMediaRank` that always holds. `Crowded.theme` has a thousand
breakpoints, and there the last of them has the rank of the dark mode.

## Main definitions

* `Variant.mediaNames`: The names of at-rules that are no breakpoints, in their order.
* `Variant.RanksApart`: At-rules have different ranks, and breakpoints come first.
* `Crowded.theme`: A theme with a thousand breakpoints.

## Theorems

* `rank_lt_rank_iff`: Breakpoints are ranked by their order.
* `screen?_of_mem`: A breakpoint is found under its name.
* `ofName?_eq_atRule`: Where an at-rule has its rank from.
* `ranksApart_iff`: When ranks are kept apart.
* `not_ranksApart_theme`: A breakpoint with the rank of the dark mode.
-/

namespace UtilityCss

namespace Screen

theorem isBefore_iff {a b : Screen} :
    a.IsBefore b ↔ (pixels a.minWidth).orderKey < (pixels b.minWidth).orderKey ∨
      pixels a.minWidth = pixels b.minWidth ∧ a.name < b.name := by
  constructor
  · rintro ⟨x, y, hx, hy, h⟩
    rw [isWidth_iff.1 hx, isWidth_iff.1 hy]
    exact h
  · intro h
    exact ⟨_, _, isWidth_iff.2 rfl, isWidth_iff.2 rfl, h⟩

theorem IsBefore.asymm {a b : Screen} (h : a.IsBefore b) : ¬ b.IsBefore a := by
  intro h'
  rw [isBefore_iff] at h h'
  rcases h with h | ⟨heq, h⟩ <;> rcases h' with h' | ⟨heq', h'⟩
  · omega
  · rw [heq'] at h
    omega
  · rw [heq] at h'
    omega
  · exact absurd (String.lt_trans h h') (String.lt_irrefl _)

end Screen

namespace Theme

variable (t : Theme) {s s' : Screen}

theorem rank_of_getElem? {i : Nat} (h : t.screens[i]? = some s) : s.rank = i + 1 := by
  have hranks : t.screens.map Screen.rank = List.range' 1 t.screens.length := by
    rw [screens_eq_ranked]
    exact Screen.map_rank_ranked _
  have hi : i < t.screens.length := (List.getElem?_eq_some_iff.1 h).1
  have hrank : (t.screens.map Screen.rank)[i]? = some s.rank := by
    rw [List.getElem?_map, h, Option.map_some]
  rw [hranks, List.getElem?_range' hi] at hrank
  have heq := Option.some.inj hrank
  omega

theorem rank_le_length (hs : s ∈ t.screens) : s.rank ≤ t.screens.length := by
  rcases List.mem_iff_getElem?.1 hs with ⟨i, hi⟩
  have hlt : i < t.screens.length := (List.getElem?_eq_some_iff.1 hi).1
  rw [rank_of_getElem? t hi]
  omega

theorem eq_of_rank_eq (hs : s ∈ t.screens) (hs' : s' ∈ t.screens) (h : s.rank = s'.rank) :
    s = s' := by
  rcases List.mem_iff_getElem?.1 hs with ⟨i, hi⟩
  rcases List.mem_iff_getElem?.1 hs' with ⟨j, hj⟩
  have hij : i = j := by
    rw [rank_of_getElem? t hi, rank_of_getElem? t hj] at h
    omega
  rw [hij, hj] at hi
  exact (Option.some.inj hi).symm

/-- Breakpoints are ranked by their order. -/
theorem rank_lt_rank_iff (hs : s ∈ t.screens) (hs' : s' ∈ t.screens) :
    s.rank < s'.rank ↔ s.IsBefore s' := by
  have hsorted : t.screens.Pairwise Screen.IsBefore := by
    rw [screens_eq_ranked]
    exact Screen.pairwise_ranked _
  -- Ranks are places in the sorted list.
  have hforward : ∀ {a b : Screen}, a ∈ t.screens → b ∈ t.screens → a.rank < b.rank →
      a.IsBefore b := by
    intro a b ha hb hlt
    rcases List.mem_iff_getElem?.1 ha with ⟨i, hi⟩
    rcases List.mem_iff_getElem?.1 hb with ⟨j, hj⟩
    rw [rank_of_getElem? t hi, rank_of_getElem? t hj] at hlt
    rcases List.getElem?_eq_some_iff.1 hi with ⟨hilt, rfl⟩
    rcases List.getElem?_eq_some_iff.1 hj with ⟨hjlt, rfl⟩
    exact List.pairwise_iff_getElem.1 hsorted i j hilt hjlt (by omega)
  constructor
  · exact hforward hs hs'
  · intro h
    by_contra hle
    rcases Nat.lt_or_eq_of_le (Nat.le_of_not_lt hle) with hlt | heq
    · exact h.asymm (hforward hs' hs hlt)
    · rw [eq_of_rank_eq t hs' hs heq] at h
      exact h.asymm h

/-- A breakpoint is found under its name. -/
theorem screen?_of_mem (hs : s ∈ t.screens) : t.screen? s.name = some s := by
  have hwidth : t.get? screensAxis s.name = some s.minWidth :=
    (get?_screensAxis_iff t s.name s.minWidth).2 ⟨s, hs, rfl, rfl⟩
  have hsome : (t.screen? s.name).isSome = true := by
    rw [isSome_screen?, hwidth]
    rfl
  rcases Option.isSome_iff_exists.1 hsome with ⟨s', hs'⟩
  rcases screen?_eq_some t hs' with ⟨hname, hwidth'⟩
  have hmem : s' ∈ t.screens := List.mem_of_find?_eq_some hs'
  have hminWidth : s'.minWidth = s.minWidth := Option.some.inj (hwidth'.symm.trans hwidth)
  -- Two breakpoints of one name and one width are not before each other.
  have hnot : ∀ {a b : Screen}, a.name = b.name → a.minWidth = b.minWidth → ¬ a.IsBefore b := by
    intro a b hname hminWidth h
    rw [Screen.isBefore_iff, hname, hminWidth] at h
    rcases h with h | ⟨-, h⟩
    · omega
    · exact String.lt_irrefl _ h
  have hrank : s'.rank = s.rank := by
    rcases Nat.lt_trichotomy s'.rank s.rank with hlt | heq | hlt
    · exact absurd ((rank_lt_rank_iff t hmem hs).1 hlt) (hnot hname hminWidth)
    · exact heq
    · exact absurd ((rank_lt_rank_iff t hs hmem).1 hlt) (hnot hname.symm hminWidth.symm)
  rw [hs', eq_of_rank_eq t hmem hs hrank]

end Theme

namespace Variant

/-- The names of the at-rules that are no breakpoints, in the order of their ranks. -/
def mediaNames : List String := "dark" :: mediaFeatures.map Prod.fst

variable {theme : Theme} {mode : DarkMode} {name rule : String} {rank : Nat}

theorem fixed?_eq_atRule (h : fixed? name = some (.atRule rule rank)) :
    ofMediaFeature? name (firstMediaRank + 1) mediaFeatures = some (.atRule rule rank) := by
  simp only [fixed?, Option.orElse_eq_orElse, Option.orElse_eq_or, Option.or_eq_some_iff] at h
  rcases h with h | ⟨-, h | ⟨-, h | ⟨-, h | ⟨-, h⟩⟩⟩⟩
  · exact h
  -- The other tables hold no at-rules.
  · rcases Option.map_eq_some_iff.1 h with ⟨text, -, htext⟩
    cases htext
  · rcases Option.map_eq_some_iff.1 h with ⟨text, -, htext⟩
    cases htext
  · rcases ofRelative?_eq_some h with ⟨p, -, hp⟩
    cases hp
  · rcases ofRelative?_eq_some h with ⟨p, -, hp⟩
    cases hp

/-- An at-rule has the rank of a breakpoint, or of the place of its name in the table. -/
theorem ofName?_eq_atRule (h : ofName? theme mode name = some (.atRule rule rank)) :
    (∃ s, theme.screen? name = some s ∧ rank = s.rank) ∨
      theme.screen? name = none ∧ ∃ i, mediaNames[i]? = some name ∧ rank = firstMediaRank + i := by
  unfold ofName? at h
  split at h
  · next s hs =>
      cases h
      exact Or.inl ⟨s, hs, rfl⟩
  · next hnone =>
      refine Or.inr ⟨hnone, ?_⟩
      -- The dark mode is the first name of the table, and the other media features follow.
      by_cases hdark : name = "dark"
      · rw [if_pos hdark] at h
        refine ⟨0, by rw [hdark]; rfl, ?_⟩
        cases mode with
        | media =>
            cases h
            rfl
        | byClass => cases h
      · rw [if_neg hdark] at h
        rcases ofMediaFeature?_eq_some (fixed?_eq_atRule h) with ⟨i, rule', hi, hv⟩
        cases hv
        refine ⟨i + 1, ?_, by omega⟩
        rw [mediaNames, List.getElem?_cons_succ, List.getElem?_map, hi, Option.map_some]

/-- At-rules have different ranks, and breakpoints come before the others. -/
structure RanksApart (theme : Theme) (mode : DarkMode) : Prop where
  /-- Different names have different ranks. -/
  distinct : ∀ {name name' rule rule' : String} {rank rank' : Nat},
    ofName? theme mode name = some (.atRule rule rank) →
    ofName? theme mode name' = some (.atRule rule' rank') → name ≠ name' → rank ≠ rank'
  /-- A breakpoint has a smaller rank than what is none. -/
  first : ∀ {name name' rule rule' : String} {rank rank' : Nat},
    ofName? theme mode name = some (.atRule rule rank) →
    ofName? theme mode name' = some (.atRule rule' rank') →
    (theme.screen? name).isSome = true → (theme.screen? name').isSome = false → rank < rank'

/-- Two names of one kind have different ranks. -/
theorem rank_ne_rank {name' rule' : String} {rank' : Nat}
    (h : ofName? theme mode name = some (.atRule rule rank))
    (h' : ofName? theme mode name' = some (.atRule rule' rank'))
    (hkind : (theme.screen? name).isSome = (theme.screen? name').isSome) (hne : name ≠ name') :
    rank ≠ rank' := by
  intro hrank
  -- Within the breakpoints, and within the table, a rank belongs to one name.
  rcases ofName?_eq_atRule h with ⟨s, hs, hrank₁⟩ | ⟨hs, i, hi, hrank₁⟩ <;>
    rcases ofName?_eq_atRule h' with ⟨s', hs', hrank₂⟩ | ⟨hs', j, hj, hrank₂⟩
  · have hsame : s = s' := Theme.eq_of_rank_eq theme (List.mem_of_find?_eq_some hs)
      (List.mem_of_find?_eq_some hs') (by omega)
    have hname := (Theme.screen?_eq_some theme hs).1
    have hname' := (Theme.screen?_eq_some theme hs').1
    exact hne (by rw [← hname, ← hname', hsame])
  · rw [hs, hs'] at hkind
    cases hkind
  · rw [hs, hs'] at hkind
    cases hkind
  · have hij : i = j := by omega
    rw [hij, hj] at hi
    exact hne (Option.some.inj hi).symm

/-- The breakpoints are fewer than the rank of everything that is not shadowed by one. -/
def LeavesRoom (theme : Theme) (mode : DarkMode) : Prop :=
  ∀ {name rule : String} {rank : Nat}, theme.screen? name = none →
    ofName? theme mode name = some (.atRule rule rank) → theme.screens.length < rank

theorem leavesRoom_of_ranksApart (h : RanksApart theme mode) : LeavesRoom theme mode := by
  intro name rule rank hnone hname
  by_contra hle
  -- Otherwise there is a breakpoint of the very rank.
  have hpos : 0 < rank := by
    rcases ofName?_eq_atRule hname with ⟨s, hs, -⟩ | ⟨-, i, -, hrank⟩
    · rw [hnone] at hs
      cases hs
    · rw [hrank, firstMediaRank]
      omega
  have hlt : rank - 1 < theme.screens.length := by omega
  have hs := List.getElem?_eq_getElem hlt
  generalize theme.screens[rank - 1] = s at hs
  have hrank := Theme.rank_of_getElem? theme hs
  have hfound := Theme.screen?_of_mem theme (List.mem_of_getElem? hs)
  have hscreen : ofName? theme mode s.name = some (ofScreen s) := by
    rw [ofName?, hfound]
  have hlt' : s.rank < rank := by
    refine h.first hscreen hname ?_ ?_
    · rw [hfound]
      rfl
    · rw [hnone]
      rfl
  omega

theorem ranksApart_of_leavesRoom (h : LeavesRoom theme mode) : RanksApart theme mode := by
  have hfirst : ∀ {name name' rule rule' : String} {rank rank' : Nat},
      ofName? theme mode name = some (.atRule rule rank) →
      ofName? theme mode name' = some (.atRule rule' rank') →
      (theme.screen? name).isSome = true → (theme.screen? name').isSome = false →
      rank < rank' := by
    intro name name' rule rule' rank rank' hname hname' hsome hnone
    have hroom := h (Option.isNone_iff_eq_none.1 (by rw [← Option.not_isSome, hnone]; rfl)) hname'
    rcases ofName?_eq_atRule hname with ⟨s, hs, hrank⟩ | ⟨hs, -⟩
    · have hle := Theme.rank_le_length theme (List.mem_of_find?_eq_some hs)
      omega
    · rw [hs] at hsome
      cases hsome
  refine ⟨?_, hfirst⟩
  intro name name' rule rule' rank rank' hname hname' hne
  -- Of two kinds the breakpoint comes first.
  by_cases hkind : (theme.screen? name).isSome = (theme.screen? name').isSome
  · exact rank_ne_rank hname hname' hkind hne
  · rcases Bool.eq_false_or_eq_true (theme.screen? name).isSome with hsome | hsome
    · have hnone : (theme.screen? name').isSome = false := by
        rw [hsome] at hkind
        exact eq_false_of_ne_true fun heq => hkind heq.symm
      exact Nat.ne_of_lt (hfirst hname hname' hsome hnone)
    · have hsome' : (theme.screen? name').isSome = true := by
        rw [hsome] at hkind
        exact eq_true_of_ne_false fun heq => hkind heq.symm
      exact Nat.ne_of_gt (hfirst hname' hname hsome' hsome)

theorem leavesRoom_of_lt (h : theme.screens.length < firstMediaRank) : LeavesRoom theme mode := by
  intro name rule rank hnone hname
  rcases ofName?_eq_atRule hname with ⟨s, hs, -⟩ | ⟨-, i, -, hrank⟩
  · rw [hnone] at hs
    cases hs
  · omega

/-- Within a kind, different names have different ranks. All ranks are kept apart exactly if
    the breakpoints leave room for the others, and fewer than `firstMediaRank` of them do. -/
theorem ranksApart_iff (theme : Theme) (mode : DarkMode) :
    (∀ {name name' rule rule' : String} {rank rank' : Nat},
      ofName? theme mode name = some (.atRule rule rank) →
      ofName? theme mode name' = some (.atRule rule' rank') →
      (theme.screen? name).isSome = (theme.screen? name').isSome → name ≠ name' →
      rank ≠ rank') ∧
    (RanksApart theme mode ↔ LeavesRoom theme mode) ∧
    (theme.screens.length < firstMediaRank → RanksApart theme mode) := by
  refine ⟨rank_ne_rank, ⟨leavesRoom_of_ranksApart, ranksApart_of_leavesRoom⟩, ?_⟩
  intro h
  exact ranksApart_of_leavesRoom (leavesRoom_of_lt h)

end Variant

namespace Crowded

/-- The decimal digits. -/
def digits : List Char := ['0', '1', '2', '3', '4', '5', '6', '7', '8', '9']

/-- A thousand names, ascending. -/
def names : List (List Char) :=
  digits.flatMap fun a => digits.flatMap fun b => digits.map fun c => ['s', a, b, c]

theorem pairwise_names : names.Pairwise (· < ·) := by
  have hchain : names.IsChain (· < ·) := by decide +kernel
  exact List.isChain_iff_pairwise.1 hchain

/-- A thousand breakpoints of one width. -/
def scale : Scale where
  entries := names.map fun name => (String.ofList name, "1px")
  sorted := by
    refine List.pairwise_map.2 (pairwise_names.imp fun {a b} h => ?_)
    show (String.ofList a).toList < (String.ofList b).toList
    rw [String.toList_ofList, String.toList_ofList]
    exact h

/-- The theme that has these breakpoints and nothing else. -/
def theme : Theme := Theme.empty.setAxis Theme.screensAxis scale

theorem axis?_theme : theme.axis? Theme.screensAxis = some scale := by
  rw [theme, Theme.axis?_setAxis, if_pos rfl]

-- Breakpoints of one width stand in the order of their names.
theorem map_entry_screens : theme.screens.map Screen.entry = scale.entries := by
  have hsorted : scale.entries.Pairwise fun a b => Screen.precedes a b = true := by
    refine scale.sorted.imp_of_mem fun {a b} ha hb hlt => ?_
    rcases List.mem_map.1 ha with ⟨name, -, rfl⟩
    rcases List.mem_map.1 hb with ⟨name', -, rfl⟩
    exact Screen.precedes_iff.2 (Or.inr ⟨rfl, Std.le_of_lt hlt⟩)
  rw [Theme.screens_eq_ranked, axis?_theme, Option.getD_some, Screen.ranked,
    List.mergeSort_of_pairwise hsorted, Screen.map_entry_rankFrom]

theorem screen?_last : theme.screen? "s999" = some ⟨"s999", "1px", 1000⟩ := by
  have hname : names[999]? = some ['s', '9', '9', '9'] := by decide +kernel
  have hentry : (theme.screens.map Screen.entry)[999]? = some ("s999", "1px") := by
    rw [map_entry_screens, scale, List.getElem?_map, hname]
    rfl
  rw [List.getElem?_map] at hentry
  rcases Option.map_eq_some_iff.1 hentry with ⟨s, hs, heq⟩
  have hrank : s.rank = 1000 := Theme.rank_of_getElem? theme hs
  have hfound := Theme.screen?_of_mem theme (List.mem_of_getElem? hs)
  rcases s with ⟨name, minWidth, rank⟩
  rcases Prod.mk.inj heq with ⟨rfl, rfl⟩
  cases hrank
  exact hfound

theorem screen?_dark : theme.screen? "dark" = none := by
  have hnames : ['d', 'a', 'r', 'k'] ∉ names := by decide +kernel
  have hentries : ∀ e ∈ scale.entries, e.1 ≠ "dark" := by
    intro e he heq
    rcases List.mem_map.1 he with ⟨name, hname, rfl⟩
    have htext : name = ['d', 'a', 'r', 'k'] := by
      have hlist := congrArg String.toList heq
      rw [String.toList_ofList] at hlist
      exact hlist
    exact hnames (htext ▸ hname)
  have hvalue : theme.get? Theme.screensAxis "dark" = none := by
    rw [← Theme.get?_axisD, axis?_theme, Option.getD_some]
    exact SortedMap.find?_eq_none hentries
  rw [← Option.isNone_iff_eq_none, ← Option.not_isSome, Theme.isSome_screen?, hvalue]
  rfl

/-- The last breakpoint has the rank of the dark mode, so ranks are not kept apart. -/
theorem not_ranksApart_theme :
    theme.screen? "dark" = none ∧
    (theme.screen? "s999").isSome = true ∧
    Variant.ofName? theme .media "s999" = some (.atRule "@media (min-width: 1px)" 1000) ∧
    Variant.ofName? theme .media "dark"
      = some (.atRule "@media (prefers-color-scheme: dark)" 1000) ∧
    ¬ Variant.RanksApart theme .media := by
  have hlast : Variant.ofName? theme .media "s999"
      = some (.atRule "@media (min-width: 1px)" 1000) := by
    rw [Variant.ofName?, screen?_last]
    rfl
  have hdark : Variant.ofName? theme .media "dark"
      = some (.atRule "@media (prefers-color-scheme: dark)" 1000) := by
    rw [Variant.ofName?, screen?_dark]
    rfl
  have hsome : (theme.screen? "s999").isSome = true := by
    rw [screen?_last]
    rfl
  refine ⟨screen?_dark, hsome, hlast, hdark, fun h => ?_⟩
  exact absurd rfl (h.distinct hlast hdark (by decide))

end Crowded

end UtilityCss

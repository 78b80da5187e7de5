import UtilityCss.Proofs.Containment.Plugin
import UtilityCss.Proofs.Grammar.History
import UtilityCss.Proofs.Token.Form

/-!
# The Names in a Grammar

The grammar of a configuration comes from registrations, and every name in it is one
that scanning knows.

Plugins are applied one after the other, and each of them registers what it
contributes in order. So the grammar of a configuration is the default one with a
list of registrations made, and everything that holds of such grammars holds of it.

A plugin is checked when it is made: the stems of its utilities and the names of its
static rules are lower-case words joined by hyphens. Scanning takes more than that for
a stem. The tables of the program keep to it as well, though nothing checks them, so
scanning never misses a class because of the name in front of its value.

## Main definitions

* `Plugin.registrations`: What a plugin registers, in order.
* `Grammar.IsNamed`: The names in a grammar are stems for scanning.

## Theorems

* `isStem_of_isName`: A checked name is a stem for scanning.
* `grammar_apply`, `grammar_of_applyAll`: Applying plugins is registering.
* `isNamed_enterAll`: Registering stems keeps the names stems.
* `exists_enterAll_of_ofConfig`: The grammar of a configuration.
* `isNamed_of_ofConfig`, `reachable_of_ofConfig`: What holds of it.
-/

namespace UtilityCss

open Token (isStem)

theorem PluginName.isStemChar_of_isWordChar {c : Char} (h : isWordChar c = true) :
    Token.isStemChar c = true := by
  rw [isWordChar, Bool.or_eq_true] at h
  rcases h with h | h
  · exact Token.isStemChar_of_isLower h
  · exact Token.isStemChar_of_isDigit h

/-- A checked name is a stem for scanning. -/
theorem PluginName.isStem_of_isName {cs : List Char} (h : isName cs = true) :
    isStem cs = true := by
  rcases isNameForm_of_isName h with ⟨first, rest, words, hfirst, hrest, hwords, rfl⟩
  rw [List.cons_append, isStem, hfirst, Bool.true_and, List.all_append, Bool.and_eq_true,
    List.all_eq_true, List.all_eq_true]
  refine ⟨fun c hc => isStemChar_of_isWordChar (List.all_eq_true.1 hrest c hc), fun c hc => ?_⟩
  -- Behind the first word there are hyphens and further words.
  rcases List.mem_flatMap.1 hc with ⟨w, hw, hc⟩
  rcases List.mem_cons.1 hc with rfl | hc
  · decide
  · exact isStemChar_of_isWordChar (List.all_eq_true.1 (hwords w hw).2 c hc)

namespace Plugin

/-- What the plugin registers, in order. -/
def registrations (p : Plugin) : List Registration :=
  match p.contribution with
  | .utilities us => us.map .utility
  | .statics rs => rs.map .static
  | .theme _ => []

/-- Applying a plugin is registering what it contributes. -/
theorem grammar_apply (d : Design) (p : Plugin) :
    (p.apply d).1.grammar = d.grammar.enterAll p.registrations := by
  rcases p with ⟨name, us | rs | steps⟩
  · change us.foldl Grammar.register d.grammar = (us.map .utility).foldl Grammar.enter d.grammar
    rw [List.foldl_map]
    rfl
  · change rs.foldl Grammar.registerStatic d.grammar
      = (rs.map .static).foldl Grammar.enter d.grammar
    rw [List.foldl_map]
    rfl
  · rfl

theorem grammar_of_applyAll {d d' : Design} {ps : List Plugin} (h : applyAll d ps = .ok d') :
    d'.grammar = d.grammar.enterAll (ps.flatMap registrations) := by
  induction ps generalizing d with
  | nil =>
      rw [← Except.ok.inj h]
      rfl
  | cons p ps ih =>
      have hstep := grammar_apply d p
      rw [applyAll] at h
      split at h
      · next d₁ happly =>
          rw [happly] at hstep
          rw [ih h, hstep, List.flatMap_cons, Grammar.enterAll_append]
      · simp only [reduceCtorEq] at h

theorem isStem_of_utility {spec : UtilitySpec} {u : Utility} (h : utility spec = .ok u) :
    isStem u.stem.toList = true := by
  rcases utility_eq_ok h with ⟨values, extra, -, -, -, rfl⟩
  unfold utility at h
  rcases bind_eq_ok h with ⟨⟨⟩, hname, -⟩
  exact PluginName.isStem_of_isName (eq_true_of_check hname)

theorem isStem_of_staticRule {layer : Layer} {spec : String × List (String × String)}
    {r : StaticRule} (h : staticRule layer spec = .ok r) : isStem r.name.toList = true := by
  unfold staticRule at h
  rcases bind_eq_ok h with ⟨⟨⟩, hname, h⟩
  rcases bind_eq_ok h with ⟨-, -, h⟩
  rcases bind_eq_ok h with ⟨declarations, -, h⟩
  rw [← Except.ok.inj h]
  exact PluginName.isStem_of_isName (eq_true_of_check hname)

theorem isStem_of_mem_allBundled :
    ∀ p ∈ allBundled, ∀ entry ∈ p.registrations, isStem entry.name.toList = true := by
  decide +kernel

theorem isStem_of_contributionOf {spec : PluginSpec} {c : Contribution}
    (h : contributionOf spec = .ok c) (name : String) :
    ∀ entry ∈ registrations ⟨name, c⟩, isStem entry.name.toList = true := by
  cases spec with
  | utilities us =>
      rcases map_eq_ok h with ⟨us', hus, rfl⟩
      intro entry hentry
      rcases List.mem_map.1 hentry with ⟨u, hu, rfl⟩
      rcases mem_of_mapM_eq_ok hus hu with ⟨spec, -, hspec⟩
      exact isStem_of_utility hspec
  | statics layer rules =>
      rcases map_eq_ok h with ⟨rules', hrules, rfl⟩
      intro entry hentry
      rcases List.mem_map.1 hentry with ⟨r, hr, rfl⟩
      rcases mem_of_mapM_eq_ok hrules hr with ⟨spec, -, hspec⟩
      exact isStem_of_staticRule hspec
  | theme steps =>
      rcases map_eq_ok h with ⟨steps', -, rfl⟩
      exact fun entry hentry => absurd hentry List.not_mem_nil

/-- A plugin that passed its checks registers stems only. -/
theorem isStem_of_ofRef {ref : PluginRef} {p : Plugin} (h : ofRef ref = .ok p) :
    ∀ entry ∈ p.registrations, isStem entry.name.toList = true := by
  rcases ofRef_eq_ok h with hbundled | ⟨spec, hspec⟩
  · exact isStem_of_mem_allBundled p hbundled
  · exact isStem_of_contributionOf hspec p.name

end Plugin

namespace Grammar

/-- The names in the grammar are stems for scanning. -/
structure IsNamed (g : Grammar) : Prop where
  base : ∀ name declarations, g.base.get? name = some declarations → isStem name.toList = true
  utilities : ∀ stem found, g.utilities.get? stem = some found → isStem stem.toList = true
  statics : ∀ name found, g.statics.get? name = some found → isStem name.toList = true

section

variable {g : Grammar} (h : g.IsNamed)
include h

theorem isNamed_place {u : Utility} (hu : isStem u.stem.toList = true) :
    (g.place u).IsNamed where
  base := h.base
  utilities := by
    intro stem found hfound
    rw [utilities_place] at hfound
    split at hfound
    · next hstem => exact hstem ▸ hu
    · exact h.utilities stem found hfound
  statics := h.statics

theorem isNamed_register {u : Utility} (hu : isStem u.stem.toList = true) :
    (g.register u).IsNamed where
  base := h.base
  utilities := (isNamed_place h hu).utilities
  statics := by
    intro name found hfound
    rw [statics_register] at hfound
    split at hfound
    · simp only [reduceCtorEq] at hfound
    · exact h.statics name found hfound

theorem isNamed_registerStatic {r : StaticRule} (hr : isStem r.name.toList = true) :
    (g.registerStatic r).IsNamed where
  base := h.base
  utilities := h.utilities
  statics := by
    intro name found hfound
    rw [statics_registerStatic] at hfound
    split at hfound
    · next hname => exact hname ▸ hr
    · exact h.statics name found hfound

theorem isStem_of_utility? {stem : String} {found : Ranked Utility}
    (hf : g.utility? stem = some found) : isStem stem.toList = true :=
  h.utilities stem found hf

theorem isStem_of_staticRule? {name : String} {found : Ranked StaticRule}
    (hf : g.staticRule? name = some found) : isStem name.toList = true := by
  unfold staticRule? at hf
  split at hf
  · next registered hregistered => exact h.statics name registered hregistered
  · split at hf
    · simp only [reduceCtorEq] at hf
    · rcases Option.map_eq_some_iff.1 hf with ⟨declarations, hdeclarations, -⟩
      exact h.base name declarations hdeclarations

end

/-- Registering stems keeps the names stems. -/
theorem isNamed_enterAll {g : Grammar} (h : g.IsNamed) {entries : List Registration}
    (hentries : ∀ entry ∈ entries, isStem entry.name.toList = true) :
    (g.enterAll entries).IsNamed := by
  induction entries generalizing g with
  | nil => exact h
  | cons entry entries ih =>
      have hname := hentries entry List.mem_cons_self
      have hstep : (g.enter entry).IsNamed := by
        cases entry with
        | utility u => exact isNamed_register h hname
        | static r => exact isNamed_registerStatic h hname
      exact ih hstep fun x hx => hentries x (List.mem_cons_of_mem _ hx)

theorem isNamed_foldl_place {g : Grammar} (h : g.IsNamed) {us : List Utility}
    (hus : ∀ u ∈ us, isStem u.stem.toList = true) : (us.foldl place g).IsNamed := by
  induction us generalizing g with
  | nil => exact h
  | cons u us ih =>
      exact ih (isNamed_place h (hus u List.mem_cons_self))
        fun u' hu' => hus u' (List.mem_cons_of_mem _ hu')

theorem isNamed_ofBase {rows : List (String × List Declaration)}
    (h : ∀ row ∈ rows, isStem row.1.toList = true) :
    (ofBase (SortedMap.ofList rows)).IsNamed where
  base := by
    intro name declarations hget
    -- What is found comes from one of the rows.
    have hfind : (SortedMap.ofList rows).get? name = _ :=
      SortedMap.get?_insertMany SortedMap.empty rows name
    have hnone : (SortedMap.empty : SortedMap (List Declaration)).get? name = none := rfl
    have hrow : (SortedMap.ofList rows).get? name = some declarations := hget
    rw [hfind, hnone, Option.or_none] at hrow
    exact h _ (List.mem_reverse.1 (SortedMap.mem_of_find? hrow))
  utilities := by
    intro stem found hget
    simp only [ofBase, SortedMap.get?, SortedMap.empty, SortedMap.find?, reduceCtorEq] at hget
  statics := by
    intro name found hget
    simp only [ofBase, SortedMap.get?, SortedMap.empty, SortedMap.find?, reduceCtorEq] at hget

theorem isNamed_default : Grammar.default.IsNamed := by
  -- The names stand in two tables.
  have hstatics : ∀ r ∈ DefaultGrammar.statics, isStem r.1.toList = true := by decide +kernel
  have hutilities : ∀ u ∈ DefaultGrammar.utilities, isStem u.stem.toList = true := by
    decide +kernel
  unfold Grammar.default
  exact isNamed_foldl_place (isNamed_ofBase hstatics) hutilities

theorem isNamed_withDarkMode {g : Grammar} (h : g.IsNamed) (mode : DarkMode) :
    (g.withDarkMode mode).IsNamed :=
  ⟨h.base, h.utilities, h.statics⟩

theorem reachable_enterAll {g : Grammar} (h : g.Reachable) (entries : List Registration) :
    (g.enterAll entries).Reachable := by
  induction entries generalizing g with
  | nil => exact h
  | cons entry entries ih => exact ih (h.enter entry)

end Grammar

namespace Design

variable {config : Config} {d : Design} (h : ofConfig config = .ok d)
include h

/-- The grammar of a configuration is the default one with stems registered. -/
theorem exists_enterAll_of_ofConfig :
    ∃ entries, d.grammar = (Grammar.default.withDarkMode config.darkMode).enterAll entries ∧
      ∀ entry ∈ entries, isStem entry.name.toList = true := by
  unfold ofConfig at h
  rcases bind_eq_ok h with ⟨theme, -, h⟩
  rcases bind_eq_ok h with ⟨plugins, hplugins, h⟩
  have hgrammar := Plugin.grammar_of_applyAll (eq_ok_of_mapError h)
  refine ⟨plugins.flatMap Plugin.registrations, hgrammar, fun entry hentry => ?_⟩
  rcases List.mem_flatMap.1 hentry with ⟨p, hp, hentry⟩
  rcases mem_of_mapM_eq_ok (eq_ok_of_mapError hplugins) hp with ⟨ref, -, href⟩
  exact Plugin.isStem_of_ofRef href entry hentry

theorem isNamed_of_ofConfig : d.grammar.IsNamed := by
  rcases exists_enterAll_of_ofConfig h with ⟨entries, hgrammar, hentries⟩
  rw [hgrammar]
  exact Grammar.isNamed_enterAll
    (Grammar.isNamed_withDarkMode Grammar.isNamed_default config.darkMode) hentries

theorem reachable_of_ofConfig : d.grammar.Reachable := by
  rcases exists_enterAll_of_ofConfig h with ⟨entries, hgrammar, -⟩
  rw [hgrammar]
  exact Grammar.reachable_enterAll (.initial config.darkMode) entries

end Design

end UtilityCss

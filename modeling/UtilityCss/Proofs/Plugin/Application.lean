import UtilityCss.Proofs.Grammar.Names
import UtilityCss.Proofs.Theme.Breakpoints

/-!
# Applying Plugins

What a list of plugins makes of a design, and when it makes nothing of it.

Plugins of all kinds stand in one list and are applied in its order, but the order matters
within a kind only. Those for the theme look at nothing but the theme, and the others only
register. So `applyAll` comes apart: the steps of all plugins are made one after another,
and if none of them fails, everything is registered that there is to register
(`applyAll_eq`). What the theme is, and whether there is one, can be read off the steps
alone, and the grammar off the registrations.

A step fails if it copies an axis that is not there. Axes are never taken away, so what is
there at a step is what the theme has and what the steps before it are made to, whether or
not any value was written. That makes it possible to see from the list where it fails, with
no theme computed along the way.

The values are replayed on the function that gives them. A copy takes over all values of
its source as they are then, and with that also forgets the ones that it replaces; since
the values are taken and no reference to the source is, what happens to the source
afterwards does not show in the copy.

## Main definitions

* `ThemeStep.target`, `ThemeStep.replay`: The axis of a step, and what it does to values.
* `Plugin.steps`: The steps of plugins, in order, with the names of their plugins.
* `Theme.HasAxisAfter`: An axis is there after some steps.
* `Theme.Misses`, `Theme.Blames`: A step that copies a missing axis, and the error of the first.
* `Theme.makeAll`: Steps made in order.
* `Plugin.Applies`: What plugins make of a design.

## Theorems

* `isSome_axis?_of_apply`, `get?_of_apply`: What one step does.
* `isSome_axis?_of_makeAll`, `get?_of_makeAll`: What steps do that all succeed.
* `exists_of_makeAll_eq_error`: Where steps fail.
* `applyAll_eq`: Applying plugins is making their steps and registering the rest.
* `blames_of_applyAll_eq_error`: Which step the error of plugins is about.
* `applies_applyAll`: What any plugins make of any design.
-/

namespace UtilityCss

namespace ThemeStep

/-- The axis that a step is made to. -/
def target : ThemeStep → String
  | set axis _ _ => axis
  | copy _ name => name
  | extend axis _ => axis

/-- The values after a step. One or several keys of an axis are written, or all values of
    an axis are those that another one has. -/
def replay (values : String → String → Option String) :
    ThemeStep → String → String → Option String
  | set changed name value, axis, key =>
    if changed = axis ∧ name = key then some value else values axis key
  | copy source name, axis, key => if name = axis then values source key else values axis key
  | extend changed scale, axis, key =>
    if changed = axis then (scale.get? key).or (values axis key) else values axis key

theorem replay_of_ne {step : ThemeStep} {axis : String} (h : step.target ≠ axis)
    (values : String → String → Option String) (key : String) :
    step.replay values axis key = values axis key := by
  cases step with
  | set changed name value => exact if_neg fun hchanged => h hchanged.1
  | copy source name => exact if_neg h
  | extend changed scale => exact if_neg h

theorem foldl_replay_of_ne {steps : List ThemeStep} {axis : String}
    (h : ∀ step ∈ steps, step.target ≠ axis) (values : String → String → Option String)
    (key : String) : steps.foldl replay values axis key = values axis key := by
  induction steps generalizing values with
  | nil => rfl
  | cons step steps ih =>
      rcases List.forall_mem_cons.1 h with ⟨hstep, hsteps⟩
      rw [List.foldl_cons, ih hsteps, replay_of_ne hstep]

end ThemeStep

/-- The steps of plugins, in order, each with the name of its plugin. -/
def Plugin.steps (ps : List Plugin) : List (String × ThemeStep) :=
  ps.flatMap fun p =>
    match p.contribution with
    | .theme steps => steps.map fun step => (p.name, step)
    | _ => []

/-- The plugin is for the theme. -/
def Plugin.isTheme (p : Plugin) : Bool :=
  match p.contribution with
  | .theme _ => true
  | _ => false

namespace Theme

/-- An axis is there after some steps: the theme has it, or one of them is made to it. -/
def HasAxisAfter (t : Theme) (steps : List (String × ThemeStep)) (axis : String) : Prop :=
  (t.axis? axis).isSome ∨ ∃ c ∈ steps, c.2.target = axis

/-- A step copies an axis that is not there after the steps before it. -/
def Misses (t : Theme) (before : List (String × ThemeStep)) (step : ThemeStep) : Prop :=
  ∃ source name, step = .copy source name ∧ ¬ t.HasAxisAfter before source

/-- An error is that of the first step that copies an axis that is not there. It names the
    plugin of the step and the axis, and the axes that there are, ascending. -/
def Blames (t : Theme) (steps : List (String × ThemeStep)) (e : PluginError) : Prop :=
  ∃ before plugin source name later known,
    steps = before ++ (plugin, .copy source name) :: later ∧
    ¬ t.HasAxisAfter before source ∧
    (∀ earlier c between, before = earlier ++ c :: between → ¬ t.Misses earlier c.2) ∧
    e = .faulty plugin (.missingAxis source known) ∧
    (∀ axis, axis ∈ known ↔ t.HasAxisAfter before axis) ∧ known.Pairwise (· < ·)

/-- A theme with steps made in order, and the first one that fails blamed on its plugin. -/
def makeAll (t : Theme) : List (String × ThemeStep) → Except PluginError Theme
  | [] => .ok t
  | (plugin, step) :: rest =>
    match step.apply t with
    | .ok t' => makeAll t' rest
    | .error fault => .error (.faulty plugin fault)

end Theme

namespace Plugin

/-- What plugins make of a design. -/
structure Applies (d : Design) (ps : List Plugin) : Prop where
  /-- They fail exactly if a step copies an axis that neither the theme has nor an earlier
      step is made to. -/
  fails : (∃ e, applyAll d ps = .error e) ↔
    ∃ before c later, steps ps = before ++ c :: later ∧ d.theme.Misses before c.2
  /-- The error is that of the first such step, and names its plugin. -/
  error : ∀ e, applyAll d ps = .error e → d.theme.Blames (steps ps) e
  /-- Otherwise the values are those that the steps lead to, replayed in order. -/
  value : ∀ made, applyAll d ps = .ok made → ∀ axis key,
    made.theme.get? axis key
      = ((steps ps).map Prod.snd).foldl ThemeStep.replay d.theme.get? axis key
  /-- The axes are those of the theme and those that steps are made to. -/
  present : ∀ made, applyAll d ps = .ok made → ∀ axis,
    (made.theme.axis? axis).isSome ↔ d.theme.HasAxisAfter (steps ps) axis
  /-- An axis that is copied to and not changed afterwards has the values that the source
      had then, whatever is done to the source. -/
  snapshot : ∀ made, applyAll d ps = .ok made → ∀ before plugin source name later,
    steps ps = before ++ (plugin, .copy source name) :: later →
    (∀ c ∈ later, c.2.target ≠ name) → ∀ key,
    made.theme.get? name key
      = (before.map Prod.snd).foldl ThemeStep.replay d.theme.get? source key
  /-- The theme, or the error, depends on the plugins for the theme only. -/
  ofThemes : ∀ grammar ps', ps'.filter isTheme = ps.filter isTheme →
    (applyAll ⟨d.theme, grammar⟩ ps').map Design.theme = (applyAll d ps).map Design.theme
  /-- The grammar depends on the other plugins only. -/
  ofOthers : ∀ theme ps', (ps'.filter fun p => !p.isTheme) = (ps.filter fun p => !p.isTheme) →
    ∀ made made', applyAll d ps = .ok made → applyAll ⟨theme, d.grammar⟩ ps' = .ok made' →
    made'.grammar = made.grammar
  /-- The plugins of the two kinds may be interleaved in any way. -/
  interleaved : ∀ ps', ps'.filter isTheme = ps.filter isTheme →
    (ps'.filter fun p => !p.isTheme) = (ps.filter fun p => !p.isTheme) →
    applyAll d ps' = applyAll d ps

end Plugin

/-! ### One step -/

namespace ThemeStep

variable {t t' : Theme} {step : ThemeStep}

/-- A step fails if it copies an axis that is not there. -/
theorem apply_eq_error_iff {fault : PluginFault} :
    step.apply t = .error fault ↔
      ∃ source name, step = .copy source name ∧ t.axis? source = none ∧
        fault = .missingAxis source t.axisNames := by
  cases step with
  | set axis key value => simp only [apply, reduceCtorEq, false_and, exists_false]
  | extend axis scale => simp only [apply, reduceCtorEq, false_and, exists_false]
  -- Only a copy looks at what the theme has.
  | copy source name =>
      rw [apply]
      rcases haxis : t.axis? source with _ | scale
      · constructor
        · intro h
          exact ⟨source, name, rfl, haxis, (Except.error.inj h).symm⟩
        · rintro ⟨source', name', hcopy, -, rfl⟩
          rw [(copy.inj hcopy).1]
      · constructor
        · intro h
          simp only [reduceCtorEq] at h
        · rintro ⟨source', name', hcopy, hnone, -⟩
          rw [← (copy.inj hcopy).1, haxis] at hnone
          simp only [reduceCtorEq] at hnone

-- Whatever a step does, it sets its target and nothing else.
theorem exists_setAxis_of_apply (h : step.apply t = .ok t') :
    ∃ scale, t' = t.setAxis step.target scale := by
  cases step with
  | set axis key value => exact ⟨_, (Except.ok.inj h).symm⟩
  | extend axis scale => exact ⟨_, (Except.ok.inj h).symm⟩
  | copy source name =>
      rw [apply] at h
      split at h
      · next scale _ => exact ⟨scale, (Except.ok.inj h).symm⟩
      · simp only [reduceCtorEq] at h

theorem isSome_axis?_of_apply (h : step.apply t = .ok t') (axis : String) :
    (t'.axis? axis).isSome ↔ (t.axis? axis).isSome ∨ step.target = axis := by
  rcases exists_setAxis_of_apply h with ⟨scale, rfl⟩
  rw [Theme.axis?_setAxis]
  by_cases htarget : step.target = axis
  · simp only [htarget, if_true, Option.isSome_some, or_true]
  · simp only [htarget, if_false, or_false]

/-- A step that succeeds does to the values what replaying it does. -/
theorem get?_of_apply (h : step.apply t = .ok t') : t'.get? = step.replay t.get? := by
  funext axis key
  cases step with
  | set changed name value =>
      rw [← Except.ok.inj h, replay, ← Theme.change, Theme.get?_change, Theme.Change.written?]
      split <;> rfl
  | extend changed scale =>
      rw [← Except.ok.inj h, replay, ← Theme.change, Theme.get?_change, Theme.Change.written?]
      split
      · rcases scale.get? key with _ | value <;> rfl
      · rfl
  | copy source name =>
      rw [apply] at h
      split at h
      -- A copy takes what the source has at that point.
      · next scale hscale =>
          have hsource : t.get? source key = scale.get? key := by rw [Theme.get?, hscale]
          rw [← Except.ok.inj h, replay, Theme.get?_setAxis, hsource]
      · simp only [reduceCtorEq] at h

end ThemeStep

/-! ### All steps -/

namespace Theme

variable {t t' : Theme} {steps : List (String × ThemeStep)}

theorem makeAll_append (t : Theme) (before later : List (String × ThemeStep)) :
    t.makeAll (before ++ later) = (t.makeAll before).bind fun t' => t'.makeAll later := by
  induction before generalizing t with
  | nil => rfl
  | cons c before ih =>
      rw [List.cons_append, makeAll, makeAll]
      rcases c.2.apply t with fault | t₁
      · rfl
      · exact ih t₁

theorem isSome_axis?_of_makeAll (h : t.makeAll steps = .ok t') (axis : String) :
    (t'.axis? axis).isSome ↔ t.HasAxisAfter steps axis := by
  unfold HasAxisAfter
  induction steps generalizing t with
  | nil =>
      rw [← Except.ok.inj h]
      simp only [List.not_mem_nil, false_and, exists_false, or_false]
  | cons c steps ih =>
      rw [makeAll] at h
      split at h
      · next t₁ happly =>
          rw [ih h, ThemeStep.isSome_axis?_of_apply happly, List.exists_mem_cons_iff, or_assoc]
      · simp only [reduceCtorEq] at h

/-- Steps that all succeed do to the values what replaying them does. -/
theorem get?_of_makeAll (h : t.makeAll steps = .ok t') :
    t'.get? = (steps.map Prod.snd).foldl ThemeStep.replay t.get? := by
  induction steps generalizing t with
  | nil =>
      rw [← Except.ok.inj h]
      rfl
  | cons c steps ih =>
      rw [makeAll] at h
      split at h
      · next t₁ happly =>
          rw [ih h, ThemeStep.get?_of_apply happly, List.map_cons, List.foldl_cons]
      · simp only [reduceCtorEq] at h

/-- Steps that fail have succeeded up to one of them, and that one fails. -/
theorem exists_of_makeAll_eq_error {e : PluginError} (h : t.makeAll steps = .error e) :
    ∃ before plugin step later t₁ fault, steps = before ++ (plugin, step) :: later ∧
      t.makeAll before = .ok t₁ ∧ step.apply t₁ = .error fault ∧ e = .faulty plugin fault := by
  induction steps generalizing t with
  | nil => simp only [makeAll, reduceCtorEq] at h
  | cons c steps ih =>
      rw [makeAll] at h
      split at h
      · next t₁ happly =>
          rcases ih h with ⟨before, plugin, step, later, t₂, fault, rfl, hbefore, hstep, he⟩
          refine ⟨c :: before, plugin, step, later, t₂, fault, rfl, ?_, hstep, he⟩
          rw [makeAll, happly]
          exact hbefore
      · next fault happly =>
          exact ⟨[], c.1, c.2, steps, t, fault, rfl, rfl, happly, (Except.error.inj h).symm⟩

-- Where all steps succeed, none of them copies an axis that is not there.
theorem not_misses_of_makeAll {before later : List (String × ThemeStep)}
    {c : String × ThemeStep} (h : t.makeAll (before ++ c :: later) = .ok t') :
    ¬ t.Misses before c.2 := by
  rw [makeAll_append] at h
  rcases bind_eq_ok h with ⟨t₁, hbefore, hstep⟩
  rintro ⟨source, name, hcopy, hmissing⟩
  rw [← isSome_axis?_of_makeAll hbefore, Option.isSome_iff_ne_none, not_not] at hmissing
  rw [makeAll, ThemeStep.apply_eq_error_iff.2 ⟨source, name, hcopy, hmissing, rfl⟩] at hstep
  simp only [reduceCtorEq] at hstep

theorem mem_axisNames_iff (t : Theme) (axis : String) :
    axis ∈ t.axisNames ↔ (t.axis? axis).isSome := by
  rw [Option.isSome_iff_exists]
  unfold axisNames SortedMap.keys
  rw [List.mem_map]
  constructor
  · rintro ⟨⟨_, scale⟩, hmem, rfl⟩
    exact ⟨scale, (t.axes.mem_entries_iff _ scale).1 hmem⟩
  · rintro ⟨scale, hscale⟩
    exact ⟨(axis, scale), (t.axes.mem_entries_iff axis scale).2 hscale, rfl⟩

theorem pairwise_axisNames (t : Theme) : t.axisNames.Pairwise (· < ·) :=
  List.pairwise_map.2 t.axes.sorted

end Theme

/-! ### All plugins -/

namespace Plugin

theorem steps_cons (p : Plugin) (ps : List Plugin) : steps (p :: ps) = steps [p] ++ steps ps := by
  unfold steps
  rw [List.flatMap_cons, List.flatMap_cons, List.flatMap_nil, List.append_nil]

theorem makeAll_map_append (t : Theme) (name : String) (made : List ThemeStep)
    (later : List (String × ThemeStep)) :
    t.makeAll ((made.map fun step => (name, step)) ++ later)
      = match ThemeStep.applyAll t made with
        | (t', none) => t'.makeAll later
        | (_, some fault) => .error (.faulty name fault) := by
  induction made generalizing t with
  | nil => rfl
  | cons step made ih =>
      rw [List.map_cons, List.cons_append, Theme.makeAll, ThemeStep.applyAll]
      rcases step.apply t with fault | t₁
      · rfl
      · exact ih t₁

/-- The steps of a plugin lead to the theme that applying it leads to. -/
theorem makeAll_steps_append (d : Design) (p : Plugin) (later : List (String × ThemeStep)) :
    d.theme.makeAll (steps [p] ++ later)
      = match p.apply d with
        | (d', none) => d'.theme.makeAll later
        | (_, some e) => .error e := by
  rcases p with ⟨name, us | rs | made⟩
  · rfl
  · rfl
  · have hsteps : steps [⟨name, .theme made⟩] = made.map fun step => (name, step) :=
      List.append_nil _
    have happly : apply d ⟨name, .theme made⟩
        = ({ d with theme := (ThemeStep.applyAll d.theme made).1 },
            (ThemeStep.applyAll d.theme made).2.map (.faulty name)) := rfl
    rw [hsteps, makeAll_map_append, happly]
    rcases ThemeStep.applyAll d.theme made with ⟨t', _ | fault⟩ <;> rfl

/-- Applying plugins is making the steps of all of them, and then registering what they
    register. -/
theorem applyAll_eq (d : Design) (ps : List Plugin) :
    applyAll d ps = (d.theme.makeAll (steps ps)).map fun theme =>
      ⟨theme, d.grammar.enterAll (ps.flatMap registrations)⟩ := by
  induction ps generalizing d with
  | nil => rfl
  | cons p ps ih =>
      have hgrammar := grammar_apply d p
      rw [applyAll, steps_cons, makeAll_steps_append, List.flatMap_cons, Grammar.enterAll_append,
        ← hgrammar]
      rcases p.apply d with ⟨d', _ | e⟩
      · exact ih d'
      · rfl

theorem steps_filter_isTheme (ps : List Plugin) : steps (ps.filter isTheme) = steps ps := by
  induction ps with
  | nil => rfl
  | cons p ps ih =>
      rw [steps_cons p ps, ← ih, List.filter_cons]
      rcases p with ⟨name, us | rs | made⟩
      · rfl
      · rfl
      · exact steps_cons _ _

theorem registrations_filter (ps : List Plugin) :
    (ps.filter fun p => !p.isTheme).flatMap registrations = ps.flatMap registrations := by
  induction ps with
  | nil => rfl
  | cons p ps ih =>
      rw [List.flatMap_cons, ← ih, List.filter_cons]
      rcases p with ⟨name, us | rs | made⟩ <;> rfl

section

variable {d : Design} {ps : List Plugin}

theorem makeAll_of_applyAll_eq_ok {made : Design} (h : applyAll d ps = .ok made) :
    d.theme.makeAll (steps ps) = .ok made.theme := by
  rw [applyAll_eq] at h
  rcases map_eq_ok h with ⟨t, ht, rfl⟩
  exact ht

theorem makeAll_of_applyAll_eq_error {e : PluginError} (h : applyAll d ps = .error e) :
    d.theme.makeAll (steps ps) = .error e := by
  rw [applyAll_eq] at h
  rcases hmade : d.theme.makeAll (steps ps) with e' | t
  · rw [hmade] at h
    exact congrArg Except.error (Except.error.inj h)
  · rw [hmade] at h
    simp only [Except.map, reduceCtorEq] at h

/-- If applying plugins fails, then at the first step that copies an axis that is not
    there. -/
theorem blames_of_applyAll_eq_error {e : PluginError} (h : applyAll d ps = .error e) :
    d.theme.Blames (steps ps) e := by
  rcases Theme.exists_of_makeAll_eq_error (makeAll_of_applyAll_eq_error h) with
    ⟨before, plugin, step, later, t, fault, hsteps, hbefore, hstep, he⟩
  rcases ThemeStep.apply_eq_error_iff.1 hstep with ⟨source, name, rfl, hmissing, rfl⟩
  have hthere := Theme.isSome_axis?_of_makeAll hbefore
  refine ⟨before, plugin, source, name, later, t.axisNames, hsteps, ?_, ?_, he,
    fun axis => (t.mem_axisNames_iff axis).trans (hthere axis), t.pairwise_axisNames⟩
  · rw [← hthere, hmissing]
    exact Bool.false_ne_true
  · rintro earlier c between rfl
    exact Theme.not_misses_of_makeAll hbefore

/-- What any plugins make of any design. -/
theorem applies_applyAll (d : Design) (ps : List Plugin) : Applies d ps where
  fails := by
    constructor
    · rintro ⟨e, he⟩
      rcases blames_of_applyAll_eq_error he with
        ⟨before, plugin, source, name, later, -, hsteps, hmissing, -⟩
      exact ⟨before, (plugin, .copy source name), later, hsteps, source, name, rfl, hmissing⟩
    -- If all steps could be made, this one would miss nothing.
    · rintro ⟨before, c, later, hsteps, hmisses⟩
      rcases hmade : applyAll d ps with e | made
      · exact ⟨e, rfl⟩
      · have hall := makeAll_of_applyAll_eq_ok hmade
        rw [hsteps] at hall
        exact absurd hmisses (Theme.not_misses_of_makeAll hall)
  error e he := blames_of_applyAll_eq_error he
  value made hmade axis key := by
    rw [Theme.get?_of_makeAll (makeAll_of_applyAll_eq_ok hmade)]
  present made hmade axis := Theme.isSome_axis?_of_makeAll (makeAll_of_applyAll_eq_ok hmade) axis
  snapshot made hmade before plugin source name later hsteps hlater key := by
    have hlater' : ∀ step ∈ later.map Prod.snd, step.target ≠ name :=
      List.forall_mem_map.2 hlater
    rw [Theme.get?_of_makeAll (makeAll_of_applyAll_eq_ok hmade), hsteps, List.map_append,
      List.map_cons, List.foldl_append, List.foldl_cons, ThemeStep.foldl_replay_of_ne hlater']
    exact if_pos rfl
  ofThemes grammar ps' hthemes := by
    rw [applyAll_eq, applyAll_eq, ← steps_filter_isTheme ps', hthemes, steps_filter_isTheme]
    rcases d.theme.makeAll (steps ps) with e | t <;> rfl
  ofOthers theme ps' hothers made made' hmade hmade' := by
    rw [grammar_of_applyAll hmade', grammar_of_applyAll hmade, ← registrations_filter ps', hothers,
      registrations_filter]
  interleaved ps' hthemes hothers := by
    rw [applyAll_eq, applyAll_eq, ← steps_filter_isTheme ps', hthemes, steps_filter_isTheme,
      ← registrations_filter ps', hothers, registrations_filter]

end

-- The copy keeps what the source had, and a source that is written in time is there.
example : (applyAll ⟨Theme.empty, Grammar.default⟩
      [⟨"gaps", .theme [.set "gap" "sm" "2px", .copy "gap" "inset", .set "gap" "sm" "4px"]⟩]).map
        (fun d => (d.theme.get? "inset" "sm", d.theme.get? "gap" "sm"))
      = .ok (some "2px", some "4px") := by rfl

end Plugin

end UtilityCss

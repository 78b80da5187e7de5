import UtilityCss.Config.Reading
import UtilityCss.Plugin.Checking
import UtilityCss.Proofs.Containment.Plugin

/-!
# One Value of a Theme

A theme plugin can write one value in two ways: `set` it, or `extend` its axis by the mapping
that has nothing but that value.

Applied to a theme the two do the same. They are read and checked along ways of their own,
though. The value of `set` is read as a scalar and passes the check of plugins; that of `extend`
is kept as it is written, flattened like an axis of the theme, and passes the check of scales.
Both refuse what is no scalar, what is empty, and what could end the block that it is copied to.
The check of plugins refuses two kinds of values besides, those of blanks only and those with a
line break, and these are all that `extend` lets through and `set` does not.

## Main definitions

* `Record.written`: The entries of a mapping that writes fields under their names.
* `ThemeStepSpec.setRecord`, `ThemeStepSpec.extendRecord`: The two ways to write one value.
* `Plugin.checked?`: The plugin of an entry that passes.
* `Plugin.IsSlack`: A value that only one of the checks lets through.
* `Plugin.WritesAlike`: How the two ways compare.

## Theorems

* `Theme.extendAxis_singleton`: Applied to a theme they do the same.
* `Record.fields?_written`, `Record.tagged?_written`: What is written is read back.
* `Plugin.checked?_setRecord`, `Plugin.checked?_extendRecord`: What passes.
* `Plugin.writesAlike`: The two ways for any name, axis, key and value.
-/

namespace UtilityCss

open Yaml (Value)

/-- A scale of one value laid over an axis writes that value. -/
theorem Theme.extendAxis_singleton (t : Theme) (axis key value : String) :
    t.extendAxis axis (SortedMap.ofList [(key, value)]) = t.insert axis key value := rfl

/-! ### Written records -/

namespace Record

/-- The entries of a mapping that writes each field under its name. -/
def written (fields : List (String × Value)) : List (Value × Value) :=
  fields.map fun f => (.text f.1, f.2)

theorem filterMap_written {names : List String} {fields : List (String × Value)}
    (hnames : ∀ f ∈ fields, names.contains f.1 = true) :
    (written fields).filterMap (fun (k, v) => (name? names k).map (·, v)) = fields := by
  induction fields with
  | nil => rfl
  | cons f fields ih =>
      rcases List.forall_mem_cons.1 hnames with ⟨hf, hfields⟩
      have hname : name? names (.text f.1) = some f.1 := if_pos hf
      rw [written, List.map_cons, List.filterMap_cons]
      simp only [hname, Option.map_some]
      exact congrArg (f :: ·) (ih hfields)

theorem all_written (test : Value → Bool) {fields : List (String × Value)}
    (h : ∀ f ∈ fields, test (.text f.1) = true) :
    (written fields).all (fun (k, _) => test k) = true := by
  rw [written, List.all_map]
  exact List.all_eq_true.2 h

/-- Fields written under different names of a record are read back. -/
theorem fields?_written (names : List String) (strict : Bool) (fields : List (String × Value))
    (hnames : ∀ f ∈ fields, names.contains f.1 = true) (hdiffer : (fields.map Prod.fst).Nodup) :
    fields? names strict (.mapping (written fields)) = some fields := by
  have hkeys : (written fields).all (fun (k, _) =>
      if strict then (name? names k).isSome else isKey k) = true := by
    refine all_written (fun k => if strict then (name? names k).isSome else isKey k) ?_
    intro f hf
    rw [name?, if_pos (hnames f hf)]
    exact ite_self true
  rw [fields?, entries?, filterMap_written hnames, hkeys, areDistinct, decide_eq_true hdiffer]
  rfl

section

variable {tag : String} {fields : List (String × Value)} {test : Value × Value → Bool}

theorem filter_written_tag (htest : ∀ s v, test (.text s, v) = decide (s = tag))
    (hfields : ∀ f ∈ fields, f.1 ≠ tag) (value : Value) :
    (written ((tag, value) :: fields)).filter test = [(.text tag, value)] := by
  rw [written, List.map_cons, List.filter_cons, htest, if_pos (decide_eq_true rfl)]
  refine congrArg _ (List.filter_eq_nil_iff.2 fun e he => ?_)
  rcases List.mem_map.1 he with ⟨f, hf, rfl⟩
  rw [htest]
  exact fun h => hfields f hf (of_decide_eq_true h)

theorem filter_written_rest (htest : ∀ s v, test (.text s, v) = decide (s = tag))
    (hfields : ∀ f ∈ fields, f.1 ≠ tag) (value : Value) :
    (written ((tag, value) :: fields)).filter (fun e => !test e) = written fields := by
  rw [written, List.map_cons, List.filter_cons, htest, decide_eq_true rfl]
  refine List.filter_eq_self.2 fun e he => ?_
  rcases List.mem_map.1 he with ⟨f, hf, rfl⟩
  rw [htest, decide_eq_false (hfields f hf)]
  rfl

/-- The tag of a record that starts with it. -/
theorem tagged?_written (tag word : String) (names : List String) (fields : List (String × Value))
    (hword : names.contains word = true) (hfields : ∀ f ∈ fields, f.1 ≠ tag) :
    tagged? tag names (.mapping (written ((tag, .text word) :: fields))) =
      some (word, .mapping (written fields)) := by
  have hname : name? names (.text word) = some word := if_pos hword
  unfold tagged?
  simp only
  rw [filter_written_tag (fun _ _ => rfl) hfields, filter_written_rest (fun _ _ => rfl) hfields]
  simp only [hname, Option.map_some]

end

end Record

namespace ThemeStepSpec

/-- The record that sets one value. -/
def setRecord (axis : String) (key value : Value) : Value :=
  .mapping (Record.written [("op", .text "set"), ("axis", .text axis), ("key", key),
    ("value", value)])

/-- The record that extends an axis by a mapping with one value. -/
def extendRecord (axis : String) (key value : Value) : Value :=
  .mapping (Record.written [("op", .text "extend"), ("axis", .text axis),
    ("values", .mapping [(key, value)])])

theorem ofValue?_setRecord (axis : String) (key value : Value) :
    ofValue? (setRecord axis key value) =
      key.scalarText?.bind fun k => value.scalarText?.map fun v => .set axis k v := by
  have htag := Record.tagged?_written "op" "set" ["set", "alias", "extend"]
    [("axis", .text axis), ("key", key), ("value", value)] (by simp) (by simp)
  have hfields := Record.fields?_written ["axis", "key", "value"] false
    [("axis", .text axis), ("key", key), ("value", value)] (by simp) (by simp)
  cases hkey : key.scalarText? <;> cases hvalue : value.scalarText?
  all_goals
    simp [ofValue?, setRecord, htag, hfields, Record.required?, Record.text?, List.lookup_cons,
      hkey, hvalue]

theorem ofValue?_extendRecord (axis : String) (key value : Value) :
    ofValue? (extendRecord axis key value) =
      (Record.value? (.mapping [(key, value)])).map fun values => .extend axis values := by
  have htag := Record.tagged?_written "op" "extend" ["set", "alias", "extend"]
    [("axis", .text axis), ("values", .mapping [(key, value)])] (by simp) (by simp)
  have hfields := Record.fields?_written ["axis", "values"] false
    [("axis", .text axis), ("values", .mapping [(key, value)])] (by simp) (by simp)
  cases hvalues : Record.value? (.mapping [(key, value)])
  all_goals
    simp [ofValue?, extendRecord, htag, hfields, Record.required?, Record.text?,
      List.lookup_cons, hvalues]

end ThemeStepSpec

/-! ### Passing -/

namespace Plugin

open ThemeStepSpec

/-- The entry of `plugins` that makes one change to the theme. -/
def stepEntry (name : String) (step : Value) : Value :=
  .mapping (Record.written [("kind", .text "theme"), ("name", .text name),
    ("ops", .sequence [step])])

/-- The plugin of an entry of `plugins`, or `none` if the entry is refused. -/
def checked? (entry : Value) : Option Plugin :=
  (PluginRef.ofValue? entry).bind fun ref => (ofRef ref).toOption

theorem ofValue?_stepEntry (name : String) (step : Value) :
    PluginRef.ofValue? (stepEntry name step) =
      (ThemeStepSpec.ofValue? step).map fun spec => .inline name (.theme [spec]) := by
  have htag := Record.tagged?_written "kind" "theme" ["grammar", "static", "theme"]
    [("name", .text name), ("ops", .sequence [step])] (by simp) (by simp)
  have hfields := Record.fields?_written ["name", "ops"] false
    [("name", .text name), ("ops", .sequence [step])] (by simp) (by simp)
  cases hstep : ThemeStepSpec.ofValue? step
  all_goals
    simp [PluginRef.ofValue?, PluginRef.ofRecord?, stepEntry, htag, hfields, Record.required?,
      Record.text?, Record.listOf?, List.lookup_cons, hstep]

/-- An entry that makes one change passes if its name has something to read and the change is
    read and passes its check. -/
theorem checked?_stepEntry {name : String} {step : Value} {p : Plugin} :
    checked? (stepEntry name step) = some p ↔
      Text.isBlankText name = false ∧ ∃ spec change, ThemeStepSpec.ofValue? step = some spec ∧
        themeStep spec = .ok change ∧ p = ⟨name, .theme [change]⟩ := by
  unfold checked?
  rw [ofValue?_stepEntry]
  cases hstep : ThemeStepSpec.ofValue? step with
  | none =>
      simp only [Option.map_none, Option.bind_none, reduceCtorEq, false_and, exists_false,
        and_false]
  | some spec =>
      simp only [Option.map_some, Option.bind_some, Option.some.injEq, ofRef,
        contributionOf, List.mapM_cons, List.mapM_nil]
      cases Text.isBlankText name <;> cases hchange : themeStep spec
      all_goals
        simp [Except.map, Except.toOption, bind, Except.bind, pure, Except.pure, hchange, eq_comm]

theorem themeStep_set_eq_ok_iff {axis k v : String} {change : ThemeStep} :
    themeStep (.set axis k v) = .ok change ↔
      PluginName.isValue v = true ∧ change = .set axis k v := by
  rw [themeStep]
  split
  · next hv => simp only [Except.ok.injEq, hv, true_and, eq_comm]
  · next hv => simp only [reduceCtorEq, hv, false_and]

/-- What passes as a value to set. -/
theorem checked?_setRecord {name axis : String} {key value : Value} {p : Plugin} :
    checked? (stepEntry name (setRecord axis key value)) = some p ↔
      Text.isBlankText name = false ∧ ∃ k v, key.scalarText? = some k ∧
        value.scalarText? = some v ∧ PluginName.isValue v = true ∧
        p = ⟨name, .theme [.set axis k v]⟩ := by
  simp only [checked?_stepEntry, ofValue?_setRecord, Option.bind_eq_some_iff,
    Option.map_eq_some_iff]
  refine and_congr_right fun _ => ⟨?_, ?_⟩
  · rintro ⟨spec, change, ⟨k, hk, v, hv, rfl⟩, hchange, rfl⟩
    rcases themeStep_set_eq_ok_iff.1 hchange with ⟨hvalue, rfl⟩
    exact ⟨k, v, hk, hv, hvalue, rfl⟩
  · rintro ⟨k, v, hk, hv, hvalue, rfl⟩
    exact ⟨_, _, ⟨k, hk, v, hv, rfl⟩, themeStep_set_eq_ok_iff.2 ⟨hvalue, rfl⟩, rfl⟩

theorem hasDistinctKeys_of_scalarText? {value : Value} {text : String}
    (h : value.scalarText? = some text) : value.hasDistinctKeys = true := by
  cases value with
  | null | sequence | mapping | tagged => cases h
  | _ => rfl

theorem value?_eq_some {v u : Value} (h : Record.value? v = some u) : v = u := by
  rw [Record.value?, Option.ite_none_right_eq_some] at h
  exact Option.some.inj h.2

/-- A mapping with one entry holds no key twice. -/
theorem value?_singleton {key value : Value} {k v : String} (hkey : key.scalarText? = some k)
    (hvalue : value.scalarText? = some v) :
    Record.value? (.mapping [(key, value)]) = some (.mapping [(key, value)]) := by
  refine if_pos ?_
  simp [Value.hasDistinctKeys, Value.keysDiffer, Value.entriesDistinct,
    hasDistinctKeys_of_scalarText? hkey, hasDistinctKeys_of_scalarText? hvalue]

section

-- A mapping would be a group below the key and a sequence one value of several, neither of which
-- can be set.
variable {value : Value} (hmapping : ∀ entries, value ≠ .mapping entries)
  (hsequence : ∀ items, value ≠ .sequence items)

include hmapping hsequence

theorem leaves_singleton {axis : String} {key : Value} {l : List (String × String)} :
    Scale.leaves axis none [(key, value)] = .ok l ↔
      ∃ k v, key.scalarText? = some k ∧ value.scalarText? = some v ∧ Scale.isValue v = true ∧
        l = [(k, v)] := by
  -- The value is neither a mapping nor a sequence, so it is a leaf.
  have hleaf : ∀ k, Scale.valueLeaves axis k value =
      value.scalarText?.elim (.error (.valueNotScalar axis k)) (Scale.leaf axis k) := by
    intro k
    unfold Scale.valueLeaves
    split
    · exact absurd rfl (hmapping _)
    · exact absurd rfl (hsequence _)
    · cases value.scalarText? <;> rfl
  rw [Scale.leaves, Scale.leaves]
  cases hkey : key.scalarText? with
  | none => simp only [reduceCtorEq, false_and, exists_false]
  | some k =>
      cases hvalue : value.scalarText? with
      | none =>
          simp only [hleaf, hvalue, Option.elim_none, reduceCtorEq, false_and, and_false,
            exists_false]
      | some v =>
          simp only [hleaf, hvalue, Option.elim_some, Scale.joinKey]
          unfold Scale.leaf
          by_cases hv : Scale.isValue v = true
          · simp only [hv, if_true, List.append_nil, Except.ok.injEq, Option.some.injEq,
              exists_and_left, exists_eq_left', true_and]
            exact eq_comm
          · simp [hv]

/-- The scale of an axis with one value. -/
theorem scaleOf_singleton {axis : String} {key : Value} {s : Scale} :
    scaleOf axis (.mapping [(key, value)]) = .ok s ↔
      ∃ k v, key.scalarText? = some k ∧ value.scalarText? = some v ∧ Scale.isValue v = true ∧
        s = SortedMap.ofList [(k, v)] := by
  unfold scaleOf Scale.ofValue
  constructor
  · intro h
    rcases map_eq_ok (eq_ok_of_mapError h) with ⟨l, hl, rfl⟩
    rcases (leaves_singleton hmapping hsequence).1 hl with ⟨k, v, hk, hv, hvalue, rfl⟩
    exact ⟨k, v, hk, hv, hvalue, rfl⟩
  · rintro ⟨k, v, hk, hv, hvalue, rfl⟩
    have hl : Scale.leaves axis none [(key, value)] = .ok [(k, v)] :=
      (leaves_singleton hmapping hsequence).2 ⟨k, v, hk, hv, hvalue, rfl⟩
    simp only [hl]
    rfl

/-- What passes as a value to extend an axis by. -/
theorem checked?_extendRecord {name axis : String} {key : Value} {p : Plugin} :
    checked? (stepEntry name (extendRecord axis key value)) = some p ↔
      Text.isBlankText name = false ∧ ∃ k v, key.scalarText? = some k ∧
        value.scalarText? = some v ∧ Scale.isValue v = true ∧
        p = ⟨name, .theme [.extend axis (SortedMap.ofList [(k, v)])]⟩ := by
  simp only [checked?_stepEntry, ofValue?_extendRecord, Option.map_eq_some_iff]
  refine and_congr_right fun _ => ⟨?_, ?_⟩
  · rintro ⟨spec, change, ⟨values, hvalues, rfl⟩, hchange, rfl⟩
    rcases map_eq_ok hchange with ⟨s, hs, rfl⟩
    rw [← value?_eq_some hvalues] at hs
    rcases (scaleOf_singleton hmapping hsequence).1 hs with ⟨k, v, hk, hv, hvalue, rfl⟩
    exact ⟨k, v, hk, hv, hvalue, rfl⟩
  -- The scale of a mapping with one entry has that entry.
  · rintro ⟨k, v, hk, hv, hvalue, rfl⟩
    have hs : scaleOf axis (.mapping [(key, value)]) = .ok (SortedMap.ofList [(k, v)]) :=
      (scaleOf_singleton hmapping hsequence).2 ⟨k, v, hk, hv, hvalue, rfl⟩
    have hchange : themeStep (.extend axis (.mapping [(key, value)])) =
        .ok (.extend axis (SortedMap.ofList [(k, v)])) := congrArg (Except.map _) hs
    exact ⟨_, _, ⟨_, value?_singleton hk hv, rfl⟩, hchange, rfl⟩

end

/-! ### Comparing the checks -/

/-- The value passes the check of scales and not that of plugins: there is something in it and
    no brace and no semicolon, but it is all blank or has a line break. -/
def IsSlack (value : String) : Prop :=
  value ≠ "" ∧ Text.IsContained value ∧
    (Text.isBlankText value = true ∨ '\n' ∈ value.toList)

theorem isSlack_iff {value : String} :
    IsSlack value ↔ Scale.isValue value = true ∧ ¬ PluginName.isValue value = true := by
  rw [PluginName.isValue_iff, Scale.isValue_iff, IsSlack, ← and_assoc]
  refine and_congr_right fun hscale => ?_
  rw [and_iff_right hscale, Classical.not_and_iff_not_or_not, Bool.not_eq_false,
    Classical.not_not]

/-- A plugin that is made of a key and a value is there if both are and the value passes. -/
theorem isSome_iff_of_parts {passed : Option Plugin} {named : Prop} {key value : Option String}
    {test : String → Bool} {made : String → String → Plugin}
    (h : ∀ p, passed = some p ↔ named ∧ ∃ k v, key = some k ∧ value = some v ∧ test v = true ∧
      p = made k v) :
    passed.isSome = true ↔
      named ∧ key.isSome = true ∧ ∃ v, value = some v ∧ test v = true := by
  simp only [Option.isSome_iff_exists, h]
  constructor
  · rintro ⟨p, hnamed, k, v, hk, hv, htest, -⟩
    exact ⟨hnamed, ⟨k, hk⟩, v, hv, htest⟩
  · rintro ⟨hnamed, ⟨k, hk⟩, v, hv, htest⟩
    exact ⟨_, hnamed, k, v, hk, hv, htest, rfl⟩

theorem isSome_checked?_setRecord {name axis : String} {key value : Value} :
    (checked? (stepEntry name (setRecord axis key value))).isSome = true ↔
      Text.isBlankText name = false ∧ key.scalarText?.isSome = true ∧
        ∃ v, value.scalarText? = some v ∧ PluginName.isValue v = true :=
  isSome_iff_of_parts fun _ => checked?_setRecord

/-- How the two ways to write a value compare. -/
structure WritesAlike (name axis : String) (key value : Value) : Prop where
  /-- What can be set can also be laid over the axis. -/
  passes : (checked? (stepEntry name (setRecord axis key value))).isSome = true →
    (checked? (stepEntry name (extendRecord axis key value))).isSome = true
  /-- The converse fails for slack values only. -/
  slack : ((checked? (stepEntry name (extendRecord axis key value))).isSome = true ∧
      ¬ (checked? (stepEntry name (setRecord axis key value))).isSome = true) ↔
    Text.isBlankText name = false ∧ key.scalarText?.isSome = true ∧
      ∃ v, value.scalarText? = some v ∧ IsSlack v
  /-- If both pass, they write one value into any theme, and nothing else. -/
  applied : ∀ p q, checked? (stepEntry name (setRecord axis key value)) = some p →
    checked? (stepEntry name (extendRecord axis key value)) = some q →
    ∃ k v, key.scalarText? = some k ∧ value.scalarText? = some v ∧
      ∀ d : Design, p.apply d = (⟨d.theme.insert axis k v, d.grammar⟩, none) ∧
        q.apply d = (⟨d.theme.insert axis k v, d.grammar⟩, none)

section

variable {value : Value} (hmapping : ∀ entries, value ≠ .mapping entries)
  (hsequence : ∀ items, value ≠ .sequence items)

include hmapping hsequence

theorem isSome_checked?_extendRecord {name axis : String} {key : Value} :
    (checked? (stepEntry name (extendRecord axis key value))).isSome = true ↔
      Text.isBlankText name = false ∧ key.scalarText?.isSome = true ∧
        ∃ v, value.scalarText? = some v ∧ Scale.isValue v = true :=
  isSome_iff_of_parts fun _ => checked?_extendRecord hmapping hsequence

/-- The two ways to write a value into a theme, for any name, axis, key and value: they make the
    same theme if both pass, and they pass together unless the value is slack. -/
theorem writesAlike (name axis : String) (key : Value) : WritesAlike name axis key value where
  passes := by
    rw [isSome_checked?_setRecord, isSome_checked?_extendRecord hmapping hsequence]
    rintro ⟨hname, hkey, v, hv, hvalue⟩
    exact ⟨hname, hkey, v, hv, (PluginName.isValue_iff.1 hvalue).1⟩
  slack := by
    rw [isSome_checked?_setRecord, isSome_checked?_extendRecord hmapping hsequence]
    constructor
    · rintro ⟨⟨hname, hkey, v, hv, hvalue⟩, hset⟩
      exact ⟨hname, hkey, v, hv, isSlack_iff.2 ⟨hvalue, fun h => hset ⟨hname, hkey, v, hv, h⟩⟩⟩
    · rintro ⟨hname, hkey, v, hv, hslack⟩
      rcases isSlack_iff.1 hslack with ⟨hvalue, hstrict⟩
      refine ⟨⟨hname, hkey, v, hv, hvalue⟩, ?_⟩
      rintro ⟨-, -, v', hv', h⟩
      exact hstrict (Option.some.inj (hv.symm.trans hv') ▸ h)
  applied := by
    intro p q hp hq
    rcases checked?_setRecord.1 hp with ⟨-, k, v, hk, hv, -, rfl⟩
    rcases (checked?_extendRecord hmapping hsequence).1 hq with ⟨-, k', v', hk', hv', -, rfl⟩
    rw [hk, Option.some.injEq] at hk'
    rw [hv, Option.some.injEq] at hv'
    subst hk' hv'
    refine ⟨k, v, hk, hv, fun d => ⟨rfl, ?_⟩⟩
    -- Writing one value is extending by a scale of one value.
    rw [← Theme.extendAxis_singleton]
    rfl

end

/-- A length under a numeric key can be written in both ways. -/
theorem writesAlike_length :
    (∀ entries, Value.text "1rem" ≠ .mapping entries) ∧
      (∀ items, Value.text "1rem" ≠ .sequence items) ∧
      (checked? (stepEntry "p" (setRecord "spacing" (.number (.integer 4)) (.text "1rem")))).isSome
        = true ∧
      WritesAlike "p" "spacing" (.number (.integer 4)) (.text "1rem") :=
  have hmapping : ∀ entries, Value.text "1rem" ≠ .mapping entries := fun _ h => by cases h
  have hsequence : ∀ items, Value.text "1rem" ≠ .sequence items := fun _ h => by cases h
  ⟨hmapping, hsequence, by decide +kernel,
    writesAlike hmapping hsequence "p" "spacing" (.number (.integer 4))⟩

/-- A blank can be laid over an axis and not be set. -/
theorem not_alike_blank :
    (checked? (stepEntry "p" (extendRecord "spacing" (.text "x") (.text " ")))).isSome = true ∧
      (checked? (stepEntry "p" (setRecord "spacing" (.text "x") (.text " ")))).isSome = false := by
  decide +kernel

end Plugin

end UtilityCss

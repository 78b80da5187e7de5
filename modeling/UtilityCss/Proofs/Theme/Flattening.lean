import UtilityCss.Proofs.Containment.Value

/-!
# Flattened Axes

What becomes of the groups of an axis.

A configuration may nest an axis as deep as it likes. The scale is made in one pass that joins
keys on the way down and stops at the first thing that it cannot use, so what comes out of it
depends on the way that the pass takes. It can be said without the pass: write down the nodes of
the axis in document order, each with all the keys above it. If nothing is wrong with any of
them, every leaf has its value under the key that its path flattens to, and where several leaves
have one key the last of them counts. Otherwise the error is that of the first node with which
something is wrong.

Below a key that is no scalar no path can be flattened. The nodes there are written down all the
same. They come after the key, which is the error then or comes after the error itself.

## Main definitions

* `AxisNode`: The nodes of an axis: the axis itself, the keys, and the values that are no groups.
* `AxisNode.IsSound`: Nothing is wrong with a node.
* `AxisNode.error`: What is said of a node if something is wrong with it.
* `Scale.nodes`: The nodes of an axis in document order.
* `Scale.flatten`: The key that a path of keys is joined to.
* `Scale.Flattens`: What becomes of an axis.

## Theorems

* `groupKey_concat`: Joining one key after the other flattens the path.
* `leaves_eq_outcome`: The pass does what the nodes say together.
* `flattens_ofValue`: What becomes of every axis.
-/

namespace UtilityCss

open Yaml (Value)

/-- The value is text, a number or a truth value. -/
def Yaml.Value.isScalar : Value → Bool
  | .text _ => true
  | .number _ => true
  | .bool _ => true
  | _ => false

theorem Yaml.Value.isSome_scalarText? (v : Value) : v.scalarText?.isSome = v.isScalar := by
  cases v with
  | bool value => cases value <;> rfl
  | _ => rfl

/-- A node of an axis in a configuration, with the keys on the way to it, outermost first. -/
inductive AxisNode where
  /-- The axis itself. -/
  | axis (value : Value)
  /-- A key of a group. -/
  | key (group : List Value) (key : Value)
  /-- A value that is no group. -/
  | leaf (path : List Value) (value : Value)

namespace Scale

/-- The key that a path of keys is joined to: `DEFAULT` is left out everywhere but at the
    start. -/
def flatten : List String → String
  | [] => ""
  | first :: rest => "-".intercalate (first :: rest.filter (· ≠ defaultKey))

/-- The key of a path. -/
def keyOf (path : List Value) : String := flatten (path.filterMap Value.scalarText?)

/-- The text of a leaf: that of a scalar, or those of several scalars with commas. -/
def leafText? : Value → Option String
  | .sequence items => (items.mapM Value.scalarText?).map (", ".intercalate ·)
  | value => value.scalarText?

mutual

/-- The nodes at and below a value, in document order. -/
def valueNodes (path : List Value) : Value → List AxisNode
  | .mapping entries => entryNodes path entries
  | value => [.leaf path value]

/-- The nodes of the entries of a group, in document order. -/
def entryNodes (group : List Value) : List (Value × Value) → List AxisNode
  | [] => []
  | (key, value) :: rest =>
    .key group key :: (valueNodes (group ++ [key]) value ++ entryNodes group rest)

end

/-- The nodes of an axis, in document order. -/
def nodes (value : Value) : List AxisNode :=
  .axis value :: match value with
    | .mapping entries => entryNodes [] entries
    | _ => []

end Scale

namespace AxisNode

open Scale

/-- Nothing is wrong with a node: the axis is null or a mapping, a key is a scalar, and a leaf
    has a text that is not empty and ends no block. -/
def IsSound : AxisNode → Prop
  | axis value => value = .null ∨ ∃ entries, value = .mapping entries
  | key _ k => k.isScalar = true
  | leaf _ value => ∃ text, leafText? value = some text ∧ text ≠ "" ∧ Text.IsContained text

/-- What is said of a node of an axis if something is wrong with it. -/
def error (name : String) : AxisNode → ScaleError
  | axis _ => .notMapping name
  | key _ _ => .keyNotScalar name
  | leaf path value =>
    if (leafText? value).isSome then .invalidValue name (keyOf path)
    else match value with
      | .sequence _ => .listNotScalars name (keyOf path)
      | _ => .valueNotScalar name (keyOf path)

/-- The entry that a leaf makes. -/
def pair? : AxisNode → Option (String × String)
  | leaf path value => (leafText? value).map (keyOf path, ·)
  | _ => none

end AxisNode

namespace Scale

/-- What becomes of an axis. -/
structure Flattens (name : String) (value : Value) : Prop where
  /-- There is a scale exactly if nothing is wrong with any node. -/
  accepted : (∃ s, ofValue name value = .ok s) ↔ ∀ n ∈ nodes value, n.IsSound
  /-- The scale has the keys that the paths of the leaves flatten to. -/
  keys : ∀ s, ofValue name value = .ok s → ∀ key,
    s.contains key = true ↔ ∃ path leaf, .leaf path leaf ∈ nodes value ∧ keyOf path = key
  /-- Under a key is the text of the last leaf of that key. -/
  values : ∀ s, ofValue name value = .ok s → ∀ key text,
    s.get? key = some text ↔ ∃ before path leaf after,
      nodes value = before ++ .leaf path leaf :: after ∧ keyOf path = key ∧
        leafText? leaf = some text ∧ ∀ path' leaf', .leaf path' leaf' ∈ after → keyOf path' ≠ key
  /-- The error is that of the first node with which something is wrong. -/
  refused : ∀ e, ofValue name value = .error e ↔ ∃ before n after,
    nodes value = before ++ n :: after ∧ (∀ m ∈ before, m.IsSound) ∧ ¬ n.IsSound ∧
      e = n.error name

end Scale

/-! ### Nodes -/

namespace AxisNode

open Scale

theorem isSound_leaf_iff {path : List Value} {value : Value} :
    (leaf path value).IsSound ↔ (leafText? value).any isValue = true := by
  rw [IsSound, Option.any_eq_true]
  simp only [isValue_iff]

theorem pair?_eq_some_iff {n : AxisNode} {key text : String} :
    n.pair? = some (key, text) ↔
      ∃ path value, n = leaf path value ∧ keyOf path = key ∧ leafText? value = some text := by
  cases n with
  | axis | key => simp only [pair?, reduceCtorEq, false_and, exists_const]
  | leaf path value =>
      simp only [pair?, Option.map_eq_some_iff, Prod.mk.injEq, leaf.injEq]
      constructor
      · rintro ⟨text', htext, rfl, rfl⟩
        exact ⟨path, value, ⟨rfl, rfl⟩, rfl, htext⟩
      · rintro ⟨_, _, ⟨rfl, rfl⟩, rfl, htext⟩
        exact ⟨text, htext, rfl, rfl⟩

instance : DecidablePred IsSound
  | axis .null => isTrue (Or.inl rfl)
  | axis (.mapping entries) => isTrue (Or.inr ⟨entries, rfl⟩)
  | axis (.bool _) | axis (.number _) | axis (.text _) | axis (.sequence _) | axis (.tagged _ _) =>
    isFalse (by rintro (h | ⟨_, h⟩) <;> cases h)
  | key _ k => inferInstanceAs (Decidable (k.isScalar = true))
  | leaf _ _ => decidable_of_iff _ isSound_leaf_iff.symm

end AxisNode

namespace Scale

/-- What nodes say together: the entries of the leaves, or the error of the first node with
    which something is wrong. -/
def outcome (name : String) : List AxisNode → Except ScaleError (List (String × String))
  | [] => .ok []
  | n :: ns =>
    if n.IsSound then (outcome name ns).map (n.pair?.toList ++ ·) else .error (n.error name)

variable {name : String}

/-- The first nodes decide if something is wrong with one of them. -/
theorem outcome_append (ns ns' : List AxisNode) :
    outcome name (ns ++ ns') =
      match outcome name ns with
      | .error e => .error e
      | .ok here => (outcome name ns').map (here ++ ·) := by
  induction ns with
  | nil =>
      rw [List.nil_append, outcome]
      rcases outcome name ns' with e | l <;> rfl
  | cons n ns ih =>
      rw [List.cons_append, outcome, outcome, ih]
      -- If something is wrong with the first node, nothing behind it is looked at.
      by_cases hsound : n.IsSound
      · rw [if_pos hsound, if_pos hsound]
        rcases outcome name ns with e | here
        · rfl
        · rcases outcome name ns' with e | later
          · rfl
          · exact congrArg Except.ok (List.append_assoc _ _ _).symm
      · rw [if_neg hsound, if_neg hsound]

theorem outcome_eq_ok_iff {ns : List AxisNode} {l : List (String × String)} :
    outcome name ns = .ok l ↔ (∀ n ∈ ns, n.IsSound) ∧ l = ns.filterMap AxisNode.pair? := by
  induction ns generalizing l with
  | nil =>
      simp only [outcome, Except.ok.injEq, List.not_mem_nil, false_implies, implies_true, true_and,
        List.filterMap_nil, eq_comm]
  | cons n ns ih =>
      rw [outcome, List.forall_mem_cons]
      -- The first node ends the pass if something is wrong with it, and brings in its entry
      -- if not.
      by_cases hsound : n.IsSound
      · have hentries : (n :: ns).filterMap AxisNode.pair?
            = n.pair?.toList ++ ns.filterMap AxisNode.pair? := by
          rw [List.filterMap_cons]
          cases n.pair? <;> rfl
        rw [if_pos hsound, hentries]
        rcases hns : outcome name ns with e | later
        · have hfalse : ¬ ∀ n ∈ ns, n.IsSound := fun hall => by
            cases hns.symm.trans (ih.2 ⟨hall, rfl⟩)
          simp only [Except.map, reduceCtorEq, hfalse, and_false, false_and]
        · rcases ih.1 hns with ⟨hall, rfl⟩
          simp only [Except.map, Except.ok.injEq, hsound, true_and, eq_comm]
          exact ⟨fun h => ⟨hall, h⟩, And.right⟩
      · rw [if_neg hsound]
        simp only [reduceCtorEq, hsound, false_and]

theorem outcome_eq_error_iff {ns : List AxisNode} {e : ScaleError} :
    outcome name ns = .error e ↔ ∃ before n after, ns = before ++ n :: after ∧
      (∀ m ∈ before, m.IsSound) ∧ ¬ n.IsSound ∧ e = n.error name := by
  constructor
  · intro h
    induction ns with
    | nil => cases h
    | cons n ns ih =>
        rw [outcome] at h
        -- The error is that of the first node with something wrong.
        by_cases hsound : n.IsSound
        · rw [if_pos hsound] at h
          rcases hns : outcome name ns with e' | later
          · rw [hns] at h
            cases h
            rcases ih hns with ⟨before, n', after, rfl, hbefore, hn', he⟩
            exact ⟨n :: before, n', after, rfl, List.forall_mem_cons.2 ⟨hsound, hbefore⟩, hn', he⟩
          · rw [hns] at h
            cases h
        · rw [if_neg hsound] at h
          exact ⟨[], n, ns, rfl, fun _ hm => absurd hm List.not_mem_nil, hsound,
            (Except.error.inj h).symm⟩
  · rintro ⟨before, n, after, rfl, hbefore, hn, rfl⟩
    rw [outcome_append, outcome_eq_ok_iff.2 ⟨hbefore, rfl⟩, outcome, if_neg hn]
    rfl

theorem outcome_leaf (path : List Value) (value : Value) :
    outcome name [.leaf path value] =
      match leafText? value with
      | some text => leaf name (keyOf path) text
      | none => .error ((AxisNode.leaf path value).error name) := by
  rw [outcome, outcome]
  -- A leaf is sound if it has a text and the text is a value.
  rcases htext : leafText? value with _ | text
  · have hsound : ¬ (AxisNode.leaf path value).IsSound := by
      rw [AxisNode.isSound_leaf_iff, htext]
      exact Bool.false_ne_true
    rw [if_neg hsound]
  · by_cases hvalue : isValue text = true
    · have hsound : (AxisNode.leaf path value).IsSound := by
        rw [AxisNode.isSound_leaf_iff, htext]
        exact hvalue
      rw [if_pos hsound, AxisNode.pair?, htext]
      exact (if_pos hvalue).symm
    · have hsound : ¬ (AxisNode.leaf path value).IsSound := by
        rw [AxisNode.isSound_leaf_iff, htext]
        exact hvalue
      have herror : (AxisNode.leaf path value).error name = .invalidValue name (keyOf path) :=
        if_pos (htext ▸ rfl)
      rw [if_neg hsound, herror]
      exact (if_neg hvalue).symm

/-! ### Paths -/

/-- The key that a group has been joined to; there is none for the axis itself. -/
def groupKey (group : List Value) : Option String :=
  match group.filterMap Value.scalarText? with
  | [] => none
  | first :: rest => some (flatten (first :: rest))

theorem flatten_concat {names : List String} (h : names ≠ []) (key : String) :
    flatten (names ++ [key])
      = if key = defaultKey then flatten names else flatten names ++ "-" ++ key := by
  rcases names with _ | ⟨first, rest⟩
  · exact absurd rfl h
  · rw [List.cons_append, flatten, flatten, List.filter_append]
    -- The default key is left out of the name.
    by_cases hkey : key = defaultKey
    · have hfilter : [key].filter (· ≠ defaultKey) = [] := by
        rw [hkey]
        rfl
      rw [if_pos hkey, hfilter, List.append_nil]
    · have hfilter : [key].filter (· ≠ defaultKey) = [key] :=
        List.filter_eq_self.2 fun k hk => decide_eq_true (List.mem_singleton.1 hk ▸ hkey)
      rw [if_neg hkey, hfilter, ← List.cons_append,
        String.intercalate_append_of_ne_nil (List.cons_ne_nil _ _) (List.cons_ne_nil _ _),
        String.intercalate_singleton]

/-- Joining one key after the other flattens the path. -/
theorem groupKey_concat {group : List Value} {key : Value} {text : String}
    (h : key.scalarText? = some text) :
    groupKey (group ++ [key]) = some (joinKey (groupKey group) text) := by
  have hlast : [key].filterMap Value.scalarText? = [text] := List.filterMap_cons_some h
  rw [groupKey, groupKey, List.filterMap_append, hlast]
  rcases group.filterMap Value.scalarText? with _ | ⟨first, rest⟩
  · rfl
  · exact congrArg some (flatten_concat (List.cons_ne_nil first rest) text)

theorem keyOf_eq_of_groupKey {path : List Value} {key : String} (h : groupKey path = some key) :
    keyOf path = key := by
  rw [groupKey] at h
  rw [keyOf]
  split at h
  · cases h
  · next heq =>
      rw [heq]
      exact Option.some.inj h

/-! ### The pass -/

theorem valueLeaves_eq_outcome_leaf (path : List Value) {value : Value}
    (h : ∀ entries, value ≠ .mapping entries) :
    valueLeaves name (keyOf path) value = outcome name [.leaf path value] := by
  rw [outcome_leaf]
  cases value with
  | mapping entries => exact absurd rfl (h entries)
  | sequence items =>
      rw [valueLeaves, AxisNode.error, leafText?]
      rcases items.mapM Value.scalarText? with _ | parts <;> rfl
  | bool b =>
      rw [valueLeaves]
      · cases b <;> rfl
      all_goals exact fun _ h => Value.noConfusion h
  | null | number n | text s | tagged tag v =>
      rw [valueLeaves]
      · rfl
      all_goals exact fun _ h => Value.noConfusion h

mutual

/-- The pass at a value does what the nodes at and below it say. -/
theorem valueLeaves_eq_outcome {path : List Value} {key : String}
    (hpath : groupKey path = some key) :
    ∀ value : Value, valueLeaves name key value = outcome name (valueNodes path value)
  | .mapping entries => by
      rw [valueLeaves, valueNodes, ← hpath, leaves_eq_outcome]
  | .sequence _ | .null | .bool _ | .number _ | .text _ | .tagged _ _ => by
      rw [← keyOf_eq_of_groupKey hpath, valueNodes]
      · exact valueLeaves_eq_outcome_leaf path fun _ h => Value.noConfusion h
      all_goals exact nofun

/-- The pass through the entries of a group does what their nodes say. -/
theorem leaves_eq_outcome (group : List Value) :
    ∀ entries : List (Value × Value),
      leaves name (groupKey group) entries = outcome name (entryNodes group entries)
  | [] => rfl
  | (key, value) :: rest => by
      rw [leaves, entryNodes, outcome]
      rcases htext : key.scalarText? with _ | text
      · have hsound : ¬ (AxisNode.key group key).IsSound := by
          rw [AxisNode.IsSound, ← Value.isSome_scalarText?, htext]
          exact Bool.false_ne_true
        rw [if_neg hsound]
        rfl
      · have hsound : (AxisNode.key group key).IsSound := by
          rw [AxisNode.IsSound, ← Value.isSome_scalarText?, htext]
          rfl
        rw [if_pos hsound, outcome_append, ← leaves_eq_outcome group rest,
          ← valueLeaves_eq_outcome (groupKey_concat htext) value]
        dsimp only
        -- What is found under the key comes before what is found behind it, errors
        -- included.
        rcases valueLeaves name (joinKey (groupKey group) text) value with e | here
        · rfl
        · rcases leaves name (groupKey group) rest with e | later <;> rfl

end

/-- An axis gives what its nodes say. -/
theorem ofValue_eq (value : Value) :
    ofValue name value = (outcome name (nodes value)).map SortedMap.ofList := by
  cases value with
  | null | bool b | number n | text s | sequence items | tagged tag v => rfl
  | mapping entries =>
      have hsound : (AxisNode.axis (.mapping entries)).IsSound := Or.inr ⟨entries, rfl⟩
      rw [nodes, outcome, if_pos hsound, ofValue]
      show (leaves name (groupKey []) entries).map SortedMap.ofList = _
      rw [leaves_eq_outcome]
      rcases outcome name (entryNodes [] entries) with e | l <;> rfl

theorem ofValue_eq_ok_iff {value : Value} {s : Scale} :
    ofValue name value = .ok s ↔ (∀ n ∈ nodes value, n.IsSound) ∧
      s = SortedMap.ofList ((nodes value).filterMap AxisNode.pair?) := by
  rw [ofValue_eq]
  rcases houtcome : outcome name (nodes value) with e | l
  · have hfalse : ¬ ∀ n ∈ nodes value, n.IsSound := fun hall => by
      cases houtcome.symm.trans (outcome_eq_ok_iff.2 ⟨hall, rfl⟩)
    simp only [Except.map, reduceCtorEq, hfalse, false_and]
  · rcases outcome_eq_ok_iff.1 houtcome with ⟨hall, rfl⟩
    simp only [Except.map, Except.ok.injEq, eq_comm]
    exact ⟨fun h => ⟨hall, h⟩, And.right⟩

theorem mem_entries_iff {ns : List AxisNode} (hns : ∀ n ∈ ns, n.IsSound) {key : String} :
    (∃ e ∈ ns.filterMap AxisNode.pair?, e.1 = key) ↔
      ∃ path leaf, .leaf path leaf ∈ ns ∧ keyOf path = key := by
  constructor
  · rintro ⟨⟨key, text⟩, he, rfl⟩
    rcases List.mem_filterMap.1 he with ⟨n, hn, hentry⟩
    rcases AxisNode.pair?_eq_some_iff.1 hentry with ⟨path, leaf, rfl, hkey, -⟩
    exact ⟨path, leaf, hn, hkey⟩
  · rintro ⟨path, leaf, hmem, hkey⟩
    rcases hns _ hmem with ⟨text, htext, -⟩
    have hentry := AxisNode.pair?_eq_some_iff.2 ⟨path, leaf, rfl, hkey, htext⟩
    exact ⟨_, List.mem_filterMap.2 ⟨_, hmem, hentry⟩, rfl⟩

end Scale

namespace SortedMap

variable {α : Type} {l : List (String × α)} {key : String}

/-- The first entry under a key is the one that is found. -/
theorem find?_eq_some_iff {value : α} :
    find? key l = some value ↔
      ∃ before after, l = before ++ (key, value) :: after ∧ ∀ e ∈ before, e.1 ≠ key := by
  constructor
  · intro h
    induction l with
    | nil => cases h
    | cons e l ih =>
        rw [find?] at h
        by_cases he : e.1 = key
        · rw [if_pos he] at h
          refine ⟨[], l, ?_, fun _ hmem => absurd hmem List.not_mem_nil⟩
          rw [List.nil_append, ← he, ← Option.some.inj h]
        · rw [if_neg he] at h
          rcases ih h with ⟨before, after, rfl, hbefore⟩
          exact ⟨e :: before, after, rfl, List.forall_mem_cons.2 ⟨he, hbefore⟩⟩
  · rintro ⟨before, after, rfl, hbefore⟩
    induction before with
    | nil => exact if_pos rfl
    | cons e before ih =>
        rcases List.forall_mem_cons.1 hbefore with ⟨he, hbefore⟩
        rw [List.cons_append, find?, if_neg he]
        exact ih hbefore

theorem get?_ofList : (ofList l).get? key = find? key l.reverse := by
  rw [ofList, get?_insertMany]
  exact Option.or_none

/-- In the map of a list the last entry under a key counts. -/
theorem get?_ofList_eq_some_iff {value : α} :
    (ofList l).get? key = some value ↔
      ∃ before after, l = before ++ (key, value) :: after ∧ ∀ e ∈ after, e.1 ≠ key := by
  rw [get?_ofList, find?_eq_some_iff]
  constructor
  · rintro ⟨before, after, hl, hbefore⟩
    refine ⟨after.reverse, before.reverse, ?_, fun e he => hbefore e (List.mem_reverse.1 he)⟩
    rw [← List.reverse_reverse l, hl, List.reverse_append, List.reverse_cons, List.append_assoc,
      List.singleton_append]
  · rintro ⟨before, after, rfl, hafter⟩
    refine ⟨after.reverse, before.reverse, ?_, fun e he => hafter e (List.mem_reverse.1 he)⟩
    rw [List.reverse_append, List.reverse_cons, List.append_assoc, List.singleton_append]

/-- The keys of the map of a list are those of the list. -/
theorem contains_ofList : (ofList l).contains key = true ↔ ∃ e ∈ l, e.1 = key := by
  rw [contains, get?_ofList]
  constructor
  · intro h
    rcases Option.isSome_iff_exists.1 h with ⟨value, hvalue⟩
    exact ⟨_, List.mem_reverse.1 (mem_of_find? hvalue), rfl⟩
  · rintro ⟨e, he, rfl⟩
    have hmem : e ∈ l.reverse := List.mem_reverse.2 he
    generalize l.reverse = l' at hmem
    induction l' with
    | nil => exact absurd hmem List.not_mem_nil
    | cons first l' ih =>
        rw [find?]
        by_cases hfirst : first.1 = e.1
        · rw [if_pos hfirst]
          rfl
        · rw [if_neg hfirst]
          refine ih ((List.mem_cons.1 hmem).resolve_left ?_)
          rintro rfl
          exact hfirst rfl

end SortedMap

namespace Scale

/-- Where nothing is wrong, the last entry of a key is that of the last leaf of that key. -/
theorem exists_filterMap_pair?_iff {ns : List AxisNode} (hns : ∀ n ∈ ns, n.IsSound)
    {key text : String} :
    (∃ before after, ns.filterMap AxisNode.pair? = before ++ (key, text) :: after ∧
      ∀ e ∈ after, e.1 ≠ key) ↔
    ∃ before path leaf after, ns = before ++ .leaf path leaf :: after ∧ keyOf path = key ∧
      leafText? leaf = some text ∧
        ∀ path' leaf', .leaf path' leaf' ∈ after → keyOf path' ≠ key := by
  constructor
  · rintro ⟨before, after, hentries, hafter⟩
    -- The entry comes from a leaf, and the entries behind it come from the nodes behind
    -- that leaf.
    rcases List.filterMap_eq_append_iff.1 hentries with ⟨first, later, rfl, -, hlater⟩
    rcases List.filterMap_eq_cons_iff.1 hlater with ⟨skipped, n, rest, rfl, -, hn, rfl⟩
    rcases AxisNode.pair?_eq_some_iff.1 hn with ⟨path, leaf, rfl, hkey, htext⟩
    refine ⟨first ++ skipped, path, leaf, rest, (List.append_assoc ..).symm, hkey, htext, ?_⟩
    intro path' leaf' hmem hkey'
    have hrest : ∀ n ∈ rest, n.IsSound := fun n hn =>
      hns n (List.mem_append_right _ (List.mem_append_right _ (List.mem_cons_of_mem _ hn)))
    rcases (mem_entries_iff hrest).2 ⟨path', leaf', hmem, hkey'⟩ with ⟨e, he, hekey⟩
    exact hafter e he hekey
  · rintro ⟨before, path, leaf, after, rfl, hkey, htext, hafter⟩
    have hentry := AxisNode.pair?_eq_some_iff.2 ⟨path, leaf, rfl, hkey, htext⟩
    refine ⟨before.filterMap AxisNode.pair?, after.filterMap AxisNode.pair?, ?_, ?_⟩
    · rw [List.filterMap_append, List.filterMap_cons_some hentry]
    · intro e he hekey
      have hsound : ∀ n ∈ after, n.IsSound := fun n hn =>
        hns n (List.mem_append_right _ (List.mem_cons_of_mem _ hn))
      rcases (mem_entries_iff hsound).1 ⟨e, he, hekey⟩ with ⟨path', leaf', hmem, hkey'⟩
      exact hafter path' leaf' hmem hkey'

/-- What becomes of every axis. -/
theorem flattens_ofValue (name : String) (value : Value) : Flattens name value where
  accepted := by
    simp only [ofValue_eq_ok_iff, exists_and_left, exists_eq, and_true]
  keys := by
    intro s hs key
    rcases ofValue_eq_ok_iff.1 hs with ⟨hall, rfl⟩
    rw [SortedMap.contains_ofList, mem_entries_iff hall]
  values := by
    intro s hs key text
    rcases ofValue_eq_ok_iff.1 hs with ⟨hall, rfl⟩
    rw [SortedMap.get?_ofList_eq_some_iff, exists_filterMap_pair?_iff hall]
  refused := by
    intro e
    rw [ofValue_eq, ← outcome_eq_error_iff]
    rcases outcome name (nodes value) with e' | l <;>
      simp only [Except.map, reduceCtorEq, Except.error.injEq]

-- The group stands for itself under `DEFAULT`, and of two leaves of one key the last one counts.
example :
    (ofValue "colors" (.mapping
      [(.text "red", .mapping [(.text "DEFAULT", .text "#f00"), (.text "dark", .text "#900")]),
        (.text "red-dark", .text "#800")])).toOption.map SortedMap.entries
      = some [("red", "#f00"), ("red-dark", "#800")] := by
  decide +kernel

end Scale

end UtilityCss

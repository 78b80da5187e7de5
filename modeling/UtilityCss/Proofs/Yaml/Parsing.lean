import UtilityCss.Yaml.Node

/-!
# Reading Node by Node

How nodes are put together from the tokens of their parts.

A node is read by a function for each kind of collection, and each of them calls the others for
what is inside. Here this is said as rules: if the parts of a node are read from the tokens that
follow, and leave some others, then so is the node. What a document spells is then derived from
its tokens rule by rule, without a look at how the functions pass on what is left.

The number of steps only has to be large enough, and each rule says by how much one more is
needed.

## Theorems

* `Yaml.Reading.run_bind`: Two readings, one after the other.
* `Yaml.Reading.run_node_blockSequence`, `Yaml.Reading.run_node_blockMapping`: Nodes.
* `Yaml.Reading.run_items_scalars`: The items of a sequence of scalars.
* `Yaml.Reading.run_entries_cons`: An entry of a mapping.
* `Yaml.ofTokens?_eq`: The document of a node that takes up all tokens.
-/

namespace UtilityCss

namespace Yaml

namespace Reading

variable {n : Nat} {ts : List Token} {s s' : Stream} {a : List (List Char × Node)}
  {indentless : Bool}

theorem run_bind {α β : Type} {x : Reading α} {f : α → Reading β} {v : α}
    (h : x.run s = some (v, s')) : (x >>= f).run s = (f v).run s' := by
  rw [StateT.run_bind, h]
  rfl

/-- Brackets with nothing between them. -/
theorem run_node_openSequence {block : Bool} :
    (node (n + 3) block indentless).run ⟨.openSequence :: .closeSequence :: ts, a⟩
      = some (.sequence [], ⟨ts, a⟩) :=
  rfl

/-- Braces with nothing between them. -/
theorem run_node_openMapping {block : Bool} :
    (node (n + 3) block indentless).run ⟨.openMapping :: .closeMapping :: ts, a⟩
      = some (.mapping [], ⟨ts, a⟩) :=
  rfl

/-! ### Sequences -/

theorem run_node_blockSequence {items : List Node}
    (h : (Reading.items n true).run ⟨ts, a⟩ = some (items, s)) :
    (node (n + 2) true indentless).run ⟨.blockSequence :: ts, a⟩ = some (.sequence items, s) := by
  show (Reading.items n true >>= fun items => pure (Node.sequence items)).run ⟨ts, a⟩ = _
  exact run_bind h

theorem run_items_nil : (items (n + 1) true).run ⟨.blockEnd :: ts, a⟩ = some ([], ⟨ts, a⟩) :=
  rfl

theorem run_items_cons {cs : List Char} {plain : Bool} {rest : List Node}
    (h : (items (n + 2) true).run ⟨ts, a⟩ = some (rest, s)) :
    (items (n + 3) true).run ⟨.item :: .scalar cs plain :: ts, a⟩
      = some (.scalar (String.ofList cs) plain :: rest, s) := by
  show (items (n + 2) true >>= fun rest =>
    pure (Node.scalar (String.ofList cs) plain :: rest)).run ⟨ts, a⟩ = _
  exact run_bind h

/-- The items of a sequence of scalars. -/
theorem run_items_scalars (texts : List (List Char)) (plain : Bool) :
    (items (texts.length + (n + 3)) true).run
        ⟨texts.flatMap (fun cs => [.item, .scalar cs plain]) ++ .blockEnd :: ts, a⟩
      = some (texts.map fun cs => .scalar (String.ofList cs) plain, ⟨ts, a⟩) := by
  induction texts generalizing n with
  | nil => exact run_items_nil
  | cons cs texts ih =>
      rw [List.length_cons, Nat.add_right_comm]
      exact run_items_cons (n := texts.length + (n + 1)) ih

/-! ### Mappings -/

theorem run_node_blockMapping {entries : List (Node × Node)}
    (h : (Reading.entries n).run ⟨ts, a⟩ = some (entries, s)) :
    (node (n + 2) true indentless).run ⟨.blockMapping :: ts, a⟩ = some (.mapping entries, s) := by
  show (Reading.entries n >>= fun entries => pure (Node.mapping entries)).run ⟨ts, a⟩ = _
  exact run_bind h

theorem run_entries_nil : (entries (n + 1)).run ⟨.blockEnd :: ts, a⟩ = some ([], ⟨ts, a⟩) :=
  rfl

/-- An entry with a key and a value that are both written. -/
theorem run_entries_cons {cs : List Char} {plain : Bool} {v : Node} {rest : List (Node × Node)}
    {t : Token} (ht : [Token.key, .value, .blockEnd].contains t = false)
    (hv : (node (n + 2) true true).run ⟨t :: ts, a⟩ = some (v, s))
    (h : (entries (n + 2)).run s = some (rest, s')) :
    (entries (n + 3)).run ⟨.key :: .scalar cs plain :: .value :: t :: ts, a⟩
      = some ((.scalar (String.ofList cs) plain, v) :: rest, s') := by
  have hkey : (entries (n + 3)).run ⟨.key :: .scalar cs plain :: .value :: t :: ts, a⟩
      = (do
          let v ←
            if [Token.key, .value, .blockEnd].contains t then pure Node.empty
            else node (n + 2) true true
          return (Node.scalar (String.ofList cs) plain, v) :: (← entries (n + 2))).run
            ⟨t :: ts, a⟩ :=
    rfl
  rw [hkey, ht, if_neg Bool.false_ne_true, run_bind hv, run_bind h]
  rfl

end Reading

/-- The document of a node that takes up all tokens. -/
theorem ofTokens?_eq {t : Token} {ts : List Token} {n : Node} {a : List (List Char × Node)}
    (ht : t ≠ .documentStart)
    (h : (Reading.node (4 * (t :: ts).length + 4) true false).run ⟨t :: ts, []⟩ = some (n, ⟨[], a⟩))
    (hdepth : n.depth ≤ Node.maxDepth) : ofTokens? (t :: ts) = some (some n) := by
  rw [ofTokens?]
  simp only [ht, decide_false, Bool.false_and, Bool.false_eq_true, if_false, h, Option.map_some,
    List.all_nil, hdepth, decide_true, Bool.and_self, if_true]

end Yaml

end UtilityCss

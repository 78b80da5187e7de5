import Mathlib.Data.List.Forall2
import UtilityCss.Grammar.Default
import UtilityCss.Proofs.Resolution
import UtilityCss.Proofs.Token.Pieces

/-!
# Rules Made of Parts

What each part of a token gives to its rule.

A rule is made in one pass over a token, but its parts do not mix. The utility gives the
declarations, the layer and its rank, the mark of importance only adds a word to the values,
and the variants give everything else. So the rule can be had from the rule of the utility
alone, and if one of the parts gives nothing there is no rule at all, never one that lacks
a part.

Variants are of four kinds, and what a rule gets from the variants of one kind depends on
their order and on nothing else. A token whose variants are mixed in another way, with the
order inside each kind kept, is another class and has another selector; but the
declarations, the at-rules around them and the place in the cascade are the same.

That such a token is one at all is not taken for granted: colons separate variants only
outside brackets. `parse?_name_of_subset` says that the pieces of a token can be put
together in any order.

## Main definitions

* `Variant.Kind`, `Variant.ofKind`: Variants by where their texts go.
* `Variant.IsInterleaving`: The order inside each kind is kept.
* `Token.bare`: The utility of a token alone.
* `Rule.IsMadeOf`: A rule is made of the rule of its utility and of variants.
* `Rule.shared`: What does not depend on how variants of different kinds are mixed.
* `Rule.Factors`: The rule of a token is made of its parts.

## Theorems

* `filterMap_atRule?`, `join_map_eq_ofKind`: What a list of variants gives, by kind.
* `forall₂_ofKind`: The names of the variants of one kind.
* `isMadeOf_assemble`: A rule is made of its parts.
* `shared_of_isMadeOf`: What rules with the same parts have in common.
* `factors_of_parse?`: The rule of every token is made of its parts.
-/

namespace UtilityCss

/-! ### Look-ups of lists -/

theorem isSome_mapM_iff {α β : Type} {f : α → Option β} {as : List α} :
    (as.mapM f).isSome = true ↔ ∀ a ∈ as, (f a).isSome = true := by
  constructor
  · intro h a ha
    rcases Option.isSome_iff_exists.1 h with ⟨bs, hbs⟩
    exact Option.isSome_iff_exists.2 (exists_of_mapM_eq_some hbs ha)
  · intro h
    induction as with
    | nil => rfl
    | cons a as ih =>
        rcases Option.isSome_iff_exists.1 (h a List.mem_cons_self) with ⟨b, hb⟩
        rcases Option.isSome_iff_exists.1 (ih fun a' ha' => h a' (List.mem_cons_of_mem _ ha'))
          with ⟨bs, hbs⟩
        simp only [List.mapM_cons, Option.pure_def, Option.bind_eq_bind, hb, hbs,
          Option.bind_some, Option.isSome_some]

theorem forall₂_of_mapM_eq_some {α β : Type} {f : α → Option β} {as : List α} {bs : List β}
    (h : as.mapM f = some bs) : List.Forall₂ (fun a b => f a = some b) as bs := by
  induction as generalizing bs with
  | nil =>
      simp only [List.mapM_nil, Option.pure_def, Option.some.injEq] at h
      rw [← h]
      exact .nil
  | cons a as ih =>
      simp only [List.mapM_cons, Option.pure_def, Option.bind_eq_bind,
        Option.bind_eq_some_iff, Option.some.injEq] at h
      rcases h with ⟨b, hb, bs', hbs, rfl⟩
      exact .cons hb (ih hbs)

/-! ### Variants by kind -/

namespace Variant

/-- The kinds of variants, by where their texts go. -/
inductive Kind where
  /-- Around the rule. -/
  | atRule
  /-- Behind the class. -/
  | pseudoClass
  /-- Behind all pseudo-classes. -/
  | pseudoElement
  /-- In front of the class. -/
  | relative
deriving DecidableEq, Repr

/-- The kind of a variant. -/
def kind : Variant → Kind
  | .atRule _ _ => .atRule
  | .pseudoClass _ => .pseudoClass
  | .pseudoElement _ => .pseudoElement
  | .relative _ => .relative

/-- The text that the variant adds. -/
def text : Variant → String
  | .atRule rule _ => rule
  | .pseudoClass text => text
  | .pseudoElement text => text
  | .relative text => text

/-- The rank of an at-rule. No other variant has one. -/
def rank : Variant → Nat
  | .atRule _ rank => rank
  | _ => 0

/-- The variants of one kind, in order. -/
def ofKind (k : Kind) (variants : List Variant) : List Variant :=
  variants.filter fun v => v.kind = k

/-- The name stands for a variant of the kind. -/
def hasKind (theme : Theme) (mode : DarkMode) (k : Kind) (name : String) : Bool :=
  (ofName? theme mode name).any fun v => v.kind = k

/-- The same names, mixed in another way: the order of those that stand for variants of
    one kind is kept. -/
def IsInterleaving (theme : Theme) (mode : DarkMode) (names names' : List String) : Prop :=
  names'.Perm names ∧
    ∀ k, names'.filter (hasKind theme mode k) = names.filter (hasKind theme mode k)

theorem ofKind_cons (k : Kind) (v : Variant) (variants : List Variant) :
    ofKind k (v :: variants)
      = if v.kind = k then v :: ofKind k variants else ofKind k variants := by
  simp only [ofKind, List.filter_cons, decide_eq_true_eq]

theorem atRule?_eq (v : Variant) :
    v.atRule? = if v.kind = .atRule then some (v.text, v.rank) else none := by
  cases v <;> rfl

theorem filterMap_atRule? (variants : List Variant) :
    variants.filterMap atRule? = (ofKind .atRule variants).map fun v => (v.text, v.rank) := by
  induction variants with
  | nil => rfl
  | cons v variants ih =>
      rw [List.filterMap_cons, ih, atRule?_eq, ofKind_cons]
      by_cases hkind : v.kind = .atRule
      · rw [if_pos hkind, if_pos hkind, List.map_cons]
      · rw [if_neg hkind, if_neg hkind]

-- A part of the selector is the texts of the variants of one kind, since the others add
-- nothing to it.
theorem join_map_eq_ofKind {k : Kind} {part : Variant → String}
    (h : ∀ v, part v = if v.kind = k then v.text else "") (variants : List Variant) :
    String.join (variants.map part) = String.join ((ofKind k variants).map text) := by
  induction variants with
  | nil => rfl
  | cons v variants ih =>
      rw [List.map_cons, String.join_cons, ih, h, ofKind_cons]
      by_cases hkind : v.kind = k
      · rw [if_pos hkind, if_pos hkind, List.map_cons, String.join_cons]
      · rw [if_neg hkind, if_neg hkind, String.empty_append]

theorem before_eq (v : Variant) : v.before = if v.kind = .relative then v.text else "" := by
  cases v <;> rfl

theorem classPart_eq (v : Variant) :
    v.classPart = if v.kind = .pseudoClass then v.text else "" := by
  cases v <;> rfl

theorem elementPart_eq (v : Variant) :
    v.elementPart = if v.kind = .pseudoElement then v.text else "" := by
  cases v <;> rfl

theorem isAtRule_iff (v : Variant) : v.isAtRule = true ↔ v.kind = .atRule := by
  cases v <;> simp only [isAtRule, kind, reduceCtorEq]

theorem exists_kind_iff {k : Kind} {variants : List Variant} :
    (∃ v ∈ variants, v.kind = k) ↔ ofKind k variants ≠ [] := by
  simp only [ofKind, ne_eq, List.filter_eq_nil_iff, decide_eq_true_eq, not_forall, not_not,
    exists_prop]

section

variable {theme : Theme} {mode : DarkMode}

/-- The names of the variants of one kind stand for these. -/
theorem forall₂_ofKind {names : List String} {variants : List Variant}
    (h : List.Forall₂ (fun name v => ofName? theme mode name = some v) names variants)
    (k : Kind) :
    List.Forall₂ (fun name v => ofName? theme mode name = some v)
      (names.filter (hasKind theme mode k)) (ofKind k variants) := by
  refine List.rel_filter (fun name v hname => ?_) h
  simp only [hasKind, hname, Option.any_some]

theorem ofKind_eq_of_isInterleaving {names names' : List String} {variants variants' : List Variant}
    (h : List.Forall₂ (fun name v => ofName? theme mode name = some v) names variants)
    (h' : List.Forall₂ (fun name v => ofName? theme mode name = some v) names' variants')
    (hmix : IsInterleaving theme mode names names') (k : Kind) :
    ofKind k variants' = ofKind k variants := by
  have hnames' := forall₂_ofKind h' k
  rw [hmix.2 k] at hnames'
  -- A name stands for one variant, so the same names stand for the same variants.
  refine List.right_unique_forall₂' (fun name v v' hv hv' => ?_) hnames' (forall₂_ofKind h k)
  exact Option.some.inj (hv.symm.trans hv')

end

end Variant

namespace Token

/-- The utility of a token alone: without variants and without mark of importance. -/
def bare (t : Token) : Token := ⟨[], false, t.negative, t.core⟩

end Token

namespace Rule

open Variant (ofKind)

/-- A rule is made of the rule of its utility alone and of variants. -/
structure IsMadeOf (token : String) (important : Bool) (variants : List Variant)
    (alone r : Rule) : Prop where
  token_eq : r.token = token
  declarations : r.declarations = alone.declarations.map fun d =>
    ⟨d.property, if important then d.value ++ " !important" else d.value⟩
  layer : r.order.layer = alone.order.layer
  utilityRank : r.order.utilityRank = alone.order.utilityRank
  atRules : r.atRules = (ofKind .atRule variants).map Variant.text
  atRuleRanks : r.order.atRuleRanks = (ofKind .atRule variants).map Variant.rank
  variantCount : r.order.variantCount = variants.length
  tier : r.order.tier =
    if ∃ v ∈ variants, v.kind = .atRule then .atRule
    else if variants ≠ [] then .selector else .plain
  selector : r.selector = String.join ((ofKind .relative variants).map Variant.text)
    ++ ("." ++ Token.escape token) ++ String.join ((ofKind .pseudoClass variants).map Variant.text)
    ++ String.join ((ofKind .pseudoElement variants).map Variant.text)

/-- What a rule does not owe to the way its variants are mixed. -/
def shared (r : Rule) : List Declaration × List String × RuleOrder :=
  (r.declarations, r.atRules, r.order)

/-- The rule of a token is made of its parts: there is one exactly if every variant and the
    utility alone give something, it is made of what they give, and other ways to mix the
    variants give the same but for the selector. -/
structure Factors (theme : Theme) (g : Grammar) (t : Token) : Prop where
  isSome_iff : (ofToken? theme g t.name).isSome = true ↔
    (∀ name ∈ t.variants, (Variant.ofName? theme g.darkMode name).isSome = true) ∧
      (ofToken? theme g t.bare.name).isSome = true
  isMadeOf : ∀ r, ofToken? theme g t.name = some r → ∃ alone variants,
    ofToken? theme g t.bare.name = some alone ∧
      List.Forall₂ (fun name v => Variant.ofName? theme g.darkMode name = some v)
        t.variants variants ∧
      IsMadeOf t.name t.important variants alone r
  interleaved : ∀ names, Variant.IsInterleaving theme g.darkMode t.variants names →
    Token.parse? (Token.name { t with variants := names }) = some { t with variants := names } ∧
      (ofToken? theme g (Token.name { t with variants := names })).map shared
        = (ofToken? theme g t.name).map shared

theorem tier_eq (variants : List Variant) :
    Tier.ofVariants variants = if ∃ v ∈ variants, v.kind = .atRule then .atRule
      else if variants ≠ [] then .selector else .plain := by
  have hany : variants.any Variant.isAtRule = true ↔ ∃ v ∈ variants, v.kind = .atRule := by
    simp only [List.any_eq_true, Variant.isAtRule_iff]
  simp only [Tier.ofVariants, hany, List.isEmpty_iff, ne_eq, ite_not]

/-- A rule is made of the rule that has its resolution and nothing else. -/
theorem isMadeOf_assemble (token bare : String) (important : Bool) (variants : List Variant)
    (resolution : Resolution) :
    IsMadeOf token important variants (assemble bare false [] resolution)
      (assemble token important variants resolution) where
  token_eq := rfl
  declarations := by
    simp only [assemble, List.map_map]
    refine List.map_congr_left fun d _ => ?_
    cases important <;> rfl
  layer := rfl
  utilityRank := rfl
  atRules := by
    simp only [assemble, Variant.filterMap_atRule?, List.map_map]
    rfl
  atRuleRanks := by
    simp only [assemble, Variant.filterMap_atRule?, List.map_map]
    rfl
  variantCount := rfl
  tier := tier_eq variants
  selector := by
    simp only [assemble, Variant.selector, Variant.join_map_eq_ofKind Variant.before_eq,
      Variant.join_map_eq_ofKind Variant.classPart_eq,
      Variant.join_map_eq_ofKind Variant.elementPart_eq]

/-- Rules made of the same utility and of as many variants, with the same at-rules among
    them, have all but token and selector in common. -/
theorem shared_of_isMadeOf {token token' : String} {important : Bool}
    {variants variants' : List Variant} {alone r r' : Rule}
    (h : IsMadeOf token important variants alone r)
    (h' : IsMadeOf token' important variants' alone r')
    (hlength : variants'.length = variants.length)
    (hatRules : ofKind .atRule variants' = ofKind .atRule variants) : r'.shared = r.shared := by
  have hempty : variants' ≠ [] ↔ variants ≠ [] := by
    rw [← List.length_pos_iff_ne_nil, ← List.length_pos_iff_ne_nil, hlength]
  have htier : r'.order.tier = r.order.tier := by
    simp only [h'.tier, h.tier, Variant.exists_kind_iff, hatRules, hempty]
  -- The order is made of the layer, the rank of the utility and what the variants have in
  -- common.
  have horder : r'.order = r.order := by
    have hlayer := h'.layer.trans h.layer.symm
    have hranks := h'.atRuleRanks.trans (hatRules ▸ h.atRuleRanks.symm)
    have hcount := h'.variantCount.trans (hlength.trans h.variantCount.symm)
    have hutility := h'.utilityRank.trans h.utilityRank.symm
    rcases hr : r.order with ⟨layer, tier, ranks, count, rank⟩
    rcases hr' : r'.order with ⟨layer', tier', ranks', count', rank'⟩
    rw [hr, hr'] at hlayer htier hranks hcount hutility
    simp only at hlayer htier hranks hcount hutility
    rw [hlayer, htier, hranks, hcount, hutility]
  rw [shared, shared, horder, h'.declarations, h.declarations, h'.atRules, h.atRules, hatRules]

section

variable {theme : Theme} {g : Grammar}

-- The core knows nothing of variants and of the mark of importance.
theorem ofCore?_variants (names : List String) (important : Bool) (t : Token) :
    Resolution.ofCore? theme g ⟨names, important, t.negative, t.core⟩
      = Resolution.ofCore? theme g t := rfl

theorem ofToken?_bare {t : Token} (h : Token.parse? t.name = some t) :
    ofToken? theme g t.bare.name
      = (Resolution.ofCore? theme g t).map (assemble t.bare.name false []) := by
  have hparse : Token.parse? t.bare.name = some t.bare :=
    Token.parse?_name_of_subset h (fun v hv => absurd hv List.not_mem_nil) false
  unfold ofToken?
  rw [hparse]
  simp only [Token.bare, ofCore?_variants, List.mapM_nil, Option.pure_def]
  cases Resolution.ofCore? theme g t <;> rfl

theorem isSome_ofToken?_iff {t : Token} (h : Token.parse? t.name = some t) :
    (ofToken? theme g t.name).isSome = true ↔
      (∀ name ∈ t.variants, (Variant.ofName? theme g.darkMode name).isSome = true) ∧
        (ofToken? theme g t.bare.name).isSome = true := by
  rw [ofToken?_bare h, Option.isSome_map, ← isSome_mapM_iff]
  -- The token and its utility alone have the same core, so only the variants are left.
  constructor
  · intro hsome
    rcases Option.isSome_iff_exists.1 hsome with ⟨r, hr⟩
    rcases ofToken?_eq_some_iff.1 hr with ⟨t', variants, resolution, ht', hv, hcore, -⟩
    rw [h, Option.some.injEq] at ht'
    subst ht'
    rw [hv, hcore]
    exact ⟨rfl, rfl⟩
  · rintro ⟨hvariants, hcore⟩
    rcases Option.isSome_iff_exists.1 hvariants with ⟨variants, hv⟩
    rcases Option.isSome_iff_exists.1 hcore with ⟨resolution, hr⟩
    rw [ofToken?_eq_some_iff.2 ⟨t, variants, resolution, h, hv, hr, rfl⟩]
    rfl

theorem isMadeOf_of_ofToken? {t : Token} (h : Token.parse? t.name = some t) {r : Rule}
    (hr : ofToken? theme g t.name = some r) : ∃ alone variants,
      ofToken? theme g t.bare.name = some alone ∧
        List.Forall₂ (fun name v => Variant.ofName? theme g.darkMode name = some v)
          t.variants variants ∧
        IsMadeOf t.name t.important variants alone r := by
  rcases ofToken?_eq_some_iff.1 hr with ⟨t', variants, resolution, ht', hv, hcore, rfl⟩
  rw [h, Option.some.injEq] at ht'
  subst ht'
  refine ⟨assemble t.bare.name false [] resolution, variants, ?_, forall₂_of_mapM_eq_some hv,
    isMadeOf_assemble _ _ _ _ resolution⟩
  rw [ofToken?_bare h, hcore]
  rfl

theorem shared_of_isInterleaving {t : Token} (h : Token.parse? t.name = some t)
    {names : List String} (hmix : Variant.IsInterleaving theme g.darkMode t.variants names) :
    Token.parse? (Token.name { t with variants := names }) = some { t with variants := names } ∧
      (ofToken? theme g (Token.name { t with variants := names })).map shared
        = (ofToken? theme g t.name).map shared := by
  have hparse : Token.parse? (Token.name { t with variants := names })
      = some { t with variants := names } :=
    Token.parse?_name_of_subset h (fun v hv => hmix.1.mem_iff.1 hv) t.important
  refine ⟨hparse, ?_⟩
  -- Both tokens have a rule or none has, since the names are the same.
  have hiff : (ofToken? theme g (Token.name { t with variants := names })).isSome = true ↔
      (ofToken? theme g t.name).isSome = true := by
    rw [isSome_ofToken?_iff h, isSome_ofToken?_iff hparse]
    simp only [hmix.1.mem_iff]
    rfl
  rcases hr : ofToken? theme g t.name with _ | r
  · rw [hr, Option.isSome_none, Bool.false_eq_true, iff_false, Bool.not_eq_true,
      Option.isSome_eq_false_iff, Option.isNone_iff_eq_none] at hiff
    rw [hiff]
  · rw [hr] at hiff
    rcases Option.isSome_iff_exists.1 (hiff.2 rfl) with ⟨r', hr'⟩
    rcases isMadeOf_of_ofToken? h hr with ⟨alone, variants, halone, hnames, hmade⟩
    rcases isMadeOf_of_ofToken? hparse hr' with ⟨alone', variants', halone', hnames', hmade'⟩
    have hsame : alone' = alone := Option.some.inj (halone'.symm.trans halone)
    rw [hsame] at hmade'
    have hlength : variants'.length = variants.length := by
      rw [← hnames'.length_eq, ← hnames.length_eq]
      exact hmix.1.length_eq
    rw [hr', Option.map_some, Option.map_some, shared_of_isMadeOf hmade hmade' hlength
      (Variant.ofKind_eq_of_isInterleaving hnames hnames' hmix .atRule)]

end

/-- The rule of every token is made of its parts: of its variants, its mark of importance
    and its utility. -/
theorem factors_of_parse? (theme : Theme) (g : Grammar) {t : Token}
    (h : Token.parse? t.name = some t) : Factors theme g t where
  isSome_iff := isSome_ofToken?_iff h
  isMadeOf := fun _ hr => isMadeOf_of_ofToken? h hr
  interleaved := fun _ hmix => shared_of_isInterleaving h hmix

/-- Four variants of two kinds, with the at-rules moved to the front. -/
theorem factors_of_parse?_flex :
    let t : Token := ⟨["hover", "dark", "focus", "print"], true, false, "flex"⟩
    Token.parse? t.name = some t ∧ Factors Theme.empty Grammar.default t ∧
      (ofToken? Theme.empty Grammar.default "dark:print:hover:focus:!flex").map shared
        = (ofToken? Theme.empty Grammar.default t.name).map shared := by
  have hparse : Token.parse?
      (Token.name ⟨["hover", "dark", "focus", "print"], true, false, "flex"⟩)
        = some ⟨["hover", "dark", "focus", "print"], true, false, "flex"⟩ := by decide +kernel
  have hfactors := factors_of_parse? Theme.empty Grammar.default hparse
  refine ⟨hparse, hfactors,
    (hfactors.interleaved ["dark", "print", "hover", "focus"] ⟨by decide, fun k => ?_⟩).2⟩
  cases k <;> decide +kernel

end Rule

end UtilityCss

import UtilityCss.Grammar.Default
import UtilityCss.Proofs.Resolution
import UtilityCss.Proofs.Token.Cuts
import UtilityCss.Proofs.Token.Pieces
import UtilityCss.Theme.Default

/-!
# The Longest Name Wins

Which reading of a core decides what the core stands for.

Resolving goes through the readings of a core and stops at the first one that gives
declarations. Each of the searches inside a reading stops early in the same way: at the
first axis with the key, at the first target with a value, at the first target that
accepts what stands in the brackets. A reader of the configuration does not follow
searches. To them there is a set of readings that qualify, and the one with the longest
name counts.

So `Qualifies` says of one reading that it qualifies, without a word about the others.
What the searches skip is said where it matters: an axis counts if the axes before it
lack the key, a target if the targets before it yield nothing. `IsMeant` then puts the
readings together, and `ofCore?_longest` says that this is what a core resolves to.

A value that has no opposite is as good as none for a negated token: the search goes on
to the next target. Between brackets it ends there, since there the target is chosen by
what it accepts.

## Main definitions

* `Resolution.HasValue`: The value of a target for a key.
* `Resolution.Yields`: The declarations of a list of targets for a key.
* `Resolution.Qualifies`: A reading stands for a resolution.
* `Resolution.IsMeant`: What the core of a token stands for.

## Theorems

* `findSome?_eq_some_iff_longest`: In a list sorted by length, what is found first is
  the longest.
* `valueOf?_eq_some_iff`, `ofKey?_eq_some_iff`: The searches inside a reading.
* `ofReading?_eq_some_iff`: When a reading qualifies.
* `ofCore?_longest`: A core resolves to what it stands for, and a token whose core
  stands for nothing has no rule.
-/

namespace UtilityCss

-- What is found first in a list that is sorted by length is the longest that can be
-- found in it.
theorem findSome?_eq_some_iff_longest {α β : Type} {f : α → Option β} {length : α → Nat}
    {as : List α} (h : as.Pairwise fun a a' => length a' < length a) {b : β} :
    as.findSome? f = some b ↔ ∃ a ∈ as, f a = some b ∧
      ∀ a' ∈ as, ∀ b', f a' = some b' → a' = a ∨ length a' < length a := by
  constructor
  · intro hfind
    rcases List.findSome?_eq_some_iff.1 hfind with ⟨before, a, after, rfl, ha, hbefore⟩
    refine ⟨a, List.mem_append_right _ List.mem_cons_self, ha, fun a' ha' b' hb' => ?_⟩
    rcases List.mem_append.1 ha' with hmem | hmem
    · rw [hbefore a' hmem] at hb'
      exact absurd hb'.symm (Option.some_ne_none b')
    · rcases List.mem_cons.1 hmem with rfl | hmem
      · exact Or.inl rfl
      · have hsorted := (List.pairwise_append.1 h).2.1
        exact Or.inr ((List.pairwise_cons.1 hsorted).1 a' hmem)
  · rintro ⟨a, ha, hb, hlongest⟩
    rcases List.append_of_mem ha with ⟨before, after, rfl⟩
    refine List.findSome?_eq_some_iff.2 ⟨before, a, after, rfl, hb, fun a' ha' => ?_⟩
    -- What comes before is longer, so nothing was found in it.
    have hlt : length a < length a' :=
      (List.pairwise_append.1 h).2.2 a' ha' a List.mem_cons_self
    rw [Option.eq_none_iff_forall_ne_some]
    intro b' hb'
    rcases hlongest a' (List.mem_append_left _ ha') b' hb' with rfl | hlt'
    · exact absurd hlt (Nat.lt_irrefl _)
    · exact absurd hlt (Nat.lt_asymm hlt')

namespace Token

-- The core of a token starts with a lower-case letter.
theorem head?_of_parse? {token : String} {t : Token} (h : parse? token = some t) :
    t.core.toList.head? ≠ some '-' := by
  rcases parse?_eq_some_iff.1 h with ⟨-, -, -, hlower⟩
  intro hhead
  rcases List.head?_eq_some_iff.1 hhead with ⟨cs, hcs⟩
  rw [hcs, startsLower] at hlower
  exact absurd hlower (by decide)

end Token

namespace Resolution

/-- The value of a target for a key: of the first axis that has the key, the target's
    own if no axis has it, or a computed one if there is none of those. -/
inductive HasValue (theme : Theme) (t : Target) (key : String) : String → Prop where
  /-- An axis has the key. -/
  | axis (before after : List String) (name value : String)
      (haxes : t.axes = before ++ name :: after)
      (hbefore : ∀ other ∈ before, theme.get? other key = none)
      (hvalue : theme.get? name key = some value) : HasValue theme t key value
  /-- The target has the key itself. -/
  | own (value : String) (haxes : ∀ name ∈ t.axes, theme.get? name key = none)
      (hvalue : t.values.get? key = some value) : HasValue theme t key value
  /-- The value is computed from the key. -/
  | computed (value : String) (haxes : ∀ name ∈ t.axes, theme.get? name key = none)
      (hown : t.values.get? key = none)
      (hvalue : t.transform.valueFor? key = some value) : HasValue theme t key value

/-- The declarations of a list of targets for a key: those of the first target that
    accepts what stands between brackets, or else of the first target with a value that
    can have the sign. The extra declarations come first, then every property with the
    value. -/
inductive Yields (theme : Theme) (negative : Bool) (targets : List Target) (key : String) :
    List Declaration → Prop where
  /-- The key is in brackets. -/
  | bracketed (inner : String) (v : ArbitraryValue) (before after : List Target) (t : Target)
      (final : String) (hkey : key.toList = '[' :: (inner.toList ++ [']']))
      (hinner : ArbitraryValue.parse? inner = some v)
      (htargets : targets = before ++ t :: after)
      (hbefore : ∀ other ∈ before, other.accepts.admits v = false)
      (haccepts : t.accepts.admits v = true)
      (hfinal : signed? negative v.value = some final) :
      Yields theme negative targets key
        (t.extra ++ t.properties.map fun property => ⟨property, final⟩)
  /-- The key names a value. -/
  | named (before after : List Target) (t : Target) (value final : String)
      (hkey : ∀ inner, key.toList ≠ '[' :: (inner ++ [']']))
      (htargets : targets = before ++ t :: after)
      (hbefore : ∀ other ∈ before, ∀ skipped, HasValue theme other key skipped →
        signed? negative skipped = none)
      (hvalue : HasValue theme t key value) (hfinal : signed? negative value = some final) :
      Yields theme negative targets key
        (t.extra ++ t.properties.map fun property => ⟨property, final⟩)

/-- A reading of a token's core stands for a resolution: its name is that of a utility
    that takes the sign of the token, its value is not spelled as the key for no value,
    and the targets yield the declarations. -/
structure Qualifies (theme : Theme) (g : Grammar) (t : Token) (r : Token.Reading)
    (resolution : Resolution) : Prop where
  reads : Token.Reads t.core r
  value_ne : r.value ≠ some defaultKey
  exists_utility : ∃ found declarations, g.utility? r.stem = some found ∧
    (t.negative = true → found.item.negatable = true) ∧
    Yields theme t.negative found.item.targets (r.value.getD defaultKey) declarations ∧
    resolution = ⟨declarations, .utilities, found.rank⟩

/-- What the core of a token stands for: its static rule, if the token is not negated
    and there is one, or else its longest reading that qualifies. -/
inductive IsMeant (theme : Theme) (g : Grammar) (t : Token) : Resolution → Prop where
  /-- The core is the name of a static rule. -/
  | static (found : Ranked StaticRule) (hsign : t.negative = false)
      (hfound : g.staticRule? t.core = some found) : IsMeant theme g t (ofStatic found)
  /-- The core has a longest reading that qualifies. -/
  | longest (r : Token.Reading) (resolution : Resolution)
      (hstatic : t.negative = false → g.staticRule? t.core = none)
      (hr : Qualifies theme g t r resolution)
      (hlongest : ∀ r' resolution', Qualifies theme g t r' resolution' →
        r' = r ∨ r'.stem.toList.length < r.stem.toList.length) : IsMeant theme g t resolution

variable {theme : Theme} {g : Grammar}

/-! ### The searches inside a reading -/

theorem lookup?_eq_none_iff {axes : List String} {key : String} :
    theme.lookup? axes key = none ↔ ∀ name ∈ axes, theme.get? name key = none := by
  simp only [Theme.lookup?, List.findSome?_eq_none_iff]

theorem valueOf?_eq_some_iff {t : Target} {key value : String} :
    valueOf? theme t key = some value ↔ HasValue theme t key value := by
  simp only [valueOf?, Option.orElse_eq_orElse, Option.orElse_eq_or, Option.or_eq_some_iff,
    lookup?_eq_none_iff]
  -- The axes are tried in order, then the values of the target, and at last its transform.
  constructor
  · rintro (haxis | ⟨haxes, hown | ⟨hown, hvalue⟩⟩)
    · rcases List.findSome?_eq_some_iff.1 haxis with ⟨before, name, after, heq, hname, hbefore⟩
      exact .axis before after name value heq hbefore hname
    · exact .own value haxes hown
    · exact .computed value haxes hown hvalue
  · intro h
    cases h with
    | axis before after name _ heq hbefore hname =>
        exact Or.inl (List.findSome?_eq_some_iff.2 ⟨before, name, after, heq, hname, hbefore⟩)
    | own _ haxes hown => exact Or.inr ⟨haxes, Or.inl hown⟩
    | computed _ haxes hown hvalue => exact Or.inr ⟨haxes, Or.inr ⟨hown, hvalue⟩⟩

theorem bracketed?_eq_some_iff {key inner : String} :
    bracketed? key = some inner ↔ key.toList = '[' :: (inner.toList ++ [']']) := by
  unfold bracketed?
  split
  · next hnone =>
      refine iff_of_false (by simp only [reduceCtorEq, not_false_eq_true]) fun hkey => ?_
      rw [Text.dropWord?_eq_some_iff.2 (hkey.trans List.singleton_append.symm)] at hnone
      exact absurd hnone (Option.some_ne_none _)
  · next rest hrest =>
      rw [Text.dropWord?_eq_some_iff.1 hrest, List.singleton_append, List.cons.injEq,
        eq_self, true_and, Option.map_eq_some_iff]
      constructor
      · rintro ⟨cs, hcs, rfl⟩
        rw [String.toList_ofList]
        exact Text.dropLastWord?_eq_some_iff.1 hcs
      · intro hrest'
        exact ⟨inner.toList, Text.dropLastWord?_eq_some_iff.2 hrest', String.ofList_toList⟩

theorem bracketed?_eq_none_iff {key : String} :
    bracketed? key = none ↔ ∀ inner, key.toList ≠ '[' :: (inner ++ [']']) := by
  rw [Option.eq_none_iff_forall_ne_some]
  constructor
  · intro h inner hkey
    refine h (String.ofList inner) (bracketed?_eq_some_iff.2 ?_)
    rwa [String.toList_ofList]
  · intro h inner hkey
    exact h inner.toList (bracketed?_eq_some_iff.1 hkey)

theorem ofTarget?_eq_none_iff {negative : Bool} {key : String} {t : Target} :
    ofTarget? theme negative key t = none ↔
      ∀ value, HasValue theme t key value → signed? negative value = none := by
  unfold ofTarget?
  split
  · next hnone =>
      refine iff_of_true rfl fun value hvalue => ?_
      rw [valueOf?_eq_some_iff.2 hvalue] at hnone
      exact absurd hnone (Option.some_ne_none value)
  · next value hvalue =>
      rw [Option.map_eq_none_iff]
      constructor
      -- A target has one value at most.
      · intro hsigned other hother
        rw [valueOf?_eq_some_iff.2 hother, Option.some.injEq] at hvalue
        rw [hvalue, hsigned]
      · exact fun h => h value (valueOf?_eq_some_iff.1 hvalue)

theorem ofTarget?_eq_some_iff {negative : Bool} {key : String} {t : Target}
    {declarations : List Declaration} :
    ofTarget? theme negative key t = some declarations ↔
      ∃ value final, HasValue theme t key value ∧ signed? negative value = some final ∧
        t.declarations final = declarations := by
  simp only [← valueOf?_eq_some_iff, ofTarget?]
  split
  · next hnone => simp only [hnone, reduceCtorEq, false_and, exists_false]
  · next value hvalue =>
      rw [Option.map_eq_some_iff]
      constructor
      · rintro ⟨final, hfinal, rfl⟩
        exact ⟨value, final, hvalue, hfinal, rfl⟩
      · rintro ⟨other, final, hother, hfinal, rfl⟩
        rw [hvalue, Option.some.injEq] at hother
        exact ⟨final, by rw [hother]; exact hfinal, rfl⟩

theorem ofBracketed?_eq_some_iff {targets : List Target} {negative : Bool} {inner : String}
    {declarations : List Declaration} :
    ofBracketed? targets negative inner = some declarations ↔
      ∃ v t final, ArbitraryValue.parse? inner = some v ∧
        targets.find? (fun t => t.accepts.admits v) = some t ∧
        signed? negative v.value = some final ∧ t.declarations final = declarations := by
  unfold ofBracketed?
  constructor
  · intro h
    split at h
    · simp only [reduceCtorEq] at h
    · next v hv =>
        split at h
        · simp only [reduceCtorEq] at h
        · next t ht =>
            rcases Option.map_eq_some_iff.1 h with ⟨final, hfinal, hdeclarations⟩
            exact ⟨v, t, final, hv, ht, hfinal, hdeclarations⟩
  · rintro ⟨v, t, final, hv, ht, hfinal, rfl⟩
    simp only [hv, ht, hfinal, Option.map_some]

/-- The searches for a key give what its targets yield. -/
theorem ofKey?_eq_some_iff {targets : List Target} {negative : Bool} {key : String}
    {declarations : List Declaration} :
    ofKey? theme targets negative key = some declarations ↔
      Yields theme negative targets key declarations := by
  constructor
  · intro h
    unfold ofKey? at h
    split at h
    · next inner hinner =>
        -- The target is chosen by what it accepts, before the sign is looked at.
        rcases ofBracketed?_eq_some_iff.1 h with ⟨v, t, final, hv, ht, hfinal, rfl⟩
        rcases List.find?_eq_some_iff_append.1 ht with ⟨haccepts, before, after, heq, hbefore⟩
        refine .bracketed inner v before after t final (bracketed?_eq_some_iff.1 hinner) hv heq
          (fun other hother => ?_) haccepts hfinal
        simpa only [Bool.not_eq_true'] using hbefore other hother
    · next hinner =>
        rcases List.findSome?_eq_some_iff.1 h with ⟨before, t, after, heq, ht, hbefore⟩
        rcases ofTarget?_eq_some_iff.1 ht with ⟨value, final, hvalue, hfinal, rfl⟩
        exact .named before after t value final (bracketed?_eq_none_iff.1 hinner) heq
          (fun other hother => ofTarget?_eq_none_iff.1 (hbefore other hother)) hvalue hfinal
  · intro h
    unfold ofKey?
    cases h with
    | bracketed inner v before after t final hkey hinner heq hbefore haccepts hfinal =>
        rw [bracketed?_eq_some_iff.2 hkey]
        refine ofBracketed?_eq_some_iff.2 ⟨v, t, final, hinner, ?_, hfinal, rfl⟩
        refine List.find?_eq_some_iff_append.2
          ⟨haccepts, before, after, heq, fun other hother => ?_⟩
        rw [hbefore other hother, Bool.not_false]
    | named before after t value final hkey heq hbefore hvalue hfinal =>
        rw [bracketed?_eq_none_iff.2 hkey]
        refine List.findSome?_eq_some_iff.2 ⟨before, t, after, heq,
          ofTarget?_eq_some_iff.2 ⟨value, final, hvalue, hfinal, rfl⟩, fun other hother => ?_⟩
        exact ofTarget?_eq_none_iff.2 (hbefore other hother)

/-! ### Readings and cores -/

theorem keyOf?_eq_some_iff {value : Option String} {key : String} :
    keyOf? value = some key ↔ value ≠ some defaultKey ∧ value.getD defaultKey = key := by
  cases value with
  | none => simp only [keyOf?, Option.some.injEq, ne_eq, reduceCtorEq, not_false_eq_true,
      true_and, Option.getD_none]
  | some value => simp only [keyOf?, Option.ite_none_left_eq_some, Option.some.injEq, ne_eq,
      Option.getD_some]

/-- A reading gives a resolution exactly if it qualifies for it. -/
theorem ofReading?_eq_some_iff {t : Token} {r : Token.Reading} {resolution : Resolution}
    (hreads : Token.Reads t.core r) :
    ofReading? theme g t.negative r = some resolution ↔ Qualifies theme g t r resolution := by
  constructor
  · intro h
    rcases ofReading?_eq_some h with
      ⟨found, key, declarations, hfound, hkey, hsign, hdeclarations, rfl⟩
    rcases keyOf?_eq_some_iff.1 hkey with ⟨hne, rfl⟩
    exact ⟨hreads, hne, found, declarations, hfound, hsign,
      ofKey?_eq_some_iff.1 hdeclarations, rfl⟩
  · rintro ⟨-, hne, found, declarations, hfound, hsign, hyields, rfl⟩
    unfold ofReading?
    rw [hfound, keyOf?_eq_some_iff.2 ⟨hne, rfl⟩]
    -- The sign is turned away only if the utility cannot take it.
    have hallowed : (t.negative && !found.item.negatable) = false := by
      rcases hnegative : t.negative with _ | _
      · rfl
      · rw [hsign hnegative]
        rfl
    simp only [hallowed, Bool.false_eq_true, if_false, ofKey?_eq_some_iff.2 hyields,
      Option.map_some]

/-- What is found first among the readings is the longest that qualifies. -/
theorem findSome?_readings {t : Token} (hhead : t.core.toList.head? ≠ some '-')
    {resolution : Resolution} :
    (Token.readings t.core).findSome? (ofReading? theme g t.negative) = some resolution ↔
      ∃ r, Qualifies theme g t r resolution ∧
        ∀ r' resolution', Qualifies theme g t r' resolution' →
          r' = r ∨ r'.stem.toList.length < r.stem.toList.length := by
  rw [findSome?_eq_some_iff_longest (Token.pairwise_readings t.core)]
  -- Only readings can qualify, so it makes no difference whether the longest one is sought among
  -- the readings or among what qualifies.
  constructor
  · rintro ⟨r, hr, hresolution, hlongest⟩
    have hreads := (Token.mem_readings_iff hhead).1 hr
    refine ⟨r, (ofReading?_eq_some_iff hreads).1 hresolution, fun r' resolution' h' => ?_⟩
    exact hlongest r' ((Token.mem_readings_iff hhead).2 h'.reads) resolution'
      ((ofReading?_eq_some_iff h'.reads).2 h')
  · rintro ⟨r, hr, hlongest⟩
    refine ⟨r, (Token.mem_readings_iff hhead).2 hr.reads,
      (ofReading?_eq_some_iff hr.reads).2 hr, fun r' hr' resolution' h' => ?_⟩
    have hreads := (Token.mem_readings_iff hhead).1 hr'
    exact hlongest r' resolution' ((ofReading?_eq_some_iff hreads).1 h')

theorem ofCore?_eq_some_iff {t : Token} (hhead : t.core.toList.head? ≠ some '-')
    {resolution : Resolution} :
    ofCore? theme g t = some resolution ↔ IsMeant theme g t resolution := by
  constructor
  · intro h
    unfold ofCore? at h
    simp only at h
    split at h
    · next hsign =>
        -- A negated token is not looked up among the static rules.
        rcases (findSome?_readings hhead).1 h with ⟨r, hr, hlongest⟩
        refine .longest r resolution (fun hsign' => ?_) hr hlongest
        rw [hsign] at hsign'
        exact absurd hsign'.symm Bool.false_ne_true
    · next hsign =>
        rw [Bool.not_eq_true] at hsign
        split at h
        · next found hfound =>
            rw [← Option.some.inj h]
            exact .static found hsign hfound
        · next hnone =>
            rcases (findSome?_readings hhead).1 h with ⟨r, hr, hlongest⟩
            exact .longest r resolution (fun _ => hnone) hr hlongest
  · intro h
    unfold ofCore?
    simp only
    cases h with
    | static found hsign hfound => rw [hsign, hfound, if_neg Bool.false_ne_true]
    | longest r _ hstatic hr hlongest =>
        have hfind := (findSome?_readings hhead).2 ⟨r, hr, hlongest⟩
        rcases hsign : t.negative with _ | _
        · rw [hstatic hsign, if_neg Bool.false_ne_true, ← hsign, hfind]
        · rw [if_pos rfl, ← hsign, hfind]

/-- A token's core resolves to its static rule, if the token is not negated, or else to
    its longest reading that qualifies. The rule of the token is made from that and has
    the declarations of nothing else, and a token without a static rule and without a
    qualifying reading has no rule. -/
theorem ofCore?_longest (theme : Theme) (g : Grammar) {token : String} {t : Token}
    (h : Token.parse? token = some t) :
    (∀ resolution, ofCore? theme g t = some resolution ↔ IsMeant theme g t resolution) ∧
      (∀ rule, Rule.ofToken? theme g token = some rule → ∃ variants resolution,
        IsMeant theme g t resolution ∧
          rule = Rule.assemble token t.important variants resolution) ∧
      ((t.negative = false → g.staticRule? t.core = none) →
        (∀ r resolution, ¬Qualifies theme g t r resolution) →
          Rule.ofToken? theme g token = none) := by
  have hhead := Token.head?_of_parse? h
  have hrule : ∀ rule, Rule.ofToken? theme g token = some rule → ∃ variants resolution,
      IsMeant theme g t resolution ∧
        rule = Rule.assemble token t.important variants resolution := by
    intro rule hrule
    rcases Rule.ofToken?_eq_some_iff.1 hrule with ⟨t', variants, resolution, ht', -, hcore, rfl⟩
    rw [h, Option.some.injEq] at ht'
    subst ht'
    exact ⟨variants, resolution, (ofCore?_eq_some_iff hhead).1 hcore, rfl⟩
  refine ⟨fun resolution => ofCore?_eq_some_iff hhead, hrule, fun hstatic hnone => ?_⟩
  rw [Option.eq_none_iff_forall_ne_some]
  intro rule hsome
  -- A rule would be meant by the token, through a static rule or a reading.
  rcases hrule rule hsome with ⟨variants, resolution, hmeant, -⟩
  cases hmeant with
  | static found hsign hfound =>
      rw [hstatic hsign] at hfound
      exact Option.some_ne_none found hfound.symm
  | longest r _ _ hr => exact hnone r resolution hr

/-- A negated fraction of `inset-x`, which `inset` has no value for. -/
theorem ofCore?_longest_inset :
    let t : Token := ⟨[], false, true, "inset-x-1/2"⟩
    Token.parse? "-inset-x-1/2" = some t ∧
      IsMeant Theme.default Grammar.default t
        ⟨[⟨"left", "-50%"⟩, ⟨"right", "-50%"⟩], .utilities, 2⟩ := by
  have hparse : Token.parse? "-inset-x-1/2" = some ⟨[], false, true, "inset-x-1/2"⟩ := by
    decide +kernel
  exact ⟨hparse, ((ofCore?_longest Theme.default Grammar.default hparse).1 _).1
    (by decide +kernel)⟩

end Resolution

end UtilityCss

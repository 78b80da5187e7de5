import Mathlib.Data.List.Basic
import UtilityCss.Resolution

/-!
# Where Rules Come From

What is known of a rule once a token has resolved to it.

Resolution is a chain of look-ups that each may fail, and every statement about
generated rules starts by going back along that chain: from the rule to its
variants and its core, from the core to a static rule or to one reading of a
utility, and from there to the target and to the value that was written. Each
function of the chain has one lemma here that says all that success means, and
nothing else unfolds them.

## Main definitions

* `Resolution.Source`: A value written by a target, and what gave it.

## Theorems

* `mem_of_mapM_eq_some`: What a list of look-ups gives, one of them gives.
* `findSome?_congr`, `ofCore?_congr`: What a search depends on.
* `ofToken?_eq_some_iff`: A rule has variants and a resolved core.
* `ofCore?_eq_some`: A core is a static rule or one of its readings.
* `ofReading?_eq_some`: A reading names a utility.
* `ofKey?_eq_some`: The declarations are those of a target for a value.
-/

namespace UtilityCss

-- What a list of look-ups gives, one of them gives.
theorem mem_of_mapM_eq_some {α β : Type} {f : α → Option β} {as : List α} {bs : List β}
    (h : as.mapM f = some bs) {b : β} (hb : b ∈ bs) : ∃ a ∈ as, f a = some b := by
  induction as generalizing bs with
  | nil =>
      simp only [List.mapM_nil, Option.pure_def, Option.some.injEq] at h
      rw [← h] at hb
      exact absurd hb List.not_mem_nil
  | cons a as ih =>
      simp only [List.mapM_cons, Option.pure_def, Option.bind_eq_bind,
        Option.bind_eq_some_iff, Option.some.injEq] at h
      rcases h with ⟨b', ha, bs', has, rfl⟩
      rcases List.mem_cons.1 hb with rfl | hb'
      · exact ⟨a, List.mem_cons_self, ha⟩
      · rcases ih has hb' with ⟨a', hmem, ha'⟩
        exact ⟨a', List.mem_cons_of_mem _ hmem, ha'⟩

-- A list of look-ups gives something if each of them does.
theorem exists_of_mapM_eq_some {α β : Type} {f : α → Option β} {as : List α} {bs : List β}
    (h : as.mapM f = some bs) {a : α} (ha : a ∈ as) : ∃ b, f a = some b := by
  induction as generalizing bs with
  | nil => exact absurd ha List.not_mem_nil
  | cons a' as ih =>
      simp only [List.mapM_cons, Option.pure_def, Option.bind_eq_bind,
        Option.bind_eq_some_iff, Option.some.injEq] at h
      rcases h with ⟨b, hb, bs', has, -⟩
      rcases List.mem_cons.1 ha with rfl | ha
      · exact ⟨b, hb⟩
      · exact ih has ha

-- A search depends on what it finds in the elements of its list.
theorem findSome?_congr {α β : Type} {f g : α → Option β} {as : List α}
    (h : ∀ a ∈ as, f a = g a) : as.findSome? f = as.findSome? g := by
  rw [← List.head?_filterMap, ← List.head?_filterMap, List.filterMap_congr h]

/-- A token has a rule exactly if it can be taken apart, its variants are known,
    and its core resolves. -/
theorem Rule.ofToken?_eq_some_iff {theme : Theme} {g : Grammar} {token : String} {r : Rule} :
    Rule.ofToken? theme g token = some r ↔
      ∃ t variants resolution, Token.parse? token = some t ∧
        t.variants.mapM (Variant.ofName? theme g.darkMode) = some variants ∧
        Resolution.ofCore? theme g t = some resolution ∧
        Rule.assemble token t.important variants resolution = r := by
  unfold Rule.ofToken?
  constructor
  · intro h
    split at h
    · simp only [reduceCtorEq] at h
    · next t ht =>
        split at h
        · next variants resolution hv hr =>
            exact ⟨t, variants, resolution, ht, hv, hr, Option.some.inj h⟩
        · simp only [reduceCtorEq] at h
  · rintro ⟨t, variants, resolution, ht, hv, hr, rfl⟩
    simp only [ht, hv, hr]

theorem Rule.token_of_ofToken? {theme : Theme} {g : Grammar} {token : String} {r : Rule}
    (h : Rule.ofToken? theme g token = some r) : r.token = token := by
  rcases Rule.ofToken?_eq_some_iff.1 h with ⟨t, variants, resolution, -, -, -, rfl⟩
  rfl

namespace Resolution

variable {theme : Theme} {g : Grammar}

theorem ofCore?_eq_some {t : Token} {resolution : Resolution}
    (h : ofCore? theme g t = some resolution) :
    (∃ found, g.staticRule? t.core = some found ∧ resolution = ofStatic found) ∨
      ∃ r ∈ Token.readings t.core, ofReading? theme g t.negative r = some resolution := by
  unfold ofCore? at h
  split at h
  -- Static rules are not looked up for a negative core.
  · exact Or.inr (List.exists_of_findSome?_eq_some h)
  · split at h
    · next found hfound => exact Or.inl ⟨found, hfound, (Option.some.inj h).symm⟩
    · exact Or.inr (List.exists_of_findSome?_eq_some h)

/-- What a core resolves to depends on its static rule and its readings. -/
theorem ofCore?_congr {theme' : Theme} {g' : Grammar} {t : Token}
    (hstatic : t.negative = false → g'.staticRule? t.core = g.staticRule? t.core)
    (hreadings : ∀ r ∈ Token.readings t.core,
      ofReading? theme' g' t.negative r = ofReading? theme g t.negative r) :
    ofCore? theme' g' t = ofCore? theme g t := by
  unfold ofCore?
  rw [findSome?_congr hreadings]
  rcases hnegative : t.negative with _ | _
  · rw [hstatic hnegative]
  · rfl

theorem ofReading?_eq_some {negative : Bool} {r : Token.Reading} {resolution : Resolution}
    (h : ofReading? theme g negative r = some resolution) :
    ∃ found key declarations, g.utility? r.stem = some found ∧ keyOf? r.value = some key ∧
      (negative = true → found.item.negatable = true) ∧
      ofKey? theme found.item.targets negative key = some declarations ∧
      resolution = ⟨declarations, .utilities, found.rank⟩ := by
  unfold ofReading? at h
  split at h
  · next found key hfound hkey =>
      split at h
      · simp only [reduceCtorEq] at h
      -- A utility that cannot be negated has been turned down.
      · next hneg =>
          rcases Option.map_eq_some_iff.1 h with ⟨declarations, hd, rfl⟩
          refine ⟨found, key, declarations, hfound, hkey, fun hn => ?_, hd, rfl⟩
          simpa only [hn, Bool.true_and, Bool.not_eq_true', Bool.not_eq_false] using hneg
  · simp only [reduceCtorEq] at h

/-- What gives a target the value that it writes: a bracketed value that it
    accepts, or what it has for the key. -/
inductive Source (theme : Theme) (t : Target) (key : String) : String → Prop where
  /-- The key is a bracketed value. -/
  | bracketed (inner : String) (v : ArbitraryValue) (hkey : bracketed? key = some inner)
      (hv : ArbitraryValue.parse? inner = some v) (ha : t.accepts.admits v = true) :
      Source theme t key v.value
  /-- The key names a value. -/
  | named (value : String) (hkey : bracketed? key = none)
      (hv : valueOf? theme t key = some value) : Source theme t key value

/-- The declarations for a key are those of one target, for a value with the
    sign that was asked for. -/
theorem ofKey?_eq_some {targets : List Target} {negative : Bool} {key : String}
    {declarations : List Declaration}
    (h : ofKey? theme targets negative key = some declarations) :
    ∃ t ∈ targets, ∃ value final, Source theme t key value ∧
      signed? negative value = some final ∧ declarations = t.declarations final := by
  unfold ofKey? at h
  split at h
  · next inner hinner =>
      unfold ofBracketed? at h
      split at h
      · simp only [reduceCtorEq] at h
      · next v hv =>
          split at h
          · simp only [reduceCtorEq] at h
          · next t ht =>
              rcases Option.map_eq_some_iff.1 h with ⟨final, hf, rfl⟩
              -- The target is the first one that accepts the value.
              have hmem : t ∈ targets := List.mem_of_find?_eq_some ht
              have ha := List.find?_some ht
              exact ⟨t, hmem, v.value, final, .bracketed inner v hinner hv ha, hf, rfl⟩
  · next hinner =>
      -- Here it is the first one that has a value for the key.
      rcases List.exists_of_findSome?_eq_some h with ⟨t, hmem, ht⟩
      unfold ofTarget? at ht
      split at ht
      · simp only [reduceCtorEq] at ht
      · next value hv =>
          rcases Option.map_eq_some_iff.1 ht with ⟨final, hf, rfl⟩
          exact ⟨t, hmem, value, final, .named value hinner hv, hf, rfl⟩

end Resolution

end UtilityCss

import UtilityCss.Proofs.Grammar.History
import UtilityCss.Proofs.Resolution
import UtilityCss.Proofs.Token.Readings
import UtilityCss.Theme.Default

/-!
# Locality of Registrations

Which class tokens a registration can have an effect on.

A registration reaches into most of a grammar. It may shadow a utility or a static rule,
hide a static rule or show it again, and use up a rank, and a token is looked up under every
stem that its core can be cut into. Still the effect stays within a family of names that can
be told from the registration: a utility may matter to cores that are its stem or go on
behind it with a hyphen, a static rule to the one core that is its name, and only where the
token does not negate it.

The reason is that a look-up asks for the stem of a reading or for the whole core, and that
every stem of a reading ends where a hyphen follows or where the core ends. All other names
are looked up as before, and a rank belongs to a name, so an entry that is not touched has
the place that it had. Nothing is assumed of the grammar, which may have any history.

## Main definitions

* `Registration.Concerns`: A registration may matter to a token.

## Theorems

* `darkMode_enterAll`: Registrations leave the dark mode alone.
* `stem_ne_of_mem_readings`: Utilities that do not concern a token are never asked for.
* `ofCore?_enterAll`: Registrations that do not concern a token leave its resolution alone.
* `ofToken?_enterAll`: They leave its rule alone.
-/

namespace UtilityCss

/-- A registration may matter to a token. -/
def Registration.Concerns (t : Token) : Registration → Prop
  | .utility u => t.core = u.stem ∨ u.stem.toList ++ ['-'] <+: t.core.toList
  | .static r => t.core = r.name ∧ t.negative = false

instance (t : Token) : DecidablePred (Registration.Concerns t)
  | .utility u =>
    inferInstanceAs (Decidable (t.core = u.stem ∨ u.stem.toList ++ ['-'] <+: t.core.toList))
  | .static r => inferInstanceAs (Decidable (t.core = r.name ∧ t.negative = false))

theorem Grammar.darkMode_enterAll (g : Grammar) (entries : List Registration) :
    (g.enterAll entries).darkMode = g.darkMode := by
  induction entries generalizing g with
  | nil => rfl
  | cons entry entries ih =>
      rw [enterAll_cons, ih]
      cases entry with
      | utility u => rfl
      | static r => rfl

namespace Resolution

variable {t : Token} {entries : List Registration}

/-- A utility that does not concern a token has a stem that no reading of it has. -/
theorem stem_ne_of_mem_readings {u : Utility} (h : ¬ Registration.Concerns t (.utility u))
    {r : Token.Reading} (hr : r ∈ Token.readings t.core) : u.stem ≠ r.stem := by
  rintro hstem
  rcases Token.of_mem_readings hr with ⟨-, hcore⟩ | ⟨key, -, -, hcore, -⟩
  · exact h (Or.inl (hcore.symm.trans hstem.symm))
  · refine h (Or.inr ⟨key.toList, ?_⟩)
    rw [hcore, hstem, List.append_assoc, List.singleton_append]

-- If the token is negated, static rules are not asked for.
theorem staticRule?_enterAll_core (g : Grammar)
    (h : ∀ entry ∈ entries, ¬ Registration.Concerns t entry) (hnegative : t.negative = false) :
    (g.enterAll entries).staticRule? t.core = g.staticRule? t.core := by
  refine Grammar.staticRule?_enterAll fun entry hentry hname => h entry hentry ?_
  cases entry with
  | utility u => exact Or.inl hname.symm
  | static r => exact ⟨hname.symm, hnegative⟩

theorem ofReading?_enterAll (theme : Theme) (g : Grammar)
    (h : ∀ entry ∈ entries, ¬ Registration.Concerns t entry) {r : Token.Reading}
    (hr : r ∈ Token.readings t.core) :
    ofReading? theme (g.enterAll entries) t.negative r = ofReading? theme g t.negative r := by
  unfold ofReading?
  rw [Grammar.utility?_enterAll fun u hu => stem_ne_of_mem_readings (h _ hu) hr]

/-- Registrations that do not concern a token leave the resolution of its core alone. -/
theorem ofCore?_enterAll (theme : Theme) (g : Grammar)
    (h : ∀ entry ∈ entries, ¬ Registration.Concerns t entry) :
    ofCore? theme (g.enterAll entries) t = ofCore? theme g t := by
  have hreadings : ∀ r ∈ Token.readings t.core,
      ofReading? theme (g.enterAll entries) t.negative r = ofReading? theme g t.negative r := by
    intro r hr
    exact ofReading?_enterAll theme g h hr
  exact ofCore?_congr (staticRule?_enterAll_core g h) hreadings

end Resolution

namespace Rule

/-- Registrations that do not concern a token leave its rule alone, or leave it without
    one. -/
theorem ofToken?_enterAll (theme : Theme) (g : Grammar) {entries : List Registration}
    {token : String}
    (h : ∀ t, Token.parse? token = some t → ∀ entry ∈ entries, ¬ entry.Concerns t) :
    ofToken? theme (g.enterAll entries) token = ofToken? theme g token := by
  unfold ofToken?
  rcases htoken : Token.parse? token with _ | t
  · rfl
  · simp only [Grammar.darkMode_enterAll, Resolution.ofCore?_enterAll theme g (h t htoken)]

/-- A negated margin keeps its rule through registrations around its name: of a utility
    that stops within a word of it, of one that goes on behind it, and of a static rule of
    the very name. -/
theorem ofToken?_enterAll_margin :
    ofToken? Theme.default
        (Grammar.default.enterAll [.utility ⟨"m", [], true⟩, .utility ⟨"mt-4x", [], true⟩,
          .static ⟨"mt-4", [], .components⟩])
        "!-mt-4"
      = ofToken? Theme.default Grammar.default "!-mt-4" ∧
    (ofToken? Theme.default Grammar.default "!-mt-4").map Rule.declarations
      = some [⟨"margin-top", "-1rem !important"⟩] := by
  have hparse : Token.parse? "!-mt-4" = some ⟨[], true, true, "mt-4"⟩ := by decide +kernel
  refine ⟨ofToken?_enterAll _ _ fun t ht => ?_, by decide +kernel⟩
  rw [← Option.some.inj (hparse.symm.trans ht)]
  decide +kernel

end Rule

end UtilityCss

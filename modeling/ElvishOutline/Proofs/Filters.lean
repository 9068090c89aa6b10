import ElvishOutline.Scan.Filter

/-!
# What filters are made of

The patterns that are always used are good, so the filter of a scan fails only for its ignore files
or for the patterns of its settings (`PathFilter.ofSettings_eq`). The rules of ignore files are asked
about a path if it is below the root and nothing else passes it over.
-/

namespace ElvishOutline

/-- A computation in two parts gives a result only if both do. -/
theorem exists_of_bind_eq_ok {ε α β : Type} {first : Except ε α} {next : α → Except ε β} {b : β}
    (h : first >>= next = .ok b) : ∃ a, first = .ok a ∧ next a = .ok b := by
  cases first with
  | error e => cases h
  | ok a => exact ⟨a, rfl, h⟩

namespace PathFilter

/-- The patterns that are always used, as they are read. -/
def readDefaults : List Glob := (globs defaultIgnorePatterns).toOption.getD []

/-- The patterns that are always used can be read. -/
theorem globs_default : globs defaultIgnorePatterns = .ok readDefaults := by
  have hsome : (globs defaultIgnorePatterns).toOption.isSome = true := by decide +kernel
  rw [readDefaults]
  cases hglobs : globs defaultIgnorePatterns with
  | error e =>
    rw [hglobs] at hsome
    cases hsome
  | ok globs => rfl

/-- A filter is made of the rules and the patterns of its settings. -/
theorem ofSettings_eq (fs : FileSystem) (settings : ScanSettings) :
    ofSettings fs settings = do
      let rules ← rulesOf fs settings.root settings.ignoreFile
      let customGlobs ← globs settings.ignorePatterns
      return { root := settings.root, rules, customGlobs, defaultGlobs := readDefaults,
               includeHidden := settings.includeHidden } := by
  rw [ofSettings, globs_default]
  rfl

/-- The parts of a filter are what its settings say. -/
theorem ofSettings_eq_ok_iff {fs : FileSystem} {settings : ScanSettings} {filter : PathFilter} :
    ofSettings fs settings = .ok filter ↔ ∃ rules customGlobs,
      rulesOf fs settings.root settings.ignoreFile = .ok rules ∧
      globs settings.ignorePatterns = .ok customGlobs ∧
      filter = { root := settings.root, rules, customGlobs, defaultGlobs := readDefaults,
                 includeHidden := settings.includeHidden } := by
  rw [ofSettings_eq]
  constructor
  · intro h
    obtain ⟨rules, hrules, h⟩ := exists_of_bind_eq_ok h
    obtain ⟨customGlobs, hglobs, h⟩ := exists_of_bind_eq_ok h
    exact ⟨rules, customGlobs, hrules, hglobs, (Except.ok.inj h).symm⟩
  · intro h
    obtain ⟨rules, customGlobs, hrules, hglobs, rfl⟩ := h
    rw [hrules, hglobs]
    rfl

/-- The filter of a scan has the root of its settings. -/
theorem root_of_ofSettings {fs : FileSystem} {settings : ScanSettings} {filter : PathFilter}
    (h : ofSettings fs settings = .ok filter) : filter.root = settings.root := by
  obtain ⟨rules, customGlobs, -, -, rfl⟩ := ofSettings_eq_ok_iff.mp h
  rfl

/-- The path that rules are asked about: as seen from the root, if it is below it. -/
def seenFrom (filter : PathFilter) (path : Path) : Path := (path.relativeTo? filter.root).getD path

/-- Whether a path is left to the rules: it is below the root, and nothing else passes it over. -/
def asksRules (filter : PathFilter) (path : Path) : Bool :=
  !path.same filter.root && !(filter.seenFrom path).isAbsolute &&
    !{ filter with rules := none }.ignores path false

/-- A path is passed over for what the path itself is, or because the rules say so. -/
theorem ignores_eq (filter : PathFilter) (path : Path) (isDirectory : Bool) :
    filter.ignores path isDirectory =
      ({ filter with rules := none }.ignores path false ||
        (filter.asksRules path &&
          filter.rules.any (·.ignores (filter.seenFrom path) isDirectory))) := by
  simp only [asksRules, seenFrom, ignores, Option.any_none, Bool.and_false, Bool.or_false]
  cases path.same filter.root <;>
    cases filter.rules.any (·.ignores ((path.relativeTo? filter.root).getD path) isDirectory) <;>
    grind

end PathFilter

end ElvishOutline

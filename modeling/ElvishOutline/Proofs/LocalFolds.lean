import ElvishOutline.Fold
import ElvishOutline.Proofs.Slices
import ElvishOutline.Proofs.TokenEnds

/-!
# Folding is local to statements

The search for a closing delimiter, the search for the keyword ahead of a brace and the test for a map
all stay inside a statement. So the regions of any tokens are those of the slices of their statements,
one slice after the other, whatever the ends of tokens and the lines are taken to be. Where a line
cannot be looked up, the first slice that asks for such a line gives the error.
-/

namespace ElvishOutline

section Statements

variable {ends : Token → Nat} {lookup : LineLookup} {options : AnalysisOptions}
  {statements : List Statement}

/-- A statement that fails to fold gives the error for all. -/
theorem foldStatements_cons_error {s : Statement} {e : TokenStreamError}
    (h : statementFolds ends lookup options [] s.tokens = .error e) :
    foldStatements ends lookup options (s :: statements) = .error e := by
  rw [foldStatements, h]
  rfl

/-- The regions of a statement stand ahead of those of the statements behind it. -/
theorem foldStatements_cons_ok {s : Statement} {here : List Fold}
    (h : statementFolds ends lookup options [] s.tokens = .ok here) :
    foldStatements ends lookup options (s :: statements) =
      (foldStatements ends lookup options statements).map (here ++ ·) := by
  rw [foldStatements, h]
  cases foldStatements ends lookup options statements with
  | error e => rfl
  | ok later => rfl

/-- Statements fold if each of them does, and the regions of each follow those of the one ahead. -/
theorem foldStatements_eq_ok_iff {folds : List Fold} :
    foldStatements ends lookup options statements = .ok folds ↔
      ∃ parts : List (List Fold),
        statements.map (fun s => statementFolds ends lookup options [] s.tokens) = parts.map .ok ∧
          folds = parts.flatten := by
  induction statements generalizing folds with
  | nil =>
    constructor
    · intro h
      exact ⟨[], rfl, (Except.ok.inj h).symm⟩
    · intro h
      obtain ⟨parts, hparts, rfl⟩ := h
      rw [List.map_eq_nil_iff.mp hparts.symm]
      rfl
  | cons s rest ih =>
    constructor
    · intro h
      cases hhere : statementFolds ends lookup options [] s.tokens with
      | error e =>
        rw [foldStatements_cons_error hhere] at h
        cases h
      | ok here =>
        rw [foldStatements_cons_ok hhere] at h
        cases hlater : foldStatements ends lookup options rest with
        | error e =>
          rw [hlater] at h
          cases h
        | ok later =>
          rw [hlater] at h
          obtain ⟨parts, hparts, rfl⟩ := ih.mp hlater
          refine ⟨here :: parts, ?_, (Except.ok.inj h).symm⟩
          rw [List.map_cons, hhere, hparts, List.map_cons]
    · intro h
      obtain ⟨parts, hparts, rfl⟩ := h
      obtain ⟨here, later, rfl, hhere, hlater⟩ := List.map_eq_cons_iff.mp hparts.symm
      rw [foldStatements_cons_ok hhere.symm, ih.mpr ⟨later, hlater.symm, rfl⟩]
      rfl

/-- Statements fail to fold if one of them does, and the first that does gives the error. -/
theorem foldStatements_eq_error_iff {e : TokenStreamError} :
    foldStatements ends lookup options statements = .error e ↔
      ∃ parts : List (List Fold), parts.map .ok ++ [.error e] <+:
        statements.map (fun s => statementFolds ends lookup options [] s.tokens) := by
  induction statements with
  | nil =>
    constructor
    · intro h
      cases h
    · intro h
      obtain ⟨parts, hparts⟩ := h
      exact absurd (List.prefix_nil.mp hparts) (by simp)
  | cons s rest ih =>
    rw [List.map_cons]
    cases hhere : statementFolds ends lookup options [] s.tokens with
    | error found =>
      -- The first statement fails, so the error is its own.
      rw [foldStatements_cons_error hhere]
      constructor
      · intro h
        refine ⟨[], ?_⟩
        rw [h]
        exact List.cons_prefix_cons.mpr ⟨rfl, List.nil_prefix⟩
      · intro h
        obtain ⟨parts, hparts⟩ := h
        cases parts with
        | nil => exact (List.cons_prefix_cons.mp hparts).1.symm
        | cons part parts => cases (List.cons_prefix_cons.mp hparts).1
    | ok here =>
      -- The first statement folds, so the error is that of a later one.
      have hmap : foldStatements ends lookup options (s :: rest) = .error e ↔
          foldStatements ends lookup options rest = .error e := by
        rw [foldStatements_cons_ok hhere]
        cases foldStatements ends lookup options rest with
        | error found => rfl
        | ok later => exact iff_of_false nofun nofun
      rw [hmap, ih]
      constructor
      · intro h
        obtain ⟨parts, hparts⟩ := h
        exact ⟨here :: parts, List.cons_prefix_cons.mpr ⟨rfl, hparts⟩⟩
      · intro h
        obtain ⟨parts, hparts⟩ := h
        cases parts with
        | nil => cases (List.cons_prefix_cons.mp hparts).1
        | cons part parts => exact ⟨parts, (List.cons_prefix_cons.mp hparts).2⟩

end Statements

section Slices

variable (ends : Token → Nat) (tokens : List Token) (lookup : LineLookup)
  (options : AnalysisOptions)

/-- The tokens of a statement fold by themselves as the statement does. -/
theorem findFoldsWith_tokens_of_mem {s : Statement} (hs : s ∈ segment tokens) :
    findFoldsWith ends s.tokens lookup options = statementFolds ends lookup options [] s.tokens := by
  rw [findFoldsWith, segment_tokens_of_mem hs, foldStatements]
  cases statementFolds ends lookup options [] s.tokens with
  | error e => rfl
  | ok here => exact congrArg Except.ok (List.append_nil here)

/-- What folding gives for the slice of each statement alone, in the order of the statements. -/
def sliceFolds : List (Except TokenStreamError (List Fold)) :=
  (rangesFrom 0 (segment tokens)).map fun r => findFoldsWith ends (r.slice tokens) lookup options

/-- Folding the slices alone gives what folding the statements gives. -/
theorem sliceFolds_eq : sliceFolds ends tokens lookup options =
    (segment tokens).map fun s => statementFolds ends lookup options [] s.tokens := by
  rw [sliceFolds, ← List.forall₂_eq_eq_eq, List.forall₂_map_left_iff, List.forall₂_map_right_iff]
  refine (forall₂_mem_standsAt tokens).flip.imp ?_
  intro r s hsr
  obtain ⟨hs, hrange⟩ := hsr
  rw [hrange.slice_eq, findFoldsWith_tokens_of_mem ends tokens lookup options hs]

/-- The regions of any tokens, with any ends of tokens, any lookup of lines and all options, are those of
the slices of their statements put together in order. There are none exactly if one of the slices fails,
and the error is that of the first slice that does. -/
theorem folds_local_to_statements :
    (∀ folds, findFoldsWith ends tokens lookup options = .ok folds ↔
      ∃ parts : List (List Fold),
        sliceFolds ends tokens lookup options = parts.map .ok ∧ folds = parts.flatten) ∧
    ∀ e, findFoldsWith ends tokens lookup options = .error e ↔
      ∃ parts : List (List Fold),
        parts.map .ok ++ [.error e] <+: sliceFolds ends tokens lookup options := by
  rw [sliceFolds_eq, findFoldsWith]
  exact ⟨fun _ => foldStatements_eq_ok_iff, fun _ => foldStatements_eq_error_iff⟩

end Slices

-- Of tokens that no check has accepted, a region may end ahead of its start.
example :
    let tokens : List Token := [⟨.opening .brace, "\x7b", 5, 1⟩, ⟨.closing .brace, "\x7d", maxOffset, 3⟩]
    (findFoldsWith Token.wrappedStop tokens (fun offset => .ok (9 - offset)) {}).map
      (·.map Fold.stop) = .ok [2] := by
  decide +kernel

end ElvishOutline

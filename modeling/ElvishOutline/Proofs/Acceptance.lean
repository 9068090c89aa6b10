import ElvishOutline.Proofs.Spans
import ElvishOutline.Proofs.Totality

/-!
# A broken contract is the only failure

An analysis checks the tokens and then looks lines up: for the first and the last byte of each
landmark, and for the two ends of each pair of delimiters. The check is made first, and tokens that
it accepts lie inside the script, so no lookup fails after it. This holds for tokens with gaps between
them, for empty ones, and for those that end where the script ends.

The script is taken to be shorter than the greatest offset that can be written down. In a longer one
the check would accept a token that reaches past the end.
-/

namespace ElvishOutline

open Text (byteLength)

/-- Tokens that the check turns down are not analysed, and the error is the one that it reports. -/
theorem analyzeTokens_eq_error {source : String} {tokens : List Token} (options : AnalysisOptions)
    {e : TokenStreamError} (hcheck : checkTokens tokens (byteLength source.toList) = .error e) :
    analyzeTokens source tokens options = .error (.contract e) := by
  simp only [analyzeTokens, hcheck, bind, Except.bind]
  rfl

/-- Every script is analysed, with all options. With tokens of any origin the analysis fails exactly
when they break their contract, and with the error that says how; otherwise both passes that look
lines up give their results. -/
theorem analysis_fails_iff_contract_broken (source : String) (tokens : List Token)
    (options : AnalysisOptions) :
    (∃ a, analyze source options = .ok a) ∧
      (source.utf8ByteSize < maxOffset →
        (∀ e, analyzeTokens source tokens options = .error (.contract e) ↔
          checkTokens tokens source.utf8ByteSize = .error e) ∧
        (checkTokens tokens source.utf8ByteSize = .ok () →
          ∃ a, analyzeTokens source tokens options = .ok a ∧
            outlineEntries (.ofText source.toList) (landmarks (segment tokens)) = .ok a.outline ∧
            findFolds tokens (.ofText source.toList) options = .ok a.folds)) := by
  refine ⟨⟨_, analyze_eq_ok source options⟩, fun hlength => ?_⟩
  rw [← Text.byteLength_toList] at hlength ⊢
  cases hcheck : checkTokens tokens (byteLength source.toList) with
  | error e =>
    rw [analyzeTokens_eq_error options hcheck]
    constructor
    · intro e'
      rw [Except.error.injEq, Except.error.injEq, AnalysisError.contract.injEq]
    · intro h
      cases h
  | ok accepted =>
    have hinside := stop_le_of_checkTokens hlength hcheck
    have hok := analyzeTokens_eq_ok options hcheck hinside
    refine ⟨fun e => ?_, fun _ => ⟨_, hok, ?_, ?_⟩⟩
    · rw [hok]
      constructor
      · intro h
        cases h
      · intro h
        cases h
    · exact outlineEntries_landmarks_eq_ok hinside
    · exact findFolds_eq_ok options hinside

/-- A function whose name stands behind a gap and whose last token is empty, at the end of the
script. -/
def gapsAndEmptyEnd : List Token :=
  [⟨.keyword (.block .function), "fn", 0, 2⟩, ⟨.identifier, "f", 3, 1⟩,
    ⟨.opening .brace, "\x7b", 5, 1⟩, ⟨.closing .brace, "", 8, 0⟩]

/-- Gaps and empty tokens are accepted up to the end of the script, and a token of the greatest length
behind them is not. -/
theorem analysis_of_gapsAndEmptyEnd :
    "fn f \x7b\n\x7d".utf8ByteSize < maxOffset ∧
      checkTokens gapsAndEmptyEnd "fn f \x7b\n\x7d".utf8ByteSize = .ok () ∧
      (∃ a, analyzeTokens "fn f \x7b\n\x7d" gapsAndEmptyEnd {} = .ok a ∧
        findFolds gapsAndEmptyEnd (.ofText "fn f \x7b\n\x7d".toList) {} = .ok a.folds) ∧
      analyzeTokens "fn f \x7b\n\x7d" (gapsAndEmptyEnd ++ [⟨.comma, "", 8, maxOffset⟩]) {} =
        .error (.contract (.outOfBounds 4 8 maxOffset 8)) := by
  have hlength : "fn f \x7b\n\x7d".utf8ByteSize < maxOffset := by decide +kernel
  have hcheck : checkTokens gapsAndEmptyEnd "fn f \x7b\n\x7d".utf8ByteSize = .ok () := by
    decide +kernel
  have hbroken : checkTokens (gapsAndEmptyEnd ++ [⟨.comma, "", 8, maxOffset⟩])
      "fn f \x7b\n\x7d".utf8ByteSize = .error (.outOfBounds 4 8 maxOffset 8) := by
    decide +kernel
  obtain ⟨-, haccepted⟩ := (analysis_fails_iff_contract_broken _ gapsAndEmptyEnd {}).2 hlength
  obtain ⟨a, ha, -, hfolds⟩ := haccepted hcheck
  refine ⟨hlength, hcheck, ⟨a, ha, hfolds⟩, ?_⟩
  exact (((analysis_fails_iff_contract_broken _ _ {}).2 hlength).1 _).mpr hbroken

end ElvishOutline

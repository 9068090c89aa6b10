import ElvishOutline.Proofs.Spans
import ElvishOutline.Proofs.Totality

/-!
# Ends of tokens

A token ends where its start and its length add up to. A number of 64 bits may fail to hold this sum
and then starts again at zero (`Token.wrappedStop`). It holds the sum for every token that passes the
check of a script.

Folding and the search for landmarks ask for the ends of the tokens that they are given, and for no
others. So it makes no difference to them which of the two sums they take, once the tokens have passed.
-/

namespace ElvishOutline

/-- The end of a token as a number of 64 bits, which starts again at zero past the greatest offset. -/
def Token.wrappedStop (t : Token) : Nat := t.stop % (maxOffset + 1)

/-- An end that can be written down is the exact one. -/
theorem Token.wrappedStop_eq {t : Token} (h : t.stop ≤ maxOffset) : t.wrappedStop = t.stop :=
  Nat.mod_eq_of_lt (Nat.lt_succ_of_le h)

section Passes

variable {ends ends' : Token → Nat}

/-- The region that a token opens depends on the ends of the tokens behind it only. -/
theorem regionAt_congr_ends (lookup : LineLookup) (options : AnalysisOptions)
    (preceding : List Token) (t : Token) {following : List Token}
    (h : ∀ u ∈ following, ends u = ends' u) :
    regionAt ends lookup options preceding t following =
      regionAt ends' lookup options preceding t following := by
  unfold regionAt
  cases FoldDelimiter.ofOpening? t.kind with
  | none => rfl
  | some pair =>
    dsimp only
    cases hcloser : closing? pair.toDelimiter 0 following with
    | none => rfl
    | some closer =>
      have hend := h closer (mem_of_closing? hcloser)
      simp only [regionOf, hend]

/-- The regions of a statement depend on the ends of its tokens only. -/
theorem statementFolds_congr_ends (lookup : LineLookup) (options : AnalysisOptions)
    (preceding : List Token) {ts : List Token} (h : ∀ u ∈ ts, ends u = ends' u) :
    statementFolds ends lookup options preceding ts =
      statementFolds ends' lookup options preceding ts := by
  induction ts generalizing preceding with
  | nil => rfl
  | cons t ts ih =>
    obtain ⟨-, hlater⟩ := List.forall_mem_cons.mp h
    rw [statementFolds, regionAt_congr_ends lookup options preceding t hlater,
      ih (t :: preceding) hlater, statementFolds]

/-- The regions of statements depend on the ends of their tokens only. -/
theorem foldStatements_congr_ends (lookup : LineLookup) (options : AnalysisOptions)
    {statements : List Statement} (h : ∀ s ∈ statements, ∀ u ∈ s.tokens, ends u = ends' u) :
    foldStatements ends lookup options statements =
      foldStatements ends' lookup options statements := by
  induction statements with
  | nil => rfl
  | cons s rest ih =>
    obtain ⟨hhere, hlater⟩ := List.forall_mem_cons.mp h
    rw [foldStatements, statementFolds_congr_ends lookup options [] hhere, ih hlater, foldStatements]

/-- The landmark that a statement is depends on the ends of its tokens only. -/
theorem Statement.landmarkWith?_congr_ends {s : Statement} (h : ∀ u ∈ s.tokens, ends u = ends' u) :
    s.landmarkWith? ends = s.landmarkWith? ends' := by
  have hspan : s.spanWith? ends = s.spanWith? ends' := by
    unfold spanWith?
    cases s.body.head? with
    | none => rfl
    | some first =>
      cases hlast : s.body.getLast? with
      | none => rfl
      | some last =>
        have hend := h last (List.mem_append_right s.leading (List.mem_of_getLast? hlast))
        simp only [hend]
  rw [landmarkWith?, hspan, landmarkWith?]

end Passes

/-- In a script shorter than the greatest offset, tokens that are accepted have the same regions and the
same landmarks with ends of 64 bits as with exact ends. -/
theorem wrapped_ends_of_checkTokens {tokens : List Token} {sourceLength : Nat}
    (hlength : sourceLength < maxOffset) (hcheck : checkTokens tokens sourceLength = .ok ()) :
    (∀ lookup options, findFoldsWith Token.wrappedStop tokens lookup options =
      findFoldsWith Token.stop tokens lookup options) ∧
    landmarksWith Token.wrappedStop (segment tokens) = landmarks (segment tokens) := by
  have hends : ∀ s ∈ segment tokens, ∀ t ∈ s.tokens, t.wrappedStop = t.stop := by
    intro s hs t ht
    have hstop := stop_le_of_checkTokens hlength hcheck t (mem_of_mem_segment hs ht)
    exact Token.wrappedStop_eq (by omega)
  constructor
  · intro lookup options
    exact foldStatements_congr_ends lookup options hends
  · refine List.filterMap_congr ?_
    intro s hs
    exact Statement.landmarkWith?_congr_ends (hends s hs)

end ElvishOutline

import Mathlib.Data.List.Forall2
import ElvishOutline.Proofs.LocalFolds
import ElvishOutline.Proofs.OpenDelimiters
import ElvishOutline.Proofs.Spans

/-!
# Spacing does not change structure

Blanks inside a line are passed over everywhere: ahead of a body, by the count of open delimiters, by
the search for a closing delimiter, by the two looks around an opening one, and by the tokens that make
a statement a landmark. So tokens from which all blanks are taken have the same statements, without
their blanks. Only a statement of nothing but blanks, at the end, is gone.

The regions stay the same. A landmark may end earlier, but only the last one: all statements ahead of
the last are ended by a terminator, which is no blank.
-/

namespace ElvishOutline

/-- The tokens other than blanks inside a line. -/
def withoutBlanks (ts : List Token) : List Token := ts.filter fun t => t.kind ≠ .blank

section Lists

variable {t : Token} {ts : List Token}

/-- A blank in front is left out. -/
theorem withoutBlanks_cons_blank (h : t.kind = .blank) :
    withoutBlanks (t :: ts) = withoutBlanks ts :=
  List.filter_cons_of_neg (by simp [h])

/-- A token in front that is no blank is kept. -/
theorem withoutBlanks_cons (h : t.kind ≠ .blank) :
    withoutBlanks (t :: ts) = t :: withoutBlanks ts :=
  List.filter_cons_of_pos (by simp [h])

/-- Blanks are left out part by part. -/
theorem withoutBlanks_append (xs ys : List Token) :
    withoutBlanks (xs ++ ys) = withoutBlanks xs ++ withoutBlanks ys :=
  List.filter_append ..

/-- A search from the front that passes over blanks ends at the same token without them. -/
theorem dropWhile_withoutBlanks {p : Token → Bool} (hp : ∀ t, t.kind = .blank → p t = true)
    (ts : List Token) : (withoutBlanks ts).dropWhile p = withoutBlanks (ts.dropWhile p) := by
  induction ts with
  | nil => rfl
  | cons t ts ih =>
    by_cases hblank : t.kind = .blank
    · rw [withoutBlanks_cons_blank hblank, List.dropWhile_cons_of_pos (hp t hblank), ih]
    · rw [withoutBlanks_cons hblank]
      by_cases hpass : p t = true
      · rw [List.dropWhile_cons_of_pos hpass, List.dropWhile_cons_of_pos hpass, ih]
      · rw [List.dropWhile_cons_of_neg hpass, List.dropWhile_cons_of_neg hpass,
          withoutBlanks_cons hblank]

/-- Blanks inside a line carry no structure. -/
theorem isTrivia_of_blank (h : t.kind = .blank) : t.isTrivia = true := by
  rw [Token.isTrivia, h]
  rfl

/-- The tokens that carry structure are the same without blanks. -/
theorem significant_withoutBlanks (ts : List Token) :
    significant (withoutBlanks ts) = significant ts := by
  rw [significant, withoutBlanks, List.filter_filter, significant]
  refine List.filter_congr ?_
  intro t _
  by_cases hblank : t.kind = .blank
  · rw [isTrivia_of_blank hblank]
    rfl
  · simp [hblank]

end Lists

section Statements

/-- A blank neither opens nor closes a delimiter. -/
theorem Depth.step_blank {t : Token} (depth : Depth) (h : t.kind = .blank) :
    depth.step t = depth := by
  rw [step, h]

/-- The counts of open delimiters pass over blanks. -/
theorem takeBody_withoutBlanks (depth : Depth) (ts : List Token) :
    takeBody depth (withoutBlanks ts) =
      (withoutBlanks (takeBody depth ts).1, withoutBlanks (takeBody depth ts).2) := by
  fun_induction takeBody depth ts with
  | case1 => rfl
  | case2 depth t ts hend =>
    have hkind : t.kind ≠ .blank := by
      intro hblank
      rw [Token.isTerminator, hblank] at hend
      cases hend
    rw [withoutBlanks_cons hkind, takeBody, if_pos hend, withoutBlanks_cons hkind]
    rfl
  | case3 depth t ts hend body rest hbody ih =>
    rw [hbody] at ih
    by_cases hblank : t.kind = .blank
    · rw [depth.step_blank hblank] at ih
      rw [withoutBlanks_cons_blank hblank, withoutBlanks_cons_blank hblank, ih]
    · rw [withoutBlanks_cons hblank, takeBody, if_neg hend, ih, withoutBlanks_cons hblank]

/-- The statement without its blanks. -/
def Statement.withoutBlanks (s : Statement) : Statement :=
  ⟨ElvishOutline.withoutBlanks s.leading, ElvishOutline.withoutBlanks s.body⟩

/-- The tokens of a statement without its blanks are its tokens without blanks. -/
theorem Statement.tokens_withoutBlanks (s : Statement) :
    s.withoutBlanks.tokens = ElvishOutline.withoutBlanks s.tokens :=
  (withoutBlanks_append ..).symm

/-- The first statement is cut at the same token without blanks. -/
theorem firstStatement_withoutBlanks (tokens : List Token) :
    firstStatement (withoutBlanks tokens) = (firstStatement tokens).withoutBlanks ∧
      afterStatement (withoutBlanks tokens) = withoutBlanks (afterStatement tokens) := by
  have hdrop := dropWhile_withoutBlanks (p := Token.isTrivia) (fun _ => isTrivia_of_blank) tokens
  have htake : (withoutBlanks tokens).takeWhile Token.isTrivia =
      withoutBlanks (tokens.takeWhile Token.isTrivia) := by
    have hparts : (withoutBlanks tokens).takeWhile Token.isTrivia ++
          withoutBlanks (tokens.dropWhile Token.isTrivia) =
        withoutBlanks (tokens.takeWhile Token.isTrivia) ++
          withoutBlanks (tokens.dropWhile Token.isTrivia) := by
      rw [← withoutBlanks_append, List.takeWhile_append_dropWhile, ← hdrop,
        List.takeWhile_append_dropWhile]
    exact List.append_cancel_right hparts
  constructor
  · rw [firstStatement, htake, hdrop, takeBody_withoutBlanks]
    rfl
  · rw [afterStatement, hdrop, takeBody_withoutBlanks, afterStatement]

/-- Without blanks, tokens have the same statements without their blanks. Statements that held nothing
else are gone. -/
theorem segment_withoutBlanks (tokens : List Token) :
    segment (withoutBlanks tokens) =
      ((segment tokens).map Statement.withoutBlanks).filter (!·.tokens.isEmpty) := by
  induction tokens using segment.induct with
  | case1 =>
    have hnil : withoutBlanks [] = [] := rfl
    rw [hnil, segment, List.map_nil, List.filter_nil]
  | case2 t ts ih =>
    obtain ⟨hfirst, hafter⟩ := firstStatement_withoutBlanks (t :: ts)
    rw [segment, List.map_cons, List.filter_cons, ← ih, ← hfirst, ← hafter]
    cases hrest : withoutBlanks (t :: ts) with
    | nil => rfl
    | cons u us =>
      have htokens := List.isEmpty_eq_false_iff.mpr (isWellCut_firstStatement u us).tokens_ne_nil
      rw [htokens, segment]
      rfl

end Statements

section Folds

/-- The search for a closing delimiter passes over blanks. -/
theorem closing?_withoutBlanks (pair : Delimiter) (depth : Nat) (ts : List Token) :
    closing? pair depth (withoutBlanks ts) = closing? pair depth ts := by
  induction ts generalizing depth with
  | nil => rfl
  | cons t ts ih =>
    by_cases hblank : t.kind = .blank
    · rw [withoutBlanks_cons_blank hblank, ih,
        closing?_other (by rw [hblank]; exact TokenKind.noConfusion)
          (by rw [hblank]; exact TokenKind.noConfusion)]
    · rw [withoutBlanks_cons hblank]
      by_cases hopening : t.kind = .opening pair
      · rw [closing?_opening hopening, closing?_opening hopening, ih]
      · by_cases hclosing : t.kind = .closing pair
        · cases depth with
          | zero => rw [closing?_closing_zero hclosing, closing?_closing_zero hclosing]
          | succ depth => rw [closing?_closing_succ hclosing, closing?_closing_succ hclosing, ih]
        · rw [closing?_other hopening hclosing, closing?_other hopening hclosing, ih]

/-- The look behind a bracket for a map passes over blanks. -/
theorem startsMap_withoutBlanks (following : List Token) :
    startsMap (withoutBlanks following) = startsMap following := by
  have hfirst (ts : List Token) : ts.find? (!·.isTrivia) = (significant ts).head? :=
    List.head?_filter.symm
  rw [startsMap, startsMap, hfirst, hfirst, significant_withoutBlanks]

/-- The search for the context of a brace passes over blanks. -/
theorem BraceRole.ofPreceding_withoutBlanks (preceding : List Token) :
    ofPreceding (withoutBlanks preceding) = ofPreceding preceding := by
  have hpass (t : Token) (h : t.kind = .blank) : isTransparent t = true :=
    isTransparent_of_isTrivia (isTrivia_of_blank h)
  rw [ofPreceding, dropWhile_withoutBlanks hpass, ofPreceding]
  have hhead := List.head?_dropWhile_not isTransparent preceding
  cases hdrop : preceding.dropWhile isTransparent with
  | nil => rfl
  | cons t rest =>
    rw [hdrop] at hhead
    have hstop : isTransparent t = false := hhead
    have hkind : t.kind ≠ .blank := by
      intro hblank
      rw [hpass t hblank] at hstop
      cases hstop
    rw [withoutBlanks_cons hkind]

variable (ends : Token → Nat) (lookup : LineLookup) (options : AnalysisOptions)

/-- A token opens the same region among tokens without blanks. -/
theorem regionAt_withoutBlanks (preceding : List Token) (t : Token) (following : List Token) :
    regionAt ends lookup options (withoutBlanks preceding) t (withoutBlanks following) =
      regionAt ends lookup options preceding t following := by
  have hcontext (pair : FoldDelimiter) :
      contextOf options pair (withoutBlanks preceding) = contextOf options pair preceding := by
    cases pair with
    | brace => simp only [contextOf, BraceRole.ofPreceding_withoutBlanks]
    | bracket => rfl
  simp only [regionAt, regionOf, closing?_withoutBlanks, hcontext, placeholderOf,
    startsMap_withoutBlanks]

/-- A blank opens no region and is passed over by the searches of those behind it. -/
theorem statementFolds_withoutBlanks (preceding ts : List Token) :
    statementFolds ends lookup options (withoutBlanks preceding) (withoutBlanks ts) =
      statementFolds ends lookup options preceding ts := by
  induction ts generalizing preceding with
  | nil => rfl
  | cons t ts ih =>
    by_cases hblank : t.kind = .blank
    · have hnone : regionAt ends lookup options preceding t ts = .ok none := by
        rw [regionAt, hblank]
        rfl
      rw [withoutBlanks_cons_blank hblank, statementFolds, hnone, ← ih (t :: preceding),
        withoutBlanks_cons_blank hblank]
      cases statementFolds ends lookup options (withoutBlanks preceding) (withoutBlanks ts) with
      | error e => rfl
      | ok later => rfl
    · rw [withoutBlanks_cons hblank, statementFolds, statementFolds, regionAt_withoutBlanks,
        ← withoutBlanks_cons hblank, ih]

/-- The regions of all statements are the same without blanks, also where a statement is gone with
them. -/
theorem foldStatements_withoutBlanks (statements : List Statement) :
    foldStatements ends lookup options
        ((statements.map Statement.withoutBlanks).filter (!·.tokens.isEmpty)) =
      foldStatements ends lookup options statements := by
  induction statements with
  | nil => rfl
  | cons s rest ih =>
    have hhere : statementFolds ends lookup options [] s.withoutBlanks.tokens =
        statementFolds ends lookup options [] s.tokens := by
      rw [s.tokens_withoutBlanks]
      exact statementFolds_withoutBlanks ends lookup options [] s.tokens
    rw [List.map_cons, List.filter_cons]
    cases htokens : s.withoutBlanks.tokens with
    | nil =>
      -- The statement held blanks only, so it opened nothing.
      rw [htokens] at hhere
      rw [List.isEmpty_nil, Bool.not_true, if_neg Bool.false_ne_true, ih,
        foldStatements_cons_ok hhere.symm]
      cases foldStatements ends lookup options rest with
      | error e => rfl
      | ok later => rfl
    | cons t ts =>
      rw [List.isEmpty_cons, Bool.not_false, if_pos rfl, foldStatements, hhere, ih, foldStatements]

end Folds

/-- Landmarks that agree in all but the offset at which they end. -/
def Landmark.SameButStop (l l' : Landmark) : Prop := { l with stop := l'.stop } = l'

section Landmarks

/-- What a statement is does not depend on its blanks. -/
theorem classify_withoutBlanks (ts : List Token) : classify (withoutBlanks ts) = classify ts := by
  rw [classify, significant_withoutBlanks, classify]

/-- The name of a function does not depend on blanks. -/
theorem functionName_withoutBlanks (ts : List Token) :
    functionName (withoutBlanks ts) = functionName ts := by
  rw [functionName, significant_withoutBlanks, functionName]

/-- A last token that is no blank stays the last. -/
theorem getLast?_withoutBlanks {ts : List Token} (h : ∀ t ∈ ts.getLast?, t.kind ≠ .blank) :
    (withoutBlanks ts).getLast? = ts.getLast? := by
  cases hlast : ts.getLast? with
  | none =>
    rw [List.getLast?_eq_none_iff.mp hlast]
    rfl
  | some last =>
    obtain ⟨ahead, rfl⟩ := List.getLast?_eq_some_iff.mp hlast
    rw [withoutBlanks_append, withoutBlanks_cons (h last hlast)]
    exact List.getLast?_concat

namespace Statement

variable {s : Statement} (ends : Token → Nat)

/-- A terminator is no blank, so a statement that is ended does not end in one. -/
theorem EndsBalanced.getLast_ne_blank (hend : s.EndsBalanced) :
    ∀ t ∈ s.body.getLast?, t.kind ≠ .blank := by
  obtain ⟨⟨last, hlast, hterminator⟩, -⟩ := hend
  intro t ht hblank
  obtain rfl := Option.some.inj (hlast.symm.trans ht)
  rw [Token.isTerminator, hblank] at hterminator
  cases hterminator

/-- A body starts with a token that is no blank, so its bytes start at the same offset. -/
theorem spanWith?_withoutBlanks (hs : s.IsWellCut) :
    Option.Rel (fun span span' => span.1 = span'.1) (s.withoutBlanks.spanWith? ends)
        (s.spanWith? ends) ∧
      (s.EndsBalanced → s.withoutBlanks.spanWith? ends = s.spanWith? ends) := by
  cases hbody : s.body with
  | nil =>
    have hnone : s.withoutBlanks.body = [] := by
      rw [withoutBlanks, hbody]
      rfl
    rw [spanWith?, spanWith?, hbody, hnone]
    exact ⟨.none, fun _ => rfl⟩
  | cons first rest =>
    have hkind : first.kind ≠ .blank := by
      intro hblank
      have htrivia := hs.head_body first (by rw [hbody]; rfl)
      rw [isTrivia_of_blank hblank] at htrivia
      cases htrivia
    have hsome : s.withoutBlanks.body = first :: ElvishOutline.withoutBlanks rest := by
      rw [withoutBlanks, hbody, withoutBlanks_cons hkind]
    rw [spanWith?, spanWith?, hbody, hsome]
    constructor
    · rw [List.getLast?_cons, List.getLast?_cons]
      exact .some rfl
    · intro hend
      have hlast := getLast?_withoutBlanks hend.getLast_ne_blank
      rw [hbody, withoutBlanks_cons hkind] at hlast
      rw [hlast]
      rfl

/-- Without blanks, a statement is the same landmark up to its end, and the same altogether if it is
ended. -/
theorem landmarkWith?_withoutBlanks (hs : s.IsWellCut) :
    Option.Rel Landmark.SameButStop (s.withoutBlanks.landmarkWith? ends) (s.landmarkWith? ends) ∧
      (s.EndsBalanced → s.withoutBlanks.landmarkWith? ends = s.landmarkWith? ends) := by
  obtain ⟨hspan, hended⟩ := spanWith?_withoutBlanks ends hs
  have hkind : classify s.withoutBlanks.body = classify s.body := classify_withoutBlanks s.body
  have hname : functionName s.withoutBlanks.body = functionName s.body :=
    functionName_withoutBlanks s.body
  rw [landmarkWith?, landmarkWith?, hkind, hname]
  constructor
  · generalize s.withoutBlanks.spanWith? ends = span at hspan ⊢
    generalize s.spanWith? ends = span' at hspan ⊢
    cases hspan with
    | none => exact .none
    | some hstart =>
      cases classify s.body with
      | none => exact .none
      | some kind =>
        refine .some ?_
        rw [Landmark.SameButStop, hstart]
  · intro hend
    rw [hended hend]

end Statement

/-- Statements without tokens are no landmarks. -/
theorem landmarksWith_filter_tokens (ends : Token → Nat) (statements : List Statement) :
    landmarksWith ends (statements.filter (!·.tokens.isEmpty)) = landmarksWith ends statements := by
  rw [landmarksWith, List.filterMap_filter, landmarksWith]
  refine List.filterMap_congr ?_
  intro s _
  cases htokens : s.tokens with
  | nil =>
    have hbody : s.body = [] := (List.append_eq_nil_iff.mp htokens).2
    rw [Statement.landmarkWith?, Statement.spanWith?, hbody]
    rfl
  | cons t ts => rfl

/-- Without blanks, the landmarks of all statements but the last stay the same, and the last one, if it
is a landmark, is the same up to its end. -/
theorem landmarksWith_withoutBlanks (ends : Token → Nat) (tokens : List Token) :
    ∃ ahead last last',
      landmarksWith ends (segment (withoutBlanks tokens)) = ahead ++ Option.toList last ∧
      landmarksWith ends (segment tokens) = ahead ++ Option.toList last' ∧
      Option.Rel Landmark.SameButStop last last' := by
  rw [segment_withoutBlanks, landmarksWith_filter_tokens, landmarksWith, landmarksWith,
    List.filterMap_map]
  cases hlast : (segment tokens).getLast? with
  | none =>
    rw [List.getLast?_eq_none_iff.mp hlast]
    exact ⟨[], none, none, rfl, rfl, .none⟩
  | some s =>
    -- The landmark of the last statement is kept apart: it alone may lose blanks at its end.
    have hcut (f : Statement → Option Landmark) : (segment tokens).filterMap f =
        (segment tokens).dropLast.filterMap f ++ (f s).toList := by
      have hsplit := congrArg (List.filterMap f) (List.dropLast_append_getLast? s hlast)
      rw [List.filterMap_append] at hsplit
      rw [← hsplit, List.filterMap_cons]
      cases f s <;> rfl
    have hahead : (segment tokens).dropLast.filterMap
        (Statement.landmarkWith? ends ∘ Statement.withoutBlanks) =
        (segment tokens).dropLast.filterMap (Statement.landmarkWith? ends) := by
      refine List.filterMap_congr ?_
      intro s' hs'
      have hwellCut := isWellCut_of_mem_segment (List.dropLast_subset _ hs')
      exact (Statement.landmarkWith?_withoutBlanks ends hwellCut).2 (endsBalanced_of_mem_dropLast hs')
    have hwellCut := isWellCut_of_mem_segment (List.mem_of_getLast? hlast)
    refine ⟨(segment tokens).dropLast.filterMap (Statement.landmarkWith? ends),
      s.withoutBlanks.landmarkWith? ends, s.landmarkWith? ends, ?_, hcut _,
      (Statement.landmarkWith?_withoutBlanks ends hwellCut).1⟩
    rw [hcut, hahead]
    rfl

end Landmarks

/-- Tokens have the same regions without their blanks, with any ends of tokens, any lookup of lines and
all options, and folding fails for them in the same way. They have the same landmarks in all but the
ends, and only the end of the last landmark can differ. -/
theorem spacing_leaves_structure (ends : Token → Nat) (tokens : List Token) (lookup : LineLookup)
    (options : AnalysisOptions) :
    findFoldsWith ends (withoutBlanks tokens) lookup options =
        findFoldsWith ends tokens lookup options ∧
      List.Forall₂ Landmark.SameButStop (landmarksWith ends (segment (withoutBlanks tokens)))
        (landmarksWith ends (segment tokens)) ∧
      (landmarksWith ends (segment (withoutBlanks tokens))).dropLast =
        (landmarksWith ends (segment tokens)).dropLast := by
  constructor
  · rw [findFoldsWith, segment_withoutBlanks, foldStatements_withoutBlanks, findFoldsWith]
  · obtain ⟨ahead, last, last', hwithout, hwith, hlast⟩ := landmarksWith_withoutBlanks ends tokens
    rw [hwithout, hwith]
    have hself : List.Forall₂ Landmark.SameButStop ahead ahead :=
      List.forall₂_same.mpr fun l _ => rfl
    cases hlast with
    | none => exact ⟨List.rel_append hself .nil, rfl⟩
    | some hsame =>
      refine ⟨List.rel_append hself (.cons hsame .nil), ?_⟩
      rw [Option.toList_some, Option.toList_some, List.dropLast_concat, List.dropLast_concat]

-- Without the blank at the end of a script, the last landmark does end earlier.
example :
    let tokens : List Token := [⟨.keyword (.block .function), "fn", 0, 2⟩, ⟨.blank, " ", 2, 1⟩]
    (landmarks (segment tokens)).map Landmark.stop = [3] ∧
      (landmarks (segment (withoutBlanks tokens))).map Landmark.stop = [2] := by
  decide +kernel

end ElvishOutline

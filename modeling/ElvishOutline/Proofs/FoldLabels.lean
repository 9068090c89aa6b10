import Mathlib.Data.List.Forall2
import ElvishOutline.Fold

/-!
# Options choose labels only

The options of an analysis say what is shown for a brace: whether its context is looked for, and
whether its placeholder names it. Which pairs are regions, in what order, and which line cannot be
looked up first are the same with all options, whatever the ends of tokens and the lines are taken to
be.

Two runs over the same tokens are followed side by side. Each step of one agrees with that of
the other, so that both fail at the same lookup or go on.
-/

namespace ElvishOutline

/-- Outcomes that agree: both fail with one error, or both give results that are related. -/
inductive AgreeBy {ε α β : Type} (R : α → β → Prop) : Except ε α → Except ε β → Prop where
  | error (e : ε) : AgreeBy R (.error e) (.error e)
  | ok {a : α} {b : β} (h : R a b) : AgreeBy R (.ok a) (.ok b)

/-- Outcomes that agree still do when related results are used in ways that agree. -/
theorem AgreeBy.bind {ε α β α' β' : Type} {R : α → β → Prop} {S : α' → β' → Prop}
    {x : Except ε α} {y : Except ε β} {f : α → Except ε α'} {g : β → Except ε β'}
    (h : AgreeBy R x y) (hnext : ∀ a b, R a b → AgreeBy S (f a) (g b)) :
    AgreeBy S (x >>= f) (y >>= g) := by
  cases h with
  | error e => exact .error e
  | ok hab => exact hnext _ _ hab

namespace Fold

/-- The region without what options say about it. -/
def unlabelled (f : Fold) : Fold := { f with context := none, placeholder := "" }

/-- The region with the context and the placeholder that options give it, between the tokens ahead of
its opening one and those behind it. -/
def labelled (options : AnalysisOptions) (preceding following : List Token) (f : Fold) : Fold :=
  let context := contextOf options f.delimiter preceding
  { f with context, placeholder := placeholderOf options context following }

end Fold

section Runs

variable {R : Fold → Fold → Prop} {options options' : AnalysisOptions} (ends : Token → Nat)
  (lookup : LineLookup)
  (hlabels : ∀ (f : Fold) (preceding following : List Token),
    R (f.labelled options preceding following) (f.labelled options' preceding following))

include hlabels

/-- The regions of a pair agree if their labels do. -/
theorem regionOf_agreeBy (pair : FoldDelimiter) (preceding : List Token) (opener : Token)
    (following : List Token) (closer : Token) :
    AgreeBy (Option.Rel R) (regionOf ends lookup options pair preceding opener following closer)
      (regionOf ends lookup options' pair preceding opener following closer) := by
  unfold regionOf
  cases lookup opener.start with
  | error e => exact .error e
  | ok startLine =>
    cases lookup (ends closer) with
    | error e => exact .error e
    | ok endLine =>
      simp only [bind, Except.bind]
      by_cases hlines : endLine ≤ startLine
      · simp only [if_pos hlines]
        exact .ok .none
      · simp only [if_neg hlines]
        exact .ok (.some (hlabels
          { start := opener.start
            stop := ends closer
            startLine
            endLine
            group := "elvish-" ++ pair.name ++ "-" ++ toString opener.start
            placeholder := ""
            delimiter := pair
            context := none
            collapsed := false } preceding following))

/-- The regions that a token opens agree, or there is none under either choice of labels. -/
theorem regionAt_agreeBy (preceding : List Token) (t : Token) (following : List Token) :
    AgreeBy (Option.Rel R) (regionAt ends lookup options preceding t following)
      (regionAt ends lookup options' preceding t following) := by
  unfold regionAt
  cases FoldDelimiter.ofOpening? t.kind with
  | none => exact .ok .none
  | some pair =>
    dsimp only
    cases closing? pair.toDelimiter 0 following with
    | none => exact .ok .none
    | some closer => exact regionOf_agreeBy ends lookup hlabels pair preceding t following closer

/-- The regions of a statement agree one by one. -/
theorem statementFolds_agreeBy (preceding ts : List Token) :
    AgreeBy (List.Forall₂ R) (statementFolds ends lookup options preceding ts)
      (statementFolds ends lookup options' preceding ts) := by
  induction ts generalizing preceding with
  | nil => exact .ok .nil
  | cons t ts ih =>
    refine (regionAt_agreeBy ends lookup hlabels preceding t ts).bind ?_
    intro here here' hhere
    refine (ih (t :: preceding)).bind ?_
    intro later later' hlater
    cases hhere with
    | none => exact .ok hlater
    | some hregion => exact .ok (.cons hregion hlater)

/-- The regions of statements agree one by one. -/
theorem foldStatements_agreeBy (statements : List Statement) :
    AgreeBy (List.Forall₂ R) (foldStatements ends lookup options statements)
      (foldStatements ends lookup options' statements) := by
  induction statements with
  | nil => exact .ok .nil
  | cons s rest ih =>
    refine (statementFolds_agreeBy ends lookup hlabels [] s.tokens).bind ?_
    intro here here' hhere
    refine ih.bind ?_
    intro later later' hlater
    exact .ok (List.rel_append hhere hlater)

end Runs

/-- In the uniform style all braces are shown alike, as generic ones are in every style. -/
theorem BraceRole.placeholder_generic (style : PlaceholderStyle) (context : BraceRole) :
    generic.placeholder style = context.placeholder .uniform := by
  cases style with
  | uniform => cases context <;> rfl
  | contextual => cases context <;> rfl

/-- With any two options the regions of any tokens are the same, with any ends of tokens and any lookup
of lines, but for the contexts and placeholders of braces, and where one run fails the other does with
the same error. In fast mode all braces have the generic context, and the placeholder that they have in the uniform style
when their contexts are looked for. -/
theorem options_choose_labels_only (ends : Token → Nat) (tokens : List Token) (lookup : LineLookup)
    (options options' : AnalysisOptions) :
    AgreeBy (List.Forall₂ fun f g =>
        f.unlabelled = g.unlabelled ∧ (f.delimiter = .bracket → f = g))
      (findFoldsWith ends tokens lookup options) (findFoldsWith ends tokens lookup options') ∧
    ∀ style, AgreeBy (List.Forall₂ fun f g =>
        f.delimiter = .brace → f.context = some .generic ∧ f.placeholder = g.placeholder)
      (findFoldsWith ends tokens lookup { fast := true, style })
      (findFoldsWith ends tokens lookup { fast := false, style := .uniform }) := by
  constructor
  · refine foldStatements_agreeBy ends lookup ?_ (segment tokens)
    intro f preceding following
    refine ⟨rfl, fun hbracket => ?_⟩
    have hdelimiter : f.delimiter = .bracket := hbracket
    simp only [Fold.labelled, hdelimiter, contextOf, placeholderOf]
  · intro style
    refine foldStatements_agreeBy ends lookup ?_ (segment tokens)
    intro f preceding following hbrace
    have hdelimiter : f.delimiter = .brace := hbrace
    simp only [Fold.labelled, hdelimiter, contextOf, placeholderOf]
    exact ⟨rfl, BraceRole.placeholder_generic style _⟩

end ElvishOutline

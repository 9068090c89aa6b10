import ElvishOutline.Rendering
import ElvishOutline.Proofs.FoldText
import ElvishOutline.Proofs.Partition

/-!
# The regions that a rendering collapses

A rendering takes the regions of a script in order and collapses each one that does not start inside
the last collapsed one. `replacedFrom` lists these regions and `collapseFrom` is a text with all the
regions of a list collapsed. A rendering is the two together, and it never fails.

All of this rests on where the regions of a script lie: they are ordered by their starts, and each
ends behind its start and between two characters.
-/

namespace ElvishOutline

open Text (byteLength dropBytes isBoundary lineAt slice takeBytes)

/-- A region between two characters of a text, with the lines of its two ends. -/
structure Fold.LiesIn (text : List Char) (f : Fold) : Prop where
  start_lt_stop : f.start < f.stop
  isBoundary_stop : isBoundary f.stop text = true
  startLine_eq : f.startLine = lineAt text f.start
  endLine_eq : f.endLine = lineAt text f.stop

/-- Regions of a text, ordered by their starts. -/
structure OrderedRegions (text : List Char) (folds : List Fold) : Prop where
  sorted : folds.Pairwise fun f g => f.start < g.start
  liesIn : ∀ f ∈ folds, f.LiesIn text

/-- A boundary between characters does not lie past the end. -/
theorem Text.le_byteLength_of_isBoundary {n : Nat} {text : List Char}
    (h : isBoundary n text = true) : n ≤ byteLength text := by
  have hlength := congrArg byteLength (Text.takeBytes_append_dropBytes n text)
  rw [Text.byteLength_append, of_decide_eq_true h] at hlength
  omega

/-- Tokens at later positions start behind those at earlier ones. -/
theorem Tiles.stop_le_start {start : Nat} {all : List Token} (h : Tiles start all) {i j : Nat}
    {a b : Token} (hij : i < j) (hi : all[i]? = some a) (hj : all[j]? = some b) :
    a.stop ≤ b.start := by
  obtain ⟨before, inside, after, rfl⟩ := exists_split_of_getElem? hij hi hj
  have hfirst : Tiles start (before ++ a :: (inside ++ b :: after)) := by simpa using h
  have hsecond : Tiles start ((before ++ a :: inside) ++ b :: after) := by simpa using h
  rw [hfirst.start_stop.2, hsecond.start_stop.1]
  simp only [spelling_append, spelling_cons, spelling_nil, Text.byteLength_append,
    Text.byteLength_nil]
  omega

/-- A token of a script ends between two of its characters. -/
theorem isBoundary_stop_of_mem_tokenize {source : String} {t : Token} (ht : t ∈ tokenize source) :
    isBoundary t.stop source.toList = true := by
  obtain ⟨before, after, hsplit⟩ := List.append_of_mem ht
  have htiles := tiles_tokenize source
  have htext := spelling_tokenize source
  rw [hsplit] at htiles htext
  have hcut : before ++ t :: after = (before ++ [t]) ++ after := by simp
  rw [htiles.start_stop.2, Nat.zero_add, ← htext, hcut, spelling_append (before ++ [t])]
  exact Text.isBoundary_byteLength _ _

/-- The region of a pair of delimiters lies in the script. -/
theorem TokenPair.Spans.liesIn {source : String} {q : TokenPair} {f : Fold}
    (hspans : q.Spans (tokenize source) (lineAt source.toList) f) (hq : q.opener < q.closer) :
    f.LiesIn source.toList := by
  obtain ⟨opener, closer, hi, hj, -, hstart, hstop, hstartLine, hendLine⟩ := hspans
  have hcloser := List.mem_of_getElem? hj
  have hbehind := (tiles_tokenize source).stop_le_start hq hi hj
  have hopenerLength := ((tiles_tokenize source).length_eq (List.mem_of_getElem? hi)).2
  have hcloserLength := ((tiles_tokenize source).length_eq hcloser).2
  rw [Token.stop] at hbehind
  refine ⟨?_, ?_, ?_, ?_⟩
  · rw [hstart, hstop, Token.stop]
    omega
  · rw [hstop]
    exact isBoundary_stop_of_mem_tokenize hcloser
  · rw [hstartLine, hstart]
  · rw [hendLine, hstop]

/-- Regions of pairs start in the order of the opening tokens. -/
theorem TokenPair.Spans.start_lt {source : String} {q q' : TokenPair} {f f' : Fold}
    (h : q.Spans (tokenize source) (lineAt source.toList) f)
    (h' : q'.Spans (tokenize source) (lineAt source.toList) f') (hlt : q.opener < q'.opener) :
    f.start < f'.start := by
  obtain ⟨opener, -, hi, -, -, hstart, -⟩ := h
  obtain ⟨opener', -, hi', -, -, hstart', -⟩ := h'
  have hbehind := (tiles_tokenize source).stop_le_start hlt hi hi'
  have hlength := ((tiles_tokenize source).length_eq (List.mem_of_getElem? hi)).2
  rw [Token.stop] at hbehind
  omega

/-- The multi-line pairs of a script, in the order of their opening tokens. -/
def multilinePairs (source : String) : List TokenPair :=
  (statementPairs 0 (segment (tokenize source))).filter
    (TokenPair.isMultiline (tokenize source) (lineAt source.toList))

/-- The regions of a script are those of its multi-line pairs. -/
theorem forall₂_folds (source : String) (options : AnalysisOptions) :
    List.Forall₂ (TokenPair.Spans (tokenize source) (lineAt source.toList))
      (multilinePairs source) (analysisOf source (tokenize source) options).folds :=
  forall₂_statementPairs _ options (segment_tokens _).symm

/-- Every region of a script is that of a matched pair. -/
theorem exists_pair_of_mem_folds {source : String} {options : AnalysisOptions} {f : Fold}
    (hf : f ∈ (analysisOf source (tokenize source) options).folds) :
    ∃ q : TokenPair, q.IsMatched (tokenize source) ∧
      q.Spans (tokenize source) (lineAt source.toList) f := by
  have hall : (tokenize source).drop 0 = (segment (tokenize source)).flatMap Statement.tokens :=
    (segment_tokens _).symm
  obtain ⟨q, hq, hspans⟩ := exists_mem_of_forall₂ (forall₂_folds source options) hf
  exact ⟨q, isMatched_of_mem_statementPairs hall (List.mem_filter.mp hq).1, hspans⟩

/-- The regions of a script lie in it, in the order of their starts. -/
theorem orderedRegions_folds (source : String) (options : AnalysisOptions) :
    OrderedRegions source.toList (analysisOf source (tokenize source) options).folds := by
  constructor
  · have hsorted : (multilinePairs source).Pairwise fun q q' => q.opener < q'.opener :=
      (pairwise_statementPairs 0 _).1.filter _
    refine pairwise_of_forall₂ (forall₂_folds source options) hsorted ?_
    intro q q' f f' hspans hspans' hlt
    exact hspans.start_lt hspans' hlt
  · intro f hf
    obtain ⟨q, hq, hspans⟩ := exists_pair_of_mem_folds hf
    exact hspans.liesIn hq.1

/-- The regions that are collapsed from the byte `current` on: the first that starts there or
behind, and so on from its end. -/
def replacedFrom (current : Nat) : List Fold → List Fold
  | [] => []
  | fold :: rest =>
    if fold.start < current then replacedFrom current rest
    else fold :: replacedFrom fold.stop rest

/-- The text from the byte `current` on, with each of the regions collapsed. -/
def collapseFrom (palette : Palette) (text : List Char) (current : Nat) : List Fold → List Char
  | [] => dropBytes current text
  | fold :: rest =>
    slice current fold.start text ++
      (fold.collapsedText palette (endsLine (dropBytes fold.stop text))).toList ++
      collapseFrom palette text fold.stop rest

/-- Collapsed regions are some of those given, in their order. -/
theorem replacedFrom_sublist (current : Nat) (folds : List Fold) :
    (replacedFrom current folds).Sublist folds := by
  fun_induction replacedFrom current folds with
  | case1 => exact .slnil
  | case2 current fold rest hinside ih => exact ih.cons fold
  | case3 current fold rest hbehind ih => exact ih.cons_cons fold

/-- Collapsed regions lie one behind the other. -/
theorem replacedFrom_disjoint {current : Nat} {folds : List Fold}
    (hfolds : ∀ f ∈ folds, f.start < f.stop) :
    (replacedFrom current folds).Pairwise (fun r r' => r.stop ≤ r'.start) ∧
      ∀ r ∈ replacedFrom current folds, current ≤ r.start := by
  fun_induction replacedFrom current folds with
  | case1 => simp
  | case2 current fold rest hinside ih => exact ih (List.forall_mem_cons.mp hfolds).2
  | case3 current fold rest hbehind ih =>
    obtain ⟨hfold, hrest⟩ := List.forall_mem_cons.mp hfolds
    obtain ⟨hdisjoint, hlater⟩ := ih hrest
    refine ⟨.cons hlater hdisjoint, List.forall_mem_cons.mpr ⟨by omega, ?_⟩⟩
    intro r hr
    have := hlater r hr
    omega

/-- A region that is not collapsed starts ahead of `current` or inside one that is. -/
theorem starts_inside_of_not_mem_replacedFrom {current : Nat} {folds : List Fold}
    (hsorted : folds.Pairwise fun f g => f.start < g.start) {f : Fold} (hf : f ∈ folds)
    (hnot : f ∉ replacedFrom current folds) :
    f.start < current ∨ ∃ r ∈ replacedFrom current folds, r.start < f.start ∧ f.start < r.stop := by
  fun_induction replacedFrom current folds with
  | case1 => cases hf
  | case2 current fold rest hinside ih =>
    rcases List.mem_cons.mp hf with rfl | hf
    · exact .inl hinside
    · exact ih hsorted.of_cons hf hnot
  | case3 current fold rest hbehind ih =>
    rcases List.mem_cons.mp hf with rfl | hf
    · exact absurd List.mem_cons_self hnot
    · right
      rcases ih hsorted.of_cons hf (fun h => hnot (List.mem_cons_of_mem _ h)) with hinside | hlater
      · exact ⟨fold, List.mem_cons_self, List.rel_of_pairwise_cons hsorted hf, hinside⟩
      · obtain ⟨r, hr, hstart⟩ := hlater
        exact ⟨r, List.mem_cons_of_mem _ hr, hstart⟩

/-- The outermost ones of some regions: they lie one behind the other, and each other region starts
inside one of them. -/
structure IsOutermost (folds outermost : List Fold) : Prop where
  sublist : outermost.Sublist folds
  disjoint : outermost.Pairwise fun r r' => r.stop ≤ r'.start
  others : ∀ f ∈ folds, f ∉ outermost → ∃ r ∈ outermost, r.start < f.start ∧ f.start < r.stop

/-- From the start of a text on, the outermost regions are collapsed. -/
theorem OrderedRegions.isOutermost {text : List Char} {folds : List Fold}
    (h : OrderedRegions text folds) : IsOutermost folds (replacedFrom 0 folds) := by
  refine ⟨replacedFrom_sublist 0 folds, ?_, ?_⟩
  · exact (replacedFrom_disjoint fun f hf => (h.liesIn f hf).start_lt_stop).1
  · intro f hf hnot
    exact (starts_inside_of_not_mem_replacedFrom h.sorted hf hnot).resolve_left (Nat.not_lt_zero _)

/-- A rendering collapses exactly the regions that `replacedFrom` lists. -/
theorem renderFrom_eq_ok (palette : Palette) {text : List Char} (current : Nat) {folds : List Fold}
    (hfolds : ∀ f ∈ folds, f.LiesIn text) :
    renderFrom palette text current folds =
      .ok (collapseFrom palette text current (replacedFrom current folds)) := by
  fun_induction replacedFrom current folds with
  | case1 => rfl
  | case2 current fold rest hinside ih =>
    rw [renderFrom, if_pos (.inl hinside)]
    exact ih (List.forall_mem_cons.mp hfolds).2
  | case3 current fold rest hbehind ih =>
    obtain ⟨hfold, hrest⟩ := List.forall_mem_cons.mp hfolds
    have hstop := Text.le_byteLength_of_isBoundary hfold.isBoundary_stop
    have hstart := hfold.start_lt_stop
    rw [renderFrom, if_neg (by omega), if_neg (by omega), hfold.isBoundary_stop, ih hrest]
    rfl

/-- A script is rendered with all of the regions collapsed that do not start inside another. -/
theorem render_eq_ok (palette : Palette) {source : String} {folds : List Fold}
    (hfolds : ∀ f ∈ folds, f.LiesIn source.toList) :
    render palette source folds =
      .ok (String.ofList (collapseFrom palette source.toList 0 (replacedFrom 0 folds))) := by
  rw [render, renderFrom_eq_ok palette 0 hfolds]
  rfl

end ElvishOutline

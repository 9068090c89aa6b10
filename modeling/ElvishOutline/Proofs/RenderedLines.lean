import ElvishOutline.Proofs.HiddenLines
import ElvishOutline.Proofs.RenderedText

/-!
# The lines of a rendering

What a rendering shows for a region, in plain text or in colour, is never empty and has no line end.
A region starts and ends with a delimiter. So neither taking a region out nor putting its text in can
split a line end or make one out of two, and each region takes away the line ends of its own text:
those are the lines that it hides.
-/

namespace ElvishOutline

open Text (byteLength isLineBreak lineBreakCount Seamless)

namespace Text

/-- A text without a line end. -/
def IsInline (cs : List Char) : Prop := ∀ c ∈ cs, isLineBreak c = false

/-- Two parts stay on one line if each of them does. -/
@[simp] theorem isInline_append {xs ys : List Char} :
    IsInline (xs ++ ys) ↔ IsInline xs ∧ IsInline ys :=
  List.forall_mem_append

/-- For a fixed text the characters are run through. -/
theorem isInline_of_all {cs : List Char} (h : (cs.all fun c => !isLineBreak c) = true) :
    IsInline cs := by
  simpa [IsInline] using h

/-- Numbers are written without a line end. -/
theorem isInline_toString (n : Nat) : IsInline (toString n).toList := by
  intro c hc
  rw [Nat.toString_eq_repr, Nat.toList_repr] at hc
  have hdigit := Nat.isDigit_of_mem_toDigits (by decide) (by decide) hc
  by_contra hbreak
  rw [Bool.not_eq_false] at hbreak
  simp only [isLineBreak, Bool.or_eq_true, decide_eq_true_eq] at hbreak
  rcases hbreak with (((((rfl | rfl) | rfl) | rfl) | rfl) | rfl) | rfl <;> cases hdigit

/-- A text on one line has no line ends. -/
theorem lineBreakCount_of_isInline {cs : List Char} (h : IsInline cs) : lineBreakCount cs = 0 := by
  fun_induction lineBreakCount cs with
  | case1 => rfl
  | case2 cs ih => cases h '\r' List.mem_cons_self
  | case3 c cs hcrlf hbreak ih =>
    rw [h c List.mem_cons_self] at hbreak
    cases hbreak
  | case4 c cs hcrlf hbreak ih => exact ih (List.forall_mem_cons.mp h).2

/-- A text without a line end, if it is not empty, keeps the line ends on both sides of it apart. -/
theorem lineBreakCount_inline_between {xs ys zs : List Char} (hys : IsInline ys) (hne : ys ≠ []) :
    lineBreakCount (xs ++ (ys ++ zs)) = lineBreakCount xs + lineBreakCount zs := by
  have hnotBreak {c d : Char} (hc : c ∈ ys) (hd : isLineBreak d = true) : c ≠ d := by
    intro heq
    rw [← heq, hys c hc] at hd
    cases hd
  have hbefore : Seamless xs (ys ++ zs) := by
    apply Seamless.of_head? (c := ys.head hne)
    · rw [List.head?_append_of_ne_nil _ hne, List.head?_eq_some_head hne]
    · exact hnotBreak (List.head_mem hne) rfl
  have hafter : Seamless ys zs := by
    apply Seamless.of_getLast? (List.getLast?_eq_some_getLast hne)
    exact hnotBreak (List.getLast_mem hne) rfl
  rw [lineBreakCount_append hbefore, lineBreakCount_append hafter, lineBreakCount_of_isInline hys,
    Nat.zero_add]

end Text

open Text (IsInline)

/-- The placeholder of a brace is some text on one line. -/
theorem BraceRole.isInline_placeholder (role : BraceRole) (style : PlaceholderStyle) :
    IsInline (role.placeholder style).toList ∧ (role.placeholder style).toList ≠ [] := by
  cases role with
  | block b =>
    cases b <;> cases style <;> exact ⟨Text.isInline_of_all rfl, List.cons_ne_nil _ _⟩
  | lambda => cases style <;> exact ⟨Text.isInline_of_all rfl, List.cons_ne_nil _ _⟩
  | generic => cases style <;> exact ⟨Text.isInline_of_all rfl, List.cons_ne_nil _ _⟩

/-- Placeholders are not empty and have no line end. -/
theorem isInline_placeholderOf (options : AnalysisOptions) (context : Option BraceRole)
    (following : List Token) :
    IsInline (placeholderOf options context following).toList ∧
      (placeholderOf options context following).toList ≠ [] := by
  cases context with
  | none =>
    rw [placeholderOf]
    split <;> exact ⟨Text.isInline_of_all rfl, List.cons_ne_nil _ _⟩
  | some role => exact role.isInline_placeholder options.style

/-- The colour of a region stays on its line. -/
theorem Fold.isInline_color (f : Fold) : IsInline f.color.toList := by
  unfold Fold.color
  split <;> exact Text.isInline_of_all rfl

/-- What is shown for a region is not empty and has no line end. -/
theorem Fold.IsLabelled.isInline_shown {options : AnalysisOptions} {f : Fold}
    (h : f.IsLabelled options) (palette : Palette) (rest : List Char) :
    IsInline (f.shown palette rest) ∧ f.shown palette rest ≠ [] := by
  obtain ⟨following, hplaceholder⟩ := h.placeholder_eq
  obtain ⟨hinline, hne⟩ := isInline_placeholderOf options f.context following
  rw [← hplaceholder] at hinline hne
  have hnote : IsInline (if endsLine rest then
      " # " ++ toString f.hiddenLines ++ " lines folded" else "").toList := by
    split
    · rw [String.toList_append, String.toList_append, Text.isInline_append, Text.isInline_append]
      exact ⟨⟨Text.isInline_of_all rfl, Text.isInline_toString _⟩, Text.isInline_of_all rfl⟩
    · exact Text.isInline_of_all rfl
  have hsgr : IsInline (sgr "0").toList ∧ IsInline (sgr "2").toList :=
    ⟨Text.isInline_of_all rfl, Text.isInline_of_all rfl⟩
  cases palette with
  | plain =>
    simp only [Fold.shown, Fold.collapsedText, String.toList_append]
    exact ⟨Text.isInline_append.mpr ⟨hinline, hnote⟩, List.append_ne_nil_of_left_ne_nil hne _⟩
  | ansi =>
    simp only [Fold.shown, Fold.collapsedText, String.toList_append]
    constructor
    · simp only [Text.isInline_append]
      exact ⟨⟨⟨⟨⟨f.isInline_color, hinline⟩, hsgr.1⟩, hsgr.2⟩, hnote⟩, hsgr.1⟩
    · simp [hne]

/-- The bytes of a region hold its text and no other. -/
theorem Fold.Cuts.eq_around {f : Fold} {text before inside after pre hidden rest : List Char}
    (h : f.Cuts text before inside after) (htext : text = pre ++ (hidden ++ rest))
    (hstart : f.start = byteLength pre) (hstop : f.stop = f.start + byteLength hidden) :
    hidden = f.delimiter.around inside := by
  have hslice := Text.slice_between pre hidden rest
  rw [← htext, ← hstart, ← hstop, h.start_eq, h.stop_eq, h.text_eq, Text.slice_between] at hslice
  exact hslice.symm

/-- Each region that is replaced takes the line ends of its own text away, and no others.

The induction follows the text from left to right; `before` is what has been passed. -/
theorem CollapsesTo.lineBreakCount_add {shown : Fold → List Char → List Char} {start : Nat}
    {rs : List Fold} {text out : List Char} (h : CollapsesTo shown start rs text out)
    {whole before : List Char} (hwhole : whole = before ++ text) (hstart : start = byteLength before)
    (hcuts : ∀ r ∈ rs, ∃ ahead inside after, r.Cuts whole ahead inside after)
    (hlies : ∀ r ∈ rs, r.LiesIn whole)
    (hshown : ∀ r ∈ rs, ∀ rest, IsInline (shown r rest) ∧ shown r rest ≠ []) :
    lineBreakCount out + hiddenTotal rs = lineBreakCount text := by
  induction h generalizing before with
  | keep start text => rfl
  | @replace start r rs kept hidden rest out hrStart hrStop hrest ih =>
    obtain ⟨⟨ahead, inside, after, hcut⟩, hrsCuts⟩ := List.forall_mem_cons.mp hcuts
    obtain ⟨hr, hrsLies⟩ := List.forall_mem_cons.mp hlies
    obtain ⟨hrShown, hrsShown⟩ := List.forall_mem_cons.mp hshown
    obtain ⟨hinline, hne⟩ := hrShown rest
    have hpassed : r.start = byteLength (before ++ kept) := by
      rw [hrStart, hstart, Text.byteLength_append]
    -- What is hidden is the text of the region, so both of its seams are at delimiters.
    have hhidden : hidden = r.delimiter.around inside :=
      hcut.eq_around (by rw [hwhole, List.append_assoc]) hpassed hrStop
    have hwholeRest : whole = (before ++ kept ++ hidden) ++ rest := by
      rw [hwhole]
      simp
    have hpassedRest : r.stop = byteLength (before ++ kept ++ hidden) := by
      rw [hrStop, hpassed, ← Text.byteLength_append]
    have hlater := ih hwholeRest hpassedRest hrsCuts hrsLies hrsShown
    have htext : lineBreakCount (kept ++ (hidden ++ rest)) =
        lineBreakCount kept + (r.hiddenLines + lineBreakCount rest) := by
      rw [hcut.hiddenLines_eq hr, hhidden,
        Text.lineBreakCount_append (r.delimiter.seamless_around_append kept inside rest),
        Text.lineBreakCount_append (r.delimiter.seamless_around inside rest)]
    rw [htext, Text.lineBreakCount_inline_between hinline hne, hiddenTotal_cons]
    omega

/-- A rendering, in plain text or in colour, has as many line ends fewer than the script as the
regions that it replaces hide. -/
theorem rendering_removes_hidden_lines (source : String) (options : AnalysisOptions)
    (palette : Palette) :
    ∃ a, analyze source options = .ok a ∧ ∃ out replaced,
      render palette source a.folds = .ok out ∧ IsOutermost a.folds replaced ∧
        CollapsesTo (Fold.shown palette) 0 replaced source.toList out.toList ∧
        lineBreakCount out.toList + hiddenTotal replaced = lineBreakCount source.toList := by
  have hregions := orderedRegions_folds source options
  have houtermost := hregions.isOutermost
  obtain ⟨out, hout, hcollapses⟩ := render_collapsesTo palette source options
  refine ⟨_, analyze_eq_ok source options, out, _, hout, houtermost, hcollapses, ?_⟩
  refine hcollapses.lineBreakCount_add (List.nil_append source.toList).symm rfl ?_ ?_ ?_
  · intro r hr
    exact exists_cuts_of_mem_folds (houtermost.sublist.subset hr)
  · intro r hr
    exact hregions.liesIn r (houtermost.sublist.subset hr)
  · intro r hr rest
    exact (isLabelled_of_mem_folds (houtermost.sublist.subset hr)).isInline_shown palette rest

end ElvishOutline

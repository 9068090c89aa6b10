import ElvishOutline.Proofs.Cursors
import ElvishOutline.Proofs.RegionForm

/-!
# Reported lines and the reported number of lines

An analysis numbers lines by all line ends of a script, but it reports as their number that of the
line feeds, and one more for a text behind the last of them. A script whose lines end in line feeds,
alone or behind a carriage return, has the same lines either way. In others a reported line may lie
behind the reported number of lines.

`lt_lineFeedCount_iff` says when: the lines ahead that end without a line feed make up for the lines
that are counted from that line on.
-/

namespace ElvishOutline

namespace Text

/-- The number of lines ahead of a line, counted from zero, that end without a line feed. -/
def feedlessBefore (text : List Char) (line : Nat) : Nat :=
  ((lines text).take line).countP fun l => l.getLast? ≠ some '\n'

/-- A line holds one line feed if it ends in one, and none otherwise. -/
theorem count_of_mem_lines {text line : List Char} (h : line ∈ lines text) :
    line.count '\n' = if line.getLast? = some '\n' then 1 else 0 := by
  fun_induction lines text generalizing line with
  | case1 =>
    obtain rfl := List.mem_singleton.mp h
    rfl
  | case2 cs ih =>
    rcases List.mem_cons.mp h with rfl | hlater
    · rfl
    · exact ih hlater
  | case3 c cs hcrlf hbreak ih =>
    rcases List.mem_cons.mp h with rfl | hlater
    · simp [List.count_singleton]
    · exact ih hlater
  | case4 c cs hcrlf hbreak ih =>
    have hc : c ≠ '\n' := by
      rintro rfl
      exact hbreak rfl
    cases hlines : lines cs with
    | nil => exact absurd hlines (lines_ne_nil cs)
    | cons first rest =>
      rw [hlines] at h ih
      rcases List.mem_cons.mp h with rfl | hlater
      · rw [List.count_cons_of_ne hc, ih List.mem_cons_self, List.getLast?_cons]
        cases first.getLast? with
        | none => simp [hc]
        | some last => simp
      · exact ih (List.mem_cons_of_mem first hlater)

/-- Lines end in a line feed or without one. -/
theorem count_flatten_lines {text : List Char} {ls : List (List Char)} (h : ls ⊆ lines text) :
    ls.flatten.count '\n' + ls.countP (fun l => l.getLast? ≠ some '\n') = ls.length := by
  induction ls with
  | nil => rfl
  | cons line ls ih =>
    obtain ⟨hline, hls⟩ := List.cons_subset.mp h
    rw [List.flatten_cons, List.count_append, count_of_mem_lines hline, List.countP_cons,
      List.length_cons, ← ih hls]
    by_cases hfeed : line.getLast? = some '\n'
    · simp only [hfeed, ne_eq, not_true_eq_false, decide_false, Bool.false_eq_true, if_true,
        if_false]
      omega
    · simp only [hfeed, ne_eq, not_false_eq_true, decide_true, if_true, if_false]
      omega

/-- The counted lines of a text are the line feeds ahead of a cut and the counted lines behind it. -/
theorem lineFeedCount_append_of_ne_nil (xs : List Char) {ys : List Char} (h : ys ≠ []) :
    lineFeedCount (xs ++ ys) = xs.count '\n' + lineFeedCount ys := by
  rw [lineFeedCount, lineFeedCount, List.count_append, List.getLast?_append_of_ne_nil xs h,
    Nat.add_assoc]

/-- A line is among the counted ones exactly if fewer lines ahead of it end without a line feed than
lines are counted from it on. -/
theorem lt_lineFeedCount_iff {text : List Char} {line : Nat}
    (h : ((lines text).drop line).flatten ≠ []) :
    line < lineFeedCount text ↔
      feedlessBefore text line < lineFeedCount ((lines text).drop line).flatten := by
  have hline : line < (lines text).length := by
    by_contra hpast
    rw [List.drop_eq_nil_of_le (Nat.le_of_not_lt hpast)] at h
    exact h rfl
  have hsplit := count_flatten_lines (List.take_subset line (lines text))
  have htext := lineFeedCount_append_of_ne_nil ((lines text).take line).flatten h
  rw [← List.flatten_append, List.take_append_drop, flatten_lines] at htext
  rw [List.length_take, Nat.min_eq_left (Nat.le_of_lt hline)] at hsplit
  rw [htext, feedlessBefore]
  omega

/-- A text that is not empty has counted lines. -/
theorem lineFeedCount_pos {text : List Char} (h : text ≠ []) : 0 < lineFeedCount text := by
  have hlast := List.getLast?_eq_some_getLast h
  rw [lineFeedCount, hlast, Option.all_some]
  by_cases hfeed : text.getLast h = '\n'
  · have hmem : '\n' ∈ text := hfeed ▸ List.getLast_mem h
    exact Nat.add_pos_left (List.count_pos_iff.mpr hmem) _
  · simp [hfeed]

/-- No more lines are counted than there are: the last line has no line feed. -/
theorem lineFeedCount_le_length_lines (text : List Char) :
    lineFeedCount text ≤ (lines text).length := by
  have hlast := List.getLast?_eq_some_getLast (lines_ne_nil text)
  have hfeedless : 0 < (lines text).countP fun l => l.getLast? ≠ some '\n' :=
    List.countP_pos_iff.mpr ⟨_, List.getLast_mem (lines_ne_nil text),
      by simpa using getLast?_ne_of_getLast?_lines hlast⟩
  have hsplit := count_flatten_lines (List.Subset.refl (lines text))
  rw [flatten_lines] at hsplit
  rw [lineFeedCount]
  split <;> omega

/-- Behind the start of a line that starts ahead of the end of the text there is some text. -/
theorem flatten_drop_lines_ne_nil {text : List Char} {line : Nat}
    (h : lineStart text line < byteLength text) : ((lines text).drop line).flatten ≠ [] := by
  intro hnil
  have hlength := congrArg byteLength (flatten_lines text)
  rw [← List.take_append_drop line (lines text), List.flatten_append, hnil, List.append_nil,
    ← lineStart] at hlength
  omega

/-- The line of an offset ahead of the end is among the counted ones unless too many lines ahead of it
end without a line feed. -/
theorem lineAt_lt_lineFeedCount_iff {text : List Char} {offset : Nat}
    (h : offset < byteLength text) :
    lineAt text offset < lineFeedCount text ↔
      feedlessBefore text (lineAt text offset) <
        lineFeedCount ((lines text).drop (lineAt text offset)).flatten :=
  lt_lineFeedCount_iff (flatten_drop_lines_ne_nil
    (Nat.lt_of_le_of_lt (lineStart_lineAt_le text offset) h))

/-- If only the last line ends without a line feed, the line of an offset ahead of the end is among the
counted ones. -/
theorem lineAt_lt_lineFeedCount {text : List Char} {offset : Nat} (h : offset < byteLength text)
    (hfeeds : ∀ line ∈ (lines text).dropLast, line.getLast? = some '\n') :
    lineAt text offset < lineFeedCount text := by
  rw [lineAt_lt_lineFeedCount_iff h]
  have hnone : feedlessBefore text (lineAt text offset) = 0 := by
    rw [feedlessBefore, List.countP_eq_zero]
    intro line hline
    have hahead : (lines text).take (lineAt text offset) <+: (lines text).dropLast := by
      rw [List.dropLast_eq_take, length_lines, Nat.add_sub_cancel]
      exact List.take_prefix_take_left (lineAt_le text offset)
    simpa using hfeeds line (hahead.subset hline)
  rw [hnone]
  exact lineFeedCount_pos (flatten_drop_lines_ne_nil
    (Nat.lt_of_le_of_lt (lineStart_lineAt_le text offset) h))

/-- Later offsets are on the same line or on a later one. -/
theorem lineAt_mono (text : List Char) {start stop : Nat} (h : start ≤ stop) :
    lineAt text start ≤ lineAt text stop := by
  rw [lineAt_eq_add_countP text h]
  omega

end Text

open Text (Seamless byteLength feedlessBefore lineAt lineBreakCount lineFeedCount lines)

/-- A region ends on the line of its closing delimiter. -/
theorem Fold.Cuts.lineAt_pred_stop {f : Fold} {text before inside after : List Char}
    (h : f.Cuts text before inside after) : lineAt text (f.stop - 1) = lineAt text f.stop := by
  have hclosing : f.delimiter.closingChar ≠ '\n' ∧ f.delimiter.closingChar ≠ '\r' ∧
      lineBreakCount [f.delimiter.closingChar] = 0 := by
    cases f.delimiter <;> decide
  have hbefore : Seamless (before ++ f.delimiter.openingChar :: inside)
      ([f.delimiter.closingChar] ++ after) := .of_head? rfl hclosing.1
  have hafter : Seamless [f.delimiter.closingChar] after := .of_getLast? rfl hclosing.2.1
  have hlines := Text.lineAt_between hbefore hafter
  have htext : (before ++ f.delimiter.openingChar :: inside) ++
      ([f.delimiter.closingChar] ++ after) = text := by
    rw [h.text_eq, FoldDelimiter.around]
    simp
  have hstop : byteLength (before ++ f.delimiter.openingChar :: inside) +
      byteLength [f.delimiter.closingChar] = f.stop := by
    rw [h.stop_eq, ← Text.byteLength_append, ← Text.byteLength_append, FoldDelimiter.around]
    simp
  have hsize : byteLength [f.delimiter.closingChar] = 1 := f.delimiter.utf8Size_closingChar
  rw [htext, hstop, hclosing.2.2, Nat.add_zero] at hlines
  rw [hlines]
  congr 1
  omega

section LastBytes

variable {source : String} {options : AnalysisOptions}

/-- The last line of an outline entry is that of a byte of the script. -/
theorem exists_lineAt_of_mem_outline {e : OutlineEntry}
    (he : e ∈ (analysisOf source (tokenize source) options).outline) :
    1 ≤ e.startLine ∧ e.startLine ≤ e.endLine ∧
      ∃ offset < byteLength source.toList, e.endLine = lineAt source.toList offset + 1 := by
  obtain ⟨l, hl, rfl⟩ := List.mem_map.mp he
  obtain ⟨hpos, hinside, -⟩ := bounds_of_mem_landmarks hl
  have hmono := Text.lineAt_mono source.toList (Nat.le_max_right (l.stop - 1) l.start)
  exact ⟨Nat.le_add_left _ _, Nat.add_le_add_right hmono 1, _, by omega, rfl⟩

/-- The last line of a region is that of a byte of the script, its closing delimiter. -/
theorem exists_lineAt_of_mem_folds {f : Fold}
    (hf : f ∈ (analysisOf source (tokenize source) options).folds) :
    f.startLine < f.endLine ∧
      ∃ offset < byteLength source.toList, f.endLine = lineAt source.toList offset := by
  obtain ⟨before, inside, after, hcuts⟩ := exists_cuts_of_mem_folds hf
  have hlies := (orderedRegions_folds source options).liesIn f hf
  have hstop := Text.le_byteLength_of_isBoundary hlies.isBoundary_stop
  have hpos := hlies.start_lt_stop
  exact ⟨(isLabelled_of_mem_folds hf).startLine_lt_endLine, f.stop - 1, by omega,
    by rw [hlies.endLine_eq, hcuts.lineAt_pred_stop]⟩

end LastBytes

/-- Lines of a script are numbered within the number of its lines, and no more lines are reported than
there are. The last line of an entry or a region is within the reported number of lines exactly if
fewer lines ahead of it end without a line feed than lines are counted from it on. So all of them are
where only the last line ends without a line feed. -/
theorem reported_lines_within_count (source : String) (options : AnalysisOptions) :
    ∃ a, analyze source options = .ok a ∧ a.totalLines ≤ (lines source.toList).length ∧
      (∀ e ∈ a.outline, 1 ≤ e.startLine ∧ e.startLine ≤ e.endLine ∧
        e.endLine ≤ (lines source.toList).length ∧
        (e.endLine ≤ a.totalLines ↔ feedlessBefore source.toList (e.endLine - 1) <
          lineFeedCount ((lines source.toList).drop (e.endLine - 1)).flatten)) ∧
      (∀ f ∈ a.folds, f.startLine < f.endLine ∧ f.endLine < (lines source.toList).length ∧
        (f.endLine < a.totalLines ↔ feedlessBefore source.toList f.endLine <
          lineFeedCount ((lines source.toList).drop f.endLine).flatten)) ∧
      ((∀ line ∈ (lines source.toList).dropLast, line.getLast? = some '\n') →
        (∀ e ∈ a.outline, e.endLine ≤ a.totalLines) ∧ ∀ f ∈ a.folds, f.endLine < a.totalLines) := by
  refine ⟨_, analyze_eq_ok source options, Text.lineFeedCount_le_length_lines _, ?_⟩
  have hlines (offset : Nat) : lineAt source.toList offset < (lines source.toList).length := by
    rw [Text.length_lines]
    exact Nat.lt_succ_of_le (Text.lineAt_le _ _)
  refine ⟨?_, ?_, ?_⟩
  · intro e he
    obtain ⟨hfirst, horder, offset, hoffset, hlast⟩ := exists_lineAt_of_mem_outline he
    refine ⟨hfirst, horder, ?_⟩
    rw [hlast, Nat.add_sub_cancel]
    exact ⟨hlines offset, Text.lineAt_lt_lineFeedCount_iff hoffset⟩
  · intro f hf
    obtain ⟨horder, offset, hoffset, hlast⟩ := exists_lineAt_of_mem_folds hf
    refine ⟨horder, ?_⟩
    rw [hlast]
    exact ⟨hlines offset, Text.lineAt_lt_lineFeedCount_iff hoffset⟩
  · intro hfeeds
    constructor
    · intro e he
      obtain ⟨-, -, offset, hoffset, hlast⟩ := exists_lineAt_of_mem_outline he
      rw [hlast]
      exact Text.lineAt_lt_lineFeedCount hoffset hfeeds
    · intro f hf
      obtain ⟨-, offset, hoffset, hlast⟩ := exists_lineAt_of_mem_folds hf
      rw [hlast]
      exact Text.lineAt_lt_lineFeedCount hoffset hfeeds

/-- A carriage return ends a line but is not counted: both the function and its block end behind the
reported number of lines. -/
theorem reported_lines_of_carriage_return :
    ∃ a, analyze "fn f \x7b\r\x7d" {} = .ok a ∧ a.totalLines = 1 ∧
      (∃ e ∈ a.outline, e.startLine = 1 ∧ e.endLine = 2) ∧
      ∃ f ∈ a.folds, f.startLine = 0 ∧ f.endLine = 1 := by
  refine ⟨_, analyze_eq_ok _ _, ?_, ?_, ?_⟩ <;> decide +kernel

/-- The same function over lines that end in line feeds, the first one behind a carriage return. -/
theorem reported_lines_of_line_feeds :
    ∃ a, analyze "fn f \x7b\r\n\x7d\n" {} = .ok a ∧ a.outline ≠ [] ∧ a.folds ≠ [] ∧
      (∀ line ∈ (lines "fn f \x7b\r\n\x7d\n".toList).dropLast, line.getLast? = some '\n') ∧
      (∀ e ∈ a.outline, e.endLine ≤ a.totalLines) ∧ ∀ f ∈ a.folds, f.endLine < a.totalLines := by
  obtain ⟨a, ha, -, -, -, hfeeds⟩ := reported_lines_within_count "fn f \x7b\r\n\x7d\n" {}
  have hlines : ∀ line ∈ (lines "fn f \x7b\r\n\x7d\n".toList).dropLast,
      line.getLast? = some '\n' := by decide +kernel
  have hsome : a.outline ≠ [] ∧ a.folds ≠ [] := by
    rw [analyze_eq_ok] at ha
    obtain rfl := Except.ok.inj ha
    decide +kernel
  exact ⟨a, ha, hsome.1, hsome.2, hlines, hfeeds hlines⟩

end ElvishOutline

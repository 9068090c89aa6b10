import ElvishOutline.Proofs.Collapsing
import ElvishOutline.Proofs.Trails

/-!
# Cursors and the landmarks around them

Lines lead from offsets to cursors and back: an offset has a line, and a line has an offset at which
it starts. `lineStart_le_iff` ties the two together: a line starts at or before an offset exactly if
the offset is on that line or on a later one. With it, the line of an offset and the characters
ahead of the offset on that line give the offset back.

A landmark is shown with its first and its last line. A cursor at the start of any later one of its
lines is inside the bytes of the landmark, as is the cursor of its first byte, so all of them lead
to that landmark. The last line is that of the last byte, which keeps a line end at the close of a
statement from adding a line that starts behind the statement.
-/

namespace ElvishOutline

namespace Text

/-- The offset at which a line starts, lines being counted from zero. -/
def lineStart (text : List Char) (line : Nat) : Nat := byteLength ((lines text).take line).flatten

/-- The number of characters from the start of a line to an offset. -/
def columnOn (text : List Char) (line offset : Nat) : Nat :=
  (slice (lineStart text line) offset text).length

/-- No line ends ahead of the first one. -/
theorem le_of_mem_breakEnds {start offset : Nat} {ls : List (List Char)}
    (h : offset ∈ breakEnds start ls) : start ≤ offset := by
  fun_induction breakEnds start ls with
  | case1 => cases h
  | case2 => cases h
  | case3 start line rest _ ih =>
    rcases List.mem_cons.mp h with rfl | hlater
    · omega
    · have := ih hlater
      omega

/-- A line that is not the first starts where a line ends. So it starts at or before an offset if at
least as many lines end by that offset. -/
theorem le_countP_breakEnds_iff {start offset line : Nat} {ls : List (List Char)}
    (hline : line < ls.length) (hstart : start ≤ offset) :
    line ≤ (breakEnds start ls).countP (· ≤ offset) ↔
      start + byteLength (ls.take line).flatten ≤ offset := by
  fun_induction breakEnds start ls generalizing line with
  | case1 => cases hline
  | case2 start last =>
    obtain rfl : line = 0 := by simpa using hline
    simpa using hstart
  | case3 start first rest _ ih =>
    cases line with
    | zero => simpa using hstart
    | succ line =>
      have hrest : line < rest.length := by simpa using hline
      rw [List.take_succ_cons, List.flatten_cons, byteLength_append, ← Nat.add_assoc]
      by_cases hfirst : start + byteLength first ≤ offset
      · rw [List.countP_cons_of_pos (by simpa using hfirst), Nat.add_le_add_iff_right,
          ih hrest hfirst]
      · -- The first line ends behind the offset, and so do all later ones.
        have hnone : (breakEnds (start + byteLength first) rest).countP (· ≤ offset) = 0 := by
          rw [List.countP_eq_zero]
          intro e he
          have := le_of_mem_breakEnds he
          simp only [decide_eq_true_eq]
          omega
        rw [List.countP_cons_of_neg (by simpa using hfirst), hnone]
        omega

/-- Every line but the last has an end. -/
theorem length_breakEnds (start : Nat) (ls : List (List Char)) :
    (breakEnds start ls).length = ls.length - 1 := by
  fun_induction breakEnds start ls with
  | case1 => rfl
  | case2 => rfl
  | case3 start line rest hrest ih =>
    have := List.length_pos_iff.mpr hrest
    simp only [List.length_cons, ih]
    omega

/-- A text has one line more than line ends. -/
theorem length_lines (text : List Char) : (lines text).length = lineBreakCount text + 1 := by
  have hpos := List.length_pos_iff.mpr (lines_ne_nil text)
  have hends := length_breakEnds 0 (lines text)
  rw [breakEnds_lines, length_lineEnds] at hends
  omega

/-- A line starts at or before an offset exactly if the offset is on that line or on a later one. -/
theorem lineStart_le_iff {text : List Char} {line offset : Nat} (h : line ≤ lineBreakCount text) :
    lineStart text line ≤ offset ↔ line ≤ lineAt text offset := by
  have hline : line < (lines text).length := by rw [length_lines]; omega
  rw [lineAt, ← breakEnds_lines, le_countP_breakEnds_iff hline (Nat.zero_le offset), Nat.zero_add,
    lineStart]

/-- The line of an offset starts at or before it. -/
theorem lineStart_lineAt_le (text : List Char) (offset : Nat) :
    lineStart text (lineAt text offset) ≤ offset :=
  (lineStart_le_iff (lineAt_le text offset)).mpr (Nat.le_refl _)

/-- What stands behind the start of a line is that line and the later ones. -/
theorem dropBytes_lineStart (text : List Char) (line : Nat) :
    dropBytes (lineStart text line) text = ((lines text).drop line).flatten := by
  have hcut := dropBytes_append ((lines text).take line).flatten ((lines text).drop line).flatten
  rwa [← List.flatten_append, List.take_append_drop, flatten_lines] at hcut

/-- Lines start between characters. -/
theorem isBoundary_lineStart (text : List Char) (line : Nat) :
    isBoundary (lineStart text line) text = true := by
  have hcut :=
    isBoundary_byteLength ((lines text).take line).flatten ((lines text).drop line).flatten
  rwa [← List.flatten_append, List.take_append_drop, flatten_lines] at hcut

/-- The next line starts where a line ends. -/
theorem lineStart_succ {text current : List Char} {line : Nat} {later : List (List Char)}
    (h : (lines text).drop line = current :: later) :
    lineStart text (line + 1) = lineStart text line + byteLength current := by
  have hcurrent : (lines text)[line]? = some current := by
    rw [← List.head?_drop, h, List.head?_cons]
  rw [lineStart, List.take_add_one, hcurrent, Option.toList_some, List.flatten_append,
    byteLength_append, List.flatten_singleton, lineStart]

/-- The last line does not end in a line feed. -/
theorem getLast?_ne_of_getLast?_lines {text current : List Char}
    (h : (lines text).getLast? = some current) : current.getLast? ≠ some '\n' := by
  fun_induction lines text generalizing current with
  | case1 =>
    obtain rfl : [] = current := by simpa using h
    simp
  | case2 cs ih =>
    rw [List.getLast?_cons_of_ne_nil (lines_ne_nil cs)] at h
    exact ih h
  | case3 c cs hcrlf hbreak ih =>
    rw [List.getLast?_cons_of_ne_nil (lines_ne_nil cs)] at h
    exact ih h
  | case4 c cs hcrlf hbreak ih =>
    -- The character joins the first line, which is the last one if there is no other.
    rcases hlines : lines cs with _ | ⟨first, _ | ⟨second, rest⟩⟩
    · exact absurd hlines (lines_ne_nil cs)
    · rw [hlines] at h ih
      obtain rfl : c :: first = current := by simpa [consLine] using h
      have hfirst : first.getLast? ≠ some '\n' := ih rfl
      rw [List.getLast?_cons]
      cases hlast : first.getLast? with
      | none =>
        rintro hfeed
        obtain rfl : c = '\n' := by simpa using hfeed
        exact hbreak rfl
      | some d =>
        rw [hlast] at hfirst
        simpa using hfirst
    · rw [hlines] at h ih
      exact ih (by simpa [consLine] using h)

/-- What is written on a line ahead of some of its characters is not lost with its line feed. -/
theorem prefix_content {before after : List Char} (h : after ≠ []) :
    before <+: LineTable.content (before ++ after) := by
  rw [LineTable.content]
  split
  · rw [List.dropLast_append_of_ne_nil h]
    exact List.prefix_append _ _
  · exact List.prefix_append _ _

/-- What stands ahead of an offset on its line is a part of that line without its line feed. -/
theorem slice_prefix_content {text current : List Char} {offset : Nat} {later : List (List Char)}
    (hoffset : isBoundary offset text = true)
    (hline : (lines text).drop (lineAt text offset) = current :: later) :
    slice (lineStart text (lineAt text offset)) offset text <+: LineTable.content current := by
  have hle := lineStart_lineAt_le text offset
  have hstart := isBoundary_lineStart text (lineAt text offset)
  have hlength := add_byteLength_slice hstart hoffset hle
  have hrest := slice_append_dropBytes hstart hle
  rw [dropBytes_lineStart, hline, List.flatten_cons] at hrest
  have hnext := lineStart_succ hline
  have hcount := congrArg List.length hline
  rw [List.length_drop, length_lines, List.length_cons] at hcount
  generalize slice (lineStart text (lineAt text offset)) offset text = ahead at hlength hrest ⊢
  cases later with
  | nil =>
    -- The last line has no line feed to lose.
    have hlast : (lines text).getLast? = some current := by
      rw [← List.take_append_drop (lineAt text offset) (lines text), hline,
        List.getLast?_append_of_ne_nil _ (List.cons_ne_nil _ _), List.getLast?_singleton]
    rw [LineTable.content, if_neg (getLast?_ne_of_getLast?_lines hlast)]
    rw [List.flatten_nil, List.append_nil] at hrest
    exact ⟨_, hrest⟩
  | cons next later =>
    rw [List.length_cons] at hcount
    have hbehind : ¬lineStart text (lineAt text offset + 1) ≤ offset := by
      rw [lineStart_le_iff (by omega)]
      omega
    rcases List.append_eq_append_iff.mp hrest with ⟨after, hcurrent, -⟩ | ⟨excess, hahead, -⟩
    · rw [hcurrent]
      apply prefix_content
      intro hnil
      rw [hcurrent, hnil, List.append_nil] at hnext
      omega
    · rw [hahead, byteLength_append] at hlength
      omega

/-- A cursor on a line of a text is behind the start of the line by the characters that its column
takes in. -/
theorem offsetOf_eq {text current : List Char} {line : Nat} {later : List (List Char)}
    (hline : (lines text).drop line = current :: later) (column : Nat) :
    (LineTable.ofText text).offsetOf (line + 1) column =
      lineStart text line + byteLength ((LineTable.content current).take column) := by
  simp only [LineTable.offsetOf, LineTable.ofText, Nat.add_sub_cancel, hline, lineStart]

/-- A cursor on the line of an offset, behind the characters ahead of the offset on that line, is at the
offset. -/
theorem offsetOf_columnOn {text : List Char} {offset : Nat} (h : isBoundary offset text = true) :
    (LineTable.ofText text).offsetOf (lineAt text offset + 1)
      (columnOn text (lineAt text offset) offset) = offset := by
  have hlines : lineAt text offset < (lines text).length := by
    have := lineAt_le text offset
    rw [length_lines]
    omega
  have hline := List.drop_eq_getElem_cons hlines
  have hahead := List.prefix_iff_eq_take.mp (slice_prefix_content h hline)
  have hlength := add_byteLength_slice (isBoundary_lineStart text (lineAt text offset)) h
    (lineStart_lineAt_le text offset)
  rw [offsetOf_eq hline, columnOn, ← hahead, hlength]

/-- A cursor at the start of a line is at the offset where the line starts. -/
theorem offsetOf_zero {text : List Char} {line : Nat} (h : line ≤ lineBreakCount text) :
    (LineTable.ofText text).offsetOf (line + 1) 0 = lineStart text line := by
  have hline : line < (lines text).length := by rw [length_lines]; omega
  rw [offsetOf_eq (List.drop_eq_getElem_cons hline), List.take_zero, byteLength_nil, Nat.add_zero]

end Text

open Text (byteLength columnOn isBoundary lineAt lineBreakCount lineStart)

/-- Tokens that tile a script stand in order. -/
theorem Tiles.inOrder {start : Nat} {tokens : List Token} (h : Tiles start tokens) :
    InOrder tokens := by
  refine List.pairwise_iff_getElem.mpr ?_
  intro i j hi hj hij
  exact h.stop_le_start hij (List.getElem?_eq_getElem hi) (List.getElem?_eq_getElem hj)

/-- A token of a script starts between two of its characters. -/
theorem isBoundary_start_of_mem_tokenize {source : String} {t : Token} (ht : t ∈ tokenize source) :
    isBoundary t.start source.toList = true := by
  obtain ⟨before, after, hsplit⟩ := List.append_of_mem ht
  have htiles := tiles_tokenize source
  have htext := spelling_tokenize source
  rw [hsplit] at htiles htext
  rw [htiles.start_stop.1, Nat.zero_add, ← htext, spelling_append]
  exact Text.isBoundary_byteLength _ _

/-- A statement with a body covers the bytes of its first token, up to those of its last. -/
theorem Statement.lt_of_span? {s : Statement} {start stop : Nat} (horder : InOrder s.body)
    (hpos : ∀ t ∈ s.body, 0 < t.length) (h : s.span? = some (start, stop)) : start < stop := by
  obtain ⟨first, hfirst, rfl, hstop⟩ := exists_stop_le_of_span? horder h
  have hfirstPos := hpos first hfirst
  rw [Token.stop] at hstop
  omega

/-- A landmark of a script has at least one byte and starts between two characters. -/
theorem bounds_of_mem_landmarks {source : String} {l : Landmark}
    (hl : l ∈ landmarks (segment (tokenize source))) :
    l.start < l.stop ∧ l.stop ≤ byteLength source.toList ∧
      isBoundary l.start source.toList = true := by
  obtain ⟨s, hs, hlandmark⟩ := mem_landmarks.mp hl
  have hbody {t : Token} (ht : t ∈ s.body) : t ∈ tokenize source :=
    mem_of_mem_segment hs (List.mem_append_right _ ht)
  obtain ⟨first, hfirst, last, hlast, hstart, hstop⟩ := Statement.exists_of_landmark? hlandmark
  refine ⟨?_, ?_, ?_⟩
  · exact Statement.lt_of_span? ((tiles_tokenize source).inOrder.body hs)
      (fun t ht => ((tiles_tokenize source).length_eq (hbody ht)).2)
      (Statement.span?_of_landmark? hlandmark)
  · rw [hstop, Text.byteLength_toList]
    exact stop_le_of_mem_tokenize (hbody hlast)
  · rw [hstart]
    exact isBoundary_start_of_mem_tokenize (hbody hfirst)

/-- The trail of an offset inside the bytes of a landmark is that landmark. -/
theorem trail_of_mem_landmarks {tokens : List Token} (horder : InOrder tokens) {l : Landmark}
    (hl : l ∈ landmarks (segment tokens)) {offset : Nat} (hstart : l.start ≤ offset)
    (hstop : offset < l.stop) : (Breadcrumb.atOffset (segment tokens) offset).trail = [l] := by
  obtain ⟨s, hs, hlandmark⟩ := mem_landmarks.mp hl
  have hcovers : s.Covers offset :=
    ⟨l.start, l.stop, Statement.span?_of_landmark? hlandmark, hstart, hstop⟩
  rw [Breadcrumb.atOffset, statementAt?_of_covers horder hs hcovers, Option.bind_some, hlandmark,
    Option.toList_some]

/-- For every script, the cursors at the starts of the lines that an outline entry reaches into lead to
its landmark and to nothing else, and so does the cursor on its first line, behind as many characters
as stand there ahead of the landmark. -/
theorem cursor_on_outline_lines (source : String) (options : AnalysisOptions) :
    ∃ a, analyze source options = .ok a ∧ ∀ e ∈ a.outline,
      (∀ line, e.startLine < line → line ≤ e.endLine →
        (Breadcrumb.atCursor source line 0).trail = [e.landmark]) ∧
      (Breadcrumb.atCursor source e.startLine
        (columnOn source.toList (e.startLine - 1) e.landmark.start)).trail = [e.landmark] := by
  refine ⟨_, analyze_eq_ok source options, ?_⟩
  intro e he
  obtain ⟨l, hl, rfl⟩ := List.mem_map.mp he
  obtain ⟨hpos, -, hboundary⟩ := bounds_of_mem_landmarks hl
  have horder := (tiles_tokenize source).inOrder
  simp only [landmarkEntry, Breadcrumb.atCursor, Nat.add_sub_cancel]
  constructor
  · intro line hstart hstop
    obtain ⟨line, rfl⟩ : ∃ k, line = k + 1 := ⟨line - 1, by omega⟩
    have hlast : max (l.stop - 1) l.start = l.stop - 1 := by omega
    rw [hlast] at hstop
    have hcount : line ≤ lineBreakCount source.toList := by
      have := Text.lineAt_le source.toList (l.stop - 1)
      omega
    -- The line starts behind the first byte of the landmark and at or before its last.
    have hbehind : ¬lineStart source.toList line ≤ l.start := by
      rw [Text.lineStart_le_iff hcount]
      omega
    have hinside : lineStart source.toList line ≤ l.stop - 1 := by
      rw [Text.lineStart_le_iff hcount]
      omega
    rw [Text.offsetOf_zero hcount]
    exact trail_of_mem_landmarks horder hl (by omega) (by omega)
  · rw [Text.offsetOf_columnOn hboundary]
    exact trail_of_mem_landmarks horder hl (Nat.le_refl _) hpos

/-- A function behind a wide character on its line, with one line that ends in two characters and one
without a line end of its own. -/
theorem cursor_on_lines_of_wide_function :
    ∃ a e, analyze "λ; fn f \x7b\r\n é\n\x7d" {} = .ok a ∧ e ∈ a.outline ∧
      e.startLine = 1 ∧ e.endLine = 3 ∧ e.landmark.start = 4 ∧
      (Breadcrumb.atCursor "λ; fn f \x7b\r\n é\n\x7d" 1 3).trail = [e.landmark] ∧
      (Breadcrumb.atCursor "λ; fn f \x7b\r\n é\n\x7d" 2 0).trail = [e.landmark] ∧
      (Breadcrumb.atCursor "λ; fn f \x7b\r\n é\n\x7d" 3 0).trail = [e.landmark] := by
  obtain ⟨a, ha, hcursors⟩ := cursor_on_outline_lines "λ; fn f \x7b\r\n é\n\x7d" {}
  have hentry : ∃ e ∈ a.outline, e.startLine = 1 ∧ e.endLine = 3 ∧ e.landmark.start = 4 := by
    rw [analyze_eq_ok] at ha
    obtain rfl := Except.ok.inj ha
    decide +kernel
  obtain ⟨e, he, hfirst, hlast, hstart⟩ := hentry
  obtain ⟨hlater, hcolumn⟩ := hcursors e he
  have hthree : columnOn "λ; fn f \x7b\r\n é\n\x7d".toList 0 4 = 3 := by decide +kernel
  rw [hfirst, hstart, Nat.sub_self, hthree] at hcolumn
  exact ⟨a, e, ha, he, hfirst, hlast, hstart, hcolumn, hlater 2 (by omega) (by omega),
    hlater 3 (by omega) (by omega)⟩

end ElvishOutline

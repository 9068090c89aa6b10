import ElvishOutline.Proofs.Cursors

/-!
# Offsets of cursors

An offset between two characters has a cursor: its line, and the number of characters ahead of it on
that line. That cursor leads back to the offset, also between a carriage return and its line feed and
at the end of the text, so asking at the cursor and asking at the offset give the same breadcrumb.

A cursor need not come from an offset: its column may count more characters than its line has. Then
only a line feed is kept out of reach. On a line that ends in another character the column passes
that character too, and the cursor leads to the start of the next line. `lineAt_offsetOf` says on
which line a cursor is, from the characters of its line and the column alone.
-/

namespace ElvishOutline

namespace Text

/-- The valid positions of a string are the places between its characters. -/
theorem isValid_iff_isBoundary {s : String} {offset : Nat} :
    (⟨offset⟩ : String.Pos.Raw).IsValid s ↔ isBoundary offset s.toList = true := by
  constructor
  · intro h
    obtain ⟨front, back, rfl, hoffset⟩ := String.Pos.Raw.isValid_iff_exists_append.mp h
    have hlength : offset = byteLength front.toList := by
      rw [byteLength_toList]
      exact congrArg String.Pos.Raw.byteIdx hoffset
    rw [String.toList_append, hlength]
    exact isBoundary_byteLength _ _
  · intro h
    have hlength : byteLength (takeBytes offset s.toList) = offset := of_decide_eq_true h
    have hvalid := isValid_byteLength (takeBytes_append_dropBytes offset s.toList).symm
    rwa [hlength] at hvalid

/-- Behind some of the characters that follow a boundary there is a boundary again. -/
theorem isBoundary_add {text xs ys : List Char} {start : Nat} (hstart : isBoundary start text = true)
    (h : dropBytes start text = xs ++ ys) : isBoundary (start + byteLength xs) text = true := by
  have hlength : byteLength (takeBytes start text) = start := of_decide_eq_true hstart
  have htext := takeBytes_append_dropBytes start text
  rw [h, ← List.append_assoc] at htext
  have hcut := isBoundary_byteLength (takeBytes start text ++ xs) ys
  rwa [htext, byteLength_append, hlength] at hcut

/-- A part at the start of a text that measures as much as the text is the whole of it. -/
theorem eq_of_prefix_of_byteLength_le {xs ys : List Char} (h : xs <+: ys)
    (hlength : byteLength ys ≤ byteLength xs) : xs = ys := by
  obtain ⟨rest, rfl⟩ := h
  cases rest with
  | nil => exact (List.append_nil xs).symm
  | cons c rest =>
    have := c.utf8Size_pos
    rw [byteLength_append, byteLength_cons] at hlength
    omega

/-- Every line but the last ends in a character that ends lines. -/
theorem exists_isLineBreak_of_mem_dropLast {text line : List Char} (h : line ∈ (lines text).dropLast) :
    ∃ c, line.getLast? = some c ∧ isLineBreak c = true := by
  fun_induction lines text generalizing line with
  | case1 => cases h
  | case2 cs ih =>
    rw [List.dropLast_cons_of_ne_nil (lines_ne_nil cs)] at h
    rcases List.mem_cons.mp h with rfl | hlater
    · exact ⟨'\n', rfl, rfl⟩
    · exact ih hlater
  | case3 c cs hcrlf hbreak ih =>
    rw [List.dropLast_cons_of_ne_nil (lines_ne_nil cs)] at h
    rcases List.mem_cons.mp h with rfl | hlater
    · exact ⟨c, rfl, hbreak⟩
    · exact ih hlater
  | case4 c cs hcrlf hbreak ih =>
    rcases hlines : lines cs with _ | ⟨first, _ | ⟨second, rest⟩⟩
    · exact absurd hlines (lines_ne_nil cs)
    · rw [hlines] at h
      cases h
    · rw [hlines] at h ih
      rcases List.mem_cons.mp h with rfl | hlater
      · obtain ⟨last, hlast, hlastBreak⟩ := ih List.mem_cons_self
        exact ⟨last, by rw [List.getLast?_cons, hlast]; rfl, hlastBreak⟩
      · exact ih (List.mem_cons_of_mem first hlater)

/-- A line that is not the last has a byte. -/
theorem byteLength_pos_of_drop_lines {text current next : List Char} {line : Nat}
    {later : List (List Char)} (h : (lines text).drop line = current :: next :: later) :
    0 < byteLength current := by
  have hmem : current ∈ (lines text).dropLast := by
    rw [← List.take_append_drop line (lines text), h,
      List.dropLast_append_of_ne_nil (List.cons_ne_nil _ _)]
    exact List.mem_append_right _ List.mem_cons_self
  obtain ⟨c, hlast, -⟩ := exists_isLineBreak_of_mem_dropLast hmem
  cases current with
  | nil => cases hlast
  | cons d rest =>
    have := d.utf8Size_pos
    rw [byteLength_cons]
    omega

/-- The start of a line is on that line. -/
theorem lineAt_lineStart {text : List Char} {line : Nat} (h : line ≤ lineBreakCount text) :
    lineAt text (lineStart text line) = line := by
  apply Nat.le_antisymm
  · by_contra hbehind
    have hcount := lineAt_le text (lineStart text line)
    have hnext : lineStart text (line + 1) ≤ lineStart text line :=
      (lineStart_le_iff (by omega)).mpr (by omega)
    -- The next line would start no later, but this one has a byte.
    have hline : line < (lines text).length := by rw [length_lines]; omega
    have hnextLine : line + 1 < (lines text).length := by rw [length_lines]; omega
    have hdrop := List.drop_eq_getElem_cons hline
    rw [List.drop_eq_getElem_cons hnextLine] at hdrop
    have hpos := byteLength_pos_of_drop_lines hdrop
    rw [lineStart_succ hdrop] at hnext
    omega
  · exact (lineStart_le_iff h).mp (Nat.le_refl _)

/-- What a column takes in of a line stands at the start of the line. -/
theorem take_content_isPrefix (line : List Char) (column : Nat) :
    (LineTable.content line).take column <+: line := by
  rw [LineTable.content]
  split
  · rw [List.dropLast_eq_take, List.take_take]
    exact List.take_prefix _ line
  · exact List.take_prefix column line

/-- A column takes in a whole line exactly if it counts all characters of the line and the last of
them is no line feed. -/
theorem take_content_eq_iff {line : List Char} {column : Nat} :
    (LineTable.content line).take column = line ↔
      line.length ≤ column ∧ line.getLast? ≠ some '\n' := by
  rw [LineTable.content]
  split
  · next hfeed =>
    have hpos : 0 < line.length := List.length_pos_iff.mpr (by rintro rfl; cases hfeed)
    constructor
    · intro h
      have := congrArg List.length h
      rw [List.length_take, List.length_dropLast] at this
      omega
    · intro h
      exact absurd hfeed h.2
  · next hfeed =>
    constructor
    · intro h
      have := congrArg List.length h
      rw [List.length_take] at this
      exact ⟨by omega, hfeed⟩
    · intro h
      exact List.take_of_length_le h.1

section Columns

variable {text current : List Char} {line : Nat} {later : List (List Char)}

/-- A cursor is between two characters. -/
theorem isBoundary_offsetOf (hline : (lines text).drop line = current :: later) (column : Nat) :
    isBoundary ((LineTable.ofText text).offsetOf (line + 1) column) text = true := by
  obtain ⟨rest, hrest⟩ := take_content_isPrefix current column
  have hafter : dropBytes (lineStart text line) text =
      (LineTable.content current).take column ++ (rest ++ later.flatten) := by
    rw [dropBytes_lineStart, hline, List.flatten_cons, ← List.append_assoc, hrest]
  rw [offsetOf_eq hline]
  exact isBoundary_add (isBoundary_lineStart text line) hafter

/-- A column that counts all characters of a line without a line feed leads to the start of the next
line. -/
theorem offsetOf_eq_lineStart_succ (hline : (lines text).drop line = current :: later) {column : Nat}
    (hcolumn : current.length ≤ column) (hfeed : current.getLast? ≠ some '\n') :
    (LineTable.ofText text).offsetOf (line + 1) column = lineStart text (line + 1) := by
  rw [offsetOf_eq hline, take_content_eq_iff.mpr ⟨hcolumn, hfeed⟩, lineStart_succ hline]

/-- A cursor is on its line if its column counts fewer characters than the line has, if the line ends
in a line feed and if it is the last line. -/
theorem lineAt_offsetOf (hline : (lines text).drop line = current :: later) {column : Nat}
    (h : column < current.length ∨ current.getLast? = some '\n' ∨ later = []) :
    lineAt text ((LineTable.ofText text).offsetOf (line + 1) column) = line := by
  have hcount := congrArg List.length hline
  rw [List.length_drop, length_lines, List.length_cons] at hcount
  rw [offsetOf_eq hline]
  apply Nat.le_antisymm
  · by_contra hbehind
    -- The next line starts at or before the cursor, so the column takes in the whole line.
    have hle := lineAt_le text
      (lineStart text line + byteLength ((LineTable.content current).take column))
    have hnext := (lineStart_le_iff (by omega)).mpr (Nat.lt_of_not_le hbehind)
    rw [lineStart_succ hline, Nat.add_le_add_iff_left] at hnext
    have hwhole := eq_of_prefix_of_byteLength_le (take_content_isPrefix current column) hnext
    obtain ⟨hcolumn, hfeed⟩ := take_content_eq_iff.mp hwhole
    rcases h with hshort | hends | rfl
    · omega
    · exact hfeed hends
    · rw [List.length_nil] at hcount
      omega
  · exact (lineStart_le_iff (by omega)).mp (Nat.le_add_right _ _)

end Columns

end Text

open Text (LineTable columnOn lineBreakCount lines)

/-- For every place between two characters of a script, the cursor on its line behind the characters
ahead of it leads back to it, and has the breadcrumb of the place. -/
theorem cursor_leads_back {source : String} {offset : Nat}
    (h : (⟨offset⟩ : String.Pos.Raw).IsValid source) :
    ∃ line, (LineTable.ofText source.toList).lineOf? offset = some line ∧
      (LineTable.ofText source.toList).offsetOf (line + 1) (columnOn source.toList line offset) =
        offset ∧
      Breadcrumb.atCursor source (line + 1) (columnOn source.toList line offset) =
        { Breadcrumb.atOffset (segment (tokenize source)) offset with
          line := some (line + 1), column := some (columnOn source.toList line offset) } := by
  have hboundary := Text.isValid_iff_isBoundary.mp h
  have hback := Text.offsetOf_columnOn hboundary
  refine ⟨_, Text.lineOf?_ofText (Text.le_byteLength_of_isBoundary hboundary), hback, ?_⟩
  rw [Breadcrumb.atCursor, hback]

/-- Between the two characters of a line end, behind a function with a wide name. -/
theorem cursor_leads_back_into_line_end :
    (⟨8⟩ : String.Pos.Raw).IsValid "fn λ \x7b\r\n\x7d" ∧
      (LineTable.ofText "fn λ \x7b\r\n\x7d".toList).lineOf? 8 = some 0 ∧
      (LineTable.ofText "fn λ \x7b\r\n\x7d".toList).offsetOf 1 7 = 8 ∧
      (Breadcrumb.atCursor "fn λ \x7b\r\n\x7d" 1 7).trail =
        (Breadcrumb.atOffset (segment (tokenize "fn λ \x7b\r\n\x7d")) 8).trail := by
  have hvalid : (⟨8⟩ : String.Pos.Raw).IsValid "fn λ \x7b\r\n\x7d" :=
    Text.isValid_iff_isBoundary.mpr (by decide +kernel)
  have hcolumn : columnOn "fn λ \x7b\r\n\x7d".toList 0 8 = 7 := by decide +kernel
  obtain ⟨line, hline, hback, hcrumb⟩ := cursor_leads_back hvalid
  have hzero : (LineTable.ofText "fn λ \x7b\r\n\x7d".toList).lineOf? 8 = some 0 := by
    decide +kernel
  obtain rfl := Option.some.inj (hline.symm.trans hzero)
  rw [hcolumn] at hback hcrumb
  exact ⟨hvalid, hline, hback, by rw [hcrumb]⟩

/-- A cursor on a line of a script is between two of its characters. It is on that line exactly if its
column counts fewer characters than the line has, or the line ends in a line feed, or it is the last
one. Otherwise it is at the start of the next line. -/
theorem cursor_on_its_line_iff {source : String} {line : Nat} {current : List Char}
    (hline : (lines source.toList)[line]? = some current) (column : Nat) :
    ∃ offset, (LineTable.ofText source.toList).offsetOf (line + 1) column = offset ∧
      (⟨offset⟩ : String.Pos.Raw).IsValid source ∧ offset ≤ source.utf8ByteSize ∧
      ((LineTable.ofText source.toList).lineOf? offset = some line ↔
        column < current.length ∨ current.getLast? = some '\n' ∨
          line + 1 = (lines source.toList).length) ∧
      ((LineTable.ofText source.toList).lineOf? offset ≠ some line →
        (LineTable.ofText source.toList).lineOf? offset = some (line + 1) ∧
          (LineTable.ofText source.toList).offsetOf (line + 2) 0 = offset) := by
  obtain ⟨hlt, rfl⟩ := List.getElem?_eq_some_iff.mp hline
  have hdrop := List.drop_eq_getElem_cons hlt
  have hboundary := Text.isBoundary_offsetOf hdrop column
  have hinside := Text.le_byteLength_of_isBoundary hboundary
  have hlast : (lines source.toList).drop (line + 1) = [] ↔ line + 1 = (lines source.toList).length := by
    rw [List.drop_eq_nil_iff]
    omega
  refine ⟨_, rfl, Text.isValid_iff_isBoundary.mpr hboundary, ?_, ?_⟩
  · rwa [← Text.byteLength_toList]
  rw [Text.lineOf?_ofText hinside, ← hlast]
  by_cases hstays : column < (lines source.toList)[line].length ∨
      (lines source.toList)[line].getLast? = some '\n' ∨ (lines source.toList).drop (line + 1) = []
  · rw [Text.lineAt_offsetOf hdrop hstays]
    exact ⟨iff_of_true rfl hstays, fun h => absurd rfl h⟩
  · -- The column stops behind a line end that is no line feed, and there the next line starts.
    have hpasses := hstays
    rw [not_or, not_or, hlast, Text.length_lines] at hpasses
    obtain ⟨hcolumn, hfeed, hmore⟩ := hpasses
    rw [Text.length_lines] at hlt
    have hcount : line + 1 ≤ lineBreakCount source.toList := by omega
    rw [Text.offsetOf_eq_lineStart_succ hdrop (Nat.le_of_not_lt hcolumn) hfeed,
      Text.lineAt_lineStart hcount]
    refine ⟨iff_of_false ?_ hstays, fun _ => ⟨rfl, Text.offsetOf_zero hcount⟩⟩
    rw [Option.some.injEq]
    omega

/-- A column far behind a line end of two characters stays on its line; one behind a lone carriage
return does not. -/
theorem cursor_on_its_line_at_returns :
    (lines "a\r\nλ\rb".toList)[0]? = some ['a', '\r', '\n'] ∧
      (lines "a\r\nλ\rb".toList)[1]? = some ['λ', '\r'] ∧
      (LineTable.ofText "a\r\nλ\rb".toList).lineOf?
        ((LineTable.ofText "a\r\nλ\rb".toList).offsetOf 1 9) = some 0 ∧
      (LineTable.ofText "a\r\nλ\rb".toList).lineOf?
        ((LineTable.ofText "a\r\nλ\rb".toList).offsetOf 2 9) = some 2 := by
  have hfirst : (lines "a\r\nλ\rb".toList)[0]? = some ['a', '\r', '\n'] := by decide +kernel
  have hsecond : (lines "a\r\nλ\rb".toList)[1]? = some ['λ', '\r'] := by decide +kernel
  obtain ⟨-, rfl, -, -, hstays, -⟩ := cursor_on_its_line_iff hfirst 9
  obtain ⟨-, rfl, -, -, hpasses, hnext⟩ := cursor_on_its_line_iff hsecond 9
  refine ⟨hfirst, hsecond, hstays.mpr (by decide +kernel), (hnext ?_).1⟩
  rw [ne_eq, hpasses]
  decide +kernel

/-- A line of one carriage return ahead of a function: any column but the first leads to the function,
which is on the next line. -/
theorem cursor_past_carriage_return :
    (LineTable.ofText "\rfn f \x7b \x7d".toList).offsetOf 1 5 = 1 ∧
      (LineTable.ofText "\rfn f \x7b \x7d".toList).lineOf? 0 = some 0 ∧
      (LineTable.ofText "\rfn f \x7b \x7d".toList).lineOf? 1 = some 1 ∧
      (Breadcrumb.atCursor "\rfn f \x7b \x7d" 1 5).path = "fn f" := by
  decide +kernel

end ElvishOutline

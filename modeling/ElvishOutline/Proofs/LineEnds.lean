import ElvishOutline.Text.Lines

/-!
# Line ends of texts put together

The line of an offset is the number of line ends up to it. `lineEnds` lists the offsets at which
line ends stop, `lineBreakCount` counts them; both read the text once, and a line table holds the
same list.

Line ends of two texts add up when the texts are put together, unless a carriage return ends the
one and a line feed starts the other: the two would then make one line end. From this follow the
lines of offsets in either part, and the number of line ends between two offsets.
-/

namespace ElvishOutline.Text

/-- The number of line ends in a text. -/
def lineBreakCount : List Char → Nat
  | [] => 0
  | '\r' :: '\n' :: cs => lineBreakCount cs + 1
  | c :: cs => if isLineBreak c then lineBreakCount cs + 1 else lineBreakCount cs

/-- The offsets at which the line ends of a text stop, for a text that starts at `start`. -/
def lineEnds (start : Nat) : List Char → List Nat
  | [] => []
  | '\r' :: '\n' :: cs => (start + 2) :: lineEnds (start + 2) cs
  | c :: cs =>
    if isLineBreak c then (start + c.utf8Size) :: lineEnds (start + c.utf8Size) cs
    else lineEnds (start + c.utf8Size) cs

/-- Texts that may be put together without making one line end out of two. -/
def Seamless (xs ys : List Char) : Prop := xs.getLast? = some '\r' → ys.head? ≠ some '\n'

/-- What ends in another character than a carriage return may stand ahead of any text. -/
theorem Seamless.of_getLast? {xs ys : List Char} {c : Char} (hlast : xs.getLast? = some c)
    (hc : c ≠ '\r') : Seamless xs ys := by
  intro hreturn
  exact absurd (Option.some.inj (hlast.symm.trans hreturn)) hc

/-- What starts with another character than a line feed may stand behind any text. -/
theorem Seamless.of_head? {xs ys : List Char} {c : Char} (hhead : ys.head? = some c)
    (hc : c ≠ '\n') : Seamless xs ys := by
  intro _ hfeed
  exact hc (Option.some.inj (hhead.symm.trans hfeed))

/-- The rest of the first text fits the second as the whole does. -/
theorem Seamless.of_cons {c : Char} {xs ys : List Char} (h : Seamless (c :: xs) ys) :
    Seamless xs ys := by
  intro hlast
  exact h (by rw [List.getLast?_cons, hlast]; rfl)

/-- A character that makes no line end with the next one makes none with what is put behind. -/
theorem Seamless.singleton_append {c : Char} {cs ys : List Char}
    (hcrlf : ∀ ds, c = '\r' → cs = '\n' :: ds → False) (h : Seamless (c :: cs) ys) :
    Seamless [c] (cs ++ ys) := by
  cases cs with
  | nil => exact h
  | cons d ds =>
    intro hc hd
    exact hcrlf ds (by simpa using hc) (by simpa using hd)

/-- A carriage return and a line feed are two bytes. -/
theorem byteLength_crlf (cs : List Char) : byteLength ('\r' :: '\n' :: cs) = 2 + byteLength cs := by
  have hpair : '\r'.utf8Size + '\n'.utf8Size = 2 := by decide
  rw [byteLength_cons, byteLength_cons, ← Nat.add_assoc, hpair]

/-- A character that makes no line end with the next one is counted by itself. -/
theorem lineEnds_cons (start : Nat) {c : Char} {cs : List Char} (h : Seamless [c] cs) :
    lineEnds start (c :: cs) =
      if isLineBreak c then (start + c.utf8Size) :: lineEnds (start + c.utf8Size) cs
      else lineEnds (start + c.utf8Size) cs := by
  rw [lineEnds]
  rintro ds rfl rfl
  exact h rfl rfl

/-- There is one offset for each line end. -/
theorem length_lineEnds (start : Nat) (text : List Char) :
    (lineEnds start text).length = lineBreakCount text := by
  fun_induction lineEnds start text with
  | case1 => rfl
  | case2 start cs ih => rw [List.length_cons, ih, lineBreakCount]
  | case3 start c cs hcrlf hbreak ih =>
    rw [List.length_cons, ih, lineBreakCount, if_pos hbreak]
    exact hcrlf
  | case4 start c cs hcrlf hbreak ih =>
    rw [ih, lineBreakCount, if_neg hbreak]
    exact hcrlf

/-- Every line end of a text stops after its start and not past its end. -/
theorem mem_lineEnds {start offset : Nat} {text : List Char} (h : offset ∈ lineEnds start text) :
    start < offset ∧ offset ≤ start + byteLength text := by
  fun_induction lineEnds start text with
  | case1 => simp at h
  | case2 start cs ih =>
    rw [byteLength_crlf]
    rcases List.mem_cons.mp h with rfl | h
    · omega
    · have := ih h
      omega
  | case3 start c cs _ _ ih =>
    have hsize := c.utf8Size_pos
    simp only [byteLength_cons]
    rcases List.mem_cons.mp h with rfl | h
    · omega
    · have := ih h
      omega
  | case4 start c cs _ _ ih =>
    have := ih h
    simp only [byteLength_cons]
    omega

/-- The line ends of two texts put together are those of both. -/
theorem lineEnds_append (start : Nat) {xs ys : List Char} (h : Seamless xs ys) :
    lineEnds start (xs ++ ys) = lineEnds start xs ++ lineEnds (start + byteLength xs) ys := by
  fun_induction lineEnds start xs with
  | case1 => simp
  | case2 start cs ih =>
    simp only [List.cons_append, lineEnds]
    rw [ih h.of_cons.of_cons, byteLength_crlf, Nat.add_assoc]
  | case3 start c cs hcrlf hbreak ih =>
    rw [List.cons_append, lineEnds_cons start (h.singleton_append hcrlf), if_pos hbreak,
      ih h.of_cons, List.cons_append, byteLength_cons, Nat.add_assoc]
  | case4 start c cs hcrlf hbreak ih =>
    rw [List.cons_append, lineEnds_cons start (h.singleton_append hcrlf), if_neg hbreak,
      ih h.of_cons, byteLength_cons, Nat.add_assoc]

/-- The line ends of texts add up where none is split. -/
theorem lineBreakCount_append {xs ys : List Char} (h : Seamless xs ys) :
    lineBreakCount (xs ++ ys) = lineBreakCount xs + lineBreakCount ys := by
  rw [← length_lineEnds 0, lineEnds_append 0 h, List.length_append, length_lineEnds,
    length_lineEnds]

/-- Moving a text moves its line ends. -/
theorem lineEnds_add (shift start : Nat) (text : List Char) :
    lineEnds (shift + start) text = (lineEnds start text).map (shift + ·) := by
  fun_induction lineEnds start text with
  | case1 => rfl
  | case2 start cs ih => rw [lineEnds, Nat.add_assoc, ih, List.map_cons]
  | case3 start c cs hcrlf hbreak ih =>
    rw [lineEnds, if_pos hbreak, Nat.add_assoc, ih, List.map_cons]
    exact hcrlf
  | case4 start c cs hcrlf hbreak ih =>
    rw [lineEnds, if_neg hbreak, Nat.add_assoc, ih]
    exact hcrlf

/-- The line, counted from zero, of an offset of a text. -/
def lineAt (text : List Char) (offset : Nat) : Nat := (lineEnds 0 text).countP (· ≤ offset)

/-- No line end stops at the start of a text. -/
@[simp] theorem lineAt_zero (text : List Char) : lineAt text 0 = 0 := by
  rw [lineAt, List.countP_eq_zero]
  intro offset hoffset
  have := (mem_lineEnds hoffset).1
  simp only [decide_eq_true_eq]
  omega

/-- All line ends of a text stop by its end. -/
@[simp] theorem lineAt_byteLength (text : List Char) :
    lineAt text (byteLength text) = lineBreakCount text := by
  rw [← length_lineEnds 0, lineAt, List.countP_eq_length]
  intro offset hoffset
  have := (mem_lineEnds hoffset).2
  simp only [decide_eq_true_eq]
  omega

/-- No offset has more line ends ahead of it than the text has. -/
theorem lineAt_le (text : List Char) (offset : Nat) : lineAt text offset ≤ lineBreakCount text := by
  rw [← length_lineEnds 0]
  exact List.countP_le_length

/-- Two offsets are as many lines apart as line ends stop behind the one and not behind the other. -/
theorem lineAt_eq_add_countP (text : List Char) {start stop : Nat} (h : start ≤ stop) :
    lineAt text stop =
      lineAt text start + (lineEnds 0 text).countP fun e => start < e && e ≤ stop := by
  rw [lineAt, lineAt]
  induction lineEnds 0 text with
  | nil => rfl
  | cons e ends ih =>
    simp only [List.countP_cons, ih, Bool.and_eq_true, decide_eq_true_eq]
    by_cases hstart : e ≤ start
    · rw [if_pos (by omega), if_pos hstart, if_neg (by omega)]
      omega
    · by_cases hstop : e ≤ stop
      · rw [if_pos hstop, if_neg hstart, if_pos (by omega)]
        omega
      · rw [if_neg hstop, if_neg hstart, if_neg (by omega)]
        omega

/-- What follows a text does not move its lines. -/
theorem lineAt_append_left {xs ys : List Char} (h : Seamless xs ys) {offset : Nat}
    (hoffset : offset ≤ byteLength xs) : lineAt (xs ++ ys) offset = lineAt xs offset := by
  have hlater : (lineEnds (0 + byteLength xs) ys).countP (· ≤ offset) = 0 := by
    rw [List.countP_eq_zero]
    intro e he
    have := (mem_lineEnds he).1
    simp only [decide_eq_true_eq]
    omega
  rw [lineAt, lineEnds_append 0 h, List.countP_append, hlater, Nat.add_zero, lineAt]

/-- The line of an offset behind a text counts all line ends of that text. -/
theorem lineAt_append_right {xs ys : List Char} (h : Seamless xs ys) (offset : Nat) :
    lineAt (xs ++ ys) (byteLength xs + offset) = lineBreakCount xs + lineAt ys offset := by
  have hearlier : (lineEnds 0 xs).countP (· ≤ byteLength xs + offset) = lineBreakCount xs := by
    rw [← length_lineEnds 0, List.countP_eq_length]
    intro e he
    have := (mem_lineEnds he).2
    simp only [decide_eq_true_eq]
    omega
  have hlater : (lineEnds (0 + byteLength xs) ys).countP (· ≤ byteLength xs + offset) =
      lineAt ys offset := by
    rw [Nat.zero_add, ← Nat.add_zero (byteLength xs), lineEnds_add, List.countP_map, lineAt]
    congr 1
    funext e
    simp
  rw [lineAt, lineEnds_append 0 h, List.countP_append, hearlier, hlater]

/-- Two offsets are as many lines apart as there are line ends in the text between them. -/
theorem lineAt_between {xs ys zs : List Char} (hbefore : Seamless xs (ys ++ zs))
    (hafter : Seamless ys zs) :
    lineAt (xs ++ (ys ++ zs)) (byteLength xs + byteLength ys) =
      lineAt (xs ++ (ys ++ zs)) (byteLength xs) + lineBreakCount ys := by
  have hstart := lineAt_append_right hbefore 0
  rw [Nat.add_zero, lineAt_zero, Nat.add_zero] at hstart
  rw [lineAt_append_right hbefore, lineAt_append_left hafter (Nat.le_refl _), lineAt_byteLength,
    hstart]

/-- The offsets of a line table are the line ends of its text. -/
theorem breakEnds_lines (start : Nat) (text : List Char) :
    breakEnds start (lines text) = lineEnds start text := by
  fun_induction lineEnds start text with
  | case1 => rfl
  | case2 start cs ih =>
    rw [lines, breakEnds, byteLength_crlf, byteLength_nil, ih]
    exact lines_ne_nil cs
  | case3 start c cs hcrlf hbreak ih =>
    rw [lines, if_pos hbreak, breakEnds]
    · simp only [byteLength_cons, byteLength_nil, Nat.add_zero, ih]
    · exact lines_ne_nil cs
    · exact hcrlf
  | case4 start c cs hcrlf hbreak ih =>
    rw [lines, if_neg hbreak, ← ih]
    · rcases hlines : lines cs with _ | ⟨line, _ | ⟨second, rest⟩⟩
      · exact absurd hlines (lines_ne_nil cs)
      · rfl
      · simp only [consLine, breakEnds, byteLength_cons, Nat.add_assoc]
    · exact hcrlf

/-- A line table gives every offset of its text a line. -/
theorem lineOf?_ofText {text : List Char} {offset : Nat} (h : offset ≤ byteLength text) :
    (LineTable.ofText text).lineOf? offset = some (lineAt text offset) := by
  simp [LineTable.lineOf?, LineTable.ofText, h, breakEnds_lines, lineAt]

/-- A cut at the end of a text in front leaves the other text. -/
@[simp] theorem dropBytes_append (xs ys : List Char) : dropBytes (byteLength xs) (xs ++ ys) = ys := by
  induction xs with
  | nil =>
    cases ys with
    | nil => rfl
    | cons y ys =>
      have := y.utf8Size_pos
      simp only [List.nil_append, byteLength_nil, dropBytes, if_neg (show ¬y.utf8Size ≤ 0 by omega)]
  | cons x xs ih => simp [dropBytes, ih]

/-- A cut at the end of a text in front takes that text. -/
@[simp] theorem takeBytes_append (xs ys : List Char) : takeBytes (byteLength xs) (xs ++ ys) = xs := by
  have hcut := takeBytes_append_dropBytes (byteLength xs) (xs ++ ys)
  rw [dropBytes_append] at hcut
  exact List.append_cancel_right hcut

/-- A cut behind a text in front cuts the other text. -/
theorem dropBytes_add (xs ys : List Char) (n : Nat) :
    dropBytes (byteLength xs + n) (xs ++ ys) = dropBytes n ys := by
  induction xs with
  | nil => rw [byteLength_nil, Nat.zero_add, List.nil_append]
  | cons x xs ih =>
    rw [byteLength_cons, List.cons_append, dropBytes, if_pos (by omega), ← ih]
    congr 1
    omega

/-- A cut behind a text in front takes this text and what it takes of the other. -/
theorem takeBytes_add (xs ys : List Char) (n : Nat) :
    takeBytes (byteLength xs + n) (xs ++ ys) = xs ++ takeBytes n ys := by
  have hcut := takeBytes_append_dropBytes (byteLength xs + n) (xs ++ ys)
  rw [dropBytes_add] at hcut
  refine List.append_cancel_right (hcut.trans ?_)
  rw [List.append_assoc, takeBytes_append_dropBytes]

/-- Two cuts give the text between them. -/
theorem slice_between (xs ys zs : List Char) :
    slice (byteLength xs) (byteLength xs + byteLength ys) (xs ++ (ys ++ zs)) = ys := by
  rw [slice, dropBytes_append, Nat.add_sub_cancel_left, takeBytes_append]

/-- The end of a text in front is a boundary between characters. -/
theorem isBoundary_byteLength (xs ys : List Char) : isBoundary (byteLength xs) (xs ++ ys) = true := by
  simp [isBoundary]

/-- What follows a boundary is the text up to a later cut and what follows that. -/
theorem slice_append_dropBytes {start stop : Nat} {text : List Char}
    (hstart : isBoundary start text = true) (h : start ≤ stop) :
    slice start stop text ++ dropBytes stop text = dropBytes start text := by
  have hlength : byteLength (takeBytes start text) = start := of_decide_eq_true hstart
  have hdrop := dropBytes_add (takeBytes start text) (dropBytes start text) (stop - start)
  rw [hlength, takeBytes_append_dropBytes, Nat.add_sub_cancel' h] at hdrop
  rw [hdrop, slice, takeBytes_append_dropBytes]

/-- The text between two boundaries measures their distance. -/
theorem add_byteLength_slice {start stop : Nat} {text : List Char}
    (hstart : isBoundary start text = true) (hstop : isBoundary stop text = true)
    (h : start ≤ stop) : start + byteLength (slice start stop text) = stop := by
  have hlength : byteLength (takeBytes start text) = start := of_decide_eq_true hstart
  have hstopLength : byteLength (takeBytes stop text) = stop := of_decide_eq_true hstop
  have htake := takeBytes_add (takeBytes start text) (dropBytes start text) (stop - start)
  rw [hlength, takeBytes_append_dropBytes, Nat.add_sub_cancel' h] at htake
  rw [htake, byteLength_append, hlength] at hstopLength
  exact hstopLength

end ElvishOutline.Text

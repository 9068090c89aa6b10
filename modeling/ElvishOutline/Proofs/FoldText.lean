import ElvishOutline.Proofs.FoldPairs
import ElvishOutline.Proofs.Lookahead

/-!
# The text of a region

The tokens of a script tile it, so the text from one token to another is what the tokens between
them spell. Delimiters are single characters that are no part of a line end, and the lines of the
two ends of a region differ by the line ends of its text.

With this the regions of a script are described by its text and its tokens alone.
-/

namespace ElvishOutline

open Text (byteLength lineAt lineBreakCount slice Seamless)

namespace FoldDelimiter

/-- The character that opens the pair. -/
def openingChar : FoldDelimiter → Char
  | brace => '\x7b'
  | bracket => '['

/-- The character that closes the pair. -/
def closingChar : FoldDelimiter → Char
  | brace => '\x7d'
  | bracket => ']'

/-- A text with the pair around it. -/
def around (d : FoldDelimiter) (inside : List Char) : List Char :=
  d.openingChar :: (inside ++ [d.closingChar])

/-- A text between delimiters ends with the closing one. -/
@[simp] theorem getLast?_around (d : FoldDelimiter) (inside : List Char) :
    (d.around inside).getLast? = some d.closingChar := by
  rw [around, ← List.cons_append, List.getLast?_append]
  rfl

/-- Opening delimiters are characters of one byte. -/
@[simp] theorem utf8Size_openingChar (d : FoldDelimiter) : d.openingChar.utf8Size = 1 := by
  cases d <;> rfl

/-- Closing delimiters are characters of one byte. -/
@[simp] theorem utf8Size_closingChar (d : FoldDelimiter) : d.closingChar.utf8Size = 1 := by
  cases d <;> rfl

/-- Delimiters are single bytes. -/
theorem byteLength_around (d : FoldDelimiter) (inside : List Char) :
    byteLength (d.around inside) = byteLength inside + 2 := by
  rw [around, Text.byteLength_cons, Text.byteLength_append, Text.byteLength_cons,
    Text.byteLength_nil, utf8Size_openingChar, utf8Size_closingChar]
  omega

/-- No line end is split ahead of an opening delimiter. -/
theorem seamless_around_append (d : FoldDelimiter) (before inside after : List Char) :
    Seamless before (d.around inside ++ after) :=
  .of_head? (c := d.openingChar) rfl (by cases d <;> decide)

/-- No line end is split behind a closing delimiter. -/
theorem seamless_around (d : FoldDelimiter) (inside after : List Char) :
    Seamless (d.around inside) after :=
  .of_getLast? (d.getLast?_around inside) (by cases d <;> decide)

end FoldDelimiter

/-- The text of a script from the start of one token to the end of another. -/
def textBetween (source : String) (opener closer : Token) : List Char :=
  slice opener.start closer.stop source.toList

/-- Two tokens at different positions cut a list into three parts. -/
theorem exists_split_of_getElem? {all : List Token} {i j : Nat} {opener closer : Token}
    (hij : i < j) (hi : all[i]? = some opener) (hj : all[j]? = some closer) :
    ∃ before inside after, all = before ++ (opener :: (inside ++ [closer]) ++ after) := by
  have hsplit {l : List Token} {k : Nat} {t : Token} (hk : l[k]? = some t) :
      l = l.take k ++ t :: l.drop (k + 1) := by
    obtain ⟨hlt, rfl⟩ := List.getElem?_eq_some_iff.mp hk
    rw [← List.drop_eq_getElem_cons hlt, List.take_append_drop]
  have hbehind : (all.drop (i + 1))[j - (i + 1)]? = some closer := by
    rw [List.getElem?_drop, ← hj]
    congr 1
    omega
  refine ⟨all.take i, (all.drop (i + 1)).take (j - (i + 1)),
    (all.drop (i + 1)).drop (j - (i + 1) + 1), ?_⟩
  conv_lhs => rw [hsplit hi, hsplit hbehind]
  simp

/-- A delimiter is one character, which stands for it. -/
theorem text_of_delimiter {source : String} {t : Token} (ht : t ∈ tokenize source)
    {pair : Delimiter} (hkind : t.kind = .opening pair ∨ t.kind = .closing pair) :
    ∃ c, t.text.toList = [c] ∧ Lexer.punctuation? c = some t.kind := by
  have hstructural : Lexer.isStructural t.kind = true := by
    rcases hkind with hkind | hkind <;> rw [hkind] <;> rfl
  obtain ⟨c, htext, ⟨-, hnewline⟩ | hpunctuation⟩ := Lexer.text_of_isStructural ht hstructural
  · rcases hkind with hkind | hkind <;> rw [hkind] at hnewline <;> cases hnewline
  · exact ⟨c, by rw [htext, String.toList_ofList], hpunctuation⟩

/-- Only the opening character of a pair is read as its opening token, and only the closing one as
its closing token. -/
theorem Lexer.eq_of_punctuation? {c : Char} {d : FoldDelimiter} :
    (punctuation? c = some (.opening d.toDelimiter) → c = d.openingChar) ∧
      (punctuation? c = some (.closing d.toDelimiter) → c = d.closingChar) := by
  unfold punctuation?
  split <;> cases d <;> simp [FoldDelimiter.toDelimiter, FoldDelimiter.openingChar,
    FoldDelimiter.closingChar]

/-- The text of a token that opens or closes a pair is the character of that side. -/
theorem text_of_foldDelimiter {source : String} {t : Token} (ht : t ∈ tokenize source)
    {d : FoldDelimiter} :
    (t.kind = .opening d.toDelimiter → t.text.toList = [d.openingChar]) ∧
      (t.kind = .closing d.toDelimiter → t.text.toList = [d.closingChar]) := by
  constructor
  · intro hkind
    obtain ⟨c, htext, hpunctuation⟩ := text_of_delimiter ht (.inl hkind)
    rw [htext, Lexer.eq_of_punctuation?.1 (hpunctuation.trans (congrArg some hkind))]
  · intro hkind
    obtain ⟨c, htext, hpunctuation⟩ := text_of_delimiter ht (.inr hkind)
    rw [htext, Lexer.eq_of_punctuation?.2 (hpunctuation.trans (congrArg some hkind))]

/-- Two tokens of a script cut its text into what is spelled ahead of the first, from the first to the
second, and behind the second. -/
theorem exists_spelling_of_getElem? {source : String} {i j : Nat} {opener closer : Token}
    (hij : i < j) (hi : (tokenize source)[i]? = some opener)
    (hj : (tokenize source)[j]? = some closer) :
    ∃ before inside after,
      source.toList = spelling before ++ (spelling (opener :: (inside ++ [closer])) ++ after) ∧
        opener.start = byteLength (spelling before) ∧
        closer.stop = byteLength (spelling before) +
          byteLength (spelling (opener :: (inside ++ [closer]))) := by
  obtain ⟨before, inside, after, hsplit⟩ := exists_split_of_getElem? hij hi hj
  have htext := spelling_tokenize source
  have htiles := tiles_tokenize source
  rw [hsplit] at htext htiles
  refine ⟨before, inside, spelling after, ?_, ?_, ?_⟩
  · rw [← htext, spelling_append, spelling_append]
  · rw [List.cons_append] at htiles
    rw [htiles.start_stop.1, Nat.zero_add]
  · have hcut : before ++ (opener :: (inside ++ [closer]) ++ after) =
        (before ++ opener :: inside) ++ closer :: after := by simp
    rw [hcut] at htiles
    rw [htiles.start_stop.2]
    simp

section Pairs

variable {source : String} {i j : Nat} {opener closer : Token} {d : FoldDelimiter}

/-- A pair of delimiters stands around a part of the text. -/
theorem exists_around_of_pair (hij : i < j) (hi : (tokenize source)[i]? = some opener)
    (hj : (tokenize source)[j]? = some closer) (hopening : opener.kind = .opening d.toDelimiter)
    (hclosing : closer.kind = .closing d.toDelimiter) :
    ∃ before inside after, source.toList = before ++ (d.around inside ++ after) ∧
      opener.start = byteLength before ∧
      closer.stop = byteLength before + byteLength (d.around inside) := by
  have hopenerText := (text_of_foldDelimiter (List.mem_of_getElem? hi)).1 hopening
  have hcloserText := (text_of_foldDelimiter (List.mem_of_getElem? hj)).2 hclosing
  obtain ⟨before, inside, after, htext, hstart, hstop⟩ := exists_spelling_of_getElem? hij hi hj
  have haround : spelling (opener :: (inside ++ [closer])) = d.around (spelling inside) := by
    simp [FoldDelimiter.around, hopenerText, hcloserText]
  rw [haround] at htext hstop
  exact ⟨spelling before, spelling inside, after, htext, hstart, hstop⟩

/-- The lines of the two ends of a pair of delimiters differ by the line ends of the text between. -/
theorem lineAt_stop_of_pair (hij : i < j) (hi : (tokenize source)[i]? = some opener)
    (hj : (tokenize source)[j]? = some closer) (hopening : opener.kind = .opening d.toDelimiter)
    (hclosing : closer.kind = .closing d.toDelimiter) :
    lineAt source.toList closer.stop =
      lineAt source.toList opener.start + lineBreakCount (textBetween source opener closer) := by
  obtain ⟨before, inside, after, htext, hstart, hstop⟩ :=
    exists_around_of_pair hij hi hj hopening hclosing
  rw [textBetween, hstart, hstop, htext, Text.slice_between,
    Text.lineAt_between (d.seamless_around_append before inside after)
      (d.seamless_around inside after)]

end Pairs

/-- A pair of delimiters that a pass with a stack over one of the statements of a script finds, with
a line end in the text between them. -/
def IsMultilinePair (source : String) (q : TokenPair) : Prop :=
  (∃ r ∈ rangesFrom 0 (segment (tokenize source)),
    (q.opener, q.closer) ∈
      stackRun q.delimiter.toDelimiter [] r.start (r.tokens (tokenize source))) ∧
  ∃ opener closer, (tokenize source)[q.opener]? = some opener ∧
    (tokenize source)[q.closer]? = some closer ∧
    0 < lineBreakCount (textBetween source opener closer)

/-- A region from the start of the first token of a pair to the end of the second, with as many lines
between its first and its last as its text has line ends. -/
def IsRegionOf (source : String) (q : TokenPair) (f : Fold) : Prop :=
  ∃ opener closer, (tokenize source)[q.opener]? = some opener ∧
    (tokenize source)[q.closer]? = some closer ∧ f.delimiter = q.delimiter ∧
    f.start = opener.start ∧ f.stop = closer.stop ∧
    f.endLine = f.startLine + lineBreakCount (textBetween source opener closer)

/-- The regions of a script are its pairs of delimiters that hold a line end, one for each, in the
order of the opening tokens, with all options. -/
theorem folds_eq_multiline_pairs (source : String) (options : AnalysisOptions) :
    ∃ a, analyze source options = .ok a ∧ ∃ pairs : List TokenPair,
      pairs.Pairwise (fun q q' => q.opener < q'.opener) ∧
        (∀ q, q ∈ pairs ↔ IsMultilinePair source q) ∧
        List.Forall₂ (IsRegionOf source) pairs a.folds := by
  have hall : (tokenize source).drop 0 = (segment (tokenize source)).flatMap Statement.tokens :=
    (segment_tokens _).symm
  refine ⟨_, analyze_eq_ok source options, (statementPairs 0 (segment (tokenize source))).filter
    (TokenPair.isMultiline (tokenize source) (lineAt source.toList)), ?_, ?_, ?_⟩
  · exact (pairwise_statementPairs 0 _).1.filter _
  · intro q
    rw [List.mem_filter, IsMultilinePair, ← mem_statementPairs hall]
    refine and_congr_right fun hq => ?_
    obtain ⟨hij, opener, closer, hi, hj, hopening, hclosing⟩ := isMatched_of_mem_statementPairs hall hq
    -- The lines of both ends differ by the number of line ends between them.
    have hlines := lineAt_stop_of_pair hij hi hj hopening hclosing
    simp only [TokenPair.isMultiline, hi, hj, hlines, Option.any_some, decide_eq_true_eq]
    constructor
    · intro hbreak
      exact ⟨opener, closer, rfl, rfl, by omega⟩
    · rintro ⟨opener', closer', hopener, hcloser, hbreak⟩
      obtain rfl := Option.some.inj hopener
      obtain rfl := Option.some.inj hcloser
      omega
  · have hspans := forall₂_statementPairs (lineAt source.toList) options hall
    have hpairs := (List.forall₂_and_left _ _).mpr ⟨fun q hq => (List.mem_filter.mp hq).1, hspans⟩
    refine hpairs.imp ?_
    rintro q f ⟨hq, opener, closer, hi, hj, hdelimiter, hstart, hstop, hstartLine, hendLine⟩
    obtain ⟨hij, opener', closer', hi', hj', hopening, hclosing⟩ :=
      isMatched_of_mem_statementPairs hall hq
    obtain rfl := Option.some.inj (hi.symm.trans hi')
    obtain rfl := Option.some.inj (hj.symm.trans hj')
    refine ⟨opener, closer, hi, hj, hdelimiter, hstart, hstop, ?_⟩
    rw [hendLine, hstartLine, lineAt_stop_of_pair hij hi hj hopening hclosing]

end ElvishOutline

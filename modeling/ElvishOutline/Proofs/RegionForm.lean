import ElvishOutline.Proofs.Collapsing

/-!
# The form of regions

A region of a script starts with the opening character of its delimiters, ends with the closing one
and holds a line end between the two. It is named by its delimiters and its start, and the start can
be read off the name, so two regions never share one.

`Fold.Cuts` gives the text of a region together with the text on both sides of it. Where its bytes
lie, what the first and the last of them are, and how many lines it hides all follow from that.
-/

namespace ElvishOutline

open Text (byteLength isBoundary lineAt lineBreakCount utf8)

namespace Text

/-- A text has as many bytes as it measures. -/
theorem length_utf8 (cs : List Char) : (utf8 cs).length = byteLength cs := by
  induction cs with
  | nil => rfl
  | cons c cs ih =>
    rw [byteLength_cons, ← ih, ← String.length_utf8EncodeChar, ← List.length_append]
    rfl

/-- The bytes of a string are those of its characters. -/
theorem data_toByteArray (s : String) : s.toByteArray.data = (utf8 s.toList).toArray := by
  rw [← String.utf8Encode_toList, List.utf8Encode, List.data_toByteArray]
  rfl

/-- A character of one byte is the byte at its offset. -/
theorem getElem?_toByteArray {s : String} {xs ys : List Char} {c : Char}
    (hs : s.toList = xs ++ c :: ys) (hc : c.utf8Size = 1) :
    s.toByteArray.data[byteLength xs]? = some c.toUInt8 := by
  have hbyte : utf8 (c :: ys) = c.toUInt8 :: utf8 ys := by
    rw [utf8, List.flatMap_cons, String.utf8EncodeChar_eq_singleton hc]
    rfl
  rw [data_toByteArray, List.getElem?_toArray, hs, utf8_append, ← length_utf8,
    List.getElem?_append_right (Nat.le_refl _), Nat.sub_self, hbyte]
  rfl

end Text

/-- A region cuts a text into the part ahead of it, the part between its delimiters and the part
behind it. -/
structure Fold.Cuts (f : Fold) (text before inside after : List Char) : Prop where
  text_eq : text = before ++ (f.delimiter.around inside ++ after)
  start_eq : f.start = byteLength before
  stop_eq : f.stop = byteLength before + byteLength (f.delimiter.around inside)

namespace Fold.Cuts

variable {f : Fold} {text before inside after : List Char}

/-- A region starts between two characters. -/
theorem isBoundary_start (h : f.Cuts text before inside after) :
    isBoundary f.start text = true := by
  rw [h.text_eq, h.start_eq]
  exact Text.isBoundary_byteLength _ _

/-- Both ends of a region lie between two characters of the script. -/
theorem isValid {source : String} (h : f.Cuts source.toList before inside after) :
    (⟨f.start⟩ : String.Pos.Raw).IsValid source ∧ (⟨f.stop⟩ : String.Pos.Raw).IsValid source := by
  rw [h.start_eq, h.stop_eq, ← Text.byteLength_append]
  constructor
  · exact Text.isValid_byteLength h.text_eq
  · exact Text.isValid_byteLength (by rw [h.text_eq, List.append_assoc])

/-- A region hides the line ends of its text. -/
theorem hiddenLines_eq (h : f.Cuts text before inside after) (hlies : f.LiesIn text) :
    f.hiddenLines = lineBreakCount (f.delimiter.around inside) := by
  have hlines := Text.lineAt_between (f.delimiter.seamless_around_append before inside after)
    (f.delimiter.seamless_around inside after)
  rw [← h.text_eq, ← h.stop_eq, ← h.start_eq] at hlines
  rw [Fold.hiddenLines, hlies.startLine_eq, hlies.endLine_eq, hlines, Nat.add_sub_cancel_left]

end Fold.Cuts

/-- Every region of a script cuts its text. -/
theorem exists_cuts_of_mem_folds {source : String} {options : AnalysisOptions} {f : Fold}
    (hf : f ∈ (analysisOf source (tokenize source) options).folds) :
    ∃ before inside after, f.Cuts source.toList before inside after := by
  obtain ⟨q, ⟨hij, opener, closer, hi, hj, hopening, hclosing⟩, hspans⟩ :=
    exists_pair_of_mem_folds hf
  obtain ⟨opener', closer', hi', hj', hdelimiter, hstart, hstop, -⟩ := hspans
  obtain rfl := Option.some.inj (hi.symm.trans hi')
  obtain rfl := Option.some.inj (hj.symm.trans hj')
  rw [← hdelimiter] at hopening hclosing
  obtain ⟨before, inside, after, htext, hopenerStart, hcloserStop⟩ :=
    exists_around_of_pair hij hi hj hopening hclosing
  exact ⟨before, inside, after, htext, hstart.trans hopenerStart, hstop.trans hcloserStop⟩

/-- A region starts with the byte of its opening delimiter and ends with that of its closing one. -/
theorem Fold.Cuts.bytes {source : String} {f : Fold} {before inside after : List Char}
    (h : f.Cuts source.toList before inside after) :
    source.toByteArray.data[f.start]? = some f.delimiter.openingChar.toUInt8 ∧
      source.toByteArray.data[f.stop - 1]? = some f.delimiter.closingChar.toUInt8 := by
  constructor
  · rw [h.start_eq]
    exact Text.getElem?_toByteArray h.text_eq f.delimiter.utf8Size_openingChar
  · have htext : source.toList =
        (before ++ f.delimiter.openingChar :: inside) ++ f.delimiter.closingChar :: after := by
      rw [h.text_eq, FoldDelimiter.around]
      simp
    have hlast : f.stop - 1 = byteLength (before ++ f.delimiter.openingChar :: inside) := by
      rw [h.stop_eq, FoldDelimiter.byteLength_around, Text.byteLength_append,
        Text.byteLength_cons, f.delimiter.utf8Size_openingChar]
      omega
    rw [hlast]
    exact Text.getElem?_toByteArray htext f.delimiter.utf8Size_closingChar

/-- What is known of a region without its text: it is on several lines, its group is named by its
delimiters and its start, and only a brace has a context. -/
structure Fold.IsLabelled (options : AnalysisOptions) (f : Fold) : Prop where
  startLine_lt_endLine : f.startLine < f.endLine
  group_eq : f.group = "elvish-" ++ f.delimiter.name ++ "-" ++ toString f.start
  context_isSome : f.context.isSome = true ↔ f.delimiter = .brace
  placeholder_eq : ∃ following, f.placeholder = placeholderOf options f.context following
  collapsed_eq : f.collapsed = false

section Labels

variable {line : Nat → Nat} {options : AnalysisOptions} {f : Fold}

/-- The region of a pair of tokens is labelled, if there is one. -/
theorem isLabelled_of_pairRegion? {pair : FoldDelimiter} {preceding following : List Token}
    {opener closer : Token}
    (h : pairRegion? line options pair preceding opener following closer = some f) :
    f.IsLabelled options := by
  unfold pairRegion? at h
  split at h
  · cases h
  · next hlines =>
    obtain rfl := Option.some.inj h
    refine ⟨Nat.lt_of_not_le hlines, rfl, ?_, ⟨following, rfl⟩, rfl⟩
    cases pair <;> simp [contextOf]

/-- All regions of a statement are labelled. -/
theorem isLabelled_of_mem_regions {preceding ts : List Token}
    (hf : f ∈ regions line options preceding ts) : f.IsLabelled options := by
  induction ts generalizing preceding with
  | nil => cases hf
  | cons t ts ih =>
    rw [regions] at hf
    rcases List.mem_append.mp hf with hhere | hlater
    · obtain ⟨pair, -, hclosed⟩ := Option.bind_eq_some_iff.mp (Option.mem_toList.mp hhere)
      obtain ⟨closer, -, hregion⟩ := Option.bind_eq_some_iff.mp hclosed
      exact isLabelled_of_pairRegion? hregion
    · exact ih hlater

end Labels

/-- All regions of a script are labelled. -/
theorem isLabelled_of_mem_folds {source : String} {options : AnalysisOptions} {f : Fold}
    (hf : f ∈ (analysisOf source (tokenize source) options).folds) : f.IsLabelled options := by
  obtain ⟨s, -, hregion⟩ := List.mem_flatMap.mp hf
  exact isLabelled_of_mem_regions hregion

/-- The start of a region can be read off the name of its group: it is written behind the last dash. -/
theorem start_eq_of_group_eq {d d' : FoldDelimiter} {start start' : Nat}
    (h : "elvish-" ++ d.name ++ "-" ++ toString start =
      "elvish-" ++ d'.name ++ "-" ++ toString start') : start = start' := by
  have hname : '-' ∉ d.name.toList := by cases d <;> decide
  have hdigits : '-' ∉ Nat.toDigits 10 start := by
    intro hdash
    exact absurd (Nat.isDigit_of_mem_toDigits (by decide) (by decide) hdash) (by decide)
  have hdash : "-".toList = ['-'] := rfl
  -- No name holds a dash and no number does, so the dashes between them are at the same place.
  have hlists := congrArg String.toList h
  simp only [String.toList_append, List.append_assoc, List.append_cancel_left_eq, hdash,
    List.singleton_append, Nat.toString_eq_repr, Nat.toList_repr] at hlists
  obtain ⟨-, -, hequal⟩ := (List.append_cons_inj_of_notMem hname hdigits).mp hlists
  calc
    start = Nat.ofDigitChars 10 (Nat.toDigits 10 start) 0 := Nat.ofDigitChars_ten_toDigits.symm
    _ = Nat.ofDigitChars 10 (Nat.toDigits 10 start') 0 := by rw [hequal]
    _ = start' := Nat.ofDigitChars_ten_toDigits

/-- A region that is well formed in its script. -/
structure Fold.IsWellFormed (source : String) (f : Fold) : Prop where
  start_lt_stop : f.start < f.stop
  stop_le : f.stop ≤ source.utf8ByteSize
  startLine_lt_endLine : f.startLine < f.endLine
  endLine_le : f.endLine ≤ lineBreakCount source.toList
  opening_byte : source.toByteArray.data[f.start]? = some f.delimiter.openingChar.toUInt8
  closing_byte : source.toByteArray.data[f.stop - 1]? = some f.delimiter.closingChar.toUInt8
  context_isSome : f.context.isSome = true ↔ f.delimiter = .brace
  collapsed_eq : f.collapsed = false

/-- Regions of a script are well formed, in the order of their starts and with groups of their own. -/
theorem folds_well_formed (source : String) (options : AnalysisOptions) :
    ∃ a, analyze source options = .ok a ∧
      a.folds.Pairwise (fun f g => f.start < g.start) ∧ (a.folds.map Fold.group).Nodup ∧
      ∀ f ∈ a.folds, f.IsWellFormed source := by
  have hregions := orderedRegions_folds source options
  refine ⟨_, analyze_eq_ok source options, hregions.sorted, ?_, ?_⟩
  · refine List.pairwise_map.mpr (hregions.sorted.imp_of_mem ?_)
    intro f g hf hg hstart hgroup
    rw [(isLabelled_of_mem_folds hf).group_eq, (isLabelled_of_mem_folds hg).group_eq] at hgroup
    exact Nat.ne_of_lt hstart (start_eq_of_group_eq hgroup)
  · intro f hf
    obtain ⟨before, inside, after, hcuts⟩ := exists_cuts_of_mem_folds hf
    have hlies := hregions.liesIn f hf
    have hlabelled := isLabelled_of_mem_folds hf
    obtain ⟨hopening, hclosing⟩ := hcuts.bytes
    exact {
      start_lt_stop := hlies.start_lt_stop
      stop_le := Text.byteLength_toList source ▸ Text.le_byteLength_of_isBoundary hlies.isBoundary_stop
      startLine_lt_endLine := hlabelled.startLine_lt_endLine
      endLine_le := hlies.endLine_eq ▸ Text.lineAt_le _ _
      opening_byte := hopening
      closing_byte := hclosing
      context_isSome := hlabelled.context_isSome
      collapsed_eq := hlabelled.collapsed_eq }

/-- A list in a function whose name is wider in bytes than in characters. -/
theorem folds_well_formed_behind_wide_name :
    ∃ a f, analyze "fn λ \x7b\n[\n]\n\x7d" {} = .ok a ∧ f ∈ a.folds ∧
      f.delimiter = .bracket ∧ f.start = 8 ∧ f.IsWellFormed "fn λ \x7b\n[\n]\n\x7d" := by
  obtain ⟨a, ha, -, -, hwellFormed⟩ := folds_well_formed "fn λ \x7b\n[\n]\n\x7d" {}
  have hinner : ∃ f ∈ a.folds, f.delimiter = .bracket ∧ f.start = 8 := by
    rw [analyze_eq_ok] at ha
    obtain rfl := Except.ok.inj ha
    decide +kernel
  obtain ⟨f, hf, hdelimiter, hstart⟩ := hinner
  exact ⟨a, f, ha, hf, hdelimiter, hstart, hwellFormed f hf⟩

end ElvishOutline

import ElvishOutline.Proofs.Counts
import ElvishOutline.Proofs.Lookahead
import ElvishOutline.Proofs.Shifting

/-!
# Scripts put together

A script that ends its last line and its last statement may stand in front of any other script: the
analysis of both together is the two analyses put together, the second one moved. The first script
neither lengthens a token or a statement of the second nor is lengthened by it, a closing delimiter
too many is forgotten with its statement, and no line end is made of two at the seam.

Counts add up with one exception: blanks at the end of the first script and the statement behind
them are one statement, so the number of all statements is left out.
-/

namespace ElvishOutline

open Text (byteLength lineFeedCount lineBreakCount lineAt Seamless)

/-- A script that may stand in front of any other: it is empty, or its last token is a line end and
its last statement holds blanks only or is ended outside all delimiters. -/
def IsCompleteScript (p : String) : Prop :=
  p = "" ∨ (∃ t ∈ (tokenize p).getLast?, t.kind = .newline) ∧
    ∃ s ∈ (segment (tokenize p)).getLast?, s.isBlank = true ∨ s.EndsBalanced

instance (p : String) : Decidable (IsCompleteScript p) := inferInstanceAs (Decidable (_ ∨ _ ∧ _))

namespace IsCompleteScript

variable {p : String}

/-- The last statement of a complete script, if it has one, is blank or ended. -/
theorem isComplete (h : IsCompleteScript p) : IsComplete (tokenize p) := by
  intro s hs
  rcases h with rfl | ⟨-, last, hlast, hend⟩
  · rw [tokenize_empty, segment] at hs
    cases hs
  · obtain rfl : s = last := Option.some.inj (hs.symm.trans hlast)
    exact hend

/-- A complete script is empty or ends in a line feed. -/
theorem eq_nil_or_endsInLineFeed (h : IsCompleteScript p) :
    p.toList = [] ∨ EndsInLineFeed p.toList := by
  rcases h with rfl | ⟨⟨last, hlast, hkind⟩, -⟩
  · exact .inl rfl
  · exact .inr (Lexer.endsInLineFeed_of_tokensFrom hlast hkind)

/-- No line end is divided where another text starts behind a complete script. -/
theorem seamless (h : IsCompleteScript p) (text : List Char) : Seamless p.toList text := by
  rcases h.eq_nil_or_endsInLineFeed with hnil | hfeed
  · rw [hnil]
    exact fun hlast => absurd hlast (by decide)
  · exact .of_getLast? hfeed (by decide)

/-- A complete script is cut by itself, and what is put behind it as if it stood alone. -/
theorem tokenize_append (h : IsCompleteScript p) (b : String) :
    tokenize (p ++ b) = tokenize p ++ (tokenize b).map (Token.shift p.utf8ByteSize) := by
  rcases h with rfl | ⟨⟨last, hlast, hkind⟩, -⟩
  · have hshift : Token.shift 0 = id := by
      funext t
      simp [Token.shift]
    rw [tokenize_empty, String.empty_append, String.utf8ByteSize_empty, hshift,
      List.map_id, List.nil_append]
  · exact ElvishOutline.tokenize_append b hlast hkind

/-- The bodies of both scripts are those of the joined one, the second ones moved. -/
theorem bodies_append (h : IsCompleteScript p) (b : String) :
    bodies (segment (tokenize (p ++ b))) = bodies (segment (tokenize p)) ++
      (bodies (segment (tokenize b))).map (List.map (Token.shift p.utf8ByteSize)) := by
  rw [h.tokenize_append, bodies_segment_append h.isComplete, bodies_segment_map_shift]

/-- The landmarks of both scripts are those of the joined one, the second ones moved. -/
theorem landmarks_append (h : IsCompleteScript p) (b : String) :
    landmarks (segment (tokenize (p ++ b))) = landmarks (segment (tokenize p)) ++
      (landmarks (segment (tokenize b))).map (Landmark.shift p.utf8ByteSize) := by
  rw [landmarks_eq_bodies, h.bodies_append, List.filterMap_append, ← landmarks_eq_bodies,
    List.filterMap_map, landmarks_eq_bodies (segment (tokenize b)), List.map_filterMap]
  congr 2
  funext body
  exact bodyLandmark?_map_shift p.utf8ByteSize body

end IsCompleteScript

/-- Lines that a report gives add up where the first text ends its last line. -/
theorem Text.lineFeedCount_append {xs : List Char} (h : xs = [] ∨ EndsInLineFeed xs)
    (ys : List Char) : lineFeedCount (xs ++ ys) = lineFeedCount xs + lineFeedCount ys := by
  have hlast : xs.getLast?.all (· = '\n') = true := by
    rcases h with rfl | hfeed
    · rfl
    · rw [show xs.getLast? = some '\n' from hfeed]
      rfl
  unfold lineFeedCount
  rw [List.count_append, List.getLast?_append, if_pos hlast]
  cases hys : ys.getLast? with
  | none =>
    obtain rfl := List.getLast?_eq_none_iff.mp hys
    simp [hlast]
  | some c => rw [Option.some_or, Nat.add_zero, Nat.add_assoc]

namespace IsCompleteScript

variable {p : String} (h : IsCompleteScript p) (b : String)

include h

/-- An offset of the second script is below all line ends of the first. -/
theorem lineAt_append (offset : Nat) :
    lineAt (p ++ b).toList (p.utf8ByteSize + offset) =
      lineBreakCount p.toList + lineAt b.toList offset := by
  rw [String.toList_append, ← Text.byteLength_toList, Text.lineAt_append_right (h.seamless _)]

/-- The lines of the first script do not depend on the second. -/
theorem lineAt_inside {offset : Nat} (hoffset : offset ≤ p.utf8ByteSize) :
    lineAt (p ++ b).toList offset = lineAt p.toList offset := by
  rw [← Text.byteLength_toList] at hoffset
  rw [String.toList_append, Text.lineAt_append_left (h.seamless _) hoffset]

/-- The outline of the joined script is that of the first one and, moved behind it, that of the
second. -/
theorem outline_append (options : AnalysisOptions) :
    (analysisOf (p ++ b) (tokenize (p ++ b)) options).outline =
      (analysisOf p (tokenize p) options).outline ++
        (analysisOf b (tokenize b) options).outline.map
          (OutlineEntry.shift p.utf8ByteSize (lineBreakCount p.toList)) := by
  have hfirst : (landmarks (segment (tokenize p))).map (landmarkEntry (lineAt (p ++ b).toList)) =
      (landmarks (segment (tokenize p))).map (landmarkEntry (lineAt p.toList)) := by
    apply List.map_congr_left
    intro l hl
    rw [landmarks_eq_bodies] at hl
    obtain ⟨body, hbody, hlandmark⟩ := List.mem_filterMap.mp hl
    obtain ⟨first, hmem, last, hmem', hstart, hstop⟩ := Statement.exists_of_landmark? hlandmark
    have hfirstStop := stop_le_of_mem_tokenize (mem_of_mem_bodies hbody hmem)
    have hlastStop := stop_le_of_mem_tokenize (mem_of_mem_bodies hbody hmem')
    have hfirstStart : first.start ≤ first.stop := Nat.le_add_right ..
    rw [landmarkEntry, h.lineAt_inside b (by omega), h.lineAt_inside b (by omega), landmarkEntry]
  have hsecond : landmarkEntry (lineAt (p ++ b).toList) ∘ Landmark.shift p.utf8ByteSize =
      OutlineEntry.shift p.utf8ByteSize (lineBreakCount p.toList) ∘ landmarkEntry (lineAt b.toList) := by
    funext l
    exact landmarkEntry_shift p.utf8ByteSize (h.lineAt_append b) l
  simp only [analysisOf]
  rw [h.landmarks_append, List.map_append, hfirst, List.map_map, hsecond, List.map_map]

/-- The regions of the joined script are those of the first one and, moved behind them, those of the
second. -/
theorem folds_append (options : AnalysisOptions) :
    (analysisOf (p ++ b) (tokenize (p ++ b)) options).folds =
      (analysisOf p (tokenize p) options).folds ++
        (analysisOf b (tokenize b) options).folds.map
          (Fold.shift p.utf8ByteSize (lineBreakCount p.toList)) := by
  have hfirst : (bodies (segment (tokenize p))).flatMap (regions (lineAt (p ++ b).toList) options []) =
      (bodies (segment (tokenize p))).flatMap (regions (lineAt p.toList) options []) := by
    apply List.flatMap_congr
    intro body hbody
    apply regions_congr
    intro t ht
    have hstop := stop_le_of_mem_tokenize (mem_of_mem_bodies hbody ht)
    have hstart : t.start ≤ t.stop := Nat.le_add_right ..
    exact ⟨h.lineAt_inside b (Nat.le_trans hstart hstop), h.lineAt_inside b hstop⟩
  have hsecond (body : List Token) :
      regions (lineAt (p ++ b).toList) options [] (body.map (Token.shift p.utf8ByteSize)) =
        (regions (lineAt b.toList) options [] body).map
          (Fold.shift p.utf8ByteSize (lineBreakCount p.toList)) :=
    regions_map_shift p.utf8ByteSize (h.lineAt_append b) options [] body
  simp only [analysisOf, regions_eq_bodies]
  rw [h.bodies_append, List.flatMap_append, hfirst, List.flatMap_map, List.map_flatMap]
  simp only [hsecond]

end IsCompleteScript

/-- The line of a closing delimiter that closes nothing. -/
def strayLine : Delimiter → String
  | .brace => "\x7d\n"
  | .bracket => "]\n"
  | .paren => ")\n"

/-- The line of a stray delimiter is complete and holds no landmark and no region. -/
theorem strayLine_spec (pair : Delimiter) (options : AnalysisOptions) :
    IsCompleteScript (strayLine pair) ∧ (strayLine pair).utf8ByteSize = 2 ∧
      lineBreakCount (strayLine pair).toList = 1 ∧
      (analysisOf (strayLine pair) (tokenize (strayLine pair)) options).outline = [] ∧
      (analysisOf (strayLine pair) (tokenize (strayLine pair)) options).folds = [] := by
  refine ⟨?_, ?_, ?_, ?_, ?_⟩
  · cases pair <;> decide +kernel
  · cases pair <;> decide
  · cases pair <;> decide
  · have hnone : landmarks (segment (tokenize (strayLine pair))) = [] := by
      cases pair <;> decide +kernel
    simp only [analysisOf, hnone, List.map_nil]
  · obtain ⟨fast, style⟩ := options
    cases pair <;> cases fast <;> cases style <;> decide +kernel

/-- The analysis `a` of two scripts put together is made of those of the first and of the second one,
whose entries are moved by the bytes and the lines of the first. -/
structure IsComposed (bytes lines : Nat) (first second a : ScriptAnalysis) : Prop where
  outline : a.outline = first.outline ++ second.outline.map (OutlineEntry.shift bytes lines)
  folds : a.folds = first.folds ++ second.folds.map (Fold.shift bytes lines)
  tokenCount : a.tokenCount = first.tokenCount + second.tokenCount
  totalLines : a.totalLines = first.totalLines + second.totalLines
  classified : a.statements.classified = first.statements.classified + second.statements.classified
  byKind (keyword : String) :
    a.statements.countOf keyword =
      first.statements.countOf keyword + second.statements.countOf keyword

/-- The parts of the analysis of a complete script and another one behind it add up. -/
theorem IsCompleteScript.isComposed {p : String} (h : IsCompleteScript p) (b : String)
    (options : AnalysisOptions) :
    IsComposed p.utf8ByteSize (lineBreakCount p.toList) (analysisOf p (tokenize p) options)
      (analysisOf b (tokenize b) options) (analysisOf (p ++ b) (tokenize (p ++ b)) options) where
  outline := h.outline_append b options
  folds := h.folds_append b options
  tokenCount := by simp only [analysisOf, h.tokenize_append, List.length_append, List.length_map]
  totalLines := by
    simp only [analysisOf, String.toList_append]
    exact Text.lineFeedCount_append h.eq_nil_or_endsInLineFeed _
  classified := by
    simp only [analysisOf, StatementCounts.of, h.landmarks_append, List.length_append,
      List.length_map]
  byKind keyword := by
    simp only [analysisOf, StatementCounts.countOf_of, h.landmarks_append, List.countP_append,
      List.countP_map]
    rfl

/-- The analysis of a complete script and any other one behind it is the two analyses put together,
with all options. So are the tokens. In particular the line of a closing delimiter that closes
nothing moves what follows by its two bytes and one line, and changes nothing else. -/
theorem analyze_append_complete (b : String) (options : AnalysisOptions) :
    (∀ p, IsCompleteScript p →
      tokenize (p ++ b) = tokenize p ++ (tokenize b).map (Token.shift p.utf8ByteSize) ∧
        ∃ first second a, analyze p options = .ok first ∧ analyze b options = .ok second ∧
          analyze (p ++ b) options = .ok a ∧
          IsComposed p.utf8ByteSize (lineBreakCount p.toList) first second a) ∧
      ∀ pair, ∃ second a, analyze b options = .ok second ∧
        analyze (strayLine pair ++ b) options = .ok a ∧
        a.outline = second.outline.map (OutlineEntry.shift 2 1) ∧
        a.folds = second.folds.map (Fold.shift 2 1) := by
  constructor
  · intro p hp
    exact ⟨hp.tokenize_append b, _, _, _, analyze_eq_ok p options, analyze_eq_ok b options,
      analyze_eq_ok (p ++ b) options, hp.isComposed b options⟩
  · intro pair
    obtain ⟨hcomplete, hbytes, hlines, houtline, hfolds⟩ := strayLine_spec pair options
    have hcomposed := hcomplete.isComposed b options
    rw [hbytes, hlines] at hcomposed
    refine ⟨_, _, analyze_eq_ok b options, analyze_eq_ok (strayLine pair ++ b) options, ?_, ?_⟩
    · rw [hcomposed.outline, houtline, List.nil_append]
    · rw [hcomposed.folds, hfolds, List.nil_append]

/-- Carriage returns, an open bracket in a string and blank lines at the end are no obstacle. -/
theorem analyze_append_function_and_blanks :
    IsCompleteScript "fn f \x7b|x|\r\n  put [ $x '[' ]\r\n\x7d\r\n\n  \n" ∧
      ∃ first second a,
        analyze "fn f \x7b|x|\r\n  put [ $x '[' ]\r\n\x7d\r\n\n  \n" {} = .ok first ∧
        analyze "if (g) \x7b\n  echo λ" {} = .ok second ∧
        analyze ("fn f \x7b|x|\r\n  put [ $x '[' ]\r\n\x7d\r\n\n  \n" ++ "if (g) \x7b\n  echo λ") {} =
          .ok a ∧
        IsComposed 36 5 first second a := by
  have hcomplete : IsCompleteScript "fn f \x7b|x|\r\n  put [ $x '[' ]\r\n\x7d\r\n\n  \n" := by
    decide +kernel
  exact ⟨hcomplete, ((analyze_append_complete "if (g) \x7b\n  echo λ" {}).1 _ hcomplete).2⟩

end ElvishOutline

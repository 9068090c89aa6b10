import ElvishOutline.Analysis
import ElvishOutline.Proofs.LineEnds
import ElvishOutline.Proofs.Segmentation
import ElvishOutline.Proofs.Tiling

/-!
# The analysis of a script never fails

The passes look lines up, and a lookup fails past the end of the script. Tokens that lie inside the
script ask for no such line, so each pass gives the result that it would give with a total function
from offsets to lines. The definitions below state these results without failure;
`analyze_eq_ok` says that the analysis of a script is their combination.
-/

namespace ElvishOutline

open Text (LineTable byteLength lineFeedCount lineAt)

/-- The region of a pair of tokens, unless both ends are on one line. -/
def pairRegion? (line : Nat → Nat) (options : AnalysisOptions) (pair : FoldDelimiter)
    (preceding : List Token) (opener : Token) (following : List Token) (closer : Token) :
    Option Fold :=
  if line closer.stop ≤ line opener.start then none
  else
    let context := contextOf options pair preceding
    some {
      start := opener.start
      stop := closer.stop
      startLine := line opener.start
      endLine := line closer.stop
      group := "elvish-" ++ pair.name ++ "-" ++ toString opener.start
      placeholder := placeholderOf options context following
      delimiter := pair
      context
      collapsed := false }

/-- The region that a token opens, given the tokens around it. -/
def openedRegion? (line : Nat → Nat) (options : AnalysisOptions) (preceding : List Token)
    (t : Token) (following : List Token) : Option Fold :=
  (FoldDelimiter.ofOpening? t.kind).bind fun pair =>
    (closing? pair.toDelimiter 0 following).bind fun closer =>
      pairRegion? line options pair preceding t following closer

/-- The regions that tokens open, in the order of their opening tokens. -/
def regions (line : Nat → Nat) (options : AnalysisOptions) (preceding : List Token) :
    List Token → List Fold
  | [] => []
  | t :: ts =>
    (openedRegion? line options preceding t ts).toList ++ regions line options (t :: preceding) ts

/-- The outline entry of a landmark. -/
def landmarkEntry (line : Nat → Nat) (landmark : Landmark) : OutlineEntry where
  landmark
  startLine := line landmark.start + 1
  endLine := line (max (landmark.stop - 1) landmark.start) + 1

/-- The analysis of a script with its tokens, when every line can be looked up. -/
def analysisOf (source : String) (tokens : List Token) (options : AnalysisOptions) :
    ScriptAnalysis :=
  let text := source.toList
  let found := landmarks (segment tokens)
  { totalLines := lineFeedCount text
    tokenCount := tokens.length
    statements := .of (segment tokens) found
    outline := found.map (landmarkEntry (lineAt text))
    folds := (segment tokens).flatMap fun s => regions (lineAt text) options [] s.tokens }

/-- Offsets whose lines a table gives as a function does. -/
def Answers (index : LineTable) (line : Nat → Nat) (offset : Nat) : Prop :=
  lineOf index offset = .ok (line offset)

/-- A table answers for the offsets of its text. -/
theorem answers_ofText {text : List Char} {offset : Nat} (h : offset ≤ byteLength text) :
    Answers (.ofText text) (lineAt text) offset := by
  rw [Answers, lineOf, Text.lineOf?_ofText h]

/-- The token that closes a pair is among those searched. -/
theorem mem_of_closing? {pair : Delimiter} {depth : Nat} {ts : List Token} {closer : Token}
    (h : closing? pair depth ts = some closer) : closer ∈ ts := by
  fun_induction closing? pair depth ts with
  | case1 => cases h
  | case2 depth t ts hopening ih => exact List.mem_cons_of_mem t (ih h)
  | case3 t ts hopening hclosing =>
    rw [Option.some.inj h]
    exact List.mem_cons_self ..
  | case4 t ts hopening hclosing depth ih => exact List.mem_cons_of_mem t (ih h)
  | case5 depth t ts hopening hclosing ih => exact List.mem_cons_of_mem t (ih h)

section Passes

variable {index : LineTable} (line : Nat → Nat) (options : AnalysisOptions)

/-- If the table answers for all tokens, the token opens the region that the lines give. -/
theorem regionAt_eq_ok (preceding : List Token) {t : Token} {ts : List Token}
    (h : ∀ u ∈ t :: ts, Answers index line u.start ∧ Answers index line u.stop) :
    regionAt Token.stop (lineOf index) options preceding t ts =
      .ok (openedRegion? line options preceding t ts) := by
  unfold regionAt openedRegion?
  cases FoldDelimiter.ofOpening? t.kind with
  | none => rfl
  | some pair =>
    simp only [Option.bind_some]
    cases hcloser : closing? pair.toDelimiter 0 ts with
    | none => rfl
    | some closer =>
      have hstart : lineOf index t.start = _ := (h t (List.mem_cons_self ..)).1
      have hstop : lineOf index closer.stop = _ :=
        (h closer (List.mem_cons_of_mem t (mem_of_closing? hcloser))).2
      simp only [regionOf, hstart, hstop, bind, Except.bind, Option.bind_some, pairRegion?]
      by_cases hlines : line closer.stop ≤ line t.start
      · simp only [if_pos hlines]
        rfl
      · simp only [if_neg hlines]
        rfl

/-- If the table answers for all its tokens, a statement has the regions that the lines give. -/
theorem statementFolds_eq_ok (preceding : List Token) {ts : List Token}
    (h : ∀ u ∈ ts, Answers index line u.start ∧ Answers index line u.stop) :
    statementFolds Token.stop (lineOf index) options preceding ts =
      .ok (regions line options preceding ts) := by
  induction ts generalizing preceding with
  | nil => rfl
  | cons t ts ih =>
    have hlater := ih (t :: preceding) fun u hu => h u (List.mem_cons_of_mem t hu)
    rw [statementFolds, regionAt_eq_ok line options preceding h, hlater]
    rfl

/-- If the table answers for all tokens, the statements have the regions that the lines give. -/
theorem foldStatements_eq_ok {statements : List Statement}
    (h : ∀ s ∈ statements, ∀ u ∈ s.tokens, Answers index line u.start ∧ Answers index line u.stop) :
    foldStatements Token.stop (lineOf index) options statements =
      .ok (statements.flatMap fun s => regions line options [] s.tokens) := by
  induction statements with
  | nil => rfl
  | cons s rest ih =>
    have hlater := ih fun s' hs' => h s' (List.mem_cons_of_mem s hs')
    rw [foldStatements, statementFolds_eq_ok line options [] (h s (List.mem_cons_self ..)), hlater]
    rfl

/-- If the table answers for both ends of all landmarks, the outline has an entry for each. -/
theorem outlineEntries_eq_ok {found : List Landmark}
    (h : ∀ l ∈ found, Answers index line l.start ∧ Answers index line (max (l.stop - 1) l.start)) :
    outlineEntries index found = .ok (found.map (landmarkEntry line)) := by
  induction found with
  | nil => rfl
  | cons l rest ih =>
    have hlater := ih fun l' hl' => h l' (List.mem_cons_of_mem l hl')
    obtain ⟨hstart, hend⟩ := h l (List.mem_cons_self ..)
    rw [Answers] at hstart hend
    rw [outlineEntries, outlineEntry, hstart, hlater]
    simp only [bind, Except.bind, hend]
    rfl

end Passes

/-- The ends of a landmark are ends of tokens of its statement. -/
theorem Statement.exists_of_landmark? {s : Statement} {l : Landmark} (h : s.landmark? = some l) :
    ∃ first ∈ s.body, ∃ last ∈ s.body, l.start = first.start ∧ l.stop = last.stop := by
  unfold landmark? landmarkWith? at h
  split at h
  · next start stop kind hspan hkind =>
    obtain rfl := Option.some.inj h
    unfold spanWith? at hspan
    split at hspan
    · next first last hfirst hlast =>
      obtain ⟨rfl, rfl⟩ := Prod.mk.inj (Option.some.inj hspan)
      exact ⟨first, List.mem_of_head? hfirst, last, List.mem_of_getLast? hlast, rfl, rfl⟩
    · cases hspan
  · cases h

/-- The tokens of a statement are among those that were cut. -/
theorem mem_of_mem_segment {tokens : List Token} {s : Statement} (hs : s ∈ segment tokens)
    {t : Token} (ht : t ∈ s.tokens) : t ∈ tokens := by
  rw [← segment_tokens tokens]
  exact List.mem_flatMap.mpr ⟨s, hs, ht⟩

/-- The tokens of a body are among those that were cut. -/
theorem mem_of_mem_bodies {tokens body : List Token} (hbody : body ∈ bodies (segment tokens))
    {t : Token} (ht : t ∈ body) : t ∈ tokens := by
  obtain ⟨s, hs, rfl⟩ := List.mem_map.mp (List.mem_filter.mp hbody).1
  exact mem_of_mem_segment hs (List.mem_append_right _ ht)

section Inside

variable {text : List Char} {tokens : List Token}

/-- Tokens inside a text ask for no line past its end, whether a landmark is looked up by its first
byte or by its last. -/
theorem outlineEntries_landmarks_eq_ok (hinside : ∀ t ∈ tokens, t.stop ≤ byteLength text) :
    outlineEntries (.ofText text) (landmarks (segment tokens)) =
      .ok ((landmarks (segment tokens)).map (landmarkEntry (lineAt text))) := by
  apply outlineEntries_eq_ok
  intro l hl
  obtain ⟨s, hs, hlandmark⟩ := mem_landmarks.mp hl
  obtain ⟨first, hfirst, last, hlast, hstart, hstop⟩ := Statement.exists_of_landmark? hlandmark
  have hbody {t : Token} (ht : t ∈ s.body) : t ∈ tokens :=
    mem_of_mem_segment hs (List.mem_append_right _ ht)
  have hfirstStop := hinside first (hbody hfirst)
  have hlastStop := hinside last (hbody hlast)
  have hfirstStart : first.start ≤ first.stop := Nat.le_add_right ..
  constructor
  · exact answers_ofText (by omega)
  · exact answers_ofText (by omega)

/-- Folding succeeds on all tokens that lie inside the text. -/
theorem findFolds_eq_ok (options : AnalysisOptions)
    (hinside : ∀ t ∈ tokens, t.stop ≤ byteLength text) :
    findFolds tokens (.ofText text) options =
      .ok ((segment tokens).flatMap fun s => regions (lineAt text) options [] s.tokens) := by
  apply foldStatements_eq_ok
  intro s hs t ht
  have hstop := hinside t (mem_of_mem_segment hs ht)
  have hstart : t.start ≤ t.stop := Nat.le_add_right ..
  exact ⟨answers_ofText (Nat.le_trans hstart hstop), answers_ofText hstop⟩

end Inside

/-- Tokens that meet the contract and lie inside the script are analysed without failure. -/
theorem analyzeTokens_eq_ok {source : String} {tokens : List Token} (options : AnalysisOptions)
    (hcheck : checkTokens tokens (byteLength source.toList) = .ok ())
    (hinside : ∀ t ∈ tokens, t.stop ≤ byteLength source.toList) :
    analyzeTokens source tokens options = .ok (analysisOf source tokens options) := by
  simp only [analyzeTokens, hcheck, outlineEntries_landmarks_eq_ok hinside,
    findFolds_eq_ok options hinside, bind, Except.bind]
  rfl

/-- The analysis of a script gives a result, for every script and all options. -/
theorem analyze_eq_ok (source : String) (options : AnalysisOptions) :
    analyze source options = .ok (analysisOf source (tokenize source) options) := by
  have hinside : 0 + byteLength (spelling (tokenize source)) ≤ byteLength source.toList := by
    rw [spelling_tokenize, Nat.zero_add]
  apply analyzeTokens_eq_ok options
  · exact (tiles_tokenize source).checkFrom_eq_ok 0 hinside (Nat.le_refl 0)
  · intro t ht
    rw [Text.byteLength_toList]
    exact stop_le_of_mem_tokenize ht

end ElvishOutline

import ElvishOutline.Proofs.Matching

/-!
# Regions are the pairs that hold a line end

The regions of a script are its pairs of braces and of brackets with a line end between the two
tokens, where a pass with a stack over each statement by itself pairs the tokens, for either sort of
delimiters alone. Nothing else is a region, and no pair gives two.

Here a pair holds a line end when its two ends are on different lines, for any function from offsets
to lines.
-/

namespace ElvishOutline

/-- The first of the tokens that stand at a position, and those behind it. -/
theorem getElem?_of_cons_prefix_drop {all ts : List Token} {t : Token} {index : Nat}
    (h : t :: ts <+: all.drop index) : all[index]? = some t ∧ ts <+: all.drop (index + 1) := by
  obtain ⟨rest, hrest⟩ := h
  constructor
  · rw [← List.head?_drop, ← hrest]
    rfl
  · refine ⟨rest, ?_⟩
    rw [← List.tail_drop, ← hrest]
    rfl

/-- The position of a closing delimiter that counting finds is that of the token it finds. -/
theorem closing?_eq_bind {all : List Token} (pair : Delimiter) {depth index : Nat} {ts : List Token}
    (h : ts <+: all.drop index) :
    closing? pair depth ts = (closerIndex? pair depth index ts).bind (all[·]?) := by
  induction ts generalizing depth index with
  | nil => rfl
  | cons t ts ih =>
    obtain ⟨hhere, hlater⟩ := getElem?_of_cons_prefix_drop h
    rw [closing?.eq_def]
    by_cases hopening : t.kind = .opening pair
    · simp only [if_pos hopening, closerIndex?_opening hopening, ih hlater]
    · by_cases hclosing : t.kind = .closing pair
      · simp only [if_neg hopening, if_pos hclosing]
        cases depth with
        | zero => rw [closerIndex?_closing_zero hclosing, Option.bind_some, hhere]
        | succ depth =>
          rw [closerIndex?_closing_succ hclosing]
          exact ih hlater
      · simp only [if_neg hopening, if_neg hclosing, closerIndex?_other hopening hclosing, ih hlater]

/-- Counting finds a closing delimiter of its sort among the tokens that are searched. -/
theorem closerIndex?_spec {all : List Token} {pair : Delimiter} {depth index j : Nat}
    {ts : List Token} (h : ts <+: all.drop index) (hj : closerIndex? pair depth index ts = some j) :
    index ≤ j ∧ ∃ closer, all[j]? = some closer ∧ closer.kind = .closing pair := by
  induction ts generalizing depth index with
  | nil => cases hj
  | cons t ts ih =>
    obtain ⟨hhere, hlater⟩ := getElem?_of_cons_prefix_drop h
    by_cases hopening : t.kind = .opening pair
    · rw [closerIndex?_opening hopening] at hj
      obtain ⟨hle, hcloser⟩ := ih hlater hj
      exact ⟨by omega, hcloser⟩
    · by_cases hclosing : t.kind = .closing pair
      · cases depth with
        | zero =>
          rw [closerIndex?_closing_zero hclosing] at hj
          obtain rfl := Option.some.inj hj
          exact ⟨Nat.le_refl _, t, hhere, hclosing⟩
        | succ depth =>
          rw [closerIndex?_closing_succ hclosing] at hj
          obtain ⟨hle, hcloser⟩ := ih hlater hj
          exact ⟨by omega, hcloser⟩
      · rw [closerIndex?_other hopening hclosing] at hj
        obtain ⟨hle, hcloser⟩ := ih hlater hj
        exact ⟨by omega, hcloser⟩

/-- A pair made of an opening delimiter and, behind it, a closing one of its sort. -/
def TokenPair.IsMatched (all : List Token) (q : TokenPair) : Prop :=
  q.opener < q.closer ∧ ∃ opener closer, all[q.opener]? = some opener ∧
    all[q.closer]? = some closer ∧ opener.kind = .opening q.delimiter.toDelimiter ∧
    closer.kind = .closing q.delimiter.toDelimiter

/-- A pair whose two tokens are on different lines. -/
def TokenPair.isMultiline (all : List Token) (line : Nat → Nat) (q : TokenPair) : Bool :=
  all[q.opener]?.any fun opener => all[q.closer]?.any fun closer =>
    line opener.start < line closer.stop

/-- A region that runs from the first token of a pair to the second. -/
def TokenPair.Spans (all : List Token) (line : Nat → Nat) (q : TokenPair) (f : Fold) : Prop :=
  ∃ opener closer, all[q.opener]? = some opener ∧ all[q.closer]? = some closer ∧
    f.delimiter = q.delimiter ∧ f.start = opener.start ∧ f.stop = closer.stop ∧
    f.startLine = line opener.start ∧ f.endLine = line closer.stop

section Regions

variable {all : List Token} (line : Nat → Nat) (options : AnalysisOptions)

/-- The pair that a token opens spans the region that it opens, if it is on several lines. -/
theorem forall₂_openedRegion? (preceding : List Token) {index : Nat} {t : Token} {ts : List Token}
    (h : t :: ts <+: all.drop index) :
    List.Forall₂ (TokenPair.Spans all line)
      ((pairAt? index t ts).toList.filter (TokenPair.isMultiline all line))
      (openedRegion? line options preceding t ts).toList := by
  obtain ⟨hhere, hlater⟩ := getElem?_of_cons_prefix_drop h
  unfold pairAt? openedRegion?
  cases FoldDelimiter.ofOpening? t.kind with
  | none => exact .nil
  | some d =>
    simp only [Option.bind_some, closing?_eq_bind d.toDelimiter hlater]
    cases hj : closerIndex? d.toDelimiter 0 (index + 1) ts with
    | none => exact .nil
    | some j =>
      obtain ⟨-, closer, hcloser, -⟩ := closerIndex?_spec hlater hj
      simp only [Option.map_some, Option.bind_some, hcloser, pairRegion?, Option.toList_some]
      have hmultiline : TokenPair.isMultiline all line ⟨d, index, j⟩ =
          decide (line t.start < line closer.stop) := by
        simp only [TokenPair.isMultiline, hhere, hcloser, Option.any_some]
      by_cases hlines : line closer.stop ≤ line t.start
      · rw [if_pos hlines, List.filter_singleton, hmultiline, decide_eq_false (by omega)]
        exact .nil
      · rw [if_neg hlines, List.filter_singleton, hmultiline, decide_eq_true (by omega)]
        exact .cons ⟨t, closer, hhere, hcloser, rfl, rfl, rfl, rfl, rfl⟩ .nil

/-- The regions of tokens are the pairs on several lines that counting finds, in order. -/
theorem forall₂_regions (preceding : List Token) {index : Nat} {ts : List Token}
    (h : ts <+: all.drop index) :
    List.Forall₂ (TokenPair.Spans all line)
      ((countedPairs index ts).filter (TokenPair.isMultiline all line))
      (regions line options preceding ts) := by
  induction ts generalizing preceding index with
  | nil => exact .nil
  | cons t ts ih =>
    rw [countedPairs, List.filter_append, regions]
    exact List.rel_append (forall₂_openedRegion? line options preceding h)
      (ih (t :: preceding) (getElem?_of_cons_prefix_drop h).2)

end Regions

/-- The pairs that counting finds in each of the statements from a position on. -/
def statementPairs (index : Nat) : List Statement → List TokenPair
  | [] => []
  | s :: rest => countedPairs index s.tokens ++ statementPairs (index + s.tokens.length) rest

/-- The tokens of a statement, among all tokens. -/
def StatementRange.tokens (r : StatementRange) (all : List Token) : List Token :=
  (all.drop r.start).take (r.stop - r.start)

/-- The pairs of all statements that are on several lines span their regions, one by one. -/
theorem forall₂_statementPairs {all : List Token} (line : Nat → Nat) (options : AnalysisOptions)
    {index : Nat} {statements : List Statement}
    (h : all.drop index = statements.flatMap Statement.tokens) :
    List.Forall₂ (TokenPair.Spans all line)
      ((statementPairs index statements).filter (TokenPair.isMultiline all line))
      (statements.flatMap fun s => regions line options [] s.tokens) := by
  induction statements generalizing index with
  | nil => exact .nil
  | cons s rest ih =>
    obtain ⟨hhere, hlater⟩ := prefix_drop_of_flatMap h
    rw [statementPairs, List.filter_append, List.flatMap_cons]
    exact List.rel_append (forall₂_regions line options [] hhere) (ih hlater)

/-- Counting from each opening delimiter finds the pairs of a pass with a stack over each statement. -/
theorem mem_statementPairs {all : List Token} {index : Nat} {statements : List Statement}
    (h : all.drop index = statements.flatMap Statement.tokens) {q : TokenPair} :
    q ∈ statementPairs index statements ↔ ∃ r ∈ rangesFrom index statements,
      (q.opener, q.closer) ∈ stackRun q.delimiter.toDelimiter [] r.start (r.tokens all) := by
  induction statements generalizing index with
  | nil => simp [statementPairs, rangesFrom]
  | cons s rest ih =>
    obtain ⟨⟨others, hothers⟩, hlater⟩ := prefix_drop_of_flatMap h
    have hlength : s.tokens.length = s.leading.length + s.body.length := by
      rw [Statement.tokens, List.length_append]
    have hstop : index + s.leading.length + s.body.length = index + s.tokens.length := by omega
    have htokens : StatementRange.tokens
        ⟨index, index + s.leading.length, index + s.tokens.length⟩ all = s.tokens := by
      rw [StatementRange.tokens, Nat.add_sub_cancel_left, ← hothers, List.take_left]
    have hhere : q ∈ countedPairs index s.tokens ↔
        (q.opener, q.closer) ∈ stackRun q.delimiter.toDelimiter [] index s.tokens := by
      rw [mem_stackRun]
      simp
    simp only [statementPairs, rangesFrom, hstop, List.mem_append, hhere, ih hlater, List.mem_cons,
      or_and_right, exists_or, exists_eq_left, htokens]

/-- Pairs are listed in the order of their opening tokens. -/
theorem pairwise_countedPairs (index : Nat) (ts : List Token) :
    (countedPairs index ts).Pairwise (fun q q' => q.opener < q'.opener) ∧
      ∀ q ∈ countedPairs index ts, index ≤ q.opener ∧ q.opener < index + ts.length := by
  induction ts generalizing index with
  | nil => simp [countedPairs]
  | cons t ts ih =>
    obtain ⟨hsorted, hbounds⟩ := ih (index + 1)
    have hhere (q : TokenPair) (hq : q ∈ (pairAt? index t ts).toList) : q.opener = index := by
      rw [Option.mem_toList] at hq
      exact (mem_pairAt?.mp hq).2.1
    rw [countedPairs]
    constructor
    · rw [List.pairwise_append]
      refine ⟨?_, hsorted, ?_⟩
      · cases pairAt? index t ts with
        | none => exact .nil
        | some q => exact List.pairwise_singleton _ _
      · intro q hq q' hq'
        have := hbounds q' hq'
        have := hhere q hq
        omega
    · intro q hq
      rw [List.length_cons]
      rcases List.mem_append.mp hq with hq | hq
      · have := hhere q hq
        omega
      · have := hbounds q hq
        omega

/-- Counting finds the pairs of all statements in the order of their opening delimiters. -/
theorem pairwise_statementPairs (index : Nat) (statements : List Statement) :
    (statementPairs index statements).Pairwise (fun q q' => q.opener < q'.opener) ∧
      ∀ q ∈ statementPairs index statements, index ≤ q.opener := by
  induction statements generalizing index with
  | nil => simp [statementPairs]
  | cons s rest ih =>
    obtain ⟨hsorted, hbounds⟩ := ih (index + s.tokens.length)
    obtain ⟨hhere, hbounds'⟩ := pairwise_countedPairs index s.tokens
    rw [statementPairs]
    constructor
    · refine List.pairwise_append.mpr ⟨hhere, hsorted, ?_⟩
      intro q hq q' hq'
      have := hbounds' q hq
      have := hbounds q' hq'
      omega
    · intro q hq
      rcases List.mem_append.mp hq with hq | hq
      · exact (hbounds' q hq).1
      · have := hbounds q hq
        omega

/-- Counting pairs delimiters of one sort. -/
theorem isMatched_of_mem_countedPairs {all : List Token} {index : Nat} {ts : List Token}
    (h : ts <+: all.drop index) {q : TokenPair} (hq : q ∈ countedPairs index ts) :
    q.IsMatched all := by
  induction ts generalizing index with
  | nil => cases hq
  | cons t ts ih =>
    obtain ⟨hhere, hlater⟩ := getElem?_of_cons_prefix_drop h
    rw [countedPairs] at hq
    rcases List.mem_append.mp hq with hq | hq
    · obtain ⟨d, i, j⟩ := q
      rw [Option.mem_toList] at hq
      obtain ⟨hkind, rfl, hcloser⟩ := mem_pairAt?.mp hq
      obtain ⟨hle, closer, hmem, hclosing⟩ := closerIndex?_spec hlater hcloser
      exact ⟨hle, t, closer, hhere, hmem, hkind, hclosing⟩
    · exact ih hlater hq

/-- Counting pairs delimiters of one sort in every statement. -/
theorem isMatched_of_mem_statementPairs {all : List Token} {index : Nat}
    {statements : List Statement} (h : all.drop index = statements.flatMap Statement.tokens)
    {q : TokenPair} (hq : q ∈ statementPairs index statements) : q.IsMatched all := by
  induction statements generalizing index with
  | nil => cases hq
  | cons s rest ih =>
    obtain ⟨hhere, hlater⟩ := prefix_drop_of_flatMap h
    rcases List.mem_append.mp hq with hq | hq
    · exact isMatched_of_mem_countedPairs hhere hq
    · exact ih hlater hq

end ElvishOutline

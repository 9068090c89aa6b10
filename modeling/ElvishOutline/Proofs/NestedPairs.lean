import ElvishOutline.Proofs.FoldPairs
import ElvishOutline.Proofs.Spans

/-!
# Pairs of one sort nest

Every opening delimiter looks for its closing one with a count of its own, and nothing is kept from
one search to the next. Still no two pairs of one sort cross, whether the delimiters are balanced or
not: a search that starts inside a pair counts one delimiter less than the search for the end of that
pair does, at every token that both pass, so it is the first to end.

Tokens that meet their contract stand in order, so the regions of these pairs are nested or apart as
the pairs are, also where tokens have no bytes.
-/

namespace ElvishOutline

open Text (lineAt)

/-- How pairs stand to each other, the first of which opens first: if they are of one sort, the second
opens behind the end of the first or ends inside it. -/
def TokenPair.NestsWith (q q' : TokenPair) : Prop :=
  q.opener < q'.opener ∧
    (q.delimiter = q'.delimiter → q.closer < q'.opener ∨ q'.closer < q.closer)

section Counting

variable {all ts : List Token} {index : Nat}

/-- The more pairs are open, the further behind is the delimiter that closes the outermost. -/
theorem closerIndex?_lt {pair : Delimiter} {depth deeper j j' : Nat} (h : ts <+: all.drop index)
    (hdepth : depth < deeper) (hj : closerIndex? pair depth index ts = some j)
    (hj' : closerIndex? pair deeper index ts = some j') : j < j' := by
  induction ts generalizing depth deeper index with
  | nil => cases hj
  | cons t ts ih =>
    obtain ⟨-, hlater⟩ := getElem?_of_cons_prefix_drop h
    obtain ⟨deeper, rfl⟩ := Nat.exists_eq_add_of_lt hdepth
    by_cases hopening : t.kind = .opening pair
    · rw [closerIndex?_opening hopening] at hj hj'
      exact ih hlater (by omega) hj hj'
    · by_cases hclosing : t.kind = .closing pair
      · rw [closerIndex?_closing_succ hclosing] at hj'
        cases depth with
        | zero =>
          -- The shallower search ends here, and the deeper one goes on.
          rw [closerIndex?_closing_zero hclosing] at hj
          obtain rfl := Option.some.inj hj
          exact (closerIndex?_spec hlater hj').1
        | succ depth =>
          rw [closerIndex?_closing_succ hclosing] at hj
          exact ih hlater (by omega) hj hj'
      · rw [closerIndex?_other hopening hclosing] at hj hj'
        exact ih hlater (by omega) hj hj'

/-- A pair that opens ahead of the delimiter that a search of its sort ends with is closed ahead of it
too. -/
theorem closer_lt_of_mem_countedPairs {q : TokenPair} {depth j : Nat} (h : ts <+: all.drop index)
    (hj : closerIndex? q.delimiter.toDelimiter depth index ts = some j)
    (hq : q ∈ countedPairs index ts) (hle : q.opener ≤ j) : q.closer < j := by
  induction ts generalizing depth index with
  | nil => cases hq
  | cons t ts ih =>
    obtain ⟨-, hlater⟩ := getElem?_of_cons_prefix_drop h
    rw [countedPairs, List.mem_append, Option.mem_toList, ← Option.mem_def, mem_pairAt?] at hq
    by_cases hopening : t.kind = .opening q.delimiter.toDelimiter
    · rw [closerIndex?_opening hopening] at hj
      rcases hq with ⟨-, -, hcloser⟩ | hq
      · exact closerIndex?_lt hlater (Nat.succ_pos depth) hcloser hj
      · exact ih hlater hj hq
    · have hq := hq.resolve_left fun hhere => hopening hhere.1
      by_cases hclosing : t.kind = .closing q.delimiter.toDelimiter
      · cases depth with
        | zero =>
          rw [closerIndex?_closing_zero hclosing] at hj
          have hbehind := ((pairwise_countedPairs (index + 1) ts).2 q hq).1
          have hend := Option.some.inj hj
          omega
        | succ depth =>
          rw [closerIndex?_closing_succ hclosing] at hj
          exact ih hlater hj hq
      · rw [closerIndex?_other hopening hclosing] at hj
        exact ih hlater hj hq

/-- The pairs that counting finds among tokens nest. -/
theorem pairwise_nestsWith_countedPairs (h : ts <+: all.drop index) :
    (countedPairs index ts).Pairwise TokenPair.NestsWith := by
  induction ts generalizing index with
  | nil => exact .nil
  | cons t ts ih =>
    obtain ⟨-, hlater⟩ := getElem?_of_cons_prefix_drop h
    have hopeners := (pairwise_countedPairs index (t :: ts)).1
    rw [countedPairs] at hopeners ⊢
    cases hpair : pairAt? index t ts with
    | none => exact ih hlater
    | some q =>
      rw [hpair] at hopeners
      refine .cons ?_ (ih hlater)
      intro q' hq'
      obtain ⟨-, -, hcloser⟩ := mem_pairAt?.mp hpair
      refine ⟨(List.pairwise_cons.mp hopeners).1 q' hq', fun hdelimiter => ?_⟩
      rw [hdelimiter] at hcloser
      by_cases hapart : q.closer < q'.opener
      · exact .inl hapart
      · exact .inr (closer_lt_of_mem_countedPairs hlater hcloser hq' (Nat.le_of_not_lt hapart))

/-- A pair that counting finds among tokens is closed by one of them. -/
theorem closer_lt_length {q : TokenPair} (h : ts <+: all.drop index)
    (hq : q ∈ countedPairs index ts) : q.closer < index + ts.length := by
  have hprefix : ts <+: (all.take (index + ts.length)).drop index := by
    rw [List.drop_take, Nat.add_sub_cancel_left]
    exact List.prefix_take_iff.mpr ⟨h, Nat.le_refl _⟩
  obtain ⟨-, -, closer, -, hcloser, -⟩ := isMatched_of_mem_countedPairs hprefix hq
  obtain ⟨hlt, -⟩ := List.getElem?_eq_some_iff.mp hcloser
  rw [List.length_take] at hlt
  omega

end Counting

/-- The pairs of a list of tokens nest: those of one statement do, and those of different statements
are apart. -/
theorem pairwise_nestsWith_statementPairs {all : List Token} {index : Nat}
    {statements : List Statement} (h : all.drop index = statements.flatMap Statement.tokens) :
    (statementPairs index statements).Pairwise TokenPair.NestsWith := by
  induction statements generalizing index with
  | nil => exact .nil
  | cons s rest ih =>
    obtain ⟨hhere, hlater⟩ := prefix_drop_of_flatMap h
    rw [statementPairs]
    refine List.pairwise_append.mpr ⟨pairwise_nestsWith_countedPairs hhere, ih hlater, ?_⟩
    intro q hq q' hq'
    have hopener := ((pairwise_countedPairs index s.tokens).2 q hq).2
    have hcloser := closer_lt_length hhere hq
    have hbehind := (pairwise_statementPairs (index + s.tokens.length) rest).2 q' hq'
    exact ⟨by omega, fun _ => .inl (by omega)⟩

/-- Different delimiters of regions are different delimiters of tokens. -/
theorem FoldDelimiter.toDelimiter_injective : Function.Injective toDelimiter := by
  intro d d' h
  cases d with
  | brace =>
    cases d' with
    | brace => rfl
    | bracket => cases h
  | bracket =>
    cases d' with
    | brace => cases h
    | bracket => rfl

namespace TokenPair

/-- Pairs that nest have closing tokens of their own. -/
theorem NestsWith.closer_ne {all : List Token} {q q' : TokenPair} (h : q.NestsWith q')
    (hq : q.IsMatched all) (hq' : q'.IsMatched all) : q.closer ≠ q'.closer := by
  obtain ⟨-, -, closer, -, hcloser, -, hkind⟩ := hq
  obtain ⟨hlt, -, closer', -, hcloser', -, hkind'⟩ := hq'
  intro hsame
  rw [hsame] at hcloser
  obtain rfl := Option.some.inj (hcloser.symm.trans hcloser')
  have hpair := TokenKind.closing.inj (hkind.symm.trans hkind')
  have hnested := h.2 (FoldDelimiter.toDelimiter_injective hpair)
  omega

/-- The regions of pairs that nest are apart, or the first contains the second. -/
theorem NestsWith.regions {all : List Token} {line : Nat → Nat} {q q' : TokenPair} {f f' : Fold}
    (h : q.NestsWith q') (horder : InOrder all) (hspans : q.Spans all line f)
    (hspans' : q'.Spans all line f') (hdelimiter : f.delimiter = f'.delimiter) :
    f.stop ≤ f'.start ∨ f.contains f' = true := by
  obtain ⟨opener, closer, hi, hj, hd, hstart, hstop, -⟩ := hspans
  obtain ⟨opener', closer', hi', hj', hd', hstart', hstop', -⟩ := hspans'
  rcases h.2 (hd.symm.trans (hdelimiter.trans hd')) with hapart | hinside
  · have hends := horder.stop_le_start hapart hj hi'
    exact .inl (by omega)
  · have hopeners := horder.stop_le_start h.1 hi hi'
    have hclosers := horder.stop_le_start hinside hj' hj
    simp only [Token.stop] at hopeners hclosers hstop hstop'
    simp only [Fold.contains, Bool.and_eq_true, decide_eq_true_eq]
    exact .inr (by omega)

end TokenPair

/-- The pairs of tokens on different lines, in the order of their opening tokens. -/
def foldedPairs (tokens : List Token) (line : Nat → Nat) : List TokenPair :=
  (statementPairs 0 (segment tokens)).filter (TokenPair.isMultiline tokens line)

/-- Tokens that meet their contract have regions. Of two with the same delimiters, the later one starts
behind the end of the earlier one or lies inside it. No token closes two of the pairs that the regions
are made of. The script is taken to be shorter than the greatest offset that can be written down. -/
theorem regions_of_one_sort_nest {source : String} {tokens : List Token} (options : AnalysisOptions)
    (hlength : source.utf8ByteSize < maxOffset)
    (hcheck : checkTokens tokens source.utf8ByteSize = .ok ()) :
    ∃ folds, findFolds tokens (.ofText source.toList) options = .ok folds ∧
      folds.Pairwise (fun f g => f.delimiter = g.delimiter →
        f.stop ≤ g.start ∨ f.contains g = true) ∧
      List.Forall₂ (TokenPair.Spans tokens (lineAt source.toList))
        (foldedPairs tokens (lineAt source.toList)) folds ∧
      ((foldedPairs tokens (lineAt source.toList)).map TokenPair.closer).Nodup := by
  rw [← Text.byteLength_toList] at hlength hcheck
  have hinside := stop_le_of_checkTokens hlength hcheck
  have horder := inOrder_of_checkTokens hcheck (stop_le_maxOffset_of_checkFrom hlength hcheck)
  have hall : tokens.drop 0 = (segment tokens).flatMap Statement.tokens :=
    (segment_tokens tokens).symm
  have hspans := forall₂_statementPairs (lineAt source.toList) options hall
  have hnests : (foldedPairs tokens (lineAt source.toList)).Pairwise TokenPair.NestsWith :=
    (pairwise_nestsWith_statementPairs hall).filter _
  refine ⟨_, findFolds_eq_ok options hinside, ?_, hspans, ?_⟩
  · refine pairwise_of_forall₂ hspans hnests ?_
    intro q q' f f' hf hf' hnested hdelimiter
    exact hnested.regions horder hf hf' hdelimiter
  · refine List.pairwise_map.mpr (hnests.imp_of_mem ?_)
    intro q q' hq hq' hnested
    exact hnested.closer_ne (isMatched_of_mem_statementPairs hall (List.mem_filter.mp hq).1)
      (isMatched_of_mem_statementPairs hall (List.mem_filter.mp hq').1)

/-- Two blocks, one inside the other, that are closed by tokens without bytes at one offset. -/
def emptyClosers : List Token :=
  [⟨.opening .brace, "\x7b", 0, 1⟩, ⟨.opening .brace, "\x7b", 1, 1⟩, ⟨.newline, "\n", 2, 1⟩,
    ⟨.closing .brace, "", 3, 0⟩, ⟨.closing .brace, "", 3, 0⟩]

/-- Both regions end at the end of the script, the second inside the first, and each with a closing
token of its own. -/
theorem regions_nest_at_emptyClosers :
    "\x7b\x7b\n".utf8ByteSize < maxOffset ∧
      checkTokens emptyClosers "\x7b\x7b\n".utf8ByteSize = .ok () ∧
      ∃ folds, findFolds emptyClosers (.ofText "\x7b\x7b\n".toList) {} = .ok folds ∧
        folds.map (fun f => (f.start, f.stop)) = [(0, 3), (1, 3)] ∧
        folds.Pairwise (fun f g => f.delimiter = g.delimiter →
          f.stop ≤ g.start ∨ f.contains g = true) ∧
        (foldedPairs emptyClosers (lineAt "\x7b\x7b\n".toList)).map TokenPair.closer = [4, 3] := by
  have hlength : "\x7b\x7b\n".utf8ByteSize < maxOffset := by decide +kernel
  have hcheck : checkTokens emptyClosers "\x7b\x7b\n".utf8ByteSize = .ok () := by decide +kernel
  obtain ⟨folds, hfolds, hnested, -, -⟩ := regions_of_one_sort_nest {} hlength hcheck
  have hends : (findFolds emptyClosers (.ofText "\x7b\x7b\n".toList) {}).map
      (List.map fun f => (f.start, f.stop)) = .ok [(0, 3), (1, 3)] := by decide +kernel
  rw [hfolds] at hends
  exact ⟨hlength, hcheck, folds, hfolds, Except.ok.inj hends, hnested, by decide +kernel⟩

end ElvishOutline

import ElvishOutline.Fold
import ElvishOutline.Proofs.Partition

/-!
# Open delimiters, counted and matched

Segmentation counts the open delimiters of each sort from the start of a body, and a closing one
that finds none open leaves the count at zero. Folding counts from each opening delimiter on, until
the one that closes it. Both have the same delimiters open at every position of a body: the count is
the number of opening delimiters up to there that are not closed up to there.

So all delimiters are matched in a statement that is ended, which is every one but the last.
-/

namespace ElvishOutline

namespace Depth

/-- How many delimiters of a sort are open. -/
def count (depth : Depth) : Delimiter → Nat
  | .brace => depth.brace
  | .bracket => depth.bracket
  | .paren => depth.paren

/-- An opening delimiter changes the count of its own sort only. -/
theorem count_enter (depth : Depth) (pair other : Delimiter) :
    (depth.enter other).count pair =
      if other = pair then depth.count pair + 1 else depth.count pair := by
  cases other <;> cases pair <;> rfl

/-- A closing delimiter changes the count of its own sort only. -/
theorem count_leave (depth : Depth) (pair other : Delimiter) :
    (depth.leave other).count pair =
      if other = pair then depth.count pair - 1 else depth.count pair := by
  cases other <;> cases pair <;> rfl

/-- Nothing is open if no delimiter of any sort is. -/
theorem isZero_iff {depth : Depth} : depth.isZero = true ↔ ∀ pair, depth.count pair = 0 := by
  constructor
  · intro h pair
    rw [of_decide_eq_true h]
    cases pair <;> rfl
  · intro h
    obtain ⟨brace, bracket, paren⟩ := depth
    obtain rfl : brace = 0 := h .brace
    obtain rfl : bracket = 0 := h .bracket
    obtain rfl : paren = 0 := h .paren
    rfl

end Depth

section Steps

variable {pair : Delimiter} {depth : Depth} {n : Nat} {t : Token} {ts : List Token}

/-- An opening delimiter of the sort is one more open. -/
theorem Depth.count_step_opening (h : t.kind = .opening pair) :
    (depth.step t).count pair = depth.count pair + 1 := by
  rw [step, h, count_enter, if_pos rfl]

/-- A closing delimiter of the sort is one fewer open, unless none is. -/
theorem Depth.count_step_closing (h : t.kind = .closing pair) :
    (depth.step t).count pair = depth.count pair - 1 := by
  rw [step, h, count_leave, if_pos rfl]

/-- Other tokens leave the count of the sort as it is. -/
theorem Depth.count_step_other (hopening : t.kind ≠ .opening pair)
    (hclosing : t.kind ≠ .closing pair) : (depth.step t).count pair = depth.count pair := by
  unfold step
  split
  · next other hkind =>
    have hother : other ≠ pair := fun h => hopening (h ▸ hkind)
    rw [count_enter, if_neg hother]
  · next other hkind =>
    have hother : other ≠ pair := fun h => hclosing (h ▸ hkind)
    rw [count_leave, if_neg hother]
  · rfl

/-- The search has to close an opening delimiter of the sort first. -/
theorem closing?_opening (h : t.kind = .opening pair) :
    closing? pair n (t :: ts) = closing? pair (n + 1) ts := by
  rw [closing?.eq_def]
  simp only [if_pos h]

/-- The search ends at the first closing delimiter of the sort if nothing else is open. -/
theorem closing?_closing_zero (h : t.kind = .closing pair) :
    closing? pair 0 (t :: ts) = some t := by
  rw [closing?, if_neg (by rw [h]; exact TokenKind.noConfusion), if_pos h]

/-- A closing delimiter of the sort closes the innermost pair that the search has passed. -/
theorem closing?_closing_succ (h : t.kind = .closing pair) :
    closing? pair (n + 1) (t :: ts) = closing? pair n ts := by
  rw [closing?, if_neg (by rw [h]; exact TokenKind.noConfusion), if_pos h]

/-- The search passes over other tokens. -/
theorem closing?_other (hopening : t.kind ≠ .opening pair) (hclosing : t.kind ≠ .closing pair) :
    closing? pair n (t :: ts) = closing? pair n ts := by
  rw [closing?.eq_def]
  simp only [if_neg hopening, if_neg hclosing]

end Steps

/-- Whether the token at a position opens a pair that none of the tokens behind it closes. -/
def isUnclosedAt (pair : Delimiter) (ts : List Token) (i : Nat) : Bool :=
  ts[i]?.any (·.kind = .opening pair) && (closing? pair 0 (ts.drop (i + 1))).isNone

/-- How many of the tokens open a pair that none behind them closes. -/
def unclosedCount (pair : Delimiter) (ts : List Token) : Nat :=
  (List.range ts.length).countP (isUnclosedAt pair ts)

/-- A token in front of others adds a pair left open if it opens one that none of them closes. -/
theorem unclosedCount_cons (pair : Delimiter) (t : Token) (ts : List Token) :
    unclosedCount pair (t :: ts) = unclosedCount pair ts +
      if t.kind = .opening pair ∧ closing? pair 0 ts = none then 1 else 0 := by
  have hlater : isUnclosedAt pair (t :: ts) ∘ Nat.succ = isUnclosedAt pair ts := rfl
  have hfirst : isUnclosedAt pair (t :: ts) 0 = true ↔
      t.kind = .opening pair ∧ closing? pair 0 ts = none := by
    simp [isUnclosedAt]
  rw [unclosedCount, unclosedCount, List.length_cons, List.range_succ_eq_map, List.countP_cons,
    List.countP_map, hlater]
  simp only [hfirst]

/-- How many of the pairs open ahead of some tokens stay open behind them, when `n` are open and the
innermost is closed first. -/
def stillOpen (pair : Delimiter) (n : Nat) (ts : List Token) : Nat :=
  (List.range n).countP fun k => (closing? pair k ts).isNone

/-- If none is open, none stays open. -/
theorem stillOpen_zero (pair : Delimiter) (ts : List Token) : stillOpen pair 0 ts = 0 := rfl

/-- Without tokens, all that are open stay open. -/
theorem stillOpen_nil (pair : Delimiter) (n : Nat) : stillOpen pair n [] = n := by
  simp [stillOpen, closing?]

/-- Of the open pairs, the innermost is closed first, and the others behind it. -/
theorem stillOpen_succ (pair : Delimiter) (n : Nat) (ts : List Token) :
    stillOpen pair (n + 1) ts =
      (List.range n).countP (fun k => (closing? pair (k + 1) ts).isNone) +
        if closing? pair 0 ts = none then 1 else 0 := by
  rw [stillOpen, List.range_succ_eq_map, List.countP_cons, List.countP_map]
  simp only [Option.isNone_iff_eq_none]
  rfl

/-- The count behind some tokens: the pairs that they leave open, and those open ahead of them that
they do not close. -/
theorem count_after (pair : Delimiter) (depth : Depth) (ts : List Token) :
    (depth.after ts).count pair =
      unclosedCount pair ts + stillOpen pair (depth.count pair) ts := by
  induction ts generalizing depth with
  | nil => rw [stillOpen_nil, unclosedCount, List.length_nil, List.range_zero, List.countP_nil,
      Nat.zero_add, Depth.after, List.foldl_nil]
  | cons t ts ih =>
    rw [Depth.after_cons, ih, unclosedCount_cons]
    by_cases hopening : t.kind = .opening pair
    · -- The pair that the token opens is now the innermost of those open ahead of the rest.
      have hrest : stillOpen pair (depth.count pair) (t :: ts) =
          (List.range (depth.count pair)).countP (fun k => (closing? pair (k + 1) ts).isNone) := by
        simp only [stillOpen, closing?_opening hopening]
      rw [Depth.count_step_opening hopening, stillOpen_succ, hrest]
      simp only [hopening, true_and]
      omega
    · by_cases hclosing : t.kind = .closing pair
      · -- The token closes the innermost pair; where none is open, it closes nothing.
        have hrest : stillOpen pair (depth.count pair) (t :: ts) =
            stillOpen pair (depth.count pair - 1) ts := by
          cases depth.count pair with
          | zero => rfl
          | succ n =>
            rw [stillOpen_succ, closing?_closing_zero hclosing]
            simp only [closing?_closing_succ hclosing]
            rfl
        rw [Depth.count_step_closing hclosing, hrest]
        simp [hopening]
      · have hrest : stillOpen pair (depth.count pair) (t :: ts) =
            stillOpen pair (depth.count pair) ts := by
          simp only [stillOpen, closing?_other hopening hclosing]
        rw [Depth.count_step_other hopening hclosing, hrest]
        simp [hopening]

/-- Tokens at whose end nothing is open leave no pair open. -/
theorem isUnclosedAt_eq_false {ts : List Token} (h : (Depth.after {} ts).isZero = true)
    (pair : Delimiter) (i : Nat) : isUnclosedAt pair ts i = false := by
  have hcount := count_after pair {} ts
  rw [Depth.isZero_iff.mp h pair] at hcount
  have hnone : unclosedCount pair ts = 0 := by omega
  by_cases hi : i < ts.length
  · exact Bool.eq_false_iff.mpr (List.countP_eq_zero.mp hnone i (List.mem_range.mpr hi))
  · rw [isUnclosedAt, List.getElem?_eq_none (Nat.le_of_not_lt hi)]
    rfl

/-- A member that is not at the last position is among all but the last. -/
theorem mem_dropLast_of_getElem? {α : Type*} {xs : List α} {k : Nat} {x : α} (h : xs[k]? = some x)
    (hk : k + 1 ≠ xs.length) : x ∈ xs.dropLast := by
  obtain ⟨hlt, -⟩ := List.getElem?_eq_some_iff.mp h
  apply List.mem_of_getElem? (i := k)
  rw [List.getElem?_dropLast, if_pos (by omega), h]

/-- The tokens of the last statement are the last of all tokens. -/
theorem suffix_of_getLast?_segment {tokens : List Token} {s : Statement}
    (h : (segment tokens).getLast? = some s) : s.tokens <:+ tokens := by
  obtain ⟨before, hbefore⟩ := List.getLast?_eq_some_iff.mp h
  refine ⟨before.flatMap Statement.tokens, ?_⟩
  rw [← segment_tokens tokens, hbefore, List.flatMap_append, List.flatMap_singleton]

/-- At every position of a body, the delimiters of a sort that segmentation counts as open are as
many as those ahead of it that folding finds not closed. So every opening delimiter of a statement
is closed in it, except in a last one that runs to the end of the tokens and is not ended. -/
theorem depth_eq_unclosed_openers (tokens : List Token) (pair : Delimiter) :
    (∀ s ∈ segment tokens, ∀ n, (Depth.after {} (s.body.take n)).count pair =
      unclosedCount pair (s.body.take n)) ∧
    (∀ s ∈ (segment tokens).dropLast, ∀ i t, s.body[i]? = some t → t.kind = .opening pair →
      ∃ closer, closing? pair 0 (s.body.drop (i + 1)) = some closer) ∧
    ∀ k s i, (segment tokens)[k]? = some s → isUnclosedAt pair s.body i = true →
      k + 1 = (segment tokens).length ∧ s.tokens <:+ tokens ∧ ¬s.EndsBalanced := by
  refine ⟨?_, ?_, ?_⟩
  · intro s _ n
    have hcount := count_after pair {} (s.body.take n)
    have hzero : Depth.count {} pair = 0 := Depth.isZero_iff.mp rfl pair
    rwa [hzero, stillOpen_zero, Nat.add_zero] at hcount
  · intro s hs i t ht hopening
    have hclosed := isUnclosedAt_eq_false (endsBalanced_of_mem_dropLast hs).2 pair i
    rw [isUnclosedAt, ht, Option.any_some, decide_eq_true hopening, Bool.true_and] at hclosed
    exact Option.isSome_iff_exists.mp (Option.isNone_eq_false_iff.mp hclosed)
  · intro k s i hk hunclosed
    have hends : ¬s.EndsBalanced := by
      intro hbalanced
      rw [isUnclosedAt_eq_false hbalanced.2 pair i] at hunclosed
      cases hunclosed
    have hlast : k + 1 = (segment tokens).length := by
      by_contra hother
      exact hends (endsBalanced_of_mem_dropLast (mem_dropLast_of_getElem? hk hother))
    refine ⟨hlast, suffix_of_getLast?_segment ?_, hends⟩
    rw [List.getLast?_eq_getElem?, ← hlast, Nat.add_sub_cancel, hk]

/-- The brace of the block is closed in its statement, and the bracket in the last one is not. -/
theorem unclosed_of_blockAndBracket :
    (∃ s ∈ (segment blockAndBracket).dropLast, s.body.head?.map (·.kind) = some (.opening .brace) ∧
      ∃ closer, closing? .brace 0 (s.body.drop 1) = some closer) ∧
    ∃ s, (segment blockAndBracket)[1]? = some s ∧ isUnclosedAt .bracket s.body 0 = true ∧
      1 + 1 = (segment blockAndBracket).length ∧ s.tokens <:+ blockAndBracket ∧
      ¬s.EndsBalanced := by
  constructor
  · have hs : firstStatement blockAndBracket ∈ (segment blockAndBracket).dropLast := by
      decide +kernel
    have hbrace := (depth_eq_unclosed_openers blockAndBracket .brace).2.1 _ hs 0
      ⟨.opening .brace, "\x7b", 0, 1⟩ (by decide +kernel) rfl
    exact ⟨_, hs, by decide +kernel, hbrace⟩
  · have hs : (segment blockAndBracket)[1]? = some ⟨[], [⟨.opening .bracket, "[", 4, 1⟩]⟩ := by
      decide +kernel
    exact ⟨_, hs, rfl, (depth_eq_unclosed_openers blockAndBracket .bracket).2.2 1 _ 0 hs rfl⟩

end ElvishOutline

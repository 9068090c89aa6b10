import ElvishOutline.Proofs.Partition

/-!
# Segmentation of parts

The counts of open delimiters start afresh with every statement, so nothing of a statement reaches
into the one behind it. This holds of any tokens, whether their delimiters are balanced or not. Tokens
whose last statement is ended are cut as if nothing stood behind them, and what stands behind them as
if nothing stood ahead. The tokens of a single statement, cut out of the list, are that statement
again.

Both are cases of `segment_flatMap_tokens`: the statements in question are well cut, and all but the
last are ended.
-/

namespace ElvishOutline

/-- Tokens whose last statement, if there is one, is ended by a terminator outside all delimiters. -/
def IsEnded (tokens : List Token) : Prop :=
  tokens = [] ∨ ∃ s ∈ (segment tokens).getLast?, s.EndsBalanced

instance (tokens : List Token) : Decidable (IsEnded tokens) :=
  inferInstanceAs (Decidable (_ ∨ _))

section Parts

variable {xs ys : List Token}

/-- In ended tokens every statement is ended, the last one too. -/
theorem IsEnded.endsBalanced (h : IsEnded xs) {s : Statement} (hs : s ∈ segment xs) :
    s.EndsBalanced := by
  cases h with
  | inl hnil =>
    rw [hnil, segment] at hs
    cases hs
  | inr hlast =>
    obtain ⟨last, hlast, hends⟩ := hlast
    rw [← List.dropLast_append_getLast? last hlast] at hs
    cases List.mem_append.mp hs with
    | inl hahead => exact endsBalanced_of_mem_dropLast hahead
    | inr hlast =>
      rw [List.mem_singleton.mp hlast]
      exact hends

/-- The statements of ended tokens and of what stands behind them are those of the two together. -/
theorem IsEnded.segment_append (h : IsEnded xs) (ys : List Token) :
    segment (xs ++ ys) = segment xs ++ segment ys := by
  have htokens : (segment xs ++ segment ys).flatMap Statement.tokens = xs ++ ys := by
    rw [List.flatMap_append, segment_tokens, segment_tokens]
  rw [← htokens]
  apply segment_flatMap_tokens
  · intro s hs
    cases List.mem_append.mp hs with
    | inl hxs => exact isWellCut_of_mem_segment hxs
    | inr hys => exact isWellCut_of_mem_segment hys
  · -- The last statement of the first tokens is ahead of others only if there are others.
    intro s hs
    by_cases hys : segment ys = []
    · rw [hys, List.append_nil] at hs
      exact endsBalanced_of_mem_dropLast hs
    · rw [List.dropLast_append_of_ne_nil hys] at hs
      cases List.mem_append.mp hs with
      | inl hxs => exact h.endsBalanced hxs
      | inr hys => exact endsBalanced_of_mem_dropLast hys

/-- Tokens that are cut the same way in front of others are ended. -/
theorem isEnded_of_segment_append (hys : ys ≠ [])
    (h : segment (xs ++ ys) = segment xs ++ segment ys) : IsEnded xs := by
  by_cases hxs : xs = []
  · exact .inl hxs
  · have hne : segment xs ≠ [] := segment_eq_nil_iff.not.mpr hxs
    have hmem : (segment xs).getLast hne ∈ (segment (xs ++ ys)).dropLast := by
      rw [h, List.dropLast_append_of_ne_nil (segment_eq_nil_iff.not.mpr hys)]
      exact List.mem_append_left _ (List.getLast_mem hne)
    exact .inr ⟨_, List.getLast?_eq_some_getLast hne, endsBalanced_of_mem_dropLast hmem⟩

end Parts

/-- The tokens of a statement are cut into that statement alone. -/
theorem segment_tokens_of_mem {tokens : List Token} {s : Statement} (hs : s ∈ segment tokens) :
    segment s.tokens = [s] := by
  have hself : s.tokens = [s].flatMap Statement.tokens := (List.append_nil _).symm
  rw [hself]
  apply segment_flatMap_tokens
  · intro s' hs'
    rw [List.mem_singleton.mp hs']
    exact isWellCut_of_mem_segment hs
  · intro s' hs'
    cases hs'

namespace StatementRange

/-- The range moved to the right by `n` tokens. -/
def shift (n : Nat) (r : StatementRange) : StatementRange :=
  ⟨n + r.start, n + r.bodyStart, n + r.stop⟩

/-- The tokens at the positions of the range. -/
def slice (r : StatementRange) (tokens : List Token) : List Token :=
  (tokens.take r.stop).drop r.start

end StatementRange

/-- Ranges that are counted from a later position are moved to the right. -/
theorem rangesFrom_add (n index : Nat) (statements : List Statement) :
    rangesFrom (n + index) statements =
      (rangesFrom index statements).map (StatementRange.shift n) := by
  induction statements generalizing index with
  | nil => rfl
  | cons s rest ih => simp [rangesFrom, StatementRange.shift, ← ih, Nat.add_assoc]

/-- The ranges of further statements are counted from the end of the tokens ahead of them. -/
theorem rangesFrom_append (index : Nat) (first second : List Statement) :
    rangesFrom index (first ++ second) = rangesFrom index first ++
      rangesFrom (index + (first.flatMap Statement.tokens).length) second := by
  induction first generalizing index with
  | nil => rfl
  | cons s rest ih =>
    rw [List.cons_append, rangesFrom, ih, rangesFrom, List.cons_append, List.flatMap_cons,
      List.length_append, Statement.tokens, List.length_append, Nat.add_assoc, Nat.add_assoc,
      Nat.add_assoc]

/-- The slice at the range of a statement holds the tokens of the statement. -/
theorem Statement.StandsAt.slice_eq {tokens : List Token} {s : Statement} {r : StatementRange}
    (h : s.StandsAt tokens r) : r.slice tokens = s.tokens := by
  have hlength : r.stop - r.start = s.tokens.length := by
    rw [h.stop_eq, h.bodyStart_eq, Statement.tokens, List.length_append]
    omega
  rw [StatementRange.slice, List.drop_take, hlength]
  exact (List.prefix_iff_eq_take.mp h.prefix_drop).symm

/-- Statements stand at their ranges, one for one. -/
theorem forall₂_mem_standsAt (tokens : List Token) :
    List.Forall₂ (fun s r => s ∈ segment tokens ∧ s.StandsAt tokens r) (segment tokens)
      (rangesFrom 0 (segment tokens)) := by
  rw [List.forall₂_and_left]
  exact ⟨fun s hs => hs, forall₂_standsAt_rangesFrom (segment_tokens tokens).symm⟩

/-- Segmentation composes. Ended tokens and any tokens behind them are cut apart, with the ranges of
those behind counted from the end of the first; and only ended tokens are cut so in front of others.
The slice of any tokens at the range of a statement is cut into that statement alone, with its body
at the same distance from its start. -/
theorem segmentation_composes (xs ys tokens : List Token) :
    (IsEnded xs →
      segment (xs ++ ys) = segment xs ++ segment ys ∧
      rangesFrom 0 (segment (xs ++ ys)) = rangesFrom 0 (segment xs) ++
        (rangesFrom 0 (segment ys)).map (StatementRange.shift xs.length)) ∧
    (ys ≠ [] → segment (xs ++ ys) = segment xs ++ segment ys → IsEnded xs) ∧
    List.Forall₂
      (fun s r => segment (r.slice tokens) = [s] ∧
        (r.slice tokens).length = r.stop - r.start ∧
        rangesFrom 0 (segment (r.slice tokens)) = [⟨0, r.bodyStart - r.start, r.stop - r.start⟩])
      (segment tokens) (rangesFrom 0 (segment tokens)) := by
  refine ⟨?_, isEnded_of_segment_append, ?_⟩
  · intro h
    have happend := h.segment_append ys
    refine ⟨happend, ?_⟩
    rw [happend, rangesFrom_append, segment_tokens, Nat.zero_add, ← rangesFrom_add, Nat.add_zero]
  · refine (forall₂_mem_standsAt tokens).imp ?_
    intro s r hsr
    obtain ⟨hs, hrange⟩ := hsr
    have hbodyStart := hrange.bodyStart_eq
    have hstop := hrange.stop_eq
    have hlength : s.tokens.length = s.leading.length + s.body.length := List.length_append
    rw [hrange.slice_eq, segment_tokens_of_mem hs]
    refine ⟨rfl, by omega, ?_⟩
    simp only [rangesFrom, Nat.zero_add, List.cons.injEq, StatementRange.mk.injEq, and_true,
      true_and]
    omega

/-- A closing brace that nothing opens, on a line of its own. -/
def strayBraceLine : List Token :=
  [⟨.closing .brace, "\x7d", 0, 1⟩, ⟨.newline, "\n", 1, 1⟩]

/-- The line with the stray brace is ended, so that an open bracket behind it starts a statement, with
the blank ahead of it. -/
theorem segmentation_behind_stray_brace :
    IsEnded strayBraceLine ∧
      rangesFrom 0 (segment
        (strayBraceLine ++ [⟨.blank, " ", 2, 1⟩, ⟨.opening .bracket, "[", 3, 1⟩])) =
          [⟨0, 0, 2⟩, ⟨2, 3, 4⟩] := by
  have hended : IsEnded strayBraceLine := by decide +kernel
  obtain ⟨hcompose, -, -⟩ := segmentation_composes strayBraceLine
    [⟨.blank, " ", 2, 1⟩, ⟨.opening .bracket, "[", 3, 1⟩] []
  refine ⟨hended, (hcompose hended).2.trans ?_⟩
  decide +kernel

end ElvishOutline

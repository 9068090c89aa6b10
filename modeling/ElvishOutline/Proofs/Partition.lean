import Mathlib.Data.List.Chain
import Mathlib.Data.List.Forall2
import ElvishOutline.Proofs.Segmentation

/-!
# Statements partition the tokens

Any list of tokens is cut into statements without a gap: each has a token, starts where the one
ahead of it ends, and holds its blanks ahead of its body. The cuts are the terminators outside all
delimiters. Inside a body there is none but at its end, and every statement but the last ends with
one, so that only the last can be blank.

`segment_flatMap_tokens` says that no other list of statements has these properties.
-/

namespace ElvishOutline

section Runs

variable {tokens : List Token} {s : Statement}

/-- All statements that segmentation cuts are well cut. -/
theorem isWellCut_of_mem_segment (hs : s ∈ segment tokens) : s.IsWellCut := by
  induction tokens using segment.induct with
  | case1 =>
    rw [segment] at hs
    cases hs
  | case2 t ts ih =>
    rw [segment] at hs
    rcases List.mem_cons.mp hs with rfl | hs
    · exact isWellCut_firstStatement t ts
    · exact ih hs

/-- There are no statements only if there are no tokens. -/
@[simp] theorem segment_eq_nil_iff : segment tokens = [] ↔ tokens = [] := by
  cases tokens with
  | nil => simp [segment]
  | cons t ts => simp [segment]

/-- A statement that others follow is ended by a terminator outside all delimiters. -/
theorem endsBalanced_of_mem_dropLast (hs : s ∈ (segment tokens).dropLast) : s.EndsBalanced := by
  induction tokens using segment.induct with
  | case1 =>
    rw [segment] at hs
    cases hs
  | case2 t ts ih =>
    rw [segment] at hs
    by_cases hafter : afterStatement (t :: ts) = []
    · rw [segment_eq_nil_iff.mpr hafter] at hs
      cases hs
    · rw [List.dropLast_cons_of_ne_nil (segment_eq_nil_iff.not.mpr hafter)] at hs
      rcases List.mem_cons.mp hs with rfl | hs
      · exact endsBalanced_firstStatement hafter
      · exact ih hs

end Runs

/-- Statements that are well cut, and ended unless they are the last, are those of their tokens. -/
theorem segment_flatMap_tokens {statements : List Statement}
    (hcut : ∀ s ∈ statements, s.IsWellCut) (hends : ∀ s ∈ statements.dropLast, s.EndsBalanced) :
    segment (statements.flatMap Statement.tokens) = statements := by
  induction statements with
  | nil => rw [List.flatMap_nil, segment]
  | cons s rest ih =>
    have hs := hcut s List.mem_cons_self
    have hrest := ih (fun s' hs' => hcut s' (List.mem_cons_of_mem s hs')) fun s' hs' => by
      apply hends
      rw [List.dropLast_cons_of_ne_nil (by rintro rfl; cases hs')]
      exact List.mem_cons_of_mem s hs'
    have hend : rest.flatMap Statement.tokens = [] ∨ s.EndsBalanced := by
      cases rest with
      | nil => exact .inl rfl
      | cons s' rest' => exact .inr (hends s List.mem_cons_self)
    obtain ⟨hfirst, hafter⟩ := firstStatement_tokens_append hs _ hend
    obtain ⟨t, ts, htokens⟩ := List.exists_cons_of_ne_nil
      (List.append_ne_nil_of_left_ne_nil hs.tokens_ne_nil (rest.flatMap Statement.tokens))
    rw [List.flatMap_cons, htokens, segment, ← htokens, hfirst, hafter, hrest]

/-- No terminator outside all delimiters stands inside the body of a statement, other than as its
last token, and the body of every statement but the last ends with one. -/
theorem segment_cut_at_terminators (tokens : List Token) :
    (∀ s ∈ segment tokens, ∀ i t, s.body[i]? = some t → i + 1 < s.body.length →
      t.isTerminator = true → (Depth.after {} (s.body.take (i + 1))).isZero = false) ∧
    ∀ s ∈ (segment tokens).dropLast, ∃ t, s.body.getLast? = some t ∧ t.isTerminator = true ∧
      (Depth.after {} s.body).isZero = true := by
  constructor
  · intro s hs
    exact (isWellCut_of_mem_segment hs).unbroken
  · intro s hs
    obtain ⟨⟨t, ht, hterminator⟩, hzero⟩ := endsBalanced_of_mem_dropLast hs
    exact ⟨t, ht, hterminator, hzero⟩

/-- A block on two lines with a semicolon behind it, and a bracket that is not closed. -/
def blockAndBracket : List Token :=
  [⟨.opening .brace, "\x7b", 0, 1⟩, ⟨.newline, "\n", 1, 1⟩, ⟨.closing .brace, "\x7d", 2, 1⟩,
    ⟨.semicolon, ";", 3, 1⟩, ⟨.opening .bracket, "[", 4, 1⟩]

/-- The line end inside the block does not cut it, and the semicolon does. -/
theorem cut_of_blockAndBracket :
    ∃ s ∈ (segment blockAndBracket).dropLast, s.body[1]? = some ⟨.newline, "\n", 1, 1⟩ ∧
      1 + 1 < s.body.length ∧ (Depth.after {} (s.body.take 2)).isZero = false ∧
      ∃ t, s.body.getLast? = some t ∧ t.isTerminator = true ∧
        (Depth.after {} s.body).isZero = true := by
  obtain ⟨hinside, hend⟩ := segment_cut_at_terminators blockAndBracket
  have hs : firstStatement blockAndBracket ∈ (segment blockAndBracket).dropLast := by
    decide +kernel
  have htoken : (firstStatement blockAndBracket).body[1]? = some ⟨.newline, "\n", 1, 1⟩ := by
    decide +kernel
  have hlength : 1 + 1 < (firstStatement blockAndBracket).body.length := by decide +kernel
  refine ⟨_, hs, htoken, hlength, ?_, hend _ hs⟩
  exact hinside _ (List.dropLast_subset _ hs) 1 _ htoken hlength rfl

/-- A statement that holds the tokens at a range of positions. -/
structure Statement.StandsAt (all : List Token) (s : Statement) (r : StatementRange) : Prop where
  bodyStart_eq : r.bodyStart = r.start + s.leading.length
  stop_eq : r.stop = r.bodyStart + s.body.length
  prefix_drop : s.tokens <+: all.drop r.start

section Ranges

variable {all : List Token} {index : Nat} {statements : List Statement}

/-- The ranges of statements that cover the tokens from a position on are where they stand. -/
theorem forall₂_standsAt_rangesFrom (h : all.drop index = statements.flatMap Statement.tokens) :
    List.Forall₂ (Statement.StandsAt all) statements (rangesFrom index statements) := by
  induction statements generalizing index with
  | nil => exact .nil
  | cons s rest ih =>
    obtain ⟨hhere, hlater⟩ := prefix_drop_of_flatMap h
    refine .cons ⟨rfl, rfl, hhere⟩ (ih ?_)
    rw [← hlater, Statement.tokens, List.length_append, Nat.add_assoc]

/-- The first range starts at the position given. -/
theorem start_of_head?_rangesFrom {r : StatementRange}
    (h : r ∈ (rangesFrom index statements).head?) : r.start = index := by
  cases statements with
  | nil => cases h
  | cons s rest => rw [← Option.some.inj h]

/-- Each range starts where the one ahead of it ends. -/
theorem isChain_rangesFrom (index : Nat) (statements : List Statement) :
    (rangesFrom index statements).IsChain fun r next => r.stop = next.start := by
  induction statements generalizing index with
  | nil => exact .nil
  | cons s rest ih =>
    exact List.isChain_cons.mpr ⟨fun r hr => (start_of_head?_rangesFrom hr).symm, ih _⟩

/-- The last range ends behind as many tokens as the statements have. -/
theorem stop_of_getLast?_rangesFrom {r : StatementRange}
    (h : r ∈ (rangesFrom index statements).getLast?) :
    r.stop = index + (statements.flatMap Statement.tokens).length := by
  induction statements generalizing index with
  | nil => cases h
  | cons s rest ih =>
    rw [List.flatMap_cons, List.length_append, Statement.tokens, List.length_append]
    cases rest with
    | nil =>
      obtain rfl : _ = r := Option.some.inj h
      simp [rangesFrom, Nat.add_assoc]
    | cons s' rest =>
      have hlater := ih h
      omega

end Ranges

/-- A range of positions as a statement takes it: it is not empty, and the tokens up to its body, but
not the first of the body, are blanks. -/
structure StatementRange.IsPlaced (all : List Token) (r : StatementRange) : Prop where
  start_lt_stop : r.start < r.stop
  start_le_bodyStart : r.start ≤ r.bodyStart
  bodyStart_le_stop : r.bodyStart ≤ r.stop
  blanks : ∀ i, r.start ≤ i → i < r.bodyStart → ∃ t, all[i]? = some t ∧ t.isTrivia = true
  body : r.bodyStart < r.stop → ∃ t, all[r.bodyStart]? = some t ∧ t.isTrivia = false

namespace Statement.StandsAt

variable {all : List Token} {s : Statement} {r : StatementRange}

/-- The tokens from the start of a range on are first those of the statement that stands there. -/
theorem getElem?_eq (h : s.StandsAt all r) {i : Nat} (hi : i < s.tokens.length) :
    all[r.start + i]? = s.tokens[i]? := by
  obtain ⟨rest, hrest⟩ := h.prefix_drop
  rw [← List.getElem?_drop, ← hrest, List.getElem?_append_left hi]

/-- The range of a well-cut statement is not empty, with blanks up to its body and none at the start
of it. -/
theorem isPlaced (h : s.StandsAt all r) (hs : s.IsWellCut) : r.IsPlaced all := by
  have hbodyStart := h.bodyStart_eq
  have hstop := h.stop_eq
  have hlength : s.tokens.length = s.leading.length + s.body.length := List.length_append
  have hpos : 0 < s.tokens.length := List.length_pos_iff.mpr hs.tokens_ne_nil
  refine ⟨by omega, by omega, by omega, ?_, ?_⟩
  · intro i hstart hbody
    have hi : i - r.start < s.leading.length := by omega
    have htoken := h.getElem?_eq (i := i - r.start) (by omega)
    rw [Nat.add_sub_cancel' hstart, Statement.tokens, List.getElem?_append_left hi,
      List.getElem?_eq_getElem hi] at htoken
    exact ⟨_, htoken, hs.leading _ (List.getElem_mem hi)⟩
  · intro hbody
    have hi : 0 < s.body.length := by omega
    have htoken := h.getElem?_eq (i := s.leading.length) (by omega)
    rw [← hbodyStart, Statement.tokens, List.getElem?_append_right (Nat.le_refl _), Nat.sub_self,
      List.getElem?_eq_getElem hi] at htoken
    exact ⟨_, htoken, hs.head_body _ (List.head?_eq_getElem?.trans (List.getElem?_eq_getElem hi))⟩

end Statement.StandsAt

/-- Ranges that split a list of tokens without a gap, each as a statement takes it, all but the last
with a body. -/
structure IsPartition (all : List Token) (ranges : List StatementRange) : Prop where
  eq_nil_iff : ranges = [] ↔ all = []
  start_of_first : ∀ r ∈ ranges.head?, r.start = 0
  contiguous : ranges.IsChain fun r next => r.stop = next.start
  stop_of_last : ∀ r ∈ ranges.getLast?, r.stop = all.length
  isPlaced : ∀ r ∈ ranges, r.IsPlaced all
  body_of_not_last : ∀ r ∈ ranges.dropLast, r.bodyStart < r.stop

/-- What stands in the second of two related lists is related to a member of the first. -/
theorem exists_mem_of_forall₂ {α β : Type*} {R : α → β → Prop} {xs : List α} {ys : List β}
    (h : List.Forall₂ R xs ys) {y : β} (hy : y ∈ ys) : ∃ x ∈ xs, R x y := by
  induction h with
  | nil => cases hy
  | cons hxy _ ih =>
    rcases List.mem_cons.mp hy with rfl | hy
    · exact ⟨_, List.mem_cons_self, hxy⟩
    · obtain ⟨x, hx, hxy⟩ := ih hy
      exact ⟨x, List.mem_cons_of_mem _ hx, hxy⟩

/-- What holds between members of a list, in their order, carries over to a list related to it. -/
theorem pairwise_of_forall₂ {α β : Type*} {R : α → β → Prop} {S : α → α → Prop} {T : β → β → Prop}
    {xs : List α} {ys : List β} (hrelated : List.Forall₂ R xs ys) (hpairwise : xs.Pairwise S)
    (hstep : ∀ x x' y y', R x y → R x' y' → S x x' → T y y') : ys.Pairwise T := by
  induction hrelated with
  | nil => exact .nil
  | cons hxy hrest ih =>
    obtain ⟨hfirst, hlater⟩ := List.pairwise_cons.mp hpairwise
    refine .cons ?_ (ih hlater)
    intro y' hy'
    obtain ⟨x', hx', hxy'⟩ := exists_mem_of_forall₂ hrest hy'
    exact hstep _ _ _ _ hxy hxy' (hfirst x' hx')

/-- The ranges of the statements of any list of tokens partition it, and each statement holds the
tokens of its range. -/
theorem ranges_partition_tokens (tokens : List Token) :
    IsPartition tokens (rangesFrom 0 (segment tokens)) ∧
      List.Forall₂ (Statement.StandsAt tokens) (segment tokens)
        (rangesFrom 0 (segment tokens)) := by
  have hstands : List.Forall₂ (Statement.StandsAt tokens) (segment tokens)
      (rangesFrom 0 (segment tokens)) := forall₂_standsAt_rangesFrom (segment_tokens tokens).symm
  refine ⟨⟨?_, ?_, isChain_rangesFrom 0 _, ?_, ?_, ?_⟩, hstands⟩
  · rw [← List.length_eq_zero_iff, ← hstands.length_eq, List.length_eq_zero_iff,
      segment_eq_nil_iff]
  · intro r hr
    exact start_of_head?_rangesFrom hr
  · intro r hr
    rw [stop_of_getLast?_rangesFrom hr, segment_tokens, Nat.zero_add]
  · intro r hr
    obtain ⟨s, hs, hrange⟩ := exists_mem_of_forall₂ hstands hr
    exact hrange.isPlaced (isWellCut_of_mem_segment hs)
  · intro r hr
    rw [List.dropLast_eq_take, ← hstands.length_eq] at hr
    obtain ⟨s, hs, hrange⟩ := exists_mem_of_forall₂ (List.forall₂_take _ hstands) hr
    rw [← List.dropLast_eq_take] at hs
    have hbody := List.length_pos_iff.mpr (endsBalanced_of_mem_dropLast hs).ne_nil
    rw [hrange.stop_eq]
    omega

end ElvishOutline

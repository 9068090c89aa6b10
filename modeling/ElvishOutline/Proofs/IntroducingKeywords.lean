import ElvishOutline.Proofs.LocalFolds
import ElvishOutline.Proofs.Matching

/-!
# The keyword that introduces a brace

A keyword introduces a brace if it stands ahead of it in the same statement, and nothing but blanks,
line ends, identifiers, variables and closing parentheses stands between the two. The brace then opens
the block of that keyword. A brace that no keyword introduces opens a lambda.

The rule speaks of positions among all tokens, while the context of a brace is found by going back
from it, one token at a time. `introduces_succ_iff` and the lemmas on `BraceRole.ofPreceding` say what
one more token ahead of the brace does to either; the two agree for any stretch of tokens. In a
statement it makes no difference whether the stretch starts with its blanks or with its body.
-/

namespace ElvishOutline

/-- The kinds of tokens that may stand between a keyword and the brace that it introduces. -/
def interveningKinds : List TokenKind :=
  [.blank, .newline, .identifier, .closing .paren, .variableName]

/-- The keyword of a block at position `j` introduces what stands at position `i`. -/
structure Introduces (tokens : List Token) (b : BlockKind) (j i : Nat) : Prop where
  lt : j < i
  keyword : ∃ t ∈ tokens[j]?, t.kind = .keyword (.block b)
  between : ∀ l, j < l → l < i → ∃ t ∈ tokens[l]?, t.kind ∈ interveningKinds

/-- The tokens from one position up to another, those next to the latter first. -/
def precedingTokens (tokens : List Token) (start i : Nat) : List Token :=
  ((tokens.take i).drop start).reverse

section Search

variable {tokens : List Token} {b : BlockKind} {t : Token} {start i j : Nat}

/-- One more token ahead of a position is the keyword itself, or it may intervene and the keyword
stands further ahead. -/
theorem introduces_succ_iff (ht : tokens[i]? = some t) :
    Introduces tokens b j (i + 1) ↔
      j = i ∧ t.kind = .keyword (.block b) ∨
        t.kind ∈ interveningKinds ∧ Introduces tokens b j i := by
  constructor
  · intro h
    by_cases hj : j = i
    · obtain ⟨u, hu, hkeyword⟩ := h.keyword
      rw [hj, ht] at hu
      obtain rfl := Option.some.inj hu
      exact .inl ⟨hj, hkeyword⟩
    · have hlt : j < i := by have := h.lt; omega
      obtain ⟨u, hu, hkind⟩ := h.between i hlt (Nat.lt_succ_self i)
      rw [ht] at hu
      obtain rfl := Option.some.inj hu
      exact .inr ⟨hkind, hlt, h.keyword, fun l hjl hli => h.between l hjl (by omega)⟩
  · rintro (⟨rfl, hkeyword⟩ | ⟨hkind, h⟩)
    · exact ⟨Nat.lt_succ_self j, ⟨t, ht, hkeyword⟩, fun l hjl hli => by omega⟩
    · refine ⟨Nat.lt_succ_of_lt h.lt, h.keyword, fun l hjl hli => ?_⟩
      by_cases hl : l = i
      · exact ⟨t, hl ▸ ht, hkind⟩
      · exact h.between l hjl (by omega)

/-- No token of a statement precedes its first one. -/
@[simp] theorem precedingTokens_self : precedingTokens tokens start start = [] := by
  rw [precedingTokens, List.drop_eq_nil_of_le (List.length_take_le ..), List.reverse_nil]

/-- A token precedes the next one, with all that precede itself behind it. -/
theorem precedingTokens_succ (hstart : start ≤ i) (ht : tokens[i]? = some t) :
    precedingTokens tokens start (i + 1) = t :: precedingTokens tokens start i := by
  have hi : i < tokens.length := (List.getElem?_eq_some_iff.mp ht).1
  have htaken : start ≤ (tokens.take i).length := by
    rw [List.length_take]
    omega
  rw [precedingTokens, List.take_add_one, ht, List.drop_append_of_le_length htaken,
    List.reverse_append]
  rfl

/-- The kinds that introduce a block are the keywords of blocks. -/
theorem TokenKind.block?_eq_some_iff {kind : TokenKind} :
    kind.block? = some b ↔ kind = .keyword (.block b) := by
  constructor
  · intro h
    unfold block? at h
    split at h
    · rw [Option.some.inj h]
    · cases h
  · rintro rfl
    rfl

namespace BraceRole

/-- The search passes over the tokens that may intervene, and over no others. -/
theorem isTransparent_iff : isTransparent t = true ↔ t.kind ∈ interveningKinds := by
  unfold isTransparent interveningKinds
  split
  · next h => simp [h]
  · next h => simp [h]
  · next h => simp [h]
  · next hidentifier hvariable hparen =>
    cases hkind : t.kind <;> simp_all [TokenKind.isTrivia]

/-- A token of a kind that may stand between the keyword and its brace is passed over. -/
theorem ofPreceding_cons_of_mem (h : t.kind ∈ interveningKinds) (ts : List Token) :
    ofPreceding (t :: ts) = ofPreceding ts := by
  rw [ofPreceding, List.dropWhile_cons_of_pos (isTransparent_iff.mpr h), ofPreceding]

/-- The search ends at a token that may not intervene, with success if it is a keyword. -/
theorem ofPreceding_cons_eq_block_iff (h : t.kind ∉ interveningKinds) {ts : List Token} :
    ofPreceding (t :: ts) = block b ↔ t.kind = .keyword (.block b) := by
  rw [ofPreceding, List.dropWhile_cons_of_neg (isTransparent_iff.not.mpr h),
    ← TokenKind.block?_eq_some_iff]
  dsimp only
  cases t.kind.block? <;> simp

/-- A context that is looked for is that of a block or a lambda. -/
theorem ofPreceding_eq_lambda_iff {ts : List Token} :
    ofPreceding ts = lambda ↔ ∀ b, ofPreceding ts ≠ block b := by
  unfold ofPreceding
  cases ts.dropWhile isTransparent with
  | nil => simp
  | cons t rest =>
    dsimp only
    cases t.kind.block? <;> simp

/-- The search over a stretch of tokens finds the keyword in it that introduces what stands behind. -/
theorem ofPreceding_eq_block_iff (hstart : start ≤ i) (hi : i ≤ tokens.length) :
    ofPreceding (precedingTokens tokens start i) = block b ↔
      ∃ j, start ≤ j ∧ Introduces tokens b j i := by
  -- The stretch grows at its end, next to the brace, where the search begins.
  induction i, hstart using Nat.le_induction with
  | base =>
    rw [precedingTokens_self]
    constructor
    · intro h
      cases h
    · rintro ⟨j, hj, h⟩
      exact absurd h.lt (Nat.not_lt.mpr hj)
  | succ i hstart ih =>
    have ht : tokens[i]? = some tokens[i] := List.getElem?_eq_getElem hi
    simp only [precedingTokens_succ hstart ht, introduces_succ_iff ht]
    -- The last token either leaves both sides as they were or decides both.
    by_cases hkind : tokens[i].kind ∈ interveningKinds
    · rw [ofPreceding_cons_of_mem hkind, ih (Nat.le_of_succ_le hi)]
      have hother : tokens[i].kind ≠ .keyword (.block b) := by
        intro hkeyword
        rw [hkeyword] at hkind
        simp [interveningKinds] at hkind
      simp only [hkind, hother, and_false, false_or, true_and]
    · rw [ofPreceding_cons_eq_block_iff hkind]
      simp only [hkind, false_and, or_false]
      constructor
      · intro hkeyword
        exact ⟨i, hstart, rfl, hkeyword⟩
      · rintro ⟨j, -, -, hkeyword⟩
        exact hkeyword

end BraceRole

/-- A keyword in a statement that introduces something stands in the body. -/
theorem StatementRange.IsPlaced.bodyStart_le_of_introduces {r : StatementRange}
    (hr : r.IsPlaced tokens) (hj : r.start ≤ j) (h : Introduces tokens b j i) :
    r.bodyStart ≤ j := by
  by_contra hbody
  obtain ⟨t, ht, hblank⟩ := hr.blanks j hj (Nat.lt_of_not_le hbody)
  obtain ⟨u, hu, hkeyword⟩ := h.keyword
  rw [ht] at hu
  obtain rfl := Option.some.inj hu
  rw [Token.isTrivia, hkeyword] at hblank
  cases hblank

end Search

section Regions

variable {ends : Token → Nat} {lookup : LineLookup} {options : AnalysisOptions} {f : Fold}

/-- The region of a pair starts with its opening token and has the context of the pair. -/
theorem labels_of_regionOf {pair : FoldDelimiter} {preceding following : List Token}
    {opener closer : Token}
    (h : regionOf ends lookup options pair preceding opener following closer = .ok (some f)) :
    f.delimiter = pair ∧ f.start = opener.start ∧
      f.context = contextOf options pair preceding := by
  simp only [regionOf, bind, Except.bind] at h
  split at h
  · cases h
  · split at h
    · cases h
    · split at h
      · cases h
      · cases h
        exact ⟨rfl, rfl, rfl⟩

/-- A region opens where its opening delimiter starts, with the context that the preceding tokens
give. -/
theorem opening_of_regionAt {preceding following : List Token} {t : Token}
    (h : regionAt ends lookup options preceding t following = .ok (some f)) :
    t.kind = .opening f.delimiter.toDelimiter ∧ f.start = t.start ∧
      f.context = contextOf options f.delimiter preceding := by
  unfold regionAt at h
  split at h
  · cases h
  · next pair hpair =>
    split at h
    · cases h
    · obtain ⟨rfl, hstart, hcontext⟩ := labels_of_regionOf h
      exact ⟨ofOpening?_eq_some_iff.mp hpair, hstart, hcontext⟩

/-- A region of a statement is that of one of its tokens, between those ahead of it and behind it. -/
theorem exists_regionAt_of_mem_statementFolds {preceding ts : List Token} {folds : List Fold}
    (h : statementFolds ends lookup options preceding ts = .ok folds) (hf : f ∈ folds) :
    ∃ before t after, ts = before ++ t :: after ∧
      regionAt ends lookup options (before.reverse ++ preceding) t after = .ok (some f) := by
  induction ts generalizing preceding folds with
  | nil =>
    cases h
    cases hf
  | cons t ts ih =>
    simp only [statementFolds, bind, Except.bind] at h
    split at h
    · cases h
    · next here hhere =>
      split at h
      · cases h
      · next later hlater =>
        obtain rfl := Except.ok.inj h
        rcases List.mem_append.mp hf with hf | hf
        · refine ⟨[], t, ts, rfl, ?_⟩
          rw [Option.mem_toList.mp hf] at hhere
          exact hhere
        · obtain ⟨before, u, after, rfl, hregion⟩ := ih hlater hf
          refine ⟨t :: before, u, after, rfl, ?_⟩
          rw [List.reverse_cons, List.append_assoc]
          exact hregion

/-- A region of any tokens is that of a token in one of their statements. -/
theorem exists_regionAt_of_mem_folds {tokens : List Token} {folds : List Fold}
    (h : findFoldsWith ends tokens lookup options = .ok folds) (hf : f ∈ folds) :
    ∃ s ∈ segment tokens, ∃ before t after, s.tokens = before ++ t :: after ∧
      regionAt ends lookup options before.reverse t after = .ok (some f) := by
  obtain ⟨parts, hparts, rfl⟩ := foldStatements_eq_ok_iff.mp h
  obtain ⟨part, hpart, hfpart⟩ := List.mem_flatten.mp hf
  have hmem : Except.ok part ∈ (segment tokens).map
      fun s => statementFolds ends lookup options [] s.tokens := by
    rw [hparts]
    exact List.mem_map_of_mem hpart
  obtain ⟨s, hs, hfolds⟩ := List.mem_map.mp hmem
  obtain ⟨before, t, after, htokens, hregion⟩ :=
    exists_regionAt_of_mem_statementFolds hfolds hfpart
  rw [List.append_nil] at hregion
  exact ⟨s, hs, before, t, after, htokens, hregion⟩

/-- The range of a statement ends among the tokens that it is a range of. -/
theorem Statement.StandsAt.stop_le {tokens : List Token} {s : Statement} {r : StatementRange}
    (h : s.StandsAt tokens r) (hs : s.IsWellCut) : r.stop ≤ tokens.length := by
  have hpos : 0 < s.tokens.length := List.length_pos_iff.mpr hs.tokens_ne_nil
  have hlength : s.tokens.length = s.leading.length + s.body.length := List.length_append
  have hfits := h.prefix_drop.length_le
  rw [List.length_drop] at hfits
  rw [h.stop_eq, h.bodyStart_eq]
  omega

/-- Where a token of a statement stands among all tokens, and what precedes it in the statement. -/
theorem Statement.StandsAt.precedingTokens_eq {tokens : List Token} {s : Statement}
    {r : StatementRange} (h : s.StandsAt tokens r) {before after : List Token} {t : Token}
    (htokens : s.tokens = before ++ t :: after) :
    r.start + before.length < r.stop ∧ tokens[r.start + before.length]? = some t ∧
      precedingTokens tokens r.start (r.start + before.length) = before.reverse := by
  have hlength : s.tokens.length = s.leading.length + s.body.length := List.length_append
  have hbefore : before.length < s.tokens.length := by
    rw [htokens, List.length_append, List.length_cons]
    omega
  refine ⟨?_, ?_, ?_⟩
  · rw [h.stop_eq, h.bodyStart_eq]
    omega
  · rw [h.getElem?_eq hbefore, htokens, List.getElem?_append_right (Nat.le_refl _), Nat.sub_self]
    rfl
  · obtain ⟨rest, hrest⟩ := h.prefix_drop
    rw [precedingTokens, List.drop_take, Nat.add_sub_cancel_left, ← hrest, htokens,
      List.append_assoc, List.take_left]

end Regions

/-- At every position of a statement, and so at every brace, the context that is looked for is that of
a block exactly if its keyword stands in the body and introduces the position, and it is a lambda
exactly if no keyword does. Unless contexts are left open, the region of a brace reports the one that
is looked for at the position of the brace in its statement, whatever the ends of tokens and the lines
are taken to be. -/
theorem brace_role_iff_introduced (tokens : List Token) :
    (∀ r ∈ rangesFrom 0 (segment tokens), ∀ i, r.start ≤ i → i < r.stop →
      (∀ b, BraceRole.ofPreceding (precedingTokens tokens r.start i) = .block b ↔
        ∃ j, r.bodyStart ≤ j ∧ Introduces tokens b j i) ∧
      (BraceRole.ofPreceding (precedingTokens tokens r.start i) = .lambda ↔
        ¬∃ b j, r.bodyStart ≤ j ∧ Introduces tokens b j i)) ∧
    ∀ ends lookup options folds, options.fast = false →
      findFoldsWith ends tokens lookup options = .ok folds → ∀ f ∈ folds, f.delimiter = .brace →
        ∃ r ∈ rangesFrom 0 (segment tokens), ∃ i t, r.start ≤ i ∧ i < r.stop ∧
          tokens[i]? = some t ∧ t.kind = .opening .brace ∧ f.start = t.start ∧
          f.context = some (.ofPreceding (precedingTokens tokens r.start i)) := by
  constructor
  · intro r hr i hstart hstop
    obtain ⟨s, -, hs, hrange⟩ := exists_mem_of_forall₂ (forall₂_mem_standsAt tokens) hr
    have hcut := isWellCut_of_mem_segment hs
    have hplaced := hrange.isPlaced hcut
    have hi : i ≤ tokens.length := Nat.le_trans (Nat.le_of_lt hstop) (hrange.stop_le hcut)
    have hblock (b : BlockKind) :
        BraceRole.ofPreceding (precedingTokens tokens r.start i) = .block b ↔
          ∃ j, r.bodyStart ≤ j ∧ Introduces tokens b j i := by
      rw [BraceRole.ofPreceding_eq_block_iff hstart hi]
      constructor
      · rintro ⟨j, hj, h⟩
        exact ⟨j, hplaced.bodyStart_le_of_introduces hj h, h⟩
      · rintro ⟨j, hj, h⟩
        exact ⟨j, Nat.le_trans hplaced.start_le_bodyStart hj, h⟩
    refine ⟨hblock, ?_⟩
    rw [BraceRole.ofPreceding_eq_lambda_iff, not_exists]
    exact forall_congr' fun b => not_congr (hblock b)
  · intro ends lookup options folds hslow hfolds f hf hbrace
    obtain ⟨s, hs, before, t, after, htokens, hregion⟩ := exists_regionAt_of_mem_folds hfolds hf
    obtain ⟨r, hr, -, hrange⟩ := exists_mem_of_forall₂ (forall₂_mem_standsAt tokens).flip hs
    obtain ⟨hstop, ht, hpreceding⟩ := hrange.precedingTokens_eq htokens
    obtain ⟨hkind, hstart, hcontext⟩ := opening_of_regionAt hregion
    rw [hbrace] at hkind hcontext
    refine ⟨r, hr, _, t, Nat.le_add_right .., hstop, ht, hkind, hstart, ?_⟩
    rw [hcontext, hpreceding, contextOf, hslow]
    rfl

/-- Two branches of a conditional, behind an empty line. -/
def chainedBranches : List Token := tokenize "\nif $a \x7b\n\x7d elif $b \x7b\n\x7d"

/-- The second branch is introduced by the nearer of the two keywords, and its region says so. -/
theorem brace_role_of_chainedBranches :
    ⟨0, 1, 16⟩ ∈ rangesFrom 0 (segment chainedBranches) ∧
      Introduces chainedBranches .elifBlock 9 13 ∧
      BraceRole.ofPreceding (precedingTokens chainedBranches 0 13) = .block .elifBlock ∧
      ∃ folds f, findFoldsWith Token.stop chainedBranches .ok {} = .ok folds ∧ f ∈ folds ∧
        f.delimiter = .brace ∧ f.start = 19 ∧
        ∃ r ∈ rangesFrom 0 (segment chainedBranches), ∃ i t, r.start ≤ i ∧ i < r.stop ∧
          chainedBranches[i]? = some t ∧ t.kind = .opening .brace ∧ f.start = t.start ∧
          f.context = some (.ofPreceding (precedingTokens chainedBranches r.start i)) := by
  obtain ⟨hrole, hreported⟩ := brace_role_iff_introduced chainedBranches
  have hrange : ⟨0, 1, 16⟩ ∈ rangesFrom 0 (segment chainedBranches) := by decide +kernel
  have hintroduces : Introduces chainedBranches .elifBlock 9 13 := by
    refine ⟨by decide, by decide +kernel, ?_⟩
    have hbetween : ∀ l < 13, 9 < l → ∃ t ∈ chainedBranches[l]?, t.kind ∈ interveningKinds := by
      decide +kernel
    exact fun l hl hl' => hbetween l hl' hl
  have hfound : ∃ f ∈ (findFoldsWith Token.stop chainedBranches .ok {}).toOption.getD [],
      f.delimiter = .brace ∧ f.start = 19 := by decide +kernel
  refine ⟨hrange, hintroduces, ?_, ?_⟩
  · exact ((hrole _ hrange 13 (by decide) (by decide)).1 _).mpr ⟨9, by decide, hintroduces⟩
  · cases hfolds : findFoldsWith Token.stop chainedBranches .ok {} with
    | error e =>
      rw [hfolds] at hfound
      obtain ⟨f, hf, -⟩ := hfound
      cases hf
    | ok folds =>
      rw [hfolds] at hfound
      obtain ⟨f, hf, hbrace, hstart⟩ := hfound
      exact ⟨folds, f, rfl, hf, hbrace, hstart, hreported _ _ _ _ rfl hfolds f hf hbrace⟩

end ElvishOutline

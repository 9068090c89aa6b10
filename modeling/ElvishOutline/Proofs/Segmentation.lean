import ElvishOutline.Statement

/-!
# Statements of tokens put together

A body ends at the first terminator that stands outside all delimiters, and the counts of open
delimiters start afresh with every statement. A statement that is well cut in this sense, and ended,
is the first one of any tokens that start with it. So tokens whose last statement is ended, or holds
blanks only, have the same bodies whatever follows them; blanks at the end join the statement behind
them and leave its body as it is.

Passes over statements look at bodies alone, so `bodies_segment_append` is all that they need.
-/

namespace ElvishOutline

/-- The depth after a list of tokens. -/
def Depth.after (depth : Depth) (ts : List Token) : Depth := ts.foldl Depth.step depth

/-- The depth after tokens is counted from the front. -/
@[simp] theorem Depth.after_cons (depth : Depth) (t : Token) (ts : List Token) :
    depth.after (t :: ts) = (depth.step t).after ts := rfl

/-- Tokens whose last one is a terminator at which nothing is open, when they start at the given
depth. -/
def EndsBalanced (depth : Depth) (ts : List Token) : Prop :=
  (∃ t ∈ ts.getLast?, t.isTerminator = true) ∧ (depth.after ts).isZero = true

instance (depth : Depth) (ts : List Token) : Decidable (EndsBalanced depth ts) :=
  inferInstanceAs (Decidable (_ ∧ _))

/-- Something has ended where tokens end balanced. -/
theorem EndsBalanced.ne_nil {depth : Depth} {ts : List Token} (h : EndsBalanced depth ts) :
    ts ≠ [] := by
  rintro rfl
  obtain ⟨⟨t, ht, -⟩, -⟩ := h
  cases ht

/-- Behind a first token, the balance of more tokens is that of the rest at the depth after it. -/
theorem endsBalanced_cons {depth : Depth} {t : Token} {ts : List Token} (hts : ts ≠ []) :
    EndsBalanced depth (t :: ts) ↔ EndsBalanced (depth.step t) ts := by
  rw [EndsBalanced, EndsBalanced, List.getLast?_cons_of_ne_nil hts, Depth.after_cons]

/-- A token by itself is balanced if it is a terminator at which nothing is open. -/
theorem endsBalanced_singleton {depth : Depth} {t : Token} :
    EndsBalanced depth [t] ↔ (t.isTerminator && (depth.step t).isZero) = true := by
  simp [EndsBalanced, Depth.after]

/-- A body that leaves tokens over is ended by a terminator outside all delimiters. -/
theorem endsBalanced_takeBody {depth : Depth} {ts : List Token} (h : (takeBody depth ts).2 ≠ []) :
    EndsBalanced depth (takeBody depth ts).1 := by
  fun_induction takeBody depth ts with
  | case1 => exact absurd rfl h
  | case2 depth t ts hend => exact endsBalanced_singleton.mpr hend
  | case3 depth t ts hend body rest hbody ih =>
    rw [hbody] at ih
    have hbalanced := ih h
    exact (endsBalanced_cons hbalanced.ne_nil).mpr hbalanced

/-- Tokens without a terminator outside all delimiters ahead of the last one, when they start at the
given depth. -/
def IsUnbroken (depth : Depth) (ts : List Token) : Prop :=
  ∀ i t, ts[i]? = some t → i + 1 < ts.length → t.isTerminator = true →
    (depth.after (ts.take (i + 1))).isZero = false

/-- Where there are no tokens, none breaks them. -/
theorem isUnbroken_nil (depth : Depth) : IsUnbroken depth [] := by
  intro i t ht
  cases ht

/-- A token by itself is unbroken: there is none ahead of the last one. -/
theorem isUnbroken_singleton (depth : Depth) (t : Token) : IsUnbroken depth [t] := by
  intro i u _ hi
  simp at hi

/-- A first token that does not end the tokens leaves those behind it unbroken at the depth after
it. -/
theorem isUnbroken_cons {depth : Depth} {t : Token} {ts : List Token} (hts : ts ≠ []) :
    IsUnbroken depth (t :: ts) ↔
      (t.isTerminator && (depth.step t).isZero) = false ∧ IsUnbroken (depth.step t) ts := by
  have hpos : 0 < ts.length := List.length_pos_iff.mpr hts
  constructor
  · intro h
    constructor
    · have hfirst := h 0 t rfl (by simpa using hpos)
      cases hterminator : t.isTerminator with
      | false => rfl
      | true => exact hfirst hterminator
    · intro i u hu hi
      exact h (i + 1) u hu (by simpa using hi)
  · intro h i u hu hi hterminator
    obtain ⟨hfirst, hrest⟩ := h
    cases i with
    | zero =>
      obtain rfl : t = u := Option.some.inj hu
      rw [hterminator, Bool.true_and] at hfirst
      exact hfirst
    | succ i => exact hrest i u hu (by simpa using hi) hterminator

/-- A body is cut at the first terminator outside all delimiters. -/
theorem isUnbroken_takeBody (depth : Depth) (ts : List Token) :
    IsUnbroken depth (takeBody depth ts).1 := by
  fun_induction takeBody depth ts with
  | case1 depth => exact isUnbroken_nil depth
  | case2 depth t ts hend => exact isUnbroken_singleton depth t
  | case3 depth t ts hend body rest hbody ih =>
    rw [hbody] at ih
    by_cases hmore : body = []
    · rw [hmore]
      exact isUnbroken_singleton depth t
    · exact (isUnbroken_cons hmore).mpr ⟨Bool.eq_false_iff.mpr hend, ih⟩

/-- Unbroken tokens are the body of what they start, if they are ended or nothing follows them. -/
theorem takeBody_of_isUnbroken {depth : Depth} {body : List Token} (rest : List Token)
    (hbody : IsUnbroken depth body) (hend : rest = [] ∨ EndsBalanced depth body) :
    takeBody depth (body ++ rest) = (body, rest) := by
  induction body generalizing depth with
  | nil =>
    obtain rfl : rest = [] := hend.resolve_right fun h => h.ne_nil rfl
    rfl
  | cons t ts ih =>
    by_cases hts : ts = []
    · -- The last token: it ends the body, or the tokens run out behind it.
      subst hts
      rcases hend with rfl | hbalanced
      · by_cases hend : (t.isTerminator && (depth.step t).isZero) = true
        · rw [List.append_nil, takeBody, if_pos hend]
        · rw [List.append_nil, takeBody, if_neg hend]
          rfl
      · rw [List.singleton_append, takeBody, if_pos (endsBalanced_singleton.mp hbalanced)]
    · obtain ⟨hfirst, hlater⟩ := (isUnbroken_cons hts).mp hbody
      have hend' : rest = [] ∨ EndsBalanced (depth.step t) ts :=
        hend.imp_right (endsBalanced_cons hts).mp
      rw [List.cons_append, takeBody, if_neg (Bool.eq_false_iff.mp hfirst), ih hlater hend']

/-- A body starts with the first of the tokens. -/
theorem head?_takeBody (depth : Depth) (ts : List Token) :
    (takeBody depth ts).1.head? = ts.head? := by
  cases ts with
  | nil => rfl
  | cons t ts =>
    rw [takeBody]
    split <;> rfl

namespace Statement

/-- A statement ended by a terminator outside all delimiters. -/
def EndsBalanced (s : Statement) : Prop := ElvishOutline.EndsBalanced {} s.body

instance (s : Statement) : Decidable s.EndsBalanced :=
  inferInstanceAs (Decidable (ElvishOutline.EndsBalanced {} s.body))

end Statement

/-- A first statement that leaves tokens over is ended. -/
theorem endsBalanced_firstStatement {tokens : List Token} (h : afterStatement tokens ≠ []) :
    (firstStatement tokens).EndsBalanced :=
  endsBalanced_takeBody h

/-- A statement as segmentation cuts it, by itself: it has a token, blanks ahead of its body and none
at the start of it, and its body is unbroken. -/
structure Statement.IsWellCut (s : Statement) : Prop where
  tokens_ne_nil : s.tokens ≠ []
  leading : ∀ t ∈ s.leading, t.isTrivia = true
  head_body : ∀ t ∈ s.body.head?, t.isTrivia = false
  unbroken : IsUnbroken {} s.body

/-- The first statement of any tokens is well cut. -/
theorem isWellCut_firstStatement (t : Token) (ts : List Token) :
    (firstStatement (t :: ts)).IsWellCut where
  tokens_ne_nil := by
    intro hnil
    have htokens := firstStatement_append (t :: ts)
    rw [hnil, List.nil_append] at htokens
    have hlength := length_afterStatement_lt t ts
    rw [htokens] at hlength
    exact Nat.lt_irrefl _ hlength
  leading := List.all_eq_true.mp List.all_takeWhile
  head_body := by
    intro u hu
    rw [firstStatement, head?_takeBody] at hu
    have hhead := List.head?_dropWhile_not Token.isTrivia (t :: ts)
    rw [hu] at hhead
    exact hhead
  unbroken := isUnbroken_takeBody {} _

/-- The first statement of tokens that start with one that is well cut is that statement, if it is
ended or nothing follows it. -/
theorem firstStatement_tokens_append {s : Statement} (hs : s.IsWellCut) (rest : List Token)
    (hend : rest = [] ∨ s.EndsBalanced) :
    firstStatement (s.tokens ++ rest) = s ∧ afterStatement (s.tokens ++ rest) = rest := by
  have hdrop : (s.tokens ++ rest).dropWhile Token.isTrivia = s.body ++ rest := by
    rw [Statement.tokens, List.append_assoc, List.dropWhile_append_of_pos hs.leading]
    cases hbody : s.body with
    | nil =>
      have hrest : rest = [] := hend.resolve_right fun h => h.ne_nil hbody
      rw [hrest]
      rfl
    | cons u us =>
      have hhead := hs.head_body u (by rw [hbody]; rfl)
      rw [List.cons_append, List.dropWhile_cons_of_neg (by rw [hhead]; exact Bool.false_ne_true)]
  have htake : (s.tokens ++ rest).takeWhile Token.isTrivia = s.leading := by
    have hall := List.takeWhile_append_dropWhile (p := Token.isTrivia) (l := s.tokens ++ rest)
    rw [hdrop, Statement.tokens, List.append_assoc] at hall
    rw [Statement.tokens, List.append_assoc]
    exact List.append_cancel_right hall
  have hbody := takeBody_of_isUnbroken rest hs.unbroken hend
  constructor
  · rw [firstStatement, htake, hdrop, hbody]
  · rw [afterStatement, hdrop, hbody]

/-- A first statement that is ended stays the same whatever follows. -/
theorem firstStatement_extend {tokens : List Token} (more : List Token)
    (h : (firstStatement tokens).EndsBalanced) :
    firstStatement (tokens ++ more) = firstStatement tokens ∧
      afterStatement (tokens ++ more) = afterStatement tokens ++ more := by
  cases tokens with
  | nil => exact absurd rfl h.ne_nil
  | cons t ts =>
    have hextend := firstStatement_tokens_append (isWellCut_firstStatement t ts)
      (afterStatement (t :: ts) ++ more) (.inr h)
    rw [← List.append_assoc, firstStatement_append] at hextend
    exact hextend

/-- The bodies of statements, without those that are empty. -/
def bodies (statements : List Statement) : List (List Token) :=
  (statements.map (·.body)).filter (!·.isEmpty)

/-- The bodies of tokens are that of the first statement, if it has one, and those behind it. -/
theorem bodies_segment (tokens : List Token) :
    bodies (segment tokens) =
      (if (firstStatement tokens).isBlank then [] else [(firstStatement tokens).body]) ++
        bodies (segment (afterStatement tokens)) := by
  cases tokens with
  | nil => rfl
  | cons t ts =>
    rw [segment, bodies, bodies, List.map_cons, List.filter_cons, Statement.isBlank]
    cases (firstStatement (t :: ts)).body.isEmpty <;> rfl

/-- Blanks ahead of tokens belong to no body. -/
theorem bodies_segment_blanks {blanks : List Token} (tokens : List Token)
    (h : ∀ t ∈ blanks, t.isTrivia = true) :
    bodies (segment (blanks ++ tokens)) = bodies (segment tokens) := by
  have hdrop : (blanks ++ tokens).dropWhile Token.isTrivia = tokens.dropWhile Token.isTrivia :=
    List.dropWhile_append_of_pos h
  have hfirst : (firstStatement (blanks ++ tokens)).body = (firstStatement tokens).body := by
    rw [firstStatement, hdrop, firstStatement]
  have hafter : afterStatement (blanks ++ tokens) = afterStatement tokens := by
    rw [afterStatement, hdrop, afterStatement]
  rw [bodies_segment, bodies_segment tokens, Statement.isBlank, Statement.isBlank, hfirst, hafter]

/-- Tokens that do not run on into what follows them: their last statement is ended, or holds blanks
only. -/
def IsComplete (tokens : List Token) : Prop :=
  ∀ s ∈ (segment tokens).getLast?, s.isBlank = true ∨ s.EndsBalanced

/-- What follows the first statement of complete tokens is complete. -/
theorem IsComplete.afterStatement {t : Token} {ts : List Token} (h : IsComplete (t :: ts)) :
    IsComplete (afterStatement (t :: ts)) := by
  intro s hs
  apply h
  rw [segment, List.getLast?_cons, hs]
  rfl

/-- The first statement of complete tokens is ended, or there are blanks only. -/
theorem IsComplete.firstStatement {t : Token} {ts : List Token} (h : IsComplete (t :: ts)) :
    (firstStatement (t :: ts)).EndsBalanced ∨ ∀ u ∈ t :: ts, u.isTrivia = true := by
  by_cases hafter : ElvishOutline.afterStatement (t :: ts) = []
  · have hlast : (segment (t :: ts)).getLast? = some (ElvishOutline.firstStatement (t :: ts)) := by
      rw [segment, hafter, segment]
      rfl
    rcases h _ hlast with hblank | hbalanced
    · right
      have hbody : (ElvishOutline.firstStatement (t :: ts)).body = [] := List.isEmpty_iff.mp hblank
      have htokens := firstStatement_append (t :: ts)
      rw [hafter, Statement.tokens, hbody, List.append_nil, List.append_nil] at htokens
      intro u hu
      rw [← htokens] at hu
      exact List.all_eq_true.mp List.all_takeWhile u hu
    · exact .inl hbalanced
  · exact .inl (endsBalanced_firstStatement hafter)

/-- The bodies of complete tokens stay the same whatever follows, and add nothing to what follows. -/
theorem bodies_segment_append {xs : List Token} (h : IsComplete xs) (ys : List Token) :
    bodies (segment (xs ++ ys)) = bodies (segment xs) ++ bodies (segment ys) := by
  induction xs using segment.induct with
  | case1 =>
    rw [segment]
    rfl
  | case2 t ts ih =>
    rcases h.firstStatement with hbalanced | hblanks
    · obtain ⟨hfirst, hafter⟩ := firstStatement_extend ys hbalanced
      rw [bodies_segment, hfirst, hafter, ih h.afterStatement, bodies_segment (t :: ts),
        List.append_assoc]
    · have hnone := bodies_segment_blanks [] hblanks
      rw [List.append_nil] at hnone
      rw [bodies_segment_blanks ys hblanks, hnone, segment]
      rfl

/-- Statements from a position on cover the tokens from there on: the first one, and the others
behind it. -/
theorem prefix_drop_of_flatMap {all : List Token} {index : Nat} {s : Statement}
    {rest : List Statement} (h : all.drop index = (s :: rest).flatMap Statement.tokens) :
    s.tokens <+: all.drop index ∧
      all.drop (index + s.tokens.length) = rest.flatMap Statement.tokens := by
  rw [List.flatMap_cons] at h
  refine ⟨⟨_, h.symm⟩, ?_⟩
  rw [← List.drop_drop, h, List.drop_left]

/-- Moving tokens moves their statements. -/
def Statement.shift (n : Nat) (s : Statement) : Statement :=
  ⟨s.leading.map (Token.shift n), s.body.map (Token.shift n)⟩

/-- A body is the same where all tokens are moved, and so is what is left behind it. -/
theorem takeBody_map_shift (n : Nat) (depth : Depth) (ts : List Token) :
    takeBody depth (ts.map (Token.shift n)) =
      ((takeBody depth ts).1.map (Token.shift n), (takeBody depth ts).2.map (Token.shift n)) := by
  fun_induction takeBody depth ts with
  | case1 => rfl
  | case2 depth t ts hend =>
    have hend' : ((t.shift n).isTerminator && (depth.step (t.shift n)).isZero) = true := hend
    rw [List.map_cons, takeBody, if_pos hend']
    rfl
  | case3 depth t ts hend body rest hbody ih =>
    have hend' : ¬((t.shift n).isTerminator && (depth.step (t.shift n)).isZero) = true := hend
    rw [hbody] at ih
    rw [List.map_cons, takeBody, if_neg hend', show depth.step (t.shift n) = depth.step t from rfl, ih]
    rfl

/-- The first statement is the same where all tokens are moved, and so is what is left behind it. -/
theorem firstStatement_map_shift (n : Nat) (tokens : List Token) :
    firstStatement (tokens.map (Token.shift n)) = (firstStatement tokens).shift n ∧
      afterStatement (tokens.map (Token.shift n)) = (afterStatement tokens).map (Token.shift n) := by
  have hdrop : (tokens.map (Token.shift n)).dropWhile Token.isTrivia =
      (tokens.dropWhile Token.isTrivia).map (Token.shift n) := List.dropWhile_map ..
  have htake : (tokens.map (Token.shift n)).takeWhile Token.isTrivia =
      (tokens.takeWhile Token.isTrivia).map (Token.shift n) := List.takeWhile_map ..
  constructor
  · rw [firstStatement, htake, hdrop, takeBody_map_shift]
    rfl
  · rw [afterStatement, hdrop, takeBody_map_shift, afterStatement]

/-- Where tokens stand has no part in how they are cut into statements. -/
theorem segment_map_shift (n : Nat) (tokens : List Token) :
    segment (tokens.map (Token.shift n)) = (segment tokens).map (Statement.shift n) := by
  induction tokens using segment.induct with
  | case1 => rw [List.map_nil, segment, List.map_nil]
  | case2 t ts ih =>
    obtain ⟨hfirst, hafter⟩ := firstStatement_map_shift n (t :: ts)
    rw [List.map_cons] at hfirst hafter
    rw [List.map_cons, segment, hfirst, hafter, ih, segment, List.map_cons]

/-- Moving tokens moves their bodies. -/
theorem bodies_segment_map_shift (n : Nat) (tokens : List Token) :
    bodies (segment (tokens.map (Token.shift n))) =
      (bodies (segment tokens)).map (List.map (Token.shift n)) := by
  have hbody : (fun s : Statement => s.body) ∘ Statement.shift n =
      List.map (Token.shift n) ∘ fun s => s.body := rfl
  have hempty : (fun ts : List Token => !ts.isEmpty) ∘ List.map (Token.shift n) =
      fun ts => !ts.isEmpty := by
    funext ts
    cases ts <;> rfl
  rw [segment_map_shift, bodies, bodies, List.map_map, hbody, ← List.map_map, List.filter_map, hempty]

end ElvishOutline

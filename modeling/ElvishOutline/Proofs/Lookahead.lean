import ElvishOutline.Proofs.Tiling

/-!
# How far the lexer looks ahead

A reader looks at most two characters past what it takes, and at the second one only when the first
is a letter, a digit or a dot. So once a line feed is left over at the end of a text, nothing behind
the text can change how it is cut. A string that is not closed and a caret at the end of the line
leave no line feed over, and they are the only tokens that text behind the line can lengthen.

`tokensFrom_append` puts this together: a text whose last token is a line end is cut by itself, and
the text behind it as if it stood alone, farther to the right.
-/

namespace ElvishOutline

open Text (byteLength)

/-- A text whose last character is a line feed. -/
def EndsInLineFeed (cs : List Char) : Prop := cs.getLast? = some '\n'

namespace EndsInLineFeed

/-- A text that ends in a line feed is not empty. -/
theorem ne_nil {cs : List Char} (h : EndsInLineFeed cs) : cs ≠ [] := by
  rintro rfl
  cases h

/-- A text ends in a line feed if a part at its end does. -/
theorem of_append {xs ys cs : List Char} (hcs : xs ++ ys = cs) (h : EndsInLineFeed ys) :
    EndsInLineFeed cs := by
  rw [EndsInLineFeed, ← hcs, List.getLast?_append, show ys.getLast? = some '\n' from h]
  rfl

/-- A text of one character that ends in a line feed is the line feed. -/
theorem eq_of_singleton {x : Char} (h : EndsInLineFeed [x]) : x = '\n' :=
  Option.some.inj h

end EndsInLineFeed

namespace Split

/-- The split of a longer text that takes the same part. -/
def extend (s : Split) (more : List Char) : Split := (s.1, s.2 ++ more)

/-- More text behind a split leaves what is taken as it is. -/
@[simp] theorem extend_fst (s : Split) (more : List Char) : (s.extend more).1 = s.1 := rfl

/-- More text behind a split is left over with the rest. -/
@[simp] theorem extend_snd (s : Split) (more : List Char) : (s.extend more).2 = s.2 ++ more := rfl

/-- Text may be put behind a split before or after a character is put in front of it. -/
@[simp] theorem extend_cons (c : Char) (s : Split) (more : List Char) :
    (s.cons c).extend more = (s.extend more).cons c := rfl

/-- A longest part that stops inside a text stops there whatever follows. -/
theorem spanning_extend {p : Char → Bool} {cs : List Char} (more : List Char)
    (h : (spanning p cs).2 ≠ []) : spanning p (cs ++ more) = (spanning p cs).extend more := by
  induction cs with
  | nil => exact absurd rfl h
  | cons c cs ih =>
    by_cases hc : p c
    · have hcons (ds : List Char) : spanning p (c :: ds) = (spanning p ds).cons c := by
        simp [spanning, cons, hc]
      rw [hcons] at h
      rw [List.cons_append, hcons, hcons, ih h, extend_cons]
    · simp [spanning, extend, hc]

end Split

namespace Lexer

/-- The rest of a bareword looks at a second character only behind a dot. -/
theorem wordTail_extend {cs : List Char} (more : List Char) (h : EndsInLineFeed (wordTail cs).2) :
    wordTail (cs ++ more) = (wordTail cs).extend more := by
  fun_induction wordTail cs with
  | case1 => exact absurd rfl h.ne_nil
  | case2 c cs hword ih => rw [List.cons_append, wordTail, if_pos hword, ih h, Split.extend_cons]
  | case3 c cs hword hdot ih =>
    have hhead : (cs ++ more).head? = cs.head? := by
      have hne := (h.of_append (wordTail_append cs)).ne_nil
      rw [List.head?_append, List.head?_eq_some_head hne, Option.some_or]
    rw [List.cons_append, wordTail, if_neg hword, hhead, if_pos hdot, ih h, Split.extend_cons]
  | case4 c cs hword hdot =>
    have hdot' : ¬(c = '.' ∧ (cs ++ more).head? ≠ some '.') := by
      rintro ⟨rfl, hhead⟩
      cases cs with
      | nil => exact absurd h.eq_of_singleton (by decide)
      | cons d ds => exact hdot ⟨rfl, hhead⟩
    rw [List.cons_append, wordTail, if_neg hword, if_neg hdot']
    rfl

/-- A single-quoted string that closes inside a text closes there whatever follows, since a quote
behind the closing one would stand in the text. -/
theorem singleQuotedTail_extend {cs : List Char} (more : List Char)
    (h : (singleQuotedTail cs).2 ≠ []) :
    singleQuotedTail (cs ++ more) = (singleQuotedTail cs).extend more := by
  fun_induction singleQuotedTail cs with
  | case1 => exact absurd rfl h
  | case2 cs ih =>
    rw [List.cons_append, List.cons_append, singleQuotedTail, ih h, Split.extend_cons,
      Split.extend_cons]
  | case3 cs hpair =>
    obtain ⟨d, ds, rfl⟩ := List.exists_cons_of_ne_nil h
    rw [List.cons_append, singleQuotedTail, if_pos rfl]
    · rfl
    · rintro es - hes
      exact hpair ds rfl (by rw [(List.cons.inj hes).1])
  | case4 c cs hpair hquote ih =>
    rw [List.cons_append, singleQuotedTail, if_neg hquote, ih h, Split.extend_cons]
    rintro es rfl
    exact absurd rfl hquote

/-- A double-quoted string that closes inside a text closes there whatever follows. -/
theorem doubleQuotedTail_extend {cs : List Char} (more : List Char)
    (h : (doubleQuotedTail cs).2 ≠ []) :
    doubleQuotedTail (cs ++ more) = (doubleQuotedTail cs).extend more := by
  fun_induction doubleQuotedTail cs with
  | case1 => exact absurd rfl h
  | case2 c cs ih =>
    rw [List.cons_append, List.cons_append, doubleQuotedTail, ih h, Split.extend_cons,
      Split.extend_cons]
  | case3 cs hpair =>
    rw [List.cons_append, doubleQuotedTail, if_pos rfl]
    · rfl
    · rintro d ds hslash
      exact absurd hslash (by decide)
  | case4 c cs hpair hquote ih =>
    rw [List.cons_append, doubleQuotedTail, if_neg hquote, ih h, Split.extend_cons]
    rintro d ds rfl hds
    -- The backslash has a character to take along, or the string would run to the end.
    cases cs with
    | nil => exact absurd rfl h
    | cons e es => exact hpair e es rfl rfl

/-- A number in another base looks at a second character only behind its base letter. -/
theorem basedTail?_extend (first : Char) {cs : List Char} (more : List Char)
    (h : EndsInLineFeed cs) (hrest : ∀ form split, basedTail? first cs = some (form, split) →
      EndsInLineFeed split.2) :
    basedTail? first (cs ++ more) =
      (basedTail? first cs).map fun (form, split) => (form, split.extend more) := by
  match cs with
  | [] => exact absurd rfl h.ne_nil
  | [x] =>
    obtain rfl := h.eq_of_singleton
    have hbase : baseOf? '\n' = none := by decide
    cases more <;> simp [basedTail?, hbase]
  | letter :: digit :: rest =>
    simp only [basedTail?, List.cons_append, List.tail_cons] at hrest ⊢
    cases hbase : baseOf? letter with
    | none => rfl
    | some found =>
      obtain ⟨base, form⟩ := found
      simp only [hbase] at hrest ⊢
      by_cases hdigit : first = '0' ∧ isDigitOf base digit
      · simp only [if_pos hdigit] at hrest ⊢
        rw [← List.cons_append, Split.spanning_extend more (hrest _ _ rfl).ne_nil]
        rfl
      · simp only [if_neg hdigit, Option.map_none]

/-- A fraction looks at a second character only behind a dot. -/
theorem fraction_extend {cs : List Char} (more : List Char) (h : EndsInLineFeed (fraction cs).2) :
    fraction (cs ++ more) = (fraction cs).extend more := by
  match cs, h.of_append (fraction_append cs) with
  | [x], hcs =>
    obtain rfl := hcs.eq_of_singleton
    rfl
  | x :: y :: rest, _ =>
    by_cases hx : x = '.'
    · subst hx
      simp only [fraction, List.cons_append, List.tail_cons] at h ⊢
      by_cases hy : y.isDigit
      · simp only [if_pos hy] at h ⊢
        rw [← List.cons_append, Split.spanning_extend more h.ne_nil]
        rfl
      · simp only [if_neg hy]
        rfl
    · simp [fraction, Split.extend, hx]

/-- An exponent looks at a second character only behind its letter. -/
theorem exponent_extend {cs : List Char} (more : List Char) (h : EndsInLineFeed (exponent cs).2) :
    exponent (cs ++ more) = (exponent cs).extend more := by
  match cs, h.of_append (exponent_append cs) with
  | [x], hcs =>
    obtain rfl := hcs.eq_of_singleton
    cases more <;> simp [exponent, Split.extend]
  | x :: y :: rest, _ =>
    simp only [exponent, List.cons_append] at h ⊢
    by_cases hstart : (x = 'e' ∨ x = 'E') ∧ (y.isDigit ∨ y = '+' ∨ y = '-')
    · simp only [if_pos hstart] at h ⊢
      rw [Split.spanning_extend more h.ne_nil]
      rfl
    · simp only [if_neg hstart]
      rfl

/-- A decimal number is read part by part, and each part stops where it did. -/
theorem decimalTail_extend {cs : List Char} (more : List Char)
    (h : EndsInLineFeed (decimalTail cs).2.2) :
    decimalTail (cs ++ more) = ((decimalTail cs).1, (decimalTail cs).2.extend more) := by
  have hfrac := h.of_append (exponent_append _)
  have hwhole := hfrac.of_append (fraction_append _)
  simp only [decimalTail, Split.spanning_extend more hwhole.ne_nil, Split.extend_fst,
    Split.extend_snd, fraction_extend more hfrac, exponent_extend more h]
  rfl

/-- Whether a bareword goes on behind a number is decided by two characters that are there. -/
theorem startsWord_append {cs : List Char} (more : List Char) (h : EndsInLineFeed cs) :
    startsWord (cs ++ more) = startsWord cs := by
  match cs with
  | [] => exact absurd rfl h.ne_nil
  | [x] =>
    obtain rfl := h.eq_of_singleton
    cases more <;> simp [startsWord]
  | x :: y :: rest =>
    by_cases hx : x = '.'
    · subst hx
      rfl
    · simp [startsWord, hx]

/-- A token that starts with a digit ends where it did. -/
theorem numberTail_extend {first : Char} {cs : List Char} (more : List Char)
    (h : EndsInLineFeed (numberTail first cs).2.2) :
    numberTail first (cs ++ more) =
      ((numberTail first cs).1, (numberTail first cs).2.extend more) := by
  have hcs := h.of_append (numberTail_append first cs)
  unfold numberTail at h ⊢
  cases hbased : basedTail? first cs with
  | some found =>
    obtain ⟨form, split⟩ := found
    rw [hbased] at h
    have hextend := basedTail?_extend first more hcs (by
      intro form' split' hfound
      rw [hbased] at hfound
      obtain ⟨-, rfl⟩ := Prod.mk.inj (Option.some.inj hfound)
      exact h)
    rw [hextend, hbased]
    rfl
  | none =>
    rw [hbased] at h
    have hextend := basedTail?_extend first more hcs (by simp [hbased])
    rw [hextend, hbased]
    dsimp only [Option.map_none] at h ⊢
    by_cases hword : startsWord (decimalTail cs).2.2
    · simp only [if_pos hword] at h ⊢
      have hnumber := h.of_append (wordTail_append _)
      rw [decimalTail_extend more hnumber]
      simp only [Split.extend_snd, Split.extend_fst, startsWord_append more hnumber, if_pos hword,
        wordTail_extend more h]
      rfl
    · simp only [if_neg hword] at h ⊢
      rw [decimalTail_extend more h]
      simp only [Split.extend_snd, startsWord_append more h, if_neg hword]

/-- The token of a longer text that takes the same characters. -/
def Lexeme.extend (l : Lexeme) (more : List Char) : Lexeme := { l with rest := l.rest ++ more }

/-- More text behind a token is more text behind the split that it is made of. -/
theorem Lexeme.ofSplit_extend (kind : TokenKind) (split : Split) (more : List Char) :
    (Lexeme.ofSplit kind split).extend more = Lexeme.ofSplit kind (split.extend more) := rfl

/-- A word that ends ahead of a line feed is the same in a longer text. -/
theorem word_extend {first : Char} {cs : List Char} (more : List Char)
    (h : EndsInLineFeed (word first cs).rest) :
    word first (cs ++ more) = (word first cs).extend more := by
  simp only [word, wordTail_extend more h]
  rfl

/-- A range operator looks for an equals sign that is there or is another character. -/
theorem dotted_extend {cs : List Char} (more : List Char) (h : EndsInLineFeed (dotted cs).rest) :
    dotted (cs ++ more) = (dotted cs).extend more := by
  unfold dotted at h ⊢
  split at h
  · rfl
  · next rest hequals =>
    obtain ⟨d, ds, rfl⟩ := List.exists_cons_of_ne_nil h.ne_nil
    have hd : d ≠ '=' := by
      rintro rfl
      exact hequals ds rfl
    simp [Lexeme.extend, hd]
  · next hequals hdot =>
    obtain ⟨d, ds, rfl⟩ := List.exists_cons_of_ne_nil (h.of_append (wordTail_append cs)).ne_nil
    have hd : d ≠ '.' := by
      rintro rfl
      exact hdot ds rfl
    rw [← word_extend more h]
    simp [hd]

/-- A caret looks for a line feed that is there or is another character. -/
theorem continuation_extend {cs : List Char} (more : List Char)
    (h : EndsInLineFeed (continuation cs).rest) :
    continuation (cs ++ more) = (continuation cs).extend more := by
  unfold continuation at h ⊢
  split at h
  · rfl
  · next hfeed =>
    obtain ⟨d, ds, rfl⟩ := List.exists_cons_of_ne_nil h.ne_nil
    have hd : d ≠ '\n' := by
      rintro rfl
      exact hfeed ds rfl
    simp [Lexeme.extend, hd]

/-- A comparison looks for an equals sign that is there or is another character. -/
theorem sign_extend {first : Char} {cs : List Char} (more : List Char)
    (h : EndsInLineFeed (sign first cs).rest) :
    sign first (cs ++ more) = (sign first cs).extend more := by
  unfold sign at h ⊢
  split at h
  · rfl
  · next alone withEquals hpunctuation hcomparison =>
    split at h
    · rfl
    · next hequals =>
      obtain ⟨d, ds, rfl⟩ := List.exists_cons_of_ne_nil h.ne_nil
      have hd : d ≠ '=' := by
        rintro rfl
        exact hequals ds rfl
      simp [Lexeme.extend, hd]
  · rfl

/-- The first character chooses the reader of a token, so what holds of the readers that it may
choose holds of the token. -/
theorem lexeme_reader (first : Char) {P : (List Char → Lexeme) → Prop}
    (feed : first = '\n' → P fun cs => ⟨.newline, [], cs⟩)
    (blank : isInlineBlank first → P fun cs => .ofSplit .blank (Split.spanning isInlineBlank cs))
    (caret : first = '^' → P continuation)
    (comment : first = '#' → P fun cs => .ofSplit .comment (Split.spanning (· ≠ '\n') cs))
    (single : first = '\'' → P fun cs => .ofSplit .singleQuoted (singleQuotedTail cs))
    (double : first = '"' → P fun cs => .ofSplit .doubleQuoted (doubleQuotedTail cs))
    (dollar : first = '$' → P fun cs => .ofSplit .variableName (Split.spanning isVariableChar cs))
    (digit : first.isDigit →
      P fun cs => .ofSplit (numberTail first cs).1 (numberTail first cs).2)
    (letter : isWordStart first → P (word first))
    (dot : first = '.' → P dotted)
    (other : P (sign first)) : P (lexeme first) := by
  have hlexeme : lexeme first = fun cs => lexeme first cs := rfl
  rw [hlexeme]
  unfold lexeme
  by_cases hfeed : first = '\n'
  · simpa only [if_pos hfeed] using feed hfeed
  by_cases hblank : isInlineBlank first
  · simpa only [if_neg hfeed, if_pos hblank] using blank hblank
  by_cases hcaret : first = '^'
  · simpa only [if_neg hfeed, if_neg hblank, if_pos hcaret] using caret hcaret
  by_cases hcomment : first = '#'
  · simpa only [if_neg hfeed, if_neg hblank, if_neg hcaret, if_pos hcomment] using comment hcomment
  -- Tests that failed are taken out of the goal, so that the later cases do not carry them along.
  simp only [if_neg hfeed, if_neg hblank, if_neg hcaret, if_neg hcomment]
  by_cases hsingle : first = '\''
  · simpa only [if_pos hsingle] using single hsingle
  by_cases hdouble : first = '"'
  · simpa only [if_neg hsingle, if_pos hdouble] using double hdouble
  by_cases hdollar : first = '$'
  · simpa only [if_neg hsingle, if_neg hdouble, if_pos hdollar] using dollar hdollar
  simp only [if_neg hsingle, if_neg hdouble, if_neg hdollar]
  by_cases hdigit : first.isDigit
  · simpa only [if_pos hdigit] using digit hdigit
  by_cases hletter : isWordStart first
  · simpa only [if_neg hdigit, if_pos hletter] using letter hletter
  by_cases hdot : first = '.'
  · simpa only [if_neg hdigit, if_neg hletter, if_pos hdot] using dot hdot
  · simpa only [if_neg hdigit, if_neg hletter, if_neg hdot] using other

/-- A character of a class without blanks, quotes, the caret, the number sign and the dollar sign is read
as a digit, a letter, a dot or a sign. -/
theorem lexeme_of_class {p : Char → Bool}
    (hp : ['\n', ' ', '\t', '\r', '^', '#', '\'', '"', '$'].all (fun c => !p c) = true)
    {first : Char} (h : p first = true) (cs : List Char) :
    lexeme first cs =
      if first.isDigit then .ofSplit (numberTail first cs).1 (numberTail first cs).2
      else if isWordStart first then word first cs
      else if first = '.' then dotted cs
      else sign first cs := by
  have hne {c : Char} (hc : p c = false) : first ≠ c := by
    intro heq
    rw [heq, hc] at h
    cases h
  simp only [List.all_cons, List.all_nil, Bool.and_true, Bool.and_eq_true, Bool.not_eq_true'] at hp
  obtain ⟨hfeed, hspace, htab, hreturn, hcaret, hcomment, hsingle, hdouble, hdollar⟩ := hp
  have hblank : isInlineBlank first = false := by
    simp [isInlineBlank, hne hspace, hne htab, hne hreturn]
  simp [lexeme, hne hfeed, hblank, hne hcaret, hne hcomment, hne hsingle, hne hdouble, hne hdollar]

/-- A token that leaves a line feed over at the end of the text is the same whatever follows. -/
theorem lexeme_extend {first : Char} {cs : List Char} (more : List Char)
    (h : EndsInLineFeed (lexeme first cs).rest) :
    lexeme first (cs ++ more) = (lexeme first cs).extend more := by
  revert h
  apply lexeme_reader first (P := fun reader => EndsInLineFeed (reader cs).rest →
    reader (cs ++ more) = (reader cs).extend more)
  case feed => exact fun _ _ => rfl
  case blank | comment | dollar =>
    intro _ h
    beta_reduce
    rw [Lexeme.ofSplit_extend, Split.spanning_extend more h.ne_nil]
  case caret => exact fun _ => continuation_extend more
  case single =>
    intro _ h
    beta_reduce
    rw [Lexeme.ofSplit_extend, singleQuotedTail_extend more h.ne_nil]
  case double =>
    intro _ h
    beta_reduce
    rw [Lexeme.ofSplit_extend, doubleQuotedTail_extend more h.ne_nil]
  case digit =>
    intro _ h
    beta_reduce
    rw [numberTail_extend more h, Lexeme.ofSplit_extend]
  case letter => exact fun _ => word_extend more
  case dot => exact fun _ => dotted_extend more
  case other => exact sign_extend more

/-- The kinds that decide how statements and pairs of delimiters are cut. -/
def isStructural : TokenKind → Bool
  | .newline | .semicolon | .opening _ | .closing _ => true
  | _ => false

section Kinds

variable {K : TokenKind → Prop} (first : Char) (cs : List Char)

/-- The kinds of barewords. -/
theorem kind_word (identifier : K .identifier) (keyword : ∀ k, K (.keyword k)) :
    K (word first cs).kind := by
  simp only [word, Lexeme.ofSplit, wordKind]
  split
  · exact keyword _
  · exact identifier

/-- The kinds of tokens that start with a digit. -/
theorem kind_numberTail (identifier : K .identifier) (number : ∀ form, K (.number form)) :
    K (numberTail first cs).1 := by
  unfold numberTail
  split
  · exact number _
  · dsimp only
    split
    · exact identifier
    · exact number _

/-- The kinds of tokens that start with a caret. -/
theorem kind_continuation (blank : K .blank) (unknown : K .unknown) :
    K (continuation cs).kind := by
  unfold continuation
  split
  · exact blank
  · exact unknown

/-- The kinds of tokens that start with a dot. -/
theorem kind_dotted (operator : ∀ op, K (.operator op)) (identifier : K .identifier)
    (keyword : ∀ k, K (.keyword k)) : K (dotted cs).kind := by
  unfold dotted
  split
  · exact operator _
  · exact operator _
  · exact kind_word '.' cs identifier keyword

/-- The kinds of signs. -/
theorem kind_sign (punctuation : ∀ kind, punctuation? first = some kind → K kind)
    (operator : ∀ op, K (.operator op)) (unknown : K .unknown) : K (sign first cs).kind := by
  unfold sign
  split
  · next hpunctuation => exact punctuation _ hpunctuation
  · next alone withEquals _ hcomparison =>
    have hkinds : K alone ∧ K withEquals := by
      unfold comparison? at hcomparison
      split at hcomparison <;> cases hcomparison
      · exact ⟨operator _, operator _⟩
      · exact ⟨operator _, operator _⟩
      · exact ⟨operator _, operator _⟩
      · exact ⟨unknown, operator _⟩
    split
    · exact hkinds.2
    · exact hkinds.1
  · exact unknown

end Kinds

/-- A punctuation character is a sign by itself. -/
theorem sign_of_punctuation? {first : Char} {kind : TokenKind} (cs : List Char)
    (h : punctuation? first = some kind) : sign first cs = ⟨kind, [], cs⟩ := by
  rw [sign, h]

/-- A sign that decides structure is a single punctuation character. -/
theorem sign_of_isStructural {first : Char} {cs : List Char}
    (h : isStructural (sign first cs).kind = true) :
    (sign first cs).tail = [] ∧ punctuation? first = some (sign first cs).kind := by
  cases hpunctuation : punctuation? first with
  | some kind =>
    rw [sign_of_punctuation? cs hpunctuation]
    exact ⟨rfl, rfl⟩
  | none =>
    have hkind : isStructural (sign first cs).kind = false := by
      apply kind_sign (K := fun kind => isStructural kind = false) first cs
      · intro kind hkind
        rw [hpunctuation] at hkind
        cases hkind
      · exact fun _ => rfl
      · rfl
    rw [hkind] at h
    cases h

/-- A token that decides structure is a single character: a line feed or a punctuation. -/
theorem lexeme_of_isStructural {first : Char} {cs : List Char}
    (h : isStructural (lexeme first cs).kind = true) :
    (lexeme first cs).tail = [] ∧
      (first = '\n' ∧ (lexeme first cs).kind = .newline ∨
        punctuation? first = some (lexeme first cs).kind) := by
  revert h
  apply lexeme_reader first (P := fun reader => isStructural (reader cs).kind = true →
    (reader cs).tail = [] ∧ (first = '\n' ∧ (reader cs).kind = .newline ∨
      punctuation? first = some (reader cs).kind))
  case feed => exact fun hfeed _ => ⟨rfl, .inl ⟨hfeed, rfl⟩⟩
  case blank | comment | dollar | single | double =>
    intro _ h
    cases h
  case caret =>
    intro _ h
    have hkind := kind_continuation (K := (isStructural · = false)) cs rfl rfl
    exact absurd (hkind.symm.trans h) (by decide)
  case digit =>
    intro _ h
    have hkind := kind_numberTail (K := (isStructural · = false)) first cs rfl fun _ => rfl
    exact absurd (hkind.symm.trans h) (by decide)
  case letter =>
    intro _ h
    have hkind := kind_word (K := (isStructural · = false)) first cs rfl fun _ => rfl
    exact absurd (hkind.symm.trans h) (by decide)
  case dot =>
    intro _ h
    have hkind := kind_dotted (K := (isStructural · = false)) cs (fun _ => rfl) rfl fun _ => rfl
    exact absurd (hkind.symm.trans h) (by decide)
  case other =>
    intro h
    obtain ⟨htail, hkind⟩ := sign_of_isStructural h
    exact ⟨htail, .inr hkind⟩

/-- A line feed is a token of its own, whatever follows. -/
theorem lexeme_lineFeed (cs : List Char) : lexeme '\n' cs = ⟨.newline, [], cs⟩ := by
  simp [lexeme]

/-- A line end is the line feed alone. -/
theorem eq_of_lexeme_newline {first : Char} {cs : List Char}
    (h : (lexeme first cs).kind = .newline) : first = '\n' ∧ (lexeme first cs).tail = [] := by
  obtain ⟨htail, ⟨hfeed, -⟩ | hpunctuation⟩ := lexeme_of_isStructural (by rw [h]; rfl)
  · exact ⟨hfeed, htail⟩
  · rw [h] at hpunctuation
    unfold punctuation? at hpunctuation
    split at hpunctuation <;> cases hpunctuation

/-- The text of a token that decides structure is the line feed or its punctuation character. -/
theorem text_of_isStructural {start : Nat} {text : List Char} {t : Token}
    (ht : t ∈ tokensFrom start text) (h : isStructural t.kind = true) :
    ∃ c, t.text = String.ofList [c] ∧
      (c = '\n' ∧ t.kind = .newline ∨ punctuation? c = some t.kind) := by
  induction start, text using tokensFrom.induct with
  | case1 =>
    rw [tokensFrom] at ht
    cases ht
  | case2 start c cs next taken ih =>
    rw [tokensFrom] at ht
    rcases List.mem_cons.mp ht with rfl | ht
    · obtain ⟨htail, hfirst⟩ := lexeme_of_isStructural h
      exact ⟨c, by rw [htail], hfirst⟩
    · exact ih ht

/-- The last token of a text is its first one, or the last of what follows that one. -/
theorem getLast?_tokensFrom_cons {start : Nat} {c : Char} {cs : List Char} {last : Token}
    (h : (tokensFrom start (c :: cs)).getLast? = some last) :
    (lexeme c cs).rest = [] ∧ last.kind = (lexeme c cs).kind ∨
      (tokensFrom (start + byteLength (c :: (lexeme c cs).tail)) (lexeme c cs).rest).getLast? =
        some last := by
  rw [tokensFrom] at h
  cases hrest : (lexeme c cs).rest with
  | nil =>
    rw [hrest, tokensFrom] at h
    exact .inl ⟨rfl, congrArg Token.kind (Option.some.inj h).symm⟩
  | cons d ds =>
    have hmore : tokensFrom (start + byteLength (c :: (lexeme c cs).tail)) (d :: ds) ≠ [] := by
      rw [tokensFrom]
      exact List.cons_ne_nil _ _
    rw [hrest, List.getLast?_cons_of_ne_nil hmore] at h
    exact .inr h

/-- A text whose last token is a line end has a line feed at its end. -/
theorem endsInLineFeed_of_tokensFrom {start : Nat} {text : List Char} {last : Token}
    (hlast : (tokensFrom start text).getLast? = some last) (hkind : last.kind = .newline) :
    EndsInLineFeed text := by
  induction start, text using tokensFrom.induct with
  | case1 =>
    rw [tokensFrom] at hlast
    cases hlast
  | case2 start c cs next taken ih =>
    have htext : taken ++ next.rest = c :: cs := by rw [List.cons_append, lexeme_append]
    rcases getLast?_tokensFrom_cons hlast with ⟨hrest, hnext⟩ | hlater
    · obtain ⟨rfl, htail⟩ := eq_of_lexeme_newline (hnext.symm.trans hkind)
      rw [← htext, List.cons_append, htail, hrest]
      rfl
    · exact (ih hlater).of_append htext

/-- A text whose last token is a line end is cut by itself, whatever follows it. -/
theorem tokensFrom_append {start : Nat} {text : List Char} {last : Token} (more : List Char)
    (hlast : (tokensFrom start text).getLast? = some last) (hkind : last.kind = .newline) :
    tokensFrom start (text ++ more) =
      tokensFrom start text ++ tokensFrom (start + byteLength text) more := by
  induction start, text using tokensFrom.induct with
  | case1 =>
    rw [tokensFrom] at hlast
    cases hlast
  | case2 start c cs next taken ih =>
    have hlength : byteLength (c :: cs) = byteLength taken + byteLength next.rest := by
      rw [← Text.byteLength_append, List.cons_append, lexeme_append]
    rw [tokensFrom, hlength, List.cons_append, List.cons_append, tokensFrom]
    rcases getLast?_tokensFrom_cons hlast with ⟨hrest, hnext⟩ | hlater
    · obtain ⟨rfl, -⟩ := eq_of_lexeme_newline (hnext.symm.trans hkind)
      obtain rfl : cs = [] := by rwa [lexeme_lineFeed] at hrest
      simp only [lexeme_lineFeed, next, taken, List.nil_append, tokensFrom]
      rfl
    · rw [lexeme_extend more (endsInLineFeed_of_tokensFrom hlater hkind), Lexeme.extend]
      dsimp only
      rw [ih hlater, ← Nat.add_assoc]

/-- Cutting a text that stands farther to the right moves its tokens. -/
theorem tokensFrom_add (shift start : Nat) (text : List Char) :
    tokensFrom (shift + start) text = (tokensFrom start text).map (Token.shift shift) := by
  fun_induction tokensFrom start text with
  | case1 => rw [tokensFrom]; rfl
  | case2 start c cs next taken ih => 
    rw [tokensFrom, List.map_cons, ← ih, Nat.add_assoc]
    rfl

end Lexer

/-- A script whose last token is a line end is cut by itself, and what is put behind it as if it
stood alone, farther to the right. -/
theorem tokenize_append {p : String} (b : String) {last : Token}
    (hlast : (tokenize p).getLast? = some last) (hkind : last.kind = .newline) :
    tokenize (p ++ b) = tokenize p ++ (tokenize b).map (Token.shift p.utf8ByteSize) := by
  rw [tokenize, String.toList_append, Lexer.tokensFrom_append b.toList hlast hkind, Nat.zero_add,
    Text.byteLength_toList, ← Nat.add_zero p.utf8ByteSize, Lexer.tokensFrom_add, Nat.add_zero]
  rfl

end ElvishOutline

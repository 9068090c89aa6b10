import ElvishOutline.Proofs.LoneTokens

/-!
# Barewords are whole

A bareword is read in three places: behind a letter or underscore, behind a leading dot, and behind a
number that a dot and a word character follow. In all of them it ends where the same reader stops: in
front of a character that is no word character, which is a dot only if a second dot stands behind it.
The token behind a bareword starts there, so it is no word, no number and no minus.

A text is a reserved word exactly if it is written as one. Only barewords can be, since reserved words
start with a letter, and a letter has only one reader.
-/

namespace ElvishOutline

/-- Barewords: the reserved words, constants included, and the identifiers. -/
def TokenKind.isWord : TokenKind → Bool
  | .keyword _ | .identifier => true
  | _ => false

/-- The kinds that may stand right behind a bareword: all but barewords, numbers and the minus. -/
def TokenKind.mayFollowWord : TokenKind → Bool
  | .keyword _ | .identifier | .number _ | .operator .minus => false
  | _ => true

namespace Lexer

/-- A digit is a word character, but no word starts with it. -/
theorem digit_in_words {c : Char} (h : c.isDigit = true) :
    isWordChar c = true ∧ isWordStart c = false := by
  have hcodes : ∀ n < 58, 48 ≤ n →
      isWordChar (Char.ofNat n) = true ∧ isWordStart (Char.ofNat n) = false := by decide +kernel
  obtain ⟨hlow, hhigh⟩ := Char.isDigit_iff_toNat.mp h
  rw [← Char.ofNat_toNat c]
  exact hcodes c.toNat (Nat.lt_succ_of_le hhigh) hlow

/-- What starts a word is a word character. -/
theorem isWordChar_of_isWordStart {c : Char} (h : isWordStart c = true) : isWordChar c = true := by
  simp only [isWordStart, Bool.or_eq_true] at h
  simp only [isWordChar, Text.isAlphanumeric, Bool.or_eq_true]
  cases h with
  | inl hletter => exact .inl (.inl (.inl (.inl (.inl hletter))))
  | inr hunderscore => exact .inl (.inl (.inl (.inr hunderscore)))

/-- A letter or underscore is read as the start of a bareword. -/
theorem lexeme_of_isWordStart {first : Char} (h : isWordStart first = true) (cs : List Char) :
    lexeme first cs = word first cs := by
  have hdigit : ¬first.isDigit = true := by
    intro hdigit
    rw [(digit_in_words hdigit).2] at h
    cases h
  rw [lexeme_of_class (p := isWordStart) (by decide) h, if_neg hdigit, if_pos h]

/-- A reserved word starts with a letter. -/
theorem isWordStart_of_ofWord? {first : Char} {cs : List Char} {k : Keyword}
    (h : Keyword.ofWord? (String.ofList (first :: cs)) = some k) : isWordStart first = true := by
  have hfirst : k.word.toList.head?.all isWordStart = true := by
    cases k with
    | block b => cases b <;> decide +kernel
    | _ => decide +kernel
  rw [← Keyword.ofWord?_eq_some_iff.mp h, String.toList_ofList] at hfirst
  exact hfirst

/-- The kind of a bareword says whether it is a reserved word, and which. -/
theorem wordKind_eq_keyword_iff {text : List Char} {k : Keyword} :
    wordKind text = .keyword k ↔ Keyword.ofWord? (String.ofList text) = some k := by
  unfold wordKind
  cases Keyword.ofWord? (String.ofList text) with
  | none => exact iff_of_false nofun nofun
  | some found =>
    constructor
    · intro h
      rw [TokenKind.keyword.inj h]
    · intro h
      rw [Option.some.inj h]

/-- Punctuation is no word. -/
theorem isWord_punctuation? {c : Char} {kind : TokenKind} (h : punctuation? c = some kind) :
    kind.isWord = false := by
  unfold punctuation? at h
  split at h <;> cases h <;> rfl

/-- A token that starts with no letter is no reserved word. -/
theorem kind_ne_keyword {first : Char} (h : isWordStart first = false) (cs : List Char)
    (k : Keyword) : (lexeme first cs).kind ≠ .keyword k := by
  apply lexeme_reader first (P := fun reader => (reader cs).kind ≠ .keyword k)
  case feed | blank | comment | single | double | dollar => exact fun _ => nofun
  case caret => exact fun _ => kind_continuation (K := (· ≠ .keyword k)) cs nofun nofun
  case digit => exact fun _ => kind_numberTail (K := (· ≠ .keyword k)) first cs nofun fun _ => nofun
  case letter =>
    intro hletter
    rw [h] at hletter
    cases hletter
  case dot =>
    intro _
    unfold dotted
    split
    · nofun
    · nofun
    · intro hkind
      have hdot := isWordStart_of_ofWord? (wordKind_eq_keyword_iff.mp hkind)
      exact absurd hdot (by decide)
  case other =>
    apply kind_sign (K := (· ≠ .keyword k)) first cs _ (fun _ => nofun) nofun
    intro kind hkind heq
    have hword := isWord_punctuation? hkind
    rw [heq] at hword
    cases hword

/-- A token is a reserved word exactly if its text is. -/
theorem kind_eq_keyword_iff (first : Char) (cs : List Char) (k : Keyword) :
    (lexeme first cs).kind = .keyword k ↔
      Keyword.ofWord? (String.ofList (first :: (lexeme first cs).tail)) = some k := by
  cases hstart : isWordStart first with
  | true =>
    rw [lexeme_of_isWordStart hstart]
    exact wordKind_eq_keyword_iff
  | false =>
    refine iff_of_false (kind_ne_keyword hstart cs k) ?_
    intro hword
    rw [isWordStart_of_ofWord? hword] at hstart
    cases hstart

/-- A text that no bareword ahead of it runs on into: it starts with no word character, and with a dot
only if another dot stands behind that. -/
def EndsWord (rest : List Char) : Prop :=
  ∀ c cs, rest = c :: cs → isWordChar c = false ∧ (c = '.' → cs.head? = some '.')

/-- A bareword runs on as far as it can. -/
theorem endsWord_wordTail (cs : List Char) : EndsWord (wordTail cs).2 := by
  fun_induction wordTail cs with
  | case1 =>
    intro c cs hcons
    cases hcons
  | case2 c cs hword ih => exact ih
  | case3 c cs hword hdot ih => exact ih
  | case4 c cs hword hdot =>
    intro d ds heq
    obtain ⟨rfl, rfl⟩ := List.cons.inj heq
    refine ⟨Bool.eq_false_iff.mpr hword, ?_⟩
    intro hd
    by_contra hhead
    exact hdot ⟨hd, hhead⟩

/-- Wherever a bareword is read, it runs on as far as it can. -/
theorem endsWord_of_isWord {first : Char} {cs : List Char}
    (h : (lexeme first cs).kind.isWord = true) : EndsWord (lexeme first cs).rest := by
  revert h
  apply lexeme_reader first (P := fun reader => (reader cs).kind.isWord = true →
    EndsWord (reader cs).rest)
  case feed | blank | comment | single | double | dollar => exact fun _ => nofun
  case caret =>
    intro _ h
    have hkind := kind_continuation (K := (·.isWord = false)) cs rfl rfl
    rw [hkind] at h
    cases h
  case digit =>
    intro _ h
    beta_reduce at h ⊢
    -- Only a number that runs on into a word is a word, and there the reader of words ends it.
    rcases numberTail_cases first cs with ⟨_, _, -, hread⟩ | ⟨-, -, hread⟩ | ⟨-, -, hread⟩
    · rw [hread] at h
      cases h
    · rw [hread]
      exact endsWord_wordTail _
    · rw [hread] at h
      cases h
  case letter => exact fun _ _ => endsWord_wordTail cs
  case dot =>
    intro _ h
    unfold dotted at h ⊢
    split at h
    · cases h
    · cases h
    · exact endsWord_wordTail cs
  case other =>
    intro h
    have hkind := kind_sign (K := (·.isWord = false)) first cs (fun _ => isWord_punctuation?)
      (fun _ => rfl) rfl
    rw [hkind] at h
    cases h

/-- Punctuation other than the minus may stand behind a word. -/
theorem mayFollowWord_punctuation? {c : Char} {kind : TokenKind}
    (h : punctuation? c = some kind) : kind.mayFollowWord = true ∨ c = '-' := by
  unfold punctuation? at h
  split at h <;> cases h <;> decide

/-- A sign other than the minus may stand behind a word. -/
theorem mayFollowWord_sign {first : Char} (h : first ≠ '-') (cs : List Char) :
    (sign first cs).kind.mayFollowWord = true := by
  unfold sign
  split
  · next kind _ hkind => exact (mayFollowWord_punctuation? hkind).resolve_right h
  · next alone withEquals _ hkinds =>
    have hboth : alone.mayFollowWord = true ∧ withEquals.mayFollowWord = true := by
      unfold comparison? at hkinds
      split at hkinds <;> cases hkinds <;> exact ⟨rfl, rfl⟩
    split
    · exact hboth.2
    · exact hboth.1
  · rfl

/-- A token that starts where a bareword ends may stand behind it, and is a range if it starts with a
dot. -/
theorem mayFollowWord_of_endsWord {first : Char} {cs : List Char} (h : EndsWord (first :: cs)) :
    (lexeme first cs).kind.mayFollowWord = true ∧
      (first = '.' → (lexeme first cs).kind = .operator .range ∨
        (lexeme first cs).kind = .operator .rangeInclusive) := by
  obtain ⟨hchar, hdots⟩ := h first cs rfl
  have hrange (hdot : first = '.') : (dotted cs).kind = .operator .range ∨
      (dotted cs).kind = .operator .rangeInclusive := by
    obtain ⟨ds, rfl⟩ := List.head?_eq_some_iff.mp (hdots hdot)
    unfold dotted
    split
    · exact .inr rfl
    · exact .inl rfl
    · next hno => exact absurd rfl (hno ds)
  constructor
  · apply lexeme_reader first (P := fun reader => (reader cs).kind.mayFollowWord = true)
    case feed | blank | comment | single | double | dollar => exact fun _ => rfl
    case caret =>
      exact fun _ => kind_continuation (K := (·.mayFollowWord = true)) cs rfl rfl
    -- A digit or a letter would have been taken by the word.
    case digit =>
      intro hdigit
      rw [(digit_in_words hdigit).1] at hchar
      cases hchar
    case letter =>
      intro hletter
      rw [isWordChar_of_isWordStart hletter] at hchar
      cases hchar
    case dot =>
      intro hdot
      cases hrange hdot with
      | inl hkind => rw [hkind]; rfl
      | inr hkind => rw [hkind]; rfl
    case other =>
      refine mayFollowWord_sign ?_ cs
      intro hminus
      rw [hminus] at hchar
      exact absurd hchar (by decide)
  · intro hdot
    have hlexeme : lexeme '.' cs = dotted cs :=
      lexeme_of_class (p := (· = '.')) (by decide) rfl cs
    rw [hdot, hlexeme]
    exact hrange hdot

/-- Behind every bareword stands a token that may follow it. -/
theorem isChain_tokensFrom (start : Nat) (text : List Char) :
    (tokensFrom start text).IsChain fun t u => t.kind.isWord = true →
      u.kind.mayFollowWord = true ∧ ∀ c ∈ u.text.toList.head?, isWordChar c = false ∧
        (c = '.' → u.kind = .operator .range ∨ u.kind = .operator .rangeInclusive) := by
  induction start, text using tokensFrom.induct with
  | case1 start =>
    rw [tokensFrom]
    exact .nil
  | case2 start c cs next taken ih =>
    rw [tokensFrom]
    refine List.isChain_cons.mpr ⟨?_, ih⟩
    intro u hu hword
    have hends := endsWord_of_isWord hword
    cases hrest : (lexeme c cs).rest with
    | nil =>
      rw [hrest, tokensFrom] at hu
      cases hu
    | cons d ds =>
      rw [hrest] at hends
      rw [hrest, tokensFrom] at hu
      obtain ⟨hfollows, hdot⟩ := mayFollowWord_of_endsWord hends
      obtain rfl := Option.some.inj hu
      refine ⟨hfollows, ?_⟩
      intro e he
      rw [String.toList_ofList] at he
      obtain rfl : d = e := Option.some.inj he
      exact ⟨(hends d ds rfl).1, hdot⟩

end Lexer

/-- In any script a token is a reserved word exactly if its text is, so that no identifier is written
like one. A bareword is never followed at once by another bareword, by a number, by a minus or by any
token that starts with a word character, and by one that starts with a dot only if that is a range. -/
theorem words_whole_and_keywords_exact (source : String) :
    (∀ t ∈ tokenize source, ∀ k, t.kind = .keyword k ↔ Keyword.ofWord? t.text = some k) ∧
    (∀ t ∈ tokenize source, t.kind = .identifier → Keyword.ofWord? t.text = none) ∧
    (tokenize source).IsChain fun t u => t.kind.isWord = true →
      u.kind.mayFollowWord = true ∧ ∀ c ∈ u.text.toList.head?, Lexer.isWordChar c = false ∧
        (c = '.' → u.kind = .operator .range ∨ u.kind = .operator .rangeInclusive) := by
  have hexact : ∀ t ∈ tokenize source, ∀ k,
      t.kind = .keyword k ↔ Keyword.ofWord? t.text = some k := by
    intro t ht k
    obtain ⟨-, c, cs, -, hlexeme⟩ := Lexer.exists_lexeme_of_mem_tokensFrom ht
    rw [hlexeme]
    exact Lexer.kind_eq_keyword_iff c cs k
  refine ⟨hexact, ?_, Lexer.isChain_tokensFrom 0 source.toList⟩
  intro t ht hidentifier
  cases hword : Keyword.ofWord? t.text with
  | none => rfl
  | some k =>
    rw [(hexact t ht k).mpr hword] at hidentifier
    cases hidentifier

/-- Two identifiers with reserved words in them, one of which starts like a number. They are cut at the
range between them and nowhere else. -/
theorem words_whole_around_range :
    (⟨.identifier, "1.5.fn", 0, 6⟩ : Token) ∈ tokenize "1.5.fn..if-λ else" ∧
      (⟨.identifier, "if-λ", 8, 5⟩ : Token) ∈ tokenize "1.5.fn..if-λ else" ∧
      (⟨.keyword (.block .elseBlock), "else", 14, 4⟩ : Token) ∈ tokenize "1.5.fn..if-λ else" ∧
      Keyword.ofWord? "1.5.fn" = none ∧ Keyword.ofWord? "if-λ" = none ∧
      Keyword.ofWord? "else" = some (.block .elseBlock) := by
  have hnumber : (⟨.identifier, "1.5.fn", 0, 6⟩ : Token) ∈ tokenize "1.5.fn..if-λ else" := by
    decide +kernel
  have hdashed : (⟨.identifier, "if-λ", 8, 5⟩ : Token) ∈ tokenize "1.5.fn..if-λ else" := by
    decide +kernel
  have helse : (⟨.keyword (.block .elseBlock), "else", 14, 4⟩ : Token) ∈
      tokenize "1.5.fn..if-λ else" := by decide +kernel
  obtain ⟨hexact, hnone, -⟩ := words_whole_and_keywords_exact "1.5.fn..if-λ else"
  refine ⟨hnumber, hdashed, helse, hnone _ hnumber rfl, hnone _ hdashed rfl, ?_⟩
  exact (hexact _ helse _).mp rfl

end ElvishOutline

import Mathlib.Data.List.TakeWhile
import ElvishOutline.Proofs.LoneTokens

/-!
# Line feeds and quotes inside tokens

Statements end at line feeds and regions at delimiters, so a token that takes either along hides it
from all later passes. Strings are meant to do that, and nothing else does it: the only other tokens
with a line feed are the line end and the caret that continues a line.

How far a string goes is stated here without the readers: by what may stand between its quotes. A
string either has its closing quote behind such a body, or there is no such quote and it is the last
token of its script.
-/

namespace ElvishOutline

/-- What stands between single quotes: characters other than quotes, and doubled quotes. -/
inductive SingleQuotedBody : List Char → Prop where
  | nil : SingleQuotedBody []
  | plain {c : Char} {cs : List Char} (hc : c ≠ '\'') (rest : SingleQuotedBody cs) :
      SingleQuotedBody (c :: cs)
  | doubled {cs : List Char} (rest : SingleQuotedBody cs) : SingleQuotedBody ('\'' :: '\'' :: cs)

/-- What stands between double quotes: characters other than quotes and backslashes, and any
characters with a backslash ahead of them. -/
inductive DoubleQuotedBody : List Char → Prop where
  | nil : DoubleQuotedBody []
  | plain {c : Char} {cs : List Char} (hquote : c ≠ '"') (hslash : c ≠ '\\')
      (rest : DoubleQuotedBody cs) : DoubleQuotedBody (c :: cs)
  | escaped (c : Char) {cs : List Char} (rest : DoubleQuotedBody cs) :
      DoubleQuotedBody ('\\' :: c :: cs)

/-- A literal with both of its quotes and a body of the given sort between them. -/
def IsClosedLiteral (quote : Char) (Body : List Char → Prop) (text : List Char) : Prop :=
  ∃ body, Body body ∧ text = quote :: (body ++ [quote])

/-- A literal without a closing quote: behind the opening one there are a body and an end of the given
sorts only. -/
def IsOpenLiteral (quote : Char) (Body End : List Char → Prop) (text : List Char) : Prop :=
  ¬IsClosedLiteral quote Body text ∧
    ∃ body rest, Body body ∧ End rest ∧ text = quote :: (body ++ rest)

namespace SingleQuotedBody

variable {c : Char} {cs : List Char}

/-- A body goes on behind a character that is no quote. -/
theorem of_plain (hc : c ≠ '\'') (h : SingleQuotedBody (c :: cs)) : SingleQuotedBody cs := by
  cases h with
  | plain _ rest => exact rest
  | doubled => exact absurd rfl hc

/-- A body goes on behind a doubled quote. -/
theorem of_doubled (h : SingleQuotedBody ('\'' :: '\'' :: cs)) : SingleQuotedBody cs := by
  cases h with
  | plain hc => exact absurd rfl hc
  | doubled rest => exact rest

/-- The quotes of a body are paired, so one more quote makes it no body. -/
theorem not_append_quote (h : SingleQuotedBody cs) : ¬SingleQuotedBody (cs ++ ['\'']) := by
  induction h with
  | nil =>
    intro hquote
    cases hquote with
    | plain hc => exact hc rfl
  | plain hc _ ih => exact fun hmore => ih (of_plain hc hmore)
  | doubled _ ih => exact fun hmore => ih (of_doubled hmore)

end SingleQuotedBody

namespace DoubleQuotedBody

variable {c : Char} {cs : List Char}

/-- A body goes on behind a character that is no backslash. -/
theorem of_plain (hslash : c ≠ '\\') (h : DoubleQuotedBody (c :: cs)) : DoubleQuotedBody cs := by
  cases h with
  | plain _ _ rest => exact rest
  | escaped => exact absurd rfl hslash

/-- A body goes on behind a backslash and the character that it escapes. -/
theorem of_escaped (h : DoubleQuotedBody ('\\' :: c :: cs)) : DoubleQuotedBody cs := by
  cases h with
  | plain _ hslash => exact absurd rfl hslash
  | escaped _ rest => exact rest

/-- The quotes of a body have backslashes of their own, so one more quote makes it no body. -/
theorem not_append_quote (h : DoubleQuotedBody cs) : ¬DoubleQuotedBody (cs ++ ['"']) := by
  induction h with
  | nil =>
    intro hquote
    cases hquote with
    | plain hc => exact hc rfl
  | plain _ hslash _ ih => exact fun hmore => ih (of_plain hslash hmore)
  | escaped _ _ ih => exact fun hmore => ih (of_escaped hmore)

end DoubleQuotedBody

namespace Lexer

/-- The rest of a single-quoted string is a body with the closing quote, or a body that takes all that
is there. -/
theorem singleQuotedTail_cases (cs : List Char) :
    (∃ body, SingleQuotedBody body ∧ (singleQuotedTail cs).1 = body ++ ['\'']) ∨
      (singleQuotedTail cs).2 = [] ∧ SingleQuotedBody (singleQuotedTail cs).1 := by
  fun_induction singleQuotedTail cs with
  | case1 => exact .inr ⟨rfl, .nil⟩
  | case2 cs ih =>
    rcases ih with ⟨body, hbody, htail⟩ | ⟨hrest, hbody⟩
    · exact .inl ⟨_, hbody.doubled, by rw [Split.cons_fst, Split.cons_fst, htail]; rfl⟩
    · exact .inr ⟨hrest, hbody.doubled⟩
  | case3 cs hpair => exact .inl ⟨[], .nil, rfl⟩
  | case4 c cs hpair hquote ih =>
    rcases ih with ⟨body, hbody, htail⟩ | ⟨hrest, hbody⟩
    · exact .inl ⟨_, hbody.plain hquote, by rw [Split.cons_fst, htail]; rfl⟩
    · exact .inr ⟨hrest, hbody.plain hquote⟩

/-- The rest of a double-quoted string is a body with the closing quote, or a body that takes all that
is there up to a last backslash. -/
theorem doubleQuotedTail_cases (cs : List Char) :
    (∃ body, DoubleQuotedBody body ∧ (doubleQuotedTail cs).1 = body ++ ['"']) ∨
      (doubleQuotedTail cs).2 = [] ∧ ∃ body rest, DoubleQuotedBody body ∧
        (rest = [] ∨ rest = ['\\']) ∧ (doubleQuotedTail cs).1 = body ++ rest := by
  fun_induction doubleQuotedTail cs with
  | case1 => exact .inr ⟨rfl, [], [], .nil, .inl rfl, rfl⟩
  | case2 c cs ih =>
    rcases ih with ⟨body, hbody, htail⟩ | ⟨hrest, body, rest, hbody, hend, htail⟩
    · exact .inl ⟨_, hbody.escaped c, by rw [Split.cons_fst, Split.cons_fst, htail]; rfl⟩
    · exact .inr ⟨hrest, _, rest, hbody.escaped c, hend,
        by rw [Split.cons_fst, Split.cons_fst, htail]; rfl⟩
  | case3 cs hpair => exact .inl ⟨[], .nil, rfl⟩
  | case4 c cs hpair hquote ih =>
    by_cases hslash : c = '\\'
    · cases cs with
      | nil => exact .inr ⟨rfl, [], [c], .nil, .inr (by rw [hslash]), rfl⟩
      | cons d ds => exact absurd rfl (hpair d ds hslash)
    · rcases ih with ⟨body, hbody, htail⟩ | ⟨hrest, body, rest, hbody, hend, htail⟩
      · exact .inl ⟨_, hbody.plain hquote hslash, by rw [Split.cons_fst, htail]; rfl⟩
      · exact .inr ⟨hrest, _, rest, hbody.plain hquote hslash, hend,
          by rw [Split.cons_fst, htail]; rfl⟩

section LineFeeds

variable (cs : List Char)

/-- A longest part of characters of which a line feed is none has no line feed. -/
theorem lineFeed_not_mem_spanning {p : Char → Bool} (hp : p '\n' = false) :
    '\n' ∉ (Split.spanning p cs).1 := by
  intro hmem
  have hfeed := List.mem_takeWhile_imp hmem
  rw [hp] at hfeed
  cases hfeed

/-- There is no line feed in a word. -/
theorem lineFeed_not_mem_wordTail : '\n' ∉ (wordTail cs).1 := by
  have hfeed : isWordChar '\n' = false := by decide
  fun_induction wordTail cs with
  | case1 => exact List.not_mem_nil
  | case2 c cs hword ih =>
    intro hmem
    rcases List.mem_cons.mp hmem with rfl | hmem
    · rw [hfeed] at hword
      cases hword
    · exact ih hmem
  | case3 c cs hword hdot ih =>
    intro hmem
    rcases List.mem_cons.mp hmem with rfl | hmem
    · exact absurd hdot.1 (by decide)
    · exact ih hmem
  | case4 => exact List.not_mem_nil

/-- There is no line feed in a fraction. -/
theorem lineFeed_not_mem_fraction : '\n' ∉ (fraction cs).1 := by
  rcases fraction_cases cs with hno | ⟨digit, rest, -, -, hyes⟩
  · simp [hno]
  · have hdigits := lineFeed_not_mem_spanning (digit :: rest) (p := isDecimalDigit) (by decide)
    simp [hyes, hdigits]

/-- There is no line feed in an exponent. -/
theorem lineFeed_not_mem_exponent : '\n' ∉ (exponent cs).1 := by
  rcases exponent_cases cs with hno | ⟨e, next, rest, ⟨he, hnext⟩, -, hyes⟩
  · simp [hno]
  · have hdigits := lineFeed_not_mem_spanning rest (p := isDecimalDigit) (by decide)
    have hletter : '\n' ≠ e := by
      intro heq
      rw [← heq] at he
      exact absurd he (by decide)
    have hsign : '\n' ≠ next := by
      intro heq
      rw [← heq] at hnext
      exact absurd hnext (by decide)
    simp [hyes, hdigits, hletter, hsign]

/-- There is no line feed in a decimal number. -/
theorem lineFeed_not_mem_decimalTail : '\n' ∉ (decimalTail cs).2.1 := by
  have hwhole := lineFeed_not_mem_spanning cs (p := isDecimalDigit) (by decide)
  simp [decimalTail, hwhole, lineFeed_not_mem_fraction, lineFeed_not_mem_exponent]

/-- There is no line feed in a number of any form. -/
theorem lineFeed_not_mem_numberTail (first : Char) : '\n' ∉ (numberTail first cs).2.1 := by
  unfold numberTail
  split
  · next form split hbased =>
    obtain ⟨letter, digit, rest, base, -, hbase, -, rfl⟩ := exists_of_basedTail? hbased
    have hdigits : '\n' ∉ (Split.spanning (fun c => isDigitOf base c || c = '_') (digit :: rest)).1 :=
      lineFeed_not_mem_spanning _ (by simp [isDigitOf])
    have hletter : '\n' ≠ letter := by
      have hnone : baseOf? '\n' = none := by decide
      intro heq
      rw [← heq, hnone] at hbase
      cases hbase
    simp [hdigits, hletter]
  · dsimp only
    split
    · simp [lineFeed_not_mem_decimalTail, lineFeed_not_mem_wordTail]
    · exact lineFeed_not_mem_decimalTail cs

/-- There is no line feed in a token that starts with a dot. -/
theorem lineFeed_not_mem_dotted : '\n' ∉ (dotted cs).tail := by
  unfold dotted
  split
  · exact (by decide : '\n' ∉ ['.', '='])
  · exact (by decide : '\n' ∉ ['.'])
  · exact lineFeed_not_mem_wordTail cs

/-- There is no line feed in a sign. -/
theorem lineFeed_not_mem_sign (first : Char) : '\n' ∉ (sign first cs).tail := by
  unfold sign
  split
  · exact List.not_mem_nil
  · split
    · exact (by decide : '\n' ∉ ['='])
    · exact List.not_mem_nil
  · exact List.not_mem_nil

end LineFeeds

/-- A line feed behind the first character of a token is that of a continued line, or it is inside a
string. -/
theorem lexeme_of_lineFeed_mem {first : Char} {cs : List Char} (h : '\n' ∈ (lexeme first cs).tail) :
    ((lexeme first cs).kind = .blank ∧ first = '^' ∧ (lexeme first cs).tail = ['\n']) ∨
      (lexeme first cs).kind = .singleQuoted ∨ (lexeme first cs).kind = .doubleQuoted := by
  revert h
  apply lexeme_reader first (P := fun reader => '\n' ∈ (reader cs).tail →
    ((reader cs).kind = .blank ∧ first = '^' ∧ (reader cs).tail = ['\n']) ∨
      (reader cs).kind = .singleQuoted ∨ (reader cs).kind = .doubleQuoted)
  case feed => exact fun _ h => absurd h List.not_mem_nil
  case blank => exact fun _ h => absurd h (lineFeed_not_mem_spanning cs (by decide))
  case caret =>
    intro hcaret h
    unfold continuation at h ⊢
    split at h
    · exact .inl ⟨rfl, hcaret, rfl⟩
    · exact absurd h List.not_mem_nil
  case comment => exact fun _ h => absurd h (lineFeed_not_mem_spanning cs (by decide))
  case single => exact fun _ _ => .inr (.inl rfl)
  case double => exact fun _ _ => .inr (.inr rfl)
  case dollar => exact fun _ h => absurd h (lineFeed_not_mem_spanning cs (by decide))
  case digit => exact fun _ h => absurd h (lineFeed_not_mem_numberTail cs first)
  case letter => exact fun _ h => absurd h (lineFeed_not_mem_wordTail cs)
  case dot => exact fun _ h => absurd h (lineFeed_not_mem_dotted cs)
  case other => exact fun h => absurd h (lineFeed_not_mem_sign cs first)

/-- A quote at the start of a token makes it a string, and nothing else does. -/
theorem lexeme_quoted_cases (first : Char) (cs : List Char) :
    ((lexeme first cs).kind ≠ .singleQuoted ∧ (lexeme first cs).kind ≠ .doubleQuoted) ∨
      (first = '\'' ∧ lexeme first cs = .ofSplit .singleQuoted (singleQuotedTail cs)) ∨
      (first = '"' ∧ lexeme first cs = .ofSplit .doubleQuoted (doubleQuotedTail cs)) := by
  let K (kind : TokenKind) : Prop := kind ≠ .singleQuoted ∧ kind ≠ .doubleQuoted
  have hidentifier : K .identifier := by decide
  have hkeyword (k : Keyword) : K (.keyword k) := ⟨nofun, nofun⟩
  have hoperator (op : Operator) : K (.operator op) := ⟨nofun, nofun⟩
  have hunknown : K .unknown := by decide
  apply lexeme_reader first (P := fun reader => K (reader cs).kind ∨
    (first = '\'' ∧ reader cs = .ofSplit .singleQuoted (singleQuotedTail cs)) ∨
    (first = '"' ∧ reader cs = .ofSplit .doubleQuoted (doubleQuotedTail cs)))
  case feed | blank | comment | dollar => exact fun _ => .inl ⟨nofun, nofun⟩
  case caret => exact fun _ => .inl (kind_continuation cs (by decide) hunknown)
  case single => exact fun hfirst => .inr (.inl ⟨hfirst, rfl⟩)
  case double => exact fun hfirst => .inr (.inr ⟨hfirst, rfl⟩)
  case digit => exact fun _ => .inl (kind_numberTail first cs hidentifier fun _ => ⟨nofun, nofun⟩)
  case letter => exact fun _ => .inl (kind_word first cs hidentifier hkeyword)
  case dot => exact fun _ => .inl (kind_dotted cs hoperator hidentifier hkeyword)
  case other =>
    refine .inl (kind_sign first cs ?_ hoperator hunknown)
    intro kind hkind
    unfold punctuation? at hkind
    split at hkind <;> cases hkind <;> exact ⟨nofun, nofun⟩

/-- A single-quoted string is closed, or it is open and takes all that is there. -/
theorem literal_singleQuotedTail (cs : List Char) :
    IsClosedLiteral '\'' SingleQuotedBody ('\'' :: (singleQuotedTail cs).1) ∨
      (singleQuotedTail cs).2 = [] ∧
        IsOpenLiteral '\'' SingleQuotedBody (· = []) ('\'' :: (singleQuotedTail cs).1) := by
  rcases singleQuotedTail_cases cs with ⟨body, hbody, htail⟩ | ⟨hrest, hbody⟩
  · exact .inl ⟨body, hbody, by rw [htail]⟩
  · refine .inr ⟨hrest, ?_, _, [], hbody, rfl, by rw [List.append_nil]⟩
    intro hclosed
    obtain ⟨body, hinner, htext⟩ := hclosed
    rw [(List.cons.inj htext).2] at hbody
    exact hinner.not_append_quote hbody

/-- A double-quoted string is closed, or it is open and takes all that is there. -/
theorem literal_doubleQuotedTail (cs : List Char) :
    IsClosedLiteral '"' DoubleQuotedBody ('"' :: (doubleQuotedTail cs).1) ∨
      (doubleQuotedTail cs).2 = [] ∧
        IsOpenLiteral '"' DoubleQuotedBody (fun rest => rest = [] ∨ rest = ['\\'])
          ('"' :: (doubleQuotedTail cs).1) := by
  rcases doubleQuotedTail_cases cs with ⟨body, hbody, htail⟩ | ⟨hrest, body, rest, hbody, hend, htail⟩
  · exact .inl ⟨body, hbody, by rw [htail]⟩
  · refine .inr ⟨hrest, ?_, body, rest, hbody, hend, by rw [htail]⟩
    intro hclosed
    obtain ⟨inner, hinner, htext⟩ := hclosed
    rw [htail] at htext
    have htext := (List.cons.inj htext).2
    cases hend with
    | inl hnil =>
      rw [hnil, List.append_nil] at htext
      rw [htext] at hbody
      exact hinner.not_append_quote hbody
    | inr hslash =>
      rw [hslash] at htext
      exact absurd (List.append_inj_right' htext rfl) (by decide)

end Lexer

/-- For every token of any script: if there is a line feed in it, it is the line end, a caret with the
line feed behind it, or a string. A string is a closed literal, or it has no closing quote and is the
last token. -/
theorem line_feeds_and_quotes_confined (source : String) {t : Token} (ht : t ∈ tokenize source) :
    ('\n' ∈ t.text.toList →
      (t.kind = .newline ∧ t.text = "\n") ∨ (t.kind = .blank ∧ t.text = "^\n") ∨
        t.kind = .singleQuoted ∨ t.kind = .doubleQuoted) ∧
    (t.kind = .singleQuoted → IsClosedLiteral '\'' SingleQuotedBody t.text.toList ∨
      (tokenize source).getLast? = some t ∧
        IsOpenLiteral '\'' SingleQuotedBody (· = []) t.text.toList) ∧
    (t.kind = .doubleQuoted → IsClosedLiteral '"' DoubleQuotedBody t.text.toList ∨
      (tokenize source).getLast? = some t ∧
        IsOpenLiteral '"' DoubleQuotedBody (fun rest => rest = [] ∨ rest = ['\\'])
          t.text.toList) := by
  obtain ⟨before, c, cs, htokens, hlexeme⟩ := Lexer.exists_lexeme_of_mem_tokensFrom ht
  have hkind : t.kind = (Lexer.lexeme c cs).kind := congrArg Token.kind hlexeme
  have htext : t.text = String.ofList (c :: (Lexer.lexeme c cs).tail) := congrArg Token.text hlexeme
  have hlast (hrest : (Lexer.lexeme c cs).rest = []) : (tokenize source).getLast? = some t := by
    rw [tokenize, htokens, hrest, Lexer.tokensFrom, List.getLast?_append]
    rfl
  rw [hkind, htext, String.toList_ofList]
  refine ⟨?_, ?_, ?_⟩
  · intro hfeed
    by_cases hc : c = '\n'
    · rw [hc, Lexer.lexeme_lineFeed]
      exact .inl ⟨rfl, rfl⟩
    · have hmem := (List.mem_cons.mp hfeed).resolve_left fun heq => hc heq.symm
      rcases Lexer.lexeme_of_lineFeed_mem hmem with ⟨hblank, hcaret, htail⟩ | hquoted
      · exact .inr (.inl ⟨hblank, by rw [htail, hcaret]⟩)
      · exact .inr (.inr hquoted)
  · intro hsingle
    rcases Lexer.lexeme_quoted_cases c cs with ⟨hno, -⟩ | ⟨rfl, hread⟩ | ⟨-, hread⟩
    · exact absurd hsingle hno
    · rw [hread] at hlast ⊢
      exact (Lexer.literal_singleQuotedTail cs).imp_right fun hopen => ⟨hlast hopen.1, hopen.2⟩
    · rw [hread] at hsingle
      cases hsingle
  · intro hdouble
    rcases Lexer.lexeme_quoted_cases c cs with ⟨-, hno⟩ | ⟨-, hread⟩ | ⟨rfl, hread⟩
    · exact absurd hdouble hno
    · rw [hread] at hdouble
      cases hdouble
    · rw [hread] at hlast ⊢
      exact (Lexer.literal_doubleQuotedTail cs).imp_right fun hopen => ⟨hlast hopen.1, hopen.2⟩

/-- A string with a line feed and a doubled quote, and one that ends in a backslash behind an escaped
quote. -/
theorem quotes_confined_around_continued_line :
    (⟨.singleQuoted, "'it''s\n'", 0, 8⟩ : Token) ∈ tokenize "'it''s\n'^\n\"a\\\"\\" ∧
      (⟨.doubleQuoted, "\"a\\\"\\", 10, 5⟩ : Token) ∈ tokenize "'it''s\n'^\n\"a\\\"\\" ∧
      IsClosedLiteral '\'' SingleQuotedBody "'it''s\n'".toList ∧
      IsOpenLiteral '"' DoubleQuotedBody (fun rest => rest = [] ∨ rest = ['\\'])
        "\"a\\\"\\".toList := by
  have hsingle : (⟨.singleQuoted, "'it''s\n'", 0, 8⟩ : Token) ∈
      tokenize "'it''s\n'^\n\"a\\\"\\" := by decide +kernel
  have hdouble : (⟨.doubleQuoted, "\"a\\\"\\", 10, 5⟩ : Token) ∈
      tokenize "'it''s\n'^\n\"a\\\"\\" := by decide +kernel
  obtain ⟨-, hclosed, -⟩ := line_feeds_and_quotes_confined "'it''s\n'^\n\"a\\\"\\" hsingle
  obtain ⟨-, -, hopen⟩ := line_feeds_and_quotes_confined "'it''s\n'^\n\"a\\\"\\" hdouble
  refine ⟨hsingle, hdouble, (hclosed rfl).resolve_right ?_, ((hopen rfl).resolve_left ?_).2⟩
  · exact fun hlast => absurd hlast.1 (by decide +kernel)
  · intro hends
    obtain ⟨body, -, htext⟩ := hends
    have hlast : "\"a\\\"\\".toList.getLast? = some '"' := by
      rw [htext, ← List.cons_append, List.getLast?_append]
      rfl
    exact absurd hlast (by decide +kernel)

end ElvishOutline

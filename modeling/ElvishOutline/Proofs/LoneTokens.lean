import ElvishOutline.Proofs.Lookahead

/-!
# Tokens that stand alone

What a reader takes is settled by the characters that it takes and by the two behind them. So a token
is read again in front of every text that starts with the same two characters. It is read again in
front of nothing, too: no reader takes a character only because the text goes on behind it.

`Lexer.lexeme_replace` states both for all readers at once. It follows that the text of a token, cut
out of its script, is one token of the same kind (`tokenize_text_alone`).
-/

namespace ElvishOutline

open Text (byteLength)

/-- What may stand behind a token in place of the text that does: nothing, or a text with the same
first two characters. -/
def MayReplace (rest more : List Char) : Prop := more = [] ∨ more.take 2 = rest.take 2

namespace MayReplace

variable {rest more : List Char}

/-- Nothing may stand behind a token in place of any text. -/
theorem nil (rest : List Char) : MayReplace rest [] := .inl rfl

/-- Behind the last token there is nothing to be replaced. -/
theorem eq_nil (h : MayReplace [] more) : more = [] := by
  cases h with
  | inl hnil => exact hnil
  | inr htake => simpa using htake

/-- A replacement starts as what it replaces, if it starts at all. -/
theorem head? (h : MayReplace rest more) {c : Char} (hc : more.head? = some c) :
    rest.head? = some c := by
  have hfirst (cs : List Char) : cs.head? = (cs.take 2).head? := by cases cs <;> rfl
  cases h with
  | inl hnil =>
    rw [hnil] at hc
    cases hc
  | inr htake => rwa [hfirst, ← htake, ← hfirst]

/-- A replacement does not start with a character that the text it replaces does not start with. -/
theorem ne_of_cons {c d : Char} {ds : List Char} (h : MayReplace rest (d :: ds))
    (hc : ∀ es, rest ≠ c :: es) : d ≠ c := by
  intro heq
  obtain ⟨es, hes⟩ := List.head?_eq_some_iff.mp (h.head? rfl)
  exact hc es (by rw [hes, heq])

/-- Behind the same characters, the text with the replacement starts as the text did. -/
theorem head?_append (h : MayReplace rest more) {xs : List Char} {c : Char}
    (hc : (xs ++ more).head? = some c) : (xs ++ rest).head? = some c := by
  cases xs with
  | nil => exact h.head? hc
  | cons x xs => exact hc

/-- A replacement behind two characters may replace the text from these characters on. -/
theorem append (h : MayReplace rest more) {xs : List Char} (hxs : xs = [] ∨ 2 ≤ xs.length) :
    MayReplace (xs ++ rest) (xs ++ more) := by
  cases hxs with
  | inl hnil => rwa [hnil]
  | inr hlong =>
    exact .inr (by rw [List.take_append_of_le_length hlong, List.take_append_of_le_length hlong])

/-- What is said about the first two characters of a text, and is true of shorter texts, stays true
with a replacement at any place. -/
theorem of_pair (h : MayReplace rest more) {P : List Char → Prop} (hnil : P []) (hone : ∀ x, P [x])
    (hpair : ∀ x y zs zs', P (x :: y :: zs) → P (x :: y :: zs')) (xs : List Char)
    (hrest : P (xs ++ rest)) : P (xs ++ more) := by
  match xs, more, h with
  | x :: y :: zs, _, _ => exact hpair x y _ _ hrest
  | [], [], _ => exact hnil
  | [], [x], _ | [x], [], _ => exact hone x
  | [], x :: y :: zs, .inr htake =>
    rcases rest with _ | ⟨c, _ | ⟨d, ds⟩⟩
    · cases htake
    · cases htake
    · obtain ⟨hx, htake⟩ := List.cons.inj htake
      obtain ⟨hy, -⟩ := List.cons.inj htake
      rw [List.nil_append, hx, hy]
      exact hpair c d ds zs hrest
  | [x], y :: zs, h =>
    obtain ⟨ds, rfl⟩ := List.head?_eq_some_iff.mp (h.head? rfl)
    exact hpair _ _ _ _ hrest

end MayReplace

/-- A longest part stops in front of a replacement where it stopped. -/
theorem Split.spanning_replace {p : Char → Bool} {cs more : List Char}
    (h : MayReplace (spanning p cs).2 more) :
    spanning p ((spanning p cs).1 ++ more) = ((spanning p cs).1, more) := by
  induction cs with
  | nil =>
    rw [h.eq_nil]
    rfl
  | cons c cs ih =>
    by_cases hc : p c
    · have hcons (ds : List Char) : spanning p (c :: ds) = (spanning p ds).cons c := by
        simp [spanning, cons, hc]
      rw [hcons] at h ⊢
      rw [cons_fst, List.cons_append, hcons, ih h]
      rfl
    · have hstop : spanning p (c :: cs) = ([], c :: cs) := by simp [spanning, hc]
      rw [hstop] at h ⊢
      cases more with
      | nil => rfl
      | cons d ds =>
        obtain rfl : c = d := Option.some.inj (h.head? rfl)
        simp [spanning, hc]

namespace Lexer

/-- A word takes the same characters in front of a replacement. -/
theorem wordTail_replace {cs more : List Char} (h : MayReplace (wordTail cs).2 more) :
    wordTail ((wordTail cs).1 ++ more) = ((wordTail cs).1, more) := by
  fun_induction wordTail cs with
  | case1 =>
    rw [h.eq_nil]
    rfl
  | case2 c cs hword ih =>
    rw [Split.cons_fst, List.cons_append, wordTail, if_pos hword, ih h]
    rfl
  | case3 c cs hword hdot ih =>
    have hhead : ((wordTail cs).1 ++ more).head? ≠ some '.' := by
      intro hfirst
      have hcs := h.head?_append hfirst
      rw [Split.cons_snd, wordTail_append] at hcs
      exact hdot.2 hcs
    rw [Split.cons_fst, List.cons_append, wordTail, if_neg hword, if_pos ⟨hdot.1, hhead⟩, ih h]
    rfl
  | case4 c cs hword hdot =>
    -- The word ends in front of a character that is no part of it, or in front of two dots.
    cases h with
    | inl hnil =>
      rw [hnil]
      rfl
    | inr htake =>
      cases more with
      | nil => rfl
      | cons d ds =>
        obtain ⟨rfl, hsecond⟩ := List.cons.inj htake
        have hnext : ds.head? = cs.head? := by
          simpa [List.head?_take] using congrArg List.head? hsecond
        rw [List.nil_append, wordTail, if_neg hword, hnext, if_neg hdot]

/-- A literal in single quotes takes the same characters in front of a replacement. -/
theorem singleQuotedTail_replace {cs more : List Char} (h : MayReplace (singleQuotedTail cs).2 more) :
    singleQuotedTail ((singleQuotedTail cs).1 ++ more) = ((singleQuotedTail cs).1, more) := by
  fun_induction singleQuotedTail cs with
  | case1 =>
    rw [h.eq_nil]
    rfl
  | case2 cs ih =>
    rw [Split.cons_fst, Split.cons_fst, List.cons_append, List.cons_append, singleQuotedTail, ih h]
    rfl
  | case3 cs hpair =>
    rw [List.singleton_append, singleQuotedTail, if_pos rfl]
    intro ds _ hds
    -- A quote behind the closing one would have been there before.
    obtain ⟨es, hes⟩ := List.head?_eq_some_iff.mp (h.head? (by rw [hds]; rfl))
    exact hpair es rfl hes
  | case4 c cs hpair hquote ih =>
    rw [Split.cons_fst, List.cons_append, singleQuotedTail, if_neg hquote, ih h]
    · rfl
    · intro ds hc
      exact absurd hc hquote

/-- A literal in double quotes takes the same characters in front of a replacement. -/
theorem doubleQuotedTail_replace {cs more : List Char} (h : MayReplace (doubleQuotedTail cs).2 more) :
    doubleQuotedTail ((doubleQuotedTail cs).1 ++ more) = ((doubleQuotedTail cs).1, more) := by
  fun_induction doubleQuotedTail cs with
  | case1 =>
    rw [h.eq_nil]
    rfl
  | case2 c cs ih =>
    rw [Split.cons_fst, Split.cons_fst, List.cons_append, List.cons_append, doubleQuotedTail, ih h]
    rfl
  | case3 cs hpair =>
    rw [List.singleton_append, doubleQuotedTail, if_pos rfl]
    intro d ds hslash
    exact absurd hslash (by decide)
  | case4 c cs hpair hquote ih =>
    rw [Split.cons_fst, List.cons_append, doubleQuotedTail, if_neg hquote, ih h]
    · rfl
    · intro d ds hslash hds
      -- A backslash without a character to take along ends the script.
      cases cs with
      | nil =>
        rw [h.eq_nil] at hds
        cases hds
      | cons e es => exact hpair e es hslash rfl

/-- A number in another base has its letter and a digit, and takes the digits from there on. -/
theorem exists_of_basedTail? {first : Char} {cs : List Char} {form : NumberForm} {split : Split}
    (h : basedTail? first cs = some (form, split)) :
    ∃ letter digit rest base, cs = letter :: digit :: rest ∧ baseOf? letter = some (base, form) ∧
      (first = '0' ∧ isDigitOf base digit) ∧
      split = (Split.spanning (fun c => isDigitOf base c || c = '_') (digit :: rest)).cons letter := by
  unfold basedTail? at h
  split at h
  · next letter digit rest =>
    split at h
    · next base found hbase =>
      split at h
      · next hdigit =>
        obtain ⟨rfl, rfl⟩ := Prod.mk.inj (Option.some.inj h)
        exact ⟨letter, digit, rest, base, rfl, hbase, hdigit, rfl⟩
      · cases h
    · cases h
  · cases h

/-- A number with the letter of a base takes the same characters in front of a replacement. -/
theorem basedTail?_replace {first : Char} {cs more : List Char} {form : NumberForm} {split : Split}
    (hbased : basedTail? first cs = some (form, split)) (h : MayReplace split.2 more) :
    basedTail? first (split.1 ++ more) = some (form, split.1, more) := by
  obtain ⟨letter, digit, rest, base, -, hbase, hdigit, rfl⟩ := exists_of_basedTail? hbased
  have hspan := Split.spanning_replace h
  have hfirst : (Split.spanning (fun c => isDigitOf base c || c = '_') (digit :: rest)).1 =
      digit :: rest.takeWhile (fun c => isDigitOf base c || c = '_') := by
    simp [Split.spanning, hdigit.2]
  rw [hfirst] at hspan
  rw [Split.cons_fst, hfirst]
  simp only [List.cons_append, basedTail?, hbase, if_pos hdigit, List.tail_cons] at hspan ⊢
  rw [hspan]
  rfl

/-- A text that is no number with the letter of a base does not become one by a replacement. -/
theorem basedTail?_eq_none_replace {first : Char} {rest more : List Char} (h : MayReplace rest more)
    (xs : List Char) (hnone : basedTail? first (xs ++ rest) = none) :
    basedTail? first (xs ++ more) = none := by
  apply h.of_pair (P := fun cs => basedTail? first cs = none) rfl (fun _ => rfl) _ xs hnone
  intro x y zs zs' hzs
  simp only [basedTail?] at hzs ⊢
  cases hbase : baseOf? x with
  | none => rfl
  | some found =>
    rw [hbase] at hzs
    by_cases hdigit : first = '0' ∧ isDigitOf found.1 y
    · simp only [if_pos hdigit] at hzs
      cases hzs
    · simp only [if_neg hdigit]

/-- A fraction is not there, or it is a dot with the digits behind it. -/
theorem fraction_cases (cs : List Char) :
    fraction cs = ([], cs) ∨ ∃ digit rest, digit.isDigit ∧ cs = '.' :: digit :: rest ∧
      fraction cs = (Split.spanning isDecimalDigit (digit :: rest)).cons '.' := by
  unfold fraction
  split
  · next digit rest =>
    by_cases hdigit : digit.isDigit
    · exact .inr ⟨digit, rest, hdigit, rfl, if_pos hdigit⟩
    · exact .inl (if_neg hdigit)
  · exact .inl rfl

/-- An exponent is not there, or it is its letter with a digit or a sign and the digits behind it. -/
theorem exponent_cases (cs : List Char) :
    exponent cs = ([], cs) ∨ ∃ e next rest,
      ((e = 'e' ∨ e = 'E') ∧ (next.isDigit ∨ next = '+' ∨ next = '-')) ∧ cs = e :: next :: rest ∧
      exponent cs = ((Split.spanning isDecimalDigit rest).cons next).cons e := by
  unfold exponent
  split
  · next e next rest =>
    by_cases hstart : (e = 'e' ∨ e = 'E') ∧ (next.isDigit ∨ next = '+' ∨ next = '-')
    · exact .inr ⟨e, next, rest, hstart, rfl, if_pos hstart⟩
    · exact .inl (if_neg hstart)
  · exact .inl rfl

/-- A replacement starts with no fraction if the text in its place does not. -/
theorem fraction_eq_nil_replace {rest more : List Char} (h : MayReplace rest more)
    (hnil : fraction rest = ([], rest)) : fraction more = ([], more) := by
  have hone (x : Char) : fraction [x] = ([], [x]) := by simp [fraction]
  apply h.of_pair (P := fun cs => fraction cs = ([], cs)) rfl hone _ [] hnil
  intro x y zs zs' hzs
  rcases fraction_cases (x :: y :: zs') with hno | ⟨digit, ds, hdigit, hcs, -⟩
  · exact hno
  · obtain ⟨hx, hbehind⟩ := List.cons.inj hcs
    obtain ⟨hy, -⟩ := List.cons.inj hbehind
    simp [fraction, hx, hy, hdigit, Split.cons] at hzs

/-- A replacement starts with no exponent if the text in its place does not. -/
theorem exponent_eq_nil_replace {rest more : List Char} (h : MayReplace rest more)
    (hnil : exponent rest = ([], rest)) : exponent more = ([], more) := by
  apply h.of_pair (P := fun cs => exponent cs = ([], cs)) rfl (fun _ => rfl) _ [] hnil
  intro x y zs zs' hzs
  rcases exponent_cases (x :: y :: zs') with hno | ⟨e, next, ds, hstart, hcs, -⟩
  · exact hno
  · obtain ⟨hx, hbehind⟩ := List.cons.inj hcs
    obtain ⟨hy, -⟩ := List.cons.inj hbehind
    simp [exponent, hx, hy, hstart, Split.cons] at hzs

/-- A fraction takes the same characters in front of a replacement. -/
theorem fraction_replace {cs more : List Char} (h : MayReplace (fraction cs).2 more) :
    fraction ((fraction cs).1 ++ more) = ((fraction cs).1, more) := by
  rcases fraction_cases cs with hno | ⟨digit, rest, hdigit, -, hyes⟩
  · rw [hno] at h ⊢
    exact fraction_eq_nil_replace h hno
  · rw [hyes] at h ⊢
    have hspan := Split.spanning_replace h
    have hfirst : (Split.spanning isDecimalDigit (digit :: rest)).1 =
        digit :: rest.takeWhile isDecimalDigit := by
      simp [Split.spanning, isDecimalDigit, hdigit]
    rw [hfirst] at hspan
    rw [Split.cons_fst, hfirst]
    simp only [List.cons_append, fraction, if_pos hdigit, List.tail_cons] at hspan ⊢
    rw [hspan]
    rfl

/-- An exponent takes the same characters in front of a replacement. -/
theorem exponent_replace {cs more : List Char} (h : MayReplace (exponent cs).2 more) :
    exponent ((exponent cs).1 ++ more) = ((exponent cs).1, more) := by
  rcases exponent_cases cs with hno | ⟨e, next, rest, hstart, -, hyes⟩
  · rw [hno] at h ⊢
    exact exponent_eq_nil_replace h hno
  · rw [hyes] at h ⊢
    simp only [Split.cons_fst, List.cons_append, exponent, if_pos hstart, Split.spanning_replace h]
    rfl

/-- A decimal number is read part by part, and each part stops where it did. -/
theorem decimalTail_replace {cs more : List Char} (h : MayReplace (decimalTail cs).2.2 more) :
    decimalTail ((decimalTail cs).2.1 ++ more) = ((decimalTail cs).1, (decimalTail cs).2.1, more) := by
  have hlengthFraction (ds : List Char) : (fraction ds).1 = [] ∨ 2 ≤ (fraction ds).1.length := by
    rcases fraction_cases ds with hno | ⟨digit, rest, hdigit, -, hyes⟩
    · exact .inl (by rw [hno])
    · exact .inr (by simp [hyes, Split.spanning, isDecimalDigit, hdigit])
  have hlengthExponent (ds : List Char) : (exponent ds).1 = [] ∨ 2 ≤ (exponent ds).1.length := by
    rcases exponent_cases ds with hno | ⟨e, next, rest, -, -, hyes⟩
    · exact .inl (by rw [hno])
    · exact .inr (by simp [hyes])
  let whole := Split.spanning isDecimalDigit cs
  let frac := fraction whole.2
  let expo := exponent frac.2
  have hexpo : exponent (expo.1 ++ more) = (expo.1, more) := exponent_replace h
  have hafter : MayReplace frac.2 (expo.1 ++ more) := by
    have happend : MayReplace (expo.1 ++ expo.2) (expo.1 ++ more) := h.append (hlengthExponent frac.2)
    rwa [exponent_append] at happend
  have hfrac : fraction (frac.1 ++ (expo.1 ++ more)) = (frac.1, expo.1 ++ more) :=
    fraction_replace hafter
  have hbehind : MayReplace whole.2 (frac.1 ++ (expo.1 ++ more)) := by
    have happend := hafter.append (hlengthFraction whole.2)
    rwa [fraction_append] at happend
  have hwhole := Split.spanning_replace hbehind
  have htaken : (decimalTail cs).2.1 ++ more = whole.1 ++ (frac.1 ++ (expo.1 ++ more)) := by
    simp [decimalTail, whole, frac, expo]
  rw [htaken]
  simp only [decimalTail, hwhole, hfrac, hexpo, whole, frac, expo]

/-- A replacement does not make a number run on into a word. -/
theorem startsWord_replace {rest more : List Char} (h : MayReplace rest more)
    (hno : startsWord rest = false) : startsWord more = false := by
  have hone (x : Char) : startsWord [x] = false := by simp [startsWord]
  apply h.of_pair (P := fun cs => startsWord cs = false) rfl hone _ [] hno
  intro x y zs zs' hzs
  by_cases hx : x = '.'
  · rw [hx] at hzs ⊢
    exact hzs
  · simp [startsWord, hx]

/-- A bareword behind a number takes the dot and the character that announce it. -/
theorem wordTail_of_startsWord {cs : List Char} (h : startsWord cs = true) :
    ∃ next taken, isWordChar next = true ∧ (wordTail cs).1 = '.' :: next :: taken := by
  unfold startsWord at h
  split at h
  · next next rest =>
    have hdot : isWordChar '.' = false := by decide
    have hnext : next ≠ '.' := by
      intro heq
      rw [heq, hdot] at h
      cases h
    exact ⟨next, (wordTail rest).1, h, by simp [wordTail, hdot, hnext, h]⟩
  · cases h

/-- A token that starts with a digit is a number in another base, a bareword that a decimal number runs
on into, or a decimal number. -/
theorem numberTail_cases (first : Char) (cs : List Char) :
    (∃ form split, basedTail? first cs = some (form, split) ∧
      numberTail first cs = (.number form, split)) ∨
    (basedTail? first cs = none ∧ startsWord (decimalTail cs).2.2 = true ∧
      numberTail first cs = (.identifier, (decimalTail cs).2.1 ++ (wordTail (decimalTail cs).2.2).1,
        (wordTail (decimalTail cs).2.2).2)) ∨
    (basedTail? first cs = none ∧ startsWord (decimalTail cs).2.2 = false ∧
      numberTail first cs = (.number (decimalTail cs).1, (decimalTail cs).2)) := by
  unfold numberTail
  cases hbased : basedTail? first cs with
  | some found => exact .inl ⟨found.1, found.2, rfl, rfl⟩
  | none =>
    by_cases hword : startsWord (decimalTail cs).2.2
    · exact .inr (.inl ⟨rfl, hword, if_pos hword⟩)
    · exact .inr (.inr ⟨rfl, Bool.eq_false_iff.mpr hword, if_neg hword⟩)

/-- A token that starts with a digit ends where it did. -/
theorem numberTail_replace {first : Char} {cs more : List Char}
    (h : MayReplace (numberTail first cs).2.2 more) :
    numberTail first ((numberTail first cs).2.1 ++ more) =
      ((numberTail first cs).1, (numberTail first cs).2.1, more) := by
  unfold numberTail at h ⊢
  cases hbased : basedTail? first cs with
  | some found =>
    rw [hbased] at h
    simp only [basedTail?_replace hbased h]
  | none =>
    rw [hbased] at h
    dsimp only at h ⊢
    by_cases hword : startsWord (decimalTail cs).2.2
    · simp only [if_pos hword] at h ⊢
      obtain ⟨next, taken, hnext, htaken⟩ := wordTail_of_startsWord hword
      have hrun := wordTail_replace h
      have hlong : 2 ≤ (wordTail (decimalTail cs).2.2).1.length := by simp [htaken]
      have hafter : MayReplace (decimalTail cs).2.2 ((wordTail (decimalTail cs).2.2).1 ++ more) := by
        have happend := h.append (.inr hlong)
        rwa [wordTail_append] at happend
      have hnone := basedTail?_eq_none_replace hafter (decimalTail cs).2.1
        (by rwa [decimalTail_append])
      have hstarts : startsWord ((wordTail (decimalTail cs).2.2).1 ++ more) = true := by
        rw [htaken]
        exact hnext
      rw [List.append_assoc, hnone]
      simp only [decimalTail_replace hafter, if_pos hstarts, hrun]
    · simp only [if_neg hword] at h ⊢
      have hnone := basedTail?_eq_none_replace h (decimalTail cs).2.1 (by rwa [decimalTail_append])
      have hstops := startsWord_replace h (Bool.eq_false_iff.mpr hword)
      rw [hnone]
      simp only [decimalTail_replace h, hstops, Bool.false_eq_true, if_false]

/-- The token of a word is read again in front of a replacement. -/
theorem word_replace {first : Char} {cs more : List Char} (h : MayReplace (word first cs).rest more) :
    word first ((word first cs).tail ++ more) = ⟨(word first cs).kind, (word first cs).tail, more⟩ := by
  have hrun : wordTail ((wordTail cs).1 ++ more) = ((wordTail cs).1, more) := wordTail_replace h
  simp only [word, Lexeme.ofSplit, hrun]

/-- A token that starts with a dot is read again in front of a replacement. -/
theorem dotted_replace {cs more : List Char} (h : MayReplace (dotted cs).rest more) :
    dotted ((dotted cs).tail ++ more) = ⟨(dotted cs).kind, (dotted cs).tail, more⟩ := by
  unfold dotted at h ⊢
  split at h
  · rfl
  · next rest hequals =>
    cases more with
    | nil => rfl
    | cons d ds => simp [h.ne_of_cons hequals]
  · next hequals hdot =>
    have hhead : ((word '.' cs).tail ++ more).head? ≠ some '.' := by
      intro hfirst
      have hcs := h.head?_append hfirst
      rw [show (word '.' cs).tail ++ (word '.' cs).rest = cs from wordTail_append cs] at hcs
      obtain ⟨ds, rfl⟩ := List.head?_eq_some_iff.mp hcs
      exact hdot ds rfl
    rw [← word_replace h]
    split
    · next hcs =>
      rw [hcs] at hhead
      exact absurd rfl hhead
    · next hcs =>
      rw [hcs] at hhead
      exact absurd rfl hhead
    · rfl

/-- A caret is read again in front of a replacement, with the line end that it may take. -/
theorem continuation_replace {cs more : List Char} (h : MayReplace (continuation cs).rest more) :
    continuation ((continuation cs).tail ++ more) =
      ⟨(continuation cs).kind, (continuation cs).tail, more⟩ := by
  unfold continuation at h ⊢
  split at h
  · rfl
  · next hfeed =>
    cases more with
    | nil => rfl
    | cons d ds => simp [h.ne_of_cons hfeed]

/-- A sign is read again in front of a replacement. -/
theorem sign_replace {first : Char} {cs more : List Char} (h : MayReplace (sign first cs).rest more) :
    sign first ((sign first cs).tail ++ more) = ⟨(sign first cs).kind, (sign first cs).tail, more⟩ := by
  unfold sign at h ⊢
  split at h
  · rfl
  · split at h
    · rfl
    · next hequals =>
      cases more with
      | nil => rfl
      | cons d ds => simp [h.ne_of_cons hequals]
  · rfl

/-- A token is read again from its own characters, in front of nothing and in front of every text that
starts with the same two characters as the text behind it. -/
theorem lexeme_replace {first : Char} {cs more : List Char}
    (h : MayReplace (lexeme first cs).rest more) :
    lexeme first ((lexeme first cs).tail ++ more) =
      ⟨(lexeme first cs).kind, (lexeme first cs).tail, more⟩ := by
  revert h
  apply lexeme_reader first (P := fun reader => MayReplace (reader cs).rest more →
    reader ((reader cs).tail ++ more) = ⟨(reader cs).kind, (reader cs).tail, more⟩)
  case feed => exact fun _ _ => rfl
  case blank | comment | dollar =>
    intro _ h
    simp only [Lexeme.ofSplit, Split.spanning_replace h]
  case caret => exact fun _ => continuation_replace
  case single =>
    intro _ h
    simp only [Lexeme.ofSplit, singleQuotedTail_replace h]
  case double =>
    intro _ h
    simp only [Lexeme.ofSplit, doubleQuotedTail_replace h]
  case digit =>
    intro _ h
    simp only [Lexeme.ofSplit, numberTail_replace h]
  case letter => exact fun _ => word_replace
  case dot => exact fun _ => dotted_replace
  case other => exact sign_replace

end Lexer

/-- The text of a token, cut out of any script, is one token: of the same kind, with the same text and
length, at the first byte. -/
theorem tokenize_text_alone (source : String) {t : Token} (ht : t ∈ tokenize source) :
    tokenize t.text = [{ t with start := 0 }] := by
  obtain ⟨-, c, cs, -, hlexeme⟩ := Lexer.exists_lexeme_of_mem_tokensFrom ht
  have hagain := Lexer.lexeme_replace (MayReplace.nil (Lexer.lexeme c cs).rest)
  rw [List.append_nil] at hagain
  rw [hlexeme, tokenize, String.toList_ofList, Lexer.tokensFrom, hagain]
  dsimp only
  rw [Lexer.tokensFrom]

/-- A bareword that starts like a number and ends in a dot. In its script a range stands behind it, and
a blank between the two. -/
theorem tokenize_dotted_number_alone :
    (⟨.identifier, "1e5.x.", 4, 6⟩ : Token) ∈ tokenize "λ; 1e5.x. ..=2" ∧
      tokenize "1e5.x." = [⟨.identifier, "1e5.x.", 0, 6⟩] := by
  have hmem : (⟨.identifier, "1e5.x.", 4, 6⟩ : Token) ∈ tokenize "λ; 1e5.x. ..=2" := by
    decide +kernel
  exact ⟨hmem, tokenize_text_alone "λ; 1e5.x. ..=2" hmem⟩

end ElvishOutline

import ElvishOutline.Data.Json

/-!
# JSON text keeps its values

A value written as JSON, in either layout, is read back as it was. Excepted are binary64 numbers,
which JSON text may hold as integers, and integers that 64 bits do not hold.

The reader is given text with something behind it, and the theorems say where it stops: behind a
value there is the end of the text or a character that no number goes on with. Its fuel is the
length of the text, since every nested step takes a character.
-/

namespace ElvishOutline.Json

/-- A value that JSON text holds as it is. -/
inductive IsExact : Value → Prop where
  | null : IsExact .null
  | bool (b : Bool) : IsExact (.bool b)
  | nat {n : Nat} (h : n < Nat.pow 2 64) : IsExact (.nat n)
  | text (s : String) : IsExact (.text s)
  | list {items : List Value} (h : ∀ item ∈ items, IsExact item) : IsExact (.list items)
  | record {fields : List (String × Value)} (h : ∀ field ∈ fields, IsExact field.2) :
      IsExact (.record fields)

section Blanks

/-- Where no blank stands, none is skipped. -/
theorem skipBlanks_cons {c : Char} (h : isBlank c = false) (cs : List Char) :
    skipBlanks (c :: cs) = c :: cs :=
  List.dropWhile_cons_of_neg (by simp [h])

/-- The text before an item is blank. -/
theorem skipBlanks_lineStart (layout : Layout) (level : Nat) (cs : List Char) :
    skipBlanks (layout.lineStart level ++ cs) = skipBlanks cs := by
  cases layout with
  | compact => rfl
  | pretty =>
    have hspaces (n : Nat) : skipBlanks (List.replicate n ' ' ++ cs) = skipBlanks cs := by
      induction n with
      | zero => rfl
      | succ n ih => exact ih
    exact hspaces (2 * level)

end Blanks

section Strings

/-- The digit that is written for a number below sixteen is read as that number. -/
theorem hexValue?_hexDigit {n : Nat} (h : n < 16) : hexValue? (hexDigit n) = some n := by
  have hall : ∀ m : Fin 16, hexValue? (hexDigit m) = some m.val := by decide
  exact hall ⟨n, h⟩

/-- The number of a character that is written by its number. -/
theorem hexUnit?_hexDigit {n : Nat} (h : n < 32) :
    hexUnit? '0' '0' (hexDigit (n / 16)) (hexDigit (n % 16)) = some n := by
  have hzero : hexValue? '0' = some 0 := by decide
  have hhigh := hexValue?_hexDigit (show n / 16 < 16 by omega)
  have hlow := hexValue?_hexDigit (show n % 16 < 16 by omega)
  have hvalue : n / 16 * 16 + n % 16 = n := Nat.div_add_mod' n 16
  simp [hexUnit?, hzero, hhigh, hlow, hvalue]

/-- The characters that are written as a backslash and a letter, with their letters. -/
def letters : List (Char × Char) :=
  [('"', '"'), ('\\', '\\'), ('\x08', 'b'), ('\t', 't'), ('\n', 'n'), ('\x0c', 'f'), ('\r', 'r')]

/-- The letter of such a character stands for it. -/
theorem unescape?_of_mem_letters :
    ∀ p ∈ letters, escape p.1 = ['\\', p.2] ∧ p.2 ≠ 'u' ∧ unescape? p.2 = some p.1 := by
  decide

/-- A character without a letter is written by its number if it is a control character, and as it is
otherwise. -/
theorem escape_of_not_mem_letters {c : Char} (h : c ∉ letters.map Prod.fst) :
    escape c = if c.toNat < 32 then
      ['\\', 'u', '0', '0', hexDigit (c.toNat / 16), hexDigit (c.toNat % 16)] else [c] := by
  simp only [letters, List.map_cons, List.map_nil, List.mem_cons, List.not_mem_nil, or_false,
    not_or] at h
  simp only [escape, h, if_false]

/-- A text that can be read has a number behind the mark for one. -/
theorem exists_hexUnit?_of_readString {a b c d : Char} {rest : List Char}
    {result : List Char × List Char}
    (hread : readString ('\\' :: 'u' :: a :: b :: c :: d :: rest) = some result) :
    ∃ n, hexUnit? a b c d = some n := by
  cases hunit : hexUnit? a b c d with
  | some n => exact ⟨n, rfl⟩
  | none =>
    by_cases hmark : ∃ e f g h more, rest = '\\' :: 'u' :: e :: f :: g :: h :: more
    · obtain ⟨e, f, g, h, more, rfl⟩ := hmark
      rw [readString, hunit] at hread
      cases hread
    · rw [readString, hunit] at hread
      · cases hread
      · intro e f g h more heq
        exact hmark ⟨e, f, g, h, more, heq⟩

section Tail

variable {tail cs after : List Char} (htail : readString tail = some (cs, after))
include htail

/-- A number below those of surrogates stands for its character, whatever is written behind it. -/
theorem readString_unit {a b c d : Char} {n : Nat} (hunit : hexUnit? a b c d = some n)
    (hn : n < 0xD800) :
    readString ('\\' :: 'u' :: a :: b :: c :: d :: tail) = some (Char.ofNat n :: cs, after) := by
  have hplain : ¬(0xD800 ≤ n ∧ n < 0xE000) := by omega
  have hjoin (m : Nat) : joinSurrogates? n m = none := if_neg (by omega)
  by_cases hmark : ∃ e f g h rest, tail = '\\' :: 'u' :: e :: f :: g :: h :: rest
  · obtain ⟨e, f, g, h, rest, rfl⟩ := hmark
    obtain ⟨m, hm⟩ := exists_hexUnit?_of_readString htail
    rw [readString]
    simp [hunit, hm, hjoin, hplain, htail]
  · rw [readString]
    · simp [hunit, hplain, htail]
    · intro e f g h rest heq
      exact hmark ⟨e, f, g, h, rest, heq⟩

/-- A backslash and a letter are read as the character that the letter stands for. -/
theorem readString_letter {letter plain : Char} (hletter : letter ≠ 'u')
    (hplain : unescape? letter = some plain) :
    readString ('\\' :: letter :: tail) = some (plain :: cs, after) := by
  rw [readString]
  · simp [hplain, htail]
  · intro a b c d e f g h rest hu
    exact absurd hu hletter
  · intro a b c d rest hu
    exact absurd hu hletter

/-- A character that is neither a quote, a backslash nor a control character is read as it is. -/
theorem readString_plain {c : Char} (hquote : c ≠ '"') (hslash : c ≠ '\\') (hc : ¬c.toNat < 32) :
    readString (c :: tail) = some (c :: cs, after) := by
  rw [readString]
  · simp [hslash, htail, Nat.le_of_not_lt hc]
  · exact hquote
  · intro a b d e f g h i rest hc'
    exact absurd hc' hslash
  · intro a b d e rest hc'
    exact absurd hc' hslash
  · intro d rest hc'
    exact absurd hc' hslash

/-- One character of a string is read back from what was written for it. -/
theorem readString_escape (c : Char) : readString (escape c ++ tail) = some (c :: cs, after) := by
  by_cases hletter : c ∈ letters.map Prod.fst
  · obtain ⟨p, hp, rfl⟩ := List.mem_map.mp hletter
    obtain ⟨hescape, hmark, hplain⟩ := unescape?_of_mem_letters p hp
    rw [hescape]
    exact readString_letter htail hmark hplain
  · rw [escape_of_not_mem_letters hletter]
    split
    · next hcontrol =>
      have hread := readString_unit htail (hexUnit?_hexDigit hcontrol) (by omega)
      rwa [Char.ofNat_toNat] at hread
    · next hcontrol =>
      have hquote : c ≠ '"' := fun hc => hletter (by rw [hc]; decide)
      have hslash : c ≠ '\\' := fun hc => hletter (by rw [hc]; decide)
      exact readString_plain htail hquote hslash hcontrol

end Tail

/-- A string is read back from what was written for its characters, up to the closing quote. -/
theorem readString_quoted (cs rest : List Char) :
    readString (cs.flatMap escape ++ '"' :: rest) = some (cs, rest) := by
  induction cs with
  | nil => rfl
  | cons c cs ih =>
    rw [List.flatMap_cons, List.append_assoc]
    exact readString_escape ih c

end Strings

section Numbers

/-- A text that no number goes on with. -/
def EndsNumber (rest : List Char) : Prop :=
  ∀ c ∈ rest.head?, c.isDigit = false ∧ c ≠ '.' ∧ c ≠ 'e' ∧ c ≠ 'E'

/-- Only zero is written with a zero in front. -/
theorem head?_toDigits_ne {n : Nat} (hn : 0 < n) : (Nat.toDigits 10 n).head? ≠ some '0' := by
  induction n using Nat.strongRecOn with
  | ind n ih =>
    by_cases hsmall : n < 10
    · have hdigits : ∀ d : Fin 10, 0 < d.val → Nat.digitChar d ≠ '0' := by decide
      rw [Nat.toDigits_of_lt_base hsmall]
      intro hzero
      exact hdigits ⟨n, hsmall⟩ hn (Option.some.inj hzero)
    · have htens := ih (n / 10) (by omega) (by omega)
      rw [Nat.toDigits_of_base_le (by decide) (Nat.le_of_not_lt hsmall), List.head?_append,
        List.head?_eq_some_head Nat.toDigits_ne_nil, Option.some_or,
        ← List.head?_eq_some_head Nat.toDigits_ne_nil]
      exact htens

/-- A number has at least one digit. -/
theorem exists_toDigits_cons (n : Nat) :
    ∃ d ds, Nat.toDigits 10 n = d :: ds ∧ d.isDigit = true := by
  obtain ⟨d, ds, hcons⟩ := List.exists_cons_of_ne_nil (Nat.toDigits_ne_nil (n := n) (b := 10))
  have hmem : d ∈ Nat.toDigits 10 n := by
    rw [hcons]
    exact List.mem_cons_self
  exact ⟨d, ds, hcons, Nat.isDigit_of_mem_toDigits (by decide) (by decide) hmem⟩

/-- A digit is none of the other characters of a text. -/
theorem ne_of_isDigit {d c : Char} (hd : d.isDigit = true) (hc : c.isDigit = false) : d ≠ c := by
  intro heq
  rw [heq, hc] at hd
  cases hd

/-- The digits of a number end where the text behind them goes on with none. -/
theorem span_toDigits (n : Nat) {rest : List Char} (hrest : EndsNumber rest) :
    (Nat.toDigits 10 n ++ rest).takeWhile Char.isDigit = Nat.toDigits 10 n ∧
      (Nat.toDigits 10 n ++ rest).dropWhile Char.isDigit = rest := by
  have hdigits : ∀ c ∈ Nat.toDigits 10 n, c.isDigit = true :=
    fun c hc => Nat.isDigit_of_mem_toDigits (by decide) (by decide) hc
  rw [List.takeWhile_append_of_pos hdigits, List.dropWhile_append_of_pos hdigits]
  cases rest with
  | nil => simp
  | cons c cs =>
    have hc := (hrest c rfl).1
    simp [hc]

/-- A natural number of 64 bits is read back from its digits. -/
theorem readNumber_toDigits {n : Nat} (hn : n < Nat.pow 2 64) {rest : List Char}
    (hrest : EndsNumber rest) : readNumber (Nat.toDigits 10 n ++ rest) = some (.nat n, rest) := by
  obtain ⟨htake, hdrop⟩ := span_toDigits n hrest
  have hvalue : digitsValue (Nat.toDigits 10 n) = n := Nat.ofDigitChars_ten_toDigits
  have hform : ¬(Nat.toDigits 10 n = [] ∨
      (Nat.toDigits 10 n).head? = some '0' ∧ (Nat.toDigits 10 n).length ≠ 1) := by
    rintro (hnil | ⟨hzero, hlength⟩)
    · exact Nat.toDigits_ne_nil hnil
    · -- Only zero starts with the digit zero, and it has no other digit.
      rcases Nat.eq_zero_or_pos n with rfl | hpos
      · exact hlength rfl
      · exact head?_toDigits_ne hpos hzero
  have hexponent : readExponent rest = some (none, rest) := by
    cases rest with
    | nil => rfl
    | cons c cs =>
      obtain ⟨-, -, he, hE⟩ := hrest c rfl
      simp [readExponent, he, hE]
  have hnumber : numberValue false (Nat.toDigits 10 n) [] none = .nat n := by
    simp [numberValue, hvalue, hn, Value.nat]
  have hsign : (Nat.toDigits 10 n ++ rest).head? ≠ some '-' := by
    obtain ⟨d, ds, hcons, hdigit⟩ := exists_toDigits_cons n
    rw [hcons]
    exact fun hminus => ne_of_isDigit hdigit (by decide) (Option.some.inj hminus)
  unfold readNumber
  split
  next negative digits hsplit =>
  split at hsplit
  · next more hminus =>
    rw [hminus] at hsign
    exact absurd rfl hsign
  · obtain ⟨rfl, rfl⟩ := Prod.mk.inj hsplit
    simp only [htake, hdrop, if_neg hform]
    cases rest with
    | nil => simp [hexponent, hnumber]
    | cons c cs =>
      have hdot : c ≠ '.' := (hrest c rfl).2.1
      simp [hdot, hexponent, hnumber]

end Numbers

section Values

variable (layout : Layout)

/-- A value is read from the start of a line as from the value on. -/
theorem readValue_lineStart (fuel level : Nat) (cs : List Char) :
    readValue fuel (layout.lineStart level ++ cs) = readValue fuel cs := by
  cases fuel with
  | zero => rw [readValue, readValue]
  | succ fuel => rw [readValue, readValue, skipBlanks_lineStart]

/-- Items are read from the start of a line as from the first item on. -/
theorem readItems_lineStart (fuel level : Nat) (cs : List Char) :
    readItems fuel (layout.lineStart level ++ cs) = readItems fuel cs := by
  cases fuel with
  | zero => rw [readItems, readItems]
  | succ fuel => rw [readItems, readItems, readValue_lineStart]

/-- Behind the colon, only blanks stand ahead of the value. -/
theorem readValue_colon (fuel : Nat) (cs : List Char) :
    ∃ blanks, layout.colon = ':' :: blanks ∧ readValue fuel (blanks ++ cs) = readValue fuel cs := by
  cases layout with
  | compact => exact ⟨[], rfl, rfl⟩
  | pretty =>
    refine ⟨[' '], rfl, ?_⟩
    cases fuel with
    | zero => rw [readValue, readValue]
    | succ fuel =>
      rw [readValue, readValue]
      rfl

/-- A closing bracket or brace ends a number, also from the start of its line on. -/
theorem endsNumber_lineStart (level : Nat) {c : Char} (rest : List Char)
    (hc : c = ']' ∨ c = '\x7d') : EndsNumber (layout.lineStart level ++ c :: rest) := by
  intro d hd
  cases layout with
  | compact =>
    obtain rfl := Option.some.inj hd
    rcases hc with rfl | rfl <;> decide
  | pretty =>
    obtain rfl := Option.some.inj hd
    decide

/-- A comma ends a number. -/
theorem endsNumber_comma (rest : List Char) : EndsNumber (',' :: rest) := by
  intro c hc
  obtain rfl := Option.some.inj hc
  decide

/-- A natural number is written by its decimal digits. -/
theorem write_nat (level n : Nat) : write layout level (.nat n) = Nat.toDigits 10 n := by
  rw [Value.nat, write, integerText, if_neg (by omega), Int.natAbs_natCast]

/-- The text of a value starts with a character of its own, which closes nothing. -/
theorem exists_write_cons {v : Value} (h : IsExact v) (level : Nat) :
    ∃ c cs, write layout level v = c :: cs ∧ isBlank c = false ∧ c ≠ ']' := by
  cases h with
  | null => exact ⟨'n', _, rfl, by decide, by decide⟩
  | bool b => cases b <;> exact ⟨_, _, rfl, by decide, by decide⟩
  | @nat n hn =>
    obtain ⟨d, ds, hcons, hdigit⟩ := exists_toDigits_cons n
    have hne {c : Char} (hc : c.isDigit = false) : d ≠ c := ne_of_isDigit hdigit hc
    refine ⟨d, ds, by rw [write_nat, hcons], ?_, hne (by decide)⟩
    simp [isBlank, hne (show ' '.isDigit = false by decide), hne (show '\t'.isDigit = false by decide),
      hne (show '\n'.isDigit = false by decide), hne (show '\r'.isDigit = false by decide)]
  | text s => exact ⟨'"', _, rfl, by decide, by decide⟩
  | @list items h => cases items <;> exact ⟨'[', _, rfl, by decide, by decide⟩
  | @record fields h => cases fields <;> exact ⟨'\x7b', _, rfl, by decide, by decide⟩

/-- A value is read back from its text, with something behind it that no number goes on with, if the
fuel is not less than the length of the text. -/
def Reads (v : Value) : Prop :=
  ∀ level fuel rest, (write layout level v).length ≤ fuel → EndsNumber rest →
    readValue fuel (write layout level v ++ rest) = some (v, rest)

/-- A word at the start of a text shows in its first character. -/
theorem afterWord?_eq_none {c d : Char} (h : c ≠ d) (word cs : List Char) :
    afterWord? (c :: word) (d :: cs) = none := by
  simp [afterWord?, h]

variable {layout}

/-- What is written for a value takes some fuel. -/
theorem exists_fuel {v : Value} (h : IsExact v) {level fuel : Nat}
    (hfuel : (write layout level v).length ≤ fuel) : ∃ less, fuel = less + 1 := by
  obtain ⟨c, cs, hcons, -⟩ := exists_write_cons layout h level
  rw [hcons, List.length_cons] at hfuel
  exact ⟨fuel - 1, by omega⟩

/-- The empty value is read back. -/
theorem reads_null : Reads layout .null := by
  intro level fuel rest hfuel _
  obtain ⟨fuel, rfl⟩ := exists_fuel .null hfuel
  rw [readValue]
  rfl

/-- Both truth values are read back. -/
theorem reads_bool (b : Bool) : Reads layout (.bool b) := by
  intro level fuel rest hfuel _
  obtain ⟨fuel, rfl⟩ := exists_fuel (.bool b) hfuel
  rw [readValue]
  cases b <;> rfl

/-- A number of 64 bits is read back. -/
theorem reads_nat {n : Nat} (hn : n < Nat.pow 2 64) : Reads layout (.nat n) := by
  intro level fuel rest hfuel hrest
  obtain ⟨fuel, rfl⟩ := exists_fuel (.nat hn) hfuel
  have hnumber := readNumber_toDigits hn hrest
  obtain ⟨c, cs, hwrite, hblank, -⟩ := exists_write_cons layout (.nat hn) level
  obtain ⟨d, ds, hcons, hdigit⟩ := exists_toDigits_cons n
  have hne {c : Char} (hc : c.isDigit = false) : d ≠ c := ne_of_isDigit hdigit hc
  rw [write_nat, hcons] at hwrite
  obtain ⟨rfl, rfl⟩ := List.cons.inj hwrite
  rw [hcons] at hnumber
  have hnull : afterWord? "null".toList (d :: (ds ++ rest)) = none :=
    afterWord?_eq_none (hne (by decide)).symm _ _
  have htrue : afterWord? "true".toList (d :: (ds ++ rest)) = none :=
    afterWord?_eq_none (hne (by decide)).symm _ _
  have hfalse : afterWord? "false".toList (d :: (ds ++ rest)) = none :=
    afterWord?_eq_none (hne (by decide)).symm _ _
  rw [write_nat, hcons, readValue, List.cons_append, skipBlanks_cons hblank]
  split
  · next hbrace => exact absurd (List.cons.inj hbrace).1 (hne (by decide))
  · next hbracket => exact absurd (List.cons.inj hbracket).1 (hne (by decide))
  · next hquote => exact absurd (List.cons.inj hquote).1 (hne (by decide))
  · simp only [hnull, htrue, hfalse]
    exact hnumber

/-- A text is read back, whatever its characters. -/
theorem reads_text (s : String) : Reads layout (.text s) := by
  intro level fuel rest hfuel _
  obtain ⟨fuel, rfl⟩ := exists_fuel (.text s) hfuel
  have hstring := readString_quoted s.toList rest
  rw [write, quoted, readValue]
  simp only [List.cons_append, List.append_assoc]
  rw [skipBlanks_cons (by decide)]
  simp [hstring]

/-- The items of a list are read back up to its closing bracket. -/
theorem readItems_write {item : Value} {items : List Value} (level outer : Nat) {fuel : Nat}
    (rest : List Char) (h : ∀ v ∈ item :: items, Reads layout v)
    (hfuel : (write layout level item ++ writeItems layout level items).length + 1 ≤ fuel) :
    readItems fuel (write layout level item ++ (writeItems layout level items ++
      (layout.lineStart outer ++ ']' :: rest))) = some (item :: items, rest) := by
  induction items generalizing item fuel with
  | nil =>
    obtain ⟨fuel, rfl⟩ : ∃ less, fuel = less + 1 := ⟨fuel - 1, by omega⟩
    have hitem := h item List.mem_cons_self level fuel (layout.lineStart outer ++ ']' :: rest)
      (by simpa [writeItems] using hfuel) (endsNumber_lineStart layout outer rest (.inl rfl))
    rw [writeItems, List.nil_append, readItems, hitem]
    simp only [skipBlanks_lineStart, Option.bind_eq_bind, Option.bind_some]
    rw [skipBlanks_cons (by decide)]
    rfl
  | cons next items ih =>
    obtain ⟨fuel, rfl⟩ : ∃ less, fuel = less + 1 := ⟨fuel - 1, by omega⟩
    simp only [writeItems, List.cons_append, List.append_assoc, List.length_append,
      List.length_cons] at hfuel ⊢
    have hitem := h item List.mem_cons_self level fuel _ (by omega)
      (endsNumber_comma (layout.lineStart level ++ (write layout level next ++
        (writeItems layout level items ++ (layout.lineStart outer ++ ']' :: rest)))))
    -- The comma pays for the fuel that this item takes.
    have hless : (write layout level next ++ writeItems layout level items).length + 1 ≤ fuel := by
      rw [List.length_append]
      omega
    have hitems := ih (fun v hv => h v (List.mem_cons_of_mem item hv)) hless
    rw [readItems, hitem]
    simp only [Option.bind_eq_bind, Option.bind_some]
    rw [skipBlanks_cons (by decide)]
    simp only [readItems_lineStart, hitems, Option.bind_some]
    rfl

/-- A list is read back if its items are. -/
theorem reads_list {items : List Value} (hexact : ∀ item ∈ items, IsExact item)
    (h : ∀ item ∈ items, Reads layout item) : Reads layout (.list items) := by
  intro level fuel rest hfuel _
  obtain ⟨fuel, rfl⟩ := exists_fuel (.list hexact) hfuel
  cases items with
  | nil =>
    rw [readValue]
    rfl
  | cons item items =>
    obtain ⟨c, cs, hcons, hblank, hclose⟩ :=
      exists_write_cons layout (hexact item List.mem_cons_self) (level + 1)
    simp only [write, List.cons_append, List.append_assoc, List.length_cons, List.length_append,
      List.length_nil, List.nil_append] at hfuel ⊢
    have hless : (write layout (level + 1) item ++ writeItems layout (level + 1) items).length + 1 ≤
        fuel := by
      rw [List.length_append]
      omega
    have hitems := readItems_write (level + 1) level rest h hless
    rw [readValue, skipBlanks_cons (by decide)]
    simp only [skipBlanks_lineStart]
    rw [hcons, List.cons_append] at hitems ⊢
    rw [skipBlanks_cons hblank]
    simp [hclose, hitems]

section Field

variable {value : Value} {fuel : Nat} {text tail after : List Char}
  (hvalue : readValue fuel (text ++ tail) = some (value, tail)) (key : String)
include hvalue

/-- A field behind which the record closes is the last one. -/
theorem readFields_last (htail : skipBlanks tail = '\x7d' :: after) :
    readFields (fuel + 1) (key.toList.flatMap escape ++ '"' :: (layout.colon ++ (text ++ tail))) =
      some ([(key, value)], after) := by
  obtain ⟨blanks, hcolon, hblanks⟩ := readValue_colon layout fuel (text ++ tail)
  rw [readFields, readString_quoted, hcolon]
  simp only [List.cons_append, Option.bind_eq_bind, Option.bind_some]
  rw [skipBlanks_cons (by decide)]
  simp only [hblanks, hvalue, Option.bind_some, htail, String.ofList_toList]

/-- Behind a field with a comma the next key follows. -/
theorem readFields_more {more next : List Char} {fields : List (String × Value)}
    (htail : skipBlanks tail = ',' :: more) (hmore : skipBlanks more = '"' :: next)
    (hfields : readFields fuel next = some (fields, after)) :
    readFields (fuel + 1) (key.toList.flatMap escape ++ '"' :: (layout.colon ++ (text ++ tail))) =
      some ((key, value) :: fields, after) := by
  obtain ⟨blanks, hcolon, hblanks⟩ := readValue_colon layout fuel (text ++ tail)
  rw [readFields, readString_quoted, hcolon]
  simp only [List.cons_append, Option.bind_eq_bind, Option.bind_some]
  rw [skipBlanks_cons (by decide)]
  simp only [hblanks, hvalue, Option.bind_some, htail, hmore, hfields, String.ofList_toList]
  rfl

end Field

/-- The fields of a record are read back up to its closing brace. -/
theorem readFields_write {key : String} {value : Value} {fields : List (String × Value)}
    (level outer : Nat) {fuel : Nat} (rest : List Char)
    (h : ∀ field ∈ (key, value) :: fields, Reads layout field.2)
    (hfuel : (write layout level value ++ writeFields layout level fields).length + 1 ≤ fuel) :
    readFields fuel (key.toList.flatMap escape ++ '"' :: (layout.colon ++ (write layout level value ++
      (writeFields layout level fields ++ (layout.lineStart outer ++ '\x7d' :: rest))))) =
      some ((key, value) :: fields, rest) := by
  have hread : Reads layout value := h (key, value) List.mem_cons_self
  obtain ⟨fuel, rfl⟩ : ∃ less, fuel = less + 1 := ⟨fuel - 1, by omega⟩
  induction fields generalizing key value fuel with
  | nil =>
    rw [writeFields, List.append_nil] at hfuel
    have hvalue := hread level fuel (layout.lineStart outer ++ '\x7d' :: rest) (by omega)
      (endsNumber_lineStart layout outer rest (.inr rfl))
    apply readFields_last hvalue
    rw [skipBlanks_lineStart, skipBlanks_cons (by decide)]
  | cons field fields ih =>
    obtain ⟨next, following⟩ := field
    simp only [writeFields, quoted, List.cons_append, List.append_assoc, List.length_append,
      List.length_cons, List.nil_append] at hfuel ⊢
    have hvalue (more : List Char) := hread level fuel (',' :: more) (by omega) (endsNumber_comma more)
    apply readFields_more (hvalue _) key (skipBlanks_cons (by decide) _)
    · rw [skipBlanks_lineStart, skipBlanks_cons (by decide)]
    · obtain ⟨less, rfl⟩ : ∃ less, fuel = less + 1 := ⟨fuel - 1, by omega⟩
      exact ih (fun v hv => h v (List.mem_cons_of_mem _ hv))
        (h (next, following) (List.mem_cons_of_mem _ List.mem_cons_self)) less
        (by rw [List.length_append]; omega)

/-- A record is read back if the values of its fields are. -/
theorem reads_record {fields : List (String × Value)} (hexact : ∀ field ∈ fields, IsExact field.2)
    (h : ∀ field ∈ fields, Reads layout field.2) : Reads layout (.record fields) := by
  intro level fuel rest hfuel _
  obtain ⟨fuel, rfl⟩ := exists_fuel (.record hexact) hfuel
  cases fields with
  | nil =>
    rw [readValue]
    rfl
  | cons field fields =>
    obtain ⟨key, value⟩ := field
    simp only [write, quoted, List.cons_append, List.append_assoc, List.length_cons,
      List.length_append, List.length_nil, List.nil_append] at hfuel ⊢
    have hless : (write layout (level + 1) value ++ writeFields layout (level + 1) fields).length + 1 ≤
        fuel := by
      rw [List.length_append]
      omega
    have hfields := readFields_write (level + 1) level rest h hless
    rw [readValue, skipBlanks_cons (by decide)]
    simp only [skipBlanks_lineStart]
    rw [skipBlanks_cons (by decide)]
    simp only [hfields, Option.bind_eq_bind, Option.bind_some]
    rfl

/-- Every exact value is read back from its text. -/
theorem reads_of_isExact {v : Value} (h : IsExact v) : Reads layout v := by
  induction h with
  | null => exact reads_null
  | bool b => exact reads_bool b
  | nat hn => exact reads_nat hn
  | text s => exact reads_text s
  | list hexact ih => exact reads_list hexact ih
  | record hexact ih => exact reads_record hexact ih

end Values

/-- The JSON text of an exact value, in either layout, writes that value. -/
theorem parse?_print (layout : Layout) {v : Value} (h : IsExact v) :
    parse? (print layout v) = some v := by
  have hend : EndsNumber [] := by
    intro c hc
    cases hc
  have hreads : Reads layout v := reads_of_isExact h
  have hread := hreads 0 ((write layout 0 v).length + 1) [] (Nat.le_succ _) hend
  rw [List.append_nil] at hread
  simp only [parse?, print, String.toList_ofList, hread]
  rfl

end ElvishOutline.Json

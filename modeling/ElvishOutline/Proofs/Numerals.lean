import ElvishOutline.Proofs.LoneTokens

/-!
# Numerals

A numeral is an integer, a number in another base, or an integer part with a fraction, an exponent or
both. `Numeral` states how each form is written, for any notion of exponent: a proper one has a digit
behind its letter and sign, and a loose one may lack it behind the sign.

The texts of numeric tokens are the numerals with loose exponents, no more and no less. So a token is
a numeral with a proper exponent unless a sign in it stands without a digit, as in `1e+`.
-/

namespace ElvishOutline

namespace NumberForm

/-- The digits in which numbers of the form are written. -/
def isDigit (form : NumberForm) (c : Char) : Bool :=
  match form with
  | integer | float => '0' ≤ c && c ≤ '9'
  | hexadecimal => ('0' ≤ c && c ≤ '9') || ('a' ≤ c && c ≤ 'f') || ('A' ≤ c && c ≤ 'F')
  | octal => '0' ≤ c && c ≤ '7'
  | binary => c = '0' || c = '1'

/-- The characters behind the first digit of a number, which underscores may separate. -/
def isFurtherDigit (form : NumberForm) (c : Char) : Bool := form.isDigit c || c = '_'

/-- The letters that announce the base of a number, in either case. Decimal numbers have none. -/
def letters : NumberForm → List Char
  | integer | float => []
  | hexadecimal => ['x', 'X']
  | octal => ['o', 'O']
  | binary => ['b', 'B']

end NumberForm

/-- A digit, with digits and underscores behind it. -/
def IsDigitRun (form : NumberForm) : List Char → Prop
  | [] => False
  | d :: ds => form.isDigit d = true ∧ ∀ c ∈ ds, form.isFurtherDigit c = true

/-- A fraction: a dot and digits. -/
def IsFraction (cs : List Char) : Prop :=
  ∃ digits, cs = '.' :: digits ∧ IsDigitRun .float digits

/-- An exponent: its letter, at most one sign, and digits. -/
def IsExponent (cs : List Char) : Prop :=
  ∃ letter sign digits, cs = letter :: (sign ++ digits) ∧ (letter = 'e' ∨ letter = 'E') ∧
    (sign = [] ∨ sign = ['+'] ∨ sign = ['-']) ∧ IsDigitRun .float digits

/-- An exponent that may lack its digit: its letter, a digit or a sign, and digits and underscores
behind it. -/
def IsLooseExponent (cs : List Char) : Prop :=
  ∃ letter next digits, cs = letter :: next :: digits ∧ (letter = 'e' ∨ letter = 'E') ∧
    (NumberForm.float.isDigit next = true ∨ next = '+' ∨ next = '-') ∧
    ∀ c ∈ digits, NumberForm.float.isFurtherDigit c = true

/-- How a number of a form is written, with exponents of the given sort. -/
inductive Numeral (exponents : List Char → Prop) : NumberForm → List Char → Prop
  /-- Digits alone. -/
  | integer {whole : List Char} (hwhole : IsDigitRun .integer whole) :
      Numeral exponents .integer whole
  /-- A zero, the letter of the base, and digits of the base. -/
  | based {form : NumberForm} {letter : Char} {digits : List Char}
      (hletter : letter ∈ form.letters) (hdigits : IsDigitRun form digits) :
      Numeral exponents form ('0' :: letter :: digits)
  /-- An integer part with a fraction, an exponent or both. -/
  | float {whole frac expo : List Char} (hwhole : IsDigitRun .float whole)
      (hfrac : frac = [] ∨ IsFraction frac) (hexpo : expo = [] ∨ exponents expo)
      (hparts : frac ≠ [] ∨ expo ≠ []) :
      Numeral exponents .float (whole ++ frac ++ expo)

/-- Whether a sign stands without a digit right behind it. -/
def hasBareSign : List Char → Bool
  | [] => false
  | c :: cs => (c = '+' || c = '-') && !cs.head?.any NumberForm.float.isDigit || hasBareSign cs

section Signs

/-- Characters that are no signs do not matter. -/
theorem hasBareSign_append {xs : List Char} (h : ∀ c ∈ xs, c ≠ '+' ∧ c ≠ '-') (ys : List Char) :
    hasBareSign (xs ++ ys) = hasBareSign ys := by
  induction xs with
  | nil => rfl
  | cons x xs ih =>
    obtain ⟨hplus, hminus⟩ := h x List.mem_cons_self
    have hxs := ih fun c hc => h c (List.mem_cons_of_mem x hc)
    simp [hasBareSign, hplus, hminus, hxs]

/-- A text without signs has none that stands alone. -/
theorem hasBareSign_eq_false {xs : List Char} (h : ∀ c ∈ xs, c ≠ '+' ∧ c ≠ '-') :
    hasBareSign xs = false := by
  have happend := hasBareSign_append h []
  rwa [List.append_nil] at happend

/-- Neither a digit nor an underscore is a sign. -/
theorem NumberForm.ne_sign_of_isFurtherDigit {form : NumberForm} {c : Char}
    (h : form.isFurtherDigit c = true) : c ≠ '+' ∧ c ≠ '-' := by
  have hplus : form.isFurtherDigit '+' = false := by cases form <;> decide
  have hminus : form.isFurtherDigit '-' = false := by cases form <;> decide
  constructor
  · intro heq
    rw [heq, hplus] at h
    cases h
  · intro heq
    rw [heq, hminus] at h
    cases h

/-- Neither is the letter of a base. -/
theorem NumberForm.ne_sign_of_mem_letters {form : NumberForm} {letter : Char}
    (h : letter ∈ form.letters) : letter ≠ '+' ∧ letter ≠ '-' := by
  cases form with
  | integer | float => cases h
  | hexadecimal | octal | binary => rcases List.mem_pair.mp h with rfl | rfl <;> decide

/-- All characters of a run of digits are digits or underscores. -/
theorem IsDigitRun.digits {form : NumberForm} {cs : List Char} (h : IsDigitRun form cs) :
    ∀ c ∈ cs, form.isFurtherDigit c = true := by
  cases cs with
  | nil => cases h
  | cons d ds =>
    refine List.forall_mem_cons.mpr ⟨?_, h.2⟩
    rw [NumberForm.isFurtherDigit, h.1, Bool.true_or]

/-- There is no sign in digits. -/
theorem IsDigitRun.ne_sign {form : NumberForm} {cs : List Char} (h : IsDigitRun form cs) :
    ∀ c ∈ cs, c ≠ '+' ∧ c ≠ '-' :=
  fun c hc => NumberForm.ne_sign_of_isFurtherDigit (h.digits c hc)

/-- The sign of an exponent has a digit behind it. -/
theorem IsExponent.hasBareSign_eq_false {cs : List Char} (h : IsExponent cs) :
    hasBareSign cs = false := by
  obtain ⟨letter, sign, digits, rfl, hletter, hsign, hdigits⟩ := h
  have hletter : letter ≠ '+' ∧ letter ≠ '-' := by
    rcases hletter with rfl | rfl <;> decide
  have hnone := ElvishOutline.hasBareSign_eq_false hdigits.ne_sign
  have hhead : digits.head?.any NumberForm.float.isDigit = true := by
    cases digits with
    | nil => cases hdigits
    | cons d ds => exact hdigits.1
  rcases hsign with rfl | rfl | rfl <;> simp [hasBareSign, hletter, hnone, hhead]

/-- A loose exponent whose sign has a digit behind it is an exponent. -/
theorem IsLooseExponent.isExponent {cs : List Char} (h : IsLooseExponent cs)
    (hsign : hasBareSign cs = false) : IsExponent cs := by
  obtain ⟨letter, next, digits, rfl, hletter, hnext, hdigits⟩ := h
  by_cases hdigit : NumberForm.float.isDigit next = true
  · exact ⟨letter, [], next :: digits, rfl, hletter, .inl rfl, hdigit, hdigits⟩
  · have hsigned : next = '+' ∨ next = '-' := hnext.resolve_left hdigit
    have hrun : IsDigitRun .float digits := by
      cases digits with
      | nil => rcases hsigned with rfl | rfl <;> simp [hasBareSign] at hsign
      | cons d ds =>
        refine ⟨?_, fun c hc => hdigits c (List.mem_cons_of_mem d hc)⟩
        by_contra hd
        rcases hsigned with rfl | rfl <;> simp [hasBareSign, hd] at hsign
    refine ⟨letter, [next], digits, rfl, hletter, .inr ?_, hrun⟩
    exact hsigned.imp (congrArg ([·])) (congrArg ([·]))

/-- In a float only the exponent has a sign. -/
theorem hasBareSign_float {whole frac : List Char} (hwhole : IsDigitRun .float whole)
    (hfrac : frac = [] ∨ IsFraction frac) (expo : List Char) :
    hasBareSign (whole ++ frac ++ expo) = hasBareSign expo := by
  have hdotted : ∀ c ∈ frac, c ≠ '+' ∧ c ≠ '-' := by
    rcases hfrac with rfl | ⟨digits, rfl, hdigits⟩
    · nofun
    · intro c hc
      cases List.mem_cons.mp hc with
      | inl heq => rw [heq]; decide
      | inr hmem => exact hdigits.ne_sign c hmem
  rw [List.append_assoc, hasBareSign_append hwhole.ne_sign, hasBareSign_append hdotted]

/-- No sign stands without its digit in a numeral with a proper exponent. -/
theorem Numeral.hasBareSign_eq_false {form : NumberForm} {cs : List Char}
    (h : Numeral IsExponent form cs) : hasBareSign cs = false := by
  cases h with
  | integer hwhole => exact ElvishOutline.hasBareSign_eq_false hwhole.ne_sign
  | @based form letter digits hletter hdigits =>
    apply ElvishOutline.hasBareSign_eq_false
    intro c hc
    rcases List.mem_cons.mp hc with rfl | hc
    · decide
    · rcases List.mem_cons.mp hc with rfl | hc
      · exact NumberForm.ne_sign_of_mem_letters hletter
      · exact hdigits.ne_sign c hc
  | float hwhole hfrac hexpo =>
    rw [hasBareSign_float hwhole hfrac]
    rcases hexpo with rfl | hexpo
    · rfl
    · exact hexpo.hasBareSign_eq_false

/-- A numeral with a loose exponent has a proper one if there is no sign without a digit. -/
theorem Numeral.proper {form : NumberForm} {cs : List Char} (h : Numeral IsLooseExponent form cs)
    (hsign : form = .float → hasBareSign cs = false) : Numeral IsExponent form cs := by
  cases h with
  | integer hwhole => exact .integer hwhole
  | based hletter hdigits => exact .based hletter hdigits
  | float hwhole hfrac hexpo hparts =>
    have hbare := hsign rfl
    rw [hasBareSign_float hwhole hfrac] at hbare
    exact .float hwhole hfrac (hexpo.imp_right fun hloose => hloose.isExponent hbare) hparts

end Signs

namespace Lexer

/-- The letter of a base gives the base and the form of its numbers. -/
theorem baseOf?_cases {letter : Char} {base : Nat} {form : NumberForm}
    (h : baseOf? letter = some (base, form)) :
    letter ∈ form.letters ∧ (base = 16 ∧ form = .hexadecimal ∨ base = 8 ∧ form = .octal ∨
      base = 2 ∧ form = .binary) := by
  unfold baseOf? at h
  split at h
  · next hletter =>
    cases h
    exact ⟨List.mem_pair.mpr hletter, .inl ⟨rfl, rfl⟩⟩
  · split at h
    · next hletter =>
      cases h
      exact ⟨List.mem_pair.mpr hletter, .inr (.inl ⟨rfl, rfl⟩)⟩
    · split at h
      · next hletter =>
        cases h
        exact ⟨List.mem_pair.mpr hletter, .inr (.inr ⟨rfl, rfl⟩)⟩
      · cases h

/-- Every letter of a form names a base. -/
theorem exists_baseOf?_of_mem_letters {letter : Char} {form : NumberForm}
    (h : letter ∈ form.letters) : ∃ base, baseOf? letter = some (base, form) := by
  cases form with
  | integer | float => cases h
  | hexadecimal => rcases List.mem_pair.mp h with rfl | rfl <;> exact ⟨16, rfl⟩
  | octal => rcases List.mem_pair.mp h with rfl | rfl <;> exact ⟨8, rfl⟩
  | binary => rcases List.mem_pair.mp h with rfl | rfl <;> exact ⟨2, rfl⟩

/-- The digits to the base sixteen are those of hexadecimal numbers. -/
theorem isDigitOf_sixteen (c : Char) : isDigitOf 16 c = NumberForm.hexadecimal.isDigit c := by
  unfold isDigitOf
  by_cases hdigit : c.isDigit = true
  · have hcode := Char.isDigit_iff_toNat.mp hdigit
    have hrange : ('0' ≤ c && c ≤ '9') = true := hdigit
    have hvalue : c.toNat - '0'.toNat < 16 := by
      have hnine : c.toNat ≤ 57 := hcode.2
      have hzero : '0'.toNat = 48 := rfl
      omega
    rw [if_pos hdigit, NumberForm.isDigit, hrange, Bool.true_or, Bool.true_or,
      decide_eq_true hvalue]
  · have hrange : ('0' ≤ c && c ≤ '9') = false := Bool.eq_false_iff.mpr hdigit
    rw [if_neg hdigit, NumberForm.isDigit, hrange, Bool.false_or]
    rfl

/-- A character is a digit of a base below ten if its code is less than the base behind that of
zero. -/
theorem isDigitOf_eq_true_iff {base : Nat} (hbase : base < 10) (c : Char) :
    isDigitOf base c = true ↔ 48 ≤ c.toNat ∧ c.toNat < 48 + base := by
  have hcode : c.isDigit = true ↔ 48 ≤ c.toNat ∧ c.toNat ≤ 57 := Char.isDigit_iff_toNat
  have hzero : '0'.toNat = 48 := rfl
  unfold isDigitOf
  by_cases hdigit : c.isDigit = true
  · have hrange := hcode.mp hdigit
    rw [if_pos hdigit, decide_eq_true_iff, hzero]
    omega
  · have hrange := hcode.not.mp hdigit
    have hsixteen : ¬base = 16 := by omega
    rw [if_neg hdigit, decide_eq_false hsixteen, Bool.false_and]
    refine iff_of_false Bool.false_ne_true ?_
    omega

/-- The digits of a base are those of its form. -/
theorem isDigitOf_eq {letter : Char} {base : Nat} {form : NumberForm}
    (h : baseOf? letter = some (base, form)) : isDigitOf base = form.isDigit := by
  funext c
  rcases (baseOf?_cases h).2 with ⟨rfl, rfl⟩ | ⟨rfl, rfl⟩ | ⟨rfl, rfl⟩
  · exact isDigitOf_sixteen c
  · rw [Bool.eq_iff_iff, isDigitOf_eq_true_iff (by decide), NumberForm.isDigit, Bool.and_eq_true,
      decide_eq_true_iff, decide_eq_true_iff]
    exact Iff.and Iff.rfl Nat.lt_succ_iff
  · have hzero : '0'.toNat = 48 := rfl
    have hone : '1'.toNat = 49 := rfl
    rw [Bool.eq_iff_iff, isDigitOf_eq_true_iff (by decide), NumberForm.isDigit, Bool.or_eq_true,
      decide_eq_true_iff, decide_eq_true_iff, ← Char.toNat_inj, ← Char.toNat_inj]
    omega

/-- The reader of decimal digits takes those of floats, which are those of integers too. -/
theorem isDecimalDigit_eq : isDecimalDigit = NumberForm.float.isFurtherDigit := rfl

section Taken

/-- All that is taken behind the first digit are further digits. -/
theorem isFurtherDigit_spanning (form : NumberForm) (cs : List Char) :
    ∀ c ∈ (Split.spanning form.isFurtherDigit cs).1, form.isFurtherDigit c = true :=
  List.all_eq_true.mp List.all_takeWhile

/-- Digits are taken from a digit on. -/
theorem isDigitRun_spanning {form : NumberForm} {digit : Char} (h : form.isDigit digit = true)
    (rest : List Char) : IsDigitRun form (Split.spanning form.isFurtherDigit (digit :: rest)).1 := by
  have hdigit : form.isFurtherDigit digit = true := by
    rw [NumberForm.isFurtherDigit, h, Bool.true_or]
  have htaken : (Split.spanning form.isFurtherDigit (digit :: rest)).1 =
      digit :: (Split.spanning form.isFurtherDigit rest).1 := List.takeWhile_cons_of_pos hdigit
  rw [htaken]
  exact ⟨h, isFurtherDigit_spanning form rest⟩

/-- A number in another base is a numeral of its form. -/
theorem numeral_of_basedTail? {exponents : List Char → Prop} {first : Char} {cs : List Char}
    {form : NumberForm} {split : Split} (h : basedTail? first cs = some (form, split)) :
    Numeral exponents form (first :: split.1) := by
  obtain ⟨letter, digit, rest, base, -, hbase, hdigit, rfl⟩ := exists_of_basedTail? h
  obtain ⟨hzero, hdigit⟩ := hdigit
  rw [isDigitOf_eq hbase] at hdigit ⊢
  rw [hzero, Split.cons_fst]
  exact .based (baseOf?_cases hbase).1 (isDigitRun_spanning hdigit rest)

/-- What is taken as a fraction is one. -/
theorem fraction_isFraction (cs : List Char) : (fraction cs).1 = [] ∨ IsFraction (fraction cs).1 := by
  rcases fraction_cases cs with hno | ⟨digit, rest, hdigit, -, hyes⟩
  · exact .inl (by rw [hno])
  · have hdigit : NumberForm.float.isDigit digit = true := hdigit
    exact .inr ⟨_, by rw [hyes, Split.cons_fst]; rfl, isDigitRun_spanning hdigit rest⟩

/-- What is taken as an exponent is one, but for a digit behind its sign. -/
theorem exponent_isLooseExponent (cs : List Char) :
    (exponent cs).1 = [] ∨ IsLooseExponent (exponent cs).1 := by
  rcases exponent_cases cs with hno | ⟨e, next, rest, ⟨hletter, hnext⟩, -, hyes⟩
  · exact .inl (by rw [hno])
  · refine .inr ⟨e, next, _, by rw [hyes, Split.cons_fst, Split.cons_fst], hletter, hnext, ?_⟩
    exact isFurtherDigit_spanning .float rest

/-- A decimal number is an integer or a float with a loose exponent. -/
theorem numeral_decimalTail {first : Char} (h : first.isDigit = true) (cs : List Char) :
    Numeral IsLooseExponent (decimalTail cs).1 (first :: (decimalTail cs).2.1) := by
  have hwhole : IsDigitRun .float (first :: (Split.spanning isDecimalDigit cs).1) :=
    ⟨h, isFurtherDigit_spanning .float cs⟩
  unfold decimalTail
  dsimp only
  split
  · next hnone =>
    rw [hnone.1, hnone.2, List.append_nil, List.append_nil]
    exact .integer hwhole
  · next hsome =>
    rw [← List.cons_append, ← List.cons_append]
    exact .float hwhole (fraction_isFraction _) (exponent_isLooseExponent _) (not_and_or.mp hsome)

/-- A numeric token is a numeral with a loose exponent. -/
theorem numeral_of_kind_number {first : Char} {cs : List Char} {form : NumberForm}
    (h : (lexeme first cs).kind = .number form) :
    Numeral IsLooseExponent form (first :: (lexeme first cs).tail) := by
  revert h
  apply lexeme_reader first (P := fun reader => (reader cs).kind = .number form →
    Numeral IsLooseExponent form (first :: (reader cs).tail))
  case feed | blank | comment | single | double | dollar => exact fun _ => nofun
  case caret =>
    intro _ h
    exact absurd h (kind_continuation (K := (· ≠ .number form)) cs nofun nofun)
  case digit =>
    intro hdigit h
    beta_reduce at h ⊢
    rcases numberTail_cases first cs with ⟨found, split, hbased, hread⟩ | ⟨-, -, hread⟩ | ⟨-, -, hread⟩
    · rw [hread] at h ⊢
      obtain rfl : found = form := TokenKind.number.inj h
      exact numeral_of_basedTail? hbased
    · rw [hread] at h
      cases h
    · rw [hread] at h ⊢
      obtain rfl : (decimalTail cs).1 = form := TokenKind.number.inj h
      exact numeral_decimalTail hdigit cs
  case letter =>
    intro _ h
    exact absurd h (kind_word (K := (· ≠ .number form)) first cs nofun fun _ => nofun)
  case dot =>
    intro _ h
    exact absurd h (kind_dotted (K := (· ≠ .number form)) cs (fun _ => nofun) nofun fun _ => nofun)
  case other =>
    intro h
    refine absurd h (kind_sign (K := (· ≠ .number form)) first cs ?_ (fun _ => nofun) nofun)
    intro kind hkind
    unfold punctuation? at hkind
    split at hkind <;> cases hkind <;> nofun

end Taken

section Read

/-- A longest part ends in front of a character that does not belong to it. -/
theorem spanning_eq {p : Char → Bool} {xs ys : List Char} (hxs : ∀ c ∈ xs, p c = true)
    (hys : ∀ c ∈ ys.head?, p c = false) : Split.spanning p (xs ++ ys) = (xs, ys) := by
  rw [Split.spanning, List.takeWhile_append_of_pos hxs, List.dropWhile_append_of_pos hxs]
  cases ys with
  | nil => simp
  | cons y ys => simp [hys y rfl]

/-- An exponent starts with its letter. -/
theorem head_of_isLooseExponent {expo : List Char} (h : expo = [] ∨ IsLooseExponent expo) :
    ∀ c ∈ expo.head?, c ∈ ['e', 'E'] := by
  rcases h with rfl | ⟨letter, next, digits, rfl, hletter, -⟩
  · nofun
  · intro c hc
    obtain rfl : letter = c := Option.some.inj hc
    exact List.mem_pair.mpr hletter

/-- A fraction starts with its dot. -/
theorem head_of_parts {frac expo : List Char} (hfrac : frac = [] ∨ IsFraction frac)
    (hexpo : expo = [] ∨ IsLooseExponent expo) :
    ∀ c ∈ (frac ++ expo).head?, c ∈ ['.', 'e', 'E'] := by
  intro c hc
  rcases hfrac with rfl | ⟨digits, rfl, -⟩
  · exact List.mem_cons_of_mem _ (head_of_isLooseExponent hexpo c hc)
  · rw [← Option.some.inj hc]
    exact List.mem_cons_self

/-- What starts a fraction or an exponent is no digit. -/
theorem isDecimalDigit_eq_false {c : Char} (h : c ∈ ['.', 'e', 'E']) : isDecimalDigit c = false := by
  rcases List.mem_cons.mp h with rfl | h
  · rfl
  · rcases List.mem_pair.mp h with rfl | rfl <;> rfl

/-- The letter of a base is no decimal digit, and starts neither a fraction nor an exponent. -/
theorem not_decimal_of_mem_letters {form : NumberForm} {letter : Char} (h : letter ∈ form.letters) :
    isDecimalDigit letter = false ∧ letter ∉ ['.', 'e', 'E'] := by
  cases form with
  | integer | float => cases h
  | hexadecimal | octal | binary => rcases List.mem_pair.mp h with rfl | rfl <;> decide

/-- A loose exponent by itself is taken whole. -/
theorem exponent_eq {expo : List Char} (h : expo = [] ∨ IsLooseExponent expo) :
    exponent expo = (expo, []) := by
  rcases h with rfl | ⟨letter, next, digits, rfl, hletter, hnext, hdigits⟩
  · rfl
  · have hspan : Split.spanning isDecimalDigit (digits ++ []) = (digits, []) :=
      spanning_eq hdigits nofun
    rw [List.append_nil] at hspan
    rw [exponent, if_pos ⟨hletter, hnext⟩, hspan]
    rfl

/-- A fraction is taken up to the exponent behind it. -/
theorem fraction_eq {frac expo : List Char} (hfrac : frac = [] ∨ IsFraction frac)
    (hexpo : expo = [] ∨ IsLooseExponent expo) : fraction (frac ++ expo) = (frac, expo) := by
  have hletter := head_of_isLooseExponent hexpo
  rcases hfrac with rfl | ⟨digits, rfl, hdigits⟩
  · rcases fraction_cases expo with hno | ⟨digit, rest, -, hdot, -⟩
    · exact hno
    · rw [hdot] at hletter
      exact absurd (hletter '.' rfl) (by decide)
  · cases digits with
    | nil => cases hdigits
    | cons d ds =>
      have hspan : Split.spanning isDecimalDigit ((d :: ds) ++ expo) = (d :: ds, expo) :=
        spanning_eq hdigits.digits
          fun c hc => isDecimalDigit_eq_false (List.mem_cons_of_mem _ (hletter c hc))
      rw [List.cons_append] at hspan
      have hdigit : d.isDigit = true := hdigits.1
      rw [List.cons_append, List.cons_append, fraction, if_pos hdigit, List.tail_cons, hspan]
      rfl

/-- The parts of a decimal number are taken one by one, to the end. -/
theorem decimalTail_eq {whole frac expo : List Char}
    (hwhole : ∀ c ∈ whole, NumberForm.float.isFurtherDigit c = true)
    (hfrac : frac = [] ∨ IsFraction frac) (hexpo : expo = [] ∨ IsLooseExponent expo) :
    decimalTail (whole ++ (frac ++ expo)) =
      (if frac = [] ∧ expo = [] then .integer else .float, whole ++ (frac ++ expo), []) := by
  have hspan : Split.spanning isDecimalDigit (whole ++ (frac ++ expo)) = (whole, frac ++ expo) :=
    spanning_eq hwhole
      fun c hc => isDecimalDigit_eq_false (head_of_parts hfrac hexpo c hc)
  unfold decimalTail
  simp only [hspan, fraction_eq hfrac hexpo, exponent_eq hexpo, List.append_assoc]

/-- A decimal number announces no other base: neither its digits nor the starts of its further parts
are base letters. -/
theorem basedTail?_eq_none {whole frac expo : List Char} (first : Char)
    (hwhole : ∀ c ∈ whole, NumberForm.float.isFurtherDigit c = true)
    (hfrac : frac = [] ∨ IsFraction frac) (hexpo : expo = [] ∨ IsLooseExponent expo) :
    basedTail? first (whole ++ (frac ++ expo)) = none := by
  cases hbased : basedTail? first (whole ++ (frac ++ expo)) with
  | none => rfl
  | some found =>
    -- The text would have to start with the letter of a base, and it starts with none.
    obtain ⟨letter, digit, rest, base, htext, hbase, -⟩ := exists_of_basedTail? hbased
    obtain ⟨hno, hstart⟩ := not_decimal_of_mem_letters (baseOf?_cases hbase).1
    cases whole with
    | nil =>
      have hhead : letter ∈ (frac ++ expo).head? := by
        rw [List.nil_append] at htext
        rw [htext]
        rfl
      exact absurd (head_of_parts hfrac hexpo letter hhead) hstart
    | cons w ws =>
      obtain ⟨rfl, -⟩ := List.cons.inj htext
      have hdigit := hwhole w List.mem_cons_self
      rw [← isDecimalDigit_eq, hno] at hdigit
      cases hdigit

/-- A digit is read as the start of a number. -/
theorem lexeme_of_isDigit {first : Char} (h : first.isDigit = true) (cs : List Char) :
    lexeme first cs = .ofSplit (numberTail first cs).1 (numberTail first cs).2 := by
  rw [lexeme_of_class (p := Char.isDigit) (by decide) h, if_pos h]

/-- A decimal number by itself is read whole. -/
theorem lexeme_decimal {first : Char} {whole frac expo : List Char}
    (hwhole : IsDigitRun .float (first :: whole)) (hfrac : frac = [] ∨ IsFraction frac)
    (hexpo : expo = [] ∨ IsLooseExponent expo) :
    lexeme first (whole ++ (frac ++ expo)) =
      ⟨.number (if frac = [] ∧ expo = [] then .integer else .float), whole ++ (frac ++ expo), []⟩ := by
  have hnumber : numberTail first (whole ++ (frac ++ expo)) =
      (.number (if frac = [] ∧ expo = [] then .integer else .float),
        whole ++ (frac ++ expo), []) := by
    unfold numberTail
    simp only [basedTail?_eq_none first hwhole.2 hfrac hexpo, decimalTail_eq hwhole.2 hfrac hexpo]
    rfl
  rw [lexeme_of_isDigit hwhole.1, hnumber]
  rfl

/-- A number in another base by itself is read whole. -/
theorem lexeme_based {form : NumberForm} {letter : Char} {digits : List Char}
    (hletter : letter ∈ form.letters) (hdigits : IsDigitRun form digits) :
    lexeme '0' (letter :: digits) = ⟨.number form, letter :: digits, []⟩ := by
  obtain ⟨base, hbase⟩ := exists_baseOf?_of_mem_letters hletter
  cases digits with
  | nil => cases hdigits
  | cons d ds =>
    have hspan : Split.spanning form.isFurtherDigit ((d :: ds) ++ []) = (d :: ds, []) :=
      spanning_eq hdigits.digits nofun
    rw [List.append_nil] at hspan
    have hbased : basedTail? '0' (letter :: d :: ds) = some (form, letter :: d :: ds, []) := by
      simp only [basedTail?, hbase, isDigitOf_eq hbase, hdigits.1, and_self, if_true, List.tail_cons]
      exact congrArg (fun split => some (form, Split.cons letter split)) hspan
    rw [lexeme_of_isDigit (by decide), numberTail, hbased]
    rfl

/-- A numeral by itself is read whole, as a number of its form. -/
theorem lexeme_of_numeral {form : NumberForm} {text : List Char}
    (h : Numeral IsLooseExponent form text) :
    ∃ first cs, text = first :: cs ∧ lexeme first cs = ⟨.number form, cs, []⟩ := by
  cases h with
  | integer hwhole =>
    cases text with
    | nil => cases hwhole
    | cons first whole =>
      refine ⟨first, whole, rfl, ?_⟩
      have hread : lexeme first (whole ++ ([] ++ [])) = ⟨.number .integer, whole ++ ([] ++ []), []⟩ :=
        lexeme_decimal hwhole (.inl rfl) (.inl rfl)
      simpa using hread
  | @based _ letter digits hletter hdigits =>
    exact ⟨'0', letter :: digits, rfl, lexeme_based hletter hdigits⟩
  | @float whole frac expo hwhole hfrac hexpo hparts =>
    cases whole with
    | nil => cases hwhole
    | cons first whole =>
      refine ⟨first, whole ++ (frac ++ expo), by simp, ?_⟩
      rw [lexeme_decimal hwhole hfrac hexpo, if_neg (not_and_or.mpr hparts)]

end Read

end Lexer

/-- A text is a numeric token of some script exactly if it is a numeral of that form, with an exponent
that may lack the digit behind its sign. So every numeric token is a numeral with a proper exponent,
but for floats in which a sign stands without a digit. -/
theorem numeric_texts_are_numerals (form : NumberForm) :
    (∀ source, ∀ t ∈ tokenize source, t.kind = .number form →
      (Numeral IsExponent form t.text.toList ↔
        ¬(form = .float ∧ hasBareSign t.text.toList = true))) ∧
    ∀ text : String, (∃ source, ∃ t ∈ tokenize source, t.kind = .number form ∧ t.text = text) ↔
      Numeral IsLooseExponent form text.toList := by
  have hloose : ∀ source, ∀ t ∈ tokenize source, t.kind = .number form →
      Numeral IsLooseExponent form t.text.toList := by
    intro source t ht hkind
    obtain ⟨-, c, cs, -, hlexeme⟩ := Lexer.exists_lexeme_of_mem_tokensFrom ht
    rw [hlexeme] at hkind
    rw [hlexeme, String.toList_ofList]
    exact Lexer.numeral_of_kind_number hkind
  constructor
  · intro source t ht hkind
    constructor
    · intro hproper hbare
      rw [hproper.hasBareSign_eq_false] at hbare
      cases hbare.2
    · intro hbare
      refine (hloose source t ht hkind).proper fun hfloat => ?_
      exact Bool.eq_false_iff.mpr fun hsign => hbare ⟨hfloat, hsign⟩
  · intro text
    constructor
    · intro hread
      obtain ⟨source, t, ht, hkind, rfl⟩ := hread
      exact hloose source t ht hkind
    · intro hnumeral
      obtain ⟨first, cs, htext, hlexeme⟩ := Lexer.lexeme_of_numeral hnumeral
      have hstring : String.ofList (first :: cs) = text := by
        rw [← htext, String.ofList_toList]
      refine ⟨text, ⟨.number form, text, 0, Text.byteLength text.toList⟩, ?_, rfl, rfl⟩
      rw [tokenize, htext, Lexer.tokensFrom, hlexeme]
      dsimp only
      rw [hstring]
      exact List.mem_cons_self

/-- In `1e+` the exponent has no digit, and yet it is a float. -/
theorem float_without_exponent_digit :
    (⟨.number .float, "1e+", 0, 3⟩ : Token) ∈ tokenize "1e+" ∧
      ¬Numeral IsExponent .float "1e+".toList := by
  refine ⟨by decide +kernel, ?_⟩
  intro hproper
  exact absurd hproper.hasBareSign_eq_false (by decide +kernel)

end ElvishOutline

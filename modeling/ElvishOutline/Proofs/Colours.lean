import ElvishOutline.Proofs.RenderedLines

/-!
# Colour in a rendering

In colour, each region that is replaced shows the text that it shows in plain writing, between control
sequences that set and reset the colour. Such a sequence is an escape character, a bracket, digits and
the letter `m`; `withoutColour` deletes all of them from a text, from left to right.

Deleting them from the rendering in colour must not touch what was in the script, even if it looks
like a part of a sequence. What is shown for a region starts no sequence that the text behind it could
complete, and completes none that the text ahead of it may have started. So with the sequences deleted
the two renderings are the same, whatever the script holds. A script without an escape character has
a plain rendering without sequences, which is therefore all that is left of the one in colour.
-/

namespace ElvishOutline

namespace Text

/-- What a control sequence may say: a row of digits. -/
def IsCode (digits : List Char) : Prop := ∀ d ∈ digits, d.isDigit = true

/-- The control sequence of a code. -/
def colourSequence (digits : List Char) : List Char := '\x1b' :: '[' :: (digits ++ ['m'])

/-- The length of the code, with the letter behind it, that a text starts with. -/
def codeLength? : List Char → Option Nat
  | [] => none
  | c :: cs =>
    if c.isDigit then (codeLength? cs).map (· + 1) else if c = 'm' then some 1 else none

/-- The length of the control sequence that a text starts with. -/
def sequenceLength? : List Char → Option Nat
  | c :: d :: cs => if c = '\x1b' ∧ d = '[' then (codeLength? cs).map (· + 2) else none
  | _ => none

/-- What is left of a text when its first characters and the control sequences behind them are
deleted. -/
def withoutColourFrom : Nat → List Char → List Char
  | _, [] => []
  | deleted + 1, _ :: cs => withoutColourFrom deleted cs
  | 0, c :: cs =>
    match sequenceLength? (c :: cs) with
    | some length => withoutColourFrom (length - 1) cs
    | none => c :: withoutColourFrom 0 cs

/-- A text without the control sequences in it. -/
def withoutColour (text : List Char) : List Char := withoutColourFrom 0 text

/-- A text that completes no control sequence, whatever stands ahead of it. -/
def StandsApart (cs : List Char) : Prop :=
  codeLength? cs = none ∧ ∀ rest, cs = '[' :: rest → codeLength? rest = none

/-- A code goes on with a digit or ends in the letter `m`, and no other character starts one. -/
theorem codeLength?_cons_eq_none {c : Char} (hdigit : c.isDigit = false) (hletter : c ≠ 'm')
    (cs : List Char) : codeLength? (c :: cs) = none := by
  rw [codeLength?, if_neg (by rw [hdigit]; exact Bool.false_ne_true), if_neg hletter]

/-- A text stands apart if it starts with another character than those of a control sequence behind
the first. -/
theorem standsApart_cons {c : Char} (hdigit : c.isDigit = false) (hletter : c ≠ 'm')
    (hbracket : c ≠ '[') (cs : List Char) : StandsApart (c :: cs) := by
  refine ⟨codeLength?_cons_eq_none hdigit hletter cs, ?_⟩
  intro rest h
  exact absurd (List.cons.inj h).1 hbracket

/-- A bracket stands apart if it starts no code. -/
theorem standsApart_bracket {c : Char} (hdigit : c.isDigit = false) (hletter : c ≠ 'm')
    (cs : List Char) : StandsApart ('[' :: c :: cs) := by
  refine ⟨codeLength?_cons_eq_none rfl (by decide) _, ?_⟩
  intro rest h
  rw [← (List.cons.inj h).2]
  exact codeLength?_cons_eq_none hdigit hletter cs

/-- Digits with the letter `m` behind them are a code of that length. -/
theorem codeLength?_digits {digits : List Char} (h : IsCode digits)
    (rest : List Char) : codeLength? (digits ++ 'm' :: rest) = some (digits.length + 1) := by
  induction digits with
  | nil => rfl
  | cons d digits ih =>
    obtain ⟨hd, hdigits⟩ := List.forall_mem_cons.mp h
    rw [List.cons_append, codeLength?, if_pos hd, ih hdigits, Option.map_some, List.length_cons]

/-- Wherever a code is found, there are its digits and the letter `m` behind them. -/
theorem exists_digits_of_codeLength? {cs : List Char} {n : Nat} (h : codeLength? cs = some n) :
    ∃ digits rest, IsCode digits ∧ cs = digits ++ 'm' :: rest ∧
      n = digits.length + 1 := by
  induction cs generalizing n with
  | nil => cases h
  | cons c cs ih =>
    rw [codeLength?] at h
    split at h
    · next hdigit =>
      obtain ⟨m, hm, rfl⟩ := Option.map_eq_some_iff.mp h
      obtain ⟨digits, rest, hdigits, rfl, rfl⟩ := ih hm
      exact ⟨c :: digits, rest, List.forall_mem_cons.mpr ⟨hdigit, hdigits⟩, rfl, rfl⟩
    · split at h
      · next hletter =>
        obtain rfl := hletter
        exact ⟨[], cs, fun d hd => (List.not_mem_nil hd).elim, rfl, (Option.some.inj h).symm⟩
      · cases h

/-- A text that starts with no code completes none that another text starts with. -/
theorem codeLength?_append {xs ys : List Char} (h : codeLength? ys = none) :
    codeLength? (xs ++ ys) = codeLength? xs := by
  induction xs with
  | nil => rw [List.nil_append, h, codeLength?]
  | cons x xs ih => rw [List.cons_append, codeLength?, codeLength?, ih]

/-- A control sequence at the start of a text is found with its length. -/
theorem sequenceLength?_colourSequence {digits : List Char} (h : IsCode digits)
    (rest : List Char) :
    sequenceLength? (colourSequence digits ++ rest) = some (colourSequence digits).length := by
  have hcode := codeLength?_digits h rest
  rw [colourSequence, List.cons_append, List.cons_append, List.append_assoc, List.singleton_append,
    sequenceLength?, if_pos ⟨rfl, rfl⟩, hcode]
  simp

/-- Only where a control sequence starts is there a length. -/
theorem exists_digits_of_sequenceLength? {text : List Char} {n : Nat}
    (h : sequenceLength? text = some n) :
    ∃ digits rest, IsCode digits ∧ text = colourSequence digits ++ rest ∧
      n = (colourSequence digits).length := by
  unfold sequenceLength? at h
  split at h
  · next c d cs =>
    split at h
    · next hstart =>
      obtain ⟨rfl, rfl⟩ := hstart
      obtain ⟨m, hm, rfl⟩ := Option.map_eq_some_iff.mp h
      obtain ⟨digits, rest, hdigits, rfl, rfl⟩ := exists_digits_of_codeLength? hm
      exact ⟨digits, rest, hdigits, by simp [colourSequence], by simp [colourSequence]⟩
    · cases h
  · cases h

/-- A text that stands apart adds no control sequence to the one ahead of it. -/
theorem sequenceLength?_append {xs ys : List Char} (hxs : xs ≠ []) (hys : StandsApart ys) :
    sequenceLength? (xs ++ ys) = sequenceLength? xs := by
  rcases xs with _ | ⟨c, _ | ⟨d, xs⟩⟩
  · exact absurd rfl hxs
  · cases ys with
    | nil => rfl
    | cons d ys =>
      rw [List.singleton_append, sequenceLength?]
      split
      · next hstart => rw [hys.2 ys (by rw [hstart.2])]; rfl
      · rfl
  · rw [List.cons_append, List.cons_append, sequenceLength?, sequenceLength?,
      codeLength?_append hys.1]

/-- Characters are deleted one by one. -/
theorem withoutColourFrom_length (xs ys : List Char) :
    withoutColourFrom xs.length (xs ++ ys) = withoutColour ys := by
  induction xs with
  | nil => rfl
  | cons x xs ih => rw [List.length_cons, List.cons_append, withoutColourFrom, ih]

/-- A control sequence is deleted. -/
theorem withoutColour_colourSequence {digits : List Char} (h : IsCode digits)
    (rest : List Char) : withoutColour (colourSequence digits ++ rest) = withoutColour rest := by
  have hlength := sequenceLength?_colourSequence h rest
  rw [colourSequence, List.cons_append] at hlength ⊢
  rw [withoutColour, withoutColourFrom, hlength]
  exact withoutColourFrom_length _ rest

/-- A character that starts no control sequence is kept. -/
theorem withoutColour_cons {c : Char} {cs : List Char}
    (h : ∀ digits, IsCode digits → ¬colourSequence digits <+: c :: cs) :
    withoutColour (c :: cs) = c :: withoutColour cs := by
  have hnone : sequenceLength? (c :: cs) = none := by
    rw [Option.eq_none_iff_forall_ne_some]
    intro n hn
    obtain ⟨digits, rest, hdigits, htext, -⟩ := exists_digits_of_sequenceLength? hn
    exact h digits hdigits ⟨rest, htext.symm⟩
  rw [withoutColour, withoutColourFrom, hnone]
  rfl

/-- A text without an escape character is kept, whatever follows it. -/
theorem withoutColour_append_of_notMem {xs : List Char} (h : '\x1b' ∉ xs) (ys : List Char) :
    withoutColour (xs ++ ys) = xs ++ withoutColour ys := by
  induction xs with
  | nil => rfl
  | cons x xs ih =>
    rw [List.mem_cons, not_or] at h
    obtain ⟨hx, hxs⟩ := h
    rw [List.cons_append, withoutColour_cons, ih hxs, List.cons_append]
    rintro digits - ⟨rest, hrest⟩
    exact hx (List.cons.inj hrest).1

/-- A text without an escape character is left as it is. -/
theorem withoutColour_of_notMem {cs : List Char} (h : '\x1b' ∉ cs) : withoutColour cs = cs := by
  have hkept := withoutColour_append_of_notMem h []
  rw [List.append_nil] at hkept
  rw [hkept]
  exact List.append_nil cs

/-- Deleting ends inside a text if the text behind it stands apart.

The induction is on the text; a control sequence at its start leaves further characters to delete. -/
theorem withoutColourFrom_append {xs ys : List Char} (hys : StandsApart ys) {deleted : Nat}
    (hdeleted : deleted ≤ xs.length) :
    withoutColourFrom deleted (xs ++ ys) = withoutColourFrom deleted xs ++ withoutColour ys := by
  induction xs generalizing deleted with
  | nil =>
    obtain rfl := Nat.le_zero.mp hdeleted
    rfl
  | cons x xs ih =>
    cases deleted with
    | succ deleted => exact ih (Nat.le_of_succ_le_succ hdeleted)
    | zero =>
      have hsame := sequenceLength?_append (List.cons_ne_nil x xs) hys
      rw [List.cons_append] at hsame ⊢
      rw [withoutColourFrom, withoutColourFrom, hsame]
      cases hlength : sequenceLength? (x :: xs) with
      | none =>
        simp only [List.cons_append]
        rw [ih (Nat.zero_le _)]
      | some length =>
        obtain ⟨digits, rest, -, htext, rfl⟩ := exists_digits_of_sequenceLength? hlength
        have hinside := congrArg List.length htext
        rw [List.length_append, List.length_cons] at hinside
        exact ih (by omega)

/-- Control sequences are deleted part by part where the second part stands apart. -/
theorem withoutColour_append (xs : List Char) {ys : List Char} (hys : StandsApart ys) :
    withoutColour (xs ++ ys) = withoutColour xs ++ withoutColour ys :=
  withoutColourFrom_append hys (Nat.zero_le _)

/-- Cuts take characters of the text only. -/
theorem notMem_slice {c : Char} {text : List Char} (h : c ∉ text) (start stop : Nat) :
    c ∉ dropBytes start text ∧ c ∉ slice start stop text := by
  have hdrop : c ∉ dropBytes start text := by
    intro hc
    apply h
    rw [← takeBytes_append_dropBytes start text]
    exact List.mem_append_right _ hc
  refine ⟨hdrop, fun hc => hdrop ?_⟩
  rw [← takeBytes_append_dropBytes (stop - start) (dropBytes start text)]
  exact List.mem_append_left _ hc

end Text

open Text (IsCode StandsApart colourSequence dropBytes slice withoutColour)

section Sequences

variable {code : String}

/-- The codes that reset the colour and that dim the text. -/
theorem isCode_reset_dim : IsCode "0".toList ∧ IsCode "2".toList := by
  simp [IsCode]

/-- The text of a colour is the control sequence with its code. -/
theorem toList_sgr (code : String) : (sgr code).toList = colourSequence code.toList := by
  rw [sgr, String.toList_append, String.toList_append, List.append_assoc]
  rfl

/-- A colour at the start of a text is deleted from it. -/
theorem withoutColour_sgr (h : IsCode code.toList) (rest : List Char) :
    withoutColour ((sgr code).toList ++ rest) = withoutColour rest := by
  rw [toList_sgr, Text.withoutColour_colourSequence h]

/-- A colour has one escape character, its first. -/
theorem count_escape_sgr (h : IsCode code.toList) :
    (sgr code).toList.count '\x1b' = 1 := by
  have hdigits : '\x1b' ∉ code.toList := by
    intro hescape
    cases h _ hescape
  rw [toList_sgr, colourSequence, List.count_cons_self, List.count_cons_of_ne (by decide),
    List.count_append, List.count_eq_zero_of_not_mem hdigits]
  rfl

end Sequences

/-- The placeholder of a brace starts with the brace and has no escape character. -/
theorem BraceRole.exists_toList_placeholder (role : BraceRole) (style : PlaceholderStyle) :
    ∃ shown, (role.placeholder style).toList = '\x7b' :: shown ∧ '\x1b' ∉ shown := by
  unfold BraceRole.placeholder
  split
  · next b =>
    have hword : '\x1b' ∉ (b.word ++ " ...\x7d").toList := by cases b <;> simp [BlockKind.word]
    refine ⟨(b.word ++ " ...\x7d").toList, ?_, hword⟩
    rw [String.append_assoc, String.toList_append]
    rfl
  · exact ⟨"...\x7d".toList, rfl, by simp⟩

/-- Placeholders have no escape character and complete no control sequence. -/
theorem placeholderOf_standsApart (options : AnalysisOptions) (context : Option BraceRole)
    (following : List Token) :
    '\x1b' ∉ (placeholderOf options context following).toList ∧
      ∀ rest, StandsApart ((placeholderOf options context following).toList ++ rest) := by
  cases context with
  | none =>
    rw [placeholderOf]
    split
    · exact ⟨by simp, fun rest => Text.standsApart_bracket rfl (by decide) _⟩
    · exact ⟨by simp, fun rest => Text.standsApart_bracket rfl (by decide) _⟩
  | some role =>
    obtain ⟨shown, hshown, hescape⟩ := role.exists_toList_placeholder options.style
    rw [placeholderOf, hshown]
    constructor
    · rw [List.mem_cons, not_or]
      exact ⟨by decide, hescape⟩
    · intro rest
      exact Text.standsApart_cons rfl (by decide) (by decide) _

namespace Fold

/-- The note of the lines that a region hides, if the region ends its line. -/
def note (f : Fold) (endsLine : Bool) : String :=
  if endsLine then " # " ++ toString f.hiddenLines ++ " lines folded" else ""

/-- Every region has a colour that is a control sequence. -/
theorem exists_color_eq_sgr (f : Fold) :
    ∃ code, f.color = sgr code ∧ IsCode code.toList := by
  unfold color
  split <;> exact ⟨_, rfl, by simp [IsCode]⟩

/-- The note has no escape character: it is made of words and a number. -/
theorem escape_notMem_note (f : Fold) (endsLine : Bool) : '\x1b' ∉ (f.note endsLine).toList := by
  cases endsLine with
  | false => exact List.not_mem_nil
  | true =>
    have hnumber : '\x1b' ∉ (toString f.hiddenLines).toList := by
      intro hescape
      rw [Nat.toString_eq_repr, Nat.toList_repr] at hescape
      cases Nat.isDigit_of_mem_toDigits (by decide) (by decide) hescape
    have htexts : '\x1b' ∉ " # ".toList ∧ '\x1b' ∉ " lines folded".toList := by simp
    simp only [note, if_true, String.toList_append, List.mem_append, not_or]
    exact ⟨⟨htexts.1, hnumber⟩, htexts.2⟩

/-- What is shown for a region in plain text. -/
theorem toList_collapsedText_plain (f : Fold) (endsLine : Bool) :
    (f.collapsedText .plain endsLine).toList = f.placeholder.toList ++ (f.note endsLine).toList := by
  rw [← String.toList_append]
  rfl

/-- What is shown for a region in colour: the placeholder in its colour and the note in a dim one. -/
theorem toList_collapsedText_ansi (f : Fold) (endsLine : Bool) :
    (f.collapsedText .ansi endsLine).toList = f.color.toList ++ (f.placeholder.toList ++
      ((sgr "0").toList ++ ((sgr "2").toList ++ ((f.note endsLine).toList ++ (sgr "0").toList)))) := by
  simp only [← String.toList_append, ← String.append_assoc]
  rfl

namespace IsLabelled

variable {options : AnalysisOptions} {f : Fold}

/-- The placeholder of a region has no escape character and completes no control sequence. -/
theorem placeholder_standsApart (h : f.IsLabelled options) :
    '\x1b' ∉ f.placeholder.toList ∧ ∀ rest, StandsApart (f.placeholder.toList ++ rest) := by
  obtain ⟨following, hplaceholder⟩ := h.placeholder_eq
  rw [hplaceholder]
  exact placeholderOf_standsApart options f.context following

/-- What is shown for a region completes no control sequence, in plain text or in colour. -/
theorem collapsedText_standsApart (h : f.IsLabelled options) (palette : Palette) (endsLine : Bool)
    (rest : List Char) : StandsApart ((f.collapsedText palette endsLine).toList ++ rest) := by
  cases palette with
  | plain =>
    rw [toList_collapsedText_plain, List.append_assoc]
    exact h.placeholder_standsApart.2 _
  | ansi =>
    obtain ⟨code, hcolor, -⟩ := f.exists_color_eq_sgr
    rw [toList_collapsedText_ansi, hcolor, toList_sgr]
    exact Text.standsApart_cons rfl (by decide) (by decide) _

/-- Without its control sequences, what is shown for a region is what is shown in plain text. -/
theorem withoutColour_collapsedText (h : f.IsLabelled options) (palette : Palette) (endsLine : Bool)
    (rest : List Char) :
    withoutColour ((f.collapsedText palette endsLine).toList ++ rest) =
      (f.collapsedText .plain endsLine).toList ++ withoutColour rest := by
  have hplaceholder := h.placeholder_standsApart.1
  have hnote := f.escape_notMem_note endsLine
  rw [toList_collapsedText_plain, List.append_assoc]
  cases palette with
  | plain =>
    rw [toList_collapsedText_plain, List.append_assoc,
      Text.withoutColour_append_of_notMem hplaceholder, Text.withoutColour_append_of_notMem hnote]
  | ansi =>
    obtain ⟨code, hcolor, hcode⟩ := f.exists_color_eq_sgr
    obtain ⟨hreset, hdim⟩ := isCode_reset_dim
    simp only [toList_collapsedText_ansi, hcolor, List.append_assoc]
    rw [withoutColour_sgr hcode, Text.withoutColour_append_of_notMem hplaceholder,
      withoutColour_sgr hreset, withoutColour_sgr hdim,
      Text.withoutColour_append_of_notMem hnote, withoutColour_sgr hreset]

/-- Colour adds four control sequences to what is shown for a region. -/
theorem count_escape_collapsedText (h : f.IsLabelled options) (endsLine : Bool) :
    (f.collapsedText .ansi endsLine).toList.count '\x1b' = 4 ∧
      '\x1b' ∉ (f.collapsedText .plain endsLine).toList := by
  have hplaceholder := h.placeholder_standsApart.1
  have hnote := f.escape_notMem_note endsLine
  constructor
  · obtain ⟨code, hcolor, hcode⟩ := f.exists_color_eq_sgr
    obtain ⟨hreset, hdim⟩ := isCode_reset_dim
    simp only [toList_collapsedText_ansi, hcolor, List.count_append, count_escape_sgr hcode,
      count_escape_sgr hreset, count_escape_sgr hdim, List.count_eq_zero_of_not_mem hplaceholder,
      List.count_eq_zero_of_not_mem hnote]
  · rw [toList_collapsedText_plain, List.mem_append, not_or]
    exact ⟨hplaceholder, hnote⟩

end IsLabelled

end Fold

section Collapsing

variable {options : AnalysisOptions} (text : List Char) {rs : List Fold}

/-- Regions collapsed in colour are, without the control sequences, regions collapsed in plain text. -/
theorem withoutColour_collapseFrom (hrs : ∀ r ∈ rs, r.IsLabelled options) (palette : Palette)
    (current : Nat) :
    withoutColour (collapseFrom palette text current rs) =
      withoutColour (collapseFrom .plain text current rs) := by
  induction rs generalizing current with
  | nil => rfl
  | cons r rs ih =>
    obtain ⟨hr, hlater⟩ := List.forall_mem_cons.mp hrs
    rw [collapseFrom, collapseFrom, List.append_assoc, List.append_assoc,
      Text.withoutColour_append _ (hr.collapsedText_standsApart _ _ _),
      Text.withoutColour_append _ (hr.collapsedText_standsApart _ _ _),
      hr.withoutColour_collapsedText, hr.withoutColour_collapsedText, ih hlater]

/-- Each region that is collapsed adds four control sequences to the text. -/
theorem count_escape_collapseFrom (hrs : ∀ r ∈ rs, r.IsLabelled options) (current : Nat) :
    (collapseFrom .ansi text current rs).count '\x1b' =
      (collapseFrom .plain text current rs).count '\x1b' + 4 * rs.length := by
  induction rs generalizing current with
  | nil => rfl
  | cons r rs ih =>
    obtain ⟨hr, hlater⟩ := List.forall_mem_cons.mp hrs
    obtain ⟨hansi, hplain⟩ := hr.count_escape_collapsedText (endsLine (dropBytes r.stop text))
    rw [collapseFrom, collapseFrom, List.count_append, List.count_append, List.count_append,
      List.count_append, hansi, List.count_eq_zero_of_not_mem hplain, ih hlater, List.length_cons]
    omega

/-- Collapsing regions in plain text adds no escape character. -/
theorem escape_notMem_collapseFrom (hrs : ∀ r ∈ rs, r.IsLabelled options)
    (htext : '\x1b' ∉ text) (current : Nat) : '\x1b' ∉ collapseFrom .plain text current rs := by
  induction rs generalizing current with
  | nil => exact (Text.notMem_slice htext current current).1
  | cons r rs ih =>
    obtain ⟨hr, hlater⟩ := List.forall_mem_cons.mp hrs
    rw [collapseFrom, List.mem_append, List.mem_append, not_or, not_or]
    exact ⟨⟨(Text.notMem_slice htext current r.start).2, (hr.count_escape_collapsedText _).2⟩,
      ih hlater r.stop⟩

end Collapsing

/-- A script is rendered in plain text and in colour. In colour there are four escape characters more
for each region that is replaced. With all control sequences deleted from both, also those that the
script may hold, the two renderings are the same. So if the script has no escape character, deleting
them from the rendering in colour gives the plain one. -/
theorem rendering_without_colour (source : String) (options : AnalysisOptions) :
    ∃ a plain ansi replaced, analyze source options = .ok a ∧
      render .plain source a.folds = .ok plain ∧ render .ansi source a.folds = .ok ansi ∧
      IsOutermost a.folds replaced ∧
      ansi.toList.count '\x1b' = plain.toList.count '\x1b' + 4 * replaced.length ∧
      withoutColour ansi.toList = withoutColour plain.toList ∧
      ('\x1b' ∉ source.toList → withoutColour ansi.toList = plain.toList) := by
  have hregions := orderedRegions_folds source options
  have hlabelled (r : Fold)
      (hr : r ∈ replacedFrom 0 (analysisOf source (tokenize source) options).folds) :
      r.IsLabelled options :=
    isLabelled_of_mem_folds ((replacedFrom_sublist 0 _).subset hr)
  have hsame := withoutColour_collapseFrom source.toList hlabelled .ansi 0
  refine ⟨_, _, _, _, analyze_eq_ok source options, render_eq_ok .plain hregions.liesIn,
    render_eq_ok .ansi hregions.liesIn, hregions.isOutermost, ?_⟩
  simp only [String.toList_ofList]
  refine ⟨count_escape_collapseFrom _ hlabelled 0, hsame, fun hsource => ?_⟩
  have hescape := escape_notMem_collapseFrom _ hlabelled hsource 0
  rw [hsame, Text.withoutColour_of_notMem hescape]

/-- Text that looks like parts of control sequences, ahead of a region and behind it, is kept. -/
theorem rendering_without_colour_beside_codes :
    '\x1b' ∉ "[1m\x7b\n\x7d[2m".toList ∧
      ∃ a, analyze "[1m\x7b\n\x7d[2m" {} = .ok a ∧
        render .ansi "[1m\x7b\n\x7d[2m" a.folds =
          .ok "[1m\x1b[35m\x7b...\x7d\x1b[0m\x1b[2m\x1b[0m[2m" ∧
        render .plain "[1m\x7b\n\x7d[2m" a.folds = .ok "[1m\x7b...\x7d[2m" ∧
        withoutColour "[1m\x1b[35m\x7b...\x7d\x1b[0m\x1b[2m\x1b[0m[2m".toList =
          "[1m\x7b...\x7d[2m".toList := by
  have hsource : '\x1b' ∉ "[1m\x7b\n\x7d[2m".toList := by decide +kernel
  obtain ⟨a, plain, ansi, -, ha, hplain, hansi, -, -, -, hdeleted⟩ :=
    rendering_without_colour "[1m\x7b\n\x7d[2m" {}
  have hrendered : render .ansi "[1m\x7b\n\x7d[2m" a.folds =
        .ok "[1m\x1b[35m\x7b...\x7d\x1b[0m\x1b[2m\x1b[0m[2m" ∧
      render .plain "[1m\x7b\n\x7d[2m" a.folds = .ok "[1m\x7b...\x7d[2m" := by
    rw [analyze_eq_ok] at ha
    obtain rfl := Except.ok.inj ha
    constructor <;> decide +kernel
  obtain rfl := Except.ok.inj (hansi.symm.trans hrendered.1)
  obtain rfl := Except.ok.inj (hplain.symm.trans hrendered.2)
  exact ⟨hsource, a, ha, hansi, hplain, hdeleted hsource⟩

end ElvishOutline

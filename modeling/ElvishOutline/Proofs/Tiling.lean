import Mathlib.Data.List.Chain
import ElvishOutline.Token.Lexer
import ElvishOutline.Token.Stream

/-!
# Tokens tile their script

The tokens of a script stand one after the other without a gap: each starts where the one ahead of
it ends, covers the bytes of its own text and is not empty, and the texts together spell the script.
`Tiles` states this of consecutive tokens from any byte on, so that it can be cut at any token.

Everything that later passes need to know about offsets follows from it: where a token starts, that
it starts and ends between two characters, and that the tokens meet the contract of `checkTokens`.
-/

namespace ElvishOutline

open Text (byteLength)

namespace Text

/-- The characters of a string measure as many bytes as the string. -/
theorem byteLength_toList (s : String) : byteLength s.toList = s.utf8ByteSize := by
  have hlist (cs : List Char) : byteLength cs = (String.ofList cs).utf8ByteSize := by
    induction cs with
    | nil => simp
    | cons c cs ih =>
      have hcons : String.ofList (c :: cs) = String.singleton c ++ String.ofList cs := by
        rw [String.singleton_eq_ofList, ← String.ofList_append]
        rfl
      rw [byteLength_cons, ih, hcons, String.utf8ByteSize_append, String.utf8ByteSize_singleton]
  rw [hlist, String.ofList_toList]

/-- A cut between two characters of a string is a valid position of it. -/
theorem isValid_byteLength {s : String} {xs ys : List Char} (h : s.toList = xs ++ ys) :
    (⟨byteLength xs⟩ : String.Pos.Raw).IsValid s := by
  rw [String.Pos.Raw.isValid_iff_exists_append]
  refine ⟨String.ofList xs, String.ofList ys, ?_, ?_⟩
  · rw [← String.ofList_append, ← h, String.ofList_toList]
  · have hsize := byteLength_toList (String.ofList xs)
    rw [String.toList_ofList] at hsize
    exact String.Pos.Raw.ext hsize

end Text

/-- The text that consecutive tokens spell. -/
def spelling (tokens : List Token) : List Char := tokens.flatMap (·.text.toList)

/-- No tokens spell nothing. -/
@[simp] theorem spelling_nil : spelling [] = [] := rfl

/-- Tokens spell the text of the first one and what those behind it spell. -/
@[simp] theorem spelling_cons (t : Token) (ts : List Token) :
    spelling (t :: ts) = t.text.toList ++ spelling ts := rfl

/-- Tokens spell their text part by part. -/
@[simp] theorem spelling_append (xs ys : List Token) :
    spelling (xs ++ ys) = spelling xs ++ spelling ys := by
  simp [spelling]

/-- Tokens that cover the bytes from `start` on, one after the other, each with the bytes of its
text and with at least one. -/
def Tiles (start : Nat) : List Token → Prop
  | [] => True
  | t :: ts =>
    t.start = start ∧ t.length = byteLength t.text.toList ∧ 0 < t.length ∧ Tiles t.stop ts

namespace Tiles

/-- A tiling may be cut between any two tokens. -/
theorem append_iff {start : Nat} {xs ys : List Token} :
    Tiles start (xs ++ ys) ↔ Tiles start xs ∧ Tiles (start + byteLength (spelling xs)) ys := by
  induction xs generalizing start with
  | nil => simp [Tiles]
  | cons x xs ih =>
    simp only [List.cons_append, Tiles, ih, spelling_cons, Text.byteLength_append]
    constructor
    · rintro ⟨rfl, hlength, hpos, hxs, hys⟩
      refine ⟨⟨rfl, hlength, hpos, hxs⟩, ?_⟩
      rwa [Token.stop, hlength, Nat.add_assoc] at hys
    · rintro ⟨⟨rfl, hlength, hpos, hxs⟩, hys⟩
      refine ⟨rfl, hlength, hpos, hxs, ?_⟩
      rwa [Token.stop, hlength, Nat.add_assoc]

/-- The offsets of a token are measured by the text ahead of it. -/
theorem start_stop {start : Nat} {xs ys : List Token} {t : Token}
    (h : Tiles start (xs ++ t :: ys)) :
    t.start = start + byteLength (spelling xs) ∧
      t.stop = start + byteLength (spelling (xs ++ [t])) := by
  obtain ⟨-, hstart, hlength, -, -⟩ := append_iff.mp h
  refine ⟨hstart, ?_⟩
  rw [Token.stop, hstart, hlength, spelling_append, Text.byteLength_append, Nat.add_assoc]
  simp

/-- Every token covers exactly the bytes of its text. -/
theorem length_eq {start : Nat} {ts : List Token} (h : Tiles start ts) {t : Token} (ht : t ∈ ts) :
    t.length = byteLength t.text.toList ∧ 0 < t.length := by
  obtain ⟨xs, ys, rfl⟩ := List.append_of_mem ht
  obtain ⟨-, -, hlength, hpos, -⟩ := append_iff.mp h
  exact ⟨hlength, hpos⟩

/-- No token reaches past the text that the tokens spell. -/
theorem stop_le {start : Nat} {ts : List Token} (h : Tiles start ts) {t : Token} (ht : t ∈ ts) :
    t.stop ≤ start + byteLength (spelling ts) := by
  obtain ⟨xs, ys, rfl⟩ := List.append_of_mem ht
  rw [(start_stop h).2]
  simp only [spelling_append, spelling_cons, spelling_nil, List.append_nil, Text.byteLength_append]
  omega

/-- Each token starts where the one ahead of it ends. -/
theorem isChain {start : Nat} {ts : List Token} (h : Tiles start ts) :
    ts.IsChain fun a b => b.start = a.stop := by
  induction ts generalizing start with
  | nil => exact .nil
  | cons t ts ih =>
    obtain ⟨-, -, -, hrest⟩ := h
    cases ts with
    | nil => exact .singleton t
    | cons u us => exact .cons_cons hrest.1 (ih hrest)

/-- There are at most as many tokens as characters. -/
theorem length_le_spelling {start : Nat} {ts : List Token} (h : Tiles start ts) :
    ts.length ≤ (spelling ts).length := by
  induction ts generalizing start with
  | nil => exact Nat.le_refl 0
  | cons t ts ih =>
    obtain ⟨-, hlength, hpos, hrest⟩ := h
    have htext : 0 < t.text.toList.length := by
      rw [List.length_pos_iff]
      intro hempty
      rw [hlength, hempty] at hpos
      exact Nat.lt_irrefl 0 hpos
    have := ih hrest
    simp only [List.length_cons, spelling_cons, List.length_append]
    omega

/-- Tokens that tile a part of a script meet the contract of tokens.

The bound on offsets that can be written down only lowers the ends that are compared, so it never
turns a tiling down. -/
theorem checkFrom_eq_ok {start : Nat} {ts : List Token} (h : Tiles start ts)
    {sourceLength previousStop : Nat} (index : Nat)
    (hinside : start + byteLength (spelling ts) ≤ sourceLength) (hprevious : previousStop ≤ start) :
    checkFrom sourceLength index previousStop ts = .ok () := by
  induction ts generalizing start previousStop index with
  | nil => rfl
  | cons t ts ih =>
    have hstop := h.stop_le (List.mem_cons_self ..)
    obtain ⟨hstart, hlength, -, hrest⟩ := h
    have hbounded : t.boundedStop ≤ t.stop := Nat.min_le_left ..
    rw [spelling_cons, Text.byteLength_append] at hinside hstop
    have hrestInside : t.stop + byteLength (spelling ts) ≤ sourceLength := by
      rw [Token.stop, hstart, hlength]
      omega
    rw [checkFrom, if_neg (by omega), if_neg (by omega)]
    exact ih hrest (index + 1) hrestInside hbounded

end Tiles

namespace Lexer

/-- The lexer's tokens tile the text from the byte it starts at. -/
theorem tiles_tokensFrom (start : Nat) (text : List Char) : Tiles start (tokensFrom start text) := by
  fun_induction tokensFrom start text with
  | case1 start => trivial
  | case2 start c cs next taken ih =>
    refine ⟨rfl, ?_, ?_, ih⟩
    · rw [String.toList_ofList]
    · have hsize := c.utf8Size_pos
      simp only [taken, Text.byteLength_cons]
      omega

/-- Every token is read at its first character, and the tokens behind it from what it leaves over. -/
theorem exists_lexeme_of_mem_tokensFrom {start : Nat} {text : List Char} {t : Token}
    (ht : t ∈ tokensFrom start text) :
    ∃ before c cs, tokensFrom start text = before ++ t :: tokensFrom t.stop (lexeme c cs).rest ∧
      t = ⟨(lexeme c cs).kind, String.ofList (c :: (lexeme c cs).tail), t.start,
        byteLength (c :: (lexeme c cs).tail)⟩ := by
  induction start, text using tokensFrom.induct with
  | case1 =>
    rw [tokensFrom] at ht
    cases ht
  | case2 start c cs next taken ih =>
    rw [tokensFrom] at ht ⊢
    rcases List.mem_cons.mp ht with rfl | ht
    · exact ⟨[], c, cs, rfl, rfl⟩
    · obtain ⟨before, d, ds, htokens, hlexeme⟩ := ih ht
      exact ⟨_ :: before, d, ds, by rw [htokens, List.cons_append], hlexeme⟩

/-- The lexer's tokens spell the text. -/
theorem spelling_tokensFrom (start : Nat) (text : List Char) :
    spelling (tokensFrom start text) = text := by
  fun_induction tokensFrom start text with
  | case1 start => rfl
  | case2 start c cs next taken ih =>
    rw [spelling_cons, ih, String.toList_ofList, List.cons_append, lexeme_append]

end Lexer

/-- There is no token in an empty script. -/
@[simp] theorem tokenize_empty : tokenize "" = [] := by
  rw [tokenize, String.toList_empty, Lexer.tokensFrom]

/-- The tokens of a script tile it from its first byte on. -/
theorem tiles_tokenize (source : String) : Tiles 0 (tokenize source) :=
  Lexer.tiles_tokensFrom 0 source.toList

/-- The tokens of a script spell it. -/
theorem spelling_tokenize (source : String) : spelling (tokenize source) = source.toList :=
  Lexer.spelling_tokensFrom 0 source.toList

/-- No token of a script reaches past its end. -/
theorem stop_le_of_mem_tokenize {source : String} {t : Token} (ht : t ∈ tokenize source) :
    t.stop ≤ source.utf8ByteSize := by
  have hstop := (tiles_tokenize source).stop_le ht
  rwa [spelling_tokenize, Text.byteLength_toList, Nat.zero_add] at hstop

/-- Both ends of a token lie between two characters of the script. -/
theorem isValid_token_ends {source : String} {t : Token} (ht : t ∈ tokenize source) :
    (⟨t.start⟩ : String.Pos.Raw).IsValid source ∧ (⟨t.stop⟩ : String.Pos.Raw).IsValid source := by
  obtain ⟨xs, ys, hsplit⟩ := List.append_of_mem ht
  have htiles := tiles_tokenize source
  have hspelling := spelling_tokenize source
  rw [hsplit] at htiles hspelling
  obtain ⟨hstart, hstop⟩ := htiles.start_stop
  rw [Nat.zero_add] at hstart hstop
  rw [hstart, hstop]
  constructor
  · exact Text.isValid_byteLength (by rw [← hspelling, spelling_append])
  · have hcut : source.toList = spelling (xs ++ [t]) ++ spelling ys := by
      rw [← hspelling]
      simp
    exact Text.isValid_byteLength hcut

/-- The tokens of any script, at most one a character, tile it without loss: their texts join to the
script, they start at its first byte and end at its last, each starts where the one ahead of it
ends, and each covers the bytes of its own text, at least one, between two character boundaries. So
they meet the contract of tokens. -/
theorem tokenize_lossless_tiling (source : String) :
    (tokenize source).length ≤ source.length ∧
      String.join ((tokenize source).map (·.text)) = source ∧
      (∀ t ∈ (tokenize source).head?, t.start = 0) ∧
      (tokenize source).IsChain (fun a b => b.start = a.stop) ∧
      (∀ t ∈ (tokenize source).getLast?, t.stop = source.utf8ByteSize) ∧
      (∀ t ∈ tokenize source, t.length = t.text.utf8ByteSize ∧ 0 < t.length ∧
        (⟨t.start⟩ : String.Pos.Raw).IsValid source ∧
        (⟨t.stop⟩ : String.Pos.Raw).IsValid source) ∧
      checkTokens (tokenize source) source.utf8ByteSize = .ok () := by
  have htiles := tiles_tokenize source
  have hspelling := spelling_tokenize source
  have hsize := Text.byteLength_toList source
  refine ⟨?_, ?_, ?_, htiles.isChain, ?_, ?_, ?_⟩
  · rw [← String.length_toList, ← hspelling]
    exact htiles.length_le_spelling
  · rw [← String.toList_inj, String.toList_join, List.flatMap_map]
    exact hspelling
  · intro t ht
    obtain ⟨ts, hts⟩ := List.head?_eq_some_iff.mp ht
    rw [hts] at htiles
    exact htiles.1
  · intro t ht
    obtain ⟨ts, hts⟩ := List.getLast?_eq_some_iff.mp ht
    rw [hts] at htiles hspelling
    rw [htiles.start_stop.2, hspelling, hsize, Nat.zero_add]
  · intro t ht
    obtain ⟨hlength, hpos⟩ := htiles.length_eq ht
    exact ⟨by rw [hlength, Text.byteLength_toList], hpos, isValid_token_ends ht⟩
  · exact htiles.checkFrom_eq_ok 0 (by rw [hspelling, hsize, Nat.zero_add]) (Nat.le_refl 0)

end ElvishOutline

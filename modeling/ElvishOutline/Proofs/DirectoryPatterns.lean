import Mathlib.Data.Char
import Mathlib.Data.List.Lex
import ElvishOutline.Proofs.ByteOrder
import ElvishOutline.Proofs.Filters
import ElvishOutline.Proofs.RootText

/-!
# Patterns for the content of a directory

A pattern `**/name/**` is read as leading directories, the characters of the name, and everything below
a directory. It is matched with the bytes of a path, where the name must stand at the start or behind a
slash and must have a slash behind it. The byte of a slash is part of no other character, so such a
pattern accepts exactly the paths with this name as one of their components, other than the last.

The patterns that every scan uses have this form (`PathFilter.readDefaults_eq`), and
`PathFilter.readDefaults_accept_iff` says which paths they pass over.
-/

namespace ElvishOutline

namespace Text

/-- A slash has one byte, and no other character has this byte. -/
theorem slash_mem_utf8EncodeChar_iff {c : Char} :
    Glob.slash ∈ String.utf8EncodeChar c ↔ c = '/' := by
  constructor
  · intro h
    have hval : c.val.toNat = 47 := by
      unfold String.utf8EncodeChar at h
      generalize c.val.toNat = v at h ⊢
      have hslash : Glob.slash.toNat = 47 := rfl
      dsimp only at h
      split_ifs at h <;>
        simp only [List.mem_cons, List.not_mem_nil, or_false, ← UInt8.toNat_inj, hslash,
          UInt8.toNat_ofNat'] at h <;>
        omega
    exact Char.ext (UInt32.toNat_inj.mp hval)
  · intro h
    rw [h]
    decide

/-- The byte of a slash stands for a slash only, also among the bytes of longer characters. -/
theorem slash_mem_utf8_iff {cs : List Char} : Glob.slash ∈ utf8 cs ↔ '/' ∈ cs := by
  rw [utf8, List.mem_flatMap]
  constructor
  · intro h
    obtain ⟨c, hc, hslash⟩ := h
    rwa [← slash_mem_utf8EncodeChar_iff.mp hslash]
  · intro h
    exact ⟨'/', h, slash_mem_utf8EncodeChar_iff.mpr rfl⟩

/-- Texts with the same bytes are the same. -/
theorem utf8_injective : Function.Injective utf8 := by
  intro xs ys h
  have hnot {xs ys : List Char} (h : utf8 xs = utf8 ys) : ¬xs < ys := by
    intro hlt
    have hbytes := utf8_lt_utf8 hlt
    rw [h] at hbytes
    exact List.lt_irrefl _ hbytes
  exact ((lt_trichotomy xs ys).resolve_left (hnot h)).resolve_right (hnot h.symm)

end Text

namespace Glob

section Reading

variable (dialect : GlobDialect) (classes : Bool) (r : Reading) (before : Option Char)

/-- Whether a character stands for itself in a pattern. -/
def isPlain (c : Char) : Bool := !(['*', '?', '[', '\\', '\x7b', ',', '\x7d'].contains c)

/-- A character that stands for itself is read as a literal. -/
theorem readFrom_plain {c : Char} (hc : isPlain c = true) (cs : List Char) :
    readFrom dialect classes r before (c :: cs) =
      readFrom dialect classes (r.push (.literal c)) (some c) cs := by
  rw [readFrom.eq_def]
  split <;> simp_all [isPlain]

/-- Characters that stand for themselves are read one after the other. -/
theorem readFrom_append {name : List Char} (hname : ∀ c ∈ name, isPlain c = true) (cs : List Char) :
    readFrom dialect classes r before (name ++ cs) =
      readFrom dialect classes { r with tokens := (name.map .literal).reverse ++ r.tokens }
        (name.getLast?.or before) cs := by
  induction name generalizing r before with
  | nil => rfl
  | cons c name ih =>
    obtain ⟨hc, hrest⟩ := List.forall_mem_cons.mp hname
    rw [List.cons_append, readFrom_plain dialect classes r before hc, ih _ _ hrest]
    congr 1
    · simp [Reading.push]
    · rw [List.getLast?_cons]
      cases name.getLast? <;> rfl

/-- The tokens of the pattern for the content of directories with a name. -/
def directoryTokens (name : List Char) : List GlobToken :=
  .leadingDirectories :: (name.map .literal ++ [.everythingBelow])

/-- The pattern for the content of directories with a name. -/
def inDirectory (name : String) : Glob := ⟨dialect, directoryTokens name.toList⟩

/-- The pattern that is written for the content of directories with a plain name is read as such. -/
theorem parse_directory {name : String} (hname : ∀ c ∈ name.toList, isPlain c = true) :
    parse dialect ("**/" ++ name ++ "/**") = .ok (inDirectory dialect name) := by
  have htext : ("**/" ++ name ++ "/**").toList =
      '*' :: '*' :: '/' :: (name.toList ++ ['/', '*', '*']) := by simp
  have hlead : readFrom dialect true ⟨[], []⟩ none
      ('*' :: '*' :: '/' :: (name.toList ++ ['/', '*', '*'])) =
      readFrom dialect true ⟨[.leadingDirectories], []⟩ (some '/')
        (name.toList ++ ['/', '*', '*']) := by
    rw [readFrom]
    rfl
  have hbelow (tokens : List GlobToken) :
      readFrom dialect true ⟨.literal '/' :: tokens, []⟩ (some '/') ['*', '*'] =
        .ok (.everythingBelow :: tokens).reverse := by
    rw [readFrom]
    have hstars : doubleStar ⟨.literal '/' :: tokens, []⟩ (some '/') none = .below := rfl
    simp only [List.head?_nil, hstars]
    rw [readFrom]
    rfl
  rw [parse, htext, hlead, readFrom_append dialect true _ _ hname,
    readFrom_plain dialect true _ _ (by decide)]
  simp only [Reading.push, hbelow]
  simp [inDirectory, directoryTokens, Except.map]

end Reading

section Matching

variable (dialect : GlobDialect)

/-- What tokens can leave of several texts they can leave of one of them. -/
theorem mem_sequenceRemainders_iff {tokens : List GlobToken} {texts : List (List UInt8)}
    {left : List UInt8} :
    left ∈ sequenceRemainders dialect tokens texts ↔
      ∃ text ∈ texts, left ∈ sequenceRemainders dialect tokens [text] := by
  induction tokens generalizing texts with
  | nil => simp [sequenceRemainders]
  | cons token tokens ih =>
    rw [sequenceRemainders, ih]
    simp only [List.mem_eraseDups, List.mem_flatMap]
    constructor
    · intro h
      obtain ⟨between, ⟨text, htext, hbetween⟩, hleft⟩ := h
      refine ⟨text, htext, ?_⟩
      rw [sequenceRemainders, ih]
      exact ⟨between, by simpa using hbetween, hleft⟩
    · intro h
      obtain ⟨text, htext, hleft⟩ := h
      rw [sequenceRemainders, ih] at hleft
      obtain ⟨between, hbetween, hleft⟩ := hleft
      exact ⟨between, ⟨text, htext, by simpa using hbetween⟩, hleft⟩

/-- Tokens are matched one after the other. -/
theorem mem_sequenceRemainders_cons {token : GlobToken} {tokens : List GlobToken}
    {text left : List UInt8} :
    left ∈ sequenceRemainders dialect (token :: tokens) [text] ↔
      ∃ between ∈ remainders dialect token text,
        left ∈ sequenceRemainders dialect tokens [between] := by
  rw [sequenceRemainders, mem_sequenceRemainders_iff]
  simp

/-- Bytes are taken off the start of a text, or nothing is. -/
theorem mem_afterBytes {bytes text left : List UInt8} :
    left ∈ afterBytes bytes text ↔ text = bytes ++ left := by
  unfold afterBytes
  split
  · next h =>
    obtain ⟨rest, rfl⟩ := List.isPrefixOf_iff_prefix.mp h
    rw [List.drop_left, List.mem_singleton, List.append_right_inj, eq_comm]
  · next h =>
    rw [iff_false_left List.not_mem_nil]
    intro htext
    exact h <| List.isPrefixOf_iff_prefix.mpr ⟨left, htext.symm⟩

/-- Characters that stand for themselves take their own bytes. -/
theorem mem_sequenceRemainders_literals {name : List Char} {tokens : List GlobToken}
    {text left : List UInt8} :
    left ∈ sequenceRemainders dialect (name.map .literal ++ tokens) [text] ↔
      ∃ between, text = Text.utf8 name ++ between ∧
        left ∈ sequenceRemainders dialect tokens [between] := by
  induction name generalizing text with
  | nil => simp [Text.utf8]
  | cons c name ih =>
    rw [List.map_cons, List.cons_append, mem_sequenceRemainders_cons]
    simp only [remainders, mem_afterBytes, ih, Text.utf8, List.flatMap_cons, List.append_assoc]
    constructor
    · intro h
      obtain ⟨between, rfl, behind, rfl, hleft⟩ := h
      exact ⟨behind, rfl, hleft⟩
    · intro h
      obtain ⟨behind, rfl, hleft⟩ := h
      exact ⟨_, rfl, behind, rfl, hleft⟩

/-- Everything below a directory is a slash and whatever follows it. -/
theorem nil_mem_everythingBelow {text : List UInt8} :
    [] ∈ sequenceRemainders dialect [.everythingBelow] [text] ↔ ∃ rest, text = slash :: rest := by
  rw [mem_sequenceRemainders_cons]
  simp only [remainders, sequenceRemainders, List.mem_singleton, exists_eq_right', List.mem_flatMap,
    mem_afterBytes, mem_skips_true, List.nil_suffix, and_true, List.singleton_append]

/-- A text in which bytes stand at the start or behind a slash, with a slash behind them. -/
def StandsInside (bytes text : List UInt8) : Prop :=
  ∃ rest, text = bytes ++ slash :: rest ∨ ∃ before, text = before ++ slash :: (bytes ++ slash :: rest)

/-- The pattern takes a whole text if the name stands in it as that of a directory. -/
theorem nil_mem_directoryTokens {name : List Char} {text : List UInt8} :
    [] ∈ sequenceRemainders dialect (directoryTokens name) [text] ↔
      StandsInside (Text.utf8 name) text := by
  rw [directoryTokens, mem_sequenceRemainders_cons]
  simp only [remainders, List.mem_cons, mem_afterSlashes, mem_sequenceRemainders_literals,
    nil_mem_everythingBelow]
  constructor
  · intro h
    obtain ⟨between, hbetween, behind, rfl, rest, rfl⟩ := h
    rcases hbetween with rfl | ⟨before, rfl⟩
    · exact ⟨rest, .inl rfl⟩
    · exact ⟨rest, .inr ⟨before, rfl⟩⟩
  · intro h
    obtain ⟨rest, rfl | ⟨before, rfl⟩⟩ := h
    · exact ⟨_, .inl rfl, _, rfl, rest, rfl⟩
    · exact ⟨_, .inr ⟨before, rfl⟩, _, rfl, rest, rfl⟩

/-- The pattern of a directory is matched token by token: it is neither the one that accepts all paths
nor one that ends in a dot. -/
theorem accepts_inDirectory_iff {name path : String} :
    (inDirectory dialect name).accepts path = true ↔
      StandsInside (Text.utf8 name.toList) (Text.utf8 path.toList) := by
  have hdotted : (inDirectory dialect name).asksForDottedName = false := by
    have hlast : (directoryTokens name.toList).getLast? = some .everythingBelow := by
      rw [directoryTokens, ← List.cons_append, List.getLast?_concat]
    simp only [asksForDottedName, inDirectory, hlast, Option.any_some, isCharacter, Bool.false_and]
  rw [← nil_mem_directoryTokens dialect, accepts]
  split
  · next htokens => simp [inDirectory, directoryTokens] at htokens
  · rw [hdotted, Bool.and_false, Bool.not_false, Bool.and_true, List.contains_iff_mem]
    rfl

/-- A part that others follow stands inside the parts with slashes between them. -/
theorem standsInside_intercalate (first : List (List UInt8)) (bytes : List UInt8)
    {second : List (List UInt8)} (hsecond : second ≠ []) :
    StandsInside bytes ([slash].intercalate (first ++ bytes :: second)) := by
  induction first with
  | nil =>
    refine ⟨[slash].intercalate second, .inl ?_⟩
    rw [List.nil_append, List.intercalate_cons_of_ne_nil hsecond, List.append_assoc]
    rfl
  | cons part first ih =>
    have hne : first ++ bytes :: second ≠ [] :=
      List.append_ne_nil_of_right_ne_nil _ (List.cons_ne_nil _ _)
    rw [List.cons_append, List.intercalate_cons_of_ne_nil hne]
    obtain ⟨rest, hrest | ⟨before, hrest⟩⟩ := ih
    · exact ⟨rest, .inr ⟨part, by rw [hrest, List.append_assoc]; rfl⟩⟩
    · exact ⟨rest, .inr ⟨part ++ slash :: before, by simp [hrest]⟩⟩

/-- Bytes without a slash stand inside a text exactly if they are one of the parts between its slashes,
other than the last. -/
theorem standsInside_iff {bytes text : List UInt8} (hbytes : slash ∉ bytes) :
    StandsInside bytes text ↔ bytes ∈ (text.splitOn slash).dropLast := by
  constructor
  · intro h
    obtain ⟨rest, rfl | ⟨before, rfl⟩⟩ := h
    · rw [List.splitOn_append_cons_self_of_not_mem hbytes,
        List.dropLast_cons_of_ne_nil (List.splitOn_ne_nil _ _)]
      exact List.mem_cons_self
    · rw [List.splitOn_append_cons_self, List.splitOn_append_cons_self_of_not_mem hbytes,
        List.dropLast_append_of_ne_nil (List.cons_ne_nil _ _),
        List.dropLast_cons_of_ne_nil (List.splitOn_ne_nil _ _)]
      exact List.mem_append_right _ List.mem_cons_self
  · intro h
    obtain ⟨first, second, hparts⟩ := List.append_of_mem h
    have hall := List.dropLast_concat_getLast (List.splitOn_ne_nil slash text)
    rw [hparts, List.append_assoc, List.cons_append] at hall
    have htext : [slash].intercalate (text.splitOn slash) = text := List.intercalate_splitOn slash
    rw [← htext, ← hall]
    exact standsInside_intercalate first bytes
      (List.append_ne_nil_of_right_ne_nil _ (List.cons_ne_nil _ _))

end Matching

end Glob

namespace Path

open Glob (inDirectory slash)

/-- The bytes of joined names are those of the names with slashes between them. -/
theorem utf8_namesText (names : List String) :
    Text.utf8 (namesText names) =
      [slash].intercalate (names.map fun name => Text.utf8 name.toList) := by
  rw [namesText, String.toList_intercalate]
  induction names with
  | nil => rfl
  | cons name names ih =>
    cases names with
    | nil => simp
    | cons next rest =>
      have hslash : Text.utf8 "/".toList = [slash] := by decide
      rw [List.map_cons, List.map_cons, List.intercalate_cons_cons, Text.utf8_append,
        Text.utf8_append, hslash, List.map_cons, List.map_cons, List.intercalate_cons_cons]
      rw [List.map_cons, List.map_cons] at ih
      rw [ih]

/-- The pattern of a directory accepts the paths that have its name ahead of their last one. -/
theorem accepts_inDirectory_build_iff (dialect : GlobDialect) {name : String} {names : List String}
    (hname : '/' ∉ name.toList) (hnames : ∀ other ∈ names, '/' ∉ other.toList) :
    (inDirectory dialect name).accepts (build none names).toString = true ↔
      name ∈ names.dropLast := by
  rw [Glob.accepts_inDirectory_iff, toList_toString_build,
    Glob.standsInside_iff (Text.slash_mem_utf8_iff.not.mpr hname), utf8_namesText]
  cases names with
  | nil => simp
  | cons first rest =>
    rw [List.splitOn_intercalate, ← List.map_dropLast]
    · refine List.mem_map_of_injective ?_
      intro name other h
      exact String.toList_injective (Text.utf8_injective h)
    · intro part hpart
      obtain ⟨other, hother, rfl⟩ := List.mem_map.mp hpart
      exact Text.slash_mem_utf8_iff.not.mpr (hnames other hother)
    · exact List.cons_ne_nil _ _

end Path

namespace PathFilter

open Glob (inDirectory)

/-- The patterns of directories are read for names of characters that stand for themselves. -/
theorem globs_inDirectory {names : List String}
    (hnames : ∀ name ∈ names, name.toList.all Glob.isPlain = true) :
    globs (names.map fun name => "**/" ++ name ++ "/**") = .ok (names.map (inDirectory dialect)) := by
  induction names with
  | nil => rfl
  | cons name names ih =>
    obtain ⟨hname, hrest⟩ := List.forall_mem_cons.mp hnames
    rw [List.map_cons, globs, Glob.parse_directory dialect (List.all_eq_true.mp hname), ih hrest]
    rfl

/-- The patterns that are always used are those of the directories that are always passed over. -/
theorem readDefaults_eq : readDefaults = defaultIgnoredDirectories.map (inDirectory dialect) := by
  have hplain : (defaultIgnoredDirectories.all fun name => name.toList.all Glob.isPlain) = true := rfl
  have hglobs := globs_inDirectory (List.all_eq_true.mp hplain)
  exact Except.ok.inj (globs_default.symm.trans hglobs)

/-- The patterns that are always used accept the paths with the name of such a directory ahead of their
last name. -/
theorem readDefaults_accept_iff {names : List String} (hnames : ∀ name ∈ names, '/' ∉ name.toList) :
    (readDefaults.any fun g => g.accepts (Path.build none names).toString) = true ↔
      ∃ name ∈ defaultIgnoredDirectories, name ∈ names.dropLast := by
  have hslash : (defaultIgnoredDirectories.all fun name => !name.toList.contains '/') = true := rfl
  rw [readDefaults_eq, List.any_map, List.any_eq_true]
  refine exists_congr fun name => and_congr_right fun hname => ?_
  have hplain := List.all_eq_true.mp hslash name hname
  exact Path.accepts_inDirectory_build_iff dialect (by simpa using hplain) hnames

end PathFilter

end ElvishOutline

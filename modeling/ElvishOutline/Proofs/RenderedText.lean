import ElvishOutline.Proofs.RegionForm

/-!
# The text of a rendering

A rendering is the script with some of its regions replaced. `CollapsesTo` says what that means
without a loop over offsets: a text is cut into what is kept and what the regions cover, and in the
result other text stands for each region while all that is kept stands as it was. Since the parts are
texts, no character is cut.

The regions that are replaced are the outermost ones. The first region is always among them.
-/

namespace ElvishOutline

open Text (byteLength dropBytes isBoundary slice)

/-- A text that starts at the byte `start` becomes another when each region is replaced by what is
shown for it in front of the text behind it, and all else is kept. -/
inductive CollapsesTo (shown : Fold → List Char → List Char) :
    Nat → List Fold → List Char → List Char → Prop
  | keep (start : Nat) (text : List Char) : CollapsesTo shown start [] text text
  | replace {start : Nat} {r : Fold} {rs : List Fold} {kept hidden rest out : List Char}
      (hstart : r.start = start + byteLength kept) (hstop : r.stop = r.start + byteLength hidden)
      (hrest : CollapsesTo shown r.stop rs rest out) :
      CollapsesTo shown start (r :: rs) (kept ++ (hidden ++ rest)) (kept ++ (shown r rest ++ out))

/-- What a rendering shows for a region in front of a text. -/
def Fold.shown (palette : Palette) (f : Fold) (rest : List Char) : List Char :=
  (f.collapsedText palette (endsLine rest)).toList

/-- The placeholder of a region, and a note of the lines that it hides if the text behind it is empty
or starts with a line feed or a carriage return. -/
def Fold.placeholderAndNote (f : Fold) (rest : List Char) : List Char :=
  f.placeholder.toList ++
    if rest = [] ∨ rest.head? = some '\n' ∨ rest.head? = some '\r' then
      (" # " ++ toString f.hiddenLines ++ " lines folded").toList
    else []

/-- A region ends its line if nothing or a line end is behind it. -/
theorem endsLine_iff {rest : List Char} :
    endsLine rest = true ↔ rest = [] ∨ rest.head? = some '\n' ∨ rest.head? = some '\r' := by
  cases rest <;> simp [endsLine]

/-- In plain text, the placeholder is shown with the note behind it. -/
theorem Fold.shown_plain : Fold.shown .plain = Fold.placeholderAndNote := by
  funext f rest
  simp only [Fold.shown, Fold.placeholderAndNote, Fold.collapsedText, endsLine_iff]
  rw [String.toList_append]
  split <;> rfl

/-- Collapsing regions that lie one behind the other, with ends between characters, replaces them. -/
theorem collapsesTo_collapseFrom (palette : Palette) {text : List Char} {current : Nat}
    {rs : List Fold} (hcurrent : isBoundary current text = true)
    (hstart : ∀ r ∈ rs, isBoundary r.start text = true) (hlies : ∀ r ∈ rs, r.LiesIn text)
    (hbehind : ∀ r ∈ rs, current ≤ r.start)
    (hdisjoint : rs.Pairwise fun r r' => r.stop ≤ r'.start) :
    CollapsesTo (Fold.shown palette) current rs (dropBytes current text)
      (collapseFrom palette text current rs) := by
  induction rs generalizing current with
  | nil => exact .keep current _
  | cons r rs ih =>
    obtain ⟨hr, hrs⟩ := List.forall_mem_cons.mp hlies
    obtain ⟨hrStart, hrsStart⟩ := List.forall_mem_cons.mp hstart
    obtain ⟨hlater, hrsDisjoint⟩ := List.pairwise_cons.mp hdisjoint
    have hcurrentStart := hbehind r List.mem_cons_self
    have hstartStop := Nat.le_of_lt hr.start_lt_stop
    have hrest := ih hr.isBoundary_stop hrsStart hrs hlater hrsDisjoint
    -- The text from `current` on is cut at the two ends of the region.
    rw [collapseFrom, List.append_assoc, ← Text.slice_append_dropBytes hcurrent hcurrentStart,
      ← Text.slice_append_dropBytes hrStart hstartStop]
    refine .replace ?_ ?_ hrest
    · rw [Text.add_byteLength_slice hcurrent hrStart hcurrentStart]
    · rw [Text.add_byteLength_slice hrStart hr.isBoundary_stop hstartStop]

/-- The first region is always collapsed. -/
theorem head?_replacedFrom_zero (folds : List Fold) :
    (replacedFrom 0 folds).head? = folds.head? := by
  cases folds with
  | nil => rfl
  | cons f rest =>
    rw [replacedFrom, if_neg (Nat.not_lt_zero _)]
    rfl

/-- A script is rendered, in plain text or in colour, by replacing its outermost regions. -/
theorem render_collapsesTo (palette : Palette) (source : String) (options : AnalysisOptions) :
    ∃ out, render palette source (analysisOf source (tokenize source) options).folds = .ok out ∧
      CollapsesTo (Fold.shown palette) 0
        (replacedFrom 0 (analysisOf source (tokenize source) options).folds) source.toList
        out.toList := by
  have hregions := orderedRegions_folds source options
  have hcuts (f : Fold) (hf : f ∈ (analysisOf source (tokenize source) options).folds) :
      isBoundary f.start source.toList = true := by
    obtain ⟨before, inside, after, hcuts⟩ := exists_cuts_of_mem_folds hf
    exact hcuts.isBoundary_start
  generalize (analysisOf source (tokenize source) options).folds = folds at hregions hcuts
  have houtermost := hregions.isOutermost
  refine ⟨_, render_eq_ok palette hregions.liesIn, ?_⟩
  rw [String.toList_ofList]
  have hcollapse := collapsesTo_collapseFrom palette (Text.isBoundary_byteLength [] source.toList)
    (fun r hr => hcuts r (houtermost.sublist.subset hr))
    (fun r hr => hregions.liesIn r (houtermost.sublist.subset hr)) (fun r _ => Nat.zero_le _)
    houtermost.disjoint
  rwa [Text.dropBytes_append] at hcollapse

/-- A script is rendered in plain text by replacing its outermost regions, the first one among them,
by their placeholders. All regions start and end between characters, and none ends on a line ahead of
its first. -/
theorem rendering_keeps_text_outside (source : String) (options : AnalysisOptions) :
    ∃ a, analyze source options = .ok a ∧
      (∀ f ∈ a.folds, (⟨f.start⟩ : String.Pos.Raw).IsValid source ∧
        (⟨f.stop⟩ : String.Pos.Raw).IsValid source ∧ f.startLine ≤ f.endLine) ∧
      ∃ out replaced, render .plain source a.folds = .ok out ∧ IsOutermost a.folds replaced ∧
        replaced.head? = a.folds.head? ∧
        CollapsesTo Fold.placeholderAndNote 0 replaced source.toList out.toList := by
  refine ⟨_, analyze_eq_ok source options, ?_, ?_⟩
  · intro f hf
    obtain ⟨before, inside, after, hcuts⟩ := exists_cuts_of_mem_folds hf
    obtain ⟨hstart, hstop⟩ := hcuts.isValid
    exact ⟨hstart, hstop, Nat.le_of_lt (isLabelled_of_mem_folds hf).startLine_lt_endLine⟩
  · obtain ⟨out, hout, hcollapses⟩ := render_collapsesTo .plain source options
    refine ⟨out, _, hout, (orderedRegions_folds source options).isOutermost,
      head?_replacedFrom_zero _, ?_⟩
    rwa [Fold.shown_plain] at hcollapses

/-- Of a list inside a block only the block is replaced, and the wide characters on both sides of it
are kept. -/
theorem rendering_keeps_wide_text :
    ∃ a f, analyze "λ \x7b\n[\n]\n\x7d λ" {} = .ok a ∧ f ∈ a.folds ∧ f.stop = 10 ∧
      (⟨f.stop⟩ : String.Pos.Raw).IsValid "λ \x7b\n[\n]\n\x7d λ" ∧
      ∃ replaced, IsOutermost a.folds replaced ∧
        CollapsesTo Fold.placeholderAndNote 0 replaced "λ \x7b\n[\n]\n\x7d λ".toList
          "λ \x7b...\x7d λ".toList := by
  obtain ⟨a, ha, hends, out, replaced, hout, houtermost, -, hcollapses⟩ :=
    rendering_keeps_text_outside "λ \x7b\n[\n]\n\x7d λ" {}
  have hevaluated : (∃ f ∈ a.folds, f.stop = 10) ∧
      render .plain "λ \x7b\n[\n]\n\x7d λ" a.folds = .ok "λ \x7b...\x7d λ" := by
    rw [analyze_eq_ok] at ha
    obtain rfl := Except.ok.inj ha
    constructor <;> decide +kernel
  obtain ⟨⟨f, hf, hstop⟩, hrendered⟩ := hevaluated
  obtain rfl := Except.ok.inj (hrendered.symm.trans hout)
  exact ⟨a, f, ha, hf, hstop, (hends f hf).2.1, replaced, houtermost, hcollapses⟩

end ElvishOutline

import Mathlib.Algebra.Order.BigOperators.Group.List
import Mathlib.Algebra.Order.Ring.Nat
import ElvishOutline.Proofs.Collapsing

/-!
# Hidden lines and collapsed regions

The number of hidden lines of an analysis leaves out each region that lies inside the last one that
was counted. A rendering leaves out each region that starts inside the last one that it collapsed.
The two agree on regions that lie apart or one inside the other. A brace region and a bracket region
may also cross: then both are counted, but only the first is collapsed.

Every line end inside a region lies inside a counted region, and inside at most one that is
collapsed, so the number of hidden lines is never too small. It is exact when each line end lies
inside as many counted regions as collapsed ones.
-/

namespace ElvishOutline

open Text (lineAt lineEnds)

/-- The number of lines that regions hide, if each hides its own. -/
def hiddenTotal (folds : List Fold) : Nat := (folds.map Fold.hiddenLines).sum

/-- A region adds the lines that it hides. -/
theorem hiddenTotal_cons (f : Fold) (folds : List Fold) :
    hiddenTotal (f :: folds) = f.hiddenLines + hiddenTotal folds := by
  rw [hiddenTotal, List.map_cons, List.sum_cons, hiddenTotal]

/-- Whether a line end that stops at the offset lies inside a region. -/
def Fold.hides (f : Fold) (offset : Nat) : Bool := f.start < offset && offset ≤ f.stop

/-- A region crosses another that starts inside it and ends behind it. -/
def Fold.Crosses (r f : Fold) : Prop := r.start < f.start ∧ f.start < r.stop ∧ r.stop < f.stop

/-- The regions that are counted as hidden after the region `outer`. -/
def countedAfter (outer : Option Fold) : List Fold → List Fold
  | [] => []
  | fold :: rest =>
    if outer.any (·.contains fold) then countedAfter outer rest
    else fold :: countedAfter (some fold) rest

/-- The number of hidden lines is that of the counted regions. -/
theorem hiddenAfter_eq_hiddenTotal (outer : Option Fold) (folds : List Fold) :
    ScriptAnalysis.hiddenAfter outer folds = hiddenTotal (countedAfter outer folds) := by
  fun_induction countedAfter outer folds with
  | case1 => rfl
  | case2 outer fold rest hcontained ih => rw [ScriptAnalysis.hiddenAfter, if_pos hcontained, ih]
  | case3 outer fold rest hcontained ih =>
    rw [ScriptAnalysis.hiddenAfter, if_neg hcontained, ih]
    rfl

/-- Counted regions are some of those given, in their order. -/
theorem countedAfter_sublist (outer : Option Fold) (folds : List Fold) :
    (countedAfter outer folds).Sublist folds := by
  fun_induction countedAfter outer folds with
  | case1 => exact .slnil
  | case2 outer fold rest hcontained ih => exact ih.cons fold
  | case3 outer fold rest hcontained ih => exact ih.cons_cons fold

/-- Every region lies inside one that is counted, or inside `outer`. -/
theorem exists_contains_of_mem (outer : Option Fold) {folds : List Fold} {f : Fold}
    (hf : f ∈ folds) :
    outer.any (·.contains f) = true ∨ ∃ c ∈ countedAfter outer folds, c.contains f = true := by
  fun_induction countedAfter outer folds with
  | case1 => cases hf
  | case2 outer fold rest hcontained ih =>
    rcases List.mem_cons.mp hf with rfl | hf
    · exact .inl hcontained
    · exact ih hf
  | case3 outer fold rest hcontained ih =>
    right
    rcases List.mem_cons.mp hf with rfl | hf
    · exact ⟨f, List.mem_cons_self, by simp [Fold.contains]⟩
    · rcases ih hf with hfold | ⟨c, hc, hcf⟩
      · exact ⟨fold, List.mem_cons_self, hfold⟩
      · exact ⟨c, List.mem_cons_of_mem _ hc, hcf⟩

/-- The lines that a region hides are the line ends inside it. -/
theorem Fold.LiesIn.hiddenLines_eq {text : List Char} {f : Fold} (h : f.LiesIn text) :
    f.hiddenLines = (lineEnds 0 text).countP f.hides := by
  have hlines := Text.lineAt_eq_add_countP text h.start_lt_stop.le
  rw [Fold.hiddenLines, h.startLine_eq, h.endLine_eq, hlines, Nat.add_sub_cancel_left]
  rfl

/-- A sum of ones and zeros counts the ones. -/
theorem sum_map_ite_eq_countP (xs : List Nat) (p : Nat → Bool) :
    (xs.map fun x => if p x then 1 else 0).sum = xs.countP p := by
  induction xs with
  | nil => rfl
  | cons x xs ih => rw [List.map_cons, List.sum_cons, List.countP_cons, ih, Nat.add_comm]

/-- The lines that regions hide, counted by asking for each line end how many regions it lies in. -/
theorem hiddenTotal_eq_sum_lineEnds {text : List Char} {folds : List Fold}
    (hfolds : ∀ f ∈ folds, f.LiesIn text) :
    hiddenTotal folds = ((lineEnds 0 text).map fun e => folds.countP (·.hides e)).sum := by
  induction folds with
  | nil => simp [hiddenTotal]
  | cons f folds ih =>
    obtain ⟨hf, hrest⟩ := List.forall_mem_cons.mp hfolds
    simp only [List.countP_cons]
    rw [hiddenTotal_cons, Nat.add_comm, ih hrest, hf.hiddenLines_eq, List.sum_map_add, sum_map_ite_eq_countP]

/-- A line end lies inside at most one of several regions that lie one behind the other. -/
theorem countP_hides_le_one {folds : List Fold}
    (hdisjoint : folds.Pairwise fun r r' => r.stop ≤ r'.start) (e : Nat) :
    folds.countP (·.hides e) ≤ 1 := by
  induction hdisjoint with
  | nil => exact Nat.zero_le 1
  | @cons r rest hlater _ ih =>
    rw [List.countP_cons]
    by_cases hr : r.hides e
    · have hnone : rest.countP (·.hides e) = 0 := by
        rw [List.countP_eq_zero]
        intro r' hr' hhides
        have := hlater r' hr'
        simp only [Fold.hides, Bool.and_eq_true, decide_eq_true_eq] at hr hhides
        omega
      rw [hnone, if_pos hr]
    · rw [if_neg hr]
      exact ih

/-- A line end that is inside a collapsed region is inside a counted one. -/
theorem IsOutermost.countP_hides_le {folds outermost : List Fold}
    (h : IsOutermost folds outermost) (e : Nat) :
    outermost.countP (·.hides e) ≤ (countedAfter none folds).countP (·.hides e) := by
  have hone := countP_hides_le_one h.disjoint e
  rcases Nat.eq_zero_or_pos (outermost.countP (·.hides e)) with hzero | hpos
  · omega
  · obtain ⟨r, hr, hhides⟩ := List.countP_pos_iff.mp hpos
    obtain hnone | ⟨c, hc, hcontains⟩ := exists_contains_of_mem none (h.sublist.subset hr)
    · cases hnone
    · have hcounted : c.hides e = true := by
        simp only [Fold.hides, Fold.contains, Bool.and_eq_true, decide_eq_true_eq] at *
        omega
      have hsome : 0 < (countedAfter none folds).countP (·.hides e) :=
        List.countP_pos_iff.mpr ⟨c, hc, hcounted⟩
      omega

/-- Two sums, one below the other at each member of a list, are equal when they are so at each
member. -/
theorem sum_map_eq_iff_of_le {xs : List Nat} {f g : Nat → Nat} (hle : ∀ x ∈ xs, f x ≤ g x) :
    (xs.map g).sum = (xs.map f).sum ↔ ∀ x ∈ xs, g x = f x := by
  constructor
  · intro hsum x hx
    by_contra hne
    have hlt := List.sum_lt_sum f g hle ⟨x, hx, lt_of_le_of_ne (hle x hx) (Ne.symm hne)⟩
    omega
  · intro heq
    rw [List.map_congr_left heq]

/-- A region crosses none that does not start behind it. -/
theorem not_crosses_of_mem_replacedFrom {f : Fold} {rest : List Fold}
    (hf : ∀ g ∈ rest, f.start < g.start) (current : Nat) :
    ∀ r ∈ f :: replacedFrom current rest, ¬r.Crosses f := by
  rintro r hr ⟨hstart, -⟩
  rcases List.mem_cons.mp hr with rfl | hr
  · exact Nat.lt_irrefl _ hstart
  · have := hf r ((replacedFrom_sublist current rest).subset hr)
    omega

/-- A region that no other crosses may be left out of those asked for. -/
theorem forall_not_crosses_cons {f : Fold} {rest rs : List Fold} (hf : ∀ r ∈ rs, ¬r.Crosses f) :
    (∀ r ∈ rs, ∀ g ∈ f :: rest, ¬r.Crosses g) ↔ ∀ r ∈ rs, ∀ g ∈ rest, ¬r.Crosses g := by
  refine forall₂_congr fun r hr => ?_
  rw [List.forall_mem_cons, and_iff_right (hf r hr)]

/-- After a collapsed region, the counted regions are the collapsed ones unless one of those crosses
another region. -/
theorem countedAfter_eq_replacedFrom_iff {r : Fold} {folds : List Fold}
    (hsorted : (r :: folds).Pairwise fun f g => f.start < g.start)
    (hfolds : ∀ f ∈ folds, f.start < f.stop) :
    countedAfter (some r) folds = replacedFrom r.stop folds ↔
      ∀ r' ∈ r :: replacedFrom r.stop folds, ∀ f ∈ folds, ¬r'.Crosses f := by
  induction folds generalizing r with
  | nil => simp [countedAfter, replacedFrom]
  | cons f rest ih =>
    obtain ⟨hr, hrest⟩ := List.pairwise_cons.mp hsorted
    obtain ⟨hf, -⟩ := List.pairwise_cons.mp hrest
    obtain ⟨hpos, hrestPos⟩ := List.forall_mem_cons.mp hfolds
    have hrf := hr f List.mem_cons_self
    have hcontains : r.contains f = true ↔ f.stop ≤ r.stop := by
      simp only [Fold.contains, Bool.and_eq_true, decide_eq_true_eq]
      omega
    rw [countedAfter, replacedFrom, Option.any_some]
    by_cases hinside : f.start < r.stop
    · by_cases hstop : f.stop ≤ r.stop
      · -- The region lies inside the collapsed one, so it is neither counted nor collapsed.
        have hnone : ∀ r' ∈ r :: replacedFrom r.stop rest, ¬r'.Crosses f := by
          refine List.forall_mem_cons.mpr ⟨?_, ?_⟩
          · rintro ⟨-, -, hbehind⟩
            omega
          · exact (List.forall_mem_cons.mp (not_crosses_of_mem_replacedFrom hf r.stop)).2
        rw [if_pos (hcontains.mpr hstop), if_pos hinside, forall_not_crosses_cons hnone]
        exact ih (hsorted.sublist ((List.sublist_cons_self f rest).cons_cons r)) hrestPos
      · -- The region is counted, but it starts inside the collapsed one.
        rw [if_neg (mt hcontains.mp hstop), if_pos hinside]
        refine iff_of_false ?_ ?_
        · intro heq
          have hmem : f ∈ replacedFrom r.stop rest := heq ▸ List.mem_cons_self
          exact Nat.lt_irrefl _ (hf f ((replacedFrom_sublist _ _).subset hmem))
        · intro hnone
          exact hnone r List.mem_cons_self f List.mem_cons_self ⟨hrf, hinside, by omega⟩
    · -- The region lies behind the collapsed one, so it is counted and collapsed next.
      have hbehind : ∀ g ∈ f :: rest, ¬r.Crosses g := by
        rintro g hg ⟨-, hstart, -⟩
        rcases List.mem_cons.mp hg with rfl | hg
        · exact hinside hstart
        · have := hf g hg
          omega
      rw [if_neg (mt hcontains.mp (by omega)), if_neg hinside, List.cons_inj_right,
        List.forall_mem_cons, and_iff_right hbehind,
        forall_not_crosses_cons (not_crosses_of_mem_replacedFrom hf f.stop)]
      exact ih hrest hrestPos

/-- The counted regions are the collapsed ones unless one of those crosses another region. -/
theorem counted_eq_replaced_iff {folds : List Fold}
    (hsorted : folds.Pairwise fun f g => f.start < g.start)
    (hfolds : ∀ f ∈ folds, f.start < f.stop) :
    countedAfter none folds = replacedFrom 0 folds ↔
      ∀ r ∈ replacedFrom 0 folds, ∀ f ∈ folds, ¬r.Crosses f := by
  cases folds with
  | nil => simp [countedAfter, replacedFrom]
  | cons f rest =>
    have hf := (List.pairwise_cons.mp hsorted).1
    rw [countedAfter, replacedFrom, Option.any_none, if_neg Bool.false_ne_true,
      if_neg (Nat.not_lt_zero _), List.cons_inj_right,
      forall_not_crosses_cons (not_crosses_of_mem_replacedFrom hf f.stop)]
    exact countedAfter_eq_replacedFrom_iff hsorted (List.forall_mem_cons.mp hfolds).2

/-- A rendering collapses the outermost regions, and these never hide more lines than are reported.
They hide as many exactly when each line end of the script lies inside as many counted regions as
collapsed ones. The counted regions are the collapsed ones exactly when none of those crosses
another region. -/
theorem linesHidden_of_rendering (source : String) (options : AnalysisOptions) :
    ∃ a, analyze source options = .ok a ∧ IsOutermost a.folds (replacedFrom 0 a.folds) ∧
      (∀ palette, render palette source a.folds =
        .ok (String.ofList (collapseFrom palette source.toList 0 (replacedFrom 0 a.folds)))) ∧
      a.linesHidden = hiddenTotal (countedAfter none a.folds) ∧
      hiddenTotal (replacedFrom 0 a.folds) ≤ a.linesHidden ∧
      (a.linesHidden = hiddenTotal (replacedFrom 0 a.folds) ↔
        ∀ e ∈ lineEnds 0 source.toList, (countedAfter none a.folds).countP (·.hides e) =
          (replacedFrom 0 a.folds).countP (·.hides e)) ∧
      (countedAfter none a.folds = replacedFrom 0 a.folds ↔
        ∀ r ∈ replacedFrom 0 a.folds, ∀ f ∈ a.folds, ¬r.Crosses f) := by
  refine ⟨_, analyze_eq_ok source options, ?_⟩
  have hregions := orderedRegions_folds source options
  generalize analysisOf source (tokenize source) options = a at hregions
  have houtermost := hregions.isOutermost
  have hlines : a.linesHidden = hiddenTotal (countedAfter none a.folds) :=
    hiddenAfter_eq_hiddenTotal none a.folds
  have hcounted := hiddenTotal_eq_sum_lineEnds fun f hf =>
    hregions.liesIn f ((countedAfter_sublist none a.folds).subset hf)
  have hreplaced := hiddenTotal_eq_sum_lineEnds fun f hf =>
    hregions.liesIn f (houtermost.sublist.subset hf)
  have hle (e : Nat) (_ : e ∈ lineEnds 0 source.toList) := houtermost.countP_hides_le e
  refine ⟨houtermost, fun palette => render_eq_ok palette hregions.liesIn, hlines, ?_, ?_, ?_⟩
  · rw [hlines, hcounted, hreplaced]
    exact List.sum_le_sum hle
  · rw [hlines, hcounted, hreplaced]
    exact sum_map_eq_iff_of_le hle
  · exact counted_eq_replaced_iff hregions.sorted fun f hf => (hregions.liesIn f hf).start_lt_stop

/-- A brace region and a bracket region that cross: both are counted, with two lines each, and only
the first is collapsed. -/
theorem linesHidden_of_crossing_regions :
    ∃ a, analyze "\x7b\n[\n\x7d\n]\n" {} = .ok a ∧ a.linesHidden = 4 ∧
      hiddenTotal (replacedFrom 0 a.folds) = 2 ∧
      render .plain "\x7b\n[\n\x7d\n]\n" a.folds =
        .ok "\x7b...\x7d # 2 lines folded\n]\n" := by
  refine ⟨_, analyze_eq_ok _ _, ?_, ?_, ?_⟩ <;> decide +kernel

end ElvishOutline

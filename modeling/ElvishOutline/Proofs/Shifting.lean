import ElvishOutline.Proofs.Partition
import ElvishOutline.Proofs.Totality

/-!
# Results read off bodies, and moved with them

The landmark of a statement and the regions that it opens are read off its body: blanks ahead of the
body open nothing, and the search for what a brace opens passes over them. Tokens that stand farther
to the right give the same landmarks and regions, moved by as many bytes and lines; only the group
of a region is written anew, from the offset that it has then.
-/

namespace ElvishOutline

/-- The landmark moved to the right. -/
def Landmark.shift (bytes : Nat) (l : Landmark) : Landmark :=
  { l with start := bytes + l.start, stop := bytes + l.stop }

/-- The outline entry moved to the right and down. -/
def OutlineEntry.shift (bytes lines : Nat) (e : OutlineEntry) : OutlineEntry where
  landmark := e.landmark.shift bytes
  startLine := lines + e.startLine
  endLine := lines + e.endLine

/-- The region moved to the right and down, with the group of its new start. -/
def Fold.shift (bytes lines : Nat) (f : Fold) : Fold :=
  { f with
    start := bytes + f.start
    stop := bytes + f.stop
    startLine := lines + f.startLine
    endLine := lines + f.endLine
    group := "elvish-" ++ f.delimiter.name ++ "-" ++ toString (bytes + f.start) }

/-- The landmark that a body makes of its statement. -/
def bodyLandmark? (body : List Token) : Option Landmark := Statement.landmark? ⟨[], body⟩

/-- The landmarks of statements are those of their bodies. -/
theorem landmarks_eq_bodies (statements : List Statement) :
    landmarks statements = (bodies statements).filterMap bodyLandmark? := by
  induction statements with
  | nil => rfl
  | cons s rest ih =>
    have hbody : s.landmark? = bodyLandmark? s.body := rfl
    rw [landmarks_eq_filterMap, List.filterMap_cons, hbody, bodies, List.map_cons, List.filter_cons]
    cases hempty : s.body with
    | nil => exact ih
    | cons t ts =>
      simp only [List.isEmpty_cons, Bool.not_false, if_true, List.filterMap_cons]
      cases bodyLandmark? (t :: ts) with
      | none => exact ih
      | some l => exact congrArg (l :: ·) ih

/-- Blanks far ahead of a brace do not change what it opens. -/
theorem BraceRole.ofPreceding_append_blanks (preceding : List Token) {blanks : List Token}
    (h : ∀ t ∈ blanks, t.isTrivia = true) :
    ofPreceding (preceding ++ blanks) = ofPreceding preceding := by
  have hpass (t : Token) (ht : t ∈ blanks) : isTransparent t = true :=
    isTransparent_of_isTrivia (h t ht)
  have hnone : (blanks ++ []).dropWhile isTransparent = [] := List.dropWhile_append_of_pos hpass
  rw [List.append_nil] at hnone
  unfold ofPreceding
  rw [List.dropWhile_append, hnone]
  cases preceding.dropWhile isTransparent <;> rfl

/-- Blanks far ahead of tokens do not change the regions that they open. -/
theorem regions_append_blanks (line : Nat → Nat) (options : AnalysisOptions)
    (preceding : List Token) {blanks : List Token} (h : ∀ t ∈ blanks, t.isTrivia = true)
    (ts : List Token) :
    regions line options (preceding ++ blanks) ts = regions line options preceding ts := by
  induction ts generalizing preceding with
  | nil => rfl
  | cons t ts ih =>
    have hcontext (pair : FoldDelimiter) :
        contextOf options pair (preceding ++ blanks) = contextOf options pair preceding := by
      cases pair with
      | brace => simp only [contextOf, BraceRole.ofPreceding_append_blanks preceding h]
      | bracket => rfl
    rw [regions, regions, ← List.cons_append, ih]
    simp only [openedRegion?, pairRegion?, hcontext]

/-- Blanks open no regions. -/
theorem regions_of_blanks (line : Nat → Nat) (options : AnalysisOptions) (preceding : List Token)
    {blanks : List Token} (h : ∀ t ∈ blanks, t.isTrivia = true) (ts : List Token) :
    regions line options preceding (blanks ++ ts) =
      regions line options (blanks.reverse ++ preceding) ts := by
  induction blanks generalizing preceding with
  | nil => rfl
  | cons t blanks ih =>
    have hopens : FoldDelimiter.ofOpening? t.kind = none := by
      have htrivia : t.kind.isTrivia = true := h t (List.mem_cons_self ..)
      unfold FoldDelimiter.ofOpening?
      split
      · next hkind => rw [hkind] at htrivia; cases htrivia
      · next hkind => rw [hkind] at htrivia; cases htrivia
      · rfl
    rw [List.cons_append, regions, ih _ fun u hu => h u (List.mem_cons_of_mem t hu), openedRegion?,
      hopens, List.reverse_cons, List.append_assoc]
    rfl

/-- The regions of a script are those that the bodies of its statements open. -/
theorem regions_eq_bodies (line : Nat → Nat) (options : AnalysisOptions) (tokens : List Token) :
    ((segment tokens).flatMap fun s => regions line options [] s.tokens) =
      (bodies (segment tokens)).flatMap (regions line options []) := by
  have hbody (s : Statement) (hs : s ∈ segment tokens) :
      regions line options [] s.tokens = regions line options [] s.body := by
    have hblanks := (isWellCut_of_mem_segment hs).leading
    rw [Statement.tokens, regions_of_blanks line options [] hblanks, List.append_nil]
    exact regions_append_blanks line options [] (fun t ht => hblanks t (List.mem_reverse.mp ht)) _
  rw [List.flatMap_congr hbody, bodies]
  generalize segment tokens = statements
  induction statements with
  | nil => rfl
  | cons s rest ih =>
    rw [List.flatMap_cons, ih, List.map_cons, List.filter_cons]
    cases s.body <;> rfl

/-- Where a token stands has no part in its kind. -/
@[simp] theorem Token.kind_shift (bytes : Nat) (t : Token) : (t.shift bytes).kind = t.kind := rfl

section Shift

variable (bytes : Nat)

/-- The tokens that carry structure are the same where all are moved. -/
theorem significant_map_shift (ts : List Token) :
    significant (ts.map (Token.shift bytes)) = (significant ts).map (Token.shift bytes) :=
  List.filter_map ..

/-- What a statement is does not depend on where its tokens are. -/
theorem classify_map_shift (ts : List Token) : classify (ts.map (Token.shift bytes)) = classify ts := by
  unfold classify
  rw [significant_map_shift]
  cases significant ts with
  | nil => rfl
  | cons first rest => cases rest <;> rfl

/-- The first name behind a keyword does not depend on where the tokens are. -/
theorem firstNamed_map_shift (ts : List Token) :
    firstNamed (ts.map (Token.shift bytes)) = firstNamed ts := by
  fun_induction firstNamed ts with
  | case1 a b rest hnamed =>
    rw [List.map_cons, List.map_cons, firstNamed, Token.kind_shift, Token.kind_shift, if_pos hnamed]
    rfl
  | case2 a b rest hnamed ih =>
    rw [List.map_cons, List.map_cons, firstNamed, Token.kind_shift, Token.kind_shift, if_neg hnamed]
    exact ih
  | case3 ts hshort =>
    match ts with
    | [] => rfl
    | [t] => rfl
    | a :: b :: rest => exact absurd rfl (hshort a b rest)

/-- The name of a function does not depend on where its tokens are. -/
theorem functionName_map_shift (ts : List Token) :
    functionName (ts.map (Token.shift bytes)) = functionName ts := by
  rw [functionName, significant_map_shift, firstNamed_map_shift, functionName]

/-- The landmark of a body that stands farther to the right is moved as the body is. -/
theorem bodyLandmark?_map_shift (body : List Token) :
    bodyLandmark? (body.map (Token.shift bytes)) = (bodyLandmark? body).map (Landmark.shift bytes) := by
  have hspan : Statement.spanWith? Token.stop ⟨[], body.map (Token.shift bytes)⟩ =
      (Statement.spanWith? Token.stop ⟨[], body⟩).map fun span =>
        (bytes + span.1, bytes + span.2) := by
    simp only [Statement.spanWith?, List.head?_map, List.getLast?_map]
    cases body.head? with
    | none => rfl
    | some first =>
      cases body.getLast? with
      | none => rfl
      | some last => simp [Token.shift, Token.stop, Nat.add_assoc]
  unfold bodyLandmark? Statement.landmark? Statement.landmarkWith?
  rw [hspan, classify_map_shift, functionName_map_shift]
  cases Statement.spanWith? Token.stop ⟨[], body⟩ with
  | none => rfl
  | some span => cases classify body <;> rfl

/-- The search for a closing delimiter finds the same token where all are moved. -/
theorem closing?_map_shift (pair : Delimiter) (depth : Nat) (ts : List Token) :
    closing? pair depth (ts.map (Token.shift bytes)) =
      (closing? pair depth ts).map (Token.shift bytes) := by
  fun_induction closing? pair depth ts with
  | case1 => rfl
  | case2 depth t ts hopening ih =>
    rw [List.map_cons, closing?.eq_def]
    simp only [Token.kind_shift, if_pos hopening, ih]
  | case3 t ts hopening hclosing =>
    rw [List.map_cons, closing?, Token.kind_shift, if_neg hopening, if_pos hclosing]
    rfl
  | case4 t ts hopening hclosing depth ih =>
    rw [List.map_cons, closing?, Token.kind_shift, if_neg hopening, if_pos hclosing]
    exact ih
  | case5 depth t ts hopening hclosing ih =>
    rw [List.map_cons, closing?.eq_def]
    simp only [Token.kind_shift, if_neg hopening, if_neg hclosing, ih]

/-- The context of a region does not depend on where the preceding tokens are. -/
theorem contextOf_map_shift (options : AnalysisOptions) (pair : FoldDelimiter)
    (preceding : List Token) :
    contextOf options pair (preceding.map (Token.shift bytes)) = contextOf options pair preceding := by
  have hrole : BraceRole.ofPreceding (preceding.map (Token.shift bytes)) =
      BraceRole.ofPreceding preceding := by
    have hdrop : (preceding.map (Token.shift bytes)).dropWhile BraceRole.isTransparent =
        (preceding.dropWhile BraceRole.isTransparent).map (Token.shift bytes) :=
      List.dropWhile_map ..
    unfold BraceRole.ofPreceding
    rw [hdrop]
    cases preceding.dropWhile BraceRole.isTransparent <;> rfl
  cases pair with
  | brace => simp only [contextOf, hrole]
  | bracket => rfl

/-- The placeholder of a region does not depend on where the following tokens are. -/
theorem placeholderOf_map_shift (options : AnalysisOptions) (context : Option BraceRole)
    (following : List Token) :
    placeholderOf options context (following.map (Token.shift bytes)) =
      placeholderOf options context following := by
  have hmap : startsMap (following.map (Token.shift bytes)) = startsMap following := by
    unfold startsMap
    rw [List.find?_map, Option.map_map]
    rfl
  simp only [placeholderOf, hmap]

variable {line line' : Nat → Nat} {lines : Nat}
  (hline : ∀ offset, line' (bytes + offset) = lines + line offset)

include hline in
/-- The region that a token opens is moved as the tokens are. -/
theorem openedRegion?_map_shift (options : AnalysisOptions) (preceding : List Token) (t : Token)
    (following : List Token) :
    openedRegion? line' options (preceding.map (Token.shift bytes)) (t.shift bytes)
        (following.map (Token.shift bytes)) =
      (openedRegion? line options preceding t following).map (Fold.shift bytes lines) := by
  unfold openedRegion?
  rw [Token.kind_shift]
  cases FoldDelimiter.ofOpening? t.kind with
  | none => rfl
  | some pair =>
    simp only [Option.bind_some, closing?_map_shift]
    cases closing? pair.toDelimiter 0 following with
    | none => rfl
    | some closer =>
      have hstart : (t.shift bytes).start = bytes + t.start := rfl
      simp only [Option.map_some, Option.bind_some, pairRegion?, Token.stop_shift, hstart, hline,
        contextOf_map_shift, placeholderOf_map_shift, Nat.add_le_add_iff_left]
      by_cases hlines : line closer.stop ≤ line t.start
      · simp only [if_pos hlines, Option.map_none]
      · simp only [if_neg hlines, Option.map_some, Fold.shift]

include hline in
/-- The regions of tokens that stand farther to the right are moved as the tokens are. -/
theorem regions_map_shift (options : AnalysisOptions) (preceding ts : List Token) :
    regions line' options (preceding.map (Token.shift bytes)) (ts.map (Token.shift bytes)) =
      (regions line options preceding ts).map (Fold.shift bytes lines) := by
  induction ts generalizing preceding with
  | nil => rfl
  | cons t ts ih =>
    rw [List.map_cons, regions, openedRegion?_map_shift bytes hline, ← List.map_cons, ih, regions,
      List.map_append]
    cases openedRegion? line options preceding t ts <;> rfl

include hline in
/-- The outline entry of a landmark that stands farther to the right is moved as it is. -/
theorem landmarkEntry_shift (l : Landmark) :
    landmarkEntry line' (l.shift bytes) = (landmarkEntry line l).shift bytes lines := by
  have hlast : max (bytes + l.stop - 1) (bytes + l.start) = bytes + max (l.stop - 1) l.start := by
    omega
  simp only [landmarkEntry, OutlineEntry.shift, Landmark.shift, hlast, hline, Nat.add_assoc]

end Shift

/-- Regions look lines up at the ends of their tokens only. -/
theorem regions_congr {line line' : Nat → Nat} (options : AnalysisOptions) (preceding : List Token)
    {ts : List Token} (h : ∀ t ∈ ts, line' t.start = line t.start ∧ line' t.stop = line t.stop) :
    regions line' options preceding ts = regions line options preceding ts := by
  induction ts generalizing preceding with
  | nil => rfl
  | cons t ts ih =>
    have hhere : openedRegion? line' options preceding t ts =
        openedRegion? line options preceding t ts := by
      unfold openedRegion?
      cases FoldDelimiter.ofOpening? t.kind with
      | none => rfl
      | some pair =>
        simp only [Option.bind_some]
        cases hcloser : closing? pair.toDelimiter 0 ts with
        | none => rfl
        | some closer =>
          have hstart := (h t (List.mem_cons_self ..)).1
          have hstop := (h closer (List.mem_cons_of_mem t (mem_of_closing? hcloser))).2
          simp only [Option.bind_some, pairRegion?, hstart, hstop]
    rw [regions, regions, hhere, ih _ fun u hu => h u (List.mem_cons_of_mem t hu)]

end ElvishOutline

import ElvishOutline.Path
import Mathlib.Data.List.Basic

/-!
# Paths below a directory

The path of a file below a directory is the path of the directory with names joined to it, one after
the other. However the directory is written, with slashes at its end, with dots or from the root,
the joined names are what is left of such a path as seen from the directory. So a path below a
directory can be told by its names.
-/

namespace ElvishOutline.Path

/-- The path that a list of names leads to from a directory. -/
def joins (p : Path) (names : List String) : Path := names.foldl join p

/-- Without names, the path is the directory. -/
@[simp] theorem joins_nil (p : Path) : p.joins [] = p := rfl

/-- Names are joined one after the other, the first one first. -/
@[simp] theorem joins_cons (p : Path) (name : String) (names : List String) :
    p.joins (name :: names) = (p.join name).joins names := rfl

/-- Segments without an empty one at the end, which a name put behind them takes the place of. -/
def openEnd (segments : List String) : List String :=
  if segments.getLast? = some "" then segments.dropLast else segments

/-- A joined name stands behind the segments of the directory, or in place of an empty one at their
end. -/
theorem join_eq (p : Path) (name : String) : p.join name = ⟨openEnd p.segments ++ [name]⟩ := by
  unfold join openEnd
  split
  · next h => rw [if_pos h]
  · next h => rw [if_neg h]

/-- Joined names stand behind the segments of the directory as they are. -/
theorem segments_joins (p : Path) {names : List String} (hne : names ≠ [])
    (hnames : ∀ name ∈ names, isSilent name = false) :
    (p.joins names).segments = openEnd p.segments ++ names := by
  induction names generalizing p with
  | nil => exact absurd rfl hne
  | cons name rest ih =>
    obtain ⟨hname, hrest⟩ := List.forall_mem_cons.mp hnames
    have hend : openEnd (openEnd p.segments ++ [name]) = openEnd p.segments ++ [name] := by
      have hlast : (openEnd p.segments ++ [name]).getLast? ≠ some "" := by
        rw [List.getLast?_append_of_ne_nil _ (List.cons_ne_nil name []), List.getLast?_singleton]
        rintro hempty
        rw [Option.some.inj hempty] at hname
        cases hname
      rw [openEnd, if_neg hlast]
    rw [joins_cons, join_eq]
    cases rest with
    | nil => rfl
    | cons next others =>
      rw [ih _ (List.cons_ne_nil next others) hrest, hend, List.append_assoc,
        List.singleton_append]

/-- The end of segments does not concern their first one, unless that is the end. -/
theorem openEnd_cons {s : String} {rest : List String} (h : s ≠ "" ∨ rest ≠ []) :
    openEnd (s :: rest) = s :: openEnd rest := by
  cases rest with
  | nil =>
    have hs : s ≠ "" := by simpa using h
    simp [openEnd, hs]
  | cons next rest =>
    rw [openEnd, openEnd, List.getLast?_cons_cons, List.dropLast_cons_cons]
    split <;> rfl

/-- Only a segment that says nothing is left out at the end. -/
theorem filter_openEnd (segments : List String) :
    (openEnd segments).filter (!isSilent ·) = segments.filter (!isSilent ·) := by
  unfold openEnd
  split
  · next h =>
    obtain ⟨before, rfl⟩ := List.getLast?_eq_some_iff.mp h
    simp [isSilent]
  · rfl

/-- A path whose first segment says something starts with it. -/
theorem start_of_isSilent_eq_false {s : String} (h : isSilent s = false) (rest : List String) :
    (⟨s :: rest⟩ : Path).start = (none, s :: rest) := by
  unfold start
  split
  · next hsegments =>
    rw [(List.cons.inj hsegments).1] at h
    cases h
  · next hsegments =>
    rw [(List.cons.inj hsegments).1] at h
    cases h
  · rfl

/-- A path that is written at all starts at the root, in the current directory, or with a segment that
says something. -/
theorem start_cases {p : Path} (h : p.toString ≠ "") :
    (∃ next rest, p.segments = "" :: next :: rest ∧ p.start = (some .root, next :: rest)) ∨
      (∃ rest, p.segments = "." :: rest ∧ p.start = (some .current, rest)) ∨
      ∃ s rest, isSilent s = false ∧ p.segments = s :: rest ∧ p.start = (none, s :: rest) := by
  obtain ⟨segments⟩ := p
  rcases segments with _ | ⟨s, rest⟩
  · exact absurd rfl h
  · by_cases hempty : s = ""
    · subst hempty
      cases rest with
      | nil => exact absurd rfl h
      | cons next rest => exact .inl ⟨next, rest, rfl, rfl⟩
    · by_cases hdot : s = "."
      · subst hdot
        exact .inr (.inl ⟨rest, rfl, rfl⟩)
      · have hs : isSilent s = false := by simp [isSilent, hempty, hdot]
        exact .inr (.inr ⟨s, rest, hs, rfl, start_of_isSilent_eq_false hs rest⟩)

/-- A path without a text has no segment but an empty one. -/
theorem segments_of_toString_eq {p : Path} (h : p.toString = "") :
    p.segments = [] ∨ p.segments = [""] := by
  obtain ⟨segments⟩ := p
  rcases segments with _ | ⟨s, _ | ⟨next, rest⟩⟩
  · exact .inl rfl
  · exact .inr (by simpa [toString] using h)
  · simp [toString] at h

/-- Names joined to a path stand behind what it says, and it starts as before. -/
theorem exists_start_joins (p : Path) {names : List String}
    (hnames : ∀ name ∈ names, isSilent name = false) :
    ∃ before, (p.joins names).start = (p.start.1, before ++ names) ∧
      before.filter (!isSilent ·) = p.start.2.filter (!isSilent ·) := by
  rcases names with _ | ⟨name, others⟩
  · exact ⟨p.start.2, by rw [joins_nil, List.append_nil], rfl⟩
  · have hne : name :: others ≠ [] := List.cons_ne_nil name others
    have hsegments : p.joins (name :: others) = ⟨openEnd p.segments ++ name :: others⟩ := by
      rw [← segments_joins p hne hnames]
    rw [hsegments]
    by_cases h : p.toString = ""
    · -- An empty path says nothing, so the joined one starts with the first name.
      have hname := start_of_isSilent_eq_false (List.forall_mem_cons.mp hnames).1 others
      obtain ⟨segments⟩ := p
      obtain rfl | rfl := segments_of_toString_eq h
      · exact ⟨[], hname, rfl⟩
      · exact ⟨[], hname, rfl⟩
    rcases start_cases h with ⟨next, rest, hp, hstart⟩ | ⟨rest, hp, hstart⟩ |
      ⟨s, rest, hs, hp, hstart⟩
    · refine ⟨openEnd (next :: rest), ?_, by rw [hstart, filter_openEnd]⟩
      rw [hp, openEnd_cons (.inr (List.cons_ne_nil next rest)), hstart, List.cons_append]
      obtain ⟨first, later, hfirst⟩ :=
        List.exists_cons_of_ne_nil (List.append_ne_nil_of_right_ne_nil (openEnd (next :: rest)) hne)
      rw [hfirst]
      rfl
    · refine ⟨openEnd rest, ?_, by rw [hstart, filter_openEnd]⟩
      rw [hp, openEnd_cons (.inl (by decide)), hstart]
      rfl
    · have hempty : s ≠ "" := by
        rintro rfl
        cases hs
      refine ⟨openEnd (s :: rest), ?_, by rw [hstart, filter_openEnd]⟩
      rw [hp, openEnd_cons (.inl hempty), hstart]
      exact start_of_isSilent_eq_false hs _

/-- A segment that says nothing is passed over in the search for a component. -/
theorem dropComponents_cons_silent {s : String} (hs : isSilent s = true) (segments : List String)
    (c : Component) (cs : List Component) :
    dropComponents (s :: segments) (c :: cs) = dropComponents segments (c :: cs) := by
  rw [dropComponents, List.dropWhile_cons_of_pos hs, dropComponents]

/-- A segment that says something is taken for the component that it stands for. -/
theorem dropComponents_cons_component {s : String} (hs : isSilent s = false)
    (segments : List String) (cs : List Component) :
    dropComponents (s :: segments) (component s :: cs) = dropComponents segments cs := by
  rw [dropComponents, List.dropWhile_cons_of_neg (by rw [hs]; exact Bool.false_ne_true)]
  exact if_pos rfl

/-- After the components of the segments in front, the segments behind them are left, up to some that
say nothing. -/
theorem dropComponents_append (before names : List String) :
    (dropComponents (before ++ names) ((before.filter (!isSilent ·)).map component)).map
      (List.dropWhile isSilent) = some (names.dropWhile isSilent) := by
  induction before with
  | nil => rfl
  | cons s before ih =>
    cases hs : isSilent s with
    | true =>
      rw [List.filter_cons_of_neg (by simp [hs]), List.cons_append]
      cases hcomponents : (before.filter (!isSilent ·)).map component with
      | nil =>
        rw [hcomponents] at ih
        rw [dropComponents, Option.map_some, List.dropWhile_cons_of_pos hs]
        exact ih
      | cons c cs =>
        rw [hcomponents] at ih
        rw [dropComponents_cons_silent hs]
        exact ih
    | false =>
      rw [List.filter_cons_of_pos (by simp [hs]), List.cons_append, List.map_cons,
        dropComponents_cons_component hs]
      exact ih

section Names

variable {names : List String} (hnames : ∀ name ∈ names, isSilent name = false)

include hnames

/-- Names say something, so none is dropped from the start. -/
theorem dropWhile_isSilent : names.dropWhile isSilent = names := by
  cases names with
  | nil => rfl
  | cons name rest =>
    have hname := (List.forall_mem_cons.mp hnames).1
    exact List.dropWhile_cons_of_neg (by rw [hname]; exact Bool.false_ne_true)

/-- Names say something, so none is dropped from the end. -/
theorem trimEnd_eq : trimEnd names = names := by
  have hreverse : ∀ name ∈ names.reverse, isSilent name = false :=
    fun name hname => hnames name (List.mem_reverse.mp hname)
  rw [trimEnd, dropWhile_isSilent hreverse, List.reverse_reverse]

/-- Behind the components of a directory, the names of a path below it are left. -/
theorem map_dropComponents (before : List String) :
    (dropComponents (before ++ names) ((before.filter (!isSilent ·)).map component)).map
      (fun left => build none (trimEnd (left.dropWhile isSilent))) = some (build none names) := by
  have hleft := congrArg (Option.map fun left => build none (trimEnd left))
    (dropComponents_append before names)
  rwa [Option.map_map, Option.map_some, dropWhile_isSilent hnames, trimEnd_eq hnames] at hleft

/-- Seen from a directory, a path below it is the names that lead there. -/
theorem relativeTo?_joins {p : Path} (h : p.toString ≠ "") :
    (p.joins names).relativeTo? p = some (build none names) := by
  obtain ⟨before, hjoined, hbefore⟩ := exists_start_joins p hnames
  have hleft := map_dropComponents hnames before
  rw [hbefore] at hleft
  rw [relativeTo?, components, hjoined]
  rcases start_cases h with ⟨next, rest, -, hstart⟩ | ⟨rest, -, hstart⟩ | ⟨s, rest, hs, -, hstart⟩
  · rw [hstart] at hleft ⊢
    exact (if_pos rfl).trans hleft
  · rw [hstart] at hleft ⊢
    exact (if_pos rfl).trans hleft
  · rw [hstart] at hleft ⊢
    rw [List.filter_cons_of_pos (by simp [hs]), List.map_cons] at hleft ⊢
    exact hleft

/-- Names say something, so all of them are kept. -/
theorem filter_isSilent : names.filter (!isSilent ·) = names := by
  rw [List.filter_eq_self]
  intro name hname
  rw [hnames name hname]
  rfl

/-- Names joined to the empty path are seen from it as they are. -/
theorem relativeTo?_joins_of_empty {p : Path} (h : p.toString = "") :
    (p.joins names).relativeTo? p = some (build none names) := by
  have hp : p = ⟨[]⟩ ∨ p = ⟨[""]⟩ := by
    obtain ⟨segments⟩ := p
    simpa using segments_of_toString_eq h
  rcases names with _ | ⟨name, others⟩
  · obtain rfl | rfl := hp
    · rfl
    · rfl
  · have hempty : openEnd p.segments = [] ∧ p.components = [] := by
      obtain rfl | rfl := hp
      · exact ⟨rfl, rfl⟩
      · exact ⟨rfl, rfl⟩
    have hsegments := segments_joins p (List.cons_ne_nil name others) hnames
    rw [hempty.1, List.nil_append] at hsegments
    have hstart : (p.joins (name :: others)).start = (none, name :: others) := by
      rw [start, hsegments]
      exact start_of_isSilent_eq_false (List.forall_mem_cons.mp hnames).1 others
    rw [relativeTo?, hempty.2, hstart]
    exact congrArg (fun left => some (build none left)) (trimEnd_eq hnames)

/-- The components of joined names stand behind those of the directory. -/
theorem components_joins (p : Path) :
    (p.joins names).components = p.components ++ names.map component := by
  obtain ⟨before, hjoined, hbefore⟩ := exists_start_joins p hnames
  rw [components, hjoined, components, List.filter_append, hbefore, filter_isSilent hnames,
    List.map_append, List.append_assoc]

/-- What lies below a directory is not the directory. -/
theorem same_joins (p : Path) (hne : names ≠ []) : (p.joins names).same p = false := by
  rw [same, components_joins hnames]
  simp [hne]

/-- The components of such a relative path are those of its names. -/
theorem components_build_none : (build none names).components = names.map component := by
  cases names with
  | nil => rfl
  | cons name rest =>
    have hstart := start_of_isSilent_eq_false (List.forall_mem_cons.mp hnames).1 rest
    have hbuild : build none (name :: rest) = ⟨name :: rest⟩ := rfl
    rw [hbuild, components, hstart, filter_isSilent hnames]
    rfl

end Names

end ElvishOutline.Path

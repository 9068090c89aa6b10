import ElvishOutline.Proofs.ReportedLines

/-!
# The order of an outline

An outline lists landmarks in the order of their statements. Tokens that meet their contract stand in
order, so each landmark has ended when the next one starts, and the lines of an outline never go back:
an entry ends on the line of its last byte, which lies ahead of the next entry.

An entry without a byte ends where it starts. Gaps between tokens, tokens without bytes and ends of
tokens inside a character leave all of this as it is, since lines only grow with offsets.
-/

namespace ElvishOutline

open Text (byteLength lineAt lineBreakCount)

section Landmarks

variable {tokens : List Token}

/-- The bytes of landmarks stand in the order of the landmarks. -/
theorem pairwise_landmarks (horder : InOrder tokens) :
    (landmarks (segment tokens)).Pairwise fun l l' => l.stop ≤ l'.start := by
  refine List.pairwise_filterMap.mpr ((pairwise_precedes_segment horder).imp ?_)
  intro s s' hprecedes l hl l' hl'
  exact hprecedes _ _ _ _ (Statement.span?_of_landmark? hl) (Statement.span?_of_landmark? hl')

/-- A landmark ends no earlier than it starts. -/
theorem start_le_stop_of_mem_landmarks (horder : InOrder tokens) {l : Landmark}
    (hl : l ∈ landmarks (segment tokens)) : l.start ≤ l.stop := by
  obtain ⟨s, hs, hlandmark⟩ := mem_landmarks.mp hl
  obtain ⟨first, -, hstart, hstop⟩ :=
    Statement.exists_stop_le_of_span? (horder.body hs) (Statement.span?_of_landmark? hlandmark)
  rw [← hstart]
  exact Nat.le_trans (Nat.le_add_right ..) hstop

/-- A landmark ends where one of the tokens does. -/
theorem exists_stop_eq_of_mem_landmarks {l : Landmark} (hl : l ∈ landmarks (segment tokens)) :
    ∃ t ∈ tokens, l.stop = t.stop := by
  obtain ⟨s, hs, hlandmark⟩ := mem_landmarks.mp hl
  obtain ⟨-, -, last, hlast, -, hstop⟩ := Statement.exists_of_landmark? hlandmark
  exact ⟨last, mem_of_mem_segment hs (List.mem_append_right _ hlast), hstop⟩

end Landmarks

/-- Tokens that meet their contract have an outline, with one entry for each landmark. Each entry ends
where or before the next one starts, and on the same line or an earlier one; its lines are lines of
the script. The script is taken to be shorter than the greatest offset that can be written down. -/
theorem outline_in_order {source : String} {tokens : List Token} (options : AnalysisOptions)
    (hlength : source.utf8ByteSize < maxOffset)
    (hcheck : checkTokens tokens source.utf8ByteSize = .ok ()) :
    ∃ a, analyzeTokens source tokens options = .ok a ∧
      a.outline.map OutlineEntry.landmark = landmarks (segment tokens) ∧
      a.outline.Pairwise (fun e e' =>
        e.landmark.stop ≤ e'.landmark.start ∧ e.endLine ≤ e'.startLine) ∧
      ∀ e ∈ a.outline, e.landmark.start ≤ e.landmark.stop ∧
        e.landmark.stop ≤ source.utf8ByteSize ∧ 1 ≤ e.startLine ∧ e.startLine ≤ e.endLine ∧
        e.endLine ≤ lineBreakCount source.toList + 1 := by
  rw [← Text.byteLength_toList] at hlength hcheck ⊢
  have hinside := stop_le_of_checkTokens hlength hcheck
  have horder := inOrder_of_checkTokens hcheck (stop_le_maxOffset_of_checkFrom hlength hcheck)
  refine ⟨_, analyzeTokens_eq_ok options hcheck hinside, ?_, ?_, ?_⟩
  · simp only [analysisOf, List.map_map]
    exact List.map_id _
  · refine List.pairwise_map.mpr ((pairwise_landmarks horder).imp_of_mem ?_)
    intro l l' hl _ hbefore
    have hends := start_le_stop_of_mem_landmarks horder hl
    exact ⟨hbefore, Nat.add_le_add_right (Text.lineAt_mono source.toList (by omega)) 1⟩
  · intro e he
    obtain ⟨l, hl, rfl⟩ := List.mem_map.mp he
    obtain ⟨t, ht, hstop⟩ := exists_stop_eq_of_mem_landmarks hl
    have hlines := Text.lineAt_mono source.toList (Nat.le_max_right (l.stop - 1) l.start)
    exact ⟨start_le_stop_of_mem_landmarks horder hl, hstop ▸ hinside t ht, Nat.le_add_left _ _,
      Nat.add_le_add_right hlines 1, Nat.add_le_add_right (Text.lineAt_le _ _) 1⟩

/-- Three landmarks of a wide character and a line end of two characters. The first ends inside the
character, the second starts there and ends behind the line end, the third has no byte. -/
def insideWideCharacter : List Token :=
  [⟨.keyword (.block .ifBlock), "if", 0, 1⟩, ⟨.newline, "", 1, 0⟩,
    ⟨.keyword (.block .function), "fn", 1, 0⟩, ⟨.newline, "\n", 3, 1⟩,
    ⟨.keyword (.block .whileLoop), "while", 4, 0⟩]

/-- The line end does not count for the second landmark, and the third is on the line behind it. -/
theorem outline_in_order_insideWideCharacter :
    "λ\r\n".utf8ByteSize < maxOffset ∧
      checkTokens insideWideCharacter "λ\r\n".utf8ByteSize = .ok () ∧
      ∃ a, analyzeTokens "λ\r\n" insideWideCharacter {} = .ok a ∧
        a.outline.map (fun e => (e.landmark.start, e.landmark.stop, e.startLine, e.endLine)) =
          [(0, 1, 1, 1), (1, 4, 1, 1), (4, 4, 2, 2)] ∧
        a.outline.Pairwise (fun e e' =>
          e.landmark.stop ≤ e'.landmark.start ∧ e.endLine ≤ e'.startLine) := by
  have hlength : "λ\r\n".utf8ByteSize < maxOffset := by decide +kernel
  have hcheck : checkTokens insideWideCharacter "λ\r\n".utf8ByteSize = .ok () := by decide +kernel
  obtain ⟨a, ha, -, hordered, -⟩ := outline_in_order {} hlength hcheck
  have hentries : (analyzeTokens "λ\r\n" insideWideCharacter {}).map (fun a =>
      a.outline.map fun e => (e.landmark.start, e.landmark.stop, e.startLine, e.endLine)) =
        .ok [(0, 1, 1, 1), (1, 4, 1, 1), (4, 4, 2, 2)] := by decide +kernel
  rw [ha] at hentries
  exact ⟨hlength, hcheck, a, ha, Except.ok.inj hentries, hordered⟩

end ElvishOutline

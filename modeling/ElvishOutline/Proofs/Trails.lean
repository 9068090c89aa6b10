import ElvishOutline.Breadcrumb
import ElvishOutline.Proofs.Spans

/-!
# Trails and landmarks agree

The trail of an offset is found by two searches over the statements, one for bytes that hold the
offset and one for bytes that end there, and each takes the first hit. For tokens that meet their
contract the bytes of statements stand in order, so the first hit is the only statement that may
answer: the one that holds the offset or, if there is none, the one with a byte just ahead of it.
-/

namespace ElvishOutline

namespace Statement

/-- A statement whose bytes hold an offset. -/
def Covers (s : Statement) (offset : Nat) : Prop :=
  ∃ start stop, s.span? = some (start, stop) ∧ start ≤ offset ∧ offset < stop

/-- A statement whose bytes end at an offset. -/
def EndsAt (s : Statement) (offset : Nat) : Prop := ∃ start, s.span? = some (start, offset)

instance (s : Statement) (offset : Nat) : Decidable (s.Covers offset) :=
  decidable_of_iff (s.span?.any fun span => span.1 ≤ offset && offset < span.2) (by
    simp [Covers, Option.any_eq_true])

instance (s : Statement) (offset : Nat) : Decidable (s.EndsAt offset) :=
  decidable_of_iff (s.span?.any fun span => span.2 = offset) (by
    simp [EndsAt, Option.any_eq_true])

/-- A landmark has the bytes of its statement. -/
theorem span?_of_landmark? {s : Statement} {l : Landmark} (h : s.landmark? = some l) :
    s.span? = some (l.start, l.stop) := by
  unfold landmark? landmarkWith? at h
  split at h
  · next start stop kind hspan hkind =>
    rw [span?, hspan, ← Option.some.inj h]
  · cases h

/-- A statement is a landmark if its tokens make it one of some kind. -/
theorem landmark?_eq_none_iff {s : Statement} : s.landmark? = none ↔ classify s.body = none := by
  unfold landmark? landmarkWith?
  cases hkind : classify s.body with
  | none => simp
  | some kind =>
    -- Tokens of a kind are not empty, so there are a first and a last one.
    have hbody : s.body ≠ [] := by
      intro hnil
      rw [hnil] at hkind
      cases hkind
    have hspan : s.spanWith? Token.stop =
        some ((s.body.head hbody).start, (s.body.getLast hbody).stop) := by
      rw [spanWith?, List.head?_eq_some_head hbody, List.getLast?_eq_some_getLast hbody]
    rw [hspan]
    simp

end Statement

/-- A member that passes a test is the first to pass it, if none that may stand ahead of it does. -/
theorem find?_eq_some_of_pairwise {α : Type*} {R : α → α → Prop} {p : α → Bool} {xs : List α}
    {x : α} (hpairwise : xs.Pairwise R) (hx : x ∈ xs) (hp : p x = true)
    (hahead : ∀ y ∈ xs, R y x → p y = false) : xs.find? p = some x := by
  obtain ⟨before, after, rfl⟩ := List.append_of_mem hx
  refine List.find?_eq_some_iff_append.mpr ⟨hp, before, after, rfl, ?_⟩
  intro y hy
  have hR := (List.pairwise_append.mp hpairwise).2.2 y hy x List.mem_cons_self
  rw [hahead y (List.mem_append_left _ hy) hR]
  rfl

/-- A statement belongs to an offset if it is the first that covers it or, where none does, the first
that ends there. -/
theorem statementAt?_eq (statements : List Statement) (offset : Nat) :
    statementAt? statements offset =
      (statements.find? fun s => s.Covers offset).or (statements.find? fun s => s.EndsAt offset) := by
  unfold statementAt?
  dsimp only
  congr 1
  · congr 1
    funext s
    rw [Bool.eq_iff_iff, decide_eq_true_iff]
    simp [Statement.Covers, Option.any_eq_true]
  · congr 1
    funext s
    rw [Bool.eq_iff_iff, decide_eq_true_iff]
    simp [Statement.EndsAt, Option.any_eq_true]

/-- An offset belongs to one of the statements. -/
theorem mem_of_statementAt? {statements : List Statement} {offset : Nat} {s : Statement}
    (h : statementAt? statements offset = some s) : s ∈ statements := by
  rw [statementAt?_eq, Option.or_eq_some_iff] at h
  rcases h with hcovers | ⟨-, hends⟩
  · exact List.mem_of_find?_eq_some hcovers
  · exact List.mem_of_find?_eq_some hends

/-- An offset that no statement covers, and at which none ends, belongs to none. -/
theorem statementAt?_eq_none {statements : List Statement} {offset : Nat}
    (h : ∀ s ∈ statements, ¬s.Covers offset ∧ ¬s.EndsAt offset) :
    statementAt? statements offset = none := by
  rw [statementAt?_eq, Option.or_eq_none_iff, List.find?_eq_none, List.find?_eq_none]
  simp only [decide_eq_true_iff]
  exact ⟨fun s hs => (h s hs).1, fun s hs => (h s hs).2⟩

section Ordered

variable {tokens : List Token} {offset : Nat} {s : Statement}

/-- An offset belongs to the statement that covers it. -/
theorem statementAt?_of_covers (horder : InOrder tokens) (hs : s ∈ segment tokens)
    (hcovers : s.Covers offset) : statementAt? (segment tokens) offset = some s := by
  have hfirst : (segment tokens).find? (fun s => s.Covers offset) = some s := by
    refine find?_eq_some_of_pairwise (pairwise_precedes_segment horder) hs
      (decide_eq_true hcovers) ?_
    obtain ⟨start, stop, hspan, hstart, -⟩ := hcovers
    intro s' _ hprecedes
    apply decide_eq_false
    intro hcovers'
    obtain ⟨start', stop', hspan', -, hstop'⟩ := hcovers'
    have := hprecedes start' stop' start stop hspan' hspan
    omega
  rw [statementAt?_eq, hfirst, Option.some_or]

/-- An offset that no statement covers belongs to the one that has its last byte just ahead of it. -/
theorem statementAt?_of_endsAt (horder : InOrder tokens)
    (hnone : ∀ s ∈ segment tokens, ¬s.Covers offset) (hs : s ∈ segment tokens) {start : Nat}
    (hspan : s.span? = some (start, offset)) (hstart : start < offset) :
    statementAt? (segment tokens) offset = some s := by
  have hcovers : (segment tokens).find? (fun s => s.Covers offset) = none := by
    rw [List.find?_eq_none]
    simpa only [decide_eq_true_iff] using hnone
  -- A later statement without a byte may end here too, but the search takes the first.
  have hfirst : (segment tokens).find? (fun s => s.EndsAt offset) = some s := by
    refine find?_eq_some_of_pairwise (pairwise_precedes_segment horder) hs
      (decide_eq_true ⟨start, hspan⟩) ?_
    intro s' _ hprecedes
    apply decide_eq_false
    intro hends'
    obtain ⟨start', hspan'⟩ := hends'
    have := hprecedes start' offset start offset hspan' hspan
    omega
  rw [statementAt?_eq, hcovers, hfirst, Option.none_or]

end Ordered

/-- The trail of an offset, as the statements and their landmarks determine it. -/
structure IsTrailAt (statements : List Statement) (offset : Nat) (trail : List Landmark) : Prop where
  /-- There is at most one landmark. -/
  length_le_one : trail.length ≤ 1
  /-- It is one of the script. -/
  mem_landmarks : ∀ l ∈ trail, l ∈ landmarks statements
  /-- A landmark that holds the offset is the trail. -/
  of_landmark : ∀ l ∈ landmarks statements, l.start ≤ offset → offset < l.stop → trail = [l]
  /-- In a statement that is no landmark the trail is empty. -/
  of_plain : ∀ s ∈ statements, classify s.body = none → s.Covers offset → trail = []
  /-- Away from all statements the trail is empty. -/
  of_gap : (∀ s ∈ statements, ¬s.Covers offset ∧ ¬s.EndsAt offset) → trail = []
  /-- Outside all statements, a landmark whose last byte is just ahead of the offset is the trail. -/
  of_end : (∀ s ∈ statements, ¬s.Covers offset) → ∀ s ∈ statements, classify s.body ≠ none →
    ∀ start < offset, s.span? = some (start, offset) → ∃ l, s.landmark? = some l ∧ trail = [l]

/-- For tokens that meet their contract, the trail of every offset agrees with the landmarks. The ends
of the tokens are offsets that can be written down, which the contract implies for every script
shorter than the greatest one. -/
theorem trail_agrees_with_landmarks {tokens : List Token} {sourceLength : Nat}
    (hcheck : checkTokens tokens sourceLength = .ok ()) (hstops : ∀ t ∈ tokens, t.stop ≤ maxOffset)
    (offset : Nat) :
    IsTrailAt (segment tokens) offset (Breadcrumb.atOffset (segment tokens) offset).trail := by
  have horder := inOrder_of_checkTokens hcheck hstops
  have htrail {s : Statement} (h : statementAt? (segment tokens) offset = some s) :
      (Breadcrumb.atOffset (segment tokens) offset).trail = s.landmark?.toList := by
    rw [Breadcrumb.atOffset, h, Option.bind_some]
  refine ⟨Option.length_toList_le, ?_, ?_, ?_, ?_, ?_⟩
  · intro l hl
    obtain ⟨s, hs, hlandmark⟩ := Option.bind_eq_some_iff.mp (Option.mem_toList.mp hl)
    exact mem_landmarks.mpr ⟨s, mem_of_statementAt? hs, hlandmark⟩
  · intro l hl hstart hstop
    obtain ⟨s, hs, hlandmark⟩ := mem_landmarks.mp hl
    have hcovers : s.Covers offset :=
      ⟨l.start, l.stop, Statement.span?_of_landmark? hlandmark, hstart, hstop⟩
    rw [htrail (statementAt?_of_covers horder hs hcovers), hlandmark, Option.toList_some]
  · intro s hs hplain hcovers
    rw [htrail (statementAt?_of_covers horder hs hcovers),
      Statement.landmark?_eq_none_iff.mpr hplain, Option.toList_none]
  · intro hgap
    rw [Breadcrumb.atOffset, statementAt?_eq_none hgap, Option.bind_none, Option.toList_none]
  · intro hnone s hs hkind start hstart hspan
    obtain ⟨l, hlandmark⟩ := Option.ne_none_iff_exists'.mp
      (Statement.landmark?_eq_none_iff.not.mpr hkind)
    refine ⟨l, hlandmark, ?_⟩
    rw [htrail (statementAt?_of_endsAt horder hnone hs hspan hstart), hlandmark, Option.toList_some]

/-- A conditional on a line by itself, and a statement behind it whose two tokens are empty. -/
def lineAndEmptyTokens : List Token :=
  [⟨.keyword (.block .ifBlock), "if", 0, 2⟩, ⟨.newline, "\n", 2, 1⟩, ⟨.identifier, "", 3, 0⟩,
    ⟨.semicolon, "", 3, 0⟩]

/-- Both statements end at the end of the script, and the one with bytes answers. -/
theorem trail_behind_line_and_empty_tokens :
    checkTokens lineAndEmptyTokens 3 = .ok () ∧
      (∀ t ∈ lineAndEmptyTokens, t.stop ≤ maxOffset) ∧
      (segment lineAndEmptyTokens).map Statement.span? = [some (0, 3), some (3, 3)] ∧
      IsTrailAt (segment lineAndEmptyTokens) 3
        (Breadcrumb.atOffset (segment lineAndEmptyTokens) 3).trail ∧
      (Breadcrumb.atOffset (segment lineAndEmptyTokens) 3).path = "if" := by
  have hcheck : checkTokens lineAndEmptyTokens 3 = .ok () := by decide +kernel
  have hstops := stop_le_maxOffset_of_checkFrom (by decide +kernel) hcheck
  refine ⟨hcheck, hstops, ?_, trail_agrees_with_landmarks hcheck hstops 3, ?_⟩
  · decide +kernel
  · decide +kernel

end ElvishOutline

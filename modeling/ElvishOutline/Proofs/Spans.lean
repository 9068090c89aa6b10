import ElvishOutline.Landmark
import ElvishOutline.Token.Stream
import ElvishOutline.Proofs.Partition

/-!
# The bytes of statements

Tokens that meet the contract stand in order: each has ended when a later one starts. So the bytes
of the statements do not overlap, whatever the lengths of the tokens, and stand in the order of the
statements. A token may be empty, so a statement with a body may have no byte.

The check compares the ends of tokens only up to the greatest offset that can be written down. The
ends of tokens are therefore taken to be such offsets, as they are in every script that is shorter.
-/

namespace ElvishOutline

/-- Tokens that have ended when any later one starts. -/
def InOrder (tokens : List Token) : Prop := tokens.Pairwise fun t u => t.stop ≤ u.start

/-- A token has ended when one at a later position starts. -/
theorem InOrder.stop_le_start {tokens : List Token} (h : InOrder tokens) {i j : Nat} {t u : Token}
    (hij : i < j) (hi : tokens[i]? = some t) (hj : tokens[j]? = some u) : t.stop ≤ u.start := by
  obtain ⟨hilt, rfl⟩ := List.getElem?_eq_some_iff.mp hi
  obtain ⟨hjlt, rfl⟩ := List.getElem?_eq_some_iff.mp hj
  exact List.pairwise_iff_getElem.mp h i j hilt hjlt hij

/-- Of tokens in order the last ends no earlier than the first. -/
theorem InOrder.stop_head_le {tokens : List Token} (h : InOrder tokens) {first last : Token}
    (hfirst : tokens.head? = some first) (hlast : tokens.getLast? = some last) :
    first.stop ≤ last.stop := by
  obtain ⟨rest, rfl⟩ := List.head?_eq_some_iff.mp hfirst
  rw [InOrder, List.pairwise_cons] at h
  rw [List.getLast?_cons] at hlast
  cases hrest : rest.getLast? with
  | none =>
    obtain rfl : first = last := by simpa [hrest] using hlast
    exact Nat.le_refl _
  | some other =>
    obtain rfl : other = last := by simpa [hrest] using hlast
    exact Nat.le_trans (h.1 other (List.mem_of_getLast? hrest)) (Nat.le_add_right ..)

/-- The check accepts tokens that stand in order between the end of the last one and the end of the
script, and no others. -/
theorem checkFrom_eq_ok_iff {sourceLength index previousStop : Nat} {ts : List Token}
    (hstops : ∀ t ∈ ts, t.stop ≤ maxOffset) :
    checkFrom sourceLength index previousStop ts = .ok () ↔
      InOrder ts ∧ ∀ t ∈ ts, previousStop ≤ t.start ∧ t.stop ≤ sourceLength := by
  induction ts generalizing index previousStop with
  | nil => simp [checkFrom, InOrder]
  | cons t ts ih =>
    have hbounded : t.boundedStop = t.stop := Nat.min_eq_left (hstops t List.mem_cons_self)
    have hlength : t.start ≤ t.stop := Nat.le_add_right ..
    rw [checkFrom, hbounded, InOrder, List.pairwise_cons, List.forall_mem_cons]
    by_cases hbounds : sourceLength < t.stop
    · rw [if_pos hbounds]
      constructor
      · intro h
        cases h
      · intro h
        omega
    · rw [if_neg hbounds]
      by_cases hoverlap : t.start < previousStop
      · rw [if_pos hoverlap]
        constructor
        · intro h
          cases h
        · intro h
          omega
      · rw [if_neg hoverlap, ih fun u hu => hstops u (List.mem_cons_of_mem t hu)]
        constructor
        · intro h
          obtain ⟨horder, hlater⟩ := h
          refine ⟨⟨fun u hu => (hlater u hu).1, horder⟩, by omega, fun u hu => ?_⟩
          have := hlater u hu
          omega
        · intro h
          obtain ⟨⟨hfirst, horder⟩, -, hlater⟩ := h
          exact ⟨horder, fun u hu => ⟨hfirst u hu, (hlater u hu).2⟩⟩

/-- In a script shorter than the greatest offset, tokens that are accepted end at offsets that can be
written down. -/
theorem stop_le_maxOffset_of_checkFrom {sourceLength index previousStop : Nat} {ts : List Token}
    (hlength : sourceLength < maxOffset)
    (hcheck : checkFrom sourceLength index previousStop ts = .ok ()) :
    ∀ t ∈ ts, t.stop ≤ maxOffset := by
  induction ts generalizing index previousStop with
  | nil =>
    intro t ht
    cases ht
  | cons t ts ih =>
    rw [checkFrom] at hcheck
    split at hcheck
    · cases hcheck
    · next hbounds =>
      split at hcheck
      · cases hcheck
      · rw [Token.boundedStop] at hbounds
        refine List.forall_mem_cons.mpr ⟨by omega, ih hcheck⟩

/-- Tokens that pass the check are in order if their ends are not capped. -/
theorem inOrder_of_checkTokens {tokens : List Token} {sourceLength : Nat}
    (hcheck : checkTokens tokens sourceLength = .ok ()) (hstops : ∀ t ∈ tokens, t.stop ≤ maxOffset) :
    InOrder tokens :=
  ((checkFrom_eq_ok_iff hstops).mp hcheck).1

/-- Tokens that are accepted lie inside a script that is shorter than the greatest offset. -/
theorem stop_le_of_checkTokens {tokens : List Token} {sourceLength : Nat}
    (hlength : sourceLength < maxOffset) (hcheck : checkTokens tokens sourceLength = .ok ()) :
    ∀ t ∈ tokens, t.stop ≤ sourceLength := by
  intro t ht
  have hstops := stop_le_maxOffset_of_checkFrom hlength hcheck
  exact (((checkFrom_eq_ok_iff hstops).mp hcheck).2 t ht).2

namespace Statement

/-- The bytes of a statement run from the start of the first token of its body to the end of the
last. -/
theorem span?_eq_some_iff {s : Statement} {start stop : Nat} :
    s.span? = some (start, stop) ↔ ∃ first last, s.body.head? = some first ∧
      s.body.getLast? = some last ∧ first.start = start ∧ last.stop = stop := by
  unfold span? spanWith?
  split
  · next first last hfirst hlast => simp [hfirst, hlast]
  · next hnone =>
    constructor
    · intro h
      cases h
    · intro h
      obtain ⟨first, last, hfirst, hlast, -⟩ := h
      exact (hnone first last hfirst hlast).elim

/-- The bytes of a statement end no earlier than its first token does. -/
theorem exists_stop_le_of_span? {s : Statement} {start stop : Nat} (horder : InOrder s.body)
    (h : s.span? = some (start, stop)) : ∃ first ∈ s.body, first.start = start ∧ first.stop ≤ stop := by
  obtain ⟨first, last, hfirst, hlast, rfl, rfl⟩ := span?_eq_some_iff.mp h
  exact ⟨first, List.mem_of_head? hfirst, rfl, horder.stop_head_le hfirst hlast⟩

/-- Whether the bytes of a statement end before those of another one start, if both have a body. -/
def Precedes (s s' : Statement) : Prop :=
  ∀ start stop start' stop', s.span? = some (start, stop) → s'.span? = some (start', stop') →
    stop ≤ start'

end Statement

/-- The body of a statement is in order if all tokens are. -/
theorem InOrder.body {tokens : List Token} (h : InOrder tokens) {s : Statement}
    (hs : s ∈ segment tokens) : InOrder s.body := by
  rw [InOrder, ← segment_tokens tokens, List.pairwise_flatMap] at h
  exact (h.1 s hs).sublist (List.sublist_append_right _ _)

/-- The bytes of statements stand in the order of the statements. -/
theorem pairwise_precedes_segment {tokens : List Token} (horder : InOrder tokens) :
    (segment tokens).Pairwise Statement.Precedes := by
  rw [← segment_tokens tokens] at horder
  refine (List.pairwise_flatMap.mp horder).2.imp ?_
  intro s s' h start stop start' stop' hspan hspan'
  obtain ⟨-, last, -, hlast, -, rfl⟩ := Statement.span?_eq_some_iff.mp hspan
  obtain ⟨first, -, hfirst, -, rfl, -⟩ := Statement.span?_eq_some_iff.mp hspan'
  exact h last (List.mem_append_right _ (List.mem_of_getLast? hlast)) first
    (List.mem_append_right _ (List.mem_of_head? hfirst))

end ElvishOutline

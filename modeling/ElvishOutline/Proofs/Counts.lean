import Mathlib.Logic.Function.Basic
import ElvishOutline.Analysis

/-!
# Counts by kind

The counts of an analysis list the keywords that occur with their numbers. A keyword stands for one
kind of landmark, so the number under a keyword, zero where it is left out, is the number of
landmarks that have it.
-/

namespace ElvishOutline

/-- The number of landmarks that are counted under a keyword. -/
def StatementCounts.countOf (counts : StatementCounts) (keyword : String) : Nat :=
  (counts.byKind.lookup keyword).getD 0

/-- Kinds of landmarks are told apart by their keywords. -/
theorem LandmarkKind.keyword_injective : Function.Injective keyword := by
  have hmem (k : LandmarkKind) : k ∈ all := by
    cases k with
    | block b => cases b <;> decide
    | lambda => decide
  have hall : ∀ k ∈ all, ∀ k' ∈ all, k.keyword = k'.keyword → k = k' := by decide
  exact fun k k' h => hall k (hmem k) k' (hmem k') h

/-- No kind is left out of the counts. -/
theorem LandmarkKind.mem_byKeyword (kind : LandmarkKind) : kind ∈ byKeyword := by
  cases kind with
  | block b => cases b <;> decide
  | lambda => decide

/-- Under the keyword of a kind stands the number of landmarks of that kind, if the kind is among
those counted. -/
theorem lookup_counts (found : List Landmark) (kinds : List LandmarkKind) (kind : LandmarkKind) :
    ((kinds.filterMap fun k =>
        let count := found.countP (·.kind = k)
        if count = 0 then none else some (k.keyword, count)).lookup kind.keyword).getD 0 =
      if kind ∈ kinds then found.countP (·.kind = kind) else 0 := by
  induction kinds with
  | nil => rfl
  | cons k kinds ih =>
    by_cases hcount : found.countP (·.kind = k) = 0
    · rw [List.filterMap_cons]
      simp only [hcount, if_true, ih]
      by_cases hkind : kind = k
      · subst hkind
        simp [hcount]
      · simp [hkind]
    · rw [List.filterMap_cons]
      simp only [hcount, if_false, List.lookup_cons]
      by_cases hkind : kind = k
      · subst hkind
        simp
      · have hkeyword : (kind.keyword == k.keyword) = false := by
          rw [beq_eq_false_iff_ne]
          exact fun heq => hkind (LandmarkKind.keyword_injective heq)
        simp only [hkeyword, ih, List.mem_cons, hkind, false_or]

/-- Counts by kind are the numbers of landmarks with the keyword. -/
theorem StatementCounts.countOf_of (statements : List Statement) (found : List Landmark)
    (keyword : String) :
    (StatementCounts.of statements found).countOf keyword =
      found.countP (·.kind.keyword = keyword) := by
  by_cases hkeyword : ∃ kind : LandmarkKind, kind.keyword = keyword
  · obtain ⟨kind, rfl⟩ := hkeyword
    rw [countOf, StatementCounts.of, lookup_counts, if_pos kind.mem_byKeyword]
    congr 1
    funext l
    simp only [LandmarkKind.keyword_injective.eq_iff]
  · have hnone : (StatementCounts.of statements found).byKind.lookup keyword = none := by
      rw [List.lookup_eq_none_iff]
      intro entry hentry
      obtain ⟨kind, -, hsome⟩ := List.mem_filterMap.mp hentry
      dsimp only at hsome
      split at hsome
      · cases hsome
      · obtain rfl := Option.some.inj hsome
        exact bne_iff_ne.mpr fun heq => hkeyword ⟨kind, heq.symm⟩
    have hzero : found.countP (·.kind.keyword = keyword) = 0 := by
      rw [List.countP_eq_zero]
      intro l _ heq
      exact hkeyword ⟨l.kind, of_decide_eq_true heq⟩
    rw [countOf, hnone, hzero]
    rfl

end ElvishOutline

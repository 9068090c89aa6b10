import Mathlib.Data.List.Forall2
import ElvishOutline.Proofs.Totality

/-!
# Counting and stacks pair the same delimiters

The regions of a statement are found by counting: from each opening delimiter on, delimiters of its
sort are counted until the one that closes it. A single pass with a stack of the positions that are
still open is the other way to pair delimiters. It pops on a closing delimiter, and passes over one
that finds the stack empty.

Both pair the same positions, in any list of tokens. What carries the proof is the depth of a
position in the stack: the stack pairs it with the closing delimiter that counting finds with as
many further pairs open.
-/

namespace ElvishOutline

/-- A pair of delimiters, given by the positions of its tokens. -/
structure TokenPair where
  delimiter : FoldDelimiter
  opener : Nat
  closer : Nat
  deriving DecidableEq, Repr

/-- The positions that one pass over tokens pairs for one sort of delimiters, when the positions in
`stack` are open and the first token has the position `index`. -/
def stackRun (pair : Delimiter) (stack : List Nat) (index : Nat) : List Token → List (Nat × Nat)
  | [] => []
  | t :: ts =>
    if t.kind = .opening pair then stackRun pair (index :: stack) (index + 1) ts
    else if t.kind = .closing pair then
      match stack with
      | [] => stackRun pair [] (index + 1) ts
      | opener :: stack => (opener, index) :: stackRun pair stack (index + 1) ts
    else stackRun pair stack (index + 1) ts

/-- The position of the token that closes a pair, `depth` further pairs of its sort being open. -/
def closerIndex? (pair : Delimiter) (depth index : Nat) : List Token → Option Nat
  | [] => none
  | t :: ts =>
    if t.kind = .opening pair then closerIndex? pair (depth + 1) (index + 1) ts
    else if t.kind = .closing pair then
      match depth with
      | 0 => some index
      | depth + 1 => closerIndex? pair depth (index + 1) ts
    else closerIndex? pair depth (index + 1) ts

section Steps

variable {pair : Delimiter} {depth index : Nat} {t : Token} {ts : List Token}

/-- An opening delimiter of the sort has to be closed first. -/
theorem closerIndex?_opening (h : t.kind = .opening pair) :
    closerIndex? pair depth index (t :: ts) = closerIndex? pair (depth + 1) (index + 1) ts := by
  rw [closerIndex?.eq_def]
  simp only [if_pos h]

/-- The first closing delimiter of the sort closes the pair if nothing else is open. -/
theorem closerIndex?_closing_zero (h : t.kind = .closing pair) :
    closerIndex? pair 0 index (t :: ts) = some index := by
  rw [closerIndex?, if_neg (by rw [h]; exact TokenKind.noConfusion), if_pos h]

/-- A closing delimiter of the sort closes the innermost of the further pairs. -/
theorem closerIndex?_closing_succ (h : t.kind = .closing pair) :
    closerIndex? pair (depth + 1) index (t :: ts) = closerIndex? pair depth (index + 1) ts := by
  rw [closerIndex?, if_neg (by rw [h]; exact TokenKind.noConfusion), if_pos h]

/-- Other tokens are passed over. -/
theorem closerIndex?_other (hopening : t.kind ≠ .opening pair) (hclosing : t.kind ≠ .closing pair) :
    closerIndex? pair depth index (t :: ts) = closerIndex? pair depth (index + 1) ts := by
  rw [closerIndex?.eq_def]
  simp only [if_neg hopening, if_neg hclosing]

end Steps

/-- The pair that a token at a position opens, found by counting. -/
def pairAt? (index : Nat) (t : Token) (following : List Token) : Option TokenPair :=
  (FoldDelimiter.ofOpening? t.kind).bind fun d =>
    (closerIndex? d.toDelimiter 0 (index + 1) following).map fun closer => ⟨d, index, closer⟩

/-- The pairs that tokens open, found by counting, in the order of their opening tokens. -/
def countedPairs (index : Nat) : List Token → List TokenPair
  | [] => []
  | t :: ts => (pairAt? index t ts).toList ++ countedPairs (index + 1) ts

/-- The delimiters of regions are told by the kinds of the tokens that open them. -/
theorem ofOpening?_eq_some_iff {kind : TokenKind} {d : FoldDelimiter} :
    FoldDelimiter.ofOpening? kind = some d ↔ kind = .opening d.toDelimiter := by
  constructor
  · intro h
    unfold FoldDelimiter.ofOpening? at h
    split at h
    · obtain rfl := Option.some.inj h
      rfl
    · obtain rfl := Option.some.inj h
      rfl
    · cases h
  · rintro rfl
    cases d <;> rfl

/-- A token opens a pair of a sort exactly if it is the opening delimiter and counting finds the
closing one. -/
theorem mem_pairAt? {index i j : Nat} {t : Token} {ts : List Token} {d : FoldDelimiter} :
    (⟨d, i, j⟩ : TokenPair) ∈ pairAt? index t ts ↔
      t.kind = .opening d.toDelimiter ∧ i = index ∧
        closerIndex? d.toDelimiter 0 (index + 1) ts = some j := by
  simp only [pairAt?, Option.mem_def, Option.bind_eq_some_iff, Option.map_eq_some_iff,
    TokenPair.mk.injEq, ofOpening?_eq_some_iff]
  constructor
  · rintro ⟨d', hkind, j', hcloser, rfl, rfl, rfl⟩
    exact ⟨hkind, rfl, hcloser⟩
  · rintro ⟨hkind, rfl, hcloser⟩
    exact ⟨d, hkind, j, hcloser, rfl, rfl, rfl⟩

/-- The pass pairs an open position with the delimiter that closes it at its depth in the stack, and
all positions behind it as counting does. -/
theorem mem_stackRun {d : FoldDelimiter} {stack : List Nat} {index i j : Nat} {ts : List Token} :
    (i, j) ∈ stackRun d.toDelimiter stack index ts ↔
      (∃ depth, stack[depth]? = some i ∧ closerIndex? d.toDelimiter depth index ts = some j) ∨
        (⟨d, i, j⟩ : TokenPair) ∈ countedPairs index ts := by
  induction ts generalizing stack index with
  | nil => simp [stackRun, closerIndex?, countedPairs]
  | cons t ts ih =>
    rw [countedPairs, List.mem_append, Option.mem_toList, ← Option.mem_def, mem_pairAt?]
    by_cases hopening : t.kind = .opening d.toDelimiter
    · -- The position becomes the top of the stack, and all others are one deeper.
      have hrun : stackRun d.toDelimiter stack index (t :: ts) =
          stackRun d.toDelimiter (index :: stack) (index + 1) ts := by
        rw [stackRun.eq_def]
        simp only [if_pos hopening]
      rw [hrun, ih]
      simp only [closerIndex?_opening hopening, hopening, true_and]
      constructor
      · rintro (⟨_ | depth, hdepth, hcloser⟩ | hlater)
        · exact .inr (.inl ⟨(Option.some.inj hdepth).symm, hcloser⟩)
        · exact .inl ⟨depth, hdepth, hcloser⟩
        · exact .inr (.inr hlater)
      · rintro (⟨depth, hdepth, hcloser⟩ | ⟨rfl, hcloser⟩ | hlater)
        · exact .inl ⟨depth + 1, hdepth, hcloser⟩
        · exact .inl ⟨0, rfl, hcloser⟩
        · exact .inr hlater
    · by_cases hclosing : t.kind = .closing d.toDelimiter
      · simp only [hopening, false_and, false_or]
        cases stack with
        | nil =>
          rw [stackRun, if_neg hopening, if_pos hclosing, ih]
          simp
        | cons opener stack =>
          -- The top of the stack is paired, and all others are one less deep.
          rw [stackRun, if_neg hopening, if_pos hclosing, List.mem_cons, ih, Prod.mk.injEq]
          constructor
          · rintro (⟨rfl, rfl⟩ | ⟨depth, hdepth, hcloser⟩ | hlater)
            · exact .inl ⟨0, rfl, closerIndex?_closing_zero hclosing⟩
            · exact .inl ⟨depth + 1, hdepth, (closerIndex?_closing_succ hclosing).trans hcloser⟩
            · exact .inr hlater
          · rintro (⟨_ | depth, hdepth, hcloser⟩ | hlater)
            · rw [closerIndex?_closing_zero hclosing] at hcloser
              exact .inl ⟨(Option.some.inj hdepth).symm, (Option.some.inj hcloser).symm⟩
            · rw [closerIndex?_closing_succ hclosing] at hcloser
              exact .inr (.inl ⟨depth, hdepth, hcloser⟩)
            · exact .inr (.inr hlater)
      · have hrun : stackRun d.toDelimiter stack index (t :: ts) =
            stackRun d.toDelimiter stack (index + 1) ts := by
          rw [stackRun.eq_def]
          simp only [if_neg hopening, if_neg hclosing]
        rw [hrun, ih]
        simp only [closerIndex?_other hopening hclosing, hopening, false_and, false_or]

end ElvishOutline

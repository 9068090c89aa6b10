import Mathlib.Order.WellFounded
import ElvishOutline.Proofs.Spans

/-!
# What the check of tokens decides

The contract is about all tokens and all pairs of them, in exact numbers: every token lies inside the
script, and of two tokens the earlier one has ended when the later one starts, however far apart they
stand. The check looks at neighbours only and caps the end of a token at the greatest offset. It
decides the contract all the same, because no token ends before it starts and because a capped end
lies outside every script that is shorter than the greatest offset.

Where the contract is broken, some prefix of the tokens is the shortest that breaks it, and the check
reports the last token of that prefix (`IsFirstBreach`, `Reports`).
-/

namespace ElvishOutline

/-- Tokens that meet the contract with a script of the given length. -/
structure MeetsContract (tokens : List Token) (sourceLength : Nat) : Prop where
  inside : ∀ t ∈ tokens, t.start + t.length ≤ sourceLength
  apart : ∀ (i j : Nat) (t u : Token), i < j → tokens[i]? = some t → tokens[j]? = some u →
    t.start + t.length ≤ u.start

/-- The first position whose token, with those ahead of it, breaks the contract. -/
def IsFirstBreach (tokens : List Token) (sourceLength k : Nat) : Prop :=
  ¬MeetsContract (tokens.take (k + 1)) sourceLength ∧
    ∀ j < k, MeetsContract (tokens.take (j + 1)) sourceLength

/-- What is to be reported about the token at a position: that it reaches past the end of the script,
if it does, and otherwise that the token ahead of it has not ended. -/
inductive Reports (tokens : List Token) (sourceLength k : Nat) : TokenStreamError → Prop
  | outside {t : Token} (htoken : tokens[k]? = some t) (hstop : sourceLength < t.start + t.length) :
    Reports tokens sourceLength k
      (.outOfBounds k t.start (min (t.start + t.length) maxOffset) sourceLength)
  | overlapping {t previous : Token} (htoken : tokens[k]? = some t)
      (hstop : t.start + t.length ≤ sourceLength) (hk : 0 < k)
      (hprevious : tokens[k - 1]? = some previous) :
    Reports tokens sourceLength k (.overlap k t.start (previous.start + previous.length))

section Contract

variable {tokens : List Token} {sourceLength : Nat}

/-- The contract says that each token ends ahead of all behind it and inside the script. -/
theorem meetsContract_iff_inOrder :
    MeetsContract tokens sourceLength ↔
      InOrder tokens ∧ ∀ t ∈ tokens, t.stop ≤ sourceLength := by
  constructor
  · intro h
    refine ⟨List.pairwise_iff_getElem.mpr ?_, h.inside⟩
    intro i j hi hj hij
    exact h.apart i j _ _ hij (List.getElem?_eq_getElem hi) (List.getElem?_eq_getElem hj)
  · intro h
    refine ⟨h.2, ?_⟩
    intro i j t u hij ht hu
    exact h.1.stop_le_start hij ht hu

/-- No tokens meet the contract with any script. -/
theorem meetsContract_nil (sourceLength : Nat) : MeetsContract [] sourceLength := by
  rw [meetsContract_iff_inOrder]
  exact ⟨.nil, List.forall_mem_nil _⟩

/-- In a script shorter than the greatest offset, the capped ends of tokens and the comparison of
neighbours decide the contract. -/
theorem checkTokens_eq_ok_iff (hlength : sourceLength < maxOffset) :
    checkTokens tokens sourceLength = .ok () ↔ MeetsContract tokens sourceLength := by
  rw [meetsContract_iff_inOrder]
  constructor
  · intro hcheck
    have hstops := stop_le_maxOffset_of_checkFrom hlength hcheck
    exact ⟨inOrder_of_checkTokens hcheck hstops, stop_le_of_checkTokens hlength hcheck⟩
  · intro h
    obtain ⟨horder, hinside⟩ := h
    have hstops : ∀ t ∈ tokens, t.stop ≤ maxOffset := by
      intro t ht
      have hstop := hinside t ht
      omega
    exact (checkFrom_eq_ok_iff hstops).mpr ⟨horder, fun t ht => ⟨Nat.zero_le _, hinside t ht⟩⟩

/-- A position has at most one report. -/
theorem Reports.unique {k : Nat} {e e' : TokenStreamError} (h : Reports tokens sourceLength k e)
    (h' : Reports tokens sourceLength k e') : e = e' := by
  cases h with
  | outside htoken hstop =>
    cases h' with
    | outside htoken' =>
      obtain rfl := Option.some.inj (htoken.symm.trans htoken')
      rfl
    | overlapping htoken' hstop' =>
      obtain rfl := Option.some.inj (htoken.symm.trans htoken')
      omega
  | overlapping htoken hstop _ hprevious =>
    cases h' with
    | outside htoken' hstop' =>
      obtain rfl := Option.some.inj (htoken.symm.trans htoken')
      omega
    | overlapping htoken' _ _ hprevious' =>
      obtain rfl := Option.some.inj (htoken.symm.trans htoken')
      obtain rfl := Option.some.inj (hprevious.symm.trans hprevious')
      rfl

end Contract

/-- The end that the check compares with behind a list of tokens: that of the last one. -/
def stopBehind (previousStop : Nat) (ts : List Token) : Nat :=
  (ts.getLast?.map Token.boundedStop).getD previousStop

/-- The end of the first token counts only as long as there is no other one. -/
theorem stopBehind_cons (previousStop : Nat) (t : Token) (ts : List Token) :
    stopBehind previousStop (t :: ts) = stopBehind t.boundedStop ts := by
  rw [stopBehind, stopBehind, List.getLast?_cons]
  cases ts.getLast? <;> rfl

/-- The check of tokens in two parts: the second part is checked behind the last token of the first
one, if that part passes. -/
theorem checkFrom_append (sourceLength index previousStop : Nat) (first second : List Token) :
    checkFrom sourceLength index previousStop (first ++ second) =
      (checkFrom sourceLength index previousStop first >>= fun _ =>
        checkFrom sourceLength (index + first.length) (stopBehind previousStop first) second) := by
  induction first generalizing index previousStop with
  | nil => rfl
  | cons t ts ih =>
    rw [List.cons_append, checkFrom, checkFrom, stopBehind_cons, List.length_cons, ih]
    by_cases hbounds : sourceLength < t.boundedStop
    · rw [if_pos hbounds, if_pos hbounds]
      rfl
    · rw [if_neg hbounds, if_neg hbounds]
      by_cases hoverlap : t.start < previousStop
      · rw [if_pos hoverlap, if_pos hoverlap]
        rfl
      · rw [if_neg hoverlap, if_neg hoverlap, Nat.add_assoc, Nat.add_comm 1]

section Breach

variable {tokens : List Token} {sourceLength k : Nat}

/-- What stands ahead of the first breach meets the contract. -/
theorem IsFirstBreach.meetsContract_take (h : IsFirstBreach tokens sourceLength k) :
    MeetsContract (tokens.take k) sourceLength := by
  cases k with
  | zero => exact meetsContract_nil sourceLength
  | succ j => exact h.2 j (Nat.lt_succ_self j)

/-- There is a token at the first breach. -/
theorem IsFirstBreach.lt_length (h : IsFirstBreach tokens sourceLength k) : k < tokens.length := by
  by_contra hlength
  have hmeets := h.meetsContract_take
  rw [List.take_of_length_le (by omega)] at hmeets
  apply h.1
  rwa [List.take_of_length_le (by omega)]

/-- A list of tokens that breaks the contract has a first breach. -/
theorem exists_isFirstBreach (h : ¬MeetsContract tokens sourceLength) :
    ∃ k, IsFirstBreach tokens sourceLength k := by
  have hbreach : ∃ k, ¬MeetsContract (tokens.take (k + 1)) sourceLength :=
    ⟨tokens.length, by rwa [List.take_of_length_le (Nat.le_succ _)]⟩
  obtain ⟨k, hk, hleast⟩ := WellFounded.has_min Nat.lt_wfRel.wf _ hbreach
  refine ⟨k, hk, fun j hj => ?_⟩
  by_contra hbroken
  exact hleast j hbroken hj

/-- Behind tokens that meet the contract the check goes on with the end of the last one. -/
theorem checkTokens_take_append (hlength : sourceLength < maxOffset) (hk : k < tokens.length)
    (hahead : MeetsContract (tokens.take k) sourceLength) (rest : List Token) :
    checkTokens (tokens.take k ++ rest) sourceLength =
      checkFrom sourceLength k (stopBehind 0 (tokens.take k)) rest := by
  have hpasses : checkFrom sourceLength 0 0 (tokens.take k) = .ok () :=
    (checkTokens_eq_ok_iff hlength).mpr hahead
  rw [checkTokens, checkFrom_append, hpasses, Nat.zero_add, List.length_take_of_le hk.le]
  rfl

/-- What a token can overlap is the token right ahead of it, with its exact end. -/
theorem exists_previous_of_lt_stopBehind (hlength : sourceLength < maxOffset)
    (hk : k < tokens.length) (hahead : MeetsContract (tokens.take k) sourceLength) {start : Nat}
    (hoverlap : start < stopBehind 0 (tokens.take k)) :
    ∃ previous, 0 < k ∧ tokens[k - 1]? = some previous ∧
      stopBehind 0 (tokens.take k) = previous.start + previous.length := by
  cases hlast : (tokens.take k).getLast? with
  | none =>
    rw [stopBehind, hlast] at hoverlap
    exact absurd hoverlap (Nat.not_lt_zero _)
  | some previous =>
    have hinside := hahead.inside previous (List.mem_of_getLast? hlast)
    have hpos : 0 < k := by
      by_contra hzero
      rw [Nat.eq_zero_of_not_pos hzero] at hlast
      cases hlast
    refine ⟨previous, hpos, ?_, ?_⟩
    · rw [List.getLast?_eq_getElem?, List.length_take_of_le hk.le,
        List.getElem?_take_of_lt (by omega)] at hlast
      exact hlast
    · rw [stopBehind, hlast]
      exact Nat.min_eq_left (by rw [Token.stop]; omega)

/-- The check stops at the first breach and reports it. -/
theorem IsFirstBreach.exists_reports (hlength : sourceLength < maxOffset)
    (h : IsFirstBreach tokens sourceLength k) :
    ∃ e, checkTokens tokens sourceLength = .error e ∧ Reports tokens sourceLength k e := by
  have hahead := h.meetsContract_take
  have hk := h.lt_length
  have htoken : tokens[k]? = some tokens[k] := List.getElem?_eq_getElem hk
  have hwhole := checkTokens_take_append hlength hk hahead (tokens.drop k)
  rw [List.take_append_drop, List.drop_eq_getElem_cons hk, checkFrom] at hwhole
  have hcapped : sourceLength < tokens[k].boundedStop ↔ sourceLength < tokens[k].stop := by
    rw [Token.boundedStop]
    omega
  by_cases hbounds : sourceLength < tokens[k].boundedStop
  · rw [if_pos hbounds] at hwhole
    exact ⟨_, hwhole, .outside htoken (hcapped.mp hbounds)⟩
  · rw [if_neg hbounds] at hwhole
    by_cases hoverlap : tokens[k].start < stopBehind 0 (tokens.take k)
    · obtain ⟨previous, hpos, hprevious, hstop⟩ :=
        exists_previous_of_lt_stopBehind hlength hk hahead hoverlap
      rw [if_pos hoverlap, hstop] at hwhole
      exact ⟨_, hwhole, .overlapping htoken (Nat.not_lt.mp (hcapped.not.mp hbounds)) hpos hprevious⟩
    · -- The token passes both tests, so the contract is met up to it.
      have hone := checkTokens_take_append hlength hk hahead [tokens[k]]
      rw [List.take_append_getElem hk, checkFrom, if_neg hbounds, if_neg hoverlap] at hone
      exact absurd ((checkTokens_eq_ok_iff hlength).mp hone) h.1

end Breach

/-- For all tokens and every script shorter than the greatest offset, the check accepts exactly the
tokens that meet the contract in exact numbers. Otherwise it reports the first token that breaks the
contract with those ahead of it, as lying outside if it reaches past the end of the script, and else
as overlapping the token right ahead of it. -/
theorem checkTokens_decides_contract (tokens : List Token) {sourceLength : Nat}
    (hlength : sourceLength < maxOffset) :
    (checkTokens tokens sourceLength = .ok () ↔ MeetsContract tokens sourceLength) ∧
      ∀ e, checkTokens tokens sourceLength = .error e ↔
        ∃ k, IsFirstBreach tokens sourceLength k ∧ Reports tokens sourceLength k e := by
  refine ⟨checkTokens_eq_ok_iff hlength, fun e => ?_⟩
  constructor
  · intro herror
    have hbroken : ¬MeetsContract tokens sourceLength := by
      intro hmeets
      rw [(checkTokens_eq_ok_iff hlength).mpr hmeets] at herror
      cases herror
    obtain ⟨k, hk⟩ := exists_isFirstBreach hbroken
    obtain ⟨e', herror', hreports⟩ := hk.exists_reports hlength
    obtain rfl := Except.error.inj (herror.symm.trans herror')
    exact ⟨k, hk, hreports⟩
  · intro h
    obtain ⟨k, hk, hreports⟩ := h
    obtain ⟨e', herror, hreports'⟩ := hk.exists_reports hlength
    rw [herror, hreports.unique hreports']

/-- A name and an empty token at its end. -/
def nameAndEmpty : List Token := [⟨.identifier, "", 0, 5⟩, ⟨.comma, "", 5, 0⟩]

/-- Behind an empty token a start inside the name is an overlap. With a length that makes the end
greater than all offsets the same start is reported as lying outside, with the greatest offset. -/
theorem contract_decided_behind_nameAndEmpty :
    7 < maxOffset ∧ MeetsContract nameAndEmpty 7 ∧
      (∃ k, IsFirstBreach (nameAndEmpty ++ [⟨.identifier, "", 3, 1⟩]) 7 k ∧
        Reports (nameAndEmpty ++ [⟨.identifier, "", 3, 1⟩]) 7 k (.overlap 2 3 5)) ∧
      ∃ k, IsFirstBreach (nameAndEmpty ++ [⟨.identifier, "", 3, maxOffset⟩]) 7 k ∧
        Reports (nameAndEmpty ++ [⟨.identifier, "", 3, maxOffset⟩]) 7 k
          (.outOfBounds 2 3 maxOffset 7) := by
  have hlength : 7 < maxOffset := by decide
  refine ⟨hlength, ?_, ?_, ?_⟩
  · exact (checkTokens_decides_contract _ hlength).1.mp rfl
  · exact ((checkTokens_decides_contract _ hlength).2 _).mp rfl
  · exact ((checkTokens_decides_contract _ hlength).2 _).mp rfl

end ElvishOutline

import ElvishOutline.Proofs.Totality
import ElvishOutline.Proofs.Partition

/-!
# The names of functions

A statement that starts with the function keyword is a function, and its tokens include those of
everything inside it. The function is named by the first keyword in them that an identifier directly
follows, blanks aside. This is its own name if it has one; a function without a name takes that of the
first named function inside it.

`own_name_iff` gives the exact condition under which the name is the function's own or none.
-/

namespace ElvishOutline

/-- Tokens in which the function keyword stands at a position, with the name right behind it. -/
def NamesAt (ts : List Token) (i : Nat) (name : String) : Prop :=
  ∃ keyword named, ts[i]? = some keyword ∧ ts[i + 1]? = some named ∧
    keyword.kind = .keyword (.block .function) ∧ named.kind = .identifier ∧ named.text = name

/-- The name at the first position that has one. -/
def IsFirstName (ts : List Token) (name : String) : Prop :=
  ∃ i, NamesAt ts i name ∧ ∀ j < i, ∀ other, ¬NamesAt ts j other

/-- The name that the second token is. -/
def IsOwnName (ts : List Token) (name : String) : Prop :=
  ∃ named ∈ ts[1]?, named.kind = .identifier ∧ named.text = name

instance (ts : List Token) (name : String) : Decidable (IsOwnName ts name) :=
  inferInstanceAs (Decidable (∃ named ∈ ts[1]?, _))

section Search

variable {a b : Token} {ts rest : List Token} {name : String}

/-- At the first position, the name is right behind the keyword that starts the tokens. -/
theorem namesAt_cons_zero : NamesAt (a :: ts) 0 name ↔
    a.kind = .keyword (.block .function) ∧
      ∃ named, ts[0]? = some named ∧ named.kind = .identifier ∧ named.text = name := by
  constructor
  · rintro ⟨keyword, named, hkeyword, hnamed, hkind, hidentifier, htext⟩
    obtain rfl := Option.some.inj hkeyword
    exact ⟨hkind, named, hnamed, hidentifier, htext⟩
  · rintro ⟨hkind, named, hnamed, hidentifier, htext⟩
    exact ⟨a, named, rfl, hnamed, hkind, hidentifier, htext⟩

/-- A first token that names no function is passed over. -/
theorem isFirstName_cons (h : ∀ other, ¬NamesAt (a :: ts) 0 other) :
    IsFirstName (a :: ts) name ↔ IsFirstName ts name := by
  constructor
  · rintro ⟨i, hname, hahead⟩
    cases i with
    | zero => exact absurd hname (h name)
    | succ i => exact ⟨i, hname, fun j hj => hahead (j + 1) (Nat.succ_lt_succ hj)⟩
  · rintro ⟨i, hname, hahead⟩
    refine ⟨i + 1, hname, fun j hj => ?_⟩
    cases j with
    | zero => exact h
    | succ j => exact hahead j (Nat.lt_of_succ_lt_succ hj)

/-- No function is named at a first token that is not the keyword, or in front of no identifier. -/
theorem not_namesAt_zero
    (h : ¬(a.kind = .keyword (.block .function) ∧ b.kind = .identifier)) :
    ¬NamesAt (a :: b :: rest) 0 name := by
  intro hname
  obtain ⟨hkind, named, hnamed, hidentifier, -⟩ := namesAt_cons_zero.mp hname
  obtain rfl := Option.some.inj hnamed
  exact h ⟨hkind, hidentifier⟩

/-- A single token names no function. -/
theorem not_namesAt_singleton {i : Nat} : ¬NamesAt [a] i name := by
  rintro ⟨-, named, -, hnamed, -⟩
  cases hnamed

/-- The search takes the first name. -/
theorem firstNamed_eq_some_iff : firstNamed ts = some name ↔ IsFirstName ts name := by
  induction ts with
  | nil =>
    constructor
    · intro h
      cases h
    · rintro ⟨i, ⟨keyword, -, hkeyword, -⟩, -⟩
      cases hkeyword
  | cons a ts ih =>
    cases ts with
    | nil =>
      constructor
      · intro h
        cases h
      · rintro ⟨i, hname, -⟩
        exact absurd hname not_namesAt_singleton
    | cons b rest =>
      rw [firstNamed]
      by_cases hnames : a.kind = .keyword (.block .function) ∧ b.kind = .identifier
      · have hfirst : NamesAt (a :: b :: rest) 0 b.text := ⟨a, b, rfl, rfl, hnames.1, hnames.2, rfl⟩
        rw [if_pos hnames]
        constructor
        · intro h
          obtain rfl := Option.some.inj h
          exact ⟨0, hfirst, fun j hj => absurd hj (Nat.not_lt_zero j)⟩
        · rintro ⟨i, hname, hahead⟩
          cases i with
          | zero =>
            obtain ⟨-, named, hnamed, -, htext⟩ := namesAt_cons_zero.mp hname
            obtain rfl := Option.some.inj hnamed
            rw [htext]
          | succ i =>
            -- No later name is the first one, since there is one right here.
            exact absurd hfirst (hahead 0 (Nat.succ_pos i) b.text)
      · rw [if_neg hnames, ih]
        exact (isFirstName_cons fun _ => not_namesAt_zero hnames).symm

/-- The search finds nothing if there is no name. -/
theorem firstNamed_eq_none_iff : firstNamed ts = none ↔ ∀ i name, ¬NamesAt ts i name := by
  constructor
  · intro hnone i
    -- A least position with a name would have been found.
    induction i using Nat.strong_induction_on with
    | _ i ih =>
      intro name hname
      have hfirst : firstNamed ts = some name := firstNamed_eq_some_iff.mpr ⟨i, hname, ih⟩
      rw [hnone] at hfirst
      cases hfirst
  · intro hnone
    cases hfirst : firstNamed ts with
    | none => rfl
    | some name =>
      obtain ⟨i, hname, -⟩ := firstNamed_eq_some_iff.mp hfirst
      exact absurd hname (hnone i name)

end Search

/-- What is known of the name of a function from the tokens of its statement that are no blanks. -/
structure Landmark.IsNamedIn (l : Landmark) (ts : List Token) : Prop where
  /-- The first token is the function keyword. -/
  keyword_first : ∃ keyword, ts[0]? = some keyword ∧ keyword.kind = .keyword (.block .function)
  /-- The name is the first one behind a function keyword. -/
  name_eq_some_iff : ∀ name, l.name = some name ↔ IsFirstName ts name
  /-- It is the function's own, or there is none, exactly if the second token is a name or there is no
  name at all. -/
  own_name_iff : (∀ name, l.name = some name ↔ IsOwnName ts name) ↔
    (∃ name, IsOwnName ts name) ∨ ∀ i name, ¬NamesAt ts i name
  /-- A name is shown. -/
  shown_of_name : ∀ name, l.name = some name →
    l.label = "fn " ++ name ∧ l.tooltip = "Function: " ++ name
  /-- A function without a name is shown as such. -/
  shown_of_none : l.name = none → l.label = "fn" ∧ l.tooltip = "Anonymous function"

/-- Behind the function keyword, the own name of a function is one at the first position. -/
theorem isOwnName_iff_namesAt {ts : List Token} {name : String}
    (h : ∃ keyword, ts[0]? = some keyword ∧ keyword.kind = .keyword (.block .function)) :
    IsOwnName ts name ↔ NamesAt ts 0 name := by
  obtain ⟨keyword, hkeyword, hkind⟩ := h
  constructor
  · rintro ⟨named, hnamed, hidentifier, htext⟩
    exact ⟨keyword, named, hkeyword, hnamed, hkind, hidentifier, htext⟩
  · rintro ⟨-, named, -, hnamed, -, hidentifier, htext⟩
    exact ⟨named, hnamed, hidentifier, htext⟩

/-- The first name behind the function keyword is the own name of the function, or else none, exactly
if it has one or nothing inside it does. -/
theorem firstNamed_own_iff {ts : List Token}
    (h : ∃ keyword, ts[0]? = some keyword ∧ keyword.kind = .keyword (.block .function)) :
    (∀ name, firstNamed ts = some name ↔ IsOwnName ts name) ↔
      (∃ name, IsOwnName ts name) ∨ ∀ i name, ¬NamesAt ts i name := by
  constructor
  · intro hown
    cases hfirst : firstNamed ts with
    | none => exact .inr (firstNamed_eq_none_iff.mp hfirst)
    | some name => exact .inl ⟨name, (hown name).mp hfirst⟩
  · rintro (⟨name, hname⟩ | hnone) other
    · -- The own name stands ahead of all others.
      have hfirst : firstNamed ts = some name := firstNamed_eq_some_iff.mpr
        ⟨0, (isOwnName_iff_namesAt h).mp hname, fun j hj => absurd hj (Nat.not_lt_zero j)⟩
      constructor
      · intro hother
        rw [← Option.some.inj (hfirst.symm.trans hother)]
        exact hname
      · intro hother
        obtain ⟨named, hnamed, -, rfl⟩ := hname
        obtain ⟨named', hnamed', -, rfl⟩ := hother
        rw [hfirst, Option.some.inj (hnamed.symm.trans hnamed')]
    · rw [firstNamed_eq_none_iff.mpr hnone]
      constructor
      · intro hother
        cases hother
      · intro hother
        exact absurd ((isOwnName_iff_namesAt h).mp hother) (hnone 0 other)

/-- A statement is a block of a kind if its first token other than blanks is the keyword. -/
theorem significant_of_classify {ts : List Token} {b : BlockKind}
    (h : classify ts = some (.block b)) :
    ∃ keyword, (significant ts)[0]? = some keyword ∧ keyword.kind = .keyword (.block b) := by
  unfold classify at h
  split at h
  · cases h
  · next first rest hsignificant =>
    refine ⟨first, by rw [hsignificant]; rfl, ?_⟩
    split at h
    · next b' hkind =>
      obtain rfl := LandmarkKind.block.inj (Option.some.inj h)
      exact hkind
    · split at h
      · cases h
      · cases h
    · cases h

/-- The blanks ahead of a body are all that it lacks of its statement. -/
theorem Statement.significant_tokens {s : Statement} (hs : s.IsWellCut) :
    significant s.tokens = significant s.body := by
  have hleading : s.leading.filter (!·.isTrivia) = [] := by
    refine List.filter_eq_nil_iff.mpr ?_
    intro t ht
    rw [hs.leading t ht]
    exact Bool.false_ne_true
  rw [significant, tokens, List.filter_append, hleading, List.nil_append, significant]

/-- A statement that is a function is named by the tokens that it holds. -/
theorem Statement.isNamedIn_of_landmark? {s : Statement} {l : Landmark} (hs : s.IsWellCut)
    (hlandmark : s.landmark? = some l) (hkind : l.kind = .block .function) :
    l.IsNamedIn (significant s.tokens) := by
  rw [s.significant_tokens hs]
  unfold landmark? landmarkWith? at hlandmark
  split at hlandmark
  · next start stop kind hspan hclass =>
    obtain rfl := Option.some.inj hlandmark
    obtain rfl : kind = .block .function := hkind
    have hkeyword := significant_of_classify hclass
    refine ⟨hkeyword, fun name => firstNamed_eq_some_iff, firstNamed_own_iff hkeyword, ?_, ?_⟩
    · intro name hname
      have hname : functionName s.body = some name := hname
      rw [hname]
      exact ⟨rfl, rfl⟩
    · intro hname
      have hname : functionName s.body = none := hname
      rw [hname]
      exact ⟨rfl, rfl⟩
  · cases hlandmark

/-- Every entry of an outline is the landmark of a statement. -/
theorem exists_statement_of_mem_outline {source : String} {tokens : List Token}
    {options : AnalysisOptions} {e : OutlineEntry}
    (he : e ∈ (analysisOf source tokens options).outline) :
    ∃ s ∈ segment tokens, s.landmark? = some e.landmark := by
  obtain ⟨l, hl, rfl⟩ := List.mem_map.mp he
  exact mem_landmarks.mp hl

/-- Every entry of the outline of a script is the landmark of a statement. A function is named in its
statement by the first identifier right behind a function keyword, which is its own name unless it has
none. -/
theorem functions_named_in_statements (source : String) (options : AnalysisOptions) :
    ∃ a, analyze source options = .ok a ∧
      (∀ e ∈ a.outline, ∃ s ∈ segment (tokenize source), s.landmark? = some e.landmark) ∧
      ∀ e ∈ a.outline, e.landmark.kind = .block .function →
        ∀ s ∈ segment (tokenize source), s.landmark? = some e.landmark →
          e.landmark.IsNamedIn (significant s.tokens) := by
  refine ⟨_, analyze_eq_ok source options, fun e => exists_statement_of_mem_outline, ?_⟩
  intro e _ hkind s hs hlandmark
  exact Statement.isNamedIn_of_landmark? (isWellCut_of_mem_segment hs) hlandmark hkind

/-- A function with a name keeps it, whatever is named inside. -/
theorem named_function_around_another :
    ∃ a e s, analyze "fn f \x7b fn g \x7b \x7d \x7d" {} = .ok a ∧ e ∈ a.outline ∧
      e.landmark.kind = .block .function ∧ s ∈ segment (tokenize "fn f \x7b fn g \x7b \x7d \x7d") ∧
      s.landmark? = some e.landmark ∧ e.landmark.name = some "f" ∧
      e.landmark.IsNamedIn (significant s.tokens) := by
  obtain ⟨a, ha, hstatements, hnamed⟩ :=
    functions_named_in_statements "fn f \x7b fn g \x7b \x7d \x7d" {}
  have hentry : ∃ e ∈ a.outline, e.landmark.kind = .block .function ∧
      e.landmark.name = some "f" := by
    rw [analyze_eq_ok] at ha
    obtain rfl := Except.ok.inj ha
    decide +kernel
  obtain ⟨e, he, hkind, hname⟩ := hentry
  obtain ⟨s, hs, hlandmark⟩ := hstatements e he
  exact ⟨a, e, s, ha, he, hkind, hs, hlandmark, hname, hnamed e he hkind s hs hlandmark⟩

/-- A function without a name takes the name of the function inside it, which is not its own. -/
theorem anonymous_function_around_another :
    ∃ a e s, analyze "fn \x7b fn g \x7b \x7d \x7d" {} = .ok a ∧ e ∈ a.outline ∧
      e.landmark.kind = .block .function ∧ s ∈ segment (tokenize "fn \x7b fn g \x7b \x7d \x7d") ∧
      s.landmark? = some e.landmark ∧ e.landmark.name = some "g" ∧ e.landmark.label = "fn g" ∧
      e.landmark.tooltip = "Function: g" ∧
      ¬(e.landmark.name = some "g" ↔ IsOwnName (significant s.tokens) "g") := by
  have hentry : ∃ e ∈ (analysisOf "fn \x7b fn g \x7b \x7d \x7d"
        (tokenize "fn \x7b fn g \x7b \x7d \x7d") {}).outline,
      e.landmark.kind = .block .function ∧ e.landmark.name = some "g" ∧
        e.landmark.label = "fn g" ∧ e.landmark.tooltip = "Function: g" := by decide +kernel
  have hown : ∀ s ∈ segment (tokenize "fn \x7b fn g \x7b \x7d \x7d"),
      ¬IsOwnName (significant s.tokens) "g" := by decide +kernel
  obtain ⟨e, he, hkind, hname, hlabel, htooltip⟩ := hentry
  obtain ⟨s, hs, hlandmark⟩ := exists_statement_of_mem_outline he
  refine ⟨_, e, s, analyze_eq_ok _ _, he, hkind, hs, hlandmark, hname, hlabel, htooltip, ?_⟩
  intro hiff
  exact hown s hs (hiff.mp hname)

end ElvishOutline

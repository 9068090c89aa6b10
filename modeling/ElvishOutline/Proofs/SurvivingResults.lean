import Mathlib.Tactic.MkIffOfInductiveProp
import ElvishOutline.Data.Schema
import ElvishOutline.Proofs.JsonText

/-!
# Results survive being written

The structured form of a result leaves out the fields that hold nothing, names kinds and contexts in
words, and puts the lines of an outline entry among the fields of its landmark. Reading it gives the
result back nevertheless, and so does reading the JSON text of the form.

Results are made of numbers of 64 bits, and counts by keyword are kept in the order of the keywords.
`IsStorable` says this of each sort of result.
-/

namespace ElvishOutline

/-- A number that 64 bits hold. -/
def IsWord (n : Nat) : Prop := n < Nat.pow 2 64

instance (n : Nat) : Decidable (IsWord n) := inferInstanceAs (Decidable (n < Nat.pow 2 64))

/-- Reading what was written for a result gives it back, from the structured form and from its JSON
text in either layout. -/
def ReadsBack {α : Type} (write : α → Value) (read : Value → Option α) (a : α) : Prop :=
  read (write a) = some a ∧
    ∀ layout, (Json.parse? (Json.print layout (write a))).bind read = some a

/-- A result survives if its structured form can be read and is one that JSON text can hold. -/
structure Survives {α : Type} (write : α → Value) (read : Value → Option α) (a : α) : Prop where
  read_write : read (write a) = some a
  isExact : Json.IsExact (write a)

/-- A result that survives is read back from its JSON text in either layout. -/
theorem Survives.readsBack {α : Type} {write : α → Value} {read : Value → Option α} {a : α}
    (h : Survives write read a) : ReadsBack write read a := by
  refine ⟨h.read_write, fun layout => ?_⟩
  rw [Json.parse?_print layout h.isExact, Option.bind_some, h.read_write]

namespace Value

section Fields

variable (key : String) (fields : List (String × Value))

/-- A record without fields has none to be found. -/
@[simp] theorem field?_nil : (record []).field? key = none := rfl

/-- A field is found under its name, ahead of those behind it. -/
@[simp] theorem field?_cons (k : String) (v : Value) :
    (record ((k, v) :: fields)).field? key =
      if k = key then some v else (record fields).field? key := by
  by_cases h : k = key <;> simp [field?, h]

/-- A field that is written only if there is something to write is found if it was written, and one
behind it otherwise. -/
@[simp] theorem field?_present_append (k : String) (v : Option Value) :
    (record (present k v ++ fields)).field? key =
      if k = key then v.or ((record fields).field? key) else (record fields).field? key := by
  cases v <;> simp [present]

/-- A field that is written only if there is something to write holds what was to be written. -/
@[simp] theorem field?_present (k : String) (v : Option Value) :
    (record (present k v)).field? key = if k = key then v else none := by
  cases v <;> simp [present]

/-- A field that was written only if there was something to write is read back. -/
theorem optional_of_field? {α : Type} {v : Value} {key : String} {write : α → Value}
    {read : Value → Option α} {a : Option α} (hfield : v.field? key = a.map write)
    (hnull : ∀ x, write x ≠ null) (hread : ∀ x ∈ a, read (write x) = some x) :
    v.optional key read = some a := by
  rw [optional, hfield]
  cases a with
  | none => rfl
  | some x => simp [hnull x, hread x rfl]

end Fields

section Leaves

/-- A text is read back from its structured form. -/
@[simp] theorem text?_text (s : String) : (text s).text? = some s := rfl

/-- A truth value is read back from its structured form. -/
@[simp] theorem bool?_bool (b : Bool) : (bool b).bool? = some b := rfl

/-- A name is read as the thing that it names. -/
@[simp] theorem named?_text {α : Type} (ofName? : String → Option α) (s : String) :
    named? ofName? (text s) = ofName? s := rfl

/-- A number of 64 bits is read back from its structured form. -/
theorem nat?_nat {n : Nat} (h : IsWord n) : (nat n).nat? = some n := by
  have hword : n < Nat.pow 2 64 := h
  simp [nat, nat?, hword]

/-- A number is not mistaken for an empty value. -/
theorem nat_ne_null (n : Nat) : nat n ≠ null := Value.noConfusion

end Leaves

/-- A list of results survives if each of them does. -/
theorem survives_list {α : Type} {write : α → Value} {read : Value → Option α} {items : List α}
    (h : ∀ a ∈ items, Survives write read a) :
    Survives (fun items => list (items.map write)) (list? read) items where
  read_write := by
    rw [list?]
    induction items with
    | nil => rfl
    | cons a items ih =>
      obtain ⟨ha, hitems⟩ := List.forall_mem_cons.mp h
      simp [ha.read_write, ih hitems]
  isExact := by
    apply Json.IsExact.list
    intro v hv
    obtain ⟨a, ha, rfl⟩ := List.mem_map.mp hv
    exact (h a ha).isExact

end Value

namespace Json

attribute [simp] IsExact.bool IsExact.text

/-- Fields that JSON text holds as they are. -/
def ExactFields (fields : List (String × Value)) : Prop := ∀ field ∈ fields, IsExact field.2

/-- No fields are held as they are. -/
@[simp] theorem exactFields_nil : ExactFields [] := List.forall_mem_nil _

/-- Fields are held as they are if the first one and those behind it are. -/
@[simp] theorem exactFields_cons {key : String} {v : Value} {fields : List (String × Value)} :
    ExactFields ((key, v) :: fields) ↔ IsExact v ∧ ExactFields fields :=
  List.forall_mem_cons

/-- Fields are held as they are if both parts of them are. -/
@[simp] theorem exactFields_append {xs ys : List (String × Value)} :
    ExactFields (xs ++ ys) ↔ ExactFields xs ∧ ExactFields ys :=
  List.forall_mem_append

/-- A field that is written only if there is something to write is held as it is if that is. -/
@[simp] theorem exactFields_present {key : String} {v : Option Value} :
    ExactFields (Value.present key v) ↔ ∀ given ∈ v, IsExact given := by
  cases v <;> simp [Value.present]

/-- A record is held as it is if its fields are. -/
theorem isExact_record {fields : List (String × Value)} (h : ExactFields fields) :
    IsExact (.record fields) :=
  .record h

end Json

/-- A number of 64 bits is held as it is. -/
theorem IsWord.isExact {n : Nat} (h : IsWord n) : Json.IsExact (.nat n) := .nat h

section Names

/-- The delimiters of regions have different names. -/
theorem FoldDelimiter.ofName?_name (d : FoldDelimiter) : ofName? d.name = some d := by
  cases d <;> decide

/-- The contexts of braces have different names. -/
theorem BraceRole.ofName?_name (context : BraceRole) : ofName? context.name = some context := by
  cases context with
  | block kind => cases kind <;> decide
  | lambda => decide
  | generic => decide

/-- The kinds of landmarks have different names. -/
theorem LandmarkKind.ofName?_name (kind : LandmarkKind) : ofName? kind.name = some kind := by
  cases kind with
  | block kind => cases kind <;> decide
  | lambda => decide

end Names

/-- A fold region whose numbers are of 64 bits. -/
@[mk_iff] structure Fold.IsStorable (fold : Fold) : Prop where
  start : IsWord fold.start
  stop : IsWord fold.stop
  startLine : IsWord fold.startLine
  endLine : IsWord fold.endLine

instance (fold : Fold) : Decidable fold.IsStorable :=
  decidable_of_iff' _ (Fold.isStorable_iff fold)

/-- A storable fold region survives. -/
theorem Fold.IsStorable.survives {fold : Fold} (h : fold.IsStorable) :
    Survives toValue ofValue? fold where
  read_write := by
    have hfield : fold.toValue.field? "context" = fold.context.map fun c => .text c.name := by
      simp [toValue]
    have hread : ∀ c ∈ fold.context, Value.named? BraceRole.ofName? (.text c.name) = some c :=
      fun c _ => BraceRole.ofName?_name c
    have hcontext := Value.optional_of_field? hfield (by simp) hread
    rw [ofValue?, hcontext]
    simp [toValue, Value.required, Value.defaulted, Value.nat?_nat h.start, Value.nat?_nat h.stop,
      Value.nat?_nat h.startLine, Value.nat?_nat h.endLine, FoldDelimiter.ofName?_name]
  isExact := by
    apply Json.isExact_record
    simp [h.start.isExact, h.stop.isExact, h.startLine.isExact, h.endLine.isExact]

/-- A landmark whose offsets are of 64 bits. -/
@[mk_iff] structure Landmark.IsStorable (m : Landmark) : Prop where
  start : IsWord m.start
  stop : IsWord m.stop

instance (m : Landmark) : Decidable m.IsStorable :=
  decidable_of_iff' _ (Landmark.isStorable_iff m)

namespace Landmark.IsStorable

variable {m : Landmark}

/-- The fields of a landmark give it back, whatever follows them, if that has no name. -/
theorem ofValue?_toFields (h : m.IsStorable) {others : List (String × Value)}
    (hothers : (Value.record others).field? "name" = none) :
    ofValue? (.record (m.toFields ++ others)) = some m := by
  have hfield : (Value.record (m.toFields ++ others)).field? "name" = m.name.map .text := by
    simp [toFields, hothers]
  have hname := Value.optional_of_field? hfield (by simp) fun s _ => Value.text?_text s
  rw [ofValue?, hname]
  simp [toFields, Value.required, Value.nat?_nat h.start, Value.nat?_nat h.stop,
    LandmarkKind.ofName?_name]

/-- JSON text holds all fields of a storable landmark as they are. -/
theorem exactFields_toFields (h : m.IsStorable) : Json.ExactFields m.toFields := by
  simp [toFields, h.start.isExact, h.stop.isExact]

/-- A storable landmark survives. -/
theorem survives (h : m.IsStorable) : Survives toValue ofValue? m where
  read_write := by
    have hread := h.ofValue?_toFields (Value.field?_nil "name")
    rwa [List.append_nil] at hread
  isExact := Json.isExact_record h.exactFields_toFields

end Landmark.IsStorable

/-- An outline entry whose numbers are of 64 bits. -/
@[mk_iff] structure OutlineEntry.IsStorable (e : OutlineEntry) : Prop where
  landmark : e.landmark.IsStorable
  startLine : IsWord e.startLine
  endLine : IsWord e.endLine

instance (e : OutlineEntry) : Decidable e.IsStorable :=
  decidable_of_iff' _ (OutlineEntry.isStorable_iff e)

/-- A storable outline entry survives. -/
theorem OutlineEntry.IsStorable.survives {e : OutlineEntry} (h : e.IsStorable) :
    Survives toValue ofValue? e where
  read_write := by
    -- The lines of an entry have names that no field of its landmark has.
    have hlandmark : Landmark.ofValue? e.toValue = some e.landmark :=
      h.landmark.ofValue?_toFields (by simp)
    rw [ofValue?, hlandmark]
    simp [toValue, Landmark.toFields, Value.required, Value.nat?_nat h.startLine,
      Value.nat?_nat h.endLine]
  isExact := by
    apply Json.isExact_record
    simp [h.landmark.exactFields_toFields, h.startLine.isExact, h.endLine.isExact]

/-- A breadcrumb whose numbers are of 64 bits. -/
@[mk_iff] structure Breadcrumb.IsStorable (b : Breadcrumb) : Prop where
  offset : IsWord b.offset
  line : ∀ n ∈ b.line, IsWord n
  column : ∀ n ∈ b.column, IsWord n
  trail : ∀ m ∈ b.trail, m.IsStorable

instance (b : Breadcrumb) : Decidable b.IsStorable :=
  decidable_of_iff' _ (Breadcrumb.isStorable_iff b)

/-- A storable breadcrumb survives. -/
theorem Breadcrumb.IsStorable.survives {b : Breadcrumb} (h : b.IsStorable) :
    Survives toValue ofValue? b := by
  have htrail := Value.survives_list fun m hm => (h.trail m hm).survives
  refine ⟨?_, Json.isExact_record ?_⟩
  · have hlineField : b.toValue.field? "line" = b.line.map .nat := by simp [toValue]
    have hcolumnField : b.toValue.field? "column" = b.column.map .nat := by simp [toValue]
    have hline := Value.optional_of_field? hlineField Value.nat_ne_null
      fun n hn => Value.nat?_nat (h.line n hn)
    have hcolumn := Value.optional_of_field? hcolumnField Value.nat_ne_null
      fun n hn => Value.nat?_nat (h.column n hn)
    rw [ofValue?, hline, hcolumn]
    simp [toValue, Value.required, Value.nat?_nat h.offset, htrail.read_write]
  · have hline : ∀ n ∈ b.line, Json.IsExact (.nat n) := fun n hn => (h.line n hn).isExact
    have hcolumn : ∀ n ∈ b.column, Json.IsExact (.nat n) := fun n hn => (h.column n hn).isExact
    simpa [h.offset.isExact, htrail.isExact] using ⟨hline, hcolumn⟩

/-- Counts that 64 bits hold, with each keyword once and in order. -/
@[mk_iff] structure StatementCounts.IsStorable (s : StatementCounts) : Prop where
  total : IsWord s.total
  classified : IsWord s.classified
  blank : IsWord s.blank
  byKind : ∀ entry ∈ s.byKind, IsWord entry.2
  ordered : s.byKind.Pairwise fun a b => a.1 < b.1

instance (s : StatementCounts) : Decidable s.IsStorable :=
  decidable_of_iff' _ (StatementCounts.isStorable_iff s)

namespace StatementCounts

/-- Counts in the order of their keywords are read back, as sorting leaves them in place. -/
theorem countsOfValue?_record {counts : List (String × Nat)}
    (hwords : ∀ entry ∈ counts, IsWord entry.2)
    (hordered : counts.Pairwise fun a b => a.1 < b.1) :
    countsOfValue? (.record (counts.map fun entry => (entry.1, .nat entry.2))) =
      some counts := by
  have hread : (counts.map fun entry => (entry.1, Value.nat entry.2)).mapM
      (fun field => field.2.nat?.map fun n => (field.1, n)) = some counts := by
    clear hordered
    induction counts with
    | nil => rfl
    | cons entry counts ih =>
      obtain ⟨hentry, hcounts⟩ := List.forall_mem_cons.mp hwords
      simp [Value.nat?_nat hentry, ih hcounts]
  have hsorted : counts.Pairwise fun a b => decide (a.1 ≤ b.1) = true :=
    hordered.imp fun hlt => decide_eq_true (String.not_lt.mp (String.lt_asymm hlt))
  simp only [countsOfValue?]
  rw [hread, Option.bind_eq_bind, Option.bind_some, List.mergeSort_of_pairwise hsorted]
  rfl

/-- Storable counts survive, since those by keyword are in order already. -/
theorem IsStorable.survives {s : StatementCounts} (h : s.IsStorable) :
    Survives toValue ofValue? s where
  read_write := by
    have hcounts : s.toValue.defaulted "by_kind" [] countsOfValue? = some s.byKind := by
      cases hkinds : s.byKind with
      | nil => simp [toValue, Value.defaulted, hkinds]
      | cons entry rest =>
        have hread := countsOfValue?_record h.byKind h.ordered
        rw [hkinds] at hread
        simpa [toValue, Value.defaulted, hkinds] using hread
    rw [ofValue?, hcounts]
    simp [toValue, Value.required, Value.nat?_nat h.total, Value.nat?_nat h.classified,
      Value.nat?_nat h.blank]
  isExact := by
    apply Json.isExact_record
    have hcounts : Json.IsExact
        (.record (s.byKind.map fun entry => (entry.1, .nat entry.2))) := by
      apply Json.isExact_record
      intro field hfield
      obtain ⟨entry, hentry, rfl⟩ := List.mem_map.mp hfield
      exact (h.byKind entry hentry).isExact
    simp [h.total.isExact, h.classified.isExact, h.blank.isExact, hcounts]

end StatementCounts

/-- An analysis whose numbers are of 64 bits. -/
@[mk_iff] structure ScriptAnalysis.IsStorable (a : ScriptAnalysis) : Prop where
  totalLines : IsWord a.totalLines
  tokenCount : IsWord a.tokenCount
  statements : a.statements.IsStorable
  outline : ∀ e ∈ a.outline, e.IsStorable
  folds : ∀ fold ∈ a.folds, fold.IsStorable

instance (a : ScriptAnalysis) : Decidable a.IsStorable :=
  decidable_of_iff' _ (ScriptAnalysis.isStorable_iff a)

/-- A storable analysis survives, with its outline and its regions. -/
theorem ScriptAnalysis.IsStorable.survives {a : ScriptAnalysis} (h : a.IsStorable) :
    Survives toValue ofValue? a := by
  have houtline := Value.survives_list fun e he => (h.outline e he).survives
  have hfolds := Value.survives_list fun fold hfold => (h.folds fold hfold).survives
  have hfield : a.toValue.field? "absolute_path" = a.absolutePath.map .text := by simp [toValue]
  have hpath := Value.optional_of_field? hfield (by simp) fun s _ => Value.text?_text s
  refine ⟨?_, Json.isExact_record ?_⟩
  · rw [ofValue?, hpath]
    simp [toValue, Value.required, Value.nat?_nat h.totalLines, Value.nat?_nat h.tokenCount,
      h.statements.survives.read_write, houtline.read_write, hfolds.read_write]
  · simp [h.totalLines.isExact, h.tokenCount.isExact, h.statements.survives.isExact,
      houtline.isExact, hfolds.isExact]

/-- Analyses, breadcrumbs and lists of fold regions are read back as they were written. A field that
holds nothing is left out, and only such a field is. -/
theorem results_read_back {a : ScriptAnalysis} (ha : a.IsStorable) {b : Breadcrumb}
    (hb : b.IsStorable) {folds : List Fold} (hfolds : ∀ fold ∈ folds, fold.IsStorable) :
    (ReadsBack ScriptAnalysis.toValue ScriptAnalysis.ofValue? a ∧
      ReadsBack Breadcrumb.toValue Breadcrumb.ofValue? b ∧
      ReadsBack (fun folds => .list (folds.map Fold.toValue)) (Value.list? Fold.ofValue?) folds) ∧
    (a.toValue.field? "absolute_path" = none ↔ a.absolutePath = none) ∧
    (a.statements.toValue.field? "by_kind" = none ↔ a.statements.byKind = []) ∧
    (∀ e ∈ a.outline, e.toValue.field? "name" = none ↔ e.landmark.name = none) ∧
    (b.toValue.field? "line" = none ↔ b.line = none) ∧
    (b.toValue.field? "column" = none ↔ b.column = none) ∧
    (∀ m ∈ b.trail, m.toValue.field? "name" = none ↔ m.name = none) ∧
    (∀ fold ∈ folds, fold.toValue.field? "context" = none ↔ fold.context = none) := by
  have hread := Value.survives_list fun fold hfold => (hfolds fold hfold).survives
  refine ⟨⟨ha.survives.readsBack, hb.survives.readsBack, hread.readsBack⟩, ?_⟩
  simp [ScriptAnalysis.toValue, StatementCounts.toValue, OutlineEntry.toValue, Breadcrumb.toValue,
    Landmark.toValue, Landmark.toFields, Fold.toValue]

section Limits

/-- A landmark at the last offset, whose name has a quote, a line feed and a control character. -/
def lastLandmark : Landmark where
  kind := .block .function
  name := some "a\"\\b\n\u0001é"
  label := ""
  tooltip := "fn"
  start := 0
  stop := 18446744073709551615

/-- A fold region with a context, and without a text to show for it. -/
def lastFold : Fold where
  start := 3
  stop := 18446744073709551615
  startLine := 0
  endLine := 1
  group := "brace-0"
  placeholder := ""
  delimiter := .brace
  context := some (.block .elifBlock)
  collapsed := true

/-- A breadcrumb with a line and no column, over two landmarks of which one has no name. -/
def lastBreadcrumb : Breadcrumb where
  offset := 7
  line := some 0
  trail := [lastLandmark, { lastLandmark with kind := .lambda, name := none }]

/-- An analysis without an absolute path. -/
def lastAnalysis : ScriptAnalysis where
  path := "a/é.elv"
  totalLines := 2
  tokenCount := 9
  statements := ⟨3, 2, 1, [("fn", 18446744073709551615), ("λ", 1)]⟩
  outline := [⟨lastLandmark, 1, 2⟩]
  folds := [lastFold, { lastFold with delimiter := .bracket, context := none }]

/-- Results with the last number of 64 bits and with a name that needs escapes are read back. -/
theorem results_read_back_at_last_word :
    (lastAnalysis.IsStorable ∧ lastBreadcrumb.IsStorable) ∧
    ReadsBack ScriptAnalysis.toValue ScriptAnalysis.ofValue? lastAnalysis ∧
    ReadsBack Breadcrumb.toValue Breadcrumb.ofValue? lastBreadcrumb ∧
    ReadsBack (fun folds => .list (folds.map Fold.toValue)) (Value.list? Fold.ofValue?)
      lastAnalysis.folds := by
  have ha : lastAnalysis.IsStorable := by decide
  have hb : lastBreadcrumb.IsStorable := by decide
  exact ⟨⟨ha, hb⟩, (results_read_back ha hb ha.folds).1⟩

end Limits

end ElvishOutline

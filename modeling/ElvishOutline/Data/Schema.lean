import ElvishOutline.Data.Value
import ElvishOutline.Survey

/-!
# Results as structured values

Every result has one structured form, with a fixed order of fields. Fields that hold nothing are
left out. Reading accepts what writing produces and more: unknown fields are passed over, a field
that may hold nothing may be missing or null, and offsets and counts must be integers of 64 bits.
-/

namespace ElvishOutline

namespace Value

/-- An integer of 64 bits without sign. -/
def nat? : Value → Option Nat
  | integer n => if 0 ≤ n ∧ n.toNat < Nat.pow 2 64 then some n.toNat else none
  | _ => none

/-- A number of either sort. -/
def real? : Value → Option Binary64
  | real x => some x
  | integer n => some (.ofInt n)
  | _ => none

/-- A truth value. -/
def bool? : Value → Option Bool
  | bool b => some b
  | _ => none

/-- A string. -/
def text? : Value → Option String
  | text s => some s
  | _ => none

/-- A list whose items all can be read. -/
def list? {α : Type} (read : Value → Option α) : Value → Option (List α)
  | list items => items.mapM read
  | _ => none

/-- A string that names something. -/
def named? {α : Type} (ofName? : String → Option α) (v : Value) : Option α :=
  v.text?.bind ofName?

/-- A field that must be there. -/
def required {α : Type} (v : Value) (key : String) (read : Value → Option α) : Option α :=
  (v.field? key).bind read

/-- A field that may be missing or null. -/
def optional {α : Type} (v : Value) (key : String) (read : Value → Option α) :
    Option (Option α) :=
  match v.field? key with
  | none => some none
  | some null => some none
  | some given => (read given).map some

/-- A field that has a default when it is missing. -/
def defaulted {α : Type} (v : Value) (key : String) (default : α) (read : Value → Option α) :
    Option α :=
  match v.field? key with
  | none => some default
  | some given => read given

/-- A field that is written only if there is something to write. -/
def present (key : String) : Option Value → List (String × Value)
  | none => []
  | some v => [(key, v)]

end Value

open Value (nat present)

namespace Fold

/-- The structured form of a fold region. -/
def toValue (fold : Fold) : Value :=
  .record <|
    [("start_offset", nat fold.start),
      ("end_offset", nat fold.stop),
      ("start_line", nat fold.startLine),
      ("end_line", nat fold.endLine),
      ("group_id", .text fold.group),
      ("placeholder", .text fold.placeholder),
      ("delimiter", .text fold.delimiter.name)] ++
    present "context" (fold.context.map fun c => .text c.name) ++
    [("collapsed_by_default", .bool fold.collapsed)]

/-- The fold region of a structured form. -/
def ofValue? (v : Value) : Option Fold := do
  return {
    start := ← v.required "start_offset" Value.nat?
    stop := ← v.required "end_offset" Value.nat?
    startLine := ← v.required "start_line" Value.nat?
    endLine := ← v.required "end_line" Value.nat?
    group := ← v.required "group_id" Value.text?
    placeholder := ← v.required "placeholder" Value.text?
    delimiter := ← v.required "delimiter" (Value.named? FoldDelimiter.ofName?)
    context := ← v.optional "context" (Value.named? BraceRole.ofName?)
    collapsed := ← v.defaulted "collapsed_by_default" false Value.bool? }

end Fold

namespace Landmark

/-- The fields of a landmark. -/
def toFields (m : Landmark) : List (String × Value) :=
  [("kind", .text m.kind.name)] ++ present "name" (m.name.map .text) ++
    [("label", .text m.label),
      ("tooltip", .text m.tooltip),
      ("start_offset", nat m.start),
      ("end_offset", nat m.stop)]

/-- The structured form of a landmark. -/
def toValue (m : Landmark) : Value := .record m.toFields

/-- The landmark of a structured form. -/
def ofValue? (v : Value) : Option Landmark := do
  return {
    kind := ← v.required "kind" (Value.named? LandmarkKind.ofName?)
    name := ← v.optional "name" Value.text?
    label := ← v.required "label" Value.text?
    tooltip := ← v.required "tooltip" Value.text?
    start := ← v.required "start_offset" Value.nat?
    stop := ← v.required "end_offset" Value.nat? }

end Landmark

namespace OutlineEntry

/-- The structured form of an outline entry: the fields of its landmark, and its lines. -/
def toValue (e : OutlineEntry) : Value :=
  .record <| e.landmark.toFields ++
    [("start_line", nat e.startLine), ("end_line", nat e.endLine)]

/-- The outline entry of a structured form. -/
def ofValue? (v : Value) : Option OutlineEntry := do
  return {
    landmark := ← Landmark.ofValue? v
    startLine := ← v.required "start_line" Value.nat?
    endLine := ← v.required "end_line" Value.nat? }

end OutlineEntry

namespace Breadcrumb

/-- The structured form of a breadcrumb. -/
def toValue (b : Breadcrumb) : Value :=
  .record <|
    [("byte_offset", nat b.offset)] ++ present "line" (b.line.map nat) ++
    present "column" (b.column.map nat) ++
    [("components", .list (b.trail.map Landmark.toValue))]

/-- The breadcrumb of a structured form. -/
def ofValue? (v : Value) : Option Breadcrumb := do
  return {
    offset := ← v.required "byte_offset" Value.nat?
    line := ← v.optional "line" Value.nat?
    column := ← v.optional "column" Value.nat?
    trail := ← v.required "components" (Value.list? Landmark.ofValue?) }

end Breadcrumb

namespace StatementCounts

/-- The structured form of the counts of statements. -/
def toValue (s : StatementCounts) : Value :=
  .record <|
    [("total", nat s.total),
      ("classified", nat s.classified),
      ("trivia_only", nat s.blank)] ++
    present "by_kind"
      (if s.byKind.isEmpty then none
       else some (.record (s.byKind.map fun (keyword, count) => (keyword, nat count))))

/-- Counts by keyword, brought into the order of the keywords. -/
def countsOfValue? : Value → Option (List (String × Nat))
  | .record fields => do
    let counts ← fields.mapM fun (key, v) => v.nat?.map fun n => (key, n)
    return counts.mergeSort fun a b => a.1 ≤ b.1
  | _ => none

/-- The counts of statements of a structured form. -/
def ofValue? (v : Value) : Option StatementCounts := do
  return {
    total := ← v.required "total" Value.nat?
    classified := ← v.required "classified" Value.nat?
    blank := ← v.required "trivia_only" Value.nat?
    byKind := ← v.defaulted "by_kind" [] countsOfValue? }

end StatementCounts

namespace ScriptAnalysis

/-- The structured form of an analysis. -/
def toValue (a : ScriptAnalysis) : Value :=
  .record <|
    [("path", .text a.path)] ++ present "absolute_path" (a.absolutePath.map .text) ++
    [("total_lines", nat a.totalLines),
      ("token_count", nat a.tokenCount),
      ("statements", a.statements.toValue),
      ("outline", .list (a.outline.map OutlineEntry.toValue)),
      ("folds", .list (a.folds.map Fold.toValue))]

/-- The analysis of a structured form. -/
def ofValue? (v : Value) : Option ScriptAnalysis := do
  return {
    path := ← v.required "path" Value.text?
    absolutePath := ← v.optional "absolute_path" Value.text?
    totalLines := ← v.required "total_lines" Value.nat?
    tokenCount := ← v.required "token_count" Value.nat?
    statements := ← v.required "statements" StatementCounts.ofValue?
    outline := ← v.required "outline" (Value.list? OutlineEntry.ofValue?)
    folds := ← v.required "folds" (Value.list? Fold.ofValue?) }

end ScriptAnalysis

namespace SurveyStats

/-- The structured form of the sums of a survey. -/
def toValue (s : SurveyStats) : Value :=
  .record
    [("total_files", nat s.files),
      ("total_lines", nat s.lines),
      ("total_tokens", nat s.tokens),
      ("total_statements", nat s.statements),
      ("total_outline_entries", nat s.outlineEntries),
      ("total_folds", nat s.folds),
      ("brace_folds", nat s.braceFolds),
      ("bracket_folds", nat s.bracketFolds),
      ("skipped_files", nat s.skipped)]

/-- The sums of a structured form. -/
def ofValue? (v : Value) : Option SurveyStats := do
  return {
    files := ← v.required "total_files" Value.nat?
    lines := ← v.required "total_lines" Value.nat?
    tokens := ← v.required "total_tokens" Value.nat?
    statements := ← v.required "total_statements" Value.nat?
    outlineEntries := ← v.required "total_outline_entries" Value.nat?
    folds := ← v.required "total_folds" Value.nat?
    braceFolds := ← v.required "brace_folds" Value.nat?
    bracketFolds := ← v.required "bracket_folds" Value.nat?
    skipped := ← v.required "skipped_files" Value.nat? }

end SurveyStats

namespace SurveyMetadata

/-- The structured form of how a scan went. -/
def toValue (m : SurveyMetadata) : Value :=
  .record
    [("scan_duration_ms", nat m.durationMs),
      ("files_per_second", .real m.filesPerSecond),
      ("timestamp", .text m.timestamp),
      ("tool_version", .text m.toolVersion)]

/-- How a scan went, from a structured form. -/
def ofValue? (v : Value) : Option SurveyMetadata := do
  return {
    durationMs := ← v.required "scan_duration_ms" Value.nat?
    filesPerSecond := ← v.required "files_per_second" Value.real?
    timestamp := ← v.required "timestamp" Value.text?
    toolVersion := ← v.required "tool_version" Value.text? }

end SurveyMetadata

namespace Survey

/-- The structured form of a survey. -/
def toValue (s : Survey) : Value :=
  .record
    [("root", .text s.root),
      ("files", .list (s.files.map ScriptAnalysis.toValue)),
      ("stats", s.stats.toValue),
      ("metadata", s.metadata.toValue)]

/-- The survey of a structured form. -/
def ofValue? (v : Value) : Option Survey := do
  return {
    root := ← v.required "root" Value.text?
    files := ← v.required "files" (Value.list? ScriptAnalysis.ofValue?)
    stats := ← v.required "stats" SurveyStats.ofValue?
    metadata := ← v.required "metadata" SurveyMetadata.ofValue? }

end Survey

end ElvishOutline

import ElvishOutline.Landmark
import ElvishOutline.Text.Lines
import ElvishOutline.Token.Lexer

/-!
# Breadcrumbs

A breadcrumb says which landmark holds the cursor. The statement whose bytes hold the offset
decides; where there is none, a statement that ends at the offset does. Statements do not nest, so
a trail found in a script has at most one landmark.
-/

namespace ElvishOutline

/-- The landmarks around an offset, with the cursor that asked for it, if one did. -/
structure Breadcrumb where
  offset : Nat
  line : Option Nat := none
  column : Option Nat := none
  trail : List Landmark
  deriving DecidableEq, Repr

/-- The statement that an offset belongs to. -/
def statementAt? (statements : List Statement) (offset : Nat) : Option Statement :=
  let covers (s : Statement) : Bool :=
    s.span?.any fun (start, stop) => start ≤ offset && offset < stop
  let ends (s : Statement) : Bool := s.span?.any fun (_, stop) => stop = offset
  (statements.find? covers).or (statements.find? ends)

namespace Breadcrumb

/-- The breadcrumb of an offset. -/
def atOffset (statements : List Statement) (offset : Nat) : Breadcrumb where
  offset
  trail := ((statementAt? statements offset).bind Statement.landmark?).toList

/-- The breadcrumb of a cursor in a script: a line counted from one, a column from zero. -/
def atCursor (source : String) (line column : Nat) : Breadcrumb :=
  let offset := (Text.LineTable.ofText source.toList).offsetOf line column
  { atOffset (segment (tokenize source)) offset with line := some line, column := some column }

/-- The labels from the outside in. -/
def path (b : Breadcrumb) : String :=
  " > ".intercalate (b.trail.map (·.label))

/-- The label of the innermost landmark. -/
def current? (b : Breadcrumb) : Option String :=
  b.trail.getLast?.map (·.label)

end Breadcrumb

end ElvishOutline

import ElvishOutline.Statement

/-!
# Landmarks

Some statements are landmarks for navigation: functions, conditionals, loops, exception blocks and
lambdas. The first token that is no blank decides; a brace starts a lambda only if a pipe follows
it. A landmark has a label and a tooltip, and a function also its name.
-/

namespace ElvishOutline

/-- What a statement is, if it is a landmark. -/
inductive LandmarkKind where
  | block (kind : BlockKind)
  | lambda
  deriving DecidableEq, Repr

namespace LandmarkKind

/-- All kinds. -/
def all : List LandmarkKind := BlockKind.all.map block ++ [lambda]

/-- The written name of the kind. -/
def name : LandmarkKind → String
  | block .function => "function"
  | block b => b.word
  | lambda => "lambda"

/-- The kind with the given name. -/
def ofName? (text : String) : Option LandmarkKind :=
  all.find? (·.name == text)

/-- The keyword that stands for the kind; lambdas have none and are shown as a letter. -/
def keyword : LandmarkKind → String
  | block b => b.word
  | lambda => "λ"

/-- The label of a landmark: its keyword, and the name of a function. -/
def label (kind : LandmarkKind) (functionName : Option String) : String :=
  match kind, functionName with
  | block .function, some name => "fn " ++ name
  | _, _ => kind.keyword

/-- The text shown when pointing at a landmark. -/
def tooltip (kind : LandmarkKind) (functionName : Option String) : String :=
  match kind with
  | block .function =>
    match functionName with
    | some name => "Function: " ++ name
    | none => "Anonymous function"
  | block .ifBlock => "If block"
  | block .elifBlock => "Elif block"
  | block .elseBlock => "Else block"
  | block .forLoop => "For loop"
  | block .whileLoop => "While loop"
  | block .tryBlock => "Try block"
  | block .catchBlock => "Catch block"
  | block .finallyBlock => "Finally block"
  | lambda => "Lambda expression"

end LandmarkKind

/-- The tokens that are no blanks. -/
def significant (tokens : List Token) : List Token :=
  tokens.filter (!·.isTrivia)

/-- What the tokens of a statement make it. -/
def classify (tokens : List Token) : Option LandmarkKind :=
  match significant tokens with
  | [] => none
  | first :: rest =>
    match first.kind with
    | .keyword (.block b) => some (.block b)
    | .opening .brace =>
      if rest.head?.map (·.kind) = some (.operator .pipe) then some .lambda else none
    | _ => none

/-- The first identifier that directly follows the function keyword, among tokens that are no
blanks. -/
def firstNamed : List Token → Option String
  | a :: b :: rest =>
    if a.kind = .keyword (.block .function) ∧ b.kind = .identifier then some b.text
    else firstNamed (b :: rest)
  | _ => none

/-- The name of the first function that the tokens name. -/
def functionName (tokens : List Token) : Option String :=
  firstNamed (significant tokens)

/-- A statement that is worth navigating to, with the bytes that it covers. -/
structure Landmark where
  kind : LandmarkKind
  name : Option String
  label : String
  tooltip : String
  start : Nat
  stop : Nat
  deriving DecidableEq, Repr

/-- The landmark that a statement is, with the ends of tokens as the function gives them. -/
def Statement.landmarkWith? (ends : Token → Nat) (s : Statement) : Option Landmark :=
  match s.spanWith? ends, classify s.body with
  | some (start, stop), some kind =>
    let named := functionName s.body
    some {
      kind
      name := if kind = .block .function then named else none
      label := kind.label named
      tooltip := kind.tooltip named
      start
      stop }
  | _, _ => none

/-- The landmark that a statement is. -/
def Statement.landmark? (s : Statement) : Option Landmark := s.landmarkWith? Token.stop

/-- The landmarks of a script, in order, with the ends of tokens as the function gives them. -/
def landmarksWith (ends : Token → Nat) (statements : List Statement) : List Landmark :=
  statements.filterMap (Statement.landmarkWith? ends)

/-- The landmarks of a script, in order. -/
def landmarks (statements : List Statement) : List Landmark :=
  landmarksWith Token.stop statements

/-- The landmarks of a script are those of its statements, one by one. -/
theorem landmarks_eq_filterMap (statements : List Statement) :
    landmarks statements = statements.filterMap Statement.landmark? := rfl

/-- A landmark of a script is that of one of its statements. -/
theorem mem_landmarks {statements : List Statement} {l : Landmark} :
    l ∈ landmarks statements ↔ ∃ s ∈ statements, s.landmark? = some l := List.mem_filterMap

end ElvishOutline

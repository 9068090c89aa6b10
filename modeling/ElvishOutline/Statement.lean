import ElvishOutline.Token

/-!
# Statements

A statement is the run of tokens up to a line end or semicolon that stands outside all delimiters,
together with the blanks ahead of it. Blanks at the end of a script form a statement without a
body. Closing delimiters without an opening one are ignored: the counts of open delimiters never
fall below zero.

`segment_tokens` says that the statements split the tokens and lose none.
-/

namespace ElvishOutline

/-- How many delimiters of each pair are open. -/
structure Depth where
  brace : Nat := 0
  bracket : Nat := 0
  paren : Nat := 0
  deriving DecidableEq, Repr

namespace Depth

/-- Opens one delimiter. -/
def enter (d : Depth) : Delimiter → Depth
  | .brace => { d with brace := d.brace + 1 }
  | .bracket => { d with bracket := d.bracket + 1 }
  | .paren => { d with paren := d.paren + 1 }

/-- Closes one delimiter, if one is open. -/
def leave (d : Depth) : Delimiter → Depth
  | .brace => { d with brace := d.brace - 1 }
  | .bracket => { d with bracket := d.bracket - 1 }
  | .paren => { d with paren := d.paren - 1 }

/-- The depth after a token. -/
def step (d : Depth) (t : Token) : Depth :=
  match t.kind with
  | .opening pair => d.enter pair
  | .closing pair => d.leave pair
  | _ => d

/-- Whether nothing is open. -/
def isZero (d : Depth) : Bool := d = {}

end Depth

/-- The blanks ahead of a statement, and its tokens from the first that is no blank. -/
structure Statement where
  leading : List Token
  body : List Token
  deriving DecidableEq, Repr

namespace Statement

/-- All tokens of the statement. -/
def tokens (s : Statement) : List Token := s.leading ++ s.body

/-- Whether the statement holds blanks only. -/
def isBlank (s : Statement) : Bool := s.body.isEmpty

/-- The bytes from the first token of the body to the end of the last, with the ends of tokens as the
function gives them. -/
def spanWith? (ends : Token → Nat) (s : Statement) : Option (Nat × Nat) :=
  match s.body.head?, s.body.getLast? with
  | some first, some last => some (first.start, ends last)
  | _, _ => none

/-- The bytes from the first token of the body to the end of the last. -/
def span? (s : Statement) : Option (Nat × Nat) := s.spanWith? Token.stop

end Statement

/-- Splits off the body of a statement that has the given depth open. -/
def takeBody (depth : Depth) : List Token → List Token × List Token
  | [] => ([], [])
  | t :: ts =>
    if t.isTerminator && (depth.step t).isZero then ([t], ts)
    else
      let (body, rest) := takeBody (depth.step t) ts
      (t :: body, rest)

/-- A body and what is left behind it are the tokens it is taken from. -/
theorem takeBody_append (depth : Depth) (ts : List Token) :
    (takeBody depth ts).1 ++ (takeBody depth ts).2 = ts := by
  fun_induction takeBody depth ts <;> simp_all

/-- A body takes a token if there is one. -/
theorem length_takeBody_snd_lt (depth : Depth) (t : Token) (ts : List Token) :
    (takeBody depth (t :: ts)).2.length < (t :: ts).length := by
  have whole := congrArg List.length (takeBody_append depth (t :: ts))
  have taken : 0 < (takeBody depth (t :: ts)).1.length := by
    unfold takeBody
    split <;> simp
  simp only [List.length_append] at whole
  omega

/-- What follows the first statement. -/
def afterStatement (tokens : List Token) : List Token :=
  (takeBody {} (tokens.dropWhile Token.isTrivia)).2

/-- The first statement of the tokens. -/
def firstStatement (tokens : List Token) : Statement :=
  ⟨tokens.takeWhile Token.isTrivia, (takeBody {} (tokens.dropWhile Token.isTrivia)).1⟩

/-- The first statement and what stands behind it are all tokens. -/
theorem firstStatement_append (tokens : List Token) :
    (firstStatement tokens).tokens ++ afterStatement tokens = tokens := by
  simp [firstStatement, afterStatement, Statement.tokens, takeBody_append]

/-- A statement takes at least one token, so cutting off one after the other comes to an end. -/
theorem length_afterStatement_lt (t : Token) (ts : List Token) :
    (afterStatement (t :: ts)).length < (t :: ts).length := by
  unfold afterStatement
  have suffix : ((t :: ts).dropWhile Token.isTrivia).length ≤ (t :: ts).length :=
    (List.dropWhile_suffix _).length_le
  cases h : (t :: ts).dropWhile Token.isTrivia with
  | nil => simp [takeBody]
  | cons u us =>
    rw [h] at suffix
    exact Nat.lt_of_lt_of_le (length_takeBody_snd_lt {} u us) suffix

/-- The statements of a list of tokens. -/
def segment (tokens : List Token) : List Statement :=
  match tokens with
  | [] => []
  | t :: ts => firstStatement (t :: ts) :: segment (afterStatement (t :: ts))
termination_by tokens.length
decreasing_by exact length_afterStatement_lt t ts

/-- The statements hold all tokens, in order. -/
theorem segment_tokens (tokens : List Token) :
    (segment tokens).flatMap Statement.tokens = tokens := by
  fun_induction segment tokens with
  | case1 => rfl
  | case2 t ts ih =>
    rw [List.flatMap_cons, ih]
    exact firstStatement_append (t :: ts)

/-- Where a statement stands in the list of all tokens: its first token, the first of its body, and
the token after its last. -/
structure StatementRange where
  start : Nat
  bodyStart : Nat
  stop : Nat
  deriving DecidableEq, Repr

/-- The positions of consecutive statements, the first of which starts at `start`. -/
def rangesFrom (start : Nat) : List Statement → List StatementRange
  | [] => []
  | s :: rest =>
    let bodyStart := start + s.leading.length
    let stop := bodyStart + s.body.length
    ⟨start, bodyStart, stop⟩ :: rangesFrom stop rest

end ElvishOutline

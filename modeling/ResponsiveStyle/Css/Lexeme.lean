/-
# Lexemes of style sheets

A style sheet is cut into lexemes from left to right. `scan` says what the lexeme at the front is
and how many characters it has behind its first one, so every step makes progress and the texts of
the lexemes join to the text that was cut (`flatten_lexemes`).
-/
import ResponsiveStyle.Css.Name
import ResponsiveStyle.Text.Blank

namespace ResponsiveStyle.Css

/-! ## Tokens -/

/-- The three kinds of blocks. A function opens a block of parentheses. -/
inductive Block
  | paren
  | bracket
  | brace
  deriving DecidableEq, Repr

/-- What a lexeme is, as far as declarations go. -/
inductive Token
  | ident
  | atKeyword
  | opens (block : Block)
  | closes (block : Block)
  | colon
  | semicolon
  | blank
  | other
  deriving DecidableEq, Repr

/-- A token with its text. -/
structure Lexeme where
  token : Token
  text : List Char
  deriving DecidableEq, Repr

/-! ## How far tokens reach -/

/-- How far a quoted text reaches behind its first quote. A bare line end breaks it off. -/
def quotedLength (quote : Char) : List Char → Nat
  | [] => 0
  | c :: cs =>
    if c == quote then 1
    else if isNewline c then 0
    else if c == '\\' then
      let n := if isEscapable cs then escapeLength cs else spaceLength cs
      1 + n + quotedLength quote (cs.drop n)
    else 1 + quotedLength quote cs
termination_by cs => cs.length
decreasing_by all_goals simp only [List.length_cons, List.length_drop]; omega

/-- How far a comment reaches behind its opening. -/
def commentLength : List Char → Nat
  | [] => 0
  | '*' :: '/' :: _ => 2
  | _ :: cs => 1 + commentLength cs

/-- How far a broken address reaches: to the next closing parenthesis that is not escaped. -/
def brokenUrlLength : List Char → Nat
  | [] => 0
  | ')' :: _ => 1
  | '\\' :: ')' :: cs => 2 + brokenUrlLength cs
  | '\\' :: '\\' :: cs => 2 + brokenUrlLength cs
  | _ :: cs => 1 + brokenUrlLength cs

/-- How far an address reaches behind the blanks that end it. -/
def urlEndLength : List Char → Nat
  | [] => 0
  | c :: cs =>
    if c == ')' then 1
    else if isSpace c then 1 + urlEndLength cs
    else 1 + brokenUrlLength cs

/-- The characters that break an address. -/
def breaksUrl (c : Char) : Bool :=
  (1 ≤ c.toNat && c.toNat ≤ 8) || c.toNat == 0xB || (0xE ≤ c.toNat && c.toNat ≤ 0x1F)
    || c.toNat == 0x7F || c == '"' || c == '\'' || c == '('

/-- How far an address reaches from its first character. -/
def urlBodyLength : List Char → Nat
  | [] => 0
  | c :: cs =>
    if isSpace c then 1 + urlEndLength cs
    else if c == ')' then 1
    else if breaksUrl c then 1 + brokenUrlLength cs
    else if c == '\\' then
      if isEscapable cs then 1 + escapeLength cs + urlBodyLength (cs.drop (escapeLength cs))
      else 1 + brokenUrlLength cs
    else 1 + urlBodyLength cs
termination_by cs => cs.length
decreasing_by all_goals simp only [List.length_cons, List.length_drop]; omega

/-- How far an address without quotes reaches behind `url(`; with quotes it is a function. -/
def urlLength? (cs : List Char) : Option Nat :=
  let blanks := (cs.takeWhile isSpace).length
  match cs.drop blanks with
  | [] => some blanks
  | c :: rest => if c == '"' || c == '\'' then none else some (blanks + urlBodyLength (c :: rest))

/-- How far a run of digits reaches. -/
def digitsLength (cs : List Char) : Nat := (cs.takeWhile Char.isDigit).length

/-- How far a point with digits behind it reaches. -/
def fractionLength : List Char → Nat
  | '.' :: cs => if digitsLength cs == 0 then 0 else 1 + digitsLength cs
  | _ => 0

/-- How far a sign reaches. -/
def signLength : List Char → Nat
  | c :: _ => if c == '+' || c == '-' then 1 else 0
  | [] => 0

/-- How far a power of ten reaches. -/
def powerLength : List Char → Nat
  | c :: cs =>
    let n := digitsLength (cs.drop (signLength cs))
    if (c == 'e' || c == 'E') && n != 0 then 1 + signLength cs + n else 0
  | [] => 0

/-- How far the unit of a number reaches. -/
def unitLength (cs : List Char) : Nat :=
  if cs.head? == some '%' then 1 else if startsName cs then nameLength cs else 0

/-- How far a number with its unit reaches. -/
def numberLength (cs : List Char) : Nat :=
  let a := signLength cs
  let b := a + digitsLength (cs.drop a)
  let c := b + fractionLength (cs.drop b)
  let d := c + powerLength (cs.drop c)
  d + unitLength (cs.drop d)

/-- Whether a number begins here. -/
def startsNumber (cs : List Char) : Bool :=
  let unsigned := cs.drop (signLength cs)
  digitsLength unsigned != 0 || fractionLength unsigned != 0

/-! ## Cutting -/

/-- Whether a text begins with another one. -/
def begins (start cs : List Char) : Bool := (Text.after? start cs).isSome

/-- The token that begins with a name, and how far it reaches behind the first character: a name, a
function or an address. -/
def scanName (cs : List Char) : Token × Nat :=
  let n := nameLength cs
  match cs.drop n with
  | '(' :: rest =>
    if Text.sameIgnoringCase (unescaped (cs.take n)) "url".toList then
      match urlLength? rest with
      | some k => (.other, n + k)
      | none => (.opens .paren, n)
    else (.opens .paren, n)
  | _ => (.ident, n - 1)

/-- The token at the front of a text and how far it reaches behind its first character. -/
def scan (c : Char) (cs : List Char) : Token × Nat :=
  if isSpace c then (.blank, (cs.takeWhile isSpace).length)
  else if c == '"' || c == '\'' then (.other, quotedLength c cs)
  else if startsNumber (c :: cs) then (.other, numberLength (c :: cs) - 1)
  else if c == '-' && begins ['-', '>'] cs then (.other, 2)
  else if startsName (c :: cs) then scanName (c :: cs)
  else match c with
    | '(' => (.opens .paren, 0)
    | ')' => (.closes .paren, 0)
    | '[' => (.opens .bracket, 0)
    | ']' => (.closes .bracket, 0)
    | '\x7b' => (.opens .brace, 0)
    | '\x7d' => (.closes .brace, 0)
    | ':' => (.colon, 0)
    | ';' => (.semicolon, 0)
    | '@' => if startsName cs then (.atKeyword, nameLength cs) else (.other, 0)
    | '#' =>
      if startsName cs || (cs.head?.map isNameChar).getD false then (.other, nameLength cs)
      else (.other, 0)
    | '/' => if begins ['*'] cs then (.blank, 1 + commentLength (cs.drop 1)) else (.other, 0)
    | '<' => if begins ['!', '-', '-'] cs then (.other, 3) else (.other, 0)
    | _ => (.other, 0)

/-- The lexemes of a text. -/
def lexemes : List Char → List Lexeme
  | [] => []
  | c :: cs =>
    let (token, n) := scan c cs
    ⟨token, c :: cs.take n⟩ :: lexemes (cs.drop n)
termination_by cs => cs.length
decreasing_by simp only [List.length_cons, List.length_drop]; omega

theorem lexemes_nil : lexemes [] = [] := by rw [lexemes]

theorem lexemes_cons (c : Char) (cs : List Char) :
    lexemes (c :: cs) =
      ⟨(scan c cs).1, c :: cs.take (scan c cs).2⟩ :: lexemes (cs.drop (scan c cs).2) := by
  rw [lexemes]

/-- Nothing is lost: the texts of the lexemes join to the text that was cut. -/
theorem flatten_lexemes (cs : List Char) : (lexemes cs).flatMap Lexeme.text = cs := by
  induction h : cs.length using Nat.strongRecOn generalizing cs with
  | _ n ih =>
    cases cs with
    | nil => rw [lexemes_nil]; rfl
    | cons c cs =>
      rw [lexemes_cons, List.flatMap_cons, List.cons_append,
        ih (cs.drop (scan c cs).2).length ?_ _ rfl, List.take_append_drop]
      simp only [List.length_cons] at h
      simp only [List.length_drop]
      omega

end ResponsiveStyle.Css

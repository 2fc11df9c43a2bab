/-
# Names and escapes

A name is a run of letters, digits, hyphens, underscores and characters beyond ASCII. An escape is a
backslash with the number of a character in at most six hexadecimal digits and one blank behind
them, or with the character itself. How far a name or an escape reaches is counted in characters.
-/
import ResponsiveStyle.Text.Numeral

namespace ResponsiveStyle.Css

open Text (isHexDigit hexValue?)

/-! ## Classes of characters -/

/-- The characters that end a line. -/
def isNewline (c : Char) : Bool := c == '\n' || c == '\r' || c == '\x0c'

/-- The blanks of a style sheet. -/
def isSpace (c : Char) : Bool := c == ' ' || c == '\t' || isNewline c

/-- The characters that a name may begin with. -/
def isNameStart (c : Char) : Bool := c.isAlpha || c == '_' || c == '\x00' || 0x80 ≤ c.toNat

/-- The characters of a name. -/
def isNameChar (c : Char) : Bool := isNameStart c || c.isDigit || c == '-'

/-- Whether a backslash in front of a text begins an escape; at the end of the text it does. -/
def isEscapable (cs : List Char) : Bool := !(cs.head?.map isNewline).getD false

/-- Whether a name begins here. A hyphen begins one in front of any backslash, also of one that
begins no escape: the hyphen alone is the name then. -/
def startsName : List Char → Bool
  | '-' :: '-' :: _ => true
  | '-' :: '\\' :: _ => true
  | '-' :: c :: _ => isNameStart c
  | '\\' :: cs => isEscapable cs
  | c :: _ => isNameStart c
  | [] => false

/-! ## Escapes -/

/-- What stands for a character that cannot be had. -/
def replacement : Char := '\uFFFD'

/-- How far the blank at the end of an escape reaches. -/
def spaceLength : List Char → Nat
  | '\r' :: '\n' :: _ => 2
  | c :: _ => if isSpace c then 1 else 0
  | [] => 0

/-- The hexadecimal digits at the front, at most six. -/
def escapeDigits (cs : List Char) : List Char := (cs.take 6).takeWhile isHexDigit

/-- How far an escape reaches behind its backslash. -/
def escapeLength (cs : List Char) : Nat :=
  let n := (escapeDigits cs).length
  if n == 0 then min 1 cs.length else n + spaceLength (cs.drop n)

/-- The number that hexadecimal digits denote. -/
def hexNumber (cs : List Char) : Nat := cs.foldl (fun n c => 16 * n + (hexValue? c).getD 0) 0

/-- The character of a number, if it has one other than the null character. -/
def charOfNumber (n : Nat) : Char :=
  if n == 0 || 0x10FFFF < n || (0xD800 ≤ n && n ≤ 0xDFFF) then replacement else Char.ofNat n

/-- The character of the escape behind a backslash. -/
def escapedChar (cs : List Char) : Char :=
  let digits := escapeDigits cs
  if !digits.isEmpty then charOfNumber (hexNumber digits)
  else match cs with
    | [] => replacement
    | c :: _ => if c == '\x00' then replacement else c

/-! ## Names -/

/-- How far a name reaches. -/
def nameLength : List Char → Nat
  | [] => 0
  | c :: cs =>
    if c == '\\' then
      if isEscapable cs then 1 + escapeLength cs + nameLength (cs.drop (escapeLength cs)) else 0
    else if isNameChar c then 1 + nameLength cs
    else 0
termination_by cs => cs.length
decreasing_by all_goals simp only [List.length_cons, List.length_drop]; omega

/-- The text of a name with its escapes resolved. -/
def unescaped : List Char → List Char
  | [] => []
  | c :: cs =>
    if c == '\\' then escapedChar cs :: unescaped (cs.drop (escapeLength cs))
    else if c == '\x00' then replacement :: unescaped cs
    else c :: unescaped cs
termination_by cs => cs.length
decreasing_by all_goals simp only [List.length_cons, List.length_drop]; omega

end ResponsiveStyle.Css

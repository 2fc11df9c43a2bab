/-
# Tokens of JSON

One pass over the characters with a mode gives the tokens. Numerals keep their digits, and a text
whose escapes name half a surrogate pair keeps the fact that it has no characters of its own.
-/
import ResponsiveStyle.Text.Numeral

namespace ResponsiveStyle.Json

open Text (hexValue?)

/-! ## Numerals -/

/-- A numeral as written: the digits before and behind the point, and the power of ten. -/
structure Numeral where
  negative : Bool
  whole : List Char
  fraction : List Char
  power : Option Int
  deriving DecidableEq, Repr

/-- The power of ten of a numeral: the sign is optional, a digit is not. -/
def power? (cs : List Char) : Option Int := Text.signed? cs

/-- What follows the digits of a numeral: a fraction of at least one digit and a power of ten, both
optional. -/
def fractionAndPower? (cs : List Char) : Option (List Char × Option Int) :=
  let withPower (fraction : List Char) : List Char → Option (List Char × Option Int)
    | [] => some (fraction, none)
    | c :: rest =>
      if c == 'e' || c == 'E' then (power? rest).map fun p => (fraction, some p) else none
  match cs with
  | '.' :: rest =>
    let fraction := rest.takeWhile Char.isDigit
    if fraction.isEmpty then none else withPower fraction (rest.dropWhile Char.isDigit)
  | _ => withPower [] cs

/-- A numeral without its sign. A zero in front stands alone. -/
def unsignedNumeral? (negative : Bool) (cs : List Char) : Option Numeral :=
  let whole := cs.takeWhile Char.isDigit
  if whole.isEmpty || (whole.head? == some '0' && whole != ['0']) then none
  else (fractionAndPower? (cs.dropWhile Char.isDigit)).map fun (fraction, power) =>
    ⟨negative, whole, fraction, power⟩

/-- A numeral; only a minus may stand in front. -/
def numeral? : List Char → Option Numeral
  | '-' :: cs => unsignedNumeral? true cs
  | cs => unsignedNumeral? false cs

/-! ## Texts -/

/-- The parts of a text: a character, or a code unit of 16 bits named by an escape. -/
inductive TextPart
  | char (c : Char)
  | unit (n : Nat)
  deriving DecidableEq, Repr

/-- The first half of a surrogate pair. -/
def isHighSurrogate (n : Nat) : Bool := 0xD800 ≤ n && n < 0xDC00

/-- The second half of a surrogate pair. -/
def isLowSurrogate (n : Nat) : Bool := 0xDC00 ≤ n && n < 0xE000

/-- The characters of the parts, or nothing if half a surrogate pair stands alone. -/
def textOfParts? : List TextPart → Option (List Char)
  | [] => some []
  | .char c :: parts => (textOfParts? parts).map (c :: ·)
  | .unit high :: .unit low :: parts =>
    if isHighSurrogate high then
      if isLowSurrogate low then
        (textOfParts? parts).map
          (Char.ofNat (0x10000 + (high - 0xD800) * 0x400 + (low - 0xDC00)) :: ·)
      else none
    else if isLowSurrogate high then none
    else (textOfParts? (.unit low :: parts)).map (Char.ofNat high :: ·)
  | .unit n :: parts =>
    if isHighSurrogate n || isLowSurrogate n then none
    else (textOfParts? parts).map (Char.ofNat n :: ·)

/-- The character of a short escape. -/
def shortEscape? : Char → Option Char
  | '"' => some '"'
  | '\\' => some '\\'
  | '/' => some '/'
  | 'b' => some '\x08'
  | 'f' => some '\x0c'
  | 'n' => some '\n'
  | 'r' => some '\r'
  | 't' => some '\t'
  | _ => none

/-! ## Tokens -/

/-- The tokens of a JSON text. -/
inductive Token
  | openList
  | closeList
  | openRecord
  | closeRecord
  | comma
  | colon
  | null
  | bool (value : Bool)
  | number (numeral : Numeral)
  | text (content : Option String)
  deriving DecidableEq, Repr

/-- The token of a run of letters, digits and signs. -/
def wordToken? (word : List Char) : Option Token :=
  if word == ['n', 'u', 'l', 'l'] then some .null
  else if word == ['t', 'r', 'u', 'e'] then some (.bool true)
  else if word == ['f', 'a', 'l', 's', 'e'] then some (.bool false)
  else (numeral? word).map .number

/-- The characters of words and numerals. -/
def isWordChar (c : Char) : Bool := c.isAlphanum || c == '+' || c == '-' || c == '.'

/-- The tokens of one character. -/
def mark? : Char → Option Token
  | '[' => some .openList
  | ']' => some .closeList
  | '\x7b' => some .openRecord
  | '\x7d' => some .closeRecord
  | ',' => some .comma
  | ':' => some .colon
  | _ => none

/-- The blanks of JSON. -/
def isSpace (c : Char) : Bool := c == ' ' || c == '\t' || c == '\n' || c == '\r'

/-- Where the pass over the characters stands. Parts and words are kept in reverse. -/
inductive Mode
  | between
  | word (read : List Char)
  | text (parts : List TextPart)
  | escape (parts : List TextPart)
  | code (parts : List TextPart) (missing value : Nat)

/-- The token of a finished text. -/
def textToken (parts : List TextPart) : Token :=
  .text ((textOfParts? parts.reverse).map String.ofList)

/-- A pass over the characters: its mode and the tokens found so far, in reverse. -/
structure Pass where
  mode : Mode
  found : List Token

/-- A character between tokens begins the next one or is one. -/
def Pass.begin? (found : List Token) (c : Char) : Option Pass :=
  if isSpace c then some ⟨.between, found⟩
  else if c == '"' then some ⟨.text [], found⟩
  else if isWordChar c then some ⟨.word [c], found⟩
  else (mark? c).map fun t => ⟨.between, t :: found⟩

/-- The pass after one more character. -/
def Pass.step? (p : Pass) (c : Char) : Option Pass :=
  match p.mode with
  | .between => Pass.begin? p.found c
  | .word read =>
    if isWordChar c then some { p with mode := .word (c :: read) }
    else (wordToken? read.reverse).bind fun token => Pass.begin? (token :: p.found) c
  | .text parts =>
    if c == '"' then some ⟨.between, textToken parts :: p.found⟩
    else if c == '\\' then some { p with mode := .escape parts }
    else if c.toNat < 0x20 then none
    else some { p with mode := .text (.char c :: parts) }
  | .escape parts =>
    if c == 'u' then some { p with mode := .code parts 4 0 }
    else (shortEscape? c).map fun e => { p with mode := .text (.char e :: parts) }
  | .code parts missing value =>
    (hexValue? c).map fun digit =>
      if missing ≤ 1 then { p with mode := .text (.unit (16 * value + digit) :: parts) }
      else { p with mode := .code parts (missing - 1) (16 * value + digit) }

/-- The tokens of a pass at the end of the text, unless the text ends inside of a token. -/
def Pass.finish? (p : Pass) : Option (List Token) :=
  match p.mode with
  | .between => some p.found.reverse
  | .word read => (wordToken? read.reverse).map fun t => (t :: p.found).reverse
  | _ => none

/-- The tokens of a text. -/
def tokens? (s : String) : Option (List Token) :=
  (s.toList.foldlM Pass.step? ⟨.between, []⟩).bind Pass.finish?

end ResponsiveStyle.Json

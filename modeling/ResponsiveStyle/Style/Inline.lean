/-
# Inline declarations

Authors write declarations as a block without braces: `width: 10px; color: red`. A declaration is a
name, a colon and the text up to the next semicolon outside of all blocks. What does not have this
form is passed over up to the same place; a rule that begins with an at-sign ends with its block.
Of several declarations of one property the last one counts, at its place.
-/
import ResponsiveStyle.Css.Lexeme
import ResponsiveStyle.Style.Declaration

namespace ResponsiveStyle.Style.Inline

open Css (Block Token Lexeme)

/-! ## Items -/

/-- A name with the text behind its colon. -/
structure Item where
  name : String
  value : String
  deriving DecidableEq, Repr

/-- The open blocks from the inside out after one more token. A closing token that does not fit the
innermost block closes nothing. -/
def openBlocks (blocks : List Block) : Token → List Block
  | .opens b => b :: blocks
  | .closes b => if blocks.head? == some b then blocks.tail else blocks
  | _ => blocks

/-- What has been read of the item at hand. -/
inductive State
  | start
  | named (name : String)
  | value (name : String) (blocks : List Block) (read : List Char)
  | skipped (blocks : List Block)
  | atRule (blocks : List Block)
  | atBlock (blocks : List Block)

/-- The state after the first lexeme of an item. -/
def State.first (l : Lexeme) : State :=
  match l.token with
  | .blank | .semicolon | .closes .brace => .start
  | .ident => .named (String.ofList (Css.unescaped l.text))
  | .atKeyword => .atRule []
  | t => .skipped (openBlocks [] t)

/-- The state after one more lexeme, and the item that ends with it. -/
def State.next (s : State) (l : Lexeme) : State × Option Item :=
  match s with
  | .start => (.first l, none)
  | .named name =>
    match l.token with
    | .blank => (.named name, none)
    | .colon => (.value name [] [], none)
    | .semicolon => (.start, none)
    | t => (.skipped (openBlocks [] t), none)
  | .value name blocks read =>
    if blocks.isEmpty && l.token == .semicolon then (.start, some ⟨name, String.ofList read⟩)
    else (.value name (openBlocks blocks l.token) (read ++ l.text), none)
  | .skipped blocks =>
    if blocks.isEmpty && l.token == .semicolon then (.start, none)
    else (.skipped (openBlocks blocks l.token), none)
  | .atRule blocks =>
    if blocks.isEmpty && l.token == .semicolon then (.start, none)
    else if blocks.isEmpty && l.token == .opens .brace then (.atBlock [.brace], none)
    else (.atRule (openBlocks blocks l.token), none)
  | .atBlock blocks =>
    let blocks := openBlocks blocks l.token
    (if blocks.isEmpty then .start else .atBlock blocks, none)

/-- The item that the end of the text ends. -/
def State.last : State → Option Item
  | .value name _ read => some ⟨name, String.ofList read⟩
  | _ => none

/-- The items of lexemes, read on from a state. -/
def itemsFrom : State → List Lexeme → List Item
  | s, [] => s.last.toList
  | s, l :: ls => (s.next l).2.toList ++ itemsFrom (s.next l).1 ls

/-- The items of a block in order. -/
def items (css : String) : List Item := itemsFrom .start (Css.lexemes css.toList)

/-! ## Declarations -/

/-- The declaration of an item, unless its value is absent. -/
def Item.declaration? (i : Item) : Option Declaration := Declaration.ofJson? i.name (.text i.value)

/-- The declarations with `d` behind them, and no other one of its property. -/
def putLast (ds : List Declaration) (d : Declaration) : List Declaration :=
  ds.filter (fun e => e.key != d.key) ++ [d]

/-- The declarations of a block, of each property the last one. -/
def declarations (css : String) : List Declaration :=
  ((items css).filterMap Item.declaration?).foldl putLast []

end ResponsiveStyle.Style.Inline

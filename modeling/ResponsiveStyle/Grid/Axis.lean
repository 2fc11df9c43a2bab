/-
# Axis templates

The template of a grid axis is a plain repetition, a list of tracks, or any other text, which is
kept as it is. A summary says how many tracks a template has for certain, and which size comes
first.
-/
import ResponsiveStyle.Grid.Split
import ResponsiveStyle.Text.Numeral

namespace ResponsiveStyle.Grid

open Text (trim after? isAsciiBlank isBlank lower joined natText saturatingAdd saturatingMul
  sameIgnoringCase)

/-! ## Repetitions -/

/-- The text of a repetition, unless it repeats nothing. -/
def repeatText? (count : Nat) (unit : String) : Option String :=
  let unit := Text.trimmed unit
  if count == 0 || unit.isEmpty then none
  else some ("repeat(" ++ natText count ++ ", " ++ unit ++ ")")

/-- The text behind blanks. -/
def skipBlanks (cs : List Char) : List Char := cs.dropWhile isAsciiBlank

/-- The digits and the unit of a text that is a plain repetition as a whole: the count, a comma, and
a unit without a closing parenthesis. -/
def repetition? (cs : List Char) : Option (List Char × List Char) := do
  let inside := skipBlanks (← after? "repeat(".toList cs)
  let digits := inside.takeWhile Char.isDigit
  if digits.isEmpty then none
  else match skipBlanks (inside.dropWhile Char.isDigit) with
    | ',' :: rest =>
      if rest.dropWhile (· != ')') == [')'] then some (digits, rest.takeWhile (· != ')')) else none
    | _ => none

/-! ## Axes -/

/-- The template of one axis of a grid. -/
inductive Axis
  | simple (count : Nat) (unit : String)
  | tracks (tokens : List String)
  | raw (text : String)
  deriving DecidableEq, Repr

/-- The greatest count of a plain repetition. -/
def maxRepeat : Nat := 4294967295

/-- A plain repetition of something, at least once. -/
def Axis.simple? (cs : List Char) : Option Axis := do
  let (digits, unit) ← repetition? cs
  let count := Text.ofDigits digits
  let unit := trim unit
  if count == 0 || maxRepeat < count || unit.isEmpty then none
  else some (.simple count (String.ofList unit))

/-- A list of tracks: without quotes, without commas outside of brackets, and with brackets that
balance. -/
def Axis.tracks? (cs : List Char) : Option Axis :=
  if cs.contains '"' || cs.contains '\'' || hasOutside ',' 0 cs then none
  else (splitTracks? cs).map fun tokens => .tracks (tokens.map String.ofList)

/-- The axis of a template. -/
def Axis.decode (template : String) : Axis :=
  let cs := trim template.toList
  ((Axis.simple? cs).or (Axis.tracks? cs)).getD (.raw template)

/-- The template of an axis. -/
def Axis.template : Axis → String
  | .simple count unit => (repeatText? count unit).getD ""
  | .tracks tokens => joined " " tokens
  | .raw text => text

/-- Whether an axis is kept as it is. -/
def Axis.isRaw : Axis → Bool
  | .raw _ => true
  | _ => false

/-! ## Summaries -/

/-- The two kinds of repetition that fill the axis. -/
inductive AutoRepeat
  | fill
  | fit
  deriving DecidableEq, Repr

/-- What a template says about its tracks. -/
structure Summary where
  count : Nat
  unit : Option String
  autoRepeat : Option AutoRepeat
  subgrid : Bool
  deriving DecidableEq, Repr

namespace Summary

/-- Nothing is said. -/
def nothing : Summary := ⟨0, none, none, false⟩

/-- The summary with tracks added; the first size that comes up is kept. -/
def withTracks (s : Summary) (count : Nat) (unit : Option (List Char)) : Summary :=
  { s with count := saturatingAdd s.count count, unit := s.unit.or (unit.map String.ofList) }

/-- The summary with a repetition of `tracks` added: a number of times, or as often as they fit. -/
def withRepeat (s : Summary) (times : List Char) (tracks : List (List Char)) : Summary :=
  let unit := tracks.head?
  let times := lower times
  if times == "auto-fill".toList then { s.withTracks 0 unit with autoRepeat := some .fill }
  else if times == "auto-fit".toList then { s.withTracks 0 unit with autoRepeat := some .fit }
  else match Text.size? times with
    | some n => s.withTracks (saturatingMul n tracks.length) unit
    | none => s.withTracks 0 unit

/-- Whether a token is a word that stands for no track. -/
def isNoTrack (token : List Char) : Bool :=
  sameIgnoringCase "none".toList token || sameIgnoringCase "masonry".toList token

/-- The tracks among the tokens of a list, which are those that are no line names. -/
def tracksOf (cs : List Char) : List (List Char) :=
  ((splitTracks? cs).getD []).filter fun t => !isLineNames t

/-- The summary with one token more. -/
def withToken (s : Summary) (token : List Char) : Summary :=
  if isLineNames token || isNoTrack token then s
  else match arguments? "repeat".toList token with
    | none => s.withTracks 1 (some token)
    | some arguments =>
      match splitArguments? arguments with
      | some [times, list] => s.withRepeat times (tracksOf list)
      | _ => s

/-- The summary of the tokens of a template; a subgrid says nothing about tracks of its own. -/
def ofTokens (tokens : List (List Char)) : Summary :=
  match tokens.head? with
  | some token =>
    if sameIgnoringCase "subgrid".toList token then { nothing with subgrid := true }
    else tokens.foldl withToken nothing
  | none => nothing

/-- The summary of a template. -/
def ofTemplate (template : String) : Summary :=
  match splitTracks? template.toList with
  | some tokens => ofTokens tokens
  | none => nothing

end Summary

/-- The number of tracks that a template has for certain. -/
def countTracks (template : String) : Nat := (Summary.ofTemplate template).count

/-- The number of tracks that an axis has for certain. -/
def Axis.trackCount : Axis → Nat
  | .raw _ => 0
  | a => countTracks a.template

end ResponsiveStyle.Grid

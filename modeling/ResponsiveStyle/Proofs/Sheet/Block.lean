/-
# Blocks read as inline blocks

The lines of a rule have the form of an inline block. As long as their keys are names that need no
escape and nothing in their values quotes, escapes or opens a block (`Inlinable`), each line is one
item (`items_declarationLines`), and the block has the declarations of the lines again, each under
its key and with its value as a text (`declarations_declarationLines`). Simple declarations
(`IsSimple`) are spelled like this from the start, so reading undoes writing
(`declarations_declarationLines_eq_self`).
-/
import ResponsiveStyle.Proofs.Css.Lexeme
import ResponsiveStyle.Proofs.Sheet.Reading
import ResponsiveStyle.Proofs.Style.Inline

namespace ResponsiveStyle.Style.Inline

open Css (IsIdentifier Lexeme Plain isSpace lexemes)

/-! ## Items -/

/-- Blanks in front of an item do not matter. -/
theorem itemsFrom_dropWhile (cs : List Char) :
    itemsFrom .start (lexemes (cs.dropWhile isSpace)) = itemsFrom .start (lexemes cs) := by
  cases cs with
  | nil => rfl
  | cons c cs =>
    by_cases hc : isSpace c = true
    · rw [List.dropWhile_cons_of_pos hc, Css.lexemes_of_isSpace hc]
      rfl
    · rw [List.dropWhile_cons_of_neg hc]

theorem itemsFrom_isSpace_append {bs : List Char} (h : ∀ b ∈ bs, isSpace b = true)
    (cs : List Char) : itemsFrom .start (lexemes (bs ++ cs)) = itemsFrom .start (lexemes cs) := by
  rw [← itemsFrom_dropWhile, List.dropWhile_append_of_pos h, itemsFrom_dropWhile]

/-- Lexemes that open and close nothing are read into the value. -/
theorem itemsFrom_value_append (name : String) (read : List Char) {front : List Lexeme}
    (h : ∀ l ∈ front, l.token.isInert = true) (rest : List Lexeme) :
    itemsFrom (.value name [] read) (front ++ rest)
      = itemsFrom (.value name [] (read ++ front.flatMap Lexeme.text)) rest := by
  induction front generalizing read with
  | nil => simp
  | cons l front ih =>
    have hl := h l List.mem_cons_self
    have hnext : (State.value name [] read).next l = (.value name [] (read ++ l.text), none) := by
      obtain ⟨token, text⟩ := l
      cases token with
      | opens b => exact absurd hl Bool.false_ne_true
      | closes b => exact absurd hl Bool.false_ne_true
      | semicolon => exact absurd hl Bool.false_ne_true
      | _ => rfl
    rw [List.cons_append, itemsFrom, hnext, Option.toList_none, List.nil_append,
      ih _ fun l hl => h l (List.mem_cons_of_mem _ hl), List.flatMap_cons, List.append_assoc]

/-- A name, a colon, a plain text and a semicolon are an item. -/
theorem itemsFrom_item {name value : List Char} (hname : IsIdentifier name) (hvalue : Plain value)
    (rest : List Char) :
    itemsFrom .start (lexemes (name ++ ':' :: (value ++ ';' :: rest)))
      = ⟨String.ofList name, String.ofList value⟩ :: itemsFrom .start (lexemes rest) := by
  obtain ⟨front, hfront, hinert, htext⟩ := Css.lexemes_append_semicolon hvalue rest
  calc itemsFrom .start (lexemes (name ++ ':' :: (value ++ ';' :: rest)))
      = itemsFrom (.value (String.ofList (Css.unescaped name)) [] [])
          (front ++ ⟨.semicolon, [';']⟩ :: lexemes rest) := by
        rw [Css.lexemes_identifier hname, hfront]
        rfl
    _ = itemsFrom (.value (String.ofList name) [] value)
          (⟨.semicolon, [';']⟩ :: lexemes rest) := by
        rw [Css.unescaped_of_isNameChar hname.isNameChar hname.null_not_mem,
          itemsFrom_value_append _ _ hinert, htext, List.nil_append]
    _ = _ := rfl

end ResponsiveStyle.Style.Inline

namespace ResponsiveStyle.Sheet

open Css (IsIdentifier Plain isActive)
open Style (Declaration isAbsent)
open Style.Inline (Item declarations items itemsFrom)
open Text (trimmed)

/-! ## Lines -/

/-- A declaration whose line an inline block may hold: its key is a name as it stands, and its value
is plain. -/
structure Inlinable (d : Declaration) : Prop where
  key : IsIdentifier d.key.toList
  value : Plain d.value.display.toList

/-- What stands between the colon and the semicolon of a line. -/
def shownText (d : Declaration) : String :=
  " " ++ (d.value.display ++ if d.important then " !important" else "")

theorem toList_declarationLine (depth : Nat) (d : Declaration) (rest : List Char) :
    (declarationLine depth d).toList ++ rest = (indent depth).toList ++
      (d.key.toList ++ ':' :: ((shownText d).toList ++ ';' :: '\n' :: rest)) := by
  unfold declarationLine line declarationText shownText
  simp

/-- Neither the blank nor the mark around a plain value is active. -/
theorem Inlinable.plain_shownText {d : Declaration} (h : Inlinable d) :
    Plain (shownText d).toList := by
  have hmark : Plain (if d.important then " !important" else "").toList := by
    split <;> decide
  unfold shownText
  rw [String.toList_append, String.toList_append]
  exact (show Plain " ".toList by decide).append (h.value.append hmark)

/-- A line is an item, and nothing of it is left for the lines behind it. -/
theorem itemsFrom_declarationLine (depth : Nat) {d : Declaration} (h : Inlinable d)
    (rest : List Char) :
    itemsFrom .start (Css.lexemes ((declarationLine depth d).toList ++ rest))
      = ⟨d.key, shownText d⟩ :: itemsFrom .start (Css.lexemes rest) := by
  have hindent : ∀ c ∈ (indent depth).toList, Css.isSpace c = true := by
    intro c hc
    rw [eq_space_of_mem_indent hc]
    rfl
  rw [toList_declarationLine, Style.Inline.itemsFrom_isSpace_append hindent,
    Style.Inline.itemsFrom_item h.key h.plain_shownText, String.ofList_toList, String.ofList_toList,
    show '\n' :: rest = ['\n'] ++ rest from rfl,
    Style.Inline.itemsFrom_isSpace_append (List.all_eq_true.mp (by decide))]

/-- Each line is an item of the block. -/
theorem items_declarationLines (depth : Nat) {ds : List Declaration} (h : ∀ d ∈ ds, Inlinable d) :
    items (String.join (ds.map (declarationLine depth)))
      = ds.map fun d => ⟨d.key, shownText d⟩ := by
  unfold items
  induction ds with
  | nil =>
    rw [List.map_nil, String.join_nil, show "".toList = [] from rfl, Css.lexemes_nil]
    rfl
  | cons d ds ih =>
    rw [List.map_cons, List.map_cons, String.join_cons, String.toList_append,
      itemsFrom_declarationLine depth (h d List.mem_cons_self),
      ih fun d hd => h d (List.mem_cons_of_mem _ hd)]

/-! ## Declarations -/

/-- The declaration that a line shows: under the key, and with the value as a text. -/
def asShown (d : Declaration) : Declaration := ⟨d.key, .text d.value.display, d.important⟩

@[simp] theorem key_asShown (d : Declaration) : (asShown d).key = d.key :=
  Style.propertyKey_propertyKey d.property

/-- What a line shows of a well-formed declaration is read as it was. -/
theorem declaration?_shownText {d : Declaration} (h : d.WellFormed) :
    Item.declaration? ⟨d.key, shownText d⟩ = some (asShown d) := by
  have hnamed : Style.isBlankName d.key = false := (Style.isBlankName_propertyKey _).trans h.named
  have hsplit : Style.splitImportance (shownText d).toList
      = (d.value.display.toList, d.important) := by
    unfold shownText
    rw [String.toList_append, String.toList_append, show " ".toList = [' '] from rfl,
      List.singleton_append, Style.splitImportance_cons_of_isBlank (by decide)]
    exact splitImportance_shown h
  have hpresent : Style.isAbsentChars d.value.display.toList = false := h.value.display.present
  unfold Item.declaration?
  rw [Declaration.ofJson?_text hnamed, Declaration.ofText?, hsplit]
  simp [asShown, hpresent, Declaration.textValue]

/-- The lines of declarations with keys apart are an inline block of what they show. -/
theorem declarations_declarationLines (depth : Nat) {ds : List Declaration}
    (hdistinct : (ds.map Declaration.key).Nodup) (hwf : ∀ d ∈ ds, d.WellFormed)
    (hinline : ∀ d ∈ ds, Inlinable d) :
    declarations (String.join (ds.map (declarationLine depth))) = ds.map asShown := by
  have hread : (ds.map fun d => Item.mk d.key (shownText d)).filterMap Item.declaration?
      = ds.map asShown := by
    rw [List.filterMap_map, ← List.filterMap_eq_map]
    apply List.filterMap_congr
    intro d hd
    rw [Function.comp_apply, Function.comp_apply]
    exact declaration?_shownText (hwf d hd)
  have hkeys : (ds.map asShown).map Declaration.key = ds.map Declaration.key := by
    simp [Function.comp_def]
  unfold declarations
  rw [items_declarationLines depth hinline, hread, Style.Inline.foldl_putLast,
    Style.lastOfEach_of_nodup]
  rw [hkeys]
  exact hdistinct

/-! ## Simple declarations -/

/-- Small letters and the hyphen. -/
def isPlainNameChar (c : Char) : Bool := c.isLower || c == '-'

/-- Letters, digits, spaces, and the signs within numbers, lengths, colours and lists. -/
def isSimpleChar (c : Char) : Bool := c.isAlpha || c.isDigit || " .%#,-".toList.contains c

/-- A declaration of a property of small letters and hyphens that begins with a letter; its value is
a trimmed and present text of simple characters. -/
structure IsSimple (d : Declaration) : Prop where
  letter : ∃ c, d.property.toList.head? = some c ∧ c.isLower = true
  lower : ∀ c ∈ d.property.toList, isPlainNameChar c = true
  value : ∃ s, d.value = .text s ∧ trimmed s = s ∧ isAbsent s = false ∧
    ∀ c ∈ s.toList, isSimpleChar c = true

theorem isActive_of_isSimpleChar {c : Char} (h : isSimpleChar c = true) : isActive c = false := by
  have hactive : Css.activeChars.all (fun a => !isSimpleChar a) = true := by decide
  rw [Bool.eq_false_iff]
  intro hc
  have hnot := List.all_eq_true.mp hactive c (List.contains_iff_mem.mp hc)
  exact absurd h (by simpa using hnot)

namespace IsSimple

variable {d : Declaration}

/-- The property is spelled like its key. -/
theorem key_eq (h : IsSimple d) : d.key = d.property := by
  apply Style.propertyKey_of_isLower
  intro c hc
  simpa [isPlainNameChar] using h.lower c hc

theorem wellFormed (h : IsSimple d) : d.WellFormed where
  named := by
    obtain ⟨c, hc, hlower⟩ := h.letter
    have hblank : Text.isBlank c = false :=
      Text.isBlank_of_isAlpha (Text.isAlpha_of_isLower hlower)
    unfold Style.isBlankName
    rw [Bool.eq_false_iff, ne_eq, List.isEmpty_iff, Text.trim_eq_nil_iff, List.all_eq_true]
    intro hall
    exact absurd (hall c (List.mem_of_mem_head? hc)) (by simp [hblank])
  value := by
    obtain ⟨s, hs, htrim, hpresent, hsimple⟩ := h.value
    rw [hs]
    exact ⟨htrim, hpresent, fun _ => Style.snd_splitImportance_of_not_mem fun hmem =>
      absurd (hsimple '!' hmem) (by decide)⟩

theorem inlinable (h : IsSimple d) : Inlinable d where
  key := by
    rw [h.key_eq]
    obtain ⟨c, hc, hlower⟩ := h.letter
    refine ⟨⟨c, hc, Text.isAlpha_of_isLower hlower⟩, ?_, ?_⟩
    · intro a ha
      have hlow : a.isLower = true ∨ a = '-' := by simpa [isPlainNameChar] using h.lower a ha
      rcases hlow with hlow | rfl
      · simp [Css.isNameChar, Css.isNameStart, Text.isAlpha_of_isLower hlow]
      · rfl
    · intro hnull
      exact absurd (h.lower _ hnull) (by decide)
  value := by
    obtain ⟨s, hs, -, -, hsimple⟩ := h.value
    rw [hs]
    exact fun c hc => isActive_of_isSimpleChar (hsimple c hc)

/-- A line shows a simple declaration as it is. -/
theorem asShown_eq (h : IsSimple d) : asShown d = d := by
  obtain ⟨s, hs, -⟩ := h.value
  have hkey := h.key_eq
  obtain ⟨property, value, important⟩ := d
  simp only at hs
  subst hs
  unfold asShown
  rw [hkey]
  rfl

end IsSimple

/-- The lines of simple declarations of properties that are apart, at any depth, are an inline block
of these declarations. -/
theorem declarations_declarationLines_eq_self (depth : Nat) {ds : List Declaration}
    (hdistinct : (ds.map Declaration.property).Nodup) (hsimple : ∀ d ∈ ds, IsSimple d) :
    declarations (String.join (ds.map (declarationLine depth))) = ds := by
  have hkeys : ds.map Declaration.key = ds.map Declaration.property :=
    List.map_congr_left fun d hd => (hsimple d hd).key_eq
  rw [declarations_declarationLines depth (hkeys ▸ hdistinct)
      (fun d hd => (hsimple d hd).wellFormed)
    fun d hd => (hsimple d hd).inlinable]
  exact (List.map_congr_left fun d hd => (hsimple d hd).asShown_eq).trans (List.map_id ds)

/-- Values that look like numbers, names, colours and the ends of comments, with and without the
flag. -/
theorem declarations_declarationLines_eq_self_tokens :
    let ds : List Declaration := [⟨"margin-top", .text "1e-3 --x -.5em, #-a 100%", false⟩,
      ⟨"color", .text "important", true⟩]
    (ds.map Declaration.property).Nodup ∧ (∀ d ∈ ds, IsSimple d) ∧
      declarations (String.join (ds.map (declarationLine 2))) = ds := by
  intro ds
  have hdistinct : (ds.map Declaration.property).Nodup := by decide
  have hsimple : ∀ d ∈ ds, IsSimple d := by
    intro d hd
    rcases List.mem_pair.mp hd with rfl | rfl
    · exact ⟨⟨'m', rfl, rfl⟩, List.all_eq_true.mp (by decide), _, rfl, by decide, by decide,
        List.all_eq_true.mp (by decide)⟩
    · exact ⟨⟨'c', rfl, rfl⟩, List.all_eq_true.mp (by decide), _, rfl, by decide, by decide,
        List.all_eq_true.mp (by decide)⟩
  exact ⟨hdistinct, hsimple, declarations_declarationLines_eq_self 2 hdistinct hsimple⟩

end ResponsiveStyle.Sheet

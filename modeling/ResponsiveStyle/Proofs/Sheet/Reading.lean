/-
# Reading a style sheet

A rendered style sheet is read line by line: a line opens a media query, closes it, or gives a
property a value, and all others are selectors and the ends of their blocks. If no text of a record
breaks its line and no key has a colon in it, the entries that are read are the ones that were
written (`readEntries_render`).
-/
import ResponsiveStyle.Proofs.Sheet.Entry
import ResponsiveStyle.Proofs.Style.Invariant
import ResponsiveStyle.Proofs.Text.Cut

namespace ResponsiveStyle.Sheet

open Style (Bucket Declaration Record Tier splitImportance)
open Text (after? before? splitAt trim trimStart trimmed isBlank joined joined_cons_cons nat? digits
  natText)

/-! ## Lines -/

/-- What a line says. -/
inductive Line
  | opens (query : MediaQuery)
  | closes
  | declares (key value : String) (important : Bool)
  | other
  deriving DecidableEq, Repr

/-- A number of pixels and what follows its parenthesis. -/
def pixels? (cs : List Char) : Option (Nat × List Char) :=
  (nat? (cs.takeWhile Char.isDigit)).bind fun n =>
    (after? "px)".toList (cs.dropWhile Char.isDigit)).map fun rest => (n, rest)

/-- The bound of a name and what follows it. -/
def bound? (name : String) (cs : List Char) : Option (Nat × List Char) :=
  (after? ("(" ++ name ++ ": ").toList cs).bind pixels?

/-- The media query that a line opens. -/
def openedQuery? (cs : List Char) : Option MediaQuery :=
  (after? "@media ".toList cs).bind fun bounds =>
    match bound? "min-width" bounds with
    | some (lower, rest) =>
      ((after? " and ".toList rest).bind (bound? "max-width")).map fun upper =>
        ⟨some lower, upper.1⟩
    | none => (bound? "max-width" bounds).map fun upper => ⟨none, upper.1⟩

/-- The key, the value and the flag that a line with a semicolon at its end gives. -/
def declared? (cs : List Char) : Option (String × String × Bool) :=
  (before? ";".toList cs).bind fun body =>
    match body.dropWhile (· != ':') with
    | [] => none
    | _ :: rest =>
      let (value, important) := splitImportance (trimStart rest)
      some (String.ofList (trimStart (body.takeWhile (· != ':'))), String.ofList value, important)

/-- What a line says. -/
def lineOf (cs : List Char) : Line :=
  if cs == "\x7d".toList then .closes
  else match openedQuery? cs with
    | some q => .opens q
    | none =>
      match declared? cs with
      | some (key, value, important) => .declares key value important
      | none => .other

/-! ## Reading lines -/

/-- The media query behind a line. -/
def Line.queryAfter (query : Option MediaQuery) : Line → Option MediaQuery
  | .opens q => some q
  | .closes => none
  | .declares _ _ _ => query
  | .other => query

/-- The entry of a line, if it has one. -/
def Line.entries (query : Option MediaQuery) : Line → List Entry
  | .declares key value important => [⟨query, key, value, important⟩]
  | _ => []

/-- The entries of lines behind a media query. -/
def readLines (query : Option MediaQuery) : List (List Char) → List Entry
  | [] => []
  | l :: ls => (lineOf l).entries query ++ readLines ((lineOf l).queryAfter query) ls

/-- The entries of a style sheet, read from its text. -/
def readEntries (css : String) : List Entry := readLines none (splitAt '\n' css.toList)

/-- Reading whole lines behind a query gives entries and leads to another query, whatever
follows. -/
def Reads (query : Option MediaQuery) (cs : List Char) (es : List Entry)
    (next : Option MediaQuery) : Prop :=
  ∀ rest, readLines query (splitAt '\n' (cs ++ rest)) = es ++ readLines next (splitAt '\n' rest)

variable {q q₁ q₂ : Option MediaQuery} {cs ds : List Char} {es fs : List Entry}

/-- Nothing is read from no lines. -/
theorem reads_nil (q : Option MediaQuery) : Reads q [] [] q := fun _ => rfl

/-- Lines are read after those before them. -/
theorem Reads.append (h : Reads q cs es q₁) (h' : Reads q₁ ds fs q₂) :
    Reads q (cs ++ ds) (es ++ fs) q₂ := by
  intro rest
  rw [List.append_assoc, h, h', List.append_assoc]

/-- One line is read for what it says. -/
theorem reads_line (q : Option MediaQuery) {l : List Char} (h : '\n' ∉ l) :
    Reads q (l ++ ['\n']) ((lineOf l).entries q) ((lineOf l).queryAfter q) := by
  intro rest
  rw [List.append_assoc, List.singleton_append, Text.splitAt_append_cons h]
  rfl

/-- Texts joined by empty lines are read one after the other. -/
theorem reads_joined {α : Type} {text : α → String} {entries : α → List Entry} {parts : List α}
    (h : ∀ a ∈ parts, Reads q (text a).toList (entries a) q) :
    Reads q (joined "\n" (parts.map text)).toList (parts.flatMap entries) q := by
  induction parts with
  | nil => exact reads_nil q
  | cons a parts ih =>
    have ha := h a List.mem_cons_self
    cases parts with
    | nil => simpa using ha
    | cons b parts =>
      -- the line end between two texts is an empty line, since the first of them ends with one
      have hempty : Reads q "\n".toList [] q := reads_line q (l := []) (by simp)
      have hrest := ih fun b hb => h b (List.mem_cons_of_mem a hb)
      rw [List.map_cons, List.map_cons, joined_cons_cons, ← List.map_cons]
      simpa using (ha.append hempty).append hrest

/-! ## Indented lines -/

/-- Only spaces stand in front of a line. -/
theorem eq_space_of_mem_indent {depth : Nat} {c : Char} (h : c ∈ (indent depth).toList) :
    c = ' ' := by
  unfold indent at h
  rw [String.toList_ofList] at h
  exact List.eq_of_mem_replicate h

/-- A text with no line break still has none when it is indented. -/
theorem newline_not_mem_indent_append {s : String} (h : '\n' ∉ s.toList) (depth : Nat) :
    '\n' ∉ (indent depth ++ s).toList := by
  rw [String.toList_append, List.mem_append]
  rintro (hindent | hs)
  · exact absurd (eq_space_of_mem_indent hindent) (by decide)
  · exact h hs

/-- An indented text is a line that begins with a space. -/
theorem indent_succ_append (depth : Nat) (s : String) :
    ∃ l, (indent (depth + 1) ++ s).toList = ' ' :: l := by
  refine ⟨List.replicate (4 * depth + 3) ' ' ++ s.toList, ?_⟩
  unfold indent
  rw [String.toList_append, String.toList_ofList]
  rfl

/-- An indented line is read for what it says. -/
theorem reads_indented (q : Option MediaQuery) (depth : Nat) {s : String} (h : '\n' ∉ s.toList) :
    Reads q (line depth s).toList ((lineOf (indent depth ++ s).toList).entries q)
      ((lineOf (indent depth ++ s).toList).queryAfter q) := by
  have htext : (line depth s).toList = (indent depth ++ s).toList ++ ['\n'] := by
    unfold line
    rw [String.toList_append]
    rfl
  rw [htext]
  exact reads_line q (newline_not_mem_indent_append h depth)

/-! ## What the lines of a style sheet say -/

/-- A line that begins like no media query and no closing brace gives a value or says nothing. -/
theorem lineOf_cons {c : Char} (hmedia : c ≠ '@') (hbrace : c ≠ '\x7d') (l : List Char) :
    lineOf (c :: l)
      = match declared? (c :: l) with
        | some (key, value, important) => .declares key value important
        | none => .other := by
  have hcloses : (c :: l == "\x7d".toList) = false := by
    rw [beq_eq_false_iff_ne]
    intro h
    exact hbrace (List.cons.inj h).1
  have hopens : openedQuery? (c :: l) = none := by
    unfold openedQuery?
    rw [show "@media ".toList = '@' :: "media ".toList from rfl,
      Text.after?_cons_of_ne (Ne.symm hmedia), Option.bind_none]
  unfold lineOf
  rw [if_neg (ne_true_of_eq_false hcloses), hopens]

/-- A number of pixels is read as it was written. -/
theorem pixels?_digits (n : Nat) (rest : List Char) :
    pixels? (digits n ++ "px)".toList ++ rest) = some (n, rest) := by
  have hdigits : ∀ c ∈ digits n, c.isDigit = true := fun c => Text.isDigit_of_mem_digits
  have htake : (digits n ++ "px)".toList ++ rest).takeWhile Char.isDigit = digits n := by
    rw [List.append_assoc, List.takeWhile_append_of_pos hdigits]
    exact List.append_nil _
  have hdrop : (digits n ++ "px)".toList ++ rest).dropWhile Char.isDigit
      = "px)".toList ++ rest := by
    rw [List.append_assoc, List.dropWhile_append_of_pos hdigits]
    rfl
  unfold pixels?
  rw [htake, hdrop, Text.nat?_digits, Option.bind_some, Text.after?_append, Option.map_some]

/-- A bound is read as it was written. -/
theorem bound?_text (name : String) (n : Nat) (rest : List Char) :
    bound? name (("(" ++ name ++ ": ").toList ++ ((natText n ++ "px)").toList ++ rest))
      = some (n, rest) := by
  have htext : (natText n ++ "px)").toList ++ rest = digits n ++ "px)".toList ++ rest := by
    unfold natText
    rw [String.toList_append, String.toList_ofList]
  unfold bound?
  rw [Text.after?_append, Option.bind_some, htext, pixels?_digits]

/-- The bounds of a query are read as they were written. -/
theorem openedQuery?_text (query : MediaQuery) (rest : List Char) :
    openedQuery? (query.text.toList ++ rest) = some query := by
  obtain ⟨lower, upper⟩ := query
  have hupper : bound? "max-width"
      ("(max-width: ".toList ++ ((natText upper ++ "px)").toList ++ rest)) = some (upper, rest) :=
    bound?_text "max-width" upper rest
  unfold openedQuery?
  cases lower with
  | none =>
    have htext : (MediaQuery.text ⟨none, upper⟩).toList ++ rest
        = "@media ".toList ++
            ("(max-width: ".toList ++ ((natText upper ++ "px)").toList ++ rest)) := by
      simp [MediaQuery.text]
    -- the names of the bounds differ in their second letter
    have hlower : bound? "min-width"
        ("(max-width: ".toList ++ ((natText upper ++ "px)").toList ++ rest)) = none := rfl
    rw [htext, Text.after?_append, Option.bind_some, hlower, hupper]
    rfl
  | some lower =>
    have htext : (MediaQuery.text ⟨some lower, upper⟩).toList ++ rest
        = "@media ".toList ++ ("(min-width: ".toList ++ ((natText lower ++ "px)").toList ++
            (" and ".toList ++
              ("(max-width: ".toList ++ ((natText upper ++ "px)").toList ++ rest))))) := by
      simp [MediaQuery.text]
    have hlower : ∀ rest, bound? "min-width"
        ("(min-width: ".toList ++ ((natText lower ++ "px)").toList ++ rest)) = some (lower, rest) :=
      bound?_text "min-width" lower
    rw [htext, Text.after?_append, Option.bind_some, hlower]
    simp only
    rw [Text.after?_append, Option.bind_some, hupper, Option.map_some]

/-- The text of a query breaks no line. -/
theorem newline_not_mem_query (query : MediaQuery) : '\n' ∉ query.text.toList := by
  have hnumber : ∀ n, '\n' ∉ (natText n).toList := by
    intro n h
    unfold natText at h
    rw [String.toList_ofList] at h
    exact absurd (Text.isDigit_of_mem_digits h) (by decide)
  obtain ⟨lower, upper⟩ := query
  cases lower <;> simp [MediaQuery.text, hnumber]

/-- The line of a media query opens it. -/
theorem lineOf_query (query : MediaQuery) :
    lineOf (query.text ++ " \x7b").toList = .opens query := by
  have hcloses : ((query.text ++ " \x7b").toList == "\x7d".toList) = false := by
    rw [beq_eq_false_iff_ne, String.toList_append]
    intro h
    have hlength := congrArg List.length h
    simp at hlength
  unfold lineOf
  rw [if_neg (ne_true_of_eq_false hcloses), String.toList_append, openedQuery?_text]

/-- A line that ends with another character than a semicolon gives no value. -/
theorem declared?_of_getLast? {l : List Char} {c : Char} (h : l.getLast? = some c) (hc : c ≠ ';') :
    declared? l = none := by
  have hnone : before? ";".toList l = none := by
    rw [Option.eq_none_iff_forall_ne_some]
    intro body hbody
    rw [Text.before?_eq_some_iff] at hbody
    rw [hbody, List.getLast?_append] at h
    exact hc (Option.some.inj h).symm
  unfold declared?
  rw [hnone, Option.bind_none]

/-! ## Lines of declarations -/

/-- A declaration that breaks no line and has no colon in its key. -/
structure LegibleDeclaration (d : Declaration) : Prop where
  key : '\n' ∉ d.key.toList
  colon : ':' ∉ d.key.toList
  value : '\n' ∉ d.value.display.toList

instance (d : Declaration) : Decidable (LegibleDeclaration d) :=
  decidable_of_iff ('\n' ∉ d.key.toList ∧ ':' ∉ d.key.toList ∧ '\n' ∉ d.value.display.toList)
    ⟨fun h => ⟨h.1, h.2.1, h.2.2⟩, fun h => ⟨h.key, h.colon, h.value⟩⟩

/-- A displayed value has a character, so whatever stands behind it, no blank is in front of it. -/
theorem trimStart_display_append {d : Declaration} (h : d.WellFormed) (more : List Char) :
    trimStart (d.value.display.toList ++ more) = d.value.display.toList ++ more := by
  apply Text.trimStart_append
  · rw [← h.value.display.trim_toList]
    exact Text.trimStart_trim _
  · intro hnil
    have hpresent := h.value.display.present
    unfold Style.isAbsent at hpresent
    rw [hnil] at hpresent
    exact absurd hpresent (by decide)

/-- The value and the mark behind it are read as they were written. -/
theorem splitImportance_shown {d : Declaration} (h : d.WellFormed) :
    splitImportance (d.value.display.toList ++
        (if d.important then " !important" else "").toList)
      = (d.value.display.toList, d.important) := by
  cases hflag : d.important with
  | true => rw [if_pos rfl, Style.splitImportance_append_mark, h.value.display.trim_toList]
  | false =>
    have hunmarked := h.value.display.unmarked hflag
    rw [if_neg Bool.false_ne_true, show "".toList = [] from rfl, List.append_nil]
    have hvalue := (Style.fst_splitImportance hunmarked).trans h.value.display.trim_toList
    exact Prod.ext hvalue hunmarked

/-- A declaration is read as it was written, whatever blanks stand in front of it. -/
theorem declared?_text {d : Declaration} (h : d.WellFormed) (hcolon : ':' ∉ d.key.toList)
    (depth : Nat) :
    declared? (indent depth ++ declarationText d).toList
      = some (d.key, d.value.display, d.important) := by
  -- the first colon is the one behind the key
  have hname : ∀ c ∈ (indent depth).toList ++ d.key.toList, (c != ':') = true := by
    intro c hc
    rw [bne_iff_ne]
    rintro rfl
    rcases List.mem_append.mp hc with hc | hc
    · exact absurd (eq_space_of_mem_indent hc) (by decide)
    · exact hcolon hc
  have hvalue : ∀ more, trimStart (' ' :: (d.value.display.toList ++ more))
      = d.value.display.toList ++ more := by
    intro more
    rw [show ∀ cs, trimStart (' ' :: cs) = trimStart cs from fun _ => rfl,
      trimStart_display_append h]
  have hkey : trimStart ((indent depth).toList ++ d.key.toList) = d.key.toList := by
    unfold trimStart
    rw [List.dropWhile_append_of_pos]
    · exact Style.trimStart_propertyKey d.property
    · intro c hc
      rw [eq_space_of_mem_indent hc]
      decide
  have htext : (indent depth ++ declarationText d).toList
      = ((indent depth).toList ++ d.key.toList) ++ ':' :: ' ' :: (d.value.display.toList ++
          (if d.important then " !important" else "").toList) ++ ";".toList := by
    unfold declarationText
    simp
  unfold declared?
  rw [(Text.before?_eq_some_iff _ _ _).mpr htext, Option.bind_some,
    List.dropWhile_append_of_pos hname, List.takeWhile_append_of_pos hname]
  simp [hkey, hvalue, splitImportance_shown h]

/-- A legible declaration takes one line. -/
theorem newline_not_mem_declarationText {d : Declaration} (h : LegibleDeclaration d) :
    '\n' ∉ (declarationText d).toList := by
  unfold declarationText
  cases d.important <;> simp [h.key, h.value]

/-- The line of a legible declaration gives its entry. -/
theorem reads_declarationLine (q : Option MediaQuery) (depth : Nat) {d : Declaration}
    (h : d.WellFormed) (hd : LegibleDeclaration d) :
    Reads q (declarationLine (depth + 1) d).toList [Entry.ofDeclaration q d] q := by
  have hentry : lineOf (indent (depth + 1) ++ declarationText d).toList
      = .declares d.key d.value.display d.important := by
    have hdeclared := declared?_text h hd.colon (depth + 1)
    obtain ⟨l, hl⟩ := indent_succ_append depth (declarationText d)
    rw [hl] at hdeclared ⊢
    rw [lineOf_cons (by decide) (by decide), hdeclared]
  have hreads := reads_indented q (depth + 1) (newline_not_mem_declarationText hd)
  rw [hentry] at hreads
  exact hreads

/-! ## Rules -/

/-- A selector that breaks no line and begins like the one of a wrapper. -/
def LegibleSelector (s : String) : Prop := '\n' ∉ s.toList ∧ s.toList.head? = some '['

/-- The line of a selector says nothing, be it the last one or not. -/
theorem reads_selectorLine (q : Option MediaQuery) (depth : Nat) {s : String} (ending : String)
    {c : Char} (hs : LegibleSelector s) (hending : '\n' ∉ ending.toList)
    (hlast : ending.toList.getLast? = some c) (hc : c ≠ ';') :
    Reads q (line depth (s ++ ending)).toList [] q := by
  have hline : '\n' ∉ (s ++ ending).toList := by
    rw [String.toList_append, List.mem_append]
    exact not_or.mpr ⟨hs.1, hending⟩
  have hother : lineOf (indent depth ++ (s ++ ending)).toList = .other := by
    have hnone : declared? (indent depth ++ (s ++ ending)).toList = none := by
      apply declared?_of_getLast? _ hc
      simp [List.getLast?_append, hlast]
    -- the line begins with the bracket of the wrapper or with a space
    have hhead : ∃ b l, (indent depth ++ (s ++ ending)).toList = b :: l ∧ b ≠ '@' ∧ b ≠ '\x7d' := by
      cases depth with
      | zero =>
        obtain ⟨l, hl⟩ := List.head?_eq_some_iff.mp hs.2
        exact ⟨'[', l ++ ending.toList, by simp [indent, hl], by decide, by decide⟩
      | succ depth =>
        obtain ⟨l, hl⟩ := indent_succ_append depth (s ++ ending)
        exact ⟨' ', l, hl, by decide, by decide⟩
    obtain ⟨b, l, hl, hmedia, hbrace⟩ := hhead
    rw [hl] at hnone ⊢
    rw [lineOf_cons hmedia hbrace, hnone]
  have hreads := reads_indented q depth hline
  rw [hother] at hreads
  exact hreads

/-- The lines of selectors say nothing. -/
theorem reads_selectors (q : Option MediaQuery) (depth : Nat) {selectors : List String}
    (h : ∀ s ∈ selectors, LegibleSelector s) :
    Reads q (joined ",\n" (selectors.map fun s => indent depth ++ s) ++ " \x7b\n").toList [] q := by
  induction selectors with
  | nil =>
    have hother : lineOf " \x7b".toList = .other := by decide
    have hreads := reads_line q (l := " \x7b".toList) (by decide)
    rw [hother] at hreads
    simpa [joined, Line.entries, Line.queryAfter] using hreads
  | cons s selectors ih =>
    have hs := h s List.mem_cons_self
    cases selectors with
    | nil =>
      have hlast := reads_selectorLine q depth " \x7b" hs (by decide) rfl (by decide)
      simpa [joined, line] using hlast
    | cons t selectors =>
      have hfirst := reads_selectorLine q depth "," hs (by decide) rfl (by decide)
      have hrest := ih fun t ht => h t (List.mem_cons_of_mem s ht)
      have htext : (joined ",\n" ((s :: t :: selectors).map fun s => indent depth ++ s)
            ++ " \x7b\n").toList
          = (line depth (s ++ ",")).toList ++
            (joined ",\n" ((t :: selectors).map fun s => indent depth ++ s)
              ++ " \x7b\n").toList := by
        rw [List.map_cons, List.map_cons, joined_cons_cons]
        simp [line]
      rw [htext]
      exact hfirst.append hrest

/-- The lines of legible declarations give their entries. -/
theorem reads_declarations (q : Option MediaQuery) (depth : Nat) {ds : List Declaration}
    (h : ∀ d ∈ ds, d.WellFormed ∧ LegibleDeclaration d) :
    Reads q (String.join (ds.map (declarationLine (depth + 1)))).toList
      (ds.map (Entry.ofDeclaration q)) q := by
  induction ds with
  | nil => exact reads_nil q
  | cons d ds ih =>
    obtain ⟨hwf, hd⟩ := h d List.mem_cons_self
    rw [List.map_cons, String.join_cons, String.toList_append]
    exact (reads_declarationLine q depth hwf hd).append
      (ih fun e he => h e (List.mem_cons_of_mem d he))

/-- A rule whose texts break no lines. -/
structure LegibleRule (r : Rule) : Prop where
  selectors : ∀ s ∈ r.selectors, LegibleSelector s
  declarations : ∀ d ∈ r.declarations, d.WellFormed ∧ LegibleDeclaration d

/-- A brace that stands at the front closes the media query, and every other one only its rule. -/
theorem reads_closing (q : Option MediaQuery) (depth : Nat) :
    Reads q (line depth "\x7d").toList [] (if depth = 0 then none else q) := by
  have hreads := reads_indented q depth (s := "\x7d") (by decide)
  cases depth with
  | zero => exact hreads
  | succ depth =>
    obtain ⟨l, hl⟩ := indent_succ_append depth "\x7d"
    have hnone : declared? (indent (depth + 1) ++ "\x7d").toList = none := by
      apply declared?_of_getLast? (c := '\x7d') _ (by decide)
      simp [List.getLast?_append]
    have hother : lineOf (indent (depth + 1) ++ "\x7d").toList = .other := by
      rw [hl] at hnone ⊢
      rw [lineOf_cons (by decide) (by decide), hnone]
    rw [hother] at hreads
    exact hreads

/-- The lines of a rule give its entries; without indentation it has to stand under no query. -/
theorem reads_rule {q : Option MediaQuery} {depth : Nat} (hq : depth = 0 → q = none) {r : Rule}
    (h : LegibleRule r) : Reads q (r.text depth).toList (r.entries q) q := by
  have hclosing := reads_closing q depth
  have hnext : (if depth = 0 then none else q) = q := by
    split
    · rename_i hdepth
      exact (hq hdepth).symm
    · rfl
  rw [hnext] at hclosing
  unfold Rule.text Rule.entries
  rw [String.toList_append, String.toList_append]
  simpa using ((reads_selectors q depth h.selectors).append
    (reads_declarations q depth h.declarations)).append hclosing

/-! ## Sections -/

/-- The texts of rules under one query give their entries. -/
theorem reads_rules {q : Option MediaQuery} {depth : Nat} (hq : depth = 0 → q = none)
    {rules : List Rule} (h : ∀ r ∈ rules, LegibleRule r) :
    Reads q (rulesText depth rules).toList (rules.flatMap (Rule.entries q)) q :=
  reads_joined fun r hr => reads_rule hq (h r hr)

/-- A section gives its entries and closes its query. -/
theorem reads_section {s : Section} (h : ∀ r ∈ s.rules, LegibleRule r) :
    Reads none s.text.toList s.entries none := by
  unfold Section.text Section.entries
  cases hquery : s.query with
  | none => exact reads_rules (fun _ => rfl) h
  | some query =>
    have hopening : Reads none (line 0 (query.text ++ " \x7b")).toList [] (some query) := by
      have hline : '\n' ∉ (query.text ++ " \x7b").toList := by
        rw [String.toList_append, List.mem_append]
        exact not_or.mpr ⟨newline_not_mem_query query, by decide⟩
      have hreads := reads_indented none 0 hline
      rw [show indent 0 ++ (query.text ++ " \x7b") = query.text ++ " \x7b" from by simp [indent],
        lineOf_query] at hreads
      exact hreads
    have hrules : Reads (some query) (rulesText 1 s.rules).toList
        (s.rules.flatMap (Rule.entries (some query))) (some query) :=
      reads_rules (fun hdepth => absurd hdepth (by decide)) h
    have hclosing : Reads (some query) (line 0 "\x7d").toList [] none :=
      reads_closing (some query) 0
    simpa using (hopening.append hrules).append hclosing

/-- The entries read from a style sheet are those of its sections. -/
theorem readEntries_sectionsText {sections : List Section}
    (h : ∀ s ∈ sections, ∀ r ∈ s.rules, LegibleRule r) :
    readEntries (sectionsText sections) = entries sections := by
  have hreads : Reads none (sectionsText sections).toList (entries sections) none :=
    reads_joined fun s hs => reads_section (h s hs)
  have hend : readLines none (splitAt '\n' []) = [] := by decide
  have hall := hreads []
  rw [List.append_nil, hend, List.append_nil] at hall
  exact hall

/-! ## Records -/

/-- No text that the style sheet of a record takes over breaks its line, and no key has a colon. -/
structure Legible (c : Config) (nodeType : String) (r : Record) : Prop where
  wrapper : '\n' ∉ c.selectorAttribute.toList
  below : ∀ below, c.strengthened? nodeType = some below → ∀ s ∈ below, '\n' ∉ s.toList
  declarations : ∀ tier, ∀ d ∈ (r.bucket tier).declarations, LegibleDeclaration d

instance (c : Config) (nodeType : String) (r : Record) : Decidable (Legible c nodeType r) :=
  decidable_of_iff ('\n' ∉ c.selectorAttribute.toList ∧
      (∀ below, c.strengthened? nodeType = some below → ∀ s ∈ below, '\n' ∉ s.toList) ∧
      ∀ tier ∈ Tier.all, ∀ d ∈ (r.bucket tier).declarations, LegibleDeclaration d) <| by
    constructor
    · rintro ⟨hwrapper, hbelow, hdeclarations⟩
      exact ⟨hwrapper, hbelow, fun tier => hdeclarations tier (by cases tier <;> decide)⟩
    · intro h
      exact ⟨h.wrapper, h.below, fun tier _ => h.declarations tier⟩

/-- The selector of a wrapper is legible. -/
theorem legibleSelector_wrapper {c : Config} (h : '\n' ∉ c.selectorAttribute.toList) {id : String}
    (hid : Style.ScopeId.Valid id) (more : String) (hmore : '\n' ∉ more.toList) :
    LegibleSelector (wrapperSelector c id ++ more) := by
  have hidLine : '\n' ∉ id.toList := by
    intro hmem
    exact absurd (hid.characters _ hmem) (by decide)
  constructor
  · unfold wrapperSelector
    simp [h, hidLine, hmore]
  · unfold wrapperSelector
    simp

/-- The rules of a legible bucket are legible. -/
theorem legibleRule_of_mem_rules {c : Config} {nodeType id : String} {b : Bucket} {r : Rule}
    (hid : Style.ScopeId.Valid id) (hwrapper : '\n' ∉ c.selectorAttribute.toList)
    (hbelow : ∀ below, c.strengthened? nodeType = some below → ∀ s ∈ below, '\n' ∉ s.toList)
    (hb : ∀ d ∈ b.declarations, d.WellFormed ∧ LegibleDeclaration d)
    (h : r ∈ rules (targets c id nodeType) b) : LegibleRule r := by
  have hwrapperRule : ∀ ds : List Declaration, ds ⊆ b.declarations →
      LegibleRule ⟨[wrapperSelector c id], ds⟩ := by
    intro ds hds
    refine ⟨?_, fun d hd => hb d (hds hd)⟩
    intro s hs
    obtain rfl := List.mem_singleton.mp hs
    simpa using legibleSelector_wrapper hwrapper hid "" (by decide)
  unfold rules targets at h
  simp only at h
  cases hstrong : c.strengthened? nodeType with
  | none =>
    rw [hstrong] at h
    obtain ⟨rfl, -⟩ := mem_ruleOf h
    exact hwrapperRule b.declarations (List.Subset.refl _)
  | some below =>
    rw [hstrong] at h
    rcases mem_ruleOf_append h with ⟨rfl, -⟩ | ⟨rfl, -⟩
    · exact hwrapperRule _ (List.filter_subset_self _)
    · refine ⟨?_, fun d hd => hb d (List.mem_of_mem_filter hd)⟩
      intro s hs
      obtain ⟨t, ht, rfl⟩ := List.mem_map.mp hs
      have hline : '\n' ∉ (" " ++ trimmed t).toList := by
        rw [String.toList_append, Style.toList_trimmed, List.mem_append]
        rintro (hblank | hmem)
        · exact absurd hblank (by decide)
        · exact hbelow below hstrong t ht (Text.mem_of_mem_trim hmem)
      rw [String.append_assoc]
      exact legibleSelector_wrapper hwrapper hid (" " ++ trimmed t) hline

/-- The style sheet of a legible record is read as it was written. -/
theorem readEntries_render {c : Config} {nodeType : String} {r : Record} (hr : r.WellFormed)
    (h : Legible c nodeType r) :
    readEntries (render c nodeType r) = entries (sections c nodeType r) := by
  apply readEntries_sectionsText
  intro s hs rule hrule
  unfold sections at hs
  cases hid : r.id with
  | none =>
    rw [hid] at hs
    exact absurd hs List.not_mem_nil
  | some id =>
    rw [hid] at hs
    obtain ⟨tier, -, htier⟩ := List.mem_filterMap.mp hs
    unfold tierSection at htier
    simp only at htier
    split at htier
    · exact absurd htier (by simp)
    · obtain rfl := Option.some.inj htier
      refine legibleRule_of_mem_rules (hr.id id hid) h.wrapper h.below ?_ hrule
      intro d hd
      exact ⟨(hr.bucket tier).declarations d hd, h.declarations tier d hd⟩

end ResponsiveStyle.Sheet

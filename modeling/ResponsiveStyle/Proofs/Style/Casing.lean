/-
# Names of several words

A name of several words has hyphens between them, or the words run together and capital letters tell
them apart: in camel case all words but the first are capitalized, in Pascal case all of them are.
In the key a capital letter is a hyphen and its small letter. So camel case has the key with
hyphens, and Pascal case has it behind one more hyphen (`Casing.propertyKey_name`): to a bucket this
is the name of another property, and the declaration under the name with hyphens stays
(`Casing.replaces_iff`).
-/
import ResponsiveStyle.Proofs.Style.Bucket

namespace ResponsiveStyle.Style

open Text (trim isBlank isAlpha_of_isLower isAlpha_toUpper_of_isLower isUpper_toUpper_of_isLower
  toLower_toUpper_of_isLower isBlank_of_isAlpha)

/-! ## Words and names -/

/-- A word of small letters. -/
structure IsLowerWord (w : String) : Prop where
  nonempty : w ≠ ""
  lower : ∀ c ∈ w.toList, c.isLower = true

/-- A word with a capital letter at its start. -/
def capitalized : List Char → List Char
  | [] => []
  | c :: cs => c.toUpper :: cs

/-- How the words of a name are told apart. -/
inductive Casing
  | kebab
  | camel
  | pascal
  deriving DecidableEq, Repr

namespace Casing

/-- The first word of a name. -/
def first : Casing → List Char → List Char
  | .pascal, w => capitalized w
  | _, w => w

/-- A word of a name behind the first one. -/
def next : Casing → List Char → List Char
  | .kebab, w => '-' :: w
  | _, w => capitalized w

/-- The characters of the name that words make. -/
def chars (k : Casing) : List (List Char) → List Char
  | [] => []
  | w :: ws => k.first w ++ ws.flatMap k.next

/-- The name that words make. -/
def name (k : Casing) (ws : List String) : String := String.ofList (k.chars (ws.map String.toList))

example : kebab.name ["grid", "template", "rows"] = "grid-template-rows" ∧
    camel.name ["grid", "template", "rows"] = "gridTemplateRows" ∧
    pascal.name ["grid", "template", "rows"] = "GridTemplateRows" := by decide

end Casing

/-! ## Words in keys -/

/-- Small letters are written as they are. -/
theorem flatMap_hyphenated_of_isLower {cs : List Char} (h : ∀ c ∈ cs, c.isLower = true) :
    cs.flatMap hyphenated = cs := by
  calc cs.flatMap hyphenated
      = cs.flatMap fun c => [c] := List.flatMap_congr fun c hc => hyphenated_of_isLower (h c hc)
    _ = cs := List.flatMap_singleton' _

/-- The capital letter of a small one is written as a hyphen and the small one. -/
theorem hyphenated_toUpper_of_isLower {c : Char} (h : c.isLower = true) :
    hyphenated c.toUpper = ['-', c] := by
  simp [hyphenated, isUpper_toUpper_of_isLower h, toLower_toUpper_of_isLower h]

namespace IsLowerWord

variable {w : String}

/-- A word consists of letters, and there is a first one. -/
theorem exists_cons (h : IsLowerWord w) :
    ∃ c cs, w.toList = c :: cs ∧ c.isLower = true ∧ ∀ d ∈ cs, d.isLower = true := by
  obtain ⟨c, cs, hw⟩ := List.exists_cons_of_ne_nil (by simpa using h.nonempty : w.toList ≠ [])
  have hlower := h.lower
  rw [hw] at hlower
  exact ⟨c, cs, hw, List.forall_mem_cons.mp hlower⟩

/-- A word that is capitalized is written with a hyphen in front of it. -/
theorem flatMap_hyphenated_capitalized (h : IsLowerWord w) :
    (capitalized w.toList).flatMap hyphenated = '-' :: w.toList := by
  obtain ⟨c, cs, hw, hc, hcs⟩ := h.exists_cons
  rw [hw, capitalized, List.flatMap_cons, hyphenated_toUpper_of_isLower hc,
    flatMap_hyphenated_of_isLower hcs]
  rfl

/-- The first word of a name is written as it is, behind a hyphen if it is capitalized. -/
theorem flatMap_hyphenated_first (h : IsLowerWord w) (k : Casing) :
    (k.first w.toList).flatMap hyphenated = (if k = .pascal then ['-'] else []) ++ w.toList := by
  cases k with
  | kebab => exact flatMap_hyphenated_of_isLower h.lower
  | camel => exact flatMap_hyphenated_of_isLower h.lower
  | pascal => exact h.flatMap_hyphenated_capitalized

/-- Every other word is written behind a hyphen, however it was told apart. -/
theorem flatMap_hyphenated_next (h : IsLowerWord w) (k : Casing) :
    (k.next w.toList).flatMap hyphenated = '-' :: w.toList := by
  cases k with
  | kebab =>
    rw [Casing.next, List.flatMap_cons, flatMap_hyphenated_of_isLower h.lower]
    rfl
  | camel => exact h.flatMap_hyphenated_capitalized
  | pascal => exact h.flatMap_hyphenated_capitalized

/-- A word that is capitalized consists of letters. -/
theorem isAlpha_of_mem_capitalized (h : IsLowerWord w) {c : Char}
    (hc : c ∈ capitalized w.toList) : c.isAlpha = true := by
  obtain ⟨d, cs, hw, hd, hcs⟩ := h.exists_cons
  rw [hw, capitalized] at hc
  rcases List.mem_cons.mp hc with rfl | hc
  · exact isAlpha_toUpper_of_isLower hd
  · exact isAlpha_of_isLower (hcs c hc)

/-- The first word of a name consists of letters. -/
theorem isAlpha_of_mem_first (h : IsLowerWord w) (k : Casing) {c : Char}
    (hc : c ∈ k.first w.toList) : c.isAlpha = true := by
  have hword : c ∈ w.toList → c.isAlpha = true := fun hc => isAlpha_of_isLower (h.lower c hc)
  cases k with
  | kebab => exact hword hc
  | camel => exact hword hc
  | pascal => exact h.isAlpha_of_mem_capitalized hc

/-- A name begins with a letter. -/
theorem exists_cons_first (h : IsLowerWord w) (k : Casing) :
    ∃ c cs, k.first w.toList = c :: cs ∧ c.isAlpha = true := by
  obtain ⟨c, cs, hw, hc, -⟩ := h.exists_cons
  have hletter : c.isAlpha = true := isAlpha_of_isLower hc
  rw [hw]
  cases k with
  | kebab => exact ⟨c, cs, rfl, hletter⟩
  | camel => exact ⟨c, cs, rfl, hletter⟩
  | pascal => exact ⟨c.toUpper, cs, rfl, isAlpha_toUpper_of_isLower hc⟩

/-- There are no blanks in a word of a name. -/
theorem not_isBlank_of_mem_next (h : IsLowerWord w) (k : Casing) {c : Char}
    (hc : c ∈ k.next w.toList) : isBlank c = false := by
  cases k with
  | kebab =>
    rcases List.mem_cons.mp hc with rfl | hc
    · decide
    · exact isBlank_of_isAlpha (isAlpha_of_isLower (h.lower c hc))
  | camel => exact isBlank_of_isAlpha (h.isAlpha_of_mem_capitalized hc)
  | pascal => exact isBlank_of_isAlpha (h.isAlpha_of_mem_capitalized hc)

end IsLowerWord

namespace Casing

/-! ## Keys of names -/

variable {ws : List String}

/-- There are no blanks around a name. -/
theorem trim_chars (h : ∀ w ∈ ws, IsLowerWord w) (k : Casing) :
    trim (k.chars (ws.map String.toList)) = k.chars (ws.map String.toList) := by
  apply Text.trim_of_not_isBlank
  intro c hc
  cases ws with
  | nil => exact absurd hc List.not_mem_nil
  | cons w ws =>
    obtain ⟨hw, hws⟩ := List.forall_mem_cons.mp h
    rcases List.mem_append.mp hc with hc | hc
    · exact isBlank_of_isAlpha (hw.isAlpha_of_mem_first k hc)
    · obtain ⟨cs, hcs, hc⟩ := List.mem_flatMap.mp hc
      obtain ⟨v, hv, rfl⟩ := List.mem_map.mp hcs
      exact (hws v hv).not_isBlank_of_mem_next k hc

/-- A name is no custom property, so it is written with hyphens. -/
theorem keyChars_chars (h : ∀ w ∈ ws, IsLowerWord w) (k : Casing) :
    keyChars (k.chars (ws.map String.toList))
      = (k.chars (ws.map String.toList)).flatMap hyphenated := by
  cases ws with
  | nil => rfl
  | cons w ws =>
    obtain ⟨c, cs, hfirst, hletter⟩ := (h w List.mem_cons_self).exists_cons_first k
    have hc : c ≠ '-' := by
      rintro rfl
      exact absurd hletter (by decide)
    rw [List.map_cons, chars, hfirst, List.cons_append]
    unfold keyChars
    split
    · rename_i heq
      exact absurd (List.cons.inj heq).1 hc
    · rfl

/-- The words behind the first one are written behind hyphens. -/
theorem flatMap_hyphenated_flatMap_next (h : ∀ w ∈ ws, IsLowerWord w) (k : Casing) :
    ((ws.map String.toList).flatMap k.next).flatMap hyphenated
      = (ws.map String.toList).flatMap ('-' :: ·) := by
  rw [List.flatMap_map, List.flatMap_map, List.flatMap_assoc]
  exact List.flatMap_congr fun w hw => (h w hw).flatMap_hyphenated_next k

/-- The key of a name is the name with hyphens, behind one more hyphen if the first word is
capitalized too. -/
theorem propertyKey_name (h : ∀ w ∈ ws, IsLowerWord w) (hne : ws ≠ []) (k : Casing) :
    propertyKey (k.name ws) = (if k = .pascal then "-" else "") ++ kebab.name ws := by
  obtain ⟨w, ws, rfl⟩ := List.exists_cons_of_ne_nil hne
  obtain ⟨hw, hws⟩ := List.forall_mem_cons.mp h
  have hkey : (propertyKey (k.name (w :: ws))).toList
      = (if k = .pascal then ['-'] else []) ++ (kebab.name (w :: ws)).toList := by
    unfold propertyKey name
    rw [String.toList_ofList, String.toList_ofList, String.toList_ofList, trim_chars h,
      keyChars_chars h, List.map_cons, chars, chars, List.flatMap_append,
      hw.flatMap_hyphenated_first k, flatMap_hyphenated_flatMap_next hws k, List.append_assoc]
    rfl
  rw [← String.toList_inj, hkey, String.toList_append]
  cases k <;> rfl

/-! ## Writes under names -/

/-- Names of the same words are one property, unless one of them alone is in Pascal case. -/
theorem propertyKey_name_eq_iff (h : ∀ w ∈ ws, IsLowerWord w) (hne : ws ≠ []) (k : Casing) :
    propertyKey (k.name ws) = kebab.name ws ↔ k ≠ .pascal := by
  rw [propertyKey_name h hne]
  cases k with
  | kebab => simp
  | camel => simp
  | pascal =>
    refine iff_of_false (fun heq => ?_) (not_not_intro rfl)
    have hlength := congrArg String.length heq
    simp at hlength

end Casing

namespace Bucket

/-- A declaration takes the place of the first one with its key. -/
theorem putIn_append_cons {d e : Declaration} (hkey : e.key = d.key) {before : List Declaration}
    (hbefore : ∀ f ∈ before, f.key ≠ d.key) (after : List Declaration) :
    putIn d (before ++ e :: after) = before ++ d :: after := by
  induction before with
  | nil =>
    rw [List.nil_append, putIn, if_pos (by simpa using hkey)]
    rfl
  | cons f before ih =>
    obtain ⟨hf, hrest⟩ := List.forall_mem_cons.mp hbefore
    rw [List.cons_append, putIn, if_neg (by simpa using hf), ih hrest, List.cons_append]

/-- Putting in a declaration with another key keeps all declarations with a key. -/
theorem count_keys_putIn {d : Declaration} {key : String} (hkey : d.key ≠ key)
    (ds : List Declaration) :
    ((putIn d ds).map Declaration.key).count key = (ds.map Declaration.key).count key := by
  rw [keys_putIn]
  split
  · rfl
  · rw [List.count_append, List.count_singleton, if_neg (by simpa using hkey), Nat.add_zero]

/-- What a write leaves behind takes the place of the first declaration with a key if it has this
key, and only then. -/
theorem declarations_edit_eq_iff {c : Config} {b : Bucket} {e : Edit} {d x : Declaration}
    {before after : List Declaration} (hb : b.declarations = before ++ d :: after)
    (hbefore : ∀ f ∈ before, f.key ≠ d.key) (hx : e.outcome? c = some x) :
    (b.edit c e).declarations = before ++ x :: after ↔ propertyKey e.property = d.key := by
  have hedit : (b.edit c e).declarations = putIn x (before ++ d :: after) := by
    rw [← hb]
    unfold edit
    rw [hx]
    rfl
  rw [hedit, ← (Edit.of_outcome? hx).1]
  constructor
  · intro heq
    by_contra hkey
    -- the declaration that was there is still counted, and in its place it is not
    have hcount := congrArg (fun ds => (ds.map Declaration.key).count d.key) heq
    simp only [count_keys_putIn hkey, List.map_append, List.map_cons, List.count_append,
      List.count_cons_self, List.count_cons_of_ne hkey] at hcount
    omega
  · intro hkey
    apply putIn_append_cons hkey.symm
    rw [hkey]
    exact hbefore

end Bucket

namespace Casing

/-- In camel case words make a name with the key of the name with hyphens, and a write under it
replaces what is written under that name. In Pascal case they do not. -/
theorem replaces_iff {ws : List String} (h : ∀ w ∈ ws, IsLowerWord w) (hne : ws ≠ []) (k : Casing) :
    (propertyKey (k.name ws) = kebab.name ws ↔ k ≠ .pascal) ∧
      ∀ (c : Config) (b : Bucket) (before after : List Declaration) (d x : Declaration) (e : Edit),
        b.declarations = before ++ d :: after → (∀ f ∈ before, f.key ≠ d.key) →
        d.property = kebab.name ws → e.property = k.name ws → e.outcome? c = some x →
        ((b.edit c e).declarations = before ++ x :: after ↔ k ≠ .pascal) := by
  have hkey : propertyKey (k.name ws) = kebab.name ws ↔ k ≠ .pascal :=
    propertyKey_name_eq_iff h hne k
  refine ⟨hkey, ?_⟩
  intro c b before after d x e hb hbefore hd he hx
  have hkebab : d.key = kebab.name ws := by
    unfold Declaration.key
    rw [hd, (propertyKey_name_eq_iff h hne .kebab).mpr (by decide)]
  rw [Bucket.declarations_edit_eq_iff hb hbefore hx, he, hkebab]
  exact hkey

/-- A margin in camel case takes the place of the one with hyphens. -/
theorem replaces_iff_margin :
    let width : Declaration := ⟨"width", .text "9px", false⟩
    let gap : Declaration := ⟨"gap", .text "2px", false⟩
    let bucket (margin : Declaration) : Bucket := ⟨[width, margin, gap]⟩
    (∀ w ∈ ["margin", "top"], IsLowerWord w) ∧
      (Edit.set "marginTop" (.text "4px !important")).property = camel.name ["margin", "top"] ∧
      ((bucket ⟨"margin-top", .text "1px", false⟩).edit .standard
          (.set "marginTop" (.text "4px !important"))).declarations
        = (bucket ⟨"marginTop", .text "4px", true⟩).declarations := by
  intro width gap bucket
  have hletters : ∀ w ∈ ["margin", "top"], IsLowerWord w := by
    have hlower : ∀ w ∈ ["margin", "top"], w ≠ "" ∧ w.toList.all Char.isLower = true := by decide
    exact fun w hw => ⟨(hlower w hw).1, List.all_eq_true.mp (hlower w hw).2⟩
  refine ⟨hletters, by decide, ?_⟩
  exact ((replaces_iff hletters (by decide) .camel).2 .standard
    (bucket ⟨"margin-top", .text "1px", false⟩) [width] [gap] ⟨"margin-top", .text "1px", false⟩
    ⟨"marginTop", .text "4px", true⟩ (.set "marginTop" (.text "4px !important")) rfl (by decide)
    (by decide) (by decide) (by decide)).mpr (by decide)

/-- A margin in Pascal case has a key of its own, and both margins stay in the bucket. -/
theorem not_replaces_pascal :
    propertyKey "MarginTop" = "-margin-top" ∧
      ¬ (propertyKey (pascal.name ["margin", "top"]) = kebab.name ["margin", "top"]) ∧
      ((⟨[⟨"margin-top", .text "1px", false⟩]⟩ : Bucket).edit .standard
          (.set (pascal.name ["margin", "top"]) (.text "4px"))).declarations
        = [⟨"margin-top", .text "1px", false⟩, ⟨"MarginTop", .text "4px", false⟩] := by
  decide

end Casing

end ResponsiveStyle.Style

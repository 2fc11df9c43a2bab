/-
# Keys of properties

The key of a name is trimmed (`trim_propertyKey`) and is its own key (`propertyKey_propertyKey`): in
the spelling with hyphens there is nothing left to spell otherwise, and a key that begins with two
hyphens is kept as a custom property is. So a name may be replaced with its key wherever names are
compared by keys.
-/
import ResponsiveStyle.Proofs.Text.Character
import ResponsiveStyle.Proofs.Text.Trim
import ResponsiveStyle.Style.Property

namespace ResponsiveStyle.Style

open Text (trim trimStart trimmed isBlank trim_trim trim_eq_self_iff isUpper_iff isLower_iff
  toNat_toLower_of_isUpper isBlank_toLower_of_isUpper)

/-! ## Names of properties -/

/-- The characters of a trimmed text. -/
theorem toList_trimmed (s : String) : (trimmed s).toList = trim s.toList := by
  unfold trimmed
  rw [String.toList_ofList]

/-- The blanks around a name are no part of its key. -/
theorem propertyKey_trimmed (p : String) : propertyKey (trimmed p) = propertyKey p := by
  unfold propertyKey
  rw [toList_trimmed, trim_trim]

/-- Trimming makes no name of blanks and no blanks of a name. -/
theorem isBlankName_trimmed (p : String) : isBlankName (trimmed p) = isBlankName p := by
  unfold isBlankName
  rw [toList_trimmed, trim_trim]

/-! ## Characters of keys -/

/-- A small letter is written as it is. -/
theorem hyphenated_of_isLower {c : Char} (h : c.isLower = true) : hyphenated c = [c] := by
  obtain ⟨hlow, hhigh⟩ := (isLower_iff c).mp h
  have hupper : c.isUpper = false := by
    rw [Bool.eq_false_iff, ne_eq, isUpper_iff]
    omega
  have hunderscore : (c == '_') = false := by
    rw [beq_eq_false_iff_ne]
    rintro rfl
    exact absurd h (by decide)
  simp [hyphenated, hupper, hunderscore]

/-- The small letter of a capital one is written as it is. -/
theorem hyphenated_toLower_of_isUpper {c : Char} (h : c.isUpper = true) :
    hyphenated c.toLower = [c.toLower] := by
  apply hyphenated_of_isLower
  obtain ⟨hlow, hhigh⟩ := (isUpper_iff c).mp h
  rw [isLower_iff, toNat_toLower_of_isUpper h]
  omega

/-- A character becomes a hyphen, itself, or a hyphen and its small letter. -/
theorem hyphenated_cases (c : Char) :
    (c.isUpper = true ∧ hyphenated c = ['-', c.toLower]) ∨ hyphenated c = ['-'] ∨
      hyphenated c = [c] := by
  unfold hyphenated
  cases c.isUpper with
  | true => exact .inl ⟨rfl, rfl⟩
  | false =>
    refine .inr ?_
    cases c == '_' with
    | true => exact .inl rfl
    | false => exact .inr rfl

/-- What a character becomes is written as it is. -/
theorem hyphenated_of_mem {c d : Char} (h : d ∈ hyphenated c) : hyphenated d = [d] := by
  rcases hyphenated_cases c with ⟨hupper, hc⟩ | hc | hc
  · rw [hc] at h
    rcases List.mem_pair.mp h with rfl | rfl
    · decide
    · exact hyphenated_toLower_of_isUpper hupper
  · rw [hc] at h
    obtain rfl := List.mem_singleton.mp h
    decide
  · have hd := hc ▸ h
    obtain rfl := List.mem_singleton.mp hd
    exact hc

/-- A character that is no blank becomes a text that neither begins nor ends with one. -/
theorem not_isBlank_of_mem_hyphenated {c d : Char} (h : isBlank c = false)
    (hd : d ∈ hyphenated c) : isBlank d = false := by
  rcases hyphenated_cases c with ⟨hupper, hc⟩ | hc | hc
  · rw [hc] at hd
    rcases List.mem_pair.mp hd with rfl | rfl
    · decide
    · exact isBlank_toLower_of_isUpper hupper
  · rw [hc] at hd
    obtain rfl := List.mem_singleton.mp hd
    decide
  · rw [hc] at hd
    obtain rfl := List.mem_singleton.mp hd
    exact h

/-- A character becomes at least one. -/
theorem hyphenated_ne_nil (c : Char) : hyphenated c ≠ [] := by
  rcases hyphenated_cases c with ⟨-, hc⟩ | hc | hc <;> simp [hc]

/-! ## Keys -/

/-- A name is a custom property, which is its own key, or is written with hyphens. -/
theorem keyChars_cases (cs : List Char) :
    keyChars cs = cs ∨ keyChars cs = cs.flatMap hyphenated := by
  unfold keyChars
  split
  · exact .inl rfl
  · exact .inr rfl

/-- The key of a key is the key itself. -/
theorem keyChars_keyChars (cs : List Char) : keyChars (keyChars cs) = keyChars cs := by
  rcases keyChars_cases cs with h | h
  · rw [h, h]
  · rw [h]
    rcases keyChars_cases (cs.flatMap hyphenated) with h' | h'
    · exact h'
    · -- no character is written otherwise a second time
      rw [h', List.flatMap_assoc]
      have hfixed : ∀ c ∈ cs, (hyphenated c).flatMap hyphenated = hyphenated c := by
        intro c _
        calc (hyphenated c).flatMap hyphenated
            = (hyphenated c).flatMap fun d => [d] :=
              List.flatMap_congr fun d hd => hyphenated_of_mem hd
          _ = hyphenated c := List.flatMap_singleton' _
      exact List.flatMap_congr hfixed

/-- The key of a trimmed name is trimmed. -/
theorem trim_keyChars {cs : List Char} (h : trim cs = cs) : trim (keyChars cs) = keyChars cs := by
  rcases keyChars_cases cs with hkey | hkey
  · rw [hkey, h]
  · obtain ⟨hhead, hlast⟩ := (trim_eq_self_iff cs).mp h
    rw [hkey, trim_eq_self_iff]
    constructor
    · intro d hd
      cases cs with
      | nil => exact absurd hd (by simp)
      | cons c rest =>
        rw [List.flatMap_cons, List.head?_append_of_ne_nil _ (hyphenated_ne_nil c)] at hd
        exact not_isBlank_of_mem_hyphenated (hhead c rfl) (List.mem_of_mem_head? hd)
    · intro d hd
      rcases List.eq_nil_or_concat' cs with rfl | ⟨front, c, rfl⟩
      · exact absurd hd (by simp)
      · rw [List.flatMap_append, List.flatMap_singleton,
          List.getLast?_append_of_ne_nil _ (hyphenated_ne_nil c)] at hd
        exact not_isBlank_of_mem_hyphenated (hlast c (by simp)) (List.mem_of_mem_getLast? hd)

/-- A key has no blanks at its ends. -/
theorem trim_propertyKey (p : String) : trim (propertyKey p).toList = (propertyKey p).toList := by
  unfold propertyKey
  rw [String.toList_ofList]
  exact trim_keyChars (trim_trim _)

/-- A key begins with no blank. -/
theorem trimStart_propertyKey (p : String) :
    trimStart (propertyKey p).toList = (propertyKey p).toList := by
  rw [← trim_propertyKey, Text.trimStart_trim]

/-- A name of small letters and hyphens is its own key. -/
theorem propertyKey_of_isLower {p : String} (h : ∀ c ∈ p.toList, c.isLower = true ∨ c = '-') :
    propertyKey p = p := by
  have htrim : trim p.toList = p.toList := by
    apply Text.trim_of_not_isBlank
    intro c hc
    rcases h c hc with hlower | rfl
    · exact Text.isBlank_of_isAlpha (Text.isAlpha_of_isLower hlower)
    · decide
  have hchars : p.toList.flatMap hyphenated = p.toList := by
    calc p.toList.flatMap hyphenated
        = p.toList.flatMap fun c => [c] := by
          refine List.flatMap_congr fun c hc => ?_
          rcases h c hc with hlower | rfl
          · exact hyphenated_of_isLower hlower
          · decide
      _ = p.toList := List.flatMap_singleton' _
  have hkey : keyChars p.toList = p.toList := by
    rcases keyChars_cases p.toList with hcustom | hwritten
    · exact hcustom
    · rw [hwritten, hchars]
  unfold propertyKey
  rw [htrim, hkey, String.ofList_toList]

/-- A key is its own key. -/
theorem propertyKey_propertyKey (p : String) : propertyKey (propertyKey p) = propertyKey p := by
  calc propertyKey (propertyKey p)
      = String.ofList (keyChars (propertyKey p).toList) := by
        rw [← trim_propertyKey p]
        rfl
    _ = propertyKey p := by
        unfold propertyKey
        rw [String.toList_ofList, keyChars_keyChars]

/-- A name of blanks has the empty key, and no other one has. -/
theorem isBlankName_propertyKey (p : String) : isBlankName (propertyKey p) = isBlankName p := by
  have hempty : ∀ cs : List Char, (keyChars cs).isEmpty = cs.isEmpty := by
    intro cs
    rcases keyChars_cases cs with h | h
    · rw [h]
    · cases cs with
      | nil => rfl
      | cons c rest => simp [h, hyphenated_ne_nil]
  unfold isBlankName
  rw [trim_propertyKey]
  unfold propertyKey
  rw [String.toList_ofList, hempty]

end ResponsiveStyle.Style

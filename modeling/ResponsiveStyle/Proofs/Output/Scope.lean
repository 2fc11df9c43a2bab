/-
# Names of files

A name is that of a file of a scope if it is the lead of the scope, twelve hexadecimal digits and
the ending of style sheets (`isScopeFile_iff`). Digits and ending have a fixed length, so a name has
one lead at most (`lead_unique`), and a lead belongs to one scope (`scope_unique`): no file belongs
to two scopes.
-/
import ResponsiveStyle.Proofs.Output.Digest
import ResponsiveStyle.Proofs.Text.Cut

namespace ResponsiveStyle.Output

open Text (isHexDigit)

/-! ## The shape of a name -/

/-- The files of a scope are named by the lead, twelve hexadecimal digits and the ending. -/
theorem isScopeFile_iff (lead name : String) :
    isScopeFile lead name = true ↔
      ∃ digits : List Char, name.toList = lead.toList ++ (digits ++ ".css".toList) ∧
        digits.length = digestLength ∧ digits.all isHexDigit = true := by
  unfold isScopeFile
  constructor
  · intro h
    split at h
    · rename_i digits hdigits
      obtain ⟨rest, hrest, hbefore⟩ := Option.bind_eq_some_iff.mp hdigits
      rw [Bool.and_eq_true, beq_iff_eq] at h
      refine ⟨digits, ?_, h⟩
      rw [(Text.after?_eq_some_iff _ _ _).mp hrest, (Text.before?_eq_some_iff _ _ _).mp hbefore]
    · exact absurd h Bool.false_ne_true
  · rintro ⟨digits, hname, hlength, hhex⟩
    have hafter : Text.after? lead.toList name.toList = some (digits ++ ".css".toList) :=
      (Text.after?_eq_some_iff _ _ _).mpr hname
    have hbefore : Text.before? ".css".toList (digits ++ ".css".toList) = some digits :=
      (Text.before?_eq_some_iff _ _ _).mpr rfl
    rw [hafter, Option.bind_some, hbefore]
    simp [hlength, hhex]

/-- Whether a file is one of a scope but not the one to keep. -/
def isStale (lead keep name : String) : Bool := name != keep && isScopeFile lead name

theorem isStale_iff {lead keep name : String} :
    isStale lead keep name = true ↔ name ≠ keep ∧ isScopeFile lead name = true := by
  unfold isStale
  rw [Bool.and_eq_true, bne_iff_ne]

/-- A file belongs to the scope of one lead only. -/
theorem lead_unique {a b name : String} (ha : isScopeFile a name = true)
    (hb : isScopeFile b name = true) : a = b := by
  obtain ⟨ds, hds, hlengthd, -⟩ := (isScopeFile_iff a name).mp ha
  obtain ⟨es, hes, hlengthe, -⟩ := (isScopeFile_iff b name).mp hb
  -- what stands behind the lead is equally long in both readings
  have hrest : (ds ++ ".css".toList).length = (es ++ ".css".toList).length := by
    rw [List.length_append, List.length_append, hlengthd, hlengthe]
  exact String.toList_inj.mp (List.append_inj_left' (hds.symm.trans hes) hrest)

/-- A file of one scope is none of another. -/
theorem isScopeFile_eq_false {a b name : String} (ha : isScopeFile a name = true) (hab : a ≠ b) :
    isScopeFile b name = false :=
  Bool.eq_false_iff.mpr fun hb => hab (lead_unique ha hb)

/-- The digits of a digest in a name: twelve hexadecimal ones. -/
structure IsNameDigits (digits : String) : Prop where
  length : digits.toList.length = digestLength
  hexadecimal : digits.toList.all isHexDigit = true

/-- The digits of a name have no other characters. -/
theorem IsNameDigits.not_mem {digits : String} (h : IsNameDigits digits) {c : Char}
    (hc : isHexDigit c = false) : c ∉ digits.toList := by
  intro hmem
  rw [List.all_eq_true.mp h.hexadecimal c hmem] at hc
  cases hc

/-- A name with twelve hexadecimal digits behind the lead belongs to its scope. -/
theorem isScopeFile_append (lead : String) {digits : String} (h : IsNameDigits digits) :
    isScopeFile lead (lead ++ digits ++ ".css") = true := by
  refine (isScopeFile_iff lead _).mpr ⟨digits.toList, ?_, h.length, h.hexadecimal⟩
  rw [String.toList_append, String.toList_append, List.append_assoc]

/-- The file of a content belongs to its scope. -/
theorem isScopeFile_fileName (lead : String) {digest : String} (h : IsDigest digest) :
    isScopeFile lead (fileName lead digest) = true := by
  refine isScopeFile_append lead ⟨?_, ?_⟩
  · rw [String.toList_ofList, List.length_take, h.length]
    rfl
  · rw [String.toList_ofList, List.all_eq_true]
    intro c hc
    exact isHexDigit_of_isDigestChar (h.characters c (List.mem_of_mem_take hc))

/-- A file that is not of a scope is not the file of a content of the scope. -/
theorem ne_fileName {lead name digest : String} (h : IsDigest digest)
    (hname : isScopeFile lead name = false) : name ≠ fileName lead digest := by
  rintro rfl
  rw [isScopeFile_fileName lead h] at hname
  cases hname

/-! ## Leads -/

/-- The lead of the site and those of the nodes whose ids may name a file. -/
theorem lead?_cases {s : Scope} {lead : String} (h : s.lead? = .ok lead) :
    (s = .site ∧ lead = "global-") ∨
      ∃ id, s = .node id ∧ Scope.isFileId id = true ∧ lead = "post-" ++ id ++ "-" := by
  cases s with
  | site => exact .inl ⟨rfl, (Except.ok.inj h).symm⟩
  | node id =>
    unfold Scope.lead? at h
    simp only at h
    split at h
    · rename_i hid
      exact .inr ⟨id, rfl, hid, (Except.ok.inj h).symm⟩
    · cases h

/-- A lead ends with a hyphen. -/
theorem exists_handle {s : Scope} {lead : String} (h : s.lead? = .ok lead) :
    ∃ handle, handle ++ "-" = lead := by
  rcases lead?_cases h with ⟨-, rfl⟩ | ⟨id, -, -, rfl⟩
  · exact ⟨"global", rfl⟩
  · exact ⟨"post-" ++ id, rfl⟩

/-- A lead has no characters that may not name a file. -/
theorem not_mem_lead {s : Scope} {lead : String} (h : s.lead? = .ok lead) {c : Char}
    (hc : Scope.isFileChar c = false) : c ∉ lead.toList := by
  have hall : lead.toList.all Scope.isFileChar = true := by
    rcases lead?_cases h with ⟨-, rfl⟩ | ⟨id, -, hid, rfl⟩
    · decide
    · rw [String.toList_append, String.toList_append, List.all_append, List.all_append,
        (Bool.and_eq_true_iff.mp hid).2]
      decide
  intro hmem
  rw [List.all_eq_true.mp hall c hmem] at hc
  cases hc

/-- A lead belongs to one scope only. -/
theorem scope_unique {s t : Scope} {lead : String} (hs : s.lead? = .ok lead)
    (ht : t.lead? = .ok lead) : s = t := by
  -- the leads of nodes and of the site differ in the first character
  have hapart : ∀ id : String, "post-" ++ id ++ "-" ≠ "global-" := by
    intro id h
    have hlist := congrArg (fun s : String => s.toList.head?) h
    simp at hlist
  rcases lead?_cases hs with ⟨rfl, hsite⟩ | ⟨id, rfl, -, hnode⟩
  · rcases lead?_cases ht with ⟨rfl, -⟩ | ⟨id, -, -, hnode⟩
    · rfl
    · exact absurd (hnode.symm.trans hsite) (hapart id)
  · rcases lead?_cases ht with ⟨-, hsite⟩ | ⟨id', rfl, -, hnode'⟩
    · exact absurd (hnode.symm.trans hsite) (hapart id)
    · have h := congrArg String.toList (hnode.symm.trans hnode')
      simp only [String.toList_append] at h
      have hid : id.toList = id'.toList := List.append_cancel_left (List.append_cancel_right h)
      rw [String.toList_inj.mp hid]

end ResponsiveStyle.Output

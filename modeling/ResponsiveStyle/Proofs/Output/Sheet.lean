/-
# Files and elements of scopes

The name of a file says whose it is: no scope takes the file of another one for its own, and the
element that loads a file has an id made of the lead of its scope. A node id may have hyphens and
digits in it, but behind the lead there is no hyphen, so the last hyphen of a name ends its lead.
-/
import ResponsiveStyle.Output.Sheet
import ResponsiveStyle.Proofs.Output.Path
import ResponsiveStyle.Proofs.Output.Scope

namespace ResponsiveStyle.Output

open Text (after?)

/-! ## Names -/

/-- The file of a scope has a name that leads to a file. -/
theorem isFileName_append {s : Scope} {lead : String} (hs : s.lead? = .ok lead) {digits : String}
    (h : IsNameDigits digits) : Path.IsFileName (lead ++ digits ++ ".css") := by
  -- the last letter tells the name from those that lead nowhere or back
  have hlast : (lead ++ digits ++ ".css").toList.getLast? = some 's' := by
    rw [String.toList_append, List.getLast?_append]
    rfl
  have hne : ∀ other : String, other.toList.getLast? ≠ some 's' →
      lead ++ digits ++ ".css" ≠ other := by
    rintro other hother rfl
    exact hother hlast
  refine ⟨?_, ?_, hne ".." (by decide)⟩
  · simp only [String.toList_append, List.mem_append, not_or]
    exact ⟨⟨not_mem_lead hs (by decide), h.not_mem (by decide)⟩, by decide⟩
  · unfold Path.isStay
    rw [Bool.or_eq_false_iff, beq_eq_false_iff_ne, beq_eq_false_iff_ne]
    exact ⟨hne "" (by decide), hne "." (by decide)⟩

/-- The name without its ending is the lead with the digits. -/
theorem stem_name {s : Scope} {lead : String} (hs : s.lead? = .ok lead) (digits : String) :
    Path.stem (lead ++ digits ++ ".css") = lead ++ digits := by
  have hne : lead ++ digits ≠ "" := by
    obtain ⟨handle, rfl⟩ := exists_handle hs
    intro hempty
    have hchars := congrArg String.toList hempty
    simp at hchars
  rw [show ".css" = "." ++ "css" from rfl, ← String.append_assoc]
  exact Path.stem_append (by decide) hne

namespace CompiledSheet

/-- The handle of a file of a scope is the lead without the hyphen at its end. -/
theorem handle_append {s : Scope} {lead : String} (hs : s.lead? = .ok lead) {digits : String}
    (h : IsNameDigits digits) {sheet : CompiledSheet}
    (hfile : Path.fileName? sheet.path = some (lead ++ digits ++ ".css")) :
    sheet.handle ++ "-" = lead := by
  obtain ⟨front, rfl⟩ := exists_handle hs
  have hstem : Path.fileStem? sheet.path = some (front ++ "-" ++ digits) := by
    unfold Path.fileStem?
    rw [hfile, Option.map_some, stem_name hs]
  have hchars : (front ++ "-" ++ digits).toList = front.toList ++ '-' :: digits.toList := by
    rw [String.toList_append, String.toList_append, List.append_assoc]
    rfl
  have hcut : Path.cutAtLast? '-' (front ++ "-" ++ digits).toList
      = some (front.toList, digits.toList) := by
    rw [hchars]
    exact Path.cutAtLast?_append (h.not_mem (by decide)) front.toList
  unfold handle
  simp only [hstem, hcut, String.ofList_toList]

/-! ## Ids of elements -/

/-- The text of an element up to its id. -/
def linkStart : String := "<link rel=\"stylesheet\" id=\""

/-- The id of the element that loads a style sheet, as it is read: what stands between the
quotes. -/
def linkId? (tag : String) : Option String :=
  (after? linkStart.toList tag.toList).map fun rest =>
    String.ofList (rest.takeWhile (· != '"'))

/-- An id without quotes is read up to the quote behind it. -/
theorem linkId?_append {id : String} (h : '"' ∉ id.toList) (rest : String) :
    linkId? (linkStart ++ (id ++ ("\"" ++ rest))) = some id := by
  have hpass : ∀ c ∈ id.toList, (c != '"') = true := by
    intro c hc
    rw [bne_iff_ne]
    rintro rfl
    exact h hc
  have hstop : ("\"" ++ rest).toList = '"' :: rest.toList := String.toList_append
  unfold linkId?
  rw [String.toList_append, Text.after?_append, Option.map_some, String.toList_append, hstop,
    List.takeWhile_append_of_pos hpass, List.takeWhile_cons_of_neg (by decide), List.append_nil,
    String.ofList_toList]

/-- The element of a style sheet is read with the handle in its id, if the handle has no quote. -/
theorem linkId?_linkTag {sheet : CompiledSheet} (h : '"' ∉ sheet.handle.toList) :
    linkId? sheet.linkTag = some ("costered-" ++ sheet.handle ++ "-css") := by
  have htag : sheet.linkTag = linkStart ++ (("costered-" ++ sheet.handle ++ "-css") ++
      ("\"" ++ (" href=\"" ++ sheet.versionedUrl ++ "\" media=\"all\" />"))) := by
    unfold linkTag linkStart
    rw [show "<link rel=\"stylesheet\" id=\"costered-"
        = "<link rel=\"stylesheet\" id=\"" ++ "costered-" by decide,
      show "-css\" href=\"" = "-css" ++ "\"" ++ " href=\"" by decide]
    simp only [String.append_assoc]
  rw [htag]
  apply linkId?_append
  simp only [String.toList_append, List.mem_append, not_or]
  exact ⟨⟨by decide, h⟩, by decide⟩

/-- The handle of a file of a scope has no quote. -/
theorem quote_not_mem_handle {s : Scope} {lead : String} (hs : s.lead? = .ok lead)
    {sheet : CompiledSheet} (h : sheet.handle ++ "-" = lead) : '"' ∉ sheet.handle.toList := by
  intro hmem
  apply not_mem_lead hs (c := '"') (by decide)
  rw [← h, String.toList_append]
  exact List.mem_append_left _ hmem

end CompiledSheet

/-! ## An unambiguous code -/

/-- The names of files tell the scopes apart. With any twelve digits behind its lead a name belongs
to its own scope only; it is the last name on the path to it in any directory; and the element that
loads the file has an id made of the lead without the hyphen at its end, so that elements of
different scopes have different ids. -/
theorem names_tell_scopes {s t : Scope} {lead lead' : String} (hs : s.lead? = .ok lead)
    (ht : t.lead? = .ok lead') {digits digits' : String} (h : IsNameDigits digits)
    (h' : IsNameDigits digits') :
    (isScopeFile lead' (lead ++ digits ++ ".css") = true ↔ s = t) ∧
      (Path.segments (lead ++ digits ++ ".css") = [lead ++ digits ++ ".css"] ∧
        ∀ dir, Path.names (Config.under dir (lead ++ digits ++ ".css"))
            = Path.names dir ++ [lead ++ digits ++ ".css"] ∧
          Path.fileName? (Config.under dir (lead ++ digits ++ ".css"))
            = some (lead ++ digits ++ ".css")) ∧
      ∀ sheet sheet' : CompiledSheet,
        Path.fileName? sheet.path = some (lead ++ digits ++ ".css") →
        Path.fileName? sheet'.path = some (lead' ++ digits' ++ ".css") →
          sheet.handle ++ "-" = lead ∧
            CompiledSheet.linkId? sheet.linkTag = some ("costered-" ++ sheet.handle ++ "-css") ∧
            (CompiledSheet.linkId? sheet.linkTag = CompiledSheet.linkId? sheet'.linkTag ↔
              s = t) := by
  have hsame : lead = lead' ↔ s = t := by
    constructor
    · rintro rfl
      exact scope_unique hs ht
    · rintro rfl
      exact Except.ok.inj (hs.symm.trans ht)
  refine ⟨?_, ?_, ?_⟩
  · rw [← hsame]
    constructor
    · exact lead_unique (isScopeFile_append lead h)
    · rintro rfl
      exact isScopeFile_append lead h
  · have hname := isFileName_append hs h
    exact ⟨Path.segments_of_not_mem hname.slash, fun dir =>
      ⟨Path.names_under dir hname, Path.fileName?_under dir hname⟩⟩
  · intro sheet sheet' hfile hfile'
    have hhandle := CompiledSheet.handle_append hs h hfile
    have hhandle' := CompiledSheet.handle_append ht h' hfile'
    have hlink := CompiledSheet.linkId?_linkTag (CompiledSheet.quote_not_mem_handle hs hhandle)
    have hlink' := CompiledSheet.linkId?_linkTag (CompiledSheet.quote_not_mem_handle ht hhandle')
    refine ⟨hhandle, hlink, ?_⟩
    rw [hlink, hlink', Option.some_inj, ← hsame, ← hhandle, ← hhandle', String.append_left_inj,
      String.append_right_inj, String.append_left_inj]

/-- A node id that looks like another one with digits behind it. -/
theorem names_tell_scopes_digits_in_id :
    (Scope.node "1-0123456789ab").lead? = .ok "post-1-0123456789ab-" ∧
      (Scope.node "1").lead? = .ok "post-1-" ∧ IsNameDigits "ABCDEFabcdef" ∧
      isScopeFile "post-1-" "post-1-0123456789ab-ABCDEFabcdef.css" = false ∧
      (CompiledSheet.handle ⟨"", "/up/post-1-0123456789ab-ABCDEFabcdef.css", "", ""⟩) ++ "-"
        = "post-1-0123456789ab-" := by
  have hs : (Scope.node "1-0123456789ab").lead? = .ok "post-1-0123456789ab-" := rfl
  have ht : (Scope.node "1").lead? = .ok "post-1-" := rfl
  have hdigits : IsNameDigits "ABCDEFabcdef" := ⟨by decide, by decide⟩
  obtain ⟨hscope, hpath, hsheet⟩ := names_tell_scopes hs ht hdigits hdigits
  refine ⟨hs, ht, hdigits, ?_, ?_⟩
  · exact Bool.eq_false_iff.mpr fun hfile => absurd (hscope.mp hfile) (by decide)
  · refine (hsheet _ ⟨"", "/up/post-1-ABCDEFabcdef.css", "", ""⟩ ?_ ?_).1
    · exact (hpath.2 "/up").2
    · decide

end ResponsiveStyle.Output

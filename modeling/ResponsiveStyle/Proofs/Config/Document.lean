/-
# Written configurations

A configuration is written as a record of its fields, and so are its widths within. A field that has
its standard value may be left out of either record (`Config.WrittenAs`). Each such record is read
as the configuration it was written for (`Config.ofDocument?_eq_some_of_writtenAs`).
-/
import ResponsiveStyle.Config.Document
import ResponsiveStyle.Proofs.Json.Fields

namespace ResponsiveStyle

open Json (Document FieldForm IsRecordOf)
open Json.Document (asText? asList? asTable? Gives ofJson fields?_eq_some_of_isRecordOf)

/-! ## Widths -/

/-- A width is read back. -/
theorem asWidth?_ofJson (w : UInt32) : asWidth? (ofJson (.integer w.toNat)) = some w := by
  have hread : Json.Document.asNat? 4294967295 (ofJson (.integer w.toNat)) = some w.toNat :=
    if_pos (Nat.le_of_lt_succ w.toNat_lt)
  rw [asWidth?, hread, Option.map_some]
  exact congrArg some UInt32.ofNat_toNat

namespace Breakpoints

variable (b : Breakpoints)

/-- How the widths may be written. -/
def forms : List FieldForm :=
  [.one "mobile" (.integer b.mobile.toNat) (b.mobile = standard.mobile),
    .one "tablet" (.integer b.tablet.toNat) (b.tablet = standard.tablet),
    .one "desktop" (.integer b.desktop.toNat) (b.desktop = standard.desktop)]

/-- A record of the widths, in which those that are standard may be left out. -/
def WrittenAs (j : Json) : Prop := IsRecordOf b.forms j

theorem writtenAs_toJson : b.WrittenAs b.toJson := by
  apply Json.isRecordOf_record
  simp [forms, FieldForm.one]

variable {b}

/-- The widths are read back from each record of them. -/
theorem ofDocument?_eq_some_of_writtenAs {j : Json} {depth : Nat} (h : b.WrittenAs j)
    (hdepth : j.nesting ≤ depth) : ofDocument? depth (ofJson j) = some b := by
  obtain ⟨ds, hfields, hgives⟩ := fields?_eq_some_of_isRecordOf fieldNames rfl (by decide) h hdepth
  simp only [forms, List.forall₂_cons_left_iff, List.forall₂_nil_left_iff] at hgives
  obtain ⟨mobile, _, hmobile, ⟨tablet, _, htablet, ⟨desktop, _, hdesktop, rfl, rfl⟩, rfl⟩, rfl⟩ :=
    hgives
  have hmobile := hmobile.orDefault?_one fun _ => asWidth?_ofJson b.mobile
  have htablet := htablet.orDefault?_one fun _ => asWidth?_ofJson b.tablet
  have hdesktop := hdesktop.orDefault?_one fun _ => asWidth?_ofJson b.desktop
  rw [ofDocument?, hfields]
  simp [hmobile, htablet, hdesktop]

end Breakpoints

/-! ## Lists of texts -/

/-- A list of texts is read back. -/
theorem asList?_textList {texts : List String} {depth : Nat}
    (hdepth : (Config.textList texts).nesting ≤ depth) :
    asList? depth (fun _ => asText?) (ofJson (Config.textList texts)) = some texts := by
  apply Json.Document.asList?_ofJson hdepth
  rw [List.forall₂_map_right_iff, List.forall₂_same]
  exact fun _ _ => rfl

/-- A set of names is read back from the list of them. -/
theorem NameSet.ofDocument?_textList {s : NameSet} {depth : Nat}
    (hdepth : (Config.textList s.keys).nesting ≤ depth) :
    NameSet.ofDocument? depth (ofJson (Config.textList s.keys)) = some s := by
  rw [NameSet.ofDocument?, asList?_textList hdepth, Option.map_some, NameSet.ofNames_keys]

namespace Config

/-! ## Configurations -/

/-- The record of a table of selectors. -/
def strengthenJson (t : Table (List String)) : Json :=
  .record (t.entries.map fun e => (e.1, textList e.2))

/-- A table of selectors is read back from its record. -/
theorem strengthenOfDocument?_strengthenJson {t : Table (List String)} {depth : Nat}
    (hdepth : (strengthenJson t).nesting ≤ depth) :
    strengthenOfDocument? depth (ofJson (strengthenJson t)) = some t := by
  have hentries : asTable? depth (fun depth => asList? depth fun _ => asText?)
      (ofJson (strengthenJson t)) = some t.entries := by
    apply Json.Document.asTable?_ofJson hdepth
    rw [List.forall₂_map_right_iff, List.forall₂_same]
    intro e he
    have hnesting : (textList e.2).nesting ≤ depth - 1 :=
      (Json.nesting_record_le_iff.mp hdepth).2 (e.1, textList e.2) (List.mem_map_of_mem he)
    exact ⟨rfl, asList?_textList hnesting⟩
  rw [strengthenOfDocument?, hentries, Option.map_some, Table.ofList_entries]

variable (c : Config)

/-- How the fields of a configuration may be written. -/
def forms : List FieldForm :=
  [⟨["breakpoints"], c.breakpoints.WrittenAs, c.breakpoints = standard.breakpoints⟩,
    .one "strengthen" (strengthenJson c.strengthen) (c.strengthen = standard.strengthen),
    .one "unitless" (textList c.unitless.keys) (c.unitless = standard.unitless),
    .one "selector_attribute" (.text c.selectorAttribute)
      (c.selectorAttribute = standard.selectorAttribute),
    .one "scope_id_field" (.text c.scopeIdField) (c.scopeIdField = standard.scopeIdField),
    .one "styles_field" (.text c.stylesField) (c.stylesField = standard.stylesField),
    .one "uploads_dir" (.text c.uploadsDir) (c.uploadsDir = standard.uploadsDir),
    .one "uploads_url" (.text c.uploadsUrl) (c.uploadsUrl = standard.uploadsUrl)]

/-- A record of a configuration, in which the fields that are standard may be left out, and likewise
the standard ones among the widths. -/
def WrittenAs (j : Json) : Prop := IsRecordOf c.forms j

theorem writtenAs_toJson : c.WrittenAs c.toJson := by
  apply Json.isRecordOf_record
  simp [forms, FieldForm.one, strengthenJson, c.breakpoints.writtenAs_toJson]

variable {c}

/-- A configuration is read back from each record of it. -/
theorem ofDocument?_eq_some_of_writtenAs {j : Json} {depth : Nat} (h : c.WrittenAs j)
    (hdepth : j.nesting ≤ depth) : ofDocument? depth (ofJson j) = some c := by
  obtain ⟨ds, hfields, hgives⟩ := fields?_eq_some_of_isRecordOf fieldNames rfl (by decide) h hdepth
  simp only [forms, List.forall₂_cons_left_iff, List.forall₂_nil_left_iff] at hgives
  obtain ⟨breakpoints, _, hbreakpoints, ⟨strengthen, _, hstrengthen, ⟨unitless, _, hunitless,
    ⟨selector, _, hselector, ⟨scopeId, _, hscopeId, ⟨styles, _, hstyles, ⟨dir, _, hdir, ⟨url, _,
    hurl, rfl, rfl⟩, rfl⟩, rfl⟩, rfl⟩, rfl⟩, rfl⟩, rfl⟩, rfl⟩ := hgives
  have hbreakpoints := hbreakpoints.orDefault?_eq id fun _ =>
    Breakpoints.ofDocument?_eq_some_of_writtenAs
  have hstrengthen := hstrengthen.orDefault?_one strengthenOfDocument?_strengthenJson
  have hunitless := hunitless.orDefault?_one NameSet.ofDocument?_textList
  have htext {name s default : String} {d? : Option Document}
      (hs : Gives (depth - 1) (.one name (.text s) (s = default)) d?) :
      Json.Document.orDefault? default asText? d? = some s :=
    hs.orDefault?_one fun _ => rfl
  rw [ofDocument?, hfields]
  simp [hbreakpoints, hstrengthen, hunitless, htext hselector, htext hscopeId, htext hstyles,
    htext hdir, htext hurl]

end Config

end ResponsiveStyle

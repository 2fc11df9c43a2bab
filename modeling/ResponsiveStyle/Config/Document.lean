/-
# Configurations in documents

A configuration is written as a record of all its fields and read back from such a record, in which
any field may be missing.
-/
import ResponsiveStyle.Config.Basic
import ResponsiveStyle.Json.Fields

namespace ResponsiveStyle

open Json (Document)
open Json.Document (asText? asNat? asList? asTable? fields? orDefault?)

/-! ## Reading -/

/-- A width of 32 bits. -/
def asWidth? (d : Document) : Option UInt32 := (asNat? 4294967295 d).map Nat.toUInt32

namespace Breakpoints

/-- The names of the fields. -/
def fieldNames : List (List String) := [["mobile"], ["tablet"], ["desktop"]]

/-- The widths of a document. -/
def ofDocument? (depth : Nat) (d : Document) : Option Breakpoints := do
  match ← fields? depth fieldNames d with
  | [mobile, tablet, desktop] =>
    return {
      mobile := ← orDefault? standard.mobile asWidth? mobile
      tablet := ← orDefault? standard.tablet asWidth? tablet
      desktop := ← orDefault? standard.desktop asWidth? desktop }
  | _ => none

/-- The record of the widths. -/
def toJson (b : Breakpoints) : Json :=
  .record [("mobile", .integer b.mobile.toNat), ("tablet", .integer b.tablet.toNat),
    ("desktop", .integer b.desktop.toNat)]

end Breakpoints

/-- The names of a list, each once. -/
def NameSet.ofDocument? (depth : Nat) (d : Document) : Option NameSet :=
  (asList? depth (fun _ => asText?) d).map NameSet.ofNames

namespace Config

/-- The names of the fields. -/
def fieldNames : List (List String) :=
  [["breakpoints"], ["strengthen"], ["unitless"], ["selector_attribute"], ["scope_id_field"],
    ["styles_field"], ["uploads_dir"], ["uploads_url"]]

/-- The table of selectors by node type. -/
def strengthenOfDocument? (depth : Nat) (d : Document) : Option (Table (List String)) :=
  (asTable? depth (fun depth => asList? depth fun _ => asText?) d).map Table.ofList

/-- The configuration of a document. -/
def ofDocument? (depth : Nat) (d : Document) : Option Config := do
  match ← fields? depth fieldNames d with
  | [breakpoints, strengthen, unitless, selector, scopeId, styles, dir, url] =>
    let inner := depth - 1
    return {
      breakpoints := ← orDefault? standard.breakpoints (Breakpoints.ofDocument? inner) breakpoints
      strengthen := ← orDefault? standard.strengthen (strengthenOfDocument? inner) strengthen
      unitless := ← orDefault? standard.unitless (NameSet.ofDocument? inner) unitless
      selectorAttribute := ← orDefault? standard.selectorAttribute asText? selector
      scopeIdField := ← orDefault? standard.scopeIdField asText? scopeId
      stylesField := ← orDefault? standard.stylesField asText? styles
      uploadsDir := ← orDefault? standard.uploadsDir asText? dir
      uploadsUrl := ← orDefault? standard.uploadsUrl asText? url }
  | _ => none

/-- The configuration that a text holds. -/
def ofText? (s : String) : Option Config :=
  (Document.ofText? s).bind (ofDocument? Document.nestingLimit)

/-! ## Writing -/

/-- The list of texts. -/
def textList (texts : List String) : Json := .list (texts.map .text)

/-- The record of a configuration. -/
def toJson (c : Config) : Json :=
  .record [("breakpoints", c.breakpoints.toJson),
    ("strengthen", .record (c.strengthen.entries.map fun e => (e.1, textList e.2))),
    ("unitless", textList c.unitless.keys),
    ("selector_attribute", .text c.selectorAttribute),
    ("scope_id_field", .text c.scopeIdField),
    ("styles_field", .text c.stylesField),
    ("uploads_dir", .text c.uploadsDir),
    ("uploads_url", .text c.uploadsUrl)]

end Config

end ResponsiveStyle

/-
# Written sites

A block is written as a record of its fields with the blocks within it under either of two names,
and a node as a record with its blocks. Null attributes, no inner blocks, no blocks and the status
of published nodes may be left out (`Block.WrittenAs`, `Node.WrittenAs`). However the blocks of a
tree are written, the nodes are read back, and so are configurations (`documents_reread`).
-/
import ResponsiveStyle.Proofs.Config.Document
import ResponsiveStyle.Proofs.Site.Blocks
import ResponsiveStyle.Site.Document

namespace ResponsiveStyle.Site

open Json (Document FieldForm IsRecordOf)
open Json.Document (asText? asNat? asList? fields? orDefault? ofJson value? value?_ofJson
  fields?_eq_some_of_isRecordOf asList?_ofJson)

/-! ## Status -/

namespace Status

theorem ofName?_name (s : Status) : ofName? s.name = some s := by
  cases s <;> decide

/-- A status is read back from its name. -/
theorem ofDocument?_name (s : Status) (depth : Nat) :
    ofDocument? depth (ofJson (.text s.name)) = some s :=
  ofName?_name s

end Status

/-! ## Blocks -/

namespace Block

mutual
/-- A record of a block. The blocks within it go by either name, and null attributes and no inner
blocks may be left out. -/
def WrittenAs : Block → Json → Prop
  | ⟨name, attributes, inner⟩ =>
    IsRecordOf
      [.one "name" (.text name) False,
        .one "attrs" attributes (attributes = .null),
        .list ["innerBlocks", "inner"] (fun items => WrittenAll inner items) (inner = [])]

/-- Records of blocks, in their order. -/
def WrittenAll : List Block → List Json → Prop
  | [], [] => True
  | b :: bs, j :: js => WrittenAs b j ∧ WrittenAll bs js
  | _, _ => False
end

mutual
theorem writtenAs_toJson : ∀ b : Block, b.WrittenAs b.toJson
  | ⟨name, attributes, inner⟩ => by
    rw [WrittenAs, toJson]
    apply Json.isRecordOf_record
    simp [FieldForm.one, FieldForm.list, writtenAll_toJsons inner]

theorem writtenAll_toJsons : ∀ bs : List Block, WrittenAll bs (toJsons bs)
  | [] => trivial
  | b :: bs => ⟨writtenAs_toJson b, writtenAll_toJsons bs⟩
end

theorem innerOfDocument?_eq_asList? (depth : Nat) :
    innerOfDocument? depth = asList? depth ofDocument? := by
  funext d
  cases depth <;> cases d <;> rfl

mutual
/-- A block is read back from each record of it. -/
theorem ofDocument?_eq_some_of_writtenAs :
    ∀ {b : Block} {j : Json} {depth : Nat}, (∀ a ∈ b.family, a.attributes.Proper) →
      b.WrittenAs j → j.nesting ≤ depth → ofDocument? depth (ofJson j) = some b
  | ⟨name, attributes, inner⟩, j, 0, _, h, hdepth => by
    rw [WrittenAs] at h
    exact absurd h.nesting_pos (Nat.not_lt.mpr hdepth)
  | ⟨name, attributes, inner⟩, j, depth + 1, hproper, h, hdepth => by
    rw [WrittenAs] at h
    rw [family, List.forall_mem_cons] at hproper
    obtain ⟨ds, hfields, hgives⟩ :=
      fields?_eq_some_of_isRecordOf fieldNames rfl (by decide) h hdepth
    simp only [List.forall₂_cons_left_iff, List.forall₂_nil_left_iff] at hgives
    obtain ⟨name?, _, hname, ⟨attributes?, _, hattributes, ⟨inner?, _, hinner, rfl, rfl⟩, rfl⟩,
      rfl⟩ := hgives
    have hname : name?.bind asText? = some name := hname.bind_one rfl
    have hattributes : orDefault? .null (value? depth) attributes? = some attributes :=
      hattributes.orDefault?_one (value?_ofJson hproper.1)
    have hinner : orDefault? [] (innerOfDocument? depth) inner? = some inner := by
      rw [innerOfDocument?_eq_asList?]
      exact hinner.orDefault?_list fun items => forall₂_of_writtenAll hproper.2
    rw [ofDocument?, hfields]
    simp [hname, hattributes, hinner]

/-- Blocks are read back from each list of records of them. -/
theorem forall₂_of_writtenAll :
    ∀ {bs : List Block} {js : List Json} {depth : Nat}, (∀ a ∈ families bs, a.attributes.Proper) →
      WrittenAll bs js → (∀ j ∈ js, j.nesting ≤ depth) →
      List.Forall₂ (fun b j => ofDocument? depth (ofJson j) = some b) bs js
  | [], [], _, _, _, _ => .nil
  | b :: bs, j :: js, depth, hproper, h, hdepth => by
    rw [families, List.forall_mem_append] at hproper
    rw [WrittenAll] at h
    rw [List.forall_mem_cons] at hdepth
    exact .cons (ofDocument?_eq_some_of_writtenAs hproper.1 h.1 hdepth.1)
      (forall₂_of_writtenAll hproper.2 h.2 hdepth.2)
end

end Block

/-! ## Nodes -/

namespace Node

/-- The id has 64 bits, and no attributes have a name twice; none that are read do
(`Json.Document.proper_of_value?`). -/
structure Storable (n : Node) : Prop where
  id_le : n.id ≤ Text.maxSize
  proper : ∀ b ∈ Block.families n.blocks, b.attributes.Proper

variable (n : Node)

/-- How the fields of a node may be written. -/
def forms : List FieldForm :=
  [.one "id" (.integer n.id) False,
    .one "status" (.text n.status.name) (n.status = .published),
    .list ["blocks"] (Block.WrittenAll n.blocks) (n.blocks = [])]

/-- A record of a node, in which the status of published nodes and no blocks may be left out. -/
def WrittenAs (j : Json) : Prop := IsRecordOf n.forms j

theorem writtenAs_toJson : n.WrittenAs n.toJson := by
  apply Json.isRecordOf_record
  simp [forms, FieldForm.one, FieldForm.list, Block.writtenAll_toJsons]

variable {n}

/-- A node is read back from each record of it. -/
theorem ofDocument?_eq_some_of_writtenAs (hn : n.Storable) {j : Json} {depth : Nat}
    (h : n.WrittenAs j) (hdepth : j.nesting ≤ depth) : ofDocument? depth (ofJson j) = some n := by
  obtain ⟨ds, hfields, hgives⟩ := fields?_eq_some_of_isRecordOf fieldNames rfl (by decide) h hdepth
  simp only [forms, List.forall₂_cons_left_iff, List.forall₂_nil_left_iff] at hgives
  obtain ⟨id?, _, hid, ⟨status?, _, hstatus, ⟨blocks?, _, hblocks, rfl, rfl⟩, rfl⟩, rfl⟩ := hgives
  have hid : id?.bind (asNat? Text.maxSize) = some n.id := hid.bind_one (if_pos hn.id_le)
  have hstatus := hstatus.orDefault?_one fun _ => Status.ofDocument?_name n.status (depth - 1)
  have hblocks : orDefault? [] (asList? (depth - 1) Block.ofDocument?) blocks? = some n.blocks :=
    hblocks.orDefault?_list fun items => Block.forall₂_of_writtenAll hn.proper
  rw [ofDocument?, hfields]
  simp [hid, hstatus, hblocks]

/-! ## Sites -/

/-- A record of a site with its nodes. -/
def SiteWrittenAs (nodes : List Node) (j : Json) : Prop :=
  IsRecordOf [.list ["nodes"] (List.Forall₂ WrittenAs nodes) (nodes = [])] j

theorem siteWrittenAs_record {nodes : List Node} {js : List Json}
    (h : List.Forall₂ WrittenAs nodes js) :
    SiteWrittenAs nodes (.record [("nodes", .list js)]) := by
  apply Json.isRecordOf_record
  simpa [FieldForm.list] using h

/-- Nodes are read back from each list of records of them. -/
theorem forall₂_of_writtenAs {nodes : List Node} {js : List Json} {depth : Nat}
    (hnodes : ∀ n ∈ nodes, n.Storable) (h : List.Forall₂ WrittenAs nodes js)
    (hdepth : ∀ j ∈ js, j.nesting ≤ depth) :
    List.Forall₂ (fun n j => ofDocument? depth (ofJson j) = some n) nodes js := by
  induction h with
  | nil => exact .nil
  | cons hn _ ih =>
    rw [List.forall_mem_cons] at hnodes hdepth
    exact .cons (ofDocument?_eq_some_of_writtenAs hnodes.1 hn hdepth.1) (ih hnodes.2 hdepth.2)

/-- Nodes are read back from each record of a site. -/
theorem listOfDocument?_of_writtenAs {nodes : List Node} {j : Json} {depth : Nat}
    (hnodes : ∀ n ∈ nodes, n.Storable) (h : SiteWrittenAs nodes j) (hdepth : j.nesting ≤ depth) :
    listOfDocument? depth (ofJson j) = some nodes := by
  obtain ⟨ds, hfields, hgives⟩ :=
    fields?_eq_some_of_isRecordOf [["nodes"]] rfl (by decide) h hdepth
  simp only [List.forall₂_cons_left_iff, List.forall₂_nil_left_iff] at hgives
  obtain ⟨nodes?, _, hnodes?, rfl, rfl⟩ := hgives
  rw [listOfDocument?, hfields]
  exact hnodes?.orDefault?_list fun items => forall₂_of_writtenAs hnodes

end Node

/-! ## Documents of configurations and sites -/

/-- Configurations and nodes are what is read from their records, whichever of the two names the
blocks within a block have and whichever fields with default values are left out. -/
theorem documents_reread (c : Config) (nodes : List Node) (hnodes : ∀ n ∈ nodes, n.Storable) :
    (c.WrittenAs c.toJson ∧ ∀ j, c.WrittenAs j → ∀ depth, j.nesting ≤ depth →
      Config.ofDocument? depth (ofJson j) = some c) ∧
    (List.Forall₂ Node.WrittenAs nodes (nodes.map Node.toJson) ∧
      ∀ js, List.Forall₂ Node.WrittenAs nodes js → ∀ depth, (Json.list js).nesting ≤ depth →
        asList? depth Node.ofDocument? (ofJson (.list js)) = some nodes) ∧
    Node.SiteWrittenAs nodes (.record [("nodes", .list (nodes.map Node.toJson))]) ∧
      ∀ j, Node.SiteWrittenAs nodes j → ∀ depth, j.nesting ≤ depth →
        Node.listOfDocument? depth (ofJson j) = some nodes := by
  have hwritten : List.Forall₂ Node.WrittenAs nodes (nodes.map Node.toJson) := by
    rw [List.forall₂_map_right_iff, List.forall₂_same]
    exact fun n _ => n.writtenAs_toJson
  refine ⟨⟨c.writtenAs_toJson, ?_⟩, ⟨hwritten, ?_⟩, Node.siteWrittenAs_record hwritten, ?_⟩
  · exact fun j h depth hdepth => Config.ofDocument?_eq_some_of_writtenAs h hdepth
  · exact fun js h depth hdepth => asList?_ofJson hdepth
      (Node.forall₂_of_writtenAs hnodes h (Json.nesting_list_le_iff.mp hdepth).2)
  · exact fun j h depth hdepth => Node.listOfDocument?_of_writtenAs hnodes h hdepth

/-- One width other than the standard ones, and a block whose inner blocks go by their other name,
with fields left out at every level. -/
theorem documents_reread_other_name :
    let c : Config := { Config.standard with breakpoints := ⟨600, 1024, 1440⟩ }
    let config : Json := .record [("breakpoints", .record [("mobile", .integer 600)])]
    let button : Block := ⟨"core/button", .record [("costeredId", .text "a")], []⟩
    let group : Block := ⟨"core/group", .null, [button, ⟨"core/spacer", .null, []⟩]⟩
    let nodes : List Node := [⟨7, .autoDraft, [group]⟩, ⟨8, .published, []⟩]
    let inner : List Json := [button.toJson, .record [("name", .text "core/spacer")]]
    let blocks : List Json := [.record [("name", .text "core/group"), ("inner", .list inner)]]
    let items : List Json :=
      [.record [("id", .integer 7), ("status", .text "auto-draft"), ("blocks", .list blocks)],
        .record [("id", .integer 8)]]
    (∀ n ∈ nodes, n.Storable) ∧ c.WrittenAs config ∧ List.Forall₂ Node.WrittenAs nodes items ∧
      Config.ofDocument? 2 (ofJson config) = some c ∧
      asList? 7 Node.ofDocument? (ofJson (.list items)) = some nodes ∧
      Node.listOfDocument? 8 (ofJson (.record [("nodes", .list items)])) = some nodes := by
  intro c config button group nodes inner blocks items
  have hnodes : ∀ n ∈ nodes, n.Storable := by
    intro n hn
    constructor
    · simp only [nodes, List.mem_cons, List.not_mem_nil, or_false] at hn
      rcases hn with rfl | rfl <;> decide
    · simp only [nodes, List.mem_cons, List.not_mem_nil, or_false] at hn
      rcases hn with rfl | rfl <;>
        simp [Block.family, Block.families, group, button, Json.Proper, Json.ProperMembers]
  have hconfig : c.WrittenAs config := by
    have hwidths : c.breakpoints.WrittenAs (.record [("mobile", .integer 600)]) :=
      ⟨[some ("mobile", .integer 600), none, none], .cons (.present List.mem_cons_self rfl)
        (.cons (.missing rfl) (.cons (.missing rfl) .nil)), rfl⟩
    exact ⟨[some ("breakpoints", .record [("mobile", .integer 600)]), none, none, none, none, none,
      none, none], .cons (.present List.mem_cons_self hwidths) (.cons (.missing rfl)
        (.cons (.missing rfl) (.cons (.missing rfl) (.cons (.missing rfl) (.cons (.missing rfl)
          (.cons (.missing rfl) (.cons (.missing rfl) .nil))))))), rfl⟩
  have hspacer : Block.WrittenAs ⟨"core/spacer", .null, []⟩
      (.record [("name", .text "core/spacer")]) :=
    ⟨[some ("name", .text "core/spacer"), none, none], .cons (.present List.mem_cons_self rfl)
      (.cons (.missing rfl) (.cons (.missing rfl) .nil)), rfl⟩
  have hgroup : group.WrittenAs (.record [("name", .text "core/group"), ("inner", .list inner)]) :=
    ⟨[some ("name", .text "core/group"), none, some ("inner", .list inner)],
      .cons (.present List.mem_cons_self rfl) (.cons (.missing rfl)
        (.cons (.present (by decide) ⟨inner, rfl, button.writtenAs_toJson, hspacer, trivial⟩)
          .nil)), rfl⟩
  have hitems : List.Forall₂ Node.WrittenAs nodes items := by
    refine .cons ?_ (.cons ?_ .nil)
    · exact ⟨[some ("id", .integer 7), some ("status", .text "auto-draft"),
        some ("blocks", .list blocks)], .cons (.present List.mem_cons_self rfl)
          (.cons (.present List.mem_cons_self rfl)
            (.cons (.present List.mem_cons_self ⟨blocks, rfl, hgroup, trivial⟩) .nil)), rfl⟩
    · exact ⟨[some ("id", .integer 8), none, none], .cons (.present List.mem_cons_self rfl)
        (.cons (.missing rfl) (.cons (.missing rfl) .nil)), rfl⟩
  have hsite : Node.SiteWrittenAs nodes (.record [("nodes", .list items)]) :=
    Node.siteWrittenAs_record hitems
  obtain ⟨⟨_, hreadConfig⟩, ⟨_, hreadNodes⟩, _, hreadSite⟩ := documents_reread c nodes hnodes
  exact ⟨hnodes, hconfig, hitems, hreadConfig config hconfig 2 (by decide),
    hreadNodes items hitems 7 (by decide), hreadSite _ hsite 8 (by decide)⟩

end ResponsiveStyle.Site

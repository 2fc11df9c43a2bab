/-
# Values in documents

Every value has a document (`Document.ofJson`), and reading this document gives the value back as
long as no name occurs twice in a record and the nesting is allowed (`value?_ofJson`). No value that
is read from a document has a name twice (`proper_of_value?`).
-/
import ResponsiveStyle.Json.Document
import ResponsiveStyle.Proofs.Json.Members

namespace ResponsiveStyle.Json

/-! ## The document of a value -/

namespace Document

mutual
/-- The document of a value. -/
def ofJson : Json → Document
  | .null => .null
  | .bool b => .bool b
  | .integer n => .integer n
  | .float x => .float x
  | .text s => .text (some s)
  | .list items => .list (ofItems items)
  | .record members => .record (ofMembers members)

/-- The documents of items. -/
def ofItems : List Json → List Document
  | [] => []
  | j :: js => ofJson j :: ofItems js

/-- The members of a document, each with its name. -/
def ofMembers : List (String × Json) → List (Option String × Document)
  | [] => []
  | (k, j) :: ms => (some k, ofJson j) :: ofMembers ms
end

theorem ofItems_eq_map (js : List Json) : ofItems js = js.map ofJson := by
  induction js with
  | nil => rfl
  | cons j js ih => rw [ofItems, ih, List.map_cons]

theorem ofMembers_eq_map (ms : List (String × Json)) :
    ofMembers ms = ms.map fun m => (some m.1, ofJson m.2) := by
  induction ms with
  | nil => rfl
  | cons m ms ih => rw [ofMembers, ih, List.map_cons]

theorem ofJson_list (js : List Json) : ofJson (.list js) = .list (js.map ofJson) := by
  rw [ofJson, ofItems_eq_map]

theorem ofJson_record (ms : List (String × Json)) :
    ofJson (.record ms) = .record (ms.map fun m => (some m.1, ofJson m.2)) := by
  rw [ofJson, ofMembers_eq_map]

end Document

/-! ## Nesting -/

mutual
/-- How many lists and records are open at once in a value. -/
def nesting : Json → Nat
  | .list items => itemsNesting items + 1
  | .record members => membersNesting members + 1
  | _ => 0

/-- The greatest nesting among items. -/
def itemsNesting : List Json → Nat
  | [] => 0
  | j :: js => max j.nesting (itemsNesting js)

/-- The greatest nesting among the values of members. -/
def membersNesting : List (String × Json) → Nat
  | [] => 0
  | (_, j) :: ms => max j.nesting (membersNesting ms)
end

theorem itemsNesting_le_iff {js : List Json} {depth : Nat} :
    itemsNesting js ≤ depth ↔ ∀ j ∈ js, j.nesting ≤ depth := by
  induction js with
  | nil => simp [itemsNesting]
  | cons j js ih => rw [itemsNesting, Nat.max_le, ih, List.forall_mem_cons]

theorem membersNesting_le_iff {ms : List (String × Json)} {depth : Nat} :
    membersNesting ms ≤ depth ↔ ∀ m ∈ ms, m.2.nesting ≤ depth := by
  induction ms with
  | nil => simp [membersNesting]
  | cons m ms ih => rw [membersNesting, Nat.max_le, ih, List.forall_mem_cons]

/-- A list is allowed where a list is and its items are within. -/
theorem nesting_list_le_iff {js : List Json} {depth : Nat} :
    (list js).nesting ≤ depth ↔ 0 < depth ∧ ∀ j ∈ js, j.nesting ≤ depth - 1 := by
  rw [nesting, ← itemsNesting_le_iff]
  omega

/-- A record is allowed where a record is and the values of its members are within. -/
theorem nesting_record_le_iff {ms : List (String × Json)} {depth : Nat} :
    (record ms).nesting ≤ depth ↔ 0 < depth ∧ ∀ m ∈ ms, m.2.nesting ≤ depth - 1 := by
  rw [nesting, ← membersNesting_le_iff]
  omega

/-! ## Names of members -/

mutual
/-- No name occurs twice in a record, however deep. -/
def Proper : Json → Prop
  | .list items => ProperItems items
  | .record members => (members.map Prod.fst).Nodup ∧ ProperMembers members
  | _ => True

/-- All items are proper. -/
def ProperItems : List Json → Prop
  | [] => True
  | j :: js => j.Proper ∧ ProperItems js

/-- The values of all members are proper. -/
def ProperMembers : List (String × Json) → Prop
  | [] => True
  | (_, j) :: ms => j.Proper ∧ ProperMembers ms
end

theorem properMembers_iff {ms : List (String × Json)} :
    ProperMembers ms ↔ ∀ m ∈ ms, m.2.Proper := by
  induction ms with
  | nil => simp [ProperMembers]
  | cons m ms ih => rw [ProperMembers, ih, List.forall_mem_cons]

/-- A record of proper values is proper, whatever their names. -/
theorem proper_ofMembers {ms : List (String × Json)} (h : ProperMembers ms) :
    (ofMembers ms).Proper := by
  obtain ⟨hnames, hmembers⟩ := nodup_collapse ms
  rw [properMembers_iff] at h
  rw [ofMembers, Proper, properMembers_iff]
  exact ⟨hnames, fun m hm => h m (hmembers m hm)⟩

namespace Document

/-! ## Reading the document of a value -/

mutual
/-- A value is read back from its document. -/
theorem value?_ofJson :
    ∀ {j : Json} {depth : Nat}, j.Proper → j.nesting ≤ depth → value? depth (ofJson j) = some j
  | .null, _, _, _ => rfl
  | .bool _, _, _, _ => rfl
  | .integer _, _, _, _ => rfl
  | .float _, _, _, _ => rfl
  | .text _, _, _, _ => rfl
  | .list js, depth + 1, hproper, hdepth => by
    rw [nesting, Nat.add_le_add_iff_right] at hdepth
    rw [Proper] at hproper
    rw [ofJson, value?, Nat.add_sub_cancel, itemValues?_ofItems hproper hdepth]
    rfl
  | .record ms, depth + 1, hproper, hdepth => by
    rw [nesting, Nat.add_le_add_iff_right] at hdepth
    rw [Proper] at hproper
    rw [ofJson, value?, Nat.add_sub_cancel, memberValues?_ofMembers hproper.2 hdepth]
    simp [Json.ofMembers, collapse_of_nodup hproper.1]

theorem itemValues?_ofItems :
    ∀ {js : List Json} {depth : Nat},
      ProperItems js → itemsNesting js ≤ depth → itemValues? depth (ofItems js) = some js
  | [], _, _, _ => rfl
  | j :: js, depth, hproper, hdepth => by
    rw [ProperItems] at hproper
    rw [itemsNesting, Nat.max_le] at hdepth
    rw [ofItems, itemValues?, value?_ofJson hproper.1 hdepth.1,
      itemValues?_ofItems hproper.2 hdepth.2]
    rfl

theorem memberValues?_ofMembers :
    ∀ {ms : List (String × Json)} {depth : Nat},
      ProperMembers ms → membersNesting ms ≤ depth → memberValues? depth (ofMembers ms) = some ms
  | [], _, _, _ => rfl
  | (k, j) :: ms, depth, hproper, hdepth => by
    rw [ProperMembers] at hproper
    rw [membersNesting, Nat.max_le] at hdepth
    rw [ofMembers, memberValues?, value?_ofJson hproper.1 hdepth.1,
      memberValues?_ofMembers hproper.2 hdepth.2]
    rfl
end

mutual
/-- No value of a document has a name twice. -/
theorem proper_of_value? :
    ∀ {d : Document} {depth : Nat} {j : Json}, value? depth d = some j → j.Proper
  | .null, _, _, h | .bool _, _, _, h | .integer _, _, _, h | .float _, _, _, h => by
    rw [value?, Option.some.injEq] at h
    subst h
    trivial
  | .text _, _, _, h => by
    rw [value?, Option.map_eq_some_iff] at h
    obtain ⟨_, _, rfl⟩ := h
    trivial
  | .list ds, depth, _, h => by
    rw [value?, Option.ite_none_left_eq_some, Option.map_eq_some_iff] at h
    obtain ⟨_, js, hitems, rfl⟩ := h
    exact properItems_of_itemValues? hitems
  | .record ms, depth, _, h => by
    rw [value?, Option.ite_none_left_eq_some, Option.map_eq_some_iff] at h
    obtain ⟨_, js, hmembers, rfl⟩ := h
    exact proper_ofMembers (properMembers_of_memberValues? hmembers)

theorem properItems_of_itemValues? :
    ∀ {ds : List Document} {depth : Nat} {js : List Json},
      itemValues? depth ds = some js → ProperItems js
  | [], _, _, h => by
    rw [itemValues?, Option.some.injEq] at h
    subst h
    trivial
  | d :: ds, depth, _, h => by
    rw [itemValues?] at h
    obtain ⟨j, hj, h⟩ := Option.bind_eq_some_iff.mp h
    obtain ⟨js, hjs, h⟩ := Option.bind_eq_some_iff.mp h
    obtain rfl := Option.some.inj h
    exact ⟨proper_of_value? hj, properItems_of_itemValues? hjs⟩

theorem properMembers_of_memberValues? :
    ∀ {ds : List (Option String × Document)} {depth : Nat} {ms : List (String × Json)},
      memberValues? depth ds = some ms → ProperMembers ms
  | [], _, _, h => by
    rw [memberValues?, Option.some.injEq] at h
    subst h
    trivial
  | (k, d) :: ds, depth, _, h => by
    rw [memberValues?] at h
    obtain ⟨key, _, h⟩ := Option.bind_eq_some_iff.mp h
    obtain ⟨j, hj, h⟩ := Option.bind_eq_some_iff.mp h
    obtain ⟨ms, hms, h⟩ := Option.bind_eq_some_iff.mp h
    obtain rfl := Option.some.inj h
    exact ⟨proper_of_value? hj, properMembers_of_memberValues? hms⟩
end

end Document

end ResponsiveStyle.Json

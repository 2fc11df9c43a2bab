/-
# Written structures

How a structure may be written is told field by field: the names that the field goes by, the values
that it may have, and whether it may be left out (`FieldForm`). A record of such fields is read back
field by field (`fields?_eq_some_of_isRecordOf`), and so are lists and tables of written values.
-/
import Mathlib.Data.List.Nodup
import Mathlib.Data.List.ReduceOption
import ResponsiveStyle.Json.Fields
import ResponsiveStyle.Proofs.Json.Document

namespace ResponsiveStyle.Json

/-! ## Fields -/

/-- How a field may be written: under which names, with which values, and whether it may be left
out. -/
structure FieldForm where
  names : List String
  hasValue : Json → Prop
  mayMiss : Prop

/-- A member that is such a field, or no member where the field may be left out. -/
inductive FieldForm.Shows (f : FieldForm) : Option (String × Json) → Prop
  | missing (h : f.mayMiss) : f.Shows none
  | present {name : String} {j : Json} (hname : name ∈ f.names) (h : f.hasValue j) :
    f.Shows (some (name, j))

/-- A record of the fields in their order. -/
def IsRecordOf (forms : List FieldForm) (j : Json) : Prop :=
  ∃ shown, List.Forall₂ FieldForm.Shows forms shown ∧ j = .record shown.reduceOption

/-- A field with one name and one value. -/
def FieldForm.one (name : String) (value : Json) (mayMiss : Prop) : FieldForm :=
  ⟨[name], fun j => j = value, mayMiss⟩

/-- A field with a list of items. -/
def FieldForm.list (names : List String) (hasItems : List Json → Prop) (mayMiss : Prop) :
    FieldForm :=
  ⟨names, fun j => ∃ items, j = .list items ∧ hasItems items, mayMiss⟩

theorem IsRecordOf.nesting_pos {forms : List FieldForm} {j : Json} (h : IsRecordOf forms j) :
    0 < j.nesting := by
  obtain ⟨_, _, rfl⟩ := h
  exact Nat.succ_pos _

/-- All fields may be there. -/
theorem isRecordOf_record {forms : List FieldForm} {members : List (String × Json)}
    (h : List.Forall₂ (fun f m => m.1 ∈ f.names ∧ f.hasValue m.2) forms members) :
    IsRecordOf forms (.record members) := by
  refine ⟨members.map some, ?_, ?_⟩
  · rw [List.forall₂_map_right_iff]
    exact h.imp fun f m hm => .present hm.1 hm.2
  · simp [List.reduceOption]

namespace Document

/-- What is read of a field: the document of a value that it may have, or nothing where the field
may be left out. -/
inductive Gives (depth : Nat) (f : FieldForm) : Option Document → Prop
  | missing (h : f.mayMiss) : Gives depth f none
  | present {j : Json} (h : f.hasValue j) (hdepth : j.nesting ≤ depth) :
    Gives depth f (some (ofJson j))

/-! ## Finding members -/

section Members

variable {names : List String} {members : List (String × Document)}

/-- Members with other names do not matter. -/
theorem onlyMember?_append {front : List (String × Document)} (h : ∀ m ∈ front, m.1 ∉ names) :
    onlyMember? names (front ++ members) = onlyMember? names members := by
  have hfront : front.filter (fun m => names.contains m.1) = [] := by simpa using h
  unfold onlyMember?
  rw [List.filter_append, hfront, List.nil_append]

theorem onlyMember?_eq_none (h : ∀ m ∈ members, m.1 ∉ names) :
    onlyMember? names members = some none := by
  rw [← List.append_nil members, onlyMember?_append h]
  rfl

theorem onlyMember?_cons {m : String × Document} (hm : m.1 ∈ names)
    (h : ∀ a ∈ members, a.1 ∉ names) : onlyMember? names (m :: members) = some (some m.2) := by
  have hmembers : members.filter (fun a => names.contains a.1) = [] := by simpa using h
  unfold onlyMember?
  rw [List.filter_cons_of_pos (by simpa using hm), hmembers]

end Members

/-- A member that goes by one of the names, if there is a member. -/
def Named (names : List String) (m? : Option (String × Document)) : Prop := ∀ m ∈ m?, m.1 ∈ names

section Finding

variable {names : List (List String)} {shown : List (Option (String × Document))}

theorem exists_names_of_mem (h : List.Forall₂ Named names shown) :
    ∀ m ∈ shown.reduceOption, ∃ ns ∈ names, m.1 ∈ ns := by
  intro m hm
  rw [List.reduceOption_mem_iff] at hm
  induction h with
  | nil => cases hm
  | cons hhead _ ih =>
    rcases List.mem_cons.mp hm with rfl | hm
    · exact ⟨_, List.mem_cons_self, hhead m rfl⟩
    · obtain ⟨ns, hns, hmem⟩ := ih hm
      exact ⟨ns, List.mem_cons_of_mem _ hns, hmem⟩

/-- Every field is found among the members, when no two fields share a name. -/
theorem mapM_onlyMember? (h : List.Forall₂ Named names shown)
    (hnames : names.Pairwise List.Disjoint) :
    names.mapM (fun ns => onlyMember? ns shown.reduceOption)
      = some (shown.map (Option.map Prod.snd)) := by
  -- in front stand the members of the fields that have been found
  suffices hfront : ∀ front : List (String × Document), (∀ m ∈ front, ∀ ns ∈ names, m.1 ∉ ns) →
      names.mapM (fun ns => onlyMember? ns (front ++ shown.reduceOption))
        = some (shown.map (Option.map Prod.snd)) from hfront [] (by simp)
  induction h with
  | nil => intro front _; rfl
  | @cons ns m? names shown hm h ih =>
    intro front hfront
    obtain ⟨hns, hnames⟩ := List.pairwise_cons.mp hnames
    have hothers : ∀ m ∈ shown.reduceOption, m.1 ∉ ns := by
      intro m hm hmem
      obtain ⟨ns', hns', hmem'⟩ := exists_names_of_mem h m hm
      exact hns ns' hns' hmem hmem'
    have hfrontNs : ∀ m ∈ front, m.1 ∉ ns := fun m hm => hfront m hm ns List.mem_cons_self
    have hfrontNames : ∀ m ∈ front, ∀ ns' ∈ names, m.1 ∉ ns' :=
      fun m hm ns' hns' => hfront m hm ns' (List.mem_cons_of_mem _ hns')
    cases m? with
    | none =>
      rw [List.reduceOption_cons_of_none, List.mapM_cons, onlyMember?_append hfrontNs,
        onlyMember?_eq_none hothers, ih hnames front hfrontNames]
      rfl
    | some m =>
      have hmem : m.1 ∈ ns := hm m rfl
      rw [List.reduceOption_cons_of_some, List.mapM_cons, onlyMember?_append hfrontNs,
        onlyMember?_cons hmem hothers]
      rw [List.append_cons, ih hnames (front ++ [m])]
      · rfl
      · intro a ha ns' hns'
        rcases List.mem_append.mp ha with ha | ha
        · exact hfrontNames a ha ns' hns'
        · rw [List.mem_singleton.mp ha]
          exact fun hmem' => hns ns' hns' hmem hmem'

end Finding

/-! ## Reading a record -/

theorem named_of_shows {f : FieldForm} {m? : Option (String × Json)} (h : f.Shows m?) :
    Named f.names (m?.map fun m => (m.1, ofJson m.2)) := by
  cases h with
  | missing => simp [Named]
  | present hname _ => simpa [Named] using hname

theorem gives_of_shows {f : FieldForm} {m? : Option (String × Json)} {depth : Nat}
    (h : f.Shows m?) (hdepth : ∀ m ∈ m?, m.2.nesting ≤ depth) :
    Gives depth f (m?.map fun m => ofJson m.2) := by
  cases h with
  | missing h => exact .missing h
  | present _ h => exact .present h (hdepth _ rfl)

/-- A record is read field by field, when no two fields share a name. -/
theorem fields?_eq_some_of_isRecordOf {forms : List FieldForm} {j : Json} {depth : Nat}
    (names : List (List String)) (hforms : forms.map FieldForm.names = names)
    (hnames : names.flatten.Nodup) (h : IsRecordOf forms j) (hdepth : j.nesting ≤ depth) :
    ∃ ds, fields? depth names (ofJson j) = some ds
      ∧ List.Forall₂ (Gives (depth - 1)) forms ds := by
  subst hforms
  obtain ⟨shown, hshown, rfl⟩ := h
  obtain ⟨hpos, hmembers⟩ := nesting_record_le_iff.mp hdepth
  refine ⟨shown.map (Option.map fun m => ofJson m.2), ?_, ?_⟩
  · have hnamed : List.Forall₂ Named (forms.map FieldForm.names)
        (shown.map (Option.map fun m => (m.1, ofJson m.2))) := by
      rw [List.forall₂_map_left_iff, List.forall₂_map_right_iff]
      exact hshown.imp fun _ _ => named_of_shows
    rw [ofJson_record, fields?, if_neg (by simpa using Nat.ne_of_gt hpos), List.mapM_map]
    -- in the document of a value every member has its name
    show Option.bind (shown.reduceOption.mapM fun m => pure (m.1, ofJson m.2)) _ = _
    rw [List.mapM_pure, ← List.reduceOption_map]
    refine (mapM_onlyMember? hnamed (List.nodup_flatten.mp hnames).2).trans ?_
    rw [List.map_map, Option.map_comp_map]
    rfl
  · have hdepths : ∀ m? ∈ shown, ∀ m ∈ m?, m.2.nesting ≤ depth - 1 := by
      rintro _ hshown m rfl
      exact hmembers m (List.reduceOption_mem_iff.mpr hshown)
    rw [List.forall₂_map_right_iff]
    exact ((List.forall₂_and_left (R := flip FieldForm.Shows) shown forms).mpr
      ⟨hdepths, hshown.flip⟩).flip.imp fun _ _ hm => gives_of_shows hm.2 hm.1

/-- What a field gives is what is meant, if that is the default where the field may be left out and
every value that the field may have is read as it. -/
theorem Gives.orDefault?_eq {α : Type} {f : FieldForm} {depth : Nat} {d? : Option Document}
    {default x : α} {read : Document → Option α} (h : Gives depth f d?)
    (hmissing : f.mayMiss → x = default)
    (hread : ∀ j, f.hasValue j → j.nesting ≤ depth → read (ofJson j) = some x) :
    orDefault? default read d? = some x := by
  cases h with
  | missing h => rw [orDefault?, hmissing h]
  | present h hdepth => exact hread _ h hdepth

theorem Gives.orDefault?_one {α : Type} {name : String} {value : Json} {depth : Nat}
    {d? : Option Document} {default x : α} {read : Document → Option α}
    (h : Gives depth (.one name value (x = default)) d?)
    (hread : value.nesting ≤ depth → read (ofJson value) = some x) :
    orDefault? default read d? = some x :=
  h.orDefault?_eq id fun _ hj hdepth => hj ▸ hread (hj ▸ hdepth)

/-- A field that may not be left out gives what its value is read as. -/
theorem Gives.bind_one {α : Type} {name : String} {value : Json} {depth : Nat}
    {d? : Option Document} {x : α} {read : Document → Option α}
    (h : Gives depth (.one name value False) d?) (hread : read (ofJson value) = some x) :
    d?.bind read = some x := by
  cases h with
  | missing h => exact h.elim
  | present h _ => exact h ▸ hread

/-! ## Reading lists and tables -/

theorem mapM_eq_some_of_forall₂ {α β : Type} {read : α → Option β} {xs : List α} {ys : List β}
    (h : List.Forall₂ (fun y x => read x = some y) ys xs) : xs.mapM read = some ys := by
  induction h with
  | nil => rfl
  | cons hhead _ ih => rw [List.mapM_cons, hhead, ih]; rfl

/-- A list is read item by item. -/
theorem asList?_ofJson {α : Type} {read : Nat → Document → Option α} {depth : Nat}
    {items : List Json} {xs : List α} (hdepth : (Json.list items).nesting ≤ depth)
    (h : List.Forall₂ (fun x j => read (depth - 1) (ofJson j) = some x) xs items) :
    asList? depth read (ofJson (.list items)) = some xs := by
  have hpos : 0 < depth := (nesting_list_le_iff.mp hdepth).1
  rw [ofJson_list, asList?, if_neg (by simpa using Nat.ne_of_gt hpos)]
  exact mapM_eq_some_of_forall₂ (List.forall₂_map_right_iff.mpr h)

/-- A field with a list gives the items that are meant, if it has none where it may be left out and
every list that it may have is read as them. -/
theorem Gives.orDefault?_list {α : Type} {names : List String} {hasItems : List Json → Prop}
    {depth : Nat} {d? : Option Document} {xs : List α} {read : Nat → Document → Option α}
    (h : Gives depth (.list names hasItems (xs = [])) d?)
    (hread : ∀ items, hasItems items → (∀ j ∈ items, j.nesting ≤ depth - 1) →
      List.Forall₂ (fun x j => read (depth - 1) (ofJson j) = some x) xs items) :
    orDefault? [] (asList? depth read) d? = some xs := by
  apply h.orDefault?_eq fun hmissing => hmissing
  rintro _ ⟨items, rfl, hitems⟩ hdepth
  exact asList?_ofJson hdepth (hread items hitems (nesting_list_le_iff.mp hdepth).2)

/-- A table is read member by member. -/
theorem asTable?_ofJson {α : Type} {read : Nat → Document → Option α} {depth : Nat}
    {members : List (String × Json)} {entries : List (String × α)}
    (hdepth : (Json.record members).nesting ≤ depth)
    (h : List.Forall₂ (fun e m => m.1 = e.1 ∧ read (depth - 1) (ofJson m.2) = some e.2)
      entries members) :
    asTable? depth read (ofJson (.record members)) = some entries := by
  have hpos : 0 < depth := (nesting_record_le_iff.mp hdepth).1
  rw [ofJson_record, asTable?, if_neg (by simpa using Nat.ne_of_gt hpos)]
  refine mapM_eq_some_of_forall₂ (List.forall₂_map_right_iff.mpr (h.imp fun e m hm => ?_))
  obtain ⟨hname, hvalue⟩ := hm
  simp [hname, hvalue]

end Document

end ResponsiveStyle.Json

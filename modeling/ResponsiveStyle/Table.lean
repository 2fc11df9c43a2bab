/-!
# Tables in the order of their keys

A table holds at most one value for a key and lists its entries by ascending keys, so two tables
with the same entries are equal. Putting a key again takes the last value. A table is built again
from its entries (`Table.ofList_entries`).
-/

namespace ResponsiveStyle

/-- The entries with the value of `key` put at its place. -/
def putEntry {α : Type} (key : String) (value : α) : List (String × α) → List (String × α)
  | [] => [(key, value)]
  | e :: es =>
    if key < e.1 then (key, value) :: e :: es
    else if key = e.1 then (key, value) :: es
    else e :: putEntry key value es

/-- Entries by strictly ascending keys. -/
def Ascending {α : Type} (entries : List (String × α)) : Prop :=
  entries.Pairwise fun a b => a.1 < b.1

theorem fst_of_mem_putEntry {α : Type} {key : String} {value : α} {es : List (String × α)}
    {e : String × α} (h : e ∈ putEntry key value es) : e.1 = key ∨ e ∈ es := by
  induction es with
  | nil => simp only [putEntry, List.mem_singleton] at h; exact .inl (h ▸ rfl)
  | cons a es ih =>
    simp only [putEntry] at h
    split at h
    · rcases List.mem_cons.1 h with h | h
      · exact .inl (h ▸ rfl)
      · exact .inr h
    · split at h
      · rcases List.mem_cons.1 h with h | h
        · exact .inl (h ▸ rfl)
        · exact .inr (List.mem_cons_of_mem _ h)
      · rcases List.mem_cons.1 h with h | h
        · exact .inr (h ▸ List.mem_cons_self)
        · exact (ih h).imp_right (List.mem_cons_of_mem _)

/-- Putting an entry keeps the order of the keys. -/
theorem ascending_putEntry {α : Type} (key : String) (value : α) {es : List (String × α)}
    (h : Ascending es) : Ascending (putEntry key value es) := by
  induction es with
  | nil => exact List.pairwise_singleton _ _
  | cons a es ih =>
    have hs := List.pairwise_cons.1 h
    simp only [putEntry]
    split
    · rename_i hlt
      refine List.pairwise_cons.2 ⟨fun e he => ?_, h⟩
      rcases List.mem_cons.1 he with he | he
      · exact he ▸ hlt
      · exact String.lt_trans hlt (hs.1 e he)
    · split
      · rename_i heq
        exact List.pairwise_cons.2 ⟨fun e he => heq ▸ hs.1 e he, hs.2⟩
      · rename_i hnlt hne
        refine List.pairwise_cons.2 ⟨fun e he => ?_, ih hs.2⟩
        rcases fst_of_mem_putEntry he with he | he
        · have hle : a.1 ≤ key := String.not_lt.1 hnlt
          rw [he]
          rcases Decidable.em (a.1 < key) with hlt | hge
          · exact hlt
          · exact absurd (String.le_antisymm (String.not_lt.1 hge) hle) hne
        · exact hs.1 e he

/-- An entry with the greatest key goes to the end. -/
theorem putEntry_of_forall_lt {α : Type} {key : String} {value : α} {es : List (String × α)}
    (h : ∀ e ∈ es, e.1 < key) : putEntry key value es = es ++ [(key, value)] := by
  induction es with
  | nil => rfl
  | cons e es ih =>
    have hlt : e.1 < key := h e List.mem_cons_self
    have hne : key ≠ e.1 := fun heq => String.lt_irrefl key (heq ▸ hlt)
    rw [putEntry, if_neg (String.lt_asymm hlt), if_neg hne,
      ih fun a ha => h a (List.mem_cons_of_mem _ ha), List.cons_append]

/-- A table of values by their keys. -/
structure Table (α : Type) where
  entries : List (String × α)
  ascending : Ascending entries

namespace Table

variable {α : Type}

/-- The table without entries. -/
def empty : Table α := ⟨[], List.Pairwise.nil⟩

/-- The table with the value of `key` put in. -/
def put (t : Table α) (key : String) (value : α) : Table α :=
  ⟨putEntry key value t.entries, ascending_putEntry key value t.ascending⟩

/-- The table of the entries, put one after the other. -/
def ofList (entries : List (String × α)) : Table α :=
  entries.foldl (fun t e => t.put e.1 e.2) empty

theorem eq_of_entries_eq {t u : Table α} (h : t.entries = u.entries) : t = u := by
  cases t
  cases u
  cases h
  rfl

/-- A table is built again from its entries. -/
theorem ofList_entries (t : Table α) : ofList t.entries = t := by
  -- the induction is on the entries still to be put, all with greater keys than those before
  have hfold : ∀ (es : List (String × α)) (u : Table α), Ascending (u.entries ++ es) →
      (es.foldl (fun u e => u.put e.1 e.2) u).entries = u.entries ++ es := by
    intro es
    induction es with
    | nil => intro u _; exact (List.append_nil _).symm
    | cons e es ih =>
      intro u hasc
      have hlt : ∀ a ∈ u.entries, a.1 < e.1 := fun a ha =>
        (List.pairwise_append.mp hasc).2.2 a ha e List.mem_cons_self
      have hput : (u.put e.1 e.2).entries = u.entries ++ [e] := putEntry_of_forall_lt hlt
      rw [List.append_cons, ← hput] at hasc
      rw [List.foldl_cons, ih _ hasc, hput, ← List.append_cons]
  exact eq_of_entries_eq (hfold t.entries empty t.ascending)

/-- The keys in ascending order. -/
def keys (t : Table α) : List String := t.entries.map Prod.fst

/-- The value of a key. -/
def get? (t : Table α) (key : String) : Option α :=
  (t.entries.find? fun e => e.1 == key).map Prod.snd

end Table

/-- A set of names, listed in ascending order. -/
abbrev NameSet := Table Unit

/-- The set with one name more. -/
def NameSet.add (s : NameSet) (name : String) : NameSet := s.put name ()

/-- The set of the names of a list. -/
def NameSet.ofNames (names : List String) : NameSet := Table.ofList (names.map fun n => (n, ()))

/-- A set is built again from its names. -/
theorem NameSet.ofNames_keys (s : NameSet) : ofNames s.keys = s := by
  have hnames : s.keys.map (fun n => (n, ())) = s.entries := by
    rw [Table.keys, List.map_map]
    exact List.map_id' s.entries
  rw [ofNames, hnames, Table.ofList_entries]

end ResponsiveStyle

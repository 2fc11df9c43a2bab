/-
# Members of records

Members with names of their own are kept as they are when they are put into a record
(`collapse_of_nodup`), and whatever is put into a record has names of its own there
(`nodup_collapse`).
-/
import Mathlib.Data.List.Induction
import Mathlib.Data.List.Nodup
import ResponsiveStyle.Json.Basic

namespace ResponsiveStyle.Json

/-- A member with a new name goes to the end. -/
theorem putMember_of_not_mem {key : String} {value : Json} {members : List (String × Json)}
    (h : key ∉ members.map Prod.fst) : putMember key value members = members ++ [(key, value)] := by
  induction members with
  | nil => rfl
  | cons m ms ih =>
    simp only [List.map_cons, List.mem_cons, not_or] at h
    unfold putMember
    rw [if_neg (by simpa using Ne.symm h.1), ih h.2, List.cons_append]

/-- Members with names of their own stay where and what they are. -/
theorem collapse_of_nodup {members : List (String × Json)} (h : (members.map Prod.fst).Nodup) :
    collapse members = members := by
  -- the induction is on what is still to be put in, behind any members with other names
  have hfold : ∀ ms front : List (String × Json), ((front ++ ms).map Prod.fst).Nodup →
      ms.foldl (fun acc m => putMember m.1 m.2 acc) front = front ++ ms := by
    intro ms
    induction ms with
    | nil => intro front _; simp
    | cons m ms ih =>
      intro front hfront
      have hnew : m.1 ∉ front.map Prod.fst := by
        rw [List.map_append, List.map_cons] at hfront
        exact fun hmem => List.disjoint_of_nodup_append hfront hmem List.mem_cons_self
      rw [List.foldl_cons, putMember_of_not_mem hnew, ih]
      · rw [List.append_assoc, List.singleton_append]
      · rwa [List.append_assoc, List.singleton_append]
  exact hfold members [] (by simpa using h)

/-- A member that is put in takes the place of its name or comes behind. -/
theorem map_fst_putMember (key : String) (value : Json) (members : List (String × Json)) :
    (putMember key value members).map Prod.fst
      = if key ∈ members.map Prod.fst then members.map Prod.fst
        else members.map Prod.fst ++ [key] := by
  induction members with
  | nil => rfl
  | cons m ms ih =>
    unfold putMember
    by_cases hkey : m.1 = key
    · simp [hkey]
    · rw [if_neg (by simpa using hkey), List.map_cons, ih, List.map_cons]
      simp only [List.mem_cons, Ne.symm hkey, false_or]
      split <;> rfl

theorem eq_or_mem_of_mem_putMember {key : String} {value : Json} {members : List (String × Json)}
    {m : String × Json} (h : m ∈ putMember key value members) : m = (key, value) ∨ m ∈ members := by
  induction members with
  | nil => exact .inl (List.mem_singleton.mp h)
  | cons a ms ih =>
    unfold putMember at h
    split at h
    · exact (List.mem_cons.mp h).imp_right (List.mem_cons_of_mem _)
    · rcases List.mem_cons.mp h with rfl | h
      · exact .inr List.mem_cons_self
      · exact (ih h).imp_right (List.mem_cons_of_mem _)

/-- The names in a record differ, and each of its members is one of those that were put in. -/
theorem nodup_collapse (members : List (String × Json)) :
    ((collapse members).map Prod.fst).Nodup ∧ ∀ m ∈ collapse members, m ∈ members := by
  unfold collapse
  induction members using List.reverseRecOn with
  | nil => simp
  | append_singleton ms m ih =>
    rw [List.foldl_append, List.foldl_cons, List.foldl_nil]
    constructor
    · rw [map_fst_putMember]
      split
      · exact ih.1
      · next hnew => exact List.concat_eq_append ▸ ih.1.concat hnew
    · intro a ha
      rcases eq_or_mem_of_mem_putMember ha with rfl | ha
      · simp
      · exact List.mem_append_left _ (ih.2 a ha)

/-- Members without a name have no value of it. -/
theorem findMember?_eq_none {key : String} {members : List (String × Json)}
    (h : key ∉ members.map Prod.fst) : findMember? key members = none := by
  unfold findMember?
  rw [Option.map_eq_none_iff, List.find?_eq_none]
  intro m hm hkey
  apply h
  rw [← beq_iff_eq.mp hkey]
  exact List.mem_map_of_mem hm

end ResponsiveStyle.Json

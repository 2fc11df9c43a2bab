/-
# Paths to files

A name that leads to a file has no slash in it and is the last one on the path to it in any
directory (`names_under`, `fileName?_under`). A text is cut at a separator with no other one behind
it (`cutAtLast?_append`), which is how a name loses its ending (`stem_append`).
-/
import ResponsiveStyle.Config.Basic
import ResponsiveStyle.Output.Path
import ResponsiveStyle.Proofs.Text.Cut

namespace ResponsiveStyle.Output.Path

open Text (splitAt splitAt_append splitAt_of_not_mem)

/-! ## Names on a path -/

/-- The names on a path that lead somewhere. -/
def names (path : String) : List String := (segments path).filter fun s => !isStay s

/-- A name that leads to a file: it has no slash, is not empty and leads neither nowhere nor
back. -/
structure IsFileName (name : String) : Prop where
  slash : '/' ∉ name.toList
  leads : isStay name = false
  forward : name ≠ ".."

/-- A name without slashes has one segment. -/
theorem segments_of_not_mem {name : String} (h : '/' ∉ name.toList) : segments name = [name] := by
  unfold segments
  rw [splitAt_of_not_mem h, List.map_singleton, String.ofList_toList]

/-- A path with a slash in it is a path in front of it and one behind it. -/
theorem segments_append (path rest : String) :
    segments (path ++ "/" ++ rest) = segments path ++ segments rest := by
  have htext : (path ++ "/" ++ rest).toList = path.toList ++ '/' :: rest.toList := by
    rw [String.toList_append, String.toList_append, List.append_assoc]
    rfl
  unfold segments
  rw [htext, splitAt_append, List.map_append]

/-- In a directory the name of a file comes last. -/
theorem names_under (dir : String) {name : String} (h : IsFileName name) :
    names (Config.under dir name) = names dir ++ [name] := by
  have hname : names name = [name] := by
    unfold names
    rw [segments_of_not_mem h.slash]
    simp [h.leads]
  have happend : ∀ path : String, names (path ++ "/" ++ name) = names path ++ [name] := by
    intro path
    rw [← hname]
    unfold names
    rw [segments_append, List.filter_append]
  unfold Config.under
  split
  · rename_i hnil
    rw [List.getLast?_eq_none_iff] at hnil
    obtain rfl : dir = "" := String.toList_inj.mp hnil
    exact hname
  · rename_i c hlast
    split
    · -- the slash at the end of the directory is the one in front of the name
      rename_i hslash
      obtain rfl := eq_of_beq hslash
      obtain ⟨front, hfront⟩ := List.getLast?_eq_some_iff.mp hlast
      obtain rfl : dir = String.ofList front ++ "/" ++ "" := by
        rw [String.append_empty, ← String.toList_inj, hfront, String.toList_append,
          String.toList_ofList]
        rfl
      have hempty : names (String.ofList front ++ "/" ++ "") = names (String.ofList front) := by
        unfold names
        rw [segments_append, List.filter_append]
        exact List.append_nil _
      rw [hempty, ← happend, String.append_empty]
    · exact happend dir

/-- The file at the end of the path to a name is the one of that name. -/
theorem fileName?_under (dir : String) {name : String} (h : IsFileName name) :
    fileName? (Config.under dir name) = some name := by
  show (names (Config.under dir name)).getLast?.filter (· != "..") = some name
  rw [names_under dir h, List.getLast?_concat, Option.filter_some,
    if_pos (by simpa using h.forward)]

/-! ## Cutting at the last separator -/

/-- A text is cut at a separator with no other one behind it. -/
theorem cutAtLast?_append {sep : Char} {behind : List Char} (h : sep ∉ behind) (front : List Char) :
    cutAtLast? sep (front ++ sep :: behind) = some (front, behind) := by
  have hreverse : (front ++ sep :: behind).reverse = behind.reverse ++ sep :: front.reverse := by
    simp
  have hpass : ∀ c ∈ behind.reverse, (c != sep) = true := by
    intro c hc
    rw [bne_iff_ne]
    rintro rfl
    exact h (List.mem_reverse.mp hc)
  unfold cutAtLast?
  rw [hreverse, List.takeWhile_append_of_pos hpass, List.dropWhile_append_of_pos hpass]
  simp

/-- A name loses its ending if something stands before the point and no other point in it. -/
theorem stem_append {ending : String} (h : '.' ∉ ending.toList) {front : String}
    (hne : front ≠ "") :
    stem (front ++ "." ++ ending) = front := by
  have htext : (front ++ "." ++ ending).toList = front.toList ++ '.' :: ending.toList := by
    rw [String.toList_append, String.toList_append, List.append_assoc]
    rfl
  have hchars : front.toList.isEmpty = false := by
    rw [List.isEmpty_eq_false_iff]
    exact fun hnil => hne (String.toList_inj.mp hnil)
  unfold stem
  rw [htext, cutAtLast?_append h]
  simp [hchars, String.ofList_toList]

end ResponsiveStyle.Output.Path

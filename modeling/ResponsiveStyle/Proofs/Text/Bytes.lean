/-
# Places counted in bytes

A place in a text may be named by the bytes of UTF-8 in front of it. Then it may lie inside of a
character, and the text cannot be cut there (`frontTo?`). The small letter of a capital one takes as
many bytes, so that a place counted in a copy in small letters lies between two characters of the
copy exactly if it does in the text itself, and what is in front of it is the same but for the case
(`frontTo?_lowered`).
-/
import Mathlib.Data.String.Basic
import ResponsiveStyle.Proofs.Text.Character

namespace ResponsiveStyle.Text

/-! ## Cutting at a place -/

/-- The text in front of a place, unless the place is inside of a character or behind the text. -/
def frontTo? (s : String) (bytes : Nat) : Option String :=
  if h : (⟨bytes⟩ : String.Pos.Raw).IsValid s then some (s.sliceTo (s.pos ⟨bytes⟩ h)).copy else none

/-- A text is cut at a place if it is a text of so many bytes and what follows it. -/
theorem frontTo?_eq_some_iff (s : String) (bytes : Nat) (t : String) :
    frontTo? s bytes = some t ↔ ∃ rest, s = t ++ rest ∧ t.utf8ByteSize = bytes := by
  unfold frontTo?
  constructor
  · intro h
    split at h
    · rename_i hvalid
      obtain ⟨rest, hsplits⟩ := String.copy_sliceTo_eq_iff_exists_splits.mp (Option.some.inj h)
      have hplace := hsplits.offset_eq_rawEndPos
      rw [String.offset_pos] at hplace
      exact ⟨rest, hsplits.eq_append, (congrArg String.Pos.Raw.byteIdx hplace).symm⟩
    · exact absurd h (by simp)
  · rintro ⟨rest, rfl, rfl⟩
    have hvalid : (⟨t.utf8ByteSize⟩ : String.Pos.Raw).IsValid (t ++ rest) :=
      String.Pos.Raw.isValid_iff_exists_append.mpr ⟨t, rest, rfl, rfl⟩
    rw [dif_pos hvalid, Option.some_inj, String.copy_sliceTo_eq_iff_exists_splits]
    exact ⟨rest, rfl, String.offset_pos⟩

/-! ## Places in a copy in small letters -/

/-- A character has as many bytes in small letters. -/
theorem utf8Size_toLower (c : Char) : c.toLower.utf8Size = c.utf8Size := by
  cases hupper : c.isUpper with
  | false => rw [toLower_of_not_isUpper hupper]
  | true =>
    -- capital and small letters are characters of one byte
    obtain ⟨-, hhigh⟩ := (isUpper_iff c).mp hupper
    have hsmall : c.toLower.toNat ≤ 127 := by
      rw [toNat_toLower_of_isUpper hupper]
      omega
    have hcapital : c.toNat ≤ 127 := by omega
    rw [Char.utf8Size_eq_one_iff.mpr (UInt32.le_iff_toNat_le.mpr hsmall),
      Char.utf8Size_eq_one_iff.mpr (UInt32.le_iff_toNat_le.mpr hcapital)]

/-- A text has as many bytes in small letters. -/
theorem utf8ByteSize_lowered (s : String) : (lowered s).utf8ByteSize = s.utf8ByteSize := by
  have hlist : ∀ cs : List Char, String.utf8Len (lower cs) = String.utf8Len cs := by
    intro cs
    induction cs with
    | nil => rfl
    | cons c cs ih =>
      show String.utf8Len (c.toLower :: lower cs) = String.utf8Len (c :: cs)
      rw [String.utf8Len_cons, String.utf8Len_cons, ih, utf8Size_toLower]
  unfold lowered
  rw [String.utf8ByteSize_ofList, hlist, ← String.utf8ByteSize_ofList, String.ofList_toList]

theorem toList_lowered (s : String) : (lowered s).toList = lower s.toList := String.toList_ofList

theorem lowered_append (s t : String) : lowered (s ++ t) = lowered s ++ lowered t := by
  rw [← String.toList_inj, String.toList_append, toList_lowered, toList_lowered, toList_lowered,
    String.toList_append]
  exact List.map_append

/-- A place in a copy in small letters is one in the text, with the same in front of it but for the
case. -/
theorem frontTo?_lowered (s : String) (bytes : Nat) :
    frontTo? (lowered s) bytes = (frontTo? s bytes).map lowered := by
  apply Option.ext
  intro t
  rw [frontTo?_eq_some_iff, Option.map_eq_some_iff]
  constructor
  · rintro ⟨rest, hs, hbytes⟩
    have hlist : s.toList.map Char.toLower = t.toList ++ rest.toList := by
      rw [← String.toList_append, ← hs, toList_lowered]
      rfl
    obtain ⟨front, back, hcut, hfront, -⟩ := List.map_eq_append_iff.mp hlist
    have ht : lowered (String.ofList front) = t := by
      rw [← String.toList_inj, toList_lowered, String.toList_ofList]
      exact hfront
    refine ⟨String.ofList front, ?_, ht⟩
    rw [frontTo?_eq_some_iff, ← utf8ByteSize_lowered, ht]
    refine ⟨String.ofList back, ?_, hbytes⟩
    rw [← String.ofList_append, ← hcut, String.ofList_toList]
  · rintro ⟨front, hfront, rfl⟩
    obtain ⟨rest, rfl, hbytes⟩ := (frontTo?_eq_some_iff s bytes front).mp hfront
    exact ⟨lowered rest, lowered_append front rest, (utf8ByteSize_lowered front).trans hbytes⟩

end ResponsiveStyle.Text

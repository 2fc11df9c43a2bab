/-
# Digests of contents

A digest has forty lower-case hexadecimal digits. What is proved about compiled style sheets holds
for any function that gives digests of this form; the one that names the files of a site does
(`isDigest_contentHash`).
-/
import ResponsiveStyle.Output.Compile
import ResponsiveStyle.Proofs.Text.Hexadecimal

namespace ResponsiveStyle.Output

open Text (hexDigits isHexDigit)

/-- A digit or one of the letters from a to f in lower case. -/
def isDigestChar (c : Char) : Bool := c.isDigit || ('a' ≤ c && c ≤ 'f')

/-- Forty lower-case hexadecimal digits. -/
structure IsDigest (digest : String) : Prop where
  length : digest.toList.length = 40
  characters : ∀ c ∈ digest.toList, isDigestChar c = true

/-- The characters of digests are hexadecimal digits. -/
theorem isHexDigit_of_isDigestChar {c : Char} (h : isDigestChar c = true) :
    isHexDigit c = true := by
  unfold isDigestChar at h
  unfold isHexDigit Text.hexValue?
  by_cases hdigit : c.isDigit = true
  · rw [if_pos hdigit]
    rfl
  · rw [if_neg hdigit]
    have hletter : ('a' ≤ c && c ≤ 'f') = true := by simpa [hdigit] using h
    rw [if_pos hletter]
    rfl

/-- The digest of the SHA-1 standard is one. -/
theorem isDigest_sha1 (message : List UInt8) : IsDigest (Digest.sha1 message) := by
  unfold Digest.sha1
  refine ⟨?_, ?_⟩
  · simp only [String.toList_ofList, List.length_flatMap, List.map_cons, List.map_nil,
      Text.length_hexDigits]
    rfl
  · intro c hc
    rw [String.toList_ofList] at hc
    obtain ⟨w, -, hw⟩ := List.mem_flatMap.mp hc
    exact Text.of_mem_hexDigits (P := fun c => isDigestChar c = true) (by decide) hw

/-- The function that names the files of a site gives digests. -/
theorem isDigest_contentHash (content : ByteArray) : IsDigest (contentHash content) :=
  isDigest_sha1 content.toList

end ResponsiveStyle.Output

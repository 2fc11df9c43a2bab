/-
# Content digests

The digest of the SHA-1 standard, by which a compiled style sheet is named. The message is padded to
blocks of sixteen words of 32 bits; each block is spread over eighty words and mixed into a state of
five.
-/
import ResponsiveStyle.Text.Numeral

namespace ResponsiveStyle.Output.Digest

/-! ## Padding -/

/-- The bytes of a number, `count` of them, the most significant first. -/
def bytesOf (count n : Nat) : List UInt8 :=
  (List.range count).map fun i => (n / Nat.pow 256 (count - 1 - i)).toUInt8

/-- The message, a bit that is set, bits that are not up to the last eight bytes of a block, and
there the length of the message in bits. -/
def padded (message : List UInt8) : List UInt8 :=
  let zeros := (119 - message.length % 64) % 64
  message ++ 0x80 :: List.replicate zeros 0 ++ bytesOf 8 (8 * message.length)

/-- The word of four bytes. -/
def word (a b c d : UInt8) : UInt32 :=
  a.toUInt32 <<< 24 ||| b.toUInt32 <<< 16 ||| c.toUInt32 <<< 8 ||| d.toUInt32

/-- The words of bytes, four by four. -/
def wordsOf : List UInt8 → List UInt32
  | a :: b :: c :: d :: rest => word a b c d :: wordsOf rest
  | _ => []

/-! ## Mixing -/

/-- The word with its bits moved up in a circle. -/
def rotate (x n : UInt32) : UInt32 := x <<< n ||| x >>> (32 - n)

/-- The next of the eighty words, from the last sixteen, which are kept with the newest in front. -/
def nextWord (newest : List UInt32) : UInt32 :=
  let ago (i : Nat) := newest.getD (i - 1) 0
  rotate (ago 3 ^^^ ago 8 ^^^ ago 14 ^^^ ago 16) 1

/-- The eighty words of a block, the newest in front. -/
def spread (block : List UInt32) : List UInt32 :=
  (List.range 64).foldl (fun newest _ => nextWord newest :: newest) block.reverse

/-- The five words of the state. -/
structure State where
  a : UInt32
  b : UInt32
  c : UInt32
  d : UInt32
  e : UInt32
  deriving DecidableEq, Repr

/-- The state in front of the first block. -/
def State.start : State := ⟨0x67452301, 0xEFCDAB89, 0x98BADCFE, 0x10325476, 0xC3D2E1F0⟩

/-- The function and the constant of a round. -/
def mixer (round : Nat) (b c d : UInt32) : UInt32 × UInt32 :=
  if round < 20 then ((b &&& c) ||| (~~~b &&& d), 0x5A827999)
  else if round < 40 then (b ^^^ c ^^^ d, 0x6ED9EBA1)
  else if round < 60 then ((b &&& c) ||| (b &&& d) ||| (c &&& d), 0x8F1BBCDC)
  else (b ^^^ c ^^^ d, 0xCA62C1D6)

/-- The state after one round. -/
def State.round (s : State) (round : Nat) (w : UInt32) : State :=
  let (f, k) := mixer round s.b s.c s.d
  ⟨rotate s.a 5 + f + s.e + k + w, s.a, rotate s.b 30, s.c, s.d⟩

/-- The state after one block. -/
def State.block (s : State) (block : List UInt32) : State :=
  let t := (spread block).reverse.zipIdx.foldl (fun t (w, i) => t.round i w) s
  ⟨s.a + t.a, s.b + t.b, s.c + t.c, s.d + t.d, s.e + t.e⟩

/-- The state after all blocks. -/
def State.blocks (s : State) : List UInt32 → State
  | [] => s
  | w :: ws => (s.block ((w :: ws).take 16)).blocks (ws.drop 15)
termination_by ws => ws.length
decreasing_by simp only [List.length_cons, List.length_drop]; omega

/-- The digest of bytes: forty lower-case hexadecimal digits. -/
def sha1 (message : List UInt8) : String :=
  let s := State.start.blocks (wordsOf (padded message))
  String.ofList ([s.a, s.b, s.c, s.d, s.e].flatMap fun w => Text.hexDigits 8 w.toNat)

end ResponsiveStyle.Output.Digest

/-
# Spans and end lines turned into each other

In the form of end lines a span from a numbered line is written as the line at the sum of both, and
in the form of spans an end line as the difference (`compose_finish_of_span`,
`compose_span_of_finish`). So nothing is lost when a placement goes from one form to the other and
back (`compose_other_compose`). But a number below zero counts its line from the far edge of the
grid, and there is no line zero: what is written stands for the same lines exactly if both numbers
are counted from the same edge (`compose_keeps_lines_iff`).
-/
import ResponsiveStyle.Proofs.Grid.Tail

namespace ResponsiveStyle.Grid

open Text (fits32 intText signedDigits)

/-- Different numbers have different texts. -/
theorem intText_injective : Function.Injective intText := by
  intro n m h
  have hdigits : signedDigits n = signedDigits m := String.ofList_injective h
  have hread := Text.signed?_signedDigits n
  rw [hdigits, Text.signed?_signedDigits] at hread
  exact (Option.some.inj hread).symm

/-- Different spans have different texts. -/
theorem span_text_injective : Function.Injective fun k => "span " ++ intText k :=
  fun _ _ h => intText_injective ((String.append_right_inj _).mp h)

/-- The text of a line by its number is the numeral. -/
theorem Line.text_number (n : Int) : (number n).text = intText n := rfl

/-- A start line alone is no start line with a part behind the slash. -/
theorem ne_append_slash (start tail : String) : start ≠ start ++ " / " ++ tail := by
  intro h
  have hlength := congrArg String.length h
  rw [String.length_append, String.length_append, show " / ".length = 3 from rfl] at hlength
  omega

/-- If a number is written behind the slash only when it is kept, then one that stands there was
kept. -/
theorem ite_append_slash_eq_iff {tail : Int → String} (htail : Function.Injective tail)
    (kept : Int → Prop) [DecidablePred kept] (start : String) (n m : Int) :
    (if kept n then start ++ " / " ++ tail n else start) = start ++ " / " ++ tail m ↔
      n = m ∧ kept m := by
  split_ifs with hkept
  · rw [String.append_right_inj, htail.eq_iff]
    exact ⟨fun heq => ⟨heq, heq ▸ hkept⟩, And.left⟩
  · refine iff_of_false (ne_append_slash _ _) ?_
    rintro ⟨rfl, h⟩
    exact hkept h

namespace Placement

/-! ## From one form to the other -/

section

variable {s : Int} (hs : s ≠ 0) (fallback : Int)
include hs

/-- A span from a numbered line is written as the end line at the sum, if that has 32 bits and is
not zero. -/
theorem compose_finish_of_span {k : Int} (hk : k ≠ 0) :
    compose ⟨.number s, some k, none⟩ .finish fallback
      = if fits32 (s + k) = true ∧ s + k ≠ 0 then intText s ++ " / " ++ intText (s + k)
        else intText s := by
  have hstart : (Line.number s).orFallback fallback = .number s := by simp [Line.orFallback, hs]
  have hown : ownSpan? ⟨.number s, some k, none⟩ fallback = some k :=
    (ownSpan?_eq_some_iff _ fallback k).mpr ⟨k, rfl, by simp [replaced, hk], hk⟩
  have hwritten : writtenFinish? ⟨.number s, some k, none⟩ fallback
      = ((Text.checked32 (s + k)).bind nonzero?).map .number := by
    unfold writtenFinish?
    rw [hown, hstart]
    rfl
  rw [compose_finish, hwritten, checked32_bind_nonzero?, hstart]
  split_ifs <;> rfl

/-- An end line is written as the span up to it from a numbered line, if that has 32 bits and is not
zero. -/
theorem compose_span_of_finish {e : Int} (he : e ≠ 0) :
    compose ⟨.number s, none, some (.number e)⟩ .span fallback
      = if fits32 (e - s) = true ∧ e - s ≠ 0 then intText s ++ " / " ++ ("span " ++ intText (e - s))
        else intText s := by
  have hstart : (Line.number s).orFallback fallback = .number s := by simp [Line.orFallback, hs]
  have hend : (Line.number e).orFallback fallback = .number e := by simp [Line.orFallback, he]
  have hwritten : writtenSpan? ⟨.number s, none, some (.number e)⟩ fallback
      = (Text.checked32 (e - s)).bind nonzero? := by
    unfold writtenSpan?
    rw [Option.map_some, hend, hstart]
    rfl
  rw [compose_span, hwritten, checked32_bind_nonzero?, hstart]
  split_ifs <;> rfl

/-- An end line that is written for a span is the one at the sum. -/
theorem compose_finish_of_span_eq_iff {k : Int} (hk : k ≠ 0) (n : Int) :
    compose ⟨.number s, some k, none⟩ .finish fallback = intText s ++ " / " ++ intText n ↔
      s + k = n ∧ fits32 n = true ∧ n ≠ 0 := by
  rw [compose_finish_of_span hs fallback hk]
  exact ite_append_slash_eq_iff intText_injective (fun n => fits32 n = true ∧ n ≠ 0) _ _ _

/-- A span that is written for an end line is the difference. -/
theorem compose_span_of_finish_eq_iff {e : Int} (he : e ≠ 0) (k : Int) :
    compose ⟨.number s, none, some (.number e)⟩ .span fallback
        = intText s ++ " / " ++ ("span " ++ intText k) ↔
      e - s = k ∧ fits32 k = true ∧ k ≠ 0 := by
  rw [compose_span_of_finish hs fallback he]
  exact ite_append_slash_eq_iff span_text_injective (fun n => fits32 n = true ∧ n ≠ 0) _ _ _

end

/-! ## There and back -/

/-- A span from a numbered line that is written as an end line is read as that, and written as the
span again; and an end line that is written as a span from a numbered line is read as that, and
written as the end line again. -/
theorem compose_other_compose {s : Int} (hs : fits32 s = true) (hzero : s ≠ 0) (fallback : Int) :
    (∀ k, fits32 k = true → k ≠ 0 → fits32 (s + k) = true → s + k ≠ 0 →
      parse (compose ⟨.number s, some k, none⟩ .finish fallback)
          = ⟨.number s, none, some (.number (s + k))⟩ ∧
        (parse (compose ⟨.number s, some k, none⟩ .finish fallback)).compose .span fallback
          = compose ⟨.number s, some k, none⟩ .span fallback) ∧
    ∀ e, fits32 e = true → e ≠ 0 → fits32 (e - s) = true → e - s ≠ 0 →
      parse (compose ⟨.number s, none, some (.number e)⟩ .span fallback)
          = ⟨.number s, some (e - s), none⟩ ∧
        (parse (compose ⟨.number s, none, some (.number e)⟩ .span fallback)).compose
            .finish fallback
          = compose ⟨.number s, none, some (.number e)⟩ .finish fallback := by
  have hstart : (Line.number s).Proper := .number hs hzero
  constructor
  · intro k hk hspan hfits hsum
    have hend : (Line.number (s + k)).Proper := .number hfits hsum
    have hread : parse (compose ⟨.number s, some k, none⟩ .finish fallback)
        = ⟨.number s, none, some (.number (s + k))⟩ := by
      rw [compose_finish_of_span hzero fallback hspan, if_pos ⟨hfits, hsum⟩, ← Line.text_number,
        ← Line.text_number]
      exact parse_finish hstart hend (by simp)
    have hback : s + k - s = k := by omega
    refine ⟨hread, ?_⟩
    rw [hread, compose_span_of_finish hzero fallback hsum, hback, if_pos ⟨hk, hspan⟩]
    exact ((WellFormed.span hstart hk hspan).compose_eq fallback).symm
  · intro e he hend hfits hspan
    have hread : parse (compose ⟨.number s, none, some (.number e)⟩ .span fallback)
        = ⟨.number s, some (e - s), none⟩ := by
      rw [compose_span_of_finish hzero fallback hend, if_pos ⟨hfits, hspan⟩, ← Line.text_number]
      exact parse_span hstart hfits hspan
    have hback : s + (e - s) = e := by omega
    refine ⟨hread, ?_⟩
    rw [hread, compose_finish_of_span hzero fallback hspan, hback, if_pos ⟨he, hend⟩]
    exact ((WellFormed.finish hstart (.number he hend) (by simp)).compose_eq fallback).symm

/-- A span across the lines that are not there, and the lines that are farthest apart for a span. -/
theorem compose_other_compose_across :
    (parse (compose ⟨.number (-1), some 2, none⟩ .finish 1)).compose .span 1
        = compose ⟨.number (-1), some 2, none⟩ .span 1 ∧
      (parse (compose ⟨.number (-1), none, some (.number 2147483646)⟩ .span 1)).compose .finish 1
        = compose ⟨.number (-1), none, some (.number 2147483646)⟩ .finish 1 := by
  obtain ⟨hspan, hfinish⟩ := compose_other_compose (by decide : fits32 (-1) = true) (by decide) 1
  exact ⟨(hspan 2 (by decide) (by decide) (by decide) (by decide)).2,
    (hfinish 2147483646 (by decide) (by decide) (by decide) (by decide)).2⟩

/-! ## The lines of a grid -/

/-- The line that a number stands for in a grid of `lines` lines: a number below zero counts from
the far edge. -/
def lineOf (lines : Nat) (n : Int) : Int := if 0 < n then n else lines + 1 + n

/-- Two numbers are as far apart as the lines that they stand for exactly if both are on the same
side of zero. -/
theorem lineOf_sub_lineOf_iff (lines : Nat) (n m : Int) :
    lineOf lines m - lineOf lines n = m - n ↔ (0 < n ↔ 0 < m) := by
  unfold lineOf
  split_ifs <;> omega

/-- A span from a numbered line is written as an end line that stands for the line at that distance
exactly unless the start line is counted from the far edge and the end line from the near one. And
an end line behind the start line is written as a span that is the distance of the two lines exactly
if both are counted from the same edge, or no span is written because the difference has more than
32 bits. -/
theorem compose_keeps_lines_iff {s : Int} (hs : s ≠ 0) (fallback : Int) (lines : Nat) :
    (∀ k, fits32 k = true → 1 ≤ k →
      ((∀ n, compose ⟨.number s, some k, none⟩ .finish fallback = intText s ++ " / " ++ intText n →
          lineOf lines n = lineOf lines s + k) ↔
        ¬ (s < 0 ∧ 0 < s + k))) ∧
    ∀ e, e ≠ 0 → lineOf lines s < lineOf lines e →
      ((∀ k, compose ⟨.number s, none, some (.number e)⟩ .span fallback
            = intText s ++ " / " ++ ("span " ++ intText k) →
          0 < k ∧ k = lineOf lines e - lineOf lines s) ↔
        (0 < s ↔ 0 < e) ∨ fits32 (e - s) = false) := by
  constructor
  · intro k hk hone
    simp only [compose_finish_of_span_eq_iff hs fallback (show k ≠ 0 by omega)]
    constructor
    · rintro hkeeps ⟨hbelow, habove⟩
      -- a sum above zero is less than the span, so it has 32 bits and is written
      have hfits : fits32 (s + k) = true := by
        simp only [fits32, Bool.and_eq_true, decide_eq_true_eq] at hk ⊢
        omega
      have hline := hkeeps (s + k) ⟨rfl, hfits, by omega⟩
      have hside := (lineOf_sub_lineOf_iff lines s (s + k)).mp (by omega)
      omega
    · rintro hside n ⟨rfl, -, hsum⟩
      have hline := (lineOf_sub_lineOf_iff lines s (s + k)).mpr (by omega)
      omega
  · intro e he hlater
    simp only [compose_span_of_finish_eq_iff hs fallback he]
    constructor
    · intro hkeeps
      by_contra hnot
      obtain ⟨hside, hfits⟩ := not_or.mp hnot
      rw [Bool.not_eq_false] at hfits
      have hdistance := hkeeps (e - s) ⟨rfl, hfits, by omega⟩
      exact hside ((lineOf_sub_lineOf_iff lines s e).mp hdistance.2.symm)
    · rintro hside k ⟨rfl, hfits, -⟩
      have hsame := hside.resolve_right (by simp [hfits])
      have hdistance := (lineOf_sub_lineOf_iff lines s e).mpr hsame
      omega

/-- Two lines that are counted from the far edge. -/
theorem compose_keeps_lines_iff_far_edge :
    (compose ⟨.number (-5), some 2, none⟩ .finish 1 = "-5 / -3" ∧
      lineOf 6 (-3) = lineOf 6 (-5) + 2) ∧
      compose ⟨.number (-5), none, some (.number (-1))⟩ .span 1 = "-5 / span 4" ∧
        lineOf 6 (-1) - lineOf 6 (-5) = 4 := by
  have hspan : compose ⟨.number (-5), some 2, none⟩ .finish 1 = "-5 / -3" := by decide +kernel
  have hfinish : compose ⟨.number (-5), none, some (.number (-1))⟩ .span 1 = "-5 / span 4" := by
    decide +kernel
  obtain ⟨hline, hdistance⟩ := compose_keeps_lines_iff (by decide : (-5 : Int) ≠ 0) 1 6
  refine ⟨⟨hspan, ?_⟩, hfinish, ?_⟩
  · exact (hline 2 (by decide) (by decide)).mpr (by decide) (-3) (hspan.trans (by decide +kernel))
  · exact ((hdistance (-1) (by decide) (by decide)).mpr (.inl (by decide)) 4
      (hfinish.trans (by decide +kernel))).2.symm

/-- Across the far edge, where the next line has no number, a span is written as an end line in
front of its start line; and an end line that is counted from the far edge is written as a span
below zero if the start line is counted from the near edge. -/
theorem compose_loses_lines :
    (compose ⟨.number (-1), some 2, none⟩ .finish 1 = "-1 / 1" ∧
      lineOf 4 1 = 1 ∧ lineOf 4 (-1) + 2 = 6) ∧
    compose ⟨.number 1, none, some (.number (-1))⟩ .span 1 = "1 / span -2" ∧
      lineOf 4 (-1) - lineOf 4 1 = 3 := by
  decide +kernel

end Placement

end ResponsiveStyle.Grid

/-
# What is written behind the slash

Whatever lines and span a placement has, and whatever number stands in for zeros, its shorthand is a
proper start line alone, or the line with one part behind the slash: in the one form a span other
than zero, in the other a proper end line (`compose_one_tail`). What may stand there is what the
placement has, with the number in the place of a zero, or else what comes of its numbers (`SpanOf`,
`FinishOf`): the exact sum or difference, and only if it has 32 bits.
-/
import ResponsiveStyle.Proofs.Grid.Placement

namespace ResponsiveStyle.Grid

open Text (trim trim_trim checked32 fits32 intText)

/-! ## Lines of a placement -/

/-- A line that a placement may have: one that is left to the grid, any number of 32 bits, zero
among them, or the name that is read from a token without a slash that is no span. -/
inductive Line.Given : Line → Prop
  | auto : Given .auto
  | number {n : Int} (fits : fits32 n = true) : Given (.number n)
  | named {token name : String} (slash : '/' ∉ token.toList)
      (span : spanOfChars? (trim token.toList) = none) (parsed : Line.parse token = .named name) :
      Given (.named name)

/-- With a number of 32 bits in the place of zero the lines of a placement are proper. -/
theorem Line.Given.proper_orFallback {l : Line} (h : l.Given) {fallback : Int}
    (hfallback : fits32 fallback = true) : (l.orFallback fallback).Proper := by
  cases h with
  | auto => exact .auto
  | @number n fits =>
    unfold Line.orFallback
    simp only [beq_iff_eq]
    split
    · split
      · exact .auto
      · rename_i hzero
        exact .number hfallback hzero
    · rename_i hzero
      exact .number fits hzero
  | @named token name slash span parsed =>
    have hslash : '/' ∉ trim token.toList := fun hmem => slash (Text.mem_of_mem_trim hmem)
    have hproper := Line.proper_ofChars (trim_trim token.toList) hslash span
    rw [show Line.ofChars (trim token.toList) = .named name from parsed] at hproper
    exact hproper

/-- No proper line is the number zero. -/
theorem Line.Proper.ne_zero {l : Line} (h : l.Proper) : l ≠ .number 0 := by
  rintro rfl
  cases h with
  | number _ nonzero => exact nonzero rfl

namespace Placement

/-! ## Numbers that come of others -/

/-- A number is kept unless it is zero. -/
theorem nonzero?_eq_some_iff (n m : Int) : nonzero? n = some m ↔ n = m ∧ m ≠ 0 := by
  unfold nonzero?
  by_cases hzero : n = 0
  · subst hzero
    simp [eq_comm]
  · simp only [beq_iff_eq, hzero, if_false, Option.some_inj]
    exact ⟨fun heq => ⟨heq, heq ▸ hzero⟩, And.left⟩

/-- What is computed is kept if it has 32 bits and is not zero. -/
theorem checked32_bind_nonzero? (n : Int) :
    (checked32 n).bind nonzero? = if fits32 n = true ∧ n ≠ 0 then some n else none := by
  unfold checked32 nonzero?
  by_cases hfits : fits32 n = true
  · by_cases hzero : n = 0 <;> simp [hfits, hzero]
  · simp [hfits]

theorem checked32_bind_nonzero?_eq_some_iff (n m : Int) :
    (checked32 n).bind nonzero? = some m ↔ n = m ∧ fits32 m = true ∧ m ≠ 0 := by
  rw [checked32_bind_nonzero?, Option.ite_none_right_eq_some, Option.some_inj]
  constructor
  · rintro ⟨hkept, rfl⟩
    exact ⟨rfl, hkept⟩
  · rintro ⟨rfl, hkept⟩
    exact ⟨hkept, rfl⟩

/-- Between two numbered lines lies their difference. -/
theorem spanBetween?_eq_some_iff (start : Line) (finish : Option Line) (k : Int) :
    spanBetween? start finish = some k ↔
      ∃ s e, start = .number s ∧ finish = some (.number e) ∧ e - s = k ∧ fits32 k = true ∧
        k ≠ 0 := by
  unfold spanBetween?
  split
  · rename_i s e
    rw [checked32_bind_nonzero?_eq_some_iff]
    constructor
    · exact fun h => ⟨s, e, rfl, rfl, h⟩
    · rintro ⟨s', e', hs, he, h⟩
      obtain rfl := Line.number.inj hs
      obtain rfl := Line.number.inj (Option.some.inj he)
      exact h
  · rename_i hother
    simp only [reduceCtorEq, false_iff]
    rintro ⟨s, e, rfl, rfl, -⟩
    exact hother s e rfl rfl

/-- At a span from a numbered line lies their sum. -/
theorem lineAt?_eq_some_iff (start : Line) (span : Option Int) (l : Line) :
    lineAt? start span = some l ↔
      ∃ s k, start = .number s ∧ span = some k ∧ l = .number (s + k) ∧
        fits32 (s + k) = true ∧ s + k ≠ 0 := by
  unfold lineAt?
  split
  · rename_i s k
    rw [Option.map_eq_some_iff]
    constructor
    · rintro ⟨n, hn, rfl⟩
      obtain ⟨rfl, h⟩ := (checked32_bind_nonzero?_eq_some_iff _ n).mp hn
      exact ⟨s, k, rfl, rfl, rfl, h⟩
    · rintro ⟨s', k', hs, hk, rfl, h⟩
      obtain rfl := Line.number.inj hs
      obtain rfl := Option.some.inj hk
      exact ⟨s + k, (checked32_bind_nonzero?_eq_some_iff _ _).mpr ⟨rfl, h⟩, rfl⟩
  · rename_i hother
    simp only [reduceCtorEq, false_iff]
    rintro ⟨s, k, rfl, rfl, -⟩
    exact hother s k rfl rfl

/-! ## The span and the end line -/

/-- A number with another in its place if it is zero. -/
def replaced (fallback k : Int) : Int := if k == 0 then fallback else k

/-- The spans that may be written for a placement: its own with the number in the place of zero, or
the difference of two numbered lines if that is zero or missing. -/
inductive SpanOf (p : Placement) (fallback : Int) : Int → Prop
  | own {k : Int} (span : p.span = some k) : SpanOf p fallback (replaced fallback k)
  | between {s e : Int} (missing : ∀ k ∈ p.span, replaced fallback k = 0)
      (start : p.start.orFallback fallback = .number s)
      (finish : p.finish.map (Line.orFallback fallback) = some (.number e)) :
      SpanOf p fallback (e - s)

/-- The end lines that may be written for a placement: its own with the number in the place of zero,
or the line at its span from a numbered one if that is left to the grid or missing. -/
inductive FinishOf (p : Placement) (fallback : Int) : Line → Prop
  | own {e : Line} (finish : p.finish = some e) : FinishOf p fallback (e.orFallback fallback)
  | reached {s k : Int} (missing : ∀ e ∈ p.finish, e.orFallback fallback = .auto)
      (start : p.start.orFallback fallback = .number s) (span : p.span = some k)
      (nonzero : replaced fallback k ≠ 0) : FinishOf p fallback (.number (s + replaced fallback k))

/-- The span that a placement has with the number in the place of zero, unless that is zero too. -/
def ownSpan? (p : Placement) (fallback : Int) : Option Int :=
  p.span.bind fun k => nonzero? (replaced fallback k)

/-- The end line that a placement has with the number in the place of zero, unless it is left to the
grid. -/
def ownFinish? (p : Placement) (fallback : Int) : Option Line :=
  (p.finish.map (Line.orFallback fallback)).filter fun e => !e.isAuto

/-- The span that is written in the form of spans. -/
def writtenSpan? (p : Placement) (fallback : Int) : Option Int :=
  (p.ownSpan? fallback).or
    (spanBetween? (p.start.orFallback fallback) (p.finish.map (Line.orFallback fallback)))

/-- The end line that is written in the form of end lines. -/
def writtenFinish? (p : Placement) (fallback : Int) : Option Line :=
  (p.ownFinish? fallback).or (lineAt? (p.start.orFallback fallback) (p.ownSpan? fallback))

theorem ownSpan?_eq_some_iff (p : Placement) (fallback k : Int) :
    p.ownSpan? fallback = some k ↔ ∃ j, p.span = some j ∧ replaced fallback j = k ∧ k ≠ 0 := by
  unfold ownSpan?
  simp only [Option.bind_eq_some_iff, nonzero?_eq_some_iff]

theorem ownFinish?_eq_some_iff (p : Placement) (fallback : Int) (l : Line) :
    p.ownFinish? fallback = some l ↔
      ∃ e, p.finish = some e ∧ e.orFallback fallback = l ∧ l ≠ .auto := by
  have hgiven : (!l.isAuto) = true ↔ l ≠ .auto := by
    refine ⟨?_, fun hauto => by rw [isAuto_eq_false hauto]; rfl⟩
    rintro hgiven rfl
    exact absurd hgiven (by decide)
  unfold ownFinish?
  rw [Option.filter_eq_some_iff, Option.map_eq_some_iff, hgiven]
  simp only [← and_assoc, exists_and_right]

/-- A placement without a span of its own has none or zero. -/
theorem replaced_eq_zero {p : Placement} {fallback : Int} (h : p.ownSpan? fallback = none) :
    ∀ k ∈ p.span, replaced fallback k = 0 := by
  intro k hk
  by_contra hzero
  have hsome := (ownSpan?_eq_some_iff p fallback _).mpr ⟨k, hk, rfl, hzero⟩
  exact absurd (h.symm.trans hsome) (by simp)

/-- A placement without an end line of its own has none or leaves it to the grid. -/
theorem orFallback_eq_auto {p : Placement} {fallback : Int} (h : p.ownFinish? fallback = none) :
    ∀ e ∈ p.finish, e.orFallback fallback = .auto := by
  intro e he
  by_contra hauto
  have hsome := (ownFinish?_eq_some_iff p fallback _).mpr ⟨e, he, rfl, hauto⟩
  exact absurd (h.symm.trans hsome) (by simp)

/-- A span that is written is one that may be, has 32 bits and is not zero. -/
theorem of_writtenSpan?_eq_some {p : Placement} (hspan : ∀ k ∈ p.span, fits32 k = true)
    {fallback : Int} (hfallback : fits32 fallback = true) {k : Int}
    (h : p.writtenSpan? fallback = some k) :
    p.SpanOf fallback k ∧ fits32 k = true ∧ k ≠ 0 := by
  rcases Option.or_eq_some_iff.mp h with hown | ⟨hmissing, hbetween⟩
  · obtain ⟨j, hj, rfl, hzero⟩ := (ownSpan?_eq_some_iff p fallback k).mp hown
    refine ⟨.own hj, ?_, hzero⟩
    unfold replaced
    split
    · exact hfallback
    · exact hspan j hj
  · obtain ⟨s, e, hstart, hfinish, rfl, hfits, hzero⟩ :=
      (spanBetween?_eq_some_iff _ _ k).mp hbetween
    exact ⟨.between (replaced_eq_zero hmissing) hstart hfinish, hfits, hzero⟩

/-- No span is written if every one that may be is zero or has more than 32 bits. -/
theorem of_writtenSpan?_eq_none {p : Placement} {fallback : Int}
    (h : p.writtenSpan? fallback = none) {k : Int} (hk : p.SpanOf fallback k)
    (hfits : fits32 k = true) : k = 0 := by
  obtain ⟨hown, hbetween⟩ := Option.or_eq_none_iff.mp h
  by_contra hzero
  cases hk with
  | own span => exact hzero (replaced_eq_zero hown _ span)
  | @between s e missing start finish =>
    have hsome := (spanBetween?_eq_some_iff _ _ _).mpr ⟨s, e, start, finish, rfl, hfits, hzero⟩
    exact absurd (hbetween.symm.trans hsome) (by simp)

/-- An end line that is written is one that may be, and a proper one that is given. -/
theorem of_writtenFinish?_eq_some {p : Placement} (hfinish : ∀ e ∈ p.finish, e.Given)
    {fallback : Int} (hfallback : fits32 fallback = true) {e : Line}
    (h : p.writtenFinish? fallback = some e) :
    p.FinishOf fallback e ∧ e.Proper ∧ e ≠ .auto := by
  rcases Option.or_eq_some_iff.mp h with hown | ⟨hmissing, hreached⟩
  · obtain ⟨l, hl, rfl, hauto⟩ := (ownFinish?_eq_some_iff p fallback e).mp hown
    exact ⟨.own hl, (hfinish l hl).proper_orFallback hfallback, hauto⟩
  · obtain ⟨s, k, hstart, hk, rfl, hfits, hzero⟩ := (lineAt?_eq_some_iff _ _ e).mp hreached
    obtain ⟨j, hj, rfl, hnonzero⟩ := (ownSpan?_eq_some_iff p fallback k).mp hk
    exact ⟨.reached (orFallback_eq_auto hmissing) hstart hj hnonzero, .number hfits hzero, by simp⟩

/-- No end line is written if every one that may be is left to the grid or no proper line. -/
theorem of_writtenFinish?_eq_none {p : Placement} {fallback : Int}
    (h : p.writtenFinish? fallback = none) {e : Line} (he : p.FinishOf fallback e)
    (hproper : e.Proper) : e = .auto := by
  obtain ⟨hown, hreached⟩ := Option.or_eq_none_iff.mp h
  cases he with
  | own finish => exact orFallback_eq_auto hown _ finish
  | @reached s k missing start span nonzero =>
    cases hproper with
    | number fits zero =>
      have hspan := (ownSpan?_eq_some_iff p fallback _).mpr ⟨k, span, rfl, nonzero⟩
      have hsome := (lineAt?_eq_some_iff _ _ _).mpr ⟨s, _, start, hspan, rfl, fits, zero⟩
      exact absurd (hreached.symm.trans hsome) (by simp)

/-! ## Shorthands -/

/-- The shorthand is the start line, with the part behind the slash if there is one. -/
theorem compose_eq_getD (p : Placement) (mode : PlacementMode) (fallback : Int) :
    p.compose mode fallback
      = ((tail? (p.start.orFallback fallback) (p.ownSpan? fallback)
            (p.finish.map (Line.orFallback fallback))
          mode).map fun tail => (p.start.orFallback fallback).text ++ " / " ++ tail).getD
        (p.start.orFallback fallback).text := by
  unfold compose ownSpan? replaced
  simp only
  split
  · rename_i tail htail
    rw [htail]
    rfl
  · rename_i hnone
    rw [hnone]
    rfl

/-- The shorthand in the form of spans. -/
theorem compose_span (p : Placement) (fallback : Int) :
    p.compose .span fallback
      = ((p.writtenSpan? fallback).map fun k =>
          (p.start.orFallback fallback).text ++ " / " ++ ("span " ++ intText k)).getD
        (p.start.orFallback fallback).text := by
  rw [compose_eq_getD,
    show tail? _ _ _ .span = (p.writtenSpan? fallback).map fun k => "span " ++ intText k
    from rfl, Option.map_map]
  rfl

/-- The shorthand in the form of end lines. -/
theorem compose_finish (p : Placement) (fallback : Int) :
    p.compose .finish fallback
      = ((p.writtenFinish? fallback).map fun e =>
          (p.start.orFallback fallback).text ++ " / " ++ e.text).getD
        (p.start.orFallback fallback).text := by
  rw [compose_eq_getD,
    show tail? _ _ _ .finish = (p.writtenFinish? fallback).map Line.text from rfl, Option.map_map]
  rfl

/-- The shorthand of a placement begins with a proper start line, never zero. In the form of spans
it is the line alone, if every span that may be written is zero or has more than 32 bits, or has
such a span of 32 bits behind the slash that is not zero. In the form of end lines it is the line
alone, if no proper end line that may be written is given, or has such a line behind the slash that
is neither left to the grid nor zero nor taken for a span. And it is read as it was written. -/
theorem compose_one_tail {p : Placement} (hstart : p.start.Given)
    (hspan : ∀ k ∈ p.span, fits32 k = true)
    (hfinish : ∀ e ∈ p.finish, e.Given) {fallback : Int} (hfallback : fits32 fallback = true) :
    ∃ start, start = p.start.orFallback fallback ∧ start.Proper ∧ start ≠ .number 0 ∧
    (p.compose .span fallback = start.text ∧
      parse (p.compose .span fallback) = ⟨start, none, none⟩ ∧
        (∀ k, p.SpanOf fallback k → fits32 k = true → k = 0) ∨
      ∃ k, p.SpanOf fallback k ∧ fits32 k = true ∧ k ≠ 0 ∧
        p.compose .span fallback = start.text ++ " / " ++ ("span " ++ intText k) ∧
        parse (p.compose .span fallback) = ⟨start, some k, none⟩) ∧
    (p.compose .finish fallback = start.text ∧
      parse (p.compose .finish fallback) = ⟨start, none, none⟩ ∧
        (∀ e, p.FinishOf fallback e → e.Proper → e = .auto) ∨
      ∃ e, p.FinishOf fallback e ∧ e.Proper ∧ e ≠ .auto ∧ e ≠ .number 0 ∧
        spanOfChars? e.text.toList = none ∧
        p.compose .finish fallback = start.text ++ " / " ++ e.text ∧
        parse (p.compose .finish fallback) = ⟨start, none, some e⟩) := by
  have hproper := hstart.proper_orFallback hfallback
  refine ⟨_, rfl, hproper, hproper.ne_zero, ?_, ?_⟩
  · rw [compose_span]
    cases hwritten : p.writtenSpan? fallback with
    | none =>
      exact .inl ⟨rfl, parse_text hproper,
        fun k hk hfits => of_writtenSpan?_eq_none hwritten hk hfits⟩
    | some k =>
      obtain ⟨hof, hfits, hzero⟩ := of_writtenSpan?_eq_some hspan hfallback hwritten
      exact .inr ⟨k, hof, hfits, hzero, rfl, parse_span hproper hfits hzero⟩
  · rw [compose_finish]
    cases hwritten : p.writtenFinish? fallback with
    | none =>
      exact .inl ⟨rfl, parse_text hproper,
        fun e he hend => of_writtenFinish?_eq_none hwritten he hend⟩
    | some e =>
      obtain ⟨hof, hend, hgiven⟩ := of_writtenFinish?_eq_some hfinish hfallback hwritten
      exact .inr ⟨e, hof, hend, hgiven, hend.ne_zero, hend.spanOfChars?_text, rfl,
        parse_finish hproper hend hgiven⟩

/-- A start line and a span that are zero, and an end line by its name. -/
theorem compose_one_tail_zeros :
    let p : Placement := ⟨.number 0, some 0, some (.named "main-end")⟩
    p.start.Given ∧ (∀ e ∈ p.finish, e.Given) ∧
    (∃ k, p.SpanOf (-2) k ∧ k ≠ 0 ∧
      p.compose .span (-2) = "-2" ++ " / " ++ ("span " ++ intText k)) ∧
    ∃ e : Line, e.Proper ∧ e ≠ .auto ∧ p.compose .finish (-2) = "-2" ++ " / " ++ e.text := by
  intro p
  have hstart : p.start.Given := .number (by decide)
  have hfinish : ∀ e ∈ p.finish, e.Given := by
    intro e he
    obtain rfl := Option.some.inj he
    have hparsed : Line.parse " main-end " = .named "main-end" := by decide
    exact .named (by decide) (by decide) hparsed
  have hfallback : fits32 (-2) = true := by decide
  obtain ⟨start, hreplaced, -, -, hspan, hend⟩ :=
    compose_one_tail hstart (by decide) hfinish hfallback
  obtain rfl : start = .number (-2) := hreplaced
  have htext : (Line.number (-2)).text = "-2" := by decide +kernel
  rw [htext] at hspan hend
  refine ⟨hstart, hfinish, ?_, ?_⟩
  · rcases hspan with ⟨halone, -⟩ | ⟨k, hof, -, hzero, hwritten, -⟩
    · exact absurd halone (by decide +kernel)
    · exact ⟨k, hof, hzero, hwritten⟩
  · rcases hend with ⟨halone, -⟩ | ⟨e, -, hproper, hauto, -, -, hwritten, -⟩
    · exact absurd halone (by decide +kernel)
    · exact ⟨e, hproper, hauto, hwritten⟩

end Placement

end ResponsiveStyle.Grid

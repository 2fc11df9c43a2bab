/-
# Brackets that are counted

How deep a text nests is a matter of counting: behind each part that it begins with, no kind of
bracket may be closed more often than it was opened, and behind the whole text each is closed as
often. That is when a text balances (`balanced_iff_counted`), and two counters that are kept along
the way stand at zero exactly behind the parts in which all brackets are closed
(`Nesting.eq_top_iff`).

So each character of a text has a place, which is what stands in front of it (`places`). Splitting a
track list takes away the blanks in whose place all brackets are closed, and nothing else
(`flatten_splitTracks?`), and a character is looked for in such places (`hasOutside_iff`), although
there only one counter is kept for both kinds of brackets.
-/
import ResponsiveStyle.Proofs.Grid.Balance

namespace ResponsiveStyle.Grid

open Text (isBlank)

/-! ## Counting brackets -/

/-- The brackets of either kind are closed as often as they are opened. -/
def AllClosed (cs : List Char) : Prop := cs.count '(' = cs.count ')' ∧ cs.count '[' = cs.count ']'

instance (cs : List Char) : Decidable (AllClosed cs) := instDecidableAnd

/-- Brackets of one kind that are closed more often than they are opened. -/
def Overclosed (cs : List Char) : Prop := cs.count '(' < cs.count ')' ∨ cs.count '[' < cs.count ']'

namespace Nesting

/-- Both counters go up at an opening bracket and down at a closing one. -/
theorem after?_eq_some_iff (n m : Nesting) (c : Char) :
    n.after? c = some m ↔
      m.parens + [c].count ')' = n.parens + [c].count '(' ∧
        m.brackets + [c].count ']' = n.brackets + [c].count '[' := by
  obtain ⟨parens, brackets⟩ := n
  obtain ⟨parens', brackets'⟩ := m
  by_cases hc : isBracket c = true
  · simp only [isBracket, Bool.or_eq_true, beq_iff_eq] at hc
    rcases hc with ((rfl | rfl) | rfl) | rfl
    · simp [after?]
      omega
    · cases parens <;> simp [after?]; omega
    · simp [after?]
      omega
    · cases brackets <;> simp [after?]; omega
  · rw [Bool.not_eq_true] at hc
    rw [after?_of_not_isBracket hc]
    simp only [isBracket, Bool.or_eq_false_iff, beq_eq_false_iff_ne] at hc
    simp [hc, eq_comm]

/-- A text can be read if behind no part that it begins with a counter would be below zero, and both
counters end at what is opened without being closed. -/
theorem behind?_eq_some_iff (n m : Nesting) (cs : List Char) :
    n.behind? cs = some m ↔
      (∀ front, front <+: cs → front.count ')' ≤ n.parens + front.count '(' ∧
        front.count ']' ≤ n.brackets + front.count '[') ∧
      m.parens + cs.count ')' = n.parens + cs.count '(' ∧
        m.brackets + cs.count ']' = n.brackets + cs.count '[' := by
  induction cs generalizing n with
  | nil =>
    obtain ⟨parens, brackets⟩ := n
    obtain ⟨parens', brackets'⟩ := m
    simp [behind?_nil, eq_comm]
  | cons c cs ih =>
    have hcount : ∀ (b : Char) (ds : List Char), (c :: ds).count b = [c].count b + ds.count b := by
      intro b ds
      rw [← List.count_append, List.singleton_append]
    rw [behind?_cons, Option.bind_eq_some_iff, hcount '(' cs, hcount ')' cs, hcount '[' cs,
      hcount ']' cs]
    constructor
    · rintro ⟨inner, hstep, hrest⟩
      obtain ⟨hparens, hbrackets⟩ := (after?_eq_some_iff n inner c).mp hstep
      obtain ⟨hfronts, hparens', hbrackets'⟩ := (ih inner).mp hrest
      refine ⟨fun front hfront => ?_, by omega, by omega⟩
      rcases List.prefix_cons_iff.mp hfront with rfl | ⟨rest, rfl, hrest⟩
      · simp
      · have hle := hfronts rest hrest
        rw [hcount '(' rest, hcount ')' rest, hcount '[' rest, hcount ']' rest]
        omega
    · rintro ⟨hfronts, hparens, hbrackets⟩
      -- the first character alone is a part that the text begins with, so that it can be read
      obtain ⟨hle, hle'⟩ := hfronts [c] ⟨cs, rfl⟩
      obtain ⟨inner, hin, hin'⟩ : ∃ inner : Nesting,
          inner.parens + [c].count ')' = n.parens + [c].count '(' ∧
            inner.brackets + [c].count ']' = n.brackets + [c].count '[' :=
        ⟨⟨_, _⟩, Nat.sub_add_cancel hle, Nat.sub_add_cancel hle'⟩
      refine ⟨inner, (after?_eq_some_iff n inner c).mpr ⟨hin, hin'⟩,
        (ih inner).mpr ⟨fun front hfront => ?_, by omega, by omega⟩⟩
      have hnext := hfronts (c :: front) ((List.prefix_cons_inj c).mpr hfront)
      rw [hcount '(' front, hcount ')' front, hcount '[' front, hcount ']' front] at hnext
      omega

/-- Both counters are at zero behind a text in which all brackets are closed. -/
theorem eq_top_iff {n : Nesting} {cs : List Char} (h : top.behind? cs = some n) :
    n = top ↔ AllClosed cs := by
  obtain ⟨-, hparens, hbrackets⟩ := (behind?_eq_some_iff top n cs).mp h
  obtain ⟨parens, brackets⟩ := n
  simp only [top, mk.injEq, AllClosed] at hparens hbrackets ⊢
  omega

end Nesting

/-- A text balances if no kind of bracket is closed too often behind a part that it begins with, and
all brackets are closed in the end. -/
theorem balanced_iff_counted (cs : List Char) :
    Balanced cs ↔ (∀ front, front <+: cs → ¬ Overclosed front) ∧ AllClosed cs := by
  unfold Balanced
  rw [Nesting.behind?_eq_some_iff]
  simp only [Nesting.top, Nat.zero_add, Overclosed, AllClosed, not_or, Nat.not_lt, eq_comm]

/-- A track list cannot be split if a bracket is closed too often behind a part that it begins with,
or a bracket is left open in the end. -/
theorem splitTracks?_eq_none_iff (cs : List Char) :
    splitTracks? cs = none ↔ (∃ front, front <+: cs ∧ Overclosed front) ∨ ¬ AllClosed cs := by
  rw [← Option.not_isSome_iff_eq_none, isSome_splitTracks?_iff, balanced_iff_counted, not_and_or]
  simp only [not_forall, not_not, exists_prop]

/-! ## Places -/

/-- The characters of a text that goes on behind `front`, each with what stands in front of it. -/
def placesFrom (front : List Char) : List Char → List (List Char × Char)
  | [] => []
  | c :: cs => (front, c) :: placesFrom (front ++ [c]) cs

/-- The characters of a text, each with what stands in front of it. -/
def places (cs : List Char) : List (List Char × Char) := placesFrom [] cs

theorem map_snd_placesFrom (front cs : List Char) : (placesFrom front cs).map Prod.snd = cs := by
  induction cs generalizing front with
  | nil => rfl
  | cons c cs ih =>
    rw [placesFrom, List.map_cons, ih]

/-- A character with its place, unless it is a blank and all brackets are closed there. -/
def stays (p : List Char × Char) : Bool := !(decide (AllClosed p.1) && isBlank p.2)

/-- The nesting behind one more character. -/
theorem Nesting.behind?_concat {n inner : Nesting} {front : List Char} {c : Char}
    (hfront : top.behind? front = some n) (hstep : n.after? c = some inner) :
    top.behind? (front ++ [c]) = some inner := by
  rw [behind?_append, hfront, Option.bind_some, behind?_cons, hstep, Option.bind_some, behind?_nil]

/-- The pieces of a track list are what stays of it. -/
theorem Cut.flatten_eq {n : Nesting} {cs piece : List Char} {pieces : List (List Char)}
    (h : Cut isBlank n cs piece pieces) {front : List Char}
    (hfront : Nesting.top.behind? front = some n) :
    (piece :: pieces).flatten = ((placesFrom front cs).filter stays).map Prod.snd := by
  induction h generalizing front with
  | last => rfl
  | @separator c cs next others sep rest ih =>
    have hclosed : AllClosed front := (Nesting.eq_top_iff hfront).mp rfl
    have hgone : stays (front, c) = false := by simp [stays, sep, hclosed]
    rw [placesFrom, List.filter_cons_of_neg (by simp [hgone]),
      ← ih (Nesting.behind?_concat hfront (Nesting.after?_of_isBlank sep .top)), List.flatten_cons,
      List.nil_append]
  | @inside n inner c cs piece others uncut step rest ih =>
    have hstays : stays (front, c) = true := by
      unfold stays
      simp only [← Nesting.eq_top_iff hfront, ← n.isTop_iff, Bool.decide_eq_true, uncut,
        Bool.not_false]
    rw [placesFrom, List.filter_cons_of_pos hstays, List.map_cons,
      ← ih (Nesting.behind?_concat hfront step), List.flatten_cons, List.flatten_cons,
      List.cons_append]

/-- The tokens of a track list are what stays of it. -/
theorem flatten_splitTracks? {cs : List Char} {tokens : List (List Char)}
    (h : splitTracks? cs = some tokens) :
    tokens.flatten = ((places cs).filter stays).map Prod.snd := by
  obtain ⟨piece, pieces, hcut, rfl⟩ := splitTracks?_eq_some h
  rw [List.flatten_filter_not_isEmpty]
  exact hcut.flatten_eq (Nesting.behind?_nil .top)

/-- All characters of a token stay. -/
theorem stays_of_isToken {token : List Char} (h : IsToken token) :
    ∀ p ∈ places token, stays p = true := by
  have hkept : token = ((places token).filter stays).map Prod.snd := by
    have hflatten := Cut.flatten_eq h.solid (Nesting.behind?_nil .top)
    rwa [List.flatten_singleton] at hflatten
  have hlength : ((places token).filter stays).length = (places token).length := by
    calc ((places token).filter stays).length
        = (((places token).filter stays).map Prod.snd).length := (List.length_map _).symm
      _ = ((places token).map Prod.snd).length := by
        rw [← hkept]
        exact (congrArg List.length (map_snd_placesFrom [] token)).symm
      _ = (places token).length := List.length_map _
  exact List.length_filter_eq_length_iff.mp hlength

/-- A character that is no bracket is found in the places in which all brackets are closed. -/
theorem hasOutside_placesFrom {c : Char} (hc : isBracket c = false) {front cs : List Char}
    {n m : Nesting} (hfront : Nesting.top.behind? front = some n) (h : n.behind? cs = some m) :
    hasOutside c n.depth cs = true ↔ ∃ p ∈ placesFrom front cs, p.2 = c ∧ AllClosed p.1 := by
  induction cs generalizing n front with
  | nil => simp [hasOutside, placesFrom]
  | cons d cs ih =>
    obtain ⟨inner, hstep, hrest⟩ := Option.bind_eq_some_iff.mp h
    have hhere : (inner.depth == 0 && d == c) = true ↔ d = c ∧ AllClosed front := by
      rw [Bool.and_eq_true, beq_iff_eq, beq_iff_eq, and_comm, ← Nesting.eq_top_iff hfront]
      refine and_congr_right fun hd => ?_
      -- the character leaves both counters as they are
      rw [hd, n.after?_of_not_isBracket hc, Option.some_inj] at hstep
      rw [← hstep, Nesting.depth_eq_zero_iff]
    rw [hasOutside_cons hstep, Bool.or_eq_true, hhere,
      ih (Nesting.behind?_concat hfront hstep) hrest, placesFrom]
    simp only [List.mem_cons, exists_eq_or_imp]

/-- In a text that balances a character that is no bracket is found in the places in which all
brackets are closed. -/
theorem hasOutside_iff {cs : List Char} (h : Balanced cs) {c : Char} (hc : isBracket c = false) :
    hasOutside c 0 cs = true ↔ ∃ p ∈ places cs, p.2 = c ∧ AllClosed p.1 :=
  hasOutside_placesFrom hc (Nesting.behind?_nil .top) h

/-! ## Splitting -/

/-- A track list cannot be split exactly if a bracket is closed too often on the way or left open in
the end. Otherwise its tokens are not empty, no blank in them stands where all brackets are closed,
their brackets balance, and one behind the other they are the track list without the blanks that
stand there. Joined by single blanks they are split again, and any character but the brackets is
found in the track list if it stands where all brackets are closed. -/
theorem splitTracks?_exact (cs : List Char) :
    (splitTracks? cs = none ↔ (∃ front, front <+: cs ∧ Overclosed front) ∨ ¬ AllClosed cs) ∧
    ∀ tokens, splitTracks? cs = some tokens →
      (∀ t ∈ tokens, t ≠ [] ∧ (∀ p ∈ places t, isBlank p.2 = true → ¬ AllClosed p.1) ∧
        (∀ front, front <+: t → ¬ Overclosed front) ∧ AllClosed t) ∧
      tokens.flatten
        = ((places cs).filter fun p => !(decide (AllClosed p.1) && isBlank p.2)).map Prod.snd ∧
      splitTracks? (List.intercalate [' '] tokens) = some tokens ∧
      ∀ c, isBracket c = false →
        (hasOutside c 0 cs = true ↔ ∃ p ∈ places cs, p.2 = c ∧ AllClosed p.1) := by
  refine ⟨splitTracks?_eq_none_iff cs, fun tokens htokens => ?_⟩
  have htoken : ∀ t ∈ tokens, IsToken t := fun t ht => isToken_of_splitTracks? htokens ht
  have hbalanced : Balanced cs := by
    rw [← isSome_splitTracks?_iff, htokens, Option.isSome_some]
  refine ⟨fun t ht => ⟨(htoken t ht).nonempty, fun p hp hblank hclosed => ?_,
    (balanced_iff_counted t).mp (htoken t ht).solid.balanced⟩, flatten_splitTracks? htokens,
    splitTracks?_intercalate htoken, fun c hc => hasOutside_iff hbalanced hc⟩
  have hstays := stays_of_isToken (htoken t ht) p hp
  simp [stays, hblank, hclosed] at hstays

/-- Brackets of the two kinds that are closed in the order in which they are opened, with a blank
between them. -/
theorem splitTracks?_exact_interleaved :
    let text := "[a b]  minmax(1px, 1fr)\u3000([ )]x".toList
    let tokens := ["[a b]".toList, "minmax(1px, 1fr)".toList, "([ )]x".toList]
    splitTracks? text = some tokens ∧ tokens.flatten = "[a b]minmax(1px, 1fr)([ )]x".toList ∧
      splitTracks? (List.intercalate [' '] tokens) = some tokens ∧
        hasOutside 'x' 0 text = true := by
  intro text tokens
  have htokens : splitTracks? text = some tokens := by decide
  obtain ⟨-, hflatten, hjoined, houtside⟩ := (splitTracks?_exact text).2 tokens htokens
  refine ⟨htokens, hflatten.trans (by decide), hjoined, (houtside 'x' (by decide)).mpr ?_⟩
  exact ⟨("[a b]  minmax(1px, 1fr)\u3000([ )]".toList, 'x'), by decide, rfl, by decide⟩

end ResponsiveStyle.Grid

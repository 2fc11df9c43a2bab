/-
# The pieces of a split text

A text is cut at the separators that stand outside of all brackets (`Cut`, which says what `pieces?`
finds). Its pieces are solid: their brackets balance, and no separator in them stands outside
(`Cut.solid`). Solid pieces with a separator between neighbours are cut where they were joined
(`cut_intercalate`). The pieces of a track list have no blanks at their ends, so its tokens joined
by single blanks have the same tokens again (`splitTracks?_intercalate`).
-/
import ResponsiveStyle.Grid.Split
import ResponsiveStyle.Proofs.Text.Trim

namespace ResponsiveStyle.Grid

open Text (trim isBlank trim_eq_self_iff)

/-! ## Nesting -/

/-- A character that opens or closes something. -/
def isBracket (c : Char) : Bool := c == '(' || c == ')' || c == '[' || c == ']'

/-- No blank is a bracket. -/
theorem isBracket_of_isBlank {c : Char} (h : isBlank c = true) : isBracket c = false := by
  have hne : ∀ b : Char, isBlank b = false → (c == b) = false := by
    intro b hb
    rw [beq_eq_false_iff_ne]
    rintro rfl
    rw [h] at hb
    exact absurd hb (by simp)
  unfold isBracket
  rw [hne '(' (by decide), hne ')' (by decide), hne '[' (by decide), hne ']' (by decide)]
  rfl

namespace Nesting

/-- Nothing is open only at the top. -/
theorem isTop_iff (n : Nesting) : n.isTop = true ↔ n = .top := by
  obtain ⟨parens, brackets⟩ := n
  simp [isTop, top]

/-- A character that is no bracket leaves the nesting as it is. -/
theorem after?_of_not_isBracket {c : Char} (h : isBracket c = false) (n : Nesting) :
    n.after? c = some n := by
  simp only [isBracket, Bool.or_eq_false_iff, beq_eq_false_iff_ne] at h
  obtain ⟨⟨⟨hopen, hclose⟩, hopens⟩, hcloses⟩ := h
  unfold after?
  split
  · exact absurd rfl hopen
  · exact absurd rfl hclose
  · exact absurd rfl hopens
  · exact absurd rfl hcloses
  · rfl

/-- How many brackets of both kinds are open. -/
def depth (n : Nesting) : Int := n.parens + n.brackets

/-- One counter for both kinds of brackets is at zero if both counters are. -/
theorem depth_eq_zero_iff (n : Nesting) : n.depth = 0 ↔ n = top := by
  obtain ⟨parens, brackets⟩ := n
  simp only [depth, top, mk.injEq]
  omega

/-- One counter for both kinds of brackets goes along with the two counters. -/
theorem depth_of_after? {n inner : Nesting} {c : Char} (h : n.after? c = some inner) :
    (if c == '(' || c == '[' then n.depth + 1
      else if c == ')' || c == ']' then n.depth - 1 else n.depth) = inner.depth := by
  by_cases hc : isBracket c = true
  · simp only [isBracket, Bool.or_eq_true, beq_iff_eq] at hc
    obtain ⟨parens, brackets⟩ := n
    rcases hc with ((rfl | rfl) | rfl) | rfl
    · obtain rfl := Option.some.inj h
      simp [depth]
      omega
    · simp only [after?, beq_iff_eq] at h
      split at h
      · exact absurd h (by simp)
      · obtain rfl := Option.some.inj h
        simp [depth]
        omega
    · obtain rfl := Option.some.inj h
      simp [depth]
      omega
    · simp only [after?, beq_iff_eq] at h
      split at h
      · exact absurd h (by simp)
      · obtain rfl := Option.some.inj h
        simp [depth]
        omega
  · rw [Bool.not_eq_true] at hc
    rw [after?_of_not_isBracket hc] at h
    obtain rfl := Option.some.inj h
    simp only [isBracket, Bool.or_eq_false_iff] at hc
    obtain ⟨⟨⟨hopen, hclose⟩, hopens⟩, hcloses⟩ := hc
    simp [hopen, hclose, hopens, hcloses]

end Nesting

/-- Looking for a character goes on from the nesting behind the first one. -/
theorem hasOutside_cons {n inner : Nesting} {d : Char} (h : n.after? d = some inner) (c : Char)
    (cs : List Char) :
    hasOutside c n.depth (d :: cs)
      = ((inner.depth == 0 && d == c) || hasOutside c inner.depth cs) := by
  rw [hasOutside, Nesting.depth_of_after? h]

/-! ## How a text is cut -/

/-- `Cut isSeparator n cs piece pieces`: read from the nesting `n`, the text `cs` consists of a
first piece and others, each behind a separator that stands outside of all brackets. -/
inductive Cut (isSeparator : Char → Bool) :
    Nesting → List Char → List Char → List (List Char) → Prop
  | last : Cut isSeparator .top [] [] []
  | separator {c : Char} {cs next : List Char} {others : List (List Char)}
      (sep : isSeparator c = true) (rest : Cut isSeparator .top cs next others) :
      Cut isSeparator .top (c :: cs) [] (next :: others)
  | inside {n inner : Nesting} {c : Char} {cs front : List Char} {others : List (List Char)}
      (uncut : (n.isTop && isSeparator c) = false) (step : n.after? c = some inner)
      (rest : Cut isSeparator inner cs front others) :
      Cut isSeparator n (c :: cs) (c :: front) others

variable {isSeparator : Char → Bool}

/-- A text has the pieces into which it is cut. -/
theorem pieces?_of_cut {n : Nesting} {cs piece : List Char} {pieces : List (List Char)}
    (h : Cut isSeparator n cs piece pieces) : pieces? isSeparator n cs = some (piece, pieces) := by
  induction h with
  | last => rfl
  | separator sep _ ih =>
    rw [pieces?, if_pos (by simp [sep, Nesting.isTop, Nesting.top]), ih]
    rfl
  | inside uncut step _ ih =>
    rw [pieces?, if_neg (by simp [uncut]), step, Option.bind_some, ih]
    rfl

/-- A text is cut into the pieces that it has. -/
theorem cut_of_pieces? {n : Nesting} {cs piece : List Char} {pieces : List (List Char)}
    (h : pieces? isSeparator n cs = some (piece, pieces)) : Cut isSeparator n cs piece pieces := by
  induction cs generalizing n piece pieces with
  | nil =>
    unfold pieces? at h
    split at h
    · rename_i htop
      obtain ⟨rfl, rfl⟩ := Prod.mk.inj (Option.some.inj h)
      obtain rfl := n.isTop_iff.mp htop
      exact .last
    · exact absurd h (by simp)
  | cons c cs ih =>
    unfold pieces? at h
    split at h
    · rename_i hcut
      obtain ⟨htop, hsep⟩ := Bool.and_eq_true_iff.mp hcut
      obtain rfl := n.isTop_iff.mp htop
      obtain ⟨⟨next, others⟩, hrest, heq⟩ := Option.map_eq_some_iff.mp h
      obtain ⟨rfl, rfl⟩ := Prod.mk.inj heq
      exact .separator hsep (ih hrest)
    · rename_i hcut
      obtain ⟨inner, hstep, hrest⟩ := Option.bind_eq_some_iff.mp h
      obtain ⟨⟨front, others⟩, hfront, heq⟩ := Option.map_eq_some_iff.mp hrest
      obtain ⟨rfl, rfl⟩ := Prod.mk.inj heq
      exact .inside (by simpa using hcut) hstep (ih hfront)

/-! ## Solid texts -/

/-- `Solid isSeparator n cs`: read from the nesting `n`, the brackets of `cs` balance, and no
separator in it stands outside of all of them. -/
def Solid (isSeparator : Char → Bool) (n : Nesting) (cs : List Char) : Prop :=
  Cut isSeparator n cs cs []

/-- The pieces of a text are solid, the first one from where the text begins. -/
theorem Cut.solid {n : Nesting} {cs piece : List Char} {pieces : List (List Char)}
    (h : Cut isSeparator n cs piece pieces) :
    Solid isSeparator n piece ∧ ∀ p ∈ pieces, Solid isSeparator .top p := by
  induction h with
  | last => exact ⟨.last, by simp⟩
  | separator sep _ ih =>
    refine ⟨.last, fun p hp => ?_⟩
    rcases List.mem_cons.mp hp with rfl | hp
    · exact ih.1
    · exact ih.2 p hp
  | inside uncut step _ ih => exact ⟨.inside uncut step ih.1, ih.2⟩

/-- Every piece of a text that begins at the top is solid. -/
theorem Cut.solid_of_mem {cs piece : List Char} {pieces : List (List Char)}
    (h : Cut isSeparator .top cs piece pieces) {p : List Char} (hp : p ∈ piece :: pieces) :
    Solid isSeparator .top p := by
  rcases List.mem_cons.mp hp with rfl | hp
  · exact h.solid.1
  · exact h.solid.2 p hp

/-- A text is as solid for fewer separators. -/
theorem Solid.mono {isOther : Char → Bool} (hother : ∀ c, isOther c = true → isSeparator c = true)
    {n : Nesting} {cs : List Char} (h : Solid isSeparator n cs) : Solid isOther n cs := by
  induction cs generalizing n with
  | nil =>
    cases h
    exact .last
  | cons c cs ih =>
    cases h with
    | inside uncut step rest =>
      refine .inside ?_ step (ih rest)
      rw [Bool.and_eq_false_iff] at uncut ⊢
      exact uncut.imp_right fun hsep => Bool.eq_false_iff.mpr fun hc =>
        Bool.eq_false_iff.mp hsep (hother c hc)

/-- A solid text in front of another one goes on with its first piece. -/
theorem Solid.cut_append {n : Nesting} {front : List Char} (h : Solid isSeparator n front)
    {cs piece : List Char} {pieces : List (List Char)}
    (hcut : Cut isSeparator .top cs piece pieces) :
    Cut isSeparator n (front ++ cs) (front ++ piece) pieces := by
  induction front generalizing n with
  | nil =>
    cases h
    exact hcut
  | cons c front ih =>
    cases h with
    | inside uncut step rest => exact .inside uncut step (ih rest)

/-- A text is cut behind a solid piece, and then cut on. -/
theorem Solid.cut_append_cons {n : Nesting} {piece : List Char} (h : Solid isSeparator n piece)
    {sep : Char} (hsep : isSeparator sep = true) {cs next : List Char} {others : List (List Char)}
    (hcut : Cut isSeparator .top cs next others) :
    Cut isSeparator n (piece ++ sep :: cs) piece (next :: others) := by
  induction piece generalizing n with
  | nil =>
    cases h
    exact .separator hsep hcut
  | cons c piece ih =>
    cases h with
    | inside uncut step rest => exact .inside uncut step (ih rest)

/-- Solid pieces with a separator between neighbours are cut where they were joined. -/
theorem cut_intercalate {sep : Char} (hsep : isSeparator sep = true) (piece : List Char)
    (pieces : List (List Char)) (h : ∀ p ∈ piece :: pieces, Solid isSeparator .top p) :
    Cut isSeparator .top (List.intercalate [sep] (piece :: pieces)) piece pieces := by
  induction pieces generalizing piece with
  | nil =>
    rw [List.intercalate_singleton]
    exact h piece List.mem_cons_self
  | cons next pieces ih =>
    rw [List.intercalate_cons_cons, List.append_assoc, List.singleton_append]
    exact (h piece List.mem_cons_self).cut_append_cons hsep
      (ih next fun p hp => h p (List.mem_cons_of_mem piece hp))

/-! ## The first and the last piece -/

/-- A text of one piece is that piece. -/
theorem Cut.eq_of_nil {n : Nesting} {cs piece : List Char} (h : Cut isSeparator n cs piece []) :
    cs = piece := by
  generalize hnone : ([] : List (List Char)) = pieces at h
  induction h with
  | last => rfl
  | separator => exact absurd hnone (by simp)
  | inside _ _ _ ih => rw [ih hnone]

/-- A text whose last piece is empty, and not the first one, ends with a separator. -/
theorem Cut.isSeparator_of_getLast? {n : Nesting} {cs piece : List Char}
    {pieces : List (List Char)} (h : Cut isSeparator n cs piece pieces)
    (hlast : pieces.getLast? = some []) : ∃ c, cs.getLast? = some c ∧ isSeparator c = true := by
  have hcons : ∀ (c d : Char) (ds : List Char), ds.getLast? = some d →
      (c :: ds).getLast? = some d := by
    intro c d ds hd
    rw [List.getLast?_cons, hd]
    rfl
  induction h with
  | last => exact absurd hlast (by simp)
  | @separator c cs next others sep rest ih =>
    cases others with
    | nil =>
      obtain rfl : next = [] := Option.some.inj hlast
      obtain rfl := rest.eq_of_nil
      exact ⟨c, rfl, sep⟩
    | cons p ps =>
      rw [List.getLast?_cons_cons] at hlast
      obtain ⟨d, hd, hsep⟩ := ih hlast
      exact ⟨d, hcons c d cs hd, hsep⟩
  | @inside n inner c cs front others uncut step rest ih =>
    obtain ⟨d, hd, hsep⟩ := ih hlast
    exact ⟨d, hcons c d cs hd, hsep⟩

/-! ## Characters of the pieces -/

/-- The characters of a text other than separators are those of its pieces. -/
theorem Cut.mem_iff {n : Nesting} {cs piece : List Char} {pieces : List (List Char)}
    (h : Cut isSeparator n cs piece pieces) {c : Char} (hc : isSeparator c = false) :
    c ∈ cs ↔ ∃ p ∈ piece :: pieces, c ∈ p := by
  induction h with
  | last => simp
  | @separator d cs next others sep rest ih =>
    have hne : c ≠ d := by
      rintro rfl
      rw [hc] at sep
      exact absurd sep (by simp)
    simp [hne, ih]
  | inside _ _ _ ih => simp [ih, or_assoc]

/-- A character other than separators stands outside of all brackets in a text if it does in one of
the pieces. -/
theorem Cut.hasOutside_eq (hplain : ∀ s, isSeparator s = true → isBracket s = false)
    {n : Nesting} {cs piece : List Char} {pieces : List (List Char)}
    (h : Cut isSeparator n cs piece pieces) {c : Char} (hc : isSeparator c = false) :
    hasOutside c n.depth cs = (hasOutside c n.depth piece || pieces.any (hasOutside c 0)) := by
  induction h with
  | last => rfl
  | @separator d cs next others sep rest ih =>
    have hstep := Nesting.after?_of_not_isBracket (hplain d sep) Nesting.top
    have hne : (d == c) = false := by
      rw [beq_eq_false_iff_ne]
      rintro rfl
      rw [hc] at sep
      exact absurd sep (by simp)
    rw [hasOutside_cons hstep, hne, Bool.and_false, Bool.false_or, ih]
    rfl
  | inside _ step _ ih => rw [hasOutside_cons step, hasOutside_cons step, ih, Bool.or_assoc]

/-! ## Tracks -/

/-- A blank does not change the nesting. -/
theorem Nesting.after?_of_isBlank {c : Char} (h : isBlank c = true) (n : Nesting) :
    n.after? c = some n :=
  n.after?_of_not_isBracket (isBracket_of_isBlank h)

/-- A solid piece of a track list does not end with a blank. -/
theorem Solid.isBlank_of_getLast? {n : Nesting} {cs : List Char} (h : Solid isBlank n cs) {c : Char}
    (hc : cs.getLast? = some c) : isBlank c = false := by
  induction cs generalizing n with
  | nil => exact absurd hc (by simp)
  | cons d cs ih =>
    cases h with
    | inside uncut step rest =>
      cases cs with
      | cons e es =>
        rw [List.getLast?_cons_cons] at hc
        exact ih rest hc
      | nil =>
        obtain rfl : d = c := Option.some.inj hc
        cases rest
        -- a blank would have left the nesting at the top, and so stood outside of all brackets
        by_contra hblank
        rw [Bool.not_eq_false] at hblank
        rw [Nesting.after?_of_isBlank hblank] at step
        obtain rfl := Option.some.inj step
        rw [hblank] at uncut
        exact absurd uncut (by decide)

/-- The pieces of a track list have no blanks at their ends. -/
theorem Solid.trim_eq {cs : List Char} (h : Solid isBlank .top cs) : trim cs = cs := by
  rw [trim_eq_self_iff]
  constructor
  · intro c hc
    cases h with
    | last => exact absurd hc (by simp)
    | inside uncut =>
      obtain rfl := Option.some.inj hc
      simpa [Nesting.isTop, Nesting.top] using uncut
  · intro c hc
    exact h.isBlank_of_getLast? hc

/-- A track or a group of line names: brackets balance, and no blank stands outside of them. -/
structure IsToken (cs : List Char) : Prop where
  nonempty : cs ≠ []
  solid : Solid isBlank .top cs

/-- The tokens of a track list are its pieces without the empty ones. -/
theorem splitTracks?_eq_some {cs : List Char} {tokens : List (List Char)}
    (h : splitTracks? cs = some tokens) :
    ∃ piece pieces, Cut isBlank .top cs piece pieces ∧
      tokens = (piece :: pieces).filter fun p => !p.isEmpty := by
  obtain ⟨⟨piece, pieces⟩, hpieces, rfl⟩ := Option.map_eq_some_iff.mp h
  have hcut : Cut isBlank .top cs piece pieces := cut_of_pieces? hpieces
  have htrim : (piece :: pieces).map trim = piece :: pieces := by
    calc (piece :: pieces).map trim
        = (piece :: pieces).map id :=
          List.map_congr_left fun p hp => (hcut.solid_of_mem hp).trim_eq
      _ = piece :: pieces := List.map_id _
  refine ⟨piece, pieces, hcut, ?_⟩
  show ((piece :: pieces).map trim).filter _ = _
  rw [htrim]

/-- What a track list is split into are tokens. -/
theorem isToken_of_splitTracks? {cs : List Char} {tokens : List (List Char)}
    (h : splitTracks? cs = some tokens) {token : List Char} (hmem : token ∈ tokens) :
    IsToken token := by
  obtain ⟨piece, pieces, hcut, rfl⟩ := splitTracks?_eq_some h
  obtain ⟨hpiece, hne⟩ := List.mem_filter.mp hmem
  exact ⟨by simpa using hne, hcut.solid_of_mem hpiece⟩

/-- Tokens joined by single blanks are split into the same tokens. -/
theorem splitTracks?_intercalate {tokens : List (List Char)} (h : ∀ t ∈ tokens, IsToken t) :
    splitTracks? (List.intercalate [' '] tokens) = some tokens := by
  cases tokens with
  | nil => rfl
  | cons token tokens =>
    have hcut : Cut isBlank .top (List.intercalate [' '] (token :: tokens)) token tokens :=
      cut_intercalate (by decide) token tokens fun t ht => (h t ht).solid
    have htrim : (token :: tokens).map trim = (token :: tokens).map id :=
      List.map_congr_left fun t ht => (h t ht).solid.trim_eq
    have hfilter : (token :: tokens).filter (fun p => !p.isEmpty) = token :: tokens :=
      List.filter_eq_self.mpr fun t ht => by simpa using (h t ht).nonempty
    unfold splitTracks? splitTop?
    rw [pieces?_of_cut hcut]
    show some (((token :: tokens).map trim).filter _) = _
    rw [htrim, List.map_id, hfilter]

/-- Tokens joined by single blanks begin with the first token and end with the last one. -/
theorem trim_intercalate {tokens : List (List Char)} (h : ∀ t ∈ tokens, IsToken t) :
    trim (List.intercalate [' '] tokens) = List.intercalate [' '] tokens := by
  rw [trim_eq_self_iff]
  induction tokens with
  | nil => simp [List.intercalate_nil]
  | cons token tokens ih =>
    have htoken : IsToken token := h token List.mem_cons_self
    obtain ⟨hhead, hlast⟩ := (trim_eq_self_iff token).mp htoken.solid.trim_eq
    obtain ⟨-, hrest⟩ := ih fun t ht => h t (List.mem_cons_of_mem token ht)
    cases tokens with
    | nil =>
      rw [List.intercalate_singleton]
      exact ⟨hhead, hlast⟩
    | cons next tokens =>
      have hne : List.intercalate [' '] (next :: tokens) ≠ [] := by
        have hnext := (h next (by simp)).nonempty
        cases tokens <;> simp [List.intercalate_singleton, List.intercalate_cons_cons, hnext]
      rw [List.intercalate_cons_cons]
      constructor
      · rw [List.append_assoc, List.head?_append_of_ne_nil _ htoken.nonempty]
        exact hhead
      · rw [List.getLast?_append_of_ne_nil _ hne]
        exact hrest

/-- The characters of a track list other than blanks are those of its tokens. -/
theorem mem_splitTracks? {cs : List Char} {tokens : List (List Char)}
    (h : splitTracks? cs = some tokens) {c : Char} (hc : isBlank c = false) :
    c ∈ cs ↔ ∃ t ∈ tokens, c ∈ t := by
  obtain ⟨piece, pieces, hcut, rfl⟩ := splitTracks?_eq_some h
  rw [hcut.mem_iff hc]
  constructor
  · rintro ⟨p, hp, hmem⟩
    exact ⟨p, List.mem_filter.mpr ⟨hp, by simpa using List.ne_nil_of_mem hmem⟩, hmem⟩
  · rintro ⟨t, ht, hmem⟩
    exact ⟨t, (List.mem_filter.mp ht).1, hmem⟩

/-- A character other than blanks stands outside of all brackets in a track list if it does in one
of the tokens. -/
theorem hasOutside_splitTracks? {cs : List Char} {tokens : List (List Char)}
    (h : splitTracks? cs = some tokens) {c : Char} (hc : isBlank c = false) :
    hasOutside c 0 cs = tokens.any (hasOutside c 0) := by
  obtain ⟨piece, pieces, hcut, rfl⟩ := splitTracks?_eq_some h
  have hall : hasOutside c 0 cs = (piece :: pieces).any (hasOutside c 0) :=
    hcut.hasOutside_eq (fun _ => isBracket_of_isBlank) hc
  rw [hall, List.any_filter]
  -- nothing stands outside of brackets in an empty piece
  congr 1
  funext p
  cases p <;> simp [hasOutside]

/-- A trimmed track list of one token is that token. -/
theorem eq_of_splitTracks?_singleton {cs token : List Char} (htrim : trim cs = cs)
    (h : splitTracks? cs = some [token]) : cs = token := by
  obtain ⟨hhead, hlast⟩ := (trim_eq_self_iff cs).mp htrim
  obtain ⟨piece, pieces, hcut, htokens⟩ := splitTracks?_eq_some h
  cases hend : pieces.getLast? with
  | none =>
    obtain rfl := List.getLast?_eq_none_iff.mp hend
    obtain rfl := hcut.eq_of_nil
    cases cs with
    | nil => exact absurd htokens (by simp)
    | cons c cs => exact (List.singleton_inj.mp htokens).symm
  | some last =>
    -- neither the first piece nor the last one is empty, so there are two tokens at least
    have hfirst : piece ≠ [] := by
      rintro rfl
      cases hcut with
      | last => exact absurd hend (by simp)
      | separator sep =>
        rw [hhead _ rfl] at sep
        exact absurd sep (by simp)
    have hlater : last ≠ [] := by
      rintro rfl
      obtain ⟨c, hc, hblank⟩ := hcut.isSeparator_of_getLast? hend
      rw [hlast c hc] at hblank
      exact absurd hblank (by simp)
    obtain ⟨front, rfl⟩ := List.getLast?_eq_some_iff.mp hend
    have hlength := congrArg List.length htokens
    simp [hfirst, hlater] at hlength

end ResponsiveStyle.Grid

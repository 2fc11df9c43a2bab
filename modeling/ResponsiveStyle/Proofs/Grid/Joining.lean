/-
# Texts put together and split again

What a text is split into does not depend on the blanks around it (`splitTop?_trim`). Two texts with
a separator between them are split into the pieces of both (`splitTop?_append_cons`), so the tokens
of two track lists with blanks between them are the tokens of both (`splitTracks?_append`). A text
is a single argument if its brackets balance and no comma stands outside of them
(`splitArguments?_eq_singleton_iff`).
-/
import ResponsiveStyle.Proofs.Grid.Balance

namespace ResponsiveStyle.Grid

open Text (trim isBlank trim_isBlank_append trim_append_of_isBlank)

variable {isSeparator : Char → Bool}

/-! ## Pieces that are kept -/

/-- The pieces of a text that are kept: trimmed, and without the empty ones. -/
def kept (pieces : List (List Char)) : List (List Char) :=
  (pieces.map trim).filter fun p => !p.isEmpty

theorem kept_append (ps qs : List (List Char)) : kept (ps ++ qs) = kept ps ++ kept qs := by
  unfold kept
  rw [List.map_append, List.filter_append]

/-- Only the trimmed piece matters. -/
theorem kept_cons_congr {p q : List Char} (h : trim p = trim q) (ps : List (List Char)) :
    kept (p :: ps) = kept (q :: ps) := by
  unfold kept
  rw [List.map_cons, List.map_cons, h]

/-- A text of one piece that is trimmed and not empty keeps it. -/
theorem kept_singleton {p : List Char} (h : trim p ≠ []) : kept [p] = [trim p] := by
  unfold kept
  simp [h]

/-- A text is split into the pieces of a cut that are kept. -/
theorem splitTop?_of_cut {cs piece : List Char} {pieces : List (List Char)}
    (h : Cut isSeparator .top cs piece pieces) :
    splitTop? isSeparator cs = some (kept (piece :: pieces)) := by
  unfold splitTop?
  rw [pieces?_of_cut h]
  rfl

/-- The pieces of a text that is split come from a cut. -/
theorem exists_cut_of_splitTop? {cs : List Char} {ps : List (List Char)}
    (h : splitTop? isSeparator cs = some ps) :
    ∃ piece pieces, Cut isSeparator .top cs piece pieces ∧ ps = kept (piece :: pieces) := by
  obtain ⟨⟨piece, pieces⟩, hpieces, rfl⟩ := Option.map_eq_some_iff.mp h
  exact ⟨piece, pieces, cut_of_pieces? hpieces, rfl⟩

/-! ## Blanks around a text -/

/-- A blank in front of a text makes no difference to what it is split into. -/
theorem splitTop?_cons_of_isBlank {b : Char} (hb : isBlank b = true) (cs : List Char) :
    splitTop? isSeparator (b :: cs) = splitTop? isSeparator cs := by
  unfold splitTop?
  rw [pieces?]
  split
  · rw [Option.map_map]
    rfl
  · rw [Nesting.after?_of_isBlank hb, Option.bind_some, Option.map_map]
    congr 1
    funext r
    have hblank : ∀ c ∈ [b], isBlank c = true := by
      intro c hc
      rwa [List.mem_singleton.mp hc]
    exact kept_cons_congr (trim_isBlank_append hblank r.1) r.2

/-- A blank behind a text comes behind its last piece, or makes an empty piece more. -/
theorem Cut.concat_of_isBlank {b : Char} (hb : isBlank b = true) {n : Nesting}
    {cs piece : List Char} {pieces : List (List Char)} (h : Cut isSeparator n cs piece pieces) :
    ∃ piece' pieces', Cut isSeparator n (cs ++ [b]) piece' pieces' ∧
      (piece' = piece ∨ piece' = piece ++ [b]) ∧ kept pieces' = kept pieces := by
  induction h with
  | last =>
    cases hsep : isSeparator b with
    | true => exact ⟨[], [[]], .separator hsep .last, .inl rfl, rfl⟩
    | false =>
      have hstep := Nesting.after?_of_isBlank hb .top
      exact ⟨[b], [], .inside (by rw [hsep, Bool.and_false]) hstep .last, .inr rfl, rfl⟩
  | @separator c cs next others sep rest ih =>
    obtain ⟨next', others', hcut, hnext, hothers⟩ := ih
    refine ⟨[], next' :: others', .separator sep hcut, .inl rfl, ?_⟩
    have htrim : trim next' = trim next := by
      rcases hnext with rfl | rfl
      · rfl
      · refine trim_append_of_isBlank ?_
        intro d hd
        rwa [List.mem_singleton.mp hd]
    calc kept (next' :: others')
        = kept (next :: others') := kept_cons_congr htrim others'
      _ = kept [next] ++ kept others' := kept_append [next] others'
      _ = kept [next] ++ kept others := by rw [hothers]
      _ = kept (next :: others) := (kept_append [next] others).symm
  | @inside n inner c cs front others uncut step rest ih =>
    obtain ⟨front', others', hcut, hfront, hothers⟩ := ih
    refine ⟨c :: front', others', .inside uncut step hcut, ?_, hothers⟩
    rcases hfront with rfl | rfl
    · exact .inl rfl
    · exact .inr rfl

/-- A blank behind a text makes no difference to what it is split into. -/
theorem splitTop?_concat_of_isBlank (hplain : ∀ s, isSeparator s = true → isBracket s = false)
    {b : Char} (hb : isBlank b = true) (cs : List Char) :
    splitTop? isSeparator (cs ++ [b]) = splitTop? isSeparator cs := by
  have hblank : ∀ c ∈ [b], isBlank c = true := by
    intro c hc
    rwa [List.mem_singleton.mp hc]
  cases h : splitTop? isSeparator cs with
  | none =>
    rw [← Option.not_isSome_iff_eq_none, isSome_splitTop?_iff hplain] at h ⊢
    rwa [append_balanced_iff fun c hc => isBracket_of_isBlank (hblank c hc)]
  | some ps =>
    obtain ⟨piece, pieces, hcut, rfl⟩ := exists_cut_of_splitTop? h
    obtain ⟨piece', pieces', hcut', hpiece, hpieces⟩ := hcut.concat_of_isBlank hb
    have htrim : trim piece' = trim piece := by
      rcases hpiece with rfl | rfl
      · rfl
      · exact trim_append_of_isBlank hblank
    rw [splitTop?_of_cut hcut', kept_cons_congr htrim]
    exact congrArg some (by rw [← List.singleton_append, kept_append, hpieces, ← kept_append]; rfl)

/-- Blanks in front of a text make no difference to what it is split into. -/
theorem splitTop?_isBlank_append {front : List Char} (h : ∀ c ∈ front, isBlank c = true)
    (cs : List Char) : splitTop? isSeparator (front ++ cs) = splitTop? isSeparator cs := by
  induction front with
  | nil => rfl
  | cons b front ih =>
    rw [List.cons_append, splitTop?_cons_of_isBlank (h b List.mem_cons_self)]
    exact ih fun c hc => h c (List.mem_cons_of_mem b hc)

/-- Blanks behind a text make no difference to what it is split into. -/
theorem splitTop?_append_of_isBlank (hplain : ∀ s, isSeparator s = true → isBracket s = false)
    {back : List Char} (h : ∀ c ∈ back, isBlank c = true) (cs : List Char) :
    splitTop? isSeparator (cs ++ back) = splitTop? isSeparator cs := by
  induction back generalizing cs with
  | nil => rw [List.append_nil]
  | cons b back ih =>
    calc splitTop? isSeparator (cs ++ b :: back)
        = splitTop? isSeparator ((cs ++ [b]) ++ back) := by rw [List.append_assoc]; rfl
      _ = splitTop? isSeparator (cs ++ [b]) :=
          ih (fun c hc => h c (List.mem_cons_of_mem b hc)) (cs ++ [b])
      _ = splitTop? isSeparator cs :=
          splitTop?_concat_of_isBlank hplain (h b List.mem_cons_self) cs

/-- A trimmed text is split as the text is. -/
theorem splitTop?_trim (hplain : ∀ s, isSeparator s = true → isBracket s = false)
    (cs : List Char) : splitTop? isSeparator (trim cs) = splitTop? isSeparator cs := by
  obtain ⟨front, back, hfront, hback, hcs⟩ := Text.exists_append_trim_append cs
  conv_rhs => rw [hcs]
  rw [splitTop?_isBlank_append hfront, splitTop?_append_of_isBlank hplain hback]

/-- A trimmed track list has the tokens of the track list. -/
theorem splitTracks?_trim (cs : List Char) : splitTracks? (trim cs) = splitTracks? cs :=
  splitTop?_trim (fun _ => isBracket_of_isBlank) cs

/-- Trimmed arguments are split as the arguments are. -/
theorem splitArguments?_trim (cs : List Char) : splitArguments? (trim cs) = splitArguments? cs :=
  splitTop?_trim isBracket_of_eq_comma cs

/-! ## Two texts -/

/-- Two texts with a separator between them are cut into the pieces of both. -/
theorem Cut.append_cons {n : Nesting} {cs piece : List Char} {pieces : List (List Char)}
    (h : Cut isSeparator n cs piece pieces) {sep : Char} (hsep : isSeparator sep = true)
    {ds next : List Char} {others : List (List Char)} (hds : Cut isSeparator .top ds next others) :
    Cut isSeparator n (cs ++ sep :: ds) piece (pieces ++ next :: others) := by
  induction h with
  | last => exact .separator hsep hds
  | separator hc _ ih => exact .separator hc ih
  | inside uncut step _ ih => exact .inside uncut step ih

/-- Two texts with a separator between them are split into the pieces of both. -/
theorem splitTop?_append_cons {cs ds : List Char} {ps qs : List (List Char)}
    (hcs : splitTop? isSeparator cs = some ps) (hds : splitTop? isSeparator ds = some qs)
    {sep : Char} (hsep : isSeparator sep = true) :
    splitTop? isSeparator (cs ++ sep :: ds) = some (ps ++ qs) := by
  obtain ⟨piece, pieces, hcut, rfl⟩ := exists_cut_of_splitTop? hcs
  obtain ⟨next, others, hnext, rfl⟩ := exists_cut_of_splitTop? hds
  rw [splitTop?_of_cut (hcut.append_cons hsep hnext), ← List.cons_append, kept_append]

/-- Two track lists with blanks between them have the tokens of both. -/
theorem splitTracks?_append {cs ds : List Char} {ps qs : List (List Char)}
    (hcs : splitTracks? cs = some ps) (hds : splitTracks? ds = some qs) {gap : List Char}
    (hne : gap ≠ []) (hgap : ∀ c ∈ gap, isBlank c = true) :
    splitTracks? (cs ++ (gap ++ ds)) = some (ps ++ qs) := by
  obtain ⟨sep, blanks, rfl⟩ := List.exists_cons_of_ne_nil hne
  have hrest : splitTracks? (blanks ++ ds) = some qs := by
    rw [← hds]
    exact splitTop?_isBlank_append (fun c hc => hgap c (List.mem_cons_of_mem sep hc)) ds
  exact splitTop?_append_cons hcs hrest (hgap sep List.mem_cons_self)

/-! ## Single pieces -/

/-- A text without separators and brackets is its only piece. -/
theorem splitTop?_of_plain {cs : List Char}
    (h : ∀ c ∈ cs, isSeparator c = false ∧ isBracket c = false) (hne : trim cs ≠ []) :
    splitTop? isSeparator cs = some [trim cs] := by
  rw [splitTop?_of_cut (solid_of_plain h), kept_singleton hne]

/-- A token is the only token of itself. -/
theorem IsToken.splitTracks?_eq {cs : List Char} (h : IsToken cs) :
    splitTracks? cs = some [cs] := by
  have hne : trim cs ≠ [] := by
    rw [h.solid.trim_eq]
    exact h.nonempty
  unfold splitTracks?
  rw [splitTop?_of_cut h.solid, kept_singleton hne, h.solid.trim_eq]

/-- A token that touches a track list is one with its first token. -/
theorem IsToken.splitTracks?_append {token cs t : List Char} {ts : List (List Char)}
    (h : IsToken token) (hcs : splitTracks? cs = some (t :: ts))
    (hhead : ∀ c ∈ cs.head?, isBlank c = false) :
    splitTracks? (token ++ cs) = some ((token ++ t) :: ts) := by
  obtain ⟨piece, pieces, hcut, hkept⟩ := exists_cut_of_splitTop? hcs
  have hne : piece ≠ [] := by
    rintro rfl
    cases hcut with
    | last => exact absurd hkept (List.cons_ne_nil t ts)
    | separator sep =>
      rw [hhead _ rfl] at sep
      exact absurd sep (by simp)
  have hsolid : Solid isBlank .top piece := hcut.solid.1
  have hboth : Solid isBlank .top (token ++ piece) := h.solid.cut_append hsolid
  have hfirst : kept [piece] = [piece] := by
    rw [kept_singleton (by rwa [hsolid.trim_eq]), hsolid.trim_eq]
  have hjoined : kept [token ++ piece] = [token ++ piece] := by
    rw [kept_singleton (by rw [hboth.trim_eq]; simp [hne]), hboth.trim_eq]
  have hpieces : kept (piece :: pieces) = piece :: kept pieces := by
    rw [← List.singleton_append, kept_append, hfirst, List.singleton_append]
  obtain ⟨rfl, rfl⟩ := List.cons.inj (hkept.trans hpieces)
  unfold splitTracks?
  rw [splitTop?_of_cut (h.solid.cut_append hcut), ← List.singleton_append, kept_append, hjoined,
    List.singleton_append]

/-- A trimmed text is its only argument if its brackets balance and no comma stands outside of
them. -/
theorem splitArguments?_eq_singleton_iff {cs : List Char} (htrim : trim cs = cs) (hne : cs ≠ []) :
    splitArguments? cs = some [cs] ↔
      (splitTracks? cs).isSome = true ∧ hasOutside ',' 0 cs = false := by
  rw [isSome_splitTracks?_iff, ← isSome_splitArguments?_iff]
  constructor
  · intro h
    refine ⟨by rw [h]; rfl, ?_⟩
    obtain ⟨piece, pieces, hcut, hkept⟩ := exists_cut_of_splitTop? h
    have houtside : hasOutside ',' 0 cs = !pieces.isEmpty := hcut.hasOutside_separator (by decide)
    rw [houtside, Bool.not_eq_false', List.isEmpty_iff]
    -- with a separator in the text, every piece is shorter than the text
    by_contra hpieces
    have hmem : cs ∈ kept (piece :: pieces) := hkept ▸ List.mem_singleton_self cs
    obtain ⟨p, hp, hpcs⟩ := List.mem_map.mp (List.mem_filter.mp hmem).1
    have hlength := hcut.length_add_length_le p hp
    have hshort : cs.length ≤ p.length := by
      rw [← hpcs]
      exact Text.length_trim_le p
    have hpos : 0 < pieces.length := List.length_pos_of_ne_nil hpieces
    omega
  · rintro ⟨hsome, houtside⟩
    obtain ⟨arguments, harguments⟩ := Option.isSome_iff_exists.mp hsome
    obtain ⟨piece, pieces, hcut, -⟩ := exists_cut_of_splitTop? harguments
    have hnone : hasOutside ',' 0 cs = !pieces.isEmpty := hcut.hasOutside_separator (by decide)
    rw [houtside, eq_comm, Bool.not_eq_false', List.isEmpty_iff] at hnone
    subst hnone
    obtain rfl := hcut.eq_of_nil
    have hkept : kept [cs] = [cs] := by rw [kept_singleton (by rwa [htrim]), htrim]
    rw [← hkept]
    exact splitTop?_of_cut hcut

/-- A track list has one token more than characters at most. -/
theorem length_splitTracks?_le {cs : List Char} {tokens : List (List Char)}
    (h : splitTracks? cs = some tokens) : tokens.length ≤ cs.length + 1 := by
  obtain ⟨piece, pieces, hcut, rfl⟩ := exists_cut_of_splitTop? h
  have hpiece := hcut.length_add_length_le piece List.mem_cons_self
  have hkept : (kept (piece :: pieces)).length ≤ (piece :: pieces).length := by
    unfold kept
    calc (((piece :: pieces).map trim).filter _).length
        ≤ ((piece :: pieces).map trim).length := List.length_filter_le _ _
      _ = (piece :: pieces).length := List.length_map _
  rw [List.length_cons] at hkept
  omega

end ResponsiveStyle.Grid

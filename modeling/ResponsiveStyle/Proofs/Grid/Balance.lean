/-
# Balanced brackets

The brackets of a text balance if, read from the top, nothing is closed that is not open and nothing
stays open (`Balanced`). A text can be split exactly if its brackets balance, whatever it is split
at (`isSome_splitTop?_iff`). Around a text whose brackets balance, parentheses make one piece of it
(`solid_call`); around a text that closes no parenthesis they make no difference to the balance
(`balanced_call_iff`).
-/
import ResponsiveStyle.Proofs.Grid.Split

namespace ResponsiveStyle.Grid

open Text (isBlank)

/-! ## The nesting behind a text -/

namespace Nesting

/-- The nesting behind a text, unless it closes what is not open. -/
def behind? (n : Nesting) (cs : List Char) : Option Nesting := cs.foldlM after? n

theorem behind?_nil (n : Nesting) : n.behind? [] = some n := rfl

theorem behind?_cons (n : Nesting) (c : Char) (cs : List Char) :
    n.behind? (c :: cs) = (n.after? c).bind fun inner => inner.behind? cs := rfl

/-- The nesting behind two texts is the one behind the second, read from the one behind the
first. -/
theorem behind?_append (n : Nesting) (cs ds : List Char) :
    n.behind? (cs ++ ds) = (n.behind? cs).bind fun inner => inner.behind? ds :=
  List.foldlM_append

/-- Characters that are no brackets leave the nesting as it is. -/
theorem behind?_of_not_isBracket {cs : List Char} (h : ∀ c ∈ cs, isBracket c = false)
    (n : Nesting) : n.behind? cs = some n := by
  induction cs with
  | nil => rfl
  | cons c cs ih =>
    rw [behind?_cons, n.after?_of_not_isBracket (h c List.mem_cons_self), Option.bind_some]
    exact ih fun d hd => h d (List.mem_cons_of_mem c hd)

/-! ## Inside of more brackets -/

/-- The nesting with the brackets of another one open around it. -/
def within (n outer : Nesting) : Nesting :=
  ⟨n.parens + outer.parens, n.brackets + outer.brackets⟩

/-- Inside of brackets something is open. -/
theorem isTop_within {outer : Nesting} (h : outer.isTop = false) (n : Nesting) :
    (n.within outer).isTop = false := by
  unfold isTop at h ⊢
  unfold within
  simp only [Bool.and_eq_false_iff, beq_eq_false_iff_ne] at h ⊢
  omega

/-- A character that can be read can be read inside of more brackets. -/
theorem after?_within {n inner : Nesting} {c : Char} (h : n.after? c = some inner)
    (outer : Nesting) : (n.within outer).after? c = some (inner.within outer) := by
  obtain ⟨parens, brackets⟩ := n
  by_cases hc : isBracket c = true
  · simp only [isBracket, Bool.or_eq_true, beq_iff_eq] at hc
    rcases hc with ((rfl | rfl) | rfl) | rfl
    · obtain rfl := Option.some.inj h
      simp only [after?, within, Option.some_inj, mk.injEq, and_true]
      omega
    · simp only [after?, beq_iff_eq] at h
      split at h
      · exact absurd h (by simp)
      · rename_i hopen
        obtain rfl := Option.some.inj h
        simp only [after?, within, beq_iff_eq]
        rw [if_neg (by omega)]
        simp only [Option.some_inj, mk.injEq, and_true]
        omega
    · obtain rfl := Option.some.inj h
      simp only [after?, within, Option.some_inj, mk.injEq, true_and]
      omega
    · simp only [after?, beq_iff_eq] at h
      split at h
      · exact absurd h (by simp)
      · rename_i hopen
        obtain rfl := Option.some.inj h
        simp only [after?, within, beq_iff_eq]
        rw [if_neg (by omega)]
        simp only [Option.some_inj, mk.injEq, true_and]
        omega
  · rw [Bool.not_eq_true] at hc
    rw [after?_of_not_isBracket hc] at h ⊢
    obtain rfl := Option.some.inj h
    rfl

/-- A text that can be read can be read inside of more brackets. -/
theorem behind?_within {n inner : Nesting} {cs : List Char} (h : n.behind? cs = some inner)
    (outer : Nesting) : (n.within outer).behind? cs = some (inner.within outer) := by
  induction cs generalizing n with
  | nil =>
    obtain rfl := Option.some.inj h
    rfl
  | cons c cs ih =>
    obtain ⟨next, hstep, hnext⟩ := Option.bind_eq_some_iff.mp h
    rw [behind?_cons, after?_within hstep, Option.bind_some]
    exact ih hnext

/-- The nesting inside of one parenthesis more. -/
def opened (n : Nesting) : Nesting := { n with parens := n.parens + 1 }

/-- A parenthesis is closed again. -/
theorem after?_opened_close (n : Nesting) : n.opened.after? ')' = some n := rfl

/-- A character that can be read can be read inside of one parenthesis more. -/
theorem after?_opened {n inner : Nesting} {c : Char} (h : n.after? c = some inner) :
    n.opened.after? c = some inner.opened := after?_within h ⟨1, 0⟩

/-- Only a closing parenthesis tells the inside of one parenthesis more from the outside. -/
theorem after?_opened_of_ne {c : Char} (hc : c ≠ ')') (n : Nesting) :
    n.opened.after? c = (n.after? c).map opened := by
  cases h : n.after? c with
  | some inner => exact after?_opened h
  | none =>
    -- what cannot be read is a bracket that closes nothing, here a square one
    unfold after? at h
    split at h
    · exact absurd h (by simp)
    · exact absurd rfl hc
    · exact absurd h (by simp)
    · split at h
      · rename_i hnone
        unfold after? opened
        simp [hnone]
      · exact absurd h (by simp)
    · exact absurd h (by simp)

/-- A text that closes no parenthesis is read inside of one parenthesis more as it is outside. -/
theorem behind?_opened_of_not_mem {cs : List Char} (h : ')' ∉ cs) (n : Nesting) :
    n.opened.behind? cs = (n.behind? cs).map opened := by
  induction cs generalizing n with
  | nil => rfl
  | cons c cs ih =>
    have hc : c ≠ ')' := fun hc => h (hc ▸ List.mem_cons_self)
    rw [behind?_cons, behind?_cons, after?_opened_of_ne hc]
    cases n.after? c with
    | none => rfl
    | some inner => exact ih (fun hmem => h (List.mem_cons_of_mem c hmem)) inner

end Nesting

/-! ## Balanced texts -/

/-- The brackets of a text balance: nothing is closed that is not open, and nothing stays open. -/
def Balanced (cs : List Char) : Prop := Nesting.top.behind? cs = some .top

/-- Characters in front of a text that are no brackets make no difference to its balance. -/
theorem balanced_append_iff {front : List Char} (h : ∀ c ∈ front, isBracket c = false)
    (cs : List Char) : Balanced (front ++ cs) ↔ Balanced cs := by
  unfold Balanced
  rw [Nesting.behind?_append, Nesting.behind?_of_not_isBracket h, Option.bind_some]

/-- Characters behind a text that are no brackets make no difference to its balance. -/
theorem append_balanced_iff {back : List Char} (h : ∀ c ∈ back, isBracket c = false)
    (cs : List Char) : Balanced (cs ++ back) ↔ Balanced cs := by
  unfold Balanced
  rw [Nesting.behind?_append]
  cases Nesting.top.behind? cs with
  | none => rfl
  | some inner => rw [Option.bind_some, inner.behind?_of_not_isBracket h]

/-- A call whose arguments close no parenthesis balances if its arguments do. -/
theorem balanced_call_iff {name inside : List Char} (hname : ∀ c ∈ name, isBracket c = false)
    (hclose : ')' ∉ inside) :
    Balanced (name ++ '(' :: (inside ++ [')'])) ↔ Balanced inside := by
  have hopen : Nesting.top.after? '(' = some Nesting.top.opened := rfl
  rw [balanced_append_iff hname]
  unfold Balanced
  rw [Nesting.behind?_cons, hopen, Option.bind_some, Nesting.behind?_append,
    Nesting.behind?_opened_of_not_mem hclose]
  cases Nesting.top.behind? inside with
  | none => simp
  | some inner =>
    rw [Option.map_some, Option.bind_some, Nesting.behind?_cons, inner.after?_opened_close,
      Option.bind_some, Nesting.behind?_nil]

/-- A text that closes a parenthesis which is open around it does not balance by itself, however it
goes on. -/
theorem not_balanced_append {cs : List Char}
    (h : Nesting.top.opened.behind? cs = some .top) (more : List Char) :
    ¬ Balanced (cs ++ more) := by
  intro hbalanced
  unfold Balanced at hbalanced
  rw [Nesting.behind?_append] at hbalanced
  obtain ⟨inner, hinner, -⟩ := Option.bind_eq_some_iff.mp hbalanced
  have hopened := (Nesting.behind?_within hinner ⟨1, 0⟩).symm.trans h
  exact absurd (congrArg Nesting.parens (Option.some.inj hopened)) (Nat.succ_ne_zero _)

variable {isSeparator : Char → Bool}

/-- A text can be cut if nothing is closed that is not open, and nothing stays open. -/
theorem isSome_pieces?_iff (hplain : ∀ s, isSeparator s = true → isBracket s = false)
    (n : Nesting) (cs : List Char) :
    (pieces? isSeparator n cs).isSome = true ↔ n.behind? cs = some .top := by
  induction cs generalizing n with
  | nil =>
    rw [Nesting.behind?_nil, Option.some_inj, ← n.isTop_iff]
    unfold pieces?
    split
    · rename_i htop
      simp [htop]
    · rename_i htop
      simp [htop]
  | cons c cs ih =>
    rw [Nesting.behind?_cons]
    unfold pieces?
    split
    · rename_i hcut
      obtain ⟨htop, hsep⟩ := Bool.and_eq_true_iff.mp hcut
      obtain rfl := n.isTop_iff.mp htop
      rw [Option.isSome_map, Nesting.after?_of_not_isBracket (hplain c hsep), Option.bind_some]
      exact ih .top
    · cases n.after? c with
      | none => simp
      | some inner =>
        rw [Option.bind_some, Option.bind_some, Option.isSome_map]
        exact ih inner

/-- A text can be split if its brackets balance. -/
theorem isSome_splitTop?_iff (hplain : ∀ s, isSeparator s = true → isBracket s = false)
    (cs : List Char) : (splitTop? isSeparator cs).isSome = true ↔ Balanced cs := by
  unfold splitTop?
  rw [Option.isSome_map]
  exact isSome_pieces?_iff hplain .top cs

/-- A track list can be split if its brackets balance. -/
theorem isSome_splitTracks?_iff (cs : List Char) :
    (splitTracks? cs).isSome = true ↔ Balanced cs :=
  isSome_splitTop?_iff (fun _ => isBracket_of_isBlank) cs

/-- A comma is no bracket. -/
theorem isBracket_of_eq_comma (s : Char) (h : (s == ',') = true) : isBracket s = false := by
  obtain rfl := eq_of_beq h
  rfl

/-- The brackets of a solid piece of a track list balance. -/
theorem Solid.balanced {cs : List Char} (h : Solid isBlank .top cs) : Balanced cs := by
  rw [← isSome_splitTracks?_iff]
  unfold splitTracks? splitTop?
  rw [pieces?_of_cut h]
  rfl

/-- Arguments can be split if their brackets balance. -/
theorem isSome_splitArguments?_iff (cs : List Char) :
    (splitArguments? cs).isSome = true ↔ Balanced cs :=
  isSome_splitTop?_iff isBracket_of_eq_comma cs

/-! ## Calls -/

/-- Inside of brackets nothing is cut. -/
theorem Cut.within_append {outer : Nesting} (houter : outer.isTop = false) {n inner : Nesting}
    {cs : List Char} (h : n.behind? cs = some inner) {rest piece : List Char}
    {pieces : List (List Char)}
    (hrest : Cut isSeparator (inner.within outer) rest piece pieces) :
    Cut isSeparator (n.within outer) (cs ++ rest) (cs ++ piece) pieces := by
  induction cs generalizing n with
  | nil =>
    obtain rfl := Option.some.inj h
    exact hrest
  | cons c cs ih =>
    obtain ⟨next, hstep, hnext⟩ := Option.bind_eq_some_iff.mp h
    exact .inside (by rw [Nesting.isTop_within houter, Bool.false_and])
      (Nesting.after?_within hstep outer) (ih hnext)

/-- A text in brackets is solid if its brackets balance. -/
theorem solid_enclosed {opening closing : Char} {outer : Nesting} (houter : outer.isTop = false)
    (hsep : isSeparator opening = false) (hopen : Nesting.top.after? opening = some outer)
    (hclose : outer.after? closing = some .top) {inside : List Char} (h : Balanced inside) :
    Solid isSeparator .top (opening :: (inside ++ [closing])) := by
  have htop : Nesting.top.within outer = outer := by
    unfold Nesting.within Nesting.top
    simp only [Nat.zero_add]
  have hclosed : Cut isSeparator (Nesting.top.within outer) [closing] [closing] [] := by
    rw [htop]
    exact .inside (by rw [houter, Bool.false_and]) hclose .last
  have hinside := Cut.within_append houter h hclosed
  rw [htop] at hinside
  exact .inside (by rw [hsep, Bool.and_false]) hopen hinside

/-- Characters that are neither separators nor brackets are put in front of the first piece. -/
theorem Cut.plain_append {n : Nesting} {front cs piece : List Char} {pieces : List (List Char)}
    (hfront : ∀ c ∈ front, isSeparator c = false ∧ isBracket c = false)
    (h : Cut isSeparator n cs piece pieces) :
    Cut isSeparator n (front ++ cs) (front ++ piece) pieces := by
  induction front with
  | nil => exact h
  | cons c front ih =>
    obtain ⟨hsep, hbracket⟩ := hfront c List.mem_cons_self
    exact .inside (by rw [hsep, Bool.and_false]) (n.after?_of_not_isBracket hbracket)
      (ih fun d hd => hfront d (List.mem_cons_of_mem c hd))

/-- A text without separators and brackets is solid. -/
theorem solid_of_plain {cs : List Char}
    (h : ∀ c ∈ cs, isSeparator c = false ∧ isBracket c = false) : Solid isSeparator .top cs := by
  have hnil : Cut isSeparator .top [] [] [] := .last
  have hcut := hnil.plain_append h
  rwa [List.append_nil] at hcut

/-- A call is solid if its arguments balance. -/
theorem solid_call (hplain : ∀ s, isSeparator s = true → isBracket s = false)
    {name inside : List Char} (hname : ∀ c ∈ name, isSeparator c = false ∧ isBracket c = false)
    (hinside : Balanced inside) : Solid isSeparator .top (name ++ '(' :: (inside ++ [')'])) := by
  have hopen : isSeparator '(' = false := by
    by_contra hsep
    exact absurd (hplain '(' (by simpa using hsep)) (by decide)
  exact Cut.plain_append hname (solid_enclosed rfl hopen rfl rfl hinside)

/-! ## Separators and the length of pieces -/

/-- A separator stands outside of all brackets if a text is cut into more than one piece. -/
theorem Cut.hasOutside_separator {sep : Char} (hsep : isBracket sep = false) {n : Nesting}
    {cs piece : List Char} {pieces : List (List Char)} (h : Cut (· == sep) n cs piece pieces) :
    hasOutside sep n.depth cs = !pieces.isEmpty := by
  induction h with
  | last => rfl
  | @separator c cs next others hc rest ih =>
    obtain rfl := eq_of_beq hc
    rw [hasOutside_cons (Nesting.after?_of_not_isBracket hsep .top)]
    simp [Nesting.depth, Nesting.top]
  | @inside n inner c cs front others uncut step rest ih =>
    rw [hasOutside_cons step, ih]
    have hhere : (inner.depth == 0 && c == sep) = false := by
      by_contra hboth
      rw [Bool.not_eq_false] at hboth
      obtain ⟨hdepth, hc⟩ := Bool.and_eq_true_iff.mp hboth
      -- a separator leaves the nesting as it is, so it stands at the top and would be cut at
      obtain rfl := eq_of_beq hc
      rw [n.after?_of_not_isBracket hsep] at step
      obtain rfl := Option.some.inj step
      obtain rfl := n.depth_eq_zero_iff.mp (eq_of_beq hdepth)
      exact absurd uncut (by simp [Nesting.isTop, Nesting.top])
    rw [hhere, Bool.false_or]

/-- A piece and the separators of a text are no longer than the text. -/
theorem Cut.length_add_length_le {n : Nesting} {cs piece : List Char} {pieces : List (List Char)}
    (h : Cut isSeparator n cs piece pieces) :
    ∀ p ∈ piece :: pieces, p.length + pieces.length ≤ cs.length := by
  induction h with
  | last => simp
  | @separator c cs next others sep rest ih =>
    have hnext := ih next List.mem_cons_self
    intro p hp
    simp only [List.length_cons]
    rcases List.mem_cons.mp hp with rfl | hp
    · simp only [List.length_nil]
      omega
    · have hle := ih p hp
      omega
  | @inside n inner c cs front others uncut step rest ih =>
    intro p hp
    simp only [List.length_cons]
    rcases List.mem_cons.mp hp with rfl | hp
    · have hle := ih front List.mem_cons_self
      simp only [List.length_cons]
      omega
    · have hle := ih p (List.mem_cons_of_mem front hp)
      omega

end ResponsiveStyle.Grid

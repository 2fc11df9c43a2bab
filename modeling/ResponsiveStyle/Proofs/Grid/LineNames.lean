/-
# Line names beside tracks

A track list is a sequence of sizes and of groups of line names. Blanks stand between neighbouring
sizes, but a group may touch what is next to it. Items that touch make a run, and the runs are the
tokens of the track list (`splitTracks?_partsText`). A run that begins with a group and ends with a
closing square bracket is taken for one group as a whole (`enclosed`); any other one counts as one
track, if at all. So the sizes of a track list are counted as they are exactly if a run with a size
has no second one and is not taken for a group (`TrackList.countTracks_text_iff`).
-/
import Mathlib.Algebra.Order.BigOperators.Group.List
import Mathlib.Algebra.Order.Ring.Nat
import ResponsiveStyle.Proofs.Grid.Summary

namespace ResponsiveStyle.Grid

open Text (isBlank maxSize sameIgnoringCase saturatingAdd)

/-! ## Sizes and groups of line names -/

/-- The size of a track: its brackets balance, neither a blank nor a square bracket stands outside
of them, it is no word that stands for no track, no subgrid, and no repetition. -/
structure IsSize (cs : List Char) : Prop where
  nonempty : cs ≠ []
  solid : Solid (fun c => isBlank c || c == '[') .top cs
  track : Summary.isNoTrack cs = false
  subgrid : sameIgnoringCase "subgrid".toList cs = false
  single : arguments? "repeat".toList cs = none

/-- Whether a text is a size can be computed. -/
instance (cs : List Char) : Decidable (IsSize cs) :=
  decidable_of_iff (cs ≠ [] ∧ pieces? (fun c => isBlank c || c == '[') .top cs = some (cs, []) ∧
      Summary.isNoTrack cs = false ∧ sameIgnoringCase "subgrid".toList cs = false ∧
      arguments? "repeat".toList cs = none)
    ⟨fun ⟨hne, hpieces, htrack, hsubgrid, hcall⟩ =>
      ⟨hne, cut_of_pieces? hpieces, htrack, hsubgrid, hcall⟩,
    fun h => ⟨h.nonempty, pieces?_of_cut h.solid, h.track, h.subgrid, h.single⟩⟩

/-- An item of a track list: a size, or a group of line names by what is between its brackets. -/
inductive Item
  | size (text : List Char) (valid : IsSize text)
  | names (inside : List Char) (balanced : Balanced inside)

namespace Item

/-- The text of an item. -/
def text : Item → List Char
  | size cs _ => cs
  | names inside _ => '[' :: (inside ++ [']'])

/-- Whether an item is the size of a track. -/
def isSize : Item → Bool
  | size _ _ => true
  | names _ _ => false

/-- An item is a token by itself. -/
theorem isToken (item : Item) : IsToken item.text := by
  cases item with
  | size cs valid =>
    refine ⟨valid.nonempty, valid.solid.mono fun c hc => ?_⟩
    rw [hc, Bool.true_or]
  | names inside balanced =>
    have hopen : Nesting.top.after? '[' = some ⟨0, 1⟩ := rfl
    exact ⟨List.cons_ne_nil _ _, solid_enclosed rfl (by decide) hopen rfl balanced⟩

/-- The groups are the items that begin with a square bracket. -/
theorem head?_text_iff (item : Item) : item.text.head? = some '[' ↔ item.isSize = false := by
  cases item with
  | size cs valid =>
    have hne : cs.head? ≠ some '[' := by
      intro hhead
      obtain ⟨rest, rfl⟩ := List.head?_eq_some_iff.mp hhead
      cases valid.solid with
      | inside uncut => exact absurd uncut (by decide)
    simpa [text, isSize] using hne
  | names inside balanced => simp [text, isSize]

/-- A group ends with a square bracket. -/
theorem getLast?_text {item : Item} (h : item.isSize = false) : item.text.getLast? = some ']' := by
  cases item with
  | size cs valid => exact absurd h (by simp [isSize])
  | names inside balanced =>
    show ('[' :: inside ++ [']']).getLast? = some ']'
    rw [List.getLast?_concat]

/-- A group has a square bracket in it. -/
theorem mem_text {item : Item} (h : item.isSize = false) : '[' ∈ item.text :=
  List.mem_of_head? (item.head?_text_iff.mpr h)

end Item

/-! ## Runs of items that touch -/

/-- The text of items that touch. -/
def runText (run : List Item) : List Char := run.flatMap Item.text

/-- How many items are sizes. -/
def sizes (run : List Item) : Nat := run.countP Item.isSize

/-- No two neighbours are sizes. -/
def Apart (run : List Item) : Prop := run.IsChain fun a b => a.isSize = true → b.isSize = false

/-- Whether a run begins with a group of line names and ends with a closing square bracket. -/
def enclosed (run : List Item) : Bool :=
  run.head?.any (fun item => !item.isSize) && (runText run).getLast? == some ']'

theorem runText_cons (item : Item) (run : List Item) :
    runText (item :: run) = item.text ++ runText run := List.flatMap_cons

/-- The text of a run begins like its first item. -/
theorem head?_runText_cons (item : Item) (run : List Item) :
    (runText (item :: run)).head? = item.text.head? := by
  rw [runText_cons, List.head?_append_of_ne_nil _ item.isToken.nonempty]

theorem runText_cons_ne_nil (item : Item) (run : List Item) : runText (item :: run) ≠ [] := by
  rw [runText_cons]
  exact List.append_ne_nil_of_left_ne_nil item.isToken.nonempty _

/-- The runs that are taken for a group of line names. -/
theorem isLineNames_runText (run : List Item) : isLineNames (runText run) = enclosed run := by
  unfold isLineNames enclosed
  cases run with
  | nil => rfl
  | cons item run =>
    have hhead : (item.text.head? == some '[') = !item.isSize := by
      rw [Bool.eq_iff_iff, beq_iff_eq, item.head?_text_iff, Bool.not_eq_true']
    rw [head?_runText_cons, hhead]
    rfl

/-- A run of groups ends with a square bracket. -/
theorem getLast?_runText_of_sizes_eq_zero {item : Item} {run : List Item}
    (h : sizes (item :: run) = 0) : (runText (item :: run)).getLast? = some ']' := by
  induction run generalizing item with
  | nil =>
    have hnames : item.isSize = false := by
      simpa using List.countP_eq_zero.mp h item List.mem_cons_self
    rw [runText_cons]
    show (item.text ++ []).getLast? = some ']'
    rw [List.append_nil, Item.getLast?_text hnames]
  | cons next run ih =>
    have hrest : sizes (next :: run) = 0 :=
      List.countP_eq_zero.mpr fun i hi => List.countP_eq_zero.mp h i (List.mem_cons_of_mem item hi)
    rw [runText_cons, List.getLast?_append_of_ne_nil _ (runText_cons_ne_nil next run)]
    exact ih hrest

/-- A run of two items at least has a group in it, and so a square bracket. -/
theorem Apart.mem_runText {a b : Item} {run : List Item} (h : Apart (a :: b :: run)) :
    '[' ∈ runText (a :: b :: run) := by
  rw [runText_cons, runText_cons, List.mem_append, List.mem_append]
  cases ha : a.isSize with
  | false => exact .inl (Item.mem_text ha)
  | true => exact .inr (.inl (Item.mem_text ((List.isChain_cons_cons.mp h).1 ha)))

/-! ## Runs that look like repetitions -/

/-- What is taken for a repetition has no bracket in front of the parenthesis of its arguments. -/
theorem exists_front_of_arguments? {cs arguments : List Char}
    (h : arguments? "repeat".toList cs = some arguments) :
    ∃ front, cs = front ++ '(' :: (arguments ++ [')']) ∧ ∀ c ∈ front, isBracket c = false := by
  obtain ⟨word, blanks, htext, hword, hblanks⟩ := exists_of_arguments? h
  refine ⟨word ++ blanks, by rw [htext, List.append_assoc], fun c hc => ?_⟩
  rcases List.mem_append.mp hc with hc | hc
  · exact isBracket_of_sameIgnoringCase_repeat hword hc
  · exact isBracket_of_isBlank (hblanks c hc)

/-- If a run is a text without brackets and behind it an opening parenthesis, it begins with a
size. -/
theorem isSize_of_runText_eq {a : Item} {run : List Item} {front rest : List Char}
    (h : runText (a :: run) = front ++ '(' :: rest) (hfront : ∀ c ∈ front, isBracket c = false) :
    a.isSize = true := by
  rw [← Bool.not_eq_false, ← a.head?_text_iff, ← head?_runText_cons a run, h]
  cases front with
  | nil => simp
  | cons c front =>
    intro hhead
    have hc : c = '[' := Option.some.inj hhead
    have hplain := hfront c List.mem_cons_self
    rw [hc] at hplain
    exact absurd hplain (by decide)

/-- If a run of two items at least begins like a repetition, then with a size that closes the
parenthesis before the end, so that what is taken for the arguments does not balance. -/
theorem Apart.splitArguments?_eq_none {a b : Item} {run : List Item} (h : Apart (a :: b :: run))
    {arguments : List Char}
    (hcall : arguments? "repeat".toList (runText (a :: b :: run)) = some arguments) :
    splitArguments? arguments = none := by
  obtain ⟨front, htext, hfront⟩ := exists_front_of_arguments? hcall
  have hgroup : b.isSize = false :=
    (List.isChain_cons_cons.mp h).1 (isSize_of_runText_eq htext hfront)
  -- the group behind the size does not begin with a parenthesis or before it
  have hbehind : ∀ between, (∀ c ∈ between, c ∈ front) →
      runText (b :: run) ≠ between ++ '(' :: (arguments ++ [')']) := by
    intro between hbetween heq
    have hsize := isSize_of_runText_eq heq fun c hc => hfront c (hbetween c hc)
    rw [hgroup] at hsize
    exact absurd hsize (by simp)
  rw [runText_cons] at htext
  rcases List.append_eq_append_iff.mp htext with ⟨between, hbetween, hmore⟩ | ⟨inside, ha, hmore⟩
  · refine absurd hmore (hbehind between fun c hc => ?_)
    rw [hbetween]
    exact List.mem_append_right _ hc
  · cases inside with
    | nil => exact absurd hmore.symm (hbehind [] (by simp))
    | cons c inside =>
      obtain ⟨rfl, hinside⟩ := List.cons.inj hmore
      have hclosed : Nesting.top.opened.behind? inside = some .top := by
        have hbalanced := a.isToken.solid.balanced
        rw [ha, balanced_append_iff hfront] at hbalanced
        exact hbalanced
      -- the last character behind the size is the parenthesis that ends the call
      obtain ⟨more, last, hlast⟩ := (List.eq_nil_or_concat (runText (b :: run))).resolve_left
        (runText_cons_ne_nil b run)
      rw [hlast, List.concat_eq_append] at hinside
      obtain ⟨rfl, -⟩ :=
        List.append_inj' (hinside.trans (List.append_assoc inside more [last]).symm) rfl
      rw [← Option.not_isSome_iff_eq_none, isSome_splitArguments?_iff]
      exact not_balanced_append hclosed more

/-- A run of two items at least that begins like a repetition has not a single size: there would be
only groups behind it, but a repetition ends with a parenthesis. -/
theorem sizes_ne_one_of_arguments? {a b : Item} {run : List Item} {arguments : List Char}
    (hcall : arguments? "repeat".toList (runText (a :: b :: run)) = some arguments) :
    sizes (a :: b :: run) ≠ 1 := by
  obtain ⟨front, htext, hfront⟩ := exists_front_of_arguments? hcall
  intro hone
  have hrest : sizes (b :: run) = 0 := by
    unfold sizes at hone ⊢
    rw [List.countP_cons, if_pos (isSize_of_runText_eq htext hfront)] at hone
    omega
  have hclose : (runText (a :: b :: run)).getLast? = some ')' := by
    rw [htext, ← List.cons_append, ← List.append_assoc, List.getLast?_concat]
  rw [runText_cons, List.getLast?_append_of_ne_nil _ (runText_cons_ne_nil b run),
    getLast?_runText_of_sizes_eq_zero hrest] at hclose
  exact absurd hclose (by decide)

/-- A run of two items at least is no word that stands for no track. -/
theorem Apart.isNoTrack_runText {a b : Item} {run : List Item} (h : Apart (a :: b :: run)) :
    Summary.isNoTrack (runText (a :: b :: run)) = false := by
  unfold Summary.isNoTrack
  rw [Text.sameIgnoringCase_eq_false_of_mem rfl (by decide) h.mem_runText,
    Text.sameIgnoringCase_eq_false_of_mem rfl (by decide) h.mem_runText]
  rfl

/-! ## What a token counts -/

namespace Summary

/-- A group of line names counts as no track. -/
theorem count_withToken_of_isLineNames {token : List Char} (h : isLineNames token = true) :
    (nothing.withToken token).count = 0 := by
  unfold withToken
  rw [h, Bool.true_or, if_pos rfl]
  rfl

/-- Any other token counts as one track if it is neither a word that stands for none nor a
repetition. -/
theorem count_withToken_of_not_call {token : List Char} (hnames : isLineNames token = false)
    (htrack : isNoTrack token = false) (hcall : arguments? "repeat".toList token = none) :
    (nothing.withToken token).count = 1 := by
  unfold withToken
  rw [hnames, htrack, hcall]
  rfl

/-- A repetition whose arguments do not balance counts as no track. -/
theorem count_withToken_of_splitArguments? {token arguments : List Char}
    (hcall : arguments? "repeat".toList token = some arguments)
    (hnone : splitArguments? arguments = none) : (nothing.withToken token).count = 0 := by
  unfold withToken
  rw [hcall]
  simp only [hnone, ite_self]
  rfl

/-- The counts of tokens are added up to the largest number of 64 bits. -/
theorem count_foldl_withToken (tokens : List (List Char)) :
    (tokens.foldl withToken nothing).count
      = min ((tokens.map fun t => (nothing.withToken t).count).sum) maxSize := by
  induction tokens with
  | nil => rfl
  | cons token tokens ih =>
    rw [List.foldl_cons, foldl_withToken (count_withToken_le token), List.map_cons, List.sum_cons]
    show saturatingAdd _ (tokens.foldl withToken nothing).count = _
    rw [ih]
    unfold saturatingAdd
    omega

end Summary

/-! ## The count of a run -/

/-- A run counts as no more tracks than it has sizes, and as so many exactly if it has none, or one
and is not taken for a group of line names. -/
theorem Apart.count_runText {a : Item} {run : List Item} (h : Apart (a :: run)) :
    (Summary.nothing.withToken (runText (a :: run))).count ≤ sizes (a :: run) ∧
      ((Summary.nothing.withToken (runText (a :: run))).count = sizes (a :: run) ↔
        sizes (a :: run) = 0 ∨ sizes (a :: run) = 1 ∧ enclosed (a :: run) = false) := by
  cases henclosed : enclosed (a :: run) with
  | true =>
    have hcount := Summary.count_withToken_of_isLineNames ((isLineNames_runText _).trans henclosed)
    rw [hcount]
    simp [eq_comm]
  | false =>
    have hnames : isLineNames (runText (a :: run)) = false := by rw [isLineNames_runText, henclosed]
    have hsome : sizes (a :: run) ≠ 0 := by
      intro hzero
      have hlast := getLast?_runText_of_sizes_eq_zero hzero
      have hgroup : a.isSize = false := by
        simpa using List.countP_eq_zero.mp hzero a List.mem_cons_self
      simp [enclosed, hlast, hgroup] at henclosed
    cases run with
    | nil =>
      cases a with
      | names inside balanced => exact absurd rfl hsome
      | size cs valid =>
        have htext : runText [Item.size cs valid] = cs := List.append_nil cs
        rw [htext] at hnames ⊢
        have hone : sizes [Item.size cs valid] = 1 := rfl
        rw [Summary.count_withToken_of_not_call hnames valid.track valid.single, hone]
        simp
    | cons b run =>
      cases hcall : arguments? "repeat".toList (runText (a :: b :: run)) with
      | none =>
        rw [Summary.count_withToken_of_not_call hnames h.isNoTrack_runText hcall]
        simp only [hsome, false_or, and_true, eq_comm]
        omega
      | some arguments =>
        have hmore := sizes_ne_one_of_arguments? hcall
        rw [Summary.count_withToken_of_splitArguments? hcall (h.splitArguments?_eq_none hcall)]
        omega

/-! ## Track lists -/

/-- A part of a track list: an item and the blanks in front of it. -/
structure Part where
  gap : List Char
  blank : ∀ c ∈ gap, isBlank c = true
  item : Item

/-- The text of the parts. -/
def partsText (parts : List Part) : List Char := parts.flatMap fun p => p.gap ++ p.item.text

theorem partsText_cons (p : Part) (parts : List Part) :
    partsText (p :: parts) = p.gap ++ p.item.text ++ partsText parts := List.flatMap_cons

/-- The runs of items without blanks between them. -/
def runs : List Part → List (List Item)
  | [] => []
  | [p] => [[p.item]]
  | p :: q :: parts =>
    if q.gap.isEmpty then (runs (q :: parts)).modifyHead fun run => p.item :: run
    else [p.item] :: runs (q :: parts)

/-- A track list: parts with blanks between neighbouring sizes, and blanks behind the last one. -/
structure TrackList where
  parts : List Part
  back : List Char
  blank : ∀ c ∈ back, isBlank c = true
  separated : parts.IsChain fun p q =>
    p.item.isSize = true → q.item.isSize = true → q.gap ≠ []

/-- The first run begins with the first item. -/
theorem exists_runs_cons (p : Part) (parts : List Part) :
    ∃ run others, runs (p :: parts) = (p.item :: run) :: others := by
  cases parts with
  | nil => exact ⟨[], [], rfl⟩
  | cons q parts =>
    obtain ⟨run, others, hruns⟩ := exists_runs_cons q parts
    unfold runs
    split
    · exact ⟨q.item :: run, others, by rw [hruns, List.modifyHead_cons]⟩
    · exact ⟨[], runs (q :: parts), rfl⟩

/-- The runs are together the items. -/
theorem flatten_runs (parts : List Part) : (runs parts).flatten = parts.map Part.item := by
  fun_induction runs parts with
  | case1 => rfl
  | case2 p => rfl
  | case3 p q parts hgap ih =>
    obtain ⟨run, others, hruns⟩ := exists_runs_cons q parts
    rw [hruns] at ih ⊢
    rw [List.modifyHead_cons, List.map_cons, ← ih]
    rfl
  | case4 p q parts hgap ih =>
    rw [List.map_cons, ← ih]
    rfl

/-- In a run there are no neighbouring sizes. -/
theorem apart_of_mem_runs {parts : List Part}
    (h : parts.IsChain fun p q => p.item.isSize = true → q.item.isSize = true → q.gap ≠ [])
    {run : List Item} (hrun : run ∈ runs parts) : run ≠ [] ∧ Apart run := by
  fun_induction runs parts generalizing run with
  | case1 => exact absurd hrun List.not_mem_nil
  | case2 p =>
    rw [List.mem_singleton.mp hrun]
    exact ⟨List.cons_ne_nil _ _, .singleton _⟩
  | case3 p q parts hgap ih =>
    obtain ⟨hfirst, hrest⟩ := List.isChain_cons_cons.mp h
    obtain ⟨next, others, hruns⟩ := exists_runs_cons q parts
    rw [hruns] at hrun ih
    rw [List.modifyHead_cons] at hrun
    rcases List.mem_cons.mp hrun with rfl | hrun
    · refine ⟨List.cons_ne_nil _ _, .cons_cons (fun hp => ?_) (ih hrest List.mem_cons_self).2⟩
      rw [Bool.eq_false_iff]
      exact fun hq => hfirst hp hq (List.isEmpty_iff.mp hgap)
    · exact ih hrest (List.mem_cons_of_mem _ hrun)
  | case4 p q parts hgap ih =>
    rcases List.mem_cons.mp hrun with rfl | hrun
    · exact ⟨List.cons_ne_nil _ _, .singleton _⟩
    · exact ih (List.isChain_cons_cons.mp h).2 hrun

/-! ## The tokens of a track list -/

/-- The tokens of a track list are its runs; blanks in front of it and behind it make no
difference. -/
theorem splitTracks?_partsText (parts : List Part) {back : List Char}
    (hback : ∀ c ∈ back, isBlank c = true) :
    splitTracks? (partsText parts ++ back) = some ((runs parts).map runText) := by
  fun_induction runs parts with
  | case1 => exact splitTop?_append_of_isBlank (fun _ => isBracket_of_isBlank) hback []
  | case2 p =>
    have htext : partsText [p] ++ back = p.gap ++ (p.item.text ++ back) := by
      simp [partsText]
    rw [htext]
    calc splitTracks? (p.gap ++ (p.item.text ++ back))
        = splitTracks? (p.item.text ++ back) := splitTop?_isBlank_append p.blank _
      _ = splitTracks? p.item.text :=
          splitTop?_append_of_isBlank (fun _ => isBracket_of_isBlank) hback _
      _ = some [p.item.text] := p.item.isToken.splitTracks?_eq
      _ = some ([[p.item]].map runText) := by simp [runText]
  | case3 p q parts hgap ih =>
    obtain ⟨run, others, hruns⟩ := exists_runs_cons q parts
    have hhead : ∀ c ∈ (partsText (q :: parts) ++ back).head?, isBlank c = false := by
      have hnone : q.gap = [] := List.isEmpty_iff.mp hgap
      intro c hc
      rw [partsText_cons, hnone, List.nil_append, List.append_assoc,
        List.head?_append_of_ne_nil _ q.item.isToken.nonempty] at hc
      exact ((Text.trim_eq_self_iff _).mp q.item.isToken.solid.trim_eq).1 c hc
    rw [hruns, List.map_cons] at ih
    rw [partsText_cons, List.append_assoc, List.append_assoc, hruns, List.modifyHead_cons,
      List.map_cons, runText_cons]
    calc splitTracks? (p.gap ++ (p.item.text ++ (partsText (q :: parts) ++ back)))
        = splitTracks? (p.item.text ++ (partsText (q :: parts) ++ back)) :=
          splitTop?_isBlank_append p.blank _
      _ = some ((p.item.text ++ runText (q.item :: run)) :: others.map runText) :=
          p.item.isToken.splitTracks?_append ih hhead
  | case4 p q parts hgap ih =>
    have hrest : splitTracks? (q.item.text ++ (partsText parts ++ back))
        = some ((runs (q :: parts)).map runText) := by
      rw [← ih, partsText_cons, List.append_assoc, List.append_assoc]
      exact (splitTop?_isBlank_append q.blank _).symm
    rw [partsText_cons, partsText_cons, List.append_assoc, List.append_assoc, List.append_assoc,
      List.append_assoc, List.map_cons]
    calc splitTracks?
          (p.gap ++ (p.item.text ++ (q.gap ++ (q.item.text ++ (partsText parts ++ back)))))
        = splitTracks? (p.item.text ++ (q.gap ++ (q.item.text ++ (partsText parts ++ back)))) :=
          splitTop?_isBlank_append p.blank _
      _ = some ([p.item.text] ++ (runs (q :: parts)).map runText) :=
          splitTracks?_append p.item.isToken.splitTracks?_eq hrest
            (fun hnil => hgap (List.isEmpty_iff.mpr hnil)) q.blank
      _ = some (runText [p.item] :: (runs (q :: parts)).map runText) := by
          rw [runText_cons, List.singleton_append]
          show _ = some ((p.item.text ++ []) :: _)
          rw [List.append_nil]

/-! ## The count of a track list -/

namespace TrackList

/-- The text of a track list. -/
def text (l : TrackList) : String := String.ofList (partsText l.parts ++ l.back)

/-- The sizes among the items of a track list. -/
def trackCount (l : TrackList) : Nat := sizes (l.parts.map Part.item)

/-- A track list does not begin with a subgrid. -/
theorem subgrid_head? {l : TrackList} :
    ∀ t ∈ ((runs l.parts).map runText).head?, sameIgnoringCase "subgrid".toList t = false := by
  intro t ht
  cases hruns : runs l.parts with
  | nil =>
    rw [hruns] at ht
    exact absurd ht (by simp)
  | cons run others =>
    rw [hruns] at ht
    obtain rfl : runText run = t := Option.some.inj ht
    obtain ⟨hne, happart⟩ := apart_of_mem_runs l.separated (hruns ▸ List.mem_cons_self)
    rcases run with _ | ⟨a, _ | ⟨b, run⟩⟩
    · exact absurd rfl hne
    · cases a with
      | size cs valid =>
        have htext : runText [Item.size cs valid] = cs := List.append_nil cs
        rw [htext]
        exact valid.subgrid
      | names inside balanced => rfl
    · exact Text.sameIgnoringCase_eq_false_of_mem rfl (by decide) happart.mem_runText

/-- Every track list has as many tracks for certain as it has sizes, exactly if the number has 64
bits and every run without blanks in it has no size, or a single one and not both a group of line
names at its beginning and a closing square bracket at its end. -/
theorem countTracks_text_iff (l : TrackList) :
    countTracks l.text = l.trackCount ↔
      l.trackCount ≤ maxSize ∧
        ∀ run ∈ runs l.parts, sizes run = 0 ∨ sizes run = 1 ∧ enclosed run = false := by
  have hsplit : splitTracks? l.text.toList = some ((runs l.parts).map runText) := by
    unfold text
    rw [String.toList_ofList]
    exact splitTracks?_partsText l.parts l.blank
  have hcount : countTracks l.text = min (((runs l.parts).map fun run =>
      (Summary.nothing.withToken (runText run)).count).sum) maxSize := by
    unfold countTracks
    rw [Summary.ofTemplate_eq hsplit, Summary.ofTokens_eq subgrid_head?,
      Summary.count_foldl_withToken, List.map_map]
    rfl
  have hsizes : l.trackCount = ((runs l.parts).map sizes).sum := by
    unfold trackCount sizes
    rw [← flatten_runs, List.countP_flatten]
  have hrun : ∀ run ∈ runs l.parts,
      (Summary.nothing.withToken (runText run)).count ≤ sizes run ∧
        ((Summary.nothing.withToken (runText run)).count = sizes run ↔
          sizes run = 0 ∨ sizes run = 1 ∧ enclosed run = false) := by
    intro run hmem
    obtain ⟨hne, happart⟩ := apart_of_mem_runs l.separated hmem
    obtain ⟨a, run, rfl⟩ := List.exists_cons_of_ne_nil hne
    exact happart.count_runText
  have hle : ((runs l.parts).map fun run =>
      (Summary.nothing.withToken (runText run)).count).sum ≤ ((runs l.parts).map sizes).sum :=
    List.sum_le_sum fun run hmem => (hrun run hmem).1
  rw [hcount, hsizes]
  constructor
  · intro heq
    refine ⟨by omega, fun run hmem => ?_⟩
    obtain ⟨hrunle, hiff⟩ := hrun run hmem
    rw [← hiff]
    by_contra hne
    -- a run that counts less than its sizes cannot be made up for by another one
    have hlt := List.sum_lt_sum _ sizes (fun run hmem => (hrun run hmem).1)
      ⟨run, hmem, Nat.lt_of_le_of_ne hrunle hne⟩
    omega
  · rintro ⟨hlimit, hall⟩
    have hsame : (runs l.parts).map (fun run => (Summary.nothing.withToken (runText run)).count)
        = (runs l.parts).map sizes :=
      List.map_congr_left fun run hmem => (hrun run hmem).2.mpr (hall run hmem)
    rw [hsame]
    exact Nat.min_eq_left hlimit

/-- Two sizes that are touched by groups at one end each, and two groups that touch each other. -/
theorem countTracks_text_iff_one_end :
    ∃ l : TrackList, l.text = "[a b]1fr minmax(1px, 2fr)[c]\t[d][e]" ∧ countTracks l.text = 2 := by
  refine ⟨⟨[⟨[], by simp, .names "a b".toList rfl⟩, ⟨[], by simp, .size "1fr".toList (by decide)⟩,
    ⟨[' '], List.forall_mem_singleton.mpr rfl, .size "minmax(1px, 2fr)".toList (by decide)⟩,
    ⟨[], by simp, .names "c".toList rfl⟩,
    ⟨['\t'], List.forall_mem_singleton.mpr rfl, .names "d".toList rfl⟩,
    ⟨[], by simp, .names "e".toList rfl⟩], [], by simp, by decide⟩, by decide, ?_⟩
  exact (countTracks_text_iff _).mpr ⟨by decide, by decide⟩

/-- A size between two groups is taken for a group with them, and two sizes with a group between
them for one track. -/
theorem countTracks_text_both_ends :
    (∃ l : TrackList, l.text = "[a]1fr[b] 2fr" ∧ l.trackCount = 2 ∧ countTracks l.text = 1) ∧
      ∃ l : TrackList, l.text = "1fr[b]2fr" ∧ l.trackCount = 2 ∧ countTracks l.text = 1 := by
  constructor
  · exact ⟨⟨[⟨[], by simp, .names "a".toList rfl⟩, ⟨[], by simp, .size "1fr".toList (by decide)⟩,
      ⟨[], by simp, .names "b".toList rfl⟩,
      ⟨[' '], List.forall_mem_singleton.mpr rfl, .size "2fr".toList (by decide)⟩],
      [], by simp, by decide⟩, by decide, by decide, by decide⟩
  · exact ⟨⟨[⟨[], by simp, .size "1fr".toList (by decide)⟩, ⟨[], by simp, .names "b".toList rfl⟩,
      ⟨[], by simp, .size "2fr".toList (by decide)⟩], [], by simp, by decide⟩,
      by decide, by decide, by decide⟩

end TrackList

end ResponsiveStyle.Grid

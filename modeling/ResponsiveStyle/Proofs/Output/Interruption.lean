/-
# Compilations that fail or are cut off

Up to the moment when the file of a style sheet is put in its place, all files are as they were
(`Untouched`); from then on the file is there, and only older files of its scope may be missing
(`Placed`). One of the two holds at every moment, whatever the steps answer and wherever the run
ends (`always_tryCompile`), so no scope is ever left without a file that it had.
-/
import ResponsiveStyle.Proofs.Output.Compile

namespace ResponsiveStyle.Output

open DirectoryStep (MayAnswer)

/-! ## The two phases -/

namespace Directory

/-- All files of a directory are there with the content that they had. -/
def Untouched (before d : Directory) : Prop :=
  ∀ name content, before.lookup name = some content → d.lookup name = some content

theorem Untouched.mem {before d : Directory} (h : before.Untouched d) {name : String}
    (hname : name ∈ before) : name ∈ d := by
  obtain ⟨content, hcontent⟩ := Finmap.mem_iff.mp hname
  exact Finmap.mem_of_lookup_eq_some (h name content hcontent)

/-- The file of a style sheet is there, and all files that are not of its scope are as they were. -/
structure Placed (hash : Hash) (lead css : String) (before d : Directory) : Prop where
  target : ∃ content, d.lookup (fileName lead (hash css.toUTF8)) = some content ∧
    hash content = hash css.toUTF8
  others : ∀ name content, isScopeFile lead name = false → before.lookup name = some content →
    d.lookup name = some content

/-- To remove an older file of the scope leaves the target and the files of other scopes. -/
theorem Placed.erase {hash : Hash} {lead css : String} {before d : Directory}
    (h : before.Placed hash lead css d) {name : String}
    (hname : name ≠ fileName lead (hash css.toUTF8)) (hscope : isScopeFile lead name = true) :
    before.Placed hash lead css (d.erase name) := by
  obtain ⟨content, hcontent, hsame⟩ := h.target
  refine ⟨⟨content, ?_, hsame⟩, fun other found hother hfound => ?_⟩
  · rw [lookup_erase_eq, if_neg (Ne.symm hname)]
    exact hcontent
  · have hne : other ≠ name := by
      rintro rfl
      rw [hscope] at hother
      cases hother
    rw [lookup_erase_eq, if_neg hne]
    exact h.others other found hother hfound

/-- A scope has a complete file: one that is named for what it holds. -/
def HoldsSheet (hash : Hash) (lead : String) (d : Directory) : Prop :=
  ∃ content, d.lookup (fileName lead (hash content)) = some content

/-- A scope has a file. -/
def HoldsFile (lead : String) (d : Directory) : Prop := ∃ name ∈ d, isScopeFile lead name = true

variable {hash : Hash} (hhash : ∀ content, IsDigest (hash content)) {lead css : String}
  {before d : Directory}

include hhash

/-- In both phases a scope has a complete file if it had one. -/
theorem HoldsSheet.of_phase {other : String} (h : before.HoldsSheet hash other)
    (hd : before.Untouched d ∨ before.Placed hash lead css d) : d.HoldsSheet hash other := by
  obtain ⟨content, hcontent⟩ := h
  rcases hd with hd | hd
  · exact ⟨content, hd _ _ hcontent⟩
  · by_cases hlead : other = lead
    · obtain ⟨placed, hplaced, hsame⟩ := hd.target
      exact ⟨placed, by rw [hlead, hsame, hplaced]⟩
    · have hfile := isScopeFile_fileName other (hhash content)
      exact ⟨content, hd.others _ _ (isScopeFile_eq_false hfile hlead) hcontent⟩

/-- In both phases a scope has a file if it had one. -/
theorem HoldsFile.of_phase {other : String} (h : before.HoldsFile other)
    (hd : before.Untouched d ∨ before.Placed hash lead css d) : d.HoldsFile other := by
  obtain ⟨name, hmem, hfile⟩ := h
  obtain ⟨content, hcontent⟩ := Finmap.mem_iff.mp hmem
  rcases hd with hd | hd
  · exact ⟨name, Finmap.mem_of_lookup_eq_some (hd _ _ hcontent), hfile⟩
  · by_cases hlead : other = lead
    · obtain ⟨placed, hplaced, -⟩ := hd.target
      exact ⟨_, Finmap.mem_of_lookup_eq_some hplaced, hlead ▸ isScopeFile_fileName lead (hhash _)⟩
    · have hname := hd.others _ _ (isScopeFile_eq_false hfile hlead) hcontent
      exact ⟨name, Finmap.mem_of_lookup_eq_some hname, hfile⟩

end Directory

/-! ## Steps that are allowed -/

namespace DirectoryStep

/-- Whether a step of a compilation leaves the file called `target` alone, or puts there a file that
holds `content`. -/
def Careful (target : String) (content : ByteArray) : DirectoryStep → Directory → Prop
  | .fill temporary _, _ => temporary ≠ target
  | .discard temporary, _ => temporary ≠ target
  | .replace temporary name, d =>
    name = target ∧ temporary ≠ target ∧ d.lookup temporary = some content
  | .remove name, _ => name ≠ target
  | _, _ => True

/-- A file that is put in the place of the target holds the content. -/
theorem Careful.replaced {target temporary name : String} {content : ByteArray} {d d' : Directory}
    (h : Careful target content (.replace temporary name) d)
    (hmay : MayAnswer (.replace temporary name) d true d') :
    name = target ∧ d'.lookup name = some content := by
  refine ⟨h.1, ?_⟩
  rcases hmay with ⟨hfails, -⟩ | ⟨found, -, hfound, rfl⟩
  · cases hfails
  · rw [h.2.2] at hfound
    obtain rfl := Option.some.inj hfound
    exact Finmap.lookup_insert _

/-- A careful step leaves the target as it is or with the content. -/
theorem Careful.lookup_target {target lead : String} {content : ByteArray} {s : DirectoryStep}
    {d d' : Directory} {r : s.Reply} (h : Careful target content s d)
    (htarget : isScopeFile lead target = true) (hmay : s.MayAnswer d r d') :
    d'.lookup target = d.lookup target ∨ d'.lookup target = some content := by
  cases s with
  | hasUploads => exact .inl (by rw [show d' = d from hmay])
  | makeOutput => exact .inl (by rw [show d' = d from hmay])
  | read name => exact .inl (by rw [hmay.1])
  | names => exact .inl (by rw [hmay.1])
  | makeTemporary =>
    rcases hmay with ⟨-, rfl⟩ | ⟨name, -, -, hscope, rfl⟩
    · exact .inl rfl
    · refine .inl ?_
      rw [Directory.lookup_insert_eq, if_neg]
      rintro rfl
      rw [hscope lead] at htarget
      cases htarget
  | fill temporary content =>
    rcases hmay with ⟨-, rfl⟩ | ⟨written, rfl, -⟩
    · exact .inl rfl
    · exact .inl (by rw [Directory.lookup_insert_eq, if_neg (Ne.symm h)])
  | replace temporary name =>
    rcases hmay with ⟨-, rfl⟩ | ⟨found, -, hfound, rfl⟩
    · exact .inl rfl
    · obtain ⟨rfl, -, hcontent⟩ := h
      rw [hcontent] at hfound
      obtain rfl := Option.some.inj hfound
      exact .inr (Finmap.lookup_insert _)
  | discard temporary =>
    rcases hmay with rfl | rfl
    · exact .inl rfl
    · exact .inl (by rw [Directory.lookup_erase_eq, if_neg (Ne.symm h)])
  | remove name =>
    rcases hmay with ⟨-, rfl⟩ | ⟨-, rfl⟩
    · exact .inl rfl
    · exact .inl (by rw [Directory.lookup_erase_eq, if_neg (Ne.symm h)])

end DirectoryStep

/-! ## The parts of a compilation -/

section Always

open DirectoryStep (Careful)

variable {hash : Hash} (hhash : ∀ content, IsDigest (hash content)) {lead css : String}
  {before d : Directory}

/-- One of the phases holds. -/
def Phase (hash : Hash) (lead css : String) (before d : Directory) : Prop :=
  before.Untouched d ∨ before.Placed hash lead css d

/-- What holds in the end: an error touches no file, and otherwise the target is in its place. -/
def Outcome {α : Type} (hash : Hash) (lead css : String) (before : Directory) :
    Except Error α → Directory → Prop
  | .error _, d => before.Untouched d
  | .ok _, d => before.Placed hash lead css d

/-- Whatever its steps answer, a part of a compilation keeps to the phases and takes careful steps
only, and `post` holds in the end. -/
abbrev Guarded {α : Type} (hash : Hash) (lead css : String) (before : Directory)
    (p : DirectoryPlan α) (d : Directory) (post : α → Directory → Prop) : Prop :=
  p.Always MayAnswer (Phase hash lead css before)
    (Careful (fileName lead (hash css.toUTF8)) css.toUTF8) post d

/-- A name for a temporary file is not among the files of the directory and is none of a file of a
scope. -/
structure Spare (before : Directory) (temporary : String) : Prop where
  fresh : temporary ∉ before
  shape : ∀ lead, isScopeFile lead temporary = false

theorem Spare.ne_of_lookup {temporary name : String} {found : ByteArray}
    (h : Spare before temporary) (hfound : before.lookup name = some found) :
    name ≠ temporary := by
  rintro rfl
  exact h.fresh (Finmap.mem_of_lookup_eq_some hfound)

theorem Spare.untouched_insert {temporary : String} (h : Spare before temporary)
    (hd : before.Untouched d) (content : ByteArray) :
    before.Untouched (d.insert temporary content) := by
  intro name found hfound
  rw [Directory.lookup_insert_eq, if_neg (h.ne_of_lookup hfound)]
  exact hd name found hfound

theorem Spare.untouched_erase {temporary : String} (h : Spare before temporary)
    (hd : before.Untouched d) : before.Untouched (d.erase temporary) := by
  intro name found hfound
  rw [Directory.lookup_erase_eq, if_neg (h.ne_of_lookup hfound)]
  exact hd name found hfound

/-- To remove older files of the scope leaves the target and the files of other scopes. -/
theorem always_removeAll (found : List String)
    (hfound : ∀ name ∈ found, isStale lead (fileName lead (hash css.toUTF8)) name = true)
    (hd : before.Placed hash lead css d) :
    Guarded hash lead css before (removeAll found) d fun _ d' =>
      before.Placed hash lead css d' := by
  induction found generalizing d with
  | nil => exact Plan.Always.pure (.inr hd) hd
  | cons name found ih =>
    have hstale := isStale_iff.mp (hfound name List.mem_cons_self)
    unfold removeAll
    refine Plan.Always.bind (Plan.Always.ask (Q := fun _ d' => before.Placed hash lead css d')
      (.inr hd) hstale.1 fun r d' hmay => ?_) fun r d' _ hd' => ?_
    · have hd' : before.Placed hash lead css d' := by
        rcases hmay with ⟨-, rfl⟩ | ⟨-, rfl⟩
        · exact hd
        · exact hd.erase hstale.1 hstale.2
      exact ⟨.inr hd', hd'⟩
    · exact Plan.Always.bind (ih (fun other h => hfound other (List.mem_cons_of_mem _ h)) hd')
        fun n d'' hinv hd'' => Plan.Always.pure hinv hd''

/-- To collect the older files of the scope leaves the target and the files of other scopes. -/
theorem always_removeStale (hd : before.Placed hash lead css d) :
    Guarded hash lead css before (removeStale lead (fileName lead (hash css.toUTF8))) d fun _ d' =>
      before.Placed hash lead css d' := by
  unfold removeStale
  refine Plan.Always.bind (Plan.Always.ask (Q := fun _ d' => before.Placed hash lead css d')
    (.inr hd) trivial fun r d' hmay => ?_) fun r d' hinv hd' => ?_
  · obtain ⟨rfl, -⟩ := hmay
    exact ⟨.inr hd, hd⟩
  · cases r with
    | none => exact Plan.Always.pure hinv hd'
    | some found =>
      refine always_removeAll _ (fun name hname => ?_) hd'
      exact (List.mem_filter.mp hname).2

include hhash

theorem Spare.ne_target {temporary : String} (h : Spare before temporary) :
    temporary ≠ fileName lead (hash css.toUTF8) :=
  ne_fileName (hhash _) (h.shape lead)

/-- A temporary file that takes the place of the target puts the style sheet there. -/
theorem Spare.placed_replace {temporary : String} (h : Spare before temporary)
    (hd : before.Untouched d) :
    before.Placed hash lead css
      ((d.erase temporary).insert (fileName lead (hash css.toUTF8)) css.toUTF8) := by
  refine ⟨⟨css.toUTF8, Finmap.lookup_insert _, rfl⟩, fun name content hname hcontent => ?_⟩
  rw [Directory.lookup_insert_eq, if_neg (ne_fileName (hhash _) hname)]
  exact h.untouched_erase hd name content hcontent

/-- To give up a temporary file touches no file. -/
theorem always_discard {temporary : String} (h : Spare before temporary)
    (hd : before.Untouched d) :
    Guarded hash lead css before (DirectoryPlan.discard temporary) d fun _ d' =>
      before.Untouched d' := by
  refine Plan.Always.ask (.inl hd) (h.ne_target hhash) fun r d' hmay => ?_
  have hd' : before.Untouched d' := by
    rcases hmay with rfl | rfl
    · exact hd
    · exact h.untouched_erase hd
  exact ⟨.inl hd', hd'⟩

/-- A filled temporary file takes the place of the target or is given up. -/
theorem always_replace {temporary : String} (h : Spare before temporary)
    (hd : before.Untouched d) (hcontent : d.lookup temporary = some css.toUTF8) :
    Guarded hash lead css before (do
      if ← DirectoryPlan.replace temporary (fileName lead (hash css.toUTF8)) then return .ok ()
      else
        DirectoryPlan.discard temporary
        return .error .persist : DirectoryPlan (Except Error Unit)) d
      (Outcome hash lead css before) := by
  refine Plan.Always.bind (Plan.Always.ask (Q := fun r d' =>
    if r then before.Placed hash lead css d' else before.Untouched d') (.inl hd)
    ⟨rfl, h.ne_target hhash, hcontent⟩ fun r d' hmay => ?_) fun r d' hinv hplaced => ?_
  · rcases hmay with ⟨rfl, rfl⟩ | ⟨found, rfl, hfound, rfl⟩
    · exact ⟨.inl hd, hd⟩
    · rw [hcontent] at hfound
      obtain rfl := Option.some.inj hfound
      have hd' : before.Placed hash lead css _ := h.placed_replace hhash hd
      exact ⟨.inr hd', hd'⟩
  · cases r with
    | false =>
      exact Plan.Always.bind (always_discard hhash h hplaced)
        fun _ d'' hinv'' hd'' => Plan.Always.pure hinv'' hd''
    | true => exact Plan.Always.pure hinv hplaced

/-- To write a file touches none until it is in its place. -/
theorem always_writeAtOnce (hd : before.Untouched d) :
    Guarded hash lead css before (writeAtOnce (fileName lead (hash css.toUTF8)) css.toUTF8) d
      (Outcome hash lead css before) := by
  unfold writeAtOnce
  refine Plan.Always.bind (Plan.Always.ask (Q := fun r d' => before.Untouched d' ∧
    ∀ temporary, r = some temporary → Spare before temporary) (.inl hd) trivial
    fun r d' hmay => ?_) fun r d₁ hinv hmade => ?_
  · rcases hmay with ⟨rfl, rfl⟩ | ⟨name, rfl, hfresh, hshape, rfl⟩
    · exact ⟨.inl hd, hd, fun temporary h => by cases h⟩
    · have hspare : Spare before name := ⟨fun hmem => hfresh (hd.mem hmem), hshape⟩
      have hd' := hspare.untouched_insert hd .empty
      exact ⟨.inl hd', hd', fun temporary h => Option.some.inj h ▸ hspare⟩
  cases r with
  | none => exact Plan.Always.pure hinv hmade.1
  | some temporary =>
    have hspare := hmade.2 temporary rfl
    refine Plan.Always.bind (Plan.Always.ask (Q := fun r d' => before.Untouched d' ∧
      (r = true → d'.lookup temporary = some css.toUTF8)) hinv (hspare.ne_target hhash)
      fun r d' hmay => ?_) fun r d₂ hinv hfilled => ?_
    · rcases hmay with ⟨rfl, rfl⟩ | ⟨written, rfl, hwritten⟩
      · exact ⟨hinv, hmade.1, fun h => by cases h⟩
      · have hd' := hspare.untouched_insert hmade.1 written
        refine ⟨.inl hd', hd', fun h => ?_⟩
        rw [Finmap.lookup_insert, hwritten h]
    cases r with
    | false =>
      exact Plan.Always.bind (always_discard hhash hspare hfilled.1)
        fun _ d₃ hinv hd₃ => Plan.Always.pure hinv hd₃
    | true => exact always_replace hhash hspare hfilled.1 (hfilled.2 rfl)

/-- To keep a content up to date touches no file until the target is in its place. -/
theorem always_refresh (hd : before.Untouched d) :
    Guarded hash lead css before (refresh hash (fileName lead (hash css.toUTF8)) css.toUTF8) d
      (Outcome hash lead css before) := by
  have hwrite : ∀ {d : Directory}, before.Untouched d → Guarded hash lead css before
      (do return (← writeAtOnce (fileName lead (hash css.toUTF8)) css.toUTF8).map fun _ => true) d
      (Outcome hash lead css before) := by
    intro d hd
    refine Plan.Always.bind (always_writeAtOnce hhash hd) fun r d' hinv h =>
      Plan.Always.pure hinv ?_
    cases r with
    | error e => exact h
    | ok u => exact h
  unfold refresh
  refine Plan.Always.bind (Plan.Always.ask (Q := fun r d' => before.Untouched d' ∧
    ∀ found, r = some found → d'.lookup (fileName lead (hash css.toUTF8)) = some found)
    (.inl hd) trivial fun r d' hmay => ?_) fun r d' hinv hread => ?_
  · obtain ⟨rfl, rfl | rfl⟩ := hmay
    · exact ⟨.inl hd, hd, fun found h => by cases h⟩
    · exact ⟨.inl hd, hd, fun found h => h⟩
  cases r with
  | none => exact hwrite hread.1
  | some found =>
    simp only
    split
    · rename_i hsame
      have hplaced : before.Placed hash lead css d' :=
        ⟨⟨found, hread.2 found rfl, beq_iff_eq.mp hsame⟩, fun name content _ h => hread.1 _ _ h⟩
      exact Plan.Always.pure hinv hplaced
    · exact hwrite hread.1

/-- A compilation that has something to write touches no file until the target is in its place. -/
theorem always_tryCompile (c : Config) {scope : Scope} (hcss : Text.isBlankText css = false)
    (hlead : scope.lead? = .ok lead) (d : Directory) :
    Guarded hash lead css d (tryCompile hash c css scope) d (Outcome hash lead css d) := by
  have hd : d.Untouched d := fun name content h => h
  have hkeep : Guarded hash lead css d (keep hash c lead css) d (Outcome hash lead css d) := by
    refine Plan.Always.bind (always_refresh hhash hd) fun r d₁ hinv h => ?_
    cases r with
    | error e => exact Plan.Always.pure hinv h
    | ok written =>
      exact Plan.Always.bind (always_removeStale h)
        fun n d₂ hinv₂ h₂ => Plan.Always.pure hinv₂ h₂
  unfold tryCompile
  rw [if_neg (by simp [hcss]), hlead]
  -- to look for the directories and to make them leaves the files as they are
  refine Plan.Always.bind (Plan.Always.ask (Q := fun _ d' => d' = d) (.inl hd) trivial
    fun r d' hmay => ?_) fun r d' hinv hsame => ?_
  · obtain rfl : d' = d := hmay
    exact ⟨.inl hd, rfl⟩
  subst hsame
  cases r with
  | false => exact Plan.Always.pure hinv hd
  | true =>
    refine Plan.Always.bind (Plan.Always.ask (Q := fun _ d'' => d'' = d') hinv trivial
      fun r d'' hmay => ?_) fun r d'' hinv hsame => ?_
    · obtain rfl : d'' = d' := hmay
      exact ⟨hinv, rfl⟩
    subst hsame
    cases r with
    | false => exact Plan.Always.pure hinv hd
    | true =>
      refine Plan.Always.bind hkeep fun r d₁ hinv h => Plan.Always.pure hinv ?_
      cases r with
      | error e => exact h
      | ok k => exact h

end Always

/-! ## Whole compilations -/

/-- Wherever a compilation is cut off and whatever its steps answer: a scope that had a complete
file has one, and a scope that had a file has one; a step that puts a file in its place leaves the
style sheet there, and no other step changes what stands under that name; where an error is
returned, all files are there with the content that they had; and where a style sheet is returned,
its file is there. -/
theorem sheets_survive (hash : Hash) (hhash : ∀ content, IsDigest (hash content)) (c : Config)
    (css : String) (scope : Scope) (d d' : Directory)
    (p : DirectoryPlan (Except Error (Option Compilation)))
    (hreach : Plan.Reaches MayAnswer (tryCompile hash c css scope, d) (p, d')) :
    (∀ lead, d.HoldsSheet hash lead → d'.HoldsSheet hash lead) ∧
      (∀ lead, d.HoldsFile lead → d'.HoldsFile lead) ∧
      (∀ temporary name next d'', p = .step (.replace temporary name) next →
        MayAnswer (.replace temporary name) d' true d'' →
        ∃ lead, scope.lead? = .ok lead ∧ name = fileName lead (hash css.toUTF8) ∧
          d''.lookup name = some css.toUTF8) ∧
      (∀ s next r d'' lead, p = .step s next → s.MayAnswer d' r d'' → scope.lead? = .ok lead →
        d''.lookup (fileName lead (hash css.toUTF8))
            = d'.lookup (fileName lead (hash css.toUTF8)) ∨
          d''.lookup (fileName lead (hash css.toUTF8)) = some css.toUTF8) ∧
      (∀ e, p = .done (.error e) →
        ∀ name content, d.lookup name = some content → d'.lookup name = some content) ∧
      ∀ k, p = .done (.ok (some k)) → ∃ lead content, scope.lead? = .ok lead ∧
        d'.lookup (fileName lead (hash css.toUTF8)) = some content ∧
          hash content = hash css.toUTF8 := by
  rcases tryCompile_cases hash c css scope with ⟨r, hplan, hnone⟩ | ⟨lead, hcss, hlead⟩
  · -- no step is asked for, so nothing but the beginning is reached
    rw [hplan] at hreach
    have hidle : (pure r : DirectoryPlan (Except Error (Option Compilation))).Always MayAnswer
        (fun d' => d' = d) (fun _ _ => False) (fun a _ => a = r) d := ⟨rfl, rfl⟩
    have h := hidle.of_reaches hreach
    obtain rfl : d' = d := h.invariant
    refine ⟨fun _ h => h, fun _ h => h, ?_, ?_, fun _ _ _ _ h => h, ?_⟩
    · rintro temporary name next d'' rfl
      exact absurd h.2.1 not_false
    · rintro s next r d'' lead rfl
      exact absurd h.2.1 not_false
    · rintro k rfl
      exact absurd h.2.symm (hnone k)
  · have h := (always_tryCompile hhash c hcss hlead d).of_reaches hreach
    have hphase := h.invariant
    refine ⟨fun _ hsheet => hsheet.of_phase hhash hphase,
      fun _ hfile => hfile.of_phase hhash hphase, ?_, ?_, ?_, ?_⟩
    · rintro temporary name next d'' rfl hmay
      exact ⟨lead, hlead, h.2.1.replaced hmay⟩
    · rintro s next r d'' lead' rfl hmay hlead'
      obtain rfl : lead = lead' := Except.ok.inj (hlead.symm.trans hlead')
      exact h.2.1.lookup_target (isScopeFile_fileName lead (hhash _)) hmay
    · rintro e rfl
      exact h.2
    · rintro k rfl
      obtain ⟨content, htarget⟩ := h.2.target
      exact ⟨lead, content, hlead, htarget⟩

/-- A compilation on the plain host, followed to its end: the older file of the scope is gone, and
yet the scope has a file. -/
theorem sheets_survive_to_the_end :
    let plan := tryCompile contentHash .standard "a {}" (.node "7")
    let d : Directory := Finmap.singleton "post-7-0123456789ab.css" "x".toUTF8
    let last := plan.run Host.plain.answer d
    (∀ content, IsDigest (contentHash content)) ∧
      Plan.Reaches MayAnswer (plan, d) (.done last.1, last.2) ∧ last.2.HoldsFile "post-7-" := by
  intro plan d last
  have hreach : Plan.Reaches MayAnswer (plan, d) (.done last.1, last.2) :=
    Plan.reaches_run MayAnswer Host.plain.mayAnswer_answer plan d
  have hfile : d.HoldsFile "post-7-" :=
    ⟨"post-7-0123456789ab.css", (Finmap.mem_singleton _ _ _).mpr rfl, by decide⟩
  exact ⟨isDigest_contentHash, hreach,
    (sheets_survive contentHash isDigest_contentHash .standard _ _ d last.2 _ hreach).2.1 _ hfile⟩

end ResponsiveStyle.Output

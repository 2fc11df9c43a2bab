/-
# One compilation on a host

What a compilation leaves behind under a name is a function of what was there under this name and
under the name of its target (`lookup_tryCompile`), and files of other scopes stay as they are
(`compiled_of_isScopeFile_eq_false`). On a reliable host the scope is left with one file, which
holds the style sheet (`settled_tryCompile`), and a second compilation only looks
(`tryCompile_of_settled`).
-/
import ResponsiveStyle.Proofs.Output.Directory

namespace ResponsiveStyle.Output

open DirectoryPlan Plan

/-- The style sheet that a compilation returns. -/
def sheetFor (hash : Hash) (c : Config) (lead css : String) : CompiledSheet :=
  let digest := hash css.toUTF8
  let name := fileName lead digest
  ⟨css, Config.under c.outputDir name, c.outputUrl ++ "/" ++ name, digest⟩

/-- A blank style sheet makes no file. -/
theorem tryCompile_of_isBlankText (hash : Hash) (c : Config) {css : String}
    (h : Text.isBlankText css = true) (scope : Scope) :
    tryCompile hash c css scope = pure (.ok none) := by
  unfold tryCompile
  rw [if_pos h]

/-- A compilation ends without a step, or there is something to write and a name to write it
under. -/
theorem tryCompile_cases (hash : Hash) (c : Config) (css : String) (scope : Scope) :
    (∃ r : Except Error (Option Compilation),
        tryCompile hash c css scope = pure r ∧ ∀ k, r ≠ .ok (some k)) ∨
      ∃ lead, Text.isBlankText css = false ∧ scope.lead? = .ok lead := by
  unfold tryCompile
  cases Text.isBlankText css with
  | true => exact .inl ⟨.ok none, rfl, fun k hk => by cases hk⟩
  | false =>
    cases scope.lead? with
    | error e => exact .inl ⟨.error e, rfl, fun k hk => by cases hk⟩
    | ok lead => exact .inr ⟨lead, rfl, rfl⟩

namespace Host

/-! ## Putting a content in its place -/

/-- How writing a file ends. The name of the temporary file does not matter. -/
def writing (host : Host) (name : String) (content : ByteArray) : Except Error Unit :=
  if host.refuses .makeTemporary || host.refuses (.fill "" content) then .error .io
  else if host.refuses (.replace "" name) then .error .persist
  else .ok ()

/-- What is left of a temporary file is all that a failure to write changes. -/
theorem lookup_discarded (host : Host) {d : Directory} {temporary other : String}
    (content : ByteArray) (h : other ≠ temporary) :
    (if host.refuses (.discard temporary) then d.insert temporary content
      else (d.insert temporary content).erase temporary).lookup other = d.lookup other := by
  split
  · rw [Directory.lookup_insert_eq, if_neg h]
  · rw [Directory.lookup_erase_eq, if_neg h, Directory.lookup_insert_eq, if_neg h]

/-- A temporary file that takes the place of another one leaves nothing under its own name. -/
theorem lookup_replaced {d : Directory} {temporary : String} (h : temporary ∉ d)
    (name other : String) (content : ByteArray) :
    (((d.insert temporary content).erase temporary).insert name content).lookup other
      = if other = name then some content else d.lookup other := by
  rw [Directory.lookup_insert_eq, Directory.lookup_erase_eq, Directory.lookup_insert_eq]
  by_cases hother : other = temporary
  · rw [if_pos hother, hother, Finmap.lookup_eq_none.mpr h]
  · rw [if_neg hother, if_neg hother]

/-- A file that is written holds the content, and no other file is touched. Where writing fails, the
temporary file may be left. -/
theorem run_writeAtOnce (host : Host) (name : String) (content : ByteArray) (d : Directory) :
    ((writeAtOnce name content).run host.answer d).1 = host.writing name content ∧
      ∀ other, (host.writing name content).isOk = true ∨ other ≠ host.fresh d →
        ((writeAtOnce name content).run host.answer d).2.lookup other
          = if (host.writing name content).isOk = true ∧ other = name then some content
            else d.lookup other := by
  have hinsert : (d.insert (host.fresh d) .empty).insert (host.fresh d) content
      = d.insert (host.fresh d) content := Finmap.insert_insert d
  unfold writeAtOnce writing
  rw [run_monadBind, run_makeTemporary, ← host.refuses_fill (host.fresh d) "" content,
    ← host.refuses_replace (host.fresh d) "" name]
  -- one case for each step that may be refused, in the order in which they are asked for
  rcases Bool.eq_false_or_eq_true (host.refuses .makeTemporary) with hmake | hmake
  · simp [hmake, Except.isOk, Except.toBool]
  rcases Bool.eq_false_or_eq_true (host.refuses (.fill (host.fresh d) content)) with hfill | hfill
  · simp only [hmake, hfill, Bool.false_eq_true, if_false, if_true, run_monadBind, run_fill,
      run_discard, run_pure, Bool.or_true, Except.isOk, Except.toBool, true_and, false_and,
      false_or]
    exact fun other hother => host.lookup_discarded .empty hother
  simp only [hmake, hfill, Bool.false_eq_true, if_false, if_true, run_monadBind, run_fill,
    Bool.or_self, hinsert]
  rw [run_replace _ _ (Finmap.lookup_insert _)]
  rcases Bool.eq_false_or_eq_true (host.refuses (.replace (host.fresh d) name))
    with hreplace | hreplace
  · simp only [hreplace, Bool.false_eq_true, if_false, if_true, run_monadBind, run_discard,
      run_pure, Except.isOk, Except.toBool, true_and, false_and, false_or]
    exact fun other hother => host.lookup_discarded content hother
  · simp only [hreplace, Bool.false_eq_true, if_false, if_true, run_pure, Except.isOk,
      Except.toBool, true_and]
    exact fun other _ => lookup_replaced (host.fresh_not_mem d) name other content

/-! ## Leaving a file that is right -/

/-- Whether `existing`, if it can be read, is taken for a content: it has the same digest. -/
def keeps (host : Host) (hash : Hash) (name : String) (content : ByteArray)
    (existing : Option ByteArray) : Bool :=
  !host.refuses (.read name) && existing.any fun found => hash found == hash content

/-- How keeping a content up to date ends, where `existing` stands under its name. -/
def refreshing (host : Host) (hash : Hash) (name : String) (content : ByteArray)
    (existing : Option ByteArray) : Except Error Bool :=
  if host.keeps hash name content existing then .ok false
  else (host.writing name content).map fun _ => true

/-- What stands under a name after a content was kept up to date. -/
def refreshed (host : Host) (hash : Hash) (name : String) (content : ByteArray)
    (files : String → Option ByteArray) (other : String) : Option ByteArray :=
  match host.refreshing hash name content (files name) with
  | .ok true => if other = name then some content else files other
  | _ => files other

/-- A content is written unless the file is taken for it. -/
theorem run_refresh_eq (host : Host) (hash : Hash) (name : String) (content : ByteArray)
    (d : Directory) :
    (refresh hash name content).run host.answer d
      = if host.keeps hash name content (d.lookup name) then (.ok false, d)
        else ((host.writing name content).map fun _ => true,
          ((writeAtOnce name content).run host.answer d).2) := by
  have hwrite : ((do return (← writeAtOnce name content).map fun _ => true :
        DirectoryPlan (Except Error Bool)).run host.answer d)
      = ((host.writing name content).map fun _ => true,
          ((writeAtOnce name content).run host.answer d).2) := by
    rw [run_monadBind, run_pure, (host.run_writeAtOnce name content d).1]
  unfold refresh keeps
  rw [run_monadBind, run_read]
  rcases Bool.eq_false_or_eq_true (host.refuses (.read name)) with hread | hread
  · simp only [hread, if_true, Bool.not_true, Bool.false_and, Bool.false_eq_true, if_false]
    exact hwrite
  · simp only [hread, Bool.false_eq_true, if_false, Bool.not_false, Bool.true_and]
    cases d.lookup name with
    | none => exact hwrite
    | some found =>
      simp only [Option.any_some]
      split
      · rfl
      · exact hwrite

/-- A content that is kept is only looked at. -/
theorem asked_refresh_of_keeps (host : Host) {hash : Hash} {name : String} {content : ByteArray}
    {d : Directory} (h : host.keeps hash name content (d.lookup name) = true) :
    (refresh hash name content).asked host.answer d = [.read name] := by
  unfold keeps at h
  rw [Bool.and_eq_true, Bool.not_eq_true'] at h
  unfold refresh
  rw [asked_monadBind, asked_read, run_read]
  simp only [h.1, Bool.false_eq_true, if_false]
  cases hfile : d.lookup name with
  | none => simp [hfile] at h
  | some found =>
    rw [hfile, Option.any_some] at h
    simp only [h.2, if_true]
    rfl

theorem run_refresh (host : Host) (hash : Hash) (name : String) (content : ByteArray)
    (d : Directory) :
    ((refresh hash name content).run host.answer d).1
        = host.refreshing hash name content (d.lookup name) ∧
      ∀ other, (host.refreshing hash name content (d.lookup name)).isOk = true ∨
          other ≠ host.fresh d →
        ((refresh hash name content).run host.answer d).2.lookup other
          = host.refreshed hash name content d.lookup other := by
  have hlookup := (host.run_writeAtOnce name content d).2
  rw [run_refresh_eq]
  unfold refreshed refreshing
  split
  · exact ⟨rfl, fun _ _ => rfl⟩
  · refine ⟨rfl, fun other hother => ?_⟩
    cases hwriting : host.writing name content with
    | error e =>
      rw [hwriting] at hother hlookup
      simpa [Except.isOk, Except.toBool, Except.map] using hlookup other hother
    | ok u =>
      rw [hwriting] at hother hlookup
      simpa [Except.isOk, Except.toBool, Except.map] using hlookup other hother

/-! ## Removing older files -/

/-- Whether a host removes a file that is found to be old. -/
def collects (host : Host) (name : String) : Bool :=
  !host.refuses .names && !host.refuses (.remove name)

theorem lookup_removeAll (host : Host) (found : List String) (d : Directory) (other : String) :
    ((removeAll found).run host.answer d).2.lookup other
      = if other ∈ found ∧ host.refuses (.remove other) = false then none else d.lookup other := by
  induction found generalizing d with
  | nil => simp [removeAll]
  | cons name found ih =>
    have hone : ((remove name).run host.answer d).2.lookup other
        = if other = name ∧ host.refuses (.remove other) = false then none else d.lookup other := by
      rw [run_remove]
      by_cases hname : other = name
      · subst hname
        by_cases hmem : other ∈ d
        · cases host.refuses (.remove other) <;> simp [hmem]
        · simp [hmem, Finmap.lookup_eq_none.mpr hmem]
      · simp only [hname, false_and, if_false]
        split
        · rfl
        · rw [Directory.lookup_erase_eq, if_neg hname]
    unfold removeAll
    rw [run_monadBind, run_monadBind, run_pure, ih, hone]
    by_cases hname : other = name
    · subst hname
      cases host.refuses (.remove other) <;> simp
    · simp [hname]

theorem lookup_removeStale (host : Host) (lead keep : String) (d : Directory) (other : String) :
    ((removeStale lead keep).run host.answer d).2.lookup other
      = if isStale lead keep other && host.collects other then none else d.lookup other := by
  unfold removeStale collects
  rw [run_monadBind, run_names]
  rcases Bool.eq_false_or_eq_true (host.refuses .names) with hnames | hnames
  · simp [hnames]
  · simp only [hnames, Bool.false_eq_true, if_false]
    rw [lookup_removeAll]
    simp only [List.mem_filter, host.mem_listing]
    by_cases hmem : other ∈ d
    · simp [hmem, isStale, and_assoc]
    · simp [hmem, Finmap.lookup_eq_none.mpr hmem]

/-- Where a scope has no older files nothing is removed. -/
theorem removeStale_of_clean (host : Host) {lead keep : String} {d : Directory}
    (h : ∀ name ∈ d, isStale lead keep name = false) :
    (removeStale lead keep).run host.answer d = (0, d) ∧
      (removeStale lead keep).asked host.answer d = [.names] := by
  have hfilter : (host.listing d).filter (isStale lead keep) = [] := by
    rw [List.filter_eq_nil_iff]
    intro name hname
    rw [h name ((host.mem_listing d name).mp hname)]
    exact Bool.false_ne_true
  unfold isStale at hfilter
  unfold removeStale
  rw [run_monadBind, asked_monadBind, run_names, asked_names]
  cases host.refuses .names with
  | true => exact ⟨rfl, rfl⟩
  | false =>
    simp only [Bool.false_eq_true, if_false]
    rw [hfilter]
    exact ⟨rfl, rfl⟩

/-! ## A whole compilation -/

/-- What stands under a name after a style sheet was compiled for a scope. -/
def compiled (host : Host) (hash : Hash) (lead css : String) (files : String → Option ByteArray)
    (other : String) : Option ByteArray :=
  let content := css.toUTF8
  let name := fileName lead (hash content)
  if host.refuses .hasUploads || host.refuses .makeOutput then files other
  else match host.refreshing hash name content (files name) with
    | .error _ => files other
    | .ok _ =>
      if isStale lead name other && host.collects other then none
      else host.refreshed hash name content files other

/-- On a reliable host a file that is not taken for the content is written. -/
theorem refreshing_of_reliable {host : Host} (h : host.Reliable) (hash : Hash) (name : String)
    (content : ByteArray) (existing : Option ByteArray) :
    host.refreshing hash name content existing
      = .ok (!existing.any fun found => hash found == hash content) := by
  have hwriting : host.writing name content = .ok () := by
    unfold writing
    simp [h _]
  unfold refreshing keeps
  rw [hwriting, h (.read name)]
  cases existing.any fun found => hash found == hash content <;> rfl

/-- A compilation that gets as far as the file ends as keeping the content up to date does, and then
removes the older files. -/
theorem run_keep (host : Host) (hash : Hash) (c : Config) (lead css : String) (d : Directory) :
    (keep hash c lead css).run host.answer d
      = match host.refreshing hash (fileName lead (hash css.toUTF8)) css.toUTF8
            (d.lookup (fileName lead (hash css.toUTF8))) with
        | .error e =>
          (.error e,
            ((refresh hash (fileName lead (hash css.toUTF8)) css.toUTF8).run host.answer d).2)
        | .ok written =>
          let r := (removeStale lead (fileName lead (hash css.toUTF8))).run host.answer
            ((refresh hash (fileName lead (hash css.toUTF8)) css.toUTF8).run host.answer d).2
          (.ok ⟨sheetFor hash c lead css, written, r.1⟩, r.2) := by
  unfold keep
  simp only
  rw [run_monadBind, (host.run_refresh hash _ css.toUTF8 d).1]
  cases host.refreshing hash (fileName lead (hash css.toUTF8)) css.toUTF8
    (d.lookup (fileName lead (hash css.toUTF8))) with
  | error e => rfl
  | ok written =>
    simp only [run_monadBind, run_pure]
    rfl

/-- A style sheet that is not blank is kept for a scope that has files, if the host lets it. -/
theorem run_tryCompile (host : Host) (hash : Hash) (c : Config) {css lead : String}
    {scope : Scope} (hcss : Text.isBlankText css = false) (hlead : scope.lead? = .ok lead)
    (d : Directory) :
    (tryCompile hash c css scope).run host.answer d
      = if host.refuses .hasUploads then (.error (.missingDirectory c.uploadsDir), d)
        else if host.refuses .makeOutput then (.error .io, d)
        else (((keep hash c lead css).run host.answer d).1.map some,
          ((keep hash c lead css).run host.answer d).2) := by
  unfold tryCompile
  rw [if_neg (by simp [hcss]), hlead]
  simp only
  rw [run_monadBind, run_hasUploads]
  rcases Bool.eq_false_or_eq_true (host.refuses .hasUploads) with huploads | huploads
  · simp [huploads]
  rcases Bool.eq_false_or_eq_true (host.refuses .makeOutput) with houtput | houtput
  · simp [huploads, houtput, run_makeOutput]
  · simp [huploads, houtput, run_makeOutput]

/-- What a compilation leaves behind under a name. -/
theorem lookup_tryCompile (host : Host) (hash : Hash) (c : Config) {css lead : String}
    {scope : Scope} (hcss : Text.isBlankText css = false) (hlead : scope.lead? = .ok lead)
    (d : Directory) {other : String} (hother : host.Reliable ∨ other ≠ host.fresh d) :
    ((tryCompile hash c css scope).run host.answer d).2.lookup other
      = host.compiled hash lead css d.lookup other := by
  have hlookup := (host.run_refresh hash (fileName lead (hash css.toUTF8)) css.toUTF8 d).2
  rw [host.run_tryCompile hash c hcss hlead, run_keep]
  unfold compiled
  rcases Bool.eq_false_or_eq_true (host.refuses .hasUploads) with huploads | huploads
  · simp [huploads]
  rcases Bool.eq_false_or_eq_true (host.refuses .makeOutput) with houtput | houtput
  · simp [huploads, houtput]
  simp only [huploads, houtput, Bool.or_self, Bool.false_eq_true, if_false]
  cases hend : host.refreshing hash (fileName lead (hash css.toUTF8)) css.toUTF8
    (d.lookup (fileName lead (hash css.toUTF8))) with
  | error e =>
    have hne : other ≠ host.fresh d := by
      rcases hother with hhost | hne
      · rw [refreshing_of_reliable hhost] at hend
        cases hend
      · exact hne
    simp only
    rw [hlookup other (.inr hne)]
    unfold refreshed
    rw [hend]
  | ok written =>
    simp only
    rw [lookup_removeStale, hlookup other (.inl (by rw [hend]; rfl))]

/-- A compilation whose error is left out does to the directory what it does otherwise. -/
theorem run_compile (host : Host) (hash : Hash) (c : Config) (css : String) (scope : Scope)
    (d : Directory) :
    ((compile hash c css scope).run host.answer d).2
      = ((tryCompile hash c css scope).run host.answer d).2 := by
  unfold compile
  rw [run_monadBind]
  cases ((tryCompile hash c css scope).run host.answer d).1 with
  | error e => rfl
  | ok result => rfl

/-- A compilation whose error is left out asks for the same steps. -/
theorem asked_compile (host : Host) (hash : Hash) (c : Config) (css : String) (scope : Scope)
    (d : Directory) :
    (compile hash c css scope).asked host.answer d
      = (tryCompile hash c css scope).asked host.answer d := by
  unfold compile
  rw [asked_monadBind]
  cases ((tryCompile hash c css scope).run host.answer d).1 with
  | error e => exact List.append_nil _
  | ok result => exact List.append_nil _

/-! ## What matters to a compilation -/

/-- What is left under a name depends on what was there and on what was there under the name of the
target. -/
theorem compiled_congr (host : Host) {hash : Hash} {lead css : String}
    {files files' : String → Option ByteArray} {other : String}
    (htarget : files (fileName lead (hash css.toUTF8)) = files' (fileName lead (hash css.toUTF8)))
    (hother : files other = files' other) :
    host.compiled hash lead css files other = host.compiled hash lead css files' other := by
  unfold compiled refreshed
  simp only
  rw [htarget, hother]

/-- A file of another scope is left as it is. -/
theorem compiled_of_isScopeFile_eq_false (host : Host) {hash : Hash}
    (hhash : ∀ content, IsDigest (hash content)) {lead css : String}
    (files : String → Option ByteArray) {other : String} (h : isScopeFile lead other = false) :
    host.compiled hash lead css files other = files other := by
  have hne : other ≠ fileName lead (hash css.toUTF8) := ne_fileName (hhash _) h
  unfold compiled refreshed isStale
  simp only [h, Bool.and_false, Bool.false_and, Bool.false_eq_true, if_false, if_neg hne]
  split
  · rfl
  · split
    · rfl
    · split <;> rfl

/-! ## On a reliable host -/

section Reliable

variable {host : Host} (hhost : host.Reliable) (hash : Hash)

include hhost

/-- The target holds what was there if that has the digest of the style sheet, and the style sheet
if not; the scope has no other file; and all other files are as they were. -/
theorem compiled_of_reliable (lead css : String) (files : String → Option ByteArray)
    (other : String) :
    host.compiled hash lead css files other
      = if other = fileName lead (hash css.toUTF8) then
          some (((files other).filter fun found => hash found == hash css.toUTF8).getD css.toUTF8)
        else if isScopeFile lead other then none else files other := by
  unfold compiled refreshed isStale collects
  simp only [hhost _, Bool.or_self, Bool.false_eq_true, if_false, Bool.not_false, Bool.and_self,
    Bool.and_true, refreshing_of_reliable hhost]
  generalize css.toUTF8 = content
  generalize fileName lead (hash content) = name
  by_cases hother : other = name
  · subst hother
    cases files other with
    | none => simp
    | some found =>
      by_cases hsame : hash found = hash content
      · simp [hsame, Option.filter]
      · have hdiffers : (hash found == hash content) = false := by simpa using hsame
        simp [hdiffers, Option.filter]
  · cases (files name).any fun found => hash found == hash content with
    | true => simp [hother]
    | false => simp [hother]

/-- What a compilation on a reliable host leaves behind under a name. -/
theorem lookup_tryCompile_of_reliable (c : Config) {css lead : String} {scope : Scope}
    (hcss : Text.isBlankText css = false) (hlead : scope.lead? = .ok lead) (d : Directory)
    (other : String) :
    ((tryCompile hash c css scope).run host.answer d).2.lookup other
      = if other = fileName lead (hash css.toUTF8) then
          some (((d.lookup other).filter fun found => hash found == hash css.toUTF8).getD
            css.toUTF8)
        else if isScopeFile lead other then none else d.lookup other := by
  rw [host.lookup_tryCompile hash c hcss hlead d (.inl hhost), compiled_of_reliable hhost]

/-- A compilation on a reliable host leaves files that are not of the scope as they are. -/
theorem lookup_tryCompile_of_isScopeFile_eq_false (hhash : ∀ content, IsDigest (hash content))
    (c : Config) {css lead : String} {scope : Scope} (hcss : Text.isBlankText css = false)
    (hlead : scope.lead? = .ok lead) (d : Directory) {other : String}
    (h : isScopeFile lead other = false) :
    ((tryCompile hash c css scope).run host.answer d).2.lookup other = d.lookup other := by
  rw [host.lookup_tryCompile hash c hcss hlead d (.inl hhost)]
  exact host.compiled_of_isScopeFile_eq_false hhash d.lookup h

/-- A compilation on a reliable host returns the style sheet. -/
theorem tryCompile_of_reliable (c : Config) {css lead : String} {scope : Scope}
    (hcss : Text.isBlankText css = false) (hlead : scope.lead? = .ok lead) (d : Directory) :
    ∃ written removed, ((tryCompile hash c css scope).run host.answer d).1
      = .ok (some ⟨sheetFor hash c lead css, written, removed⟩) := by
  rw [host.run_tryCompile hash c hcss hlead, hhost, hhost, run_keep, refreshing_of_reliable hhost]
  exact ⟨_, _, rfl⟩

end Reliable

end Host

/-! ## A scope with one file -/

namespace Directory

/-- A scope has one file, which is named for a style sheet and holds a content with its digest. -/
structure Settled (hash : Hash) (lead css : String) (d : Directory) : Prop where
  only : ∀ name, name ∈ d ∧ isScopeFile lead name = true ↔ name = fileName lead (hash css.toUTF8)
  content : ∃ content, d.lookup (fileName lead (hash css.toUTF8)) = some content ∧
    hash content = hash css.toUTF8

/-- Whether a scope has one file depends on its files only. -/
theorem Settled.congr {hash : Hash} {lead css : String} {d d' : Directory}
    (hd : d.Settled hash lead css)
    (h : ∀ name, isScopeFile lead name = true → d'.lookup name = d.lookup name) :
    d'.Settled hash lead css := by
  have htarget : isScopeFile lead (fileName lead (hash css.toUTF8)) = true :=
    ((hd.only _).mpr rfl).2
  refine ⟨fun name => ?_, ?_⟩
  · rw [← hd.only name]
    refine and_congr_left fun hname => ?_
    rw [← Finmap.lookup_isSome, ← Finmap.lookup_isSome, h name hname]
  · rw [h _ htarget]
    exact hd.content

end Directory

namespace Host

variable {host : Host} (hhost : host.Reliable) {hash : Hash} (c : Config) {css lead : String}
  {scope : Scope} (hcss : Text.isBlankText css = false) (hlead : scope.lead? = .ok lead)
  {d : Directory}

include hhost hcss hlead

/-- A compilation on a reliable host leaves the scope with one file. -/
theorem settled_tryCompile (hhash : ∀ content, IsDigest (hash content)) (d : Directory) :
    ((tryCompile hash c css scope).run host.answer d).2.Settled hash lead css := by
  have hlookup := lookup_tryCompile_of_reliable hhost hash c hcss hlead d
  refine ⟨fun name => ?_, ?_⟩
  · rw [← Finmap.lookup_isSome, hlookup]
    by_cases hname : name = fileName lead (hash css.toUTF8)
    · subst hname
      simp [isScopeFile_fileName lead (hhash _)]
    · rw [if_neg hname]
      cases isScopeFile lead name with
      | true => exact iff_of_false (fun h => absurd h.1 (by simp)) hname
      | false => exact iff_of_false (fun h => absurd h.2 (by simp)) hname
  · rw [hlookup, if_pos rfl]
    refine ⟨_, rfl, ?_⟩
    cases hfile : (d.lookup (fileName lead (hash css.toUTF8))).filter
      fun found => hash found == hash css.toUTF8 with
    | none => rfl
    | some found => simpa using (Option.filter_eq_some_iff.mp hfile).2

/-- A style sheet that is the only one of its scope already is only looked at. -/
theorem tryCompile_of_settled (hd : d.Settled hash lead css) :
    (tryCompile hash c css scope).run host.answer d
        = (.ok (some ⟨sheetFor hash c lead css, false, 0⟩), d) ∧
      ∀ s ∈ (tryCompile hash c css scope).asked host.answer d, s.isChange = false := by
  obtain ⟨content, hcontent, hsame⟩ := hd.content
  have hkeeps : host.keeps hash (fileName lead (hash css.toUTF8)) css.toUTF8
      (d.lookup (fileName lead (hash css.toUTF8))) = true := by
    unfold keeps
    rw [hhost, hcontent, Option.any_some, hsame, beq_self_eq_true]
    rfl
  have hclean : ∀ name ∈ d, isStale lead (fileName lead (hash css.toUTF8)) name = false := by
    intro name hname
    rw [Bool.eq_false_iff]
    intro h
    have hstale := isStale_iff.mp h
    exact hstale.1 ((hd.only name).mp ⟨hname, hstale.2⟩)
  have hrefresh : (refresh hash (fileName lead (hash css.toUTF8)) css.toUTF8).run host.answer d
      = (.ok false, d) := by
    rw [run_refresh_eq, if_pos hkeeps]
  obtain ⟨hremove, hasked⟩ := host.removeStale_of_clean hclean
  refine ⟨?_, ?_⟩
  · rw [host.run_tryCompile hash c hcss hlead, hhost, hhost, run_keep, hrefresh]
    unfold refreshing
    rw [if_pos hkeeps]
    simp only [Bool.false_eq_true, if_false, hremove]
    rfl
  · unfold tryCompile
    rw [if_neg (by simp [hcss]), hlead]
    simp only [asked_monadBind, asked_hasUploads, asked_makeOutput, run_hasUploads,
      run_makeOutput, hhost _, Bool.not_false, if_true]
    unfold keep
    simp only [asked_monadBind, host.asked_refresh_of_keeps hkeeps, hrefresh, hasked, hremove,
      asked_pure, List.append_nil, List.cons_append, List.nil_append]
    intro s hs
    simp only [List.mem_cons, List.not_mem_nil, or_false] at hs
    rcases hs with rfl | rfl | rfl | rfl <;> rfl

end Host

end ResponsiveStyle.Output

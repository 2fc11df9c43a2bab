/-
# The output directory

The output directory is a finite map from the names of files to their contents. What a step may do
to it is said twice: by all that can happen, where every step may fail (`MayAnswer`), and by hosts,
which answer every step in a way of their own. A host may refuse steps; one that refuses none is
reliable. All that a host does can happen (`mayAnswer_answer`).
-/
import Mathlib.Data.Finmap
import Mathlib.Data.Finset.Sort
import Mathlib.Data.String.Basic
import ResponsiveStyle.Output.FileTree
import ResponsiveStyle.Proofs.Output.Plan
import ResponsiveStyle.Proofs.Output.Scope

namespace ResponsiveStyle.Output

/-- The files of the output directory. -/
abbrev Directory := Finmap fun _ : String => ByteArray

namespace Directory

theorem lookup_insert_eq (d : Directory) (a name : String) (content : ByteArray) :
    (d.insert a content).lookup name = if name = a then some content else d.lookup name := by
  by_cases h : name = a
  · rw [if_pos h, h, Finmap.lookup_insert]
  · rw [if_neg h, Finmap.lookup_insert_of_ne d h]

theorem lookup_erase_eq (d : Directory) (a name : String) :
    (d.erase a).lookup name = if name = a then none else d.lookup name := by
  by_cases h : name = a
  · rw [if_pos h, h, Finmap.lookup_erase]
  · rw [if_neg h, Finmap.lookup_erase_ne h]

end Directory

namespace DirectoryStep

/-! ## What can happen -/

/-- Whether a step may answer `r` in a directory and leave another one behind. Any step may fail: a
file that is filled may then hold anything, but to take the place of another file is all or nothing.
The system gives temporary files names that are neither taken nor names of files of a scope, and
lists what it can read of the directory. -/
def MayAnswer : (s : DirectoryStep) → Directory → s.Reply → Directory → Prop
  | .hasUploads, d, _, d' => d' = d
  | .makeOutput, d, _, d' => d' = d
  | .read name, d, r, d' => d' = d ∧ (r = none ∨ r = d.lookup name)
  | .makeTemporary, d, r, d' =>
    r = none ∧ d' = d ∨
      ∃ name, r = some name ∧ name ∉ d ∧ (∀ lead, isScopeFile lead name = false) ∧
        d' = d.insert name .empty
  | .fill temporary content, d, r, d' =>
    r = false ∧ d' = d ∨
      ∃ written, d' = d.insert temporary written ∧ (r = true → written = content)
  | .replace temporary name, d, r, d' =>
    r = false ∧ d' = d ∨
      ∃ content, r = true ∧ d.lookup temporary = some content ∧
        d' = (d.erase temporary).insert name content
  | .discard temporary, d, _, d' => d' = d ∨ d' = d.erase temporary
  | .names, d, r, d' => d' = d ∧ ∀ found, r = some found → ∀ name ∈ found, name ∈ d
  | .remove name, d, r, d' => r = false ∧ d' = d ∨ r = true ∧ d' = d.erase name

/-- Whether a step is one that writes or removes a file. -/
def isChange : DirectoryStep → Bool
  | .hasUploads | .makeOutput | .read _ | .names => false
  | .makeTemporary | .fill _ _ | .replace _ _ | .discard _ | .remove _ => true

end DirectoryStep

/-! ## Hosts -/

/-- A system that carries out steps on the directory. It chooses the names of temporary files and
the order in which it lists a directory; and some steps it may refuse, whatever the directory holds
and whatever the temporary file is called. -/
structure Host where
  fresh : Directory → String
  listing : Directory → List String
  refuses : DirectoryStep → Bool
  fresh_not_mem : ∀ d, fresh d ∉ d
  isScopeFile_fresh : ∀ d lead, isScopeFile lead (fresh d) = false
  mem_listing : ∀ d name, name ∈ listing d ↔ name ∈ d
  refuses_fill : ∀ t t' content, refuses (.fill t content) = refuses (.fill t' content)
  refuses_replace : ∀ t t' name, refuses (.replace t name) = refuses (.replace t' name)

namespace Host

/-- A step that is not refused. It still fails where it needs a file that is not there. -/
def perform (host : Host) : (s : DirectoryStep) → Directory → s.Reply × Directory
  | .hasUploads, d => (true, d)
  | .makeOutput, d => (true, d)
  | .read name, d => (d.lookup name, d)
  | .makeTemporary, d => (some (host.fresh d), d.insert (host.fresh d) .empty)
  | .fill temporary content, d => (true, d.insert temporary content)
  | .replace temporary name, d =>
    match d.lookup temporary with
    | none => (false, d)
    | some content => (true, (d.erase temporary).insert name content)
  | .discard temporary, d => ((), d.erase temporary)
  | .names, d => (some (host.listing d), d)
  | .remove name, d => if name ∈ d then (true, d.erase name) else (false, d)

/-- One step on the directory; a refused one fails and changes nothing. -/
def answer (host : Host) (s : DirectoryStep) (d : Directory) : s.Reply × Directory :=
  if host.refuses s then (FileTree.nowhere s, d) else host.perform s d

/-- Whether a host refuses no step. -/
def Reliable (host : Host) : Prop := ∀ s, host.refuses s = false

/-- A refused step. -/
theorem answer_of_refuses {host : Host} {s : DirectoryStep} (h : host.refuses s = true)
    (d : Directory) : host.answer s d = (FileTree.nowhere s, d) := by
  unfold answer
  rw [if_pos h]

/-- A step that is not refused. -/
theorem answer_of_not_refuses {host : Host} {s : DirectoryStep} (h : host.refuses s = false)
    (d : Directory) : host.answer s d = host.perform s d := by
  unfold answer
  rw [if_neg (by simp [h])]

theorem perform_replace (host : Host) (temporary name : String) (d : Directory) :
    host.perform (.replace temporary name) d
      = match d.lookup temporary with
        | none => (false, d)
        | some content => (true, (d.erase temporary).insert name content) := rfl

theorem perform_remove (host : Host) (name : String) (d : Directory) :
    host.perform (.remove name) d = if name ∈ d then (true, d.erase name) else (false, d) := rfl

/-- What a host does is something that can happen. -/
theorem mayAnswer_answer (host : Host) (s : DirectoryStep) (d : Directory) :
    s.MayAnswer d (host.answer s d).1 (host.answer s d).2 := by
  cases hs : host.refuses s with
  | true =>
    rw [answer_of_refuses hs]
    cases s with
    | hasUploads => rfl
    | makeOutput => rfl
    | read name => exact ⟨rfl, .inl rfl⟩
    | makeTemporary => exact .inl ⟨rfl, rfl⟩
    | fill temporary content => exact .inl ⟨rfl, rfl⟩
    | replace temporary name => exact .inl ⟨rfl, rfl⟩
    | discard temporary => exact .inl rfl
    | names => exact ⟨rfl, fun found h => by cases h⟩
    | remove name => exact .inl ⟨rfl, rfl⟩
  | false =>
    rw [answer_of_not_refuses hs]
    cases s with
    | hasUploads => rfl
    | makeOutput => rfl
    | read name => exact ⟨rfl, .inr rfl⟩
    | makeTemporary =>
      exact .inr ⟨host.fresh d, rfl, host.fresh_not_mem d, host.isScopeFile_fresh d, rfl⟩
    | fill temporary content => exact .inr ⟨content, rfl, fun _ => rfl⟩
    | replace temporary name =>
      rw [perform_replace]
      cases htemporary : d.lookup temporary with
      | none => exact .inl ⟨rfl, rfl⟩
      | some content => exact .inr ⟨content, rfl, htemporary, rfl⟩
    | discard temporary => exact .inr rfl
    | names =>
      refine ⟨rfl, fun found h name hname => ?_⟩
      obtain rfl := Option.some.inj h
      exact (host.mem_listing d name).mp hname
    | remove name =>
      rw [perform_remove]
      by_cases hmem : name ∈ d
      · rw [if_pos hmem]
        exact .inr ⟨rfl, rfl⟩
      · rw [if_neg hmem]
        exact .inl ⟨rfl, rfl⟩

/-! ## Plans of one step -/

section Run

open DirectoryPlan

variable (host : Host) (d : Directory)

/-- What a host answers to a plan of one step. -/
theorem run_step (s : DirectoryStep) :
    (Plan.ask s : DirectoryPlan s.Reply).run host.answer d
      = if host.refuses s then (FileTree.nowhere s, d) else host.perform s d := rfl

theorem run_hasUploads : hasUploads.run host.answer d = (!host.refuses .hasUploads, d) := by
  refine (run_step host d .hasUploads).trans ?_
  cases host.refuses .hasUploads <;> rfl

theorem run_makeOutput : makeOutput.run host.answer d = (!host.refuses .makeOutput, d) := by
  refine (run_step host d .makeOutput).trans ?_
  cases host.refuses .makeOutput <;> rfl

theorem run_read (name : String) :
    (read name).run host.answer d
      = (if host.refuses (.read name) then none else d.lookup name, d) := by
  refine (run_step host d (.read name)).trans ?_
  cases host.refuses (.read name) <;> rfl

theorem run_makeTemporary :
    makeTemporary.run host.answer d
      = if host.refuses .makeTemporary then (none, d)
        else (some (host.fresh d), d.insert (host.fresh d) .empty) := rfl

theorem run_fill (temporary : String) (content : ByteArray) :
    (fill temporary content).run host.answer d
      = if host.refuses (.fill temporary content) then (false, d)
        else (true, d.insert temporary content) := rfl

theorem run_replace {temporary : String} {content : ByteArray}
    (h : d.lookup temporary = some content) (name : String) :
    (replace temporary name).run host.answer d
      = if host.refuses (.replace temporary name) then (false, d)
        else (true, (d.erase temporary).insert name content) := by
  refine (run_step host d (.replace temporary name)).trans ?_
  rw [perform_replace, h]
  rfl

theorem run_discard (temporary : String) :
    (discard temporary).run host.answer d
      = ((), if host.refuses (.discard temporary) then d else d.erase temporary) := by
  refine (run_step host d (.discard temporary)).trans ?_
  cases host.refuses (.discard temporary) <;> rfl

theorem run_names :
    names.run host.answer d = (if host.refuses .names then none else some (host.listing d), d) := by
  refine (run_step host d .names).trans ?_
  cases host.refuses .names <;> rfl

theorem run_remove (name : String) :
    (remove name).run host.answer d
      = if host.refuses (.remove name) || name ∉ d then (false, d) else (true, d.erase name) := by
  refine (run_step host d (.remove name)).trans ?_
  rw [perform_remove]
  cases host.refuses (.remove name) <;> by_cases hmem : name ∈ d <;> simp [hmem] <;> rfl

theorem asked_hasUploads : hasUploads.asked host.answer d = [.hasUploads] := rfl

theorem asked_makeOutput : makeOutput.asked host.answer d = [.makeOutput] := rfl

theorem asked_read (name : String) : (read name).asked host.answer d = [.read name] := rfl

theorem asked_names : names.asked host.answer d = [.names] := rfl

end Run

/-! ## A plain host -/

/-- The length of the longest of some names. -/
def longest (names : List String) : Nat := names.foldr (fun name n => max name.length n) 0

theorem length_le_longest {names : List String} {name : String} (h : name ∈ names) :
    name.length ≤ longest names := by
  induction names with
  | nil => exact absurd h List.not_mem_nil
  | cons other names ih =>
    show name.length ≤ max other.length (longest names)
    rcases List.mem_cons.mp h with rfl | h
    · exact Nat.le_max_left _ _
    · exact Nat.le_trans (ih h) (Nat.le_max_right _ _)

/-- A name that is longer than all names in a directory. -/
def longName (d : Directory) : String :=
  ".tmp" ++ String.ofList (List.replicate (longest d.keys.sort) '0')

theorem longName_not_mem (d : Directory) : longName d ∉ d := by
  intro h
  have hle : (longName d).length ≤ longest d.keys.sort :=
    length_le_longest ((Finset.mem_sort _).mpr (Finmap.mem_keys.mpr h))
  have hlength : (longName d).length = 4 + longest d.keys.sort := by
    have hstart : ".tmp".length = 4 := rfl
    unfold longName
    rw [String.length_append, hstart, String.length_ofList, List.length_replicate]
  omega

/-- No style sheet has such a name, for the ending has a letter that the name has not. -/
theorem isScopeFile_longName (d : Directory) (lead : String) :
    isScopeFile lead (longName d) = false := by
  rw [Bool.eq_false_iff]
  intro h
  obtain ⟨digits, hname, -, -⟩ := (isScopeFile_iff lead _).mp h
  have hs : 's' ∈ (longName d).toList := by
    rw [hname]
    simp
  have hlist : (longName d).toList
      = ".tmp".toList ++ List.replicate (longest d.keys.sort) '0' := by
    unfold longName
    simp only [String.toList_append, String.toList_ofList]
  rw [hlist] at hs
  rcases List.mem_append.mp hs with hs | hs
  · exact absurd hs (show 's' ∉ ".tmp".toList by decide)
  · exact absurd (List.eq_of_mem_replicate hs) (show 's' ≠ '0' by decide)

/-- The host that refuses nothing, takes the shortest unused length for the names of temporary files
and lists a directory in the order of the names. -/
def plain : Host where
  fresh := longName
  listing d := d.keys.sort
  refuses _ := false
  fresh_not_mem := longName_not_mem
  isScopeFile_fresh := isScopeFile_longName
  mem_listing d name := by rw [Finset.mem_sort, Finmap.mem_keys]
  refuses_fill _ _ _ := rfl
  refuses_replace _ _ _ := rfl

theorem reliable_plain : plain.Reliable := fun _ => rfl

end Host

end ResponsiveStyle.Output

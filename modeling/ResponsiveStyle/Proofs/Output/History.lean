/-
# Compilations one after the other

Style sheets are compiled for scopes in any order, in a directory that may hold anything. In the end
every scope with a style sheet that is not blank has one file, and it holds the last of them
(`settled_of_lastSheet?`); a file of no such scope is as it was (`lookup_after`).
-/
import Mathlib.Data.List.Induction
import ResponsiveStyle.Proofs.Output.Compile

namespace ResponsiveStyle.Output

/-! ## Jobs -/

/-- A style sheet to compile for a scope. -/
structure Job where
  css : String
  scope : Scope

namespace Job

/-- Whether a job is for a scope and has something to write. -/
def concerns (s : Scope) (j : Job) : Bool := j.scope == s && !Text.isBlankText j.css

/-- The plan of a job. -/
def plan (hash : Hash) (c : Config) (j : Job) :
    DirectoryPlan (Except Error (Option Compilation)) :=
  tryCompile hash c j.css j.scope

end Job

/-- The last style sheet for a scope that is not blank. -/
def lastSheet? (s : Scope) (jobs : List Job) : Option String :=
  (jobs.reverse.find? (Job.concerns s)).map Job.css

theorem lastSheet?_concat (s : Scope) (jobs : List Job) (j : Job) :
    lastSheet? s (jobs ++ [j]) = if j.concerns s then some j.css else lastSheet? s jobs := by
  unfold lastSheet?
  rw [List.reverse_append, List.reverse_singleton, List.singleton_append, List.find?_cons]
  cases j.concerns s <;> rfl

namespace Host

/-- The directory behind jobs one after the other. -/
def after (host : Host) (hash : Hash) (c : Config) (d : Directory) (jobs : List Job) : Directory :=
  jobs.foldl (fun d j => ((j.plan hash c).run host.answer d).2) d

theorem after_concat (host : Host) (hash : Hash) (c : Config) (d : Directory) (jobs : List Job)
    (j : Job) :
    host.after hash c d (jobs ++ [j])
      = ((j.plan hash c).run host.answer (host.after hash c d jobs)).2 := by
  unfold after
  rw [List.foldl_append, List.foldl_cons, List.foldl_nil]

section Run

variable {host : Host} (hhost : host.Reliable) {hash : Hash}
  (hhash : ∀ content, IsDigest (hash content)) (c : Config)

include hhost hhash

/-! ## One job -/

/-- A job changes files of its scope only, and these only if it has something to write. -/
theorem lookup_job (j : Job) (d : Directory) {name : String}
    (h : ∀ lead, j.scope.lead? = .ok lead → j.concerns j.scope = true →
      isScopeFile lead name = false) :
    ((j.plan hash c).run host.answer d).2.lookup name = d.lookup name := by
  unfold Job.plan
  rcases tryCompile_cases hash c j.css j.scope with ⟨r, hplan, -⟩ | ⟨lead, hcss, hlead⟩
  · rw [hplan, Plan.run_pure]
  · have hscope : isScopeFile lead name = false := h lead hlead (by simp [Job.concerns, hcss])
    exact lookup_tryCompile_of_isScopeFile_eq_false hhost hash hhash c hcss hlead d hscope

/-- A job that has something to write leaves its scope with one file. -/
theorem settled_job (j : Job) (d : Directory) {lead : String} (hlead : j.scope.lead? = .ok lead)
    (h : j.concerns j.scope = true) :
    ((j.plan hash c).run host.answer d).2.Settled hash lead j.css := by
  have hcss : Text.isBlankText j.css = false := by simpa [Job.concerns] using h
  exact settled_tryCompile hhost c hcss hlead hhash d

/-! ## All jobs -/

/-- The last style sheet of a scope is what its file is named for. -/
theorem settled_of_lastSheet? (d : Directory) (jobs : List Job) {s : Scope} {lead css : String}
    (hlead : s.lead? = .ok lead) (h : lastSheet? s jobs = some css) :
    (host.after hash c d jobs).Settled hash lead css := by
  induction jobs using List.reverseRecOn with
  | nil => cases h
  | append_singleton jobs j ih =>
    rw [lastSheet?_concat] at h
    rw [after_concat]
    cases hj : j.concerns s with
    | true =>
      rw [if_pos hj] at h
      obtain rfl := Option.some.inj h
      have hscope : j.scope = s := by
        unfold Job.concerns at hj
        exact beq_iff_eq.mp (Bool.and_eq_true_iff.mp hj).1
      subst hscope
      exact settled_job hhost hhash c j _ hlead hj
    | false =>
      rw [if_neg (by simp [hj])] at h
      refine (ih h).congr fun name hname => ?_
      refine lookup_job hhost hhash c j _ fun lead' hlead' hwrites => ?_
      -- a job that writes here is one of another scope, which has another lead
      refine isScopeFile_eq_false hname fun hsame => ?_
      subst hsame
      rw [scope_unique hlead hlead', hwrites] at hj
      cases hj

/-- A file that belongs to no scope with a style sheet is as it was. -/
theorem lookup_after (d : Directory) (jobs : List Job) {name : String}
    (h : ∀ s lead, s.lead? = .ok lead → (lastSheet? s jobs).isSome = true →
      isScopeFile lead name = false) :
    (host.after hash c d jobs).lookup name = d.lookup name := by
  induction jobs using List.reverseRecOn with
  | nil => rfl
  | append_singleton jobs j ih =>
    rw [after_concat, lookup_job hhost hhash c j]
    · refine ih fun s lead hlead hs => h s lead hlead ?_
      rw [lastSheet?_concat]
      split
      · rfl
      · exact hs
    · intro lead hlead hj
      refine h j.scope lead hlead ?_
      rw [lastSheet?_concat, if_pos hj]
      rfl

/-- A job that is done again only looks, and returns an equal style sheet. -/
theorem job_again {j : Job} {d d' : Directory} {r : Except Error (Option Compilation)}
    (h : (j.plan hash c).run host.answer d = (r, d')) :
    (j.plan hash c).run host.answer d'
        = (r.map (Option.map fun k => ⟨k.sheet, false, 0⟩), d') ∧
      ∀ s ∈ (j.plan hash c).asked host.answer d', s.isChange = false := by
  unfold Job.plan at h ⊢
  obtain ⟨rfl, rfl⟩ := Prod.mk.inj h
  rcases tryCompile_cases hash c j.css j.scope with ⟨r, hplan, hnone⟩ | ⟨lead, hcss, hlead⟩
  · simp only [hplan, Plan.run_pure, Plan.asked_pure]
    refine ⟨?_, fun s hs => absurd hs List.not_mem_nil⟩
    match r, hnone with
    | .error e, _ => rfl
    | .ok none, _ => rfl
    | .ok (some k), hnone => exact absurd rfl (hnone k)
  · have hsettled := settled_tryCompile hhost c hcss hlead hhash d
    obtain ⟨written, removed, hfirst⟩ := tryCompile_of_reliable hhost hash c hcss hlead d
    obtain ⟨hagain, hasked⟩ := tryCompile_of_settled hhost c hcss hlead hsettled
    refine ⟨?_, hasked⟩
    rw [hagain, hfirst]
    rfl

end Run

/-- On a reliable host, in a directory that holds anything, jobs leave every scope that they have
something to write for with one file, which is named for the last of its style sheets and holds a
content with the digest of it; no other file is touched; and the last job done again only looks and
returns an equal style sheet. -/
theorem settled_after {host : Host} (hhost : host.Reliable) {hash : Hash}
    (hhash : ∀ content, IsDigest (hash content)) (c : Config) (d : Directory) (jobs : List Job) :
    (∀ (s : Scope) (lead css : String), s.lead? = .ok lead → lastSheet? s jobs = some css →
        (host.after hash c d jobs).Settled hash lead css) ∧
      (∀ name, (∀ s lead, s.lead? = .ok lead → (lastSheet? s jobs).isSome = true →
          isScopeFile lead name = false) →
        (host.after hash c d jobs).lookup name = d.lookup name) ∧
      ∀ before j, jobs = before ++ [j] →
        let first := (j.plan hash c).run host.answer (host.after hash c d before)
        first.2 = host.after hash c d jobs ∧
          (∀ lead, j.scope.lead? = .ok lead → Text.isBlankText j.css = false →
            ∃ written removed,
              first.1 = .ok (some ⟨sheetFor hash c lead j.css, written, removed⟩)) ∧
          (j.plan hash c).run host.answer (host.after hash c d jobs)
            = (first.1.map (Option.map fun k => ⟨k.sheet, false, 0⟩), host.after hash c d jobs) ∧
          ∀ s ∈ (j.plan hash c).asked host.answer (host.after hash c d jobs),
            s.isChange = false := by
  refine ⟨fun s lead css hlead h => settled_of_lastSheet? hhost hhash c d jobs hlead h,
    fun name h => lookup_after hhost hhash c d jobs h, ?_⟩
  rintro before j rfl
  rw [after_concat]
  refine ⟨rfl, fun lead hlead hcss => ?_, job_again hhost hhash c rfl⟩
  exact tryCompile_of_reliable hhost hash c hcss hlead _

/-- Two scopes, one of them with an older file and with a blank style sheet at the end. -/
theorem settled_after_two_scopes :
    let jobs : List Job := [⟨"a {}", .node "7"⟩, ⟨"b {}", .site⟩, ⟨" ", .node "7"⟩]
    let d : Directory := Finmap.singleton "post-7-0123456789ab.css" "x".toUTF8
    plain.Reliable ∧ (∀ content, IsDigest (contentHash content)) ∧
      (plain.after contentHash .standard d jobs).Settled contentHash "post-7-" "a {}" ∧
      (plain.after contentHash .standard d jobs).Settled contentHash "global-" "b {}" := by
  intro jobs d
  have h := (settled_after reliable_plain isDigest_contentHash .standard d jobs).1
  exact ⟨reliable_plain, isDigest_contentHash, h (.node "7") "post-7-" _ (by decide) (by decide),
    h .site "global-" _ (by decide) (by decide)⟩

end Host

end ResponsiveStyle.Output

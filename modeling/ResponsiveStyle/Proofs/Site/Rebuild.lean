/-
# Nodes that are rebuilt one by one

A node is rebuilt in the same way whatever is left in the pass that is handed to it
(`rebuildNode_eq`), and it changes files of its scope only, by what these files are
(`lookup_rebuilt_of_ne`, `lookup_rebuilt_congr`). So of several nodes each has in the end the files
that it would have if it were rebuilt alone (`lookup_rebuiltEach`).
-/
import ResponsiveStyle.Proofs.Output.Compile
import ResponsiveStyle.Site.Rebuild

namespace ResponsiveStyle.Site

open Output (Compilation Directory DirectoryPlan DirectoryStep Hash Host IsDigest Scope compile
  contentHash isScopeFile tryCompile)
open Sheet (Pass)

/-! ## The files of a node -/

namespace Node

/-- What the names of the files of a node begin with. -/
def lead (n : Node) : String := "post-" ++ Text.natText n.id ++ "-"

/-- Every node has a name for its files, for the digits of a number may name a file. -/
theorem lead?_scope (n : Node) : n.scope.lead? = .ok n.lead := by
  have hid : Scope.isFileId (Text.natText n.id) = true := by
    unfold Scope.isFileId
    rw [Bool.and_eq_true, Bool.not_eq_true', ← Bool.not_eq_true, String.isEmpty_iff,
      List.all_eq_true]
    unfold Text.natText
    refine ⟨fun h => Text.digits_ne_nil n.id ?_, fun ch hch => ?_⟩
    · simpa using congrArg String.toList h
    · rw [String.toList_ofList] at hch
      have hdigit : ch.isDigit = true := Text.isDigit_of_mem_digits hch
      simp [Scope.isFileChar, Char.isAlphanum, hdigit]
  exact if_pos hid

/-- Nodes of different ids have different files. -/
theorem id_eq_of_lead_eq {m n : Node} (h : m.lead = n.lead) : m.id = n.id := by
  have hscope : m.scope = n.scope :=
    Output.scope_unique m.lead?_scope (h ▸ n.lead?_scope)
  exact Text.natText_inj.mp (Scope.node.inj hscope)

end Node

namespace Source

variable (hash : Hash) (c : Config) (source : Source)

/-! ## One node -/

/-- The style sheet that a node renders to, unless it fails. -/
def sheet? (n : Node) : Option String :=
  match source.render n .empty with
  | (_, some _) => none
  | (p, none) => some p.css

/-- A node is rebuilt by compiling its style sheet, whatever is left in the pass. -/
theorem rebuildNode_eq (n : Node) (p : Pass) :
    source.rebuildNode hash c n p
      = match source.sheet? n with
        | none => pure (none, .empty)
        | some css => do return (← compile hash c css n.scope, .empty) := by
  show (match source.render n .empty with
    | (q, some _) => pure (none, q.reset)
    | (q, none) => Output.flush hash c q n.scope : DirectoryPlan (Option Compilation × Pass)) = _
  unfold sheet?
  rcases source.render n .empty with ⟨q, _ | e⟩
  · rfl
  · rfl

/-- The pass is empty behind every node. -/
theorem pass_rebuildNode {σ : Type} (answer : (s : DirectoryStep) → σ → s.Reply × σ) (n : Node)
    (p : Pass) (state : σ) : ((source.rebuildNode hash c n p).run answer state).1.2 = .empty := by
  rw [rebuildNode_eq]
  cases source.sheet? n with
  | none => rfl
  | some css => simp only [Output.Plan.run_monadBind, Output.Plan.run_pure]

/-- The style sheet of a node if there is something to write. -/
def written? (n : Node) : Option String :=
  (source.sheet? n).filter fun css => !Text.isBlankText css

variable {source} in
theorem isBlankText_of_written? {n : Node} {css : String} (h : source.written? n = some css) :
    Text.isBlankText css = false := by
  have hcss := (Option.filter_eq_some_iff.mp h).2
  rwa [Bool.not_eq_true'] at hcss

section Run

variable (host : Host)

/-- The directory behind a node that is rebuilt alone. -/
def rebuilt (n : Node) (d : Directory) : Directory :=
  ((source.rebuildNode hash c n .empty).run host.answer d).2

/-- A node is rebuilt by a compilation, if it has something to write. -/
theorem rebuilt_eq (n : Node) (d : Directory) :
    source.rebuilt hash c host n d
      = match source.written? n with
        | none => d
        | some css => ((tryCompile hash c css n.scope).run host.answer d).2 := by
  unfold rebuilt written?
  rw [rebuildNode_eq]
  cases source.sheet? n with
  | none => rfl
  | some css =>
    simp only [Output.Plan.run_monadBind, Output.Plan.run_pure, host.run_compile]
    cases hcss : Text.isBlankText css with
    | true =>
      rw [Output.tryCompile_of_isBlankText hash c hcss]
      simp [Option.filter, hcss]
    | false => simp [Option.filter, hcss]

/-- What a node leaves behind under the name of a file of a scope. -/
theorem lookup_rebuilt (n : Node) (d : Directory) {lead name : String}
    (hname : isScopeFile lead name = true) :
    (source.rebuilt hash c host n d).lookup name
      = match source.written? n with
        | none => d.lookup name
        | some css => host.compiled hash n.lead css d.lookup name := by
  have hfresh : name ≠ host.fresh d := by
    rintro rfl
    rw [host.isScopeFile_fresh d lead] at hname
    cases hname
  rw [rebuilt_eq]
  cases hwritten : source.written? n with
  | none => rfl
  | some css =>
    exact host.lookup_tryCompile hash c (isBlankText_of_written? hwritten) n.lead?_scope d
      (.inr hfresh)

variable (hhash : ∀ content, IsDigest (hash content))

include hhash

/-- A node leaves the files of other nodes as they are. -/
theorem lookup_rebuilt_of_ne {m n : Node} (h : m.id ≠ n.id) (d : Directory) {name : String}
    (hname : isScopeFile n.lead name = true) :
    (source.rebuilt hash c host m d).lookup name = d.lookup name := by
  have hlead : n.lead ≠ m.lead := fun hlead => h (Node.id_eq_of_lead_eq hlead.symm)
  rw [lookup_rebuilt hash c source host m d hname]
  cases source.written? m with
  | none => rfl
  | some css =>
    exact host.compiled_of_isScopeFile_eq_false hhash _ (Output.isScopeFile_eq_false hname hlead)

/-- What the files of a node are after it was rebuilt depends on what they were. -/
theorem lookup_rebuilt_congr (n : Node) {d d' : Directory}
    (h : ∀ name, isScopeFile n.lead name = true → d.lookup name = d'.lookup name) {name : String}
    (hname : isScopeFile n.lead name = true) :
    (source.rebuilt hash c host n d).lookup name
      = (source.rebuilt hash c host n d').lookup name := by
  rw [lookup_rebuilt hash c source host n d hname, lookup_rebuilt hash c source host n d' hname]
  cases source.written? n with
  | none => exact h name hname
  | some css =>
    exact host.compiled_congr (h _ (Output.isScopeFile_fileName n.lead (hhash _))) (h name hname)

/-! ## All nodes -/

/-- The directory behind nodes that are rebuilt one by one. -/
def rebuiltEach (ns : List Node) (d : Directory) : Directory :=
  ns.foldl (fun d n => source.rebuilt hash c host n d) d

omit hhash in
/-- Nodes are rebuilt one by one and counted, whatever is left in the pass. -/
theorem run_rebuildEach (ns : List Node) (p : Pass) (d : Directory) :
    (source.rebuildEach hash c ns p).run host.answer d
      = (ns.length, source.rebuiltEach hash c host ns d) := by
  induction ns generalizing p d with
  | nil => rfl
  | cons n ns ih =>
    have hnode : ((source.rebuildNode hash c n p).run host.answer d).2
        = source.rebuilt hash c host n d := by
      unfold rebuilt
      rw [rebuildNode_eq, rebuildNode_eq hash c source n .empty]
    show ((source.rebuildNode hash c n p >>= fun r => do
      return (← source.rebuildEach hash c ns r.2) + 1).run host.answer d) = _
    rw [Output.Plan.run_monadBind, Output.Plan.run_monadBind, ih, hnode]
    rfl

/-- Nodes leave the files of a node that is not one of them as they are. -/
theorem lookup_rebuiltEach_of_not_mem {ns : List Node} {n : Node} (h : n.id ∉ ns.map Node.id)
    (d : Directory) {name : String} (hname : isScopeFile n.lead name = true) :
    (source.rebuiltEach hash c host ns d).lookup name = d.lookup name := by
  induction ns generalizing d with
  | nil => rfl
  | cons m ns ih =>
    rw [List.map_cons, List.mem_cons, not_or] at h
    show (source.rebuiltEach hash c host ns (source.rebuilt hash c host m d)).lookup name = _
    rw [ih h.2, lookup_rebuilt_of_ne hash c source host hhash (Ne.symm h.1) d hname]

/-- Of nodes with different ids each has in the end the files that it would have if it were rebuilt
alone. -/
theorem lookup_rebuiltEach {ns : List Node} (hids : (ns.map Node.id).Nodup) {n : Node}
    (hn : n ∈ ns) (d : Directory) {name : String} (hname : isScopeFile n.lead name = true) :
    (source.rebuiltEach hash c host ns d).lookup name
      = (source.rebuilt hash c host n d).lookup name := by
  induction ns generalizing d with
  | nil => exact absurd hn List.not_mem_nil
  | cons m ns ih =>
    rw [List.map_cons, List.nodup_cons] at hids
    show (source.rebuiltEach hash c host ns (source.rebuilt hash c host m d)).lookup name = _
    rcases List.mem_cons.mp hn with rfl | hn
    · -- all nodes behind `n` are other ones
      exact lookup_rebuiltEach_of_not_mem hash c source host hhash hids.1 _ hname
    · -- the node in front of `n` leaves the files by which `n` goes
      have hne : m.id ≠ n.id := fun h => hids.1 (h ▸ List.mem_map_of_mem hn)
      rw [ih hids.2 hn]
      exact lookup_rebuilt_congr hash c source host hhash n
        (fun _ h => lookup_rebuilt_of_ne hash c source host hhash hne d h) hname

end Run

variable {source} in
/-- Eligible nodes have different ids if all nodes have. -/
theorem nodup_eligible (h : (source.nodes.map Node.id).Nodup) :
    (source.eligible.map Node.id).Nodup :=
  h.sublist (List.filter_sublist.map Node.id)

/-- To rebuild a site is to rebuild the eligible nodes one by one and count them. -/
theorem run_rebuildAll (host : Host) (d : Directory) :
    (source.rebuildAll hash c).run host.answer d
      = (source.eligible.length, source.rebuiltEach hash c host source.eligible d) :=
  run_rebuildEach hash c source host source.eligible .empty d

/-- Passes do not leak. A node is rebuilt in the same way in whatever pass, and the pass behind it
is empty; one that fails to render asks for no step; and of nodes with different ids, whichever of
them fail and whatever steps the host refuses, each that is eligible has in the end the files that
it would have if it were rebuilt alone. -/
theorem passes_apart (hhash : ∀ content, IsDigest (hash content)) :
    (∀ n p, source.rebuildNode hash c n p = source.rebuildNode hash c n .empty) ∧
      (∀ (σ : Type) (answer : (s : DirectoryStep) → σ → s.Reply × σ) n p state,
        ((source.rebuildNode hash c n p).run answer state).1.2 = .empty) ∧
      (∀ n p e, (source.render n .empty).2 = some e →
        source.rebuildNode hash c n p = .done (none, .empty)) ∧
      ∀ (host : Host) (d : Directory), (source.nodes.map Node.id).Nodup →
        ∀ n ∈ source.nodes, n.status.isEligible = true →
          ∀ name, isScopeFile n.lead name = true →
            ((source.rebuildAll hash c).run host.answer d).2.lookup name
              = ((source.rebuildNode hash c n .empty).run host.answer d).2.lookup name := by
  refine ⟨fun n p => ?_, fun σ answer n p state => pass_rebuildNode hash c source answer n p state,
    fun n p e he => ?_, fun host d hids n hn hstatus name hname => ?_⟩
  · rw [rebuildNode_eq, rebuildNode_eq hash c source n .empty]
  · rw [rebuildNode_eq]
    unfold sheet?
    rcases hrender : source.render n .empty with ⟨q, _ | e'⟩
    · rw [hrender] at he
      cases he
    · rfl
  · have heligible : n ∈ source.eligible := List.mem_filter.mpr ⟨hn, hstatus⟩
    rw [run_rebuildAll]
    exact lookup_rebuiltEach hash c source host hhash (nodup_eligible hids) heligible d hname

/-- Two nodes that render the same text, of which the first one then fails. -/
theorem passes_apart_behind_failure :
    let n : Node := ⟨2, .draft, []⟩
    let source : Source :=
      ⟨[⟨1, .published, []⟩, n], fun m p => (p.push "a {}", if m.id == 1 then some .io else none)⟩
    let name := Output.fileName n.lead (contentHash "a {}\n".toUTF8)
    (∀ content, IsDigest (contentHash content)) ∧ (source.nodes.map Node.id).Nodup ∧
      ((source.rebuildAll contentHash .standard).run Host.plain.answer ∅).2.lookup name
        = ((source.rebuildNode contentHash .standard n .empty).run
          Host.plain.answer ∅).2.lookup name := by
  intro n source name
  have hids : (source.nodes.map Node.id).Nodup := by decide
  have hn : n ∈ source.nodes := by simp [source]
  have hname : isScopeFile n.lead name = true :=
    Output.isScopeFile_fileName n.lead (Output.isDigest_contentHash _)
  exact ⟨Output.isDigest_contentHash, hids,
    (passes_apart contentHash .standard source Output.isDigest_contentHash).2.2.2 Host.plain ∅ hids
      n hn rfl name hname⟩

end Source

end ResponsiveStyle.Site

/-
# A site that is rebuilt on a reliable host

Every node that has something to write is left with one file (`settled_rebuiltEach`), and all files
that belong to no such node are as they were (`lookup_rebuiltEach_of_forall`). This says what stands
under every name, so the order of the nodes does not matter (`rebuiltEach_perm`), and where all of
it holds already nothing is written or removed (`rebuildEach_of_settled`).
-/
import ResponsiveStyle.Proofs.Site.Blocks
import ResponsiveStyle.Proofs.Site.Rebuild

namespace ResponsiveStyle.Site

open Output (Directory DirectoryStep Hash Host IsDigest compile contentHash fileName isScopeFile
  tryCompile)
open Sheet (Pass)
open Text (isBlankText joined)

namespace Source

variable {hash : Hash} (c : Config) {source : Source} {host : Host} (hhost : host.Reliable)

include hhost

/-! ## One node -/

/-- A node leaves the files that are not of its scope, and all files if it has nothing to write. -/
theorem lookup_rebuilt_of_forall (hhash : ∀ content, IsDigest (hash content)) {n : Node}
    (d : Directory) {name : String}
    (h : (source.written? n).isSome = true → isScopeFile n.lead name = false) :
    (source.rebuilt hash c host n d).lookup name = d.lookup name := by
  rw [rebuilt_eq]
  cases hwritten : source.written? n with
  | none => rfl
  | some css =>
    exact Host.lookup_tryCompile_of_isScopeFile_eq_false hhost hash hhash c
      (isBlankText_of_written? hwritten) n.lead?_scope d (h (by rw [hwritten]; rfl))

/-- A node that has something to write is left with one file. -/
theorem settled_rebuilt (hhash : ∀ content, IsDigest (hash content)) {n : Node} {css : String}
    (h : source.written? n = some css) (d : Directory) :
    (source.rebuilt hash c host n d).Settled hash n.lead css := by
  rw [rebuilt_eq, h]
  exact Host.settled_tryCompile hhost c (isBlankText_of_written? h) n.lead?_scope hhash d

/-- The file of a node holds its style sheet, if no other content of the digest stood there. -/
theorem lookup_target_rebuilt (hhash : ∀ content, IsDigest (hash content)) {n : Node} {css : String}
    (h : source.written? n = some css) {d : Directory}
    (hfree : ∀ content, d.lookup (fileName n.lead (hash css.toUTF8)) = some content →
      hash content = hash css.toUTF8 → content = css.toUTF8) :
    (source.rebuilt hash c host n d).lookup (fileName n.lead (hash css.toUTF8))
      = some css.toUTF8 := by
  have htarget := Output.isScopeFile_fileName n.lead (hhash css.toUTF8)
  rw [lookup_rebuilt hash c source host n d htarget, h]
  simp only
  rw [Host.compiled_of_reliable hhost, if_pos rfl]
  cases hfound : d.lookup (fileName n.lead (hash css.toUTF8)) with
  | none => rfl
  | some content =>
    by_cases hsame : hash content = hash css.toUTF8
    · rw [hfree content hfound hsame, Option.filter_some, if_pos (beq_self_eq_true _)]
      rfl
    · rw [Option.filter_some, if_neg (by simpa using hsame)]
      rfl

/-- A node whose files are right is only looked at. -/
theorem rebuildNode_of_settled {n : Node} {d : Directory}
    (hd : ∀ css, source.written? n = some css → d.Settled hash n.lead css) (p : Pass) :
    ((source.rebuildNode hash c n p).run host.answer d).2 = d ∧
      ∀ s ∈ (source.rebuildNode hash c n p).asked host.answer d, s.isChange = false := by
  rw [rebuildNode_eq]
  cases hsheet : source.sheet? n with
  | none => exact ⟨rfl, fun s hs => absurd hs List.not_mem_nil⟩
  | some css =>
    simp only [Output.Plan.run_monadBind, Output.Plan.run_pure, Output.Plan.asked_monadBind,
      Output.Plan.asked_pure, List.append_nil, host.run_compile, host.asked_compile]
    cases hcss : isBlankText css with
    | true =>
      rw [Output.tryCompile_of_isBlankText hash c hcss]
      exact ⟨rfl, fun s hs => absurd hs List.not_mem_nil⟩
    | false =>
      have hwritten : source.written? n = some css := by
        unfold written?
        simp [hsheet, Option.filter, hcss]
      obtain ⟨hrun, hasked⟩ :=
        Host.tryCompile_of_settled hhost c hcss n.lead?_scope (hd css hwritten)
      exact ⟨by rw [hrun], hasked⟩

/-! ## All nodes -/

/-- Nodes leave the files that are of no scope of a node that has something to write. -/
theorem lookup_rebuiltEach_of_forall (hhash : ∀ content, IsDigest (hash content)) {ns : List Node}
    (d : Directory) {name : String}
    (h : ∀ n ∈ ns, (source.written? n).isSome = true → isScopeFile n.lead name = false) :
    (source.rebuiltEach hash c host ns d).lookup name = d.lookup name := by
  induction ns generalizing d with
  | nil => rfl
  | cons n ns ih =>
    show (source.rebuiltEach hash c host ns (source.rebuilt hash c host n d)).lookup name = _
    rw [ih _ fun m hm => h m (List.mem_cons_of_mem _ hm)]
    exact lookup_rebuilt_of_forall c hhost hhash d (h n List.mem_cons_self)

/-- Each node that has something to write is left with one file. -/
theorem settled_rebuiltEach (hhash : ∀ content, IsDigest (hash content)) {ns : List Node}
    (hids : (ns.map Node.id).Nodup) {n : Node} (hn : n ∈ ns) {css : String}
    (h : source.written? n = some css) (d : Directory) :
    (source.rebuiltEach hash c host ns d).Settled hash n.lead css :=
  (settled_rebuilt c hhost hhash h d).congr fun _ hname =>
    lookup_rebuiltEach hash c source host hhash hids hn d hname

/-- What stands under the name of a file of a node does not depend on the host. -/
theorem lookup_rebuilt_host {host' : Host} (hhost' : host'.Reliable) (n : Node) (d : Directory)
    {name : String} (hname : isScopeFile n.lead name = true) :
    (source.rebuilt hash c host n d).lookup name
      = (source.rebuilt hash c host' n d).lookup name := by
  rw [lookup_rebuilt hash c source host n d hname, lookup_rebuilt hash c source host' n d hname]
  cases source.written? n with
  | none => rfl
  | some css =>
    simp only
    rw [Host.compiled_of_reliable hhost, Host.compiled_of_reliable hhost']

/-- The directory depends neither on the order of the nodes nor on the host. -/
theorem rebuiltEach_perm (hhash : ∀ content, IsDigest (hash content)) {host' : Host}
    (hhost' : host'.Reliable) {ns ns' : List Node} (hns : ns.Perm ns')
    (hids : (ns.map Node.id).Nodup) (d : Directory) :
    source.rebuiltEach hash c host ns d = source.rebuiltEach hash c host' ns' d := by
  have hids' : (ns'.map Node.id).Nodup := (hns.map Node.id).nodup_iff.mp hids
  refine Finmap.ext_lookup fun name => ?_
  by_cases hname : ∃ n ∈ ns, isScopeFile n.lead name = true
  · obtain ⟨n, hn, hname⟩ := hname
    rw [lookup_rebuiltEach hash c source host hhash hids hn d hname,
      lookup_rebuiltEach hash c source host' hhash hids' (hns.mem_iff.mp hn) d hname]
    exact lookup_rebuilt_host c hhost hhost' n d hname
  · have hother : ∀ n ∈ ns, isScopeFile n.lead name = false := fun n hn =>
      Bool.eq_false_iff.mpr fun h => hname ⟨n, hn, h⟩
    rw [lookup_rebuiltEach_of_forall c hhost hhash d fun n hn _ => hother n hn,
      lookup_rebuiltEach_of_forall c hhost' hhash d fun n hn _ => hother n (hns.mem_iff.mpr hn)]

/-- Nodes whose files are all right are only looked at. -/
theorem rebuildEach_of_settled {ns : List Node} {d : Directory}
    (hd : ∀ n ∈ ns, ∀ css, source.written? n = some css → d.Settled hash n.lead css) (p : Pass) :
    (source.rebuildEach hash c ns p).run host.answer d = (ns.length, d) ∧
      ∀ s ∈ (source.rebuildEach hash c ns p).asked host.answer d, s.isChange = false := by
  induction ns generalizing p with
  | nil => exact ⟨rfl, fun s hs => absurd hs List.not_mem_nil⟩
  | cons n ns ih =>
    obtain ⟨hrun, hasked⟩ := rebuildNode_of_settled c hhost (hd n List.mem_cons_self) p
    have hrest := ih fun m hm => hd m (List.mem_cons_of_mem _ hm)
    have hplan : source.rebuildEach hash c (n :: ns) p
        = source.rebuildNode hash c n p >>= fun r => do
          return (← source.rebuildEach hash c ns r.2) + 1 := rfl
    rw [hplan]
    simp only [Output.Plan.run_monadBind, Output.Plan.run_pure, Output.Plan.asked_monadBind,
      Output.Plan.asked_pure, List.append_nil, hrun]
    obtain ⟨hruns, haskeds⟩ := hrest ((source.rebuildNode hash c n p).run host.answer d).1.2
    refine ⟨by rw [hruns]; rfl, fun s hs => ?_⟩
    rcases List.mem_append.mp hs with hs | hs
    · exact hasked s hs
    · exact haskeds s hs

end Source

/-! ## Nodes that are rendered from their blocks -/

/-- Whether a status is one of those that get a style sheet. -/
theorem Status.isEligible_eq (s : Status) : s.isEligible = (s != .trashed && s != .autoDraft) := by
  cases s <;> rfl

namespace Node

/-- Whether a node is to have a file: it is neither in the trash nor an automatic draft, and its
style sheet is not blank. -/
def IsFiled (c : Config) (n : Node) : Prop :=
  n.status ≠ .trashed ∧ n.status ≠ .autoDraft ∧ isBlankText (n.sheet c) = false

theorem isFiled_iff {c : Config} {nodes : List Node} {n : Node} (hn : n ∈ nodes) :
    n.IsFiled c ↔ n ∈ (Source.ofNodes c nodes).eligible ∧
      (Source.ofNodes c nodes).written? n = some (n.sheet c) := by
  have heligible : n ∈ (Source.ofNodes c nodes).eligible ↔
      n.status ≠ .trashed ∧ n.status ≠ .autoDraft := by
    have hnodes : n ∈ (Source.ofNodes c nodes).nodes := hn
    unfold Source.eligible
    rw [List.mem_filter, and_iff_right hnodes, Status.isEligible_eq, Bool.and_eq_true, bne_iff_ne,
      bne_iff_ne]
  have hwritten : (Source.ofNodes c nodes).written? n = some (n.sheet c) ↔
      isBlankText (n.sheet c) = false := by
    show (some (n.sheet c)).filter _ = _ ↔ _
    simp [Option.filter]
  unfold IsFiled
  rw [heligible, hwritten, and_assoc]

end Node

/-- The style sheet of a node that is to have a file. -/
theorem Node.sheet_of_isFiled {c : Config} {n : Node} (h : n.IsFiled c) :
    n.sheet c = joined "\n\n" (n.fragments c) ++ "\n" := by
  have hfragments := h.2.2
  rw [Node.isBlankText_sheet] at hfragments
  rw [Node.sheet_eq, hfragments]
  rfl

/-- The nodes that have something to write are those that are to have a file. -/
theorem Source.isFiled_of_written? {c : Config} {nodes : List Node} {n : Node}
    (hn : n ∈ (Source.ofNodes c nodes).eligible)
    (h : ((Source.ofNodes c nodes).written? n).isSome = true) : n ∈ nodes ∧ n.IsFiled c := by
  have hmem : n ∈ nodes := (List.mem_filter.mp hn).1
  obtain ⟨css, hcss⟩ := Option.isSome_iff_exists.mp h
  have hsheet : n.sheet c = css := Option.some.inj (Option.filter_eq_some_iff.mp hcss).1
  exact ⟨hmem, (Node.isFiled_iff hmem).mpr ⟨hn, hsheet ▸ hcss⟩⟩

/-- As many nodes are eligible as are neither in the trash nor automatic drafts. -/
theorem Source.length_eligible (c : Config) (nodes : List Node) :
    (Source.ofNodes c nodes).eligible.length
      = nodes.countP fun n => n.status != .trashed && n.status != .autoDraft := by
  rw [List.countP_eq_length_filter]
  exact congrArg List.length (List.filter_congr fun n _ => Status.isEligible_eq n.status)

/-- The contents whose digests may be compared: those of files that are there, and the style sheets
of nodes that are to have a file. -/
def contentsInPlay (c : Config) (nodes : List Node) (d : Directory) : Set ByteArray :=
  {content | (∃ name, d.lookup name = some content) ∨
    ∃ n ∈ nodes, n.IsFiled c ∧ content = (n.sheet c).toUTF8}

/-- A site is rebuilt on a reliable host in a directory that holds anything, where no two contents
have the same digest. All nodes that are eligible are counted; each one that is to have a file has
one, which holds the distinct fragments of its blocks in order; all other files are as they were;
the order of the nodes does not matter; and to do it again writes and removes nothing. -/
theorem rebuildAll_ofNodes {hash : Hash} (hhash : ∀ content, IsDigest (hash content)) (c : Config)
    {host : Host} (hhost : host.Reliable) (nodes : List Node) (hids : (nodes.map Node.id).Nodup)
    (d : Directory) (hfree : Set.InjOn hash (contentsInPlay c nodes d)) :
    let rebuild (nodes : List Node) := (Source.ofNodes c nodes).rebuildAll hash c
    let d' := ((rebuild nodes).run host.answer d).2
    ((rebuild nodes).run host.answer d).1
        = nodes.countP (fun n => n.status != .trashed && n.status != .autoDraft) ∧
      (∀ n ∈ nodes, n.IsFiled c →
        n.sheet c = joined "\n\n" (n.fragments c) ++ "\n" ∧
          (∀ name, name ∈ d' ∧ isScopeFile n.lead name = true ↔
            name = fileName n.lead (hash (n.sheet c).toUTF8)) ∧
          d'.lookup (fileName n.lead (hash (n.sheet c).toUTF8)) = some (n.sheet c).toUTF8) ∧
      (∀ name, (∀ n ∈ nodes, n.IsFiled c → isScopeFile n.lead name = false) →
        d'.lookup name = d.lookup name) ∧
      (∀ (host' : Host) (nodes' : List Node), host'.Reliable → nodes.Perm nodes' →
        (rebuild nodes').run host'.answer d = (rebuild nodes).run host.answer d) ∧
      (rebuild nodes).run host.answer d' = (rebuild nodes).run host.answer d ∧
      ∀ s ∈ (rebuild nodes).asked host.answer d', s.isChange = false := by
  intro rebuild d'
  have heligible : ((Source.ofNodes c nodes).eligible.map Node.id).Nodup :=
    Source.nodup_eligible hids
  have hd' : d' = (Source.ofNodes c nodes).rebuiltEach hash c host
      (Source.ofNodes c nodes).eligible d :=
    congrArg Prod.snd (Source.run_rebuildAll hash c (Source.ofNodes c nodes) host d)
  have hrun : (rebuild nodes).run host.answer d
      = ((Source.ofNodes c nodes).eligible.length, d') := by
    rw [hd']
    exact Source.run_rebuildAll hash c (Source.ofNodes c nodes) host d
  have hsettled : ∀ n ∈ (Source.ofNodes c nodes).eligible, ∀ css,
      (Source.ofNodes c nodes).written? n = some css → d'.Settled hash n.lead css := by
    intro n hn css hwritten
    rw [hd']
    exact Source.settled_rebuiltEach c hhost hhash heligible hn hwritten d
  obtain ⟨hagain, hasked⟩ := Source.rebuildEach_of_settled c hhost hsettled .empty
  refine ⟨?_, fun n hn hfiled => ?_, fun name hname => ?_, fun host' nodes' hhost' hnodes => ?_,
    hagain.trans hrun.symm, hasked⟩
  · rw [hrun, Source.length_eligible]
  · obtain ⟨hn', hwritten⟩ := (Node.isFiled_iff hn).mp hfiled
    refine ⟨Node.sheet_of_isFiled hfiled, (hsettled n hn' _ hwritten).only, ?_⟩
    have htarget := Output.isScopeFile_fileName n.lead (hhash (n.sheet c).toUTF8)
    rw [hd', Source.lookup_rebuiltEach hash c _ host hhash heligible hn' d htarget]
    refine Source.lookup_target_rebuilt c hhost hhash hwritten fun content hcontent hsame => ?_
    exact hfree (.inl ⟨_, hcontent⟩) (.inr ⟨n, hn, hfiled, rfl⟩) hsame
  · rw [hd']
    refine Source.lookup_rebuiltEach_of_forall c hhost hhash d fun n hn hwritten => ?_
    obtain ⟨hmem, hfiled⟩ := Source.isFiled_of_written? hn hwritten
    exact hname n hmem hfiled
  · have hperm : (Source.ofNodes c nodes).eligible.Perm (Source.ofNodes c nodes').eligible :=
      hnodes.filter _
    have hrun' : (rebuild nodes').run host'.answer d = _ :=
      Source.run_rebuildAll hash c (Source.ofNodes c nodes') host' d
    rw [hrun', hrun, hd', hperm.length_eq]
    refine congrArg (Prod.mk _) ?_
    -- the nodes of a source do not matter to how one of them is rebuilt
    show (Source.ofNodes c nodes).rebuiltEach hash c host' _ d = _
    exact (Source.rebuiltEach_perm c hhost hhash hhost' hperm heligible d).symm

/-- A node with a block and with an older file, and a node in the trash. -/
theorem rebuildAll_ofNodes_two_nodes :
    let attributes : Json := .record [("costeredId", .text "a"), ("costered",
      .record [("desktop", .record [("styles", .record [("width", .text "10px")])])])]
    let n : Node := ⟨7, .published, [⟨"core/group", attributes, []⟩]⟩
    let nodes : List Node := [n, ⟨3, .trashed, []⟩]
    let d : Directory := (∅ : Directory).insert "post-7-0123456789ab.css" "x".toUTF8
    let sheet := "[data-costered-id=\"a\"] \x7b\n    width: 10px;\n\x7d\n"
    let last := ((Source.ofNodes .standard nodes).rebuildAll contentHash .standard).run
      Host.plain.answer d
    (∀ content, IsDigest (contentHash content)) ∧ Host.plain.Reliable ∧
      (nodes.map Node.id).Nodup ∧ Set.InjOn contentHash (contentsInPlay .standard nodes d) ∧
      last.1 = 1 ∧
      last.2.lookup (fileName n.lead (contentHash sheet.toUTF8)) = some sheet.toUTF8 := by
  intro attributes n nodes d sheet last
  have hids : (nodes.map Node.id).Nodup := by decide
  have hsheet : n.sheet .standard = sheet := by decide +kernel
  have hdigests : contentHash "x".toUTF8 ≠ contentHash sheet.toUTF8 := by decide +kernel
  have hfiled : n.IsFiled .standard := by
    unfold Node.IsFiled
    rw [hsheet]
    decide
  have hplay : ∀ content ∈ contentsInPlay .standard nodes d,
      content = "x".toUTF8 ∨ content = sheet.toUTF8 := by
    rintro content (⟨name, hname⟩ | ⟨m, hm, hmfiled, rfl⟩)
    · rw [Directory.lookup_insert_eq, Finmap.lookup_empty] at hname
      split at hname
      · exact .inl (Option.some.inj hname).symm
      · cases hname
    · rcases List.mem_cons.mp hm with rfl | hm
      · rw [hsheet]
        exact .inr rfl
      · obtain rfl := List.mem_singleton.mp hm
        exact absurd rfl hmfiled.1
  have hfree : Set.InjOn contentHash (contentsInPlay .standard nodes d) := by
    intro a ha b hb hab
    rcases hplay a ha with rfl | rfl <;> rcases hplay b hb with rfl | rfl
    · rfl
    · exact absurd hab hdigests
    · exact absurd hab.symm hdigests
    · rfl
  have h := rebuildAll_ofNodes Output.isDigest_contentHash .standard Host.reliable_plain nodes hids
    d hfree
  have hfile := (h.2.1 n List.mem_cons_self hfiled).2.2
  rw [hsheet] at hfile
  exact ⟨Output.isDigest_contentHash, Host.reliable_plain, hids, hfree, h.1, hfile⟩

end ResponsiveStyle.Site

/-
# Interleaved editors

Three editors write one record at once, each at its own tier. Their calls may come in any order that
keeps the order of each editor: the record is the same afterwards (`run_eq_of_interleaving`),
because the bucket of a tier depends on the calls of that tier alone. Within a tier an operation on
several properties is the operations on one property each (`edits_singles`), and these write or
remove: a declaration is a written value with its mark of importance (`outcome?_declare`), and an
absent value is a removal (`outcome?_set_of_absent`).
-/
import ResponsiveStyle.Proofs.Style.Declaration
import ResponsiveStyle.Proofs.Style.Run

namespace ResponsiveStyle.Style

/-! ## Interleavings -/

/-- The operations of the calls at a tier, in order. -/
def operationsAt (tier : Tier) (calls : List Call) : List Operation :=
  (calls.filter fun k => k.tier = tier).map Call.operation

/-- The calls are an interleaving of the sequences of operations that the editors of the tiers
make. -/
inductive Interleaving : (Tier → List Operation) → List Call → Prop
  | done {ops : Tier → List Operation} (finished : ∀ t, ops t = []) : Interleaving ops []
  | call {ops rest : Tier → List Operation} {k : Call} {calls : List Call}
      (head : ops k.tier = k.operation :: rest k.tier)
      (others : ∀ t, t ≠ k.tier → ops t = rest t) (h : Interleaving rest calls) :
      Interleaving ops (k :: calls)

/-- The operations at the tier of the first call. -/
theorem operationsAt_cons_self (k : Call) (calls : List Call) :
    operationsAt k.tier (k :: calls) = k.operation :: operationsAt k.tier calls := by
  simp [operationsAt]

/-- The first call is not seen at another tier. -/
theorem operationsAt_cons_of_ne {k : Call} {t : Tier} (h : t ≠ k.tier) (calls : List Call) :
    operationsAt t (k :: calls) = operationsAt t calls := by
  simp [operationsAt, Ne.symm h]

/-- Calls are an interleaving of the operations that they make at each tier, and of no others. -/
theorem interleaving_iff (ops : Tier → List Operation) (calls : List Call) :
    Interleaving ops calls ↔ ∀ t, operationsAt t calls = ops t := by
  constructor
  · intro h
    induction h with
    | done finished =>
      intro t
      rw [finished t]
      rfl
    | @call ops rest k calls head others h ih =>
      intro t
      by_cases ht : t = k.tier
      · rw [ht, operationsAt_cons_self, ih, head]
      · rw [operationsAt_cons_of_ne ht, ih, others t ht]
  · induction calls generalizing ops with
    | nil =>
      intro h
      exact .done fun t => (h t).symm
    | cons k calls ih =>
      intro h
      refine .call ?_ ?_ (ih (fun t => operationsAt t calls) fun _ => rfl)
      · rw [← h, operationsAt_cons_self]
      · intro t ht
        rw [← h, operationsAt_cons_of_ne ht]

/-- The edits at a tier are those of the operations at the tier. -/
theorem editsAt_eq_flatMap (tier : Tier) (calls : List Call) :
    editsAt tier calls = (operationsAt tier calls).flatMap Operation.edits := by
  induction calls with
  | nil => rfl
  | cons k calls ih =>
    have hcons : editsAt tier (k :: calls)
        = (if k.tier = tier then k.operation.edits else []) ++ editsAt tier calls := by
      simp [editsAt]
    by_cases hk : tier = k.tier
    · rw [hcons, if_pos hk.symm, ih, hk, operationsAt_cons_self, List.flatMap_cons]
    · rw [hcons, if_neg (Ne.symm hk), ih, operationsAt_cons_of_ne hk, List.nil_append]

/-- Calls of one tier are seen there and nowhere else. -/
theorem operationsAt_of_forall {tier : Tier} {calls : List Call} (h : ∀ k ∈ calls, k.tier = tier)
    (t : Tier) : operationsAt t calls = if tier = t then calls.map Call.operation else [] := by
  unfold operationsAt
  by_cases ht : tier = t
  · rw [if_pos ht, List.filter_eq_self.mpr]
    intro k hk
    simpa [h k hk] using ht
  · rw [if_neg ht, List.filter_eq_nil_iff.mpr]
    · rfl
    · intro k hk
      simpa [h k hk] using ht

/-! ## Operations on one property -/

/-- The operations on one property each that make up an operation. -/
def Operation.singles : Operation → List Operation
  | .set p v => [.set p v]
  | .setMany values => values.map fun (p, v) => .set p v
  | .declare ds => ds.map fun d => .declare [d]
  | .unset p => [.unset p]
  | .unsetMany ps => ps.map .unset

/-- An operation makes the edits of the operations on one property, one after the other. -/
theorem Operation.edits_singles (op : Operation) : op.singles.flatMap edits = op.edits := by
  cases op with
  | set p v => rfl
  | setMany values => simp [singles, edits, List.flatMap_map, ← List.map_eq_flatMap]
  | declare ds => simp [singles, edits, List.flatMap_map, ← List.map_eq_flatMap]
  | unset p => rfl
  | unsetMany ps => simp [singles, edits, List.flatMap_map, ← List.map_eq_flatMap]

/-- The value that is written to the effect of a declaration: its own value, or for a flagged one
the text that is kept, with the mark of importance behind it. -/
def Declaration.written (unitless : Bool) (d : Declaration) : Value :=
  match ofInput? unitless d.property d.value with
  | some e => if d.important then .text (withMark e.value.display) else d.value
  | none => d.value

/-- A declaration leaves behind what the value written to its effect does. -/
theorem Edit.outcome?_declare (c : Config) (d : Declaration) :
    (declare d).outcome? c
      = (set d.property (d.written (c.isUnitless d.property))).outcome? c := by
  generalize hunitless : c.isUnitless d.property = unitless
  have hdeclare : (declare d).outcome? c
      = (Declaration.ofInput? unitless d.property d.value).map fun e =>
          if d.important then e.flagged else e := by
    rw [← hunitless]
    rfl
  have hset : (set d.property (d.written unitless)).outcome? c
      = Declaration.ofInput? unitless d.property (d.written unitless) := by
    rw [← hunitless]
    rfl
  rw [hdeclare, hset]
  unfold Declaration.written
  cases h : Declaration.ofInput? unitless d.property d.value with
  | none => exact h.symm
  | some e =>
    obtain ⟨hproperty, hwf⟩ := Declaration.of_ofInput? h
    cases hflag : d.important with
    | false => exact h.symm
    | true =>
      have hnamed : isBlankName d.property = false := by
        rw [← isBlankName_trimmed, ← hproperty, hwf.named]
      show some e.flagged
        = Declaration.ofInput? unitless d.property (.text (Declaration.withMark e.value.display))
      unfold Declaration.ofInput?
      rw [if_neg (by simp [hnamed])]
      show some e.flagged = Declaration.ofText? unitless (Text.trimmed d.property) _
      rw [Declaration.ofText?_withMark hwf.value.display.flagged, ← hproperty]
      rfl

/-- An absent value leaves nothing behind, and neither does a removal. -/
theorem Edit.outcome?_set_of_absent (c : Config) (p : String) {v : Value} (h : v.Absent) :
    (set p v).outcome? c = (unset p).outcome? c :=
  (Declaration.ofInput?_eq_none_iff _ p v).mpr (.inr h)

namespace Record

/-- Calls of one edit each that leave the same behind change a record with an id alike. -/
theorem call_congr {c : Config} {r : Record} (hid : r.id.isSome = true) {op op' : Operation}
    (e e' : Edit) (hop : op.edits = [e]) (hop' : op'.edits = [e'])
    (hproperty : e.property = e'.property) (houtcome : e.outcome? c = e'.outcome? c)
    (tier : Tier) (n n' : Nat) : r.call c ⟨tier, op, n⟩ = r.call c ⟨tier, op', n'⟩ := by
  have hedit : ∀ b : Bucket, b.edit c e = b.edit c e' := by
    intro b
    unfold Bucket.edit
    rw [houtcome, hproperty]
  show r.run c [⟨tier, op, n⟩] = r.run c [⟨tier, op', n'⟩]
  apply run_congr c hid
  intro t
  by_cases ht : tier = t
  · simp [editsAt, ht, hop, hop', hedit]
  · simp [editsAt, ht]

/-- On a record with an id all interleavings of the operations of three editors end in the same
record; an operation on several properties is the operations on one property each, from left to
right; and of these a declaration is a written value, and an absent value a removal. -/
theorem run_eq_of_interleaving (c : Config) {r : Record} (hid : r.id.isSome = true) :
    (∀ (ops : Tier → List Operation) (calls calls' : List Call),
        Interleaving ops calls → Interleaving ops calls' → r.run c calls = r.run c calls') ∧
      (∀ (tier : Tier) (op : Operation) (n : Nat) (calls : List Call),
        (∀ k ∈ calls, k.tier = tier) → calls.map Call.operation = op.singles →
          r.call c ⟨tier, op, n⟩ = r.run c calls) ∧
      (∀ (tier : Tier) (d : Declaration) (n n' : Nat),
        r.call c ⟨tier, .declare [d], n⟩
          = r.call c ⟨tier, .set d.property (d.written (c.isUnitless d.property)), n'⟩) ∧
      ∀ (tier : Tier) (p : String) (v : Value) (n n' : Nat),
        v.Absent → r.call c ⟨tier, .set p v, n⟩ = r.call c ⟨tier, .unset p, n'⟩ := by
  refine ⟨?_, ?_, ?_, ?_⟩
  · intro ops calls calls' h h'
    apply run_congr c hid
    intro t
    rw [editsAt_eq_flatMap, editsAt_eq_flatMap, (interleaving_iff ops calls).mp h,
      (interleaving_iff ops calls').mp h']
  · intro tier op n calls htier hops
    show r.run c [⟨tier, op, n⟩] = r.run c calls
    apply run_congr c hid
    intro t
    have hedits : editsAt t calls = if tier = t then op.edits else [] := by
      rw [editsAt_eq_flatMap, operationsAt_of_forall htier, hops]
      split
      · exact op.edits_singles
      · rfl
    rw [hedits]
    simp [editsAt]
  · intro tier d n n'
    exact call_congr hid (.declare d) (.set d.property (d.written (c.isUnitless d.property)))
      rfl rfl rfl (Edit.outcome?_declare c d) tier n n'
  · intro tier p v n n' h
    exact call_congr hid (.set p v) (.unset p) rfl rfl rfl (Edit.outcome?_set_of_absent c p h)
      tier n n'

/-- A removal at the middle tier may come before or after what the editors of the other tiers write;
two values at once are the two values one by one, and a text of the word for absence is a
removal. -/
theorem run_eq_of_interleaving_three_tiers :
    let r : Record := ⟨some "card", .empty, .empty, .empty⟩
    let wide : Call := ⟨.desktop, .setMany [("width", .text "80rem"), ("gap", .number 4)], 0⟩
    let middle : Call := ⟨.tablet, .unset "width", 1⟩
    let narrow : Call := ⟨.mobile, .declare [⟨"width", .text "20rem", true⟩], 2⟩
    r.run .standard [wide, middle, narrow] = r.run .standard [narrow, middle, wide] ∧
      r.call .standard wide
        = r.run .standard [⟨.desktop, .set "width" (.text "80rem"), 3⟩,
            ⟨.desktop, .set "gap" (.number 4), 4⟩] ∧
      r.call .standard ⟨.desktop, .set "width" (.text "null"), 5⟩
        = r.call .standard ⟨.desktop, .unset "width", 6⟩ := by
  intro r wide middle narrow
  obtain ⟨hinterleaving, hsingles, -, habsent⟩ :=
    run_eq_of_interleaving .standard (r := r) (by decide)
  refine ⟨?_, ?_, ?_⟩
  · apply hinterleaving (fun t => operationsAt t [wide, middle, narrow])
    · exact (interleaving_iff _ _).mpr fun t => rfl
    · refine (interleaving_iff _ _).mpr fun t => ?_
      cases t <;> rfl
  · refine hsingles .desktop wide.operation 0 _ ?_ rfl
    intro k hk
    rcases List.mem_pair.mp hk with rfl | rfl <;> rfl
  · exact habsent .desktop "width" (.text "null") 5 6 (.text (by decide))

end Record

end ResponsiveStyle.Style

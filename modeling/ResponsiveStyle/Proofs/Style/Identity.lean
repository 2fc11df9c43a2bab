/-
# The id along a run

A record gets an id from the first call of an editor, or is given a text for it. No call changes an
id that is there (`Record.id_call`). Of a text the characters of scope ids are left
(`ScopeId.Usable`), and a text without any leaves the record without an id, whatever it had before.
So only the last action decides whether there is an id (`Record.id_after_eq_none_iff`): if it gave
an unusable text there is none, and the next call makes another one under the declarations that are
there.
-/
import Mathlib.Data.List.Basic
import ResponsiveStyle.Proofs.Style.Run
import ResponsiveStyle.Proofs.Style.ScopeId

namespace ResponsiveStyle.Style

/-! ## Texts for ids -/

namespace ScopeId

/-- A text with a character of scope ids in it. -/
def Usable (raw : String) : Prop := ∃ c ∈ raw.toList, isIdChar c = true

instance (raw : String) : Decidable (Usable raw) :=
  List.decidableBEx (fun c => isIdChar c = true) raw.toList

/-- An id is left of a usable text, and of no other. -/
theorem isSome_sanitize?_iff (raw : String) : (sanitize? raw).isSome = true ↔ Usable raw := by
  have hleft : (raw.toList.filter isIdChar).take maxLength ≠ [] ↔ Usable raw := by
    rw [ne_eq, List.take_eq_nil_iff, List.filter_eq_nil_iff]
    simp [Usable, maxLength]
  rw [← hleft, ne_eq, ← List.isEmpty_iff]
  unfold sanitize?
  simp only
  split
  · rename_i hempty
    simp [hempty]
  · rename_i hempty
    simp [hempty]

end ScopeId

open ScopeId (Usable)

/-! ## Actions -/

/-- What is done to a record: a call of an editor, or a text that is given for the id. -/
inductive Action
  | call (call : Call)
  | giveId (raw : String)

namespace Record

variable {c : Config} {r : Record}

/-- The record after an action. -/
def act (c : Config) (r : Record) : Action → Record
  | .call k => r.call c k
  | .giveId raw => r.withId raw

/-- The record after actions one after the other. -/
def after (c : Config) (r : Record) (actions : List Action) : Record := actions.foldl (act c) r

/-- The last action is done to the record that the others leave. -/
theorem after_concat (actions : List Action) (a : Action) :
    r.after c (actions ++ [a]) = (r.after c actions).act c a := by
  unfold after
  rw [List.foldl_append]
  rfl

/-- After a text was given for the id, the id is what is left of the text. -/
theorem id_after_giveId (actions : List Action) (raw : String) :
    (r.after c (actions ++ [.giveId raw])).id = ScopeId.sanitize? raw := by
  rw [after_concat]
  rfl

/-- After a call there is an id, the one from before or a fresh one. -/
theorem id_after_call (actions : List Action) (k : Call) :
    (r.after c (actions ++ [.call k])).id
      = some ((r.after c actions).id.getD (ScopeId.fresh k.entropy)) := by
  rw [after_concat]
  exact id_call c _ k

/-- A record that had an id has none if the last action gave an unusable text, and only then. -/
theorem id_after_eq_none_iff (hid : r.id.isSome = true) (actions : List Action) :
    (r.after c actions).id = none ↔
      ∃ raw, actions.getLast? = some (.giveId raw) ∧ ¬ Usable raw := by
  rcases List.eq_nil_or_concat' actions with rfl | ⟨actions, a, rfl⟩
  · obtain ⟨id, hsome⟩ := Option.isSome_iff_exists.mp hid
    simp [after, hsome]
  · rw [List.getLast?_concat]
    cases a with
    | call k => simp [id_after_call]
    | giveId raw =>
      rw [id_after_giveId, ← Option.not_isSome_iff_eq_none, ScopeId.isSome_sanitize?_iff]
      simp

/-- A call changes the id if there is none, and only then. -/
theorem id_after_call_ne_iff (actions : List Action) (k : Call) :
    (r.after c (actions ++ [.call k])).id ≠ (r.after c actions).id
      ↔ (r.after c actions).id = none := by
  rw [id_after_call]
  cases (r.after c actions).id <;> simp

/-! ## Whole runs -/

/-- Along the actions the record always has an id, and nothing but a usable text changes it. -/
def KeepsId (c : Config) (r : Record) (actions : List Action) : Prop :=
  ∀ before a, before ++ [a] <+: actions →
    (r.after c (before ++ [a])).id.isSome = true ∧
      ((r.after c (before ++ [a])).id ≠ (r.after c before).id →
        ∃ raw, a = .giveId raw ∧ Usable raw)

/-- A record with an id keeps it along the actions if all texts that are given for it are usable,
and only then; and a call puts a fresh id in its place right behind an unusable text, and nowhere
else. -/
theorem keepsId_iff (c : Config) {r : Record} (hid : r.id.isSome = true) (actions : List Action) :
    (r.KeepsId c actions ↔ ∀ raw, .giveId raw ∈ actions → Usable raw) ∧
      ∀ k : Call, (r.after c (actions ++ [.call k])).id ≠ (r.after c actions).id ↔
        ∃ raw, actions.getLast? = some (.giveId raw) ∧ ¬ Usable raw := by
  refine ⟨⟨?_, ?_⟩, ?_⟩
  · intro hkeeps raw hmem
    obtain ⟨before, rest, rfl⟩ := List.append_of_mem hmem
    have hsome := (hkeeps before (.giveId raw) ⟨rest, by simp⟩).1
    rwa [id_after_giveId, ScopeId.isSome_sanitize?_iff] at hsome
  · intro husable before a hprefix
    have hmem : ∀ b ∈ before ++ [a], b ∈ actions := fun b hb => hprefix.subset hb
    cases a with
    | giveId raw =>
      have hraw : Usable raw := husable raw (hmem _ (by simp))
      rw [id_after_giveId]
      exact ⟨(ScopeId.isSome_sanitize?_iff raw).mpr hraw, fun _ => ⟨raw, rfl, hraw⟩⟩
    | call k =>
      refine ⟨by rw [id_after_call]; rfl, fun hne => ?_⟩
      -- the id was lost before the call, so an unusable text was given
      rw [id_after_call_ne_iff, id_after_eq_none_iff hid] at hne
      obtain ⟨raw, hlast, hraw⟩ := hne
      exact absurd (husable raw (hmem _ (by simp [List.mem_of_getLast? hlast]))) hraw
  · intro k
    rw [id_after_call_ne_iff, id_after_eq_none_iff hid]

/-- A text with blanks and brackets gives the letters in it, and a call keeps them. -/
theorem keepsId_iff_letters :
    let r : Record := ⟨some "card", .empty, .empty, .empty⟩
    r.id.isSome = true ∧
      r.KeepsId .standard
        [.giveId " <my card> ", .call ⟨.tablet, .set "width" (.text "60rem"), 7⟩] := by
  intro r
  refine ⟨by decide, (keepsId_iff .standard (r := r) (by decide) _).1.mpr ?_⟩
  intro raw hraw
  have heq : raw = " <my card> " := by simpa using hraw
  rw [heq]
  decide

/-- A text of brackets takes the id of a record with declarations away, and a call that changes none
of them makes a fresh one. -/
theorem not_keepsId_brackets :
    let r : Record := ⟨some "card", ⟨[⟨"width", .text "80rem", false⟩]⟩, .empty, .empty⟩
    let call : Call := ⟨.desktop, .set "width" (.text "80rem"), 7⟩
    ¬ r.KeepsId .standard [.giveId "<>"] ∧
      r.after .standard [.giveId "<>"] = { r with id := none } ∧
      r.after .standard [.giveId "<>", .call call] = { r with id := some "cst-000000000007" } := by
  intro r call
  refine ⟨fun hkeeps => ?_, by decide, by decide⟩
  exact absurd (hkeeps [] (.giveId "<>") List.prefix_rfl).1 (by decide)

end Record

end ResponsiveStyle.Style

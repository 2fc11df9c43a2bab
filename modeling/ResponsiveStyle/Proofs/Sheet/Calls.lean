/-
# Calls to a pass

A pass is used by calls that push texts and style sheets of records, look at what is collected, hand
it out or forget it. Behind any calls a pass that began empty is as if only the texts behind the
last call that empties had been pushed to it (`run_empty`), so it has collected each of them once,
and nothing of what was there before ever shows again (`collected_since`).
-/
import Mathlib.Data.List.DropRight
import ResponsiveStyle.Proofs.Sheet.Pass
import ResponsiveStyle.Sheet.Render

namespace ResponsiveStyle.Sheet.Pass

open Text (joined)

/-! ## Calls -/

/-- A call to a pass. -/
inductive Call
  | push (text : String)
  | render (c : Config) (nodeType : String) (r : Style.Record)
  | look
  | drain
  | reset

namespace Call

/-- The text that a call pushes. -/
def text? : Call → Option String
  | .push text => some text
  | .render c nodeType r => some (Sheet.render c nodeType r)
  | .look => none
  | .drain => none
  | .reset => none

/-- Whether a call leaves an empty pass behind. -/
def empties : Call → Bool
  | .drain => true
  | .reset => true
  | _ => false

end Call

/-- What a call answers: whether a text was added, a style sheet, or nothing. -/
inductive Answer
  | added (isNew : Bool)
  | sheet (css : String)
  | done
  deriving DecidableEq, Repr

/-- The answer of a call, and the pass behind it. -/
def perform (p : Pass) : Call → Answer × Pass
  | .push text => (.added (p.admits text), p.push text)
  | .render c nodeType r => (.done, p.push (Sheet.render c nodeType r))
  | .look => (.sheet p.css, p)
  | .drain => (.sheet p.drain.1, p.drain.2)
  | .reset => (.done, p.reset)

/-- The pass behind calls one after the other. -/
def run (p : Pass) (calls : List Call) : Pass := calls.foldl (fun p call => (p.perform call).2) p

/-- What shows of a pass during calls: the answer to each of them, and the fragments behind it. -/
def observed (p : Pass) : List Call → List (Answer × List String)
  | [] => []
  | call :: calls =>
    ((p.perform call).1, (p.perform call).2.fragments) :: (p.perform call).2.observed calls

/-- The texts that are pushed behind the last call that empties the pass. -/
def textsSince (calls : List Call) : List String :=
  (calls.rtakeWhile fun call => !call.empties).filterMap Call.text?

/-! ## One call -/

/-- A call that empties leaves nothing behind, and any other one pushes its text if it has one. -/
theorem perform_snd (p : Pass) (call : Call) :
    (p.perform call).2 = if call.empties then empty else p.pushAll call.text?.toList := by
  cases call <;> simp [perform, Call.empties, Call.text?, pushAll, drain, reset, empty]

/-- A call that empties makes the texts before it forgotten, and any other one adds its own. -/
theorem textsSince_concat (calls : List Call) (call : Call) :
    textsSince (calls ++ [call])
      = if call.empties then [] else textsSince calls ++ call.text?.toList := by
  unfold textsSince
  rw [List.rtakeWhile_concat]
  cases call.empties with
  | true => rfl
  | false => cases h : call.text? <;> simp [List.filterMap_append, h]

/-! ## All calls -/

theorem run_concat (p : Pass) (calls : List Call) (call : Call) :
    p.run (calls ++ [call]) = ((p.run calls).perform call).2 := by
  unfold run
  rw [List.foldl_append, List.foldl_cons, List.foldl_nil]

/-- Calls leave the pass of the texts behind the last one that empties. -/
theorem run_empty (calls : List Call) : empty.run calls = empty.pushAll (textsSince calls) := by
  induction calls using List.reverseRecOn with
  | nil => rfl
  | append_singleton calls call ih =>
    rw [run_concat, perform_snd, textsSince_concat, ih]
    split
    · rfl
    · rw [pushAll_append]

/-- Behind any calls a pass has collected the texts behind the last call that emptied it, those that
are not blank, without the blanks at their ends, and the first ones of each content only. Pushing
answers whether there is one fragment more; the style sheet has the fragments with an empty line
between neighbours and a line break at its end, and nothing where there is no fragment; handing it
out answers the same; and behind that, as behind forgetting, all later calls show what they show of
a new pass. -/
theorem collected_since (calls : List Call) :
    let p := empty.run calls
    p.fragments = (contents (textsSince calls)).eraseDups ∧
      (∀ text, ∃ isNew, (p.perform (.push text)).1 = .added isNew ∧
        (isNew = true ↔ (p.perform (.push text)).2.size = p.size + 1)) ∧
      (p.perform .look).1
        = .sheet (if p.fragments = [] then "" else joined "\n\n" p.fragments ++ "\n") ∧
      (p.perform .drain).1 = (p.perform .look).1 ∧
      ∀ later, (p.perform .reset).2.observed later = empty.observed later ∧
        (p.perform .drain).2.observed later = empty.observed later := by
  intro p
  refine ⟨?_, ?_, ?_, rfl, fun later => ⟨rfl, rfl⟩⟩
  · show (empty.run calls).fragments = _
    rw [run_empty, fragments_pushAll coherent_empty]
    simp [empty, List.removeAll]
  · intro text
    refine ⟨p.admits text, rfl, ?_⟩
    show _ ↔ (p.push text).size = _
    rw [size_push]
    cases p.admits text <;> simp
  · show Answer.sheet p.css = _
    unfold Pass.css
    simp only [List.isEmpty_iff]

/-- Blanks in front of a text tell it from another one, and those at its end do not. -/
example : (empty.run [.push "b", .reset, .push " b\n", .push " ", .push "b", .push " b"]).fragments
    = [" b", "b"] := by decide

end ResponsiveStyle.Sheet.Pass

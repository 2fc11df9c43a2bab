/-
# Plans in a world that may answer anything

A plan can be run by a function that answers its steps, or followed step by step in a world that
says only what a step may answer and leave behind. In the second case the world can fail at any step
and a run can end behind any step, so what holds of all states that are reached (`Reaches`) holds of
interrupted runs too. `Always` says it of a plan as a whole, and is put together along `bind`
(`Always.bind`).
-/
import Mathlib.Logic.Relation
import ResponsiveStyle.Output.Plan

namespace ResponsiveStyle.Output.Plan

variable {S : Type} {Reply : S → Type} {α β σ : Type}

/-! ## Running -/

section Run

variable (answer : (s : S) → σ → Reply s × σ)

@[simp]
theorem run_pure (a : α) (state : σ) :
    (pure a : Plan S Reply α).run answer state = (a, state) := rfl

@[simp]
theorem run_monadBind (p : Plan S Reply α) (f : α → Plan S Reply β) (state : σ) :
    (p >>= f).run answer state = (f (p.run answer state).1).run answer (p.run answer state).2 :=
  run_bind answer p f state

/-- The steps that a plan asks for when it is run, in order. -/
def asked : Plan S Reply α → σ → List S
  | .done _, _ => []
  | .step s next, state => s :: (next (answer s state).1).asked (answer s state).2

@[simp]
theorem asked_pure (a : α) (state : σ) : (pure a : Plan S Reply α).asked answer state = [] := rfl

@[simp]
theorem asked_monadBind (p : Plan S Reply α) (f : α → Plan S Reply β) (state : σ) :
    (p >>= f).asked answer state
      = p.asked answer state ++ (f (p.run answer state).1).asked answer (p.run answer state).2 := by
  show (p.bind f).asked answer state = _
  induction p generalizing state with
  | done a => rfl
  | step s next ih =>
    show s :: ((next (answer s state).1).bind f).asked answer (answer s state).2 = _
    rw [ih]
    rfl

end Run

/-! ## Step by step -/

section Reach

variable (may : (s : S) → σ → Reply s → σ → Prop)

/-- A plan goes on with what its first step may answer, in the state that this step may leave. -/
inductive Moves : Plan S Reply α × σ → Plan S Reply α × σ → Prop
  | step {s : S} {next : Reply s → Plan S Reply α} {state state' : σ} {r : Reply s}
      (h : may s state r state') : Moves (.step s next, state) (next r, state')

/-- What is left of a plan, and the state, behind any number of its steps. -/
def Reaches : Plan S Reply α × σ → Plan S Reply α × σ → Prop := Relation.ReflTransGen (Moves may)

/-- A run by answers that may be given is one of those that are followed step by step. -/
theorem reaches_run {answer : (s : S) → σ → Reply s × σ}
    (h : ∀ s state, may s state (answer s state).1 (answer s state).2) (p : Plan S Reply α)
    (state : σ) :
    Reaches may (p, state) (.done (p.run answer state).1, (p.run answer state).2) := by
  induction p generalizing state with
  | done a => exact .refl
  | step s next ih => exact .head (.step (h s state)) (ih _ _)

/-- Whatever the steps of a plan answer, `inv` holds of every state, `guard` of every step in the
state in which it is asked for, and `post` of the result and the last state. -/
def Always (inv : σ → Prop) (guard : S → σ → Prop) (post : α → σ → Prop) :
    Plan S Reply α → σ → Prop
  | .done a, state => inv state ∧ post a state
  | .step s next, state => inv state ∧ guard s state ∧
      ∀ r state', may s state r state' → (next r).Always inv guard post state'

namespace Always

variable {may} {inv : σ → Prop} {guard : S → σ → Prop} {mid : α → σ → Prop} {post : α → σ → Prop}

/-- The invariant holds in front of a plan. -/
theorem invariant {p : Plan S Reply α} {state : σ} (h : p.Always may inv guard post state) :
    inv state := by
  cases p with
  | done a => exact h.1
  | step s next => exact h.1

/-- A plan that only ends. -/
theorem pure {a : α} {state : σ} (hinv : inv state) (hpost : post a state) :
    (Pure.pure a : Plan S Reply α).Always may inv guard post state :=
  ⟨hinv, hpost⟩

/-- A plan of one step. -/
theorem ask {s : S} {state : σ} {Q : Reply s → σ → Prop} (hinv : inv state)
    (hguard : guard s state) (h : ∀ r state', may s state r state' → inv state' ∧ Q r state') :
    (Plan.ask s : Plan S Reply (Reply s)).Always may inv guard Q state :=
  ⟨hinv, hguard, h⟩

/-- A plan goes on from whatever its first part leaves. -/
theorem bind {p : Plan S Reply α} {f : α → Plan S Reply β} {post : β → σ → Prop} {state : σ}
    (hp : p.Always may inv guard mid state)
    (hf : ∀ a state', inv state' → mid a state' → (f a).Always may inv guard post state') :
    (p >>= f).Always may inv guard post state := by
  show (p.bind f).Always may inv guard post state
  induction p generalizing state with
  | done a => exact hf a state hp.1 hp.2
  | step s next ih => exact ⟨hp.1, hp.2.1, fun r state' hmay => ih r (hp.2.2 r state' hmay)⟩

/-- What holds always holds of everything that is reached. -/
theorem of_reaches {p q : Plan S Reply α} {state state' : σ}
    (h : p.Always may inv guard post state) (hreach : Reaches may (p, state) (q, state')) :
    q.Always may inv guard post state' := by
  have hall : ∀ t, Reaches may (p, state) t → t.1.Always may inv guard post t.2 := by
    intro t ht
    induction ht with
    | refl => exact h
    | tail _ hmove ih =>
      cases hmove with
      | step hmay => exact ih.2.2 _ _ hmay
  exact hall (q, state') hreach

end Always

end Reach

end ResponsiveStyle.Output.Plan

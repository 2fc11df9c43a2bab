/-!
# Plans

A plan asks for steps one by one and goes on with their answers. What a step does is up to the one
who carries the plan out, so the same plan can be run on files, or reasoned about on any model of
them in which steps may fail.
-/

namespace ResponsiveStyle.Output

/-- A plan over steps `S` with answers `Reply` that ends with a result. -/
inductive Plan (S : Type) (Reply : S → Type) (α : Type) : Type
  | done (result : α)
  | step (s : S) (next : Reply s → Plan S Reply α)

namespace Plan

variable {S S' : Type} {Reply : S → Type} {Reply' : S' → Type} {α β σ : Type}

/-! ## Composition -/

/-- One plan after the other. -/
def bind : Plan S Reply α → (α → Plan S Reply β) → Plan S Reply β
  | .done a, f => f a
  | .step s next, f => .step s fun r => (next r).bind f

instance : Monad (Plan S Reply) where
  pure := .done
  bind := bind

/-- The plan of one step. -/
def ask (s : S) : Plan S Reply (Reply s) := .step s .done

/-- The plan with other steps in place of its own, which have the same answers. -/
def relabel (f : S → S') (same : (s : S) → Reply' (f s) → Reply s) :
    Plan S Reply α → Plan S' Reply' α
  | .done a => .done a
  | .step s next => .step (f s) fun r => (next (same s r)).relabel f same

/-! ## Running -/

/-- The result of a plan and the state behind it, where `answer` carries out a step. -/
def run (answer : (s : S) → σ → Reply s × σ) : Plan S Reply α → σ → α × σ
  | .done a, state => (a, state)
  | .step s next, state => (next (answer s state).1).run answer (answer s state).2

/-- Running one plan after the other runs the second one on the state behind the first. -/
theorem run_bind (answer : (s : S) → σ → Reply s × σ) (p : Plan S Reply α)
    (f : α → Plan S Reply β) (state : σ) :
    (p.bind f).run answer state = (f (p.run answer state).1).run answer (p.run answer state).2 := by
  induction p generalizing state with
  | done a => rfl
  | step s next ih => exact ih _ _

end Plan

end ResponsiveStyle.Output

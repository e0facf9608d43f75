import Mathlib.Logic.Basic

/-!
# Transition systems and guarded reachability

A system has initial states and labelled steps. `Reach T G` are the states of runs **all of whose
steps meet the guard** `G`, a condition on the state before the step and on the label. With the
guard that allows everything these are the reachable states; with a stronger guard they are the
states of those runs a conditional claim is about.

Each induction over runs is done once here: `Reach.invariant` for a property of states, and
`Reach.mono` for weakening the guard. Systems whose steps are computed by a partial function are
built with `ofFn`; `reach_of_runFn` turns an evaluated run into reachability under a decidable guard,
which is what a concrete run needs.
-/

/-- A labelled transition system. -/
structure Guarded (σ α : Type*) where
  /-- The initial states. -/
  init : σ → Prop
  /-- `step s a s'`: from `s`, the action `a` can lead to `s'`. -/
  step : σ → α → σ → Prop

namespace Guarded

variable {σ α : Type*}

/-- The states of runs in which every step meets the guard. -/
inductive Reach (T : Guarded σ α) (G : σ → α → Prop) : σ → Prop
  | init {s : σ} : T.init s → Reach T G s
  | step {s s' : σ} {a : α} : Reach T G s → G s a → T.step s a s' → Reach T G s'

/-- The guard that allows every step. -/
def always : σ → α → Prop := fun _ _ ↦ True

instance (s : σ) (a : α) : Decidable (always s a) := isTrue trivial

variable {T : Guarded σ α} {G H : σ → α → Prop}

/-- **Invariance.** What holds initially and is preserved by every guarded step from a state where
it holds, holds in every state of every guarded run. -/
theorem Reach.invariant {I : σ → Prop} (hinit : ∀ s, T.init s → I s)
    (hstep : ∀ s a s', I s → G s a → T.step s a s' → I s') {s : σ} (h : Reach T G s) : I s := by
  induction h with
  | init h0 => exact hinit _ h0
  | step _ hG hs ih => exact hstep _ _ _ ih hG hs

/-- Fewer steps are taken under a stronger guard. -/
theorem Reach.mono (h : ∀ s a, G s a → H s a) {s : σ} (hs : Reach T G s) : Reach T H s := by
  induction hs with
  | init h0 => exact .init h0
  | step _ hG ht ih => exact .step ih (h _ _ hG) ht

/-! ### Systems given by a step function -/

/-- The system whose steps are computed by a partial function. -/
def ofFn (init : σ → Prop) (f : σ → α → Option σ) : Guarded σ α where
  init := init
  step s a s' := f s a = some s'

/-- Performing a list of actions, as long as each is possible. -/
def runFn (f : σ → α → Option σ) : σ → List α → Option σ
  | s, [] => some s
  | s, a :: as => (f s a).bind fun s' ↦ runFn f s' as

/-- The step function of the runs that meet a guard. -/
def guardFn (G : σ → α → Prop) [∀ s a, Decidable (G s a)] (f : σ → α → Option σ) :
    σ → α → Option σ :=
  fun s a ↦ if G s a then f s a else none

/-- A computed run ends in a state that is reachable under its guard. -/
theorem reach_of_runFn {init : σ → Prop} {f : σ → α → Option σ} [∀ s a, Decidable (G s a)]
    {as : List α} {s s' : σ} (hs : Reach (ofFn init f) G s)
    (h : runFn (guardFn G f) s as = some s') : Reach (ofFn init f) G s' := by
  induction as generalizing s with
  | nil => exact Option.some.inj h ▸ hs
  | cons a as ih =>
    obtain ⟨t, ht, hrest⟩ := Option.bind_eq_some_iff.1 h
    rw [guardFn] at ht
    split at ht
    · next hG => exact ih (.step hs hG ht) hrest
    · cases ht

end Guarded

import Mathlib.Data.List.Chain
import Mathlib.Logic.Relation

/-! # Walks and distances

Walks along a relation with the number of their steps.
-/

namespace Pmud.Foundation

variable {α : Type} (edge : α → α → Prop)

/-- A walk of so many steps. -/
inductive Walk : Nat → α → α → Prop
  | refl (vertex : α) : Walk 0 vertex vertex
  | snoc {steps : Nat} {first middle last : α} (before : Walk steps first middle)
      (step : edge middle last) : Walk (steps + 1) first last

/-- `steps` is the length of a shortest walk. -/
def IsDistance (first last : α) (steps : Nat) : Prop :=
  Walk edge steps first last ∧ ∀ other, Walk edge other first last → steps ≤ other

variable {edge}

theorem Walk.reachable {steps : Nat} {first last : α} (walk : Walk edge steps first last) :
    Relation.ReflTransGen edge first last := by
  induction walk with
  | refl vertex => exact .refl
  | snoc before step induction => exact induction.tail step

theorem exists_walk {first last : α} (reachable : Relation.ReflTransGen edge first last) :
    ∃ steps, Walk edge steps first last := by
  induction reachable with
  | refl => exact ⟨0, .refl first⟩
  | tail before step induction =>
      rcases induction with ⟨steps, walk⟩
      exact ⟨steps + 1, walk.snoc step⟩

/-- A labelling that starts at zero and rises by at most one along every edge
bounds the length of every walk. -/
theorem Walk.le_of_labelling {labelled : α → Prop} {label : α → Int} {first last : α}
    {steps : Nat} (walk : Walk edge steps first last) (start : labelled first)
    (zero : label first = 0)
    (closed : ∀ middle next, labelled middle → edge middle next →
      labelled next ∧ label next ≤ label middle + 1) :
    labelled last ∧ label last ≤ steps := by
  induction walk with
  | refl vertex => exact ⟨start, by simp [zero]⟩
  | @snoc steps first middle last before step induction =>
      rcases induction start zero with ⟨here, bound⟩
      rcases closed middle last here step with ⟨there, rise⟩
      refine ⟨there, ?_⟩
      omega

/-! ## Walks as lists -/

/-- The vertices of a walk in their order. -/
structure Route (edge : α → α → Prop) (first last : α) (path : List α) : Prop where
  chain : path.IsChain edge
  head : path.head? = some first
  last : path.getLast? = some last

theorem Route.ne_nil {first last : α} {path : List α} (route : Route edge first last path) :
    path ≠ [] := by
  intro empty
  simpa [empty] using route.head

theorem Route.singleton (edge : α → α → Prop) (vertex : α) :
    Route edge vertex vertex [vertex] where
  chain := List.isChain_singleton vertex
  head := rfl
  last := rfl

theorem Route.snoc {first middle last : α} {path : List α}
    (route : Route edge first middle path) (step : edge middle last) :
    Route edge first last (path ++ [last]) where
  chain := by
    apply route.chain.append (List.isChain_singleton last)
    intro before final next first
    have same : before = middle := by simpa [route.last] using final.symm
    rw [same, show next = last by simpa using first.symm]
    exact step
  head := by rw [List.head?_append_of_ne_nil _ route.ne_nil, route.head]
  last := by simp

end Pmud.Foundation

import Mathlib.Data.List.Nodup
import Mathlib.Data.List.Pairwise
import Mathlib.Data.List.Range
import Mathlib.Logic.Relation
import Mathlib.Tactic.Tauto

/-! # Forests and the times of their nodes

A traversal opens a node, goes through its children and closes it, and a clock
ticks each time it does either.
-/

namespace Pmud.Foundation

/-- Ordered, by the first child and the next sibling. -/
inductive Forest (α : Type)
  | nil
  | node (label : α) (children siblings : Forest α)

/-- What the traversal says about one node. -/
structure Span (α : Type) where
  label : α
  parent : Option α
  opened : Nat
  closed : Nat

namespace Span

variable {α : Type}

def Inside (inner outer : Span α) : Prop :=
  outer.opened < inner.opened ∧ inner.closed < outer.closed

def Before (first second : Span α) : Prop := first.closed < second.opened

/-- Apart in time, or one in the other. -/
def Laminar (first second : Span α) : Prop :=
  first.Before second ∨ second.Before first ∨ second.Inside first ∨ first.Inside second

instance : Std.Symm (Laminar (α := α)) where
  symm first second laminar := by
    unfold Laminar at laminar ⊢
    tauto

theorem Inside.trans {first second third : Span α} (left : first.Inside second)
    (right : second.Inside third) : first.Inside third :=
  ⟨right.1.trans left.1, left.2.trans right.2⟩

end Span

namespace Forest

variable {α : Type}

def labels : Forest α → List α
  | nil => []
  | node label children siblings => label :: (children.labels ++ siblings.labels)

def size : Forest α → Nat
  | nil => 0
  | node _ children siblings => children.size + siblings.size + 1

/-- The spans of the nodes under `parent`, from the tick `start` on. -/
def spans (parent : Option α) (start : Nat) : Forest α → List (Span α)
  | nil => []
  | node label children siblings =>
      ⟨label, parent, start, start + 2 * children.size + 1⟩ ::
        (children.spans (some label) (start + 1) ++
          siblings.spans parent (start + 2 * children.size + 2))

def append : Forest α → Forest α → Forest α
  | nil, later => later
  | node label children siblings, later => node label children (siblings.append later)

@[simp]
theorem labels_append (first later : Forest α) :
    (first.append later).labels = first.labels ++ later.labels := by
  induction first with
  | nil => rfl
  | node label children siblings _ induction => simp [append, labels, induction]

@[simp]
theorem size_append (first later : Forest α) :
    (first.append later).size = first.size + later.size := by
  induction first with
  | nil => simp [append, size]
  | node label children siblings _ induction =>
      simp only [append, size, induction]
      omega

@[simp]
theorem spans_append (parent : Option α) (start : Nat) (first later : Forest α) :
    (first.append later).spans parent start =
      first.spans parent start ++ later.spans parent (start + 2 * first.size) := by
  induction first generalizing start with
  | nil => simp [append, spans, size]
  | node label children siblings _ induction =>
      have shift : start + 2 * children.size + 2 + 2 * siblings.size =
          start + 2 * (children.size + siblings.size + 1) := by omega
      simp [append, spans, size, induction, shift]

@[simp]
theorem length_labels (forest : Forest α) : forest.labels.length = forest.size := by
  induction forest with
  | nil => rfl
  | node label children siblings childrenInduction siblingsInduction =>
      simp [labels, size, childrenInduction, siblingsInduction]

@[simp]
theorem map_label_spans (parent : Option α) (start : Nat) (forest : Forest α) :
    (forest.spans parent start).map Span.label = forest.labels := by
  induction forest generalizing parent start with
  | nil => rfl
  | node label children siblings childrenInduction siblingsInduction =>
      simp [spans, labels, childrenInduction, siblingsInduction]

theorem mem_labels {parent : Option α} {start : Nat} {forest : Forest α} {span : Span α}
    (member : span ∈ forest.spans parent start) : span.label ∈ forest.labels := by
  rw [← map_label_spans parent start forest]
  exact List.mem_map_of_mem member

theorem exists_span (parent : Option α) (start : Nat) {forest : Forest α} {label : α}
    (member : label ∈ forest.labels) :
    ∃ span ∈ forest.spans parent start, span.label = label := by
  rw [← map_label_spans parent start forest] at member
  exact List.mem_map.mp member

theorem span_bounds {parent : Option α} {start : Nat} {forest : Forest α} {span : Span α}
    (member : span ∈ forest.spans parent start) :
    start ≤ span.opened ∧ span.opened < span.closed ∧
      span.closed < start + 2 * forest.size := by
  induction forest generalizing parent start with
  | nil => cases member
  | node label children siblings childrenInduction siblingsInduction =>
      rw [size]
      simp only [spans, List.mem_cons, List.mem_append] at member
      rcases member with rfl | inner | later
      · dsimp only
        omega
      · have bounds := childrenInduction inner
        omega
      · have bounds := siblingsInduction later
        omega

/-- Every tick of the clock is one opening or one closing. -/
theorem ticks_perm [DecidableEq α] (parent : Option α) (start : Nat) (forest : Forest α) :
    ((forest.spans parent start).map Span.opened ++
      (forest.spans parent start).map Span.closed).Perm
        (List.range' start (2 * forest.size)) := by
  induction forest generalizing parent start with
  | nil => exact .refl _
  | node label children siblings childrenInduction siblingsInduction =>
      have count : 2 * (children.size + siblings.size + 1) =
          2 * children.size + (2 * siblings.size + 1) + 1 := by omega
      rw [size, count, List.range'_succ, ← List.range'_append_1, List.range'_succ,
        Nat.add_right_comm start 1, Nat.add_assoc (start + 2 * children.size),
        List.perm_iff_count]
      intro tick
      have inner := (childrenInduction (some label) (start + 1)).count_eq tick
      have later :=
        (siblingsInduction parent (start + 2 * children.size + 2)).count_eq tick
      simp only [List.count_append] at inner later
      simp only [spans, List.map_cons, List.map_append, List.cons_append, List.count_cons,
        List.count_append, Nat.reduceAdd]
      omega

/-- Of two nodes the one that opens first encloses the other or ends before it. -/
theorem spans_pairwise (parent : Option α) (start : Nat) (forest : Forest α) :
    (forest.spans parent start).Pairwise fun first second =>
      first.Before second ∨ second.Inside first := by
  induction forest generalizing parent start with
  | nil => exact .nil
  | node label children siblings childrenInduction siblingsInduction =>
      refine List.pairwise_cons.mpr ⟨?_, List.pairwise_append.mpr
        ⟨childrenInduction _ _, siblingsInduction _ _, ?_⟩⟩
      · intro second member
        rcases List.mem_append.mp member with inner | later
        · have bounds := span_bounds inner
          exact .inr ⟨by dsimp only; omega, by dsimp only; omega⟩
        · have bounds := span_bounds later
          left
          show _ < _
          dsimp only
          omega
      · intro first inner second later
        have innerBounds := span_bounds inner
        have laterBounds := span_bounds later
        left
        show _ < _
        omega

theorem laminar {parent : Option α} {start : Nat} {forest : Forest α} {first second : Span α}
    (firstMember : first ∈ forest.spans parent start)
    (secondMember : second ∈ forest.spans parent start) (different : first ≠ second) :
    first.Laminar second :=
  ((spans_pairwise parent start forest).imp fun either =>
      either.elim .inl fun inside => .inr (.inr (.inl inside))).forall
    firstMember secondMember different

/-! ## Ancestors -/

/-- `upper` is the label of the node directly above `lower`. -/
def Parent (spans : List (Span α)) (upper lower : α) : Prop :=
  ∃ span ∈ spans, span.label = lower ∧ span.parent = some upper

def Ancestor (spans : List (Span α)) : α → α → Prop := Relation.TransGen (Parent spans)

theorem Ancestor.mono {part whole : List (Span α)} {upper lower : α} (subset : part ⊆ whole)
    (ancestor : Ancestor part upper lower) : Ancestor whole upper lower := by
  refine Relation.TransGen.mono ?_ _ _ ancestor
  intro first second holds
  rcases holds with ⟨span, member, label, parent⟩
  exact ⟨span, subset member, label, parent⟩

section Node

variable (label : α) (children siblings : Forest α) (parent : Option α) (start : Nat)

theorem children_subset : children.spans (some label) (start + 1) ⊆
    (node label children siblings).spans parent start := by
  intro span member
  simp [spans, member]

theorem siblings_subset : siblings.spans parent (start + 2 * children.size + 2) ⊆
    (node label children siblings).spans parent start := by
  intro span member
  simp [spans, member]

end Node

/-- All nodes lie below the parent of the roots. -/
theorem ancestor_of_root {root : α} {start : Nat} {forest : Forest α} {span : Span α}
    (member : span ∈ forest.spans (some root) start) :
    Ancestor (forest.spans (some root) start) root span.label := by
  induction forest generalizing root start with
  | nil => cases member
  | node label children siblings childrenInduction siblingsInduction =>
      have head : Ancestor ((node label children siblings).spans (some root) start) root label :=
        .single ⟨_, List.mem_cons_self, rfl, rfl⟩
      have below := children_subset label children siblings (some root) start
      have beside := siblings_subset label children siblings (some root) start
      simp only [spans, List.mem_cons, List.mem_append] at member
      rcases member with rfl | inner | later
      · exact head
      · exact head.trans ((childrenInduction inner).mono below)
      · exact (siblingsInduction later).mono beside

theorem ancestor_of_inside {parent : Option α} {start : Nat} {forest : Forest α}
    {inner outer : Span α} (innerMember : inner ∈ forest.spans parent start)
    (outerMember : outer ∈ forest.spans parent start) (inside : inner.Inside outer) :
    Ancestor (forest.spans parent start) outer.label inner.label := by
  induction forest generalizing parent start with
  | nil => cases innerMember
  | node label children siblings childrenInduction siblingsInduction =>
      have below := children_subset label children siblings parent start
      have beside := siblings_subset label children siblings parent start
      rcases inside with ⟨opens, closes⟩
      simp only [spans, List.mem_cons, List.mem_append] at innerMember outerMember
      rcases outerMember with rfl | outerBelow | outerBeside
      · rcases innerMember with rfl | innerBelow | innerBeside
        · omega
        · exact (ancestor_of_root innerBelow).mono below
        · have bounds := span_bounds innerBeside
          dsimp only at closes
          omega
      · have outerBounds := span_bounds outerBelow
        rcases innerMember with rfl | innerBelow | innerBeside
        · dsimp only at opens
          omega
        · exact (childrenInduction innerBelow outerBelow).mono below
        · have bounds := span_bounds innerBeside
          omega
      · have outerBounds := span_bounds outerBeside
        rcases innerMember with rfl | innerBelow | innerBeside
        · dsimp only at opens
          omega
        · have bounds := span_bounds innerBelow
          omega
        · exact (siblingsInduction innerBeside outerBeside).mono beside

theorem inside_parent {parent : Option α} {start : Nat} {forest : Forest α} {inner : Span α}
    (member : inner ∈ forest.spans parent start) :
    inner.parent = parent ∨ ∃ outer ∈ forest.spans parent start,
      inner.parent = some outer.label ∧ inner.Inside outer := by
  induction forest generalizing parent start with
  | nil => cases member
  | node label children siblings childrenInduction siblingsInduction =>
      have below := children_subset label children siblings parent start
      have beside := siblings_subset label children siblings parent start
      simp only [spans, List.mem_cons, List.mem_append] at member
      rcases member with rfl | innerBelow | innerBeside
      · exact .inl rfl
      · right
        rcases childrenInduction innerBelow with root | ⟨outer, outerBelow, named, inside⟩
        · have bounds := span_bounds innerBelow
          refine ⟨_, List.mem_cons_self, root, ?_, ?_⟩
          all_goals dsimp only; omega
        · exact ⟨outer, below outerBelow, named, inside⟩
      · rcases siblingsInduction innerBeside with root | ⟨outer, outerBeside, named, inside⟩
        · exact .inl root
        · exact .inr ⟨outer, beside outerBeside, named, inside⟩

theorem span_eq_of_label {parent : Option α} {start : Nat} {forest : Forest α}
    (nodup : forest.labels.Nodup) {left right : Span α}
    (leftMember : left ∈ forest.spans parent start)
    (rightMember : right ∈ forest.spans parent start) (same : left.label = right.label) :
    left = right := by
  rw [← map_label_spans parent start] at nodup
  exact List.inj_on_of_nodup_map nodup leftMember rightMember same

/-- The bracket theorem: one node lies inside another one just when that is one
of its ancestors. -/
theorem inside_iff_ancestor {start : Nat} {forest : Forest α} (nodup : forest.labels.Nodup)
    {inner outer : Span α} (innerMember : inner ∈ forest.spans none start)
    (outerMember : outer ∈ forest.spans none start) :
    inner.Inside outer ↔ Ancestor (forest.spans none start) outer.label inner.label := by
  constructor
  · exact ancestor_of_inside innerMember outerMember
  · intro ancestor
    suffices along : ∀ lower, Ancestor (forest.spans none start) outer.label lower →
        ∀ span ∈ forest.spans none start, span.label = lower → span.Inside outer from
      along _ ancestor inner innerMember rfl
    have above : ∀ upper lower, Parent (forest.spans none start) upper lower →
        ∀ span ∈ forest.spans none start, span.label = lower →
          ∃ next ∈ forest.spans none start, next.label = upper ∧ span.Inside next := by
      intro upper lower holds
      rcases holds with ⟨found, member, label, parent⟩
      intro span spanMember same
      have equal := span_eq_of_label nodup member spanMember (label.trans same.symm)
      subst equal
      rcases inside_parent member with root | ⟨next, nextMember, named, inside⟩
      · simp [root] at parent
      · rw [named, Option.some.injEq] at parent
        exact ⟨next, nextMember, parent, inside⟩
    intro lower path
    induction path with
    | single step =>
        intro span member same
        rcases above _ _ step span member same with ⟨next, nextMember, label, inside⟩
        rwa [span_eq_of_label nodup nextMember outerMember label] at inside
    | tail before step induction =>
        intro span member same
        rcases above _ _ step span member same with ⟨next, nextMember, label, inside⟩
        exact inside.trans (induction next nextMember label)

end Forest

end Pmud.Foundation

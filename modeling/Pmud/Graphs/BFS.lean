import Mathlib.Data.List.Sublists
import Mathlib.Logic.Function.Basic
import Pmud.Foundation.Walks
import Pmud.Foundation.While
import Pmud.Graphs.Graph

/-! # Breadth-first search

`graph/include/BFS.h`.
-/

namespace Pmud.Graphs.BFS

open Foundation Function

inductive SearchColor
  | white
  | gray
  | black
  deriving DecidableEq, Repr

structure SearchData where
  pi : Nat → Int
  color : Nat → SearchColor
  d : Nat → Int
  graph : Graph

/-- The local variables. `pushed` records the calls of `Q.push` in their order. -/
structure State where
  pi : Nat → Int
  color : Nat → SearchColor
  d : Nat → Int
  Q : List Nat
  pushed : List Nat

/-- One step of the loop that fills the vectors. -/
def initVertex (s : Nat) (state : State) (u : Nat) : State :=
  if u = s then state
  else
    { state with
      color := update state.color u .white
      d := update state.d u intMax
      pi := update state.pi u invalidVertex }

/-- A new vector holds zeros, and `WHITE` is the first of the colours. -/
def emptyState : State where
  pi := fun _ => 0
  color := fun _ => .white
  d := fun _ => 0
  Q := []
  pushed := []

def initialState (V s : Nat) : State :=
  let filled := (List.range V).foldl (initVertex s) emptyState
  { pi := update filled.pi s invalidVertex
    color := update filled.color s .gray
    d := update filled.d s 0
    Q := filled.Q ++ [s]
    pushed := filled.pushed ++ [s] }

/-- The body of the loop over the neighbours of `u`. -/
def relax (u : Nat) (state : State) (v : Nat) : State :=
  if state.color v = .white then
    { color := update state.color v .gray
      d := update state.d v (state.d u + 1)
      pi := update state.pi v u
      Q := state.Q ++ [v]
      pushed := state.pushed ++ [v] }
  else state

-- `u` is a reference into the queue that still reads as the vertex after `Q.pop()`.
def visitFront (graph : Graph) (state : State) : State :=
  match state.Q with
  | [] => state
  | u :: _ =>
      let relaxed := (graph.vertex u).adj.foldl (relax u) state
      { relaxed with
        Q := relaxed.Q.tail
        color := update relaxed.color u .black }

def search (fuel : Nat) (graph : Graph) (s : Nat) : Option State :=
  whileLoop (fun state => !state.Q.isEmpty) (visitFront graph) fuel (initialState graph.V s)

def State.data (state : State) (graph : Graph) : SearchData where
  pi := state.pi
  color := state.color
  d := state.d
  graph := graph

/-- `none` when the search has not ended after `fuel` visits. The weak pointer
to the graph is `none` once the graph is gone. -/
def breadthFirstSearch (fuel : Nat) (graph : Option Graph) (s : Nat) :
    Option (Except String SearchData) :=
  match graph with
  | none => some (.error "graph is null")
  | some graph =>
      (search fuel graph s).map fun state => .ok (state.data graph)

/-! ## The invariant -/

/-- As the first loop leaves every vertex but `s`. -/
def State.Cleared (state : State) (v : Nat) : Prop :=
  state.color v = .white ∧ state.d v = intMax ∧ state.pi v = invalidVertex

/-- What holds between two visits and between two steps of the loop over the
neighbours. `done` are the vertices that have left the queue. -/
structure Frontier (graph : Graph) (s : Nat) (done : List Nat) (state : State) : Prop where
  order : state.pushed = done ++ state.Q
  nodup : state.pushed.Nodup
  within : ∀ v ∈ state.pushed, v < graph.V
  black : ∀ v ∈ done, state.color v = .black
  gray : ∀ v ∈ state.Q, state.color v = .gray
  white : ∀ v, v < graph.V → v ∉ state.pushed → state.Cleared v
  source : s ∈ state.pushed ∧ state.d s = 0 ∧ state.pi s = invalidVertex
  tree : ∀ v ∈ state.pushed, v ≠ s →
    ∃ u ∈ state.pushed, state.pi v = (u : Int) ∧ graph.Edge u v ∧ state.d v = state.d u + 1
  walk : ∀ v ∈ state.pushed, ∃ steps < state.pushed.length,
    Walk graph.Edge steps s v ∧ state.d v = (steps : Int)
  ascending : state.pushed.Pairwise fun u v => state.d u ≤ state.d v
  level : ∀ u rest, state.Q = u :: rest → ∀ v ∈ state.pushed, state.d v ≤ state.d u + 1
  closed : ∀ u ∈ done, ∀ v, graph.Edge u v →
    v ∈ state.pushed ∧ state.d v ≤ state.d u + 1

variable {graph : Graph} {s : Nat} {done : List Nat} {state : State}

theorem Frontier.pushed_iff (frontier : Frontier graph s done state) {v : Nat}
    (within : v < graph.V) : v ∈ state.pushed ↔ state.color v ≠ .white := by
  constructor
  · intro pushed
    rw [frontier.order, List.mem_append] at pushed
    rcases pushed with left | queued
    · simp [frontier.black v left]
    · simp [frontier.gray v queued]
  · intro seen
    by_contra missing
    exact seen (frontier.white v within missing).1

theorem Frontier.pushed_length_le (frontier : Frontier graph s done state) :
    state.pushed.length ≤ graph.V := by
  have subset : state.pushed ⊆ List.range graph.V :=
    fun v pushed => List.mem_range.mpr (frontier.within v pushed)
  simpa using (frontier.nodup.subperm subset).length_le

/-! ## The steps keep it -/

theorem initVertex_queue (s : Nat) (state : State) (u : Nat) :
    (initVertex s state u).Q = state.Q ∧ (initVertex s state u).pushed = state.pushed := by
  unfold initVertex
  split <;> exact ⟨rfl, rfl⟩

theorem initVertex_cleared {s v : Nat} (other : v ≠ s) (state : State) (u : Nat)
    (before : v = u ∨ state.Cleared v) : (initVertex s state u).Cleared v := by
  by_cases here : v = u
  · subst here
    simp [initVertex, other, State.Cleared]
  · have cleared := before.resolve_left here
    unfold initVertex
    split
    · exact cleared
    · simpa [State.Cleared, here] using cleared

theorem fill_cleared {s v : Nat} (other : v ≠ s) (vertices : List Nat) (state : State)
    (before : v ∈ vertices ∨ state.Cleared v) :
    (vertices.foldl (initVertex s) state).Cleared v := by
  induction vertices generalizing state with
  | nil => simpa using before
  | cons u rest induction =>
      apply induction (initVertex s state u)
      rcases before with member | cleared
      · rcases List.mem_cons.mp member with here | later
        · exact .inr (initVertex_cleared other state u (.inl here))
        · exact .inl later
      · exact .inr (initVertex_cleared other state u (.inr cleared))

theorem fill_queue (s : Nat) (vertices : List Nat) (state : State) :
    (vertices.foldl (initVertex s) state).Q = state.Q ∧
      (vertices.foldl (initVertex s) state).pushed = state.pushed := by
  induction vertices generalizing state with
  | nil => exact ⟨rfl, rfl⟩
  | cons u rest induction =>
      have first := initVertex_queue s state u
      have after := induction (initVertex s state u)
      exact ⟨after.1.trans first.1, after.2.trans first.2⟩

theorem frontier_initialState (graph : Graph) {s : Nat} (inside : s < graph.V) :
    Frontier graph s [] (initialState graph.V s) := by
  have queue := fill_queue s (List.range graph.V) emptyState
  have Q : (initialState graph.V s).Q = [s] := by simp [initialState, queue.1]; rfl
  have pushed : (initialState graph.V s).pushed = [s] := by
    simp [initialState, queue.2]; rfl
  have color : (initialState graph.V s).color s = .gray := by simp [initialState]
  have d : (initialState graph.V s).d s = 0 := by simp [initialState]
  have pi : (initialState graph.V s).pi s = invalidVertex := by simp [initialState]
  refine
    { order := by rw [Q, pushed, List.nil_append]
      nodup := by simp [pushed]
      within := by simpa [pushed] using inside
      black := by simp
      gray := by simpa [Q] using color
      white := ?_
      source := ⟨by simp [pushed], d, pi⟩
      tree := ?_
      walk := ?_
      ascending := by simp [pushed]
      level := ?_
      closed := by simp }
  · intro v within missing
    have other : v ≠ s := by simpa [pushed] using missing
    have cleared := fill_cleared other (List.range graph.V) emptyState
      (.inl (List.mem_range.mpr within))
    simpa [initialState, State.Cleared, other] using cleared
  · intro v member other
    simp [pushed, other] at member
  · intro v member
    rw [pushed, List.mem_singleton] at member
    subst member
    exact ⟨0, by simp [pushed], .refl v, by simpa using d⟩
  · intro u rest queued v member
    rw [pushed, List.mem_singleton] at member
    rw [Q, List.cons.injEq] at queued
    rw [member, ← queued.1, d]
    omega

theorem relax_of_white {v : Nat} (u : Nat) (white : state.color v = .white) :
    relax u state v =
      { color := update state.color v .gray
        d := update state.d v (state.d u + 1)
        pi := update state.pi v u
        Q := state.Q ++ [v]
        pushed := state.pushed ++ [v] } :=
  if_pos white

theorem relax_frame (u : Nat) (state : State) {v w : Nat} (other : w ≠ v) :
    (relax u state v).color w = state.color w ∧ (relax u state v).d w = state.d w ∧
      (relax u state v).pi w = state.pi w := by
  unfold relax
  split
  · exact ⟨update_of_ne other _ _, update_of_ne other _ _, update_of_ne other _ _⟩
  · exact ⟨rfl, rfl, rfl⟩

theorem mem_relax_of_white (u : Nat) {v w : Nat} (white : state.color v = .white) :
    w ∈ (relax u state v).pushed ↔ w ∈ state.pushed ∨ w = v := by
  simp [relax_of_white u white]

theorem relax_d_of_white (u : Nat) {v : Nat} (white : state.color v = .white) :
    (relax u state v).d v = state.d u + 1 := by
  simp [relax_of_white u white]

section Push

variable (frontier : Frontier graph s done state) {u v : Nat} (inside : v < graph.V)
  (white : state.color v = .white)
include frontier inside white

theorem Frontier.fresh : v ∉ state.pushed :=
  fun pushed => (frontier.pushed_iff inside).mp pushed white

/-- The vertices that were pushed before keep what they have. -/
theorem Frontier.relax_pushed_frame (u : Nat) {w : Nat} (pushed : w ∈ state.pushed) :
    (BFS.relax u state v).color w = state.color w ∧ (BFS.relax u state v).d w = state.d w ∧
      (BFS.relax u state v).pi w = state.pi w :=
  relax_frame u state fun same => frontier.fresh inside white (same ▸ pushed)

omit inside in
theorem Frontier.push_white {w : Nat} (bound : w < graph.V)
    (missing : w ∉ (BFS.relax u state v).pushed) : (BFS.relax u state v).Cleared w := by
  rw [mem_relax_of_white u white, not_or] at missing
  have cleared := frontier.white w bound missing.1
  have frame := relax_frame u state missing.2
  exact ⟨frame.1.trans cleared.1, frame.2.1.trans cleared.2.1, frame.2.2.trans cleared.2.2⟩

theorem Frontier.push_ascending (levels : ∀ w ∈ state.pushed, state.d w ≤ state.d u + 1) :
    (BFS.relax u state v).pushed.Pairwise fun first second =>
      (BFS.relax u state v).d first ≤ (BFS.relax u state v).d second := by
  have frame {w : Nat} (pushed : w ∈ state.pushed) :=
    (frontier.relax_pushed_frame inside white u pushed).2.1
  rw [relax_of_white u white, List.pairwise_append, ← relax_of_white u white]
  refine ⟨?_, List.pairwise_singleton _ _, ?_⟩
  · apply frontier.ascending.imp_of_mem
    intro earlier later first second order
    rwa [frame first, frame second]
  · intro w before last member
    rw [List.mem_singleton.mp member, frame before, relax_d_of_white u white]
    exact levels w before

variable (head : u ∈ state.pushed) (edge : graph.Edge u v)
include head edge

theorem Frontier.push_tree {w : Nat} (member : w ∈ (BFS.relax u state v).pushed)
    (other : w ≠ s) :
    ∃ parent ∈ (BFS.relax u state v).pushed, (BFS.relax u state v).pi w = (parent : Int) ∧
      graph.Edge parent w ∧
      (BFS.relax u state v).d w = (BFS.relax u state v).d parent + 1 := by
  have frame {w : Nat} (pushed : w ∈ state.pushed) :=
    frontier.relax_pushed_frame inside white u pushed
  have still {w : Nat} (pushed : w ∈ state.pushed) : w ∈ (BFS.relax u state v).pushed :=
    (mem_relax_of_white u white).mpr (.inl pushed)
  rcases (mem_relax_of_white u white).mp member with before | rfl
  · rcases frontier.tree w before other with ⟨parent, pushed, pi, step, d⟩
    refine ⟨parent, still pushed, (frame before).2.2.trans pi, step, ?_⟩
    rw [(frame before).2.1, (frame pushed).2.1, d]
  · refine ⟨u, still head, by simp [relax_of_white u white], edge, ?_⟩
    rw [relax_d_of_white u white, (frame head).2.1]

theorem Frontier.push_walk {w : Nat} (member : w ∈ (BFS.relax u state v).pushed) :
    ∃ steps < state.pushed.length + 1,
      Walk graph.Edge steps s w ∧ (BFS.relax u state v).d w = (steps : Int) := by
  rcases (mem_relax_of_white u white).mp member with before | rfl
  · rcases frontier.walk w before with ⟨steps, short, walk, d⟩
    have frame := frontier.relax_pushed_frame inside white u before
    exact ⟨steps, by omega, walk, frame.2.1.trans d⟩
  · rcases frontier.walk u head with ⟨steps, short, walk, d⟩
    refine ⟨steps + 1, by omega, walk.snoc edge, ?_⟩
    rw [relax_d_of_white u white, d]
    rfl

end Push

/-- A white neighbour of the front vertex joins the queue on the level below it. -/
theorem Frontier.push (frontier : Frontier graph s done state) {u v : Nat} {rest : List Nat}
    (front : state.Q = u :: rest) (edge : graph.Edge u v) (inside : v < graph.V)
    (white : state.color v = .white) : Frontier graph s done (relax u state v) := by
  have frame {w : Nat} (pushed : w ∈ state.pushed) :=
    frontier.relax_pushed_frame inside white u pushed
  have head : u ∈ state.pushed := by simp [frontier.order, front]
  have left {w : Nat} (member : w ∈ done) : w ∈ state.pushed := by
    simp [frontier.order, member]
  have waiting {w : Nat} (member : w ∈ state.Q) : w ∈ state.pushed := by
    simp [frontier.order, member]
  have levels := frontier.level u rest front
  have new := relax_of_white u white
  have pushes : (relax u state v).pushed = state.pushed ++ [v] := by rw [new]
  have queues : (relax u state v).Q = state.Q ++ [v] := by rw [new]
  have still {w : Nat} (pushed : w ∈ state.pushed) : w ∈ (relax u state v).pushed :=
    (mem_relax_of_white u white).mpr (.inl pushed)
  refine
    { order := by rw [pushes, queues, frontier.order, List.append_assoc]
      nodup := ?_
      within := ?_
      black := fun w member => (frame (left member)).1.trans (frontier.black w member)
      gray := ?_
      white := fun w bound missing => frontier.push_white white bound missing
      source := ?_
      tree := fun w member => frontier.push_tree inside white head edge member
      walk := ?_
      ascending := frontier.push_ascending inside white levels
      level := ?_
      closed := ?_ }
  · rw [pushes, ← List.concat_eq_append]
    exact frontier.nodup.concat (frontier.fresh inside white)
  · intro w member
    rcases (mem_relax_of_white u white).mp member with before | rfl
    · exact frontier.within w before
    · exact inside
  · intro w member
    rw [queues, List.mem_append, List.mem_singleton] at member
    rcases member with before | rfl
    · exact (frame (waiting before)).1.trans (frontier.gray w before)
    · simp [new]
  · rcases frontier.source with ⟨pushed, zero, root⟩
    exact ⟨still pushed, (frame pushed).2.1.trans zero, (frame pushed).2.2.trans root⟩
  · intro w member
    rw [pushes, List.length_append, List.length_singleton]
    exact frontier.push_walk inside white head edge member
  · intro first others queued w member
    rw [queues, front, List.cons_append, List.cons.injEq] at queued
    rw [← queued.1, (frame head).2.1]
    rcases (mem_relax_of_white u white).mp member with before | rfl
    · rw [(frame before).2.1]
      exact levels w before
    · exact Int.le_of_eq (relax_d_of_white u white)
  · intro w member x step
    rcases frontier.closed w member x step with ⟨pushed, rise⟩
    exact ⟨still pushed, by rwa [(frame pushed).2.1, (frame (left member)).2.1]⟩

theorem Frontier.relax (frontier : Frontier graph s done state) {u v : Nat} {rest : List Nat}
    (front : state.Q = u :: rest) (edge : graph.Edge u v) (inside : v < graph.V) :
    Frontier graph s done (relax u state v) := by
  by_cases white : state.color v = .white
  · exact frontier.push front edge inside white
  · rwa [BFS.relax, if_neg white]

theorem relax_pushed (u : Nat) (state : State) (v : Nat) :
    ∃ later, (relax u state v).Q = state.Q ++ later ∧
      (relax u state v).pushed = state.pushed ++ later := by
  unfold BFS.relax
  split
  · exact ⟨[v], rfl, rfl⟩
  · exact ⟨[], by simp⟩

theorem Frontier.mem_relax (frontier : Frontier graph s done state) (u : Nat) {v : Nat}
    (inside : v < graph.V) : v ∈ (BFS.relax u state v).pushed := by
  by_cases white : state.color v = .white
  · simp [relax_of_white u white]
  · rw [BFS.relax, if_neg white]
    exact (frontier.pushed_iff inside).mpr white

/-- The loop over the neighbours, from whichever of them it still has to visit. -/
theorem Frontier.scan (inRange : graph.InRange) {u : Nat} {rest : List Nat}
    (vertices : List Nat) (edges : ∀ v ∈ vertices, graph.Edge u v)
    (frontier : Frontier graph s done state) (front : state.Q = u :: rest) :
    let scanned := vertices.foldl (BFS.relax u) state
    Frontier graph s done scanned ∧
      (∃ later, scanned.Q = u :: (rest ++ later) ∧ scanned.pushed = state.pushed ++ later) ∧
      ∀ v ∈ vertices, v ∈ scanned.pushed := by
  induction vertices generalizing state rest with
  | nil => exact ⟨frontier, ⟨[], by simpa using front, by simp⟩, by simp⟩
  | cons v others induction =>
      have edge := edges v List.mem_cons_self
      have inside := inRange.edge edge
      rcases relax_pushed u state v with ⟨first, queue, pushed⟩
      rw [front, List.cons_append] at queue
      rcases induction (fun w member => edges w (List.mem_cons_of_mem v member))
        (frontier.relax front edge inside) queue with ⟨kept, ⟨later, queues, pushes⟩, all⟩
      refine ⟨kept, ⟨first ++ later, ?_, ?_⟩, ?_⟩
      · simpa using queues
      · rw [pushed, List.append_assoc] at pushes
        simpa using pushes
      · intro w member
        rcases List.mem_cons.mp member with rfl | other
        · have here := frontier.mem_relax u inside
          rw [List.foldl_cons, pushes]
          exact List.mem_append_left later here
        · exact all w other

/-- The visited vertex is the head of the queue in all of its loop, so it is the
one that leaves. -/
theorem Frontier.visitFront (inRange : graph.InRange) (frontier : Frontier graph s done state)
    {u : Nat} {rest : List Nat} (front : state.Q = u :: rest) :
    Frontier graph s (done ++ [u]) (visitFront graph state) := by
  rcases frontier.scan inRange (graph.vertex u).adj (fun v member => member) front with
    ⟨scanned, ⟨later, queue, pushes⟩, all⟩
  generalize relaxed : (graph.vertex u).adj.foldl (BFS.relax u) state = final at *
  have visited : BFS.visitFront graph state =
      { final with Q := rest ++ later, color := update final.color u .black } := by
    simp [BFS.visitFront, front, relaxed, queue]
  have order : final.pushed = done ++ u :: (rest ++ later) := by
    rw [scanned.order, queue]
  have nodup := scanned.nodup
  rw [order] at nodup
  have levels := scanned.level u _ queue
  rw [visited]
  refine
    { order := by simp [order]
      nodup := scanned.nodup
      within := scanned.within
      black := ?_
      gray := ?_
      white := ?_
      source := scanned.source
      tree := scanned.tree
      walk := scanned.walk
      ascending := scanned.ascending
      level := ?_
      closed := ?_ }
  · intro w member
    by_cases here : w = u
    · exact here ▸ update_self _ _ _
    · exact (update_of_ne here _ _).trans
        (scanned.black w (by simpa [here] using member))
  · intro w member
    have other : w ≠ u := by
      intro same
      subst same
      have distinct := (List.nodup_append.mp nodup).2.1
      exact (List.nodup_cons.mp distinct).1 member
    exact (update_of_ne other _ _).trans (scanned.gray w (by simp [queue, member]))
  · intro w bound missing
    have other : w ≠ u := by
      intro same
      subst same
      exact missing (by simp [order])
    have cleared := scanned.white w bound missing
    exact ⟨(update_of_ne other _ _).trans cleared.1, cleared.2⟩
  · intro first others queued w member
    have after : final.d u ≤ final.d first := by
      have ascending := scanned.ascending
      rw [order, List.pairwise_append] at ascending
      have head := (List.pairwise_cons.mp ascending.2.1).1
      exact head first (by simp [show rest ++ later = first :: others from queued])
    have level := levels w member
    show final.d w ≤ final.d first + 1
    omega
  · intro w member v edge
    rcases List.mem_append.mp member with before | here
    · exact scanned.closed w before v edge
    · rw [List.mem_singleton.mp here] at edge ⊢
      exact ⟨all v edge, levels v (all v edge)⟩

/-- Every visit takes one vertex out of the queue for good. -/
def remaining (graph : Graph) (state : State) : Nat :=
  graph.V + state.Q.length - state.pushed.length

theorem Frontier.remaining (frontier : Frontier graph s done state) :
    BFS.remaining graph state = graph.V - done.length := by
  have length := congrArg List.length frontier.order
  rw [List.length_append] at length
  unfold BFS.remaining
  omega

theorem search_ends (inRange : graph.InRange) (inside : s < graph.V) {fuel : Nat}
    (enough : graph.V ≤ fuel) :
    ∃ state done, search fuel graph s = some state ∧ Frontier graph s done state ∧
      state.Q = [] := by
  have initial := frontier_initialState graph inside
  have kept : ∀ state, (∃ done, Frontier graph s done state) → (!state.Q.isEmpty) = true →
      ∃ done, Frontier graph s done (BFS.visitFront graph state) := by
    intro state holds
    rcases holds with ⟨done, frontier⟩
    intro running
    cases queue : state.Q with
    | nil => simp [queue] at running
    | cons u rest => exact ⟨done ++ [u], frontier.visitFront inRange queue⟩
  have lowered : ∀ state, (∃ done, Frontier graph s done state) → (!state.Q.isEmpty) = true →
      BFS.remaining graph (BFS.visitFront graph state) < BFS.remaining graph state := by
    intro state holds
    rcases holds with ⟨done, frontier⟩
    intro running
    cases queue : state.Q with
    | nil => simp [queue] at running
    | cons u rest =>
        have length := congrArg List.length frontier.order
        rw [queue, List.length_append, List.length_cons] at length
        have bound := frontier.pushed_length_le
        rw [frontier.remaining, (frontier.visitFront inRange queue).remaining,
          List.length_append, List.length_singleton]
        omega
  have measure : BFS.remaining graph (initialState graph.V s) ≤ fuel := by
    rw [initial.remaining]
    exact enough
  rcases whileLoop_total _ _ _ (BFS.remaining graph) kept lowered ⟨[], initial⟩ measure with
    ⟨state, ends, ⟨done, frontier⟩, stopped⟩
  exact ⟨state, done, ends, frontier, by simpa using stopped⟩

/-! ## Shortest paths -/

theorem Frontier.labelling (frontier : Frontier graph s done state) (empty : state.Q = [])
    {v steps : Nat} (walk : Walk graph.Edge steps s v) :
    v ∈ state.pushed ∧ state.d v ≤ steps := by
  have order := frontier.order
  rw [empty, List.append_nil] at order
  exact walk.le_of_labelling frontier.source.1
    frontier.source.2.1 fun middle next pushed => frontier.closed middle (order ▸ pushed) next

theorem Frontier.pushed_iff_reachable (frontier : Frontier graph s done state)
    (empty : state.Q = []) {v : Nat} : v ∈ state.pushed ↔ graph.Reachable s v := by
  constructor
  · intro pushed
    rcases frontier.walk v pushed with ⟨steps, -, walk, -⟩
    exact walk.reachable
  · intro reachable
    rcases exists_walk reachable with ⟨steps, walk⟩
    exact (frontier.labelling empty walk).1

/-- What the arrays say about the graph. -/
structure ShortestPaths (graph : Graph) (s : Nat) (data : SearchData) : Prop where
  distance : ∀ v < graph.V, graph.Reachable s v → data.d v < intMax ∧
    ∃ steps : Nat, data.d v = steps ∧ IsDistance graph.Edge s v steps
  unreachable : ∀ v < graph.V, ¬graph.Reachable s v → data.d v = intMax
  black : ∀ v < graph.V, graph.Reachable s v → data.color v = .black
  white : ∀ v < graph.V, ¬graph.Reachable s v → data.color v = .white
  root : ∀ v < graph.V, data.pi v = invalidVertex ↔ v = s ∨ ¬graph.Reachable s v
  parent : ∀ v < graph.V, data.pi v ≠ invalidVertex →
    ∃ u < graph.V, data.pi v = (u : Int) ∧ graph.Edge u v ∧ data.d v = data.d u + 1

theorem Frontier.shortestPaths (frontier : Frontier graph s done state)
    (empty : state.Q = []) (small : (graph.V : Int) < intMax) :
    ShortestPaths graph s (state.data graph) := by
  have order := frontier.order
  rw [empty, List.append_nil] at order
  have reached {v : Nat} := @Frontier.pushed_iff_reachable graph s done state frontier empty v
  have missing : ∀ v < graph.V, ¬graph.Reachable s v → state.Cleared v :=
    fun v within apart => frontier.white v within (mt reached.mp apart)
  have parent : ∀ v, graph.Reachable s v → v ≠ s → ∃ u < graph.V,
      state.pi v = (u : Int) ∧ graph.Edge u v ∧ state.d v = state.d u + 1 := by
    intro v reachable other
    rcases frontier.tree v (reached.mpr reachable) other with ⟨u, pushed, tree⟩
    exact ⟨u, frontier.within u pushed, tree⟩
  refine
    { distance := ?_
      unreachable := fun v within apart => (missing v within apart).2.1
      black := fun v within reachable => frontier.black v (order ▸ reached.mpr reachable)
      white := fun v within apart => (missing v within apart).1
      root := ?_
      parent := ?_ }
  · intro v within reachable
    rcases frontier.walk v (reached.mpr reachable) with ⟨steps, short, walk, d⟩
    have bound := frontier.pushed_length_le
    refine ⟨?_, steps, d, walk, fun other along => ?_⟩
    · show state.d v < intMax
      omega
    · have least := (frontier.labelling empty along).2
      omega
  · intro v within
    constructor
    · intro unset
      by_contra neither
      rw [not_or, not_not] at neither
      rcases parent v neither.2 neither.1 with ⟨u, -, pi, -⟩
      have root : state.pi v = -1 := unset
      omega
    · intro either
      rcases either with rfl | apart
      · exact frontier.source.2.2
      · exact (missing v within apart).2.2
  · intro v within written
    have other : v ≠ s := by
      intro same
      subst same
      exact written frontier.source.2.2
    have reachable : graph.Reachable s v := by
      by_contra apart
      exact written (missing v within apart).2.2
    exact parent v reachable other

theorem breadthFirstSearch_correct (inRange : graph.InRange) (inside : s < graph.V)
    (small : (graph.V : Int) < intMax) {fuel : Nat} (enough : graph.V ≤ fuel) :
    ∃ state, search fuel graph s = some state ∧ state.pushed.Nodup ∧
      breadthFirstSearch fuel (some graph) s = some (.ok (state.data graph)) ∧
      ShortestPaths graph s (state.data graph) := by
  rcases search_ends inRange inside enough with ⟨state, done, ends, frontier, empty⟩
  refine ⟨state, ends, frontier.nodup, ?_, frontier.shortestPaths empty small⟩
  simp [breadthFirstSearch, ends]

theorem breadthFirstSearch_sampleGraph :
    ∃ state, search 4 sampleGraph 0 = some state ∧ state.pushed.Nodup ∧
      breadthFirstSearch 4 (some sampleGraph) 0 = some (.ok (state.data sampleGraph)) ∧
      ShortestPaths sampleGraph 0 (state.data sampleGraph) :=
  breadthFirstSearch_correct sampleGraph_inRange (by decide) (by decide) (by decide)

example : (search 4 sampleGraph 0).map (fun state => (List.range 4).map state.d) =
    some [0, 1, 2, intMax] := by
  decide

end Pmud.Graphs.BFS

import Mathlib.Data.Finset.Card
import Mathlib.Data.Finset.Range
import Mathlib.Logic.Function.Basic
import Pmud.Foundation.Forest
import Pmud.Foundation.Lists
import Pmud.Graphs.Graph

/-! # Depth-first search

`graph/include/DFS.h`. The clock is a parameter: the code's is an `int`, and the
proofs go by one that counts without end.
-/

namespace Pmud.Graphs.DFS

open Foundation Function

inductive SearchColor
  | white
  | gray
  | black
  deriving DecidableEq, Repr

structure SearchData where
  pi : Nat → Int
  color : Nat → SearchColor
  d : Nat → Int
  f : Nat → Int
  pGraph : Graph

/-- What `time++` does to a clock, and the number it shows. -/
class Clock (Time : Type) where
  zero : Time
  tick : Time → Time
  shown : Time → Int

/-- The clock of the code, an `int` of 32 bits that wraps around. -/
instance : Clock Int32 where
  zero := 0
  tick time := time + 1
  shown := Int32.toInt

instance : Clock Nat where
  zero := 0
  tick time := time + 1
  shown time := time

/-- What `DFS_Visit` gets by reference. `d` and `f` hold what the clock shows. -/
structure State (Time : Type) where
  time : Time
  pi : Nat → Int
  color : Nat → SearchColor
  d : Nat → Int
  f : Nat → Int

variable {Time : Type}

namespace State

def enter [Clock Time] (state : State Time) (u : Nat) : State Time :=
  { state with
    color := update state.color u .gray
    d := update state.d u (Clock.shown state.time)
    time := Clock.tick state.time }

def leave [Clock Time] (state : State Time) (u : Nat) : State Time :=
  { state with
    color := update state.color u .black
    f := update state.f u (Clock.shown state.time)
    time := Clock.tick state.time }

def setPi (state : State Time) (v u : Nat) : State Time :=
  { state with pi := update state.pi v u }

def data (state : State Time) (graph : Graph) : SearchData where
  pi := state.pi
  color := state.color
  d := state.d
  f := state.f
  pGraph := graph

end State

/-- The body of the loop over the neighbours of `u`. -/
def visitNeighbour (visit : Nat → State Time → Option (State Time)) (u : Nat)
    (state : State Time) (v : Nat) : Option (State Time) :=
  if state.color v = .white then visit v (state.setPi v u) else some state

/-- `none` when the recursion goes deeper than `fuel` calls. -/
def dfsVisit [Clock Time] (graph : Graph) : Nat → Nat → State Time → Option (State Time)
  | 0, _, _ => none
  | fuel + 1, u, state =>
      ((graph.vertex u).adj.foldlM (visitNeighbour (dfsVisit graph fuel) u)
        (state.enter u)).map (·.leave u)

def initVertex (state : State Time) (u : Nat) : State Time :=
  { state with
    color := update state.color u .white
    pi := update state.pi u (-1)
    d := update state.d u (-1)
    f := update state.f u (-1) }

/-- A new vector holds zeros, and `WHITE` is the first of the colours. -/
def emptyState [Clock Time] : State Time where
  time := Clock.zero
  pi := fun _ => 0
  color := fun _ => .white
  d := fun _ => 0
  f := fun _ => 0

def initialState [Clock Time] (V : Nat) : State Time :=
  (List.range V).foldl initVertex emptyState

/-- The body of the loop over the remainder. -/
def visitRemainder [Clock Time] (graph : Graph) (fuel s : Nat) (state : State Time) (u : Nat) :
    Option (State Time) :=
  if u = s then some state
  else if state.color u = .white then dfsVisit graph fuel u state
  else some state

def search (Time : Type) [Clock Time] (fuel : Nat) (graph : Graph) (s : Nat) :
    Option (State Time) :=
  (dfsVisit graph fuel s (initialState graph.V)).bind fun first =>
    (List.range graph.V).foldlM (visitRemainder graph fuel s) first

/-- The weak pointer to the graph is `none` once the graph is gone. -/
def depthFirstSearch (fuel : Nat) (graph : Option Graph) (s : Nat) :
    Option (Except String SearchData) :=
  match graph with
  | none => some (.error "graph is null")
  | some graph => (search Int32 fuel graph s).map fun state => .ok (state.data graph)

@[simp] theorem Clock.tick_nat (time : Nat) : Clock.tick time = time + 1 := rfl

@[simp] theorem Clock.shown_nat (time : Nat) : Clock.shown time = (time : Int) := rfl

/-! ## What a visit leaves behind -/

/-- The entry of `pi` for a vertex below `parent`. -/
def parentIndex : Option Nat → Int
  | none => invalidVertex
  | some u => u

def State.Records (state : State Time) (span : Span Nat) : Prop :=
  state.color span.label = .black ∧ state.pi span.label = parentIndex span.parent ∧
    state.d span.label = span.opened ∧ state.f span.label = span.closed

def State.Agrees (left right : State Time) (v : Nat) : Prop :=
  left.color v = right.color v ∧ left.pi v = right.pi v ∧ left.d v = right.d v ∧
    left.f v = right.f v

theorem State.Agrees.trans {first second third : State Time} {v : Nat}
    (left : first.Agrees second v) (right : second.Agrees third v) : first.Agrees third v :=
  ⟨left.1.trans right.1, left.2.1.trans right.2.1, left.2.2.1.trans right.2.2.1,
    left.2.2.2.trans right.2.2.2⟩

/-- What was written of a vertex stays when nothing more is. -/
theorem State.Agrees.records {before after : State Time} {span : Span Nat}
    (agrees : after.Agrees before span.label) (records : before.Records span) :
    after.Records span :=
  ⟨agrees.1.trans records.1, agrees.2.1.trans records.2.1, agrees.2.2.1.trans records.2.2.1,
    agrees.2.2.2.trans records.2.2.2⟩

/-- Vertices that have been discovered carry a time that has passed. -/
def State.Timely (state : State Nat) : Prop :=
  ∀ v, state.color v ≠ .white → state.d v < state.time

/-- The run between the two states has traversed `forest`, under `parent`. -/
structure Visited (graph : Graph) (parent : Option Nat) (forest : Forest Nat)
    (before after : State Nat) : Prop where
  time : after.time = before.time + 2 * forest.size
  nodup : forest.labels.Nodup
  within : ∀ v ∈ forest.labels, v < graph.V
  fresh : ∀ v ∈ forest.labels, before.color v = .white
  kept : ∀ v, v ∉ forest.labels → after.Agrees before v
  written : ∀ span ∈ forest.spans parent before.time, after.Records span
  edges : ∀ span ∈ forest.spans parent before.time, ∀ u, span.parent = some u →
    graph.Edge u span.label
  closed : ∀ span ∈ forest.spans parent before.time, ∀ v, graph.Edge span.label v →
    after.color v ≠ .white ∧ after.d v < span.closed

variable {graph : Graph} {parent : Option Nat} {forest : Forest Nat}
  {before middle after : State Nat}

theorem Visited.nil (graph : Graph) (parent : Option Nat) (state : State Nat) :
    Visited graph parent .nil state state where
  time := rfl
  nodup := .nil
  within := nofun
  fresh := nofun
  kept := fun _ _ => ⟨rfl, rfl, rfl, rfl⟩
  written := nofun
  edges := nofun
  closed := nofun

theorem Visited.black (visited : Visited graph parent forest before after) {v : Nat}
    (member : v ∈ forest.labels) : after.color v = .black := by
  rcases Forest.exists_span parent before.time member with ⟨span, spanMember, label⟩
  exact label ▸ (visited.written span spanMember).1

theorem Visited.white (visited : Visited graph parent forest before after) {v : Nat}
    (white : after.color v = .white) : before.color v = .white := by
  by_cases member : v ∈ forest.labels
  · exact visited.fresh v member
  · exact (visited.kept v member).1.symm.trans white

/-- A vertex that is still to be discovered has not been written to. -/
theorem Visited.agrees_of_white (visited : Visited graph parent forest before after) {v : Nat}
    (white : after.color v = .white) : after.Agrees before v :=
  visited.kept v fun member => by simp [visited.black member] at white

/-- A vertex that was discovered before is left alone. -/
theorem Visited.agrees (visited : Visited graph parent forest before after) {v : Nat}
    (seen : before.color v ≠ .white) : after.Agrees before v :=
  visited.kept v fun member => seen (visited.fresh v member)

theorem Visited.timely (visited : Visited graph parent forest before after)
    (timely : before.Timely) : after.Timely := by
  intro v seen
  rw [visited.time]
  by_cases member : v ∈ forest.labels
  · rcases Forest.exists_span parent before.time member with ⟨span, spanMember, rfl⟩
    have bounds := Forest.span_bounds spanMember
    rw [(visited.written span spanMember).2.2.1]
    omega
  · have same := visited.kept v member
    have passed := timely v (same.1 ▸ seen)
    rw [same.2.2.1]
    omega

theorem Visited.append {first later : Forest Nat}
    (left : Visited graph parent first before middle)
    (right : Visited graph parent later middle after) :
    Visited graph parent (first.append later) before after := by
  have apart : ∀ v ∈ first.labels, v ∉ later.labels := by
    intro v member again
    simpa [left.black member] using right.fresh v again
  have start := left.time
  refine
    { time := ?_
      nodup := ?_
      within := ?_
      fresh := ?_
      kept := ?_
      written := ?_
      edges := ?_
      closed := ?_ }
  · rw [right.time, left.time, Forest.size_append]
    omega
  · rw [Forest.labels_append, List.nodup_append]
    exact ⟨left.nodup, right.nodup, fun v member w again same => apart v member (same ▸ again)⟩
  · intro v member
    rw [Forest.labels_append, List.mem_append] at member
    exact member.elim (left.within v) (right.within v)
  · intro v member
    rw [Forest.labels_append, List.mem_append] at member
    exact member.elim (left.fresh v) fun later => left.white (right.fresh v later)
  · intro v missing
    rw [Forest.labels_append, List.mem_append, not_or] at missing
    exact (right.kept v missing.2).trans (left.kept v missing.1)
  all_goals
    intro span member
    rw [Forest.spans_append, List.mem_append, ← start] at member
  · rcases member with early | late
    · have kept := right.kept span.label (apart _ (Forest.mem_labels early))
      exact kept.records (left.written span early)
    · exact right.written span late
  · exact member.elim (left.edges span) (right.edges span)
  · rcases member with early | late
    · intro v edge
      rcases left.closed span early v edge with ⟨seen, passed⟩
      rcases right.agrees seen with ⟨color, pi, d, f⟩
      exact ⟨color ▸ seen, d ▸ passed⟩
    · exact right.closed span late

/-- Writing the entry of `pi` before the visit is part of the visit. -/
theorem Visited.of_setPi {v u : Nat} (member : v ∈ forest.labels)
    (visited : Visited graph parent forest (before.setPi v u) after) :
    Visited graph parent forest before after where
  time := visited.time
  nodup := visited.nodup
  within := visited.within
  fresh := visited.fresh
  kept := by
    intro w missing
    have other : w ≠ v := fun same => missing (same ▸ member)
    simpa [State.setPi, State.Agrees, other] using visited.kept w missing
  written := visited.written
  edges := visited.edges
  closed := visited.closed

/-- The loop over the neighbours makes the children of the vertex that was
entered before it and is left behind it. -/
theorem Visited.node {u : Nat} {children : Forest Nat} (inside : u < graph.V)
    (white : before.color u = .white) (pi : before.pi u = parentIndex parent)
    (below : ∀ w, parent = some w → graph.Edge w u)
    (visited : Visited graph (some u) children (before.enter u) middle)
    (timely : middle.Timely) (neighbours : ∀ v, graph.Edge u v → middle.color v ≠ .white) :
    Visited graph parent (.node u children .nil) before (middle.leave u) := by
  have apart : u ∉ children.labels := fun member => by
    simpa [State.enter] using visited.fresh u member
  have time : middle.time = before.time + 2 * children.size + 1 := by
    have later := visited.time
    simp only [State.enter, Clock.tick_nat] at later
    omega
  have spans : (Forest.node u children .nil).spans parent before.time =
      ⟨u, parent, before.time, before.time + 2 * children.size + 1⟩ ::
        children.spans (some u) (before.enter u).time := by
    simp [Forest.spans, State.enter]
  have still : ∀ v, middle.color v ≠ .white → (middle.leave u).color v ≠ .white := by
    intro v seen
    by_cases here : v = u
    · simp [State.leave, here]
    · simpa [State.leave, here] using seen
  refine
    { time := ?_
      nodup := by simpa [Forest.labels, visited.nodup] using apart
      within := ?_
      fresh := ?_
      kept := ?_
      written := ?_
      edges := ?_
      closed := ?_ }
  · simp only [State.leave, Forest.size, time, Clock.tick_nat]
    omega
  · intro v member
    simp only [Forest.labels, List.append_nil, List.mem_cons] at member
    rcases member with rfl | later
    · exact inside
    · exact visited.within v later
  · intro v member
    simp only [Forest.labels, List.append_nil, List.mem_cons] at member
    rcases member with rfl | later
    · exact white
    · have other : v ≠ u := fun same => apart (same ▸ later)
      simpa [State.enter, other] using visited.fresh v later
  · intro v missing
    simp only [Forest.labels, List.append_nil, List.mem_cons, not_or] at missing
    simpa [State.enter, State.leave, State.Agrees, missing.1] using visited.kept v missing.2
  all_goals
    intro span member
    rw [spans, List.mem_cons] at member
  · rcases member with rfl | later
    · rcases visited.kept u apart with ⟨-, samePi, sameD, -⟩
      refine ⟨by simp [State.leave], samePi.trans pi, ?_, by simp [State.leave, time]⟩
      exact sameD.trans (by simp [State.enter])
    · have other : span.label ≠ u := fun same => apart (same ▸ Forest.mem_labels later)
      simpa [State.Records, State.leave, other] using visited.written span later
  · rcases member with rfl | later
    · exact below
    · exact visited.edges span later
  · rcases member with rfl | later
    · intro v edge
      have seen := neighbours v edge
      refine ⟨still v seen, ?_⟩
      have passed := timely v seen
      rw [time] at passed
      exact passed
    · intro v edge
      rcases visited.closed span later v edge with ⟨seen, passed⟩
      exact ⟨still v seen, passed⟩

/-! ## Termination -/

/-- The vertices that a visit can still be made to. -/
def whites (graph : Graph) (state : State Nat) : Finset Nat :=
  {v ∈ Finset.range graph.V | state.color v = .white}

theorem Visited.whites_subset (visited : Visited graph parent forest before after) :
    whites graph after ⊆ whites graph before := by
  intro v member
  rw [whites, Finset.mem_filter] at member ⊢
  exact ⟨member.1, visited.white member.2⟩

theorem whites_enter {state : State Nat} {u : Nat} (inside : u < graph.V)
    (white : state.color u = .white) :
    (whites graph (state.enter u)).card < (whites graph state).card := by
  refine Finset.card_lt_card (Finset.ssubset_iff_of_subset ?_ |>.mpr ⟨u, ?_, ?_⟩)
  · intro v member
    rw [whites, Finset.mem_filter] at member ⊢
    have other : v ≠ u := by
      intro same
      subst same
      simp [State.enter] at member
    simpa [State.enter, other] using member
  · simp [whites, inside, white]
  · rw [whites, Finset.mem_filter, not_and]
    simp [State.enter]

/-- A loop whose body visits the vertices that are still white. -/
theorem fold_visits (step : State Nat → Nat → Option (State Nat)) (ready : State Nat → Prop)
    (kept : ∀ {forest before after}, ready before →
      Visited graph parent forest before after → ready after)
    (vertices : List Nat)
    (visits : ∀ v ∈ vertices, ∀ state, ready state → state.color v = .white →
      ∃ children after, step state v = some after ∧
        Visited graph parent (.node v children .nil) state after)
    (skips : ∀ v ∈ vertices, ∀ state, ready state → state.color v ≠ .white →
      step state v = some state)
    {state : State Nat} (start : ready state) :
    ∃ forest after, vertices.foldlM step state = some after ∧
      Visited graph parent forest state after ∧ ∀ v ∈ vertices, after.color v ≠ .white := by
  induction vertices generalizing state with
  | nil => exact ⟨.nil, state, rfl, .nil graph parent state, nofun⟩
  | cons v others induction =>
      have one : ∃ forest middle, step state v = some middle ∧
          Visited graph parent forest state middle ∧ middle.color v ≠ .white := by
        by_cases white : state.color v = .white
        · rcases visits v List.mem_cons_self state start white with
            ⟨children, middle, runs, visited⟩
          have black := visited.black (v := v) (by simp [Forest.labels])
          exact ⟨_, middle, runs, visited, by simp [black]⟩
        · exact ⟨.nil, state, skips v List.mem_cons_self state start white,
            .nil graph parent state, white⟩
      rcases one with ⟨first, middle, runs, visited, seen⟩
      rcases induction (fun w member => visits w (List.mem_cons_of_mem v member))
        (fun w member => skips w (List.mem_cons_of_mem v member)) (kept start visited) with
        ⟨rest, after, ends, later, all⟩
      refine ⟨first.append rest, after, by simp [runs, ends], visited.append later, ?_⟩
      intro w member
      rcases List.mem_cons.mp member with rfl | other
      · exact (later.agrees seen).1 ▸ seen
      · exact all w other

/-- A visit ends when the recursion may go as deep as there are white vertices. -/
theorem dfsVisit_visits (inRange : graph.InRange) {fuel u : Nat} {parent : Option Nat}
    {state : State Nat} (inside : u < graph.V) (below : ∀ w, parent = some w → graph.Edge w u)
    (timely : state.Timely) (white : state.color u = .white)
    (pi : state.pi u = parentIndex parent) (enough : (whites graph state).card ≤ fuel) :
    ∃ children after, dfsVisit graph fuel u state = some after ∧
      Visited graph parent (.node u children .nil) state after := by
  induction fuel generalizing u parent state with
  | zero =>
      have fewer := whites_enter inside white
      omega
  | succ fuel induction =>
      have entered : (state.enter u).Timely := by
        intro v seen
        by_cases here : v = u
        · simp only [State.enter, here, update_self, Clock.tick_nat, Clock.shown_nat]
          omega
        · have passed := timely v (by simpa [State.enter, here] using seen)
          simp only [State.enter, update_of_ne here, Clock.tick_nat]
          omega
      have fewer := whites_enter inside white
      let ready := fun state : State Nat => state.Timely ∧ (whites graph state).card ≤ fuel
      have kept : ∀ {forest before after}, ready before →
          Visited graph (some u) forest before after → ready after := fun ready visited =>
        ⟨visited.timely ready.1, (Finset.card_le_card visited.whites_subset).trans ready.2⟩
      have visits : ∀ v ∈ (graph.vertex u).adj, ∀ state, ready state →
          state.color v = .white → ∃ children after,
            visitNeighbour (dfsVisit graph fuel) u state v = some after ∧
              Visited graph (some u) (.node v children .nil) state after := by
        intro v edge state holds
        rcases holds with ⟨timely, few⟩
        intro white
        have below : ∀ w, some u = some w → graph.Edge w v := by
          intro w same
          cases same
          exact edge
        rcases @induction v (some u) (state.setPi v u) (inRange.edge edge) below timely white
          (by simp [State.setPi, parentIndex]) few with ⟨children, after, runs, visited⟩
        exact ⟨children, after, by simp [visitNeighbour, white, runs],
          visited.of_setPi (by simp [Forest.labels])⟩
      have skips : ∀ v ∈ (graph.vertex u).adj, ∀ state, ready state →
          state.color v ≠ .white →
            visitNeighbour (dfsVisit graph fuel) u state v = some state :=
        fun v edge state ready seen => if_neg seen
      rcases fold_visits _ ready kept (graph.vertex u).adj visits skips ⟨entered, by omega⟩
        with ⟨children, scanned, runs, visited, all⟩
      exact ⟨children, scanned.leave u, by simp [dfsVisit, runs],
        visited.node inside white pi below (visited.timely entered) all⟩

theorem initVertex_fold (vertices : List Nat) (state : State Time) :
    (vertices.foldl initVertex state).time = state.time ∧
      ∀ v, v ∈ vertices ∨ (state.color v = .white ∧ state.pi v = -1) →
        (vertices.foldl initVertex state).color v = .white ∧
          (vertices.foldl initVertex state).pi v = -1 := by
  induction vertices generalizing state with
  | nil => simp
  | cons u rest induction =>
      rcases induction (initVertex state u) with ⟨time, filled⟩
      refine ⟨time, fun v before => filled v ?_⟩
      by_cases here : v = u
      · simp [initVertex, here]
      · simpa [initVertex, here] using before

theorem initialState_white (V v : Nat) : (initialState V : State Nat).color v = .white := by
  suffices filled : ∀ (vertices : List Nat) (state : State Nat), state.color v = .white →
      (vertices.foldl initVertex state).color v = .white from filled _ _ rfl
  intro vertices
  induction vertices with
  | nil => exact fun state white => white
  | cons u rest induction =>
      intro state white
      apply induction
      by_cases here : v = u
      · simp [initVertex, here]
      · simpa [initVertex, here] using white

/-- The whole search traverses a forest whose first tree is that of `s`. -/
theorem search_visits (inRange : graph.InRange) {s : Nat} (inside : s < graph.V) {fuel : Nat}
    (enough : graph.V ≤ fuel) :
    ∃ children rest after, search Nat fuel graph s = some after ∧
      Visited graph none ((Forest.node s children .nil).append rest) (initialState graph.V)
        after ∧ ∀ v < graph.V, after.color v ≠ .white := by
  have few : ∀ state, (whites graph state).card ≤ fuel := fun state =>
    (Finset.card_filter_le _ _).trans (by simpa using enough)
  have root : ∀ v < graph.V, (initialState graph.V : State Nat).pi v = parentIndex none :=
    fun v within => ((initVertex_fold (List.range graph.V) emptyState).2 v
      (.inl (List.mem_range.mpr within))).2
  have timely : (initialState graph.V : State Nat).Timely := fun v seen =>
    absurd (initialState_white graph.V v) seen
  have noParent : ∀ v w, none = some w → graph.Edge w v := nofun
  rcases dfsVisit_visits inRange inside (noParent s) timely (initialState_white graph.V s)
    (root s inside) (few _) with ⟨children, first, runs, visited⟩
  let ready := fun state : State Nat => state.Timely ∧ state.color s ≠ .white ∧
    ∀ v < graph.V, state.color v = .white → state.pi v = parentIndex none
  have kept : ∀ {forest before after}, ready before →
      Visited graph none forest before after → ready after := by
    intro forest before after holds
    rcases holds with ⟨timely, seen, roots⟩
    intro visited
    exact ⟨visited.timely timely, (visited.agrees seen).1 ▸ seen, fun v within white =>
      (visited.agrees_of_white white).2.1.trans (roots v within (visited.white white))⟩
  have visits : ∀ v ∈ List.range graph.V, ∀ state, ready state → state.color v = .white →
      ∃ children after, visitRemainder graph fuel s state v = some after ∧
        Visited graph none (.node v children .nil) state after := by
    intro v member state holds
    rcases holds with ⟨timely, seen, roots⟩
    intro white
    have within := List.mem_range.mp member
    have other : v ≠ s := fun same => seen (same ▸ white)
    rcases dfsVisit_visits inRange within (noParent v) timely white (roots v within white)
      (few state) with ⟨children, after, runs, visited⟩
    exact ⟨children, after, by simp [visitRemainder, other, white, runs], visited⟩
  have skips : ∀ v ∈ List.range graph.V, ∀ state, ready state → state.color v ≠ .white →
      visitRemainder graph fuel s state v = some state := by
    intro v member state ready seen
    simp [visitRemainder, seen]
  have black := visited.black (v := s) (by simp [Forest.labels])
  have start : ready first := ⟨visited.timely timely, by simp [black],
    fun v within white => (visited.agrees_of_white white).2.1.trans (root v within)⟩
  rcases fold_visits _ ready kept (List.range graph.V) visits skips start with
    ⟨rest, after, ends, later, all⟩
  exact ⟨children, rest, after, by simp [search, runs, ends], visited.append later,
    fun v within => all v (List.mem_range.mpr within)⟩

/-! ## The bracket structure -/

def SearchData.Inside (data : SearchData) (v u : Nat) : Prop :=
  data.d u < data.d v ∧ data.f v < data.f u

/-- Proper ancestors along `pi`. -/
def SearchData.Ancestor (data : SearchData) : Nat → Nat → Prop :=
  Relation.TransGen fun u v => data.pi v = (u : Int)

structure Brackets (graph : Graph) (s : Nat) (data : SearchData) : Prop where
  black : ∀ v < graph.V, data.color v = .black
  start : data.d s = 0
  times : ((List.range graph.V).map data.d ++ (List.range graph.V).map data.f).Perm
    ((List.range (2 * graph.V)).map fun time : Nat => (time : Int))
  ordered : ∀ u < graph.V, data.d u < data.f u
  laminar : ∀ u < graph.V, ∀ v < graph.V, u ≠ v →
    data.f u < data.d v ∨ data.f v < data.d u ∨ data.Inside v u ∨ data.Inside u v
  parent : ∀ v < graph.V, data.pi v = -1 ∨ ∃ u < graph.V, data.pi v = (u : Int) ∧ graph.Edge u v
  inside_iff : ∀ u < graph.V, ∀ v < graph.V, data.Inside v u ↔ data.Ancestor u v

/-- A search that has traversed `forest` and found all vertices. -/
structure Traversed (graph : Graph) (forest : Forest Nat) (state : State Time) : Prop where
  labels : forest.labels.Perm (List.range graph.V)
  written : ∀ span ∈ forest.spans none 0, state.Records span
  edges : ∀ span ∈ forest.spans none 0, ∀ u, span.parent = some u → graph.Edge u span.label
  closed : ∀ span ∈ forest.spans none 0, ∀ v, graph.Edge span.label v →
    state.d v < span.closed

section Traversed

variable {state : State Time} (traversed : Traversed graph forest state)
include traversed

theorem Traversed.span {v : Nat} (within : v < graph.V) :
    ∃ span ∈ forest.spans none 0, span.label = v ∧ state.Records span := by
  have member := traversed.labels.mem_iff.mpr (List.mem_range.mpr within)
  rcases Forest.exists_span none 0 member with ⟨span, spanMember, label⟩
  exact ⟨span, spanMember, label, traversed.written span spanMember⟩

theorem Traversed.nodup : forest.labels.Nodup :=
  traversed.labels.nodup_iff.mpr List.nodup_range

theorem Traversed.size : forest.size = graph.V := by
  simpa using traversed.labels.length_eq

theorem Traversed.times :
    ((List.range graph.V).map state.d ++ (List.range graph.V).map state.f).Perm
      ((List.range (2 * graph.V)).map fun time : Nat => (time : Int)) := by
  have labels := Forest.map_label_spans none 0 forest
  have d : forest.labels.map state.d =
      ((forest.spans none 0).map Span.opened).map fun time : Nat => (time : Int) := by
    rw [← labels, List.map_map, List.map_map]
    exact List.map_congr_left fun span member => (traversed.written span member).2.2.1
  have f : forest.labels.map state.f =
      ((forest.spans none 0).map Span.closed).map fun time : Nat => (time : Int) := by
    rw [← labels, List.map_map, List.map_map]
    exact List.map_congr_left fun span member => (traversed.written span member).2.2.2
  calc
    ((List.range graph.V).map state.d ++ (List.range graph.V).map state.f).Perm
        (forest.labels.map state.d ++ forest.labels.map state.f) :=
      (traversed.labels.symm.map _).append (traversed.labels.symm.map _)
    _ = ((forest.spans none 0).map Span.opened ++ (forest.spans none 0).map Span.closed).map
          fun time : Nat => (time : Int) := by rw [d, f, List.map_append]
    List.Perm _ ((List.range (2 * graph.V)).map fun time : Nat => (time : Int)) := by
      rw [List.range_eq_range', ← traversed.size]
      exact (Forest.ticks_perm none 0 forest).map _

theorem Traversed.start {s : Nat} {children rest : Forest Nat}
    (first : forest = (Forest.node s children .nil).append rest) : state.d s = 0 := by
  have head : ⟨s, none, 0, 2 * children.size + 1⟩ ∈ forest.spans none 0 := by
    simp [first, Forest.append, Forest.spans]
  exact (traversed.written _ head).2.2.1

theorem Traversed.ordered {u : Nat} (within : u < graph.V) : state.d u < state.f u := by
  rcases traversed.span within with ⟨span, member, rfl, -, -, d, f⟩
  have bounds := Forest.span_bounds member
  rw [d, f]
  omega

theorem Traversed.laminar {u v : Nat} (uWithin : u < graph.V) (vWithin : v < graph.V)
    (different : u ≠ v) : state.f u < state.d v ∨ state.f v < state.d u ∨
      (state.data graph).Inside v u ∨ (state.data graph).Inside u v := by
  rcases traversed.span uWithin with ⟨first, firstMember, rfl, -, -, dFirst, fFirst⟩
  rcases traversed.span vWithin with ⟨second, secondMember, rfl, -, -, dSecond, fSecond⟩
  have apart : first ≠ second := fun same => different (congrArg Span.label same)
  have cases := Forest.laminar firstMember secondMember apart
  simp only [Span.Laminar, Span.Before, Span.Inside] at cases
  simp only [SearchData.Inside, State.data, dFirst, fFirst, dSecond, fSecond]
  omega

/-- The entries of `pi` are the parents in the forest. -/
theorem Traversed.parent_of_pi {u v : Nat} (within : v < graph.V) (pi : state.pi v = (u : Int)) :
    u < graph.V ∧ graph.Edge u v ∧ Forest.Parent (forest.spans none 0) u v := by
  rcases traversed.span within with ⟨span, member, rfl, -, record, -⟩
  have named : span.parent = some u := by
    rw [pi] at record
    cases parent : span.parent with
    | none => simp [parent, parentIndex, invalidVertex] at record
    | some w =>
        rw [parent] at record
        exact congrArg some (Int.ofNat_inj.mp record).symm
  refine ⟨?_, traversed.edges span member u named, span, member, rfl, named⟩
  rcases Forest.inside_parent member with root | ⟨outer, outerMember, label, -⟩
  · simp [root] at named
  · rw [label, Option.some.injEq] at named
    rw [← named, ← List.mem_range, ← traversed.labels.mem_iff]
    exact Forest.mem_labels outerMember

theorem Traversed.parent_or_root {v : Nat} (within : v < graph.V) :
    state.pi v = -1 ∨ ∃ u < graph.V, state.pi v = (u : Int) ∧ graph.Edge u v := by
  rcases traversed.span within with ⟨span, member, rfl, -, record, -⟩
  cases parent : span.parent with
  | none => exact .inl (by simpa [parent, parentIndex, invalidVertex] using record)
  | some u =>
      have pi : state.pi span.label = (u : Int) := by
        simpa [parent, parentIndex] using record
      rcases traversed.parent_of_pi within pi with ⟨uWithin, edge, -⟩
      exact .inr ⟨u, uWithin, pi, edge⟩

theorem Traversed.ancestor_iff {u v : Nat} (within : v < graph.V) :
    (state.data graph).Ancestor u v ↔ Forest.Ancestor (forest.spans none 0) u v := by
  constructor
  · intro ancestor
    induction ancestor with
    | single step => exact .single (traversed.parent_of_pi within step).2.2
    | tail before step induction =>
        rcases traversed.parent_of_pi within step with ⟨above, -, parent⟩
        exact (induction above).tail parent
  · refine Relation.TransGen.mono ?_ u v
    intro upper lower holds
    rcases holds with ⟨span, member, rfl, parent⟩
    have record := (traversed.written span member).2.1
    rwa [parent] at record

theorem Traversed.inside_iff {u v : Nat} (uWithin : u < graph.V) (vWithin : v < graph.V) :
    (state.data graph).Inside v u ↔ (state.data graph).Ancestor u v := by
  rw [traversed.ancestor_iff vWithin]
  rcases traversed.span uWithin with ⟨outer, outerMember, rfl, -, -, dOuter, fOuter⟩
  rcases traversed.span vWithin with ⟨inner, innerMember, rfl, -, -, dInner, fInner⟩
  rw [← Forest.inside_iff_ancestor traversed.nodup innerMember outerMember]
  simp only [SearchData.Inside, Span.Inside, State.data, dOuter, fOuter, dInner, fInner]
  omega

theorem Traversed.brackets {s : Nat} {children rest : Forest Nat}
    (first : forest = (Forest.node s children .nil).append rest) :
    Brackets graph s (state.data graph) where
  black := by
    intro v within
    rcases traversed.span within with ⟨span, -, rfl, black, -⟩
    exact black
  start := traversed.start first
  times := traversed.times
  ordered _ within := traversed.ordered within
  laminar _ uWithin _ vWithin := traversed.laminar uWithin vWithin
  parent _ within := traversed.parent_or_root within
  inside_iff _ uWithin _ vWithin := traversed.inside_iff uWithin vWithin

end Traversed

theorem search_traversed (inRange : graph.InRange) {s : Nat} (inside : s < graph.V)
    {fuel : Nat} (enough : graph.V ≤ fuel) :
    ∃ children rest state, search Nat fuel graph s = some state ∧
      Traversed graph ((Forest.node s children .nil).append rest) state := by
  rcases search_visits inRange inside enough with ⟨children, rest, state, ends, visited, all⟩
  have time : (initialState graph.V : State Nat).time = 0 :=
    (initVertex_fold (List.range graph.V) emptyState).1
  refine ⟨children, rest, state, ends, ?_, time ▸ visited.written, time ▸ visited.edges,
    fun span member v edge => (visited.closed span (time ▸ member) v edge).2⟩
  apply (List.perm_ext_iff_of_nodup visited.nodup List.nodup_range).mpr
  intro v
  rw [List.mem_range]
  refine ⟨visited.within v, fun within => ?_⟩
  by_contra missing
  exact all v within ((visited.kept v missing).1.trans (initialState_white graph.V v))

/-! ## The clock of the code -/

namespace State

/-- The state of the code where the proofs have the state of a clock without end. -/
def narrow (state : State Nat) : State Int32 where
  time := Int32.ofNat state.time
  pi := state.pi
  color := state.color
  d v := (state.d v).bmod Int32.size
  f v := (state.f v).bmod Int32.size

theorem bmod_update (values : Nat → Int) (u : Nat) (value : Int) :
    (fun v => (update values u value v).bmod Int32.size) =
      update (fun v => (values v).bmod Int32.size) u (value.bmod Int32.size) := by
  funext v
  by_cases here : v = u <;> simp [here]

theorem narrow_enter (state : State Nat) (u : Nat) :
    (state.enter u).narrow = state.narrow.enter u := by
  simp only [narrow, enter, bmod_update, Clock.tick_nat, Int32.ofNat_add, Clock.shown,
    Int32.toInt_ofNat']
  rfl

theorem narrow_leave (state : State Nat) (u : Nat) :
    (state.leave u).narrow = state.narrow.leave u := by
  simp only [narrow, leave, bmod_update, Clock.tick_nat, Int32.ofNat_add, Clock.shown,
    Int32.toInt_ofNat']
  rfl

theorem narrow_initVertex (state : State Nat) (u : Nat) :
    (initVertex state u).narrow = initVertex state.narrow u := by
  have blank : (-1 : Int).bmod Int32.size = -1 := by decide
  simp only [narrow, initVertex, bmod_update, blank]

theorem narrow_initialState (V : Nat) :
    (initialState V : State Nat).narrow = initialState V := by
  have empty : (emptyState : State Nat).narrow = emptyState := by
    have zero : (0 : Int).bmod Int32.size = 0 := by decide
    simp only [narrow, emptyState, zero]
    rfl
  rw [initialState, initialState, ← empty]
  exact (List.foldl_hom narrow fun state u => (narrow_initVertex state u).symm).symm

end State

theorem dfsVisit_narrow (graph : Graph) (fuel u : Nat) (state : State Nat) :
    dfsVisit graph fuel u state.narrow = (dfsVisit graph fuel u state).map State.narrow := by
  induction fuel generalizing u state with
  | zero => rfl
  | succ fuel induction =>
      have body : ∀ (state : State Nat) v,
          visitNeighbour (dfsVisit graph fuel) u state.narrow v =
            (visitNeighbour (dfsVisit graph fuel) u state v).map State.narrow := by
        intro state v
        by_cases white : state.color v = .white
        · rw [visitNeighbour, visitNeighbour, if_pos white]
          exact (if_pos white).trans (induction v (state.setPi v u))
        · rw [visitNeighbour, visitNeighbour, if_neg white]
          exact if_neg white
      rw [dfsVisit, dfsVisit, ← State.narrow_enter, Foundation.List.foldlM_hom State.narrow body]
      simp only [Option.map_map, Function.comp_def, State.narrow_leave]

/-- The code finds what the search with a clock without end finds, with the times that an `int`
can show. -/
theorem search_narrow (fuel : Nat) (graph : Graph) (s : Nat) :
    search Int32 fuel graph s = (search Nat fuel graph s).map State.narrow := by
  have body : ∀ (state : State Nat) u, visitRemainder graph fuel s state.narrow u =
      (visitRemainder graph fuel s state u).map State.narrow := by
    intro state u
    by_cases start : u = s
    · rw [visitRemainder, visitRemainder, if_pos start, if_pos start]
      rfl
    · rw [visitRemainder, visitRemainder, if_neg start, if_neg start]
      by_cases white : state.color u = .white
      · rw [if_pos white]
        exact (if_pos white).trans (dfsVisit_narrow graph fuel u state)
      · rw [if_neg white]
        exact if_neg white
  unfold search
  rw [← State.narrow_initialState, dfsVisit_narrow]
  cases dfsVisit graph fuel s (initialState graph.V : State Nat) with
  | none => rfl
  | some first => exact Foundation.List.foldlM_hom State.narrow body _ first

/-- A number of an `int` is kept. -/
theorem bmod_of_fits {n : Int} (low : 0 ≤ n) (high : n ≤ intMax) : n.bmod Int32.size = n := by
  simp only [intMax] at high
  simp only [Int.bmod, Int32.size]
  omega

/-- While the times are numbers of an `int` the two clocks show the same. -/
theorem Traversed.narrow {state : State Nat} (traversed : Traversed graph forest state)
    (inRange : graph.InRange) (few : 2 * (graph.V : Int) ≤ intMax + 1) :
    Traversed graph forest state.narrow := by
  have size := traversed.size
  have d : ∀ span ∈ forest.spans none 0, (state.narrow).d span.label = state.d span.label := by
    intro span member
    have bounds := Forest.span_bounds member
    have record := (traversed.written span member).2.2.1
    exact bmod_of_fits (by omega) (by omega)
  have f : ∀ span ∈ forest.spans none 0, (state.narrow).f span.label = state.f span.label := by
    intro span member
    have bounds := Forest.span_bounds member
    have record := (traversed.written span member).2.2.2
    exact bmod_of_fits (by omega) (by omega)
  refine ⟨traversed.labels, ?_, traversed.edges, ?_⟩
  · intro span member
    rcases traversed.written span member with ⟨black, pi, dRecord, fRecord⟩
    exact ⟨black, pi, (d span member).trans dRecord, (f span member).trans fRecord⟩
  · intro span member v edge
    rcases traversed.span (inRange.edge edge) with ⟨other, otherMember, rfl, -⟩
    rw [d other otherMember]
    exact traversed.closed span member other.label edge

/-- What the code returns, with the search that counts without end. -/
theorem depthFirstSearch_narrow (inRange : graph.InRange) {s : Nat} (inside : s < graph.V)
    {fuel : Nat} (enough : graph.V ≤ fuel) :
    ∃ children rest, ∃ state : State Nat,
      depthFirstSearch fuel (some graph) s = some (.ok (state.narrow.data graph)) ∧
      Traversed graph ((Forest.node s children .nil).append rest) state := by
  rcases search_traversed inRange inside enough with ⟨children, rest, state, ends, traversed⟩
  refine ⟨children, rest, state, ?_, traversed⟩
  rw [depthFirstSearch, search_narrow, ends]
  rfl

theorem depthFirstSearch_traversed (inRange : graph.InRange) {s : Nat} (inside : s < graph.V)
    {fuel : Nat} (enough : graph.V ≤ fuel) (few : 2 * (graph.V : Int) ≤ intMax + 1) :
    ∃ children rest, ∃ state : State Int32,
      depthFirstSearch fuel (some graph) s = some (.ok (state.data graph)) ∧
      Traversed graph ((Forest.node s children .nil).append rest) state := by
  rcases depthFirstSearch_narrow inRange inside enough with
    ⟨children, rest, state, ends, traversed⟩
  exact ⟨children, rest, state.narrow, ends, traversed.narrow inRange few⟩

/-- With at most `2 ^ 30` vertices all times are numbers of an `int`. -/
theorem depthFirstSearch_brackets (inRange : graph.InRange) {s : Nat} (inside : s < graph.V)
    {fuel : Nat} (enough : graph.V ≤ fuel) (few : 2 * (graph.V : Int) ≤ intMax + 1) :
    ∃ data, depthFirstSearch fuel (some graph) s = some (.ok data) ∧ Brackets graph s data := by
  rcases depthFirstSearch_traversed inRange inside enough few with
    ⟨children, rest, state, ends, traversed⟩
  exact ⟨state.data graph, ends, traversed.brackets rfl⟩

theorem depthFirstSearch_sampleGraph :
    ∃ data, depthFirstSearch 4 (some sampleGraph) 1 = some (.ok data) ∧
      Brackets sampleGraph 1 data :=
  depthFirstSearch_brackets sampleGraph_inRange (by decide) (by decide) (by decide)

example : (search Int32 4 sampleGraph 1).map (fun state =>
    (List.range 4).map fun v => (state.d v, state.f v, state.pi v)) =
      some [(2, 3, 2), (0, 5, -1), (1, 4, 1), (6, 7, -1)] := by
  decide

/-- With more vertices the last time is none of the numbers of an `int`. -/
theorem not_brackets_narrow (s : Nat) (state : State Nat)
    (many : intMax + 1 < 2 * (graph.V : Int)) : ¬ Brackets graph s (state.narrow.data graph) := by
  intro brackets
  have high : ∀ n : Int, n.bmod Int32.size ≤ intMax := by
    intro n
    simp only [intMax, Int.bmod, Int32.size]
    omega
  have last : (2 * graph.V - 1 : Nat) < 2 * graph.V := by
    simp only [intMax] at many
    omega
  have shown := brackets.times.mem_iff.mpr
    (List.mem_map_of_mem (f := fun time : Nat => (time : Int)) (List.mem_range.mpr last))
  have late : intMax < ((2 * graph.V - 1 : Nat) : Int) := by omega
  rcases List.mem_append.mp shown with found | found
  all_goals
    rcases List.mem_map.mp found with ⟨v, -, time⟩
    rw [← time] at late
    exact absurd (high _) (Int.not_le.mpr late)

/-- The clock runs over for a graph with `2 ^ 30 + 1` vertices and no edge. -/
theorem not_brackets_of_manyVertices :
    (Graph.create 1073741825 .graphtypeDirected).InRange ∧
      ∃ data, depthFirstSearch 1073741825
          (some (Graph.create 1073741825 .graphtypeDirected)) 0 = some (.ok data) ∧
        ¬ Brackets (Graph.create 1073741825 .graphtypeDirected) 0 data := by
  have inRange := Graph.InRange.create 1073741825 .graphtypeDirected
  have count : (Graph.create 1073741825 .graphtypeDirected).V = 1073741825 := rfl
  generalize Graph.create 1073741825 .graphtypeDirected = graph at *
  rcases depthFirstSearch_narrow inRange (s := 0) (by omega) (Nat.le_of_eq count) with
    ⟨children, rest, state, ends, -⟩
  refine ⟨inRange, _, ends, not_brackets_narrow 0 state ?_⟩
  rw [count]
  decide

end Pmud.Graphs.DFS

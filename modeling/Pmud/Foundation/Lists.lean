import Mathlib.Data.List.Basic
import Mathlib.Data.List.Forall2
import Mathlib.Data.List.Nodup

/-! # Supporting list theorems -/

namespace Pmud.Foundation.List

variable {α : Type}

/-- A list with a marked element splits at the first one. -/
theorem exists_first {marked : α → Prop} [DecidablePred marked] {items : List α}
    (occurs : ∃ item ∈ items, marked item) :
    ∃ before item behind, items = before ++ item :: behind ∧ marked item ∧
      ∀ other ∈ before, ¬ marked other := by
  have found : (items.find? fun item => decide (marked item)).isSome := by
    simpa using occurs
  rcases Option.isSome_iff_exists.mp found with ⟨item, equal⟩
  rcases List.find?_eq_some_iff_append.mp equal with ⟨holds, before, behind, split, fresh⟩
  exact ⟨before, item, behind, split, by simpa using holds,
    fun other member => by simpa using fresh other member⟩

/-- A list with a marked element splits at the last one. -/
theorem exists_last {marked : α → Prop} [DecidablePred marked] {items : List α}
    (occurs : ∃ item ∈ items, marked item) :
    ∃ before item behind, items = before ++ item :: behind ∧ marked item ∧
      ∀ other ∈ behind, ¬ marked other := by
  have reversed : ∃ item ∈ items.reverse, marked item := by simpa using occurs
  rcases exists_first reversed with ⟨behind, item, before, split, holds, fresh⟩
  refine ⟨before.reverse, item, behind.reverse, ?_, holds, ?_⟩
  · rw [← List.reverse_reverse items, split]
    simp
  · exact fun other member => fresh other (List.mem_reverse.mp member)

theorem map_eq_self {change : α → α} {items : List α}
    (fixed : ∀ item ∈ items, change item = item) : items.map change = items :=
  (List.map_congr_left fixed).trans (List.map_id items)

/-- Reading a list is either seeing no marked element or splitting at the first. -/
theorem none_or_first (marked : α → Prop) [DecidablePred marked] (items : List α) :
    (∀ item ∈ items, ¬ marked item) ∨
      ∃ before item behind, items = before ++ item :: behind ∧ marked item ∧
        ∀ other ∈ before, ¬ marked other := by
  by_cases occurs : ∃ item ∈ items, marked item
  · exact .inr (exists_first occurs)
  · exact .inl fun item member holds => occurs ⟨item, member, holds⟩

/-- Concatenations of blocks of the same lengths agree block by block. -/
theorem flatMap_eq_iff {β : Type} {first second : α → List β}
    (sameLength : ∀ item, (first item).length = (second item).length) (items : List α) :
    items.flatMap first = items.flatMap second ↔
      ∀ item ∈ items, first item = second item := by
  induction items with
  | nil => simp
  | cons item rest induction =>
      rw [List.flatMap_cons, List.flatMap_cons, List.forall_mem_cons, ← induction]
      constructor
      · intro equal
        exact List.append_inj equal (sameLength item)
      · intro holds
        rcases holds with ⟨head, tail⟩
        rw [head, tail]

/-- Of all the blocks only that of one element is kept. -/
theorem flatMap_single {β : Type} [DecidableEq α] (block : α → List β) {item : α}
    {items : List α} (nodup : items.Nodup) (member : item ∈ items) :
    (items.flatMap fun other => if other = item then block other else []) = block item := by
  induction items with
  | nil => cases member
  | cons other rest induction =>
      rw [List.nodup_cons] at nodup
      rcases nodup with ⟨absent, nodup⟩
      rw [List.flatMap_cons]
      by_cases same : other = item
      · subst same
        have none : (rest.flatMap fun next => if next = other then block next else []) = [] := by
          rw [List.flatMap_eq_nil_iff]
          intro next there
          have different : next ≠ other := by
            intro equal
            exact absent (equal ▸ there)
          exact if_neg different
        simp [none]
      · have there : item ∈ rest := (List.mem_cons.mp member).resolve_left (Ne.symm same)
        rw [if_neg same, induction nodup there, List.nil_append]

theorem flatMap_singleton_or_nil (kept : α → Prop) [DecidablePred kept] (items : List α) :
    (items.flatMap fun item => if kept item then [item] else []) =
      items.filter fun item => kept item := by
  induction items with
  | nil => rfl
  | cons item rest induction =>
      rw [List.flatMap_cons, List.filter_cons, induction]
      by_cases holds : kept item
      · simp [holds]
      · simp [holds]

/-- An element with a name of its own is the only one of that name. -/
theorem filter_eq_singleton {κ : Type} [DecidableEq κ] (name : α → κ) {item : α}
    {items : List α} (nodup : (items.map name).Nodup) (member : item ∈ items) :
    (items.filter fun other => name other = name item) = [item] := by
  induction items with
  | nil => cases member
  | cons other rest induction =>
      rw [List.map_cons, List.nodup_cons] at nodup
      rcases nodup with ⟨absent, nodup⟩
      rcases List.mem_cons.mp member with rfl | there
      · have none : (rest.filter fun next => name next = name item) = [] := by
          rw [List.filter_eq_nil_iff]
          intro next inside same
          exact absent (List.mem_map.mpr ⟨next, inside, of_decide_eq_true same⟩)
        rw [List.filter_cons_of_pos (by simp), none]
      · have different : ¬ name other = name item := by
          intro same
          exact absent (List.mem_map.mpr ⟨item, there, same.symm⟩)
        rw [List.filter_cons_of_neg (by simpa using different), induction nodup there]

/-- A relation that matters between elements of one name only can be checked name
by name. -/
theorem pairwise_iff_filter {κ : Type} [DecidableEq κ] (name : α → κ) {related : α → α → Prop}
    (apart : ∀ first second, name first ≠ name second → related first second)
    (items : List α) :
    items.Pairwise related ↔
      ∀ key, (items.filter fun item => name item = key).Pairwise related := by
  constructor
  · exact fun pairwise key => pairwise.filter _
  · intro named
    induction items with
    | nil => exact .nil
    | cons item rest induction =>
        refine List.pairwise_cons.mpr ⟨fun other member => ?_, induction fun key => ?_⟩
        · by_cases same : name item = name other
          · have head := named (name item)
            rw [List.filter_cons_of_pos (by simp), List.pairwise_cons] at head
            exact head.1 other (List.mem_filter.mpr ⟨member, by simp [same]⟩)
          · exact apart item other same
        · have whole := named key
          rw [List.filter_cons] at whole
          split at whole
          · exact (List.pairwise_cons.mp whole).2
          · exact whole

/-- A loop that counts. -/
theorem foldl_count (counted : α → Prop) [DecidablePred counted] (items : List α) (start : Int) :
    items.foldl (fun count item => if counted item then count + 1 else count) start =
      start + (items.filter fun item => counted item).length := by
  induction items generalizing start with
  | nil => simp
  | cons item rest induction =>
      rw [List.foldl_cons, induction, List.filter_cons]
      by_cases holds : counted item
      · simp only [holds, if_true, decide_true, List.length_cons]
        omega
      · simp [holds]

/-- A loop that assigns to the elements of a table one after the other. -/
theorem foldl_update [DecidableEq α] {β : Type} (value : α → β) (items : List α)
    (table : α → β) (item : α) :
    items.foldl (fun table index => Function.update table index (value index)) table item =
      if item ∈ items then value item else table item := by
  induction items generalizing table with
  | nil => rfl
  | cons first rest induction =>
      rw [List.foldl_cons, induction, Function.update_apply]
      by_cases same : item = first
      · simp [same]
      · simp [same]

/-- A counting loop keeps an invariant that knows how far it has come. -/
theorem foldl_range {β : Type} (invariant : Nat → β → Prop) {body : β → Nat → β} {start : β}
    {count : Nat} (starts : invariant 0 start)
    (step : ∀ index < count, ∀ state, invariant index state →
      invariant (index + 1) (body state index)) :
    invariant count ((List.range count).foldl body start) := by
  induction count with
  | zero => exact starts
  | succ count induction =>
      rw [List.range_succ, List.foldl_append]
      apply step count (Nat.lt_succ_self count)
      exact induction fun index below => step index (Nat.lt_succ_of_lt below)

/-! ## Adding what is not there yet -/

section AddNew

variable [DecidableEq α]

def addNew (items : List α) (item : α) : List α :=
  if item ∈ items then items else items ++ [item]

@[simp]
theorem mem_addNew (items : List α) (item other : α) :
    other ∈ addNew items item ↔ other ∈ items ∨ other = item := by
  unfold addNew
  split
  · next present =>
    constructor
    · exact .inl
    · intro either
      rcases either with there | rfl
      · exact there
      · exact present
  · simp

theorem nodup_addNew {items : List α} (nodup : items.Nodup) (item : α) :
    (addNew items item).Nodup := by
  unfold addNew
  split
  · exact nodup
  · next absent =>
    refine List.nodup_append.mpr ⟨nodup, List.nodup_singleton item, ?_⟩
    intro other present another added same
    rw [same, List.mem_singleton.mp added] at present
    exact absent present

/-- Without a repetition nothing is left out and the order is kept. -/
theorem foldl_addNew_of_nodup {items added : List α} (nodup : (items ++ added).Nodup) :
    added.foldl addNew items = items ++ added := by
  induction added generalizing items with
  | nil => simp
  | cons item rest induction =>
      have absent : item ∉ items := fun present =>
        (List.nodup_append.mp nodup).2.2 item present item (by simp) rfl
      have appended : addNew items item = items ++ [item] := if_neg absent
      rw [List.foldl_cons, appended, induction (by simpa using nodup), List.append_assoc,
        List.singleton_append]

end AddNew

/-- A loop that goes on where another one stopped. -/
theorem foldl_range'_add {State : Type} (body : State → Nat → State) (start first later : Nat)
    (state : State) :
    (List.range' (start + first) later).foldl body ((List.range' start first).foldl body state) =
      (List.range' start (first + later)).foldl body state := by
  rw [← List.foldl_append, List.range'_append_1]

/-- A table that is extended entry by entry, each computed from the ones before it. -/
theorem foldl_extend {next : List α → Nat → α} {entry : Nat → α} {start : Nat}
    (agrees : ∀ index, start ≤ index →
      next ((List.range index).map entry) index = entry index) (count : Nat) :
    (List.range' start count).foldl (fun table index => table ++ [next table index])
        ((List.range start).map entry) =
      (List.range (start + count)).map entry := by
  induction count with
  | zero => rfl
  | succ count induction =>
      rw [List.range'_concat, List.foldl_append, induction, Nat.one_mul, List.foldl_cons,
        List.foldl_nil, agrees _ (Nat.le_add_right _ _), ← Nat.add_assoc, List.range_succ,
        List.map_append]
      rfl

theorem getD_map_range {entry : Nat → α} {count index : Nat} (inside : index < count)
    (default : α) : ((List.range count).map entry).getD index default = entry index := by
  simp [List.getD_eq_getElem?_getD, inside]

/-- A list is the table of its entries. -/
theorem map_range_getD {items : List α} {count : Nat} (full : items.length = count)
    (default : α) : (List.range count).map (fun index => items.getD index default) = items := by
  subst full
  apply List.ext_getElem
  · simp
  · intro index _ bound
    simp [List.getD_eq_getElem?_getD, bound]

/-- Two loops whose bodies do the same to corresponding states. -/
theorem foldlM_hom {S T : Type} (change : S → T) {first : S → α → Option S}
    {second : T → α → Option T}
    (step : ∀ state item, second (change state) item = (first state item).map change)
    (items : List α) (state : S) :
    items.foldlM second (change state) = (items.foldlM first state).map change := by
  induction items generalizing state with
  | nil => rfl
  | cons item rest induction =>
      rw [List.foldlM_cons, List.foldlM_cons, step]
      cases first state item with
      | none => rfl
      | some next => exact induction next

/-- Steps that all succeed on what stands for something, one beside another. -/
theorem mapM_of_forall₂.{u, v, w} {α : Type u} {β : Type v} {γ : Type w}
    {before : α → β → Prop} {after : γ → β → Prop} {step : α → Option γ}
    (each : ∀ item meant, before item meant → ∃ next, step item = some next ∧ after next meant)
    {items : List α} {meanings : List β} (related : List.Forall₂ before items meanings) :
    ∃ results, items.mapM step = some results ∧ List.Forall₂ after results meanings := by
  induction related with
  | nil => exact ⟨[], rfl, .nil⟩
  | cons here _ induction =>
      rcases each _ _ here with ⟨next, done, there⟩
      rcases induction with ⟨results, all, rest⟩
      exact ⟨next :: results, by simp [List.mapM_cons, done, all], .cons there rest⟩

end Pmud.Foundation.List

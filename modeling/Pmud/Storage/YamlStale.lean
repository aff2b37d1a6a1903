import Pmud.Storage.YamlVisits

/-! # Deleting stale data only

A path is deleted before it is loaded. Two entries of one path delete each
other's data.
-/

namespace Pmud.Storage

open Foundation

/-- No path is deleted once something has been stored there. -/
def DeletesStaleOnly (path : ByteString) (idempotence : Bool) (node : Node) : Prop :=
  (yamlToStorage path idempotence node).calls.Pairwise fun made later =>
    made.isStore = true → later ≠ .delKey made.name

instance (path : ByteString) (idempotence : Bool) (node : Node) :
    Decidable (DeletesStaleOnly path idempotence node) :=
  inferInstanceAs (Decidable (List.Pairwise _ _))

namespace Visit

variable (visit : Visit)

theorem store_of_calls {made : StorageCall} (member : made ∈ visit.calls)
    (store : made.isStore = true) : made ∈ directStores visit.path visit.node := by
  rcases List.mem_append.mp member with deleting | direct
  · split at deleting
    · rw [List.mem_singleton.mp deleting] at store
      cases store
    · cases deleting
  · exact direct

theorem delKey_of_calls {key : ByteString} (member : .delKey key ∈ visit.calls) :
    visit.deleted = true ∧ key = visit.path := by
  rcases List.mem_append.mp member with deleting | direct
  · split at deleting
    · next deleted =>
      cases List.mem_singleton.mp deleting
      exact ⟨deleted, rfl⟩
    · cases deleting
  · have store := (directStores_name visit.path visit.node _ direct).2
    cases store

theorem calls_pairwise : visit.calls.Pairwise fun made later =>
    made.isStore = true → later ≠ .delKey made.name := by
  unfold calls
  rw [List.pairwise_append]
  refine ⟨?_, ?_, ?_⟩
  · split
    · exact List.pairwise_singleton _ _
    · exact .nil
  · apply List.Pairwise.imp_of_mem _ (List.pairwise_of_forall fun _ _ => trivial)
    intro made later _ member _ store same
    have stored := (directStores_name _ _ later member).2
    rw [same] at stored
    cases stored
  · intro made deleting later _ store
    split at deleting
    · rw [List.mem_singleton.mp deleting] at store
      cases store
    · cases deleting

/-- Two visits to one path are at peace when the later does not delete what the
earlier has stored. -/
theorem calls_apart {earlier later : Visit} (same : earlier.path = later.path) :
    (∀ made ∈ earlier.calls, ∀ next ∈ later.calls,
        made.isStore = true → next ≠ .delKey made.name) ↔
      (later.deleted = true → directStores earlier.path earlier.node = []) := by
  constructor
  · intro apart deleted
    rw [List.eq_nil_iff_forall_not_mem]
    intro made member
    rcases directStores_name _ _ made member with ⟨name, store⟩
    apply apart made (List.mem_append_right _ member) (.delKey later.path) _ store
    · rw [name, same]
    · exact List.mem_append_left _ (by simp [deleted])
  · intro bare made member next inside store deleting
    subst deleting
    have deleted := (later.delKey_of_calls inside).1
    have direct := earlier.store_of_calls member store
    rw [bare deleted] at direct
    cases direct

end Visit

theorem deletesStaleOnly_iff (path : ByteString) (idempotence : Bool) {node : Node}
    (keys : node.scalarKeys = true) :
    DeletesStaleOnly path idempotence node ↔
      (visits path idempotence node).Pairwise fun earlier later =>
        earlier.path = later.path → later.deleted = true →
          directStores earlier.path earlier.node = [] := by
  have places : (visits path idempotence node).Pairwise (fun earlier later =>
      earlier.path = later.path → later.deleted = true →
        directStores earlier.path earlier.node = []) ↔
      (places path idempotence node).Pairwise fun earlier later =>
        earlier.path = later.path → later.deleted = true →
          directStores earlier.path earlier.node = [] := by
    rw [places, List.pairwise_cons]
    refine (and_iff_right ?_).symm
    exact fun visit member same => absurd same.symm (ne_of_visits member)
  rw [places, DeletesStaleOnly, List.pairwise_iff_filter StorageCall.name,
    List.pairwise_iff_filter Visit.path]
  · apply forall_congr'
    intro place
    rw [calls_at path idempotence keys, List.pairwise_flatMap,
      and_iff_right fun visit _ => visit.calls_pairwise]
    apply List.Pairwise.iff_of_mem
    intro earlier later earlierMember laterMember
    have here : earlier.path = place := by simpa using (List.mem_filter.mp earlierMember).2
    have there : later.path = place := by simpa using (List.mem_filter.mp laterMember).2
    rw [Visit.calls_apart (here.trans there.symm)]
    exact (imp_iff_right (here.trans there.symm)).symm
  · exact fun earlier later different same => absurd same different
  · intro made later different store same
    rw [same] at different
    exact different rfl

/-- The keys `a_b` and `a:b` lead to one path. -/
def collidingKeys : Node :=
  .map [
    (some (text "a_b"), .map [(some (text "x"), .scalar (text "1"))]),
    (some (text "a:b"), .map [(some (text "y"), .scalar (text "2"))])]

theorem not_deletesStaleOnly_of_collidingKeys :
    ¬ DeletesStaleOnly (text "p") true collidingKeys := by
  decide

/-- The same entries under keys of their own. -/
def separateKeys : Node :=
  .map [
    (some (text "a_b"), .map [(some (text "x"), .scalar (text "1"))]),
    (some (text "c"), .map [(some (text "y"), .scalar (text "2"))])]

theorem deletesStaleOnly_iff_of_separateKeys :
    DeletesStaleOnly (text "p") true separateKeys ↔
      (visits (text "p") true separateKeys).Pairwise fun earlier later =>
        earlier.path = later.path → later.deleted = true →
          directStores earlier.path earlier.node = [] :=
  deletesStaleOnly_iff (text "p") true (by decide)

end Pmud.Storage

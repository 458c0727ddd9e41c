import DesktopPet.Proofs.Pack.Cycles
import DesktopPet.Proofs.Pack.Definitions
import Mathlib.Logic.Function.Iterate

/-!
# Sequences and their children

Which sequences stay and where their children are afterwards. Whatever reaches a cycle is dropped; the
sweep is repeated until every sequence that stays has a child that stays; and what stays is numbered anew
in order.
-/

namespace DesktopPet.Pack

/-! ## Sweeps -/

section Sweeps

variable (isSequence : Nat → Bool) (graph : List (List Nat))

theorem sweep_prefix (indices dropped : List Nat) :
    ∃ added, sweep isSequence graph indices dropped = dropped ++ added := by
  induction indices generalizing dropped with
  | nil => exact ⟨[], by rw [sweep, List.append_nil]⟩
  | cons i rest ih =>
    rw [sweep]
    split
    · obtain ⟨added, same⟩ := ih (dropped ++ [i])
      exact ⟨i :: added, by rw [same, List.append_assoc, List.singleton_append]⟩
    · exact ih dropped

private theorem sweep_marked (indices dropped : List Nat) (marked : Marked graph dropped)
    (inside : ∀ i ∈ indices, i < graph.length) : Marked graph (sweep isSequence graph indices dropped) := by
  induction indices generalizing dropped with
  | nil => exact marked
  | cons i rest ih =>
    have inside' : ∀ j ∈ rest, j < graph.length := fun j member => inside j (List.mem_cons_of_mem i member)
    rw [sweep]
    split
    next fresh =>
      have new : i ∉ dropped := by
        intro old
        simp [old] at fresh
      refine ih (dropped ++ [i]) ⟨?_, ?_⟩ inside'
      · exact List.nodup_append.mpr ⟨marked.nodup, List.nodup_singleton i, fun j old k same => by
          rw [List.mem_singleton.mp same]
          rintro rfl
          exact new old⟩
      · intro j member
        rcases List.mem_append.mp member with old | same
        · exact marked.bound j old
        · rw [List.mem_singleton.mp same]
          exact inside i List.mem_cons_self
    · exact ih dropped marked inside'

/-- When a sweep drops nothing, every sequence that stays has a child that stays. -/
theorem child_of_sweep_eq (indices dropped : List Nat) (fixed : sweep isSequence graph indices dropped = dropped)
    (i : Nat) (member : i ∈ indices) (stays : i ∉ dropped) (sequence : isSequence i = true) :
    ∃ j, Edge graph i j ∧ j ∉ dropped := by
  induction indices with
  | nil => cases member
  | cons k rest ih =>
    rw [sweep] at fixed
    split at fixed
    · obtain ⟨added, same⟩ := sweep_prefix isSequence graph rest (dropped ++ [k])
      have lengths := congrArg List.length (same.symm.trans fixed)
      simp only [List.length_append, List.length_singleton] at lengths
      omega
    next kept =>
      rcases List.mem_cons.mp member with rfl | later
      · simpa [stays, sequence, Edge] using kept
      · exact ih fixed later

/-- Repeated sweeps end with one that drops nothing, for each of the others drops something. -/
theorem sweepAll_fixed (fuel : Nat) (dropped : List Nat) (marked : Marked graph dropped)
    (enough : graph.length < fuel + dropped.length) :
    Marked graph (sweepAll isSequence graph fuel dropped) ∧
      (∀ i ∈ dropped, i ∈ sweepAll isSequence graph fuel dropped) ∧
      sweep isSequence graph (List.range graph.length) (sweepAll isSequence graph fuel dropped) =
        sweepAll isSequence graph fuel dropped := by
  induction fuel generalizing dropped with
  | zero =>
    have bound := marked.length_le
    omega
  | succ fuel ih =>
    have swept := sweep_marked isSequence graph (List.range graph.length) dropped marked
      (fun i member => List.mem_range.mp member)
    obtain ⟨added, grown⟩ := sweep_prefix isSequence graph (List.range graph.length) dropped
    rw [sweepAll]
    split
    next stopped =>
      have none : added = [] := by
        rw [grown, List.length_append] at stopped
        exact List.eq_nil_of_length_eq_zero (by omega)
      rw [none, List.append_nil] at grown
      exact ⟨marked, fun i member => member, grown⟩
    next going =>
      -- a sweep that does not stop has dropped something, so the fuel still exceeds what is left
      have longer : dropped.length < (sweep isSequence graph (List.range graph.length) dropped).length := by
        rw [grown, List.length_append] at going ⊢
        omega
      obtain ⟨last, kept, fixed⟩ := ih _ swept (by omega)
      refine ⟨last, fun i member => kept i ?_, fixed⟩
      rw [grown]
      exact List.mem_append_left added member

/-- What holds of all that was dropped before, and of every sequence of whose children it holds, holds of all that
a sweep drops. -/
theorem sweep_only (Holds : Nat → Prop)
    (step : ∀ i, isSequence i = true → (∀ j, Edge graph i j → Holds j) → Holds i) (indices dropped : List Nat)
    (start : ∀ i ∈ dropped, Holds i) : ∀ i ∈ sweep isSequence graph indices dropped, Holds i := by
  induction indices generalizing dropped with
  | nil => exact start
  | cons k rest ih =>
    rw [sweep]
    split
    next droppable =>
      simp only [Bool.and_eq_true, List.all_eq_true, decide_eq_true_eq] at droppable
      refine ih (dropped ++ [k]) fun i member => ?_
      rcases List.mem_append.mp member with old | same
      · exact start i old
      · rw [List.mem_singleton.mp same]
        exact step k droppable.1.2 fun j edge => start j (droppable.2 j edge)
    · exact ih dropped start

theorem sweepAll_only (Holds : Nat → Prop)
    (step : ∀ i, isSequence i = true → (∀ j, Edge graph i j → Holds j) → Holds i) (fuel : Nat) (dropped : List Nat)
    (start : ∀ i ∈ dropped, Holds i) : ∀ i ∈ sweepAll isSequence graph fuel dropped, Holds i := by
  induction fuel generalizing dropped with
  | zero => exact start
  | succ fuel ih =>
    rw [sweepAll]
    split
    · exact start
    · exact ih _ (sweep_only isSequence graph Holds step _ dropped start)

/-- Repeated sweeps are so many sweeps, and each of them drops something. -/
theorem sweepAll_rounds (fuel : Nat) (dropped : List Nat) :
    ∃ rounds added, sweepAll isSequence graph fuel dropped = dropped ++ added ∧ rounds ≤ added.length ∧
      sweepAll isSequence graph fuel dropped =
        (sweep isSequence graph (List.range graph.length))^[rounds] dropped := by
  induction fuel generalizing dropped with
  | zero => exact ⟨0, [], (List.append_nil dropped).symm, Nat.zero_le 0, rfl⟩
  | succ fuel ih =>
    rw [sweepAll]
    split
    · exact ⟨0, [], (List.append_nil dropped).symm, Nat.zero_le 0, rfl⟩
    next going =>
      obtain ⟨first, swept⟩ := sweep_prefix isSequence graph (List.range graph.length) dropped
      obtain ⟨rounds, added, grown, few, same⟩ := ih (sweep isSequence graph (List.range graph.length) dropped)
      refine ⟨rounds + 1, first ++ added, ?_, ?_, ?_⟩
      · rw [grown, swept, List.append_assoc]
      · rw [swept, List.length_append] at going
        rw [List.length_append]
        omega
      · rw [same, Function.iterate_succ_apply]

end Sweeps

/-! ## New indices -/

/-- What stays stands where its new index says. -/
theorem kept_of_newIndex? (count : Nat) (dropped : List Nat) (i j : Nat) (bound : i < count)
    (moved : newIndex? dropped i = some j) :
    i ∉ dropped ∧ ((List.range count).filter (· ∉ dropped))[j]? = some i := by
  rw [newIndex?] at moved
  split at moved
  · cases moved
  next stays =>
    refine ⟨stays, ?_⟩
    have place := Option.some.inj moved
    induction count with
    | zero => omega
    | succ count ih =>
      rw [List.range_succ, List.filter_append]
      by_cases last : i = count
      · have self : [count].filter (· ∉ dropped) = [i] := by simp [← last, stays]
        rw [self, ← last, List.getElem?_append_right (Nat.le_of_eq place), ← place, Nat.sub_self]
        rfl
      · have before := ih (by omega)
        have inside : j < ((List.range count).filter (· ∉ dropped)).length :=
          (List.getElem?_eq_some_iff.mp before).1
        rw [List.getElem?_append_left inside, before]

theorem newIndex?_of_stays (dropped : List Nat) (i : Nat) (stays : i ∉ dropped) :
    ∃ j, newIndex? dropped i = some j := by
  rw [newIndex?, if_neg stays]
  exact ⟨_, rfl⟩

/-- Where every entry yields something, the places stay as they are. -/
theorem getElem?_filterMap_of_isSome {α β : Type} (f : α → Option β) (entries : List α) (k : Nat)
    (yields : ∀ a ∈ entries, (f a).isSome = true) : (entries.filterMap f)[k]? = entries[k]?.bind f := by
  induction entries generalizing k with
  | nil => rfl
  | cons a rest ih =>
    obtain ⟨b, made⟩ := Option.isSome_iff_exists.mp (yields a List.mem_cons_self)
    have rest_yields : ∀ a ∈ rest, (f a).isSome = true := fun a member => yields a (List.mem_cons_of_mem _ member)
    rw [List.filterMap_cons_some made]
    cases k with
    | zero => simp [made]
    | succ k => simpa using ih k rest_yields

/-! ## Resolution -/

/-- The children of each action before anything is dropped. -/
def childGraph (compiled : List (ActionSpec × Action)) : List (List Nat) :=
  compiled.map fun entry => (children (compiled.map (·.2.name)) entry.1 entry.2).value

/-- The actions that the resolution drops. -/
def droppedActions (compiled : List (ActionSpec × Action)) : List Nat :=
  sweepAll (fun i => (compiled.map (·.2))[i]?.any (·.kind = .sequence)) (childGraph compiled)
    ((childGraph compiled).length + 1) (cyclic (childGraph compiled))

/-- The indices of the actions that stay, in order. -/
def keptActions (compiled : List (ActionSpec × Action)) : List Nat :=
  (List.range compiled.length).filter (· ∉ droppedActions compiled)

/-- An action as it stands after the resolution, by its index before. -/
def resolvedAt (compiled : List (ActionSpec × Action)) (i : Nat) : Option Action :=
  compiled[i]?.map fun entry =>
    { entry.2 with references := ((childGraph compiled).getD i []).filterMap (newIndex? (droppedActions compiled)) }

section Resolution

variable (compiled : List (ActionSpec × Action))

theorem resolveSequences_value :
    (resolveSequences compiled).value =
      (keptActions compiled).filterMap (resolvedAt compiled) := by
  have graph : (compiled.map fun entry => (children ((compiled.map (·.2)).map (·.name)) entry.1 entry.2).value) =
      childGraph compiled := by
    rw [List.map_map]
    rfl
  simp only [resolveSequences, Reported.bind_value, Reported.pure_value, Reported.forEach_value, graph,
    List.length_map]
  congr 1
  funext i
  rw [resolvedAt, List.getElem?_map, Option.map_map]
  rfl

/-- The children of a sequence are the declared ones that are known; nothing else has any. -/
theorem children_value (names : List String) (spec : ActionSpec) (action : Action) :
    (children names spec action).value =
      if action.kind = .sequence then spec.references.filterMap (lastIndexOf? · names) else [] := by
  rw [children]
  split
  · rw [Reported.forEachKept_value]
    exact congrArg (fun find => spec.references.filterMap find)
      (funext fun reference => Reported.lookup_value reference names _)
  · rfl

/-- The children of an action are known, and only sequences have any. -/
theorem edge_childGraph (i j : Nat) (edge : Edge (childGraph compiled) i j) :
    j < compiled.length ∧ ∃ entry, compiled[i]? = some entry ∧ entry.2.kind = .sequence := by
  rw [Edge, childGraph, List.getD_eq_getElem?_getD, List.getElem?_map] at edge
  cases there : compiled[i]? with
  | none =>
    rw [there] at edge
    cases edge
  | some entry =>
    simp only [there, Option.map_some, Option.getD_some, children_value] at edge
    split at edge
    next sequence =>
      obtain ⟨reference, _, found⟩ := List.mem_filterMap.mp edge
      have bound := lt_of_lastIndexOf? found
      rw [List.length_map] at bound
      exact ⟨bound, entry, rfl, sequence⟩
    · cases edge

theorem childGraph_length : (childGraph compiled).length = compiled.length := by
  rw [childGraph, List.length_map]

theorem cyclic_marked (graph : List (List Nat)) : Marked graph (cyclic graph) := by
  refine ⟨List.Nodup.filter _ List.nodup_range, fun i member => ?_⟩
  exact List.mem_range.mp (List.mem_of_mem_filter member)

/-- What is dropped in the end: all that reaches a cycle, and so much more that another sweep drops nothing. -/
theorem droppedActions_fixed :
    Marked (childGraph compiled) (droppedActions compiled) ∧
      (∀ i ∈ cyclic (childGraph compiled), i ∈ droppedActions compiled) ∧
      sweep (fun i => (compiled.map (·.2))[i]?.any (·.kind = .sequence)) (childGraph compiled)
        (List.range (childGraph compiled).length) (droppedActions compiled) = droppedActions compiled :=
  sweepAll_fixed _ _ _ _ (cyclic_marked (childGraph compiled)) (by omega)

/-- Below what stays everything ends, and a sequence that stays has a child that stays. -/
theorem stays_childGraph (i : Nat) (bound : i < compiled.length) (stays : i ∉ droppedActions compiled) :
    Acc (fun j i => Edge (childGraph compiled) i j) i ∧
      (compiled[i]?.any (·.2.kind = .sequence) = true →
        ∃ j, Edge (childGraph compiled) i j ∧ j ∉ droppedActions compiled) := by
  obtain ⟨_, grown, fixed⟩ := droppedActions_fixed compiled
  have inside : i < (childGraph compiled).length := by rw [childGraph_length]; exact bound
  constructor
  · exact acc_of_not_cyclic _ i inside fun cycles => stays (grown i cycles)
  · intro sequence
    refine child_of_sweep_eq _ _ _ _ fixed i (List.mem_range.mpr inside) stays ?_
    rw [List.getElem?_map, Option.any_map]
    exact sequence

theorem mem_keptActions (i : Nat) :
    i ∈ keptActions compiled ↔ i < compiled.length ∧ i ∉ droppedActions compiled := by
  simp [keptActions]

theorem resolveSequences_getElem? (k : Nat) :
    (resolveSequences compiled).value[k]? = (keptActions compiled)[k]?.bind (resolvedAt compiled) := by
  have yields : ∀ i ∈ keptActions compiled, (resolvedAt compiled i).isSome = true := by
    intro i member
    have bound := ((mem_keptActions compiled i).mp member).1
    simp [resolvedAt, bound]
  rw [resolveSequences_value, getElem?_filterMap_of_isSome _ _ _ yields]

/-- Where a resolved action stood before, and which children it still has. -/
theorem resolved_origin (k : Nat) (action : Action)
    (there : (resolveSequences compiled).value[k]? = some action) :
    ∃ i entry, (keptActions compiled)[k]? = some i ∧ compiled[i]? = some entry ∧
      action = { entry.2 with references := action.references } ∧
      ∀ target, target ∈ action.references ↔
        ∃ j, Edge (childGraph compiled) i j ∧ newIndex? (droppedActions compiled) j = some target := by
  rw [resolveSequences_getElem?] at there
  obtain ⟨i, place, resolved⟩ := Option.bind_eq_some_iff.mp there
  obtain ⟨entry, before, same⟩ := Option.map_eq_some_iff.mp resolved
  refine ⟨i, entry, place, before, by rw [← same], fun target => ?_⟩
  rw [← same]
  exact List.mem_filterMap

/-- A child of a resolved action is one of those that stay, and stands where the reference says. -/
theorem resolved_child (k target : Nat) (action : Action)
    (there : (resolveSequences compiled).value[k]? = some action) (member : target ∈ action.references) :
    target < (resolveSequences compiled).value.length ∧
      ∃ i j, (keptActions compiled)[k]? = some i ∧ (keptActions compiled)[target]? = some j ∧
        Edge (childGraph compiled) i j := by
  obtain ⟨i, _, place, _, _, references⟩ := resolved_origin compiled k action there
  obtain ⟨j, edge, moved⟩ := (references target).mp member
  obtain ⟨bound, _⟩ := edge_childGraph compiled i j edge
  obtain ⟨_, child⟩ := kept_of_newIndex? compiled.length (droppedActions compiled) j target bound moved
  refine ⟨?_, i, j, place, child, edge⟩
  have resolved : (resolveSequences compiled).value[target]? = resolvedAt compiled j := by
    rw [resolveSequences_getElem?, keptActions, child, Option.bind_some]
  rw [resolvedAt, List.getElem?_eq_getElem bound, Option.map_some] at resolved
  exact (List.getElem?_eq_some_iff.mp resolved).1

/-- The resolution leaves actions in order, and of each it changes the references only. -/
theorem resolved_sublist {γ : Type} (part : Action → γ)
    (unchanged : ∀ action references, part { action with references } = part action) :
    ((resolveSequences compiled).value.map part).Sublist (compiled.map fun entry => part entry.2) := by
  have whole : ((List.range compiled.length).filterMap (resolvedAt compiled)).map part =
      compiled.map fun entry => part entry.2 := by
    have yields : ∀ i ∈ List.range compiled.length, (resolvedAt compiled i).isSome = true := by
      intro i member
      simp [resolvedAt, List.mem_range.mp member]
    apply List.ext_getElem?
    intro k
    rw [List.getElem?_map, List.getElem?_map, getElem?_filterMap_of_isSome _ _ _ yields]
    by_cases bound : k < compiled.length
    · simp [resolvedAt, bound, unchanged]
    · simp [bound]
  rw [← whole, resolveSequences_value]
  exact (List.filter_sublist.filterMap _).map _

/-- After the resolution an action is a sequence exactly if it has children. -/
theorem resolved_sequence (k : Nat) (action : Action)
    (there : (resolveSequences compiled).value[k]? = some action) :
    action.kind = .sequence ↔ action.references ≠ [] := by
  obtain ⟨i, entry, place, before, same, references⟩ := resolved_origin compiled k action there
  have kind : action.kind = entry.2.kind := by rw [same]
  constructor
  · intro sequence
    obtain ⟨bound, stays⟩ := (mem_keptActions compiled i).mp (List.mem_of_getElem? place)
    obtain ⟨j, edge, child_stays⟩ := (stays_childGraph compiled i bound stays).2 (by
      rw [before, Option.any_some, ← kind, sequence]
      rfl)
    obtain ⟨target, moved⟩ := newIndex?_of_stays (droppedActions compiled) j child_stays
    exact List.ne_nil_of_mem ((references target).mpr ⟨j, edge, moved⟩)
  · intro some_child
    obtain ⟨target, member⟩ := List.exists_mem_of_ne_nil _ some_child
    obtain ⟨j, edge, _⟩ := (references target).mp member
    obtain ⟨_, origin, again, sequence⟩ := edge_childGraph compiled i j edge
    rw [before] at again
    rw [kind, Option.some.inj again, sequence]

/-- Below a resolved action everything ends, as it did before: the new indices follow the old edges. -/
theorem resolved_acc (c : Catalog) (actions : c.actions = (resolveSequences compiled).value) (k i : Nat)
    (place : (keptActions compiled)[k]? = some i)
    (ends : Acc (fun j i => Edge (childGraph compiled) i j) i) : Acc (fun j i => c.Refers i j) k := by
  -- along the old edges, which the places of what stays carry over to the new references
  induction ends generalizing k with
  | intro i _ ih =>
    refine ⟨k, fun target refers => ?_⟩
    obtain ⟨action, there, member⟩ := refers
    rw [Catalog.action?, actions] at there
    obtain ⟨_, i', j, place', child, edge⟩ := resolved_child compiled k target action there member
    rw [place, Option.some.injEq] at place'
    subst place'
    exact ih j edge target child

theorem resolved_acyclic (c : Catalog) (actions : c.actions = (resolveSequences compiled).value) (k : Nat) :
    ¬ Relation.TransGen c.Refers k k := by
  intro cycle
  obtain ⟨_, first, _⟩ := Relation.TransGen.head'_iff.mp cycle
  obtain ⟨action, there, _⟩ := first
  rw [Catalog.action?, actions] at there
  obtain ⟨i, _, place, _⟩ := resolved_origin compiled k action there
  obtain ⟨bound, stays⟩ := (mem_keptActions compiled i).mp (List.mem_of_getElem? place)
  have ends := (stays_childGraph compiled i bound stays).1
  exact not_reachesCycle_of_acc (resolved_acc compiled c actions k i place ends) ⟨k, .refl, cycle⟩

end Resolution

end DesktopPet.Pack

import DesktopPet.Pack.Compile
import Mathlib.Data.List.Nodup
import Mathlib.Data.List.Perm.Subperm
import Mathlib.Logic.Relation

/-!
# The search for cycles

`mem_cyclic`: the search finds exactly the actions from which a cycle can be reached, although it answers out of
its marks while it is still below other actions. The invariant is `Searching`. The actions that are entered are
those on the way down to where the search is, so that to meet one of them again closes a cycle; and each action was
left with the right answer, for when it was left each of its children had been left or was on the way down.
-/

namespace DesktopPet.Pack

/-! ## Reaching a cycle -/

section Relations

variable {α β : Type} {r : α → α → Prop}

/-- A cycle can be reached. -/
def ReachesCycle (r : α → α → Prop) (a : α) : Prop :=
  ∃ b, Relation.ReflTransGen r a b ∧ Relation.TransGen r b b

theorem ReachesCycle.head {a b : α} (edge : r a b) (reaches : ReachesCycle r b) : ReachesCycle r a := by
  obtain ⟨c, path, cycle⟩ := reaches
  exact ⟨c, path.head edge, cycle⟩

/-- Maps that keep edges keep cycles. -/
theorem ReachesCycle.lift {s : β → β → Prop} (f : α → β) (edges : ∀ a b, r a b → s (f a) (f b)) {a : α}
    (reaches : ReachesCycle r a) : ReachesCycle s (f a) := by
  obtain ⟨b, path, cycle⟩ := reaches
  exact ⟨f b, path.lift f edges, cycle.lift f edges⟩

/-- Where everything ends there is no cycle. -/
theorem not_reachesCycle_of_acc {a : α} (ends : Acc (fun b a => r a b) a) : ¬ ReachesCycle r a := by
  induction ends with
  | intro a _ ih =>
    rintro ⟨b, path, cycle⟩
    rcases Relation.ReflTransGen.cases_head path with rfl | ⟨c, edge, rest⟩
    · obtain ⟨c, edge, back⟩ := Relation.TransGen.head'_iff.mp cycle
      exact ih c edge ⟨a, back, cycle⟩
    · exact ih c edge ⟨b, rest, cycle⟩

end Relations

/-- One action has another as a child. -/
def Edge (graph : List (List Nat)) (i j : Nat) : Prop :=
  j ∈ graph.getD i []

/-- Indices of a graph that are marked, none of them twice. -/
structure Marked (graph : List (List Nat)) (indices : List Nat) : Prop where
  nodup : indices.Nodup
  bound : ∀ i ∈ indices, i < graph.length

theorem Marked.length_le {graph : List (List Nat)} {indices : List Nat} (marked : Marked graph indices) :
    indices.length ≤ graph.length := by
  have inside : indices ⊆ List.range graph.length := fun i member => List.mem_range.mpr (marked.bound i member)
  simpa using (List.Nodup.subperm marked.nodup inside).length_le

/-! ## The state of the search -/

private theorem getD_set (marks : List Mark) (i j : Nat) (mark : Mark) (bound : i < marks.length) :
    (marks.set i mark).getD j .unseen = if i = j then mark else marks.getD j .unseen := by
  rw [List.getD_eq_getElem?_getD, List.getElem?_set]
  simp only [bound, ↓reduceIte]
  split
  · rfl
  · rw [List.getD_eq_getElem?_getD]

/-- What it means that an action is left: a cycle can be reached from it, or below it everything ends. -/
def Verdict (graph : List (List Nat)) (i : Nat) : Bool → Prop
  | true => ReachesCycle (Edge graph) i
  | false => Acc (fun j i => Edge graph i j) i

/-- The search stands below the actions `above`, and what it has left it has left rightly. -/
structure Searching (graph : List (List Nat)) (above : List Nat) (marks : List Mark) : Prop where
  size : marks.length = graph.length
  marked : Marked graph above
  entered : ∀ i, marks.getD i .unseen = .entered ↔ i ∈ above
  verdict : ∀ i cyclic, marks.getD i .unseen = .left cyclic → Verdict graph i cyclic

/-- A search from some actions is over. It stands where it stood, has the answer for all of them together, and has
left those that it was not below. -/
structure Searched (graph : List (List Nat)) (above : List Nat) (marks : List Mark) (targets : List Nat)
    (answer : Bool × List Mark) : Prop where
  searching : Searching graph above answer.2
  hit : answer.1 = true → ∃ i ∈ targets, ReachesCycle (Edge graph) i
  ends : answer.1 = false → ∀ i ∈ targets, Acc (fun j i => Edge graph i j) i
  kept : ∀ i cyclic, marks.getD i .unseen = .left cyclic → answer.2.getD i .unseen = .left cyclic
  left : ∀ i ∈ targets, i < graph.length → i ∉ above → ∃ cyclic, answer.2.getD i .unseen = .left cyclic

section Search

variable {graph : List (List Nat)} {above : List Nat} {marks : List Mark}

theorem Searching.initial (graph : List (List Nat)) :
    Searching graph [] (List.replicate graph.length .unseen) := by
  have unseen (i : Nat) : (List.replicate graph.length Mark.unseen).getD i .unseen = .unseen := by
    rw [List.getD_eq_getElem?_getD, List.getElem?_replicate]
    split
    · rfl
    · rfl
  refine ⟨List.length_replicate, ⟨.nil, nofun⟩, fun i => ?_, fun i cyclic left => ?_⟩
  · rw [unseen i]
    exact iff_of_false nofun List.not_mem_nil
  · rw [unseen i] at left
    cases left

/-- The search enters an action that it has not seen. -/
theorem Searching.enter (searching : Searching graph above marks) {i : Nat} (bound : i < graph.length)
    (unseen : marks.getD i .unseen = .unseen) : Searching graph (i :: above) (marks.set i .entered) := by
  have inside : i < marks.length := by rw [searching.size]; exact bound
  have new : i ∉ above := by
    rw [← searching.entered i, unseen]
    exact nofun
  refine ⟨by rw [List.length_set, searching.size], ⟨List.nodup_cons.mpr ⟨new, searching.marked.nodup⟩, ?_⟩, ?_, ?_⟩
  · intro j member
    rcases List.mem_cons.mp member with rfl | old
    · exact bound
    · exact searching.marked.bound j old
  · intro j
    rw [getD_set marks i j _ inside, List.mem_cons]
    split
    next same => simp [same]
    next other => rw [searching.entered j, or_iff_right (Ne.symm other)]
  · intro j cyclic left
    rw [getD_set marks i j _ inside] at left
    split at left
    · cases left
    · exact searching.verdict j cyclic left

/-- The search leaves the action that it entered last. -/
theorem Searching.leave {i : Nat} (searching : Searching graph (i :: above) marks) {cyclic : Bool}
    (verdict : Verdict graph i cyclic) : Searching graph above (marks.set i (.left cyclic)) := by
  obtain ⟨new, distinct⟩ := List.nodup_cons.mp searching.marked.nodup
  have inside : i < marks.length := by
    rw [searching.size]
    exact searching.marked.bound i List.mem_cons_self
  refine ⟨by rw [List.length_set, searching.size], ⟨distinct, ?_⟩, ?_, ?_⟩
  · exact fun j member => searching.marked.bound j (List.mem_cons_of_mem i member)
  · intro j
    rw [getD_set marks i j _ inside]
    split
    next same => simpa [← same] using new
    next other => rw [searching.entered j, List.mem_cons, or_iff_right (Ne.symm other)]
  · intro j found left
    rw [getD_set marks i j _ inside] at left
    split at left
    next same =>
      cases left
      exact same ▸ verdict
    · exact searching.verdict j found left

private theorem searchEach_cons (search : Nat → List Mark → Bool × List Mark) (i : Nat) (rest : List Nat)
    (marks : List Mark) :
    searchEach search (i :: rest) marks =
      ((search i marks).1 || (searchEach search rest (search i marks).2).1,
        (searchEach search rest (search i marks).2).2) :=
  rfl

/-- A search that is right from every action below `above` is right from several of them in turn. -/
theorem searchEach_searched {search : Nat → List Mark → Bool × List Mark} {targets : List Nat}
    (searches : ∀ i ∈ targets, ∀ marks, Searching graph above marks → Searched graph above marks [i] (search i marks))
    (searching : Searching graph above marks) :
    Searched graph above marks targets (searchEach search targets marks) := by
  induction targets generalizing marks with
  | nil => exact ⟨searching, nofun, fun _ => nofun, fun _ _ left => left, nofun⟩
  | cons i rest ih =>
    have first := searches i List.mem_cons_self marks searching
    have others := ih (fun j member => searches j (List.mem_cons_of_mem i member)) first.searching
    rw [searchEach_cons]
    refine ⟨others.searching, fun hit => ?_, fun ends => ?_, fun j cyclic left => ?_, fun j member bound free => ?_⟩
    · rcases Bool.or_eq_true_iff.mp hit with here | later
      · obtain ⟨j, member, reaches⟩ := first.hit here
        exact ⟨i, List.mem_cons_self, List.mem_singleton.mp member ▸ reaches⟩
      · obtain ⟨j, member, reaches⟩ := others.hit later
        exact ⟨j, List.mem_cons_of_mem i member, reaches⟩
    · obtain ⟨here, later⟩ := Bool.or_eq_false_iff.mp ends
      exact List.forall_mem_cons.mpr ⟨first.ends here i List.mem_cons_self, others.ends later⟩
    · exact others.kept j cyclic (first.kept j cyclic left)
    · rcases List.mem_cons.mp member with rfl | later
      · obtain ⟨cyclic, left⟩ := first.left j List.mem_cons_self bound free
        exact ⟨cyclic, others.kept j cyclic left⟩
      · exact others.left j later bound free

/-- When the children of an action have been searched the action is left, with the answer for all of them. -/
theorem Searched.leave {i : Nat} {answer : Bool × List Mark} (size : marks.length = graph.length)
    (bound : i < graph.length) (unseen : marks.getD i .unseen = .unseen)
    (children : Searched graph (i :: above) (marks.set i .entered) (graph.getD i []) answer) :
    Searched graph above marks [i] (answer.1, answer.2.set i (.left answer.1)) := by
  have verdict : Verdict graph i answer.1 := by
    cases found : answer.1 with
    | true =>
      obtain ⟨j, edge, reaches⟩ := children.hit found
      exact reaches.head edge
    | false => exact ⟨i, children.ends found⟩
  have inside : i < answer.2.length := by rw [children.searching.size]; exact bound
  refine ⟨children.searching.leave verdict, fun hit => ?_, fun ends j target => ?_, fun j cyclic left => ?_,
    fun j target _ _ => ?_⟩
  · rw [hit] at verdict
    exact ⟨i, List.mem_singleton_self i, verdict⟩
  · rw [ends] at verdict
    exact List.mem_singleton.mp target ▸ verdict
  · have other : i ≠ j := by
      rintro rfl
      rw [unseen] at left
      cases left
    rw [getD_set answer.2 i j _ inside, if_neg other]
    refine children.kept j cyclic ?_
    rw [getD_set marks i j _ (by rw [size]; exact bound), if_neg other]
    exact left
  · rw [List.mem_singleton.mp target]
    exact ⟨answer.1, by rw [getD_set answer.2 i i _ inside, if_pos rfl]⟩

/-- What is no action has no children, and no mark. -/
theorem Searching.outside (searching : Searching graph above marks) {i : Nat} (outside : ¬ i < graph.length)
    (depth : Nat) : Searched graph above marks [i]
      (let (hit, marks) := searchEach (search graph depth) (graph.getD i []) (marks.set i .entered)
       (hit, marks.set i (.left hit))) := by
  have childless : graph.getD i [] = [] := by
    rw [List.getD_eq_getElem?_getD, List.getElem?_eq_none (Nat.le_of_not_lt outside), Option.getD_none]
  have unmarked (mark : Mark) : marks.set i mark = marks :=
    List.set_eq_of_length_le (by rw [searching.size]; exact Nat.le_of_not_lt outside)
  simp only [childless, searchEach, unmarked]
  refine ⟨searching, nofun, fun _ j target => ?_, fun _ _ left => left, fun j target inside _ => ?_⟩
  · rw [List.mem_singleton.mp target]
    exact ⟨i, fun k edge => by rw [Edge, childless] at edge; cases edge⟩
  · exact absurd (List.mem_singleton.mp target ▸ inside) outside

/-- The search from an action is right, wherever it stands above it: the induction is on the depth, which with the
actions above exceeds the number of all actions and so is not used up. -/
theorem search_searched (depth i : Nat) (searching : Searching graph above marks)
    (below : ∀ j ∈ above, Relation.TransGen (Edge graph) j i) (enough : graph.length < depth + above.length) :
    Searched graph above marks [i] (search graph depth i marks) := by
  induction depth generalizing i above marks with
  | zero =>
    have bound := searching.marked.length_le
    omega
  | succ depth ih =>
    rw [search]
    split
    next met =>
      -- the way down from `i` has come back to `i`
      have member := (searching.entered i).mp met
      refine ⟨searching, fun _ => ⟨i, List.mem_singleton_self i, i, .refl, below i member⟩, nofun,
        fun _ _ left => left, fun j target _ free => ?_⟩
      exact absurd (List.mem_singleton.mp target ▸ member) free
    next cyclic left =>
      have verdict := searching.verdict i cyclic left
      refine ⟨searching, fun hit => ?_, fun ends j target => ?_, fun _ _ left => left, fun j target _ _ => ?_⟩
      · cases hit
        exact ⟨i, List.mem_singleton_self i, verdict⟩
      · cases ends
        exact List.mem_singleton.mp target ▸ verdict
      · exact ⟨cyclic, List.mem_singleton.mp target ▸ left⟩
    next unseen =>
      by_cases bound : i < graph.length
      · refine Searched.leave searching.size bound unseen ?_
        refine searchEach_searched (fun j edge marks standing => ?_) (searching.enter bound unseen)
        refine ih j standing (fun k member => ?_) (by rw [List.length_cons]; omega)
        rcases List.mem_cons.mp member with rfl | higher
        · exact .single edge
        · exact (below k higher).tail edge
      · exact searching.outside bound depth

end Search

/-! ## What is found -/

/-- Of each action the search finds out whether a cycle can be reached from it. -/
theorem cyclic_verdict (graph : List (List Nat)) (i : Nat) (bound : i < graph.length) :
    ∃ found, (i ∈ cyclic graph ↔ found = true) ∧ Verdict graph i found := by
  have whole : Searched graph [] (List.replicate graph.length .unseen) (List.range graph.length)
      (searchEach (search graph (graph.length + 1)) (List.range graph.length)
        (List.replicate graph.length .unseen)) := by
    refine searchEach_searched (fun j _ marks searching => ?_) (Searching.initial graph)
    exact search_searched (graph.length + 1) j searching nofun (by simp)
  obtain ⟨found, left⟩ := whole.left i (List.mem_range.mpr bound) bound List.not_mem_nil
  refine ⟨found, ?_, whole.searching.verdict i found left⟩
  simp only [cyclic, List.mem_filter, List.mem_range, left, decide_eq_true_eq, Mark.left.injEq]
  exact and_iff_right bound

/-- Below an action from which no cycle can be reached everything ends. -/
theorem acc_of_not_cyclic (graph : List (List Nat)) (i : Nat) (bound : i < graph.length) (free : i ∉ cyclic graph) :
    Acc (fun j i => Edge graph i j) i := by
  obtain ⟨found, same, verdict⟩ := cyclic_verdict graph i bound
  cases found with
  | true => exact absurd (same.mpr rfl) free
  | false => exact verdict

/-- The search finds exactly the actions from which a cycle can be reached. -/
theorem mem_cyclic (graph : List (List Nat)) (i : Nat) (bound : i < graph.length) :
    i ∈ cyclic graph ↔ ReachesCycle (Edge graph) i := by
  obtain ⟨found, same, verdict⟩ := cyclic_verdict graph i bound
  rw [same]
  cases found with
  | true => exact iff_of_true rfl verdict
  | false => exact iff_of_false nofun (not_reachesCycle_of_acc verdict)

/-- Two cycles with an action in common, a way into one of them that is found while the search is still below the
other, and a diamond without a cycle. -/
example : cyclic [[1, 3], [2, 0], [1], [1, 4], [5, 6], [6], []] = [0, 1, 2, 3] := by decide

end DesktopPet.Pack

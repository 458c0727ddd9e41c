import DesktopPet.Proofs.Pack.Names

/-!
# Which sequences survive

`sequences_resolved`: a pack loses exactly the sequences from which a cycle can be reached and those from which
nothing can be reached that has frames of its own or calls the host. Both are said of the names in the pack, by
`PackSpec.Refers`; the resolution works on indices, and `refers_iff` compares the two.
-/

namespace DesktopPet

open Pack

namespace PackSpec

variable (p : PackSpec)

/-- The first definition of its name, and what it compiles to by itself. -/
def Defines (spec : ActionSpec) (action : Action) : Prop :=
  p.actions.find? (fun other => other.name = spec.name) = some spec ∧ spec.compile.value = some action

/-- The name stands for an action of which a property holds. -/
def Names (Holds : Action → Prop) (name : String) : Prop :=
  ∃ spec action, p.Defines spec action ∧ spec.name = name ∧ Holds action

/-- The name stands for an action. -/
def IsDefined (name : String) : Prop :=
  p.Names (fun _ => True) name

/-- The name stands for a sequence. -/
def IsSequence (name : String) : Prop :=
  p.Names (·.kind = .sequence) name

/-- The name stands for an action that is no sequence. -/
def IsLeaf (name : String) : Prop :=
  p.Names (·.kind ≠ .sequence) name

/-- A sequence refers by name to an action. -/
def Refers (name child : String) : Prop :=
  ∃ spec action, p.Defines spec action ∧ spec.name = name ∧ action.kind = .sequence ∧ child ∈ spec.references ∧
    p.IsDefined child

/-- The name stands for a sequence from which a cycle can be reached. -/
def IsCyclic (name : String) : Prop :=
  p.IsSequence name ∧ ReachesCycle p.Refers name

/-- An action that is no sequence can be reached. -/
def ReachesLeaf (name : String) : Prop :=
  ∃ leaf, Relation.ReflTransGen p.Refers name leaf ∧ p.IsLeaf leaf

/-- The name stands for a sequence from which neither a cycle can be reached nor an action that is no sequence. -/
def IsBarren (name : String) : Prop :=
  p.IsSequence name ∧ ¬ ReachesCycle p.Refers name ∧ ¬ p.ReachesLeaf name

open Classical in
/-- The actions of a pack are resolved rightly. -/
structure Resolution (resolved : Reported (List Action)) : Prop where
  /-- An action is dropped exactly if it is a sequence without end, or one without anything to play. -/
  dropped : ∀ spec action, p.Defines spec action →
    (spec.name ∉ resolved.value.map (·.name) ↔
      p.IsSequence spec.name ∧ (ReachesCycle p.Refers spec.name ∨ ¬ p.ReachesLeaf spec.name))
  cycles : ∀ name, resolved.issues.count (.sequenceCycle name) = if p.IsCyclic name then 1 else 0
  empties : ∀ name, resolved.issues.count (.noFrames name) = if p.IsBarren name then 1 else 0
  /-- What is left is what was compiled, in order, but for its references. -/
  order : (resolved.value.map fun action => { action with references := [] }).Sublist
    ((definedActions p).map (·.2))

end PackSpec

namespace Pack

/-! ## What is dropped -/

section Dropped

variable (compiled : List (ActionSpec × Action))

/-- The action at an index is a sequence. -/
def isSequenceAt (i : Nat) : Bool :=
  (compiled.map (·.2))[i]?.any (·.kind = .sequence)

/-- From the action at an index one can be reached that is no sequence. -/
def LeafBelow (i : Nat) : Prop :=
  ∃ j, Relation.ReflTransGen (Edge (childGraph compiled)) i j ∧ isSequenceAt compiled j = false

/-- From what stays an action that is no sequence can be reached: the induction is along the edges, which end. -/
theorem leafBelow_of_stays (i : Nat) (bound : i < compiled.length) (stays : i ∉ droppedActions compiled) :
    LeafBelow compiled i := by
  have ends := (stays_childGraph compiled i bound stays).1
  induction ends with
  | intro i _ ih =>
    cases sequence : isSequenceAt compiled i with
    | false => exact ⟨i, .refl, sequence⟩
    | true =>
      rw [isSequenceAt, List.getElem?_map, Option.any_map] at sequence
      obtain ⟨j, edge, child_stays⟩ := (stays_childGraph compiled i bound stays).2 sequence
      obtain ⟨leaf, path, found⟩ := ih j edge (edge_childGraph compiled i j edge).1 child_stays
      exact ⟨leaf, path.head edge, found⟩

/-- Whoever reaches a cycle has a child, and only sequences do. -/
theorem isSequenceAt_of_reachesCycle {i : Nat} (reaches : ReachesCycle (Edge (childGraph compiled)) i) :
    isSequenceAt compiled i = true := by
  obtain ⟨j, path, cycle⟩ := reaches
  obtain ⟨k, edge, _⟩ := Relation.TransGen.head'_iff.mp (Relation.TransGen.trans_right path cycle)
  obtain ⟨_, entry, there, sequence⟩ := edge_childGraph compiled i k edge
  simp [isSequenceAt, there, sequence]

/-- What is dropped reaches a cycle, or it is a sequence from which only sequences can be reached. -/
theorem mem_droppedActions (i : Nat) (bound : i < compiled.length) :
    i ∈ droppedActions compiled ↔
      ReachesCycle (Edge (childGraph compiled)) i ∨ isSequenceAt compiled i = true ∧ ¬ LeafBelow compiled i := by
  constructor
  · refine sweepAll_only _ _ (fun i => ReachesCycle (Edge (childGraph compiled)) i ∨
      isSequenceAt compiled i = true ∧ ¬ LeafBelow compiled i) (fun i sequence children => ?_) _ _
      (fun i cycles => Or.inl ?_) i
    · by_cases cycle : ∃ j, Edge (childGraph compiled) i j ∧ ReachesCycle (Edge (childGraph compiled)) j
      · obtain ⟨j, edge, reaches⟩ := cycle
        exact Or.inl (reaches.head edge)
      · refine Or.inr ⟨sequence, ?_⟩
        rintro ⟨leaf, path, found⟩
        rcases Relation.ReflTransGen.cases_head path with rfl | ⟨j, edge, rest⟩
        · exact Bool.noConfusion (found.symm.trans sequence)
        · rcases children j edge with reaches | ⟨_, barren⟩
          · exact cycle ⟨j, edge, reaches⟩
          · exact barren ⟨leaf, rest, found⟩
    · exact (mem_cyclic _ i ((cyclic_marked _).bound i cycles)).mp cycles
  · intro unplayable
    by_contra stays
    rcases unplayable with reaches | ⟨_, barren⟩
    · exact not_reachesCycle_of_acc (stays_childGraph compiled i bound stays).1 reaches
    · exact barren (leafBelow_of_stays compiled i bound stays)

/-- The actions that are dropped because nothing is left for them to play. -/
def emptied : List Nat :=
  (droppedActions compiled).drop (cyclic (childGraph compiled)).length

theorem droppedActions_append : droppedActions compiled = cyclic (childGraph compiled) ++ emptied compiled := by
  obtain ⟨_, added, grown, _⟩ := sweepAll_rounds (isSequenceAt compiled) (childGraph compiled)
    ((childGraph compiled).length + 1) (cyclic (childGraph compiled))
  change droppedActions compiled = _ at grown
  rw [emptied, grown, List.drop_left]

/-- What is emptied reaches no cycle and no action that is no sequence. -/
theorem mem_emptied (i : Nat) (bound : i < compiled.length) :
    i ∈ emptied compiled ↔ isSequenceAt compiled i = true ∧ ¬ ReachesCycle (Edge (childGraph compiled)) i ∧
      ¬ LeafBelow compiled i := by
  have inside : i < (childGraph compiled).length := by rw [childGraph_length]; exact bound
  have distinct := (droppedActions_fixed compiled).1.nodup
  have both := mem_droppedActions compiled i bound
  rw [droppedActions_append] at distinct both
  rw [List.mem_append, mem_cyclic _ i inside] at both
  have apart : i ∈ emptied compiled → ¬ ReachesCycle (Edge (childGraph compiled)) i := fun late reaches =>
    (List.nodup_append.mp distinct).2.2 i ((mem_cyclic _ i inside).mpr reaches) i late rfl
  tauto

end Dropped

/-! ## Names and indices -/

section Names

variable (p : PackSpec)

theorem defines_iff (spec : ActionSpec) (action : Action) :
    p.Defines spec action ↔ ∃ i : Nat, (definedActions p)[i]? = some (spec, action) := by
  rw [← List.mem_iff_getElem?, definedActions, mem_compileFirst]
  rfl

/-- The name of the action at an index. -/
def nameAt (i : Nat) : String :=
  ((definedActions p).map (·.2.name)).getD i ""

variable {p}

theorem defined_name {i : Nat} {entry : ActionSpec × Action} (there : (definedActions p)[i]? = some entry) :
    entry.2.name = entry.1.name ∧ nameAt p i = entry.1.name := by
  have name : entry.2.name = entry.1.name :=
    (action_compile_sound entry.1 entry.2 (mem_compileFirst.mp (List.mem_of_getElem? there)).2).1
  refine ⟨name, ?_⟩
  rw [nameAt, List.getD_eq_getElem?_getD, List.getElem?_map, there, ← name]
  rfl

/-- Actions of one name stand at one index. -/
private theorem nameAt_inj {i j : Nat} (left : i < (definedActions p).length) (right : j < (definedActions p).length)
    (same : nameAt p i = nameAt p j) : i = j := by
  refine (List.getElem?_inj (by simpa using left) (defined_names_nodup p)).mp ?_
  simpa [nameAt, left, right] using same

theorem names_iff (Holds : Action → Prop) (name : String) :
    p.Names Holds name ↔
      ∃ i entry, (definedActions p)[i]? = some entry ∧ nameAt p i = name ∧ Holds entry.2 := by
  constructor
  · rintro ⟨spec, action, defined, rfl, holds⟩
    obtain ⟨i, there⟩ := (defines_iff p spec action).mp defined
    exact ⟨i, (spec, action), there, (defined_name there).2, holds⟩
  · rintro ⟨i, entry, there, rfl, holds⟩
    exact ⟨entry.1, entry.2, (defines_iff p entry.1 entry.2).mpr ⟨i, there⟩, (defined_name there).2.symm, holds⟩

/-- References by name are edges by index. -/
theorem refers_iff {i j : Nat} (left : i < (definedActions p).length) (right : j < (definedActions p).length) :
    p.Refers (nameAt p i) (nameAt p j) ↔ Edge (childGraph (definedActions p)) i j := by
  have there : (definedActions p)[i]? = some (definedActions p)[i] := List.getElem?_eq_getElem left
  have child : (definedActions p)[j]? = some (definedActions p)[j] := List.getElem?_eq_getElem right
  have found (reference : String) :
      lastIndexOf? reference ((definedActions p).map (·.2.name)) = some j ↔ nameAt p j = reference := by
    rw [nameAt, List.getD_eq_getElem?_getD]
    constructor
    · intro index
      rw [getElem?_of_lastIndexOf? index, Option.getD_some]
    · rintro rfl
      exact lastIndexOf?_of_nodup (defined_names_nodup p) (by simp [child])
  rw [Edge, childGraph, List.getD_eq_getElem?_getD, List.getElem?_map, there, Option.map_some, Option.getD_some,
    children_value]
  constructor
  · rintro ⟨spec, action, defined, name, sequence, declared, _⟩
    obtain ⟨k, again⟩ := (defines_iff p spec action).mp defined
    have same : k = i :=
      nameAt_inj (List.getElem?_eq_some_iff.mp again).1 left ((defined_name again).2.trans name)
    rw [same, there, Option.some.injEq] at again
    rw [again, if_pos sequence, List.mem_filterMap]
    exact ⟨nameAt p j, declared, (found _).mpr rfl⟩
  · intro edge
    split at edge
    next sequence =>
      obtain ⟨reference, declared, index⟩ := List.mem_filterMap.mp edge
      rw [← (found reference).mp index] at declared
      exact ⟨_, _, (defines_iff p _ _).mpr ⟨i, there⟩, (defined_name there).2.symm, sequence, declared,
        (names_iff _ _).mpr ⟨j, _, child, rfl, trivial⟩⟩
    · cases edge

/-- A reference leads from an index to an index. -/
private theorem indices_of_refers {name child : String} (refers : p.Refers name child) :
    ∃ i j, i < (definedActions p).length ∧ j < (definedActions p).length ∧ nameAt p i = name ∧
      nameAt p j = child := by
  obtain ⟨spec, action, defined, named, _, _, known⟩ := refers
  obtain ⟨i, there⟩ := (defines_iff p spec action).mp defined
  obtain ⟨j, _, found, same, _⟩ := (names_iff _ _).mp known
  exact ⟨i, j, (List.getElem?_eq_some_iff.mp there).1, (List.getElem?_eq_some_iff.mp found).1,
    (defined_name there).2.trans named, same⟩

private theorem edge_bounds {i j : Nat} (edge : Edge (childGraph (definedActions p)) i j) :
    i < (definedActions p).length ∧ j < (definedActions p).length := by
  obtain ⟨bound, _, there, _⟩ := edge_childGraph (definedActions p) i j edge
  exact ⟨(List.getElem?_eq_some_iff.mp there).1, bound⟩

private theorem refers_of_edge {i j : Nat} (edge : Edge (childGraph (definedActions p)) i j) :
    p.Refers (nameAt p i) (nameAt p j) := by
  obtain ⟨left, right⟩ := edge_bounds edge
  exact (refers_iff left right).mpr edge

/-- The index of a name. -/
def indexOf (p : PackSpec) (name : String) : Nat :=
  (lastIndexOf? name ((definedActions p).map (·.2.name))).getD 0

theorem indexOf_nameAt {i : Nat} (bound : i < (definedActions p).length) : indexOf p (nameAt p i) = i := by
  rw [indexOf, lastIndexOf?_of_nodup (defined_names_nodup p) (i := i), Option.getD_some]
  simp [nameAt, bound]

private theorem edge_of_refers {name child : String} (refers : p.Refers name child) :
    Edge (childGraph (definedActions p)) (indexOf p name) (indexOf p child) := by
  obtain ⟨i, j, left, right, rfl, rfl⟩ := indices_of_refers refers
  rw [indexOf_nameAt left, indexOf_nameAt right]
  exact (refers_iff left right).mp refers

section At

variable {i : Nat} (bound : i < (definedActions p).length)
include bound

private theorem names_nameAt (Holds : Action → Prop) :
    p.Names Holds (nameAt p i) ↔ Holds ((definedActions p)[i]).2 := by
  have there : (definedActions p)[i]? = some (definedActions p)[i] := List.getElem?_eq_getElem bound
  rw [names_iff]
  constructor
  · rintro ⟨j, entry, found, same, holds⟩
    rw [nameAt_inj (List.getElem?_eq_some_iff.mp found).1 bound same, there, Option.some.injEq] at found
    rw [found]
    exact holds
  · exact fun holds => ⟨i, _, there, rfl, holds⟩

private theorem isSequence_nameAt : p.IsSequence (nameAt p i) ↔ isSequenceAt (definedActions p) i = true := by
  rw [PackSpec.IsSequence, names_nameAt bound]
  simp [isSequenceAt, bound]

private theorem isLeaf_nameAt : p.IsLeaf (nameAt p i) ↔ isSequenceAt (definedActions p) i = false := by
  rw [PackSpec.IsLeaf, names_nameAt bound]
  simp [isSequenceAt, bound]

private theorem reachesCycle_nameAt :
    ReachesCycle p.Refers (nameAt p i) ↔ ReachesCycle (Edge (childGraph (definedActions p))) i := by
  constructor
  · intro reaches
    rw [← indexOf_nameAt bound]
    exact reaches.lift (indexOf p) fun _ _ => edge_of_refers
  · exact fun reaches => reaches.lift (nameAt p) fun _ _ => refers_of_edge

private theorem reachesLeaf_nameAt : p.ReachesLeaf (nameAt p i) ↔ LeafBelow (definedActions p) i := by
  constructor
  · rintro ⟨leaf, path, found⟩
    obtain ⟨j, _, there, rfl, _⟩ := (names_iff _ _).mp found
    have inside := (List.getElem?_eq_some_iff.mp there).1
    refine ⟨j, ?_, (isLeaf_nameAt inside).mp found⟩
    rw [← indexOf_nameAt bound, ← indexOf_nameAt inside]
    exact path.lift (indexOf p) fun _ _ => edge_of_refers
  · rintro ⟨j, path, found⟩
    have inside : j < (definedActions p).length := by
      rcases Relation.ReflTransGen.cases_tail path with rfl | ⟨_, _, last⟩
      · exact bound
      · exact (edge_bounds last).2
    exact ⟨nameAt p j, path.lift (nameAt p) fun _ _ => refers_of_edge, (isLeaf_nameAt inside).mpr found⟩

end At

end Names

/-! ## What is reported -/

/-- The references of a sequence that lead nowhere are reported one by one. -/
theorem children_issues (names : List String) (spec : ActionSpec) (action : Action) :
    (children names spec action).issues =
      if action.kind = .sequence then
        (spec.references.filter fun reference => (lastIndexOf? reference names).isNone).map
          (.unknownSequenceRef action.name)
      else [] := by
  rw [children]
  split
  · rw [Reported.forEachKept_issues]
    induction spec.references with
    | nil => rfl
    | cons reference rest ih =>
      rw [List.flatMap_cons, ih, List.filter_cons]
      cases lastIndexOf? reference names with
      | none => rfl
      | some index => rfl
  · rfl

/-- The report of the resolution: references that lead nowhere, sequences that reach a cycle, and sequences that
are emptied. -/
theorem resolveSequences_issues (compiled : List (ActionSpec × Action)) :
    (resolveSequences compiled).issues =
      (compiled.flatMap fun entry => (children (compiled.map (·.2.name)) entry.1 entry.2).issues) ++
        ((cyclic (childGraph compiled)).map fun i => .sequenceCycle ((compiled.map (·.2.name)).getD i "")) ++
        ((emptied compiled).map fun i => .noFrames ((compiled.map (·.2.name)).getD i "")) := by
  have names : (compiled.map (·.2)).map (·.name) = compiled.map (·.2.name) := by
    rw [List.map_map]
    rfl
  simp only [resolveSequences, Reported.bind_issues, Reported.pure_issues, Reported.forEach_report_issues, names,
    List.append_nil, List.append_assoc]
  rfl

theorem mem_children_issues {names : List String} {spec : ActionSpec} {action : Action} {issue : Issue}
    (reported : issue ∈ (children names spec action).issues) :
    ∃ reference, issue = .unknownSequenceRef action.name reference := by
  rw [children_issues] at reported
  split at reported
  · obtain ⟨reference, _, rfl⟩ := List.mem_map.mp reported
    exact ⟨reference, rfl⟩
  · cases reported

section Report

variable (p : PackSpec)

/-- An issue that is reported for all sequences of some kind is reported once for the name of each. -/
private theorem count_of_indices (issue : String → Issue) (distinguishes : Function.Injective issue)
    {indices : List Nat} (distinct : indices.Nodup) (inside : ∀ i ∈ indices, i < (definedActions p).length)
    {Holds : String → Prop} (sequences : ∀ name, Holds name → p.IsSequence name)
    (members : ∀ i, i < (definedActions p).length → (i ∈ indices ↔ Holds (nameAt p i))) (name : String)
    [Decidable (Holds name)] :
    (indices.map fun i => issue (nameAt p i)).count (issue name) = if Holds name then 1 else 0 := by
  have once : (indices.map fun i => issue (nameAt p i)).Nodup :=
    distinct.map_on fun i left j right same => nameAt_inj (inside i left) (inside j right) (distinguishes same)
  rw [once.count]
  refine if_congr ?_ rfl rfl
  rw [List.mem_map]
  constructor
  · rintro ⟨i, member, same⟩
    rw [← distinguishes same]
    exact (members i (inside i member)).mp member
  · intro holds
    obtain ⟨i, _, there, rfl, _⟩ := (names_iff _ _).mp (sequences name holds)
    exact ⟨i, (members i (List.getElem?_eq_some_iff.mp there).1).mpr holds, rfl⟩

private theorem dropped_bound (i : Nat) (member : i ∈ droppedActions (definedActions p)) :
    i < (definedActions p).length := by
  have bound := (droppedActions_fixed (definedActions p)).1.bound i member
  rwa [childGraph_length] at bound

/-- The resolution reports, of the issues that are about no reference, those of the dropped sequences only. -/
theorem count_resolved (issue : Issue) (other : ∀ action reference, issue ≠ .unknownSequenceRef action reference) :
    (resolveSequences (definedActions p)).issues.count issue =
      ((cyclic (childGraph (definedActions p))).map fun i => Issue.sequenceCycle (nameAt p i)).count issue +
        ((emptied (definedActions p)).map fun i => Issue.noFrames (nameAt p i)).count issue := by
  rw [resolveSequences_issues, List.count_append, List.count_append, List.count_eq_zero_of_not_mem, Nat.zero_add]
  · rfl
  · intro reported
    obtain ⟨entry, _, reported⟩ := List.mem_flatMap.mp reported
    obtain ⟨reference, same⟩ := mem_children_issues reported
    exact other _ _ same

open Classical in
private theorem count_sequenceCycle (name : String) :
    (resolveSequences (definedActions p)).issues.count (.sequenceCycle name) = if p.IsCyclic name then 1 else 0 := by
  have inside (i : Nat) (member : i ∈ cyclic (childGraph (definedActions p))) : i < (definedActions p).length :=
    dropped_bound p i (by rw [droppedActions_append]; exact List.mem_append_left _ member)
  have members (i : Nat) (bound : i < (definedActions p).length) :
      i ∈ cyclic (childGraph (definedActions p)) ↔ p.IsCyclic (nameAt p i) := by
    rw [mem_cyclic _ i (by rw [childGraph_length]; exact bound), PackSpec.IsCyclic, reachesCycle_nameAt bound,
      isSequence_nameAt bound]
    exact ⟨fun reaches => ⟨isSequenceAt_of_reachesCycle _ reaches, reaches⟩, fun both => both.2⟩
  rw [count_resolved p _ (by simp), count_of_indices p .sequenceCycle (fun _ _ => Issue.sequenceCycle.inj)
    (cyclic_marked _).nodup inside (fun _ cycles => cycles.1) members name, List.count_eq_zero_of_not_mem, Nat.add_zero]
  simp

open Classical in
theorem count_noFrames (name : String) :
    (resolveSequences (definedActions p)).issues.count (.noFrames name) = if p.IsBarren name then 1 else 0 := by
  have inside (i : Nat) (member : i ∈ emptied (definedActions p)) : i < (definedActions p).length :=
    dropped_bound p i (List.mem_of_mem_drop member)
  have members (i : Nat) (bound : i < (definedActions p).length) :
      i ∈ emptied (definedActions p) ↔ p.IsBarren (nameAt p i) := by
    rw [mem_emptied _ i bound, PackSpec.IsBarren, isSequence_nameAt bound, reachesCycle_nameAt bound,
      reachesLeaf_nameAt bound]
  have distinct : (emptied (definedActions p)).Nodup :=
    (droppedActions_fixed (definedActions p)).1.nodup.sublist (List.drop_sublist _ _)
  rw [count_resolved p _ (by simp), count_of_indices p .noFrames (fun _ _ => Issue.noFrames.inj) distinct inside
    (fun _ barren => barren.1) members name, List.count_eq_zero_of_not_mem, Nat.zero_add]
  simp

/-- What is left are the names of what stays. -/
theorem mem_resolved_names {i : Nat} (bound : i < (definedActions p).length) :
    nameAt p i ∈ (resolveSequences (definedActions p)).value.map (·.name) ↔ i ∉ droppedActions (definedActions p) := by
  have named : ((definedActions p).map (·.2.name))[i]? = some (nameAt p i) := by
    simp [nameAt, bound]
  rw [← referenceIndex_finds _ (defined_names_nodup p), referenceIndex?,
    lastIndexOf?_of_nodup (defined_names_nodup p) named, Option.bind_some, newIndex?]
  split
  next gone => simp [gone]
  next stays => simp [stays]

theorem resolveSequences_resolution : p.Resolution (resolveSequences (definedActions p)) := by
  refine ⟨fun spec action defined => ?_, count_sequenceCycle p, count_noFrames p, ?_⟩
  · obtain ⟨i, there⟩ := (defines_iff p spec action).mp defined
    have bound : i < (definedActions p).length := (List.getElem?_eq_some_iff.mp there).1
    rw [← (defined_name there).2, mem_resolved_names p bound, not_not, mem_droppedActions _ i bound,
      isSequence_nameAt bound, reachesCycle_nameAt bound, reachesLeaf_nameAt bound]
    have sequence := isSequenceAt_of_reachesCycle (definedActions p) (i := i)
    tauto
  · have alone : (definedActions p).map (·.2) =
        (definedActions p).map fun entry => { entry.2 with references := [] } := by
      refine List.map_congr_left fun entry member => ?_
      rw [← (action_compile_sound entry.1 entry.2 (mem_compileFirst.mp member).2).2.1]
    rw [alone]
    exact resolved_sublist (definedActions p) (fun action => { action with references := [] }) fun _ _ => rfl

end Report

end Pack

/-- The sequences of a pack are resolved rightly. The sweeps over them come to an end: there are no more of them than
there are actions until one drops nothing. -/
theorem sequences_resolved (p : PackSpec) :
    p.Resolution (resolveSequences (definedActions p)) ∧
      ∃ rounds ≤ (definedActions p).length,
        let sweepOnce := sweep (isSequenceAt (definedActions p)) (childGraph (definedActions p))
          (List.range (definedActions p).length)
        droppedActions (definedActions p) = sweepOnce^[rounds] (cyclic (childGraph (definedActions p))) ∧
          sweepOnce (droppedActions (definedActions p)) = droppedActions (definedActions p) := by
  refine ⟨resolveSequences_resolution p, ?_⟩
  have size := childGraph_length (definedActions p)
  obtain ⟨marked, _, fixed⟩ := droppedActions_fixed (definedActions p)
  obtain ⟨rounds, added, grown, few, same⟩ := sweepAll_rounds (isSequenceAt (definedActions p))
    (childGraph (definedActions p)) ((childGraph (definedActions p)).length + 1)
    (cyclic (childGraph (definedActions p)))
  change droppedActions (definedActions p) = _ at grown same
  have bound := marked.length_le
  rw [grown, List.length_append, size] at bound
  rw [size] at fixed same
  exact ⟨rounds, by omega, same, fixed⟩

end DesktopPet

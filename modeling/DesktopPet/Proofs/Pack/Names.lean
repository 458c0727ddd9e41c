import DesktopPet.Proofs.Pack.Compiled

/-!
# Names and indices

A catalog says by index what its pack says by name. `Catalog.Resolves` compares the two: the tables hold first
definitions in the order of the pack, and every index, read back as the name that stands there, gives the name
that was declared. Names of definitions that are not there any more are left out, wherever they occur.
-/

namespace DesktopPet

open Pack (ActionSpec BehaviorSpec firstOfEach)

namespace Catalog

/-- The names of the actions, in order. -/
def actionNames (c : Catalog) : List String :=
  c.actions.map (·.name)

/-- The names of the behaviors, in order. -/
def behaviorNames (c : Catalog) : List String :=
  c.behaviors.map (·.name)

/-- The name of the action at an index. -/
def actionName? (c : Catalog) (index : Nat) : Option String :=
  (c.action? index).map (·.name)

/-- The name of the behavior at an index. -/
def behaviorName? (c : Catalog) (index : Nat) : Option String :=
  (c.behavior? index).map (·.name)

/-- An action comes of an authored one: it has its name, what it compiles to, and the declared children that are
still there. -/
structure ActionOf (c : Catalog) (spec : ActionSpec) (a : Action) : Prop where
  name : a.name = spec.name
  compiled : ∃ alone, spec.compile.value = some alone ∧ a = { alone with references := a.references }
  references : a.references.map c.actionName? =
    if a.kind = .sequence then (spec.references.filter (· ∈ c.actionNames)).map some else []

/-- A behavior comes of an authored one: it has its name, the declared action, and the declared followers that are
still there. -/
structure BehaviorOf (c : Catalog) (spec : BehaviorSpec) (b : Behavior) : Prop where
  name : b.name = spec.name
  action : c.actionName? b.action = some spec.actionName
  next : b.next.map c.behaviorName? = (spec.next.filter (· ∈ c.behaviorNames)).map some

/-- The catalog says by index what the pack says by name. -/
structure Resolves (c : Catalog) (p : PackSpec) : Prop where
  actions : ∃ specs, specs.Sublist (firstOfEach ActionSpec.name [] p.actions) ∧
    List.Forall₂ c.ActionOf specs c.actions
  behaviors : ∃ specs, specs.Sublist (firstOfEach BehaviorSpec.name [] p.behaviors) ∧
    List.Forall₂ c.BehaviorOf specs c.behaviors
  /-- Of the first definitions of behaviors, those are kept whose action is there. -/
  kept : ∀ spec ∈ firstOfEach BehaviorSpec.name [] p.behaviors,
    (spec.name ∈ c.behaviorNames ↔ spec.actionName ∈ c.actionNames)
  default : c.behaviorName? c.defaultBehavior = some p.defaultBehavior
  dragged : c.draggedBehavior.map c.behaviorName? = (p.draggedBehavior.filter (· ∈ c.behaviorNames)).map some
  thrown : c.thrownBehavior.map c.behaviorName? = (p.thrownBehavior.filter (· ∈ c.behaviorNames)).map some

end Catalog

/-! ## Looking up and reading back -/

theorem lastIndexOf?_isSome (name : String) (names : List String) :
    (lastIndexOf? name names).isSome = true ↔ name ∈ names := by
  simp [lastIndexOf?, List.findIdx?_isSome]

section ReadBack

variable {lookup : String → Option Nat} {nameAt : Nat → Option String} {known : List String}

/-- Names that are looked up and read back are those that are known: order and repetitions stay. -/
private theorem filterMap_readBack (reads : ∀ name i, lookup name = some i → nameAt i = some name)
    (finds : ∀ name, (lookup name).isSome = true ↔ name ∈ known) (names : List String) :
    (names.filterMap lookup).map nameAt = (names.filter (· ∈ known)).map some := by
  induction names with
  | nil => rfl
  | cons name rest ih =>
    cases found : lookup name with
    | none =>
      have unknown : name ∉ known := by simpa [found] using (finds name).not
      simp [found, unknown, ih]
    | some i =>
      have member : name ∈ known := by simpa [found] using finds name
      simp [found, member, ih, reads name i found]

/-- The same for a name that may be missing. -/
theorem bind_readBack (reads : ∀ name i, lookup name = some i → nameAt i = some name)
    (finds : ∀ name, (lookup name).isSome = true ↔ name ∈ known) (authored : Option String) :
    (authored.bind lookup).map nameAt = (authored.filter (· ∈ known)).map some := by
  cases authored with
  | none => rfl
  | some name =>
    cases found : lookup name with
    | none =>
      have unknown : name ∉ known := by simpa [found] using (finds name).not
      simp [found, unknown, Option.filter]
    | some i =>
      have member : name ∈ known := by simpa [found] using finds name
      simp [found, member, Option.filter, reads name i found]

end ReadBack

/-- Two choices from the same entries stand side by side. -/
private theorem forall₂_filterMap {α β γ : Type} {R : β → γ → Prop} (f : α → Option β) (g : α → Option γ)
    (entries : List α) (related : ∀ a ∈ entries, ∃ b c, f a = some b ∧ g a = some c ∧ R b c) :
    List.Forall₂ R (entries.filterMap f) (entries.filterMap g) := by
  induction entries with
  | nil => exact .nil
  | cons a rest ih =>
    obtain ⟨b, c, left, right, first⟩ := related a List.mem_cons_self
    rw [List.filterMap_cons_some left, List.filterMap_cons_some right]
    exact .cons first (ih fun later member => related later (List.mem_cons_of_mem a member))

namespace Pack

/-! ## Children of sequences -/

/-- Where a reference leads in the end: to the place that the action of that name has once some are dropped. -/
def referenceIndex? (compiled : List (ActionSpec × Action)) (reference : String) : Option Nat :=
  (lastIndexOf? reference (compiled.map (·.2.name))).bind (newIndex? (droppedActions compiled))

section References

variable (compiled : List (ActionSpec × Action))

/-- The action where a reference leads has the name that the reference gives. -/
theorem referenceIndex_reads (reference : String) (target : Nat)
    (leads : referenceIndex? compiled reference = some target) :
    (resolveSequences compiled).value[target]?.map (·.name) = some reference := by
  obtain ⟨j, found, moved⟩ := Option.bind_eq_some_iff.mp leads
  have named : compiled[j]?.map (·.2.name) = some reference := by
    rw [← List.getElem?_map]
    exact getElem?_of_lastIndexOf? found
  obtain ⟨entry, there, same⟩ := Option.map_eq_some_iff.mp named
  have bound : j < compiled.length := (List.getElem?_eq_some_iff.mp there).1
  obtain ⟨_, place⟩ := kept_of_newIndex? compiled.length (droppedActions compiled) j target bound moved
  rw [resolveSequences_getElem?, keptActions, place, Option.bind_some, resolvedAt, there]
  exact congrArg some same

/-- A reference leads somewhere exactly if an action of that name is left. -/
theorem referenceIndex_finds (distinct : (compiled.map (·.2.name)).Nodup) (reference : String) :
    (referenceIndex? compiled reference).isSome = true ↔
      reference ∈ (resolveSequences compiled).value.map (·.name) := by
  constructor
  · intro leads
    obtain ⟨target, leads⟩ := Option.isSome_iff_exists.mp leads
    have named := referenceIndex_reads compiled reference target leads
    rw [← List.getElem?_map] at named
    exact List.mem_of_getElem? named
  · intro left
    obtain ⟨action, member, rfl⟩ := List.mem_map.mp left
    obtain ⟨k, there⟩ := List.mem_iff_getElem?.mp member
    obtain ⟨i, entry, place, before, same, _⟩ := resolved_origin compiled k action there
    have named : (compiled.map (·.2.name))[i]? = some action.name := by
      rw [List.getElem?_map, before, same]
      rfl
    have stays := ((mem_keptActions compiled i).mp (List.mem_of_getElem? place)).2
    obtain ⟨target, moved⟩ := newIndex?_of_stays (droppedActions compiled) i stays
    rw [referenceIndex?, lastIndexOf?_of_nodup distinct named, Option.bind_some, moved]
    rfl

/-- The references of a resolved action are where the declared ones lead. -/
theorem resolvedAt_references (i : Nat) (entry : ActionSpec × Action) (before : compiled[i]? = some entry) :
    resolvedAt compiled i = some
      { entry.2 with
        references :=
          if entry.2.kind = .sequence then entry.1.references.filterMap (referenceIndex? compiled) else [] } := by
  have children : (childGraph compiled).getD i [] =
      (Pack.children (compiled.map (·.2.name)) entry.1 entry.2).value := by
    rw [childGraph, List.getD_eq_getElem?_getD, List.getElem?_map, before]
    rfl
  rw [resolvedAt, before, Option.map_some, children, children_value]
  split
  · rw [List.filterMap_filterMap]
    rfl
  · rfl

/-- What stays of the authored forms, in order. -/
theorem keptSpecs_sublist :
    ((keptActions compiled).filterMap fun i => compiled[i]?.map (·.1)).Sublist (compiled.map (·.1)) := by
  have whole : (List.range compiled.length).filterMap (fun i => compiled[i]?.map (·.1)) = compiled.map (·.1) := by
    have yields : ∀ i ∈ List.range compiled.length, (compiled[i]?.map (·.1)).isSome = true := by
      intro i member
      simp [List.mem_range.mp member]
    apply List.ext_getElem?
    intro k
    rw [getElem?_filterMap_of_isSome _ _ _ yields]
    by_cases bound : k < compiled.length
    · simp [bound]
    · simp [bound]
  rw [← whole]
  exact List.filter_sublist.filterMap _

end References

/-! ## Whole packs -/

section Compiled

variable {p : PackSpec} {c : Catalog} {issues : List Issue}

/-- Looking up a behavior and reading it back. -/
theorem behavior_reads (compiled : p.compile = .ok (c, issues)) (name : String) (i : Nat)
    (found : lastIndexOf? name ((definedBehaviors p).map (·.1.name)) = some i) :
    c.behaviorName? i = some name := by
  rw [← compiled_behavior_names compiled] at found
  have there := getElem?_of_lastIndexOf? found
  rwa [List.getElem?_map] at there

theorem behavior_finds (compiled : p.compile = .ok (c, issues)) (name : String) :
    (lastIndexOf? name ((definedBehaviors p).map (·.1.name))).isSome = true ↔ name ∈ c.behaviorNames := by
  rw [lastIndexOf?_isSome, ← compiled_behavior_names compiled, Catalog.behaviorNames]

theorem compiled_actions (compiled : p.compile = .ok (c, issues)) :
    ∃ specs, specs.Sublist (firstOfEach ActionSpec.name [] p.actions) ∧
      List.Forall₂ c.ActionOf specs c.actions := by
  obtain ⟨actions, _⟩ := compile_parts p c issues compiled
  refine ⟨(keptActions (definedActions p)).filterMap fun i => (definedActions p)[i]?.map (·.1), ?_, ?_⟩
  · exact (keptSpecs_sublist (definedActions p)).trans
      (compileFirst_specs_sublist .actions ActionSpec.name ActionSpec.compile p.actions)
  · rw [show c.actions = (keptActions (definedActions p)).filterMap (resolvedAt (definedActions p)) from
      actions.trans (resolveSequences_value (definedActions p))]
    apply forall₂_filterMap
    intro i kept
    obtain ⟨bound, _⟩ := (mem_keptActions (definedActions p) i).mp kept
    have before : (definedActions p)[i]? = some (definedActions p)[i] := List.getElem?_eq_getElem bound
    have made := (mem_compileFirst.mp (List.mem_of_getElem? before)).2
    refine ⟨_, _, by rw [before]; rfl, resolvedAt_references (definedActions p) i _ before,
      (action_compile_sound _ _ made).1, ⟨_, made, rfl⟩, ?_⟩
    dsimp only
    split
    · have reads := referenceIndex_reads (definedActions p)
      have finds := referenceIndex_finds (definedActions p) (defined_names_nodup p)
      rw [← actions] at reads finds
      exact filterMap_readBack reads finds _
    · rfl

/-- What a behavior of known action compiles to says by index what the behavior says by name. -/
theorem defined_behaviorOf (compiled : p.compile = .ok (c, issues)) {entry : BehaviorSpec × Nat}
    (member : entry ∈ definedBehaviors p) :
    c.BehaviorOf entry.1 (entry.1.compile ((definedBehaviors p).map (·.1.name)) entry.2).value := by
  obtain ⟨actions, _⟩ := compile_parts p c issues compiled
  refine ⟨rfl, ?_, ?_⟩
  · have resolved := (mem_compileFirst.mp member).2
    rw [resolveAction_value] at resolved
    have there := getElem?_of_lastIndexOf? resolved
    rw [← actions, List.getElem?_map] at there
    exact there
  · have next : (entry.1.compile ((definedBehaviors p).map (·.1.name)) entry.2).value.next =
        entry.1.next.filterMap (lastIndexOf? · ((definedBehaviors p).map (·.1.name))) :=
      congrArg (fun find => entry.1.next.filterMap find)
        (funext fun name => Reported.lookup_value name ((definedBehaviors p).map (·.1.name)) _)
    rw [next]
    exact filterMap_readBack (behavior_reads compiled) (behavior_finds compiled) entry.1.next

theorem compiled_behaviors (compiled : p.compile = .ok (c, issues)) :
    ∃ specs, specs.Sublist (firstOfEach BehaviorSpec.name [] p.behaviors) ∧
      List.Forall₂ c.BehaviorOf specs c.behaviors := by
  obtain ⟨_, behaviors, _⟩ := compile_parts p c issues compiled
  refine ⟨(definedBehaviors p).map (·.1), ?_, ?_⟩
  · exact compileFirst_specs_sublist .behaviors BehaviorSpec.name _ p.behaviors
  · rw [behaviors, List.forall₂_map_left_iff, List.forall₂_map_right_iff, List.forall₂_same]
    exact fun entry member => defined_behaviorOf compiled member

/-- A first definition of a behavior is kept exactly if its action is. -/
theorem compiled_kept (compiled : p.compile = .ok (c, issues)) (spec : BehaviorSpec)
    (member : spec ∈ firstOfEach BehaviorSpec.name [] p.behaviors) :
    spec.name ∈ c.behaviorNames ↔ spec.actionName ∈ c.actionNames := by
  obtain ⟨actions, _⟩ := compile_parts p c issues compiled
  have first := ((mem_firstOfEach BehaviorSpec.name [] p.behaviors spec).mp member).2
  have known : (∃ i, (spec, i) ∈ definedBehaviors p) ↔ spec.actionName ∈ c.actionNames := by
    rw [Catalog.actionNames, actions, ← lastIndexOf?_isSome, Option.isSome_iff_exists]
    apply exists_congr
    intro i
    rw [definedBehaviors, mem_compileFirst, resolveAction_value]
    exact and_iff_right first
  rw [Catalog.behaviorNames, compiled_behavior_names compiled, ← known, List.mem_map]
  constructor
  · rintro ⟨⟨other, i⟩, member, same⟩
    -- both are the first of that name
    have again := (mem_compileFirst.mp member).1
    dsimp only at same again
    rw [same, first, Option.some.injEq] at again
    subst again
    exact ⟨i, member⟩
  · rintro ⟨i, member⟩
    exact ⟨(spec, i), member, rfl⟩

end Compiled

end Pack

open Pack

/-- Every name of a pack that compiles is resolved to what was declared. -/
theorem compile_resolves_names (p : PackSpec) (c : Catalog) (issues : List Issue)
    (compiled : p.compile = .ok (c, issues)) : c.Resolves p := by
  obtain ⟨_, _, default, dragged, thrown⟩ := compile_parts p c issues compiled
  exact
    { actions := compiled_actions compiled
      behaviors := compiled_behaviors compiled
      kept := compiled_kept compiled
      default := behavior_reads compiled p.defaultBehavior c.defaultBehavior default
      dragged := by
        rw [dragged, interactionBehavior_value]
        exact bind_readBack (behavior_reads compiled) (behavior_finds compiled) p.draggedBehavior
      thrown := by
        rw [thrown, interactionBehavior_value]
        exact bind_readBack (behavior_reads compiled) (behavior_finds compiled) p.thrownBehavior }

theorem compile_resolves_names_tangled :
    ∃ c issues, tangledPack.compile = .ok (c, issues) ∧
      c.actionNames = ["stand", "tour"] ∧ c.behaviorNames = ["rest", "stroll"] ∧
      c.actions.map (·.references.map c.actionName?) = [[], [some "stand"]] ∧
      c.behaviors.map (·.next.map c.behaviorName?) = [[some "stroll"], []] ∧
      c.draggedBehavior = some 1 ∧ c.thrownBehavior = none ∧ c.Resolves tangledPack := by
  have compiles : ∃ c issues, tangledPack.compile = .ok (c, issues) ∧
      c.actionNames = ["stand", "tour"] ∧ c.behaviorNames = ["rest", "stroll"] ∧
      c.actions.map (·.references.map c.actionName?) = [[], [some "stand"]] ∧
      c.behaviors.map (·.next.map c.behaviorName?) = [[some "stroll"], []] ∧
      c.draggedBehavior = some 1 ∧ c.thrownBehavior = none :=
    ⟨_, _, rfl, by decide +kernel, by decide +kernel, by decide +kernel, by decide +kernel, by decide +kernel,
      by decide +kernel⟩
  obtain ⟨c, issues, compiled, actions, behaviors, references, next, dragged, thrown⟩ := compiles
  exact ⟨c, issues, compiled, actions, behaviors, references, next, dragged, thrown,
    compile_resolves_names tangledPack c issues compiled⟩

end DesktopPet

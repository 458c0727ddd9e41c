import DesktopPet.Proofs.Pack.References

/-!
# Compiled packs are well formed

`compiled_packs_wellFormed`: whatever a pack says, the catalog that comes of it keeps every promise of
`Catalog.WellFormed`. The actions are those that the resolution of sequences leaves; behaviors are
resolved against them, and by then no index moves any more.
-/

namespace DesktopPet

namespace Pack

/-! ## Behaviors -/

theorem compileFrequency_le (b : BehaviorSpec) : b.compileFrequency.value ≤ maxFrequency := by
  rw [BehaviorSpec.compileFrequency]
  split
  · exact UInt32.le_refl maxFrequency
  next bounded => exact UInt32.not_lt.mp bounded

/-- A behavior keeps its name and its action, and its followers are known. -/
theorem behavior_compile_sound (names : List String) (b : BehaviorSpec) (action : Nat) :
    (b.compile names action).value.name = b.name ∧
      (b.compile names action).value.action = action ∧
      (b.compile names action).value.frequency ≤ maxFrequency ∧
      ∀ i ∈ (b.compile names action).value.next, i < names.length := by
  refine ⟨rfl, rfl, compileFrequency_le b, fun i member => ?_⟩
  obtain ⟨name, _, named⟩ := List.mem_filterMap.mp member
  exact lt_of_lastIndexOf? ((Reported.lookup_value name names _).symm.trans named)

theorem resolveAction_value (actionNames : List String) (b : BehaviorSpec) :
    (b.resolveAction actionNames).value = lastIndexOf? b.actionName actionNames :=
  Reported.lookup_value b.actionName actionNames _

theorem interactionBehavior_value (names : List String) (role : Role) (authored : Option String) :
    (interactionBehavior names role authored).value = authored.bind (lastIndexOf? · names) := by
  cases authored with
  | none => rfl
  | some name => exact Reported.lookup_value name names _

private theorem interactionBehavior_lt (names : List String) (role : Role) (authored : Option String) (i : Nat)
    (chosen : (interactionBehavior names role authored).value = some i) : i < names.length := by
  rw [interactionBehavior_value] at chosen
  obtain ⟨name, _, found⟩ := Option.bind_eq_some_iff.mp chosen
  exact lt_of_lastIndexOf? found

/-! ## Whole packs -/

/-- The actions of a pack before the resolution, beside their authored forms. -/
def definedActions (p : PackSpec) : List (ActionSpec × Action) :=
  (compileFirst .actions ActionSpec.name ActionSpec.compile p.actions).value

/-- The behaviors of a pack whose action is known, with the index of it. -/
def definedBehaviors (p : PackSpec) : List (BehaviorSpec × Nat) :=
  (compileFirst .behaviors BehaviorSpec.name
    (BehaviorSpec.resolveAction ((resolveSequences (definedActions p)).value.map (·.name))) p.behaviors).value

theorem defined_names_nodup (p : PackSpec) : ((definedActions p).map (·.2.name)).Nodup := by
  have authored := compileFirst_names_nodup .actions ActionSpec.name ActionSpec.compile p.actions
  have same : (definedActions p).map (·.2.name) = (definedActions p).map (·.1.name) := by
    apply List.map_congr_left
    intro entry member
    exact (action_compile_sound entry.1 entry.2 (mem_compileFirst.mp member).2).1
  rw [same]
  exact authored

/-- The parts of a compiled pack. -/
theorem compile_parts (p : PackSpec) (c : Catalog) (issues : List Issue) (compiled : p.compile = .ok (c, issues)) :
    c.actions = (resolveSequences (definedActions p)).value ∧
      c.behaviors = (definedBehaviors p).map
        (fun entry => (entry.1.compile ((definedBehaviors p).map (·.1.name)) entry.2).value) ∧
      lastIndexOf? p.defaultBehavior ((definedBehaviors p).map (·.1.name)) = some c.defaultBehavior ∧
      c.draggedBehavior = (interactionBehavior ((definedBehaviors p).map (·.1.name)) .dragged p.draggedBehavior).value ∧
      c.thrownBehavior = (interactionBehavior ((definedBehaviors p).map (·.1.name)) .thrown p.thrownBehavior).value := by
  rw [PackSpec.compile] at compiled
  dsimp only at compiled
  split at compiled
  · cases compiled
  · split at compiled
    · cases compiled
    next found =>
      cases compiled
      exact ⟨rfl, rfl, found, rfl, rfl⟩

section Compiled

variable {p : PackSpec} {c : Catalog} {issues : List Issue}

theorem compiled_behavior_names (compiled : p.compile = .ok (c, issues)) :
    c.behaviors.map (·.name) = (definedBehaviors p).map (·.1.name) := by
  obtain ⟨_, behaviors, _⟩ := compile_parts p c issues compiled
  rw [behaviors, List.map_map]
  rfl

theorem compiled_behavior_count (compiled : p.compile = .ok (c, issues)) :
    c.behaviors.length = ((definedBehaviors p).map (·.1.name)).length := by
  rw [← compiled_behavior_names compiled, List.length_map]

theorem compiled_behaviors_le (compiled : p.compile = .ok (c, issues)) : c.behaviors.length ≤ p.behaviors.length := by
  have kept : ((definedBehaviors p).map (·.1)).Sublist p.behaviors :=
    (compileFirst_specs_sublist .behaviors BehaviorSpec.name _ p.behaviors).trans
      (firstOfEach_sublist BehaviorSpec.name [] p.behaviors)
  simpa [compiled_behavior_count compiled] using kept.length_le

/-- A behavior points to an action and to behaviors that are there. -/
theorem compiled_behavior (compiled : p.compile = .ok (c, issues)) (b : Behavior) (member : b ∈ c.behaviors) :
    b.action < c.actions.length ∧ b.frequency ≤ maxFrequency ∧ ∀ i ∈ b.next, i < c.behaviors.length := by
  obtain ⟨actions, behaviors, _⟩ := compile_parts p c issues compiled
  rw [behaviors] at member
  obtain ⟨entry, defined, made⟩ := List.mem_map.mp member
  obtain ⟨_, action, frequency, next⟩ :=
    behavior_compile_sound ((definedBehaviors p).map (·.1.name)) entry.1 entry.2
  have known := lt_of_lastIndexOf? ((resolveAction_value _ entry.1).symm.trans (mem_compileFirst.mp defined).2)
  rw [List.length_map, ← actions] at known
  rw [made] at action frequency next
  refine ⟨by rw [action]; exact known, frequency, fun i follows => ?_⟩
  rw [compiled_behavior_count compiled]
  exact next i follows

/-- An action points to actions that are there, it does so exactly if it is a sequence, and it has what it
plays. -/
theorem compiled_action (compiled : p.compile = .ok (c, issues)) (a : Action) (member : a ∈ c.actions) :
    (∀ i ∈ a.references, i < c.actions.length) ∧ (a.kind = .sequence ↔ a.references ≠ []) ∧ a.Playable := by
  obtain ⟨actions, _⟩ := compile_parts p c issues compiled
  rw [actions] at member ⊢
  obtain ⟨k, there⟩ := List.mem_iff_getElem?.mp member
  refine ⟨fun target refers => (resolved_child (definedActions p) k target a there refers).1,
    resolved_sequence (definedActions p) k a there, ?_⟩
  obtain ⟨i, entry, _, before, same, _⟩ := resolved_origin (definedActions p) k a there
  have defined := (mem_compileFirst.mp (List.mem_of_getElem? before)).2
  obtain ⟨_, _, playable⟩ := action_compile_sound entry.1 entry.2 defined
  rw [same]
  exact ⟨playable.blocks, playable.frames, playable.durations, playable.cap⟩

/-- Names are distinct in both tables. -/
theorem compiled_names (compiled : p.compile = .ok (c, issues)) :
    (c.actions.map (·.name)).Nodup ∧ (c.behaviors.map (·.name)).Nodup := by
  obtain ⟨actions, _⟩ := compile_parts p c issues compiled
  constructor
  · rw [actions]
    exact (defined_names_nodup p).sublist (resolved_sublist (definedActions p) (·.name) fun _ _ => rfl)
  · rw [compiled_behavior_names compiled]
    exact compileFirst_names_nodup .behaviors BehaviorSpec.name _ p.behaviors

/-- The default behavior and those for interactions are there. -/
theorem compiled_entries (compiled : p.compile = .ok (c, issues)) :
    c.defaultBehavior < c.behaviors.length ∧ (∀ i, c.draggedBehavior = some i → i < c.behaviors.length) ∧
      ∀ i, c.thrownBehavior = some i → i < c.behaviors.length := by
  obtain ⟨_, _, default, dragged, thrown⟩ := compile_parts p c issues compiled
  rw [compiled_behavior_count compiled, dragged, thrown]
  exact ⟨lt_of_lastIndexOf? default, interactionBehavior_lt _ .dragged p.draggedBehavior,
    interactionBehavior_lt _ .thrown p.thrownBehavior⟩

end Compiled

end Pack

open Pack

/-- Every pack that compiles gives a well-formed catalog. -/
theorem compiled_packs_wellFormed (p : PackSpec) (c : Catalog) (issues : List Issue)
    (compiled : p.compile = .ok (c, issues)) : c.WellFormed := by
  obtain ⟨actionNames, behaviorNames⟩ := compiled_names compiled
  obtain ⟨defaultBehavior, draggedBehavior, thrownBehavior⟩ := compiled_entries compiled
  exact
    { actionNames
      behaviorNames
      behaviorAction := fun b member => (compiled_behavior compiled b member).1
      behaviorNext := fun b member => (compiled_behavior compiled b member).2.2
      defaultBehavior
      draggedBehavior
      thrownBehavior
      references := fun a member => (compiled_action compiled a member).1
      sequences := fun a member => (compiled_action compiled a member).2.1
      acyclic := resolved_acyclic (definedActions p) c (compile_parts p c issues compiled).1
      playable := fun a member => (compiled_action compiled a member).2.2
      frequencies := fun b member => (compiled_behavior compiled b member).2.1
      findAction := fun i a there => by
        apply lastIndexOf?_of_nodup actionNames
        rw [List.getElem?_map]
        exact congrArg (Option.map (·.name)) there
      findBehavior := fun i b there => by
        apply lastIndexOf?_of_nodup behaviorNames
        rw [List.getElem?_map]
        exact congrArg (Option.map (·.name)) there }

/-- A pack with a repeated action, two sequences in a cycle, a third that reaches it, and a sequence that
keeps one of its two children under a new index. -/
def tangledPack : PackSpec :=
  { name := "tangled"
    defaultBehavior := "rest"
    draggedBehavior := some "stroll"
    thrownBehavior := some "fly"
    actions :=
      [{ name := "left", kind := "Sequence", references := ["right"] },
       { name := "right", kind := "Sequence", references := ["left"] },
       { name := "stand", kind := "Stay", animations := [{ frames := [{ duration := 0.0 }] }] },
       { name := "stand", kind := "Move", animations := [{ frames := [{}, {}] }] },
       { name := "lost", kind := "Sequence", references := ["left"] },
       { name := "tour", kind := "Sequence", references := ["stand", "nowhere"] }]
    behaviors :=
      [{ name := "rest", action := some "stand", frequency := 1000, next := ["stroll", "fly"] },
       { name := "stroll", action := some "tour" },
       { name := "fly", action := some "left" }] }

theorem compiled_packs_wellFormed_tangled :
    ∃ c issues, tangledPack.compile = .ok (c, issues) ∧
      c.actions.map (·.name) = ["stand", "tour"] ∧ c.behaviors.map (·.name) = ["rest", "stroll"] ∧
      c.WellFormed := by
  have compiles : ∃ c issues, tangledPack.compile = .ok (c, issues) ∧
      c.actions.map (·.name) = ["stand", "tour"] ∧ c.behaviors.map (·.name) = ["rest", "stroll"] :=
    ⟨_, _, rfl, by decide +kernel, by decide +kernel⟩
  obtain ⟨c, issues, compiled, actions, behaviors⟩ := compiles
  exact ⟨c, issues, compiled, actions, behaviors, compiled_packs_wellFormed tangledPack c issues compiled⟩

end DesktopPet

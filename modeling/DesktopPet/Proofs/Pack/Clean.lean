import DesktopPet.Proofs.Pack.Report
import Mathlib.Data.List.DropRight

/-!
# Clean reports

`clean_report_loses_nothing`: a pack without issues is in its catalog as a whole. Every definition is there at its
place, with all its blocks, frames and names. What a compiler does when it has nothing to report is said for each of
them (`_clean`), and an empty report of the pack is an empty report of every part. Only frame times, volumes and time
caps are limited without a report.
-/

namespace DesktopPet

open Condition (Predicate)
open Pack (AnimationSpec FrameSpec ActionSpec BehaviorSpec)

/-! ## What is there of a pack -/

namespace Pack

/-- A condition is kept if it is what its text compiles to. A blank text is no condition. -/
inductive ConditionKept : Option String → Option Predicate → Prop where
  | missing : ConditionKept none none
  | blank {text : String} (blank : Text.trimmed text = "") : ConditionKept (some text) none
  | compiled {text : String} {predicate : Predicate} (written : Text.trimmed text ≠ "")
      (compiled : Condition.compile text = .ok predicate) : ConditionKept (some text) (some predicate)

/-- A block is kept if it has the frames, the priority and the condition of its authored form. -/
structure BlockKept (spec : AnimationSpec) (block : Block) : Prop where
  frames : block.frames = spec.frames.map FrameSpec.compile
  priority : block.priority = spec.priority
  condition : ConditionKept spec.condition block.condition

/-- An action by itself is kept if it has the name, the kind, the footing and the blocks of its authored form. -/
structure BodyKept (spec : ActionSpec) (a : Action) : Prop where
  name : a.name = spec.name
  kind : ActionKind.ofName? spec.kind = some a.kind
  footing : a.footing.map some = spec.borderType.map Footing.ofName?
  blocks : List.Forall₂ BlockKept spec.animations a.blocks
  defaultBlock : Option.Rel BlockKept spec.defaultAnimation a.defaultBlock

end Pack

open Pack

namespace Catalog

/-- An action is kept if all its children are there besides. -/
structure ActionKept (c : Catalog) (spec : ActionSpec) (a : Action) : Prop where
  body : BodyKept spec a
  references : a.references.map c.actionName? = if a.kind = .sequence then spec.references.map some else []

/-- A behavior is kept if its action, all its followers and its condition are there, and its frequency as well. -/
structure BehaviorKept (c : Catalog) (spec : BehaviorSpec) (b : Behavior) : Prop where
  name : b.name = spec.name
  action : c.actionName? b.action = some spec.actionName
  next : b.next.map c.behaviorName? = spec.next.map some
  condition : ConditionKept spec.condition b.condition
  frequency : b.frequency = spec.frequency

/-- The catalog holds the whole pack, entry by entry in its order. -/
structure KeepsAll (c : Catalog) (p : PackSpec) : Prop where
  actions : List.Forall₂ c.ActionKept p.actions c.actions
  behaviors : List.Forall₂ c.BehaviorKept p.behaviors c.behaviors
  dragged : c.draggedBehavior.map c.behaviorName? = p.draggedBehavior.map some
  thrown : c.thrownBehavior.map c.behaviorName? = p.thrownBehavior.map some

end Catalog

/-! ## Blanks -/

namespace Text

private theorem trim_trim (cs : List Char) : trim (trim cs) = trim cs := by
  have solid : (trim cs).dropWhile isBlank = trim cs := by
    obtain ⟨rest, same⟩ := List.rdropWhile_prefix isBlank (cs.dropWhile isBlank)
    change trim cs ++ rest = _ at same
    have inked := List.head?_dropWhile_not isBlank cs
    rw [← same] at inked
    cases left : trim cs with
    | nil => rfl
    | cons c more =>
      rw [left, List.cons_append, List.head?_cons] at inked
      exact List.dropWhile_cons_of_neg (by rw [inked]; exact Bool.false_ne_true)
  conv_lhs => rw [trim, solid]
  exact List.rdropWhile_idempotent isBlank (cs.dropWhile isBlank)

private theorem toList_trimmed (text : String) : (trimmed text).toList = trim text.toList := by
  rw [trimmed, String.toList_ofList]

end Text

namespace Pack

/-- The blanks around a condition do not count. -/
theorem compile_trimmed (text : String) : Condition.compile (Text.trimmed text) = Condition.compile text := by
  have wrapper : Condition.stripWrapper (Text.trimmed text).toList = Condition.stripWrapper text.toList := by
    rw [Text.toList_trimmed, Condition.stripWrapper, Text.trim_trim]
    rfl
  have source : Text.trimmed (Text.trimmed text) = Text.trimmed text := by
    rw [Text.trimmed, Text.toList_trimmed, Text.trim_trim]
    rfl
  rw [Condition.compile, Condition.compile, wrapper, source]

/-! ## Parts without issues -/

/-- A name that is looked up without an issue is there. -/
theorem lookup_clean {name : String} {names : List String} {issue : Issue}
    (clean : (match lastIndexOf? name names with
      | some index => pure (some index)
      | none => do
        Reported.report issue
        pure none : Reported (Option Nat)).issues = []) : name ∈ names := by
  cases found : lastIndexOf? name names with
  | none =>
    rw [found] at clean
    cases clean
  | some index => exact List.mem_of_getElem? (getElem?_of_lastIndexOf? found)

theorem compileCondition_clean {owner : String} {source : Option String}
    (clean : (compileCondition owner source).issues = []) :
    ConditionKept source (compileCondition owner source).value := by
  cases source with
  | none => exact .missing
  | some text =>
    rw [compileCondition, Option.map_some] at clean ⊢
    dsimp only at clean ⊢
    split at clean
    next blank =>
      rw [if_pos blank]
      exact .blank (String.isEmpty_iff.mp blank)
    next written =>
      rw [if_neg written]
      rw [compile_trimmed] at clean ⊢
      cases compiled : Condition.compile text with
      | ok predicate => exact .compiled (fun blank => written (String.isEmpty_iff.mpr blank)) compiled
      | error error =>
        rw [compiled] at clean
        cases clean

theorem animation_compile_clean {owner : String} {a : AnimationSpec} (clean : (a.compile owner).issues = []) :
    ∃ block, (a.compile owner).value = some block ∧ BlockKept a block := by
  rw [AnimationSpec.compile] at clean ⊢
  split at clean
  · cases clean
  next framed =>
    rw [if_neg framed]
    rw [Reported.bind_issues, Reported.pure_issues, List.append_nil] at clean
    exact ⟨_, rfl, rfl, rfl, compileCondition_clean clean⟩

theorem compileFooting_clean {owner : String} {border : Option String}
    (clean : (compileFooting owner border).issues = []) :
    (compileFooting owner border).value.map some = border.map Footing.ofName? := by
  cases border with
  | none => rfl
  | some border =>
    rw [compileFooting] at clean ⊢
    cases known : Footing.ofName? border with
    | none =>
      rw [known] at clean
      cases clean
    | some footing => simp [known]

theorem animations_clean {owner : String} {animations : List AnimationSpec}
    (clean : ∀ a ∈ animations, (a.compile owner).issues = []) :
    List.Forall₂ BlockKept animations (animations.filterMap fun a => (a.compile owner).value) := by
  induction animations with
  | nil => exact .nil
  | cons a rest ih =>
    obtain ⟨here, others⟩ := List.forall_mem_cons.mp clean
    obtain ⟨block, compiled, kept⟩ := animation_compile_clean here
    rw [List.filterMap_cons, compiled]
    exact .cons kept (ih others)

theorem defaultAnimation_clean {owner : String} {animation : Option AnimationSpec}
    (clean : ∀ a ∈ animation, (a.compile owner).issues = []) :
    Option.Rel BlockKept animation (animation.bind fun a => (a.compile owner).value) := by
  cases animation with
  | none => exact .none
  | some a =>
    obtain ⟨block, compiled, kept⟩ := animation_compile_clean (clean a rfl)
    rw [Option.bind_some, compiled]
    exact .some kept

/-- The last check on an action reports what it drops. -/
theorem framed_clean {unframed : Bool} {made : Action} {issue : Issue}
    (clean : (if unframed = true then do
        Reported.report issue
        pure none
      else pure (some made) : Reported (Option Action)).issues = []) :
    (if unframed = true then do
        Reported.report issue
        pure none
      else pure (some made) : Reported (Option Action)).value.isSome = true := by
  cases unframed with
  | true => cases clean
  | false => rfl

/-- No part of an action without issues has any, and something comes of it. -/
theorem action_parts_clean {a : ActionSpec} (clean : a.compile.issues = []) :
    (compileFooting a.name a.borderType).issues = [] ∧
      (∀ animation ∈ a.animations, (animation.compile a.name).issues = []) ∧
      (∀ animation ∈ a.defaultAnimation, (animation.compile a.name).issues = []) ∧
      a.compile.value.isSome = true := by
  rw [ActionSpec.compile] at clean ⊢
  cases known : ActionKind.ofName? a.kind with
  | none =>
    rw [known] at clean
    cases clean
  | some kind =>
    rw [known] at clean
    simp only [Reported.bind_issues, List.append_eq_nil_iff, Reported.forEachKept_issues,
      List.flatMap_eq_nil_iff] at clean
    obtain ⟨footing, blocks, rest⟩ := clean
    refine ⟨footing, blocks, ?_⟩
    cases declared : a.defaultAnimation with
    | none =>
      rw [declared] at rest
      refine ⟨fun animation absent => ?_, framed_clean rest⟩
      cases absent
    | some animation =>
      rw [declared] at rest
      obtain ⟨standing, framed⟩ := List.append_eq_nil_iff.mp rest
      refine ⟨fun other same => ?_, framed_clean framed⟩
      cases Option.some.inj same
      exact standing

theorem action_compile_clean {a : ActionSpec} (clean : a.compile.issues = []) :
    ∃ action, a.compile.value = some action ∧ BodyKept a action := by
  obtain ⟨footing, blocks, standing, made⟩ := action_parts_clean clean
  obtain ⟨action, compiled⟩ := Option.isSome_iff_exists.mp made
  obtain ⟨kind, known, rfl, _⟩ := action_compile_some a action compiled
  exact ⟨_, compiled,
    { name := rfl
      kind := known
      footing := compileFooting_clean footing
      blocks := animations_clean blocks
      defaultBlock := defaultAnimation_clean standing }⟩

theorem behavior_compile_clean {names : List String} {b : BehaviorSpec} {action : Nat}
    (clean : (b.compile names action).issues = []) :
    (b.compile names action).value.frequency = b.frequency ∧ (∀ name ∈ b.next, name ∈ names) ∧
      ConditionKept b.condition (b.compile names action).value.condition := by
  simp only [BehaviorSpec.compile, Reported.bind_issues, List.append_eq_nil_iff, Reported.forEachKept_issues,
    List.flatMap_eq_nil_iff] at clean
  obtain ⟨frequency, next, condition, _⟩ := clean
  refine ⟨?_, fun name declared => lookup_clean (next name declared), compileCondition_clean condition⟩
  change b.compileFrequency.value = b.frequency
  rw [BehaviorSpec.compileFrequency] at frequency ⊢
  split at frequency
  · cases frequency
  next bounded =>
    rw [if_neg bounded]
    rfl

theorem interactionBehavior_clean {names : List String} {role : Role} {authored : Option String}
    (clean : (interactionBehavior names role authored).issues = []) : ∀ name ∈ authored, name ∈ names := by
  rintro name rfl
  exact lookup_clean clean

/-! ## Tables without issues -/

section Table

variable {α β : Type} {table : Table} {name : α → String} {compile : α → Reported (Option β)}

/-- Without issues no name is repeated and no definition has an issue. -/
theorem firstDefinitions_clean {seen : List String} {specs : List α}
    (clean : ∀ entry ∈ firstDefinitions table name seen specs,
      (do
        match ← entry with
        | none => pure none
        | some spec =>
          let compiled ← compile spec
          pure (compiled.map fun b => (spec, b)) : Reported (Option (α × β))).issues = []) :
    firstOfEach name seen specs = specs ∧ ∀ spec ∈ specs, (compile spec).issues = [] := by
  induction specs generalizing seen with
  | nil => exact ⟨rfl, nofun⟩
  | cons spec rest ih =>
    rw [firstDefinitions] at clean
    obtain ⟨here, others⟩ := List.forall_mem_cons.mp clean
    obtain ⟨whole, silent⟩ := ih others
    split at here
    · cases here
    next new =>
      refine ⟨by rw [firstOfEach, if_neg new, whole], List.forall_mem_cons.mpr ⟨?_, silent⟩⟩
      simpa using here

/-- A table without issues has every definition at its place. -/
theorem compileFirst_clean {specs : List α} (clean : (compileFirst table name compile specs).issues = [])
    (yields : ∀ spec, (compile spec).issues = [] → (compile spec).value.isSome = true) :
    firstOfEach name [] specs = specs ∧ (∀ spec ∈ specs, (compile spec).issues = []) ∧
      (compileFirst table name compile specs).value.map (·.1) = specs := by
  rw [compileFirst, Reported.forEachKept_issues, List.flatMap_eq_nil_iff] at clean
  obtain ⟨whole, silent⟩ := firstDefinitions_clean clean
  refine ⟨whole, silent, ?_⟩
  rw [compileFirst_value, whole]
  clear whole clean
  induction specs with
  | nil => rfl
  | cons spec rest ih =>
    obtain ⟨here, others⟩ := List.forall_mem_cons.mp silent
    obtain ⟨b, compiled⟩ := Option.isSome_iff_exists.mp (yields spec here)
    rw [List.filterMap_cons, compiled, Option.map_some, List.map_cons, ih others]

end Table

/-! ## Sequences without issues -/

section Resolution

variable {compiled : List (ActionSpec × Action)}

/-- Where nothing is reported no sequence is dropped, and every reference is known. -/
theorem resolveSequences_clean (clean : (resolveSequences compiled).issues = []) :
    droppedActions compiled = [] ∧
      ∀ entry ∈ compiled, entry.2.kind = .sequence →
        ∀ reference ∈ entry.1.references, reference ∈ compiled.map (·.2.name) := by
  rw [resolveSequences_issues, List.append_eq_nil_iff, List.append_eq_nil_iff, List.flatMap_eq_nil_iff,
    List.map_eq_nil_iff, List.map_eq_nil_iff] at clean
  obtain ⟨⟨references, cycles⟩, empties⟩ := clean
  refine ⟨by rw [droppedActions_append, cycles, empties]; rfl, fun entry member sequence reference declared => ?_⟩
  have known := references entry member
  rw [children_issues, if_pos sequence, List.map_eq_nil_iff, List.filter_eq_nil_iff] at known
  rw [← lastIndexOf?_isSome, Option.isSome_iff_ne_none]
  simpa using known reference declared

/-- Where nothing is dropped the names stay as they are. -/
theorem resolved_names_clean (kept : droppedActions compiled = []) :
    (resolveSequences compiled).value.map (·.name) = compiled.map (·.2.name) := by
  have all : keptActions compiled = List.range compiled.length := by
    rw [keptActions, kept]
    simp
  have count : (resolveSequences compiled).value.length = compiled.length := by
    rw [resolveSequences_value, all, List.filterMap_length_eq_length.mpr, List.length_range]
    intro i member
    simp [resolvedAt, List.mem_range.mp member]
  refine (resolved_sublist compiled (·.name) fun _ _ => rfl).eq_of_length ?_
  rw [List.length_map, List.length_map, count]

end Resolution

/-! ## Packs without issues -/

section Compiled

variable {p : PackSpec} {c : Catalog}

/-- An empty report of a pack is an empty report of every stage. -/
theorem compile_stages_clean (compiled : p.compile = .ok (c, [])) :
    (compileFirst .actions ActionSpec.name ActionSpec.compile p.actions).issues = [] ∧
      (resolveSequences (definedActions p)).issues = [] ∧
      (compileFirst .behaviors BehaviorSpec.name
        (BehaviorSpec.resolveAction ((resolveSequences (definedActions p)).value.map (·.name))) p.behaviors).issues = [] ∧
      (∀ entry ∈ definedBehaviors p,
        (entry.1.compile ((definedBehaviors p).map (·.1.name)) entry.2).issues = []) ∧
      (interactionBehavior ((definedBehaviors p).map (·.1.name)) .dragged p.draggedBehavior).issues = [] ∧
      (interactionBehavior ((definedBehaviors p).map (·.1.name)) .thrown p.thrownBehavior).issues = [] := by
  rw [PackSpec.compile] at compiled
  dsimp only at compiled
  split at compiled
  · cases compiled
  · split at compiled
    · cases compiled
    · have report := (Prod.mk.inj (Except.ok.inj compiled)).2
      simp only [Reported.bind_issues, Reported.forEach_issues, List.append_eq_nil_iff, List.flatMap_eq_nil_iff]
        at report
      obtain ⟨⟨⟨⟨⟨actions, sequences⟩, table⟩, behaviors⟩, dragged⟩, thrown⟩ := report
      exact ⟨actions, sequences, table, behaviors, dragged, thrown⟩

variable (compiled : p.compile = .ok (c, []))
include compiled

theorem definedActions_clean :
    firstOfEach ActionSpec.name [] p.actions = p.actions ∧ (∀ spec ∈ p.actions, spec.compile.issues = []) ∧
      (definedActions p).map (·.1) = p.actions :=
  compileFirst_clean (compile_stages_clean compiled).1 fun _ clean => (action_parts_clean clean).2.2.2

theorem definedBehaviors_clean : (definedBehaviors p).map (·.1) = p.behaviors := by
  refine (compileFirst_clean (compile_stages_clean compiled).2.2.1 fun spec clean => ?_).2.2
  rw [resolveAction_value, lastIndexOf?_isSome]
  exact lookup_clean clean

/-- No name of an action is lost. -/
theorem actionNames_clean :
    c.actionNames = (definedActions p).map (·.2.name) ∧ c.actionNames = p.actions.map (·.name) := by
  obtain ⟨dropless, _⟩ := resolveSequences_clean (compile_stages_clean compiled).2.1
  have authored : (definedActions p).map (·.2.name) = (definedActions p).map (·.1.name) :=
    List.map_congr_left fun entry member =>
      (action_compile_sound entry.1 entry.2 (mem_compileFirst.mp member).2).1
  have resolved : c.actionNames = (definedActions p).map (·.2.name) := by
    rw [Catalog.actionNames, (compile_parts p c [] compiled).1, resolved_names_clean dropless]
  refine ⟨resolved, ?_⟩
  rw [resolved, authored, ← (definedActions_clean compiled).2.2, List.map_map]
  rfl

theorem actions_clean : List.Forall₂ c.ActionKept p.actions c.actions := by
  obtain ⟨distinct, silent, _⟩ := definedActions_clean compiled
  obtain ⟨_, known⟩ := resolveSequences_clean (compile_stages_clean compiled).2.1
  obtain ⟨resolved, authored⟩ := actionNames_clean compiled
  obtain ⟨specs, first, origins⟩ := compiled_actions compiled
  have count : c.actions.length = p.actions.length := by
    simpa [Catalog.actionNames] using congrArg List.length authored
  rw [distinct] at first
  rw [first.eq_of_length (origins.length_eq.trans count)] at origins
  have declared := (List.forall₂_and_left p.actions c.actions).mpr ⟨fun spec member => member, origins⟩
  refine declared.imp ?_
  rintro spec a ⟨member, origin⟩
  obtain ⟨alone, made, same⟩ := origin.compiled
  obtain ⟨action, compiledAlone, body⟩ := action_compile_clean (silent spec member)
  cases Option.some.inj (made.symm.trans compiledAlone)
  refine ⟨?_, ?_⟩
  · rw [same]
    exact ⟨body.name, body.kind, body.footing, body.blocks, body.defaultBlock⟩
  rw [origin.references]
  split
  next sequence =>
    have defined : (spec, alone) ∈ definedActions p :=
      mem_compileFirst.mpr ⟨((mem_firstOfEach ActionSpec.name [] p.actions spec).mp (distinct.symm ▸ member)).2, made⟩
    rw [List.filter_eq_self.mpr fun reference listed => ?_]
    rw [resolved, decide_eq_true_eq]
    exact known (spec, alone) defined (by rw [← sequence, same]) reference listed
  · rfl

theorem behaviors_clean : List.Forall₂ c.BehaviorKept p.behaviors c.behaviors := by
  obtain ⟨_, behaviors, _⟩ := compile_parts p c [] compiled
  obtain ⟨_, _, _, silent, _⟩ := compile_stages_clean compiled
  rw [behaviors, ← definedBehaviors_clean compiled, List.forall₂_map_left_iff, List.forall₂_map_right_iff,
    List.forall₂_same]
  intro entry member
  have origin := defined_behaviorOf compiled member
  obtain ⟨frequency, next, condition⟩ := behavior_compile_clean (silent entry member)
  refine ⟨origin.name, origin.action, ?_, condition, frequency⟩
  rw [origin.next, List.filter_eq_self.mpr fun name declared => ?_]
  rw [Catalog.behaviorNames, compiled_behavior_names compiled, decide_eq_true_eq]
  exact next name declared

theorem interactions_clean {role : Role} {authored : Option String}
    (clean : (interactionBehavior ((definedBehaviors p).map (·.1.name)) role authored).issues = []) :
    (interactionBehavior ((definedBehaviors p).map (·.1.name)) role authored).value.map c.behaviorName? =
      authored.map some := by
  rw [interactionBehavior_value, bind_readBack (behavior_reads compiled) (behavior_finds compiled)]
  cases authored with
  | none => rfl
  | some name =>
    have known : name ∈ c.behaviorNames := by
      rw [Catalog.behaviorNames, compiled_behavior_names compiled]
      exact interactionBehavior_clean clean name rfl
    simp [Option.filter, known]

end Compiled

end Pack

open Pack

/-- A pack that compiles without issues is in its catalog as a whole. -/
theorem clean_report_loses_nothing (p : PackSpec) (c : Catalog) (compiled : p.compile = .ok (c, [])) : c.KeepsAll p := by
  obtain ⟨_, _, _, dragged, thrown⟩ := compile_parts p c [] compiled
  obtain ⟨_, _, _, _, draggedClean, thrownClean⟩ := compile_stages_clean compiled
  exact
    { actions := actions_clean compiled
      behaviors := behaviors_clean compiled
      dragged := by rw [dragged, interactions_clean compiled draggedClean]
      thrown := by rw [thrown, interactions_clean compiled thrownClean] }

/-- An action with a gated block, a blank condition and a default block, a sequence that visits it twice, and two
behaviors that follow each other. -/
def picnicPack : PackSpec :=
  { name := "picnic"
    defaultBehavior := "rest"
    draggedBehavior := some "rest"
    actions :=
      [{ name := "outing", kind := "Sequence", references := ["sit", "walk", "sit"] },
       { name := "sit", kind := "Stay", borderType := some "Floor"
         animations := [{ condition := some " onFloor ", priority := 2, frames := [{}, {}] },
           { condition := some "  ", frames := [{}] }]
         defaultAnimation := some { frames := [{}] } },
       { name := "walk", kind := "Move", animations := [{ frames := [{}] }] }]
    behaviors :=
      [{ name := "rest", action := some "sit", frequency := 100, next := ["outing", "rest"] },
       { name := "outing", condition := some "!isDragging", next := ["rest"] }] }

theorem clean_report_loses_nothing_picnic :
    ∃ c, picnicPack.compile = .ok (c, []) ∧
      c.actions.map (·.references) = [[1, 2, 1], [], []] ∧ c.behaviors.map (·.next) = [[1, 0], [0]] ∧
      c.actions.map (·.allBlocks.map (·.condition.isSome)) = [[], [true, false, false], [false]] ∧
      c.KeepsAll picnicPack := by
  have compiles : ∃ c issues, picnicPack.compile = .ok (c, issues) ∧ issues = [] ∧
      c.actions.map (·.references) = [[1, 2, 1], [], []] ∧ c.behaviors.map (·.next) = [[1, 0], [0]] ∧
      c.actions.map (·.allBlocks.map (·.condition.isSome)) = [[], [true, false, false], [false]] :=
    ⟨_, _, rfl, by decide +kernel, by decide +kernel, by decide +kernel, by decide +kernel⟩
  obtain ⟨c, issues, compiled, rfl, references, next, conditions⟩ := compiles
  exact ⟨c, compiled, references, next, conditions, clean_report_loses_nothing picnicPack c compiled⟩

end DesktopPet

import DesktopPet.Proofs.Pack.Survival
import Mathlib.Data.List.Count

/-!
# Reported references

`references_accounted` accounts for the references of each sequence that is left in a catalog. One that leads to no
action is reported, as often as it is declared. One that leads to a sequence without anything to play is dropped
together with that sequence, and the report of the pack names the sequence but not the reference:
`dropped_reference_unreported`.
-/

namespace DesktopPet

namespace Pack

/-! ## Who reports what -/

namespace Reported

variable {α β : Type} {Holds : Issue → Prop}

/-- Something holds of all issues. -/
def Only (Holds : Issue → Prop) (x : Reported α) : Prop :=
  ∀ issue ∈ x.issues, Holds issue

theorem Only.pure (a : α) : (Pure.pure a : Reported α).Only Holds :=
  nofun

theorem Only.bind {x : Reported α} {next : α → Reported β} (first : x.Only Holds)
    (later : ∀ a, (next a).Only Holds) : (x >>= next).Only Holds := by
  intro issue reported
  rcases List.mem_append.mp reported with early | late
  · exact first issue early
  · exact later x.value issue late

theorem Only.report {issue : Issue} (holds : Holds issue) : (Reported.report issue).Only Holds := by
  intro other reported
  rw [List.mem_singleton.mp reported]
  exact holds

theorem Only.forEach {compile : α → Reported β} {entries : List α} (each : ∀ a ∈ entries, (compile a).Only Holds) :
    (Reported.forEach compile entries).Only Holds := by
  intro issue reported
  obtain ⟨a, member, from_a⟩ := List.mem_flatMap.mp reported
  exact each a member issue from_a

theorem Only.forEachKept {compile : α → Reported (Option β)} {entries : List α}
    (each : ∀ a ∈ entries, (compile a).Only Holds) : (Reported.forEachKept compile entries).Only Holds := by
  intro issue reported
  obtain ⟨a, member, from_a⟩ := List.mem_flatMap.mp reported
  exact each a member issue from_a

/-- Looking up a name reports no more than the issue of an unknown one. -/
theorem Only.lookup {name : String} {names : List String} {issue : Issue} (holds : Holds issue) :
    (match lastIndexOf? name names with
      | some index => Pure.pure (some index)
      | none => do
        Reported.report issue
        Pure.pure none : Reported (Option Nat)).Only Holds := by
  cases lastIndexOf? name names with
  | none => exact (Only.report holds).bind fun _ => Only.pure none
  | some index => exact Only.pure (some index)

end Reported

open Reported

/-- The issue is about a reference of the sequence of that name. -/
def Issue.isReferenceOf (name : String) : Issue → Bool
  | .unknownSequenceRef action _ => action = name
  | _ => false

/-- The issue is about no reference of a sequence. -/
def Issue.OtherThanReference (issue : Issue) : Prop :=
  ∀ name, issue.isReferenceOf name = false

theorem compileCondition_only (owner : String) (source : Option String) :
    (compileCondition owner source).Only Issue.OtherThanReference := by
  unfold compileCondition
  split
  · exact Only.pure none
  · split
    · exact Only.pure none
    · split
      · exact Only.pure _
      · exact (Only.report fun _ => rfl).bind fun _ => Only.pure _

theorem animation_compile_only (owner : String) (a : AnimationSpec) :
    (a.compile owner).Only Issue.OtherThanReference := by
  unfold AnimationSpec.compile
  split
  · exact (Only.report fun _ => rfl).bind fun _ => Only.pure none
  · exact (compileCondition_only _ _).bind fun _ => Only.pure _

theorem compileFooting_only (owner : String) (border : Option String) :
    (compileFooting owner border).Only Issue.OtherThanReference := by
  unfold compileFooting
  split
  · exact Only.pure none
  · split
    · exact Only.pure _
    · exact (Only.report fun _ => rfl).bind fun _ => Only.pure none

theorem action_compile_only (a : ActionSpec) : a.compile.Only Issue.OtherThanReference := by
  have last (made : Action) (unframed : Bool) :
      (if unframed = true then do
          report (.noFrames a.name)
          pure none
        else pure (some made) : Reported (Option Action)).Only Issue.OtherThanReference := by
    split
    · exact (Only.report fun _ => rfl).bind fun _ => Only.pure none
    · exact Only.pure (some made)
  unfold ActionSpec.compile
  split
  · exact (Only.report fun _ => rfl).bind fun _ => Only.pure none
  · refine (compileFooting_only _ _).bind fun footing => ?_
    refine (Only.forEachKept fun animation _ => animation_compile_only _ animation).bind fun blocks => ?_
    cases a.defaultAnimation with
    | none => exact last _ _
    | some animation => exact (animation_compile_only _ animation).bind fun defaultBlock => last _ _

theorem behavior_compile_only (names : List String) (b : BehaviorSpec) (action : Nat) :
    (b.compile names action).Only Issue.OtherThanReference := by
  refine Only.bind ?_ fun frequency => ?_
  · unfold BehaviorSpec.compileFrequency
    split
    · exact (Only.report fun _ => rfl).bind fun _ => Only.pure _
    · exact Only.pure _
  · refine (Only.forEachKept fun name _ => Only.lookup fun _ => rfl).bind fun next => ?_
    exact (compileCondition_only _ _).bind fun condition => Only.pure _

theorem interactionBehavior_only (names : List String) (role : Role) (authored : Option String) :
    (interactionBehavior names role authored).Only Issue.OtherThanReference := by
  cases authored with
  | none => exact Only.pure none
  | some name => exact Only.lookup fun _ => rfl

/-- A table reports what its definitions do, and repeated names. -/
theorem compileFirst_only {α β : Type} (table : Table) (name : α → String) (compile : α → Reported (Option β))
    (each : ∀ spec, (compile spec).Only Issue.OtherThanReference) (specs : List α) :
    (compileFirst table name compile specs).Only Issue.OtherThanReference := by
  have repeated (seen : List String) : ∀ entry ∈ firstDefinitions table name seen specs,
      entry.Only Issue.OtherThanReference := by
    induction specs generalizing seen with
    | nil => nofun
    | cons spec rest ih =>
      rw [firstDefinitions]
      refine List.forall_mem_cons.mpr ⟨?_, ih _⟩
      split
      · exact List.forall_mem_singleton.mpr fun _ => rfl
      · exact Only.pure (some spec)
  refine Only.forEachKept fun entry member => (repeated [] entry member).bind fun first => ?_
  cases first with
  | none => exact Only.pure none
  | some spec => exact (each spec).bind fun compiled => Only.pure _

/-! ## The report of a pack -/

section Compiled

variable {p : PackSpec} {c : Catalog} {issues : List Issue}

/-- The report of a pack is that of its tables around that of the resolution. -/
theorem compile_issues (compiled : p.compile = .ok (c, issues)) :
    ∃ before after, issues = before ++ (resolveSequences (definedActions p)).issues ++ after ∧
      (∀ issue ∈ before, issue.OtherThanReference) ∧ ∀ issue ∈ after, issue.OtherThanReference := by
  have behaviors := compileFirst_only .behaviors BehaviorSpec.name
    (BehaviorSpec.resolveAction ((resolveSequences (definedActions p)).value.map (·.name)))
    (fun spec => Only.lookup fun _ => rfl) p.behaviors
  rw [PackSpec.compile] at compiled
  dsimp only at compiled
  split at compiled
  · cases compiled
  · split at compiled
    · cases compiled
    · cases compiled
      refine ⟨_, _, by simp only [bind_issues, List.append_assoc]; rfl,
        compileFirst_only .actions ActionSpec.name ActionSpec.compile action_compile_only p.actions, ?_⟩
      intro issue reported
      simp only [List.mem_append] at reported
      rcases reported with table | entries | dragged | thrown
      · exact behaviors issue table
      · exact Only.forEach (fun entry _ => behavior_compile_only _ entry.1 entry.2) issue entries
      · exact interactionBehavior_only _ _ _ issue dragged
      · exact interactionBehavior_only _ _ _ issue thrown

end Compiled

/-- Issues about the references of one sequence come from that sequence: names are distinct. -/
theorem countP_children (names : List String) {entries : List (ActionSpec × Action)}
    (distinct : (entries.map (·.2.name)).Nodup) {entry : ActionSpec × Action} (member : entry ∈ entries)
    (counts : Issue → Bool) (own : ∀ issue, counts issue = true → issue.isReferenceOf entry.2.name = true) :
    (entries.flatMap fun other => (children names other.1 other.2).issues).countP counts =
      (children names entry.1 entry.2).issues.countP counts := by
  have elsewhere {others : List (ActionSpec × Action)} (absent : entry.2.name ∉ others.map (·.2.name)) :
      (others.flatMap fun other => (children names other.1 other.2).issues).countP counts = 0 := by
    refine List.countP_eq_zero.mpr fun issue reported counted => absent ?_
    obtain ⟨other, listed, reported⟩ := List.mem_flatMap.mp reported
    obtain ⟨reference, rfl⟩ := mem_children_issues reported
    exact List.mem_map.mpr ⟨other, listed, of_decide_eq_true (own _ counted)⟩
  obtain ⟨earlier, later, rfl⟩ := List.append_of_mem member
  rw [List.map_append, List.map_cons, List.nodup_middle, List.nodup_cons, List.mem_append, not_or] at distinct
  rw [List.flatMap_append, List.flatMap_cons, List.countP_append, List.countP_append, elsewhere distinct.1.1,
    elsewhere distinct.1.2, Nat.zero_add, Nat.add_zero]

section Sequence

variable {p : PackSpec} {c : Catalog} {issues : List Issue} (compiled : p.compile = .ok (c, issues))
  {spec : ActionSpec} {action : Action} (defined : p.Defines spec action)
include compiled defined

/-- So they do in the report of a whole pack. -/
theorem countP_references (counts : Issue → Bool)
    (own : ∀ issue, counts issue = true → issue.isReferenceOf action.name = true) :
    issues.countP counts = (children ((definedActions p).map (·.2.name)) spec action).issues.countP counts := by
  have silent {others : List Issue} (quiet : ∀ issue ∈ others, issue.OtherThanReference) :
      others.countP counts = 0 :=
    List.countP_eq_zero.mpr fun issue reported counted =>
      Bool.noConfusion ((quiet issue reported action.name).symm.trans (own issue counted))
  obtain ⟨before, after, whole, quietBefore, quietAfter⟩ := compile_issues compiled
  obtain ⟨i, there⟩ := (defines_iff p spec action).mp defined
  rw [whole, List.countP_append, List.countP_append, silent quietBefore, silent quietAfter, resolveSequences_issues,
    List.countP_append, List.countP_append, silent (List.forall_mem_map.mpr fun i _ name => rfl),
    silent (List.forall_mem_map.mpr fun i _ name => rfl), Nat.zero_add, Nat.add_zero]
  exact countP_children _ (defined_names_nodup p) (List.mem_of_getElem? there) counts own

omit compiled defined in
/-- A reference leads nowhere exactly if no action is defined under its name. -/
theorem lookup_isNone_iff (reference : String) :
    (lastIndexOf? reference ((definedActions p).map (·.2.name))).isNone = true ↔ ¬ p.IsDefined reference := by
  rw [Option.isNone_iff_eq_none, ← Option.not_isSome_iff_eq_none, lastIndexOf?_isSome, PackSpec.IsDefined, names_iff,
    List.mem_map]
  refine not_congr ⟨?_, ?_⟩
  · rintro ⟨entry, member, rfl⟩
    obtain ⟨i, there⟩ := List.mem_iff_getElem?.mp member
    obtain ⟨name, stands⟩ := defined_name there
    exact ⟨i, entry, there, stands.trans name.symm, trivial⟩
  · rintro ⟨i, entry, there, rfl, _⟩
    obtain ⟨name, stands⟩ := defined_name there
    exact ⟨entry, List.mem_of_getElem? there, name.trans stands.symm⟩

open Classical in
/-- A reference that leads nowhere is reported as often as it is declared, and no other is. -/
theorem count_unknownSequenceRef (sequence : action.kind = .sequence) (reference : String) :
    issues.count (.unknownSequenceRef action.name reference) =
      if p.IsDefined reference then 0 else spec.references.count reference := by
  have injective : Function.Injective (Issue.unknownSequenceRef action.name) :=
    fun _ _ same => (Issue.unknownSequenceRef.inj same).2
  rw [List.count, countP_references compiled defined _ (fun issue counted => ?_), children_issues, if_pos sequence,
    ← List.count, List.count_map_of_injective _ _ injective]
  · split
    next known =>
      refine List.count_eq_zero_of_not_mem fun member => ?_
      exact (lookup_isNone_iff reference).mp (List.mem_filter.mp member).2 known
    next unknown => exact List.count_filter ((lookup_isNone_iff reference).mpr unknown)
  · rw [eq_of_beq counted]
    exact decide_eq_true rfl

open Classical in
private theorem countP_isReferenceOf (sequence : action.kind = .sequence) :
    issues.countP (Issue.isReferenceOf action.name) = spec.references.countP (fun reference => ¬ p.IsDefined reference) := by
  rw [countP_references compiled defined _ fun _ counted => counted, children_issues, if_pos sequence,
    List.countP_map, List.countP_filter]
  refine List.countP_congr fun reference _ => ?_
  simp [Issue.isReferenceOf, ← lookup_isNone_iff]

end Sequence

/-! ## What becomes of declared references -/

section Left

variable {p : PackSpec} {c : Catalog} {issues : List Issue} (compiled : p.compile = .ok (c, issues))
include compiled

/-- An action that is left is the first definition of its name. -/
theorem left_defined {a : Action} (member : a ∈ c.actions) :
    ∃ spec action, p.Defines spec action ∧ action.kind = a.kind ∧ action.name = a.name ∧ spec.name = a.name ∧
      c.ActionOf spec a := by
  obtain ⟨specs, first, origins⟩ := compiled_actions compiled
  obtain ⟨i, bound, rfl⟩ := List.mem_iff_getElem.mp member
  have origin := List.forall₂_iff_get.mp origins
  have inside : i < specs.length := origin.1 ▸ bound
  have declared := (mem_firstOfEach ActionSpec.name [] p.actions specs[i]).mp (first.subset (List.getElem_mem inside))
  have actionOf : c.ActionOf specs[i] c.actions[i] := origin.2 i inside bound
  obtain ⟨action, alone, same⟩ := actionOf.compiled
  refine ⟨specs[i], action, ⟨declared.2, alone⟩, by rw [same], by rw [same], actionOf.name.symm, actionOf⟩

/-- A name that is defined and not left is that of a dropped sequence. -/
theorem left_or_dropped {name : String} (known : p.IsDefined name) :
    name ∉ c.actionNames ↔ p.IsSequence name ∧ (ReachesCycle p.Refers name ∨ ¬ p.ReachesLeaf name) := by
  obtain ⟨spec, action, defined, rfl, _⟩ := known
  rw [Catalog.actionNames, (compile_parts p c issues compiled).1]
  exact (resolveSequences_resolution p).dropped spec action defined

private theorem noFrames_reported {name : String} (barren : p.IsBarren name) : .noFrames name ∈ issues := by
  classical
  obtain ⟨before, after, whole, _⟩ := compile_issues compiled
  have once := count_noFrames p name
  rw [if_pos barren] at once
  have reported := List.count_pos_iff.mp (Nat.lt_of_lt_of_eq Nat.one_pos once.symm)
  rw [whole]
  exact List.mem_append_left after (List.mem_append_right before reported)

end Left

/-- What is known is left or barren, and the two exclude each other. -/
theorem countP_known {names : List String} {Left Known Barren : String → Prop} [DecidablePred Left]
    [DecidablePred Known] [DecidablePred Barren] (left_known : ∀ name ∈ names, Left name → Known name)
    (barren_iff : ∀ name ∈ names, Barren name ↔ Known name ∧ ¬ Left name) :
    names.countP Left + names.countP (fun name => ¬ Known name) + names.countP Barren = names.length := by
  induction names with
  | nil => rfl
  | cons name rest ih =>
    obtain ⟨here, left_known⟩ := List.forall_mem_cons.mp left_known
    obtain ⟨same, barren_iff⟩ := List.forall_mem_cons.mp barren_iff
    have others := ih left_known barren_iff
    by_cases known : Known name
    · by_cases left : Left name
      · simp [same, known, left] at others ⊢
        omega
      · simp [same, known, left] at others ⊢
        omega
    · have gone : ¬ Left name := fun left => known (here left)
      simp [same, known, gone] at others ⊢
      omega

end Pack

open Pack

open Classical in
/-- What becomes of the references that a sequence declares. -/
structure Catalog.Accounts (c : Catalog) (p : PackSpec) (issues : List Issue) (spec : ActionSpec) (a : Action) :
    Prop where
  /-- Those are kept that name actions of the catalog. -/
  kept : a.references.map c.actionName? = (spec.references.filter (· ∈ c.actionNames)).map some
  /-- Those are reported, as often as they are declared, that name no action of the pack. -/
  reported : ∀ reference, issues.count (.unknownSequenceRef a.name reference) =
    if p.IsDefined reference then 0 else spec.references.count reference
  /-- The others name sequences with nothing to play. Such a sequence is dropped and reported itself. -/
  lost : ∀ reference ∈ spec.references, p.IsDefined reference →
    (reference ∉ c.actionNames ↔ p.IsBarren reference) ∧
      (p.IsBarren reference → .noFrames reference ∈ issues)
  total : a.references.length + issues.countP (Issue.isReferenceOf a.name) +
    spec.references.countP (fun reference => p.IsBarren reference) = spec.references.length

/-- The references of every sequence in a catalog are accounted for: kept, reported as unknown, or lost with a sequence
that has nothing to play. -/
theorem references_accounted (p : PackSpec) (c : Catalog) (issues : List Issue)
    (compiled : p.compile = .ok (c, issues)) (a : Action) (member : a ∈ c.actions) (sequence : a.kind = .sequence) :
    ∃ spec, p.actions.find? (fun spec => spec.name = a.name) = some spec ∧ c.Accounts p issues spec a := by
  classical
  obtain ⟨spec, action, defined, kind, actionName, specName, origin⟩ := left_defined compiled member
  have alone : action.kind = .sequence := kind.trans sequence
  have kept := origin.references
  rw [if_pos sequence] at kept
  have present : a.name ∈ c.actionNames := List.mem_map_of_mem member
  have surviving : ¬ ReachesCycle p.Refers a.name := fun reaches =>
    (left_or_dropped compiled ⟨spec, action, defined, specName, trivial⟩).mpr
      ⟨⟨spec, action, defined, specName, alone⟩, Or.inl reaches⟩ present
  have lost (reference : String) (declared : reference ∈ spec.references) (known : p.IsDefined reference) :
      reference ∉ c.actionNames ↔ p.IsBarren reference := by
    -- a child that reaches a cycle would have taken the sequence along
    have safe : ¬ ReachesCycle p.Refers reference := fun reaches =>
      surviving (reaches.head ⟨spec, action, defined, specName, alone, declared, known⟩)
    rw [left_or_dropped compiled known, PackSpec.IsBarren, or_iff_right safe, and_iff_right safe]
  refine ⟨spec, specName ▸ defined.1, kept, fun reference => ?_, fun reference declared known => ?_, ?_⟩
  · rw [← actionName]
    exact count_unknownSequenceRef compiled defined alone reference
  · exact ⟨lost reference declared known, noFrames_reported compiled⟩
  · have length := congrArg List.length kept
    rw [List.length_map, List.length_map, ← List.countP_eq_length_filter] at length
    rw [length, ← actionName, countP_isReferenceOf compiled defined alone]
    refine countP_known (fun reference _ left => ?_) fun reference declared => ?_
    · obtain ⟨other, listed, rfl⟩ := List.mem_map.mp left
      obtain ⟨otherSpec, otherAction, otherDefined, _, _, otherName, _⟩ := left_defined compiled listed
      exact ⟨otherSpec, otherAction, otherDefined, otherName, trivial⟩
    · constructor
      · intro barren
        obtain ⟨otherSpec, otherAction, otherDefined, otherName, _⟩ := barren.1
        have known : p.IsDefined reference := ⟨otherSpec, otherAction, otherDefined, otherName, trivial⟩
        exact ⟨known, (lost reference declared known).mpr barren⟩
      · rintro ⟨known, gone⟩
        exact (lost reference declared known).mp gone

/-- A sequence that names an action, a sequence without references, and nothing that is there. -/
def gappyPack : PackSpec :=
  { name := "gappy"
    defaultBehavior := "stand"
    actions :=
      [{ name := "stand", kind := "Stay", animations := [{ frames := [{ image := some "stand.png" }] }] },
       { name := "nothing", kind := "Sequence" },
       { name := "tour", kind := "Sequence", references := ["stand", "nothing", "nowhere"] }]
    behaviors := [{ name := "stand" }, { name := "tour" }] }

/-- The reference to the sequence without references is gone, and no issue is about it. -/
theorem dropped_reference_unreported :
    ∃ c issues spec a, gappyPack.compile = .ok (c, issues) ∧ spec ∈ gappyPack.actions ∧ a ∈ c.actions ∧
      a.kind = .sequence ∧ a.name = spec.name ∧ "nothing" ∈ spec.references ∧
      some "nothing" ∉ a.references.map c.actionName? ∧ .unknownSequenceRef a.name "nothing" ∉ issues ∧
      a.references.length + issues.countP (Issue.isReferenceOf a.name) ≠ spec.references.length := by
  refine ⟨_, _, _, _, rfl, List.mem_of_getElem? (i := 2) rfl, List.mem_of_getElem? (i := 1) rfl, ?_⟩
  decide +kernel

theorem references_accounted_gappy :
    ∃ c issues a, gappyPack.compile = .ok (c, issues) ∧ a ∈ c.actions ∧ a.kind = .sequence ∧
      issues = [.unknownSequenceRef "tour" "nowhere", .noFrames "nothing"] ∧
      ∃ spec, gappyPack.actions.find? (fun spec => spec.name = a.name) = some spec ∧
        c.Accounts gappyPack issues spec a := by
  have compiles : ∃ c issues a, gappyPack.compile = .ok (c, issues) ∧ a ∈ c.actions ∧ a.kind = .sequence ∧
      issues = [.unknownSequenceRef "tour" "nowhere", .noFrames "nothing"] :=
    ⟨_, _, _, rfl, List.mem_of_getElem? (i := 1) rfl, by decide +kernel, by decide +kernel⟩
  obtain ⟨c, issues, a, compiled, member, sequence, report⟩ := compiles
  exact ⟨c, issues, a, compiled, member, sequence, report,
    references_accounted gappyPack c issues compiled a member sequence⟩

end DesktopPet

import DesktopPet.Proofs.Catalog.WellFormed
import DesktopPet.Proofs.Number.Order

/-!
# One definition at a time

The first definition of each name counts, and what it compiles to is playable by itself. References are
resolved later; `action_compile_sound` says what an action has before that.
-/

namespace DesktopPet.Pack

open Condition (Predicate)

variable {α β : Type}

/-! ## Results with issues -/

namespace Reported

@[simp] theorem pure_value (a : α) : (pure a : Reported α).value = a := rfl

@[simp] theorem bind_value (x : Reported α) (next : α → Reported β) :
    (x >>= next).value = (next x.value).value := rfl

@[simp] theorem forEach_value (compile : α → Reported β) (entries : List α) :
    (forEach compile entries).value = entries.map fun a => (compile a).value := rfl

@[simp] theorem forEachKept_value (compile : α → Reported (Option β)) (entries : List α) :
    (forEachKept compile entries).value = entries.filterMap fun a => (compile a).value := rfl

@[simp] theorem pure_issues (a : α) : (pure a : Reported α).issues = [] := rfl

@[simp] theorem bind_issues (x : Reported α) (next : α → Reported β) :
    (x >>= next).issues = x.issues ++ (next x.value).issues := rfl

@[simp] theorem forEach_issues (compile : α → Reported β) (entries : List α) :
    (forEach compile entries).issues = entries.flatMap fun a => (compile a).issues := rfl

@[simp] theorem forEachKept_issues (compile : α → Reported (Option β)) (entries : List α) :
    (forEachKept compile entries).issues = entries.flatMap fun a => (compile a).issues := rfl

/-- Issues that are reported one for each entry. -/
theorem forEach_report_issues (issue : α → Issue) (entries : List α) :
    (forEach (fun a => report (issue a)) entries).issues = entries.map issue := by
  rw [forEach_issues]
  exact List.map_eq_flatMap.symm

/-- Looking up a name yields its index, whatever is reported for an unknown one. -/
theorem lookup_value (name : String) (names : List String) (issue : Issue) :
    (match lastIndexOf? name names with
      | some index => pure (some index)
      | none => do
        report issue
        pure none : Reported (Option Nat)).value = lastIndexOf? name names := by
  cases lastIndexOf? name names with
  | none => rfl
  | some index => rfl

end Reported

/-! ## The first definition of each name -/

/-- The entries whose name is not among those seen before them. -/
def firstOfEach (name : α → String) : List String → List α → List α
  | _, [] => []
  | seen, a :: rest =>
    if name a ∈ seen then firstOfEach name (name a :: seen) rest
    else a :: firstOfEach name (name a :: seen) rest

/-- First definitions are what a search for their names finds. -/
theorem mem_firstOfEach (name : α → String) (seen : List String) (entries : List α) (a : α) :
    a ∈ firstOfEach name seen entries ↔ name a ∉ seen ∧ entries.find? (fun b => name b = name a) = some a := by
  induction entries generalizing seen with
  | nil => simp [firstOfEach]
  | cons b rest ih =>
    by_cases same : name b = name a
    · -- the first entry of that name: it is `a` or it hides `a`
      have found : (b :: rest).find? (fun c => name c = name a) = some b := by simp [same]
      have hidden : a ∉ firstOfEach name (name b :: seen) rest := by simp [ih, same]
      rw [firstOfEach, found, Option.some.injEq]
      split
      next old =>
        rw [same] at old
        simp [hidden, old]
      next new =>
        rw [same] at new
        simp [hidden, new, eq_comm]
    · have skipped : (b :: rest).find? (fun c => name c = name a) = rest.find? fun c => name c = name a := by
        simp [same]
      have other : a ≠ b := fun equal => same (congrArg name equal).symm
      rw [firstOfEach, skipped]
      split
      · simp [ih, Ne.symm same]
      · simp [ih, Ne.symm same, other]

theorem firstOfEach_sublist (name : α → String) (seen : List String) (entries : List α) :
    (firstOfEach name seen entries).Sublist entries := by
  induction entries generalizing seen with
  | nil => exact .slnil
  | cons a rest ih =>
    rw [firstOfEach]
    split
    · exact (ih _).cons a
    · exact (ih _).cons_cons a

/-- No name occurs twice among first definitions. -/
private theorem firstOfEach_nodup (name : α → String) (seen : List String) (entries : List α) :
    ((firstOfEach name seen entries).map name).Nodup := by
  induction entries generalizing seen with
  | nil => exact .nil
  | cons a rest ih =>
    rw [firstOfEach]
    split
    · exact ih _
    · rw [List.map_cons, List.nodup_cons]
      refine ⟨?_, ih _⟩
      intro again
      obtain ⟨b, member, same⟩ := List.mem_map.mp again
      exact ((mem_firstOfEach name _ rest b).mp member).1 (by simp [same])

private theorem firstDefinitions_kept (table : Table) (name : α → String) (seen : List String) (entries : List α)
    (compile : α → Reported (Option β)) :
    (firstDefinitions table name seen entries).filterMap (fun entry =>
        ((do
          match ← entry with
          | none => pure none
          | some spec =>
            let compiled ← compile spec
            pure (compiled.map fun b => (spec, b)) : Reported (Option (α × β)))).value) =
      (firstOfEach name seen entries).filterMap fun spec => (compile spec).value.map fun b => (spec, b) := by
  induction entries generalizing seen with
  | nil => rfl
  | cons a rest ih =>
    rw [firstDefinitions, firstOfEach]
    split
    · rw [List.filterMap_cons]
      exact ih _
    · rw [List.filterMap_cons, List.filterMap_cons, ih]
      rfl

/-- What a table keeps: the first definition of each name, as far as something comes of it. -/
theorem compileFirst_value (table : Table) (name : α → String) (compile : α → Reported (Option β))
    (specs : List α) :
    (compileFirst table name compile specs).value =
      (firstOfEach name [] specs).filterMap fun spec => (compile spec).value.map fun b => (spec, b) :=
  firstDefinitions_kept table name [] specs compile

/-- A table keeps exactly what comes of first definitions. -/
theorem mem_compileFirst {table : Table} {name : α → String} {compile : α → Reported (Option β)}
    {specs : List α} {entry : α × β} :
    entry ∈ (compileFirst table name compile specs).value ↔
      specs.find? (fun spec => name spec = name entry.1) = some entry.1 ∧ (compile entry.1).value = some entry.2 := by
  rw [compileFirst_value, List.mem_filterMap]
  constructor
  · rintro ⟨spec, first, built⟩
    obtain ⟨b, compiled, same⟩ := Option.map_eq_some_iff.mp built
    subst same
    exact ⟨((mem_firstOfEach name [] specs spec).mp first).2, compiled⟩
  · rintro ⟨first, compiled⟩
    refine ⟨entry.1, (mem_firstOfEach name [] specs entry.1).mpr ⟨List.not_mem_nil, first⟩, ?_⟩
    rw [compiled]
    rfl

/-- The authored forms of what a table keeps are some of the first definitions, in order. -/
theorem compileFirst_specs_sublist (table : Table) (name : α → String) (compile : α → Reported (Option β))
    (specs : List α) :
    ((compileFirst table name compile specs).value.map (·.1)).Sublist (firstOfEach name [] specs) := by
  rw [compileFirst_value]
  generalize firstOfEach name [] specs = first
  induction first with
  | nil => exact .slnil
  | cons spec rest ih =>
    rw [List.filterMap_cons]
    cases (compile spec).value with
    | none => exact ih.cons spec
    | some b => exact ih.cons_cons spec

theorem compileFirst_names_nodup (table : Table) (name : α → String) (compile : α → Reported (Option β))
    (specs : List α) :
    ((compileFirst table name compile specs).value.map fun entry => name entry.1).Nodup := by
  have kept := (compileFirst_specs_sublist table name compile specs).map name
  rw [List.map_map] at kept
  exact (firstOfEach_nodup name [] specs).sublist kept

/-! ## Frames, blocks and actions -/

/-- A frame lasts at least the shortest time, and its time is finite, whatever was authored. -/
theorem frame_compile_duration (f : FrameSpec) :
    f.compile.duration.isFinite = true ∧ minFrameDuration ≤ f.compile.duration := by
  rw [FrameSpec.compile]
  dsimp only
  split
  next finite => exact Number.maximum_finite f.duration minFrameDuration finite (by decide)
  · exact ⟨by decide, by decide⟩

private theorem animation_compile_frames (owner : String) (a : AnimationSpec) (block : Block)
    (compiled : (a.compile owner).value = some block) :
    a.frames ≠ [] ∧ block.frames = a.frames.map FrameSpec.compile := by
  rw [AnimationSpec.compile] at compiled
  cases frames : a.frames with
  | nil =>
    simp only [frames, List.isEmpty_nil, ↓reduceIte] at compiled
    cases compiled
  | cons first rest =>
    simp only [frames, List.isEmpty_cons, Bool.false_eq_true, ↓reduceIte] at compiled
    cases Option.some.inj compiled
    exact ⟨fun empty => (nomatch empty), rfl⟩

private theorem timeCap_bounds (seconds cap : Float32) (kept : timeCap? seconds = some cap) :
    cap.isFinite = true ∧ 0.0 < cap := by
  rw [timeCap?] at kept
  split at kept
  next counts =>
    cases Option.some.inj kept
    simpa using counts
  · cases kept

/-- The last check on an action: without any block it stays only if its kind needs no frames. -/
theorem keep_action (kind : ActionKind) (made action : Action) (issue : Issue)
    (kept : (if (needsFrames kind && made.blocks.isEmpty && made.defaultBlock.isNone) = true then do
        Reported.report issue
        pure none
      else pure (some made) : Reported (Option Action)).value = some action) :
    action = made ∧ (needsFrames kind = true → action.allBlocks ≠ []) := by
  split at kept
  · cases kept
  next framed =>
    cases Option.some.inj kept
    refine ⟨rfl, fun needed empty => framed ?_⟩
    obtain ⟨noBlocks, noDefault⟩ := List.append_eq_nil_iff.mp empty
    simpa [needed] using And.intro noBlocks (Option.toList_eq_nil_iff.mp noDefault)

/-- The compiled form of an action field by field. -/
theorem action_compile_some (a : ActionSpec) (action : Action) (compiled : a.compile.value = some action) :
    ∃ kind, ActionKind.ofName? a.kind = some kind ∧
      action =
        { name := a.name
          kind
          footing := (compileFooting a.name a.borderType).value
          blocks := a.animations.filterMap fun animation => (animation.compile a.name).value
          defaultBlock := a.defaultAnimation.bind fun animation => (animation.compile a.name).value
          references := []
          looping := a.looping.getD kind.loopsByDefault
          draggable := a.draggable
          duration := a.duration.bind timeCap?
          embedded := a.embedded } ∧
      (needsFrames kind = true → action.allBlocks ≠ []) := by
  rw [ActionSpec.compile] at compiled
  cases known : ActionKind.ofName? a.kind with
  | none =>
    simp only [known] at compiled
    cases compiled
  | some kind =>
    refine ⟨kind, rfl, ?_⟩
    cases standing : a.defaultAnimation with
    | none =>
      simp only [known, standing, Reported.bind_value, Reported.forEachKept_value] at compiled
      exact keep_action kind _ action _ compiled
    | some animation =>
      simp only [known, standing, Reported.bind_value, Reported.forEachKept_value] at compiled
      exact keep_action kind _ action _ compiled

/-- An action by itself has its authored name, no references yet, and is playable. -/
theorem action_compile_sound (a : ActionSpec) (action : Action) (compiled : a.compile.value = some action) :
    action.name = a.name ∧ action.references = [] ∧ action.Playable := by
  obtain ⟨kind, _, same, blocks⟩ := action_compile_some a action compiled
  have built : ∀ block ∈ action.allBlocks, ∃ animation : AnimationSpec,
      (animation.compile a.name).value = some block := by
    intro block member
    rw [same, Action.allBlocks, List.mem_append, Option.mem_toList] at member
    rcases member with listed | standing
    · obtain ⟨animation, _, made⟩ := List.mem_filterMap.mp listed
      exact ⟨animation, made⟩
    · obtain ⟨animation, _, made⟩ := Option.bind_eq_some_iff.mp standing
      exact ⟨animation, made⟩
  refine ⟨by rw [same], by rw [same], ?_, ?_, ?_, ?_⟩
  · intro needed
    exact blocks (by rw [same] at needed; exact needed)
  · intro block member
    obtain ⟨animation, made⟩ := built block member
    obtain ⟨present, frames⟩ := animation_compile_frames a.name animation block made
    simpa [frames] using present
  · intro block member frame shown
    obtain ⟨animation, made⟩ := built block member
    rw [(animation_compile_frames a.name animation block made).2] at shown
    obtain ⟨spec, _, rfl⟩ := List.mem_map.mp shown
    exact frame_compile_duration spec
  · intro seconds capped
    rw [same] at capped
    obtain ⟨authored, _, kept⟩ := Option.bind_eq_some_iff.mp capped
    exact timeCap_bounds authored seconds kept

end DesktopPet.Pack

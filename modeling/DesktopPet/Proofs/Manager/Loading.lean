import DesktopPet.Manager
import DesktopPet.Proofs.Pack.Survival

/-!
# Which packs are loaded

`packs_rejected_exactly`: a pack is refused for its behaviors only. Of a behavior it counts whether it is the first of
its name and whether its action survives, and an action survives exactly if something that is no sequence can be reached
from it and no cycle can (`survives_iff`). A refused pack leaves the manager as it was.
-/

namespace DesktopPet

open Pack

namespace PackSpec

variable (p : PackSpec)

/-- Something that is no sequence can be reached from the action of that name, and no cycle. A name that stands for no
action leads nowhere. -/
def Survives (name : String) : Prop :=
  p.ReachesLeaf name ∧ ¬ ReachesCycle p.Refers name

/-- The behavior is the first of its name, and the action that it names survives. -/
structure Keeps (spec : BehaviorSpec) : Prop where
  first : p.behaviors.find? (fun other => other.name = spec.name) = some spec
  action : p.Survives spec.actionName

end PackSpec

namespace Pack

section Survival

variable {p : PackSpec}

private theorem isDefined_of_reachesLeaf {name : String} (reaches : p.ReachesLeaf name) : p.IsDefined name := by
  obtain ⟨leaf, path, spec, action, defined, named, _⟩ := reaches
  rcases Relation.ReflTransGen.cases_head path with rfl | ⟨_, first, _⟩
  · exact ⟨spec, action, defined, named, trivial⟩
  · obtain ⟨spec, action, defined, named, _⟩ := first
    exact ⟨spec, action, defined, named, trivial⟩

private theorem isSequence_of_reachesCycle {name : String} (reaches : ReachesCycle p.Refers name) :
    p.IsSequence name := by
  obtain ⟨_, path, cycle⟩ := reaches
  obtain ⟨_, first, _⟩ := Relation.TransGen.head'_iff.mp (Relation.TransGen.trans_right path cycle)
  obtain ⟨spec, action, defined, named, sequence, _⟩ := first
  exact ⟨spec, action, defined, named, sequence⟩

/-- What survives is what the resolution of sequences leaves. -/
theorem survives_iff (name : String) :
    p.Survives name ↔ name ∈ (resolveSequences (definedActions p)).value.map (·.name) := by
  have dropped := (resolveSequences_resolution p).dropped
  constructor
  · rintro ⟨leads, free⟩
    obtain ⟨spec, action, defined, rfl, _⟩ := isDefined_of_reachesLeaf leads
    by_contra gone
    rcases ((dropped spec action defined).mp gone).2 with reaches | barren
    · exact free reaches
    · exact barren leads
  · intro left
    have known := (resolved_sublist (definedActions p) (·.name) fun _ _ => rfl).subset left
    obtain ⟨entry, member, rfl⟩ := List.mem_map.mp known
    obtain ⟨i, there⟩ := List.mem_iff_getElem?.mp member
    have defined := (defines_iff p entry.1 entry.2).mpr ⟨i, there⟩
    have name := (defined_name there).1
    rw [name] at left ⊢
    have stays := fun gone => (dropped entry.1 entry.2 defined).mpr gone left
    by_cases sequence : entry.2.kind = .sequence
    · have ends := fun reason => stays ⟨⟨entry.1, entry.2, defined, rfl, sequence⟩, reason⟩
      exact ⟨by_contra fun barren => ends (Or.inr barren), fun reaches => ends (Or.inl reaches)⟩
    · refine ⟨⟨entry.1.name, .refl, entry.1, entry.2, defined, rfl, sequence⟩, fun reaches => ?_⟩
      exact stays ⟨isSequence_of_reachesCycle reaches, Or.inl reaches⟩

/-- The kept behaviors are those that the compiler goes on with. -/
theorem keeps_iff (spec : BehaviorSpec) : p.Keeps spec ↔ ∃ i, (spec, i) ∈ definedBehaviors p := by
  have resolved (i : Nat) : (spec, i) ∈ definedBehaviors p ↔
      p.behaviors.find? (fun other => other.name = spec.name) = some spec ∧
        lastIndexOf? spec.actionName ((resolveSequences (definedActions p)).value.map (·.name)) = some i := by
    rw [definedBehaviors, mem_compileFirst, resolveAction_value]
  simp only [resolved, exists_and_left, ← Option.isSome_iff_exists, lastIndexOf?_isSome, ← survives_iff]
  exact ⟨fun kept => ⟨kept.first, kept.action⟩, fun kept => ⟨kept.1, kept.2⟩⟩

private theorem keeps_none_iff : definedBehaviors p = [] ↔ ∀ spec, ¬ p.Keeps spec := by
  simp only [keeps_iff, not_exists]
  exact ⟨fun empty spec i member => by simp [empty] at member,
    fun absent => List.eq_nil_iff_forall_not_mem.mpr fun entry => absent entry.1 entry.2⟩

private theorem keeps_name_iff (name : String) :
    name ∈ (definedBehaviors p).map (·.1.name) ↔ ∃ spec, p.Keeps spec ∧ spec.name = name := by
  simp only [keeps_iff, List.mem_map, Prod.exists]
  exact exists_congr fun spec => ⟨fun ⟨i, member, named⟩ => ⟨⟨i, member⟩, named⟩,
    fun ⟨⟨i, member⟩, named⟩ => ⟨i, member, named⟩⟩

end Survival

/-- The three verdicts on a pack. -/
theorem compile_verdict (p : PackSpec) :
    (definedBehaviors p = [] ∧ p.compile = .error (.noBehaviors p.name)) ∨
    (definedBehaviors p ≠ [] ∧ p.defaultBehavior ∉ (definedBehaviors p).map (·.1.name) ∧
      p.compile = .error (.missingDefaultBehavior p.name p.defaultBehavior)) ∨
    (p.defaultBehavior ∈ (definedBehaviors p).map (·.1.name) ∧ ∃ c issues, p.compile = .ok (c, issues)) := by
  rw [PackSpec.compile]
  dsimp only
  split
  next empty => exact Or.inl ⟨List.isEmpty_iff.mp empty, rfl⟩
  next kept =>
    refine Or.inr ?_
    split
    next unknown =>
      refine Or.inl ⟨fun empty => kept (List.isEmpty_iff.mpr empty), ?_, rfl⟩
      rw [← lastIndexOf?_isSome, Option.isSome_iff_ne_none, not_not]
      exact unknown
    next i known =>
      refine Or.inr ⟨?_, _, _, rfl⟩
      rw [← lastIndexOf?_isSome, Option.isSome_iff_exists]
      exact ⟨i, known⟩

end Pack

/-- A pack is refused if no behavior of it is kept, or if none that is kept is the default behavior. Any other pack is
compiled, whatever else is wrong with it. A refused pack does not touch the catalogs that are loaded. -/
theorem packs_rejected_exactly (p : PackSpec) :
    (∀ name, p.Survives name ↔ name ∈ (resolveSequences (definedActions p)).value.map (·.name)) ∧
      (p.compile = .error (.noBehaviors p.name) ↔ ∀ spec, ¬ p.Keeps spec) ∧
      (p.compile = .error (.missingDefaultBehavior p.name p.defaultBehavior) ↔
        (∃ spec, p.Keeps spec) ∧ ¬ ∃ spec, p.Keeps spec ∧ spec.name = p.defaultBehavior) ∧
      ((∃ c issues, p.compile = .ok (c, issues)) ↔ ∃ spec, p.Keeps spec ∧ spec.name = p.defaultBehavior) ∧
      ∀ (m : Manager) (pack : String) (error : PackError), p.compile = .error error →
        m.loadPack pack p = ⟨.error (.rejected error), m⟩ := by
  refine ⟨survives_iff, ?_⟩
  have some_kept : (∃ spec, p.Keeps spec) ↔ definedBehaviors p ≠ [] := by
    rw [ne_eq, keeps_none_iff, not_forall_not]
  rw [← keeps_none_iff, some_kept, ← keeps_name_iff]
  have loading (m : Manager) (pack : String) (error : PackError) (refused : p.compile = .error error) :
      m.loadPack pack p = ⟨.error (.rejected error), m⟩ := by
    rw [Manager.loadPack, refused]
  rcases compile_verdict p with ⟨empty, verdict⟩ | ⟨kept, missing, verdict⟩ | ⟨present, c, issues, verdict⟩
  · simp [empty, verdict, loading]
  · simp [kept, missing, verdict, loading]
  · have kept : definedBehaviors p ≠ [] := fun empty => by simp [empty] at present
    simp [kept, present, verdict]

/-- The default behavior is that of an action whose first definition is of no known kind; a later one is usable. -/
def shadowedPack : PackSpec :=
  { name := "shadowed"
    defaultBehavior := "tour"
    actions :=
      [{ name := "tour", kind := "Journey", animations := [{ frames := [{}] }] },
       { name := "tour", kind := "Move", animations := [{ frames := [{}] }] },
       { name := "stand", kind := "Stay", animations := [{ frames := [{}] }] }]
    behaviors := [{ name := "tour" }, { name := "stand" }] }

theorem packs_rejected_exactly_shadowed :
    let m := ((Manager.new {} 7).loadPack "p" tangledPack).manager
    (m.catalog? "p").isSome = true ∧
      shadowedPack.compile = .error (.missingDefaultBehavior "shadowed" "tour") ∧
      (∃ spec, shadowedPack.Keeps spec) ∧ (¬ ∃ spec, shadowedPack.Keeps spec ∧ spec.name = "tour") ∧
      m.loadPack "p" shadowedPack = ⟨.error (.rejected (.missingDefaultBehavior "shadowed" "tour")), m⟩ := by
  have refused : shadowedPack.compile = .error (.missingDefaultBehavior "shadowed" "tour") := rfl
  obtain ⟨_, _, missing, _, loading⟩ := packs_rejected_exactly shadowedPack
  obtain ⟨kept, absent⟩ := missing.mp refused
  exact ⟨by decide +kernel, refused, kept, absent, loading _ "p" _ refused⟩

end DesktopPet

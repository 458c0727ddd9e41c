import DesktopPet.Pack.Compile
import Mathlib.Logic.Relation

/-!
# Well-formed catalogs

What a catalog promises to those who play and select from it: distinct names, indices that point into
their tables, sequences that end, and blocks that have something to show.
-/

namespace DesktopPet

open Pack (maxFrequency minFrameDuration needsFrames)

/-! ## Names -/

theorem getElem?_of_lastIndexOf? {name : String} {names : List String} {i : Nat}
    (found : lastIndexOf? name names = some i) : names[i]? = some name := by
  rw [lastIndexOf?] at found
  obtain ⟨k, seen, rfl⟩ := Option.map_eq_some_iff.mp found
  obtain ⟨bound, same, _⟩ := List.findIdx?_eq_some_iff_getElem.mp seen
  have reversed : names.reverse[k]? = some name := by
    rw [List.getElem?_eq_getElem bound]
    simpa using same
  rwa [List.getElem?_reverse (by simpa using bound)] at reversed

theorem lt_of_lastIndexOf? {name : String} {names : List String} {i : Nat}
    (found : lastIndexOf? name names = some i) : i < names.length :=
  (List.getElem?_eq_some_iff.mp (getElem?_of_lastIndexOf? found)).1

/-- Where names are distinct, a name is found at the only place at which it stands. -/
theorem lastIndexOf?_of_nodup {name : String} {names : List String} {i : Nat} (distinct : names.Nodup)
    (there : names[i]? = some name) : lastIndexOf? name names = some i := by
  cases found : lastIndexOf? name names with
  | none =>
    rw [lastIndexOf?, Option.map_eq_none_iff, List.findIdx?_eq_none_iff] at found
    have member : name ∈ names.reverse := List.mem_reverse.mpr (List.mem_of_getElem? there)
    simpa using found name member
  | some k =>
    have again := getElem?_of_lastIndexOf? found
    have bound : i < names.length := (List.getElem?_eq_some_iff.mp there).1
    have same : i = k := (List.getElem?_inj bound distinct).mp (there.trans again.symm)
    rw [same]

/-! ## Actions -/

/-- Sequences and calls of the host are the two kinds without frames of their own. -/
theorem needsFrames_iff (kind : ActionKind) : needsFrames kind = true ↔ kind ≠ .sequence ∧ kind ≠ .embedded := by
  cases kind <;> simp [needsFrames]

/-- All blocks of an action, the default block last. -/
def Action.allBlocks (a : Action) : List Block :=
  a.blocks ++ a.defaultBlock.toList

/-- The blocks of an action are those that references name. -/
theorem mem_allBlocks_iff (a : Action) (block : Block) :
    block ∈ a.allBlocks ↔ ∃ choice, a.block? choice = some block := by
  rw [Action.allBlocks, List.mem_append, Option.mem_toList]
  constructor
  · rintro (listed | standing)
    · obtain ⟨index, bound, same⟩ := List.mem_iff_getElem.mp listed
      exact ⟨.block index, by simp [Action.block?, bound, same]⟩
    · exact ⟨.default, standing⟩
  · rintro ⟨choice, named⟩
    cases choice with
    | block index => exact Or.inl (List.mem_of_getElem? named)
    | default => exact Or.inr named

/-! ## Catalogs -/

/-- Every block of every action has a frame. -/
def Catalog.FramesPresent (c : Catalog) : Prop :=
  ∀ a ∈ c.actions, ∀ block ∈ a.allBlocks, block.frames ≠ []

instance (c : Catalog) : Decidable c.FramesPresent :=
  inferInstanceAs (Decidable (∀ a ∈ c.actions, ∀ block ∈ a.allBlocks, block.frames ≠ []))

/-- The action at one index has the action at another as a child. -/
def Catalog.Refers (c : Catalog) (i j : Nat) : Prop :=
  ∃ a, c.action? i = some a ∧ j ∈ a.references

/-- The frames of an action: what needs frames has a block, no block is empty, and every frame lasts. -/
structure Action.Playable (a : Action) : Prop where
  blocks : needsFrames a.kind = true → a.allBlocks ≠ []
  frames : ∀ block ∈ a.allBlocks, block.frames ≠ []
  durations : ∀ block ∈ a.allBlocks, ∀ frame ∈ block.frames,
    frame.duration.isFinite = true ∧ minFrameDuration ≤ frame.duration
  cap : ∀ seconds, a.duration = some seconds → seconds.isFinite = true ∧ 0.0 < seconds

/-- All that a catalog promises. -/
structure Catalog.WellFormed (c : Catalog) : Prop where
  actionNames : (c.actions.map (·.name)).Nodup
  behaviorNames : (c.behaviors.map (·.name)).Nodup
  behaviorAction : ∀ b ∈ c.behaviors, b.action < c.actions.length
  behaviorNext : ∀ b ∈ c.behaviors, ∀ i ∈ b.next, i < c.behaviors.length
  defaultBehavior : c.defaultBehavior < c.behaviors.length
  draggedBehavior : ∀ i, c.draggedBehavior = some i → i < c.behaviors.length
  thrownBehavior : ∀ i, c.thrownBehavior = some i → i < c.behaviors.length
  references : ∀ a ∈ c.actions, ∀ i ∈ a.references, i < c.actions.length
  sequences : ∀ a ∈ c.actions, a.kind = .sequence ↔ a.references ≠ []
  acyclic : ∀ i, ¬ Relation.TransGen c.Refers i i
  playable : ∀ a ∈ c.actions, a.Playable
  frequencies : ∀ b ∈ c.behaviors, b.frequency ≤ maxFrequency
  findAction : ∀ i a, c.action? i = some a → c.findAction? a.name = some i
  findBehavior : ∀ i b, c.behavior? i = some b → c.findBehavior? b.name = some i

end DesktopPet

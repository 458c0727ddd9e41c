import DesktopPet.Manager

/-!
# Ticks in passes

The program goes over all pets with one phase after the other, and the phases of one pet are far apart. Since a
phase sees one pet and the surroundings, each pet can as well make all its phases at once: `tick?_eq_passes`. A
missing answer is the same one too, whichever phase of whichever pet it comes from.
-/

namespace DesktopPet

/-- Two passes over a list are one pass. -/
private theorem mapM_fuse {α β γ δ : Type} (first : α → Option β) (second : β → Option γ)
    (next : List γ → Option δ) (entries : List α) :
    ((entries.mapM first).bind fun middle => (middle.mapM second).bind next) =
      (entries.mapM fun a => (first a).bind second).bind next := by
  induction entries generalizing next with
  | nil => rfl
  | cons a rest ih =>
    cases one : first a with
    | none => simp [one]
    | some b =>
      cases two : second b with
      | none => cases tail : rest.mapM first <;> simp [one, two, tail]
      | some c => simpa [one, two, Option.bind_assoc] using ih fun others => next (c :: others)

/-- A pass is one with the pass before it, also where that one has left something on the side. -/
private theorem mapM_aside {α β γ π ω δ : Type} (first : α → Option β) (second : β → Option γ) (finish : γ → π)
    (aside : β → ω) (next : List π → List ω → Option δ) (entries : List α) :
    ((entries.mapM first).bind fun middle =>
        (middle.mapM second).bind fun last => next (last.map finish) (middle.map aside)) =
      (entries.mapM fun a => (first a).bind fun b => (second b).map fun c => (finish c, aside b)).bind fun pairs =>
        next (pairs.map (·.1)) (pairs.map (·.2)) := by
  induction entries generalizing next with
  | nil => rfl
  | cons a rest ih =>
    cases one : first a with
    | none => simp [one]
    | some b =>
      cases two : second b with
      | none => cases tail : rest.mapM first <;> simp [one, two, tail]
      | some c =>
        simpa [one, two, Option.bind_assoc] using ih fun others sides => next (finish c :: others) (aside b :: sides)

/-- What a pet that has played on contributes to the report of a tick. -/
def Pet.output (scene : Scene) (played : Pet × PlayEvents) : Pet.Output :=
  ⟨played.1.soundCues scene.settings played.2, played.1.hostCalls played.2⟩

namespace Manager

/-- The end of a tick that leaves the given pets and outputs. -/
def conclude (m : Manager) (pets : List Pet) (outputs : List Pet.Output) : Manager × Report :=
  ({ m with pets, channel.waiting := [] },
    { frames := pets.map fun p => (p.id, p.picture)
      sounds := outputs.flatMap (·.sounds)
      calls := outputs.flatMap (·.calls) })

/-- A tick in the passes of the program, each of which goes over all pets. -/
def tickInPasses? (m : Manager) (dt : Float32) : Option (Manager × Report) := do
  let m := { m with clock := m.clock.advance dt }.applyStaged
  let scene := m.scene
  let routed := m.pets.map (·.receiveAll m.channel.waiting)
  let handled ← routed.mapM (·.applyPointer? scene)
  let placed := handled.map (·.refreshContact scene)
  let chosen ← placed.mapM (·.selectBehavior? scene.area)
  let played := chosen.map (·.play scene)
  let moved ← played.mapM (·.1.move? scene)
  let settled := moved.map (·.refreshContact scene)
  return m.conclude (settled.map (·.draw)) (played.map (Pet.output scene))

/-- Passes one after the other and each pet's step at once make the same tick. -/
theorem tick?_eq_passes (m : Manager) (dt : Float32) : m.tick? dt = m.tickInPasses? dt := by
  simp only [tick?, tickInPasses?, Option.bind_eq_bind, Option.pure_def]
  generalize ({ m with clock := m.clock.advance dt } : Manager).applyStaged = n
  have step (p : Pet) : (p.receiveAll n.channel.waiting).step? n.scene =
      (((p.receiveAll n.channel.waiting).applyPointer? n.scene).bind fun p =>
        (p.refreshContact n.scene).selectBehavior? n.scene.area).bind fun p =>
          ((p.play n.scene).1.move? n.scene).map fun q =>
            ((q.refreshContact n.scene).draw, Pet.output n.scene (p.play n.scene)) := by
    simp only [Pet.step?, Option.bind_eq_bind, Option.pure_def, Option.bind_assoc, Option.map_eq_bind]
    rfl
  simp only [List.mapM_map, mapM_fuse, Function.comp_def, step]
  simpa [conclude, List.flatMap_map, Function.comp_def] using
    (mapM_aside _ _ (fun q : Pet => (q.refreshContact n.scene).draw)
      (fun p : Pet => Pet.output n.scene (p.play n.scene))
      (fun pets outputs => some (n.conclude pets outputs)) _).symm

end Manager

end DesktopPet

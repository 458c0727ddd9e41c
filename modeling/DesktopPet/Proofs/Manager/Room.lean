import DesktopPet.Proofs.Area.Lines
import DesktopPet.Proofs.Manager.Independence
import DesktopPet.Proofs.Manager.Reachable
import DesktopPet.Proofs.Pet.Reasons

/-!
# Calls with room

A call has no answer only where the bounds leave no interval to clamp a pet to, or where weights overflow in a
choice. So with lines that leave room a tick fails exactly if it overloads a pet (`tick?_eq_none_iff`), and with
light catalogs every call has an answer, whatever the pets are doing (`Light.perform_answers`).
-/

namespace DesktopPet

private theorem bind_isSome {α β : Type} {first : Option α} {next : α → Option β} (answered : first.isSome = true)
    (continued : ∀ a, (next a).isSome = true) : (first.bind next).isSome = true := by
  obtain ⟨a, rfl⟩ := Option.isSome_iff_exists.mp answered
  exact continued a

/-! ## One pet -/

namespace Pet

/-- Once the pointer events are handled, selection is overloaded. -/
def Overloads (p : Pet) (scene : Scene) : Prop :=
  ∃ handled, p.applyPointer? scene = some handled ∧ (handled.refreshContact scene).Overloaded scene.area

private theorem not_overloads {p : Pet} (light : p.catalog.Light) (scene : Scene) : ¬ p.Overloads scene := by
  rintro ⟨handled, pointed, overloaded⟩
  obtain ⟨_, _, _, _, _, rfl⟩ := applyEvents_effect _ handled scene p.events pointed
  exact not_overloaded (by exact light) scene.area overloaded

variable {scene : Scene} (room : scene.area.bounds.HasRoom)

include room

theorem pointerUp_isSome (p : Pet) (position : Vector2) (time : Float) :
    (p.pointerUp? scene position time).isSome = true := by
  unfold pointerUp?
  split
  · dsimp only
    split
    · rfl
    · exact bind_isSome (room _ _) fun _ => rfl
  · rfl

theorem applyEvents_isSome (events : List PointerEvent) (p : Pet) :
    (events.foldlM (fun (p : Pet) event => p.applyEvent? scene event) p).isSome = true := by
  induction events generalizing p with
  | nil => rfl
  | cons event rest ih =>
    rw [List.foldlM_cons]
    refine bind_isSome ?_ ih
    cases event with
    | down position time => rfl
    | move position time => rfl
    | up position time => exact pointerUp_isSome room p position time

theorem flight_isSome (f : Flight) (settings : ThrowSettings) (gravity dt : Float32) :
    (f.step? scene.area.bounds settings gravity dt).isSome = true :=
  bind_isSome (room _ _) fun _ => rfl

theorem move_isSome (p : Pet) : (p.move? scene).isSome = true := by
  unfold move?
  split
  · exact bind_isSome (room _ _) fun _ => rfl
  · rfl
  · refine bind_isSome (flight_isSome room _ _ _ _) fun flown => ?_
    dsimp only
    split <;> rfl

/-- A step has no answer exactly if it overloads the pet. -/
theorem step?_eq_none_iff (p : Pet) : p.step? scene = none ↔ p.Overloads scene := by
  obtain ⟨handled, pointed⟩ := Option.isSome_iff_exists.mp (applyEvents_isSome room p.events { p with events := [] })
  have parts : p.step? scene = ((handled.refreshContact scene).selectBehavior? scene.area).bind fun chosen =>
      ((chosen.play scene).1.move? scene).map fun moved => ((moved.refreshContact scene).draw,
        ⟨(chosen.play scene).1.soundCues scene.settings (chosen.play scene).2,
          (chosen.play scene).1.hostCalls (chosen.play scene).2⟩) := by
    rw [step?, applyPointer?, pointed, Option.bind_eq_bind, Option.bind_some]
    congr 1
    funext chosen
    exact Option.map_eq_bind.symm
  have rest : p.step? scene = none ↔ (handled.refreshContact scene).selectBehavior? scene.area = none := by
    refine ⟨fun missing => ?_, fun missing => by rw [parts, missing, Option.bind_none]⟩
    rw [parts, Option.bind_eq_none_iff] at missing
    cases selected : (handled.refreshContact scene).selectBehavior? scene.area with
    | none => rfl
    | some chosen =>
      have moves := move_isSome room (chosen.play scene).1
      rw [Option.map_eq_none_iff.mp (missing chosen selected)] at moves
      cases moves
  rw [rest, selectBehavior?_eq_none_iff_overloaded]
  constructor
  · exact fun overloaded => ⟨handled, pointed, overloaded⟩
  · rintro ⟨other, same, overloaded⟩
    cases Option.some.inj (pointed.symm.trans same)
    exact overloaded

end Pet

/-! ## All calls -/

/-- A pack that the call loads has too few behaviors to overload pets. -/
def Call.LoadsFew (call : Call) : Prop :=
  ∀ pack spec, call = .loadPack pack spec → spec.behaviors.length ≤ 42949672

namespace Manager

/-- A tick has no answer exactly if it overloads a pet. -/
theorem tick?_eq_none_iff (m : Manager) (dt : Float32) (room : (m.prepare dt).area.bounds.HasRoom) :
    m.tick? dt = none ↔ ∃ p ∈ m.pets, (p.withShare m.channel.waiting).Overloads (m.prepare dt).scene := by
  have same : (m.prepare dt).scene.area.bounds.HasRoom := room
  rw [tick_eq, Option.map_eq_none_iff, ← Option.not_isSome_iff_eq_none, mapM_isSome]
  simp only [sharedPets, List.forall_mem_map, not_forall, Option.not_isSome_iff_eq_none, Pet.step?_eq_none_iff same,
    exists_prop]

private theorem registerAt_answers (m : Manager) (pack : String) (position : Vector2) (room : m.area.bounds.HasRoom) :
    (m.registerAt? pack position).isSome = true := by
  unfold registerAt?
  split
  · rfl
  · exact bind_isSome (room _ _) fun _ => rfl

/-! ## Light catalogs -/

/-- All catalogs are light, those of the packs and those of the pets. -/
structure Light (m : Manager) : Prop where
  packs : ∀ entry ∈ m.packs, entry.2.Light
  pets : ∀ p ∈ m.pets, p.catalog.Light

theorem new_light (settings : Settings) (seed : UInt64) : (new settings seed).Light :=
  ⟨fun _ member => absurd member List.not_mem_nil, fun _ member => absurd member List.not_mem_nil⟩

theorem Light.perform {m after : Manager} {call : Call} (light : m.Light) (few : call.LoadsFew)
    (performed : m.perform? call = some after) : after.Light := by
  cases perform_effect m after call performed with
  | loaded pack spec catalog issues compiled =>
    refine ⟨fun entry member => ?_, light.pets⟩
    rcases List.mem_cons.mp member with rfl | kept
    · exact compiled_light compiled (Nat.le_trans (Pack.compiled_behaviors_le compiled) (few pack spec rfl))
    · exact light.packs entry (List.mem_of_mem_filter kept)
  | registered _ random pack catalog position size contact seed registers loaded =>
    refine ⟨light.packs, fun p member => ?_⟩
    rcases List.mem_append.mp member with old | new
    · exact light.pets p old
    · obtain ⟨name, listed⟩ := catalog_mem m pack catalog loaded
      cases List.mem_singleton.mp new
      exact light.packs (name, catalog) listed
  | unregistered id => exact ⟨light.packs, fun p member => light.pets p (List.mem_of_mem_filter member)⟩
  | ticked dt after report ticked =>
    refine ⟨(tick_frame m after dt report ticked).1 ▸ light.packs, fun q member => ?_⟩
    obtain ⟨p, old, output, stepped⟩ := tick_mem m after dt report ticked q member
    have same : q.catalog = p.catalog := (Pet.step_effect _ q _ output stepped).2.1
    rw [same]
    exact light.pets p old
  | _ => exact ⟨light.packs, light.pets⟩

/-- A call has an answer if the lines leave room; for a tick it is the lines of that tick that count. -/
theorem Light.perform_answers {m : Manager} (light : m.Light) (call : Call) (room : m.area.bounds.HasRoom)
    (later : ∀ dt, (m.prepare dt).area.bounds.HasRoom) : (m.perform? call).isSome = true := by
  cases call with
  | register pack =>
    rw [perform?, Option.isSome_map]
    exact registerAt_answers _ pack _ room
  | registerAt pack position =>
    rw [perform?, Option.isSome_map]
    exact registerAt_answers m pack position room
  | tick dt =>
    rw [perform?, Option.isSome_map, Option.isSome_iff_ne_none, ne_eq, tick?_eq_none_iff m dt (later dt)]
    rintro ⟨p, member, overloads⟩
    exact Pet.not_overloads (by exact light.pets p member) _ overloads
  | _ => rfl

end Manager

end DesktopPet

import DesktopPet.Pet
import DesktopPet.Proofs.Condition.Congruence
import DesktopPet.Proofs.Motion.Congruence

/-!
# Pets along a congruence

Two pets that differ at most in which of the same numbers they hold make the same step in scenes that differ at most
so, whatever the settings for sounds: the steps end in the same pets, with the same calls of the host, and with the
same sounds if both scenes have sounds (`step?_related`). There is one lemma for each function of a step.
-/

namespace DesktopPet

open Number (Congruence)
open Condition (View Predicate)

/-! ## Relations -/

/-- Sounds under two settings are the same but for their gain, if there are sounds under both. -/
def SoundsAgree (s t : Settings) (sounds sounds' : List SoundCue) : Prop :=
  s.soundEnabled = true → t.soundEnabled = true →
    sounds.map (fun cue => (cue.pet, cue.sound)) = sounds'.map fun cue => (cue.pet, cue.sound)

section Relations

variable (R : Float32 → Float32 → Prop)

/-- The same settings as far as pets are concerned. Sounds are left out, and so are screen and margins, which count
only through the area. -/
structure Settings.Related (s t : Settings) : Prop where
  closeThreshold : R s.closeThreshold t.closeThreshold
  spawnMargin : R s.spawnMargin t.spawnMargin
  gravity : R s.gravity t.gravity
  tickRate : R s.tickRate t.tickRate
  throwing : s.throwing.Related R t.throwing
  petSize : s.petSize.Related R t.petSize

/-- The same surroundings but for sounds. -/
structure Scene.Related (s t : Scene) : Prop where
  area : t.area = s.area
  delta : t.delta = s.delta
  settings : s.settings.Related R t.settings

/-- The same drag. -/
structure Drag.Related (d e : Drag) : Prop where
  grabOffset : d.grabOffset.Related R e.grabOffset
  startPosition : d.startPosition.Related R e.startPosition
  rest : e = { d with grabOffset := e.grabOffset, startPosition := e.startPosition }

/-- The same interaction. -/
inductive Interaction.Related : Interaction → Interaction → Prop where
  | idle : Interaction.Related .idle .idle
  | dragging {d e : Drag} (drags : d.Related R e) : Interaction.Related (.dragging d) (.dragging e)
  | thrown (timer : Float32) : Interaction.Related (.thrown timer) (.thrown timer)

/-- The same picture. -/
structure Picture.Related (p q : Picture) : Prop where
  image : q.image = p.image
  anchor : p.anchor.Related R q.anchor
  flip : q.flip = p.flip
  position : p.position.Related R q.position
  size : p.size.Related R q.size

/-- The same pet: only body, interaction and picture have numbers that may differ. -/
inductive Pet.Related (p : Pet) : Pet → Prop where
  | intro {body : Body} {interaction : Interaction} {picture : Picture} (bodies : p.body.Related R body)
      (interactions : p.interaction.Related R interaction) (pictures : p.picture.Related R picture) :
      Pet.Related p { p with body, interaction, picture }

variable {R} {p q : Pet}

theorem Pet.Related.id (same : p.Related R q) : q.id = p.id := by
  cases same
  rfl

theorem Pet.Related.picture (same : p.Related R q) : p.picture.Related R q.picture := by
  cases same
  assumption

end Relations

section Steps

variable {R : Float32 → Float32 → Prop} {R64 : Float → Float → Prop} (cong : Congruence R R64)

include cong

/-! ## Choosing behaviors -/

namespace Catalog

variable (c : Catalog) {v w : View} (views : v.Related R w)

include views

theorem isCandidate_related (index : Nat) : c.isCandidate v index = c.isCandidate w index := by
  have contact : w.contact = v.contact := by rw [views.rest]
  have holds (condition : Predicate) := Condition.holds_related cong views condition
  unfold isCandidate
  rw [contact]
  simp only [holds]

theorem candidates_related (indices : List Nat) : c.candidates v indices = c.candidates w indices := by
  induction indices with
  | nil => rfl
  | cons index rest ih => rw [candidates, candidates, isCandidate_related cong c views, ih]

theorem selectNext?_related (r : Random) : c.selectNext? v r = c.selectNext? w r := by
  unfold selectNext?
  rw [candidates_related cong c views]

theorem selectChained_related (source : Nat) : c.selectChained v source = c.selectChained w source := by
  unfold selectChained
  simp only [candidates_related cong c views]

end Catalog

/-! ## The pointer -/

omit cong in
theorem Interaction.Related.mode {i j : Interaction} (same : i.Related R j) : i.mode = j.mode := by
  cases same <;> rfl

omit cong in
theorem Interaction.Related.isIdle {i j : Interaction} (same : i.Related R j) : j.isIdle = i.isIdle := by
  cases same <;> rfl

omit cong in
theorem Interaction.moveTo_related {i j next next' : Interaction} (same : i.Related R j)
    (targets : next.Related R next') : (i.moveTo next).Related R (j.moveTo next') := by
  unfold Interaction.moveTo
  rw [same.mode, targets.mode]
  split
  · exact targets
  · exact same

namespace Pet

variable {p q : Pet} (same : p.Related R q) {s t : Scene} (scenes : s.Related R t)

include same

omit cong in
theorem lockBehavior_related (behavior : Option Nat) :
    (p.lockBehavior behavior).Related R (q.lockBehavior behavior) := by
  obtain ⟨bodies, interactions, pictures⟩ := same
  cases behavior with
  | none => exact .intro bodies interactions pictures
  | some index =>
    unfold lockBehavior
    dsimp only
    cases p.catalog.behavior? index with
    | none => exact .intro bodies interactions pictures
    | some found => exact .intro bodies interactions pictures

theorem pointerDown_related (position : Vector2) (time : Float) :
    (p.pointerDown position time).Related R (q.pointerDown position time) := by
  cases same with
  | @intro body interaction picture bodies interactions pictures =>
    have drags : Drag.Related R
        ⟨position - p.body.position, position, p.body.position, time⟩
        ⟨position - body.position, position, body.position, time⟩ :=
      ⟨(Vector2.Related.refl cong position).sub cong bodies.position, bodies.position, rfl⟩
    have grabbed := Interaction.moveTo_related interactions (.dragging drags)
    have still := bodies.speed (.refl cong .zero)
    unfold pointerDown
    dsimp only
    rw [interactions.isIdle]
    change Related R _ (if p.interaction.isIdle && p.isDraggable then _ else _)
    split
    · refine lockBehavior_related ?_ _
      exact .intro (p := { p with interaction := p.interaction.moveTo _, body.velocity := .zero }) still grabbed
        pictures
    · exact .intro bodies interactions pictures

theorem pointerMove_related (position : Vector2) : (p.pointerMove position).Related R (q.pointerMove position) := by
  cases same with
  | intro bodies interactions pictures =>
    have kept := interactions
    unfold pointerMove
    dsimp only
    generalize p.interaction = held at interactions ⊢
    cases interactions with
    | idle => exact .intro bodies kept pictures
    | thrown timer => exact .intro bodies kept pictures
    | @dragging drag drag' drags =>
      have carried : Interaction.Related R (.dragging { drag with pointer := position })
          (.dragging { drag' with pointer := position }) := by
        refine .dragging ⟨drags.grabOffset, drags.startPosition, ?_⟩
        rw [drags.rest]
      have moved := bodies.place ((Vector2.Related.refl cong position).sub cong drags.grabOffset)
      exact .intro (p := { p with interaction := .dragging _, body.position := position - drag.grabOffset }) moved
        carried pictures

include scenes

theorem drop?_related : Option.Rel (Related R) (p.drop? s.area.bounds) (q.drop? t.area.bounds) := by
  cases same with
  | @intro body interaction picture bodies interactions pictures =>
    rw [scenes.area]
    have inside := Bounds.clampRect?_related cong bodies.position bodies.size s.area.bounds
    refine rel_bind inside fun place place' places => ?_
    have dropped := (bodies.place places).speed (.refl cong .zero)
    exact .some (.intro
      (p := { p with
        interaction := p.interaction.moveTo .idle
        body := { p.body with position := place, velocity := .zero }
        behavior := p.behavior.request .interaction })
      dropped (Interaction.moveTo_related interactions .idle) pictures)

omit scenes in
theorem throw_related {velocity velocity' : Vector2} (velocities : velocity.Related R velocity') :
    (p.throw velocity).Related R (q.throw velocity') := by
  cases same with
  | @intro body interaction picture bodies interactions pictures =>
    unfold throw
    dsimp only
    rw [Facing.ofMotion?_related cong velocities.x]
    refine lockBehavior_related ?_ _
    exact .intro
      (p := { p with
        interaction := p.interaction.moveTo (.thrown 0.0)
        body := { p.body with velocity }
        facing := (Facing.ofMotion? velocity'.x).getD p.facing })
      (bodies.speed velocities) (Interaction.moveTo_related interactions (.thrown 0.0)) pictures

theorem pointerUp?_related (position : Vector2) (time : Float) :
    Option.Rel (Related R) (p.pointerUp? s position time) (q.pointerUp? t position time) := by
  cases same with
  | @intro body interaction picture bodies interactions pictures =>
    have kept := interactions
    unfold pointerUp?
    dsimp only
    generalize p.interaction = held at interactions ⊢
    cases interactions with
    | idle => exact .some (.intro bodies kept pictures)
    | thrown timer => exact .some (.intro bodies kept pictures)
    | @dragging drag drag' drags =>
      have start : drag'.startTime = drag.startTime := by rw [drags.rest]
      have place := (Vector2.Related.refl cong position).sub cong drags.grabOffset
      have carried := Related.intro
        (p := { p with interaction := .dragging drag, body.position := position - drag.grabOffset })
        (bodies.place place) (.dragging drags) pictures
      obtain ⟨speed, velocity⟩ := Release.ofDrag_related cong (place.sub cong drags.startPosition)
        (time - drag.startTime) scenes.settings.throwing
      dsimp only
      rw [start, ← speed]
      simp only [cong.lt scenes.settings.throwing.minThrowVelocity (cong.refl _)]
      split
      · exact .some (throw_related cong carried velocity)
      · exact drop?_related cong carried scenes

theorem applyEvent?_related (event : PointerEvent) :
    Option.Rel (Related R) (p.applyEvent? s event) (q.applyEvent? t event) := by
  cases event with
  | down position time => exact .some (pointerDown_related cong same position time)
  | move position time => exact .some (pointerMove_related cong same position)
  | up position time => exact pointerUp?_related cong same scenes position time

theorem applyPointer?_related : Option.Rel (Related R) (p.applyPointer? s) (q.applyPointer? t) := by
  have queue (events : List PointerEvent) : ∀ {p q : Pet}, p.Related R q →
      Option.Rel (Related R) (events.foldlM (fun (p : Pet) event => p.applyEvent? s event) p)
        (events.foldlM (fun (p : Pet) event => p.applyEvent? t event) q) := by
    induction events with
    | nil => exact fun same => .some same
    | cons event rest ih =>
      intro p q same
      rw [List.foldlM_cons, List.foldlM_cons]
      exact rel_bind (applyEvent?_related cong same scenes event) fun _ _ next => ih next
  cases same with
  | intro bodies interactions pictures =>
    exact queue p.events (.intro (p := { p with events := [] }) bodies interactions pictures)

/-! ## Selection and playback -/

theorem refreshContact_related : (p.refreshContact s).Related R (q.refreshContact t) := by
  cases same with
  | intro bodies interactions pictures =>
    unfold refreshContact
    dsimp only
    rw [scenes.area, ← Contact.ofRect_related cong bodies.position bodies.size s.area scenes.settings.closeThreshold]
    exact .intro (p := { p with contact := _ }) bodies interactions pictures

omit scenes

omit cong in
theorem view_related (area : Area) : (p.view area).Related R (q.view area) := by
  cases same with
  | @intro body interaction picture bodies interactions pictures =>
    refine ⟨bodies.position, bodies.velocity, bodies.size, ?_⟩
    unfold view Interaction.isDragging Interaction.isThrown
    rw [interactions.mode]

theorem choose?_related (area : Area) (reason : Reselect) : p.choose? area reason = q.choose? area reason := by
  have views := view_related same area
  have chained (c : Catalog) (source : Nat) := c.selectChained_related cong views source
  have next (c : Catalog) := c.selectNext?_related cong views
  unfold choose?
  dsimp only
  simp only [chained, next]
  cases same with
  | intro bodies interactions pictures => rfl

omit cong in
theorem startBehavior_related (index : Nat) : (p.startBehavior index).Related R (q.startBehavior index) := by
  cases same with
  | intro bodies interactions pictures =>
    exact .intro (p := p.startBehavior index) bodies interactions pictures

theorem selectBehavior?_related (area : Area) :
    Option.Rel (Pet.Related R) (p.selectBehavior? area) (q.selectBehavior? area) := by
  have chosen (reason : Reselect) := choose?_related cong same area reason
  cases same with
  | @intro body interaction picture bodies interactions pictures =>
    have settled := Related.intro (p := { p with behavior.trigger := none }) bodies interactions pictures
    unfold selectBehavior?
    dsimp only
    rw [interactions.isIdle]
    split
    · exact .some settled
    · cases p.behavior.trigger with
      | some name => exact .some (startBehavior_related settled _)
      | none =>
        have wanted : ({ p with body, interaction, picture } : Pet).wants? = p.wants? := rfl
        rw [wanted]
        cases p.wants? with
        | none => exact .some settled
        | some reason =>
          dsimp only
          rw [← chosen reason]
          cases p.choose? area reason with
          | none => exact .none
          | some choice =>
            have drawn := Related.intro (p := { p with behavior.trigger := none, random := choice.2 }) bodies
              interactions pictures
            simp only [bind, Option.bind_some]
            split
            · exact .some (.intro (p := { p with behavior := { p.behavior with trigger := none, reselect := none }
                                                 random := choice.2 }) bodies interactions pictures)
            · exact .some (startBehavior_related drawn choice.1)

theorem play_related (scenes : s.Related R t) :
    (p.play s).1.Related R (q.play t).1 ∧ (p.play s).2 = (q.play t).2 := by
  have views := view_related same s.area
  have asked : (fun predicate : Predicate => predicate.holds (p.view s.area)) =
      fun predicate => predicate.holds (q.view t.area) := by
    rw [scenes.area]
    exact funext (Condition.holds_related cong views)
  cases same with
  | @intro body interaction picture bodies interactions pictures =>
    unfold play
    dsimp only
    rw [interactions.isIdle, ← asked, scenes.delta]
    refine ⟨?_, rfl⟩
    exact .intro (p := { p with player := _, random := _, behavior := _ }) bodies interactions pictures

omit cong in
theorem soundCues_related (s t : Settings) (events : PlayEvents) :
    SoundsAgree s t (p.soundCues s events) (q.soundCues t events) := by
  intro audible audible'
  cases same with
  | intro bodies interactions pictures =>
    simp only [soundCues, audible, audible', ↓reduceIte, List.map_map]
    rfl

omit cong in
theorem hostCalls_related (events : PlayEvents) : p.hostCalls events = q.hostCalls events := by
  cases same with
  | intro bodies interactions pictures => rfl

/-! ## Motion and drawing -/

omit same in
theorem turn_related (facing : Facing) {delta delta' target target' reached reached' : Vector2}
    (deltas : delta.Related R delta') (targets : target.Related R target') (places : reached.Related R reached') :
    turn facing delta target reached = turn facing delta' target' reached' := by
  simp only [turn, cong.lt deltas.x (cong.refl 0.0), cong.lt (cong.refl 0.0) deltas.x, cong.lt targets.x places.x,
    cong.lt places.x targets.x]

include scenes

theorem walk?_related : Option.Rel (Related R) (p.walk? s) (q.walk? t) := by
  cases same with
  | @intro body interaction picture bodies interactions pictures =>
    have delta := walk_related cong (p.player.frameVelocity p.catalog) p.facing s.delta scenes.settings.tickRate
    have target := bodies.position.add cong delta
    unfold walk?
    dsimp only
    rw [scenes.area, scenes.delta]
    refine rel_bind (Bounds.clampRect?_related cong target bodies.size s.area.bounds) fun place place' places => ?_
    have velocity : Vector2.Related R
        (if 0.0 < s.delta then (place - p.body.position).divide s.delta else .zero)
        (if 0.0 < s.delta then (place' - body.position).divide s.delta else .zero) := by
      split
      · exact (places.sub cong bodies.position).divide cong s.delta
      · exact .refl cong .zero
    rw [turn_related cong p.facing delta target places]
    exact .some (.intro (p := { p with facing := _, body := { p.body with position := place, velocity := _ } })
      ((bodies.place places).speed velocity) interactions pictures)

theorem fly?_related (timer : Float32) : Option.Rel (Related R) (p.fly? s timer) (q.fly? t timer) := by
  cases same with
  | @intro body interaction picture bodies interactions pictures =>
    have flights : Flight.Related R ⟨p.body, timer⟩ ⟨body, timer⟩ := ⟨bodies, rfl⟩
    unfold fly?
    dsimp only
    rw [scenes.area, scenes.delta]
    refine rel_bind (Flight.step?_related cong flights s.area.bounds scenes.settings.throwing scenes.settings.gravity
      s.delta) fun x y related => ?_
    obtain ⟨outcome, flight⟩ := x
    obtain ⟨outcome', flight'⟩ := y
    obtain ⟨outcomes, flown⟩ := related
    dsimp only at outcomes flown ⊢
    subst outcomes
    rw [Facing.ofMotion?_related cong flown.body.velocity.x, flown.timer]
    split
    · exact .some (.intro (p := { p with body := flight.body, facing := _, interaction := .thrown flight.timer })
        flown.body (.thrown flight.timer) pictures)
    · exact .some (.intro
        (p := { p with
          body := { flight.body with velocity := .zero }
          facing := _
          interaction := p.interaction.moveTo .idle
          behavior := p.behavior.request .interaction })
        (flown.body.speed (.refl cong .zero)) (Interaction.moveTo_related interactions .idle) pictures)

theorem move?_related : Option.Rel (Related R) (p.move? s) (q.move? t) := by
  have walked := walk?_related cong same scenes
  have flown := fly?_related cong same scenes
  cases same with
  | @intro body interaction picture bodies interactions pictures =>
    have kept := interactions
    unfold move?
    dsimp only
    generalize p.interaction = held at interactions ⊢
    cases interactions with
    | idle => exact walked
    | thrown timer => exact flown timer
    | dragging drags => exact .some (.intro bodies kept pictures)

omit same scenes in
theorem agrees_related {a a' b b' : Picture} (left : a.Related R a') (right : b.Related R b') :
    a.agrees b = a'.agrees b' := by
  unfold Picture.agrees
  rw [left.image, left.flip, right.image, right.flip, left.anchor.agrees cong right.anchor,
    left.position.agrees cong right.position, left.size.agrees cong right.size]

omit scenes in
theorem draw_related : p.draw.Related R q.draw := by
  cases same with
  | @intro body interaction picture bodies interactions pictures =>
    unfold draw
    dsimp only
    generalize p.player.currentFrame? p.catalog = shown
    have anchor : Vector2.Related R
        ((shown.map fun frame => p.facing.orientAnchor frame.anchor p.body.size.x).getD p.picture.anchor)
        ((shown.map fun frame => p.facing.orientAnchor frame.anchor body.size.x).getD picture.anchor) := by
      cases shown with
      | none => exact pictures.anchor
      | some frame => exact Facing.orientAnchor_related cong p.facing frame.anchor bodies.size.x
    have next : Picture.Related R
        ⟨(shown.bind (·.image)).or p.picture.image,
          (shown.map fun frame => p.facing.orientAnchor frame.anchor p.body.size.x).getD p.picture.anchor,
          p.facing = .right, p.body.position, p.body.size⟩
        ⟨(shown.bind (·.image)).or picture.image,
          (shown.map fun frame => p.facing.orientAnchor frame.anchor body.size.x).getD picture.anchor,
          p.facing = .right, body.position, body.size⟩ :=
      ⟨by rw [pictures.image], anchor, rfl, bodies.position, bodies.size⟩
    rw [agrees_related cong next pictures]
    split
    · exact .intro bodies interactions pictures
    · exact .intro (p := { p with picture := _ }) bodies interactions next

/-- The same contribution to a report under two settings, up to the gain of sounds. -/
structure Output.Related (s t : Settings) (o o' : Output) : Prop where
  calls : o.calls = o'.calls
  sounds : SoundsAgree s t o.sounds o'.sounds

/-- The same pets make the same step, whatever the settings for sounds. -/
theorem step?_related :
    Option.Rel (fun x y => x.1.Related R y.1 ∧ x.2.Related s.settings t.settings y.2) (p.step? s) (q.step? t) := by
  refine rel_bind (applyPointer?_related cong same scenes) fun handled handled' pointed => ?_
  have selected : Option.Rel (Pet.Related R) ((handled.refreshContact s).selectBehavior? s.area)
      ((handled'.refreshContact t).selectBehavior? t.area) := by
    rw [scenes.area]
    exact selectBehavior?_related cong (refreshContact_related cong pointed scenes) s.area
  refine rel_bind selected fun chosen chosen' choosing => ?_
  have played := play_related cong choosing scenes
  dsimp only
  generalize chosen.play s = ran at played ⊢
  generalize chosen'.play t = ran' at played ⊢
  obtain ⟨actor, events⟩ := ran
  obtain ⟨actor', events'⟩ := ran'
  obtain ⟨actors, same⟩ := played
  dsimp only at actors same ⊢
  subst same
  refine rel_bind (move?_related cong actors scenes) fun moved moved' moving => .some ⟨?_, ?_, ?_⟩
  · exact draw_related cong (refreshContact_related cong moving scenes)
  · exact hostCalls_related actors events
  · exact soundCues_related actors s.settings t.settings events

end Pet

end Steps

end DesktopPet

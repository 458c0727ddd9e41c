import DesktopPet.Proofs.Manager.Reachable
import DesktopPet.Proofs.Pack.Compiled
import DesktopPet.Proofs.Pet.Congruence

/-!
# Settings for sounds

Two runs that differ only in the settings for sounds differ only in the sounds that are heard. `Related` relates their
managers along a congruence of arithmetic; every call keeps it (`perform?_related`), and managers so related tell the
same of their pets.

The congruence is there for zeros: settings that are staged are taken up only if they differ from the present ones, as
numbers do, so that a change of sounds may bring along the sign of a zero which would not be taken up without it.
-/

namespace DesktopPet

open Number (Congruence Same Same64)

/-- The settings without those for sounds. -/
def Settings.mute (s : Settings) : Settings :=
  { s with soundEnabled := false, soundVolume := 0.0 }

/-- The call without settings for sounds. -/
def Call.mute : Call → Call
  | .stage settings => .stage settings.mute
  | call => call

/-! ## What can be told -/

/-- The same account of a pet. -/
structure Diagnostics.Related (R : Float32 → Float32 → Prop) (d e : Diagnostics) : Prop where
  position : d.position.Related R e.position
  velocity : d.velocity.Related R e.velocity
  rest : e = { d with position := e.position, velocity := e.velocity }

/-- The same report under two settings, up to the sounds that are heard. -/
structure Report.Related (R : Float32 → Float32 → Prop) (s t : Settings) (r r' : Report) : Prop where
  frames : List.Forall₂ (fun f g => f.1 = g.1 ∧ f.2.Related R g.2) r.frames r'.frames
  calls : r.calls = r'.calls
  sounds : SoundsAgree s t r.sounds r'.sounds

/-- Two managers with the same pets and accounts of them, whose ticks have the same reports. -/
structure Manager.Alike (R : Float32 → Float32 → Prop) (m n : Manager) : Prop where
  petIds : m.petIds = n.petIds
  diagnostics : ∀ id, Results (Diagnostics.Related R) (m.diagnostics id) (n.diagnostics id)
  ticks : ∀ dt, Option.Rel (fun x y => x.2.Related R x.1.settings y.1.settings y.2) (m.tick? dt) (n.tick? dt)

/-! ## Settings -/

namespace Settings

variable {R : Float32 → Float32 → Prop} {R64 : Float → Float → Prop} (cong : Congruence R R64) {s t u : Settings}

theorem Related.of_mute (same : s.Related R t) (mute : t.mute = u.mute) : s.Related R u where
  closeThreshold := congrArg Settings.closeThreshold mute ▸ same.closeThreshold
  spawnMargin := congrArg Settings.spawnMargin mute ▸ same.spawnMargin
  gravity := congrArg Settings.gravity mute ▸ same.gravity
  tickRate := congrArg Settings.tickRate mute ▸ same.tickRate
  throwing := congrArg Settings.throwing mute ▸ same.throwing
  petSize := congrArg Settings.petSize mute ▸ same.petSize

include cong

theorem Related.refl (s : Settings) : s.Related R s where
  closeThreshold := cong.refl _
  spawnMargin := cong.refl _
  gravity := cong.refl _
  tickRate := cong.refl _
  throwing := by constructor <;> exact cong.refl _
  petSize := .refl cong _

omit cong in
/-- Settings that agree are the same up to the sign of zeros. -/
theorem Related.of_agrees (agree : s.agrees t = true) : s.Related Same t := by
  have same {x y : Float32} (equal : (x == y) = true) : Same x y := ((Number.beq_iff_same x y).mp equal).1
  simp only [agrees, keys, List.all_cons, List.all_nil, Bool.and_eq_true] at agree
  obtain ⟨⟨⟨_, _, _, _, _, _, closeThreshold, spawnMargin, gravity, tickRate, maxVelocity, minThrowVelocity,
    throwDuration, bounceEnergyLoss, gravityMultiplier, timeMultiplier, fallbackMultiplier, settleVelocity, _, petWidth,
    petHeight, _⟩, _⟩, _⟩ := agree
  exact
    { closeThreshold := same closeThreshold
      spawnMargin := same spawnMargin
      gravity := same gravity
      tickRate := same tickRate
      throwing :=
        ⟨same maxVelocity, same minThrowVelocity, same throwDuration, same bounceEnergyLoss, same gravityMultiplier,
          same timeMultiplier, same fallbackMultiplier, same settleVelocity⟩
      petSize := ⟨same petWidth, same petHeight⟩ }

theorem Related.symm (same : s.Related R t) : t.Related R s where
  closeThreshold := cong.symm same.closeThreshold
  spawnMargin := cong.symm same.spawnMargin
  gravity := cong.symm same.gravity
  tickRate := cong.symm same.tickRate
  throwing :=
    ⟨cong.symm same.throwing.maxVelocity, cong.symm same.throwing.minThrowVelocity,
      cong.symm same.throwing.throwDuration, cong.symm same.throwing.bounceEnergyLoss,
      cong.symm same.throwing.gravityMultiplier, cong.symm same.throwing.timeMultiplier,
      cong.symm same.throwing.fallbackMultiplier, cong.symm same.throwing.settleVelocity⟩
  petSize := ⟨cong.symm same.petSize.x, cong.symm same.petSize.y⟩

end Settings

/-! ## Managers -/

namespace Manager

/-- Managers that differ in nothing but settings for sounds, and in which of the same numbers they and their pets
hold. `Given` holds of the settings, without those for sounds, that the managers may ever have. -/
structure Related (R : Float32 → Float32 → Prop) (Given : Settings → Prop) (m n : Manager) : Prop where
  settings : m.settings.Related R n.settings
  given : Given m.settings.mute ∧ Given n.settings.mute
  area : n.area = m.area
  staged : n.staged.map Settings.mute = m.staged.map Settings.mute
  stagedGiven : ∀ s, m.staged = some s → Given s.mute
  clock : n.clock = m.clock
  packs : n.packs = m.packs
  nextNumber : n.nextNumber = m.nextNumber
  channel : n.channel = m.channel
  random : n.random = m.random
  pets : List.Forall₂ (Pet.Related R) m.pets n.pets

section Related

variable {R : Float32 → Float32 → Prop} {R64 : Float → Float → Prop} (cong : Congruence R R64)
variable {Given : Settings → Prop}
  (taken : ∀ s t : Settings, Given s.mute → Given t.mute → s.agrees t = true → s.Related R t)
variable {m n : Manager} (related : m.Related R Given n)

/-! ### Ticks -/

include cong taken in
/-- Staged settings are taken up or not, in one manager as in the other or only in one of them: the settings that
hold afterwards are the same. -/
theorem taken_related {s t now now' : Settings} (mute : s.mute = t.mute) (same : now.Related R now')
    (given : Given now.mute) (given' : Given now'.mute) (staged : Given s.mute) :
    (if now.agrees s then now else s).Related R (if now'.agrees t then now' else t) := by
  have staged' : Given t.mute := mute ▸ staged
  split
  next agrees =>
    split
    · exact same
    · exact (taken now s given staged agrees).of_mute mute
  · split
    next agrees => exact ((taken now' t given' staged' agrees).of_mute mute.symm).symm cong
    · exact (Settings.Related.refl cong s).of_mute mute

private theorem areaUnder_mute (area : Area) (s : Settings) : areaUnder area s.mute = areaUnder area s :=
  rfl

include cong taken related in
theorem prepare_related (dt : Float32) : (m.prepare dt).Related R Given (n.prepare dt) := by
  have clocks := congrArg (·.advance dt) related.clock
  unfold prepare applyStaged
  dsimp only
  cases stagedM : m.staged with
  | none =>
    have stagedN : n.staged = none := by
      have none := related.staged
      rwa [stagedM, Option.map_none, Option.map_eq_none_iff] at none
    rw [stagedN]
    exact { related with staged := rfl, stagedGiven := nofun, clock := clocks }
  | some s =>
    have waiting := related.staged
    rw [stagedM, Option.map_some] at waiting
    obtain ⟨t, stagedN, mute⟩ := Option.map_eq_some_iff.mp waiting
    have givenS := related.stagedGiven s stagedM
    have areas : areaUnder n.area t = areaUnder m.area s := by
      rw [related.area, ← areaUnder_mute _ t, mute, areaUnder_mute]
    have given : Given (if m.settings.agrees s then m.settings else s).mute := by
      split
      · exact related.given.1
      · exact givenS
    have given' : Given (if n.settings.agrees t then n.settings else t).mute := by
      split
      · exact related.given.2
      · rwa [mute]
    rw [stagedN]
    have settings := taken_related cong taken mute.symm related.settings related.given.1 related.given.2 givenS
    exact
      { related with
        settings, given := ⟨given, given'⟩, area := areas, staged := rfl, stagedGiven := nofun, clock := clocks }

include related in
theorem scene_related : m.scene.Related R n.scene :=
  ⟨related.area, congrArg Clock.delta related.clock, related.settings⟩

theorem withShare_related {p q : Pet} (same : p.Related R q) (commands : List Command) :
    (p.withShare commands).Related R (q.withShare commands) := by
  cases same with
  | intro bodies interactions pictures => exact .intro (p := p.withShare commands) bodies interactions pictures

include related in
theorem sharedPets_related : List.Forall₂ (Pet.Related R) m.sharedPets n.sharedPets := by
  rw [sharedPets, sharedPets, related.channel, List.forall₂_map_left_iff, List.forall₂_map_right_iff]
  exact related.pets.imp fun _ _ same => withShare_related same _

theorem mapM_related {α β γ δ : Type} {S : α → β → Prop} {T : γ → δ → Prop} {f : α → Option γ} {g : β → Option δ}
    (each : ∀ a b, S a b → Option.Rel T (f a) (g b)) {entries : List α} {entries' : List β}
    (paired : List.Forall₂ S entries entries') :
    Option.Rel (List.Forall₂ T) (entries.mapM f) (entries'.mapM g) := by
  induction paired with
  | nil => exact .some .nil
  | cons same _ ih =>
    rw [List.mapM_cons, List.mapM_cons]
    exact rel_bind (each _ _ same) fun _ _ first => rel_bind ih fun _ _ others => .some (.cons first others)

/-- What the steps of the pets come to. -/
abbrev Stepped (R : Float32 → Float32 → Prop) (s t : Settings) :=
  List.Forall₂ fun x y : Pet × Pet.Output => x.1.Related R y.1 ∧ x.2.Related s t y.2

theorem Stepped.reported {s t : Settings} {stepped stepped' : List (Pet × Pet.Output)}
    (steps : Stepped R s t stepped stepped') :
    Report.Related R s t
      { frames := (stepped.map (·.1)).map fun p => (p.id, p.picture)
        sounds := stepped.flatMap (·.2.sounds)
        calls := stepped.flatMap (·.2.calls) }
      { frames := (stepped'.map (·.1)).map fun p => (p.id, p.picture)
        sounds := stepped'.flatMap (·.2.sounds)
        calls := stepped'.flatMap (·.2.calls) } := by
  induction steps with
  | nil => exact ⟨.nil, rfl, fun _ _ => rfl⟩
  | @cons x y rest rest' same _ ih =>
    obtain ⟨p, output⟩ := x
    obtain ⟨q, output'⟩ := y
    obtain ⟨pets, outputs⟩ := same
    obtain ⟨frames, calls, sounds⟩ := ih
    dsimp only at pets outputs calls sounds
    refine ⟨.cons ⟨pets.id.symm, pets.picture⟩ frames, ?_, fun audible audible' => ?_⟩
    · simp only [List.flatMap_cons, outputs.calls, calls]
    · simp only [List.flatMap_cons, List.map_append, outputs.sounds audible audible', sounds audible audible']

include related in
theorem afterSteps_related {stepped stepped' : List (Pet × Pet.Output)}
    (steps : Stepped R m.settings n.settings stepped stepped') :
    (m.afterSteps stepped).1.Related R Given (n.afterSteps stepped').1 ∧
      (m.afterSteps stepped).2.Related R m.settings n.settings (n.afterSteps stepped').2 := by
  have pets : List.Forall₂ (Pet.Related R) (stepped.map (·.1)) (stepped'.map (·.1)) := by
    rw [List.forall₂_map_left_iff, List.forall₂_map_right_iff]
    exact steps.imp fun _ _ same => same.1
  have emptied : { n.channel with waiting := [] } = { m.channel with waiting := [] } := by rw [related.channel]
  exact ⟨{ related with channel := emptied, pets }, steps.reported⟩

include cong taken related in
/-- Related managers make related ticks. -/
theorem tick?_related (dt : Float32) :
    Option.Rel (fun x y => x.1.Related R Given y.1 ∧ x.2.Related R x.1.settings y.1.settings y.2) (m.tick? dt)
      (n.tick? dt) := by
  have prepared := prepare_related cong taken related dt
  have each {p q : Pet} (same : p.Related R q) := Pet.step?_related cong same (scene_related prepared)
  have steps : Option.Rel (Stepped R (m.prepare dt).settings (n.prepare dt).settings)
      (m.sharedPets.mapM fun p : Pet => p.step? (m.prepare dt).scene)
      (n.sharedPets.mapM fun p : Pet => p.step? (n.prepare dt).scene) :=
    mapM_related (fun (_ _ : Pet) same => each same) (sharedPets_related related)
  rw [tick_eq, tick_eq, Option.map_eq_bind, Option.map_eq_bind]
  exact rel_bind steps fun _ _ stepped => .some (afterSteps_related prepared stepped)

/-! ### Other calls -/

include related

theorem pet?_related (id : PetId) : Option.Rel (Pet.Related R) (m.pet? id) (n.pet? id) := by
  have pets := related.pets
  unfold pet?
  generalize m.pets = before at pets ⊢
  generalize n.pets = after at pets ⊢
  induction pets with
  | nil => exact .none
  | @cons p q rest rest' same _ ih =>
    rw [List.find?_cons, List.find?_cons, same.id]
    split
    · exact .some same
    · exact ih

theorem petIds_related : m.petIds = n.petIds := by
  have ids : List.Forall₂ Eq m.petIds n.petIds := by
    rw [petIds, petIds, List.forall₂_map_left_iff, List.forall₂_map_right_iff]
    exact related.pets.imp fun _ _ same => same.id.symm
  rwa [List.forall₂_eq_eq_eq] at ids

theorem diagnostics_related (id : PetId) : Results (Diagnostics.Related R) (m.diagnostics id) (n.diagnostics id) := by
  have found := pet?_related related id
  unfold diagnostics
  rw [related.area]
  generalize m.pet? id = p at found ⊢
  generalize n.pet? id = q at found ⊢
  cases found with
  | none => exact .error _
  | some same =>
    cases same with
    | intro bodies interactions pictures =>
      refine .ok ⟨bodies.position, bodies.velocity, ?_⟩
      unfold Pet.diagnose
      rw [interactions.mode]

theorem enqueue_related (command : Command) : (m.enqueue command).Related R Given (n.enqueue command) :=
  { related with channel := by rw [enqueue, enqueue, related.channel] }

theorem ask_related (id : PetId) (request : Request) :
    (m.ask id request).manager.Related R Given (n.ask id request).manager := by
  have found := pet?_related related id
  unfold ask
  generalize m.pet? id = p at found ⊢
  generalize n.pet? id = q at found ⊢
  cases found with
  | none => exact related
  | some same =>
    change ((m.post _).manager).Related R Given ((n.post _).manager)
    rw [post_enqueue, post_enqueue]
    exact enqueue_related related _

theorem unregister_related (id : PetId) : (m.unregister id).manager.Related R Given (n.unregister id).manager := by
  rw [unregister_filter, unregister_filter]
  have left : List.Forall₂ (Pet.Related R) (m.pets.filter fun p => p.id ≠ id) (n.pets.filter fun p => p.id ≠ id) :=
    List.rel_filter (fun _ _ same => by simp [same.id]) related.pets
  exact { related with pets := left }

theorem loadPack_related (pack : String) (spec : PackSpec) :
    (m.loadPack pack spec).manager.Related R Given (n.loadPack pack spec).manager := by
  unfold loadPack
  cases spec.compile with
  | error refusal => exact related
  | ok compiled => exact { related with packs := by simp only [putCatalog, related.packs] }

include cong

omit related in
theorem spawn_related (id : PetId) (catalog : Catalog) {position position' size size' : Vector2}
    (positions : position.Related R position') (sizes : size.Related R size') (contact : Contact) (seed : UInt64) :
    (Pet.spawn id catalog position size contact seed).Related R
      (Pet.spawn id catalog position' size' contact seed) := by
  have bodies : Body.Related R ⟨position, .zero, size⟩ ⟨position', .zero, size'⟩ :=
    ⟨positions, .refl cong .zero, sizes⟩
  have pictures : Picture.Related R ⟨none, .zero, false, position, size⟩ ⟨none, .zero, false, position', size'⟩ :=
    ⟨rfl, .refl cong .zero, rfl, positions, sizes⟩
  unfold Pet.spawn
  split
  next behavior player _ =>
    exact .intro (p := ⟨id, catalog, ⟨position, .zero, size⟩, .left, contact, .idle, [], behavior, player, ⟨seed⟩,
      ⟨none, .zero, false, position, size⟩⟩) bodies .idle pictures

theorem registerAt?_related (pack : String) {position position' : Vector2} (positions : position.Related R position') :
    Option.Rel (fun x y => x.manager.Related R Given y.manager) (m.registerAt? pack position)
      (n.registerAt? pack position') := by
  have sizes := related.settings.petSize
  have loaded : n.catalog? pack = m.catalog? pack := by rw [catalog?, catalog?, related.packs]
  unfold registerAt?
  rw [loaded, related.area, related.random, related.nextNumber]
  cases m.catalog? pack with
  | none => exact .some related
  | some catalog =>
    refine rel_bind (Bounds.clampRect?_related cong positions sizes m.area.bounds) fun place place' places => ?_
    rw [← Contact.ofRect_related cong places sizes m.area related.settings.closeThreshold]
    generalize m.random.next = drawn
    have spawned := spawn_related cong ⟨m.nextNumber⟩ catalog places sizes
      (Contact.ofRect place m.settings.petSize m.area m.settings.closeThreshold) drawn.1
    have pets := List.rel_append related.pets (.cons spawned .nil)
    exact .some { related with area := rfl, nextNumber := rfl, random := rfl, pets }

theorem register?_related (pack : String) :
    Option.Rel (fun x y => x.manager.Related R Given y.manager) (m.register? pack) (n.register? pack) := by
  have drawn := Area.spawnPosition_related cong m.area related.settings.petSize related.settings.spawnMargin m.random
  have there : m.area.spawnPosition n.settings.petSize n.settings.spawnMargin m.random =
      n.area.spawnPosition n.settings.petSize n.settings.spawnMargin n.random := by
    rw [related.area, related.random]
  rw [there] at drawn
  unfold register?
  generalize m.area.spawnPosition m.settings.petSize m.settings.spawnMargin m.random = place at drawn ⊢
  generalize n.area.spawnPosition n.settings.petSize n.settings.spawnMargin n.random = place' at drawn ⊢
  obtain ⟨position, random⟩ := place
  obtain ⟨position', random'⟩ := place'
  obtain ⟨positions, randoms⟩ := drawn
  dsimp only at positions randoms ⊢
  subst randoms
  have later : Related R Given { m with random } { n with random } := { related with random := rfl }
  exact registerAt?_related cong later pack positions

/-! ### Runs -/

include taken

omit cong taken related in
/-- Calls that are the same without settings for sounds: they are the same, or they stage such settings. -/
theorem mute_cases {call call' : Call} (mute : call.mute = call'.mute) :
    call = call' ∨ ∃ s t : Settings, call = .stage s ∧ call' = .stage t ∧ s.mute = t.mute := by
  cases call with
  | stage s =>
    cases call' with
    | stage t => exact .inr ⟨s, t, rfl, rfl, Call.stage.inj mute⟩
    | _ => cases mute
  | _ =>
    cases call' with
    | stage t => cases mute
    | _ => exact .inl mute

/-- Related managers are related after a call, or it has no answer for both. -/
theorem perform?_related {call call' : Call} (mute : call.mute = call'.mute)
    (staged : ∀ s, call = .stage s → Given s.mute) :
    Option.Rel (Related R Given) (m.perform? call) (n.perform? call') := by
  rcases mute_cases mute with rfl | ⟨s, t, rfl, rfl, same⟩
  · cases call with
    | loadPack pack spec => exact .some (loadPack_related related pack spec)
    | register pack =>
      rw [perform?, perform?, Option.map_eq_bind, Option.map_eq_bind]
      exact rel_bind (register?_related cong related pack) fun _ _ outcomes => .some outcomes
    | registerAt pack position =>
      rw [perform?, perform?, Option.map_eq_bind, Option.map_eq_bind]
      exact rel_bind (registerAt?_related cong related pack (.refl cong position)) fun _ _ outcomes => .some outcomes
    | unregister id => exact .some (unregister_related related id)
    | ask id request => exact .some (ask_related related id request)
    | post command =>
      rw [perform?, perform?, post_enqueue, post_enqueue]
      exact .some (enqueue_related related command)
    | stage s =>
      exact .some { related with staged := rfl, stagedGiven := fun u same => Option.some.inj same ▸ staged s rfl }
    | tick dt =>
      rw [perform?, perform?, Option.map_eq_bind, Option.map_eq_bind]
      exact rel_bind (tick?_related cong taken related dt) fun _ _ after => .some after.1
  · have given (u : Settings) (held : some s = some u) : Given u.mute := Option.some.inj held ▸ staged s rfl
    exact .some { related with staged := congrArg some same.symm, stagedGiven := given }

/-- Related managers are related after runs of the same calls, or neither run has an end. -/
theorem run?_related {calls calls' : List Call} (mute : calls.map Call.mute = calls'.map Call.mute)
    (staged : ∀ s, Call.stage s ∈ calls → Given s.mute) :
    Option.Rel (Related R Given) (m.run? calls) (n.run? calls') := by
  induction calls generalizing m n calls' with
  | nil =>
    cases List.map_eq_nil_iff.mp mute.symm
    exact .some related
  | cons call rest ih =>
    obtain ⟨call', rest', rfl, first, others⟩ := List.map_eq_cons_iff.mp mute.symm
    rw [run_cons, run_cons]
    have here : ∀ s, call = .stage s → Given s.mute := fun s same => staged s (same ▸ List.mem_cons_self)
    exact rel_bind (perform?_related cong taken related first.symm here) fun _ _ next =>
      ih next others.symm fun s member => staged s (List.mem_cons_of_mem _ member)

/-- Related managers tell the same. -/
theorem alike_of_related : m.Alike R n where
  petIds := petIds_related related
  diagnostics := diagnostics_related related
  ticks dt := by
    have ticked := tick?_related cong taken related dt
    generalize m.tick? dt = x at ticked ⊢
    generalize n.tick? dt = y at ticked ⊢
    cases ticked with
    | some same => exact .some same.2
    | none => exact .none

variable (Given) in
omit related in
/-- Runs of the same calls from new managers tell the same, if their settings are the same without those for
sounds. -/
theorem runs_alike {settings settings' : Settings} (initial : settings.mute = settings'.mute)
    (given : Given settings.mute) (seed : UInt64) {calls calls' : List Call}
    (mute : calls.map Call.mute = calls'.map Call.mute) (staged : ∀ s, Call.stage s ∈ calls → Given s.mute) :
    Option.Rel (Alike R) ((new settings seed).run? calls) ((new settings' seed).run? calls') := by
  have area : settings'.area = settings.area := by
    change settings'.mute.area = settings.mute.area
    rw [initial]
  have start : Related R Given (new settings seed) (new settings' seed) :=
    ⟨(Settings.Related.refl cong settings).of_mute initial, ⟨given, initial ▸ given⟩, area, rfl, nofun, rfl, rfl, rfl,
      rfl, rfl, .nil⟩
  have runs := run?_related cong taken start mute staged
  generalize (new settings seed).run? calls = m at runs ⊢
  generalize (new settings' seed).run? calls' = n at runs ⊢
  cases runs with
  | some related => exact .some (alike_of_related cong taken related)
  | none => exact .none

end Related

end Manager

open Manager

/-- The settings that a call stages. -/
def Call.staged? : Call → Option Settings
  | .stage settings => some settings
  | _ => none

/-- All settings of a run: those of its start and those that are staged. -/
def settingsOf (settings : Settings) (calls : List Call) : List Settings :=
  settings :: calls.filterMap Call.staged?

private theorem mem_settingsOf {settings s : Settings} {calls : List Call} (member : Call.stage s ∈ calls) :
    s ∈ settingsOf settings calls :=
  List.mem_cons_of_mem _ (List.mem_filterMap.mpr ⟨_, member, rfl⟩)

/-- Without sounds a number is what it was, or that of silence. -/
theorem Settings.get_mute :
    ∀ key ∈ keys, (∀ s : Settings, key.get s.mute = key.get s) ∨ ∀ s : Settings, key.get s.mute = 0.0 := by
  simp [keys, mute]

theorem Settings.agrees_mute {s t : Settings} (agree : s.agrees t = true) : s.mute.agrees t.mute = true := by
  simp only [agrees, Bool.and_eq_true, List.all_eq_true] at agree ⊢
  obtain ⟨⟨numbers, _⟩, path⟩ := agree
  refine ⟨⟨fun key member => ?_, by simp [mute]⟩, path⟩
  rcases get_mute key member with same | silent
  · rw [same, same]
    exact numbers key member
  · rw [silent, silent]
    decide

/-- Settings for sounds are only heard. Two runs of the same seed and calls whose settings, at the start and staged,
are the same but for those for sounds have the same pets with the same accounts, and every tick shows the same
pictures and makes the same calls of the host; if there are sounds under both settings, the same sounds are played.
The numbers are the same as numbers, that is, up to the sign of zeros. They are the very same if none of the settings
differ from each other in that sign alone. -/
theorem sound_settings_only_heard (settings settings' : Settings) (seed : UInt64) (calls calls' : List Call)
    (initial : settings.mute = settings'.mute) (later : calls.map Call.mute = calls'.map Call.mute) :
    Option.Rel (Alike Same) ((new settings seed).run? calls) ((new settings' seed).run? calls') ∧
      ((∀ s ∈ settingsOf settings calls, ∀ t ∈ settingsOf settings calls, s.mute.agrees t.mute = true →
          s.Related Eq t) →
        Option.Rel (Alike Eq) ((new settings seed).run? calls) ((new settings' seed).run? calls')) := by
  constructor
  · exact runs_alike Number.congruence_same (fun _ => True) (fun _ _ _ _ agree => .of_agrees agree) initial trivial
      seed later fun _ _ => trivial
  · intro distinct
    refine runs_alike Number.congruence_eq (fun u => ∃ s ∈ settingsOf settings calls, s.mute = u) ?_ initial
      ⟨settings, List.mem_cons_self, rfl⟩ seed later fun s member => ⟨s, mem_settingsOf member, rfl⟩
    rintro s t ⟨u, memberU, sameU⟩ ⟨v, memberV, sameV⟩ agree
    have agreeing := Settings.agrees_mute agree
    rw [← sameU, ← sameV] at agreeing
    have related := ((distinct u memberU v memberV agreeing).of_mute sameV).symm Number.congruence_eq
    exact (related.of_mute sameU).symm Number.congruence_eq

/-- Settings without gravity, under which a pet that is thrown does not fall. -/
def weightless (gravity : Float32) (sound : Bool) : Settings :=
  { gravity, throwing.timeMultiplier := -1.0, soundEnabled := sound }

/-- A pet is thrown where the other zero was staged for gravity. -/
def weightlessCalls : List Call :=
  [.loadPack "tangled" tangledPack, .registerAt "tangled" ⟨400.0, 400.0⟩, .stage (weightless (-0.0) true),
    .tick 0.0625, .ask ⟨1⟩ (.pointer (.down ⟨410.0, 410.0⟩ 0.0)), .ask ⟨1⟩ (.pointer (.up ⟨700.0, 410.0⟩ 0.25)),
    .tick 0.0625]

/-- The first two runs differ in the sign of a zero: only the second takes up what is staged. -/
theorem sound_settings_only_heard_weightless :
    Option.Rel (Alike Same) ((new (weightless 0.0 true) 7).run? weightlessCalls)
        ((new (weightless 0.0 false) 7).run? weightlessCalls) ∧
      ((new (weightless 0.0 true) 7).run? weightlessCalls).map (·.diagnostics ⟨1⟩) ≠
        ((new (weightless 0.0 false) 7).run? weightlessCalls).map (·.diagnostics ⟨1⟩) ∧
      Option.Rel (Alike Eq) ((new {} 7).run? weightlessCalls)
        ((new { soundVolume := 0.5 } 7).run? weightlessCalls) := by
  have zeros := sound_settings_only_heard (weightless 0.0 true) (weightless 0.0 false) 7 weightlessCalls weightlessCalls
    rfl rfl
  have muted : ({} : Settings).mute = ({ soundVolume := 0.5 } : Settings).mute := by
    simp only [Settings.mute]
  have loud := sound_settings_only_heard {} { soundVolume := 0.5 } 7 weightlessCalls weightlessCalls muted rfl
  have given : settingsOf {} weightlessCalls = [{}, weightless (-0.0) true] := rfl
  refine ⟨zeros.1, by decide +kernel, loud.2 ?_⟩
  rw [given]
  intro s first t second agree
  rcases List.mem_pair.mp first with rfl | rfl <;> rcases List.mem_pair.mp second with rfl | rfl
  -- one of the two settings has gravity and the other has not
  · exact .refl Number.congruence_eq _
  · exact absurd agree (by decide +kernel)
  · exact absurd agree (by decide +kernel)
  · exact .refl Number.congruence_eq _

end DesktopPet

import DesktopPet.Proofs.Manager.Reachable
import DesktopPet.Proofs.Pet.Hidden

/-!
# Hidden behaviors

Two runs whose packs differ only in which behaviors are hidden cannot be told apart but by asking for menus. A manager
all of whose behaviors are shown makes every call as the manager itself does (`perform?_reveal`), so that two managers
which are the same once everything is shown go through the same ticks.
-/

namespace DesktopPet

open Pack (Issue)

/-- The call with all behaviors of a pack shown in menus. -/
def Call.reveal : Call → Call
  | .loadPack pack spec => .loadPack pack spec.reveal
  | call => call

/-- What a call that changes a manager answers. -/
inductive Answer where
  | issues (answer : Except CallError (List Issue))
  | number (answer : Except CallError PetId)
  | done (answer : Except CallError Unit)
  | report (report : Report)

namespace Manager

/-- An outcome as answer and manager. -/
def reply {α : Type} (answer : Except CallError α → Answer) (outcome : Outcome α) : Answer × Manager :=
  (answer outcome.answer, outcome.manager)

/-- The answer of a call and the manager after it; none if the call has no answer. -/
def respond? (m : Manager) : Call → Option (Answer × Manager)
  | .loadPack pack spec => some (reply .issues (m.loadPack pack spec))
  | .register pack => (m.register? pack).map (reply .number)
  | .registerAt pack position => (m.registerAt? pack position).map (reply .number)
  | .unregister id => some (reply .done (m.unregister id))
  | .ask id request => some (reply .done (m.ask id request))
  | .post command => some (reply .done (m.post command))
  | .stage settings => some (.done (.ok ()), m.stage settings)
  | .tick dt => (m.tick? dt).map fun (after, report) => (.report report, after)

/-- The answer of a call. -/
def answer? (m : Manager) (call : Call) : Option Answer :=
  (m.respond? call).map (·.1)

private theorem respond?_manager (m : Manager) (call : Call) : (m.respond? call).map (·.2) = m.perform? call := by
  cases call with
  | register pack => exact Option.map_map _ _ _
  | registerAt pack position => exact Option.map_map _ _ _
  | tick dt => exact Option.map_map _ _ _
  | _ => rfl

/-- The manager with all behaviors of all catalogs shown in menus. -/
def reveal (m : Manager) : Manager :=
  { m with
    packs := m.packs.map fun (name, catalog) => (name, catalog.reveal)
    pets := m.pets.map Pet.reveal }

/-- The outcome of a call with all behaviors shown in menus. -/
def revealed {α : Type} (outcome : Outcome α) : Outcome α :=
  { outcome with manager := outcome.manager.reveal }

variable (m : Manager)

/-! ## Packs and pets -/

theorem loadPack_reveal (pack : String) (spec : PackSpec) :
    m.reveal.loadPack pack spec.reveal = revealed (m.loadPack pack spec) := by
  unfold loadPack
  rw [Pack.compile_reveal]
  cases spec.compile with
  | error refusal => rfl
  | ok compiled =>
    simp only [Except.map, revealed, putCatalog, reveal, List.map_cons, List.filter_map, Function.comp_def]

theorem catalog?_reveal (pack : String) : m.reveal.catalog? pack = (m.catalog? pack).map Catalog.reveal := by
  unfold catalog? reveal
  dsimp only
  induction m.packs with
  | nil => rfl
  | cons entry rest ih =>
    rw [List.map_cons, List.lookup_cons, List.lookup_cons, ih]
    split
    · rfl
    · rfl

theorem spawn_reveal (id : PetId) (catalog : Catalog) (position size : Vector2) (contact : Contact) (seed : UInt64) :
    Pet.spawn id catalog.reveal position size contact seed =
      (Pet.spawn id catalog position size contact seed).reveal := by
  have started : catalog.reveal.behavior? catalog.reveal.defaultBehavior =
      (catalog.behavior? catalog.defaultBehavior).map Behavior.reveal :=
    catalog.behavior?_reveal catalog.defaultBehavior
  unfold Pet.spawn
  rw [started]
  cases catalog.behavior? catalog.defaultBehavior with
  | none => rfl
  | some found =>
    simp only [Option.map_some, Behavior.reveal, Player.start_reveal]
    rfl

theorem registerAt?_reveal (pack : String) (position : Vector2) :
    m.reveal.registerAt? pack position = (m.registerAt? pack position).map revealed := by
  unfold registerAt?
  rw [catalog?_reveal]
  cases m.catalog? pack with
  | none => rfl
  | some catalog =>
    simp only [Option.map_some, bind, Option.map_bind, spawn_reveal]
    change (m.area.bounds.clampRect? position m.settings.petSize).bind _ = _
    congr 1
    funext place
    simp only [reveal, revealed, Function.comp_apply, pure, Option.map_some, List.map_append, List.map_cons,
      List.map_nil]

theorem register?_reveal (pack : String) : m.reveal.register? pack = (m.register? pack).map revealed :=
  registerAt?_reveal { m with
    random := (m.area.spawnPosition m.settings.petSize m.settings.spawnMargin m.random).2 } pack _

theorem pet?_reveal (id : PetId) : m.reveal.pet? id = (m.pet? id).map Pet.reveal := by
  rw [pet?, pet?, reveal, List.find?_map]
  rfl

theorem petIds_reveal : m.reveal.petIds = m.petIds := by
  rw [petIds, petIds, reveal, List.map_map]
  rfl

theorem unregister_reveal (id : PetId) : m.reveal.unregister id = revealed (m.unregister id) := by
  unfold unregister
  rw [pet?_reveal, Option.isSome_map, apply_ite revealed]
  have kept : m.reveal.pets.filter (·.id ≠ id) = (m.pets.filter (·.id ≠ id)).map Pet.reveal :=
    List.filter_map
  rw [kept]
  rfl

theorem diagnostics_reveal (id : PetId) : m.reveal.diagnostics id = m.diagnostics id := by
  unfold diagnostics
  rw [pet?_reveal]
  cases m.pet? id with
  | none => rfl
  | some p =>
    have named : ((p.behavior.current.bind p.catalog.reveal.behavior?).map (·.name)) =
        (p.behavior.current.bind p.catalog.behavior?).map (·.name) := by
      cases p.behavior.current with
      | none => rfl
      | some index =>
        rw [Option.bind_some, Catalog.behavior?_reveal, Option.map_map]
        rfl
    simp only [Option.map_some, Pet.diagnose, Pet.reveal, named]
    rfl

/-! ## Commands and ticks -/

theorem post_reveal (command : Command) : m.reveal.post command = revealed (m.post command) := by
  have sent : m.reveal.channel.send? command = m.channel.send? command := rfl
  unfold post
  rw [sent]
  cases m.channel.send? command with
  | none => rfl
  | some channel => rfl

theorem ask_reveal (id : PetId) (request : Request) : m.reveal.ask id request = revealed (m.ask id request) := by
  unfold ask
  rw [pet?_reveal, Option.isSome_map, apply_ite revealed, post_reveal]
  rfl

theorem prepare_reveal (dt : Float32) : m.reveal.prepare dt = (m.prepare dt).reveal := by
  unfold prepare applyStaged
  dsimp only [reveal]
  cases m.staged with
  | none => rfl
  | some settings => rfl

theorem mapM_map {α β γ δ : Type} {f : β → Option δ} {g : α → Option γ} {before : α → β} {after : γ → δ}
    (commute : ∀ a, f (before a) = (g a).map after) (entries : List α) :
    (entries.map before).mapM f = (entries.mapM g).map (List.map after) := by
  induction entries with
  | nil => rfl
  | cons a rest ih =>
    rw [List.map_cons, List.mapM_cons, List.mapM_cons, commute, ih]
    cases g a with
    | none => rfl
    | some c =>
      cases rest.mapM g with
      | none => rfl
      | some others => rfl

theorem tick?_reveal (dt : Float32) :
    m.reveal.tick? dt = (m.tick? dt).map fun (after, report) => (after.reveal, report) := by
  have shared : m.reveal.sharedPets = m.sharedPets.map Pet.reveal := by
    simp only [sharedPets, reveal, List.map_map]
    rfl
  have steps := mapM_map (f := fun p : Pet => p.step? (m.prepare dt).scene)
    (fun p : Pet => p.step?_reveal (m.prepare dt).scene) m.sharedPets
  rw [tick_eq, tick_eq, shared, prepare_reveal, Option.map_map]
  change ((m.sharedPets.map Pet.reveal).mapM fun p : Pet => p.step? (m.prepare dt).scene).map _ = _
  rw [steps, Option.map_map]
  congr 1
  funext stepped
  simp only [Function.comp_def, afterSteps, reveal, List.map_map, List.flatMap_map]
  rfl

/-! ## Runs -/

theorem respond?_reveal (call : Call) :
    m.reveal.respond? call.reveal = (m.respond? call).map fun (answer, after) => (answer, after.reveal) := by
  cases call with
  | loadPack pack spec => exact congrArg (fun outcome => some (reply .issues outcome)) (m.loadPack_reveal pack spec)
  | register pack =>
    change (m.reveal.register? pack).map (reply .number) = ((m.register? pack).map (reply .number)).map _
    rw [register?_reveal, Option.map_map, Option.map_map]
    rfl
  | registerAt pack position =>
    change (m.reveal.registerAt? pack position).map (reply .number) =
      ((m.registerAt? pack position).map (reply .number)).map _
    rw [registerAt?_reveal, Option.map_map, Option.map_map]
    rfl
  | unregister id => exact congrArg (fun outcome => some (reply .done outcome)) (m.unregister_reveal id)
  | ask id request => exact congrArg (fun outcome => some (reply .done outcome)) (m.ask_reveal id request)
  | post command => exact congrArg (fun outcome => some (reply .done outcome)) (m.post_reveal command)
  | stage settings => rfl
  | tick dt =>
    change (m.reveal.tick? dt).map _ = ((m.tick? dt).map _).map _
    rw [tick?_reveal, Option.map_map, Option.map_map]
    rfl

theorem answer?_reveal (call : Call) : m.reveal.answer? call.reveal = m.answer? call := by
  rw [answer?, respond?_reveal, Option.map_map]
  rfl

theorem perform?_reveal (call : Call) : m.reveal.perform? call.reveal = (m.perform? call).map reveal := by
  rw [← respond?_manager, ← respond?_manager, respond?_reveal, Option.map_map, Option.map_map]
  rfl

theorem run?_reveal (calls : List Call) : m.reveal.run? (calls.map Call.reveal) = (m.run? calls).map reveal := by
  induction calls generalizing m with
  | nil => rfl
  | cons call rest ih =>
    rw [List.map_cons, run_cons, run_cons, perform?_reveal]
    cases m.perform? call with
    | none => rfl
    | some next => exact ih next

end Manager

open Manager

/-- Which behaviors are hidden is of no concern but to menus. Two packs that differ in nothing else compile with the
same refusal or the same issues. Two managers of the same settings and seed that get the same calls, up to hidden
behaviors of the packs loaded, have an answer to the same calls; they then have the same pets with the same accounts,
and they answer every further call alike, ticks with the same report. -/
theorem hidden_affects_only_menus :
    (∀ p q : PackSpec, p.reveal = q.reveal → p.compile.map (·.2) = q.compile.map (·.2)) ∧
      ∀ (settings : Settings) (seed : UInt64) (calls calls' : List Call),
        calls.map Call.reveal = calls'.map Call.reveal →
          ((new settings seed).run? calls).isSome = ((new settings seed).run? calls').isSome ∧
            ∀ after after', (new settings seed).run? calls = some after →
              (new settings seed).run? calls' = some after' →
              after.petIds = after'.petIds ∧ (∀ id, after.diagnostics id = after'.diagnostics id) ∧
                (∀ dt, (after.tick? dt).map (·.2) = (after'.tick? dt).map (·.2)) ∧
                ∀ call call', call.reveal = call'.reveal → after.answer? call = after'.answer? call' := by
  constructor
  · intro p q same
    have issues (p : PackSpec) : p.compile.map (·.2) = p.reveal.compile.map (·.2) := by
      rw [Pack.compile_reveal]
      cases p.compile with
      | error refusal => rfl
      | ok compiled => rfl
    rw [issues p, issues q, same]
  · intro settings seed calls calls' same
    have start : (new settings seed).reveal = new settings seed := rfl
    have runs : ((new settings seed).run? calls).map reveal = ((new settings seed).run? calls').map reveal := by
      rw [← run?_reveal, ← run?_reveal, start, same]
    refine ⟨by simpa only [Option.isSome_map] using congrArg Option.isSome runs, fun after after' ran ran' => ?_⟩
    have shown : after.reveal = after'.reveal := by
      rw [ran, ran'] at runs
      exact Option.some.inj runs
    have report (m : Manager) (dt : Float32) : (m.tick? dt).map (·.2) = (m.reveal.tick? dt).map (·.2) := by
      rw [tick?_reveal, Option.map_map]
      rfl
    refine ⟨?_, fun id => ?_, fun dt => ?_, fun call call' alike => ?_⟩
    · rw [← petIds_reveal, shown, petIds_reveal]
    · rw [← diagnostics_reveal, shown, diagnostics_reveal]
    · rw [report after, shown, ← report after']
    · rw [← answer?_reveal, shown, alike, answer?_reveal]

/-- A pack whose singing may be hidden. -/
def shyPack (hidden : Bool) : PackSpec :=
  { name := "shy"
    defaultBehavior := "rest"
    actions := [{ name := "rest", kind := "Stay", animations := [{ frames := [{}] }] },
      { name := "sing", kind := "Animate", looping := some false,
        animations := [{ frames := [{ sound := some "la" }] }] }]
    behaviors := [{ name := "rest" }, { name := "sing", frequency := 3, condition := some "random(0.5)", hidden }] }

/-- A pet of that pack that is asked to sing, and then chooses for itself. -/
def shyCalls (hidden : Bool) : List Call :=
  [.loadPack "shy" (shyPack hidden), .register "shy", .ask ⟨1⟩ (.trigger "sing"), .tick 0.0625, .tick 0.0625,
    .tick 0.0625]

theorem hidden_affects_only_menus_shy :
    (shyPack true).reveal = (shyPack false).reveal ∧
      (shyCalls true).map Call.reveal = (shyCalls false).map Call.reveal ∧
      ((new {} 7).run? (shyCalls true)).map (·.visibleBehaviors "shy") = some (.ok ["rest"]) ∧
      ((new {} 7).run? (shyCalls false)).map (·.visibleBehaviors "shy") = some (.ok ["rest", "sing"]) ∧
      ((new {} 7).run? (shyCalls true)).map (·.diagnostics ⟨1⟩) =
        ((new {} 7).run? (shyCalls false)).map (·.diagnostics ⟨1⟩) := by
  have shy : ((new {} 7).run? (shyCalls true)).map (·.visibleBehaviors "shy") = some (.ok ["rest"]) := by
    decide +kernel
  have menu : ((new {} 7).run? (shyCalls false)).map (·.visibleBehaviors "shy") = some (.ok ["rest", "sing"]) := by
    decide +kernel
  refine ⟨rfl, rfl, shy, menu, ?_⟩
  obtain ⟨after, ran, _⟩ := Option.map_eq_some_iff.mp shy
  obtain ⟨after', ran', _⟩ := Option.map_eq_some_iff.mp menu
  have alike := (hidden_affects_only_menus.2 {} 7 (shyCalls true) (shyCalls false) rfl).2 after after' ran ran'
  rw [ran, ran', Option.map_some, Option.map_some, alike.2.1]

end DesktopPet

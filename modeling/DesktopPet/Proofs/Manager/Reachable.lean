import DesktopPet.Proofs.Manager.Delivery
import DesktopPet.Proofs.Manager.Run

/-!
# Reachable managers

`perform_effect` says once what a call can do to a manager. Of reachable managers it follows that their
catalogs were compiled from packs and that no two of their pets have one number, and `reachable_pets`
reduces a property of all their pets to new pets and to one step of one pet.
-/

namespace DesktopPet

/-- The catalog was compiled from a pack. -/
def Catalog.Compiled (c : Catalog) : Prop :=
  ∃ (spec : PackSpec) (issues : List Pack.Issue), spec.compile = .ok (c, issues)

/-- Every result has an entry beside it. -/
theorem forall₂_mem_right {α β : Type} {R : α → β → Prop} {entries : List α} {results : List β}
    (paired : List.Forall₂ R entries results) (b : β) (member : b ∈ results) : ∃ a ∈ entries, R a b := by
  induction paired with
  | nil => cases member
  | cons related _ ih =>
    rcases List.mem_cons.mp member with rfl | later
    · exact ⟨_, List.mem_cons_self, related⟩
    · obtain ⟨a, there, found⟩ := ih later
      exact ⟨a, List.mem_cons_of_mem _ there, found⟩

/-- The call adds a pet. -/
def Call.registers : Call → Bool
  | .register _ => true
  | .registerAt _ _ => true
  | _ => false

namespace Manager

/-! ## What a call does -/

/-- The manager with one more command waiting, as long as the channel takes any. -/
def enqueue (m : Manager) (command : Command) : Manager :=
  { m with channel := (m.channel.send? command).getD m.channel }

/-- All that a call can do. -/
inductive Effect (m : Manager) : Call → Manager → Prop where
  | rejected (pack : String) (spec : PackSpec) : Effect m (.loadPack pack spec) m
  | loaded (pack : String) (spec : PackSpec) (catalog : Catalog) (issues : List Pack.Issue)
      (compiled : spec.compile = .ok (catalog, issues)) :
      Effect m (.loadPack pack spec) (m.putCatalog pack catalog)
  /-- The pack is unknown; the generator may have been used for the position. -/
  | unplaced (call : Call) (random : Random) (registers : call.registers = true) :
      Effect m call { m with random }
  | registered (call : Call) (random : Random) (pack : String) (catalog : Catalog) (position size : Vector2)
      (contact : Contact) (seed : UInt64) (registers : call.registers = true)
      (loaded : m.catalog? pack = some catalog) :
      Effect m call { m with
        pets := m.pets ++ [Pet.spawn ⟨m.nextNumber⟩ catalog position size contact seed]
        nextNumber := m.nextNumber + 1
        random }
  | unregistered (id : PetId) : Effect m (.unregister id) { m with pets := m.pets.filter (·.id ≠ id) }
  | asked (id : PetId) (request : Request) (present : (m.pet? id).isSome) :
      Effect m (.ask id request) (m.enqueue ⟨id, request⟩)
  | unanswered (id : PetId) (request : Request) (absent : m.pet? id = none) : Effect m (.ask id request) m
  | posted (command : Command) : Effect m (.post command) (m.enqueue command)
  | staged (settings : Settings) : Effect m (.stage settings) (m.stage settings)
  | ticked (dt : Float32) (after : Manager) (report : Report) (ticked : m.tick? dt = some (after, report)) :
      Effect m (.tick dt) after

theorem post_enqueue (m : Manager) (command : Command) : (m.post command).manager = m.enqueue command := by
  unfold post enqueue
  cases m.channel.send? command with
  | none => rfl
  | some channel => rfl

theorem unregister_filter (m : Manager) (id : PetId) :
    (m.unregister id).manager = { m with pets := m.pets.filter (·.id ≠ id) } := by
  rw [← unregister_pets]
  unfold unregister
  split
  · rfl
  · rfl

theorem registerAt_effect (m : Manager) (call : Call) (registers : call.registers = true) (pack : String)
    (position : Vector2) (random : Random) (outcome : Outcome PetId)
    (made : { m with random }.registerAt? pack position = some outcome) : m.Effect call outcome.manager := by
  unfold registerAt? at made
  split at made
  · cases Option.some.inj made
    exact .unplaced call random registers
  next catalog loaded =>
    obtain ⟨place, _, made⟩ := Option.bind_eq_some_iff.mp made
    cases Option.some.inj made
    exact .registered call _ pack catalog place _ _ _ registers loaded

theorem perform_effect (m after : Manager) (call : Call) (performed : m.perform? call = some after) :
    m.Effect call after := by
  cases call with
  | loadPack pack spec =>
    cases Option.some.inj performed
    unfold loadPack
    split
    · exact .rejected pack spec
    next catalog issues compiled => exact .loaded pack spec catalog issues compiled
  | register pack =>
    obtain ⟨outcome, made, rfl⟩ := Option.map_eq_some_iff.mp performed
    exact registerAt_effect m (.register pack) rfl pack _ _ outcome made
  | registerAt pack position =>
    obtain ⟨outcome, made, rfl⟩ := Option.map_eq_some_iff.mp performed
    exact registerAt_effect m (.registerAt pack position) rfl pack position m.random outcome made
  | unregister id =>
    cases Option.some.inj performed
    rw [unregister_filter]
    exact .unregistered id
  | ask id request =>
    cases Option.some.inj performed
    unfold ask
    split
    next present =>
      rw [post_enqueue]
      exact .asked id request present
    next absent => exact .unanswered id request (by simpa using absent)
  | post command =>
    cases Option.some.inj performed
    rw [post_enqueue]
    exact .posted command
  | stage settings =>
    cases Option.some.inj performed
    exact .staged settings
  | tick dt =>
    obtain ⟨⟨_, report⟩, ticked, rfl⟩ := Option.map_eq_some_iff.mp performed
    exact .ticked dt _ report ticked

/-- A pet after a tick comes of a pet before it by one step. -/
theorem tick_mem (m after : Manager) (dt : Float32) (report : Report) (ticked : m.tick? dt = some (after, report))
    (q : Pet) (member : q ∈ after.pets) :
    ∃ p ∈ m.pets, ∃ output, (p.withShare m.channel.waiting).step? (m.prepare dt).scene = some (q, output) := by
  obtain ⟨_, steps⟩ := tick_pets m after dt report ticked
  exact forall₂_mem_right steps q member

theorem tick_frame (m after : Manager) (dt : Float32) (report : Report) (ticked : m.tick? dt = some (after, report)) :
    after.packs = m.packs ∧ after.nextNumber = m.nextNumber := by
  have prepared : (m.prepare dt).packs = m.packs ∧ (m.prepare dt).nextNumber = m.nextNumber := by
    unfold prepare applyStaged
    split
    · exact ⟨rfl, rfl⟩
    · exact ⟨rfl, rfl⟩
  obtain ⟨same, _⟩ := tick_pets m after dt report ticked
  rw [same]
  exact prepared

/-- Numbers are only given out, never taken back. -/
theorem call_given {m after : Manager} {call : Call} (performed : m.perform? call = some after) :
    m.nextNumber ≤ after.nextNumber := by
  cases perform_effect m after call performed with
  | registered _ _ _ _ _ _ _ _ _ _ => exact Nat.le_succ _
  | ticked dt after report ticked => exact Nat.le_of_eq (tick_frame m after dt report ticked).2.symm
  | _ => exact Nat.le_refl _

theorem pet_live {m : Manager} {id : PetId} {p : Pet} (there : m.pet? id = some p) : p ∈ m.pets ∧ p.id = id :=
  ⟨List.mem_of_find?_eq_some there, by simpa using List.find?_some there⟩

/-! ## Runs -/

/-- The manager after calls in order; none if one of them has no answer. -/
def run? (m : Manager) (calls : List Call) : Option Manager :=
  calls.foldlM (fun m call => m.perform? call) m

/-- A run of calls leads to the manager from one without packs and pets. -/
inductive Reachable : Manager → Prop where
  | start (settings : Settings) (seed : UInt64) : Reachable (new settings seed)
  | call (m after : Manager) (call : Call) (reached : Reachable m) (performed : m.perform? call = some after) :
      Reachable after

theorem run_cons (m : Manager) (call : Call) (rest : List Call) :
    m.run? (call :: rest) = (m.perform? call).bind fun after => after.run? rest :=
  List.foldlM_cons

theorem Reachable.run {m after : Manager} {calls : List Call} (reached : m.Reachable)
    (ran : m.run? calls = some after) : after.Reachable := by
  induction calls generalizing m with
  | nil =>
    cases Option.some.inj ran
    exact reached
  | cons call rest ih =>
    rw [run_cons] at ran
    obtain ⟨next, performed, ran⟩ := Option.bind_eq_some_iff.mp ran
    exact ih (.call m next call reached performed) ran

theorem Reachable.tick {m after : Manager} {dt : Float32} {report : Report} (reached : m.Reachable)
    (ticked : m.tick? dt = some (after, report)) : after.Reachable :=
  .call m after (.tick dt) reached (by rw [perform?, ticked]; rfl)

/-! ## What all reachable managers have in common -/

theorem effect_catalogs {m after : Manager} {call : Call} (effect : m.Effect call after)
    (sound : ∀ entry ∈ m.packs, entry.2.Compiled) : ∀ entry ∈ after.packs, entry.2.Compiled := by
  cases effect with
  | loaded pack spec catalog issues compiled =>
    intro entry member
    rcases List.mem_cons.mp member with rfl | kept
    · exact ⟨spec, issues, compiled⟩
    · exact sound entry (List.mem_of_mem_filter kept)
  | ticked dt after report ticked =>
    rw [(tick_frame m after dt report ticked).1]
    exact sound
  | _ => exact sound

theorem reachable_catalogs {m : Manager} (reached : m.Reachable) : ∀ entry ∈ m.packs, entry.2.Compiled := by
  induction reached with
  | start settings seed => exact fun entry member => absurd member List.not_mem_nil
  | call m after call _ performed sound => exact effect_catalogs (perform_effect m after call performed) sound

theorem catalog_mem (m : Manager) (pack : String) (catalog : Catalog) (loaded : m.catalog? pack = some catalog) :
    ∃ name, (name, catalog) ∈ m.packs := by
  obtain ⟨_, _, same, _⟩ := List.lookup_eq_some_iff.mp loaded
  exact ⟨pack, by rw [same]; simp⟩

/-- What holds of new pets of compiled catalogs, and is kept by the step of a pet with its share of some
commands, holds of all pets of reachable managers. -/
theorem reachable_pets (Holds : Pet → Prop)
    (spawned : ∀ id catalog position size contact seed, catalog.Compiled →
      Holds (Pet.spawn id catalog position size contact seed))
    (kept : ∀ (p q : Pet) commands scene output, p.catalog.Compiled → Holds p →
      (p.withShare commands).step? scene = some (q, output) → Holds q)
    {m : Manager} (reached : m.Reachable) : ∀ p ∈ m.pets, p.catalog.Compiled ∧ Holds p := by
  induction reached with
  | start settings seed => exact fun p member => absurd member List.not_mem_nil
  | call m after call reached performed holds =>
    cases perform_effect m after call performed with
    | registered _ random pack catalog position size contact seed registers loaded =>
      intro p member
      rcases List.mem_append.mp member with old | new
      · exact holds p old
      · obtain ⟨name, listed⟩ := catalog_mem m pack catalog loaded
        have sound := reachable_catalogs reached (name, catalog) listed
        cases List.mem_singleton.mp new
        exact ⟨sound, spawned _ _ _ _ _ _ sound⟩
    | unregistered id => exact fun p member => holds p (List.mem_of_mem_filter member)
    | ticked dt after report ticked =>
      intro q member
      obtain ⟨p, old, output, stepped⟩ := tick_mem m after dt report ticked q member
      obtain ⟨sound, held⟩ := holds p old
      have same : q.catalog = p.catalog := (Pet.step_effect _ q _ output stepped).2.1
      exact ⟨by rw [same]; exact sound, kept p q _ _ output sound held stepped⟩
    | _ => exact holds

/-- Pets stand in the order of their numbers, and all their numbers have been given out. -/
structure Numbered (m : Manager) : Prop where
  ascending : m.pets.Pairwise fun p q => p.id.number < q.id.number
  given : ∀ p ∈ m.pets, p.id.number < m.nextNumber

theorem tick_ids (m after : Manager) (dt : Float32) (report : Report) (ticked : m.tick? dt = some (after, report)) :
    after.petIds = m.petIds := by
  obtain ⟨_, steps⟩ := tick_pets m after dt report ticked
  rw [petIds, petIds]
  generalize m.pets = before at steps ⊢
  generalize after.pets = later at steps ⊢
  induction steps with
  | nil => rfl
  | @cons p q _ _ stepped _ ih =>
    obtain ⟨output, made⟩ := stepped
    have same : q.id = p.id := (Pet.step_effect _ q _ output made).1
    rw [List.map_cons, List.map_cons, ih, same]

theorem reachable_numbered {m : Manager} (reached : m.Reachable) : m.Numbered := by
  induction reached with
  | start settings seed => exact ⟨.nil, fun p member => absurd member List.not_mem_nil⟩
  | call m after call _ performed numbered =>
    cases perform_effect m after call performed with
    | registered _ random pack catalog position size contact seed registers loaded =>
      constructor
      · refine List.pairwise_append.mpr ⟨numbered.ascending, List.pairwise_singleton _ _, ?_⟩
        intro p old q new
        cases List.mem_singleton.mp new
        exact numbered.given p old
      · intro p member
        rcases List.mem_append.mp member with old | new
        · exact Nat.lt_succ_of_lt (numbered.given p old)
        · cases List.mem_singleton.mp new
          exact Nat.lt_succ_self m.nextNumber
    | unregistered id =>
      exact ⟨numbered.ascending.filter _, fun p member => numbered.given p (List.mem_of_mem_filter member)⟩
    | ticked dt after report ticked =>
      have ids := tick_ids m after dt report ticked
      constructor
      · have before : m.petIds.Pairwise fun a b => a.number < b.number := List.pairwise_map.mpr numbered.ascending
        rw [← ids, petIds, List.pairwise_map] at before
        exact before
      · intro q member
        have there : q.id ∈ m.petIds := by
          rw [← ids]
          exact List.mem_map_of_mem member
        obtain ⟨p, old, same⟩ := List.mem_map.mp there
        rw [← same, (tick_frame m after dt report ticked).2]
        exact numbered.given p old
    | _ => exact ⟨numbered.ascending, numbered.given⟩

/-- There is one pet of a number. -/
theorem Numbered.filter_eq {m : Manager} (numbered : m.Numbered) {p : Pet} (live : p ∈ m.pets) :
    m.pets.filter (·.id = p.id) = [p] := by
  have ascending := numbered.ascending
  generalize m.pets = pets at ascending live
  induction pets with
  | nil => cases live
  | cons first rest ih =>
    obtain ⟨above, ascending⟩ := List.pairwise_cons.mp ascending
    rcases List.mem_cons.mp live with rfl | later
    · have others : rest.filter (·.id = p.id) = [] := by
        rw [List.filter_eq_nil_iff]
        intro q member
        simpa using fun same : q.id = p.id => Nat.lt_irrefl _ (same ▸ above q member)
      simp [others]
    · have other : first.id ≠ p.id := fun same => Nat.lt_irrefl _ (same ▸ above p later)
      simp [other, ih ascending later]

end Manager

end DesktopPet

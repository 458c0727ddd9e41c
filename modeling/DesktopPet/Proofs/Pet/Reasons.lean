import DesktopPet.Proofs.Pack.Names
import DesktopPet.Proofs.Pet.Agreement
import DesktopPet.Proofs.Selection.Accepted

/-!
# Why a behavior changes

`Reasoned` says what selection makes of a pet in every state: nothing but the end of a trigger where there is no
reason for another behavior, a behavior from its start where there is one, and in between the pet that is only
misplaced and for which its own behavior is chosen again. The generator is pinned in each case.
-/

namespace DesktopPet

namespace Catalog

/-- What a trigger calls up: the behavior of its name, or the default one if no behavior has that name. -/
inductive Answers (c : Catalog) (name : String) : Nat → Prop where
  | named (i : Nat) (b : Behavior) (there : c.behavior? i = some b) (same : b.name = name) : Answers c name i
  | unknown (nowhere : ∀ b ∈ c.behaviors, b.name ≠ name) : Answers c name c.defaultBehavior

private theorem findBehavior_answers (c : Catalog) (name : String) :
    c.Answers name ((c.findBehavior? name).getD c.defaultBehavior) := by
  cases found : c.findBehavior? name with
  | some i =>
    have there := getElem?_of_lastIndexOf? found
    rw [List.getElem?_map, Option.map_eq_some_iff] at there
    obtain ⟨b, there, same⟩ := there
    exact .named i b there same
  | none =>
    refine .unknown fun b member same => ?_
    have known : (c.findBehavior? name).isSome = true :=
      (lastIndexOf?_isSome name _).mpr (List.mem_map.mpr ⟨b, member, same⟩)
    rw [found] at known
    cases known

theorem Answers.present {c : Catalog} {name : String} {i : Nat} (answers : c.Answers name i)
    (entry : (c.behavior? c.defaultBehavior).isSome = true) : (c.behavior? i).isSome = true := by
  cases answers with
  | named _ b there same => exact Option.isSome_of_eq_some there
  | unknown nowhere => exact entry

end Catalog

namespace Pet

/-! ## The reasons -/

/-- The action at an index suits the contact of the pet. An index without an action demands nothing. -/
def Suits (p : Pet) (index : Option Nat) : Prop :=
  ∀ i a, index = some i → p.catalog.action? i = some a → a.isEligible p.contact = true

/-- Nothing speaks for another behavior. -/
@[mk_iff]
structure AtEase (p : Pet) : Prop where
  engaged : p.behavior.current.isSome = true
  unasked : p.behavior.reselect = none
  action : p.Suits p.player.action
  leaf : p.Suits p.player.leafAction?

private theorem isMisplaced_eq_false (p : Pet) :
    p.isMisplaced = false ↔ p.Suits p.player.action ∧ p.Suits p.player.leafAction? := by
  have suits (index : Option Nat) : (index.bind p.catalog.action?).any (fun a => !a.isEligible p.contact) = false ↔
      p.Suits index := by
    simp only [Suits, Option.any_eq_false, Option.bind_eq_some_iff]
    grind
  rw [isMisplaced, List.any_eq_false]
  simp [suits]

/-- A pet wants no other behavior exactly if it is at ease. -/
theorem wants?_eq_none (p : Pet) : p.wants? = none ↔ p.AtEase := by
  rw [atEase_iff, ← isMisplaced_eq_false, wants?]
  cases p.behavior.current with
  | none => simp
  | some current =>
    cases p.behavior.reselect with
    | some reason => simp
    | none => simp

/-! ## What is done about them -/

/-- The pet takes up a behavior that is there, and plays its action from the start. Nothing is asked of it any
more, and nothing else of it changes but the generator. -/
def Takes (p q : Pet) (index : Nat) (random : Random) : Prop :=
  ∃ found, p.catalog.behavior? index = some found ∧ q = { p with
    behavior :=
      { current := some index, reselect := none, trigger := none, selections := p.behavior.selections + 1 }
    player := Player.start found.action p.catalog
    random }

private theorem startBehavior_takes (p : Pet) (index : Nat) (random : Random)
    (present : (p.catalog.behavior? index).isSome = true) :
    p.Takes ({ p with random, behavior.trigger := none }.startBehavior index) index random := by
  obtain ⟨found, there⟩ := Option.isSome_iff_exists.mp present
  refine ⟨found, there, ?_⟩
  simp only [startBehavior, Catalog.orDefault, Catalog.playerOf, there, Option.isSome_some, ↓reduceIte]
  rfl

/-- What has become of a pet in selection, and why. -/
structure Reasoned (p : Pet) (area : Area) (q : Pet) : Prop where
  /-- A trigger is used up in any case. -/
  consumed : q.behavior.trigger = none
  /-- Nothing else happens to a pet that is dragged or thrown. -/
  barred : p.interaction.isIdle = false → q = { p with behavior.trigger := none }
  /-- A trigger is followed without a draw. -/
  triggered : p.interaction.isIdle = true → ∀ name, p.behavior.trigger = some name →
    ∃ index, p.catalog.Answers name index ∧ p.Takes q index p.random
  /-- A pet at ease stays as it is. -/
  content : p.interaction.isIdle = true → p.behavior.trigger = none → p.AtEase → q = p
  /-- For a reason a behavior is chosen and taken up. Only a pet that is misplaced and for which its own behavior
  is chosen goes on. -/
  wanting : p.interaction.isIdle = true → p.behavior.trigger = none → ¬ p.AtEase →
    ∃ reason index random, p.wants? = some reason ∧ p.choose? area reason = some (index, random) ∧
      (¬ (reason = .borderIneligible ∧ p.behavior.current = some index) ∧ p.Takes q index random ∨
        (reason = .borderIneligible ∧ p.behavior.current = some index) ∧
          q = { p with random, behavior.reselect := none })

theorem Takes.consumed {p q : Pet} {index : Nat} {random : Random} (takes : p.Takes q index random) :
    q.behavior.trigger = none := by
  obtain ⟨_, _, rfl⟩ := takes
  rfl

/-! ## The choice -/

/-- The follower that is chosen, if one is, and the generator once the followers have been asked. Only the
followers of a behavior that has run its course are. -/
def followed (p : Pet) (area : Area) (reason : Reselect) : Option Nat × Random :=
  match reason, p.behavior.current with
  | .terminal, some current => p.catalog.selectChained (p.view area) current p.random
  | _, _ => (none, p.random)

/-- The behaviors that selection accepts, once the followers have been asked. -/
def accepted (p : Pet) (area : Area) (reason : Reselect) : List Nat :=
  (p.catalog.candidates (p.view area) (List.range p.catalog.behaviors.length) (p.followed area reason).2).1

/-- A follower is chosen, or one of all behaviors. -/
theorem choose?_eq (p : Pet) (area : Area) (reason : Reselect) :
    p.choose? area reason = match (p.followed area reason).1 with
      | some index => some (index, (p.followed area reason).2)
      | none => p.catalog.selectNext? (p.view area) (p.followed area reason).2 :=
  rfl

theorem followed_suits {p : Pet} {area : Area} {reason : Reselect} {index : Nat}
    (follows : (p.followed area reason).1 = some index) : p.catalog.Suits p.contact index := by
  unfold followed at follows
  split at follows
  · exact Catalog.selectChained_suits follows
  · cases follows

theorem choose?_present {p : Pet} {area : Area} {reason : Reselect} {index : Nat} {random : Random}
    (choice : p.choose? area reason = some (index, random))
    (entry : (p.catalog.behavior? p.catalog.defaultBehavior).isSome = true) :
    (p.catalog.behavior? index).isSome = true := by
  rw [choose?_eq] at choice
  cases follows : (p.followed area reason).1 with
  | some follower =>
    rw [follows] at choice
    cases Option.some.inj choice
    exact (followed_suits follows).present
  | none =>
    rw [follows] at choice
    exact Catalog.selectNext?_present rfl choice entry

/-! ## When there is no choice -/

/-- Selection has to choose among all behaviors, none of those that it accepts is mandatory, and their weights do not
fit into a word. -/
def Overloaded (p : Pet) (area : Area) : Prop :=
  p.interaction.isIdle = true ∧ p.behavior.trigger = none ∧
    ∃ reason, p.wants? = some reason ∧ (p.followed area reason).1 = none ∧
      (∀ i ∈ p.accepted area reason, p.catalog.weight i ≠ 0) ∧ 2 ^ 32 ≤ p.catalog.weights (p.accepted area reason)

theorem choose?_eq_none_iff (p : Pet) (area : Area) (reason : Reselect) :
    p.choose? area reason = none ↔ (p.followed area reason).1 = none ∧
      (∀ i ∈ p.accepted area reason, p.catalog.weight i ≠ 0) ∧
      2 ^ 32 ≤ p.catalog.weights (p.accepted area reason) := by
  rw [choose?_eq]
  cases follows : (p.followed area reason).1 with
  | some index => exact ⟨nofun, fun absent => nomatch absent.1⟩
  | none =>
    refine Iff.trans ?_ (and_iff_right rfl).symm
    exact Catalog.selectNext?_eq_none_iff rfl

/-- Selection has no answer exactly if it is overloaded. -/
theorem selectBehavior?_eq_none_iff_overloaded (p : Pet) (area : Area) :
    p.selectBehavior? area = none ↔ p.Overloaded area := by
  simp only [selectBehavior?_eq_none_iff, choose?_eq_none_iff, Overloaded]

theorem not_overloaded {p : Pet} (light : p.catalog.Light) (area : Area) : ¬ p.Overloaded area := by
  rintro ⟨_, _, reason, _, _, _, heavy⟩
  exact Nat.not_le.mpr (light.candidates (p.view area) (p.followed area reason).2) heavy

/-! ## Each case with its reason -/

theorem Selection.reasoned {p q : Pet} {area : Area} (selection : p.Selection area q)
    (entry : (p.catalog.behavior? p.catalog.defaultBehavior).isSome = true) : p.Reasoned area q := by
  cases selection with
  | barred busy =>
    exact
      { consumed := rfl
        barred := fun _ => rfl
        triggered := fun idle => nomatch busy.symm.trans idle
        content := fun idle => nomatch busy.symm.trans idle
        wanting := fun idle => nomatch busy.symm.trans idle }
  | triggered name idle asked =>
    have answers := p.catalog.findBehavior_answers name
    have takes := startBehavior_takes p _ p.random (answers.present entry)
    exact
      { consumed := takes.consumed
        barred := fun busy => nomatch idle.symm.trans busy
        triggered := fun _ other same => by
          cases asked.symm.trans same
          exact ⟨_, answers, takes⟩
        content := fun _ unasked => nomatch asked.symm.trans unasked
        wanting := fun _ unasked => nomatch asked.symm.trans unasked }
  | content idle unasked wants =>
    have ease := p.wants?_eq_none.mp wants
    exact
      { consumed := rfl
        barred := fun busy => nomatch idle.symm.trans busy
        triggered := fun _ name asked => nomatch unasked.symm.trans asked
        content := fun _ _ _ => by rw [← unasked]
        wanting := fun _ _ uneasy => absurd ease uneasy }
  | confirmed index random idle unasked wants choice same =>
    have uneasy : ¬ p.AtEase := fun ease => nomatch wants.symm.trans (p.wants?_eq_none.mpr ease)
    have still : { p.behavior with trigger := none, reselect := none } = { p.behavior with reselect := none } :=
      congrArg (fun trigger => { p.behavior with trigger, reselect := none }) unasked.symm
    exact
      { consumed := rfl
        barred := fun busy => nomatch idle.symm.trans busy
        triggered := fun _ name asked => nomatch unasked.symm.trans asked
        content := fun _ _ ease => absurd ease uneasy
        wanting := fun _ _ _ =>
          ⟨.borderIneligible, index, random, wants, choice, Or.inr ⟨⟨rfl, same⟩, by rw [still]⟩⟩ }
  | chosen reason index random idle unasked wants choice another =>
    have uneasy : ¬ p.AtEase := fun ease => nomatch wants.symm.trans (p.wants?_eq_none.mpr ease)
    have takes := startBehavior_takes p index random (choose?_present choice entry)
    exact
      { consumed := takes.consumed
        barred := fun busy => nomatch idle.symm.trans busy
        triggered := fun _ name asked => nomatch unasked.symm.trans asked
        content := fun _ _ ease => absurd ease uneasy
        wanting := fun _ _ _ => ⟨reason, index, random, wants, choice, Or.inl ⟨another, takes⟩⟩ }

end Pet

/-- A pack would need tens of millions of behaviors to overload its pets. -/
theorem compiled_light {spec : PackSpec} {c : Catalog} {issues : List Pack.Issue}
    (compiled : spec.compile = .ok (c, issues)) (few : c.behaviors.length ≤ 42949672) : c.Light := by
  have each : ∀ w ∈ c.behaviors.map (·.frequency.toNat), w ≤ 100 := by
    intro w member
    obtain ⟨b, there, rfl⟩ := List.mem_map.mp member
    exact UInt32.le_iff_toNat_le.mp (Pack.compiled_behavior compiled b there).2.1
  have total := List.sum_le_card_nsmul _ 100 each
  rw [List.length_map, smul_eq_mul] at total
  rw [Catalog.Light]
  omega

/-- With a catalog that comes of a pack, a behavior changes only for a reason, and a trigger is used up at once. There
is no answer exactly if the weights that a choice has to add up do not fit into a word, and that takes more than
42949672 behaviors. -/
theorem behaviors_change_for_reasons (spec : PackSpec) (issues : List Pack.Issue) (p : Pet) (area : Area)
    (compiled : spec.compile = .ok (p.catalog, issues)) :
    (∀ q, p.selectBehavior? area = some q → p.Reasoned area q) ∧
      (p.selectBehavior? area = none ↔ p.Overloaded area) ∧
      (p.catalog.behaviors.length ≤ 42949672 → ∃ q, p.selectBehavior? area = some q) := by
  have answers := p.selectBehavior?_eq_none_iff_overloaded area
  refine ⟨fun q selected => ?_, answers, fun few => Option.ne_none_iff_exists'.mp fun missing => ?_⟩
  · exact (p.selectBehavior?_cases q area selected).reasoned (compiled_entriesPresent compiled).default
  · exact Pet.not_overloaded (compiled_light compiled few) area (answers.mp missing)

/-- An idle pet on the floor. -/
def groundedPet (c : Catalog) (behavior : BehaviorState) (player : Player) (seed : UInt64) : Pet :=
  { id := ⟨1⟩
    catalog := c
    body := { position := ⟨400.0, 844.0⟩, velocity := .zero, size := ⟨128.0, 128.0⟩ }
    facing := .left
    contact := { onFloor := true }
    interaction := .idle
    events := []
    behavior
    player
    random := ⟨seed⟩
    picture := { image := none, anchor := .zero, flip := false, position := ⟨400.0, 844.0⟩, size := ⟨128.0, 128.0⟩ } }

/-- A pet at rest that is sent off by a trigger. -/
def sentOff (c : Catalog) (errand : String) : Pet :=
  groundedPet c { current := some 0, trigger := some errand, selections := 1 } (Player.start 0 c) 11

theorem behaviors_change_for_reasons_tangled :
    ∃ c issues, tangledPack.compile = .ok (c, issues) ∧
      ((sentOff c "stroll").selectBehavior? .standard).map (·.behavior) = some { current := some 1, selections := 2 } ∧
      ((sentOff c "stroll").selectBehavior? .standard).map (·.player.leafAction?) = some (some 0) ∧
      ((sentOff c "nowhere").selectBehavior? .standard).map (·.behavior) = some { current := some 0, selections := 2 } ∧
      ∃ q, (sentOff c "stroll").selectBehavior? .standard = some q ∧ (sentOff c "stroll").Reasoned .standard q := by
  have compiles : ∃ c issues, tangledPack.compile = .ok (c, issues) ∧ c.behaviors.length = 2 ∧
      ((sentOff c "stroll").selectBehavior? .standard).map (·.behavior) = some { current := some 1, selections := 2 } ∧
      ((sentOff c "stroll").selectBehavior? .standard).map (·.player.leafAction?) = some (some 0) ∧
      ((sentOff c "nowhere").selectBehavior? .standard).map (·.behavior) =
        some { current := some 0, selections := 2 } :=
    ⟨_, _, rfl, by decide +kernel, by decide +kernel, by decide +kernel, by decide +kernel⟩
  obtain ⟨c, issues, compiled, two, strolls, shown, lost⟩ := compiles
  obtain ⟨reasoned, _, answers⟩ :=
    behaviors_change_for_reasons tangledPack issues (sentOff c "stroll") .standard compiled
  obtain ⟨q, selected⟩ := answers (by change c.behaviors.length ≤ _; omega)
  exact ⟨c, issues, compiled, strolls, shown, lost, q, selected, reasoned q selected⟩

end DesktopPet

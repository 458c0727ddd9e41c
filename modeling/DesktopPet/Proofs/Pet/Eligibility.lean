import DesktopPet.Proofs.Pet.Reasons

/-!
# What plays suits the contact

Selection judges a behavior by its action. An action that plays after it suits the contact if anything suitable
was to be had, and the same is true of the leaf where the action is its own leaf, or where no other behavior was
wanted. The children of a sequence are judged only while they play, not when the sequence is chosen.
-/

namespace DesktopPet

namespace Pet

/-! ## What there was to choose from -/

/-- Selection among all behaviors accepts none. -/
def Stranded (p : Pet) (area : Area) : Prop :=
  ∃ reason, p.wants? = some reason ∧ (p.followed area reason).1 = none ∧ p.accepted area reason = []

/-- Unless it is stranded, a pet chooses a behavior whose action suits. -/
theorem choose?_suits {p : Pet} {area : Area} {reason : Reselect} {index : Nat} {random : Random}
    (wants : p.wants? = some reason) (helped : ¬ p.Stranded area)
    (choice : p.choose? area reason = some (index, random)) : p.catalog.Suits p.contact index := by
  rw [choose?_eq] at choice
  cases follows : (p.followed area reason).1 with
  | some follower =>
    rw [follows] at choice
    cases Option.some.inj choice
    exact followed_suits follows
  | none =>
    rw [follows] at choice
    exact Catalog.selectNext?_suits rfl choice fun empty => helped ⟨reason, wants, follows, empty⟩

/-! ## What plays -/

/-- An action plays, and it suits the contact. -/
def PlaysSuitably (p : Pet) : Prop :=
  ∃ i a, p.player.action = some i ∧ p.catalog.action? i = some a ∧ a.isEligible p.contact = true

/-- A sequence plays. -/
def PlaysSequence (p : Pet) : Prop :=
  ∃ i a, p.player.action = some i ∧ p.catalog.action? i = some a ∧ a.kind = .sequence

/-- Where no sequence plays, the leaf of a player that has just started is its action. -/
theorem start_leaf {action i : Nat} {c : Catalog} {a : Action} (there : c.action? action = some a)
    (simple : a.kind ≠ .sequence) (leaf : (Player.start action c).leafAction? = some i) : i = action := by
  simp only [Player.start, there, simple, ↓reduceIte, Player.leafAction?, Player.leaf?, Option.map_some] at leaf
  exact (Option.some.inj leaf).symm

theorem Takes.playsSuitably {p q : Pet} {index : Nat} {random : Random} (takes : p.Takes q index random)
    (suits : p.catalog.Suits p.contact index) : q.PlaysSuitably := by
  obtain ⟨b, there, rfl⟩ := takes
  obtain ⟨_, a, same, action, eligible⟩ := suits
  cases there.symm.trans same
  exact ⟨b.action, a, start_action b.action p.catalog, action, eligible⟩

theorem Takes.leafSuits {p q : Pet} {index : Nat} {random : Random} (takes : p.Takes q index random)
    (suits : p.catalog.Suits p.contact index) (simple : ¬ q.PlaysSequence) : q.Suits q.player.leafAction? := by
  obtain ⟨b, there, rfl⟩ := takes
  obtain ⟨_, a, same, action, eligible⟩ := suits
  cases there.symm.trans same
  intro i other leaf found
  have single : a.kind ≠ .sequence := fun sequence =>
    simple ⟨b.action, a, start_action b.action p.catalog, action, sequence⟩
  cases start_leaf action single leaf
  cases action.symm.trans found
  exact eligible

theorem Performs.playsSuitably {p : Pet} {index : Nat} (performs : p.Performs index)
    (suits : p.catalog.Suits p.contact index) : p.PlaysSuitably := by
  obtain ⟨b, there, playing⟩ := performs
  obtain ⟨_, a, same, action, eligible⟩ := suits
  cases there.symm.trans same
  exact ⟨b.action, a, playing, action, eligible⟩

/-- A pet at ease that performs its behavior plays what suits it, since the action is there. -/
theorem AtEase.playsSuitably {p : Pet} (ease : p.AtEase)
    (actions : ∀ b ∈ p.catalog.behaviors, b.action < p.catalog.actions.length)
    (performs : ∀ index, p.behavior.current = some index → p.Performs index) : p.PlaysSuitably := by
  obtain ⟨index, current⟩ := Option.isSome_iff_exists.mp ease.engaged
  obtain ⟨b, there, playing⟩ := performs index current
  have inside := actions b (List.mem_of_getElem? there)
  have action : p.catalog.action? b.action = some p.catalog.actions[b.action] := List.getElem?_eq_getElem inside
  exact ⟨b.action, _, playing, action, ease.action b.action _ playing action⟩

/-! ## After selection -/

/-- What selection leaves an idle pet with. -/
structure Suited (p q : Pet) : Prop where
  /-- A pet at ease goes on with what suits it. -/
  content : p.AtEase → q.Suits q.player.action ∧ q.Suits q.player.leafAction?
  /-- What plays suits if it has just been taken up, or if it was the action of the behavior before. -/
  action : p.behavior.selections < q.behavior.selections ∨
    (∀ index, p.behavior.current = some index → p.Performs index) → q.PlaysSuitably
  /-- So does the leaf of what has just been taken up, unless that is a sequence. -/
  leaf : p.behavior.selections < q.behavior.selections → ¬ q.PlaysSequence → q.Suits q.player.leafAction?

theorem AtEase.suited {p : Pet} (ease : p.AtEase)
    (actions : ∀ b ∈ p.catalog.behaviors, b.action < p.catalog.actions.length) : p.Suited p where
  content := fun _ => ⟨ease.action, ease.leaf⟩
  action := fun cause => cause.elim (fun more => absurd more (Nat.lt_irrefl _)) (ease.playsSuitably actions)
  leaf := fun more => absurd more (Nat.lt_irrefl _)

theorem Takes.suited {p q : Pet} {index : Nat} {random : Random} (takes : p.Takes q index random)
    (uneasy : ¬ p.AtEase) (suits : p.catalog.Suits p.contact index) : p.Suited q where
  content := fun ease => absurd ease uneasy
  action := fun _ => takes.playsSuitably suits
  leaf := fun _ => takes.leafSuits suits

theorem Reasoned.suited {p q : Pet} {area : Area} (reasoned : p.Reasoned area q)
    (idle : p.interaction.isIdle = true) (unasked : p.behavior.trigger = none)
    (actions : ∀ b ∈ p.catalog.behaviors, b.action < p.catalog.actions.length) (helped : ¬ p.Stranded area) :
    p.Suited q := by
  by_cases ease : p.AtEase
  · rw [reasoned.content idle unasked ease]
    exact ease.suited actions
  · obtain ⟨reason, index, random, wants, choice, ⟨_, takes⟩ | ⟨⟨_, same⟩, rfl⟩⟩ :=
      reasoned.wanting idle unasked ease
    all_goals have suits := choose?_suits wants helped choice
    · exact takes.suited ease suits
    · exact
        { content := fun easy => absurd easy ease
          action := fun cause => cause.elim (fun more => absurd more (Nat.lt_irrefl _)) fun performs =>
            ((performs index same).of_same rfl rfl).playsSuitably suits
          leaf := fun more => absurd more (Nat.lt_irrefl _) }

end Pet

/-- With a catalog that comes of a pack, what plays after selection suits the contact as far as selection judges
it, unless none of all behaviors was accepted. -/
theorem selection_suits_contact (spec : PackSpec) (issues : List Pack.Issue) (p q : Pet) (area : Area)
    (compiled : spec.compile = .ok (p.catalog, issues)) (idle : p.interaction.isIdle = true)
    (unasked : p.behavior.trigger = none) (selected : p.selectBehavior? area = some q) :
    p.Stranded area ∨ p.Suited q := by
  by_cases helped : p.Stranded area
  · exact Or.inl helped
  have reasoned := (p.selectBehavior?_cases q area selected).reasoned (compiled_entriesPresent compiled).default
  have actions := fun b member => (Pack.compiled_behavior compiled b member).1
  exact Or.inr (reasoned.suited idle unasked actions helped)

/-- A behavior for the floor, and one of a sequence that demands nothing itself, but whose first child has to hang
from the ceiling. -/
def shelfPack : PackSpec :=
  { name := "shelf"
    defaultBehavior := "sit"
    actions :=
      [{ name := "sit", kind := "Stay", borderType := some "Floor", animations := [{ frames := [{}] }] },
       { name := "hang", kind := "Stay", borderType := some "Ceiling", animations := [{ frames := [{}] }] },
       { name := "climb", kind := "Sequence", references := ["hang", "sit"] }]
    behaviors := [{ name := "sit" }, { name := "climb" }] }

theorem selection_suits_contact_shelf :
    ∃ c issues q, shelfPack.compile = .ok (c, issues) ∧
      (groundedPet c {} {} 2).selectBehavior? .standard = some q ∧ q.player.leafAction? = some 0 ∧
      (groundedPet c {} {} 2).Suited q := by
  have compiles : ∃ c issues, shelfPack.compile = .ok (c, issues) ∧
      ((groundedPet c {} {} 2).selectBehavior? .standard).map (·.player.leafAction?) = some (some 0) ∧
      (groundedPet c {} {} 2).accepted .standard .initial = [0, 1] :=
    ⟨_, _, rfl, by decide +kernel, by decide +kernel⟩
  obtain ⟨c, issues, compiled, sits, both⟩ := compiles
  obtain ⟨q, selected, sits⟩ := Option.map_eq_some_iff.mp sits
  refine ⟨c, issues, q, compiled, selected, sits, ?_⟩
  rcases selection_suits_contact shelfPack issues (groundedPet c {} {} 2) q .standard compiled rfl rfl selected with
    ⟨reason, wants, _, empty⟩ | suited
  · cases Option.some.inj wants
    cases both.symm.trans empty
  · exact suited

/-- Both behaviors are accepted, and a sequence is taken up whose first child does not suit the contact. A pet
whose player does not play the action of its behavior even goes on with an action that does not suit, because its
behavior is chosen again. -/
theorem unsuited_beside_accepted :
    ∃ c issues, shelfPack.compile = .ok (c, issues) ∧
      (groundedPet c {} {} 1).accepted .standard .initial = [0, 1] ∧
      ((groundedPet c {} {} 1).selectBehavior? .standard).map (fun q =>
        (q.player.leafAction?.bind c.action?).map (·.isEligible { onFloor := true })) = some (some false) ∧
      (groundedPet c { current := some 1 } (Player.start 1 c) 1).accepted .standard .borderIneligible = [0, 1] ∧
      ((groundedPet c { current := some 1 } (Player.start 1 c) 1).selectBehavior? .standard).map (fun q =>
        (q.player.action.bind c.action?).map (·.isEligible { onFloor := true })) = some (some false) :=
  ⟨_, _, rfl, by decide +kernel, by decide +kernel, by decide +kernel, by decide +kernel⟩

end DesktopPet

import DesktopPet.Proofs.Pet.Drags
import DesktopPet.Proofs.Pet.Reasons
import DesktopPet.Proofs.Playback.Frames

/-!
# What may be grabbed

A press of the pointer grabs an idle pet if all that plays lets itself be dragged, and leaves it as it is if some of it
does not (`presses_spare_undraggable`). What plays is the action and the leaf whose frames are shown. Only the action is
asked, so the rule has an exception: a child that does not let itself be dragged, in a sequence that does. That there
are no others is the invariant `Player.Rooted`: whatever has been done with a player, its leaf is its action, or the
action is a sequence.
-/

namespace DesktopPet

open Condition (Predicate)

/-! ## The leaf and the action -/

namespace Player

/-- The leaf of a player is its action, or the action is a sequence. -/
inductive Rooted (c : Catalog) (p : Player) : Prop where
  | stopped (cursor : p.cursor = .stopped) : Rooted c p
  | single (leaf : LeafCursor) (cursor : p.cursor = .single leaf) (own : p.action = some leaf.action) : Rooted c p
  | sequence (leaves : List Nat) (position : Nat) (leaf : LeafCursor) (index : Nat) (action : Action)
      (cursor : p.cursor = .sequence leaves position leaf) (started : p.action = some index)
      (found : c.action? index = some action) (kind : action.kind = .sequence) : Rooted c p

variable {σ : Type} {c : Catalog} {p q : Player}

/-- What is over is as rooted as it was before. -/
theorem Rooted.over (rooted : p.Rooted c) : Rooted c { p with finished := true } := by
  cases rooted with
  | stopped cursor => exact .stopped cursor
  | single leaf cursor own => exact .single leaf cursor own
  | sequence leaves position leaf index action cursor started found kind =>
    exact .sequence leaves position leaf index action cursor started found kind

theorem start_rooted (index : Nat) : Rooted c (start index c) := by
  rw [start]
  split
  · exact .stopped rfl
  next action found =>
    split
    next kind =>
      split
      · exact .stopped rfl
      next first others _ => exact .sequence (first :: others) 0 { action := first } index action rfl rfl found kind
    · exact .single { action := index } rfl rfl

/-- An advance goes on in the leaf of its own action, or in some leaf of the same sequence. -/
theorem advance_rooted (rooted : p.Rooted c) (ask : Predicate → StateM σ Bool) (dt : Float32) (s : σ) :
    Rooted c (p.advance c ask dt s).1.2.2 := by
  rcases advance_cases p c ask dt s with ⟨_, same⟩ | ⟨_, _, _, _, same⟩ | ⟨_, playing, _, _, _, same⟩
  · rw [same]
    exact rooted
  · rw [same]
    exact rooted.over
  · rw [same]
    cases rooted with
    | stopped cursor =>
      rw [advanceAction_stopped p c playing ask dt s cursor]
      exact .stopped cursor
    | single leaf cursor own =>
      rw [advanceAction_single p c playing ask dt s leaf cursor]
      refine .single _ (conclude_cursor _ _ _) ?_
      rw [conclude_action, leaf_step_action]
      exact own
    | sequence leaves position leaf index action cursor started found kind =>
      -- the leaf may be another one now, the action is still the sequence
      rw [advanceAction_sequence p c playing ask dt s leaves position leaf cursor]
      refine .sequence leaves _ _ index action (conclude_cursor _ _ _) ?_ found kind
      rw [conclude_action]
      exact started

theorem step_rooted (rooted : p.Rooted c) (step : Step c p q) : q.Rooted c := by
  cases step with
  | start index => exact start_rooted index
  | stop => exact .stopped rfl
  | advance ask s dt => exact advance_rooted rooted ask dt s

/-- Every player that operations lead to is rooted. -/
theorem reachable_rooted (reached : Reachable c p) : p.Rooted c := by
  induction reached with
  | refl => exact .stopped rfl
  | tail _ step rooted => exact step_rooted rooted step

end Player

namespace Pet

variable {p q : Pet}

/-! ## Players of pets -/

/-- Operations have led to the player. -/
def HasReachablePlayer (p : Pet) : Prop :=
  Player.Reachable p.catalog p.player

theorem lockBehavior_player (role : Option Nat) (before : p.HasReachablePlayer) :
    (p.lockBehavior role).HasReachablePlayer := by
  rcases lockBehavior_cases p role with ⟨_, same⟩ | ⟨index, found, _, _, same⟩
  · rw [same]
    exact before
  · rw [same]
    exact before.tail (.start found.action)

theorem startBehavior_player (index : Nat) (before : p.HasReachablePlayer) :
    (p.startBehavior index).HasReachablePlayer := by
  change Player.Reachable p.catalog (p.catalog.playerOf (p.catalog.orDefault index))
  rw [Catalog.playerOf]
  cases p.catalog.behavior? (p.catalog.orDefault index) with
  | some found => exact before.tail (.start found.action)
  | none => exact before.tail .stop

theorem EventEffect.reachablePlayer {event : PointerEvent} (effect : p.EventEffect event q)
    (before : p.HasReachablePlayer) : q.HasReachablePlayer := by
  cases effect with
  | grabbed drag body idle pressed => exact lockBehavior_player _ before
  | thrown drag body facing dragged released => exact lockBehavior_player _ before
  | _ => exact before

theorem Selection.reachablePlayer {area : Area} (selection : p.Selection area q) (before : p.HasReachablePlayer) :
    q.HasReachablePlayer := by
  cases selection with
  | triggered name idle asked => exact startBehavior_player _ before
  | chosen reason idle unasked wants another => exact startBehavior_player _ before
  | _ => exact before

/-- Pets only start, stop and advance their players. -/
theorem reachablePlayer_lasting : Lasting HasReachablePlayer where
  frame := fun _ _ _ _ _ before => before
  event := fun _ _ _ effect before => effect.reachablePlayer before
  selection := fun _ _ _ selection before => selection.reachablePlayer before
  playback := fun _ _ before => before.tail (.advance _ _ _)
  motion := fun _ _ motion before => by cases motion <;> exact before

/-! ## The press -/

/-- The actions that play: the one that was started, and the leaf whose frames are shown. -/
def playing (p : Pet) : List Action :=
  [p.player.action, p.player.leafAction?].filterMap fun index => index.bind p.catalog.action?

/-- A sequence that lets itself be dragged has come to a child that does not. -/
def inFixedChild (p : Pet) : Bool :=
  (p.player.action.bind p.catalog.action?).any (fun action => action.kind = .sequence && action.draggable) &&
    (p.player.leafAction?.bind p.catalog.action?).any fun child => !child.draggable

/-- What the press of the pointer makes of an idle pet. -/
structure Pressed (p : Pet) (pointer : Vector2) (time : Float) (q : Pet) : Prop where
  /-- An action that does not let itself be dragged keeps the pet as it is. -/
  ignored : (∃ a ∈ p.playing, a.draggable = false) → q = p
  /-- Otherwise the pet is held, at rest where it is. -/
  grabbed : (∀ a ∈ p.playing, a.draggable = true) →
    (p.grab pointer time).Holds q ∧ q.body = { p.body with velocity := .zero }

private theorem mem_playing (a : Action) : a ∈ p.playing ↔
    p.player.action.bind p.catalog.action? = some a ∨ p.player.leafAction?.bind p.catalog.action? = some a := by
  simp [playing]

/-- The leaf lets itself be dragged if the action does, but for the exception. -/
theorem leaf_draggable (rooted : p.player.Rooted p.catalog) (draggable : p.isDraggable = true)
    (regular : p.inFixedChild = false) (leaf : Action)
    (shown : p.player.leafAction?.bind p.catalog.action? = some leaf) : leaf.draggable = true := by
  cases rooted with
  | stopped cursor => simp [Player.leafAction?, Player.leaf?, cursor] at shown
  | single cursor there own =>
    have same : p.player.leafAction? = p.player.action := by simp [Player.leafAction?, Player.leaf?, there, own]
    rw [same] at shown
    simpa [isDraggable, shown] using draggable
  | sequence leaves position cursor index action there started found kind =>
    have asked : p.player.action.bind p.catalog.action? = some action := by rw [started]; exact found
    have lets : action.draggable = true := by simpa [isDraggable, asked] using draggable
    simpa [inFixedChild, asked, shown, kind, lets] using regular

/-- A pet lets itself be dragged exactly if all that plays does, but for the exception. -/
theorem isDraggable_iff (rooted : p.player.Rooted p.catalog) (regular : p.inFixedChild = false) :
    p.isDraggable = true ↔ ∀ a ∈ p.playing, a.draggable = true := by
  constructor
  · intro draggable a plays
    rcases (mem_playing a).mp plays with started | shown
    · simpa [isDraggable, started] using draggable
    · exact leaf_draggable rooted draggable regular a shown
  · intro all
    rw [isDraggable]
    cases started : p.player.action.bind p.catalog.action? with
    | none => rfl
    | some a => exact all a ((mem_playing a).mpr (Or.inl started))

private theorem pressed_pointerDown (rooted : p.player.Rooted p.catalog) (regular : p.inFixedChild = false)
    (idle : p.interaction = .idle) (pointer : Vector2) (time : Float) :
    p.Pressed pointer time (p.pointerDown pointer time) where
  ignored := by
    rintro ⟨a, plays, fixed⟩
    have stays : p.isDraggable = false := by
      rw [Bool.eq_false_iff]
      intro draggable
      rw [(isDraggable_iff rooted regular).mp draggable a plays] at fixed
      cases fixed
    simp [pointerDown, stays]
  grabbed := fun all => Grab.holds_of_press idle ((isDraggable_iff rooted regular).mpr all) pointer time

end Pet

/-- Wherever a press of the pointer stands among the events of a tick: an idle pet stays as it is if an action that
plays does not let itself be dragged, and is held otherwise. The child of a sequence that lets itself be dragged is
exempt. -/
theorem presses_spare_undraggable (p pressed : Pet) (scene : Scene) (before after : List PointerEvent)
    (pointer : Vector2) (time : Float) (reached : Player.Reachable p.catalog p.player)
    (queue : p.events = before ++ .down pointer time :: after)
    (met : before.foldlM (fun p event => p.applyEvent? scene event) { p with events := [] } = some pressed)
    (idle : pressed.interaction = .idle) :
    ∃ q, pressed.applyEvent? scene (.down pointer time) = some q ∧
      p.applyPointer? scene = after.foldlM (fun p event => p.applyEvent? scene event) q ∧
      (pressed.inFixedChild = false → pressed.Pressed pointer time q) := by
  have later : Player.Reachable pressed.catalog pressed.player :=
    Pet.reachablePlayer_lasting.events scene before met reached
  refine ⟨_, rfl, ?_, fun regular => Pet.pressed_pointerDown (Player.reachable_rooted later) regular idle _ _⟩
  rw [Pet.applyPointer?, queue, List.foldlM_append, met, Option.bind_eq_bind, Option.bind_some, List.foldlM_cons]
  rfl

/-- A tour that may or may not be dragged, past a statue that may not. -/
def paradePack (draggable : Bool) : PackSpec :=
  { name := "parade"
    defaultBehavior := "tour"
    actions :=
      [{ name := "statue", kind := "Stay", draggable := false, animations := [{ frames := [{}] }] },
       { name := "tour", kind := "Sequence", draggable, references := ["statue"] }]
    behaviors := [{ name := "tour" }] }

/-- A pet on its tour that is pressed between two moves of the pointer. -/
def paradePet (c : Catalog) : Pet :=
  { groundedPet c { current := some 0, selections := 1 } (Player.start 1 c) 7 with
    events := [.move ⟨405.0, 850.0⟩ 0.0, .down ⟨410.0, 850.0⟩ 0.1, .move ⟨500.0, 500.0⟩ 0.2] }

def paradeScene : Scene :=
  { area := .standard, settings := {}, delta := 0.05 }

/-- A tour that may not be dragged itself. -/
theorem presses_spare_undraggable_parade :
    ∃ c issues, (paradePack false).compile = .ok (c, issues) ∧ Player.Reachable c (paradePet c).player ∧
      (∃ a ∈ (paradePet c).playing, a.draggable = false) ∧
      ∃ q, (paradePet c).applyPointer? paradeScene = some q ∧ q.interaction = .idle := by
  have compiles : ∃ c issues, (paradePack false).compile = .ok (c, issues) ∧
      (paradePet c).playing.any (!·.draggable) = true ∧ (paradePet c).inFixedChild = false :=
    ⟨_, _, rfl, by decide +kernel, by decide +kernel⟩
  obtain ⟨c, issues, compiled, fixed, regular⟩ := compiles
  have reached : Player.Reachable c (paradePet c).player := .single (.start 1)
  have stands : ∃ a ∈ (paradePet c).playing, a.draggable = false := by simpa using fixed
  obtain ⟨q, _, goes, spared⟩ :=
    presses_spare_undraggable (paradePet c) { paradePet c with events := [] } paradeScene
      [.move ⟨405.0, 850.0⟩ 0.0] [.move ⟨500.0, 500.0⟩ 0.2] ⟨410.0, 850.0⟩ 0.1 reached rfl rfl rfl
  have same : q = { paradePet c with events := [] } := (spared regular).ignored stands
  rw [same] at goes
  exact ⟨c, issues, compiled, reached, stands, _, goes, rfl⟩

/-- A tour that may be dragged takes the statue along. -/
theorem fixed_child_grabbed :
    ∃ c issues, (paradePack true).compile = .ok (c, issues) ∧ Player.Reachable c (paradePet c).player ∧
      (paradePet c).interaction = .idle ∧
      ((paradePet c).player.leafAction?.bind c.action?).map (·.draggable) = some false ∧
      ((paradePet c).applyPointer? paradeScene).map (·.interaction.mode) = some .dragging :=
  ⟨_, _, rfl, .single (.start 1), rfl, by decide +kernel, by decide +kernel⟩

end DesktopPet

import DesktopPet.Proofs.Playback.Sequence

/-!
# The end of an action

Whether an action is over is said twice: by the answer of the advance that ends it, and by a mark on the player that
keeps all later advances from doing anything. Both always agree (`advance_ends`), and neither an action by itself nor
a sequence outlasts its time cap (`endings_are_final`): as long as a player goes on, it has counted all the time since
its start.
-/

namespace DesktopPet

open Condition (Predicate)

/-- The times of some advances, added up from the first one on. -/
def timeOf (calls : List Advance) : Float32 :=
  (calls.map (·.dt)).foldl (· + ·) 0.0

section Advances

variable {σ : Type} (c : Catalog) (action : Action) {p : Player}

/-- An advance of an action that goes on says whether it ends, takes the time into account, and ends at the cap. -/
theorem advanceAction_ends (going : p.finished = false) (ask : Predicate → StateM σ Bool) (dt : Float32) (s : σ) :
    let out := (p.advanceAction c action ask dt s).1
    (out.1 = .completedTerminal ↔ out.2.2.finished = true) ∧ out.2.2.elapsed = p.elapsed + dt ∧
      (action.duration.any (· ≤ p.elapsed + dt) = true → out.2.2.finished = true) := by
  have concluded (after : Player) (result : PlayResult) (start : after.finished = false)
      (time : after.elapsed = p.elapsed + dt) :
      let out := (after.finishIf result).applyCap action.duration result
      (out.1 = .completedTerminal ↔ out.2.finished = true) ∧ out.2.elapsed = p.elapsed + dt ∧
        (action.duration.any (· ≤ p.elapsed + dt) = true → out.2.finished = true) := by
    obtain ⟨kept, ends, answered⟩ := conclude_spec after action.duration result
    refine ⟨answered start, by rw [kept]; exact time, fun capped => ends.mpr (Or.inr (Or.inr ?_))⟩
    rw [time]
    exact capped
  cases placed : p.cursor with
  | stopped =>
    rw [advanceAction_stopped p c action ask dt s placed]
    simp
  | single leaf =>
    rw [advanceAction_single p c action ask dt s leaf placed]
    exact concluded _ _ going rfl
  | sequence leaves position leaf =>
    rw [advanceAction_sequence p c action ask dt s leaves position leaf placed]
    exact concluded _ _ going rfl

/-- The answer of an advance and the player after it agree on whether the action is over. -/
theorem advance_ends (started : p.action.isSome = true) (ask : Predicate → StateM σ Bool) (dt : Float32) (s : σ) :
    (p.advance c ask dt s).1.1 = .completedTerminal ↔ (p.advance c ask dt s).1.2.2.finished = true := by
  rcases advance_cases p c ask dt s with ⟨done, same⟩ | ⟨_, _, _, _, same⟩ | ⟨_, action, _, going, _, same⟩
  · have ended : p.finished = true := by
      rcases done with idle | ended
      · rw [idle] at started
        cases started
      · exact ended
    simp [same, ended]
  · simp [same]
  · rw [same]
    exact (advanceAction_ends c action going ask dt s).1

end Advances

/-! ## Runs -/

section Runs

variable {c : Catalog} {index : Nat} {action : Action}

/-- A player that is over stays over, whatever is still called. -/
theorem play_over (calls : List Advance) (lap : Nat) (p : Player) (ended : p.finished = true) :
    ∀ played ∈ c.play p lap calls, played.after.finished = true := by
  induction calls generalizing lap with
  | nil => simp [Catalog.play]
  | cons a rest ih =>
    have same := (play_finished a c lap p ended).2.2
    intro played member
    rcases List.mem_cons.mp member with rfl | later
    · rw [same, ended]
    · rw [same] at later
      exact ih _ played later

/-- A run ends no later than the time it has taken reaches the cap. The induction is on the advances: the player is
over, or it has counted all the time so far. -/
theorem play_capped {cap : Float32} (found : c.action? index = some action) (capped : action.duration = some cap)
    (calls : List Advance) (lap : Nat) (p : Player) (time : Float32) (started : p.action = some index)
    (counted : p.finished = true ∨ p.elapsed = time) (k j : Nat) (early : j ≤ k) (played : Played)
    (there : (c.play p lap calls)[k]? = some played)
    (reached : cap ≤ ((calls.take (j + 1)).map (·.dt)).foldl (· + ·) time) : played.after.finished = true := by
  induction calls generalizing lap p time k j with
  | nil => simp [Catalog.play] at there
  | cons a rest ih =>
    have onward : (a.play c lap p).after.finished = true ∨
        (a.play c lap p).after.elapsed = time + a.dt ∧ ¬ cap ≤ time + a.dt := by
      rcases counted with ended | counted
      · exact Or.inl (by rw [(play_finished a c lap p ended).2.2, ended])
      · cases going : p.finished with
        | true => exact Or.inl (by rw [(play_finished a c lap p going).2.2, going])
        | false =>
          have advanced := advance_going p c action a.ask a.dt a.state started going found
          obtain ⟨_, elapsed, ends⟩ := advanceAction_ends c action going a.ask a.dt a.state
          rw [Advance.play, advanced]
          rw [counted] at elapsed ends
          by_cases reached : cap ≤ time + a.dt
          · exact Or.inl (ends (by simpa [capped] using reached))
          · exact Or.inr ⟨elapsed, reached⟩
    have started' : (a.play c lap p).after.action = some index :=
      (advance_action p c a.ask a.dt a.state).trans started
    rcases onward with ended | ⟨elapsed, below⟩
    · have all := play_over (c := c) rest (lapAfter lap (a.play c lap p).turns) _ ended
      cases k with
      | zero =>
        obtain rfl := Option.some.inj there
        exact ended
      | succ k => exact all played (List.mem_of_getElem? there)
    · cases j with
      | zero => exact absurd reached below
      | succ j =>
        obtain ⟨k, rfl⟩ : ∃ k', k = k' + 1 := ⟨k - 1, by omega⟩
        exact ih _ _ (time + a.dt) started' (Or.inr elapsed) k j (by omega) there reached

end Runs

/-- The answer of an advance says that the action is over exactly if the player is over then. A player that is over
stays as it is through every further advance, which asks nothing, gives rise to nothing and says again that the action
is over. And once an advance brings the time since the start to the cap of the action, the player is over from that
advance on. -/
theorem endings_are_final (c : Catalog) :
    (∀ p, Player.Reachable c p → p.action.isSome = true →
      ∀ {σ : Type} (ask : Predicate → StateM σ Bool) (dt : Float32) (s : σ),
        (p.advance c ask dt s).1.1 = .completedTerminal ↔ (p.advance c ask dt s).1.2.2.finished = true) ∧
    (∀ p, Player.Reachable c p → p.finished = true →
      ∀ {σ : Type} (ask : Predicate → StateM σ Bool) (dt : Float32) (s : σ),
        p.advance c ask dt s = ((.completedTerminal, {}, p), s)) ∧
    ∀ index action cap, c.action? index = some action → action.duration = some cap →
      ∀ (calls : List Advance) (k : Nat) (played : Played),
        (c.play (Player.start index c) 0 calls)[k]? = some played →
        (∃ j ≤ k, cap ≤ timeOf (calls.take (j + 1))) → played.after.finished = true := by
  refine ⟨fun p _ started σ ask dt s => advance_ends c started ask dt s,
    fun p _ ended σ ask dt s => advance_over p c ask dt s ended, ?_⟩
  rintro index action cap found capped calls k played there ⟨j, early, reached⟩
  have start : (Player.start index c).finished = true ∨ (Player.start index c).elapsed = 0.0 := by
    unfold Player.start
    split
    · exact Or.inl rfl
    · split
      · split
        · exact Or.inl rfl
        · exact Or.inr rfl
      · exact Or.inr rfl
  exact play_capped found capped calls 0 _ 0.0 (start_action index c) start k j early played there reached

/-- A spin that repeats for a second, as long as its condition holds. -/
def carousel : Catalog :=
  let frame : Frame :=
    { image := none, duration := 0.25, velocity := .zero, anchor := .zero, sound := none, volume := 1.0 }
  let spin : Action :=
    { name := "spin", kind := .stay, footing := none
      blocks := [{ condition := some (.never "onFloor"), priority := 0, frames := [frame] }]
      defaultBlock := none, references := [], looping := false, draggable := true, duration := none
      embedded := [] }
  let round : Action :=
    { spin with
      name := "round", kind := .sequence, blocks := [], references := [0], looping := true
      duration := some 1.0 }
  { name := "carousel", actions := [spin, round], behaviors := [], defaultBehavior := 0
    draggedBehavior := none, thrownBehavior := none }

/-- A spin, a gap, and a spin that starts another round in the moment in which the second is over. -/
def carouselCalls : List Advance :=
  [(0.25, true), (0.5, false), (0.25, true)].map fun (dt, holds) =>
    { State := Unit, ask := fun _ => pure holds, state := (), dt }

/-- The player after these. -/
def carouselPlayer : Player :=
  carouselCalls.foldl (fun p a => (p.advance carousel a.ask a.dt a.state).1.2.2) (Player.start 1 carousel)

private theorem carouselPlayer_reachable : Player.Reachable carousel carouselPlayer :=
  (((Relation.ReflTransGen.single (.start 1)).tail (.advance (fun _ => pure true) () 0.25)).tail
    (.advance (fun _ => pure false) () 0.5)).tail (.advance (fun _ => pure true) () 0.25)

theorem endings_are_final_carousel :
    (carousel.play (Player.start 1 carousel) 0 carouselCalls).map (·.result) =
        [.completedLooping, .playing, .completedTerminal] ∧
      (∃ played, (carousel.play (Player.start 1 carousel) 0 carouselCalls)[2]? = some played ∧
        played.after.finished = true) ∧
      ((carouselPlayer.advance carousel (fun _ => pure true) 0.25 ()).1.1 = .completedTerminal ↔
        (carouselPlayer.advance carousel (fun _ => pure true) 0.25 ()).1.2.2.finished = true) ∧
      carouselPlayer.advance carousel (fun _ (asked : Nat) => (true, asked + 1)) 0.25 0 =
        ((.completedTerminal, {}, carouselPlayer), 0) := by
  obtain ⟨agrees, stays, ends⟩ := endings_are_final carousel
  refine ⟨by decide +kernel, ⟨_, rfl, ?_⟩, ?_, ?_⟩
  · exact ends 1 _ 1.0 rfl rfl carouselCalls 2 _ rfl ⟨2, Nat.le_refl 2, by decide +kernel⟩
  · exact agrees carouselPlayer carouselPlayer_reachable (by decide +kernel) _ 0.25 ()
  · exact stays carouselPlayer carouselPlayer_reachable (by decide +kernel) _ 0.25 0

end DesktopPet

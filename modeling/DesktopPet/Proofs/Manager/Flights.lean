import DesktopPet.Proofs.Manager.Staging
import DesktopPet.Proofs.Manager.Throws
import DesktopPet.Proofs.Motion.Congruence
import DesktopPet.Proofs.Pet.Requests

/-!
# Flights end in time

The timer of a thrown pet counts the seconds since its release and nothing sets it back, until the throw ends and the
pet is at rest (`throws_within_cap`). Of all that happens to a pet only motion touches the timer (`Pet.meet_thrown`);
from this follows what a whole tick does to it (`Pet.thrown_happenings`, `Manager.tick_thrown`), and from that, by
induction on the calls, what a run does (`Manager.run_thrown`).
-/

namespace DesktopPet

/-- The seconds by which a happening moves a pet on. -/
def Happening.motionTime? : Happening → Option Float32
  | .motion scene => some scene.delta
  | _ => none

/-- A part of a tick behind motion; it renews the contact or the picture and nothing else. -/
def Happening.isQuiet : Happening → Bool
  | .contact _ => true
  | .picture => true
  | _ => false

namespace Pet

/-- At rest, as a throw leaves a pet: idle, without velocity, and about to get a new behavior. -/
structure Rests (p : Pet) : Prop where
  idle : p.interaction = .idle
  still : p.body.velocity = .zero
  asks : p.behavior.reselect.isSome = true

variable {p q : Pet} {scene : Scene} {timer : Float32}

/-! ## One happening -/

/-- A thrown pet flies on, within the cap, or comes to rest. -/
theorem move_thrown (moved : p.move? scene = some q) (flying : p.interaction = .thrown timer) :
    q.interaction = .thrown (timer + scene.delta) ∧
        ¬ scene.settings.throwing.throwDuration ≤ timer + scene.delta ∨ q.Rests := by
  rw [move?, flying] at moved
  obtain ⟨⟨outcome, flight⟩, stepped, same⟩ := Option.bind_eq_some_iff.mp moved
  rw [Flight.step?_parts] at stepped
  obtain ⟨place, _, parts⟩ := Option.bind_eq_some_iff.mp stepped
  obtain ⟨rfl, rfl⟩ := Prod.mk.inj (Option.some.inj parts)
  dsimp only at same
  split at same
  next goes =>
    refine .inl ?_
    cases Option.some.inj same
    refine ⟨rfl, fun late => ?_⟩
    rw [Flight.outcome, if_pos late] at goes
    cases goes
  · cases Option.some.inj same
    exact .inr ⟨by rw [flying]; rfl, rfl, BehaviorState.request_isSome _ _⟩

private theorem selected_interaction {chosen : Pet} (selection : p.selected? scene = some chosen) :
    (chosen.play scene).1.interaction = p.interaction := by
  obtain ⟨_, _, _, picked⟩ := selectBehavior?_effect (p.refreshContact scene) chosen scene.area selection
  obtain ⟨_, _, _, played⟩ := play_effect chosen scene
  rw [played, picked]
  rfl

private theorem meet_interaction {h : Happening} (met : p.meet? h = some q) (calm : h.stirs = false) :
    q.interaction = p.interaction :=
  (meet_calm met calm).1

/-- What a thrown pet meets leaves its timer, or it is motion, and then time passes for it or the throw ends. -/
theorem meet_thrown {h : Happening} (met : p.meet? h = some q) (flying : p.interaction = .thrown timer) :
    q.interaction = .thrown (h.motionTime?.elim timer (timer + ·)) ∨ h.motionTime?.isSome = true ∧ q.Rests := by
  cases h with
  | event scene event =>
    rcases (applyEvent_cases p q scene event met).undragged (by rw [flying]; nofun) with rfl | ⟨idle, _⟩
    · exact .inl flying
    · rw [flying] at idle
      cases idle
  | motion scene =>
    rcases move_thrown met flying with ⟨flown, _⟩ | rests
    · exact .inl flown
    · exact .inr ⟨rfl, rests⟩
  | _ => exact .inl ((meet_interaction met rfl).trans flying)

/-- A pet comes to be thrown by a release out of a drag, and then its timer is at zero. -/
theorem meet_throws {h : Happening} (met : p.meet? h = some q) (flying : q.interaction = .thrown timer) :
    (∃ before, p.interaction = .thrown before) ∨ timer = 0.0 ∧ p.interaction.mode = .dragging ∧
      ∃ scene position time, h = .event scene (.up position time) := by
  cases h with
  | event scene event =>
    have lock (p : Pet) (role : Option Nat) (start : (p.lockBehavior role).interaction = .thrown timer) :
        p.interaction = .thrown timer := (lockBehavior_interaction p role).symm.trans start
    cases applyEvent_cases p q scene event met with
    | ignored => exact .inl ⟨timer, flying⟩
    | grabbed drag body idle pressed => cases lock _ _ flying
    | carried before drag body dragged => cases flying
    | thrown drag body facing dragged released =>
      obtain ⟨position, time, rfl⟩ := released
      cases lock _ _ flying
      exact .inr ⟨rfl, by rw [dragged]; rfl, scene, position, time, rfl⟩
    | dropped drag body dragged released => cases flying
  | motion scene =>
    cases move_cases p q scene met with
    | walked facing body idle => exact nomatch idle.symm.trans flying
    | held drag dragged => exact nomatch dragged.symm.trans flying
    | flown before later facing body was => exact .inl ⟨before, was⟩
    | landed before facing body was => cases flying
  | _ => exact .inl ⟨timer, (meet_interaction met rfl).symm.trans flying⟩

theorem Rests.meet {h : Happening} (rests : p.Rests) (met : p.meet? h = some q) (quiet : h.isQuiet = true) :
    q.Rests := by
  cases h with
  | contact scene =>
    cases Option.some.inj met
    exact ⟨rests.idle, rests.still, rests.asks⟩
  | picture =>
    obtain ⟨_, drawn⟩ := draw_effect p
    cases Option.some.inj met
    rw [drawn]
    exact ⟨rests.idle, rests.still, rests.asks⟩
  | share _ => cases quiet
  | event _ _ => cases quiet
  | selection _ => cases quiet
  | playback _ => cases quiet
  | motion _ => cases quiet

/-! ## All that happens -/

theorem Rests.happenings {hs : List Happening} (rests : p.Rests) (met : hs.foldlM meet? p = some q)
    (quiet : ∀ h ∈ hs, h.isQuiet = true) : q.Rests := by
  induction hs generalizing p with
  | nil =>
    cases Option.some.inj met
    exact rests
  | cons h rest ih =>
    rw [List.foldlM_cons] at met
    obtain ⟨middle, first, later⟩ := Option.bind_eq_some_iff.mp met
    exact ih (rests.meet first (quiet h List.mem_cons_self)) later fun other member =>
      quiet other (List.mem_cons_of_mem _ member)

/-- As long as a thrown pet is not at rest, its timer has taken the time of its motions, one after another. -/
theorem thrown_happenings {hs : List Happening} (met : hs.foldlM meet? p = some q)
    (flying : p.interaction = .thrown timer)
    (quiet : hs.Pairwise fun h h' => h.motionTime?.isSome = true → h'.isQuiet = true) :
    q.interaction = .thrown ((hs.filterMap Happening.motionTime?).foldl (· + ·) timer) ∨ q.Rests := by
  induction hs generalizing p timer with
  | nil =>
    cases Option.some.inj met
    exact .inl flying
  | cons h rest ih =>
    rw [List.foldlM_cons] at met
    obtain ⟨middle, first, later⟩ := Option.bind_eq_some_iff.mp met
    obtain ⟨behind, quiet⟩ := List.pairwise_cons.mp quiet
    rcases meet_thrown first flying with flown | ⟨moves, rests⟩
    · have goes := ih later flown quiet
      cases time : h.motionTime? with
      | none => simpa [time] using goes
      | some seconds => simpa [time] using goes
    · exact .inr (rests.happenings later fun other member => behind other member moves)

/-- A pet that is thrown in the end was thrown before, or it has been released since. -/
theorem happenings_throw {hs : List Happening} (met : hs.foldlM meet? p = some q)
    (flying : q.interaction = .thrown timer) (unmoved : ∀ h ∈ hs, h.motionTime? = none) :
    p.interaction = .thrown timer ∨ timer = 0.0 ∧ ∃ soFar scene position time rest dragged thrown,
      hs = soFar ++ .event scene (.up position time) :: rest ∧ soFar.foldlM meet? p = some dragged ∧
        dragged.interaction.mode = .dragging ∧ dragged.applyEvent? scene (.up position time) = some thrown ∧
          thrown.interaction = .thrown 0.0 := by
  induction hs generalizing p with
  | nil =>
    cases Option.some.inj met
    exact .inl flying
  | cons h rest ih =>
    rw [List.foldlM_cons] at met
    obtain ⟨middle, first, later⟩ := Option.bind_eq_some_iff.mp met
    rcases ih later fun other member => unmoved other (List.mem_cons_of_mem _ member) with
      thrown | ⟨zero, soFar, scene, position, time, others, dragged, released, rfl, leads, throw⟩
    · rcases meet_throws first thrown with ⟨before, was⟩ | ⟨rfl, dragged, scene, position, time, rfl⟩
      · rcases meet_thrown first was with same | ⟨moves, _⟩
        · rw [unmoved h List.mem_cons_self] at same
          cases same.symm.trans thrown
          exact .inl was
        · rw [unmoved h List.mem_cons_self] at moves
          cases moves
      · exact .inr ⟨rfl, [], scene, position, time, rest, p, middle, rfl, rfl, dragged, first, thrown⟩
    · refine .inr ⟨zero, h :: soFar, scene, position, time, others, dragged, released, rfl, ?_, throw⟩
      rw [List.foldlM_cons, first]
      exact leads

/-- In the parts of a tick behind the pointer a pet that stays thrown stays within the cap. -/
theorem parts_thrown (met : (Happening.parts scene).foldlM meet? p = some q) (flying : q.interaction = .thrown timer) :
    ∃ before, p.interaction = .thrown before ∧ timer = before + scene.delta ∧
      ¬ scene.settings.throwing.throwDuration ≤ timer := by
  rw [parts_happen] at met
  obtain ⟨chosen, selection, met⟩ := Option.bind_eq_some_iff.mp met
  obtain ⟨moved, motion, rfl⟩ := Option.map_eq_some_iff.mp met
  obtain ⟨_, drawn⟩ := draw_effect (moved.refreshContact scene)
  have stays : moved.interaction = .thrown timer := by
    rw [drawn] at flying
    exact flying
  have start := selected_interaction selection
  rcases meet_throws (h := .motion scene) motion stays with ⟨before, was⟩ | ⟨_, _, _, _, _, event⟩
  · rcases move_thrown motion was with ⟨flown, within⟩ | rests
    · cases flown.symm.trans stays
      exact ⟨before, start.symm.trans was, rfl, within⟩
    · exact nomatch rests.idle.symm.trans stays
  · cases event

theorem pointer_unmoved (p : Pet) (commands : List Command) (scene : Scene) :
    ∀ h ∈ Happening.share commands :: (p.withShare commands).events.map (.event scene), h.motionTime? = none := by
  intro h member
  rcases List.mem_cons.mp member with rfl | event
  · rfl
  · obtain ⟨_, _, rfl⟩ := List.mem_map.mp event
    rfl

/-- Motion is the last part of a tick that can stir a pet, and there is one. -/
theorem happenings_quiet (p : Pet) (commands : List Command) (scene : Scene) :
    (p.happenings commands scene).Pairwise fun h h' => h.motionTime?.isSome = true → h'.isQuiet = true := by
  have parts : (Happening.parts scene).Pairwise fun h h' => h.motionTime?.isSome = true → h'.isQuiet = true := by
    simp [Happening.parts, Happening.motionTime?, Happening.isQuiet]
  refine List.pairwise_append.mpr ⟨List.pairwise_of_forall_mem_list fun h here _ _ moves => ?_, parts,
    fun h here _ _ moves => ?_⟩
  · rw [pointer_unmoved p commands scene h here] at moves
    cases moves
  · rw [pointer_unmoved p commands scene h here] at moves
    cases moves

end Pet

namespace Manager

variable {m after : Manager} {id : PetId} {p q : Pet} {timer : Float32}

/-! ## Ticks -/

/-- In this tick the pet is released out of a drag and thrown. -/
def ThrowsIn (m : Manager) (id : PetId) (dt : Float32) : Prop :=
  ∃ p soFar scene position time rest dragged thrown, m.pet? id = some p ∧
    m.happeningsDuring id (.tick dt) = soFar ++ .event scene (.up position time) :: rest ∧
    soFar.foldlM Pet.meet? p = some dragged ∧ dragged.interaction.mode = .dragging ∧
    dragged.applyEvent? scene (.up position time) = some thrown ∧ thrown.interaction = .thrown 0.0

/-- A pet that is thrown at the end of a tick has flown through it, or it has been thrown in it; and it is within the
cap of the settings in force. -/
theorem tick_thrown {dt : Float32} {report : Report} (ticked : m.tick? dt = some (after, report))
    (there : after.pet? id = some q) (flying : q.interaction = .thrown timer) :
    ¬ after.settings.throwing.throwDuration ≤ timer ∧
      ((∃ p before, m.pet? id = some p ∧ p.interaction = .thrown before ∧
          timer = before + (m.prepare dt).scene.delta) ∨
        m.ThrowsIn id dt ∧ timer = 0.0 + (m.prepare dt).scene.delta) := by
  rcases tick_pet m after dt report id ticked with ⟨_, absent⟩ | ⟨p, _, _, was, present, stepped⟩
  · exact nomatch absent.symm.trans there
  cases Option.some.inj (present.symm.trans there)
  have met := Pet.step_happenings p q _ _ _ stepped
  rw [Pet.happenings, List.foldlM_append] at met
  obtain ⟨handled, pointed, motion⟩ := Option.bind_eq_some_iff.mp met
  obtain ⟨before, thrown, timed, within⟩ := Pet.parts_thrown motion flying
  have settings : after.settings = (m.prepare dt).scene.settings := by rw [(tick_pets m after dt report ticked).1]; rfl
  refine ⟨by rw [settings]; exact within, ?_⟩
  rcases Pet.happenings_throw pointed thrown (Pet.pointer_unmoved p _ _) with
    flown | ⟨rfl, soFar, scene, position, time, rest, dragged, released, split, leads, holds, throw⟩
  · exact .inl ⟨p, before, was, flown, timed⟩
  · refine .inr ⟨⟨p, soFar, scene, position, time, rest ++ Happening.parts (m.prepare dt).scene, dragged, released, was,
      ?_, leads, holds, throw⟩, timed⟩
    rw [happeningsDuring, was]
    dsimp only
    rw [Pet.happenings, split, List.append_assoc, List.cons_append]

/-- A pet that is thrown at some moment of a tick is so at the end, and only the time of the tick has come to its
timer; or its throw has ended, and it is at rest. -/
theorem tick_ends {dt : Float32} {report : Report} (ticked : m.tick? dt = some (after, report))
    (before : m.pet? id = some p) (there : after.pet? id = some q) {soFar rest : List Happening} {flying : Pet}
    (split : m.happeningsDuring id (.tick dt) = soFar ++ rest) (leads : soFar.foldlM Pet.meet? p = some flying)
    (thrown : flying.interaction = .thrown timer) :
    q.interaction = .thrown ((rest.filterMap Happening.motionTime?).foldl (· + ·) timer) ∨ q.Rests := by
  have met := tick_happens ticked before there
  rw [split, List.foldlM_append, leads] at met
  have quiet := Pet.happenings_quiet p m.channel.waiting (m.prepare dt).scene
  rw [happeningsDuring, before] at split
  dsimp only at split
  rw [split] at quiet
  exact Pet.thrown_happenings met thrown (List.pairwise_append.mp quiet).2.1

/-! ## Runs -/

/-- The seconds that pass for the pets in a call, as the clock scales them. -/
def deltaDuring (m : Manager) : Call → List Float32
  | .tick dt => [(m.prepare dt).scene.delta]
  | _ => []

/-- The seconds that pass in the ticks of a run. -/
def deltas : Manager → List Call → List Float32
  | _, [] => []
  | m, call :: rest =>
    m.deltaDuring call ++
      match m.perform? call with
      | none => []
      | some after => after.deltas rest

theorem run_append (m : Manager) (calls later : List Call) :
    m.run? (calls ++ later) = (m.run? calls).bind fun after => after.run? later :=
  List.foldlM_append

theorem run_concat {calls : List Call} {call : Call} {mid : Manager} (ran : m.run? calls = some mid) :
    m.run? (calls ++ [call]) = mid.perform? call := by
  rw [run_append, ran, Option.bind_some, run_cons]
  cases mid.perform? call with
  | none => rfl
  | some after => rfl

private theorem deltas_concat {calls : List Call} {call : Call} {mid : Manager} (ran : m.run? calls = some mid) :
    m.deltas (calls ++ [call]) = m.deltas calls ++ mid.deltaDuring call := by
  induction calls generalizing m with
  | nil =>
    cases Option.some.inj ran
    rw [List.nil_append, deltas, deltas, List.nil_append]
    cases mid.perform? call with
    | none => exact List.append_nil _
    | some after => exact List.append_nil _
  | cons first rest ih =>
    rw [run_cons] at ran
    obtain ⟨next, performed, ran⟩ := Option.bind_eq_some_iff.mp ran
    rw [List.cons_append, deltas, deltas, performed]
    dsimp only
    rw [ih ran, List.append_assoc]

/-- The pet is thrown after these calls, its timer is the sum of the seconds that have passed in them, taken one after
another, and that is within the cap of the settings in force. -/
def FliesThrough (m : Manager) (id : PetId) (calls : List Call) : Prop :=
  ∃ after q, m.run? calls = some after ∧ after.pet? id = some q ∧
    q.interaction = .thrown ((m.deltas calls).foldl (· + ·) 0.0) ∧
    ¬ after.settings.throwing.throwDuration ≤ (m.deltas calls).foldl (· + ·) 0.0

/-- A pet that is thrown after a call has flown through it, or it has been thrown in it, by a tick. -/
theorem perform_thrown {call : Call} (performed : m.perform? call = some after) (there : after.pet? id = some q)
    (flying : q.interaction = .thrown timer) :
    (∃ p before, m.pet? id = some p ∧ p.interaction = .thrown before ∧
        timer = (m.deltaDuring call).foldl (· + ·) before ∧
        (¬ m.settings.throwing.throwDuration ≤ before → ¬ after.settings.throwing.throwDuration ≤ timer)) ∨
      ∃ dt, call = .tick dt ∧ m.ThrowsIn id dt ∧ timer = (m.deltaDuring call).foldl (· + ·) 0.0 ∧
        ¬ after.settings.throwing.throwDuration ≤ timer := by
  by_cases ticks : ∃ dt, call = .tick dt
  · obtain ⟨dt, rfl⟩ := ticks
    obtain ⟨⟨_, report⟩, ticked, rfl⟩ := Option.map_eq_some_iff.mp performed
    obtain ⟨within, ⟨p, before, was, thrown, timed⟩ | ⟨throws, timed⟩⟩ := tick_thrown ticked there flying
    · exact .inl ⟨p, before, was, thrown, timed, fun _ => within⟩
    · exact .inr ⟨dt, rfl, throws, timed, within⟩
  · have other : ∀ dt, call ≠ .tick dt := fun dt same => ticks ⟨dt, same⟩
    have none : m.deltaDuring call = [] := by
      cases call with
      | tick dt => exact absurd rfl (other dt)
      | _ => rfl
    obtain ⟨settings, _⟩ := perform_settings performed other
    rcases perform_pet m after call id q performed other there with was | ⟨_, idle⟩
    · exact .inl ⟨q, timer, was, flying, by rw [none]; rfl, by rw [settings]; exact fun inTime => inTime⟩
    · rw [flying] at idle
      cases idle

/-- A pet that is thrown after a run has been thrown in one of its ticks, and has flown ever since. The induction is on
the calls from the last one back. -/
theorem run_thrown (calls : List Call) (ran : m.run? calls = some after)
    (unthrown : ∀ p, m.pet? id = some p → ∀ timer, p.interaction ≠ .thrown timer) (there : after.pet? id = some q)
    (flying : q.interaction = .thrown timer) :
    ∃ early dt later start, calls = early ++ .tick dt :: later ∧ m.run? early = some start ∧ start.ThrowsIn id dt ∧
      ∀ part, part <+: later → start.FliesThrough id (.tick dt :: part) := by
  induction calls using List.reverseRecOn generalizing after q timer with
  | nil =>
    cases Option.some.inj ran
    exact absurd flying (unthrown q there timer)
  | append_singleton calls call ih =>
    rw [run_append] at ran
    obtain ⟨mid, soFar, performed⟩ := Option.bind_eq_some_iff.mp ran
    rw [← List.nil_append [call], run_concat rfl] at performed
    rcases perform_thrown performed there flying with
      ⟨p, before, was, thrown, timed, within⟩ | ⟨dt, rfl, throws, timed, within⟩
    · obtain ⟨early, dt, later, start, rfl, begins, throws, flies⟩ := ih soFar was thrown
      refine ⟨early, dt, later ++ [call], start, by simp, begins, throws, fun part leading => ?_⟩
      rcases List.prefix_concat_iff.mp leading with rfl | shorter
      · obtain ⟨mid', p', reaches, present, airborne, inTime⟩ := flies later (List.prefix_refl later)
        have same : start.run? (.tick dt :: later) = some mid := by
          rw [run_append, begins] at soFar
          exact soFar
        cases Option.some.inj (reaches.symm.trans same)
        cases Option.some.inj (present.symm.trans was)
        cases airborne.symm.trans thrown
        have sum : (start.deltas (.tick dt :: later ++ [call])).foldl (· + ·) 0.0 = timer := by
          rw [deltas_concat same, List.foldl_append, timed]
        refine ⟨after, q, (run_concat same).trans performed, there, ?_, ?_⟩
        · rw [← List.cons_append, sum, flying]
        · rw [← List.cons_append, sum]
          exact within inTime
      · exact flies part shorter
    · refine ⟨calls, dt, [], mid, rfl, soFar, throws, fun part leading => ?_⟩
      cases List.prefix_nil.mp leading
      have sum : (mid.deltas [.tick dt]).foldl (· + ·) 0.0 = timer := by
        rw [← List.nil_append [Call.tick dt], deltas_concat rfl, List.foldl_append, timed]
        rfl
      refine ⟨after, q, ?_, there, by rw [sum, flying], by rw [sum]; exact within⟩
      rw [← List.nil_append [Call.tick dt], run_concat rfl]
      exact performed

end Manager

open Manager

/-- After any run of calls the timer of a thrown pet is the sum of the seconds that have passed in the ticks since that
in which it was released, and within the cap of the settings in force; so it was after each call since, whatever the
calls. In a tick the timer of a thrown pet only takes up the time of the tick, unless the throw ends: then the pet is at
rest when the tick is over. -/
theorem throws_within_cap (settings : Settings) (seed : UInt64) (calls : List Call) (after : Manager)
    (ran : (Manager.new settings seed).run? calls = some after) (id : PetId) (q : Pet)
    (there : after.pet? id = some q) :
    (∀ timer, q.interaction = .thrown timer →
      ∃ early dt later start, calls = early ++ .tick dt :: later ∧
        (Manager.new settings seed).run? early = some start ∧ start.ThrowsIn id dt ∧
        timer = (start.deltas (.tick dt :: later)).foldl (· + ·) 0.0 ∧
        ¬ after.settings.throwing.throwDuration ≤ timer ∧
        ∀ part, part <+: later → start.FliesThrough id (.tick dt :: part)) ∧
    ∀ dt next report q', after.tick? dt = some (next, report) → next.pet? id = some q' →
      ∀ soFar rest flying timer, after.happeningsDuring id (.tick dt) = soFar ++ rest →
        soFar.foldlM Pet.meet? q = some flying → flying.interaction = .thrown timer →
        q'.interaction = .thrown ((rest.filterMap Happening.motionTime?).foldl (· + ·) timer) ∨ q'.Rests := by
  refine ⟨fun timer flying => ?_, fun dt next report q' ticked present soFar rest flying timer split leads thrown =>
    tick_ends ticked there present split leads thrown⟩
  have empty : (Manager.new settings seed).pet? id = none := rfl
  obtain ⟨early, dt, later, start, rfl, begins, throws, flies⟩ :=
    run_thrown calls ran (fun p present => nomatch empty.symm.trans present) there flying
  obtain ⟨after', q', reaches, present, airborne, within⟩ := flies later (List.prefix_refl later)
  rw [run_append, begins, Option.bind_some] at ran
  cases Option.some.inj (reaches.symm.trans ran)
  cases Option.some.inj (present.symm.trans there)
  cases airborne.symm.trans flying
  exact ⟨early, dt, later, start, rfl, begins, throws, rfl, within, flies⟩

/-- A pet is thrown; then it is pressed and triggered in vain, and the cap is lowered. -/
def tossCalls : List Call :=
  [.loadPack "tangled" tangledPack, .registerAt "tangled" ⟨400.0, 400.0⟩,
    .ask ⟨1⟩ (.pointer (.down ⟨410.0, 410.0⟩ 0.0)), .ask ⟨1⟩ (.pointer (.up ⟨700.0, 410.0⟩ 0.1)), .tick 0.033,
    .ask ⟨1⟩ (.pointer (.down ⟨700.0, 410.0⟩ 0.2)), .ask ⟨1⟩ (.trigger "stay"),
    .stage { throwing.throwDuration := 0.5 }, .tick 0.25]

/-- The throw goes on for two ticks and ends in the third. -/
theorem throws_within_cap_toss :
    ∃ after q early dt later start next report q', (Manager.new {} 7).run? tossCalls = some after ∧
      after.pet? ⟨1⟩ = some q ∧ q.interaction = .thrown (0.0 + 0.033 + 0.25) ∧
      tossCalls = early ++ .tick dt :: later ∧ (Manager.new {} 7).run? early = some start ∧
      start.ThrowsIn ⟨1⟩ dt ∧ ¬ after.settings.throwing.throwDuration ≤ 0.0 + 0.033 + 0.25 ∧
      after.tick? 0.25 = some (next, report) ∧ next.pet? ⟨1⟩ = some q' ∧ q'.Rests := by
  have runs : ((Manager.new {} 7).run? tossCalls).any fun after =>
      (after.pet? ⟨1⟩).any (·.interaction = .thrown (0.0 + 0.033 + 0.25)) &&
        (after.tick? 0.25).any fun out => (out.1.pet? ⟨1⟩).any (·.interaction = .idle) := by decide +kernel
  obtain ⟨after, ran, facts⟩ := (Option.any_eq_true ..).mp runs
  obtain ⟨flight, ends⟩ := Bool.and_eq_true_iff.mp facts
  obtain ⟨q, there, flying⟩ := (Option.any_eq_true ..).mp flight
  obtain ⟨⟨next, report⟩, ticked, rest⟩ := (Option.any_eq_true ..).mp ends
  obtain ⟨q', present, idle⟩ := (Option.any_eq_true ..).mp rest
  have thrown := of_decide_eq_true flying
  obtain ⟨past, ending⟩ := throws_within_cap {} 7 tossCalls after ran ⟨1⟩ q there
  obtain ⟨early, dt, later, start, split, begins, throws, _, within, _⟩ := past _ thrown
  refine ⟨after, q, early, dt, later, start, next, report, q', ran, there, thrown, split, begins, throws, within,
    ticked, present, ?_⟩
  rcases ending 0.25 next report q' ticked present [] _ q _ rfl rfl thrown with flies | rests
  · exact nomatch (of_decide_eq_true idle).symm.trans flies
  · exact rests

end DesktopPet

import DesktopPet.Proofs.Manager.Room
import DesktopPet.Proofs.Pack.Compiled

/-!
# The lines follow the settings

The area of a manager is a copy of what its settings describe, renewed only where staged settings differ from it.
`InStep` is the invariant: numbers of the copy are the same as those of the settings, whichever way it was
renewed. Where the lines are numbers, the same numbers agree.
-/

namespace DesktopPet

namespace Settings

/-- The screen is finite and no margin is NaN: the settings describe lines that are numbers. -/
structure HasLines (s : Settings) : Prop where
  width : s.screenWidth.isFinite = true
  height : s.screenHeight.isFinite = true
  margins : s.margins.AreNumbers

theorem HasLines.ordered {s : Settings} (lines : s.HasLines) : s.area.bounds.Ordered :=
  s.margins.bounds_ordered _ _ lines.margins lines.width lines.height

/-- Settings that agree describe the same area. -/
theorem area_same {s t : Settings} (agree : s.agrees t = true) : s.area.Same t.area := by
  simp only [agrees, keys, List.all_cons, Bool.and_eq_true, Number.beq_iff_same] at agree
  obtain ⟨⟨⟨width, height, floor, ceiling, left, right, _⟩, _⟩, _⟩ := agree
  exact Area.ofScreen_same width.1 height.1 ⟨floor.1, ceiling.1, left.1, right.1⟩

end Settings

/-- An area that is the same as that of settings agrees with it. -/
theorem Area.Same.agrees {a : Area} {s : Settings} (same : a.Same s.area) (lines : s.HasLines) :
    a.agrees s.area = true := by
  have screen := And.intro (same.width.beq (Number.isNaN_of_isFinite s.screenWidth lines.width))
    (same.height.beq (Number.isNaN_of_isFinite s.screenHeight lines.height))
  simp only [Area.agrees, Bool.and_eq_true]
  exact ⟨⟨screen, same.margins.agrees lines.margins⟩, same.bounds.agrees lines.ordered⟩

namespace Manager

/-! ## Renewing the area -/

/-- Whichever way the area is renewed, it is the same as that of the new settings. -/
theorem areaUnder_same {area : Area} {old : Settings} (s : Settings) (same : area.Same old.area) :
    (areaUnder area s).Same s.area := by
  unfold areaUnder
  split
  · exact Area.ofScreen_same (.refl _) (.refl _) (.refl _)
  next screen =>
    simp only [Bool.not_eq_true, Bool.not_eq_false', Bool.and_eq_true, Number.beq_iff_same] at screen
    obtain ⟨⟨width, _⟩, ⟨height, _⟩⟩ := screen
    split
    · exact Area.ofScreen_same width.symm height.symm (.refl _)
    next margins =>
      have kept : s.margins.Same area.margins := Margins.same_of_agrees (by simpa using margins)
      -- nothing is renewed: the lines are those of the old settings, which the new ones do not change
      have lines := Margins.bounds_same (same.margins.symm.trans kept.symm) (same.width.symm.trans width.symm)
        (same.height.symm.trans height.symm)
      exact ⟨width.symm, height.symm, kept.symm, same.bounds.trans lines⟩

/-! ## The invariant -/

/-- The area is that of the settings, and all settings describe lines that are numbers. -/
structure InStep (m : Manager) : Prop where
  active : m.settings.HasLines
  waiting : ∀ s, m.staged = some s → s.HasLines
  area : m.area.Same m.settings.area

theorem InStep.hasRoom {m : Manager} (inStep : m.InStep) : m.area.bounds.HasRoom := by
  have ordered := inStep.active.ordered
  exact m.area.bounds.hasRoom (inStep.area.bounds.left.isNaN.trans ordered.left)
    (inStep.area.bounds.ceiling.isNaN.trans ordered.ceiling)

/-- The settings in force after a tick: those that were staged, or their equals that were in force already. -/
def TakesUp (before after : Settings) : Option Settings → Prop
  | none => after = before
  | some s => after = s ∨ after.agrees s = true

/-- The preparation of a tick uses up what is staged. -/
theorem prepare_settings (m : Manager) (dt : Float32) :
    (m.prepare dt).staged = none ∧ TakesUp m.settings (m.prepare dt).settings m.staged := by
  unfold prepare applyStaged
  dsimp only
  cases m.staged with
  | none => exact ⟨rfl, rfl⟩
  | some s =>
    refine ⟨rfl, ?_⟩
    dsimp only
    split
    next agree => exact .inr agree
    · exact .inl rfl

theorem InStep.prepare {m : Manager} (inStep : m.InStep) (dt : Float32) : (m.prepare dt).InStep := by
  unfold Manager.prepare applyStaged
  dsimp only
  split
  · exact ⟨inStep.active, inStep.waiting, inStep.area⟩
  next s waiting =>
    have renewed := areaUnder_same s inStep.area
    split
    next agree => exact ⟨inStep.active, nofun, renewed.trans (Settings.area_same agree).symm⟩
    · exact ⟨inStep.waiting s waiting, nofun, renewed⟩

/-- What is staged after a call. -/
def stagedBy (staged : Option Settings) : Call → Option Settings
  | .stage s => some s
  | .tick _ => none
  | _ => staged

private theorem stagedBy_registers (staged : Option Settings) {call : Call} (registers : call.registers = true) :
    stagedBy staged call = staged := by
  cases call with
  | stage s => cases registers
  | tick dt => cases registers
  | _ => rfl

/-- The settings that calls leave staged: the last ones since the last tick. -/
def lastStaged (calls : List Call) : Option Settings :=
  calls.foldl stagedBy none

/-- A tick takes up what is staged, and keeps the invariant. -/
theorem InStep.tick {m after : Manager} {dt : Float32} {report : Report} (inStep : m.InStep)
    (ticked : m.tick? dt = some (after, report)) :
    after.InStep ∧ after.staged = none ∧ TakesUp m.settings after.settings m.staged := by
  have prepared := inStep.prepare dt
  obtain ⟨same, _⟩ := tick_pets m after dt report ticked
  obtain ⟨empty, takenUp⟩ := prepare_settings m dt
  rw [same]
  exact ⟨⟨prepared.active, prepared.waiting, prepared.area⟩, empty, takenUp⟩

/-- Calls other than ticks leave the settings in force and the area. -/
theorem perform_settings {m after : Manager} {call : Call} (performed : m.perform? call = some after)
    (other : ∀ dt, call ≠ .tick dt) :
    after.settings = m.settings ∧ after.area = m.area ∧ after.staged = stagedBy m.staged call := by
  cases perform_effect m after call performed with
  | ticked dt _ _ _ => exact absurd rfl (other dt)
  | unplaced _ _ registers => exact ⟨rfl, rfl, (stagedBy_registers m.staged registers).symm⟩
  | registered _ _ _ _ _ _ _ _ registers _ => exact ⟨rfl, rfl, (stagedBy_registers m.staged registers).symm⟩
  | _ => exact ⟨rfl, rfl, rfl⟩

theorem InStep.perform {m after : Manager} {call : Call} (inStep : m.InStep)
    (lines : ∀ s, call = .stage s → s.HasLines) (performed : m.perform? call = some after) :
    after.InStep ∧ after.staged = stagedBy m.staged call := by
  by_cases ticks : ∃ dt, call = .tick dt
  · obtain ⟨dt, rfl⟩ := ticks
    obtain ⟨⟨_, report⟩, ticked, rfl⟩ := Option.map_eq_some_iff.mp performed
    obtain ⟨kept, empty, _⟩ := inStep.tick ticked
    exact ⟨kept, empty⟩
  · have other : ∀ dt, call ≠ .tick dt := fun dt same => ticks ⟨dt, same⟩
    obtain ⟨settings, area, staged⟩ := perform_settings performed other
    refine ⟨⟨?_, ?_, ?_⟩, staged⟩
    · rw [settings]
      exact inStep.active
    · intro s waits
      rw [staged] at waits
      cases call with
      | stage t =>
        cases waits
        exact lines s rfl
      | tick dt => exact absurd rfl (other dt)
      | _ => exact inStep.waiting s waits
    · rw [settings, area]
      exact inStep.area

theorem InStep.run {m after : Manager} {calls : List Call} (inStep : m.InStep)
    (lines : ∀ s, Call.stage s ∈ calls → s.HasLines) (ran : m.run? calls = some after) :
    after.InStep ∧ after.staged = calls.foldl stagedBy m.staged := by
  induction calls generalizing m with
  | nil =>
    cases Option.some.inj ran
    exact ⟨inStep, rfl⟩
  | cons call rest ih =>
    rw [run_cons] at ran
    obtain ⟨next, performed, ran⟩ := Option.bind_eq_some_iff.mp ran
    obtain ⟨kept, staged⟩ := inStep.perform (fun s same => lines s (by simp [same])) performed
    obtain ⟨last, left⟩ := ih kept (fun s member => lines s (List.mem_cons_of_mem call member)) ran
    rw [staged] at left
    exact ⟨last, left⟩

/-- With light catalogs every run has an answer, and so has the tick after it. -/
theorem InStep.run_answers {m : Manager} (inStep : m.InStep) (light : m.Light) (calls : List Call)
    (lines : ∀ s, Call.stage s ∈ calls → s.HasLines) (few : ∀ call ∈ calls, call.LoadsFew) :
    ∃ after, m.run? calls = some after ∧ ∀ dt, (after.tick? dt).isSome = true := by
  have answers (call : Call) {m : Manager} (inStep : m.InStep) (light : m.Light) :
      (m.perform? call).isSome = true :=
    light.perform_answers call inStep.hasRoom fun dt => (inStep.prepare dt).hasRoom
  induction calls generalizing m with
  | nil => exact ⟨m, rfl, fun dt => (Option.isSome_map).symm.trans (answers (.tick dt) inStep light)⟩
  | cons call rest ih =>
    obtain ⟨next, performed⟩ := Option.isSome_iff_exists.mp (answers call inStep light)
    obtain ⟨kept, _⟩ := inStep.perform (fun s same => lines s (by simp [same])) performed
    rw [run_cons, performed]
    exact ih kept (light.perform (few call List.mem_cons_self) performed)
      (fun s member => lines s (List.mem_cons_of_mem call member))
      fun other member => few other (List.mem_cons_of_mem call member)

end Manager

open Manager

/-- After any calls that stage settings with lines, the area is that of the settings in force. At the end of the next
tick it is so again, nothing is staged any more, and the settings in force are those that were staged last since the
tick before, or their equals; without any they are those of before. Between ticks neither settings nor area change.
All these calls have answers, unless a pack has more than 42949672 behaviors, whose weights may overflow. -/
theorem lines_follow_settings (settings : Settings) (seed : UInt64) (calls : List Call) (lines : settings.HasLines)
    (staged : ∀ s, Call.stage s ∈ calls → s.HasLines) :
    (∀ m, (Manager.new settings seed).run? calls = some m → m.area.agrees m.settings.area = true ∧
      (∀ dt after report, m.tick? dt = some (after, report) →
        after.area.agrees after.settings.area = true ∧ after.staged = none ∧
        TakesUp m.settings after.settings (lastStaged calls)) ∧
      ∀ call later, m.perform? call = some later → (∀ dt, call ≠ .tick dt) →
        later.settings = m.settings ∧ later.area = m.area) ∧
      ((∀ call ∈ calls, call.LoadsFew) →
        ∃ m, (Manager.new settings seed).run? calls = some m ∧ ∀ dt, (m.tick? dt).isSome = true) := by
  have start : (Manager.new settings seed).InStep :=
    ⟨lines, nofun, Area.ofScreen_same (.refl _) (.refl _) (.refl _)⟩
  refine ⟨fun m ran => ?_, start.run_answers (new_light settings seed) calls staged⟩
  obtain ⟨inStep, waiting⟩ := start.run staged ran
  refine ⟨inStep.area.agrees inStep.active, fun dt after report ticked => ?_, fun call later performed other => ?_⟩
  · obtain ⟨kept, empty, takenUp⟩ := inStep.tick ticked
    rw [waiting] at takenUp
    exact ⟨kept.area.agrees kept.active, empty, takenUp⟩
  · obtain ⟨same, area, _⟩ := perform_settings performed other
    exact ⟨same, area⟩

/-- Settings without a margin on the left, and the same but for the sign of that zero. -/
def marginless (zero : Float32) : Settings :=
  { screenWidth := 800.0, margins.left := zero, margins.floor := 20.0 }

/-- The screen changes first, then the margins; then both are as before, and nothing but a sign is new. -/
def restagings : List Call :=
  [.stage { screenWidth := 800.0 }, .tick 0.033, .stage {}, .stage (marginless 0.0), .tick 0.033, .stage {},
    .loadPack "tangled" tangledPack, .registerAt "tangled" ⟨5000.0, 5000.0⟩, .stage (marginless (-0.0))]

theorem lines_follow_settings_restaged :
    ∃ m after report, (Manager.new {} 7).run? restagings = some m ∧ m.tick? 0.033 = some (after, report) ∧
      after.settings = marginless 0.0 ∧ marginless 0.0 ≠ marginless (-0.0) ∧
      TakesUp m.settings after.settings (some (marginless (-0.0))) ∧
      after.area.agrees after.settings.area = true ∧ after.staged = none := by
  have standard : Settings.HasLines {} := ⟨by decide, by decide, by constructor <;> decide⟩
  have staged : ∀ s, Call.stage s ∈ restagings → s.HasLines := by
    intro s member
    simp only [restagings, List.mem_cons, List.not_mem_nil, or_false, reduceCtorEq, false_or,
      Call.stage.injEq] at member
    rcases member with rfl | rfl | rfl | rfl | rfl
    · exact ⟨by decide, by decide, by constructor <;> decide⟩
    · exact standard
    · exact ⟨by decide, by decide, by constructor <;> decide⟩
    · exact standard
    · exact ⟨by decide, by decide, by constructor <;> decide⟩
  have few : ∀ call ∈ restagings, call.LoadsFew := by
    intro call member pack spec same
    simp only [restagings, List.mem_cons, List.not_mem_nil, or_false, same, reduceCtorEq, false_or,
      Call.loadPack.injEq] at member
    rw [member.2]
    decide
  obtain ⟨holds, answers⟩ := lines_follow_settings {} 7 restagings standard staged
  obtain ⟨m, ran, answered⟩ := answers few
  obtain ⟨⟨after, report⟩, ticked⟩ := Option.isSome_iff_exists.mp (answered 0.033)
  obtain ⟨agree, empty, takenUp⟩ := (holds m ran).2.1 0.033 after report ticked
  have kept : (((Manager.new {} 7).run? restagings).bind fun m => m.tick? 0.033).map (·.1.settings) =
      some (marginless 0.0) := by decide +kernel
  rw [ran, Option.bind_some, ticked] at kept
  exact ⟨m, after, report, ran, ticked, Option.some.inj kept, by decide, takenUp, agree, empty⟩

end DesktopPet

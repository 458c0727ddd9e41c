import DesktopPet.Proofs.Area.Lines
import DesktopPet.Settings

/-!
# The ranges of settings

Whatever texts are read, every setting stays within its range: `Key.Keeps` is the step for one key, and reading
is a fold over the keys. Settings within their ranges describe an area whose lines do not cross.
-/

namespace DesktopPet

/-! ## Ranges -/

namespace Number

/-- A finite number above zero. -/
structure Positive (x : Float32) : Prop where
  finite : x.isFinite = true
  above : 0.0 < x

/-- A finite number that is not below zero. -/
structure NonNegative (x : Float32) : Prop where
  finite : x.isFinite = true
  least : 0.0 ≤ x

/-- A finite number between two ends. -/
structure Between (lo hi x : Float32) : Prop where
  finite : x.isFinite = true
  least : lo ≤ x
  most : x ≤ hi

end Number

open Number (Positive NonNegative Between)

/-- Margins in percent. -/
structure Margins.InRange (m : Margins) : Prop where
  floor : Between 0.0 100.0 m.floor
  ceiling : Between 0.0 100.0 m.ceiling
  left : Between 0.0 100.0 m.left
  right : Between 0.0 100.0 m.right

/-- Velocities and times are not negative, and a bounce leaves a part; factors may have any sign. -/
structure ThrowSettings.InRange (t : ThrowSettings) : Prop where
  maxVelocity : NonNegative t.maxVelocity
  minThrowVelocity : NonNegative t.minThrowVelocity
  throwDuration : NonNegative t.throwDuration
  bounceEnergyLoss : Between 0.0 1.0 t.bounceEnergyLoss
  gravityMultiplier : t.gravityMultiplier.isFinite = true
  timeMultiplier : t.timeMultiplier.isFinite = true
  fallbackMultiplier : t.fallbackMultiplier.isFinite = true
  settleVelocity : NonNegative t.settleVelocity

/-- Every number is finite and within its range. -/
structure Settings.InRange (s : Settings) : Prop where
  screenWidth : Positive s.screenWidth
  screenHeight : Positive s.screenHeight
  margins : s.margins.InRange
  closeThreshold : Between 0.0 1.0 s.closeThreshold
  spawnMargin : NonNegative s.spawnMargin
  gravity : s.gravity.isFinite = true
  tickRate : Positive s.tickRate
  throwing : s.throwing.InRange
  soundVolume : Between 0.0 1.0 s.soundVolume
  petWidth : Positive s.petWidth
  petHeight : Positive s.petHeight

namespace Settings

private theorem standard_inRange : InRange {} where
  screenWidth := ⟨by decide, by decide⟩
  screenHeight := ⟨by decide, by decide⟩
  margins := by constructor <;> constructor <;> decide
  closeThreshold := ⟨by decide, by decide, by decide⟩
  spawnMargin := ⟨by decide, by decide⟩
  gravity := by decide
  tickRate := ⟨by decide, by decide⟩
  throwing :=
    { maxVelocity := ⟨by decide, by decide⟩
      minThrowVelocity := ⟨by decide, by decide⟩
      throwDuration := ⟨by decide, by decide⟩
      bounceEnergyLoss := ⟨by decide, by decide, by decide⟩
      gravityMultiplier := by decide
      timeMultiplier := by decide
      fallbackMultiplier := by decide
      settleVelocity := ⟨by decide, by decide⟩ }
  soundVolume := ⟨by decide, by decide, by decide⟩
  petWidth := ⟨by decide, by decide⟩
  petHeight := ⟨by decide, by decide⟩

/-! ## What keys accept -/

theorem positive_accepts (x y : Float32) (finite : x.isFinite = true) (accepted : positive x = some y) :
    Positive y := by
  unfold positive at accepted
  split at accepted
  next above =>
    cases accepted
    exact ⟨finite, above⟩
  · cases accepted

theorem nonNegative_accepts (x y : Float32) (finite : x.isFinite = true) (accepted : nonNegative x = some y) :
    NonNegative y := by
  cases Option.some.inj accepted
  rw [Number.positivePart]
  split
  next above => exact ⟨finite, Number.le_of_lt 0.0 x above⟩
  · exact ⟨by decide, by decide⟩

/-- A finite number that is limited to an interval. -/
theorem clamp_accepts (lo hi x : Float32) (finite : x.isFinite = true) (finiteLo : lo.isFinite = true)
    (finiteHi : hi.isFinite = true) (ordered : lo ≤ hi) : Between lo hi (Number.clamp lo hi x) := by
  obtain ⟨least, most⟩ := Number.clamp_between lo hi x ordered (Number.isNaN_of_isFinite x finite)
  exact ⟨Number.finite_of_between lo _ hi finiteLo finiteHi least most, least, most⟩

theorem percent_accepts (x y : Float32) (finite : x.isFinite = true) (accepted : percent x = some y) :
    Between 0.0 100.0 y := by
  cases Option.some.inj accepted
  exact clamp_accepts 0.0 100.0 x finite (by decide) (by decide) (by decide)

theorem fraction_accepts (x y : Float32) (finite : x.isFinite = true) (accepted : fraction x = some y) :
    Between 0.0 1.0 y := by
  cases Option.some.inj accepted
  exact clamp_accepts 0.0 1.0 x finite (by decide) (by decide) (by decide)

theorem anyNumber_accepts (x y : Float32) (finite : x.isFinite = true) (accepted : anyNumber x = some y) :
    y.isFinite = true := by
  cases Option.some.inj accepted
  exact finite

/-! ## One key at a time -/

/-- Whatever finite number is offered to a key, the settings stay within their ranges. -/
def Key.Keeps (key : Key) : Prop :=
  ∀ s x y, s.InRange → x.isFinite = true → key.accept x = some y → (key.set s y).InRange

private theorem keys_keep : ∀ key ∈ keys, key.Keeps := by
  unfold keys
  simp only [List.forall_mem_cons, List.not_mem_nil, false_implies, implies_true, and_true]
  refine ⟨?_, ?_, ?_, ?_, ?_, ?_, ?_, ?_, ?_, ?_, ?_, ?_, ?_, ?_, ?_, ?_, ?_, ?_, ?_, ?_, ?_⟩
  all_goals intro s x y range finite accepted
  · exact { range with screenWidth := positive_accepts x y finite accepted }
  · exact { range with screenHeight := positive_accepts x y finite accepted }
  · exact { range with margins := { range.margins with floor := percent_accepts x y finite accepted } }
  · exact { range with margins := { range.margins with ceiling := percent_accepts x y finite accepted } }
  · exact { range with margins := { range.margins with left := percent_accepts x y finite accepted } }
  · exact { range with margins := { range.margins with right := percent_accepts x y finite accepted } }
  · exact { range with closeThreshold := fraction_accepts x y finite accepted }
  · exact { range with spawnMargin := nonNegative_accepts x y finite accepted }
  · exact { range with gravity := anyNumber_accepts x y finite accepted }
  · exact { range with tickRate := positive_accepts x y finite accepted }
  · exact { range with throwing := { range.throwing with maxVelocity := nonNegative_accepts x y finite accepted } }
  · exact
      { range with throwing := { range.throwing with minThrowVelocity := nonNegative_accepts x y finite accepted } }
  · exact { range with throwing := { range.throwing with throwDuration := nonNegative_accepts x y finite accepted } }
  · exact { range with throwing := { range.throwing with bounceEnergyLoss := fraction_accepts x y finite accepted } }
  · exact { range with throwing := { range.throwing with gravityMultiplier := anyNumber_accepts x y finite accepted } }
  · exact { range with throwing := { range.throwing with timeMultiplier := anyNumber_accepts x y finite accepted } }
  · exact
      { range with throwing := { range.throwing with fallbackMultiplier := anyNumber_accepts x y finite accepted } }
  · exact { range with throwing := { range.throwing with settleVelocity := nonNegative_accepts x y finite accepted } }
  · exact { range with soundVolume := fraction_accepts x y finite accepted }
  · exact { range with petWidth := positive_accepts x y finite accepted }
  · exact { range with petHeight := positive_accepts x y finite accepted }

theorem readNumber_finite (text : String) (x : Float32) (read : readNumber? text = some x) : x.isFinite = true := by
  obtain ⟨y, _, finite⟩ := Option.bind_eq_some_iff.mp read
  unfold Number.finite? at finite
  split at finite
  next holds =>
    cases finite
    exact holds
  · cases finite

theorem Key.load_inRange (key : Key) (ini : Ini) (s : Settings) (keeps : key.Keeps) (range : s.InRange) :
    (key.load ini s).InRange := by
  unfold Key.load
  split
  next y loaded =>
    obtain ⟨x, read, accepted⟩ := Option.bind_eq_some_iff.mp loaded
    obtain ⟨text, _, number⟩ := Option.bind_eq_some_iff.mp read
    exact keeps s x y range (readNumber_finite text x number) accepted
  · exact range

/-! ## Whole texts -/

theorem apply_inRange (s : Settings) (ini : Ini) (range : s.InRange) : (s.apply ini).InRange := by
  have numbers : (keys.foldl (fun s key => key.load ini s) s).InRange :=
    List.foldlRecOn keys _ range fun t kept key member => key.load_inRange ini t (keys_keep key member) kept
  unfold apply loadSound
  split
  · exact { numbers with }
  · exact numbers

/-- The settings as they are once a text was offered: a text that is refused leaves them. -/
def offer (s : Settings) (text : String) : Settings :=
  match s.loadText text with
  | .ok loaded => loaded
  | .error _ => s

private theorem offer_inRange (s : Settings) (text : String) (range : s.InRange) : (s.offer text).InRange := by
  unfold offer loadText load
  cases Ini.parse text with
  | error refusal => exact range
  | ok ini => exact apply_inRange s ini range

/-- Texts that are offered one after another keep every setting within its range. -/
theorem offers_inRange (texts : List String) (s : Settings) (range : s.InRange) :
    (texts.foldl offer s).InRange :=
  List.foldlRecOn texts offer range fun t kept text _ => offer_inRange t text kept

/-! ## The area of settings -/

theorem InRange.area_ordered {s : Settings} (range : s.InRange) : s.area.bounds.Ordered := by
  have number {x : Float32} (between : Between 0.0 100.0 x) : x.isNaN = false :=
    Number.isNaN_of_isFinite x between.finite
  exact s.margins.bounds_ordered s.screenWidth s.screenHeight
    { floor := number range.margins.floor
      ceiling := number range.margins.ceiling
      left := number range.margins.left
      right := number range.margins.right }
    range.screenWidth.finite range.screenHeight.finite

end Settings

/-- Settings that were read from texts, whatever these are, are within their ranges, and so the lines of their
area do not cross and leave room for every rectangle at every position. A text that is no INI changes nothing. -/
theorem loaded_settings_safe (texts : List String) :
    (texts.foldl Settings.offer {}).InRange ∧
      (∀ s : Settings, ∀ text refusal, Ini.parse text = .error refusal → s.offer text = s) ∧
      (texts.foldl Settings.offer {}).area.bounds.Ordered ∧
      ∀ corner size, ((texts.foldl Settings.offer {}).area.bounds.clampRect? corner size).isSome = true := by
  have range := Settings.offers_inRange texts {} Settings.standard_inRange
  refine ⟨range, ?_, range.area_ordered, Bounds.hasRoom _ range.area_ordered.left range.area_ordered.ceiling⟩
  intro s text refusal refused
  unfold Settings.offer Settings.loadText Settings.load
  rw [refused]
  rfl

/-- Numbers out of range and beyond the format, then a header that is not closed. -/
def wildTexts : List String :=
  ["[screen]\nwidth = 1e39\n[boundaries]\nfloor_margin = 250", "[pet]\nwidth = 3\n[screen"]

theorem loaded_settings_safe_wild :
    (wildTexts.foldl Settings.offer {}).margins.floor = 100.0 ∧
      (wildTexts.foldl Settings.offer {}).InRange ∧
      (wildTexts.foldl Settings.offer {}).offer "[screen" = wildTexts.foldl Settings.offer {} ∧
      (wildTexts.foldl Settings.offer {}).area.bounds.Ordered ∧
      ((wildTexts.foldl Settings.offer {}).area.bounds.clampRect? ⟨0.0 / 0.0, 0.0⟩ ⟨1e30, 0.0 / 0.0⟩).isSome =
        true := by
  obtain ⟨range, refused, ordered, room⟩ := loaded_settings_safe wildTexts
  exact ⟨by decide +kernel, range, refused _ "[screen" (.unclosedSection 1) rfl, ordered, room _ _⟩

end DesktopPet

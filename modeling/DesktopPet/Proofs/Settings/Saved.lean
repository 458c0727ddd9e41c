import DesktopPet.Proofs.Condition.Lexing
import DesktopPet.Proofs.Ini.RoundTrip
import DesktopPet.Proofs.Number.Notation
import DesktopPet.Proofs.Settings.Ranges

/-!
# Saved settings

Settings that were read from texts are read back from the text that saves them. Three things make it so: every key
accepts what it once accepted (`keys_settle`), no key stands in the way of another (`keys_apart`), and the text
holds each key with the number that is kept under it (`WrittenAs`), in whatever order.
-/

namespace DesktopPet

/-! ## Written values -/

theorem Ini.solid_of_code {c : Char} (code : 33 ≤ c.toNat ∧ c.toNat ≤ 126) (other : c ≠ ';' ∧ c ≠ '#') :
    Ini.isSolid c = true := by
  have uncommented : Ini.isComment c = false := by simp [Ini.isComment, other]
  have unblank : Text.isBlank c = false := by
    simp only [Text.isBlank, Bool.or_eq_false_iff, Bool.and_eq_false_iff, decide_eq_false_iff_not]
    omega
  rw [Ini.isSolid, uncommented, unblank]
  rfl

theorem Ini.solid_of_isDigit {c : Char} (digit : c.isDigit = true) : Ini.isSolid c = true := by
  have code := Condition.isDigit_code digit
  refine Ini.solid_of_code ⟨by omega, by omega⟩ ⟨?_, ?_⟩
  · rintro rfl
    cases digit
  · rintro rfl
    cases digit

namespace Number

open Float.Model (UnpackedFloat)

private theorem positional_solid (d : Decimal) : ∀ c ∈ d.positional.toList, Ini.isSolid c = true := by
  obtain ⟨first, more, spelled, digit, others⟩ := (positional_isNumeral d).letters
  rw [spelled]
  intro c member
  rcases List.mem_cons.mp member with rfl | later
  · exact Ini.solid_of_isDigit digit
  · rcases others c later with digit | rfl
    · exact Ini.solid_of_isDigit digit
    · decide

/-- A written number stays as it is in a line. -/
theorem display32_solid (x : Float32) : ∀ c ∈ (display32 x).toList, Ini.isSolid c = true := by
  rw [display32]
  cases x.toModel.unpack with
  | notANumber => exact List.all_eq_true.mp (by decide +kernel)
  | infinity sign => cases sign <;> exact List.all_eq_true.mp (by decide +kernel)
  | zero sign => cases sign <;> exact List.all_eq_true.mp (by decide +kernel)
  | finite sign significand exponent _ =>
    cases sign with
    | positive => exact positional_solid _
    | negative =>
      intro c member
      rw [display, String.toList_append] at member
      rcases List.mem_append.mp member with sign | digit
      · rw [List.mem_singleton.mp sign]
        decide
      · exact positional_solid _ c digit

end Number

namespace Settings

/-! ## Keys -/

/-- A key accepts again what it made of a finite number, and leaves it as it is. -/
def Key.Settles (key : Key) : Prop :=
  ∀ x y, x.isFinite = true → key.accept x = some y → y.isFinite = true ∧ key.accept y = some y

private theorem clamp_twice (lo hi x : Float32) (ordered : lo ≤ hi) :
    Number.clamp lo hi (Number.clamp lo hi x) = Number.clamp lo hi x := by
  have crossed : ¬ hi < lo := Number.not_lt_of_le lo hi ordered
  have still (y : Float32) (above : ¬ y < lo) (below : ¬ hi < y) : Number.clamp lo hi y = y := by
    rw [Number.clamp, if_neg above, if_neg below]
  by_cases low : x < lo
  · have limited : Number.clamp lo hi x = lo := by
      rw [Number.clamp, if_pos low, if_neg crossed]
    rw [limited]
    exact still lo (Number.lt_irrefl lo) crossed
  · by_cases high : hi < x
    · have limited : Number.clamp lo hi x = hi := by
        rw [Number.clamp, if_neg low, if_pos high]
      rw [limited]
      exact still hi crossed (Number.lt_irrefl hi)
    · rw [still x low high]
      exact still x low high

private theorem positivePart_twice (x : Float32) :
    Number.positivePart (Number.positivePart x) = Number.positivePart x := by
  by_cases above : 0.0 < x
  · have kept : Number.positivePart x = x := if_pos above
    rw [kept, kept]
  · have raised : Number.positivePart x = 0.0 := if_neg above
    rw [raised]
    decide

theorem keys_settle : ∀ key ∈ keys, key.Settles := by
  have kinds : ∀ key ∈ keys, key.accept = positive ∨ key.accept = nonNegative ∨ key.accept = percent ∨
      key.accept = fraction ∨ key.accept = anyNumber := by simp [keys]
  intro key member x y finite accepted
  rcases kinds key member with kind | kind | kind | kind | kind
  all_goals rw [kind] at accepted ⊢
  · have range := positive_accepts x y finite accepted
    exact ⟨range.finite, if_pos range.above⟩
  · refine ⟨(nonNegative_accepts x y finite accepted).finite, ?_⟩
    cases Option.some.inj accepted
    exact congrArg some (positivePart_twice x)
  · refine ⟨(percent_accepts x y finite accepted).finite, ?_⟩
    cases Option.some.inj accepted
    exact congrArg some (clamp_twice 0.0 100.0 x (by decide))
  · refine ⟨(fraction_accepts x y finite accepted).finite, ?_⟩
    cases Option.some.inj accepted
    exact congrArg some (clamp_twice 0.0 1.0 x (by decide))
  · exact ⟨anyNumber_accepts x y finite accepted, rfl⟩

/-- What is set under one key does not show under another. -/
def Key.Apart (key other : Key) : Prop :=
  (∀ s x, other.get (key.set s x) = other.get s) ∧ ∀ s x, key.get (other.set s x) = key.get s

instance : Std.Symm Key.Apart where
  symm _ _ apart := ⟨apart.2, apart.1⟩

theorem keys_apart : keys.Pairwise Key.Apart := by
  unfold keys
  simp only [List.pairwise_cons, List.forall_mem_cons, List.not_mem_nil, false_implies, implies_true, List.Pairwise.nil,
    and_true]
  repeat' apply And.intro
  all_goals exact fun _ _ => rfl

private theorem get_set : ∀ key ∈ keys, ∀ s x, key.get (key.set s x) = x := by
  unfold keys
  simp only [List.forall_mem_cons, List.not_mem_nil, false_implies, implies_true, and_true]

/-- The switch for sounds is no number. -/
theorem get_switch : ∀ key ∈ keys, ∀ (s : Settings) (on : Bool), key.get { s with soundEnabled := on } = key.get s := by
  unfold keys
  simp only [List.forall_mem_cons, List.not_mem_nil, false_implies, implies_true, and_true]

/-- Every number is finite, and its key accepts it as it is. -/
def Settled (s : Settings) : Prop :=
  ∀ key ∈ keys, (key.get s).isFinite = true ∧ key.accept (key.get s) = some (key.get s)

private theorem standard_settled : Settled {} := by
  unfold Settled
  decide +kernel

theorem Settled.set {s : Settings} (settled : s.Settled) {key : Key} (member : key ∈ keys) {x : Float32}
    (finite : x.isFinite = true) (accepted : key.accept x = some x) : (key.set s x).Settled := by
  intro other listed
  by_cases same : key = other
  · rw [← same, get_set key member]
    exact ⟨finite, accepted⟩
  · rw [(keys_apart.forall member listed same).1]
    exact settled other listed

theorem Settled.load {s : Settings} (settled : s.Settled) {key : Key} (member : key ∈ keys) (ini : Ini) :
    (key.load ini s).Settled := by
  unfold Key.load
  split
  next y loaded =>
    obtain ⟨x, read, accepted⟩ := Option.bind_eq_some_iff.mp loaded
    obtain ⟨text, _, number⟩ := Option.bind_eq_some_iff.mp read
    obtain ⟨finite, again⟩ := keys_settle key member x y (readNumber_finite text x number) accepted
    exact settled.set member finite again
  · exact settled

theorem Settled.apply {s : Settings} (settled : s.Settled) (ini : Ini) : (s.apply ini).Settled := by
  have numbers : (keys.foldl (fun s key => key.load ini s) s).Settled :=
    List.foldlRecOn keys _ settled fun t kept key member => kept.load member ini
  unfold Settings.apply loadSound
  split
  · exact fun key member => by simpa only [get_switch key member] using numbers key member
  · exact numbers

theorem Settled.offer {s : Settings} (settled : s.Settled) (text : String) : (s.offer text).Settled := by
  unfold Settings.offer loadText Settings.load
  cases Ini.parse text with
  | error refusal => exact settled
  | ok ini => exact settled.apply ini

/-- Settings that were read from texts are settled. -/
theorem offers_settled (texts : List String) : (texts.foldl offer {}).Settled :=
  List.foldlRecOn texts offer standard_settled fun _ kept text _ => kept.offer text

/-! ## What is written -/

/-- The entries of a group are its keys with their numbers, and the switch for sounds comes first in its group. -/
theorem entries_eq_keys (s : Settings) (group : String) :
    s.entries group =
      let numbers := (keys.filter (·.group = group)).map fun key => (key.name, Number.display32 (key.get s))
      if group = "sound" then ("enabled", toString s.soundEnabled) :: numbers else numbers := by
  let entry (key : Key) : String × String × String := (key.group, key.name, Number.display32 (key.get s))
  have listed : s.written =
      (keys.take 18).map entry ++ ("sound", "enabled", toString s.soundEnabled) :: (keys.drop 18).map entry := rfl
  have numbers (part : List Key) : ((part.map entry).filter (·.1 = group)).map (·.2) =
      (part.filter (·.group = group)).map fun key => (key.name, Number.display32 (key.get s)) := by
    rw [List.filter_map, List.map_map]
    rfl
  have parts : keys.filter (·.group = group) =
      (keys.take 18).filter (·.group = group) ++ (keys.drop 18).filter (·.group = group) := by
    rw [← List.filter_append, List.take_append_drop]
  rw [entries, listed, List.filter_append, List.map_append, List.filter_cons, parts, List.map_append, numbers]
  by_cases sound : group = "sound"
  · have quiet : (keys.take 18).filter (·.group = group) = [] := by
      rw [sound]
      exact List.filter_eq_nil_iff.mpr (by decide)
    rw [quiet, if_pos (by simp [sound]), if_pos sound, List.map_cons, numbers]
    rfl
  · rw [if_neg (by simpa using Ne.symm sound), if_neg sound, numbers]

/-- The sections hold the settings: each group once with each of its entries, in some order. -/
structure WrittenAs (s : Settings) (sections : List (String × List (String × String))) : Prop where
  groups : (sections.map Prod.fst).Perm groups
  entries : ∀ part ∈ sections, part.2.Perm (s.entries part.1)

private theorem toText_writtenAs (s : Settings) :
    s.WrittenAs (groups.map fun group => (group, s.entries group)) where
  groups := by rw [List.map_map, Function.comp_def, List.map_id']
  entries part member := by
    obtain ⟨group, _, rfl⟩ := List.mem_map.mp member
    exact .refl _

/-- The names of the entries of a group do not depend on the settings. -/
def entryNames (group : String) : List String :=
  let numbers := (keys.filter (·.group = group)).map (·.name)
  if group = "sound" then "enabled" :: numbers else numbers

private theorem entries_names (s : Settings) (group : String) : (s.entries group).map Prod.fst = entryNames group := by
  rw [entries_eq_keys]
  unfold entryNames
  split <;> simp [Function.comp_def]

private theorem entryNames_nodup : ∀ group ∈ groups, (entryNames group).Nodup := by
  decide +kernel

private theorem groups_nodup : groups.Nodup := by
  decide

private theorem groups_names : ∀ group ∈ groups, Ini.IsName group.toList := by
  have filled : ∀ group ∈ groups, group.toList ≠ [] := by decide
  have letters : ∀ group ∈ groups, group.toList.all Ini.isNameLetter = true := by decide +kernel
  exact fun group member => ⟨filled group member, List.all_eq_true.mp (letters group member)⟩

private theorem entryNames_names : ∀ group ∈ groups, ∀ name ∈ entryNames group, Ini.IsName name.toList := by
  have filled : ∀ group ∈ groups, ∀ name ∈ entryNames group, name.toList ≠ [] := by decide +kernel
  have letters : ∀ group ∈ groups, ∀ name ∈ entryNames group, name.toList.all Ini.isNameLetter = true := by
    decide +kernel
  exact fun group member name listed =>
    ⟨filled group member name listed, List.all_eq_true.mp (letters group member name listed)⟩

private theorem entries_solid (s : Settings) (group : String) :
    ∀ entry ∈ s.entries group, ∀ c ∈ entry.2.toList, Ini.isSolid c = true := by
  have switch (on : Bool) : ∀ c ∈ (toString on).toList, Ini.isSolid c = true := by
    cases on <;> exact List.all_eq_true.mp (by decide)
  have numbers : ∀ entry ∈ (keys.filter (·.group = group)).map fun key => (key.name, Number.display32 (key.get s)),
      ∀ c ∈ entry.2.toList, Ini.isSolid c = true := by
    intro entry member
    obtain ⟨key, _, rfl⟩ := List.mem_map.mp member
    exact Number.display32_solid (key.get s)
  rw [entries_eq_keys]
  split
  · exact List.forall_mem_cons.mpr ⟨switch s.soundEnabled, numbers⟩
  · exact numbers

namespace WrittenAs

variable {s : Settings} {sections : List (String × List (String × String))}

theorem mem_groups (written : s.WrittenAs sections) {part : String × List (String × String)}
    (member : part ∈ sections) : part.1 ∈ Settings.groups :=
  written.groups.mem_iff.mp (List.mem_map_of_mem member)

theorem names (written : s.WrittenAs sections) {part : String × List (String × String)} (member : part ∈ sections) :
    (part.2.map Prod.fst).Perm (entryNames part.1) := by
  rw [← entries_names s]
  exact (written.entries part member).map Prod.fst

theorem writable (written : s.WrittenAs sections) : ∀ part ∈ sections, Ini.IsWritable part := by
  intro part member
  refine ⟨groups_names part.1 (written.mem_groups member), fun entry listed => ?_, fun entry listed => ?_⟩
  · exact entryNames_names part.1 (written.mem_groups member) entry.1
      ((written.names member).mem_iff.mp (List.mem_map_of_mem listed))
  · exact entries_solid s part.1 entry ((written.entries part member).mem_iff.mp listed)

/-- No two entries share section and name. -/
theorem distinct (written : s.WrittenAs sections) :
    ((sections.flatMap Ini.entriesOf).map fun e => (e.group, e.key)).Nodup := by
  rw [List.map_flatMap, List.nodup_flatMap]
  have apart : (sections.map Prod.fst).Nodup := written.groups.nodup_iff.mpr groups_nodup
  refine ⟨fun part member => ?_, ?_⟩
  · have own : (part.2.map Prod.fst).Nodup :=
      (written.names member).nodup_iff.mpr (entryNames_nodup part.1 (written.mem_groups member))
    rw [Ini.entriesOf, List.map_map]
    have paired := own.map (Prod.mk_right_injective part.1)
    rwa [List.map_map] at paired
  · refine (List.pairwise_map.mp apart).imp fun {part other} differ => ?_
    intro pair here there
    obtain ⟨entry, listed, rfl⟩ := List.mem_map.mp here
    obtain ⟨entry', listed', same⟩ := List.mem_map.mp there
    obtain ⟨value, _, rfl⟩ := List.mem_map.mp listed
    obtain ⟨value', _, rfl⟩ := List.mem_map.mp listed'
    exact differ (Prod.mk.inj same).1.symm

theorem lookup (written : s.WrittenAs sections) {group name value : String} (member : group ∈ Settings.groups)
    (listed : (name, value) ∈ s.entries group) :
    Ini.get? ⟨sections.flatMap Ini.entriesOf⟩ group name = some value := by
  obtain ⟨part, here, rfl⟩ := List.mem_map.mp (written.groups.mem_iff.mpr member)
  refine Ini.get?_of_mem written.distinct (List.mem_flatMap.mpr ⟨part, here, ?_⟩)
  exact List.mem_map.mpr ⟨(name, value), (written.entries part here).mem_iff.mpr listed, rfl⟩

end WrittenAs

/-! ## Reading back -/

/-- The number under a key is the one that its text gives, by way of binary64. -/
def Key.Survives (key : Key) (s : Settings) : Prop :=
  (Number.read? (Number.display32 (key.get s)).toList).map Number.narrow = some (key.get s)

instance (key : Key) (s : Settings) : Decidable (key.Survives s) :=
  inferInstanceAs (Decidable (_ = _))

private theorem readBool?_toString (on : Bool) : readBool? (toString on) = some on := by
  cases on <;> decide

/-- The groups hold every key. -/
theorem mem_entries (s : Settings) :
    ∀ key ∈ keys, key.group ∈ groups ∧ (key.name, Number.display32 (key.get s)) ∈ s.entries key.group := by
  intro key member
  have numbers : (key.name, Number.display32 (key.get s)) ∈
      (keys.filter (·.group = key.group)).map fun key => (key.name, Number.display32 (key.get s)) :=
    List.mem_map.mpr ⟨key, List.mem_filter.mpr ⟨member, decide_eq_true rfl⟩, rfl⟩
  refine ⟨(by decide : ∀ key ∈ keys, key.group ∈ groups) key member, ?_⟩
  rw [entries_eq_keys]
  split
  · exact List.mem_cons_of_mem _ numbers
  · exact numbers

theorem Key.load_written {c : Settings} {sections : List (String × List (String × String))}
    (written : c.WrittenAs sections) {key : Key} (member : key ∈ keys) (settled : c.Settled)
    (survives : key.Survives c) (s : Settings) :
    key.load ⟨sections.flatMap Ini.entriesOf⟩ s = key.set s (key.get c) := by
  obtain ⟨grouped, listed⟩ := mem_entries c key member
  obtain ⟨finite, accepted⟩ := settled key member
  have read : readNumber? (Number.display32 (key.get c)) = some (key.get c) := by
    rw [readNumber?, survives, Option.bind_some, Number.finite?, if_pos finite]
  rw [Key.load, written.lookup grouped listed, Option.bind_some, read, Option.bind_some, accepted]

private theorem loadSound_written {c : Settings} {sections : List (String × List (String × String))}
    (written : c.WrittenAs sections) (s : Settings) :
    loadSound ⟨sections.flatMap Ini.entriesOf⟩ s = { s with soundEnabled := c.soundEnabled } := by
  have listed : ("enabled", toString c.soundEnabled) ∈ c.entries "sound" := by
    rw [entries_eq_keys]
    exact List.mem_cons_self
  rw [loadSound, written.lookup (by decide) listed, Option.bind_some, readBool?_toString]

/-- Whatever settings the numbers are put into, they leave only the switch for sounds and the file. -/
private theorem foldl_set (c d : Settings) :
    keys.foldl (fun s key => key.set s (key.get c)) d =
      { c with soundEnabled := d.soundEnabled, path := d.path } :=
  rfl

private theorem loadText_written {c : Settings} {sections : List (String × List (String × String))}
    (written : c.WrittenAs sections) (settled : c.Settled) (survives : ∀ key ∈ keys, key.Survives c) (d : Settings) :
    d.loadText (Ini.render sections) = .ok { c with path := d.path } := by
  have numbers : keys.foldl (fun s key => key.load ⟨sections.flatMap Ini.entriesOf⟩ s) d =
      keys.foldl (fun s key => key.set s (key.get c)) d :=
    List.foldl_ext _ _ d fun s key member => Key.load_written written member settled (survives key member) s
  have applied : d.apply ⟨sections.flatMap Ini.entriesOf⟩ = { c with path := d.path } := by
    rw [apply, numbers, foldl_set, loadSound_written written]
  rw [loadText, load, Ini.parse_render sections written.writable]
  exact congrArg Except.ok applied

/-- Settings that were read from texts are saved without loss: if each of their numbers survives its text, then any
settings become them, up to the file, by loading what was saved. The order in which sections and keys are
written does not matter. -/
theorem saved_settings_reload (texts : List String) (d : Settings)
    (survives : ∀ key ∈ keys, key.Survives (texts.foldl offer {})) :
    d.loadText (texts.foldl offer {}).toText = .ok { texts.foldl offer {} with path := d.path } ∧
      ∀ sections, (texts.foldl offer {}).WrittenAs sections →
        d.loadText (Ini.render sections) = .ok { texts.foldl offer {} with path := d.path } := by
  have settled := offers_settled texts
  have reload (sections : List (String × List (String × String)))
      (written : (texts.foldl offer {}).WrittenAs sections) :=
    loadText_written written settled survives d
  exact ⟨reload _ (toText_writtenAs _), reload⟩

/-- A small screen without gravity and sound. -/
def quietTexts : List String :=
  ["[screen]\nwidth=800.5\n[physics]\ngravity=-0", "[sound]\nenabled=FALSE\nvolume=7\n[pet",
    "[sound]\nenabled=FALSE\nvolume=0.1"]

theorem saved_settings_reload_quiet :
    (∀ key ∈ keys, key.Survives (quietTexts.foldl offer {})) ∧
      loadText { gravity := 3.5, path := "other.ini" } (quietTexts.foldl offer {}).toText =
        .ok { screenWidth := 800.5, gravity := -0.0, soundEnabled := false, soundVolume := 0.1,
              path := "other.ini" } := by
  have read : quietTexts.foldl offer {} =
      { screenWidth := 800.5, gravity := -0.0, soundEnabled := false, soundVolume := 0.1 } := by
    decide +kernel
  have survives : ∀ key ∈ keys, key.Survives (quietTexts.foldl offer {}) := by
    rw [read]
    decide +kernel
  refine ⟨survives, ?_⟩
  rw [(saved_settings_reload quietTexts { gravity := 3.5, path := "other.ini" } survives).1, read]

end Settings
end DesktopPet

import DesktopPet.Ini
import Mathlib.Data.List.Nodup
import Mathlib.Data.List.TakeWhile

/-!
# Reading back what was written

Sections that are written one after another read as the entries that they hold: `parse_render`, for names and
values that a line leaves as they are. Each entry is then found under its section and key, wherever it stands, if
no two of them share both (`get?_of_mem`).
-/

namespace DesktopPet.Ini

/-! ## What can be written -/

/-- A character that stays as it is in a value: neither blank nor the start of a comment. -/
def isSolid (c : Char) : Bool :=
  !Text.isBlank c && !isComment c

/-- A character that stays as it is in a name: in lower case, and neither a delimiter nor a bracket. -/
def isNameLetter (c : Char) : Bool :=
  isSolid c && !isDelimiter c && c ≠ '[' && c ≠ ']' && lowerChar c = c

/-- A name of a section or key that reads as it is written. -/
structure IsName (name : List Char) : Prop where
  filled : name ≠ []
  letters : ∀ c ∈ name, isNameLetter c = true

/-- A section whose names and values read as they are written. -/
structure IsWritable (part : String × List (String × String)) : Prop where
  name : IsName part.1.toList
  keys : ∀ entry ∈ part.2, IsName entry.1.toList
  values : ∀ entry ∈ part.2, ∀ c ∈ entry.2.toList, isSolid c = true

/-- The entries of a section. -/
def entriesOf (part : String × List (String × String)) : List Entry :=
  part.2.map fun entry => ⟨part.1, entry.1, some entry.2⟩

theorem IsName.solid {name : List Char} (proper : IsName name) : ∀ c ∈ name, isSolid c = true := by
  intro c member
  have letter := proper.letters c member
  simp only [isNameLetter, Bool.and_eq_true] at letter
  exact letter.1.1.1.1

theorem IsName.undelimited {name : List Char} (proper : IsName name) : ∀ c ∈ name, isDelimiter c = false := by
  intro c member
  have letter := proper.letters c member
  simp only [isNameLetter, Bool.and_eq_true, Bool.not_eq_true'] at letter
  exact letter.1.1.1.2

theorem IsName.lower {name : String} (proper : IsName name.toList) : lowerName name.toList = name := by
  have same : name.toList.map lowerChar = name.toList.map id := by
    refine List.map_congr_left fun c member => ?_
    have letter := proper.letters c member
    simp only [isNameLetter, Bool.and_eq_true, decide_eq_true_eq] at letter
    exact letter.2
  rw [lowerName, same, List.map_id, String.ofList_toList]

/-! ## Single lines -/

private theorem dropWhile_none {kind : Char → Bool} {cs : List Char} (none : ∀ c ∈ cs, kind c = false) :
    cs.dropWhile kind = cs := by
  cases cs with
  | nil => rfl
  | cons c rest => rw [List.dropWhile_cons_of_neg (by simp [none c List.mem_cons_self])]

private theorem trim_unblank {cs : List Char} (unblank : ∀ c ∈ cs, Text.isBlank c = false) : Text.trim cs = cs := by
  rw [Text.trim, dropWhile_none unblank, Text.dropBlanksRight,
    dropWhile_none fun c member => unblank c (List.mem_reverse.mp member), List.reverse_reverse]

theorem trim_of_solid {cs : List Char} (solid : ∀ c ∈ cs, isSolid c = true) : Text.trim cs = cs := by
  refine trim_unblank fun c member => ?_
  have kept := solid c member
  simp only [isSolid, Bool.and_eq_true, Bool.not_eq_true'] at kept
  exact kept.1

/-- A line of solid characters is its own content. -/
theorem content_solid {line : List Char} (solid : ∀ c ∈ line, isSolid c = true) :
    Text.trim ((Text.trim line).takeWhile fun c => !isComment c) = line := by
  have uncommented : line.takeWhile (fun c => !isComment c) = line := by
    rw [List.takeWhile_eq_self_iff]
    intro c member
    have kept := solid c member
    simp only [isSolid, Bool.and_eq_true] at kept
    exact kept.2
  rw [trim_of_solid solid, uncommented, trim_of_solid solid]

/-- The line of a header. -/
def headerLine (name : String) : List Char :=
  '[' :: (name.toList ++ [']'])

/-- The line of an entry. -/
def entryLine (entry : String × String) : List Char :=
  entry.1.toList ++ '=' :: entry.2.toList

private theorem readLine_header (number : Nat) {name : String} (proper : IsName name.toList) :
    readLine number (headerLine name) = .ok (.header name) := by
  have solid : ∀ c ∈ headerLine name, isSolid c = true := by
    intro c member
    rcases List.mem_cons.mp member with rfl | inside
    · decide
    · rcases List.mem_append.mp inside with letter | closing
      · exact proper.solid c letter
      · rw [List.mem_singleton.mp closing]
        decide
  have found : header? (name.toList ++ [']']) = some (.header name) := by
    simp [header?, trim_of_solid proper.solid, proper.lower]
  rw [readLine, content_solid solid, headerLine]
  dsimp only
  split
  next empty => cases empty
  next rest opened =>
    rw [← (List.cons.inj opened).2, found]
  next other => exact absurd rfl (other (name.toList ++ [']']))

private theorem readLine_entry (number : Nat) {entry : String × String} (key : IsName entry.1.toList)
    (value : ∀ c ∈ entry.2.toList, isSolid c = true) :
    readLine number (entryLine entry) = .ok (.entry entry.1 (some entry.2)) := by
  have solid : ∀ c ∈ entryLine entry, isSolid c = true := by
    intro c member
    rcases List.mem_append.mp member with before | behind
    · exact key.solid c before
    · rcases List.mem_cons.mp behind with rfl | after
      · decide
      · exact value c after
  have undelimited : ∀ c ∈ entry.1.toList, (!isDelimiter c) = true := fun c member => by
    rw [key.undelimited c member]
    rfl
  have before : (entryLine entry).takeWhile (fun c => !isDelimiter c) = entry.1.toList := by
    rw [entryLine, List.takeWhile_append_of_pos undelimited]
    simp [isDelimiter]
  have behind : (entryLine entry).dropWhile (fun c => !isDelimiter c) = '=' :: entry.2.toList := by
    rw [entryLine, List.dropWhile_append_of_pos undelimited]
    simp [isDelimiter]
  -- the line starts with a letter of the key, so that it is no header
  obtain ⟨first, letters, spelled⟩ := List.exists_cons_of_ne_nil key.filled
  have opened : first ≠ '[' := by
    have letter := key.letters first (by simp [spelled])
    simp only [isNameLetter, Bool.and_eq_true, decide_eq_true_eq] at letter
    exact letter.1.1.2
  have shape : entryLine entry = first :: (letters ++ '=' :: entry.2.toList) := by
    rw [entryLine, spelled, List.cons_append]
  rw [readLine, content_solid solid]
  dsimp only
  split
  next empty => simp [shape] at empty
  next rest bracket =>
    rw [shape] at bracket
    exact absurd (List.cons.inj bracket).1 opened
  · rw [before, behind]
    dsimp only
    rw [trim_of_solid key.solid, trim_of_solid value, key.lower, String.ofList_toList,
      List.isEmpty_eq_false_iff.mpr key.filled]
    rfl

/-! ## Whole texts -/

/-- The lines of a section. -/
def linesOf (part : String × List (String × String)) : List (List Char) :=
  headerLine part.1 :: part.2.map entryLine

private theorem intercalate_nothing {α : Type} (texts : List (List α)) : [].intercalate texts = texts.flatten := by
  induction texts with
  | nil => rfl
  | cons first rest ih =>
    cases rest with
    | nil => simp
    | cons second others => rw [List.intercalate_cons_cons, ih, List.append_nil]; rfl

private theorem toList_render (sections : List (String × List (String × String))) :
    (render sections).toList = (sections.flatMap linesOf).flatMap (· ++ ['\n']) := by
  rw [render, String.toList_intercalate, String.toList_empty, intercalate_nothing, List.map_map, ← List.flatMap_def,
    List.flatMap_assoc]
  refine List.flatMap_congr fun part _ => ?_
  simp [intercalate_nothing, linesOf, headerLine, entryLine, List.flatMap_def, Function.comp_def]

/-- Lines without an end of their own are found again behind the ends. -/
theorem lines_ended (texts : List (List Char)) (unended : ∀ line ∈ texts, '\n' ∉ line) :
    lines (texts.flatMap (· ++ ['\n'])) = texts ++ [[]] := by
  rw [lines]
  induction texts with
  | nil => rfl
  | cons line rest ih =>
    rw [List.flatMap_cons, List.append_assoc, List.singleton_append,
      List.splitOn_append_cons_self_of_not_mem (unended line List.mem_cons_self),
      ih fun other member => unended other (List.mem_cons_of_mem _ member), List.cons_append]

private theorem readLines_entries {entries : List (String × String)} {current : String} {rest : List (List Char)}
    {later : List Entry} (keys : ∀ entry ∈ entries, IsName entry.1.toList)
    (values : ∀ entry ∈ entries, ∀ c ∈ entry.2.toList, isSolid c = true)
    (read : ∀ number, readLines number current rest = .ok later) (number : Nat) :
    readLines number current (entries.map entryLine ++ rest) =
      .ok (entries.map (fun entry => ⟨current, entry.1, some entry.2⟩) ++ later) := by
  induction entries generalizing number with
  | nil => exact read number
  | cons entry others ih =>
    have behind := ih (fun e member => keys e (List.mem_cons_of_mem _ member))
      (fun e member => values e (List.mem_cons_of_mem _ member)) (number + 1)
    rw [List.map_cons, List.cons_append, readLines,
      readLine_entry number (keys entry List.mem_cons_self) (values entry List.mem_cons_self)]
    simp only [bind, Except.bind, behind]
    rfl

private theorem readLines_sections (sections : List (String × List (String × String)))
    (writable : ∀ part ∈ sections, IsWritable part) (number : Nat) (current : String) :
    readLines number current (sections.flatMap linesOf ++ [[]]) = .ok (sections.flatMap entriesOf) := by
  induction sections generalizing number current with
  | nil => rfl
  | cons part others ih =>
    have here := writable part List.mem_cons_self
    have behind := readLines_entries here.keys here.values
      (fun number => ih (fun p member => writable p (List.mem_cons_of_mem _ member)) number part.1) (number + 1)
    rw [List.flatMap_cons, linesOf, List.append_assoc, List.cons_append, readLines, readLine_header number here.name]
    exact behind

/-- What was written is read back, entry by entry. -/
theorem parse_render (sections : List (String × List (String × String)))
    (writable : ∀ part ∈ sections, IsWritable part) :
    parse (render sections) = .ok ⟨sections.flatMap entriesOf⟩ := by
  have solid (line : List Char) (part : String × List (String × String)) (member : part ∈ sections)
      (written : line ∈ linesOf part) : '\n' ∉ line := by
    have here := writable part member
    have unsolid {cs : List Char} (solid : ∀ c ∈ cs, isSolid c = true) : '\n' ∉ cs := fun ended =>
      absurd (solid '\n' ended) (by decide)
    rcases List.mem_cons.mp written with rfl | entry
    · simpa [headerLine] using unsolid here.name.solid
    · obtain ⟨pair, listed, rfl⟩ := List.mem_map.mp entry
      simpa [entryLine] using ⟨unsolid (here.keys pair listed).solid, unsolid (here.values pair listed)⟩
  have unended : ∀ line ∈ sections.flatMap linesOf, '\n' ∉ line := by
    intro line member
    obtain ⟨part, listed, written⟩ := List.mem_flatMap.mp member
    exact solid line part listed written
  rw [parse, toList_render, lines_ended _ unended, readLines_sections sections writable]
  rfl

/-! ## Looking up -/

/-- An entry is found under its section and key if no other one shares both with it. -/
theorem get?_of_mem {entries : List Entry} (distinct : (entries.map fun e => (e.group, e.key)).Nodup)
    {group key value : String} (member : ⟨group, key, some value⟩ ∈ entries) :
    Ini.get? ⟨entries⟩ group key = some value := by
  have present : (entries.reverse.find? fun e => e.group = group && e.key = key).isSome = true := by
    rw [List.find?_isSome]
    exact ⟨_, List.mem_reverse.mpr member, by simp⟩
  obtain ⟨found, search⟩ := Option.isSome_iff_exists.mp present
  have there := List.mem_reverse.mp (List.mem_of_find?_eq_some search)
  have sameNames : (found.group, found.key) = (group, key) := by simpa using List.find?_some search
  have same : found = ⟨group, key, some value⟩ := List.inj_on_of_nodup_map distinct there member sameNames
  rw [Ini.get?, search, same]
  rfl

end DesktopPet.Ini

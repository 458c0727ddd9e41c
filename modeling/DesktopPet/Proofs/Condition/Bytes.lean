import DesktopPet.Proofs.Condition.Spelling

/-!
# Splitting texts by their bytes

`tokenize` goes through the characters of a text and counts bytes on the way. Here is the same scanner over the bytes
themselves: it looks at single bytes by their index and takes slices from byte to byte, which fail inside of a
character. Both agree on every text (`tokenizeAt_eq`), so no slice fails: all characters of tokens and separators
take one byte, and no byte of a longer character looks like one of them.
-/

namespace DesktopPet.Condition

/-! ## Bytes and slices -/

/-- The bytes of a text. -/
def bytes (text : List Char) : List UInt8 :=
  text.flatMap String.utf8EncodeChar

/-- The character with the code of a byte. -/
def byteChar (byte : UInt8) : Char :=
  Char.ofNat byte.toNat

/-- The byte at an index, as a character. -/
def byteAt? (text : List Char) (i : Nat) : Option Char :=
  (bytes text)[i]?.map byteChar

/-- How many bytes of a kind stand one after the other from an index on. -/
def runBytes (kind : Char → Bool) (text : List Char) (i : Nat) : Nat :=
  (((bytes text).drop i).takeWhile fun byte => kind (byteChar byte)).length

/-- The text without its first bytes, unless these end inside of a character or the text is shorter. -/
def dropBytes? : Nat → List Char → Option (List Char)
  | 0, text => some text
  | _ + 1, [] => none
  | count + 1, c :: rest =>
    if c.utf8Size ≤ count + 1 then dropBytes? (count + 1 - c.utf8Size) rest else none

/-- The first bytes of the text, unless these end inside of a character or the text is shorter. -/
def takeBytes? : Nat → List Char → Option (List Char)
  | 0, _ => some []
  | _ + 1, [] => none
  | count + 1, c :: rest =>
    if c.utf8Size ≤ count + 1 then (takeBytes? (count + 1 - c.utf8Size) rest).map (c :: ·) else none

/-- The slice of a text from one byte up to another, which there is between characters only. -/
def slice? (text : List Char) (start stop : Nat) : Option (List Char) :=
  if start ≤ stop then (dropBytes? start text).bind (takeBytes? (stop - start)) else none

@[simp] theorem bytes_nil : bytes [] = [] :=
  rfl

theorem bytes_cons (c : Char) (text : List Char) : bytes (c :: text) = String.utf8EncodeChar c ++ bytes text :=
  rfl

theorem bytes_append (first second : List Char) : bytes (first ++ second) = bytes first ++ bytes second :=
  List.flatMap_append

private theorem bytes_length_cons (c : Char) (text : List Char) :
    (bytes (c :: text)).length = c.utf8Size + (bytes text).length := by
  rw [bytes_cons, List.length_append, String.length_utf8EncodeChar]

private theorem dropBytes?_cons (c : Char) (count : Nat) (rest : List Char) :
    dropBytes? (c.utf8Size + count) (c :: rest) = dropBytes? count rest := by
  obtain ⟨all, enough⟩ : ∃ all, c.utf8Size + count = all + 1 :=
    Nat.exists_eq_add_one.mpr (Nat.add_pos_left c.utf8Size_pos count)
  rw [enough, dropBytes?, if_pos (by omega), ← enough, Nat.add_sub_cancel_left]

private theorem takeBytes?_cons (c : Char) (count : Nat) (rest : List Char) :
    takeBytes? (c.utf8Size + count) (c :: rest) = (takeBytes? count rest).map (c :: ·) := by
  obtain ⟨all, enough⟩ : ∃ all, c.utf8Size + count = all + 1 :=
    Nat.exists_eq_add_one.mpr (Nat.add_pos_left c.utf8Size_pos count)
  rw [enough, takeBytes?, if_pos (by omega), ← enough, Nat.add_sub_cancel_left]

private theorem dropBytes?_append (before text : List Char) :
    dropBytes? (bytes before).length (before ++ text) = some text := by
  induction before with
  | nil => exact dropBytes?.eq_1 text
  | cons c more ih => rw [bytes_length_cons, List.cons_append, dropBytes?_cons, ih]

private theorem takeBytes?_append (piece after : List Char) :
    takeBytes? (bytes piece).length (piece ++ after) = some piece := by
  induction piece with
  | nil => exact takeBytes?.eq_1 after
  | cons c more ih => rw [bytes_length_cons, List.cons_append, takeBytes?_cons, ih, Option.map_some]

/-- Between characters there is a slice. -/
theorem slice?_append (before piece after : List Char) :
    slice? (before ++ piece ++ after) (bytes before).length ((bytes before).length + (bytes piece).length) =
      some piece := by
  rw [slice?, if_pos (Nat.le_add_right _ _), List.append_assoc, dropBytes?_append, Option.bind_some,
    Nat.add_sub_cancel_left, takeBytes?_append]

/-- Inside of a character there is none. -/
example : slice? ['é', 'x'] 2 3 = some ['x'] ∧ slice? ['é', 'x'] 1 3 = none ∧ slice? ['é', 'x'] 0 1 = none := by decide

/-! ## Characters of one byte -/

/-- All characters of this kind take one byte. -/
def IsByteKind (kind : Char → Bool) : Prop :=
  ∀ c, kind c = true → c.toNat < 128

theorem ascii_of_all {letters : List Char} (each : (letters.all fun c => c.toNat < 128) = true) :
    ∀ c ∈ letters, c.toNat < 128 :=
  fun c member => of_decide_eq_true (List.all_eq_true.mp each c member)

theorem isSeparator_byte : IsByteKind isSeparator := fun c holds => by
  have low : ∀ d ∈ [' ', '\t', '\n', '\x0c', '\r'], d.toNat < 128 := ascii_of_all (by decide)
  exact low c (by simpa [isSeparator, or_assoc] using holds)

theorem isDigit_byte : IsByteKind Char.isDigit := fun _ digit => by
  have := isDigit_code digit
  omega

theorem isPoint_byte : IsByteKind (· = '.') := fun c point => by
  rw [of_decide_eq_true point]
  decide

theorem isNumberChar_byte : IsByteKind isNumberChar := fun c holds =>
  (Bool.or_eq_true_iff.mp holds).elim (isDigit_byte c) (isPoint_byte c)

theorem isNameStart_byte : IsByteKind isNameStart := fun c holds => by
  rcases Bool.or_eq_true_iff.mp holds with letter | underscore
  · have := isAlpha_code letter
    omega
  · rw [of_decide_eq_true underscore]
    decide

theorem isNameChar_byte : IsByteKind isNameChar := fun c holds => by
  rcases Bool.or_eq_true_iff.mp holds with alphanumeric | underscore
  · rcases Bool.or_eq_true_iff.mp alphanumeric with letter | digit
    · exact isNameStart_byte c (Bool.or_eq_true_iff.mpr (.inl letter))
    · exact isDigit_byte c digit
  · exact isNameStart_byte c (Bool.or_eq_true_iff.mpr (.inr underscore))

theorem utf8EncodeChar_ascii {c : Char} (ascii : c.toNat < 128) :
    String.utf8EncodeChar c = [UInt8.ofNat c.toNat] := by
  rw [String.utf8EncodeChar, if_pos (show c.val.toNat ≤ 127 from by exact Nat.le_of_lt_succ ascii)]
  rfl

/-- As many bytes as characters, if each takes one. -/
theorem bytes_length {text : List Char} (ascii : ∀ c ∈ text, c.toNat < 128) : (bytes text).length = text.length := by
  induction text with
  | nil => rfl
  | cons c rest ih =>
    have later := ih fun d member => ascii d (List.mem_cons_of_mem c member)
    rw [bytes_cons, utf8EncodeChar_ascii (ascii c List.mem_cons_self), List.singleton_append, List.length_cons, later,
      List.length_cons]

private theorem byteChar_toNat (byte : UInt8) : (byteChar byte).toNat = byte.toNat := by
  have small := byte.toNat_lt
  have valid : byte.toNat.isValidChar := .inl (by omega)
  rw [byteChar, Char.ofNat, dif_pos valid]
  rfl

/-- Longer characters start with a byte that is no character of one byte. -/
private theorem utf8EncodeChar_long {c : Char} (long : ¬ c.toNat < 128) :
    ∃ byte later, String.utf8EncodeChar c = byte :: later ∧ 128 ≤ byte.toNat := by
  have above : ¬ c.val.toNat ≤ 127 := long ∘ Nat.lt_succ_of_le
  rw [String.utf8EncodeChar, if_neg above]
  split
  · exact ⟨_, _, rfl, by rw [UInt8.toNat_ofNat']; omega⟩
  · split
    · exact ⟨_, _, rfl, by rw [UInt8.toNat_ofNat']; omega⟩
    · exact ⟨_, _, rfl, by rw [UInt8.toNat_ofNat']; omega⟩

/-- Of which kind a character is, its first byte tells. -/
theorem first_byte (c : Char) : ∃ byte later, String.utf8EncodeChar c = byte :: later ∧
    ∀ kind, IsByteKind kind → kind (byteChar byte) = kind c := by
  by_cases ascii : c.toNat < 128
  · have same : byteChar (UInt8.ofNat c.toNat) = c := by
      rw [byteChar, UInt8.toNat_ofNat_of_lt' (Nat.lt_trans ascii (by decide)), Char.ofNat_toNat]
    exact ⟨_, [], utf8EncodeChar_ascii ascii, fun kind _ => by rw [same]⟩
  · obtain ⟨byte, later, encoded, high⟩ := utf8EncodeChar_long ascii
    refine ⟨byte, later, encoded, fun kind single => ?_⟩
    have foreign {d : Char} (large : 128 ≤ d.toNat) : kind d = false :=
      Bool.eq_false_iff.mpr fun holds => absurd (single d holds) (by omega)
    rw [foreign (byteChar_toNat byte ▸ high), foreign (by omega)]

/-! ## Looking at bytes between characters -/

theorem byteAt?_end (text : List Char) : byteAt? text (bytes text).length = none := by
  rw [byteAt?, List.getElem?_eq_none (Nat.le_refl _), Option.map_none]

private theorem byteAt?_boundary (before : List Char) (c : Char) (rest : List Char) :
    ∃ d, byteAt? (before ++ c :: rest) (bytes before).length = some d ∧
      ∀ kind, IsByteKind kind → kind d = kind c := by
  obtain ⟨byte, later, encoded, same⟩ := first_byte c
  refine ⟨byteChar byte, ?_, same⟩
  rw [byteAt?, bytes_append, List.getElem?_append_right (Nat.le_refl _), Nat.sub_self, bytes_cons, encoded]
  rfl

private theorem byteAt?_any {kind : Char → Bool} (single : IsByteKind kind) (before rest : List Char) :
    (byteAt? (before ++ rest) (bytes before).length).any kind = rest.head?.any kind := by
  cases rest with
  | nil =>
    rw [List.append_nil, byteAt?_end]
    rfl
  | cons c more =>
    obtain ⟨d, there, same⟩ := byteAt?_boundary before c more
    rw [there]
    exact same kind single

/-- A run of bytes is a run of characters. -/
theorem runBytes_boundary {kind : Char → Bool} (single : IsByteKind kind) (before text : List Char) :
    runBytes kind (before ++ text) (bytes before).length = (text.takeWhile kind).length := by
  rw [runBytes, bytes_append, List.drop_left]
  induction text with
  | nil => rfl
  | cons c rest ih =>
    obtain ⟨byte, later, encoded, same⟩ := first_byte c
    cases holds : kind c with
    | false =>
      rw [bytes_cons, encoded, List.cons_append, List.takeWhile_cons_of_neg (by rw [same kind single, holds]; nofun),
        List.takeWhile_cons_of_neg (by rw [holds]; nofun)]
      rfl
    | true =>
      -- such a character has no later bytes
      cases encoded.symm.trans (utf8EncodeChar_ascii (single c holds))
      rw [bytes_cons, encoded, List.singleton_append, List.takeWhile_cons_of_pos (by rw [same kind single, holds]),
        List.takeWhile_cons_of_pos holds, List.length_cons, ih, List.length_cons]

/-! ## The scanner over bytes -/

/-- The token that starts with `c` at a byte, and how many bytes after the first belong to it; nothing if a slice
fails. -/
def scanAt (text : List Char) (start : Nat) (c : Char) : Option (Except CompileError (Token × Nat)) :=
  if c.isDigit || (c = '.' && (byteAt? text (start + 1)).any Char.isDigit) then
    let more := runBytes isNumberChar text (start + 1)
    (slice? text start (start + 1 + more)).map fun literal =>
      match Number.read? literal with
      | some value => .ok (.number value, more)
      | none => .error (.invalidNumber (String.ofList literal))
  else if isNameStart c then
    let more := runBytes isNameChar text (start + 1)
    (slice? text start (start + 1 + more)).map fun word => .ok (wordToken (String.ofList word), more)
  else
    (dropBytes? start text).map fun rest =>
      match operator? rest with
      | some found => .ok found
      | none => .error (.unexpectedChar (rest.head?.getD c) start)

/-- The tokens of a text from a byte on; nothing if a slice fails. -/
def tokenizeAt (text : List Char) (i : Nat) : Option (Except CompileError (List Located)) :=
  match _found : byteAt? text i with
  | none => some (.ok [])
  | some c =>
    if isSeparator c then tokenizeAt text (i + 1)
    else
      match scanAt text i c with
      | none => none
      | some (.error e) => some (.error e)
      | some (.ok (token, more)) =>
        (tokenizeAt text (i + 1 + more)).map fun later => (⟨token, i⟩ :: ·) <$> later
termination_by (bytes text).length - i
decreasing_by
  all_goals
    obtain ⟨byte, there, _⟩ := Option.map_eq_some_iff.mp _found
    have inside := (List.getElem?_eq_some_iff.mp there).1
    omega

/-- Behind a character of one byte. -/
theorem next_boundary {c : Char} (ascii : c.toNat < 128) (before rest : List Char) :
    before ++ c :: rest = (before ++ [c]) ++ rest ∧ (bytes before).length + 1 = (bytes (before ++ [c])).length := by
  rw [bytes_append, List.length_append, bytes_cons, utf8EncodeChar_ascii ascii]
  exact ⟨List.append_cons before c rest, rfl⟩

private theorem runBytes_next {kind : Char → Bool} (single : IsByteKind kind) {c : Char} (ascii : c.toNat < 128)
    (before rest : List Char) :
    runBytes kind (before ++ c :: rest) ((bytes before).length + 1) = (rest.takeWhile kind).length := by
  obtain ⟨text, next⟩ := next_boundary ascii before rest
  rw [text, next, runBytes_boundary single]

/-- A run is sliced as a whole. -/
theorem slice?_run {kind : Char → Bool} (single : IsByteKind kind) {c : Char} (ascii : c.toNat < 128)
    (before rest : List Char) :
    slice? (before ++ c :: rest) (bytes before).length
      ((bytes before).length + 1 + (rest.takeWhile kind).length) = some (c :: rest.takeWhile kind) := by
  have each : ∀ d ∈ c :: rest.takeWhile kind, d.toNat < 128 :=
    List.forall_mem_cons.mpr ⟨ascii, fun d member => single d (run_kind d member)⟩
  have sliced := slice?_append before (c :: rest.takeWhile kind) (rest.dropWhile kind)
  rw [bytes_length each, List.length_cons, List.append_assoc, List.cons_append,
    List.takeWhile_append_dropWhile] at sliced
  rw [← sliced]
  congr 1
  omega

/-- Between characters, bytes are scanned as characters are, and no slice fails. -/
theorem scanAt_boundary (before : List Char) {c d : Char} (rest : List Char)
    (same : ∀ kind, IsByteKind kind → kind d = kind c) :
    scanAt (before ++ c :: rest) (bytes before).length d = some (scan (bytes before).length c rest) := by
  have starts :
      (d.isDigit || (d = '.' && (byteAt? (before ++ c :: rest) ((bytes before).length + 1)).any Char.isDigit)) =
        startsNumber c rest := by
    rw [startsNumber, same _ isDigit_byte, same _ isPoint_byte]
    cases point : decide (c = '.') with
    | false => rfl
    | true =>
      obtain ⟨text, next⟩ := next_boundary (isPoint_byte c point) before rest
      rw [text, next, byteAt?_any isDigit_byte]
  rw [scanAt, scan, starts, same _ isNameStart_byte]
  split
  case isTrue numbered =>
    have ascii := isNumberChar_byte c (number_start numbered)
    dsimp only
    rw [runBytes_next isNumberChar_byte ascii, slice?_run isNumberChar_byte ascii]
    rfl
  case isFalse =>
    split
    case isTrue named =>
      have ascii := isNameStart_byte c named
      dsimp only
      rw [runBytes_next isNameChar_byte ascii, slice?_run isNameChar_byte ascii]
      rfl
    case isFalse =>
      rw [dropBytes?_append]
      rfl

/-- The characters of a token take one byte each. -/
theorem Spells.ascii {letters : List Char} {token : Token} (spelled : Spells letters token) :
    ∀ c ∈ letters, c.toNat < 128 := by
  cases spelled with
  | sign _ sign =>
    cases token with
    | number | ident => cases sign
    | _ => exact ascii_of_all (by decide)
  | name proper =>
    obtain ⟨c, more, letters, starts, continues, _⟩ := proper
    rw [letters]
    exact List.forall_mem_cons.mpr ⟨isNameStart_byte c starts, fun d member => isNameChar_byte d (continues d member)⟩
  | number starts numeral =>
    exact List.forall_mem_cons.mpr
      ⟨isNumberChar_byte _ (number_start starts), fun d member => isNumberChar_byte d (numeral d member)⟩
  | _ => exact ascii_of_all (by decide)

private theorem tokenizeAt_end {text : List Char} {i : Nat} (behind : byteAt? text i = none) :
    tokenizeAt text i = some (.ok []) := by
  rw [tokenizeAt]
  split
  case h_1 => rfl
  case h_2 found => exact absurd (behind.symm.trans found) nofun

private theorem tokenizeAt_byte {text : List Char} {i : Nat} {c : Char} (there : byteAt? text i = some c) :
    tokenizeAt text i =
      if isSeparator c then tokenizeAt text (i + 1)
      else
        match scanAt text i c with
        | none => none
        | some (.error e) => some (.error e)
        | some (.ok (token, more)) =>
          (tokenizeAt text (i + 1 + more)).map fun later => (⟨token, i⟩ :: ·) <$> later := by
  rw [tokenizeAt]
  split
  case h_1 found => exact absurd (there.symm.trans found) nofun
  case h_2 found =>
    cases there.symm.trans found
    rfl

/-- The scanner over the bytes of a text never fails to take a slice, and splits the text as it is split by its
characters. The induction is on the text that is left, which starts at a character. -/
theorem tokenizeAt_eq (before rest : List Char) :
    tokenizeAt (before ++ rest) (bytes before).length = some (tokenizeFrom (bytes before).length rest) := by
  induction size : rest.length using Nat.strongRecOn generalizing before rest with
  | _ size ih =>
  cases rest with
  | nil =>
    rw [List.append_nil, tokenizeAt_end (byteAt?_end before), tokenizeFrom]
  | cons c rest =>
    rw [List.length_cons] at size
    obtain ⟨d, there, same⟩ := byteAt?_boundary before c rest
    rw [tokenizeAt_byte there, same _ isSeparator_byte, scanAt_boundary before rest same]
    split
    case isTrue separator =>
      obtain ⟨text, next⟩ := next_boundary (isSeparator_byte c separator) before rest
      rw [tokenizeFrom, if_pos separator, text, next]
      exact ih rest.length (by omega) (before ++ [c]) rest rfl
    case isFalse solid =>
      cases scanned : scan (bytes before).length c rest with
      | error e =>
        rw [tokenizeFrom, if_neg solid, scanned]
        rfl
      | ok found =>
        obtain ⟨token, more⟩ := found
        obtain ⟨letters, after, rfl, taken⟩ := scan_ok scanned
        obtain rfl := taken.split
        have length : (bytes before).length + 1 + letters.length = (bytes (before ++ c :: letters)).length := by
          rw [bytes_append, List.length_append, bytes_length taken.spelled.ascii, List.length_cons]
          omega
        have later := ih after.length (by rw [← size, List.length_append]; omega) (before ++ c :: letters) after rfl
        rw [List.append_assoc, List.cons_append, ← length] at later
        dsimp only
        rw [later, tokenizeFrom_token solid scanned, Option.map_some]

end DesktopPet.Condition

import DesktopPet.Proofs.Condition.Bytes

/-!
# Texts and their tokens

Splitting a text neither loses nor invents any of it. `Splits` follows the scanner from token to token, with the
letters that each was read from; what it has read is split on its own in the same way (`Splits.whole`), its pieces
stand one after the other (`Splits.placed`, `Splits.apart`), and between them there are only separators (`Splits.gaps`).
From this follows what `tokenize` says of every text, and which part of a text an error speaks of
(`tokenize_accounts`).
-/

namespace DesktopPet.Condition

/-- A token with the letters that it was read from. -/
structure Piece where
  located : Located
  letters : List Char

/-- The first byte of a piece. -/
def Piece.start (piece : Piece) : Nat :=
  piece.located.position

@[simp] theorem Piece.start_mk (t : Token) (position : Nat) (letters : List Char) :
    Piece.start ⟨⟨t, position⟩, letters⟩ = position :=
  rfl

/-- The byte behind a piece. -/
def Piece.stop (piece : Piece) : Nat :=
  piece.start + (bytes piece.letters).length

/-- From a byte on, these pieces of the text are read, and at another byte the rest of it is left. -/
inductive Splits : Nat → List Char → List Piece → Nat → List Char → Prop where
  | done (position : Nat) (rest : List Char) : Splits position rest [] position rest
  | skip {position place : Nat} {c : Char} {text rest : List Char} {pieces : List Piece}
      (separator : isSeparator c = true) (later : Splits (position + 1) text pieces place rest) :
      Splits position (c :: text) pieces place rest
  | token {position place : Nat} {c : Char} {letters after rest : List Char} {t : Token} {pieces : List Piece}
      (solid : ¬ isSeparator c = true) (taken : Taken c (letters ++ after) t letters after)
      (later : Splits (position + 1 + letters.length) after pieces place rest) :
      Splits position (c :: (letters ++ after)) (⟨⟨t, position⟩, c :: letters⟩ :: pieces) place rest

/-! ## What the scanner does -/

/-- The scanner splits to the end of a text, or to something that it cannot scan. -/
theorem tokenizeFrom_splits (position : Nat) (text : List Char) :
    match tokenizeFrom position text with
    | .ok tokens => ∃ pieces place, Splits position text pieces place [] ∧ pieces.map (·.located) = tokens
    | .error e => ∃ pieces place c rest,
      Splits position text pieces place (c :: rest) ∧ scan place c rest = .error e := by
  induction size : text.length using Nat.strongRecOn generalizing position text with
  | _ size ih =>
  cases text with
  | nil =>
    rw [tokenizeFrom]
    exact ⟨[], position, .done position [], rfl⟩
  | cons c rest =>
    rw [List.length_cons] at size
    by_cases separator : isSeparator c = true
    · have later := ih rest.length (by omega) (position + 1) rest rfl
      rw [tokenizeFrom, if_pos separator]
      split at later
      case h_1 =>
        obtain ⟨pieces, place, splits, located⟩ := later
        exact ⟨pieces, place, .skip separator splits, located⟩
      case h_2 =>
        obtain ⟨pieces, place, d, others, splits, refused⟩ := later
        exact ⟨pieces, place, d, others, .skip separator splits, refused⟩
    · cases scanned : scan position c rest with
      | error e =>
        rw [tokenizeFrom, if_neg separator, scanned]
        exact ⟨[], position, c, rest, .done position (c :: rest), scanned⟩
      | ok found =>
        obtain ⟨token, more⟩ := found
        obtain ⟨letters, after, rfl, taken⟩ := scan_ok scanned
        obtain rfl := taken.split
        have later := ih after.length (by rw [← size, List.length_append]; omega)
          (position + 1 + letters.length) after rfl
        rw [tokenizeFrom_token separator scanned]
        split at later
        case h_1 tokens split =>
          obtain ⟨pieces, place, splits, rfl⟩ := later
          rw [split]
          exact ⟨_, place, .token separator taken splits, rfl⟩
        case h_2 e split =>
          obtain ⟨pieces, place, d, others, splits, refused⟩ := later
          rw [split]
          exact ⟨_, place, d, others, .token separator taken splits, refused⟩

/-! ## What has been read -/

theorem separator_length {c : Char} (separator : isSeparator c = true) (text : List Char) :
    (bytes (c :: text)).length = 1 + (bytes text).length := by
  rw [bytes_cons, utf8EncodeChar_ascii (isSeparator_byte c separator), List.singleton_append, List.length_cons,
    Nat.add_comm]

private theorem token_length {c : Char} {letters : List Char} {token : Token} (spelled : Spells (c :: letters) token)
    (text : List Char) : (bytes (c :: letters ++ text)).length = 1 + letters.length + (bytes text).length := by
  rw [bytes_append, List.length_append, bytes_length spelled.ascii, List.length_cons, Nat.add_comm 1]

section Run

variable {position place : Nat} {text rest : List Char} {pieces : List Piece}

/-- What has been read would be read without the rest, too. -/
theorem Splits.whole (splits : Splits position text pieces place rest) :
    ∃ before, text = before ++ rest ∧ place = position + (bytes before).length ∧
      tokenizeFrom position before = .ok (pieces.map (·.located)) := by
  induction splits with
  | done position rest => exact ⟨[], rfl, rfl, tokenizeFrom.eq_1 position⟩
  | @skip position place c text rest pieces separator later ih =>
    obtain ⟨before, rfl, rfl, split⟩ := ih
    refine ⟨c :: before, rfl, ?_, by rw [tokenizeFrom, if_pos separator, split]⟩
    rw [separator_length separator, Nat.add_assoc]
  | @token position place c letters after rest t pieces solid taken later ih =>
    obtain ⟨before, rfl, rfl, split⟩ := ih
    have scanned := taken.cut position before (List.prefix_append before rest)
    refine ⟨c :: (letters ++ before), by rw [List.cons_append, List.append_assoc], ?_, ?_⟩
    · rw [← List.cons_append, token_length taken.spelled]
      omega
    · rw [tokenizeFrom_token solid scanned, split]
      rfl

/-- Each piece stands in the text where it says and spells its token. -/
theorem Splits.placed (splits : Splits position text pieces place rest) : ∀ piece ∈ pieces,
    Spells piece.letters piece.located.token ∧
      ∃ front back, text = front ++ piece.letters ++ back ∧ piece.start = position + (bytes front).length := by
  induction splits with
  | done => nofun
  | @skip position place c text rest pieces separator later ih =>
    intro piece member
    obtain ⟨spelled, front, back, rfl, start⟩ := ih piece member
    refine ⟨spelled, c :: front, back, rfl, ?_⟩
    rw [start, separator_length separator, Nat.add_assoc]
  | @token position place c letters after rest t pieces solid taken later ih =>
    refine List.forall_mem_cons.mpr ⟨⟨taken.spelled, [], after, rfl, rfl⟩, fun piece member => ?_⟩
    obtain ⟨spelled, front, back, rfl, start⟩ := ih piece member
    refine ⟨spelled, c :: letters ++ front, back, by simp, ?_⟩
    rw [start, token_length taken.spelled]
    omega

/-- A piece ends before the next one starts. -/
theorem Splits.apart (splits : Splits position text pieces place rest) :
    pieces.Pairwise fun piece later => piece.stop ≤ later.start := by
  induction splits with
  | done => exact .nil
  | skip separator later ih => exact ih
  | @token position place c letters after rest t pieces solid taken later ih =>
    refine .cons (fun piece member => ?_) ih
    obtain ⟨_, front, _, _, start⟩ := later.placed piece member
    rw [Piece.stop, Piece.start_mk, bytes_length taken.spelled.ascii, List.length_cons, start]
    omega

/-- Between the pieces there are only separators. -/
theorem Splits.gaps (splits : Splits position text pieces place rest) : ∀ i byte, (bytes text)[i]? = some byte →
    position + i < place → (∃ piece ∈ pieces, piece.start ≤ position + i ∧ position + i < piece.stop) ∨
      isSeparator (byteChar byte) = true := by
  induction splits with
  | done =>
    intro i byte _ inside
    omega
  | @skip position place c text rest pieces separator later ih =>
    intro i byte there inside
    obtain ⟨first, others, encoded, same⟩ := first_byte c
    cases encoded.symm.trans (utf8EncodeChar_ascii (isSeparator_byte c separator))
    rw [bytes_cons, encoded, List.singleton_append] at there
    cases i with
    | zero =>
      cases Option.some.inj there
      exact .inr ((same _ isSeparator_byte).trans separator)
    | succ i =>
      have further : position + (i + 1) = position + 1 + i := by omega
      rw [further]
      exact ih i byte there (further ▸ inside)
  | @token position place c letters after rest t pieces solid taken later ih =>
    intro i byte there inside
    have length : (bytes (c :: letters)).length = 1 + letters.length := by
      rw [bytes_length taken.spelled.ascii, List.length_cons, Nat.add_comm]
    by_cases within : i < 1 + letters.length
    · exact .inl ⟨_, List.mem_cons_self, Nat.le_add_right _ _, by rw [Piece.stop, Piece.start_mk, length]; omega⟩
    · rw [← List.cons_append, bytes_append, List.getElem?_append_right (by omega), length] at there
      have further : position + i = position + 1 + letters.length + (i - (1 + letters.length)) := by omega
      rw [further] at inside ⊢
      exact (ih _ byte there inside).imp_left fun ⟨piece, member, bounds⟩ =>
        ⟨piece, List.mem_cons_of_mem _ member, bounds⟩

end Run

/-! ## The law of the tokens -/

/-- The pieces account for the whole text: their positions increase, each is a slice of the text that spells its
token, they do not overlap, and every other byte is a separator. -/
structure Accounts (text : List Char) (pieces : List Piece) : Prop where
  increasing : pieces.Pairwise fun piece later => piece.start < later.start
  sliced : ∀ piece ∈ pieces, slice? text piece.start piece.stop = some piece.letters
  spelled : ∀ piece ∈ pieces, Spells piece.letters piece.located.token
  apart : pieces.Pairwise fun piece later => piece.stop ≤ later.start
  gaps : ∀ i byte, (bytes text)[i]? = some byte →
    (∃ piece ∈ pieces, piece.start ≤ i ∧ i < piece.stop) ∨ isSeparator (byteChar byte) = true

theorem Spells.nonempty {letters : List Char} {token : Token} (spelled : Spells letters token) :
    0 < (bytes letters).length := by
  rw [bytes_length spelled.ascii, List.length_pos_iff]
  cases spelled with
  | sign _ sign =>
    obtain ⟨c, more, shown, _⟩ := operator_display token sign [] nofun
    rw [shown]
    exact List.cons_ne_nil c more
  | name proper =>
    obtain ⟨c, more, shown, _⟩ := proper.head
    rw [shown]
    exact List.cons_ne_nil c more
  | number => exact List.cons_ne_nil _ _
  | _ => exact nofun

/-- A text that is read to its end is accounted for. -/
theorem Splits.accounts {text : List Char} {pieces : List Piece} {place : Nat}
    (splits : Splits 0 text pieces place []) : Accounts text pieces where
  increasing := splits.apart.imp_of_mem fun member _ apart => by
    have nonempty := (splits.placed _ member).1.nonempty
    rw [Piece.stop] at apart
    omega
  sliced := by
    intro piece member
    obtain ⟨_, front, back, rfl, start⟩ := splits.placed piece member
    rw [Piece.stop, start, Nat.zero_add]
    exact slice?_append front piece.letters back
  spelled := fun piece member => (splits.placed piece member).1
  apart := splits.apart
  gaps := by
    intro i byte there
    obtain ⟨before, rfl, rfl, _⟩ := splits.whole
    rw [List.append_nil] at there
    have inside := (List.getElem?_eq_some_iff.mp there).1
    simpa using splits.gaps i byte (by rw [List.append_nil, there]) (by omega)

/-- Splitting neither loses nor invents text. Over the bytes of the text no slice fails, and the outcome is that of
`tokenize`. If there are tokens, they account for the text. An unexpected character stands whole at its position, an
invalid number is a run of digits and points that ends where they end and does not read as a number, and in both
cases the text before has tokens. No other error arises. -/
theorem tokenize_accounts (text : List Char) :
    tokenizeAt text 0 = some (tokenize text) ∧
      match tokenize text with
      | .ok tokens => ∃ pieces, pieces.map (·.located) = tokens ∧ Accounts text pieces
      | .error (.unexpectedChar char position) => ∃ before after, text = before ++ char :: after ∧
        (bytes before).length = position ∧ ∃ tokens, tokenize before = .ok tokens
      | .error (.invalidNumber literal) => ∃ before after, text = before ++ literal.toList ++ after ∧
        literal.toList ≠ [] ∧ (∀ c ∈ literal.toList, isNumberChar c = true) ∧ StartsUnlike isNumberChar after ∧
        Number.read? literal.toList = none ∧ ∃ tokens, tokenize before = .ok tokens
      | .error _ => False := by
  refine ⟨tokenizeAt_eq [] text, ?_⟩
  have reading := tokenizeFrom_splits 0 text
  rw [tokenize]
  split at reading
  case h_1 tokens split =>
    obtain ⟨pieces, place, splits, located⟩ := reading
    rw [split]
    exact ⟨pieces, located, splits.accounts⟩
  case h_2 e split =>
    obtain ⟨pieces, place, c, rest, splits, refused⟩ := reading
    obtain ⟨before, rfl, place_eq, read⟩ := splits.whole
    rw [split]
    rcases scan_error refused with rfl | ⟨rfl, number, unread⟩
    · exact ⟨before, rest, rfl, by omega, _, read⟩
    · dsimp only
      rw [String.toList_ofList]
      refine ⟨before, rest.dropWhile isNumberChar, ?_, List.cons_ne_nil _ _,
        List.forall_mem_cons.mpr ⟨number, run_kind⟩, startsUnlike_dropWhile _ rest, unread, _, read⟩
      rw [List.append_assoc, List.cons_append, List.takeWhile_append_dropWhile]

end DesktopPet.Condition

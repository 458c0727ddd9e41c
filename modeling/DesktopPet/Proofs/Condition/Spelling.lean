import DesktopPet.Proofs.Condition.Lexing

/-!
# How tokens are spelled

`Spells` says with which letters a token may be written. What scanning takes from a text is a spelling of its token
(`scan_ok`), and what comes later does not matter: with less text behind it the same letters are taken again. Text
that is no token is refused for its first character, or for a run of digits and points that is no number
(`scan_error`).
-/

namespace DesktopPet.Condition

/-- The letters of a token: of a sign those that it is displayed with, where equality may also be spelled with one
sign more or less, and the connectives as words. A number is a run of digits and points that reads as its value. -/
inductive Spells : List Char → Token → Prop where
  | sign (t : Token) (sign : t.isSign = true) : Spells t.display.toList t
  | shortEqual : Spells ['='] .eq
  | longEqual : Spells ['=', '=', '='] .eq
  | longUnequal : Spells ['!', '=', '='] .ne
  | conjunction : Spells "and".toList .and
  | disjunction : Spells "or".toList .or
  | negation : Spells "not".toList .not
  | name {name : String} (proper : IsName name) : Spells name.toList (.ident name)
  | number {c : Char} {more : List Char} {value : Float} (starts : startsNumber c more = true)
      (numeral : ∀ d ∈ more, isNumberChar d = true) (read : Number.read? (c :: more) = some value) :
      Spells (c :: more) (.number value)

/-- The token at the start of `c :: rest` takes these letters of the rest and leaves what comes after them, and so it
does if less comes after them. -/
structure Taken (c : Char) (rest : List Char) (token : Token) (letters after : List Char) : Prop where
  split : rest = letters ++ after
  spelled : Spells (c :: letters) token
  cut : ∀ position following, following <+: after →
    scan position c (letters ++ following) = .ok (token, letters.length)

/-! ## Runs -/

theorem StartsUnlike.cut {kind : Char → Bool} {after following : List Char} (apart : StartsUnlike kind after)
    (cut : following <+: after) : StartsUnlike kind following := by
  obtain ⟨more, rfl⟩ := cut
  cases following with
  | nil => nofun
  | cons c others => exact apart

/-- A run ends where its kind of characters ends. -/
theorem startsUnlike_dropWhile (kind : Char → Bool) (text : List Char) : StartsUnlike kind (text.dropWhile kind) := by
  intro c head
  have stops := List.head?_dropWhile_not kind text
  rw [Option.mem_def.mp head] at stops
  exact stops

theorem run_kind {kind : Char → Bool} {text : List Char} : ∀ c ∈ text.takeWhile kind, kind c = true :=
  fun _ member => List.all_eq_true.mp List.all_takeWhile _ member

/-- Whether a number starts is seen in the run that would be its literal. -/
theorem startsNumber_run {c : Char} {rest : List Char} (starts : startsNumber c rest = true) (following : List Char) :
    startsNumber c (rest.takeWhile isNumberChar ++ following) = true := by
  rcases Bool.or_eq_true_iff.mp starts with digit | pointed
  · exact Bool.or_eq_true_iff.mpr (.inl digit)
  · obtain ⟨point, next⟩ := Bool.and_eq_true_iff.mp pointed
    cases rest with
    | nil => cases next
    | cons d others =>
      have digit : d.isDigit = true := next
      have number : isNumberChar d = true := Bool.or_eq_true_iff.mpr (.inl digit)
      rw [List.takeWhile_cons_of_pos number]
      exact Bool.or_eq_true_iff.mpr (.inr (Bool.and_eq_true_iff.mpr ⟨point, digit⟩))

theorem number_start {c : Char} {rest : List Char} (starts : startsNumber c rest = true) : isNumberChar c = true := by
  rcases Bool.or_eq_true_iff.mp starts with digit | pointed
  · exact Bool.or_eq_true_iff.mpr (.inl digit)
  · exact Bool.or_eq_true_iff.mpr (.inr (Bool.and_eq_true_iff.mp pointed).1)

/-! ## The three classes of tokens -/

/-- A number takes the whole run of digits and points. -/
theorem number_taken {c : Char} {rest : List Char} {value : Float} (starts : startsNumber c rest = true)
    (read : Number.read? (c :: rest.takeWhile isNumberChar) = some value) :
    Taken c rest (.number value) (rest.takeWhile isNumberChar) (rest.dropWhile isNumberChar) where
  split := List.takeWhile_append_dropWhile.symm
  spelled := by
    have within := startsNumber_run starts []
    rw [List.append_nil] at within
    exact .number within run_kind read
  cut := by
    intro position following cut
    have apart := (startsUnlike_dropWhile isNumberChar rest).cut cut
    rw [scan, if_pos (startsNumber_run starts following), takeWhile_stops run_kind apart]
    dsimp only
    rw [read]

/-- A word is a connective or a name. -/
theorem spells_word {c : Char} {more : List Char} (starts : isNameStart c = true)
    (continues : ∀ d ∈ more, isNameChar d = true) :
    Spells (c :: more) (wordToken (String.ofList (c :: more))) := by
  have letters : (String.ofList (c :: more)).toList = c :: more := String.toList_ofList
  generalize String.ofList (c :: more) = word at letters
  rw [← letters]
  by_cases conjunction : word = "and"
  · exact conjunction ▸ .conjunction
  by_cases disjunction : word = "or"
  · exact disjunction ▸ .disjunction
  by_cases negation : word = "not"
  · exact negation ▸ .negation
  have plain : wordToken word = .ident word := by
    rw [wordToken] <;> assumption
  exact plain ▸ .name ⟨c, more, letters, starts, continues, plain⟩

/-- A word takes the whole run of letters, digits and underscores. -/
theorem word_taken {c : Char} {rest : List Char} (starts : isNameStart c = true) :
    Taken c rest (wordToken (String.ofList (c :: rest.takeWhile isNameChar))) (rest.takeWhile isNameChar)
      (rest.dropWhile isNameChar) where
  split := List.takeWhile_append_dropWhile.symm
  spelled := spells_word starts run_kind
  cut := by
    intro position following cut
    obtain ⟨_, noDigit, noPoint⟩ := solid_of_nameStart starts
    have unnumbered : ¬ startsNumber c (rest.takeWhile isNameChar ++ following) = true := by
      simp [startsNumber, noDigit, noPoint]
    have apart := (startsUnlike_dropWhile isNameChar rest).cut cut
    rw [scan, if_neg unnumbered, if_pos starts, takeWhile_stops run_kind apart]

/-- A sign is taken as it is displayed. -/
theorem sign_taken {c : Char} {rest after : List Char} {t : Token} (sign : t.isSign = true)
    (displayed : c :: rest = t.display.toList ++ after) (apart : StartsUnlike t.goesOn after) :
    ∃ letters, t.display.toList = c :: letters ∧ Taken c rest t letters after := by
  obtain ⟨first, letters, shown, _⟩ := operator_display t sign [] nofun
  rw [shown] at displayed
  obtain ⟨rfl, rest_eq⟩ := List.cons.inj displayed
  refine ⟨letters, shown, rest_eq, shown ▸ .sign t sign, ?_⟩
  intro position following cut
  obtain ⟨_, _, again, _, unnumbered, unnamed, found⟩ := operator_display t sign following (apart.cut cut)
  cases shown.symm.trans again
  rw [scan, unnumbered, if_neg Bool.false_ne_true, unnamed, if_neg Bool.false_ne_true, found]

/-- One sign of equality alone is taken for two. -/
theorem shortEqual_taken {rest : List Char} (apart : StartsUnlike (· = '=') rest) :
    Taken '=' rest .eq [] rest := by
  refine ⟨rfl, .shortEqual, fun position following cut => ?_⟩
  have alone := apart.cut cut
  cases following with
  | nil => rfl
  | cons d others =>
    have other : d ≠ '=' := of_decide_eq_false (alone d rfl)
    have found : operator? ('=' :: d :: others) = some (.eq, 0) := by rw [operator?] <;> simp [other]
    rw [List.nil_append, scan, if_neg (by exact Bool.false_ne_true), if_neg (by decide), found]
    rfl

private theorem startsUnlike_equals {rest : List Char} (other : ∀ tail, rest = '=' :: tail → False) :
    StartsUnlike (· = '=') rest := by
  cases rest with
  | nil => nofun
  | cons d others => exact startsUnlike_cons others (decide_eq_false fun same => other others (same ▸ rfl))

/-- The operators take what `operator?` finds. -/
theorem operator_taken {c : Char} {rest : List Char} {token : Token} {more : Nat}
    (unnumbered : startsNumber c rest = false) (found : operator? (c :: rest) = some (token, more)) :
    ∃ letters after, letters.length = more ∧ Taken c rest token letters after := by
  have displayed {after : List Char} (sign : token.isSign = true) (length : token.display.toList.length = more + 1)
      (text : c :: rest = token.display.toList ++ after) (apart : StartsUnlike token.goesOn after) :
      ∃ letters after, letters.length = more ∧ Taken c rest token letters after := by
    obtain ⟨letters, shown, taken⟩ := sign_taken sign text apart
    rw [shown, List.length_cons] at length
    exact ⟨letters, after, by omega, taken⟩
  unfold operator? at found
  split at found
  all_goals try cases found
  case h_1.refl same =>
    cases same
    exact ⟨['=', '='], _, rfl, rfl, .longEqual, fun _ _ _ => rfl⟩
  case h_2.refl same =>
    cases same
    exact ⟨['=', '='], _, rfl, rfl, .longUnequal, fun _ _ _ => rfl⟩
  case h_15.refl other same =>
    cases same
    exact ⟨[], _, rfl, shortEqual_taken (startsUnlike_equals other)⟩
  -- no other sign is followed by one that would lengthen it
  all_goals try exact displayed rfl rfl (by assumption) (startsUnlike_equals (by assumption))
  all_goals try exact displayed rfl rfl (by assumption) fun _ _ => rfl
  case h_12.refl same =>
    -- a point before a digit would have started a number
    refine displayed rfl rfl same ?_
    cases same
    cases rest with
    | nil => nofun
    | cons d others => exact startsUnlike_cons others unnumbered

/-! ## Scanning -/

/-- What is scanned is a spelling of its token, and does not depend on the text after it. -/
theorem scan_ok {position : Nat} {c : Char} {rest : List Char} {token : Token} {more : Nat}
    (scanned : scan position c rest = .ok (token, more)) :
    ∃ letters after, letters.length = more ∧ Taken c rest token letters after := by
  unfold scan at scanned
  split at scanned
  case isTrue starts =>
    dsimp only at scanned
    split at scanned
    case h_1 value read =>
      cases scanned
      exact ⟨_, _, rfl, number_taken starts read⟩
    case h_2 => cases scanned
  case isFalse unnumbered =>
    split at scanned
    case isTrue starts =>
      cases scanned
      exact ⟨_, _, rfl, word_taken starts⟩
    case isFalse =>
      split at scanned
      case h_1 found operator =>
        cases scanned
        exact operator_taken (Bool.eq_false_iff.mpr unnumbered) operator
      case h_2 => cases scanned

/-- What is not scanned is a character that starts no token, or a run of digits and points that is no number. -/
theorem scan_error {position : Nat} {c : Char} {rest : List Char} {e : CompileError}
    (refused : scan position c rest = .error e) :
    e = .unexpectedChar c position ∨
      (e = .invalidNumber (String.ofList (c :: rest.takeWhile isNumberChar)) ∧ isNumberChar c = true ∧
        Number.read? (c :: rest.takeWhile isNumberChar) = none) := by
  unfold scan at refused
  split at refused
  case isTrue starts =>
    dsimp only at refused
    split at refused
    case h_1 => cases refused
    case h_2 unread =>
      cases refused
      exact .inr ⟨rfl, number_start starts, unread⟩
  case isFalse =>
    split at refused
    case isTrue => cases refused
    case isFalse =>
      split at refused
      case h_1 => cases refused
      case h_2 =>
        cases refused
        exact .inl rfl

/-- A scanned token is followed by the tokens of the text after it. -/
theorem tokenizeFrom_token {position : Nat} {c : Char} {letters after : List Char} {token : Token}
    (solid : ¬ isSeparator c = true) (scanned : scan position c (letters ++ after) = .ok (token, letters.length)) :
    tokenizeFrom position (c :: (letters ++ after)) =
      (⟨token, position⟩ :: ·) <$> tokenizeFrom (position + 1 + letters.length) after := by
  rw [tokenizeFrom, if_neg solid, scanned]
  dsimp only [bind, Except.bind]
  rw [List.drop_left]
  cases tokenizeFrom (position + 1 + letters.length) after <;> rfl

end DesktopPet.Condition

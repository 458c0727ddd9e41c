import DesktopPet.Proofs.Condition.Grammar

/-!
# Splitting texts into tokens

A text is split in the same way wherever it stands, as long as what follows does not go on with its last token.
`Lexes` says this of one piece of text, and `Lexes.append` puts pieces together, so that a printed text is split
piece by piece.
-/

namespace DesktopPet.Condition

/-- What follows does not start with a character of this kind. -/
def StartsUnlike (kind : Char → Bool) (rest : List Char) : Prop :=
  ∀ c ∈ rest.head?, kind c = false

/-- Before anything that does not start with a character of the given kind, the text is split into tokens of this
form, and splitting goes on behind it. -/
def Lexes (text : List Char) (goesOn : Char → Bool) (form : List Located → Prop) : Prop :=
  ∀ position rest, StartsUnlike goesOn rest → ∃ tokens, form tokens ∧
    tokenizeFrom position (text ++ rest) = (tokens ++ ·) <$> tokenizeFrom (position + text.length) rest

/-! ## Pieces of text -/

theorem startsUnlike_cons {kind : Char → Bool} {c : Char} (rest : List Char) (other : kind c = false) :
    StartsUnlike kind (c :: rest) := by
  intro first head
  cases Option.some.inj head
  exact other

private theorem startsUnlike_append {kind : Char → Bool} {text rest : List Char}
    (head : ∀ c ∈ text.head?, kind c = false) (after : StartsUnlike kind rest) : StartsUnlike kind (text ++ rest) := by
  cases text with
  | nil => exact after
  | cons c more => exact startsUnlike_cons _ (head c rfl)

section Pieces

variable {first second : List Char} {goesOn goesOn' : Char → Bool} {form form' : List Located → Prop}

/-- Two pieces are split one after the other, if the second does not go on with the first. -/
theorem Lexes.append (one : Lexes first goesOn form) (two : Lexes second goesOn' form')
    (apart : ∀ rest, StartsUnlike goesOn' rest → StartsUnlike goesOn (second ++ rest)) :
    Lexes (first ++ second) goesOn' fun tokens => ∃ a b, form a ∧ form' b ∧ tokens = a ++ b := by
  intro position rest after
  obtain ⟨a, formed, split⟩ := one position (second ++ rest) (apart rest after)
  obtain ⟨b, formed', split'⟩ := two (position + first.length) rest after
  refine ⟨a ++ b, ⟨a, b, formed, formed', rfl⟩, ?_⟩
  rw [List.append_assoc, split, split', List.length_append, Nat.add_assoc]
  cases tokenizeFrom (position + (first.length + second.length)) rest with
  | error e => rfl
  | ok tokens => simp [Functor.map, Except.map]

theorem Lexes.mono (lexes : Lexes first goesOn form) (weaker : ∀ tokens, form tokens → form' tokens) :
    Lexes first goesOn form' := by
  intro position rest after
  obtain ⟨tokens, formed, split⟩ := lexes position rest after
  exact ⟨tokens, weaker tokens formed, split⟩

/-- A piece that is split before more texts is split before fewer. -/
theorem Lexes.narrow (lexes : Lexes first goesOn form) (narrower : ∀ c, goesOn' c = false → goesOn c = false) :
    Lexes first goesOn' form :=
  fun position rest after => lexes position rest fun c head => narrower c (after c head)

/-- The whole of a text is split. -/
theorem Lexes.tokenize (lexes : Lexes first goesOn form) :
    ∃ tokens, form tokens ∧ tokenize first = .ok tokens := by
  obtain ⟨tokens, formed, split⟩ := lexes 0 [] nofun
  refine ⟨tokens, formed, ?_⟩
  rw [Condition.tokenize, ← List.append_nil first, split, tokenizeFrom]
  simp [Functor.map, Except.map]

end Pieces

/-! ## Single tokens -/

theorem tokenizeFrom_separators (gap : List Char) (apart : ∀ c ∈ gap, isSeparator c = true) (position : Nat)
    (rest : List Char) : tokenizeFrom position (gap ++ rest) = tokenizeFrom (position + gap.length) rest := by
  induction gap generalizing position with
  | nil => rfl
  | cons c more ih =>
    have here : isSeparator c = true := apart c List.mem_cons_self
    have later := ih (fun d member => apart d (List.mem_cons_of_mem c member)) (position + 1)
    rw [List.cons_append, tokenizeFrom, if_pos here, later, List.length_cons]
    congr 1
    omega

/-- Separators are no tokens. -/
theorem gap_lexes (gap : List Char) (apart : ∀ c ∈ gap, isSeparator c = true) :
    Lexes gap (fun _ => false) (· = []) := by
  intro position rest _
  refine ⟨[], rfl, ?_⟩
  rw [tokenizeFrom_separators gap apart]
  cases tokenizeFrom (position + gap.length) rest <;> rfl

/-- A token is split off as it is scanned. -/
theorem token_lexes {c : Char} {more : List Char} {goesOn : Char → Bool} {token : Token}
    (solid : isSeparator c = false)
    (scanned : ∀ position rest, StartsUnlike goesOn rest →
      scan position c (more ++ rest) = .ok (token, more.length)) :
    Lexes (c :: more) goesOn fun tokens => ∃ position, tokens = [⟨token, position⟩] := by
  intro position rest after
  refine ⟨[⟨token, position⟩], ⟨position, rfl⟩, ?_⟩
  have behind : position + (c :: more).length = position + 1 + more.length := by
    rw [List.length_cons]
    omega
  rw [List.cons_append, tokenizeFrom, solid, if_neg Bool.false_ne_true, scanned position rest after, behind]
  dsimp only [bind, Except.bind]
  rw [List.drop_left]
  cases tokenizeFrom (position + 1 + more.length) rest <;> rfl

theorem takeWhile_stops {kind : Char → Bool} {text rest : List Char} (all : ∀ c ∈ text, kind c = true)
    (after : StartsUnlike kind rest) : (text ++ rest).takeWhile kind = text := by
  rw [List.takeWhile_append_of_pos all]
  cases rest with
  | nil => simp
  | cons c more =>
    have other : kind c = false := after c rfl
    simp [other]

/-- No separator is of this kind. -/
def sparesSeparators (kind : Char → Bool) : Bool :=
  [' ', '\t', '\n', '\x0c', '\r'].all fun c => !kind c

theorem solid_of {kind : Char → Bool} {c : Char} (holds : kind c = true) (spares : sparesSeparators kind = true) :
    isSeparator c = false := by
  cases separator : isSeparator c with
  | false => rfl
  | true =>
    have listed : c ∈ [' ', '\t', '\n', '\x0c', '\r'] := by simpa [isSeparator, or_assoc] using separator
    have other := List.all_eq_true.mp spares c listed
    simp [holds] at other

/-- A gap goes on with nothing that separators do not go on with. -/
theorem gap_apart {kind : Char → Bool} {gap rest : List Char} (separators : ∀ c ∈ gap, isSeparator c = true)
    (spares : sparesSeparators kind = true) (after : StartsUnlike kind rest) :
    StartsUnlike kind (gap ++ rest) := by
  refine startsUnlike_append (fun c head => ?_) after
  cases holds : kind c with
  | false => rfl
  | true =>
    have solid := solid_of holds spares
    have separator := separators c (List.mem_of_mem_head? head)
    exact absurd (solid.symm.trans separator) nofun

/-- The code of a letter. -/
theorem isAlpha_code {c : Char} (letter : c.isAlpha = true) :
    (65 ≤ c.toNat ∧ c.toNat ≤ 90) ∨ (97 ≤ c.toNat ∧ c.toNat ≤ 122) := by
  rcases Bool.or_eq_true_iff.mp letter with upper | lower
  · exact Or.inl (of_decide_eq_true upper)
  · obtain ⟨low, high⟩ := Bool.and_eq_true_iff.mp lower
    exact Or.inr ⟨of_decide_eq_true low, of_decide_eq_true high⟩

/-- The code of a digit. -/
theorem isDigit_code {c : Char} (digit : c.isDigit = true) : 48 ≤ c.toNat ∧ c.toNat ≤ 57 := by
  obtain ⟨low, high⟩ := Bool.and_eq_true_iff.mp digit
  exact ⟨of_decide_eq_true low, of_decide_eq_true high⟩

theorem solid_of_nameStart {c : Char} (starts : isNameStart c = true) :
    isSeparator c = false ∧ c.isDigit = false ∧ c ≠ '.' := by
  refine ⟨solid_of starts (by decide), ?_, ?_⟩
  · cases digit : c.isDigit with
    | false => rfl
    | true =>
      have code := isDigit_code digit
      simp only [isNameStart, Bool.or_eq_true, decide_eq_true_eq] at starts
      rcases starts with letter | rfl
      · have := isAlpha_code letter
        omega
      · exact absurd digit (by decide)
  · rintro rfl
    exact absurd starts (by decide)

/-! ## Signs -/

/-- Tokens that are neither names nor numbers. -/
def Token.isSign : Token → Bool
  | .number _ | .ident _ => false
  | _ => true

/-- The characters that make another token of a sign if they follow it. -/
def Token.goesOn : Token → Char → Bool
  | .lt, c | .gt, c | .eq, c | .ne, c | .not, c => c = '='
  | .dot, c => c.isDigit
  | _, _ => false

/-- A sign is the longest operator at the start of a text, unless what follows goes on with it. -/
theorem operator_display (t : Token) (sign : t.isSign = true) (rest : List Char)
    (after : StartsUnlike t.goesOn rest) : ∃ c more, t.display.toList = c :: more ∧ isSeparator c = false ∧
      startsNumber c (more ++ rest) = false ∧ isNameStart c = false ∧
      operator? (c :: (more ++ rest)) = some (t, more.length) := by
  cases rest with
  | nil =>
    cases t with
    | number | ident => cases sign
    | _ => exact ⟨_, _, rfl, rfl, rfl, rfl, rfl⟩
  | cons d others =>
    have apart : t.goesOn d = false := after d rfl
    have other (equals : t.goesOn d = decide (d = '=')) : d ≠ '=' := by simpa [equals] using apart
    cases t with
    | number | ident => cases sign
    | lt =>
      refine ⟨'<', [], rfl, rfl, rfl, rfl, ?_⟩
      rw [List.nil_append, operator?] <;> simp [other rfl]
    | gt =>
      refine ⟨'>', [], rfl, rfl, rfl, rfl, ?_⟩
      rw [List.nil_append, operator?] <;> simp [other rfl]
    | not =>
      refine ⟨'!', [], rfl, rfl, rfl, rfl, ?_⟩
      rw [List.nil_append, operator?] <;> simp [other rfl]
    | eq =>
      refine ⟨'=', ['='], rfl, rfl, rfl, rfl, ?_⟩
      rw [List.singleton_append, operator?] <;> simp [other rfl]
    | ne =>
      refine ⟨'!', ['='], rfl, rfl, rfl, rfl, ?_⟩
      rw [List.singleton_append, operator?] <;> simp [other rfl]
    | dot =>
      have unnumbered : startsNumber '.' (d :: others) = false := by
        simpa [startsNumber, Token.goesOn] using apart
      exact ⟨'.', [], rfl, rfl, unnumbered, rfl, rfl⟩
    | _ => exact ⟨_, _, rfl, rfl, rfl, rfl, rfl⟩

theorem sign_lexes (t : Token) (sign : t.isSign = true) :
    Lexes t.display.toList t.goesOn fun tokens => ∃ position, tokens = [⟨t, position⟩] := by
  obtain ⟨c, more, letters, solid, _⟩ := operator_display t sign [] nofun
  rw [letters]
  refine token_lexes solid fun position rest after => ?_
  obtain ⟨c', more', letters', _, unnumbered, unnamed, found⟩ := operator_display t sign rest after
  cases letters.symm.trans letters'
  rw [scan, unnumbered, if_neg Bool.false_ne_true, unnamed, if_neg Bool.false_ne_true, found]

/-! ## Names and paths -/

/-- A name as it may be written in a condition: a word that is none of the connectives. -/
def IsName (name : String) : Prop :=
  ∃ c more, name.toList = c :: more ∧ isNameStart c = true ∧ (∀ d ∈ more, isNameChar d = true) ∧
    wordToken name = .ident name

theorem name_lexes {name : String} (proper : IsName name) :
    Lexes name.toList isNameChar fun tokens => ∃ position, tokens = [⟨.ident name, position⟩] := by
  obtain ⟨c, more, letters, starts, continues, plain⟩ := proper
  obtain ⟨solid, noDigit, noPoint⟩ := solid_of_nameStart starts
  rw [letters]
  refine token_lexes solid fun position rest after => ?_
  have word : String.ofList (c :: more) = name := by rw [← letters, String.ofList_toList]
  have unnumbered : startsNumber c (more ++ rest) = false := by simp [startsNumber, noDigit, noPoint]
  rw [scan, unnumbered, if_neg Bool.false_ne_true, if_pos starts, takeWhile_stops continues after]
  dsimp only
  rw [word, plain]

/-- A path as written: names with dots between them. -/
def pathText : List String → List Char
  | [] => []
  | [name] => name.toList
  | name :: rest => name.toList ++ '.' :: pathText rest

theorem IsName.head {name : String} (proper : IsName name) :
    ∃ c more, name.toList = c :: more ∧ isNameStart c = true := by
  obtain ⟨c, more, letters, starts, _⟩ := proper
  exact ⟨c, more, letters, starts⟩

theorem pathText_cons (name next : String) (others : List String) :
    pathText (name :: next :: others) = name.toList ++ ['.'] ++ pathText (next :: others) := by
  rw [pathText]
  · simp
  · nofun

theorem pathText_head {path : List String} (named : path ≠ []) (proper : ∀ name ∈ path, IsName name) :
    ∃ c more, pathText path = c :: more ∧ isNameStart c = true := by
  cases path with
  | nil => exact absurd rfl named
  | cons name rest =>
    obtain ⟨c, more, letters, starts⟩ := (proper name List.mem_cons_self).head
    cases rest with
    | nil => exact ⟨c, more, letters, starts⟩
    | cons next others =>
      refine ⟨c, more ++ ['.'] ++ pathText (next :: others), ?_, starts⟩
      rw [pathText_cons, letters]
      rfl

theorem path_lexes {path : List String} (named : path ≠ []) (proper : ∀ name ∈ path, IsName name) :
    Lexes (pathText path) isNameChar (IsPath · path) := by
  induction path with
  | nil => exact absurd rfl named
  | cons name rest ih =>
    have first := name_lexes (proper name List.mem_cons_self)
    cases rest with
    | nil =>
      refine first.mono ?_
      rintro tokens ⟨position, rfl⟩
      exact .name name position
    | cons next others =>
      have properRest : ∀ other ∈ next :: others, IsName other := fun other member =>
        proper other (List.mem_cons_of_mem name member)
      obtain ⟨c, more, letters, starts⟩ := pathText_head (List.cons_ne_nil next others) properRest
      have dotted := (first.append (sign_lexes .dot rfl) fun rest _ => startsUnlike_cons rest rfl).append
        (ih (List.cons_ne_nil next others) properRest) fun rest _ => by
          rw [letters]
          exact startsUnlike_cons _ (solid_of_nameStart starts).2.1
      rw [pathText_cons]
      refine dotted.mono ?_
      rintro tokens ⟨_, after, ⟨_, _, ⟨position, rfl⟩, ⟨dot, rfl⟩, rfl⟩, written, rfl⟩
      exact .dotted name position dot written

/-! ## Numbers -/

/-- A number literal ends where digits and points end. -/
theorem number_lexes {c : Char} {more : List Char} {x : Float} (digit : c.isDigit = true)
    (numeral : ∀ d ∈ more, isNumberChar d = true) (read : Number.read? (c :: more) = some x) :
    Lexes (c :: more) isNumberChar fun tokens => ∃ position, tokens = [⟨.number x, position⟩] := by
  refine token_lexes (solid_of digit (by decide)) fun position rest after => ?_
  have numbered : startsNumber c (more ++ rest) = true := by simp [startsNumber, digit]
  rw [scan, numbered, if_pos rfl, takeWhile_stops numeral after]
  dsimp only
  rw [read]

end DesktopPet.Condition

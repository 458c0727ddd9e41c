import DesktopPet.Condition.Predicate
import DesktopPet.Proofs.Condition.Printed

/-!
# Compiling undoes printing

A printed expression, in a wrapper or without one and among blanks, compiles to itself. The blanks and the wrapper
go first (`stripWrapper_around`); what is left is split into tokens that the parser accepts (`written_reads`).
-/

namespace DesktopPet.Condition

/-- The wrappers of a condition. -/
inductive Wrapper where
  | bare | numberSign | dollarSign

/-- A text in its wrapper. -/
def Wrapper.around : Wrapper → List Char → List Char
  | .bare, text => text
  | .numberSign, text => '#' :: '{' :: (text ++ ['}'])
  | .dollarSign, text => '$' :: '{' :: (text ++ ['}'])

/-! ## Blanks -/

/-- Neither end of the text is a blank. -/
structure Solid (text : List Char) : Prop where
  head : ∃ c ∈ text.head?, Text.isBlank c = false
  last : ∃ c ∈ text.getLast?, Text.isBlank c = false

theorem trim_solid {before text after : List Char} (solid : Solid text)
    (blank : ∀ c ∈ before, Text.isBlank c = true) (blank' : ∀ c ∈ after, Text.isBlank c = true) :
    Text.trim (before ++ text ++ after) = text := by
  obtain ⟨c, head, inked⟩ := solid.head
  obtain ⟨d, last, inked'⟩ := solid.last
  obtain ⟨more, rfl⟩ : ∃ more, text = c :: more := List.head?_eq_some_iff.mp head
  obtain ⟨others, same⟩ : ∃ others, c :: more = others ++ [d] := List.getLast?_eq_some_iff.mp last
  have left : (before ++ (c :: more) ++ after).dropWhile Text.isBlank = c :: more ++ after := by
    rw [List.append_assoc, List.dropWhile_append_of_pos blank, List.cons_append,
      List.dropWhile_cons_of_neg (by rw [inked]; exact Bool.false_ne_true)]
  have right : (c :: more ++ after).reverse.dropWhile Text.isBlank = (c :: more).reverse := by
    rw [List.reverse_append, List.dropWhile_append_of_pos (fun e member => blank' e (List.mem_reverse.mp member)),
      same, List.reverse_append, List.reverse_singleton, List.singleton_append,
      List.dropWhile_cons_of_neg (by rw [inked']; exact Bool.false_ne_true)]
  rw [Text.trim, left, Text.dropBlanksRight, right, List.reverse_reverse]

private theorem inked_nameChar {c : Char} (letter : isNameChar c = true) : Text.isBlank c = false := by
  have code : (48 ≤ c.toNat ∧ c.toNat ≤ 57) ∨ (65 ≤ c.toNat ∧ c.toNat ≤ 122) := by
    simp only [isNameChar, Char.isAlphanum, Bool.or_eq_true, decide_eq_true_eq] at letter
    rcases letter with (letter | digit) | rfl
    · have := isAlpha_code letter
      omega
    · exact Or.inl (isDigit_code digit)
    · decide
  simp only [Text.isBlank, Bool.or_eq_false_iff, Bool.and_eq_false_iff, decide_eq_false_iff_not]
  omega

theorem Outlined.solid {text : List Char} (outlined : Outlined text) : Solid text := by
  obtain ⟨c, head, opens⟩ := outlined.opens
  obtain ⟨d, last, closes⟩ := outlined.closes
  refine ⟨⟨c, head, ?_⟩, ⟨d, last, ?_⟩⟩
  · simp only [opensOperand, Bool.or_eq_true, decide_eq_true_eq] at opens
    rcases opens with letter | rfl
    · exact inked_nameChar letter
    · decide
  · simp only [closesOperand, Bool.or_eq_true, decide_eq_true_eq] at closes
    rcases closes with letter | rfl
    · exact inked_nameChar letter
    · decide

/-! ## Wrappers -/

theorem unwrap_bare (mark : Char) {text : List Char} (outlined : Outlined text) (other : opensOperand mark = false) :
    unwrap? mark text = none := by
  obtain ⟨c, head, opens⟩ := outlined.opens
  obtain ⟨more, rfl⟩ : ∃ more, text = c :: more := List.head?_eq_some_iff.mp head
  have apart : c ≠ mark := by
    rintro rfl
    exact absurd (opens.symm.trans other) nofun
  unfold unwrap?
  split
  next first rest same =>
    cases same
    simp [apart]
  · rfl

theorem unwrap_braces (mark other : Char) (text : List Char) :
    unwrap? mark (other :: '{' :: (text ++ ['}'])) = if other = mark then some text else none := by
  rw [unwrap?, List.getLast?_concat, List.dropLast_concat]
  simp

/-- Blanks and a wrapper leave nothing behind. -/
theorem stripWrapper_around (wrapper : Wrapper) {text before opening closing after : List Char}
    (outlined : Outlined text) (blanks : ∀ c ∈ before ++ opening ++ closing ++ after, Text.isBlank c = true) :
    stripWrapper (before ++ wrapper.around (opening ++ text ++ closing) ++ after) = text := by
  have inner : Text.trim (opening ++ text ++ closing) = text :=
    trim_solid outlined.solid (fun c member => blanks c (by simp [member])) fun c member => blanks c (by simp [member])
  have outer (mark : Char) (inked : Text.isBlank mark = false) :
      Text.trim (before ++ (mark :: '{' :: (opening ++ text ++ closing ++ ['}'])) ++ after) =
        mark :: '{' :: (opening ++ text ++ closing ++ ['}']) := by
    refine trim_solid ⟨⟨mark, rfl, inked⟩, ⟨'}', ?_, by decide⟩⟩ (fun c member => blanks c (by simp [member]))
      fun c member => blanks c (by simp [member])
    rw [← List.cons_append, ← List.cons_append, List.getLast?_concat]
    rfl
  cases wrapper with
  | bare =>
    have body : Text.trim (before ++ (opening ++ text ++ closing) ++ after) = text := by
      have shape : before ++ (opening ++ text ++ closing) ++ after =
          (before ++ opening) ++ text ++ (closing ++ after) := by simp
      rw [shape]
      have left : ∀ c ∈ before ++ opening, Text.isBlank c = true := fun c member =>
        blanks c (by rw [List.append_assoc (before ++ opening)]; exact List.mem_append_left _ member)
      have right : ∀ c ∈ closing ++ after, Text.isBlank c = true := fun c member =>
        blanks c (by rw [List.append_assoc (before ++ opening)]; exact List.mem_append_right _ member)
      exact trim_solid outlined.solid left right
    rw [Wrapper.around, stripWrapper, body, unwrap_bare '#' outlined rfl, unwrap_bare '$' outlined rfl]
    rfl
  | numberSign =>
    rw [Wrapper.around, stripWrapper, outer '#' (by decide), unwrap_braces, unwrap_braces]
    exact inner
  | dollarSign =>
    rw [Wrapper.around, stripWrapper, outer '$' (by decide), unwrap_braces, unwrap_braces]
    exact inner

/-- Compiling undoes printing: a printed expression compiles to itself, in either wrapper or in none, with blanks
around it inside and outside of the wrapper and with any separators between its parts. -/
theorem compile_undoes_printing (e : Expr) (printable : ∀ x ∈ e.numbers, Printable x) (wrapper : Wrapper)
    (gap before opening closing after : List Char) (separators : ∀ c ∈ gap, isSeparator c = true)
    (blanks : ∀ c ∈ before ++ opening ++ closing ++ after, Text.isBlank c = true) :
    let text := String.ofList (before ++ wrapper.around (opening ++ e.written gap ++ closing) ++ after)
    compile text = .ok ⟨Text.trimmed text, e⟩ := by
  have stripped := stripWrapper_around wrapper (written_outlined gap e printable) blanks
  obtain ⟨tokens, derived, split⟩ := (written_reads separators e printable).tokenize
  have parsed := parse_derives derived.loosen
  dsimp only
  rw [compile, String.toList_ofList, stripped, split]
  dsimp only [bind, Except.bind]
  rw [parsed]
  rfl

/-- The pet is in the left tenth of the screen, or a coin biased by two draws does not fall. -/
def shyExpr : Expr :=
  .logic .or
    (.compare .lt (.attribute .anchorX) (.arithmetic .mul (.literal (.number 0.1)) (.attribute .screenWidth)))
    (.not (.random (.min .mathRandom (.literal (.number 12.75)))))

theorem compile_undoes_printing_shy :
    (∀ x ∈ shyExpr.numbers, Printable x) ∧
      compile "\t#\x7b ((anchor.x < (0.1 * environment.screen.width)) || (!random(min(Math.random(), 12.75)))) \x7d\n" =
        .ok ⟨"#\x7b ((anchor.x < (0.1 * environment.screen.width)) || (!random(min(Math.random(), 12.75)))) \x7d", shyExpr⟩ := by
  have printable : ∀ x ∈ shyExpr.numbers, Printable x := by decide +kernel
  have compiled := compile_undoes_printing shyExpr printable .numberSign [' '] ['\t'] [' '] [' '] ['\n']
    (List.all_eq_true.mp (by decide)) (List.all_eq_true.mp (by decide))
  have written : String.ofList (['\t'] ++ Wrapper.numberSign.around ([' '] ++ shyExpr.written [' '] ++ [' ']) ++ ['\n']) =
      "\t#\x7b ((anchor.x < (0.1 * environment.screen.width)) || (!random(min(Math.random(), 12.75)))) \x7d\n" := by
    decide +kernel
  dsimp only at compiled
  rw [written] at compiled
  exact ⟨printable, compiled⟩

end DesktopPet.Condition

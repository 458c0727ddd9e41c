import DesktopPet.Proofs.Selection.Choice

/-!
# What a choice falls on

A choice falls on a behavior that was accepted, so that its action suits the contact. The default behavior is chosen
only where none is accepted.
-/

namespace DesktopPet.Catalog

open Condition (View)

variable {c : Catalog} {view : View}

/-- A behavior that is there, with an action that is there and suits the contact. -/
def Suits (c : Catalog) (contact : Contact) (index : Nat) : Prop :=
  ∃ b a, c.behavior? index = some b ∧ c.action? b.action = some a ∧ a.isEligible contact = true

theorem Suits.present {contact : Contact} {index : Nat} (suits : c.Suits contact index) :
    (c.behavior? index).isSome = true := by
  obtain ⟨b, _, there, _⟩ := suits
  rw [there]
  rfl

/-! ## Candidates -/

theorem isCandidate_suits {index : Nat} {r : Random} (accepted : (c.isCandidate view index r).1 = true) :
    c.Suits view.contact index := by
  unfold isCandidate at accepted
  cases there : c.behavior? index with
  | none =>
    rw [there] at accepted
    cases accepted
  | some b =>
    rw [there] at accepted
    dsimp only at accepted
    by_cases eligible : (c.action? b.action).any (·.isEligible view.contact) = true
    · obtain ⟨a, found, eligible⟩ := (Option.any_eq_true _ _).mp eligible
      exact ⟨b, a, there, found, eligible⟩
    · rw [if_neg eligible] at accepted
      cases accepted

theorem candidates_suit (c : Catalog) (view : View) (indices : List Nat) (r : Random) :
    ∀ i ∈ (c.candidates view indices r).1, c.Suits view.contact i := by
  induction indices generalizing r with
  | nil => exact nofun
  | cons index rest ih =>
    intro i member
    change i ∈ (if (c.isCandidate view index r).1 then
      index :: (c.candidates view rest (c.isCandidate view index r).2).1
      else (c.candidates view rest (c.isCandidate view index r).2).1) at member
    split at member
    next accepted =>
      rcases List.mem_cons.mp member with rfl | later
      · exact isCandidate_suits accepted
      · exact ih _ i later
    · exact ih _ i member

/-! ## The choice among all behaviors -/

section Asked

variable {r asked : Random} {eligible : List Nat}
  (candidates : c.candidates view (List.range c.behaviors.length) r = (eligible, asked))
include candidates

theorem eligible_suit : ∀ i ∈ eligible, c.Suits view.contact i := by
  have suits := c.candidates_suit view (List.range c.behaviors.length) r
  rw [candidates] at suits
  exact suits

theorem selectNext?_suits {chosen : Nat} {last : Random} (answered : c.selectNext? view r = some (chosen, last))
    (filled : eligible ≠ []) : c.Suits view.contact chosen :=
  eligible_suit candidates chosen ((selectNext?_choice candidates answered).mem filled)

theorem selectNext?_present {chosen : Nat} {last : Random} (answered : c.selectNext? view r = some (chosen, last))
    (entry : (c.behavior? c.defaultBehavior).isSome = true) : (c.behavior? chosen).isSome = true := by
  by_cases filled : eligible = []
  · cases selectNext?_choice candidates answered with
    | mandatory before after i split earlier weightless => simp [filled] at split
    | drawn i roll last filled' optional drew falls => exact absurd filled filled'
    | standIn empty => exact entry
  · exact (selectNext?_suits candidates answered filled).present

end Asked

/-! ## The choice among the followers -/

theorem selectChained_suits {source i : Nat} {r : Random} (chosen : (c.selectChained view source r).1 = some i) :
    c.Suits view.contact i := by
  unfold selectChained at chosen
  cases there : c.behavior? source with
  | none =>
    rw [there] at chosen
    cases chosen
  | some b =>
    rw [there] at chosen
    dsimp only at chosen
    rw [stateM_bind_apply] at chosen
    by_cases empty : (c.candidates view b.next r).1.isEmpty = true
    · rw [if_pos empty] at chosen
      cases chosen
    · rw [if_neg empty] at chosen
      cases drew : Random.below64 (c.candidates view b.next r).1.length (c.candidates view b.next r).2 with
      | mk roll last =>
        rw [modifyGet_bind_apply _ drew] at chosen
        exact c.candidates_suit view b.next r i (List.mem_of_getElem? chosen)

end DesktopPet.Catalog

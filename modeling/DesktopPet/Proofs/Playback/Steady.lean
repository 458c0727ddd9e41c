import DesktopPet.Player
import DesktopPet.Proofs.Condition.Steady

/-!
# Playback without chance

Playback does nothing with the state of its callback but ask conditions. Where the conditions of all blocks are
answered steadily, so is the choice of a block (`selectBlock_steady`), and a leaf, a sequence and a player advance
steadily (`advance_steady`).
-/

namespace DesktopPet

open Condition (Predicate)

variable {σ : Type} {ask : Predicate → StateM σ Bool}

/-- The conditions of the blocks are answered steadily. -/
def AnswersSteadily (ask : Predicate → StateM σ Bool) (blocks : List Block) : Prop :=
  ∀ b ∈ blocks, ∀ condition, b.condition = some condition → Steady (ask condition)

theorem blockHolds_steady {b : Block} (steady : ∀ condition, b.condition = some condition → Steady (ask condition)) :
    Steady (Action.blockHolds ask b) := by
  unfold Action.blockHolds
  split
  next => exact .pure true
  next condition asked => exact steady condition asked

theorem bestBlock_steady {blocks : List Block} (steady : AnswersSteadily ask blocks) (index : Nat)
    (best : Option (Nat × Int)) : Steady (Action.bestBlock ask blocks index best) := by
  induction blocks generalizing index best with
  | nil => exact .pure best
  | cons b rest ih =>
    have later := ih fun other member => steady other (List.mem_cons_of_mem b member)
    rw [Action.bestBlock]
    split
    · exact later _ _
    · exact (blockHolds_steady (steady b List.mem_cons_self)).bind fun _ => later _ _

theorem selectBlock_steady {action : Action} (steady : AnswersSteadily ask action.blocks) :
    Steady (action.selectBlock ask) := by
  refine (bestBlock_steady steady 0 none).bind fun best => ?_
  cases best with
  | none => exact .pure _
  | some found => exact .pure _

section Catalogs

variable {c : Catalog} (steady : ∀ action ∈ c.actions, AnswersSteadily ask action.blocks)
include steady

theorem leaf_step_steady (leaf : LeafCursor) (looping inGap : Bool) (dt : Float32) :
    Steady (leaf.step c ask looping inGap dt) := by
  unfold LeafCursor.step
  split
  next => exact .pure _
  next action there =>
    split
    next => exact .pure _
    next =>
      refine (selectBlock_steady (steady action (List.mem_of_getElem? there))).bind fun choice => ?_
      cases choice with
      | none => exact .pure _
      | some chosen =>
        dsimp only
        split
        next => exact .pure _
        next => exact .pure _

theorem stepSequence_steady (leaves : List Nat) (looping : Bool) (passes position : Nat) (leaf : LeafCursor)
    (inGap : Bool) (dt : Float32) : Steady (c.stepSequence ask leaves looping passes position leaf inGap dt) := by
  induction passes generalizing position leaf inGap dt with
  | zero => exact .pure _
  | succ passes ih =>
    rw [Catalog.stepSequence]
    refine (leaf_step_steady steady leaf _ inGap dt).bind fun step => ?_
    split
    next =>
      split
      next child following => exact (ih _ _ _ _).bind fun _ => .pure _
      next =>
        split
        next first head => exact (leaf_step_steady steady _ false _ _).bind fun _ => .pure _
        next => exact .pure _
    next => exact .pure _

theorem advance_steady (p : Player) (dt : Float32) : Steady (p.advance c ask dt) := by
  unfold Player.advance
  split
  next => exact .pure _
  next =>
    split
    next => exact .pure _
    next =>
      split
      next => exact .pure _
      next action there =>
        unfold Player.advanceAction
        dsimp only
        split
        next => exact .pure _
        next leaf placed => exact (leaf_step_steady steady leaf _ _ dt).bind fun _ => .pure _
        next leaves position leaf placed =>
          exact (stepSequence_steady steady leaves _ _ position leaf _ dt).bind fun _ => .pure _

end Catalogs

end DesktopPet

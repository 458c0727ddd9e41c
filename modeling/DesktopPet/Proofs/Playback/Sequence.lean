import DesktopPet.Proofs.Playback.Turns

/-!
# Sequences play in order

What a whole run of advances does with the leaves of a sequence. A run is a list of advances, each with a
callback of its own; every record of it holds the turns that the advance took (`Player.turns`). The turns of one
advance are a `SequenceRun`, and where one advance leaves its cursor the next one takes it up, so the turns of
the run are one chain.
-/

namespace DesktopPet

open Condition (Predicate)

/-- One call of `advance`: the callback, the state it starts from and the time that passes. -/
structure Advance where
  State : Type
  ask : Predicate → StateM State Bool
  state : State
  dt : Float32

/-- What one advance did. -/
structure Played where
  before : Player
  dt : Float32
  turns : List Turn
  result : PlayResult
  events : PlayEvents
  after : Player

/-- An advance of a player whose sequence is in the given lap. -/
def Advance.play (a : Advance) (c : Catalog) (lap : Nat) (p : Player) : Played :=
  let out := (p.advance c a.ask a.dt a.state).1
  { before := p
    dt := a.dt
    turns := p.turns c a.ask lap a.dt a.state
    result := out.1
    events := out.2.1
    after := out.2.2 }

/-- The lap that the last of the turns was in. -/
def lapAfter (lap : Nat) (turns : List Turn) : Nat :=
  (turns.getLast?.map (·.lap)).getD lap

/-- A run of advances, each on what the one before left. -/
def Catalog.play (c : Catalog) : Player → Nat → List Advance → List Played
  | _, _, [] => []
  | p, lap, a :: rest =>
    let played := a.play c lap p
    played :: c.play played.after (lapAfter lap played.turns) rest

/-- The turns of a run. -/
def turnsOf (run : List Played) : List Turn :=
  run.flatMap (·.turns)

/-- The action is a call of the host. -/
def Catalog.isEmbedded (c : Catalog) (index : Nat) : Bool :=
  (c.action? index).any (·.kind = .embedded)

/-- The leaves visited up to a position of a lap: all leaves once for each lap before, and then the leaves of
the lap up to that position. -/
def visitedTo (leaves : List Nat) (lap position : Nat) : List Nat :=
  (List.replicate lap leaves).flatten ++ leaves.take (position + 1)

/-- The leaves visited in these turns. -/
def visited (leaves : List Nat) (turns : List Turn) : List Nat :=
  match turns.getLast? with
  | none => []
  | some t => visitedTo leaves t.lap t.position

/-- What it is for a run to play its leaves in order. -/
structure PlaysInOrder (c : Catalog) (leaves : List Nat) (looping : Bool) (cap : Option Float32)
    (run : List Played) : Prop where
  /-- The first cursor is made for the first leaf. -/
  first : ∀ t ∈ (turnsOf run).head?, t.lap = 0 ∧ t.position = 0 ∧ t.Fresh leaves
  sound : ∀ t ∈ turnsOf run, t.Sound c leaves
  order : (turnsOf run).IsChain (Turn.Follows leaves looping)
  /-- At most one lap starts in an advance. -/
  laps : ∀ played ∈ run, ∀ t ∈ played.turns, ∀ t' ∈ played.turns, t'.lap ≤ t.lap + 1
  /-- The advance that ends the sequence is the one in which its last leaf is over, if it does not loop, or in
  which its time cap is reached. -/
  ends : ∀ played ∈ run, played.before.finished = false →
    (played.after.finished = true ↔
      (looping = false ∧ ∃ t ∈ played.turns, t.position + 1 = leaves.length ∧ t.step.result = .done) ∨
        cap.any (· ≤ played.after.elapsed) = true) ∧
    (played.result = .completedTerminal ↔ played.after.finished = true)
  time : ∀ played ∈ run, played.before.finished = false →
    played.after.elapsed = played.before.elapsed + played.dt
  /-- A sequence that is over stays over. -/
  ended : ∀ played ∈ run, played.before.finished = true →
    played.turns = [] ∧ played.events = {} ∧ played.after = played.before
  /-- The calls of the host are those among the leaves visited, once for each visit. -/
  calls : run.flatMap (·.events.embedded) = (visited leaves (turnsOf run)).filter c.isEmbedded

/-! ## Visits -/

theorem visitedTo_next {leaves : List Nat} {lap position child : Nat}
    (following : leaves[position + 1]? = some child) :
    visitedTo leaves lap (position + 1) = visitedTo leaves lap position ++ [child] := by
  unfold visitedTo
  rw [List.append_assoc, List.take_add_one (i := position + 1), following]
  rfl

private theorem visitedTo_again {leaves : List Nat} {lap position child : Nat}
    (last : position + 1 = leaves.length) (head : leaves[0]? = some child) :
    visitedTo leaves (lap + 1) 0 = visitedTo leaves lap position ++ [child] := by
  have one : leaves.take 1 = [child] := by
    rw [List.take_add_one, head]
    rfl
  have whole : leaves.take (position + 1) = leaves := by rw [last, List.take_length]
  unfold visitedTo
  rw [one, whole, List.replicate_succ', List.flatten_append, List.flatten_singleton]

theorem passFrames_embedded (frames : List Frame) (looping : Bool) (steps : Nat) (result : LeafResult)
    (i : Fin frames.length) (timer : Float32) :
    (passFrames frames looping steps result i timer).2.2.2.embedded = [] := by
  induction steps generalizing result i timer with
  | zero => rfl
  | succ steps ih =>
    rw [passFrames]
    split
    · split
      · simp [ih, Frame.enter]
      · split
        · simp [ih, Frame.enter]
        · rfl
    · rfl

theorem playFrames_embedded (leaf : LeafCursor) (frames : List Frame) (cap : Option Float32) (looping : Bool)
    (dt : Float32) : (leaf.playFrames frames cap looping dt).events.embedded = [] := by
  rw [LeafCursor.playFrames]
  split
  · simp only [embedded_append, passFrames_embedded, List.append_nil]
    split <;> rfl
  · rfl

/-- A call of the host is made the first time its cursor is stepped, and no other leaf makes one. -/
theorem takes_embedded {c : Catalog} {leaf : LeafCursor} {step : LeafStep} (taken : leaf.Takes c step) :
    (step.events.embedded = if leaf.entered then [] else [leaf.action].filter c.isEmbedded) ∧
      (c.isEmbedded leaf.action = true → step.leaf.entered = true) := by
  obtain ⟨σ, ask, looping, inGap, dt, s, rfl⟩ := taken
  rcases leaf_step_cases leaf c ask looping inGap dt s with
    ⟨missing, stepped⟩ | ⟨action, found, calling, stepped⟩ | ⟨action, found, framed, _, stepped⟩ |
      ⟨action, choice, block, found, framed, _, _, stepped⟩
  · have still : c.isEmbedded leaf.action = false := by simp [Catalog.isEmbedded, missing]
    simp [stepped, still]
  · have calls : c.isEmbedded leaf.action = true := by simp [Catalog.isEmbedded, found, calling]
    cases entered : leaf.entered <;> simp [stepped, calls, entered]
  · have still : c.isEmbedded leaf.action = false := by simp [Catalog.isEmbedded, found, framed]
    simp [stepped, still]
  · have still : c.isEmbedded leaf.action = false := by simp [Catalog.isEmbedded, found, framed]
    simp [stepped, still, playFrames_embedded]

/-- A turn of a new cursor calls the host if its leaf is such a call. -/
theorem Turn.Sound.fresh_embedded {c : Catalog} {leaves : List Nat} {t : Turn} (sound : t.Sound c leaves)
    (fresh : t.Fresh leaves) : t.step.events.embedded = [t.before.action].filter c.isEmbedded := by
  obtain ⟨child, _, made⟩ := fresh
  rw [(takes_embedded sound.taken).1, made]
  rfl

/-- A turn of a cursor that has been stepped before calls nobody. -/
theorem Turn.Sound.kept_embedded {c : Catalog} {leaves : List Nat} {t t' : Turn} (sound : t.Sound c leaves)
    (sound' : t'.Sound c leaves) (kept : t'.before = t.step.leaf) : t'.step.events.embedded = [] := by
  have same : t'.before.action = t.before.action := by rw [kept, takes_action sound.taken]
  rw [(takes_embedded sound'.taken).1]
  cases calling : c.isEmbedded t.before.action with
  | true =>
    have entered : t'.before.entered = true := by
      rw [kept]
      exact (takes_embedded sound.taken).2 calling
    simp [entered]
  | false => simp [same, calling]

/-- The calls made in the turns after one turn are those among the leaves visited after it. The induction is on
the chain: a turn either goes on with a visit and calls nobody, or begins the next one. -/
theorem chain_embedded {c : Catalog} {leaves : List Nat} {looping : Bool} (t : Turn) (turns : List Turn)
    (order : (t :: turns).IsChain (Turn.Follows leaves looping)) (sound : ∀ u ∈ t :: turns, u.Sound c leaves) :
    (visited leaves (t :: turns)).filter c.isEmbedded =
      (visitedTo leaves t.lap t.position).filter c.isEmbedded ++
        turns.flatMap (·.step.events.embedded) := by
  induction turns generalizing t with
  | nil => simp [visited]
  | cons t' rest ih =>
    obtain ⟨follows, order⟩ := List.isChain_cons_cons.mp order
    have here : t.Sound c leaves := sound t List.mem_cons_self
    have there : t'.Sound c leaves := sound t' (by simp)
    have later : visited leaves (t :: t' :: rest) = visited leaves (t' :: rest) := by
      simp [visited]
    have visit : (visitedTo leaves t'.lap t'.position).filter c.isEmbedded =
        (visitedTo leaves t.lap t.position).filter c.isEmbedded ++ t'.step.events.embedded := by
      cases follows with
      | stays lap position kept => simp [lap, position, here.kept_embedded there kept]
      | next spent lap position fresh =>
        have following := fresh.placed
        rw [position] at following
        rw [there.fresh_embedded fresh, lap, position, visitedTo_next following, List.filter_append]
      | again spent last loops lap position fresh =>
        have head := fresh.placed
        rw [position] at head
        rw [there.fresh_embedded fresh, lap, position, visitedTo_again last head, List.filter_append]
    rw [later, ih t' order (fun u member => sound u (List.mem_cons_of_mem _ member)), visit]
    simp

/-- The calls made in the turns of a whole run are those among the leaves visited. -/
theorem turns_embedded {c : Catalog} {leaves : List Nat} {looping : Bool} (turns : List Turn)
    (order : turns.IsChain (Turn.Follows leaves looping)) (sound : ∀ t ∈ turns, t.Sound c leaves)
    (first : ∀ t ∈ turns.head?, t.lap = 0 ∧ t.position = 0 ∧ t.Fresh leaves) :
    turns.flatMap (·.step.events.embedded) = (visited leaves turns).filter c.isEmbedded := by
  cases turns with
  | nil => rfl
  | cons t rest =>
    obtain ⟨lap, position, fresh⟩ := first t rfl
    have leading : visitedTo leaves 0 0 = [t.before.action] := by
      have placed := fresh.placed
      rw [position] at placed
      simp [visitedTo, List.take_add_one, placed]
    have start : (visitedTo leaves t.lap t.position).filter c.isEmbedded = t.step.events.embedded := by
      rw [lap, position, leading, (sound t List.mem_cons_self).fresh_embedded fresh]
    rw [chain_embedded t rest order sound, start]
    rfl

/-! ## One advance of a sequence -/

/-- The player stands at a leaf of its sequence. -/
structure Player.Standing (p : Player) (index : Nat) (leaves : List Nat) (position : Nat) (leaf : LeafCursor) :
    Prop where
  action : p.action = some index
  cursor : p.cursor = .sequence leaves position leaf
  going : p.finished = false
  placed : leaves[position]? = some leaf.action

theorem play_finished (a : Advance) (c : Catalog) (lap : Nat) (p : Player) (ended : p.finished = true) :
    (a.play c lap p).turns = [] ∧ (a.play c lap p).events = {} ∧ (a.play c lap p).after = p := by
  have idle := advance_over p c a.ask a.dt a.state ended
  refine ⟨?_, by rw [Advance.play, idle], by rw [Advance.play, idle]⟩
  rw [Advance.play, Player.turns]
  split
  · simp [ended]
  · rfl

section Standing

variable {c : Catalog} {index : Nat} {action : Action} {leaves : List Nat} {p : Player} {position : Nat}
  {leaf : LeafCursor}

/-- An advance of a sequence takes one of its runs. -/
theorem play_standing (a : Advance) (lap : Nat) (found : c.action? index = some action)
    (standing : p.Standing index leaves position leaf) :
    ∃ step, SequenceRun c leaves action.looping lap position leaf step (a.play c lap p).turns ∧
      (a.play c lap p).events = step.events ∧
      (a.play c lap p).after.action = some index ∧
      (a.play c lap p).after.cursor = .sequence leaves step.position step.leaf ∧
      (a.play c lap p).after.elapsed = p.elapsed + a.dt ∧
      ((a.play c lap p).after.finished = true ↔ step.result = .completedTerminal ∨
        action.duration.any (· ≤ p.elapsed + a.dt) = true) ∧
      ((a.play c lap p).result = .completedTerminal ↔ (a.play c lap p).after.finished = true) := by
  have inside : position < leaves.length := (List.getElem?_eq_some_iff.mp standing.placed).1
  have run := sequenceTurns_run c a.ask leaves action.looping (leaves.length + 1) lap position leaf p.inGap a.dt
    a.state inside (by omega)
  have traced := sequenceTurns_step c a.ask leaves action.looping (leaves.length + 1) lap position leaf p.inGap
    a.dt a.state
  have turned : (a.play c lap p).turns =
      (c.sequenceTurns a.ask leaves action.looping (leaves.length + 1) lap position leaf p.inGap a.dt
        a.state).1.2 := by
    rw [Advance.play, Player.turns]
    simp [standing.cursor, standing.action, standing.going, found]
  have advanced := advance_going p c action a.ask a.dt a.state standing.action standing.going found
  rw [advanceAction_sequence p c action a.ask a.dt a.state leaves position leaf standing.cursor, ← traced]
    at advanced
  rw [turned]
  refine ⟨_, run, ?_⟩
  obtain ⟨kept, ends, result⟩ := conclude_spec
    { p with
      elapsed := p.elapsed + a.dt
      cursor := _
      inGap := _ } action.duration _
  simp only [Advance.play, advanced, true_and]
  refine ⟨?_, ?_, ?_, ends.trans (by simp only [standing.going, Bool.false_eq_true, false_or]), result standing.going⟩
    <;> rw [kept]
  exact standing.action

/-- An advance that does not end a sequence leaves it at the cursor of its last turn. -/
theorem play_stands (a : Advance) (lap : Nat) (found : c.action? index = some action)
    (standing : p.Standing index leaves position leaf) :
    ∃ t, (a.play c lap p).turns.getLast? = some t ∧
      ((a.play c lap p).after.finished = false →
        (a.play c lap p).after.Standing index leaves t.position t.step.leaf) := by
  obtain ⟨step, run, _, started, cursor, _, ends, _⟩ := play_standing a lap found standing
  obtain ⟨t, last, sameLeaf, samePosition⟩ := run.last
  refine ⟨t, last, fun going => ?_⟩
  have unended : step.result ≠ .completedTerminal := by
    intro terminal
    have ended := ends.mpr (Or.inl terminal)
    simp [going] at ended
  have sound := run.sound standing.placed t (List.mem_of_getLast? last)
  refine ⟨started, ?_, going, ?_⟩
  · rw [cursor, samePosition unended, sameLeaf]
  · rw [takes_action sound.taken]
    exact sound.placed

end Standing

/-! ## Runs -/

section Runs

variable {c : Catalog} {index : Nat} {action : Action} {leaves : List Nat}

private theorem turns_finished (calls : List Advance) (lap : Nat) (p : Player) (ended : p.finished = true) :
    turnsOf (c.play p lap calls) = [] := by
  induction calls generalizing lap with
  | nil => rfl
  | cons a rest ih =>
    obtain ⟨none, _, same⟩ := play_finished a c lap p ended
    have later := ih (lapAfter lap (a.play c lap p).turns)
    rw [turnsOf] at later
    rw [Catalog.play, turnsOf, List.flatMap_cons, none, same]
    simpa [none] using later

/-- The turns of a run are one chain: the first turn of an advance takes up the cursor of the last turn of the
advance before. -/
theorem turns_chain (calls : List Advance) (lap : Nat) (p : Player) (position : Nat) (leaf : LeafCursor)
    (found : c.action? index = some action) (standing : p.Standing index leaves position leaf) :
    (∀ t ∈ (turnsOf (c.play p lap calls)).head?, t.lap = lap ∧ t.position = position ∧ t.before = leaf) ∧
      (∀ t ∈ turnsOf (c.play p lap calls), t.Sound c leaves) ∧
      (turnsOf (c.play p lap calls)).IsChain (Turn.Follows leaves action.looping) := by
  induction calls generalizing lap p position leaf with
  | nil => simp [Catalog.play, turnsOf]
  | cons a rest ih =>
    have inside : position < leaves.length := (List.getElem?_eq_some_iff.mp standing.placed).1
    obtain ⟨step, run, _⟩ := play_standing a lap found standing
    obtain ⟨t, last, stands⟩ := play_stands a lap found standing
    obtain ⟨first, others, turned, sameLap, samePosition, sameLeaf⟩ := run.head
    have split : turnsOf (c.play p lap (a :: rest)) = (a.play c lap p).turns ++
        turnsOf (c.play (a.play c lap p).after t.lap rest) := by
      rw [Catalog.play, turnsOf, List.flatMap_cons, lapAfter, last]
      rfl
    have later : (∀ u ∈ (turnsOf (c.play (a.play c lap p).after t.lap rest)).head?,
          u.lap = t.lap ∧ u.position = t.position ∧ u.before = t.step.leaf) ∧
        (∀ u ∈ turnsOf (c.play (a.play c lap p).after t.lap rest), u.Sound c leaves) ∧
        (turnsOf (c.play (a.play c lap p).after t.lap rest)).IsChain (Turn.Follows leaves action.looping) := by
      cases going : (a.play c lap p).after.finished with
      | true => simp [turns_finished rest t.lap _ going]
      | false => exact ih t.lap _ t.position t.step.leaf (stands going)
    obtain ⟨headed, sound, chain⟩ := later
    rw [split]
    refine ⟨?_, ?_, ?_⟩
    · rw [turned]
      simp [sameLap, samePosition, sameLeaf]
    · intro u member
      rcases List.mem_append.mp member with here | after
      · exact run.sound standing.placed u here
      · exact sound u after
    · refine List.isChain_append.mpr ⟨run.chain inside, chain, ?_⟩
      intro u there v follows
      rw [last] at there
      cases there
      obtain ⟨lap, position, kept⟩ := headed v follows
      exact .stays lap position kept

/-- Every advance of a run is of a player whose sequence is over or stands at one of its leaves. -/
theorem play_members (calls : List Advance) (lap : Nat) (p : Player)
    (found : c.action? index = some action)
    (begins : p.finished = true ∨ ∃ position leaf, p.Standing index leaves position leaf) :
    ∀ played ∈ c.play p lap calls, ∃ (a : Advance) (lap : Nat) (q : Player), played = a.play c lap q ∧
      (q.finished = true ∨ ∃ position leaf, q.Standing index leaves position leaf) := by
  induction calls generalizing lap p with
  | nil => simp [Catalog.play]
  | cons a rest ih =>
    have continues : (a.play c lap p).after.finished = true ∨
        ∃ position leaf, (a.play c lap p).after.Standing index leaves position leaf := by
      rcases begins with ended | ⟨position, leaf, standing⟩
      · exact Or.inl (by rw [(play_finished a c lap p ended).2.2, ended])
      · obtain ⟨t, _, stands⟩ := play_stands a lap found standing
        cases going : (a.play c lap p).after.finished with
        | true => exact Or.inl rfl
        | false => exact Or.inr ⟨t.position, t.step.leaf, stands going⟩
    intro played member
    rcases List.mem_cons.mp member with rfl | later
    · exact ⟨a, lap, p, rfl, begins⟩
    · exact ih _ _ continues played later

/-- The calls of the host come from the turns. -/
theorem play_embedded (calls : List Advance) (lap : Nat) (p : Player)
    (found : c.action? index = some action)
    (begins : p.finished = true ∨ ∃ position leaf, p.Standing index leaves position leaf) :
    (c.play p lap calls).flatMap (·.events.embedded) =
      (turnsOf (c.play p lap calls)).flatMap (·.step.events.embedded) := by
  rw [turnsOf, List.flatMap_assoc]
  have each : ∀ played ∈ c.play p lap calls,
      played.events.embedded = played.turns.flatMap (·.step.events.embedded) := by
    intro played member
    obtain ⟨a, lap, q, rfl, ended | ⟨position, leaf, standing⟩⟩ := play_members calls lap p found begins played member
    · obtain ⟨none, silent, _⟩ := play_finished a c lap q ended
      rw [none, silent]
      rfl
    · obtain ⟨step, run, same, _⟩ := play_standing a lap found standing
      rw [same, run.embedded]
  exact List.flatMap_congr each

/-- A sequence with leaves starts at the first of them. -/
theorem start_stands (found : c.action? index = some action) (sequence : action.kind = .sequence) (first : Nat)
    (head : (c.leaves maxSequenceDepth index)[0]? = some first) :
    (Player.start index c).Standing index (c.leaves maxSequenceDepth index) 0 { action := first } := by
  obtain ⟨others, leaves⟩ : ∃ others, c.leaves maxSequenceDepth index = first :: others := by
    cases listed : c.leaves maxSequenceDepth index with
    | nil => simp [listed] at head
    | cons leaf others => exact ⟨others, by simpa [listed] using head⟩
  have started : Player.start index c =
      { action := some index
        cursor := .sequence (c.leaves maxSequenceDepth index) 0 { action := first } } := by
    rw [Player.start, found]
    simp [sequence, leaves]
  rw [started]
  exact ⟨rfl, rfl, rfl, head⟩

end Runs

/-- After its start a sequence with leaves plays them in order, whatever time passes and whatever the callbacks
answer: each leaf follows the one before once that is over, the first follows the last only if the sequence loops,
no advance starts more than one lap, a sequence that does not loop ends with its last leaf or at its time cap, and
the host is called once for each visit of an embedded leaf. -/
theorem sequences_play_in_order (c : Catalog) (index : Nat) (action : Action)
    (found : c.action? index = some action) (sequence : action.kind = .sequence)
    (playable : c.leaves maxSequenceDepth index ≠ []) (calls : List Advance) :
    PlaysInOrder c (c.leaves maxSequenceDepth index) action.looping action.duration
      (c.play (Player.start index c) 0 calls) := by
  obtain ⟨first, head⟩ : ∃ first, (c.leaves maxSequenceDepth index)[0]? = some first :=
    ⟨_, List.getElem?_eq_getElem (List.length_pos_iff.mpr playable)⟩
  have standing := start_stands found sequence first head
  have begins : (Player.start index c).finished = true ∨ ∃ position leaf,
      (Player.start index c).Standing index (c.leaves maxSequenceDepth index) position leaf :=
    Or.inr ⟨0, _, standing⟩
  have members := play_members calls 0 (Player.start index c) found begins
  obtain ⟨headed, sound, order⟩ := turns_chain calls 0 (Player.start index c) 0 _ found standing
  have fresh : ∀ t ∈ (turnsOf (c.play (Player.start index c) 0 calls)).head?,
      t.lap = 0 ∧ t.position = 0 ∧ t.Fresh (c.leaves maxSequenceDepth index) := by
    intro t there
    obtain ⟨lap, position, made⟩ := headed t there
    exact ⟨lap, position, first, by rw [position, head], made⟩
  refine ⟨fresh, sound, order, ?_, ?_, ?_, ?_, ?_⟩
  · intro played member t here t' there
    obtain ⟨a, lap, q, rfl, ended | ⟨position, leaf, standing⟩⟩ := members played member
    · rw [(play_finished a c lap q ended).1] at here
      cases here
    · obtain ⟨step, run, _⟩ := play_standing a lap found standing
      have low := (run.laps t here).1
      have high := (run.laps t' there).2
      omega
  · intro played member going
    obtain ⟨a, lap, q, rfl, ended | ⟨position, leaf, standing⟩⟩ := members played member
    · exact absurd (ended.symm.trans going) nofun
    · have inside := (List.getElem?_eq_some_iff.mp standing.placed).1
      obtain ⟨step, run, _, _, _, elapsed, ends, result⟩ := play_standing a lap found standing
      rw [ends, run.terminal_iff inside, elapsed]
      exact ⟨Iff.rfl, by rw [result, ends, run.terminal_iff inside]⟩
  · intro played member going
    obtain ⟨a, lap, q, rfl, ended | ⟨position, leaf, standing⟩⟩ := members played member
    · exact absurd (ended.symm.trans going) nofun
    · obtain ⟨step, _, _, _, _, elapsed, _⟩ := play_standing a lap found standing
      exact elapsed
  · intro played member ended
    obtain ⟨a, lap, q, rfl, _⟩ := members played member
    exact play_finished a c lap q ended
  · rw [play_embedded calls 0 _ found begins]
    exact turns_embedded _ order sound fresh

/-- A round of a greeting by the host, a look around and the greeting again, as a sequence in a sequence. -/
def roundelay : Catalog :=
  let frame : Frame :=
    { image := none, duration := 0.1, velocity := .zero, anchor := .zero, sound := none, volume := 1.0 }
  let greet : Action :=
    { name := "greet", kind := .embedded, footing := none, blocks := [], defaultBlock := none, references := []
      looping := false, draggable := true, duration := none, embedded := [] }
  let look : Action :=
    { greet with
      name := "look", kind := .stay
      defaultBlock := some { condition := none, priority := 0, frames := [frame] } }
  let inner : Action := { greet with name := "inner", kind := .sequence, references := [1, 0] }
  let round : Action := { inner with name := "round", references := [0, 2], looping := true }
  { name := "roundelay", actions := [greet, look, inner, round], behaviors := [], defaultBehavior := 0
    draggedBehavior := none, thrownBehavior := none }

/-- Three long advances and a short one between them. -/
def roundelayCalls : List Advance :=
  [0.25, 0.05, 0.25, 0.25].map fun dt =>
    { State := Unit, ask := fun _ => pure false, state := (), dt }

theorem sequences_play_in_order_roundelay :
    roundelay.leaves maxSequenceDepth 3 = [0, 1, 0] ∧
      (turnsOf (roundelay.play (Player.start 3 roundelay) 0 roundelayCalls)).map
        (fun t => (t.lap, t.position)) =
          [(0, 0), (0, 1), (0, 1), (0, 1), (0, 2), (1, 0), (1, 0), (1, 1)] ∧
      PlaysInOrder roundelay (roundelay.leaves maxSequenceDepth 3) true none
        (roundelay.play (Player.start 3 roundelay) 0 roundelayCalls) :=
  ⟨by decide, by decide +kernel,
    sequences_play_in_order roundelay 3 _ rfl (by decide) (by decide) roundelayCalls⟩

end DesktopPet

import DesktopPet.Proofs.Pack.Compiled
import DesktopPet.Proofs.Playback.Sequence

/-!
# The expansion of sequences

A sequence is opened into its leaves when it starts. `Catalog.Expands` is the procedure as a relation: of actions in
order, it opens those sequences that lie at a depth at which sequences are opened. Opening all of them need not come to
an end where sequences lie in themselves; with a limit of depth it always does (`expands_leaves`), and in a catalog that
was compiled from a pack nothing is lost by the limit as long as no more sequences lie in each other than it allows
(`expansions_complete`).
-/

namespace DesktopPet

namespace Catalog

/-- Opens the sequences among actions at a depth, and in them, wherever `opens` says so of their depth: `leaves` are the
other actions that there are, in the order in which they are met, each as often as it is met. -/
inductive Expands (c : Catalog) (opens : Nat → Bool) : Nat → List Nat → List Nat → Prop where
  | done {depth : Nat} : Expands c opens depth [] []
  | absent {depth index : Nat} {more leaves : List Nat} (missing : c.action? index = none)
      (rest : Expands c opens depth more leaves) : Expands c opens depth (index :: more) leaves
  | leaf {depth index : Nat} {more leaves : List Nat} {action : Action} (found : c.action? index = some action)
      (plain : action.kind ≠ .sequence) (rest : Expands c opens depth more leaves) :
      Expands c opens depth (index :: more) (index :: leaves)
  | cut {depth index : Nat} {more leaves : List Nat} {action : Action} (found : c.action? index = some action)
      (sequence : action.kind = .sequence) (shut : opens depth = false)
      (rest : Expands c opens depth more leaves) : Expands c opens depth (index :: more) leaves
  | opened {depth index : Nat} {more inner leaves : List Nat} {action : Action}
      (found : c.action? index = some action) (sequence : action.kind = .sequence) (enters : opens depth = true)
      (below : Expands c opens (depth + 1) action.references inner) (rest : Expands c opens depth more leaves) :
      Expands c opens depth (index :: more) (inner ++ leaves)

/-- Sequences that lie in each other, the outermost first. -/
structure Nests (c : Catalog) (index : Nat) (chain : List Nat) : Prop where
  outermost : chain.head? = some index
  sequences : ∀ i ∈ chain, ∃ action, c.action? i = some action ∧ action.kind = .sequence
  nested : chain.IsChain c.Refers

section Expansion

variable {c : Catalog} {opens : Nat → Bool} {depth index : Nat} {action : Action}

/-! ## The relation -/

theorem Expands.append {first second leaves later : List Nat} (left : c.Expands opens depth first leaves)
    (right : c.Expands opens depth second later) : c.Expands opens depth (first ++ second) (leaves ++ later) := by
  induction left with
  | done => exact right
  | absent missing _ ih => exact .absent missing (ih right)
  | leaf found plain _ ih => exact .leaf found plain (ih right)
  | cut found sequence shut _ ih => exact .cut found sequence shut (ih right)
  | opened found sequence enters below _ _ ih =>
    rw [List.append_assoc]
    exact .opened found sequence enters below (ih right)

/-- Actions are expanded one by one. -/
theorem Expands.flatMap {expansion : Nat → List Nat} {indices : List Nat}
    (each : ∀ i ∈ indices, c.Expands opens depth [i] (expansion i)) :
    c.Expands opens depth indices (indices.flatMap expansion) := by
  induction indices with
  | nil => exact .done
  | cons i rest ih =>
    rw [List.flatMap_cons]
    exact (each i List.mem_cons_self).append (ih fun j member => each j (List.mem_cons_of_mem i member))

/-- There is one way to expand actions. -/
theorem Expands.unique {indices leaves other : List Nat} (left : c.Expands opens depth indices leaves)
    (right : c.Expands opens depth indices other) : leaves = other := by
  induction left generalizing other with
  | done =>
    cases right
    rfl
  | absent missing _ ih =>
    cases right with
    | absent _ rest => exact ih rest
    | leaf found => cases missing.symm.trans found
    | cut found => cases missing.symm.trans found
    | opened found => cases missing.symm.trans found
  | leaf found plain _ ih =>
    cases right with
    | absent missing => cases missing.symm.trans found
    | leaf _ _ rest => rw [ih rest]
    | cut again sequence =>
      cases found.symm.trans again
      exact absurd sequence plain
    | opened again sequence =>
      cases found.symm.trans again
      exact absurd sequence plain
  | cut found sequence shut _ ih =>
    cases right with
    | absent missing => cases missing.symm.trans found
    | leaf again plain =>
      cases found.symm.trans again
      exact absurd sequence plain
    | cut _ _ _ rest => exact ih rest
    | opened _ _ enters => cases shut.symm.trans enters
  | opened found sequence enters _ _ inner ih =>
    cases right with
    | absent missing => cases missing.symm.trans found
    | leaf again plain =>
      cases found.symm.trans again
      exact absurd sequence plain
    | cut _ _ shut => cases shut.symm.trans enters
    | opened again _ _ below rest =>
      cases found.symm.trans again
      rw [inner below, ih rest]

/-- Leaves are actions that are there, and none of them is a sequence. -/
theorem Expands.plain {indices leaves : List Nat} (expands : c.Expands opens depth indices leaves) :
    ∀ i ∈ leaves, ∃ action, c.action? i = some action ∧ action.kind ≠ .sequence := by
  induction expands with
  | done => simp
  | absent _ _ ih => exact ih
  | leaf found plain _ ih => exact List.forall_mem_cons.mpr ⟨⟨_, found, plain⟩, ih⟩
  | cut _ _ _ _ ih => exact ih
  | opened _ _ _ _ _ inner ih => exact List.forall_mem_append.mpr ⟨inner, ih⟩

/-! ## Nested sequences -/

theorem Nests.single (found : c.action? index = some action) (sequence : action.kind = .sequence) :
    c.Nests index [index] :=
  ⟨rfl, by simpa using ⟨action, found, sequence⟩, .singleton index⟩

theorem Nests.cons {inner : Nat} {chain : List Nat} (nests : c.Nests inner chain)
    (found : c.action? index = some action) (sequence : action.kind = .sequence)
    (refers : inner ∈ action.references) : c.Nests index (index :: chain) := by
  refine ⟨rfl, List.forall_mem_cons.mpr ⟨⟨action, found, sequence⟩, nests.sequences⟩, ?_⟩
  cases chain with
  | nil => exact .singleton index
  | cons first rest =>
    obtain rfl := Option.some.inj nests.outermost
    exact .cons_cons ⟨action, found, refers⟩ nests.nested

/-- Where no sequence lies in itself, no more of them lie in each other than there are actions. -/
theorem Nests.length_le {chain : List Nat} (nests : c.Nests index chain)
    (acyclic : ∀ i, ¬ Relation.TransGen c.Refers i i) : chain.length ≤ c.actions.length := by
  have paths : chain.IsChain (Relation.TransGen c.Refers) := nests.nested.imp fun _ _ => .single
  have distinct : chain.Nodup := by
    refine (List.isChain_iff_pairwise.mp paths).imp fun {i j} path => ?_
    rintro rfl
    exact acyclic i path
  have marked : Pack.Marked (c.actions.map (·.references)) chain := by
    refine ⟨distinct, fun i member => ?_⟩
    obtain ⟨action, found, _⟩ := nests.sequences i member
    rw [List.length_map]
    exact (List.getElem?_eq_some_iff.mp found).1
  simpa using marked.length_le

/-! ## The leaves -/

theorem leaves_sequence (found : c.action? index = some action) (sequence : action.kind = .sequence) (room : Nat) :
    c.leaves (room + 1) index = action.references.flatMap (c.leaves room) := by
  rw [leaves, found]
  simp [sequence]

theorem leaves_plain (found : c.action? index = some action) (plain : action.kind ≠ .sequence) (room : Nat) :
    c.leaves room index = [index] := by
  rw [leaves, found]
  simp [plain]

/-- What is no sequence is a leaf, if it is there at all. -/
theorem expands_plain (plain : ∀ action, c.action? index = some action → action.kind ≠ .sequence)
    (room depth : Nat) : c.Expands opens depth [index] (c.leaves room index) := by
  cases found : c.action? index with
  | none =>
    rw [leaves, found]
    exact .absent found .done
  | some action =>
    rw [leaves_plain found (plain action found)]
    exact .leaf found (plain action found) .done

/-- With room for some levels of sequences, all sequences are opened that lie at these levels. It does not matter what
is opened beneath if no sequences lie there. The induction is on the levels. -/
theorem expands_leaves (room depth index : Nat) (enters : ∀ level < room, opens (depth + level) = true)
    (shut : ∀ chain, c.Nests index chain → chain.length = room + 1 → opens (depth + room) = false) :
    c.Expands opens depth [index] (c.leaves room index) := by
  induction room generalizing depth index with
  | zero =>
    by_cases nested : ∃ action, c.action? index = some action ∧ action.kind = .sequence
    · obtain ⟨action, found, sequence⟩ := nested
      rw [leaves, found]
      simp only [sequence, ↓reduceIte]
      exact .cut found sequence (shut [index] (.single found sequence) rfl) .done
    · exact expands_plain (fun action found sequence => nested ⟨action, found, sequence⟩) 0 depth
  | succ room ih =>
    by_cases nested : ∃ action, c.action? index = some action ∧ action.kind = .sequence
    · obtain ⟨action, found, sequence⟩ := nested
      have children : ∀ i ∈ action.references, c.Expands opens (depth + 1) [i] (c.leaves room i) := by
        intro i refers
        refine ih (depth + 1) i (fun level inside => ?_) fun chain nests length => ?_
        · rw [Nat.add_right_comm, Nat.add_assoc]
          exact enters (level + 1) (Nat.succ_lt_succ inside)
        · rw [Nat.add_right_comm, Nat.add_assoc]
          exact shut (index :: chain) (nests.cons found sequence refers) (by rw [List.length_cons, length])
      rw [leaves_sequence found sequence, ← List.append_nil (action.references.flatMap _)]
      exact .opened found sequence (enters 0 (Nat.succ_pos room)) (.flatMap children) .done
    · exact expands_plain (fun action found sequence => nested ⟨action, found, sequence⟩) (room + 1) depth

/-- In a well-formed catalog a sequence has a leaf if there is room for all sequences that lie in it. -/
theorem leaves_ne_nil (wellFormed : c.WellFormed) (room index : Nat) (there : index < c.actions.length)
    (shallow : ∀ chain, c.Nests index chain → chain.length ≤ room) : c.leaves room index ≠ [] := by
  induction room generalizing index with
  | zero =>
    have found : c.action? index = some c.actions[index] := List.getElem?_eq_getElem there
    have plain : c.actions[index].kind ≠ .sequence := fun sequence => by
      have bounded := shallow [index] (.single found sequence)
      simp at bounded
    rw [leaves_plain found plain]
    exact List.cons_ne_nil index []
  | succ room ih =>
    have found : c.action? index = some c.actions[index] := List.getElem?_eq_getElem there
    have member : c.actions[index] ∈ c.actions := List.getElem_mem there
    by_cases sequence : c.actions[index].kind = .sequence
    · obtain ⟨child, refers⟩ := List.exists_mem_of_ne_nil _ ((wellFormed.sequences _ member).mp sequence)
      have nonempty : c.leaves room child ≠ [] := by
        refine ih child (wellFormed.references _ member child refers) fun chain nests => ?_
        have longer := shallow (index :: chain) (nests.cons found sequence refers)
        rwa [List.length_cons, Nat.succ_le_succ_iff] at longer
      rw [leaves_sequence found sequence]
      exact fun empty => nonempty (List.flatMap_eq_nil_iff.mp empty child refers)
    · rw [leaves_plain found sequence]
      exact List.cons_ne_nil index []

end Expansion

end Catalog

/-- A sequence that stands at its leaves stands at those that its start found. -/
theorem start_leaves {c : Catalog} {index position : Nat} {leaves : List Nat} {leaf : LeafCursor}
    (starts : (Player.start index c).cursor = .sequence leaves position leaf) :
    leaves = c.leaves maxSequenceDepth index := by
  unfold Player.start at starts
  split at starts
  · cases starts
  · split at starts
    · split at starts
      · cases starts
      next listed =>
        cases starts
        exact listed.symm
    · cases starts

/-- In a catalog that was compiled from a pack, a sequence in which no more than 32 sequences lie in each other, itself
included, starts at the first of its leaves, and they are all that come of opening every sequence in it. In any catalog
the expansion of an action to 32 levels of sequences has one result, of actions that are there and are no sequences,
and a sequence starts with this result. -/
theorem expansions_complete :
    (∀ (p : PackSpec) (c : Catalog) (issues : List Pack.Issue), p.compile = .ok (c, issues) →
      ∀ index action, c.action? index = some action → action.kind = .sequence →
        (∀ chain, c.Nests index chain → chain.length ≤ 32) →
        ∃ first others, (∀ leaves, c.Expands (fun _ => true) 0 [index] leaves ↔ leaves = first :: others) ∧
          (Player.start index c).cursor = .sequence (first :: others) 0 { action := first } ∧
          (Player.start index c).finished = false) ∧
    ∀ (c : Catalog) (index : Nat), ∃ leaves,
      (∀ other, c.Expands (fun depth => depth < 32) 0 [index] other ↔ other = leaves) ∧
      (∀ i ∈ leaves, ∃ action, c.action? i = some action ∧ action.kind ≠ .sequence) ∧
      ∀ shown position leaf, (Player.start index c).cursor = .sequence shown position leaf → shown = leaves := by
  refine ⟨fun p c issues compiled index action found sequence shallow => ?_, fun c index => ?_⟩
  · have wellFormed := compiled_packs_wellFormed p c issues compiled
    have there : index < c.actions.length := (List.getElem?_eq_some_iff.mp found).1
    have whole : c.Expands (fun _ => true) 0 [index] (c.leaves maxSequenceDepth index) := by
      refine Catalog.expands_leaves maxSequenceDepth 0 index (fun _ _ => rfl) fun chain nests deep => ?_
      have bounded := shallow chain nests
      rw [deep, maxSequenceDepth] at bounded
      omega
    cases listed : c.leaves maxSequenceDepth index with
    | nil => exact absurd listed (Catalog.leaves_ne_nil wellFormed maxSequenceDepth index there shallow)
    | cons first others =>
      have standing := start_stands found sequence first (by rw [listed]; rfl)
      rw [listed] at whole standing
      exact ⟨first, others, fun leaves => ⟨fun expands => expands.unique whole, fun same => same ▸ whole⟩,
        standing.cursor, standing.going⟩
  · have expands : c.Expands (fun depth => depth < 32) 0 [index] (c.leaves maxSequenceDepth index) := by
      refine Catalog.expands_leaves maxSequenceDepth 0 index (fun level inside => ?_) fun _ _ _ => rfl
      rw [Nat.zero_add]
      exact decide_eq_true inside
    exact ⟨_, fun other => ⟨fun again => again.unique expands, fun same => same ▸ expands⟩, expands.plain,
      fun _ _ _ => start_leaves⟩

/-- A fair of two rounds, each a look around and a greeting of the host, with a greeting before. -/
def fairPack : PackSpec :=
  { name := "fair"
    defaultBehavior := "look"
    actions :=
      [{ name := "greet", kind := "Embedded" },
       { name := "look", kind := "Stay", animations := [{ frames := [{}] }] },
       { name := "round", kind := "Sequence", references := ["look", "greet"] },
       { name := "fair", kind := "Sequence", references := ["greet", "round", "round"] }]
    behaviors := [{ name := "look" }] }

/-- The same greeting, before a sequence that goes round in itself. -/
def ringCatalog : Catalog :=
  let greet : Action :=
    { name := "greet", kind := .embedded, footing := none, blocks := [], defaultBlock := none, references := []
      looping := false, draggable := true, duration := none, embedded := [] }
  let ring : Action := { greet with name := "ring", kind := .sequence, references := [0, 1] }
  { name := "ring", actions := [greet, ring], behaviors := [], defaultBehavior := 0, draggedBehavior := none
    thrownBehavior := none }

theorem expansions_complete_fair :
    (∃ c issues, fairPack.compile = .ok (c, issues) ∧ (∀ chain, c.Nests 3 chain → chain.length ≤ 32) ∧
      c.Expands (fun _ => true) 0 [3] [0, 1, 0, 1, 0] ∧
      (Player.start 3 c).cursor = .sequence [0, 1, 0, 1, 0] 0 { action := 0 } ∧
      (Player.start 3 c).finished = false) ∧
    ringCatalog.Expands (fun depth => depth < 32) 0 [1] (List.replicate 32 0) := by
  have compiles : ∃ c issues action, fairPack.compile = .ok (c, issues) ∧ c.actions.length = 4 ∧
      c.action? 3 = some action ∧ action.kind = .sequence ∧
      (Player.start 3 c).cursor = .sequence [0, 1, 0, 1, 0] 0 { action := 0 } :=
    ⟨_, _, _, rfl, by decide +kernel, rfl, rfl, by decide +kernel⟩
  obtain ⟨c, issues, action, compiled, four, found, sequence, starts⟩ := compiles
  have shallow : ∀ chain, c.Nests 3 chain → chain.length ≤ 32 := fun chain nests => by
    have few := nests.length_le (compiled_packs_wellFormed fairPack c issues compiled).acyclic
    omega
  obtain ⟨complete, limited⟩ := expansions_complete
  obtain ⟨first, others, whole, begins, going⟩ :=
    complete fairPack c issues compiled 3 action found sequence shallow
  have same : first :: others = [0, 1, 0, 1, 0] := (Cursor.sequence.inj (begins.symm.trans starts)).1
  obtain ⟨leaves, result, _, shown⟩ := limited ringCatalog 1
  have round : (Player.start 1 ringCatalog).cursor = .sequence (List.replicate 32 0) 0 { action := 0 } := by
    decide +kernel
  exact ⟨⟨c, issues, compiled, shallow, (whole _).mpr same.symm, starts, going⟩,
    (result _).mpr (shown _ _ _ round)⟩

end DesktopPet

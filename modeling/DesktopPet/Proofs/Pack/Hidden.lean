import DesktopPet.Pack.Compile

/-!
# Packs and their menus

Which behaviors are hidden is of no concern to the compiler: `compile_reveal` says that a pack all of whose behaviors
are shown compiles as the pack itself does, with the same refusal or the same issues, into a catalog that differs
only in what menus show.
-/

namespace DesktopPet

/-- The behavior, shown in menus. -/
def Behavior.reveal (b : Behavior) : Behavior :=
  { b with hidden := false }

/-- The catalog with all its behaviors shown in menus. -/
def Catalog.reveal (c : Catalog) : Catalog :=
  { c with behaviors := c.behaviors.map Behavior.reveal }

/-- The behavior, shown in menus. -/
def Pack.BehaviorSpec.reveal (b : Pack.BehaviorSpec) : Pack.BehaviorSpec :=
  { b with hidden := false }

/-- The pack with all its behaviors shown in menus. -/
def PackSpec.reveal (p : PackSpec) : PackSpec :=
  { p with behaviors := p.behaviors.map Pack.BehaviorSpec.reveal }

namespace Pack

section Definitions

variable {α β : Type} {table : Table} {name : α → String} {compile : α → Reported (Option β)} {change : α → α}

private theorem firstDefinitions_map (names : ∀ a, name (change a) = name a) (seen : List String) (specs : List α) :
    firstDefinitions table name seen (specs.map change) =
      (firstDefinitions table name seen specs).map fun entry => ⟨entry.value.map change, entry.issues⟩ := by
  induction specs generalizing seen with
  | nil => rfl
  | cons spec rest ih =>
    rw [List.map_cons, firstDefinitions, firstDefinitions, List.map_cons, names, ih]
    split
    · rfl
    · rfl

/-- One definition with what it compiles to, if it is the first of its name. -/
def compileEntry (compile : α → Reported (Option β)) (entry : Reported (Option α)) : Reported (Option (α × β)) := do
  match ← entry with
  | none => pure none
  | some spec =>
    let compiled ← compile spec
    pure (compiled.map fun b => (spec, b))

private theorem compileEntry_map (same : ∀ a, compile (change a) = compile a) (entry : Reported (Option α)) :
    compileEntry compile ⟨entry.value.map change, entry.issues⟩ =
      ⟨(compileEntry compile entry).value.map (Prod.map change id), (compileEntry compile entry).issues⟩ := by
  obtain ⟨value, issues⟩ := entry
  cases value with
  | none => rfl
  | some spec =>
    simp only [compileEntry, bind, pure, Option.map_some, same]
    cases (compile spec).value with
    | none => rfl
    | some b => rfl

/-- A change of definitions that neither their names nor their compilation shows stays beside what they compile
to. -/
theorem compileFirst_map (names : ∀ a, name (change a) = name a) (same : ∀ a, compile (change a) = compile a)
    (specs : List α) :
    compileFirst table name compile (specs.map change) =
      ⟨(compileFirst table name compile specs).value.map (Prod.map change id),
        (compileFirst table name compile specs).issues⟩ := by
  change Reported.forEachKept (compileEntry compile) (firstDefinitions table name [] (specs.map change)) =
    ⟨(Reported.forEachKept (compileEntry compile) (firstDefinitions table name [] specs)).value.map
        (Prod.map change id),
      (Reported.forEachKept (compileEntry compile) (firstDefinitions table name [] specs)).issues⟩
  rw [firstDefinitions_map names]
  simp only [Reported.forEachKept, List.filterMap_map, List.flatMap_map, Function.comp_def, compileEntry_map same,
    List.map_filterMap]

end Definitions

/-- Compiling a shown behavior gives the compiled one, shown. -/
theorem behavior_compile_reveal (names : List String) (b : BehaviorSpec) (action : Nat) :
    b.reveal.compile names action =
      ⟨(b.compile names action).value.reveal, (b.compile names action).issues⟩ :=
  rfl

/-- Whether a behavior is hidden changes nothing in how a pack compiles but what menus show. -/
theorem compile_reveal (p : PackSpec) :
    p.reveal.compile = p.compile.map fun (c, issues) => (c.reveal, issues) := by
  have definitions (actionNames : List String) :=
    @compileFirst_map _ _ .behaviors BehaviorSpec.name (BehaviorSpec.resolveAction actionNames) BehaviorSpec.reveal
      (fun _ => rfl) (fun _ => rfl) p.behaviors
  unfold PackSpec.compile
  simp only [PackSpec.reveal, definitions, List.isEmpty_map, List.map_map, Function.comp_def, Prod.map_fst,
    Prod.map_snd, id, Reported.forEach, List.flatMap_map, behavior_compile_reveal]
  simp only [BehaviorSpec.reveal]
  split
  · rfl
  · split
    · rfl
    · simp only [Except.map, Catalog.reveal, List.map_map, Function.comp_def]

end Pack

end DesktopPet

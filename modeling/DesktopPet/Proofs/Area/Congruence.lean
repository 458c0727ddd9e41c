import DesktopPet.Contact
import DesktopPet.Body
import DesktopPet.Proofs.Number.Congruence

/-!
# Places along a congruence

Points, contacts and positions within one area: what is computed of the same points is the same point, and contact
flags do not tell them apart.
-/

namespace DesktopPet

open Number (Congruence)

/-- The same point or displacement. -/
structure Vector2.Related (R : Float32 → Float32 → Prop) (v w : Vector2) : Prop where
  x : R v.x w.x
  y : R v.y w.y

section Related

variable {R : Float32 → Float32 → Prop} {R64 : Float → Float → Prop} (cong : Congruence R R64)
variable {v v' w w' : Vector2}

include cong

namespace Vector2.Related

theorem refl (v : Vector2) : v.Related R v :=
  ⟨cong.refl v.x, cong.refl v.y⟩

theorem add (left : v.Related R v') (right : w.Related R w') : (v + w).Related R (v' + w') :=
  ⟨cong.add left.x right.x, cong.add left.y right.y⟩

theorem sub (left : v.Related R v') (right : w.Related R w') : (v - w).Related R (v' - w') :=
  ⟨cong.sub left.x right.x, cong.sub left.y right.y⟩

theorem scale {a b : Float32} (same : v.Related R w) (factor : R a b) : (v.scale a).Related R (w.scale b) :=
  ⟨cong.mul same.x factor, cong.mul same.y factor⟩

theorem divide (same : v.Related R w) (divisor : Float32) : (v.divide divisor).Related R (w.divide divisor) :=
  ⟨cong.div same.x divisor, cong.div same.y divisor⟩

theorem isFinite (same : v.Related R w) : v.isFinite = w.isFinite := by
  rw [Vector2.isFinite, Vector2.isFinite, cong.isFinite same.x, cong.isFinite same.y]

theorem agrees (left : v.Related R v') (right : w.Related R w') : v.agrees w = v'.agrees w' := by
  rw [Vector2.agrees, Vector2.agrees, cong.beq left.x right.x, cong.beq left.y right.y]

/-- Squares have no sign, so that a length is the very same. -/
theorem lengthSquared (same : v.Related R w) : v.lengthSquared = w.lengthSquared := by
  rw [Vector2.lengthSquared, Vector2.lengthSquared, cong.square same.x, cong.square same.y]

theorem length (same : v.Related R w) : v.length = w.length := by
  rw [Vector2.length, Vector2.length, lengthSquared cong same]

theorem clampLength {a b : Float32} (same : v.Related R w) (limit : R a b) :
    (v.clampLength a).Related R (w.clampLength b) := by
  unfold Vector2.clampLength
  rw [lengthSquared cong same, cong.square limit]
  split
  · have direction := divide cong same w.lengthSquared.sqrt
    exact ⟨cong.mul limit direction.x, cong.mul limit direction.y⟩
  · exact same

end Vector2.Related

/-! ## Within one area -/

section Place

variable {position position' size size' : Vector2} (same : position.Related R position') (sizes : size.Related R size')

include sizes

theorem Bounds.maxX_related (b : Bounds) : R (b.maxX size) (b.maxX size') :=
  cong.maximum (cong.sub (cong.refl b.right) sizes.x) (cong.refl b.left)

theorem Bounds.maxY_related (b : Bounds) : R (b.maxY size) (b.maxY size') :=
  cong.maximum (cong.sub (cong.refl b.floor) sizes.y) (cong.refl b.ceiling)

include same

theorem Bounds.clampRect?_related (b : Bounds) :
    Option.Rel (Vector2.Related R) (b.clampRect? position size) (b.clampRect? position' size') := by
  have right := Bounds.maxX_related cong sizes b
  have lower := Bounds.maxY_related cong sizes b
  unfold Bounds.clampRect?
  simp only [cong.le (cong.refl b.left) right, cong.le (cong.refl b.ceiling) lower]
  split
  · exact .some ⟨cong.clamp (cong.refl b.left) right same.x, cong.clamp (cong.refl b.ceiling) lower same.y⟩
  · exact .none

omit sizes in
theorem Area.isClose_related (a : Area) (border : Border) {fraction fraction' : Float32}
    (fractions : R fraction fraction') : a.isClose position border fraction = a.isClose position' border fraction' := by
  have reach := cong.positivePart fractions
  have far {line line' : Float32} (span : Float32) (lines : R line line') :
      R (line + span * Number.positivePart fraction) (line' + span * Number.positivePart fraction') ∧
        R (line - span * Number.positivePart fraction) (line' - span * Number.positivePart fraction') :=
    ⟨cong.add lines (cong.mul (cong.refl span) reach), cong.sub lines (cong.mul (cong.refl span) reach)⟩
  cases border with
  | leftWall => exact decide_eq_decide.mpr (cong.le same.x (far _ (cong.refl _)).1)
  | rightWall => exact decide_eq_decide.mpr (cong.le (far _ (cong.refl _)).2 same.x)
  | ceiling => exact decide_eq_decide.mpr (cong.le same.y (far _ (cong.refl _)).1)
  | floor => exact decide_eq_decide.mpr (cong.le (far _ (cong.refl _)).2 same.y)

theorem Contact.ofRect_related (a : Area) {fraction fraction' : Float32} (fractions : R fraction fraction') :
    Contact.ofRect position size a fraction = Contact.ofRect position' size' a fraction' := by
  have right := cong.add same.x sizes.x
  have lower := cong.add same.y sizes.y
  unfold Contact.ofRect
  simp only [cong.le (cong.refl _) lower, cong.le same.y (cong.refl _), cong.le same.x (cong.refl _),
    cong.le (cong.refl _) right, Area.isClose_related cong same a _ fractions]

end Place

theorem Area.drawBetween_related {lo lo' hi hi' otherwise otherwise' : Float32} (least : R lo lo') (most : R hi hi')
    (others : R otherwise otherwise') (r : Random) :
    R (Area.drawBetween lo hi otherwise r).1 (Area.drawBetween lo' hi' otherwise' r).1 ∧
      (Area.drawBetween lo hi otherwise r).2 = (Area.drawBetween lo' hi' otherwise' r).2 := by
  unfold Area.drawBetween
  generalize r.unit32 = drawn
  obtain ⟨u, later⟩ := drawn
  simp only [cong.lt least most]
  split
  · exact ⟨cong.add least (cong.mul (cong.refl u) (cong.sub most least)), rfl⟩
  · exact ⟨others, rfl⟩

theorem Area.spawnPosition_related (a : Area) {size size' : Vector2} (sizes : size.Related R size')
    {inset inset' : Float32} (insets : R inset inset') (r : Random) :
    (a.spawnPosition size inset r).1.Related R (a.spawnPosition size' inset' r).1 ∧
      (a.spawnPosition size inset r).2 = (a.spawnPosition size' inset' r).2 := by
  have horizontal := Area.drawBetween_related cong (cong.add (cong.refl a.bounds.left) insets)
    (cong.sub (cong.sub (cong.refl a.bounds.right) sizes.x) insets) (cong.refl a.bounds.left) r
  have vertical := Area.drawBetween_related cong (cong.add (cong.refl a.bounds.ceiling) insets)
    (cong.sub (cong.sub (cong.refl a.bounds.floor) sizes.y) insets) (cong.refl a.bounds.ceiling)
  unfold Area.spawnPosition
  dsimp only
  -- from here on the draws are opaque: there is no need to look into the generator
  generalize Area.drawBetween (a.bounds.left + inset) (a.bounds.right - size.x - inset) a.bounds.left r = drawn
    at horizontal ⊢
  generalize Area.drawBetween (a.bounds.left + inset') (a.bounds.right - size'.x - inset') a.bounds.left r = drawn'
    at horizontal ⊢
  obtain ⟨drawnX, later⟩ := drawn
  obtain ⟨drawnX', later'⟩ := drawn'
  obtain ⟨x, afterX⟩ := horizontal
  dsimp only at x afterX
  subst afterX
  have drawnY := vertical later
  dsimp only
  generalize Area.drawBetween (a.bounds.ceiling + inset) (a.bounds.floor - size.y - inset) a.bounds.ceiling later =
    drawn at drawnY ⊢
  generalize Area.drawBetween (a.bounds.ceiling + inset') (a.bounds.floor - size'.y - inset') a.bounds.ceiling later =
    drawn' at drawnY ⊢
  exact ⟨⟨x, drawnY.1⟩, drawnY.2⟩

end Related

end DesktopPet

import Mathlib.Tactic.IntervalCases
import MediaServer.Medkit

/-! Where the slots of a mosaic lie on its canvas, and when they overlap. -/

namespace MediaServer

inductive MosaicType
  | mosaic1x1 | mosaic2x2 | mosaic3x3 | mosaic3p4 | mosaic1p7 | mosaic1p5 | mosaic1p1
  | mosaicPIP1 | mosaicPIP3 | mosaic4x4 | mosaic1p4 | mosaic2p8
  deriving DecidableEq

def getNumSlotsForType : MosaicType → Nat
  | .mosaic1x1 => 1
  | .mosaic2x2 => 4
  | .mosaic3x3 => 9
  | .mosaic3p4 => 7
  | .mosaic1p7 => 8
  | .mosaic1p5 => 6
  | .mosaic1p1 => 2
  | .mosaicPIP1 => 2
  | .mosaicPIP3 => 4
  | .mosaic4x4 => 16
  | .mosaic1p4 => 16
  | .mosaic2p8 => 10

/-- The macro `SIZE4MUL`, which masks the last two bits. -/
def size4mul (x : Nat) : Nat := x / 4 * 4

def evenSize (size : Nat) : Nat := if size % 2 ≠ 0 then size - 1 else size

structure Rect where
  left : Nat
  top : Nat
  width : Nat
  height : Nat
  deriving DecidableEq

/-! Regular grids. -/

namespace PartedMosaic

/-- The number of columns, which is the number of rows. -/
def mosaicCols : MosaicType → Nat
  | .mosaic1x1 => 1
  | .mosaic2x2 => 2
  | .mosaic3x3 => 3
  | .mosaic4x4 => 4
  | _ => 1

variable (type : MosaicType) (total pos : Nat)

def mosaicSize : Nat := evenSize (total / mosaicCols type)

/-- `GetWidth` and `GetHeight`, which differ in the side of the canvas. -/
def getSize : Nat := if getNumSlotsForType type ≤ pos then 0 else mosaicSize type total

def getTop : Nat := mosaicSize type total * (pos / mosaicCols type)

def getLeft : Nat :=
  mosaicSize type total * (pos - pos / mosaicCols type * mosaicCols type)

end PartedMosaic

/-! Asymmetric layouts. -/

namespace AsymmetricMosaic

/-- `cols` and `size` of `GetWidth`. -/
def widthShare : MosaicType → Nat → Nat × Nat
  | .mosaic3p4, pos => (4, if pos < 3 then 2 else 1)
  | .mosaic1p7, pos => (4, if pos = 0 then 3 else 1)
  | .mosaic1p4, pos => (4, if pos = 0 then 3 else 1)
  | .mosaic1p5, pos => (3, if pos = 0 then 2 else 1)
  | .mosaic1p1, _ => (4, 2)
  | .mosaic2p8, pos => (4, if pos = 4 ∨ pos = 5 then 2 else 1)
  | _, _ => (1, 1)

/-- `rows` and `size` of `GetHeight`. -/
def heightShare : MosaicType → Nat → Nat × Nat
  | .mosaic3p4, pos => (4, if pos < 3 then 2 else 1)
  | .mosaic1p7, pos => (4, if pos = 0 then 3 else 1)
  | .mosaic1p4, pos => (4, if pos = 0 then 4 else 1)
  | .mosaic1p5, pos => (3, if pos = 0 then 2 else 1)
  | .mosaic1p1, _ => (1, 1)
  | .mosaic2p8, pos => (4, if pos = 4 ∨ pos = 5 then 2 else 1)
  | _, _ => (1, 1)

/-- `index` and `rows` of `GetTop`, or none where it returns 0 at once. The third slot of
`mosaic3p4` falls through to the fourth.
-/
def topIndex : MosaicType → Nat → Option (Nat × Nat)
  | .mosaic3p4, pos =>
    match pos with
    | 0 | 1 => none
    | 2 | 3 => some (10, 4)
    | 4 => some (11, 4)
    | 5 => some (14, 4)
    | 6 => some (15, 4)
    | _ => some (0, 4)
  | .mosaic1p7, pos =>
    match pos with
    | 0 | 1 => none
    | 2 => some (7, 4)
    | 3 => some (11, 4)
    | 4 => some (12, 4)
    | 5 => some (13, 4)
    | 6 => some (14, 4)
    | 7 => some (15, 4)
    | _ => some (0, 4)
  | .mosaic1p4, pos =>
    match pos with
    | 0 | 1 => none
    | 2 => some (7, 4)
    | 3 => some (11, 4)
    | 4 => some (12, 4)
    | 5 => some (13, 4)
    | _ => some (0, 4)
  | .mosaic1p5, pos =>
    match pos with
    | 0 | 1 => none
    | 2 => some (5, 3)
    | 3 => some (6, 3)
    | 4 => some (7, 3)
    | 5 => some (8, 3)
    | _ => some (0, 3)
  | .mosaic2p8, pos =>
    match pos with
    | 0 | 1 | 2 | 3 => none
    | 4 | 5 => some (7, 4)
    | 6 | 7 | 8 | 9 => some (12, 4)
    | _ => some (0, 4)
  | .mosaic1p1, _ => none
  | _, _ => some (0, 1)

/-- `index` and `cols` of `GetLeft`, or none where it returns 0 at once. `index` has no initial
value, so it is anything for a slot that the tables leave out.
-/
def leftIndex (uninitialised : BYTE) : MosaicType → Nat → Option (Nat × Nat)
  | .mosaic3p4, pos =>
    match pos with
    | 0 | 2 => none
    | 1 => some (2, 4)
    | 3 => some (10, 4)
    | 4 => some (11, 4)
    | 5 => some (14, 4)
    | 6 => some (15, 4)
    | _ => some (uninitialised.toNat, 4)
  | .mosaic1p7, pos =>
    match pos with
    | 0 => none
    | 1 => some (3, 4)
    | 2 => some (7, 4)
    | 3 => some (11, 4)
    | 4 => some (12, 4)
    | 5 => some (13, 4)
    | 6 => some (14, 4)
    | 7 => some (15, 4)
    | _ => some (uninitialised.toNat, 4)
  | .mosaic1p4, pos =>
    match pos with
    | 0 => none
    | 1 => some (3, 4)
    | 2 => some (7, 4)
    | 3 => some (11, 4)
    | 4 => some (12, 4)
    | 5 => some (13, 4)
    | _ => some (uninitialised.toNat, 4)
  | .mosaic1p5, pos =>
    match pos with
    | 0 => none
    | 1 => some (2, 3)
    | 2 => some (5, 3)
    | 3 => some (6, 3)
    | 4 => some (7, 3)
    | 5 => some (8, 3)
    | _ => some (uninitialised.toNat, 3)
  | .mosaic2p8, pos =>
    match pos with
    | 0 | 6 | 4 => none
    | 5 => some (6, 4)
    | 1 | 7 => some (5, 4)
    | 2 | 8 => some (6, 4)
    | 3 | 9 => some (7, 4)
    | _ => some (uninitialised.toNat, 4)
  | .mosaic1p1, pos => if pos = 0 then none else some (1, 2)
  | _, _ => some (uninitialised.toNat, 1)

variable (type : MosaicType) (total pos : Nat)

def getWidth : Nat :=
  if getNumSlotsForType type ≤ pos then 0
  else total / (widthShare type pos).1 * (widthShare type pos).2

def getHeight : Nat :=
  if getNumSlotsForType type ≤ pos then 0
  else total / (heightShare type pos).1 * (heightShare type pos).2

def getTop : Nat :=
  if getNumSlotsForType type ≤ pos then 0
  else
    (topIndex type pos).elim 0 (fun (index, rows) => evenSize (total / rows) * (index / rows))

def getLeft (uninitialised : BYTE) : Nat :=
  if getNumSlotsForType type ≤ pos then 0
  else
    (leftIndex uninitialised type pos).elim 0 (fun (index, cols) =>
      evenSize (total / cols) * (index - index / cols * cols))

end AsymmetricMosaic

/-! Pictures in the picture. -/

namespace PIPMosaic

variable (type : MosaicType) (total pos : Nat)

/-- `GetWidth` and `GetHeight`, which differ in the side of the canvas. -/
def getSize : Nat :=
  if getNumSlotsForType type < pos + 1 then 0
  else if pos = 0 then total
  else if getNumSlotsForType type = 2 then size4mul (total / 4)
  else size4mul (total / 5)

def getTop : Nat :=
  if getNumSlotsForType type < pos + 1 then 0
  else if pos = 0 then 0
  else
    let mosaicHeight := evenSize (size4mul (total / 5))
    size4mul (total - mosaicHeight - mosaicHeight / 2)

def getLeft : Nat :=
  if getNumSlotsForType type < pos + 1 then 0
  else if pos = 0 then 0
  else
    let mosaicWidth := evenSize (size4mul (total / 5))
    let intraWidth := mosaicWidth / 2
    intraWidth + (intraWidth + mosaicWidth) * (pos - 1)

end PIPMosaic

/-- The rectangle of a slot, by the class that `CreateMosaic` chooses for the type. -/
def slotRect (uninitialised : BYTE) (type : MosaicType) (width height pos : Nat) : Rect :=
  match type with
  | .mosaic1x1 | .mosaic2x2 | .mosaic3x3 | .mosaic4x4 =>
    { left := PartedMosaic.getLeft type width pos
      top := PartedMosaic.getTop type height pos
      width := PartedMosaic.getSize type width pos
      height := PartedMosaic.getSize type height pos }
  | .mosaic1p1 | .mosaic3p4 | .mosaic1p7 | .mosaic1p5 | .mosaic1p4 | .mosaic2p8 =>
    { left := AsymmetricMosaic.getLeft type width pos uninitialised
      top := AsymmetricMosaic.getTop type height pos
      width := AsymmetricMosaic.getWidth type width pos
      height := AsymmetricMosaic.getHeight type height pos }
  | .mosaicPIP1 | .mosaicPIP3 =>
    { left := PIPMosaic.getLeft type width pos
      top := PIPMosaic.getTop type height pos
      width := PIPMosaic.getSize type width pos
      height := PIPMosaic.getSize type height pos }

/-! Rectangles. -/

namespace Rect

def Covers (rect : Rect) (x y : Nat) : Prop :=
  (rect.left ≤ x ∧ x < rect.left + rect.width) ∧ rect.top ≤ y ∧ y < rect.top + rect.height

def Inside (rect : Rect) (width height : Nat) : Prop :=
  rect.left + rect.width ≤ width ∧ rect.top + rect.height ≤ height

/-- No pixel lies in both. -/
def Disjoint (one other : Rect) : Prop :=
  ∀ x y, ¬ (one.Covers x y ∧ other.Covers x y)

/-- One lies beside or above the other. -/
def Apart (one other : Rect) : Prop :=
  (one.left + one.width ≤ other.left ∨ other.left + other.width ≤ one.left)
  ∨ one.top + one.height ≤ other.top ∨ other.top + other.height ≤ one.top

instance (one other : Rect) : Decidable (one.Apart other) := by
  unfold Apart
  infer_instance

instance (rect : Rect) (width height : Nat) : Decidable (rect.Inside width height) := by
  unfold Inside
  infer_instance

theorem Apart.disjoint {one other : Rect} (apart : one.Apart other) : one.Disjoint other := by
  rintro x y ⟨⟨⟨_, _⟩, _, _⟩, ⟨_, _⟩, _, _⟩
  rcases apart with (beside | beside) | above | above <;> omega

/-- A rectangle in units of a cell. -/
def scale (rect : Rect) (width height : Nat) : Rect where
  left := width * rect.left
  top := height * rect.top
  width := width * rect.width
  height := height * rect.height

theorem Apart.scale {one other : Rect} (apart : one.Apart other) (width height : Nat)
    : (one.scale width height).Apart (other.scale width height) := by
  simp only [Apart, Rect.scale, ← Nat.mul_add]
  rcases apart with (beside | beside) | above | above
  · exact .inl (.inl (Nat.mul_le_mul_left _ beside))
  · exact .inl (.inr (Nat.mul_le_mul_left _ beside))
  · exact .inr (.inl (Nat.mul_le_mul_left _ above))
  · exact .inr (.inr (Nat.mul_le_mul_left _ above))

theorem Inside.scale {rect : Rect} {cols rows width height totalWidth totalHeight : Nat}
    (inside : rect.Inside cols rows) (wide : width * cols ≤ totalWidth)
    (high : height * rows ≤ totalHeight)
    : (rect.scale width height).Inside totalWidth totalHeight := by
  simp only [Inside, Rect.scale, ← Nat.mul_add]
  exact ⟨(Nat.mul_le_mul_left _ inside.1).trans wide,
    (Nat.mul_le_mul_left _ inside.2).trans high⟩

end Rect

end MediaServer

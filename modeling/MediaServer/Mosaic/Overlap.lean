import MediaServer.Mosaic.Layout

/-! Which layouts keep their slots on the canvas and apart from each other. -/

namespace MediaServer

open AsymmetricMosaic PartedMosaic

def MosaicType.isPip : MosaicType → Bool
  | .mosaicPIP1 | .mosaicPIP3 => true
  | _ => false

/-- Every slot lies on the canvas and no two overlap, except the main picture of a picture in
the picture.
-/
structure WellLaid (uninitialised : BYTE) (type : MosaicType) (width height : Nat) : Prop where
  inside
    : ∀ pos < getNumSlotsForType type,
        (slotRect uninitialised type width height pos).Inside width height
  disjoint
    : ∀ one < getNumSlotsForType type, ∀ other < getNumSlotsForType type, one ≠ other
        → (type.isPip → one ≠ 0 ∧ other ≠ 0)
        → (slotRect uninitialised type width height one).Disjoint
            (slotRect uninitialised type width height other)

variable {uninitialised : BYTE} {type : MosaicType} {width height : Nat}

/-- Slots that are made of cells of one size are where their units are. -/
theorem WellLaid.of_units {unit : Nat → Rect} {cols rows cellWidth cellHeight : Nat}
    (same
      : ∀ pos < getNumSlotsForType type,
          slotRect uninitialised type width height pos = (unit pos).scale cellWidth cellHeight)
    (inside : ∀ pos < getNumSlotsForType type, (unit pos).Inside cols rows)
    (apart
      : ∀ one < getNumSlotsForType type, ∀ other < getNumSlotsForType type,
          one ≠ other → (unit one).Apart (unit other))
    (wide : cellWidth * cols ≤ width) (high : cellHeight * rows ≤ height)
    : WellLaid uninitialised type width height where
  inside pos known := by
    rw [same pos known]
    exact (inside pos known).scale wide high
  disjoint one first other second different _ := by
    rw [same one first, same other second]
    exact ((apart one first other second different).scale cellWidth cellHeight).disjoint

theorem WellLaid.clash (wellLaid : WellLaid uninitialised type width height) {one other : Nat}
    (known : one < getNumSlotsForType type) (knownToo : other < getNumSlotsForType type)
    (different : one ≠ other) (plain : type.isPip = false) {first second : Rect}
    (isFirst : slotRect uninitialised type width height one = first)
    (isSecond : slotRect uninitialised type width height other = second) (x y : Nat)
    (both : first.Covers x y ∧ second.Covers x y)
    : False := by
  refine wellLaid.disjoint one known other knownToo different ?_ x y (isFirst ▸ isSecond ▸ both)
  rw [plain]
  nofun

theorem evenSize_le (size : Nat) : evenSize size ≤ size := by
  rw [evenSize]
  split_ifs <;> omega

theorem evenSize_of_even {size : Nat} (even : size % 2 = 0) : evenSize size = size := by
  rw [evenSize, if_neg (not_not.mpr even)]

theorem evenSize_of_odd {size : Nat} (odd : size % 2 ≠ 0) : evenSize size = size - 1 := by
  rw [evenSize, if_pos odd]

/-! Regular grids. -/

namespace PartedMosaic

def unit (type : MosaicType) (pos : Nat) : Rect where
  left := pos - pos / mosaicCols type * mosaicCols type
  top := pos / mosaicCols type
  width := 1
  height := 1

/-- The cells of a regular grid do not overlap. -/
structure Regular (type : MosaicType) : Prop where
  rect
    : ∀ uninitialised width height pos,
        slotRect uninitialised type width height pos
          = { left := getLeft type width pos
              top := getTop type height pos
              width := getSize type width pos
              height := getSize type height pos }
  inside
    : ∀ pos < getNumSlotsForType type,
        (unit type pos).Inside (mosaicCols type) (mosaicCols type)
  apart
    : ∀ one < getNumSlotsForType type, ∀ other < getNumSlotsForType type,
        one ≠ other → (unit type one).Apart (unit type other)

theorem mosaicSize_mul_le (type : MosaicType) (total : Nat)
    : mosaicSize type total * mosaicCols type ≤ total :=
  (Nat.mul_le_mul_right _ (evenSize_le _)).trans (Nat.div_mul_le_self _ _)

theorem Regular.wellLaid (regular : Regular type) : WellLaid uninitialised type width height := by
  refine .of_units ?_ regular.inside regular.apart (mosaicSize_mul_le type width)
    (mosaicSize_mul_le type height)
  intro pos known
  rw [regular.rect, getLeft, getTop, getSize, getSize, if_neg (by omega), if_neg (by omega),
    Rect.scale, unit, Nat.mul_one, Nat.mul_one]

theorem regular_1x1 : Regular .mosaic1x1 := ⟨fun _ _ _ _ => rfl, by decide, by decide⟩
theorem regular_2x2 : Regular .mosaic2x2 := ⟨fun _ _ _ _ => rfl, by decide, by decide⟩
theorem regular_3x3 : Regular .mosaic3x3 := ⟨fun _ _ _ _ => rfl, by decide, by decide⟩
theorem regular_4x4 : Regular .mosaic4x4 :=
  ⟨fun _ _ _ _ => rfl, by decide, by decide +kernel⟩

end PartedMosaic

/-! Asymmetric layouts. -/

namespace AsymmetricMosaic

def unit (type : MosaicType) (pos : Nat) : Rect where
  left := (leftIndex 0 type pos).elim 0 (fun (index, cols) => index - index / cols * cols)
  top := (topIndex type pos).elim 0 (fun (index, rows) => index / rows)
  width := (widthShare type pos).2
  height := (heightShare type pos).2

/-- Two slots at the top of the canvas of which one begins where the other ends. -/
def SideBySide (one other : Rect) : Prop :=
  (one.top = 0 ∧ other.top = 0) ∧ one.left + one.width = other.left
  ∧ 0 < one.width ∧ 0 < other.width ∧ 0 < one.height ∧ 0 < other.height

/-- Two slots of which one begins below the other. -/
def Stacked (one other : Rect) : Prop :=
  one.left = other.left ∧ one.top + one.height = other.top
  ∧ 0 < one.width ∧ 0 < other.width ∧ 0 < one.height ∧ 0 < other.height

instance (one other : Rect) : Decidable (SideBySide one other) := by
  unfold SideBySide
  infer_instance

instance (one other : Rect) : Decidable (Stacked one other) := by
  unfold Stacked
  infer_instance

/-- A layout whose slots all count in the same cells. -/
structure Gridded (type : MosaicType) (cells : Nat) : Prop where
  plain : type.isPip = false
  rect
    : ∀ uninitialised width height pos,
        slotRect uninitialised type width height pos
          = { left := getLeft type width pos uninitialised
              top := getTop type height pos
              width := getWidth type width pos
              height := getHeight type height pos }
  initialised
    : ∀ pos < getNumSlotsForType type, ∀ uninitialised,
        leftIndex uninitialised type pos = leftIndex 0 type pos
  cols : ∀ pos < getNumSlotsForType type, ∀ entry ∈ leftIndex 0 type pos, entry.2 = cells
  rows : ∀ pos < getNumSlotsForType type, ∀ entry ∈ topIndex type pos, entry.2 = cells
  shares
    : ∀ pos < getNumSlotsForType type,
        (widthShare type pos).1 = cells ∧ (heightShare type pos).1 = cells
  inside : ∀ pos < getNumSlotsForType type, (unit type pos).Inside cells cells
  apart
    : ∀ one < getNumSlotsForType type, ∀ other < getNumSlotsForType type,
        one ≠ other → (unit type one).Apart (unit type other)
  beside
    : ∃ one < getNumSlotsForType type, ∃ other < getNumSlotsForType type,
        one ≠ other ∧ SideBySide (unit type one) (unit type other)
  stacked
    : ∃ one < getNumSlotsForType type, ∃ other < getNumSlotsForType type,
        one ≠ other ∧ Stacked (unit type one) (unit type other)

/-- The offsets count in cells of even size, the sizes in the cells as they are. -/
theorem Gridded.slotRect {cells pos : Nat} (gridded : Gridded type cells)
    (known : pos < getNumSlotsForType type)
    : slotRect uninitialised type width height pos
      = { left := evenSize (width / cells) * (unit type pos).left
          top := evenSize (height / cells) * (unit type pos).top
          width := width / cells * (unit type pos).width
          height := height / cells * (unit type pos).height } := by
  have left : getLeft type width pos uninitialised
      = evenSize (width / cells) * (unit type pos).left := by
    rw [getLeft, if_neg (by omega), gridded.initialised pos known, unit]
    cases found : leftIndex 0 type pos with
    | none => rfl
    | some entry => simp only [Option.elim_some, gridded.cols pos known entry found]
  have top : getTop type height pos = evenSize (height / cells) * (unit type pos).top := by
    rw [getTop, if_neg (by omega), unit]
    cases found : topIndex type pos with
    | none => rfl
    | some entry => simp only [Option.elim_some, gridded.rows pos known entry found]
  obtain ⟨cols, rows⟩ := gridded.shares pos known
  rw [gridded.rect, left, top, getWidth, getHeight, if_neg (by omega), if_neg (by omega), cols,
    rows]
  rfl

/-- With cells of even size the offsets are not rounded. -/
theorem Gridded.wellLaid {cells : Nat} (gridded : Gridded type cells)
    (evenWidth : width / cells % 2 = 0) (evenHeight : height / cells % 2 = 0)
    : WellLaid uninitialised type width height := by
  refine .of_units ?_ gridded.inside gridded.apart (Nat.div_mul_le_self width cells)
    (Nat.div_mul_le_self height cells)
  intro pos known
  rw [gridded.slotRect known, evenSize_of_even evenWidth, evenSize_of_even evenHeight]
  rfl

/-- Slots that meet in cells reach into each other when the cells are rounded down. -/
theorem reaches {cell reach start next : Nat} (odd : cell % 2 ≠ 0) (real : 0 < reach)
    (meet : start + reach = next)
    : evenSize cell * start ≤ evenSize cell * next
      ∧ evenSize cell * next < evenSize cell * start + cell * reach := by
  have shorter : evenSize cell < cell := by
    rw [evenSize_of_odd odd]
    omega
  rw [← meet, Nat.mul_add]
  exact ⟨Nat.le_add_right _ _, Nat.add_lt_add_left (Nat.mul_lt_mul_of_pos_right shorter real) _⟩

theorem begins {cell reach : Nat} (some : 0 < cell) (real : 0 < reach) (start : Nat)
    : start ≤ start ∧ start < start + cell * reach :=
  ⟨le_rfl, Nat.lt_add_of_pos_right (Nat.mul_pos some real)⟩

section Odd

variable {cells : Nat} (gridded : Gridded type cells) (wide : 0 < width / cells)
  (high : 0 < height / cells)

include gridded wide high

/-- Slots side by side reach into each other when the width of the cells is odd. -/
theorem Gridded.even_width (wellLaid : WellLaid uninitialised type width height)
    : width / cells % 2 = 0 := by
  by_contra odd
  obtain ⟨one, known, other, knownToo, different, ⟨top, topToo⟩, meet, real, realToo, tall,
    tallToo⟩ := gridded.beside
  refine wellLaid.clash known knownToo different gridded.plain (gridded.slotRect known)
    (gridded.slotRect knownToo) (evenSize (width / cells) * (unit type other).left) 0 ?_
  simp only [Rect.Covers, top, topToo, Nat.mul_zero]
  exact ⟨⟨reaches odd real meet, begins high tall 0⟩, begins wide realToo _, begins high tallToo 0⟩

/-- Slots on top of each other reach into each other when the height of the cells is odd. -/
theorem Gridded.even_height (wellLaid : WellLaid uninitialised type width height)
    : height / cells % 2 = 0 := by
  by_contra odd
  obtain ⟨one, known, other, knownToo, different, lefts, meet, real, realToo, tall, tallToo⟩ :=
    gridded.stacked
  refine wellLaid.clash known knownToo different gridded.plain (gridded.slotRect known)
    (gridded.slotRect knownToo) (evenSize (width / cells) * (unit type other).left)
    (evenSize (height / cells) * (unit type other).top) ?_
  simp only [Rect.Covers, lefts]
  exact ⟨⟨begins wide real _, reaches odd tall meet⟩, begins wide realToo _,
    begins high tallToo _⟩

theorem Gridded.wellLaid_iff
    : WellLaid uninitialised type width height
      ↔ width / cells % 2 = 0 ∧ height / cells % 2 = 0 := by
  constructor
  · intro wellLaid
    exact ⟨gridded.even_width wide high wellLaid, gridded.even_height wide high wellLaid⟩
  · rintro ⟨evenWidth, evenHeight⟩
    exact gridded.wellLaid evenWidth evenHeight

end Odd

theorem gridded
    : Gridded .mosaic3p4 4 ∧ Gridded .mosaic1p7 4 ∧ Gridded .mosaic1p5 3
      ∧ Gridded .mosaic2p8 4 := by
  refine ⟨?_, ?_, ?_, ?_⟩
  all_goals
    refine ⟨rfl, fun _ _ _ _ => rfl, ?_, by decide, by decide, by decide, by decide, by decide,
      by decide, by decide⟩
    intro pos known garbage
    simp only [getNumSlotsForType] at known
    interval_cases pos <;> rfl

theorem wellLaid_1p1 : WellLaid uninitialised .mosaic1p1 width height := by
  have offset : evenSize (width / 2) = width / 4 * 2 := by
    rw [evenSize]
    split_ifs <;> omega
  refine @WellLaid.of_units _ _ _ _ (fun pos => ⟨pos, 0, 1, 1⟩) 2 1 (width / 4 * 2) height ?_
    (by decide) (by decide) (by omega) (by omega)
  intro pos known
  change pos < 2 at known
  interval_cases pos
  · change (⟨0, 0, width / 4 * 2, height / 1 * 1⟩ : Rect) = _
    simp [Rect.scale]
  · change (⟨evenSize (width / 2) * 1, 0, width / 4 * 2, height / 1 * 1⟩ : Rect) = _
    simp [Rect.scale, offset]

end AsymmetricMosaic

/-! Pictures in the picture. -/

namespace PIPMosaic

theorem evenSize_size4mul (x : Nat) : evenSize (size4mul x) = size4mul x :=
  evenSize_of_even (by rw [size4mul]; omega)

/-- A small picture of either type. -/
theorem slotRect_small (count : Nat) (pips : type.isPip) (numbers : getNumSlotsForType type = count)
    {pos : Nat} (known : pos < count) (small : pos ≠ 0)
    : slotRect uninitialised type width height pos
      = { left := size4mul (width / 5) / 2
            + (size4mul (width / 5) / 2 + size4mul (width / 5)) * (pos - 1)
          top := size4mul (height - size4mul (height / 5) - size4mul (height / 5) / 2)
          width := if count = 2 then size4mul (width / 4) else size4mul (width / 5)
          height := if count = 2 then size4mul (height / 4) else size4mul (height / 5) } := by
  have rect : slotRect uninitialised type width height pos
      = { left := getLeft type width pos
          top := getTop type height pos
          width := getSize type width pos
          height := getSize type height pos } := by
    cases type <;> first | rfl | cases pips
  rw [rect, getLeft, getTop, getSize, getSize, numbers]
  simp only [if_neg (show ¬ count < pos + 1 by omega), if_neg small, evenSize_size4mul]

theorem slotRect_main (pips : type.isPip)
    : slotRect uninitialised type width height 0 = ⟨0, 0, width, height⟩ := by
  cases type <;> first | rfl | cases pips

theorem wellLaid_PIP1 (high : 64 ≤ height) : WellLaid uninitialised .mosaicPIP1 width height := by
  constructor
  · intro pos known
    change pos < 2 at known
    by_cases main : pos = 0
    · rw [main, slotRect_main rfl, Rect.Inside]
      dsimp only
      omega
    · obtain rfl : pos = 1 := by omega
      rw [slotRect_small 2 rfl rfl known main, if_pos rfl, if_pos rfl, Rect.Inside]
      simp only [size4mul]
      omega
  · intro one known other knownToo different small
    change one < 2 at known
    change other < 2 at knownToo
    have := small rfl
    omega

theorem wellLaid_PIP3 : WellLaid uninitialised .mosaicPIP3 width height := by
  constructor
  · intro pos known
    change pos < 4 at known
    by_cases main : pos = 0
    · rw [main, slotRect_main rfl, Rect.Inside]
      dsimp only
      omega
    · rw [slotRect_small 4 rfl rfl known main, if_neg (by decide), if_neg (by decide),
        Rect.Inside]
      simp only [size4mul]
      interval_cases pos <;> omega
  · intro one known other knownToo different small
    change one < 4 at known
    change other < 4 at knownToo
    have mains := small rfl
    refine Rect.Apart.disjoint (.inl ?_)
    rw [slotRect_small 4 rfl rfl known mains.1, slotRect_small 4 rfl rfl knownToo mains.2,
      if_neg (by decide)]
    dsimp only
    generalize size4mul (width / 5) = small
    interval_cases one <;> interval_cases other <;> omega

end PIPMosaic

/-- The fifth slot lies at the bottom of the first one. -/
theorem not_wellLaid_1p4 (wide : 64 ≤ width) (high : 64 ≤ height)
    : ¬ WellLaid uninitialised .mosaic1p4 width height := by
  intro wellLaid
  refine @WellLaid.clash _ _ _ _ wellLaid 0 4 (by decide) (by decide) (by decide) rfl
    ⟨0, 0, width / 4 * 3, height / 4 * 4⟩
    ⟨evenSize (width / 4) * 0, evenSize (height / 4) * 3, width / 4 * 1, height / 4 * 1⟩
    rfl rfl 0 (evenSize (height / 4) * 3) ?_
  have rounded := evenSize_le (height / 4)
  simp only [Rect.Covers]
  omega

/-- The canvas is divided in cells of even size, where the offsets are rounded and the sizes are
not. `mosaic1p4` has no such cells.
-/
def EvenCells (width height : Nat) : MosaicType → Prop
  | .mosaic3p4 | .mosaic1p7 | .mosaic2p8 => width / 4 % 2 = 0 ∧ height / 4 % 2 = 0
  | .mosaic1p5 => width / 3 % 2 = 0 ∧ height / 3 % 2 = 0
  | .mosaic1p4 => False
  | .mosaic1x1 | .mosaic2x2 | .mosaic3x3 | .mosaic4x4 | .mosaic1p1 | .mosaicPIP1
  | .mosaicPIP3 => True

/-- On every canvas of at least 64 by 64 the slots of a layout stay on the canvas and do not
overlap exactly when its cells have an even size.
-/
theorem slots_apart_iff (uninitialised : BYTE) (type : MosaicType) (wide : 64 ≤ width)
    (high : 64 ≤ height)
    : WellLaid uninitialised type width height ↔ EvenCells width height type := by
  cases type with
  | mosaic1x1 => exact iff_of_true regular_1x1.wellLaid trivial
  | mosaic2x2 => exact iff_of_true regular_2x2.wellLaid trivial
  | mosaic3x3 => exact iff_of_true regular_3x3.wellLaid trivial
  | mosaic4x4 => exact iff_of_true regular_4x4.wellLaid trivial
  | mosaic1p1 => exact iff_of_true wellLaid_1p1 trivial
  | mosaicPIP1 => exact iff_of_true (PIPMosaic.wellLaid_PIP1 high) trivial
  | mosaicPIP3 => exact iff_of_true PIPMosaic.wellLaid_PIP3 trivial
  | mosaic1p4 => exact iff_of_false (not_wellLaid_1p4 wide high) id
  | mosaic3p4 => exact gridded.1.wellLaid_iff (by omega) (by omega)
  | mosaic1p7 => exact gridded.2.1.wellLaid_iff (by omega) (by omega)
  | mosaic1p5 => exact gridded.2.2.1.wellLaid_iff (by omega) (by omega)
  | mosaic2p8 => exact gridded.2.2.2.wellLaid_iff (by omega) (by omega)

theorem slots_apart_hd : WellLaid 0 .mosaic1p7 1280 720 :=
  (slots_apart_iff 0 .mosaic1p7 (by decide) (by decide)).mpr
    ⟨by decide, by decide⟩

/-- The first and the fifth slot of `mosaic1p4` on a canvas of 1280 by 720, and the first two of
`mosaic1p5` on one of 400 by 240, have a pixel in common.
-/
theorem slots_overlap
    : (slotRect 0 .mosaic1p4 1280 720 0).Covers 0 600
      ∧ (slotRect 0 .mosaic1p4 1280 720 4).Covers 0 600
      ∧ (slotRect 0 .mosaic1p5 400 240 0).Covers 265 0
      ∧ (slotRect 0 .mosaic1p5 400 240 1).Covers 265 0 := by
  unfold Rect.Covers
  decide

end MediaServer

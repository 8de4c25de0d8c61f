import Mathlib.Algebra.Order.Ring.Int
import Mathlib.Tactic.Ring

/-! Where the picture of a participant lies in its slot: letterboxed inside of a border. -/

namespace MediaServer

/-- An `int` as a `DWORD`. -/
def toDWORD (x : Int) : Nat := (x % 2 ^ 32).toNat

/-- The ratio of a picture in thousandths, with the square pixels of CIF and SIF corrected. -/
def computeAspectRatio (imgWidth imgHeight : Nat) : Nat :=
  if imgHeight = 0 then 0
  else
    let tmpratio := 1000 * imgWidth % 2 ^ 32 / imgHeight
    match tmpratio / 10 with
    | 133 | 122 | 146 => 1333
    | 177 => 1777
    | _ => tmpratio

def slotBorder : Int := 2

def getSlotBorder (width height : Int) : Int :=
  if 4 * slotBorder < width ∧ 4 * slotBorder < height then slotBorder else 0

structure Placement where
  outW : Int
  outH : Int
  dx : Int
  dy : Int
  deriving DecidableEq

def evenOffset (rest : Int) : Int :=
  let diff := rest.tdiv 2
  if 0 < diff ∧ diff.tmod 2 ≠ 0 then diff - 1 else diff

/-- The useful slot with its border, and what `ComputeSlotPlacement` knows of the picture. -/
structure SlotPicture where
  border : Int
  slotW : Int
  slotH : Int
  stretchSlot : Bool
  keepAspect : Bool
  inW : Int
  inH : Int

namespace SlotPicture

variable (picture : SlotPicture)

def picRatio : Nat := computeAspectRatio (toDWORD picture.inW) (toDWORD picture.inH)

def slotRatio : Nat := toDWORD ((picture.slotW * 1000).tdiv picture.slotH)

def fill : Placement := ⟨picture.slotW, picture.slotH, picture.border, picture.border⟩

/-- Bars above and below. -/
def letterbox : Placement :=
  let outH : Int := (toDWORD (picture.slotW * 1000) / picture.picRatio : Nat)
  ⟨picture.slotW, outH, picture.border, picture.border + evenOffset (picture.slotH - outH)⟩

/-- Bars on the left and on the right. -/
def pillarbox : Placement :=
  let outW : Int := (toDWORD picture.slotH * picture.picRatio % 2 ^ 32 / 1000 : Nat)
  ⟨outW, picture.slotH, picture.border + evenOffset (picture.slotW - outW), picture.border⟩

def place : Placement :=
  if picture.inW ≤ 0 ∨ picture.inH ≤ 0 then picture.fill
  else if picture.stretchSlot then picture.fill
  else if picture.slotH ≤ 0 then picture.fill
  else if picture.picRatio / 100 = picture.slotRatio / 100 ∨ picture.keepAspect = false then
    picture.fill
  else if picture.slotRatio < picture.picRatio then picture.letterbox
  else picture.pillarbox

end SlotPicture

/-- What `ComputeSlotPlacement` works on for a slot of the given size. -/
def slotPicture (width height : Int) (stretchSlot keepAspect : Bool) (inW inH : Int)
    : SlotPicture :=
  let border := getSlotBorder width height
  { border
    slotW := width - 2 * border
    slotH := height - 2 * border
    stretchSlot
    keepAspect
    inW
    inH }

def computeSlotPlacement (width height : Int) (stretchSlot keepAspect : Bool) (inW inH : Int)
    : Placement :=
  (slotPicture width height stretchSlot keepAspect inW inH).place

/-! Inside the slot. -/

/-- The placement lies in the useful slot, at an even offset and about in the middle. -/
structure Placement.Fits (placement : Placement) (border slotW slotH : Int) : Prop where
  real : 1 ≤ placement.outW ∧ 1 ≤ placement.outH
  insideX : border ≤ placement.dx ∧ placement.dx + placement.outW ≤ border + slotW
  insideY : border ≤ placement.dy ∧ placement.dy + placement.outH ≤ border + slotH
  even : (placement.dx - border) % 2 = 0 ∧ (placement.dy - border) % 2 = 0
  centredX
    : |(border + slotW - (placement.dx + placement.outW)) - (placement.dx - border)| ≤ 3
  centredY
    : |(border + slotH - (placement.dy + placement.outH)) - (placement.dy - border)| ≤ 3

theorem evenOffset_spec {rest : Int} (nonneg : 0 ≤ rest)
    : 0 ≤ evenOffset rest ∧ evenOffset rest % 2 = 0
      ∧ 2 * evenOffset rest ≤ rest ∧ rest ≤ 2 * evenOffset rest + 3 := by
  have half : rest.tdiv 2 = rest / 2 := Int.tdiv_eq_ediv_of_nonneg nonneg
  have parity : (rest / 2).tmod 2 = rest / 2 % 2 := Int.tmod_eq_emod_of_nonneg (by omega)
  simp only [evenOffset, half, parity]
  split_ifs <;> omega

namespace SlotPicture

variable {picture : SlotPicture}

theorem fill_fits (wide : 0 < picture.slotW) (high : 0 < picture.slotH)
    : picture.fill.Fits picture.border picture.slotW picture.slotH := by
  constructor <;> simp only [fill] <;> grind

/-- The slot has a positive size whose thousandfold is an `int`. -/
structure Useful (picture : SlotPicture) : Prop where
  wide : 0 < picture.slotW
  high : 0 < picture.slotH
  tall : picture.slotH < 2 ^ 31
  fits : picture.slotW * 1000 < 2 ^ 31

section

variable (useful : picture.Useful)
include useful

theorem Useful.toDWORD_slotW : (toDWORD (picture.slotW * 1000) : Int) = picture.slotW * 1000 := by
  have wide := useful.wide
  have fits := useful.fits
  unfold toDWORD
  omega

theorem Useful.toDWORD_slotH : (toDWORD picture.slotH : Int) = picture.slotH := by
  have high := useful.high
  have tall := useful.tall
  unfold toDWORD
  omega

theorem Useful.slotRatio_eq : (picture.slotRatio : Int) = picture.slotW * 1000 / picture.slotH := by
  have wide := useful.wide
  have fits := useful.fits
  have high := useful.high
  have nonneg : 0 ≤ picture.slotW * 1000 / picture.slotH :=
    Int.ediv_nonneg (by omega) (by omega)
  have small : picture.slotW * 1000 / picture.slotH ≤ picture.slotW * 1000 :=
    Int.ediv_le_self _ (by omega)
  rw [slotRatio, toDWORD, Int.tdiv_eq_ediv_of_nonneg (by omega)]
  omega

theorem Useful.slotRatio_le : (picture.slotRatio : Int) ≤ picture.slotW * 1000 := by
  rw [useful.slotRatio_eq]
  have wide := useful.wide
  exact Int.ediv_le_self _ (by omega)

theorem Useful.lt_slotRatio_succ_mul
    : picture.slotW * 1000 < (picture.slotRatio + 1) * picture.slotH := by
  rw [useful.slotRatio_eq]
  exact Int.lt_ediv_add_one_mul_self _ useful.high

theorem Useful.slotRatio_mul_le : picture.slotRatio * picture.slotH ≤ picture.slotW * 1000 := by
  rw [useful.slotRatio_eq]
  exact Int.ediv_mul_le _ useful.high.ne'

/-- A wider picture keeps the width of the slot; its height is lost in the division when its
ratio passes the thousandfold of that width. -/
theorem letterbox_fits_iff (wider : picture.slotRatio < picture.picRatio)
    : picture.letterbox.Fits picture.border picture.slotW picture.slotH
      ↔ (picture.picRatio : Int) ≤ picture.slotW * 1000 := by
  have positive : (0 : Int) < picture.picRatio := by omega
  have wide := useful.wide
  have high := useful.high
  obtain ⟨outH, eqH⟩ : ∃ outH, outH = picture.slotW * 1000 / picture.picRatio := ⟨_, rfl⟩
  have least : 1 ≤ outH ↔ (picture.picRatio : Int) ≤ picture.slotW * 1000 := by
    rw [eqH, Int.le_ediv_iff_mul_le positive, one_mul]
  have nonneg : 0 ≤ outH := by
    rw [eqH]
    exact Int.ediv_nonneg (by omega) positive.le
  have lower : outH ≤ picture.slotH := by
    rw [eqH]
    apply Int.ediv_le_of_le_mul positive
    calc picture.slotW * 1000
        ≤ (picture.slotRatio + 1) * picture.slotH := useful.lt_slotRatio_succ_mul.le
      _ ≤ picture.picRatio * picture.slotH :=
          mul_le_mul_of_nonneg_right (by omega) high.le
      _ = picture.slotH * picture.picRatio := mul_comm _ _
  have value : picture.letterbox
      = ⟨picture.slotW, outH, picture.border,
          picture.border + evenOffset (picture.slotH - outH)⟩ := by
    simp only [letterbox, Int.natCast_ediv, useful.toDWORD_slotW, ← eqH]
  have offset := evenOffset_spec (sub_nonneg.mpr lower)
  rw [value, ← least]
  constructor
  · intro fit
    exact fit.real.2
  · intro one
    constructor <;> dsimp only <;> grind

/-- A narrower picture keeps the height of the slot; its width is lost in the division by
1000. -/
theorem pillarbox_fits_iff (narrower : picture.picRatio ≤ picture.slotRatio)
    : picture.pillarbox.Fits picture.border picture.slotW picture.slotH
      ↔ 1000 ≤ picture.slotH * picture.picRatio := by
  have wide := useful.wide
  have high := useful.high
  have bounded : picture.slotH * picture.picRatio ≤ picture.slotW * 1000 := calc
    picture.slotH * picture.picRatio
      ≤ picture.slotH * picture.slotRatio := mul_le_mul_of_nonneg_left (by omega) high.le
    _ = picture.slotRatio * picture.slotH := mul_comm _ _
    _ ≤ picture.slotW * 1000 := useful.slotRatio_mul_le
  have nonneg : 0 ≤ picture.slotH * picture.picRatio := mul_nonneg high.le (by omega)
  have fits := useful.fits
  obtain ⟨area, eqA⟩ : ∃ area, area = picture.slotH * picture.picRatio := ⟨_, rfl⟩
  have value : picture.pillarbox
      = ⟨area / 1000, picture.slotH,
          picture.border + evenOffset (picture.slotW - area / 1000), picture.border⟩ := by
    have unwrapped : area % ((2 ^ 32 : Nat) : Int) = area :=
      Int.emod_eq_of_lt (by omega) (by omega)
    simp only [pillarbox, Int.natCast_ediv, Int.natCast_emod, Nat.cast_mul,
      useful.toDWORD_slotH, ← eqA, unwrapped, Nat.cast_ofNat]
  have offset := evenOffset_spec (show 0 ≤ picture.slotW - area / 1000 by omega)
  rw [value, ← eqA]
  constructor
  · intro fit
    have := fit.real.1
    dsimp only at this
    omega
  · intro one
    constructor <;> dsimp only <;> grind

end

/-- The ratio of the picture is kept, and so far from the one of the slot that one of its
sides is rounded down to nothing. -/
def Vanishes (picture : SlotPicture) : Prop :=
  picture.stretchSlot = false ∧ picture.keepAspect = true
    ∧ picture.picRatio / 100 ≠ picture.slotRatio / 100
    ∧ (picture.slotW * 1000 < picture.picRatio ∨ picture.slotH * picture.picRatio < 1000)

instance : Decidable picture.Vanishes := by
  unfold Vanishes
  infer_instance

theorem place_fits_iff (useful : picture.Useful) (broad : 1 ≤ picture.inW) (long : 1 ≤ picture.inH)
    : picture.place.Fits picture.border picture.slotW picture.slotH ↔ ¬ picture.Vanishes := by
  have filled := picture.fill_fits useful.wide useful.high
  have high := useful.high
  have above := useful.slotRatio_le
  rw [place, if_neg (by omega)]
  by_cases stretched : picture.stretchSlot = true
  · rw [if_pos stretched]
    exact iff_of_true filled
      fun vanishes => Bool.false_ne_true (vanishes.1.symm.trans stretched)
  rw [if_neg stretched, if_neg (by omega)]
  by_cases alike : picture.picRatio / 100 = picture.slotRatio / 100 ∨ picture.keepAspect = false
  · rw [if_pos alike]
    refine iff_of_true filled fun ⟨_, keeps, unlike, _⟩ => ?_
    rcases alike with alike | loses
    · exact unlike alike
    · simp [loses] at keeps
  rw [if_neg alike]
  rw [not_or] at alike
  have vanishes_iff : picture.Vanishes
      ↔ picture.slotW * 1000 < picture.picRatio ∨ picture.slotH * picture.picRatio < 1000 := by
    simp [Vanishes, stretched, alike]
  rw [vanishes_iff, not_or, not_lt, not_lt]
  -- only one of the two sides can be lost
  by_cases wider : picture.slotRatio < picture.picRatio
  · rw [if_pos wider, letterbox_fits_iff useful wider]
    refine ⟨fun enough => ⟨enough, ?_⟩, And.left⟩
    have beyond := useful.lt_slotRatio_succ_mul
    have more : (picture.slotRatio + 1) * picture.slotH ≤ picture.slotH * picture.picRatio := by
      rw [mul_comm]
      exact mul_le_mul_of_nonneg_left (by omega) high.le
    have wide := useful.wide
    omega
  · rw [if_neg wider, pillarbox_fits_iff useful (by omega)]
    exact ⟨fun enough => ⟨by omega, enough⟩, And.right⟩

end SlotPicture

/-- A picture of any size is placed inside of its slot, unless it keeps a ratio for which
one of its sides rounds to zero. -/
theorem picture_inside_slot_iff (width height inW inH : Int) (stretchSlot keepAspect : Bool)
    (wide : 0 < width - 2 * getSlotBorder width height)
    (high : 0 < height - 2 * getSlotBorder width height)
    (fits : width * 1000 < 2 ^ 31 ∧ height < 2 ^ 31)
    (broad : 1 ≤ inW ∧ inW ≤ 16384) (long : 1 ≤ inH ∧ inH ≤ 16384)
    : (computeSlotPlacement width height stretchSlot keepAspect inW inH).Fits
        (getSlotBorder width height)
        (width - 2 * getSlotBorder width height)
        (height - 2 * getSlotBorder width height)
      ↔ ¬ (slotPicture width height stretchSlot keepAspect inW inH).Vanishes := by
  have border : 0 ≤ getSlotBorder width height := by
    unfold getSlotBorder slotBorder
    split_ifs <;> omega
  have useful : (slotPicture width height stretchSlot keepAspect inW inH).Useful :=
    ⟨wide, high, by dsimp only [slotPicture]; omega, by dsimp only [slotPicture]; omega⟩
  exact SlotPicture.place_fits_iff useful broad.1 long.1

theorem picture_inside_slot_vga
    : (computeSlotPlacement 640 360 false true 640 480).Fits 2 636 356 :=
  (picture_inside_slot_iff 640 360 640 480 false true (by decide) (by decide) (by decide)
    (by decide) (by decide)).mpr (by decide)

/-- A banner of one line, in the slot of a whole HD canvas, gets no line at all. -/
theorem picture_vanishes
    : computeSlotPlacement 1280 720 false true 1920 1 = ⟨1276, 0, 2, 360⟩
      ∧ ¬ (computeSlotPlacement 1280 720 false true 1920 1).Fits 2 1276 716 := by
  have placed : computeSlotPlacement 1280 720 false true 1920 1 = ⟨1276, 0, 2, 360⟩ := by
    decide
  refine ⟨placed, fun fit => ?_⟩
  rw [placed] at fit
  exact absurd fit.real.2 (by decide)

end MediaServer

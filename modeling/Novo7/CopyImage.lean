import Novo7.RowCopy

/-!
# Pictures on the screen

`CopyImage` centres a picture in the upper half of the screen: in each direction it either leaves a
margin around the picture or cuts the picture, and copies what is left line by line.
`copyImage_window` says which pixels change, and to what.
-/

namespace Novo7

open RowCopy

/-! ## The program -/

/-- `struct BatteryChargeImg`, without the buffer. -/
structure BatteryChargeImg where
  width : Int
  height : Int

/-- `struct MultiLayerPara`, without the buffer; the width is `unsigned`. -/
structure MultiLayerPara where
  width : Int
  height : Int

/-- `De_GetPictBuf`, from the width and the height of the layer. -/
def deGetPictBuf (layerWidth layerHeight : Int) : MultiLayerPara where
  width := layerWidth % 2 ^ 32
  height := layerHeight.tdiv 2

/-- Where the window is, in one direction, and how long it is. -/
structure Window where
  firstImg : Int
  firstScreen : Int
  count : Int

/-- The lines, with the comparison of two `int`s. -/
def lineWindow (img : BatteryChargeImg) (mlp : MultiLayerPara) : Window :=
  if img.height ≤ mlp.height then ⟨0, (mlp.height - img.height).tdiv 2, img.height⟩
  else ⟨(img.height - mlp.height).tdiv 2, 0, mlp.height⟩

/-- The columns, where the width of the picture is compared as an `unsigned`. -/
def colWindow (img : BatteryChargeImg) (mlp : MultiLayerPara) : Window :=
  let width := img.width % 2 ^ 32
  if width ≤ mlp.width then ⟨0, (mlp.width - width) / 2, width⟩
  else ⟨(width - mlp.width) / 2, 0, mlp.width⟩

/-- The `memcpy` of a round. The offset in the frame buffer is `unsigned`, the one in the picture is
an `int`. -/
def copyLine (img : BatteryChargeImg) (mlp : MultiLayerPara) (i : Nat) : Copy where
  dst := ((i + (lineWindow img mlp).firstScreen) * mlp.width +
    (colWindow img mlp).firstScreen) * 4 % 2 ^ 32
  src := (((i + (lineWindow img mlp).firstImg) * img.width + (colWindow img mlp).firstImg) * 4).bmod
    (2 ^ 32)
  len := (colWindow img mlp).count * 4 % 2 ^ 32

/-- The copies that `CopyImage` makes, in their order. -/
def copyImageCopies (img : BatteryChargeImg) (mlp : MultiLayerPara) : List Copy :=
  (List.range (lineWindow img mlp).count.toNat).map (copyLine img mlp)

/-- The frame buffer after `CopyImage`. -/
def copyImage (img : BatteryChargeImg) (mlp : MultiLayerPara) (imgdata dispbuf : Int → UInt8) :
    Int → UInt8 :=
  copyRows (copyLine img mlp) imgdata dispbuf (lineWindow img mlp).count.toNat

/-! ## The window -/

/-- The margin on the one side when something of length `a` is centred in `b`. -/
def margin (a b : Int) : Int := (b - min a b) / 2

/-- A pixel of the picture half is in the window. -/
def InWindow (img : BatteryChargeImg) (mlp : MultiLayerPara) (x y : Int) : Prop :=
  (margin img.width mlp.width ≤ x ∧ x < margin img.width mlp.width + min img.width mlp.width) ∧
    margin img.height mlp.height ≤ y ∧
      y < margin img.height mlp.height + min img.height mlp.height

/-- The byte of a pixel. -/
def pixelByte (width x y b : Int) : Int := (y * width + x) * 4 + b

/-- A window of the smaller length is inside on both sides. -/
theorem margin_bound (a b : Int) : 0 ≤ margin a b ∧ margin a b + min a b ≤ b := by
  have hle := Int.min_le_right a b
  unfold margin
  omega

section Window

variable {img : BatteryChargeImg} {mlp : MultiLayerPara}

theorem lineWindow_eq : lineWindow img mlp =
    ⟨margin mlp.height img.height, margin img.height mlp.height, min img.height mlp.height⟩ := by
  unfold lineWindow margin
  split
  · rename_i hle
    rw [Int.min_eq_left hle, Int.min_eq_right hle, Int.sub_self,
      Int.tdiv_eq_ediv_of_nonneg (by omega)]
    rfl
  · rename_i hle
    have hge : mlp.height ≤ img.height := by omega
    rw [Int.min_eq_right hge, Int.min_eq_left hge, Int.sub_self,
      Int.tdiv_eq_ediv_of_nonneg (by omega)]
    rfl

theorem colWindow_eq (himg : 0 ≤ img.width ∧ img.width < 2 ^ 32) : colWindow img mlp =
    ⟨margin mlp.width img.width, margin img.width mlp.width, min img.width mlp.width⟩ := by
  unfold colWindow margin
  dsimp only
  rw [Int.emod_eq_of_lt himg.1 himg.2]
  split
  · rename_i hle
    rw [Int.min_eq_left hle, Int.min_eq_right hle, Int.sub_self]
    rfl
  · rename_i hle
    have hge : mlp.width ≤ img.width := by omega
    rw [Int.min_eq_right hge, Int.min_eq_left hge, Int.sub_self]
    rfl

/-- A line of the window, in a grid with room for it. -/
theorem line_bound {w h a b i count n : Int} (hw : 0 ≤ w) (ha : 0 ≤ a) (hb : 0 ≤ b) (hi : 0 ≤ i)
    (hline : i + a < h) (hcol : b + count ≤ w) (hn : 4 * (w * h) ≤ n) :
    0 ≤ ((i + a) * w + b) * 4 ∧ ((i + a) * w + b) * 4 + count * 4 ≤ n := by
  have hlow := Int.mul_nonneg (show 0 ≤ i + a by omega) hw
  have hhigh := Int.mul_le_mul_of_nonneg_right (show i + a + 1 ≤ h by omega) hw
  rw [Int.add_mul, Int.one_mul, Int.mul_comm h w] at hhigh
  omega

end Window

/-! ## The screen -/

/-- What a picture and a screen are promised to be. -/
structure PictureFits (img : BatteryChargeImg) (layerWidth layerHeight : Int) : Prop where
  imgWidth : 0 ≤ img.width
  imgHeight : 0 ≤ img.height
  screenWidth : 0 ≤ layerWidth
  screenHeight : 0 ≤ layerHeight
  image : 4 * (img.width * img.height) < 2 ^ 31
  screen : 4 * (layerWidth * layerHeight) < 2 ^ 31

section Screen

variable {img : BatteryChargeImg} {layerWidth layerHeight : Int}

/-- The copy of a line of the window, with all its bounds. -/
structure IsLine (img : BatteryChargeImg) (layerWidth layerHeight : Int) (r : Nat) : Prop where
  picture : deGetPictBuf layerWidth layerHeight = ⟨layerWidth, layerHeight / 2⟩
  eq : copyLine img ⟨layerWidth, layerHeight / 2⟩ r =
    ⟨((r + margin img.height (layerHeight / 2)) * layerWidth + margin img.width layerWidth) * 4,
      ((r + margin (layerHeight / 2) img.height) * img.width + margin layerWidth img.width) * 4,
      min img.width layerWidth * 4⟩
  inside : (copyLine img ⟨layerWidth, layerHeight / 2⟩ r).Inside (4 * (img.width * img.height))
    (4 * (layerWidth * (layerHeight / 2)))

/-- A length is no longer than an area that is not empty. -/
theorem le_area {w h : Int} (hw : 0 ≤ w) (hh : 1 ≤ h) : w ≤ w * h := by
  have := Int.mul_le_mul_of_nonneg_left hh hw
  omega

theorem PictureFits.line (hfit : PictureFits img layerWidth layerHeight) {r : Nat}
    (hr : (r : Int) < min img.height (layerHeight / 2)) : IsLine img layerWidth layerHeight r := by
  obtain ⟨hw, hh, hW, hH, himage, hscreen⟩ := hfit
  have hh1 : 1 ≤ img.height := by omega
  have hH1 : 1 ≤ layerHeight := by omega
  have hwlt := le_area hw hh1
  have hWlt := le_area hW hH1
  have hhalf : 4 * (layerWidth * (layerHeight / 2)) < 2 ^ 31 := by
    have := Int.mul_le_mul_of_nonneg_left (show layerHeight / 2 ≤ layerHeight by omega) hW
    omega
  have hcols := margin_bound img.width layerWidth
  have hcols' := margin_bound layerWidth img.width
  have hlines := margin_bound img.height (layerHeight / 2)
  have hlines' := margin_bound (layerHeight / 2) img.height
  rw [Int.min_comm] at hcols' hlines'
  have hmin : 0 ≤ min img.width layerWidth := by omega
  have hdst := line_bound (i := r) hW hlines.1 hcols.1 (Int.natCast_nonneg r)
    (show r + margin img.height (layerHeight / 2) < layerHeight / 2 by omega) hcols.2 (Int.le_refl _)
  have hsrc := line_bound (i := r) hw hlines'.1 hcols'.1 (Int.natCast_nonneg r)
    (show r + margin (layerHeight / 2) img.height < img.height by omega) hcols'.2 (Int.le_refl _)
  have hpicture : deGetPictBuf layerWidth layerHeight = ⟨layerWidth, layerHeight / 2⟩ := by
    unfold deGetPictBuf
    rw [Int.emod_eq_of_lt hW (by omega), Int.tdiv_eq_ediv_of_nonneg hH]
  have heq : copyLine img ⟨layerWidth, layerHeight / 2⟩ r =
      ⟨((r + margin img.height (layerHeight / 2)) * layerWidth + margin img.width layerWidth) * 4,
        ((r + margin (layerHeight / 2) img.height) * img.width + margin layerWidth img.width) * 4,
        min img.width layerWidth * 4⟩ := by
    unfold copyLine
    rw [lineWindow_eq, colWindow_eq ⟨hw, by omega⟩]
    dsimp only
    rw [Int.emod_eq_of_lt hdst.1 (by omega), Int.emod_eq_of_lt (by omega) (by omega),
      Int.bmod_eq_of_le (by omega) (by omega)]
  refine ⟨hpicture, heq, .inr ?_⟩
  rw [heq]
  exact ⟨hsrc, hdst⟩

/-- The bytes that the copy of a line writes. -/
theorem IsLine.covers_iff {r : Nat} (h : IsLine img layerWidth layerHeight r) {x y b : Int}
    (hx : 0 ≤ x ∧ x < layerWidth) (hb : 0 ≤ b ∧ b < 4) :
    (copyLine img ⟨layerWidth, layerHeight / 2⟩ r).Covers (pixelByte layerWidth x y b) ↔
      y = r + margin img.height (layerHeight / 2) ∧ margin img.width layerWidth ≤ x ∧
        x < margin img.width layerWidth + min img.width layerWidth := by
  have hcols := margin_bound img.width layerWidth
  rw [h.eq]
  unfold Copy.Covers pixelByte
  dsimp only
  constructor
  · rintro ⟨hlow, hhigh⟩
    obtain ⟨rfl, -⟩ := row_unique (w := layerWidth) (a := y) (x := x)
      (b := r + margin img.height (layerHeight / 2))
      (y := y * layerWidth + x - (r + margin img.height (layerHeight / 2)) * layerWidth) hx
      ⟨by omega, by omega⟩ (by omega)
    exact ⟨rfl, by omega, by omega⟩
  · rintro ⟨rfl, hlow, hhigh⟩
    exact ⟨by omega, by omega⟩

end Screen

/-- For every picture and every screen with sizes that are not negative and fit in 31 bits: all
reads are in the picture and all writes in the upper half of the frame buffer, the pixels of the
window are those of the picture, both centred, and nothing else changes. -/
theorem copyImage_window (img : BatteryChargeImg) (layerWidth layerHeight : Int)
    (hfit : PictureFits img layerWidth layerHeight) (imgdata dispbuf : Int → UInt8) :
    (∀ c ∈ copyImageCopies img (deGetPictBuf layerWidth layerHeight),
      c.Inside (4 * (img.width * img.height)) (4 * (layerWidth * (layerHeight / 2)))) ∧
    (∀ x y b, InWindow img ⟨layerWidth, layerHeight / 2⟩ x y → 0 ≤ b → b < 4 →
      copyImage img (deGetPictBuf layerWidth layerHeight) imgdata dispbuf
          (pixelByte layerWidth x y b) =
        imgdata (pixelByte img.width
          (x - margin img.width layerWidth + margin layerWidth img.width)
          (y - margin img.height (layerHeight / 2) + margin (layerHeight / 2) img.height) b)) ∧
    ∀ k, (∀ x y b, InWindow img ⟨layerWidth, layerHeight / 2⟩ x y → 0 ≤ b → b < 4 →
        k ≠ pixelByte layerWidth x y b) →
      copyImage img (deGetPictBuf layerWidth layerHeight) imgdata dispbuf k = dispbuf k := by
  have hcount : (lineWindow img (deGetPictBuf layerWidth layerHeight)).count =
      min img.height (layerHeight / 2) := by
    rw [lineWindow_eq]
    show min img.height (layerHeight.tdiv 2) = _
    rw [Int.tdiv_eq_ediv_of_nonneg hfit.screenHeight]
  have hlines := margin_bound img.height (layerHeight / 2)
  unfold copyImageCopies copyImage
  rw [hcount]
  rcases lt_or_ge 0 (min img.height (layerHeight / 2)) with hpos | hnone
  · have hline (r : Nat) (hr : r < (min img.height (layerHeight / 2)).toNat) :
        IsLine img layerWidth layerHeight r := hfit.line (by omega)
    rw [(hline 0 (by omega)).picture]
    refine ⟨fun c hc => ?_, fun x y b hwin h0 h4 => ?_, fun k hk => ?_⟩
    · obtain ⟨r, hr, rfl⟩ := List.mem_map.mp hc
      exact (hline r (List.mem_range.mp hr)).inside
    · obtain ⟨⟨hx0, hx1⟩, hy0, hy1⟩ := hwin
      dsimp only at hx0 hx1 hy0 hy1
      have hcols := margin_bound img.width layerWidth
      have hxin : 0 ≤ x ∧ x < layerWidth := by omega
      obtain ⟨r, hr⟩ := Int.eq_ofNat_of_zero_le
        (show 0 ≤ y - margin img.height (layerHeight / 2) by omega)
      have hrlt : r < (min img.height (layerHeight / 2)).toNat := by omega
      have hcovers := ((hline r hrlt).covers_iff hxin ⟨h0, h4⟩).mpr
        ⟨show y = r + margin img.height (layerHeight / 2) by omega, hx0, hx1⟩
      rw [copyRows_hit hcovers hrlt fun r' hgt hr' hother => ?_]
      · rw [(hline r hrlt).eq]
        unfold pixelByte
        dsimp only
        rw [show y = r + margin img.height (layerHeight / 2) by omega, Int.add_sub_cancel]
        congr 1
        omega
      · have := (((hline r' hr').covers_iff hxin ⟨h0, h4⟩).mp hother).1
        omega
    · refine copyRows_miss fun r hr hcovers => ?_
      rw [(hline r hr).eq] at hcovers
      obtain ⟨hlow, hhigh⟩ := hcovers
      dsimp only at hlow hhigh
      refine hk (k / 4 - (r + margin img.height (layerHeight / 2)) * layerWidth)
        (r + margin img.height (layerHeight / 2)) (k % 4) ⟨⟨?_, ?_⟩, ?_, ?_⟩ (by omega) (by omega) ?_
      · dsimp only
        omega
      · dsimp only
        omega
      · dsimp only
        omega
      · dsimp only
        omega
      · unfold pixelByte
        omega
  · have hzero : (min img.height (layerHeight / 2)).toNat = 0 := by omega
    rw [hzero]
    refine ⟨fun c hc => (List.not_mem_nil hc).elim, fun x y b hwin => ?_, fun k _ => rfl⟩
    have h0 := hwin.2.1
    have h1 := hwin.2.2
    dsimp only at h0 h1
    omega

/-- A picture of 3 by 5 pixels on a screen of 2 by 6: cut on the sides, and cut above and below. -/
theorem copyImage_window_cut :
    copyImage ⟨3, 5⟩ (deGetPictBuf 2 6) (fun k => UInt8.ofNat k.toNat) (fun _ => 0)
      (pixelByte 2 1 1 0) = 28 :=
  (copyImage_window ⟨3, 5⟩ 2 6 ⟨by decide, by decide, by decide, by decide, by decide, by decide⟩
    (fun k => UInt8.ofNat k.toNat) fun _ => 0).2.1 1 1 0 (by unfold InWindow margin; decide)
    (by decide) (by decide)

end Novo7

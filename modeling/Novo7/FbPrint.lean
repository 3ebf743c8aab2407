import Mathlib.Algebra.Order.Ring.Int
import Mathlib.Tactic.Positivity
import Mathlib.Tactic.Ring
import Novo7.BootScript
import Novo7.Bytes

/-!
# Text on the screen

`fbprint_line` draws magnified text into the upper half of the image data, `fbprint_cons` scrolls
the lower half and draws into its last row. Neither has a limit of its own besides the row that it
starts in, and a row from the bottom is taken in the wrong direction. `fbprint_safe_iff` says which
lines and which consoles stay on their half of the screen. Offsets are integers: the code takes them
in `int`, where an overflow has no meaning.
-/

namespace Novo7

/-! ## The halves of the screen -/

/-- `struct LayerPara`, as far as it is used: `imgdata` is an address. -/
structure LayerPara where
  width : Nat
  height : Nat
  imgdata : Nat

/-- `struct MultiLayerPara`, with its buffer. -/
structure FbLayerPara where
  dispbuf : Nat
  width : Nat
  height : Nat

/-- `De_GetPictBuf` -/
def deGetPictFb (gLayerPara : LayerPara) : FbLayerPara where
  width := gLayerPara.width
  height := gLayerPara.height / 2
  dispbuf := gLayerPara.imgdata

/-- `De_GetConsoleBuf` -/
def deGetConsoleFb (gLayerPara : LayerPara) : FbLayerPara where
  width := gLayerPara.width
  height := gLayerPara.height / 2
  dispbuf := gLayerPara.imgdata + gLayerPara.width * gLayerPara.height * 2

/-! ## Stores -/

/-- `memcpy` from a place on the screen or from `bytes`, and `memset`. -/
inductive FbStore where
  | move (dst src len : Int)
  | put (dst : Int) (bytes : List UInt8)
  | fill (dst : Int) (c : UInt8) (len : Int)

def FbStore.dst : FbStore → Int
  | move dst _ _ | put dst _ | fill dst _ _ => dst

def FbStore.len : FbStore → Int
  | move _ _ len | fill _ _ len => len
  | put _ bytes => bytes.length

/-- The byte at an address is written. -/
def FbStore.Writes (e : FbStore) (a : Int) : Prop := e.dst ≤ a ∧ a < e.dst + e.len

/-- Every byte that is written is one of the buffer. -/
def WritesIn (mlp : FbLayerPara) (es : List FbStore) : Prop :=
  ∀ e ∈ es, ∀ a, e.Writes a →
    (mlp.dispbuf : Int) ≤ a ∧ a < mlp.dispbuf + (mlp.width * mlp.height : Int) * 4

/-! ## fbprint_line -/

structure ColorPair where
  fg : BitVec 32
  bg : BitVec 32

def bytesPerPixel : Int := 4

def pixelBytes (color : BitVec 32) : List UInt8 := Bytes.leBytes 4 color.toNat

/-- Rows of 16 lines; a negative one should be counted from the bottom. -/
def lineRow (height : Nat) (row : Int) : Int :=
  if row < 0 then
    let row := (height : Int) / 16 - row
    if row < 0 then 0 else row
  else if row > (height : Int) / 16 then (height : Int) / 16 else row

/-- The pixel of a character cell that is drawn, in pixels from the beginning of the picture. -/
def linePixel (width : Nat) (row col size pos y my x mx : Int) : Int :=
  (16 * row + y * size + my) * width + 8 * col + (8 * pos + x) * size + mx

section Font

variable (fontdata_8x16 : Nat → UInt8)

/-- `fontdata_8x16[16 * c + y] & 0x80 >> x` -/
def fontBit (c : UInt8) (y x : Nat) : Bool :=
  fontdata_8x16 (16 * c.toNat + y) &&& (0x80 >>> x.toUInt8) != 0

def fbprintLine (gLayerPara : LayerPara) (row col : Int) (colors : ColorPair) (size : Int)
    (line : List UInt8) : List FbStore :=
  let mlp := deGetPictFb gLayerPara
  let row := lineRow mlp.height row
  (cstr line).zipIdx.flatMap fun ((c, pos) : UInt8 × Nat) =>
    (List.range 16).flatMap fun (y : Nat) =>
      (List.range size.toNat).flatMap fun (my : Nat) =>
        (List.range 8).flatMap fun (x : Nat) =>
          (List.range size.toNat).map fun (mx : Nat) =>
            let bn := linePixel mlp.width row col size pos y my x mx * bytesPerPixel
            .put (mlp.dispbuf + bn)
              (pixelBytes (if fontBit fontdata_8x16 c y x then colors.fg else colors.bg))

/-! ## fbprint_cons -/

/-- What `fbprint_cons` does at a character: a new row, a cell, or both. -/
inductive ConsStep where
  | scroll
  | cell (chars : Nat) (c : UInt8)

/-- The characters with the place in the row that they come to. -/
def consSteps (charWidth : Nat) : Nat → List UInt8 → List ConsStep
  | _, [] => []
  | chars, c :: buf =>
      let scrolled : List ConsStep := if chars = charWidth then [.scroll] else []
      let chars := if chars = charWidth then 0 else chars
      scrolled ++
        if c = 10 then consSteps charWidth charWidth buf
        else .cell chars c :: consSteps charWidth (chars + 1) buf

def ConsStep.stores (mlp : FbLayerPara) : ConsStep → List FbStore
  | scroll =>
      [.move mlp.dispbuf (mlp.dispbuf + 16 * mlp.width * bytesPerPixel)
          ((mlp.height - 16) * mlp.width * bytesPerPixel),
        .fill (mlp.dispbuf + (mlp.height - 16) * mlp.width * bytesPerPixel) 0
          (16 * mlp.width * bytesPerPixel)]
  | cell chars c =>
      (List.range 16).flatMap fun (y : Nat) =>
        (List.range 8).flatMap fun (x : Nat) =>
          (List.range bytesPerPixel.toNat).map fun (d : Nat) =>
            .put (mlp.dispbuf +
                ((((mlp.height - 16 + y) * mlp.width + 8 * chars + x) * bytesPerPixel + d : Int)))
              [if fontBit fontdata_8x16 c y x then 0xff else 0]

/-- The steps of a call: none where there is no buffer. -/
def fbprintCons (gLayerPara : LayerPara) (buf : List UInt8) : List ConsStep :=
  let mlp := deGetConsoleFb gLayerPara
  if mlp.dispbuf = 0 then []
  else
    let charWidth := mlp.width / 8
    consSteps charWidth charWidth buf

/-- The stores of a step that draws a character lie in 16 lines and 8 columns of the buffer. -/
def ConsStep.InTextRow (mlp : FbLayerPara) : ConsStep → Prop
  | scroll => True
  | cell chars c => ∃ top left : Nat, top + 16 ≤ mlp.height ∧ left + 8 ≤ mlp.width ∧
      ∀ e ∈ (cell chars c).stores fontdata_8x16 mlp, ∀ a, e.Writes a →
        ∃ y < 16, ∃ x < 8, ∃ d < 4,
          a = mlp.dispbuf + ((top + y) * mlp.width + left + x) * 4 + d

end Font

/-! ## Lines -/

/-- A pixel is stored inside the buffer when its number is one of the buffer. -/
theorem pixel_in_iff (base : Int) (color : BitVec 32) (k n : Int) :
    (∀ a, (FbStore.put (base + k * bytesPerPixel) (pixelBytes color)).Writes a →
        base ≤ a ∧ a < base + n * 4) ↔
      0 ≤ k ∧ k < n := by
  have hlen : (FbStore.put (base + k * bytesPerPixel) (pixelBytes color)).len = 4 := rfl
  have hdst : (FbStore.put (base + k * bytesPerPixel) (pixelBytes color)).dst = base + k * 4 := rfl
  simp only [FbStore.Writes, hlen, hdst]
  constructor
  · intro h
    have hfirst := h (base + k * 4) ⟨le_refl _, by omega⟩
    omega
  · rintro ⟨h0, hn⟩ a ⟨hlo, hhi⟩
    omega

variable {fontdata_8x16 : Nat → UInt8} {gLayerPara : LayerPara} {colors : ColorPair}

/-- The stores of a line stay inside when its pixels do. -/
theorem writesIn_line_iff {row col size : Int} {line : List UInt8} :
    WritesIn (deGetPictFb gLayerPara)
        (fbprintLine fontdata_8x16 gLayerPara row col colors size line) ↔
      ∀ pos : Nat, pos < (cstr line).length → ∀ y : Nat, y < 16 → ∀ my : Nat, my < size.toNat →
      ∀ x : Nat, x < 8 → ∀ mx : Nat, mx < size.toNat →
        let row := lineRow (gLayerPara.height / 2) row
        0 ≤ linePixel gLayerPara.width row col size pos y my x mx ∧
          linePixel gLayerPara.width row col size pos y my x mx <
            gLayerPara.width * (gLayerPara.height / 2 : Nat) := by
  simp only [WritesIn, fbprintLine, List.mem_flatMap, List.mem_map, List.mem_range]
  constructor
  · intro h pos hpos y hy my hmy x hx mx hmx
    have hmem : ((cstr line)[pos], pos) ∈ (cstr line).zipIdx :=
      List.mem_zipIdx_iff_getElem?.mpr (List.getElem?_eq_getElem hpos)
    exact (pixel_in_iff _ _ _ _).mp
      (h _ ⟨_, hmem, y, hy, my, hmy, x, hx, mx, hmx, rfl⟩)
  · rintro h e ⟨⟨c, pos⟩, hmem, y, hy, my, hmy, x, hx, mx, hmx, rfl⟩
    have hpos : pos < (cstr line).length :=
      (List.getElem?_eq_some_iff.mp (List.mem_zipIdx_iff_getElem?.mp hmem)).1
    exact (pixel_in_iff _ _ _ _).mpr (h pos hpos y hy my hmy x hx mx hmx)

/-- A row inside the buffer is kept, every other one has its last line below it. -/
theorem lineRow_cases (height : Nat) (row : Int) :
    (0 ≤ row ∧ row < (height : Int) / 16 ∧ lineRow height row = row) ∨
      (¬ (0 ≤ row ∧ row < (height : Int) / 16) ∧ (height : Int) / 16 ≤ lineRow height row) := by
  rw [lineRow]
  by_cases hneg : row < 0
  · rw [if_pos hneg]
    refine Or.inr ⟨by omega, ?_⟩
    dsimp only
    rw [if_neg (by omega)]
    omega
  · rw [if_neg hneg]
    by_cases hrow : row < (height : Int) / 16
    · exact Or.inl ⟨by omega, hrow, if_neg (by omega)⟩
    · refine Or.inr ⟨by omega, ?_⟩
      split <;> omega

section Pixels

variable {width len : Nat} {row col size pos y my x mx : Int}

/-- A cell ends before the next one begins, in either direction. -/
theorem cell_lt {size n i m : Int} (hm : m < size) (hm0 : 0 ≤ m) (hi : i < n) :
    i * size + m < n * size := by
  have := Int.mul_le_mul_of_nonneg_right (show i + 1 ≤ n by omega) (by omega : 0 ≤ size)
  rw [Int.add_mul, Int.one_mul] at this
  omega

/-- No pixel lies behind the last line of the last cell. -/
theorem linePixel_le (hy : 0 ≤ y ∧ y < 16) (hmy : 0 ≤ my ∧ my < size) (hx : x < 8)
    (hmx : 0 ≤ mx ∧ mx < size) (hpos : pos < len) :
    linePixel width row col size pos y my x mx <
      (16 * row + 16 * size - 1) * width + 8 * col + 8 * len * size := by
  have hlines : y * size + my < 16 * size := cell_lt hmy.2 hmy.1 hy.2
  have hcols : (8 * pos + x) * size + mx < 8 * len * size := cell_lt hmx.2 hmx.1 (by omega)
  have hrows := Int.mul_le_mul_of_nonneg_right
    (show 16 * row + y * size + my ≤ 16 * row + 16 * size - 1 by omega) (Int.natCast_nonneg width)
  rw [linePixel]
  omega

theorem linePixel_nonneg (hrow : 0 ≤ row) (hcol : 0 ≤ col) (hsize : 0 ≤ size) (hpos : 0 ≤ pos)
    (hy : 0 ≤ y) (hmy : 0 ≤ my) (hx : 0 ≤ x) (hmx : 0 ≤ mx) :
    0 ≤ linePixel width row col size pos y my x mx := by
  rw [linePixel]
  positivity

/-- The last pixel that is drawn. -/
theorem linePixel_last :
    linePixel width row col size (len - 1) 15 (size - 1) 7 (size - 1) =
      (16 * row + 16 * size - 1) * width + 8 * col + 8 * len * size - 1 := by
  rw [linePixel]
  ring

end Pixels

/-- A line stays on the picture when nothing is drawn, or it is drawn from a row of the picture and
its last pixel belongs to the picture. -/
theorem line_safe_iff {row size : Int} {col : Nat} {line : List UInt8} :
    WritesIn (deGetPictFb gLayerPara)
        (fbprintLine fontdata_8x16 gLayerPara row col colors size line) ↔
      cstr line = [] ∨ size ≤ 0 ∨
        0 ≤ row ∧ (16 * row + 16 * size - 1) * gLayerPara.width + 8 * col +
            8 * (cstr line).length * size ≤ gLayerPara.width * (gLayerPara.height / 2 : Nat) := by
  rw [writesIn_line_iff]
  generalize hheight : gLayerPara.height / 2 = height
  generalize hwidth : gLayerPara.width = width
  by_cases hline : cstr line = []
  · simp [hline]
  by_cases hsize : size ≤ 0
  · have hnone : size.toNat = 0 := Int.toNat_of_nonpos hsize
    simp [hnone, hsize]
  have hlen : 0 < (cstr line).length := List.length_pos_of_ne_nil hline
  simp only [hline, hsize, false_or]
  constructor
  · intro h
    have hlast := (h ((cstr line).length - 1) (by omega) 15 (by omega) (size.toNat - 1) (by omega) 7
      (by omega) (size.toNat - 1) (by omega)).2
    rw [show (((cstr line).length - 1 : Nat) : Int) = (cstr line).length - 1 by omega,
      show ((size.toNat - 1 : Nat) : Int) = size - 1 by omega] at hlast
    rw [Nat.cast_ofNat, Nat.cast_ofNat, linePixel_last] at hlast
    have hcells : 0 < 8 * ((cstr line).length : Int) * size := by
      have : 0 < size := by omega
      positivity
    rcases lineRow_cases height row with ⟨h0, -, hrow⟩ | ⟨-, hrow⟩
    · rw [hrow] at hlast
      exact ⟨h0, by omega⟩
    · -- the last line of the row is the first one behind the picture, or a later one
      exfalso
      have hlines := Int.mul_le_mul_of_nonneg_right
        (show (height : Int) ≤ 16 * lineRow height row + 16 * size - 1 by omega)
        (Int.natCast_nonneg width)
      rw [Int.mul_comm (height : Int)] at hlines
      omega
  · rintro ⟨h0, hin⟩ pos hpos y hy my hmy x hx mx hmx
    have hcells : 0 < 8 * ((cstr line).length : Int) * size := by
      have : 0 < size := by omega
      positivity
    rcases lineRow_cases height row with ⟨-, -, hrow⟩ | ⟨hout, -⟩
    · rw [hrow]
      refine ⟨linePixel_nonneg h0 (by omega) (by omega) (by omega) (by omega) (by omega) (by omega)
        (by omega), ?_⟩
      exact lt_of_lt_of_le (linePixel_le (by omega) (by omega) (by omega) (by omega) (by omega)) hin
    · exfalso
      have hlines := Int.mul_le_mul_of_nonneg_right
        (show (height : Int) ≤ 16 * row + 16 * size - 1 by omega) (Int.natCast_nonneg width)
      rw [Int.mul_comm (height : Int)] at hlines
      omega

/-! ## The console -/

/-- What a call stores stays in the console, each character in its last text row. -/
def ConsSafe (fontdata_8x16 : Nat → UInt8) (gLayerPara : LayerPara) (buf : List UInt8) : Prop :=
  let mlp := deGetConsoleFb gLayerPara
  let steps := fbprintCons gLayerPara buf
  WritesIn mlp (steps.flatMap fun s => s.stores fontdata_8x16 mlp) ∧
    ∀ s ∈ steps, s.InTextRow fontdata_8x16 mlp

/-- A row that has room for a character is left before it is full. -/
theorem consSteps_cell_lt {charWidth : Nat} (hw : 0 < charWidth) :
    ∀ {buf : List UInt8} {chars : Nat}, chars ≤ charWidth → ∀ {k : Nat} {c : UInt8},
      ConsStep.cell k c ∈ consSteps charWidth chars buf → k < charWidth
  | [], _, _, _, _, h => by simp [consSteps] at h
  | b :: buf, chars, hchars, k, c, h => by
      have hnext : (if chars = charWidth then 0 else chars) < charWidth := by split <;> omega
      rw [consSteps] at h
      rcases List.mem_append.mp h with hscroll | hrest
      · split at hscroll <;> simp at hscroll
      · by_cases hb : b = 10
        · rw [if_pos hb] at hrest
          exact consSteps_cell_lt hw (le_refl _) hrest
        · rw [if_neg hb] at hrest
          rcases List.mem_cons.mp hrest with hcell | hrest
          · rw [(ConsStep.cell.inj hcell).1]
            exact hnext
          · exact consSteps_cell_lt hw hnext hrest

/-- A character that is no end of line gets a cell, and ends of line get none. -/
theorem cell_mem_consSteps_iff (charWidth : Nat) : ∀ (buf : List UInt8) (chars : Nat),
    (∃ k c, ConsStep.cell k c ∈ consSteps charWidth chars buf) ↔ ∃ c ∈ buf, c ≠ 10
  | [], _ => by simp [consSteps]
  | b :: buf, chars => by
      have hscrolled : ∀ k c, ConsStep.cell k c ∉
          (if chars = charWidth then [ConsStep.scroll] else []) := by
        intro k c
        split <;> simp
      by_cases hb : b = 10
      · have ih := cell_mem_consSteps_iff charWidth buf charWidth
        simp [consSteps, hb, hscrolled, ih]
      · refine ⟨fun _ => ⟨b, List.mem_cons_self .., hb⟩,
          fun _ => ⟨if chars = charWidth then 0 else chars, b, ?_⟩⟩
        rw [consSteps, if_neg hb]
        exact List.mem_append_right _ (List.mem_cons_self ..)

/-- Stores of a scroll stay in a buffer that has a text row. -/
theorem scroll_writesIn {mlp : FbLayerPara} (hheight : 16 ≤ mlp.height) :
    WritesIn mlp (ConsStep.scroll.stores fontdata_8x16 mlp) := by
  have hrows : 0 ≤ ((mlp.height : Int) - 16) * mlp.width := by
    have : (0 : Int) ≤ mlp.height - 16 := by omega
    positivity
  have hall : ((mlp.height : Int) - 16) * mlp.width + 16 * mlp.width = mlp.width * mlp.height := by
    ring
  intro e he a ha
  simp only [ConsStep.stores, List.mem_cons, List.not_mem_nil, or_false] at he
  rcases he with rfl | rfl <;>
    · simp only [FbStore.Writes, FbStore.dst, FbStore.len, bytesPerPixel] at ha
      omega

/-- What a cell stores, in the line and the column of the buffer. -/
theorem cell_writes {mlp : FbLayerPara} {chars : Nat} {c : UInt8} {e : FbStore} {a : Int}
    (he : e ∈ (ConsStep.cell chars c).stores fontdata_8x16 mlp) (ha : e.Writes a) :
    ∃ y < 16, ∃ x < 8, ∃ d < 4, a = mlp.dispbuf +
      ((mlp.height - 16 + (y : Nat)) * mlp.width + 8 * chars + (x : Nat)) * 4 + (d : Nat) := by
  simp only [ConsStep.stores, List.mem_flatMap, List.mem_map, List.mem_range] at he
  obtain ⟨y, hy, x, hx, d, hd, rfl⟩ := he
  simp only [FbStore.Writes, FbStore.dst, FbStore.len, List.length_singleton] at ha
  refine ⟨y, hy, x, hx, d, hd, ?_⟩
  simp only [bytesPerPixel] at ha
  omega

section Cell

variable {mlp : FbLayerPara} {chars : Nat} {c : UInt8}

theorem cell_writesIn (hheight : 16 ≤ mlp.height) (hchars : 8 * chars + 8 ≤ mlp.width) :
    WritesIn mlp ((ConsStep.cell chars c).stores fontdata_8x16 mlp) := by
  intro e he a ha
  obtain ⟨y, hy, x, hx, d, hd, rfl⟩ := cell_writes he ha
  have hline : 0 ≤ ((mlp.height : Int) - 16 + y) * mlp.width := by
    have : (0 : Int) ≤ mlp.height - 16 + y := by omega
    positivity
  have hbelow := Int.mul_le_mul_of_nonneg_right
    (show (mlp.height : Int) - 16 + y + 1 ≤ mlp.height by omega) (Int.natCast_nonneg mlp.width)
  rw [Int.add_mul _ 1, Int.one_mul, Int.mul_comm (mlp.height : Int)] at hbelow
  omega

theorem cell_inTextRow (hheight : 16 ≤ mlp.height) (hchars : 8 * chars + 8 ≤ mlp.width) :
    (ConsStep.cell chars c).InTextRow fontdata_8x16 mlp := by
  refine ⟨mlp.height - 16, 8 * chars, by omega, hchars, fun e he a ha => ?_⟩
  obtain ⟨y, hy, x, hx, d, hd, rfl⟩ := cell_writes he ha
  refine ⟨y, by omega, x, by omega, d, by omega, ?_⟩
  rw [Int.natCast_sub hheight]
  push_cast
  rfl

end Cell

/-- The console keeps to its half and its rows when a row has room for a character, or gets none. -/
theorem cons_safe_iff {buf : List UInt8} (hheight : 16 ≤ (deGetConsoleFb gLayerPara).height) :
    ConsSafe fontdata_8x16 gLayerPara buf ↔
      8 ≤ gLayerPara.width ∨ (deGetConsoleFb gLayerPara).dispbuf = 0 ∨ ∀ c ∈ buf, c = 10 := by
  rw [ConsSafe]
  by_cases hnull : (deGetConsoleFb gLayerPara).dispbuf = 0
  · simp [fbprintCons, hnull, WritesIn]
  have hsteps : fbprintCons gLayerPara buf =
      consSteps (gLayerPara.width / 8) (gLayerPara.width / 8) buf := if_neg hnull
  simp only [hsteps, hnull, false_or]
  constructor
  · rintro ⟨-, hrow⟩
    by_cases hwidth : 8 ≤ gLayerPara.width
    · exact Or.inl hwidth
    · right
      by_contra hother
      push Not at hother
      obtain ⟨k, c, hcell⟩ :=
        (cell_mem_consSteps_iff (gLayerPara.width / 8) buf (gLayerPara.width / 8)).mpr hother
      obtain ⟨top, left, -, hleft, -⟩ := hrow _ hcell
      rw [show (deGetConsoleFb gLayerPara).width = gLayerPara.width from rfl] at hleft
      omega
  · intro hroom
    have hcells : ∀ {k c}, ConsStep.cell k c ∈
        consSteps (gLayerPara.width / 8) (gLayerPara.width / 8) buf →
          8 * k + 8 ≤ (deGetConsoleFb gLayerPara).width := by
      intro k c hcell
      rcases hroom with hwidth | hnone
      · have := consSteps_cell_lt (by omega) (le_refl _) hcell
        show 8 * k + 8 ≤ gLayerPara.width
        omega
      · obtain ⟨b, hb, hother⟩ := (cell_mem_consSteps_iff _ _ _).mp ⟨k, c, hcell⟩
        exact absurd (hnone b hb) hother
    constructor
    · intro e he
      obtain ⟨s, hs, he⟩ := List.mem_flatMap.mp he
      cases s with
      | scroll => exact scroll_writesIn hheight e he
      | cell k c => exact cell_writesIn hheight (hcells hs) e he
    · intro s hs
      cases s with
      | scroll => trivial
      | cell k c => exact cell_inTextRow hheight (hcells hs)

/-! ## Both -/

/-- The lines that stay on the picture and the texts that stay in the console. -/
theorem fbprint_safe_iff (fontdata_8x16 : Nat → UInt8) (gLayerPara : LayerPara) :
    (∀ (row size : Int) (col : Nat) (colors : ColorPair) (line : List UInt8),
      WritesIn (deGetPictFb gLayerPara)
          (fbprintLine fontdata_8x16 gLayerPara row col colors size line) ↔
        cstr line = [] ∨ size ≤ 0 ∨
          0 ≤ row ∧ (16 * row + 16 * size - 1) * gLayerPara.width + 8 * col +
              8 * (cstr line).length * size ≤ gLayerPara.width * (gLayerPara.height / 2 : Nat)) ∧
    (16 ≤ (deGetConsoleFb gLayerPara).height → ∀ buf : List UInt8,
      ConsSafe fontdata_8x16 gLayerPara buf ↔
        8 ≤ gLayerPara.width ∨ (deGetConsoleFb gLayerPara).dispbuf = 0 ∨ ∀ c ∈ buf, c = 10) :=
  ⟨fun _ _ _ _ _ => line_safe_iff, fun hheight _ => cons_safe_iff hheight⟩

/-- A screen of 800 by 480 and a letter. -/
theorem fbprint_safe_iff_screen :
    (WritesIn (deGetPictFb ⟨800, 480, 0x40000000⟩)
        (fbprintLine (fun _ => 0) ⟨800, 480, 0x40000000⟩ 0 (0 : Nat) ⟨0, 0⟩ 1 [65]) ↔
      cstr [65] = [] ∨ (1 : Int) ≤ 0 ∨ (0 : Int) ≤ 0 ∧
        (16 * 0 + 16 * 1 - 1) * ((800 : Nat) : Int) + 8 * (0 : Nat) + 8 * (cstr [65]).length * 1 ≤
          ((800 : Nat) : Int) * (480 / 2 : Nat)) ∧
    (ConsSafe (fun _ => 0) ⟨800, 480, 0x40000000⟩ [65] ↔ 8 ≤ 800 ∨
      (deGetConsoleFb ⟨800, 480, 0x40000000⟩).dispbuf = 0 ∨ ∀ c ∈ ([65] : List UInt8), c = 10) :=
  ⟨(fbprint_safe_iff (fun _ => 0) ⟨800, 480, 0x40000000⟩).1 0 1 0 ⟨0, 0⟩ [65],
    (fbprint_safe_iff (fun _ => 0) ⟨800, 480, 0x40000000⟩).2 (by decide) [65]⟩

/-- The row from the bottom that the countdown is shown in lies below the picture. -/
theorem fbprintLine_bottom_outside :
    ¬ WritesIn (deGetPictFb ⟨800, 480, 0x40000000⟩)
      (fbprintLine (fun _ => 0) ⟨800, 480, 0x40000000⟩ (-1) (40 : Nat) ⟨0, 0⟩ 1 [65]) := by
  rw [line_safe_iff]
  decide

end Novo7

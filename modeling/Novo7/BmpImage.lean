import Novo7.Bytes
import Novo7.RowCopy

/-!
# Loading a picture

`Parse_Pic_BMP_ByPath` takes the width, the height and the place of the pixels from the first 512
bytes of a file, loads the whole file and copies the rows into a buffer of the size that the header
gives. None of it is held against the size of the file, and the buffer may not have been found.
`parsePicBmp_safe_iff` says for which files the copies stay inside and the picture is the one of the
file.
-/

namespace Novo7

open RowCopy Bytes

/-! ## The program -/

/-- A file, with a size that `svc_filesize` can return. -/
structure BmpFile where
  bytes : List UInt8
  size_lt : bytes.length < 2 ^ 31

/-- What `buf` holds before it is read into, and for what `svc_alloc` finds memory. -/
structure BmpEnv where
  buf : Nat → UInt8
  allocFile : Bool
  allocImage : Bool

section File

variable (env : BmpEnv) (f : BmpFile)

def BmpFile.size : Int := f.bytes.length

/-- A byte of the file, if there is one. -/
def BmpFile.byte (i : Int) : Option UInt8 :=
  if 0 ≤ i then f.bytes[i.toNat]? else none

/-- A byte of `buf` after the first `svc_read`. -/
def BmpFile.bufByte (i : Nat) : UInt8 := (f.bytes.take 512).getD i (env.buf i)

/-- A field of the header. -/
def BmpFile.headerField (off k : Nat) : Nat :=
  leValue ((List.range k).map fun j => f.bufByte env (off + j))

/-- `struct ImageHeader`, as far as it is used. -/
structure ImageHeader where
  magic : Nat
  bytesStart : Int
  width : Int
  height : Int

def BmpFile.imgHeader : ImageHeader where
  magic := f.headerField env 0 2
  bytesStart := (f.headerField env 10 2 : Int).bmod (2 ^ 16)
  width := (f.headerField env 18 4 : Int).bmod (2 ^ 32)
  height := (f.headerField env 22 4 : Int).bmod (2 ^ 32)

end File

section Header

variable (hd : ImageHeader)

/-- `imgBuf->imgsiz` -/
def ImageHeader.imgsiz : Int :=
  let height := if hd.height > 0 then hd.height else (-hd.height).bmod (2 ^ 32)
  (height * hd.width * 4).bmod (2 ^ 32)

/-- A round of the loop over the lines, or the one `memcpy` of a picture that is stored from its
top. -/
def ImageHeader.bmpRow (lineNo : Nat) : Copy :=
  if hd.height > 0 then
    ⟨lineNo * (4 * hd.width).bmod (2 ^ 32),
      hd.bytesStart + ((hd.height - lineNo - 1) * hd.width * 4).bmod (2 ^ 32),
      hd.width * 4 % 2 ^ 32⟩
  else ⟨0, hd.bytesStart, hd.imgsiz % 2 ^ 32⟩

def ImageHeader.bmpRows : Nat := if hd.height > 0 then hd.height.toNat else 1

end Header

/-- A run: whether it is accepted, what it reads of the header, the copies from the file to the
picture, the size of the buffer of the picture, and what is stored there. -/
structure BmpRun where
  accepted : Bool
  header : List (Nat × Nat)
  copies : List Copy
  bufSize : Int
  image : Int → Option UInt8

/-- `Parse_Pic_BMP_ByPath` on a file that is opened, with no buffer given. -/
def parsePicBmp (env : BmpEnv) (f : BmpFile) : BmpRun :=
  let hd := f.imgHeader env
  if hd.magic ≠ 0x4d42 then ⟨false, [(0, 2)], [], 0, fun _ => none⟩
  else if env.allocFile = false then ⟨false, [(0, 2), (18, 4), (22, 4)], [], 0, fun _ => none⟩
  else
    ⟨true, [(0, 2), (18, 4), (22, 4), (10, 2)], (List.range hd.bmpRows).map hd.bmpRow,
      if env.allocImage then hd.imgsiz % 2 ^ 32 else 0,
      copyRows hd.bmpRow f.byte (fun _ => none) hd.bmpRows⟩

/-! ## The picture -/

section Picture

variable (env : BmpEnv) (f : BmpFile) (hd : ImageHeader)

/-- The row of the file that is row `r` of the picture. -/
def ImageHeader.fileRow (r : Int) : Int := if hd.height > 0 then hd.height - 1 - r else r

/-- The picture has the rows of the file, the top row first. -/
def StoresRows (image : Int → Option UInt8) : Prop :=
  ∀ r j, 0 ≤ r → r < |hd.height| → 0 ≤ j → j < 4 * hd.width →
    ∃ v, f.byte (hd.bytesStart + hd.fileRow r * (4 * hd.width) + j) = some v ∧
      image (r * (4 * hd.width) + j) = some v

/-- A run is rejected, or reads and writes inside and stores the picture. -/
def LoadsSafely : Prop :=
  (parsePicBmp env f).accepted = true →
    (∀ h ∈ (parsePicBmp env f).header, h.1 + h.2 ≤ f.bytes.length) ∧
    (∀ c ∈ (parsePicBmp env f).copies, c.Inside f.size (parsePicBmp env f).bufSize) ∧
    StoresRows f (f.imgHeader env) (parsePicBmp env f).image

/-- The memory for the picture is found, and so many bytes from the start of the pixels on are in
the file. -/
def PixelsInFile (n : Int) : Prop :=
  env.allocImage = true ∧ 0 ≤ hd.bytesStart ∧ hd.bytesStart + n ≤ f.size

/-- The pixels of the header are in the file. Where there are none, what the products of 32 bits
make of the sizes is. -/
def PixelsFit : Prop :=
  if 0 < hd.width then
    hd.height = 0 ∨ PixelsInFile env f hd (|hd.height| * (4 * hd.width))
  else if 0 < hd.height then
    hd.width * 4 % 2 ^ 32 = 0 ∨ PixelsInFile env f hd (hd.height * (hd.width * 4 % 2 ^ 32))
  else hd.imgsiz % 2 ^ 32 = 0 ∨ PixelsInFile env f hd (hd.imgsiz % 2 ^ 32)

end Picture

section Rows

variable {env : BmpEnv} {f : BmpFile} {hd : ImageHeader}

theorem byte_isSome {i : Int} (h0 : 0 ≤ i) (hi : i < f.size) : ∃ v, f.byte i = some v := by
  unfold BmpFile.byte
  unfold BmpFile.size at hi
  rw [if_pos h0]
  exact ⟨_, List.getElem?_eq_getElem (by omega)⟩

/-- The width in bytes, as a count. -/
def ImageHeader.stride (hd : ImageHeader) : Int := hd.width * 4 % 2 ^ 32

theorem stride_nonneg (hd : ImageHeader) : 0 ≤ hd.stride := Int.emod_nonneg _ (by decide)

/-- A product with the width, and the one with the stride. -/
theorem mul_stride (k : Int) :
    k * hd.width * 4 = k * hd.stride + (2 ^ 32 : Nat) * (k * (hd.width * 4 / 2 ^ 32)) := by
  have hdiv := Int.emod_add_mul_ediv (hd.width * 4) (2 ^ 32)
  calc k * hd.width * 4 = k * (hd.width * 4) := Int.mul_assoc _ _ _
    _ = k * (hd.width * 4 % 2 ^ 32 + 2 ^ 32 * (hd.width * 4 / 2 ^ 32)) := by rw [hdiv]
    _ = _ := by
      rw [Int.mul_add, Int.mul_left_comm]
      rfl

/-- The two are the same number of 32 bits. -/
theorem bmod_stride {k : Int} (hk : 0 ≤ k) (hlt : k * hd.stride < 2 ^ 31) :
    (k * hd.width * 4).bmod (2 ^ 32) = k * hd.stride := by
  have hnonneg := Int.mul_nonneg hk (stride_nonneg hd)
  rw [mul_stride, Int.add_mul_bmod_self_left]
  exact Int.bmod_eq_of_le (by omega) (by omega)

theorem abs_height_nonneg (hd : ImageHeader) : 0 ≤ |hd.height| := abs_nonneg _

/-- The size of the buffer is the number of bytes of the pixels, as a number of 32 bits. -/
theorem imgsiz_emod : hd.imgsiz % 2 ^ 32 = |hd.height| * hd.width * 4 % 2 ^ 32 := by
  have hcast : ((2 ^ 32 : Nat) : Int) = 2 ^ 32 := rfl
  have hheight : (if hd.height > 0 then hd.height else (-hd.height).bmod (2 ^ 32)) % 2 ^ 32 =
      |hd.height| % 2 ^ 32 := by
    split
    · rename_i hpos
      rw [abs_of_pos hpos]
    · rename_i hneg
      rw [abs_of_nonpos (by omega), ← hcast, Int.bmod_emod]
  unfold ImageHeader.imgsiz
  dsimp only
  rw [← hcast, Int.bmod_emod, hcast, Int.mul_assoc, Int.mul_emod, hheight, ← Int.mul_emod,
    ← Int.mul_assoc]

/-- The buffer has as many bytes as the rows with the stride, if these fit. -/
theorem imgsiz_stride (hlt : |hd.height| * hd.stride < 2 ^ 32) :
    hd.imgsiz % 2 ^ 32 = |hd.height| * hd.stride := by
  have hnonneg := Int.mul_nonneg (abs_height_nonneg hd)
    (stride_nonneg hd)
  have hcast : ((2 ^ 32 : Nat) : Int) = 2 ^ 32 := rfl
  rw [imgsiz_emod, mul_stride, hcast, Int.add_mul_emod_self_left, Int.emod_eq_of_lt hnonneg hlt]

end Rows

/-! ## Pictures that are stored from the bottom -/

section Up

variable {env : BmpEnv} {f : BmpFile} {hd : ImageHeader}

theorem bmpRows_up (hup : 0 < hd.height) : hd.bmpRows = (hd.height).toNat := if_pos hup

/-- A row as far as the products fit in an `int`. -/
theorem bmpRow_up (hup : 0 < hd.height) {r : Nat} (hr : (r : Int) < hd.height)
    (hstride : hd.stride < 2 ^ 31)
    (hlt : (hd.height - r - 1) * hd.stride < 2 ^ 31) :
    hd.bmpRow r = ⟨r * hd.stride,
      hd.bytesStart + (hd.height - r - 1) * hd.stride, hd.stride⟩ := by
  have hone := @bmod_stride hd 1 (by decide) (by omega)
  rw [Int.one_mul, Int.one_mul, Int.mul_comm] at hone
  rw [ImageHeader.bmpRow, if_pos hup, hone, bmod_stride (by omega) hlt]
  rfl

/-- Rows that are in the file are read and written inside. -/
theorem rows_up (hup : 0 < hd.height)
    (hfit : PixelsInFile env f hd (hd.height * hd.stride)) {r : Nat}
    (hr : (r : Int) < hd.height) :
    hd.bmpRow r = ⟨r * hd.stride,
        hd.bytesStart + (hd.height - r - 1) * hd.stride, hd.stride⟩ ∧
      (hd.bmpRow r).Inside f.size (hd.imgsiz % 2 ^ 32) := by
  obtain ⟨-, hstart, hend⟩ := hfit
  have hsize : f.size < 2 ^ 31 := by
    have := f.size_lt
    unfold BmpFile.size
    omega
  have hs := stride_nonneg hd
  -- the bytes in front of a row, those of the row and those behind it
  have hbelow : (hd.height - r - 1) * hd.stride + (r + 1) * hd.stride =
      hd.height * hd.stride := by
    rw [← Int.add_mul]
    exact congrArg (· * hd.stride) (by omega)
  have hrow : ((r : Int) + 1) * hd.stride = r * hd.stride + hd.stride := by
    rw [Int.add_mul, Int.one_mul]
  have hfront := Int.mul_nonneg (Int.natCast_nonneg r) hs
  have hbehind := Int.mul_nonneg (show 0 ≤ hd.height - r - 1 by omega) hs
  have hsrc0 : 0 ≤ hd.bytesStart + (hd.height - r - 1) * hd.stride := by omega
  have hsrc1 : hd.bytesStart + (hd.height - r - 1) * hd.stride + hd.stride ≤ f.size := by
    omega
  have hdst1 : r * hd.stride + hd.stride ≤ hd.height * hd.stride := by omega
  have heq := bmpRow_up hup hr (by omega) (by omega)
  have habs : |hd.height| = hd.height := abs_of_pos hup
  have hbuf : hd.imgsiz % 2 ^ 32 = hd.height * hd.stride := by
    rw [imgsiz_stride (by rw [habs]; omega), habs]
  refine ⟨heq, ?_⟩
  rw [heq, hbuf]
  exact .inr ⟨⟨hsrc0, hsrc1⟩, hfront, hdst1⟩

/-- The rows of the file, the last one first. -/
theorem image_up (hup : 0 < hd.height)
    (hfit : PixelsInFile env f hd (hd.height * hd.stride)) {r : Nat} {j : Int}
    (hr : (r : Int) < hd.height) (hj : 0 ≤ j ∧ j < hd.stride) :
    copyRows hd.bmpRow f.byte (fun _ => none) hd.bmpRows (r * hd.stride + j) =
      f.byte (hd.bytesStart + (hd.height - r - 1) * hd.stride + j) := by
  have hcovers : (hd.bmpRow r).Covers (r * hd.stride + j) := by
    rw [(rows_up hup hfit hr).1]
    unfold Copy.Covers
    dsimp only
    omega
  rw [bmpRows_up hup, copyRows_hit hcovers (by omega) fun r' hgt hr' hother => ?_]
  · rw [(rows_up hup hfit hr).1]
    dsimp only
    exact congrArg f.byte (by omega)
  · rw [(rows_up hup hfit (show (r' : Int) < _ by omega)).1] at hother
    obtain ⟨hlow, hhigh⟩ := hother
    dsimp only at hlow hhigh
    have := (row_unique (a := r) (b := r') (y := r * hd.stride + j - r' * hd.stride) hj
      ⟨by omega, by omega⟩ (by omega)).1
    omega

/-- Rows that are read inside, from the last of the file on, are in the file. -/
theorem inside_up (hup : 0 < hd.height) (hs : hd.stride ≠ 0) {bufSize : Int}
    (hin : ∀ r : Nat, (r : Int) < hd.height → (hd.bmpRow r).Inside f.size bufSize) :
    0 ≤ hd.bytesStart ∧
      hd.bytesStart + hd.height * hd.stride ≤ f.size ∧ 0 < bufSize := by
  have hsize : f.size < 2 ^ 31 := by
    have := f.size_lt
    unfold BmpFile.size
    omega
  have hpos : 0 < hd.stride := by
    have := stride_nonneg hd
    omega
  have hlen (r : Nat) : (hd.bmpRow r).len = hd.stride := by
    rw [ImageHeader.bmpRow, if_pos hup]
    rfl
  have hsrc (k : Nat) (hk : (k : Int) < hd.height) : (hd.bmpRow ((hd.height).toNat - 1 - k)).src =
      hd.bytesStart + (k * hd.width * 4).bmod (2 ^ 32) := by
    rw [ImageHeader.bmpRow, if_pos hup]
    dsimp only
    rw [show hd.height - ((hd.height).toNat - 1 - k : Nat) - 1 = k by omega]
  have hrow (k : Nat) (hk : (k : Int) < hd.height) :=
    (hin ((hd.height).toNat - 1 - k) (by omega)).resolve_left (by rw [hlen]; exact hs)
  -- the offsets do not wrap as long as the rows behind them are in the file
  have hwalk : ∀ k : Nat, (k : Int) < hd.height →
      0 ≤ hd.bytesStart ∧ hd.bytesStart + (k * hd.stride + hd.stride) ≤ f.size := by
    intro k
    induction k with
    | zero =>
        intro hk
        have h := hrow 0 hk
        have hz : ((0 : Nat) : Int) * hd.stride = 0 := Int.zero_mul _
        rw [hsrc 0 hk, hlen, bmod_stride (Int.natCast_nonneg 0) (by rw [hz]; decide)] at h
        omega
    | succ k ih =>
        intro hk
        have hprev := ih (by omega)
        have hmul : ((k + 1 : Nat) : Int) * hd.stride = k * hd.stride + hd.stride := by
          rw [Int.natCast_add, Int.add_mul]
          show _ + 1 * _ = _
          rw [Int.one_mul]
        have h := hrow (k + 1) hk
        rw [hsrc (k + 1) hk, hlen, bmod_stride (Int.natCast_nonneg _) (by omega)] at h
        omega
  have hlast := hwalk ((hd.height).toNat - 1) (by omega)
  have hmul : (((hd.height).toNat - 1 : Nat) : Int) * hd.stride + hd.stride =
      hd.height * hd.stride := by
    rw [show (((hd.height).toNat - 1 : Nat) : Int) = hd.height - 1 by omega, Int.sub_mul,
      Int.one_mul, Int.sub_add_cancel]
  have hbuf := (hrow 0 hup).2
  rw [hlen] at hbuf
  omega

end Up

/-! ## Pictures that are stored from the top -/

section Down

variable {env : BmpEnv} {f : BmpFile} {hd : ImageHeader}

theorem bmpRow_down (hdown : ¬ 0 < hd.height) (r : Nat) :
    hd.bmpRow r = ⟨0, hd.bytesStart, hd.imgsiz % 2 ^ 32⟩ := by
  rw [ImageHeader.bmpRow, if_neg hdown]

theorem image_down (hdown : ¬ 0 < hd.height) {k : Int} :
    copyRows hd.bmpRow f.byte (fun _ => none) hd.bmpRows k =
      if 0 ≤ k ∧ k < hd.imgsiz % 2 ^ 32 then f.byte (hd.bytesStart + k) else none := by
  have hrows : hd.bmpRows = 1 := if_neg hdown
  rw [hrows]
  show (hd.bmpRow 0).apply _ _ k = _
  rw [bmpRow_down hdown]
  have hcovers : (Copy.mk 0 hd.bytesStart (hd.imgsiz % 2 ^ 32)).Covers k ↔
      0 ≤ k ∧ k < hd.imgsiz % 2 ^ 32 := by
    unfold Copy.Covers
    rw [Int.zero_add]
  by_cases hk : 0 ≤ k ∧ k < hd.imgsiz % 2 ^ 32
  · rw [if_pos hk]
    exact (if_pos (hcovers.mpr hk)).trans (congrArg f.byte (by rw [Int.sub_zero]))
  · rw [if_neg hk]
    exact if_neg fun h => hk (hcovers.mp h)

end Down

/-! ## Files that are loaded safely -/

section Safe

variable {env : BmpEnv} {f : BmpFile} {hd : ImageHeader}

/-- Both kinds of pictures, with the copies as they are. -/
def CopiesSafely (env : BmpEnv) (f : BmpFile) (hd : ImageHeader) : Prop :=
  (∀ r < hd.bmpRows, (hd.bmpRow r).Inside f.size
      (if env.allocImage then hd.imgsiz % 2 ^ 32 else 0)) ∧
    StoresRows f hd (copyRows hd.bmpRow f.byte (fun _ => none) hd.bmpRows)

/-- The stride is the width, in a file with room for one row. -/
theorem stride_of_fit (hw : 0 < hd.width) (hlt : 4 * hd.width < 2 ^ 32) :
    hd.stride = 4 * hd.width := by
  unfold ImageHeader.stride
  rw [Int.mul_comm]
  exact Int.emod_eq_of_lt (by omega) hlt

/-- No byte is stored where no copy goes. -/
theorem image_none {k : Int} (h : ∀ r < hd.bmpRows, ¬ (hd.bmpRow r).Covers k) :
    copyRows hd.bmpRow f.byte (fun _ => none) hd.bmpRows k = none :=
  copyRows_miss h

theorem size_lt (f : BmpFile) : f.size < 2 ^ 31 := by
  have := f.size_lt
  unfold BmpFile.size
  omega

theorem stores_up (hup : 0 < hd.height) (hs : hd.stride = 4 * hd.width)
    (hfit : PixelsInFile env f hd (hd.height * hd.stride)) :
    StoresRows f hd (copyRows hd.bmpRow f.byte (fun _ => none) hd.bmpRows) := by
  intro r j hr0 hr1 hj0 hj1
  rw [abs_of_pos hup] at hr1
  obtain ⟨r, rfl⟩ := Int.eq_ofNat_of_zero_le hr0
  have himage := image_up hup hfit hr1 (j := j) ⟨hj0, by rw [hs]; exact hj1⟩
  obtain ⟨-, hstart, hend⟩ := hfit
  have hsnonneg := stride_nonneg hd
  have hbelow := Int.mul_nonneg (show 0 ≤ hd.height - r - 1 by omega) hsnonneg
  have habove : (hd.height - r - 1) * hd.stride + (r + 1) * hd.stride =
      hd.height * hd.stride := by
    rw [← Int.add_mul]
    exact congrArg (· * hd.stride) (by omega)
  have hrow : ((r : Int) + 1) * hd.stride = r * hd.stride + hd.stride := by
    rw [Int.add_mul, Int.one_mul]
  have hfront := Int.mul_nonneg (Int.natCast_nonneg r) hsnonneg
  rw [← hs] at hj1
  have hlow : 0 ≤ hd.bytesStart + (hd.height - r - 1) * hd.stride + j := by omega
  have hhigh : hd.bytesStart + (hd.height - r - 1) * hd.stride + j < f.size := by omega
  obtain ⟨v, hv⟩ := byte_isSome hlow hhigh
  have hrowEq : hd.height - 1 - r = hd.height - r - 1 := by omega
  refine ⟨v, ?_, ?_⟩
  · rw [ImageHeader.fileRow, if_pos hup, ← hs, hrowEq]
    exact hv
  · rw [← hs]
    exact himage.trans hv

theorem copiesSafely_up (hup : 0 < hd.height) : CopiesSafely env f hd ↔ PixelsFit env f hd := by
  have habs : |hd.height| = hd.height := abs_of_pos hup
  have hsnonneg := stride_nonneg hd
  have hsize := size_lt f
  have hlen (r : Nat) : (hd.bmpRow r).len = hd.stride := by
    rw [ImageHeader.bmpRow, if_pos hup]
    rfl
  have hinside (hfit : PixelsInFile env f hd (hd.height * hd.stride)) :
      ∀ r < hd.bmpRows, (hd.bmpRow r).Inside f.size
        (if env.allocImage then hd.imgsiz % 2 ^ 32 else 0) := by
    intro r hr
    rw [bmpRows_up hup] at hr
    rw [if_pos hfit.1]
    exact (rows_up hup hfit (by omega)).2
  unfold CopiesSafely PixelsFit
  rw [if_pos hup]
  constructor
  · rintro ⟨hin, hrows⟩
    -- with a stride of zero nothing is copied
    by_cases hs : hd.stride = 0
    · split
      · rename_i hw
        obtain ⟨v, -, hv⟩ := hrows 0 0 (Int.le_refl 0) (by omega) (Int.le_refl 0) (by omega)
        rw [image_none fun r _ hcovers => ?_] at hv
        · cases hv
        · have h0 := hcovers.1
          have h1 := hcovers.2
          rw [hlen, hs] at h1
          omega
      · exact .inl hs
    · obtain ⟨hstart, hend, hbuf⟩ := inside_up hup hs fun r hr =>
        hin r (by rw [bmpRows_up hup]; omega)
      have halloc : env.allocImage = true := by
        by_contra hnot
        rw [if_neg hnot] at hbuf
        exact absurd hbuf (by decide)
      have hfit : PixelsInFile env f hd (hd.height * hd.stride) := ⟨halloc, hstart, hend⟩
      split
      · rename_i hw
        rcases lt_or_ge (4 * hd.width) (2 ^ 32) with hlt | hge
        · rw [habs, ← stride_of_fit hw hlt]
          exact .inr hfit
        · -- the last byte of such a row is not stored
          have hless : hd.stride + 1 ≤ 4 * hd.width := by
            have := Int.emod_lt_of_pos (hd.width * 4) (show (0 : Int) < 2 ^ 32 by decide)
            unfold ImageHeader.stride
            omega
          have hmul := Int.mul_le_mul_of_nonneg_left hless hup.le
          have hlast : (hd.height - 1) * (4 * hd.width) + (4 * hd.width - 1) =
              hd.height * (4 * hd.width) - 1 := by
            rw [Int.sub_mul, Int.one_mul]
            omega
          rw [Int.mul_add, Int.mul_one] at hmul
          obtain ⟨v, -, hv⟩ := hrows (hd.height - 1) (4 * hd.width - 1) (by omega) (by omega)
            (by omega) (by omega)
          rw [hlast, image_none fun r hr hcovers => ?_] at hv
          · cases hv
          · rw [bmpRows_up hup] at hr
            rw [(rows_up hup hfit (show (r : Int) < _ by omega)).1] at hcovers
            have h1 := hcovers.2
            dsimp only at h1
            have hrow := Int.mul_le_mul_of_nonneg_right
              (show (r : Int) + 1 ≤ hd.height by omega) hsnonneg
            rw [Int.add_mul, Int.one_mul] at hrow
            omega
      · exact .inr hfit
  · intro hfit
    split at hfit
    · rename_i hw
      obtain ⟨halloc, hstart, hend⟩ := hfit.resolve_left (by omega)
      rw [habs] at hend
      have hone := Int.mul_le_mul_of_nonneg_right (show 1 ≤ hd.height by omega)
        (show 0 ≤ 4 * hd.width by omega)
      rw [Int.one_mul] at hone
      have hs := stride_of_fit hw (by omega)
      have hfit : PixelsInFile env f hd (hd.height * hd.stride) := by
        rw [hs]
        exact ⟨halloc, hstart, hend⟩
      exact ⟨hinside hfit, stores_up hup hs hfit⟩
    · rename_i hw
      refine ⟨?_, fun r j _ _ hj0 hj1 => absurd hj1 (by omega)⟩
      rcases hfit with hs | hfit
      · exact fun r _ => .inl ((hlen r).trans hs)
      · exact hinside hfit

theorem emod_le_self {a : Int} (ha : 0 ≤ a) : a % 2 ^ 32 ≤ a := by omega

theorem stores_down (hdown : ¬ 0 < hd.height)
    (hn : hd.imgsiz % 2 ^ 32 = |hd.height| * (4 * hd.width))
    (hfit : PixelsInFile env f hd (hd.imgsiz % 2 ^ 32)) :
    StoresRows f hd (copyRows hd.bmpRow f.byte (fun _ => none) hd.bmpRows) := by
  intro r j hr0 hr1 hj0 hj1
  obtain ⟨-, hstart, hend⟩ := hfit
  have hwidth : 0 ≤ 4 * hd.width := by omega
  have hfront := Int.mul_nonneg hr0 hwidth
  have hrow := Int.mul_le_mul_of_nonneg_right (show r + 1 ≤ |hd.height| by omega) hwidth
  rw [Int.add_mul, Int.one_mul] at hrow
  have hlow : 0 ≤ hd.bytesStart + (r * (4 * hd.width) + j) := by omega
  have hhigh : hd.bytesStart + (r * (4 * hd.width) + j) < f.size := by omega
  obtain ⟨v, hv⟩ := byte_isSome hlow hhigh
  refine ⟨v, ?_, ?_⟩
  · rw [ImageHeader.fileRow, if_neg hdown, Int.add_assoc]
    exact hv
  · rw [image_down hdown, if_pos ⟨by omega, by omega⟩]
    exact hv

theorem copiesSafely_down (hdown : ¬ 0 < hd.height) :
    CopiesSafely env f hd ↔ PixelsFit env f hd := by
  have hsize := size_lt f
  have hrows : hd.bmpRows = 1 := by rw [ImageHeader.bmpRows, if_neg hdown]
  have hnonneg := Int.emod_nonneg hd.imgsiz (show (2 ^ 32 : Int) ≠ 0 by decide)
  have hin (h : ∀ r < hd.bmpRows, (hd.bmpRow r).Inside f.size
      (if env.allocImage then hd.imgsiz % 2 ^ 32 else 0)) :
        hd.imgsiz % 2 ^ 32 = 0 ∨ PixelsInFile env f hd (hd.imgsiz % 2 ^ 32) := by
    have hone := h 0 (by rw [hrows]; exact Nat.one_pos)
    rw [bmpRow_down hdown] at hone
    rcases hone with hzero | ⟨hsrc, hdst⟩
    · exact .inl hzero
    · dsimp only at hsrc hdst
      by_cases halloc : env.allocImage = true
      · exact .inr ⟨halloc, hsrc⟩
      · rw [if_neg halloc] at hdst
        exact .inl (by omega)
  have hout (h : hd.imgsiz % 2 ^ 32 = 0 ∨ PixelsInFile env f hd (hd.imgsiz % 2 ^ 32)) :
      ∀ r < hd.bmpRows, (hd.bmpRow r).Inside f.size
        (if env.allocImage then hd.imgsiz % 2 ^ 32 else 0) := by
    intro r _
    rw [bmpRow_down hdown]
    refine h.imp id fun ⟨halloc, hstart, hend⟩ => ?_
    rw [if_pos halloc]
    exact ⟨⟨hstart, hend⟩, Int.le_refl 0, by rw [Int.zero_add]⟩
  have harea : hd.imgsiz % 2 ^ 32 = |hd.height| * (4 * hd.width) % 2 ^ 32 := by
    rw [imgsiz_emod, Int.mul_assoc, Int.mul_comm hd.width 4]
  have hhigh := abs_height_nonneg hd
  unfold CopiesSafely PixelsFit
  rw [if_neg hdown]
  constructor
  · rintro ⟨hinside, hstores⟩
    have hfit := hin hinside
    split
    · rename_i hw
      by_cases hzero : hd.height = 0
      · exact .inl hzero
      · -- the last byte of the last row is stored, so that the product does not wrap
        have hpos : 0 < |hd.height| := abs_pos.mpr hzero
        have hlast : (|hd.height| - 1) * (4 * hd.width) + (4 * hd.width - 1) =
            |hd.height| * (4 * hd.width) - 1 := by
          rw [Int.sub_mul, Int.one_mul]
          omega
        obtain ⟨v, -, hv⟩ := hstores (|hd.height| - 1) (4 * hd.width - 1) (by omega) (by omega)
          (by omega) (by omega)
        rw [hlast, image_down hdown] at hv
        have hle : |hd.height| * (4 * hd.width) % 2 ^ 32 ≤ |hd.height| * (4 * hd.width) :=
          emod_le_self (Int.mul_nonneg hhigh (by omega))
        split at hv
        · rename_i hk
          have hn : hd.imgsiz % 2 ^ 32 = |hd.height| * (4 * hd.width) := by omega
          rw [hn] at hfit
          exact .inr (hfit.resolve_left (by omega))
        · cases hv
    · exact hfit
  · intro hfit
    split at hfit
    · rename_i hw
      rcases hfit with hzero | hfit
      · have hn : hd.imgsiz % 2 ^ 32 = 0 := by
          rw [harea, hzero, abs_zero, Int.zero_mul]
          rfl
        refine ⟨hout (.inl hn), fun r j hr0 hr1 => ?_⟩
        rw [hzero, abs_zero] at hr1
        omega
      · have hnat := Int.mul_nonneg hhigh (show 0 ≤ 4 * hd.width by omega)
        have hn : hd.imgsiz % 2 ^ 32 = |hd.height| * (4 * hd.width) := by
          have hlt : |hd.height| * (4 * hd.width) < 2 ^ 32 := by
            have hend := hfit.2.2
            have hstart := hfit.2.1
            omega
          rw [harea, Int.emod_eq_of_lt hnat hlt]
        rw [← hn] at hfit
        exact ⟨hout (.inr hfit), stores_down hdown hn hfit⟩
    · rename_i hw
      exact ⟨hout hfit, fun r j _ _ hj0 hj1 => absurd hj1 (by omega)⟩

end Safe

/-- For every file of every content and whatever the buffers hold and memory is found: the file is
rejected, or only bytes of the file are read, only bytes of the allocated buffer are written and the
picture has the rows of the file from the top, exactly if the file has no magic number, no memory is
found for it, or it has a whole header and the pixels that the header describes. -/
theorem parsePicBmp_safe_iff (env : BmpEnv) (f : BmpFile) :
    LoadsSafely env f ↔ (f.imgHeader env).magic ≠ 0x4d42 ∨ env.allocFile = false ∨
      26 ≤ f.bytes.length ∧ PixelsFit env f (f.imgHeader env) := by
  have hcopies : CopiesSafely env f (f.imgHeader env) ↔ PixelsFit env f (f.imgHeader env) := by
    by_cases hup : 0 < (f.imgHeader env).height
    · exact copiesSafely_up hup
    · exact copiesSafely_down hup
  have hheader : (∀ h ∈ [(0, 2), (18, 4), (22, 4), (10, 2)], h.1 + h.2 ≤ f.bytes.length) ↔
      26 ≤ f.bytes.length := by
    simp only [List.forall_mem_cons, List.not_mem_nil, false_implies, implies_true, and_true]
    omega
  rw [← hcopies]
  unfold LoadsSafely parsePicBmp CopiesSafely
  generalize f.imgHeader env = hd
  dsimp only
  by_cases hmagic : hd.magic ≠ 0x4d42
  · rw [if_pos hmagic]
    exact iff_of_true (fun h => nomatch h) (.inl hmagic)
  rw [if_neg hmagic]
  by_cases halloc : env.allocFile = false
  · rw [if_pos halloc]
    exact iff_of_true (fun h => nomatch h) (.inr (.inl halloc))
  rw [if_neg halloc, or_iff_right hmagic, or_iff_right halloc]
  dsimp only
  rw [hheader]
  simp only [List.forall_mem_map, List.mem_range, forall_const]

/-- A file with the header of a picture of one row of `width` pixels, `n` pixels behind it and
nothing else. -/
def oneRow (width n : Nat) (h : n < 2 ^ 20) : BmpFile where
  bytes := leBytes 2 0x4d42 ++ List.replicate 8 0 ++ leBytes 2 26 ++ List.replicate 6 0 ++
    leBytes 4 width ++ leBytes 4 1 ++ List.replicate (4 * n) 7
  size_lt := by
    simp only [List.length_append, List.length_replicate, length_leBytes]
    omega

/-- A file of one pixel less than its header says is not rejected, and read behind its end. -/
theorem shortFile_readsPast :
    (parsePicBmp ⟨fun _ => 0, true, true⟩ (oneRow 2 1 (by decide))).accepted = true ∧
      ¬ LoadsSafely ⟨fun _ => 0, true, true⟩ (oneRow 2 1 (by decide)) := by
  refine ⟨by decide +kernel, fun h => ?_⟩
  have hinside := (h (by decide +kernel)).2.1
  revert hinside
  decide +kernel

end Novo7

import Novo7.Machine
import Novo7.Bytes

/-!
# Extracting a boot image

`fastboot_img_dump -e` copies the kernel and the ramdisk of a boot image into files. The image is
laid out in pages: the header has one, the kernel follows, and the ramdisk starts at the first page
behind the kernel. `main` computes that place without a division, and `extract_img` copies by reads
of any length over whatever the output file held. `extractImages_follows_iff` says when both come
out right.
-/

namespace Novo7

open Machine Bytes

/-! ## The program -/

/-- The fields of `struct fastboot_boot_img_hdr` that the extraction uses. -/
structure FastbootHdr where
  kernelSize : Nat
  ramdiskSize : Nat
  pageSize : Nat
  deriving Repr, DecidableEq

/-- The header after a read of `n` bytes of the file: what is missing stays zero. -/
def readHeader (file : List UInt8) (n : Nat) : FastbootHdr :=
  let hdr := file.take n ++ List.replicate 608 0
  ⟨field hdr 8 4, field hdr 16 4, field hdr 36 4⟩

/-- What the operating system does at the calls of one extraction: how many bytes the `k`-th read
gives at most (or that it fails), whether the output file can be opened, and how many bytes the
`k`-th write takes. -/
structure Os where
  reads : Nat → Option Nat
  opens : Bool
  writes : Nat → Nat

/-- `read` of at most `request` bytes at a place in the file. It gives at least one byte unless it
is at the end. -/
def Os.read (os : Os) (k : Nat) (file : List UInt8) (pos request : Nat) : Option (List UInt8) :=
  (os.reads k).map fun n => (file.drop pos).take (min (max 1 n) request)

/-- `write` at a place in a file. -/
def writeAt (out : List UInt8) (pos : Nat) (data : List UInt8) : List UInt8 :=
  out.take pos ++ data ++ out.drop (pos + data.length)

/-- `while (rd > 0)` of `extract_img`: `data` is what the last read gave, `pos` the place behind
it, `size` what is to be copied, `written` the place in the output. -/
def extractLoop (os : Os) (file : List UInt8) :
    Nat → Nat → Nat → Nat → Nat → List UInt8 → List UInt8 → List UInt8
  | 0, _, _, _, _, _, out => out
  | fuel + 1, k, pos, size, written, data, out =>
    if data = [] then out
    else
      let out' := writeAt out written (data.take (os.writes k))
      if (data.take (os.writes k)).length ≠ data.length then out'
      else if size - data.length > 0 then
        match os.read (k + 1) file pos (min 32768 (size - data.length)) with
        | none => out'
        | some data' =>
          extractLoop os file fuel (k + 1) (pos + data'.length) (size - data.length)
            (written + data.length) data' out'
      else out'

/-- `extract_img`, from the output file before it (if there is one) to that after it. -/
def extractImg (os : Os) (file : List UInt8) (offset size : Nat) (old : Option (List UInt8)) :
    Option (List UInt8) :=
  if size = 0 then old
  else
    match os.read 0 file offset (min 32768 size) with
    | none => old
    | some data =>
      if data = [] then old
      else if os.opens then
        some (extractLoop os file size 0 (offset + data.length) size 0 data (old.getD []))
      else old

namespace FastbootHdr

def kernelOffset (hdr : FastbootHdr) : Nat := hdr.pageSize

/-- `2 * hdr.page_size + hdr.kernel_size - hdr.kernel_size % hdr.page_size` -/
def ramdiskOffset (hdr : FastbootHdr) : Nat :=
  sub32 (u32 (u32 (2 * hdr.pageSize) + hdr.kernelSize)) (hdr.kernelSize % hdr.pageSize)

end FastbootHdr

/-- `main` with `-e`: the two output files. -/
def extractImages (kernelOs ramdiskOs : Os) (hdr : FastbootHdr) (file : List UInt8)
    (oldKernel oldRamdisk : Option (List UInt8)) : Option (List UInt8) × Option (List UInt8) :=
  if hdr.pageSize > 0 then
    (extractImg kernelOs file hdr.kernelOffset hdr.kernelSize oldKernel,
      extractImg ramdiskOs file hdr.ramdiskOffset hdr.ramdiskSize oldRamdisk)
  else (oldKernel, oldRamdisk)

/-! ## The layout -/

namespace FastbootHdr

/-- The pages of the kernel. -/
def kernelPages (hdr : FastbootHdr) : Nat := (hdr.kernelSize + hdr.pageSize - 1) / hdr.pageSize

/-- The first byte behind the pages of the header and the kernel. -/
def ramdiskStart (hdr : FastbootHdr) : Nat := hdr.pageSize * (1 + hdr.kernelPages)

/-- The file has all bytes of both images. -/
def Whole (hdr : FastbootHdr) (file : List UInt8) : Prop :=
  hdr.pageSize + hdr.kernelSize ≤ file.length ∧ hdr.ramdiskStart + hdr.ramdiskSize ≤ file.length

/-- The fields of a header are 32-bit words. -/
structure Words (hdr : FastbootHdr) : Prop where
  kernel : hdr.kernelSize < 2 ^ 32
  ramdisk : hdr.ramdiskSize < 2 ^ 32
  page : hdr.pageSize < 2 ^ 32

end FastbootHdr

theorem readHeader_words (file : List UInt8) (n : Nat) : (readHeader file n).Words :=
  ⟨field_lt _ 8 4, field_lt _ 16 4, field_lt _ 36 4⟩

/-- The kernel is taken from the second page and the ramdisk from the page behind the kernel, and
of a file that is long enough each output has exactly the bytes of the image. -/
structure FollowsLayout (kernelOs ramdiskOs : Os) (hdr : FastbootHdr) (file : List UInt8)
    (oldKernel oldRamdisk : Option (List UInt8)) : Prop where
  kernelAt : hdr.kernelOffset = hdr.pageSize
  ramdiskAt : hdr.ramdiskSize ≠ 0 → hdr.ramdiskOffset = hdr.ramdiskStart
  kernel : hdr.Whole file →
    ((extractImages kernelOs ramdiskOs hdr file oldKernel oldRamdisk).1.getD []) =
      (file.drop hdr.pageSize).take hdr.kernelSize
  ramdisk : hdr.Whole file →
    ((extractImages kernelOs ramdiskOs hdr file oldKernel oldRamdisk).2.getD []) =
      (file.drop hdr.ramdiskStart).take hdr.ramdiskSize

/-- No call fails: reads give something, the output opens and takes a whole buffer. -/
structure Os.Works (os : Os) : Prop where
  reads : ∀ k, os.reads k ≠ none
  opens : os.opens = true
  writes : ∀ k, 32768 ≤ os.writes k

/-! ## The place of the ramdisk -/

section Offset

variable {hdr : FastbootHdr}

theorem ramdiskOffset_eq (hw : hdr.Words) :
    hdr.ramdiskOffset =
      u32 (2 * hdr.pageSize + (hdr.kernelSize - hdr.kernelSize % hdr.pageSize)) := by
  have hmod := Nat.mod_le hdr.kernelSize hdr.pageSize
  have hkernel := hw.kernel
  unfold FastbootHdr.ramdiskOffset sub32 u32
  generalize hdr.kernelSize % hdr.pageSize = r at hmod ⊢
  omega

/-- The pages of the kernel, whole ones and the rest. -/
theorem ramdiskStart_eq (hpage : 0 < hdr.pageSize) :
    hdr.ramdiskStart = hdr.pageSize + (hdr.kernelSize - hdr.kernelSize % hdr.pageSize) +
      if hdr.kernelSize % hdr.pageSize = 0 then 0 else hdr.pageSize := by
  have hdiv := Nat.div_add_mod hdr.kernelSize hdr.pageSize
  have hlt := Nat.mod_lt hdr.kernelSize hpage
  have hwhole : hdr.kernelSize - hdr.kernelSize % hdr.pageSize =
      hdr.pageSize * (hdr.kernelSize / hdr.pageSize) := by omega
  unfold FastbootHdr.ramdiskStart FastbootHdr.kernelPages
  rw [hwhole, Nat.mul_add, Nat.mul_one]
  by_cases hrest : hdr.kernelSize % hdr.pageSize = 0
  · have hpages : (hdr.kernelSize + hdr.pageSize - 1) / hdr.pageSize =
        hdr.kernelSize / hdr.pageSize := by
      refine Nat.div_eq_of_lt_le ?_ ?_
      · rw [Nat.mul_comm]
        omega
      · rw [Nat.succ_mul, Nat.mul_comm]
        omega
    rw [if_pos hrest, hpages, Nat.add_zero]
  · have hpages : (hdr.kernelSize + hdr.pageSize - 1) / hdr.pageSize =
        hdr.kernelSize / hdr.pageSize + 1 := by
      refine Nat.div_eq_of_lt_le ?_ ?_
      · rw [Nat.succ_mul, Nat.mul_comm]
        omega
      · rw [Nat.succ_mul, Nat.succ_mul, Nat.mul_comm]
        omega
    rw [if_neg hrest, hpages, Nat.mul_add, Nat.mul_one]
    omega

/-- The place is a page too far for a kernel of whole pages, and wraps around at `2 ^ 32`. -/
theorem ramdiskOffset_eq_iff (hw : hdr.Words) (hpage : 0 < hdr.pageSize) :
    hdr.ramdiskOffset = hdr.ramdiskStart ↔
      hdr.kernelSize % hdr.pageSize ≠ 0 ∧ hdr.ramdiskStart < 2 ^ 32 := by
  have hlt := hw.page
  rw [ramdiskOffset_eq hw, ramdiskStart_eq hpage]
  generalize hdr.kernelSize - hdr.kernelSize % hdr.pageSize = n
  unfold u32
  by_cases hrest : hdr.kernelSize % hdr.pageSize = 0
  · rw [if_pos hrest]
    omega
  · rw [if_neg hrest]
    omega

end Offset

/-! ## The copy -/

section Copy

variable {os : Os} {file : List UInt8}

theorem writeAt_writeAt {out data data' : List UInt8} {pos : Nat} (h : pos ≤ out.length) :
    writeAt (writeAt out pos data) (pos + data.length) data' = writeAt out pos (data ++ data') := by
  have hlen : (out.take pos ++ data).length = pos + data.length := by
    rw [List.length_append, List.length_take, Nat.min_eq_left h]
  have hrest : (out.take pos ++ data ++ out.drop (pos + data.length)).drop
      (pos + data.length + data'.length) = out.drop (pos + (data ++ data').length) := by
    rw [← hlen, List.drop_append, List.drop_of_length_le (by omega), List.nil_append,
      Nat.add_sub_cancel_left, List.drop_drop, hlen, List.length_append, Nat.add_assoc]
  unfold writeAt
  rw [hrest, List.take_left' hlen, List.append_assoc (out.take pos) data data']

theorem length_writeAt {out data : List UInt8} {pos : Nat} (h : pos ≤ out.length) :
    pos + data.length ≤ (writeAt out pos data).length := by
  unfold writeAt
  rw [List.length_append, List.length_append, List.length_take, Nat.min_eq_left h]
  omega

/-- A read inside the file gives some of its bytes. -/
theorem Os.read_works (hos : os.Works) (k : Nat) {pos request : Nat} (hpos : 0 < request)
    (hin : pos + request ≤ file.length) :
    ∃ m, 0 < m ∧ m ≤ request ∧ os.read k file pos request = some ((file.drop pos).take m) ∧
      ((file.drop pos).take m).length = m := by
  obtain ⟨n, hn⟩ := Option.ne_none_iff_exists'.mp (hos.reads k)
  refine ⟨min (max 1 n) request, by omega, by omega, ?_, ?_⟩
  · rw [Os.read, hn, Option.map_some]
  · rw [List.length_take, List.length_drop]
    omega

/-- The loop copies the rest of the image, however it is read. -/
theorem extractLoop_eq (hos : os.Works) (fuel : Nat) : ∀ (k start size written : Nat)
    (data out : List UInt8), start + size ≤ file.length → written ≤ out.length →
    data = (file.drop start).take data.length → 0 < data.length → data.length ≤ 32768 →
    data.length ≤ size → size ≤ fuel →
    extractLoop os file fuel k (start + data.length) size written data out =
      writeAt out written ((file.drop start).take size) := by
  induction fuel with
  | zero => intro k start size written data out _ _ _ hpos _ hle hfuel; omega
  | succ fuel ih =>
      intro k start size written data out hin hwritten hdata hpos hbuf hle hfuel
      have hwrites := hos.writes k
      have hall : data.take (os.writes k) = data := List.take_of_length_le (by omega)
      unfold extractLoop
      dsimp only
      rw [if_neg (List.ne_nil_of_length_pos hpos), hall, if_neg (by simp)]
      by_cases hmore : size - data.length > 0
      · obtain ⟨m, hm, hmle, hread, hlen⟩ := @Os.read_works os file hos (k + 1)
          (start + data.length) (min 32768 (size - data.length)) (by omega) (by omega)
        have hnext := ih (k + 1) (start + data.length) (size - data.length) (written + data.length)
          ((file.drop (start + data.length)).take m) (writeAt out written data) (by omega)
          (length_writeAt hwritten) (by rw [hlen]) (by omega) (by omega) (by omega) (by omega)
        rw [if_pos hmore, hread]
        dsimp only
        rw [hnext, writeAt_writeAt hwritten]
        congr 1
        have hsplit : size = data.length + (size - data.length) := by omega
        rw [hsplit, List.take_add, ← hdata, List.drop_drop]
        congr 2
        omega
      · rw [if_neg hmore, show size = data.length by omega, ← hdata]

/-- The image, over what the output file held. -/
theorem extractImg_eq (hos : os.Works) {offset size : Nat} (hpos : 0 < size)
    (hin : offset + size ≤ file.length) (old : Option (List UInt8)) :
    extractImg os file offset size old =
      some ((file.drop offset).take size ++ (old.getD []).drop size) := by
  obtain ⟨m, hm, hmle, hread, hlen⟩ := @Os.read_works os file hos 0 offset (min 32768 size)
    (by omega) (by omega)
  have hloop := extractLoop_eq hos size 0 offset size 0 ((file.drop offset).take m) (old.getD [])
    hin (Nat.zero_le _) (by rw [hlen]) (by omega) (by omega) (by omega) (Nat.le_refl _)
  unfold extractImg
  rw [if_neg (by omega), hread]
  dsimp only
  rw [if_neg (List.ne_nil_of_length_pos (by omega)), if_pos hos.opens, hloop, writeAt, List.take_zero,
    List.nil_append, Nat.zero_add, List.length_take, List.length_drop,
    Nat.min_eq_left (by omega)]

/-- Exactly the image, if the file held no more before. -/
theorem extractImg_exact_iff (hos : os.Works) {offset size : Nat}
    (hin : offset + size ≤ file.length) (old : Option (List UInt8)) :
    (extractImg os file offset size old).getD [] = (file.drop offset).take size ↔
      (old.getD []).length ≤ size := by
  by_cases hzero : size = 0
  · rw [extractImg, if_pos hzero, hzero, List.take_zero, Nat.le_zero, List.length_eq_zero_iff]
  · rw [extractImg_eq hos (Nat.pos_of_ne_zero hzero) hin, Option.getD_some,
      List.append_right_eq_self, List.drop_eq_nil_iff]

end Copy

/-! ## The law -/

/-- For a header with a page size, and calls that do not fail: the layout is followed exactly if
the kernel does not fill its last page and the ramdisk starts below `2 ^ 32` (where there is a
ramdisk), and no output file was longer than its image (where the file is long enough). -/
theorem extractImages_follows_iff (kernelOs ramdiskOs : Os) (file : List UInt8) (n : Nat)
    (oldKernel oldRamdisk : Option (List UInt8)) (hpage : 0 < (readHeader file n).pageSize)
    (hkernel : kernelOs.Works) (hramdisk : ramdiskOs.Works) :
    FollowsLayout kernelOs ramdiskOs (readHeader file n) file oldKernel oldRamdisk ↔
      ((readHeader file n).ramdiskSize ≠ 0 →
        (readHeader file n).kernelSize % (readHeader file n).pageSize ≠ 0 ∧
          (readHeader file n).ramdiskStart < 2 ^ 32) ∧
      ((readHeader file n).Whole file →
        (oldKernel.getD []).length ≤ (readHeader file n).kernelSize ∧
          (oldRamdisk.getD []).length ≤ (readHeader file n).ramdiskSize) := by
  have hw := readHeader_words file n
  generalize readHeader file n = hdr at hpage hw ⊢
  have hat : (hdr.ramdiskSize ≠ 0 → hdr.ramdiskOffset = hdr.ramdiskStart) ↔
      (hdr.ramdiskSize ≠ 0 → hdr.kernelSize % hdr.pageSize ≠ 0 ∧ hdr.ramdiskStart < 2 ^ 32) :=
    forall_congr' fun _ => ramdiskOffset_eq_iff hw hpage
  have hfirst (hwhole : hdr.Whole file) :
      (extractImages kernelOs ramdiskOs hdr file oldKernel oldRamdisk).1.getD [] =
          (file.drop hdr.pageSize).take hdr.kernelSize ↔
        (oldKernel.getD []).length ≤ hdr.kernelSize := by
    rw [extractImages, if_pos hpage]
    exact extractImg_exact_iff hkernel hwhole.1 oldKernel
  have hsecond (hplace : hdr.ramdiskSize ≠ 0 → hdr.ramdiskOffset = hdr.ramdiskStart)
      (hwhole : hdr.Whole file) :
      (extractImages kernelOs ramdiskOs hdr file oldKernel oldRamdisk).2.getD [] =
          (file.drop hdr.ramdiskStart).take hdr.ramdiskSize ↔
        (oldRamdisk.getD []).length ≤ hdr.ramdiskSize := by
    rw [extractImages, if_pos hpage, ← extractImg_exact_iff hramdisk hwhole.2 oldRamdisk]
    dsimp only
    by_cases hzero : hdr.ramdiskSize = 0
    · have hskip (offset : Nat) :
          extractImg ramdiskOs file offset hdr.ramdiskSize oldRamdisk = oldRamdisk := if_pos hzero
      rw [hskip, hskip]
    · rw [hplace hzero]
  rw [← hat]
  constructor
  · rintro ⟨-, hplace, hk, hr⟩
    exact ⟨hplace, fun hwhole => ⟨(hfirst hwhole).mp (hk hwhole),
      (hsecond hplace hwhole).mp (hr hwhole)⟩⟩
  · rintro ⟨hplace, hold⟩
    exact ⟨rfl, hplace, fun hwhole => (hfirst hwhole).mpr (hold hwhole).1,
      fun hwhole => (hsecond hplace hwhole).mpr (hold hwhole).2⟩

/-- Every call does all it is asked for. -/
def wholeOs : Os := ⟨fun _ => some 32768, true, fun _ => 32768⟩

theorem wholeOs_works : wholeOs.Works :=
  ⟨fun _ => by simp [wholeOs], rfl, fun _ => Nat.le_refl _⟩

/-- An image of pages of 64 bytes with a kernel of `kernel` bytes and a ramdisk of one. -/
def smallImage (kernel : UInt8) : List UInt8 :=
  [0x41, 0x4e, 0x44, 0x52, 0x4f, 0x49, 0x44, 0x21, kernel, 0, 0, 0, 0, 0, 0, 0, 1, 0, 0, 0] ++
    List.replicate 16 0 ++ [64, 0, 0, 0] ++ List.replicate 24 0 ++
    List.replicate 64 7 ++ List.replicate 64 9 ++ List.replicate 64 3

theorem extractImages_follows_iff_small :
    FollowsLayout wholeOs wholeOs (readHeader (smallImage 60) 256) (smallImage 60) none none :=
  (extractImages_follows_iff wholeOs wholeOs (smallImage 60) 256 none none (by decide +kernel)
    wholeOs_works wholeOs_works).mpr
    ⟨fun _ => by decide +kernel, fun _ => ⟨Nat.zero_le _, Nat.zero_le _⟩⟩

/-- A kernel of one whole page: the ramdisk is taken from the page behind its own. -/
theorem wholePage_shifted :
    (readHeader (smallImage 64) 256).ramdiskOffset = 192 ∧
      (readHeader (smallImage 64) 256).ramdiskStart = 128 ∧
      (extractImages wholeOs wholeOs (readHeader (smallImage 64) 256) (smallImage 64) none none).2 =
        some [3] ∧
      ¬ FollowsLayout wholeOs wholeOs (readHeader (smallImage 64) 256) (smallImage 64) none none := by
  have hoffset : (readHeader (smallImage 64) 256).ramdiskOffset = 192 := by decide +kernel
  have hstart : (readHeader (smallImage 64) 256).ramdiskStart = 128 := by decide +kernel
  refine ⟨hoffset, hstart, by decide +kernel, fun h => ?_⟩
  have hplace := h.ramdiskAt (by decide +kernel)
  rw [hoffset, hstart] at hplace
  exact absurd hplace (by decide)

end Novo7

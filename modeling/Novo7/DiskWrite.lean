import Mathlib.Data.List.Nodup
import Novo7.DiskRead

/-!
# Writing a disk

`cmd_diskwrite` copies a file into a partition. What each `read` returns is padded to whole sectors
and written behind the sectors of the reads before it, so that the padding is right only if no read
but the last ends inside a sector. `diskwrite_stores_iff` says for which partitions, offsets and
lengths of the reads the partition holds the file afterwards, whatever its bytes are, and no other
sector is written.
-/

namespace Novo7

open Machine Buffer CNumber

/-! ## The writes -/

/-- A `write_disk` call with its bytes. -/
structure DiskWrite where
  area : FlashMemoryArea
  firstSector : Nat
  count : Nat
  data : List UInt8
  deriving Repr, DecidableEq

/-- The bytes of one sector. -/
def sectorOf (data : List UInt8) (j : Nat) : List UInt8 := (data.drop (512 * j)).take 512

/-- The sectors of a write, with what each is to hold. -/
def DiskWrite.stores (w : DiskWrite) : List (Nat × List UInt8) :=
  (List.range w.count).map fun j => ((w.firstSector + j) % 2 ^ 64, sectorOf w.data j)

/-- The disk after a write. -/
def DiskWrite.run (disk : DiskContents (List UInt8)) (w : DiskWrite) :
    DiskContents (List UInt8) :=
  Function.update disk w.area (puts (disk w.area) w.stores)

/-- The disk after some writes. -/
def afterWrites (disk : DiskContents (List UInt8)) (writes : List DiskWrite) :
    DiskContents (List UInt8) :=
  writes.foldl DiskWrite.run disk

/-! ## The program -/

/-- The buffer of `cmd_diskwrite`: a block, where that is more. -/
def diskwriteBufsize (props : FlashmemProperties) (fmarea : FlashMemoryArea) : Nat :=
  let blocksize := toInt32 (u32 (512 * (props.areas fmarea.index).sectorsPerPage *
    props.pagesPerBlock))
  if fmarea ≠ .logdisk ∧ blocksize > 0x80000 then blocksize.toNat else 0x80000

/-- What was read, padded to whole sectors. -/
def padSector (buf : List UInt8) : List UInt8 :=
  if buf.length % 512 ≠ 0 then buf ++ List.replicate (512 - buf.length % 512) 0xff else buf

/-- `while( (rd = read(fd, buf, bufsize)) > 0 )` -/
def diskwriteLoop (fmarea : FlashMemoryArea) (toWrMax : Nat) :
    Nat → Nat → List (List UInt8) → List DiskWrite
  | _, _, [] => []
  | firstSector, count, rd :: reads =>
    let buf := padSector rd
    let toWr := buf.length / 512
    if (toWr + count) % 2 ^ 64 > toWrMax then
      if toWrMax > count then
        [⟨fmarea, firstSector, toWrMax - count, buf.take (512 * (toWrMax - count))⟩]
      else []
    else
      ⟨fmarea, firstSector, toWr, buf⟩ :: diskwriteLoop fmarea toWrMax
        ((firstSector + toWr) % 2 ^ 64) ((count + toWr) % 2 ^ 64) reads

/-- The part of `cmd_diskwrite` behind its checks; `file` is what the calls of `read` return. -/
def diskwriteRange (range : PartitionRange) (partOffset : Nat) (file : Option (List (List UInt8))) :
    List DiskWrite × Option DiskError :=
  match file with
  | none => ([], some .openFailed)
  | some reads => (diskwriteLoop range.area (range.sectorCount - partOffset)
      ((range.firstSector + partOffset) % 2 ^ 64) 0 reads, none)

/-- `cmd_diskwrite` -/
def cmdDiskwrite (response mbr : List UInt8) (file : Option (List (List UInt8))) :
    List (List UInt8) → List DiskWrite × Option DiskError
  | [partName, _] =>
    match getParitionParams response mbr partName with
    | .error e => ([], some (.lookup e))
    | .ok range => diskwriteRange range 0 file
  | [partName, offset, _] =>
    match getParitionParams response mbr partName with
    | .error e => ([], some (.lookup e))
    | .ok range =>
      if kilobytes offset > range.sectorCount then ([], some .beyond)
      else diskwriteRange range (kilobytes offset) file
  | _ => ([], some .parameters)

/-! ## What the disk should hold -/

/-- The sectors that `n` bytes take. -/
def sectorsFor (n : Nat) : Nat := (n + 511) / 512

/-- A file with the rest of its last sector filled. -/
def padFile (file : List UInt8) : List UInt8 :=
  file ++ List.replicate (512 * sectorsFor file.length - file.length) 0xff

/-- How many sectors of the file the partition takes from `first` on. -/
def takenSectors (range : PartitionRange) (first : Nat) (len : Nat) : Nat :=
  min (sectorsFor len) (range.sectorCount - first)

/-- No other sectors are written, and these hold the file. -/
structure StoresFile (disk : DiskContents (List UInt8)) (range : PartitionRange) (first : Nat)
    (file : List UInt8) (writes : List DiskWrite) : Prop where
  inside : ∀ w ∈ writes, w.area = range.area ∧ ∀ s ∈ w.stores,
    range.firstSector + first ≤ s.1 ∧
      s.1 < range.firstSector + first + takenSectors range first file.length
  stored : ∀ j < takenSectors range first file.length,
    afterWrites disk writes range.area (range.firstSector + first + j) = sectorOf (padFile file) j

/-- The arguments of a command with and without an offset. -/
def diskwriteArgs (partName : List UInt8) (offset : Option (List UInt8)) (fname : List UInt8) :
    List (List UInt8) :=
  match offset with
  | none => [partName, fname]
  | some text => [partName, text, fname]

/-- The first sector of the partition that is meant. -/
def diskwriteFirst : Option (List UInt8) → Nat
  | none => 0
  | some text => 2 * (strtoull text).1

/-- Up to the end of the partition, every read but the last one is of whole sectors; and the
count of the read that is cut is a 64-bit word. -/
def ReadsFit (toWrMax : Nat) : Nat → List Nat → Prop
  | _, [] => True
  | count, len :: lens =>
    if toWrMax < count + sectorsFor len then count + sectorsFor len < 2 ^ 64
    else (lens = [] ∨ 512 ∣ len) ∧ ReadsFit toWrMax (count + sectorsFor len) lens

/-- The partition holds the file: nothing is written and nothing to be written, or the offset is
in the partition as a number, the reads fit, and the sectors have 64-bit numbers. -/
def WritesFit (range : PartitionRange) (first : Nat) (lens : List Nat) : Prop :=
  range.sectorCount ≤ first % 2 ^ 64 ∨ lens = [] ∨
    first ≤ range.sectorCount ∧ ReadsFit (range.sectorCount - first) 0 lens ∧
      range.firstSector + first + takenSectors range first lens.sum ≤ 2 ^ 64

/-! ## Sectors -/

theorem sectorsFor_bounds (n : Nat) : n ≤ 512 * sectorsFor n ∧ 512 * sectorsFor n < n + 512 := by
  unfold sectorsFor
  omega

theorem padFile_length (file : List UInt8) : (padFile file).length = 512 * sectorsFor file.length := by
  have h := sectorsFor_bounds file.length
  rw [padFile, List.length_append, List.length_replicate]
  omega

theorem padSector_eq (buf : List UInt8) : padSector buf = padFile buf := by
  unfold padSector padFile sectorsFor
  split
  · rw [show 512 * ((buf.length + 511) / 512) - buf.length = 512 - buf.length % 512 by omega]
  · rw [show 512 * ((buf.length + 511) / 512) - buf.length = 0 by omega]
    exact (List.append_nil buf).symm

theorem padSector_sectors (buf : List UInt8) :
    (padSector buf).length / 512 = sectorsFor buf.length := by
  rw [padSector_eq, padFile_length, Nat.mul_div_cancel_left _ (by decide)]

/-- Whole sectors in front of a file. -/
theorem padFile_append {rd : List UInt8} (h : 512 ∣ rd.length) (file : List UInt8) :
    padFile (rd ++ file) = rd ++ padFile file := by
  obtain ⟨n, hn⟩ := h
  have hsectors : 512 * sectorsFor (rd ++ file).length - (rd ++ file).length =
      512 * sectorsFor file.length - file.length := by
    rw [List.length_append, hn]
    unfold sectorsFor
    omega
  unfold padFile
  rw [hsectors, List.append_assoc]

theorem padFile_whole {rd : List UInt8} (h : 512 ∣ rd.length) : padFile rd = rd := by
  have hempty := padFile_append h []
  rwa [List.append_nil, show padFile [] = [] from rfl, List.append_nil] at hempty

/-- Bytes of a sector that is full of the file. -/
theorem padFile_take {file : List UInt8} {n : Nat} (h : n ≤ file.length) :
    (padFile file).take n = file.take n := List.take_append_of_le_length h

theorem sectorOf_get (data : List UInt8) (i : Nat) :
    (sectorOf data (i / 512))[i % 512]? = data[i]? := by
  have hlt := Nat.mod_lt i (show 512 > 0 by decide)
  rw [sectorOf, List.getElem?_take_of_lt hlt, List.getElem?_drop, Nat.div_add_mod]

/-- Bytes of whole sectors are known from their sectors. -/
theorem sectors_ext {a b : List UInt8} {n : Nat} (ha : a.length = 512 * n) (hb : b.length = 512 * n)
    (h : ∀ j < n, sectorOf a j = sectorOf b j) : a = b := by
  refine List.ext_getElem? fun i => ?_
  by_cases hi : i < 512 * n
  · rw [← sectorOf_get a, ← sectorOf_get b, h (i / 512) (by omega)]
  · rw [List.getElem?_eq_none (by omega), List.getElem?_eq_none (by omega)]

theorem sectorOf_take {data : List UInt8} {n j : Nat} (h : j < n) :
    sectorOf (data.take (512 * n)) j = sectorOf data j := by
  rw [sectorOf, sectorOf, List.drop_take, List.take_take, Nat.min_eq_left (by omega)]

/-! ## The loop -/

/-- The sectors of a run of bytes, from `start` on. -/
def sectorsFrom (start : Nat) (data : List UInt8) : List (Nat × List UInt8) :=
  (List.range (data.length / 512)).map fun j => ((start + j) % 2 ^ 64, sectorOf data j)

theorem sectorsFrom_append {a b : List UInt8} {n : Nat} (ha : a.length = 512 * n) (start : Nat) :
    sectorsFrom start (a ++ b) = sectorsFrom start a ++ sectorsFrom ((start + n) % 2 ^ 64) b := by
  have hlen : (a ++ b).length / 512 = a.length / 512 + b.length / 512 := by
    rw [List.length_append, ha]
    omega
  have hn : a.length / 512 = n := by omega
  unfold sectorsFrom
  rw [hlen, List.range_add, List.map_append, List.map_map, hn]
  congr 1
  · refine List.map_congr_left fun j hj => Prod.ext rfl ?_
    have hlt := List.mem_range.mp hj
    show sectorOf (a ++ b) j = sectorOf a j
    rw [← sectorOf_take hlt, List.take_append_of_le_length (by omega), sectorOf_take hlt]
  · refine List.map_congr_left fun j _ => Prod.ext ?_ ?_
    · exact (shifted_word start n j).symm
    · show sectorOf (a ++ b) (n + j) = sectorOf b j
      rw [sectorOf, List.drop_append, List.drop_of_length_le (by omega), List.nil_append, sectorOf,
        show 512 * (n + j) - a.length = 512 * j by omega]

/-- The bytes that a run of the loop writes, one behind the other. -/
def storedBytes (toWrMax : Nat) : Nat → List (List UInt8) → List UInt8
  | _, [] => []
  | count, rd :: reads =>
    if (sectorsFor rd.length + count) % 2 ^ 64 > toWrMax then
      (padFile rd).take (512 * (toWrMax - count))
    else padFile rd ++ storedBytes toWrMax ((count + sectorsFor rd.length) % 2 ^ 64) reads

theorem storedBytes_length (toWrMax : Nat) (reads : List (List UInt8)) :
    ∀ count, 512 ∣ (storedBytes toWrMax count reads).length := by
  induction reads with
  | nil => exact fun _ => ⟨0, rfl⟩
  | cons rd reads ih =>
      intro count
      have hpad := padFile_length rd
      unfold storedBytes
      split
      · rw [List.length_take]
        omega
      · rw [List.length_append]
        exact Nat.dvd_add ⟨_, hpad⟩ (ih _)

theorem diskwriteLoop_stores (fmarea : FlashMemoryArea) (toWrMax : Nat)
    (reads : List (List UInt8)) : ∀ firstSector count, firstSector < 2 ^ 64 →
    (∀ w ∈ diskwriteLoop fmarea toWrMax firstSector count reads, w.area = fmarea) ∧
    (diskwriteLoop fmarea toWrMax firstSector count reads).flatMap DiskWrite.stores =
      sectorsFrom firstSector (storedBytes toWrMax count reads) := by
  induction reads with
  | nil =>
      intro firstSector count _
      rw [diskwriteLoop, storedBytes]
      exact ⟨(fun _ h => nomatch h), rfl⟩
  | cons rd reads ih =>
      intro firstSector count hfirst
      have hpad := padFile_length rd
      unfold diskwriteLoop storedBytes
      dsimp only
      rw [padSector_sectors, padSector_eq]
      by_cases hcut : (sectorsFor rd.length + count) % 2 ^ 64 > toWrMax
      · rw [if_pos hcut, if_pos hcut]
        have hless : toWrMax - count ≤ sectorsFor rd.length := by omega
        have hlen : ((padFile rd).take (512 * (toWrMax - count))).length / 512 =
            toWrMax - count := by
          rw [List.length_take]
          omega
        by_cases hroom : toWrMax > count
        · rw [if_pos hroom]
          refine ⟨fun w hw => by rw [List.mem_singleton.mp hw], ?_⟩
          rw [List.flatMap_singleton, sectorsFrom, hlen]
          rfl
        · rw [if_neg hroom]
          refine ⟨(fun _ h => nomatch h), ?_⟩
          rw [sectorsFrom, hlen, show toWrMax - count = 0 by omega]
          rfl
      · rw [if_neg hcut, if_neg hcut]
        obtain ⟨harea, hrest⟩ := ih ((firstSector + sectorsFor rd.length) % 2 ^ 64)
          ((count + sectorsFor rd.length) % 2 ^ 64) (Nat.mod_lt _ (by decide))
        refine ⟨List.forall_mem_cons.mpr ⟨rfl, harea⟩, ?_⟩
        rw [List.flatMap_cons, hrest, sectorsFrom_append hpad]
        congr 1
        unfold DiskWrite.stores sectorsFrom
        rw [hpad, Nat.mul_div_cancel_left _ (by decide)]

/-! ## The disk afterwards -/

theorem afterWrites_eq {fmarea : FlashMemoryArea} {writes : List DiskWrite}
    (h : ∀ w ∈ writes, w.area = fmarea) : ∀ disk,
    afterWrites disk writes fmarea = puts (disk fmarea) (writes.flatMap DiskWrite.stores) := by
  induction writes with
  | nil => exact fun _ => rfl
  | cons w writes ih =>
      intro disk
      obtain ⟨rfl, hrest⟩ := List.forall_mem_cons.mp h
      rw [List.flatMap_cons, puts_append]
      refine (ih hrest (w.run disk)).trans ?_
      rw [DiskWrite.run, Function.update_self]

theorem mem_sectorsFrom {start : Nat} {data : List UInt8} {s : Nat × List UInt8} :
    s ∈ sectorsFrom start data ↔
      ∃ j < data.length / 512, s = ((start + j) % 2 ^ 64, sectorOf data j) := by
  unfold sectorsFrom
  rw [List.mem_map]
  constructor
  · rintro ⟨j, hj, rfl⟩
    exact ⟨j, List.mem_range.mp hj, rfl⟩
  · rintro ⟨j, hj, rfl⟩
    exact ⟨j, List.mem_range.mpr hj, rfl⟩

theorem sectorsFrom_nodup {start : Nat} {data : List UInt8} (h : data.length / 512 ≤ 2 ^ 64) :
    ((sectorsFrom start data).map Prod.fst).Nodup := by
  unfold sectorsFrom
  rw [List.map_map]
  refine List.Nodup.map_on (fun i hi j hj heq => ?_) List.nodup_range
  have hilt := List.mem_range.mp hi
  have hjlt := List.mem_range.mp hj
  have hwords : (start + i) % 2 ^ 64 = (start + j) % 2 ^ 64 := heq
  omega

/-! ## The bytes written -/

/-- With reads that fit, the bytes written are those of the file up to the end. -/
theorem storedBytes_eq {toWrMax : Nat} (hmax : toWrMax < 2 ^ 64) (reads : List (List UInt8)) :
    ∀ count ≤ toWrMax, ReadsFit toWrMax count (reads.map List.length) →
    storedBytes toWrMax count reads =
      (padFile reads.flatten).take (512 * (toWrMax - count)) := by
  induction reads with
  | nil => exact fun count _ _ => List.take_nil.symm
  | cons rd reads ih =>
      intro count hcount hfit
      have hpad := padFile_length rd
      have hsectors := sectorsFor_bounds rd.length
      rw [List.map_cons, ReadsFit] at hfit
      rw [storedBytes, List.flatten_cons]
      by_cases hcut : toWrMax < count + sectorsFor rd.length
      · rw [if_pos hcut] at hfit
        rw [if_pos (by omega), padFile_take (by omega), padFile_take, List.take_append_of_le_length]
        · omega
        · rw [List.length_append]
          omega
      · rw [if_neg hcut] at hfit
        obtain ⟨hwhole, hrest⟩ := hfit
        rw [if_neg (by omega), Nat.mod_eq_of_lt (by omega)]
        rcases hwhole with hlast | hwhole
        · rw [List.map_eq_nil_iff] at hlast
          rw [hlast, List.flatten_nil, List.append_nil, storedBytes, List.append_nil,
            List.take_of_length_le (by omega)]
        · rw [ih _ (by omega) hrest, padFile_whole hwhole, padFile_append hwhole,
            List.take_append, List.take_of_length_le (i := 512 * (toWrMax - count)) (by omega)]
          congr 2
          rw [padFile_whole hwhole] at hpad
          omega

/-- The reads of a file of zeros. -/
def zeroReads (lens : List Nat) : List (List UInt8) := lens.map fun len => List.replicate len 0

theorem zeroReads_length (lens : List Nat) : (zeroReads lens).map List.length = lens := by
  unfold zeroReads
  rw [List.map_map]
  exact List.map_id'' (fun len => List.length_replicate) lens

theorem zeroReads_flatten (lens : List Nat) :
    (zeroReads lens).flatten = List.replicate lens.sum 0 := by
  induction lens with
  | nil => rfl
  | cons len lens ih =>
      rw [zeroReads, List.map_cons, List.flatten_cons, List.sum_cons, ← List.replicate_append_replicate]
      exact congrArg _ ih

/-- If a file of zeros is written as it is, its reads fit. -/
theorem readsFit_of_zeros {toWrMax : Nat} (hmax : toWrMax < 2 ^ 64) (lens : List Nat)
    (hlens : ∀ len ∈ lens, 0 < len ∧ len < 2 ^ 64) : ∀ count ≤ toWrMax,
    storedBytes toWrMax count (zeroReads lens) =
      (padFile (List.replicate lens.sum 0)).take (512 * (toWrMax - count)) →
    ReadsFit toWrMax count lens := by
  induction lens with
  | nil => exact fun _ _ _ => trivial
  | cons len lens ih =>
      intro count hcount hstored
      obtain ⟨hlen, hrest⟩ := List.forall_mem_cons.mp hlens
      have hsectors := sectorsFor_bounds len
      have hpad := padFile_length (List.replicate len 0)
      rw [List.length_replicate] at hpad
      have hsplit : List.replicate (len :: lens).sum (0 : UInt8) =
          List.replicate len 0 ++ List.replicate lens.sum 0 := by
        rw [List.sum_cons, List.replicate_append_replicate]
      rw [zeroReads, List.map_cons, storedBytes, List.length_replicate] at hstored
      have htotal := congrArg List.length hstored
      rw [ReadsFit]
      by_cases hcut : toWrMax < count + sectorsFor len
      · rw [if_pos hcut]
        by_contra hwraps
        rw [if_neg (by omega), List.length_append, hpad, List.length_take] at htotal
        omega
      · rw [if_neg hcut]
        rw [if_neg (by omega), Nat.mod_eq_of_lt (by omega)] at hstored
        by_cases hwhole : 512 ∣ len
        · have hdvd : 512 ∣ (List.replicate len (0 : UInt8)).length := by
            rwa [List.length_replicate]
          refine ⟨.inr hwhole, ih hrest _ (by omega) ?_⟩
          rw [hsplit, padFile_append hdvd, padFile_whole hdvd, List.take_append,
            List.take_of_length_le (by rw [List.length_replicate]; omega),
            List.length_replicate] at hstored
          have htail := List.append_cancel_left hstored
          rw [show 512 * (toWrMax - count) - len = 512 * (toWrMax - (count + sectorsFor len)) by
            omega] at htail
          exact htail
        · cases lens with
          | nil => exact ⟨.inl rfl, trivial⟩
          | cons next lens =>
              exfalso
              have hnext := (hrest next List.mem_cons_self).1
              -- the first byte behind the read is padding in what is written, a zero in the file
              have hbyte := congrArg (fun l => l[len]?) hstored
              rw [List.getElem?_append_left (by omega), List.getElem?_take_of_lt (by omega),
                padFile, List.getElem?_append_right (by rw [List.length_replicate]),
                List.length_replicate, Nat.sub_self, List.getElem?_replicate_of_lt (by omega),
                padFile, List.getElem?_append_left, List.getElem?_replicate_of_lt] at hbyte
              · exact absurd (Option.some_inj.mp hbyte) (by decide)
              · rw [List.sum_cons, List.sum_cons]
                omega
              · rw [List.length_replicate, List.sum_cons, List.sum_cons]
                omega

/-! ## The law -/

section Law

variable {range : PartitionRange} {first : Nat}

/-- The writes of `cmd_diskwrite` behind its checks. -/
def rangeWrites (range : PartitionRange) (first : Nat) (reads : List (List UInt8)) :
    List DiskWrite :=
  diskwriteLoop range.area (range.sectorCount - first % 2 ^ 64)
    ((range.firstSector + first % 2 ^ 64) % 2 ^ 64) 0 reads

/-- The bytes of these writes. -/
def rangeBytes (range : PartitionRange) (first : Nat) (reads : List (List UInt8)) : List UInt8 :=
  storedBytes (range.sectorCount - first % 2 ^ 64) 0 reads

theorem rangeWrites_stores (range : PartitionRange) (first : Nat) (reads : List (List UInt8)) :
    (∀ w ∈ rangeWrites range first reads, w.area = range.area) ∧
    (rangeWrites range first reads).flatMap DiskWrite.stores =
      sectorsFrom (range.firstSector + first) (rangeBytes range first reads) := by
  obtain ⟨harea, hstores⟩ := diskwriteLoop_stores range.area (range.sectorCount - first % 2 ^ 64)
    reads ((range.firstSector + first % 2 ^ 64) % 2 ^ 64) 0 (Nat.mod_lt _ (by decide))
  refine ⟨harea, hstores.trans (List.map_congr_left fun j _ => Prod.ext ?_ rfl)⟩
  show ((range.firstSector + first % 2 ^ 64) % 2 ^ 64 + j) % 2 ^ 64 =
    (range.firstSector + first + j) % 2 ^ 64
  omega

/-- The sectors of the writes are those of the bytes. -/
theorem mem_rangeWrites {reads : List (List UInt8)} {s : Nat × List UInt8} :
    (∃ w ∈ rangeWrites range first reads, s ∈ w.stores) ↔
      ∃ j < (rangeBytes range first reads).length / 512,
        s = ((range.firstSector + first + j) % 2 ^ 64, sectorOf (rangeBytes range first reads) j) := by
  rw [← mem_sectorsFrom, ← (rangeWrites_stores range first reads).2, List.mem_flatMap]

theorem rangeWrites_disk (reads : List (List UInt8)) (disk : DiskContents (List UInt8)) :
    afterWrites disk (rangeWrites range first reads) range.area =
      puts (disk range.area)
        (sectorsFrom (range.firstSector + first) (rangeBytes range first reads)) := by
  obtain ⟨harea, hstores⟩ := rangeWrites_stores range first reads
  rw [afterWrites_eq harea, hstores]

/-- Each sector holds its bytes, if none is written twice. -/
theorem rangeWrites_sector {reads : List (List UInt8)}
    (h : (rangeBytes range first reads).length / 512 ≤ 2 ^ 64) (disk : DiskContents (List UInt8))
    {j : Nat} (hj : j < (rangeBytes range first reads).length / 512) :
    afterWrites disk (rangeWrites range first reads) range.area
      ((range.firstSector + first + j) % 2 ^ 64) = sectorOf (rangeBytes range first reads) j := by
  have hmem := mem_sectorsFrom.mpr
    ⟨j, hj, (rfl : ((range.firstSector + first + j) % 2 ^ 64, _) = (_, _))⟩
  rw [rangeWrites_disk]
  exact puts_stored (sectorsFrom_nodup h) hmem

theorem storesFile_of_fit (hcount : range.sectorCount < 2 ^ 64) {reads : List (List UInt8)}
    (hfirst : first ≤ range.sectorCount)
    (hfit : ReadsFit (range.sectorCount - first) 0 (reads.map List.length))
    (hwords : range.firstSector + first + takenSectors range first reads.flatten.length ≤ 2 ^ 64)
    (disk : DiskContents (List UInt8)) :
    StoresFile disk range first reads.flatten (rangeWrites range first reads) := by
  obtain ⟨n, hn⟩ : ∃ n, takenSectors range first reads.flatten.length = n := ⟨_, rfl⟩
  have hbytes : rangeBytes range first reads =
      (padFile reads.flatten).take (512 * (range.sectorCount - first)) := by
    rw [rangeBytes, Nat.mod_eq_of_lt (by omega)]
    exact storedBytes_eq (by omega) reads 0 (Nat.zero_le _) hfit
  have hlen : (rangeBytes range first reads).length / 512 = n := by
    rw [hbytes, List.length_take, padFile_length, ← hn, takenSectors]
    omega
  have hless : n ≤ range.sectorCount - first := by
    rw [← hn]
    exact Nat.min_le_right _ _
  rw [hn] at hwords
  refine ⟨fun w hw => ⟨(rangeWrites_stores range first reads).1 w hw, fun s hs => ?_⟩, ?_⟩
  · obtain ⟨j, hj, rfl⟩ := mem_rangeWrites.mp ⟨w, hw, hs⟩
    rw [hlen] at hj
    rw [hn, Nat.mod_eq_of_lt (by omega)]
    omega
  · rw [hn]
    intro j hj
    have hstored := @rangeWrites_sector range first reads (by omega) disk j (by omega)
    rw [Nat.mod_eq_of_lt (by omega)] at hstored
    rw [hstored, hbytes, sectorOf_take (by omega)]

/-- A disk of sectors that no file of zeros has. -/
def twosDisk : DiskContents (List UInt8) := fun _ _ => List.replicate 512 2

/-- What is written is what the partition takes, if only that much is written and each of its
sectors is. -/
theorem rangeBytes_length_of_stores {lens : List Nat}
    (h : StoresFile twosDisk range first (zeroReads lens).flatten
      (rangeWrites range first (zeroReads lens))) (hcount : range.sectorCount < 2 ^ 64) :
    (rangeBytes range first (zeroReads lens)).length / 512 =
      takenSectors range first (zeroReads lens).flatten.length := by
  obtain ⟨hinside, hstored⟩ := h
  obtain ⟨n, hn⟩ : ∃ n, takenSectors range first (zeroReads lens).flatten.length = n := ⟨_, rfl⟩
  have hless : n ≤ range.sectorCount - first := by
    rw [← hn]
    exact Nat.min_le_right _ _
  rw [hn] at hinside hstored ⊢
  have hplace {j : Nat} (hj : j < (rangeBytes range first (zeroReads lens)).length / 512) :
      range.firstSector + first ≤ (range.firstSector + first + j) % 2 ^ 64 ∧
        (range.firstSector + first + j) % 2 ^ 64 < range.firstSector + first + n := by
    obtain ⟨w, hw, hs⟩ := mem_rangeWrites.mpr ⟨j, hj, rfl⟩
    exact (hinside w hw).2 _ hs
  refine Nat.le_antisymm (Nat.le_of_not_lt fun hmore => ?_) (Nat.le_of_not_lt fun hfewer => ?_)
  · have hbehind := hplace hmore
    omega
  · obtain ⟨j, hj⟩ : ∃ j, (rangeBytes range first (zeroReads lens)).length / 512 = j := ⟨_, rfl⟩
    have hkept := hstored j (by omega)
    rw [rangeWrites_disk, puts_kept] at hkept
    · have htwo : (2 : UInt8) ∈ sectorOf (padFile (zeroReads lens).flatten) j := by
        rw [← hkept]
        exact List.mem_replicate.mpr ⟨by decide, rfl⟩
      have hfile := List.mem_of_mem_drop (List.mem_of_mem_take htwo)
      rw [padFile, zeroReads_flatten, List.mem_append, List.mem_replicate,
        List.mem_replicate] at hfile
      rcases hfile with ⟨-, hzero⟩ | ⟨-, hff⟩
      · exact absurd hzero (by decide)
      · exact absurd hff (by decide)
    · intro s hs
      obtain ⟨i, hi, rfl⟩ := mem_sectorsFrom.mp hs
      have hin := hplace hi
      dsimp only
      omega

theorem fit_of_storesFile (hcount : range.sectorCount < 2 ^ 64) {lens : List Nat}
    (hlens : ∀ len ∈ lens, 0 < len ∧ len < 2 ^ 64) (hsome : lens ≠ [])
    (hroom : first % 2 ^ 64 < range.sectorCount)
    (h : StoresFile twosDisk range first (zeroReads lens).flatten
      (rangeWrites range first (zeroReads lens))) :
    first ≤ range.sectorCount ∧ ReadsFit (range.sectorCount - first) 0 lens ∧
      range.firstSector + first + takenSectors range first lens.sum ≤ 2 ^ 64 := by
  have hlen := rangeBytes_length_of_stores h hcount
  have hsum : (zeroReads lens).flatten.length = lens.sum := by
    rw [zeroReads_flatten, List.length_replicate]
  have hwhole := storedBytes_length (range.sectorCount - first % 2 ^ 64) (zeroReads lens) 0
  obtain ⟨n, hn⟩ : ∃ n, takenSectors range first lens.sum = n := ⟨_, rfl⟩
  rw [hsum, hn] at hlen
  obtain ⟨hinside, hstored⟩ := h
  rw [hsum, hn] at hinside hstored
  have htaken : n = min (sectorsFor lens.sum) (range.sectorCount - first) := hn.symm
  -- something is written, so that the offset is a number of the partition
  have hpos : 0 < n := by
    cases lens with
    | nil => exact absurd rfl hsome
    | cons len lens =>
        have hfirst := (List.forall_mem_cons.mp hlens).1
        have hpad := padFile_length (List.replicate len 0)
        have hsectors := sectorsFor_bounds len
        rw [List.length_replicate] at hpad
        rw [← hlen, rangeBytes, zeroReads, List.map_cons, storedBytes, List.length_replicate]
        split
        · rw [List.length_take]
          omega
        · rw [List.length_append]
          omega
  have hfirst : first ≤ range.sectorCount := by omega
  have hplace {j : Nat} (hj : j < n) :
      range.firstSector + first ≤ (range.firstSector + first + j) % 2 ^ 64 ∧
        (range.firstSector + first + j) % 2 ^ 64 < range.firstSector + first + n := by
    have hbytes : j < (rangeBytes range first (zeroReads lens)).length / 512 := by omega
    obtain ⟨w, hw, hs⟩ := mem_rangeWrites.mpr ⟨j, hbytes, rfl⟩
    exact (hinside w hw).2 _ hs
  have hlast := hplace (show n - 1 < n by omega)
  refine ⟨hfirst, readsFit_of_zeros (by omega) lens hlens 0 (Nat.zero_le _) ?_, by omega⟩
  rw [Nat.mod_eq_of_lt (by omega)] at hwhole
  have hdata : rangeBytes range first (zeroReads lens) =
      storedBytes (range.sectorCount - first) 0 (zeroReads lens) := by
    rw [rangeBytes, Nat.mod_eq_of_lt (by omega)]
  rw [hdata] at hlen
  have hpad := padFile_length (List.replicate lens.sum 0)
  rw [List.length_replicate] at hpad
  have htake : (padFile (List.replicate lens.sum 0)).take
      (512 * (range.sectorCount - first - 0)) =
        (padFile (List.replicate lens.sum 0)).take (512 * n) := by
    rw [List.take_eq_take_iff]
    omega
  rw [htake]
  refine sectors_ext (show _ = 512 * n by omega) (by rw [List.length_take]; omega) fun j hj => ?_
  have hput := @rangeWrites_sector range first (zeroReads lens) (by rw [hdata]; omega) twosDisk
    j (by rw [hdata]; omega)
  have hword := hplace hj
  rw [Nat.mod_eq_of_lt (by omega)] at hput
  have hshould := hstored j hj
  rw [hput, hdata, zeroReads_flatten] at hshould
  rw [hshould, sectorOf_take hj]

end Law

/-- With its partition found, `cmd_diskwrite` refuses the offset, as a word, or writes. -/
theorem cmdDiskwrite_eq {response mbr partName : List UInt8} {range : PartitionRange}
    (hfound : getParitionParams response mbr partName = .ok range) (offset : Option (List UInt8))
    (fname : List UInt8) (reads : List (List UInt8)) :
    (cmdDiskwrite response mbr (some reads) (diskwriteArgs partName offset fname)).1 =
      if range.sectorCount < diskwriteFirst offset % 2 ^ 64 then []
      else rangeWrites range (diskwriteFirst offset) reads := by
  cases offset with
  | none =>
      unfold diskwriteArgs cmdDiskwrite diskwriteFirst
      dsimp only
      rw [hfound, if_neg (by omega)]
      rfl
  | some text =>
      unfold diskwriteArgs cmdDiskwrite diskwriteFirst
      dsimp only
      rw [hfound]
      dsimp only
      by_cases hbeyond : range.sectorCount < 2 * (strtoull text).1 % 2 ^ 64
      · rw [if_pos hbeyond, if_pos (show kilobytes text > range.sectorCount from hbeyond)]
      · rw [if_neg hbeyond, if_neg (show ¬ kilobytes text > range.sectorCount from hbeyond)]
        rfl

/-- Nothing is written for an empty file, or where nothing of the partition is left. -/
theorem rangeWrites_nothing {range : PartitionRange} {first : Nat} {reads : List (List UInt8)}
    (hreads : ∀ rd ∈ reads, 0 < rd.length ∧ rd.length < 2 ^ 64)
    (h : range.sectorCount = first % 2 ^ 64 ∨ reads = []) : rangeWrites range first reads = [] := by
  cases reads with
  | nil => rw [rangeWrites, diskwriteLoop]
  | cons rd reads =>
      have hend := h.resolve_right (List.cons_ne_nil _ _)
      have hlen := (List.forall_mem_cons.mp hreads).1
      have hsectors := sectorsFor_bounds rd.length
      rw [rangeWrites, diskwriteLoop, padSector_sectors, if_pos (by omega), if_neg (by omega)]

theorem storesFile_nothing {range : PartitionRange} {first : Nat} {file : List UInt8}
    (h : range.sectorCount ≤ first ∨ file = []) (disk : DiskContents (List UInt8)) :
    StoresFile disk range first file [] := by
  have hnone : takenSectors range first file.length = 0 := by
    rcases h with hend | hempty
    · rw [takenSectors, Nat.sub_eq_zero_of_le hend, Nat.min_zero]
    · rw [takenSectors, hempty]
      exact Nat.zero_min _
  refine ⟨(fun _ h => nomatch h), fun j hj => ?_⟩
  rw [hnone] at hj
  exact absurd hj (Nat.not_lt_zero j)

theorem diskwriteBufsize_lt (props : FlashmemProperties) (fmarea : FlashMemoryArea) :
    diskwriteBufsize props fmarea < 2 ^ 32 := by
  have hword := u32_lt (512 * (props.areas fmarea.index).sectorsPerPage * props.pagesPerBlock)
  have hint := toInt32_le (u32 (512 * (props.areas fmarea.index).sectorsPerPage *
    props.pagesPerBlock))
  unfold diskwriteBufsize
  dsimp only
  split <;> omega

/-- The buffer has whole sectors, so that the padding stays inside. -/
theorem padSector_inBuffer {props : FlashmemProperties} {fmarea : FlashMemoryArea}
    {buf : List UInt8} (h : buf.length ≤ diskwriteBufsize props fmarea) :
    (padSector buf).length ≤ diskwriteBufsize props fmarea := by
  have hwhole : 512 ∣ diskwriteBufsize props fmarea := by
    unfold diskwriteBufsize u32
    dsimp only
    rw [Nat.mul_assoc]
    generalize (props.areas fmarea.index).sectorsPerPage * props.pagesPerBlock = pages
    split
    · rename_i hlarge
      rw [toInt32_toNat (Nat.mod_lt _ (by decide)) (by omega)]
      omega
    · decide
  have hsectors := sectorsFor_bounds buf.length
  rw [padSector_eq, padFile_length]
  omega

/-- For every partition that is found, with and without an offset, and all lengths of the reads:
the partition holds every file that is read so, whatever the disk held before, exactly if they
fit. -/
theorem diskwrite_stores_iff {response mbr partName : List UInt8} {range : PartitionRange}
    (hfound : getParitionParams response mbr partName = .ok range) (offset : Option (List UInt8))
    (fname : List UInt8) {lens : List Nat}
    (hlens : ∀ len ∈ lens,
      0 < len ∧ len ≤ diskwriteBufsize (getFlashmemProps response) range.area) :
    (∀ reads : List (List UInt8), reads.map List.length = lens →
      ∀ disk : DiskContents (List UInt8),
        StoresFile disk range (diskwriteFirst offset) reads.flatten
          (cmdDiskwrite response mbr (some reads) (diskwriteArgs partName offset fname)).1) ↔
    WritesFit range (diskwriteFirst offset) lens := by
  have hcount := sectorCount_lt hfound
  have hbuf := diskwriteBufsize_lt (getFlashmemProps response) range.area
  have hsmall : ∀ len ∈ lens, 0 < len ∧ len < 2 ^ 64 := by
    intro len hlen
    obtain ⟨hpos, hle⟩ := hlens len hlen
    exact ⟨hpos, by omega⟩
  generalize hfirst : diskwriteFirst offset = first
  have hmod := Nat.mod_le first (2 ^ 64)
  constructor
  · intro h
    by_cases hend : range.sectorCount ≤ first % 2 ^ 64
    · exact .inl hend
    by_cases hempty : lens = []
    · exact .inr (.inl hempty)
    have hzeros := h (zeroReads lens) (zeroReads_length lens) twosDisk
    rw [cmdDiskwrite_eq hfound, hfirst, if_neg (by omega)] at hzeros
    exact .inr (.inr (fit_of_storesFile hcount hsmall hempty (by omega) hzeros))
  · rintro h reads rfl disk
    rw [cmdDiskwrite_eq hfound, hfirst]
    have hreads : ∀ rd ∈ reads, 0 < rd.length ∧ rd.length < 2 ^ 64 := fun rd hrd =>
      hsmall rd.length (List.mem_map_of_mem hrd)
    by_cases hbeyond : range.sectorCount < first % 2 ^ 64
    · rw [if_pos hbeyond]
      exact storesFile_nothing (.inl (by omega)) disk
    rw [if_neg hbeyond]
    rcases h with hend | hempty | ⟨hin, hfit, hwords⟩
    · rw [rangeWrites_nothing hreads (.inl (by omega))]
      exact storesFile_nothing (.inl (by omega)) disk
    · obtain rfl := List.map_eq_nil_iff.mp hempty
      rw [rangeWrites_nothing hreads (.inr rfl)]
      exact storesFile_nothing (.inr rfl) disk
    · rw [← List.length_flatten] at hwords
      exact storesFile_of_fit hcount hin hfit hwords disk

/-- A file of one sector and a byte in one read. -/
theorem diskwrite_stores_iff_oneRead :
    getParitionParams tinyDisk (onePartition 16 8) (CString.text "data") =
        .ok ⟨.logdisk, 16, 8⟩ ∧
      ∀ reads : List (List UInt8), reads.map List.length = [513] →
        ∀ disk : DiskContents (List UInt8),
          StoresFile disk ⟨.logdisk, 16, 8⟩ 0 reads.flatten
            (cmdDiskwrite tinyDisk (onePartition 16 8) (some reads)
              [CString.text "data", CString.text "in"]).1 := by
  have hbuf : ∀ len ∈ [513], 0 < len ∧
      len ≤ diskwriteBufsize (getFlashmemProps tinyDisk) .logdisk := by decide +kernel
  refine ⟨onePartition_found, (diskwrite_stores_iff onePartition_found none (CString.text "in")
    hbuf).mpr (.inr (.inr ⟨by decide, ?_, by decide⟩))⟩
  exact ⟨.inl rfl, trivial⟩

/-- A file of two bytes that a pipe hands over one by one goes to two sectors, and the second byte
behind the padding of the first; and with the offset `2 ^ 63` a file goes to the start of the
partition. -/
theorem diskwrite_split_padded :
    (cmdDiskwrite tinyDisk (onePartition 16 8) (some [[1], [2]])
        [CString.text "data", CString.text "in"]).1 =
        [⟨.logdisk, 16, 1, 1 :: List.replicate 511 0xff⟩,
          ⟨.logdisk, 17, 1, 2 :: List.replicate 511 0xff⟩] ∧
      (∀ disk, ¬ StoresFile disk ⟨.logdisk, 16, 8⟩ 0 [1, 2]
        (cmdDiskwrite tinyDisk (onePartition 16 8) (some [[1], [2]])
          [CString.text "data", CString.text "in"]).1) ∧
      ((cmdDiskwrite tinyDisk (onePartition 16 8) (some [[1]])
        [CString.text "data", CString.text "9223372036854775808", CString.text "in"]).1.map
          fun w => (w.firstSector, w.count)) = [(16, 1)] := by
  have hwrites : (cmdDiskwrite tinyDisk (onePartition 16 8) (some [[1], [2]])
      [CString.text "data", CString.text "in"]).1 =
        [⟨.logdisk, 16, 1, 1 :: List.replicate 511 0xff⟩,
          ⟨.logdisk, 17, 1, 2 :: List.replicate 511 0xff⟩] := by decide +kernel
  refine ⟨hwrites, fun disk h => ?_, by decide +kernel⟩
  rw [hwrites] at h
  have hsecond := ((h.inside ⟨.logdisk, 17, 1, 2 :: List.replicate 511 0xff⟩
    (List.mem_cons_of_mem _ List.mem_cons_self)).2 _ List.mem_cons_self).2
  exact absurd hsecond (by decide)

end Novo7

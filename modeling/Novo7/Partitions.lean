import Novo7.CNumber
import Novo7.CString
import Novo7.Dispatch

/-!
# Looking up a partition

`getParitionParams` turns the first argument of the disk commands into a range of sectors. It is
the name of a whole area, the name of a partition of the MBR, or the number of one. The range of a
partition comes from the disk, so its end is held against the size of the disk — as a sum of 64
bits — and the number comes from a text, by way of an `int`. `getParitionParams_sound_iff` says
when what is returned is the range meant, and inside its area.
-/

namespace Novo7

open Machine Bytes CNumber

/-! ## The disk -/

/-- `enum FlashMemoryArea` -/
inductive FlashMemoryArea where
  | boot0
  | boot1
  | physdisk
  | logdisk
  deriving Repr, DecidableEq

/-- The number of a constant of the enumeration. -/
def FlashMemoryArea.number : FlashMemoryArea → Nat
  | boot0 => 0
  | boot1 => 1
  | physdisk => 2
  | logdisk => 3

theorem FlashMemoryArea.number_lt (area : FlashMemoryArea) : area.number < 4 := by
  cases area <;> decide

def FlashMemoryArea.index (area : FlashMemoryArea) : Fin 4 := ⟨area.number, area.number_lt⟩

/-- `get_flashmem_props`, from the response of the device. -/
def getFlashmemProps (response : List UInt8) : FlashmemProperties where
  areas i := ⟨field response (12 * i) 4, field response (12 * i + 4) 4,
    field response (12 * i + 8) 4⟩
  sectorsPerPage := field response 48 4
  pagesPerBlock := field response 52 4
  blocksPerChip := field response 56 4
  chipCnt := field response 60 4
  pagewithbadflag := field response 64 4
  blockCntOfZone := field response 68 4

/-- `1ULL * sectors_per_page * page_count` -/
def areaSectors (props : FlashmemProperties) (area : FlashMemoryArea) : Nat :=
  (props.areas area.index).sectorsPerPage * (props.areas area.index).pageCount % 2 ^ 64

/-- `struct MbrPartition` -/
structure MbrPartition where
  firstSector : Nat
  sectorCount : Nat
  classname : List UInt8
  name : List UInt8
  userType : Nat
  ro : Nat
  deriving Repr, DecidableEq

/-- `struct MbrPartitionData` -/
structure MbrPartitionData where
  version : Nat
  partitions : List MbrPartition
  deriving Repr, DecidableEq

/-- Why a lookup fails. -/
inductive PartitionError where
  | noTable
  | wrongCount (count : Nat)
  | wrongNumber (partName : List UInt8)
  | notFound (partName : List UInt8)
  | beyondDisk (name : List UInt8)
  deriving Repr, DecidableEq

/-- A field of `n` bytes as a string, which ends at the first zero. -/
def textField (bytes : List UInt8) (off n : Nat) : List UInt8 :=
  ((bytes.drop off).take n).takeWhile (· != 0)

/-- Entry `i` of the partition table. -/
def mbrPartition (mbr : List UInt8) (i : Nat) : MbrPartition where
  firstSector := field mbr (20 + 64 * i) 4 * 2 ^ 32 + field mbr (20 + 64 * i + 4) 4
  sectorCount := field mbr (20 + 64 * i + 8) 4 * 2 ^ 32 + field mbr (20 + 64 * i + 12) 4
  classname := textField mbr (20 + 64 * i + 16) 12
  name := textField mbr (20 + 64 * i + 28) 12
  userType := field mbr (20 + 64 * i + 40) 4
  ro := field mbr (20 + 64 * i + 44) 4

/-- `MBR_MAX_PART_COUNT` -/
def mbrMaxPartCount : Nat := 15

/-- `getPartitionData`, from the two sectors of the MBR. -/
def getPartitionData (mbr : List UInt8) : Except PartitionError MbrPartitionData :=
  if (mbr.drop 8).take 8 ≠ CString.text "softw311" then .error .noTable
  else if field mbr 18 2 > mbrMaxPartCount then .error (.wrongCount (field mbr 18 2))
  else .ok ⟨field mbr 4 4, (List.range (field mbr 18 2)).map (mbrPartition mbr)⟩

/-! ## The lookup -/

/-- What a lookup returns: an area and the sectors of it that are meant. -/
structure PartitionRange where
  area : FlashMemoryArea
  firstSector : Nat
  sectorCount : Nat
  deriving Repr, DecidableEq

/-- The whole area a name stands for. -/
def areaNamed (partName : List UInt8) : Option FlashMemoryArea :=
  if partName = CString.text "boot0" then some .boot0
  else if partName = CString.text "boot1" then some .boot1
  else if partName = CString.text "disk-logic" then some .logdisk
  else none

/-- `i = strtoul(partName, NULL, 0)`, an `int`. -/
def partitionNumber (partName : List UInt8) : Int := toInt32 ((strtoull partName).1 % 2 ^ 32)

/-- The partition of a name, or of a number. -/
def findPartition (pdata : MbrPartitionData) (partName : List UInt8) :
    Except PartitionError MbrPartition :=
  match pdata.partitions.find? fun p => p.name = partName with
  | some p => .ok p
  | none =>
    if partName.head?.any isDigit then
      match if partitionNumber partName < 0 then none
        else pdata.partitions[(partitionNumber partName).toNat]? with
      | some p => .ok p
      | none => .error (.wrongNumber partName)
    else .error (.notFound partName)

/-- The test of a range against the size of the disk, with a sum of 64 bits. -/
def RangeRefused (diskSize : Nat) (p : MbrPartition) : Prop :=
  diskSize ≤ p.firstSector ∨ diskSize < (p.firstSector + p.sectorCount) % 2 ^ 64

instance (diskSize : Nat) (p : MbrPartition) : Decidable (RangeRefused diskSize p) :=
  inferInstanceAs (Decidable (_ ∨ _))

/-- `getParitionParams` -/
def getParitionParams (response mbr partName : List UInt8) :
    Except PartitionError PartitionRange :=
  let props := getFlashmemProps response
  match areaNamed partName with
  | some area => .ok ⟨area, 0, areaSectors props area⟩
  | none =>
    match getPartitionData mbr with
    | .error e => .error e
    | .ok pdata =>
      match findPartition pdata partName with
      | .error e => .error e
      | .ok p =>
        if RangeRefused (areaSectors props .logdisk) p then .error (.beyondDisk p.name)
        else .ok ⟨.logdisk, p.firstSector, p.sectorCount⟩

/-! ## What is meant -/

/-- The sectors an area has. -/
def areaEnd (response : List UInt8) (area : FlashMemoryArea) : Nat :=
  ((getFlashmemProps response).areas area.index).sectorsPerPage *
    ((getFlashmemProps response).areas area.index).pageCount

/-- The range meant by an argument: the whole of an area that has the name, the range of a
partition that has it, or else that of the partition whose number the whole argument denotes. -/
inductive Meant (response mbr partName : List UInt8) : PartitionRange → Prop where
  | area {area : FlashMemoryArea} : areaNamed partName = some area →
      Meant response mbr partName ⟨area, 0, areaEnd response area⟩
  | named {pdata : MbrPartitionData} {p : MbrPartition} : areaNamed partName = none →
      getPartitionData mbr = .ok pdata → p ∈ pdata.partitions → p.name = partName →
      Meant response mbr partName ⟨.logdisk, p.firstSector, p.sectorCount⟩
  | numbered {pdata : MbrPartitionData} {p : MbrPartition} {i : Nat} : areaNamed partName = none →
      getPartitionData mbr = .ok pdata → (∀ q ∈ pdata.partitions, q.name ≠ partName) →
      denotes partName = some i → pdata.partitions[i]? = some p →
      Meant response mbr partName ⟨.logdisk, p.firstSector, p.sectorCount⟩

/-- What a lookup returns lies inside its area and is what the argument means. -/
def LookupSound (response mbr partName : List UInt8) : Prop :=
  ∀ r, getParitionParams response mbr partName = .ok r →
    r.firstSector + r.sectorCount ≤ areaEnd response r.area ∧ Meant response mbr partName r

/-- The end of a range fits 64 bits, or the range is refused all the same. -/
def EndFits (response : List UInt8) (p : MbrPartition) : Prop :=
  p.firstSector + p.sectorCount < 2 ^ 64 ∨ RangeRefused (areaEnd response .logdisk) p

/-- The argument names an area, or the table of the disk is such that the end of the range that is
looked up fits, and for a number the argument is that number as a whole, unless the range is
refused. -/
def LookupFits (response mbr partName : List UInt8) : Prop :=
  areaNamed partName ≠ none ∨ ∀ pdata, getPartitionData mbr = .ok pdata →
    (∀ p, (pdata.partitions.find? fun p => p.name = partName) = some p → EndFits response p) ∧
    ((∀ q ∈ pdata.partitions, q.name ≠ partName) → partName.head?.any isDigit = true →
      ∀ (i : Nat) p, partitionNumber partName = i → pdata.partitions[i]? = some p →
        EndFits response p ∧
          (denotes partName = some i ∨ RangeRefused (areaEnd response .logdisk) p))

/-! ## The law -/

section Lookup

variable {response mbr partName : List UInt8}

/-- The fields of an area are 32-bit words, so its size fits. -/
theorem areaSectors_eq (response : List UInt8) (area : FlashMemoryArea) :
    areaSectors (getFlashmemProps response) area = areaEnd response area := by
  have h1 := field_lt response (12 * area.index) 4
  have h2 := field_lt response (12 * area.index + 8) 4
  refine Nat.mod_eq_of_lt ?_
  calc field response (12 * area.index) 4 * field response (12 * area.index + 8) 4
      ≤ (2 ^ 32 - 1) * (2 ^ 32 - 1) := Nat.mul_le_mul (by omega) (by omega)
    _ < 2 ^ 64 := by decide

theorem areaEnd_lt (response : List UInt8) (area : FlashMemoryArea) :
    areaEnd response area < 2 ^ 64 := by
  rw [← areaSectors_eq]
  exact Nat.mod_lt _ (by decide)

theorem getPartitionData_length {pdata : MbrPartitionData}
    (h : getPartitionData mbr = .ok pdata) : pdata.partitions.length ≤ mbrMaxPartCount := by
  unfold getPartitionData at h
  split_ifs at h
  cases h
  simp only [List.length_map, List.length_range]
  omega

/-- A range that is not refused lies inside the disk exactly if its end fits. -/
theorem inside_iff {p : MbrPartition} (h : ¬ RangeRefused (areaEnd response .logdisk) p) :
    p.firstSector + p.sectorCount ≤ areaEnd response .logdisk ↔ EndFits response p := by
  have hlt := areaEnd_lt response .logdisk
  unfold EndFits
  rw [or_iff_left h]
  unfold RangeRefused at h
  rw [not_or] at h
  constructor
  · intro hle
    omega
  · intro hfits
    rw [Nat.mod_eq_of_lt hfits] at h
    omega

/-- A number that denotes an entry of the table is read as that number. -/
theorem partitionNumber_of_denotes {i : Nat} (h : denotes partName = some i)
    (hi : i < mbrMaxPartCount) : partitionNumber partName = i := by
  have hsmall : i < 15 := hi
  rw [partitionNumber, strtoull_of_denotes h (by omega), toInt32, if_pos (by omega),
    Nat.mod_eq_of_lt (by omega)]

theorem getParitionParams_named {pdata : MbrPartitionData} (harea : areaNamed partName = none)
    (hdata : getPartitionData mbr = .ok pdata) {p : MbrPartition}
    (hfind : findPartition pdata partName = .ok p) :
    getParitionParams response mbr partName =
      if RangeRefused (areaEnd response .logdisk) p then .error (.beyondDisk p.name)
      else .ok ⟨.logdisk, p.firstSector, p.sectorCount⟩ := by
  unfold getParitionParams
  dsimp only
  rw [harea]
  dsimp only
  rw [hdata]
  dsimp only
  rw [hfind]
  dsimp only
  rw [areaSectors_eq]

theorem find_none_iff {pdata : MbrPartitionData} :
    (pdata.partitions.find? fun p => p.name = partName) = none ↔
      ∀ q ∈ pdata.partitions, q.name ≠ partName := by
  simp [List.find?_eq_none]

/-- What the lookup finds: an entry with the name, or the one of the number. -/
theorem findPartition_ok_iff {pdata : MbrPartitionData} {p : MbrPartition} :
    findPartition pdata partName = .ok p ↔
      (pdata.partitions.find? fun p => p.name = partName) = some p ∨
      (∀ q ∈ pdata.partitions, q.name ≠ partName) ∧ partName.head?.any isDigit = true ∧
        ∃ i : Nat, partitionNumber partName = i ∧ pdata.partitions[i]? = some p := by
  rw [← find_none_iff]
  unfold findPartition
  generalize (pdata.partitions.find? fun p => p.name = partName) = found
  cases found with
  | some q =>
      constructor
      · intro h
        cases h
        exact .inl rfl
      · rintro (h | ⟨h, -⟩)
        · cases h
          rfl
        · cases h
  | none =>
      dsimp only
      by_cases hdigit : partName.head?.any isDigit = true
      · rw [if_pos hdigit]
        by_cases hneg : partitionNumber partName < 0
        · rw [if_pos hneg]
          constructor
          · intro h
            cases h
          · rintro (h | ⟨-, -, i, hi, -⟩)
            · cases h
            · omega
        · rw [if_neg hneg]
          have hnat : partitionNumber partName = ((partitionNumber partName).toNat : Nat) := by
            omega
          constructor
          · intro h
            refine .inr ⟨rfl, hdigit, _, hnat, ?_⟩
            split at h
            · rename_i q hq
              cases h
              exact hq
            · cases h
          · rintro (h | ⟨-, -, i, hi, hp⟩)
            · cases h
            · rw [hi, Int.toNat_natCast, hp]
      · rw [if_neg hdigit]
        constructor
        · intro h
          cases h
        · rintro (h | ⟨-, h, -⟩)
          · cases h
          · exact absurd h hdigit

/-- The sizes of the table are made of two 32-bit words. -/
theorem partition_count_lt {pdata : MbrPartitionData} (hdata : getPartitionData mbr = .ok pdata)
    {p : MbrPartition} (hfind : findPartition pdata partName = .ok p) :
    p.sectorCount < 2 ^ 64 := by
  have hmem : p ∈ pdata.partitions := by
    rcases findPartition_ok_iff.mp hfind with hfound | ⟨-, -, i, -, hp⟩
    · exact List.mem_of_find?_eq_some hfound
    · exact List.mem_of_getElem? hp
  unfold getPartitionData at hdata
  split_ifs at hdata
  cases hdata
  obtain ⟨i, -, rfl⟩ := List.mem_map.mp hmem
  have hhigh := field_lt mbr (20 + 64 * i + 8) 4
  have hlow := field_lt mbr (20 + 64 * i + 12) 4
  show field mbr (20 + 64 * i + 8) 4 * 2 ^ 32 + field mbr (20 + 64 * i + 12) 4 < 2 ^ 64
  omega

/-- An entry of the table that has the number is at that place. -/
theorem lt_of_getElem {pdata : MbrPartitionData} (h : getPartitionData mbr = .ok pdata) {i : Nat}
    {p : MbrPartition} (hp : pdata.partitions[i]? = some p) : i < mbrMaxPartCount := by
  obtain ⟨hi, -⟩ := List.getElem?_eq_some_iff.mp hp
  exact Nat.lt_of_lt_of_le hi (getPartitionData_length h)

/-- A lookup in a table whose range fits. -/
theorem lookupSound_of_fits {pdata : MbrPartitionData} (harea : areaNamed partName = none)
    (hdata : getPartitionData mbr = .ok pdata) (hfits : LookupFits response mbr partName) :
    LookupSound response mbr partName := by
  obtain ⟨hname, hnumber⟩ := (hfits.resolve_left fun h => h harea) pdata hdata
  intro r hr
  cases hfind : findPartition pdata partName with
  | error e =>
      unfold getParitionParams at hr
      dsimp only at hr
      rw [harea] at hr
      dsimp only at hr
      rw [hdata] at hr
      dsimp only at hr
      rw [hfind] at hr
      cases hr
  | ok p =>
      rw [getParitionParams_named harea hdata hfind] at hr
      by_cases hrefused : RangeRefused (areaEnd response .logdisk) p
      · rw [if_pos hrefused] at hr
        cases hr
      rw [if_neg hrefused] at hr
      cases hr
      rcases findPartition_ok_iff.mp hfind with hfound | ⟨hnone, hdigit, i, hi, hp⟩
      · refine ⟨(inside_iff hrefused).mpr (hname p hfound), .named harea hdata ?_ ?_⟩
        · exact List.mem_of_find?_eq_some hfound
        · simpa using List.find?_some hfound
      · obtain ⟨hend, hdenotes⟩ := hnumber hnone hdigit i p hi hp
        exact ⟨(inside_iff hrefused).mpr hend,
          .numbered harea hdata hnone (hdenotes.resolve_right hrefused) hp⟩

/-- A lookup that is sound has a range that fits. -/
theorem lookupFits_of_sound {pdata : MbrPartitionData} (harea : areaNamed partName = none)
    (hdata : getPartitionData mbr = .ok pdata) (hsound : LookupSound response mbr partName) :
    LookupFits response mbr partName := by
  have hreturned {p : MbrPartition} (hfind : findPartition pdata partName = .ok p)
      (hrefused : ¬ RangeRefused (areaEnd response .logdisk) p) :
      EndFits response p ∧
        Meant response mbr partName ⟨.logdisk, p.firstSector, p.sectorCount⟩ := by
    have hr := @getParitionParams_named response mbr partName pdata harea hdata p hfind
    rw [if_neg hrefused] at hr
    obtain ⟨hinside, hmeant⟩ := hsound _ hr
    exact ⟨(inside_iff hrefused).mp hinside, hmeant⟩
  refine .inr fun pdata' hdata' => ?_
  rw [hdata] at hdata'
  cases hdata'
  refine ⟨fun p hfound => ?_, fun hnone hdigit i p hi hp => ?_⟩
  · by_cases hrefused : RangeRefused (areaEnd response .logdisk) p
    · exact .inr hrefused
    · exact (hreturned (findPartition_ok_iff.mpr (.inl hfound)) hrefused).1
  · by_cases hrefused : RangeRefused (areaEnd response .logdisk) p
    · exact ⟨.inr hrefused, .inr hrefused⟩
    · obtain ⟨hend, hmeant⟩ := hreturned
        (findPartition_ok_iff.mpr (.inr ⟨hnone, hdigit, i, hi, hp⟩)) hrefused
      refine ⟨hend, .inl ?_⟩
      generalize hrange : PartitionRange.mk .logdisk p.firstSector p.sectorCount = r at hmeant
      cases hmeant with
      | area h =>
          rw [harea] at h
          cases h
      | named _ hdata' hmem hname =>
          rw [hdata] at hdata'
          cases hdata'
          exact absurd hname (hnone _ hmem)
      | @numbered _ q j _ hdata' _ hdenotes hq =>
          rw [hdata] at hdata'
          cases hdata'
          have hj := partitionNumber_of_denotes hdenotes (lt_of_getElem hdata hq)
          rw [hi] at hj
          rwa [Int.ofNat_inj.mp hj]

end Lookup

/-- For every response of the device, every MBR and every argument. -/
theorem getParitionParams_sound_iff (response mbr partName : List UInt8) :
    LookupSound response mbr partName ↔ LookupFits response mbr partName := by
  cases harea : areaNamed partName with
  | some area =>
      refine iff_of_true ?_ (.inl (by rw [harea]; exact fun h => nomatch h))
      intro r hr
      unfold getParitionParams at hr
      dsimp only at hr
      rw [harea] at hr
      cases hr
      rw [areaSectors_eq]
      exact ⟨Nat.le_of_eq (Nat.zero_add _), .area harea⟩
  | none =>
      cases hdata : getPartitionData mbr with
      | error e =>
          refine iff_of_true (fun r hr => ?_) (.inr fun pdata h => ?_)
          · unfold getParitionParams at hr
            dsimp only at hr
            rw [harea] at hr
            dsimp only at hr
            rw [hdata] at hr
            cases hr
          · rw [hdata] at h
            cases h
      | ok pdata => exact ⟨lookupFits_of_sound harea hdata, lookupSound_of_fits harea hdata⟩

/-- A response with a logical disk of 64 sectors. -/
def tinyDisk : List UInt8 :=
  List.replicate 36 0 ++ leBytes 4 8 ++ leBytes 4 0 ++ leBytes 4 8 ++ List.replicate 24 0

/-- An MBR with one partition, `data`. -/
def onePartition (firstSector sectorCount : Nat) : List UInt8 :=
  leBytes 4 0 ++ leBytes 4 0x100 ++ CString.text "softw311" ++ [1, 0] ++ leBytes 2 1 ++
    leBytes 4 (firstSector / 2 ^ 32) ++ leBytes 4 firstSector ++
    leBytes 4 (sectorCount / 2 ^ 32) ++ leBytes 4 sectorCount ++
    CString.text "DISK" ++ List.replicate 8 0 ++ CString.text "data" ++ List.replicate 8 0 ++
    List.replicate 24 0

/-- A partition from sector 16 with `2 ^ 64 - 8` sectors is accepted, and so is the number
`2 ^ 32` for the partition with number 0. -/
theorem onePartition_unsound :
    getParitionParams tinyDisk (onePartition 16 (2 ^ 64 - 8)) (CString.text "data") =
        .ok ⟨.logdisk, 16, 2 ^ 64 - 8⟩ ∧
      ¬ LookupSound tinyDisk (onePartition 16 (2 ^ 64 - 8)) (CString.text "data") ∧
      getParitionParams tinyDisk (onePartition 16 8) (CString.text "4294967296") =
        .ok ⟨.logdisk, 16, 8⟩ ∧
      ¬ LookupSound tinyDisk (onePartition 16 8) (CString.text "4294967296") := by
  have hwrapped : getParitionParams tinyDisk (onePartition 16 (2 ^ 64 - 8)) (CString.text "data") =
      .ok ⟨.logdisk, 16, 2 ^ 64 - 8⟩ := by decide +kernel
  have hnarrowed : getParitionParams tinyDisk (onePartition 16 8) (CString.text "4294967296") =
      .ok ⟨.logdisk, 16, 8⟩ := by decide +kernel
  refine ⟨hwrapped, fun h => ?_, hnarrowed, fun h => ?_⟩
  · have hinside := (h _ hwrapped).1
    have hend : areaEnd tinyDisk .logdisk = 64 := by decide +kernel
    dsimp only at hinside
    omega
  · have hmeant := (h _ hnarrowed).2
    generalize hrange : PartitionRange.mk .logdisk 16 8 = r at hmeant
    have hareas : areaNamed (CString.text "4294967296") = none := by decide +kernel
    have hnumber : denotes (CString.text "4294967296") = some 4294967296 := by decide +kernel
    cases hmeant with
    | area harea =>
        rw [hareas] at harea
        cases harea
    | named _ hdata hmem hname =>
        have hall : ∀ pdata, getPartitionData (onePartition 16 8) = .ok pdata →
            ∀ q ∈ pdata.partitions, q.name ≠ CString.text "4294967296" := by
          have hpdata : ∃ pdata, getPartitionData (onePartition 16 8) = .ok pdata ∧
              ∀ q ∈ pdata.partitions, q.name ≠ CString.text "4294967296" :=
            ⟨⟨0x100, [mbrPartition (onePartition 16 8) 0]⟩, by decide +kernel, by decide +kernel⟩
          obtain ⟨pdata, hp, hq⟩ := hpdata
          intro pdata' hp'
          rw [hp] at hp'
          cases hp'
          exact hq
        exact hall _ hdata _ hmem hname
    | @numbered _ p i _ hdata _ hdenotes hp =>
        rw [hnumber] at hdenotes
        cases hdenotes
        exact absurd (lt_of_getElem hdata hp) (by decide)

end Novo7

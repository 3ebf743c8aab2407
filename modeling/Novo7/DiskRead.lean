import Novo7.Partitions

/-!
# Reading a disk

`cmd_diskread` copies sectors of a partition into a file and `cmd_diskdump` prints them. Offset and
size are texts in kilobytes: they are read as 64-bit numbers, doubled, added and held against the
size of the partition, each step modulo `2 ^ 64`. The transfer then goes in chunks.
`diskReads_exact_iff` says for which ranges and texts only sectors of the partition are requested,
and what comes out is what was asked for, whatever the sectors hold.
-/

namespace Novo7

open Machine CNumber

/-! ## The requests -/

/-- A `read_disk` call. -/
structure DiskRequest where
  area : FlashMemoryArea
  firstSector : Nat
  count : Nat
  deriving Repr, DecidableEq

/-- The sectors of a request; their numbers are 64-bit words. -/
def DiskRequest.sectors (r : DiskRequest) : List Nat :=
  (List.range r.count).map fun j => (r.firstSector + j) % 2 ^ 64

/-- Why a command stops. -/
inductive DiskError where
  | parameters
  | lookup (e : PartitionError)
  | address
  | beyond
  | openFailed
  | writeFailed
  deriving Repr, DecidableEq

/-- A run of a command: its requests, what it puts out, and the error it reports. -/
structure DiskRun (τ : Type) where
  requests : List DiskRequest
  output : List τ
  error : Option DiskError

/-- What the operating system does with the output file. -/
structure FileOs where
  opens : Bool
  writes : Nat → Bool

/-- What the sectors of the areas hold. -/
abbrev DiskContents (σ : Type) := FlashMemoryArea → Nat → σ

variable {σ : Type}

/-- `while( toRdTot > 0 )` of `cmd_diskread`, at the `k`-th chunk. -/
def diskreadLoop (disk : DiskContents σ) (os : FileOs) (fmarea : FlashMemoryArea) :
    Nat → Nat → Nat → Nat → DiskRun σ
  | 0, _, _, _ => ⟨[], [], none⟩
  | fuel + 1, k, firstSector, toRdTot =>
    if toRdTot > 0 then
      let toRead := if toRdTot < 1024 then toRdTot else 1024
      let request : DiskRequest := ⟨fmarea, firstSector, toRead⟩
      if os.writes k then
        let rest := diskreadLoop disk os fmarea fuel (k + 1) ((firstSector + toRead) % 2 ^ 64)
          (toRdTot - toRead)
        ⟨request :: rest.requests, request.sectors.map (disk fmarea) ++ rest.output, rest.error⟩
      else ⟨[request], [], some .writeFailed⟩
    else ⟨[], [], none⟩

/-- The part of `cmd_diskread` behind its checks. -/
def diskreadRange (disk : DiskContents σ) (os : FileOs) (range : PartitionRange)
    (partOffset count : Nat) : DiskRun σ :=
  if os.opens then
    diskreadLoop disk os range.area count 0 ((range.firstSector + partOffset) % 2 ^ 64) count
  else ⟨[], [], some .openFailed⟩

/-- `strtoull(text, NULL, 0) << 1`, a number of kilobytes as sectors. -/
def kilobytes (text : List UInt8) : Nat := 2 * (strtoull text).1 % 2 ^ 64

/-- `cmd_diskread` -/
def cmdDiskread (disk : DiskContents σ) (os : FileOs) (response mbr : List UInt8) :
    List (List UInt8) → DiskRun σ
  | [partName, _] =>
    match getParitionParams response mbr partName with
    | .error e => ⟨[], [], some (.lookup e)⟩
    | .ok range => diskreadRange disk os range 0 range.sectorCount
  | [partName, offset, size, _] =>
    match getParitionParams response mbr partName with
    | .error e => ⟨[], [], some (.lookup e)⟩
    | .ok range =>
      if (kilobytes offset + kilobytes size) % 2 ^ 64 > range.sectorCount then
        ⟨[], [], some .beyond⟩
      else diskreadRange disk os range (kilobytes offset) (kilobytes size)
  | _ => ⟨[], [], some .parameters⟩

/-- `while( count > 0 )` of `cmd_diskdump`: each sector is printed with the address of its first
byte, a 32-bit word. -/
def diskdumpLoop (disk : DiskContents σ) (range : PartitionRange) :
    Nat → Nat → Nat → DiskRun (Nat × σ)
  | 0, _, _ => ⟨[], [], none⟩
  | fuel + 1, partOffset, count =>
    if count > 0 then
      let toRead := if count < 32 then count else 32
      let request : DiskRequest := ⟨range.area, (range.firstSector + partOffset) % 2 ^ 64, toRead⟩
      let printed := (List.range toRead).map fun j =>
        (u32 (512 * partOffset + 512 * j), disk range.area ((request.firstSector + j) % 2 ^ 64))
      let rest := diskdumpLoop disk range fuel ((partOffset + toRead) % 2 ^ 64) (count - toRead)
      ⟨request :: rest.requests, printed ++ rest.output, rest.error⟩
    else ⟨[], [], none⟩

/-- `cmd_diskdump` -/
def cmdDiskdump (disk : DiskContents σ) (response mbr : List UInt8) :
    List (List UInt8) → DiskRun (Nat × σ)
  | [partName] =>
    match getParitionParams response mbr partName with
    | .error e => ⟨[], [], some (.lookup e)⟩
    | .ok range => diskdumpLoop disk range 1 0 1
  | [partName, offset] =>
    match getParitionParams response mbr partName with
    | .error e => ⟨[], [], some (.lookup e)⟩
    | .ok range =>
      if (strtoull offset).2 ≠ [] then ⟨[], [], some .address⟩
      else if (kilobytes offset + 1) % 2 ^ 64 > range.sectorCount then ⟨[], [], some .beyond⟩
      else diskdumpLoop disk range 1 (kilobytes offset) 1
  | [partName, offset, size] =>
    match getParitionParams response mbr partName with
    | .error e => ⟨[], [], some (.lookup e)⟩
    | .ok range =>
      if (strtoull offset).2 ≠ [] then ⟨[], [], some .address⟩
      else if (kilobytes offset + kilobytes size) % 2 ^ 64 > range.sectorCount then
        ⟨[], [], some .beyond⟩
      else diskdumpLoop disk range (kilobytes size) (kilobytes offset) (kilobytes size)
  | _ => ⟨[], [], some .parameters⟩

/-! ## What is asked for -/

/-- The sectors of a partition from `first` on, `count` of them. -/
structure Asked where
  first : Nat
  count : Nat

/-- What the arguments of `cmd_diskread` ask for: a part of the partition, or all of it. -/
def diskreadAsks (range : PartitionRange) : List (List UInt8) → Asked
  | [_, offset, size, _] => ⟨2 * (strtoull offset).1, 2 * (strtoull size).1⟩
  | _ => ⟨0, range.sectorCount⟩

/-- What the arguments of `cmd_diskdump` ask for: without a size it is one sector. -/
def diskdumpAsks : List (List UInt8) → Asked
  | [_, offset] => ⟨2 * (strtoull offset).1, 1⟩
  | [_, offset, size] => ⟨2 * (strtoull offset).1, 2 * (strtoull size).1⟩
  | _ => ⟨0, 1⟩

/-- Only sectors of the partition are requested, and without an error the output is the sectors
asked for, each once and in order. -/
structure ReadsExactly {τ : Type} (disk : DiskContents σ) (range : PartitionRange) (asked : Asked)
    (content : τ → σ) (run : DiskRun τ) : Prop where
  inside : ∀ r ∈ run.requests, r.area = range.area ∧
    ∀ x ∈ r.sectors, range.firstSector ≤ x ∧ x < range.firstSector + range.sectorCount
  exact : run.error = none → run.output.map content =
    (List.range asked.count).map fun j => disk range.area (range.firstSector + asked.first + j)

/-- The sectors asked for are sectors of the partition, and their numbers are 64-bit words. -/
def InPartition (range : PartitionRange) (asked : Asked) : Prop :=
  asked.count = 0 ∨ asked.first + asked.count ≤ range.sectorCount ∧
    range.firstSector + asked.first + asked.count ≤ 2 ^ 64

/-- The check of the commands: a sum modulo `2 ^ 64`. -/
def BeyondPartition (range : PartitionRange) (asked : Asked) : Prop :=
  range.sectorCount < (asked.first + asked.count) % 2 ^ 64

/-- The arguments for which `cmd_diskread` requests nothing. -/
def diskreadRefuses (range : PartitionRange) (argv : List (List UInt8)) : Prop :=
  match argv with
  | [_, _] => False
  | [_, _, _, _] => BeyondPartition range (diskreadAsks range argv)
  | _ => True

/-- The arguments for which `cmd_diskdump` requests nothing. Without an offset nothing is
checked. -/
def diskdumpRefuses (range : PartitionRange) (argv : List (List UInt8)) : Prop :=
  match argv with
  | [_] => False
  | [_, offset] => (strtoull offset).2 ≠ [] ∨ BeyondPartition range (diskdumpAsks argv)
  | [_, offset, _] => (strtoull offset).2 ≠ [] ∨ BeyondPartition range (diskdumpAsks argv)
  | _ => True

/-! ## The loops -/

theorem shifted_word (a b j : Nat) : ((a + b) % 2 ^ 64 + j) % 2 ^ 64 = (a + (b + j)) % 2 ^ 64 := by
  omega

/-- The words from one on, taken in two parts. -/
theorem words_split (first n m : Nat) :
    ((List.range n).map fun j => (first + j) % 2 ^ 64) ++
        ((List.range m).map fun j => ((first + n) % 2 ^ 64 + j) % 2 ^ 64) =
      (List.range (n + m)).map fun j => (first + j) % 2 ^ 64 := by
  rw [List.range_add, List.map_append, List.map_map]
  congr 1
  exact List.map_congr_left fun j _ => shifted_word first n j

/-- A run that goes over `total` sectors from `start` on: it requests no others, and without an
error all of them, and puts out what they hold. -/
structure Covers {τ : Type} (disk : DiskContents σ) (fmarea : FlashMemoryArea) (start total : Nat)
    (content : τ → σ) (run : DiskRun τ) : Prop where
  inside : ∀ r ∈ run.requests, r.area = fmarea ∧
    ∀ x ∈ r.sectors, ∃ j < total, x = (start + j) % 2 ^ 64
  output : run.error = none → run.output.map content =
    ((List.range total).map fun j => (start + j) % 2 ^ 64).map (disk fmarea)
  requests : run.error = none → run.requests.flatMap DiskRequest.sectors =
    (List.range total).map fun j => (start + j) % 2 ^ 64

/-- A run that requests nothing covers nothing. -/
theorem covers_nothing {τ : Type} (disk : DiskContents σ) (fmarea : FlashMemoryArea) (start : Nat)
    (content : τ → σ) (error : Option DiskError) :
    Covers disk fmarea start 0 content (⟨[], [], error⟩ : DiskRun τ) :=
  ⟨(fun _ h => nomatch h), fun _ => rfl, fun _ => rfl⟩

/-- A chunk in front of a run that covers the rest. -/
theorem Covers.cons {τ : Type} {disk : DiskContents σ} {fmarea : FlashMemoryArea}
    {start next n total : Nat} {content : τ → σ} {run : DiskRun τ} (hn : n ≤ total)
    (hnext : next % 2 ^ 64 = (start + n) % 2 ^ 64)
    (h : Covers disk fmarea next (total - n) content run) {printed : List τ}
    (hprinted : printed.map content =
      ((List.range n).map fun j => (start + j) % 2 ^ 64).map (disk fmarea)) :
    Covers disk fmarea start total content
      ⟨⟨fmarea, start % 2 ^ 64, n⟩ :: run.requests, printed ++ run.output, run.error⟩ := by
  have hword (j : Nat) : (next + j) % 2 ^ 64 = ((start + n) % 2 ^ 64 + j) % 2 ^ 64 := by omega
  have hfirst (j : Nat) : (start % 2 ^ 64 + j) % 2 ^ 64 = (start + j) % 2 ^ 64 := by omega
  have hrest : ((List.range (total - n)).map fun j => (next + j) % 2 ^ 64) =
      (List.range (total - n)).map fun j => ((start + n) % 2 ^ 64 + j) % 2 ^ 64 :=
    List.map_congr_left fun j _ => hword j
  have hchunk : (DiskRequest.mk fmarea (start % 2 ^ 64) n).sectors =
      (List.range n).map fun j => (start + j) % 2 ^ 64 :=
    List.map_congr_left fun j _ => hfirst j
  have hall := words_split start n (total - n)
  rw [Nat.add_sub_cancel' hn] at hall
  refine ⟨List.forall_mem_cons.mpr ⟨⟨rfl, fun x hx => ?_⟩, fun r hr => ?_⟩, fun hnone => ?_,
    fun hnone => ?_⟩
  · rw [hchunk] at hx
    obtain ⟨j, hj, rfl⟩ := List.mem_map.mp hx
    have hlt : j < n := List.mem_range.mp hj
    exact ⟨j, by omega, rfl⟩
  · obtain ⟨harea, hsectors⟩ := h.inside r hr
    refine ⟨harea, fun x hx => ?_⟩
    obtain ⟨j, hj, rfl⟩ := hsectors x hx
    exact ⟨n + j, by omega, (hword j).trans (shifted_word start n j)⟩
  · rw [List.map_append, h.output hnone, hprinted, ← hall, List.map_append, hrest]
  · rw [List.flatMap_cons, h.requests hnone, hchunk, ← hall, hrest]

theorem diskreadLoop_covers (disk : DiskContents σ) (os : FileOs) (fmarea : FlashMemoryArea)
    (fuel : Nat) : ∀ k first total, total ≤ fuel → first < 2 ^ 64 →
    Covers disk fmarea first total id (diskreadLoop disk os fmarea fuel k first total) ∧
    ((∀ k, os.writes k = true) → (diskreadLoop disk os fmarea fuel k first total).error = none) := by
  induction fuel with
  | zero =>
      intro k first total htotal _
      obtain rfl : total = 0 := by omega
      exact ⟨covers_nothing .., fun _ => rfl⟩
  | succ fuel ih =>
      intro k first total htotal hlt
      unfold diskreadLoop
      by_cases hpos : total > 0
      · rw [if_pos hpos]
        obtain ⟨n, hn⟩ : ∃ n, (if total < 1024 then total else 1024) = n := ⟨_, rfl⟩
        have hbound : 0 < n ∧ n ≤ total := by
          rw [← hn]
          split <;> omega
        dsimp only
        rw [hn]
        obtain ⟨hcovers, hdone⟩ := ih (k + 1) ((first + n) % 2 ^ 64) (total - n) (by omega)
          (Nat.mod_lt _ (by decide))
        generalize diskreadLoop disk os fmarea fuel (k + 1) _ _ = rest at hcovers hdone ⊢
        by_cases hwrite : os.writes k = true
        · rw [if_pos hwrite]
          have hprinted : ((DiskRequest.mk fmarea first n).sectors.map (disk fmarea)).map id =
              ((List.range n).map fun j => (first + j) % 2 ^ 64).map (disk fmarea) := List.map_id _
          have hcons := Covers.cons hbound.2 (Nat.mod_mod _ _) hcovers hprinted
          rw [Nat.mod_eq_of_lt hlt] at hcons
          exact ⟨hcons, hdone⟩
        · rw [if_neg hwrite]
          refine ⟨⟨fun r hr => ?_, (fun h => nomatch h), fun h => nomatch h⟩,
            fun h => absurd (h k) hwrite⟩
          obtain rfl := List.mem_singleton.mp hr
          refine ⟨rfl, fun x hx => ?_⟩
          obtain ⟨j, hj, rfl⟩ := List.mem_map.mp hx
          have hlt : j < n := List.mem_range.mp hj
          exact ⟨j, by omega, rfl⟩
      · rw [if_neg hpos]
        obtain rfl : total = 0 := by omega
        exact ⟨covers_nothing .., fun _ => rfl⟩

theorem diskdumpLoop_covers (disk : DiskContents σ) (range : PartitionRange) (fuel : Nat) :
    ∀ partOffset count, count ≤ fuel →
    Covers disk range.area (range.firstSector + partOffset) count Prod.snd
      (diskdumpLoop disk range fuel partOffset count) ∧
    (diskdumpLoop disk range fuel partOffset count).error = none := by
  induction fuel with
  | zero =>
      intro partOffset count hcount
      obtain rfl : count = 0 := by omega
      exact ⟨covers_nothing .., rfl⟩
  | succ fuel ih =>
      intro partOffset count hcount
      unfold diskdumpLoop
      by_cases hpos : count > 0
      · rw [if_pos hpos]
        obtain ⟨n, hn⟩ : ∃ n, (if count < 32 then count else 32) = n := ⟨_, rfl⟩
        have hbound : 0 < n ∧ n ≤ count := by
          rw [← hn]
          split <;> omega
        dsimp only
        rw [hn]
        obtain ⟨hcovers, hdone⟩ := ih ((partOffset + n) % 2 ^ 64) (count - n) (by omega)
        refine ⟨Covers.cons hbound.2 (by omega) hcovers ?_, hdone⟩
        rw [List.map_map, List.map_map]
        refine List.map_congr_left fun j _ => congrArg (disk range.area) ?_
        show ((range.firstSector + partOffset) % 2 ^ 64 + j) % 2 ^ 64 =
          (range.firstSector + partOffset + j) % 2 ^ 64
        omega
      · rw [if_neg hpos]
        obtain rfl : count = 0 := by omega
        exact ⟨covers_nothing .., rfl⟩

/-! ## The law -/

section Law

variable {range : PartitionRange} {asked : Asked}

/-- The sectors asked for are covered by a run over the words they are. -/
theorem Covers.readsExactly {τ : Type} {disk : DiskContents σ} {content : τ → σ} {run : DiskRun τ}
    (hin : InPartition range asked) (hcount : range.sectorCount < 2 ^ 64)
    (h : Covers disk range.area (range.firstSector + asked.first % 2 ^ 64) (asked.count % 2 ^ 64)
      content run) : ReadsExactly disk range asked content run := by
  by_cases hzero : asked.count = 0
  · rw [hzero] at h
    refine ⟨fun r hr => ?_, fun hnone => ?_⟩
    · obtain ⟨harea, hsectors⟩ := h.inside r hr
      refine ⟨harea, fun x hx => ?_⟩
      obtain ⟨j, hj, -⟩ := hsectors x hx
      exact absurd hj (Nat.not_lt_zero j)
    · rw [h.output hnone, hzero]
      rfl
  · obtain ⟨hend, hwords⟩ := hin.resolve_left hzero
    rw [Nat.mod_eq_of_lt (by omega), Nat.mod_eq_of_lt (by omega)] at h
    refine ⟨fun r hr => ?_, fun hnone => ?_⟩
    · obtain ⟨harea, hsectors⟩ := h.inside r hr
      refine ⟨harea, fun x hx => ?_⟩
      obtain ⟨j, hj, rfl⟩ := hsectors x hx
      rw [Nat.mod_eq_of_lt (by omega)]
      omega
    · rw [h.output hnone, List.map_map]
      refine List.map_congr_left fun j hj => congrArg (disk range.area) ?_
      have hlt := List.mem_range.mp hj
      exact Nat.mod_eq_of_lt (by omega)

/-- A run that meets the claim on sectors that hold their own numbers asked for sectors of the
partition. -/
theorem Covers.inPartition {τ : Type} {content : τ → Nat} {run : DiskRun τ}
    (hnone : run.error = none)
    (h : Covers (fun _ x => x) range.area (range.firstSector + asked.first % 2 ^ 64)
      (asked.count % 2 ^ 64) content run)
    (hexact : ReadsExactly (fun _ x => x) range asked content run) : InPartition range asked := by
  by_cases hzero : asked.count = 0
  · exact .inl hzero
  have hout := (h.output hnone).symm.trans (hexact.exact hnone)
  rw [List.map_id'] at hout
  have hlen := congrArg List.length hout
  rw [List.length_map, List.length_map, List.length_range, List.length_range] at hlen
  rw [hlen] at hout h
  have hlast : (range.firstSector + asked.first % 2 ^ 64 + (asked.count - 1)) % 2 ^ 64 =
      range.firstSector + asked.first + (asked.count - 1) := by
    have hget := congrArg (fun l => l[asked.count - 1]?) hout
    rw [List.getElem?_map, List.getElem?_map, List.getElem?_range (by omega), Option.map_some,
      Option.map_some] at hget
    exact Option.some_inj.mp hget
  have hmem : (range.firstSector + asked.first % 2 ^ 64 + (asked.count - 1)) % 2 ^ 64 ∈
      run.requests.flatMap DiskRequest.sectors := by
    rw [h.requests hnone]
    exact List.mem_map.mpr ⟨asked.count - 1, List.mem_range.mpr (by omega), rfl⟩
  obtain ⟨r, hr, hx⟩ := List.mem_flatMap.mp hmem
  have hinside := ((hexact.inside r hr).2 _ hx).2
  rw [hlast] at hinside
  have hword : range.firstSector + asked.first + (asked.count - 1) < 2 ^ 64 := by
    rw [← hlast]
    exact Nat.mod_lt _ (by decide)
  exact .inr ⟨by omega, by omega⟩

/-- A run that covers from a word covers from the number it is of. -/
theorem Covers.of_word {τ : Type} {disk : DiskContents σ} {fmarea : FlashMemoryArea}
    {start total : Nat} {content : τ → σ} {run : DiskRun τ}
    (h : Covers disk fmarea (start % 2 ^ 64) total content run) :
    Covers disk fmarea start total content run := by
  have hword (j : Nat) : (start % 2 ^ 64 + j) % 2 ^ 64 = (start + j) % 2 ^ 64 := by omega
  obtain ⟨hinside, houtput, hrequests⟩ := h
  simp only [hword] at hinside houtput hrequests
  exact ⟨hinside, houtput, hrequests⟩

/-- A command that stops before its first request. -/
theorem readsExactly_stopped {τ : Type} (disk : DiskContents σ) (range : PartitionRange)
    (asked : Asked) (content : τ → σ) (e : DiskError) :
    ReadsExactly disk range asked content (⟨[], [], some e⟩ : DiskRun τ) :=
  ⟨(fun _ h => nomatch h), fun h => nomatch h⟩

end Law

/-- The size of a range that is returned is a word. -/
theorem sectorCount_lt {response mbr partName : List UInt8} {range : PartitionRange}
    (h : getParitionParams response mbr partName = .ok range) : range.sectorCount < 2 ^ 64 := by
  unfold getParitionParams at h
  dsimp only at h
  split at h
  · rename_i area _
    cases h
    rw [areaSectors_eq]
    exact areaEnd_lt response area
  · split at h
    · cases h
    · rename_i pdata hdata
      split at h
      · cases h
      · rename_i p hfind
        split_ifs at h
        cases h
        exact partition_count_lt hdata hfind

section Commands

variable {response mbr partName : List UInt8} {range : PartitionRange} {rest : List (List UInt8)}

theorem beyond_iff (offset size : List UInt8) :
    (kilobytes offset + kilobytes size) % 2 ^ 64 > range.sectorCount ↔
      BeyondPartition range ⟨2 * (strtoull offset).1, 2 * (strtoull size).1⟩ := by
  unfold kilobytes BeyondPartition
  rw [← Nat.add_mod]

/-- With its partition found, `cmd_diskread` stops or reads what is asked for, as words. -/
theorem cmdDiskread_eq (hfound : getParitionParams response mbr partName = .ok range)
    (disk : DiskContents σ) (os : FileOs) :
    (diskreadRefuses range (partName :: rest) →
      ∃ e, cmdDiskread disk os response mbr (partName :: rest) = ⟨[], [], some e⟩) ∧
    (¬ diskreadRefuses range (partName :: rest) →
      cmdDiskread disk os response mbr (partName :: rest) =
        diskreadRange disk os range ((diskreadAsks range (partName :: rest)).first % 2 ^ 64)
          ((diskreadAsks range (partName :: rest)).count % 2 ^ 64)) := by
  have hlt := sectorCount_lt hfound
  match rest with
  | [] => exact ⟨fun _ => ⟨.parameters, rfl⟩, fun h => absurd trivial h⟩
  | [file] =>
      refine ⟨fun h => h.elim, fun _ => ?_⟩
      unfold cmdDiskread diskreadAsks
      dsimp only
      rw [hfound, Nat.mod_eq_of_lt hlt, Nat.zero_mod]
  | [_, _] => exact ⟨fun _ => ⟨.parameters, rfl⟩, fun h => absurd trivial h⟩
  | [offset, size, file] =>
      unfold cmdDiskread diskreadAsks diskreadRefuses
      dsimp only
      rw [hfound]
      dsimp only
      refine ⟨fun h => ⟨.beyond, ?_⟩, fun h => ?_⟩
      · rw [if_pos ((beyond_iff offset size).mpr h)]
      · rw [if_neg fun hbeyond => h ((beyond_iff offset size).mp hbeyond)]
        rfl
  | _ :: _ :: _ :: _ :: _ => exact ⟨fun _ => ⟨.parameters, rfl⟩, fun h => absurd trivial h⟩

/-- With its partition found, `cmd_diskdump` stops or reads what is asked for, as words. -/
theorem cmdDiskdump_eq (hfound : getParitionParams response mbr partName = .ok range)
    (disk : DiskContents σ) :
    (diskdumpRefuses range (partName :: rest) →
      ∃ e, cmdDiskdump disk response mbr (partName :: rest) = ⟨[], [], some e⟩) ∧
    (¬ diskdumpRefuses range (partName :: rest) →
      cmdDiskdump disk response mbr (partName :: rest) =
        diskdumpLoop disk range ((diskdumpAsks (partName :: rest)).count % 2 ^ 64)
          ((diskdumpAsks (partName :: rest)).first % 2 ^ 64)
          ((diskdumpAsks (partName :: rest)).count % 2 ^ 64)) := by
  match rest with
  | [] =>
      refine ⟨fun h => h.elim, fun _ => ?_⟩
      unfold cmdDiskdump diskdumpAsks
      dsimp only
      rw [hfound]
      rfl
  | [offset] =>
      have hbeyond : (kilobytes offset + 1) % 2 ^ 64 > range.sectorCount ↔
          BeyondPartition range ⟨2 * (strtoull offset).1, 1⟩ := by
        unfold kilobytes BeyondPartition
        rw [Nat.mod_add_mod]
      unfold cmdDiskdump diskdumpAsks diskdumpRefuses
      dsimp only
      rw [hfound]
      dsimp only
      by_cases haddress : (strtoull offset).2 ≠ []
      · rw [if_pos haddress]
        exact ⟨fun _ => ⟨.address, rfl⟩, fun h => absurd (.inl haddress) h⟩
      · rw [if_neg haddress]
        refine ⟨fun h => ⟨.beyond, ?_⟩, fun h => ?_⟩
        · rw [if_pos (hbeyond.mpr (h.resolve_left haddress))]
        · rw [if_neg fun hb => h (.inr (hbeyond.mp hb))]
          rfl
  | [offset, size] =>
      unfold cmdDiskdump diskdumpAsks diskdumpRefuses
      dsimp only
      rw [hfound]
      dsimp only
      by_cases haddress : (strtoull offset).2 ≠ []
      · rw [if_pos haddress]
        exact ⟨fun _ => ⟨.address, rfl⟩, fun h => absurd (.inl haddress) h⟩
      · rw [if_neg haddress]
        refine ⟨fun h => ⟨.beyond, ?_⟩, fun h => ?_⟩
        · rw [if_pos ((beyond_iff offset size).mpr (h.resolve_left haddress))]
        · rw [if_neg fun hb => h (.inr ((beyond_iff offset size).mp hb))]
          rfl
  | _ :: _ :: _ :: _ => exact ⟨fun _ => ⟨.parameters, rfl⟩, fun h => absurd trivial h⟩

theorem diskreadRange_covers (disk : DiskContents σ) {os : FileOs} (hopens : os.opens = true)
    (range : PartitionRange) (partOffset count : Nat) :
    Covers disk range.area (range.firstSector + partOffset) count id
      (diskreadRange disk os range partOffset count) ∧
    ((∀ k, os.writes k = true) → (diskreadRange disk os range partOffset count).error = none) := by
  unfold diskreadRange
  rw [if_pos hopens]
  obtain ⟨hcovers, hdone⟩ := diskreadLoop_covers disk os range.area count 0
    ((range.firstSector + partOffset) % 2 ^ 64) count (Nat.le_refl _) (Nat.mod_lt _ (by decide))
  exact ⟨hcovers.of_word, hdone⟩

/-- A file that opens and takes everything. -/
def willingOs : FileOs := ⟨true, fun _ => true⟩

theorem cmdDiskread_exact_iff (hfound : getParitionParams response mbr partName = .ok range) :
    (∀ (σ : Type) (disk : DiskContents σ) (os : FileOs),
      ReadsExactly disk range (diskreadAsks range (partName :: rest)) id
        (cmdDiskread disk os response mbr (partName :: rest))) ↔
    diskreadRefuses range (partName :: rest) ∨
      InPartition range (diskreadAsks range (partName :: rest)) := by
  constructor
  · intro h
    refine or_iff_not_imp_left.mpr fun hgoes => ?_
    have hexact := h Nat (fun _ x => x) willingOs
    rw [(cmdDiskread_eq hfound (fun _ x => x) willingOs).2 hgoes] at hexact
    obtain ⟨hcovers, hdone⟩ := diskreadRange_covers (fun _ x => x)
      (show willingOs.opens = true from rfl) range
      ((diskreadAsks range (partName :: rest)).first % 2 ^ 64)
      ((diskreadAsks range (partName :: rest)).count % 2 ^ 64)
    exact hcovers.inPartition (hdone fun _ => rfl) hexact
  · intro h σ disk os
    by_cases hstops : diskreadRefuses range (partName :: rest)
    · obtain ⟨e, he⟩ := (cmdDiskread_eq hfound disk os).1 hstops
      rw [he]
      exact readsExactly_stopped ..
    · rw [(cmdDiskread_eq hfound disk os).2 hstops]
      by_cases hopens : os.opens = true
      · exact (diskreadRange_covers disk hopens range _ _).1.readsExactly
          (h.resolve_left hstops) (sectorCount_lt hfound)
      · unfold diskreadRange
        rw [if_neg hopens]
        exact readsExactly_stopped ..

theorem cmdDiskdump_exact_iff (hfound : getParitionParams response mbr partName = .ok range) :
    (∀ (σ : Type) (disk : DiskContents σ),
      ReadsExactly disk range (diskdumpAsks (partName :: rest)) Prod.snd
        (cmdDiskdump disk response mbr (partName :: rest))) ↔
    diskdumpRefuses range (partName :: rest) ∨
      InPartition range (diskdumpAsks (partName :: rest)) := by
  constructor
  · intro h
    refine or_iff_not_imp_left.mpr fun hgoes => ?_
    have hexact := h Nat fun _ x => x
    rw [(cmdDiskdump_eq hfound fun _ x => x).2 hgoes] at hexact
    obtain ⟨hcovers, hdone⟩ := diskdumpLoop_covers (fun _ x => x) range
      ((diskdumpAsks (partName :: rest)).count % 2 ^ 64)
      ((diskdumpAsks (partName :: rest)).first % 2 ^ 64)
      ((diskdumpAsks (partName :: rest)).count % 2 ^ 64) (Nat.le_refl _)
    exact hcovers.inPartition hdone hexact
  · intro h σ disk
    by_cases hstops : diskdumpRefuses range (partName :: rest)
    · obtain ⟨e, he⟩ := (cmdDiskdump_eq hfound disk).1 hstops
      rw [he]
      exact readsExactly_stopped ..
    · rw [(cmdDiskdump_eq hfound disk).2 hstops]
      exact (diskdumpLoop_covers disk range _ _ _ (Nat.le_refl _)).1.readsExactly
        (h.resolve_left hstops) (sectorCount_lt hfound)

end Commands

/-- For every disk, every partition that is found, all arguments behind it and everything the
operating system can do with the file. -/
theorem diskReads_exact_iff {response mbr partName : List UInt8} {range : PartitionRange}
    (hfound : getParitionParams response mbr partName = .ok range) (rest : List (List UInt8)) :
    ((∀ (σ : Type) (disk : DiskContents σ) (os : FileOs),
      ReadsExactly disk range (diskreadAsks range (partName :: rest)) id
        (cmdDiskread disk os response mbr (partName :: rest))) ↔
      diskreadRefuses range (partName :: rest) ∨
        InPartition range (diskreadAsks range (partName :: rest))) ∧
    ((∀ (σ : Type) (disk : DiskContents σ),
      ReadsExactly disk range (diskdumpAsks (partName :: rest)) Prod.snd
        (cmdDiskdump disk response mbr (partName :: rest))) ↔
      diskdumpRefuses range (partName :: rest) ∨
        InPartition range (diskdumpAsks (partName :: rest))) :=
  ⟨cmdDiskread_exact_iff hfound, cmdDiskdump_exact_iff hfound⟩

theorem onePartition_found : getParitionParams tinyDisk (onePartition 16 8)
    (CString.text "data") = .ok ⟨.logdisk, 16, 8⟩ := by
  decide +kernel

theorem diskReads_exact_iff_inside :
    getParitionParams tinyDisk (onePartition 16 8) (CString.text "data") =
        .ok ⟨.logdisk, 16, 8⟩ ∧
      ((∀ (σ : Type) (disk : DiskContents σ) (os : FileOs),
        ReadsExactly disk ⟨.logdisk, 16, 8⟩ ⟨2, 4⟩ id
          (cmdDiskread disk os tinyDisk (onePartition 16 8)
            [CString.text "data", CString.text "1", CString.text "2", CString.text "out"]))) := by
  have hasks : diskreadAsks ⟨.logdisk, 16, 8⟩
      [CString.text "data", CString.text "1", CString.text "2", CString.text "out"] = ⟨2, 4⟩ := by
    have hone : (strtoull (CString.text "1")).1 = 1 := by decide +kernel
    have htwo : (strtoull (CString.text "2")).1 = 2 := by decide +kernel
    show Asked.mk (2 * (strtoull (CString.text "1")).1) (2 * (strtoull (CString.text "2")).1) = _
    rw [hone, htwo]
  have hiff := (diskReads_exact_iff onePartition_found
    [CString.text "1", CString.text "2", CString.text "out"]).1
  rw [hasks] at hiff
  exact ⟨onePartition_found, hiff.mpr (.inr (.inr ⟨by decide, by decide⟩))⟩

/-- With the offset `2 ^ 63` the check lets a read of the first two sectors of the partition pass
for one far behind it, and without arguments `cmd_diskdump` reads a sector of an empty
partition. -/
theorem diskReads_unchecked :
    (cmdDiskread (fun _ x => x) willingOs tinyDisk (onePartition 16 8)
        [CString.text "data", CString.text "9223372036854775808", CString.text "1",
          CString.text "out"]).output = [16, 17] ∧
      ¬ ReadsExactly (fun _ x => x) ⟨.logdisk, 16, 8⟩ ⟨2 ^ 64, 2⟩ id
        (cmdDiskread (fun _ x => x) willingOs tinyDisk (onePartition 16 8)
          [CString.text "data", CString.text "9223372036854775808", CString.text "1",
            CString.text "out"]) ∧
      getParitionParams tinyDisk (onePartition 16 0) (CString.text "data") =
        .ok ⟨.logdisk, 16, 0⟩ ∧
      (cmdDiskdump (fun _ x => x) tinyDisk (onePartition 16 0) [CString.text "data"]).requests =
        [⟨.logdisk, 16, 1⟩] := by
  have hrun : (cmdDiskread (fun _ x => x) willingOs tinyDisk (onePartition 16 8)
      [CString.text "data", CString.text "9223372036854775808", CString.text "1",
        CString.text "out"]).output = [16, 17] := by decide +kernel
  have hdone : (cmdDiskread (fun _ x => x) willingOs tinyDisk (onePartition 16 8)
      [CString.text "data", CString.text "9223372036854775808", CString.text "1",
        CString.text "out"]).error = none := by decide +kernel
  refine ⟨hrun, fun h => ?_, by decide +kernel, by decide +kernel⟩
  have hexact := h.exact hdone
  rw [hrun] at hexact
  exact absurd hexact (by decide +kernel)

end Novo7

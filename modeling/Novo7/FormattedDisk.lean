import Novo7.DiskRuns

/-!
# A formatted disk

The flash as formatting leaves it: each zone has its data and free blocks in its tables, no log block,
and the tables in the first group of its table block; all other pages are blank. `LML_Init` makes of it
a disk on which nothing has been written (`formatted_exited`), whatever the number of zones and however
many blocks of a zone are bad.
-/

namespace Novo7

open HeldSlots Traced

/-! ## Tables from a list of blocks -/

/-- The free blocks are what the positions hold. -/
theorem BlkTbls.freeNums_eq_held (t : BlkTbls) (cnt : Nat) :
    t.freeNums cnt = held (fun p => if (t.freeBlkTbl p).phyBlkNum = 0xffff then none else
      some (t.freeBlkTbl p).phyBlkNum) cnt := by
  unfold freeNums freeBlks
  induction cnt with
  | zero => rfl
  | succ n ih =>
      by_cases hnone : (t.freeBlkTbl n).phyBlkNum = 0xffff
      · simp [held, Multiset.range_succ, hnone, ← ih]
      · simp [held, Multiset.range_succ, hnone, ← ih, Multiset.singleton_add]

/-- The first blocks are data blocks, the others are free. -/
def formattedTbls (ar : LogicArchi) (l : List Nat) : BlkTbls where
  dataBlkTbl k := ⟨l.getD k 0xffff, 0⟩
  freeBlkTbl p := (l[ar.dataBlkCntOfZone + p]?).elim .none (⟨·, 0⟩)
  logBlkTbl _ := .none

section Tables

variable {ar : LogicArchi} {l : List Nat}

theorem formattedTbls_freeNums (hne : ∀ b ∈ l, b ≠ 0xffff) (cnt : Nat) :
    (formattedTbls ar l).freeNums cnt = ((l.drop ar.dataBlkCntOfZone).take cnt : Multiset Nat) := by
  rw [BlkTbls.freeNums_eq_held, ← held_getElem?]
  refine held_congr fun p _ => ?_
  rw [List.getElem?_drop]
  rcases Option.eq_none_or_eq_some l[ar.dataBlkCntOfZone + p]? with hb | ⟨b, hb⟩
  · simp [formattedTbls, hb, SuperPhyBlk.none]
  · simp [formattedTbls, hb, hne b (List.mem_of_getElem? hb)]

theorem formattedTbls_blocks (hne : ∀ b ∈ l, b ≠ 0xffff) (hdata : ar.dataBlkCntOfZone ≤ l.length)
    (hfew : l.length ≤ ar.dataBlkCntOfZone + ar.freeBlkCntOfZone) :
    (formattedTbls ar l).blocks ar = (l : Multiset Nat) := by
  have hdataNums : held (formattedTbls ar l).dataNum ar.dataBlkCntOfZone =
      (l.take ar.dataBlkCntOfZone : Multiset Nat) := by
    rw [← held_getElem?]
    refine held_congr fun k hk => ?_
    show some (l.getD k 0xffff) = l[k]?
    rw [List.getD_eq_getElem?_getD, List.getElem?_eq_getElem (by omega), Option.getD_some]
  have hlogNums : held (formattedTbls ar l).logNum logBlkCntOfZone = 0 := rfl
  have htake : (l.drop ar.dataBlkCntOfZone).take ar.freeBlkCntOfZone = l.drop ar.dataBlkCntOfZone :=
    List.take_of_length_le (by rw [List.length_drop]; omega)
  unfold BlkTbls.blocks
  rw [hdataNums, hlogNums, formattedTbls_freeNums hne, htake, add_zero, Multiset.coe_add,
    List.take_append_drop]

theorem formattedTbls_countsFit (cnt : Nat) : (formattedTbls ar l).CountsFit cnt := by
  intro p _
  unfold formattedTbls
  dsimp only
  cases l[ar.dataBlkCntOfZone + p]? with
  | none => exact Nat.le_refl _
  | some b => exact Nat.zero_le _

end Tables

/-! ## The flash -/

/-- The tables of a zone with their checksum. -/
def formattedCache (ar : LogicArchi) (l : List Nat) : BlkMapTblCache :=
  let c : BlkMapTblCache := ⟨0xff, false, 0, formattedTbls ar l, 0, 0xff, 0, 0, 0⟩
  { c with checkSum := c.blkSum ar.dataBlkCntOfZone }

section Flash

variable {ar : LogicArchi} (L : ZoneLayout ar) (ls : Nat → List Nat)

/-- The three pages of each zone that are programmed. -/
def formattedPages (ar : LogicArchi) : List (Nat × Nat) :=
  (List.range (ar.dieCntOfNand * ar.zoneCntOfDie)).product (List.range 3)

def formattedCells : Cells := fun a =>
  ((formattedPages ar).find? fun x => tblAddr ar x.1 (L.tblBlk x.1, 0) x.2 = a).map fun x =>
    ⟨tblImage ar.dataBlkCntOfZone (formattedCache ar (ls x.1)) x.2,
      { UserData.blank with
        logicInfo := if x.2 = 0 then tblLogicInfo ar x.1 else 0xffff
        pageStatus := 0x55 }⟩

/-- Before `LML_Init`, with nothing in RAM; which slots are the active ones does not matter. -/
def formatted : Ftl where
  nand := ⟨formattedCells L ls, fun _ => false, 0⟩
  zoneTblPst z := ⟨L.tblBlk z, 0⟩
  blkCache _ := ⟨0xff, false, 0, ⟨fun _ => .none, fun _ => .none, fun _ => .none⟩, 0, 0xff, 0, 0, 0⟩
  actBlk := Fin.last 3
  logAccessAge _ := 0
  logAccessTimer := 0
  pageCache _ := ⟨0xff, 0xff, 0, fun _ => 0xffff, false⟩
  actPage := Fin.last 3
  tempBuf := Buf.blank
  writePageCache := Buf.blank
  processTblBuf := Buf.blank
  logicalCtl := ⟨.none, 0xff, 0xffff, 0xffff, 0xffff, .none, .none, 0⟩
  cachePage := ⟨0xffffffff, 0⟩
  host _ := 0
  marked := []

variable {L ls}

theorem mem_formattedPages {z j : Nat} : (z, j) ∈ formattedPages ar ↔ ar.IsZone z ∧ j < 3 := by
  rw [formattedPages, List.pair_mem_product, List.mem_range, List.mem_range]
  rfl

theorem formattedCells_eq_none {a : PhyPage}
    (h : ∀ z j, ar.IsZone z → j < 3 → tblAddr ar z (L.tblBlk z, 0) j ≠ a) :
    formattedCells L ls a = none := by
  unfold formattedCells
  rw [Option.map_eq_none_iff, List.find?_eq_none]
  rintro ⟨z, j⟩ hmem
  obtain ⟨hz, hj⟩ := mem_formattedPages.mp hmem
  simpa using h z j hz hj

variable (har : ar.Fits)
include har

theorem formatted_room : 3 < ar.pageCntOfLogicBlk := by
  have hpos := har.pageCnt_pos
  have hgroups := har.groups
  omega

theorem formattedCells_tbl {z j : Nat} (hz : ar.IsZone z) (hj : j < 3) :
    ∃ p, formattedCells L ls (tblAddr ar z (L.tblBlk z, 0) j) = some p ∧
      p.main = tblImage ar.dataBlkCntOfZone (formattedCache ar (ls z)) j := by
  have hroom := formatted_room har
  cases hfind : (formattedPages ar).find? fun x =>
      tblAddr ar x.1 (L.tblBlk x.1, 0) x.2 = tblAddr ar z (L.tblBlk z, 0) j with
  | none =>
      rw [List.find?_eq_none] at hfind
      simpa using hfind (z, j) (mem_formattedPages.mpr ⟨hz, hj⟩)
  | some x =>
      obtain ⟨z', j'⟩ := x
      obtain ⟨hz', hj'⟩ := mem_formattedPages.mp (List.mem_of_find?_eq_some hfind)
      have haddr : tblAddr ar z' (L.tblBlk z', 0) j' = tblAddr ar z (L.tblBlk z, 0) j :=
        of_decide_eq_true (List.find?_some hfind :)
      have hsame : z' = z ∧ 0 + j' = 0 + j := by
        by_contra hne
        exact tblPage_ne har hz' hz (show 0 + j' < _ by omega) (show 0 + j < _ by omega) hne haddr
      obtain ⟨rfl, hpages⟩ := hsame
      obtain rfl : j' = j := by omega
      exact ⟨_, congrArg _ hfind, rfl⟩

theorem formattedCells_block {z b : Nat} (hz : ar.IsZone z) (hb : b ∈ L.blks z) (q : Nat) :
    formattedCells L ls (lmlCalculatePhyOpPar ar z b q) = none := by
  refine formattedCells_eq_none fun z' j hz' _ heq => tblBlk_apart har hz' hz hb q ?_
  rw [← heq]
  exact pageAddr_mem ar _ _ _

theorem formatted_inStore {z : Nat} (hz : ar.IsZone z) :
    InStore ar (formatted L ls) z (formattedTbls ar (ls z)) := by
  refine ⟨formattedCache ar (ls z), rfl, blkSum_congr fun _ _ => rfl, fun j hj => ?_⟩
  obtain ⟨p, hp, hmain⟩ := @formattedCells_tbl ar L ls har z j hz hj
  exact ⟨p, hp, fun i _ => by rw [hmain]⟩

/-- The lists are those of the blocks that the zones own. -/
theorem formatted_zoneOK {z : Nat} (hz : ar.IsZone z) (hls : (ls z : Multiset Nat) = L.blks z) :
    ZoneOK L (formattedCells L ls) z (formattedTbls ar (ls z)) := by
  have hne : ∀ b ∈ ls z, b ≠ 0xffff := fun b hb =>
    L.ne_none har (L.mem_own (hls ▸ Multiset.mem_coe.mpr hb))
  have henough := L.enough z
  have hfew := L.few z
  rw [← hls, Multiset.coe_card] at henough hfew
  refine ⟨?_, formattedTbls_countsFit _, fun _ _ => Nat.zero_le _, fun b hb q _ => ?_, fun k hk => .inl ?_,
    fun i _ hused => absurd rfl hused, fun i _ j _ _ hused => absurd rfl hused⟩
  · rw [formattedTbls_blocks hne (by omega) hfew, hls]
  · rw [formattedTbls_freeNums hne] at hb
    refine formattedCells_block har hz ?_ q
    rw [← hls]
    exact Multiset.mem_coe.mpr (List.mem_of_mem_drop (List.mem_of_mem_take (Multiset.mem_coe.mp hb)))
  · refine formattedCells_block har hz ?_ 0
    rw [← hls]
    show (ls z).getD k 0xffff ∈ _
    rw [List.getD_eq_getElem?_getD, List.getElem?_eq_getElem (by omega), Option.getD_some]
    exact Multiset.mem_coe.mpr (List.getElem_mem _)

theorem formatted_place {z : Nat} (hz : ar.IsZone z) :
    TblPlace ar (formattedCells L ls) z ⟨L.tblBlk z, 0⟩ := by
  have hroom := formatted_room har
  refine ⟨rfl, by dsimp only; omega, fun q hq hle => ?_⟩
  refine formattedCells_eq_none fun z' j hz' hj => ?_
  exact tblPage_ne har hz' hz (show 0 + j < _ by omega) hq fun hsame => by
    dsimp only at hle
    omega

/-- Nothing has been written, and all of it is on the flash. -/
theorem formatted_exited (hls : ∀ z, ar.IsZone z → (ls z : Multiset Nat) = L.blks z) :
    Exited L (fun _ => none) (formatted L ls) where
  coherent := {
    clear := fun _ => rfl
    tblBlk := fun _ _ => rfl
    place := fun _ hz => formatted_place har hz
    unused := fun _ _ => rfl
    zone := fun _ hne => absurd rfl hne
    tbls := fun _ hne => absurd rfl hne
    clean := fun _ hne => absurd rfl hne
    zone_inj := fun _ _ _ hne => absurd rfl hne
    away := fun z hz _ => ⟨_, formatted_inStore har hz, formatted_zoneOK har hz (hls z hz),
      fun _ hzone => absurd hzone.symm (hz.ne_none har)⟩
    mapZone := fun _ hne => absurd rfl hne
    map := fun _ _ _ hne => absurd rfl hne
    mapDirty := fun _ hne => absurd rfl hne
    map_inj := fun _ _ _ _ hne => absurd rfl hne }
  clean _ := rfl
  stored _ hz := ⟨_, .inr ⟨fun _ => (hz.ne_none har).symm, formatted_inStore har hz⟩,
    formatted_inStore har hz⟩
  pages := ⟨fun _ => none, fun _ _ hD => (Option.some_ne_none _ hD.symm).elim,
    fun _ _ _ _ hV => (Option.some_ne_none _ hV.symm).elim⟩
  known _ _ _ _ hV := (Option.some_ne_none _ hV.symm).elim

end Flash

/-! ## Zones of 1024 blocks -/

/-- The zones of a die one behind the other; the first block of a zone is its table block. -/
def evenLayout (ar : LogicArchi) (hzones : 0 < ar.zoneCntOfDie)
    (hroom : 1024 * ar.zoneCntOfDie ≤ ar.superBlkCntOfDie) (hdata : ar.dataBlkCntOfZone + 16 < 1023) :
    ZoneLayout ar where
  blks z := ((List.range 1023).map fun i => 1024 * (z % ar.zoneCntOfDie) + 1 + i : List Nat)
  tblBlk z := 1024 * (z % ar.zoneCntOfDie)
  nodup z := by
    rw [Multiset.nodup_cons, Multiset.coe_nodup, Multiset.mem_coe, List.mem_map]
    refine ⟨?_, (List.nodup_range (n := 1023)).map fun i j hij => by simpa using hij⟩
    rintro ⟨i, -, hi⟩
    omega
  lt z b hb := by
    have hz := Nat.mod_lt z hzones
    rw [Multiset.mem_cons, Multiset.mem_coe, List.mem_map] at hb
    rcases hb with rfl | ⟨i, hi, rfl⟩
    · omega
    · rw [List.mem_range] at hi
      omega
  apart z z' hne hdie := by
    have hz : z % ar.zoneCntOfDie ≠ z' % ar.zoneCntOfDie := fun hmod => hne (by
      rw [← Nat.div_add_mod z ar.zoneCntOfDie, ← Nat.div_add_mod z' ar.zoneCntOfDie, hmod,
        show z / ar.zoneCntOfDie = z' / ar.zoneCntOfDie from hdie])
    have hmem {y b : Nat} (hb : b ∈ 1024 * (y % ar.zoneCntOfDie) ::ₘ
        ((List.range 1023).map fun i => 1024 * (y % ar.zoneCntOfDie) + 1 + i : List Nat)) :
        b / 1024 = y % ar.zoneCntOfDie := by
      rw [Multiset.mem_cons, Multiset.mem_coe, List.mem_map] at hb
      rcases hb with rfl | ⟨i, hi, rfl⟩
      · omega
      · rw [List.mem_range] at hi
        omega
    exact Multiset.disjoint_left.mpr fun hb hb' => hz ((hmem hb).symm.trans (hmem hb'))
  enough z := by
    rw [Multiset.coe_card, List.length_map, List.length_range]
    exact hdata
  few z := by
    rw [Multiset.coe_card, List.length_map, List.length_range]
    unfold LogicArchi.freeBlkCntOfZone blockCntOfZone
    omega

end Novo7

import Mathlib.Data.Multiset.Filter
import Mathlib.Data.Multiset.Range
import Novo7.RingScan
import Novo7.ZoneSwitch

/-!
# The free block table

`BMM_GetFreeBlk` takes a block with a lowest or a highest erase count out of the free block table.
It starts behind the position it took the last one from and goes around the table once.
`BMM_SetFreeBlk` puts a block into the first empty position. What the positions mean to their
callers is a multiset of blocks: `Served` says what the two do to it, and `freeTbl_exact` that they
do it, from every position and over any sequence of the two.
-/

namespace Novo7

open RingScan Traced

/-! ## The blocks of the table -/

/-- A block, with an erase count that is a halfword. -/
def SuperPhyBlk.IsBlk (b : SuperPhyBlk) : Prop := b.phyBlkNum ≠ 0xffff ∧ b.blkEraseCnt ≤ 0xffff

namespace BlkTbls

variable (t : BlkTbls) (cnt : Nat)

/-- The erase count that a position takes part with in the search. -/
def freeKey (i : Nat) : Option Nat :=
  if (t.freeBlkTbl i).phyBlkNum = 0xffff then none else some (t.freeBlkTbl i).blkEraseCnt

/-- The blocks in the free block table. -/
def freeBlks : Multiset SuperPhyBlk :=
  ((Multiset.range cnt).map t.freeBlkTbl).filter fun b => b.phyBlkNum ≠ 0xffff

end BlkTbls

/-- `LOWEST_EC_TYPE` prefers the lower erase count, `HIGHEST_EC_TYPE` the higher one. -/
def PreferredCnt (lowest : Bool) (a b : Nat) : Prop := if lowest then a ≤ b else a ≥ b

instance (lowest : Bool) : DecidableRel (PreferredCnt lowest) := fun a b => by
  unfold PreferredCnt
  infer_instance

theorem PreferredCnt.total (lowest : Bool) (a b : Nat) :
    PreferredCnt lowest a b ∨ PreferredCnt lowest b a := by
  cases lowest with
  | true => exact Nat.le_total a b
  | false => exact Nat.le_total b a

instance (lowest : Bool) : IsTrans Nat (PreferredCnt lowest) where
  trans a b c hab hbc := by
    cases lowest with
    | true => exact Nat.le_trans hab hbc
    | false => exact Nat.le_trans hbc hab

namespace BlkTbls

variable {t : BlkTbls} {cnt : Nat}

theorem freeKey_eq_none {i : Nat} :
    t.freeKey i = none ↔ (t.freeBlkTbl i).phyBlkNum = 0xffff := by
  unfold freeKey
  split_ifs with h
  · exact iff_of_true rfl h
  · exact iff_of_false nofun h

theorem freeKey_eq_some {i k : Nat} : t.freeKey i = some k ↔
    (t.freeBlkTbl i).phyBlkNum ≠ 0xffff ∧ (t.freeBlkTbl i).blkEraseCnt = k := by
  unfold freeKey
  split_ifs with h
  · exact iff_of_false nofun fun hk => hk.1 h
  · rw [Option.some.injEq]
    exact (and_iff_right h).symm

/-- The search is a scan of the positions as a ring. -/
theorem findFreeBlk_eq_select (lowest : Bool) : ∀ (n item : Nat) (pst : Option Nat)
    (eraseCnt : Nat), t.findFreeBlk cnt lowest n item pst eraseCnt =
      select t.freeKey (PreferredCnt lowest) (visits cnt n item) pst eraseCnt := by
  intro n
  induction n with
  | zero => exact fun _ _ _ => rfl
  | succ n ih =>
      intro item pst eraseCnt
      rw [findFreeBlk, visits, select]
      generalize (if item ≥ cnt then 0 else item) = i
      rw [ih, ih]
      by_cases hempty : (t.freeBlkTbl i).phyBlkNum = 0xffff
      · rw [freeKey_eq_none.mpr hempty, if_neg fun h => h.1 hempty]
      · rw [freeKey_eq_some.mpr ⟨hempty, rfl⟩]
        refine if_congr ?_ rfl rfl
        exact and_iff_right hempty

/-- The search ends at a block that is free. -/
theorem findFreeBlk_found (hcnt : 0 < cnt) {lowest : Bool} {n item eraseCnt p : Nat}
    {pst : Option Nat} (h : t.findFreeBlk cnt lowest n item pst eraseCnt = some p) :
    pst = some p ∨ p < cnt ∧ (t.freeBlkTbl p).phyBlkNum ≠ 0xffff := by
  rw [findFreeBlk_eq_select] at h
  refine (select_mem h).imp_right fun ⟨hp, hkey⟩ => ⟨visits_lt hcnt hp, ?_⟩
  obtain ⟨k, hk⟩ := Option.isSome_iff_exists.mp hkey
  exact (freeKey_eq_some.mp hk).1

/-- The erase counts are halfwords. -/
def CountsFit (t : BlkTbls) (cnt : Nat) : Prop :=
  ∀ i < cnt, (t.freeBlkTbl i).blkEraseCnt ≤ 0xffff

/-- The search of `BMM_GetFreeBlk`, from whatever position. -/
theorem findFreeBlk_picked (h : t.CountsFit cnt) (lowest : Bool) (item : Nat) :
    ∃ b, Picked t.freeKey (PreferredCnt lowest) (if lowest then 0xffff else 0)
      (visits cnt cnt item)
      (t.findFreeBlk cnt lowest cnt item none (if lowest then 0xffff else 0)) b := by
  rw [findFreeBlk_eq_select]
  refine select_best (PreferredCnt.total lowest) fun i hi k hk => ?_
  obtain ⟨-, rfl⟩ := freeKey_eq_some.mp hk
  have hi := List.mem_range.mp ((visits_perm cnt item).mem_iff.mp hi)
  cases lowest with
  | true => exact h i hi
  | false => exact Nat.zero_le _

theorem findFreeBlk_none (h : t.CountsFit cnt) {lowest : Bool} {item : Nat}
    (hpst : t.findFreeBlk cnt lowest cnt item none (if lowest then 0xffff else 0) = none) :
    ∀ i < cnt, (t.freeBlkTbl i).phyBlkNum = 0xffff := by
  obtain ⟨b, hsel⟩ := findFreeBlk_picked h lowest item
  rw [hpst] at hsel
  exact fun i hi => freeKey_eq_none.mp (hsel.2 i (mem_visits hi item))

theorem findFreeBlk_best (h : t.CountsFit cnt) {lowest : Bool} {item p : Nat}
    (hpst : t.findFreeBlk cnt lowest cnt item none (if lowest then 0xffff else 0) = some p) :
    p < cnt ∧ (t.freeBlkTbl p).phyBlkNum ≠ 0xffff ∧
      ∀ i < cnt, (t.freeBlkTbl i).phyBlkNum ≠ 0xffff →
        PreferredCnt lowest (t.freeBlkTbl p).blkEraseCnt (t.freeBlkTbl i).blkEraseCnt := by
  obtain ⟨b, hsel⟩ := findFreeBlk_picked h lowest item
  rw [hpst] at hsel
  obtain ⟨hp, hkey, hbest⟩ := hsel
  obtain ⟨hblk, rfl⟩ := freeKey_eq_some.mp hkey
  exact ⟨List.mem_range.mp ((visits_perm cnt item).mem_iff.mp hp), hblk,
    fun i hi hi' => hbest i (mem_visits hi item) _ (freeKey_eq_some.mpr ⟨hi', rfl⟩)⟩

/-! ## The multiset -/

theorem mem_freeBlks {b : SuperPhyBlk} : b ∈ t.freeBlks cnt ↔
    ∃ i < cnt, t.freeBlkTbl i = b ∧ b.phyBlkNum ≠ 0xffff := by
  rw [freeBlks, Multiset.mem_filter, Multiset.mem_map]
  constructor
  · rintro ⟨⟨i, hi, hb⟩, hblk⟩
    exact ⟨i, Multiset.mem_range.mp hi, hb, hblk⟩
  · rintro ⟨i, hi, hb, hblk⟩
    exact ⟨⟨i, Multiset.mem_range.mpr hi, hb⟩, hblk⟩

theorem freeBlks_eq_zero :
    t.freeBlks cnt = 0 ↔ ∀ i < cnt, (t.freeBlkTbl i).phyBlkNum = 0xffff := by
  rw [Multiset.eq_zero_iff_forall_notMem]
  constructor
  · exact fun h i hi => by_contra fun hblk => h _ (mem_freeBlks.mpr ⟨i, hi, rfl, hblk⟩)
  · intro h b hb
    obtain ⟨i, hi, rfl, hblk⟩ := mem_freeBlks.mp hb
    exact hblk (h i hi)

theorem freeBlks_card_le (t : BlkTbls) (cnt : Nat) : (t.freeBlks cnt).card ≤ cnt := by
  have hle := Multiset.card_le_card (Multiset.filter_le
    (fun b : SuperPhyBlk => b.phyBlkNum ≠ 0xffff) ((Multiset.range cnt).map t.freeBlkTbl))
  rwa [Multiset.card_map, Multiset.card_range] at hle

/-- All positions hold a block: there are as many blocks as positions. -/
theorem freeBlks_card_eq :
    (t.freeBlks cnt).card = cnt ↔ ∀ i < cnt, (t.freeBlkTbl i).phyBlkNum ≠ 0xffff := by
  have hall : (t.freeBlks cnt).card = ((Multiset.range cnt).map t.freeBlkTbl).card ↔
      ∀ b ∈ (Multiset.range cnt).map t.freeBlkTbl, b.phyBlkNum ≠ 0xffff := by
    rw [freeBlks, ← Multiset.countP_eq_card_filter]
    exact Multiset.countP_eq_card
  rw [Multiset.card_map, Multiset.card_range] at hall
  rw [hall]
  constructor
  · exact fun h i hi => h _ (Multiset.mem_map_of_mem _ (Multiset.mem_range.mpr hi))
  · intro h b hb
    obtain ⟨i, hi, rfl⟩ := Multiset.mem_map.mp hb
    exact h i (Multiset.mem_range.mp hi)

/-- The blocks of the other positions are not touched. -/
theorem freeBlks_setFree (t : BlkTbls) {p : Nat} (hp : p < cnt) : ∃ rest : Multiset SuperPhyBlk,
    ∀ b, (t.setFree p b).freeBlks cnt = if b.phyBlkNum ≠ 0xffff then b ::ₘ rest else rest := by
  refine ⟨(((Multiset.range cnt).erase p).map t.freeBlkTbl).filter fun b => b.phyBlkNum ≠ 0xffff,
    fun b => ?_⟩
  have hmap : ((Multiset.range cnt).erase p).map (t.setFree p b).freeBlkTbl =
      ((Multiset.range cnt).erase p).map t.freeBlkTbl := by
    refine Multiset.map_congr rfl fun i hi => ?_
    have hne : i ≠ p := ((Multiset.nodup_range cnt).mem_erase_iff.mp hi).1
    exact Function.update_of_ne hne _ _
  have hp' : (t.setFree p b).freeBlkTbl p = b := Function.update_self ..
  have hall : (Multiset.range cnt).map (t.setFree p b).freeBlkTbl =
      b ::ₘ ((Multiset.range cnt).erase p).map t.freeBlkTbl := by
    have hcons := congrArg (Multiset.map (t.setFree p b).freeBlkTbl)
      (Multiset.cons_erase (Multiset.mem_range.mpr hp))
    rw [Multiset.map_cons, hmap, hp'] at hcons
    exact hcons.symm
  rw [freeBlks, hall]
  split_ifs with hb
  · exact Multiset.filter_cons_of_pos _ hb
  · exact Multiset.filter_cons_of_neg _ hb

theorem setFree_self (t : BlkTbls) (p : Nat) : t.setFree p (t.freeBlkTbl p) = t := by
  rw [setFree, Function.update_eq_self]

/-- Taking a block out. -/
theorem freeBlks_setFree_none {p : Nat} (hp : p < cnt)
    (hblk : (t.freeBlkTbl p).phyBlkNum ≠ 0xffff) :
    (t.setFree p .none).freeBlks cnt = (t.freeBlks cnt).erase (t.freeBlkTbl p) := by
  obtain ⟨rest, hrest⟩ := t.freeBlks_setFree hp
  have hself := hrest (t.freeBlkTbl p)
  rw [setFree_self, if_pos hblk] at hself
  rw [hself, Multiset.erase_cons_head, hrest, if_neg fun h => h rfl]

/-- Putting a block into an empty position. -/
theorem freeBlks_setFree_blk {p : Nat} {b : SuperPhyBlk} (hp : p < cnt)
    (hempty : (t.freeBlkTbl p).phyBlkNum = 0xffff) (hb : b.phyBlkNum ≠ 0xffff) :
    (t.setFree p b).freeBlks cnt = b ::ₘ t.freeBlks cnt := by
  obtain ⟨rest, hrest⟩ := t.freeBlks_setFree hp
  have hself := hrest (t.freeBlkTbl p)
  rw [setFree_self, if_neg fun h => h hempty] at hself
  rw [hself, hrest, if_pos hb]

theorem CountsFit.setFree (h : t.CountsFit cnt) {p : Nat} {b : SuperPhyBlk}
    (hb : b.blkEraseCnt ≤ 0xffff) : (t.setFree p b).CountsFit cnt := by
  intro i hi
  by_cases hip : i = p
  · rw [hip]
    show (Function.update t.freeBlkTbl p b p).blkEraseCnt ≤ 0xffff
    rwa [Function.update_self]
  · show (Function.update t.freeBlkTbl p b i).blkEraseCnt ≤ 0xffff
    rw [Function.update_of_ne hip]
    exact h i hi

end BlkTbls

/-! ## What the two functions do -/

section Functions

variable {ar : LogicArchi} {s : Ftl}

/-- What `BMM_GetFreeBlk` leaves behind when it takes position `p`. -/
def takenFrom (s : Ftl) (p : Nat) : Ftl :=
  s.setBlkMapCache fun c => { c with lastFreeBlkPst := p, tbls := c.tbls.setFree p .none }

/-- The outcome, by what the search finds. -/
theorem bmmGetFreeBlk_outcome (ar : LogicArchi) (lowest : Bool) (s : Ftl) :
    (bmmGetFreeBlk ar lowest s).1 =
      match s.tbls.findFreeBlk ar.freeBlkCntOfZone lowest ar.freeBlkCntOfZone
        (u16 (s.blkMapCache.lastFreeBlkPst + 1)) none (if lowest then 0xffff else 0) with
      | none => .err (-1) s
      | some p => .ret (s.tbls.freeBlkTbl p) (takenFrom s p) := by
  have hrun : bmmGetFreeBlk ar lowest s = (match s.tbls.findFreeBlk ar.freeBlkCntOfZone lowest
      ar.freeBlkCntOfZone (u16 (s.blkMapCache.lastFreeBlkPst + 1)) none
      (if lowest then 0xffff else 0) with
    | none => (fail (-1) : FtlProg SuperPhyBlk)
    | some p => do
        emit (.freeTaken (s.tbls.freeBlkTbl p) s)
        modify (·.setBlkMapCache fun c =>
          { c with lastFreeBlkPst := p, tbls := c.tbls.setFree p .none })
        pure (s.tbls.freeBlkTbl p)) s := rfl
  rw [hrun]
  cases s.tbls.findFreeBlk ar.freeBlkCntOfZone lowest ar.freeBlkCntOfZone
      (u16 (s.blkMapCache.lastFreeBlkPst + 1)) none (if lowest then 0xffff else 0) with
  | none => rfl
  | some p => rfl

/-- It fails on a table without a block, and changes nothing. -/
theorem bmmGetFreeBlk_fails (h : s.tbls.freeBlks ar.freeBlkCntOfZone = 0) (lowest : Bool) :
    (bmmGetFreeBlk ar lowest s).1 = .err (-1) s := by
  rw [bmmGetFreeBlk_outcome]
  cases hpst : s.tbls.findFreeBlk ar.freeBlkCntOfZone lowest ar.freeBlkCntOfZone
      (u16 (s.blkMapCache.lastFreeBlkPst + 1)) none (if lowest then 0xffff else 0) with
  | none => rfl
  | some p =>
      have hcnt : 0 < ar.freeBlkCntOfZone := by
        refine Nat.pos_of_ne_zero fun h0 => ?_
        rw [h0] at hpst
        cases hpst
      obtain ⟨hp, hblk⟩ := (BlkTbls.findFreeBlk_found hcnt hpst).resolve_left nofun
      exact absurd (BlkTbls.freeBlks_eq_zero.mp h p hp) hblk

/-- A position with a block that is preferred to all the others. -/
structure BestPst (t : BlkTbls) (cnt : Nat) (lowest : Bool) (p : Nat) : Prop where
  lt : p < cnt
  mem : t.freeBlkTbl p ∈ t.freeBlks cnt
  best : ∀ b ∈ t.freeBlks cnt, PreferredCnt lowest (t.freeBlkTbl p).blkEraseCnt b.blkEraseCnt

/-- Else it takes one block out, one of those that are preferred to all. -/
theorem bmmGetFreeBlk_best (hs : s.tbls.CountsFit ar.freeBlkCntOfZone)
    (h : s.tbls.freeBlks ar.freeBlkCntOfZone ≠ 0) (lowest : Bool) :
    ∃ p, BestPst s.tbls ar.freeBlkCntOfZone lowest p ∧
      (bmmGetFreeBlk ar lowest s).1 = .ret (s.tbls.freeBlkTbl p) (takenFrom s p) := by
  rw [bmmGetFreeBlk_outcome]
  cases hpst : s.tbls.findFreeBlk ar.freeBlkCntOfZone lowest ar.freeBlkCntOfZone
      (u16 (s.blkMapCache.lastFreeBlkPst + 1)) none (if lowest then 0xffff else 0) with
  | none => exact absurd (BlkTbls.freeBlks_eq_zero.mpr (BlkTbls.findFreeBlk_none hs hpst)) h
  | some p =>
      obtain ⟨hp, hblk, hbest⟩ := BlkTbls.findFreeBlk_best hs hpst
      refine ⟨p, ⟨hp, BlkTbls.mem_freeBlks.mpr ⟨p, hp, rfl, hblk⟩, fun b hb => ?_⟩, rfl⟩
      obtain ⟨i, hi, rfl, hi'⟩ := BlkTbls.mem_freeBlks.mp hb
      exact hbest i hi hi'

/-- The first empty position of the table. -/
structure FirstEmpty (t : BlkTbls) (cnt p : Nat) : Prop where
  lt : p < cnt
  empty : (t.freeBlkTbl p).phyBlkNum = 0xffff
  first : ∀ i < p, (t.freeBlkTbl i).phyBlkNum ≠ 0xffff

theorem emptyFreePst_eq_some {t : BlkTbls} {cnt p : Nat} (h : t.emptyFreePst cnt = some p) :
    FirstEmpty t cnt p := by
  obtain ⟨hempty, hp, hfirst⟩ := List.find?_range_eq_some.mp h
  refine ⟨List.mem_range.mp hp, of_decide_eq_true hempty, fun i hi hi' => ?_⟩
  have hnot := hfirst i hi
  rw [decide_eq_true hi'] at hnot
  cases hnot

theorem emptyFreePst_eq_none {t : BlkTbls} {cnt : Nat} :
    t.emptyFreePst cnt = none ↔ (t.freeBlks cnt).card = cnt := by
  unfold BlkTbls.emptyFreePst
  rw [BlkTbls.freeBlks_card_eq, List.find?_eq_none]
  refine forall_congr' fun i => ?_
  rw [List.mem_range, decide_eq_true_iff]

/-- A block goes into the first empty position, if there is one. -/
theorem setFreeBlk_room {t : BlkTbls} {cnt : Nat} (h : (t.freeBlks cnt).card < cnt)
    (b : SuperPhyBlk) : ∃ p, FirstEmpty t cnt p ∧ t.setFreeBlk cnt b = t.setFree p b := by
  unfold BlkTbls.setFreeBlk
  cases hpst : t.emptyFreePst cnt with
  | none => exact absurd (emptyFreePst_eq_none.mp hpst) h.ne
  | some p => exact ⟨p, emptyFreePst_eq_some hpst, rfl⟩

/-- A block that is put into a full table is lost. -/
theorem setFreeBlk_full {t : BlkTbls} {cnt : Nat} (h : (t.freeBlks cnt).card = cnt)
    (b : SuperPhyBlk) : t.setFreeBlk cnt b = t := by
  unfold BlkTbls.setFreeBlk
  rw [emptyFreePst_eq_none.mpr h]

end Functions

/-! ## Any sequence of the two -/

/-- A call of one of the two. -/
inductive FreeOp where
  | get (lowest : Bool)
  | set (b : SuperPhyBlk)

/-- What a call does to a multiset of blocks that has room for `cnt`, and the block it hands out. -/
inductive Served (cnt : Nat) : Multiset SuperPhyBlk → FreeOp → Option SuperPhyBlk →
    Multiset SuperPhyBlk → Prop
  | fails (lowest : Bool) : Served cnt 0 (.get lowest) none 0
  | takes {m : Multiset SuperPhyBlk} {lowest : Bool} {b : SuperPhyBlk} (mem : b ∈ m)
      (best : ∀ b' ∈ m, PreferredCnt lowest b.blkEraseCnt b'.blkEraseCnt) :
      Served cnt m (.get lowest) (some b) (m.erase b)
  | adds {m : Multiset SuperPhyBlk} (b : SuperPhyBlk) (room : m.card < cnt) :
      Served cnt m (.set b) none (b ::ₘ m)
  | full {m : Multiset SuperPhyBlk} (b : SuperPhyBlk) (full : m.card = cnt) :
      Served cnt m (.set b) none m

/-- Calls one after another. -/
inductive ServedAll (cnt : Nat) : Multiset SuperPhyBlk → List (FreeOp × Option SuperPhyBlk) →
    Multiset SuperPhyBlk → Prop
  | nil {m : Multiset SuperPhyBlk} : ServedAll cnt m [] m
  | cons {m m' m'' : Multiset SuperPhyBlk} {op : FreeOp} {r : Option SuperPhyBlk}
      {ops : List (FreeOp × Option SuperPhyBlk)} (first : Served cnt m op r m')
      (rest : ServedAll cnt m' ops m'') : ServedAll cnt m ((op, r) :: ops) m''

/-- The block that a call hands out, and the state after it. -/
def FreeOp.run (ar : LogicArchi) (s : Ftl) : FreeOp → Option SuperPhyBlk × Ftl
  | .get lowest =>
      match (bmmGetFreeBlk ar lowest s).1 with
      | .ret b s' => (some b, s')
      | .err _ s' => (none, s')
  | .set b => (none, (bmmSetFreeBlk ar b s).1.state)

/-- A sequence of calls, with what each handed out. -/
def runFreeOps (ar : LogicArchi) : List FreeOp → Ftl → List (FreeOp × Option SuperPhyBlk) × Ftl
  | [], s => ([], s)
  | op :: ops, s =>
      let r := op.run ar s
      let rest := runFreeOps ar ops r.2
      ((op, r.1) :: rest.1, rest.2)

/-- What a call is given is a block. -/
def FreeOp.Given : FreeOp → Prop
  | .get _ => True
  | .set b => b.IsBlk

section Runs

variable {ar : LogicArchi} {s : Ftl}

theorem tbls_takenFrom (s : Ftl) (p : Nat) : (takenFrom s p).tbls = s.tbls.setFree p .none := by
  unfold takenFrom
  rw [Ftl.tbls, Ftl.blkMapCache_setBlkMapCache]
  rfl

theorem tbls_bmmSetFreeBlk (ar : LogicArchi) (b : SuperPhyBlk) (s : Ftl) :
    (bmmSetFreeBlk ar b s).1.state.tbls = s.tbls.setFreeBlk ar.freeBlkCntOfZone b := by
  show (s.setTbls (·.setFreeBlk ar.freeBlkCntOfZone b)).tbls = _
  rw [Ftl.setTbls, Ftl.tbls, Ftl.blkMapCache_setBlkMapCache]
  rfl

/-- A call on the table is a call on its multiset. -/
theorem FreeOp.run_served (hs : s.tbls.CountsFit ar.freeBlkCntOfZone) {op : FreeOp}
    (hop : op.Given) :
    Served ar.freeBlkCntOfZone (s.tbls.freeBlks ar.freeBlkCntOfZone) op (op.run ar s).1
        ((op.run ar s).2.tbls.freeBlks ar.freeBlkCntOfZone) ∧
      (op.run ar s).2.tbls.CountsFit ar.freeBlkCntOfZone := by
  cases op with
  | get lowest =>
      rw [FreeOp.run]
      by_cases hzero : s.tbls.freeBlks ar.freeBlkCntOfZone = 0
      · rw [bmmGetFreeBlk_fails hzero lowest]
        dsimp only
        rw [hzero]
        exact ⟨.fails lowest, hs⟩
      · obtain ⟨p, hp, hout⟩ := bmmGetFreeBlk_best hs hzero lowest
        obtain ⟨-, -, -, hblk⟩ := BlkTbls.mem_freeBlks.mp hp.mem
        rw [hout]
        dsimp only
        rw [tbls_takenFrom, BlkTbls.freeBlks_setFree_none hp.lt hblk]
        exact ⟨.takes hp.mem hp.best, hs.setFree (Nat.le_refl _)⟩
  | set b =>
      rw [FreeOp.run]
      dsimp only
      rw [tbls_bmmSetFreeBlk]
      rcases Nat.lt_or_eq_of_le (s.tbls.freeBlks_card_le ar.freeBlkCntOfZone) with hroom | hfull
      · obtain ⟨p, hp, heq⟩ := setFreeBlk_room hroom b
        rw [heq, BlkTbls.freeBlks_setFree_blk hp.lt hp.empty hop.1]
        exact ⟨.adds b hroom, hs.setFree hop.2⟩
      · rw [setFreeBlk_full hfull]
        exact ⟨.full b hfull, hs⟩

theorem runFreeOps_served : ∀ {ops : List FreeOp} {s : Ftl},
    s.tbls.CountsFit ar.freeBlkCntOfZone → (∀ op ∈ ops, op.Given) →
    ServedAll ar.freeBlkCntOfZone (s.tbls.freeBlks ar.freeBlkCntOfZone) (runFreeOps ar ops s).1
      ((runFreeOps ar ops s).2.tbls.freeBlks ar.freeBlkCntOfZone) := by
  intro ops
  induction ops with
  | nil => exact fun _ _ => .nil
  | cons op ops ih =>
      intro s hs hops
      obtain ⟨hop, hrest⟩ := List.forall_mem_cons.mp hops
      obtain ⟨hserved, hs'⟩ := FreeOp.run_served hs hop
      exact .cons hserved (ih hs' hrest)

end Runs

/-- The two functions on the tables of a state, for every last position. -/
structure FreeTblExact (ar : LogicArchi) (s : Ftl) : Prop where
  /-- it fails if and only if there is no block -/
  fails (lowest : Bool) : (∃ s', (bmmGetFreeBlk ar lowest s).1 = .err (-1) s') ↔
    s.tbls.freeBlks ar.freeBlkCntOfZone = 0
  /-- else it takes out a best one, and nothing else changes -/
  takes (lowest : Bool) : s.tbls.freeBlks ar.freeBlkCntOfZone ≠ 0 →
    ∃ p, BestPst s.tbls ar.freeBlkCntOfZone lowest p ∧
      (bmmGetFreeBlk ar lowest s).1 = .ret (s.tbls.freeBlkTbl p) (takenFrom s p)
  /-- a block goes into an empty position, and nothing else changes -/
  adds (b : SuperPhyBlk) :
    (∃ i < ar.freeBlkCntOfZone, (s.tbls.freeBlkTbl i).phyBlkNum = 0xffff) →
    ∃ p, FirstEmpty s.tbls ar.freeBlkCntOfZone p ∧
      (bmmSetFreeBlk ar b s).1 = .ret () (s.setTbls (·.setFree p b))
  /-- any sequence does to the multiset of blocks what it should -/
  runs (ops : List FreeOp) : (∀ op ∈ ops, op.Given) →
    ServedAll ar.freeBlkCntOfZone (s.tbls.freeBlks ar.freeBlkCntOfZone) (runFreeOps ar ops s).1
      ((runFreeOps ar ops s).2.tbls.freeBlks ar.freeBlkCntOfZone)

theorem freeTbl_exact {ar : LogicArchi} {s : Ftl} (hs : s.tbls.CountsFit ar.freeBlkCntOfZone) :
    FreeTblExact ar s where
  fails lowest := by
    constructor
    · rintro ⟨s', hout⟩
      by_contra hne
      obtain ⟨p, -, hret⟩ := bmmGetFreeBlk_best hs hne lowest
      rw [hret] at hout
      cases hout
    · exact fun hzero => ⟨s, bmmGetFreeBlk_fails hzero lowest⟩
  takes lowest h := bmmGetFreeBlk_best hs h lowest
  adds b := by
    rintro ⟨i, hi, hempty⟩
    have hroom : (s.tbls.freeBlks ar.freeBlkCntOfZone).card < ar.freeBlkCntOfZone :=
      Nat.lt_of_le_of_ne (s.tbls.freeBlks_card_le _) fun hfull =>
        BlkTbls.freeBlks_card_eq.mp hfull i hi hempty
    obtain ⟨p, hp, heq⟩ := setFreeBlk_room hroom b
    refine ⟨p, hp, ?_⟩
    have hset : s.setTbls (·.setFreeBlk ar.freeBlkCntOfZone b) = s.setTbls (·.setFree p b) := by
      show (s.setBlkMapCache fun c =>
        { c with tbls := s.tbls.setFreeBlk ar.freeBlkCntOfZone b }) = _
      rw [heq]
      rfl
    exact congrArg (Outcome.ret ()) hset
  runs ops h := runFreeOps_served hs h

/-- A table of free blocks whose counts are all 0. -/
theorem freeTbl_exact_fourCached : FreeTblExact fiveZones fourCached :=
  freeTbl_exact fun _ _ => Nat.zero_le _

end Novo7

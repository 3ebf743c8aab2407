import Novo7.PhysicalAddress
import Novo7.TblStore

/-!
# Whose status an erase returns

`LML_VirtualBlkErase` and `_VirtualBlockErase` erase a block in each bank of a super block, and
afterwards ask for the status of as many banks, counted from bank 0. The banks of a die begin
elsewhere when its chip is not the first one, or one of the first two. `erase_reported_iff`: from
then on the result is what the first banks had to report before.
-/

namespace Novo7

open Traced Machine

/-! ## The formatter's function -/

/-- `_VirtualBlockErase`; `_CalculatePhyOpPar` is the function of the logic layer. -/
def virtualBlockErase (ar : LogicArchi) (env : NandEnv) (nDieNum nBlkNum : Nat) : FtlProg Int := do
  forRange ar.interleaveBankCnt fun i =>
    phyBlockErase env (lmlCalculatePhyOpPar ar (nDieNum * ar.zoneCntOfDie) nBlkNum i)
  synchBanks 0 ar.interleaveBankCnt

/-- The function returns success. -/
def Succeeds (m : FtlProg Int) (s : Ftl) : Prop := ∃ s', (m s).1 = .ret 0 s'

/-- The next `cnt` erases succeed. -/
def AllErased (env : NandEnv) (cnt : Nat) (s : Ftl) : Prop :=
  ∀ i < cnt, (env.erase (s.nand.clock + i)).isDone = true

/-- No failure is left in the status of the first `cnt` banks. -/
def NoneFailed (cnt : Nat) (s : Ftl) : Prop := ∀ i < cnt, s.nand.failed i = false

/-! ## What is read -/

section Loops

variable {ar : LogicArchi} {env : NandEnv} {z b : Nat}

/-- An erase leaves its outcome in the bank. -/
theorem phyBlockErase_status (a : PhyPage) (s : Ftl) :
    WP anyRun (phyBlockErase env a)
      (fun _ s' => s'.nand.clock = s.nand.clock + 1 ∧
        s'.nand.failed a.bank = !(env.erase s.nand.clock).isDone ∧
        ∀ bank, bank ≠ a.bank → s'.nand.failed bank = s.nand.failed bank)
      (fun _ _ => False) s := by
  refine WP.bind (WP.get (WP.bind (WP.emit fun _ => ⟨trivial, WP.bind (WP.modify ?_)⟩)))
  cases env.erase s.nand.clock <;>
    exact WP.modify ⟨rfl, Function.update_self .., fun bank hbank => Function.update_of_ne hbank ..⟩

/-- Erases in different banks leave each its own outcome, and the other banks as they were. -/
theorem eraseLoop_status {cnt : Nat} {addr : Nat → PhyPage}
    (hinj : ∀ i < cnt, ∀ j < cnt, (addr i).bank = (addr j).bank → i = j) (s : Ftl) :
    WP anyRun (forRange cnt fun i => phyBlockErase env (addr i))
      (fun _ s' =>
        (∀ i < cnt, s'.nand.failed (addr i).bank = !(env.erase (s.nand.clock + i)).isDone) ∧
        ∀ bank, (∀ i < cnt, (addr i).bank ≠ bank) → s'.nand.failed bank = s.nand.failed bank)
      (fun _ _ => False) s := by
  refine (WP.forRange (I := fun n (s' : Ftl) => s'.nand.clock = s.nand.clock + n ∧
    (∀ i < n, s'.nand.failed (addr i).bank = !(env.erase (s.nand.clock + i)).isDone) ∧
    ∀ bank, (∀ i < n, (addr i).bank ≠ bank) → s'.nand.failed bank = s.nand.failed bank)
    (fun n s₁ hn hs₁ => ?_) ⟨rfl, fun i hi => absurd hi (Nat.not_lt_zero i), fun _ _ => rfl⟩).imp
    fun _ _ h => h.2
  obtain ⟨hclock, hdone, hother⟩ := hs₁
  refine (phyBlockErase_status (addr n) s₁).imp fun _ s₂ hs₂ => ?_
  obtain ⟨hclock', hown, hrest⟩ := hs₂
  refine ⟨by rw [hclock', hclock, Nat.add_assoc], fun i hi => ?_, fun bank hbank => ?_⟩
  · rcases Nat.lt_succ_iff_lt_or_eq.mp hi with hlt | rfl
    · rw [hrest _ fun heq => Nat.ne_of_lt hlt (hinj i (by omega) n hn heq)]
      exact hdone i hlt
    · rw [hown, hclock]
  · rw [hrest bank (hbank n (Nat.lt_succ_self n)).symm]
    exact hother bank fun i hi => hbank i (Nat.lt_succ_of_lt hi)

/-- The banks are asked until one has failed. -/
theorem synchBanks_status : ∀ (n i : Nat) (s : Ftl), WP anyRun (synchBanks i n)
    (fun r s' => s' = s ∧ (r = 0 ↔ ∀ j < n, s.nand.failed (i + j) = false)) (fun _ _ => False) s
  | 0, _, _ => WP.pure ⟨rfl, iff_of_true rfl fun j hj => absurd hj (Nat.not_lt_zero j)⟩
  | n + 1, i, s => by
      refine WP.bind (WP.bind (WP.get (WP.pure ?_)))
      cases hfailed : s.nand.failed i with
      | true =>
          refine WP.ite (fun _ => WP.pure ⟨rfl, iff_of_false (by decide) fun h => ?_⟩)
            fun hnot => absurd (by decide : (-1 : Int) < 0) hnot
          have := h 0 (Nat.zero_lt_succ n)
          rw [Nat.add_zero, hfailed] at this
          cases this
      | false =>
          refine WP.ite (fun hneg => absurd hneg (by decide)) fun _ => ?_
          refine (synchBanks_status n (i + 1) s).imp fun r s' h => ⟨h.1, h.2.trans ?_⟩
          constructor
          · intro hrest j hj
            cases j with
            | zero => exact hfailed
            | succ j =>
                rw [show i + (j + 1) = i + 1 + j by omega]
                exact hrest j (by omega)
          · intro hall j hj
            rw [show i + 1 + j = i + (j + 1) by omega]
            exact hall (j + 1) (by omega)

/-- Both functions: erase at some addresses, and ask the first banks. -/
theorem erase_succeeds_iff {cnt : Nat} {addr : Nat → PhyPage} {base : Nat} (s : Ftl)
    (hbank : ∀ i < cnt, (addr i).bank = base + i) (hbase : base = 0 ∨ cnt ≤ base) :
    Succeeds (do forRange cnt fun i => phyBlockErase env (addr i)
                 synchBanks 0 cnt) s ↔
      if base = 0 then AllErased env cnt s else NoneFailed cnt s := by
  have hinj : ∀ i < cnt, ∀ j < cnt, (addr i).bank = (addr j).bank → i = j := by
    intro i hi j hj heq
    rw [hbank i hi, hbank j hj] at heq
    omega
  have hwp : WP anyRun (do forRange cnt fun i => phyBlockErase env (addr i)
                           synchBanks 0 cnt)
      (fun r _ => r = 0 ↔ if base = 0 then AllErased env cnt s else NoneFailed cnt s)
      (fun _ _ => False) s := by
    refine WP.bind ((eraseLoop_status hinj s).imp fun _ s₁ hs₁ => ?_)
    refine (synchBanks_status cnt 0 s₁).imp fun r s' h => h.2.trans ?_
    obtain ⟨hown, hother⟩ := hs₁
    split
    · next hzero =>
        refine forall₂_congr fun i hi => ?_
        have := hown i hi
        rw [hbank i hi, hzero] at this
        rw [this, Bool.not_eq_false']
    · next hpos =>
        refine forall₂_congr fun i hi => ?_
        rw [Nat.zero_add, hother i fun j hj => by rw [hbank j hj]; omega]
  have hends := ends_of_wp hwp
  unfold Succeeds
  cases hrun : ((do forRange cnt fun i => phyBlockErase env (addr i)
                    synchBanks 0 cnt : FtlProg Int) s).1 with
  | err e s' =>
      rw [hrun] at hends
      exact hends.elim
  | ret r s' =>
      rw [hrun] at hends
      refine Iff.trans ⟨?_, ?_⟩ (show r = 0 ↔ _ from hends)
      · rintro ⟨s'', heq⟩
        cases heq
        rfl
      · rintro rfl
        exact ⟨s', rfl⟩

end Loops

/-! ## Which dies are asked -/

namespace NandStorageInfo.Regular

variable {n : NandStorageInfo} (h : n.Regular)
include h

theorem zoneCntOfDie_pos : 0 < n.fmtInit.zoneCntOfDie := by
  rw [h.zoneCntOfDie_eq]
  have hblocks := h.blocks
  have hpos := h.blocks_pos
  rw [show n.blkCntPerDie / n.planeCntPerDie / 1024 = n.zones from rfl] at hblocks
  refine Nat.pos_of_ne_zero fun hzero => ?_
  rw [hzero, Nat.mul_zero] at hblocks
  omega

variable {env : NandEnv} {s : Ftl} {b z : Nat}

/-- An erase in a zone of one of the first dies is reported as it goes, in any other it is not
looked at. -/
theorem virtualBlkErase_succeeds (hb : b < n.fmtInit.superBlkCntOfDie)
    (hz : z < n.fmtInit.dieCntOfNand * n.fmtInit.zoneCntOfDie) :
    Succeeds (lmlVirtualBlkErase n.fmtInit env z b) s ↔
      if z / n.fmtInit.zoneCntOfDie < n.dieCntPerChip then
        AllErased env n.fmtInit.interleaveBankCnt s
      else NoneFailed n.fmtInit.interleaveBankCnt s := by
  have hcnt := h.interleaveBankCnt_eq
  have hbanks : n.interleaved ≤ n.fmtInit.pageCntOfLogicBlk := by
    rw [h.pageCntOfLogicBlk_eq]
    exact Nat.le_mul_of_pos_left _ h.pages_pos
  have hbank : ∀ i < n.fmtInit.interleaveBankCnt, (lmlCalculatePhyOpPar n.fmtInit z b i).bank =
      z / n.fmtInit.zoneCntOfDie / n.dieCntPerChip * n.interleaved + i := by
    intro i hi
    rw [hcnt] at hi
    rw [(h.address_eq hz hb (Nat.lt_of_lt_of_le hi hbanks)).1]
    show i % n.interleaved + _ = _
    rw [Nat.mod_eq_of_lt hi, Nat.add_comm]
  have hfirst : z / n.fmtInit.zoneCntOfDie < n.dieCntPerChip ↔
      z / n.fmtInit.zoneCntOfDie / n.dieCntPerChip * n.interleaved = 0 := by
    rw [Nat.mul_eq_zero, Nat.div_eq_zero_iff]
    have hpos := n.interleaved_pos
    have hdies := h.dies
    omega
  simp only [hfirst]
  refine erase_succeeds_iff s hbank ?_
  rcases Nat.eq_zero_or_pos (z / n.fmtInit.zoneCntOfDie / n.dieCntPerChip) with hzero | hpos
  · rw [hzero, Nat.zero_mul]
    exact Or.inl rfl
  · rw [hcnt]
    exact Or.inr (Nat.le_mul_of_pos_left _ hpos)

end NandStorageInfo.Regular

/-- Every erase fails. -/
def erasesFail : NandEnv := ⟨fun _ => .good, fun _ => .done, fun _ => .failed fun _ => none⟩

end Novo7

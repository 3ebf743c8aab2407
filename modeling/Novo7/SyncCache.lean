import Novo7.DiskRange
import Novo7.MassStorageMedium

/-!
# What a synchronised cache leaves in RAM

`SYNCHRONIZE CACHE` and the eject of `START STOP UNIT` both end in `fsg_lun_fsync_sub`, or do not
even reach it, and neither asks the flash for anything. What they promise therefore rests on the
writes before them. `LML_Write` leaves the last page of a write in the page cache if the write does
not cover it, and also if that page waits there and is all there is to write.

`mscHeld` runs the handler over the logical disk, with the sectors of the accepted writes that are
still held in the page cache beside it. `synchronised_of_whole`: if every write covers its last
page and does not merge it, none is held when the host is told that its data is safe; any other
accepted write leaves its last sector held.
-/

namespace Novo7

open Traced Machine Transducer Bytes

/-! ## The last page of a write -/

/-- A write of nothing, or one that covers the last of its pages, which is not the one page of the
write while it waits in the page cache. -/
def EndsOnPage (ar : LogicArchi) (cached first count : Nat) : Prop :=
  count = 0 ∨
    (calculateSectPar ar first count).bitmap ar ((calculateSectPar ar first count).pageCnt - 1) =
        ar.fullBitmapOfLogicPage ∧
      ((calculateSectPar ar first count).pageCnt = 1 →
        (calculateSectPar ar first count).page 0 ≠ cached)

instance (ar : LogicArchi) (cached first count : Nat) : Decidable (EndsOnPage ar cached first count) :=
  inferInstanceAs (Decidable (_ ∨ _ ∧ (_ → _)))

theorem SectPar.pageCnt_pos (x : SectPar) : 0 < x.pageCnt := by
  unfold SectPar.pageCnt
  omega

/-- Two pages in a row are not the same. -/
theorem SectPar.page_succ_ne (x : SectPar) (i : Nat) : x.page i ≠ x.page (i + 1) := by
  unfold SectPar.page u32
  omega

section Disk

variable {ar : LogicArchi} {env : NandEnv}

/-- No page waits in the page cache. -/
def NoPage (s : Ftl) : Prop := s.cachePage.logicPageNum = 0xffffffff

theorem writePageCacheToNand_empties (s : Ftl) :
    WP anyRun (writePageCacheToNand ar env) (fun _ => NoPage) (fun _ _ => True) s := by
  refine WP.bind (WP.get (WP.when (fun _ => WP.bind ?_) fun h => not_not.mp h))
  refine (WP.anyEnd _ _).imp fun _ s₁ _ => WP.bind ((WP.anyEnd _ _).imp fun _ s₂ _ => ?_)
  exact WP.modify rfl

/-- After a round its page waits, or none. -/
theorem writeRound_ends (x : SectPar) (i : Nat) (s : Ftl) :
    WP anyRun (writeRound ar env x i)
      (fun _ s' => s'.cachePage.logicPageNum = x.page i ∨ NoPage s') (fun _ _ => True) s := by
  refine WP.bind (WP.get (WP.ite (fun hpage => mergeCachePageData_wp fun s' h => ?_)
    fun _ => WP.bind ?_))
  · left
    rw [h, hpage]
    by_cases hnone : s.cachePage.logicPageNum = 0xffffffff
    · rw [if_pos hnone]
    · rw [if_neg hnone]
  · refine WP.orElse ((writePageCacheToNand_empties s).mono (fun _ s₁ h₁ => ?_)
      fun _ s₁ _ => WP.fail trivial)
    refine WP.ite (fun _ => ?_) fun _ => mergeCachePageData_wp fun s' h => ?_
    · exact (failWith_preserves _ (lmlPageWrite_page _ _ _)).wp
        (fun _ s₂ h₂ => .inr ((congrArg _ h₂).trans h₁)) fun _ _ _ => trivial
    · left
      rw [h, if_pos (show s₁.cachePage.logicPageNum = 0xffffffff from h₁)]

/-- A page that is covered, and not merged into the one that waits, goes to the flash. -/
theorem writeRound_whole {x : SectPar} {i : Nat} (hfull : x.bitmap ar i = ar.fullBitmapOfLogicPage)
    {s : Ftl} (hi : x.page i ≠ s.cachePage.logicPageNum ∨ NoPage s) :
    WP anyRun (writeRound ar env x i) (fun _ => NoPage) (fun _ _ => True) s := by
  refine WP.bind (WP.get (WP.ite (fun hpage => mergeCachePageData_wp fun s' h => ?_)
    fun _ => WP.bind ?_))
  · have hnone : NoPage s := hi.resolve_left fun hne => hne hpage
    unfold NoPage at hnone ⊢
    rw [h, if_pos hnone]
    exact hpage.trans hnone
  · refine WP.orElse ((writePageCacheToNand_empties s).mono (fun _ s₁ h₁ => ?_)
      fun _ s₁ _ => WP.fail trivial)
    refine WP.ite (fun _ => ?_) fun hpart => absurd hfull hpart
    exact (failWith_preserves _ (lmlPageWrite_page _ _ _)).wp
      (fun _ s₂ h₂ => (congrArg _ h₂).trans h₁) fun _ _ _ => trivial

/-- A page waits with at least the sectors of a bitmap. -/
def WaitsWith (nPage bitmap : Nat) (s : Ftl) : Prop :=
  s.cachePage.logicPageNum = nPage ∧
    ∀ j, bitmap.testBit j = true → s.cachePage.sectorBitmap.testBit j = true

/-- A page that is covered in part, or waits already, waits afterwards. -/
theorem writeRound_waits {x : SectPar} {i : Nat} {s : Ftl}
    (hi : x.bitmap ar i ≠ ar.fullBitmapOfLogicPage ∨ x.page i = s.cachePage.logicPageNum) :
    WP anyRun (writeRound ar env x i) (fun _ => WaitsWith (x.page i) (x.bitmap ar i))
      (fun _ _ => True) s := by
  have hmerge (t s' : Ftl) (hpage : x.page i = t.cachePage.logicPageNum ∨ NoPage t)
      (h : s'.cachePage = (if t.cachePage.logicPageNum = 0xffffffff then
        ⟨x.page i, x.bitmap ar i⟩
        else ⟨t.cachePage.logicPageNum, t.cachePage.sectorBitmap ||| x.bitmap ar i⟩)) :
      WaitsWith (x.page i) (x.bitmap ar i) s' := by
    unfold WaitsWith
    rw [h]
    by_cases hnone : t.cachePage.logicPageNum = 0xffffffff
    · rw [if_pos hnone]
      exact ⟨rfl, fun _ hj => hj⟩
    · rw [if_neg hnone]
      refine ⟨(hpage.resolve_right hnone).symm, fun j hj => ?_⟩
      rw [Nat.testBit_or, hj, Bool.or_true]
  refine WP.bind (WP.get (WP.ite
    (fun hpage => mergeCachePageData_wp fun s' h => hmerge s s' (.inl hpage) h)
    fun hother => WP.bind ?_))
  refine WP.orElse ((writePageCacheToNand_empties s).mono (fun _ s₁ h₁ => ?_)
    fun _ s₁ _ => WP.fail trivial)
  refine WP.ite (fun hfull => ?_)
    fun _ => mergeCachePageData_wp fun s' h => hmerge s₁ s' (.inr h₁) h
  exact absurd hfull (hi.resolve_right hother)

/-- A range of rounds: what the last one does, from the state before the range or from one in which
the page of the round before waits, or none. -/
theorem forRange_last {x : SectPar} {s : Ftl} {Q : Ftl → Prop}
    (hlast : ∀ t, (x.pageCnt = 1 ∧ t = s ∨
        1 < x.pageCnt ∧ (t.cachePage.logicPageNum ≠ x.page (x.pageCnt - 1) ∨ NoPage t)) →
      WP anyRun (writeRound ar env x (x.pageCnt - 1)) (fun _ => Q) (fun _ _ => True) t) :
    WP anyRun (forRange x.pageCnt (writeRound ar env x)) (fun _ => Q) (fun _ _ => True) s := by
  have hpos := x.pageCnt_pos
  have hrun := WP.forRange (C := anyRun) (n := x.pageCnt) (f := writeRound ar env x) (s := s)
    (F := fun _ _ => True)
    (I := fun i t => (i = 0 → t = s) ∧
      (0 < i → i < x.pageCnt → t.cachePage.logicPageNum = x.page (i - 1) ∨ NoPage t) ∧
        (i = x.pageCnt → Q t))
    (fun i t hi ht => ?_) ⟨fun _ => rfl, fun h => absurd h (Nat.lt_irrefl 0), fun h => by omega⟩
  · exact hrun.imp fun _ t ht => ht.2.2 rfl
  · obtain ⟨hstart, hprev, -⟩ := ht
    by_cases hi' : i + 1 = x.pageCnt
    · obtain rfl : i = x.pageCnt - 1 := by omega
      refine (hlast t ?_).imp fun _ t' h => ⟨fun h0 => by omega, fun _ hlt => by omega, fun _ => h⟩
      rcases Nat.eq_zero_or_pos (x.pageCnt - 1) with h0 | h0
      · exact .inl ⟨by omega, hstart h0⟩
      · refine .inr ⟨by omega, (hprev h0 hi).imp_left fun h => ?_⟩
        rw [h]
        have hne := x.page_succ_ne (x.pageCnt - 1 - 1)
        rwa [Nat.sub_add_cancel h0] at hne
    · exact (writeRound_ends x i t).imp fun _ t' h => ⟨fun h0 => by omega, fun _ _ => h,
        fun h => absurd h hi'⟩

/-- A write that ends on a page leaves none in the page cache. -/
theorem lmlWrite_empties {first count : Nat} (h0 : count ≠ 0) {s : Ftl}
    (h : EndsOnPage ar s.cachePage.logicPageNum first count) :
    WP anyRun (lmlWrite ar env first count) (fun _ => NoPage) (fun _ _ => True) s := by
  obtain ⟨hfull, hone⟩ := h.resolve_left h0
  refine WP.when (fun _ => forRange_last fun t ht => writeRound_whole hfull ?_) fun h => absurd h0 h
  rcases ht with ⟨h1, rfl⟩ | ⟨-, hne | hnone⟩
  · left
    rw [h1]
    exact hone h1
  · exact .inl hne.symm
  · exact .inr hnone

/-- Any other one leaves its last page there. -/
theorem lmlWrite_waits {first count : Nat} {s : Ftl}
    (h : ¬ EndsOnPage ar s.cachePage.logicPageNum first count) :
    WP anyRun (lmlWrite ar env first count)
      (fun _ => WaitsWith
        ((calculateSectPar ar first count).page ((calculateSectPar ar first count).pageCnt - 1))
        ((calculateSectPar ar first count).bitmap ar
          ((calculateSectPar ar first count).pageCnt - 1))) (fun _ _ => True) s := by
  unfold EndsOnPage at h
  rw [not_or, not_and_or] at h
  obtain ⟨h0, hpart⟩ := h
  refine WP.when (fun _ => forRange_last fun t ht => writeRound_waits ?_) fun h => absurd h0 h
  rcases hpart with hpart | hone
  · exact .inl hpart
  · obtain ⟨h1, hpage⟩ := Classical.not_imp.mp hone
    rcases ht with ⟨-, rfl⟩ | ⟨hmore, -⟩
    · right
      rw [h1]
      exact not_not.mp hpage
    · omega

/-- The last sector of a range is in its last page and in the bitmap for that. -/
theorem calculateSectPar_last (har : ar.PageFits) {first count : Nat} (hfirst : first < 2 ^ 32)
    (h0 : count ≠ 0) (hcount : count < 2 ^ 23) :
    (calculateSectPar ar first count).page ((calculateSectPar ar first count).pageCnt - 1) =
        (first + count - 1) / ar.sectorCntOfLogicPage ∧
      ((calculateSectPar ar first count).bitmap ar
          ((calculateSectPar ar first count).pageCnt - 1)).testBit
        ((first + count - 1) % ar.sectorCntOfLogicPage) = true ∧
      (first + count - 1) / ar.sectorCntOfLogicPage ≠ 0xffffffff := by
  obtain ⟨h2, h32⟩ := har
  have hpos : 0 < ar.sectorCntOfLogicPage := by omega
  have hdiv := Nat.div_add_mod first ar.sectorCntOfLogicPage
  have hr : first % ar.sectorCntOfLogicPage < ar.sectorCntOfLogicPage := Nat.mod_lt _ hpos
  have hfits : first % ar.sectorCntOfLogicPage + count < 2 ^ 32 := by omega
  have hq : first / ar.sectorCntOfLogicPage < 2 ^ 31 := Nat.div_lt_of_lt_mul (by omega)
  have hcnt : 0 < (calculateSectPar ar first count).pageCnt :=
    (lt_pageCnt_iff hpos hfits 0).mpr (Or.inl rfl)
  -- the last round is the one that the last sector is in
  generalize hk : first % ar.sectorCntOfLogicPage + count - 1 = k
  have hkdiv := Nat.div_add_mod k ar.sectorCntOfLogicPage
  have hkmod := Nat.mod_lt k hpos
  have hi : k / ar.sectorCntOfLogicPage < (calculateSectPar ar first count).pageCnt :=
    (lt_pageCnt_iff hpos hfits _).mpr (Or.inr (by rw [Nat.mul_comm]; omega))
  have hlast : (calculateSectPar ar first count).pageCnt - 1 = k / ar.sectorCntOfLogicPage := by
    have hround := (lt_pageCnt_iff hpos hfits
      ((calculateSectPar ar first count).pageCnt - 1)).mp (by omega)
    have hle : (calculateSectPar ar first count).pageCnt - 1 ≤ k / ar.sectorCntOfLogicPage := by
      rcases hround with hzero | hlt
      · rw [hzero]
        exact Nat.zero_le _
      · exact (Nat.le_div_iff_mul_le hpos).mpr (by omega)
    omega
  have hsum : first + count - 1 = ar.sectorCntOfLogicPage *
      (first / ar.sectorCntOfLogicPage + k / ar.sectorCntOfLogicPage) +
        k % ar.sectorCntOfLogicPage := by
    rw [Nat.mul_add]
    omega
  have hpages : k / ar.sectorCntOfLogicPage < 2 ^ 24 := Nat.div_lt_of_lt_mul (by omega)
  rw [hlast, hsum, Nat.mul_add_div hpos, Nat.mul_add_mod, Nat.div_eq_of_lt hkmod,
    Nat.mod_eq_of_lt hkmod, Nat.add_zero, SectPar.page, calculateSectPar_headPage]
  refine ⟨u32_of_lt (by omega), (bitmap_testBit hpos h32 hfits hi _).mpr ⟨hkmod, ?_, ?_⟩, by omega⟩
  · rw [Nat.mul_comm]
    omega
  · rw [Nat.mul_comm]
    omega

end Disk

/-! ## The write of a command -/

section Handler

variable {ν : Type} {env : MscEnv ν} {s : MscState ν}

/-- The range that `do_write` hands to the disk, if it comes to that. -/
def MscState.writeArgs (s : MscState ν) : Option (Nat × Nat) :=
  if s.lun.ro ∨ (s.cb 0 ≠ 0x0a ∧ s.cb 1 &&& ~~~0x18 ≠ 0) ∨
      beyondUnit s (cdbLba s 0x0a) (s.dataSizeFromCmnd / 2 ^ 9) then none
  else some (u32 (s.lun.firstSector + cdbLba s 0x0a), s.dataSizeFromCmnd / 2 ^ 9)

/-- What `do_write` does with its range. -/
theorem doWrite_range (env : MscEnv ν) {first count : Nat} (h : s.writeArgs = some (first, count)) :
    (doWrite env s).1.nand = (env.nandLogicWrite s.nand first count s.masstorageBuffer).1 ∧
      (doWrite env s).1.out = s.out ++ [.logicWrite first count] ∧
      ((env.nandLogicWrite s.nand first count s.masstorageBuffer).2 ≠ 0 → s.curlun = true →
        Refused (doWrite env s).1) := by
  unfold MscState.writeArgs at h
  by_cases hno : s.lun.ro = true ∨ (s.cb 0 ≠ 0x0a ∧ s.cb 1 &&& ~~~0x18 ≠ 0) ∨
      beyondUnit s (cdbLba s 0x0a) (s.dataSizeFromCmnd / 2 ^ 9) = true
  · rw [if_pos hno] at h
    cases h
  · rw [if_neg hno] at h
    rw [not_or, not_or] at hno
    obtain ⟨hro, hfield, hin⟩ := hno
    cases h
    unfold doWrite
    rw [if_neg hro, if_neg hfield, if_neg hin]
    dsimp only [MscState.logicWrite]
    by_cases hres : (env.nandLogicWrite s.nand (u32 (s.lun.firstSector + cdbLba s 0x0a))
        (s.dataSizeFromCmnd / 2 ^ 9) s.masstorageBuffer).2 ≠ 0
    · rw [if_pos hres]
      exact ⟨rfl, rfl, fun _ hcur => .inr ⟨hcur, show ssWriteError ≠ ssNoSense by decide⟩⟩
    · rw [if_neg hres]
      exact ⟨rfl, rfl, fun h => absurd h hres⟩

/-- `check_command`, as `do_scsi_command` calls it. -/
def checkedCommand (env : MscEnv ν) (s : MscState ν) : MscState ν × Int :=
  checkCommand env { s with phaseError := false, dataSizeFromCmnd := (scsiCase env s).dataSize }
    (scsiCase env s).cmndSize (scsiCase env s).dataDir (scsiCase env s).mask
    (scsiCase env s).needsMedium

/-- The range that a command hands to `NAND_LogicWrite`. -/
def writeRange (env : MscEnv ν) (s : MscState ν) : Option (Nat × Nat) :=
  if (checkedCommand env s).2 = 0 ∧ (s.cb 0 = 0x0a ∨ s.cb 0 = 0x2a ∨ s.cb 0 = 0xaa) then
    (checkedCommand env s).1.writeArgs
  else none

theorem scsiCase_write (env : MscEnv ν) (h : s.cb 0 = 0x0a ∨ s.cb 0 = 0x2a ∨ s.cb 0 = 0xaa) :
    (scsiCase env s).action = doWrite env := by
  have hbyte : (s.cb 0).toNat = 0x0a ∨ (s.cb 0).toNat = 0x2a ∨ (s.cb 0).toNat = 0xaa := by
    rcases h with h | h | h
    · exact .inl (by rw [h]; rfl)
    · exact .inr (.inl (by rw [h]; rfl))
    · exact .inr (.inr (by rw [h]; rfl))
  unfold scsiCase
  rcases hbyte with h | h | h <;> rw [h] <;> rfl

theorem checkCommand_nand (env : MscEnv ν) (s : MscState ν) (cmndSize : Nat)
    (dataDir : DataDirection) (mask : Nat) (needsMedium : Bool) :
    (checkCommand env s cmndSize dataDir mask needsMedium).1.nand = s.nand := by
  have hsizes : (checkSizes s cmndSize dataDir).1.nand = s.nand := by
    obtain ⟨size, phase, hstate, -, -⟩ := checkSizes_state s cmndSize dataDir
    rw [hstate]
  have hlun (t : MscState ν) : (checkLun t).1.nand = t.nand := by
    unfold checkLun
    dsimp only
    split_ifs <;> rfl
  have hmask (t : MscState ν) (n : Nat) : (checkMask env t n mask needsMedium).1.nand = t.nand := by
    unfold checkMask
    dsimp only
    split_ifs <;> rfl
  unfold checkCommand
  split
  · rename_i t heq
    rw [heq] at hsizes
    exact hsizes
  · rename_i t n heq
    rw [heq] at hsizes
    have hboth := (hlun t).trans hsizes
    dsimp only
    generalize checkLun t = r at hboth ⊢
    split_ifs
    · exact hboth
    · exact hboth
    · exact (hmask r.1 n).trans hboth

/-- A command that writes: the disk afterwards, and what an error does to the answer. -/
theorem doScsiCommand_write (env : MscEnv ν) (hunit : s.commonLun < s.nluns) {first count : Nat}
    (h : writeRange env s = some (first, count)) :
    ∃ buf, (doScsiCommand env s).nand = (env.nandLogicWrite s.nand first count buf).1 ∧
      ((env.nandLogicWrite s.nand first count buf).2 ≠ 0 → Refused (doScsiCommand env s)) := by
  unfold writeRange at h
  by_cases hwrite : (checkedCommand env s).2 = 0 ∧ (s.cb 0 = 0x0a ∨ s.cb 0 = 0x2a ∨ s.cb 0 = 0xaa)
  · rw [if_pos hwrite] at h
    obtain ⟨hok, hop⟩ := hwrite
    have hnand : (checkedCommand env s).1.nand = s.nand := checkCommand_nand env _ _ _ _ _
    have hcur := ((checkCommand_answers env (scsiCase env s).cmndSize (scsiCase env s).dataDir
      (scsiCase env s).mask (scsiCase env s).needsMedium
      (s := { s with phaseError := false, dataSizeFromCmnd := (scsiCase env s).dataSize })
      hunit).2 hok).1
    have hcmd : doScsiCommand env s = setReply (doWrite env (checkedCommand env s).1).1
        (doWrite env (checkedCommand env s).1).2 := by
      unfold doScsiCommand
      rw [← scsiCase_write env hop]
      unfold checkedCommand at hok ⊢
      dsimp only
      rw [if_pos hok]
    obtain ⟨hdisk, -, herr⟩ := doWrite_range env h
    rw [hnand] at hdisk herr
    refine ⟨(checkedCommand env s).1.masstorageBuffer, ?_, fun hne => ?_⟩
    · obtain ⟨residue, heq⟩ := setReply_eq (doWrite env (checkedCommand env s).1).1
        (doWrite env (checkedCommand env s).1).2
      rw [hcmd, heq]
      exact hdisk
    · rw [hcmd]
      exact (setReply_answers _ _).2 (herr hne hcur)
  · rw [if_neg hwrite] at h
    cases h

theorem writeArgs_lt {first count : Nat} (hsize : s.dataSizeFromCmnd < 2 ^ 32)
    (h : s.writeArgs = some (first, count)) : first < 2 ^ 32 ∧ count < 2 ^ 23 := by
  unfold MscState.writeArgs at h
  split at h
  · cases h
  · obtain ⟨rfl, rfl⟩ := Prod.mk.inj (Option.some.inj h)
    exact ⟨u32_lt _, Nat.div_lt_of_lt_mul hsize⟩

/-- A range handed to the disk is one of 32-bit sectors, and not a long one. -/
theorem writeRange_lt {first count : Nat} (h : writeRange env s = some (first, count)) :
    first < 2 ^ 32 ∧ count < 2 ^ 23 := by
  have hle := (checkCommand_confined env
    { s with phaseError := false, dataSizeFromCmnd := (scsiCase env s).dataSize }
    (scsiCase env s).cmndSize (scsiCase env s).dataDir (scsiCase env s).mask
    (scsiCase env s).needsMedium).2
  have hsize := scsiCase_dataSize env s
  unfold writeRange at h
  split at h
  · refine writeArgs_lt ?_ h
    unfold checkedCommand
    exact hle.trans_lt hsize
  · cases h

/-- The range that a packet has written. -/
def writeOf (env : MscEnv ν) (s : MscState ν) (p : List UInt8) : Option (Nat × Nat) :=
  match executed s p with
  | some _ => writeRange env (mscFrame s p).state
  | none => none

theorem mscFrame_nand (s : MscState ν) (p : List UInt8) : (mscFrame s p).state.nand = s.nand := by
  by_cases hends : s.commandEnds
  · by_cases hrej : MscRejected p
    · by_cases hlen : p.length ≠ 31
      · rw [mscFrame_short hends hlen]
      · rw [mscFrame_reject hends hrej hlen]
    · rw [mscFrame_accept hends hrej]
  · rw [mscFrame, if_neg hends]

theorem writeOf_lt {p : List UInt8} {first count : Nat} (h : writeOf env s p = some (first, count)) :
    first < 2 ^ 32 ∧ count < 2 ^ 23 := by
  unfold writeOf at h
  split at h
  · exact writeRange_lt h
  · cases h

/-- A packet at which a write is carried out and answered as passed. -/
theorem packet_writeOf (hunit : s.commonLun < s.nluns) {p : List UInt8} {first count : Nat}
    (h : writeOf env s p = some (first, count))
    (hpassed : passed (masstorageRxHandler env s p).out = true) :
    ∃ buf, (masstorageRxHandler env s p).nand = (env.nandLogicWrite s.nand first count buf).1 ∧
      (env.nandLogicWrite s.nand first count buf).2 = 0 := by
  have hunits := (mscFrame_keeps (s := s) (p := p)).1
  have hnand := mscFrame_nand s p
  unfold writeOf at h
  rcases masstorageRxHandler_executes env s p with ⟨hnone, -⟩ | ⟨t, ht, hsome, heq⟩
  · rw [hnone] at h
    cases h
  · rw [hsome] at h
    rw [ht] at h hunits hnand
    obtain ⟨buf, hdisk, herr⟩ := doScsiCommand_write env (by rw [hunits.1, hunits.2]; exact hunit) h
    rw [hnand] at hdisk herr
    rw [heq] at hpassed ⊢
    refine ⟨buf, ?_, ?_⟩
    · rw [← hdisk]
      unfold sendStatus finishReply
      split_ifs <;> rfl
    · by_contra hne
      rw [reply_passed _ (herr hne)] at hpassed
      cases hpassed

end Handler

/-! ## The handler over the logical disk -/

/-- A buffer of bytes as the disk sees it; before its start memory is as it was. -/
def halfwords (buf : Nat → UInt8) (host : Int → Nat) : Int → Nat := fun i =>
  if i < 0 then host i else (buf (2 * i.toNat)).toNat + 256 * (buf (2 * i.toNat + 1)).toNat

/-- The buffer after the disk has stored into it. -/
def bytesOf (host : Int → Nat) : Nat → UInt8 := fun j =>
  UInt8.ofNat (host (j / 2 : Nat) / 256 ^ (j % 2))

/-- What a function of the disk returns. -/
def resultOf {σ : Type} : Outcome σ Unit → Int
  | .ret _ _ => 0
  | .err e _ => e

/-- `NAND_LogicRead` and `NAND_LogicWrite`, which are `LML_Read` and `LML_Write`. -/
def logicDisk (ar : LogicArchi) (env : NandEnv) (past : MscState Ftl → Nat → UInt8) :
    MscEnv Ftl where
  nandLogicRead s first count buf :=
    let o := (lmlRead ar env first count { s with host := halfwords buf s.host }).1
    (o.state, resultOf o, bytesOf o.state.host)
  nandLogicWrite s first count buf :=
    let o := (lmlWrite ar env first count { s with host := halfwords buf s.host }).1
    (o.state, resultOf o)
  past := past

/-- A sector waits in the page cache. -/
def Ftl.waits (ar : LogicArchi) (s : Ftl) (k : Nat) : Bool :=
  s.cachePage.logicPageNum != 0xffffffff &&
    s.cachePage.logicPageNum == k / ar.sectorCntOfLogicPage &&
      s.cachePage.sectorBitmap.testBit (k % ar.sectorCntOfLogicPage)

section Run

variable (ar : LogicArchi) (env : MscEnv Ftl)

/-- The host is told that what it wrote is safe: `SYNCHRONIZE CACHE`, or an eject, is answered as
passed. -/
def syncAccepted (s : MscState Ftl) : MscInput → Bool
  | .mount _ _ _ => false
  | .packet p =>
    match executed s p with
    | some e => (e.wrapper.cbwcb 0 == 0x35 || decide e.wrapper.isEject) &&
        passed (masstorageRxHandler env s p).out
    | none => false

/-- A sector of a write that is answered as passed. -/
def written (s : MscState Ftl) : MscInput → Nat → Bool
  | .mount _ _ _, _ => false
  | .packet p, k =>
    match writeOf env s p with
    | some (first, count) => decide (first ≤ k ∧ k < first + count) &&
        passed (masstorageRxHandler env s p).out
    | none => false

/-- The interface over the disk, with the sectors that are held in the page cache since a write
that passed. The output says whether the host is told that they are safe, and which are held. -/
def mscHeld (info : StorageInfo) (s : MscState Ftl × (Nat → Bool)) (i : MscInput) :
    (MscState Ftl × (Nat → Bool)) × Bool × (Nat → Bool) :=
  let t := { s.1 with out := [] }
  let s' := (mscStep env info s.1 i).1
  let held := fun k => (s.2 k || written env t i k) && s'.nand.waits ar k
  ((s', held), syncAccepted env t i, held)

/-- A write that is carried out ends on a page. -/
def WritesWhole (s : MscState Ftl × (Nat → Bool)) : MscInput → Prop
  | .mount _ _ _ => True
  | .packet p => ∀ first count, writeOf env { s.1 with out := [] } p = some (first, count) →
      EndsOnPage ar s.1.nand.cachePage.logicPageNum first count

instance (s : MscState Ftl × (Nat → Bool)) (i : MscInput) : Decidable (WritesWhole ar env s i) :=
  match i with
  | .mount _ _ _ => .isTrue trivial
  | .packet p =>
    decidable_of_iff (∀ r ∈ writeOf env { s.1 with out := [] } p,
        EndsOnPage ar s.1.nand.cachePage.logicPageNum r.1 r.2)
      ⟨fun h first count hr => h (first, count) hr, fun h r hr => h r.1 r.2 hr⟩

end Run

theorem NoPage.waits {ar : LogicArchi} {s : Ftl} (h : NoPage s) (k : Nat) : s.waits ar k = false := by
  unfold Ftl.waits NoPage at *
  rw [h]
  rfl

section Held

variable {ar : LogicArchi} {env : NandEnv} {past : MscState Ftl → Nat → UInt8} {s : MscState Ftl}

/-- A packet at which a write passes, told by the disk. -/
theorem packet_lmlWrite (hunit : s.commonLun < s.nluns) {p : List UInt8} {first count : Nat}
    (h : writeOf (logicDisk ar env past) s p = some (first, count))
    (hpassed : passed (masstorageRxHandler (logicDisk ar env past) s p).out = true)
    {Q : Ftl → Prop}
    (hwrite : ∀ host, WP anyRun (lmlWrite ar env first count) (fun _ => Q) (fun _ _ => True)
      { s.nand with host := host }) :
    Q (masstorageRxHandler (logicDisk ar env past) s p).nand := by
  obtain ⟨buf, hdisk, hres⟩ := packet_writeOf hunit h hpassed
  have hends := ends_of_wp (hwrite (halfwords buf s.nand.host))
  have herr := ends_of_wp (@lmlWrite_fails ar env first count
    { s.nand with host := halfwords buf s.nand.host })
  rw [hdisk]
  dsimp only [logicDisk] at hres ⊢
  generalize (lmlWrite ar env first count { s.nand with host := halfwords buf s.nand.host }).1 = o
    at hends herr hres ⊢
  cases o with
  | ret a t => exact hends
  | err e t =>
      have he : e = -1 := herr
      rw [he] at hres
      exact absurd hres (show (-1 : Int) ≠ 0 by decide)

/-- After a write that passes and ends on a page nothing waits. -/
theorem whole_waits (hunit : s.commonLun < s.nluns) {p : List UInt8} {first count : Nat}
    (h : writeOf (logicDisk ar env past) s p = some (first, count))
    (hpassed : passed (masstorageRxHandler (logicDisk ar env past) s p).out = true)
    (h0 : count ≠ 0) (hend : EndsOnPage ar s.nand.cachePage.logicPageNum first count) (k : Nat) :
    (masstorageRxHandler (logicDisk ar env past) s p).nand.waits ar k = false :=
  NoPage.waits (packet_lmlWrite hunit h hpassed fun _ => lmlWrite_empties h0 hend) k

/-- After any other write that passes its last sector waits. -/
theorem part_waits (har : ar.PageFits) (hunit : s.commonLun < s.nluns) {p : List UInt8}
    {first count : Nat} (h : writeOf (logicDisk ar env past) s p = some (first, count))
    (hpassed : passed (masstorageRxHandler (logicDisk ar env past) s p).out = true)
    (hlt : first < 2 ^ 32 ∧ count < 2 ^ 23)
    (hend : ¬ EndsOnPage ar s.nand.cachePage.logicPageNum first count) :
    count ≠ 0 ∧
      (masstorageRxHandler (logicDisk ar env past) s p).nand.waits ar (first + count - 1) = true := by
  have h0 : count ≠ 0 := fun h => hend (.inl h)
  obtain ⟨hpage, hbit, hne⟩ := calculateSectPar_last har hlt.1 h0 hlt.2
  obtain ⟨hnum, hbits⟩ := packet_lmlWrite hunit h hpassed fun _ => lmlWrite_waits hend
  refine ⟨h0, ?_⟩
  unfold Ftl.waits
  rw [hnum, hpage, hbits _ hbit]
  simp only [bne_iff_ne, ne_eq, hne, not_false_eq_true, beq_self_eq_true, Bool.and_true]

end Held

section Step

variable {ar : LogicArchi} {env : NandEnv} {past : MscState Ftl → Nat → UInt8} {info : StorageInfo}
  {s : MscState Ftl × (Nat → Bool)}

/-- One unit, and nothing of a write that passed is held. -/
def NoneHeld (s : MscState Ftl × (Nat → Bool)) : Prop :=
  s.1.commonLun < s.1.nluns ∧ ∀ k, s.2 k = false

theorem mscStep_unit (env : MscEnv Ftl) (i : MscInput) {s : MscState Ftl}
    (hunit : s.commonLun < s.nluns) :
    (mscStep env info s i).1.commonLun < (mscStep env info s i).1.nluns := by
  cases i with
  | mount start count param1 =>
      unfold mscStep
      dsimp only
      rcases masstorageMount_cases info s (u32 start) (u32 count)
          (decide (u32 param1 ≠ 0)) with ⟨-, -, -, hres⟩ | ⟨-, hres⟩ <;> rw [hres] <;> exact hunit
  | packet p => exact packet_units (s := { s with out := [] }) hunit

/-- One request or packet, if a write in it ends on a page. -/
theorem step_noneHeld (i : MscInput) (hs : NoneHeld s)
    (hi : WritesWhole ar (logicDisk ar env past) s i) :
    NoneHeld (mscHeld ar (logicDisk ar env past) info s i).1 ∧
      ∀ k, (mscHeld ar (logicDisk ar env past) info s i).2.2 k = false := by
  have hheld : ∀ k, (mscHeld ar (logicDisk ar env past) info s i).2.2 k = false := by
    intro k
    unfold mscHeld
    dsimp only
    rw [hs.2 k, Bool.false_or]
    cases i with
    | mount start count param1 => rfl
    | packet p =>
        unfold written
        dsimp only
        split
        · rename_i first count hwrite
          by_cases hk : first ≤ k ∧ k < first + count
          · by_cases hpassed : passed (masstorageRxHandler (logicDisk ar env past)
                { s.1 with out := [] } p).out = true
            · rw [Bool.and_eq_false_iff]
              exact .inr (whole_waits (s := { s.1 with out := [] }) hs.1 hwrite hpassed (by omega)
                (hi first count hwrite) k)
            · rw [Bool.not_eq_true] at hpassed
              rw [hpassed, Bool.and_false, Bool.false_and]
          · rw [decide_eq_false hk, Bool.false_and, Bool.false_and]
        · rfl
  exact ⟨⟨mscStep_unit _ i hs.1, hheld⟩, hheld⟩

end Step

/-- In every run whose writes end on a page, nothing that was written is held in the page cache
when the host is told that it is safe. In a run in which one does not, its last sector is held as
soon as the write has passed. -/
theorem synchronised_of_whole (ar : LogicArchi) (env : NandEnv)
    (past : MscState Ftl → Nat → UInt8) (info : StorageInfo) (nand : Ftl) (buffer : Nat → UInt8)
    (is : List MscInput) :
    (Along (mscHeld ar (logicDisk ar env past) info) (WritesWhole ar (logicDisk ar env past))
        (mscInit nand buffer, fun _ => false) is →
      ∀ o ∈ outputs (mscHeld ar (logicDisk ar env past) info)
        (mscInit nand buffer, fun _ => false) is, o.1 = true → ∀ k, o.2 k = false) ∧
    (ar.PageFits → ∀ p first count,
      let s := final (mscHeld ar (logicDisk ar env past) info)
        (mscInit nand buffer, fun _ => false) is
      writeOf (logicDisk ar env past) { s.1 with out := [] } p = some (first, count) →
        passed (masstorageRxHandler (logicDisk ar env past) { s.1 with out := [] } p).out = true →
          ¬ WritesWhole ar (logicDisk ar env past) s (.packet p) →
            (mscHeld ar (logicDisk ar env past) info s (.packet p)).2.2 (first + count - 1) =
              true) := by
  refine ⟨fun hrun o ho _ => ?_, fun har p first count hwrite hpassed hpart => ?_⟩
  · exact (hrun.outputs_forall _ (I := NoneHeld) (Q := fun o => ∀ k, o.2 k = false)
      (fun s i hs hi => step_noneHeld i hs hi) is _ ⟨Nat.zero_lt_one, fun _ => rfl⟩).2 o ho
  · have hunit := (outputs_forall (mscHeld ar (logicDisk ar env past) info)
      (I := fun s => s.1.commonLun < s.1.nluns) (Q := fun _ => True)
      (fun s i hs => ⟨mscStep_unit _ i hs, trivial⟩) is (mscInit nand buffer, fun _ => false)
      Nat.zero_lt_one).1
    dsimp only at hwrite hpassed hpart ⊢
    generalize final (mscHeld ar (logicDisk ar env past) info)
      (mscInit nand buffer, fun _ => false) is = s at hunit hwrite hpassed hpart ⊢
    have hend : ¬ EndsOnPage ar s.1.nand.cachePage.logicPageNum first count := by
      refine fun hend => hpart fun first' count' h => ?_
      rw [hwrite] at h
      cases h
      exact hend
    obtain ⟨h0, hwaits⟩ := part_waits (s := { s.1 with out := [] }) har hunit hwrite hpassed
      (writeOf_lt hwrite) hend
    unfold mscHeld written
    dsimp only
    rw [hwrite]
    dsimp only
    rw [hpassed, decide_eq_true (by omega), Bool.and_true, Bool.or_true, Bool.true_and]
    exact hwaits

/-- `WRITE(10)` -/
def writeSectors (lba count : UInt8) : List UInt8 :=
  leBytes 4 0x43425355 ++ leBytes 4 8 ++ leBytes 4 (512 * count.toNat) ++ [0, 0, 10] ++
    [0x2a, 0, 0, 0, 0, lba, 0, 0, count, 0, 0, 0, 0, 0, 0, 0]

/-- `SYNCHRONIZE CACHE` -/
def synchronizeCache : List UInt8 :=
  leBytes 4 0x43425355 ++ leBytes 4 9 ++ leBytes 4 0 ++ [0, 0, 10] ++ 0x35 :: List.replicate 15 0

/-- A logical page of four sectors is written, then the host is told that it is safe. -/
def wholePage : List MscInput :=
  [.mount 0 100 1, .packet (writeSectors 0 4), .packet (List.replicate 2048 1),
    .packet synchronizeCache]

theorem synchronised_of_whole_wholePage :
    ((outputs (mscHeld fiveZones (logicDisk fiveZones firstReadFails fun _ _ => 0) oneChip)
      (mscInit fourCached fun _ => 0, fun _ => false) wholePage).map (·.1)).getLast? = some true ∧
    ∀ o ∈ outputs (mscHeld fiveZones (logicDisk fiveZones firstReadFails fun _ _ => 0) oneChip)
      (mscInit fourCached fun _ => 0, fun _ => false) wholePage, o.1 = true → ∀ k, o.2 k = false :=
  ⟨by decide +kernel,
    (synchronised_of_whole fiveZones firstReadFails (fun _ _ => 0) oneChip fourCached (fun _ => 0)
      wholePage).1 ⟨trivial, by decide +kernel, by decide +kernel, by decide +kernel, trivial⟩⟩

/-- One sector is written, and the host is told that it is safe while it waits in the page cache. -/
theorem synchronised_oneSector :
    ¬ ∀ o ∈ outputs (mscHeld fiveZones (logicDisk fiveZones firstReadFails fun _ _ => 0) oneChip)
      (mscInit fourCached fun _ => 0, fun _ => false)
      [.mount 0 100 1, .packet (writeSectors 0 1), .packet (List.replicate 512 1),
        .packet synchronizeCache], o.1 = true → ∀ k, o.2 k = false := by
  intro h
  have hheld := h _ (List.getElem_mem (n := 3) (by decide)) (by decide +kernel) 0
  revert hheld
  decide +kernel

end Novo7

import Novo7.MassStorage

/-!
# What a command leaves alone

`Orderly` says of a part of the command code what every proof about runs needs: the framing
of packets is left alone, the medium is at most ejected, never opened or made writable, and
the flash is written only if the medium is there and writable. Each command is `Orderly`,
given that `check_command` let it through.
-/

namespace Novo7

open Machine

/-- A write to the flash. -/
def MscEvent.isWrite : MscEvent → Bool
  | .logicWrite _ _ => true
  | _ => false

variable {ν : Type}

/-- A part of the handler that keeps the framing, opens nothing and writes only to a medium
that is there and writable. -/
structure Orderly (s s' : MscState ν) : Prop where
  length : s'.curCmd.dCBWDataTransferLength = s.curCmd.dCBWDataTransferLength
  flags : s'.curCmd.bmCBWFlags = s.curCmd.bmCBWFlags
  written : s'.curCmdBytesWritten = s.curCmdBytesWritten
  units : s'.nluns = s.nluns ∧ s'.commonLun = s.commonLun
  ro : s'.lun.ro = s.lun.ro
  isOpen : s'.lun.isOpen = true → s.lun.isOpen = true
  out : ∃ es, s'.out = s.out ++ es ∧
    ∀ e ∈ es, e.isWrite = true → s.lun.isOpen = true ∧ s.lun.ro = false

/-- Nothing but the sense data, the buffer or the reply is touched. -/
theorem Orderly.quiet {s s' : MscState ν} (hcmd : s'.curCmd = s.curCmd)
    (hwritten : s'.curCmdBytesWritten = s.curCmdBytesWritten)
    (hunits : s'.nluns = s.nluns ∧ s'.commonLun = s.commonLun) (hro : s'.lun.ro = s.lun.ro)
    (hopen : s'.lun.isOpen = s.lun.isOpen) (hout : s'.out = s.out) : Orderly s s' :=
  ⟨by rw [hcmd], by rw [hcmd], hwritten, hunits, hro, fun h => by rwa [hopen] at h, [],
    by simp [hout], by simp⟩

theorem Orderly.refl (s : MscState ν) : Orderly s s := .quiet rfl rfl ⟨rfl, rfl⟩ rfl rfl rfl

theorem Orderly.trans {s t u : MscState ν} (h₁ : Orderly s t) (h₂ : Orderly t u) :
    Orderly s u := by
  obtain ⟨es, hes, hwrites⟩ := h₁.out
  obtain ⟨fs, hfs, hwrites'⟩ := h₂.out
  refine ⟨h₂.length.trans h₁.length, h₂.flags.trans h₁.flags, h₂.written.trans h₁.written,
    ⟨h₂.units.1.trans h₁.units.1, h₂.units.2.trans h₁.units.2⟩, h₂.ro.trans h₁.ro,
    fun h => h₁.isOpen (h₂.isOpen h), es ++ fs, by rw [hfs, hes, List.append_assoc], ?_⟩
  intro e he hw
  rcases List.mem_append.mp he with he | he
  · exact hwrites e he hw
  · obtain ⟨hopen, hro⟩ := hwrites' e he hw
    exact ⟨h₁.isOpen hopen, h₁.ro.symm.trans hro⟩

/-- One event added to `out`. -/
theorem Orderly.event {s s' : MscState ν} (e : MscEvent) (hcmd : s'.curCmd = s.curCmd)
    (hwritten : s'.curCmdBytesWritten = s.curCmdBytesWritten)
    (hunits : s'.nluns = s.nluns ∧ s'.commonLun = s.commonLun) (hro : s'.lun.ro = s.lun.ro)
    (hopen : s'.lun.isOpen = s.lun.isOpen) (hout : s'.out = s.out ++ [e])
    (he : e.isWrite = true → s.lun.isOpen = true ∧ s.lun.ro = false) : Orderly s s' :=
  ⟨by rw [hcmd], by rw [hcmd], hwritten, hunits, hro, fun h => by rwa [hopen] at h, [e], hout,
    by simpa using he⟩

section Commands

variable {env : MscEnv ν} {s : MscState ν}

variable (env s) in
theorem logicRead_orderly (first count : Nat) : Orderly s (s.logicRead env first count).1 :=
  .event _ rfl rfl ⟨rfl, rfl⟩ rfl rfl rfl (fun h => nomatch h)

variable (env) in
theorem logicWrite_orderly (first count : Nat)
    (h : s.lun.isOpen = true ∧ s.lun.ro = false) : Orderly s (s.logicWrite env first count).1 :=
  .event _ rfl rfl ⟨rfl, rfl⟩ rfl rfl rfl (fun _ => h)

variable (env s) in
theorem doRead_orderly : Orderly s (doRead env s).1 := by
  unfold doRead
  by_cases hfield : s.cb 0 ≠ 0x08 ∧ s.cb 1 &&& ~~~0x18 ≠ 0
  · rw [if_pos hfield]
    exact .quiet rfl rfl ⟨rfl, rfl⟩ rfl rfl rfl
  · rw [if_neg hfield]
    by_cases hin : beyondUnit s (cdbLba s 0x08) (s.dataSizeFromCmnd / 2 ^ 9)
    · rw [if_pos hin]
      exact .quiet rfl rfl ⟨rfl, rfl⟩ rfl rfl rfl
    · rw [if_neg hin]
      have hread := logicRead_orderly env s (u32 (s.lun.firstSector + cdbLba s 0x08))
        (s.dataSizeFromCmnd / 2 ^ 9)
      dsimp only
      generalize s.logicRead env _ _ = r at hread ⊢
      refine hread.trans ?_
      by_cases hres : r.2 ≠ 0
      · rw [if_pos hres]
        exact .quiet rfl rfl ⟨rfl, rfl⟩ rfl rfl rfl
      · rw [if_neg hres]
        exact .quiet rfl rfl ⟨rfl, rfl⟩ rfl rfl rfl

variable (env) in
theorem doWrite_orderly (hopen : s.lun.isOpen = true) : Orderly s (doWrite env s).1 := by
  unfold doWrite
  by_cases hro : s.lun.ro = true
  · rw [if_pos hro]
    exact .quiet rfl rfl ⟨rfl, rfl⟩ rfl rfl rfl
  · rw [if_neg hro]
    by_cases hfield : s.cb 0 ≠ 0x0a ∧ s.cb 1 &&& ~~~0x18 ≠ 0
    · rw [if_pos hfield]
      exact .quiet rfl rfl ⟨rfl, rfl⟩ rfl rfl rfl
    · rw [if_neg hfield]
      by_cases hin : beyondUnit s (cdbLba s 0x0a) (s.dataSizeFromCmnd / 2 ^ 9)
      · rw [if_pos hin]
        exact .quiet rfl rfl ⟨rfl, rfl⟩ rfl rfl rfl
      · rw [if_neg hin]
        have hwrite := logicWrite_orderly env (u32 (s.lun.firstSector + cdbLba s 0x0a))
          (s.dataSizeFromCmnd / 2 ^ 9) ⟨hopen, by simpa using hro⟩
        dsimp only
        generalize s.logicWrite env _ _ = r at hwrite ⊢
        refine hwrite.trans ?_
        by_cases hres : r.2 ≠ 0
        · rw [if_pos hres]
          exact .quiet rfl rfl ⟨rfl, rfl⟩ rfl rfl rfl
        · rw [if_neg hres]
          exact .quiet rfl rfl ⟨rfl, rfl⟩ rfl rfl rfl

variable (env) in
theorem verifyLoop_orderly (fuel : Nat) : ∀ (s : MscState ν) (lba amountLeft : Nat),
    Orderly s (verifyLoop env fuel s lba amountLeft) := by
  induction fuel with
  | zero => intro s lba amountLeft; exact .refl s
  | succ fuel ih =>
      intro s lba amountLeft
      unfold verifyLoop
      by_cases hzero : amountLeft = 0
      · rw [if_pos hzero]
        exact .refl s
      · rw [if_neg hzero]
        dsimp only
        generalize (if amountLeft < 4096 then amountLeft else 4096) = amount
        have hread := logicRead_orderly env s (u32 (s.lun.firstSector + lba)) amount
        refine hread.trans ?_
        split
        · exact .quiet rfl rfl ⟨rfl, rfl⟩ rfl rfl rfl
        · exact ih _ _ _

variable (env s) in
theorem doVerify_orderly : Orderly s (doVerify env s).1 := by
  unfold doVerify
  dsimp only
  split_ifs
  · exact .quiet rfl rfl ⟨rfl, rfl⟩ rfl rfl rfl
  · exact .quiet rfl rfl ⟨rfl, rfl⟩ rfl rfl rfl
  · exact .refl s
  · exact .quiet rfl rfl ⟨rfl, rfl⟩ rfl rfl rfl
  · exact verifyLoop_orderly env _ _ _ _

theorem doInquiry_orderly : Orderly s (doInquiry s).1 := by
  unfold doInquiry
  split_ifs <;> exact .quiet rfl rfl ⟨rfl, rfl⟩ rfl rfl rfl

theorem doRequestSense_orderly : Orderly s (doRequestSense s).1 := by
  unfold doRequestSense
  split_ifs <;> exact .quiet rfl rfl ⟨rfl, rfl⟩ rfl rfl rfl

theorem doReadCapacity_orderly : Orderly s (doReadCapacity s).1 := by
  unfold doReadCapacity
  split_ifs <;> exact .quiet rfl rfl ⟨rfl, rfl⟩ rfl rfl rfl

theorem doModeSense_orderly : Orderly s (doModeSense s).1 := by
  obtain ⟨buf, ⟨code, -, hres⟩ | hres⟩ := doModeSense_cases s
  · rw [hres]
    exact .quiet rfl rfl ⟨rfl, rfl⟩ rfl rfl rfl
  · rw [hres]
    exact .quiet rfl rfl ⟨rfl, rfl⟩ rfl rfl rfl

theorem doPreventAllow_orderly : Orderly s (doPreventAllow s).1 := by
  unfold doPreventAllow
  split_ifs <;> exact .quiet rfl rfl ⟨rfl, rfl⟩ rfl rfl rfl

theorem doModeSelect_orderly : Orderly s (doModeSelect s).1 := by
  unfold doModeSelect
  split_ifs <;> exact .quiet rfl rfl ⟨rfl, rfl⟩ rfl rfl rfl

/-- The only command that changes whether the medium is there, and it takes it away. -/
theorem doStartStop_orderly : Orderly s (doStartStop s).1 := by
  unfold doStartStop
  split_ifs
  all_goals first
    | exact .quiet rfl rfl ⟨rfl, rfl⟩ rfl rfl rfl
    | exact ⟨rfl, rfl, rfl, ⟨rfl, rfl⟩, rfl, (fun h => nomatch h), [], by simp [fsgLunClose],
        by simp⟩

variable (env) in
/-- Every case of the switch, if the medium is there for the cases that need it. -/
theorem action_orderly (t : MscState ν)
    (hmedium : (scsiCase env t).needsMedium = true → s.lun.isOpen = true) :
    Orderly s ((scsiCase env t).action s).1 := by
  unfold scsiCase at hmedium ⊢
  split
  all_goals first
    | exact doRead_orderly env s
    | exact doVerify_orderly env s
    | exact doInquiry_orderly
    | exact doRequestSense_orderly
    | exact doReadCapacity_orderly
    | exact doModeSense_orderly
    | exact doStartStop_orderly
    | exact doPreventAllow_orderly
    | exact doModeSelect_orderly
    | exact .quiet rfl rfl ⟨rfl, rfl⟩ rfl rfl rfl
    | exact doWrite_orderly env (hmedium (by simp_all))

/-! ## The checks before the command -/

theorem checkSizes_orderly (s : MscState ν) (cmndSize : Nat) (dataDir : DataDirection) :
    Orderly s (checkSizes s cmndSize dataDir).1 := by
  obtain ⟨size, phase, hstate, -, -⟩ := checkSizes_state s cmndSize dataDir
  rw [hstate]
  exact .quiet rfl rfl ⟨rfl, rfl⟩ rfl rfl rfl

theorem checkLun_orderly (s : MscState ν) : Orderly s (checkLun s).1 := by
  unfold checkLun
  dsimp only
  split_ifs <;> exact .quiet rfl rfl ⟨rfl, rfl⟩ rfl rfl rfl

/-- The mask check clears bits of one byte of the command block; when it passes, the medium
is there if it is needed. -/
theorem checkMask_orderly (env : MscEnv ν) (s : MscState ν) (cmndSize mask : Nat)
    (needsMedium : Bool) :
    Orderly s (checkMask env s cmndSize mask needsMedium).1 ∧
      ((checkMask env s cmndSize mask needsMedium).2 = 0 → s.curlun = true →
        needsMedium = true →
          (checkMask env s cmndSize mask needsMedium).1.lun.isOpen = true) := by
  have hclear : Orderly s { s with
      curCmd := { s.curCmd with cbwcb := Function.update s.curCmd.cbwcb 1 (s.cb 1 &&& 0x1f) } } :=
    ⟨rfl, rfl, rfl, ⟨rfl, rfl⟩, rfl, id, [], by simp, by simp⟩
  unfold checkMask
  dsimp only
  split_ifs with hbytes hcur hneeds
  · exact ⟨hclear.trans (.quiet rfl rfl ⟨rfl, rfl⟩ rfl rfl rfl), fun h => nomatch h⟩
  · exact ⟨hclear, fun h => nomatch h⟩
  · exact ⟨hclear.trans (.quiet rfl rfl ⟨rfl, rfl⟩ rfl rfl rfl), fun h => nomatch h⟩
  · refine ⟨hclear, fun _ hcur hneed => ?_⟩
    simp only [hcur, hneed, Bool.true_and, Bool.and_true, Bool.not_eq_true'] at hneeds
    simpa using hneeds

theorem checkCommand_orderly (env : MscEnv ν) (s : MscState ν) (cmndSize : Nat)
    (dataDir : DataDirection) (mask : Nat) (needsMedium : Bool)
    (hunit : s.commonLun < s.nluns) :
    Orderly s (checkCommand env s cmndSize dataDir mask needsMedium).1 ∧
      ((checkCommand env s cmndSize dataDir mask needsMedium).2 = 0 → needsMedium = true →
        (checkCommand env s cmndSize dataDir mask needsMedium).1.lun.isOpen = true) := by
  have hsizes := checkSizes_orderly s cmndSize dataDir
  unfold checkCommand
  split
  · rename_i t heq
    rw [heq] at hsizes
    exact ⟨hsizes, fun h => nomatch h⟩
  · rename_i t n heq
    rw [heq] at hsizes
    have hlun := checkLun_orderly t
    have hcur : (checkLun t).1.curlun = true := by
      unfold checkLun
      rw [if_pos (by rw [hsizes.units.1, hsizes.units.2]; exact hunit)]
      dsimp only
      split_ifs <;> rfl
    dsimp only
    generalize checkLun t = r at hlun hcur ⊢
    have hboth := hsizes.trans hlun
    split_ifs
    · exact ⟨hboth, fun h => nomatch h⟩
    · exact ⟨hboth.trans (.quiet rfl rfl ⟨rfl, rfl⟩ rfl rfl rfl), fun h => nomatch h⟩
    · obtain ⟨hmask, hopen⟩ := checkMask_orderly env r.1 n mask needsMedium
      exact ⟨hboth.trans hmask, fun hok => hopen hok hcur⟩

theorem setReply_orderly (s : MscState ν) (reply : Int) : Orderly s (setReply s reply) := by
  unfold setReply
  dsimp only
  split_ifs <;> exact .quiet rfl rfl ⟨rfl, rfl⟩ rfl rfl rfl

theorem doScsiCommand_orderly (env : MscEnv ν) (s : MscState ν)
    (hunit : s.commonLun < s.nluns) : Orderly s (doScsiCommand env s) := by
  unfold doScsiCommand
  dsimp only
  generalize hc : scsiCase env s = c
  have hpre : Orderly s { s with phaseError := false, dataSizeFromCmnd := c.dataSize } :=
    .quiet rfl rfl ⟨rfl, rfl⟩ rfl rfl rfl
  obtain ⟨hcheck, hmedium⟩ := checkCommand_orderly env
    { s with phaseError := false, dataSizeFromCmnd := c.dataSize } c.cmndSize c.dataDir c.mask
    c.needsMedium hunit
  replace hcheck := hpre.trans hcheck
  generalize checkCommand env _ c.cmndSize c.dataDir c.mask c.needsMedium = r at hcheck hmedium ⊢
  by_cases hok : r.2 = 0
  · rw [if_pos hok]
    have haction := action_orderly env (s := r.1) s (by rw [hc]; exact hmedium hok)
    rw [hc] at haction
    exact (hcheck.trans haction).trans (setReply_orderly _ _)
  · rw [if_neg hok]
    exact hcheck.trans (setReply_orderly _ _)

/-- Sending changes nothing but `out`. -/
theorem reply_orderly (s : MscState ν) : Orderly s (sendStatus (finishReply s)) := by
  have hfinish : Orderly s (finishReply s) := by
    unfold finishReply
    split_ifs
    · exact .event _ rfl rfl ⟨rfl, rfl⟩ rfl rfl rfl (fun h => nomatch h)
    · exact .refl s
  exact hfinish.trans (.event _ rfl rfl ⟨rfl, rfl⟩ rfl rfl rfl (fun h => nomatch h))

/-- A command that is carried out. -/
theorem execute_orderly (env : MscEnv ν) (s : MscState ν) (hunit : s.commonLun < s.nluns) :
    Orderly s (sendStatus (finishReply (doScsiCommand env s))) :=
  (doScsiCommand_orderly env s hunit).trans (reply_orderly _)

theorem commandEnds_congr {s s' : MscState ν} (h : Orderly s s') :
    s'.commandEnds ↔ s.commandEnds := by
  unfold MscState.commandEnds MscState.wantsIn
  rw [h.length, h.flags, h.written]

end Commands

end Novo7

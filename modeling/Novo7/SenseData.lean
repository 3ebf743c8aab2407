import Novo7.MassStorageMedium

/-!
# Sense data

A command that fails leaves a sense key, codes and perhaps an address in the unit, for a
`REQUEST SENSE` to fetch and clear. Every other command that gets past the check of its sizes
starts with them cleared, so nothing it answers depends on what failed before it
(`doScsiCommand_clearSense`). A `REQUEST SENSE` does not, and when it is refused for its own bytes
the address of an earlier failure stays beside the new key: `sense_reported_iff`.
-/

namespace Novo7

open Machine Buffer Bytes

variable {ν : Type}

/-! ## The status of a command -/

/-- A command carried out and answered. -/
def execute (env : MscEnv ν) (s : MscState ν) : MscState ν :=
  sendStatus (finishReply (doScsiCommand env s))

/-- The command is answered as failed, and not for its phase. -/
def Fails (s : MscState ν) : Prop :=
  ∃ csw, s.out.getLast? = some (.txStatus csw) ∧ csw.bCSWStatus = 1

theorem execute_fails {env : MscEnv ν} {s : MscState ν} (h : Fails (execute env s)) :
    (doScsiCommand env s).phaseError = false ∧
      ((doScsiCommand env s).curlun = true → (doScsiCommand env s).lun.senseData ≠ ssNoSense) := by
  have hkeep : (finishReply (doScsiCommand env s)).phaseError = (doScsiCommand env s).phaseError ∧
      (finishReply (doScsiCommand env s)).curlun = (doScsiCommand env s).curlun ∧
      (finishReply (doScsiCommand env s)).lun = (doScsiCommand env s).lun := by
    unfold finishReply
    split_ifs <;> exact ⟨rfl, rfl, rfl⟩
  rw [← hkeep.1, ← hkeep.2.1, ← hkeep.2.2]
  obtain ⟨csw, hlast, hstatus⟩ := h
  unfold execute sendStatus at hlast
  generalize finishReply (doScsiCommand env s) = t at hlast ⊢
  dsimp only at hlast
  rw [List.getLast?_append, List.getLast?_singleton, Option.some_or, Option.some_inj,
    MscEvent.txStatus.injEq] at hlast
  subst hlast
  dsimp only at hstatus
  by_cases hphase : t.phaseError = true
  · rw [if_pos hphase] at hstatus
    cases hstatus
  · refine ⟨by simpa using hphase, fun hcur hsense => ?_⟩
    rw [if_neg hphase, if_pos hcur, if_neg (not_not.mpr hsense)] at hstatus
    cases hstatus

/-! ## What failed before does not matter -/

/-- The state with no sense data. -/
def MscState.clearSense (s : MscState ν) : MscState ν :=
  { s with lun := { s.lun with senseData := ssNoSense, senseDataInfo := 0, infoValid := false } }

/-- The command passes the checks of its length and direction. -/
def SizesPass (env : MscEnv ν) (s : MscState ν) : Prop :=
  (checkSizes { s with phaseError := false, dataSizeFromCmnd := (scsiCase env s).dataSize }
    (scsiCase env s).cmndSize (scsiCase env s).dataDir).2 ≠ none

section Clear

variable {env : MscEnv ν} {s : MscState ν}

theorem checkSizes_clearSense (s : MscState ν) (cmndSize : Nat) (dataDir : DataDirection) :
    checkSizes s.clearSense cmndSize dataDir =
      Prod.map MscState.clearSense id (checkSizes s cmndSize dataDir) := by
  unfold checkSizes
  dsimp only
  by_cases hclip : s.curCmd.dCBWDataTransferLength < s.dataSizeFromCmnd
  · have hclip' : s.clearSense.curCmd.dCBWDataTransferLength < s.clearSense.dataSizeFromCmnd :=
      hclip
    rw [if_pos hclip, if_pos hclip', apply_ite (Prod.map MscState.clearSense id),
      apply_ite (Prod.map MscState.clearSense id), apply_ite (Prod.map MscState.clearSense id)]
    rfl
  · have hclip' : ¬ s.clearSense.curCmd.dCBWDataTransferLength < s.clearSense.dataSizeFromCmnd :=
      hclip
    rw [if_neg hclip, if_neg hclip', apply_ite (Prod.map MscState.clearSense id),
      apply_ite (Prod.map MscState.clearSense id), apply_ite (Prod.map MscState.clearSense id)]
    rfl

theorem checkLun_eq (hunit : s.commonLun < s.nluns) :
    checkLun s =
      ({ (if s.cb 0 ≠ 0x03 then s.clearSense else s) with curlun := true }, true) := by
  unfold checkLun
  rw [if_pos hunit]
  by_cases hop : s.cb 0 ≠ 0x03
  · have hop' : ({ s with curlun := true } : MscState ν).cb 0 ≠ 0x03 := hop
    dsimp only
    rw [if_pos hop, if_pos hop']
    rfl
  · have hop' : ¬ ({ s with curlun := true } : MscState ν).cb 0 ≠ 0x03 := hop
    dsimp only
    rw [if_neg hop, if_neg hop']

theorem checkLun_clearSense (hunit : s.commonLun < s.nluns) (hop : s.cb 0 ≠ 0x03) :
    checkLun s.clearSense = checkLun s := by
  have hop' : s.clearSense.cb 0 ≠ 0x03 := hop
  rw [checkLun_eq hunit, checkLun_eq (show s.clearSense.commonLun < s.clearSense.nluns from hunit),
    if_pos hop, if_pos hop']
  rfl

variable (env) in
theorem checkCommand_clearSense (hunit : s.commonLun < s.nluns) (hop : s.cb 0 ≠ 0x03)
    {cmndSize : Nat} {dataDir : DataDirection} (hpass : (checkSizes s cmndSize dataDir).2 ≠ none)
    (mask : Nat) (needsMedium : Bool) :
    checkCommand env s.clearSense cmndSize dataDir mask needsMedium =
      checkCommand env s cmndSize dataDir mask needsMedium := by
  have hsizes := checkSizes_orderly s cmndSize dataDir
  obtain ⟨hcmd, -⟩ := checkSizes_answers s cmndSize dataDir
  unfold checkCommand
  rw [checkSizes_clearSense]
  generalize checkSizes s cmndSize dataDir = r at hpass hsizes hcmd ⊢
  obtain ⟨t, size⟩ := r
  cases size with
  | none => exact absurd rfl hpass
  | some n =>
      have hlun := checkLun_clearSense (s := t)
        (by rw [hsizes.units.1, hsizes.units.2]; exact hunit)
        (by rw [MscState.cb, hcmd]; exact hop)
      rw [Prod.map_apply, id]
      dsimp only
      rw [hlun]

/-- A command other than `REQUEST SENSE` that gets past the check of its sizes does the same
whatever failed before it. -/
theorem doScsiCommand_clearSense (hunit : s.commonLun < s.nluns) (hop : s.cb 0 ≠ 0x03)
    (hpass : SizesPass env s) : doScsiCommand env s.clearSense = doScsiCommand env s := by
  have hcase : scsiCase env s.clearSense = scsiCase env s := rfl
  unfold doScsiCommand
  rw [hcase]
  unfold SizesPass at hpass
  generalize scsiCase env s = c at hpass ⊢
  have hcheck := checkCommand_clearSense env
    (s := { s with phaseError := false, dataSizeFromCmnd := c.dataSize }) hunit hop hpass c.mask
    c.needsMedium
  dsimp only
  rw [← hcheck]
  rfl

end Clear

/-! ## What `REQUEST SENSE` reports -/

/-- A `REQUEST SENSE` that asks for all of the sense data and has no other byte set. -/
structure RequestsSense (c : CommandBlockWrapper) : Prop where
  op : c.cbwcb 0 = 0x03
  alloc : 18 ≤ (c.cbwcb 4).toNat
  toHost : (c.bmCBWFlags &&& 0x80 != 0) = true
  length : (c.cbwcb 4).toNat ≤ c.dCBWDataTransferLength
  cmndSize : 6 ≤ c.bCBWCBLength.toNat
  block : c.bCBWCBLength.toNat ≤ 16
  lunOnly : c.cbwcb 1 &&& 0x1f = 0
  zero : ∀ i, 2 ≤ i → i < 16 → i ≠ 4 → c.cbwcb i = 0

section RequestSense

variable {env : MscEnv ν} {s : MscState ν}

/-- A command whose data goes the way the host says, and is no more than the host allows. -/
theorem checkSizes_pass {cmndSize : Nat} {dataDir : DataDirection}
    (hle : s.dataSizeFromCmnd ≤ s.curCmd.dCBWDataTransferLength)
    (hdir : 0 < s.dataSizeFromCmnd → dataDir = if s.wantsIn = true then .toHost else .fromHost)
    (hsize : cmndSize ≤ s.curCmd.bCBWCBLength.toNat) :
    checkSizes s cmndSize dataDir =
      ({ s with residue := s.curCmd.dCBWDataTransferLength },
        some s.curCmd.bCBWCBLength.toNat) := by
  have hclip : ¬ s.curCmd.dCBWDataTransferLength < s.dataSizeFromCmnd := by omega
  have hsame : ¬ ((if s.curCmd.dCBWDataTransferLength = 0 then DataDirection.none
      else if s.wantsIn = true then .toHost else .fromHost) ≠
      (if s.dataSizeFromCmnd = 0 then DataDirection.none else dataDir) ∧
      s.dataSizeFromCmnd > 0) := by
    rintro ⟨hne, hpos⟩
    rw [if_neg (show ¬ s.curCmd.dCBWDataTransferLength = 0 by omega),
      if_neg (show ¬ s.dataSizeFromCmnd = 0 by omega), hdir hpos] at hne
    exact hne rfl
  unfold checkSizes
  dsimp only
  rw [if_neg hclip, if_neg hsame]
  by_cases hne : cmndSize ≠ s.curCmd.bCBWCBLength.toNat
  · rw [if_pos hne, if_pos hsize]
  · rw [if_neg hne, not_not.mp hne]

/-- The command block of the current command without the unit number in it. -/
def MscState.maskLun (s : MscState ν) : MscState ν :=
  { s with
    curCmd := { s.curCmd with cbwcb := Function.update s.curCmd.cbwcb 1 (s.cb 1 &&& 0x1f) } }

variable (env) in
/-- A command block with no byte set outside its mask. -/
theorem checkMask_pass {n mask : Nat} {needsMedium : Bool} (hn : n ≤ 16)
    (hopen : needsMedium = true → s.lun.isOpen = true)
    (hzero : ∀ i, 1 ≤ i → i < 16 → s.maskLun.cb i = 0 ∨ mask.testBit i = true) :
    checkMask env s n mask needsMedium = (s.maskLun, 0) := by
  have hany : ((List.range n).any fun i =>
      decide (1 ≤ i) && (s.maskLun.cbRead env i != 0) &&
        !(decide (i < 32) && mask.testBit i)) = false := by
    rw [List.any_eq_false]
    intro i hi
    have hlt : i < 16 := Nat.lt_of_lt_of_le (List.mem_range.mp hi) hn
    have h32 : i < 32 := by omega
    rw [MscState.cbRead, if_pos hlt]
    by_cases h1 : 1 ≤ i
    · rcases hzero i h1 hlt with h | h
      · simp [h]
      · simp [h, h32]
    · simp [h1]
  have hmedium : (s.curlun && !s.lun.isOpen && needsMedium) = false := by
    cases needsMedium with
    | false => simp
    | true => simp [hopen rfl]
  unfold checkMask
  dsimp only
  rw [if_neg (by rw [Bool.not_eq_true]; exact hany),
    if_neg (by rw [Bool.not_eq_true]; exact hmedium)]
  rfl

theorem maskLun_cb_one (s : MscState ν) : s.maskLun.cb 1 = s.cb 1 &&& 0x1f := by
  rw [MscState.maskLun, MscState.cb]
  dsimp only
  rw [Function.update_self]

theorem maskLun_cb {i : Nat} (hi : i ≠ 1) (s : MscState ν) : s.maskLun.cb i = s.cb i :=
  Function.update_of_ne hi _ _

theorem checkMask_requestSense (hc : RequestsSense s.curCmd) {n : Nat} (hn : n ≤ 16) :
    checkMask env s n (1 <<< 4) false = (s.maskLun, 0) := by
  refine checkMask_pass env hn (fun h => nomatch h) fun i h1 hlt => ?_
  rcases Nat.eq_or_lt_of_le h1 with rfl | h2
  · exact .inl ((maskLun_cb_one s).trans hc.lunOnly)
  · by_cases h4 : i = 4
    · subst h4
      exact .inr (by decide)
    · exact .inl ((maskLun_cb (by omega) s).trans (hc.zero i h2 hlt h4))

/-- The sense data of the unit as it is reported. -/
def FsgLun.sense (lun : FsgLun) : List UInt8 :=
  senseBytes lun.infoValid lun.senseData lun.senseDataInfo

variable (env) in
theorem scsiCase_requestSense (hop : s.cb 0 = 0x03) : scsiCase env s =
    ⟨(s.cb 4).toNat, 6, .toHost, 1 <<< 4, false, doRequestSense⟩ := by
  have hbyte : (s.cb 0).toNat = 0x03 := by
    rw [hop]
    rfl
  unfold scsiCase
  rw [hbyte]
  rfl

variable (env) in
/-- A well-formed `REQUEST SENSE` puts the sense data in the buffer and clears it. -/
theorem doScsiCommand_requestSense (hunit : s.commonLun < s.nluns)
    (hc : RequestsSense s.curCmd) :
    ∃ t, doScsiCommand env s = t ∧ t.phaseError = false ∧ t.curlun = true ∧
      t.lun = s.clearSense.lun ∧ t.out = s.out ∧ t.nluns = s.nluns ∧
      t.commonLun = s.commonLun ∧
      t.curCmd.dCBWDataTransferLength = s.curCmd.dCBWDataTransferLength ∧
      t.curCmd.dCBWTag = s.curCmd.dCBWTag ∧ t.wantsIn = true ∧
      (List.range 18).map t.masstorageBuffer = s.lun.sense := by
  have hop : s.cb 0 = 0x03 := hc.op
  have hcase := scsiCase_requestSense env hop
  have halloc : 18 ≤ (s.cb 4).toNat := hc.alloc
  obtain ⟨s₁, hs₁⟩ : ∃ t : MscState ν,
    t = { s with phaseError := false, dataSizeFromCmnd := (s.cb 4).toNat } := ⟨_, rfl⟩
  have hsizes : checkSizes s₁ 6 .toHost =
      ({ s₁ with residue := s₁.curCmd.dCBWDataTransferLength },
        some s₁.curCmd.bCBWCBLength.toNat) := by
    subst hs₁
    exact checkSizes_pass hc.length (fun _ => (if_pos hc.toHost).symm) hc.cmndSize
  obtain ⟨s₂, hs₂⟩ : ∃ t : MscState ν,
    t = { s₁ with residue := s₁.curCmd.dCBWDataTransferLength, curlun := true } := ⟨_, rfl⟩
  have hlun : checkLun { s₁ with residue := s₁.curCmd.dCBWDataTransferLength } = (s₂, true) := by
    have hunit₁ : s₁.commonLun < s₁.nluns := by
      rw [hs₁]
      exact hunit
    have hop₁ : ¬ ({ s₁ with residue := s₁.curCmd.dCBWDataTransferLength } : MscState ν).cb 0 ≠
        0x03 := by
      rw [hs₁]
      exact not_not.mpr hop
    refine (checkLun_eq (show ({ s₁ with residue := s₁.curCmd.dCBWDataTransferLength } :
      MscState ν).commonLun < _ from hunit₁)).trans ?_
    rw [if_neg hop₁, hs₂]
  have hcheck : checkCommand env s₁ 6 .toHost (1 <<< 4) false = (s₂.maskLun, 0) := by
    have hop₂ : s₂.cb 0 = 0x03 := by
      subst hs₁ hs₂
      exact hop
    have hc₂ : RequestsSense s₂.curCmd := by
      subst hs₁ hs₂
      exact hc
    have hn : s₁.curCmd.bCBWCBLength.toNat ≤ 16 := by
      subst hs₁
      exact hc.block
    unfold checkCommand
    rw [hsizes]
    dsimp only
    rw [hlun]
    dsimp only
    rw [if_neg (by decide), if_neg (by rw [hop₂]; simp), checkMask_requestSense hc₂ hn]
  unfold doScsiCommand
  rw [hcase]
  dsimp only
  rw [← hs₁, hcheck]
  dsimp only
  rw [if_pos rfl]
  have hcur : s₂.maskLun.curlun = true := by
    subst hs₂
    rfl
  unfold doRequestSense
  rw [if_pos hcur]
  dsimp only
  obtain ⟨residue, hres⟩ := setReply_eq (({ s₂.maskLun with lun := s₂.maskLun.clearSense.lun } :
    MscState ν).put 0 (senseBytes s₂.maskLun.lun.infoValid s₂.maskLun.lun.senseData
      s₂.maskLun.lun.senseDataInfo)) 18
  refine ⟨_, hres, ?_⟩
  subst hs₁ hs₂
  refine ⟨rfl, rfl, rfl, rfl, rfl, rfl, rfl, rfl, hc.toHost, ?_⟩
  refine List.ext_getElem rfl fun i hi _ => ?_
  rw [List.length_map, List.length_range] at hi
  rw [List.getElem_map, List.getElem_range]
  show store _ 0 18 (fun i => (senseBytes s.lun.infoValid s.lun.senseData
    s.lun.senseDataInfo).getD i 0) i = _
  rw [store_in (Nat.zero_le _) (by omega), Nat.sub_zero]
  exact List.getD_eq_getElem _ _ _

/-- A command is answered as passed, with data that starts with the given sense data. -/
def ReportsSense (s t : MscState ν) (bytes : List UInt8) : Prop :=
  ∃ data csw, t.out = s.out ++ [.txData data, .txStatus csw] ∧ csw.bCSWStatus = 0 ∧
    data.take 18 = bytes

theorem execute_lun (env : MscEnv ν) (s : MscState ν) :
    (execute env s).lun = (doScsiCommand env s).lun := reply_lun _

variable (env) in
theorem execute_requestSense (hunit : s.commonLun < s.nluns) (hc : RequestsSense s.curCmd) :
    ReportsSense s (execute env s) s.lun.sense := by
  obtain ⟨t, ht, hphase, hcur, hlun, hout, -, -, hlen, -, hin, hbuf⟩ :=
    doScsiCommand_requestSense env hunit hc
  have halloc := hc.alloc
  have hlength := hc.length
  have hL : t.curCmd.dCBWDataTransferLength ≠ 0 := by omega
  have hsense : t.lun.senseData = ssNoSense := by rw [hlun]; rfl
  rw [execute, ht, finishReply, if_pos ⟨hL, hin⟩]
  refine ⟨(List.range t.curCmd.dCBWDataTransferLength).map t.masstorageBuffer,
    ⟨0x53425355, t.curCmd.dCBWTag, t.residue, 0⟩, ?_, rfl, ?_⟩
  · unfold sendStatus
    dsimp only
    rw [hphase, hcur, if_pos rfl, hsense, if_neg (by decide), if_neg (by decide), hout,
      List.append_assoc]
    rfl
  · rw [← List.map_take, List.take_range, Nat.min_eq_left (by omega), hbuf]

variable (env) in
theorem execute_units (hunit : s.commonLun < s.nluns) :
    (execute env s).commonLun < (execute env s).nluns := by
  have h := execute_orderly env s hunit
  unfold execute
  rw [h.units.1, h.units.2]
  exact hunit

end RequestSense

/-! ## What the failure was -/

section Failure

variable {env : MscEnv ν} {s : MscState ν}

theorem checkSizes_lun (s : MscState ν) (cmndSize : Nat) (dataDir : DataDirection) :
    (checkSizes s cmndSize dataDir).1.lun = s.lun := by
  obtain ⟨size, phase, hstate, -, -⟩ := checkSizes_state s cmndSize dataDir
  rw [hstate]

theorem phaseError_of_not_sizesPass (h : ¬ SizesPass env s) :
    (doScsiCommand env s).phaseError = true := by
  unfold SizesPass at h
  rw [not_not] at h
  unfold doScsiCommand
  generalize scsiCase env s = c at h ⊢
  obtain ⟨-, hphase⟩ := checkSizes_answers
    ({ s with phaseError := false, dataSizeFromCmnd := c.dataSize }) c.cmndSize c.dataDir
  replace hphase := hphase h
  dsimp only
  unfold checkCommand
  generalize checkSizes _ c.cmndSize c.dataDir = r at h hphase ⊢
  obtain ⟨t, size⟩ := r
  obtain rfl : size = none := h
  dsimp only
  rw [if_neg (by decide)]
  obtain ⟨residue, hres⟩ := setReply_eq t (-errEinval)
  rw [hres]
  exact hphase

theorem checkMask_cases (hcur : s.curlun = true) (n mask : Nat) :
    checkMask env s n mask false = (s.maskLun.sense ssInvalidFieldInCdb, -errEinval) ∨
      checkMask env s n mask false = (s.maskLun, 0) := by
  unfold checkMask
  dsimp only
  rw [if_pos hcur]
  split
  · exact .inl rfl
  · rw [if_neg (by simp)]
    exact .inr rfl

variable (env) in
/-- A `REQUEST SENSE` past the check of its sizes fails for a byte of its block or not at all. -/
theorem checkCommand_requestSense (hunit : s.commonLun < s.nluns) (hop : s.cb 0 = 0x03)
    (hpass : (checkSizes s 6 .toHost).2 ≠ none) :
    ∃ t : MscState ν, t.lun = s.lun ∧ t.curlun = true ∧
      (checkCommand env s 6 .toHost (1 <<< 4) false =
          (t.sense ssInvalidFieldInCdb, -errEinval) ∨
        checkCommand env s 6 .toHost (1 <<< 4) false = (t, 0)) := by
  have hlun := checkSizes_lun s 6 .toHost
  have hunits := (checkSizes_orderly s 6 .toHost).units
  have hcmd := (checkSizes_answers s 6 .toHost).1
  unfold checkCommand
  generalize checkSizes s 6 DataDirection.toHost = r at hpass hlun hunits hcmd ⊢
  obtain ⟨t, size⟩ := r
  cases size with
  | none => exact absurd rfl hpass
  | some n =>
      have hop' : t.cb 0 = 0x03 := by
        rw [MscState.cb, hcmd]
        exact hop
      obtain ⟨u, hu⟩ : ∃ u : MscState ν, u = { t with curlun := true } := ⟨_, rfl⟩
      have hcheck : checkLun t = (u, true) := by
        rw [checkLun_eq (by rw [hunits.1, hunits.2]; exact hunit), if_neg (not_not.mpr hop'), hu]
      have hcur : u.curlun = true := by rw [hu]
      have hop'' : u.cb 0 = 0x03 := by
        rw [hu]
        exact hop'
      refine ⟨u.maskLun, ?_, hcur, ?_⟩
      · rw [hu]
        exact hlun
      · dsimp only
        rw [hcheck]
        dsimp only
        rw [if_neg (by decide), if_neg (by rw [hop'']; simp)]
        exact checkMask_cases hcur n _

/-- A `REQUEST SENSE` that fails leaves the information of an earlier failure as it is. -/
theorem requestSense_refused (hunit : s.commonLun < s.nluns) (hop : s.cb 0 = 0x03)
    (hf : Fails (execute env s)) :
    (doScsiCommand env s).lun = { s.lun with senseData := ssInvalidFieldInCdb } := by
  obtain ⟨hphase, hsense⟩ := execute_fails hf
  have hpass : SizesPass env s := by
    by_contra hnot
    rw [phaseError_of_not_sizesPass hnot] at hphase
    cases hphase
  have hcase := scsiCase_requestSense env hop
  unfold SizesPass at hpass
  rw [hcase] at hpass
  obtain ⟨t, hlun, hcur, hrefused | hthrough⟩ := checkCommand_requestSense env
    (s := { s with phaseError := false, dataSizeFromCmnd := (s.cb 4).toNat }) hunit hop hpass
  · unfold doScsiCommand
    rw [hcase]
    dsimp only
    rw [hrefused]
    dsimp only
    rw [if_neg (by decide), (setReply_answers _ _).1]
    show { t.lun with senseData := ssInvalidFieldInCdb } = _
    rw [hlun]
  · exfalso
    unfold doScsiCommand at hsense
    rw [hcase] at hsense
    dsimp only at hsense
    rw [hthrough] at hsense
    dsimp only at hsense
    rw [if_pos rfl] at hsense
    unfold doRequestSense at hsense
    rw [if_pos hcur] at hsense
    dsimp only at hsense
    generalize hu : MscState.put _ 0 (senseBytes _ _ _) = u at hsense
    obtain ⟨residue, hres⟩ := setReply_eq u 18
    rw [hres, ← hu] at hsense
    exact hsense hcur rfl

end Failure

/-! ## The law -/

variable {ν : Type}

/-- The sense data of a failure itself: what the command leaves when none was there before. A
`REQUEST SENSE` fails for its block alone, which is not at any address. -/
def failureSense (env : MscEnv ν) (s : MscState ν) : List UInt8 :=
  if s.cb 0 = 0x03 then senseBytes false ssInvalidFieldInCdb 0
  else (doScsiCommand env s.clearSense).lun.sense

/-- The state with another command block wrapper accepted. -/
def MscState.next (s : MscState ν) (c : CommandBlockWrapper) : MscState ν :=
  { s with curCmd := c, curCmdBytesWritten := 0 }

/-- After the command, a `REQUEST SENSE` reports its failure, and another one none. -/
def FailureReported (env : MscEnv ν) (s : MscState ν) : Prop :=
  ∀ c c', RequestsSense c → RequestsSense c' →
    ReportsSense ((execute env s).next c) (execute env ((execute env s).next c))
        (failureSense env s) ∧
      ReportsSense ((execute env ((execute env s).next c)).next c')
        (execute env ((execute env ((execute env s).next c)).next c'))
        (senseBytes false ssNoSense 0)

theorem ReportsSense.unique {s t : MscState ν} {bytes bytes' : List UInt8}
    (h : ReportsSense s t bytes) (h' : ReportsSense s t bytes') : bytes = bytes' := by
  obtain ⟨data, csw, hout, -, rfl⟩ := h
  obtain ⟨data', csw', hout', -, rfl⟩ := h'
  have heq := List.append_cancel_left (hout.symm.trans hout')
  rw [List.cons_eq_cons, MscEvent.txData.injEq] at heq
  rw [heq.1]

theorem failureReported_iff (env : MscEnv ν) (s : MscState ν) (hunit : s.commonLun < s.nluns) :
    FailureReported env s ↔ (doScsiCommand env s).lun.sense = failureSense env s := by
  have hunit' := execute_units env hunit
  have hfirst (c : CommandBlockWrapper) (hc : RequestsSense c) :
      ReportsSense ((execute env s).next c) (execute env ((execute env s).next c))
        (doScsiCommand env s).lun.sense := by
    rw [← execute_lun env s]
    generalize execute env s = t at hunit' ⊢
    exact execute_requestSense env (s := t.next c) hunit' hc
  constructor
  · intro h
    have hc : RequestsSense ⟨0x43425355, 0, 18, 0x80, 0, 6,
        fun i => if i = 0 then 0x03 else if i = 4 then 18 else 0⟩ := by
      refine ⟨rfl, by decide, by decide, by decide, by decide, by decide, by decide,
        fun i h2 _ h4 => ?_⟩
      show (if i = 0 then _ else if i = 4 then _ else _) = _
      rw [if_neg (by omega), if_neg h4]
    exact (hfirst _ hc).unique (h _ _ hc hc).1
  · intro h c c' hc hc'
    refine ⟨h ▸ hfirst c hc, ?_⟩
    generalize execute env s = r at hunit' ⊢
    have hunit'' : (r.next c).commonLun < (r.next c).nluns := hunit'
    obtain ⟨t, ht, -, -, hlun, -⟩ := doScsiCommand_requestSense env (s := r.next c) hunit'' hc
    have hleft := execute_lun env (r.next c)
    have hunits := execute_units env hunit''
    rw [ht, hlun] at hleft
    generalize execute env (r.next c) = u at hleft hunits ⊢
    have hsecond := execute_requestSense env (s := u.next c') hunits hc'
    rw [show (u.next c').lun = u.lun from rfl, hleft] at hsecond
    exact hsecond

/-- The byte of a value's digit is zero if the digit is. -/
theorem byte_eq_zero_iff (n : Nat) : UInt8.ofNat n = 0 ↔ n % 2 ^ 8 = 0 := by
  rw [← UInt8.toNat_inj, UInt8.toNat_ofNat']
  rfl

theorem senseBytes_eq_iff {valid : Bool} {sd sdinfo : Nat} :
    senseBytes valid sd sdinfo = senseBytes false sd 0 ↔ valid = false ∧ u32 sdinfo = 0 := by
  have hbytes : beBytes32 sdinfo = beBytes32 0 ↔ u32 sdinfo = 0 := by
    simp only [beBytes32, beBytes16, List.cons_append, List.nil_append, List.cons.injEq, and_true,
      Nat.zero_div, byte_eq_zero_iff, u32, show UInt8.ofNat 0 = 0 from rfl]
    omega
  rw [← hbytes]
  constructor
  · intro h
    have hinfo := congrArg (fun l => (l.drop 3).take 4) h
    have hvalid := congrArg (fun l => l.head?) h
    refine ⟨?_, hinfo⟩
    cases valid with
    | false => rfl
    | true => exact absurd (show (some 0xf0 : Option UInt8) = some 0x70 from hvalid) (by decide)
  · rintro ⟨rfl, hinfo⟩
    rw [senseBytes, senseBytes, hinfo]

/-- A failure is reported as it was, and once, unless the command is a `REQUEST SENSE` and an
earlier failure left an address; and a command that gets past the check of its sizes does the
same whatever failed before it, unless it is a `REQUEST SENSE`. -/
theorem sense_reported_iff (env : MscEnv ν) (s : MscState ν) (hunit : s.commonLun < s.nluns) :
    (Fails (execute env s) → (FailureReported env s ↔
      (s.cb 0 = 0x03 → s.lun.infoValid = false ∧ u32 s.lun.senseDataInfo = 0))) ∧
    (s.cb 0 ≠ 0x03 → SizesPass env s → execute env s.clearSense = execute env s) := by
  refine ⟨fun hf => ?_, fun hop hpass => ?_⟩
  · rw [failureReported_iff env s hunit, failureSense]
    by_cases hop : s.cb 0 = 0x03
    · rw [if_pos hop, requestSense_refused hunit hop hf, FsgLun.sense, senseBytes_eq_iff]
      exact ⟨fun h _ => h, fun h => h hop⟩
    · have hpass : SizesPass env s := by
        by_contra hnot
        have hphase := (execute_fails hf).1
        rw [phaseError_of_not_sizesPass hnot] at hphase
        cases hphase
      rw [if_neg hop, doScsiCommand_clearSense hunit hop hpass]
      exact ⟨fun _ h => absurd h hop, fun _ => rfl⟩
  · rw [execute, execute, doScsiCommand_clearSense hunit hop hpass]

/-- A wrapper without data. -/
def bareWrapper (block : List UInt8) : CommandBlockWrapper :=
  ⟨0x43425355, 0, 0, 0, 0, UInt8.ofNat block.length, fun i => block.getD i 0⟩

/-- `TEST UNIT READY` while nothing is mounted. -/
def notReady : MscState Unit :=
  (mscInit () fun _ => 0).next (bareWrapper [0x00, 0, 0, 0, 0, 0])

theorem sense_reported_iff_notReady :
    Fails (execute noFlash notReady) ∧ FailureReported noFlash notReady :=
  ⟨⟨_, rfl, rfl⟩, ((sense_reported_iff noFlash notReady (by decide)).1 ⟨_, rfl, rfl⟩).mpr
    fun h => absurd h (by decide)⟩

/-- A flash disk that cannot be read. -/
def deadFlash : MscEnv Unit := ⟨fun _ _ _ buf => ((), 1, buf), fun _ _ _ _ => ((), 1), fun _ _ => 0⟩

/-- A mounted unit of 16 sectors, of which the sixth was to be verified, and then a
`REQUEST SENSE` with a reserved byte set. -/
def badRequestSense : MscState Unit :=
  (execute deadFlash (((mscInit () fun _ => 0).withMount 0 16 true).next
    (bareWrapper [0x2f, 0, 0, 0, 0, 5, 0, 0, 1, 0]))).next
      ⟨0x43425355, 1, 18, 0x80, 0, 6, fun i => [0x03, 0, 1, 0, 18, 0].getD i 0⟩

/-- The refusal is reported with the address that could not be verified. -/
theorem badRequestSense_misreported :
    Fails (execute deadFlash badRequestSense) ∧ ¬ FailureReported deadFlash badRequestSense ∧
      badRequestSense.lun.senseDataInfo = 5 := by
  refine ⟨⟨_, rfl, rfl⟩, fun h => ?_, rfl⟩
  have heq := (failureReported_iff deadFlash badRequestSense (by decide)).mp h
  revert heq
  decide

end Novo7

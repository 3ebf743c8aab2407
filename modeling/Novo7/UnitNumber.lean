import Novo7.Capacity

/-!
# Commands for another unit

The handlers have a branch for a command to a unit that does not exist, and `check_command`
chooses it by `common->lun`. Nothing sets that number from a wrapper: it is 0, and unit 0 exists.
`other_unit_answered` says what that means for a wrapper that names any other unit: whatever the
command, it is not answered as one for a unit that does not exist.
-/

namespace Novo7

open Machine Buffer Bytes Transducer

variable {ν : Type}

/-! ## The intended answer -/

/-- The sense data that `send_status` takes the status from. -/
def statusSense (s : MscState ν) : Nat :=
  if s.curlun then s.lun.senseData
  else if s.badLunOkay then ssNoSense else ssLogicalUnitNotSupported

/-- The reply to `INQUIRY` for a unit that does not exist. -/
def noUnitInquiry : List UInt8 := [0x7f, 0, 0, 0, 31] ++ List.replicate 31 0

/-- The command `c`, carried out between `s` and `t`, is for a unit that does not exist: the medium
and the unit are left alone, `INQUIRY` and `REQUEST SENSE` are answered for such a unit, and any
other command fails with `LOGICAL UNIT NOT SUPPORTED`. -/
structure ForNoUnit (c : CommandBlockWrapper) (s t : MscState ν) : Prop where
  access : ∀ e ∈ t.out.drop s.out.length, e.isAccess = false
  unit : t.lun = s.lun
  inquiry : c.cbwcb 0 = 0x12 →
    passed t.out = true ∧ (List.range 36).map t.masstorageBuffer = noUnitInquiry
  requestSense : c.cbwcb 0 = 0x03 → passed t.out = true ∧
    (List.range 18).map t.masstorageBuffer = senseBytes false ssLogicalUnitNotSupported 0
  other : c.cbwcb 0 ≠ 0x12 → c.cbwcb 0 ≠ 0x03 →
    Fails t ∧ statusSense t = ssLogicalUnitNotSupported

/-! ## The unit that is chosen -/

section Commands

variable {env : MscEnv ν} {s : MscState ν}

variable (env) in
/-- A command past the check of its sizes is one for unit 0, whose sense data starts afresh. -/
theorem checkCommand_selected (hunit : s.commonLun < s.nluns) (hop : s.cb 0 ≠ 0x03)
    (hattention : s.lun.unitAttentionData = ssNoSense) (cmndSize : Nat) (dir : DataDirection)
    (mask : Nat) (needsMedium : Bool) :
    (checkCommand env s cmndSize dir mask needsMedium).1.phaseError = true ∧
        (checkCommand env s cmndSize dir mask needsMedium).2 ≠ 0 ∨
      (checkCommand env s cmndSize dir mask needsMedium).1.curlun = true ∧
        (checkCommand env s cmndSize dir mask needsMedium).1.lun.senseData ≠
          ssLogicalUnitNotSupported := by
  have hlun := checkSizes_lun s cmndSize dir
  have hunits := (checkSizes_orderly s cmndSize dir).units
  obtain ⟨hcmd, hphase⟩ := checkSizes_answers s cmndSize dir
  unfold checkCommand
  generalize checkSizes s cmndSize dir = r at hlun hunits hcmd hphase ⊢
  obtain ⟨t, size⟩ := r
  replace hcmd : t.curCmd = s.curCmd := hcmd
  replace hlun : t.lun = s.lun := hlun
  cases size with
  | none => exact .inl ⟨hphase rfl, show -errEinval ≠ 0 by decide⟩
  | some n =>
      refine .inr ?_
      have hop' : t.cb 0 ≠ 0x03 := by rwa [MscState.cb, hcmd]
      obtain ⟨u, hu⟩ : ∃ u : MscState ν, u = { t.clearSense with curlun := true } := ⟨_, rfl⟩
      have hcheck : checkLun t = (u, true) := by
        rw [checkLun_eq (by rw [hunits.1, hunits.2]; exact hunit), if_pos hop', hu]
      have hcalm : u.lun.unitAttentionData = ssNoSense := by
        rw [hu]
        exact (congrArg FsgLun.unitAttentionData hlun).trans hattention
      have hcur : u.curlun = true := by rw [hu]
      have hsense : u.lun.senseData = ssNoSense := by
        rw [hu]
        rfl
      have hmask : Selected u (checkMask env u n mask needsMedium).1 := by
        unfold checkMask
        dsimp only
        rw [if_pos hcur]
        split_ifs
        · exact ⟨rfl, .inr (show ssInvalidFieldInCdb ≠ ssLogicalUnitNotSupported by decide)⟩
        · exact ⟨rfl, .inr (show ssMediumNotPresent ≠ ssLogicalUnitNotSupported by decide)⟩
        · exact .of_eq rfl rfl
      dsimp only
      rw [hcheck]
      dsimp only
      rw [if_neg (by decide), if_neg (by rw [hcalm]; simp)]
      refine ⟨hmask.curlun.trans hcur, ?_⟩
      rcases hmask.sense with hsame | hother
      · rw [hsame, hsense]
        decide
      · exact hother

variable (env) in
theorem doScsiCommand_selected (hunit : s.commonLun < s.nluns) (hop : s.cb 0 ≠ 0x03)
    (hattention : s.lun.unitAttentionData = ssNoSense) :
    (doScsiCommand env s).phaseError = true ∨ (doScsiCommand env s).curlun = true ∧
      (doScsiCommand env s).lun.senseData ≠ ssLogicalUnitNotSupported := by
  unfold doScsiCommand
  dsimp only
  have hcheck := checkCommand_selected env (s := { s with
    phaseError := false, dataSizeFromCmnd := (scsiCase env s).dataSize }) hunit hop hattention
    (scsiCase env s).cmndSize (scsiCase env s).dataDir (scsiCase env s).mask
    (scsiCase env s).needsMedium
  generalize checkCommand env _ _ _ _ _ = r at hcheck ⊢
  rcases hcheck with ⟨hphase, hres⟩ | ⟨hcur, hsense⟩
  · rw [if_neg hres]
    obtain ⟨residue, hreply⟩ := setReply_eq r.1 r.2
    rw [hreply]
    exact .inl hphase
  · refine .inr ?_
    by_cases hres : r.2 = 0
    · rw [if_pos hres]
      have haction := (action_kept env (s := r.1) s).selected
      generalize (scsiCase env s).action r.1 = q at haction ⊢
      obtain ⟨residue, hreply⟩ := setReply_eq q.1 q.2
      rw [hreply]
      refine ⟨haction.curlun.trans hcur, ?_⟩
      rcases haction.sense with hsame | hother
      · show q.1.lun.senseData ≠ _
        rwa [hsame]
      · exact hother
    · rw [if_neg hres]
      obtain ⟨residue, hreply⟩ := setReply_eq r.1 r.2
      rw [hreply]
      exact ⟨hcur, hsense⟩

/-! ## The answers -/

/-- Answering keeps the buffer and what the status is taken from. -/
theorem execute_keeps (env : MscEnv ν) (s : MscState ν) :
    (execute env s).masstorageBuffer = (doScsiCommand env s).masstorageBuffer ∧
      statusSense (execute env s) = statusSense (doScsiCommand env s) := by
  unfold execute sendStatus finishReply
  generalize doScsiCommand env s = t
  split_ifs <;> exact ⟨rfl, rfl⟩

/-- A command that passed got past all its checks. -/
theorem doScsiCommand_passed (hunit : s.commonLun < s.nluns)
    (hpassed : passed (execute env s).out = true) :
    ∃ r : MscState ν, checkCommand env { s with
        phaseError := false, dataSizeFromCmnd := (scsiCase env s).dataSize }
          (scsiCase env s).cmndSize (scsiCase env s).dataDir (scsiCase env s).mask
          (scsiCase env s).needsMedium = (r, 0) ∧ r.curlun = true ∧
      doScsiCommand env s = setReply ((scsiCase env s).action r).1 ((scsiCase env s).action r).2 := by
  have hok : ¬ Refused (doScsiCommand env s) := by
    intro href
    rw [execute, reply_passed _ href] at hpassed
    cases hpassed
  obtain ⟨hrefused, hthrough⟩ := checkCommand_answers env (s := { s with
    phaseError := false, dataSizeFromCmnd := (scsiCase env s).dataSize }) (scsiCase env s).cmndSize
    (scsiCase env s).dataDir (scsiCase env s).mask (scsiCase env s).needsMedium hunit
  unfold doScsiCommand at hok ⊢
  dsimp only at hok ⊢
  generalize checkCommand env _ _ _ _ _ = r at hok hrefused hthrough ⊢
  obtain ⟨t, res⟩ := r
  dsimp only at hok hrefused hthrough ⊢
  by_cases hres : res = 0
  · refine ⟨t, by rw [hres], (hthrough hres).1, ?_⟩
    rw [if_pos hres]
  · rw [if_neg hres] at hok
    exact absurd ((setReply_answers t res).2 (hrefused hres)) hok

theorem setReply_buffer (t : MscState ν) (reply : Int) :
    (setReply t reply).masstorageBuffer = t.masstorageBuffer := by
  obtain ⟨residue, heq⟩ := setReply_eq t reply
  rw [heq]

/-- `INQUIRY` is answered for unit 0. -/
theorem inquiry_answered (hunit : s.commonLun < s.nluns) (hop : s.cb 0 = 0x12)
    (hpassed : passed (execute env s).out = true) : (execute env s).masstorageBuffer 0 = 0 := by
  obtain ⟨r, -, hcur, hres⟩ := doScsiCommand_passed hunit hpassed
  have hcase : (scsiCase env s).action = doInquiry := by
    unfold scsiCase
    rw [show (s.cb 0).toNat = 0x12 by rw [hop]; rfl]
    rfl
  rw [(execute_keeps env s).1, hres, setReply_buffer, hcase, doInquiry, if_pos hcur]
  rfl

/-- `REQUEST SENSE` is answered with the sense data of unit 0, which it clears. -/
theorem requestSense_answered (hunit : s.commonLun < s.nluns) (hop : s.cb 0 = 0x03)
    (hpassed : passed (execute env s).out = true) :
    (execute env s).lun.senseData = ssNoSense ∧
      (execute env s).masstorageBuffer 2 = UInt8.ofNat (s.lun.senseData / 2 ^ 16) := by
  have hcase : scsiCase env s =
      ⟨(s.cb 4).toNat, 6, .toHost, 1 <<< 4, false, doRequestSense⟩ := by
    unfold scsiCase
    rw [show (s.cb 0).toNat = 0x03 by rw [hop]; rfl]
    rfl
  obtain ⟨r, hcheck, hcur, hres⟩ := doScsiCommand_passed hunit hpassed
  rw [hcase] at hcheck hres
  have hlun : r.lun = s.lun := by
    have hpass : (checkSizes { s with phaseError := false, dataSizeFromCmnd := (s.cb 4).toNat } 6
        .toHost).2 ≠ none := by
      intro hnone
      have hphase := @phaseError_of_not_sizesPass ν env s (by
        unfold SizesPass
        rw [hcase]
        exact not_not.mpr hnone)
      have := reply_passed (doScsiCommand env s) (.inl hphase)
      rw [← execute, hpassed] at this
      cases this
    obtain ⟨t, htlun, -, hfails | hthrough⟩ := checkCommand_requestSense env
      (s := { s with phaseError := false, dataSizeFromCmnd := (s.cb 4).toNat }) hunit hop hpass
    · rw [hfails] at hcheck
      exact absurd (congrArg Prod.snd hcheck) (show -errEinval ≠ 0 by decide)
    · rw [hthrough] at hcheck
      obtain rfl : t = r := congrArg Prod.fst hcheck
      exact htlun
  constructor
  · rw [execute_lun, hres, (setReply_answers _ _).1]
    dsimp only
    rw [doRequestSense, if_pos hcur]
    rfl
  · rw [(execute_keeps env s).1, hres, setReply_buffer]
    dsimp only
    rw [doRequestSense, if_pos hcur, hlun]
    rfl

/-- No command is answered as one for a unit that does not exist. -/
theorem execute_not_forNoUnit (hunit : s.commonLun < s.nluns)
    (hattention : s.lun.unitAttentionData = ssNoSense) {s₀ : MscState ν}
    (hlun : s₀.lun = s.lun) : ¬ ForNoUnit s.curCmd s₀ (execute env s) := by
  intro h
  by_cases hinquiry : s.cb 0 = 0x12
  · obtain ⟨hpassed, hbytes⟩ := h.inquiry hinquiry
    have hfirst : (execute env s).masstorageBuffer 0 = 0x7f :=
      Option.some_inj.mp (congrArg (fun l : List UInt8 => l[0]?) hbytes)
    rw [inquiry_answered hunit hinquiry hpassed] at hfirst
    exact absurd hfirst (by decide)
  by_cases hsense : s.cb 0 = 0x03
  · obtain ⟨hpassed, hbytes⟩ := h.requestSense hsense
    obtain ⟨hclear, hkey⟩ := requestSense_answered hunit hsense hpassed
    have hthird : (execute env s).masstorageBuffer 2 = 0x05 :=
      Option.some_inj.mp (congrArg (fun l : List UInt8 => l[2]?) hbytes)
    have hnone : s.lun.senseData = ssNoSense := by rw [← hlun, ← h.unit, hclear]
    rw [hkey, hnone] at hthird
    exact absurd hthird (by decide)
  · obtain ⟨hfails, hstatus⟩ := h.other hinquiry hsense
    have hphase := (execute_fails hfails).1
    rcases doScsiCommand_selected env hunit hsense hattention with hbad | ⟨hcur, hother⟩
    · rw [hbad] at hphase
      cases hphase
    · rw [(execute_keeps env s).2, statusSense, if_pos hcur] at hstatus
      exact hother hstatus

end Commands

/-- In no run is a command that names a unit which does not exist answered as one. -/
theorem other_unit_answered (env : MscEnv ν) (info : StorageInfo) (nand : ν)
    (buffer : Nat → UInt8) (is : List MscInput) (p : List UInt8) (e : Execution)
    (hexecuted : executed { final (mscStep env info) (mscInit nand buffer) is with out := [] } p =
      some e)
    (_hunit : (final (mscStep env info) (mscInit nand buffer) is).nluns ≤ e.wrapper.bCBWLUN.toNat) :
    ¬ ForNoUnit e.wrapper { final (mscStep env info) (mscInit nand buffer) is with out := [] }
      (mscStep env info (final (mscStep env info) (mscInit nand buffer) is) (.packet p)).1 := by
  have hcalm : Calm (final (mscStep env info) (mscInit nand buffer) is) :=
    run_calm env info is ⟨Nat.zero_lt_one, rfl⟩
  generalize final (mscStep env info) (mscInit nand buffer) is = s at hexecuted hcalm ⊢
  obtain ⟨⟨hcommon, hnluns⟩, hlun, -⟩ := @mscFrame_keeps ν { s with out := [] } p
  rcases masstorageRxHandler_executes env { s with out := [] } p with ⟨hnone, -⟩ | ⟨t, ht, hsome, hres⟩
  · rw [hnone] at hexecuted
    cases hexecuted
  · rw [ht] at hcommon hnluns hlun
    rw [hsome] at hexecuted
    obtain rfl := Option.some_inj.mp hexecuted
    show ¬ ForNoUnit t.curCmd { s with out := [] } (masstorageRxHandler env { s with out := [] } p)
    rw [hres]
    exact execute_not_forNoUnit (by rw [hcommon, hnluns]; exact hcalm.1)
      ((congrArg FsgLun.unitAttentionData hlun).trans hcalm.2) hlun.symm

/-- `TEST UNIT READY` for unit 1. -/
def otherUnit : List UInt8 :=
  leBytes 4 0x43425355 ++ leBytes 4 9 ++ leBytes 4 0 ++ [0, 1, 6] ++ List.replicate 16 0

theorem other_unit_answered_otherUnit :
    ¬ ForNoUnit (decodeWrapper otherUnit) { mscInit () fun _ => 0 with out := [] }
      (mscStep idleFlash oneChip (mscInit () fun _ => 0) (.packet otherUnit)).1 :=
  other_unit_answered idleFlash oneChip () (fun _ => 0) [] otherUnit ⟨decodeWrapper otherUnit, []⟩
    rfl (by decide)

/-- An eject for unit 1, which ejects the medium of unit 0. -/
def ejectOther : List UInt8 :=
  leBytes 4 0x43425355 ++ leBytes 4 9 ++ leBytes 4 0 ++ [0, 1, 6] ++
    [0x1b, 0, 0, 0, 2] ++ List.replicate 11 0

theorem ejectOther_ejects :
    (mscStep idleFlash oneChip (final (mscStep idleFlash oneChip) (mscInit () fun _ => 0)
      [.mount 5 10 1]) (.packet ejectOther)).1.lun.isOpen = false ∧
    ¬ ForNoUnit (decodeWrapper ejectOther)
      { final (mscStep idleFlash oneChip) (mscInit () fun _ => 0) [.mount 5 10 1] with out := [] }
      (mscStep idleFlash oneChip (final (mscStep idleFlash oneChip) (mscInit () fun _ => 0)
        [.mount 5 10 1]) (.packet ejectOther)).1 := by
  have hclosed : (mscStep idleFlash oneChip (final (mscStep idleFlash oneChip)
      (mscInit () fun _ => 0) [.mount 5 10 1]) (.packet ejectOther)).1.lun.isOpen = false := by
    decide
  refine ⟨hclosed, fun h => ?_⟩
  have hopen := congrArg FsgLun.isOpen h.unit
  rw [hclosed] at hopen
  exact absurd hopen (by decide)

end Novo7

import Novo7.SenseData

/-!
# What `check_command` reads

The last check of a command goes over the bytes of its block and lets only those be set that the
mask names. How far it goes is the length the host sent, which is not held against the 16 bytes
there are. `maskLoop` is that loop with the bytes it reads and the shifts it evaluates;
`checkCommand_inside_iff` says for which wrappers they stay inside, and that the verdict then does
not depend on what follows the wrapper.
-/

namespace Novo7

variable {ν : Type}

/-! ## The loop -/

/-- The indices the loop reads, the distances it shifts by, and whether it found a byte that must
not be set. -/
structure MaskTrace where
  reads : List Nat
  shifts : List Nat
  failed : Bool
  deriving Repr, DecidableEq

/-- A byte that must not be set. -/
def maskFails (cb : Nat → UInt8) (mask i : Nat) : Bool :=
  cb i != 0 && !(decide (i < 32) && mask.testBit i)

/-- `for (i = 1; i < cmnd_size; ++i)`, with `n` rounds to go: the shift is only evaluated for a
byte that is set. -/
def maskLoop (cb : Nat → UInt8) (mask : Nat) : Nat → Nat → MaskTrace
  | 0, _ => ⟨[], [], false⟩
  | n + 1, i =>
    if cb i = 0 then
      let r := maskLoop cb mask n (i + 1)
      ⟨i :: r.reads, r.shifts, r.failed⟩
    else if maskFails cb mask i then ⟨[i], [i], true⟩
    else
      let r := maskLoop cb mask n (i + 1)
      ⟨i :: r.reads, i :: r.shifts, r.failed⟩

theorem maskFails_set {cb : Nat → UInt8} {mask i : Nat} (h : maskFails cb mask i = true) :
    ¬ cb i = 0 := by
  intro hzero
  simp [maskFails, hzero] at h

theorem maskLoop_failed (cb : Nat → UInt8) (mask : Nat) : ∀ n i,
    (maskLoop cb mask n i).failed = true ↔ ∃ j, i ≤ j ∧ j < i + n ∧ maskFails cb mask j = true
  | 0, i => ⟨(fun h => nomatch h), fun ⟨j, h1, h2, _⟩ => by omega⟩
  | n + 1, i => by
      have ih := maskLoop_failed cb mask n (i + 1)
      have hnext (hi : ¬ maskFails cb mask i = true) :
          (∃ j, i + 1 ≤ j ∧ j < i + 1 + n ∧ maskFails cb mask j = true) ↔
            ∃ j, i ≤ j ∧ j < i + (n + 1) ∧ maskFails cb mask j = true := by
        constructor
        · rintro ⟨j, h1, h2, hj⟩
          exact ⟨j, by omega, by omega, hj⟩
        · rintro ⟨j, h1, h2, hj⟩
          obtain rfl | hlt := Nat.eq_or_lt_of_le h1
          · exact absurd hj hi
          · exact ⟨j, hlt, by omega, hj⟩
      unfold maskLoop
      by_cases hzero : cb i = 0
      · rw [if_pos hzero]
        exact ih.trans (hnext fun h => maskFails_set h hzero)
      · rw [if_neg hzero]
        by_cases hi : maskFails cb mask i = true
        · rw [if_pos hi]
          exact ⟨fun _ => ⟨i, Nat.le_refl _, by omega, hi⟩, fun _ => rfl⟩
        · rw [if_neg hi]
          exact ih.trans (hnext hi)

/-- A loop that ends before index `m`, for its length or for a byte it finds, depends on the bytes
before `m` only and reads no other. -/
theorem maskLoop_inside {cb cb' : Nat → UInt8} {m : Nat} (mask : Nat)
    (hcb : ∀ i < m, cb i = cb' i) : ∀ n i,
    (i + n ≤ m ∨ ∃ j, i ≤ j ∧ j < m ∧ maskFails cb mask j = true) →
    maskLoop cb mask n i = maskLoop cb' mask n i ∧
      (∀ k ∈ (maskLoop cb mask n i).reads, k < m) ∧
      ∀ k ∈ (maskLoop cb mask n i).shifts, k < m
  | 0, i, _ => ⟨rfl, (fun _ h => nomatch h), fun _ h => nomatch h⟩
  | n + 1, i, hend => by
      have hi : i < m := by
        rcases hend with h | ⟨j, h1, h2, -⟩
        · omega
        · omega
      have hfails : maskFails cb mask i = maskFails cb' mask i := by
        rw [maskFails, maskFails, hcb i hi]
      have hrest (hpass : ¬ maskFails cb mask i = true) :
          i + 1 + n ≤ m ∨ ∃ j, i + 1 ≤ j ∧ j < m ∧ maskFails cb mask j = true := by
        rcases hend with h | ⟨j, h1, h2, hj⟩
        · exact .inl (by omega)
        · obtain rfl | hlt := Nat.eq_or_lt_of_le h1
          · exact absurd hj hpass
          · exact .inr ⟨j, hlt, h2, hj⟩
      unfold maskLoop
      rw [← hcb i hi, ← hfails]
      by_cases hzero : cb i = 0
      · obtain ⟨heq, hreads, hshifts⟩ := maskLoop_inside mask hcb n (i + 1)
          (hrest fun h => maskFails_set h hzero)
        rw [if_pos hzero, if_pos hzero, ← heq]
        exact ⟨rfl, List.forall_mem_cons.mpr ⟨hi, hreads⟩, hshifts⟩
      · rw [if_neg hzero, if_neg hzero]
        by_cases hpass : maskFails cb mask i = true
        · rw [if_pos hpass, if_pos hpass]
          refine ⟨rfl, ?_, ?_⟩
          · exact fun k hk => List.mem_singleton.mp hk ▸ hi
          · exact fun k hk => List.mem_singleton.mp hk ▸ hi
        · obtain ⟨heq, hreads, hshifts⟩ := maskLoop_inside mask hcb n (i + 1) (hrest hpass)
          rw [if_neg hpass, if_neg hpass, ← heq]
          exact ⟨rfl, List.forall_mem_cons.mpr ⟨hi, hreads⟩, List.forall_mem_cons.mpr ⟨hi, hshifts⟩⟩

/-- A loop that finds nothing reads every index of its range. -/
theorem maskLoop_reaches {cb : Nat → UInt8} (mask : Nat) : ∀ n i m,
    (∀ j, i ≤ j → j < m → ¬ maskFails cb mask j = true) → i ≤ m → m < i + n →
    m ∈ (maskLoop cb mask n i).reads
  | 0, i, m, _, h1, h2 => by omega
  | n + 1, i, m, hpass, h1, h2 => by
      unfold maskLoop
      obtain rfl | hlt := Nat.eq_or_lt_of_le h1
      · split_ifs <;> exact List.mem_cons_self
      · have hnext := maskLoop_reaches mask n (i + 1) m (fun j hj => hpass j (by omega)) hlt
          (by omega)
        rw [if_neg (hpass i (Nat.le_refl _) hlt)]
        split_ifs <;> exact List.mem_cons_of_mem _ hnext

/-! ## The check -/

/-- What `check_command` reads of the command block: its first byte for the choice of the unit,
byte 1 to clear the unit in it, and the loop. -/
def checkTrace (env : MscEnv ν) (s : MscState ν) (cmndSize : Nat) (dataDir : DataDirection)
    (mask : Nat) : MaskTrace :=
  match checkSizes s cmndSize dataDir with
  | (_, none) => ⟨[], [], false⟩
  | (s, some cmndSize) =>
    let (s, ok) := checkLun s
    if !ok then ⟨[0], [], false⟩
    else if s.curlun && s.lun.unitAttentionData != ssNoSense && s.cb 0 != 0x12 && s.cb 0 != 0x03 then
      ⟨[0], [], false⟩
    else
      let r := maskLoop (s.maskLun.cbRead env) mask (cmndSize - 1) 1
      ⟨0 :: 1 :: r.reads, r.shifts, r.failed⟩

/-- The loop and the check find the same. -/
theorem checkMask_eq (env : MscEnv ν) (s : MscState ν) (n mask : Nat) (needsMedium : Bool) :
    checkMask env s n mask needsMedium =
      if (maskLoop (s.maskLun.cbRead env) mask (n - 1) 1).failed = true then
        (if s.curlun then s.maskLun.sense ssInvalidFieldInCdb else s.maskLun, -errEinval)
      else if s.curlun && !s.lun.isOpen && needsMedium then
        (s.maskLun.sense ssMediumNotPresent, -errEinval)
      else (s.maskLun, 0) := by
  have hany : ((List.range n).any fun i => decide (1 ≤ i) && (s.maskLun.cbRead env i != 0) &&
      !(decide (i < 32) && mask.testBit i)) = true ↔
      (maskLoop (s.maskLun.cbRead env) mask (n - 1) 1).failed = true := by
    rw [maskLoop_failed, List.any_eq_true]
    constructor
    · rintro ⟨i, hi, hfails⟩
      rw [Bool.and_assoc, Bool.and_eq_true, decide_eq_true_iff] at hfails
      have := List.mem_range.mp hi
      exact ⟨i, hfails.1, by omega, hfails.2⟩
    · rintro ⟨i, h1, h2, hfails⟩
      refine ⟨i, List.mem_range.mpr (by omega), ?_⟩
      rw [Bool.and_assoc, Bool.and_eq_true, decide_eq_true_iff]
      exact ⟨h1, hfails⟩
  unfold checkMask
  dsimp only
  by_cases hfails : (maskLoop (s.maskLun.cbRead env) mask (n - 1) 1).failed = true
  · rw [if_pos hfails]
    exact if_pos (hany.mpr hfails)
  · rw [if_neg hfails]
    exact if_neg fun h => hfails (hany.mp h)

/-- The check of a command reads no byte behind the wrapper, shifts by less than 32, and its
verdict does not depend on what is there. -/
def StaysInWrapper (s : MscState ν) (cmndSize : Nat) (dataDir : DataDirection) (mask : Nat)
    (needsMedium : Bool) : Prop :=
  (∀ env : MscEnv ν, (∀ i ∈ (checkTrace env s cmndSize dataDir mask).reads, i < 16) ∧
    ∀ i ∈ (checkTrace env s cmndSize dataDir mask).shifts, i < 32) ∧
  ∀ env env' : MscEnv ν, checkCommand env s cmndSize dataDir mask needsMedium =
    checkCommand env' s cmndSize dataDir mask needsMedium

/-- The host announces data in the direction in which the command has none. -/
def WrongWay (s : MscState ν) (dataDir : DataDirection) : Prop :=
  0 < s.dataSizeFromCmnd ∧ 0 < s.curCmd.dCBWDataTransferLength ∧
    dataDir ≠ if s.wantsIn then .toHost else .fromHost

/-- The command is not for a unit that would take it. -/
def UnitRefuses (s : MscState ν) : Prop :=
  s.cb 0 ≠ 0x12 ∧ s.cb 0 ≠ 0x03 ∧
    (¬ s.commonLun < s.nluns ∨ s.lun.unitAttentionData ≠ ssNoSense)

/-- The command block is no longer than the wrapper has room for, or the command is refused before
the end of it: for its direction, by the unit, or for a byte that is set. -/
def Contained (s : MscState ν) (dataDir : DataDirection) (mask : Nat) : Prop :=
  s.curCmd.bCBWCBLength.toNat ≤ 16 ∨ WrongWay s dataDir ∨ UnitRefuses s ∨
    ∃ i, 1 ≤ i ∧ i < 16 ∧ maskFails s.maskLun.cb mask i = true

section Check

variable {env : MscEnv ν} {s : MscState ν} {cmndSize mask : Nat} {dataDir : DataDirection}
  {needsMedium : Bool}

/-- The sizes are refused for the direction, or because the block is too short; the length checked
is the one of the host. -/
theorem checkSizes_length (s : MscState ν) (cmndSize : Nat) (dataDir : DataDirection) :
    ((checkSizes s cmndSize dataDir).2 = none ∧
        (WrongWay s dataDir ∨ s.curCmd.bCBWCBLength.toNat < cmndSize)) ∨
      ((checkSizes s cmndSize dataDir).2 = some s.curCmd.bCBWCBLength.toNat ∧
        ¬ WrongWay s dataDir) := by
  obtain ⟨L, hL⟩ : ∃ L, s.curCmd.dCBWDataTransferLength = L := ⟨_, rfl⟩
  obtain ⟨d, hd⟩ : ∃ d, s.dataSizeFromCmnd = d := ⟨_, rfl⟩
  obtain ⟨m, hm⟩ : ∃ m, (if L < d then L else d) = m := ⟨_, rfl⟩
  have hway : WrongWay s dataDir ↔
      ((if L = 0 then DataDirection.none else if s.wantsIn = true then .toHost else .fromHost) ≠
        (if d = 0 then DataDirection.none else dataDir) ∧ m > 0) := by
    unfold WrongWay
    rw [hL, hd, ← hm]
    by_cases h0 : L = 0
    · rw [if_pos h0]
      constructor
      · rintro ⟨-, hpos, -⟩
        omega
      · rintro ⟨-, hpos⟩
        split at hpos <;> omega
    · rw [if_neg h0]
      by_cases hd0 : d = 0
      · constructor
        · rintro ⟨hpos, -⟩
          omega
        · rintro ⟨-, hpos⟩
          split at hpos <;> omega
      · rw [if_neg hd0]
        constructor
        · rintro ⟨-, -, hne⟩
          exact ⟨fun h => hne h.symm, by split <;> omega⟩
        · rintro ⟨hne, -⟩
          exact ⟨by omega, by omega, fun h => hne h.symm⟩
  have hcut : (if L < d then { s with dataSizeFromCmnd := L, phaseError := true } else s :
      MscState ν).dataSizeFromCmnd = m := by
    rw [← hm]
    by_cases hclip : L < d
    · rw [if_pos hclip, if_pos hclip]
    · rw [if_neg hclip, if_neg hclip, hd]
  have hcmd : (if L < d then { s with dataSizeFromCmnd := L, phaseError := true } else s :
      MscState ν).curCmd = s.curCmd := by
    split <;> rfl
  unfold checkSizes
  rw [hL, hd]
  dsimp only
  generalize (if L < d then { s with dataSizeFromCmnd := L, phaseError := true } else s :
    MscState ν) = t at hcut hcmd ⊢
  rw [hcut, hcmd]
  by_cases hwrong : WrongWay s dataDir
  · rw [if_pos (hway.mp hwrong)]
    exact .inl ⟨rfl, .inl hwrong⟩
  · rw [if_neg fun h => hwrong (hway.mpr h)]
    by_cases hne : cmndSize ≠ s.curCmd.bCBWCBLength.toNat
    · rw [if_pos hne]
      by_cases hle : cmndSize ≤ s.curCmd.bCBWCBLength.toNat
      · rw [if_pos hle]
        exact .inr ⟨rfl, hwrong⟩
      · rw [if_neg hle]
        exact .inl ⟨rfl, .inr (Nat.lt_of_not_le hle)⟩
    · rw [if_neg hne, not_not.mp hne]
      exact .inr ⟨rfl, hwrong⟩

/-- The sizes and the choice of the unit leave the command block alone. -/
theorem checkSizes_same (s : MscState ν) (cmndSize : Nat) (dataDir : DataDirection) :
    (checkSizes s cmndSize dataDir).1.curCmd = s.curCmd ∧
      (checkSizes s cmndSize dataDir).1.lun = s.lun ∧
      (checkSizes s cmndSize dataDir).1.commonLun = s.commonLun ∧
      (checkSizes s cmndSize dataDir).1.nluns = s.nluns := by
  have hunits := (checkSizes_orderly s cmndSize dataDir).units
  exact ⟨(checkSizes_answers s cmndSize dataDir).1, checkSizes_lun s cmndSize dataDir, hunits.2,
    hunits.1⟩

theorem checkLun_same (t : MscState ν) : (checkLun t).1.curCmd = t.curCmd ∧
    (((checkLun t).2 = false ∨ ((checkLun t).1.curlun &&
        (checkLun t).1.lun.unitAttentionData != ssNoSense && (checkLun t).1.cb 0 != 0x12 &&
        (checkLun t).1.cb 0 != 0x03) = true) ↔ UnitRefuses t) := by
  unfold UnitRefuses
  by_cases hunit : t.commonLun < t.nluns
  · have heq := checkLun_eq hunit
    obtain ⟨u, hu⟩ : ∃ u, (checkLun t).1 = u := ⟨_, rfl⟩
    have hfields : u.curCmd = t.curCmd ∧ u.curlun = true ∧
        u.lun.unitAttentionData = t.lun.unitAttentionData := by
      rw [← hu, heq]
      dsimp only
      split <;> exact ⟨rfl, rfl, rfl⟩
    have hok : (checkLun t).2 = true := by rw [heq]
    obtain ⟨hcmd, hcur, hattention⟩ := hfields
    have hcb : u.cb 0 = t.cb 0 := by rw [MscState.cb, hcmd, MscState.cb]
    rw [hu, hok, hcur, hattention, hcb]
    refine ⟨hcmd, ?_⟩
    simp only [Bool.true_and, Bool.and_eq_true, bne_iff_ne, Bool.true_eq_false, false_or, hunit,
      not_true]
    constructor
    · rintro ⟨⟨h1, h2⟩, h3⟩
      exact ⟨h2, h3, h1⟩
    · rintro ⟨h2, h3, h1⟩
      exact ⟨⟨h1, h2⟩, h3⟩
  · unfold checkLun
    rw [if_neg hunit]
    refine ⟨rfl, ?_⟩
    simp only [Bool.false_and, Bool.false_eq_true, or_false, Bool.or_eq_false_iff,
      decide_eq_false_iff_not, hunit, not_false_eq_true, true_or, and_true, ne_eq]

theorem maskLun_congr {t : MscState ν} (h : t.curCmd = s.curCmd) :
    t.maskLun.cb = s.maskLun.cb := by
  funext i
  by_cases hi : i = 1
  · rw [hi, maskLun_cb_one, maskLun_cb_one, MscState.cb, h, MscState.cb]
  · rw [maskLun_cb hi, maskLun_cb hi, MscState.cb, h, MscState.cb]

theorem cbRead_inside (env : MscEnv ν) {t : MscState ν} (h : t.curCmd = s.curCmd) {i : Nat}
    (hi : i < 16) : t.maskLun.cbRead env i = s.maskLun.cb i := by
  rw [MscState.cbRead, if_pos hi, maskLun_congr h]

theorem maskFails_congr {cb cb' : Nat → UInt8} {i : Nat} (h : cb i = cb' i) :
    maskFails cb mask i = maskFails cb' mask i := by
  rw [maskFails, maskFails, h]

/-- A command that gets as far as the mask check. -/
theorem checkCommand_masked (env : MscEnv ν) {t u : MscState ν} {n : Nat}
    (hsizes : checkSizes s cmndSize dataDir = (t, some n)) (hlun : checkLun t = (u, true))
    (hcalm : ¬ (u.curlun && u.lun.unitAttentionData != ssNoSense && u.cb 0 != 0x12 &&
      u.cb 0 != 0x03) = true) :
    checkTrace env s cmndSize dataDir mask =
        ⟨0 :: 1 :: (maskLoop (u.maskLun.cbRead env) mask (n - 1) 1).reads,
          (maskLoop (u.maskLun.cbRead env) mask (n - 1) 1).shifts,
          (maskLoop (u.maskLun.cbRead env) mask (n - 1) 1).failed⟩ ∧
      checkCommand env s cmndSize dataDir mask needsMedium =
        checkMask env u n mask needsMedium := by
  unfold checkTrace checkCommand
  rw [hsizes]
  dsimp only
  rw [hlun]
  dsimp only
  rw [if_neg (by decide), if_neg hcalm, if_neg (by decide), if_neg hcalm]
  exact ⟨rfl, rfl⟩

/-- A command that does not. -/
theorem checkCommand_refused (env env' : MscEnv ν)
    (h : (checkSizes s cmndSize dataDir).2 = none ∨ UnitRefuses (checkSizes s cmndSize dataDir).1) :
    (∀ i ∈ (checkTrace env s cmndSize dataDir mask).reads, i < 16) ∧
      (checkTrace env s cmndSize dataDir mask).shifts = [] ∧
      checkCommand env s cmndSize dataDir mask needsMedium =
        checkCommand env' s cmndSize dataDir mask needsMedium := by
  unfold checkTrace checkCommand
  generalize checkSizes s cmndSize dataDir = r at h ⊢
  obtain ⟨t, size⟩ := r
  cases size with
  | none => exact ⟨(fun _ h => nomatch h), rfl, rfl⟩
  | some n =>
      obtain ⟨-, hrefused⟩ := checkLun_same t
      have hzero : ∀ i ∈ [0], i < 16 := fun i hi => List.mem_singleton.mp hi ▸ by decide
      rcases hrefused.mpr (h.resolve_left fun h => nomatch h) with hok | hattention
      · dsimp only
        rw [hok, if_pos (by decide), if_pos (by decide), if_pos (by decide)]
        exact ⟨hzero, rfl, rfl⟩
      · dsimp only
        by_cases hok : (!(checkLun t).2) = true
        · rw [if_pos hok, if_pos hok, if_pos hok]
          exact ⟨hzero, rfl, rfl⟩
        · rw [if_neg hok, if_neg hok, if_neg hok, if_pos hattention, if_pos hattention,
            if_pos hattention]
          exact ⟨hzero, rfl, rfl⟩

/-- For a command whose own length fits the wrapper, or is the one the host sent. -/
theorem staysInWrapper_iff (hsize : cmndSize ≤ 16 ∨ cmndSize = s.curCmd.bCBWCBLength.toNat) :
    StaysInWrapper s cmndSize dataDir mask needsMedium ↔ Contained s dataDir mask := by
  obtain ⟨hcmd, hlun, hcommon, hnluns⟩ := checkSizes_same s cmndSize dataDir
  have hunit : UnitRefuses (checkSizes s cmndSize dataDir).1 ↔ UnitRefuses s := by
    unfold UnitRefuses
    rw [MscState.cb, hcmd, hlun, hcommon, hnluns, MscState.cb]
  have hstay (h : (checkSizes s cmndSize dataDir).2 = none ∨ UnitRefuses s) :
      StaysInWrapper s cmndSize dataDir mask needsMedium := by
    refine ⟨fun env => ?_, fun env env' => ?_⟩
    · obtain ⟨hreads, hshifts, -⟩ := @checkCommand_refused ν s cmndSize mask dataDir needsMedium
        env env (h.imp_right hunit.mpr)
      rw [hshifts]
      exact ⟨hreads, fun _ h => absurd h List.not_mem_nil⟩
    · exact (checkCommand_refused env env' (h.imp_right hunit.mpr)).2.2
  rcases checkSizes_length s cmndSize dataDir with ⟨hnone, hwhy⟩ | ⟨hsome, hway⟩
  · refine iff_of_true (hstay (.inl hnone)) ?_
    rcases hwhy with hway | hshort
    · exact .inr (.inl hway)
    · exact .inl (by omega)
  by_cases hrefuses : UnitRefuses s
  · exact iff_of_true (hstay (.inr hrefuses)) (.inr (.inr (.inl hrefuses)))
  obtain ⟨t, ht⟩ : ∃ t, (checkSizes s cmndSize dataDir).1 = t := ⟨_, rfl⟩
  have hsizes : checkSizes s cmndSize dataDir = (t, some s.curCmd.bCBWCBLength.toNat) := by
    rw [← ht, ← hsome]
  obtain ⟨hcmd', hiff⟩ := checkLun_same t
  rw [ht] at hunit hcmd
  have hpass := fun h => hrefuses (hunit.mp (hiff.mp h))
  obtain ⟨u, hu⟩ : ∃ u, (checkLun t).1 = u := ⟨_, rfl⟩
  have hlun' : checkLun t = (u, true) := by
    rw [← hu]
    exact Prod.ext rfl (by simpa using fun h => hpass (.inl h))
  have hcalm := fun h => hpass (.inr h)
  rw [hu] at hcalm hcmd'
  have hblock : u.curCmd = s.curCmd := hcmd'.trans hcmd
  have hmasked (env : MscEnv ν) := @checkCommand_masked ν s cmndSize mask dataDir needsMedium env
    t u _ hsizes hlun' hcalm
  constructor
  · rintro ⟨hstays, -⟩
    by_contra hout
    unfold Contained at hout
    push Not at hout
    obtain ⟨hlong, -, -, hclean⟩ := hout
    have hreads := (hstays ⟨fun n _ _ b => (n, 0, b), fun n _ _ _ => (n, 0), fun _ _ => 0⟩).1
    rw [(hmasked _).1] at hreads
    have hreach := @maskLoop_reaches (u.maskLun.cbRead
      ⟨fun n _ _ b => (n, 0, b), fun n _ _ _ => (n, 0), fun _ _ => 0⟩) mask
      (s.curCmd.bCBWCBLength.toNat - 1) 1 16 (fun j h1 hlt => by
        rw [maskFails_congr (cbRead_inside _ hblock hlt)]
        exact hclean j h1 hlt) (by decide) (by omega)
    exact absurd (hreads 16 (List.mem_cons_of_mem _ (List.mem_cons_of_mem _ hreach))) (by decide)
  · intro hin
    have hend (env : MscEnv ν) : 1 + (s.curCmd.bCBWCBLength.toNat - 1) ≤ 16 ∨
        ∃ j, 1 ≤ j ∧ j < 16 ∧ maskFails (u.maskLun.cbRead env) mask j = true := by
      rcases hin with hshort | hwrong | hunits | ⟨j, h1, hlt, hj⟩
      · exact .inl (by omega)
      · exact absurd hwrong hway
      · exact absurd hunits hrefuses
      · exact .inr ⟨j, h1, hlt, by rwa [maskFails_congr (cbRead_inside env hblock hlt)]⟩
    have hsame (env env' : MscEnv ν) := maskLoop_inside mask
      (fun i hi => (cbRead_inside env hblock hi).trans (cbRead_inside env' hblock hi).symm) _ _
      (hend env)
    refine ⟨fun env => ?_, fun env env' => ?_⟩
    · obtain ⟨-, hreads, hshifts⟩ := hsame env env
      rw [(hmasked env).1]
      refine ⟨?_, fun i hi => Nat.lt_trans (hshifts i hi) (by decide)⟩
      exact List.forall_mem_cons.mpr ⟨by decide, List.forall_mem_cons.mpr ⟨by decide, hreads⟩⟩
    · rw [(hmasked env).2, (hmasked env').2, checkMask_eq, checkMask_eq, (hsame env env').1]

/-- Every case of the switch has one of these lengths. -/
theorem scsiCase_cmndSize (env : MscEnv ν) (s : MscState ν) :
    (scsiCase env s).cmndSize ≤ 16 ∨ (scsiCase env s).cmndSize = s.curCmd.bCBWCBLength.toNat := by
  unfold scsiCase
  split
  all_goals first
    | exact .inl (by dsimp only; decide)
    | exact .inr rfl

end Check

/-- The state in which `do_scsi_command` calls `check_command`. -/
def MscState.checked (env : MscEnv ν) (s : MscState ν) : MscState ν :=
  { s with phaseError := false, dataSizeFromCmnd := (scsiCase env s).dataSize }

/-- The check of whatever command the wrapper holds stays inside the wrapper exactly if the command
block is no longer than 16 bytes or the command is refused before the end of it. -/
theorem checkCommand_inside_iff (env : MscEnv ν) (s : MscState ν) :
    StaysInWrapper (s.checked env) (scsiCase env s).cmndSize (scsiCase env s).dataDir
        (scsiCase env s).mask (scsiCase env s).needsMedium ↔
      Contained (s.checked env) (scsiCase env s).dataDir (scsiCase env s).mask :=
  staysInWrapper_iff (scsiCase_cmndSize env s)

/-- `TEST UNIT READY` with a command length of 17. -/
def longBlock : MscState Unit :=
  ((mscInit () fun _ => 0).withMount 0 16 true).next ⟨0x43425355, 0, 0, 0, 0, 17, fun _ => 0⟩

/-- The byte behind the wrapper decides whether it is a valid command. -/
theorem longBlock_leaves :
    16 ∈ (checkTrace noFlash longBlock 6 .none 0).reads ∧
      (checkCommand ⟨noFlash.nandLogicRead, noFlash.nandLogicWrite, fun _ _ => 0⟩
        longBlock 6 .none 0 true).2 = 0 ∧
      (checkCommand ⟨noFlash.nandLogicRead, noFlash.nandLogicWrite, fun _ _ => 1⟩
        longBlock 6 .none 0 true).2 = -errEinval ∧
      ¬ StaysInWrapper (longBlock.checked noFlash) (scsiCase noFlash longBlock).cmndSize
        (scsiCase noFlash longBlock).dataDir (scsiCase noFlash longBlock).mask
        (scsiCase noFlash longBlock).needsMedium := by
  refine ⟨by decide, by decide, by decide, fun h => ?_⟩
  have hreads := (h.1 noFlash).1 16 (by decide)
  exact absurd hreads (by decide)

end Novo7

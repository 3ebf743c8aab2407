import Novo7.SenseData

/-!
# Sizes of the replies

A command block wrapper announces how many bytes the host will take or send. The handler sends
that many in any case, and the status wrapper says how many of them meant nothing: the residue
starts as the whole length (`Checked`) and is reduced once, by `do_read` and `do_write` themselves
or by the size of the reply (`Done`). `masstorage_replies` says so of every packet at which a
command is carried out.
-/

namespace Novo7

open Machine Buffer Bytes

variable {ν : Type}

/-! ## What a command moves -/

/-- An access to the flash disk. -/
def MscEvent.isAccess : MscEvent → Bool
  | .logicRead _ _ | .logicWrite _ _ => true
  | _ => false

def MscEvent.sectors : MscEvent → Nat
  | .logicRead _ count | .logicWrite _ count => count
  | _ => 0

/-- The sectors asked of the flash disk. -/
def sectorsOf (es : List MscEvent) : Nat := (es.map MscEvent.sectors).sum

/-- The bytes that a command which accesses the flash by `es` produces for the host or consumes:
whole sectors, or a reply that is cut where the command block says. -/
def dataBytes (s : MscState ν) (es : List MscEvent) : Nat :=
  match (s.cb 0).toNat with
  | 0x08 | 0x28 | 0xa8 | 0x0a | 0x2a | 0xaa => 512 * sectorsOf es
  | 0x12 => min 36 (s.cb 4).toNat
  | 0x1a => min 16 (s.cb 4).toNat
  | 0x5a => min 20 (s.be16 7)
  | 0x25 => 8
  | 0x23 => min 12 (s.be16 7)
  | 0x03 => min 18 (s.cb 4).toNat
  | _ => 0

/-! ## The check of the sizes -/

/-- The state after the checks of a command with that size and direction: the residue is the
length of the transfer, and without a phase error the command may have all it asks for. -/
structure Checked (s : MscState ν) (size : Nat) (dir : DataDirection) (t : MscState ν) : Prop where
  out : t.out = s.out
  length : t.curCmd.dCBWDataTransferLength = s.curCmd.dCBWDataTransferLength
  flags : t.curCmd.bmCBWFlags = s.curCmd.bmCBWFlags
  tag : t.curCmd.dCBWTag = s.curCmd.dCBWTag
  residue : t.residue = s.curCmd.dCBWDataTransferLength
  dataSize : t.dataSizeFromCmnd ≤ s.curCmd.dCBWDataTransferLength
  allowed : t.phaseError = false → t.dataSizeFromCmnd = size ∧
    (0 < size → dir = .toHost → s.curCmd.dCBWDataTransferLength ≠ 0 ∧ s.wantsIn = true)

/-- The fields of `Checked` are left alone. -/
theorem Checked.of_eq {s t u : MscState ν} {size : Nat} {dir : DataDirection}
    (h : Checked s size dir t) (hout : u.out = t.out)
    (hlength : u.curCmd.dCBWDataTransferLength = t.curCmd.dCBWDataTransferLength)
    (hflags : u.curCmd.bmCBWFlags = t.curCmd.bmCBWFlags)
    (htag : u.curCmd.dCBWTag = t.curCmd.dCBWTag) (hresidue : u.residue = t.residue)
    (hdata : u.dataSizeFromCmnd = t.dataSizeFromCmnd) (hphase : u.phaseError = t.phaseError) :
    Checked s size dir u :=
  ⟨hout.trans h.out, hlength.trans h.length, hflags.trans h.flags, htag.trans h.tag,
    hresidue.trans h.residue, by rw [hdata]; exact h.dataSize, by
      rw [hphase, hdata]
      exact h.allowed⟩

section Check

variable {env : MscEnv ν} {s : MscState ν}

theorem checkSizes_checked (s : MscState ν) (cmndSize : Nat) (dir : DataDirection) :
    Checked s s.dataSizeFromCmnd dir (checkSizes s cmndSize dir).1 := by
  unfold checkSizes
  dsimp only
  by_cases hclip : s.curCmd.dCBWDataTransferLength < s.dataSizeFromCmnd
  · rw [if_pos hclip]
    split_ifs <;> exact ⟨rfl, rfl, rfl, rfl, rfl, Nat.le_refl _, fun h => nomatch h⟩
  · rw [if_neg hclip]
    by_cases hdir : ((if s.curCmd.dCBWDataTransferLength = 0 then DataDirection.none
        else if s.wantsIn = true then .toHost else .fromHost) ≠
        if s.dataSizeFromCmnd = 0 then DataDirection.none else dir) ∧ s.dataSizeFromCmnd > 0
    · rw [if_pos hdir]
      exact ⟨rfl, rfl, rfl, rfl, rfl, Nat.le_of_not_lt hclip, fun h => nomatch h⟩
    · rw [if_neg hdir]
      have hallowed (hpos : 0 < s.dataSizeFromCmnd) (hto : dir = .toHost) :
          s.curCmd.dCBWDataTransferLength ≠ 0 ∧ s.wantsIn = true := by
        have hsame := not_not.mp fun hne => hdir ⟨hne, hpos⟩
        rw [if_neg (show ¬ s.dataSizeFromCmnd = 0 by omega), hto] at hsame
        by_cases h0 : s.curCmd.dCBWDataTransferLength = 0
        · rw [if_pos h0] at hsame
          cases hsame
        · rw [if_neg h0] at hsame
          refine ⟨h0, ?_⟩
          by_contra hin
          rw [if_neg hin] at hsame
          cases hsame
      split_ifs <;> exact ⟨rfl, rfl, rfl, rfl, rfl, Nat.le_of_not_lt hclip,
        fun _ => ⟨rfl, hallowed⟩⟩

/-- The choice of the unit does not touch the sizes. -/
theorem Checked.checkLun {size : Nat} {dir : DataDirection} {t : MscState ν}
    (h : Checked s size dir t) : Checked s size dir (checkLun t).1 := by
  unfold Novo7.checkLun
  dsimp only
  split_ifs <;> exact h.of_eq rfl rfl rfl rfl rfl rfl rfl

theorem Checked.checkMask {size : Nat} {dir : DataDirection} {t : MscState ν}
    (h : Checked s size dir t) (env : MscEnv ν) (n mask : Nat) (needsMedium : Bool) :
    Checked s size dir (checkMask env t n mask needsMedium).1 := by
  unfold Novo7.checkMask
  dsimp only
  split_ifs <;> exact h.of_eq rfl rfl rfl rfl rfl rfl rfl

/-- Byte 1 of the command block is the only one the checks change. -/
theorem checkMask_cb (env : MscEnv ν) (t : MscState ν) (n mask : Nat) (needsMedium : Bool)
    {i : Nat} (hi : i ≠ 1) : (checkMask env t n mask needsMedium).1.cb i = t.cb i := by
  have hcb : Function.update t.curCmd.cbwcb 1 (t.cb 1 &&& 0x1f) i = t.cb i :=
    Function.update_of_ne hi _ _
  unfold checkMask
  dsimp only
  split_ifs <;> exact hcb

variable (env) in
theorem checkCommand_checked (hunit : s.commonLun < s.nluns) (cmndSize : Nat)
    (dir : DataDirection) (mask : Nat) (needsMedium : Bool) :
    Checked s s.dataSizeFromCmnd dir (checkCommand env s cmndSize dir mask needsMedium).1 ∧
      (checkCommand env s cmndSize dir mask needsMedium).2 ∈ [0, -errEinval] ∧
      ∀ i ≠ 1, (checkCommand env s cmndSize dir mask needsMedium).1.cb i = s.cb i := by
  have hsizes := checkSizes_checked s cmndSize dir
  have hunits := (checkSizes_orderly s cmndSize dir).units
  have hcmd := (checkSizes_answers s cmndSize dir).1
  unfold checkCommand
  generalize checkSizes s cmndSize dir = r at hsizes hunits hcmd ⊢
  obtain ⟨t, size⟩ := r
  have hcb (i : Nat) : t.cb i = s.cb i := by rw [MscState.cb, hcmd, MscState.cb]
  cases size with
  | none => exact ⟨hsizes, by simp, fun i _ => hcb i⟩
  | some n =>
      obtain ⟨hcmd', hcur, hok⟩ := checkLun_answers (s := t)
        (by rw [hunits.1, hunits.2]; exact hunit)
      have hlun := hsizes.checkLun
      have hcb' (i : Nat) : (checkLun t).1.cb i = s.cb i := by
        rw [MscState.cb, hcmd', ← hcb i, MscState.cb]
      dsimp only
      generalize checkLun t = u at hlun hok hcb' ⊢
      rw [hok, if_neg (by decide)]
      split_ifs
      · exact ⟨hlun.of_eq rfl rfl rfl rfl rfl rfl rfl, by simp, fun i _ => hcb' i⟩
      · refine ⟨hlun.checkMask env n mask needsMedium, ?_, fun i hi => ?_⟩
        · unfold checkMask
          dsimp only
          split_ifs <;> simp
        · rw [checkMask_cb env u.1 n mask needsMedium hi, hcb' i]

theorem Checked.start {size : Nat} {dir : DataDirection} {t : MscState ν}
    (h : Checked { s with phaseError := false, dataSizeFromCmnd := size } size dir t) :
    Checked s size dir t :=
  ⟨h.out, h.length, h.flags, h.tag, h.residue, h.dataSize, h.allowed⟩

end Check

/-! ## The commands -/

/-- A step that asks the flash for `es` and keeps what the reply depends on. -/
structure Did (s : MscState ν) (es : List MscEvent) (t : MscState ν) : Prop where
  out : t.out = s.out ++ es
  access : ∀ e ∈ es, e.isAccess = true
  length : t.curCmd.dCBWDataTransferLength = s.curCmd.dCBWDataTransferLength
  flags : t.curCmd.bmCBWFlags = s.curCmd.bmCBWFlags
  tag : t.curCmd.dCBWTag = s.curCmd.dCBWTag
  phase : t.phaseError = s.phaseError
  dataSize : t.dataSizeFromCmnd = s.dataSizeFromCmnd

theorem Did.quiet {s t : MscState ν} (hout : t.out = s.out) (hcmd : t.curCmd = s.curCmd)
    (hphase : t.phaseError = s.phaseError) (hdata : t.dataSizeFromCmnd = s.dataSizeFromCmnd) :
    Did s [] t :=
  ⟨by rw [hout, List.append_nil], (fun _ h => nomatch h), by rw [hcmd], by rw [hcmd], by rw [hcmd],
    hphase, hdata⟩

theorem Did.trans {s t u : MscState ν} {es fs : List MscEvent} (h₁ : Did s es t)
    (h₂ : Did t fs u) : Did s (es ++ fs) u := by
  refine ⟨by rw [h₂.out, h₁.out, List.append_assoc], fun e he => ?_, h₂.length.trans h₁.length,
    h₂.flags.trans h₁.flags, h₂.tag.trans h₁.tag, h₂.phase.trans h₁.phase,
    h₂.dataSize.trans h₁.dataSize⟩
  rcases List.mem_append.mp he with he | he
  · exact h₁.access e he
  · exact h₂.access e he

/-- A command that was let through is refused, or it has taken the bytes it moved off the residue,
or it replies with bytes that are cut where the command block says. -/
def Done (s : MscState ν) (bytes : List MscEvent → Nat) (r : MscState ν × Int) : Prop :=
  ∃ es, Did s es r.1 ∧
    (r.2 = -errEinval ∧ r.1.residue = s.residue ∧ Refused r.1 ∨
      r.2 = -errEio ∧ (∃ n, r.1.residue + n = s.residue ∧ (¬ Refused r.1 → n = bytes es)) ∨
      ∃ reply : Nat, r.2 = reply ∧ r.1.residue = s.residue ∧
        (¬ Refused r.1 → bytes es = min reply s.dataSizeFromCmnd))

section Actions

variable {env : MscEnv ν} {s : MscState ν}

theorem Done.congr {bytes bytes' : List MscEvent → Nat} {r : MscState ν × Int}
    (h : Done s bytes r) (heq : s.phaseError = false → ∀ es, bytes es = bytes' es) :
    Done s bytes' r := by
  obtain ⟨es, hdid, hdone⟩ := h
  have hbytes (hok : ¬ Refused r.1) : bytes es = bytes' es := by
    refine heq ?_ es
    rw [← hdid.phase]
    by_contra hphase
    exact hok (.inl (by simpa using hphase))
  refine ⟨es, hdid, ?_⟩
  rcases hdone with hrefused | ⟨heio, n, hres, hn⟩ | ⟨reply, hreply, hres, hn⟩
  · exact .inl hrefused
  · exact .inr (.inl ⟨heio, n, hres, fun hok => (hn hok).trans (hbytes hok)⟩)
  · exact .inr (.inr ⟨reply, hreply, hres, fun hok => (hbytes hok).symm.trans (hn hok)⟩)

/-- A command refused for the reason in the sense data. -/
theorem done_refused {code : Nat} (bytes : List MscEvent → Nat) (hcur : s.curlun = true)
    (hcode : code ≠ ssNoSense) : Done s bytes (s.sense code, -errEinval) :=
  ⟨[], .quiet rfl rfl rfl rfl, .inl ⟨rfl, rfl, refused_sense hcur hcode⟩⟩

/-- A reply that is put into the buffer. -/
theorem done_reply (reply : Nat) {t : MscState ν} (hdid : Did s [] t)
    (hres : t.residue = s.residue) :
    Done s (fun _ => min reply s.dataSizeFromCmnd) (t, (reply : Int)) :=
  ⟨[], hdid, .inr (.inr ⟨reply, rfl, hres, fun _ => rfl⟩)⟩

variable (env) in
theorem logicRead_did (first count : Nat) :
    Did s [.logicRead first count] (s.logicRead env first count).1 ∧
      (s.logicRead env first count).1.residue = s.residue ∧
      (s.logicRead env first count).1.curlun = s.curlun := by
  refine ⟨⟨rfl, fun e he => ?_, rfl, rfl, rfl, rfl, rfl⟩, rfl, rfl⟩
  rw [List.mem_singleton.mp he]
  rfl

variable (env) in
theorem logicWrite_did (first count : Nat) :
    Did s [.logicWrite first count] (s.logicWrite env first count).1 ∧
      (s.logicWrite env first count).1.residue = s.residue ∧
      (s.logicWrite env first count).1.curlun = s.curlun := by
  refine ⟨⟨rfl, fun e he => ?_, rfl, rfl, rfl, rfl, rfl⟩, rfl, rfl⟩
  rw [List.mem_singleton.mp he]
  rfl

/-- Whole sectors of what the command may have, as they are taken off the residue. -/
theorem residue_sectors {residue size : Nat} (hle : size ≤ residue) (hlt : residue < 2 ^ 32) :
    sub32 residue (u32 (size / 2 ^ 9 * 2 ^ 9)) + 512 * (size / 2 ^ 9) = residue := by
  have hdiv := Nat.div_mul_le_self size (2 ^ 9)
  rw [u32_of_lt (by omega), sub32_of_le (by omega) hlt]
  omega

/-- An access that takes its sectors off the residue. -/
theorem taken_sectors {es : List MscEvent} {t : MscState ν} (hle : s.dataSizeFromCmnd ≤ s.residue)
    (hlt : s.residue < 2 ^ 32) (hdid : Did s es t)
    (hsectors : sectorsOf es = s.dataSizeFromCmnd / 2 ^ 9) (hres : t.residue = s.residue) :
    Done s (fun es => 512 * sectorsOf es)
      ({ t with residue := sub32 t.residue (u32 (s.dataSizeFromCmnd / 2 ^ 9 * 2 ^ 9)) },
        -errEio) := by
  have hkeep : Did t []
      { t with residue := sub32 t.residue (u32 (s.dataSizeFromCmnd / 2 ^ 9 * 2 ^ 9)) } :=
    .quiet rfl rfl rfl rfl
  have hleft := residue_sectors hle hlt
  rw [← hres] at hleft
  refine ⟨_, hdid.trans hkeep, .inr (.inl ⟨rfl, _, hleft.trans hres, fun _ => ?_⟩)⟩
  dsimp only
  rw [List.append_nil, hsectors]

/-- A single access to the sectors the command may have. -/
theorem sectorsOf_access (first count : Nat) :
    sectorsOf [.logicRead first count] = count ∧ sectorsOf [.logicWrite first count] = count :=
  ⟨rfl, rfl⟩

variable (env) in
theorem doRead_done (hcur : s.curlun = true) (hle : s.dataSizeFromCmnd ≤ s.residue)
    (hlt : s.residue < 2 ^ 32) : Done s (fun es => 512 * sectorsOf es) (doRead env s) := by
  unfold doRead
  dsimp only
  by_cases hfield : s.cb 0 ≠ 0x08 ∧ s.cb 1 &&& ~~~0x18 ≠ 0
  · rw [if_pos hfield]
    exact done_refused _ hcur (by decide)
  · rw [if_neg hfield]
    by_cases hbeyond : beyondUnit s (cdbLba s 0x08) (s.dataSizeFromCmnd / 2 ^ 9) = true
    · rw [if_pos hbeyond]
      exact done_refused _ hcur (by decide)
    · rw [if_neg hbeyond]
      obtain ⟨hdid, hres, -⟩ := logicRead_did env (s := s)
        (u32 (s.lun.firstSector + cdbLba s 0x08)) (s.dataSizeFromCmnd / 2 ^ 9)
      generalize s.logicRead env _ _ = r at hdid hres ⊢
      obtain ⟨t, ht⟩ : ∃ t, (if r.2 ≠ 0 then
        r.1.senseInfo ssUnrecoveredReadError (cdbLba s 0x08) else r.1) = t := ⟨_, rfl⟩
      have hnext : Did r.1 [] t ∧ t.residue = s.residue := by
        rw [← ht, ← hres]
        split_ifs <;> exact ⟨.quiet rfl rfl rfl rfl, rfl⟩
      rw [ht]
      obtain ⟨hkeep, hres'⟩ := hnext
      have hdid' := hdid.trans hkeep
      rw [List.append_nil] at hdid'
      exact taken_sectors hle hlt hdid' (sectorsOf_access _ _).1 hres'

variable (env) in
theorem doWrite_done (hcur : s.curlun = true) (hle : s.dataSizeFromCmnd ≤ s.residue)
    (hlt : s.residue < 2 ^ 32) : Done s (fun es => 512 * sectorsOf es) (doWrite env s) := by
  unfold doWrite
  dsimp only
  by_cases hro : s.lun.ro = true
  · rw [if_pos hro]
    exact done_refused _ hcur (by decide)
  rw [if_neg hro]
  by_cases hfield : s.cb 0 ≠ 0x0a ∧ s.cb 1 &&& ~~~0x18 ≠ 0
  · rw [if_pos hfield]
    exact done_refused _ hcur (by decide)
  rw [if_neg hfield]
  by_cases hbeyond : beyondUnit s (cdbLba s 0x0a) (s.dataSizeFromCmnd / 2 ^ 9) = true
  · rw [if_pos hbeyond]
    exact done_refused _ hcur (by decide)
  rw [if_neg hbeyond]
  obtain ⟨hdid, hres, hcur'⟩ := logicWrite_did env (s := s)
    (u32 (s.lun.firstSector + cdbLba s 0x0a)) (s.dataSizeFromCmnd / 2 ^ 9)
  generalize s.logicWrite env _ _ = r at hdid hres hcur' ⊢
  by_cases hfail : r.2 ≠ 0
  · rw [if_pos hfail]
    refine ⟨_, @Did.trans _ _ _ _ _ [] hdid (.quiet rfl rfl rfl rfl), .inr (.inl ⟨rfl, 0, hres,
      fun hok => absurd (.inr ⟨hcur'.trans hcur, ?_⟩) hok⟩)⟩
    exact show ssWriteError ≠ ssNoSense by decide
  · rw [if_neg hfail]
    exact taken_sectors hle hlt hdid (sectorsOf_access _ _).2 hres

variable (env) in
/-- The reads of `do_verify` are not for the host. -/
theorem verifyLoop_did (fuel : Nat) : ∀ (s : MscState ν) (lba amountLeft : Nat),
    ∃ es, Did s es (verifyLoop env fuel s lba amountLeft) ∧
      (verifyLoop env fuel s lba amountLeft).residue = s.residue := by
  induction fuel with
  | zero => exact fun s _ _ => ⟨[], .quiet rfl rfl rfl rfl, rfl⟩
  | succ fuel ih =>
      intro s lba amountLeft
      unfold verifyLoop
      by_cases h0 : amountLeft = 0
      · rw [if_pos h0]
        exact ⟨[], .quiet rfl rfl rfl rfl, rfl⟩
      · rw [if_neg h0]
        dsimp only
        generalize (if amountLeft < 4096 then amountLeft else 4096) = amount
        obtain ⟨hdid, hres, -⟩ := logicRead_did env (s := s)
          (u32 (s.lun.firstSector + lba)) amount
        generalize s.logicRead env _ amount = r at hdid hres ⊢
        by_cases hfail : r.2 ≠ 0
        · rw [if_pos hfail]
          exact ⟨_, @Did.trans _ _ _ _ _ [] hdid (.quiet rfl rfl rfl rfl), hres⟩
        · rw [if_neg hfail]
          obtain ⟨es, hrest, hres'⟩ := ih r.1 (u32 (lba + amount)) (amountLeft - amount)
          exact ⟨_, hdid.trans hrest, hres'.trans hres⟩

variable (env) in
theorem doVerify_done (hcur : s.curlun = true) : Done s (fun _ => 0) (doVerify env s) := by
  unfold doVerify
  dsimp only
  split_ifs
  · exact done_refused _ hcur (by decide)
  · exact done_refused _ hcur (by decide)
  · exact ⟨[], .quiet rfl rfl rfl rfl, .inr (.inl ⟨rfl, 0, rfl, fun _ => rfl⟩)⟩
  · exact ⟨[], .quiet rfl rfl rfl rfl, .inl ⟨rfl, rfl, .inr ⟨hcur,
      show ssLogicalBlockAddressOutOfRange ≠ ssNoSense by decide⟩⟩⟩
  · obtain ⟨es, hdid, hres⟩ := verifyLoop_did env (s.be16 7) s (s.be32 2) (s.be16 7)
    exact ⟨es, hdid, .inr (.inr ⟨0, rfl, hres, fun _ => (Nat.zero_min _).symm⟩)⟩

theorem doInquiry_done : Done s (fun _ => min 36 s.dataSizeFromCmnd) (doInquiry s) := by
  unfold doInquiry
  by_cases hcur : s.curlun = true
  · rw [if_pos hcur]
    exact done_reply 36 (.quiet rfl rfl rfl rfl) rfl
  · rw [if_neg hcur]
    exact done_reply 36 (.quiet rfl rfl rfl rfl) rfl

theorem doRequestSense_done : Done s (fun _ => min 18 s.dataSizeFromCmnd) (doRequestSense s) := by
  unfold doRequestSense
  by_cases hcur : s.curlun = true
  · rw [if_pos hcur]
    exact done_reply 18 (.quiet rfl rfl rfl rfl) rfl
  · rw [if_neg hcur]
    exact done_reply 18 (.quiet rfl rfl rfl rfl) rfl

theorem doReadCapacity_done (hcur : s.curlun = true) :
    Done s (fun _ => min 8 s.dataSizeFromCmnd) (doReadCapacity s) := by
  unfold doReadCapacity
  by_cases hfield : s.cb 8 > 1 ∨ (s.cb 8 = 0 ∧ s.be32 2 ≠ 0)
  · rw [if_pos hfield]
    exact done_refused _ hcur (by decide)
  · rw [if_neg hfield]
    exact done_reply 8 (.quiet rfl rfl rfl rfl) rfl

theorem doReadFormatCapacities_done :
    Done s (fun _ => min 12 s.dataSizeFromCmnd) (doReadFormatCapacities s) :=
  done_reply 12 (.quiet rfl rfl rfl rfl) rfl

theorem doModeSense_done (hcur : s.curlun = true) :
    Done s (fun _ => min (if s.cb 0 = 0x1a then 16 else 20) s.dataSizeFromCmnd)
      (doModeSense s) := by
  obtain ⟨buf, ⟨code, hcode, hres⟩ | hres⟩ := doModeSense_cases s
  · have hsome : code ≠ ssNoSense := by
      rcases hcode with rfl | rfl
      · decide
      · decide
    rw [hres]
    exact ⟨[], .quiet rfl rfl rfl rfl, .inl ⟨rfl, rfl, .inr ⟨hcur, hsome⟩⟩⟩
  · rw [hres]
    have hdid : Did s [] { s with masstorageBuffer := buf } := .quiet rfl rfl rfl rfl
    by_cases hshort : s.cb 0 = 0x1a
    · simp only [if_pos hshort]
      exact done_reply 16 hdid rfl
    · simp only [if_neg hshort]
      exact done_reply 20 hdid rfl

theorem doStartStop_done (hcur : s.curlun = true) :
    Done s (fun _ => min 0 s.dataSizeFromCmnd) (doStartStop s) := by
  unfold doStartStop
  split_ifs with hnone
  · simp [hcur] at hnone
  · exact done_refused _ hcur (by decide)
  · exact done_refused _ hcur (by decide)
  · exact done_refused _ hcur (by decide)
  · exact done_reply 0 (.quiet rfl rfl rfl rfl) rfl
  · exact done_refused _ hcur (by decide)
  · exact done_reply 0 (.quiet rfl rfl rfl rfl) rfl
  · exact done_reply 0 (.quiet rfl rfl rfl rfl) rfl

theorem doPreventAllow_done (hcur : s.curlun = true) :
    Done s (fun _ => min 0 s.dataSizeFromCmnd) (doPreventAllow s) := by
  unfold doPreventAllow
  split_ifs with hnone
  · simp [hcur] at hnone
  · exact done_refused _ hcur (by decide)
  · exact done_refused _ hcur (by decide)
  · exact done_reply 0 (.quiet rfl rfl rfl rfl) rfl

theorem doModeSelect_done (bytes : List MscEvent → Nat) (hcur : s.curlun = true) :
    Done s bytes (doModeSelect s) := by
  unfold doModeSelect
  rw [if_pos hcur]
  exact done_refused _ hcur (by decide)

end Actions

/-! ## The switch -/

section Switch

variable {env : MscEnv ν} {s t : MscState ν}

variable (env) in
/-- Every case of the switch moves the bytes it is said to. -/
theorem action_done (hcur : t.curlun = true) (hcb : ∀ i ≠ 1, t.cb i = s.cb i)
    (hle : t.dataSizeFromCmnd ≤ t.residue) (hlt : t.residue < 2 ^ 32)
    (hsize : t.phaseError = false → t.dataSizeFromCmnd = (scsiCase env s).dataSize) :
    Done t (dataBytes s) ((scsiCase env s).action t) := by
  have hop : t.cb 0 = s.cb 0 := hcb 0 (by decide)
  unfold scsiCase at hsize ⊢
  split at hsize <;> rename_i hbyte <;> dsimp only at hsize ⊢
  · exact doInquiry_done.congr fun hok _ => by simp only [dataBytes, hbyte, hsize hok]
  · exact doModeSelect_done _ hcur
  · exact doModeSelect_done _ hcur
  · refine (doModeSense_done hcur).congr fun hok _ => ?_
    have hshort : s.cb 0 = 0x1a := UInt8.toNat_inj.mp hbyte
    simp only [dataBytes, hbyte, hsize hok, hop, if_pos hshort]
  · refine (doModeSense_done hcur).congr fun hok _ => ?_
    have hlong : s.cb 0 ≠ 0x1a := by
      intro h
      rw [h] at hbyte
      cases hbyte
    simp only [dataBytes, hbyte, hsize hok, hop, if_neg hlong]
  · exact (doPreventAllow_done hcur).congr fun _ _ => by simp only [dataBytes, hbyte, Nat.zero_min]
  · exact (doRead_done env hcur hle hlt).congr fun _ _ => by simp only [dataBytes, hbyte]
  · exact (doRead_done env hcur hle hlt).congr fun _ _ => by simp only [dataBytes, hbyte]
  · exact (doRead_done env hcur hle hlt).congr fun _ _ => by simp only [dataBytes, hbyte]
  · refine (doReadCapacity_done hcur).congr fun hok _ => ?_
    simp only [dataBytes, hbyte, hsize hok, Nat.min_self]
  · exact doReadFormatCapacities_done.congr fun hok _ => by simp only [dataBytes, hbyte, hsize hok]
  · exact doRequestSense_done.congr fun hok _ => by simp only [dataBytes, hbyte, hsize hok]
  · exact (doStartStop_done hcur).congr fun _ _ => by simp only [dataBytes, hbyte, Nat.zero_min]
  · refine (done_reply 0 (.quiet rfl rfl rfl rfl) rfl).congr fun _ _ => ?_
    simp only [dataBytes, hbyte, Nat.zero_min]
  · refine (done_reply 0 (.quiet rfl rfl rfl rfl) rfl).congr fun _ _ => ?_
    simp only [dataBytes, hbyte, Nat.zero_min]
  · exact (doVerify_done env hcur).congr fun _ _ => by simp only [dataBytes, hbyte]
  · exact (doWrite_done env hcur hle hlt).congr fun _ _ => by simp only [dataBytes, hbyte]
  · exact (doWrite_done env hcur hle hlt).congr fun _ _ => by simp only [dataBytes, hbyte]
  · exact (doWrite_done env hcur hle hlt).congr fun _ _ => by simp only [dataBytes, hbyte]
  · exact done_refused _ hcur (by decide)

theorem doWrite_negative (env : MscEnv ν) (t : MscState ν) : (doWrite env t).2 < 0 := by
  have hinval : -errEinval < 0 := by decide
  have heio : -errEio < 0 := by decide
  unfold doWrite
  dsimp only
  split_ifs <;> first | exact hinval | exact heio

theorem doModeSelect_negative (t : MscState ν) : (doModeSelect t).2 < 0 := by
  unfold doModeSelect
  exact (by decide : -errEinval < 0)

/-- Only commands that send data to the host reply with any. -/
theorem scsiCase_reply (env : MscEnv ν) (s : MscState ν) :
    (scsiCase env s).dataDir = .toHost ∨ (scsiCase env s).dataSize = 0 ∨
      ∀ t, ((scsiCase env s).action t).2 < 0 := by
  unfold scsiCase
  split <;> first
    | exact .inl rfl
    | exact .inr (.inl rfl)
    | exact .inr (.inr doModeSelect_negative)
    | exact .inr (.inr (doWrite_negative env))

end Switch

/-! ## The reply -/

section Reply

variable {env : MscEnv ν} {s : MscState ν}

theorem setReply_refused (hlt : s.residue < 2 ^ 32) : setReply s (-errEinval) = s := by
  have hsame : sub32 s.residue (min (0 : Int).toNat s.dataSizeFromCmnd) = s.residue := by
    rw [Int.toNat_zero, Nat.zero_min, sub32_of_le (Nat.zero_le _) hlt, Nat.sub_zero]
  unfold setReply
  dsimp only
  rw [if_pos rfl, hsame]
  split_ifs <;> rfl

theorem setReply_taken : setReply s (-errEio) = s := by
  unfold setReply
  exact if_neg fun h => absurd h.1 (by decide)

theorem setReply_reply (reply : Nat) : setReply s reply =
    if s.curCmd.dCBWDataTransferLength ≠ 0 ∧ s.wantsIn = true then
      { s with residue := sub32 s.residue (min reply s.dataSizeFromCmnd) }
    else s := by
  have hpos : (reply : Int) ≠ -errEinval := by
    have : -errEinval < 0 := by decide
    omega
  unfold setReply
  dsimp only
  rw [if_neg hpos, Int.toNat_natCast]
  by_cases hin : s.curCmd.dCBWDataTransferLength ≠ 0 ∧ s.wantsIn = true
  · rw [if_pos hin, if_pos ⟨Int.natCast_nonneg reply, hin⟩]
  · rw [if_neg hin, if_neg fun h => hin h.2]

/-- What is known once a command was carried out, before it is answered. -/
structure Settled (s t : MscState ν) : Prop where
  tag : t.curCmd.dCBWTag = s.curCmd.dCBWTag
  length : t.curCmd.dCBWDataTransferLength = s.curCmd.dCBWDataTransferLength
  flags : t.curCmd.bmCBWFlags = s.curCmd.bmCBWFlags
  moved : ∃ es, t.out = s.out ++ es ∧ (∀ e ∈ es, e.isAccess = true) ∧
    t.residue ≤ s.curCmd.dCBWDataTransferLength ∧
    (¬ Refused t → t.residue + dataBytes s es = s.curCmd.dCBWDataTransferLength)

theorem doScsiCommand_settled (env : MscEnv ν) (hunit : s.commonLun < s.nluns)
    (hlength : s.curCmd.dCBWDataTransferLength < 2 ^ 32) : Settled s (doScsiCommand env s) := by
  obtain ⟨c, hc⟩ : ∃ c, scsiCase env s = c := ⟨_, rfl⟩
  obtain ⟨hchecked, hresult, hcb⟩ := checkCommand_checked env
    (s := { s with phaseError := false, dataSizeFromCmnd := c.dataSize }) hunit c.cmndSize
    c.dataDir c.mask c.needsMedium
  obtain ⟨hrefused, hthrough⟩ := checkCommand_answers env c.cmndSize c.dataDir c.mask
    c.needsMedium (s := { s with phaseError := false, dataSizeFromCmnd := c.dataSize }) hunit
  replace hchecked : Checked s c.dataSize c.dataDir _ := hchecked.start
  unfold doScsiCommand
  rw [hc]
  dsimp only
  generalize checkCommand env _ c.cmndSize c.dataDir c.mask c.needsMedium = r
    at hchecked hresult hcb hrefused hthrough ⊢
  have hresidue : r.1.residue < 2 ^ 32 := by
    rw [hchecked.residue]
    exact hlength
  by_cases hok : r.2 = 0
  · rw [if_pos hok]
    have hneg := scsiCase_reply env s
    have hdone := action_done env (s := s) (t := r.1) (hthrough hok).1 hcb
      (by rw [hchecked.residue]; exact hchecked.dataSize) hresidue
      (by rw [hc]; exact fun h => (hchecked.allowed h).1)
    rw [hc] at hneg hdone
    obtain ⟨es, hdid, hcases⟩ := hdone
    replace hneg : c.dataDir = .toHost ∨ c.dataSize = 0 ∨ (c.action r.1).2 < 0 :=
      hneg.imp_right (Or.imp_right fun h => h r.1)
    generalize c.action r.1 = q at hneg hdid hcases ⊢
    have htag := hdid.tag.trans hchecked.tag
    have hlen := hdid.length.trans hchecked.length
    have hflags := hdid.flags.trans hchecked.flags
    have hout : q.1.out = s.out ++ es := by rw [hdid.out, hchecked.out]
    have hin : q.1.wantsIn = s.wantsIn := by rw [MscState.wantsIn, hflags, MscState.wantsIn]
    have hL := hchecked.residue
    rcases hcases with ⟨hinval, hres, href⟩ | ⟨heio, n, hres, hn⟩ | ⟨reply, hreply, hres, hn⟩
    · rw [hinval, setReply_refused (by rw [hres]; exact hresidue)]
      exact ⟨htag, hlen, hflags, es, hout, hdid.access, Nat.le_of_eq (hres.trans hL),
        fun h => absurd href h⟩
    · rw [heio, setReply_taken]
      exact ⟨htag, hlen, hflags, es, hout, hdid.access, by omega, fun h => by
        rw [← hn h, hres, hL]⟩
    · rw [hreply, setReply_reply, hdid.dataSize, hres]
      have hle := hchecked.dataSize
      by_cases hto : q.1.curCmd.dCBWDataTransferLength ≠ 0 ∧ q.1.wantsIn = true
      · rw [if_pos hto]
        have hsub : sub32 r.1.residue (min reply r.1.dataSizeFromCmnd) =
            r.1.residue - min reply r.1.dataSizeFromCmnd := sub32_of_le (by omega) hresidue
        refine ⟨htag, hlen, hflags, es, hout, hdid.access, ?_, fun h => ?_⟩
        · rw [hsub]
          dsimp only
          omega
        · have hbytes := hn h
          rw [hsub]
          dsimp only
          omega
      · rw [if_neg hto]
        refine ⟨htag, hlen, hflags, es, hout, hdid.access, Nat.le_of_eq (hres.trans hL),
          fun h => ?_⟩
        have hphase : r.1.phaseError = false := by
          rw [← hdid.phase]
          by_contra hphase
          exact h (.inl (by simpa using hphase))
        obtain ⟨hsize, hallowed⟩ := hchecked.allowed hphase
        have hzero : c.dataSize = 0 := by
          by_contra hpos
          rcases hneg with hdir | hzero | hneg
          · obtain ⟨h0, hwants⟩ := hallowed (by omega) hdir
            exact hto ⟨by rwa [hlen], by rwa [hin]⟩
          · exact hpos hzero
          · omega
        have hbytes := hn h
        rw [hsize, hzero, Nat.min_zero] at hbytes
        rw [hbytes, hres, hL, Nat.add_zero]
  · rw [if_neg hok]
    have hinval : r.2 = -errEinval := by
      rcases List.mem_cons.mp hresult with h | h
      · exact absurd h hok
      · exact List.mem_singleton.mp h
    rw [hinval, setReply_refused hresidue]
    exact ⟨hchecked.tag, hchecked.length, hchecked.flags, [], by rw [hchecked.out]; simp,
      (fun _ h => absurd h List.not_mem_nil), Nat.le_of_eq hchecked.residue,
      fun h => absurd (hrefused hok) h⟩

end Reply

/-- The reply to a command: after its accesses to the flash, as many bytes as the wrapper
announces if the host takes data, and one status wrapper with the tag of the command. Its residue
is no more than that length, and what is left of it if the command passed. -/
def WellReplied (s t : MscState ν) : Prop :=
  ∃ es data csw, (∀ e ∈ es, e.isAccess = true) ∧
    t.out = s.out ++ es ++
      (if s.curCmd.dCBWDataTransferLength ≠ 0 ∧ s.wantsIn = true then [.txData data] else []) ++
      [.txStatus csw] ∧
    data.length = s.curCmd.dCBWDataTransferLength ∧ csw.dCSWSignature = 0x53425355 ∧
    csw.dCSWTag = s.curCmd.dCBWTag ∧
    csw.dCSWDataResidue ≤ s.curCmd.dCBWDataTransferLength ∧
    (csw.bCSWStatus = 0 →
      csw.dCSWDataResidue + dataBytes s es = s.curCmd.dCBWDataTransferLength)

theorem execute_wellReplied (env : MscEnv ν) {s : MscState ν} (hunit : s.commonLun < s.nluns)
    (hlength : s.curCmd.dCBWDataTransferLength < 2 ^ 32) : WellReplied s (execute env s) := by
  obtain ⟨htag, hlen, hflags, es, hout, haccess, hle, hpass⟩ :=
    doScsiCommand_settled env hunit hlength
  have hstatus := fun href => reply_passed (doScsiCommand env s) href
  unfold execute
  generalize doScsiCommand env s = t at htag hlen hflags hout hle hpass hstatus ⊢
  have hin : t.wantsIn = s.wantsIn := by rw [MscState.wantsIn, hflags, MscState.wantsIn]
  obtain ⟨csw, hcsw⟩ : ∃ csw, csw = (⟨0x53425355, t.curCmd.dCBWTag, t.residue,
    if t.phaseError = true then 2 else
      if (if t.curlun = true then t.lun.senseData
        else if t.badLunOkay = true then ssNoSense else ssLogicalUnitNotSupported) ≠ ssNoSense
      then 1 else 0⟩ : CommandStatusWrapper) := ⟨_, rfl⟩
  have hsent : (sendStatus (finishReply t)).out = s.out ++ es ++
      (if s.curCmd.dCBWDataTransferLength ≠ 0 ∧ s.wantsIn = true then
        [.txData ((List.range t.curCmd.dCBWDataTransferLength).map t.masstorageBuffer)]
      else []) ++ [.txStatus csw] := by
    rw [hcsw, ← hout, ← hin, ← hlen]
    unfold finishReply sendStatus
    by_cases hto : t.curCmd.dCBWDataTransferLength ≠ 0 ∧ t.wantsIn = true
    · rw [if_pos hto, if_pos hto]
    · rw [if_neg hto, if_neg hto, List.append_nil]
  refine ⟨es, _, csw, haccess, hsent, by rw [List.length_map, List.length_range, hlen], ?_, ?_, ?_,
    fun h0 => ?_⟩
  · rw [hcsw]
  · rw [hcsw]
    exact htag
  · rw [hcsw]
    exact hle
  · have hok : ¬ Refused t := by
      intro href
      have hfail := hstatus href
      rw [passed, hsent, List.getLast?_append, List.getLast?_singleton, Option.some_or] at hfail
      dsimp only at hfail
      rw [h0] at hfail
      cases hfail
    rw [hcsw]
    exact hpass hok

theorem mscFrame_length {s : MscState ν} (hlength : s.curCmd.dCBWDataTransferLength < 2 ^ 32)
    (p : List UInt8) : (mscFrame s p).state.curCmd.dCBWDataTransferLength < 2 ^ 32 := by
  have hfield : (decodeWrapper p).dCBWDataTransferLength < 2 ^ 32 := field_lt p 8 4
  unfold mscFrame
  by_cases hends : s.commandEnds
  · rw [if_pos hends]
    dsimp only
    split_ifs
    · exact hlength
    · exact hfield
    · exact hfield
    · exact hfield
  · rw [if_neg hends]
    exact hlength

/-- Every command that is carried out, at whatever packet completes it, is replied to, and no other
packet is. -/
theorem masstorage_replies (env : MscEnv ν) (s : MscState ν) (hunit : s.commonLun < s.nluns)
    (hlength : s.curCmd.dCBWDataTransferLength < 2 ^ 32) (buffer : List UInt8) :
    match executed s buffer with
    | none => (masstorageRxHandler env s buffer).out = s.out
    | some e => ∃ t : MscState ν, t.curCmd = e.wrapper ∧ t.out = s.out ∧
        WellReplied t (masstorageRxHandler env s buffer) := by
  obtain ⟨⟨hcommon, hnluns⟩, -, hout⟩ := mscFrame_keeps (s := s) (p := buffer)
  rcases masstorageRxHandler_executes env s buffer with ⟨hnone, heq⟩ | ⟨t, rfl, hsome, heq⟩
  · rw [hnone, heq]
    exact hout
  · rw [hsome, heq]
    refine ⟨_, rfl, hout, execute_wellReplied env (by rw [hcommon, hnluns]; exact hunit)
      (mscFrame_length hlength buffer)⟩

theorem masstorage_replies_testUnitReady :
    ∃ t : MscState Unit, t.curCmd = decodeWrapper (testUnitReady 0x43425355 7 0) ∧ t.out = [] ∧
      WellReplied t (masstorageRxHandler noFlash (mscInit () fun _ => 0)
        (testUnitReady 0x43425355 7 0)) :=
  masstorage_replies noFlash (mscInit () fun _ => 0) (by decide) (by decide)
    (testUnitReady 0x43425355 7 0)

end Novo7

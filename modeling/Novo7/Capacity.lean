import Novo7.SectorCounts

/-!
# The capacity that is reported

`READ CAPACITY` names the last address of the medium, `READ FORMAT CAPACITIES` the number of its
blocks, and a transfer of one block is held against the same count. All three are the count of
the mount, one of them with one subtracted in 32 bits: `capacity_agrees_iff` says that they agree
unless the mount was of no sectors at all.
-/

namespace Novo7

open Machine Buffer Bytes Transducer

variable {ν : Type}

/-! ## The commands -/

/-- A command of ten bytes for unit 0. -/
def tenWrapper (tag length : Nat) (toHost : Bool) (block : List UInt8) : CommandBlockWrapper :=
  ⟨0x43425355, tag, length, if toHost then 0x80 else 0, 0, 10, fun i => block.getD i 0⟩

/-- `READ(10)` or `WRITE(10)` of one block. -/
def oneBlock (write : Bool) (tag lba : Nat) : CommandBlockWrapper :=
  tenWrapper tag 512 (!write) ([CdbForm.ten.opcode write, 0] ++ beBytes32 lba ++ [0, 0, 1, 0])

def readCapacity (tag : Nat) : CommandBlockWrapper := tenWrapper tag 8 true [0x25]

def readFormatCapacities (tag : Nat) : CommandBlockWrapper :=
  tenWrapper tag 12 true [0x23, 0, 0, 0, 0, 0, 0, 0, 12, 0]

/-- A command carried out with the given data in the transfer buffer, and what it caused. -/
def caused (env : MscEnv ν) (u : MscState ν) (c : CommandBlockWrapper) (data : Nat → UInt8) :
    List MscEvent :=
  (execute env { u.next c with masstorageBuffer := data }).out.drop u.out.length

/-- The flash is asked for what the command wants. -/
def Accepts (env : MscEnv ν) (u : MscState ν) (c : CommandBlockWrapper) (data : Nat → UInt8) :
    Prop :=
  ∃ e ∈ caused env u c data, e.isAccess = true

/-- The bytes that go to the host. -/
def replyBytes (events : List MscEvent) : List UInt8 :=
  events.flatMap fun
    | .txData data => data
    | _ => []

/-- The number that bytes stand for, the first byte being the highest. -/
def beValue (bytes : List UInt8) : Nat := bytes.foldl (fun n b => n * 256 + b.toNat) 0

/-- The last address, as `READ CAPACITY` returns it. -/
def lastAddress (env : MscEnv ν) (u : MscState ν) (tag : Nat) (data : Nat → UInt8) : Nat :=
  beValue ((replyBytes (caused env u (readCapacity tag) data)).take 4)

/-- The blocks that `READ FORMAT CAPACITIES` reports. -/
def formatBlocks (env : MscEnv ν) (u : MscState ν) (tag : Nat) (data : Nat → UInt8) : Nat :=
  beValue (((replyBytes (caused env u (readFormatCapacities tag) data)).drop 4).take 4)

/-- The three replies agree, whatever tags the commands have and whatever is in the buffer. -/
structure CapacityAgrees (env : MscEnv ν) (writable : Prop) (u : MscState ν) : Prop where
  reads : ∀ tag tag' data data' lba, lba < 2 ^ 32 →
    (Accepts env u (oneBlock false tag lba) data ↔ lba ≤ lastAddress env u tag' data')
  writes : writable → ∀ tag tag' data data' lba, lba < 2 ^ 32 →
    (Accepts env u (oneBlock true tag lba) data ↔ lba ≤ lastAddress env u tag' data')
  blocks : ∀ tag tag' data data',
    formatBlocks env u tag data = lastAddress env u tag' data' + 1

/-! ## The address of a block -/

theorem beValue_beBytes32 {n : Nat} (h : n < 2 ^ 32) : beValue (beBytes32 n) = n := by
  simp only [beValue, beBytes32, beBytes16, List.cons_append, List.nil_append, List.foldl_cons,
    List.foldl_nil, UInt8.toNat_ofNat']
  omega

theorem oneBlock_address (write : Bool) (tag : Nat) {lba : Nat} (h : lba < 2 ^ 32)
    {s : MscState ν} (hcmd : s.curCmd = oneBlock write tag lba) :
    CdbForm.address s .ten = lba := by
  have hcb (i : Nat) : s.cb i = ([CdbForm.ten.opcode write, 0] ++ beBytes32 lba ++
      [0, 0, 1, 0]).getD i 0 := by
    rw [MscState.cb, hcmd]
    rfl
  simp only [CdbForm.address, MscState.be32, MscState.be16, hcb, beBytes32, beBytes16,
    List.cons_append, List.nil_append, List.getD_cons_succ, List.getD_cons_zero,
    UInt8.toNat_ofNat']
  omega

/-- For one block the check is against the count itself. -/
theorem beyondUnit_one {s : MscState ν} {lba : Nat} (h : s.lun.sectorCount < 2 ^ 32) :
    beyondUnit s lba 1 = decide (s.lun.sectorCount ≤ lba) := by
  unfold beyondUnit
  by_cases hle : s.lun.sectorCount ≤ lba
  · rw [decide_eq_true hle, Bool.true_or]
  · rw [u32_of_lt (by omega), decide_eq_false hle, decide_eq_false (by omega), Bool.or_false]

/-! ## A unit with a medium -/

/-- The unit serves a range of `n` sectors. -/
structure Serving (n : Nat) (writable : Prop) (u : MscState ν) : Prop where
  unit : u.commonLun < u.nluns
  isOpen : u.lun.isOpen = true
  count : u.lun.sectorCount = n
  ro : writable → u.lun.ro = false
  attention : u.lun.unitAttentionData = ssNoSense

/-- What the checks leave of a command that passes them. -/
structure Through (u : MscState ν) (c : CommandBlockWrapper) (size : Nat) (t : MscState ν) :
    Prop where
  count : t.lun.sectorCount = u.lun.sectorCount
  ro : t.lun.ro = u.lun.ro
  out : t.out = u.out
  curlun : t.curlun = true
  dataSize : t.dataSizeFromCmnd = size
  length : t.curCmd.dCBWDataTransferLength = c.dCBWDataTransferLength
  wantsIn : t.wantsIn = (c.bmCBWFlags &&& 0x80 != 0)
  cb : ∀ i, t.cb i = c.cbwcb i

section Serve

variable {env : MscEnv ν} {u : MscState ν} {n : Nat} {writable : Prop} {data : Nat → UInt8}

variable (env data) in
/-- A ten-byte command with nothing set outside its mask passes the checks. -/
theorem checkCommand_ten (hu : Serving n writable u) {c : CommandBlockWrapper} {mask : Nat}
    (size : Nat) {dir : DataDirection} (hlen : c.bCBWCBLength = 10)
    (hop : c.cbwcb 0 ≠ 0x03) (hone : c.cbwcb 1 = 0) (hle : size ≤ c.dCBWDataTransferLength)
    (hdir : dir = if (c.bmCBWFlags &&& 0x80 != 0) = true then .toHost else .fromHost)
    (hzero : ∀ i, 1 ≤ i → i < 16 → c.cbwcb i = 0 ∨ mask.testBit i = true) :
    ∃ t, checkCommand env { u.next c with
        masstorageBuffer := data, phaseError := false, dataSizeFromCmnd := size } 10 dir mask true =
          (t, 0) ∧ Through u c size t := by
  obtain ⟨s, hs⟩ : ∃ s : MscState ν, s = { u.next c with
    masstorageBuffer := data, phaseError := false, dataSizeFromCmnd := size } := ⟨_, rfl⟩
  have hunit : s.commonLun < s.nluns := by
    rw [hs]
    exact hu.unit
  have hten : s.curCmd.bCBWCBLength.toNat = 10 := by
    rw [hs]
    exact congrArg UInt8.toNat hlen
  obtain ⟨t, ht, hlun, hcur, -, hsize⟩ := @checkCommand_pass _ env s 10 mask dir true hunit
    (by rw [hs]; exact hle) (fun _ => by rw [hs]; exact hdir) (Nat.le_of_eq hten.symm)
    (by rw [hten]; decide) (by rw [hs]; exact hop) (by rw [hs]; exact hu.attention)
    (fun _ => by rw [hs]; exact hu.isOpen) (by rw [hs]; exact hzero)
  obtain ⟨-, hmasked⟩ := checkCommand_kept env hunit 10 dir mask true
  obtain ⟨hchecked, -, hcb⟩ := checkCommand_checked env hunit 10 dir mask true
  rw [ht] at hmasked hchecked hcb
  have hcmd : s.curCmd = c := by rw [hs]; rfl
  refine ⟨t, by rw [← hs]; exact ht, ?_⟩
  refine ⟨by rw [hlun, hs]; rfl, by rw [hlun, hs]; rfl, by rw [hchecked.out, hs]; rfl, hcur,
    by rw [hsize, hs], by rw [hchecked.length, hcmd], ?_, fun i => ?_⟩
  · rw [MscState.wantsIn, hchecked.flags, hcmd]
  · by_cases hi : i = 1
    · subst hi
      rw [hmasked rfl, MscState.cb, hcmd, hone]
      rfl
    · rw [hcb i hi, MscState.cb, hcmd]

/-! ## Transfers -/

variable (env) in
theorem doRead_out {s : MscState ν} (hone : s.cb 1 = 0) : ∃ first,
    (doRead env s).1.out = s.out ++
      if beyondUnit s (cdbLba s 0x08) (s.dataSizeFromCmnd / 2 ^ 9) = true then []
      else [.logicRead first (s.dataSizeFromCmnd / 2 ^ 9)] := by
  unfold doRead
  dsimp only
  rw [if_neg fun h => h.2 (by rw [hone]; decide)]
  by_cases hbeyond : beyondUnit s (cdbLba s 0x08) (s.dataSizeFromCmnd / 2 ^ 9) = true
  · refine ⟨0, ?_⟩
    rw [if_pos hbeyond, if_pos hbeyond]
    exact (List.append_nil _).symm
  · refine ⟨u32 (s.lun.firstSector + cdbLba s 0x08), ?_⟩
    rw [if_neg hbeyond, if_neg hbeyond]
    split_ifs <;> rfl

variable (env) in
theorem doWrite_out {s : MscState ν} (hro : s.lun.ro = false) (hone : s.cb 1 = 0) : ∃ first,
    (doWrite env s).1.out = s.out ++
      if beyondUnit s (cdbLba s 0x0a) (s.dataSizeFromCmnd / 2 ^ 9) = true then []
      else [.logicWrite first (s.dataSizeFromCmnd / 2 ^ 9)] := by
  unfold doWrite
  dsimp only
  rw [if_neg (by rw [hro]; decide), if_neg fun h => h.2 (by rw [hone]; decide)]
  by_cases hbeyond : beyondUnit s (cdbLba s 0x0a) (s.dataSizeFromCmnd / 2 ^ 9) = true
  · refine ⟨0, ?_⟩
    rw [if_pos hbeyond, if_pos hbeyond]
    exact (List.append_nil _).symm
  · refine ⟨u32 (s.lun.firstSector + cdbLba s 0x0a), ?_⟩
    rw [if_neg hbeyond, if_neg hbeyond]
    split_ifs <;> rfl

variable (env) in
theorem transfer_out {write : Bool} {s : MscState ν} (hro : write = true → s.lun.ro = false)
    (hone : s.cb 1 = 0) : ∃ first,
    (transfer env write s).1.out = s.out ++
      if beyondUnit s (cdbLba s (CdbForm.opcode write .six)) (s.dataSizeFromCmnd / 2 ^ 9) = true
      then [] else [accessEvent write first (s.dataSizeFromCmnd / 2 ^ 9)] := by
  cases write with
  | false => exact doRead_out env hone
  | true => exact doWrite_out env (hro rfl) hone

theorem oneBlock_mask (write : Bool) (tag lba : Nat) {i : Nat} (h1 : 1 ≤ i) :
    (oneBlock write tag lba).cbwcb i = 0 ∨ CdbForm.ten.mask.testBit i = true := by
  rcases Nat.lt_or_ge i 10 with hi | hi
  · obtain rfl | rfl | rfl | rfl | rfl | rfl | rfl | rfl | rfl :
        i = 1 ∨ i = 2 ∨ i = 3 ∨ i = 4 ∨ i = 5 ∨ i = 6 ∨ i = 7 ∨ i = 8 ∨ i = 9 := by omega
    all_goals first
      | exact .inr (by decide)
      | exact .inl rfl
  · exact .inl (List.getD_eq_default _ _ hi)

theorem accepts_iff (hu : Serving n writable u) (hn : n < 2 ^ 32) (write : Bool)
    (hrw : write = true → writable) (tag : Nat) {lba : Nat} (hlba : lba < 2 ^ 32) :
    Accepts env u (oneBlock write tag lba) data ↔ lba < n := by
  obtain ⟨c, hc⟩ : ∃ c, oneBlock write tag lba = c := ⟨_, rfl⟩
  obtain ⟨s, hs⟩ : ∃ s : MscState ν, { u.next c with masstorageBuffer := data } = s := ⟨_, rfl⟩
  have hcmd : s.curCmd = oneBlock write tag lba := by rw [← hs, hc]; rfl
  have hop : s.cb 0 = CdbForm.ten.opcode write := by rw [MscState.cb, hcmd]; rfl
  have hblocks : CdbForm.blocks s .ten = 1 := by
    have h7 : s.cb 7 = 0 := by rw [MscState.cb, hcmd]; rfl
    have h8 : s.cb (7 + 1) = 1 := by rw [MscState.cb, hcmd]; rfl
    rw [CdbForm.blocks, MscState.be16, h7, h8]
    rfl
  have hflags : (c.bmCBWFlags &&& 0x80 != 0) = !write := by
    rw [← hc]
    show ((if (!write) = true then 0x80 else 0 : UInt8) &&& 0x80 != 0) = !write
    cases write <;> decide
  have hcase := scsiCase_transfer env hop
  rw [hblocks] at hcase
  obtain ⟨dir, hdir⟩ : ∃ d : DataDirection, (if write = true then .fromHost else .toHost) = d :=
    ⟨_, rfl⟩
  rw [hdir] at hcase
  obtain ⟨t, ht, hthrough⟩ := @checkCommand_ten ν env u n writable data hu c CdbForm.ten.mask 512 dir
    (by rw [← hc]; rfl)
    (by rw [← hc]; show CdbForm.ten.opcode write ≠ 0x03; cases write <;> decide)
    (by rw [← hc]; rfl) (by rw [← hc]; exact Nat.le_refl _)
    (by rw [hflags, ← hdir]; cases write <;> rfl)
    (fun i h1 _ => by rw [← hc]; exact oneBlock_mask write tag lba h1)
  have hlba' : cdbLba t (CdbForm.opcode write .six) = lba := by
    have hcb (i : Nat) : t.cb i = s.cb i := by
      rw [hthrough.cb, MscState.cb, hcmd, hc]
    have hone : s.cb 1 = 0 := by rw [MscState.cb, hcmd]; rfl
    rw [cdbLba_eq (s := s) hop (by rw [hcb, hone]; rfl) fun i _ => hcb i]
    exact oneBlock_address write tag hlba hcmd
  obtain ⟨first, hfirst⟩ := @transfer_out ν env write t
    (fun h => by rw [hthrough.ro]; exact hu.ro (hrw h)) (by rw [hthrough.cb, ← hc]; rfl)
  rw [hlba', hthrough.dataSize, show 512 / 2 ^ 9 = 1 from rfl,
    beyondUnit_one (by rw [hthrough.count, hu.count]; exact hn), hthrough.count, hu.count,
    hthrough.out] at hfirst
  have hcmd' : doScsiCommand env s = setReply (transfer env write t).1 (transfer env write t).2 := by
    unfold doScsiCommand
    rw [hcase]
    dsimp only
    rw [← hs, show u32 (512 * 1) = 512 from rfl]
    dsimp only
    rw [show CdbForm.ten.cmndSize = 10 from rfl, ht]
    rfl
  obtain ⟨residue, hreply⟩ := setReply_eq (transfer env write t).1 (transfer env write t).2
  obtain ⟨-, es, hes, hquiet⟩ := reply_accesses (doScsiCommand env s)
  rw [Accepts, caused, hc, hs, execute, hes, hcmd', hreply]
  dsimp only
  rw [hfirst, List.append_assoc, List.drop_left]
  have hnone : ∀ e ∈ es, ¬ e.isAccess = true := by
    intro e he hacc
    have : e ∈ es.filter MscEvent.isAccess := List.mem_filter.mpr ⟨he, hacc⟩
    rw [hquiet] at this
    cases this
  by_cases hle : n ≤ lba
  · rw [decide_eq_true hle, if_pos rfl, List.nil_append]
    constructor
    · rintro ⟨e, he, hacc⟩
      exact absurd hacc (hnone e he)
    · intro h
      omega
  · rw [decide_eq_false hle, if_neg (by decide)]
    exact ⟨fun _ => Nat.lt_of_not_le hle,
      fun _ => ⟨_, List.mem_append_left _ (List.mem_singleton.mpr rfl),
        accessEvent_isAccess _ _ _⟩⟩

/-! ## Replies -/

/-- A reply of the buffer's first bytes, as long as the host asks for. -/
theorem caused_reply (hu : Serving n writable u) {c : CommandBlockWrapper} {mask reply : Nat}
    {action : MscState ν → MscState ν × Int} {bytes : List UInt8}
    (hcase : ∀ s : MscState ν, s.curCmd = c → scsiCase env s =
      ⟨c.dCBWDataTransferLength, 10, .toHost, mask, true, action⟩)
    (hlen : c.bCBWCBLength = 10) (hop : c.cbwcb 0 ≠ 0x03) (hone : c.cbwcb 1 = 0)
    (hin : (c.bmCBWFlags &&& 0x80 != 0) = true)
    (hzero : ∀ i, 1 ≤ i → i < 16 → c.cbwcb i = 0 ∨ mask.testBit i = true)
    (hbytes : bytes.length = c.dCBWDataTransferLength) (hpos : 0 < bytes.length)
    (haction : ∀ t, Through u c c.dCBWDataTransferLength t →
      action t = (t.put 0 bytes, (reply : Int))) :
    replyBytes (caused env u c data) = bytes := by
  obtain ⟨s, hs⟩ : ∃ s : MscState ν, { u.next c with masstorageBuffer := data } = s := ⟨_, rfl⟩
  have hcmd : s.curCmd = c := by rw [← hs]; rfl
  obtain ⟨t, ht, hthrough⟩ := @checkCommand_ten ν env u n writable data hu c mask
    c.dCBWDataTransferLength .toHost hlen hop hone (Nat.le_refl _) (by rw [hin, if_pos rfl]) hzero
  have hcmd' : doScsiCommand env s = setReply (t.put 0 bytes) reply := by
    unfold doScsiCommand
    rw [hcase s hcmd]
    dsimp only
    rw [← hs]
    dsimp only
    rw [ht]
    dsimp only
    rw [if_pos rfl, haction t hthrough]
  obtain ⟨residue, hreply⟩ := setReply_eq (t.put 0 bytes) reply
  have hstored : (List.range c.dCBWDataTransferLength).map (t.put 0 bytes).masstorageBuffer =
      bytes := by
    refine List.ext_getElem (by simp [hbytes]) fun i hi hi' => ?_
    rw [List.getElem_map, List.getElem_range]
    show store t.masstorageBuffer 0 bytes.length (fun i => bytes.getD i 0) i = bytes[i]
    rw [store_in (Nat.zero_le _) (by omega), Nat.sub_zero]
    exact List.getD_eq_getElem _ _ _
  have hdone : (doScsiCommand env s).out = u.out ∧
      (doScsiCommand env s).curCmd.dCBWDataTransferLength = c.dCBWDataTransferLength ∧
      (doScsiCommand env s).wantsIn = true ∧
      (doScsiCommand env s).masstorageBuffer = (t.put 0 bytes).masstorageBuffer := by
    rw [hcmd', hreply]
    exact ⟨hthrough.out, hthrough.length, hthrough.wantsIn.trans hin, rfl⟩
  rw [caused, hs, execute]
  generalize doScsiCommand env s = w at hdone ⊢
  obtain ⟨hout, hlength, hwants, hbuffer⟩ := hdone
  have hfinish : (finishReply w).out = u.out ++ [.txData bytes] := by
    rw [finishReply, if_pos ⟨by omega, hwants⟩]
    dsimp only
    rw [hlength, hbuffer, hstored, hout]
  obtain ⟨-, csw, hsent⟩ := sendStatus_accesses (finishReply w)
  rw [hsent, hfinish, List.append_assoc, List.drop_left]
  exact List.append_nil _

variable (env data) in
theorem lastAddress_eq (hu : Serving n writable u) (tag : Nat) :
    lastAddress env u tag data = sub32 n 1 := by
  have hreply : replyBytes (caused env u (readCapacity tag) data) =
      beBytes32 (sub32 n 1) ++ beBytes32 512 := by
    refine @caused_reply ν env u n writable data hu (readCapacity tag) (0xf <<< 2 ||| 1 <<< 8) 8
      doReadCapacity _ (fun s hs => ?_) rfl (show (0x25 : UInt8) ≠ 0x03 by decide) rfl
      (show ((0x80 : UInt8) &&& 0x80 != 0) = true by decide)
      (fun i h1 _ => .inl (List.getD_eq_default _ _ h1)) rfl (show 0 < 8 by decide)
      fun t ht => ?_
    · unfold scsiCase
      rw [show (s.cb 0).toNat = 0x25 by rw [MscState.cb, hs]; rfl]
      rfl
    · have hzero (i : Nat) (hi : 0 < i) : t.cb i = 0 := by
        rw [ht.cb]
        exact List.getD_eq_default _ _ hi
      unfold doReadCapacity
      rw [MscState.be32, MscState.be16, MscState.be16, hzero 8 (by decide), hzero 2 (by decide),
        hzero (2 + 1) (by decide), hzero (2 + 2) (by decide), hzero (2 + 2 + 1) (by decide),
        if_neg (by decide), ht.count, hu.count]
      rfl
  rw [lastAddress, hreply, List.take_left' (show (beBytes32 _).length = 4 from rfl),
    beValue_beBytes32 (sub32_lt _ _)]

variable (env data) in
theorem formatBlocks_eq (hu : Serving n writable u) (hn : n < 2 ^ 32) (tag : Nat) :
    formatBlocks env u tag data = n := by
  have hreply : replyBytes (caused env u (readFormatCapacities tag) data) =
      [0, 0, 0, 8] ++ beBytes32 n ++ [2, 0, 2, 0] := by
    refine @caused_reply ν env u n writable data hu (readFormatCapacities tag) (3 <<< 7) 12
      doReadFormatCapacities _ (fun s hs => ?_) rfl (show (0x23 : UInt8) ≠ 0x03 by decide) rfl
      (show ((0x80 : UInt8) &&& 0x80 != 0) = true by decide)
      (fun i h1 _ => ?_) rfl (show 0 < 12 by decide) fun t ht => ?_
    · unfold scsiCase
      rw [show (s.cb 0).toNat = 0x23 by rw [MscState.cb, hs]; rfl]
      have h7 : s.cb 7 = 0 := by rw [MscState.cb, hs]; rfl
      have h8 : s.cb (7 + 1) = 12 := by rw [MscState.cb, hs]; rfl
      have hword : s.be16 7 = 12 := by
        rw [MscState.be16, h7, h8]
        rfl
      rw [hword]
      rfl
    · rcases Nat.lt_or_ge i 10 with hi | hi
      · obtain rfl | rfl | rfl | rfl | rfl | rfl | rfl | rfl | rfl :
            i = 1 ∨ i = 2 ∨ i = 3 ∨ i = 4 ∨ i = 5 ∨ i = 6 ∨ i = 7 ∨ i = 8 ∨ i = 9 := by omega
        all_goals first
          | exact .inr (by decide)
          | exact .inl rfl
      · exact .inl (List.getD_eq_default _ _ hi)
    · unfold doReadFormatCapacities
      rw [ht.count, hu.count]
      rfl
  rw [formatBlocks, hreply, List.append_assoc,
    List.drop_left' (show ([0, 0, 0, 8] : List UInt8).length = 4 from rfl),
    List.take_left' (show (beBytes32 _).length = 4 from rfl), beValue_beBytes32 hn]

/-- A unit that serves `n` sectors reports what it accepts exactly when there is a sector. -/
theorem capacityAgrees_iff (hu : Serving n writable u) (hn : n < 2 ^ 32) :
    CapacityAgrees env writable u ↔ n ≠ 0 := by
  constructor
  · rintro ⟨hreads, -, -⟩ rfl
    have h := (hreads 0 0 (fun _ => 0) (fun _ => 0) 0 (by decide)).mpr (Nat.zero_le _)
    exact absurd ((accepts_iff hu hn false (fun h => nomatch h) 0 (by decide)).mp h) (by decide)
  · intro hpos
    have hlast : sub32 n 1 = n - 1 := sub32_of_le (by omega) hn
    refine ⟨fun tag tag' data data' lba hlba => ?_, fun hw tag tag' data data' lba hlba => ?_,
      fun tag tag' data data' => ?_⟩
    · rw [accepts_iff hu hn false (fun h => nomatch h) tag hlba, lastAddress_eq env data' hu, hlast]
      omega
    · rw [accepts_iff hu hn true (fun _ => hw) tag hlba, lastAddress_eq env data' hu, hlast]
      omega
    · rw [formatBlocks_eq env data hu hn, lastAddress_eq env data' hu, hlast]
      omega

end Serve

/-! ## What a packet leaves of the mount -/

section Packet

variable {env : MscEnv ν} {s : MscState ν}

/-- A step that keeps what a mount sets in the unit. -/
structure MountKept (s t : MscState ν) : Prop where
  count : t.lun.sectorCount = s.lun.sectorCount
  ro : t.lun.ro = s.lun.ro
  attention : t.lun.unitAttentionData = s.lun.unitAttentionData

theorem MountKept.trans {t u : MscState ν} (h : MountKept s t) (h' : MountKept t u) :
    MountKept s u :=
  ⟨h'.count.trans h.count, h'.ro.trans h.ro, h'.attention.trans h.attention⟩

theorem MountKept.of_eq {t : MscState ν} (h : t.lun = s.lun) : MountKept s t :=
  ⟨by rw [h], by rw [h], by rw [h]⟩

/-- A step that keeps the choice of the unit and does not put `LOGICAL UNIT NOT SUPPORTED` in its
sense data. -/
structure Selected (s t : MscState ν) : Prop where
  curlun : t.curlun = s.curlun
  sense : t.lun.senseData = s.lun.senseData ∨ t.lun.senseData ≠ ssLogicalUnitNotSupported

theorem Selected.trans {t u : MscState ν} (h : Selected s t) (h' : Selected t u) :
    Selected s u := by
  refine ⟨h'.curlun.trans h.curlun, ?_⟩
  rcases h'.sense with hsame | hother
  · rw [hsame]
    exact h.sense
  · exact .inr hother

theorem Selected.of_eq {t : MscState ν} (hcur : t.curlun = s.curlun) (hlun : t.lun = s.lun) :
    Selected s t :=
  ⟨hcur, .inl (by rw [hlun])⟩

/-- What every command keeps. -/
structure CommandKept (s t : MscState ν) : Prop where
  mount : MountKept s t
  selected : Selected s t

theorem CommandKept.trans {t u : MscState ν} (h : CommandKept s t) (h' : CommandKept t u) :
    CommandKept s u :=
  ⟨h.mount.trans h'.mount, h.selected.trans h'.selected⟩

theorem CommandKept.of_eq {t : MscState ν} (hcur : t.curlun = s.curlun) (hlun : t.lun = s.lun) :
    CommandKept s t :=
  ⟨.of_eq hlun, .of_eq hcur hlun⟩

variable (s) in
theorem sense_kept {code : Nat} (h : code ≠ ssLogicalUnitNotSupported) :
    CommandKept s (s.sense code) :=
  ⟨⟨rfl, rfl, rfl⟩, rfl, .inr h⟩

variable (s) in
theorem senseInfo_kept {code : Nat} (info : Nat) (h : code ≠ ssLogicalUnitNotSupported) :
    CommandKept s (s.senseInfo code info) :=
  ⟨⟨rfl, rfl, rfl⟩, rfl, .inr h⟩

variable (env s) in
theorem logicRead_kept (first count : Nat) : CommandKept s (s.logicRead env first count).1 :=
  .of_eq rfl rfl

variable (env s) in
theorem logicWrite_kept (first count : Nat) : CommandKept s (s.logicWrite env first count).1 :=
  .of_eq rfl rfl

variable (env) in
theorem verifyLoop_kept (fuel : Nat) : ∀ (s : MscState ν) (lba amountLeft : Nat),
    CommandKept s (verifyLoop env fuel s lba amountLeft) := by
  induction fuel with
  | zero => intro s lba amountLeft; exact .of_eq rfl rfl
  | succ fuel ih =>
      intro s lba amountLeft
      unfold verifyLoop
      by_cases hzero : amountLeft = 0
      · rw [if_pos hzero]
        exact .of_eq rfl rfl
      · rw [if_neg hzero]
        dsimp only
        generalize (if amountLeft < 4096 then amountLeft else 4096) = amount
        refine (logicRead_kept env s (u32 (s.lun.firstSector + lba)) amount).trans ?_
        split
        · exact senseInfo_kept _ _ (by decide)
        · exact ih _ _ _

variable (env s) in
theorem doRead_kept : CommandKept s (doRead env s).1 := by
  unfold doRead
  by_cases hfield : s.cb 0 ≠ 0x08 ∧ s.cb 1 &&& ~~~0x18 ≠ 0
  · rw [if_pos hfield]
    exact sense_kept s (by decide)
  rw [if_neg hfield]
  by_cases hin : beyondUnit s (cdbLba s 0x08) (s.dataSizeFromCmnd / 2 ^ 9)
  · rw [if_pos hin]
    exact sense_kept s (by decide)
  rw [if_neg hin]
  have hread := logicRead_kept env s (u32 (s.lun.firstSector + cdbLba s 0x08))
    (s.dataSizeFromCmnd / 2 ^ 9)
  dsimp only
  generalize s.logicRead env _ _ = r at hread ⊢
  refine hread.trans ?_
  by_cases hres : r.2 ≠ 0
  · rw [if_pos hres]
    exact ⟨⟨rfl, rfl, rfl⟩, rfl, .inr (show ssUnrecoveredReadError ≠ ssLogicalUnitNotSupported by decide)⟩
  · rw [if_neg hres]
    exact .of_eq rfl rfl

variable (env s) in
theorem doWrite_kept : CommandKept s (doWrite env s).1 := by
  unfold doWrite
  by_cases hro : s.lun.ro = true
  · rw [if_pos hro]
    exact sense_kept s (by decide)
  rw [if_neg hro]
  by_cases hfield : s.cb 0 ≠ 0x0a ∧ s.cb 1 &&& ~~~0x18 ≠ 0
  · rw [if_pos hfield]
    exact sense_kept s (by decide)
  rw [if_neg hfield]
  by_cases hin : beyondUnit s (cdbLba s 0x0a) (s.dataSizeFromCmnd / 2 ^ 9)
  · rw [if_pos hin]
    exact sense_kept s (by decide)
  rw [if_neg hin]
  have hwrite := logicWrite_kept env s (u32 (s.lun.firstSector + cdbLba s 0x0a))
    (s.dataSizeFromCmnd / 2 ^ 9)
  dsimp only
  generalize s.logicWrite env _ _ = r at hwrite ⊢
  refine hwrite.trans ?_
  by_cases hres : r.2 ≠ 0
  · rw [if_pos hres]
    exact ⟨⟨rfl, rfl, rfl⟩, rfl, .inr (show ssWriteError ≠ ssLogicalUnitNotSupported by decide)⟩
  · rw [if_neg hres]
    exact .of_eq rfl rfl

variable (env s) in
theorem doVerify_kept : CommandKept s (doVerify env s).1 := by
  unfold doVerify
  dsimp only
  split_ifs
  · exact sense_kept s (by decide)
  · exact sense_kept s (by decide)
  · exact .of_eq rfl rfl
  · exact senseInfo_kept s _ (by decide)
  · exact verifyLoop_kept env _ _ _ _

theorem doInquiry_kept : CommandKept s (doInquiry s).1 := by
  unfold doInquiry
  split_ifs <;> exact .of_eq rfl rfl

theorem doRequestSense_kept : CommandKept s (doRequestSense s).1 := by
  unfold doRequestSense
  split_ifs
  · exact ⟨⟨rfl, rfl, rfl⟩, rfl, .inr (show ssNoSense ≠ ssLogicalUnitNotSupported by decide)⟩
  · exact .of_eq rfl rfl

theorem doReadCapacity_kept : CommandKept s (doReadCapacity s).1 := by
  unfold doReadCapacity
  split_ifs
  · exact sense_kept s (by decide)
  · exact .of_eq rfl rfl

theorem doModeSense_kept : CommandKept s (doModeSense s).1 := by
  obtain ⟨buf, ⟨code, hcode, hres⟩ | hres⟩ := doModeSense_cases s
  · have hother : code ≠ ssLogicalUnitNotSupported := by
      rcases hcode with rfl | rfl
      · decide
      · decide
    rw [hres]
    exact ⟨⟨rfl, rfl, rfl⟩, rfl, .inr hother⟩
  · rw [hres]
    exact .of_eq rfl rfl

theorem doStartStop_kept : CommandKept s (doStartStop s).1 := by
  unfold doStartStop
  split_ifs
  all_goals first
    | exact .of_eq rfl rfl
    | exact sense_kept s (by decide)
    | exact ⟨⟨rfl, rfl, rfl⟩, rfl, .inl rfl⟩

theorem doPreventAllow_kept : CommandKept s (doPreventAllow s).1 := by
  unfold doPreventAllow
  split_ifs
  all_goals first
    | exact .of_eq rfl rfl
    | exact sense_kept s (by decide)
    | exact ⟨⟨rfl, rfl, rfl⟩, rfl, .inl rfl⟩

theorem doModeSelect_kept : CommandKept s (doModeSelect s).1 := by
  unfold doModeSelect
  dsimp only
  split_ifs
  · exact sense_kept s (by decide)
  · exact .of_eq rfl rfl

variable (env) in
/-- Every case of the switch. -/
theorem action_kept (t : MscState ν) : CommandKept s ((scsiCase env t).action s).1 := by
  unfold scsiCase
  split
  all_goals first
    | exact doRead_kept env s
    | exact doWrite_kept env s
    | exact doVerify_kept env s
    | exact doInquiry_kept
    | exact doRequestSense_kept
    | exact doReadCapacity_kept
    | exact doModeSense_kept
    | exact doStartStop_kept
    | exact doPreventAllow_kept
    | exact doModeSelect_kept
    | exact sense_kept s (by decide)
    | exact .of_eq rfl rfl

variable (env) in
theorem checkCommand_mount (hattention : s.lun.unitAttentionData = ssNoSense) (cmndSize : Nat)
    (dir : DataDirection) (mask : Nat) (needsMedium : Bool) :
    MountKept s (checkCommand env s cmndSize dir mask needsMedium).1 := by
  have hsizes := MountKept.of_eq (checkSizes_lun s cmndSize dir)
  unfold checkCommand
  generalize checkSizes s cmndSize dir = r at hsizes ⊢
  obtain ⟨t, size⟩ := r
  cases size with
  | none => exact hsizes
  | some n =>
      have hlun : MountKept s (checkLun t).1 := by
        refine hsizes.trans ?_
        unfold checkLun
        dsimp only
        split_ifs <;> exact ⟨rfl, rfl, rfl⟩
      dsimp only
      generalize checkLun t = u at hlun ⊢
      have hnone : u.1.lun.unitAttentionData = ssNoSense := hlun.attention.trans hattention
      by_cases hok : (!u.2) = true
      · rw [if_pos hok]
        exact hlun
      · rw [if_neg hok, if_neg (by rw [hnone]; simp)]
        refine hlun.trans ?_
        unfold checkMask
        dsimp only
        split_ifs <;> exact ⟨rfl, rfl, rfl⟩

variable (env) in
theorem doScsiCommand_mount (hattention : s.lun.unitAttentionData = ssNoSense) :
    MountKept s (doScsiCommand env s) := by
  unfold doScsiCommand
  dsimp only
  have hcheck := checkCommand_mount env (s := { s with
    phaseError := false, dataSizeFromCmnd := (scsiCase env s).dataSize }) hattention
    (scsiCase env s).cmndSize (scsiCase env s).dataDir (scsiCase env s).mask
    (scsiCase env s).needsMedium
  generalize checkCommand env _ _ _ _ _ = r at hcheck ⊢
  have hstart : MountKept s r.1 := ⟨hcheck.count, hcheck.ro, hcheck.attention⟩
  obtain ⟨q, hq⟩ : ∃ q, (if r.2 = 0 then (scsiCase env s).action r.1 else (r.1, r.2)) = q :=
    ⟨_, rfl⟩
  have haction : MountKept s q.1 := by
    rw [← hq]
    split_ifs
    · exact hstart.trans (action_kept env s).mount
    · exact hstart
  rw [hq]
  obtain ⟨residue, hreply⟩ := setReply_eq q.1 q.2
  rw [hreply]
  exact ⟨haction.count, haction.ro, haction.attention⟩

variable (env) in
theorem masstorageRxHandler_mount (hattention : s.lun.unitAttentionData = ssNoSense)
    (buffer : List UInt8) : MountKept s (masstorageRxHandler env s buffer) := by
  have hframe : MountKept s (mscFrame s buffer).state := .of_eq mscFrame_keeps.2.1
  rcases masstorageRxHandler_executes env s buffer with ⟨-, hres⟩ | ⟨t, hframed, -, hres⟩
  · rw [hres]
    exact hframe
  · rw [hframed] at hframe
    rw [hres]
    have hcmd := doScsiCommand_mount env (s := t) (hframe.attention.trans hattention)
    exact (hframe.trans hcmd).trans (.of_eq (reply_lun _))

end Packet

/-! ## Runs -/

/-- No unit attention is ever raised, and there is a unit. -/
def Calm (s : MscState ν) : Prop :=
  s.commonLun < s.nluns ∧ s.lun.unitAttentionData = ssNoSense

variable (env : MscEnv ν) (info : StorageInfo)

theorem packet_calm {s : MscState ν} (buffer : List UInt8) (hs : Calm s) :
    Calm (mscStep env info s (.packet buffer)).1 ∧
      MountKept s (mscStep env info s (.packet buffer)).1 := by
  have hmount := masstorageRxHandler_mount env (s := { s with out := [] }) hs.2 buffer
  exact ⟨⟨packet_units hs.1, hmount.attention.trans hs.2⟩,
    ⟨hmount.count, hmount.ro, hmount.attention⟩⟩

theorem step_calm {s : MscState ν} (i : MscInput) (hs : Calm s) :
    Calm (mscStep env info s i).1 := by
  cases i with
  | packet buffer => exact (packet_calm env info buffer hs).1
  | mount start count param1 =>
      rcases masstorageMount_cases info s (u32 start) (u32 count)
          (decide (u32 param1 ≠ 0)) with ⟨-, -, -, hres⟩ | ⟨-, hres⟩
      · simp only [mscStep, hres]
        exact hs
      · simp only [mscStep, hres]
        exact hs

theorem run_calm (is : List MscInput) : ∀ {s : MscState ν}, Calm s →
    Calm (final (mscStep env info) s is) := by
  induction is with
  | nil => intro s hs; exact hs
  | cons i is ih => intro s hs; exact ih (step_calm env info i hs)

/-- Packets keep the mount. -/
theorem packets_mount (ps : List (List UInt8)) : ∀ {s : MscState ν}, Calm s →
    Calm (final (mscStep env info) s (ps.map .packet)) ∧
      MountKept s (final (mscStep env info) s (ps.map .packet)) := by
  induction ps with
  | nil => intro s hs; exact ⟨hs, .of_eq rfl⟩
  | cons p ps ih =>
      intro s hs
      obtain ⟨hcalm, hmount⟩ := packet_calm env info p hs
      obtain ⟨hcalm', hmount'⟩ := ih hcalm
      exact ⟨hcalm', hmount.trans hmount'⟩

/-- After a mount that is accepted, and any packets that leave the medium there, what is reported
agrees with what is accepted exactly if the mount has a sector. -/
theorem capacity_agrees_iff (env : MscEnv ν) (info : StorageInfo) (nand : ν)
    (buffer : Nat → UInt8) (is : List MscInput) (start count param1 : Nat)
    (ps : List (List UInt8))
    (haccepted : (mscStep env info (final (mscStep env info) (mscInit nand buffer) is)
      (.mount start count param1)).2 = .mounted (u32 start) (u32 count))
    (hopen : (final (mscStep env info) (mscInit nand buffer)
      (is ++ .mount start count param1 :: ps.map .packet)).lun.isOpen = true) :
    CapacityAgrees env (u32 param1 ≠ 0) (final (mscStep env info) (mscInit nand buffer)
      (is ++ .mount start count param1 :: ps.map .packet)) ↔ u32 count ≠ 0 := by
  refine capacityAgrees_iff ?_ (u32_lt count)
  rw [final_append, final_cons] at hopen ⊢
  have hcalm : Calm (final (mscStep env info) (mscInit nand buffer) is) :=
    run_calm env info is ⟨Nat.zero_lt_one, rfl⟩
  generalize final (mscStep env info) (mscInit nand buffer) is = s at hcalm haccepted hopen ⊢
  have hcalm' := step_calm env info (.mount start count param1) hcalm
  have hmounted : (mscStep env info s (.mount start count param1)).1.lun.sectorCount = u32 count ∧
      (mscStep env info s (.mount start count param1)).1.lun.ro = !decide (u32 param1 ≠ 0) := by
    rcases masstorageMount_cases info s (u32 start) (u32 count)
        (decide (u32 param1 ≠ 0)) with ⟨-, -, -, hres⟩ | ⟨-, hres⟩
    · simp only [mscStep, hres]
      exact ⟨rfl, rfl⟩
    · simp only [mscStep, hres] at haccepted
      cases haccepted
  obtain ⟨⟨hunit, hattention⟩, hmount⟩ := packets_mount env info ps hcalm'
  refine ⟨hunit, hopen, hmount.count.trans hmounted.1, fun hw => ?_, hattention⟩
  rw [hmount.ro, hmounted.2, decide_eq_true hw]
  rfl

theorem capacity_agrees_iff_tenSectors :
    CapacityAgrees idleFlash (u32 1 ≠ 0) (final (mscStep idleFlash oneChip)
      (mscInit () fun _ => 0) [.mount 5 10 1]) :=
  (capacity_agrees_iff idleFlash oneChip () (fun _ => 0) [] 5 10 1 [] rfl (by decide)).mpr
    (by decide)

/-- A mount of no sectors is accepted, and `READ CAPACITY` then names the last 32-bit address. -/
theorem empty_mount_misreported :
    (mscStep idleFlash oneChip (mscInit () fun _ => 0) (.mount 5 0 1)).2 = .mounted 5 0 ∧
      lastAddress idleFlash (final (mscStep idleFlash oneChip) (mscInit () fun _ => 0)
        [.mount 5 0 1]) 7 (fun _ => 0) = 0xffffffff ∧
      ¬ CapacityAgrees idleFlash (u32 1 ≠ 0) (final (mscStep idleFlash oneChip)
        (mscInit () fun _ => 0) [.mount 5 0 1]) := by
  have hserving : Serving 0 (u32 1 ≠ 0) (final (mscStep idleFlash oneChip)
      (mscInit () fun _ => 0) [.mount 5 0 1]) :=
    ⟨by decide, by decide, by decide, fun _ => by decide, by decide⟩
  refine ⟨rfl, ?_, fun h => ?_⟩
  · rw [lastAddress_eq idleFlash _ hserving]
    rfl
  · exact (capacityAgrees_iff hserving (by decide)).mp h rfl

end Novo7

import Novo7.BootReadStatus
import Novo7.Diskboot
import Novo7.DiskRange

/-!
# What the diskboot handler stores

Received data goes to the transfer buffer behind what came before, as long as the count of it is
that of the command that is pending. A header that is refused is kept all the same, and the count
with it is that of the command before: `KeepsCount` says when that does no harm. What a disk or an
area is read for goes to the same buffer, as many sectors as the host asks for; the region ends
after `0x10000` of them.

`received_inside`: in a run whose refused headers keep the count and whose reads are no longer than
that, or beyond the disk, every store is inside.
-/

namespace Novo7

open Traced Machine Buffer Bytes Transducer

/-! ## Sectors of a range -/

section Sectors

variable {ar : LogicArchi}

/-- A page has room, and the sectors of a range that fits the buffer are few. -/
theorem LogicArchi.PageFits.range (har : ar.PageFits) {first count : Nat} (hcount : count ≤ 0x10000) :
    0 < ar.sectorCntOfLogicPage ∧ first % ar.sectorCntOfLogicPage + count < 2 ^ 32 := by
  obtain ⟨h2, h32⟩ := har
  have hr : first % ar.sectorCntOfLogicPage < ar.sectorCntOfLogicPage := Nat.mod_lt _ (by omega)
  omega

end Sectors

/-! ## Reading the disk -/

/-- Outside the first `n` halfwords the caller's memory is as before. -/
def OutsideSame (n : Nat) (s s' : Ftl) : Prop :=
  ∀ i : Int, i < 0 ∨ (n : Int) ≤ i → s'.host i = s.host i

instance (n : Nat) : Std.Refl (OutsideSame n) := ⟨fun _ _ _ => rfl⟩

instance (n : Nat) : IsTrans Ftl (OutsideSame n) :=
  ⟨fun _ _ _ h h' i hi => (h' i hi).trans (h i hi)⟩

theorem outsideSame_ofUser (n : Nat) : OfUser (OutsideSame n) := fun _ _ _ h i _ => congrFun h i

/-- A bitmap whose sectors lie inside the first `n` halfwords if its page starts at `off`. -/
def SectorsInside (n bitmap : Nat) (off : Int) : Prop :=
  ∀ i : Int, off ≤ i → bitmap.testBit ((i - off).toNat / 256) = true → 0 ≤ i ∧ i < n

theorem storeSectors_outside {n bitmap : Nat} {off : Int} (h : SectorsInside n bitmap off)
    (src : Buf) (host : Int → Nat) {i : Int} (hi : i < 0 ∨ (n : Int) ≤ i) :
    storeSectors bitmap off src host i = host i := by
  refine if_neg fun hin => ?_
  have := h i hin.1 hin.2
  omega

section Disk

variable {ar : LogicArchi} {env : NandEnv} {n : Nat}

theorem lmlReadReclaim_outside (nPage : Nat) :
    Preserves anyRun (OutsideSame n) (lmlReadReclaim ar env nPage) := by
  have hR := outsideSame_ofUser n
  have hread (p b : Nat) : Preserves anyRun (OutsideSame n)
      (failWith (lmlPageRead ar env p b .writePageCache) (-1)) :=
    failWith_preserves _ (lmlPageRead_preserves hR p b _ fun _ _ => hR _ _ rfl rfl)
  have hwrite (p b : Nat) (buf : PageBuf) : Preserves anyRun (OutsideSame n)
      (failWith (lmlPageWrite ar env p b buf) (-1)) :=
    failWith_preserves _ (lmlPageWrite_preserves hR p b buf)
  have hcache : Preserves anyRun (OutsideSame n) (writePageCacheToNand ar env) :=
    .bind .get fun _ => .when fun _ => .bind (.when fun _ => .bind (hread _ _) fun _ => .pure _)
      fun _ => .bind (hwrite _ _ _) fun _ => .modify fun _ _ _ => rfl
  have hflush : Preserves anyRun (OutsideSame n) (lmlFlushPageCache ar env) :=
    .bind (failWith_preserves _ hcache) fun _ => failWith_preserves _ (closeWritePage_preserves hR)
  exact .bind (failWith_preserves _ hflush) fun _ => .bind (hread _ _) fun _ => hwrite _ _ _

/-- One page of a read stores its sectors. -/
theorem readRound_outside {x : SectPar} {i : Nat}
    (h : SectorsInside n (x.bitmap ar i) (x.off ar i)) :
    Preserves anyRun (OutsideSame n) (readRound ar env x i) := by
  have hread : Preserves anyRun (OutsideSame n)
      (lmlPageRead ar env (x.page i) (x.bitmap ar i) (.host (x.off ar i))) :=
    lmlPageRead_preserves (outsideSame_ofUser n) _ _ _ fun src s j hj =>
      storeSectors_outside h src s.host hj
  refine .bind (failWith_preserves _ hread) fun _ => .bind (.when fun _ =>
    .orElse (lmlReadReclaim_outside _) fun _ => .pure _) fun _ => .bind .get fun _ =>
      .when fun _ => .modify fun s j hj => storeSectors_outside (fun k hk hbit => ?_) _ _ hj
  rw [Nat.testBit_and, Bool.and_eq_true] at hbit
  exact h k hk hbit.1

theorem round_inside (har : ar.PageFits) {first count i : Nat} (h0 : count ≠ 0)
    (hcount : count ≤ 0x10000) (hi : i < (calculateSectPar ar first count).pageCnt) :
    SectorsInside (count * 256) ((calculateSectPar ar first count).bitmap ar i)
      ((calculateSectPar ar first count).off ar i) := by
  intro k hk hbit
  obtain ⟨hpos, hfits⟩ := @LogicArchi.PageFits.range ar har first count hcount
  obtain ⟨-, hlow, hhigh⟩ := (bitmap_testBit hpos har.2 hfits hi _).mp hbit
  unfold SectPar.off at hk hlow hhigh
  rw [skip_eq hpos har.2 hfits (by omega)] at hk hlow hhigh
  generalize i * ar.sectorCntOfLogicPage = a at hk hlow hhigh
  generalize first % ar.sectorCntOfLogicPage = r at hk hlow hhigh
  omega

/-- A read of few sectors, or one beyond the disk, stores nothing outside them. -/
theorem lmlRead_outside (har : ar.PageFits) {first count : Nat} {s : Ftl}
    (h : count ≤ 0x10000 ∨ s.logicalCtl.diskCap < u32 (first + count)) :
    OutsideSame (0x10000 * 256) s (lmlRead ar env first count s).1.state := by
  rcases h with hcount | hbeyond
  · have hwp : WP anyRun (lmlRead ar env first count) (fun _ => OutsideSame (count * 256) s)
        (fun _ => OutsideSame (count * 256) s) s := by
      have hs : OutsideSame (count * 256) s s := refl_of (OutsideSame (count * 256)) s
      refine WP.bind (WP.get (WP.bind (WP.failIf (fun _ => hs) fun _ =>
        WP.when (fun h0 => ?_) fun _ => hs)))
      refine (WP.forRange (I := fun _ => OutsideSame (count * 256) s) (fun i t hi ht => ?_)
        hs).imp fun _ _ h => h
      exact (readRound_outside (round_inside har h0 hcount hi)).wp
        (fun _ _ h => trans_of (OutsideSame (count * 256)) ht h)
        fun _ _ h => trans_of (OutsideSame (count * 256)) ht h
    have hends := ends_of_wp hwp
    have hsame : OutsideSame (count * 256) s (lmlRead ar env first count s).1.state := by
      generalize (lmlRead ar env first count s).1 = o at hends ⊢
      cases o <;> exact hends
    have hle : ((count * 256 : Nat) : Int) ≤ (0x10000 * 256 : Nat) :=
      Int.ofNat_le.mpr (Nat.mul_le_mul_right 256 hcount)
    exact fun i hi => hsame i (hi.imp_right fun h => Int.le_trans hle h)
  · rw [lmlRead_beyond hbeyond]
    exact fun _ _ => rfl

end Disk

/-! ## Reading a boot area -/

section Boot

variable {α : Type} {env : BootEnv α} {g : BootGeometry}

/-- From `n` on the buffer is as it was, and so is it after what is still to be read. -/
structure ReadOn (n : Nat) (buf : Nat → α) (s : ReadState α) : Prop where
  same : ∀ i, n ≤ i → s.buf i = buf i
  room : s.res = 0 → s.count ≠ 0 → s.bufp + s.count ≤ n

theorem readHead_readOn {spp r count pg : Nat} {buf : Nat → α} {dev : BootDev α} (hr : r < spp)
    (hlt : r + count < 2 ^ 32) :
    ReadOn count buf (readHead env g spp r ⟨dev, 0, pg, count, buf, 0⟩) := by
  unfold readHead
  by_cases hpos : r > 0
  · rw [if_pos hpos]
    dsimp only
    generalize readPageNo env g dev pg = page
    by_cases hres : page.2.1 = 0
    · rw [if_pos hres, u32_of_lt hlt]
      by_cases hshort : r + count < spp
      · rw [if_pos hshort]
        refine ⟨fun i hi => ?_, fun _ h => absurd rfl h⟩
        dsimp only
        exact store_out (.inr (by omega))
      · rw [if_neg hshort, sub32_of_le (by omega) (by omega)]
        refine ⟨fun i hi => ?_, fun _ _ => by dsimp only; omega⟩
        dsimp only
        exact store_out (.inr (by omega))
    · rw [if_neg hres]
      exact ⟨fun _ _ => rfl, fun h => absurd h hres⟩
  · rw [if_neg hpos]
    exact ⟨fun _ _ => rfl, fun _ _ => by dsimp only; omega⟩

/-- Whole pages, with `t` sectors to come after them. -/
theorem readWhole_inside {spp n t : Nat} {buf : Nat → α} : ∀ {k : Nat} {s : ReadState α},
    (∀ i, n ≤ i → s.buf i = buf i) → (s.res = 0 → k ≠ 0 ∨ t ≠ 0 → s.bufp + k * spp + t ≤ n) →
      (∀ i, n ≤ i → (readWhole env g spp k s).buf i = buf i) ∧
        ((readWhole env g spp k s).res = 0 → t ≠ 0 → (readWhole env g spp k s).bufp + t ≤ n)
  | 0, s, hsame, hroom => ⟨hsame, fun h ht => by
      have := hroom h (.inr ht)
      rw [Nat.zero_mul] at this
      exact this⟩
  | k + 1, s, hsame, hroom => by
      unfold readWhole
      by_cases hres : s.res = 0
      · rw [if_pos hres]
        have hfit := hroom hres (.inl (Nat.succ_ne_zero k))
        rw [Nat.add_mul, Nat.one_mul] at hfit
        dsimp only
        refine readWhole_inside (fun i hi => ?_) fun _ _ => by dsimp only; omega
        exact (store_out (.inr (by omega))).trans (hsame i hi)
      · rw [if_neg hres]
        exact ⟨hsame, fun h => absurd h hres⟩

theorem bootareaRead_inside {dev : BootDev α} {first count bootnum : Nat} {buf : Nat → α}
    (hcount : count ≤ 0x10000) {i : Nat} (hi : 0x10000 ≤ i) :
    (bootareaRead env g dev first count buf 0 bootnum).2.2 i = buf i := by
  have hspp := sectcntInPage_pos g bootnum
  have hle : sectcntInPage g bootnum ≤ 2 ^ 15 :=
    (Nat.le_mul_of_pos_right _ g.pages_pos).trans (sectcntInBlock_le g bootnum)
  unfold bootareaRead
  dsimp only
  generalize sectcntInPage g bootnum = spp at hspp hle
  have hr : first % spp < spp := Nat.mod_lt _ hspp
  have hhead := @readHead_readOn α env g spp (first % spp) count
    (u32 (first / spp + bootFirstPage bootnum)) buf dev hr (by omega)
  generalize readHead env g spp (first % spp) _ = s at hhead
  have hdiv := Nat.div_add_mod s.count spp
  have hwhole := @readWhole_inside α env g spp count (s.count % spp) buf (s.count / spp) s hhead.same
    fun hres hmore => by
      have hne : s.count ≠ 0 := fun h0 => by simp [h0] at hmore
      have := hhead.room hres hne
      rw [Nat.mul_comm]
      omega
  generalize readWhole env g spp (s.count / spp) s = s' at hwhole
  have hlast : (readTail env g (s.count % spp) s').buf i = s'.buf i := by
    unfold readTail
    by_cases hmore : s'.res = 0 ∧ s.count % spp > 0
    · rw [if_pos hmore]
      have := hwhole.2 hmore.1 (by omega)
      dsimp only
      split
      · exact store_out (.inr (by omega))
      · rfl
    · rw [if_neg hmore]
  rw [hlast]
  exact hwhole.1 i (by omega)

end Boot

/-! ## Runs -/

/-- A refused header that is kept names no command, or one that the count of received data suits. -/
def KeepsCount (s : RxState) (p : List UInt8) : Prop :=
  s.curCmd.cmd = 0 → p.length = 24 → Rejected p → (decodeHeader p).cmd = 0 ∨
    s.curCmdBytesWritten ≤ (decodeHeader p).datasize ∧ (decodeHeader p).datasize ≤ 0x1000000

/-- A read of no more sectors than fit below the heap, or one that the disk refuses. -/
def ReadFits (diskCap : Nat) (c : Command) : Prop :=
  c.cmd = 0x52 → c.count ≤ 0x10000 ∨
    ¬ (c.param1 = 0 ∨ c.param1 = 1) ∧ diskCap < u32 (u32 c.start + c.count)

/-- A packet that keeps the count and completes no long read. -/
def PacketFits (effect : Command → RxState → RxState) (diskCap : Nat) (s : RxState)
    (p : List UInt8) : Prop :=
  KeepsCount s p ∧
    ∀ c, (diskbootRxHandler effect s p).2.dispatched = some c → ReadFits diskCap c

/-- `BCMD_DISKREAD` stores nothing behind the `0x10000` sectors below the heap, nor before the
buffer, whatever the flash answers. -/
def ReadInside (ar : LogicArchi) (diskCap : Nat) (c : Command) : Prop :=
  c.cmd = 0x52 →
    if c.param1 = 0 ∨ c.param1 = 1 then
      ∀ (α : Type) (env : BootEnv α) (g : BootGeometry) (dev : BootDev α) (buf : Nat → α) (i : Nat),
        0x10000 ≤ i →
          (bootareaRead env g dev (u32 c.start) c.count buf 0 c.param1).2.2 i = buf i
    else
      ∀ (env : NandEnv) (s : Ftl), s.logicalCtl.diskCap = diskCap →
        OutsideSame (0x10000 * 256) s (lmlRead ar env (u32 c.start) c.count s).1.state

section Handler

variable {ar : LogicArchi} {effect : Command → RxState → RxState} {diskCap : Nat} {s : RxState}
  {p : List UInt8}

theorem ReadFits.inside (har : ar.PageFits) {c : Command} (h : ReadFits diskCap c) :
    ReadInside ar diskCap c := by
  intro hcmd
  by_cases harea : c.param1 = 0 ∨ c.param1 = 1
  · rw [if_pos harea]
    have hcount := (h hcmd).resolve_right fun hno => hno.1 harea
    exact fun α env g dev buf i hi => bootareaRead_inside hcount hi
  · rw [if_neg harea]
    intro env s hs
    exact lmlRead_outside har ((h hcmd).imp_right fun hno => by rw [hs]; exact hno.2)

/-- One packet keeps the count, and stores inside the buffer. -/
theorem rx_step_keeps (hs : RxInv s) (hp : KeepsCount s p) :
    RxInv (diskbootRxHandler effect s p).1 ∧ CopyInside (diskbootRxHandler effect s p).2 := by
  by_cases hrej : s.curCmd.cmd = 0 ∧ Rejected p
  · obtain ⟨hidle, hrej⟩ := hrej
    rw [rx_reject effect hidle hrej]
    refine ⟨fun hne => ?_, fun off len h => nomatch h⟩
    by_cases hlen : p.length ≠ 24
    · rw [if_pos hlen] at hne
      exact absurd hidle hne
    · rw [if_neg hlen] at hne ⊢
      exact (hp hidle (not_not.mp hlen) hrej).resolve_left hne
  · exact rx_step_inv hs fun hidle _ h => absurd ⟨hidle, h⟩ hrej

end Handler

/-- In every run of packets that fit, no more data is counted than the pending command has, and
every store of received or read data is inside its buffer. -/
theorem received_inside (ar : LogicArchi) (har : ar.PageFits) (diskCap : Nat)
    (effect : Command → RxState → RxState) (transferBuffer : Nat → UInt8) (ps : List (List UInt8))
    (h : Along (diskbootRxHandler effect) (PacketFits effect diskCap) (rxInit transferBuffer) ps) :
    RxInv (final (diskbootRxHandler effect) (rxInit transferBuffer) ps) ∧
      ∀ o ∈ outputs (diskbootRxHandler effect) (rxInit transferBuffer) ps,
        CopyInside o ∧ ∀ c, o.dispatched = some c → ReadInside ar diskCap c := by
  refine h.outputs_forall _ (fun s p hs hp => ?_) ps _ fun hne => absurd rfl hne
  obtain ⟨hinv, hcopy⟩ := @rx_step_keeps effect s p hs hp.1
  exact ⟨hinv, hcopy, fun c hc => (hp.2 c hc).inside har⟩

/-- A read of eight sectors of the disk. -/
def readCommand : Command := ⟨0x52, 2, 5, 8, []⟩

theorem received_inside_read :
    RxInv (final (diskbootRxHandler fun _ s => s) (rxInit fun _ => 0) [encodeHeader readCommand]) ∧
      ∀ o ∈ outputs (diskbootRxHandler fun _ s => s) (rxInit fun _ => 0) [encodeHeader readCommand],
        CopyInside o ∧ ∀ c, o.dispatched = some c → ReadInside fiveZones 1000 c := by
  refine received_inside fiveZones ⟨by decide, by decide⟩ 1000 (fun _ s => s) (fun _ => 0) _
    ⟨⟨fun _ _ hrej => absurd hrej (by unfold Rejected; decide), fun c hc => ?_⟩, trivial⟩
  have hread : (diskbootRxHandler (fun _ s => s) (rxInit fun _ => 0)
      (encodeHeader readCommand)).2.dispatched = some readCommand := by decide
  rw [hread] at hc
  cases hc
  exact fun _ => .inl (by decide)

/-- A write with 24 bytes of data, then a header that is refused: the 24 bytes count for the
command in it, which has five. -/
theorem refused_header_keeps_count :
    ¬ RxInv (final (diskbootRxHandler fun _ s => s) (rxInit fun _ => 0)
      [encodeHeader ⟨0x57, 2, 5, 0, List.replicate 24 1⟩, List.replicate 24 1, badPing]) := by
  intro h
  have hcount := h (by decide)
  revert hcount
  decide

end Novo7

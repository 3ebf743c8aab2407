import Novo7.PageMapStore

/-!
# Room in a log block

`PMM_GetLogPage` merges a log block that has no page left and asks again. A swap or a simple merge
takes the log block away, and a new one is empty. A move merge keeps it: its current pages are piled
up in their banks. It is chosen only if these are less than a fraction of the block, so even if they
are all in one bank, a line of pages is left behind them (`moved_room`).

`logPage_found` puts this together: where no operation on the flash fails and there is a free block,
`PMM_GetLogPage` gets a page of the log block, and `_write_back_page_map_tbl` one for its table.
-/

namespace Novo7

open Traced

/-! ## Runs without failures -/

/-- No bank reports that its last program or erase has failed. -/
def Ftl.Clear (s : Ftl) : Prop := ∀ bank, s.nand.failed bank = false

theorem Ftl.Clear.setTbls {s : Ftl} (h : s.Clear) (f : BlkTbls → BlkTbls) : (s.setTbls f).Clear := h

/-- The active tables are `t` now. The zone and the slot of the active page map are as before, and
no bank reports a failure. -/
structure Leads (t : BlkTbls) (s s' : Ftl) : Prop where
  tbls : s'.tbls = t
  zone : s'.curMapZone = s.curMapZone
  slot : s'.pageMapCache = s.pageMapCache
  clear : s'.Clear

/-- The tables are as before, too. -/
abbrev Quiet (s s' : Ftl) : Prop := Leads s.tbls s s'

theorem Quiet.refl {s : Ftl} (h : s.Clear) : Quiet s s := ⟨rfl, rfl, rfl, h⟩

namespace Leads

variable {t : BlkTbls} {s s' s'' : Ftl}

theorem quiet (h : Leads t s s') (h' : Quiet s' s'') : Leads t s s'' :=
  ⟨h'.tbls.trans h.tbls, h'.zone.trans h.zone, h'.slot.trans h.slot, h'.clear⟩

theorem trans {t' : BlkTbls} (h : Leads t s s') (h' : Leads t' s' s'') : Leads t' s s'' :=
  ⟨h'.tbls, h'.zone.trans h.zone, h'.slot.trans h.slot, h'.clear⟩

theorem setTbls (h : Leads t s s') (f : BlkTbls → BlkTbls) : Leads (f t) s (s'.setTbls f) where
  tbls := by
    rw [Ftl.tbls, Ftl.setTbls_blkMapCache, ← h.tbls]
  zone := by
    rw [Ftl.curMapZone, Ftl.setTbls_blkMapCache]
    exact h.zone
  slot := h.slot
  clear := h.clear

end Leads

/-- Where no bank reports a failure, the program returns something of the kind `P`, and nothing but
the flash and the buffers is changed. -/
def Completes {α : Type} (P : α → Prop) (m : FtlProg α) : Prop :=
  ∀ s, s.Clear → WP anyRun m (fun a s' => P a ∧ Quiet s s') (fun _ _ => False) s

namespace Completes

variable {α β : Type} {P : α → Prop} {Q : β → Prop} {m : FtlProg α}

/-- The run, for any ends that it leads to. -/
theorem wp {R : α → Ftl → Prop} {F : Int → Ftl → Prop} {s : Ftl} (h : Completes P m)
    (hs : s.Clear) (hR : ∀ a s', P a → Quiet s s' → R a s') : WP anyRun m R F s :=
  (h s hs).mono (fun a s' ha => hR a s' ha.1 ha.2) fun _ _ he => he.elim

theorem bind {f : α → FtlProg β} (h : Completes P m) (hf : ∀ a, P a → Completes Q (f a)) :
    Completes Q (m >>= f) := fun _ hs =>
  WP.bind (h.wp hs fun a _ ha h₁ => (hf a ha).wp h₁.clear fun _ _ hb h₂ => ⟨hb, h₁.quiet h₂⟩)

theorem pure {a : α} (h : P a) : Completes P (pure a : FtlProg α) := fun _ hs =>
  WP.pure ⟨h, .refl hs⟩

theorem get : Completes (fun _ => True) (get : FtlProg Ftl) := fun _ hs =>
  WP.get ⟨trivial, .refl hs⟩

theorem emit (e : Event) : Completes (fun _ => True) (emit e : FtlProg Unit) := fun _ hs =>
  WP.emit fun _ => ⟨trivial, trivial, .refl hs⟩

theorem modify {f : Ftl → Ftl} (h : ∀ s, s.Clear → Quiet s (f s)) :
    Completes (fun _ => True) (modify f : FtlProg Unit) := fun s hs => WP.modify ⟨trivial, h s hs⟩

theorem failIf {c : Prop} [Decidable c] (h : ¬c) :
    Completes (fun _ => True) (failIf c (-1) : FtlProg Unit) := fun _ hs =>
  WP.failIf (fun hc => absurd hc h) fun _ => ⟨trivial, .refl hs⟩

theorem ite {c : Prop} [Decidable c] {m' : FtlProg α} (h : c → Completes P m)
    (h' : ¬c → Completes P m') : Completes P (if c then m else m') := fun s hs =>
  WP.ite (fun hc => h hc s hs) fun hc => h' hc s hs

theorem forRange {n : Nat} {f : Nat → FtlProg Unit} (h : ∀ i, Completes (fun _ => True) (f i)) :
    Completes (fun _ => True) (forRange n f) := fun s hs =>
  (WP.forRange (I := fun _ => Quiet s)
    (fun i _ _ hr => (h i).wp hr.clear fun _ _ _ h₁ => hr.quiet h₁) (.refl hs)).imp
    fun _ _ hr => ⟨trivial, hr⟩

theorem orElse (h : Completes P m) (k : Int → FtlProg α) : Completes P (orElse m k) :=
  fun _ hs => WP.orElse (h.wp hs fun _ _ ha h₁ => ⟨ha, h₁⟩)

/-- A loop that is left in its first round. -/
theorem once {τ : Type} {step : τ → FtlProg (τ ⊕ α)} {x : τ} {a : α}
    (h : Completes (· = Sum.inr a) (step x)) (n : Nat) :
    Completes (· = a) (iterate step (n + 1) x) :=
  .bind h fun _ hr => hr ▸ .pure rfl

end Completes

/-! ## Operations that do not fail -/

section Operations

variable {ar : LogicArchi} {env : NandEnv}

theorem setNand_quiet {f : Ftl → Nand → Nand}
    (h : ∀ s : Ftl, s.Clear → ∀ bank, (f s s.nand).failed bank = false) :
    Completes (fun _ => True) (modify fun s => s.setNand (f s) : FtlProg Unit) :=
  .modify fun s hs => ⟨rfl, rfl, rfl, h s hs⟩

theorem setTempBuf_quiet (f : Ftl → Buf) :
    Completes (fun _ => True) (modify fun s => { s with tempBuf := f s } : FtlProg Unit) :=
  .modify fun _ hs => ⟨rfl, rfl, rfl, hs⟩

/-- The status of a bank that has been right. -/
theorem setFailed_clear {n : Nand} (h : ∀ bank, n.failed bank = false) (bank : Nat) :
    ∀ b, (n.setFailed bank false).failed b = false := fun b => by
  by_cases hb : b = bank
  · rw [hb]
    exact Function.update_self ..
  · exact (Function.update_of_ne hb ..).trans (h b)

variable (henv : env.NoFailure)
include henv

theorem phyPageRead_completes (a : PhyPage) : Completes (·.1 = 0) (phyPageRead env a) := by
  refine .bind .get fun s _ => .bind (.emit _) fun _ _ => .bind (setNand_quiet fun _ hs => hs)
    fun _ _ => ?_
  rw [henv.read]
  exact .pure rfl

theorem phyPageWrite_completes (a : PhyPage) (p : Page) :
    Completes (· = 0) (phyPageWrite env a p) := by
  refine .bind .get fun s _ => .bind (.emit _) fun _ _ => .bind (setNand_quiet fun _ hs => hs)
    fun _ _ => ?_
  rw [henv.prog]
  exact .bind (setNand_quiet fun _ hs => setFailed_clear hs _) fun _ _ => .pure rfl

theorem phyBlockErase_completes (a : PhyPage) :
    Completes (fun _ => True) (phyBlockErase env a) := by
  refine .bind .get fun s _ => .bind (.emit _) fun _ _ => .bind (setNand_quiet fun _ hs => hs)
    fun _ _ => ?_
  rw [henv.erase]
  exact setNand_quiet fun _ hs => setFailed_clear hs _

omit henv in
theorem phySynchBank_completes (bank : Nat) : Completes (· = 0) (phySynchBank bank) := fun s hs =>
  WP.bind (WP.get (WP.pure ⟨by rw [hs bank]; rfl, .refl hs⟩))

theorem phyPageCopyback_completes (src dst : PhyPage) :
    Completes (· = 0) (phyPageCopyback ar env src dst) := by
  refine .ite (fun _ => .bind (phyPageRead_completes henv src) fun x hx => ?_) fun _ =>
    .bind .get fun _ _ => phyPageWrite_completes henv _ _
  obtain ⟨ret, p⟩ := x
  cases hx
  exact .bind (setTempBuf_quiet _) fun _ _ => .ite (fun hneg => absurd hneg (by decide)) fun _ =>
    phyPageWrite_completes henv dst p

omit henv in
theorem synchBanks_completes : ∀ i n, Completes (· = 0) (synchBanks i n)
  | _, 0 => .pure rfl
  | i, n + 1 => .bind (phySynchBank_completes i) fun ret hret => by
      rw [hret]
      exact .ite (fun hneg => absurd hneg (by decide)) fun _ => synchBanks_completes (i + 1) n

theorem lmlVirtualBlkErase_completes (z b : Nat) :
    Completes (· = 0) (lmlVirtualBlkErase ar env z b) :=
  .bind (.forRange fun _ => phyBlockErase_completes henv _) fun _ _ => synchBanks_completes _ _

theorem readTemp_completes (z b page bitmap : Nat) :
    Completes (·.1 = 0) (readTemp ar env z b page bitmap) :=
  .bind (phyPageRead_completes henv _) fun _ hx => .bind (setTempBuf_quiet _) fun _ _ => .pure hx

theorem copyPage0_completes (srcBlk srcPage dstBlk seqPlus : Nat) :
    Completes (fun _ => True) (copyPage0 ar env srcBlk srcPage dstBlk seqPlus) := by
  refine .bind .get fun s _ => .bind (readTemp_completes henv _ _ _ _) fun x hx =>
    .bind (.failIf (by rw [hx]; decide)) fun _ _ => .bind (readTemp_completes henv _ _ _ _)
    fun y hy => .bind (.failIf (by rw [hy]; decide)) fun _ _ => .bind .get fun _ _ =>
    .bind (phyPageWrite_completes henv _ _) fun _ hret => .failIf (not_not.mpr hret)

theorem copyPage_completes (srcBlk srcPage dstBlk dstPage : Nat) :
    Completes (fun _ => True) (copyPage ar env srcBlk srcPage dstBlk dstPage) :=
  .bind .get fun _ _ => .bind (phyPageCopyback_completes henv _ _) fun _ hret =>
    .failIf (not_not.mpr hret)

omit henv in
theorem synchPage_completes (b page : Nat) : Completes (· = 0) (synchPage ar b page) :=
  .bind .get fun _ _ => phySynchBank_completes _

theorem movePageByBuf_completes (logBlk freeBlk srcPage dstPage : Nat) :
    Completes (fun _ => True) (movePageByBuf ar env logBlk freeBlk srcPage dstPage) :=
  .bind .get fun _ _ => .bind (readTemp_completes henv _ _ _ _) fun _ hx =>
    .bind (.failIf (by rw [hx]; decide)) fun _ _ => .bind .get fun _ _ =>
    .bind (phyPageWrite_completes henv _ _) fun _ hret => .failIf (not_not.mpr hret)

/-- Page 0 of the new log block is written. -/
theorem moveManageInfo_completes (logBlk freeBlk : SuperPhyBlk) :
    Completes (· = Sum.inr ()) (moveManageInfo ar env logBlk freeBlk) :=
  .bind .get fun _ _ => .bind (copyPage0_completes henv _ _ _ _) fun _ _ =>
    .bind (synchPage_completes _ _) fun _ hret => .ite (fun hne => absurd hret hne) fun _ =>
      .pure rfl

/-- The data block has its logical information, or gets it. -/
theorem checkDataBlkInfo_completes (nBlk : Nat) :
    Completes (· = Sum.inr ()) (checkDataBlkInfo ar env nBlk ()) := by
  refine .bind .get fun _ _ => .bind (readTemp_completes henv _ _ _ _) fun x _ => .ite (fun _ => ?_)
    fun _ => .pure rfl
  refine .bind .get fun _ _ => .bind (phyPageWrite_completes henv _ _) fun ret hret => ?_
  rw [hret]
  refine .bind (.failIf (by decide)) fun _ _ => .bind (phySynchBank_completes _) fun ret hret => ?_
  rw [hret]
  exact .ite (fun hneg => absurd hneg (by decide)) fun _ => .pure rfl

theorem writeLogBlkInfo_completes (nBlk logPst : Nat) :
    Completes (· = Sum.inr ()) (writeLogBlkInfo ar env nBlk logPst ()) := by
  refine .bind .get fun _ _ => .bind (readTemp_completes henv _ _ _ _) fun x _ => ?_
  refine .bind .get fun _ _ => .bind (phyPageWrite_completes henv _ _) fun ret hret => ?_
  rw [hret]
  refine .bind (.failIf (by decide)) fun _ _ => .bind (phySynchBank_completes _) fun ret hret => ?_
  rw [hret]
  exact .ite (fun hneg => absurd hneg (by decide)) fun _ => .pure rfl

/-! ## The loops over all pages -/

omit henv in
/-- A loop that goes from page to page with one block. -/
theorem pages_complete {step : Nat × SuperPhyBlk → FtlProg ((Nat × SuperPhyBlk) ⊕ SuperPhyBlk)}
    {pageCnt : Nat} {b : SuperPhyBlk}
    (hstep : ∀ p < pageCnt, Completes (· = Sum.inl (p + 1, b)) (step (p, b)))
    (hout : ∀ p, ¬p < pageCnt → Completes (· = Sum.inr b) (step (p, b))) :
    ∀ {fuel p : Nat}, pageCnt - p < fuel → Completes (· = b) (iterate step fuel (p, b))
  | 0, _, hfuel => absurd hfuel (Nat.not_lt_zero _)
  | fuel + 1, p, hfuel => by
      by_cases hp : p < pageCnt
      · refine .bind (hstep p hp) fun r hr => ?_
        rw [hr]
        exact pages_complete hstep hout (by omega)
      · exact .once (hout p hp) fuel

theorem swapRound_completes (dataBlk logBlk : SuperPhyBlk) {p : Nat}
    (hp : p < ar.pageCntOfLogicBlk) :
    Completes (· = Sum.inl (p + 1, logBlk)) (swapRound ar env dataBlk logBlk (p, logBlk)) := by
  rw [swapRound, if_pos hp]
  refine .orElse ?_ _
  exact .bind .get fun _ _ => .bind (copyPage_completes henv _ _ _ _) fun _ _ =>
    .bind (synchPage_completes _ _) fun _ hret => .ite (fun hne => absurd hret hne) fun _ =>
      .pure rfl

theorem simpleRound_completes (dataBlk logBlk : SuperPhyBlk) {p : Nat} {b : SuperPhyBlk}
    (hp : p < ar.pageCntOfLogicBlk) :
    Completes (· = Sum.inl (p + 1, b)) (simpleRound ar env dataBlk logBlk (p, b)) := by
  rw [simpleRound, if_pos hp]
  refine .bind .get fun _ _ => .bind (.ite (fun _ => copyPage0_completes henv _ _ _ _) fun _ =>
    copyPage_completes henv _ _ _ _) fun _ _ => .bind (synchPage_completes _ _) fun _ hret =>
    .ite (fun hne => absurd hret hne) fun _ => .pure rfl

end Operations

/-! ## Free blocks -/

theorem SuperPhyBlk.IsBlk.erased {b : SuperPhyBlk} (h : b.IsBlk) : b.erased.IsBlk := by
  unfold SuperPhyBlk.erased
  split
  · exact ⟨h.1, by assumption⟩
  · exact h

namespace BlkTbls

variable {t : BlkTbls} {cnt : Nat}

/-- There is a free block. -/
def HasFree (t : BlkTbls) (cnt : Nat) : Prop := ∃ i < cnt, (t.freeBlkTbl i).IsBlk

/-- The search goes through all positions. -/
theorem HasFree.found (h : t.HasFree cnt) (item : Nat) :
    (t.findFreeBlk cnt true cnt item none 0xffff).isSome := by
  obtain ⟨i, hi, hblk⟩ := h
  rw [findFreeBlk_eq_select]
  exact RingScan.select_isSome (freeKey_eq_some.mpr ⟨hblk.1, rfl⟩) hblk.2
    (RingScan.mem_visits hi item)

theorem setFreeBlk_logBlkTbl (t : BlkTbls) (cnt : Nat) (b : SuperPhyBlk) :
    (t.setFreeBlk cnt b).logBlkTbl = t.logBlkTbl := by
  unfold setFreeBlk
  split <;> rfl

/-- A block that is put back takes no place of another. -/
theorem HasFree.setFreeBlk (h : t.HasFree cnt) (b : SuperPhyBlk) :
    (t.setFreeBlk cnt b).HasFree cnt := by
  obtain ⟨i, hi, hblk⟩ := h
  unfold BlkTbls.setFreeBlk
  cases hpst : t.emptyFreePst cnt with
  | none => exact ⟨i, hi, hblk⟩
  | some j =>
      have hempty := (emptyFreePst_eq_some hpst).empty
      have hne : i ≠ j := fun heq => hblk.1 (heq ▸ hempty)
      refine ⟨i, hi, ?_⟩
      show (Function.update t.freeBlkTbl j b i).IsBlk
      rwa [Function.update_of_ne hne]

/-- Where one has been taken there is a place for another. -/
theorem setFreeBlk_hasFree {p : Nat} (hp : p < cnt) (hempty : (t.freeBlkTbl p).phyBlkNum = 0xffff)
    {b : SuperPhyBlk} (hb : b.IsBlk) : (t.setFreeBlk cnt b).HasFree cnt := by
  unfold setFreeBlk
  cases hpst : t.emptyFreePst cnt with
  | none =>
      have hfull := freeBlks_card_eq.mp (emptyFreePst_eq_none.mp hpst)
      exact absurd hempty (hfull p hp)
  | some j =>
      refine ⟨j, (emptyFreePst_eq_some hpst).lt, ?_⟩
      show (Function.update t.freeBlkTbl j b j).IsBlk
      rwa [Function.update_self]

end BlkTbls

section Free

variable {ar : LogicArchi} {env : NandEnv} {F : Int → Ftl → Prop} {s : Ftl}

theorem bmmGetFreeBlk_takes (h : s.tbls.HasFree ar.freeBlkCntOfZone) (hs : s.Clear) :
    WP anyRun (bmmGetFreeBlk ar true)
      (fun _ s' => ∃ p < ar.freeBlkCntOfZone, Leads (s.tbls.setFree p .none) s s') F s := by
  refine WP.bind (WP.get ?_)
  dsimp only
  obtain ⟨p, hp⟩ := Option.isSome_iff_exists.mp (h.found (u16 (s.blkMapCache.lastFreeBlkPst + 1)))
  have hcnt : 0 < ar.freeBlkCntOfZone := by
    obtain ⟨i, hi, -⟩ := h
    omega
  have hlt := ((BlkTbls.findFreeBlk_found hcnt hp).resolve_left nofun).1
  rw [if_pos rfl, hp]
  refine WP.bind (WP.emit fun _ => ⟨trivial, WP.bind (WP.modify (WP.pure ⟨p, hlt, ?_⟩))⟩)
  constructor
  · rw [Ftl.tbls, Ftl.blkMapCache_setBlkMapCache]
    rfl
  · rw [Ftl.curMapZone, Ftl.blkMapCache_setBlkMapCache]
    rfl
  · rfl
  · exact hs

/-- A block that is no longer needed is erased, and put back. -/
theorem freeOldBlk_frees (henv : env.NoFailure) (b : SuperPhyBlk) (hs : s.Clear) :
    WP anyRun (freeOldBlk ar env b)
      (fun _ s' => Leads (s.tbls.setFreeBlk ar.freeBlkCntOfZone b.erased) s s') F s := by
  refine WP.bind (WP.get (WP.bind ((lmlVirtualBlkErase_completes henv _ _).wp hs
    fun ret s₁ hret h₁ => WP.bind (WP.when (fun hne => absurd hret hne) fun _ => ?_))))
  have h₂ := h₁.setTbls (·.setFreeBlk ar.freeBlkCntOfZone b.erased)
  exact WP.modify h₂

end Free

/-! ## Log blocks -/

/-- The log block of `nBlk` is at position `pst`, and at no other: one is created only where
`_GetLogBlkPst` has found none. There is a free block, and the logical block has a data block. -/
structure LogReady (ar : LogicArchi) (nBlk pst : Nat) (s : Ftl) : Prop where
  clear : s.Clear
  free : s.tbls.HasFree ar.freeBlkCntOfZone
  data : (bmmGetDataBlk ar s.tbls nBlk).IsBlk
  pst_lt : pst < logBlkCntOfZone
  log : (s.tbls.logBlkTbl pst).logicBlkNum = nBlk
  only : ∀ i < logBlkCntOfZone, (s.tbls.logBlkTbl i).logicBlkNum = nBlk → i = pst

namespace BlkTbls

variable {t : BlkTbls} {nBlk pst : Nat}

theorem logBlkPst_of_only (hlt : pst < logBlkCntOfZone)
    (hlog : (t.logBlkTbl pst).logicBlkNum = nBlk)
    (honly : ∀ i < logBlkCntOfZone, (t.logBlkTbl i).logicBlkNum = nBlk → i = pst) :
    t.logBlkPst nBlk = some pst := by
  unfold logBlkPst
  cases hfind : (List.range logBlkCntOfZone).find? fun i => (t.logBlkTbl i).logicBlkNum = nBlk with
  | none =>
      refine absurd (decide_eq_true hlog) ?_
      exact List.find?_eq_none.mp hfind pst (List.mem_range.mpr hlt)
  | some i =>
      have hi := List.mem_range.mp (List.mem_of_find?_eq_some hfind)
      rw [honly i hi (of_decide_eq_true (List.find?_some hfind :))]

theorem logBlkPst_eq_none (h : ∀ i < logBlkCntOfZone, (t.logBlkTbl i).logicBlkNum ≠ nBlk) :
    t.logBlkPst nBlk = none :=
  List.find?_eq_none.mpr fun i hi hn => h i (List.mem_range.mp hi) (of_decide_eq_true hn)

theorem logBlkPst_isSome (hlt : pst < logBlkCntOfZone)
    (hlog : (t.logBlkTbl pst).logicBlkNum = nBlk) : (t.logBlkPst nBlk).isSome :=
  List.find?_isSome.mpr ⟨pst, List.mem_range.mpr hlt, decide_eq_true hlog⟩

theorem setLogBlk_freeBlkTbl (t : BlkTbls) (nBlk : Nat) (l : LogBlk) :
    (t.setLogBlk nBlk l).freeBlkTbl = t.freeBlkTbl := by
  unfold setLogBlk
  split
  · rfl
  · split <;> rfl

theorem HasFree.congr {t' : BlkTbls} {cnt : Nat} (h : t.HasFree cnt)
    (ht : t'.freeBlkTbl = t.freeBlkTbl) : t'.HasFree cnt := by
  unfold HasFree
  rw [ht]
  exact h

end BlkTbls

namespace LogReady

variable {ar : LogicArchi} {nBlk pst : Nat} {s : Ftl}

theorem found (h : LogReady ar nBlk pst s) : s.tbls.logBlkPst nBlk = some pst :=
  BlkTbls.logBlkPst_of_only h.pst_lt h.log h.only

theorem getLogBlk (h : LogReady ar nBlk pst s) : s.tbls.getLogBlk nBlk = s.tbls.logBlkTbl pst := by
  rw [BlkTbls.getLogBlk, h.found]

/-- The position of the log block is overwritten. -/
theorem setLogBlk (h : LogReady ar nBlk pst s) {t : BlkTbls}
    (ht : t.logBlkTbl = s.tbls.logBlkTbl) (l : LogBlk) :
    (t.setLogBlk nBlk l).logBlkTbl = Function.update s.tbls.logBlkTbl pst l := by
  have hpst : t.logBlkPst nBlk = some pst := by
    rw [BlkTbls.logBlkPst, ht]
    exact h.found
  rw [BlkTbls.setLogBlk, hpst, ← ht]
  rfl

/-- The number of a logical block is not the mark of an empty position. -/
theorem number (h : LogReady ar nBlk pst s) : nBlk ≠ 0xffff := by
  obtain ⟨i, hi, -⟩ := h.free
  have hdata := h.data
  unfold bmmGetDataBlk at hdata
  unfold LogicArchi.freeBlkCntOfZone blockCntOfZone at hi
  split at hdata
  · exact absurd rfl hdata.1
  · omega

end LogReady

/-- After a swap or a simple merge: the log block is gone, the slot of its page map is empty, and
there is a free block. -/
structure LogDropped (ar : LogicArchi) (pst : Nat) (s s' : Ftl) : Prop where
  zone : s'.curMapZone = s.curMapZone
  log : s'.tbls.logBlkTbl = Function.update s.tbls.logBlkTbl pst .none
  slot : s'.pageMapCache.zoneNum = 0xff
  free : s'.tbls.HasFree ar.freeBlkCntOfZone
  clear : s'.Clear

/-- After a move merge: there is another log block in the same position. Behind its last used page
there is room for a page in each bank. -/
structure LogMoved (ar : LogicArchi) (pst : Nat) (s s' : Ftl) : Prop where
  zone : s'.curMapZone = s.curMapZone
  log : ∃ lastUsedPage newLog, lastUsedPage + ar.interleaveBankCnt < ar.pageCntOfLogicBlk ∧
    s'.tbls.logBlkTbl = Function.update s.tbls.logBlkTbl pst
      { s.tbls.logBlkTbl pst with lastUsedPage := lastUsedPage, phyBlk := newLog }
  slotZone : s'.pageMapCache.zoneNum = s.pageMapCache.zoneNum
  slotPst : s'.pageMapCache.logBlkPst = s.pageMapCache.logBlkPst
  clear : s'.Clear

/-! ## Merges that drop the log block -/

section Drop

variable {ar : LogicArchi} {env : NandEnv} {F : Int → Ftl → Prop} {nBlk pst : Nat} {s : Ftl}

/-- The slot of the page map is emptied. -/
theorem pmmClearCurMapTbl_drops {t : BlkTbls} {s' : Ftl} (h : Leads t s s')
    (hlog : t.logBlkTbl = Function.update s.tbls.logBlkTbl pst .none)
    (hfree : t.HasFree ar.freeBlkCntOfZone) :
    WP anyRun pmmClearCurMapTbl (fun _ s'' => LogDropped ar pst s s'') F s' := by
  refine WP.modify ⟨h.zone, ?_, ?_, ?_, h.clear⟩
  · exact (congrArg BlkTbls.logBlkTbl h.tbls).trans hlog
  · rw [Ftl.setPageMapCache_pageMapCache]
  · exact h.tbls.symm ▸ hfree

theorem log2dataSwapMerge_drops (henv : env.NoFailure) (h : LogReady ar nBlk pst s) :
    WP anyRun (log2dataSwapMerge ar env nBlk) (fun _ s' => LogDropped ar pst s s') F s := by
  refine WP.bind (WP.get ?_)
  dsimp only
  refine WP.bind ((pages_complete (fun p hp => swapRound_completes henv _ _ hp) (fun p hp => ?_)
    ?_).wp h.clear fun b s₁ _ h₁ => ?_)
  · rw [swapRound, if_neg hp]
    exact .pure rfl
  · unfold mergeFuel
    omega
  have h₂ := h₁.setTbls (·.setData nBlk (if nBlk > ar.dataBlkCntOfZone then .none else b))
  have h₃ := h₂.setTbls (·.setLogBlk nBlk .none)
  refine WP.bind (WP.modify (WP.bind (WP.modify (WP.bind ((freeOldBlk_frees henv _ h₃.clear).imp
    fun _ s₄ h₄ => pmmClearCurMapTbl_drops (h₃.trans h₄) ?_ ?_)))))
  · rw [BlkTbls.setFreeBlk_logBlkTbl, h₃.tbls]
    exact h.setLogBlk (t := s.tbls.setData nBlk _) rfl .none
  · refine BlkTbls.HasFree.setFreeBlk ?_ _
    rw [h₃.tbls]
    exact h.free.congr (BlkTbls.setLogBlk_freeBlkTbl _ _ _)

theorem free2dataSimpleMerge_drops (henv : env.NoFailure) (h : LogReady ar nBlk pst s) :
    WP anyRun (free2dataSimpleMerge ar env nBlk) (fun _ s' => LogDropped ar pst s s') F s := by
  refine WP.bind (WP.get (WP.bind ((bmmGetFreeBlk_takes h.free h.clear).imp ?_)))
  rintro freeBlk s₁ ⟨p, hp, h₁⟩
  refine WP.bind (WP.get (WP.bind ((Completes.orElse (pages_complete
    (fun p hp => simpleRound_completes henv _ _ hp) (fun p hp => ?_) ?_) _).wp h₁.clear
    fun b s₂ _ hq => ?_)))
  · rw [simpleRound, if_neg hp]
    exact .pure rfl
  · unfold mergeFuel
    omega
  have h₂ := (h₁.quiet hq).setTbls
    (·.setData nBlk (if nBlk > ar.dataBlkCntOfZone then .none else b))
  refine WP.bind (WP.modify (WP.bind ((freeOldBlk_frees henv _ h₂.clear).imp fun _ s₃ h₃ => WP.bind
    ((freeOldBlk_frees henv _ h₃.clear).imp fun _ s₄ h₄ => WP.bind (WP.modify ?_)))))
  have h₅ := (((h₂.trans h₃).trans h₄).setTbls (·.setLogBlk nBlk .none))
  refine pmmClearCurMapTbl_drops h₅ ?_ ?_
  · refine h.setLogBlk ?_ .none
    rw [BlkTbls.setFreeBlk_logBlkTbl, h₃.tbls, BlkTbls.setFreeBlk_logBlkTbl, h₂.tbls]
    rfl
  · refine BlkTbls.HasFree.congr ?_ (BlkTbls.setLogBlk_freeBlkTbl _ _ _)
    refine BlkTbls.HasFree.setFreeBlk ?_ _
    rw [h₃.tbls, h₂.tbls]
    refine BlkTbls.setFreeBlk_hasFree hp ?_ h.data.erased
    show (Function.update s.tbls.freeBlkTbl p .none p).phyBlkNum = 0xffff
    rw [Function.update_self]
    rfl

end Drop

/-! ## The merge that keeps it -/

section Move

variable {ar : LogicArchi} {env : NandEnv} {F : Int → Ftl → Prop} {map : Nat → Nat} {s₀ : Ftl}

/-- Inside a move merge from the page map `map`: only the places of pages in the log block have
changed. -/
structure Moves (map : Nat → Nat) (s s' : Ftl) : Prop where
  tbls : s'.tbls = s.tbls
  zone : s'.curMapZone = s.curMapZone
  slotZone : s'.pageMapCache.zoneNum = s.pageMapCache.zoneNum
  slotPst : s'.pageMapCache.logBlkPst = s.pageMapCache.logBlkPst
  mapped : ∀ p, s'.pageMapTbl p ≠ 0xffff → map p ≠ 0xffff
  clear : s'.Clear

namespace Moves

variable {s s' : Ftl}

theorem start (hs : s.Clear) : Moves s.pageMapTbl s s := ⟨rfl, rfl, rfl, rfl, fun _ hp => hp, hs⟩

theorem quiet (h : Moves map s₀ s) (h' : Quiet s s') : Moves map s₀ s' where
  tbls := h'.tbls.trans h.tbls
  zone := h'.zone.trans h.zone
  slotZone := (congrArg PageMapTblCache.zoneNum h'.slot).trans h.slotZone
  slotPst := (congrArg PageMapTblCache.logBlkPst h'.slot).trans h.slotPst
  mapped p hp := by
    rw [Ftl.pageMapTbl, h'.slot] at hp
    exact h.mapped p hp
  clear := h'.clear

/-- A page gets another place. -/
theorem set (h : Moves map s₀ s) {p : Nat} (hp : map p ≠ 0xffff) (dst : Nat) :
    WP anyRun (pmmSetCurMapPage p dst) (fun _ => Moves map s₀) F s := by
  refine WP.modify ⟨h.tbls, h.zone, ?_, ?_, fun q hq => ?_, h.clear⟩
  · rw [Ftl.setPageMapCache_pageMapCache]
    exact h.slotZone
  · rw [Ftl.setPageMapCache_pageMapCache]
    exact h.slotPst
  · by_cases heq : q = p
    · rw [heq]
      exact hp
    · rw [Ftl.pageMapTbl, Ftl.setPageMapCache_pageMapCache] at hq
      exact h.mapped q (Function.update_of_ne heq dst s.pageMapTbl ▸ hq)

end Moves

theorem validPages_mono (map : Nat → Nat) {m n : Nat} (h : m ≤ n) :
    validPages map m ≤ validPages map n := by
  induction h with
  | refl => exact Nat.le_refl _
  | step _ ih => exact Nat.le_trans ih (Nat.le_add_right _ _)

theorem validPages_lt {p n : Nat} (hp : map p ≠ 0xffff) (h : p < n) :
    validPages map p < validPages map n := by
  refine Nat.lt_of_lt_of_le ?_ (validPages_mono map h)
  rw [validPages, if_pos hp]
  exact Nat.lt_succ_self _

theorem validPages_le (map : Nat → Nat) (n : Nat) : validPages map n ≤ n := by
  induction n with
  | zero => exact Nat.le_refl _
  | succ n ih =>
      rw [validPages]
      split <;> omega

/-- The pages of one bank are piled up: the page behind them is no further on than there are mapped
pages left. -/
theorem moveBankPages_piles (henv : env.NoFailure) (hcnt : 0 < ar.interleaveBankCnt)
    (logBlk freeBlk : SuperPhyBlk) (n : Nat) : ∀ (superPage dstPage : Nat) (s : Ftl),
      Moves map s₀ s →
      BankPages ar n superPage →
      WP anyRun (moveBankPages ar env logBlk freeBlk n superPage dstPage)
        (fun r s' => (∃ d, r = .inr d ∧ d ≤ dstPage + ar.interleaveBankCnt *
          (validPages map ar.pageCntOfLogicBlk - validPages map superPage)) ∧ Moves map s₀ s')
        F s := by
  induction n with
  | zero => exact fun _ dstPage _ h _ => WP.pure ⟨⟨dstPage, rfl, Nat.le_add_right _ _⟩, h⟩
  | succ n ih =>
      intro superPage dstPage s h hlast
      obtain ⟨hsuper, hlast'⟩ := hlast.step
      refine WP.bind (WP.get (WP.ite (fun _ => ?_) fun hsrc => ?_))
      · refine (ih _ dstPage s h hlast').imp ?_
        rintro r s' ⟨⟨d, rfl, hd⟩, hmoves⟩
        refine ⟨⟨d, rfl, Nat.le_trans hd ?_⟩, hmoves⟩
        refine Nat.add_le_add_left (Nat.mul_le_mul_left _ ?_) _
        exact Nat.sub_le_sub_left (validPages_mono map (Nat.le_add_right _ _)) _
      have hmapped := h.mapped superPage hsrc
      have hcopy : Completes (fun _ => True) (if dstPage = 0 then
          copyPage0 ar env logBlk.phyBlkNum (s.pageMapTbl superPage) freeBlk.phyBlkNum 0
        else copyPage ar env logBlk.phyBlkNum (s.pageMapTbl superPage) freeBlk.phyBlkNum dstPage) :=
        .ite (fun _ => copyPage0_completes henv _ _ _ _) fun _ => copyPage_completes henv _ _ _ _
      refine WP.bind (hcopy.wp h.clear fun _ s₁ _ h₁ => WP.bind ((synchPage_completes _ _).wp
        h₁.clear fun ret s₂ hret h₂ => WP.ite (fun hne => absurd hret hne) fun _ => ?_))
      refine WP.bind ((((h.quiet h₁).quiet h₂).set hmapped dstPage).imp fun _ s₃ h₃ => ?_)
      refine (ih _ _ s₃ h₃ hlast').imp ?_
      rintro r s' ⟨⟨d, rfl, hd⟩, hmoves⟩
      refine ⟨⟨d, rfl, Nat.le_trans hd ?_⟩, hmoves⟩
      have hless :=
        validPages_lt hmapped (show superPage < superPage + ar.interleaveBankCnt by omega)
      have htotal := validPages_lt hmapped hsuper
      rw [Nat.add_assoc]
      refine Nat.add_le_add_left ?_ _
      rw [Nat.add_comm, ← Nat.mul_add_one]
      exact Nat.mul_le_mul_left _ (by omega)

/-- What a move merge leaves in use, by the number of pages that it copies. -/
def Piled (ar : LogicArchi) (map : Nat → Nat) (lastUsedPage : Nat) : Prop :=
  lastUsedPage ≤ ar.interleaveBankCnt * validPages map ar.pageCntOfLogicBlk - 1

theorem moveBanks_piles (henv : env.NoFailure) (logBlk freeBlk : SuperPhyBlk) (n : Nat) :
    ∀ (bank lastUsedPage : Nat) (s : Ftl), Moves map s₀ s → bank + n ≤ ar.interleaveBankCnt →
      Piled ar map lastUsedPage →
      WP anyRun (moveBanks ar env logBlk freeBlk n bank lastUsedPage)
        (fun r s' => (∃ l, r = .inr l ∧ Piled ar map l) ∧ Moves map s₀ s') F s := by
  induction n with
  | zero => exact fun _ lastUsedPage _ h _ hpiled => WP.pure ⟨⟨lastUsedPage, rfl, hpiled⟩, h⟩
  | succ n ih =>
      intro bank lastUsedPage s h hbank hpiled
      refine WP.bind ((moveBankPages_piles henv (by omega) logBlk freeBlk _ bank bank s h
        (bankPages_all ar (by omega) bank)).imp ?_)
      rintro r s₁ ⟨⟨d, rfl, hd⟩, h₁⟩
      have hinfo : Completes (· = Sum.inr ()) (if bank = 0 ∧ d = 0 then
          moveManageInfo ar env logBlk freeBlk else pure (Sum.inr ())) :=
        .ite (fun _ => moveManageInfo_completes henv _ _) fun _ => .pure rfl
      refine WP.bind (hinfo.wp h₁.clear fun info s₂ hinfo h₂ => ?_)
      rw [hinfo]
      refine ih (bank + 1) _ s₂ (h₁.quiet h₂) (by omega) ?_
      have hmost : ar.interleaveBankCnt * (validPages map ar.pageCntOfLogicBlk -
          validPages map bank) ≤ ar.interleaveBankCnt * validPages map ar.pageCntOfLogicBlk :=
        Nat.mul_le_mul_left _ (Nat.sub_le _ _)
      unfold Piled at hpiled ⊢
      split <;> omega

/-- Page by page, the pages are piled up as they come. -/
theorem moveRounds_pile (henv : env.NoFailure) (hcnt : 0 < ar.interleaveBankCnt)
    (hpages : ar.pageCntOfLogicBlk < 2 ^ 16) (logBlk freeBlk : SuperPhyBlk) {s : Ftl}
    (h : Moves map s₀ s) :
    WP anyRun (iterate (moveRound ar env logBlk) (mergeFuel ar) ⟨0, 0, 0, freeBlk⟩)
      (fun r s' => Piled ar map r.2 ∧ Moves map s₀ s') F s := by
  have hle := validPages_le map ar.pageCntOfLogicBlk
  refine WP.iterate (I := fun x n s => n = ar.pageCntOfLogicBlk - x.superPage ∧
    x.superPage ≤ ar.pageCntOfLogicBlk ∧ x.dstPage ≤ validPages map x.superPage ∧
    x.lastUsedPage ≤ x.dstPage - 1 ∧ Moves map s₀ s) (n := ar.pageCntOfLogicBlk)
    (fun x n s hx => ?_) ?_ ⟨rfl, Nat.zero_le _, Nat.zero_le _, Nat.zero_le _, h⟩
  · obtain ⟨rfl, hsuper, hdst, hlast, h⟩ := hx
    rw [moveRound]
    refine WP.ite (fun hlt => ?_) fun hend => WP.pure ⟨?_, h⟩
    · refine WP.bind (WP.get (WP.ite (fun _ => WP.pure ?_) fun hsrc => ?_))
      · refine ⟨_, ?_, rfl, hlt, Nat.le_trans hdst (validPages_mono map (Nat.le_add_right _ _)),
          hlast, h⟩
        dsimp only
        omega
      have hmapped := h.mapped x.superPage hsrc
      have hcopy : Completes (fun _ => True) (if x.dstPage = 0 then
          copyPage0 ar env logBlk.phyBlkNum (s.pageMapTbl x.superPage) x.freeBlk.phyBlkNum 0
        else movePageByBuf ar env logBlk.phyBlkNum x.freeBlk.phyBlkNum (s.pageMapTbl x.superPage)
          x.dstPage) :=
        .ite (fun _ => copyPage0_completes henv _ _ _ _) fun _ =>
          movePageByBuf_completes henv _ _ _ _
      refine WP.bind (hcopy.wp h.clear fun _ s₁ _ h₁ => WP.bind ((synchPage_completes _ _).wp
        h₁.clear fun ret s₂ hret h₂ => WP.bind (WP.ite (fun hne => absurd hret hne) fun _ =>
          WP.pure ?_)))
      refine WP.bind ((((h.quiet h₁).quiet h₂).set hmapped x.dstPage).imp fun _ s₃ h₃ => WP.pure ?_)
      have hmore := validPages_lt hmapped (Nat.lt_succ_self x.superPage)
      have htotal := validPages_mono map hlt
      have hsuper' : u16 (x.superPage + 1) = x.superPage + 1 := Nat.mod_eq_of_lt (by omega)
      have hdst' : u16 (x.dstPage + 1) = x.dstPage + 1 :=
        Nat.mod_eq_of_lt (show x.dstPage + 1 < 2 ^ 16 by omega)
      refine ⟨_, ?_, rfl, ?_⟩
      · dsimp only
        rw [hsuper']
        omega
      · dsimp only
        rw [hsuper', hdst']
        exact ⟨hlt, Nat.le_trans (Nat.succ_le_succ hdst) hmore, Nat.le_refl _, h₃⟩
    · have hall := validPages_mono map hsuper
      have hbanks := Nat.le_mul_of_pos_left (validPages map ar.pageCntOfLogicBlk) hcnt
      show x.lastUsedPage ≤ _
      omega
  · unfold mergeFuel
    omega

/-- Where a move merge is chosen, a line of pages is left behind the pages that it piles up. -/
theorem moved_room {lastUsedPage : Nat} (h : Piled ar map lastUsedPage)
    (hfew : validPages map ar.pageCntOfLogicBlk <
      ar.pageCntOfLogicBlk / (ar.interleaveBankCnt + 1)) :
    lastUsedPage + ar.interleaveBankCnt < ar.pageCntOfLogicBlk := by
  have hlines : (validPages map ar.pageCntOfLogicBlk + 1) * (ar.interleaveBankCnt + 1) ≤
      ar.pageCntOfLogicBlk :=
    (Nat.le_div_iff_mul_le (Nat.succ_pos _)).mp hfew
  rw [Nat.succ_mul, Nat.mul_succ, Nat.mul_comm] at hlines
  unfold Piled at h
  omega

theorem free2logMoveMerge_moves (henv : env.NoFailure) (hcnt : 0 < ar.interleaveBankCnt)
    (hpages : ar.pageCntOfLogicBlk < 2 ^ 16) {nBlk pst : Nat} {s : Ftl}
    (h : LogReady ar nBlk pst s)
    (hfew : validPages s.pageMapTbl ar.pageCntOfLogicBlk <
      ar.pageCntOfLogicBlk / (ar.interleaveBankCnt + 1)) :
    WP anyRun (free2logMoveMerge ar env nBlk) (fun _ s' => LogMoved ar pst s s') F s := by
  refine WP.bind (WP.get (WP.bind ((bmmGetFreeBlk_takes h.free h.clear).imp ?_)))
  rintro freeBlk s₁ ⟨p, -, h₁⟩
  have hmap : s₁.pageMapTbl = s.pageMapTbl := congrArg PageMapTblCache.pageMapTbl h₁.slot
  have hstart : Moves s.pageMapTbl s₁ s₁ := hmap ▸ Moves.start h₁.clear
  have hloop : WP anyRun (if ar.supportAlignNandBnk = true then
        iterate (movePass ar env (s.tbls.getLogBlk nBlk).phyBlk) (mergeFuel ar) freeBlk
      else iterate (moveRound ar env (s.tbls.getLogBlk nBlk).phyBlk) (mergeFuel ar)
        ⟨0, 0, 0, freeBlk⟩)
      (fun r s' => Piled ar s.pageMapTbl r.2 ∧ Moves s.pageMapTbl s₁ s') (fun _ _ => False) s₁ := by
    refine WP.ite (fun _ => ?_) fun _ => moveRounds_pile henv hcnt hpages _ _ hstart
    refine iterate_once (ar.pageCntOfLogicBlk + ar.freeBlkCntOfZone + 1) ?_
    refine WP.bind ((moveBanks_piles henv _ _ _ 0 0 s₁ hstart (by omega) (Nat.zero_le _)).imp ?_)
    rintro r s₂ ⟨⟨l, rfl, hl⟩, hmoves⟩
    exact WP.pure ⟨_, rfl, hl, hmoves⟩
  refine WP.bind (WP.orElse (hloop.mono ?_ fun _ _ he => he.elim))
  rintro ⟨newLog, lastUsedPage⟩ s₂ ⟨hpiled, h₂⟩
  refine WP.bind ((freeOldBlk_frees henv _ h₂.clear).imp fun _ s₃ h₃ => WP.modify ?_)
  have h₄ := h₃.setTbls (·.setLogBlk nBlk
    { s.tbls.getLogBlk nBlk with lastUsedPage := lastUsedPage, phyBlk := newLog })
  refine ⟨h₄.zone.trans (h₂.zone.trans h₁.zone), ⟨lastUsedPage, newLog, moved_room hpiled hfew, ?_⟩,
    ?_, ?_, h₄.clear⟩
  · refine (congrArg BlkTbls.logBlkTbl h₄.tbls).trans ((h.setLogBlk ?_ _).trans ?_)
    · rw [BlkTbls.setFreeBlk_logBlkTbl, h₂.tbls, h₁.tbls]
      rfl
    · rw [h.getLogBlk]
  · rw [h₄.slot, h₂.slotZone, h₁.slot]
  · rw [h₄.slot, h₂.slotPst, h₁.slot]

end Move

/-! ## The special merge -/

section Room

variable {ar : LogicArchi} {env : NandEnv} {F : Int → Ftl → Prop} {nBlk pst : Nat} {s : Ftl}

theorem lmlMergeLogBlk_done (henv : env.NoFailure) (hcnt : 0 < ar.interleaveBankCnt)
    (hpages : ar.pageCntOfLogicBlk < 2 ^ 16) (h : LogReady ar nBlk pst s) :
    WP anyRun (lmlMergeLogBlk ar env .special nBlk)
      (fun _ s' => LogDropped ar pst s s' ∨ LogMoved ar pst s s') F s := by
  refine WP.bind (WP.get (WP.ite (fun _ => ?_) fun _ => WP.ite (fun hmove => ?_) fun _ => ?_))
  · exact (log2dataSwapMerge_drops henv h).imp fun _ _ hs => .inl hs
  · exact (free2logMoveMerge_moves henv hcnt hpages h hmove.2).imp fun _ _ hs => .inr hs
  · exact (free2dataSimpleMerge_drops henv h).imp fun _ _ hs => .inl hs

/-! ## The page after the merge -/

theorem nextLogPage_empty (hcnt : 0 < ar.interleaveBankCnt) (nPage : Nat) :
    nextLogPage ar nPage 0xffff < ar.pageCntOfLogicBlk := by
  have hmod := Nat.mod_lt nPage hcnt
  have hle := Nat.div_le_self ar.pageCntOfLogicBlk ar.pageCntOfPhyBlk
  change ar.interleaveBankCnt ≤ _ at hle
  rw [nextLogPage]
  split
  · rw [if_pos rfl]
    omega
  · exact Nat.lt_of_lt_of_le hcnt hle

/-- A line of pages is enough in either mode. -/
theorem nextLogPage_room (hcnt : 0 < ar.interleaveBankCnt) (hpages : ar.pageCntOfLogicBlk < 2 ^ 16)
    {lastUsedPage : Nat} (h : lastUsedPage + ar.interleaveBankCnt < ar.pageCntOfLogicBlk)
    (nPage : Nat) : nextLogPage ar nPage lastUsedPage < ar.pageCntOfLogicBlk := by
  have hn := Nat.mod_lt nPage hcnt
  have hl := Nat.mod_lt lastUsedPage hcnt
  rw [nextLogPage, if_neg (show ¬lastUsedPage = 0xffff by omega)]
  unfold u16
  split
  · split
    · rw [Nat.mod_eq_of_lt (by omega)]
      omega
    · rw [Nat.mod_eq_of_lt (by omega)]
      omega
  · rw [Nat.mod_eq_of_lt (by omega)]
    omega

/-! ## Switching to the page map -/

/-- The tables and the zone are as before, and no bank reports a failure. -/
structure TblsKept (s s' : Ftl) : Prop where
  tbls : s'.tbls = s.tbls
  zone : s'.curMapZone = s.curMapZone
  clear : s'.Clear

theorem findSlot_isSome {p : Fin 4 → Bool} {i : Fin 4} (h : p i = true) : (findSlot p).isSome :=
  List.find?_isSome.mpr ⟨i, List.mem_finRange i, h⟩

/-- The active page map is that of position `pst` of the active log block table. -/
def Ftl.HasMapOf (s : Ftl) (pst : Nat) : Prop :=
  s.pageMapCache.zoneNum = s.curMapZone ∧ s.pageMapCache.logBlkPst = pst

/-- A program that is counted as an access. -/
theorem counted_wp {m : FtlProg Unit} {Q : Unit → Ftl → Prop} (h : WP anyRun m Q F s)
    (hF : ∀ e s', F e s' → F e { s' with pageCache := fun i => { s'.pageCache i with
      accessCnt := if i = s'.actPage then 0 else u16 ((s'.pageCache i).accessCnt + 1) } })
    (hQ : ∀ s', Q () s' → Q () { s' with pageCache := fun i => { s'.pageCache i with
      accessCnt := if i = s'.actPage then 0 else u16 ((s'.pageCache i).accessCnt + 1) } }) :
    WP anyRun (counted m calPageTblAccessCount) Q F s :=
  WP.bind (WP.orElse (h.mono (fun _ s' hs' => WP.modify (hQ s' hs')) fun e s' he =>
    WP.bind (WP.modify (WP.fail (hF e s' he)))))

/-- Whatever happens on the way, the page map is the active one in the end. -/
theorem pmmSwitchMapTbl_active (ar : LogicArchi) (env : NandEnv) (pst : Nat) (s : Ftl) :
    WP anyRun (pmmSwitchMapTbl ar env pst) (fun _ s' => s'.HasMapOf pst) (fun _ _ => True) s := by
  refine WP.bind (WP.get (counted_wp ?_ (fun _ _ _ => trivial) fun _ hs' => hs'))
  cases hslot : findSlot fun i =>
      (s.pageCache i).zoneNum = s.curMapZone ∧ (s.pageCache i).logBlkPst = pst with
  | some i =>
      have hmap : (s.pageCache i).zoneNum = s.curMapZone ∧ (s.pageCache i).logBlkPst = pst :=
        of_decide_eq_true (List.find?_some hslot :)
      exact WP.modify hmap
  | none =>
      refine WP.bind ((WP.anyEnd _ _).imp fun _ _ _ => WP.bind ((WP.anyEnd _ _).imp fun _ _ _ =>
        WP.bind ((WP.anyEnd _ _).imp fun _ _ _ => WP.bind ((WP.anyEnd _ _).imp fun _ s' _ =>
          WP.modify ⟨?_, ?_⟩))))
      · rw [Ftl.setPageMapCache_pageMapCache]
        rfl
      · rw [Ftl.setPageMapCache_pageMapCache]

/-- A page map that is active stays in RAM. -/
theorem pmmSwitchMapTbl_kept (hslot : s.HasMapOf pst) (hs : s.Clear) :
    WP anyRun (pmmSwitchMapTbl ar env pst) (fun _ s' => TblsKept s s') (fun _ _ => False) s := by
  refine WP.bind (WP.get (counted_wp ?_ (fun _ _ he => he) fun _ hs' =>
    ⟨hs'.tbls, hs'.zone, hs'.clear⟩))
  obtain ⟨i, hi⟩ := Option.isSome_iff_exists.mp (findSlot_isSome (p := fun i =>
    (s.pageCache i).zoneNum = s.curMapZone ∧ (s.pageCache i).logBlkPst = pst)
    (decide_eq_true hslot))
  rw [hi]
  exact WP.modify ⟨rfl, rfl, hs⟩

/-- For an empty log block no page map has to be written or read, if a slot is empty. -/
theorem pmmSwitchMapTbl_empty (hslot : s.pageMapCache.zoneNum = 0xff)
    (hlast : (s.tbls.logBlkTbl pst).lastUsedPage = 0xffff) (hs : s.Clear) :
    WP anyRun (pmmSwitchMapTbl ar env pst) (fun _ s' => TblsKept s s') (fun _ _ => False) s := by
  refine WP.bind (WP.get (counted_wp ?_ (fun _ _ he => he) fun _ hs' =>
    ⟨hs'.tbls, hs'.zone, hs'.clear⟩))
  cases findSlot fun i =>
      (s.pageCache i).zoneNum = s.curMapZone ∧ (s.pageCache i).logBlkPst = pst with
  | some i => exact WP.modify ⟨rfl, rfl, hs⟩
  | none =>
      obtain ⟨j, hj⟩ := Option.isSome_iff_exists.mp (findSlot_isSome
        (p := fun i => (s.pageCache i).zoneNum = 0xff) (decide_eq_true hslot))
      have hempty : (s.pageCache j).zoneNum = 0xff := of_decide_eq_true (List.find?_some hj :)
      refine WP.bind (WP.modify ?_)
      rw [hj]
      refine WP.bind (WP.bind (WP.get (WP.when (fun hdirty => absurd hempty hdirty.2) fun _ =>
        WP.bind (WP.modify (WP.bind (WP.bind (WP.get (WP.ite (fun _ => WP.modify (WP.modify
          ⟨rfl, rfl, hs⟩)) fun hne => absurd hlast hne))))))))

/-! ## The second attempt -/

/-- A new log block is created in place of the one that has been dropped. -/
theorem createNewLogBlk_empty (henv : env.NoFailure)
    (hpst : (s.tbls.logBlkPst 0xffff).isSome) (hfree : s.tbls.HasFree ar.freeBlkCntOfZone)
    (hs : s.Clear) :
    WP anyRun (createNewLogBlk ar env nBlk)
      (fun pst' s' => (s'.tbls.logBlkTbl pst').lastUsedPage = 0xffff ∧
        s'.pageMapCache = s.pageMapCache ∧ s'.Clear) F s := by
  obtain ⟨i, hi⟩ := Option.isSome_iff_exists.mp hpst
  refine WP.bind (WP.bind (WP.get ?_))
  rw [hi]
  refine WP.pure (WP.bind ((bmmGetFreeBlk_takes hfree hs).imp ?_))
  rintro freeBlk s₁ ⟨p, -, h₁⟩
  have h₂ := h₁.setTbls fun t => t.setLog i ⟨nBlk, 0xffff, freeBlk⟩
  refine WP.bind (WP.modify (WP.bind (((checkDataBlkInfo_completes henv nBlk).once
    (ar.freeBlkCntOfZone + 1)).wp h₂.clear fun _ s₃ _ h₃ => WP.pure ⟨?_, ?_, h₃.clear⟩)))
  · rw [h₃.tbls, h₂.tbls]
    simp only [BlkTbls.setLog, Function.update_self]
  · exact h₃.slot.trans h₂.slot

/-- After a swap or a simple merge. -/
theorem getLogPageForWrite_dropped (henv : env.NoFailure) (hcnt : 0 < ar.interleaveBankCnt)
    (h : LogReady ar nBlk pst s) {s' : Ftl} (hd : LogDropped ar pst s s') (nPage : Nat) :
    WP anyRun (getLogPageForWrite ar env nBlk nPage) (fun r _ => r.1 < ar.pageCntOfLogicBlk)
      (fun _ _ => False) s' := by
  have hnone : s'.tbls.logBlkPst nBlk = none := by
    refine BlkTbls.logBlkPst_eq_none fun i hi heq => ?_
    rw [hd.log] at heq
    by_cases hpst : i = pst
    · rw [hpst, Function.update_self] at heq
      exact h.number heq.symm
    · rw [Function.update_of_ne hpst] at heq
      exact hpst (h.only i hi heq)
  have hempty : (s'.tbls.logBlkPst 0xffff).isSome := by
    refine BlkTbls.logBlkPst_isSome h.pst_lt ?_
    rw [hd.log, Function.update_self]
    rfl
  refine WP.bind (WP.get ?_)
  rw [hnone]
  refine WP.bind ((createNewLogBlk_empty henv hempty hd.free hd.clear).imp ?_)
  rintro pst' s₁ ⟨hlast, hslot, h₁⟩
  refine WP.bind ((pmmSwitchMapTbl_empty (hslot ▸ hd.slot) hlast h₁).imp fun _ s₂ h₂ => ?_)
  refine WP.bind (WP.get ?_)
  rw [h₂.tbls, hlast]
  refine WP.bind (WP.when (fun _ => ?_) fun _ => WP.pure (nextLogPage_empty hcnt nPage))
  exact ((writeLogBlkInfo_completes henv nBlk pst').once (ar.freeBlkCntOfZone + 1)).wp h₂.clear
    fun _ _ _ _ => WP.pure (nextLogPage_empty hcnt nPage)

/-- After a move merge. -/
theorem getLogPageForWrite_moved (hcnt : 0 < ar.interleaveBankCnt)
    (hpages : ar.pageCntOfLogicBlk < 2 ^ 16) (h : LogReady ar nBlk pst s) (hmap : s.HasMapOf pst)
    {s' : Ftl} (hm : LogMoved ar pst s s') (nPage : Nat) :
    WP anyRun (getLogPageForWrite ar env nBlk nPage) (fun r _ => r.1 < ar.pageCntOfLogicBlk)
      (fun _ _ => False) s' := by
  obtain ⟨lastUsedPage, newLog, hroom, hlog⟩ := hm.log
  have hnum (i : Nat) :
      (s'.tbls.logBlkTbl i).logicBlkNum = (s.tbls.logBlkTbl i).logicBlkNum := by
    rw [hlog]
    by_cases hpst : i = pst
    · rw [hpst, Function.update_self]
    · rw [Function.update_of_ne hpst]
  have hfound : s'.tbls.logBlkPst nBlk = some pst :=
    BlkTbls.logBlkPst_of_only h.pst_lt ((hnum pst).trans h.log) fun i hi heq =>
      h.only i hi ((hnum i).symm.trans heq)
  have hmap' : s'.HasMapOf pst :=
    ⟨hm.slotZone.trans (hmap.1.trans hm.zone.symm), hm.slotPst.trans hmap.2⟩
  refine WP.bind (WP.get ?_)
  rw [hfound]
  refine WP.bind (WP.pure (WP.bind ((pmmSwitchMapTbl_kept hmap' hm.clear).imp fun _ s₁ h₁ => ?_)))
  refine WP.bind (WP.get ?_)
  have hlast : (s₁.tbls.logBlkTbl pst).lastUsedPage = lastUsedPage := by
    rw [h₁.tbls, hlog, Function.update_self]
  rw [hlast]
  refine WP.bind (WP.when (fun hempty => ?_) fun _ =>
    WP.pure (nextLogPage_room hcnt hpages hroom nPage))
  have hnone := hempty.1
  omega

/-- If the first attempt has found no page, the page map of the log block is active. -/
theorem getLogPageForWrite_full (env : NandEnv) (hcnt : 0 < ar.interleaveBankCnt) (nBlk nPage : Nat)
    (s : Ftl) :
    WP anyRun (getLogPageForWrite ar env nBlk nPage)
      (fun r s' => ¬r.1 < ar.pageCntOfLogicBlk → s'.HasMapOf r.2) (fun _ _ => True) s := by
  refine WP.bind (WP.get (WP.bind ((WP.anyEnd _ _).imp fun logPst _ _ => WP.bind
    ((pmmSwitchMapTbl_active ar env logPst _).imp fun _ s₁ h₁ => WP.bind (WP.get ?_)))))
  refine WP.bind (WP.when (fun hempty => ?_) fun _ => WP.pure fun _ => h₁)
  have hpage := nextLogPage_empty hcnt nPage
  rw [← hempty.1] at hpage
  exact (WP.anyEnd _ _).imp fun _ _ _ => WP.pure fun hfull => absurd hpage hfull

/-! ## The table of the page map -/

theorem writeTbl_completes (henv : env.NoFailure) (z b page : Nat) (spare : UserData) :
    Completes (· = 0) (writeTbl ar env z b page spare) :=
  .bind .get fun _ _ => .bind (phyPageWrite_completes henv _ _) fun _ _ => phySynchBank_completes _

theorem writePageMapRound_completes (henv : env.NoFailure) (pst tablePage tableBlk : Nat) :
    Completes (· = Sum.inr ()) (writePageMapRound ar env pst tablePage tableBlk) := by
  refine .bind .get fun s _ => .bind (.modify fun _ hs => ⟨rfl, rfl, rfl, hs⟩) fun _ _ => ?_
  exact .bind (writeTbl_completes henv _ _ _ _) fun _ hret => .ite (fun hne => absurd hret hne)
    fun _ => .pure rfl

/-- What is asked of a geometry, where no operation on the flash fails. -/
structure FindsPages (ar : LogicArchi) (env : NandEnv) : Prop where
  /-- When `_GetLogPageForWrite` has found no page, it finds one after the special merge. -/
  again : ∀ nBlk nPage s x s₁, (getLogPageForWrite ar env nBlk nPage s).1 = .ret x s₁ →
    ¬x.1 < ar.pageCntOfLogicBlk → LogReady ar nBlk x.2 s₁ →
    ∃ s₂ y s₃, (lmlMergeLogBlk ar env .special nBlk s₁).1 = .ret () s₂ ∧
      (getLogPageForWrite ar env nBlk nPage s₂).1 = .ret y s₃ ∧ y.1 < ar.pageCntOfLogicBlk
  /-- So `PMM_GetLogPage` gets a page. -/
  write : ∀ nBlk nPage s x s₁, (getLogPageForWrite ar env nBlk nPage s).1 = .ret x s₁ →
    (¬x.1 < ar.pageCntOfLogicBlk → LogReady ar nBlk x.2 s₁) →
    ∃ page s', (pmmGetLogPageWrite ar env nBlk nPage s).1 = .ret page s' ∧
      page < ar.pageCntOfLogicBlk
  /-- When `_write_back_page_map_tbl` finds the log block full, there is no log block after the
  special merge and no table to be written, or it goes to a page behind the last used one. -/
  table : ∀ nBlk pst s, LogReady ar nBlk pst s → s.pageMapCache.zoneNum ≠ 0xff →
    u16 ((s.tbls.logBlkTbl pst).lastUsedPage + 1) = ar.pageCntOfLogicBlk →
    ∃ s₁ s', (lmlMergeLogBlk ar env .special nBlk s).1 = .ret () s₁ ∧
      (writeBackPageMapTbl ar env pst s).1 = .ret () s' ∧
      (s₁.tbls.logBlkTbl pst = .none ∧ s' = s₁ ∨
        u16 ((s₁.tbls.logBlkTbl pst).lastUsedPage + 1) < ar.pageCntOfLogicBlk ∧
        (s'.tbls.logBlkTbl pst).lastUsedPage = u16 ((s₁.tbls.logBlkTbl pst).lastUsedPage + 1))

/-- `PMM_GetLogPage` once it has a page. -/
theorem takeLogPage_returns {x : Nat × Nat} (hx : x.1 < ar.pageCntOfLogicBlk) (nPage : Nat)
    (s : Ftl) :
    WP anyRun (do
      failIf (¬x.1 < ar.pageCntOfLogicBlk) (-1)
      setLogAt x.2 ({ · with lastUsedPage := x.1 })
      modify (·.setPageMapCache fun c =>
        { c with pageMapTbl := Function.update c.pageMapTbl nPage x.1, dirtyFlag := true })
      calLogAccessCnt x.2
      pure x.1) (fun page _ => page < ar.pageCntOfLogicBlk) F s :=
  WP.bind (WP.failIf (fun hge => absurd hx hge) fun _ => WP.bind (WP.modify (WP.bind (WP.modify
    (WP.bind (WP.modify (WP.pure hx)))))))

/-- The table after a merge that leaves the log block. -/
theorem writeBackPageMapTbl_room (henv : env.NoFailure) (h : LogReady ar nBlk pst s)
    (hfull : u16 ((s.tbls.logBlkTbl pst).lastUsedPage + 1) = ar.pageCntOfLogicBlk) {s₁ : Ftl}
    (hmerge : (lmlMergeLogBlk ar env .special nBlk s).1 = .ret () s₁)
    (hdone : LogDropped ar pst s s₁ ∨ LogMoved ar pst s s₁) :
    WP anyRun (writeBackPageMapTbl ar env pst)
      (fun _ s' => s₁.pageMapCache.zoneNum = 0xff ∧ s' = s₁ ∨ s₁.pageMapCache.zoneNum ≠ 0xff ∧
        (s'.tbls.logBlkTbl pst).lastUsedPage = u16 ((s₁.tbls.logBlkTbl pst).lastUsedPage + 1))
      F s := by
  have hclear : s₁.Clear := hdone.elim LogDropped.clear LogMoved.clear
  refine WP.bind (WP.get (WP.bind (WP.when (fun _ => ?_) fun hmore => absurd hfull hmore)))
  rw [h.log]
  refine wp_of_eq hmerge (WP.bind (WP.get (WP.when (fun hkept => ?_) fun hgone => ?_)))
  · refine WP.bind (((writePageMapRound_completes henv pst _ _).once (ar.freeBlkCntOfZone + 1)).wp
      hclear fun _ s₂ _ h₂ => WP.bind (WP.modify (WP.modify (.inr ⟨fun hff => ?_, ?_⟩))))
    · exact hkept ⟨hfull, hff⟩
    have h₃ := h₂.setTbls fun t => t.setLog pst { t.logBlkTbl pst with
      lastUsedPage := u16 ((s₁.tbls.logBlkTbl pst).lastUsedPage + 1) }
    refine (congrArg (fun t : BlkTbls => (t.logBlkTbl pst).lastUsedPage) h₃.tbls).trans ?_
    simp only [BlkTbls.setLog, Function.update_self]
  · exact .inl ⟨(not_not.mp hgone).2, rfl⟩

/-- The second attempt of `PMM_GetLogPage`, behind the special merge. -/
theorem getLogPageForWrite_again (henv : env.NoFailure) (hcnt : 0 < ar.interleaveBankCnt)
    (hpages : ar.pageCntOfLogicBlk < 2 ^ 16) {nPage : Nat} {x : Nat × Nat} {s₁ : Ftl}
    (hfirst : (getLogPageForWrite ar env nBlk nPage s).1 = .ret x s₁)
    (hfull : ¬x.1 < ar.pageCntOfLogicBlk) (h : LogReady ar nBlk x.2 s₁) :
    ∃ s₂ y s₃, (lmlMergeLogBlk ar env .special nBlk s₁).1 = .ret () s₂ ∧
      (getLogPageForWrite ar env nBlk nPage s₂).1 = .ret y s₃ ∧ y.1 < ar.pageCntOfLogicBlk := by
  have hmap : s₁.HasMapOf x.2 := by
    have hends := ends_of_wp (getLogPageForWrite_full env hcnt nBlk nPage s)
    rw [hfirst] at hends
    exact hends hfull
  obtain ⟨_, s₂, hmerge, hdone⟩ := outcome_of_wp (lmlMergeLogBlk_done henv hcnt hpages h)
  have hsecond : WP anyRun (getLogPageForWrite ar env nBlk nPage)
      (fun r _ => r.1 < ar.pageCntOfLogicBlk) (fun _ _ => False) s₂ := by
    rcases hdone with hdropped | hmoved
    · exact getLogPageForWrite_dropped henv hcnt h hdropped nPage
    · exact getLogPageForWrite_moved hcnt hpages h hmap hmoved nPage
  obtain ⟨y, s₃, hy, hlt⟩ := outcome_of_wp hsecond
  exact ⟨s₂, y, s₃, hmerge, hy, hlt⟩

end Room

/-- Where no operation on the flash fails, a write finds a page of the log block, and the page map a
page for its table. -/
theorem logPage_found (ar : LogicArchi) (hcnt : 0 < ar.interleaveBankCnt)
    (hpages : ar.pageCntOfLogicBlk < 2 ^ 16) (env : NandEnv) (henv : env.NoFailure) :
    FindsPages ar env where
  again _ _ _ _ _ := getLogPageForWrite_again henv hcnt hpages
  write nBlk nPage s x s₁ hfirst h := by
    refine outcome_of_wp (WP.bind (wp_of_eq hfirst (WP.bind (WP.ite
      (fun hlt => WP.pure (takeLogPage_returns hlt nPage s₁)) fun hfull => ?_))))
    obtain ⟨s₂, y, s₃, hmerge, hy, hlt⟩ :=
      getLogPageForWrite_again henv hcnt hpages hfirst hfull (h hfull)
    exact WP.bind (wp_of_eq hmerge (wp_of_eq hy (takeLogPage_returns hlt nPage s₃)))
  table nBlk pst s h hslot hfull := by
    obtain ⟨_, s₁, hmerge, hdone⟩ := outcome_of_wp (lmlMergeLogBlk_done henv hcnt hpages h)
    obtain ⟨_, s', hback, hresult⟩ := outcome_of_wp
      (writeBackPageMapTbl_room henv h hfull hmerge hdone)
    refine ⟨s₁, s', hmerge, hback, ?_⟩
    rcases hdone with hdropped | hmoved
    · refine .inl ⟨?_, (hresult.resolve_right fun hkept => hkept.1 hdropped.slot).2⟩
      rw [hdropped.log, Function.update_self]
    · obtain ⟨lastUsedPage, newLog, hroom, hlog⟩ := hmoved.log
      refine .inr ⟨?_, (hresult.resolve_left fun hgone => hslot ?_).2⟩
      · rw [hlog, Function.update_self]
        show u16 (lastUsedPage + 1) < ar.pageCntOfLogicBlk
        rw [u16, Nat.mod_eq_of_lt (by omega)]
        omega
      · exact hmoved.slotZone.symm.trans hgone.1

/-- Two chips that are interleaved, with log pages that are aligned. -/
def alignedBanks : LogicArchi :=
  { fiveZones with
    pageCntOfLogicBlk := 128
    supportExtInterleave := true
    supportAlignNandBnk := true }

/-- The log block of block 7 is full; only one of its pages is current. -/
def fullLogged : Ftl :=
  (fourCached.setTbls (·.setLog 0 ⟨7, 127, ⟨60, 0⟩⟩)).setPageMapCache fun c =>
    { c with zoneNum := 0, logBlkPst := 0, pageMapTbl := fun q => if q = 2 then 126 else 0xffff }

theorem logPage_found_aligned : ∃ page s',
    (pmmGetLogPageWrite alignedBanks faultless 7 5 fullLogged).1 = .ret page s' ∧ page < 128 :=
  (logPage_found alignedBanks (by decide) (by decide) faultless faultless_noFailure).write 7 5
    fullLogged (129, 0) _ rfl fun _ => {
      clear := fun _ => rfl
      free := ⟨0, by decide, by decide, by decide⟩
      data := ⟨by decide, by decide⟩
      pst_lt := by decide
      log := rfl
      only := by decide }

end Novo7

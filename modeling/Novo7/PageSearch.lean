import Novo7.Bisection
import Novo7.FormatNand

/-!
# Searching a block for its last page

Mounting looks for the end of what is written in a block by bisection. `_SearchBlkTblPst` looks for
the newest group of tables in a table block, `_GetLastUsedPage` for the last used page of a log
block. What the block holds is given by the spare areas that its pages deliver.

`searchBlkTblPst_last` says that the newest group is found. `getLastUsedPage_iff` says when the last
used page is: always if the banks are aligned, where the search goes over lines of pages and keeps
the used pages it saw. If they are not, the search keeps every page it probed, used or not, and so
it may end with the first page that is free.
-/

namespace Novo7

open Bisection

/-- `FREE_PAGE_MARK` -/
def freePageMark : Nat := 0xff

/-- `DATA_PAGE_MARK` -/
def dataPageMark : Nat := 0x55

/-! ## The searches -/

/-- A round of `_SearchBlkTblPst`: the first page of a group. -/
def probeGroup (spare : Nat → UserData) (midPage : Int) (_ : Unit) : Bool × Unit :=
  (decide ((spare (midPage * pageCntOfTblGroup).toNat).pageStatus ≠ freePageMark), ())

/-- `_SearchBlkTblPst` -/
def searchBlkTblPst (ar : LogicArchi) (spare : Nat → UserData) : Nat :=
  let r := bisect (probeGroup spare) 0
    ((ar.pageCntOfLogicBlk / pageCntOfTblGroup : Nat) - 1) ()
  (mid r.1 r.2.1 * pageCntOfTblGroup).toNat

/-- The test for a free page in `_GetLastUsedPage`. -/
def UserData.IsFreePage (u : UserData) : Prop :=
  u.pageStatus = freePageMark ∧ u.logicPageNum = 0xffff

instance (u : UserData) : Decidable u.IsFreePage := inferInstanceAs (Decidable (_ ∧ _))

/-- The loop over the first banks of a line: `tmpPageStatus` and `tmpUsedPage`. -/
def readBanks (ar : LogicArchi) (spare : Nat → UserData) (midPage usedPage : Int) : Nat → Nat × Int
  | 0 => (freePageMark, usedPage)
  | bnkNum + 1 =>
      let r := readBanks ar spare midPage usedPage bnkNum
      let page := midPage * ar.interleaveBankCnt + bnkNum
      if (spare page.toNat).IsFreePage then r else (r.1 &&& dataPageMark, page)

/-- A round of `_GetLastUsedPage` with aligned banks: `tmpUsedPage` goes along. -/
def probeLine (ar : LogicArchi) (spare : Nat → UserData) (midPage usedPage : Int) : Bool × Int :=
  let r := readBanks ar spare midPage usedPage ar.interleaveBankCnt
  (decide (r.1 ≠ freePageMark), r.2)

/-- A round without: `tmpUsedPage` is the page in the middle, used or not. -/
def probePage (spare : Nat → UserData) (midPage _usedPage : Int) : Bool × Int :=
  (decide (¬ (spare midPage.toNat).IsFreePage), midPage)

/-- `_GetLastUsedPage` -/
def getLastUsedPage (ar : LogicArchi) (spare : Nat → UserData) : Int :=
  if ar.supportAlignNandBnk then
    (bisect (probeLine ar spare) 0 ((ar.pageCntOfPhyBlk : Int) - 1) 0).2.2
  else
    (bisect (probePage spare) 0 ((ar.pageCntOfLogicBlk : Int) - 1) 0).2.2

/-! ## Used prefixes -/

/-- Of `n` places, the first `k` are the used ones, and there is one. -/
structure UsedFirst (used : Nat → Prop) (n k : Nat) : Prop where
  pos : 0 < k
  le : k ≤ n
  iff : ∀ i < n, used i ↔ i < k

/-- The highest used place of `n`. -/
structure LastUsed (used : Nat → Prop) (n i : Nat) : Prop where
  lt : i < n
  mem : used i
  last : ∀ j < n, used j → j ≤ i

theorem UsedFirst.lastUsed {used : Nat → Prop} {n k : Nat} (h : UsedFirst used n k) :
    LastUsed used n (k - 1) := by
  obtain ⟨hpos, hle, hiff⟩ := h
  refine ⟨by omega, (hiff _ (by omega)).mpr (by omega), fun j hj hused => ?_⟩
  have := (hiff j hj).mp hused
  omega

theorem LastUsed.unique {used : Nat → Prop} {n i j : Nat} (hi : LastUsed used n i)
    (hj : LastUsed used n j) : i = j :=
  le_antisymm (hj.last i hi.lt hi.mem) (hi.last j hj.lt hj.mem)

/-! ## The newest table group -/

/-- The first page of a group is not free. -/
def UsedGroup (spare : Nat → UserData) (group : Nat) : Prop :=
  (spare (group * pageCntOfTblGroup)).pageStatus ≠ freePageMark

/-- Whatever number of groups a block has, and however many of them are used. -/
theorem searchBlkTblPst_last {ar : LogicArchi} {spare : Nat → UserData} {k : Nat}
    (h : UsedFirst (UsedGroup spare) (ar.pageCntOfLogicBlk / pageCntOfTblGroup) k) :
    ∃ group, LastUsed (UsedGroup spare) (ar.pageCntOfLogicBlk / pageCntOfTblGroup) group ∧
      searchBlkTblPst ar spare = group * pageCntOfTblGroup := by
  refine ⟨k - 1, h.lastUsed, ?_⟩
  obtain ⟨hpos, hle, hiff⟩ := h
  have hprobe (i : Int) (hlow : 0 ≤ i)
      (hhigh : i ≤ (ar.pageCntOfLogicBlk / pageCntOfTblGroup : Nat) - 1) (a : Unit) :
      (probeGroup spare i a).1 = true ↔ i < k := by
    obtain ⟨group, rfl⟩ := Int.eq_ofNat_of_zero_le hlow
    have hgroup := hiff group (by omega)
    have hpage : ((group : Int) * pageCntOfTblGroup).toNat = group * pageCntOfTblGroup := by
      omega
    rw [probeGroup, decide_eq_true_iff, hpage]
    exact hgroup.trans (by omega)
  obtain ⟨b, hend, -⟩ := bisect_boundary (I := fun _ _ => True) hprobe
    (fun _ _ _ _ _ _ _ => trivial) (fun _ _ _ _ _ _ _ => trivial) (by omega) (by omega) trivial
  have hmid : mid (k : Int) ((k : Int) - 1) = ((k - 1 : Nat) : Int) := by
    rw [mid, Int.tdiv_eq_ediv_of_nonneg (by omega)]
    omega
  rw [searchBlkTblPst, hend, hmid]
  omega

/-- The spare areas of a block with `n` used pages. -/
def usedPages (n page : Nat) : UserData :=
  if page < n then ⟨0xff, 0x4001, page, dataPageMark⟩ else .blank

/-- Five of 16 groups are used. -/
theorem searchBlkTblPst_last_five :
    ∃ group, LastUsed (UsedGroup (usedPages 20)) (fiveZones.pageCntOfLogicBlk / pageCntOfTblGroup)
        group ∧
      searchBlkTblPst fiveZones (usedPages 20) = group * pageCntOfTblGroup := by
  have h : UsedFirst (UsedGroup (usedPages 20))
      (fiveZones.pageCntOfLogicBlk / pageCntOfTblGroup) 5 :=
    ⟨by decide, by decide, by unfold UsedGroup; decide⟩
  exact searchBlkTblPst_last h

/-! ## The last used page -/

/-- The page is not free. -/
def UsedPage (spare : Nat → UserData) (page : Nat) : Prop := ¬ (spare page).IsFreePage

/-- The used pages come first: with aligned banks the first `k` lines are used, each with a page at
least, and no page behind them; else the first `k` pages are. -/
structure UsedPrefix (ar : LogicArchi) (spare : Nat → UserData) (k : Nat) : Prop where
  pos : 0 < k
  lines : ar.supportAlignNandBnk = true → k ≤ ar.pageCntOfPhyBlk ∧
    (∀ line < k, ∃ bank < ar.interleaveBankCnt,
      UsedPage spare (line * ar.interleaveBankCnt + bank)) ∧
    ∀ page < ar.pageCntOfLogicBlk, UsedPage spare page → page / ar.interleaveBankCnt < k
  pages : ar.supportAlignNandBnk = false → UsedFirst (UsedPage spare) ar.pageCntOfLogicBlk k

/-- What the loop over the banks of a line finds: nothing, or the last used page of the line. -/
theorem readBanks_spec (ar : LogicArchi) (spare : Nat → UserData) (line : Nat) (usedPage : Int) :
    ∀ n, ((∀ bank < n, ¬ UsedPage spare (line * ar.interleaveBankCnt + bank)) ∧
        readBanks ar spare line usedPage n = (freePageMark, usedPage)) ∨
      ∃ bank < n, UsedPage spare (line * ar.interleaveBankCnt + bank) ∧
        (∀ b < n, UsedPage spare (line * ar.interleaveBankCnt + b) → b ≤ bank) ∧
        readBanks ar spare line usedPage n =
          (dataPageMark, ((line * ar.interleaveBankCnt + bank : Nat) : Int)) := by
  intro n
  induction n with
  | zero => exact .inl ⟨fun bank hbank => absurd hbank (Nat.not_lt_zero _), rfl⟩
  | succ n ih =>
      have hpage : ((line : Int) * ar.interleaveBankCnt + n).toNat =
          line * ar.interleaveBankCnt + n := by
        rw [← Int.natCast_mul, ← Int.natCast_add, Int.toNat_natCast]
      rw [readBanks, hpage]
      by_cases hfree : (spare (line * ar.interleaveBankCnt + n)).IsFreePage
      · have hnot : ¬ UsedPage spare (line * ar.interleaveBankCnt + n) := fun h => h hfree
        rw [if_pos hfree]
        rcases ih with ⟨hnone, hr⟩ | ⟨bank, hbank, hused, hlast, hr⟩
        · refine .inl ⟨fun b hb => ?_, hr⟩
          rcases Nat.lt_succ_iff_lt_or_eq.mp hb with hlt | rfl
          · exact hnone b hlt
          · exact hnot
        · refine .inr ⟨bank, by omega, hused, fun b hb hb' => ?_, hr⟩
          rcases Nat.lt_succ_iff_lt_or_eq.mp hb with hlt | rfl
          · exact hlast b hlt hb'
          · exact absurd hb' hnot
      · rw [if_neg hfree]
        refine .inr ⟨n, Nat.lt_succ_self n, hfree, fun b hb _ => Nat.lt_succ_iff.mp hb, ?_⟩
        have hmark : (readBanks ar spare line usedPage n).1 &&& dataPageMark = dataPageMark := by
          rcases ih with ⟨-, hr⟩ | ⟨bank, -, -, -, hr⟩
          · rw [hr]
            exact (by decide : freePageMark &&& dataPageMark = dataPageMark)
          · rw [hr]
            exact Nat.and_self _
        rw [hmark]
        push_cast
        rfl

theorem linePage_lt {ar : LogicArchi} {line bank : Nat} (hline : line < ar.pageCntOfPhyBlk)
    (hbank : bank < ar.interleaveBankCnt) :
    line * ar.interleaveBankCnt + bank < ar.pageCntOfLogicBlk := by
  have hle : ar.pageCntOfPhyBlk * ar.interleaveBankCnt ≤ ar.pageCntOfLogicBlk :=
    Nat.mul_div_le ar.pageCntOfLogicBlk ar.pageCntOfPhyBlk
  have hnext : (line + 1) * ar.interleaveBankCnt ≤ ar.pageCntOfPhyBlk * ar.interleaveBankCnt :=
    Nat.mul_le_mul_right _ hline
  rw [Nat.succ_mul] at hnext
  omega

theorem linePage_div {ar : LogicArchi} {line bank : Nat} (hbank : bank < ar.interleaveBankCnt) :
    (line * ar.interleaveBankCnt + bank) / ar.interleaveBankCnt = line := by
  rw [Nat.mul_comm, Nat.mul_add_div (by omega), Nat.div_eq_of_lt hbank, Nat.add_zero]

/-- `page` is the last used page of the line before `l`. -/
def LastOfLine (ar : LogicArchi) (spare : Nat → UserData) (l page : Int) : Prop :=
  ∀ line : Nat, l = line + 1 → ∃ bank < ar.interleaveBankCnt,
    UsedPage spare (line * ar.interleaveBankCnt + bank) ∧
    (∀ b < ar.interleaveBankCnt, UsedPage spare (line * ar.interleaveBankCnt + b) → b ≤ bank) ∧
    page = ((line * ar.interleaveBankCnt + bank : Nat) : Int)

/-- The last used page of the last used line is the last one of the block. -/
theorem LastOfLine.lastUsed {ar : LogicArchi} {spare : Nat → UserData} {k : Nat} {a : Int}
    (h : LastOfLine ar spare k a) (hpos : 0 < k) (hk : k ≤ ar.pageCntOfPhyBlk)
    (hbehind : ∀ page < ar.pageCntOfLogicBlk, UsedPage spare page →
      page / ar.interleaveBankCnt < k) :
    ∃ page, LastUsed (UsedPage spare) ar.pageCntOfLogicBlk page ∧ a = page := by
  obtain ⟨bank, hbank, hused, hlast, hval⟩ := h (k - 1) (by omega)
  refine ⟨_, ⟨linePage_lt (by omega) hbank, hused, fun q hq hq' => ?_⟩, hval⟩
  have hline := hbehind q hq hq'
  have hqmod : q % ar.interleaveBankCnt < ar.interleaveBankCnt := Nat.mod_lt _ (by omega)
  have hqdiv : q / ar.interleaveBankCnt * ar.interleaveBankCnt + q % ar.interleaveBankCnt = q :=
    Nat.div_add_mod' q _
  rcases Nat.lt_or_ge (q / ar.interleaveBankCnt) (k - 1) with hlt | hge
  · have hnext : (q / ar.interleaveBankCnt + 1) * ar.interleaveBankCnt ≤
        (k - 1) * ar.interleaveBankCnt := Nat.mul_le_mul_right _ hlt
    rw [Nat.succ_mul] at hnext
    omega
  · have heq : q / ar.interleaveBankCnt = k - 1 := by omega
    rw [heq] at hqdiv
    have := hlast _ hqmod (hqdiv.symm ▸ hq')
    omega

/-- With aligned banks the last used page is found: no miss changes what the last hit kept. -/
theorem getLastUsedPage_aligned {ar : LogicArchi} {spare : Nat → UserData} {k : Nat}
    (hal : ar.supportAlignNandBnk = true) (h : UsedPrefix ar spare k) :
    ∃ page, LastUsed (UsedPage spare) ar.pageCntOfLogicBlk page ∧
      getLastUsedPage ar spare = page := by
  have hpos := h.pos
  obtain ⟨hk, hline, hbehind⟩ := h.lines hal
  have hfree {line : Nat} (hused : line < ar.pageCntOfPhyBlk) {bank : Nat}
      (hbank : bank < ar.interleaveBankCnt)
      (hpage : UsedPage spare (line * ar.interleaveBankCnt + bank)) : line < k := by
    have hlt := hbehind _ (linePage_lt hused hbank) hpage
    rwa [linePage_div hbank] at hlt
  have hprobe (i : Int) (hlow : 0 ≤ i) (hhigh : i ≤ (ar.pageCntOfPhyBlk : Int) - 1) (a : Int) :
      (probeLine ar spare i a).1 = true ↔ i < k := by
    obtain ⟨line, rfl⟩ := Int.eq_ofNat_of_zero_le hlow
    rw [probeLine, decide_eq_true_iff]
    rcases readBanks_spec ar spare line a ar.interleaveBankCnt with
      ⟨hnone, hr⟩ | ⟨bank, hbank, hused, -, hr⟩
    · rw [hr]
      refine iff_of_false (fun hne => hne rfl) (fun hlt => ?_)
      obtain ⟨bank, hbank, hused⟩ := hline line (by omega)
      exact hnone bank hbank hused
    · rw [hr]
      refine iff_of_true (show dataPageMark ≠ freePageMark by decide) ?_
      have := hfree (by omega) hbank hused
      omega
  -- a hit keeps the last used page of its line
  have hhit (l i a : Int) (_ : l ≤ i) (hlow : 0 ≤ i) (hik : i < k) (_ : LastOfLine ar spare l a) :
      LastOfLine ar spare (i + 1) (probeLine ar spare i a).2 := by
    obtain ⟨line, rfl⟩ := Int.eq_ofNat_of_zero_le hlow
    intro line' hline'
    obtain rfl : line' = line := by omega
    rw [probeLine]
    rcases readBanks_spec ar spare line' a ar.interleaveBankCnt with
      ⟨hnone, hr⟩ | ⟨bank, hbank, hused, hlast, hr⟩
    · obtain ⟨bank, hbank, hused⟩ := hline line' (by omega)
      exact absurd hused (hnone bank hbank)
    · exact ⟨bank, hbank, hused, hlast, by rw [hr]⟩
  -- a miss keeps what there was
  have hmiss (l i a : Int) (_ : l ≤ i) (hhigh : i ≤ (ar.pageCntOfPhyBlk : Int) - 1) (hki : k ≤ i)
      (hI : LastOfLine ar spare l a) : LastOfLine ar spare l (probeLine ar spare i a).2 := by
    obtain ⟨line, rfl⟩ := Int.eq_ofNat_of_zero_le (a := i) (by omega)
    rw [probeLine]
    rcases readBanks_spec ar spare line a ar.interleaveBankCnt with
      ⟨-, hr⟩ | ⟨bank, hbank, hused, -, hr⟩
    · rw [hr]
      exact hI
    · have := hfree (by omega) hbank hused
      omega
  obtain ⟨b, hb, hI⟩ := bisect_boundary (I := LastOfLine ar spare) (a := 0) hprobe hhit hmiss
    (by omega) (by omega) (fun line hline => by omega)
  rw [getLastUsedPage, if_pos hal, hb]
  exact hI.lastUsed hpos hk hbehind

/-- Else the search keeps the page it probed last. -/
theorem getLastUsedPage_pages {ar : LogicArchi} {spare : Nat → UserData} {k : Nat}
    (hal : ar.supportAlignNandBnk = false) (h : UsedPrefix ar spare k) :
    ((k = ar.pageCntOfLogicBlk ∨ Inner ar.pageCntOfLogicBlk k) →
      getLastUsedPage ar spare = k - 1) ∧
    (¬ (k = ar.pageCntOfLogicBlk ∨ Inner ar.pageCntOfLogicBlk k) →
      getLastUsedPage ar spare = k) := by
  obtain ⟨hpos, hle, hiff⟩ := h.pages hal
  have hprobe (i : Nat) (_ : 0 ≤ i) (hi : i < 0 + ar.pageCntOfLogicBlk) (a : Int) :
      probePage spare i a = (decide (i < k), (i : Int)) := by
    have hused : decide (¬ (spare i).IsFreePage) = decide (i < k) :=
      decide_eq_decide.mpr (hiff i (by omega))
    rw [probePage, Int.toNat_natCast, hused]
  have hlatest := bisect_latest (l := 0) (a := 0) ar.pageCntOfLogicBlk (by omega) hprobe
    (Nat.zero_le _) (by omega)
  rw [getLastUsedPage, if_neg (by simp [hal])]
  simpa using hlatest

/-- The answer is right with aligned banks, with no free page, and where the bisection comes to the
first free page while pages below it are left in its window. -/
theorem getLastUsedPage_iff {ar : LogicArchi} {spare : Nat → UserData} {k : Nat}
    (h : UsedPrefix ar spare k) :
    (∃ page, LastUsed (UsedPage spare) ar.pageCntOfLogicBlk page ∧
      getLastUsedPage ar spare = page) ↔
    ar.supportAlignNandBnk = true ∨ k = ar.pageCntOfLogicBlk ∨ Inner ar.pageCntOfLogicBlk k := by
  have hpos := h.pos
  cases hal : ar.supportAlignNandBnk with
  | true => exact iff_of_true (getLastUsedPage_aligned hal h) (.inl rfl)
  | false =>
      obtain ⟨hright, hwrong⟩ := getLastUsedPage_pages hal h
      have hfirst := h.pages hal
      constructor
      · rintro ⟨page, hlast, heq⟩
        refine .inr (by_contra fun hnot => ?_)
        have hpage := hlast.unique hfirst.lastUsed
        have := hwrong hnot
        omega
      · rintro (hal' | hin)
        · cases hal'
        · exact ⟨k - 1, hfirst.lastUsed, by rw [hright hin]; omega⟩

theorem usedPages_usedPrefix {n : Nat} (hpos : 0 < n) (hn : n ≤ 64) :
    UsedPrefix fiveZones (usedPages n) n := by
  refine ⟨hpos, fun h => Bool.noConfusion h, fun _ => ⟨hpos, hn, fun page _ => ?_⟩⟩
  unfold UsedPage usedPages
  split_ifs with hlt
  · refine iff_of_true (fun h => ?_) hlt
    exact absurd h.1 (by decide : dataPageMark ≠ freePageMark)
  · exact iff_of_false (fun h => h ⟨rfl, rfl⟩) hlt

/-- Three used pages: the last one, 2, is found. -/
theorem getLastUsedPage_iff_three :
    (∃ page, LastUsed (UsedPage (usedPages 3)) 64 page ∧
      getLastUsedPage fiveZones (usedPages 3) = page) ↔
    fiveZones.supportAlignNandBnk = true ∨ 3 = 64 ∨ Inner 64 3 :=
  getLastUsedPage_iff (usedPages_usedPrefix (by decide) (by decide))

/-- Two used pages: the answer is 2, a free page. -/
theorem getLastUsedPage_free :
    UsedPrefix fiveZones (usedPages 2) 2 ∧ getLastUsedPage fiveZones (usedPages 2) = 2 ∧
      ¬ ∃ page, LastUsed (UsedPage (usedPages 2)) fiveZones.pageCntOfLogicBlk page ∧
        getLastUsedPage fiveZones (usedPages 2) = page := by
  have hused := usedPages_usedPrefix (n := 2) (by decide) (by decide)
  have hval : getLastUsedPage fiveZones (usedPages 2) = 2 := by
    refine (getLastUsedPage_pages rfl hused).2 ?_
    rintro (h | h)
    · exact absurd h (by decide)
    · exact absurd ((inner_two_pow 6 (by decide)).mp h).1 (by decide)
  refine ⟨hused, hval, ?_⟩
  rintro ⟨page, hlast, heq⟩
  have hpage := hlast.unique (hused.pages rfl).lastUsed
  omega

/-- A block has as many pages as a power of two: the answer is right for odd `k` but the last. -/
theorem getLastUsedPage_iff_odd {ar : LogicArchi} {spare : Nat → UserData} {k r : Nat}
    (h : UsedPrefix ar spare k) (hal : ar.supportAlignNandBnk = false)
    (hr : ar.pageCntOfLogicBlk = 2 ^ r) :
    getLastUsedPage ar spare = k - 1 ↔
      k = ar.pageCntOfLogicBlk ∨ k % 2 = 1 ∧ k + 1 ≠ ar.pageCntOfLogicBlk := by
  have hpos := h.pos
  obtain ⟨hright, hwrong⟩ := getLastUsedPage_pages hal h
  obtain ⟨-, hle, -⟩ := h.pages hal
  have hcond : (k = ar.pageCntOfLogicBlk ∨ Inner ar.pageCntOfLogicBlk k) ↔
      k = ar.pageCntOfLogicBlk ∨ k % 2 = 1 ∧ k + 1 ≠ ar.pageCntOfLogicBlk := by
    rcases Nat.lt_or_eq_of_le hle with hlt | heq
    · rw [hr] at hlt ⊢
      rw [inner_two_pow r hlt]
    · exact iff_of_true (.inl heq) (.inl heq)
  rw [← hcond]
  refine ⟨fun heq => by_contra fun hnot => ?_, hright⟩
  have := hwrong hnot
  omega

end Novo7

import Novo7.BootAreaWrite
import Novo7.FlashGeometry
import Novo7.Footprint

/-!
# The blocks of the boot areas

`bootarea_read` and `bootarea_write` touch no block outside an area for a range inside it: the
pages of a range are in the blocks it covers, and a block that is completed is one of these.
Whether the areas as the host is told stay clear of the blocks of the flash translation layer is
then a matter of where they end: `bootAreas_apart_iff`.
-/

namespace Novo7

open Machine Buffer Footprint

/-! ## Touched blocks -/

section Blocks

variable {α : Type} {env : BootEnv α} {g : BootGeometry} {B : Nat → Prop} {β : Type}

/-- The program stays within the blocks of `B`. -/
abbrev InBlocks (B : Nat → Prop) (f : BootDev α → BootDev α × β) : Prop :=
  Within BootDev.flash BootDev.ops B f

theorem readSinglePage_within {block page : Nat} (hB : B block) :
    InBlocks B fun dev => readSinglePage env dev block page := by
  refine ⟨fun _ _ _ => rfl, fun dev dev' h => ?_⟩
  have hops := h.rest
  have hpage : pageContent env dev.flash block page = pageContent env dev'.flash block page := by
    funext i
    rw [pageContent, pageContent, h.cell block hB]
  simp only [readSinglePage, hpage, hops]
  exact ⟨trivial, rfl, h.cell⟩

theorem simpleErase_within {block : Nat} (hB : B block) :
    InBlocks B fun dev => simpleErase env dev block := by
  refine ⟨fun dev b hb => ?_, fun dev dev' h => ?_⟩
  · exact Function.update_of_ne (fun he : b = block => hb (he ▸ hB)) _ _
  · have hops := h.rest
    simp only [simpleErase, hops]
    exact ⟨trivial, rfl, update_agree h.cell block _⟩

theorem simpleWrite_within {block page : Nat} (hB : B block) (data : Nat → α) :
    InBlocks B fun dev => simpleWrite env dev block page data := by
  refine ⟨fun dev b hb => ?_, fun dev dev' h => ?_⟩
  · exact Function.update_of_ne (fun he : b = block => hb (he ▸ hB)) _ _
  · have hops := h.rest
    simp only [simpleWrite, hops, h.cell block hB]
    exact ⟨trivial, rfl, update_agree h.cell block _⟩

theorem writePages_within {spp block : Nat} (hB : B block) (data : Nat → α) : ∀ page n,
    InBlocks B fun dev => writePages env spp block data page n dev
  | _, 0 => Within.pure _
  | page, n + 1 =>
      Within.bind'
        (k := fun res dev =>
          if res = 0 then writePages env spp block data (page + 1) n dev else (dev, res))
        (simpleWrite_within hB fun i => data (page * spp + i)) fun _ =>
        Within.ite (fun _ => writePages_within hB data (page + 1) n) fun _ => Within.pure _

theorem rewriteBlock_within {spp block : Nat} (hB : B (block % 2 ^ 16)) (data : Nat → α) :
    InBlocks B (rewriteBlock env g spp block data) :=
  Within.bind'
    (k := fun res dev =>
      if res = 0 then writePages env spp (block % 2 ^ 16) data 0 g.pageCntOfPhyBlk dev
      else (dev, res))
    (simpleErase_within hB) fun _ =>
    Within.ite (fun _ => writePages_within hB data 0 _) fun _ => Within.pure _

/-! ## Reading -/

/-- The local variables of `bootarea_read` other than the state of the chip. -/
abbrev ReadVals (α : Type) : Type := Int × Nat × Nat × (Nat → α) × Nat

def ReadState.of (x : ReadVals α) (dev : BootDev α) : ReadState α :=
  ⟨dev, x.1, x.2.1, x.2.2.1, x.2.2.2.1, x.2.2.2.2⟩

def ReadState.parts (s : ReadState α) : BootDev α × ReadVals α :=
  (s.dev, s.res, s.first, s.count, s.buf, s.bufp)

variable {spp lo hi : Nat}

/-- The pages from `lo` to `hi` are in blocks of `B`. -/
def PagesIn (g : BootGeometry) (B : Nat → Prop) (lo hi : Nat) : Prop :=
  ∀ pg, lo ≤ pg → pg < hi → B (pg / g.pageCntOfPhyBlk % 2 ^ 16)

variable (env) in
theorem readPageNo_within (hB : PagesIn g B lo hi) {pg : Nat} (hlo : lo ≤ pg) (hhi : pg < hi) :
    InBlocks B fun dev => readPageNo env g dev pg :=
  readSinglePage_within (hB pg hlo hhi)

variable (env) in
/-- A program that does something with one page it reads. -/
theorem readPageNo_map (hB : PagesIn g B lo hi) {pg : Nat} (hlo : lo ≤ pg) (hhi : pg < hi)
    (v : Int × (Nat → α) → β) :
    InBlocks B fun dev => ((readPageNo env g dev pg).1, v (readPageNo env g dev pg).2) :=
  Within.map (readPageNo_within env hB hlo hhi) v

theorem readHead_within (hB : PagesIn g B lo hi) (bufoff : Nat) (x : ReadVals α)
    (hx : bufoff > 0 → lo ≤ x.2.1 ∧ x.2.1 < hi) :
    InBlocks B fun dev => (readHead env g spp bufoff (.of x dev)).parts := by
  by_cases h : bufoff > 0
  · refine (readPageNo_map env hB (hx h).1 (hx h).2 fun r : Int × (Nat → α) =>
      let bc := if r.1 = 0 then
          if u32 (bufoff + x.2.2.1) < spp then
            (store x.2.2.2.1 x.2.2.2.2 x.2.2.1 fun i => r.2 (bufoff + i), 0)
          else (store x.2.2.2.1 x.2.2.2.2 (spp - bufoff) fun i => r.2 (bufoff + i),
            sub32 x.2.2.1 (spp - bufoff))
        else (x.2.2.2.1, x.2.2.1)
      ((r.1, u32 (x.2.1 + 1), bc.2, bc.1, x.2.2.2.2 + (spp - bufoff)) : ReadVals α)).congr
      fun dev => ?_
    rw [readHead, if_pos h]
    rfl
  · refine (Within.pure x).congr fun dev => ?_
    rw [readHead, if_neg h]
    rfl

theorem readWhole_within (hB : PagesIn g B lo hi) (hlim : hi < 2 ^ 32) : ∀ n (x : ReadVals α),
    (x.1 = 0 → lo ≤ x.2.1 ∧ x.2.1 + n ≤ hi) →
      InBlocks B fun dev => (readWhole env g spp n (.of x dev)).parts
  | 0, x, _ => Within.pure x
  | n + 1, x, hx => by
      by_cases hres : x.1 = 0
      · obtain ⟨hlo, hhi⟩ := hx hres
        have hfirst : u32 (x.2.1 + 1) = x.2.1 + 1 := u32_of_lt (by omega)
        refine (Within.bind'
          (k := fun (r : Int × (Nat → α)) dev => (readWhole env g spp n (.of
            (r.1, u32 (x.2.1 + 1), n, store x.2.2.2.1 x.2.2.2.2 spp r.2, x.2.2.2.2 + spp)
            dev)).parts)
          (readPageNo_within env hB hlo (show x.2.1 < hi by omega)) fun r =>
          readWhole_within hB hlim n _ fun _ => ?_).congr fun dev => ?_
        · simp only [hfirst]
          omega
        · rw [readWhole, if_pos (show (ReadState.of x dev).res = 0 from hres)]
          rfl
      · refine (Within.pure x).congr fun dev => ?_
        rw [readWhole, if_neg (show ¬ (ReadState.of x dev).res = 0 from hres)]
        rfl

theorem readTail_within (hB : PagesIn g B lo hi) (bufoff : Nat) (x : ReadVals α)
    (hx : x.1 = 0 → bufoff > 0 → lo ≤ x.2.1 ∧ x.2.1 < hi) :
    InBlocks B fun dev => (readTail env g bufoff (.of x dev)).parts := by
  by_cases h : x.1 = 0 ∧ bufoff > 0
  · obtain ⟨hlo, hhi⟩ := hx h.1 h.2
    refine (readPageNo_map env hB hlo hhi fun r : Int × (Nat → α) =>
      ((r.1, x.2.1, x.2.2.1, if r.1 = 0 then store x.2.2.2.1 x.2.2.2.2 bufoff r.2 else x.2.2.2.1,
        x.2.2.2.2) : ReadVals α)).congr fun dev => ?_
    rw [readTail, if_pos (show (ReadState.of x dev).res = 0 ∧ bufoff > 0 from h)]
    rfl
  · refine (Within.pure x).congr fun dev => ?_
    rw [readTail, if_neg (show ¬ ((ReadState.of x dev).res = 0 ∧ bufoff > 0) from h)]
    rfl

/-- What is left to read after the first page. -/
theorem readHead_fits {bufoff pg count : Nat} (hoff : bufoff < spp)
    (hfit : spp * pg + bufoff + count ≤ spp * hi) (hlim : spp * hi < 2 ^ 32) (hhi : hi < 2 ^ 32 - 1)
    (dev : BootDev α) (buf : Nat → α) (bufp : Nat) :
    let s := readHead env g spp bufoff ⟨dev, 0, pg, count, buf, bufp⟩
    s.res = 0 → pg ≤ s.first ∧ spp * s.first + s.count ≤ spp * hi := by
  intro s
  by_cases h : bufoff > 0
  · have hpg : pg < hi := Nat.lt_of_mul_lt_mul_left (a := spp) (by omega)
    have hnext : spp * (pg + 1) ≤ spp * hi := Nat.mul_le_mul_left _ hpg
    have hs : s = readHead env g spp bufoff ⟨dev, 0, pg, count, buf, bufp⟩ := rfl
    rw [readHead, if_pos h] at hs
    intro hres
    have hread : (readPageNo env g dev pg).2.1 = 0 := by
      rw [hs] at hres
      exact hres
    simp only [hread, if_true] at hs
    rw [Nat.mul_add, Nat.mul_one] at hnext
    have hfirst : s.first = pg + 1 := by
      rw [hs]
      exact u32_of_lt (by omega)
    rw [hfirst, Nat.mul_add, Nat.mul_one, hs]
    refine ⟨Nat.le_succ _, ?_⟩
    by_cases hshort : u32 (bufoff + count) < spp
    · simp only [if_pos hshort]
      omega
    · simp only [if_neg hshort]
      rw [u32_of_lt (by omega)] at hshort
      rw [sub32_of_le (by omega) (by omega)]
      omega
  · have hs : s = ⟨dev, 0, pg, count, buf, bufp⟩ := by
      show readHead env g spp bufoff _ = _
      rw [readHead, if_neg h]
    rw [hs]
    intro _
    exact ⟨Nat.le_refl _, by simp only; omega⟩

theorem readWhole_first : ∀ {n : Nat} {s : ReadState α}, s.first + n < 2 ^ 32 →
    (readWhole env g spp n s).res = 0 → s.res = 0 ∧ (readWhole env g spp n s).first = s.first + n
  | 0, _, _, hres => ⟨hres, rfl⟩
  | n + 1, s, hlt, hres => by
      rw [readWhole] at hres ⊢
      split at hres
      · next h =>
          rw [if_pos h]
          have hfirst : u32 (s.first + 1) = s.first + 1 := u32_of_lt (by omega)
          obtain ⟨-, hnext⟩ := readWhole_first (n := n) (by simp only [hfirst]; omega) hres
          refine ⟨h, hnext.trans ?_⟩
          simp only [hfirst]
          omega
      · next h => exact absurd hres h

/-- The loop and the last page, for what is left after the first page. -/
theorem readRest_within (hB : PagesIn g B lo hi) (hspp : 0 < spp) (hlim : hi < 2 ^ 32 - 1)
    (x : ReadVals α) (hx : x.1 = 0 → lo ≤ x.2.1 ∧ spp * x.2.1 + x.2.2.1 ≤ spp * hi) :
    InBlocks B fun dev => (readTail env g (x.2.2.1 % spp)
      (readWhole env g spp (x.2.2.1 / spp) (.of x dev))).parts := by
  have hcount := Nat.div_add_mod x.2.2.1 spp
  have hwhole : x.1 = 0 → lo ≤ x.2.1 ∧ x.2.1 + x.2.2.1 / spp ≤ hi := by
    intro hres
    obtain ⟨hlo, hfit⟩ := hx hres
    refine ⟨hlo, Nat.le_of_mul_le_mul_left (c := spp) ?_ hspp⟩
    rw [Nat.mul_add]
    omega
  refine Within.bind (f := fun dev => (readWhole env g spp (x.2.2.1 / spp) (.of x dev)).parts)
    (k := fun y dev => (readTail env g (x.2.2.1 % spp) (.of y dev)).parts)
    (Q := fun y => y.1 = 0 → x.1 = 0 ∧ y.2.1 = x.2.1 + x.2.2.1 / spp)
    (readWhole_within hB (by omega) _ x hwhole) (fun dev hres => ?_)
    fun y hy => readTail_within hB _ y fun hres hoff => ?_
  · by_cases h0 : x.1 = 0
    · have hend : x.2.1 + x.2.2.1 / spp < 2 ^ 32 := Nat.lt_of_le_of_lt (hwhole h0).2 (by omega)
      exact readWhole_first (s := .of x dev) hend hres
    · exfalso
      revert hres
      cases x.2.2.1 / spp with
      | zero => exact h0
      | succ n =>
          simp only [readWhole, if_neg (show ¬ (ReadState.of x dev).res = 0 from h0)]
          exact h0
  · obtain ⟨hres0, hfirst⟩ := hy hres
    obtain ⟨hlo, hfit⟩ := hx hres0
    refine ⟨hfirst ▸ Nat.le_trans hlo (Nat.le_add_right _ _),
      Nat.lt_of_mul_lt_mul_left (a := spp) ?_⟩
    rw [hfirst, Nat.mul_add]
    omega

theorem bootareaRead_within (hB : PagesIn g B lo hi) {first count bootnum : Nat}
    (hlo : lo ≤ bootFirstPage bootnum)
    (hfit : first + sectcntInPage g bootnum * bootFirstPage bootnum + count ≤
      sectcntInPage g bootnum * hi)
    (hlim : sectcntInPage g bootnum * hi < 2 ^ 32) (hhi : hi < 2 ^ 32 - 1)
    (buf : Nat → α) (bufp : Nat) :
    InBlocks B fun dev => bootareaRead env g dev first count buf bufp bootnum := by
  have hspp := sectcntInPage_pos g bootnum
  generalize hs : sectcntInPage g bootnum = spp at hfit hlim hspp
  have hoff := Nat.mod_lt first hspp
  have hdiv := Nat.div_add_mod first spp
  have hstart : spp * (first / spp + bootFirstPage bootnum) + first % spp + count ≤ spp * hi := by
    rw [Nat.mul_add]
    omega
  have hpage : first % spp > 0 → first / spp + bootFirstPage bootnum < hi := fun _ =>
    Nat.lt_of_mul_lt_mul_left (a := spp) (by omega)
  have hu32 : u32 (first / spp + bootFirstPage bootnum) = first / spp + bootFirstPage bootnum := by
    refine u32_of_lt (Nat.lt_of_le_of_lt (Nat.le_of_mul_le_mul_left (c := spp) ?_ hspp)
      (Nat.lt_of_lt_of_le hhi (by decide)))
    omega
  have hread := Within.bind
    (f := fun dev => (readHead env g spp (first % spp)
      (.of (0, first / spp + bootFirstPage bootnum, count, buf, bufp) dev)).parts)
    (k := fun x dev => (readTail env g (x.2.2.1 % spp)
      (readWhole env g spp (x.2.2.1 / spp) (.of x dev))).parts)
    (Q := fun x => x.1 = 0 → lo ≤ x.2.1 ∧ spp * x.2.1 + x.2.2.1 ≤ spp * hi)
    (readHead_within hB _ _ fun h => ⟨Nat.le_trans hlo (Nat.le_add_left _ _), hpage h⟩)
    (fun dev hres => by
      obtain ⟨h1, h2⟩ := readHead_fits hoff hstart hlim hhi dev buf bufp hres
      exact ⟨Nat.le_trans (Nat.le_trans hlo (Nat.le_add_left _ _)) h1, h2⟩)
    fun x hx => readRest_within hB hspp hhi x hx
  refine (hread.map fun x => (x.1, x.2.2.2.1)).congr fun dev => ?_
  simp only [bootareaRead, hs, hu32]
  rfl

/-! ## Writing -/

/-- The local variables of `bootarea_write` other than the state of the chip. -/
abbrev WriteVals (α : Type) : Type := Int × Nat × Nat × Nat × (Nat → α)

def WriteState.of (x : WriteVals α) (dev : BootDev α) : WriteState α :=
  ⟨dev, x.1, x.2.1, x.2.2.1, x.2.2.2.1, x.2.2.2.2⟩

def WriteState.parts (s : WriteState α) : BootDev α × WriteVals α :=
  (s.dev, s.res, s.block, s.count, s.bufp, s.pageCache)

/-- An area of the chip: its blocks from `blo` to `bhi` are in `B`, it starts at a block, and
its end can be counted in sectors. -/
structure AreaIn (g : BootGeometry) (B : Nat → Prop) (bootnum blo bhi : Nat) : Prop where
  mem : ∀ b, blo ≤ b → b < bhi → B (b % 2 ^ 16)
  start : bootFirstPage bootnum = g.pageCntOfPhyBlk * blo
  small : bhi ≤ 2 ^ 16

section Write

variable {bootnum blo bhi : Nat} (hA : AreaIn g B bootnum blo bhi)
include hA

theorem AreaIn.pages : PagesIn g B (g.pageCntOfPhyBlk * blo) (g.pageCntOfPhyBlk * bhi) := by
  intro pg hlo hhi
  refine hA.mem _ ?_ (Nat.div_lt_of_lt_mul hhi)
  rw [Nat.le_div_iff_mul_le g.pages_pos, Nat.mul_comm]
  exact hlo

/-- The end of the area in sectors. -/
theorem AreaIn.end_lt : sectcntInPage g bootnum * (g.pageCntOfPhyBlk * bhi) < 2 ^ 32 := by
  rw [← Nat.mul_assoc]
  calc sectcntInPage g bootnum * g.pageCntOfPhyBlk * bhi
      ≤ 2 ^ 15 * 2 ^ 16 := Nat.mul_le_mul (sectcntInBlock_le g bootnum) hA.small
    _ < 2 ^ 32 := by decide

variable (env) in
/-- A read inside a block of the area, as `bootarea_write` gives its range. -/
theorem readBlock_within {block o n : Nat} (hlo : blo ≤ block) (hhi : block < bhi)
    (hn : o + n ≤ sectcntInPage g bootnum * g.pageCntOfPhyBlk) (buf : Nat → α) (bufp : Nat) :
    InBlocks B fun dev => bootareaRead env g dev
      (u32 (sub32 (block * (sectcntInPage g bootnum * g.pageCntOfPhyBlk))
        (bootFirstPage bootnum * sectcntInPage g bootnum) + o)) n buf bufp bootnum := by
  have hend := hA.end_lt
  have hpages : g.pageCntOfPhyBlk * bhi < 2 ^ 32 - 1 := by
    have hp := Nat.le_of_dvd (by decide) g.pages_dvd
    calc g.pageCntOfPhyBlk * bhi ≤ 0x200 * 2 ^ 16 := Nat.mul_le_mul hp hA.small
      _ < 2 ^ 32 - 1 := by decide
  obtain ⟨k, rfl⟩ := Nat.exists_eq_add_of_le hlo
  rw [← Nat.mul_assoc] at hend
  have hblock := Nat.mul_le_mul_left (sectcntInPage g bootnum * g.pageCntOfPhyBlk)
    (show blo + k + 1 ≤ bhi from hhi)
  have hbase : bootFirstPage bootnum * sectcntInPage g bootnum =
      sectcntInPage g bootnum * g.pageCntOfPhyBlk * blo := by
    rw [hA.start, Nat.mul_comm, Nat.mul_assoc]
  rw [Nat.mul_comm (blo + k), hbase]
  generalize hsib : sectcntInPage g bootnum * g.pageCntOfPhyBlk = sib at hn hend hblock hbase
  simp only [Nat.mul_add, Nat.mul_one] at hblock
  rw [Nat.mul_add, sub32_of_le (by omega) (by omega), Nat.add_sub_cancel_left,
    u32_of_lt (by omega)]
  refine bootareaRead_within hA.pages (Nat.le_of_eq hA.start.symm) ?_ ?_ hpages buf bufp
  · rw [Nat.mul_comm _ (bootFirstPage _), hbase, ← Nat.mul_assoc, hsib]
    omega
  · rw [← Nat.mul_assoc, hsib]
    exact hend

omit hA in
theorem fillRest_short (buf : Nat → α) {bsector : Nat} (s : WriteState α)
    (hcount : bsector + s.count < 2 ^ 32)
    (hshort : bsector + s.count < sectcntInPage g bootnum * g.pageCntOfPhyBlk)
    (pageCache : Nat → α) (dev : BootDev α) {r : BootDev α × Int × (Nat → α)}
    (hr : bootareaRead env g dev
      (u32 (sub32 (s.block * (sectcntInPage g bootnum * g.pageCntOfPhyBlk))
        (bootFirstPage bootnum * sectcntInPage g bootnum) + s.count))
      (sectcntInPage g bootnum * g.pageCntOfPhyBlk - bsector - s.count)
      (store pageCache bsector s.count fun i => buf (s.bufp + i)) (bsector + s.count) bootnum = r) :
    fillRest env g buf bootnum bsector s dev pageCache = (r.1, r.2.1, 0, r.2.2) := by
  rw [fillRest, u32_of_lt hcount, if_pos hshort, hr]

omit hA in
theorem fillRest_long (buf : Nat → α) {bsector : Nat} (s : WriteState α)
    (hcount : bsector + s.count < 2 ^ 32)
    (hlong : ¬ bsector + s.count < sectcntInPage g bootnum * g.pageCntOfPhyBlk)
    (pageCache : Nat → α) (dev : BootDev α) :
    fillRest env g buf bootnum bsector s dev pageCache =
      (dev, 0, sub32 s.count (sectcntInPage g bootnum * g.pageCntOfPhyBlk - bsector),
        store pageCache bsector (sectcntInPage g bootnum * g.pageCntOfPhyBlk - bsector)
          fun i => buf (s.bufp + i)) := by
  rw [fillRest, u32_of_lt hcount, if_neg hlong]

omit hA in
theorem fillHead_eq (buf : Nat → α) (bsector : Nat) (s : WriteState α)
    {r : BootDev α × Int × (Nat → α)}
    (hr : bootareaRead env g s.dev
      (sub32 (s.block * (sectcntInPage g bootnum * g.pageCntOfPhyBlk))
        (bootFirstPage bootnum * sectcntInPage g bootnum)) bsector s.pageCache 0 bootnum = r) :
    fillHead env g buf bootnum bsector s =
      if r.2.1 = 0 then fillRest env g buf bootnum bsector s r.1 r.2.2
      else (r.1, r.2.1, s.count, r.2.2) := by
  rw [fillHead, hr]

theorem fillRest_within (buf : Nat → α) {bsector : Nat} (s : WriteState α)
    (hlo : blo ≤ s.block) (hhi : s.block < bhi) (hcount : bsector + s.count < 2 ^ 32)
    (pageCache : Nat → α) :
    InBlocks B fun dev => fillRest env g buf bootnum bsector s dev pageCache := by
  by_cases hshort : bsector + s.count < sectcntInPage g bootnum * g.pageCntOfPhyBlk
  · exact ((readBlock_within env hA hlo hhi (o := s.count)
      (n := sectcntInPage g bootnum * g.pageCntOfPhyBlk - bsector - s.count) (by omega)
      (store pageCache bsector s.count fun i => buf (s.bufp + i)) (bsector + s.count)).map
      fun r : Int × (Nat → α) => (r.1, (0 : Nat), r.2)).congr
      fun dev => fillRest_short buf s hcount hshort pageCache dev rfl
  · exact (Within.pure _).congr fun dev => fillRest_long buf s hcount hshort pageCache dev

omit hA in
/-- The state of the chip before the first read is not used again. -/
theorem fillRest_of (buf : Nat → α) (bsector : Nat) (x : WriteVals α) (dev dev' d : BootDev α)
    (pageCache : Nat → α) :
    fillRest env g buf bootnum bsector (.of x dev) d pageCache =
      fillRest env g buf bootnum bsector (.of x dev') d pageCache := by
  rw [fillRest, fillRest]
  rfl

theorem fillHead_within (buf : Nat → α) {bsector : Nat} (x : WriteVals α)
    (hbs : bsector ≤ sectcntInPage g bootnum * g.pageCntOfPhyBlk)
    (hlo : blo ≤ x.2.1) (hhi : x.2.1 < bhi) (hcount : bsector + x.2.2.1 < 2 ^ 32) :
    InBlocks B fun dev => fillHead env g buf bootnum bsector (.of x dev) := by
  have hread := readBlock_within env hA hlo hhi (o := 0) (n := bsector) (by omega) x.2.2.2.2 0
  rw [Nat.add_zero, u32_of_lt (sub32_lt _ _)] at hread
  refine (Within.bind'
    (k := fun (r : Int × (Nat → α)) dev =>
      if r.1 = 0 then fillRest env g buf bootnum bsector (.of x ⟨fun _ _ => none, 0⟩) dev r.2
      else (dev, r.1, x.2.2.1, r.2))
    hread fun r => ?_).congr fun dev => ?_
  · refine Within.ite (fun _ => ?_) fun _ => ?_
    · exact fillRest_within hA buf (.of x ⟨fun _ _ => none, 0⟩) hlo hhi hcount r.2
    · exact Within.pure (r.1, x.2.2.1, r.2)
  · refine (fillHead_eq buf bsector (.of x dev) rfl).trans ?_
    rw [fillRest_of buf bsector x dev ⟨fun _ _ => none, 0⟩]
    rfl

omit hA in
/-- What is left to write after the first block. -/
theorem fillHead_count {buf : Nat → α} {bsector : Nat} {s : WriteState α}
    (hcount : bsector + s.count < 2 ^ 32) {r : BootDev α × Int × (Nat → α)}
    (hr : bootareaRead env g s.dev
      (sub32 (s.block * (sectcntInPage g bootnum * g.pageCntOfPhyBlk))
        (bootFirstPage bootnum * sectcntInPage g bootnum)) bsector s.pageCache 0 bootnum = r)
    {d : BootDev α} {res : Int} {count : Nat} {pageCache : Nat → α}
    (hfill : fillHead env g buf bootnum bsector s = (d, res, count, pageCache)) (hres : res = 0) :
    count = if bsector + s.count < sectcntInPage g bootnum * g.pageCntOfPhyBlk then 0
      else s.count - (sectcntInPage g bootnum * g.pageCntOfPhyBlk - bsector) := by
  rw [fillHead_eq buf bsector s hr] at hfill
  by_cases h0 : r.2.1 = 0
  · rw [if_pos h0] at hfill
    by_cases hshort : bsector + s.count < sectcntInPage g bootnum * g.pageCntOfPhyBlk
    · obtain ⟨r', hr'⟩ : ∃ r' : BootDev α × Int × (Nat → α), _ = r' := ⟨_, rfl⟩
      rw [fillRest_short buf s hcount hshort r.2.2 r.1 hr'] at hfill
      rw [if_pos hshort]
      cases hfill
      rfl
    · rw [fillRest_long buf s hcount hshort] at hfill
      rw [if_neg hshort, ← sub32_of_le (by omega) (by omega)]
      cases hfill
      rfl
  · rw [if_neg h0] at hfill
    cases hfill
    exact absurd hres h0

omit hA in
theorem writeHead_eq (buf : Nat → α) {bsector : Nat} (hbs : bsector > 0) (s : WriteState α)
    {d d' : BootDev α} {res res' : Int} {count : Nat} {pageCache : Nat → α}
    (hr : fillHead env g buf bootnum bsector s = (d, res, count, pageCache))
    (hw : (if res = 0 then rewriteBlock env g (sectcntInPage g bootnum) s.block pageCache d
      else (d, res)) = (d', res')) :
    writeHead env g buf bootnum bsector s =
      ⟨d', res', s.block + 1, count,
        s.bufp + (sectcntInPage g bootnum * g.pageCntOfPhyBlk - bsector), pageCache⟩ := by
  rw [writeHead, if_pos hbs, hr]
  dsimp only
  rw [hw]

/-- The first block, done from what completing it in the bounce buffer gave. -/
def headDone (env : BootEnv α) (g : BootGeometry) (bootnum bsector : Nat) (x : WriteVals α)
    (r : Int × Nat × (Nat → α)) (dev : BootDev α) : BootDev α × WriteVals α :=
  let w := if r.1 = 0 then rewriteBlock env g (sectcntInPage g bootnum) x.2.1 r.2.2 dev
    else (dev, r.1)
  (w.1, w.2, x.2.1 + 1, r.2.1,
    x.2.2.2.1 + (sectcntInPage g bootnum * g.pageCntOfPhyBlk - bsector), r.2.2)

omit hA in
theorem writeHead_done (buf : Nat → α) {bsector : Nat} (h : bsector > 0) (x : WriteVals α)
    (dev : BootDev α) {r : BootDev α × Int × Nat × (Nat → α)}
    (hr : fillHead env g buf bootnum bsector (.of x dev) = r) :
    (writeHead env g buf bootnum bsector (.of x dev)).parts =
      headDone env g bootnum bsector x r.2 r.1 := by
  obtain ⟨d, res, count, pageCache⟩ := r
  rw [writeHead_eq buf h (.of x dev) hr (Prod.eta _).symm]
  rfl

theorem writeHead_within (buf : Nat → α) {bsector : Nat} (x : WriteVals α)
    (hbs : bsector ≤ sectcntInPage g bootnum * g.pageCntOfPhyBlk)
    (hx : bsector > 0 → blo ≤ x.2.1 ∧ x.2.1 < bhi) (hcount : bsector + x.2.2.1 < 2 ^ 32) :
    InBlocks B fun dev => (writeHead env g buf bootnum bsector (.of x dev)).parts := by
  by_cases h : bsector > 0
  · obtain ⟨hlo, hhi⟩ := hx h
    refine Within.seq' (fillHead_within hA buf x hbs hlo hhi hcount) (fun r => ?_)
      fun dev r hr => writeHead_done buf h x dev hr
    have hw : InBlocks B fun dev =>
        if r.1 = 0 then rewriteBlock env g (sectcntInPage g bootnum) x.2.1 r.2.2 dev
        else (dev, r.1) :=
      Within.ite (fun _ => rewriteBlock_within (hA.mem _ hlo hhi) r.2.2) fun _ => Within.pure r.1
    exact hw.map fun res => ((res, x.2.1 + 1, r.2.1,
      x.2.2.2.1 + (sectcntInPage g bootnum * g.pageCntOfPhyBlk - bsector), r.2.2) : WriteVals α)
  · refine (Within.pure x).congr fun dev => ?_
    rw [writeHead, if_neg h]
    rfl

/-- The values of a write that has not failed: what is left of the range lies in the area. -/
def LeftIn (g : BootGeometry) (bootnum blo bhi : Nat) (y : WriteVals α) : Prop :=
  y.1 = 0 → blo ≤ y.2.1 ∧ sectcntInPage g bootnum * g.pageCntOfPhyBlk * y.2.1 + y.2.2.1 ≤
    sectcntInPage g bootnum * g.pageCntOfPhyBlk * bhi

theorem headDone_left {buf : Nat → α} {bsector : Nat} (h : bsector > 0) {x : WriteVals α}
    (hlo : blo ≤ x.2.1)
    (hfit : sectcntInPage g bootnum * g.pageCntOfPhyBlk * x.2.1 + bsector + x.2.2.1 ≤
      sectcntInPage g bootnum * g.pageCntOfPhyBlk * bhi) {dev : BootDev α}
    {r : BootDev α × Int × (Nat → α)}
    (hr : bootareaRead env g dev
      (sub32 (x.2.1 * (sectcntInPage g bootnum * g.pageCntOfPhyBlk))
        (bootFirstPage bootnum * sectcntInPage g bootnum)) bsector x.2.2.2.2 0 bootnum = r)
    {f : BootDev α × Int × Nat × (Nat → α)}
    (hf : fillHead env g buf bootnum bsector (.of x dev) = f) :
    LeftIn g bootnum blo bhi (headDone env g bootnum bsector x f.2 f.1).2 := by
  obtain ⟨d, res, count, pageCache⟩ := f
  have hend := hA.end_lt
  rw [← Nat.mul_assoc] at hend
  have hcount := fillHead_count (s := .of x dev)
    (show bsector + x.2.2.1 < 2 ^ 32 by omega) hr hf
  have hblock : x.2.1 < bhi :=
    Nat.lt_of_mul_lt_mul_left (a := sectcntInPage g bootnum * g.pageCntOfPhyBlk) (by omega)
  have hnext := Nat.mul_le_mul_left (sectcntInPage g bootnum * g.pageCntOfPhyBlk)
    (show x.2.1 + 1 ≤ bhi from hblock)
  rw [Nat.mul_add, Nat.mul_one] at hnext
  intro hres
  by_cases h0 : res = 0
  · refine ⟨Nat.le_succ_of_le hlo, ?_⟩
    show sectcntInPage g bootnum * g.pageCntOfPhyBlk * (x.2.1 + 1) + count ≤ _
    have hc := hcount h0
    by_cases hshort : (bsector + x.2.2.1 : Nat) < sectcntInPage g bootnum * g.pageCntOfPhyBlk
    · rw [if_pos (show bsector + (WriteState.of x dev).count < _ from hshort)] at hc
      rw [hc, Nat.mul_add, Nat.mul_one]
      exact hnext
    · rw [if_neg (show ¬ bsector + (WriteState.of x dev).count < _ from hshort)] at hc
      rw [hc, Nat.mul_add, Nat.mul_one]
      show _ + (x.2.2.1 - _) ≤ _
      omega
  · simp only [headDone, if_neg h0] at hres
    exact absurd hres h0

/-- `while( res == 0 && count > 0 )`, over the blocks that are left. -/
theorem writeWhole_within (buf : Nat → α) : ∀ n (x : WriteVals α),
    (x.1 = 0 → blo ≤ x.2.1 ∧ x.2.1 + n ≤ bhi) →
      InBlocks B fun dev =>
        (writeWhole env g (sectcntInPage g bootnum) buf n (.of x dev)).parts
  | 0, x, _ => Within.pure x
  | n + 1, x, hx => by
      by_cases hres : x.1 = 0
      · obtain ⟨hlo, hhi⟩ := hx hres
        refine Within.seq'
          (f := rewriteBlock env g (sectcntInPage g bootnum) x.2.1 fun i => buf (x.2.2.2.1 + i))
          (rewriteBlock_within (hA.mem _ hlo (show x.2.1 < bhi by omega)) _)
          (fun res => writeWhole_within buf n
            (res, x.2.1 + 1, n, x.2.2.2.1 + sectcntInPage g bootnum * g.pageCntOfPhyBlk,
              x.2.2.2.2) fun _ => ⟨Nat.le_succ_of_le hlo, by simp only; omega⟩)
          fun dev r hr => ?_
        rw [writeWhole, if_pos (show (WriteState.of x dev).res = 0 from hres)]
        simp only [WriteState.of, hr]
      · refine (Within.pure x).congr fun dev => ?_
        rw [writeWhole, if_neg (show ¬ (WriteState.of x dev).res = 0 from hres)]
        rfl

omit hA in
theorem writeWhole_block {spp : Nat} {buf : Nat → α} : ∀ {n : Nat} {s : WriteState α},
    (writeWhole env g spp buf n s).res = 0 →
      s.res = 0 ∧ (writeWhole env g spp buf n s).block = s.block + n
  | 0, _, hres => ⟨hres, rfl⟩
  | n + 1, s, hres => by
      rw [writeWhole] at hres ⊢
      split at hres
      · next h =>
          rw [if_pos h]
          obtain ⟨-, hnext⟩ := writeWhole_block hres
          refine ⟨h, hnext.trans ?_⟩
          show s.block + 1 + n = s.block + (n + 1)
          omega
      · next h => exact absurd hres h

omit hA in
theorem writeTail_eq (buf : Nat → α) {bsector : Nat} (s : WriteState α)
    (h : s.res = 0 ∧ bsector > 0) {r : BootDev α × Int × (Nat → α)}
    (hr : bootareaRead env g s.dev
      (u32 (sub32 (s.block * (sectcntInPage g bootnum * g.pageCntOfPhyBlk))
        (bootFirstPage bootnum * sectcntInPage g bootnum) + bsector))
      (sectcntInPage g bootnum * g.pageCntOfPhyBlk - bsector)
      (store s.pageCache 0 bsector fun i => buf (s.bufp + i)) bsector bootnum = r) :
    writeTail env g buf bootnum bsector s =
      if r.2.1 = 0 then rewriteBlock env g (sectcntInPage g bootnum) s.block r.2.2 r.1
      else (r.1, r.2.1) := by
  rw [writeTail, if_pos h, hr]

theorem writeTail_within (buf : Nat → α) {bsector : Nat} (x : WriteVals α)
    (hbs : bsector ≤ sectcntInPage g bootnum * g.pageCntOfPhyBlk)
    (hx : x.1 = 0 → bsector > 0 → blo ≤ x.2.1 ∧ x.2.1 < bhi) :
    InBlocks B fun dev => writeTail env g buf bootnum bsector (.of x dev) := by
  by_cases h : x.1 = 0 ∧ bsector > 0
  · obtain ⟨hlo, hhi⟩ := hx h.1 h.2
    refine Within.seq'
      (k := fun (r : Int × (Nat → α)) dev =>
        if r.1 = 0 then rewriteBlock env g (sectcntInPage g bootnum) x.2.1 r.2 dev
        else (dev, r.1))
      (readBlock_within env hA hlo hhi (o := bsector)
        (n := sectcntInPage g bootnum * g.pageCntOfPhyBlk - bsector) (by omega)
        (store x.2.2.2.2 0 bsector fun i => buf (x.2.2.2.1 + i)) bsector)
      (fun r => Within.ite (fun _ => rewriteBlock_within (hA.mem _ hlo hhi) r.2)
        fun _ => Within.pure r.1)
      fun dev r hr => writeTail_eq buf (.of x dev) h hr
  · refine (Within.pure x.1).congr fun dev => ?_
    rw [writeTail, if_neg (show ¬ ((WriteState.of x dev).res = 0 ∧ bsector > 0) from h)]
    rfl

/-- The loop and the last block, for what is left after the first block. -/
theorem writeRest_within (buf : Nat → α) (x : WriteVals α) (hx : LeftIn g bootnum blo bhi x) :
    InBlocks B fun dev => writeTail env g buf bootnum
      (x.2.2.1 % (sectcntInPage g bootnum * g.pageCntOfPhyBlk))
      (writeWhole env g (sectcntInPage g bootnum) buf
        (x.2.2.1 / (sectcntInPage g bootnum * g.pageCntOfPhyBlk)) (.of x dev)) := by
  have hsib : 0 < sectcntInPage g bootnum * g.pageCntOfPhyBlk :=
    Nat.mul_pos (sectcntInPage_pos g bootnum) g.pages_pos
  have hcount := Nat.div_add_mod x.2.2.1 (sectcntInPage g bootnum * g.pageCntOfPhyBlk)
  unfold LeftIn at hx
  generalize hs : sectcntInPage g bootnum * g.pageCntOfPhyBlk = sib at hx hsib hcount ⊢
  refine Within.seq
    (f := fun dev => (writeWhole env g (sectcntInPage g bootnum) buf (x.2.2.1 / sib)
      (.of x dev)).parts)
    (k := fun y dev => writeTail env g buf bootnum (x.2.2.1 % sib) (.of y dev))
    (Q := fun y => y.1 = 0 → x.1 = 0 ∧ y.2.1 = x.2.1 + x.2.2.1 / sib)
    (writeWhole_within hA buf _ x fun hres => ?_) (fun dev r hr hres => ?_)
    (fun y hy => writeTail_within hA buf y ?_ fun hres hoff => ?_) fun dev r hr => ?_
  · obtain ⟨hlo, hfit⟩ := hx hres
    refine ⟨hlo, Nat.le_of_mul_le_mul_left (c := sib) ?_ hsib⟩
    rw [Nat.mul_add]
    omega
  · rw [← hr] at hres ⊢
    exact writeWhole_block (s := .of x dev) hres
  · rw [hs]
    exact Nat.le_of_lt (Nat.mod_lt _ hsib)
  · obtain ⟨hres0, hblock⟩ := hy hres
    obtain ⟨hlo, hfit⟩ := hx hres0
    refine ⟨hblock ▸ Nat.le_trans hlo (Nat.le_add_right _ _),
      Nat.lt_of_mul_lt_mul_left (a := sib) ?_⟩
    rw [hblock, Nat.mul_add]
    omega
  · rw [← hr]
    rfl

theorem writeHead_left {buf : Nat → α} {bsector : Nat} {x : WriteVals α} (hlo : blo ≤ x.2.1)
    (hfit : sectcntInPage g bootnum * g.pageCntOfPhyBlk * x.2.1 + bsector + x.2.2.1 ≤
      sectcntInPage g bootnum * g.pageCntOfPhyBlk * bhi) {dev : BootDev α}
    {r : BootDev α × WriteVals α}
    (hr : (writeHead env g buf bootnum bsector (.of x dev)).parts = r) :
    LeftIn g bootnum blo bhi r.2 := by
  by_cases h : bsector > 0
  · obtain ⟨f, hf⟩ : ∃ f, fillHead env g buf bootnum bsector (.of x dev) = f := ⟨_, rfl⟩
    obtain ⟨y, hy⟩ : ∃ y, bootareaRead env g dev
      (sub32 (x.2.1 * (sectcntInPage g bootnum * g.pageCntOfPhyBlk))
        (bootFirstPage bootnum * sectcntInPage g bootnum)) bsector x.2.2.2.2 0 bootnum = y :=
      ⟨_, rfl⟩
    rw [← hr, writeHead_done buf h x dev hf]
    exact headDone_left hA h hlo hfit hy hf
  · rw [writeHead, if_neg h] at hr
    rw [← hr]
    exact fun _ => ⟨hlo, by simp only [WriteState.of, WriteState.parts]; omega⟩

theorem bootareaWrite_within {first count : Nat} (junk buf : Nat → α)
    (hfit : chipSector g bootnum first + count ≤
      sectcntInPage g bootnum * g.pageCntOfPhyBlk * bhi) :
    InBlocks B fun dev => bootareaWrite env g junk dev first count buf bootnum := by
  have hsib : 0 < sectcntInPage g bootnum * g.pageCntOfPhyBlk :=
    Nat.mul_pos (sectcntInPage_pos g bootnum) g.pages_pos
  have hend := hA.end_lt
  rw [← Nat.mul_assoc] at hend
  have hmod := Nat.mod_lt (chipSector g bootnum first) hsib
  have hdiv := Nat.div_add_mod (chipSector g bootnum first)
    (sectcntInPage g bootnum * g.pageCntOfPhyBlk)
  have hlo : blo ≤ chipSector g bootnum first / (sectcntInPage g bootnum * g.pageCntOfPhyBlk) := by
    rw [Nat.le_div_iff_mul_le hsib, chipSector, hA.start]
    refine Nat.le_trans (Nat.le_of_eq ?_) (Nat.le_add_left _ _)
    rw [Nat.mul_comm g.pageCntOfPhyBlk, Nat.mul_assoc, Nat.mul_comm g.pageCntOfPhyBlk]
  have hx : sectcntInPage g bootnum * g.pageCntOfPhyBlk *
      (chipSector g bootnum first / (sectcntInPage g bootnum * g.pageCntOfPhyBlk)) +
        chipSector g bootnum first % (sectcntInPage g bootnum * g.pageCntOfPhyBlk) + count ≤
      sectcntInPage g bootnum * g.pageCntOfPhyBlk * bhi := by
    rw [hdiv]
    exact hfit
  refine Within.seq
    (f := fun dev => (writeHead env g buf bootnum
      (chipSector g bootnum first % (sectcntInPage g bootnum * g.pageCntOfPhyBlk))
      (.of (0, chipSector g bootnum first / (sectcntInPage g bootnum * g.pageCntOfPhyBlk), count,
        0, junk) dev)).parts)
    (k := fun y dev => writeTail env g buf bootnum
      (y.2.2.1 % (sectcntInPage g bootnum * g.pageCntOfPhyBlk))
      (writeWhole env g (sectcntInPage g bootnum) buf
        (y.2.2.1 / (sectcntInPage g bootnum * g.pageCntOfPhyBlk)) (.of y dev)))
    (Q := LeftIn g bootnum blo bhi)
    (writeHead_within hA buf _ (Nat.le_of_lt hmod) (fun hpos => ⟨hlo, ?_⟩) ?_)
    (fun dev r hr => writeHead_left hA hlo hx hr)
    (fun y hy => writeRest_within hA buf y hy) fun dev r hr => ?_
  · refine Nat.lt_of_mul_lt_mul_left (a := sectcntInPage g bootnum * g.pageCntOfPhyBlk) ?_
    show sectcntInPage g bootnum * g.pageCntOfPhyBlk *
      (chipSector g bootnum first / (sectcntInPage g bootnum * g.pageCntOfPhyBlk)) < _
    omega
  · show _ + count < 2 ^ 32
    omega
  · obtain ⟨s, hs⟩ : ∃ s, writeHead env g buf bootnum
        (chipSector g bootnum first % (sectcntInPage g bootnum * g.pageCntOfPhyBlk))
        ⟨dev, 0, chipSector g bootnum first / (sectcntInPage g bootnum * g.pageCntOfPhyBlk), count,
          0, junk⟩ = s := ⟨_, rfl⟩
    have hs' : s.parts = r := by
      rw [← hr, ← hs]
      rfl
    rw [bootareaWrite_eq (by omega) hs, ← hs']
    rfl

end Write

end Blocks

/-! ## The areas as the host is told -/

namespace NandStorageInfo

variable (n : NandStorageInfo)

/-- `_cal_block_in_chip` -/
def calBlockInChip (globalBank superBlk : Nat) : Nat :=
  let bankBase := globalBank % n.bankCntPerChip * n.blkCntPerDie
  let single :=
    if n.supportMultiProgram then
      sub32 (superBlk * n.planeCntPerDie) (superBlk % n.optPhyOpPar.multiPlaneBlockOffset)
    else superBlk
  let blk := u32 (bankBase + single)
  if blk ≥ n.dieCntPerChip * n.blkCntPerDie then 0xffffffff else blk

/-- `_CalculatePhyOpPar`, which has the body of `LML_CalculatePhyOpPar`. -/
def calculatePhyOpPar (nZone nBlock nPage : Nat) : PhyPage :=
  lmlCalculatePhyOpPar n.fmtInit nZone nBlock nPage

/-- The block of the chip that a super block is in at one of its pages, and the block it shares
that page with if two planes are programmed at once. -/
def superBlkBlocks (nZone nBlock nPage : Nat) : List Nat :=
  let a := n.calculatePhyOpPar nZone nBlock nPage
  let blk := n.calBlockInChip a.bank a.blk
  if n.supportMultiProgram then [blk, blk + n.optPhyOpPar.multiPlaneBlockOffset] else [blk]

/-- The geometry of the boot areas. -/
def bootGeometry (h : n.Regular) : BootGeometry where
  pageCntOfPhyBlk := n.pageCntPerPhyBlk
  sectorCntOfSinglePage := n.sectorCntPerPage
  pages_pos := h.pages_pos
  sectors_pos := h.sectors_pos
  pages_dvd := by
    have := h.pages
    simp only [List.mem_cons, List.not_mem_nil, or_false] at this
    rcases this with hp | hp | hp <;> rw [hp] <;> decide
  small := Nat.le_trans (Nat.mul_le_mul h.sectors_le h.pages_le) (by decide)

/-- The area of the flash that `bootarea_read` and `bootarea_write` call `bootnum`. -/
def bootArea (bootnum : Nat) : FlashmareaProperties :=
  n.fmtGetFlashMemProperties.areas ⟨if bootnum ≠ 0 then 1 else 0, by split <;> decide⟩

theorem bootArea_one : (n.bootArea 1).pageCount =
    sub32 (n.die0FirstBlkNum * n.pageCntPerPhyBlk) 512 := rfl

/-- A read or a write of sectors of a boot area touches the block. -/
def AreaTouches (α : Type) (h : n.Regular) (bootnum b : Nat) : Prop :=
  ∃ first count, first + count ≤ (n.bootArea bootnum).sectors ∧ ∃ (env : BootEnv α) (buf : Nat → α),
    (∃ bufp, Touches BootDev.flash BootDev.ops
      (fun dev => bootareaRead env (n.bootGeometry h) dev first count buf bufp bootnum) b) ∨
    ∃ junk, Touches BootDev.flash BootDev.ops
      (fun dev => bootareaWrite env (n.bootGeometry h) junk dev first count buf bootnum) b

/-- The boot areas have no block in common with each other or with a super block that is not set
aside, and neither has a negative length. -/
structure BootAreasApart (α : Type) (h : n.Regular) : Prop where
  lengths : ∀ bootnum ∈ [0, 1], 0 ≤ int32 (n.bootArea bootnum).pageCount
  areas : ∀ b, n.AreaTouches α h 0 b → ¬ n.AreaTouches α h 1 b
  superBlks : ∀ bootnum ∈ [0, 1], ∀ b, n.AreaTouches α h bootnum b →
    ∀ nZone nBlock nPage, n.die0FirstBlkNum ≤ nBlock → nBlock < n.fmtInit.superBlkCntOfDie →
      b ∉ n.superBlkBlocks nZone nBlock nPage

namespace Regular

variable {n} (h : n.Regular)
include h

theorem die0FirstBlkNum_eq : n.die0FirstBlkNum = 7 := by
  have hp := h.pages
  have hs := h.sectors
  simp only [List.mem_cons, List.not_mem_nil, or_false] at hp hs
  rcases hp with hp | hp | hp <;> rcases hs with hs | hs | hs <;>
    rw [die0FirstBlkNum, hp, hs] <;> rfl

/-- The super blocks of a chip. -/
theorem superBlks_le : n.dieCntPerChip * n.fmtInit.superBlkCntOfDie ≤ 8192 := by
  have hsuper : n.fmtInit.superBlkCntOfDie = 1024 * n.zones := by
    show n.blkCntPerDie / n.planeCntPerDie = _
    conv_lhs => rw [h.blocks]
    rw [Nat.mul_assoc, Nat.mul_comm n.planeCntPerDie, ← Nat.mul_assoc,
      Nat.mul_div_cancel _ h.planes_pos]
    rfl
  have hz : n.dieCntPerChip * n.zones ≤ 8 := h.zones
  rw [hsuper, Nat.mul_left_comm]
  omega

/-- A super block does not lie below its number. -/
theorem le_superBlkBlocks {nZone nBlock nPage b : Nat} (hblk : nBlock < n.fmtInit.superBlkCntOfDie)
    (hb : b ∈ n.superBlkBlocks nZone nBlock nPage) : nBlock ≤ b := by
  have hsuper := h.superBlks_le
  have hdie : nZone / n.fmtInit.zoneCntOfDie % n.dieCntPerChip < n.dieCntPerChip :=
    Nat.mod_lt _ h.dies
  have hbase := Nat.mul_le_mul_right n.fmtInit.superBlkCntOfDie
    (show nZone / n.fmtInit.zoneCntOfDie % n.dieCntPerChip + 1 ≤ n.dieCntPerChip from hdie)
  rw [Nat.add_mul, Nat.one_mul] at hbase
  have ha : (n.calculatePhyOpPar nZone nBlock nPage).blk = nBlock +
      nZone / n.fmtInit.zoneCntOfDie % n.dieCntPerChip * n.fmtInit.superBlkCntOfDie := by
    have hint : n.fmtInit.supportIntInterleave = false := h.noInt
    simp only [calculatePhyOpPar, lmlCalculatePhyOpPar, hint, Bool.false_eq_true, if_false,
      show n.fmtInit.dieCntOfChip = n.dieCntPerChip from rfl]
    split <;> exact Nat.mod_eq_of_lt (by omega)
  simp only [superBlkBlocks] at hb
  generalize n.calculatePhyOpPar nZone nBlock nPage = a at ha hb
  have hcal : nBlock ≤ n.calBlockInChip a.bank a.blk := by
    have hmod := Nat.mod_le a.blk n.optPhyOpPar.multiPlaneBlockOffset
    have hsingle : ∃ single, nBlock ≤ single ∧ single < 2 ^ 32 ∧
        (if n.supportMultiProgram then
          sub32 (a.blk * n.planeCntPerDie) (a.blk % n.optPhyOpPar.multiPlaneBlockOffset)
        else a.blk) = single := by
      by_cases hmulti : n.supportMultiProgram
      · refine ⟨a.blk * 2 - a.blk % n.optPhyOpPar.multiPlaneBlockOffset, by omega, by omega, ?_⟩
        rw [if_pos hmulti, h.planes, if_pos hmulti, sub32_of_le (by omega) (by omega)]
      · exact ⟨a.blk, by omega, by omega, if_neg hmulti⟩
    obtain ⟨single, hle, hlt, hs⟩ := hsingle
    rw [calBlockInChip, hs, h.bank, Nat.mod_one, Nat.zero_mul, Nat.zero_add, u32_of_lt hlt]
    split
    · omega
    · exact hle
  split at hb
  · rcases List.mem_cons.mp hb with rfl | hb
    · exact hcal
    · rw [List.mem_singleton.mp hb]
      exact Nat.le_trans hcal (Nat.le_add_right _ _)
  · rw [List.mem_singleton.mp hb]
    exact hcal

/-- The boot areas take up the blocks before the seventh, the first of them the first 512
pages. -/
theorem bootArea_end (bootnum : Nat) (hp : n.pageCntPerPhyBlk ≠ 64) :
    (n.bootGeometry h).pageCntOfPhyBlk * (512 / n.pageCntPerPhyBlk) = 512 ∧
      512 / n.pageCntPerPhyBlk ≤ 7 ∧ 0 ≤ int32 (n.bootArea bootnum).pageCount ∧
      bootFirstPage bootnum * sectcntInPage (n.bootGeometry h) bootnum +
          (n.bootArea bootnum).sectors ≤
        sectcntInPage (n.bootGeometry h) bootnum * n.pageCntPerPhyBlk *
          (if bootnum ≠ 0 then 7 else 512 / n.pageCntPerPhyBlk) := by
  have hpages := h.pages
  simp only [List.mem_cons, List.not_mem_nil, or_false] at hpages
  have hs := h.sectors_pos
  simp only [bootGeometry, bootArea, fmtGetFlashMemProperties, FlashmareaProperties.sectors,
    bootFirstPage, sectcntInPage, h.die0FirstBlkNum_eq]
  have h128 : sub32 (7 * 128) 512 = 384 := by decide
  have h256 : sub32 (7 * 256) 512 = 1280 := by decide
  by_cases h0 : bootnum ≠ 0
  · rcases hpages with hpg | hpg | hpg
    · exact absurd hpg hp
    all_goals
      simp only [if_pos h0, hpg]
      refine ⟨by decide, by decide, by decide, ?_⟩
      simp only [h128, h256]
      omega
  · rcases hpages with hpg | hpg | hpg
    · exact absurd hpg hp
    all_goals
      simp only [if_neg h0, hpg]
      decide

/-- The blocks that a boot area covers are all it touches. -/
theorem areaTouches_mem {α : Type} (hp : n.pageCntPerPhyBlk ≠ 64) {bootnum b : Nat}
    (hb : n.AreaTouches α h bootnum b) :
    (if bootnum ≠ 0 then 512 / n.pageCntPerPhyBlk else 0) ≤ b ∧
      b < if bootnum ≠ 0 then 7 else 512 / n.pageCntPerPhyBlk := by
  obtain ⟨hpages, h7, -, hend⟩ := h.bootArea_end bootnum hp
  obtain ⟨first, count, hfit, env, buf, htouch⟩ := hb
  have hA : AreaIn (n.bootGeometry h)
      (fun b => (if bootnum ≠ 0 then 512 / n.pageCntPerPhyBlk else 0) ≤ b ∧
        b < if bootnum ≠ 0 then 7 else 512 / n.pageCntPerPhyBlk) bootnum
      (if bootnum ≠ 0 then 512 / n.pageCntPerPhyBlk else 0)
      (if bootnum ≠ 0 then 7 else 512 / n.pageCntPerPhyBlk) := by
    refine ⟨fun b hlo hhi => ?_, ?_, ?_⟩
    · rw [Nat.mod_eq_of_lt (by split at hhi <;> omega)]
      exact ⟨hlo, hhi⟩
    · unfold bootFirstPage
      split
      · exact hpages.symm
      · rfl
    · split <;> omega
  have hrange : chipSector (n.bootGeometry h) bootnum first + count ≤
      sectcntInPage (n.bootGeometry h) bootnum * (n.bootGeometry h).pageCntOfPhyBlk *
        (if bootnum ≠ 0 then 7 else 512 / n.pageCntPerPhyBlk) := by
    refine Nat.le_trans ?_ hend
    unfold chipSector
    omega
  rcases htouch with ⟨bufp, ht⟩ | ⟨junk, ht⟩
  · refine Within.of_touches (bootareaRead_within hA.pages (Nat.le_of_eq hA.start.symm) ?_
      hA.end_lt ?_ buf bufp) ht
    · rw [← Nat.mul_assoc]
      refine Nat.le_trans (Nat.le_of_eq ?_) hrange
      rw [chipSector, Nat.mul_comm (sectcntInPage _ _)]
    · refine Nat.lt_of_le_of_lt (Nat.mul_le_mul (show _ ≤ 256 from h.pages_le)
        (show _ ≤ 7 by split <;> omega)) (by decide)
  · exact Within.of_touches (bootareaWrite_within hA junk buf hrange) ht

end Regular

end NandStorageInfo

/-- The boot areas are apart from each other and from the super blocks exactly where a block does
not have 64 pages: seven such blocks are fewer pages than the first area has. -/
theorem bootAreas_apart_iff (α : Type) {bootId : Option (List Nat)} {chipId : Nat → List Nat}
    {n : NandStorageInfo} (hscan : scnAnalyzeNandSystem bootId chipId = some n) :
    n.BootAreasApart α (scan_regular hscan) ↔ n.pageCntPerPhyBlk ≠ 64 := by
  have h := scan_regular hscan
  constructor
  · rintro happart hp
    have hlen := happart.lengths 1 (by decide)
    rw [n.bootArea_one, h.die0FirstBlkNum_eq, hp] at hlen
    exact absurd hlen (by decide)
  · intro hp
    refine ⟨fun bootnum _ => (h.bootArea_end bootnum hp).2.2.1, fun b h0 h1 => ?_,
      fun bootnum _ b hb nZone nBlock nPage hfirst hblk hmem => ?_⟩
    · have hlt := (h.areaTouches_mem hp h0).2
      have hge := (h.areaTouches_mem hp h1).1
      exact absurd (Nat.lt_of_lt_of_le hlt hge) (Nat.lt_irrefl _)
    · have h7 := (h.bootArea_end bootnum hp).2.1
      have hlt := (h.areaTouches_mem hp hb).2
      have hle := h.le_superBlkBlocks hblk hmem
      rw [h.die0FirstBlkNum_eq] at hfirst
      have : (if bootnum ≠ 0 then 7 else 512 / n.pageCntPerPhyBlk) ≤ 7 := by split <;> omega
      omega

theorem bootAreas_apart_iff_fourChips :
    ∃ n, ∃ hscan : scnAnalyzeNandSystem (some (fourChips 0)) fourChips = some n,
      n.pageCntPerPhyBlk = 128 ∧
        (n.BootAreasApart Nat (scan_regular hscan) ↔ n.pageCntPerPhyBlk ≠ 64) :=
  ⟨_, rfl, rfl, @bootAreas_apart_iff Nat (some (fourChips 0)) fourChips _ rfl⟩

/-- One chip with blocks of 64 pages. -/
def smallBlocks (i : Nat) : List Nat := if i = 0 then [0xec, 0xda, 0x10, 0x95, 0x44, 0] else []

/-- The second area of such a chip is advertised with 64 pages less than none. -/
theorem bootAreas_collide :
    ∃ n, ∃ hscan : scnAnalyzeNandSystem (some (smallBlocks 0)) smallBlocks = some n,
      int32 (n.bootArea 1).pageCount = -64 ∧ ¬ n.BootAreasApart Nat (scan_regular hscan) := by
  refine ⟨_, rfl, by decide, fun happart => ?_⟩
  exact absurd (happart.lengths 1 (by decide)) (by decide)

end Novo7

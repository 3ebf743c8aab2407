import Mathlib.Order.Basic

/-!
# The boot menu

`SelectBoot` shows the operating systems with a last item for more, and behind that a second menu.
It starts at `startOSNum`, and leaves there the item that was chosen, in whichever menu that was;
when the boot fails, `BootOS_detect_os_type` calls it again with what it left. `menu_safe_iff` says from
which settings the item shown as chosen is always one that is shown.
-/

namespace Novo7

/-- What the menu uses of `struct BootIni`. -/
structure BootIni where
  osCount : Int
  osNames : List (List UInt8)
  startOSNum : Int
  timeout : Int

/-! ## SelectBoot -/

/-- `SelectBoot` before a key is handled. -/
structure Menu where
  bootIni : BootIni
  isSubMenu : Bool
  curItemNo : Int

/-- `SelectBoot` is called. -/
def Menu.enter (b : BootIni) : Menu := ⟨b, false, b.startOSNum⟩

/-- The submenu has five items. -/
def Menu.lastItemNo (s : Menu) : Int := if s.isSubMenu then 4 else s.bootIni.osCount

/-- The menu stays, or `SelectBoot` returns with what it leaves in the settings. -/
inductive MenuResult where
  | stays (s : Menu)
  | returns (b : BootIni) (r : Int)

/-- The `switch` on what `GetKeyVal` returned. -/
def Menu.key (s : Menu) (k : Int) : MenuResult :=
  if k = 43 then
    .stays { s with curItemNo := if s.curItemNo = 0 then s.lastItemNo else s.curItemNo - 1 }
  else if k = 30 then
    .stays { s with curItemNo := if s.curItemNo = s.lastItemNo then 0 else s.curItemNo + 1 }
  else if k = -1 ∨ k = 37 then
    if s.curItemNo = s.lastItemNo then .stays { s with isSubMenu := !s.isSubMenu, curItemNo := 0 }
    else .returns { s.bootIni with startOSNum := s.curItemNo, timeout := -1 }
      (if s.isSubMenu then -s.curItemNo - 1 else s.curItemNo)
  else .stays s

/-! ## BootOS_detect_os_type -/

/-- The item that is booted: the first one also for fastboot and recovery, none to power off. -/
def requestedItem (r : Int) : Option Int :=
  if r = -1 ∨ r = -2 then some 0 else if 0 ≤ r then some r else none

/-- The menus that any keys and failed boots lead to. -/
inductive Menu.Reach (b : BootIni) : Menu → Prop
  | first : Reach b (.enter b)
  | key {s s' : Menu} (k : Int) (h : Reach b s) (hkey : s.key k = .stays s') : Reach b s'
  | again {s : Menu} {b' : BootIni} {r i : Int} (k : Int) (h : Reach b s)
      (hkey : s.key k = .returns b' r) (hboot : requestedItem r = some i) : Reach b (.enter b')

/-- The highlighted item is one of the menu's. -/
def Menu.InRange (s : Menu) : Prop := 0 ≤ s.curItemNo ∧ s.curItemNo ≤ s.lastItemNo

/-- The highlighted item is always one of the menu's, and what is chosen to be booted exists. -/
def MenuSafe (b : BootIni) : Prop :=
  ∀ s, Menu.Reach b s → s.InRange ∧
    ∀ k b' r, s.key k = .returns b' r → 0 ≤ r → r < s.bootIni.osCount

/-! ## Keys -/

section Keys

variable {s s' : Menu} {k r : Int} {b' : BootIni}

/-- A key that leaves the menu open leaves the settings and the range. -/
theorem key_stays (hos : 0 ≤ s.bootIni.osCount) (hin : s.InRange) (h : s.key k = .stays s') :
    s'.bootIni = s.bootIni ∧ s'.InRange := by
  obtain ⟨h0, hlast⟩ := hin
  unfold Menu.key at h
  split at h
  · cases h
    refine ⟨rfl, ?_, ?_⟩
    · show 0 ≤ if s.curItemNo = 0 then s.lastItemNo else s.curItemNo - 1
      split <;> omega
    · show (if s.curItemNo = 0 then s.lastItemNo else s.curItemNo - 1) ≤ s.lastItemNo
      split <;> omega
  split at h
  · cases h
    refine ⟨rfl, ?_, ?_⟩
    · show 0 ≤ if s.curItemNo = s.lastItemNo then 0 else s.curItemNo + 1
      split <;> omega
    · show (if s.curItemNo = s.lastItemNo then 0 else s.curItemNo + 1) ≤ s.lastItemNo
      split <;> omega
  split at h
  · split at h
    · cases h
      refine ⟨rfl, Int.le_refl 0, ?_⟩
      show 0 ≤ if (!s.isSubMenu) = true then 4 else s.bootIni.osCount
      split <;> omega
    · cases h
  · cases h
    exact ⟨rfl, h0, hlast⟩

/-- What `SelectBoot` returns with is an item before the last. -/
theorem key_returns (h : s.key k = .returns b' r) :
    s.curItemNo ≠ s.lastItemNo ∧
      b' = { s.bootIni with startOSNum := s.curItemNo, timeout := -1 } ∧
      r = if s.isSubMenu then -s.curItemNo - 1 else s.curItemNo := by
  unfold Menu.key at h
  split at h
  · cases h
  split at h
  · cases h
  split at h
  · split at h
    · cases h
    · rename_i hne
      cases h
      exact ⟨hne, rfl, rfl⟩
  · cases h

/-- An item of the submenu is booted from only if it is one of the first two. -/
theorem requestedItem_sub {c i : Int} (h0 : 0 ≤ c) (h : requestedItem (-c - 1) = some i) :
    c ≤ 1 := by
  unfold requestedItem at h
  split at h
  · omega
  split at h
  · omega
  · cases h

end Keys

/-! ## Runs -/

/-- With a system to boot and a start within the first menu, every menu is in range. -/
theorem Menu.Reach.inRange {b : BootIni} {s : Menu} (h : Menu.Reach b s) (hos : 1 ≤ b.osCount)
    (h0 : 0 ≤ b.startOSNum) (hlast : b.startOSNum ≤ b.osCount) :
    s.bootIni.osCount = b.osCount ∧ s.InRange := by
  induction h with
  | first => exact ⟨rfl, h0, hlast⟩
  | key k h hkey ih =>
      obtain ⟨hb, hin⟩ := key_stays (by omega) ih.2 hkey
      exact ⟨by rw [hb]; exact ih.1, hin⟩
  | @again s b' r i k h hkey hboot ih =>
      obtain ⟨hcount, h0, hlast⟩ := ih
      obtain ⟨hne, rfl, rfl⟩ := key_returns hkey
      refine ⟨hcount, h0, ?_⟩
      show s.curItemNo ≤ s.bootIni.osCount
      unfold Menu.lastItemNo at hlast
      split at hlast
      · rename_i hsub
        rw [if_pos hsub] at hboot
        have := requestedItem_sub h0 hboot
        omega
      · exact hlast

/-- Without a system: back and forth, recovery, and a boot that fails. -/
theorem reach_beyond {b : BootIni} (hos : b.osCount = 0) (hstart : b.startOSNum = 0) :
    Menu.Reach b (.enter { b with startOSNum := 1, timeout := -1 }) := by
  have hsub : (Menu.enter b).key 37 = .stays ⟨b, true, 0⟩ := by
    have hlast : (Menu.enter b).curItemNo = (Menu.enter b).lastItemNo := hstart.trans hos.symm
    unfold Menu.key
    rw [if_neg (by decide), if_neg (by decide), if_pos (.inr rfl), if_pos hlast]
    rfl
  exact .again 37 (.key 30 (.key 37 .first hsub) rfl) rfl rfl

/-- The menu is safe exactly if there is a system, and the start is in the first menu. -/
theorem menu_safe_iff (b : BootIni) :
    MenuSafe b ↔ 1 ≤ b.osCount ∧ 0 ≤ b.startOSNum ∧ b.startOSNum ≤ b.osCount := by
  constructor
  · intro h
    obtain ⟨h0, hlast⟩ := (h _ .first).1
    replace h0 : 0 ≤ b.startOSNum := h0
    replace hlast : b.startOSNum ≤ b.osCount := hlast
    refine ⟨Int.not_lt.mp fun hlt => ?_, h0, hlast⟩
    have hbeyond := (h _ (reach_beyond (by omega) (by omega))).1.2
    replace hbeyond : 1 ≤ b.osCount := hbeyond
    omega
  · rintro ⟨hos, h0, hlast⟩ s hs
    obtain ⟨hcount, hin⟩ := hs.inRange hos h0 hlast
    refine ⟨hin, fun k b' r hkey hr => ?_⟩
    obtain ⟨hne, -, rfl⟩ := key_returns hkey
    obtain ⟨h0, hlast⟩ := hin
    unfold Menu.lastItemNo at hne hlast
    split at hr
    · omega
    · rename_i hsub
      rw [if_neg hsub] at hne hlast ⊢
      omega

end Novo7

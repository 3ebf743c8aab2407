import Mathlib.Data.List.GetD
import Mathlib.Logic.Basic
import Mathlib.Tactic.ByContra
import Novo7.AdbdEmu
import Novo7.CString

/-!
# Streams of the debug bridge

Packets of the debug bridge belong to streams: each side numbers its own, and a packet names the
sender's number and the receiver's. `adbd_emu` has one stream, number 1234, for its one shell. It
hands both numbers of a packet on but compares them with nothing, and keeps the payload of every
packet in one buffer, in which what a payload does not overwrite stays.

The model is the main loop alone, packet by packet: the reader thread touches neither the shell's
input nor the descriptor. `adbd_isolated_iff` says which packets of a run are handled as what they are.
-/

namespace Novo7

open Bytes CString

/-! ## The main loop -/

/-- What the main loop keeps from packet to packet. -/
structure AdbdStreams where
  /-- `gShellRemoteId`, where `gShellFd >= 0` -/
  shell : Option Nat
  /-- what the open shell has been given to read -/
  input : List UInt8
  /-- `data` of `main` -/
  data : Nat → UInt8
  sent : List AMessage

/-- What the calls on the way of a packet return: whether a shell can be started, and for each
`write` to it how much it takes, or that it fails. -/
structure ShellCalls where
  opens : Bool
  writes : List (Option Nat)

/-- `usbread(data, msg.data_length)` -/
def AdbdStreams.load (s : AdbdStreams) (payload : List UInt8) : AdbdStreams :=
  { s with data := fun i => if i < payload.length then payload.getD i 0 else s.data i }

def shellService : List UInt8 := text "shell:"

/-- `send_packet` -/
def AdbdStreams.send (s : AdbdStreams) (m : AMessage) : AdbdStreams := { s with sent := s.sent ++ [m] }

/-- `shell_open` -/
def AdbdStreams.shellOpen (s : AdbdStreams) (c : ShellCalls) (remote : Nat) : AdbdStreams :=
  if s.shell.isSome then s.send (closeMessage 0 remote)
  else if c.opens = false then s.send (closeMessage 0 remote)
  else { s with shell := some remote, input := [] }.send (readyMessage 1234 remote)

/-- `while( datalen > 0 )` of `shell_write`: what reaches the shell. -/
def shellWriteLoop : List (Option Nat) → List UInt8 → List UInt8
  | _, [] => []
  | [], _ => []
  | none :: _, _ => []
  | some n :: writes, data => data.take n ++ shellWriteLoop writes (data.drop n)

/-- `shell_write` -/
def AdbdStreams.shellWrite (s : AdbdStreams) (c : ShellCalls) (remote lcl : Nat)
    (payload : List UInt8) : AdbdStreams :=
  if s.shell.isSome then
    { s with input := s.input ++ shellWriteLoop c.writes payload }.send (readyMessage lcl remote)
  else s.send (closeMessage lcl remote)

/-- `shell_close` -/
def AdbdStreams.closeShell (s : AdbdStreams) : AdbdStreams :=
  if s.shell.isSome then { s with shell := none, input := [] } else s

/-- `handle_packet` -/
def AdbdStreams.handlePacket (s : AdbdStreams) (m : AMessage) (c : ShellCalls) : AdbdStreams :=
  if m.command = aSync then s.send m
  else if m.command = aCnxn then (s.send cnxnMessage).closeShell
  else if m.command = aOpen then
    if strcmpEq s.data 0 shellService = false then s.send (closeMessage 0 m.arg0)
    else s.shellOpen c m.arg0
  else if m.command = aClse then s.closeShell
  else if m.command = aWrte then s.shellWrite c m.arg0 m.arg1 m.data
  else s

/-- A round of the loop of `main`. -/
def AdbdStreams.packet (s : AdbdStreams) (m : AMessage) (c : ShellCalls) : AdbdStreams :=
  (s.load m.data).handlePacket m c

/-- `main` after the channel was opened. -/
def AdbdStreams.start (data : Nat → UInt8) : AdbdStreams := ⟨none, [], data, []⟩

/-! ## Isolation -/

/-- The shell is given nothing to read, and is not closed or opened. -/
def ShellUntouched (s t : AdbdStreams) : Prop := t.shell = s.shell ∧ t.input = s.input

/-- The packet names the stream of the open shell. -/
def OwnStream (s : AdbdStreams) (m : AMessage) : Prop := s.shell = some m.arg0 ∧ m.arg1 = 1234

/-- What a packet may do, however the calls on its way end: only a write or a close that names the
stream of the shell touches it, and an open does the same whatever was in the buffer before it, and
nothing to a shell that is there. A new connection ends all streams and belongs to none. -/
def Isolated (s : AdbdStreams) (m : AMessage) : Prop :=
  if m.command = aCnxn then True
  else if m.command = aOpen then
    (s.shell ≠ none → ∀ c, ShellUntouched s (s.packet m c)) ∧
      ∀ c data, ({ s with data := data }.packet m c).shell = (s.packet m c).shell
  else if m.command = aClse ∨ m.command = aWrte then
    ¬ OwnStream s m → ∀ c, ShellUntouched s (s.packet m c)
  else ∀ c, ShellUntouched s (s.packet m c)

/-- The payload differs from the name of the service, or has its terminator. -/
def Decides (payload : List UInt8) : Prop :=
  shellService.length < payload.length ∨ ¬ payload <+: shellService

/-- A packet that is handled as what it is: no shell is open that a write with data or a close of
another stream could touch, and an open for a shell says itself what it is for. -/
def Attributable (s : AdbdStreams) (m : AMessage) : Prop :=
  (m.command = aOpen → s.shell ≠ none ∨ Decides m.data) ∧
    (m.command = aClse → s.shell = none ∨ OwnStream s m) ∧
    (m.command = aWrte → s.shell = none ∨ OwnStream s m ∨ m.data = [])

/-! ## Opens -/

/-- The buffer with a payload at its front. -/
def loaded (data : Nat → UInt8) (payload : List UInt8) (i : Nat) : UInt8 :=
  if i < payload.length then payload.getD i 0 else data i

theorem asksShell_iff (data : Nat → UInt8) : strcmpEq data 0 shellService = true ↔
    (∀ k (h : k < shellService.length), data k = shellService[k]) ∧
      data shellService.length = 0 := by
  rw [strcmpEq_iff]
  simp only [Nat.zero_add]

/-- A payload that decides does so over any buffer. -/
theorem asksShell_congr {payload : List UInt8} (h : Decides payload) (data data' : Nat → UInt8) :
    strcmpEq (loaded data payload) 0 shellService =
      strcmpEq (loaded data' payload) 0 shellService := by
  rw [Bool.eq_iff_iff, asksShell_iff, asksShell_iff]
  by_cases hlong : shellService.length < payload.length
  · have hsame (k : Nat) (hk : k ≤ shellService.length) :
        loaded data payload k = loaded data' payload k := by
      rw [loaded, loaded, if_pos (by omega), if_pos (by omega)]
    rw [hsame _ (Nat.le_refl _)]
    refine and_congr_left fun _ => ?_
    constructor
    · intro hk k hlt
      rw [← hsame k (by omega)]
      exact hk k hlt
    · intro hk k hlt
      rw [hsame k (by omega)]
      exact hk k hlt
  · have hnot (b : Nat → UInt8) :
        ¬ ∀ k (h : k < shellService.length), loaded b payload k = shellService[k] := by
      intro hk
      refine h.resolve_left hlong (List.prefix_iff_eq_take.mpr ?_)
      refine List.ext_getElem (by rw [List.length_take]; omega) fun k hk₁ hk₂ => ?_
      have hkT : k < shellService.length := by
        rw [List.length_take] at hk₂
        omega
      rw [List.getElem_take, ← hk k hkT, loaded, if_pos hk₁, List.getD_eq_getElem _ _ hk₁]
    exact ⟨fun hk => absurd hk.1 (hnot data), fun hk => absurd hk.1 (hnot data')⟩

/-- The name of the service and its terminator in a buffer. -/
def serviceBuffer (i : Nat) : UInt8 := shellService.getD i 0

/-- A payload that does not decide is completed by one buffer and spoiled by another. -/
theorem asksShell_undecided {payload : List UInt8} (h : ¬ Decides payload) :
    strcmpEq (loaded serviceBuffer payload) 0 shellService = true ∧
      strcmpEq (loaded (fun _ => 1) payload) 0 shellService = false := by
  obtain ⟨hshort, hpre⟩ := not_or.mp h
  replace hpre := not_not.mp hpre
  have hle : payload.length ≤ shellService.length := Nat.le_of_not_lt hshort
  refine ⟨(asksShell_iff _).mpr ⟨fun k hk => ?_, ?_⟩, ?_⟩
  · unfold loaded
    split
    · rename_i hkp
      rw [List.getD_eq_getElem _ _ hkp]
      exact hpre.getElem hkp
    · exact List.getD_eq_getElem _ _ hk
  · rw [loaded, if_neg hshort]
    exact List.getD_eq_default _ _ (Nat.le_refl _)
  · rw [← Bool.not_eq_true, asksShell_iff]
    rintro ⟨hk, hend⟩
    have hone : loaded (fun _ => 1) payload payload.length = 1 := if_neg (Nat.lt_irrefl _)
    rcases Nat.lt_or_eq_of_le hle with hlt | heq
    · have hbyte := (hk _ hlt).symm.trans hone
      have hno : ∀ b ∈ shellService, b ≠ 1 := by decide +kernel
      exact hno _ (List.getElem_mem hlt) hbyte
    · rw [← heq, hone] at hend
      exact absurd hend (by decide)

/-! ## Packets -/

section Packets

variable {s : AdbdStreams} {m : AMessage}

theorem packet_open (h : m.command = aOpen) (c : ShellCalls) :
    s.packet m c =
      if strcmpEq (loaded s.data m.data) 0 shellService = false then
        (s.load m.data).send (closeMessage 0 m.arg0)
      else (s.load m.data).shellOpen c m.arg0 := by
  unfold AdbdStreams.packet AdbdStreams.handlePacket
  rw [if_neg (by rw [h]; decide), if_neg (by rw [h]; decide), if_pos h]
  rfl

theorem packet_close (h : m.command = aClse) (c : ShellCalls) :
    s.packet m c = (s.load m.data).closeShell := by
  unfold AdbdStreams.packet AdbdStreams.handlePacket
  rw [if_neg (by rw [h]; decide), if_neg (by rw [h]; decide), if_neg (by rw [h]; decide), if_pos h]

theorem packet_write (h : m.command = aWrte) (c : ShellCalls) :
    s.packet m c = (s.load m.data).shellWrite c m.arg0 m.arg1 m.data := by
  unfold AdbdStreams.packet AdbdStreams.handlePacket
  rw [if_neg (by rw [h]; decide), if_neg (by rw [h]; decide), if_neg (by rw [h]; decide),
    if_neg (by rw [h]; decide), if_pos h]

theorem packet_other (hcnxn : m.command ≠ aCnxn) (hopen : m.command ≠ aOpen)
    (hclose : m.command ≠ aClse) (hwrite : m.command ≠ aWrte) (c : ShellCalls) :
    ShellUntouched s (s.packet m c) := by
  unfold AdbdStreams.packet AdbdStreams.handlePacket
  rw [if_neg hcnxn, if_neg hopen, if_neg hclose, if_neg hwrite]
  split <;> exact ⟨rfl, rfl⟩

/-- An open leaves a shell that is there alone. -/
theorem open_keepsShell (h : m.command = aOpen) (hshell : s.shell ≠ none) (c : ShellCalls) :
    ShellUntouched s (s.packet m c) := by
  have hsome : (s.load m.data).shell.isSome = true := Option.isSome_iff_ne_none.mpr hshell
  rw [packet_open h]
  split
  · exact ⟨rfl, rfl⟩
  · rw [AdbdStreams.shellOpen, if_pos hsome]
    exact ⟨rfl, rfl⟩

/-- Without a shell, an open starts one if the buffer asks for it. -/
theorem open_shell (h : m.command = aOpen) (hshell : s.shell = none) (c : ShellCalls) :
    (s.packet m c).shell =
      if strcmpEq (loaded s.data m.data) 0 shellService = true ∧ c.opens = true then some m.arg0
      else none := by
  have hnone : ¬ (s.load m.data).shell.isSome = true := by
    show ¬ s.shell.isSome = true
    rw [hshell]
    exact Bool.false_ne_true
  rw [packet_open h, AdbdStreams.shellOpen, if_neg hnone]
  cases strcmpEq (loaded s.data m.data) 0 shellService with
  | false => exact hshell
  | true =>
      cases hopens : c.opens with
      | false => exact hshell
      | true => rfl

theorem isolated_open_iff (h : m.command = aOpen) :
    Isolated s m ↔ s.shell ≠ none ∨ Decides m.data := by
  unfold Isolated
  rw [if_neg (by rw [h]; decide), if_pos h]
  by_cases hshell : s.shell ≠ none
  · refine iff_of_true ⟨fun _ => open_keepsShell h hshell, fun c data => ?_⟩ (.inl hshell)
    rw [(open_keepsShell h hshell c).1]
    exact (open_keepsShell (s := { s with data := data }) h hshell c).1
  · replace hshell := not_not.mp hshell
    constructor
    · rintro ⟨-, hsame⟩
      refine .inr (Classical.byContradiction fun hund => ?_)
      obtain ⟨htrue, hfalse⟩ := asksShell_undecided hund
      have hcalls (data : Nat → UInt8) := hsame ⟨true, []⟩ data
      have hyes := hcalls serviceBuffer
      have hno := hcalls fun _ => 1
      rw [← hno, open_shell h (s := { s with data := serviceBuffer }) hshell,
        open_shell h (s := { s with data := fun _ => 1 }) hshell, if_pos ⟨htrue, rfl⟩,
        if_neg fun hb => Bool.false_ne_true (hfalse.symm.trans hb.1)] at hyes
      cases hyes
    · intro hdec
      refine ⟨fun hne => absurd hshell hne, fun c data => ?_⟩
      have hdec := hdec.resolve_left fun hne => hne hshell
      rw [open_shell h hshell, open_shell h (s := { s with data := data }) hshell,
        asksShell_congr hdec data s.data]

theorem isolated_close_iff (h : m.command = aClse) :
    Isolated s m ↔ s.shell = none ∨ OwnStream s m := by
  unfold Isolated
  rw [if_neg (by rw [h]; decide), if_neg (by rw [h]; decide), if_pos (.inl h)]
  constructor
  · intro hiso
    by_contra hnot
    obtain ⟨hshell, hown⟩ := not_or.mp hnot
    have hclosed := (hiso hown ⟨true, []⟩).1
    have hsome : (s.load m.data).shell.isSome = true := Option.isSome_iff_ne_none.mpr hshell
    rw [packet_close h, AdbdStreams.closeShell, if_pos hsome] at hclosed
    exact hshell hclosed.symm
  · rintro (hnone | hown) hnot c
    · have hclosed : ¬ (s.load m.data).shell.isSome = true := by
        show ¬ s.shell.isSome = true
        rw [hnone]
        exact Bool.false_ne_true
      rw [packet_close h, AdbdStreams.closeShell, if_neg hclosed]
      exact ⟨rfl, rfl⟩
    · exact absurd hown hnot

theorem isolated_write_iff (h : m.command = aWrte) :
    Isolated s m ↔ s.shell = none ∨ OwnStream s m ∨ m.data = [] := by
  unfold Isolated
  rw [if_neg (by rw [h]; decide), if_neg (by rw [h]; decide), if_pos (.inr h)]
  constructor
  · intro hiso
    by_contra hnot
    obtain ⟨hshell, hnot⟩ := not_or.mp hnot
    obtain ⟨hown, hdata⟩ := not_or.mp hnot
    obtain ⟨b, bs, hbs⟩ := List.exists_cons_of_ne_nil hdata
    have hinput := (hiso hown ⟨true, [some 1]⟩).2
    have hsome : (s.load m.data).shell.isSome = true := Option.isSome_iff_ne_none.mpr hshell
    rw [packet_write h, AdbdStreams.shellWrite, if_pos hsome, hbs] at hinput
    have hlen := congrArg List.length hinput
    replace hlen : (s.input ++ shellWriteLoop [some 1] (b :: bs)).length = s.input.length := hlen
    have hone : shellWriteLoop [some 1] (b :: bs) = b :: shellWriteLoop [] bs := rfl
    rw [List.length_append, hone, List.length_cons] at hlen
    omega
  · rintro (hnone | hown | hdata) hnot c
    · have hclosed : ¬ (s.load m.data).shell.isSome = true := by
        show ¬ s.shell.isSome = true
        rw [hnone]
        exact Bool.false_ne_true
      rw [packet_write h, AdbdStreams.shellWrite, if_neg hclosed]
      exact ⟨rfl, rfl⟩
    · exact absurd hown hnot
    · have hnothing : shellWriteLoop c.writes [] = [] := by
        cases c.writes <;> rfl
      rw [packet_write h, hdata]
      unfold AdbdStreams.shellWrite
      rw [hnothing, List.append_nil]
      split <;> exact ⟨rfl, rfl⟩

/-- A packet is handled as what it is exactly if it is attributable. -/
theorem isolated_iff (s : AdbdStreams) (m : AMessage) : Isolated s m ↔ Attributable s m := by
  unfold Attributable
  by_cases hopen : m.command = aOpen
  · rw [isolated_open_iff hopen]
    exact ⟨fun h => ⟨fun _ => h, fun hc => absurd (hopen.symm.trans hc) (by decide),
      fun hc => absurd (hopen.symm.trans hc) (by decide)⟩, fun h => h.1 hopen⟩
  by_cases hclose : m.command = aClse
  · rw [isolated_close_iff hclose]
    exact ⟨fun h => ⟨fun hc => absurd hc hopen, fun _ => h,
      fun hc => absurd (hclose.symm.trans hc) (by decide)⟩, fun h => h.2.1 hclose⟩
  by_cases hwrite : m.command = aWrte
  · rw [isolated_write_iff hwrite]
    exact ⟨fun h => ⟨fun hc => absurd hc hopen, fun hc => absurd hc hclose, fun _ => h⟩,
      fun h => h.2.2 hwrite⟩
  · refine iff_of_true ?_ ⟨fun hc => absurd hc hopen, fun hc => absurd hc hclose,
      fun hc => absurd hc hwrite⟩
    unfold Isolated
    split
    · trivial
    · rename_i hcnxn
      rw [if_neg (not_or.mpr ⟨hclose, hwrite⟩)]
      exact packet_other hcnxn hopen hclose hwrite

end Packets

/-! ## Runs -/

/-- The packets of a run, each with the state it arrives in. -/
def arrivals : AdbdStreams → List (AMessage × ShellCalls) → List (AdbdStreams × AMessage)
  | _, [] => []
  | s, x :: xs => (s, x.1) :: arrivals (s.packet x.1 x.2) xs

/-- A well-formed packet fits the buffer. -/
def AMessage.WellFormed (m : AMessage) : Prop := m.data.length ≤ 4096

/-- In a run of well-formed packets, each is handled as what it is if and only if each is
attributable where it arrives. -/
theorem adbd_isolated_iff (data : Nat → UInt8) (xs : List (AMessage × ShellCalls))
    (_ : ∀ x ∈ xs, x.1.WellFormed) :
    (∀ a ∈ arrivals (.start data) xs, Isolated a.1 a.2) ↔
      ∀ a ∈ arrivals (.start data) xs, Attributable a.1 a.2 :=
  forall₂_congr fun a _ => isolated_iff a.1 a.2

/-- A shell is opened and given a byte to read. -/
def oneShell : List (AMessage × ShellCalls) :=
  [(⟨aOpen, 7, 0, shellService ++ [0]⟩, ⟨true, []⟩), (⟨aWrte, 7, 1234, [65]⟩, ⟨true, [some 1]⟩)]

theorem adbd_isolated_iff_oneShell : (∀ x ∈ oneShell, x.1.WellFormed) ∧
    ((∀ a ∈ arrivals (.start fun _ => 0) oneShell, Isolated a.1 a.2) ↔
      ∀ a ∈ arrivals (.start fun _ => 0) oneShell, Attributable a.1 a.2) := by
  have hfits : ∀ x ∈ oneShell, x.1.WellFormed := by
    unfold AMessage.WellFormed
    decide
  exact ⟨hfits, adbd_isolated_iff _ _ hfits⟩

/-- A second open is refused, and the close that answers the refusal closes the first shell. -/
def refusedOpen : List (AMessage × ShellCalls) :=
  [(⟨aOpen, 7, 0, shellService ++ [0]⟩, ⟨true, []⟩),
    (⟨aOpen, 9, 0, shellService ++ [0]⟩, ⟨true, []⟩), (⟨aClse, 9, 0, []⟩, ⟨true, []⟩)]

theorem adbd_close_crosses_streams : (∀ x ∈ refusedOpen, x.1.WellFormed) ∧
    ¬ ∀ a ∈ arrivals (.start fun _ => 0) refusedOpen, Isolated a.1 a.2 := by
  refine ⟨by unfold AMessage.WellFormed; decide, fun h => ?_⟩
  have hlast := h _ (List.mem_cons_of_mem _ (List.mem_cons_of_mem _ (List.mem_cons_self ..)))
  have hopen : (((AdbdStreams.start fun _ => 0).packet ⟨aOpen, 7, 0, shellService ++ [0]⟩
      ⟨true, []⟩).packet ⟨aOpen, 9, 0, shellService ++ [0]⟩ ⟨true, []⟩).shell = some 7 := by
    decide
  rcases (isolated_close_iff rfl).mp hlast with hnone | hown
  · exact absurd (hopen.symm.trans hnone) nofun
  · exact absurd (Option.some.inj (hopen.symm.trans hown.1)) (by decide)

end Novo7

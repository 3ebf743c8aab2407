import Mathlib.Data.List.Flatten
import Novo7.Bytes

/-!
# The debug bridge on the installed system

`adbd_emu` has two threads. The main loop reads packets from the USB channel and answers them;
the shell reader passes on what the shell prints. Both send through `send_packet`, which holds
`gSendMessageMutex` from the first byte of a packet to the last. To close the shell, the main loop
cancels the reader, with the mutex held so that no packet is under way, and joins it.

A cancellation is only a request: it takes effect in the reader's next blocking call. A call of
`pthread_mutex_lock` is no such call, a `write` is one. So the reader may wait for the mutex when it is
cancelled, take it afterwards, and end inside `usbwrite`.

A step of the model is one library call of one thread; `step` says for each choice of the thread and
of what the call returns what happens, and is undefined when the call blocks.
-/

namespace Novo7

open Bytes

/-! ## Packets -/

def aSync : Nat := 0x434e5953
def aCnxn : Nat := 0x4e584e43
def aOpen : Nat := 0x4e45504f
def aOkay : Nat := 0x59414b4f
def aClse : Nat := 0x45534c43
def aWrte : Nat := 0x45545257

/-- `struct amessage` and its payload; the other fields are computed. -/
structure AMessage where
  command : Nat
  arg0 : Nat
  arg1 : Nat
  data : List UInt8

/-- The header that `send_packet` writes. -/
def AMessage.header (m : AMessage) : List UInt8 :=
  leBytes 4 m.command ++ leBytes 4 m.arg0 ++ leBytes 4 m.arg1 ++ leBytes 4 m.data.length ++
    leBytes 4 (m.data.map UInt8.toNat).sum ++ leBytes 4 (m.command ^^^ 0xffffffff)

def AMessage.bytes (m : AMessage) : List UInt8 := m.header ++ m.data

/-- `send_cnxn`; the text ends with a zero. -/
def cnxnMessage : AMessage :=
  ⟨aCnxn, 0x01000000, 4096,
    "device::ro.product.name=Debian;".toUTF8.toList ++
      "ro.product.model=Novo7Aurora;ro.product.device=Debian;".toUTF8.toList ++ [0]⟩

/-- `send_ready` -/
def readyMessage (lcl remote : Nat) : AMessage := ⟨aOkay, lcl, remote, []⟩

/-- `send_close` -/
def closeMessage (lcl remote : Nat) : AMessage := ⟨aClse, lcl, remote, []⟩

/-- `send_write` -/
def writeMessage (lcl remote : Nat) (data : List UInt8) : AMessage := ⟨aWrte, lcl, remote, data⟩

/-! ## Threads -/

inductive AdbThread where
  | main
  | reader
deriving DecidableEq

/-- Where a thread is in `send_packet`: before it has the mutex, or with what it still has to write
of the header and of the data. -/
inductive Sending where
  | lock (m : AMessage)
  | write (header data : List UInt8)

/-- What is still to be written. -/
def Sending.owed : Sending → List UInt8
  | .lock _ => []
  | .write header data => header ++ data

/-- The thread has the mutex. -/
def Sending.holds : Sending → Bool
  | .lock _ => false
  | .write _ _ => true

/-- `ShellReadFun`: not there, in `read`, sending (and done after that), or ended and not yet
joined. -/
inductive ShellReader where
  | absent
  | reading
  | sending (x : Sending) (last : Bool)
  | ended

/-- The reader after a call in `send_packet`. -/
def ShellReader.after (last : Bool) : Option Sending → ShellReader
  | some x => .sending x last
  | none => if last then .ended else .reading

/-- What the main loop still has to do for the packet it has got. -/
inductive MainAct where
  | send (m : AMessage)
  /-- the four calls of `shell_close`, and `close(gShellFd)` -/
  | lockShell
  | cancelReader
  | unlockShell
  | joinReader
  | closeShell
  /-- the parent's part of `shell_open` -/
  | startReader (remote : Nat)
  /-- the loop of `shell_write` -/
  | writeShell
  /-- `gAdbFd` closed, where it is open, and opened again -/
  | openAdb

structure Adbd where
  /-- what has been written to the channel -/
  chan : List UInt8
  /-- `gAdbFd >= 0` -/
  adbFd : Bool
  /-- `gShellFd >= 0` -/
  shellFd : Bool
  shellRemoteId : Nat
  mutex : Option AdbThread
  /-- the reader has been asked to end -/
  cancel : Bool
  reader : ShellReader
  mainSending : Option Sending
  todo : List MainAct

/-- `main` before its loop -/
def Adbd.start : Adbd where
  chan := []
  adbFd := false
  shellFd := false
  shellRemoteId := 0
  mutex := none
  cancel := false
  reader := .absent
  mainSending := none
  todo := [.openAdb]

/-- `shell_close` -/
def Adbd.shellClose (s : Adbd) : List MainAct :=
  if s.shellFd then [.lockShell, .cancelReader, .unlockShell, .joinReader, .closeShell] else []

/-- How `A_OPEN` goes: another service is asked for, no shell can be started, or it is. -/
inductive OpenOutcome where
  | otherService
  | fails
  | works

/-- `handle_packet` -/
def Adbd.handlePacket (s : Adbd) (m : AMessage) (o : OpenOutcome) : List MainAct :=
  if m.command = aSync then [.send m]
  else if m.command = aCnxn then .send cnxnMessage :: s.shellClose
  else if m.command = aOpen then
    match o with
    | .otherService => [.send (closeMessage 0 m.arg0)]
    | .fails => [.send (closeMessage 0 m.arg0)]
    | .works =>
      if s.shellFd then [.send (closeMessage 0 m.arg0)]
      else [.startReader m.arg0, .send (readyMessage 1234 m.arg0)]
  else if m.command = aClse then s.shellClose
  else if m.command = aWrte then
    if s.shellFd then [.writeShell, .send (readyMessage m.arg1 m.arg0)]
    else [.send (closeMessage m.arg1 m.arg0)]
  else []

/-! ## Steps -/

/-- What a `write` to the channel returns. -/
inductive WriteResult where
  | wrote (n : Nat)
  | error

/-- One call in `send_packet`; `none` in the second place when it returns. -/
def Adbd.sendStep (s : Adbd) (t : AdbThread) (r : WriteResult) :
    Sending → Option (Adbd × Option Sending)
  | .lock m =>
    if s.mutex = none then
      some ({ s with mutex := some t }, some (if s.adbFd then .write m.header m.data else .write [] []))
    else none
  | .write [] [] => some ({ s with mutex := none }, none)
  | .write [] (b :: data) =>
    match r with
    | .wrote n => some ({ s with chan := s.chan ++ (b :: data).take n },
        some (.write [] ((b :: data).drop n)))
    | .error => some (s, some (.write [] []))
  | .write (b :: header) data =>
    match r with
    | .wrote n => some ({ s with chan := s.chan ++ (b :: header).take n },
        some (.write ((b :: header).drop n) data))
    | .error => some (s, some (.write [] data))

/-- One call of the main loop outside `send_packet`. -/
def Adbd.mainAct (s : Adbd) : MainAct → Option Adbd
  | .send m => some { s with mainSending := some (.lock m) }
  | .lockShell => if s.mutex = none then some { s with mutex := some .main } else none
  | .cancelReader => some { s with cancel := true }
  | .unlockShell => some { s with mutex := none }
  | .joinReader =>
    match s.reader with
    | .ended => some { s with reader := .absent, cancel := false }
    | _ => none
  | .closeShell => some { s with shellFd := false }
  | .startReader remote => some { s with
      shellFd := true, shellRemoteId := remote, reader := .reading, cancel := false }
  | .writeShell => some s
  | .openAdb => some { s with adbFd := true }

/-- The next call that returns, and what it returns. -/
inductive AdbdStep where
  /-- the main loop gets a packet -/
  | recv (m : AMessage) (o : OpenOutcome)
  /-- the main loop cannot read the channel any more -/
  | recvFails
  | main (r : WriteResult)
  /-- `read(gShellFd)` returns data -/
  | shellPrints (data : List UInt8)
  /-- `read(gShellFd)` returns nothing -/
  | shellEnds
  | reader (r : WriteResult)
  /-- the cancellation takes effect -/
  | cancelled

def Adbd.step (s : Adbd) : AdbdStep → Option Adbd
  | .recv m o =>
    match s.mainSending, s.todo with
    | none, [] => some { s with todo := s.handlePacket m o }
    | _, _ => none
  | .recvFails =>
    match s.mainSending, s.todo with
    | none, [] => some { s with todo := s.shellClose ++ [.openAdb] }
    | _, _ => none
  | .main r =>
    match s.mainSending with
    | some x => (s.sendStep .main r x).map fun p => { p.1 with mainSending := p.2 }
    | none =>
      match s.todo with
      | [] => none
      | a :: rest => { s with todo := rest }.mainAct a
  | .shellPrints data =>
    match s.reader with
    | .reading => some { s with
        reader := .sending (.lock (writeMessage 1234 s.shellRemoteId data)) false }
    | _ => none
  | .shellEnds =>
    match s.reader with
    | .reading => some { s with
        reader := .sending (.lock (closeMessage 1234 s.shellRemoteId)) true }
    | _ => none
  | .reader r =>
    match s.reader with
    | .sending x last => (s.sendStep .reader r x).map fun p => { p.1 with
        reader := ShellReader.after last p.2 }
    | _ => none
  | .cancelled =>
    -- blocked in `read`, or in a `write` of `usbwrite`
    match s.cancel, s.reader with
    | true, .reading => some { s with reader := .ended }
    | true, .sending (.write [] []) _ => none
    | true, .sending (.write _ _) _ => some { s with reader := .ended }
    | _, _ => none

/-- The states that steps lead to, each taken where `pre` holds. -/
inductive Adbd.Reach (pre : AdbdStep → Adbd → Prop) : Adbd → Prop
  | start : Reach pre .start
  | step {s s' : Adbd} (a : AdbdStep) (h : Reach pre s) (hpre : pre a s) (hstep : s.step a = some s') :
      Reach pre s'

/-! ## Who holds the mutex, and what is owed -/

/-- The channel holds whole packets only. -/
def WholePackets (bs : List UInt8) : Prop := ∃ ms : List AMessage, bs = ms.flatMap AMessage.bytes

theorem WholePackets.append {bs : List UInt8} (h : WholePackets bs) (m : AMessage) :
    WholePackets (bs ++ m.bytes) := by
  obtain ⟨ms, rfl⟩ := h
  refine ⟨ms ++ [m], ?_⟩
  rw [List.flatMap_append, List.flatMap_singleton]

theorem Sending.owed_eq_nil {x : Sending} (h : x.holds = false) : x.owed = [] := by
  cases x with
  | lock m => rfl
  | write header data => cases h

def ShellReader.holds : ShellReader → Bool
  | .sending x _ => x.holds
  | _ => false

def ShellReader.owed : ShellReader → List UInt8
  | .sending x _ => x.owed
  | _ => []

theorem ShellReader.owed_eq_nil {x : ShellReader} (h : x.holds = false) : x.owed = [] := by
  cases x with
  | sending x last => exact Sending.owed_eq_nil h
  | _ => rfl

/-- The reader thread is not there, or has come to its end. -/
def ShellReader.Over : ShellReader → Prop
  | .absent | .ended => True
  | _ => False

/-- What the main loop still has to write of the packet it is sending. -/
def Adbd.mainOwed (s : Adbd) : List UInt8 := (s.mainSending.map Sending.owed).getD []

/-- Where the main loop is outside `send_packet`. -/
inductive MainPhase where
  | free
  /-- in `shell_close`, with the mutex -/
  | held
  /-- in `shell_close`, before the join -/
  | joining
  /-- no reader is there -/
  | alone
deriving DecidableEq

/-- What is to be done fits together, starting from a phase. -/
def Balanced : MainPhase → List MainAct → Prop
  | ph, [] => ph = .free
  | ph, .lockShell :: rest => ph = .free ∧ Balanced .held rest
  | ph, .cancelReader :: rest => ph = .held ∧ Balanced .held rest
  | ph, .unlockShell :: rest => ph = .held ∧ Balanced .joining rest
  | ph, .joinReader :: rest => ph = .joining ∧ Balanced .alone rest
  | ph, .closeShell :: rest => ph = .alone ∧ Balanced .free rest
  | ph, .startReader _ :: rest => ph = .alone ∧ Balanced .free rest
  | ph, _ :: rest => ph = .free ∧ Balanced .free rest

/-- A phase and the mutex and the reader. -/
def MainPhase.Fits (ph : MainPhase) (s : Adbd) : Prop :=
  (s.mutex = some .main ↔ ph = .held) ∧ (ph = .alone → s.reader = .absent)

theorem balanced_shellClose (s : Adbd) {rest : List MainAct} (h : Balanced .free rest) :
    Balanced .free (s.shellClose ++ rest) := by
  unfold Adbd.shellClose
  split
  · exact ⟨rfl, rfl, rfl, rfl, rfl, h⟩
  · exact h

/-- What a packet asks for starts in the free phase, or finds no reader. -/
theorem balanced_handlePacket (s : Adbd) (m : AMessage) (o : OpenOutcome) :
    Balanced .free (s.handlePacket m o) ∨
      s.shellFd = false ∧ Balanced .alone (s.handlePacket m o) := by
  have hclose := @balanced_shellClose s [] rfl
  rw [List.append_nil] at hclose
  unfold Adbd.handlePacket
  repeat' split
  all_goals first
    | exact Or.inl ⟨rfl, rfl⟩
    | exact Or.inl ⟨rfl, hclose⟩
    | exact Or.inl ⟨rfl, rfl, rfl⟩
    | exact Or.inl hclose
    | exact Or.inl rfl
    | exact Or.inr ⟨Bool.eq_false_iff.mpr ‹_›, rfl, rfl, rfl⟩

/-- What a call in `send_packet` can do, if no write fails: take the mutex, give it back, or write on. -/
theorem sendStep_cases {s s' : Adbd} {t : AdbThread} {r : WriteResult} {x : Sending}
    {y : Option Sending} (hr : r ≠ .error) (h : s.sendStep t r x = some (s', y)) :
    (x.holds = false ∧ s.mutex = none ∧ s' = { s with mutex := some t } ∧
      ∃ w, y = some w ∧ w.holds = true ∧ (w.owed = [] ∨ ∃ m : AMessage, w.owed = m.bytes)) ∨
    (x.holds = true ∧ x.owed = [] ∧ y = none ∧ s' = { s with mutex := none }) ∨
    (x.holds = true ∧ ∃ w bs, y = some w ∧ w.holds = true ∧ bs ++ w.owed = x.owed ∧
      s' = { s with chan := s.chan ++ bs }) := by
  cases x with
  | lock m =>
      simp only [Adbd.sendStep] at h
      split at h
      · rename_i hfree
        obtain ⟨rfl, rfl⟩ := Prod.mk.inj (Option.some.inj h)
        refine Or.inl ⟨rfl, hfree, rfl, _, rfl, ?_, ?_⟩
        · split <;> rfl
        · split
          · exact Or.inr ⟨m, rfl⟩
          · exact Or.inl rfl
      · cases h
  | write header data =>
      cases r with
      | error => exact absurd rfl hr
      | wrote n =>
          cases header with
          | nil =>
              cases data with
              | nil =>
                  obtain ⟨rfl, rfl⟩ := Prod.mk.inj (Option.some.inj h)
                  exact Or.inr (Or.inl ⟨rfl, rfl, rfl, rfl⟩)
              | cons b data =>
                  obtain ⟨rfl, rfl⟩ := Prod.mk.inj (Option.some.inj h)
                  exact Or.inr (Or.inr ⟨rfl, _, _, rfl, rfl, List.take_append_drop n _, rfl⟩)
          | cons b header =>
              obtain ⟨rfl, rfl⟩ := Prod.mk.inj (Option.some.inj h)
              refine Or.inr (Or.inr ⟨rfl, _, _, rfl, rfl, ?_, rfl⟩)
              rw [Sending.owed, ← List.append_assoc, List.take_append_drop]
              rfl

/-! ## Invariant -/

structure Adbd.Inv (s : Adbd) : Prop where
  reader_iff : s.mutex = some .reader ↔ s.reader.holds = true
  shell : s.shellFd = false → s.reader = .absent
  sending : ∀ x, s.mainSending = some x →
    (s.mutex = some .main ↔ x.holds = true) ∧ Balanced .free s.todo
  todo : s.mainSending = none → ∃ ph : MainPhase, ph.Fits s ∧ Balanced ph s.todo
  cancel : s.cancel = true → s.reader.holds = false
  whole : WholePackets (s.chan ++ (s.reader.owed ++ s.mainOwed))

/-- The reader does not take the mutex while it has been asked to end, and no write to the channel
fails. -/
def Undisturbed (a : AdbdStep) (s : Adbd) : Prop :=
  match a with
  | .main r => r ≠ .error
  | .reader r => r ≠ .error ∧
      ∀ x last, s.reader = .sending x last → x.holds = false → s.cancel = false
  | _ => True

theorem Adbd.Inv.start : Adbd.start.Inv :=
  ⟨by decide, fun _ => rfl, nofun, fun _ => ⟨.free, ⟨by decide, nofun⟩, rfl, rfl⟩, nofun, ⟨[], rfl⟩⟩

theorem Adbd.Inv.reader_idle {s : Adbd} (hi : s.Inv) (h : s.mutex ≠ some .reader) :
    s.reader.holds = false :=
  Bool.eq_false_iff.mpr fun hr => h (hi.reader_iff.mpr hr)

/-- The reader does not hold the mutex that is free or with the main loop. -/
theorem not_reader_iff {s : Adbd} {t : Option AdbThread} (ht : t ≠ some .reader)
    (h : s.reader.holds = false) : t = some .reader ↔ s.reader.holds = true :=
  ⟨fun hr => absurd hr ht, fun hr => absurd (h.symm.trans hr) nofun⟩

theorem not_held_iff {t : Option AdbThread} {ph : MainPhase} (ht : t ≠ some .main)
    (hph : ph ≠ .held) : t = some .main ↔ ph = .held :=
  ⟨fun h => absurd h ht, fun h => absurd h hph⟩

/-- The main loop has read a packet, or cannot. -/
theorem Adbd.Inv.new_todo {s : Adbd} (hi : s.Inv) (hs : s.mainSending = none) (ht : s.todo = [])
    {todo : List MainAct} (hb : Balanced .free todo ∨ s.shellFd = false ∧ Balanced .alone todo) :
    Adbd.Inv { s with todo := todo } := by
  obtain ⟨ph, ⟨hmutex, -⟩, hbal⟩ := hi.todo hs
  rw [ht] at hbal
  have hph : ph = .free := hbal
  subst hph
  have hmain : ¬s.mutex = some .main := fun h => nomatch hmutex.mp h
  refine ⟨hi.reader_iff, hi.shell, fun x hx => ?_, fun _ => ?_, hi.cancel, hi.whole⟩
  · rw [hs] at hx
    cases hx
  · rcases hb with hb | ⟨hshell, hb⟩
    · exact ⟨.free, ⟨⟨fun h => absurd h hmain, nofun⟩, nofun⟩, hb⟩
    · exact ⟨.alone, ⟨⟨fun h => absurd h hmain, nofun⟩, fun _ => hi.shell hshell⟩, hb⟩

/-- A call of the main loop in `send_packet`. -/
theorem Adbd.Inv.main_sends {s s' : Adbd} {x : Sending} {y : Option Sending} {r : WriteResult}
    (hi : s.Inv) (hx : s.mainSending = some x) (hr : r ≠ .error)
    (h : s.sendStep .main r x = some (s', y)) : Adbd.Inv { s' with mainSending := y } := by
  obtain ⟨hmutex, htodo⟩ := hi.sending x hx
  have hwhole := hi.whole
  rw [Adbd.mainOwed, hx, Option.map_some, Option.getD_some] at hwhole
  rcases sendStep_cases hr h with ⟨hx', hfree, rfl, w, rfl, hw, howed⟩ | ⟨hx', hnil, rfl, rfl⟩ |
    ⟨hx', w, bs, rfl, hw, happ, rfl⟩
  · have hidle := hi.reader_idle (by rw [hfree]; exact nofun)
    rw [Sending.owed_eq_nil hx', ShellReader.owed_eq_nil hidle] at hwhole
    refine ⟨not_reader_iff nofun hidle, hi.shell, ?_, nofun, hi.cancel, ?_⟩
    · rintro _ ⟨⟩
      exact ⟨⟨fun _ => hw, fun _ => rfl⟩, htodo⟩
    · simp only [Adbd.mainOwed, Option.map_some, Option.getD_some, ShellReader.owed_eq_nil hidle,
        List.nil_append, List.append_nil] at hwhole ⊢
      rcases howed with h0 | ⟨m, hm⟩
      · rwa [h0, List.append_nil]
      · rw [hm]
        exact hwhole.append m
  · have hidle := hi.reader_idle (by rw [hmutex.mpr hx']; exact nofun)
    refine ⟨not_reader_iff nofun hidle, hi.shell, nofun, fun _ => ?_, hi.cancel, ?_⟩
    · exact ⟨.free, ⟨⟨nofun, nofun⟩, nofun⟩, htodo⟩
    · rwa [hnil] at hwhole
  · have hidle := hi.reader_idle (by rw [hmutex.mpr hx']; exact nofun)
    refine ⟨hi.reader_iff, hi.shell, ?_, nofun, hi.cancel, ?_⟩
    · rintro _ ⟨⟩
      exact ⟨⟨fun _ => hw, fun _ => hmutex.mpr hx'⟩, htodo⟩
    · simp only [Adbd.mainOwed, Option.map_some, Option.getD_some, ShellReader.owed_eq_nil hidle,
        List.nil_append, List.append_assoc, happ] at hwhole ⊢
      exact hwhole

/-- A call of the main loop outside `send_packet`. -/
theorem Adbd.Inv.main_acts {s s' : Adbd} {a : MainAct} {rest : List MainAct} (hi : s.Inv)
    (hs : s.mainSending = none) (ht : s.todo = a :: rest)
    (h : ({ s with todo := rest } : Adbd).mainAct a = some s') : s'.Inv := by
  obtain ⟨ph, ⟨hmutex, halone⟩, hb⟩ := hi.todo hs
  rw [ht] at hb
  have hwhole := hi.whole
  have hnone : ∀ x, s.mainSending ≠ some x := by
    rw [hs]
    exact nofun
  cases a with
  | send m =>
      cases h
      obtain ⟨rfl, hbal⟩ := hb
      refine ⟨hi.reader_iff, hi.shell, ?_, nofun, hi.cancel, ?_⟩
      · rintro _ ⟨⟩
        exact ⟨⟨(fun hm => nomatch hmutex.mp hm), nofun⟩, hbal⟩
      · rw [Adbd.mainOwed, hs] at hwhole
        exact hwhole
  | lockShell =>
      obtain ⟨rfl, hbal⟩ := hb
      simp only [Adbd.mainAct] at h
      split at h
      · rename_i hfree
        cases h
        have hidle := hi.reader_idle (by rw [hfree]; exact nofun)
        exact ⟨not_reader_iff nofun hidle, hi.shell, fun x hx => absurd hx (hnone x),
          fun _ => ⟨.held, ⟨⟨fun _ => rfl, fun _ => rfl⟩, nofun⟩, hbal⟩, hi.cancel, hwhole⟩
      · cases h
  | cancelReader =>
      obtain ⟨rfl, hbal⟩ := hb
      cases h
      have hmain := hmutex.mpr rfl
      exact ⟨hi.reader_iff, hi.shell, fun x hx => absurd hx (hnone x),
        fun _ => ⟨.held, ⟨⟨fun _ => rfl, fun _ => hmain⟩, nofun⟩, hbal⟩,
        fun _ => hi.reader_idle (by rw [hmain]; exact nofun), hwhole⟩
  | unlockShell =>
      obtain ⟨rfl, hbal⟩ := hb
      cases h
      have hidle := hi.reader_idle (by rw [hmutex.mpr rfl]; exact nofun)
      exact ⟨not_reader_iff nofun hidle, hi.shell, fun x hx => absurd hx (hnone x),
        fun _ => ⟨.joining, ⟨⟨nofun, nofun⟩, nofun⟩, hbal⟩, hi.cancel, hwhole⟩
  | joinReader =>
      obtain ⟨rfl, hbal⟩ := hb
      cases hended : s.reader with
      | ended =>
          simp only [Adbd.mainAct, hended] at h
          cases h
          have hidle : s.reader.holds = false := by rw [hended]; rfl
          rw [hended] at hwhole
          refine ⟨⟨fun hr => ?_, nofun⟩, fun _ => rfl, fun x hx => absurd hx (hnone x),
            fun _ => ⟨.alone, ⟨not_held_iff (fun hm => nomatch hmutex.mp hm) nofun, fun _ => rfl⟩, hbal⟩,
            nofun, hwhole⟩
          exact absurd (hidle.symm.trans (hi.reader_iff.mp hr)) nofun
      | absent =>
          simp only [Adbd.mainAct, hended] at h
          cases h
      | reading =>
          simp only [Adbd.mainAct, hended] at h
          cases h
      | sending x last =>
          simp only [Adbd.mainAct, hended] at h
          cases h
  | closeShell =>
      obtain ⟨rfl, hbal⟩ := hb
      cases h
      exact ⟨hi.reader_iff, fun _ => halone rfl, fun x hx => absurd hx (hnone x),
        fun _ => ⟨.free, ⟨not_held_iff (fun hm => nomatch hmutex.mp hm) nofun, nofun⟩, hbal⟩, hi.cancel, hwhole⟩
  | startReader remote =>
      obtain ⟨rfl, hbal⟩ := hb
      cases h
      have habsent := halone rfl
      have hidle : s.reader.holds = false := by rw [habsent]; rfl
      rw [habsent] at hwhole
      refine ⟨⟨fun hr => ?_, nofun⟩, nofun, fun x hx => absurd hx (hnone x),
        fun _ => ⟨.free, ⟨not_held_iff (fun hm => nomatch hmutex.mp hm) nofun, nofun⟩, hbal⟩, nofun, hwhole⟩
      exact absurd (hidle.symm.trans (hi.reader_iff.mp hr)) nofun
  | writeShell =>
      obtain ⟨rfl, hbal⟩ := hb
      cases h
      exact ⟨hi.reader_iff, hi.shell, fun x hx => absurd hx (hnone x),
        fun _ => ⟨.free, ⟨not_held_iff (fun hm => nomatch hmutex.mp hm) nofun, nofun⟩, hbal⟩, hi.cancel, hwhole⟩
  | openAdb =>
      obtain ⟨rfl, hbal⟩ := hb
      cases h
      exact ⟨hi.reader_iff, hi.shell, fun x hx => absurd hx (hnone x),
        fun _ => ⟨.free, ⟨not_held_iff (fun hm => nomatch hmutex.mp hm) nofun, nofun⟩, hbal⟩, hi.cancel, hwhole⟩

/-- The main loop owes nothing of a packet while it does not hold the mutex. -/
theorem Adbd.Inv.mainOwed_eq_nil {s : Adbd} (hi : s.Inv) (h : s.mutex ≠ some .main) :
    s.mainOwed = [] := by
  unfold Adbd.mainOwed
  cases hs : s.mainSending with
  | none => rfl
  | some x =>
      exact Sending.owed_eq_nil (Bool.eq_false_iff.mpr fun hx => h ((hi.sending x hs).1.mpr hx))

/-- A call of the reader in `send_packet`. -/
theorem Adbd.Inv.reader_sends {s s' : Adbd} {x : Sending} {last : Bool} {y : Option Sending}
    {r : WriteResult} (hi : s.Inv) (hx : s.reader = .sending x last) (hr : r ≠ .error)
    (hc : x.holds = false → s.cancel = false) (h : s.sendStep .reader r x = some (s', y)) :
    Adbd.Inv { s' with reader := .after last y } := by
  have hshell : s.shellFd = true := by
    cases hf : s.shellFd with
    | true => rfl
    | false => exact absurd (hx.symm.trans (hi.shell hf)) nofun
  have hiff := hi.reader_iff
  have hwhole := hi.whole
  have hcancel := hi.cancel
  rw [hx] at hiff hwhole hcancel
  rcases sendStep_cases hr h with ⟨hx', hfree, rfl, w, rfl, hw, howed⟩ | ⟨hx', hnil, rfl, rfl⟩ |
    ⟨hx', w, bs, rfl, hw, happ, rfl⟩
  · have hmain := hi.mainOwed_eq_nil (by rw [hfree]; exact nofun)
    have hnot : s.mutex ≠ some .main := by rw [hfree]; exact nofun
    refine ⟨⟨fun _ => hw, fun _ => rfl⟩, fun hf => absurd (hshell.symm.trans hf) nofun,
      fun z hz => ?_, fun hs => ?_, fun hcc => ?_, ?_⟩
    · obtain ⟨hz', hbal⟩ := hi.sending z hz
      exact ⟨⟨nofun, fun hh => absurd (hz'.mpr hh) hnot⟩, hbal⟩
    · obtain ⟨ph, ⟨hmutex, halone⟩, hbal⟩ := hi.todo hs
      refine ⟨ph, ⟨⟨nofun, fun hh => absurd (hmutex.mpr hh) hnot⟩, fun hh => ?_⟩, hbal⟩
      exact absurd (hx.symm.trans (halone hh)) nofun
    · exact absurd ((hc hx').symm.trans hcc) nofun
    · show WholePackets (s.chan ++ (w.owed ++ s.mainOwed))
      simp only [ShellReader.owed, Sending.owed_eq_nil hx', hmain, List.append_nil] at hwhole ⊢
      rcases howed with h0 | ⟨m, hm⟩
      · rwa [h0, List.append_nil]
      · rw [hm]
        exact hwhole.append m
  · have hreader := hiff.mpr hx'
    have hnot : s.mutex ≠ some .main := by rw [hreader]; exact nofun
    have hidle : ShellReader.holds (.after last none) = false := by
      cases last <;> rfl
    refine ⟨⟨nofun, fun hh => absurd (hidle.symm.trans hh) nofun⟩,
      fun hf => absurd (hshell.symm.trans hf) nofun, fun z hz => ?_, fun hs => ?_,
      fun _ => hidle, ?_⟩
    · obtain ⟨hz', hbal⟩ := hi.sending z hz
      exact ⟨⟨nofun, fun hh => absurd (hz'.mpr hh) hnot⟩, hbal⟩
    · obtain ⟨ph, ⟨hmutex, halone⟩, hbal⟩ := hi.todo hs
      refine ⟨ph, ⟨⟨nofun, fun hh => absurd (hmutex.mpr hh) hnot⟩, fun hh => ?_⟩, hbal⟩
      exact absurd (hx.symm.trans (halone hh)) nofun
    · show WholePackets (s.chan ++ (ShellReader.owed (.after last none) ++ s.mainOwed))
      rw [ShellReader.owed_eq_nil hidle]
      rwa [ShellReader.owed, hnil] at hwhole
  · have hreader := hiff.mpr hx'
    have hmain := hi.mainOwed_eq_nil (by rw [hreader]; exact nofun)
    refine ⟨⟨fun _ => hw, fun _ => hreader⟩, fun hf => absurd (hshell.symm.trans hf) nofun,
      hi.sending, fun hs => ?_, fun hcc => absurd ((hcancel hcc).symm.trans hx') nofun, ?_⟩
    · obtain ⟨ph, ⟨hmutex, halone⟩, hbal⟩ := hi.todo hs
      exact ⟨ph, ⟨hmutex, fun hh => absurd (hx.symm.trans (halone hh)) nofun⟩, hbal⟩
    · show WholePackets (s.chan ++ bs ++ (w.owed ++ s.mainOwed))
      simp only [ShellReader.owed, hmain, List.append_nil, List.append_assoc, happ] at hwhole ⊢
      exact hwhole

/-- The reader comes out of `read`, or ends there. -/
theorem Adbd.Inv.reader_moves {s : Adbd} (hi : s.Inv) (hx : s.reader = .reading) {y : ShellReader}
    (hy : y.holds = false) : Adbd.Inv { s with reader := y } := by
  have hiff := hi.reader_iff
  have hwhole := hi.whole
  rw [hx] at hiff hwhole
  refine ⟨⟨fun h => absurd (hiff.mp h) nofun, fun h => absurd (hy.symm.trans h) nofun⟩,
    fun hf => absurd (hx.symm.trans (hi.shell hf)) nofun, hi.sending, fun hs => ?_, fun _ => hy, ?_⟩
  · obtain ⟨ph, ⟨hmutex, halone⟩, hbal⟩ := hi.todo hs
    exact ⟨ph, ⟨hmutex, fun hh => absurd (hx.symm.trans (halone hh)) nofun⟩, hbal⟩
  · show WholePackets (s.chan ++ (y.owed ++ s.mainOwed))
    rw [ShellReader.owed_eq_nil hy]
    exact hwhole

theorem Adbd.Inv.step {s s' : Adbd} {a : AdbdStep} (hi : s.Inv) (hpre : Undisturbed a s)
    (h : s.step a = some s') : s'.Inv := by
  cases a with
  | recv m o =>
      cases hs : s.mainSending with
      | some x => simp [Adbd.step, hs] at h
      | none =>
          cases ht : s.todo with
          | cons b rest => simp [Adbd.step, hs, ht] at h
          | nil =>
              simp only [Adbd.step, hs, ht, Option.some.injEq] at h
              subst h
              simpa only [hs] using hi.new_todo hs ht (balanced_handlePacket s m o)
  | recvFails =>
      cases hs : s.mainSending with
      | some x => simp [Adbd.step, hs] at h
      | none =>
          cases ht : s.todo with
          | cons b rest => simp [Adbd.step, hs, ht] at h
          | nil =>
              simp only [Adbd.step, hs, ht, Option.some.injEq] at h
              subst h
              simpa only [hs] using hi.new_todo hs ht
                (Or.inl (@balanced_shellClose s [.openAdb] ⟨rfl, rfl⟩))
  | main r =>
      cases hs : s.mainSending with
      | some x =>
          simp only [Adbd.step, hs, Option.map_eq_some_iff] at h
          obtain ⟨⟨s₁, y⟩, hsend, rfl⟩ := h
          exact hi.main_sends hs hpre hsend
      | none =>
          cases ht : s.todo with
          | nil => simp [Adbd.step, hs, ht] at h
          | cons b rest =>
              simp only [Adbd.step, hs, ht] at h
              exact hi.main_acts hs ht (by simpa only [hs] using h)
  | shellPrints data =>
      cases hx : s.reader with
      | reading =>
          simp only [Adbd.step, hx, Option.some.injEq] at h
          subst h
          exact hi.reader_moves hx rfl
      | _ => simp [Adbd.step, hx] at h
  | shellEnds =>
      cases hx : s.reader with
      | reading =>
          simp only [Adbd.step, hx, Option.some.injEq] at h
          subst h
          exact hi.reader_moves hx rfl
      | _ => simp [Adbd.step, hx] at h
  | reader r =>
      cases hx : s.reader with
      | sending x last =>
          simp only [Adbd.step, hx, Option.map_eq_some_iff] at h
          obtain ⟨⟨s₁, y⟩, hsend, rfl⟩ := h
          exact hi.reader_sends hx hpre.1 (hpre.2 x last hx) hsend
      | _ => simp [Adbd.step, hx] at h
  | cancelled =>
      cases hc : s.cancel with
      | false => simp [Adbd.step, hc] at h
      | true =>
          have hidle := hi.cancel hc
          cases hx : s.reader with
          | reading =>
              simp only [Adbd.step, hc, hx, Option.some.injEq] at h
              subst h
              have hmove := hi.reader_moves hx (y := .ended) rfl
              rwa [hc] at hmove
          | sending x last =>
              rw [hx] at hidle
              cases x with
              | lock m => simp [Adbd.step, hc, hx] at h
              | write header data => cases hidle
          | _ => simp [Adbd.step, hc, hx] at h

/-! ## Closing the shell -/

/-- Steps one after the other. -/
def Adbd.steps : List AdbdStep → Adbd → Option Adbd
  | [], s => some s
  | a :: as, s => s.step a >>= Adbd.steps as

/-- A shell is opened, prints something, and is closed while the reader is on its way to the
mutex. -/
def closeWhilePrinting : List AdbdStep :=
  [.main (.wrote 0), .recv ⟨aOpen, 7, 0, []⟩ .works, .main (.wrote 0), .main (.wrote 0),
    .main (.wrote 0), .main (.wrote 24), .main (.wrote 0), .shellPrints [65],
    .recv ⟨aClse, 7, 1234, []⟩ .fails, .main (.wrote 0), .main (.wrote 0), .main (.wrote 0),
    .reader (.wrote 0), .cancelled]

end Novo7

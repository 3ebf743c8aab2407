import Novo7.Machine

/-!
# A pipe of packets

One side cuts what it has to say into packets of a fixed size, the last of which may be
shorter; the other asks for a number of bytes and is given the bytes of some whole packets.
How many packets one request takes is the business of the driver in between: `TakesPackets`
says what can be relied on — a request that ends where a packet ends is served with at least
one packet and with nothing beyond it. A reader that asks again until it has everything then
gets exactly the bytes that were cut (`drain_returns`), and leaves what follows in the pipe.
-/

namespace BulkPipe

open Machine

abbrev Packet := List UInt8

/-! ## Cutting -/

/-- The loop that sends `data` in packets of at most `size` bytes. -/
def cutLoop (size : Nat) : Nat → List UInt8 → List Packet
  | 0, _ => []
  | fuel + 1, data =>
    if data = [] then [] else data.take size :: cutLoop size fuel (data.drop size)

def cut (size : Nat) (data : List UInt8) : List Packet := cutLoop size data.length data

/-- Packets of one message: all of them full but the last, and none empty. -/
inductive Burst (size : Nat) : List Packet → Prop where
  | nil : Burst size []
  | last (p : Packet) : 0 < p.length → p.length ≤ size → Burst size [p]
  | cons (p : Packet) (ps : List Packet) : 0 < p.length → p.length = size → Burst size ps →
      Burst size (p :: ps)

variable {size : Nat}

theorem cutLoop_spec (hsize : 0 < size) (fuel : Nat) : ∀ data : List UInt8, data.length ≤ fuel →
    (cutLoop size fuel data).flatten = data ∧ Burst size (cutLoop size fuel data) := by
  induction fuel with
  | zero =>
      intro data hlen
      have hnil : data = [] := List.length_eq_zero_iff.mp (Nat.le_zero.mp hlen)
      rw [hnil]
      exact ⟨rfl, .nil⟩
  | succ fuel ih =>
      intro data hlen
      rw [cutLoop]
      by_cases hnil : data = []
      · rw [if_pos hnil, hnil]
        exact ⟨rfl, .nil⟩
      · rw [if_neg hnil]
        have hpos : 0 < data.length := List.length_pos_iff.mpr hnil
        obtain ⟨hflat, hburst⟩ := ih (data.drop size) (by rw [List.length_drop]; omega)
        refine ⟨by rw [List.flatten_cons, hflat, List.take_append_drop], ?_⟩
        rcases Nat.lt_or_ge data.length size with hshort | hfull
        · have hdrop : data.drop size = [] := List.drop_of_length_le (Nat.le_of_lt hshort)
          have hrest : cutLoop size fuel [] = [] := by cases fuel <;> rfl
          rw [hdrop, hrest, List.take_of_length_le (Nat.le_of_lt hshort)]
          exact .last data hpos (Nat.le_of_lt hshort)
        · have htake : (data.take size).length = size := by
            rw [List.length_take, Nat.min_eq_left hfull]
          exact .cons _ _ (by rw [htake]; exact hsize) htake hburst

theorem cut_flatten (hsize : 0 < size) (data : List UInt8) : (cut size data).flatten = data :=
  (cutLoop_spec hsize data.length data (Nat.le_refl _)).1

theorem cut_burst (hsize : 0 < size) (data : List UInt8) : Burst size (cut size data) :=
  (cutLoop_spec hsize data.length data (Nat.le_refl _)).2

/-- A message that fits into a packet is one packet. -/
theorem cut_short {data : List UInt8} (hpos : 0 < data.length) (hle : data.length ≤ size) :
    cut size data = [data] := by
  obtain ⟨n, hn⟩ : ∃ n, data.length = n + 1 := ⟨data.length - 1, by omega⟩
  have hnil : data ≠ [] := List.length_pos_iff.mp hpos
  have hrest : cutLoop size n [] = [] := by cases n <;> rfl
  rw [cut, hn, cutLoop, if_neg hnil, List.take_of_length_le hle, List.drop_of_length_le hle, hrest]

theorem Burst.tail {p : Packet} {ps : List Packet} (h : Burst size (p :: ps)) : Burst size ps := by
  cases h with
  | last _ _ _ => exact .nil
  | cons _ _ _ _ hrest => exact hrest

theorem Burst.drop {qs : List Packet} : ∀ {ps : List Packet}, Burst size (ps ++ qs) → Burst size qs
  | [], h => h
  | _ :: _, h => Burst.drop (Burst.tail h)

theorem Burst.head_pos {p : Packet} {ps : List Packet} (h : Burst size (p :: ps)) :
    0 < p.length := by
  cases h with
  | last _ hpos _ => exact hpos
  | cons _ _ hpos _ _ => exact hpos

theorem Burst.eq_nil {ps : List Packet} (h : Burst size ps) (hlen : ps.flatten.length = 0) :
    ps = [] := by
  cases ps with
  | nil => rfl
  | cons p ps =>
      have hpos := h.head_pos
      rw [List.flatten_cons, List.length_append] at hlen
      omega

/-! ## Reading -/

/-- What a reader relies on: a request for all of a burst, or for a part of it that ends with a
packet, is served with the bytes of some of its packets, at least one, and no more than asked
for. -/
def TakesPackets (size : Nat) (transfer : Nat → List Packet → Option (List UInt8 × List Packet)) :
    Prop :=
  ∀ (ps rest : List Packet) (len : Nat), Burst size ps → 0 < len →
    (len = ps.flatten.length ∨ len < ps.flatten.length ∧ size ∣ len) →
      ∃ qs qs', qs ≠ [] ∧ ps = qs ++ qs' ∧ qs.flatten.length ≤ len ∧
        transfer len (ps ++ rest) = some (qs.flatten, qs' ++ rest)

variable {transfer : Nat → List Packet → Option (List UInt8 × List Packet)}

/-- What is still to be read, the bytes read so far, and the pipe. -/
structure Reader where
  left : Nat
  bytes : List UInt8
  pipe : List Packet

/-- One round of a reader that asks for `want n` bytes when `n` are left. -/
def drainRound (transfer : Nat → List Packet → Option (List UInt8 × List Packet))
    (want : Nat → Nat) (r : Reader) : Option (Reader ⊕ Reader) :=
  if r.left = 0 then some (.inr r)
  else do
    let (bytes, pipe) ← transfer (want r.left) r.pipe
    some (.inl ⟨r.left - bytes.length, r.bytes ++ bytes, pipe⟩)

/-- Read until nothing is left; each round takes a packet from the pipe. -/
def drain (transfer : Nat → List Packet → Option (List UInt8 × List Packet))
    (want : Nat → Nat) (r : Reader) : Option Reader :=
  iter (drainRound transfer want) (r.pipe.length + 1) r

/-- The requests a reader may make: for everything, or for a number of full packets. -/
def AsksWhole (size : Nat) (want : Nat → Nat) : Prop :=
  ∀ n, 0 < n → 0 < want n ∧ (want n = n ∨ want n < n ∧ size ∣ want n)

/-- The reader has the bytes of the packets taken so far and the rest of the burst before it. -/
def Reading (size : Nat) (data : List UInt8) (rest : List Packet) (r : Reader) : Prop :=
  ∃ ps, Burst size ps ∧ r.pipe = ps ++ rest ∧ r.left = ps.flatten.length ∧
    r.bytes ++ ps.flatten = data

theorem drainRound_ok (htransfer : TakesPackets size transfer) {want : Nat → Nat}
    (hwant : AsksWhole size want) (data : List UInt8) (rest : List Packet) (r : Reader)
    (hr : Reading size data rest r) :
    Returns (drainRound transfer want r)
      (RoundOK (Reading size data rest) (·.pipe.length) (fun r => r = ⟨0, data, rest⟩) r) := by
  obtain ⟨left, bytes, pipe⟩ := r
  obtain ⟨ps, hburst, hpipe, hleft, hbytes⟩ := hr
  dsimp only at hpipe hleft hbytes
  unfold drainRound
  by_cases hzero : left = 0
  · rw [if_pos hzero]
    have hnil : ps = [] := hburst.eq_nil (hleft ▸ hzero)
    rw [hnil, List.flatten_nil, List.append_nil] at hbytes
    rw [hnil, List.nil_append] at hpipe
    exact .pure (show _ = _ by rw [hzero, hbytes, hpipe])
  · rw [if_neg hzero]
    dsimp only
    obtain ⟨hpos, hlen⟩ := hwant left (Nat.pos_of_ne_zero hzero)
    obtain ⟨qs, qs', hne, rfl, hle, htake⟩ := htransfer ps rest (want left) hburst hpos
      (by rw [← hleft]; exact hlen)
    rw [hpipe, htake]
    refine .pure ⟨⟨qs', hburst.drop, rfl, ?_, ?_⟩, ?_⟩
    · rw [hleft, List.flatten_append, List.length_append, Nat.add_sub_cancel_left]
    · rw [← hbytes, List.flatten_append, List.append_assoc]
    · have hpos : 0 < qs.length := List.length_pos_iff.mpr hne
      simp only [List.length_append]
      omega

/-- A reader that wants a whole message gets it, and leaves what follows it in the pipe. -/
theorem drain_returns (htransfer : TakesPackets size transfer) (hsize : 0 < size)
    {want : Nat → Nat} (hwant : AsksWhole size want) (data bytes : List UInt8)
    (rest : List Packet) :
    drain transfer want ⟨data.length, bytes, cut size data ++ rest⟩ =
      some ⟨0, bytes ++ data, rest⟩ := by
  have hflat := cut_flatten hsize data
  obtain ⟨r, hsome, hr⟩ := iter_total
    (fun r => drainRound_ok htransfer hwant (bytes ++ data) rest r)
    (s := ⟨data.length, bytes, cut size data ++ rest⟩)
    ⟨cut size data, cut_burst hsize data, rfl, by rw [hflat], by rw [hflat]⟩ (Nat.lt_succ_self _)
  rw [drain, hsome, hr]

/-- A driver that takes full packets until it has enough or meets a short one. -/
def takeFull (size : Nat) : Nat → List Packet → Option (List UInt8 × List Packet)
  | _, [] => none
  | len, p :: ps =>
    if p.length > len then none
    else if p.length < size ∨ p.length = len then some (p, ps)
    else (takeFull size (len - p.length) ps).map fun (bytes, rest) => (p ++ bytes, rest)

theorem takeFull_takes (size : Nat) : TakesPackets size (takeFull size) := by
  intro ps rest len hburst
  induction hburst generalizing len with
  | nil =>
      intro hpos hlen
      simp only [List.flatten_nil, List.length_nil] at hlen
      omega
  | last p hp hsize =>
      intro hpos hlen
      simp only [List.flatten_cons, List.flatten_nil, List.append_nil] at hlen
      have heq : len = p.length := by
        refine hlen.resolve_right fun ⟨hlt, hdvd⟩ => ?_
        have := Nat.le_of_dvd hpos hdvd
        omega
      refine ⟨[p], [], List.cons_ne_nil _ _, rfl, by simp [heq], ?_⟩
      rw [List.cons_append, takeFull, if_neg (by omega), if_pos (.inr heq.symm)]
      simp
  | cons p ps hp hfull hrest ih =>
      intro hpos hlen
      rw [List.flatten_cons, List.length_append] at hlen
      have hle : p.length ≤ len := by
        rcases hlen with hlen | ⟨-, hdvd⟩
        · omega
        · rw [hfull]
          exact Nat.le_of_dvd hpos hdvd
      by_cases heq : p.length = len
      · refine ⟨[p], ps, List.cons_ne_nil _ _, rfl, by simp [heq], ?_⟩
        rw [List.cons_append, takeFull, if_neg (by omega), if_pos (.inr heq)]
        simp
      · obtain ⟨qs, qs', -, hsplit, hshort, htake⟩ := ih (len - p.length) (by omega) (by
          rcases hlen with hlen | ⟨hlt, hdvd⟩
          · exact .inl (by omega)
          · refine .inr ⟨by omega, ?_⟩
            rw [hfull]
            exact Nat.dvd_sub hdvd (Nat.dvd_refl size))
        refine ⟨p :: qs, qs', List.cons_ne_nil _ _, by rw [hsplit, List.cons_append], ?_, ?_⟩
        · rw [List.flatten_cons, List.length_append]
          omega
        · rw [List.cons_append, takeFull, if_neg (by omega), if_neg (by omega), htake]
          rfl

end BulkPipe

import Novo7.CString
import Novo7.DecText

/-!
# Formatting

`wlibc_vsprintf` goes over a format and steps by what it takes for the length of a conversion. It
steps over the `l` of a `%ld` only, over the zero behind a `%` at the end, and copies what it does
not know as it is. The formats are read a second time as pieces, by the conversions that it has a
case for. `vsprintf_processes_iff` says for which formats the two readings agree.
-/

namespace Novo7

/-! ## The program -/

/-- An argument: a word, or a pointer to a string. -/
inductive VArg where
  | word (w : BitVec 32)
  | str (text : List UInt8)

/-- A character, with a carriage return in front of a newline. -/
def dosChar (c : UInt8) : List UInt8 := if c = 10 then [13, 10] else [c]

/-- `cpy_unix2dos` -/
def cpyUnix2dos (text : List UInt8) : List UInt8 := text.flatMap dosChar

/-- What is printed, with the arguments that are left; nothing for an argument of another type. -/
abbrev Printed := Option (List UInt8 × List VArg)

def printDec : List VArg → Printed
  | .word w :: args => some (cpyUnix2dos (intToStringDec w).text, args)
  | _ => none

def printHex (hexspec : UInt8) : List VArg → Printed
  | .word w :: args => some (cpyUnix2dos (intToStringHex w hexspec), args)
  | _ => none

def printUint : List VArg → Printed
  | .word w :: args => some (cpyUnix2dos (uintToStringDec w).text, args)
  | _ => none

def printChar : List VArg → Printed
  | .word w :: args => some ([UInt8.ofNat w.toNat], args)
  | _ => none

def printStr : List VArg → Printed
  | .str text :: args => some (cpyUnix2dos text, args)
  | _ => none

/-- Two words, the low one first. -/
def printLongHex (hexspec : UInt8) : List VArg → Printed
  | .word numlo :: .word numhi :: args =>
    some (cpyUnix2dos (intToStringHex numhi hexspec) ++
      cpyUnix2dos ((intToStringHex numlo hexspec).drop 2), args)
  | _ => none

/-- A round of the loop: what it prints and how many bytes of the format it steps over, or a step
over the zero at the end. -/
inductive FmtRound where
  | step (printed : Printed) (n : Nat)
  | past

/-- The switch, on what follows a `%`. -/
def fmtSwitch (args : List VArg) : List UInt8 → FmtRound
  | [] => .past
  | c :: fmt =>
    if c = 100 then .step (printDec args) 2
    else if c = 120 then .step (printHex 120 args) 2
    else if c = 112 ∨ c = 88 then .step (printHex 88 args) 2
    else if c = 117 then .step (printUint args) 2
    else if c = 99 then .step (printChar args) 2
    else if c = 115 then .step (printStr args) 2
    else if c = 108 then
      if fmt.head? = some 108 ∧ (fmt.tail.head? = some 120 ∨ fmt.tail.head? = some 88) then
        .step (printLongHex (if fmt.tail.head? = some 120 then 120 else 88) args) 4
      else .step (printDec args) 2
    else .step (some ([37, c], args)) 2

/-- A round on a format that is not at its end. -/
def fmtRound (args : List VArg) (c : UInt8) (fmt : List UInt8) : FmtRound :=
  if c = 37 then fmtSwitch args fmt else .step (some (dosChar c, args)) 1

/-- How a run ends: with what is stored and what is returned, behind the format, or with an argument
that is not of the type that is taken. -/
inductive FmtEnd where
  | returned (buf : List UInt8) (ret : Nat)
  | pastEnd
  | wrongArg
  deriving DecidableEq

/-- `while(*fmt != 0)`, on the bytes of the format before the zero, with what `buf` has so far. -/
def vsprintfLoop : Nat → List UInt8 → List VArg → List UInt8 → Option FmtEnd
  | 0, _, _, _ => none
  | _ + 1, [], _, buf => some (.returned (buf ++ [0]) buf.length)
  | fuel + 1, c :: fmt, args, buf =>
    match fmtRound args c fmt with
    | .past => some .pastEnd
    | .step none _ => some .wrongArg
    | .step (some (out, args)) n => vsprintfLoop fuel ((c :: fmt).drop n) args (buf ++ out)

/-- `wlibc_vsprintf` -/
def wlibcVsprintf (fmt : List UInt8) (args : List VArg) : Option FmtEnd :=
  vsprintfLoop (fmt.length + 1) fmt args []

/-! ## Pieces of a format -/

/-- The conversions. -/
inductive Conv where
  | dec
  | hex (hexspec : UInt8)
  | uint
  | char
  | str
  | longDec
  | longHex (hexspec : UInt8)
  deriving DecidableEq

/-- A piece of a format: a character, a conversion, an `l` behind a `%` that begins no conversion,
another character behind a `%`, or a `%` at the end. -/
inductive Piece where
  | lit (c : UInt8)
  | conv (k : Conv)
  | bareLong
  | other (c : UInt8)
  | lone
  deriving DecidableEq

/-- The piece behind a `%`, and what follows it. -/
def pieceBehind : List UInt8 → Piece × List UInt8
  | [] => (.lone, [])
  | k :: fmt =>
    if k = 100 then (.conv .dec, fmt)
    else if k = 120 then (.conv (.hex 120), fmt)
    else if k = 112 ∨ k = 88 then (.conv (.hex 88), fmt)
    else if k = 117 then (.conv .uint, fmt)
    else if k = 99 then (.conv .char, fmt)
    else if k = 115 then (.conv .str, fmt)
    else if k = 108 then
      if fmt.head? = some 100 then (.conv .longDec, fmt.tail)
      else if fmt.head? = some 108 ∧ fmt.tail.head? = some 120 then
        (.conv (.longHex 120), fmt.tail.tail)
      else if fmt.head? = some 108 ∧ fmt.tail.head? = some 88 then
        (.conv (.longHex 88), fmt.tail.tail)
      else (.bareLong, fmt)
    else (.other k, fmt)

/-- The first piece of a format, and what follows it. -/
def firstPiece (c : UInt8) (fmt : List UInt8) : Piece × List UInt8 :=
  if c = 37 then pieceBehind fmt else (.lit c, fmt)

/-- What follows is no longer, whatever the piece. -/
theorem length_ite_le {p : Prop} [Decidable p] {a b : Piece × List UInt8} {n : Nat}
    (ha : a.2.length ≤ n) (hb : b.2.length ≤ n) : (if p then a else b).2.length ≤ n := by
  split
  · exact ha
  · exact hb

theorem pieceBehind_length (fmt : List UInt8) : (pieceBehind fmt).2.length ≤ fmt.length := by
  cases fmt with
  | nil => exact Nat.le_refl _
  | cons k fmt =>
      have hrest : fmt.length ≤ (k :: fmt).length := Nat.le_succ _
      have htail : fmt.tail.length ≤ (k :: fmt).length := by
        rw [List.length_tail, List.length_cons]
        omega
      have htail₂ : fmt.tail.tail.length ≤ (k :: fmt).length := by
        rw [List.length_tail, List.length_tail, List.length_cons]
        omega
      refine length_ite_le hrest (length_ite_le hrest (length_ite_le hrest ?_))
      refine length_ite_le hrest (length_ite_le hrest (length_ite_le hrest ?_))
      refine length_ite_le ?_ hrest
      exact length_ite_le htail (length_ite_le htail₂ (length_ite_le htail₂ hrest))

theorem firstPiece_length (c : UInt8) (fmt : List UInt8) :
    (firstPiece c fmt).2.length ≤ fmt.length := by
  unfold firstPiece
  split
  · exact pieceBehind_length fmt
  · exact Nat.le_refl _

/-- The pieces of a format. -/
def pieces : List UInt8 → List Piece
  | [] => []
  | c :: fmt => (firstPiece c fmt).1 :: pieces (firstPiece c fmt).2
termination_by fmt => fmt.length
decreasing_by exact Nat.lt_succ_of_le (firstPiece_length c fmt)

/-- What a conversion stands for. -/
def Conv.meant (args : List VArg) : Conv → Printed
  | .dec => printDec args
  | .hex hexspec => printHex hexspec args
  | .uint => printUint args
  | .char => printChar args
  | .str => printStr args
  | .longDec => printDec args
  | .longHex hexspec => printLongHex hexspec args

/-- What a piece stands for. An `l` alone is taken as the code takes it, and an unknown character
is copied with its `%`. -/
def Piece.meant (args : List VArg) : Piece → Printed
  | .lit c => some (dosChar c, args)
  | .conv k => k.meant args
  | .bareLong => printDec args
  | .other c => some (37 :: dosChar c, args)
  | .lone => some ([37], args)

/-- What pieces stand for, if the arguments match them. -/
def render : List Piece → List VArg → Option (List UInt8)
  | [], _ => some []
  | p :: ps, args =>
    match p.meant args with
    | none => none
    | some (out, args) => (render ps args).map (out ++ ·)

/-- A piece that the loop processes as a whole. -/
def Piece.Processed (p : Piece) : Prop := p ≠ .conv .longDec ∧ p ≠ .other 10 ∧ p ≠ .lone

instance : DecidablePred Piece.Processed := fun _ => inferInstanceAs (Decidable (_ ∧ _ ∧ _))

/-! ## What the loop makes of a piece -/

/-- What a round on a piece prints: an unknown character as it is. -/
def Piece.printed (args : List VArg) : Piece → Printed
  | .other c => some ([37, c], args)
  | p => p.meant args

/-- What a round on a piece leaves of it. -/
def Piece.left (p : Piece) : List UInt8 := if p = .conv .longDec then [100] else []

/-- What rounds on pieces store, if there is no `%` at the end. -/
def stored : List Piece → List VArg → Option (List UInt8)
  | [], _ => some []
  | p :: ps, args =>
    match p.printed args with
    | none => none
    | some (out, args) => (stored ps args).map (out ++ p.left ++ ·)

/-- A round takes the first piece, unless it is a `%` at the end. -/
structure TakesPiece (c : UInt8) (fmt : List UInt8) (p : Piece) (rest : List UInt8) : Prop where
  round : p ≠ .lone → ∃ n, 0 < n ∧ (c :: fmt).drop n = p.left ++ rest ∧
    ∀ args, fmtRound args c fmt = .step (p.printed args) n
  lone : p = .lone → ∀ args, fmtRound args c fmt = .past

theorem TakesPiece.of_step {c : UInt8} {fmt rest : List UInt8} {p : Piece} (n : Nat)
    (hne : p ≠ .lone) (hn : 0 < n) (hdrop : (c :: fmt).drop n = p.left ++ rest)
    (hround : ∀ args, fmtRound args c fmt = .step (p.printed args) n) : TakesPiece c fmt p rest :=
  ⟨fun _ => ⟨n, hn, hdrop, hround⟩, fun h => absurd h hne⟩

/-- The cases of the switch, in its order. -/
theorem fmtSwitch_piece (fmt : List UInt8) :
    TakesPiece 37 fmt (pieceBehind fmt).1 (pieceBehind fmt).2 := by
  cases fmt with
  | nil => exact ⟨fun h => absurd rfl h, fun _ _ => rfl⟩
  | cons k fmt =>
      by_cases hd : k = 100
      · subst hd
        exact .of_step 2 (show Piece.conv _ ≠ .lone from nofun) (by decide) rfl fun _ => rfl
      by_cases hx : k = 120
      · subst hx
        exact .of_step 2 (show Piece.conv _ ≠ .lone from nofun) (by decide) rfl fun _ => rfl
      by_cases hp : k = 112 ∨ k = 88
      · rcases hp with rfl | rfl <;>
          exact .of_step 2 (show Piece.conv _ ≠ .lone from nofun) (by decide) rfl fun _ => rfl
      by_cases hu : k = 117
      · subst hu
        exact .of_step 2 (show Piece.conv _ ≠ .lone from nofun) (by decide) rfl fun _ => rfl
      by_cases hch : k = 99
      · subst hch
        exact .of_step 2 (show Piece.conv _ ≠ .lone from nofun) (by decide) rfl fun _ => rfl
      by_cases hs : k = 115
      · subst hs
        exact .of_step 2 (show Piece.conv _ ≠ .lone from nofun) (by decide) rfl fun _ => rfl
      have hround (args : List VArg) : fmtRound args 37 (k :: fmt) = fmtSwitch args (k :: fmt) := rfl
      by_cases hl : k = 108
      · subst hl
        have hpiece : pieceBehind (108 :: fmt) =
            if fmt.head? = some 100 then (.conv .longDec, fmt.tail)
            else if fmt.head? = some 108 ∧ fmt.tail.head? = some 120 then
              (.conv (.longHex 120), fmt.tail.tail)
            else if fmt.head? = some 108 ∧ fmt.tail.head? = some 88 then
              (.conv (.longHex 88), fmt.tail.tail)
            else (.bareLong, fmt) := rfl
        have hswitch (args : List VArg) : fmtRound args 37 (108 :: fmt) =
            if fmt.head? = some 108 ∧ (fmt.tail.head? = some 120 ∨ fmt.tail.head? = some 88) then
              .step (printLongHex (if fmt.tail.head? = some 120 then 120 else 88) args) 4
            else .step (printDec args) 2 := rfl
        rw [hpiece]
        by_cases h100 : fmt.head? = some 100
        · rw [if_pos h100]
          refine .of_step 2 nofun (by decide) (List.eq_cons_of_mem_head? h100) fun args => ?_
          rw [hswitch, if_neg (by rw [h100]; simp)]
          rfl
        rw [if_neg h100]
        by_cases hlow : fmt.head? = some 108 ∧ fmt.tail.head? = some 120
        · rw [if_pos hlow]
          refine .of_step 4 nofun (by decide) ?_ fun args => ?_
          · rw [List.eq_cons_of_mem_head? hlow.1, List.eq_cons_of_mem_head? hlow.2]
            rfl
          · rw [hswitch, if_pos ⟨hlow.1, .inl hlow.2⟩, if_pos hlow.2]
            rfl
        rw [if_neg hlow]
        by_cases hhigh : fmt.head? = some 108 ∧ fmt.tail.head? = some 88
        · rw [if_pos hhigh]
          refine .of_step 4 nofun (by decide) ?_ fun args => ?_
          · rw [List.eq_cons_of_mem_head? hhigh.1, List.eq_cons_of_mem_head? hhigh.2]
            rfl
          · rw [hswitch, if_pos ⟨hhigh.1, .inr hhigh.2⟩, if_neg (fun h => hlow ⟨hhigh.1, h⟩)]
            rfl
        rw [if_neg hhigh]
        refine .of_step 2 nofun (by decide) rfl fun args => ?_
        rw [hswitch, if_neg (fun h => h.2.elim (fun h2 => hlow ⟨h.1, h2⟩) fun h2 => hhigh ⟨h.1, h2⟩)]
        rfl
      · have hpiece : pieceBehind (k :: fmt) = (.other k, fmt) := by
          rw [pieceBehind, if_neg hd, if_neg hx, if_neg hp, if_neg hu, if_neg hch, if_neg hs,
            if_neg hl]
        rw [hpiece]
        refine .of_step 2 nofun (by decide) rfl fun args => ?_
        rw [hround, fmtSwitch, if_neg hd, if_neg hx, if_neg hp, if_neg hu, if_neg hch, if_neg hs,
          if_neg hl]
        rfl

theorem fmtRound_piece (c : UInt8) (fmt : List UInt8) :
    TakesPiece c fmt (firstPiece c fmt).1 (firstPiece c fmt).2 := by
  unfold firstPiece
  split
  · rename_i hc
    rw [hc]
    exact fmtSwitch_piece fmt
  · rename_i hc
    exact .of_step 1 nofun (by decide) rfl fun args => if_neg hc

/-! ## Runs -/

theorem pieces_cons (c : UInt8) (fmt : List UInt8) :
    pieces (c :: fmt) = (firstPiece c fmt).1 :: pieces (firstPiece c fmt).2 := by
  rw [pieces]

/-- What is left of a `%ld` is read as a character of its own. -/
theorem pieces_left (p : Piece) (rest : List UInt8) :
    pieces (p.left ++ rest) = p.left.map .lit ++ pieces rest := by
  unfold Piece.left
  split
  · exact pieces_cons 100 rest
  · rfl

theorem stored_left (p : Piece) (rest : List UInt8) (args : List VArg) :
    stored (pieces (p.left ++ rest)) args = (stored (pieces rest) args).map (p.left ++ ·) := by
  rw [pieces_left]
  unfold Piece.left
  split
  · rfl
  · exact Option.map_id'.symm

theorem lone_left (p : Piece) (rest : List UInt8) :
    .lone ∈ pieces (p.left ++ rest) ↔ .lone ∈ pieces rest := by
  rw [pieces_left, List.mem_append, or_iff_right]
  rintro h
  obtain ⟨c, -, hc⟩ := List.mem_map.mp h
  cases hc

/-- The loop stores what its rounds on the pieces store, or runs past a `%` at the end. -/
theorem vsprintfLoop_eq : ∀ {fuel : Nat} {fmt : List UInt8} {args : List VArg} {out : List UInt8},
    fmt.length < fuel → stored (pieces fmt) args = some out → ∀ buf,
    vsprintfLoop fuel fmt args buf =
      some (if .lone ∈ pieces fmt then .pastEnd
        else .returned (buf ++ out ++ [0]) (buf ++ out).length) := by
  intro fuel
  induction fuel with
  | zero => omega
  | succ fuel ih =>
      intro fmt args out hfuel hout buf
      cases fmt with
      | nil =>
          rw [pieces] at hout ⊢
          cases hout
          rw [if_neg List.not_mem_nil, List.append_nil]
          rfl
      | cons c fmt =>
          have htakes := fmtRound_piece c fmt
          rw [pieces_cons] at hout ⊢
          have hrest := firstPiece_length c fmt
          generalize (firstPiece c fmt).1 = p at htakes hout ⊢
          generalize (firstPiece c fmt).2 = rest at htakes hout hrest ⊢
          rw [vsprintfLoop]
          by_cases hlone : p = .lone
          · rw [htakes.lone hlone, if_pos (hlone ▸ List.mem_cons_self)]
          · obtain ⟨n, hn, hdrop, hround⟩ := htakes.round hlone
            rw [hround]
            rw [stored] at hout
            cases hprint : p.printed args with
            | none =>
                rw [hprint] at hout
                cases hout
            | some r =>
                obtain ⟨text, args'⟩ := r
                rw [hprint] at hout
                obtain ⟨out', hout', rfl⟩ := Option.map_eq_some_iff.mp hout
                have hlen : (p.left ++ rest).length < fuel := by
                  rw [← hdrop, List.length_drop]
                  simp only [List.length_cons] at hfuel ⊢
                  omega
                have hstored : stored (pieces (p.left ++ rest)) args' = some (p.left ++ out') := by
                  rw [stored_left, hout']
                  rfl
                have hmem : Piece.lone ∈ p :: pieces rest ↔ .lone ∈ pieces (p.left ++ rest) := by
                  rw [lone_left, List.mem_cons, or_iff_right (Ne.symm hlone)]
                dsimp only
                rw [hdrop, ih hlen hstored (buf ++ text), if_congr hmem rfl rfl]
                simp only [List.append_assoc]

/-! ## Texts that differ -/

/-- Two texts differ at a place counted from their ends. -/
def Clash (a b : List UInt8) : Prop := ∃ p q x y s, a = p ++ x :: s ∧ b = q ++ y :: s ∧ x ≠ y

theorem Clash.ne {a b : List UInt8} (h : Clash a b) : a ≠ b := by
  obtain ⟨p, q, x, y, s, rfl, rfl, hne⟩ := h
  intro heq
  have hrev := congrArg List.reverse heq
  simp only [List.reverse_append, List.reverse_cons, List.append_assoc] at hrev
  have hcons := List.append_cancel_left hrev
  exact hne (List.cons.inj hcons).1

theorem Clash.prepend {a b : List UInt8} (h : Clash a b) (t u : List UInt8) :
    Clash (t ++ a) (u ++ b) := by
  obtain ⟨p, q, x, y, s, rfl, rfl, hne⟩ := h
  exact ⟨t ++ p, u ++ q, x, y, s, (List.append_assoc ..).symm, (List.append_assoc ..).symm, hne⟩

/-- A decimal text ends in no letter. -/
theorem printDec_clash {args args' : List VArg} {text : List UInt8}
    (h : printDec args = some (text, args')) (s : List UInt8) :
    Clash (text ++ [100] ++ s) (text ++ s) := by
  unfold printDec at h
  split at h
  · rename_i w args
    cases h
    obtain ⟨hne, hchars⟩ := intToStringDec_chars w
    have hkept : cpyUnix2dos (intToStringDec w).text = (intToStringDec w).text := by
      refine (List.flatMap_congr fun c hc => ?_).trans (List.flatMap_singleton' _)
      refine if_neg ?_
      rintro rfl
      exact absurd (hchars 10 hc) (by decide)
    rw [hkept]
    obtain ⟨front, last, htext⟩ := (List.eq_nil_or_concat' _).resolve_left hne
    rw [htext]
    refine ⟨front ++ [last], front, 100, last, s, ?_, ?_, ?_⟩
    · rw [List.append_assoc]
      rfl
    · rw [List.append_assoc]
      rfl
    · rintro rfl
      exact absurd (hchars 100 (htext ▸ List.mem_append_right _ List.mem_cons_self)) (by decide)
  · cases h

/-- What a round prints of a piece that has a meaning. -/
theorem printed_of_meant {p : Piece} {args args' : List VArg} {text : List UInt8}
    (h : p.meant args = some (text, args')) : ∃ text', p.printed args = some (text', args') ∧
      (p.Processed → text' ++ p.left = text) ∧
      (p ≠ .lone → ¬ p.Processed → ∀ s, Clash (text' ++ p.left ++ s) (text ++ s)) := by
  have hsame (hprint : p.printed args = p.meant args) (hleft : p.left = [])
      (hproc : p ≠ .lone → p.Processed) : ∃ text', p.printed args = some (text', args') ∧
        (p.Processed → text' ++ p.left = text) ∧
        (p ≠ .lone → ¬ p.Processed → ∀ s, Clash (text' ++ p.left ++ s) (text ++ s)) :=
    ⟨text, hprint.trans h, fun _ => by rw [hleft, List.append_nil],
      fun hne hnot => absurd (hproc hne) hnot⟩
  cases p with
  | lit c => exact hsame rfl rfl fun _ => by simp [Piece.Processed]
  | bareLong => exact hsame rfl rfl fun _ => by simp [Piece.Processed]
  | lone => exact hsame rfl rfl fun hne => absurd rfl hne
  | conv k =>
      by_cases hk : k = .longDec
      · subst hk
        exact ⟨text, h, fun hproc => absurd rfl hproc.1, fun _ _ s => printDec_clash h s⟩
      · refine hsame rfl (if_neg fun heq => hk (Piece.conv.inj heq)) fun _ => ?_
        exact ⟨fun heq => hk (Piece.conv.inj heq), Piece.noConfusion, Piece.noConfusion⟩
  | other c =>
      cases h
      refine ⟨[37, c], rfl, fun hproc => ?_, fun _ hnot s => ?_⟩
      · have hc : c ≠ 10 := fun heq => hproc.2.1 (congrArg _ heq)
        rw [dosChar, if_neg hc]
        rfl
      · have hc : c = 10 := by
          by_contra hne
          exact hnot ⟨Piece.noConfusion, fun heq => hne (Piece.other.inj heq), Piece.noConfusion⟩
        subst hc
        exact ⟨[], [37], 37, 13, 10 :: s, rfl, rfl, by decide⟩

/-- What the rounds store is what is meant, or differs from it at a place counted from the end. -/
theorem stored_or_clash : ∀ {ps : List Piece} {args : List VArg} {out : List UInt8},
    render ps args = some out → ∃ out', stored ps args = some out' ∧
      ((∀ p ∈ ps, p.Processed) → out' = out) ∧
      (.lone ∉ ps → (∃ p ∈ ps, ¬ p.Processed) → Clash out' out) := by
  intro ps
  induction ps with
  | nil =>
      rintro args out ⟨⟩
      exact ⟨[], rfl, fun _ => rfl, fun _ ⟨_, h, _⟩ => nomatch h⟩
  | cons p ps ih =>
      intro args out h
      rw [render] at h
      cases hmeant : p.meant args with
      | none =>
          rw [hmeant] at h
          cases h
      | some r =>
          obtain ⟨text, args'⟩ := r
          rw [hmeant] at h
          obtain ⟨rest, hrest, rfl⟩ := Option.map_eq_some_iff.mp h
          obtain ⟨rest', hstored, heq, hclash⟩ := ih hrest
          obtain ⟨text', hprint, hproc, hhere⟩ := printed_of_meant hmeant
          refine ⟨text' ++ p.left ++ rest', ?_, fun hall => ?_, fun hlone hsome => ?_⟩
          · rw [stored, hprint]
            dsimp only
            rw [hstored]
            rfl
          · obtain ⟨hp, hps⟩ := List.forall_mem_cons.mp hall
            rw [heq hps, hproc hp]
          · have hp : .lone ≠ p := fun heq => hlone (heq ▸ List.mem_cons_self)
            have hps : .lone ∉ ps := fun hm => hlone (List.mem_cons_of_mem _ hm)
            by_cases hbehind : ∃ q ∈ ps, ¬ q.Processed
            · exact (hclash hps hbehind).prepend _ _
            · -- the rest is the same on both sides, so the difference is in this piece
              have hsame : ∀ q ∈ ps, q.Processed := fun q hq => by
                by_contra hnot
                exact hbehind ⟨q, hq, hnot⟩
              rw [heq hsame]
              refine hhere (Ne.symm hp) (fun hproc => ?_) rest
              obtain ⟨q, hq, hnot⟩ := hsome
              rcases List.mem_cons.mp hq with rfl | hin
              · exact hnot hproc
              · exact hnot (hsame q hin)

/-! ## Formats that are processed -/

/-- For every format, given by its bytes before the zero, and all arguments that match it: the run
stores what its pieces stand for, with a zero behind it, and returns the length, exactly if none of
the pieces is a `%ld`, a `%` in front of a newline or a `%` at the end. -/
theorem vsprintf_processes_iff (fmt : List UInt8) (args : List VArg) {out : List UInt8}
    (h : render (pieces fmt) args = some out) :
    wlibcVsprintf fmt args = some (.returned (out ++ [0]) out.length) ↔
      ∀ p ∈ pieces fmt, p.Processed := by
  obtain ⟨out', hstored, heq, hclash⟩ := stored_or_clash h
  rw [wlibcVsprintf, vsprintfLoop_eq (Nat.lt_succ_self _) hstored []]
  constructor
  · intro hrun
    by_cases hlone : .lone ∈ pieces fmt
    · rw [if_pos hlone] at hrun
      cases hrun
    · rw [if_neg hlone] at hrun
      have hout : out' = out := by
        have hbuf := (FmtEnd.returned.inj (Option.some.inj hrun)).1
        exact List.append_cancel_right hbuf
      intro p hp
      by_contra hnot
      exact (hclash hlone ⟨p, hp, hnot⟩).ne hout
  · intro hall
    have hlone : .lone ∉ pieces fmt := fun hm => (hall _ hm).2.2 rfl
    rw [if_neg hlone, heq hall]
    rfl

/-- The line of the menu with the time that is left. -/
theorem vsprintf_processes_iff_timeout :
    ∃ out, render (pieces (CString.text "Timeout: %d ")) [.word 7] = some out ∧
      (wlibcVsprintf (CString.text "Timeout: %d ") [.word 7] =
          some (.returned (out ++ [0]) out.length) ↔
        ∀ p ∈ pieces (CString.text "Timeout: %d "), p.Processed) :=
  ⟨CString.text "Timeout: 7 ", by decide +kernel,
    vsprintf_processes_iff _ [.word 7] (by decide +kernel)⟩

/-- A `%ld` leaves its last letter in the text, and a `%` at the end is read past. -/
theorem vsprintf_leaves_letter :
    (render (pieces (CString.text "%ld")) [.word 7] = some [55] ∧
      wlibcVsprintf (CString.text "%ld") [.word 7] = some (.returned [55, 100, 0] 2)) ∧
    (render (pieces (CString.text "100%")) [] = some (CString.text "100%") ∧
      wlibcVsprintf (CString.text "100%") [] = some .pastEnd) :=
  ⟨⟨by decide +kernel, by decide +kernel⟩, ⟨by decide +kernel, by decide +kernel⟩⟩

end Novo7

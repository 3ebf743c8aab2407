import Novo7.ImgAddress

/-!
# What the parser of a system's script stores

The structure has room for sixteen segments and for names of 32 bytes. A name is copied for as many
words as `ParseParamVal` leaves: those of the text, or the number that the text is. The section and
the segment that a parameter is for are those of the last section, or not set.

`imgStores_iff` says for which scripts every store is inside its field and none comes before a
section.
-/

namespace Novo7

open Bytes CString

/-! ## Stores and their fields -/

/-- A segment of the structure, for the fields of one. -/
def ImgField.InRange : ImgField → Prop
  | .imageName k | .imageMaxSize k | .imageBaseAddr k => 0 ≤ k ∧ k < 16
  | _ => True

/-- The bytes fit, and the field is one of the structure. -/
def ImgPut.Inside (p : ImgPut) : Prop := p.bytes.length ≤ p.field.size ∧ p.field.InRange

theorem ImgField.size_le (field : ImgField) : field.size ≤ 32 := by
  cases field <;> simp [ImgField.size]

/-- The parameters that a section knows. -/
def ImgSection.params : ImgSection → List (List UInt8)
  | .segment => [text "img_name", text "img_size", text "img_base"]
  | .scriptInfo => [text "script_base", text "script_size"]
  | .logoInfo => [text "logo_name", text "logo_show", text "logo_address", text "logo_off"]
  | .global => [text "start_mode"]

/-- The names among them. -/
def ImgSection.copied : ImgSection → List (List UInt8)
  | .segment => [text "img_name"]
  | .logoInfo => [text "logo_name"]
  | _ => []

/-- A section that the parser knows. -/
def ScriptLine.IsImgSection : ScriptLine → Prop
  | .sect name => name = text "segment" ∨ name = text "script_info" ∨ name = text "logo_info" ∨
      name = text "global"
  | _ => False

/-- A parameter of the section that the parser is in, or believes to be in. -/
def OsImg.Knows (s : OsImg) (name : List UInt8) : Prop :=
  ∃ sect, s.sect = some sect ∧ name ∈ sect.params

/-- A parameter whose stores are inside their fields: it is for one of the sixteen segments, and a
name is copied to no more than its field. -/
def OsImg.ParamFits (s : OsImg) (name val : List UInt8) : Prop :=
  ∀ sect, s.sect = some sect → name ∈ sect.params →
    (sect = .segment → 0 ≤ s.segmentNo ∧ s.segmentNo < 16) ∧
      (name ∈ sect.copied →
        strncpySize val (4 * (parseParamWords val s.sp8).2.val % 2 ^ 32) ≤ 32)

section Runs

variable (top : Nat) (mem : Nat → UInt8) (c : ScriptAt OsImg)

/-- In every run, as far as it goes: all stores are inside, with the one at the end, and none comes
before the first section that the parser knows. -/
structure ImgStoresRight : Prop where
  inside : ∀ ls c', Steps (osImgParser top) mem c ls c' → ∀ p ∈ c'.s.puts, p.Inside
  last : ∀ ls c', Steps (osImgParser top) mem c ls c' → c'.size = 0 →
    ∀ p ∈ c'.s.finished.puts, p.Inside
  unknown : ∀ ls c', Steps (osImgParser top) mem c ls c' → (∀ l ∈ ls, ¬ l.IsImgSection) →
    c'.s.puts = []

/-- At every parameter that a run gets over: it fits, and if the section that the variable holds
knows it, there was a section. -/
def ImgStoresWhen : Prop :=
  ∀ ls c' name val n s', Steps (osImgParser top) mem c ls c' → c'.size ≠ 0 →
    ReadsLine mem c'.pos c'.size (.line (.param name val) n) →
    c'.s.line top (.param name val) = some s' →
    c'.s.ParamFits name val ∧ (c'.s.Knows name → ∃ l ∈ ls, l.IsImgSection)

end Runs

/-! ## The stores of a parameter -/

/-- There are stores more, and they are inside if and only if this is so. -/
def Adds (s s' : OsImg) (ok : Prop) : Prop :=
  ∃ new, s'.puts = s.puts ++ new ∧ new ≠ [] ∧ ((∀ p ∈ new, p.Inside) ↔ ok)

section Param

variable {s : OsImg} {top : Nat}

theorem Adds.put (s : OsImg) (field : ImgField) (bytes : List UInt8) :
    Adds s (s.put field bytes) (bytes.length ≤ field.size ∧ field.InRange) :=
  ⟨[⟨field, bytes⟩], rfl, List.cons_ne_nil _ _, by simp [ImgPut.Inside]⟩

theorem Adds.setWord (s : OsImg) (field : ImgField) (w : Nat) :
    Adds s (s.setWord field w) field.InRange := by
  have hsize : (leBytes 4 w).length ≤ field.size := by
    rw [length_leBytes]
    cases field <;> simp [ImgField.size]
  obtain ⟨new, hnew, hne, hiff⟩ := Adds.put s field (leBytes 4 w)
  exact ⟨new, hnew, hne, hiff.trans (and_iff_right hsize)⟩

theorem Adds.trans {s₁ s₂ s₃ : OsImg} {ok ok' : Prop} (h : Adds s₁ s₂ ok) (h' : Adds s₂ s₃ ok') :
    Adds s₁ s₃ (ok ∧ ok') := by
  obtain ⟨new, hnew, hne, hiff⟩ := h
  obtain ⟨new', hnew', -, hiff'⟩ := h'
  refine ⟨new ++ new', by rw [hnew', hnew, List.append_assoc], ?_, ?_⟩
  · exact List.append_ne_nil_of_left_ne_nil hne _
  · rw [List.forall_mem_append, hiff, hiff']

theorem Adds.copy (s : OsImg) (field : ImgField) (val : List UInt8) :
    Adds s (s.copy field val)
      (strncpySize val (4 * s.sp8.val % 2 ^ 32) ≤ field.size ∧ field.InRange) := by
  rw [← length_strncpyBytes]
  exact Adds.put s field _

theorem Adds.base (s : OsImg) (size base : ImgField) :
    Adds s (s.base top size base) base.InRange := by
  unfold OsImg.base
  dsimp only
  split
  · split <;> exact Adds.setWord _ _ _
  · exact Adds.setWord _ _ _

theorem Adds.size (s : OsImg) {size base : ImgField} (amount : OsImg → Nat)
    (hrange : base.InRange ↔ size.InRange) : Adds s (s.size size base amount) size.InRange := by
  unfold OsImg.size
  dsimp only
  split
  · have h := (Adds.setWord s size s.sp8.val).trans
      (Adds.setWord _ base (wordSub ((s.setWord size s.sp8.val).word base)
        (amount (s.setWord size s.sp8.val))))
    rw [hrange, and_self] at h
    exact h
  · exact Adds.setWord _ _ _

theorem Adds.congr {s s' : OsImg} {ok ok' : Prop} (h : Adds s s' ok) (hiff : ok ↔ ok') :
    Adds s s' ok' := propext hiff ▸ h

/-- What is asked of a parameter that is not a name, outside the segments. -/
theorem fits_word {sect : ImgSection} {name : List UInt8} {k : Int} {n : Nat}
    (hsect : sect ≠ .segment) (hname : name ∉ sect.copied) :
    True ↔ (sect = .segment → 0 ≤ k ∧ k < 16) ∧ (name ∈ sect.copied → n ≤ 32) :=
  iff_of_true trivial ⟨fun h => absurd h hsect, fun h => absurd h hname⟩

/-- What is asked of a parameter of a segment that is not a name. -/
theorem fits_segment {name : List UInt8} {k : Int} {n : Nat}
    (hname : name ∉ ImgSection.segment.copied) :
    0 ≤ k ∧ k < 16 ↔ (ImgSection.segment = .segment → 0 ≤ k ∧ k < 16) ∧
      (name ∈ ImgSection.segment.copied → n ≤ 32) :=
  ⟨fun h => ⟨fun _ => h, fun hn => absurd hn hname⟩, fun h => h.1 rfl⟩

/-- A parameter that the section knows is stored, inside its field if it fits. -/
theorem param_adds {sect : ImgSection} {name val : List UInt8} (hsect : s.sect = some sect)
    (hname : name ∈ sect.params) : Adds s (s.param top name val)
      ((sect = .segment → 0 ≤ s.segmentNo ∧ s.segmentNo < 16) ∧
        (name ∈ sect.copied → strncpySize val (4 * s.sp8.val % 2 ^ 32) ≤ 32)) := by
  cases sect with
  | segment =>
      have hcases : name = text "img_name" ∨ name = text "img_size" ∨ name = text "img_base" := by
        simpa [ImgSection.params] using hname
      rcases hcases with rfl | rfl | rfl
      · have hparam : s.param top (text "img_name") val = s.copy (.imageName s.segmentNo) val := by
          unfold OsImg.param
          rw [hsect]
          rfl
        rw [hparam]
        refine (Adds.copy s _ val).congr ?_
        exact ⟨fun h => ⟨fun _ => h.2, fun _ => h.1⟩, fun h => ⟨h.2 (by decide), h.1 rfl⟩⟩
      · have hparam := @OsImg.param_size .segment top s hsect val
        rw [show text "img_size" = AddressSection.segment.sizeName from rfl, hparam]
        refine Adds.congr (Adds.size s _ (by exact Iff.rfl)) ?_
        exact fits_segment (by decide)
      · have hparam := @OsImg.param_base .segment top s hsect val
        rw [show text "img_base" = AddressSection.segment.baseName from rfl, hparam]
        exact (Adds.base s _ _).congr (fits_segment (by decide))
  | scriptInfo =>
      have hcases : name = text "script_base" ∨ name = text "script_size" := by
        simpa [ImgSection.params] using hname
      rcases hcases with rfl | rfl
      · have hparam := @OsImg.param_base .scriptInfo top s hsect val
        rw [show text "script_base" = AddressSection.scriptInfo.baseName from rfl, hparam]
        exact (Adds.base s _ _).congr (fits_word nofun (by decide))
      · have hparam := @OsImg.param_size .scriptInfo top s hsect val
        rw [show text "script_size" = AddressSection.scriptInfo.sizeName from rfl, hparam]
        refine Adds.congr (Adds.size s _ (by exact Iff.rfl)) ?_
        exact fits_word nofun (by decide)
  | logoInfo =>
      have hcases : name = text "logo_name" ∨ name = text "logo_show" ∨
          name = text "logo_address" ∨ name = text "logo_off" := by
        simpa [ImgSection.params] using hname
      unfold OsImg.param
      rw [hsect]
      rcases hcases with rfl | rfl | rfl | rfl
      · refine (Adds.copy s .logoFileName val).congr ?_
        exact ⟨fun h => ⟨nofun, fun _ => h.1⟩, fun h => ⟨h.2 (by decide), trivial⟩⟩
      · exact (Adds.setWord s .logoShow _).congr (fits_word nofun (by decide))
      · exact (Adds.setWord { s with sp8 := fromTop top s.sp8 } .logoAddress _).congr
          (fits_word nofun (by decide))
      · exact (Adds.setWord s .logoOff _).congr (fits_word nofun (by decide))
  | global =>
      have hcases : name = text "start_mode" := by
        simpa [ImgSection.params] using hname
      unfold OsImg.param
      rw [hsect, hcases]
      exact (Adds.setWord s .startMode _).congr (fits_word nofun (by decide))

/-- A parameter that it does not know is not. -/
theorem param_unknown {name val : List UInt8} (h : ¬ s.Knows name) : s.param top name val = s := by
  cases hsect : s.sect with
  | none =>
      unfold OsImg.param
      rw [hsect]
  | some sect =>
      have hno (x : List UInt8) (hx : x ∈ sect.params) : name ≠ x := by
        rintro rfl
        exact h ⟨sect, hsect, hx⟩
      unfold OsImg.param
      cases sect <;> simp only [ImgSection.params, List.mem_cons, List.not_mem_nil, or_false,
        forall_eq_or_imp, forall_eq] at hno <;> simp [hsect, hno]

/-- The stores of a line are inside if it fits. -/
theorem OsImg.line_inside {s' : OsImg} {name val : List UInt8}
    (h : s.line top (.param name val) = some s') (hs : ∀ p ∈ s.puts, p.Inside) :
    (∀ p ∈ s'.puts, p.Inside) ↔ s.ParamFits name val := by
  obtain ⟨-, rfl⟩ := OsImg.line_param h
  by_cases hknows : s.Knows name
  · obtain ⟨sect, hsect, hname⟩ := hknows
    obtain ⟨new, hnew, -, hiff⟩ := @param_adds { s with var7 := (parseParamWords val s.sp8).1
                                                        sp8 := (parseParamWords val s.sp8).2 }
      top sect name val hsect hname
    rw [hnew, List.forall_mem_append, hiff]
    constructor
    · rintro ⟨-, hfits⟩ sect' hsect' -
      cases hsect.symm.trans hsect'
      exact hfits
    · exact fun hfits => ⟨hs, hfits sect hsect hname⟩
  · rw [param_unknown (by exact hknows)]
    exact iff_of_true hs fun sect hsect hname => absurd ⟨sect, hsect, hname⟩ hknows

/-- A line stores nothing if it is not for the section. -/
theorem OsImg.line_stores {s' : OsImg} {name val : List UInt8}
    (h : s.line top (.param name val) = some s') : s'.puts = s.puts ↔ ¬ s.Knows name := by
  obtain ⟨-, rfl⟩ := OsImg.line_param h
  by_cases hknows : s.Knows name
  · obtain ⟨sect, hsect, hname⟩ := hknows
    obtain ⟨new, hnew, hne, -⟩ := @param_adds { s with var7 := (parseParamWords val s.sp8).1
                                                       sp8 := (parseParamWords val s.sp8).2 }
      top sect name val hsect hname
    rw [hnew]
    refine iff_of_false (fun heq => ?_) fun hno => hno ⟨sect, hsect, hname⟩
    exact hne (List.append_cancel_left (heq.trans (List.append_nil _).symm))
  · rw [param_unknown (by exact hknows)]
    exact iff_of_true rfl hknows

theorem OsImg.enter_puts (s : OsImg) (name : List UInt8) : (s.enter name).puts = s.puts := by
  unfold OsImg.enter
  dsimp only
  split_ifs <;> rfl

/-- A line without a value stores nothing. -/
theorem OsImg.line_other {s' : OsImg} {l : ScriptLine} (hl : ¬ l.IsParam)
    (h : s.line top l = some s') : s'.puts = s.puts := by
  cases l with
  | comment =>
      cases h
      rfl
  | sect name =>
      cases h
      exact s.enter_puts name
  | param name val => exact absurd trivial hl

end Param

/-! ## Runs -/

section Runs

variable {top : Nat} {mem : Nat → UInt8} {c : ScriptAt OsImg}

/-- What the parser leaves when it returns. -/
theorem ImgStoresRight.result (h : ImgStoresRight top mem c) {v : Int} {b : OsImg}
    (hret : ParserReturns (osImgParser top) mem c v b) : ∀ p ∈ b.puts, p.Inside := by
  obtain ⟨ls, c', hsteps, hstops⟩ := returns_iff.mp hret
  cases hstops with
  | whole hsize => exact h.last ls c' hsteps hsize
  | bad _ => exact h.inside ls c' hsteps
  | rejected _ => exact h.inside ls c' hsteps

/-- Scripts whose parameters fit. -/
theorem ImgStoresWhen.right (hstart : c.s.puts = []) (h : ImgStoresWhen top mem c) :
    ImgStoresRight top mem c := by
  have hinside {ls : List ScriptLine} {c' : ScriptAt OsImg}
      (hsteps : Steps (osImgParser top) mem c ls c') : ∀ p ∈ c'.s.puts, p.Inside := by
    refine hsteps.invariant (I := fun _ c' => ∀ p ∈ c'.s.puts, p.Inside) ?_ ?_
    · rw [hstart]
      exact fun p hp => (List.not_mem_nil hp).elim
    · intro ls c' l n s' hsteps hinside hsize hread hline
      replace hline : c'.s.line top l = some s' := hline
      cases l with
      | param name val =>
          exact (OsImg.line_inside hline hinside).mpr (h _ _ _ _ _ _ hsteps hsize hread hline).1
      | comment => exact (OsImg.line_other id hline).symm ▸ hinside
      | sect name => exact (OsImg.line_other id hline).symm ▸ hinside
  refine ⟨fun ls c' => hinside, fun ls c' hsteps _ => ?_, fun ls c' hsteps => ?_⟩
  · have hlast : c'.s.finished.puts = c'.s.puts ++ [⟨.segmentSectionCount, _⟩] := rfl
    rw [hlast, List.forall_mem_append]
    refine ⟨hinside hsteps, fun p hp => ?_⟩
    rw [List.mem_singleton.mp hp]
    exact ⟨Nat.le_of_eq (length_leBytes _ _), trivial⟩
  · refine hsteps.invariant
      (I := fun ls c' => (∀ l ∈ ls, ¬ l.IsImgSection) → c'.s.puts = []) (fun _ => hstart) ?_
    intro ls c' l n s' hsteps hnone hsize hread hline hls
    rw [List.forall_mem_append] at hls
    replace hline : c'.s.line top l = some s' := hline
    cases l with
    | param name val =>
        refine ((OsImg.line_stores hline).mpr fun hknows => ?_).trans (hnone hls.1)
        obtain ⟨l, hl, hsect⟩ := (h _ _ _ _ _ _ hsteps hsize hread hline).2 hknows
        exact hls.1 l hl hsect
    | comment => exact (OsImg.line_other id hline).trans (hnone hls.1)
    | sect name => exact (OsImg.line_other id hline).trans (hnone hls.1)

/-- Every run of the parser stores inside the fields, and nothing before a section, exactly if its
parameters fit. -/
theorem imgStores_iff (hstart : c.s.puts = []) :
    ImgStoresRight top mem c ↔ ImgStoresWhen top mem c := by
  refine ⟨fun h ls c' name val n s' hsteps hsize hread hline => ?_, ImgStoresWhen.right hstart⟩
  have hnext := hsteps.snoc hsize hread hline
  refine ⟨(OsImg.line_inside hline (h.inside _ _ hsteps)).mp (h.inside _ _ hnext), fun hknows => ?_⟩
  by_contra hno
  have hls : ∀ l ∈ ls, ¬ l.IsImgSection := fun l hl hsect => hno ⟨l, hl, hsect⟩
  have hbefore := h.unknown _ _ hsteps hls
  have hbehind := h.unknown _ _ hnext (List.forall_mem_append.mpr
    ⟨hls, fun l hl => by rw [List.mem_singleton.mp hl]; exact id⟩)
  exact (OsImg.line_stores hline).mp (hbehind.trans hbefore.symm) hknows

end Runs

end Novo7

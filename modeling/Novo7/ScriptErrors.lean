import Novo7.OsImg

/-!
# What the script parsers return

The result is a variable, shifted, that holds the type of the last value or the -1 it starts with.
`ParserReports` is what the result should say; `parsers_report_iff` is about both parsers, and says
when it does: a script that is accepted has a parameter, and a line or a value that is too long does
not come behind one.
-/

namespace Novo7

open CString

/-! ## Results -/

section Reports

variable {σ ρ : Type} (P : ScriptParser σ ρ) (mem : Nat → UInt8) (c : ScriptAt σ)

/-- Every line is accepted, to the end of the script. -/
def AcceptsLines (ls : List ScriptLine) : Prop := ∃ c', Steps P mem c ls c' ∧ c'.size = 0

/-- The parser returns 0 for the scripts that are accepted, those of comments only among them, and
for no other. -/
structure ParserReports : Prop where
  zero : (∃ b, ParserReturns P mem c 0 b) ↔ ∃ ls, AcceptsLines P mem c ls
  comments : ∀ ls, (∀ l ∈ ls, l = .comment) → AcceptsLines P mem c ls →
    ∃ b, ParserReturns P mem c 0 b

/-- A script that is accepted has a parameter; no line or value is too long behind parameters that
were accepted. -/
structure ReportsWhen : Prop where
  param : ∀ ls, AcceptsLines P mem c ls → ∃ l ∈ ls, l.IsParam
  first : ∀ ls c', Steps P mem c ls c' → StopsBad mem c' → ∀ l ∈ ls, ¬ l.IsParam

end Reports

section Reports

variable {σ ρ : Type} {P : ScriptParser σ ρ} {mem : Nat → UInt8} {c : ScriptAt σ}

/-- What the variable says at the place where a run stops, if it says anything. -/
theorem Steps.var7_shift {c' : ScriptAt σ} {ls : List ScriptLine} (h : Steps P mem c ls c')
    (hstart : P.var7 c.s = -1) : P.var7 c'.s / 2 ^ 31 = 0 ↔ ∃ l ∈ ls, l.IsParam := by
  by_cases hls : ∃ l ∈ ls, l.IsParam
  · refine iff_of_true ?_ hls
    rcases h.var7.1 hls with h | h <;> rw [h] <;> decide
  · refine iff_of_false ?_ hls
    rw [h.var7.2 fun l hl hp => hls ⟨l, hl, hp⟩, hstart]
    decide

/-- A run that ends at the end of the script, or at a line that is too long or has a value that
is: it returns 0 if there was a parameter. -/
theorem Steps.returns_zero {c' : ScriptAt σ} {ls : List ScriptLine} (h : Steps P mem c ls c')
    (hstart : P.var7 c.s = -1) (hstop : c'.size = 0 ∨ StopsBad mem c') :
    (∃ b, ParserReturns P mem c 0 b) ↔ ∃ l ∈ ls, l.IsParam := by
  have hstopped : Stopped P mem c' := hstop.elim .whole .bad
  rw [← h.var7_shift hstart]
  constructor
  · rintro ⟨b, hb⟩
    obtain ⟨ls', c'', hsteps, hstops⟩ := returns_iff.mp hb
    obtain ⟨-, rfl⟩ := h.unique hstopped hsteps hstops.stopped
    generalize hv : (0 : Int) = v at hstops
    cases hstops with
    | whole _ => rfl
    | bad _ => rfl
    | rejected hrej =>
        obtain ⟨hsize, l, n, hread, -⟩ := hrej
        rcases hstop with h0 | hbad
        · exact absurd h0 hsize
        · cases hbad.2.unique hread
  · intro hv
    rcases hstop with hsize | hbad
    · exact ⟨P.finished c'.s, returns_iff.mpr ⟨ls, c', h, hv ▸ .whole hsize⟩⟩
    · exact ⟨P.stopped c'.s, returns_iff.mpr ⟨ls, c', h, hv ▸ .bad hbad⟩⟩

/-- The result is right for the scripts that have parameters where it needs them. -/
theorem parserReports_iff (hstart : P.var7 c.s = -1) :
    ParserReports P mem c ↔ ReportsWhen P mem c := by
  constructor
  · intro h
    refine ⟨fun ls hls => ?_, fun ls c' hsteps hbad l hl hp => ?_⟩
    · obtain ⟨c', hsteps, hsize⟩ := hls
      exact (hsteps.returns_zero hstart (.inl hsize)).mp (h.zero.mpr ⟨ls, c', hsteps, hsize⟩)
    · obtain ⟨ls', c'', hsteps', hsize⟩ :=
        h.zero.mp ((hsteps.returns_zero hstart (.inr hbad)).mpr ⟨l, hl, hp⟩)
      obtain ⟨-, rfl⟩ := hsteps.unique (.bad hbad) hsteps' (.whole hsize)
      exact hbad.1 hsize
  · intro h
    have hzero (ls : List ScriptLine) (hls : AcceptsLines P mem c ls) :
        ∃ b, ParserReturns P mem c 0 b := by
      obtain ⟨c', hsteps, hsize⟩ := hls
      exact (hsteps.returns_zero hstart (.inl hsize)).mpr (h.param ls ⟨c', hsteps, hsize⟩)
    refine ⟨⟨?_, fun ⟨ls, hls⟩ => hzero ls hls⟩, fun ls _ => hzero ls⟩
    rintro ⟨b, hb⟩
    obtain ⟨ls, c', hsteps, hstops⟩ := returns_iff.mp hb
    rcases hstops.stopped with hsize | hbad | hrej
    · exact ⟨ls, c', hsteps, hsize⟩
    · obtain ⟨l, hl, hp⟩ := (hsteps.returns_zero hstart (.inr hbad)).mp ⟨b, hb⟩
      exact absurd hp (h.first ls c' hsteps hbad l hl)
    · generalize hv : (0 : Int) = v at hstops
      cases hstops with
      | whole hsize => exact ⟨ls, c', hsteps, hsize⟩
      | bad hbad =>
          obtain ⟨-, l, n, hread, -⟩ := hrej
          cases hbad.2.unique hread
      | rejected _ => cases hv

end Reports

/-! ## The parser of the boot menu's settings -/

theorem OsSel.line_param {s s' : OsSel} {name val : List UInt8}
    (h : s.line (.param name val) = some s') :
    ∃ v, parseParamVal val = some v ∧ s' = s.param name val v := by
  obtain ⟨v, hv, rfl⟩ := Option.map_eq_some_iff.mp h
  exact ⟨v, hv, rfl⟩

theorem OsSel.var7_param (s : OsSel) (name val : List UInt8) (v : ParamVal) :
    (s.param name val v).var7 = v.code := by
  unfold OsSel.param OsSel.setInt
  dsimp only
  split_ifs <;> rfl

/-- `parser_script_os_sel` -/
def osSelParser : ScriptParser OsSel BootIni where
  line := OsSel.line
  var7 := OsSel.var7
  finished := OsSel.finished
  stopped := OsSel.stopped
  param_var7 := fun {s s' name val} h => by
    obtain ⟨v, -, rfl⟩ := OsSel.line_param h
    rw [OsSel.var7_param]
    cases v with
    | str words => exact .inr rfl
    | num n sign => exact .inl rfl
  comment_var7 := fun h => by
    cases h
    rfl
  sect_var7 := fun {s s' name} h => by
    unfold OsSel.line at h
    dsimp only at h
    split_ifs at h <;> cases h <;> rfl

/-- The settings as the parser finds them: all zero. -/
def OsSel.start (sign : Int) : OsSel := ⟨none, [], fun _ => 0, -1, sign⟩

theorem parserLoop_osSel {mem : Nat → UInt8} {fuel : Nat} : ∀ {left : Nat} {c : ScriptAt OsSel},
    parserLoop osSelParser mem fuel left c = osSelLoop mem fuel left c.pos c.size c.s := by
  intro left
  induction left with
  | zero =>
      intro c
      rfl
  | succ left ih =>
      intro c
      rw [parserLoop, osSelLoop]
      refine if_congr Iff.rfl rfl ?_
      cases readLine mem fuel c.pos c.size with
      | endless => rfl
      | bad => rfl
      | line l n =>
          dsimp only [osSelParser]
          cases c.s.line l with
          | none => rfl
          | some s' => exact ih

/-- The loop of the parser is the one that the boot menu's settings come from. -/
theorem parserScriptOsSel_eq (mem : Nat → UInt8) (size sign : Int) (fuel : Nat) :
    parserScriptOsSel mem size sign fuel =
      parserLoop osSelParser mem fuel fuel ⟨0, size, .start sign⟩ := by
  rw [parserLoop_osSel]
  rfl

/-! ## Both parsers -/

/-- For every script, whatever lies behind it and the variables held before: the results of the two
parsers are right exactly if each script that is accepted has a parameter, and no line or value that
is too long comes behind an accepted parameter. -/
theorem parsers_report_iff (mem : Nat → UInt8) (size : Int) :
    (∀ top sect adjust sp8 script,
      let c : ScriptAt OsImg := ⟨0, size, .start sect adjust sp8 script⟩
      ParserReports (osImgParser top) mem c ↔ ReportsWhen (osImgParser top) mem c) ∧
    ∀ sign, let c : ScriptAt OsSel := ⟨0, size, .start sign⟩
      ParserReports osSelParser mem c ↔ ReportsWhen osSelParser mem c :=
  ⟨fun _ _ _ _ _ => parserReports_iff rfl, fun _ => parserReports_iff rfl⟩

/-- A script of a comment, in which all is accepted: both parsers return -1. -/
theorem comment_rejected : (AcceptsLines osSelParser (fileText ";\n") ⟨0, 2, .start 0⟩ [.comment] ∧
    (parserScriptOsSel (fileText ";\n") 2 0 2).map Prod.fst = some (-1)) ∧
    ¬ ParserReports osSelParser (fileText ";\n") ⟨0, 2, .start 0⟩ ∧
    ∀ sect sp8 script,
      ¬ ParserReports (osImgParser 0) (fileText ";\n") ⟨0, 2, .start sect false sp8 script⟩ := by
  have hread : ReadsLine (fileText ";\n") 0 2 (.line .comment 2) := ⟨nofun, 0, rfl⟩
  have hsel : AcceptsLines osSelParser (fileText ";\n") ⟨0, 2, .start 0⟩ [.comment] :=
    ⟨⟨2, 0, .start 0⟩, .step (show (2 : Int) ≠ 0 by decide) hread rfl (.refl _), rfl⟩
  refine ⟨⟨hsel, by decide +kernel⟩, fun h => ?_, fun sect sp8 script h => ?_⟩
  · obtain ⟨l, hl, hp⟩ := ((parserReports_iff rfl).mp h).param _ hsel
    cases List.mem_singleton.mp hl
    exact hp
  · have himg : AcceptsLines (osImgParser 0) (fileText ";\n")
        ⟨0, 2, .start sect false sp8 script⟩ [.comment] :=
      ⟨⟨2, 0, .start sect false sp8 script⟩,
        .step (show (2 : Int) ≠ 0 by decide) hread rfl (.refl _), rfl⟩
    obtain ⟨l, hl, hp⟩ := ((parserReports_iff rfl).mp h).param _ himg
    cases List.mem_singleton.mp hl
    exact hp

end Novo7

import Mathlib.Data.List.Nodup
import Mathlib.Data.List.Perm.Basic
import Mathlib.Data.List.Range
import Mathlib.Data.Nat.ModEq
import Mathlib.Order.Defs.Unbundled

/-!
# Scanning a ring of slots

A scan that begins anywhere in a ring of slots, goes once around it and selects the slot with the
best key. Which of two keys is better is a relation, and of equally good ones the scan takes the
later. Nothing is said here about what the slots hold.

* `visits_perm`: one round visits every slot, and none twice.
* `select_best`: if no key is worse than the one the scan starts with, it ends with no slot only if
  all of them are empty, and else with a slot that has a best key.
-/

namespace RingScan

/-! ## The slots of a round -/

/-- The slots of the next `n` rounds of a loop over `cnt` slots that is about to look at `item`. -/
def visits (cnt : Nat) : Nat → Nat → List Nat
  | 0, _ => []
  | n + 1, item =>
      let item := if item ≥ cnt then 0 else item
      item :: visits cnt n (item + 1)

/-- The slot that the loop takes `item` for. -/
theorem wrap_lt {cnt : Nat} (hcnt : 0 < cnt) (item : Nat) :
    (if item ≥ cnt then 0 else item) < cnt := by
  split <;> omega

theorem visits_eq {cnt : Nat} (hcnt : 0 < cnt) : ∀ (n item : Nat),
    visits cnt n item =
      (List.range n).map fun k => ((if item ≥ cnt then 0 else item) + k) % cnt := by
  intro n
  induction n with
  | zero => exact fun _ => rfl
  | succ n ih =>
      intro item
      have hlt := wrap_lt hcnt item
      rw [visits, List.range_succ_eq_map, List.map_cons, List.map_map]
      generalize (if item ≥ cnt then 0 else item) = i at hlt ⊢
      rw [Nat.add_zero i, Nat.mod_eq_of_lt hlt, ih]
      refine congrArg _ (List.map_congr_left fun k _ => ?_)
      show ((if i + 1 ≥ cnt then 0 else i + 1) + k) % cnt = (i + (k + 1)) % cnt
      split
      · rw [show i + (k + 1) = cnt + k by omega, Nat.add_mod_left, Nat.zero_add]
      · rw [show i + (k + 1) = i + 1 + k by omega]

theorem visits_lt {cnt n item i : Nat} (hcnt : 0 < cnt) (hi : i ∈ visits cnt n item) :
    i < cnt := by
  rw [visits_eq hcnt] at hi
  obtain ⟨k, -, rfl⟩ := List.mem_map.mp hi
  exact Nat.mod_lt _ hcnt

theorem visits_nodup {cnt n : Nat} (hcnt : 0 < cnt) (hn : n ≤ cnt) (item : Nat) :
    (visits cnt n item).Nodup := by
  rw [visits_eq hcnt]
  generalize (if item ≥ cnt then 0 else item) = i
  refine List.Nodup.map_on (fun x hx y hy hxy => ?_) List.nodup_range
  have hx := List.mem_range.mp hx
  have hy := List.mem_range.mp hy
  have hmod : x % cnt = y % cnt := Nat.ModEq.add_left_cancel' i hxy
  rwa [Nat.mod_eq_of_lt (Nat.lt_of_lt_of_le hx hn), Nat.mod_eq_of_lt (Nat.lt_of_lt_of_le hy hn)]
    at hmod

theorem mem_visits {cnt i : Nat} (hi : i < cnt) (item : Nat) : i ∈ visits cnt cnt item := by
  have hcnt : 0 < cnt := Nat.zero_lt_of_lt hi
  have hlt := wrap_lt hcnt item
  rw [visits_eq hcnt]
  generalize (if item ≥ cnt then 0 else item) = j at hlt ⊢
  refine List.mem_map.mpr ⟨(i + (cnt - j)) % cnt, List.mem_range.mpr (Nat.mod_lt _ hcnt), ?_⟩
  rw [Nat.add_mod_mod, show j + (i + (cnt - j)) = i + cnt by omega, Nat.add_mod_right,
    Nat.mod_eq_of_lt hi]

/-- One round visits every slot once. -/
theorem visits_perm (cnt item : Nat) : (visits cnt cnt item).Perm (List.range cnt) := by
  rcases Nat.eq_zero_or_pos cnt with rfl | hcnt
  · exact .refl _
  · refine (List.perm_ext_iff_of_nodup (visits_nodup hcnt (Nat.le_refl _) item)
      List.nodup_range).mpr fun i => ?_
    rw [List.mem_range]
    exact ⟨visits_lt hcnt, fun hi => mem_visits hi item⟩

/-! ## The selection -/

section Selection

variable {ι κ : Type} (key : ι → Option κ) (better : κ → κ → Prop)

/-- The scan of a list of slots; an empty slot has no key. The slot selected so far and its key go
along. -/
def select [DecidableRel better] : List ι → Option ι → κ → Option ι
  | [], best, _ => best
  | i :: l, best, b =>
      match key i with
      | none => select l best b
      | some k => if better k b then select l (some i) k else select l best b

/-- What is known after the slots `seen`: either all of them are empty and the key is still the one
to start with, or the selected slot has the best key of them. -/
def Picked (top : κ) (seen : List ι) : Option ι → κ → Prop
  | none, b => b = top ∧ ∀ j ∈ seen, key j = none
  | some i, b => i ∈ seen ∧ key i = some b ∧ ∀ j ∈ seen, ∀ k, key j = some k → better b k

variable {key better}

/-- A slot that is selected is one of the list, with a key. -/
theorem select_mem [DecidableRel better] : ∀ {l : List ι} {best : Option ι} {b : κ} {i : ι},
    select key better l best b = some i → best = some i ∨ i ∈ l ∧ (key i).isSome := by
  intro l
  induction l with
  | nil => exact fun h => .inl h
  | cons j l ih =>
      intro best b i h
      rw [select] at h
      cases hk : key j with
      | none =>
          rw [hk] at h
          exact (ih h).imp_right (And.imp_left (List.mem_cons_of_mem _))
      | some k =>
          rw [hk] at h
          dsimp only at h
          split at h
          · rcases ih h with heq | hi
            · obtain rfl := Option.some.inj heq
              exact .inr ⟨List.mem_cons_self, by rw [hk]; rfl⟩
            · exact .inr ⟨List.mem_cons_of_mem _ hi.1, hi.2⟩
          · exact (ih h).imp_right (And.imp_left (List.mem_cons_of_mem _))

/-- A slot is given up only for another. -/
theorem select_some_isSome [DecidableRel better] : ∀ (l : List ι) (i : ι) (b : κ),
    (select key better l (some i) b).isSome := by
  intro l
  induction l with
  | nil => exact fun _ _ => rfl
  | cons j l ih =>
      intro i b
      rw [select]
      cases key j with
      | none => exact ih i b
      | some k =>
          dsimp only
          split
          · exact ih j k
          · exact ih i b

/-- One slot is enough whose key is no worse than the one to start with. -/
theorem select_isSome [DecidableRel better] {top k : κ} {i : ι} (hk : key i = some k)
    (hbetter : better k top) :
    ∀ {l : List ι}, i ∈ l → (select key better l none top).isSome := by
  intro l
  induction l with
  | nil => exact fun h => absurd h List.not_mem_nil
  | cons j l ih =>
      intro hi
      rw [select]
      rcases List.mem_cons.mp hi with rfl | hi
      · rw [hk]
        dsimp only
        rw [if_pos hbetter]
        exact select_some_isSome l i k
      · cases key j with
        | none => exact ih hi
        | some k' =>
            dsimp only
            split
            · exact select_some_isSome l j k'
            · exact ih hi

variable {top : κ}

theorem Picked.skip {seen : List ι} {best : Option ι} {b : κ} {j : ι}
    (h : Picked key better top seen best b)
    (hj : ∀ k, key j = some k → best.isSome ∧ better b k) :
    Picked key better top (seen ++ [j]) best b := by
  cases best with
  | none =>
      refine ⟨h.1, fun i hi => ?_⟩
      rcases List.mem_append.mp hi with hi | hi
      · exact h.2 i hi
      · obtain rfl := List.mem_singleton.mp hi
        cases hk : key i with
        | none => rfl
        | some k => cases (hj k hk).1
  | some i =>
      refine ⟨List.mem_append_left _ h.1, h.2.1, fun l hl k hk => ?_⟩
      rcases List.mem_append.mp hl with hl | hl
      · exact h.2.2 l hl k hk
      · obtain rfl := List.mem_singleton.mp hl
        exact (hj k hk).2

theorem Picked.take [IsTrans κ better] {seen : List ι} {best : Option ι} {b k : κ} {j : ι}
    (h : Picked key better top seen best b) (hk : key j = some k) (hrefl : better k k)
    (hkb : better k b) : Picked key better top (seen ++ [j]) (some j) k := by
  refine ⟨List.mem_append_right _ (List.mem_singleton_self j), hk, fun l hl k' hk' => ?_⟩
  rcases List.mem_append.mp hl with hl | hl
  · cases best with
    | none => rw [h.2 l hl] at hk'; cases hk'
    | some i => exact trans_of better hkb (h.2.2 l hl k' hk')
  · obtain rfl := List.mem_singleton.mp hl
    rw [hk] at hk'
    obtain rfl := Option.some.inj hk'
    exact hrefl

theorem select_picked [DecidableRel better] [IsTrans κ better]
    (htotal : ∀ a b, better a b ∨ better b a) :
    ∀ (l seen : List ι) (best : Option ι) (b : κ),
      (∀ i ∈ l, ∀ k, key i = some k → better k top) → Picked key better top seen best b →
      ∃ b', Picked key better top (seen ++ l) (select key better l best b) b' := by
  intro l
  induction l with
  | nil =>
      intro seen best b _ h
      rw [List.append_nil]
      exact ⟨b, h⟩
  | cons j l ih =>
      intro seen best b htop h
      have hl : ∀ i ∈ l, ∀ k, key i = some k → better k top :=
        fun i hi => htop i (List.mem_cons_of_mem _ hi)
      rw [select, List.append_cons]
      cases hk : key j with
      | none => exact ih _ _ _ hl (h.skip fun k hk' => by rw [hk] at hk'; cases hk')
      | some k =>
          dsimp only
          by_cases hkb : better k b
          · rw [if_pos hkb]
            exact ih _ _ _ hl (h.take hk ((htotal k k).elim id id) hkb)
          · rw [if_neg hkb]
            refine ih _ _ _ hl (h.skip fun k' hk' => ?_)
            rw [hk] at hk'
            obtain rfl := Option.some.inj hk'
            refine ⟨?_, (htotal k b).resolve_left hkb⟩
            -- the key to start with is no better than any
            cases best with
            | none => exact absurd (h.1 ▸ htop j List.mem_cons_self k hk) hkb
            | some i => rfl

/-- The scan from the start. -/
theorem select_best [DecidableRel better] [IsTrans κ better]
    (htotal : ∀ a b, better a b ∨ better b a) {l : List ι}
    (htop : ∀ i ∈ l, ∀ k, key i = some k → better k top) :
    ∃ b, Picked key better top l (select key better l none top) b :=
  select_picked htotal l [] none top htop ⟨rfl, fun _ h => absurd h List.not_mem_nil⟩

end Selection

end RingScan
